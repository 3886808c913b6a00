import Keyset.Json.Basic
import Mathlib.Data.List.Basic

/-!
# Leaves of a value

A JSON value is a tree whose leaves are what is no array and no object.  `leaves` lists them in the
order of the text, `mapLeaves` replaces each by a value and leaves arrays, names and their order alone
(`mapItems_eq`, `mapFields_eq`), and `treeInduction` is the induction on that tree.
-/

namespace Keyset.Json

mutual

/-- The leaves of a value, in the order of its text. -/
def leaves : Json → List Json
  | .array items => itemLeaves items
  | .object fields => fieldLeaves fields
  | v => [v]
termination_by structural v => v

/-- The leaves of items. -/
def itemLeaves : List Json → List Json
  | [] => []
  | v :: vs => leaves v ++ itemLeaves vs
termination_by structural items => items

/-- The leaves of the values of fields. -/
def fieldLeaves : List (String × Json) → List Json
  | [] => []
  | (_, v) :: fs => leaves v ++ fieldLeaves fs
termination_by structural fields => fields

end

mutual

/-- A value with every leaf replaced. -/
def mapLeaves (f : Json → Json) : Json → Json
  | .array items => .array (mapItems f items)
  | .object fields => .object (mapFields f fields)
  | v => f v
termination_by structural v => v

/-- Items with every leaf replaced. -/
def mapItems (f : Json → Json) : List Json → List Json
  | [] => []
  | v :: vs => mapLeaves f v :: mapItems f vs
termination_by structural items => items

/-- Fields with every leaf of their values replaced. -/
def mapFields (f : Json → Json) : List (String × Json) → List (String × Json)
  | [] => []
  | (k, v) :: fs => (k, mapLeaves f v) :: mapFields f fs
termination_by structural fields => fields

end

theorem itemLeaves_eq (items : List Json) : itemLeaves items = items.flatMap leaves := by
  induction items with
  | nil => rfl
  | cons v vs ih => rw [itemLeaves, ih, List.flatMap_cons]

theorem fieldLeaves_eq (fields : Object) :
    fieldLeaves fields = fields.flatMap fun field => field.2.leaves := by
  induction fields with
  | nil => rfl
  | cons field fields ih => rw [fieldLeaves, ih, List.flatMap_cons]

@[simp] theorem leaves_array (items : List Json) : (array items).leaves = items.flatMap leaves :=
  itemLeaves_eq items

@[simp] theorem leaves_object (fields : Object) :
    (object fields).leaves = fields.flatMap fun field => field.2.leaves :=
  fieldLeaves_eq fields

theorem mapItems_eq (f : Json → Json) (items : List Json) :
    mapItems f items = items.map (mapLeaves f) := by
  induction items with
  | nil => rfl
  | cons v vs ih => rw [mapItems, ih, List.map_cons]

theorem mapFields_eq (f : Json → Json) (fields : Object) :
    mapFields f fields = fields.map fun field => (field.1, field.2.mapLeaves f) := by
  induction fields with
  | nil => rfl
  | cons field fields ih => rw [mapFields, ih, List.map_cons]

/-- A property of the leaves that an array or an object has if all its parts have it is one of all
values. -/
@[elab_as_elim]
theorem treeInduction {P : Json → Prop} (null : P .null) (bool : ∀ b, P (.bool b))
    (number : ∀ n, P (.number n)) (string : ∀ s, P (.string s))
    (array : ∀ items, (∀ v ∈ items, P v) → P (.array items))
    (object : ∀ fields : Object, (∀ field ∈ fields, P field.2) → P (.object fields)) (v : Json) :
    P v := by
  -- the parts of a value are smaller than the value
  suffices h : ∀ n, ∀ v : Json, sizeOf v < n → P v from h _ v (Nat.lt_succ_self _)
  intro n
  induction n with
  | zero => exact fun v hv => absurd hv (Nat.not_lt_zero _)
  | succ n ih =>
    intro v hv
    cases v with
    | null => exact null
    | bool b => exact bool b
    | number n => exact number n
    | string s => exact string s
    | array items =>
      refine array items fun v hmem => ih v ?_
      have hsize := List.sizeOf_lt_of_mem hmem
      simp only [Json.array.sizeOf_spec] at hv
      omega
    | object fields =>
      refine object fields fun (k, v) hmem => ih v ?_
      have hsize := List.sizeOf_lt_of_mem hmem
      simp only [Json.object.sizeOf_spec] at hv
      simp only [Prod.mk.sizeOf_spec] at hsize
      omega

/-- A leaf is its own only leaf. -/
theorem leaves_of_mem_leaves {leaf v : Json} (h : leaf ∈ v.leaves) : leaf.leaves = [leaf] := by
  induction v using treeInduction with
  | null | bool | number | string =>
    obtain rfl := List.mem_singleton.mp h
    rfl
  | array items ih =>
    rw [leaves_array] at h
    obtain ⟨v, hv, hleaf⟩ := List.mem_flatMap.mp h
    exact ih v hv hleaf
  | object fields ih =>
    rw [leaves_object] at h
    obtain ⟨field, hfield, hleaf⟩ := List.mem_flatMap.mp h
    exact ih field hfield hleaf

/-- The leaves of the values that leaves were replaced by. -/
theorem leaves_mapLeaves (f : Json → Json) (v : Json) :
    (v.mapLeaves f).leaves = v.leaves.flatMap fun leaf => (f leaf).leaves := by
  induction v using treeInduction with
  | null | bool | number | string => simp [mapLeaves, leaves]
  | array items ih =>
    rw [mapLeaves, mapItems_eq, leaves_array, leaves_array, List.flatMap_map, List.flatMap_assoc]
    exact List.flatMap_congr ih
  | object fields ih =>
    rw [mapLeaves, mapFields_eq, leaves_object, leaves_object, List.flatMap_map, List.flatMap_assoc]
    exact List.flatMap_congr ih

/-- Leaves that stand for themselves leave the value as it is. -/
theorem mapLeaves_eq_self {f : Json → Json} {v : Json} (h : ∀ leaf ∈ v.leaves, f leaf = leaf) :
    v.mapLeaves f = v := by
  induction v using treeInduction with
  | null | bool | number | string => exact h _ (by simp [leaves])
  | array items ih =>
    have hitems : ∀ v ∈ items, v.mapLeaves f = v := by
      intro v hv
      refine ih v hv fun leaf hleaf => h leaf ?_
      rw [leaves_array]
      exact List.mem_flatMap_of_mem hv hleaf
    rw [mapLeaves, mapItems_eq, List.map_congr_left hitems, List.map_id']
  | object fields ih =>
    have hfields : ∀ field ∈ fields, (field.1, field.2.mapLeaves f) = field := by
      intro field hfield
      rw [ih field hfield fun leaf hleaf => h leaf ?_]
      rw [leaves_object]
      exact List.mem_flatMap_of_mem hfield hleaf
    rw [mapLeaves, mapFields_eq, List.map_congr_left hfields, List.map_id']

end Keyset.Json
