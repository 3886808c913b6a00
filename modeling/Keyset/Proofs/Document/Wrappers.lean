import Keyset.Proofs.Json.Leaves
import Keyset.Query.Options
import Mathlib.Tactic.SplitIfs

/-!
# Wrappers in a value

Reading a value can only fail at a wrapper: a value is read if all wrappers in it are
(`Value.isSome_ofJson?_iff`), where `Json.wrappers` lists the outermost.  Names make a wrapper, so one
stays where it is when leaves are replaced (`Json.mapFields_mem_wrappers`).  An object that has a name
of a wrapper is read as no document, and any other as one, if it is read at all
(`Document.ofJson_eq_ok_iff`).
-/

namespace Keyset

/-! ### Names -/

namespace Json

theorem get?_mapFields (f : Json → Json) (fields : Object) (name : String) :
    Fields.get? (mapFields f fields) name = (fields.get? name).map (mapLeaves f) := by
  induction fields with
  | nil => rfl
  | cons field fields ih =>
    obtain ⟨k, v⟩ := field
    rw [mapFields, Fields.get?, Fields.get?, ih]
    split_ifs <;> rfl

/-- What makes an object a wrapper is not changed with its leaves. -/
theorem nameOf?_mapFields (f : Json → Json) (fields : Object) :
    Wrapper.nameOf? (mapFields f fields) = Wrapper.nameOf? fields := by
  have hhas : Fields.has (mapFields f fields) = fields.has := by
    funext name
    unfold Fields.has
    rw [get?_mapFields, Option.isSome_map]
  unfold Wrapper.nameOf?
  rw [hhas]

/-! ### The wrappers of a value -/

mutual

/-- The wrappers in a value, in the order of its text.  What is inside of a wrapper is a part of it. -/
def wrappers : Json → List Object
  | .array items => itemWrappers items
  | .object fields =>
    match Wrapper.nameOf? fields with
    | some _ => [fields]
    | none => fieldWrappers fields
  | _ => []
termination_by structural v => v

/-- The wrappers in items. -/
def itemWrappers : List Json → List Object
  | [] => []
  | v :: vs => wrappers v ++ itemWrappers vs
termination_by structural items => items

/-- The wrappers in the values of fields. -/
def fieldWrappers : List (String × Json) → List Object
  | [] => []
  | (_, v) :: fs => wrappers v ++ fieldWrappers fs
termination_by structural fields => fields

end

@[simp] theorem wrappers_array (items : List Json) :
    (array items).wrappers = items.flatMap wrappers := by
  show itemWrappers items = _
  induction items with
  | nil => rfl
  | cons v vs ih => rw [itemWrappers, ih, List.flatMap_cons]

theorem wrappers_of_nameOf? {fields : Object} {name : String}
    (h : Wrapper.nameOf? fields = some name) : (object fields).wrappers = [fields] := by
  rw [wrappers, h]

theorem wrappers_of_nameOf?_none {fields : Object} (h : Wrapper.nameOf? fields = none) :
    (object fields).wrappers = fields.flatMap fun field => field.2.wrappers := by
  rw [wrappers, h]
  clear h
  show fieldWrappers fields = _
  induction fields with
  | nil => rfl
  | cons field fields ih => rw [fieldWrappers, ih, List.flatMap_cons]

/-- Leaves are replaced in a wrapper without removing it. -/
theorem mapFields_mem_wrappers {f : Json → Json} {v : Json} {wrapper : Object}
    (h : wrapper ∈ v.wrappers) : mapFields f wrapper ∈ (v.mapLeaves f).wrappers := by
  induction v using treeInduction with
  | null | bool | number | string => cases h
  | array items ih =>
    rw [wrappers_array] at h
    obtain ⟨v, hv, hwrapper⟩ := List.mem_flatMap.mp h
    rw [mapLeaves, mapItems_eq, wrappers_array, List.flatMap_map]
    exact List.mem_flatMap_of_mem hv (ih v hv hwrapper)
  | object fields ih =>
    -- the object is a wrapper before just if it is one after
    have hname := nameOf?_mapFields f fields
    rw [mapLeaves]
    cases hfields : Wrapper.nameOf? fields with
    | some name =>
      rw [wrappers_of_nameOf? hfields, List.mem_singleton] at h
      rw [wrappers_of_nameOf? (hname.trans hfields), h]
      exact List.mem_singleton_self _
    | none =>
      rw [wrappers_of_nameOf?_none hfields] at h
      obtain ⟨field, hfield, hwrapper⟩ := List.mem_flatMap.mp h
      rw [wrappers_of_nameOf?_none (hname.trans hfields), mapFields_eq, List.flatMap_map]
      exact List.mem_flatMap_of_mem hfield (ih field hfield hwrapper)

end Json

/-! ### Reading -/

namespace Value

theorem isSome_listOfJson?_iff {items : List Json} :
    (listOfJson? items).isSome ↔ ∀ v ∈ items, (ofJson? v).isSome := by
  induction items with
  | nil => simp [listOfJson?]
  | cons v vs ih =>
    rw [List.forall_mem_cons, ← ih, listOfJson?]
    cases ofJson? v <;> cases listOfJson? vs <;> simp

theorem isSome_fieldsOfJson?_iff {fields : Json.Object} :
    (fieldsOfJson? fields).isSome ↔ ∀ field ∈ fields, (ofJson? field.2).isSome := by
  induction fields with
  | nil => simp [fieldsOfJson?]
  | cons field fields ih =>
    rw [List.forall_mem_cons, ← ih, fieldsOfJson?]
    cases ofJson? field.2 <;> cases fieldsOfJson? fields <;> simp

theorem ofJson?_of_nameOf?_none {fields : Json.Object} (h : Wrapper.nameOf? fields = none) :
    ofJson? (.object fields) = (fieldsOfJson? fields).map .document := by
  rw [ofJson?, h]

/-- **A value is read if all wrappers in it are.** -/
theorem isSome_ofJson?_iff {v : Json} :
    (ofJson? v).isSome ↔ ∀ wrapper ∈ v.wrappers, (ofJson? (.object wrapper)).isSome := by
  induction v using Json.treeInduction with
  | null | bool | number | string => simp [ofJson?, Json.wrappers]
  | array items ih =>
    rw [ofJson?, Option.isSome_map, isSome_listOfJson?_iff, Json.wrappers_array,
      List.forall_mem_flatMap]
    exact forall₂_congr ih
  | object fields ih =>
    cases hname : Wrapper.nameOf? fields with
    | some name => rw [Json.wrappers_of_nameOf? hname, List.forall_mem_singleton]
    | none =>
      rw [ofJson?_of_nameOf?_none hname, Option.isSome_map, isSome_fieldsOfJson?_iff,
        Json.wrappers_of_nameOf?_none hname, List.forall_mem_flatMap]
      exact forall₂_congr ih

end Value

/-! ### Wrappers are no documents -/

namespace Wrapper

/-- A value that is read, if it is, is no document. -/
def NoDocument (r : Option Value) : Prop :=
  ∀ doc, r ≠ some (.document doc)

namespace NoDocument

variable {α : Type} {o : Option α}

theorem bind {f : α → Option Value} (h : ∀ a, NoDocument (f a)) : NoDocument (o.bind f) := by
  intro doc hdoc
  obtain ⟨a, -, ha⟩ := Option.bind_eq_some_iff.mp hdoc
  exact h a doc ha

theorem map {f : α → Value} (h : ∀ a doc, f a ≠ .document doc) : NoDocument (o.map f) := by
  intro doc hdoc
  obtain ⟨a, -, ha⟩ := Option.map_eq_some_iff.mp hdoc
  exact h a doc ha

theorem none : NoDocument none :=
  nofun

end NoDocument

theorem noDocument_regex? (v : Json) : NoDocument (regex? v) :=
  .bind fun _ => .bind fun _ => .bind fun _ => nofun

theorem noDocument_binary? (v : Json) : NoDocument (binary? v) := by
  refine .bind fun _ => .bind fun _ => .bind fun _ => .bind fun _ => ?_
  split <;> nofun

theorem noDocument_timestamp? (v : Json) : NoDocument (timestamp? v) :=
  .bind fun _ => .bind fun _ => .bind fun _ => nofun

theorem noDocument_dateTime? (v : Json) : NoDocument (dateTime? v) := by
  unfold dateTime?
  split
  · exact .map nofun
  · exact .map nofun
  · exact .bind fun _ => .map nofun

theorem noDocument_pointer? (v : Json) : NoDocument (pointer? v) :=
  .bind fun _ => .bind fun _ => .bind fun _ => .bind fun _ => .bind fun _ => nofun

theorem noDocument_code? (fields : Json.Object) (scope : Option Document) :
    NoDocument (code? fields scope) := by
  refine .bind fun _ => .bind fun _ => .bind fun found => ?_
  cases found with
  | none => nofun
  | some _ => exact .map nofun

/-- A wrapper stands for a value that is no document. -/
theorem noDocument_value? (name : String) (fields : Json.Object) (scope : Option Document) :
    NoDocument (value? name fields scope) := by
  unfold value?
  split_ifs
  · exact noDocument_code? fields scope
  · refine .bind fun v => ?_
    -- one case for each name but `$code`, and one for what is no name of a wrapper
    split
    · exact .bind fun _ => .map nofun
    · exact .map nofun
    · exact noDocument_regex? v
    · exact .bind fun _ => .map nofun
    · exact .bind fun _ => .map nofun
    · exact .bind fun _ => .map nofun
    · exact .bind fun _ => .map nofun
    · exact noDocument_binary? v
    · exact .bind fun _ => .map nofun
    · exact noDocument_timestamp? v
    · exact noDocument_dateTime? v
    · exact .map nofun
    · exact .map nofun
    · exact noDocument_pointer? v
    · exact .map nofun
    · exact .none

end Wrapper

/-! ### Documents -/

namespace Document

variable {fields : Json.Object}

/-- An object is read as a document if it is read and is no wrapper. -/
theorem ofJson_eq_ok_iff {doc : Document} :
    ofJson fields = .ok doc ↔
      Wrapper.nameOf? fields = none ∧ Value.fieldsOfJson? fields = some doc := by
  unfold ofJson
  cases hname : Wrapper.nameOf? fields with
  | some name =>
    have hvalue : Value.ofJson? (.object fields) =
        Wrapper.value? name fields (Value.scopeOfJson? fields) := by
      rw [Value.ofJson?, hname]
    rw [hvalue]
    split
    case h_1 heq => exact absurd heq (Wrapper.noDocument_value? _ _ _ _)
    all_goals simp
  | none =>
    rw [Value.ofJson?_of_nameOf?_none hname]
    cases Value.fieldsOfJson? fields <;> simp

/-- An object that is no wrapper is not read as a document because of a wrapper in it. -/
theorem eq_badWrapper_of_ofJson {what : Malformed} (hname : Wrapper.nameOf? fields = none)
    (h : ofJson fields = .error (.malformed what)) : what = .badWrapper := by
  unfold ofJson at h
  rw [Value.ofJson?_of_nameOf?_none hname] at h
  cases hfields : Value.fieldsOfJson? fields with
  | none =>
    rw [hfields] at h
    cases h
    rfl
  | some doc =>
    rw [hfields] at h
    cases h

end Document

end Keyset
