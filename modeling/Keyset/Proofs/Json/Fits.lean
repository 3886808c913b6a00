import Keyset.Json.Reader
import Keyset.Proofs.Fields

/-!
# Values that a text can hold

A value fits a depth if its arrays and objects nest no deeper and no object has two fields of one name.
Every value that is read fits the greatest depth (`fits_of_ofText?`).
-/

namespace Keyset.Json

/-- A value whose arrays and objects nest at most so deep, and whose objects have distinct names. -/
inductive Fits : (depth : Nat) → Json → Prop
  | null (depth : Nat) : Fits depth .null
  | bool (depth : Nat) (b : Bool) : Fits depth (.bool b)
  | number (depth : Nat) (n : Number) : Fits depth (.number n)
  | string (depth : Nat) (s : String) : Fits depth (.string s)
  | array {depth : Nat} {items : List Json} (h : ∀ v ∈ items, Fits depth v) :
    Fits (depth + 1) (.array items)
  | object {depth : Nat} {fields : List (String × Json)} (nodup : (Fields.names fields).Nodup)
    (h : ∀ field ∈ fields, Fits depth field.2) : Fits (depth + 1) (.object fields)

theorem Fits.fields {depth : Nat} {fields : List (String × Json)}
    (h : Fits (depth + 1) (.object fields)) :
    (Fields.names fields).Nodup ∧ ∀ field ∈ fields, Fits depth field.2 := by
  cases h with
  | object nodup h => exact ⟨nodup, h⟩

/-! ### What is read -/

/-- Values, items and fields that were read with some fuel. -/
structure ReadsFit (fuel : Nat) : Prop where
  value : ∀ {depth s v rest}, readValue? fuel depth s = some (v, rest) → Fits depth v
  items : ∀ {depth s items rest}, readItems? fuel depth s = some (items, rest) →
    ∀ v ∈ items, Fits depth v
  fields : ∀ {depth s fields rest}, readFields? fuel depth s = some (fields, rest) →
    ∀ field ∈ fields, Fits depth field.2

variable {fuel depth : Nat} {s rest : List Char}

theorem ReadsFit.readValue? (ih : ReadsFit fuel) {v : Json}
    (h : readValue? (fuel + 1) depth s = some (v, rest)) : Fits depth v := by
  rw [Json.readValue?] at h
  split at h
  · cases h
    exact .null depth
  · cases h
    exact .bool depth true
  · cases h
    exact .bool depth false
  · obtain ⟨_, _, h⟩ := Option.map_eq_some_iff.mp h
    cases h
    exact .string depth _
  · cases depth with
    | zero => cases h
    | succ depth =>
      simp only at h
      split at h
      · cases h
        exact .array nofun
      · obtain ⟨_, hitems, h⟩ := Option.map_eq_some_iff.mp h
        cases h
        exact .array (ih.items hitems)
  · cases depth with
    | zero => cases h
    | succ depth =>
      simp only at h
      split at h
      · cases h
        exact .object List.nodup_nil nofun
      · obtain ⟨⟨pairs, _⟩, hfields, h⟩ := Option.map_eq_some_iff.mp h
        cases h
        refine .object (Fields.nodup_names_ofPairs pairs) fun field hfield => ?_
        exact ih.fields hfields field (Fields.mem_of_mem_ofPairs hfield)
  · obtain ⟨_, _, h⟩ := Option.map_eq_some_iff.mp h
    cases h
    exact .number depth _

theorem ReadsFit.readItems? (ih : ReadsFit fuel) {items : List Json}
    (h : readItems? (fuel + 1) depth s = some (items, rest)) : ∀ v ∈ items, Fits depth v := by
  rw [Json.readItems?] at h
  split at h
  · cases h
  · rename_i v s' hv
    have hfits := ih.value hv
    split at h
    · obtain ⟨⟨vs, _⟩, hvs, h⟩ := Option.map_eq_some_iff.mp h
      cases h
      exact List.forall_mem_cons.mpr ⟨hfits, ih.items hvs⟩
    · cases h
      exact List.forall_mem_singleton.mpr hfits
    · cases h

theorem ReadsFit.readFields? (ih : ReadsFit fuel) {fields : List (String × Json)}
    (h : readFields? (fuel + 1) depth s = some (fields, rest)) :
    ∀ field ∈ fields, Fits depth field.2 := by
  rw [Json.readFields?] at h
  split at h
  case h_2 => cases h
  split at h
  · cases h
  split at h
  case h_2 => cases h
  split at h
  · cases h
  · rename_i v s' hv
    have hfits := ih.value hv
    split at h
    · obtain ⟨⟨fs, _⟩, hfs, h⟩ := Option.map_eq_some_iff.mp h
      cases h
      exact List.forall_mem_cons.mpr ⟨hfits, ih.fields hfs⟩
    · cases h
      exact List.forall_mem_singleton.mpr hfits
    · cases h

/-- The readers call each other with less fuel, so all three are done at once. -/
theorem readsFit (fuel : Nat) : ReadsFit fuel := by
  induction fuel with
  | zero => exact ⟨nofun, nofun, nofun⟩
  | succ fuel ih => exact ⟨ih.readValue?, ih.readItems?, ih.readFields?⟩

/-- **What is read fits the greatest depth.** -/
theorem fits_of_ofText? {text : String} {v : Json} (h : ofText? text = some v) :
    Fits maxDepth v := by
  unfold ofText? at h
  simp only at h
  split at h
  · rename_i w rest hw
    split_ifs at h
    cases h
    exact (readsFit _).value hw
  · cases h

end Keyset.Json
