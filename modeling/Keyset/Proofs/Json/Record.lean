import Keyset.Json.Record
import Mathlib.Data.List.Forall2
import Mathlib.Tactic.SplitIfs

/-!
# Fields of a record

A field is read as it was written: a list item by item (`listOf?_map`), an optional field if it is not
written as `null` (`optional?_of_get?`), a list that is left out where it is empty
(`withDefault?_of_get?`).  Conversely, what was read and is no default was there
(`get?_of_optional?`, `get?_of_withDefault?`).  Where a relation says what a value is read as, it says so
of a list (`listOf?_eq_some_iff_forall₂`) and of a field (`optional?_eq_some_iff`,
`withDefault?_eq_some_iff`), and a field is read if its value is (`exists_optional?_iff`,
`exists_withDefault?_iff`).
-/

namespace Keyset.Json

/-! ### Shapes -/

theorem string?_eq_some_iff {v : Json} {s : String} : v.string? = some s ↔ v = .string s := by
  cases v <;> simp [string?]

theorem object?_eq_some_iff {v : Json} {fields : Object} :
    v.object? = some fields ↔ v = .object fields := by
  cases v <;> simp [object?]

theorem array?_eq_some_iff {v : Json} {items : List Json} :
    v.array? = some items ↔ v = .array items := by
  cases v <;> simp [array?]

theorem int64?_eq_some_iff {v : Json} {n : Int64} : v.int64? = some n ↔ v = .ofInt64 n := by
  unfold int64? number?
  cases v with
  | number m =>
    cases m with
    | integer k hk =>
      show Word.int64? k = some n ↔ _
      rw [Word.int64?_eq_some_iff]
      simp [ofInt64, Number.ofInt64, eq_comm]
    | double x hx => simp [Number.int64?, ofInt64, Number.ofInt64]
  | _ => simp [ofInt64]

theorem uint64?_eq_some_iff {v : Json} {n : UInt64} :
    v.uint64? = some n ↔ v = .ofUInt64 n := by
  unfold uint64? number?
  cases v with
  | number m =>
    cases m with
    | integer k hk =>
      show Word.uint64? k = some n ↔ _
      rw [Word.uint64?_eq_some_iff]
      simp [ofUInt64, Number.ofUInt64, eq_comm]
    | double x hx => simp [Number.uint64?, ofUInt64, Number.ofUInt64]
  | _ => simp [ofUInt64]

theorem uint64?_ofUInt64 (n : UInt64) : (ofUInt64 n).uint64? = some n :=
  uint64?_eq_some_iff.mpr rfl

/-! ### Lists -/

variable {α : Type} {read : Json → Option α} {write : α → Json}

theorem listOf?_map {xs : List α} (h : ∀ x, read (write x) = some x) :
    listOf? read (.array (xs.map write)) = some xs := by
  show (xs.map write).mapM read = some xs
  induction xs with
  | nil => rfl
  | cons x xs ih =>
    rw [List.map_cons, List.mapM_cons, h, ih]
    rfl

/-- A list is read if its items are, one by one. -/
theorem listOf?_eq_some_iff_forall₂ {R : Json → α → Prop} (h : ∀ v a, read v = some a ↔ R v a)
    {v : Json} {xs : List α} :
    listOf? read v = some xs ↔ ∃ items, v = .array items ∧ List.Forall₂ R items xs := by
  have hitems : ∀ {items : List Json} {xs}, items.mapM read = some xs ↔ List.Forall₂ R items xs := by
    intro items
    induction items with
    | nil =>
      intro xs
      simp [List.forall₂_nil_left_iff, eq_comm]
    | cons item items ih =>
      intro xs
      rw [List.mapM_cons]
      constructor
      · intro hread
        obtain ⟨a, ha, hread⟩ := Option.bind_eq_some_iff.mp hread
        obtain ⟨as, has, hread⟩ := Option.bind_eq_some_iff.mp hread
        cases hread
        exact .cons ((h item a).mp ha) (ih.mp has)
      · intro hrel
        cases hrel with
        | @cons _ a _ as ha has =>
          rw [(h item a).mpr ha, ih.mpr has]
          rfl
  unfold listOf?
  rw [Option.bind_eq_some_iff]
  simp only [array?_eq_some_iff, hitems]

/-- A list is read as what it is written from. -/
theorem listOf?_eq_some_iff (h : ∀ v a, read v = some a ↔ v = write a) {v : Json} {xs : List α} :
    listOf? read v = some xs ↔ v = .array (xs.map write) := by
  simp only [listOf?_eq_some_iff_forall₂ h, ← List.forall₂_map_right_iff, List.forall₂_eq_eq_eq]
  simp

/-! ### Fields -/

variable {fields : Object} {name : String}

/-- The value of a field that is there and is not `null`. -/
def given? (fields : Object) (name : String) : Option Json :=
  match fields.get? name with
  | some .null => none
  | v => v

theorem given?_eq_some_iff {v : Json} :
    given? fields name = some v ↔ fields.get? name = some v ∧ v ≠ .null := by
  unfold given?
  cases fields.get? name with
  | none => simp
  | some w => cases w <;> simp +contextual [eq_comm]

theorem required?_eq_some_iff (h : ∀ v a, read v = some a ↔ v = write a) {a : α} :
    required? fields name read = some a ↔ fields.get? name = some (write a) := by
  unfold required?
  rw [Option.bind_eq_some_iff]
  simp only [h, exists_eq_right]

/-- An optional field that is given is read, and any other has no value. -/
theorem optional?_eq_some_iff {R : Json → α → Prop} (h : ∀ v a, read v = some a ↔ R v a)
    {o : Option α} : optional? fields name read = some o ↔ Option.Rel R (given? fields name) o := by
  unfold optional? given?
  cases fields.get? name with
  | none => cases o <;> simp
  | some v => cases v <;> cases o <;> simp [h]

/-- A field with a default that is there is read, and any other has the default. -/
theorem withDefault?_eq_some_iff {R : Json → α → Prop} (h : ∀ v a, read v = some a ↔ R v a)
    {a default : α} :
    withDefault? fields name read default = some a ↔
      (fields.get? name).elim (a = default) (R · a) := by
  unfold withDefault?
  cases fields.get? name <;> simp [h, eq_comm]

theorem exists_optional?_iff :
    (∃ o, optional? fields name read = some o) ↔
      ∀ v, fields.get? name = some v → v = .null ∨ ∃ a, read v = some a := by
  rw [← Option.isSome_iff_exists]
  unfold optional?
  cases fields.get? name with
  | none => simp
  | some v => cases v <;> simp [Option.isSome_iff_exists]

/-- An optional field is read as what it is written from. -/
theorem optional?_eq_some_iff_map (h : ∀ v a, read v = some a ↔ v = write a) {o : Option α} :
    optional? fields name read = some o ↔ given? fields name = o.map write := by
  rw [optional?_eq_some_iff h]
  cases given? fields name <;> cases o <;> simp

theorem exists_withDefault?_iff {default : α} :
    (∃ a, withDefault? fields name read default = some a) ↔
      ∀ v, fields.get? name = some v → ∃ a, read v = some a := by
  unfold withDefault?
  cases fields.get? name <;> simp

/-- An optional field is read as it is written, if it is not written as `null`. -/
theorem optional?_of_get? {o : Option α} (hget : fields.get? name = o.map write)
    (hread : ∀ a, o = some a → read (write a) = some a)
    (hnull : ∀ a, o = some a → write a ≠ .null) : optional? fields name read = some o := by
  unfold optional?
  rw [hget]
  cases o with
  | none => rfl
  | some a =>
    rw [Option.map_some]
    split
    case h_1 heq => cases heq
    case h_2 heq => exact absurd (Option.some.inj heq) (hnull a rfl)
    case h_3 v _ heq =>
      obtain rfl := Option.some.inj heq
      rw [hread a rfl]
      rfl

/-- A list that is left out where it is empty is read as it is written. -/
theorem withDefault?_of_get? {xs : List α} {read : Json → Option (List α)} {v : Json}
    [Decidable (xs = [])] (hget : fields.get? name = if xs = [] then none else some v)
    (hread : read v = some xs) : withDefault? fields name read [] = some xs := by
  unfold withDefault?
  rw [hget]
  split_ifs with hnil
  · rw [hnil]
  · exact hread

theorem get?_of_optional? {a : α} (h : optional? fields name read = some (some a)) :
    ∃ v, fields.get? name = some v ∧ v ≠ .null ∧ read v = some a := by
  have hrel := (optional?_eq_some_iff fun _ _ => Iff.rfl).mp h
  cases hgiven : given? fields name with
  | none =>
    rw [hgiven] at hrel
    cases hrel
  | some v =>
    rw [hgiven] at hrel
    obtain ⟨hget, hnull⟩ := given?_eq_some_iff.mp hgiven
    cases hrel with
    | some hread => exact ⟨v, hget, hnull, hread⟩

theorem get?_of_withDefault? {a default : α} (h : withDefault? fields name read default = some a)
    (hne : a ≠ default) : ∃ v, fields.get? name = some v ∧ read v = some a := by
  unfold withDefault? at h
  split at h
  · exact absurd (Option.some.inj h).symm hne
  · rename_i v hv
    exact ⟨v, hv, h⟩

end Keyset.Json
