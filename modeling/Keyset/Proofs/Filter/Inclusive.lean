import Keyset.Proofs.Document.Comparison
import Keyset.Proofs.Filter.Meaning

/-!
# Comparisons that include equality

An operator that includes equality, `$gte` or `$lte`, should hold of a field exactly if the strict one
or equality does.  With values of a kind that is ordered (`Value.isOrdered`) it does, because there values
of one rank are equal if they are level (`Value.equal_iff_compare_eq_of_isOrdered`).  All values of a kind
that is not ordered are level, equal or not, and a missing field is equal to null but compares with
nothing.  Unless an array is compared with an array, these are the exemptions (`IsExempt`), and there are
no others (`accepts_inclusive`).
-/

namespace Keyset

namespace Value

/-! ### Kinds with an order -/

/-- Whether the values of a kind have an order of their own. -/
def isOrdered : Value → Bool
  | .null | .undefined | .document _ | .binary _ _ | .regex _ _ | .code _ | .scopedCode _ _
  | .pointer _ _ => false
  | _ => true

/-- A value without an order is level with all values of its rank. -/
theorem compare_eq_of_not_isOrdered {x v : Value} (hv : v.isOrdered = false)
    (hrank : x.rank = v.rank) : x.compare v = .eq := by
  have hordinal : v.ordinal = .none := by
    cases v <;> first | rfl | cases hv
  have hflat : ∀ xs ys, x = .array xs → v ≠ .array ys := by
    rintro xs ys - rfl
    cases hv
  rw [compare_eq_compareFlat hflat, compareFlat, hrank, Nat.compare_eq_eq.mpr rfl, hordinal]
  cases x.ordinal <;> rfl

section

variable {x v : Value} (hv : v.isOrdered = true) (hflat : ∀ xs, v ≠ .array xs)
  (hrank : x.rank = v.rank)
include hv hflat hrank

/-- A comparable value of the rank of an ordered one that is no array is plain, unless it is the least
or the greatest key. -/
theorem isPlain_of_rank (hx : x.isComparable = true) (hkey : ¬(v = .minKey ∨ v = .maxKey)) :
    x.isPlain = true := by
  have hranks : x.rank ∈ [2, 3, 7, 8, 9, 10] := by
    rw [hrank]
    cases v <;> first
      | (cases hv; done)
      | exact absurd rfl (hflat _)
      | exact absurd (.inl rfl) hkey
      | exact absurd (.inr rfl) hkey
      | simp [rank]
  cases x <;> first
    | rfl
    | exact hx
    | (cases hx; done)
    | simp [rank] at hranks

/-- Among comparable values of an ordered kind, arrays apart, those that are level are equal. -/
theorem equal_iff_compare_eq_of_isOrdered (hx : x.isComparable = true)
    (hcomparable : v.isComparable = true) : x.equal v = true ↔ x.compare v = .eq := by
  by_cases hkey : v = .minKey ∨ v = .maxKey
  · -- there is one least and one greatest key
    obtain rfl : x = v := by
      rcases hkey with rfl | rfl <;> cases x <;> first | rfl | cases hrank
    have hself : x.equal x = true := by
      rcases hkey with rfl | rfl <;> rfl
    exact iff_of_true hself (compare_self x)
  · refine equal_iff_compare_eq_of_flat (isPlain_of_rank hv hflat hrank hx hkey)
      (isPlain_of_rank hv hflat rfl hcomparable hkey) fun xs hxs => ?_
    obtain ⟨ys, hys⟩ := rank_eq_five.mp (hrank.symm.trans (rank_eq_five.mpr ⟨xs, hxs⟩))
    exact hflat ys hys

end

end Value

namespace Filter

/-! ### The values that are compared -/

/-- The values that a comparison looks at in a field: the items of an array, or any other value. -/
def candidates : Option Value → List Value
  | none => []
  | some (.array items) => items
  | some x => [x]

theorem fieldCompares_eq_any (accept : Ordering → Bool) (field : Option Value) (v : Value) :
    fieldCompares accept field v = (candidates field).any (ordered accept v) := by
  cases field with
  | none => rfl
  | some x => cases x <;> first | rfl | exact (Bool.or_false _).symm

theorem fieldCompares_iff {accept : Ordering → Bool} {field : Option Value} {v : Value} :
    fieldCompares accept field v = true ↔
      ∃ x ∈ candidates field, x.rank = v.rank ∧ accept (x.compare v) = true := by
  simp only [fieldCompares_eq_any, List.any_eq_true, ordered, Bool.and_eq_true, beq_iff_eq]

/-- Equality looks at the same values, unless two arrays are compared, and finds null in a missing
field. -/
theorem fieldEquals_iff {field : Option Value} {v : Value}
    (hflat : ∀ xs ys, field = some (.array xs) → v ≠ .array ys) :
    fieldEquals field v = true ↔
      (field = none ∧ v = .null) ∨ ∃ x ∈ candidates field, x.equal v = true := by
  cases field with
  | none => cases v <;> simp [fieldEquals, candidates]
  | some x =>
    have heq : fieldEquals (some x) v = (candidates (some x)).any (·.equal v) := by
      cases x with
      | array items => cases v <;> first | rfl | exact absurd rfl (hflat _ _ rfl)
      | _ => exact (Bool.or_false _).symm
    rw [heq, List.any_eq_true]
    simp

/-! ### Strict and inclusive comparisons -/

/-- Whether a comparison finds a value of the same rank that is level. -/
def HasLevel (field : Option Value) (v : Value) : Prop :=
  ∃ x ∈ candidates field, x.rank = v.rank ∧ x.compare v = .eq

/-- One way to compare is strict, and another one accepts what it accepts and what is level. -/
structure Includes (inclusive strict : Ordering → Bool) : Prop where
  strict_eq : strict .eq = false
  inclusive_iff : ∀ o, inclusive o = true ↔ strict o = true ∨ o = .eq

theorem includes_isGE : Includes Ordering.isGE Ordering.isGT :=
  ⟨rfl, by decide⟩

theorem includes_isLE : Includes Ordering.isLE Ordering.isLT :=
  ⟨rfl, by decide⟩

section

variable {inclusive strict : Ordering → Bool} (h : Includes inclusive strict) {field : Option Value}
  {v : Value}
include h

theorem Includes.fieldCompares_iff : fieldCompares inclusive field v = true ↔
    fieldCompares strict field v = true ∨ HasLevel field v := by
  simp only [Filter.fieldCompares_iff, h.inclusive_iff, HasLevel, and_or_left, exists_or]

/-- Nothing compares strictly with a value without an order. -/
theorem Includes.fieldCompares_strict (hv : v.isOrdered = false) :
    fieldCompares strict field v = false := by
  rw [Bool.eq_false_iff]
  intro hcompares
  obtain ⟨x, -, hrank, haccept⟩ := Filter.fieldCompares_iff.mp hcompares
  rw [Value.compare_eq_of_not_isOrdered hv hrank, h.strict_eq] at haccept
  cases haccept

end

theorem hasLevel_iff_of_not_isOrdered {field : Option Value} {v : Value} (hv : v.isOrdered = false) :
    HasLevel field v ↔ ∃ x ∈ candidates field, x.rank = v.rank := by
  constructor
  · rintro ⟨x, hx, hrank, -⟩
    exact ⟨x, hx, hrank⟩
  · rintro ⟨x, hx, hrank⟩
    exact ⟨x, hx, hrank, Value.compare_eq_of_not_isOrdered hv hrank⟩

/-- Where an inclusive comparison is not the strict one or equality: a missing field is equal to null,
and a value without an order is level with all values of its rank, though none of them is equal to it. -/
def IsExempt (field : Option Value) (v : Value) : Prop :=
  (field = none ∧ v = .null) ∨
    (v.isOrdered = false ∧ (∃ x ∈ candidates field, x.rank = v.rank) ∧
      ¬∃ x ∈ candidates field, x.equal v = true)

section

variable {field : Option Value} {v : Value} (hfield : field.all Value.isComparable = true)
  (hv : v.isComparable = true) (hflat : ∀ xs ys, field = some (.array xs) → v ≠ .array ys)

include hfield in
theorem isComparable_of_mem_candidates {x : Value} (hx : x ∈ candidates field) :
    x.isComparable = true := by
  cases field with
  | none => cases hx
  | some y =>
    cases y with
    | array items => exact Value.areComparable_iff.mp hfield x hx
    | _ =>
      obtain rfl := List.mem_singleton.mp hx
      exact hfield

include hflat in
/-- No array is compared with an array. -/
theorem ne_array_of_mem_candidates {x : Value} (hx : x ∈ candidates field) (hrank : x.rank = v.rank)
    (xs : List Value) : v ≠ .array xs := by
  rintro rfl
  obtain ⟨ys, rfl⟩ := Value.rank_eq_five.mp hrank
  cases field with
  | none => cases hx
  | some y =>
    cases y with
    | array items => exact hflat items xs rfl rfl
    | _ => cases List.mem_singleton.mp hx

include hfield hv hflat in
theorem hasLevel_iff_of_isOrdered (hordered : v.isOrdered = true) :
    HasLevel field v ↔ ∃ x ∈ candidates field, x.equal v = true := by
  have hequal : ∀ x ∈ candidates field, x.rank = v.rank →
      (x.equal v = true ↔ x.compare v = .eq) := fun x hx hrank =>
    Value.equal_iff_compare_eq_of_isOrdered hordered (ne_array_of_mem_candidates hflat hx hrank) hrank
      (isComparable_of_mem_candidates hfield hx) hv
  constructor
  · rintro ⟨x, hx, hrank, hcompare⟩
    exact ⟨x, hx, (hequal x hx hrank).mpr hcompare⟩
  · rintro ⟨x, hx, heq⟩
    have hrank := Value.rank_eq_of_equal heq
    exact ⟨x, hx, hrank, (hequal x hx hrank).mp heq⟩

include hfield hv hflat in
/-- An inclusive comparison is the strict one or equality, except in the cases that are exempt. -/
theorem Includes.iff_not_isExempt {inclusive strict : Ordering → Bool} (h : Includes inclusive strict) :
    (fieldCompares inclusive field v = true ↔
      fieldCompares strict field v = true ∨ fieldEquals field v = true) ↔ ¬IsExempt field v := by
  rw [h.fieldCompares_iff, fieldEquals_iff hflat, IsExempt]
  cases hordered : v.isOrdered with
  | true =>
    have hnull : v ≠ .null := by
      rintro rfl
      cases hordered
    rw [hasLevel_iff_of_isOrdered hfield hv hflat hordered]
    simp [hnull]
  | false =>
    have hrank : (∃ x ∈ candidates field, x.equal v = true) →
        ∃ x ∈ candidates field, x.rank = v.rank :=
      fun ⟨x, hx, heq⟩ => ⟨x, hx, Value.rank_eq_of_equal heq⟩
    rw [hasLevel_iff_of_not_isOrdered hordered, h.fieldCompares_strict hordered]
    simp only [Bool.false_eq_true, false_or, true_and]
    by_cases hmissing : field = none ∧ v = .null
    · have hlevel : ¬∃ x ∈ candidates field, x.rank = v.rank := by
        rintro ⟨x, hx, -⟩
        rw [hmissing.1] at hx
        cases hx
      exact iff_of_false (fun hiff => hlevel (hiff.mpr (.inl hmissing)))
        (not_not_intro (.inl hmissing))
    · simp only [hmissing, false_or, not_and, not_not]
      exact ⟨Iff.mp, fun hequal => ⟨hequal, hrank⟩⟩

end

/-! ### Filters with inclusive operators -/

/-- Whether a document is accepted with one operator on a path exactly if it is with another one or is
with equality. -/
def IsStrictOrEqual (doc : Document) (path inclusive strict : String) (v : Value) : Prop :=
  accepts doc [(path, .document [(inclusive, v)])] = .ok true ↔
    accepts doc [(path, .document [(strict, v)])] = .ok true ∨
      accepts doc [(path, .document [("$eq", v)])] = .ok true

/-- **Inclusive comparisons are strict or equal**, exactly unless the value at the path and the one that
it is compared with are exempt; and the operators can be evaluated.  Two arrays are not looked at here:
the order compares the items of a field's array with the other one, and equality the two arrays. -/
theorem accepts_inclusive {doc : Document} {path : String} {v : Value}
    (hpath : isOperatorName path = false) (hfield : (doc.at? path).all Value.isComparable = true)
    (hv : v.isComparable = true)
    (hflat : ∀ xs ys, doc.at? path = some (.array xs) → v ≠ .array ys) :
    (IsStrictOrEqual doc path "$gte" "$gt" v ↔ ¬IsExempt (doc.at? path) v) ∧
      (IsStrictOrEqual doc path "$lte" "$lt" v ↔ ¬IsExempt (doc.at? path) v) ∧
      ∀ name ∈ ["$eq", "$gt", "$gte", "$lt", "$lte"],
        Evaluates [(path, .document [(name, v)])] doc := by
  have heq : Operator.ofName? "$eq" = some .eq := rfl
  have hgt : Operator.ofName? "$gt" = some .gt := rfl
  have hgte : Operator.ofName? "$gte" = some .gte := rfl
  have hlt : Operator.ofName? "$lt" = some .lt := rfl
  have hlte : Operator.ofName? "$lte" = some .lte := rfl
  refine ⟨?_, ?_, ?_⟩
  · rw [← includes_isGE.iff_not_isExempt hfield hv hflat, IsStrictOrEqual,
      accepts_operator hgte rfl hpath, accepts_operator hgt rfl hpath, accepts_operator heq rfl hpath]
    simp only [Except.ok.injEq, Operator.relates]
  · rw [← includes_isLE.iff_not_isExempt hfield hv hflat, IsStrictOrEqual,
      accepts_operator hlte rfl hpath, accepts_operator hlt rfl hpath, accepts_operator heq rfl hpath]
    simp only [Except.ok.injEq, Operator.relates]
  · simp only [List.forall_mem_cons]
    exact ⟨⟨_, accepts_operator heq rfl hpath doc⟩, ⟨_, accepts_operator hgt rfl hpath doc⟩,
      ⟨_, accepts_operator hgte rfl hpath doc⟩, ⟨_, accepts_operator hlt rfl hpath doc⟩,
      ⟨_, accepts_operator hlte rfl hpath doc⟩, List.forall_mem_nil _⟩

/-- An item of a list is level with a number and equal to it, and a missing field is equal to null. -/
theorem accepts_inclusive_scores :
    let doc : Document := [("scores", .array [.int32 1, .int64 5])]
    (isOperatorName "scores" = false ∧ (doc.at? "scores").all Value.isComparable = true ∧
        (Value.double (.ofInt 5)).isComparable = true) ∧
      IsStrictOrEqual doc "scores" "$gte" "$gt" (.double (.ofInt 5)) ∧
      IsStrictOrEqual doc "scores" "$lte" "$lt" (.double (.ofInt 5)) ∧
      ¬IsStrictOrEqual doc "other" "$gte" "$gt" .null := by
  intro doc
  have hpath : isOperatorName "scores" = false := by decide
  have hother : isOperatorName "other" = false := by decide
  have hfield : (doc.at? "scores").all Value.isComparable = true := by decide +kernel
  have hv : (Value.double (.ofInt 5)).isComparable = true := by decide +kernel
  have hmissing : doc.at? "other" = none := by decide +kernel
  obtain ⟨hgte, hlte, -⟩ := accepts_inclusive (v := .double (.ofInt 5)) hpath hfield hv nofun
  have hexempt : ¬IsExempt (doc.at? "scores") (.double (.ofInt 5)) := by
    rintro (⟨-, hnull⟩ | ⟨hordered, -⟩)
    · cases hnull
    · cases hordered
  obtain ⟨hnull, -⟩ := accepts_inclusive (v := .null) hother (by rw [hmissing]; rfl) rfl nofun
  exact ⟨⟨hpath, hfield, hv⟩, hgte.mpr hexempt, hlte.mpr hexempt,
    fun h => hnull.mp h (.inl ⟨hmissing, rfl⟩)⟩

/-- A missing field is equal to null though it does not compare with it, a document is level with another
one that it is not equal to, and an array is equal to an array that its items do not compare with. -/
theorem not_isStrictOrEqual_exempt :
    let doc : Document := [("a", .document [("n", .int32 1)]), ("c", .array [.int32 1])]
    let other : Value := .document [("n", .int32 2)]
    let list : Value := .array [.int32 1]
    (accepts doc [("b", .document [("$eq", .null)])] = .ok true ∧
        accepts doc [("b", .document [("$gte", .null)])] = .ok false ∧
        accepts doc [("b", .document [("$lte", .null)])] = .ok false) ∧
      (accepts doc [("a", .document [("$gte", other)])] = .ok true ∧
        accepts doc [("a", .document [("$gt", other)])] = .ok false ∧
        accepts doc [("a", .document [("$eq", other)])] = .ok false) ∧
      (accepts doc [("c", .document [("$eq", list)])] = .ok true ∧
        accepts doc [("c", .document [("$gte", list)])] = .ok false) ∧
      ¬IsStrictOrEqual doc "b" "$gte" "$gt" .null ∧ ¬IsStrictOrEqual doc "b" "$lte" "$lt" .null ∧
      ¬IsStrictOrEqual doc "a" "$gte" "$gt" other ∧ ¬IsStrictOrEqual doc "c" "$gte" "$gt" list := by
  intro doc other list
  have hmissing : accepts doc [("b", .document [("$eq", .null)])] = .ok true ∧
      accepts doc [("b", .document [("$gte", .null)])] = .ok false ∧
      accepts doc [("b", .document [("$lte", .null)])] = .ok false := by decide +kernel
  have hlevel : accepts doc [("a", .document [("$gte", other)])] = .ok true ∧
      accepts doc [("a", .document [("$gt", other)])] = .ok false ∧
      accepts doc [("a", .document [("$eq", other)])] = .ok false := by decide +kernel
  have hlist : accepts doc [("c", .document [("$eq", list)])] = .ok true ∧
      accepts doc [("c", .document [("$gte", list)])] = .ok false := by decide +kernel
  refine ⟨hmissing, hlevel, hlist, ?_, ?_, ?_, ?_⟩
  · rw [IsStrictOrEqual, hmissing.1, hmissing.2.1]
    simp
  · rw [IsStrictOrEqual, hmissing.1, hmissing.2.2]
    simp
  · rw [IsStrictOrEqual, hlevel.1, hlevel.2.1, hlevel.2.2]
    simp
  · rw [IsStrictOrEqual, hlist.1, hlist.2]
    simp

end Filter

end Keyset
