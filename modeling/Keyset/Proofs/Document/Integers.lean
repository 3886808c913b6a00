import Keyset.Proofs.Double.Monotone
import Keyset.Proofs.Filter.Meaning
import Keyset.Proofs.Seek

/-!
# Integers as values

Integers of both widths are compared as doubles.  Two integers are told apart, by equality, by the order
and by filters, exactly if their doubles are (`comparesByValue_iff`): always when one of them is below
2⁵³ in absolute value, but not everywhere beyond (`not_comparesByValue_neighbours`).
-/

namespace Keyset.Value

open Keyset.Filter

/-- Two values that hold integers are equal and ordered as the integers are, and a document with the
first one at a path meets a condition with the second one as its integer does. -/
structure ComparesByValue (u v : Value) (a b : Int) : Prop where
  equal : u.equal v = true ↔ a = b
  order : u.compare v = Ord.compare a b
  fields : ∀ (doc : Document) (path : String), isOperatorName path = false → doc.at? path = some u →
    accepts doc [(path, v)] = .ok (decide (a = b)) ∧
      accepts doc [(path, .document [("$gt", v)])] = .ok (decide (a > b)) ∧
      accepts doc [(path, .document [("$lt", v)])] = .ok (decide (a < b))

section

variable {u v : Value} {a b : Int} (hu : u.integer? = some a) (hv : v.integer? = some b)
include hu hv

theorem compare_of_integers : u.compare v = Ord.compare (Double.ofInt a).key (Double.ofInt b).key := by
  rw [compare_of_toDouble? (toDouble?_of_integer? hu) (toDouble?_of_integer? hv), Double.compare,
    Double.isNaN_ofInt, Double.isNaN_ofInt]
  rfl

theorem equal_of_integers : u.equal v = true ↔ Double.ofInt a = Double.ofInt b := by
  rw [equal, toDouble?_of_integer? hu, toDouble?_of_integer? hv, Double.ofInt_eq_iff]
  simp [Double.equal, Double.isNaN_ofInt]

/-- The order of integers is kept, though some are level. -/
theorem isLE_compare_of_integers (h : a ≤ b) : (u.compare v).isLE = true := by
  rw [compare_of_integers hu hv]
  exact Int.isLE_compare.mpr (Double.key_ofInt_mono h)

theorem compare_of_tellsApart (h : Double.TellsApart a b) : u.compare v = Ord.compare a b := by
  rw [compare_of_integers hu hv]
  rcases lt_trichotomy a b with hab | rfl | hab
  · rw [Int.compare_eq_lt.mpr hab]
    exact Int.compare_eq_lt.mpr (h.key_lt hab)
  · exact (Int.compare_eq_eq.mpr rfl).trans (Int.compare_eq_eq.mpr rfl).symm
  · rw [Int.compare_eq_gt.mpr hab]
    exact Int.compare_eq_gt.mpr (h.symm.key_lt hab)

/-- A field with an integer meets a condition with another one as the two values compare. -/
theorem accepts_of_integers {doc : Document} {path : String} (hpath : isOperatorName path = false)
    (hat : doc.at? path = some u) :
    accepts doc [(path, v)] = .ok (u.equal v) ∧
      accepts doc [(path, .document [("$gt", v)])] = .ok (u.compare v).isGT ∧
      accepts doc [(path, .document [("$lt", v)])] = .ok (u.compare v).isLT := by
  have hflat : Seek.isFlat (some u) := by
    rintro xs hxs
    obtain rfl := Option.some.inj hxs
    cases hu
  have hnull : v ≠ .null := by
    rintro rfl
    cases hv
  have hdocument : v.document? = none := by
    cases v <;> first | rfl | cases hv
  have hrank : u.rank = v.rank := by
    rw [rank_of_toDouble? (toDouble?_of_integer? hu), rank_of_toDouble? (toDouble?_of_integer? hv)]
  have hordered : ∀ accept : Ordering → Bool,
      fieldCompares accept (some u) v = accept (u.compare v) := by
    intro accept
    rw [Seek.fieldCompares_of_flat hflat, Option.any_some, ordered, hrank, beq_self_eq_true,
      Bool.true_and]
  have hgt : Operator.ofName? "$gt" = some .gt := rfl
  have hlt : Operator.ofName? "$lt" = some .lt := rfl
  refine ⟨?_, ?_, ?_⟩
  · rw [accepts_field hpath, hat, fieldMatches_of_not_document hdocument,
      Seek.fieldEquals_of_flat hflat hnull]
    rfl
  · rw [accepts_operator hgt rfl hpath, hat, Operator.relates, hordered]
  · rw [accepts_operator hlt rfl hpath, hat, Operator.relates, hordered]

theorem comparesByValue_of_tellsApart (h : Double.TellsApart a b) : ComparesByValue u v a b := by
  have hequal : u.equal v = true ↔ a = b := by
    rw [equal_of_integers hu hv]
    exact ⟨h, congrArg Double.ofInt⟩
  have horder := compare_of_tellsApart hu hv h
  refine ⟨hequal, horder, fun doc path hpath hat => ?_⟩
  obtain ⟨heq, hgt, hlt⟩ := accepts_of_integers hu hv hpath hat
  rw [heq, hgt, hlt, horder]
  refine ⟨?_, ?_, ?_⟩
  · congr 1
    rw [Bool.eq_iff_iff, hequal, decide_eq_true_eq]
  · congr 1
    rw [Bool.eq_iff_iff, decide_eq_true_eq, Ordering.isGT_iff_eq_gt, Int.compare_eq_gt]
  · congr 1
    rw [Bool.eq_iff_iff, decide_eq_true_eq, Ordering.isLT_iff_eq_lt, Int.compare_eq_lt]

/-- **Integers compare by value exactly if doubles tell them apart.**  So they do if one of them is below
the largest bound up to which every integer is a double, or if neither is above it; two integers with one
double are equal and level, and whatever the integers are, their order is never turned round. -/
theorem comparesByValue_iff :
    (ComparesByValue u v a b ↔ Double.TellsApart a b) ∧
      (a.natAbs < Double.exactBound ∨ b.natAbs < Double.exactBound ∨
          a.natAbs ≤ Double.exactBound ∧ b.natAbs ≤ Double.exactBound → ComparesByValue u v a b) ∧
      (u.equal v = true ↔ Double.ofInt a = Double.ofInt b) ∧
      (u.compare v = .eq ↔ Double.ofInt a = Double.ofInt b) ∧
      (a ≤ b → (u.compare v).isLE = true) := by
  have happly := comparesByValue_of_tellsApart hu hv
  have hequal := equal_of_integers hu hv
  refine ⟨⟨?_, happly⟩, ?_, hequal, ?_, isLE_compare_of_integers hu hv⟩
  · intro h heq
    exact h.equal.mp (hequal.mpr heq)
  · rintro (ha | hb | ⟨ha, hb⟩)
    · exact happly (Double.tellsApart_of_lt ha b)
    · exact happly (Double.tellsApart_of_lt hb a).symm
    · exact happly (Double.tellsApart_of_le ha hb)
  · rw [compare_of_integers hu hv, Double.ofInt_eq_iff]
    exact Int.compare_eq_eq

end

/-- A small integer and one beyond the bound, in two widths, at a path of a document. -/
theorem comparesByValue_iff_smallAndLarge :
    let doc : Document := [("item", .document [("n", .int32 5)])]
    (int32 5).integer? = some 5 ∧ (int64 9007199254740993).integer? = some 9007199254740993 ∧
      (int32 5).compare (int64 9007199254740993) = .lt ∧
      accepts doc [("item.n", .document [("$lt", .int64 9007199254740993)])] = .ok true := by
  intro doc
  have hsmall : (int32 5).integer? = some 5 := by decide
  have hlarge : (int64 9007199254740993).integer? = some 9007199254740993 := by decide
  obtain ⟨-, hvalue, -⟩ := comparesByValue_iff hsmall hlarge
  have h := hvalue (.inl (by decide))
  have hat : doc.at? "item.n" = some (.int32 5) := rfl
  exact ⟨hsmall, hlarge, h.order, (h.fields doc "item.n" rfl hat).2.2⟩

/-- Two neighbours beyond the bound are equal and level, and a document with the one meets the condition
to be the other, and not the condition to be larger. -/
theorem not_comparesByValue_neighbours :
    let u := int64 9007199254740993
    let v := int64 9007199254740992
    u.integer? = some 9007199254740993 ∧ v.integer? = some 9007199254740992 ∧
      u.equal v = true ∧ u.compare v = .eq ∧ accepts [("_id", u)] [("_id", v)] = .ok true ∧
      accepts [("_id", u)] [("_id", .document [("$gt", v)])] = .ok false ∧
      ¬ComparesByValue u v 9007199254740993 9007199254740992 := by
  intro u v
  have hequal : u.equal v = true := by decide +kernel
  refine ⟨by decide, by decide, hequal, by decide +kernel, by decide +kernel, by decide +kernel, ?_⟩
  intro h
  exact absurd (h.equal.mp hequal) (by decide)

end Keyset.Value
