import Keyset.Json.Basic
import Keyset.Proofs.Double.Text
import Keyset.Proofs.Text.Spelling

/-!
# Spellings of doubles

A decimal is spelled by digits with at most one point among or beside them and an exponent or none
(`IsDecimal`), and a double by a decimal to which it is the nearest, behind a sign or none (`Spells`).
The reader of doubles finds the finite ones in exactly these texts (`ofText?_finite_iff`); the other
texts that it reads are names of infinity and NaN.
-/

namespace Keyset.Double

open Text (Denotes denotes_iff BehindSign StartsNoSign)

/-! ### Decimals -/

/-- The texts of an exponent: none, or an integer behind a mark. -/
inductive IsExponent : List Char → Int → Prop
  | absent : IsExponent [] 0
  | marked {mark : Char} {s : List Char} {e : Int} (hmark : mark = 'e' ∨ mark = 'E')
    (hs : Text.SpellsInteger s e) : IsExponent (mark :: s) e

/-- The texts of a decimal: digits with at most one point among or beside them, then an exponent. -/
inductive IsDecimal : List Char → Decimal → Prop
  | whole {digits s : List Char} {n : Nat} {e : Int} (hdigits : Denotes digits n)
    (hs : IsExponent s e) : IsDecimal (digits ++ s) ⟨n, e⟩
  | point {before after s : List Char} {n : Nat} {e : Int} (hdigits : Denotes (before ++ after) n)
    (hs : IsExponent s e) :
    IsDecimal (before ++ '.' :: (after ++ s)) ⟨n, e - after.length⟩

theorem exponentPart?_eq_some_iff {s : List Char} {e : Int} :
    exponentPart? s = some e ↔ IsExponent s e := by
  constructor
  · intro h
    unfold exponentPart? at h
    split at h
    · obtain rfl := Option.some.inj h
      exact .absent
    · exact .marked (.inl rfl) (Text.signed?_eq_some_iff.mp h)
    · exact .marked (.inr rfl) (Text.signed?_eq_some_iff.mp h)
    · cases h
  · intro h
    cases h with
    | absent => rfl
    | marked hmark hs => rcases hmark with rfl | rfl <;> exact Text.signed?_eq_some_iff.mpr hs

theorem IsExponent.startsNoDigit {s : List Char} {e : Int} (h : IsExponent s e) :
    startsNoDigit s ∧ s.head? ≠ some '.' := by
  cases h with
  | absent => exact ⟨startsNoDigit_nil, nofun⟩
  | marked hmark hs =>
    rcases hmark with rfl | rfl
    · exact ⟨startsNoDigit_cons rfl _, by simp⟩
    · exact ⟨startsNoDigit_cons rfl _, by simp⟩

/-- A decimal is read from its texts. -/
theorem decimal?_eq_some_iff {s : List Char} {d : Decimal} :
    decimal? s = some d ↔ IsDecimal s d := by
  constructor
  · intro h
    obtain ⟨whole, rest, rfl, hwhole, hrest⟩ := exists_digits s
    by_cases hpoint : rest.head? = some '.'
    · obtain ⟨rest, rfl⟩ := List.head?_eq_some_iff.mp hpoint
      obtain ⟨fraction, rest, rfl, hfraction, hrest⟩ := exists_digits rest
      rw [decimal?_append_point hwhole hfraction hrest] at h
      split_ifs at h with hne
      obtain ⟨e, he, rfl⟩ := Option.map_eq_some_iff.mp h
      have hdigit := List.forall_mem_append.mpr ⟨hwhole, hfraction⟩
      exact .point (denotes_iff.mpr ⟨hne, hdigit, rfl⟩) (exponentPart?_eq_some_iff.mp he)
    · rw [decimal?_append hwhole hrest hpoint] at h
      split_ifs at h with hne
      obtain ⟨e, he, rfl⟩ := Option.map_eq_some_iff.mp h
      exact .whole (denotes_iff.mpr ⟨hne, hwhole, rfl⟩) (exponentPart?_eq_some_iff.mp he)
  · intro h
    cases h with
    | whole hdigits hs =>
      obtain ⟨hne, hdigit, rfl⟩ := denotes_iff.mp hdigits
      obtain ⟨hdigits, hpoint⟩ := hs.startsNoDigit
      exact decimal?_whole hdigit hne hdigits hpoint (exponentPart?_eq_some_iff.mpr hs)
    | point hdigits hs =>
      obtain ⟨hne, hdigit, rfl⟩ := denotes_iff.mp hdigits
      rw [List.forall_mem_append] at hdigit
      exact decimal?_point hdigit.1 hdigit.2 hne hs.startsNoDigit.1
        (exponentPart?_eq_some_iff.mpr hs)

theorem IsDecimal.exists_cons {s : List Char} {d : Decimal} (h : IsDecimal s d) :
    ∃ c t, s = c :: t ∧ (c.isDigit = true ∨ c = '.') := by
  cases h with
  | whole hdigits hs =>
    obtain ⟨c, t, rfl, hc⟩ := hdigits.exists_cons
    exact ⟨c, _, rfl, .inl hc⟩
  | @point before after s n e hdigits hs =>
    cases before with
    | nil => exact ⟨'.', _, rfl, .inr rfl⟩
    | cons c t => exact ⟨c, _, rfl, .inl ((denotes_iff.mp hdigits).2.1 c List.mem_cons_self)⟩

/-! ### Doubles -/

/-- The texts of a double: a decimal to which it is the nearest, behind a sign or none. -/
def Spells (s : List Char) (x : Double) : Prop :=
  BehindSign (fun negative t => ∃ d, IsDecimal t d ∧ x = ofDecimal negative d) s

theorem IsDecimal.unsigned?_eq {s : List Char} {d : Decimal} (h : IsDecimal s d) (negative : Bool) :
    unsigned? negative s = some (ofDecimal negative d) := by
  have hread := decimal?_eq_some_iff.mpr h
  obtain ⟨c, t, rfl, hc⟩ := h.exists_cons
  rcases hc with hc | rfl
  · rw [unsigned?_of_isDigit negative t hc, hread, Option.map_some]
  · have hlower : ('.' :: t).map Char.toLower = '.' :: t.map Char.toLower := rfl
    unfold unsigned?
    simp only [hlower, hread]
    simp

/-- What is read without a sign is a decimal, or an infinity or a NaN. -/
theorem unsigned?_finite_iff {negative : Bool} {s : List Char} {x : Double}
    (hx : x.isFinite = true) :
    unsigned? negative s = some x ↔ ∃ d, IsDecimal s d ∧ x = ofDecimal negative d := by
  constructor
  · intro h
    unfold unsigned? at h
    simp only at h
    split_ifs at h with hinfinity hnan
    · obtain rfl := Option.some.inj h
      cases negative <;> cases hx
    · obtain rfl := Option.some.inj h
      cases negative <;> cases hx
    · obtain ⟨d, hd, rfl⟩ := Option.map_eq_some_iff.mp h
      exact ⟨d, decimal?_eq_some_iff.mp hd, rfl⟩
  · rintro ⟨d, hd, rfl⟩
    exact hd.unsigned?_eq negative

/-- A finite double is read from the texts that spell it. -/
theorem ofText?_finite_iff {s : List Char} {x : Double} (hx : x.isFinite = true) :
    ofText? s = some x ↔ Spells s x := by
  have hdecimal : ∀ negative t, (∃ d, IsDecimal t d ∧ x = ofDecimal negative d) →
      StartsNoSign t := by
    rintro negative t ⟨d, hd, -⟩
    obtain ⟨c, u, rfl, hc | rfl⟩ := hd.exists_cons
    · exact .cons (Text.ne_of_isDigit hc rfl) (Text.ne_of_isDigit hc rfl) u
    · exact .cons (by decide) (by decide) u
  unfold ofText? Spells
  split
  · rw [Text.behindSign_minus_iff hdecimal, unsigned?_finite_iff hx]
  · rw [Text.behindSign_plus_iff hdecimal, unsigned?_finite_iff hx]
  case h_3 hminus hplus =>
    rw [Text.behindSign_iff_of_startsNoSign (.of_ne hminus hplus), unsigned?_finite_iff hx]

end Keyset.Double
