import Keyset.Double.Basic
import Mathlib.Tactic.Ring
import Mathlib.Tactic.SplitIfs

/-!
# Rounding of quotients

`ofRatio` depends on the quotient alone (`ofRatio_congr`) and gives a finite double back from its
number of units (`ofRatio_units`).  Hence integers up to 2⁵³ are exact: their doubles are in the
order of the integers (`key_ofInt_lt_iff`).  The doubles of all integers of a word are finite
(`isFinite_ofInt`).
-/

namespace Keyset.Double

/-! ### Quotients -/

theorem roundDiv_eq_or (num den : Nat) :
    roundDiv num den = num / den ∨ roundDiv num den = num / den + 1 := by
  unfold roundDiv
  simp only
  split_ifs
  · exact Or.inl rfl
  · exact Or.inr rfl

theorem roundDiv_mul_right (num den : Nat) {c : Nat} (hc : 0 < c) :
    roundDiv (num * c) (den * c) = roundDiv num den := by
  unfold roundDiv
  have hmod : 2 * (num * c % (den * c)) = 2 * (num % den) * c := by
    rw [Nat.mul_mod_mul_right]; ring
  have hlt : 2 * (num % den) * c < den * c ↔ 2 * (num % den) < den :=
    Nat.mul_lt_mul_right hc
  have heq : 2 * (num % den) * c = den * c ↔ 2 * (num % den) = den :=
    Nat.mul_left_inj (Nat.ne_of_gt hc)
  simp only [hmod, hlt, heq, Nat.mul_div_mul_right _ _ hc]

/-- A quotient that is whole is not rounded. -/
theorem roundDiv_mul_self (q : Nat) {den : Nat} (hden : 0 < den) : roundDiv (q * den) den = q := by
  unfold roundDiv
  simp [Nat.mul_div_cancel q hden, hden]

theorem ofRatio_mul_right (negative : Bool) (num den : Nat) {c : Nat} (hc : 0 < c) :
    ofRatio negative (num * c) (den * c) = ofRatio negative num den := by
  unfold ofRatio
  have hscaled : num * c * unitsPerOne = num * unitsPerOne * c := by ring
  have hshift : ∀ s : Nat, (den * c) <<< s = (den <<< s) * c := by
    intro s
    rw [Nat.shiftLeft_eq, Nat.shiftLeft_eq]; ring
  simp only [hscaled, hshift, Nat.mul_div_mul_right _ _ hc, roundDiv_mul_right _ _ hc]

/-- Equal quotients are rounded to the same double. -/
theorem ofRatio_congr (negative : Bool) {a b c d : Nat} (hb : 0 < b) (hd : 0 < d)
    (h : a * d = c * b) : ofRatio negative a b = ofRatio negative c d := by
  calc ofRatio negative a b
      = ofRatio negative (a * d) (b * d) := (ofRatio_mul_right negative a b hd).symm
    _ = ofRatio negative (c * b) (d * b) := by rw [h, Nat.mul_comm b d]
    _ = ofRatio negative c d := ofRatio_mul_right negative c d hb

theorem negative_ofRatio (negative : Bool) (num den : Nat) :
    (ofRatio negative num den).negative = negative := rfl

theorem isNaN_ofRatio (negative : Bool) (num den : Nat) :
    (ofRatio negative num den).isNaN = false := by
  unfold isNaN ofRatio
  simp only [decide_eq_false_iff_not, Nat.not_lt]
  exact Nat.min_le_right _ _

theorem ofRatio_zero (negative : Bool) {den : Nat} (hden : 0 < den) :
    ofRatio negative 0 den = zero negative := by
  unfold ofRatio zero
  have hround : roundDiv 0 den = 0 := by
    have h := roundDiv_mul_self 0 hden
    rwa [Nat.zero_mul] at h
  simp [hround]

/-! ### Exact doubles -/

/-- The number of bits behind the point of the smallest double. -/
def unitExponent : Nat :=
  1074

theorem unitsPerOne_eq : unitsPerOne = 2 ^ unitExponent :=
  Nat.one_shiftLeft unitExponent

theorem unitsPerOne_pos : 0 < unitsPerOne :=
  unitsPerOne_eq ▸ Nat.two_pow_pos unitExponent

theorem binade_eq : binade = 2 ^ 52 := rfl

/-- The number of units splits into a significand of at most 53 bits and an exponent, and the
magnitude word is made of the same two. -/
theorem units_eq_shift (x : Double) :
    ∃ s e : Nat, x.units = s * 2 ^ e ∧ x.magnitude = e * binade + s ∧ s < 2 * binade ∧
      (e ≠ 0 → binade ≤ s) := by
  have hdiv := Nat.div_add_mod x.magnitude binade
  have hmod : x.magnitude % binade < binade := Nat.mod_lt _ (by decide)
  unfold units
  by_cases h : x.magnitude / binade = 0
  · refine ⟨x.magnitude % binade, 0, ?_, ?_, by omega, by simp⟩
    · rw [if_pos h, Nat.pow_zero, Nat.mul_one]
    · rw [h, Nat.mul_zero] at hdiv
      omega
  · refine ⟨binade + x.magnitude % binade, x.magnitude / binade - 1, ?_, ?_, by omega, by omega⟩
    · rw [if_neg h, Nat.shiftLeft_eq]
    · have hsplit : binade * (x.magnitude / binade)
          = (x.magnitude / binade - 1) * binade + binade := by
        obtain ⟨k, hk⟩ : ∃ k, x.magnitude / binade = k + 1 := ⟨_, (Nat.succ_pred_eq_of_ne_zero h).symm⟩
        rw [hk, Nat.add_sub_cancel]; ring
      omega

/-- The shift of an exact quotient is its exponent. -/
theorem log2_shift {s e : Nat} (hs : s < 2 * binade) (he : e ≠ 0 → binade ≤ s) :
    (s * 2 ^ e).log2 - 52 = e := by
  have hhi : s * 2 ^ e < 2 ^ (53 + e) := by
    rw [Nat.pow_add]
    exact Nat.mul_lt_mul_of_pos_right (by rw [binade_eq] at hs; omega) (Nat.two_pow_pos e)
  by_cases h0 : s * 2 ^ e = 0
  · have hs0 : s = 0 := (Nat.mul_eq_zero.mp h0).resolve_right (Nat.ne_of_gt (Nat.two_pow_pos e))
    have he0 : e = 0 := by
      by_contra hne
      have := he hne
      rw [hs0, binade_eq] at this
      omega
    rw [hs0, he0]
    rfl
  · have hlog : (s * 2 ^ e).log2 < 53 + e := (Nat.log2_lt h0).mpr hhi
    by_cases he0 : e = 0
    · omega
    · have hlo : 2 ^ (52 + e) ≤ s * 2 ^ e := by
        rw [Nat.pow_add]
        exact Nat.mul_le_mul_right _ (he he0)
      have := (Nat.le_log2 h0).mpr hlo
      omega

/-- A finite double is the quotient of its units. -/
theorem ofRatio_units {x : Double} (h : x.isFinite = true) :
    ofRatio x.negative x.units unitsPerOne = x := by
  obtain ⟨s, e, hunits, hmag, hs, he⟩ := units_eq_shift x
  have hshift := log2_shift hs he
  have hpos := unitsPerOne_pos
  have hround : roundDiv (x.units * unitsPerOne) (unitsPerOne <<< e) = s := by
    rw [Nat.shiftLeft_eq, hunits, show s * 2 ^ e * unitsPerOne = s * (unitsPerOne * 2 ^ e) by ring]
    exact roundDiv_mul_self s (Nat.mul_pos hpos (Nat.two_pow_pos e))
  have hfinite : x.magnitude < infinityWord := by simpa [isFinite] using h
  have hmin : min (e * binade + s) infinityWord = x.magnitude := by
    rw [← hmag]
    exact Nat.min_eq_left (Nat.le_of_lt hfinite)
  unfold ofRatio
  simp only [Nat.mul_div_cancel _ hpos]
  rw [hunits] at hround ⊢
  rw [hshift, hround, hmin]

/-! ### Integers -/

theorem isNaN_ofInt (n : Int) : (ofInt n).isNaN = false :=
  isNaN_ofRatio _ _ _

/-- An integer of at most 64 bits has a double that is finite. -/
theorem isFinite_ofInt {n : Int} (h : n.natAbs < 0x10000000000000000) :
    (ofInt n).isFinite = true := by
  have hscaled : n.natAbs * unitsPerOne < 2 ^ (64 + unitExponent) := by
    calc n.natAbs * unitsPerOne < 2 ^ 64 * unitsPerOne :=
          Nat.mul_lt_mul_of_pos_right h unitsPerOne_pos
      _ = 2 ^ (64 + unitExponent) := by rw [unitsPerOne_eq, Nat.pow_add]
  have hlog : (n.natAbs * unitsPerOne).log2 < 64 + unitExponent := by
    by_cases h0 : n.natAbs * unitsPerOne = 0
    · rw [h0]
      decide
    · exact (Nat.log2_lt h0).mpr hscaled
  -- the significand that is rounded has at most 53 bits
  have hquotient : n.natAbs * unitsPerOne / 1 <<< ((n.natAbs * unitsPerOne).log2 - 52) <
      2 * binade := by
    rw [Nat.one_shiftLeft, Nat.div_lt_iff_lt_mul (Nat.two_pow_pos _)]
    calc n.natAbs * unitsPerOne < 2 ^ ((n.natAbs * unitsPerOne).log2 + 1) := Nat.lt_log2_self
      _ ≤ 2 ^ (53 + ((n.natAbs * unitsPerOne).log2 - 52)) :=
          Nat.pow_le_pow_right (by decide) (by omega)
      _ = 2 * binade * 2 ^ ((n.natAbs * unitsPerOne).log2 - 52) := by rw [Nat.pow_add]; rfl
  have hround := roundDiv_eq_or (n.natAbs * unitsPerOne)
    (1 <<< ((n.natAbs * unitsPerOne).log2 - 52))
  have hexponent : unitExponent = 1074 := rfl
  simp only [ofInt, ofRatio, isFinite, Nat.div_one, decide_eq_true_eq]
  unfold infinityWord binade at *
  omega

theorem isFinite_ofInt64 (n : Int64) : (ofInt n.toInt).isFinite = true := by
  have hlo := n.le_toInt
  have hhi := n.toInt_lt
  exact isFinite_ofInt (by omega)

/-- The largest bound up to which every integer is a double. -/
def exactBound : Nat :=
  0x20000000000000

/-- The leading 53 bits of a positive integer up to the bound hold all of it. -/
theorem exists_leading {n : Nat} (h0 : 0 < n) (h : n ≤ exactBound) :
    ∃ q : Nat, q * 2 ^ n.log2 = n * binade ∧ binade ≤ q ∧ q < 2 * binade := by
  have hne : n ≠ 0 := Nat.ne_of_gt h0
  have hlo : 2 ^ n.log2 ≤ n := Nat.log2_self_le hne
  have hhi : n < 2 ^ (n.log2 + 1) := Nat.lt_log2_self
  have hlog : n.log2 < 54 := (Nat.log2_lt hne).mpr (by unfold exactBound at h; omega)
  have hdvd : 2 ^ n.log2 ∣ n * binade := by
    by_cases h53 : n.log2 = 53
    · -- only the bound itself has more than 53 bits
      have : n = 2 ^ 53 := by
        rw [h53] at hlo
        unfold exactBound at h
        omega
      rw [h53, this]
      exact Nat.dvd_mul_right _ _
    · rw [binade_eq]
      exact Nat.dvd_mul_left_of_dvd (Nat.pow_dvd_pow 2 (by omega)) n
  obtain ⟨q, hq⟩ := hdvd
  have hp : 0 < 2 ^ n.log2 := Nat.two_pow_pos _
  refine ⟨q, by rw [hq, Nat.mul_comm], ?_, ?_⟩
  · apply Nat.le_of_mul_le_mul_left _ hp
    rw [← hq]
    exact Nat.mul_le_mul_right _ hlo
  · apply Nat.lt_of_mul_lt_mul_left (a := 2 ^ n.log2)
    rw [← hq, ← Nat.mul_assoc, ← Nat.pow_succ]
    exact Nat.mul_lt_mul_of_pos_right hhi (by decide)

/-- The units of a word whose point stands `k` bits behind its first one. -/
theorem units_of_magnitude {x : Double} {k q : Nat} (hqlo : binade ≤ q) (hqhi : q < 2 * binade)
    (hmag : x.magnitude = (k + 1022) * binade + q) : x.units * binade = q * 2 ^ k * unitsPerOne := by
  have hdiv : x.magnitude / binade = k + 1023 := by
    rw [hmag]
    unfold binade at hqlo hqhi ⊢
    omega
  have hmod : x.magnitude % binade = q - binade := by
    rw [hmag]
    unfold binade at hqlo hqhi ⊢
    omega
  have hexp : k + 1023 - 1 = k + (unitExponent - 52) := rfl
  have hone : unitExponent - 52 + 52 = unitExponent := rfl
  unfold units
  simp only [hdiv, hmod]
  rw [if_neg (by omega), Nat.shiftLeft_eq, Nat.add_sub_cancel' hqlo, hexp]
  calc q * 2 ^ (k + (unitExponent - 52)) * binade
      = q * 2 ^ k * (2 ^ (unitExponent - 52) * 2 ^ 52) := by rw [Nat.pow_add, binade_eq]; ring
    _ = q * 2 ^ k * unitsPerOne := by rw [← Nat.pow_add, hone, unitsPerOne_eq]

/-- The word of a positive integer up to the bound: the exponent from its length, and its leading
53 bits. -/
theorem magnitude_ofRatio_one (negative : Bool) {n : Nat} (h0 : 0 < n) (h : n ≤ exactBound) :
    ∃ q : Nat, q * 2 ^ n.log2 = n * binade ∧ binade ≤ q ∧ q < 2 * binade ∧
      (ofRatio negative n 1).magnitude = (n.log2 + 1022) * binade + q := by
  obtain ⟨q, hq, hqlo, hqhi⟩ := exists_leading h0 h
  refine ⟨q, hq, hqlo, hqhi, ?_⟩
  -- the double of this word has as many units as the integer
  let x : Double := ⟨negative, (n.log2 + 1022) * binade + q⟩
  have hbinade : 0 < binade := by decide
  have hunits : x.units = n * unitsPerOne := by
    apply Nat.eq_of_mul_eq_mul_right hbinade
    rw [units_of_magnitude hqlo hqhi rfl, hq, Nat.mul_right_comm]
  have hlog : n.log2 < 54 :=
    (Nat.log2_lt (Nat.ne_of_gt h0)).mpr (by unfold exactBound at h; omega)
  have hfinite : x.isFinite = true := by
    simp only [isFinite, decide_eq_true_eq]
    show (n.log2 + 1022) * binade + q < infinityWord
    unfold infinityWord binade at *
    omega
  have hx : ofRatio negative n 1 = x := by
    rw [← ofRatio_units hfinite, hunits]
    exact ofRatio_congr negative Nat.one_pos unitsPerOne_pos (by ring)
  rw [hx]

theorem magnitude_ofRatio_zero (negative : Bool) : (ofRatio negative 0 1).magnitude = 0 := by
  rw [ofRatio_zero negative Nat.one_pos]
  rfl

theorem magnitude_ofRatio_pos (negative : Bool) {n : Nat} (h0 : 0 < n) (h : n ≤ exactBound) :
    0 < (ofRatio negative n 1).magnitude := by
  obtain ⟨q, _, hq, _, hmag⟩ := magnitude_ofRatio_one negative h0 h
  rw [hmag]
  unfold binade at hq ⊢
  omega

/-- Up to the bound a larger integer has a larger word. -/
theorem magnitude_ofRatio_lt {m n : Nat} (neg₁ neg₂ : Bool) (hlt : m < n) (hn : n ≤ exactBound) :
    (ofRatio neg₁ m 1).magnitude < (ofRatio neg₂ n 1).magnitude := by
  rcases Nat.eq_zero_or_pos m with rfl | hm
  · rw [magnitude_ofRatio_zero]
    exact magnitude_ofRatio_pos neg₂ hlt hn
  obtain ⟨q, hq, hqlo, hqhi, hmagm⟩ := magnitude_ofRatio_one neg₁ hm (by omega)
  obtain ⟨r, hr, hrlo, hrhi, hmagn⟩ := magnitude_ofRatio_one neg₂ (show 0 < n by omega) hn
  rw [hmagm, hmagn]
  have hlog : m.log2 ≤ n.log2 := by
    apply (Nat.le_log2 (by omega)).mpr
    exact Nat.le_trans (Nat.log2_self_le (by omega)) (Nat.le_of_lt hlt)
  rcases Nat.lt_or_eq_of_le hlog with hlog | hlog
  · -- a shorter integer has a smaller exponent
    unfold binade at *
    omega
  · rw [hlog] at hq ⊢
    have : q < r := by
      apply Nat.lt_of_mul_lt_mul_right (a := 2 ^ n.log2)
      rw [hq, hr]
      exact Nat.mul_lt_mul_of_pos_right hlt (by decide)
    omega

/-- Integers up to the bound are ordered like their doubles. -/
theorem key_ofInt_lt_iff {a b : Int} (ha : a.natAbs ≤ exactBound) (hb : b.natAbs ≤ exactBound) :
    (ofInt a).key < (ofInt b).key ↔ a < b := by
  have mono : ∀ {a b : Int}, a.natAbs ≤ exactBound → b.natAbs ≤ exactBound → a < b →
      (ofInt a).key < (ofInt b).key := by
    intro a b ha hb hab
    unfold key ofInt
    simp only [negative_ofRatio, decide_eq_true_eq]
    split_ifs with hna hnb hnb
    · have := magnitude_ofRatio_lt (decide (b < 0)) (decide (a < 0))
        (show b.natAbs < a.natAbs by omega) ha
      omega
    · have := magnitude_ofRatio_pos (decide (a < 0)) (show 0 < a.natAbs by omega) ha
      omega
    · omega
    · have := magnitude_ofRatio_lt (decide (a < 0)) (decide (b < 0))
        (show a.natAbs < b.natAbs by omega) hb
      omega
  constructor
  · intro hkey
    by_contra hle
    rcases Int.lt_or_eq_of_le (Int.not_lt.mp hle) with hba | rfl
    · have := mono hb ha hba
      omega
    · omega
  · exact mono ha hb

/-- Different integers up to the bound have different doubles. -/
theorem key_ofInt_inj {a b : Int} (ha : a.natAbs ≤ exactBound) (hb : b.natAbs ≤ exactBound) :
    (ofInt a).key = (ofInt b).key ↔ a = b := by
  constructor
  · intro hkey
    have hab := key_ofInt_lt_iff ha hb
    have hba := key_ofInt_lt_iff hb ha
    omega
  · rintro rfl
    rfl

end Keyset.Double
