import Keyset.Proofs.Double.Rounding

/-!
# Rounding keeps the order

A larger quotient is not rounded to a smaller double (`magnitude_ofRatio_mono`).  So the doubles of
integers of any size are in the order of the integers, except that some have one double
(`key_ofInt_mono`); an integer below 2⁵³ shares its double with no other one (`tellsApart_of_lt`).
-/

namespace Keyset.Double

/-! ### Quotients -/

theorem roundDiv_mono {a b : Nat} (den : Nat) (h : a ≤ b) : roundDiv a den ≤ roundDiv b den := by
  have hdiv : a / den ≤ b / den := Nat.div_le_div_right h
  rcases Nat.lt_or_eq_of_le hdiv with hlt | heq
  · -- a larger whole part is at least what the smaller one can be rounded up to
    have ha := roundDiv_eq_or a den
    have hb := roundDiv_eq_or b den
    omega
  · have hmod : a % den ≤ b % den := by
      have ha := Nat.div_add_mod a den
      have hb := Nat.div_add_mod b den
      rw [heq] at ha
      omega
    unfold roundDiv
    simp only [heq]
    split_ifs <;> omega

theorem roundDiv_le {num den q : Nat} (hden : 0 < den) (h : num ≤ q * den) :
    roundDiv num den ≤ q := by
  have hmono := roundDiv_mono den h
  rwa [roundDiv_mul_self q hden] at hmono

theorem le_roundDiv {num den q : Nat} (hden : 0 < den) (h : q * den ≤ num) :
    q ≤ roundDiv num den := by
  have hmono := roundDiv_mono den h
  rwa [roundDiv_mul_self q hden] at hmono

theorem log2_mono {a b : Nat} (h : a ≤ b) : a.log2 ≤ b.log2 := by
  by_cases h0 : a = 0
  · rw [h0, Nat.log2_zero]
    exact Nat.zero_le _
  · apply (Nat.le_log2 (by omega)).mpr
    exact Nat.le_trans (Nat.log2_self_le h0) h

/-- The significand of a quotient is rounded to at most 53 bits and a carry. -/
theorem roundDiv_shift_le (num : Nat) {den : Nat} (hden : 0 < den) :
    roundDiv num (den <<< ((num / den).log2 - 52)) ≤ 2 * binade := by
  have hpow : 2 ^ ((num / den).log2 + 1) ≤ 2 * binade * 2 ^ ((num / den).log2 - 52) := by
    rw [binade_eq, ← Nat.pow_succ', ← Nat.pow_add]
    exact Nat.pow_le_pow_right (by decide) (by omega)
  rw [Nat.shiftLeft_eq]
  apply roundDiv_le (Nat.mul_pos hden (Nat.two_pow_pos _))
  calc num
      ≤ (num / den + 1) * den := Nat.le_of_lt (Nat.lt_mul_of_div_lt (Nat.lt_succ_self _) hden)
    _ ≤ 2 ^ ((num / den).log2 + 1) * den := Nat.mul_le_mul_right _ Nat.lt_log2_self
    _ ≤ 2 * binade * 2 ^ ((num / den).log2 - 52) * den := Nat.mul_le_mul_right _ hpow
    _ = 2 * binade * (den * 2 ^ ((num / den).log2 - 52)) := by ring

/-- The significand of a quotient that is shifted has its 53rd bit. -/
theorem le_roundDiv_shift {num den : Nat} (hden : 0 < den) (h : (num / den).log2 - 52 ≠ 0) :
    binade ≤ roundDiv num (den <<< ((num / den).log2 - 52)) := by
  have hne : num / den ≠ 0 := by
    intro h0
    rw [h0] at h
    exact h rfl
  have hpow : binade * 2 ^ ((num / den).log2 - 52) = 2 ^ (num / den).log2 := by
    rw [binade_eq, ← Nat.pow_add]
    congr 1
    omega
  rw [Nat.shiftLeft_eq]
  apply le_roundDiv (Nat.mul_pos hden (Nat.two_pow_pos _))
  calc binade * (den * 2 ^ ((num / den).log2 - 52))
      = 2 ^ (num / den).log2 * den := by rw [← hpow]; ring
    _ ≤ num / den * den := Nat.mul_le_mul_right _ (Nat.log2_self_le hne)
    _ ≤ num := Nat.div_mul_le_self _ _

/-- A larger quotient does not have a smaller word. -/
theorem magnitude_ofRatio_mono {a b den : Nat} (neg₁ neg₂ : Bool) (hden : 0 < den) (h : a ≤ b) :
    (ofRatio neg₁ a den).magnitude ≤ (ofRatio neg₂ b den).magnitude := by
  have hscaled : a * unitsPerOne ≤ b * unitsPerOne := Nat.mul_le_mul_right _ h
  simp only [ofRatio]
  generalize a * unitsPerOne = m at hscaled ⊢
  generalize b * unitsPerOne = n at hscaled ⊢
  have hlog := log2_mono (Nat.div_le_div_right (c := den) hscaled)
  apply min_le_min_right
  by_cases heq : (m / den).log2 - 52 = (n / den).log2 - 52
  · rw [heq]
    exact Nat.add_le_add_left (roundDiv_mono _ hscaled) _
  · -- the larger quotient is in a higher binade, at whose beginning it is at least
    have hle := roundDiv_shift_le m hden
    have hge : binade ≤ roundDiv n (den <<< ((n / den).log2 - 52)) :=
      le_roundDiv_shift hden (by omega)
    have hstep : ((m / den).log2 - 52 + 1) * binade ≤ ((n / den).log2 - 52) * binade :=
      Nat.mul_le_mul_right _ (by omega)
    rw [Nat.add_mul, Nat.one_mul] at hstep
    generalize roundDiv m _ = x at hle ⊢
    generalize roundDiv n _ = y at hge ⊢
    omega

/-! ### Integers -/

theorem magnitude_ofInt_mono {a b : Int} (h : a.natAbs ≤ b.natAbs) :
    (ofInt a).magnitude ≤ (ofInt b).magnitude :=
  magnitude_ofRatio_mono _ _ Nat.one_pos h

theorem magnitude_ofInt_pos {n : Int} (h : n ≠ 0) : 0 < (ofInt n).magnitude := by
  have hone : 0 < (ofInt 1).magnitude := magnitude_ofRatio_pos _ Nat.one_pos (by decide)
  have hmono := magnitude_ofInt_mono (show (1 : Int).natAbs ≤ n.natAbs by omega)
  omega

theorem negative_ofInt (n : Int) : (ofInt n).negative = decide (n < 0) := rfl

/-- A larger integer does not have a smaller double. -/
theorem key_ofInt_mono {a b : Int} (h : a ≤ b) : (ofInt a).key ≤ (ofInt b).key := by
  unfold key
  simp only [negative_ofInt, decide_eq_true_eq]
  split_ifs with ha hb hb
  · have hmono := magnitude_ofInt_mono (show b.natAbs ≤ a.natAbs by omega)
    omega
  · omega
  · omega
  · have hmono := magnitude_ofInt_mono (show a.natAbs ≤ b.natAbs by omega)
    omega

/-- Integers with one place in the order have one double. -/
theorem ofInt_eq_iff {a b : Int} : ofInt a = ofInt b ↔ (ofInt a).key = (ofInt b).key := by
  constructor
  · exact fun h => congrArg key h
  · intro h
    have ha : a ≠ 0 → 0 < (ofInt a).magnitude := magnitude_ofInt_pos
    have hb : b ≠ 0 → 0 < (ofInt b).magnitude := magnitude_ofInt_pos
    unfold key at h
    simp only [negative_ofInt, decide_eq_true_eq] at h
    -- only zero has the key 0, so that the keys give the signs back
    have hparts : (a < 0 ↔ b < 0) ∧ (ofInt a).magnitude = (ofInt b).magnitude := by
      split_ifs at h <;> omega
    have hnegative : (ofInt a).negative = (ofInt b).negative := by
      rw [negative_ofInt, negative_ofInt, decide_eq_decide]
      exact hparts.1
    calc ofInt a
        = ⟨(ofInt a).negative, (ofInt a).magnitude⟩ := rfl
      _ = ⟨(ofInt b).negative, (ofInt b).magnitude⟩ := by rw [hnegative, hparts.2]

/-- Doubles tell integers apart: integers that have one double are one. -/
def TellsApart (a b : Int) : Prop :=
  ofInt a = ofInt b → a = b

theorem TellsApart.symm {a b : Int} (h : TellsApart a b) : TellsApart b a :=
  fun heq => (h heq.symm).symm

/-- Integers that are told apart are ordered like their doubles. -/
theorem TellsApart.key_lt {a b : Int} (h : TellsApart a b) (hab : a < b) :
    (ofInt a).key < (ofInt b).key := by
  have hle := key_ofInt_mono (Int.le_of_lt hab)
  have hne : (ofInt a).key ≠ (ofInt b).key := by
    intro heq
    have := h (ofInt_eq_iff.mpr heq)
    omega
  omega

theorem tellsApart_of_le {a b : Int} (ha : a.natAbs ≤ exactBound) (hb : b.natAbs ≤ exactBound) :
    TellsApart a b := by
  intro h
  exact (key_ofInt_inj ha hb).mp (ofInt_eq_iff.mp h)

/-- An integer below the bound is told apart from every integer. -/
theorem tellsApart_of_lt {a : Int} (h : a.natAbs < exactBound) (b : Int) : TellsApart a b := by
  intro heq
  rw [ofInt_eq_iff] at heq
  have hbound : (exactBound : Int).natAbs ≤ exactBound := Nat.le_refl _
  have hbound' : (-(exactBound : Int)).natAbs ≤ exactBound := by omega
  by_cases hb : b.natAbs ≤ exactBound
  · exact (key_ofInt_inj (Nat.le_of_lt h) hb).mp heq
  -- beyond the bound, the double of `b` is at least that of the bound
  · rcases lt_or_ge b 0 with hneg | hpos
    · have hlt := (key_ofInt_lt_iff hbound' (Nat.le_of_lt h)).mpr (by omega)
      have hmono := key_ofInt_mono (show b ≤ -(exactBound : Int) by omega)
      omega
    · have hlt := (key_ofInt_lt_iff (Nat.le_of_lt h) hbound).mpr (by omega)
      have hmono := key_ofInt_mono (show (exactBound : Int) ≤ b by omega)
      omega

end Keyset.Double
