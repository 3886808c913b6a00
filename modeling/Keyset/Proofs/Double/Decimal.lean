import Keyset.Double.Decimal
import Keyset.Proofs.Double.Rounding

/-!
# Decimals of doubles

The double of a decimal is that of a quotient (`ofDecimal_eq_ofRatio`) and does not depend on final
zeros (`ofDecimal_shift`).  The digits that `shortest` finds read back (`ofDecimal_shortest`): a grid
point is taken only if it does, and the exact expansion that ends the search is the double itself.
-/

namespace Keyset

namespace Decimal

/-- The power of ten above the leading digit. -/
def place (d : Decimal) : Int :=
  d.exponent + (Text.digits d.significand).length

/-- The numerator of a decimal as a quotient. -/
def num (d : Decimal) : Nat :=
  d.significand * 10 ^ d.exponent.toNat

/-- The denominator of a decimal as a quotient. -/
def den (d : Decimal) : Nat :=
  10 ^ (-d.exponent).toNat

theorem den_pos (d : Decimal) : 0 < d.den :=
  Nat.pow_pos (by decide)

/-- The same number with `k` more zeros behind its digits. -/
def shift (d : Decimal) (k : Nat) : Decimal :=
  ⟨d.significand * 10 ^ k, d.exponent - k⟩

theorem num_shift_mul_den (d : Decimal) (k : Nat) :
    (d.shift k).num * d.den = d.num * (d.shift k).den := by
  have hexp : k + (d.exponent - k).toNat + (-d.exponent).toNat
      = d.exponent.toNat + (-(d.exponent - k)).toNat := by
    omega
  show d.significand * 10 ^ k * 10 ^ (d.exponent - k).toNat * 10 ^ (-d.exponent).toNat
    = d.significand * 10 ^ d.exponent.toNat * 10 ^ (-(d.exponent - k)).toNat
  rw [Nat.mul_assoc, Nat.mul_assoc, Nat.mul_assoc, ← Nat.pow_add, ← Nat.pow_add, ← Nat.pow_add,
    ← hexp, Nat.add_assoc]

end Decimal

namespace Text

theorem length_digits_mul_ten {n : Nat} (h : 0 < n) :
    (digits (n * 10)).length = (digits n).length + 1 := by
  unfold digits
  rw [Nat.toDigits_of_base_le (by decide) (by omega), Nat.mul_div_cancel _ (by decide)]
  simp

theorem length_digits_mul_pow {n : Nat} (h : 0 < n) (k : Nat) :
    (digits (n * 10 ^ k)).length = (digits n).length + k := by
  induction k with
  | zero => simp
  | succ k ih =>
    rw [Nat.pow_succ, ← Nat.mul_assoc,
      length_digits_mul_ten (Nat.mul_pos h (Nat.pow_pos (by decide))), ih, Nat.add_assoc]

end Text

namespace Double

/-! ### The double of a decimal -/

theorem ofDecimal_eq (negative : Bool) (d : Decimal) :
    ofDecimal negative d =
      if d.significand = 0 ∨ d.place < -400 then zero negative
      else if 400 < d.place then infinity negative
      else ofRatio negative d.num d.den := by
  have hpow : ∀ a b : Nat, Nat.pow a b = a ^ b := fun _ _ => Nat.pow_eq
  unfold ofDecimal Decimal.place Decimal.num Decimal.den
  simp only [hpow]
  split_ifs with h1 h2 h3
  · rfl
  · rfl
  · rw [show (-d.exponent).toNat = 0 by omega, Nat.pow_zero]
  · rw [show d.exponent.toNat = 0 by omega, Nat.pow_zero, Nat.mul_one]

theorem ofDecimal_eq_ofRatio (negative : Bool) {d : Decimal} (hlo : -400 ≤ d.place)
    (hhi : d.place ≤ 400) : ofDecimal negative d = ofRatio negative d.num d.den := by
  rw [ofDecimal_eq]
  split_ifs with h1 h2
  · have h0 : d.significand = 0 := h1.resolve_right (by omega)
    have hnum : d.num = 0 := by
      unfold Decimal.num
      rw [h0, Nat.zero_mul]
    rw [hnum, ofRatio_zero negative d.den_pos]
  · omega
  · rfl

/-- Final zeros do not matter. -/
theorem ofDecimal_shift (negative : Bool) (d : Decimal) (k : Nat) :
    ofDecimal negative (d.shift k) = ofDecimal negative d := by
  rcases Nat.eq_zero_or_pos d.significand with h0 | h0
  · have hshift : (d.shift k).significand = 0 := by
      show d.significand * 10 ^ k = 0
      rw [h0, Nat.zero_mul]
    rw [ofDecimal_eq, ofDecimal_eq, if_pos (Or.inl hshift), if_pos (Or.inl h0)]
  · -- zeros behind the digits change neither the place of the first digit nor the quotient
    have hplace : (d.shift k).place = d.place := by
      show d.exponent - k + ((Text.digits (d.significand * 10 ^ k)).length : Int) = _
      rw [Text.length_digits_mul_pow h0]
      unfold Decimal.place
      push_cast
      omega
    have hpos : (d.shift k).significand ≠ 0 :=
      Nat.ne_of_gt (Nat.mul_pos h0 (Nat.pow_pos (by decide)))
    have hratio : ofRatio negative (d.shift k).num (d.shift k).den = ofRatio negative d.num d.den :=
      ofRatio_congr negative (d.shift k).den_pos d.den_pos (d.num_shift_mul_den k)
    simp only [ofDecimal_eq, hplace, hratio, hpos, Nat.ne_of_gt h0, false_or]

theorem ofDecimal_strip (negative : Bool) (d : Decimal) :
    ofDecimal negative d.strip = ofDecimal negative d := by
  induction d using Decimal.strip.induct with
  | case1 d h ih =>
    rw [Decimal.strip, if_pos h, ih]
    have hd : d = (⟨d.significand / 10, d.exponent + 1⟩ : Decimal).shift 1 := by
      unfold Decimal.shift
      obtain ⟨s, e⟩ := d
      simp only [Decimal.mk.injEq]
      constructor
      · have := h.2
        simp only at this ⊢
        omega
      · push_cast
        omega
    conv_rhs => rw [hd]
    rw [ofDecimal_shift]
  | case2 d h => rw [Decimal.strip, if_neg h]

/-- The double of digits without a point. -/
theorem ofDecimal_natural (negative : Bool) {n : Nat} (h : (Text.digits n).length ≤ 400) :
    ofDecimal negative ⟨n, 0⟩ = ofRatio negative n 1 := by
  rw [ofDecimal_eq_ofRatio negative]
  · show ofRatio negative (n * 10 ^ 0) (10 ^ 0) = _
    rw [Nat.pow_zero, Nat.mul_one]
  · show -400 ≤ (0 : Int) + (Text.digits n).length
    omega
  · show (0 : Int) + (Text.digits n).length ≤ 400
    omega

/-! ### The digits of a double -/

/-- A point of a grid is taken only if it reads back. -/
theorem ofDecimal_of_onGrid? {x : Double} {exponent : Int} {d : Decimal}
    (h : x.onGrid? exponent = some d) : ofDecimal x.negative d = x := by
  unfold onGrid? at h
  simp only at h
  split_ifs at h with hbelow habove habove
  · -- where both neighbours read back, the nearer one is one of them
    obtain rfl := Option.some.inj h
    rcases roundDiv_eq_or (x.units * Nat.pow 10 (-exponent).toNat)
      (unitsPerOne * Nat.pow 10 exponent.toNat) with hr | hr
    · rw [hr]; exact hbelow
    · rw [hr]; exact habove
  · obtain rfl := Option.some.inj h
    exact hbelow
  · obtain rfl := Option.some.inj h
    exact habove

/-- The number of units of a finite double is below that of infinity. -/
theorem units_lt {x : Double} (h : x.isFinite = true) : x.units < 2 ^ (2 * unitExponent) := by
  obtain ⟨s, e, hunits, hmag, hs, he⟩ := units_eq_shift x
  have hfinite : x.magnitude < infinityWord := by simpa [isFinite] using h
  -- the exponent of a finite double is below the largest one
  have hexp : e ≤ 2046 := by
    unfold infinityWord binade at *
    omega
  calc x.units = s * 2 ^ e := hunits
    _ < 2 ^ 53 * 2 ^ e := Nat.mul_lt_mul_of_pos_right (by unfold binade at hs; omega)
        (Nat.two_pow_pos e)
    _ = 2 ^ (53 + e) := (Nat.pow_add 2 53 e).symm
    _ ≤ 2 ^ (2 * unitExponent) := Nat.pow_le_pow_right (by decide) (by unfold unitExponent; omega)

/-- The exact expansion of a finite double other than zero. -/
def expansion (x : Double) : Decimal :=
  ⟨x.units * 5 ^ unitExponent, -unitExponent⟩

theorem place_expansion {x : Double} (h : x.isFinite = true) (h0 : 0 < x.units) :
    -400 ≤ x.expansion.place ∧ x.expansion.place ≤ 400 := by
  have hten : (10 : Nat) ^ (unitExponent - 400) ≤ 5 ^ unitExponent := by decide +kernel
  have htwo : (2 : Nat) ^ (2 * unitExponent) * 5 ^ unitExponent ≤ 10 ^ (unitExponent + 400) := by
    decide +kernel
  have hhi : x.units * 5 ^ unitExponent < 10 ^ (unitExponent + 400) :=
    Nat.lt_of_lt_of_le
      (Nat.mul_lt_mul_of_pos_right (units_lt h) (Nat.pow_pos (by decide))) htwo
  have hlo : (10 : Nat) ^ (unitExponent - 400) ≤ x.units * 5 ^ unitExponent :=
    Nat.le_trans hten (Nat.le_mul_of_pos_left _ h0)
  have hlenhi : (Text.digits (x.units * 5 ^ unitExponent)).length ≤ unitExponent + 400 :=
    (Nat.length_toDigits_le_iff (by decide) (by decide)).mpr hhi
  have hlenlo : unitExponent - 400 < (Text.digits (x.units * 5 ^ unitExponent)).length := by
    apply Nat.lt_of_not_le
    intro hle
    exact Nat.not_lt.mpr hlo ((Nat.length_toDigits_le_iff (by decide) (by decide)).mp hle)
  unfold Decimal.place expansion
  simp only
  unfold unitExponent at *
  omega

theorem ofDecimal_expansion {x : Double} (h : x.isFinite = true) (h0 : 0 < x.units) :
    ofDecimal x.negative x.expansion = x := by
  obtain ⟨hlo, hhi⟩ := place_expansion h h0
  rw [ofDecimal_eq_ofRatio x.negative hlo hhi]
  conv_rhs => rw [← ofRatio_units h]
  apply ofRatio_congr x.negative x.expansion.den_pos unitsPerOne_pos
  have hnum : x.expansion.num = x.units * 5 ^ unitExponent := by
    show x.units * 5 ^ unitExponent * 10 ^ 0 = _
    rw [Nat.pow_zero, Nat.mul_one]
  have hden : x.expansion.den = (2 * 5) ^ unitExponent := by
    unfold Decimal.den expansion
    rw [Int.neg_neg, Int.toNat_natCast]
  rw [hnum, hden, unitsPerOne_eq, Nat.mul_pow, Nat.mul_assoc, Nat.mul_comm (2 ^ unitExponent)]

/-- **Reading back**: the digits of a double give the double again. -/
theorem ofDecimal_shortest {x : Double} (h : x.isFinite = true) (h0 : 0 < x.units) :
    ofDecimal x.negative x.shortest = x := by
  unfold shortest
  simp only
  rw [ofDecimal_strip]
  cases hfound : (List.range 17).findSome? fun n => x.onGrid? (x.leadingPlace - (n : Nat)) with
  | none => exact ofDecimal_expansion h h0
  | some d =>
    obtain ⟨n, -, hn⟩ := List.exists_of_findSome?_eq_some hfound
    exact ofDecimal_of_onGrid? hn

end Double

end Keyset
