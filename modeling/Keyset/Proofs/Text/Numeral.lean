import Keyset.Text.Blank
import Keyset.Text.Numeral
import Mathlib.Data.Nat.Init
import Mathlib.Tactic.SplitIfs

/-!
# Numerals that read back

Words are written by `digits` and `signedDigits` and read by `word64?` and `integer64?`
(`word64?_digits`, `integer64?_signedDigits`).  The characters of a numeral are digits and a minus
sign, so that it has neither blanks nor the separator of a cursor in it.
-/

namespace Keyset.Text

/-! ### Digits -/

theorem isDigit_of_mem_digits {n : Nat} {c : Char} (h : c ∈ digits n) : c.isDigit = true :=
  List.all_eq_true.mp (all_isDigit_digits n) c h

/-- A numeral starts with a digit. -/
theorem digits_eq_cons (n : Nat) : ∃ c s, digits n = c :: s ∧ c.isDigit = true := by
  cases h : digits n with
  | nil => exact absurd h Nat.toDigits_ne_nil
  | cons c s => exact ⟨c, s, rfl, isDigit_of_mem_digits (h ▸ List.mem_cons_self)⟩

theorem isBlank_of_isDigit {c : Char} (h : c.isDigit = true) : isBlank c = false := by
  simp only [Char.isDigit, Bool.and_eq_true, decide_eq_true_eq] at h
  have hlo : 48 ≤ c.toNat := h.1
  have hhi : c.toNat ≤ 57 := h.2
  simp [isBlank]
  omega

theorem ne_of_isDigit {c d : Char} (hc : c.isDigit = true) (hd : d.isDigit = false) : c ≠ d := by
  rintro rfl
  rw [hc] at hd
  cases hd

/-- Every character of a numeral with a sign is a digit or a minus sign. -/
theorem mem_signedDigits {n : Int} {c : Char} (h : c ∈ signedDigits n) :
    c.isDigit = true ∨ c = '-' := by
  unfold signedDigits at h
  split at h
  · rcases List.mem_cons.mp h with rfl | h
    · exact Or.inr rfl
    · exact Or.inl (isDigit_of_mem_digits h)
  · exact Or.inl (isDigit_of_mem_digits h)

/-! ### Numerals without a leading zero -/

/-- The value of a digit, as the numerals count it, is below ten and has the digit. -/
theorem digitChar_value {c : Char} (h : c.isDigit = true) :
    c.toNat - '0'.toNat < 10 ∧ Nat.digitChar (c.toNat - '0'.toNat) = c := by
  simp only [Char.isDigit, Bool.and_eq_true, decide_eq_true_eq] at h
  have hlo : 48 ≤ c.toNat := h.1
  have hhi : c.toNat ≤ 57 := h.2
  have hd : c.toNat - '0'.toNat < 10 := by
    show c.toNat - 48 < 10
    omega
  refine ⟨hd, Char.toNat_inj.mp ?_⟩
  rw [Nat.toNat_digitChar_of_lt_ten hd]
  show 48 + (c.toNat - 48) = c.toNat
  omega

/-- More digits behind those of a number are the digits of the number that they make it. -/
theorem digits_append {n : Nat} {s : List Char} (hn : 0 < n) (hs : ∀ c ∈ s, c.isDigit = true) :
    digits n ++ s = digits (Nat.ofDigitChars 10 s n) := by
  induction s generalizing n with
  | nil => rw [List.append_nil, Nat.ofDigitChars_nil]
  | cons c s ih =>
    obtain ⟨hd, hc⟩ := digitChar_value (hs c List.mem_cons_self)
    have hdigit : digits n ++ [c] = digits (10 * n + (c.toNat - '0'.toNat)) := by
      unfold digits
      rw [← Nat.toDigits_append_toDigits (by decide) hn hd, Nat.toDigits_of_lt_base hd, hc]
    rw [Nat.ofDigitChars_cons, ← ih (by omega) fun c hc => hs c (List.mem_cons_of_mem _ hc),
      ← hdigit, List.append_assoc, List.singleton_append]

/-- The digits of a positive number do not start with a zero. -/
theorem exists_digits_of_pos {n : Nat} (h : 0 < n) :
    ∃ c s, digits n = c :: s ∧ c.isDigit = true ∧ c ≠ '0' := by
  induction n using Nat.strong_induction_on with
  | _ n ih =>
    have hdigits : digits n =
        if n < 10 then [Nat.digitChar n] else digits (n / 10) ++ [Nat.digitChar (n % 10)] :=
      Nat.toDigits_eq_if (by decide)
    split_ifs at hdigits with hn
    · have hchar : ∀ m < 10, 0 < m → (Nat.digitChar m).isDigit = true ∧ Nat.digitChar m ≠ '0' := by
        decide
      exact ⟨_, [], hdigits, hchar n hn h⟩
    · obtain ⟨c, s, hs, hc⟩ := ih (n / 10) (by omega) (by omega)
      exact ⟨c, s ++ [Nat.digitChar (n % 10)], by rw [hdigits, hs, List.cons_append], hc⟩

/-- Digits that do not start with a zero are those of their value. -/
theorem natural?_eq_some_iff_digits {c : Char} {s : List Char} {n : Nat} (hc : c ≠ '0') :
    natural? (c :: s) = some n ↔ c :: s = digits n := by
  constructor
  · intro h
    unfold natural? at h
    split_ifs at h with hdigit
    obtain rfl := Option.some.inj h
    have hall := List.all_eq_true.mp hdigit.2
    obtain ⟨hd, hchar⟩ := digitChar_value (hall c List.mem_cons_self)
    have hpos : 0 < c.toNat - '0'.toNat := by
      refine Nat.pos_of_ne_zero fun hzero => hc ?_
      rw [← hchar, hzero]
      rfl
    rw [Nat.ofDigitChars_cons, Nat.mul_zero, Nat.zero_add,
      ← digits_append hpos fun c hc => hall c (List.mem_cons_of_mem _ hc), digits,
      Nat.toDigits_of_lt_base hd, hchar, List.singleton_append]
  · intro h
    rw [h, natural?_digits]

/-! ### Reading -/

theorem natural?_eq_none {s : List Char} {c : Char} (hc : c ∈ s) (h : c.isDigit = false) :
    natural? s = none := by
  unfold natural?
  rw [if_neg]
  rintro ⟨-, hall⟩
  rw [List.all_eq_true.mp hall c hc] at h
  cases h

@[simp] theorem unsigned?_digits (n : Nat) : unsigned? (digits n) = some n := by
  obtain ⟨c, s, hs, hc⟩ := digits_eq_cons n
  have hnat := natural?_digits n
  rw [hs] at hnat ⊢
  unfold unsigned?
  split
  · rename_i heq
    obtain ⟨rfl, -⟩ := List.cons.inj heq
    cases hc
  · exact hnat

@[simp] theorem signed?_signedDigits (n : Int) : signed? (signedDigits n) = some n := by
  unfold signedDigits
  split
  · have habs : -(n.natAbs : Int) = n := by omega
    rw [signed?, natural?_digits]
    show some (-(n.natAbs : Int)) = some n
    rw [habs]
  · obtain ⟨c, s, hs, hc⟩ := digits_eq_cons n.natAbs
    have hnat := natural?_digits n.natAbs
    rw [hs] at hnat ⊢
    unfold signed?
    split
    · rename_i heq
      obtain ⟨rfl, -⟩ := List.cons.inj heq
      cases hc
    · rename_i heq
      obtain ⟨rfl, -⟩ := List.cons.inj heq
      cases hc
    · rw [hnat, Option.map_some]
      congr 1
      simp only [Int.ofNat_eq_natCast]
      omega

theorem signed?_eq_none {s : List Char} {c : Char} (hc : c ∈ s) (hdigit : c.isDigit = false)
    (hminus : c ≠ '-') (hplus : c ≠ '+') : signed? s = none := by
  unfold signed?
  split
  · have hmem := (List.mem_cons.mp hc).resolve_left hminus
    rw [natural?_eq_none hmem hdigit]
    rfl
  · have hmem := (List.mem_cons.mp hc).resolve_left hplus
    rw [natural?_eq_none hmem hdigit]
    rfl
  · rw [natural?_eq_none hc hdigit]
    rfl

/-- An unsigned word reads back. -/
theorem word64?_digits (n : UInt64) : word64? (digits n.toNat) = some n := by
  unfold word64?
  rw [unsigned?_digits, Option.bind_some]
  exact Word.uint64?_eq_some_iff.mpr rfl

/-- A signed word reads back. -/
theorem integer64?_signedDigits (n : Int64) : integer64? (signedDigits n.toInt) = some n := by
  unfold integer64?
  rw [signed?_signedDigits, Option.bind_some]
  exact Word.int64?_eq_some_iff.mpr rfl

theorem integer64?_eq_none {s : List Char} {c : Char} (hc : c ∈ s) (hdigit : c.isDigit = false)
    (hminus : c ≠ '-') (hplus : c ≠ '+') : integer64? s = none := by
  unfold integer64?
  rw [signed?_eq_none hc hdigit hminus hplus]
  rfl

end Keyset.Text
