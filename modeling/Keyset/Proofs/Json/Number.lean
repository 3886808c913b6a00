import Keyset.Json.Printer
import Keyset.Json.Reader
import Keyset.Proofs.Double.Text

/-!
# JSON numbers

A number is read without what follows it, if that ends a value (`readNumber?_append`), and an integer of
a word is read as it was written (`readNumber?_signedDigits`).  A double need not be: it is read in two
rounded steps.
-/

namespace Keyset.Json

/-! ### What follows a value -/

/-- Whether a value may end before a text: nothing follows, or a comma or a closing bracket. -/
def Ends (rest : List Char) : Prop :=
  ∀ c, rest.head? = some c → c = ',' ∨ c = ']' ∨ c = '\x7d'

theorem Ends.nil : Ends [] :=
  nofun

theorem Ends.cons {c : Char} (h : c = ',' ∨ c = ']' ∨ c = '\x7d') (rest : List Char) :
    Ends (c :: rest) := by
  intro d hd
  obtain rfl := Option.some.inj hd
  exact h

theorem Ends.startsNoDigit {rest : List Char} (h : Ends rest) : Double.startsNoDigit rest := by
  intro c hc
  rcases h c hc with rfl | rfl | rfl <;> rfl

/-- No part of a number starts what follows a value. -/
theorem Ends.head_ne {c : Char} {rest : List Char} (h : Ends (c :: rest)) :
    c ≠ '.' ∧ c ≠ 'e' ∧ c ≠ 'E' := by
  rcases h c rfl with rfl | rfl | rfl <;> decide

theorem takeWhile_append_ends {s rest : List Char} (h : Ends rest) :
    (s ++ rest).takeWhile Char.isDigit = s.takeWhile Char.isDigit := by
  induction s with
  | nil => exact Double.takeWhile_digits nofun h.startsNoDigit
  | cons c s ih => rw [List.cons_append, List.takeWhile_cons, List.takeWhile_cons, ih]

theorem dropWhile_append_ends {s rest : List Char} (h : Ends rest) :
    (s ++ rest).dropWhile Char.isDigit = s.dropWhile Char.isDigit ++ rest := by
  induction s with
  | nil => exact Double.dropWhile_digits nofun h.startsNoDigit
  | cons c s ih =>
    rw [List.cons_append, List.dropWhile_cons, List.dropWhile_cons, ih]
    split_ifs <;> rfl

/-! ### The parts of a number -/

theorem readWhole?_zero (s : List Char) :
    readWhole? ('0' :: s) = if s.head?.any Char.isDigit then none else some (['0'], s) :=
  rfl

theorem readWhole?_of_ne {c : Char} (h : c ≠ '0') (s : List Char) :
    readWhole? (c :: s) =
      if (c :: s).takeWhile Char.isDigit = [] then none
      else some ((c :: s).takeWhile Char.isDigit, (c :: s).dropWhile Char.isDigit) := by
  unfold readWhole?
  split
  case h_1 heq => exact absurd (List.cons.inj heq).1 h
  case h_2 => rfl

theorem readWhole?_append {s s' ds rest : List Char} (hrest : Ends rest)
    (h : readWhole? s = some (ds, s')) : readWhole? (s ++ rest) = some (ds, s' ++ rest) := by
  cases s with
  | nil => cases h
  | cons c s =>
    by_cases hc : c = '0'
    · subst hc
      have hhead : (s ++ rest).head?.any Char.isDigit = s.head?.any Char.isDigit := by
        cases s with
        | cons c s => rfl
        | nil =>
          cases rest with
          | nil => rfl
          | cons c rest => exact hrest.startsNoDigit c rfl
      rw [List.cons_append, readWhole?_zero, hhead]
      rw [readWhole?_zero] at h
      split_ifs at h ⊢
      cases h
      rfl
    · rw [readWhole?_of_ne hc] at h
      split_ifs at h with hds
      cases h
      rw [List.cons_append, readWhole?_of_ne hc, ← List.cons_append, takeWhile_append_ends hrest,
        dropWhile_append_ends hrest, if_neg hds]

theorem readFraction?_point (s : List Char) :
    readFraction? ('.' :: s) =
      if s.takeWhile Char.isDigit = [] then none
      else some (some (s.takeWhile Char.isDigit), s.dropWhile Char.isDigit) :=
  rfl

theorem readFraction?_of_ne {c : Char} (h : c ≠ '.') (s : List Char) :
    readFraction? (c :: s) = some (none, c :: s) := by
  unfold readFraction?
  split
  case h_1 heq => exact absurd (List.cons.inj heq).1 h
  case h_2 => rfl

theorem readFraction?_append {s s' rest : List Char} {ds : Option (List Char)} (hrest : Ends rest)
    (h : readFraction? s = some (ds, s')) : readFraction? (s ++ rest) = some (ds, s' ++ rest) := by
  cases s with
  | nil =>
    cases h
    cases rest with
    | nil => rfl
    | cons c rest => exact readFraction?_of_ne hrest.head_ne.1 rest
  | cons c s =>
    by_cases hc : c = '.'
    · subst hc
      rw [readFraction?_point] at h
      split_ifs at h with hds
      cases h
      rw [List.cons_append, readFraction?_point, takeWhile_append_ends hrest,
        dropWhile_append_ends hrest, if_neg hds]
    · rw [readFraction?_of_ne hc] at h
      cases h
      exact readFraction?_of_ne hc _

theorem readExponent?_of_ne {c : Char} (h : c ≠ 'e' ∧ c ≠ 'E') (s : List Char) :
    readExponent? (c :: s) = some (none, c :: s) :=
  if_neg (not_or.mpr h)

theorem readExponent?_of_mark {c : Char} (h : c = 'e' ∨ c = 'E') (s : List Char) :
    readExponent? (c :: s) =
      if (exponentSign s).2.takeWhile Char.isDigit = [] then none
      else
        let n := Nat.ofDigitChars 10 ((exponentSign s).2.takeWhile Char.isDigit) 0
        some (some (if (exponentSign s).1 then -(n : Int) else n),
          (exponentSign s).2.dropWhile Char.isDigit) :=
  if_pos h

theorem exponentSign_append (c : Char) (s rest : List Char) :
    exponentSign (c :: s ++ rest) =
      ((exponentSign (c :: s)).1, (exponentSign (c :: s)).2 ++ rest) := by
  by_cases hminus : c = '-'
  · subst hminus
    rfl
  by_cases hplus : c = '+'
  · subst hplus
    rfl
  have hsame (s : List Char) : exponentSign (c :: s) = (false, c :: s) := by
    unfold exponentSign
    split
    case h_1 heq => exact absurd (List.cons.inj heq).1 hminus
    case h_2 heq => exact absurd (List.cons.inj heq).1 hplus
    case h_3 => rfl
  rw [List.cons_append, hsame, hsame, List.cons_append]

theorem readExponent?_append {s s' rest : List Char} {e : Option Int} (hrest : Ends rest)
    (h : readExponent? s = some (e, s')) : readExponent? (s ++ rest) = some (e, s' ++ rest) := by
  cases s with
  | nil =>
    cases h
    cases rest with
    | nil => rfl
    | cons c rest => exact readExponent?_of_ne hrest.head_ne.2 rest
  | cons c s =>
    by_cases hc : c = 'e' ∨ c = 'E'
    · rw [readExponent?_of_mark hc] at h
      -- a mark with nothing behind it is no exponent, else its sign is read without what follows
      cases s with
      | nil => cases h
      | cons d s =>
        by_cases hds : (exponentSign (d :: s)).2.takeWhile Char.isDigit = []
        · rw [if_pos hds] at h
          cases h
        · rw [if_neg hds] at h
          cases h
          rw [List.cons_append, readExponent?_of_mark hc, exponentSign_append,
            takeWhile_append_ends hrest, dropWhile_append_ends hrest, if_neg hds]
    · have hne := not_or.mp hc
      rw [readExponent?_of_ne hne] at h
      cases h
      exact readExponent?_of_ne hne _

/-! ### Numbers -/

theorem readMagnitude?_eq_some_iff {negative : Bool} {s s' : List Char} {n : Number} :
    readMagnitude? negative s = some (n, s') ↔
      ∃ whole s1 fraction s2 exponent, readWhole? s = some (whole, s1) ∧
        readFraction? s1 = some (fraction, s2) ∧ readExponent? s2 = some (exponent, s') ∧
        numberOf? negative whole fraction exponent = some n := by
  unfold readMagnitude?
  simp only [Option.bind_eq_bind, Option.bind_eq_some_iff, Prod.exists, Option.pure_def,
    Option.some.injEq, Prod.mk.injEq]
  constructor
  · rintro ⟨whole, s1, h1, fraction, s2, h2, exponent, s3, h3, m, hm, rfl, rfl⟩
    exact ⟨whole, s1, fraction, s2, exponent, h1, h2, h3, hm⟩
  · rintro ⟨whole, s1, fraction, s2, exponent, h1, h2, h3, hm⟩
    exact ⟨whole, s1, h1, fraction, s2, h2, exponent, s', h3, n, hm, rfl, rfl⟩

theorem readMagnitude?_append {negative : Bool} {s s' rest : List Char} {n : Number}
    (hrest : Ends rest) (h : readMagnitude? negative s = some (n, s')) :
    readMagnitude? negative (s ++ rest) = some (n, s' ++ rest) := by
  obtain ⟨whole, s1, fraction, s2, exponent, h1, h2, h3, hn⟩ := readMagnitude?_eq_some_iff.mp h
  exact readMagnitude?_eq_some_iff.mpr ⟨whole, s1 ++ rest, fraction, s2 ++ rest, exponent,
    readWhole?_append hrest h1, readFraction?_append hrest h2, readExponent?_append hrest h3, hn⟩

theorem readNumber?_of_ne {c : Char} (h : c ≠ '-') (s : List Char) :
    readNumber? (c :: s) = readMagnitude? false (c :: s) := by
  unfold readNumber?
  split
  case h_1 heq => exact absurd (List.cons.inj heq).1 h
  case h_2 => rfl

/-- **A number is read without what follows it**, if that ends a value. -/
theorem readNumber?_append {s s' rest : List Char} {n : Number} (hrest : Ends rest)
    (h : readNumber? s = some (n, s')) : readNumber? (s ++ rest) = some (n, s' ++ rest) := by
  cases s with
  | nil => cases h
  | cons c s =>
    by_cases hc : c = '-'
    · subst hc
      exact readMagnitude?_append hrest h
    · rw [readNumber?_of_ne hc] at h
      rw [List.cons_append, readNumber?_of_ne hc]
      exact readMagnitude?_append hrest h

/-! ### Integers -/

/-- A numeral has no leading zero, so it is read whole. -/
theorem readWhole?_digits (n : Nat) : readWhole? (Text.digits n) = some (Text.digits n, []) := by
  rcases Nat.eq_zero_or_pos n with rfl | hn
  · rfl
  · obtain ⟨c, s, hs, -, hc⟩ := Text.exists_digits_of_pos hn
    have hall : ∀ d ∈ c :: s, d.isDigit = true := by
      rw [← hs]
      exact fun d => Text.isDigit_of_mem_digits
    have htake := Double.takeWhile_digits hall Double.startsNoDigit_nil
    have hdrop := Double.dropWhile_digits hall Double.startsNoDigit_nil
    rw [List.append_nil] at htake hdrop
    rw [hs, readWhole?_of_ne hc, htake, hdrop, if_neg (List.cons_ne_nil c s)]

theorem integerOf?_digits {negative : Bool} {n : Nat} {m : Int}
    (h : -0x8000000000000000 ≤ m ∧ m < 0x10000000000000000)
    (hm : (if negative then -(n : Int) else n) = m) (hzero : negative = true → n ≠ 0) :
    integerOf? negative (Text.digits n) = some (.integer m h) := by
  subst hm
  have hvalue : Nat.ofDigitChars 10 (Text.digits n) 0 = n := Nat.ofDigitChars_ten_toDigits
  unfold integerOf?
  simp only [hvalue]
  rw [dif_pos ⟨h, fun hneg => hzero hneg.1 hneg.2⟩]

theorem readMagnitude?_digits {negative : Bool} {n : Nat} {m : Int}
    (h : -0x8000000000000000 ≤ m ∧ m < 0x10000000000000000)
    (hm : (if negative then -(n : Int) else n) = m) (hzero : negative = true → n ≠ 0) :
    readMagnitude? negative (Text.digits n) = some (.integer m h, []) :=
  readMagnitude?_eq_some_iff.mpr ⟨Text.digits n, [], none, [], none, readWhole?_digits n, rfl, rfl,
    integerOf?_digits h hm hzero⟩

/-- **An integer is read as it was written.** -/
theorem readNumber?_signedDigits {n : Int}
    (h : -0x8000000000000000 ≤ n ∧ n < 0x10000000000000000) :
    readNumber? (Text.signedDigits n) = some (.integer n h, []) := by
  unfold Text.signedDigits
  split_ifs with hn
  · show readMagnitude? true (Text.digits n.natAbs) = _
    have habs : (if true = true then -(n.natAbs : Int) else n.natAbs) = n := by
      rw [if_pos rfl]
      omega
    exact readMagnitude?_digits h habs fun _ => by omega
  · obtain ⟨c, s, hs, hc⟩ := Text.digits_eq_cons n.natAbs
    have habs : (if false = true then -(n.natAbs : Int) else n.natAbs) = n := by
      rw [if_neg Bool.false_ne_true]
      omega
    rw [hs, readNumber?_of_ne (Text.ne_of_isDigit hc rfl), ← hs]
    exact readMagnitude?_digits h habs nofun

end Keyset.Json
