import Keyset.Proofs.Text.Numeral

/-!
# Spellings of integers

A text of digits denotes a number if it is the numeral of the number behind any number of zeros
(`Denotes`).  The readers of words accept exactly such texts, behind an optional plus sign if the word
has no sign (`word64?_eq_some_iff`), and behind an optional sign otherwise
(`integer64?_eq_some_iff`), as long as the number fits the word.
-/

namespace Keyset.Text

/-! ### Digits -/

/-- A text of digits that denotes a number: its numeral, behind any number of zeros. -/
def Denotes (s : List Char) (n : Nat) : Prop :=
  ∃ zeros, s = List.replicate zeros '0' ++ digits n

theorem natural?_zero_cons {s : List Char} (h : s ≠ []) : natural? ('0' :: s) = natural? s := by
  have hall : ('0' :: s).all Char.isDigit = s.all Char.isDigit := by
    rw [List.all_cons]
    rfl
  have hvalue : Nat.ofDigitChars 10 ('0' :: s) 0 = Nat.ofDigitChars 10 s 0 := by
    rw [Nat.ofDigitChars_cons]
    rfl
  unfold natural?
  rw [hall, hvalue]
  simp [h]

/-- Digits are read as the number that they denote. -/
theorem natural?_eq_some_iff {s : List Char} {n : Nat} : natural? s = some n ↔ Denotes s n := by
  constructor
  · intro h
    induction s with
    | nil => cases h
    | cons c s ih =>
      by_cases hc : c = '0'
      case neg => exact ⟨0, (natural?_eq_some_iff_digits hc).mp h⟩
      subst hc
      cases s with
      | nil =>
        obtain rfl := Option.some.inj h
        exact ⟨0, rfl⟩
      | cons d s =>
        rw [natural?_zero_cons (List.cons_ne_nil _ _)] at h
        obtain ⟨zeros, hzeros⟩ := ih h
        exact ⟨zeros + 1, by rw [hzeros, List.replicate_succ, List.cons_append]⟩
  · rintro ⟨zeros, rfl⟩
    induction zeros with
    | zero => exact natural?_digits n
    | succ zeros ih =>
      have hne : List.replicate zeros '0' ++ digits n ≠ [] :=
        List.append_ne_nil_of_right_ne_nil _ Nat.toDigits_ne_nil
      rw [List.replicate_succ, List.cons_append, natural?_zero_cons hne, ih]

theorem denotes_iff {s : List Char} {n : Nat} :
    Denotes s n ↔ s ≠ [] ∧ (∀ c ∈ s, c.isDigit = true) ∧ Nat.ofDigitChars 10 s 0 = n := by
  rw [← natural?_eq_some_iff, natural?, ← List.all_eq_true]
  split_ifs with h
  · simp [h]
  · exact ⟨nofun, fun hs => absurd ⟨hs.1, hs.2.1⟩ h⟩

theorem Denotes.exists_cons {s : List Char} {n : Nat} (h : Denotes s n) :
    ∃ c t, s = c :: t ∧ c.isDigit = true := by
  obtain ⟨hne, hdigit, -⟩ := denotes_iff.mp h
  cases s with
  | nil => exact absurd rfl hne
  | cons c t => exact ⟨c, t, rfl, hdigit c List.mem_cons_self⟩

/-! ### Signs -/

/-- The texts of a sign, and whether they make what follows negative. -/
inductive IsSign : List Char → Bool → Prop
  | absent : IsSign [] false
  | plus : IsSign ['+'] false
  | minus : IsSign ['-'] true

/-- A text of which a part behind an optional sign has a property that may depend on the sign. -/
def BehindSign (P : Bool → List Char → Prop) (s : List Char) : Prop :=
  ∃ sign negative t, IsSign sign negative ∧ s = sign ++ t ∧ P negative t

/-- A text that denotes a natural number: digits, behind a plus sign or none. -/
def SpellsNatural (s : List Char) (n : Nat) : Prop :=
  BehindSign (fun negative t => negative = false ∧ Denotes t n) s

/-- A text that denotes an integer: digits, behind a sign or none. -/
def SpellsInteger (s : List Char) (n : Int) : Prop :=
  BehindSign (fun negative t => ∃ m, Denotes t m ∧ n = if negative then -(m : Int) else m) s

/-- Texts that do not start with a sign. -/
def StartsNoSign (s : List Char) : Prop :=
  s.head? ≠ some '-' ∧ s.head? ≠ some '+'

theorem StartsNoSign.cons {c : Char} (hminus : c ≠ '-') (hplus : c ≠ '+') (s : List Char) :
    StartsNoSign (c :: s) := by
  simp [StartsNoSign, hminus, hplus]

theorem StartsNoSign.of_ne {s : List Char} (hminus : ∀ t, s ≠ '-' :: t) (hplus : ∀ t, s ≠ '+' :: t) :
    StartsNoSign s := by
  cases s with
  | nil => exact ⟨nofun, nofun⟩
  | cons c t => exact .cons (fun h => hminus t (by rw [h])) (fun h => hplus t (by rw [h])) t

theorem Denotes.startsNoSign {s : List Char} {n : Nat} (h : Denotes s n) : StartsNoSign s := by
  obtain ⟨c, t, rfl, hc⟩ := h.exists_cons
  exact .cons (ne_of_isDigit hc rfl) (ne_of_isDigit hc rfl) t

section

variable {P : Bool → List Char → Prop} (hP : ∀ negative t, P negative t → StartsNoSign t)
include hP

theorem behindSign_minus_iff {s : List Char} : BehindSign P ('-' :: s) ↔ P true s := by
  constructor
  · rintro ⟨sign, negative, t, hsign, hs, ht⟩
    cases hsign with
    | absent =>
      rw [List.nil_append] at hs
      exact absurd (by rw [← hs]; rfl) (hP _ _ ht).1
    | plus => cases hs
    | minus =>
      cases hs
      exact ht
  · exact fun h => ⟨_, _, s, .minus, rfl, h⟩

theorem behindSign_plus_iff {s : List Char} : BehindSign P ('+' :: s) ↔ P false s := by
  constructor
  · rintro ⟨sign, negative, t, hsign, hs, ht⟩
    cases hsign with
    | absent =>
      rw [List.nil_append] at hs
      exact absurd (by rw [← hs]; rfl) (hP _ _ ht).2
    | plus =>
      cases hs
      exact ht
    | minus => cases hs
  · exact fun h => ⟨_, _, s, .plus, rfl, h⟩

omit hP in
theorem behindSign_iff_of_startsNoSign {s : List Char} (h : StartsNoSign s) :
    BehindSign P s ↔ P false s := by
  constructor
  · rintro ⟨sign, negative, t, hsign, rfl, ht⟩
    cases hsign with
    | absent => exact ht
    | plus => exact absurd rfl h.2
    | minus => exact absurd rfl h.1
  · exact fun ht => ⟨_, _, s, .absent, rfl, ht⟩

end

/-! ### Reading -/

theorem unsigned?_eq_some_iff {s : List Char} {n : Nat} :
    unsigned? s = some n ↔ SpellsNatural s n := by
  have hdigits : ∀ negative t, (negative = false ∧ Denotes t n) → StartsNoSign t :=
    fun _ _ h => h.2.startsNoSign
  unfold unsigned? SpellsNatural
  split
  · rw [behindSign_plus_iff hdigits, natural?_eq_some_iff]
    exact (and_iff_right rfl).symm
  case h_2 hplus =>
    by_cases hminus : ∃ t, s = '-' :: t
    · -- digits are not read behind a minus sign
      obtain ⟨t, rfl⟩ := hminus
      rw [behindSign_minus_iff hdigits, natural?_eq_none List.mem_cons_self rfl]
      exact ⟨nofun, fun h => nomatch h.1⟩
    · have hsign : StartsNoSign s := .of_ne (fun t h => hminus ⟨t, h⟩) hplus
      rw [behindSign_iff_of_startsNoSign hsign, natural?_eq_some_iff]
      exact (and_iff_right rfl).symm

theorem signed?_eq_some_iff {s : List Char} {n : Int} :
    signed? s = some n ↔ SpellsInteger s n := by
  have hdigits : ∀ (negative : Bool) t,
      (∃ m, Denotes t m ∧ n = if negative then -(m : Int) else m) → StartsNoSign t :=
    fun _ _ ⟨_, h, _⟩ => h.startsNoSign
  have hread : ∀ (f : Nat → Int) t,
      Option.map f (natural? t) = some n ↔ ∃ m, Denotes t m ∧ n = f m := by
    intro f t
    rw [Option.map_eq_some_iff]
    simp only [natural?_eq_some_iff, @eq_comm _ n]
  unfold signed? SpellsInteger
  split
  · rename_i t
    rw [behindSign_minus_iff hdigits]
    refine Iff.trans ?_ (hread (fun m => -(m : Int)) t)
    cases natural? t <;> rfl
  · rw [behindSign_plus_iff hdigits]
    exact hread Int.ofNat _
  case h_3 hminus hplus =>
    rw [behindSign_iff_of_startsNoSign (.of_ne hminus hplus)]
    exact hread Int.ofNat _

/-- An unsigned word is read from the spellings of its value. -/
theorem word64?_eq_some_iff {s : List Char} {w : UInt64} :
    word64? s = some w ↔ SpellsNatural s w.toNat := by
  unfold word64?
  rw [← unsigned?_eq_some_iff, Option.bind_eq_some_iff]
  constructor
  · rintro ⟨n, hn, hw⟩
    rw [hn, Option.some.injEq]
    exact (Int.ofNat.inj (Word.uint64?_eq_some_iff.mp hw)).symm
  · exact fun h => ⟨_, h, Word.uint64?_eq_some_iff.mpr rfl⟩

/-- A signed word is read from the spellings of its value. -/
theorem integer64?_eq_some_iff {s : List Char} {w : Int64} :
    integer64? s = some w ↔ SpellsInteger s w.toInt := by
  unfold integer64?
  rw [← signed?_eq_some_iff, Option.bind_eq_some_iff]
  constructor
  · rintro ⟨n, hn, hw⟩
    rw [hn, Word.int64?_eq_some_iff.mp hw]
  · exact fun h => ⟨_, h, Word.int64?_eq_some_iff.mpr rfl⟩

end Keyset.Text
