import Keyset.Word

/-!
# Decimal numerals

Numerals as they stand in cursors, wrapped numbers and environment variables: a sign if the kind of
number allows one, then ASCII digits only, and a value within the bounds of the word that holds it.
Writing is by `Nat.toDigits`; `natural?_digits` says that what is written reads back.
-/

namespace Keyset.Text

/-- The digits of a natural number. -/
def digits (n : Nat) : List Char :=
  Nat.toDigits 10 n

/-- The digits of an integer, after a minus sign where it is negative. -/
def signedDigits (n : Int) : List Char :=
  if n < 0 then '-' :: digits n.natAbs else digits n.natAbs

/-- The value of a text that consists of digits and has at least one. -/
def natural? (s : List Char) : Option Nat :=
  if s ≠ [] ∧ s.all Char.isDigit then some (Nat.ofDigitChars 10 s 0) else none

/-- The value of digits after an optional plus sign. -/
def unsigned? : List Char → Option Nat
  | '+' :: s => natural? s
  | s => natural? s

/-- The value of digits after an optional sign. -/
def signed? : List Char → Option Int
  | '-' :: s => (natural? s).map fun n => -(n : Int)
  | '+' :: s => (natural? s).map Int.ofNat
  | s => (natural? s).map Int.ofNat

/-- Reads an unsigned word of 64 bits. -/
def word64? (s : List Char) : Option UInt64 :=
  (unsigned? s).bind fun n => Word.uint64? n

/-- Reads a signed word of 64 bits. -/
def integer64? (s : List Char) : Option Int64 :=
  (signed? s).bind Word.int64?

/-- Reads a signed word of 32 bits. -/
def integer32? (s : List Char) : Option Int32 :=
  (signed? s).bind Word.int32?

theorem all_isDigit_digits (n : Nat) : (digits n).all Char.isDigit = true := by
  simp only [List.all_eq_true]
  intro c hc
  exact Nat.isDigit_of_mem_toDigits (by decide) (by decide) hc

@[simp] theorem natural?_digits (n : Nat) : natural? (digits n) = some n := by
  unfold natural?
  rw [if_pos ⟨Nat.toDigits_ne_nil, all_isDigit_digits n⟩]
  simp [digits]

end Keyset.Text
