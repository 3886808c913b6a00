import Keyset.Double.Basic
import Keyset.Text.Numeral

/-!
# Decimals and doubles

Decimals of any length are read with one rounding (`Double.ofDecimal`), and a double is written with
the fewest digits that read back (`Double.shortest`).

`Double.shortest` searches the decimal grids from the coarsest to the finest.  A grid point is taken
only if it reads back, so what is written always reads back, whichever grid ends the search; after
seventeen grids the exact expansion stands in, which every finite double has.
-/

namespace Keyset

/-- The number `significand * 10 ^ exponent`. -/
structure Decimal where
  /-- The digits, read as one number. -/
  significand : Nat
  /-- The power of ten that the last digit counts. -/
  exponent : Int
deriving DecidableEq, Repr

/-- Removes final zeros from the digits. -/
def Decimal.strip (d : Decimal) : Decimal :=
  if d.significand ≠ 0 ∧ d.significand % 10 = 0 then
    strip ⟨d.significand / 10, d.exponent + 1⟩
  else
    d
termination_by d.significand
decreasing_by omega

namespace Double

/-! ### Reading -/

/-- The double nearest to a decimal, ties to the even significand.  Decimals beyond 10⁴⁰⁰ or below
10⁻⁴⁰⁰ are settled by their number of digits alone. -/
def ofDecimal (negative : Bool) (d : Decimal) : Double :=
  let place := d.exponent + (Text.digits d.significand).length
  if d.significand = 0 ∨ place < -400 then zero negative
  else if 400 < place then infinity negative
  else if 0 ≤ d.exponent then ofRatio negative (d.significand * Nat.pow 10 d.exponent.toNat) 1
  else ofRatio negative d.significand (Nat.pow 10 (-d.exponent).toNat)

/-- The exponent part of a decimal: nothing, or the mark and an integer. -/
def exponentPart? : List Char → Option Int
  | [] => some 0
  | 'e' :: s => Text.signed? s
  | 'E' :: s => Text.signed? s
  | _ => none

/-- Reads a decimal without a sign: digits with at most one point among or beside them, then an
exponent part. -/
def decimal? (s : List Char) : Option Decimal :=
  let whole := s.takeWhile Char.isDigit
  let rest := s.dropWhile Char.isDigit
  let (fraction, rest) := match rest with
    | '.' :: r => (r.takeWhile Char.isDigit, r.dropWhile Char.isDigit)
    | r => ([], r)
  if whole ++ fraction = [] then
    none
  else
    (exponentPart? rest).map fun e =>
      ⟨Nat.ofDigitChars 10 (whole ++ fraction) 0, e - fraction.length⟩

/-- Reads a double without a sign: a decimal, or in letters of any case one of the names of infinity
and NaN. -/
def unsigned? (negative : Bool) (s : List Char) : Option Double :=
  let name := s.map Char.toLower
  if name = "inf".toList ∨ name = "infinity".toList then some (infinity negative)
  else if name = "nan".toList then some (nan negative)
  else (decimal? s).map (ofDecimal negative)

/-- Reads a double after an optional sign. -/
def ofText? : List Char → Option Double
  | '-' :: s => unsigned? true s
  | '+' :: s => unsigned? false s
  | s => unsigned? false s

/-! ### Writing -/

/-- The power of ten that the leading digit of a finite double other than zero counts. -/
def leadingPlace (x : Double) : Int :=
  (Text.digits (x.units * Nat.pow 10 400 / unitsPerOne)).length - 401

/-- The multiple of `10 ^ exponent` that reads back as the double: of its two neighbours on that
grid the one that does, of two that do the nearer, and of two equally near the even one. -/
def onGrid? (x : Double) (exponent : Int) : Option Decimal :=
  let num := x.units * Nat.pow 10 (-exponent).toNat
  let den := unitsPerOne * Nat.pow 10 exponent.toNat
  let below : Decimal := ⟨num / den, exponent⟩
  let above : Decimal := ⟨num / den + 1, exponent⟩
  if ofDecimal x.negative below = x then
    if ofDecimal x.negative above = x then some ⟨roundDiv num den, exponent⟩ else some below
  else if ofDecimal x.negative above = x then some above else none

/-- The magnitude of a finite double other than zero, in as few digits as read back. -/
def shortest (x : Double) : Decimal :=
  let place := x.leadingPlace
  let found := (List.range 17).findSome? fun n => x.onGrid? (place - (n : Nat))
  (found.getD ⟨x.units * Nat.pow 5 1074, -1074⟩).strip

end Double

end Keyset
