import Keyset.Text.Numeral

/-!
# Decimals of 34 digits

Decimal floating-point numbers with up to 34 digits and an exponent between -6176 and 6111.  Trailing
zeros are kept, so `1.50` and `1.5` are different values.  A text is read exactly or not at all: digits
that do not fit are dropped only if they are zeros.

A text without digits stands for zero.  After its sign, its point and its leading zeros a text may have
one more plus sign, which takes the place of a digit.
-/

namespace Keyset

/-- A decimal number of up to 34 digits, an infinity or a NaN. -/
inductive Decimal128 where
  | finite (negative : Bool) (coefficient : Nat) (exponent : Int)
  | infinity (negative : Bool)
  | nan (negative signalling : Bool)
deriving DecidableEq, Repr

namespace Decimal128

/-- The number of digits that a coefficient may have. -/
def maxDigits : Nat :=
  34

/-- The least exponent. -/
def minExponent : Int :=
  -6176

/-- The greatest exponent. -/
def maxExponent : Int :=
  6111

/-- The first characters of a numeral, if the others are zeros. -/
def shorten? (ds : List Char) (length : Nat) : Option (List Char) :=
  if (ds.drop length).all (· == '0') then some (ds.take length) else none

/-- Brings a coefficient and an exponent into their ranges without changing the value. -/
def fit? (ds : List Char) (exponent : Int) : Option (List Char × Int) := do
  let kept ← shorten? ds maxDigits
  let exponent := exponent + (ds.length - kept.length : Nat)
  if exponent < minExponent then
    if kept = ['0'] then
      return (kept, minExponent)
    let surplus := (minExponent - exponent).toNat
    if kept.length < surplus then
      none
    else
      return (← shorten? kept (kept.length - surplus), minExponent)
  else if maxExponent < exponent then
    if kept = ['0'] then
      return (kept, maxExponent)
    let missing := (exponent - maxExponent).toNat
    if maxDigits < kept.length + missing then
      none
    else
      return (kept ++ List.replicate missing '0', maxExponent)
  else
    return (kept, exponent)

/-- Reads digits with at most one point among or beside them, then an exponent of a 16-bit word. -/
def finite? (negative : Bool) (s : List Char) : Option Decimal128 := do
  let mantissa := s.takeWhile (· != 'e')
  let exponent ← match s.dropWhile (· != 'e') with
    | [] => some 0
    | _ :: e => (Text.signed? e).filter fun n => decide (-0x8000 ≤ n ∧ n < 0x8000)
  let whole := mantissa.takeWhile (· != '.')
  let fraction := (mantissa.dropWhile (· != '.')).drop 1
  let exponent := exponent - fraction.length
  let ds := whole ++ fraction
  if exponent < -0x8000 then
    none
  else
    let ds := match ds.dropWhile (· == '0') with
      | [] => ['0']
      | ds => ds
    let (ds, exponent) ← fit? ds exponent
    return .finite negative (← Text.unsigned? ds) exponent

/-- Reads a number without a sign, in lower case. -/
def unsigned? (negative : Bool) (s : List Char) : Option Decimal128 :=
  if s = "nan".toList then some (.nan negative false)
  else if s = "snan".toList then some (.nan negative true)
  else if s = "inf".toList ∨ s = "infinity".toList then some (.infinity negative)
  else finite? negative s

/-- Reads a number after an optional sign, in letters of any case. -/
def ofText? (s : List Char) : Option Decimal128 :=
  match s.map Char.toLower with
  | '-' :: s => unsigned? true s
  | '+' :: s => unsigned? false s
  | s => unsigned? false s

/-- The text of a finite number: positional unless the exponent is positive or more than six places
lie between the point and the first digit, else with one digit before the point. -/
def finiteText (coefficient : Nat) (exponent : Int) : List Char :=
  let ds := Text.digits coefficient
  let place := exponent + ds.length - 1
  if exponent ≤ 0 ∧ -6 ≤ place then
    let places := exponent.natAbs
    if exponent = 0 then ds
    else if ds.length ≤ places then
      '0' :: '.' :: List.replicate (places - ds.length) '0' ++ ds
    else
      ds.take (ds.length - places) ++ '.' :: ds.drop (ds.length - places)
  else
    let fraction := ds.drop 1
    ds.take 1 ++ (if fraction = [] then [] else '.' :: fraction) ++
      'E' :: (if place < 0 then '-' else '+') :: Text.digits place.natAbs

/-- The text of a number.  No sign is written for a NaN. -/
def text : Decimal128 → List Char
  | .nan _ _ => "NaN".toList
  | .infinity negative => (if negative then ['-'] else []) ++ "Infinity".toList
  | .finite negative coefficient exponent =>
    (if negative then ['-'] else []) ++ finiteText coefficient exponent

end Decimal128

end Keyset
