/-!
# Binary numbers of double precision

A double is a sign and a magnitude word: the 63 bits below the sign, read as a natural number.  The
words of finite doubles, read in order, are the non-negative doubles in order, so comparing is
comparing words (`Double.key`), and the next double is the next word.  Every finite double is a
whole number of units of 2⁻¹⁰⁷⁴ (`Double.units`), so arithmetic is exact on natural numbers and is
rounded once, by `Double.ofRatio`.
-/

namespace Keyset

/-- A number of double precision.  Every word above that of infinity is a NaN. -/
structure Double where
  /-- Whether the sign bit is set. -/
  negative : Bool
  /-- The bits below the sign. -/
  magnitude : Nat
deriving DecidableEq, Repr

namespace Double

/-- How many words have the same exponent bits: 2⁵². -/
def binade : Nat :=
  0x10000000000000

/-- The word of infinity. -/
def infinityWord : Nat :=
  2047 * binade

/-- Positive or negative zero. -/
def zero (negative : Bool) : Double :=
  ⟨negative, 0⟩

/-- Positive or negative infinity. -/
def infinity (negative : Bool) : Double :=
  ⟨negative, infinityWord⟩

/-- The quiet NaN of a sign. -/
def nan (negative : Bool) : Double :=
  ⟨negative, infinityWord + binade / 2⟩

/-- Whether a double is a NaN. -/
def isNaN (x : Double) : Bool :=
  infinityWord < x.magnitude

/-- Whether a double is a number, not an infinity and not a NaN. -/
def isFinite (x : Double) : Bool :=
  x.magnitude < infinityWord

/-- Whether a double is positive or negative zero. -/
def isZero (x : Double) : Bool :=
  x.magnitude == 0

/-! ### Order -/

/-- The signed word of a double.  It orders the doubles that are not NaN, and it is the same for
the two zeros. -/
def key (x : Double) : Int :=
  if x.negative then -x.magnitude else x.magnitude

/-- Numeric equality: a NaN differs from everything, and the two zeros are equal. -/
def equal (x y : Double) : Bool :=
  !x.isNaN && !y.isNaN && x.key == y.key

/-- Numeric comparison; a NaN is unordered, which counts as equal. -/
def compare (x y : Double) : Ordering :=
  if x.isNaN || y.isNaN then .eq else Ord.compare x.key y.key

/-! ### Exact value and rounding -/

/-- The number of units in one. -/
def unitsPerOne : Nat :=
  1 <<< 1074

/-- The magnitude of a finite double as a number of units of 2⁻¹⁰⁷⁴: the significand, with the
hidden bit unless the exponent bits are zero, shifted by the exponent. -/
def units (x : Double) : Nat :=
  let exponent := x.magnitude / binade
  let fraction := x.magnitude % binade
  if exponent = 0 then fraction else (binade + fraction) <<< (exponent - 1)

/-- The quotient of two natural numbers, rounded to the nearest whole number; a half goes to the
even neighbour. -/
def roundDiv (num den : Nat) : Nat :=
  let below := num / den
  let twice := 2 * (num % den)
  if twice < den ∨ (twice = den ∧ below % 2 = 0) then below else below + 1

/-- The double nearest to a quotient of natural numbers, ties to the even significand.

The quotient counted in units has `shift` bits more than a significand holds.  The rounded
significand is added to the exponent bits, so that a carry out of it moves to the next exponent, and
what lies beyond the last finite double becomes infinity. -/
def ofRatio (negative : Bool) (num den : Nat) : Double :=
  let scaled := num * unitsPerOne
  let shift := (scaled / den).log2 - 52
  ⟨negative, min (shift * binade + roundDiv scaled (den <<< shift)) infinityWord⟩

/-- The double nearest to an integer. -/
def ofInt (n : Int) : Double :=
  ofRatio (n < 0) n.natAbs 1

/-- The product of two finite doubles, rounded once. -/
def mul (x y : Double) : Double :=
  ofRatio (x.negative != y.negative) (x.units * y.units) (unitsPerOne * unitsPerOne)

/-- The quotient of two finite doubles, rounded once. -/
def div (x y : Double) : Double :=
  ofRatio (x.negative != y.negative) x.units y.units

/-- The integer that a double is, if it is one. -/
def integer? (x : Double) : Option Int :=
  if x.isFinite ∧ x.units % unitsPerOne = 0 then
    let n : Int := (x.units / unitsPerOne : Nat)
    some (if x.negative then -n else n)
  else
    none

/-- The double with the other sign. -/
def neg (x : Double) : Double :=
  { x with negative := !x.negative }

end Double

end Keyset
