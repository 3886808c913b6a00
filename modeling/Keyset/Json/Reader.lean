import Keyset.Double.Decimal
import Keyset.Json.Basic
import Keyset.Text.Hex

/-!
# Reading JSON

One value with blanks around it and nothing else.  The grammar is the strict one: no comments, no
leading zeros, no raw controls or lone surrogates in strings.  Arrays and objects nest at most
`maxDepth` deep.  Of two fields of one name the first gives the place and the last the value.

An integer outside the 64-bit words is read as a double, and so is `-0`.  A double is read in two
rounded steps: the digits that fit an unsigned word, rounded, are multiplied or divided by a rounded
power of ten (`scaled?`).  A double that would be infinite is an error.
-/

namespace Keyset.Json

/-- How deep arrays and objects may nest. -/
def maxDepth : Nat :=
  127

/-- The characters that may stand between the tokens. -/
def isBlank (c : Char) : Bool :=
  c == ' ' || c == '\n' || c == '\r' || c == '\t'

/-- A text without the blanks that it starts with. -/
def skipBlanks (s : List Char) : List Char :=
  s.dropWhile isBlank

/-! ### Numbers -/

/-- Appends digits to a number while it stays below 2⁶⁴; gives it with the digits left over. -/
def absorb (n : Nat) : List Char → Nat × List Char
  | [] => (n, [])
  | c :: s =>
    let next := 10 * n + (c.toNat - '0'.toNat)
    if next < UInt64.size then absorb next s else (n, c :: s)

/-- Ten to a power of at most 308, rounded. -/
def powerOfTen (n : Nat) : Double :=
  .ofRatio false (Nat.pow 10 n) 1

/-- Divides by ten to a power, in steps of 10³⁰⁸ until the rest fits one step or nothing is left. -/
def scaleDown (x : Double) (n : Nat) : Double :=
  if n ≤ 308 then x.div (powerOfTen n)
  else if x.isZero then x
  else scaleDown (x.div (powerOfTen 308)) (n - 308)
termination_by n

/-- A number of at most 64 bits times a power of ten, rounded at each step; nothing if the result is
infinite. -/
def scaled? (significand : Nat) (exponent : Int) : Option Double :=
  let x := Double.ofInt significand
  if exponent < 0 then
    some (scaleDown x exponent.natAbs)
  else if exponent ≤ 308 then
    let product := x.mul (powerOfTen exponent.natAbs)
    if product.isFinite then some product else none
  else if x.isZero then some x else none

/-- The double of a sign, the digits before and after the point, and an exponent. -/
def doubleOf? (negative : Bool) (whole fraction : List Char) (exponent : Int) : Option Number :=
  let (n, dropped) := absorb 0 whole
  let (significand, unused) := absorb n fraction
  let place := exponent + dropped.length - (fraction.length - unused.length : Nat)
  (scaled? significand place).bind fun x => Number.ofDouble? { x with negative }

/-- The number of an integer text: an integer if it fits a word, else a double. -/
def integerOf? (negative : Bool) (whole : List Char) : Option Number :=
  let n := Nat.ofDigitChars 10 whole 0
  let value : Int := if negative then -n else n
  if h : (-0x8000000000000000 ≤ value ∧ value < 0x10000000000000000) ∧ ¬(negative = true ∧ n = 0) then
    some (.integer value h.1)
  else
    doubleOf? negative whole [] 0

/-- The sign of an exponent, with what follows it. -/
def exponentSign : List Char → Bool × List Char
  | '-' :: s => (true, s)
  | '+' :: s => (false, s)
  | s => (false, s)

/-- Reads the exponent of a number, if there is one. -/
def readExponent? : List Char → Option (Option Int × List Char)
  | [] => some (none, [])
  | c :: s =>
    if c = 'e' ∨ c = 'E' then
      let (negative, s) := exponentSign s
      let ds := s.takeWhile Char.isDigit
      if ds = [] then
        none
      else
        let n := Nat.ofDigitChars 10 ds 0
        some (some (if negative then -n else n), s.dropWhile Char.isDigit)
    else
      some (none, c :: s)

/-- Reads the digits after a point, if there is one. -/
def readFraction? : List Char → Option (Option (List Char) × List Char)
  | '.' :: s =>
    let ds := s.takeWhile Char.isDigit
    if ds = [] then none else some (some ds, s.dropWhile Char.isDigit)
  | s => some (none, s)

/-- Reads the digits before the point: a zero alone, or digits that do not start with one. -/
def readWhole? : List Char → Option (List Char × List Char)
  | '0' :: s => if s.head?.any Char.isDigit then none else some (['0'], s)
  | s =>
    let ds := s.takeWhile Char.isDigit
    if ds = [] then none else some (ds, s.dropWhile Char.isDigit)

/-- The number of a sign, the digits before and after the point, and an exponent. -/
def numberOf? (negative : Bool) (whole : List Char) :
    (fraction : Option (List Char)) → (exponent : Option Int) → Option Number
  | none, none => integerOf? negative whole
  | fraction, exponent => doubleOf? negative whole (fraction.getD []) (exponent.getD 0)

/-- Reads a number behind its sign. -/
def readMagnitude? (negative : Bool) (s : List Char) : Option (Number × List Char) := do
  let (whole, s) ← readWhole? s
  let (fraction, s) ← readFraction? s
  let (exponent, s) ← readExponent? s
  let n ← numberOf? negative whole fraction exponent
  return (n, s)

/-- Reads a number. -/
def readNumber? : List Char → Option (Number × List Char)
  | '-' :: s => readMagnitude? true s
  | s => readMagnitude? false s

/-! ### Strings -/

/-- The value of four hexadecimal digits. -/
def hex4? (a b c d : Char) : Option Nat := do
  return (((← Text.hexDigit? a) * 16 + (← Text.hexDigit? b)) * 16 + (← Text.hexDigit? c)) * 16 +
    (← Text.hexDigit? d)

/-- The character that a letter stands for behind a backslash. -/
def unescape? (c : Char) : Option Char :=
  if c = '"' ∨ c = '\\' ∨ c = '/' then some c
  else if c = 'b' then some '\x08'
  else if c = 'f' then some '\x0c'
  else if c = 'n' then some '\n'
  else if c = 'r' then some '\r'
  else if c = 't' then some '\t'
  else none

/-- The character of a pair of surrogates, if the two make one. -/
def surrogatePair? (high low : Nat) : Option Char :=
  if 0xD800 ≤ high ∧ high < 0xDC00 ∧ 0xDC00 ≤ low ∧ low < 0xE000 then
    some (Char.ofNat (0x10000 + (high - 0xD800) * 0x400 + (low - 0xDC00)))
  else
    none

/-- Reads a string behind its opening quote. -/
def readString? : List Char → Option (List Char × List Char)
  | '"' :: s => some ([], s)
  | '\\' :: 'u' :: a :: b :: c :: d :: s =>
    match hex4? a b c d with
    | none => none
    | some unit =>
      if unit < 0xD800 ∨ 0xE000 ≤ unit then
        (readString? s).map fun (cs, s) => (Char.ofNat unit :: cs, s)
      else
        match s with
        | '\\' :: 'u' :: e :: f :: g :: h :: s =>
          match (hex4? e f g h).bind (surrogatePair? unit) with
          | none => none
          | some x => (readString? s).map fun (cs, s) => (x :: cs, s)
        | _ => none
  | '\\' :: c :: s =>
    match unescape? c with
    | none => none
    | some x => (readString? s).map fun (cs, s) => (x :: cs, s)
  | c :: s =>
    if c.toNat < 0x20 ∨ c = '\\' then none else (readString? s).map fun (cs, s) => (c :: cs, s)
  | [] => none

/-! ### Values -/

mutual

/-- Reads a value after blanks.  The first argument bounds the number of tokens, the second how deep
the value may nest. -/
def readValue? : Nat → Nat → List Char → Option (Json × List Char)
  | 0, _, _ => none
  | fuel + 1, depth, s =>
    match skipBlanks s with
    | 'n' :: 'u' :: 'l' :: 'l' :: s => some (.null, s)
    | 't' :: 'r' :: 'u' :: 'e' :: s => some (.bool true, s)
    | 'f' :: 'a' :: 'l' :: 's' :: 'e' :: s => some (.bool false, s)
    | '"' :: s => (readString? s).map fun (cs, s) => (.string (String.ofList cs), s)
    | '[' :: s =>
      match depth with
      | 0 => none
      | depth + 1 =>
        match skipBlanks s with
        | ']' :: s => some (.array [], s)
        | s => (readItems? fuel depth s).map fun (items, s) => (.array items, s)
    | '\x7b' :: s =>
      match depth with
      | 0 => none
      | depth + 1 =>
        match skipBlanks s with
        | '\x7d' :: s => some (.object [], s)
        | s => (readFields? fuel depth s).map fun (fields, s) => (.object (Fields.ofPairs fields), s)
    | s => (readNumber? s).map fun (n, s) => (.number n, s)

/-- Reads the items of an array, at least one, up to the closing bracket. -/
def readItems? : Nat → Nat → List Char → Option (List Json × List Char)
  | 0, _, _ => none
  | fuel + 1, depth, s =>
    match readValue? fuel depth s with
    | none => none
    | some (v, s) =>
      match skipBlanks s with
      | ',' :: s => (readItems? fuel depth s).map fun (vs, s) => (v :: vs, s)
      | ']' :: s => some ([v], s)
      | _ => none

/-- Reads the fields of an object, at least one, up to the closing brace. -/
def readFields? : Nat → Nat → List Char → Option (List (String × Json) × List Char)
  | 0, _, _ => none
  | fuel + 1, depth, s =>
    match skipBlanks s with
    | '"' :: s =>
      match readString? s with
      | none => none
      | some (key, s) =>
        match skipBlanks s with
        | ':' :: s =>
          match readValue? fuel depth s with
          | none => none
          | some (v, s) =>
            match skipBlanks s with
            | ',' :: s =>
              (readFields? fuel depth s).map fun (fs, s) => ((String.ofList key, v) :: fs, s)
            | '\x7d' :: s => some ([(String.ofList key, v)], s)
            | _ => none
        | _ => none
    | _ => none

end

/-- Reads a text that holds one value.  Each step consumes a character or ends, so twice the length
of the text bounds their number. -/
def ofText? (text : String) : Option Json :=
  let s := text.toList
  match readValue? (2 * s.length + 1) maxDepth s with
  | some (v, rest) => if (skipBlanks rest).isEmpty then some v else none
  | none => none

end Keyset.Json
