import Keyset.Double.Decimal
import Keyset.Json.Basic

/-!
# Writing JSON

The compact form: no blanks, fields in their order, and of the characters of a string only the
quote, the backslash and the controls escaped.  A double is written with the fewest digits that read
back, positionally from 10⁻⁵ up to below 10¹⁶ and with an exponent elsewhere, and always so that it
does not look like an integer.
-/

namespace Keyset.Json

/-! ### Numbers -/

/-- The digits of a decimal with a point among, behind or before them. -/
def positional (ds : List Char) (exponent : Int) : List Char :=
  let point := exponent + ds.length
  if 0 ≤ exponent then ds ++ List.replicate exponent.toNat '0' ++ ['.', '0']
  else if 0 < point then ds.take point.toNat ++ '.' :: ds.drop point.toNat
  else '0' :: '.' :: List.replicate (-point).toNat '0' ++ ds

/-- The digits of a decimal with a point behind the first and an exponent, whose sign is always
written. -/
def scientific (ds : List Char) (exponent : Int) : List Char :=
  let place := exponent + ds.length - 1
  let fraction := ds.drop 1
  ds.take 1 ++ (if fraction = [] then [] else '.' :: fraction) ++
    'e' :: (if place < 0 then '-' else '+') :: Text.digits place.natAbs

/-- The text of a finite double. -/
def doubleText (x : Double) : List Char :=
  let sign := if x.negative then ['-'] else []
  if x.isZero then
    sign ++ ['0', '.', '0']
  else
    let d := x.shortest
    let ds := Text.digits d.significand
    let place := d.exponent + ds.length - 1
    sign ++ (if -5 ≤ place ∧ place < 16 then positional ds d.exponent else scientific ds d.exponent)

/-- The text of a number. -/
def numberText : Number → List Char
  | .integer n _ => Text.signedDigits n
  | .double x _ => doubleText x

/-! ### Strings -/

/-- A character of a string as it stands between the quotes. -/
def escape (c : Char) : List Char :=
  if c = '"' then ['\\', '"']
  else if c = '\\' then ['\\', '\\']
  else if c = '\x08' then ['\\', 'b']
  else if c = '\x0c' then ['\\', 'f']
  else if c = '\n' then ['\\', 'n']
  else if c = '\r' then ['\\', 'r']
  else if c = '\t' then ['\\', 't']
  else if c.toNat < 0x20 then
    ['\\', 'u', '0', '0', Nat.digitChar (c.toNat / 16), Nat.digitChar (c.toNat % 16)]
  else [c]

/-- A string between quotes. -/
def quoted (s : String) : List Char :=
  '"' :: s.toList.flatMap escape ++ ['"']

/-! ### Values -/

mutual

/-- The text of a value, as a list of characters. -/
def chars : Json → List Char
  | .null => "null".toList
  | .bool true => "true".toList
  | .bool false => "false".toList
  | .number n => numberText n
  | .string s => quoted s
  | .array items => '[' :: itemChars items ++ [']']
  | .object fields => '\x7b' :: fieldChars fields ++ ['\x7d']
termination_by structural v => v

/-- The items of an array with commas between them. -/
def itemChars : List Json → List Char
  | [] => []
  | v :: rest => chars v ++ (if rest.isEmpty then [] else ',' :: itemChars rest)
termination_by structural items => items

/-- The fields of an object with commas between them. -/
def fieldChars : List (String × Json) → List Char
  | [] => []
  | (k, v) :: rest =>
    quoted k ++ ':' :: chars v ++ (if rest.isEmpty then [] else ',' :: fieldChars rest)
termination_by structural fields => fields

end

/-- The text of a value. -/
def text (v : Json) : String :=
  String.ofList v.chars

end Keyset.Json
