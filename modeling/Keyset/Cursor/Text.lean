import Keyset.Cursor.Basic
import Keyset.Double.Decimal
import Keyset.Error
import Keyset.Json.Printer
import Keyset.Text.Blank
import Keyset.Text.Hex
import Keyset.Text.Numeral
import Keyset.Text.Split

/-!
# The text of a cursor

A cursor is a lead, the number of the query site, and the values of the columns in the last row seen,
with colons between them.  A value has no mark of its type: a column that declares one reads it so, the
last column is an integer unless it declares otherwise, and in the other columns a text is read as an
integer, a number or a truth value where it can be.  A string that would be taken for one of those is
written behind an apostrophe, and what stands behind an apostrophe is always a string.
-/

namespace Keyset

namespace Cursor

/-- The character between the parts of a cursor. -/
def separator : Char :=
  ':'

/-- The character before a string that must not be read as another type. -/
def stringMark : Char :=
  '\''

/-! ### Reading values -/

/-- The value of a text whose type is not declared. -/
def untyped : List Char → Json
  | '\'' :: s => .string (String.ofList s)
  | s =>
    match Text.integer64? s, (Double.ofText? s).bind Number.ofDouble? with
    | some n, _ => .ofInt64 n
    | none, some x => .number x
    | none, none =>
      if s = "true".toList then .bool true
      else if s = "false".toList then .bool false
      else .string (String.ofList s)

/-- The type by which a column's text is read; the last column tells rows apart and is an integer
unless it declares another type. -/
def kindAt (col : OrderBy) (isLast : Bool) : Option ColumnKind :=
  col.kind.or (if isLast then some .integer else none)

/-- Reads the value of a column. -/
def readValue (col : OrderBy) (isLast : Bool) (s : List Char) : Except Error Json :=
  match kindAt col isLast with
  | some .integer =>
    match Text.integer64? s with
    | some n => .ok (.ofInt64 n)
    | none => .error (.notAnInteger (String.ofList s) col.column)
  | some .float =>
    match (Double.ofText? s).bind Number.ofDouble? with
    | some x => .ok (.number x)
    | none => .error (.notANumber (String.ofList s) col.column)
  | some .string => .ok (.string (String.ofList s))
  | none => .ok (untyped s)

/-- Reads the values of columns in order, up to the first that does not fit. -/
def readValues : List OrderBy → List (List Char) → Except Error (List Json)
  | col :: cols, s :: texts => do
    let value ← readValue col cols.isEmpty s
    return value :: (← readValues cols texts)
  | _, _ => .ok []

/-! ### Writing values -/

/-- The text of a value: numbers, truth values, identifiers, wrapped integers, and strings without a
separator. -/
def valueText? : Json → Option (List Char)
  | .number n => some (Json.numberText n)
  | .bool b => some (if b then "true" else "false").toList
  | .string s => if s.toList.contains separator then none else some s.toList
  | .object [(name, .string s)] =>
    if name = "$oid" ∨ name = "$numberLong" then some s.toList else none
  | _ => none

/-- Whether a value is a string that would be read as something else. -/
def needsMark : Json → Bool
  | .string s =>
    match untyped s.toList with
    | .string t => t != s
    | _ => true
  | _ => false

/-- The text of a column's value in a cursor. -/
def writeValue? (col : OrderBy) (isLast : Bool) (value : Json) : Option (List Char) :=
  (valueText? value).map fun s =>
    if col.kind.isNone && !isLast && needsMark value then stringMark :: s else s

/-- The value at a path of a row; only objects have fields. -/
def lookup? (row : Json) (path : String) : Option Json :=
  ((Text.splitOn '.' path.toList).map String.ofList).foldlM Json.get? row

/-- The texts of columns' values in a row, each behind a separator. -/
def writeValues? (row : Json) : List OrderBy → Option (List Char)
  | [] => some []
  | col :: cols => do
    let value ← lookup? row col.field
    let s ← writeValue? col cols.isEmpty value
    return separator :: s ++ (← writeValues? row cols)

end Cursor

namespace CursorInfo

/-- What stands before the number of the site in a cursor of unknown lead: `gj-`, a word of hexadecimal
digits and a separator. -/
def withoutToken? (s : List Char) : Option (List Char) := do
  let rest ← Text.after? "gj-".toList s
  let (token, tail) ← Text.cutAt? Cursor.separator rest
  if token ≠ [] ∧ token.all Text.isHexDigit then some tail else none

/-- A cursor without the blanks around it and without its lead.  A lead that is not there is not
looked for in another form. -/
def normalize (info : CursorInfo) (raw : List Char) : List Char :=
  let s := Text.trim raw
  if s = [] then []
  else if info.lead = "" then (withoutToken? s).getD s
  else (Text.after? info.lead.toList s).getD s

/-- The values of a cursor; a blank cursor has none. -/
def values? (info : CursorInfo) (raw : List Char) : Except Error (Option (List Json)) := do
  let s := info.normalize raw
  if s = [] then
    return none
  let parts := Text.splitOn Cursor.separator s
  let site := parts.headD []
  let texts := parts.tail
  match Text.word64? site with
  | none => throw (.cursor (.badSite (String.ofList site)))
  | some issued =>
    if issued ≠ info.selectId then
      throw (.cursor (.otherSite issued info.selectId))
    else if info.orderBy = [] then
      throw (.cursor .noColumns)
    else if texts.length ≠ info.orderBy.length then
      throw (.cursor (.valueCount info.orderBy.length texts.length))
    else
      return some (← Cursor.readValues info.orderBy texts)

/-- The cursor that resumes after a row, if the row has a value for every column and all of them can
be written. -/
def encode (info : CursorInfo) (row : Json) : Option String := do
  if info.orderBy = [] then
    none
  let values ← Cursor.writeValues? row info.orderBy
  return String.ofList (info.lead.toList ++ Text.digits info.selectId.toNat ++ values)

end CursorInfo

end Keyset
