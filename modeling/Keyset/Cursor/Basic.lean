import Keyset.Document.Basic
import Keyset.Json.Record

/-!
# Where a query resumes

A query that is read page by page orders its rows by columns, the last of which tells rows apart.
`CursorInfo` names the place in a program where the query stands and its columns; a cursor is a text
that holds the values of those columns in the last row seen (`Keyset.Cursor.Text`), and stands for the
filter that accepts the rows after it (`Keyset.Cursor.Seek`).
-/

namespace Keyset

/-- The direction in which a column is ordered. -/
inductive Direction where
  | ascending
  | descending
deriving DecidableEq, Repr

namespace Direction

/-- The name of a direction. -/
def name : Direction → String
  | .ascending => "asc"
  | .descending => "desc"

/-- The direction of a name, in small letters or in capitals. -/
def ofName? (name : String) : Option Direction :=
  match name with
  | "asc" | "ASC" => some .ascending
  | "desc" | "DESC" => some .descending
  | _ => none

/-- The filter operator for values that come later in a direction. -/
def operator : Direction → String
  | .ascending => "$gt"
  | .descending => "$lt"

/-- The number that stands for a direction in a sort specification. -/
def sign : Direction → Int32
  | .ascending => 1
  | .descending => -1

@[simp] theorem ofName?_name (d : Direction) : ofName? d.name = some d := by
  cases d <;> rfl

end Direction

/-- The type that a column's values are declared to have. -/
inductive ColumnKind where
  | integer
  | float
  | string
deriving DecidableEq, Repr

namespace ColumnKind

/-- The name of a kind. -/
def name : ColumnKind → String
  | .integer => "integer"
  | .float => "float"
  | .string => "string"

/-- The kind of a name. -/
def ofName? (name : String) : Option ColumnKind :=
  match name with
  | "integer" => some .integer
  | "float" => some .float
  | "string" => some .string
  | _ => none

@[simp] theorem ofName?_name (k : ColumnKind) : ofName? k.name = some k := by
  cases k <;> rfl

end ColumnKind

/-- A column to order by. -/
structure OrderBy where
  column : String
  direction : Direction
  kind : Option ColumnKind
deriving DecidableEq, Repr

namespace OrderBy

/-- The path of the field that holds a column: the column `id` is the field `_id`. -/
def field (col : OrderBy) : String :=
  if col.column = "id" then "_id" else col.column

/-- The names of the fields of a column in JSON. -/
def fieldNames : List String :=
  ["column", "direction", "type"]

/-- Reads a column. -/
def ofJson? (v : Json) : Option OrderBy := do
  let fields ← v.record? fieldNames
  let column ← Json.required? fields "column" Json.string?
  let direction ← Json.withDefault? fields "direction"
    (fun d => d.choice?.bind Direction.ofName?) .ascending
  let kind ← Json.optional? fields "type" fun k => k.choice?.bind ColumnKind.ofName?
  return ⟨column, direction, kind⟩

/-- Writes a column; an undeclared type is left out. -/
def toJson (col : OrderBy) : Json :=
  .object <|
    [("column", .string col.column), ("direction", .string col.direction.name)] ++
      (col.kind.map fun k => ("type", Json.string k.name)).toList

end OrderBy

/-- What a query needs to be resumed: its site, the text that its cursors start with, and the columns
that order its rows. -/
structure CursorInfo where
  selectId : UInt64
  lead : String
  orderBy : List OrderBy
deriving DecidableEq, Repr

namespace CursorInfo

/-- The names of the fields of the information in JSON. -/
def fieldNames : List String :=
  ["select_id", "prefix", "order_by"]

/-- Reads the information. -/
def ofJson? (v : Json) : Option CursorInfo := do
  let fields ← v.record? fieldNames
  let selectId ← Json.required? fields "select_id" Json.uint64?
  let lead ← Json.withDefault? fields "prefix" Json.string? ""
  let orderBy ← Json.withDefault? fields "order_by" (Json.listOf? OrderBy.ofJson?) []
  return ⟨selectId, lead, orderBy⟩

/-- Writes the information, with all its fields. -/
def toJson (info : CursorInfo) : Json :=
  .object
    [("select_id", .ofUInt64 info.selectId), ("prefix", .string info.lead),
      ("order_by", .array (info.orderBy.map OrderBy.toJson))]

/-- The sort specification that the columns stand for. -/
def sortDocument (info : CursorInfo) : Document :=
  Fields.ofPairs (info.orderBy.map fun col => (col.field, .int32 col.direction.sign))

end CursorInfo

end Keyset
