import Keyset.Document.Basic
import Keyset.Projection
import Keyset.Rows

/-!
# Columns of a collection

Collections declare no columns, so columns are inferred from sampled documents: one column for each
name of a field, with the type that most values have, and whether a value may be missing.  Values are
sorted into a few classes; null and undefined have none.
-/

namespace Keyset

/-- The classes of values that a column can have. -/
inductive TypeClass where
  | integer
  | double
  | string
  | boolean
  | timestamp
  | object
  | array
  | binary
  | objectId
deriving DecidableEq, Repr

/-- The name of a class. -/
def TypeClass.name : TypeClass → String
  | .integer => "integer"
  | .double => "double"
  | .string => "string"
  | .boolean => "boolean"
  | .timestamp => "timestamp"
  | .object => "object"
  | .array => "array"
  | .binary => "binary"
  | .objectId => "objectid"

/-- The class of a value; null and undefined have none. -/
def Value.typeClass? : Value → Option TypeClass
  | .null | .undefined => none
  | .int32 _ | .int64 _ => some .integer
  | .double _ | .decimal _ => some .double
  | .boolean _ => some .boolean
  | .dateTime _ | .timestamp _ _ => some .timestamp
  | .document _ => some .object
  | .array _ => some .array
  | .binary _ _ => some .binary
  | .objectId _ => some .objectId
  | .string _ | .symbol _ | .minKey | .maxKey | .regex _ _ | .code _ | .scopedCode _ _
  | .pointer _ _ => some .string

/-- A column of a collection, as introspection reports it. -/
structure Column where
  database : String
  collection : String
  name : String
  dataType : TypeClass
  nullable : Bool
  primaryKey : Bool
  uniqueKey : Bool
  array : Bool
deriving DecidableEq, Repr

namespace Columns

/-! ### Summaries of fields -/

/-- What has been observed of a field: in how many documents it is, in how many of those it has no
class, whether a value is an array, and how many values each class has, in the order in which the
classes came up. -/
structure FieldSummary where
  name : String
  seen : Nat
  nulls : Nat
  hasArray : Bool
  classes : List (TypeClass × Nat)
deriving DecidableEq, Repr

/-- One more value of a class. -/
def tally (c : TypeClass) : List (TypeClass × Nat) → List (TypeClass × Nat)
  | [] => [(c, 1)]
  | (d, n) :: rest => if d = c then (d, n + 1) :: rest else (d, n) :: tally c rest

/-- The summary of a field that has not been observed. -/
def FieldSummary.new (name : String) : FieldSummary :=
  ⟨name, 0, 0, false, []⟩

/-- A summary with one more value. -/
def FieldSummary.observe (s : FieldSummary) (v : Value) : FieldSummary :=
  match v.typeClass? with
  | none => { s with seen := s.seen + 1, nulls := s.nulls + 1 }
  | some c =>
    { s with
      seen := s.seen + 1
      hasArray := s.hasArray || c = .array
      classes := tally c s.classes }

/-- Summaries with one more field of a document. -/
def observeField (name : String) (v : Value) : List FieldSummary → List FieldSummary
  | [] => [(FieldSummary.new name).observe v]
  | s :: rest => if s.name = name then s.observe v :: rest else s :: observeField name v rest

/-- Summaries with one more document. -/
def observeDocument (summaries : List FieldSummary) (doc : Document) : List FieldSummary :=
  doc.foldl (fun summaries (name, v) => observeField name v summaries) summaries

/-- The summaries of the fields of documents, in the order in which they came up. -/
def summarize (docs : List Document) : List FieldSummary :=
  docs.foldl observeDocument []

/-! ### From summaries to columns -/

/-- The class that has the most values, the earlier of two that have equally many. -/
def mostFrequent (best : TypeClass × Nat) : List (TypeClass × Nat) → TypeClass
  | [] => best.1
  | next :: rest => mostFrequent (if best.2 < next.2 then next else best) rest

/-- The type of a field: a string if nothing is known, a double for integers and doubles, and else the
most frequent class. -/
def FieldSummary.dataType (s : FieldSummary) : TypeClass :=
  match s.classes with
  | [] => .string
  | [(c, _)] => c
  | first :: rest =>
    if s.classes.all fun c => c.1 = .integer || c.1 = .double then .double
    else mostFrequent first rest

/-- Whether a field is missing, has no class or is of several classes in some of so many documents. -/
def FieldSummary.nullable (s : FieldSummary) (documents : Nat) : Bool :=
  s.seen < documents || 0 < s.nulls || 1 < s.classes.length

/-- The summaries with that of the field `_id` first. -/
def idFirst (summaries : List FieldSummary) : List FieldSummary :=
  summaries.filter (·.name = Projection.idField) ++ summaries.filter (·.name ≠ Projection.idField)

/-- The columns of a collection, inferred from some of its documents. -/
def infer (database collection : String) (docs : List Document) : List Column :=
  (idFirst (summarize docs)).map fun s =>
    { database, collection
      name := s.name
      dataType := s.dataType
      nullable := s.nullable docs.length
      primaryKey := s.name = Projection.idField
      uniqueKey := s.name = Projection.idField
      array := s.hasArray }

/-! ### Columns as rows -/

/-- The names of the columns of a table of columns.  The last three are for keys of other tables, which
documents do not declare. -/
def header : List String :=
  ["table_schema", "table_name", "column_name", "data_type", "is_nullable", "is_primary_key",
    "is_unique_key", "is_array", "fkey_schema", "fkey_table", "fkey_column"]

end Columns

/-- The row of a column. -/
def Column.row (c : Column) : Row :=
  [.text c.database, .text c.collection, .text c.name, .text c.dataType.name, .flag c.nullable,
    .flag c.primaryKey, .flag c.uniqueKey, .flag c.array, .text "", .text "", .text ""]

end Keyset
