import Keyset.Json.Record

/-!
# Tables

A table is known by its database, its schema and its name.  The empty database name stands for the
default database.  Names are compared as they are written.
-/

namespace Keyset

/-- The name of a table. -/
structure TableRef where
  database : String
  schema : String
  name : String
deriving DecidableEq, Repr

namespace TableRef

/-- The database that a table is in, or none for the default database. -/
def database? (t : TableRef) : Option String :=
  if t.database = "" then none else some t.database

/-- Whether a table is in the default database. -/
def isDefaultDatabase (t : TableRef) : Bool :=
  t.database?.isNone

/-- The table of a schema and a name in the default database. -/
def inDefault (schema name : String) : TableRef :=
  ⟨"", schema, name⟩

/-- The text of a table: its three names with points between them, and a label for the default
database. -/
def display (t : TableRef) : String :=
  t.database?.getD "<default>" ++ "." ++ t.schema ++ "." ++ t.name

/-- The order of tables, by database, schema and name. -/
def compare (a b : TableRef) : Ordering :=
  (Ord.compare a.database b.database).then
    ((Ord.compare a.schema b.schema).then (Ord.compare a.name b.name))

/-- The names of the fields of a table in JSON. -/
def fieldNames : List String :=
  ["database", "schema", "name"]

/-- Reads a table. -/
def ofJson? (v : Json) : Option TableRef := do
  let fields ← v.record? fieldNames
  let database ← Json.withDefault? fields "database" Json.string? ""
  let schema ← Json.withDefault? fields "schema" Json.string? ""
  let name ← Json.required? fields "name" Json.string?
  return ⟨database, schema, name⟩

/-- Writes a table. -/
def toJson (t : TableRef) : Json :=
  .object [("database", .string t.database), ("schema", .string t.schema), ("name", .string t.name)]

end TableRef

/-- A column of a table. -/
structure ColumnDef where
  name : String
  dataType : String
  nullable : Bool
  primaryKey : Bool
  array : Bool
deriving DecidableEq, Repr

namespace ColumnDef

/-- The names of the fields of a column in JSON. -/
def fieldNames : List String :=
  ["name", "data_type", "nullable", "primary_key", "array"]

/-- Reads a column. -/
def ofJson? (v : Json) : Option ColumnDef := do
  let fields ← v.record? fieldNames
  let name ← Json.required? fields "name" Json.string?
  let dataType ← Json.required? fields "data_type" Json.string?
  let nullable ← Json.withDefault? fields "nullable" Json.bool? false
  let primaryKey ← Json.withDefault? fields "primary_key" Json.bool? false
  let array ← Json.withDefault? fields "array" Json.bool? false
  return ⟨name, dataType, nullable, primaryKey, array⟩

/-- Writes a column. -/
def toJson (c : ColumnDef) : Json :=
  .object
    [("name", .string c.name), ("data_type", .string c.dataType), ("nullable", .bool c.nullable),
      ("primary_key", .bool c.primaryKey), ("array", .bool c.array)]

end ColumnDef

/-- A table and its columns. -/
structure TableEntry where
  table : TableRef
  columns : List ColumnDef
deriving DecidableEq, Repr

namespace TableEntry

/-- The first column of a name. -/
def column? (e : TableEntry) (name : String) : Option ColumnDef :=
  e.columns.find? (·.name = name)

/-- Reads a table and its columns. -/
def ofJson? (v : Json) : Option TableEntry := do
  let fields ← v.record? ["table", "columns"]
  let table ← Json.required? fields "table" TableRef.ofJson?
  let columns ← Json.withDefault? fields "columns" (Json.listOf? ColumnDef.ofJson?) []
  return ⟨table, columns⟩

/-- Writes a table and its columns. -/
def toJson (e : TableEntry) : Json :=
  .object [("table", e.table.toJson), ("columns", .array (e.columns.map ColumnDef.toJson))]

end TableEntry

end Keyset
