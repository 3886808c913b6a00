import Keyset.Json.Printer
import Keyset.Json.Reader
import Keyset.Query.Options

/-!
# The text of a query

A query is written as a JSON object with its fields in a fixed order and the unknown ones after them;
what is absent or empty is left out, an empty filter alone is kept.  Reading takes the fields in any
order and checks the query as far as it can before its placeholders are bound.
-/

namespace Keyset.Query

/-- The names of the fields that a query knows. -/
def fieldNames : List String :=
  ["operation", "collection", "pipeline", "filter", "options", "params", "cursor_info", "cursor"]

/-! ### Writing -/

/-- A field that is written if there is a value. -/
def field? (name : String) (v : Option Json) : Json.Object :=
  v.toList.map fun v => (name, v)

/-- The fields of a query in JSON. -/
def toJson (q : Query) : Json.Object :=
  [("operation", .string q.operation.name)] ++
    field? "collection" (q.collection.map .string) ++
    field? "pipeline" (if q.pipeline = [] then none else some (.array (q.pipeline.map .object))) ++
    field? "filter" (q.filter.map .object) ++
    field? "options" (if q.options = [] then none else some (.object q.options)) ++
    field? "params" (if q.params = [] then none else some (.array q.params)) ++
    field? "cursor_info" (q.cursorInfo.map CursorInfo.toJson) ++
    field? "cursor" q.cursor ++
    q.extra

/-- The text of a query. -/
def text (q : Query) : String :=
  (Json.object q.toJson).text

/-! ### Reading -/

/-- The operation that the fields of a query name. -/
def operationOf (fields : Json.Object) : Except Error Operation :=
  match fields.get? "operation" with
  | some (.string name) => Operation.ofName name
  | _ => .error .missingOperation

/-- A query from its fields, if each has its shape. -/
def ofFields? (operation : Operation) (fields : Json.Object) : Option Query := do
  let collection ← Json.optional? fields "collection" Json.string?
  let pipeline ← Json.withDefault? fields "pipeline" (Json.listOf? Json.object?) []
  let filter ← Json.optional? fields "filter" Json.object?
  let options ← Json.withDefault? fields "options" Json.object? []
  let params ← Json.withDefault? fields "params" Json.array? []
  let cursorInfo ← Json.optional? fields "cursor_info" CursorInfo.ofJson?
  let cursor ← Json.optional? fields "cursor" some
  let extra := fields.filter fun field => !fieldNames.contains field.1
  return { operation, collection, pipeline, filter, options, params, cursorInfo, cursor, extra }

/-- Reads a query from its fields, without checking its options. -/
def ofFields (fields : Json.Object) : Except Error Query := do
  let operation ← operationOf fields
  match ofFields? operation fields with
  | some q => return q
  | none => throw (.malformed .wrongShape)

/-- Reads a query from a JSON value and checks it. -/
def ofJson (v : Json) : Except Error Query :=
  match v with
  | .object fields => do
    let q ← ofFields fields
    q.validateUnbound
    return q
  | _ => .error (.malformed .notAnObject)

/-- Reads a query from a text and checks it. -/
def parse (text : String) : Except Error Query :=
  match Json.ofText? text with
  | some v => ofJson v
  | none => .error (.malformed .notJson)

end Keyset.Query
