import Keyset.Cursor.Seek

/-!
# Queries

A query names an operation, a collection where the operation needs one, and what the operation works
with.  Fields that the query does not know are kept in `extra`, so that they survive reading and
writing.
-/

namespace Keyset

/-- What a query does. -/
inductive Operation where
  | aggregate
  | find
  | introspectColumns
deriving DecidableEq, Repr

namespace Operation

/-- The name of an operation. -/
def name : Operation → String
  | .aggregate => "aggregate"
  | .find => "find"
  | .introspectColumns => "introspect_columns"

/-- The operation of a name. -/
def ofName? (name : String) : Option Operation :=
  match name with
  | "aggregate" => some .aggregate
  | "find" => some .find
  | "introspect_columns" => some .introspectColumns
  | _ => none

/-- The operation of a name, or the error that there is none. -/
def ofName (name : String) : Except Error Operation :=
  match ofName? name with
  | some operation => .ok operation
  | none => .error (.unsupportedOperation name)

/-- Whether an operation works on one collection. -/
def needsCollection : Operation → Bool
  | .aggregate | .find => true
  | .introspectColumns => false

@[simp] theorem ofName?_name (op : Operation) : ofName? op.name = some op := by
  cases op <;> rfl

end Operation

/-- A query. -/
structure Query where
  operation : Operation
  collection : Option String := none
  pipeline : List Json.Object := []
  filter : Option Json.Object := none
  options : Json.Object := []
  params : List Json := []
  cursorInfo : Option CursorInfo := none
  cursor : Option Json := none
  /-- The fields that the query does not know. -/
  extra : Json.Object := []

namespace Query

/-- The collection of a query, empty if it names none. -/
def collectionName (q : Query) : String :=
  q.collection.getD ""

/-- The cursor of a query, if it is a string that is not blank. -/
def cursorText? (q : Query) : Option String :=
  (q.cursor.bind Json.string?).filter fun s => Text.trim s.toList ≠ []

/-- Adds the filter of a cursor to a query: as the first stage of an aggregation, and together with
the filter of a find. -/
def applySeek (q : Query) (seek : Json.Object) : Query :=
  match q.operation with
  | .aggregate => { q with pipeline := Seek.stage seek :: q.pipeline }
  | .find =>
    match q.filter with
    | some (field :: fields) =>
      let both : Json.Object := [("$and", .array [.object (field :: fields), .object seek])]
      { q with filter := some both }
    | _ => { q with filter := some seek }
  | .introspectColumns => q

/-- The filter of the query's own cursor, if it has one that can be used. -/
def seek? (q : Query) : Option Json.Object := do
  (← q.cursorInfo).seek? (← q.cursorText?)

/-- The query with the filter of its own cursor. -/
def applyCursor (q : Query) : Query :=
  match q.seek? with
  | some seek => q.applySeek seek
  | none => q

end Query

end Keyset
