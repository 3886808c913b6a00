import Keyset.Cursor.Text
import Keyset.Schema.Relation

/-!
# The filter of a cursor

The rows after a row with values `v₁ … vₙ` are those that come after it in the first column, or equal
it there and come after it in the second, and so on: one comparison for one column, and otherwise a
disjunction with one branch for each column.
-/

namespace Keyset

namespace Seek

/-- The condition that a column comes after a value. -/
def after (col : OrderBy) (value : Json) : Json :=
  .single col.field (.single col.direction.operator value)

/-- The condition that a column equals a value. -/
def equals (col : OrderBy) (value : Json) : Json :=
  .single col.field value

/-- A condition under the conditions before it. -/
def under (before : List Json) (last : Json) : Json :=
  match before with
  | [] => last
  | _ => .single "$and" (.array (before ++ [last]))

/-- One branch for each column: it comes after its value, and the columns before it equal theirs. -/
def branches (before : List Json) : List (OrderBy × Json) → List Json
  | [] => []
  | (col, value) :: rest =>
    under before (after col value) :: branches (before ++ [equals col value]) rest

/-- The filter that accepts the rows after given values of columns. -/
def filter (columns : List (OrderBy × Json)) : Json.Object :=
  match columns with
  | [(col, value)] => [(col.field, .single col.direction.operator value)]
  | _ => [("$or", .array (branches [] columns))]

/-- The pipeline stage of a filter. -/
def stage (filter : Json.Object) : Json.Object :=
  [("$match", .object filter)]

end Seek

namespace CursorInfo

/-- The filter of a cursor, none if the cursor is blank, or why it cannot be used. -/
def seek (info : CursorInfo) (raw : String) : Except Error (Option Json.Object) :=
  (info.values? raw.toList).map fun values =>
    values.map fun vs => Seek.filter (info.orderBy.zip vs)

/-- The filter of a cursor that can be used; any other cursor counts as none. -/
def seek? (info : CursorInfo) (raw : String) : Option Json.Object :=
  match info.seek raw with
  | .ok filter => filter
  | .error _ => none

/-- The filter of a cursor that was issued on the other side of a relation; it does not carry over to
another database. -/
def seekAcross? (info : CursorInfo) (raw : String) (via : Relation) : Option Json.Object :=
  if via.isCrossDatabase then none else info.seek? raw

end CursorInfo

end Keyset
