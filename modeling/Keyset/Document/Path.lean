import Keyset.Document.Basic
import Keyset.Text.Split

/-!
# Paths into documents

A path is a list of field names with points between them.  It leads through documents only: an array
or another value has no fields.  A field whose own name has a point in it cannot be reached.
-/

namespace Keyset

/-- The names that a path leads through, at least one. -/
def pathNames (path : String) : List String :=
  (Text.splitOn '.' path.toList).map String.ofList

namespace Document

/-- The value that names lead to from a document. -/
def follow? : Document → List String → Option Value
  | _, [] => none
  | doc, [name] => doc.get? name
  | doc, name :: rest =>
    match doc.get? name with
    | some (.document inner) => follow? inner rest
    | _ => none

/-- The value at a path. -/
def at? (doc : Document) (path : String) : Option Value :=
  doc.follow? (pathNames path)

end Document

end Keyset
