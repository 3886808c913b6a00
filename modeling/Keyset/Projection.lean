import Keyset.Document.Path

/-!
# Projections

A projection is a document.  If it switches on a field other than `_id`, or copies one, the result
holds what it names and `_id`, unless that is switched off; otherwise the result is the document
without the fields that it switches off.
-/

namespace Keyset.Projection

/-- The field that identifies a document. -/
def idField : String :=
  "_id"

/-- The path that a value copies: a string behind a `$`. -/
def source? : Value → Option String
  | .string s =>
    match s.toList with
    | '$' :: path => some (String.ofList path)
    | _ => none
  | _ => none

/-- Whether a projection names the fields to keep. -/
def isInclusion (spec : Document) : Bool :=
  spec.any fun (name, v) => name != idField && (v.truthy || (source? v).isSome)

/-- The value that an entry of a projection adds to the result. -/
def included? (doc : Document) (name : String) (v : Value) : Option Value :=
  match source? v with
  | some path => doc.at? path
  | none => if v.truthy then doc.at? name else none

/-- The result of a projection that names the fields to keep. -/
def inclusion (spec doc : Document) : Document :=
  let keepsId := (spec.get? idField).all Value.truthy
  let start : Document :=
    match doc.get? idField with
    | some id => if keepsId then [(idField, id)] else []
    | none => []
  spec.foldl (fun out (name, v) =>
    if name = idField then out
    else
      match included? doc name v with
      | some value => Fields.put out name value
      | none => out) start

/-- The result of a projection that names the fields to leave out. -/
def exclusion (spec doc : Document) : Document :=
  spec.foldl (fun out (name, v) => if v.truthy then out else Fields.erase out name) doc

/-- The result of a projection. -/
def apply (spec doc : Document) : Document :=
  if isInclusion spec then inclusion spec doc else exclusion spec doc

end Keyset.Projection
