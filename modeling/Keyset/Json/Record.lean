import Keyset.Json.Basic

/-!
# Records in JSON

A record is written as an object with its fields by name, or as an array of its first fields in
order.  A field that is left out may have a default; an explicit `null` never stands for a default,
only for the absent value of an optional field.
-/

namespace Keyset.Json

/-- The fields of a record with the given field names.  An object may have others. -/
def record? (names : List String) : Json → Option Object
  | .object fields => some fields
  | .array items => if items.length ≤ names.length then some (names.zip items) else none
  | _ => none

/-- The fields of a record that may have no others. -/
def exactRecord? (names : List String) (v : Json) : Option Object :=
  (v.record? names).filter fun fields => fields.names.all names.contains

/-- A field that must be there. -/
def required? {α : Type} (fields : Object) (name : String) (read : Json → Option α) : Option α :=
  (fields.get? name).bind read

/-- A field with a default. -/
def withDefault? {α : Type} (fields : Object) (name : String) (read : Json → Option α)
    (default : α) : Option α :=
  match fields.get? name with
  | none => some default
  | some v => read v

/-- A field that may be left out or be `null`. -/
def optional? {α : Type} (fields : Object) (name : String) (read : Json → Option α) :
    Option (Option α) :=
  match fields.get? name with
  | none => some none
  | some .null => some none
  | some v => (read v).map some

/-- The items of an array, each read. -/
def listOf? {α : Type} (read : Json → Option α) (v : Json) : Option (List α) :=
  v.array?.bind (·.mapM read)

/-- The name of a choice without contents: a string, or an object that maps the name to `null`. -/
def choice? : Json → Option String
  | .string s => some s
  | .object [(name, .null)] => some name
  | _ => none

end Keyset.Json
