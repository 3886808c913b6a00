import Keyset.Query.Basic

/-!
# Placeholders

A string `$1`, `$2`, … that stands as a value in a pipeline, a filter, the options or the cursor of a
query is a placeholder for an argument.  Binding replaces all placeholders in one pass: names of fields
are never touched, and a placeholder inside an argument stays as it is.
-/

namespace Keyset

namespace Placeholder

/-- The largest index that is told apart; larger ones stand for it. -/
def maxIndex : Nat :=
  UInt64.size - 1

/-- The index of a placeholder: a dollar sign and a numeral that does not start with zero. -/
def index? (s : String) : Option Nat :=
  match s.toList with
  | '$' :: c :: digits =>
    if c = '0' then none else (Text.natural? (c :: digits)).map (min maxIndex)
  | _ => none

/-- The argument of an index, counted from one. -/
def argument (args : List Json) (index : Nat) : Except Error Json :=
  match args[index - 1]? with
  | some v => .ok v
  | none => .error (.missingParameter index args.length)

mutual

/-- A value with its placeholders bound, or the first that has no argument. -/
def bind (args : List Json) : (v : Json) → Except Error Json
  | .string s =>
    match index? s with
    | some index => argument args index
    | none => .ok (.string s)
  | .array items => (bindItems args items).map .array
  | .object fields => (bindFields args fields).map .object
  | v => .ok v
termination_by structural v => v

/-- Values with their placeholders bound. -/
def bindItems (args : List Json) : (items : List Json) → Except Error (List Json)
  | [] => .ok []
  | v :: vs =>
    match bind args v with
    | .error e => .error e
    | .ok v => (bindItems args vs).map (v :: ·)
termination_by structural items => items

/-- Fields with the placeholders in their values bound. -/
def bindFields (args : List Json) :
    (fields : List (String × Json)) → Except Error (List (String × Json))
  | [] => .ok []
  | (k, v) :: fs =>
    match bind args v with
    | .error e => .error e
    | .ok v => (bindFields args fs).map ((k, v) :: ·)
termination_by structural fields => fields

end

end Placeholder

namespace Query

/-- A query with its placeholders bound to arguments: those of the pipeline first, then of the filter,
the options and the cursor. -/
def substitute (q : Query) (args : List Json) : Except Error Query := do
  let pipeline ← q.pipeline.mapM (Placeholder.bindFields args)
  let filter ← q.filter.mapM (Placeholder.bindFields args)
  let options ← Placeholder.bindFields args q.options
  let cursor ← q.cursor.mapM (Placeholder.bind args)
  return { q with pipeline, filter, options, cursor }

end Query

end Keyset
