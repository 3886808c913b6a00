import Keyset.Filter
import Keyset.Projection
import Keyset.Query.Options
import Keyset.Sorting

/-!
# Finds and pipelines over documents

A find selects documents by a filter, sorts them, passes over some, keeps some of the rest and projects
what is kept.  A pipeline does the same in stages of its own order; each stage is a document with one
field, the name of the stage and its argument.
-/

namespace Keyset

/-- The first documents, so many at most; zero stands for all, and a sign does not matter. -/
def FindOptions.page (options : FindOptions) (docs : List Document) : List Document :=
  let rest := docs.drop (options.skip.getD 0).toNat
  match (options.limit.getD 0).toInt.natAbs with
  | 0 => rest
  | n => rest.take n

/-- The documents of a find. -/
def FindOptions.run (options : FindOptions) (filter : Document) (docs : List Document) :
    Except StoreFault (List Document) := do
  let selected ← Filter.select filter docs
  let sorted := (options.sort.map fun spec => Sorting.sort spec selected).getD selected
  let paged := options.page sorted
  return (options.projection.map fun spec => paged.map (Projection.apply spec)).getD paged

namespace Pipeline

/-- The largest integer of a signed word. -/
def maxInt64 : Int :=
  Int64.maxValue.toInt

/-- The count that a value stands for: an integer, or a double that is one, not below zero.  Doubles
beyond a signed word count as its largest integer. -/
def count? : Value → Option Nat
  | .int32 n => if 0 ≤ n.toInt then some n.toInt.toNat else none
  | .int64 n => if 0 ≤ n.toInt then some n.toInt.toNat else none
  | .double x =>
    match x.integer? with
    | some n => if 0 ≤ n then some (min n maxInt64).toNat else none
    | none => none
  | _ => none

/-- The count of a stage. -/
def count (stage : String) (v : Value) : Except StoreFault Nat :=
  match count? v with
  | some n => .ok n
  | none => .error (.needsCount stage)

/-- The number of documents under a name; no documents have no number. -/
def countDocuments (name : String) (docs : List Document) : List Document :=
  if docs.isEmpty then []
  else [[(name, .int64 (Int64.ofInt (min (docs.length : Int) maxInt64)))]]

/-- The documents after a stage of a name and an argument. -/
def runNamed (name : String) (argument : Value) (docs : List Document) :
    Except StoreFault (List Document) :=
  match name, argument with
  | "$match", .document filter => Filter.select filter docs
  | "$sort", .document spec => .ok (Sorting.sort spec docs)
  | "$skip", v => (count "$skip" v).map docs.drop
  | "$limit", v => (count "$limit" v).map docs.take
  | "$project", .document spec => .ok (docs.map (Projection.apply spec))
  | "$count", .string field => .ok (countDocuments field docs)
  | _, _ => .error (.unsupportedStage name)

/-- The documents after a stage. -/
def runStage (stage : Document) (docs : List Document) : Except StoreFault (List Document) :=
  match stage with
  | [(name, argument)] => runNamed name argument docs
  | _ => .error .stageSize

/-- The documents after all stages of a pipeline. -/
def run : List Document → List Document → Except StoreFault (List Document)
  | [], docs => .ok docs
  | stage :: stages, docs => do run stages (← runStage stage docs)

/-- The stages that stand for the options of a find.  The absolute value of the least limit wraps around
to that limit itself, which is not above zero, so that it has no stage; where overflow is checked the
program stops instead. -/
def ofOptions (options : FindOptions) : List Document :=
  (options.sort.toList.map fun spec => [("$sort", .document spec)]) ++
    (options.skip.toList.map fun n =>
      [("$skip", .int64 (Int64.ofInt (min (n.toNat : Int) maxInt64)))]) ++
    (((options.limit.map Int64.abs).filter (0 < ·)).toList.map fun n => [("$limit", .int64 n)]) ++
    (options.projection.toList.map fun spec => [("$project", .document spec)])

end Pipeline

end Keyset
