import Keyset.Document.Order
import Keyset.Document.Path

/-!
# Sorting documents

A sort specification is a document that maps paths to directions: a number below zero, or a NaN, is
descending, everything else ascending.  Documents are compared by the first path in whose values they
differ; a missing value counts as null.  Documents that differ in none keep their order.
-/

namespace Keyset.Sorting

/-- A path to sort by and whether it ascends. -/
structure Key where
  path : String
  ascending : Bool
deriving DecidableEq, Repr

/-- Whether a value stands for an ascending direction. -/
def isAscending (v : Value) : Bool :=
  v.toDouble?.all fun x => !x.isNaN && 0 ≤ x.key

/-- The keys of a sort specification, in order. -/
def keys (spec : Document) : List Key :=
  spec.map fun (path, direction) => ⟨path, isAscending direction⟩

/-- The value that a document is sorted by. -/
def sortValue (path : String) (doc : Document) : Value :=
  (doc.at? path).getD .null

/-- The order of two documents by one key. -/
def Key.compare (key : Key) (a b : Document) : Ordering :=
  let order := (sortValue key.path a).compare (sortValue key.path b)
  if key.ascending then order else order.swap

/-- The order of two documents by several keys, the first that tells them apart. -/
def compare : List Key → Document → Document → Ordering
  | [], _, _ => .eq
  | key :: rest, a, b => (key.compare a b).then (compare rest a b)

/-- The documents in order; those that compare equal stay as they were. -/
def sort (spec : Document) (docs : List Document) : List Document :=
  docs.mergeSort fun a b => (compare (keys spec) a b).isLE

end Keyset.Sorting
