import Keyset.Document.Order
import Keyset.Document.Path
import Keyset.Error

/-!
# Filters

A filter is a document.  Its entries are conditions on a field, named by its path, or combinations of
filters under `$and`, `$or` and `$nor`; a document matches when it meets all entries.  The condition
of a field is a value to be equal to, or a document of operators whose first name starts with `$`.

Entries are tried in order and the first that fails ends the search, so that a fault in a later entry
is not seen.  The parts of a combination are all looked at before the first is tried.
-/

namespace Keyset.Filter

/-! ### Conditions on a field -/

/-- Whether the value of a field is what a filter expects: a missing field is null, and an array is
anything that one of its items is. -/
def fieldEquals (field : Option Value) (expected : Value) : Bool :=
  match field, expected with
  | none, .null => true
  | none, _ => false
  | some (.array items), .array _ => (Value.array items).equal expected
  | some (.array items), _ => items.any (·.equal expected)
  | some value, _ => value.equal expected

/-- Whether a value is of the expected rank and compares with it in an accepted way. -/
def ordered (accept : Ordering → Bool) (expected value : Value) : Bool :=
  value.rank == expected.rank && accept (value.compare expected)

/-- Whether the value of a field, or an item of it if it is an array, compares in an accepted way. -/
def fieldCompares (accept : Ordering → Bool) (field : Option Value) (expected : Value) : Bool :=
  match field with
  | none => false
  | some (.array items) => items.any (ordered accept expected)
  | some value => ordered accept expected value

/-- The operators on a field. -/
inductive Operator where
  | eq
  | ne
  | gt
  | gte
  | lt
  | lte
  | isIn
  | notIn
  | «exists»
deriving DecidableEq, Repr

/-- The operator of a name. -/
def Operator.ofName? (name : String) : Option Operator :=
  match name with
  | "$eq" => some .eq
  | "$ne" => some .ne
  | "$gt" => some .gt
  | "$gte" => some .gte
  | "$lt" => some .lt
  | "$lte" => some .lte
  | "$in" => some .isIn
  | "$nin" => some .notIn
  | "$exists" => some .exists
  | _ => none

/-- Whether the value of a field is equal to one of a list; the operator needs an array. -/
def fieldIsIn (operator : String) (field : Option Value) : Value → Except StoreFault Bool
  | .array items => .ok (items.any (fieldEquals field))
  | _ => .error (.needsArray operator)

/-- Whether a field satisfies an operator with its argument. -/
def satisfies (field : Option Value) (name : String) (argument : Value) : Except StoreFault Bool :=
  match Operator.ofName? name with
  | none => .error (.unsupportedOperator name)
  | some .eq => .ok (fieldEquals field argument)
  | some .ne => .ok (!fieldEquals field argument)
  | some .gt => .ok (fieldCompares Ordering.isGT field argument)
  | some .gte => .ok (fieldCompares Ordering.isGE field argument)
  | some .lt => .ok (fieldCompares Ordering.isLT field argument)
  | some .lte => .ok (fieldCompares Ordering.isLE field argument)
  | some .isIn => fieldIsIn name field argument
  | some .notIn => (fieldIsIn name field argument).map (!·)
  | some .exists => .ok (field.isSome == argument.truthy)

/-- Whether a field satisfies all operators of a document, up to the first that it does not. -/
def satisfiesAll (field : Option Value) : Document → Except StoreFault Bool
  | [] => .ok true
  | (name, argument) :: rest =>
    match satisfies field name argument with
    | .ok true => satisfiesAll field rest
    | r => r

/-- Whether a name is that of an operator rather than of a field. -/
def isOperatorName (name : String) : Bool :=
  name.toList.head? == some '$'

/-- The operators of a condition: a document whose first name is that of an operator. -/
def operators? : Value → Option Document
  | .document ((name, argument) :: rest) =>
    if isOperatorName name then some ((name, argument) :: rest) else none
  | _ => none

/-- Whether a field meets its condition. -/
def fieldMatches (field : Option Value) (condition : Value) : Except StoreFault Bool :=
  match operators? condition with
  | some document => satisfiesAll field document
  | none => .ok (fieldEquals field condition)

/-! ### Combinations -/

/-- The ways to combine filters. -/
inductive Connective where
  | and
  | or
  | nor
deriving DecidableEq, Repr

/-- The connective of a name. -/
def Connective.ofName? (name : String) : Option Connective :=
  match name with
  | "$and" => some .and
  | "$or" => some .or
  | "$nor" => some .nor
  | _ => none

/-- Whether all parts of a combination are documents. -/
def allDocuments (items : List Value) : Bool :=
  items.all fun v => v.document?.isSome

mutual

/-- Whether a document meets all entries of a filter. -/
def accepts (doc : Document) : (filter : List (String × Value)) → Except StoreFault Bool
  | [] => .ok true
  | (name, condition) :: rest =>
    match acceptsEntry doc name condition with
    | .ok true => accepts doc rest
    | r => r
termination_by structural filter => filter

/-- Whether a document meets one entry of a filter. -/
def acceptsEntry (doc : Document) (name : String) : (condition : Value) → Except StoreFault Bool
  | .array items =>
    match Connective.ofName? name with
    | some connective =>
      if allDocuments items then
        match connective with
        | .and => (findsOutcome doc false items).map (!·)
        | .or => findsOutcome doc true items
        | .nor => (findsOutcome doc true items).map (!·)
      else
        .error (.needsDocuments name)
    | none =>
      if isOperatorName name then .error (.unsupportedOperator name)
      else fieldMatches (doc.at? name) (.array items)
  | condition =>
    if (Connective.ofName? name).isSome then .error (.needsArray name)
    else if isOperatorName name then .error (.unsupportedOperator name)
    else fieldMatches (doc.at? name) condition
termination_by structural condition => condition

/-- Whether one of several filters, tried in order, has the wanted outcome. -/
def findsOutcome (doc : Document) (wanted : Bool) : List Value → Except StoreFault Bool
  | [] => .ok false
  | .document filter :: rest =>
    match accepts doc filter with
    | .ok outcome => if outcome = wanted then .ok true else findsOutcome doc wanted rest
    | r => r
  | _ :: rest => findsOutcome doc wanted rest
termination_by structural items => items

end

/-- The documents that a filter accepts, unless it fails on one of them. -/
def select (filter : Document) : List Document → Except StoreFault (List Document)
  | [] => .ok []
  | doc :: docs => do
    let accepted ← accepts doc filter
    let rest ← select filter docs
    return if accepted then doc :: rest else rest

end Keyset.Filter
