import Keyset.Document.Extended
import Keyset.Query.Placeholder

/-!
# The options of a query

Options are given as JSON and understood as types: how many documents to pass over and to return, in
which order and with which fields, or how many documents to sample of which collections.  A query is
valid when it names a collection, if it needs one, and its options are understood; before its
placeholders are bound, an option that is one passes.
-/

namespace Keyset

/-- The document of a JSON object; a wrapper stands for a value that is none. -/
def Document.ofJson (fields : Json.Object) : Except Error Document :=
  match Value.ofJson? (.object fields) with
  | some (.document doc) => .ok doc
  | some v => .error (.malformed (.notADocument v.typeName))
  | none => .error (.malformed .badWrapper)

/-- The options of a find and of an aggregation. -/
structure FindOptions where
  limit : Option Int64 := none
  skip : Option UInt64 := none
  sort : Option Document := none
  projection : Option Document := none

/-- The options of an introspection. -/
structure IntrospectOptions where
  sampleSize : UInt64
  collections : Option (List String)
deriving DecidableEq, Repr

namespace IntrospectOptions

/-- The number of documents to sample where nothing else is said. -/
def defaultSampleSize : UInt64 :=
  100

end IntrospectOptions

namespace Query

/-- Reads an option if it is there. -/
def option? {α : Type} (q : Query) (option : OptionName) (read : Json → Except Error α) :
    Except Error (Option α) :=
  (q.options.get? option.name).mapM read

/-- The value of an option, or the error that it is not what the option needs. -/
def orBad {α : Type} (option : OptionName) (value : Option α) : Except Error α :=
  match value with
  | some a => .ok a
  | none => .error (.malformed (.badOption option))

/-- Reads an option that is a document. -/
def documentOption (option : OptionName) : Json → Except Error Document
  | .object fields => Document.ofJson fields
  | _ => .error (.malformed (.badOption option))

/-- The options of a find. -/
def findOptions (q : Query) : Except Error FindOptions := do
  let limit ← q.option? .limit fun v => orBad .limit v.int64?
  let skip ← q.option? .skip fun v => orBad .skip v.uint64?
  let sort ← q.option? .sort (documentOption .sort)
  let projection ← q.option? .projection (documentOption .projection)
  return ⟨limit, skip, sort, projection⟩

/-- The names of a list, each once and in the order of their first places. -/
def distinct (names : List String) : List String :=
  names.foldl (fun seen name => if seen.contains name then seen else seen ++ [name]) []

/-- Reads a list of collections; `null` stands for no list. -/
def collectionsOption : Json → Except Error (Option (List String))
  | .null => .ok none
  | v => orBad .collections ((Json.listOf? Json.string? v).map fun names => some (distinct names))

/-- The options of an introspection. -/
def introspectOptions (q : Query) : Except Error IntrospectOptions := do
  let sampleSize ← q.option? .sampleSize fun v =>
    orBad .sampleSize (v.uint64?.filter (0 < ·))
  let collections ← q.option? .collections collectionsOption
  return ⟨sampleSize.getD IntrospectOptions.defaultSampleSize, collections.join⟩

/-- The filter of a query as a document. -/
def filterDocument (q : Query) : Except Error Document :=
  match q.filter with
  | some fields => Document.ofJson fields
  | none => .ok []

/-- The stages of a query as documents. -/
def pipelineDocuments (q : Query) : Except Error (List Document) :=
  q.pipeline.mapM Document.ofJson

/-- Checks the options that the operation of a query uses. -/
def checkOptions (q : Query) : Except Error Unit :=
  match q.operation with
  | .introspectColumns => q.introspectOptions.map fun _ => ()
  | .find | .aggregate => q.findOptions.map fun _ => ()

/-- Checks a query whose placeholders are bound. -/
def validate (q : Query) : Except Error Unit :=
  if q.operation.needsCollection ∧ q.collectionName = "" then .error .missingCollection
  else q.checkOptions

/-- Whether a value is a placeholder. -/
def isPlaceholder (v : Json) : Bool :=
  (v.string?.bind Placeholder.index?).isSome

/-- The query without the options that are placeholders. -/
def withoutOpenOptions (q : Query) : Query :=
  { q with options := q.options.filter fun option => !isPlaceholder option.2 }

/-- Checks a query whose placeholders may still be unbound. -/
def validateUnbound (q : Query) : Except Error Unit :=
  q.withoutOpenOptions.validate

end Query

end Keyset
