import Keyset.Schema.Catalog
import Keyset.Store.Basic
import Keyset.Store.Pipeline

/-!
# A store in memory

Collections keep their documents in the order in which they were inserted, and are made by the first
insertion.  The store counts the streams that it has handed out, by whether they were released.
-/

namespace Keyset

/-- A collection of a database. -/
structure Collection where
  database : String
  name : String
  documents : List Document

/-- The collections of all databases and the numbers of streams. -/
structure Memory where
  collections : List Collection
  openCursors : Nat
  releasedCursors : Nat

namespace Memory

/-- The store without collections. -/
def empty : Memory :=
  ⟨[], 0, 0⟩

/-! ### Contents -/

/-- Whether a collection has a name. -/
def isNamed (database collection : String) (c : Collection) : Bool :=
  c.database = database && c.name = collection

/-- The documents of a collection; an unknown one has none. -/
def documents (m : Memory) (database collection : String) : List Document :=
  ((m.collections.find? (isNamed database collection)).map Collection.documents).getD []

/-- The names of the collections of a database, in strictly increasing order. -/
def collectionNames (m : Memory) (database : String) : List String :=
  ((m.collections.filter (·.database = database)).map Collection.name).foldr Catalog.insertName []

/-- Adds documents at the end of a collection. -/
def append (database collection : String) (docs : List Document) : List Collection → List Collection
  | [] => [⟨database, collection, docs⟩]
  | c :: cs =>
    if isNamed database collection c then { c with documents := c.documents ++ docs } :: cs
    else c :: append database collection docs cs

/-- Inserts documents in order. -/
def insertMany (m : Memory) (database collection : String) (docs : List Document) : Memory :=
  { m with collections := append database collection docs m.collections }

/-- Inserts a document. -/
def insert (m : Memory) (database collection : String) (doc : Document) : Memory :=
  m.insertMany database collection [doc]

/-- Makes a collection, unless it is there. -/
def createCollection (m : Memory) (database collection : String) : Memory :=
  m.insertMany database collection []

/-! ### Seeds -/

/-- Inserts the entries of a collection of a seed, up to the first that is no document. -/
def seedDocuments (database collection : String) : List Json → StoreM Memory Unit
  | [] => pure ()
  | .object fields :: rest => do
    let doc ← (Document.ofJson fields : Except Error Document)
    modify (·.insert database collection doc)
    seedDocuments database collection rest
  | _ :: _ => throw (.malformed (.seedEntry collection))

/-- Inserts the collections of a seed, up to the first that is none. -/
def seedCollections (database : String) : List (String × Json) → StoreM Memory Unit
  | [] => pure ()
  | (name, .array entries) :: rest => do
    modify (·.createCollection database name)
    seedDocuments database name entries
    seedCollections database rest
  | (name, _) :: _ => throw (.malformed (.seedCollection name))

/-- Inserts a seed, which maps names of collections to lists of documents.  What stands before a fault
stays. -/
def loadSeed (database : String) : Json → StoreM Memory Unit
  | .object collections => seedCollections database collections
  | _ => throw (.malformed .seedShape)

/-! ### The store -/

/-- Hands out a stream of documents. -/
def handOut (docs : Except StoreFault (List Document)) : StoreM Memory DocumentStream :=
  match docs with
  | .error fault => throw (.store fault)
  | .ok docs => do
    modify fun m => { m with openCursors := m.openCursors + 1 }
    return docs.map .ok

/-- The store whose states are memories. -/
def store : DocumentStore Memory where
  ping := pure ()
  listCollections database := return (← get).collectionNames database
  find database collection filter options := do
    handOut (options.run filter ((← get).documents database collection))
  aggregate database collection pipeline := do
    handOut (Pipeline.run pipeline ((← get).documents database collection))
  sample database collection size := do
    return ((← get).documents database collection).take size.toNat
  release m :=
    { m with openCursors := m.openCursors - 1, releasedCursors := m.releasedCursors + 1 }

end Memory

end Keyset
