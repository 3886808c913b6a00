import Keyset.Query.Options
import Keyset.Rows

/-!
# Stores

A store holds collections of documents in databases and answers finds and aggregations with streams.
What it does may fail, and it may change its state either way.  A stream that was handed out stays open
until it is released.
-/

namespace Keyset

/-- What a store with states of type `σ` does: an answer or an error, and the state after it. -/
abbrev StoreM (σ : Type) := ExceptT Error (StateM σ)

/-- What a store can be asked. -/
structure DocumentStore (σ : Type) where
  /-- Whether the store can be reached. -/
  ping : StoreM σ Unit
  /-- The names of the collections of a database, in order. -/
  listCollections (database : String) : StoreM σ (List String)
  /-- The documents of a collection that a filter accepts. -/
  find (database collection : String) (filter : Document) (options : FindOptions) :
    StoreM σ DocumentStream
  /-- What the stages of a pipeline make of the documents of a collection. -/
  aggregate (database collection : String) (pipeline : List Document) : StoreM σ DocumentStream
  /-- The first documents of a collection, so many at most. -/
  sample (database collection : String) (size : UInt64) : StoreM σ (List Document)
  /-- The state after a stream was released. -/
  release (state : σ) : σ

/-- Failures that a store is told to have.  A stream of more than `n` documents has an error in place
of the one at index `n` if `streamAfter` is that number and a text. -/
structure Faults where
  ping : Option String := none
  list : Option String := none
  find : Option String := none
  aggregate : Option String := none
  sample : Option String := none
  streamAfter : Option (Nat × String) := none

namespace Faults

/-- Fails with a text, if there is one, before anything else is done. -/
def guarded {σ α : Type} (fault : Option String) (action : StoreM σ α) : StoreM σ α :=
  match fault with
  | some text => throw (.store (.failure text))
  | none => action

/-- A stream with the failure that it is told to have. -/
def onStream (faults : Faults) (stream : DocumentStream) : DocumentStream :=
  match faults.streamAfter with
  | some (n, text) => stream.set n (.error (.store (.failure text)))
  | none => stream

end Faults

/-- A store with failures. -/
def DocumentStore.withFaults {σ : Type} (store : DocumentStore σ) (faults : Faults) :
    DocumentStore σ where
  ping := Faults.guarded faults.ping store.ping
  listCollections database := Faults.guarded faults.list (store.listCollections database)
  find database collection filter options :=
    Faults.guarded faults.find
      (faults.onStream <$> store.find database collection filter options)
  aggregate database collection pipeline :=
    Faults.guarded faults.aggregate
      (faults.onStream <$> store.aggregate database collection pipeline)
  sample database collection size :=
    Faults.guarded faults.sample (store.sample database collection size)
  release := store.release

end Keyset
