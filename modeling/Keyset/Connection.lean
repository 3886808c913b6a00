import Keyset.Columns
import Keyset.Query.Text
import Keyset.Store.Basic
import Keyset.Store.Pipeline

/-!
# Connections

A connection executes queries on one database of a store.  A query is checked, its cursor is turned
into a filter, and its operation becomes one call of the store, or several for an introspection.  A
cursor that cannot be used never fails the query: the scan starts from the beginning.

A reader may be cancelled; a cancelled reader starts nothing.
-/

namespace Keyset

/-- A connection to a database. -/
structure Connection where
  database : String
  /-- How many documents an introspection samples where the query does not say. -/
  sampleSize : UInt64
deriving DecidableEq, Repr

namespace Connection

variable {σ : Type}

/-- A connection with the usual size of samples. -/
def toDatabase (database : String) : Connection :=
  ⟨database, IntrospectOptions.defaultSampleSize⟩

/-- The connection with another size of samples, which is at least one. -/
def withSampleSize (conn : Connection) (size : UInt64) : Connection :=
  { conn with sampleSize := if size = 0 then 1 else size }

/-- Makes sure that the store can be reached. -/
def connect (conn : Connection) (store : DocumentStore σ) (cancelled : Bool) :
    StoreM σ Connection := do
  if cancelled then
    throw .cancelled
  store.ping
  return conn

/-! ### Execution -/

/-- The options of a find; where it is not sorted explicitly, the columns of its cursor sort it. -/
def findOptions (q : Query) : Except Error FindOptions := do
  let options ← q.findOptions
  match options.sort, q.cursorInfo with
  | none, some info =>
    return if info.orderBy = [] then options else { options with sort := some info.sortDocument }
  | _, _ => return options

/-- The documents of a find. -/
def find (conn : Connection) (store : DocumentStore σ) (q : Query) : StoreM σ DocumentStream := do
  let filter ← (q.filterDocument : Except Error Document)
  let options ← (findOptions q : Except Error FindOptions)
  store.find conn.database q.collectionName filter options

/-- The documents of an aggregation, whose options are further stages. -/
def aggregate (conn : Connection) (store : DocumentStore σ) (q : Query) :
    StoreM σ DocumentStream := do
  let stages ← (q.pipelineDocuments : Except Error (List Document))
  let options ← (q.findOptions : Except Error FindOptions)
  store.aggregate conn.database q.collectionName (stages ++ Pipeline.ofOptions options)

/-- The columns of collections, one collection after the other. -/
def columnsOf (conn : Connection) (store : DocumentStore σ) (size : UInt64) :
    List String → StoreM σ (List Column)
  | [] => return []
  | collection :: rest => do
    let docs ← store.sample conn.database collection size
    return Columns.infer conn.database collection docs ++ (← columnsOf conn store size rest)

/-- The table of columns of an introspection. -/
def introspect (conn : Connection) (store : DocumentStore σ) (q : Query) : StoreM σ Rows := do
  let options ← (q.introspectOptions : Except Error IntrospectOptions)
  let size := if q.options.has OptionName.sampleSize.name then options.sampleSize else conn.sampleSize
  let collections ←
    match options.collections with
    | some names => pure names
    | none => store.listCollections conn.database
  let columns ← conn.columnsOf store size collections
  return .tabular Columns.header (columns.map Column.row)

/-- Executes a query whose placeholders are bound. -/
def execute (conn : Connection) (store : DocumentStore σ) (cancelled : Bool) (q : Query) :
    StoreM σ Rows := do
  if cancelled then
    throw .cancelled
  (q.validate : Except Error Unit)
  let q := q.applyCursor
  match q.operation with
  | .find => return .documents (some (← conn.find store q))
  | .aggregate => return .documents (some (← conn.aggregate store q))
  | .introspectColumns => conn.introspect store q

/-- Executes the query of a text with arguments. -/
def query (conn : Connection) (store : DocumentStore σ) (cancelled : Bool) (text : String)
    (args : List Json) : StoreM σ Rows := do
  let q ← (Query.parse text : Except Error Query)
  let q ← (q.substitute args : Except Error Query)
  conn.execute store cancelled q

/-! ### Reading to the end -/

/-- The state of a store after rows were closed, which releases their stream if it was open. -/
def settle (store : DocumentStore σ) (before after : Rows) (state : σ) : σ :=
  if before.isOpen && !after.isOpen then store.release state else state

/-- The documents that are left of a stream, read one after the other.  Behind the last one, and behind
an error, the stream is closed, if reading has not closed it. -/
def drainDocuments (store : DocumentStore σ) (cancelled : Bool) (stream : Option DocumentStream) :
    StoreM σ (List Document) :=
  match _ : Rows.nextDocument cancelled stream with
  | (.error e, after) => do
    modify (settle store (.documents stream) (.documents after))
    modify (settle store (.documents after) (.documents none))
    throw e
  | (.ok none, after) => do
    modify (settle store (.documents stream) (.documents after))
    modify (settle store (.documents after) (.documents none))
    return []
  | (.ok (some doc), after) => do
    modify (settle store (.documents stream) (.documents after))
    return doc :: (← drainDocuments store cancelled after)
termination_by (stream.getD []).length
decreasing_by
  rename_i hnext
  rcases Rows.nextDocument_cases hnext with ⟨-, hne⟩ | ⟨_, rest, rfl, -, rfl⟩
  · exact absurd rfl (hne doc)
  · exact Nat.lt_succ_self rest.length

/-- All rows that are left; they are closed whether or not reading them fails. -/
def drain (store : DocumentStore σ) (cancelled : Bool) : Rows → StoreM σ (List Row)
  | .documents stream =>
    return (← drainDocuments store cancelled stream).map Rows.documentRow
  | .single payload => return payload.toList.map fun s => [.text s]
  | .tabular _ rows => return rows

/-- Executes a query and folds its documents into one row with a JSON array of them; a table stays as
it is. -/
def executeSingle (conn : Connection) (store : DocumentStore σ) (cancelled : Bool) (q : Query) :
    StoreM σ Rows := do
  match ← conn.execute store cancelled q with
  | .documents stream =>
    let docs ← drainDocuments store cancelled stream
    return .single (some (Json.array (docs.map Document.toJson)).text)
  | rows => return rows

/-! ### Reading page by page -/

/-- The rows of a page and the cursor that resumes after them. -/
structure Page where
  rows : List Row
  next : Option String

/-- The document of a row of documents. -/
def documentOf? : Row → Option Json
  | .text s :: _ => Json.ofText? s
  | _ => none

/-- The cursor that resumes a query after a row. -/
def cursorAfter? (q : Query) (row : Row) : Option String := do
  (← q.cursorInfo).encode (← documentOf? row)

/-- The pages of a query, so many at most: each resumes after the last row of the one before it, until
a page is empty or its last row has no cursor. -/
def pages (conn : Connection) (store : DocumentStore σ) (cancelled : Bool) :
    (limit : Nat) → Query → StoreM σ (List Page)
  | 0, _ => return []
  | limit + 1, q => do
    let rows ← drain store cancelled (← conn.execute store cancelled q)
    match rows.getLast? with
    | none => return []
    | some row =>
      match cursorAfter? q row with
      | none => return [⟨rows, none⟩]
      | some cursor =>
        let rest ← conn.pages store cancelled limit { q with cursor := some (.string cursor) }
        return ⟨rows, some cursor⟩ :: rest

end Connection

end Keyset
