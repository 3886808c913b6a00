import Keyset.Connection
import Keyset.Store.Memory

/-!
# Sessions

A session works on one store in memory through one connection at a time.  It knows its readers by name:
a reader is not cancelled until it is told to be, and stays cancelled then.  Rows that are read step by
step are kept by name too, with the reader that opened them.

A step that fails answers with its error, and the session goes on.
-/

namespace Keyset

/-- Rows that are being read and who reads them. -/
structure OpenRows where
  rows : Rows
  reader : String

/-- The state of a session. -/
structure Session where
  memory : Memory
  faults : Faults
  connection : Connection
  cancelled : List String
  openRows : Fields OpenRows

namespace Session

/-! ### Steps and answers -/

/-- What a session is told to do. -/
inductive Command where
  | seed (seed : Json)
  | fromSeed (seed : Json)
  | create (collection : String)
  | insert (collection : String) (doc : Json)
  | insertMany (collection : String) (docs : List Json)
  | collections
  | counters
  | use
  | sampleSize (size : UInt64)
  | connect (size : Option UInt64)
  | cancel
  | query (text : String) (args : List Json)
  | executeUnbound (text : String)
  | single (text : String) (args : List Json)
  | openRows (text : String) (args : List Json) (name : String)
  | openSingle (text : String) (args : List Json) (name : String)
  | next (name : String)
  | close (name : String)
  | collect (name : String)
  | drop (name : String)
  | walk (text : String) (args : List Json) (limit : Nat)

/-- A command, the database that it is for if it is not that of the connection, and who gives it. -/
structure Step where
  command : Command
  database : Option String := none
  reader : String := "main"

/-- What a session answers. -/
inductive Answer where
  | done
  | failed (e : Error)
  | existed (b : Bool)
  | collections (names : List String)
  | seeded (names : List String)
  | counters (openCursors releasedCursors : Nat)
  | using (database : String)
  | connected (requested database : String)
  | columns (names : List String)
  | rows (columns : List String) (rows : List Row)
  /-- The next row, and for rows of documents whether they are closed. -/
  | row (row : Option Row) (closed : Option Bool)
  | pages (pages : List Connection.Page)

/-! ### Running a step -/

/-- A session with an empty store. -/
def start (database : String) (faults : Faults) : Session where
  memory := .empty
  faults := faults
  connection := .toDatabase database
  cancelled := []
  openRows := []

/-- The store of a session. -/
def store (s : Session) : DocumentStore Memory :=
  Memory.store.withFaults s.faults

/-- Whether a reader is cancelled. -/
def isCancelled (s : Session) (reader : String) : Bool :=
  s.cancelled.contains reader

/-- Runs an action of the store and answers with what it gives. -/
def perform {α : Type} (s : Session) (action : StoreM Memory α) (answer : α → Answer) :
    Answer × Session :=
  match action.run s.memory with
  | (.ok a, memory) => (answer a, { s with memory })
  | (.error e, memory) => (.failed e, { s with memory })

/-- Whether rows of documents are closed; other rows do not tell. -/
def closed? : Rows → Option Bool
  | .documents stream => some stream.isNone
  | _ => none

/-- Reads the document that an insertion is given. -/
def document (doc : Json) : Except Error Document :=
  match doc with
  | .object fields => Document.ofJson fields
  | _ => .error (.malformed .wrongShape)

/-- Rows of a query, and all that is left of them. -/
def drained (s : Session) (reader : String) (rows : StoreM Memory Rows) : Answer × Session :=
  s.perform
    (do
      let rows ← rows
      return (rows.columns, ← Connection.drain s.store (s.isCancelled reader) rows))
    fun (columns, rows) => .rows columns rows

/-- Replaces the rows of a name, which are closed, by others, or removes them. -/
def putRows (s : Session) (name : String) (rows : Option OpenRows) : Session :=
  let memory :=
    match s.openRows.get? name with
    | some old => Connection.settle s.store old.rows old.rows.close s.memory
    | none => s.memory
  let openRows :=
    match rows with
    | some rows => s.openRows.put name rows
    | none => s.openRows.erase name
  { s with memory, openRows }

/-- Keeps the rows of a query under a name. -/
def keepRows (s : Session) (reader name : String) (rows : StoreM Memory Rows) : Answer × Session :=
  match rows.run s.memory with
  | (.ok rows, memory) =>
    (.columns rows.columns, { s with memory }.putRows name (some ⟨rows, reader⟩))
  | (.error e, memory) => (.failed e, { s with memory })

/-- Reads the next row of rows that are kept. -/
def nextRow (s : Session) (name : String) : Answer × Session :=
  match s.openRows.get? name with
  | none => (.row none none, s)
  | some ⟨rows, reader⟩ =>
    let (result, after) := rows.next (s.isCancelled reader)
    let s :=
      { s with
        memory := Connection.settle s.store rows after s.memory
        openRows := s.openRows.put name ⟨after, reader⟩ }
    match result with
    | .ok row => (.row row (closed? after), s)
    | .error e => (.failed e, s)

/-- Closes rows that are kept, and keeps them. -/
def closeRows (s : Session) (name : String) : Session :=
  match s.openRows.get? name with
  | none => s
  | some ⟨rows, reader⟩ => s.putRows name (some ⟨rows.close, reader⟩)

/-- Reads all that is left of rows that are kept, and forgets them. -/
def collectRows (s : Session) (name : String) : Answer × Session :=
  match s.openRows.get? name with
  | none => (.rows [] [], s)
  | some ⟨rows, reader⟩ =>
    { s with openRows := s.openRows.erase name }.perform
      (Connection.drain s.store (s.isCancelled reader) rows) (.rows rows.columns)

/-- A query with its placeholders bound. -/
def bound (text : String) (args : List Json) : StoreM Memory Query := do
  let q ← (Query.parse text : Except Error Query)
  (q.substitute args : Except Error Query)

/-- Does one step. -/
def step (s : Session) (step : Step) : Answer × Session :=
  let database := step.database.getD s.connection.database
  let reader := step.reader
  let cancelled := s.isCancelled reader
  let conn := s.connection
  match step.command with
  | .seed seed => s.perform (Memory.loadSeed database seed) fun _ => .done
  | .fromSeed seed =>
    match (Memory.loadSeed database seed).run .empty with
    | (.ok _, memory) => (.seeded (memory.collectionNames database), s)
    | (.error e, _) => (.failed e, s)
  | .create collection =>
    s.perform (modify (·.createCollection database collection)) fun _ => .done
  | .insert collection doc =>
    s.perform
      (do
        let doc ← (document doc : Except Error Document)
        modify (·.insert database collection doc))
      fun _ => .done
  | .insertMany collection docs =>
    s.perform
      (do
        let docs ← (docs.mapM document : Except Error (List Document))
        modify (·.insertMany database collection docs))
      fun _ => .done
  | .collections => s.perform (s.store.listCollections database) .collections
  | .counters => (.counters s.memory.openCursors s.memory.releasedCursors, s)
  | .use => (.using database, { s with connection := .toDatabase database })
  | .sampleSize size => (.done, { s with connection := conn.withSampleSize size })
  | .connect size =>
    let requested := Connection.toDatabase database
    let requested := (size.map requested.withSampleSize).getD requested
    match (requested.connect s.store cancelled).run s.memory with
    | (.ok conn, memory) =>
      (.connected requested.database conn.database, { s with memory, connection := conn })
    | (.error e, memory) => (.failed e, { s with memory })
  | .cancel => (.done, { s with cancelled := reader :: s.cancelled })
  | .query text args => s.drained reader (conn.query s.store cancelled text args)
  | .executeUnbound text =>
    s.drained reader do
      conn.execute s.store cancelled (← (Query.parse text : Except Error Query))
  | .single text args =>
    s.drained reader do conn.executeSingle s.store cancelled (← bound text args)
  | .openRows text args name => s.keepRows reader name (conn.query s.store cancelled text args)
  | .openSingle text args name =>
    s.keepRows reader name do conn.executeSingle s.store cancelled (← bound text args)
  | .next name => s.nextRow name
  | .close name => (.done, s.closeRows name)
  | .collect name => s.collectRows name
  | .drop name => (.existed (s.openRows.has name), s.putRows name none)
  | .walk text args limit =>
    s.perform (do conn.pages s.store cancelled limit (← bound text args)) .pages

/-- Does steps in order. -/
def run (s : Session) : List Step → List Answer × Session
  | [] => ([], s)
  | step :: steps =>
    let (answer, s) := s.step step
    let (answers, s) := s.run steps
    (answer :: answers, s)

end Session

end Keyset
