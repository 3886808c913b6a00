import Keyset.Document.Extended
import Keyset.Error
import Keyset.Json.Printer

/-!
# Rows

What a query answers is read row by row.  The rows of documents come from an open stream of the store,
one JSON text for each document; a single value is one row with one text; a table has columns of its
own.

Reading documents can fail, because the reader was cancelled or because the stream yields an error in
place of a document.  A failure closes the rows, as does their end.  Closed rows have no next row and
cannot fail, and a stream that has been closed is not opened again.
-/

namespace Keyset

/-- A cell of a row. -/
inductive Cell where
  | text (s : String)
  | flag (b : Bool)
deriving DecidableEq, Repr

/-- A row. -/
abbrev Row := List Cell

/-- What an open stream of a store still holds: documents, or errors in their place. -/
abbrev DocumentStream := List (Except Error Document)

/-- The rows of a query, from the next one on. -/
inductive Rows where
  /-- One row for each document of a stream, which is gone once the rows are closed. -/
  | documents (stream : Option DocumentStream)
  /-- One row with a text, which is gone once it has been read. -/
  | single (payload : Option String)
  /-- The rows of a table. -/
  | tabular (columns : List String) (rows : List Row)

namespace Rows

/-- The column of documents and of single values. -/
def documentColumn : String :=
  "json"

/-- The names of the columns. -/
def columns : Rows → List String
  | .documents _ | .single _ => [documentColumn]
  | .tabular columns _ => columns

/-- The row of a document. -/
def documentRow (doc : Document) : Row :=
  [.text doc.toJson.text]

/-- Whether the rows hold an open stream. -/
def isOpen : Rows → Bool
  | .documents (some _) => true
  | _ => false

/-- The rows after they are closed: none. -/
def close : Rows → Rows
  | .documents _ => .documents none
  | .single _ => .single none
  | .tabular columns _ => .tabular columns []

/-- The next document of a stream, if there is one, and the stream after it.  Whatever ends the reading
closes the stream: its end, an error in it, or that the reader was cancelled. -/
def nextDocument (cancelled : Bool) :
    Option DocumentStream → Except Error (Option Document) × Option DocumentStream
  | none => (.ok none, none)
  | some items =>
    if cancelled then (.error .cancelled, none)
    else
      match items with
      | [] => (.ok none, none)
      | .error e :: _ => (.error e, none)
      | .ok doc :: rest => (.ok (some doc), some rest)

/-- The next row, if there is one, and the rows after it.  Only documents mind a cancelled reader. -/
def next (cancelled : Bool) : Rows → Except Error (Option Row) × Rows
  | .documents stream =>
    let (doc, stream) := nextDocument cancelled stream
    (doc.map (·.map documentRow), .documents stream)
  | .single none => (.ok none, .single none)
  | .single (some payload) => (.ok (some [.text payload]), .single none)
  | .tabular columns [] => (.ok none, .tabular columns [])
  | .tabular columns (row :: rows) => (.ok (some row), .tabular columns rows)

@[simp] theorem next_close (cancelled : Bool) (rows : Rows) :
    rows.close.next cancelled = (.ok none, rows.close) := by
  cases rows <;> rfl

@[simp] theorem isOpen_close (rows : Rows) : rows.close.isOpen = false := by
  cases rows <;> rfl

/-- Reading a document closes the stream, or takes the first of its documents off. -/
theorem nextDocument_cases {cancelled : Bool} {stream after : Option DocumentStream}
    {result : Except Error (Option Document)} (h : nextDocument cancelled stream = (result, after)) :
    (after = none ∧ ∀ doc, result ≠ .ok (some doc)) ∨
      ∃ doc rest, stream = some (.ok doc :: rest) ∧ result = .ok (some doc) ∧ after = some rest := by
  unfold nextDocument at h
  split at h
  · cases h
    exact .inl ⟨rfl, nofun⟩
  · split at h
    · cases h
      exact .inl ⟨rfl, nofun⟩
    · split at h <;> cases h
      · exact .inl ⟨rfl, nofun⟩
      · exact .inl ⟨rfl, nofun⟩
      · exact .inr ⟨_, _, rfl, rfl, rfl⟩

end Rows

end Keyset
