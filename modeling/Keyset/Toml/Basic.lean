import Keyset.Double.Basic
import Keyset.Fields

/-!
# TOML values and tables

A TOML document is a table.  While it is read, a table also knows how it came into being, because that
decides who may add to it: a table that a header names is complete when the next header comes, one that
was only passed through on the way to another may still get a header of its own, and one that dotted
keys made may only get further dotted keys.  Inline tables are values and complete from the start.
-/

namespace Keyset

/-- A value of a TOML document. -/
inductive Toml where
  | string (s : String)
  | integer (n : Int64)
  | float (x : Double)
  | boolean (b : Bool)
  /-- A date, a time of day or both, as it is written. -/
  | dateTime (text : String)
  | array (items : List Toml)
  | table (fields : List (String × Toml))

/-- The fields of a TOML document. -/
abbrev Toml.Table := Fields Toml

namespace Toml

/-- How a table came into being. -/
inductive Origin where
  /-- Named by a header, or the document itself. -/
  | defined
  /-- Passed through by a header of another table. -/
  | implied
  /-- Made by a dotted key. -/
  | dotted
deriving DecidableEq, Repr

/-- An entry of a table that is being read. -/
inductive Node where
  | value (v : Toml)
  | table (origin : Origin) (entries : List (String × Node))
  /-- An array of tables, the last of which may still grow. -/
  | tables (earlier : List (List (String × Node))) (last : List (String × Node))

/-- A table that is being read. -/
structure Section where
  origin : Origin
  entries : Fields Node

namespace Section

/-- The section of a document without entries. -/
def empty : Section :=
  ⟨.defined, []⟩

/-- Changes the section that keys lead to.  What is not there is made on the way, with an origin for
what is made; an array of tables leads to its last table.  Dotted keys stop at a table with a header,
and all keys stop at a value. -/
def change (made : Origin) (f : Section → Option Section) : List String → Section → Option Section
  | [], s => f s
  | key :: keys, s =>
    match s.entries.get? key with
    | none => do
      let inner ← change made f keys ⟨made, []⟩
      return { s with entries := s.entries.put key (.table inner.origin inner.entries) }
    | some (.value _) => none
    | some (.table origin entries) => do
      if made = .dotted ∧ origin = .defined then
        none
      let inner ← change made f keys ⟨origin, entries⟩
      return { s with entries := s.entries.put key (.table inner.origin inner.entries) }
    | some (.tables earlier last) => do
      let inner ← change made f keys ⟨.defined, last⟩
      return { s with entries := s.entries.put key (.tables earlier inner.entries) }

/-- Adds a value under a dotted key, all of whose keys but the last are given apart.  A dotted key adds
to tables that dotted keys made, and a plain key to the others. -/
def insert (keys : List String) (key : String) (v : Toml) (s : Section) : Option Section :=
  change .dotted
    (fun inner =>
      if (inner.origin = .dotted ↔ keys = []) ∨ inner.entries.has key then none
      else some { inner with entries := inner.entries.put key (.value v) })
    keys s

/-- Opens a table by a header.  A table that was only passed through keeps what it has. -/
def openTable (keys : List String) (key : String) (s : Section) : Option Section :=
  change .implied
    (fun parent =>
      match parent.entries.get? key with
      | none => some { parent with entries := parent.entries.put key (.table .defined []) }
      | some (.table .implied entries) =>
        some { parent with entries := parent.entries.put key (.table .defined entries) }
      | some _ => none)
    keys s

/-- Adds a table to an array of tables. -/
def addTable (keys : List String) (key : String) (s : Section) : Option Section :=
  change .implied
    (fun parent =>
      match parent.entries.get? key with
      | none => some { parent with entries := parent.entries.put key (.tables [] []) }
      | some (.tables earlier last) =>
        some { parent with entries := parent.entries.put key (.tables (earlier ++ [last]) []) }
      | some _ => none)
    keys s

end Section

mutual

/-- The value of an entry. -/
def Node.toToml : Node → Toml
  | .value v => v
  | .table _ entries => .table (Node.fields entries)
  | .tables earlier last => .array (Node.items earlier ++ [.table (Node.fields last)])
termination_by structural n => n

/-- The values of entries. -/
def Node.fields : List (String × Node) → List (String × Toml)
  | [] => []
  | (key, n) :: entries => (key, n.toToml) :: Node.fields entries
termination_by structural entries => entries

/-- The values of tables. -/
def Node.items : List (List (String × Node)) → List Toml
  | [] => []
  | entries :: rest => .table (Node.fields entries) :: Node.items rest
termination_by structural tables => tables

end

/-- The fields of a section. -/
def Section.fields (s : Section) : Table :=
  Node.fields s.entries

end Toml

end Keyset
