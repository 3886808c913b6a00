import Keyset.Schema.Table

/-!
# Relations between tables

A relation leads from columns of one table to columns of another, or of the same.  It crosses databases
when both databases are named and the names differ; whether the default database is one of the named
ones is not known, so a relation with it crosses none.
-/

namespace Keyset

/-- The kinds of relations. -/
inductive RelationKind where
  | none
  | oneToOne
  | oneToMany
  | polymorphic
  | recursive
  | embedded
  | remote
  | skip
  | databaseJoin
deriving DecidableEq, Repr

namespace RelationKind

/-- All kinds. -/
def all : List RelationKind :=
  [.none, .oneToOne, .oneToMany, .polymorphic, .recursive, .embedded, .remote, .skip, .databaseJoin]

/-- The kind of a relation that declares none. -/
def default : RelationKind :=
  .none

/-- The name of a kind in JSON. -/
def tag : RelationKind → String
  | .none => "none"
  | .oneToOne => "one_to_one"
  | .oneToMany => "one_to_many"
  | .polymorphic => "polymorphic"
  | .recursive => "recursive"
  | .embedded => "embedded"
  | .remote => "remote"
  | .skip => "skip"
  | .databaseJoin => "database_join"

/-- The kind of a name in JSON. -/
def ofTag? (tag : String) : Option RelationKind :=
  all.find? (·.tag = tag)

/-- The name of a kind in texts. -/
def name : RelationKind → String
  | .none => "RelNone"
  | .oneToOne => "RelOneToOne"
  | .oneToMany => "RelOneToMany"
  | .polymorphic => "RelPolymorphic"
  | .recursive => "RelRecursive"
  | .embedded => "RelEmbedded"
  | .remote => "RelRemote"
  | .skip => "RelSkip"
  | .databaseJoin => "RelDatabaseJoin"

@[simp] theorem ofTag?_tag (k : RelationKind) : ofTag? k.tag = some k := by
  cases k <;> decide

end RelationKind

/-- Columns of a table. -/
structure RelationSide where
  table : TableRef
  columns : List String
deriving DecidableEq, Repr

namespace RelationSide

/-- Reads a side. -/
def ofJson? (v : Json) : Option RelationSide := do
  let fields ← v.record? ["table", "columns"]
  let table ← Json.required? fields "table" TableRef.ofJson?
  let columns ← Json.withDefault? fields "columns" (Json.listOf? Json.string?) []
  return ⟨table, columns⟩

/-- Writes a side. -/
def toJson (s : RelationSide) : Json :=
  .object [("table", s.table.toJson), ("columns", .strings s.columns)]

end RelationSide

/-- A relation from its left side to its right side. -/
structure Relation where
  kind : RelationKind
  left : RelationSide
  right : RelationSide
deriving DecidableEq, Repr

namespace Relation

/-- The relation in the other direction. -/
def inverse (r : Relation) : Relation :=
  { r with left := r.right, right := r.left }

/-- Whether a relation leads from a table to itself. -/
def isSelfReference (r : Relation) : Bool :=
  r.left.table = r.right.table

/-- Whether a table is on a side of a relation. -/
def touches (r : Relation) (t : TableRef) : Bool :=
  r.left.table = t || r.right.table = t

/-- Whether a relation leads from one named database to another. -/
def isCrossDatabase (r : Relation) : Bool :=
  match r.left.table.database?, r.right.table.database? with
  | some a, some b => a ≠ b
  | _, _ => false

/-- Reads a relation. -/
def ofJson? (v : Json) : Option Relation := do
  let fields ← v.record? ["kind", "left", "right"]
  let kind ← Json.withDefault? fields "kind" (fun k => k.choice?.bind RelationKind.ofTag?)
    RelationKind.default
  let left ← Json.required? fields "left" RelationSide.ofJson?
  let right ← Json.required? fields "right" RelationSide.ofJson?
  return ⟨kind, left, right⟩

/-- Writes a relation. -/
def toJson (r : Relation) : Json :=
  .object [("kind", .string r.kind.tag), ("left", r.left.toJson), ("right", r.right.toJson)]

@[simp] theorem inverse_inverse (r : Relation) : r.inverse.inverse = r :=
  rfl

end Relation

end Keyset
