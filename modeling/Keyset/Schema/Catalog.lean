import Keyset.Schema.Relation

/-!
# Catalogs

A catalog holds tables and the relations between them, both in the order in which they were added.  A
table is added once, and a relation only after the tables on both its sides; between two tables there
may be any number of relations, also equal ones.  The registry publishes catalogs: what was published
does not change, so whoever holds on to it keeps reading the same.
-/

namespace Keyset

/-- Why something was not added to a catalog. -/
inductive SchemaError where
  | unknownTable (table : TableRef)
  | duplicateTable (table : TableRef)
deriving DecidableEq, Repr

namespace SchemaError

/-- The name of the class of an error. -/
def name : SchemaError → String
  | .unknownTable _ => "unknown-table"
  | .duplicateTable _ => "duplicate-table"

/-- The text of an error. -/
def message : SchemaError → String
  | .unknownTable table => "Table not registered: " ++ table.display
  | .duplicateTable table => "Table already registered: " ++ table.display

end SchemaError

/-- Tables and the relations between them. -/
structure Catalog where
  tables : List TableEntry
  /-- Where each table stands among the tables. -/
  places : List (TableRef × Nat)
  relations : List Relation
deriving DecidableEq, Repr

namespace Catalog

/-- The catalog without tables. -/
def empty : Catalog :=
  ⟨[], [], []⟩

/-! ### Reading -/

/-- Where a table stands among the tables. -/
def place? (c : Catalog) (table : TableRef) : Option Nat :=
  c.places.lookup table

/-- The entry of a table. -/
def entry? (c : Catalog) (table : TableRef) : Option TableEntry :=
  (c.place? table).bind (c.tables[·]?)

/-- The entry of the table of a database, a schema and a name. -/
def table? (c : Catalog) (database schema name : String) : Option TableEntry :=
  c.entry? ⟨database, schema, name⟩

/-- Whether a table is in the catalog. -/
def has (c : Catalog) (table : TableRef) : Bool :=
  (c.place? table).isSome

/-- The relations with a table on a side. -/
def relationsFor (c : Catalog) (table : TableRef) : List Relation :=
  c.relations.filter (·.touches table)

/-- The relations that lead from a table. -/
def outgoing (c : Catalog) (table : TableRef) : List Relation :=
  c.relations.filter fun r => r.left.table = table

/-- The relations that lead to a table. -/
def incoming (c : Catalog) (table : TableRef) : List Relation :=
  c.relations.filter fun r => r.right.table = table

/-- The relations that lead from one named database to another. -/
def crossDatabaseRelations (c : Catalog) : List Relation :=
  c.relations.filter Relation.isCrossDatabase

/-- Adds a name to names in strictly increasing order. -/
def insertName (name : String) : List String → List String
  | [] => [name]
  | other :: names =>
    match Ord.compare name other with
    | .lt => name :: other :: names
    | .eq => other :: names
    | .gt => other :: insertName name names

/-- The names of the databases of all tables, in strictly increasing order. -/
def databases (c : Catalog) : List String :=
  (c.tables.filterMap fun e => e.table.database?).foldr insertName []

end Catalog

/-! ### Adding -/

/-- A step in making a catalog: an answer or an error, and the catalog after it. -/
abbrev CatalogM := ExceptT SchemaError (StateM Catalog)

namespace CatalogM

/-- Adds a table behind the others. -/
def addTable (e : TableEntry) : CatalogM Unit := do
  if (← get).has e.table then
    throw (.duplicateTable e.table)
  else
    modify fun c =>
      { c with places := (e.table, c.tables.length) :: c.places, tables := c.tables ++ [e] }

/-- Fails if a table is not in the catalog. -/
def need (table : TableRef) : CatalogM Unit := do
  if !(← get).has table then
    throw (.unknownTable table)

/-- Adds a relation; of two unknown tables the left one is reported. -/
def addRelation (r : Relation) : CatalogM Unit := do
  need r.left.table
  need r.right.table
  modify fun c => { c with relations := c.relations ++ [r] }

/-- The catalog that a step makes of another, if it succeeds. -/
def applyTo (step : CatalogM Unit) (c : Catalog) : Except SchemaError Catalog :=
  match step.run c with
  | (.ok (), c) => .ok c
  | (.error e, _) => .error e

end CatalogM

namespace Catalog

/-- A catalog with one more table. -/
def addTable (c : Catalog) (e : TableEntry) : Except SchemaError Catalog :=
  (CatalogM.addTable e).applyTo c

/-- A catalog with one more relation. -/
def addRelation (c : Catalog) (r : Relation) : Except SchemaError Catalog :=
  (CatalogM.addRelation r).applyTo c

end Catalog

/-- A catalog that is published, one that is being made, and earlier ones that are held by name. -/
structure Registry where
  current : Catalog
  draft : Catalog
  held : Fields Catalog

namespace Registry

/-- The registry in which nothing has been published. -/
def empty : Registry :=
  ⟨.empty, .empty, []⟩

/-- Publishes the draft and starts an empty one. -/
def publish (r : Registry) : Registry :=
  { r with current := r.draft, draft := .empty }

/-- Holds on to the current catalog under a name. -/
def hold (r : Registry) (name : String) : Registry :=
  { r with held := r.held.put name r.current }

/-- The catalog held under a name, or the current one where no name is given. -/
def snapshot? (r : Registry) (name : Option String) : Option Catalog :=
  match name with
  | some name => r.held.get? name
  | none => some r.current

end Registry

end Keyset
