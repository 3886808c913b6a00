import Keyset.Proofs.Columns
import Keyset.Proofs.Query.Options
import Keyset.Proofs.Connection.Find
import Keyset.Proofs.Schema.Catalog

/-!
# Introspections of a store in memory

A valid introspection answers a catalog of columns (`execute_introspection`): of the collections that it
asks for, in the order in which it asks for them first, or else of all collections of the database in
increasing order, each seen through the first documents of the collection.  It changes nothing.
-/

namespace Keyset

/-- The names of the collections of a database are those of its collections, each once. -/
theorem Memory.mem_collectionNames {m : Memory} {database name : String} :
    name ∈ m.collectionNames database ↔
      ∃ c ∈ m.collections, c.database = database ∧ c.name = name := by
  rw [collectionNames, Catalog.mem_foldr_insertName, List.mem_map]
  simp only [List.mem_filter, decide_eq_true_iff, and_assoc]

namespace Connection

variable (conn : Connection) (m : Memory)

/-- The documents that a query sees of a collection: the first ones, as many as it asks for or, if it
does not say, as many as the connection samples. -/
def sampled (q : Query) (collection : String) : List Document :=
  (m.documents conn.database collection).take (q.requestedSize?.getD conn.sampleSize).toNat

/-- The collections that a query is about, in order: those that it asks for, by where it names them
first, or else all collections of the database, by name. -/
def Targets (q : Query) (collections : List String) : Prop :=
  match q.requestedCollections? with
  | some names =>
    collections.Pairwise (fun a b => names.idxOf a < names.idxOf b) ∧
      ∀ name, name ∈ collections ↔ name ∈ names
  | none =>
    collections.Pairwise (· < ·) ∧
      ∀ name, name ∈ collections ↔ ∃ c ∈ m.collections, c.database = conn.database ∧ c.name = name

variable {conn m}

theorem nodup_of_targets {q : Query} {collections : List String}
    (h : conn.Targets m q collections) : collections.Nodup := by
  unfold Targets at h
  split at h
  · refine h.1.imp ?_
    rintro a b hab rfl
    exact Nat.lt_irrefl _ hab
  · exact h.1.imp fun hab => ne_of_lt hab

variable (conn m)

/-- The columns of collections, inferred from the first documents of each. -/
theorem run_columnsOf (size : UInt64) (collections : List String) :
    (conn.columnsOf Memory.store size collections).run m =
      (.ok (Columns.inferAll conn.database collections fun collection =>
        (m.documents conn.database collection).take size.toNat), m) := by
  induction collections with
  | nil => rfl
  | cons collection rest ih =>
    have hsample : (Memory.store.sample conn.database collection size).run m =
        (.ok ((m.documents conn.database collection).take size.toNat), m) := rfl
    simp only [columnsOf, StoreM.run_bind, hsample, ih, StoreM.run_pure]
    rfl

/-- An introspection is about its targets, and sees of them what it samples. -/
theorem run_introspect {q : Query} {options : IntrospectOptions}
    (h : q.introspectOptions = .ok options) :
    ∃ collections, conn.Targets m q collections ∧
      (conn.introspect Memory.store q).run m =
        (.ok (.tabular Columns.header
          ((Columns.inferAll conn.database collections (conn.sampled m q)).map Column.row)), m) := by
  obtain ⟨hhas, hsize, hcollections⟩ := Query.requested_of_introspectOptions h
  -- the usual size of the options never shows: where none is given, that of the connection counts
  have hused : (if q.options.has OptionName.sampleSize.name then options.sampleSize
      else conn.sampleSize) = q.requestedSize?.getD conn.sampleSize := by
    rw [hhas, hsize]
    cases q.requestedSize? <;> rfl
  have hrun : ∀ collections, (conn.columnsOf Memory.store (q.requestedSize?.getD conn.sampleSize)
      collections).run m =
        (.ok (Columns.inferAll conn.database collections (conn.sampled m q)), m) :=
    conn.run_columnsOf m _
  unfold introspect
  simp only [StoreM.run_bind, StoreM.run_lift, h, hused, hcollections]
  unfold Targets
  cases q.requestedCollections? with
  | some names =>
    refine ⟨Query.distinct names,
      ⟨Query.pairwise_idxOf_distinct names, fun _ => Query.mem_distinct⟩, ?_⟩
    simp only [Option.map_some, StoreM.run_bind, StoreM.run_pure, hrun]
  | none =>
    refine ⟨m.collectionNames conn.database,
      ⟨Catalog.pairwise_foldr_insertName _, fun _ => Memory.mem_collectionNames⟩, ?_⟩
    have hlist : (Memory.store.listCollections conn.database).run m =
        (.ok (m.collectionNames conn.database), m) := rfl
    simp only [Option.map_none, StoreM.run_bind, hlist, StoreM.run_pure, hrun]

/-- **An introspection answers a catalog of columns** and changes nothing.  The collections come in the
order in which the query names them first, or in increasing order if it names none, and their columns
are the fields of the first documents. -/
theorem execute_introspection {q : Query} (hop : q.operation = .introspectColumns)
    (hvalid : q.validate = .ok ()) :
    ∃ collections rows, conn.Targets m q collections ∧
      (conn.execute Memory.store false q).run m = (.ok (.tabular Columns.header rows), m) ∧
      Columns.IsCatalog conn.database collections (conn.sampled m q) rows := by
  obtain ⟨options, hoptions⟩ := (Query.validate_introspection_iff hop).mp hvalid
  obtain ⟨collections, htargets, hrun⟩ := conn.run_introspect m hoptions
  refine ⟨collections, _, htargets, ?_, Columns.isCatalog_rows (nodup_of_targets htargets)⟩
  -- a cursor adds nothing to an introspection
  have hcursor : q.applyCursor = q := by
    unfold Query.applyCursor Query.applySeek
    rw [hop]
    split <;> rfl
  unfold execute
  simp only [Bool.false_eq_true, if_false, StoreM.run_bind, StoreM.run_lift, hvalid, hcursor, hop,
    hrun]

/-- Two collections of a site, and one of another. -/
def siteOfTwo : Memory :=
  ((Memory.empty.insertMany "site" "a"
    [[("n", .int32 1), ("_id", .int32 1)], [("_id", .int32 2), ("name", .string "x")]]).insertMany
      "other" "c" [[("_id", .int32 1)]]).insertMany "site" "b" [[("_id", .int32 1)], [("n", .null)]]

/-- An introspection of the first two documents, which names one collection twice and one that is not
there. -/
def repeatedNames : Query where
  operation := .introspectColumns
  options := [("sample_size", .ofInt64 2),
    ("collections", .array [.string "b", .string "missing", .string "a", .string "b"])]

theorem execute_introspection_repeatedNames :
    repeatedNames.operation = .introspectColumns ∧ repeatedNames.validate = .ok () ∧
      ∃ rows : List Row, ((toDatabase "site").execute Memory.store false repeatedNames).run siteOfTwo =
        (.ok (.tabular Columns.header rows), siteOfTwo) ∧
      ∀ name, (∃ row ∈ Columns.rowsOf "a" rows,
          Columns.cell? row "column_name" = some (.text name)) ↔
        ∃ doc ∈ siteOfTwo.documents "site" "a", name ∈ doc.names := by
  have hvalid : repeatedNames.validate = .ok () := rfl
  obtain ⟨collections, rows, ⟨-, hmem⟩, hrun, hcatalog⟩ :=
    execute_introspection (toDatabase "site") siteOfTwo rfl hvalid
  refine ⟨rfl, hvalid, rows, hrun, fun name => ?_⟩
  rw [hcatalog.column_iff, and_iff_right ((hmem "a").mpr (by decide))]
  rfl

example :
    ((toDatabase "site").execute Memory.store false repeatedNames).run siteOfTwo =
      (.ok (.tabular Columns.header
        [(⟨"site", "b", "_id", .integer, true, true, true, false⟩ : Column).row,
          (⟨"site", "b", "n", .string, true, false, false, false⟩ : Column).row,
          (⟨"site", "a", "_id", .integer, false, true, true, false⟩ : Column).row,
          (⟨"site", "a", "n", .integer, true, false, false, false⟩ : Column).row,
          (⟨"site", "a", "name", .string, true, false, false, false⟩ : Column).row]),
        siteOfTwo) := by
  rfl

end Connection

end Keyset
