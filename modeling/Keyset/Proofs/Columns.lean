import Keyset.Proofs.Columns.Summary
import Mathlib.Data.List.Nodup
import Mathlib.Data.List.Perm.Basic

/-!
# Columns that were inferred

The columns of a collection are the names of the fields of its documents, each once, in the order in
which they came up (`names_summarize`), but that the field `_id` comes first (`names_infer`).  The rows
of the columns of several collections are a catalog (`isCatalog_rows`): no two rows are about one column,
the rows of a collection stand together, and the keys are the fields `_id`.
-/

namespace Keyset.Columns

open FirstPlaces (nodup_eraseDups)

/-! ### Names of columns -/

/-- The fields that are summarized are those of the documents, each once and in order. -/
theorem names_summarize (docs : List Document) :
    (summarize docs).map FieldSummary.name = (docs.flatMap Fields.names).eraseDups := by
  rw [summarize_eq, List.map_map]
  exact List.map_id _

section

variable (database collection : String) (docs : List Document)

/-- The columns of documents are their fields, the field `_id` before the others. -/
theorem names_infer :
    (infer database collection docs).map Column.name =
      (docs.flatMap Fields.names).eraseDups.filter (· = Projection.idField) ++
        (docs.flatMap Fields.names).eraseDups.filter (· ≠ Projection.idField) := by
  have hnames : (infer database collection docs).map Column.name =
      (idFirst (summarize docs)).map FieldSummary.name := List.map_map
  rw [hnames, idFirst, List.map_append, ← names_summarize, List.filter_map, List.filter_map]
  rfl

theorem names_infer_perm :
    ((infer database collection docs).map Column.name).Perm
      (docs.flatMap Fields.names).eraseDups := by
  rw [names_infer]
  simpa only [decide_not] using List.filter_append_perm (· = Projection.idField) _

theorem nodup_names_infer : ((infer database collection docs).map Column.name).Nodup :=
  (names_infer_perm database collection docs).nodup_iff.mpr (nodup_eraseDups _)

theorem mem_names_infer {name : String} :
    name ∈ (infer database collection docs).map Column.name ↔ ∃ doc ∈ docs, name ∈ doc.names := by
  rw [(names_infer_perm database collection docs).mem_iff, List.mem_eraseDups, List.mem_flatMap]

variable {database collection docs} {c : Column}

/-- A column of the field `_id` is the first one. -/
theorem head?_infer_of_id (hc : c ∈ infer database collection docs)
    (hid : c.name = Projection.idField) : (infer database collection docs).head? = some c := by
  have hnames := names_infer database collection docs
  have hmem : Projection.idField ∈ (docs.flatMap Fields.names).eraseDups := by
    rw [← (names_infer_perm database collection docs).mem_iff, ← hid]
    exact List.mem_map_of_mem hc
  obtain ⟨k, hk⟩ := Nat.exists_eq_add_one.mpr (List.count_pos_iff.mpr hmem)
  rw [List.filter_eq, hk, List.replicate_succ, List.cons_append] at hnames
  cases hcolumns : infer database collection docs with
  | nil =>
    rw [hcolumns] at hc
    cases hc
  | cons first rest =>
    rw [hcolumns, List.map_cons, List.cons.injEq] at hnames
    -- the first column has the same name, and there is only one of it
    have hinj := List.inj_on_of_nodup_map (nodup_names_infer database collection docs)
    have hfirst : first ∈ infer database collection docs := hcolumns ▸ List.mem_cons_self
    rw [hinj hc hfirst (hid.trans hnames.1.symm)]
    rfl

theorem exists_of_mem_infer (hc : c ∈ infer database collection docs) :
    c.database = database ∧ c.collection = collection ∧
      c.primaryKey = decide (c.name = Projection.idField) ∧ c.uniqueKey = c.primaryKey := by
  obtain ⟨s, -, rfl⟩ := List.mem_map.mp hc
  exact ⟨rfl, rfl, rfl, rfl⟩

end

/-! ### Catalogs of columns -/

/-- The cell of a row that stands under the name of a column of the table. -/
def cell? (row : Row) (column : String) : Option Cell :=
  (header.zip row).lookup column

/-- What a row is about: the column of its name in its collection and its database. -/
def subject (row : Row) : List (Option Cell) :=
  ["table_schema", "table_name", "column_name"].map (cell? row)

section

variable (c : Column)

theorem cell?_collection : cell? c.row "table_name" = some (.text c.collection) := rfl

theorem cell?_name : cell? c.row "column_name" = some (.text c.name) := rfl

theorem cell?_primaryKey : cell? c.row "is_primary_key" = some (.flag c.primaryKey) := rfl

theorem cell?_uniqueKey : cell? c.row "is_unique_key" = some (.flag c.uniqueKey) := rfl

theorem subject_row :
    subject c.row = [some (.text c.database), some (.text c.collection), some (.text c.name)] := rfl

end

/-- The rows that are about a collection. -/
def rowsOf (collection : String) (rows : List Row) : List Row :=
  rows.filter fun row => cell? row "table_name" = some (.text collection)

/-- Rows that tell the columns of collections, of each from a sample of its documents. -/
structure IsCatalog (database : String) (collections : List String)
    (sample : String → List Document) (rows : List Row) : Prop where
  /-- A row has eleven cells: four texts, the last of which names a class, four flags, and three texts
  that are empty. -/
  shape : ∀ row ∈ rows, ∃ (collection name : String) (dataType : TypeClass)
    (nullable primaryKey uniqueKey array : Bool), row =
      [.text database, .text collection, .text name, .text dataType.name, .flag nullable,
        .flag primaryKey, .flag uniqueKey, .flag array, .text "", .text "", .text ""]
  /-- No two rows are about one column. -/
  distinct : rows.Pairwise fun r s => subject r ≠ subject s
  /-- The rows of a collection stand together, and the collections follow each other in order. -/
  grouped : rows = collections.flatMap (rowsOf · rows)
  /-- The columns of a collection are the fields of the documents in its sample. -/
  column_iff : ∀ collection name,
    (∃ row ∈ rowsOf collection rows, cell? row "column_name" = some (.text name)) ↔
      collection ∈ collections ∧ ∃ doc ∈ sample collection, name ∈ doc.names
  /-- Of the rows of a collection, that of the field `_id` is the first. -/
  id_first : ∀ collection, ∀ row ∈ rowsOf collection rows,
    cell? row "column_name" = some (.text "_id") → (rowsOf collection rows).head? = some row
  /-- The field `_id` is the only one that is flagged as a key. -/
  key_iff : ∀ row ∈ rows,
    (cell? row "is_primary_key" = some (.flag true) ↔ cell? row "column_name" = some (.text "_id")) ∧
      (cell? row "is_unique_key" = some (.flag true) ↔
        cell? row "column_name" = some (.text "_id"))

/-- The columns of collections, one collection after the other. -/
def inferAll (database : String) (collections : List String) (sample : String → List Document) :
    List Column :=
  collections.flatMap fun collection => infer database collection (sample collection)

variable {database : String} {collections : List String} {sample : String → List Document}

theorem exists_of_mem_inferAll {c : Column} (hc : c ∈ inferAll database collections sample) :
    ∃ collection ∈ collections, c ∈ infer database collection (sample collection) :=
  List.mem_flatMap.mp hc

/-- Among the columns of collections that are listed once are those of each of them. -/
theorem filter_inferAll (h : collections.Nodup) (collection : String) :
    (inferAll database collections sample).filter (·.collection = collection) =
      if collection ∈ collections then infer database collection (sample collection) else [] := by
  have hfilter : ∀ other, (infer database other (sample other)).filter (·.collection = collection) =
      if other = collection then infer database other (sample other) else [] := by
    intro other
    split
    case isTrue hother =>
      rw [List.filter_eq_self]
      exact fun c hc => decide_eq_true ((exists_of_mem_infer hc).2.1.trans hother)
    case isFalse hother =>
      rw [List.filter_eq_nil_iff]
      intro c hc
      rw [(exists_of_mem_infer hc).2.1]
      simpa using hother
  unfold inferAll
  rw [List.filter_flatMap]
  simp only [hfilter]
  induction collections with
  | nil => rfl
  | cons first rest ih =>
    obtain ⟨hfirst, hrest⟩ := List.nodup_cons.mp h
    rw [List.flatMap_cons, ih hrest]
    by_cases heq : first = collection
    · subst heq
      rw [if_pos rfl, if_neg hfirst, List.append_nil, if_pos List.mem_cons_self]
    · have hne : collection ≠ first := fun h => heq h.symm
      rw [if_neg heq, List.nil_append]
      simp only [List.mem_cons, hne, false_or]

theorem rowsOf_inferAll (h : collections.Nodup) (collection : String) :
    rowsOf collection ((inferAll database collections sample).map Column.row) =
      if collection ∈ collections then (infer database collection (sample collection)).map Column.row
      else [] := by
  have hrows : rowsOf collection ((inferAll database collections sample).map Column.row) =
      ((inferAll database collections sample).filter (·.collection = collection)).map Column.row := by
    rw [rowsOf, List.filter_map]
    congr 2
    funext c
    simp [cell?_collection]
  rw [hrows, filter_inferAll h]
  split <;> rfl

theorem cell?_name_eq_iff {c : Column} {name : String} :
    cell? c.row "column_name" = some (.text name) ↔ c.name = name := by
  rw [cell?_name, Option.some.injEq, Cell.text.injEq]

/-- Columns are told apart by what their rows are about. -/
theorem pairwise_subject (h : collections.Nodup) :
    (inferAll database collections sample).Pairwise fun c d => subject c.row ≠ subject d.row := by
  refine List.pairwise_flatMap.mpr ⟨?_, ?_⟩
  · -- the columns of one collection have different names
    intro collection _
    have hnames := nodup_names_infer database collection (sample collection)
    rw [List.Nodup, List.pairwise_map] at hnames
    refine hnames.imp fun hne heq => hne ?_
    rw [subject_row, subject_row] at heq
    simp only [List.cons.injEq, Option.some.injEq, Cell.text.injEq] at heq
    exact heq.2.2.1
  · refine h.imp fun hne c hc d hd heq => hne ?_
    rw [subject_row, subject_row] at heq
    simp only [List.cons.injEq, Option.some.injEq, Cell.text.injEq] at heq
    rw [← (exists_of_mem_infer hc).2.1, ← (exists_of_mem_infer hd).2.1]
    exact heq.2.1

/-- **The columns of collections that are listed once are a catalog.** -/
theorem isCatalog_rows (h : collections.Nodup) :
    IsCatalog database collections sample
      ((inferAll database collections sample).map Column.row) where
  shape := by
    intro row hrow
    obtain ⟨c, hc, rfl⟩ := List.mem_map.mp hrow
    obtain ⟨collection, -, hc⟩ := exists_of_mem_inferAll hc
    obtain ⟨hdatabase, -⟩ := exists_of_mem_infer hc
    rw [Column.row, hdatabase]
    exact ⟨_, _, _, _, _, _, _, rfl⟩
  distinct := by
    rw [List.pairwise_map]
    exact pairwise_subject h
  grouped := by
    have hrows : ∀ collection ∈ collections,
        rowsOf collection ((inferAll database collections sample).map Column.row) =
          (infer database collection (sample collection)).map Column.row := by
      intro collection hcollection
      rw [rowsOf_inferAll h, if_pos hcollection]
    rw [List.flatMap_congr hrows, inferAll, List.map_flatMap]
  column_iff := by
    intro collection name
    rw [rowsOf_inferAll h, ← mem_names_infer database collection]
    split
    case isTrue hcollection =>
      rw [and_iff_right hcollection, List.mem_map]
      constructor
      · rintro ⟨row, hrow, hname⟩
        obtain ⟨c, hc, rfl⟩ := List.mem_map.mp hrow
        exact ⟨c, hc, cell?_name_eq_iff.mp hname⟩
      · rintro ⟨c, hc, hname⟩
        exact ⟨c.row, List.mem_map_of_mem hc, cell?_name_eq_iff.mpr hname⟩
    case isFalse hcollection =>
      constructor
      · rintro ⟨row, hrow, -⟩
        cases hrow
      · exact fun hmem => absurd hmem.1 hcollection
  id_first := by
    intro collection row hrow hname
    rw [rowsOf_inferAll h] at hrow ⊢
    split at hrow
    case isTrue hcollection =>
      obtain ⟨c, hc, rfl⟩ := List.mem_map.mp hrow
      rw [if_pos hcollection, List.head?_map, head?_infer_of_id hc (cell?_name_eq_iff.mp hname)]
      rfl
    case isFalse => cases hrow
  key_iff := by
    intro row hrow
    obtain ⟨c, hc, rfl⟩ := List.mem_map.mp hrow
    obtain ⟨collection, -, hc⟩ := exists_of_mem_inferAll hc
    obtain ⟨-, -, hprimary, hunique⟩ := exists_of_mem_infer hc
    rw [cell?_primaryKey, cell?_uniqueKey, hunique, hprimary, cell?_name_eq_iff, Option.some.injEq,
      Cell.flag.injEq, decide_eq_true_iff]
    exact ⟨Iff.rfl, Iff.rfl⟩

end Keyset.Columns
