import Keyset.Proofs.Connection.Find
import Keyset.Proofs.Cursor.Issued

/-!
# Pages of a find

A find with a limit is read page by page: each page resumes after the last row of those before it,
while documents are inserted into the collection.  Where the columns hold values of one class each and
a number of its own for each document in the last, the documents read so far are in strict order and
nothing that comes before the last of them was missed (`step_preserves`, `run_preserves`).  A page that
is not full therefore completes the reading.
-/

namespace Keyset

open Keyset.Filter

/-! ### Readers -/

/-- The query that resumes after the last of the documents read, if there is one. -/
def Query.resume (q : Query) (rows : List Document) : Query :=
  match rows.getLast? with
  | none => q
  | some row =>
    { q with cursor := (q.cursorInfo.bind fun info => info.encode row.toJson).map Json.string }

/-- What happens while a find is read page by page. -/
inductive PageEvent where
  | insert (docs : List Document)
  | fetch

/-- A find of which some pages were read. -/
structure PageReader where
  memory : Memory
  query : Query
  pages : List (List Document)

namespace PageReader

/-- The documents read so far. -/
def rows (r : PageReader) : List Document :=
  r.pages.flatten

/-- The documents of the collection that is read. -/
def documents (conn : Connection) (r : PageReader) : List Document :=
  r.memory.documents conn.database r.query.collectionName

/-- An insertion into the collection, or the next page. -/
def step (conn : Connection) (r : PageReader) : PageEvent → Except Error PageReader
  | .insert docs =>
    .ok { r with memory := r.memory.insertMany conn.database r.query.collectionName docs }
  | .fetch =>
    match (conn.readDocuments r.query).run r.memory with
    | (.ok page, m) => .ok ⟨m, r.query.resume page, r.pages ++ [page]⟩
    | (.error e, _) => .error e

/-- What happens one after the other. -/
def run (conn : Connection) (r : PageReader) (events : List PageEvent) : Except Error PageReader :=
  events.foldlM (step conn) r

end PageReader

/-- The documents that are inserted while a find is read. -/
def PageEvent.inserted : PageEvent → List Document
  | .insert docs => docs
  | .fetch => []

@[simp] theorem Query.operation_resume (q : Query) (rows : List Document) :
    (q.resume rows).operation = q.operation := by
  unfold resume
  split <;> rfl

@[simp] theorem Query.collectionName_resume (q : Query) (rows : List Document) :
    (q.resume rows).collectionName = q.collectionName := by
  unfold resume
  split <;> rfl

/-- Only the last document read counts. -/
theorem Query.resume_resume (q : Query) (rows page : List Document) :
    (q.resume rows).resume page = q.resume (rows ++ page) := by
  unfold resume
  rw [List.getLast?_append]
  cases page.getLast? with
  | none => simp
  | some row => cases rows.getLast? <;> rfl

/-! ### Finds that can be read by pages -/

/-- A find whose pages of at most `size` documents are ordered by columns: leading ones of one class
each, and a last one for numbers. -/
structure PagedFind (q : Query) (info : CursorInfo) (filter : Document) (size : Int64)
    (leading : List (OrderBy × ValueClass)) (last : OrderBy) : Prop where
  operation : q.operation = .find
  collection : q.collectionName ≠ ""
  filter : q.filterDocument = .ok filter
  options : q.findOptions = .ok { limit := some size }
  size : 1 ≤ size.toInt
  cursorInfo : q.cursorInfo = some info
  cursor : q.cursor = none
  lead : info.hasPlainLead = true
  orderBy : info.orderBy = leading.map Prod.fst ++ [last]
  nodup : (info.orderBy.map OrderBy.field).Nodup
  fields : Seek.OrdersByFields info
  suits : ∀ c ∈ leading, c.2.suits c.1.kind = true
  last : ValueClass.integer.suits last.kind = true

/-- Documents with values of the classes of leading columns, a number of its own for each in the last
one, and no error from a filter. -/
structure PagedDocuments (filter : Document) (leading : List (OrderBy × ValueClass)) (last : OrderBy)
    (docs : List Document) : Prop where
  evaluates : ∀ d ∈ docs, Evaluates filter d
  leading : ∀ d ∈ docs, ∀ c ∈ leading, ∃ v, d.at? c.1.field = some v ∧ c.2.contains v = true
  numbered : Numbered last.field docs

theorem PagedDocuments.sublist {filter : Document} {leading : List (OrderBy × ValueClass)}
    {last : OrderBy} {docs docs' : List Document} (h : PagedDocuments filter leading last docs)
    (hsub : docs'.Sublist docs) : PagedDocuments filter leading last docs' where
  evaluates d hd := h.evaluates d (hsub.subset hd)
  leading d hd := h.leading d (hsub.subset hd)
  numbered := h.numbered.sublist hsub

namespace PagedFind

variable {q : Query} {info : CursorInfo} {filter : Document} {size : Int64}
  {leading : List (OrderBy × ValueClass)} {last : OrderBy} {docs : List Document}

/-- The keys of the order. -/
theorem keys_eq (hq : PagedFind q info filter size leading last) :
    Sorting.keys info.sortDocument = info.orderBy.map OrderBy.key :=
  CursorInfo.keys_sortDocument hq.nodup

theorem orderBy_ne_nil (hq : PagedFind q info filter size leading last) : info.orderBy ≠ [] := by
  rw [hq.orderBy]
  simp

theorem key_last_mem (hq : PagedFind q info filter size leading last) :
    last.key ∈ Sorting.keys info.sortDocument := by
  rw [hq.keys_eq, hq.orderBy, List.map_append]
  exact List.mem_append_right _ List.mem_cons_self

/-- The values of documents in a column belong to one class. -/
theorem exists_contains (hq : PagedFind q info filter size leading last)
    (hdocs : PagedDocuments filter leading last docs) {col : OrderBy} (hcol : col ∈ info.orderBy) :
    ∃ cls : ValueClass, ∀ d ∈ docs, ∃ v, d.at? col.field = some v ∧ cls.contains v = true := by
  rw [hq.orderBy, List.mem_append, List.mem_map, List.mem_singleton] at hcol
  rcases hcol with ⟨c, hc, rfl⟩ | rfl
  · exact ⟨c.2, fun d hd => hdocs.leading d hd c hc⟩
  · exact ⟨.integer, fun d hd => hdocs.numbered.exists_contains hd⟩

theorem fitsRow (hq : PagedFind q info filter size leading last)
    (hdocs : PagedDocuments filter leading last docs) {d : Document} (hd : d ∈ docs) :
    FitsRow d info.orderBy := by
  rw [hq.orderBy]
  refine fitsRow_of_contains (fun col hcol => ?_) hq.last (hdocs.numbered.exists_contains hd)
  obtain ⟨c, hc, rfl⟩ := List.mem_map.mp hcol
  obtain ⟨x, hx, hcontains⟩ := hdocs.leading d hd c hc
  exact ⟨c.2, x, hq.suits c hc, hx, hcontains⟩

theorem sortable (hq : PagedFind q info filter size leading last)
    (hdocs : PagedDocuments filter leading last docs) {d : Document} (hd : d ∈ docs) :
    Sorting.Sortable (Sorting.keys info.sortDocument) d := by
  rw [hq.keys_eq]
  intro key hkey
  obtain ⟨col, hcol, rfl⟩ := List.mem_map.mp hkey
  obtain ⟨cls, hcls⟩ := hq.exists_contains hdocs hcol
  obtain ⟨v, hv, hcontains⟩ := hcls d hd
  show (Sorting.sortValue col.field d).isComparable = true
  rw [Sorting.sortValue, hv]
  exact Value.isComparable_of_isScalar (ValueClass.isScalar_of_contains hcontains)

/-- Sorted documents are in strict order. -/
theorem pairwise_lt_sort (hq : PagedFind q info filter size leading last)
    (hdocs : PagedDocuments filter leading last docs) :
    (Sorting.sort info.sortDocument docs).Pairwise fun a b =>
      Sorting.compare (Sorting.keys info.sortDocument) a b = .lt :=
  Sorting.pairwise_lt_sort hq.key_last_mem hdocs.numbered fun _ hd => hq.sortable hdocs hd

theorem compare_lt_trans (hq : PagedFind q info filter size leading last)
    (hdocs : PagedDocuments filter leading last docs) {a b c : Document} (ha : a ∈ docs)
    (hb : b ∈ docs) (hc : c ∈ docs)
    (hab : Sorting.compare (Sorting.keys info.sortDocument) a b = .lt)
    (hbc : Sorting.compare (Sorting.keys info.sortDocument) b c = .lt) :
    Sorting.compare (Sorting.keys info.sortDocument) a c = .lt :=
  Sorting.compare_lt_trans (hq.sortable hdocs ha) (hq.sortable hdocs hb) (hq.sortable hdocs hc)
    hab hbc

/-- The filter of the cursor of a document is the order of what comes after the document. -/
theorem exists_seek (hq : PagedFind q info filter size leading last)
    (hdocs : PagedDocuments filter leading last docs) {row : Document} (hrow : row ∈ docs) :
    ∃ c seek after, info.encode row.toJson = some c ∧ info.seek c = .ok (some seek) ∧
      Document.ofJson seek = .ok after ∧ ∀ d ∈ docs, Evaluates after d ∧
        (holds after d = true ↔
          Sorting.compare (Sorting.keys info.sortDocument) row d = .lt) := by
  obtain ⟨c, seek, columns, hencode, hseek, hafter, husable, hkeys, halike⟩ :=
    exists_seek_of_fits hq.lead hq.orderBy_ne_nil hq.fields (hq.fitsRow hdocs hrow)
  refine ⟨c, seek, _, hencode, hseek, hafter, fun d hd => ?_⟩
  have haccepts := Seek.accepts_filterDocument husable d
  refine ⟨⟨_, haccepts⟩, ?_⟩
  rw [holds_of_accepts haccepts, hq.keys_eq, ← hkeys]
  refine Seek.passes_iff_compare_lt husable halike fun column hcolumn => ?_
  obtain ⟨y, hy, hyv⟩ := halike column hcolumn
  -- the document and the row hold values of one class in the column
  obtain ⟨col, hcol, hfield⟩ := Seek.exists_orderBy_of_mem hkeys hcolumn
  obtain ⟨cls, hcls⟩ := hq.exists_contains hdocs hcol
  obtain ⟨x, hx, hxcls⟩ := hcls d hd
  obtain ⟨y', hy', hycls⟩ := hcls row hrow
  rw [hfield] at hx hy'
  obtain rfl : y = y' := Option.some.inj (hy.symm.trans hy')
  refine ⟨x, hx, ?_, Value.isComparable_of_isScalar (ValueClass.isScalar_of_contains hxcls)⟩
  rw [ValueClass.rank_of_contains hxcls, ← ValueClass.rank_of_contains hycls, hyv.rank_eq]

/-- The filter of a find that resumes accepts what comes after the last document read. -/
theorem exists_filterDocument (hq : PagedFind q info filter size leading last)
    (hdocs : PagedDocuments filter leading last docs) {rows : List Document}
    (hrows : ∀ row ∈ rows, row ∈ docs) :
    ∃ selects, (q.resume rows).applyCursor.filterDocument = .ok selects ∧
      ∀ d ∈ docs, Evaluates selects d ∧ (holds selects d = true ↔ holds filter d = true ∧
        ∀ row ∈ rows.getLast?, Sorting.compare (Sorting.keys info.sortDocument) row d = .lt) := by
  unfold Query.resume
  cases hlast : rows.getLast? with
  | none =>
    have hseek : q.seek? = none := Connection.seek?_of_no_cursor hq.cursor
    refine ⟨filter, ?_, fun d hd => ⟨hdocs.evaluates d hd, by simp⟩⟩
    rw [Connection.applyCursor_of_no_seek hseek]
    exact hq.filter
  | some row =>
    -- the last row was selected, so its values fit the columns and its cursor can be used
    obtain ⟨c, seek, after, hencode, hseek, hafter, haccepts⟩ :=
      hq.exists_seek hdocs (hrows row (List.mem_of_getLast? hlast))
    have hcursor : (q.cursorInfo.bind fun info => info.encode row.toJson).map Json.string =
        some (.string c) := by
      rw [hq.cursorInfo, Option.bind_some, hencode]
      rfl
    obtain ⟨selects, hselects, hconjoins⟩ := Connection.filterDocument_applyCursor
      (q := { q with cursor := some (.string c) }) hq.operation hq.cursorInfo rfl hseek hq.filter
      hafter
    refine ⟨selects, ?_, fun d hd => ?_⟩
    · dsimp only
      rw [hcursor]
      exact hselects
    · obtain ⟨hevaluates, hholds⟩ := haccepts d hd
      have hboth : Evaluates selects d :=
        (hconjoins.evaluates_iff d).mpr ⟨hdocs.evaluates d hd, fun _ => hevaluates⟩
      refine ⟨hboth, ?_⟩
      rw [hconjoins.holds_eq d hboth, Bool.and_eq_true, hholds]
      simp

/-- A find that resumes is sorted by its columns and has the limit of the find. -/
theorem findOptions_resume (hq : PagedFind q info filter size leading last) (rows : List Document) :
    Connection.findOptions (q.resume rows) =
      .ok { limit := some size, sort := some info.sortDocument } := by
  have hown : (q.resume rows).findOptions = .ok { limit := some size } := by
    rw [← hq.options]
    unfold Query.resume
    split <;> rfl
  have hinfo : (q.resume rows).cursorInfo = some info := by
    rw [← hq.cursorInfo]
    unfold Query.resume
    split <;> rfl
  exact Connection.findOptions_of_cursorInfo hown rfl hinfo hq.orderBy_ne_nil

theorem arrange_eq (hq : PagedFind q info filter size leading last) (spec : Document)
    (docs : List Document) :
    FindOptions.arrange { limit := some size, sort := some spec } docs =
      (Sorting.sort spec docs).take size.toInt.natAbs := by
  -- a limit of zero would be none
  obtain ⟨k, hk⟩ : ∃ k, size.toInt.natAbs = k + 1 := ⟨size.toInt.natAbs - 1, by
    have := hq.size
    omega⟩
  show FindOptions.page _ (Sorting.sort spec docs) = _
  rw [FindOptions.page, Option.getD_some, hk]
  rfl

/-- A page is what comes first in the order among what the find selects after the documents read; if
it is not full, there is nothing more. -/
theorem exists_page (hq : PagedFind q info filter size leading last)
    (hdocs : PagedDocuments filter leading last docs) {rows : List Document}
    (hrows : ∀ row ∈ rows, row ∈ docs) :
    ∃ page rest, Connection.answer (q.resume rows) docs = .ok page ∧
      (page ++ rest).Pairwise (fun a b =>
        Sorting.compare (Sorting.keys info.sortDocument) a b = .lt) ∧
      (∀ d, d ∈ page ++ rest ↔ d ∈ docs ∧ holds filter d = true ∧
        ∀ row ∈ rows.getLast?, Sorting.compare (Sorting.keys info.sortDocument) row d = .lt) ∧
      page.length ≤ size.toInt.natAbs ∧ (page.length < size.toInt.natAbs → rest = []) := by
  obtain ⟨selects, hselects, hholds⟩ := hq.exists_filterDocument hdocs hrows
  let sorted := Sorting.sort info.sortDocument (docs.filter (holds selects))
  refine ⟨sorted.take size.toInt.natAbs, sorted.drop size.toInt.natAbs, ?_, ?_, fun d => ?_,
    List.length_take_le _ _, fun hshort => ?_⟩
  · have hop : (q.resume rows).operation = .find := by
      rw [Query.operation_resume]
      exact hq.operation
    have hname : (q.resume rows).collectionName ≠ "" := by
      rw [Query.collectionName_resume]
      exact hq.collection
    exact (Connection.answer_eq_ok_iff hop).mpr ⟨hname, selects, _, hselects,
      hq.findOptions_resume rows, fun d hd => (hholds d hd).1, (hq.arrange_eq _ _).symm⟩
  · rw [List.take_append_drop]
    exact hq.pairwise_lt_sort (hdocs.sublist List.filter_sublist)
  · rw [List.take_append_drop, (Sorting.sort_perm _ _).mem_iff, List.mem_filter]
    constructor
    · rintro ⟨hd, h⟩
      exact ⟨hd, (hholds d hd).2.mp h⟩
    · rintro ⟨hd, h⟩
      exact ⟨hd, (hholds d hd).2.mpr h⟩
  · rw [List.length_take] at hshort
    exact List.drop_eq_nil_of_le (by omega)

end PagedFind

/-! ### Events -/

namespace PageReader

variable {q : Query} {info : CursorInfo} {filter : Document} {size : Int64}
  {leading : List (OrderBy × ValueClass)} {last : OrderBy} {conn : Connection} {r : PageReader}

/-- The documents read are in strict order, were selected from the collection, and the next page
resumes after the last of them. -/
structure InOrder (q : Query) (info : CursorInfo) (filter : Document) (conn : Connection)
    (r : PageReader) : Prop where
  query : r.query = q.resume r.rows
  pairwise_lt : r.rows.Pairwise fun a b =>
    Sorting.compare (Sorting.keys info.sortDocument) a b = .lt
  selected : ∀ row ∈ r.rows, row ∈ r.documents conn ∧ holds filter row = true

/-- Whether a document comes after all that were read. -/
def IsAhead (info : CursorInfo) (r : PageReader) (d : Document) : Prop :=
  ∀ row ∈ r.rows, Sorting.compare (Sorting.keys info.sortDocument) row d = .lt

/-- Whether a document was read, or stands in the collection after all that were read. -/
def IsCovered (info : CursorInfo) (conn : Connection) (r : PageReader) (d : Document) : Prop :=
  d ∈ r.rows ∨ (d ∈ r.documents conn ∧ IsAhead info r d)

/-- What comes after the last document read comes after all of them. -/
theorem isAhead_iff (hq : PagedFind q info filter size leading last)
    (hdocs : PagedDocuments filter leading last (r.documents conn))
    (h : InOrder q info filter conn r) {d : Document} (hd : d ∈ r.documents conn) :
    IsAhead info r d ↔
      ∀ row ∈ r.rows.getLast?, Sorting.compare (Sorting.keys info.sortDocument) row d = .lt := by
  constructor
  · exact fun hahead row hrow => hahead row (List.mem_of_getLast? hrow)
  · intro hlast row hrow
    have hne : r.rows ≠ [] := List.ne_nil_of_mem hrow
    have hend : r.rows.getLast hne ∈ r.rows := List.getLast_mem hne
    have hlt := hlast _ (List.getLast?_eq_getLast_of_ne_nil hne)
    have hpairwise := h.pairwise_lt
    rw [← List.dropLast_append_getLast hne] at hrow hpairwise
    rcases List.mem_append.mp hrow with hrow | hrow
    · -- the rows are in strict order, so the last of them stands for all
      have hrowlast := (List.pairwise_append.mp hpairwise).2.2 row hrow _ List.mem_cons_self
      exact hq.compare_lt_trans hdocs (h.selected row ((List.dropLast_sublist _).subset hrow)).1
        (h.selected _ hend).1 hd hrowlast hlt
    · rwa [List.mem_singleton.mp hrow]

theorem rows_of_pages {r r' : PageReader} {page : List Document}
    (h : r'.pages = r.pages ++ [page]) : r'.rows = r.rows ++ page := by
  rw [rows, h, List.flatten_append, List.flatten_singleton]
  rfl

/-- An answer is the next page, and reading it leaves the collection as it is. -/
theorem step_fetch_of_answer (hop : r.query.operation = .find) {page : List Document}
    (hanswer : Connection.answer r.query (r.documents conn) = .ok page) :
    ∃ r', step conn r .fetch = .ok r' ∧ r'.query = r.query.resume page ∧
      r'.pages = r.pages ++ [page] ∧ r'.documents conn = r.documents conn := by
  obtain ⟨m, hread, hcollections⟩ := Connection.run_readDocuments hop conn r.memory
  refine ⟨⟨m, r.query.resume page, r.pages ++ [page]⟩, ?_, rfl, rfl, ?_⟩
  · rw [step, hread]
    show (match (Connection.answer r.query (r.documents conn), m) with
      | (.ok page, m) => _ | (.error e, _) => _) = _
    rw [hanswer]
  · show m.documents conn.database (r.query.resume page).collectionName = _
    rw [Query.collectionName_resume, Memory.documents, hcollections]
    rfl

/-- A page of selected documents ahead, in strict order, keeps the documents read in order. -/
theorem InOrder.append (h : InOrder q info filter conn r) {r' : PageReader} {page : List Document}
    (hquery : r'.query = r.query.resume page) (hrows : r'.rows = r.rows ++ page)
    (hdocuments : r'.documents conn = r.documents conn)
    (hpage : page.Pairwise fun a b =>
      Sorting.compare (Sorting.keys info.sortDocument) a b = .lt)
    (hselected : ∀ d ∈ page, d ∈ r.documents conn ∧ holds filter d = true ∧ IsAhead info r d) :
    InOrder q info filter conn r' where
  query := by rw [hquery, hrows, h.query, Query.resume_resume]
  pairwise_lt := by
    rw [hrows, List.pairwise_append]
    exact ⟨h.pairwise_lt, hpage, fun a ha b hb => (hselected b hb).2.2 a ha⟩
  selected := by
    intro row hrow
    rw [hdocuments]
    rw [hrows, List.mem_append] at hrow
    rcases hrow with hrow | hrow
    · exact h.selected row hrow
    · obtain ⟨hd, hholds, -⟩ := hselected row hrow
      exact ⟨hd, hholds⟩

/-- The next page is what comes first among the selected documents ahead. -/
theorem step_fetch (hq : PagedFind q info filter size leading last)
    (hdocs : PagedDocuments filter leading last (r.documents conn))
    (h : InOrder q info filter conn r) :
    ∃ r' page rest, step conn r .fetch = .ok r' ∧ InOrder q info filter conn r' ∧
      r'.documents conn = r.documents conn ∧ r'.pages = r.pages ++ [page] ∧
      (∀ d, d ∈ page ++ rest ↔
        d ∈ r.documents conn ∧ holds filter d = true ∧ IsAhead info r d) ∧
      (∀ d ∈ rest, IsAhead info r' d) ∧
      page.length ≤ size.toInt.natAbs ∧ (page.length < size.toInt.natAbs → rest = []) := by
  obtain ⟨page, rest, hanswer, hpairwise, hmem, hlength, hrest⟩ :=
    hq.exists_page hdocs fun row hrow => (h.selected row hrow).1
  have hmem' : ∀ d, d ∈ page ++ rest ↔
      d ∈ r.documents conn ∧ holds filter d = true ∧ IsAhead info r d := by
    intro d
    rw [hmem]
    constructor
    · rintro ⟨hd, hholds, hlast⟩
      exact ⟨hd, hholds, (isAhead_iff hq hdocs h hd).mpr hlast⟩
    · rintro ⟨hd, hholds, hahead⟩
      exact ⟨hd, hholds, (isAhead_iff hq hdocs h hd).mp hahead⟩
  have hop : r.query.operation = .find := by
    rw [h.query, Query.operation_resume]
    exact hq.operation
  rw [← h.query] at hanswer
  obtain ⟨r', hstep, hquery, hpages, hdocuments⟩ := step_fetch_of_answer hop hanswer
  have hrows := rows_of_pages hpages
  obtain ⟨hpage, -, hpagerest⟩ := List.pairwise_append.mp hpairwise
  have horder : InOrder q info filter conn r' :=
    h.append hquery hrows hdocuments hpage fun d hd => (hmem' d).mp (List.mem_append_left _ hd)
  refine ⟨r', page, rest, hstep, horder, hdocuments, hpages, hmem', ?_, hlength, hrest⟩
  -- what does not fit on the page comes after the page too
  intro d hd row hrow
  rw [hrows, List.mem_append] at hrow
  rcases hrow with hrow | hrow
  · exact ((hmem' d).mp (List.mem_append_right _ hd)).2.2 row hrow
  · exact hpagerest row hrow d hd

/-- Nothing that happens breaks the order of the documents read or leaves a document behind. -/
theorem step_preserves (hq : PagedFind q info filter size leading last) {e : PageEvent}
    (hdocs : PagedDocuments filter leading last (r.documents conn ++ e.inserted))
    (h : InOrder q info filter conn r) :
    ∃ r', step conn r e = .ok r' ∧ InOrder q info filter conn r' ∧
      r'.documents conn = r.documents conn ++ e.inserted ∧ r.rows <+: r'.rows ∧
      ∀ d, holds filter d = true → IsCovered info conn r d → IsCovered info conn r' d := by
  cases e with
  | insert docs =>
    let m := r.memory.insertMany conn.database r.query.collectionName docs
    have hdocuments : documents conn { r with memory := m } = r.documents conn ++ docs :=
      Memory.documents_insertMany _ _ _ _
    refine ⟨_, rfl, ⟨h.query, h.pairwise_lt, fun row hrow => ?_⟩, hdocuments, List.prefix_refl _,
      fun d _ hd => ?_⟩
    · obtain ⟨hmem, hholds⟩ := h.selected row hrow
      rw [hdocuments]
      exact ⟨List.mem_append_left _ hmem, hholds⟩
    · rcases hd with hd | ⟨hmem, hahead⟩
      · exact .inl hd
      · refine .inr ⟨?_, hahead⟩
        rw [hdocuments]
        exact List.mem_append_left _ hmem
  | fetch =>
    rw [PageEvent.inserted, List.append_nil] at hdocs ⊢
    obtain ⟨r', page, rest, hstep, horder, hdocuments, hpages, hmem, hrest, -, -⟩ :=
      step_fetch hq hdocs h
    have hrows := rows_of_pages hpages
    refine ⟨r', hstep, horder, hdocuments, hrows ▸ List.prefix_append _ _, fun d hholds hd => ?_⟩
    rcases hd with hd | ⟨hd, hahead⟩
    · exact .inl (hrows ▸ List.mem_append_left _ hd)
    · -- a document ahead is on the page or ahead of it
      rcases List.mem_append.mp ((hmem d).mpr ⟨hd, hholds, hahead⟩) with hpage | hd'
      · exact .inl (hrows ▸ List.mem_append_right _ hpage)
      · exact .inr ⟨hdocuments ▸ hd, hrest d hd'⟩

theorem run_append (r : PageReader) (es es' : List PageEvent) :
    run conn r (es ++ es') = (run conn r es).bind fun r' => run conn r' es' :=
  List.foldlM_append

/-- Nothing that happens breaks the order of the documents read or leaves a document behind, however
much happens. -/
theorem run_preserves (hq : PagedFind q info filter size leading last) {es : List PageEvent}
    (hdocs : PagedDocuments filter leading last
      (r.documents conn ++ es.flatMap PageEvent.inserted))
    (h : InOrder q info filter conn r) :
    ∃ r', run conn r es = .ok r' ∧ InOrder q info filter conn r' ∧
      r'.documents conn = r.documents conn ++ es.flatMap PageEvent.inserted ∧ r.rows <+: r'.rows ∧
      ∀ d, holds filter d = true → IsCovered info conn r d → IsCovered info conn r' d := by
  -- what was covered stays covered, event by event
  induction es generalizing r with
  | nil => exact ⟨r, rfl, h, (List.append_nil _).symm, List.prefix_refl _, fun _ _ hd => hd⟩
  | cons e es ih =>
    rw [List.flatMap_cons, ← List.append_assoc] at hdocs ⊢
    obtain ⟨r₁, hstep, horder, hdocuments, hrows, hcovered⟩ :=
      step_preserves hq (hdocs.sublist (List.sublist_append_left _ _)) h
    rw [← hdocuments] at hdocs ⊢
    obtain ⟨r', hrun, horder', hdocuments', hrows', hcovered'⟩ := ih hdocs horder
    refine ⟨r', ?_, horder', hdocuments', hrows.trans hrows', fun d hholds hd =>
      hcovered' d hholds (hcovered d hholds hd)⟩
    rw [run, List.foldlM_cons, hstep]
    exact hrun

/-- A reader that has read nothing. -/
def start (m : Memory) (q : Query) : PageReader :=
  ⟨m, q, []⟩

theorem inOrder_start (q : Query) (info : CursorInfo) (filter : Document) (conn : Connection)
    (m : Memory) : InOrder q info filter conn (start m q) where
  query := rfl
  pairwise_lt := .nil
  selected := nofun

/-- An inserted document has an event. -/
theorem exists_insert {es : List PageEvent} {d : Document}
    (hd : d ∈ es.flatMap PageEvent.inserted) :
    ∃ before docs after, es = before ++ .insert docs :: after ∧ d ∈ docs := by
  obtain ⟨e, he, hmem⟩ := List.mem_flatMap.mp hd
  obtain ⟨before, after, hsplit⟩ := List.append_of_mem he
  cases e with
  | insert docs => exact ⟨before, docs, after, hsplit, hmem⟩
  | fetch => cases hmem

/-- What happens can be cut in two. -/
theorem run_split (hq : PagedFind q info filter size leading last) {m : Memory}
    {before after : List PageEvent}
    (hdocs : PagedDocuments filter leading last (m.documents conn.database q.collectionName ++
      (before ++ after).flatMap PageEvent.inserted))
    (hrun : run conn (start m q) (before ++ after) = .ok r) :
    ∃ r₁, run conn (start m q) before = .ok r₁ ∧ InOrder q info filter conn r₁ ∧
      PagedDocuments filter leading last
        (r₁.documents conn ++ after.flatMap PageEvent.inserted) ∧ run conn r₁ after = .ok r := by
  have hstart : m.documents conn.database q.collectionName = (start m q).documents conn := rfl
  rw [List.flatMap_append, ← List.append_assoc, hstart] at hdocs
  obtain ⟨r₁, hrun₁, horder, hdocuments, -, -⟩ := run_preserves hq
    (hdocs.sublist (List.sublist_append_left _ _)) (inOrder_start q info filter conn m)
  rw [run_append, hrun₁] at hrun
  exact ⟨r₁, hrun₁, horder, hdocuments ▸ hdocs, hrun⟩

/-- An inserted document that is read came after all documents read before its insertion. -/
theorem exists_insert_of_mem_rows (hq : PagedFind q info filter size leading last)
    {m : Memory} {es : List PageEvent}
    (hdocs : PagedDocuments filter leading last
      (m.documents conn.database q.collectionName ++ es.flatMap PageEvent.inserted))
    (hrun : run conn (start m q) es = .ok r) {later : List Document} (hrows : r.rows <+: later)
    (hlater : later.Pairwise fun a b =>
      Sorting.compare (Sorting.keys info.sortDocument) a b = .lt)
    {d : Document} (hd : d ∈ later) (hinserted : d ∈ es.flatMap PageEvent.inserted) :
    ∃ before docs after r₁, es = before ++ .insert docs :: after ∧ d ∈ docs ∧
      run conn (start m q) before = .ok r₁ ∧ IsAhead info r₁ d := by
  obtain ⟨before, docs, after, rfl, hmem⟩ := exists_insert hinserted
  obtain ⟨r₁, hrun₁, horder₁, hdocs₁, hafter⟩ := run_split hq hdocs hrun
  obtain ⟨r', hrun', -, -, hrows', -⟩ := run_preserves hq hdocs₁ horder₁
  obtain rfl : r' = r := Except.ok.inj (hrun'.symm.trans hafter)
  refine ⟨before, docs, after, r₁, rfl, hmem, hrun₁, ?_⟩
  -- the document was not read before it was in the collection
  have hnew : d ∉ r₁.rows := by
    intro hread
    have hnodup := List.nodup_append.mp (List.map_append ▸ hdocs₁.numbered.nodup)
    have hold := (horder₁.selected d hread).1
    have hnew : d ∈ (PageEvent.insert docs :: after).flatMap PageEvent.inserted :=
      List.mem_append_left _ hmem
    exact hnodup.2.2 _ (List.mem_map_of_mem hold) _ (List.mem_map_of_mem hnew) rfl
  obtain ⟨more, hmore⟩ := hrows'.trans hrows
  rw [← hmore] at hd hlater
  have hahead := (List.mem_append.mp hd).resolve_left hnew
  exact fun row hrow => (List.pairwise_append.mp hlater).2.2 row hrow d hahead

/-- A document that is inserted ahead of what was read is not left behind. -/
theorem isCovered_of_insert (hq : PagedFind q info filter size leading last) {m : Memory}
    {before after : List PageEvent} {docs : List Document}
    (hdocs : PagedDocuments filter leading last (m.documents conn.database q.collectionName ++
      (before ++ .insert docs :: after).flatMap PageEvent.inserted))
    (hrun : run conn (start m q) (before ++ .insert docs :: after) = .ok r)
    {r₁ : PageReader} (hrun₁ : run conn (start m q) before = .ok r₁) {d : Document}
    (hholds : holds filter d = true) (hd : d ∈ docs) (hahead : IsAhead info r₁ d) :
    IsCovered info conn r d := by
  obtain ⟨r₁', hrun₁', horder₁, hdocs₁, hafter⟩ := run_split hq hdocs hrun
  obtain rfl : r₁' = r₁ := Except.ok.inj (hrun₁'.symm.trans hrun₁)
  rw [List.flatMap_cons, ← List.append_assoc] at hdocs₁
  -- the insertion puts the document ahead, and nothing later leaves it behind
  obtain ⟨r₂, hstep, horder₂, hdocuments₂, -, -⟩ :=
    step_preserves hq (hdocs₁.sublist (List.sublist_append_left _ _)) horder₁
  rw [← hdocuments₂] at hdocs₁
  obtain ⟨r', hrun', -, -, -, hcovered⟩ := run_preserves hq hdocs₁ horder₂
  rw [run, List.foldlM_cons, hstep] at hafter
  obtain rfl : r' = r := Except.ok.inj (hrun'.symm.trans hafter)
  refine hcovered d hholds (.inr ⟨?_, ?_⟩)
  · rw [hdocuments₂]
    exact List.mem_append_right _ hd
  · rw [← Except.ok.inj hstep]
    exact hahead

/-- Reading a find page by page never fails, while documents are inserted.  The documents read are in
strict order, so that none is read twice, and the filter accepts them.  Once a page is not full, they
are all those which the filter accepts that were there from the start, or were inserted when nothing
that comes after them had been read. -/
theorem run_fetch_complete (hq : PagedFind q info filter size leading last) (conn : Connection)
    (m : Memory) (es : List PageEvent)
    (hdocs : PagedDocuments filter leading last
      (m.documents conn.database q.collectionName ++ es.flatMap PageEvent.inserted)) :
    ∃ r, run conn (start m q) (es ++ [.fetch]) = .ok r ∧ r.rows.Nodup ∧
      r.rows.Pairwise (fun a b =>
        Sorting.compare (Sorting.keys info.sortDocument) a b = .lt) ∧
      (∀ d ∈ r.rows, d ∈ r.documents conn ∧ holds filter d = true) ∧
      ∀ page, r.pages.getLast? = some page → (page.length : Int) < size.toInt →
        ∀ d, d ∈ r.rows ↔ holds filter d = true ∧
          (d ∈ m.documents conn.database q.collectionName ∨
            ∃ before docs after r₁, es = before ++ .insert docs :: after ∧ d ∈ docs ∧
              run conn (start m q) before = .ok r₁ ∧ IsAhead info r₁ d) := by
  obtain ⟨r₀, hrun, horder₀, hdocuments₀, -, hcovered₀⟩ :=
    run_preserves (r := start m q) hq hdocs (inOrder_start q info filter conn m)
  obtain ⟨r, lastPage, rest, hstep, horder, hdocuments, hpages, hmem, -, -, hshort⟩ :=
    step_fetch hq (hdocuments₀ ▸ hdocs) horder₀
  have hrows := rows_of_pages hpages
  refine ⟨r, ?_, ?_, horder.pairwise_lt, horder.selected, ?_⟩
  · rw [run_append, hrun]
    show run conn r₀ [.fetch] = .ok r
    rw [run, List.foldlM_cons, hstep]
    rfl
  · refine horder.pairwise_lt.imp fun {a b} hab heq => ?_
    rw [heq, Sorting.compare_self] at hab
    cases hab
  · intro page hpage hlength d
    rw [hpages, List.getLast?_concat, Option.some.injEq] at hpage
    subst hpage
    obtain rfl : rest = [] := hshort (by omega)
    rw [List.append_nil] at hmem
    constructor
    · intro hd
      refine ⟨(horder.selected d hd).2, ?_⟩
      have hsource := (horder.selected d hd).1
      rw [hdocuments, hdocuments₀, List.mem_append] at hsource
      refine hsource.imp_right fun hinserted => ?_
      exact exists_insert_of_mem_rows hq hdocs hrun (hrows ▸ List.prefix_append _ _)
        horder.pairwise_lt hd hinserted
    · rintro ⟨hholds, hsource⟩
      have hcovered : IsCovered info conn r₀ d := by
        rcases hsource with hinitial | ⟨before, docs, after, r₁, rfl, hd, hrun₁, hahead⟩
        · exact hcovered₀ d hholds (.inr ⟨hinitial, nofun⟩)
        · exact isCovered_of_insert hq hdocs hrun hrun₁ hholds hd hahead
      rw [hrows, List.mem_append]
      exact hcovered.imp_right fun h => (hmem d).mpr ⟨h.1, hholds, h.2⟩

/-- Products, dearest first. -/
def dearestFirst : CursorInfo :=
  ⟨7, "", [⟨"price", .descending, none⟩, ⟨"id", .ascending, none⟩]⟩

/-- A find of the products of a shop, two on a page. -/
def findProducts : Query where
  operation := .find
  collection := some "products"
  options := [("limit", .ofInt64 2)]
  cursorInfo := some dearestFirst

/-- A product of a shop. -/
def firstProduct : Document := [("_id", .int32 1), ("price", .int32 5)]

/-- A product that costs less than the first. -/
def cheaper : Document := [("_id", .int32 2), ("price", .int32 3)]

/-- A product that costs more than the first. -/
def dearer : Document := [("_id", .int32 3), ("price", .int32 9)]

/-- A shop with the first product. -/
def oneProduct : Memory :=
  Memory.empty.insertMany "shop" "products" [firstProduct]

/-- The other two products come into the shop while it is read. -/
def twoProducts : List PageEvent :=
  [.fetch, .insert [cheaper], .fetch, .insert [dearer]]

theorem pagedFind_findProducts : PagedFind findProducts dearestFirst [] 2
    [(⟨"price", .descending, none⟩, .integer)] ⟨"id", .ascending, none⟩ where
  operation := rfl
  collection := by decide
  filter := rfl
  options := rfl
  size := by decide
  cursorInfo := rfl
  cursor := rfl
  lead := rfl
  orderBy := rfl
  nodup := by decide
  fields := by
    unfold Seek.OrdersByFields
    decide
  suits := by decide
  last := rfl

theorem pagedDocuments_twoProducts :
    PagedDocuments [] [(⟨"price", .descending, none⟩, .integer)] ⟨"id", .ascending, none⟩
      (oneProduct.documents "shop" "products" ++ twoProducts.flatMap PageEvent.inserted) := by
  have hall : oneProduct.documents "shop" "products" ++ twoProducts.flatMap PageEvent.inserted =
      [firstProduct, cheaper, dearer] := rfl
  rw [hall]
  refine ⟨fun d _ => ⟨true, rfl⟩, ?_, ?_, by decide⟩
  · simp only [List.forall_mem_cons]
    exact ⟨⟨⟨_, rfl, rfl⟩, nofun⟩, ⟨⟨_, rfl, rfl⟩, nofun⟩, ⟨⟨_, rfl, rfl⟩, nofun⟩, nofun⟩
  · simp only [List.forall_mem_cons]
    exact ⟨⟨1, rfl, by decide⟩, ⟨2, rfl, by decide⟩, ⟨3, rfl, by decide⟩, nofun⟩

/-- The last of three pages is empty.  The cheaper product was read, and the dearer one, which came too
late for its place in the order, was not. -/
theorem run_fetch_complete_twoProducts :
    PagedFind findProducts dearestFirst [] 2 [(⟨"price", .descending, none⟩, .integer)]
      ⟨"id", .ascending, none⟩ ∧
    PagedDocuments [] [(⟨"price", .descending, none⟩, .integer)] ⟨"id", .ascending, none⟩
      (oneProduct.documents "shop" "products" ++ twoProducts.flatMap PageEvent.inserted) ∧
    ∃ r, run (.toDatabase "shop") (start oneProduct findProducts) (twoProducts ++ [.fetch]) = .ok r ∧
      r.rows.Nodup ∧ r.pages.map List.length = [1, 1, 0] ∧
      firstProduct ∈ r.rows ∧ cheaper ∈ r.rows ∧ dearer ∉ r.rows := by
  -- what is read, and that the cheaper product comes after the first page
  have hread : ((run (.toDatabase "shop") (start oneProduct findProducts)
      (twoProducts ++ [.fetch])).toOption.map fun r => (r.pages.map List.length,
        r.rows.any fun row => Sorting.compare (Sorting.keys dearestFirst.sortDocument) row dearer =
          .eq)) = some ([1, 1, 0], false) := by decide +kernel
  have hfirst : ((run (.toDatabase "shop") (start oneProduct findProducts) [.fetch]).toOption.map
      fun r => r.rows.all fun row => Sorting.compare (Sorting.keys dearestFirst.sortDocument) row
        cheaper = .lt) = some true := by decide +kernel
  obtain ⟨r, hrun, hnodup, -, -, hcomplete⟩ := run_fetch_complete pagedFind_findProducts
    (.toDatabase "shop") oneProduct twoProducts pagedDocuments_twoProducts
  rw [hrun] at hread
  obtain ⟨hpages, hdearer⟩ := Prod.mk.inj (Option.some.inj hread)
  have hlast : r.pages.getLast? = some [] := by
    have hlength : (r.pages.map List.length).getLast? = some 0 := by rw [hpages]; rfl
    rw [List.getLast?_map, Option.map_eq_some_iff] at hlength
    obtain ⟨page, hpage, hlength⟩ := hlength
    rw [hpage, List.eq_nil_of_length_eq_zero hlength]
  have hcomplete := hcomplete [] hlast (by decide)
  refine ⟨pagedFind_findProducts, pagedDocuments_twoProducts, r, hrun, hnodup, hpages, ?_, ?_, ?_⟩
  · exact (hcomplete _).mpr ⟨rfl, .inl List.mem_cons_self⟩
  · cases hrun₁ : run (.toDatabase "shop") (start oneProduct findProducts) [.fetch] with
    | error e =>
      rw [hrun₁] at hfirst
      cases hfirst
    | ok r₁ =>
      rw [hrun₁] at hfirst
      refine (hcomplete _).mpr ⟨rfl, .inr ⟨[.fetch], [cheaper], [.fetch, .insert [dearer]], r₁, rfl,
        List.mem_singleton_self _, hrun₁, fun row hrow => ?_⟩⟩
      exact of_decide_eq_true (List.all_eq_true.mp (Option.some.inj hfirst) row hrow)
  · intro hmem
    have hself := List.any_eq_false.mp hdearer _ hmem
    simp [Sorting.compare_self] at hself

end PageReader

end Keyset
