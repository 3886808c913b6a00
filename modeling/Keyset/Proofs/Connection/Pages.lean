import Keyset.Proofs.Json.Text
import Keyset.Proofs.Paging
import Mathlib.Data.List.Perm.Subperm

/-!
# Walks through the pages of a find

A connection that walks through the pages of a find knows the row that it read last by its text.  Where
the texts of the documents are read back, it resumes as a `PageReader` does that knows the documents, so
the pages are those that such a reader fetches (`PageReader.exists_walk`).  A walk that is long enough
therefore answers each document which the filter accepts once, in order (`Connection.pages_complete`).
-/

namespace Keyset

open Keyset.Filter

/-! ### One page -/

theorem Query.resume_concat {q : Query} {info : CursorInfo} (hinfo : q.cursorInfo = some info)
    (front : List Document) {d : Document} {c : String} (hencode : info.encode d.toJson = some c) :
    q.resume (front ++ [d]) = { q with cursor := some (.string c) } := by
  unfold resume
  rw [List.getLast?_concat]
  simp [hinfo, hencode]

namespace Connection

theorem execute_of_find {q : Query} (hop : q.operation = .find) (conn : Connection) :
    conn.execute Memory.store false q = (do
      (q.validate : Except Error Unit)
      return .documents (some (← conn.find Memory.store q.applyCursor))) := by
  unfold execute
  rw [if_neg Bool.false_ne_true]
  dsimp only
  rw [operation_applyCursor, hop]

/-- The rows of a find are those of the documents that it answers. -/
theorem drain_execute_of_find {q : Query} (hop : q.operation = .find) (conn : Connection) :
    (do drain Memory.store false (← conn.execute Memory.store false q)) =
      List.map Rows.documentRow <$> conn.readDocuments q := by
  rw [readDocuments_eq_drainDocuments, execute_of_find hop]
  simp only [bind_assoc, pure_bind, drain, map_eq_pure_bind]

/-- If the text of a document is read back, the cursor after its row is that of the document. -/
theorem cursorAfter?_documentRow {q : Query} {info : CursorInfo} (hinfo : q.cursorInfo = some info)
    {d : Document} (hprints : Json.ofText? d.toJson.text = some d.toJson) :
    cursorAfter? q (Rows.documentRow d) = info.encode d.toJson := by
  show (q.cursorInfo.bind fun info => (Json.ofText? d.toJson.text).bind info.encode) = _
  rw [hinfo, hprints]
  rfl

section

variable {q : Query} (hop : q.operation = .find) {conn : Connection} {m m' : Memory}
include hop

theorem run_drain_execute {page : List Document}
    (hread : (conn.readDocuments q).run m = (.ok page, m')) :
    (do drain Memory.store false (← conn.execute Memory.store false q) :
      StoreM Memory (List Row)).run m = (.ok (page.map Rows.documentRow), m') := by
  rw [drain_execute_of_find hop, StoreM.run_map, hread]
  rfl

/-- A walk ends at an empty page. -/
theorem run_pages_of_nil (limit : Nat) (hread : (conn.readDocuments q).run m = (.ok [], m')) :
    (conn.pages Memory.store false (limit + 1) q).run m = (.ok [], m') := by
  rw [pages, ← bind_assoc, StoreM.run_bind, run_drain_execute hop hread]
  rfl

/-- A walk goes on behind the last row of a page. -/
theorem run_pages_of_concat {limit : Nat} {front : List Document} {d : Document}
    (hread : (conn.readDocuments q).run m = (.ok (front ++ [d]), m')) {cursor : String}
    (hcursor : cursorAfter? q (Rows.documentRow d) = some cursor) {rest : List Page} {m'' : Memory}
    (hrest : (conn.pages Memory.store false limit { q with cursor := some (.string cursor) }).run m' =
      (.ok rest, m'')) :
    (conn.pages Memory.store false (limit + 1) q).run m =
      (.ok (⟨(front ++ [d]).map Rows.documentRow, some cursor⟩ :: rest), m'') := by
  have hlast : ((front ++ [d]).map Rows.documentRow).getLast? = some (Rows.documentRow d) := by
    rw [List.map_append, List.map_singleton, List.getLast?_concat]
  rw [pages, ← bind_assoc, StoreM.run_bind, run_drain_execute hop hread]
  simp only [hlast, hcursor, StoreM.run_bind, hrest]
  rfl

end

end Connection

/-! ### Walks -/

namespace PageReader

variable {q : Query} {info : CursorInfo} {filter : Document} {size : Int64}
  {leading : List (OrderBy × ValueClass)} {last : OrderBy} {conn : Connection} {r r' : PageReader}

/-- A reader that fetches resumes after the page that it read. -/
theorem exists_read_of_step (h : step conn r .fetch = .ok r') :
    ∃ page m, (conn.readDocuments r.query).run r.memory = (.ok page, m) ∧
      r' = ⟨m, r.query.resume page, r.pages ++ [page]⟩ := by
  unfold step at h
  dsimp only at h
  rcases hread : (conn.readDocuments r.query).run r.memory with ⟨e | page, m⟩
  · rw [hread] at h
    cases h
  · rw [hread] at h
    exact ⟨page, m, rfl, (Except.ok.inj h).symm⟩

/-- Where a reader stands that fetches, one after the other, the pages which a walk from another reader
answers. -/
structure IsWalk (q : Query) (info : CursorInfo) (filter : Document) (conn : Connection)
    (limit : Nat) (r : PageReader) (pages : List Connection.Page) (r' : PageReader) : Prop where
  run_pages : (conn.pages Memory.store false limit r.query).run r.memory = (.ok pages, r'.memory)
  run_fetch : ∃ fetches ≤ limit, run conn r (List.replicate fetches .fetch) = .ok r'
  inOrder : InOrder q info filter conn r'
  documents_eq : r'.documents conn = r.documents conn
  prefix_rows : r.rows <+: r'.rows
  /-- The walk answers what the reader has read since. -/
  rows_eq : r'.rows.map Rows.documentRow =
    r.rows.map Rows.documentRow ++ pages.flatMap Connection.Page.rows
  /-- A walk with more steps than there are documents left reads all of them. -/
  complete : (r.documents conn).length < limit + r.rows.length →
    ∀ d ∈ r.documents conn, holds filter d = true → IsAhead info r d → d ∈ r'.rows

/-- No more documents were read than there are. -/
theorem InOrder.length_le (h : InOrder q info filter conn r) :
    r.rows.length ≤ (r.documents conn).length := by
  have hnodup : r.rows.Nodup := by
    refine h.pairwise_lt.imp fun {a b} hab heq => ?_
    rw [heq, Sorting.compare_self] at hab
    cases hab
  exact (hnodup.subperm fun row hrow => (h.selected row hrow).1).length_le

/-- The query of a reader orders by the columns of the find. -/
theorem InOrder.cursorInfo (hq : PagedFind q info filter size leading last)
    (h : InOrder q info filter conn r) : r.query.cursorInfo = some info := by
  rw [h.query, ← hq.cursorInfo]
  unfold Query.resume
  split <;> rfl

/-- A walk stands where the fetches lead. -/
theorem exists_walk (hq : PagedFind q info filter size leading last) (limit : Nat)
    (hdocs : PagedDocuments filter leading last (r.documents conn))
    (hprints : ∀ d ∈ r.documents conn, Json.ofText? d.toJson.text = some d.toJson)
    (h : InOrder q info filter conn r) :
    ∃ pages r', IsWalk q info filter conn limit r pages r' := by
  induction limit generalizing r with
  | zero =>
    refine ⟨[], r, rfl, ⟨0, Nat.le_refl _, rfl⟩, h, rfl, List.prefix_refl _, ?_, fun hlength => ?_⟩
    · rw [List.flatMap_nil, List.append_nil]
    · have hle := h.length_le
      omega
  | succ limit ih =>
    obtain ⟨r₁, page, rest, hstep, horder, hdocuments, hpages, hmem, hrest, -, hshort⟩ :=
      step_fetch hq hdocs h
    obtain ⟨page', m, hread, rfl⟩ := exists_read_of_step hstep
    obtain rfl : page' = page := by simpa using hpages
    have hrows := rows_of_pages hpages
    have hop : r.query.operation = .find := by
      rw [h.query, Query.operation_resume]
      exact hq.operation
    rcases List.eq_nil_or_concat page' with rfl | ⟨front, d, rfl⟩
    · -- an empty page is the last one, and there is nothing ahead
      obtain rfl : rest = [] := hshort (by
        have hsize := hq.size
        simp only [List.length_nil]
        omega)
      refine ⟨[], _, Connection.run_pages_of_nil hop limit hread, ⟨1, by omega, ?_⟩, horder,
        hdocuments, ?_, ?_, ?_⟩
      · exact congrArg (· >>= pure) hstep
      · rw [hrows]
        exact List.prefix_append _ _
      · rw [hrows, List.flatMap_nil, List.append_nil, List.append_nil]
      · intro _ d hd hholds hahead
        have hnone := (hmem d).mpr ⟨hd, hholds, hahead⟩
        cases hnone
    · rw [List.concat_eq_append] at hread hstep horder hdocuments hmem hrest hpages hrows
      have hd : d ∈ r.documents conn := ((hmem d).mp (by simp)).1
      obtain ⟨c, -, -, hencode, -⟩ := hq.exists_seek hdocs hd
      have hinfo := h.cursorInfo hq
      have hquery := Query.resume_concat hinfo front hencode
      have hcursor := (Connection.cursorAfter?_documentRow hinfo (hprints d hd)).trans hencode
      obtain ⟨pages, r', hwalk⟩ := ih (hdocuments ▸ hdocs) (hdocuments ▸ hprints) horder
      obtain ⟨fetches, hfetches, hrun⟩ := hwalk.run_fetch
      have hpages := hwalk.run_pages
      dsimp only at hpages
      rw [hquery] at hpages
      refine ⟨_, r', Connection.run_pages_of_concat hop hread hcursor hpages,
        ⟨fetches + 1, by omega, ?_⟩, hwalk.inOrder, hwalk.documents_eq.trans hdocuments, ?_, ?_, ?_⟩
      · rw [List.replicate_succ, run, List.foldlM_cons, hstep]
        exact hrun
      · exact (hrows ▸ List.prefix_append _ _ : r.rows <+: _).trans hwalk.prefix_rows
      · rw [hwalk.rows_eq, hrows, List.map_append, List.append_assoc, List.flatMap_cons]
      · intro hlength d' hd' hholds hahead
        rcases List.mem_append.mp ((hmem d').mpr ⟨hd', hholds, hahead⟩) with hpage | hlater
        · exact hwalk.prefix_rows.subset (hrows ▸ List.mem_append_right _ hpage)
        · -- what is not on the page is ahead of it
          refine hwalk.complete ?_ d' (hdocuments ▸ hd') hholds (hrest d' hlater)
          rw [hdocuments, hrows, List.length_append, List.length_append, List.length_singleton]
          omega

end PageReader

/-! ### Long walks -/

namespace Connection

variable {q : Query} {info : CursorInfo} {filter : Document} {size : Int64}
  {leading : List (OrderBy × ValueClass)} {last : OrderBy}

/-- **A walk through the pages of a find answers what it selects**: a walk with more steps than there
are documents, all of them with texts that are read back, answers the rows of the documents which the
filter accepts, each once, in strict order. -/
theorem pages_complete (hq : PagedFind q info filter size leading last) (conn : Connection)
    (m : Memory)
    (hdocs : PagedDocuments filter leading last (m.documents conn.database q.collectionName))
    (hprints : ∀ d ∈ m.documents conn.database q.collectionName,
      d.toJson.Fits Json.maxDepth ∧ d.toJson.DoublesRead) {limit : Nat}
    (hlimit : (m.documents conn.database q.collectionName).length < limit) :
    ∃ (pages : List Page) (m' : Memory) (rows : List Document),
      (conn.pages Memory.store false limit q).run m = (.ok pages, m') ∧
      pages.flatMap Page.rows = rows.map Rows.documentRow ∧
      rows.Pairwise (fun a b => Sorting.compare (Sorting.keys info.sortDocument) a b = .lt) ∧
      ∀ d, d ∈ rows ↔
        d ∈ m.documents conn.database q.collectionName ∧ holds filter d = true := by
  obtain ⟨pages, r, hwalk⟩ := PageReader.exists_walk (r := PageReader.start m q) hq limit hdocs
    (fun d hd => Json.ofText?_text (hprints d hd).1 (hprints d hd).2)
    (PageReader.inOrder_start q info filter conn m)
  refine ⟨pages, _, r.rows, hwalk.run_pages, hwalk.rows_eq.symm, hwalk.inOrder.pairwise_lt,
    fun d => ⟨fun hd => ?_, fun hd => ?_⟩⟩
  · obtain ⟨hmem, hholds⟩ := hwalk.inOrder.selected d hd
    rw [hwalk.documents_eq] at hmem
    exact ⟨hmem, hholds⟩
  · exact hwalk.complete (Nat.lt_of_lt_of_le hlimit (Nat.le_add_right _ _)) d hd.1 hd.2 nofun

/-- The page of a product, and where the next one would start. -/
example :
    let walk := (toDatabase "shop").pages Memory.store false 2 PageReader.findProducts
    (walk.run PageReader.oneProduct).1.toOption.map (List.map fun page => (page.rows, page.next)) =
      some [([[.text "\x7b\"_id\":1,\"price\":5\x7d"]], some "7:5:1")] := by decide +kernel

end Connection

end Keyset
