import Keyset.Proofs.Connection.Find
import Keyset.Proofs.Cursor.Issued
import Keyset.Proofs.Cursor.Own
import Keyset.Proofs.Projection
import Keyset.Proofs.Sorting.Stable
import Mathlib.Data.List.Nodup

/-!
# Finds that resume

A find that resumes after a row does not answer it again, provided that its cursor can be used and that
the row's identifier is read back without loss (`read_of_seek`); a cursor that cannot be used starts
from the beginning (`read_of_no_seek`).

It answers the rows that come after the row, but only those whose first difference from it is between
values of one rank (`read_resumed`).  A row that differs by a null, by nothing, or by a value of
another type comes after the cursor's row and is lost.
-/

namespace Keyset

open Keyset.Filter

/-! ### Rows and their documents -/

/-- The row of a document. -/
def FindOptions.project (options : FindOptions) (doc : Document) : Document :=
  (options.projection.map fun spec => Projection.apply spec doc).getD doc

/-- The rows of a find are those of selected documents. -/
theorem FindOptions.exists_of_mem_arrange {options : FindOptions} {selected : List Document}
    {row : Document} (h : row ∈ options.arrange selected) :
    ∃ d ∈ selected, row = options.project d := by
  have hpage : ∀ docs, options.page docs ⊆ docs := by
    intro docs d hd
    unfold page at hd
    dsimp only at hd
    split at hd
    · exact List.mem_of_mem_drop hd
    · exact List.mem_of_mem_drop (List.mem_of_mem_take hd)
  have hsorted : ∀ d ∈ (options.sort.map fun spec => Sorting.sort spec selected).getD selected,
      d ∈ selected := by
    cases options.sort with
    | none => exact fun d hd => hd
    | some spec => exact fun d hd => (Sorting.sort_perm spec selected).mem_iff.mp hd
  unfold arrange at h
  unfold project
  cases hprojection : options.projection with
  | none =>
    rw [hprojection] at h
    exact ⟨row, hsorted row (hpage _ h), rfl⟩
  | some spec =>
    rw [hprojection] at h
    obtain ⟨d, hd, rfl⟩ := List.mem_map.mp h
    exact ⟨d, hsorted d (hpage _ hd), rfl⟩

/-- Rows have the identifiers of their documents, or none does. -/
theorem FindOptions.exists_keepsId (options : FindOptions) :
    ∃ keeps : Bool, ∀ d, (options.project d).get? "_id" = if keeps then d.get? "_id" else none := by
  unfold project
  cases options.projection with
  | none => exact ⟨true, fun _ => rfl⟩
  | some spec => exact Projection.exists_keepsId spec

/-- Where documents have identifiers of their own, no row shows that of a document that is not
selected. -/
theorem FindOptions.get?_id_ne {options : FindOptions} {docs selected : List Document}
    (hids : (docs.map fun d => d.get? "_id").Nodup) (hselected : ∀ d ∈ selected, d ∈ docs)
    {d : Document} (hd : d ∈ docs) (hnot : d ∉ selected)
    (hid : ∃ id, (options.project d).get? "_id" = some id) {row : Document}
    (hrow : row ∈ options.arrange selected) :
    row.get? "_id" ≠ (options.project d).get? "_id" := by
  intro hsame
  obtain ⟨d', hd', rfl⟩ := exists_of_mem_arrange hrow
  obtain ⟨id, hid⟩ := hid
  obtain ⟨keeps, hkeeps⟩ := options.exists_keepsId
  rw [hid, hkeeps] at hsame
  rw [hkeeps] at hid
  -- the identifier that both rows show is that of both documents
  cases keeps with
  | false => cases hid
  | true =>
    have heq : d' = d := List.inj_on_of_nodup_map hids (hselected d' hd') hd (hsame.trans hid.symm)
    exact hnot (heq ▸ hd')

/-- Whether rows show the values of their documents in all columns. -/
def FindOptions.ShowsColumns (options : FindOptions) (info : CursorInfo) : Prop :=
  ∀ spec, options.projection = some spec → ∀ col ∈ info.orderBy,
    Projection.copiesInto spec col.field = false

theorem Cursor.writtenTexts?_of_lookup? {row row' : Json} {cols : List OrderBy}
    {texts : List (List Char)} (h : writtenTexts? row cols = some texts)
    (hrow : ∀ col ∈ cols, ∀ w, lookup? row col.field = some w → lookup? row' col.field = some w) :
    writtenTexts? row' cols = some texts := by
  induction cols generalizing texts with
  | nil => exact h
  | cons col cols ih =>
    rw [List.forall_mem_cons] at hrow
    obtain ⟨w, s, rest, hw, hs, hrest, rfl⟩ := writtenTexts?_cons h
    rw [writtenTexts?, hrow.1 w hw, ih hrest hrow.2]
    simp [hs]

/-- The cursor of a row is that of its document. -/
theorem FindOptions.encode_of_project {options : FindOptions} {info : CursorInfo}
    (hshows : options.ShowsColumns info) {d : Document} {c : String}
    (h : info.encode (options.project d).toJson = some c) : info.encode d.toJson = some c := by
  obtain ⟨hne, texts, htexts, hc⟩ := CursorInfo.encode_eq_some_iff.mp h
  refine CursorInfo.encode_eq_some_iff.mpr ⟨hne, texts, ?_, hc⟩
  -- a cursor is made of columns alone, and rows show those of their documents
  refine Cursor.writtenTexts?_of_lookup? htexts fun col hcol w hw => ?_
  unfold project at hw
  cases hprojection : options.projection with
  | none =>
    rw [hprojection] at hw
    exact hw
  | some spec =>
    rw [hprojection] at hw
    exact Projection.lookup?_of_apply (hshows spec hprojection col hcol) hw

/-! ### Rows after the cursor -/

/-- A find without options that is ordered by columns of no declared type, the last of which is the
identifier. -/
structure UntypedFind (q : Query) (info : CursorInfo) : Prop where
  operation : q.operation = .find
  options : q.findOptions = .ok {}
  cursorInfo : q.cursorInfo = some info
  cursor : q.cursor = none
  lead : info.hasPlainLead = true
  untyped : ∀ col ∈ info.orderBy, col.kind = none
  nodup : (info.orderBy.map OrderBy.field).Nodup
  paths : ∀ col ∈ info.orderBy, isPlainPath col.field = true
  last : ∃ leading direction, info.orderBy = leading ++ [⟨"id", direction, none⟩]

/-- Documents with numbers as identifiers, and in all columns integers, texts without separators, truth
values, nulls or nothing. -/
structure MixedDocuments (info : CursorInfo) (docs : List Document) : Prop where
  scalars : ∀ d ∈ docs, ∀ col ∈ info.orderBy, ∀ v, d.at? col.field = some v →
    v = .null ∨ ∃ cls : ValueClass, cls.contains v = true
  numbered : Numbered "_id" docs

theorem Cursor.valueText?_null : Cursor.valueText? Value.null.toJson = none := rfl

namespace UntypedFind

variable {q : Query} {info : CursorInfo} {docs : List Document}

theorem ordersByFields (hq : UntypedFind q info) : Seek.OrdersByFields info :=
  fun col hcol => isOperatorName_of_isPlainPath (hq.paths col hcol)

theorem keys_eq (hq : UntypedFind q info) :
    Sorting.keys info.sortDocument = info.orderBy.map OrderBy.key :=
  CursorInfo.keys_sortDocument hq.nodup

/-- The sort key of the identifier. -/
theorem exists_id_key (hq : UntypedFind q info) :
    ∃ key ∈ Sorting.keys info.sortDocument, key.path = "_id" := by
  obtain ⟨leading, direction, horder⟩ := hq.last
  refine ⟨(⟨"id", direction, none⟩ : OrderBy).key, ?_, rfl⟩
  rw [hq.keys_eq, horder, List.map_append]
  exact List.mem_append_right _ List.mem_cons_self

theorem isScalar_sortValue (hdocs : MixedDocuments info docs) {d : Document} (hd : d ∈ docs)
    {col : OrderBy} (hcol : col ∈ info.orderBy) :
    (Sorting.sortValue col.field d).isScalar = true := by
  unfold Sorting.sortValue
  cases hv : d.at? col.field with
  | none => rfl
  | some v =>
    rcases hdocs.scalars d hd col hcol v hv with rfl | ⟨cls, hcontains⟩
    · rfl
    · exact ValueClass.isScalar_of_contains hcontains

theorem sortable (hq : UntypedFind q info) (hdocs : MixedDocuments info docs) {d : Document}
    (hd : d ∈ docs) : Sorting.Sortable (Sorting.keys info.sortDocument) d := by
  rw [hq.keys_eq]
  intro key hkey
  obtain ⟨col, hcol, rfl⟩ := List.mem_map.mp hkey
  exact Value.isComparable_of_isScalar (isScalar_sortValue hdocs hd hcol)

/-- A document for which a cursor is issued holds values in all columns. -/
theorem fitsRow_of_encode (hq : UntypedFind q info) (hdocs : MixedDocuments info docs)
    {row : Document} (hrow : row ∈ docs) {c : String} (hc : info.encode row.toJson = some c) :
    FitsRow row info.orderBy := by
  obtain ⟨-, texts, htexts, -⟩ := CursorInfo.encode_eq_some_iff.mp hc
  have hvalue : ∀ col ∈ info.orderBy, ∃ (cls : ValueClass) (v : Value),
      cls.suits col.kind = true ∧ row.at? col.field = some v ∧ cls.contains v = true := by
    intro col hcol
    obtain ⟨w, t, hw, ht⟩ := Cursor.exists_written htexts hcol
    obtain ⟨v, hv, rfl⟩ := Document.exists_at?_of_lookup? (hq.paths col hcol) hw
    rcases hdocs.scalars row hrow col hcol v hv with rfl | ⟨cls, hcontains⟩
    · -- no cursor is issued for a null
      rw [Cursor.valueText?_null] at ht
      cases ht
    · refine ⟨cls, v, ?_, hv, hcontains⟩
      rw [ValueClass.suits, hq.untyped col hcol]
      rfl
  obtain ⟨leading, direction, horder⟩ := hq.last
  rw [horder] at hvalue ⊢
  exact fitsRow_of_contains (fun col hcol => hvalue col (List.mem_append_left _ hcol)) rfl
    (hdocs.numbered.exists_contains hrow)

/-- The answer is sorted by the columns. -/
theorem answer_eq_ok_iff (hq : UntypedFind q info) {p : Query} (hop : p.operation = q.operation)
    (hoptions : p.findOptions = q.findOptions) (hinfo : p.cursorInfo = q.cursorInfo)
    {rows : List Document} :
    Connection.answer p docs = .ok rows ↔ p.collectionName ≠ "" ∧
      ∃ selects, p.applyCursor.filterDocument = .ok selects ∧ (∀ d ∈ docs, Evaluates selects d) ∧
        rows = Sorting.sort info.sortDocument (docs.filter (holds selects)) := by
  have hne : info.orderBy ≠ [] := by
    obtain ⟨leading, direction, horder⟩ := hq.last
    rw [horder]
    simp
  have hsorted : Connection.findOptions p = .ok { sort := some info.sortDocument } :=
    Connection.findOptions_of_cursorInfo (hoptions.trans hq.options) rfl
      (hinfo.trans hq.cursorInfo) hne
  rw [Connection.answer_eq_ok_iff (hop.trans hq.operation), hsorted]
  refine and_congr_right fun _ => ⟨?_, ?_⟩
  · rintro ⟨selects, options, hselects, hoptions, hevaluates, rfl⟩
    obtain rfl := Except.ok.inj hoptions
    exact ⟨selects, hselects, hevaluates, rfl⟩
  · rintro ⟨selects, hselects, hevaluates, rfl⟩
    exact ⟨selects, _, hselects, rfl, hevaluates, rfl⟩

/-- The filter of a find that resumes after a row selects, of what the find selects, the documents after
the row whose first difference from it is between values of one rank. -/
theorem exists_filterDocument_resumed (hq : UntypedFind q info) (hdocs : MixedDocuments info docs)
    {row : Document} (hrow : row ∈ docs) {c : String} (hc : info.encode row.toJson = some c)
    {own : Document} (hown : q.filterDocument = .ok own) (hevaluates : ∀ d ∈ docs, Evaluates own d) :
    ∃ selects, ({ q with cursor := some (.string c) } : Query).applyCursor.filterDocument =
        .ok selects ∧ ∀ d ∈ docs, Evaluates selects d ∧ holds selects d = (holds own d &&
          (Sorting.compare (Sorting.keys info.sortDocument) row d == .lt &&
            Seek.differWithinRank (Sorting.keys info.sortDocument) row d)) := by
  have hne : info.orderBy ≠ [] := (CursorInfo.encode_eq_some_iff.mp hc).1
  obtain ⟨c', seek, columns, hencode, hseek, hofJson, husable, hkeys, halike⟩ :=
    exists_seek_of_fits hq.lead hne hq.ordersByFields (hq.fitsRow_of_encode hdocs hrow hc)
  obtain rfl : c' = c := Option.some.inj (hencode.symm.trans hc)
  obtain ⟨selects, hselects, hconjoins⟩ := Connection.filterDocument_applyCursor
    (q := { q with cursor := some (.string c') }) hq.operation hq.cursorInfo rfl hseek hown hofJson
  refine ⟨selects, hselects, fun d hd => ?_⟩
  have haccepts := Seek.accepts_filterDocument husable d
  have hboth : Evaluates selects d :=
    (hconjoins.evaluates_iff d).mpr ⟨hevaluates d hd, fun _ => ⟨_, haccepts⟩⟩
  -- no value of a document is an array, so the filter of the cursor can be compared with the order
  have hscalars : Seek.HoldsScalars d columns := by
    intro column hcolumn
    obtain ⟨col, hcol, hfield⟩ := Seek.exists_orderBy_of_mem hkeys hcolumn
    rw [← hfield]
    exact isScalar_sortValue hdocs hd hcol
  refine ⟨hboth, ?_⟩
  rw [hconjoins.holds_eq d hboth, holds_of_accepts haccepts,
    Seek.passes_eq_compare husable halike hscalars, hkeys, ← hq.keys_eq]

end UntypedFind

/-- A find that resumes after a row of its answer answers the rows after it whose first difference from
it is between values of one rank. -/
theorem Connection.read_resumed {q : Query} {info : CursorInfo} (hq : UntypedFind q info)
    (conn : Connection) (m : Memory)
    (hdocs : MixedDocuments info (m.documents conn.database q.collectionName))
    {before after : List Document} {row : Document}
    (hread : conn.read m q = .ok (before ++ row :: after)) {c : String}
    (hc : info.encode row.toJson = some c) :
    conn.read m { q with cursor := some (.string c) } =
      .ok (after.filter (Seek.differWithinRank (Sorting.keys info.sortDocument) row)) := by
  let docs := m.documents conn.database q.collectionName
  let ks := Sorting.keys info.sortDocument
  obtain ⟨key, hkey, hpath⟩ := hq.exists_id_key
  rw [read_eq_answer hq.operation, hq.answer_eq_ok_iff rfl rfl rfl,
    applyCursor_of_no_seek (seek?_of_no_cursor hq.cursor)] at hread
  obtain ⟨hname, own, hown, hevaluates, hsort⟩ := hread
  have hselected : ∀ d ∈ docs.filter (holds own), d ∈ docs := fun d hd => List.mem_of_mem_filter hd
  have hnumbered : Numbered key.path (docs.filter (holds own)) :=
    hpath ▸ hdocs.numbered.sublist List.filter_sublist
  have hsortable : ∀ d ∈ docs.filter (holds own), Sorting.Sortable ks d :=
    fun d hd => hq.sortable hdocs (hselected d hd)
  have hrow : row ∈ docs := by
    apply hselected
    rw [← (Sorting.sort_perm info.sortDocument _).mem_iff, ← hsort]
    simp
  obtain ⟨selects, hselects, hholds⟩ :=
    hq.exists_filterDocument_resumed hdocs hrow hc hown hevaluates
  -- so the answer is the part of the whole answer that stands behind the row, without the rest
  have hfilter : docs.filter (holds selects) = (docs.filter (holds own)).filter
      fun d => Sorting.compare ks row d == .lt && Seek.differWithinRank ks row d := by
    rw [List.filter_filter]
    refine List.filter_congr fun d hd => ?_
    rw [(hholds d hd).2, Bool.and_comm]
  have hstrict := Sorting.pairwise_lt_sort hkey hnumbered hsortable
  rw [← hsort] at hstrict
  have hanswer : Sorting.sort info.sortDocument (docs.filter (holds selects)) =
      after.filter (Seek.differWithinRank ks row) := by
    rw [hfilter, Sorting.sort_filter hsortable, ← hsort]
    exact Sorting.filter_compare_lt hstrict _
  rw [read_eq_answer (q := { q with cursor := some (.string c) }) hq.operation]
  refine (hq.answer_eq_ok_iff (p := { q with cursor := some (.string c) }) rfl rfl rfl).mpr ?_
  exact ⟨hname, selects, hselects, fun d hd => (hholds d hd).1, hanswer.symm⟩

/-- A find that resumes after a row of its answer answers the rows after it whose first difference from
it is between values of one rank.  These are all rows after it exactly when no row after it differs
first by a value of another rank, such as a null or nothing. -/
theorem Connection.read_after_row {q : Query} {info : CursorInfo} (hq : UntypedFind q info)
    (conn : Connection) (m : Memory)
    (hdocs : MixedDocuments info (m.documents conn.database q.collectionName))
    {before after : List Document} {row : Document}
    (hread : conn.read m q = .ok (before ++ row :: after)) {c : String}
    (hc : info.encode row.toJson = some c) :
    ∃ rows, conn.read m { q with cursor := some (.string c) } = .ok rows ∧
      rows = after.filter (Seek.differWithinRank (Sorting.keys info.sortDocument) row) ∧
      ((∀ d ∈ after, d ∈ rows) ↔
        ∀ d ∈ after, Seek.differWithinRank (Sorting.keys info.sortDocument) row d = true) := by
  refine ⟨_, read_resumed hq conn m hdocs hread hc, rfl, ?_⟩
  refine forall₂_congr fun d hd => ?_
  rw [List.mem_filter]
  exact and_iff_right hd

namespace MixedItems

/-- Items by a column and their identifiers. -/
def byColumn : CursorInfo :=
  ⟨7, "", [⟨"a", .ascending, none⟩, ⟨"id", .ascending, none⟩]⟩

/-- A find of all items. -/
def findItems : Query where
  operation := .find
  collection := some "items"
  cursorInfo := some byColumn

def first : Document := [("_id", .int32 1), ("a", .int32 5)]
def second : Document := [("_id", .int32 2), ("a", .int32 6)]
def third : Document := [("_id", .int32 3), ("a", .string "x")]

/-- Three items, the last of which holds a text where the others hold integers. -/
def items : Memory :=
  Memory.empty.insertMany "shop" "items" [first, second, third]

theorem untypedFind : UntypedFind findItems byColumn where
  operation := rfl
  options := rfl
  cursorInfo := rfl
  cursor := rfl
  lead := rfl
  untyped := by decide
  nodup := by decide
  paths := by decide
  last := ⟨[⟨"a", .ascending, none⟩], .ascending, rfl⟩

theorem scalar_of_contains {d : Document} {path : String} {u : Value} (cls : ValueClass)
    (hu : d.at? path = some u) (h : cls.contains u = true) (v : Value) (hv : d.at? path = some v) :
    v = .null ∨ ∃ cls : ValueClass, cls.contains v = true := by
  obtain rfl : u = v := Option.some.inj (hu.symm.trans hv)
  exact .inr ⟨cls, h⟩

theorem mixedDocuments : MixedDocuments byColumn (items.documents "shop" "items") := by
  have hall : items.documents "shop" "items" = [first, second, third] := rfl
  rw [hall]
  refine ⟨?_, ?_, by decide⟩
  · simp only [byColumn, List.forall_mem_cons]
    exact ⟨⟨scalar_of_contains .integer rfl rfl, scalar_of_contains .integer rfl rfl, nofun⟩,
      ⟨scalar_of_contains .integer rfl rfl, scalar_of_contains .integer rfl rfl, nofun⟩,
      ⟨scalar_of_contains .text rfl rfl, scalar_of_contains .integer rfl rfl, nofun⟩, nofun⟩
  · simp only [List.forall_mem_cons]
    exact ⟨⟨1, rfl, by decide⟩, ⟨2, rfl, by decide⟩, ⟨3, rfl, by decide⟩, nofun⟩

theorem read_items : (Connection.toDatabase "shop").read items findItems =
    .ok ([] ++ first :: [second, third]) := by
  rw [Connection.read_eq_answer rfl]
  refine (untypedFind.answer_eq_ok_iff rfl rfl rfl).mpr
    ⟨by decide, [], rfl, fun d _ => ⟨true, rfl⟩, (Sorting.sort_of_pairwise ?_).symm⟩
  show [first, second, third].Pairwise _
  decide +kernel

theorem encode_first : byColumn.encode first.toJson = some "7:5:1" := rfl

theorem read_resumed_first :
    (Connection.toDatabase "shop").read items { findItems with cursor := some (.string "7:5:1") } =
      .ok ([second, third].filter
        (Seek.differWithinRank (Sorting.keys byColumn.sortDocument) first)) :=
  Connection.read_resumed untypedFind (.toDatabase "shop") items mixedDocuments read_items
    encode_first

/-- The item with the text comes after the first one, but not in what resumes after that. -/
theorem read_loses_third : UntypedFind findItems byColumn ∧
    MixedDocuments byColumn (items.documents "shop" "items") ∧
    (Connection.toDatabase "shop").read items findItems = .ok [first, second, third] ∧
    byColumn.encode first.toJson = some "7:5:1" ∧
    (Connection.toDatabase "shop").read items { findItems with cursor := some (.string "7:5:1") } =
      .ok [second] := by
  refine ⟨untypedFind, mixedDocuments, read_items, encode_first, ?_⟩
  have hsecond : Seek.differWithinRank (Sorting.keys byColumn.sortDocument) first second = true := by
    decide +kernel
  have hthird : Seek.differWithinRank (Sorting.keys byColumn.sortDocument) first third = false := by
    decide +kernel
  rw [read_resumed_first, List.filter_cons, hsecond, List.filter_cons, hthird]
  rfl

theorem read_after_first : UntypedFind findItems byColumn ∧
    MixedDocuments byColumn (items.documents "shop" "items") ∧
    (Connection.toDatabase "shop").read items findItems = .ok ([] ++ first :: [second, third]) ∧
    byColumn.encode first.toJson = some "7:5:1" ∧
    ∃ rows, (Connection.toDatabase "shop").read items
        { findItems with cursor := some (.string "7:5:1") } = .ok rows ∧
      rows = [second, third].filter
        (Seek.differWithinRank (Sorting.keys byColumn.sortDocument) first) := by
  obtain ⟨rows, hrows, hfilter, -⟩ := Connection.read_after_row untypedFind (.toDatabase "shop") items
    mixedDocuments read_items encode_first
  exact ⟨untypedFind, mixedDocuments, read_items, encode_first, rows, hrows, hfilter⟩

end MixedItems

/-! ### The row of the cursor -/

/-- The filter of a query with a cursor can be evaluated only where that of the query can. -/
theorem Connection.exists_filterDocument {q : Query} (hop : q.operation = .find)
    {info : CursorInfo} (hinfo : q.cursorInfo = some info) (hfields : Seek.OrdersByFields info)
    {h d : Document} (hh : q.applyCursor.filterDocument = .ok h) (hd : Evaluates h d) :
    ∃ f, q.filterDocument = .ok f ∧ ∀ d, Evaluates h d → Evaluates f d := by
  cases hseek : q.seek? with
  | none =>
    rw [applyCursor_of_no_seek hseek] at hh
    exact ⟨h, hh, fun _ hd => hd⟩
  | some seek =>
    rw [Query.applyCursor, hseek] at hh
    obtain ⟨f, hf⟩ := filterDocument_of_applySeek hop hh hd
    obtain ⟨raw, hraw⟩ : ∃ raw, info.seek? raw = some seek := by
      simp only [Query.seek?, hinfo, Option.bind_eq_bind, Option.bind_some] at hseek
      obtain ⟨raw, -, hraw⟩ := Option.bind_eq_some_iff.mp hseek
      exact ⟨raw, hraw⟩
    obtain ⟨-, vs, -, -, -, -, hfilter⟩ := Seek.seek_eq_some hfields (seek?_eq_some_iff.mp hraw)
    obtain ⟨h', hh', hconjoins⟩ := filterDocument_applySeek hop hf hfilter
    obtain rfl : h = h' := Except.ok.inj (hh.symm.trans hh')
    exact ⟨f, hf, fun d hd => ((hconjoins.evaluates_iff d).mp hd).1⟩

/-- A cursor that cannot be used counts as none. -/
theorem Connection.answer_of_no_seek {q : Query} (hseek : q.seek? = none) (docs : List Document) :
    answer q docs = answer { q with cursor := none } docs := by
  have hnone : Query.seek? { q with cursor := none } = none := seek?_of_no_cursor rfl
  unfold answer
  rw [applyCursor_of_no_seek hseek, applyCursor_of_no_seek hnone]
  rfl

theorem Connection.read_of_no_seek {q : Query} (hop : q.operation = .find)
    (hseek : q.seek? = none) (conn : Connection) (m : Memory) :
    conn.read m q = conn.read m { q with cursor := none } := by
  rw [read_eq_answer hop, read_eq_answer (q := { q with cursor := none }) hop]
  exact answer_of_no_seek hseek _

/-- A row for which a cursor is issued shows an identifier, if that is one of the columns. -/
theorem CursorInfo.exists_id_of_encode {info : CursorInfo} {row : Document} {c : String}
    (hc : info.encode row.toJson = some c) {col : OrderBy} (hcol : col ∈ info.orderBy)
    (hfield : col.field = "_id") : ∃ id, row.get? "_id" = some id := by
  obtain ⟨-, texts, htexts, -⟩ := encode_eq_some_iff.mp hc
  obtain ⟨w, t, hw, -⟩ := Cursor.exists_written htexts hcol
  rw [hfield, Cursor.lookup?_of_pathNames rfl, Document.get?_toJson] at hw
  obtain ⟨id, hid, -⟩ := Option.map_eq_some_iff.mp hw
  exact ⟨id, hid⟩

/-- A find with a cursor that can be used answers, and a document that the filter of the cursor does
not accept is not in the answer. -/
theorem Connection.read_of_seek {q : Query} {info : CursorInfo} {options : FindOptions}
    (hop : q.operation = .find) (hinfo : q.cursorInfo = some info)
    (hfields : Seek.OrdersByFields info) (hoptions : findOptions q = .ok options)
    (conn : Connection) (m : Memory)
    (hids : ((m.documents conn.database q.collectionName).map fun d => d.get? "_id").Nodup)
    {page : List Document} (hread : conn.read m q = .ok page) {d : Document}
    (hd : d ∈ m.documents conn.database q.collectionName)
    (hid : ∃ id, (options.project d).get? "_id" = some id) {c : String} {seek : Json.Object}
    (hseek : info.seek? c = some seek) {filter : Document}
    (hfilter : Document.ofJson seek = .ok filter) :
    ∃ page', conn.read m { q with cursor := some (.string c) } = .ok page' ∧
      (accepts d filter = .ok false →
        ∀ row' ∈ page', row'.get? "_id" ≠ (options.project d).get? "_id") := by
  let q' : Query := { q with cursor := some (.string c) }
  let docs := m.documents conn.database q.collectionName
  rw [read_eq_answer hop] at hread
  obtain ⟨hname, own, -, hown, -, hevaluates, -⟩ := (answer_eq_ok_iff hop).mp hread
  obtain ⟨-, vs, -, -, -, husable, hfilter'⟩ :=
    Seek.seek_eq_some hfields (seek?_eq_some_iff.mp hseek)
  obtain rfl := Except.ok.inj (hfilter'.symm.trans hfilter)
  -- the new cursor replaces the old one, beside the filter of the query itself
  obtain ⟨f, hf, hfevaluates⟩ := exists_filterDocument hop hinfo hfields hown (hevaluates d hd)
  obtain ⟨selects, hselects, hconjoins⟩ := filterDocument_applyCursor (q := q') hop hinfo rfl
    (seek?_eq_some_iff.mp hseek) hf hfilter
  have hselectsEval : ∀ d ∈ docs, Evaluates selects d := fun d hd =>
    (hconjoins.evaluates_iff d).mpr
      ⟨hfevaluates d (hevaluates d hd), fun _ => ⟨_, Seek.accepts_filterDocument husable d⟩⟩
  refine ⟨options.arrange (docs.filter (holds selects)), ?_, ?_⟩
  · rw [read_eq_answer (q := q') hop]
    exact (answer_eq_ok_iff (q := q') hop).mpr
      ⟨hname, selects, options, hselects, hoptions, hselectsEval, rfl⟩
  · intro hrejects row' hrow'
    have hnot : d ∉ docs.filter (holds selects) := by
      intro hmem
      have hholds := List.of_mem_filter hmem
      rw [hconjoins.holds_eq d (hselectsEval d hd), Bool.and_eq_true,
        holds_of_accepts hrejects] at hholds
      cases hholds.2
    exact FindOptions.get?_id_ne hids (fun _ => List.mem_of_mem_filter) hd hnot hid hrow'

/-- A find with the cursor of one of its own rows.  A cursor that cannot be used counts as none.  One
that can be used accepts the row's document only if the columns before the last are read back as they
are and the identifier is a text that loses blanks; if it does not accept it, the row is not answered
again.  It can be used and does not accept it if the row's values fit the columns. -/
theorem Connection.read_own_cursor {q : Query} {info : CursorInfo} {leading : List OrderBy}
    {last : OrderBy} {options : FindOptions} (hop : q.operation = .find)
    (hinfo : q.cursorInfo = some info) (hfields : Seek.OrdersByFields info)
    (horder : info.orderBy = leading ++ [last]) (hlast : last.field = "_id")
    (hoptions : findOptions q = .ok options) (hshows : options.ShowsColumns info)
    (conn : Connection) (m : Memory)
    (hids : ((m.documents conn.database q.collectionName).map fun d => d.get? "_id").Nodup)
    {page : List Document} (hread : conn.read m q = .ok page) {row : Document} (hrow : row ∈ page)
    {c : String} (hc : info.encode row.toJson = some c) :
    ∃ d ∈ m.documents conn.database q.collectionName, row = options.project d ∧
      (info.seek? c = none →
        conn.read m { q with cursor := some (.string c) } = conn.read m { q with cursor := none }) ∧
      (∀ seek, info.seek? c = some seek → ∃ ws vs filter page',
        info.values? c.toList = .ok (some ws) ∧ Value.listOfJson? ws = some vs ∧
        Document.ofJson seek = .ok filter ∧
        conn.read m { q with cursor := some (.string c) } = .ok page' ∧
        (accepts d filter = .ok true ↔
          (∀ c ∈ leading.zip vs, fieldEquals (d.at? c.1.field) c.2 = true) ∧
            Cursor.LosesBlanks last d) ∧
        (accepts d filter = .ok false → ∀ row' ∈ page', row'.get? "_id" ≠ row.get? "_id")) ∧
      (info.hasPlainLead = true → FitsRow d info.orderBy → ∃ page',
        conn.read m { q with cursor := some (.string c) } = .ok page' ∧
        ∀ row' ∈ page', row'.get? "_id" ≠ row.get? "_id") := by
  have hanswer := hread
  rw [read_eq_answer hop] at hanswer
  obtain ⟨-, own, options', -, hoptions', -, rfl⟩ := (answer_eq_ok_iff hop).mp hanswer
  obtain rfl : options = options' := Except.ok.inj (hoptions.symm.trans hoptions')
  obtain ⟨d, hselected, rfl⟩ := FindOptions.exists_of_mem_arrange hrow
  have hd : d ∈ m.documents conn.database q.collectionName := List.mem_of_mem_filter hselected
  have hlastmem : last ∈ info.orderBy := by
    rw [horder]
    exact List.mem_append_right _ List.mem_cons_self
  have hid := CursorInfo.exists_id_of_encode hc hlastmem hlast
  have hcd : info.encode d.toJson = some c := FindOptions.encode_of_project hshows hc
  refine ⟨d, hd, rfl, ?_, ?_, ?_⟩
  · intro hnone
    let q' : Query := { q with cursor := some (.string c) }
    have hseek : q'.seek? = none := (seek?_of_cursor (q := q') hinfo rfl).trans hnone
    exact read_of_no_seek (q := q') hop hseek conn m
  · intro seek hseek
    obtain ⟨ws, vs, hws, hvs, -, husable, hfilter⟩ :=
      Seek.seek_eq_some hfields (seek?_eq_some_iff.mp hseek)
    obtain ⟨page', hpage', hexcludes⟩ :=
      read_of_seek hop hinfo hfields hoptions conn m hids hread hd hid hseek hfilter
    refine ⟨ws, vs, _, page', hws, hvs, hfilter, hpage', ?_, hexcludes⟩
    obtain ⟨-, texts, htexts, rfl⟩ := CursorInfo.encode_eq_some_iff.mp hcd
    rw [String.toList_ofList] at hws
    have hreads := CursorInfo.readValues_of_values? (Cursor.length_writtenTexts? htexts) hws
    rw [Seek.accepts_filterDocument husable, Except.ok.injEq, horder]
    rw [horder] at htexts hreads
    exact Seek.passes_own_iff htexts hreads hvs
  · intro hplain hfits
    have hne : info.orderBy ≠ [] := List.ne_nil_of_mem hlastmem
    obtain ⟨c', seek, columns, hencode, hseek, hfilter, husable, -, halike⟩ :=
      exists_seek_of_fits hplain hne hfields hfits
    obtain rfl : c' = c := Option.some.inj (hencode.symm.trans hcd)
    obtain ⟨page', hpage', hexcludes⟩ := read_of_seek hop hinfo hfields hoptions conn m hids hread
      hd hid (seek?_eq_some_iff.mpr hseek) hfilter
    refine ⟨page', hpage', hexcludes ?_⟩
    rw [Seek.accepts_filterDocument husable, Seek.passes_self husable halike]

namespace MixedItems

theorem read_own_cursor_first : findItems.operation = .find ∧
    findItems.cursorInfo = some byColumn ∧ Seek.OrdersByFields byColumn ∧
    byColumn.orderBy = [⟨"a", .ascending, none⟩] ++ [⟨"id", .ascending, none⟩] ∧
    Connection.findOptions findItems = .ok { sort := some byColumn.sortDocument } ∧
    FindOptions.ShowsColumns { sort := some byColumn.sortDocument } byColumn ∧
    ((items.documents "shop" "items").map fun d => d.get? "_id").Nodup ∧
    (Connection.toDatabase "shop").read items findItems = .ok ([] ++ first :: [second, third]) ∧
    byColumn.encode first.toJson = some "7:5:1" ∧
    ∃ page', (Connection.toDatabase "shop").read items
        { findItems with cursor := some (.string "7:5:1") } = .ok page' ∧
      ∀ row' ∈ page', row'.get? "_id" ≠ first.get? "_id" := by
  have horder : byColumn.orderBy = [⟨"a", .ascending, none⟩] ++ [⟨"id", .ascending, none⟩] := rfl
  have hoptions : Connection.findOptions findItems =
      .ok { sort := some byColumn.sortDocument } := rfl
  have hshows : FindOptions.ShowsColumns { sort := some byColumn.sortDocument } byColumn :=
    fun spec hspec => nomatch hspec
  have hids : ((items.documents "shop" "items").map fun d => d.get? "_id").Nodup := by
    have hall : (items.documents "shop" "items").map (fun d => d.get? "_id") =
        [some (.int32 1), some (.int32 2), some (.int32 3)] := rfl
    rw [hall]
    simp
  have hfits : FitsRow first byColumn.orderBy := ⟨⟨_, rfl, rfl⟩, ⟨_, rfl, rfl⟩, trivial⟩
  obtain ⟨d, -, hd, -, -, hexcludes⟩ := Connection.read_own_cursor rfl rfl untypedFind.ordersByFields
    horder rfl hoptions hshows (.toDatabase "shop") items hids read_items List.mem_cons_self
    encode_first
  obtain rfl : first = d := hd
  exact ⟨rfl, rfl, untypedFind.ordersByFields, horder, hoptions, hshows, hids, read_items,
    encode_first, hexcludes rfl hfits⟩

end MixedItems

namespace IdentifiedItems

/-- Items by their identifiers. -/
def byId : CursorInfo :=
  ⟨7, "", [⟨"id", .ascending, none⟩]⟩

/-- A find of all items. -/
def findItems : Query where
  operation := .find
  collection := some "items"
  cursorInfo := some byId

/-- An item with an object identifier. -/
def item : Document := [("_id", .objectId 255)]

/-- One item. -/
def items : Memory :=
  Memory.empty.insertMany "shop" "items" [item]

theorem untypedFind : UntypedFind findItems byId where
  operation := rfl
  options := rfl
  cursorInfo := rfl
  cursor := rfl
  lead := rfl
  untyped := by decide
  nodup := by decide
  paths := by decide
  last := ⟨[], .ascending, rfl⟩

theorem seek?_item : byId.seek? "7:0000000000000000000000ff" = none := by
  decide +kernel

theorem read_items : (Connection.toDatabase "shop").read items findItems = .ok [item] := by
  rw [Connection.read_eq_answer rfl]
  exact (untypedFind.answer_eq_ok_iff rfl rfl rfl).mpr
    ⟨by decide, [], rfl, fun d _ => ⟨true, rfl⟩,
      (Sorting.sort_of_pairwise (List.pairwise_singleton _ _)).symm⟩

/-- An item with an object identifier is answered again with its own cursor. -/
theorem read_repeats_item :
    ((items.documents "shop" "items").map fun d => d.get? "_id").Nodup ∧
    (Connection.toDatabase "shop").read items findItems = .ok [item] ∧
    byId.encode item.toJson = some "7:0000000000000000000000ff" ∧
    (Connection.toDatabase "shop").read items
      { findItems with cursor := some (.string "7:0000000000000000000000ff") } = .ok [item] := by
  refine ⟨List.nodup_singleton _, read_items, by decide +kernel, ?_⟩
  let q' : Query := { findItems with cursor := some (.string "7:0000000000000000000000ff") }
  have hseek : q'.seek? = none := (Connection.seek?_of_cursor (q := q') rfl rfl).trans seek?_item
  rw [Connection.read_of_no_seek (q := q') rfl hseek]
  exact read_items

end IdentifiedItems

end Keyset
