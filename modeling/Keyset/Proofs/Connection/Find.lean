import Keyset.Connection
import Keyset.Proofs.Seek
import Keyset.Store.Memory
import Mathlib.Tactic.SplitIfs

/-!
# Finds on a store in memory

Reading a find to the end changes no collection, and its answer depends on the documents of one
collection only (`run_readDocuments`).  It is what the query's filter selects (`answer_eq_ok_iff`), in
conjunction with the filter of its cursor if that can be used (`filterDocument_applySeek`), in the order
and on the page that the options ask for.  Reading document by document is the same, and releases the
stream (`run_drainDocuments`).
-/

namespace Keyset

/-- The documents of a find, once they are selected. -/
def FindOptions.arrange (options : FindOptions) (selected : List Document) : List Document :=
  let sorted := (options.sort.map fun spec => Sorting.sort spec selected).getD selected
  let paged := options.page sorted
  (options.projection.map fun spec => paged.map (Projection.apply spec)).getD paged

theorem FindOptions.run_eq_map_arrange (options : FindOptions) (filter : Document)
    (docs : List Document) :
    options.run filter docs = (Filter.select filter docs).map options.arrange := by
  unfold FindOptions.run
  cases Filter.select filter docs <;> rfl

/-! ### Running actions of a store -/

namespace StoreM

variable {σ α β : Type}

theorem run_bind (action : StoreM σ α) (next : α → StoreM σ β) (state : σ) :
    (action >>= next).run state =
      match action.run state with
      | (.ok a, state') => (next a).run state'
      | (.error e, state') => (.error e, state') := by
  show ExceptT.bindCont next (action.run state).1 (action.run state).2 = _
  rcases action.run state with ⟨r, state'⟩
  cases r <;> rfl

theorem run_pure (a : α) (state : σ) : (pure a : StoreM σ α).run state = (.ok a, state) := rfl

theorem run_map (f : α → β) (action : StoreM σ α) (state : σ) :
    (f <$> action).run state = ((action.run state).1.map f, (action.run state).2) := by
  show (action >>= fun a => pure (f a)).run state = _
  rw [run_bind]
  rcases action.run state with ⟨r, state'⟩
  cases r <;> rfl

theorem run_lift (r : Except Error α) (state : σ) :
    (liftM r : StoreM σ α).run state = (r, state) := by
  cases r <;> rfl

theorem run_modify (f : σ → σ) (state : σ) :
    (modify f : StoreM σ Unit).run state = (.ok (), f state) := rfl

end StoreM

/-- Inserted documents stand behind those that a collection holds. -/
theorem Memory.documents_insertMany (m : Memory) (database collection : String)
    (docs : List Document) :
    (m.insertMany database collection docs).documents database collection =
      m.documents database collection ++ docs := by
  unfold insertMany documents
  dsimp only
  induction m.collections with
  | nil => simp [append, isNamed]
  | cons c cs ih =>
    rw [append]
    split_ifs with hname
    · have hname' : isNamed database collection { c with documents := c.documents ++ docs } = true :=
        hname
      rw [List.find?_cons_of_pos hname', List.find?_cons_of_pos hname]
      rfl
    · rw [List.find?_cons_of_neg hname, List.find?_cons_of_neg hname, ih]

theorem Memory.run_handOut (docs : Except StoreFault (List Document)) (m : Memory) :
    (handOut docs).run m =
      match docs with
      | .error fault => (.error (.store fault), m)
      | .ok docs => (.ok (docs.map .ok), { m with openCursors := m.openCursors + 1 }) := by
  cases docs <;> rfl

/-- The documents of a stream, unless it yields an error or the reader is cancelled. -/
def Rows.documentsOf (cancelled : Bool) (items : DocumentStream) : Except Error (List Document) :=
  if cancelled then .error .cancelled else items.mapM id

namespace Connection

/-- The documents that a find answers, read to the end. -/
def readDocuments (conn : Connection) (q : Query) : StoreM Memory (List Document) := do
  match ← conn.execute Memory.store false q with
  | .documents (some items) =>
    modify Memory.store.release
    (Rows.documentsOf false items : Except Error (List Document))
  | _ => return []

/-- The answer of a find over the documents of a collection. -/
def answer (q : Query) (docs : List Document) : Except Error (List Document) := do
  q.validate
  let filter ← q.applyCursor.filterDocument
  let options ← findOptions q.applyCursor
  (options.run filter docs).mapError Error.store

theorem documentsOf_map_ok (docs : List Document) :
    Rows.documentsOf false (docs.map .ok) = .ok docs := by
  unfold Rows.documentsOf
  rw [if_neg Bool.false_ne_true]
  induction docs with
  | nil => rfl
  | cons d docs ih =>
    rw [List.map_cons, List.mapM_cons, ih]
    rfl

/-- A stream that is read to the end is released once, whatever ends the reading. -/
theorem run_drainDocuments {σ : Type} (store : DocumentStore σ) (cancelled : Bool)
    (items : DocumentStream) (state : σ) :
    (drainDocuments store cancelled (some items)).run state =
      (Rows.documentsOf cancelled items, store.release state) := by
  induction items generalizing state with
  | nil =>
    rw [drainDocuments]
    cases cancelled <;> rfl
  | cons item items ih =>
    rw [drainDocuments]
    cases cancelled with
    | true => rfl
    | false =>
      cases item with
      | error e => rfl
      | ok doc =>
        show (do
          modify (settle store (.documents (some (.ok doc :: items))) (.documents (some items)))
          return doc :: (← drainDocuments store false (some items)) : StoreM σ _).run state = _
        rw [StoreM.run_bind, StoreM.run_modify]
        show ((drainDocuments store false (some items)) >>= fun docs =>
          pure (doc :: docs)).run state = _
        rw [StoreM.run_bind, ih]
        unfold Rows.documentsOf
        rw [if_neg Bool.false_ne_true, if_neg Bool.false_ne_true, List.mapM_cons]
        show _ = (items.mapM id >>= fun docs => Except.ok (doc :: docs), store.release state)
        cases items.mapM id <;> rfl

/-- Reading a find is reading the stream of its execution to the end. -/
theorem readDocuments_eq_drainDocuments (conn : Connection) (q : Query) :
    readDocuments conn q = (do
      match ← conn.execute Memory.store false q with
      | .documents stream => drainDocuments Memory.store false stream
      | _ => return []) := by
  unfold readDocuments
  congr 1
  funext rows
  cases rows with
  | documents stream =>
    cases stream with
    | none =>
      show _ = drainDocuments Memory.store false none
      rw [drainDocuments]
      rfl
    | some items =>
      funext m
      exact (run_drainDocuments Memory.store false items m).symm
  | _ => rfl

/-- A cursor adds to the filter or to the pipeline, and changes nothing else. -/
theorem applyCursor_cases (q : Query) :
    ∃ pipeline filter, q.applyCursor = { q with pipeline := pipeline, filter := filter } := by
  unfold Query.applyCursor Query.applySeek
  split
  · split
    · exact ⟨_, _, rfl⟩
    · split <;> exact ⟨_, _, rfl⟩
    · exact ⟨_, _, rfl⟩
  · exact ⟨_, _, rfl⟩

theorem operation_applyCursor (q : Query) : q.applyCursor.operation = q.operation := by
  obtain ⟨pipeline, filter, h⟩ := applyCursor_cases q
  rw [h]

theorem collectionName_applyCursor (q : Query) :
    q.applyCursor.collectionName = q.collectionName := by
  obtain ⟨pipeline, filter, h⟩ := applyCursor_cases q
  rw [h]
  rfl

theorem findOptions_applyCursor (q : Query) : findOptions q.applyCursor = findOptions q := by
  obtain ⟨pipeline, filter, h⟩ := applyCursor_cases q
  rw [h]
  rfl

/-- A find hands out a stream, or fails and changes nothing. -/
theorem run_find (database collection : String) (filter : Document) (options : FindOptions)
    (m : Memory) :
    (Memory.store.find database collection filter options).run m =
      match options.run filter (m.documents database collection) with
      | .error fault => (.error (.store fault), m)
      | .ok docs => (.ok (docs.map .ok), { m with openCursors := m.openCursors + 1 }) :=
  Memory.run_handOut _ m

/-- Reading a find answers from the collection's documents and leaves all collections alone. -/
theorem run_readDocuments {q : Query} (hop : q.operation = .find) (conn : Connection) (m : Memory) :
    ∃ m' : Memory, (readDocuments conn q).run m =
      (answer q (m.documents conn.database q.collectionName), m') ∧
        m'.collections = m.collections := by
  unfold readDocuments execute answer
  simp only [Bool.false_eq_true, if_false, StoreM.run_bind, StoreM.run_lift, operation_applyCursor,
    hop]
  -- what fails before the store is asked leaves the memory as it is
  cases hvalidate : q.validate with
  | error e => exact ⟨m, rfl, rfl⟩
  | ok _ =>
    simp only [find, StoreM.run_bind, StoreM.run_lift]
    cases hfilter : q.applyCursor.filterDocument with
    | error e => exact ⟨m, rfl, rfl⟩
    | ok filter =>
      cases hoptions : findOptions q.applyCursor with
      | error e => exact ⟨m, rfl, rfl⟩
      | ok options =>
        rw [collectionName_applyCursor]
        show ∃ m' : Memory, _ = ((options.run filter
          (m.documents conn.database q.collectionName)).mapError Error.store, m') ∧ _
        simp only [run_find]
        cases options.run filter (m.documents conn.database q.collectionName) with
        | error fault => exact ⟨m, rfl, rfl⟩
        | ok docs =>
          simp only [StoreM.run_pure, StoreM.run_bind, StoreM.run_modify, StoreM.run_lift,
            documentsOf_map_ok]
          exact ⟨_, rfl, rfl⟩

/-- What a find answers on a memory. -/
def read (conn : Connection) (m : Memory) (q : Query) : Except Error (List Document) :=
  ((readDocuments conn q).run m).1

theorem read_eq_answer {q : Query} (hop : q.operation = .find) (conn : Connection) (m : Memory) :
    conn.read m q = answer q (m.documents conn.database q.collectionName) := by
  obtain ⟨m', hrun, -⟩ := run_readDocuments hop conn m
  rw [read, hrun]

/-! ### The filter of a query and of its cursor -/

open Keyset.Filter

theorem ofJson?_of_ofJson {fields : Json.Object} {doc : Document}
    (h : Document.ofJson fields = .ok doc) :
    Value.ofJson? (.object fields) = some (.document doc) := by
  unfold Document.ofJson at h
  split at h
  · rename_i doc' hdoc
    rw [hdoc, Except.ok.inj h]
  · cases h
  · cases h

/-- Two filters as the parts of a conjunction. -/
def both (f g : Document) : Document :=
  [("$and", .array [.document f, .document g])]

/-- A conjunction can be evaluated if its first part can, and its second where the first holds. -/
theorem accepts_both {f g d : Document} (hf : Evaluates f d)
    (hg : holds f d = true → Evaluates g d) :
    accepts d (both f g) = .ok (holds f d && holds g d) := by
  have hname : Connective.ofName? "$and" = some .and := rfl
  have hall : allDocuments [.document f, .document g] = true := rfl
  rw [both, accepts_single, acceptsEntry, hname]
  simp only [hall, if_true, findsOutcome, accepts_eq_holds hf]
  -- the second part is not looked at where the first one does not hold
  cases hholds : holds f d with
  | false => rfl
  | true =>
    simp only [accepts_eq_holds (hg hholds)]
    cases holds g d <;> rfl

theorem evaluates_of_both {f g d : Document} (h : Evaluates (both f g) d) :
    Evaluates f d ∧ (holds f d = true → Evaluates g d) := by
  have hname : Connective.ofName? "$and" = some .and := rfl
  have hall : allDocuments [.document f, .document g] = true := rfl
  obtain ⟨b, hb⟩ := h
  rw [both, accepts_single, acceptsEntry, hname] at hb
  simp only [hall, if_true, findsOutcome] at hb
  cases hf : accepts d f with
  | error e =>
    rw [hf] at hb
    cases hb
  | ok c =>
    refine ⟨⟨c, hf⟩, fun hholds => ?_⟩
    rw [holds_of_accepts hf] at hholds
    rw [hf, hholds] at hb
    cases hg : accepts d g with
    | error e =>
      rw [hg] at hb
      cases hb
    | ok c' => exact ⟨c', hg⟩

/-- A filter that is the conjunction of two. -/
structure Conjoins (h f g : Document) : Prop where
  evaluates_iff : ∀ d, Evaluates h d ↔ Evaluates f d ∧ (holds f d = true → Evaluates g d)
  holds_eq : ∀ d, Evaluates h d → holds h d = (holds f d && holds g d)

theorem conjoins_both (f g : Document) : Conjoins (both f g) f g where
  evaluates_iff d := ⟨evaluates_of_both, fun h => ⟨_, accepts_both h.1 h.2⟩⟩
  holds_eq d h := by
    obtain ⟨hf, hg⟩ := evaluates_of_both h
    exact holds_of_accepts (accepts_both hf hg)

theorem conjoins_nil (g : Document) : Conjoins g [] g where
  evaluates_iff d := by
    have hnil : accepts d [] = .ok true := rfl
    exact ⟨fun h => ⟨⟨true, hnil⟩, fun _ => h⟩, fun h => h.2 rfl⟩
  holds_eq d _ := by
    have hnil : holds [] d = true := rfl
    rw [hnil, Bool.true_and]

/-- A conjunction selects what both filters do. -/
theorem Conjoins.select_eq {h f g : Document} (hconjoins : Conjoins h f g) {docs : List Document}
    (hf : ∀ d ∈ docs, Evaluates f d) (hg : ∀ d ∈ docs, Evaluates g d) :
    select h docs = .ok ((docs.filter (holds f)).filter (holds g)) := by
  have hboth : ∀ d ∈ docs, Evaluates h d := fun d hd =>
    (hconjoins.evaluates_iff d).mpr ⟨hf d hd, fun _ => hg d hd⟩
  apply select_eq_ok_iff.mpr
  refine ⟨hboth, ?_⟩
  rw [List.filter_filter]
  refine List.filter_congr fun d hd => ?_
  rw [hconjoins.holds_eq d (hboth d hd), Bool.and_comm]

/-- A find with the filter of a cursor selects what both filters do. -/
theorem filterDocument_applySeek {q : Query} (hop : q.operation = .find) {f g : Document}
    {seek : Json.Object} (hf : q.filterDocument = .ok f) (hg : Document.ofJson seek = .ok g) :
    ∃ h, (q.applySeek seek).filterDocument = .ok h ∧ Conjoins h f g := by
  unfold Query.applySeek
  rw [hop]
  -- without a filter of its own, a find takes that of the cursor
  cases hfilter : q.filter with
  | none =>
    have hnil : f = [] := by
      rw [Query.filterDocument, hfilter] at hf
      exact (Except.ok.inj hf).symm
    exact ⟨g, hg, hnil ▸ conjoins_nil g⟩
  | some fields =>
    rw [Query.filterDocument, hfilter] at hf
    cases fields with
    | nil =>
      have hnil : f = [] := (Except.ok.inj hf).symm
      exact ⟨g, hg, hnil ▸ conjoins_nil g⟩
    | cons field fields =>
      refine ⟨both f g, ?_, conjoins_both f g⟩
      have hlist : Value.listOfJson? [.object (field :: fields), .object seek] =
          some [.document f, .document g] := by
        simp only [Value.listOfJson?, ofJson?_of_ofJson hf, ofJson?_of_ofJson hg]
      have harray : Value.ofJson? (.array [.object (field :: fields), .object seek]) =
          some (.array [.document f, .document g]) := by
        rw [Value.ofJson?, hlist]
        rfl
      have hand : "$and" ∉ Wrapper.names := by decide
      have hread : Value.ofJson? (.object
          [("$and", .array [.object (field :: fields), .object seek])]) =
          some (.document (both f g)) := Value.ofJson?_single hand harray
      show Document.ofJson _ = _
      rw [Document.ofJson, hread]

/-- If a find with the filter of a cursor can be evaluated on a document, the find has a filter. -/
theorem filterDocument_of_applySeek {q : Query} (hop : q.operation = .find) {h d : Document}
    {seek : Json.Object} (hh : (q.applySeek seek).filterDocument = .ok h) (hd : Evaluates h d) :
    ∃ f, q.filterDocument = .ok f := by
  unfold Query.applySeek at hh
  rw [hop] at hh
  cases hfilter : q.filter with
  | none => exact ⟨[], by rw [Query.filterDocument, hfilter]⟩
  | some fields =>
    cases fields with
    | nil => exact ⟨[], by rw [Query.filterDocument, hfilter]; rfl⟩
    | cons field fields =>
      rw [hfilter] at hh
      have hread : Value.ofJson? (.single "$and" (.array [.object (field :: fields), .object seek])) =
          some (.document h) := ofJson?_of_ofJson hh
      rw [Value.ofJson?_single_eq (by decide), Value.ofJson?, Option.map_map] at hread
      obtain ⟨vs, hvs, hdocument⟩ := Option.map_eq_some_iff.mp hread
      cases Value.listOfJson?_eq_some_iff.mp hvs with
      | @cons _ v _ vs hv hrest =>
          obtain rfl : [("$and", .array (v :: vs))] = h := Value.document.inj hdocument
          -- a part that is no document cannot be evaluated
          obtain ⟨b, hb⟩ := hd
          rw [accepts_single, acceptsEntry] at hb
          cases v with
          | document f =>
            refine ⟨f, ?_⟩
            rw [Query.filterDocument, hfilter]
            show Document.ofJson _ = _
            rw [Document.ofJson, hv]
          | _ => cases hb

/-! ### Answers -/

theorem validate_eq_ok_iff {q : Query} (hop : q.operation = .find) :
    q.validate = .ok () ↔ q.collectionName ≠ "" ∧ ∃ options, q.findOptions = .ok options := by
  unfold Query.validate Query.checkOptions
  rw [hop]
  by_cases hname : q.collectionName = ""
  · simp [hname, Operation.needsCollection]
  · simp [hname, map_eq_ok_iff]

theorem findOptions_eq_ok {q : Query} {options : FindOptions} (h : findOptions q = .ok options) :
    ∃ own, q.findOptions = .ok own := by
  obtain ⟨own, hown, -⟩ := bind_eq_ok_iff.mp h
  exact ⟨own, hown⟩

/-- A find that is not sorted explicitly is sorted by the columns of its cursor. -/
theorem findOptions_of_cursorInfo {q : Query} {info : CursorInfo} {options : FindOptions}
    (hown : q.findOptions = .ok options) (hsort : options.sort = none)
    (hinfo : q.cursorInfo = some info) (hne : info.orderBy ≠ []) :
    findOptions q = .ok { options with sort := some info.sortDocument } := by
  obtain ⟨limit, skip, sort, projection⟩ := options
  obtain rfl : sort = none := hsort
  unfold findOptions
  rw [hown, hinfo]
  show Except.ok (if info.orderBy = [] then _ else _) = _
  rw [if_neg hne]

/-- A find answers when its collection, its filter and its options are understood and the filter can
be evaluated on all documents. -/
theorem answer_eq_ok_iff {q : Query} (hop : q.operation = .find) {docs page : List Document} :
    answer q docs = .ok page ↔ q.collectionName ≠ "" ∧
      ∃ filter options, q.applyCursor.filterDocument = .ok filter ∧ findOptions q = .ok options ∧
        (∀ d ∈ docs, Evaluates filter d) ∧ page = options.arrange (docs.filter (holds filter)) := by
  unfold answer
  rw [findOptions_applyCursor]
  -- the checks of the query come first, then its filter, then its options
  constructor
  · intro h
    obtain ⟨_, hvalidate, h⟩ := bind_eq_ok_iff.mp h
    obtain ⟨filter, hfilter, h⟩ := bind_eq_ok_iff.mp h
    obtain ⟨options, hoptions, h⟩ := bind_eq_ok_iff.mp h
    rw [options.run_eq_map_arrange] at h
    cases hselect : select filter docs with
    | error fault =>
      rw [hselect] at h
      cases h
    | ok selected =>
      rw [hselect] at h
      obtain ⟨hevaluates, rfl⟩ := select_eq_ok_iff.mp hselect
      exact ⟨((validate_eq_ok_iff hop).mp hvalidate).1, filter, options, hfilter, hoptions,
        hevaluates, (Except.ok.inj h).symm⟩
  · rintro ⟨hname, filter, options, hfilter, hoptions, hevaluates, rfl⟩
    have hvalidate : q.validate = .ok () :=
      (validate_eq_ok_iff hop).mpr ⟨hname, findOptions_eq_ok hoptions⟩
    have hselect : select filter docs = .ok (docs.filter (holds filter)) :=
      select_eq_ok_iff.mpr ⟨hevaluates, rfl⟩
    refine bind_eq_ok_iff.mpr ⟨(), hvalidate, ?_⟩
    refine bind_eq_ok_iff.mpr ⟨filter, hfilter, ?_⟩
    refine bind_eq_ok_iff.mpr ⟨options, hoptions, ?_⟩
    rw [options.run_eq_map_arrange, hselect]
    rfl

/-! ### Cursors of queries -/

theorem seek?_of_no_cursor {q : Query} (h : q.cursor = none) : q.seek? = none := by
  unfold Query.seek? Query.cursorText?
  rw [h]
  cases q.cursorInfo <;> rfl

/-- The cursor of a query is the one that its columns are read by. -/
theorem seek?_of_cursor {q : Query} {info : CursorInfo} {c : String}
    (hinfo : q.cursorInfo = some info) (hcursor : q.cursor = some (.string c)) :
    q.seek? = info.seek? c := by
  unfold Query.seek? Query.cursorText?
  rw [hinfo, hcursor]
  by_cases hblank : Text.trim c.toList = []
  · -- a blank cursor is none, for the decoder too
    have hvalues : info.values? c.toList = .ok none := by
      unfold CursorInfo.values? CursorInfo.normalize
      simp only [hblank, if_true]
      rfl
    have hseek : info.seek c = .ok none := by
      rw [CursorInfo.seek, hvalues]
      rfl
    rw [CursorInfo.seek?, hseek]
    simp [Json.string?, hblank]
  · simp [Json.string?, Option.filter, hblank]

theorem seek?_eq_some_iff {info : CursorInfo} {c : String} {seek : Json.Object} :
    info.seek? c = some seek ↔ info.seek c = .ok (some seek) := by
  unfold CursorInfo.seek?
  cases h : info.seek c with
  | error e => simp
  | ok filter => simp

/-- A find with a cursor that can be used selects by its own filter and by that of the cursor. -/
theorem filterDocument_applyCursor {q : Query} (hop : q.operation = .find) {info : CursorInfo}
    {c : String} {seek : Json.Object} {f g : Document} (hinfo : q.cursorInfo = some info)
    (hcursor : q.cursor = some (.string c)) (hseek : info.seek c = .ok (some seek))
    (hf : q.filterDocument = .ok f) (hg : Document.ofJson seek = .ok g) :
    ∃ h, q.applyCursor.filterDocument = .ok h ∧ Conjoins h f g := by
  rw [Query.applyCursor, seek?_of_cursor hinfo hcursor, seek?_eq_some_iff.mpr hseek]
  exact filterDocument_applySeek hop hf hg

theorem applyCursor_of_no_seek {q : Query} (h : q.seek? = none) : q.applyCursor = q := by
  rw [Query.applyCursor, h]

end Connection

end Keyset
