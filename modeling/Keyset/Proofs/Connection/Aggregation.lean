import Keyset.Proofs.Connection.Find
import Keyset.Proofs.Query.Options
import Keyset.Proofs.Sorting

/-!
# Finds as aggregations

A find and an aggregation whose only stage is a `$match` with the find's filter answer the same
documents in the same order, or fail with the same error of validation
(`execute_find_eq_aggregate`).

The stages that stand for options do to a list of documents what the options do to a find
(`run_ofOptions`), and a cursor's filter in front of the stage selects what it selects beside the find's
filter (`exists_selection`).
-/

namespace Keyset

open Keyset.Filter

/-! ### Stages for options -/

namespace Pipeline

theorem run_append (stages rest docs : List Document) :
    run (stages ++ rest) docs = run stages docs >>= run rest := by
  induction stages generalizing docs with
  | nil => rfl
  | cons stage stages ih =>
    rw [List.cons_append, run, run]
    cases runStage stage docs with
    | error fault => rfl
    | ok docs' => exact ih docs'

theorem run_single (stage : Document) (docs : List Document) :
    run [stage] docs = runStage stage docs := by
  rw [run]
  cases runStage stage docs <;> rfl

/-- A first stage that succeeds hands its documents on to the rest. -/
theorem run_cons {stage : Document} {stages docs docs' : List Document}
    (h : runStage stage docs = .ok docs') : run (stage :: stages) docs = run stages docs' := by
  rw [run, h]
  rfl

theorem runStage_select {filter : Document} {docs : List Document}
    (h : ∀ d ∈ docs, Evaluates filter d) :
    runStage [("$match", .document filter)] docs = .ok (docs.filter (holds filter)) :=
  select_eq_ok_iff.mpr ⟨h, rfl⟩

/-- A count that is a signed word is read from a stage as it was put there. -/
theorem count_int64 (stage : String) {n : Int64} {k : Nat} (h : n.toInt = k) :
    count stage (.int64 n) = .ok k := by
  simp [count, count?, h]

theorem run_sort (sort : Option Document) (docs : List Document) :
    run (sort.toList.map fun spec => [("$sort", .document spec)]) docs =
      .ok ((sort.map fun spec => Sorting.sort spec docs).getD docs) := by
  cases sort with
  | none => rfl
  | some spec => exact run_single _ _

/-- A count beyond the words passes over all documents, as no collection has more. -/
theorem run_skip (skip : Option UInt64) {docs : List Document}
    (hsize : docs.length < 0x8000000000000000) :
    run (skip.toList.map fun n => [("$skip", .int64 (Int64.ofInt (min (n.toNat : Int) maxInt64)))])
      docs = .ok (docs.drop (skip.getD 0).toNat) := by
  cases skip with
  | none => rfl
  | some n =>
    have hmax : maxInt64 = (0x7fffffffffffffff : Nat) := by decide
    have hmin : min (n.toNat : Int) maxInt64 = (min n.toNat 0x7fffffffffffffff : Nat) := by omega
    rw [Option.toList_some, List.map_singleton, run_single, hmin]
    show (count "$skip" _).map docs.drop = _
    rw [count_int64 _ (Int64.toInt_ofInt_of_le (by omega) (by omega))]
    show Except.ok (docs.drop (min n.toNat 0x7fffffffffffffff)) = .ok (docs.drop n.toNat)
    by_cases hn : n.toNat ≤ 0x7fffffffffffffff
    · rw [Nat.min_eq_left hn]
    · rw [List.drop_eq_nil_of_le (by omega), List.drop_eq_nil_of_le (by omega)]

theorem toInt_abs {n : Int64} (h : n ≠ Int64.minValue) : n.abs.toInt = n.toInt.natAbs := by
  show n.abs.toBitVec.toInt = n.toBitVec.toInt.natAbs
  rw [Int64.toBitVec_abs]
  refine BitVec.toInt_abs_eq_natAbs_of_ne_intMin fun hmin => h ?_
  exact Int64.toBitVec_inj.mp hmin

/-- A limit keeps so many documents, and a limit of zero keeps all of them. -/
theorem run_limit {limit : Option Int64} (h : limit ≠ some Int64.minValue) (docs : List Document) :
    run (((limit.map Int64.abs).filter (0 < ·)).toList.map fun n => [("$limit", .int64 n)]) docs =
      .ok (if (limit.getD 0).toInt.natAbs = 0 then docs
        else docs.take (limit.getD 0).toInt.natAbs) := by
  cases limit with
  | none => rfl
  | some n =>
    have habs : n.abs.toInt = n.toInt.natAbs := toInt_abs fun hn => h (congrArg some hn)
    have hpos : 0 < n.abs ↔ n.toInt.natAbs ≠ 0 := by
      rw [Int64.lt_iff_toInt_lt, habs]
      show (0 : Int) < _ ↔ _
      omega
    rw [Option.map_some, Option.getD_some]
    by_cases hn : n.toInt.natAbs = 0
    · rw [if_pos hn, Option.filter_some_neg (by simpa [hpos] using hn)]
      rfl
    · rw [if_neg hn, Option.filter_some_pos (by simpa [hpos] using hn), Option.toList_some,
        List.map_singleton, run_single]
      show (count "$limit" _).map docs.take = _
      rw [count_int64 _ habs]
      rfl

theorem run_project (projection : Option Document) (docs : List Document) :
    run (projection.toList.map fun spec => [("$project", .document spec)]) docs =
      .ok ((projection.map fun spec => docs.map (Projection.apply spec)).getD docs) := by
  cases projection with
  | none => rfl
  | some spec => exact run_single _ _

/-- The stages for options arrange documents as a find does, unless the limit is the least one, which
has no stage. -/
theorem run_ofOptions {options : FindOptions} {docs : List Document}
    (hsize : docs.length < 0x8000000000000000) (hlimit : options.limit ≠ some Int64.minValue) :
    run (ofOptions options) docs = .ok (options.arrange docs) := by
  have hsorted : ((options.sort.map fun spec => Sorting.sort spec docs).getD docs).length <
      0x8000000000000000 := by
    cases options.sort with
    | none => exact hsize
    | some spec =>
      rw [Option.map_some, Option.getD_some, (Sorting.sort_perm spec docs).length_eq]
      exact hsize
  have hpage : ∀ sorted : List Document, options.page sorted =
      if (options.limit.getD 0).toInt.natAbs = 0 then sorted.drop (options.skip.getD 0).toNat
      else (sorted.drop (options.skip.getD 0).toNat).take (options.limit.getD 0).toInt.natAbs := by
    intro sorted
    unfold FindOptions.page
    dsimp only
    split
    · rename_i h
      rw [if_pos h]
    · rename_i h
      rw [if_neg h]
  unfold ofOptions FindOptions.arrange
  dsimp only
  rw [run_append, run_append, run_append, run_sort, hpage]
  show run _ _ >>= run _ >>= run _ = _
  rw [run_skip _ hsorted]
  show run _ _ >>= run _ = _
  rw [run_limit hlimit]
  exact run_project _ _

end Pipeline

/-! ### A find and its aggregation -/

namespace Query

/-- The find with a filter and with the options and the cursor of a query. -/
def asFind (q : Query) (f : Json.Object) : Query :=
  { q with operation := .find, filter := some f }

/-- The aggregation that matches a filter and has the options and the cursor of a query. -/
def asAggregate (q : Query) (f : Json.Object) : Query :=
  { q with operation := .aggregate, pipeline := [Seek.stage f] }

theorem validate_asAggregate (q : Query) (f : Json.Object) :
    (q.asAggregate f).validate = (q.asFind f).validate := rfl

end Query

namespace Connection

theorem ofJson_stage {f : Json.Object} {filter : Document} (h : Document.ofJson f = .ok filter) :
    Document.ofJson (Seek.stage f) = .ok [("$match", .document filter)] := by
  have hread : Value.ofJson? (.object (Seek.stage f)) =
      some (.document [("$match", .document filter)]) :=
    Value.ofJson?_single (by decide) (ofJson?_of_ofJson h)
  rw [Document.ofJson, hread]

/-- The filter of a cursor is the first stage of an aggregation. -/
theorem pipelineDocuments_applySeek {q : Query} (hop : q.operation = .aggregate) {seek : Json.Object}
    {g : Document} {stages : List Document} (hg : Document.ofJson seek = .ok g)
    (hstages : q.pipelineDocuments = .ok stages) :
    (q.applySeek seek).pipelineDocuments = .ok ([("$match", .document g)] :: stages) := by
  have hpipeline : (q.applySeek seek).pipeline = Seek.stage seek :: q.pipeline := by
    rw [Query.applySeek, hop]
  rw [Query.pipelineDocuments] at hstages ⊢
  rw [hpipeline, List.mapM_cons, ofJson_stage hg, hstages]
  rfl

/-- An aggregation hands out a stream, or fails and changes nothing. -/
theorem run_aggregate (database collection : String) (pipeline : List Document) (m : Memory) :
    (Memory.store.aggregate database collection pipeline).run m =
      match Pipeline.run pipeline (m.documents database collection) with
      | .error fault => (.error (.store fault), m)
      | .ok docs => (.ok (docs.map .ok), { m with openCursors := m.openCursors + 1 }) :=
  Memory.run_handOut _ m

/-- The filter of a query's cursor is a document that can be evaluated on all documents. -/
theorem evaluates_of_seek? {q : Query}
    (hfields : ∀ info, q.cursorInfo = some info → Seek.OrdersByFields info) {seek : Json.Object}
    (h : q.seek? = some seek) :
    ∃ g, Document.ofJson seek = .ok g ∧ ∀ d, Evaluates g d := by
  unfold Query.seek? at h
  obtain ⟨info, hinfo, h⟩ := Option.bind_eq_some_iff.mp h
  obtain ⟨c, -, h⟩ := Option.bind_eq_some_iff.mp h
  obtain ⟨-, vs, -, -, -, husable, hfilter⟩ :=
    Seek.seek_eq_some (hfields info hinfo) (seek?_eq_some_iff.mp h)
  exact ⟨_, hfilter, fun d => ⟨_, Seek.accepts_filterDocument husable d⟩⟩

/-- With or without the filter of a cursor, the filter of the find and the stages of the aggregation
select the same documents. -/
theorem exists_selection {q : Query} {f : Json.Object} {filter : Document}
    (hfilter : Document.ofJson f = .ok filter)
    (hfields : ∀ info, q.cursorInfo = some info → Seek.OrdersByFields info) {docs : List Document}
    (hevaluates : ∀ d ∈ docs, Evaluates filter d) :
    ∃ h stages selected, (q.asFind f).applyCursor.filterDocument = .ok h ∧
      (q.asAggregate f).applyCursor.pipelineDocuments = .ok stages ∧
      select h docs = .ok selected ∧ Pipeline.run stages docs = .ok selected ∧
      selected.length ≤ docs.length := by
  have hown : (q.asFind f).filterDocument = .ok filter := hfilter
  have hstages : (q.asAggregate f).pipelineDocuments = .ok [[("$match", .document filter)]] := by
    show [Seek.stage f].mapM Document.ofJson = _
    rw [List.mapM_cons, ofJson_stage hfilter]
    rfl
  cases hseek : q.seek? with
  | none =>
    have hfind : (q.asFind f).applyCursor = q.asFind f := applyCursor_of_no_seek hseek
    have haggregate : (q.asAggregate f).applyCursor = q.asAggregate f := applyCursor_of_no_seek hseek
    have hselect : select filter docs = .ok (docs.filter (holds filter)) :=
      select_eq_ok_iff.mpr ⟨hevaluates, rfl⟩
    refine ⟨filter, _, _, by rw [hfind, hown], by rw [haggregate, hstages], hselect, ?_,
      List.length_filter_le _ _⟩
    rw [Pipeline.run_single]
    exact hselect
  | some seek =>
    obtain ⟨g, hg, hgevaluates⟩ := evaluates_of_seek? hfields hseek
    have hfind : (q.asFind f).applyCursor = (q.asFind f).applySeek seek := by
      have hown : (q.asFind f).seek? = some seek := hseek
      rw [Query.applyCursor, hown]
    have haggregate : (q.asAggregate f).applyCursor = (q.asAggregate f).applySeek seek := by
      have hown : (q.asAggregate f).seek? = some seek := hseek
      rw [Query.applyCursor, hown]
    obtain ⟨h, hh, hconjoins⟩ := filterDocument_applySeek rfl hown hg
    have hboth := hconjoins.select_eq hevaluates fun d _ => hgevaluates d
    have hpipeline := pipelineDocuments_applySeek (q := q.asAggregate f) rfl hg hstages
    refine ⟨h, _, _, by rw [hfind, hh], by rw [haggregate, hpipeline], hboth, ?_, ?_⟩
    · -- the cursor's filter comes first in the pipeline
      have hrest := Pipeline.runStage_select fun d hd =>
        hevaluates d (List.mem_of_mem_filter (p := holds g) hd)
      rw [Pipeline.run_cons (Pipeline.runStage_select fun d _ => hgevaluates d), Pipeline.run_single,
        hrest, List.filter_comm]
    · exact Nat.le_trans (List.length_filter_le _ _) (List.length_filter_le _ _)

/-! ### Options -/

/-- The limit and the sorting of options that are understood are those that were given. -/
theorem option?_of_findOptions {q : Query} {options : FindOptions}
    (h : q.findOptions = .ok options) :
    q.option? .limit (fun v => Query.orBad .limit v.int64?) = .ok options.limit ∧
      q.option? .sort (Query.documentOption .sort) = .ok options.sort := by
  obtain ⟨limit, hlimit, h⟩ := bind_eq_ok_iff.mp h
  obtain ⟨skip, -, h⟩ := bind_eq_ok_iff.mp h
  obtain ⟨sort, hsort, h⟩ := bind_eq_ok_iff.mp h
  obtain ⟨projection, -, h⟩ := bind_eq_ok_iff.mp h
  obtain rfl := Except.ok.inj h
  exact ⟨hlimit, hsort⟩

theorem limit_ne_of_findOptions {q : Query} {options : FindOptions} {n : Int64}
    (h : q.findOptions = .ok options)
    (hlimit : (q.options.get? OptionName.limit.name).bind Json.int64? ≠ some n) :
    options.limit ≠ some n := by
  rcases Query.option?_eq_ok_iff.mp (option?_of_findOptions h).1 with ⟨-, hnone⟩ | ⟨v, a, hv, ha, hsome⟩
  · rw [hnone]
    exact nofun
  · rw [hsome]
    intro ha'
    obtain rfl := Option.some.inj ha'
    rw [hv, Option.bind_some] at hlimit
    unfold Query.orBad at ha
    split at ha
    · rename_i hint
      exact hlimit (hint.trans (congrArg some (Except.ok.inj ha)))
    · cases ha

/-- A find that is sorted explicitly, or has no columns to be sorted by, has the options of its
aggregation. -/
theorem findOptions_eq_own {q : Query} {options : FindOptions} (h : q.findOptions = .ok options)
    (hsort : q.options.has OptionName.sort.name = true ∨
      ∀ info, q.cursorInfo = some info → info.orderBy = []) : findOptions q = .ok options := by
  have hgiven := (option?_of_findOptions h).2
  obtain ⟨limit, skip, sort, projection⟩ := options
  unfold findOptions
  rw [h]
  cases sort with
  | some spec => rfl
  | none =>
    cases hinfo : q.cursorInfo with
    | none => rfl
    | some info =>
      rcases hsort with hsort | hsort
      · -- a sorting that was given is understood
        rcases Query.option?_eq_ok_iff.mp hgiven with ⟨hnone, -⟩ | ⟨v, a, -, -, hsome⟩
        · rw [Fields.has, hnone] at hsort
          cases hsort
        · cases hsome
      · show Except.ok (if info.orderBy = [] then _ else _) = _
        rw [if_pos (hsort info hinfo)]

/-! ### Executions -/

/-- What a find hands out of the documents that its filter selects. -/
theorem run_execute_find (conn : Connection) (m : Memory) {q : Query} (hop : q.operation = .find)
    {filter : Document} {options : FindOptions} {selected : List Document}
    (hvalidate : q.validate = .ok ()) (hfilter : q.applyCursor.filterDocument = .ok filter)
    (hoptions : findOptions q = .ok options)
    (hselect : select filter (m.documents conn.database q.collectionName) = .ok selected) :
    (conn.execute Memory.store false q).run m =
      (.ok (.documents (some ((options.arrange selected).map .ok))),
        { m with openCursors := m.openCursors + 1 }) := by
  have hrun : options.run filter (m.documents conn.database q.collectionName) =
      .ok (options.arrange selected) := by
    rw [options.run_eq_map_arrange, hselect]
    rfl
  unfold execute
  simp only [Bool.false_eq_true, if_false, StoreM.run_bind, StoreM.run_lift, hvalidate,
    operation_applyCursor, hop, find, hfilter, findOptions_applyCursor, hoptions,
    collectionName_applyCursor, run_find, hrun, StoreM.run_pure]

/-- What an aggregation hands out of the documents that its stages make. -/
theorem run_execute_aggregate (conn : Connection) (m : Memory) {q : Query}
    (hop : q.operation = .aggregate) {stages : List Document} {options : FindOptions}
    {selected : List Document} (hvalidate : q.validate = .ok ())
    (hstages : q.applyCursor.pipelineDocuments = .ok stages)
    (hoptions : q.findOptions = .ok options)
    (hselect : Pipeline.run stages (m.documents conn.database q.collectionName) = .ok selected)
    (hsize : selected.length < 0x8000000000000000)
    (hlimit : options.limit ≠ some Int64.minValue) :
    (conn.execute Memory.store false q).run m =
      (.ok (.documents (some ((options.arrange selected).map .ok))),
        { m with openCursors := m.openCursors + 1 }) := by
  have hown : q.applyCursor.findOptions = .ok options := by
    obtain ⟨pipeline, filter, h⟩ := applyCursor_cases q
    rw [h]
    exact hoptions
  have hrun : Pipeline.run (stages ++ Pipeline.ofOptions options)
      (m.documents conn.database q.collectionName) = .ok (options.arrange selected) := by
    rw [Pipeline.run_append, hselect]
    exact Pipeline.run_ofOptions hsize hlimit
  unfold execute
  simp only [Bool.false_eq_true, if_false, StoreM.run_bind, StoreM.run_lift, hvalidate,
    operation_applyCursor, hop, aggregate, hstages, hown, collectionName_applyCursor, run_aggregate,
    hrun, StoreM.run_pure]

/-- **Finds are aggregations**: on a collection on whose documents a filter can be evaluated, a find
with the filter and an aggregation that matches it, with the same options and the same cursor, answer
the same documents in the same order, or fail with the same error of validation.  The find must not be
sorted by the columns of its cursor alone. -/
theorem execute_find_eq_aggregate (conn : Connection) (m : Memory) {q : Query} {f : Json.Object}
    {filter : Document} (hfilter : Document.ofJson f = .ok filter)
    (hsize : (m.documents conn.database q.collectionName).length < 0x8000000000000000)
    (hevaluates : ∀ d ∈ m.documents conn.database q.collectionName, Evaluates filter d)
    (hlimit : (q.options.get? OptionName.limit.name).bind Json.int64? ≠ some Int64.minValue)
    (hfields : ∀ info, q.cursorInfo = some info → Seek.OrdersByFields info)
    (hsort : q.options.has OptionName.sort.name = true ∨
      ∀ info, q.cursorInfo = some info → info.orderBy = []) :
    (conn.execute Memory.store false (q.asFind f)).run m =
        (conn.execute Memory.store false (q.asAggregate f)).run m ∧
      ((∃ docs : List Document, (conn.execute Memory.store false (q.asFind f)).run m =
          (.ok (.documents (some (docs.map .ok))), { m with openCursors := m.openCursors + 1 })) ∨
        ∃ e, (q.asFind f).validate = .error e ∧
          (conn.execute Memory.store false (q.asFind f)).run m = (.error e, m)) := by
  cases hvalidate : (q.asFind f).validate with
  | error e =>
    have hfails : ∀ q' : Query, q'.validate = .error e →
        (conn.execute Memory.store false q').run m = (.error e, m) := by
      intro q' h
      unfold execute
      simp only [Bool.false_eq_true, if_false, StoreM.run_bind, StoreM.run_lift, h]
    rw [hfails _ hvalidate, hfails _ (q.validate_asAggregate f ▸ hvalidate)]
    exact ⟨rfl, .inr ⟨e, rfl, rfl⟩⟩
  | ok _ =>
    obtain ⟨options, hoptions⟩ := ((validate_eq_ok_iff rfl).mp hvalidate).2
    obtain ⟨g, stages, selected, hg, hstages, hselect, hrun, hlength⟩ :=
      exists_selection hfilter hfields hevaluates
    have hown : findOptions (q.asFind f) = .ok options := findOptions_eq_own hoptions hsort
    have hfind := run_execute_find conn m rfl hvalidate hg hown hselect
    have haggregate := run_execute_aggregate conn m rfl (q.validate_asAggregate f ▸ hvalidate)
      hstages hoptions hrun (by omega) (limit_ne_of_findOptions hoptions hlimit)
    rw [hfind, haggregate]
    exact ⟨rfl, .inl ⟨_, rfl⟩⟩

/-- A site that numbers its items. -/
def numberedItems : Memory :=
  Memory.empty.insertMany "site" "items" [[("n", .int32 1)], [("n", .int32 2)], [("n", .int32 3)]]

/-- The items behind the first one, the last of them first, without the first of those. -/
def itemsBehindFirst : Query where
  operation := .find
  collection := some "items"
  options := [("sort", .object [("n", .ofInt64 (-1))]), ("skip", .ofInt64 1), ("limit", .ofInt64 (-5))]
  cursorInfo := some ⟨7, "", [⟨"n", .ascending, none⟩]⟩
  cursor := some (.string "7:1")

theorem execute_find_eq_aggregate_numberedItems :
    (∀ d ∈ numberedItems.documents "site" itemsBehindFirst.collectionName,
      Evaluates [("n", .document [("$gt", .int32 0)])] d) ∧
    ∃ docs : List Document, ((toDatabase "site").execute Memory.store false
        (itemsBehindFirst.asAggregate [("n", .object [("$gt", .ofInt64 0)])])).run numberedItems =
      (.ok (.documents (some (docs.map .ok))), { numberedItems with openCursors := 1 }) := by
  have hfilter : Document.ofJson [("n", .object [("$gt", .ofInt64 0)])] =
      .ok [("n", .document [("$gt", .int32 0)])] := rfl
  have hitems : numberedItems.documents "site" itemsBehindFirst.collectionName =
      [[("n", .int32 1)], [("n", .int32 2)], [("n", .int32 3)]] := rfl
  have hevaluates : ∀ d ∈ numberedItems.documents "site" itemsBehindFirst.collectionName,
      Evaluates [("n", .document [("$gt", .int32 0)])] d := by
    rw [hitems]
    simp only [List.forall_mem_cons]
    exact ⟨⟨true, by decide +kernel⟩, ⟨true, by decide +kernel⟩, ⟨true, by decide +kernel⟩, nofun⟩
  have hfields : ∀ info, itemsBehindFirst.cursorInfo = some info → Seek.OrdersByFields info := by
    intro info hinfo
    obtain rfl := Option.some.inj hinfo
    unfold Seek.OrdersByFields
    decide
  have hlimit : (itemsBehindFirst.options.get? OptionName.limit.name).bind Json.int64? ≠
      some Int64.minValue := by decide
  have hvalidate : ∀ e, (itemsBehindFirst.asFind [("n", .object [("$gt", .ofInt64 0)])]).validate ≠
      .error e := nofun
  obtain ⟨hequal, ⟨docs, hdocs⟩ | ⟨e, he, -⟩⟩ := execute_find_eq_aggregate (toDatabase "site")
    numberedItems hfilter (by decide) hevaluates hlimit hfields (.inl rfl)
  · exact ⟨hevaluates, docs, hequal.symm.trans hdocs⟩
  · exact absurd he (hvalidate e)

end Connection

end Keyset
