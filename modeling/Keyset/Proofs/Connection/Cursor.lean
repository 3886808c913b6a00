import Keyset.Proofs.Connection.Find

/-!
# Cursors that cannot be used

A query whose cursor stands for no filter is executed like the query without a cursor, whatever the
store does, and no cursor makes an execution fail with an error about cursors
(`execute_of_rejected_cursor`).

The second half is about where errors come from.  A query that is not understood is malformed or names
no collection (`validate_kinds`); everything else that can fail is the reader, who was cancelled, and
the store (`execute_kinds`).
-/

namespace Keyset

/-! ### Kinds of errors -/

/-- A result whose error, if it is one, is of one of some kinds. -/
def FailsIn {α : Type} (kinds : List ErrorKind) (r : Except Error α) : Prop :=
  ∀ e, r = .error e → e.kind ∈ kinds

namespace FailsIn

variable {α β : Type} {kinds : List ErrorKind}

theorem ok (a : α) : FailsIn kinds (.ok a) := nofun

theorem error {e : Error} (h : e.kind ∈ kinds) : FailsIn kinds (.error e : Except Error α) := by
  intro e' he
  rwa [← Except.error.inj he]

theorem bind {r : Except Error α} {next : α → Except Error β} (h : FailsIn kinds r)
    (hnext : ∀ a, FailsIn kinds (next a)) : FailsIn kinds (r >>= next) := by
  cases r with
  | error e => exact error (h e rfl)
  | ok a => exact hnext a

theorem map {r : Except Error α} (h : FailsIn kinds r) (f : α → β) : FailsIn kinds (r.map f) := by
  cases r with
  | error e => exact error (h e rfl)
  | ok a => exact ok (f a)

theorem optionMapM {read : α → Except Error β} (h : ∀ a, FailsIn kinds (read a)) (v : Option α) :
    FailsIn kinds (v.mapM read) := by
  cases v with
  | none => exact ok none
  | some a => exact (h a).bind fun b => ok (some b)

theorem listMapM {read : α → Except Error β} (h : ∀ a, FailsIn kinds (read a)) (as : List α) :
    FailsIn kinds (as.mapM read) := by
  induction as with
  | nil => exact ok []
  | cons a as ih =>
    rw [List.mapM_cons]
    exact (h a).bind fun b => ih.bind fun bs => ok (b :: bs)

end FailsIn

/-- An action of a store whose errors are all of some kinds. -/
def StoreM.FailsIn {σ α : Type} (kinds : List ErrorKind) (action : StoreM σ α) : Prop :=
  ∀ state, Keyset.FailsIn kinds (action.run state).1

namespace StoreM.FailsIn

variable {σ α β : Type} {kinds : List ErrorKind}

theorem pure (a : α) : FailsIn kinds (Pure.pure a : StoreM σ α) := fun _ => .ok a

theorem lift {r : Except Error α} (h : Keyset.FailsIn kinds r) :
    FailsIn kinds (liftM r : StoreM σ α) := by
  intro state
  rw [run_lift]
  exact h

theorem bind {action : StoreM σ α} {next : α → StoreM σ β} (h : FailsIn kinds action)
    (hnext : ∀ a, FailsIn kinds (next a)) : FailsIn kinds (action >>= next) := by
  intro state
  have herror := h state
  rw [run_bind]
  cases hrun : action.run state with
  | mk r state' =>
    rw [hrun] at herror
    cases r with
    | error e => exact .error (herror e rfl)
    | ok a => exact hnext a state'

theorem mono {action : StoreM σ α} {kinds' : List ErrorKind} (h : FailsIn kinds action)
    (hsub : kinds ⊆ kinds') : FailsIn kinds' action :=
  fun state e he => hsub (h state e he)

end StoreM.FailsIn

/-! ### Queries that are not understood -/

namespace Query

variable (q : Query)

theorem ofJson_kinds (fields : Json.Object) :
    FailsIn [.malformedInput] (Document.ofJson fields) := by
  unfold Document.ofJson
  split
  · exact .ok _
  · exact .error (List.mem_singleton.mpr rfl)
  · exact .error (List.mem_singleton.mpr rfl)

theorem orBad_kinds {α : Type} (option : OptionName) (v : Option α) :
    FailsIn [.malformedInput] (orBad option v) := by
  cases v with
  | none => exact .error (List.mem_singleton.mpr rfl)
  | some a => exact .ok a

theorem documentOption_kinds (option : OptionName) (v : Json) :
    FailsIn [.malformedInput] (documentOption option v) := by
  cases v with
  | object fields => exact ofJson_kinds fields
  | _ => exact .error (List.mem_singleton.mpr rfl)

theorem collectionsOption_kinds (v : Json) : FailsIn [.malformedInput] (collectionsOption v) := by
  unfold collectionsOption
  split
  · exact .ok none
  · exact orBad_kinds _ _

theorem option?_kinds {α : Type} (option : OptionName) {read : Json → Except Error α}
    (h : ∀ v, FailsIn [.malformedInput] (read v)) :
    FailsIn [.malformedInput] (q.option? option read) :=
  FailsIn.optionMapM h _

theorem findOptions_kinds : FailsIn [.malformedInput] q.findOptions := by
  unfold findOptions
  refine (q.option?_kinds .limit fun v => orBad_kinds .limit v.int64?).bind fun limit => ?_
  refine (q.option?_kinds .skip fun v => orBad_kinds .skip v.uint64?).bind fun skip => ?_
  refine (q.option?_kinds .sort (documentOption_kinds .sort)).bind fun sort => ?_
  refine (q.option?_kinds .projection (documentOption_kinds .projection)).bind fun projection => ?_
  exact .ok _

theorem introspectOptions_kinds : FailsIn [.malformedInput] q.introspectOptions := by
  unfold introspectOptions
  refine (q.option?_kinds .sampleSize fun v => orBad_kinds .sampleSize _).bind fun size => ?_
  exact (q.option?_kinds .collections collectionsOption_kinds).bind fun collections => .ok _

theorem filterDocument_kinds : FailsIn [.malformedInput] q.filterDocument := by
  unfold filterDocument
  split
  · exact ofJson_kinds _
  · exact .ok []

theorem pipelineDocuments_kinds : FailsIn [.malformedInput] q.pipelineDocuments :=
  FailsIn.listMapM ofJson_kinds _

/-- A query that is not valid names no collection or has an option that is malformed. -/
theorem validate_kinds : FailsIn [.missingOperation, .malformedInput] q.validate := by
  unfold validate
  split_ifs
  · exact .error (by decide)
  · intro e he
    have hoptions : FailsIn [.malformedInput] q.checkOptions := by
      unfold checkOptions
      split
      · exact (introspectOptions_kinds q).map _
      · exact (findOptions_kinds q).map _
      · exact (findOptions_kinds q).map _
    exact List.mem_cons_of_mem _ (hoptions e he)

end Query

/-! ### Executions that fail -/

/-- A store that answers a query with an error only by a failure of its own. -/
structure DocumentStore.ReportsBackend {σ : Type} (store : DocumentStore σ) : Prop where
  listCollections : ∀ database, (store.listCollections database).FailsIn [.backendError]
  find : ∀ database collection filter options,
    (store.find database collection filter options).FailsIn [.backendError]
  aggregate : ∀ database collection pipeline,
    (store.aggregate database collection pipeline).FailsIn [.backendError]
  sample : ∀ database collection size, (store.sample database collection size).FailsIn [.backendError]

namespace Memory

theorem handOut_kinds (docs : Except StoreFault (List Document)) :
    (handOut docs).FailsIn [.backendError] := by
  intro m
  cases docs with
  | error fault => exact .error (List.mem_singleton.mpr rfl)
  | ok docs => exact .ok _

/-- The store in memory reports nothing else, also with failures that it is told to have. -/
theorem reportsBackend (faults : Faults) : (store.withFaults faults).ReportsBackend := by
  have hguarded : ∀ {α : Type} (fault : Option String) {action : StoreM Memory α},
      action.FailsIn [.backendError] → (Faults.guarded fault action).FailsIn [.backendError] := by
    intro α fault action h
    cases fault with
    | none => exact h
    | some text => exact fun m => .error (List.mem_singleton.mpr rfl)
  constructor
  · exact fun database => hguarded _ fun m => .ok _
  · intro database collection filter options
    refine hguarded _ (StoreM.FailsIn.bind ?_ fun stream => .pure _)
    exact fun m => handOut_kinds _ m
  · intro database collection pipeline
    refine hguarded _ (StoreM.FailsIn.bind ?_ fun stream => .pure _)
    exact fun m => handOut_kinds _ m
  · exact fun database collection size => hguarded _ fun m => .ok _

end Memory

namespace Connection

variable {σ : Type}

/-- The kinds of errors of an execution. -/
def executionKinds : List ErrorKind :=
  [.cancelled, .missingOperation, .malformedInput, .backendError]

theorem columnsOf_kinds {store : DocumentStore σ} (hstore : store.ReportsBackend)
    (conn : Connection) (size : UInt64) (collections : List String) :
    (conn.columnsOf store size collections).FailsIn executionKinds := by
  induction collections with
  | nil => exact .pure []
  | cons collection rest ih =>
    refine ((hstore.sample conn.database collection size).mono (by decide)).bind fun docs => ?_
    exact ih.bind fun columns => .pure _

/-- An execution fails because its reader was cancelled, its query is not understood or its store
fails. -/
theorem execute_kinds {store : DocumentStore σ} (hstore : store.ReportsBackend) (conn : Connection)
    (cancelled : Bool) (q : Query) : (conn.execute store cancelled q).FailsIn executionKinds := by
  have hmalformed : ∀ {α : Type} {r : Except Error α}, FailsIn [.malformedInput] r →
      (liftM r : StoreM σ α).FailsIn executionKinds :=
    fun h => (StoreM.FailsIn.lift h).mono (by decide)
  cases cancelled with
  | true => exact fun state => .error (by decide)
  | false => ?_
  unfold execute
  simp only [Bool.false_eq_true, if_false]
  refine ((StoreM.FailsIn.lift q.validate_kinds).mono (by decide)).bind fun _ => ?_
  split
  · -- a find
    refine StoreM.FailsIn.bind ?_ fun items => .pure _
    refine (hmalformed q.applyCursor.filterDocument_kinds).bind fun filter => ?_
    have hoptions : FailsIn [.malformedInput] (findOptions q.applyCursor) := by
      refine q.applyCursor.findOptions_kinds.bind fun options => ?_
      split <;> exact .ok _
    exact (hmalformed hoptions).bind fun options => (hstore.find _ _ _ _).mono (by decide)
  · -- an aggregation
    refine StoreM.FailsIn.bind ?_ fun items => .pure _
    refine (hmalformed q.applyCursor.pipelineDocuments_kinds).bind fun stages => ?_
    exact (hmalformed q.applyCursor.findOptions_kinds).bind fun options =>
      (hstore.aggregate _ _ _).mono (by decide)
  · -- an introspection
    refine (hmalformed q.applyCursor.introspectOptions_kinds).bind fun options => ?_
    have htable : ∀ size collections, StoreM.FailsIn executionKinds (do
        let columns ← conn.columnsOf store size collections
        return Rows.tabular Columns.header (columns.map Column.row)) :=
      fun size collections =>
        (columnsOf_kinds hstore conn size collections).bind fun columns => .pure _
    dsimp only
    split
    · exact (StoreM.FailsIn.pure _).bind fun collections => htable _ _
    · exact ((hstore.listCollections _).mono (by decide)).bind fun collections => htable _ _

end Connection

/-! ### Cursors without a filter -/

/-- A value that is no cursor: not a string, a blank one, or one that the decoder finds empty or cannot
use. -/
def CursorInfo.Rejects (info : CursorInfo) (cursor : Json) : Prop :=
  ∀ c, cursor = .string c →
    Text.trim c.toList = [] ∨ info.seek c = .ok none ∨ ∃ e, info.seek c = .error e

namespace Connection

variable {σ : Type}

/-- A query has no filter to add exactly when its cursor is rejected. -/
theorem seek?_eq_none_iff {q : Query} :
    q.seek? = none ↔ ∀ info v, q.cursorInfo = some info → q.cursor = some v → info.Rejects v := by
  constructor
  · intro hseek info v hinfo hv c hc
    rw [seek?_of_cursor hinfo (hv.trans (congrArg some hc))] at hseek
    unfold CursorInfo.seek? at hseek
    cases hread : info.seek c with
    | error e => exact .inr (.inr ⟨e, rfl⟩)
    | ok filter =>
      rw [hread] at hseek
      exact .inr (.inl (congrArg _ hseek))
  · intro hrejects
    cases hinfo : q.cursorInfo with
    | none =>
      unfold Query.seek?
      rw [hinfo]
      rfl
    | some info =>
      cases hcursor : q.cursor with
      | none => exact seek?_of_no_cursor hcursor
      | some v =>
        have hv := hrejects info v hinfo hcursor
        cases v with
        | string c =>
          -- a blank cursor is passed over before it is decoded
          rcases hv c rfl with hblank | hseek | ⟨e, hseek⟩
          · unfold Query.seek? Query.cursorText?
            rw [hinfo, hcursor]
            simp [Json.string?, hblank]
          · rw [seek?_of_cursor hinfo hcursor, CursorInfo.seek?, hseek]
          · rw [seek?_of_cursor hinfo hcursor, CursorInfo.seek?, hseek]
        | _ =>
          unfold Query.seek? Query.cursorText?
          rw [hinfo, hcursor]
          rfl

/-- Without a filter of a cursor, an execution does not depend on the cursor. -/
theorem execute_of_no_seek {q : Query} (h : q.seek? = none) (conn : Connection)
    (store : DocumentStore σ) (cancelled : Bool) :
    conn.execute store cancelled q = conn.execute store cancelled { q with cursor := none } := by
  let bare : Query := { q with cursor := none }
  have hbare : bare.applyCursor = bare := applyCursor_of_no_seek (seek?_of_no_cursor rfl)
  show _ = conn.execute store cancelled bare
  unfold execute
  rw [applyCursor_of_no_seek h, hbare]
  rfl

/-- **An unusable cursor is the same as no cursor**: if the cursor of a query is rejected, nothing is
added to the query and its execution is, on any store, the one without a cursor: it makes the same
calls with the same answers and errors.  And whatever the cursor is, an execution on a store that
reports only its own failures does not fail because of the cursor. -/
theorem execute_of_rejected_cursor (conn : Connection) (store : DocumentStore σ) (cancelled : Bool)
    (q : Query) :
    ((∀ info v, q.cursorInfo = some info → q.cursor = some v → info.Rejects v) →
      q.seek? = none ∧ q.applyCursor = q ∧
        conn.execute store cancelled q = conn.execute store cancelled { q with cursor := none }) ∧
    (store.ReportsBackend → ∀ state e state',
      (conn.execute store cancelled q).run state = (.error e, state') →
        e.kind ≠ .cursorInvalid ∧ e.kind ≠ .typeMismatch) := by
  constructor
  · intro hrejects
    have hseek := seek?_eq_none_iff.mpr hrejects
    exact ⟨hseek, applyCursor_of_no_seek hseek, execute_of_no_seek hseek conn store cancelled⟩
  · intro hstore state e state' hrun
    have hkind : e.kind ∈ executionKinds := execute_kinds hstore conn cancelled q state e (by rw [hrun])
    constructor
    · intro h
      rw [h] at hkind
      exact absurd hkind (by decide)
    · intro h
      rw [h] at hkind
      exact absurd hkind (by decide)

/-- An aggregation with a stage that is not known, and a cursor of another site. -/
def foreignCursor : Query where
  operation := .aggregate
  collection := some "items"
  pipeline := [[("$shuffle", .null)]]
  cursorInfo := some ⟨7, "", [⟨"id", .ascending, none⟩]⟩
  cursor := some (.string "8:1")

theorem execute_of_rejected_cursor_foreign :
    (∀ info v, foreignCursor.cursorInfo = some info → foreignCursor.cursor = some v →
      info.Rejects v) ∧
    (Memory.store.withFaults {}).ReportsBackend ∧ foreignCursor.applyCursor = foreignCursor ∧
    ((toDatabase "shop").execute (Memory.store.withFaults {}) false foreignCursor).run .empty =
      (.error (.store (.unsupportedStage "$shuffle")), .empty) ∧
    (Error.store (.unsupportedStage "$shuffle")).kind ≠ .cursorInvalid := by
  have hseek : CursorInfo.seek ⟨7, "", [⟨"id", .ascending, none⟩]⟩ "8:1" =
      .error (.cursor (.otherSite 8 7)) := rfl
  have hrejects : ∀ info v, foreignCursor.cursorInfo = some info → foreignCursor.cursor = some v →
      info.Rejects v := by
    intro info v hinfo hv c hc
    obtain rfl : _ = info := Option.some.inj hinfo
    obtain rfl : "8:1" = c := Json.string.inj ((Option.some.inj hv).trans hc)
    exact .inr (.inr ⟨_, hseek⟩)
  have hstore := Memory.reportsBackend {}
  have hrun : ((toDatabase "shop").execute (Memory.store.withFaults {}) false foreignCursor).run
      .empty = (.error (.store (.unsupportedStage "$shuffle")), .empty) := rfl
  obtain ⟨hunusable, hkinds⟩ := execute_of_rejected_cursor (toDatabase "shop")
    (Memory.store.withFaults {}) false foreignCursor
  exact ⟨hrejects, hstore, (hunusable hrejects).2.1, hrun, (hkinds hstore _ _ _ hrun).1⟩

end Connection

end Keyset
