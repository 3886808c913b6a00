import Keyset.Proofs.Connection.Find
import Keyset.Proofs.Rows
import Keyset.Session
import Mathlib.Data.List.Perm.Basic
import Mathlib.Data.List.Perm.Subperm

/-!
# Streams are released

Every stream that a store in memory hands out is released once: at its end, at an error in it, because
its reader was cancelled, or because its rows are closed or dropped, whichever comes first
(`Client.step_run_accounted`).

An action accounts for the streams that it takes over and for those that it leaves (`Accounts`), and an
action that fails leaves none.  What a client does with its rows is made of such actions.
-/

namespace Keyset

/-! ### Counting what a store hands out -/

/-- What an answer weighs; an error weighs nothing. -/
def weightOf {α : Type} (weight : α → Nat) : Except Error α → Nat
  | .ok a => weight a
  | .error _ => 0

@[simp] theorem weightOf_zero {α : Type} (r : Except Error α) : weightOf (fun _ => 0) r = 0 := by
  cases r <;> rfl

/-- The state of a store and how many finds and aggregations it has answered with a stream. -/
structure Counted (σ : Type) where
  state : σ
  answered : Nat

/-- An action of a store that is counted so many times if it succeeds. -/
def StoreM.counted {σ α : Type} (times : Nat) (action : StoreM σ α) : StoreM (Counted σ) α := fun s =>
  let (r, state) := action.run s.state
  (r, ⟨state, s.answered + weightOf (fun _ => times) r⟩)

/-- A store that counts the finds and the aggregations that it answers with a stream. -/
def DocumentStore.counted {σ : Type} (store : DocumentStore σ) : DocumentStore (Counted σ) where
  ping := store.ping.counted 0
  listCollections database := (store.listCollections database).counted 0
  find database collection filter options := (store.find database collection filter options).counted 1
  aggregate database collection pipeline := (store.aggregate database collection pipeline).counted 1
  sample database collection size := (store.sample database collection size).counted 0
  release s := { s with state := store.release s.state }

/-! ### Accounts -/

/-- A memory of which so many streams are open, and each of those that it handed out is open or was
released. -/
structure Balanced (streams : Nat) (s : Counted Memory) : Prop where
  openCursors : s.state.openCursors = streams
  total : s.state.openCursors + s.state.releasedCursors = s.answered

/-- An action that takes over some open streams and leaves those of its answer open, whatever others
there are. -/
def Accounts {α : Type} (taken : Nat) (action : StoreM (Counted Memory) α) (left : α → Nat) : Prop :=
  ∀ others s, Balanced (others + taken) s →
    Balanced (others + weightOf left (action.run s).1) (action.run s).2 ∧
      s.state.releasedCursors ≤ (action.run s).2.state.releasedCursors

namespace Accounts

variable {α β : Type} {taken : Nat} {mid : α → Nat} {left : β → Nat}

theorem pure {b : β} (h : taken = left b) : Accounts taken (Pure.pure b) left := by
  subst h
  exact fun _ _ hs => ⟨hs, Nat.le_refl _⟩

theorem throw (e : Error) : Accounts 0 (throw e) left :=
  fun _ _ h => ⟨h, Nat.le_refl _⟩

theorem lift (r : Except Error α) : Accounts 0 (liftM r) fun _ => 0 := by
  intro others s h
  rw [StoreM.run_lift]
  cases r <;> exact ⟨h, Nat.le_refl _⟩

theorem bind {action : StoreM (Counted Memory) α} {next : α → StoreM (Counted Memory) β}
    (h : Accounts taken action mid) (hnext : ∀ a, Accounts (mid a) (next a) left) :
    Accounts taken (action >>= next) left := by
  intro others s hs
  have haction := h others s hs
  rw [StoreM.run_bind]
  rcases hrun : action.run s with ⟨r, s'⟩
  rw [hrun] at haction
  cases r with
  | error e => exact haction
  | ok a =>
    obtain ⟨hbalanced, hreleased⟩ := hnext a others s' haction.1
    exact ⟨hbalanced, haction.2.trans hreleased⟩

end Accounts

/-! ### What the store does -/

/-- An action of a memory that opens so many streams if it succeeds, and releases none. -/
def Opens {α : Type} (streams : Nat) (action : StoreM Memory α) : Prop :=
  ∀ m, (action.run m).2.openCursors = m.openCursors + weightOf (fun _ => streams) (action.run m).1 ∧
    (action.run m).2.releasedCursors = m.releasedCursors

namespace Opens

variable {α β : Type} {streams : Nat} {action : StoreM Memory α}

theorem map (h : Opens streams action) (f : α → β) : Opens streams (f <$> action) := by
  intro m
  have haction := h m
  rw [StoreM.run_map]
  rcases hrun : action.run m with ⟨r, m'⟩
  rw [hrun] at haction
  cases r <;> exact haction

theorem guarded (h : Opens streams action) (fault : Option String) :
    Opens streams (Faults.guarded fault action) := by
  cases fault with
  | none => exact h
  | some text => exact fun m => ⟨rfl, rfl⟩

theorem handOut (docs : Except StoreFault (List Document)) : Opens 1 (Memory.handOut docs) := by
  intro m
  cases docs <;> exact ⟨rfl, rfl⟩

theorem lift (r : Except Error α) : Opens 0 (liftM r) := by
  intro m
  rw [StoreM.run_lift, weightOf_zero]
  exact ⟨rfl, rfl⟩

theorem bind {next : α → StoreM Memory β} (h : Opens 0 action) (hnext : ∀ a, Opens streams (next a)) :
    Opens streams (action >>= next) := by
  intro m
  obtain ⟨hopen, hreleased⟩ := h m
  rw [StoreM.run_bind]
  rcases hrun : action.run m with ⟨r, m'⟩
  rw [hrun] at hopen hreleased
  rw [weightOf_zero] at hopen
  cases r with
  | error e => exact ⟨hopen, hreleased⟩
  | ok a =>
    obtain ⟨hopen', hreleased'⟩ := hnext a m'
    dsimp only at hopen hreleased
    rw [hopen] at hopen'
    exact ⟨hopen', hreleased'.trans hreleased⟩

/-- A change of the collections opens nothing. -/
theorem modify_collections (change : List Collection → List Collection) :
    Opens 0 (modify fun m : Memory => { m with collections := change m.collections }) :=
  fun _ => ⟨rfl, rfl⟩

/-- Streams that are opened are counted. -/
theorem accounts (h : Opens streams action) :
    Accounts 0 (action.counted streams) fun _ => streams := by
  intro others s hs
  obtain ⟨hopen, hreleased⟩ := h s.state
  obtain ⟨hothers, htotal⟩ := hs
  refine ⟨⟨?_, ?_⟩, hreleased.ge⟩
  · show (action.run s.state).2.openCursors = _
    rw [hopen, hothers]
    rfl
  · show (action.run s.state).2.openCursors + (action.run s.state).2.releasedCursors =
      s.answered + weightOf (fun _ => streams) (action.run s.state).1
    rw [hopen, hreleased, ← htotal]
    omega

end Opens

namespace Memory

theorem opens_seedDocuments (database collection : String) (entries : List Json) :
    Opens 0 (seedDocuments database collection entries) := by
  induction entries with
  | nil => exact fun m => ⟨rfl, rfl⟩
  | cons entry entries ih =>
    cases entry with
    | object fields =>
      exact (Opens.lift _).bind fun doc => (Opens.modify_collections _).bind fun _ => ih
    | _ => exact fun m => ⟨rfl, rfl⟩

theorem opens_loadSeed (database : String) (seed : Json) :
    Opens 0 (loadSeed database seed) := by
  cases seed with
  | object collections =>
    show Opens 0 (seedCollections database collections)
    induction collections with
    | nil => exact fun m => ⟨rfl, rfl⟩
    | cons collection collections ih =>
      obtain ⟨name, entries⟩ := collection
      cases entries with
      | array entries =>
        exact (Opens.modify_collections _).bind fun _ =>
          (opens_seedDocuments database name entries).bind fun _ => ih
      | _ => exact fun m => ⟨rfl, rfl⟩
  | _ => exact fun m => ⟨rfl, rfl⟩

/-- The store in memory with failures, and the count of the streams that it hands out.  A stream is
released without failures. -/
def ledger (faults : Faults) : DocumentStore (Counted Memory) :=
  (store.withFaults faults).counted

end Memory

namespace Accounts

variable (faults : Faults) (database collection : String)

theorem ping : Accounts 0 (Memory.ledger faults).ping fun _ => 0 := by
  have hping : Opens 0 Memory.store.ping := fun m => ⟨rfl, rfl⟩
  exact (hping.guarded faults.ping).accounts

theorem listCollections :
    Accounts 0 ((Memory.ledger faults).listCollections database) fun _ => 0 := by
  have hlist : Opens 0 (Memory.store.listCollections database) := fun m => ⟨rfl, rfl⟩
  exact (hlist.guarded faults.list).accounts

theorem sample (size : UInt64) :
    Accounts 0 ((Memory.ledger faults).sample database collection size) fun _ => 0 := by
  have hsample : Opens 0 (Memory.store.sample database collection size) := fun m => ⟨rfl, rfl⟩
  exact (hsample.guarded faults.sample).accounts

theorem find (filter : Document) (options : FindOptions) :
    Accounts 0 ((Memory.ledger faults).find database collection filter options) fun _ => 1 := by
  have hfind : Opens 1 (Memory.store.find database collection filter options) :=
    fun m => Opens.handOut _ m
  exact ((hfind.map faults.onStream).guarded faults.find).accounts

theorem aggregate (pipeline : List Document) :
    Accounts 0 ((Memory.ledger faults).aggregate database collection pipeline) fun _ => 1 := by
  have haggregate : Opens 1 (Memory.store.aggregate database collection pipeline) :=
    fun m => Opens.handOut _ m
  exact ((haggregate.map faults.onStream).guarded faults.aggregate).accounts

end Accounts

/-- Of the open streams one is released. -/
theorem Balanced.release (faults : Faults) {others : Nat} {s : Counted Memory}
    (h : Balanced (others + 1) s) : Balanced others ((Memory.ledger faults).release s) := by
  obtain ⟨hopen, htotal⟩ := h
  constructor
  · show s.state.openCursors - 1 = others
    omega
  · show s.state.openCursors - 1 + (s.state.releasedCursors + 1) = s.answered
    omega

/-! ### What a connection does -/

/-- The streams that rows hold. -/
def Rows.streams (rows : Rows) : Nat :=
  rows.isOpen.toNat

namespace Connection

variable (faults : Faults) (conn : Connection) (cancelled : Bool)

theorem accounts_connect :
    Accounts 0 (conn.connect (Memory.ledger faults) cancelled) fun _ => 0 := by
  unfold connect
  cases cancelled with
  | true => exact .throw .cancelled
  | false => exact (Accounts.ping faults).bind fun _ => .pure rfl

theorem accounts_columnsOf (size : UInt64) (collections : List String) :
    Accounts 0 (conn.columnsOf (Memory.ledger faults) size collections) fun _ => 0 := by
  induction collections with
  | nil => exact .pure rfl
  | cons collection rest ih =>
    exact (Accounts.sample faults conn.database collection size).bind fun docs =>
      ih.bind fun columns => .pure rfl

/-- An execution leaves the stream of its rows open, and no other. -/
theorem accounts_execute (q : Query) :
    Accounts 0 (conn.execute (Memory.ledger faults) cancelled q) Rows.streams := by
  unfold execute
  cases cancelled with
  | true => exact .throw .cancelled
  | false =>
    refine (Accounts.lift q.validate).bind fun _ => ?_
    dsimp only
    split
    · -- a find
      refine Accounts.bind ?_ fun stream => .pure rfl
      exact (Accounts.lift _).bind fun filter => (Accounts.lift _).bind fun options =>
        Accounts.find faults _ _ filter options
    · -- an aggregation
      refine Accounts.bind ?_ fun stream => .pure rfl
      exact (Accounts.lift _).bind fun stages => (Accounts.lift _).bind fun options =>
        Accounts.aggregate faults _ _ _
    · -- an introspection
      refine (Accounts.lift _).bind fun options => ?_
      have htable : ∀ size collections, Accounts 0 (do
          let columns ← conn.columnsOf (Memory.ledger faults) size collections
          return Rows.tabular Columns.header (columns.map Column.row)) Rows.streams :=
        fun size collections => (accounts_columnsOf faults conn size collections).bind fun columns =>
          .pure rfl
      dsimp only
      split
      · exact htable _ _
      · exact (Accounts.listCollections faults _).bind fun collections => htable _ _

theorem accounts_query (text : String) (args : List Json) :
    Accounts 0 (conn.query (Memory.ledger faults) cancelled text args) Rows.streams :=
  (Accounts.lift _).bind fun _ => (Accounts.lift _).bind fun q =>
    accounts_execute faults conn cancelled q

/-! ### Reading -/

/-- A stream is closed behind its documents, whether or not reading them fails. -/
theorem accounts_drainDocuments (stream : Option DocumentStream) :
    Accounts (Rows.documents stream).streams
      (drainDocuments (Memory.ledger faults) cancelled stream) fun _ => 0 := by
  intro others s hs
  cases stream with
  | none =>
    rw [drainDocuments]
    exact ⟨hs, Nat.le_refl _⟩
  | some items =>
    rw [run_drainDocuments, weightOf_zero]
    exact ⟨hs.release faults, Nat.le_succ _⟩

theorem accounts_drain (rows : Rows) :
    Accounts rows.streams (drain (Memory.ledger faults) cancelled rows) fun _ => 0 := by
  cases rows with
  | documents stream =>
    exact (accounts_drainDocuments faults cancelled stream).bind fun docs => .pure rfl
  | single payload => exact .pure rfl
  | tabular columns rows => exact .pure rfl

theorem accounts_executeSingle (q : Query) :
    Accounts 0 (conn.executeSingle (Memory.ledger faults) cancelled q) Rows.streams := by
  refine (accounts_execute faults conn cancelled q).bind fun rows => ?_
  cases rows with
  | documents stream =>
    exact (accounts_drainDocuments faults cancelled stream).bind fun docs => .pure rfl
  | single payload => exact .pure rfl
  | tabular columns rows => exact .pure rfl

end Connection

/-! ### Rows that are held -/

/-- Rows that are open after a row was read were open before, and had a row. -/
theorem Rows.isOpen_of_next {rows after : Rows} {cancelled : Bool} {row : Except Error (Option Row)}
    (h : rows.next cancelled = (row, after)) (hopen : after.isOpen = true) :
    rows.isOpen = true ∧ ∃ r, row = .ok (some r) := by
  have hyields := yields_next cancelled rows
  rw [h] at hyields
  cases hyields with
  | row hpending hfailure hsame =>
    rw [hsame] at hopen
    exact ⟨hopen, _, rfl⟩
  | finished hclosed hpending hfailure =>
    rw [isOpen_of_close_eq hclosed] at hopen
    cases hopen
  | failed hclosed hwas he =>
    rw [isOpen_of_close_eq hclosed] at hopen
    cases hopen

theorem Balanced.settle (faults : Faults) {others : Nat} {s : Counted Memory} {before after : Rows}
    (h : Balanced (others + before.streams) s)
    (hopen : after.isOpen = true → before.isOpen = true) :
    Balanced (others + after.streams)
        (Connection.settle (Memory.ledger faults) before after s) ∧
      s.state.releasedCursors ≤
        (Connection.settle (Memory.ledger faults) before after s).state.releasedCursors := by
  unfold Connection.settle Rows.streams at *
  cases hbefore : before.isOpen with
  | false =>
    rw [hbefore] at h hopen
    have hafter : after.isOpen = false := Bool.eq_false_iff.mpr fun h' => Bool.false_ne_true (hopen h')
    rw [hafter]
    exact ⟨h, Nat.le_refl _⟩
  | true =>
    rw [hbefore] at h
    cases after.isOpen with
    | true => exact ⟨h, Nat.le_refl _⟩
    | false => exact ⟨h.release faults, Nat.le_succ _⟩

/-- The rows among those that are held whose stream is open. -/
def openAmong (held : List OpenRows) : List OpenRows :=
  held.filter fun r => r.rows.isOpen

theorem openAmong_cons_of_closed {r : OpenRows} (h : r.rows.isOpen = false) (held : List OpenRows) :
    openAmong (r :: held) = openAmong held :=
  List.filter_cons_of_neg (by rw [h]; exact Bool.false_ne_true)

theorem length_openAmong_cons (r : OpenRows) (held : List OpenRows) :
    (openAmong (r :: held)).length = (openAmong held).length + r.rows.streams := by
  unfold openAmong Rows.streams
  rw [List.filter_cons]
  cases r.rows.isOpen <;> rfl

theorem length_openAmong_append (held : List OpenRows) (r : OpenRows) :
    (openAmong (held ++ [r])).length = (openAmong held).length + r.rows.streams := by
  have hperm := (List.perm_append_singleton r held).filter fun r => r.rows.isOpen
  exact hperm.length_eq.trans (length_openAmong_cons r held)

/-! ### Clients -/

/-- Who calls: through which connection, with which failures of the store, and as which reader. -/
structure Caller where
  conn : Connection
  faults : Faults
  reader : String

/-- A client of a store: the rows that it holds, and its readers that are cancelled. -/
structure Client where
  store : Counted Memory
  held : List OpenRows
  cancelled : List String

namespace Client

/-- What is done with rows that are held. -/
inductive Reading where
  | next
  | close
  | collect
  | drop
deriving DecidableEq, Repr

/-- What a client does.  Rows that it holds are named by their position among them. -/
inductive Call where
  | connect (caller : Caller)
  | query (caller : Caller) (text : String) (args : List Json)
  | execute (caller : Caller) (q : Query)
  | executeSingle (caller : Caller) (q : Query)
  | read (i : Nat) (reading : Reading)
  | insertMany (database collection : String) (docs : List Document)
  | createCollection (database collection : String)
  | loadSeed (database : String) (seed : Json)
  | cancel (reader : String)

/-- A client of an empty store. -/
def start : Client :=
  ⟨⟨.empty, 0⟩, [], []⟩

/-- Whether a reader is cancelled. -/
def isCancelled (c : Client) (reader : String) : Bool :=
  c.cancelled.contains reader

/-- Does something that opens no rows. -/
def perform {α : Type} (c : Client) (action : StoreM (Counted Memory) α) (rows : α → List Row) :
    Except Error (List Row) × Client :=
  let (result, store) := action.run c.store
  (result.map rows, { c with store })

/-- Holds the rows that something opens. -/
def hold (c : Client) (reader : String) (action : StoreM (Counted Memory) Rows) :
    Except Error (List Row) × Client :=
  match action.run c.store with
  | (.ok rows, store) => (.ok [], { c with store, held := c.held ++ [⟨rows, reader⟩] })
  | (.error e, store) => (.error e, { c with store })

/-- Holds other rows, after some became others, which releases their stream if it was open. -/
def settle (c : Client) (before after : Rows) (held : List OpenRows) : Client :=
  { c with store := Connection.settle (Memory.ledger {}) before after c.store, held }

/-- Does something with rows at a position. -/
def read (c : Client) (i : Nat) (r : OpenRows) : Reading → Except Error (List Row) × Client
  | .next =>
    let (row, after) := r.rows.next (c.isCancelled r.reader)
    (row.map Option.toList, c.settle r.rows after (c.held.set i { r with rows := after }))
  | .close => (.ok [], c.settle r.rows r.rows.close (c.held.set i { r with rows := r.rows.close }))
  | .collect =>
    { c with held := c.held.eraseIdx i }.perform
      (Connection.drain (Memory.ledger {}) (c.isCancelled r.reader) r.rows) id
  | .drop => (.ok [], c.settle r.rows r.rows.close (c.held.eraseIdx i))

/-- Does what a client is told; the rows that were read are answered. -/
def step (c : Client) : Call → Except Error (List Row) × Client
  | .connect ⟨conn, faults, reader⟩ =>
    c.perform (conn.connect (Memory.ledger faults) (c.isCancelled reader)) fun _ => []
  | .query ⟨conn, faults, reader⟩ text args =>
    c.hold reader (conn.query (Memory.ledger faults) (c.isCancelled reader) text args)
  | .execute ⟨conn, faults, reader⟩ q =>
    c.hold reader (conn.execute (Memory.ledger faults) (c.isCancelled reader) q)
  | .executeSingle ⟨conn, faults, reader⟩ q =>
    c.hold reader (conn.executeSingle (Memory.ledger faults) (c.isCancelled reader) q)
  | .read i reading =>
    match c.held[i]? with
    | some r => c.read i r reading
    | none => (.ok [], c)
  | .insertMany database collection docs =>
    c.perform (StoreM.counted 0 (modify (·.insertMany database collection docs))) fun _ => []
  | .createCollection database collection =>
    c.perform (StoreM.counted 0 (modify (·.createCollection database collection))) fun _ => []
  | .loadSeed database seed => c.perform ((Memory.loadSeed database seed).counted 0) fun _ => []
  | .cancel reader => (.ok [], { c with cancelled := reader :: c.cancelled })

/-- Does one thing after the other. -/
def run (c : Client) : List Call → Client
  | [] => c
  | call :: calls => (c.step call).2.run calls

/-- What a call leaves behind: every stream is open in rows that are held or was released, and the rows
that are open after a failure were open before it. -/
structure Settles (c : Client) (result : Except Error (List Row)) (c' : Client) : Prop where
  balanced : Balanced (openAmong c'.held).length c'.store
  released_le : c.store.state.releasedCursors ≤ c'.store.state.releasedCursors
  of_error : ∀ e, result = .error e → (openAmong c'.held).Subperm (openAmong c.held)

variable {c : Client}

theorem settles_perform {α : Type} {taken : Nat} {action : StoreM (Counted Memory) α}
    (h : Balanced ((openAmong c.held).length + taken) c.store)
    (haction : Accounts taken action fun _ => 0) (rows : α → List Row) :
    Settles c (c.perform action rows).1 (c.perform action rows).2 := by
  obtain ⟨hbalanced, hreleased⟩ := haction _ _ h
  rw [weightOf_zero] at hbalanced
  exact ⟨hbalanced, hreleased, fun _ _ => List.Subperm.refl _⟩

theorem settles_hold {reader : String} {action : StoreM (Counted Memory) Rows}
    (h : Balanced (openAmong c.held).length c.store) (haction : Accounts 0 action Rows.streams) :
    Settles c (c.hold reader action).1 (c.hold reader action).2 := by
  obtain ⟨hbalanced, hreleased⟩ := haction _ _ h
  unfold hold
  rcases hrun : action.run c.store with ⟨result, store⟩
  rw [hrun] at hbalanced hreleased
  cases result with
  | error e => exact ⟨hbalanced, hreleased, fun _ _ => List.Subperm.refl _⟩
  | ok rows =>
    refine ⟨?_, hreleased, nofun⟩
    show Balanced (openAmong (c.held ++ [⟨rows, reader⟩])).length store
    rw [length_openAmong_append]
    exact hbalanced

/-- Rows at a position become others, which are held in their place or not any more. -/
theorem settles_settle {result : Except Error (List Row)} {others held : List OpenRows}
    {before after : Rows} (h : Balanced ((openAmong others).length + before.streams) c.store)
    (hopen : after.isOpen = true → before.isOpen = true)
    (hheld : (openAmong held).length = (openAmong others).length + after.streams)
    (herror : ∀ e, result = .error e → (openAmong held).Subperm (openAmong c.held)) :
    Settles c result (c.settle before after held) := by
  obtain ⟨hbalanced, hreleased⟩ := h.settle {} hopen
  refine ⟨?_, hreleased, herror⟩
  show Balanced (openAmong held).length _
  rw [hheld]
  exact hbalanced

theorem settles_read (h : Balanced (openAmong c.held).length c.store) {i : Nat} {r : OpenRows}
    (hr : c.held[i]? = some r) (reading : Reading) :
    Settles c (c.read i r reading).1 (c.read i r reading).2 := by
  obtain ⟨hi, hr⟩ := List.getElem?_eq_some_iff.mp hr
  -- the rows that are not read are those without the position
  have hothers : (openAmong c.held).length =
      (openAmong (c.held.eraseIdx i)).length + r.rows.streams := by
    rw [← length_openAmong_cons, ← hr]
    exact ((List.getElem_cons_eraseIdx_perm hi).filter _).length_eq.symm
  have hset : ∀ r', (openAmong (c.held.set i r')).Perm (openAmong (r' :: c.held.eraseIdx i)) :=
    fun r' => (List.set_perm_cons_eraseIdx hi r').filter _
  have hfewer : (openAmong (c.held.eraseIdx i)).Subperm (openAmong c.held) :=
    ((List.eraseIdx_sublist c.held i).filter _).subperm
  have hclosed : r.rows.close.streams = 0 := by
    rw [Rows.streams, Rows.isOpen_close]
    rfl
  have hclose : r.rows.close.isOpen = true → r.rows.isOpen = true := by
    rw [Rows.isOpen_close]
    exact nofun
  rw [hothers] at h
  cases reading with
  | next =>
    rcases hnext : r.rows.next (c.isCancelled r.reader) with ⟨row, after⟩
    rw [read, hnext]
    refine settles_settle h (fun hafter => (Rows.isOpen_of_next hnext hafter).1) ?_ ?_
    · rw [(hset _).length_eq, length_openAmong_cons]
    · -- what fails closes the rows
      intro e he
      have hafter : after.isOpen = false := by
        refine Bool.eq_false_iff.mpr fun hopen => ?_
        obtain ⟨-, _, rfl⟩ := Rows.isOpen_of_next hnext hopen
        cases he
      have hperm := hset { r with rows := after }
      rw [openAmong_cons_of_closed hafter] at hperm
      exact hperm.subperm.trans hfewer
  | close =>
    refine settles_settle h hclose ?_ nofun
    rw [(hset _).length_eq, length_openAmong_cons]
  | collect =>
    let others : Client := { c with held := c.held.eraseIdx i }
    have hcollect : Settles others _ _ :=
      settles_perform h (Connection.accounts_drain {} (c.isCancelled r.reader) r.rows) id
    exact ⟨hcollect.balanced, hcollect.released_le, fun _ _ => hfewer⟩
  | drop =>
    refine settles_settle h hclose ?_ nofun
    rw [hclosed, Nat.add_zero]

/-- Whatever a client is told to do, the streams stay balanced. -/
theorem settles_step (h : Balanced (openAmong c.held).length c.store) (call : Call) :
    Settles c (c.step call).1 (c.step call).2 := by
  cases call with
  | connect caller =>
    exact settles_perform h (Connection.accounts_connect caller.faults caller.conn _) _
  | query caller text args =>
    exact settles_hold h (Connection.accounts_query caller.faults caller.conn _ text args)
  | execute caller q =>
    exact settles_hold h (Connection.accounts_execute caller.faults caller.conn _ q)
  | executeSingle caller q =>
    exact settles_hold h (Connection.accounts_executeSingle caller.faults caller.conn _ q)
  | read i reading =>
    rw [step]
    cases hr : c.held[i]? with
    | some r => exact settles_read h hr reading
    | none => exact ⟨h, Nat.le_refl _, nofun⟩
  | insertMany database collection docs =>
    exact settles_perform h (Opens.modify_collections _).accounts _
  | createCollection database collection =>
    exact settles_perform h (Opens.modify_collections _).accounts _
  | loadSeed database seed =>
    exact settles_perform h (Memory.opens_loadSeed database seed).accounts _
  | cancel reader => exact ⟨h, Nat.le_refl _, nofun⟩

theorem balanced_run (h : Balanced (openAmong c.held).length c.store) (calls : List Call) :
    Balanced (openAmong (c.run calls).held).length (c.run calls).store := by
  induction calls generalizing c with
  | nil => exact h
  | cons call calls ih => exact ih (settles_step h call).balanced

/-- **Streams are released once**: after every call of a client, however its calls before were mixed
and whichever of them failed, the streams that are open are those of the rows that it holds and has not
closed, and each stream that the store has handed out is either open or was released; no release is
taken back, and after a failure no rows are open that were not open before. -/
theorem step_run_accounted (calls : List Call) (call : Call) :
    let c := start.run calls
    let (result, c') := c.step call
    c'.store.state.openCursors = (openAmong c'.held).length ∧
      c'.store.state.openCursors + c'.store.state.releasedCursors = c'.store.answered ∧
      c.store.state.releasedCursors ≤ c'.store.state.releasedCursors ∧
      ∀ e, result = .error e → (openAmong c'.held).Subperm (openAmong c.held) := by
  have hstart : Balanced (openAmong start.held).length start.store := ⟨rfl, rfl⟩
  obtain ⟨⟨hopen, htotal⟩, hreleased, herror⟩ := settles_step (balanced_run hstart calls) call
  exact ⟨hopen, htotal, hreleased, herror⟩

/-- A stream that fails at its first document is released by the reading that fails. -/
example :
    let caller : Caller := ⟨.toDatabase "site", { streamAfter := some (0, "lost") }, "main"⟩
    let query : Query := { operation := .find, collection := some "items" }
    let c := start.run [.insertMany "site" "items" [[("n", .int32 1)]], .execute caller query]
    (c.store.state.openCursors, (c.step (.read 0 .next)).2.store.state.openCursors,
      (c.step (.read 0 .next)).2.store.state.releasedCursors) = (1, 0, 1) := rfl

end Client

end Keyset
