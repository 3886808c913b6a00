import Keyset.Proofs.Connection.Release
import Keyset.Proofs.Fields

/-!
# Sessions are clients

A session keeps rows by name, where a client holds them by position and counts what its store hands out.
Whatever a session is told to do, some calls of a client do (`Session.exists_calls_step`): the memory is
the same after them, and the rows that are held are those that are kept (`Session.Follows`).  So what
was proved of clients holds of sessions: the streams that are open are those of the rows that are kept
and not closed (`Session.run_accounted`).
-/

namespace Keyset

/-! ### What is counted -/

/-- A counted action that does what an action does, and counts besides. -/
def Counts {α : Type} (counted : StoreM (Counted Memory) α) (action : StoreM Memory α) : Prop :=
  ∀ s, action.run s.state = ((counted.run s).1, (counted.run s).2.state)

namespace Counts

variable {α β : Type} {counted : StoreM (Counted Memory) α} {action : StoreM Memory α}

theorem pure (a : α) : Counts (Pure.pure a) (Pure.pure a) :=
  fun _ => rfl

theorem throw (e : Error) : Counts (α := α) (throw e) (throw e) :=
  fun _ => rfl

theorem lift (r : Except Error α) : Counts (liftM r) (liftM r) := by
  intro s
  rw [StoreM.run_lift, StoreM.run_lift]

theorem bind {next : α → StoreM (Counted Memory) β} {next' : α → StoreM Memory β}
    (h : Counts counted action) (hnext : ∀ a, Counts (next a) (next' a)) :
    Counts (counted >>= next) (action >>= next') := by
  intro s
  rw [StoreM.run_bind, StoreM.run_bind, h s]
  rcases counted.run s with ⟨e | a, s'⟩
  · rfl
  · exact hnext a s'

theorem times (times : Nat) (action : StoreM Memory α) : Counts (action.counted times) action :=
  fun _ => rfl

end Counts

namespace Connection

variable (faults : Faults) (conn : Connection) (cancelled : Bool)

theorem counts_connect : Counts (conn.connect (Memory.ledger faults) cancelled)
    (conn.connect (Memory.store.withFaults faults) cancelled) := by
  unfold connect
  cases cancelled with
  | true => exact .throw .cancelled
  | false => exact (Counts.times 0 _).bind fun _ => .pure conn

theorem counts_columnsOf (size : UInt64) (collections : List String) :
    Counts (conn.columnsOf (Memory.ledger faults) size collections)
      (conn.columnsOf (Memory.store.withFaults faults) size collections) := by
  induction collections with
  | nil => exact .pure _
  | cons collection rest ih =>
    exact (Counts.times 0 _).bind fun docs => ih.bind fun columns => .pure _

theorem counts_execute (q : Query) : Counts (conn.execute (Memory.ledger faults) cancelled q)
    (conn.execute (Memory.store.withFaults faults) cancelled q) := by
  unfold execute
  cases cancelled with
  | true => exact .throw .cancelled
  | false =>
    refine (Counts.lift q.validate).bind fun _ => ?_
    dsimp only
    split
    · -- a find
      refine Counts.bind ?_ fun stream => .pure _
      exact (Counts.lift _).bind fun filter => (Counts.lift _).bind fun options => .times 1 _
    · -- an aggregation
      refine Counts.bind ?_ fun stream => .pure _
      exact (Counts.lift _).bind fun stages => (Counts.lift _).bind fun options => .times 1 _
    · -- an introspection
      refine (Counts.lift _).bind fun options => ?_
      dsimp only
      split
      · exact (counts_columnsOf faults conn _ _).bind fun columns => .pure _
      · exact (Counts.times 0 _).bind fun collections =>
          (counts_columnsOf faults conn _ _).bind fun columns => .pure _

theorem counts_query (text : String) (args : List Json) :
    Counts (conn.query (Memory.ledger faults) cancelled text args)
      (conn.query (Memory.store.withFaults faults) cancelled text args) :=
  (Counts.lift _).bind fun _ => (Counts.lift _).bind fun q => counts_execute faults conn cancelled q

/-- Reading a stream only releases it, which does not depend on failures of the store. -/
theorem counts_drainDocuments (faults faults' : Faults) (stream : Option DocumentStream) :
    Counts (drainDocuments (Memory.ledger faults) cancelled stream)
      (drainDocuments (Memory.store.withFaults faults') cancelled stream) := by
  intro s
  cases stream with
  | none =>
    rw [drainDocuments, drainDocuments]
    rfl
  | some items =>
    rw [run_drainDocuments, run_drainDocuments]
    rfl

theorem counts_drain (faults faults' : Faults) (rows : Rows) :
    Counts (drain (Memory.ledger faults) cancelled rows)
      (drain (Memory.store.withFaults faults') cancelled rows) := by
  cases rows with
  | documents stream =>
    exact (counts_drainDocuments cancelled faults faults' stream).bind fun docs => .pure _
  | single payload => exact .pure _
  | tabular columns rows => exact .pure _

theorem counts_executeSingle (q : Query) :
    Counts (conn.executeSingle (Memory.ledger faults) cancelled q)
      (conn.executeSingle (Memory.store.withFaults faults) cancelled q) := by
  refine (counts_execute faults conn cancelled q).bind fun rows => ?_
  cases rows with
  | documents stream =>
    exact (counts_drainDocuments cancelled faults faults stream).bind fun docs => .pure _
  | single payload => exact .pure _
  | tabular columns rows => exact .pure _

/-- So does what becomes of rows. -/
theorem state_settle (faults faults' : Faults) (before after : Rows) (s : Counted Memory) :
    (settle (Memory.ledger faults) before after s).state =
      settle (Memory.store.withFaults faults') before after s.state := by
  unfold settle
  split_ifs <;> rfl

end Connection

/-! ### What calls do -/

theorem Session.bound_eq (text : String) (args : List Json) :
    bound text args = liftM (do (← Query.parse text).substitute args) := by
  unfold bound
  cases Query.parse text <;> rfl

namespace Client

variable {α β : Type} {c : Client} {reader : String}

theorem run_append (c : Client) (calls more : List Call) :
    c.run (calls ++ more) = (c.run calls).run more := by
  induction calls generalizing c with
  | nil => rfl
  | cons call calls ih => exact ih _

theorem isCancelled_congr {c' : Client} (h : c'.cancelled = c.cancelled) (reader : String) :
    c'.isCancelled reader = c.isCancelled reader :=
  congrArg (List.contains · reader) h

theorem step_read {i : Nat} {r : OpenRows} (hr : c.held[i]? = some r) (reading : Reading) :
    c.step (.read i reading) = c.read i r reading := by
  rw [step, hr]

theorem step_collect {i : Nat} {r : OpenRows} (hr : c.held[i]? = some r) :
    (c.step (.read i .collect)).2 = { c with
      held := c.held.eraseIdx i
      store := ((Connection.drain (Memory.ledger {}) (c.isCancelled r.reader) r.rows).run c.store).2 } := by
  rw [step_read hr]
  rfl

/-- A client that holds the same rows as another and has the same readers cancelled. -/
structure Keeps (c c' : Client) : Prop where
  held_eq : c'.held = c.held
  cancelled_eq : c'.cancelled = c.cancelled

/-- Some calls do to the memory what an action does, and leave the rows alone. -/
def Does (c : Client) (action : StoreM Memory α) : Prop :=
  ∃ calls, c.Keeps (c.run calls) ∧ (c.run calls).store.state = (action.run c.store.state).2

/-- Some calls do to the memory what an action does, and hold the rows that it opens. -/
def Holds (c : Client) (reader : String) (action : StoreM Memory Rows) : Prop :=
  ∃ calls, (c.run calls).cancelled = c.cancelled ∧
    (c.run calls).store.state = (action.run c.store.state).2 ∧
    (c.run calls).held = c.held ++
      ((action.run c.store.state).1.toOption.map fun rows => ⟨rows, reader⟩).toList

namespace Does

variable {action : StoreM Memory α}

theorem of_state (h : (action.run c.store.state).2 = c.store.state) : c.Does action :=
  ⟨[], ⟨rfl, rfl⟩, h.symm⟩

theorem bind {next : α → StoreM Memory β} (h : c.Does action)
    (hnext : ∀ a c', c.Keeps c' → c'.Does (next a)) : c.Does (action >>= next) := by
  obtain ⟨calls, hkeeps, hstate⟩ := h
  unfold Does
  rw [StoreM.run_bind]
  rcases hrun : action.run c.store.state with ⟨e | a, m⟩
  · rw [hrun] at hstate
    exact ⟨calls, hkeeps, hstate⟩
  · rw [hrun] at hstate
    obtain ⟨more, hkeeps', hstate'⟩ := hnext a _ hkeeps
    refine ⟨calls ++ more, ?_, ?_⟩
    · rw [run_append]
      exact ⟨hkeeps'.held_eq.trans hkeeps.held_eq,
        hkeeps'.cancelled_eq.trans hkeeps.cancelled_eq⟩
    · rw [run_append, hstate', hstate]

theorem lift (r : Except Error α) {next : α → StoreM Memory β} (hnext : ∀ a, c.Does (next a)) :
    c.Does (liftM r >>= next) := by
  cases r with
  | error e => exact ⟨[], ⟨rfl, rfl⟩, rfl⟩
  | ok a => exact hnext a

theorem bound (text : String) (args : List Json) {next : Query → StoreM Memory α}
    (hnext : ∀ q, c.Does (next q)) : c.Does (Session.bound text args >>= next) := by
  rw [Session.bound_eq]
  exact .lift _ hnext

/-- A call that performs an action does it. -/
theorem of_perform {counted : StoreM (Counted Memory) α} (h : Counts counted action)
    {rows : α → List Row} (call : Call) (hcall : c.step call = c.perform counted rows) :
    c.Does action := by
  have hrun : c.run [call] = { c with store := (counted.run c.store).2 } :=
    congrArg Prod.snd hcall
  refine ⟨[call], ?_, ?_⟩
  · rw [hrun]
    exact ⟨rfl, rfl⟩
  · rw [hrun, h c.store]

end Does

namespace Holds

variable {action : StoreM Memory Rows}

theorem lift (r : Except Error α) {next : α → StoreM Memory Rows}
    (hnext : ∀ a, c.Holds reader (next a)) : c.Holds reader (liftM r >>= next) := by
  cases r with
  | error e => exact ⟨[], rfl, rfl, (List.append_nil _).symm⟩
  | ok a => exact hnext a

theorem bound (text : String) (args : List Json) {next : Query → StoreM Memory Rows}
    (hnext : ∀ q, c.Holds reader (next q)) : c.Holds reader (Session.bound text args >>= next) := by
  rw [Session.bound_eq]
  exact .lift _ hnext

/-- A call that holds the rows of an action does it and holds them. -/
theorem of_hold {counted : StoreM (Counted Memory) Rows} (h : Counts counted action) (call : Call)
    (hcall : c.step call = c.hold reader counted) : c.Holds reader action := by
  have hrun : c.run [call] = (c.hold reader counted).2 := congrArg Prod.snd hcall
  unfold hold at hrun
  refine ⟨[call], ?_⟩
  rw [hrun, h c.store]
  rcases counted.run c.store with ⟨e | rows, store⟩
  · exact ⟨rfl, rfl, (List.append_nil _).symm⟩
  · exact ⟨rfl, rfl, rfl⟩

/-- Rows that are held last can be collected, and are not held any more. -/
theorem drain (h : c.Holds reader action) (faults : Faults) (f : Rows → List Row → β) :
    c.Does (do
      let rows ← action
      let all ← Connection.drain (Memory.store.withFaults faults) (c.isCancelled reader) rows
      return f rows all) := by
  obtain ⟨calls, hcancelled, hstate, hheld⟩ := h
  unfold Does
  rw [StoreM.run_bind]
  rcases hrun : action.run c.store.state with ⟨e | rows, m⟩
  · rw [hrun] at hstate hheld
    exact ⟨calls, ⟨hheld.trans (List.append_nil _), hcancelled⟩, hstate⟩
  · rw [hrun] at hstate hheld
    -- the rows are the last ones that are held
    have hheld : (c.run calls).held = c.held ++ [⟨rows, reader⟩] := hheld
    have hlast : (c.run calls).held[c.held.length]? = some ⟨rows, reader⟩ := by
      rw [hheld, List.getElem?_concat_length]
    have hcounts := Connection.counts_drain (c.isCancelled reader) {} faults rows (c.run calls).store
    rw [show (c.run calls).store.state = m from hstate] at hcounts
    have hcollect := step_collect hlast
    rw [isCancelled_congr hcancelled] at hcollect
    refine ⟨calls ++ [.read c.held.length .collect], ?_, ?_⟩
    · rw [run_append, run, hcollect]
      refine ⟨?_, hcancelled⟩
      show (c.run calls).held.eraseIdx c.held.length = c.held
      rw [hheld, List.eraseIdx_append_of_length_le (Nat.le_refl _), Nat.sub_self]
      exact List.append_nil _
    · rw [run_append, run, hcollect, run]
      dsimp only
      rw [StoreM.run_bind, hcounts]
      rcases (Connection.drain (Memory.ledger {}) (c.isCancelled reader) rows).run
        (c.run calls).store with ⟨e | all, s⟩ <;> rfl

end Holds

section

variable (conn : Connection) (faults : Faults)

theorem holds_query (text : String) (args : List Json) : c.Holds reader
    (conn.query (Memory.store.withFaults faults) (c.isCancelled reader) text args) :=
  .of_hold (Connection.counts_query faults conn _ text args)
    (.query ⟨conn, faults, reader⟩ text args) rfl

theorem holds_execute (q : Query) : c.Holds reader
    (conn.execute (Memory.store.withFaults faults) (c.isCancelled reader) q) :=
  .of_hold (Connection.counts_execute faults conn _ q) (.execute ⟨conn, faults, reader⟩ q) rfl

theorem holds_executeSingle (q : Query) : c.Holds reader
    (conn.executeSingle (Memory.store.withFaults faults) (c.isCancelled reader) q) :=
  .of_hold (Connection.counts_executeSingle faults conn _ q)
    (.executeSingle ⟨conn, faults, reader⟩ q) rfl

/-- A walk through pages opens rows and collects them, again and again. -/
theorem does_pages (limit : Nat) (q : Query) : c.Does
    (conn.pages (Memory.store.withFaults faults) (c.isCancelled reader) limit q) := by
  induction limit generalizing c q with
  | zero => exact .of_state rfl
  | succ limit ih =>
    have hexecute : c.Holds reader _ := holds_execute conn faults q
    have hdrain := hexecute.drain faults fun _ all => all
    simp only [bind_pure] at hdrain
    rw [Connection.pages, ← bind_assoc]
    -- a page is read; what follows is read as by a client that has not read it
    refine hdrain.bind fun rows c' hkeeps => ?_
    rw [← isCancelled_congr hkeeps.cancelled_eq]
    cases rows.getLast? with
    | none => exact .of_state rfl
    | some row =>
      dsimp only
      cases Connection.cursorAfter? q row with
      | none => exact .of_state rfl
      | some cursor => exact (ih _).bind fun rest c'' _ => .of_state rfl

end

theorem releasedCursors_le_run (h : Balanced (openAmong c.held).length c.store) (calls : List Call) :
    c.store.state.releasedCursors ≤ (c.run calls).store.state.releasedCursors := by
  induction calls generalizing c with
  | nil => exact Nat.le_refl _
  | cons call calls ih =>
    have hsettles := settles_step h call
    exact hsettles.released_le.trans (ih hsettles.balanced)

end Client

/-! ### Rows that are kept -/

/-- What is held among others stands somewhere, and can be removed or replaced there. -/
theorem exists_getElem?_of_perm {α : Type} {held rest : List α} {a : α}
    (h : held.Perm (a :: rest)) :
    ∃ i, held[i]? = some a ∧ (held.eraseIdx i).Perm rest ∧
      ∀ b, (held.set i b).Perm (b :: rest) := by
  obtain ⟨i, hi, ha⟩ := List.getElem_of_mem (h.mem_iff.mpr List.mem_cons_self)
  have herase := List.getElem_cons_eraseIdx_perm hi
  rw [ha] at herase
  have hrest := (herase.trans h).cons_inv
  exact ⟨i, List.getElem?_eq_some_iff.mpr ⟨hi, ha⟩, hrest, fun b =>
    (List.set_perm_cons_eraseIdx hi b).trans (hrest.cons b)⟩

namespace Session

/-- A client that stands where a session stands: their memories are the same, the same readers are
cancelled, and the client holds the rows that the session keeps. -/
structure Follows (s : Session) (c : Client) : Prop where
  state_eq : c.store.state = s.memory
  cancelled_eq : c.cancelled = s.cancelled
  held_perm : c.held.Perm (s.openRows.map Prod.snd)
  nodup : s.openRows.names.Nodup

variable {s : Session} {c : Client}

theorem snd_perform {α : Type} (s : Session) (action : StoreM Memory α) (answer : α → Answer) :
    (s.perform action answer).2 = { s with memory := (action.run s.memory).2 } := by
  unfold perform
  rcases action.run s.memory with ⟨e | a, m⟩ <;> rfl

theorem openRows_putRows (h : s.openRows.names.Nodup) (name : String) (rows : Option OpenRows) :
    ((s.putRows name rows).openRows.map Prod.snd).Perm
        (rows.toList ++ (s.openRows.erase name).map Prod.snd) ∧
      (s.putRows name rows).openRows.names.Nodup := by
  cases rows with
  | none => exact ⟨.refl _, Fields.nodup_names_erase h name⟩
  | some rows => exact ⟨(Fields.perm_put h name rows).map Prod.snd, Fields.nodup_names_put h name rows⟩

/-- A client that holds rows besides those that a session keeps follows it when they are put in place
of those of a name. -/
theorem exists_follows_putRows (hstate : c.store.state = s.memory)
    (hcancelled : c.cancelled = s.cancelled) (h : s.openRows.names.Nodup) (rows : Option OpenRows)
    (hheld : c.held.Perm (rows.toList ++ s.openRows.map Prod.snd)) (name : String) :
    ∃ calls, (s.putRows name rows).Follows (c.run calls) := by
  obtain ⟨hkept, hnames⟩ := openRows_putRows h name rows
  cases hold : s.openRows.get? name with
  | none =>
    -- nothing is replaced
    have hmemory : (s.putRows name rows).memory = s.memory := by
      unfold putRows
      rw [hold]
    rw [Fields.erase_of_get? hold] at hkept
    exact ⟨[], hstate.trans hmemory.symm, hcancelled, hheld.trans hkept.symm, hnames⟩
  | some old =>
    have hmemory : (s.putRows name rows).memory =
        Connection.settle s.store old.rows old.rows.close s.memory := by
      unfold putRows
      rw [hold]
    have hperm := (((Fields.perm_of_get? h hold).map Prod.snd).append_left rows.toList).trans
      List.perm_middle
    obtain ⟨i, hi, hrest, -⟩ := exists_getElem?_of_perm (hheld.trans hperm)
    have hdrop : c.run [.read i .drop] = c.settle old.rows old.rows.close (c.held.eraseIdx i) := by
      rw [Client.run, Client.step_read hi]
      rfl
    refine ⟨[.read i .drop], ?_⟩
    rw [hdrop]
    refine ⟨?_, hcancelled, hrest.trans hkept.symm, hnames⟩
    rw [hmemory, ← hstate]
    exact Connection.state_settle {} s.faults _ _ _

namespace Follows

theorem isCancelled_eq (h : s.Follows c) (reader : String) :
    s.isCancelled reader = c.isCancelled reader :=
  congrArg (List.contains · reader) h.cancelled_eq.symm

/-- What some calls do is done. -/
theorem does {α : Type} {action : StoreM Memory α} (h : s.Follows c) (hdoes : c.Does action) :
    ∃ calls, Follows { s with memory := (action.run s.memory).2 } (c.run calls) := by
  obtain ⟨calls, hkeeps, hstate⟩ := hdoes
  rw [h.state_eq] at hstate
  refine ⟨calls, hstate, hkeeps.cancelled_eq.trans h.cancelled_eq, ?_, h.nodup⟩
  rw [hkeeps.held_eq]
  exact h.held_perm

theorem perform {α : Type} {action : StoreM Memory α} (h : s.Follows c) (hdoes : c.Does action)
    (answer : α → Answer) : ∃ calls, (s.perform action answer).2.Follows (c.run calls) := by
  rw [snd_perform]
  exact h.does hdoes

/-- Rows that are opened are read to their end. -/
theorem drained {action : StoreM Memory Rows} {reader : String} (h : s.Follows c)
    (hholds : c.Holds reader action) :
    ∃ calls, (s.drained reader action).2.Follows (c.run calls) := by
  unfold Session.drained
  rw [h.isCancelled_eq]
  exact h.perform (hholds.drain s.faults fun rows all => (rows.columns, all)) _

/-- Rows that are opened are kept. -/
theorem keepRows {action : StoreM Memory Rows} {reader : String} (h : s.Follows c)
    (hholds : c.Holds reader action) (name : String) :
    ∃ calls, (s.keepRows reader name action).2.Follows (c.run calls) := by
  obtain ⟨calls, hcancelled, hstate, hheld⟩ := hholds
  unfold Session.keepRows
  rw [h.state_eq] at hstate hheld
  rcases hrun : action.run s.memory with ⟨e | rows, m⟩ <;> rw [hrun] at hstate hheld
  · have hheld : (c.run calls).held = c.held := hheld.trans (List.append_nil _)
    exact ⟨calls, hstate, hcancelled.trans h.cancelled_eq, hheld ▸ h.held_perm, h.nodup⟩
  · have hheld : (c.run calls).held = c.held ++ [⟨rows, reader⟩] := hheld
    -- until the rows of the name are replaced, the others are held besides them
    have hperm : (c.run calls).held.Perm (⟨rows, reader⟩ :: s.openRows.map Prod.snd) := by
      rw [hheld]
      exact (List.perm_append_singleton _ _).trans (h.held_perm.cons _)
    obtain ⟨more, hmore⟩ := exists_follows_putRows (s := { s with memory := m }) hstate
      (hcancelled.trans h.cancelled_eq) h.nodup (some ⟨rows, reader⟩) hperm name
    refine ⟨calls ++ more, ?_⟩
    rw [Client.run_append]
    exact hmore

/-- Rows that are kept are held somewhere. -/
theorem exists_held (h : s.Follows c) {name : String} {old : OpenRows}
    (hold : s.openRows.get? name = some old) :
    ∃ i, c.held[i]? = some old ∧
      (c.held.eraseIdx i).Perm ((s.openRows.erase name).map Prod.snd) ∧
      ∀ r', (c.held.set i r').Perm ((s.openRows.put name r').map Prod.snd) := by
  obtain ⟨i, hi, herase, hset⟩ :=
    exists_getElem?_of_perm (h.held_perm.trans ((Fields.perm_of_get? h.nodup hold).map Prod.snd))
  exact ⟨i, hi, herase, fun r' =>
    (hset r').trans ((Fields.perm_put h.nodup name r').map Prod.snd).symm⟩

/-- Rows that become others are replaced. -/
theorem settle (h : s.Follows c) {name : String} {old : OpenRows} {i : Nat} (after : Rows)
    (hset : ∀ r', (c.held.set i r').Perm ((s.openRows.put name r').map Prod.snd)) :
    Follows
      { s with
        memory := Connection.settle s.store old.rows after s.memory
        openRows := s.openRows.put name { old with rows := after } }
      (c.settle old.rows after (c.held.set i { old with rows := after })) := by
  refine ⟨?_, h.cancelled_eq, hset _, Fields.nodup_names_put h.nodup name _⟩
  show (Connection.settle (Memory.ledger {}) old.rows after c.store).state = _
  rw [Connection.state_settle {} s.faults, h.state_eq]
  rfl

theorem nextRow (h : s.Follows c) (name : String) :
    ∃ calls, (s.nextRow name).2.Follows (c.run calls) := by
  unfold Session.nextRow
  cases hold : s.openRows.get? name with
  | none => exact ⟨[], h⟩
  | some old =>
    obtain ⟨i, hi, -, hset⟩ := h.exists_held hold
    refine ⟨[.read i .next], ?_⟩
    rw [Client.run, Client.step_read hi, Client.run, Client.read]
    dsimp only
    rw [h.isCancelled_eq]
    rcases old.rows.next (c.isCancelled old.reader) with ⟨e | row, after⟩
    · exact h.settle after hset
    · exact h.settle after hset

theorem closeRows (h : s.Follows c) (name : String) :
    ∃ calls, (s.closeRows name).Follows (c.run calls) := by
  unfold Session.closeRows
  cases hold : s.openRows.get? name with
  | none => exact ⟨[], h⟩
  | some old =>
    obtain ⟨i, hi, -, hset⟩ := h.exists_held hold
    refine ⟨[.read i .close], ?_⟩
    rw [Client.run, Client.step_read hi]
    unfold putRows
    rw [hold]
    exact h.settle old.rows.close hset

theorem collectRows (h : s.Follows c) (name : String) :
    ∃ calls, (s.collectRows name).2.Follows (c.run calls) := by
  unfold Session.collectRows
  cases hold : s.openRows.get? name with
  | none => exact ⟨[], h⟩
  | some old =>
    obtain ⟨i, hi, herase, -⟩ := h.exists_held hold
    have hcounts := Connection.counts_drain (c.isCancelled old.reader) {} s.faults old.rows c.store
    refine ⟨[.read i .collect], ?_⟩
    dsimp only
    rw [Client.run, Client.step_collect hi, snd_perform, h.isCancelled_eq]
    refine ⟨?_, h.cancelled_eq, herase, Fields.nodup_names_erase h.nodup name⟩
    rw [h.state_eq] at hcounts
    exact (congrArg Prod.snd hcounts).symm

end Follows

/-! ### Steps -/

/-- Some calls of a client do what a session is told. -/
theorem exists_calls_step (h : s.Follows c) (step : Step) :
    ∃ calls, (s.step step).2.Follows (c.run calls) := by
  obtain ⟨command, database, reader⟩ := step
  unfold Session.step
  dsimp only
  rw [h.isCancelled_eq reader]
  cases command with
  | seed seed => exact h.perform (.of_perform (.times 0 _) (.loadSeed _ seed) rfl) _
  | fromSeed seed =>
    dsimp only
    split <;> exact ⟨[], h⟩
  | create collection =>
    exact h.perform (.of_perform (.times 0 _) (.createCollection _ collection) rfl) _
  | insert collection doc =>
    exact h.perform
      (.lift _ fun doc => .of_perform (.times 0 _) (.insertMany _ collection [doc]) rfl) _
  | insertMany collection docs =>
    exact h.perform
      (.lift _ fun docs => .of_perform (.times 0 _) (.insertMany _ collection docs) rfl) _
  | collections =>
    refine h.perform (.of_state ?_) _
    unfold store DocumentStore.withFaults Faults.guarded
    cases s.faults.list <;> rfl
  | counters => exact ⟨[], h⟩
  | use => exact ⟨[], h.state_eq, h.cancelled_eq, h.held_perm, h.nodup⟩
  | sampleSize size => exact ⟨[], h.state_eq, h.cancelled_eq, h.held_perm, h.nodup⟩
  | connect size =>
    dsimp only
    generalize (size.map _).getD _ = requested
    obtain ⟨calls, hcalls⟩ := h.does (.of_perform (Connection.counts_connect s.faults requested _)
      (.connect ⟨requested, s.faults, reader⟩) rfl)
    refine ⟨calls, ?_⟩
    unfold store
    rcases hrun : (requested.connect (Memory.store.withFaults s.faults) (c.isCancelled reader)).run
      s.memory with ⟨e | conn, m⟩ <;> rw [hrun] at hcalls
    · exact hcalls
    · exact ⟨hcalls.state_eq, hcalls.cancelled_eq, hcalls.held_perm, hcalls.nodup⟩
  | cancel =>
    exact ⟨[.cancel reader], h.state_eq, congrArg (reader :: ·) h.cancelled_eq, h.held_perm, h.nodup⟩
  | query text args => exact h.drained (Client.holds_query _ _ text args)
  | executeUnbound text => exact h.drained (.lift _ fun q => Client.holds_execute _ _ q)
  | single text args =>
    exact h.drained (.bound text args fun q => Client.holds_executeSingle _ _ q)
  | openRows text args name => exact h.keepRows (Client.holds_query _ _ text args) name
  | openSingle text args name =>
    exact h.keepRows (.bound text args fun q => Client.holds_executeSingle _ _ q) name
  | next name => exact h.nextRow name
  | close name => exact h.closeRows name
  | collect name => exact h.collectRows name
  | drop name =>
    exact exists_follows_putRows h.state_eq h.cancelled_eq h.nodup none h.held_perm name
  | walk text args limit =>
    exact h.perform (.bound text args fun q => Client.does_pages _ _ limit q) _

theorem exists_calls_run (h : s.Follows c) (steps : List Step) :
    ∃ calls, (s.run steps).2.Follows (c.run calls) := by
  induction steps generalizing s c with
  | nil => exact ⟨[], h⟩
  | cons step steps ih =>
    obtain ⟨calls, hstep⟩ := exists_calls_step h step
    obtain ⟨more, hrun⟩ := ih hstep
    refine ⟨calls ++ more, ?_⟩
    rw [Client.run_append]
    exact hrun

theorem follows_start (database : String) (faults : Faults) :
    (start database faults).Follows Client.start :=
  ⟨rfl, rfl, .refl _, List.nodup_nil⟩

/-- **Sessions release their streams**: after every step of a session, the streams that are open are
those of the rows that it keeps and has not closed, and no release is taken back. -/
theorem run_accounted (database : String) (faults : Faults) (steps : List Step) (step : Step) :
    let s := ((start database faults).run steps).2
    let s' := (s.step step).2
    s'.memory.openCursors = (openAmong (s'.openRows.map Prod.snd)).length ∧
      s.memory.releasedCursors ≤ s'.memory.releasedCursors := by
  obtain ⟨calls, hrun⟩ := exists_calls_run (follows_start database faults) steps
  obtain ⟨more, hstep⟩ := exists_calls_step hrun step
  have hbefore := Client.balanced_run (c := Client.start) ⟨rfl, rfl⟩ calls
  constructor
  · have hopen := (Client.balanced_run hbefore more).openCursors
    rw [hstep.state_eq] at hopen
    exact hopen.trans (hstep.held_perm.filter _).length_eq
  · have hreleased := Client.releasedCursors_le_run hbefore more
    rwa [hrun.state_eq, hstep.state_eq] at hreleased

/-- Rows that take the place of others under their name close them. -/
example :
    let find := "\x7b\"operation\":\"find\",\"collection\":\"items\"\x7d"
    let s := ((start "site" {}).run [⟨.openRows find [] "items", none, "main"⟩,
      ⟨.openRows find [] "items", none, "main"⟩]).2
    (s.memory.openCursors, s.memory.releasedCursors) = (1, 1) := by decide +kernel

end Session

end Keyset
