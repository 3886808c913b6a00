import Keyset.Rows
import Mathlib.Data.List.Infix

/-!
# Reading rows

Whatever a reader does with rows, reading, closing, and being cancelled at any time, it gets their first
rows in order, at most one error, and nothing any more after an end (`Reader.answers_in_order`).

What one reading does is said once, by `Rows.yields_next`: a row is taken off those that are left, and
everything else closes the rows.  Closed rows stay as they are (`Reader.stays_closed`), so that an error
is the last thing that a reader is told.  A stream is a finite list here: what is done with it in
finitely many steps depends on no more than so many of its items.
-/

namespace Keyset

namespace Rows

/-! ### What is left to read -/

/-- The documents of a stream before its first error. -/
def documentsBefore : DocumentStream → List Document
  | .ok doc :: rest => doc :: documentsBefore rest
  | _ => []

/-- The first error of a stream. -/
def firstError? : DocumentStream → Option Error
  | [] => none
  | .error e :: _ => some e
  | .ok _ :: rest => firstError? rest

/-- The rows that are left to read: those of a stream end at its first error. -/
def pending : Rows → List Row
  | .documents stream => (stream.elim [] documentsBefore).map documentRow
  | .single payload => payload.toList.map fun s => [.text s]
  | .tabular _ rows => rows

/-- The error that ends the rows; only a stream has one. -/
def failure? : Rows → Option Error
  | .documents stream => stream.bind firstError?
  | _ => none

theorem exists_stream_of_isOpen {rows : Rows} (h : rows.isOpen = true) :
    ∃ items, rows = .documents (some items) := by
  cases rows with
  | documents stream =>
    cases stream with
    | none => cases h
    | some items => exact ⟨items, rfl⟩
  | _ => cases h

theorem isOpen_of_close_eq {rows : Rows} (h : rows.close = rows) : rows.isOpen = false := by
  rw [← h]
  exact isOpen_close rows

@[simp] theorem close_close (rows : Rows) : rows.close.close = rows.close := by
  cases rows <;> rfl

/-! ### One row -/

/-- What reading the next row answers and leaves. -/
inductive Yields (cancelled : Bool) (rows : Rows) : Except Error (Option Row) → Rows → Prop
  /-- The first of the rows that are left. -/
  | row {row : Row} {after : Rows} (hpending : rows.pending = row :: after.pending)
    (hfailure : after.failure? = rows.failure?) (hopen : after.isOpen = rows.isOpen) :
    Yields cancelled rows (.ok (some row)) after
  /-- Nothing, because there is nothing left. -/
  | finished {after : Rows} (hclosed : after.close = after) (hpending : rows.pending = [])
    (hfailure : rows.failure? = none) : Yields cancelled rows (.ok none) after
  /-- An error, because the reader was cancelled or the stream has come to its first error. -/
  | failed {e : Error} {after : Rows} (hclosed : after.close = after) (hopen : rows.isOpen = true)
    (he : (cancelled = true ∧ e = .cancelled) ∨ (rows.pending = [] ∧ rows.failure? = some e)) :
    Yields cancelled rows (.error e) after

theorem yields_next (cancelled : Bool) (rows : Rows) :
    Yields cancelled rows (rows.next cancelled).1 (rows.next cancelled).2 := by
  cases rows with
  | documents stream =>
    cases stream with
    | none => exact .finished rfl rfl rfl
    | some items =>
      cases cancelled with
      | true => exact .failed rfl rfl (.inl ⟨rfl, rfl⟩)
      | false =>
        cases items with
        | nil => exact .finished rfl rfl rfl
        | cons item rest =>
          cases item with
          | error e => exact .failed rfl rfl (.inr ⟨rfl, rfl⟩)
          | ok doc => exact .row rfl rfl rfl
  | single payload =>
    cases payload with
    | none => exact .finished rfl rfl rfl
    | some s => exact .row rfl rfl rfl
  | tabular columns rows =>
    cases rows with
    | nil => exact .finished rfl rfl rfl
    | cons row rows => exact .row rfl rfl rfl

end Rows

/-! ### Readers -/

/-- What is done with rows: the next one is read, they are closed, or their reader is cancelled. -/
inductive Use where
  | next
  | close
  | cancel
deriving DecidableEq, Repr

/-- Rows, and whether their reader was cancelled. -/
structure Reader where
  rows : Rows
  cancelled : Bool

namespace Reader

/-- What is answered to a use; only reading answers something. -/
def answer? (r : Reader) : Use → Option (Except Error (Option Row))
  | .next => some (r.rows.next r.cancelled).1
  | .close | .cancel => none

/-- The reader after a use. -/
def step (r : Reader) : Use → Reader
  | .next => { r with rows := (r.rows.next r.cancelled).2 }
  | .close => { r with rows := r.rows.close }
  | .cancel => { r with cancelled := true }

/-- The reader after uses, one after the other. -/
def run (r : Reader) (uses : List Use) : Reader :=
  uses.foldl step r

/-- What is answered to uses, in order. -/
def answers (r : Reader) : List Use → List (Except Error (Option Row))
  | [] => []
  | use :: uses => (r.answer? use).toList ++ (r.step use).answers uses

/-- The rows among answers. -/
def rowsOf (answers : List (Except Error (Option Row))) : List Row :=
  answers.filterMap fun
    | .ok row => row
    | .error _ => none

/-- The errors among answers. -/
def errorsOf (answers : List (Except Error (Option Row))) : List Error :=
  answers.filterMap fun
    | .ok _ => none
    | .error e => some e

section

variable (answers : List (Except Error (Option Row)))

@[simp] theorem rowsOf_row (row : Row) : rowsOf (.ok (some row) :: answers) = row :: rowsOf answers :=
  rfl

@[simp] theorem rowsOf_none : rowsOf (.ok none :: answers) = rowsOf answers := rfl

@[simp] theorem rowsOf_error (e : Error) : rowsOf (.error e :: answers) = rowsOf answers := rfl

@[simp] theorem errorsOf_ok (row : Option Row) : errorsOf (.ok row :: answers) = errorsOf answers :=
  rfl

@[simp] theorem errorsOf_error (e : Error) :
    errorsOf (.error e :: answers) = e :: errorsOf answers := rfl

end

/-- Whether a use ends the rows: it closes them, or it reads and is answered with no row. -/
def Ends (r : Reader) : Use → Prop
  | .next => ∀ row, (r.rows.next r.cancelled).1 ≠ .ok (some row)
  | .close => True
  | .cancel => False

variable {r : Reader}

/-- A reading is answered with what the next row yields, and goes on with what that leaves. -/
theorem exists_answers_next (r : Reader) (uses : List Use) :
    ∃ answer after, Rows.Yields r.cancelled r.rows answer after ∧
      r.answers (.next :: uses) = answer :: (Reader.mk after r.cancelled).answers uses :=
  ⟨_, _, Rows.yields_next r.cancelled r.rows, rfl⟩

/-! ### Closed rows -/

/-- Nothing changes closed rows, and nothing is read from them. -/
theorem stays_closed (h : r.rows.close = r.rows) (uses : List Use) :
    (∀ a ∈ r.answers uses, a = .ok none) ∧ (r.run uses).rows = r.rows := by
  induction uses generalizing r with
  | nil => exact ⟨nofun, rfl⟩
  | cons use uses ih =>
    have hnext : r.rows.next r.cancelled = (.ok none, r.rows) := by
      have hclosed := Rows.next_close r.cancelled r.rows
      rwa [h] at hclosed
    have hstep : (r.step use).rows = r.rows := by
      cases use with
      | next => exact congrArg Prod.snd hnext
      | close => exact h
      | cancel => rfl
    have hrest : (r.step use).rows.close = (r.step use).rows := by rw [hstep, h]
    obtain ⟨hanswers, hrows⟩ := ih hrest
    refine ⟨?_, hrows.trans hstep⟩
    intro a ha
    rcases List.mem_append.mp ha with ha | ha
    · cases use with
      | next =>
        rw [answer?, hnext] at ha
        exact List.mem_singleton.mp ha
      | close => cases ha
      | cancel => cases ha
    · exact hanswers a ha

theorem rowsOf_closed (h : r.rows.close = r.rows) (uses : List Use) : rowsOf (r.answers uses) = [] := by
  rw [rowsOf, List.filterMap_eq_nil_iff]
  intro a ha
  rw [(stays_closed h uses).1 a ha]

theorem errorsOf_closed (h : r.rows.close = r.rows) (uses : List Use) :
    errorsOf (r.answers uses) = [] := by
  rw [errorsOf, List.filterMap_eq_nil_iff]
  intro a ha
  rw [(stays_closed h uses).1 a ha]

/-- What ends the rows leaves them closed. -/
theorem close_step_of_ends {use : Use} (h : r.Ends use) :
    (r.step use).rows.close = (r.step use).rows := by
  cases use with
  | next =>
    rw [Ends] at h
    have hyields := Rows.yields_next r.cancelled r.rows
    rw [step]
    generalize r.rows.next r.cancelled = result at h hyields ⊢
    obtain ⟨answer, after⟩ := result
    cases hyields with
    | row hpending hfailure hopen => exact absurd rfl (h _)
    | finished hclosed hpending hfailure => exact hclosed
    | failed hclosed hopen he => exact hclosed
  | close => exact Rows.close_close r.rows
  | cancel => exact h.elim

/-! ### Any uses -/

/-- The rows that are read are the first of those that are left. -/
theorem rowsOf_answers (r : Reader) (uses : List Use) :
    rowsOf (r.answers uses) <+: r.rows.pending := by
  induction uses generalizing r with
  | nil => exact List.nil_prefix
  | cons use uses ih =>
    cases use with
    | next =>
      obtain ⟨answer, after, hyields, hanswers⟩ := exists_answers_next r uses
      rw [hanswers]
      cases hyields with
      | row hpending hfailure hopen =>
        rw [rowsOf_row, hpending]
        exact (List.prefix_cons_inj _).mpr (ih ⟨after, r.cancelled⟩)
      | finished hclosed hpending hfailure =>
        rw [rowsOf_none, rowsOf_closed hclosed]
        exact List.nil_prefix
      | failed hclosed hopen he =>
        rw [rowsOf_error, rowsOf_closed hclosed]
        exact List.nil_prefix
    | close =>
      have hended : rowsOf ((r.step .close).answers uses) = [] := rowsOf_closed (Rows.close_close _) uses
      exact hended ▸ List.nil_prefix
    | cancel => exact ih (r.step .cancel)

/-- At most one error is answered: that the reader was cancelled, or the first one of the stream. -/
theorem errorsOf_answers (r : Reader) (uses : List Use) :
    errorsOf (r.answers uses) = [] ∨
      ∃ e, errorsOf (r.answers uses) = [e] ∧ r.rows.isOpen = true ∧
        ((e = .cancelled ∧ (r.cancelled = true ∨ .cancel ∈ uses)) ∨ r.rows.failure? = some e) := by
  induction uses generalizing r with
  | nil => exact .inl rfl
  | cons use uses ih =>
    cases use with
    | next =>
      obtain ⟨answer, after, hyields, hanswers⟩ := exists_answers_next r uses
      rw [hanswers]
      cases hyields with
      | row hpending hfailure hopen =>
        rw [errorsOf_ok]
        rcases ih ⟨after, r.cancelled⟩ with hnone | ⟨e, herrors, hafter, he⟩
        · exact .inl hnone
        · refine .inr ⟨e, herrors, hopen ▸ hafter, ?_⟩
          rw [← hfailure]
          refine he.imp_left fun hcancelled => ⟨hcancelled.1, ?_⟩
          exact hcancelled.2.imp_right (List.mem_cons_of_mem _)
      | finished hclosed hpending hfailure =>
        rw [errorsOf_ok]
        exact .inl (errorsOf_closed hclosed uses)
      | @failed e _ hclosed hopen he =>
        -- behind this error no other one is answered
        rw [errorsOf_error, errorsOf_closed hclosed]
        refine .inr ⟨e, rfl, hopen, ?_⟩
        exact he.imp (fun hcancelled => ⟨hcancelled.2, .inl hcancelled.1⟩) And.right
    | close =>
      have hended : errorsOf ((r.step .close).answers uses) = [] :=
        errorsOf_closed (Rows.close_close _) uses
      exact .inl hended
    | cancel =>
      rcases ih (r.step .cancel) with hnone | ⟨e, herrors, hopen, he⟩
      · exact .inl hnone
      · refine .inr ⟨e, herrors, hopen, he.imp_left fun hcancelled => ⟨hcancelled.1, ?_⟩⟩
        exact .inr List.mem_cons_self

/-- A reader that only reads, and is not cancelled, gets one row after the other, and behind the last
one the error of the stream. -/
theorem answers_replicate_next (rows : Rows) (n : Nat) :
    rowsOf ((Reader.mk rows false).answers (List.replicate n .next)) = rows.pending.take n ∧
      (rows.pending.length < n →
        errorsOf ((Reader.mk rows false).answers (List.replicate n .next)) =
          rows.failure?.toList) := by
  induction n generalizing rows with
  | zero => exact ⟨rfl, fun h => absurd h (Nat.not_lt_zero _)⟩
  | succ n ih =>
    obtain ⟨answer, after, hyields, hanswers⟩ :=
      exists_answers_next ⟨rows, false⟩ (List.replicate n .next)
    rw [List.replicate_succ, hanswers]
    cases hyields with
    | row hpending hfailure hopen =>
      obtain ⟨hrows, herrors⟩ := ih after
      dsimp only at hpending hfailure
      rw [rowsOf_row, errorsOf_ok, hrows, hpending, List.take_succ_cons, ← hfailure]
      exact ⟨rfl, fun hlength => herrors (Nat.lt_of_succ_lt_succ hlength)⟩
    | finished hclosed hpending hfailure =>
      dsimp only at hpending hfailure
      rw [rowsOf_none, errorsOf_ok, rowsOf_closed hclosed, errorsOf_closed hclosed, hpending, hfailure]
      exact ⟨rfl, fun _ => rfl⟩
    | failed hclosed hopen he =>
      rcases he with ⟨hcancelled, -⟩ | ⟨hpending, hfailure⟩
      · cases hcancelled
      · dsimp only at hpending hfailure
        rw [rowsOf_error, errorsOf_error, rowsOf_closed hclosed, errorsOf_closed hclosed, hpending,
          hfailure]
        exact ⟨rfl, fun _ => rfl⟩

/-- **What a reader of rows can rely on**, whatever it does and whenever it is cancelled: it reads the
first of the rows that are left, in order and each once; it is told at most one error, for documents
only, which is that it was cancelled or the first one of the stream; and once it has been told an error,
or that there is no next row, or has closed the rows, every reading answers that there is none and
nothing changes the rows any more.  If it only reads, it gets every row and then the stream's error. -/
theorem answers_in_order (r : Reader) (uses : List Use) :
    rowsOf (r.answers uses) <+: r.rows.pending ∧
      (errorsOf (r.answers uses) = [] ∨
        ∃ e items, errorsOf (r.answers uses) = [e] ∧ r.rows = .documents (some items) ∧
          ((e = .cancelled ∧ (r.cancelled = true ∨ .cancel ∈ uses)) ∨
            Rows.firstError? items = some e)) ∧
      (∀ before use after, (r.run before).Ends use →
        let ended := (r.run before).step use
        ended.rows.isOpen = false ∧ (∀ a ∈ ended.answers after, a = .ok none) ∧
          (ended.run after).rows = ended.rows) ∧
      ∀ n, r.cancelled = false →
        rowsOf (r.answers (List.replicate n .next)) = r.rows.pending.take n ∧
          (r.rows.pending.length < n →
            errorsOf (r.answers (List.replicate n .next)) = r.rows.failure?.toList) := by
  refine ⟨rowsOf_answers r uses, ?_, ?_, ?_⟩
  · refine (errorsOf_answers r uses).imp_right ?_
    rintro ⟨e, herrors, hopen, he⟩
    obtain ⟨items, hrows⟩ := Rows.exists_stream_of_isOpen hopen
    rw [hrows] at he
    exact ⟨e, items, herrors, hrows, he⟩
  · intro before use after hends ended
    have hclosed : ended.rows.close = ended.rows := close_step_of_ends hends
    have hopen : ended.rows.isOpen = false := Rows.isOpen_of_close_eq hclosed
    obtain ⟨hanswers, hrows⟩ := Reader.stays_closed hclosed after
    exact ⟨hopen, hanswers, hrows⟩
  · intro n hcancelled
    obtain ⟨rows, cancelled⟩ := r
    obtain rfl : cancelled = false := hcancelled
    exact answers_replicate_next rows n

/-- A stream that fails at its second document: behind the error the reader is told nothing more,
though it is cancelled, reads on and closes the rows. -/
theorem answers_in_order_failingStream :
    let stream : DocumentStream :=
      [.ok [("n", .int32 1)], .error (.store (.failure "lost")), .ok [("n", .int32 3)]]
    let r : Reader := ⟨.documents (some stream), false⟩
    let ended := r.run [.next, .next]
    r.cancelled = false ∧ (r.run [.next]).Ends .next ∧
      rowsOf (r.answers [.next, .next, .cancel, .next, .close]) <+: r.rows.pending ∧
      (∀ a ∈ ended.answers [.cancel, .next, .close], a = .ok none) ∧
      (ended.run [.cancel, .next, .close]).rows = ended.rows ∧
      errorsOf (r.answers [.next, .next]) = [.store (.failure "lost")] := by
  intro stream r ended
  have hends : (r.run [.next]).Ends .next := fun row => nofun
  obtain ⟨hrows, -, hended, hreads⟩ := answers_in_order r [.next, .next, .cancel, .next, .close]
  obtain ⟨-, hanswers, hsame⟩ := hended [.next] .next [.cancel, .next, .close] hends
  have herrors := (hreads 2 rfl).2 (by decide)
  exact ⟨rfl, hends, hrows, hanswers, hsame, herrors⟩

end Reader

end Keyset
