import Keyset.Schema.Catalog
import Mathlib.Data.List.Nodup
import Mathlib.Data.String.Basic

/-!
# Catalogs that were made by calls

Whatever calls a catalog is made by, and whichever of them fail, its tables are the ones that were added,
each once and in order, the place of a table leads to its entry, and both sides of every relation are
among the tables (`build_consistent`).

What a call can do is said once, by `run_addTable` and `run_addRelation`; the places and the tables stay
in step because of it (`Consistent.after`), and so they are after any calls (`consistent_build`).
-/

namespace Keyset

/-! ### Names in increasing order -/

namespace Catalog

theorem mem_insertName {name other : String} {names : List String} :
    other ∈ insertName name names ↔ other = name ∨ other ∈ names := by
  induction names with
  | nil => simp [insertName]
  | cons first names ih =>
    unfold insertName
    split
    case h_1 => simp
    case h_2 heq =>
      obtain rfl := Std.compare_eq_iff_eq.mp heq
      simp
    case h_3 =>
      rw [List.mem_cons, ih, List.mem_cons]
      exact or_left_comm

theorem pairwise_insertName {name : String} {names : List String} (h : names.Pairwise (· < ·)) :
    (insertName name names).Pairwise (· < ·) := by
  induction names with
  | nil => simp [insertName]
  | cons first names ih =>
    obtain ⟨hfirst, hnames⟩ := List.pairwise_cons.mp h
    unfold insertName
    split
    case h_1 hlt =>
      have hname : name < first := compare_lt_iff_lt.mp hlt
      refine List.pairwise_cons.mpr ⟨fun other hother => ?_, h⟩
      rcases List.mem_cons.mp hother with rfl | hother
      · exact hname
      · exact String.lt_trans hname (hfirst other hother)
    case h_2 => exact h
    case h_3 hgt =>
      have hname : first < name := compare_gt_iff_gt.mp hgt
      refine List.pairwise_cons.mpr ⟨fun other hother => ?_, ih hnames⟩
      rcases mem_insertName.mp hother with rfl | hother
      · exact hname
      · exact hfirst other hother

/-- Names put in order one by one are the same names, each once. -/
theorem mem_foldr_insertName {name : String} {names : List String} :
    name ∈ names.foldr insertName [] ↔ name ∈ names := by
  induction names with
  | nil => rfl
  | cons first names ih => rw [List.foldr_cons, mem_insertName, ih, List.mem_cons]

theorem pairwise_foldr_insertName (names : List String) :
    (names.foldr insertName []).Pairwise (· < ·) := by
  induction names with
  | nil => exact .nil
  | cons first names ih => exact pairwise_insertName ih

end Catalog

/-! ### What a call does -/

namespace CatalogM

theorem run_bind (step next : CatalogM Unit) (c : Catalog) :
    (step >>= fun _ => next).run c =
      match step.run c with
      | (.ok (), c') => next.run c'
      | (.error e, c') => (.error e, c') := by
  show ExceptT.bindCont (fun _ => next : Unit → CatalogM Unit) (step.run c).1 (step.run c).2 = _
  rcases step.run c with ⟨r, c'⟩
  cases r <;> rfl

theorem run_addTable (e : TableEntry) (c : Catalog) :
    (addTable e).run c =
      if c.has e.table then (.error (.duplicateTable e.table), c)
      else (.ok (), { c with
        places := (e.table, c.tables.length) :: c.places, tables := c.tables ++ [e] }) := by
  show (if c.has e.table then throw (.duplicateTable e.table) else modify _ : CatalogM Unit).run c = _
  split <;> rfl

theorem run_need (table : TableRef) (c : Catalog) :
    (need table).run c = (if c.has table then .ok () else .error (.unknownTable table), c) := by
  show (if !c.has table then throw (.unknownTable table) else pure () : CatalogM Unit).run c = _
  cases c.has table <;> rfl

theorem run_addRelation (r : Relation) (c : Catalog) :
    (addRelation r).run c =
      if c.has r.left.table then
        if c.has r.right.table then (.ok (), { c with relations := c.relations ++ [r] })
        else (.error (.unknownTable r.right.table), c)
      else (.error (.unknownTable r.left.table), c) := by
  unfold addRelation
  rw [run_bind, run_need]
  cases c.has r.left.table
  · rfl
  · show (need r.right.table >>= fun _ => modify _ : CatalogM Unit).run c = _
    rw [run_bind, run_need]
    cases c.has r.right.table <;> rfl

end CatalogM

/-- A call on a catalog that is being made. -/
inductive CatalogCall where
  | addTable (entry : TableEntry)
  | addRelation (relation : Relation)

namespace CatalogCall

/-- What a call does. -/
def step : CatalogCall → CatalogM Unit
  | addTable e => CatalogM.addTable e
  | addRelation r => CatalogM.addRelation r

/-- The table that a call is to add. -/
def entry? : CatalogCall → Option TableEntry
  | addTable e => some e
  | addRelation _ => none

end CatalogCall

namespace Catalog

variable {c : Catalog}

/-- What a call answers. -/
def answer (c : Catalog) (call : CatalogCall) : Except SchemaError Unit :=
  (call.step.run c).1

/-- The catalog after a call. -/
def after (c : Catalog) (call : CatalogCall) : Catalog :=
  (call.step.run c).2

/-- The catalog that calls make of the empty one, whether they succeed or not. -/
def build (calls : List CatalogCall) : Catalog :=
  calls.foldl after empty

/-- The calls that succeed, one after the other. -/
def accepted (c : Catalog) : List CatalogCall → List CatalogCall
  | [] => []
  | call :: calls =>
    match c.answer call with
    | .ok () => call :: (c.after call).accepted calls
    | .error _ => (c.after call).accepted calls

/-- Whether a table is among those of a catalog. -/
def Holds (c : Catalog) (table : TableRef) : Prop :=
  ∃ e ∈ c.tables, e.table = table

/-- Whether there was a call to add a table. -/
def Requested (calls : List CatalogCall) (table : TableRef) : Prop :=
  ∃ e, .addTable e ∈ calls ∧ e.table = table

theorem answer_addTable (c : Catalog) (e : TableEntry) :
    c.answer (.addTable e) = if c.has e.table then .error (.duplicateTable e.table) else .ok () := by
  show ((CatalogM.addTable e).run c).1 = _
  rw [CatalogM.run_addTable]
  split <;> rfl

theorem answer_addRelation (c : Catalog) (r : Relation) :
    c.answer (.addRelation r) =
      if c.has r.left.table then
        if c.has r.right.table then .ok () else .error (.unknownTable r.right.table)
      else .error (.unknownTable r.left.table) := by
  show ((CatalogM.addRelation r).run c).1 = _
  rw [CatalogM.run_addRelation]
  split_ifs <;> rfl

/-- A call that fails leaves the catalog as it was. -/
theorem after_of_error {call : CatalogCall} {e : SchemaError} (h : c.answer call = .error e) :
    c.after call = c := by
  cases call with
  | addTable entry =>
    rw [answer_addTable] at h
    show ((CatalogM.addTable entry).run c).2 = c
    rw [CatalogM.run_addTable]
    split_ifs at h ⊢
    rfl
  | addRelation r =>
    rw [answer_addRelation] at h
    show ((CatalogM.addRelation r).run c).2 = c
    rw [CatalogM.run_addRelation]
    split_ifs at h ⊢ <;> rfl

theorem after_addTable {e : TableEntry} (h : c.answer (.addTable e) = .ok ()) :
    c.has e.table = false ∧ c.after (.addTable e) = { c with
      places := (e.table, c.tables.length) :: c.places, tables := c.tables ++ [e] } := by
  rw [answer_addTable] at h
  show _ ∧ ((CatalogM.addTable e).run c).2 = _
  rw [CatalogM.run_addTable]
  split_ifs at h ⊢ with hhas
  exact ⟨by simpa using hhas, rfl⟩

theorem after_addRelation {r : Relation} (h : c.answer (.addRelation r) = .ok ()) :
    c.has r.left.table = true ∧ c.has r.right.table = true ∧
      c.after (.addRelation r) = { c with relations := c.relations ++ [r] } := by
  rw [answer_addRelation] at h
  show _ ∧ _ ∧ ((CatalogM.addRelation r).run c).2 = _
  rw [CatalogM.run_addRelation]
  split_ifs at h ⊢ with hleft hright
  exact ⟨hleft, hright, rfl⟩

/-! ### Places and tables in step -/

theorem place?_cons (table : TableRef) (e : TableEntry) (i : Nat) (tables : List TableEntry) :
    place? { c with places := (e.table, i) :: c.places, tables := tables } table =
      if table = e.table then some i else c.place? table := by
  show List.lookup table ((e.table, i) :: c.places) = _
  rw [List.lookup_cons]
  split_ifs with h
  · rw [h, beq_self_eq_true]
  · rw [beq_false_of_ne h]
    rfl

/-- The places of a catalog are those of its tables, and its relations are between its tables. -/
structure Consistent (c : Catalog) : Prop where
  place?_eq_some_iff : ∀ table i,
    c.place? table = some i ↔ (c.tables[i]?).map TableEntry.table = some table
  left_holds : ∀ r ∈ c.relations, c.Holds r.left.table
  right_holds : ∀ r ∈ c.relations, c.Holds r.right.table

namespace Consistent

theorem empty : Consistent empty where
  place?_eq_some_iff := by
    intro table i
    simp [place?, Catalog.empty]
  left_holds := nofun
  right_holds := nofun

variable (h : c.Consistent)
include h

theorem has_iff {table : TableRef} : c.has table = true ↔ c.Holds table := by
  unfold has Holds
  rw [Option.isSome_iff_exists]
  constructor
  · rintro ⟨i, hi⟩
    obtain ⟨e, he, rfl⟩ := Option.map_eq_some_iff.mp ((h.place?_eq_some_iff table i).mp hi)
    exact ⟨e, List.mem_of_getElem? he, rfl⟩
  · rintro ⟨e, he, rfl⟩
    obtain ⟨i, hi⟩ := List.mem_iff_getElem?.mp he
    exact ⟨i, (h.place?_eq_some_iff e.table i).mpr (by rw [hi, Option.map_some])⟩

/-- No two entries are of one table: its place is the place of both. -/
theorem nodup : (c.tables.map TableEntry.table).Nodup := by
  rw [List.nodup_iff_getElem?_ne_getElem?]
  intro i j hij hj heq
  rw [List.getElem?_map, List.getElem?_map] at heq
  rw [List.length_map] at hj
  have hj' : (c.tables[j]?).map TableEntry.table = some c.tables[j].table := by
    rw [List.getElem?_eq_getElem hj, Option.map_some]
  have hi := (h.place?_eq_some_iff _ i).mpr (heq.trans hj')
  rw [(h.place?_eq_some_iff _ j).mpr hj'] at hi
  have : j = i := Option.some.inj hi
  omega

/-- The entry of a table is the one that was added under its name. -/
theorem entry?_eq_some_iff {table : TableRef} {e : TableEntry} :
    c.entry? table = some e ↔ e ∈ c.tables ∧ e.table = table := by
  unfold entry?
  rw [Option.bind_eq_some_iff]
  constructor
  · rintro ⟨i, hi, he⟩
    have htable := (h.place?_eq_some_iff table i).mp hi
    rw [he, Option.map_some] at htable
    exact ⟨List.mem_of_getElem? he, Option.some.inj htable⟩
  · rintro ⟨he, rfl⟩
    obtain ⟨i, hi⟩ := List.mem_iff_getElem?.mp he
    exact ⟨i, (h.place?_eq_some_iff e.table i).mpr (by rw [hi, Option.map_some]), hi⟩

theorem addTable {e : TableEntry} (hnew : c.has e.table = false) :
    Consistent { c with
      places := (e.table, c.tables.length) :: c.places, tables := c.tables ++ [e] } := by
  have hholds : ∀ table, c.Holds table → ∃ e' ∈ c.tables ++ [e], e'.table = table :=
    fun _ ⟨e', he', htable⟩ => ⟨e', List.mem_append_left _ he', htable⟩
  refine ⟨fun table i => ?_, fun r hr => hholds _ (h.left_holds r hr),
    fun r hr => hholds _ (h.right_holds r hr)⟩
  have hold := h.place?_eq_some_iff table i
  rw [place?_cons]
  rcases Nat.lt_trichotomy i c.tables.length with hlt | rfl | hgt
  · -- an old place
    rw [List.getElem?_append_left hlt, ← hold]
    split_ifs with htable
    · have hnone : c.place? table = none := by simpa [has, htable] using hnew
      simp [hnone, Nat.ne_of_gt hlt]
    · rfl
  · -- the new place
    have hnone : c.place? table ≠ some c.tables.length := by simp [hold]
    split_ifs with htable
    · simp [htable]
    · simp [hnone, Ne.symm htable]
  · have hnone : c.place? table ≠ some i := by simp [hold, Nat.le_of_lt hgt]
    have hout : (c.tables ++ [e])[i]? = none := by
      rw [List.getElem?_eq_none_iff, List.length_append, List.length_singleton]
      omega
    split_ifs with htable
    · simp [hout, Nat.ne_of_lt hgt]
    · simp [hout, hnone]

theorem addRelation {r : Relation} (hleft : c.has r.left.table = true)
    (hright : c.has r.right.table = true) :
    Consistent { c with relations := c.relations ++ [r] } := by
  refine ⟨h.place?_eq_some_iff, fun r' hr' => ?_, fun r' hr' => ?_⟩
  · rcases List.mem_append.mp hr' with hr' | hr'
    · exact h.left_holds r' hr'
    · obtain rfl := List.mem_singleton.mp hr'
      exact h.has_iff.mp hleft
  · rcases List.mem_append.mp hr' with hr' | hr'
    · exact h.right_holds r' hr'
    · obtain rfl := List.mem_singleton.mp hr'
      exact h.has_iff.mp hright

/-- A call keeps places and tables in step, whether it succeeds or not. -/
theorem after (call : CatalogCall) : (c.after call).Consistent := by
  cases hanswer : c.answer call with
  | error e =>
    rw [after_of_error hanswer]
    exact h
  | ok _ =>
    cases call with
    | addTable e =>
      obtain ⟨hnew, hafter⟩ := after_addTable hanswer
      rw [hafter]
      exact h.addTable hnew
    | addRelation r =>
      obtain ⟨hleft, hright, hafter⟩ := after_addRelation hanswer
      rw [hafter]
      exact h.addRelation hleft hright

/-- Any calls do. -/
theorem foldl (calls : List CatalogCall) : (calls.foldl Catalog.after c).Consistent := by
  induction calls generalizing c with
  | nil => exact h
  | cons call calls ih => exact ih (h.after call)

end Consistent

/-! ### After any calls -/

/-- What each call that succeeds adds at the end is, after any calls, what those that succeeded have
added. -/
theorem read_foldl {α : Type} {read : Catalog → List α} {added? : CatalogCall → Option α}
    (h : ∀ c call, c.answer call = .ok () → read (c.after call) = read c ++ (added? call).toList)
    (c : Catalog) (calls : List CatalogCall) :
    read (calls.foldl after c) = read c ++ (c.accepted calls).filterMap added? := by
  induction calls generalizing c with
  | nil => exact (List.append_nil _).symm
  | cons call calls ih =>
    rw [List.foldl_cons, ih, accepted]
    cases hanswer : c.answer call with
    | error e => rw [after_of_error hanswer]
    | ok _ =>
      rw [h c call hanswer, List.append_assoc, List.filterMap_cons]
      cases added? call <;> rfl

theorem tables_foldl (c : Catalog) (calls : List CatalogCall) :
    (calls.foldl after c).tables = c.tables ++ (c.accepted calls).filterMap CatalogCall.entry? := by
  refine read_foldl (fun c call hanswer => ?_) c calls
  cases call with
  | addTable e => rw [(after_addTable hanswer).2, CatalogCall.entry?, Option.toList_some]
  | addRelation r => rw [(after_addRelation hanswer).2.2, CatalogCall.entry?, Option.toList_none,
      List.append_nil]

/-- After a call to add a table the table is there, be it from an earlier call. -/
theorem holds_after (h : c.Consistent) (call : CatalogCall) (table : TableRef) :
    (c.after call).Holds table ↔ c.Holds table ∨ Requested [call] table := by
  cases call with
  | addTable e =>
    have hrequested : Requested [.addTable e] table ↔ e.table = table := by simp [Requested]
    rw [hrequested]
    cases hanswer : c.answer (.addTable e) with
    | error err =>
      rw [after_of_error hanswer]
      rw [answer_addTable] at hanswer
      split_ifs at hanswer with hhas
      constructor
      · exact Or.inl
      · rintro (hholds | rfl)
        · exact hholds
        · exact h.has_iff.mp hhas
    | ok _ =>
      rw [(after_addTable hanswer).2]
      simp [Holds, or_and_right, exists_or]
  | addRelation r =>
    have hrequested : ¬Requested [.addRelation r] table := by simp [Requested]
    cases hanswer : c.answer (.addRelation r) with
    | error err => rw [after_of_error hanswer, or_iff_left hrequested]
    | ok _ =>
      rw [(after_addRelation hanswer).2.2, or_iff_left hrequested]
      rfl

theorem holds_foldl (h : c.Consistent) (calls : List CatalogCall) (table : TableRef) :
    (calls.foldl after c).Holds table ↔ c.Holds table ∨ Requested calls table := by
  induction calls generalizing c with
  | nil => simp [Requested]
  | cons call calls ih =>
    have hsplit : Requested (call :: calls) table ↔
        Requested [call] table ∨ Requested calls table := by
      simp [Requested, or_and_right, exists_or]
    rw [List.foldl_cons, ih (h.after call), holds_after h, hsplit, or_assoc]

theorem consistent_build (calls : List CatalogCall) : (build calls).Consistent :=
  Consistent.empty.foldl calls

/-- The tables of a catalog are those that there was a call to add. -/
theorem holds_build_iff {calls : List CatalogCall} {table : TableRef} :
    (build calls).Holds table ↔ Requested calls table := by
  have hempty : ¬empty.Holds table := by simp [Holds, empty]
  exact (holds_foldl .empty calls table).trans (or_iff_right hempty)

theorem mem_databases_iff {name : String} :
    name ∈ c.databases ↔ name ≠ "" ∧ ∃ e ∈ c.tables, e.table.database = name := by
  unfold databases
  rw [mem_foldr_insertName, List.mem_filterMap]
  constructor
  · rintro ⟨e, he, hname⟩
    unfold TableRef.database? at hname
    split_ifs at hname with hempty
    obtain rfl := Option.some.inj hname
    exact ⟨hempty, e, he, rfl⟩
  · rintro ⟨hname, e, he, rfl⟩
    exact ⟨e, he, if_neg hname⟩

/-- What a catalog that was made by calls answers to the next call, and what it shows. -/
structure Represents (calls : List CatalogCall) (c : Catalog) : Prop where
  /-- A table is refused exactly if one of its name was added before. -/
  addTable_fails_iff : ∀ e err, c.answer (.addTable e) = .error err ↔
    Requested calls e.table ∧ err = .duplicateTable e.table
  /-- A relation is refused exactly if one of its tables is missing; the left one is named first. -/
  addRelation_fails_iff : ∀ r err, c.answer (.addRelation r) = .error err ↔
    (¬c.Holds r.left.table ∧ err = .unknownTable r.left.table) ∨
      (c.Holds r.left.table ∧ ¬c.Holds r.right.table ∧ err = .unknownTable r.right.table)
  /-- A call that fails changes nothing. -/
  after_of_failure : ∀ call err, c.answer call = .error err → c.after call = c
  /-- The tables are those of the calls that succeeded, in order. -/
  tables_eq : c.tables = (empty.accepted calls).filterMap CatalogCall.entry?
  nodup_tables : (c.tables.map TableEntry.table).Nodup
  entry?_iff : ∀ table e, c.entry? table = some e ↔ e ∈ c.tables ∧ e.table = table
  table?_iff : ∀ database schema name e, c.table? database schema name = some e ↔
    e ∈ c.tables ∧ e.table = ⟨database, schema, name⟩
  relations_hold : ∀ r ∈ c.relations, c.Holds r.left.table ∧ c.Holds r.right.table
  databases_increasing : c.databases.Pairwise (· < ·)
  mem_databases : ∀ name,
    name ∈ c.databases ↔ name ≠ "" ∧ ∃ e ∈ c.tables, e.table.database = name

/-- **A catalog shows what was added**: after any calls, of which any may have failed, the tables are
those that were added, each under its own name, and the relations are between them. -/
theorem build_represents_calls (calls : List CatalogCall) : Represents calls (build calls) where
  addTable_fails_iff := by
    intro e err
    rw [answer_addTable, ← holds_build_iff, ← (consistent_build calls).has_iff]
    split_ifs with h
    · rw [Except.error.injEq, eq_comm]
      simp [h]
    · simp [h]
  addRelation_fails_iff := by
    intro r err
    have hholds : ∀ table, (build calls).Holds table ↔ (build calls).has table = true :=
      fun _ => (consistent_build calls).has_iff.symm
    rw [answer_addRelation, hholds, hholds]
    split_ifs with hleft hright
    · simp [hleft, hright]
    · rw [Except.error.injEq, eq_comm]
      simp [hleft, hright]
    · rw [Except.error.injEq, eq_comm]
      simp [hleft]
  after_of_failure _ _ := after_of_error
  tables_eq := tables_foldl empty calls
  nodup_tables := (consistent_build calls).nodup
  entry?_iff _ _ := (consistent_build calls).entry?_eq_some_iff
  table?_iff _ _ _ _ := (consistent_build calls).entry?_eq_some_iff
  relations_hold r hr :=
    ⟨(consistent_build calls).left_holds r hr, (consistent_build calls).right_holds r hr⟩
  databases_increasing := pairwise_foldr_insertName _
  mem_databases _ := mem_databases_iff

end Catalog

end Keyset
