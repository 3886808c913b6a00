import Keyset.Columns
import Keyset.Proofs.Fields
import Keyset.Proofs.FirstPlaces

/-!
# Summaries of fields

Both the summaries of fields and the classes in a summary are tables that are kept in the order of
first places.  A summary is thus a function of the values that its field has (`FieldSummary.of`), and
documents are summarized name by name (`summarize_eq`): there is no need to follow the documents again.
-/

namespace Keyset.Columns

open FirstPlaces (foldl_record record recorded recorded_append recorded_of_notMem)

/-! ### Classes and how many values they have -/

/-- The classes of some values, each once and with how many of the values have it. -/
def classCounts (classes : List TypeClass) : List (TypeClass × Nat) :=
  classes.eraseDups.map fun c => (c, classes.count c)

/-- A class with one more value. -/
def increment (e : TypeClass × Nat) (_ : Unit) : TypeClass × Nat :=
  (e.1, e.2 + 1)

theorem tally_eq_record (c : TypeClass) (counts : List (TypeClass × Nat)) :
    tally c counts = record Prod.fst (fun d => (d, 0)) increment c () counts := by
  induction counts with
  | nil => rfl
  | cons e rest ih => rw [tally, record, ih, increment]

theorem foldl_increment (units : List Unit) (e : TypeClass × Nat) :
    units.foldl increment e = (e.1, e.2 + units.length) := by
  induction units generalizing e with
  | nil => rfl
  | cons _ units ih =>
    rw [List.foldl_cons, ih, increment, List.length_cons, Nat.add_right_comm, Nat.add_assoc]

/-- Values are tallied class by class. -/
theorem foldl_tally (classes : List TypeClass) :
    classes.foldl (fun counts c => tally c counts) [] = classCounts classes := by
  have hcount : ∀ c, (recorded c (classes.map fun d => (d, ()))).length = classes.count c := by
    intro c
    rw [recorded, List.length_map, List.filter_map, List.length_map, List.count,
      List.countP_eq_length_filter]
    rfl
  calc classes.foldl (fun counts c => tally c counts) []
      = (classes.map fun c => (c, ())).foldl
          (fun counts r => record Prod.fst (fun d => (d, 0)) increment r.1 r.2 counts) [] := by
        rw [List.foldl_map]
        simp only [tally_eq_record]
    _ = ((classes.map fun c => (c, ())).map Prod.fst).eraseDups.map
          fun c => (recorded c (classes.map fun d => (d, ()))).foldl increment (c, 0) := by
        refine foldl_record ?_ ?_ _
        · exact fun _ => rfl
        · exact fun _ _ => rfl
    _ = classCounts classes := by
        simp only [foldl_increment, hcount, Nat.zero_add, List.map_map, Function.comp_def,
          List.map_id', classCounts]

theorem classCounts_concat (classes : List TypeClass) (c : TypeClass) :
    classCounts (classes ++ [c]) = tally c (classCounts classes) := by
  rw [← foldl_tally, List.foldl_append, foldl_tally]
  rfl

/-! ### The summary of a field -/

theorem name_observe (s : FieldSummary) (v : Value) : (s.observe v).name = s.name := by
  unfold FieldSummary.observe
  split <;> rfl

/-- The summary of a field that has some values. -/
def FieldSummary.of (name : String) (values : List Value) : FieldSummary where
  name
  seen := values.length
  nulls := values.countP (·.typeClass? = none)
  hasArray := values.any (·.typeClass? = some .array)
  classes := classCounts (values.filterMap Value.typeClass?)

/-- One more value leads from the summary of the values so far to that of all. -/
theorem FieldSummary.of_concat (name : String) (values : List Value) (v : Value) :
    of name (values ++ [v]) = (of name values).observe v := by
  unfold FieldSummary.observe
  cases hv : v.typeClass? with
  | none => simp [of, hv]
  | some c => simp [of, hv, classCounts_concat]

theorem foldl_observe (name : String) (values : List Value) :
    values.foldl FieldSummary.observe (.new name) = .of name values := by
  induction values using List.reverseRecOn with
  | nil => rfl
  | append_singleton values v ih =>
    rw [List.foldl_append, ih, FieldSummary.of_concat]
    rfl

/-! ### The summaries of documents -/

theorem observeField_eq_record (name : String) (v : Value) (summaries : List FieldSummary) :
    observeField name v summaries =
      record FieldSummary.name .new FieldSummary.observe name v summaries := by
  induction summaries with
  | nil => rfl
  | cons s rest ih => rw [observeField, record, ih]

/-- **Documents are summarized name by name**, in the order in which the names came up. -/
theorem summarize_eq (docs : List Document) :
    summarize docs = (docs.flatMap Fields.names).eraseDups.map fun name =>
      .of name (recorded name docs.flatten) := by
  have hnames : docs.flatten.map Prod.fst = docs.flatMap Fields.names := List.map_flatten
  calc summarize docs
      = docs.flatten.foldl
          (fun table f => record FieldSummary.name .new FieldSummary.observe f.1 f.2 table) [] := by
        rw [List.foldl_flatten, summarize]
        simp only [← observeField_eq_record]
        rfl
    _ = (docs.flatten.map Prod.fst).eraseDups.map fun name =>
          (recorded name docs.flatten).foldl FieldSummary.observe (.new name) :=
        foldl_record (fun _ => rfl) name_observe _
    _ = (docs.flatMap Fields.names).eraseDups.map fun name =>
          .of name (recorded name docs.flatten) := by
        simp only [foldl_observe, hnames]

/-! ### The values of a field -/

/-- What documents have under a name, document by document. -/
def valuesOf (name : String) (docs : List Document) : List Value :=
  docs.filterMap (Fields.get? · name)

theorem recorded_of_nodup {doc : Document} (h : doc.names.Nodup) (name : String) :
    recorded name doc = (doc.get? name).toList := by
  induction doc with
  | nil => rfl
  | cons f doc ih =>
    obtain ⟨k, v⟩ := f
    obtain ⟨hk, hdoc⟩ := List.nodup_cons.mp h
    have hcons : recorded name ((k, v) :: doc) =
        (if k = name then [v] else []) ++ recorded name doc := by
      by_cases hname : k = name <;> simp [recorded, hname]
    rw [hcons, Fields.get?]
    by_cases hname : k = name
    · subst hname
      rw [if_pos rfl, if_pos rfl, recorded_of_notMem hk]
      rfl
    · rw [if_neg hname, if_neg hname, ih hdoc]
      rfl

/-- Documents whose names are distinct have one value each under a name, at most. -/
theorem recorded_flatten {docs : List Document} (h : ∀ doc ∈ docs, doc.names.Nodup) (name : String) :
    recorded name docs.flatten = valuesOf name docs := by
  induction docs with
  | nil => rfl
  | cons doc docs ih =>
    obtain ⟨hdoc, hdocs⟩ := List.forall_mem_cons.mp h
    rw [List.flatten_cons, recorded_append, recorded_of_nodup hdoc, ih hdocs, valuesOf, valuesOf,
      List.filterMap_cons]
    cases doc.get? name <;> rfl

end Keyset.Columns
