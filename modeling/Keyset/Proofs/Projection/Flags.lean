import Keyset.Proofs.Projection

/-!
# Projections that flag names

A projection that flags names with one keeps the fields of these names and the identifier, and one that
flags them with zero leaves these fields out (`apply_flags`).  The first is so unless the identifier is
all that is flagged: whether a projection keeps or leaves out is decided by its other names, so that one
without others leaves out what it switches off, which is nothing (`apply_flags_id`).
-/

namespace Keyset.Projection

variable {doc spec : Document} {names : List String} {flag : Value}

/-- The projection that gives each name the same flag. -/
def flags (flag : Value) (names : List String) : Document :=
  names.map fun name => (name, flag)

/-- Whether a document has just those fields of another whose names are kept, with their values. -/
structure Keeps (kept : String → Prop) (doc out : Document) : Prop where
  nodup : out.names.Nodup
  mem_iff : ∀ name v, (name, v) ∈ out ↔ (name, v) ∈ doc ∧ kept name

theorem keeps_of_get? {kept : String → Prop} [DecidablePred kept] {out : Document}
    (hdoc : doc.names.Nodup) (hout : out.names.Nodup)
    (h : ∀ name, Fields.get? out name = if kept name then Fields.get? doc name else none) :
    Keeps kept doc out where
  nodup := hout
  mem_iff name v := by
    rw [← Fields.get?_eq_some_iff hout, ← Fields.get?_eq_some_iff hdoc, h]
    split_ifs with hkept
    · simp [hkept]
    · simp [hkept]

/-! ### Results are documents -/

theorem nodup_names_add {out : Document} (h : out.names.Nodup) (doc : Document)
    (entry : String × Value) : (add doc out entry).names.Nodup := by
  unfold add
  split_ifs
  · exact h
  · split
    · exact Fields.nodup_names_put h _ _
    · exact h

theorem nodup_names_startId (spec doc : Document) : (startId spec doc).names.Nodup := by
  unfold startId
  split
  · split_ifs
    · exact List.nodup_cons.mpr ⟨List.not_mem_nil, List.nodup_nil⟩
    · exact List.nodup_nil
  · exact List.nodup_nil

theorem nodup_names_inclusion (spec doc : Document) : (inclusion spec doc).names.Nodup := by
  -- putting keeps names distinct, whatever fields are there
  suffices hfold : ∀ out : Document, out.names.Nodup →
      (Fields.names (spec.foldl (add doc) out)).Nodup from
    hfold _ (nodup_names_startId spec doc)
  induction spec with
  | nil => exact fun _ hout => hout
  | cons entry spec ih => exact fun out hout => ih _ (nodup_names_add hout doc entry)

theorem nodup_names_exclusion (h : doc.names.Nodup) (spec : Document) :
    (exclusion spec doc).names.Nodup := by
  unfold exclusion
  induction spec generalizing doc with
  | nil => exact h
  | cons entry spec ih =>
    rw [List.foldl_cons]
    dsimp only
    split_ifs
    · exact ih h
    · exact ih (Fields.nodup_names_erase h _)

/-! ### Flags -/

/-- A number switches on unless it is zero, and copies nothing. -/
theorem truthy_of_number {x : Double} (h : flag.toDouble? = some x) :
    flag.truthy = !x.isZero ∧ source? flag = none := by
  cases flag with
  | int32 n => exact ⟨by rw [Value.truthy, h, Option.all_some] <;> nofun, rfl⟩
  | int64 n => exact ⟨by rw [Value.truthy, h, Option.all_some] <;> nofun, rfl⟩
  | double y => exact ⟨by rw [Value.truthy, h, Option.all_some] <;> nofun, rfl⟩
  | _ => cases h

theorem isInclusion_flags (hsource : source? flag = none) (names : List String) :
    isInclusion (flags flag names) = (flag.truthy && names.any (· != idField)) := by
  unfold isInclusion flags
  rw [List.any_map]
  induction names with
  | nil => exact (Bool.and_false _).symm
  | cons name names ih =>
    rw [List.any_cons, List.any_cons, ih, Bool.and_or_distrib_left]
    simp [hsource, Bool.and_comm]

/-- A name without points that is switched on is that of a field of the document. -/
theorem included?_of_truthy (htruthy : flag.truthy = true) (hsource : source? flag = none)
    {name : String} (hname : '.' ∉ name.toList) (doc : Document) :
    included? doc name flag = Fields.get? doc name := by
  have hpath : pathNames name = [name] := by
    unfold pathNames
    rw [Text.splitOn_of_notMem hname, List.map_singleton, String.ofList_toList]
  rw [included?, hsource]
  dsimp only
  rw [if_pos htruthy, Document.at?, hpath, Document.follow?]

theorem get?_foldl_add_flags (htruthy : flag.truthy = true) (hsource : source? flag = none)
    (hnames : ∀ name ∈ names, '.' ∉ name.toList) (doc out : Document) {name : String}
    (hname : name ≠ idField) :
    Fields.get? ((flags flag names).foldl (add doc) out) name =
      if name ∈ names then (Fields.get? doc name).or (Fields.get? out name)
      else Fields.get? out name := by
  induction names generalizing out with
  | nil => rfl
  | cons first names ih =>
    rw [List.forall_mem_cons] at hnames
    show Fields.get? ((flags flag names).foldl (add doc) (add doc out (first, flag))) name = _
    rw [ih hnames.2, get?_add]
    dsimp only
    rw [included?_of_truthy htruthy hsource hnames.1]
    by_cases hfirst : first = name
    · subst hfirst
      simp only [hname, ne_eq, not_false_eq_true, and_self, if_true, List.mem_cons_self]
      -- the same value again, if the name comes twice
      split_ifs
      · cases Fields.get? doc first <;> rfl
      · rfl
    · have hmem : name ∈ first :: names ↔ name ∈ names := by
        rw [List.mem_cons, or_iff_right fun h => hfirst h.symm]
      simp only [hfirst, false_and, if_false, hmem]

/-- What is switched on is kept, and so is the identifier, if anything else is switched on. -/
theorem keeps_inclusion (hdoc : doc.names.Nodup) (htruthy : flag.truthy = true)
    (hsource : source? flag = none) (hnames : ∀ name ∈ names, '.' ∉ name.toList) :
    Keeps (fun name => name ∈ names ∨ name = idField) doc (inclusion (flags flag names) doc) := by
  refine keeps_of_get? hdoc (nodup_names_inclusion _ _) fun name => ?_
  have hid : ((flags flag names).get? idField).all Value.truthy = true := by
    cases hflag : (flags flag names).get? idField with
    | none => rfl
    | some v =>
      obtain ⟨_, -, heq⟩ := List.mem_map.mp (Fields.mem_of_get? hflag)
      obtain ⟨-, rfl⟩ := Prod.mk.inj heq
      exact htruthy
  rw [inclusion_eq]
  by_cases hname : name = idField
  · rw [hname, get?_foldl_add_id, get?_startId, if_pos ⟨rfl, hid⟩, if_pos (.inr rfl)]
  · have hstart : Fields.get? (startId (flags flag names) doc) name = none := by
      rw [get?_startId, if_neg fun h => hname h.1]
    rw [get?_foldl_add_flags htruthy hsource hnames doc _ hname, hstart, Option.or_none]
    simp only [hname, or_false]

/-- What is switched off is left out. -/
theorem keeps_exclusion (hdoc : doc.names.Nodup) (htruthy : flag.truthy = false)
    (names : List String) : Keeps (· ∉ names) doc (exclusion (flags flag names) doc) := by
  refine keeps_of_get? hdoc (nodup_names_exclusion hdoc _) fun name => ?_
  have hall : ((flags flag names).all fun entry => entry.1 != name || entry.2.truthy) = true ↔
      name ∉ names := by
    unfold flags
    rw [List.all_eq_true, List.forall_mem_map]
    simp only [htruthy, Bool.or_false, bne_iff_ne]
    exact ⟨fun h hmem => h name hmem rfl, fun h other hmem heq => h (heq ▸ hmem)⟩
  rw [get?_exclusion]
  simp only [hall]

/-- A projection that switches nothing off leaves nothing out. -/
theorem exclusion_of_truthy (htruthy : flag.truthy = true) (names : List String) (doc : Document) :
    exclusion (flags flag names) doc = doc := by
  unfold exclusion flags
  induction names with
  | nil => rfl
  | cons name names ih =>
    rw [List.map_cons, List.foldl_cons]
    dsimp only
    rw [if_pos htruthy]
    exact ih

/-- Where something besides the identifier is switched on, what is switched on is kept. -/
theorem keeps_flags_of_other (hdoc : doc.names.Nodup) (htruthy : flag.truthy = true)
    (hsource : source? flag = none) (hnames : ∀ name ∈ names, '.' ∉ name.toList)
    (h : ∃ name ∈ names, name ≠ idField) :
    Keeps (fun name => name ∈ names ∨ name = idField) doc (apply (flags flag names) doc) := by
  have hmode : isInclusion (flags flag names) = true := by
    rw [isInclusion_flags hsource, htruthy, Bool.true_and, List.any_eq_true]
    simpa using h
  rw [apply, hmode, if_pos rfl]
  exact keeps_inclusion hdoc htruthy hsource hnames

/-- Where nothing but the identifier is switched on, everything is kept. -/
theorem apply_flags_id (htruthy : flag.truthy = true) (hsource : source? flag = none)
    (h : ∀ name ∈ names, name = idField) (doc : Document) : apply (flags flag names) doc = doc := by
  have hmode : isInclusion (flags flag names) = false := by
    rw [isInclusion_flags hsource, Bool.and_eq_false_iff, List.any_eq_false]
    exact .inr fun name hname => by simp [h name hname]
  rw [apply, hmode, if_neg Bool.false_ne_true, exclusion_of_truthy htruthy]

/-- **A projection that flags names keeps what they name, or leaves it out.**  Let names without points
be flagged with a number.  If the number is one, the result holds the fields of these names and the
identifier, exactly when some name is not that of the identifier or the document has no other fields;
otherwise it is the whole document.  If the number is zero, the result holds all other fields. -/
theorem apply_flags (doc : Fields.Distinct Value) (hnames : ∀ name ∈ names, '.' ∉ name.toList)
    {one zero : Value} (hone : one.toDouble? = some (.ofInt 1))
    (hzero : zero.toDouble? = some (.ofInt 0)) :
    (Keeps (fun name => name ∈ names ∨ name = idField) doc.fields
          (apply (flags one names) doc.fields) ↔
        (∃ name ∈ names, name ≠ idField) ∨ ∀ name ∈ doc.fields.names, name = idField) ∧
      ((∀ name ∈ names, name = idField) → apply (flags one names) doc.fields = doc.fields) ∧
      Keeps (· ∉ names) doc.fields (apply (flags zero names) doc.fields) := by
  obtain ⟨doc, hdoc⟩ := doc
  obtain ⟨hon, honSource⟩ := truthy_of_number hone
  obtain ⟨hoff, hoffSource⟩ := truthy_of_number hzero
  have hon : one.truthy = true := by
    rw [hon]
    decide +kernel
  have hoff : zero.truthy = false := by
    rw [hoff]
    decide +kernel
  refine ⟨?_, fun hids => apply_flags_id hon honSource hids doc, ?_⟩
  · by_cases hother : ∃ name ∈ names, name ≠ idField
    · exact iff_of_true (keeps_flags_of_other hdoc hon honSource hnames hother) (.inl hother)
    · -- the result is the document, of which a field that is not named may be left
      have hids : ∀ name ∈ names, name = idField := by simpa using hother
      rw [apply_flags_id hon honSource hids, or_iff_right hother]
      constructor
      · intro hkeeps name hname
        obtain ⟨f, hf, rfl⟩ := List.mem_map.mp hname
        rcases ((hkeeps.mem_iff f.1 f.2).mp hf).2 with hmem | hid
        · exact hids _ hmem
        · exact hid
      · intro honly
        refine ⟨hdoc, fun name v => ⟨fun hf => ⟨hf, .inr ?_⟩, And.left⟩⟩
        exact honly name (Fields.mem_names hf)
  · have hmode : isInclusion (flags zero names) = false := by
      rw [isInclusion_flags hoffSource, hoff, Bool.false_and]
    rw [apply, hmode, if_neg Bool.false_ne_true]
    exact keeps_exclusion hdoc hoff names

/-- A person with a name and an age. -/
def person : Fields.Distinct Value :=
  ⟨[("_id", .int32 1), ("name", .string "Ann"), ("age", .int32 30)], by decide⟩

theorem apply_flags_person :
    (∀ name ∈ ["age", "_id"], '.' ∉ name.toList) ∧
      ((Value.int32 1).toDouble? = some (.ofInt 1) ∧ (Value.int64 0).toDouble? = some (.ofInt 0)) ∧
      Keeps (fun name => name ∈ ["age", "_id"] ∨ name = idField) person.fields
        (apply (flags (.int32 1) ["age", "_id"]) person.fields) ∧
      Keeps (· ∉ ["age", "_id"]) person.fields
        (apply (flags (.int64 0) ["age", "_id"]) person.fields) := by
  have hnames : ∀ name ∈ ["age", "_id"], '.' ∉ name.toList := by decide
  have hone : (Value.int32 1).toDouble? = some (.ofInt 1) := rfl
  have hzero : (Value.int64 0).toDouble? = some (.ofInt 0) := rfl
  obtain ⟨hkeeps, -, hleaves⟩ := apply_flags person hnames hone hzero
  exact ⟨hnames, ⟨hone, hzero⟩, hkeeps.mpr (.inl ⟨"age", by decide, by decide⟩), hleaves⟩

/-- Where only the identifier is flagged with one, a name is kept that is not flagged. -/
theorem not_keeps_flagged_id :
    apply (flags (.int32 1) ["_id"]) person.fields = person.fields ∧
      ¬Keeps (fun name => name ∈ ["_id"] ∨ name = idField) person.fields
        (apply (flags (.int32 1) ["_id"]) person.fields) := by
  have hwhole : apply (flags (.int32 1) ["_id"]) person.fields = person.fields :=
    apply_flags_id (by decide +kernel) rfl (by decide) person.fields
  refine ⟨hwhole, fun hkeeps => ?_⟩
  rw [hwhole] at hkeeps
  have hname := ((hkeeps.mem_iff "name" (.string "Ann")).mp (by simp [person])).2
  revert hname
  decide

end Keyset.Projection
