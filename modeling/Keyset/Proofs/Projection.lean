import Keyset.Projection
import Keyset.Proofs.Cursor.Lookup
import Keyset.Proofs.Fields
import Keyset.Proofs.Text.Cutting

/-!
# What projections keep

Whether the result of a projection has an identifier depends on the projection only, and it is then that
of the document (`exists_keepsId`).  What a path leads to in the JSON form of the result is what it
leads to in that of the document, unless the projection copies into the first name of the path
(`lookup?_of_apply`).
-/

namespace Keyset

/-! ### The names of a path -/

theorem Text.notMem_of_mem_splitOn {sep : Char} {s part : List Char} (h : part ∈ splitOn sep s) :
    sep ∉ part := by
  induction s generalizing part with
  | nil =>
    rw [splitOn, List.mem_singleton] at h
    rw [h]
    exact List.not_mem_nil
  | cons c s ih =>
    rw [splitOn] at h
    split_ifs at h with hc
    · rcases List.mem_cons.mp h with rfl | h
      · exact List.not_mem_nil
      · exact ih h
    · cases hsplit : splitOn sep s with
      | nil => exact absurd hsplit (splitOn_ne_nil sep s)
      | cons first rest =>
        rw [hsplit] at h ih
        rcases List.mem_cons.mp h with rfl | h
        · have hfirst := ih List.mem_cons_self
          exact fun hmem => (List.mem_cons.mp hmem).elim (fun heq => hc heq.symm) hfirst
        · exact ih (List.mem_cons_of_mem _ h)

/-- The names of a path are paths with one name. -/
theorem pathNames_of_mem {path name : String} (h : name ∈ pathNames path) :
    pathNames name = [name] := by
  obtain ⟨part, hpart, rfl⟩ := List.mem_map.mp h
  unfold pathNames
  rw [String.toList_ofList, Text.splitOn_of_notMem (Text.notMem_of_mem_splitOn hpart)]
  rfl

namespace Projection

variable {spec doc : Document} {name : String} {v : Value}

/-! ### Single fields -/

/-- A result of a projection that leaves fields out has the fields that no entry switches off. -/
theorem get?_exclusion (spec doc : Document) (name : String) :
    (exclusion spec doc).get? name =
      if spec.all fun entry => entry.1 != name || entry.2.truthy then doc.get? name else none := by
  unfold exclusion
  -- the entries erase fields one after the other
  induction spec generalizing doc with
  | nil => rfl
  | cons entry spec ih =>
    obtain ⟨key, value⟩ := entry
    rw [List.foldl_cons, ih, List.all_cons]
    dsimp only
    cases htruthy : value.truthy with
    | true => rw [if_pos rfl, Bool.or_true, Bool.true_and]
    | false =>
      rw [if_neg Bool.false_ne_true, Fields.get?_erase, Bool.or_false]
      by_cases hkey : key = name
      · rw [if_pos hkey, bne_eq_false_iff_eq.mpr hkey, Bool.false_and, ite_self]
        rfl
      · rw [if_neg hkey, bne_iff_ne.mpr hkey, Bool.true_and]

/-- A result with what one entry of a projection adds. -/
def add (doc out : Document) (entry : String × Value) : Document :=
  if entry.1 = idField then out
  else
    match included? doc entry.1 entry.2 with
    | some value => Fields.put out entry.1 value
    | none => out

theorem get?_add (doc out : Document) (entry : String × Value) (name : String) :
    (add doc out entry).get? name =
      if entry.1 = name ∧ name ≠ idField then
        (included? doc entry.1 entry.2).or (out.get? name)
      else out.get? name := by
  unfold add
  by_cases hid : entry.1 = idField
  · rw [if_pos hid, if_neg]
    rintro ⟨rfl, hne⟩
    exact hne hid
  · rw [if_neg hid]
    cases included? doc entry.1 entry.2 with
    | none => simp
    | some value =>
      rw [Fields.get?_put]
      by_cases hname : entry.1 = name
      · rw [if_pos hname, if_pos ⟨hname, hname ▸ hid⟩]
        rfl
      · rw [if_neg hname, if_neg fun h => hname h.1]

theorem get?_foldl_add_id (spec doc out : Document) :
    (spec.foldl (add doc) out).get? idField = out.get? idField := by
  induction spec generalizing out with
  | nil => rfl
  | cons entry spec ih =>
    rw [List.foldl_cons, ih, get?_add, if_neg fun h => h.2 rfl]

/-- A field of a result was there before or is added by an entry of its name. -/
theorem get?_foldl_add {out : Document} (h : (spec.foldl (add doc) out).get? name = some v) :
    out.get? name = some v ∨ ∃ entry ∈ spec, entry.1 = name ∧
      included? doc name entry.2 = some v := by
  -- the last entry that adds the field decides, so the result so far is kept general
  induction spec generalizing out with
  | nil => exact .inl h
  | cons entry spec ih =>
    rcases ih h with hout | ⟨entry', hmem, hentry'⟩
    · rw [get?_add] at hout
      split_ifs at hout with hname
      · obtain ⟨rfl, -⟩ := hname
        rcases Option.or_eq_some_iff.mp hout with hincluded | ⟨-, hout⟩
        · exact .inr ⟨entry, List.mem_cons_self, rfl, hincluded⟩
        · exact .inl hout
      · exact .inl hout
    · exact .inr ⟨entry', List.mem_cons_of_mem _ hmem, hentry'⟩

/-- The identifier that a result of a projection that names fields starts with. -/
def startId (spec doc : Document) : Document :=
  match doc.get? idField with
  | some id => if (spec.get? idField).all Value.truthy then [(idField, id)] else []
  | none => []

theorem inclusion_eq (spec doc : Document) :
    inclusion spec doc = spec.foldl (add doc) (startId spec doc) := rfl

theorem get?_startId (spec doc : Document) (name : String) :
    (startId spec doc).get? name =
      if name = idField ∧ (spec.get? idField).all Value.truthy then doc.get? idField else none := by
  unfold startId
  cases hid : doc.get? idField with
  | none => simp [Fields.get?]
  | some id =>
    cases (spec.get? idField).all Value.truthy with
    | false => simp [Fields.get?]
    | true =>
      by_cases hname : name = idField
      · simp [Fields.get?, hname]
      · have hne : idField ≠ name := fun h => hname h.symm
        simp [Fields.get?, hname, hne]

/-- A projection keeps the identifiers of all documents or of none. -/
theorem exists_keepsId (spec : Document) :
    ∃ keeps : Bool, ∀ doc, (apply spec doc).get? idField =
      if keeps then doc.get? idField else none := by
  unfold apply
  cases isInclusion spec with
  | true =>
    refine ⟨(spec.get? idField).all Value.truthy, fun doc => ?_⟩
    rw [if_pos rfl, inclusion_eq, get?_foldl_add_id, get?_startId]
    simp
  | false =>
    refine ⟨spec.all fun entry => entry.1 != idField || entry.2.truthy, fun doc => ?_⟩
    rw [if_neg Bool.false_ne_true]
    exact get?_exclusion spec doc idField

/-! ### Paths -/

/-- Whether a projection copies into the field that a path starts with. -/
def copiesInto (spec : Document) (path : String) : Bool :=
  spec.any fun entry => (pathNames path).head? == some entry.1 && (source? entry.2).isSome

/-- A field of a result is that of the document, unless it is copied from elsewhere. -/
theorem get?_of_apply (hname : pathNames name = [name])
    (hcopies : ∀ entry ∈ spec, entry.1 = name → source? entry.2 = none)
    (h : (apply spec doc).get? name = some v) : doc.get? name = some v := by
  unfold apply at h
  cases hinclusion : isInclusion spec with
  | false =>
    rw [hinclusion, if_neg Bool.false_ne_true, get?_exclusion] at h
    split_ifs at h
    exact h
  | true =>
    rw [hinclusion, if_pos rfl, inclusion_eq] at h
    rcases get?_foldl_add h with hstart | ⟨entry, hmem, hentry, hincluded⟩
    · rw [get?_startId] at hstart
      split_ifs at hstart with hid
      rw [hid.1]
      exact hstart
    · rw [included?, hcopies entry hmem hentry] at hincluded
      dsimp only at hincluded
      split_ifs at hincluded
      rw [Document.at?, hname] at hincluded
      exact hincluded

/-- What a path leads to in a result, it leads to in the document. -/
theorem lookup?_of_apply {path : String} {w : Json} (hcopies : copiesInto spec path = false)
    (h : Cursor.lookup? (apply spec doc).toJson path = some w) :
    Cursor.lookup? doc.toJson path = some w := by
  unfold Cursor.lookup? at h ⊢
  have hnames : pathNames path = (Text.splitOn '.' path.toList).map String.ofList := rfl
  rw [← hnames] at h ⊢
  cases hpath : pathNames path with
  | nil =>
    have hne : pathNames path ≠ [] := by
      unfold pathNames
      simp [Text.splitOn_ne_nil]
    exact absurd hpath hne
  | cons first rest =>
    rw [hpath, List.foldlM_cons, Document.get?_toJson] at h
    rw [List.foldlM_cons, Document.get?_toJson]
    cases hfirst : Fields.get? (apply spec doc) first with
    | none =>
      rw [hfirst] at h
      cases h
    | some v =>
      -- below its first name a path is followed in the same value
      have hdoc : Fields.get? doc first = some v := by
        refine get?_of_apply (pathNames_of_mem (by rw [hpath]; exact List.mem_cons_self)) ?_ hfirst
        intro entry hentry hname
        have hcopied := List.any_eq_false.mp hcopies entry hentry
        rw [hpath, hname] at hcopied
        simpa using hcopied
      rw [hfirst] at h
      rw [hdoc]
      exact h

end Projection

end Keyset
