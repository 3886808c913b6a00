/-!
# Fields

An object or a document is a list of named fields in the order in which they were added.  A name
occurs once: putting a field that is there keeps its place and replaces its value.  Every operation
here keeps names distinct (`nodup_names_put`, `nodup_names_erase`), and `Distinct` are the fields of
which that is known.
-/

namespace Keyset

/-- Named values in the order in which they were added. -/
abbrev Fields (α : Type) := List (String × α)

namespace Fields

variable {α : Type}

/-- The names, in order. -/
def names (fs : Fields α) : List String :=
  fs.map Prod.fst

/-- The value of a field. -/
def get? : Fields α → String → Option α
  | [], _ => none
  | (k, v) :: fs, name => if k = name then some v else get? fs name

/-- Whether there is a field of a name. -/
def has (fs : Fields α) (name : String) : Bool :=
  (fs.get? name).isSome

/-- Sets a field: in its place if the name is there, else at the end. -/
def put : Fields α → String → α → Fields α
  | [], name, value => [(name, value)]
  | (k, v) :: fs, name, value => if k = name then (k, value) :: fs else (k, v) :: put fs name value

/-- Removes a field and keeps the others in order. -/
def erase (fs : Fields α) (name : String) : Fields α :=
  fs.filter fun f => f.1 ≠ name

/-- The fields of a list of pairs, in which a later value of a name replaces an earlier one. -/
def ofPairs (pairs : List (String × α)) : Fields α :=
  pairs.foldl (fun fs (k, v) => put fs k v) []

theorem get?_put (fs : Fields α) (name other : String) (value : α) :
    (fs.put name value).get? other = if name = other then some value else fs.get? other := by
  induction fs with
  | nil => simp [put, get?]
  | cons f fs ih =>
    obtain ⟨k, v⟩ := f
    by_cases hk : k = name
    · subst hk
      by_cases ho : k = other <;> simp [put, get?, ho]
    · by_cases ho : k = other
      · subst ho
        have : name ≠ k := fun h => hk h.symm
        simp [put, get?, hk, this]
      · simp [put, get?, hk, ho, ih]

theorem mem_names_put (fs : Fields α) (name other : String) (value : α) :
    other ∈ (fs.put name value).names ↔ other = name ∨ other ∈ fs.names := by
  induction fs with
  | nil => simp [put, names]
  | cons f fs ih =>
    obtain ⟨k, v⟩ := f
    by_cases hk : k = name
    · subst hk
      simp [put, names]
    · simp only [put, hk, if_false]
      simp only [names, List.map_cons, List.mem_cons] at ih ⊢
      grind

theorem nodup_names_put {fs : Fields α} (h : fs.names.Nodup) (name : String) (value : α) :
    (fs.put name value).names.Nodup := by
  induction fs with
  | nil => simp [put, names]
  | cons f fs ih =>
    obtain ⟨k, v⟩ := f
    simp only [names, List.map_cons, List.nodup_cons] at h
    by_cases hk : k = name
    · subst hk
      simpa [put, names] using h
    · have hmem := mem_names_put fs name k value
      simp only [put, hk, if_false]
      simp only [names, List.map_cons, List.nodup_cons] at hmem ⊢
      exact ⟨fun hm => (hmem.1 hm).elim hk h.1, ih h.2⟩

theorem nodup_names_erase {fs : Fields α} (h : fs.names.Nodup) (name : String) :
    (fs.erase name).names.Nodup :=
  h.sublist (List.Sublist.map _ List.filter_sublist)

/-- Fields with distinct names, as those of all objects and documents are that are read. -/
structure Distinct (α : Type) where
  fields : Fields α
  nodup : fields.names.Nodup

theorem Distinct.nodup_of_mem {all : List (Distinct α)} {fs : Fields α}
    (h : fs ∈ all.map Distinct.fields) : fs.names.Nodup := by
  obtain ⟨d, -, rfl⟩ := List.mem_map.mp h
  exact d.nodup

end Fields

end Keyset
