import Keyset.Fields
import Mathlib.Data.List.Perm.Basic
import Mathlib.Tactic.SplitIfs

/-!
# Looking up fields

A field is looked up in what was appended or erased (`get?_append`, `get?_erase`); where names are
distinct it is found just if it is there (`get?_eq_some_iff`), and putting it replaces the one of its
name (`perm_put`).  Pairs that were put one after another are fields with distinct names
(`nodup_names_ofPairs`), each of them one of the pairs (`mem_of_mem_ofPairs`), and all of them if their
names are distinct (`ofPairs_of_nodup`).
-/

namespace Keyset.Fields

variable {α : Type}

/-! ### Looking up -/

theorem mem_names {f : String × α} {fs : Fields α} (h : f ∈ fs) : f.1 ∈ fs.names :=
  List.mem_map_of_mem h

theorem mem_of_get? {fs : Fields α} {name : String} {v : α} (h : fs.get? name = some v) :
    (name, v) ∈ fs := by
  induction fs with
  | nil => cases h
  | cons f fs ih =>
    obtain ⟨k, w⟩ := f
    rw [get?] at h
    split_ifs at h with hk
    · cases h
      rw [hk]
      exact List.mem_cons_self
    · exact List.mem_cons_of_mem _ (ih h)

theorem get?_of_notMem {fs : Fields α} {name : String} (h : name ∉ fs.names) :
    fs.get? name = none := by
  rw [Option.eq_none_iff_forall_ne_some]
  exact fun v hv => h (mem_names (mem_of_get? hv))

/-- Where names are distinct, each field is the one of its name. -/
theorem get?_eq_some_iff {fs : Fields α} (h : fs.names.Nodup) {name : String} {v : α} :
    fs.get? name = some v ↔ (name, v) ∈ fs := by
  refine ⟨mem_of_get?, fun hmem => ?_⟩
  induction fs with
  | nil => cases hmem
  | cons f fs ih =>
    obtain ⟨k, w⟩ := f
    have hnodup : k ∉ names fs ∧ (names fs).Nodup := List.nodup_cons.mp h
    rw [get?]
    rcases List.mem_cons.mp hmem with heq | hmem
    · cases heq
      exact if_pos rfl
    · have hne : k ≠ name := fun hk => hnodup.1 (hk ▸ mem_names hmem)
      rw [if_neg hne]
      exact ih hnodup.2 hmem

theorem nodup_names_filter {fs : Fields α} (h : fs.names.Nodup) (p : String × α → Bool) :
    (names (fs.filter p)).Nodup :=
  h.sublist (List.filter_sublist.map Prod.fst)

theorem get?_append (fs gs : Fields α) (name : String) :
    (fs ++ gs).get? name = (fs.get? name).or (gs.get? name) := by
  induction fs with
  | nil => rfl
  | cons f fs ih =>
    obtain ⟨k, v⟩ := f
    rw [List.cons_append, get?, get?, ih]
    split_ifs <;> rfl

theorem erase_cons (f : String × α) (fs : Fields α) (name : String) :
    erase (f :: fs) name = if f.1 = name then fs.erase name else f :: fs.erase name := by
  unfold erase
  rw [List.filter_cons]
  split_ifs with h₁ h₂ h₂
  · exact absurd h₂ (of_decide_eq_true h₁)
  · rfl
  · rfl
  · exact absurd (decide_eq_true h₂) h₁

theorem get?_erase (fs : Fields α) (name other : String) :
    (fs.erase name).get? other = if name = other then none else fs.get? other := by
  induction fs with
  | nil => simp [erase, get?]
  | cons f fs ih =>
    obtain ⟨k, v⟩ := f
    rw [erase_cons]
    by_cases hk : k = name
    · rw [if_pos hk, ih, get?]
      split_ifs with ho hko
      · rfl
      · exact absurd (hk.symm.trans hko) ho
      · rfl
    · rw [if_neg hk, get?, get?, ih]
      split_ifs with hko ho
      · exact absurd (hko.trans ho.symm) hk
      all_goals rfl

theorem erase_of_get? {fs : Fields α} {name : String} (h : fs.get? name = none) :
    fs.erase name = fs := by
  induction fs with
  | nil => rfl
  | cons f fs ih =>
    obtain ⟨k, v⟩ := f
    rw [get?] at h
    split_ifs at h with hk
    rw [erase_cons, if_neg hk, ih h]

/-! ### Putting -/

theorem put_of_notMem {fs : Fields α} {name : String} (h : name ∉ fs.names) (value : α) :
    fs.put name value = fs ++ [(name, value)] := by
  induction fs with
  | nil => rfl
  | cons f fs ih =>
    obtain ⟨k, v⟩ := f
    simp only [names, List.map_cons, List.mem_cons, not_or] at h
    rw [put, if_neg fun hk => h.1 hk.symm, ih h.2, List.cons_append]

theorem put_of_get? {fs : Fields α} {name : String} {v : α} (h : fs.get? name = some v) :
    fs.put name v = fs := by
  induction fs with
  | nil => cases h
  | cons f fs ih =>
    obtain ⟨k, w⟩ := f
    rw [get?] at h
    rw [put]
    split_ifs at h ⊢ with hk
    · rw [Option.some.inj h]
    · rw [ih h]

/-- Putting a field replaces the one of its name. -/
theorem perm_put {fs : Fields α} (h : fs.names.Nodup) (name : String) (v : α) :
    (fs.put name v).Perm ((name, v) :: fs.erase name) := by
  induction fs with
  | nil => exact .refl _
  | cons f fs ih =>
    obtain ⟨k, w⟩ := f
    obtain ⟨hk, hfs⟩ : k ∉ names fs ∧ (names fs).Nodup := List.nodup_cons.mp h
    rw [put, erase_cons]
    split_ifs with hname
    · subst hname
      rw [erase_of_get? (get?_of_notMem hk)]
    · exact ((ih hfs).cons _).trans (.swap _ _ _)

/-- A field stands beside those of the other names. -/
theorem perm_of_get? {fs : Fields α} (h : fs.names.Nodup) {name : String} {v : α}
    (hv : fs.get? name = some v) : fs.Perm ((name, v) :: fs.erase name) := by
  have hput := perm_put h name v
  rwa [put_of_get? hv] at hput

theorem mem_of_mem_put {fs : Fields α} {name : String} {value : α} {f : String × α}
    (h : f ∈ fs.put name value) : f = (name, value) ∨ f ∈ fs := by
  induction fs with
  | nil => exact Or.inl (List.mem_singleton.mp h)
  | cons g fs ih =>
    obtain ⟨k, v⟩ := g
    rw [put] at h
    split_ifs at h with hk
    · subst hk
      exact (List.mem_cons.mp h).imp_right (List.mem_cons_of_mem _)
    · rcases List.mem_cons.mp h with rfl | h
      · exact Or.inr List.mem_cons_self
      · exact (ih h).imp_right (List.mem_cons_of_mem _)

/-- Pairs with distinct names are kept as they are. -/
theorem ofPairs_of_nodup {pairs : List (String × α)} (h : (pairs.map Prod.fst).Nodup) :
    ofPairs pairs = pairs := by
  -- the pairs put so far stand before the others
  suffices hfold : ∀ fs : Fields α, ((fs ++ pairs).map Prod.fst).Nodup →
      pairs.foldl (fun fs f => fs.put f.1 f.2) fs = fs ++ pairs from hfold [] h
  clear h
  induction pairs with
  | nil => exact fun fs _ => (List.append_nil fs).symm
  | cons f pairs ih =>
    obtain ⟨k, v⟩ := f
    intro fs hfs
    have hsplit : fs ++ (k, v) :: pairs = (fs ++ [(k, v)]) ++ pairs := by simp
    have hk : k ∉ fs.names := by
      rw [List.map_append, List.nodup_append] at hfs
      exact fun hmem => hfs.2.2 k hmem k (by simp) rfl
    rw [List.foldl_cons]
    show pairs.foldl (fun fs f => fs.put f.1 f.2) (fs.put k v) = fs ++ (k, v) :: pairs
    rw [put_of_notMem hk, hsplit]
    rw [hsplit] at hfs
    exact ih _ hfs

/-- The names of fields are distinct, and the fields are among the pairs. -/
theorem ofPairs_spec (pairs : List (String × α)) :
    (ofPairs pairs).names.Nodup ∧ ∀ f ∈ ofPairs pairs, f ∈ pairs := by
  -- putting keeps names distinct, whatever fields the pairs are put into
  suffices hfold : ∀ fs : Fields α, fs.names.Nodup →
      (pairs.foldl (fun fs f => fs.put f.1 f.2) fs).names.Nodup ∧
        ∀ f ∈ pairs.foldl (fun fs f => fs.put f.1 f.2) fs, f ∈ fs ∨ f ∈ pairs by
    obtain ⟨hnodup, hmem⟩ := hfold [] List.nodup_nil
    exact ⟨hnodup, fun f hf => (hmem f hf).resolve_left List.not_mem_nil⟩
  induction pairs with
  | nil => exact fun fs hfs => ⟨hfs, fun f hf => Or.inl hf⟩
  | cons g pairs ih =>
    intro fs hfs
    obtain ⟨hnodup, hmem⟩ := ih (fs.put g.1 g.2) (nodup_names_put hfs g.1 g.2)
    refine ⟨hnodup, fun f hf => ?_⟩
    rcases hmem f hf with hput | hpairs
    · rcases mem_of_mem_put hput with rfl | hfs
      · exact Or.inr List.mem_cons_self
      · exact Or.inl hfs
    · exact Or.inr (List.mem_cons_of_mem _ hpairs)

theorem nodup_names_ofPairs (pairs : List (String × α)) : (ofPairs pairs).names.Nodup :=
  (ofPairs_spec pairs).1

theorem mem_of_mem_ofPairs {pairs : List (String × α)} {f : String × α} (h : f ∈ ofPairs pairs) :
    f ∈ pairs :=
  (ofPairs_spec pairs).2 f h

end Keyset.Fields
