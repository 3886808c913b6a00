import Mathlib.Data.List.Basic
import Mathlib.Data.List.Induction
import Mathlib.Data.List.Nodup

/-!
# First places

The elements of a list, each once, stand in the order of their first places (`pairwise_idxOf_eraseDups`).

A table has an entry for each key that something was recorded under.  Recording changes the entry of
the key, or adds one at the end if the key is new (`record`).  After a number of records, the table has
the keys in the order of their first places, and the entry of a key depends only on what was recorded
under that key (`foldl_record`).
-/

namespace Keyset.FirstPlaces

variable {α β γ : Type}

/-- Changes keep the key of an entry. -/
theorem key_foldl {key : β → α} {init : α → β} {change : β → γ → β}
    (hinit : ∀ a, key (init a) = a) (hchange : ∀ b c, key (change b c) = key b) (a : α)
    (cs : List γ) : key (cs.foldl change (init a)) = a := by
  induction cs using List.reverseRecOn with
  | nil => exact hinit a
  | append_singleton cs c ih =>
    rw [List.foldl_append, List.foldl_cons, List.foldl_nil, hchange]
    exact ih

/-! ### Elements, each once -/

variable [DecidableEq α]

theorem eraseDups_concat (l : List α) (a : α) :
    (l ++ [a]).eraseDups = if a ∈ l then l.eraseDups else l.eraseDups ++ [a] := by
  rw [List.eraseDups_append, List.removeAll]
  by_cases h : a ∈ l <;> simp [h, List.eraseDups_cons]

theorem pairwise_idxOf_eraseDups (l : List α) :
    l.eraseDups.Pairwise fun a b => l.idxOf a < l.idxOf b := by
  induction l using List.reverseRecOn with
  | nil => exact .nil
  | append_singleton l last ih =>
    -- a further element does not move the first places of the others
    have hkept : ∀ a ∈ l.eraseDups, (l ++ [last]).idxOf a = l.idxOf a :=
      fun a ha => List.idxOf_append_of_mem (List.mem_eraseDups.mp ha)
    have hordered : l.eraseDups.Pairwise fun a b =>
        (l ++ [last]).idxOf a < (l ++ [last]).idxOf b := by
      refine ih.imp_of_mem fun ha hb hab => ?_
      rw [hkept _ ha, hkept _ hb]
      exact hab
    rw [eraseDups_concat]
    split
    case isTrue => exact hordered
    case isFalse hlast =>
      rw [List.pairwise_append]
      refine ⟨hordered, List.pairwise_singleton _ _, ?_⟩
      intro a ha b hb
      obtain rfl := List.mem_singleton.mp hb
      rw [hkept a ha, List.idxOf_append_of_notMem hlast, List.idxOf_cons_self, Nat.add_zero]
      exact List.idxOf_lt_length_of_mem (List.mem_eraseDups.mp ha)

theorem nodup_eraseDups (l : List α) : l.eraseDups.Nodup := by
  refine (pairwise_idxOf_eraseDups l).imp ?_
  rintro a b hab rfl
  exact Nat.lt_irrefl _ hab

/-! ### What was recorded under a key -/

/-- What was recorded under a key, in order. -/
def recorded (a : α) (records : List (α × γ)) : List γ :=
  (records.filter (·.1 = a)).map Prod.snd

theorem recorded_append (a : α) (records more : List (α × γ)) :
    recorded a (records ++ more) = recorded a records ++ recorded a more := by
  rw [recorded, List.filter_append, List.map_append]
  rfl

theorem recorded_of_notMem {a : α} {records : List (α × γ)} (h : a ∉ records.map Prod.fst) :
    recorded a records = [] := by
  rw [recorded, List.map_eq_nil_iff, List.filter_eq_nil_iff]
  intro r hr heq
  exact h (of_decide_eq_true heq ▸ List.mem_map_of_mem hr)

/-! ### Tables -/

section

variable (key : β → α) (init : α → β) (change : β → γ → β)

/-- A table after one more record. -/
def record (a : α) (c : γ) : List β → List β
  | [] => [change (init a) c]
  | entry :: rest =>
    if key entry = a then change entry c :: rest else entry :: record a c rest

variable {key}

/-- Recording in a table that has one entry for each of some keys. -/
theorem record_map {keys : List α} (hkeys : keys.Nodup) {entry : α → β}
    (hentry : ∀ b, key (entry b) = b) (a : α) (c : γ) :
    record key init change a c (keys.map entry) =
      keys.map (fun b => if b = a then change (entry b) c else entry b) ++
        if a ∈ keys then [] else [change (init a) c] := by
  induction keys with
  | nil => rfl
  | cons b keys ih =>
    obtain ⟨hb, hkeys⟩ := List.nodup_cons.mp hkeys
    rw [List.map_cons, List.map_cons, record, hentry]
    by_cases hba : b = a
    · subst hba
      have hrest : keys.map (fun d => if d = b then change (entry d) c else entry d) =
          keys.map entry :=
        List.map_congr_left fun d hd => if_neg (ne_of_mem_of_not_mem hd hb)
      rw [if_pos rfl, if_pos rfl, if_pos List.mem_cons_self, hrest, List.append_nil]
    · have hmem : (a ∈ b :: keys) ↔ a ∈ keys := by
        rw [List.mem_cons, or_iff_right fun h => hba h.symm]
      rw [if_neg hba, if_neg hba, ih hkeys, List.cons_append]
      simp only [hmem]

variable {init change}

/-- **A table has the keys in the order of their first places**, each with what was recorded under it. -/
theorem foldl_record (hinit : ∀ a, key (init a) = a) (hchange : ∀ b c, key (change b c) = key b)
    (records : List (α × γ)) :
    records.foldl (fun table r => record key init change r.1 r.2 table) [] =
      (records.map Prod.fst).eraseDups.map fun a => (recorded a records).foldl change (init a) := by
  induction records using List.reverseRecOn with
  | nil => rfl
  | append_singleton records r ih =>
    obtain ⟨a, c⟩ := r
    -- the record changes the entry of its own key
    have hentry : ∀ b, (recorded b (records ++ [(a, c)])).foldl change (init b) =
        if b = a then change ((recorded b records).foldl change (init b)) c
        else (recorded b records).foldl change (init b) := by
      intro b
      rw [recorded_append, List.foldl_append]
      by_cases hb : b = a
      · rw [if_pos hb, hb]
        simp [recorded]
      · have hab : a ≠ b := fun h => hb h.symm
        rw [if_neg hb]
        simp [recorded, hab]
    rw [List.foldl_append, List.foldl_cons, List.foldl_nil, ih,
      record_map init change (nodup_eraseDups _) (key_foldl hinit hchange · _), List.map_append,
      List.map_cons, List.map_nil, eraseDups_concat]
    simp only [hentry, List.mem_eraseDups]
    by_cases ha : a ∈ records.map Prod.fst
    · rw [if_pos ha, if_pos ha, List.append_nil]
    · rw [if_neg ha, if_neg ha, List.map_append, List.map_singleton, if_pos rfl,
        recorded_of_notMem ha]
      rfl

end

end Keyset.FirstPlaces
