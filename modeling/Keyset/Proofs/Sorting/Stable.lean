import Keyset.Proofs.Sorting
import Mathlib.Data.List.Basic

/-!
# Stable sorting by several paths

Of two documents one comes first by the first path that tells them apart (`ComesBefore`), or they are
level at all paths (`areLevel`).  A sort puts documents in this order and leaves level ones as they
stood, and no other list does (`isStableSort_iff`).

All else follows from there being one such list: sorting by the paths of two specifications is sorting
by those of the second and then by those of the first (`sort_append`), and it makes no difference
whether documents are selected before or after they are sorted (`sort_filter`).
-/

namespace Keyset.Sorting

/-! ### The order of a specification -/

/-- Whether the values of two documents are level at all paths. -/
def areLevel (spec a b : Document) : Bool :=
  spec.all fun entry => (sortValue entry.1 a).compare (sortValue entry.1 b) == .eq

/-- A document comes before another one by the first path where their values are not level: its value
is the lower one there if the path ascends, and the higher one if it descends. -/
inductive ComesBefore : (spec a b : Document) → Prop
  | here {path : String} {direction : Value} {rest a b : Document} :
    (sortValue path a).compare (sortValue path b) = (if isAscending direction then .lt else .gt) →
      ComesBefore ((path, direction) :: rest) a b
  | later {path : String} {direction : Value} {rest a b : Document} :
    (sortValue path a).compare (sortValue path b) = .eq → ComesBefore rest a b →
      ComesBefore ((path, direction) :: rest) a b

/-- A document comes before another one or is level with it. -/
def InOrder (spec a b : Document) : Prop :=
  ComesBefore spec a b ∨ areLevel spec a b = true

/-- Both directions leave values level that are level. -/
theorem Key.compare_eq_eq_iff {key : Key} {a b : Document} :
    key.compare a b = .eq ↔ (sortValue key.path a).compare (sortValue key.path b) = .eq := by
  unfold Key.compare
  simp only
  split_ifs
  · exact Iff.rfl
  · exact Ordering.swap_eq_eq

theorem Key.compare_eq_lt_iff {key : Key} {a b : Document} :
    key.compare a b = .lt ↔
      (sortValue key.path a).compare (sortValue key.path b) =
        if key.ascending then .lt else .gt := by
  unfold Key.compare
  simp only
  split_ifs
  · exact Iff.rfl
  · exact Ordering.swap_eq_lt

theorem compare_keys_cons (path : String) (direction : Value) (rest a b : Document) :
    compare (keys ((path, direction) :: rest)) a b =
      (Key.compare ⟨path, isAscending direction⟩ a b).then (compare (keys rest) a b) := rfl

theorem areLevel_iff {spec a b : Document} :
    areLevel spec a b = true ↔ compare (keys spec) a b = .eq := by
  induction spec with
  | nil => exact ⟨fun _ => rfl, fun _ => rfl⟩
  | cons entry rest ih =>
    obtain ⟨path, direction⟩ := entry
    rw [compare_keys_cons, Ordering.then_eq_eq, ← ih, Key.compare_eq_eq_iff, areLevel, List.all_cons,
      Bool.and_eq_true, beq_iff_eq]
    rfl

theorem comesBefore_iff {spec a b : Document} :
    ComesBefore spec a b ↔ compare (keys spec) a b = .lt := by
  induction spec with
  | nil => exact ⟨nofun, nofun⟩
  | cons entry rest ih =>
    obtain ⟨path, direction⟩ := entry
    rw [compare_keys_cons, Ordering.then_eq_lt, ← ih, Key.compare_eq_lt_iff, Key.compare_eq_eq_iff]
    constructor
    · intro h
      cases h with
      | here hvalues => exact .inl hvalues
      | later hvalues hrest => exact .inr ⟨hvalues, hrest⟩
    · rintro (hvalues | ⟨hvalues, hrest⟩)
      · exact .here hvalues
      · exact .later hvalues hrest

theorem inOrder_iff {spec a b : Document} :
    InOrder spec a b ↔ (compare (keys spec) a b).isLE = true := by
  unfold InOrder
  rw [comesBefore_iff, areLevel_iff]
  cases compare (keys spec) a b <;> simp

theorem areLevel_self (spec a : Document) : areLevel spec a a = true :=
  areLevel_iff.mpr (compare_self _ a)

theorem areLevel_append (spec rest a b : Document) :
    areLevel (spec ++ rest) a b = (areLevel spec a b && areLevel rest a b) :=
  List.all_append

/-- The paths of a second specification decide where those of a first one are level. -/
theorem inOrder_append {spec rest a b : Document} :
    InOrder (spec ++ rest) a b ↔
      ComesBefore spec a b ∨ areLevel spec a b = true ∧ InOrder rest a b := by
  induction spec with
  | nil =>
    constructor
    · exact fun h => .inr ⟨rfl, h⟩
    · rintro (h | ⟨-, h⟩)
      · cases h
      · exact h
  | cons entry spec ih =>
    obtain ⟨path, direction⟩ := entry
    rw [inOrder_iff] at ih ⊢
    rw [comesBefore_iff, areLevel_iff] at ih ⊢
    rw [List.cons_append, compare_keys_cons, compare_keys_cons]
    cases Key.compare ⟨path, isAscending direction⟩ a b with
    | eq => exact ih
    | lt => simp
    | gt => simp

/-! ### The sorted list -/

/-- A list has the documents of another one sorted. -/
structure IsStableSort (spec : Document) (docs sorted : List Document) : Prop where
  /-- It has the same documents. -/
  perm : sorted.Perm docs
  /-- They are in order. -/
  inOrder : sorted.Pairwise (InOrder spec)
  /-- Those that are level with one of them stand as they did. -/
  stable : ∀ d ∈ docs, sorted.filter (areLevel spec d) = docs.filter (areLevel spec d)

/-- Documents that are level with one are level with each other. -/
theorem areLevel_of_areLevel {spec a b c : Document} (ha : Sortable (keys spec) a)
    (hb : Sortable (keys spec) b) (hc : Sortable (keys spec) c) (hab : areLevel spec a b = true)
    (hac : areLevel spec a c = true) : areLevel spec b c = true := by
  rw [areLevel_iff] at *
  have hcomposes := composes_compare ha hb hc
  rw [← hcomposes.1 hab]
  exact hac

theorem isStableSort_sort {spec : Document} {docs : List Document}
    (h : ∀ d ∈ docs, Sortable (keys spec) d) : IsStableSort spec docs (sort spec docs) where
  perm := sort_perm spec docs
  inOrder := (pairwise_sort h).imp inOrder_iff.mpr
  stable := by
    intro d hd
    let level := docs.filter (areLevel spec d)
    -- documents that are level with `d` are in order, so that they are found in the sorted list
    have hlevel : level.Pairwise fun a b => (compare (keys spec) a b).isLE = true := by
      apply List.pairwise_of_forall_mem_list
      intro a ha b hb
      rw [List.mem_filter] at ha hb
      apply inOrder_iff.mp
      exact .inr (areLevel_of_areLevel (h d hd) (h a ha.1) (h b hb.1) ha.2 hb.2)
    have hsub : level.Sublist ((sort spec docs).filter (areLevel spec d)) := by
      have hfilter := (sublist_sort h hlevel List.filter_sublist).filter (areLevel spec d)
      simpa only [level, List.filter_filter, Bool.and_self] using hfilter
    have hlength := ((sort_perm spec docs).filter (areLevel spec d)).length_eq
    exact (hsub.eq_of_length hlength.symm).symm

theorem areLevel_of_inOrder {spec a b : Document} (hab : InOrder spec a b)
    (hba : InOrder spec b a) : areLevel spec a b = true := by
  rw [inOrder_iff] at hab hba
  rw [areLevel_iff]
  rw [← compare_swap] at hba
  cases h : compare (keys spec) a b with
  | eq => rfl
  | lt =>
    rw [h] at hba
    exact absurd hba (by decide)
  | gt =>
    rw [h] at hab
    exact absurd hab (by decide)

/-- Lists in order are one list if they agree on what is level with each of their documents. -/
theorem eq_of_filter_areLevel {spec : Document} {xs ys : List Document}
    (hxs : xs.Pairwise (InOrder spec)) (hys : ys.Pairwise (InOrder spec))
    (h : ∀ d, d ∈ xs ∨ d ∈ ys → xs.filter (areLevel spec d) = ys.filter (areLevel spec d)) :
    xs = ys := by
  induction xs generalizing ys with
  | nil =>
    cases ys with
    | nil => rfl
    | cons y ys =>
      have hy := h y (.inr List.mem_cons_self)
      rw [List.filter_nil, List.filter_cons_of_pos (areLevel_self spec y)] at hy
      cases hy
  | cons x xs ih =>
    cases ys with
    | nil =>
      have hx := h x (.inl List.mem_cons_self)
      rw [List.filter_nil, List.filter_cons_of_pos (areLevel_self spec x)] at hx
      cases hx
    | cons y ys =>
      have hx := h x (.inl List.mem_cons_self)
      have hy := h y (.inr List.mem_cons_self)
      rw [List.filter_cons_of_pos (areLevel_self spec _)] at hx hy
      rw [List.pairwise_cons] at hxs hys
      -- each of the first documents is found in the other list, and they are level
      have hxmem : x ∈ y :: ys := List.mem_of_mem_filter (hx ▸ List.mem_cons_self)
      have hymem : y ∈ x :: xs := List.mem_of_mem_filter (hy ▸ List.mem_cons_self)
      have hlevel : areLevel spec x y = true := by
        rcases List.mem_cons.mp hxmem with rfl | hxmem
        · exact areLevel_self spec x
        rcases List.mem_cons.mp hymem with rfl | hymem
        · exact areLevel_self spec y
        exact areLevel_of_inOrder (hxs.1 y hymem) (hys.1 x hxmem)
      rw [List.filter_cons_of_pos hlevel] at hx
      obtain rfl : x = y := (List.cons.inj hx).1
      congr 1
      apply ih hxs.2 hys.2
      intro d hd
      have hcons := h d (hd.imp (List.mem_cons_of_mem _) (List.mem_cons_of_mem _))
      rw [List.filter_cons, List.filter_cons] at hcons
      split_ifs at hcons
      · exact (List.cons.inj hcons).2
      · exact hcons

/-- A list is the sorted one exactly if it has the documents in order and level ones as they stood. -/
theorem isStableSort_iff {spec : Document} {docs sorted : List Document}
    (h : ∀ d ∈ docs, Sortable (keys spec) d) :
    IsStableSort spec docs sorted ↔ sorted = sort spec docs := by
  have hsort := isStableSort_sort h
  constructor
  · intro hsorted
    apply eq_of_filter_areLevel hsorted.inOrder hsort.inOrder
    intro d hd
    have hmem : d ∈ docs := hd.elim hsorted.perm.mem_iff.mp hsort.perm.mem_iff.mp
    rw [hsorted.stable d hmem, hsort.stable d hmem]
  · rintro rfl
    exact hsort

/-- Documents may be selected before or after they are sorted. -/
theorem sort_filter {spec : Document} {docs : List Document}
    (h : ∀ d ∈ docs, Sortable (keys spec) d) (p : Document → Bool) :
    sort spec (docs.filter p) = (sort spec docs).filter p := by
  have hsort := isStableSort_sort h
  symm
  apply (isStableSort_iff fun d hd => h d (List.mem_of_mem_filter hd)).mp
  exact {
    perm := hsort.perm.filter p
    inOrder := hsort.inOrder.filter p
    stable := by
      intro d hd
      rw [List.filter_comm, hsort.stable d (List.mem_of_mem_filter hd), List.filter_comm] }

/-! ### One path after the other -/

theorem sort_nil (docs : List Document) : sort [] docs = docs := by
  apply sort_of_pairwise
  apply List.pairwise_of_forall_mem_list
  intro a _ b _
  rfl

/-- Sorting by the paths of two specifications is sorting by the second one and then by the first. -/
theorem sort_append {spec rest : Document} {docs : List Document}
    (h : ∀ d ∈ docs, Sortable (keys (spec ++ rest)) d) :
    sort (spec ++ rest) docs = sort spec (sort rest docs) := by
  have hkeys : keys (spec ++ rest) = keys spec ++ keys rest := List.map_append
  have hrest : ∀ d ∈ docs, Sortable (keys rest) d := fun d hd key hkey =>
    h d hd key (hkeys ▸ List.mem_append_right _ hkey)
  have hsecond := isStableSort_sort hrest
  have hspec : ∀ d ∈ sort rest docs, Sortable (keys spec) d := fun d hd key hkey =>
    h d (hsecond.perm.mem_iff.mp hd) key (hkeys ▸ List.mem_append_left _ hkey)
  have hfirst := isStableSort_sort hspec
  symm
  apply (isStableSort_iff h).mp
  exact {
    perm := hfirst.perm.trans hsecond.perm
    inOrder := by
      rw [List.pairwise_iff_forall_sublist]
      intro a b hab
      apply inOrder_append.mpr
      rcases List.pairwise_iff_forall_sublist.mp hfirst.inOrder hab with hbefore | hlevel
      · exact .inl hbefore
      -- documents that are level for the first specification stand as the second one put them
      · have ha : a ∈ sort rest docs := hfirst.perm.mem_iff.mp (hab.subset List.mem_cons_self)
        have hpair := hab.filter (areLevel spec a)
        rw [List.filter_cons_of_pos (areLevel_self spec a), List.filter_cons_of_pos hlevel,
          hfirst.stable a ha] at hpair
        have hsub := hpair.trans List.filter_sublist
        exact .inr ⟨hlevel, List.pairwise_iff_forall_sublist.mp hsecond.inOrder hsub⟩
    stable := by
      intro d hd
      have hlevel : areLevel (spec ++ rest) d = fun e => areLevel rest d e && areLevel spec d e := by
        funext e
        rw [areLevel_append, Bool.and_comm]
      have hd' : d ∈ sort rest docs := hsecond.perm.mem_iff.mpr hd
      rw [hlevel, ← List.filter_filter, ← List.filter_filter, hfirst.stable d hd',
        List.filter_comm, hsecond.stable d hd, List.filter_comm] }

/-- **Sorting is stable and goes by several paths.**  Sorted documents are the given ones, in order by
the first path that tells them apart, each path in its own direction and with null for a missing value;
level documents stand as they stood, and this determines the list.  So it is got by sorting by one path
after the other, the last one first, and sorting it again changes nothing. -/
theorem sort_by_paths {spec : Document} {docs : List Document}
    (h : ∀ d ∈ docs, ∀ entry ∈ spec, (sortValue entry.1 d).isComparable = true) :
    IsStableSort spec docs (sort spec docs) ∧
      (∀ sorted, IsStableSort spec docs sorted → sorted = sort spec docs) ∧
      sort spec docs = spec.foldr (fun entry => sort [entry]) docs ∧
      sort spec (sort spec docs) = sort spec docs := by
  have hsortable : ∀ d ∈ docs, Sortable (keys spec) d := fun d hd => List.forall_mem_map.mpr (h d hd)
  refine ⟨isStableSort_sort hsortable, fun _ => (isStableSort_iff hsortable).mp, ?_,
    sort_of_pairwise (pairwise_sort hsortable)⟩
  -- the induction is on the paths: the first one is sorted by last
  clear hsortable
  induction spec with
  | nil => exact sort_nil docs
  | cons entry rest ih =>
    have hcons : ∀ d ∈ docs, Sortable (keys ([entry] ++ rest)) d := fun d hd =>
      List.forall_mem_map.mpr (h d hd)
    have hrest := ih fun d hd e he => h d hd e (List.mem_cons_of_mem _ he)
    rw [List.foldr_cons, ← hrest]
    exact sort_append hcons

/-- Documents by number, the largest first, and then by name: the first one has no number and comes last,
and the other two are level, with numbers of two widths. -/
theorem sort_by_paths_numbersAndNames :
    let first : Document := [("name", .string "a")]
    let second : Document := [("n", .int32 1), ("name", .string "b")]
    let third : Document := [("n", .double (.ofInt 1)), ("name", .string "b")]
    let docs := [first, second, third]
    let spec : Document := [("n", .int32 (-1)), ("name", .int32 1)]
    (∀ d ∈ docs, ∀ entry ∈ spec, (sortValue entry.1 d).isComparable = true) ∧
      sort spec docs = [second, third, first] ∧
      sort [("n", .int32 (-1))] (sort [("name", .int32 1)] docs) = [second, third, first] := by
  intro first second third docs spec
  have hcomparable : ∀ d ∈ docs, ∀ entry ∈ spec, (sortValue entry.1 d).isComparable = true := by
    decide +kernel
  have hinOrder : [second, third, first].Pairwise (InOrder spec) := by
    have hpairs : [second, third, first].Pairwise fun a b =>
        (compare (keys spec) a b).isLE = true := by decide +kernel
    exact hpairs.imp inOrder_iff.mpr
  have hlevel : areLevel spec second third = true ∧ areLevel spec third second = true := by
    decide +kernel
  have hfirst : areLevel spec first second = false ∧ areLevel spec first third = false ∧
      areLevel spec second first = false ∧ areLevel spec third first = false := by decide +kernel
  have hstable : ∀ d ∈ docs,
      [second, third, first].filter (areLevel spec d) = docs.filter (areLevel spec d) := by
    simp [docs, List.filter_cons, areLevel_self, hlevel, hfirst]
  have hperm : ([second, third] ++ first :: []).Perm docs := List.perm_middle
  have hsorted : IsStableSort spec docs [second, third, first] := ⟨hperm, hinOrder, hstable⟩
  obtain ⟨-, hunique, hpaths, -⟩ := sort_by_paths hcomparable
  have hsort := hunique _ hsorted
  refine ⟨hcomparable, hsort.symm, ?_⟩
  rw [hsort]
  exact hpaths.symm

end Keyset.Sorting
