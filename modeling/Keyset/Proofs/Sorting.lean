import Keyset.Cursor.Basic
import Keyset.Proofs.Document.Comparison
import Keyset.Proofs.Fields
import Keyset.Sorting

/-!
# Sorted documents

The keys of several paths are a total preorder on documents whose values at them are comparable
(`composes_compare`), and sorting puts such documents in order (`pairwise_sort`), strictly where the
documents hold different integers at one of the paths (`pairwise_lt_sort`).  The sort specification of
a cursor has one key for each column, if no field occurs twice (`keys_sortDocument`).
-/

namespace Keyset

/-! ### The specification of a cursor -/

/-- The key by which a column sorts. -/
def OrderBy.key (col : OrderBy) : Sorting.Key :=
  ⟨col.field, col.direction == .ascending⟩

theorem Sorting.isAscending_sign (d : Direction) :
    isAscending (.int32 d.sign) = (d == .ascending) := by
  cases d <;> decide +kernel

/-- The keys of the specification of columns with distinct fields are those of the columns. -/
theorem CursorInfo.keys_sortDocument {info : CursorInfo}
    (h : (info.orderBy.map OrderBy.field).Nodup) :
    Sorting.keys info.sortDocument = info.orderBy.map OrderBy.key := by
  unfold sortDocument
  rw [Fields.ofPairs_of_nodup (by rw [List.map_map]; exact h)]
  unfold Sorting.keys
  rw [List.map_map]
  refine List.map_congr_left fun col _ => ?_
  show Sorting.Key.mk col.field (Sorting.isAscending (.int32 col.direction.sign)) = col.key
  rw [Sorting.isAscending_sign]
  rfl

namespace Sorting

/-! ### The order of documents -/

/-- The values of a document that keys look at are comparable. -/
def Sortable (ks : List Key) (doc : Document) : Prop :=
  ∀ key ∈ ks, (sortValue key.path doc).isComparable = true

theorem Key.compare_swap (key : Key) (a b : Document) :
    (key.compare a b).swap = key.compare b a := by
  unfold Key.compare
  simp only
  split_ifs
  · exact Value.compare_swap _ _
  · rw [Value.compare_swap]

theorem compare_swap (ks : List Key) (a b : Document) :
    (compare ks a b).swap = compare ks b a := by
  induction ks with
  | nil => rfl
  | cons key ks ih => rw [compare, compare, Ordering.swap_then, Key.compare_swap, ih]

@[simp] theorem compare_self (ks : List Key) (a : Document) : compare ks a a = .eq := by
  have hswap := compare_swap ks a a
  cases h : compare ks a a <;> rw [h] at hswap <;> first | rfl | cases hswap

theorem Key.composes_compare {key : Key} {a b c : Document}
    (ha : (sortValue key.path a).isComparable = true)
    (hb : (sortValue key.path b).isComparable = true)
    (hc : (sortValue key.path c).isComparable = true) :
    Composes (key.compare a b) (key.compare b c) (key.compare a c) := by
  have h := Value.composes_compare ha hb hc
  unfold Key.compare
  simp only
  split_ifs
  · exact h
  · exact h.swap

/-- The orders of documents with comparable values compose. -/
theorem composes_compare {ks : List Key} {a b c : Document} (ha : Sortable ks a)
    (hb : Sortable ks b) (hc : Sortable ks c) :
    Composes (compare ks a b) (compare ks b c) (compare ks a c) := by
  induction ks with
  | nil => exact composes_left fun h => h
  | cons key ks ih =>
    rw [Sortable, List.forall_mem_cons] at ha hb hc
    exact (Key.composes_compare ha.1 hb.1 hc.1).then fun _ _ => ih ha.2 hb.2 hc.2

theorem compare_lt_trans {ks : List Key} {a b c : Document} (ha : Sortable ks a)
    (hb : Sortable ks b) (hc : Sortable ks c) (hab : compare ks a b = .lt)
    (hbc : compare ks b c = .lt) : compare ks a c = .lt :=
  ((composes_compare ha hb hc).2.2 (hab.trans hbc.symm)).trans hab

/-! ### Sorting -/

theorem sort_perm (spec : Document) (docs : List Document) : (sort spec docs).Perm docs :=
  List.mergeSort_perm _ _

/-- The order in which sortable documents are sorted. -/
def sortableLE (ks : List Key) (a b : {d // Sortable ks d}) : Bool :=
  (compare ks a.1 b.1).isLE

theorem sortableLE_trans {ks : List Key} (a b c : {d // Sortable ks d})
    (hab : sortableLE ks a b = true) (hbc : sortableLE ks b c = true) : sortableLE ks a c = true :=
  (composes_compare a.2 b.2 c.2).isLE hab hbc

theorem sortableLE_total {ks : List Key} (a b : {d // Sortable ks d}) :
    (sortableLE ks a b || sortableLE ks b a) = true := by
  unfold sortableLE
  rw [← compare_swap ks a.1 b.1]
  cases compare ks a.1 b.1 <;> rfl

/-- Sortable documents are sorted as such: the order is transitive on them alone. -/
theorem sort_eq_map {spec : Document} {docs : List Document}
    (h : ∀ d ∈ docs, Sortable (keys spec) d) :
    sort spec docs =
      ((docs.attachWith _ h).mergeSort (sortableLE (keys spec))).map Subtype.val := by
  have hmap := List.map_mergeSort (r := sortableLE (keys spec)) (f := Subtype.val)
    (s := fun a b => (compare (keys spec) a b).isLE) (l := docs.attachWith _ h)
    fun a _ b _ => rfl
  rw [hmap, List.attachWith_map_subtype_val]
  rfl

/-- Sorted documents are in order. -/
theorem pairwise_sort {spec : Document} {docs : List Document}
    (h : ∀ d ∈ docs, Sortable (keys spec) d) :
    (sort spec docs).Pairwise fun a b => (compare (keys spec) a b).isLE = true := by
  rw [sort_eq_map h, List.pairwise_map]
  exact List.pairwise_mergeSort sortableLE_trans sortableLE_total _

/-- Among documents that are sorted, those that were in order stand as they did. -/
theorem sublist_sort {spec : Document} {docs run : List Document}
    (h : ∀ d ∈ docs, Sortable (keys spec) d)
    (hrun : run.Pairwise fun a b => (compare (keys spec) a b).isLE = true)
    (hsub : run.Sublist docs) : run.Sublist (sort spec docs) := by
  rw [← List.attachWith_map_subtype_val h] at hsub
  obtain ⟨attached, hattached, rfl⟩ := List.sublist_map_iff.mp hsub
  rw [List.pairwise_map] at hrun
  rw [sort_eq_map h]
  exact (List.sublist_mergeSort sortableLE_trans sortableLE_total hrun hattached).map _

/-- Documents in order stay as they are. -/
theorem sort_of_pairwise {spec : Document} {docs : List Document}
    (h : docs.Pairwise fun a b => (compare (keys spec) a b).isLE = true) : sort spec docs = docs :=
  List.mergeSort_of_pairwise h

/-! ### Documents with numbers -/

theorem compare_eq_eq_iff {ks : List Key} {a b : Document} :
    compare ks a b = .eq ↔ ∀ key ∈ ks, key.compare a b = .eq := by
  induction ks with
  | nil => simp [compare]
  | cons key ks ih => rw [compare, Ordering.then_eq_eq, ih, List.forall_mem_cons]

end Sorting

/-- The number of a value that is an integer. -/
def Value.integer? : Value → Option Int
  | .int32 n => some n.toInt
  | .int64 n => some n.toInt
  | _ => none

theorem Value.toDouble?_of_integer? {v : Value} {n : Int} (h : v.integer? = some n) :
    v.toDouble? = some (.ofInt n) := by
  cases v with
  | int32 m =>
    rw [← Option.some.inj h]
    rfl
  | int64 m =>
    rw [← Option.some.inj h]
    rfl
  | _ => cases h

/-- The integer at a path of a document. -/
def Document.integerAt? (doc : Document) (path : String) : Option Int :=
  (doc.at? path).bind Value.integer?

theorem Document.sortValue_of_integerAt? {doc : Document} {path : String} {n : Int}
    (h : doc.integerAt? path = some n) :
    (Sorting.sortValue path doc).toDouble? = some (.ofInt n) := by
  obtain ⟨v, hv, hn⟩ := Option.bind_eq_some_iff.mp h
  rw [Sorting.sortValue, hv]
  exact Value.toDouble?_of_integer? hn

/-- Documents with integers at a path that doubles hold exactly, a different one for each document. -/
structure Numbered (path : String) (docs : List Document) : Prop where
  exact : ∀ d ∈ docs, ∃ n, d.integerAt? path = some n ∧ n.natAbs ≤ Double.exactBound
  nodup : (docs.map fun d => d.integerAt? path).Nodup

namespace Numbered

variable {path : String} {docs : List Document}

theorem perm {docs' : List Document} (h : Numbered path docs) (hperm : docs'.Perm docs) :
    Numbered path docs' where
  exact d hd := h.exact d (hperm.mem_iff.mp hd)
  nodup := (hperm.map _).nodup_iff.mpr h.nodup

theorem sublist {docs' : List Document} (h : Numbered path docs) (hsub : docs'.Sublist docs) :
    Numbered path docs' where
  exact d hd := h.exact d (hsub.subset hd)
  nodup := h.nodup.sublist (hsub.map _)

/-- Documents with different numbers are in order, one way or the other. -/
theorem compare_ne_eq {ks : List Sorting.Key} {key : Sorting.Key} (hkey : key ∈ ks)
    (hpath : key.path = path) (h : Numbered path docs) {a b : Document} (ha : a ∈ docs)
    (hb : b ∈ docs) (hne : a.integerAt? path ≠ b.integerAt? path) :
    Sorting.compare ks a b ≠ .eq := by
  obtain ⟨m, hm, hmbound⟩ := h.exact a ha
  obtain ⟨n, hn, hnbound⟩ := h.exact b hb
  intro heq
  -- documents that no key tells apart have one double at the path
  have hcompare : key.compare a b = .eq := Sorting.compare_eq_eq_iff.mp heq key hkey
  have hvalues : (Sorting.sortValue path a).compare (Sorting.sortValue path b) = .eq := by
    unfold Sorting.Key.compare at hcompare
    simp only [hpath] at hcompare
    split_ifs at hcompare
    · exact hcompare
    · rwa [Ordering.swap_eq_eq] at hcompare
  rw [Value.compare_of_toDouble? (Document.sortValue_of_integerAt? hm)
    (Document.sortValue_of_integerAt? hn), Double.compare, Double.isNaN_ofInt,
    Double.isNaN_ofInt] at hvalues
  have hkeys : (Double.ofInt m).key = (Double.ofInt n).key := by simpa using hvalues
  rw [Double.key_ofInt_inj hmbound hnbound] at hkeys
  exact hne (by rw [hm, hn, hkeys])

end Numbered

/-- Sorted documents with numbers are in strict order. -/
theorem Sorting.pairwise_lt_sort {spec : Document} {docs : List Document} {key : Key}
    (hkey : key ∈ keys spec) (hnumbered : Numbered key.path docs)
    (h : ∀ d ∈ docs, Sortable (keys spec) d) :
    (sort spec docs).Pairwise fun a b => compare (keys spec) a b = .lt := by
  have hsorted := hnumbered.perm (sort_perm spec docs)
  have hnodup := List.pairwise_map.mp hsorted.nodup
  -- the documents are in order, and their numbers keep them apart
  refine ((pairwise_sort h).and hnodup).imp_of_mem fun {a b} ha hb hab => ?_
  have hne := hsorted.compare_ne_eq hkey rfl ha hb hab.2
  cases hcompare : compare (keys spec) a b with
  | lt => rfl
  | eq => exact absurd hcompare hne
  | gt =>
    rw [hcompare] at hab
    cases hab.1

/-- In strict order, what comes after a document is what stands behind it. -/
theorem Sorting.filter_compare_lt {ks : List Key} {before after : List Document} {row : Document}
    (h : (before ++ row :: after).Pairwise fun a b => compare ks a b = .lt)
    (p : Document → Bool) :
    (before ++ row :: after).filter (fun d => compare ks row d == .lt && p d) = after.filter p := by
  obtain ⟨-, hrest, hbefore⟩ := List.pairwise_append.mp h
  obtain ⟨hafter, -⟩ := List.pairwise_cons.mp hrest
  -- what stands before the row is before it in the order
  have hnone : before.filter (fun d => compare ks row d == .lt && p d) = [] := by
    rw [List.filter_eq_nil_iff]
    intro d hd
    rw [← compare_swap, hbefore d hd row List.mem_cons_self]
    simp
  rw [List.filter_append, hnone, List.nil_append, List.filter_cons, compare_self]
  show after.filter (fun d => compare ks row d == .lt && p d) = after.filter p
  refine List.filter_congr fun d hd => ?_
  rw [hafter d hd]
  rfl

end Keyset
