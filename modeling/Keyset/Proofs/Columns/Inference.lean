import Keyset.Proofs.Columns

/-!
# Columns, read off the documents

`AreInferred` says what the columns of documents are without following how they are inferred: which
names they have and in which order, and of each column, what its documents have under its name.  It
leaves no choice, and the columns that are inferred are those (`infer_eq_iff`).
-/

namespace Keyset.Columns

open FirstPlaces (nodup_eraseDups pairwise_idxOf_eraseDups)

/-! ### The class that most values have -/

/-- A class that most values have, the one that came up first if there are several such. -/
structure IsMostFrequent (classes : List TypeClass) (c : TypeClass) : Prop where
  mem : c ∈ classes
  most : ∀ d ∈ classes, classes.count d ≤ classes.count c
  first : ∀ d ∈ classes, classes.count d = classes.count c → classes.idxOf c ≤ classes.idxOf d

theorem IsMostFrequent.unique {classes : List TypeClass} {c d : TypeClass}
    (hc : IsMostFrequent classes c) (hd : IsMostFrequent classes d) : c = d := by
  have hcount : classes.count d = classes.count c :=
    Nat.le_antisymm (hc.most d hd.mem) (hd.most c hc.mem)
  have hidx : classes.idxOf c = classes.idxOf d :=
    Nat.le_antisymm (hc.first d hd.mem hcount) (hd.first c hc.mem hcount.symm)
  exact (List.idxOf_inj hc.mem).mp hidx

/-- The class that is picked has more values than each before it, and no fewer than each after it. -/
theorem mostFrequent_spec (best : TypeClass × Nat) (rest : List (TypeClass × Nat)) :
    ∃ front n back, best :: rest = front ++ (mostFrequent best rest, n) :: back ∧
      (∀ e ∈ front, e.2 < n) ∧ ∀ e ∈ back, e.2 ≤ n := by
  induction rest generalizing best with
  | nil => exact ⟨[], best.2, [], rfl, nofun, nofun⟩
  | cons next rest ih =>
    rw [mostFrequent]
    split
    case isTrue hlt =>
      obtain ⟨front, n, back, heq, hfront, hback⟩ := ih next
      have hnext : next.2 ≤ n := by
        cases front with
        | nil =>
          obtain ⟨hnext, -⟩ := List.cons.inj heq
          exact Nat.le_of_eq (congrArg Prod.snd hnext)
        | cons e front =>
          obtain ⟨rfl, -⟩ := List.cons.inj heq
          exact Nat.le_of_lt (hfront _ List.mem_cons_self)
      refine ⟨best :: front, n, back, by rw [heq, List.cons_append], ?_, hback⟩
      exact List.forall_mem_cons.mpr ⟨Nat.lt_of_lt_of_le hlt hnext, hfront⟩
    case isFalse hle =>
      obtain ⟨front, n, back, heq, hfront, hback⟩ := ih best
      have hle : next.2 ≤ best.2 := Nat.le_of_not_lt hle
      cases front with
      | nil =>
        obtain ⟨hbest, rfl⟩ := List.cons.inj heq
        have hn : best.2 = n := congrArg Prod.snd hbest
        refine ⟨[], n, next :: rest, by rw [← hbest, List.nil_append], nofun, ?_⟩
        exact List.forall_mem_cons.mpr ⟨hn ▸ hle, hback⟩
      | cons e front =>
        obtain ⟨rfl, hrest⟩ := List.cons.inj heq
        obtain ⟨hbest, hfront⟩ := List.forall_mem_cons.mp hfront
        refine ⟨best :: next :: front, n, back, congrArg (best :: next :: ·) hrest, ?_, hback⟩
        exact List.forall_mem_cons.mpr
          ⟨hbest, List.forall_mem_cons.mpr ⟨Nat.lt_of_le_of_lt hle hbest, hfront⟩⟩

theorem mem_classCounts {classes : List TypeClass} {e : TypeClass × Nat} :
    e ∈ classCounts classes ↔ e.1 ∈ classes ∧ e.2 = classes.count e.1 := by
  rw [classCounts, List.mem_map]
  constructor
  · rintro ⟨c, hc, rfl⟩
    exact ⟨List.mem_eraseDups.mp hc, rfl⟩
  · rintro ⟨hc, hn⟩
    exact ⟨e.1, List.mem_eraseDups.mpr hc, by rw [← hn]⟩

theorem isMostFrequent_mostFrequent {classes : List TypeClass} {first : TypeClass × Nat}
    {rest : List (TypeClass × Nat)} (h : classCounts classes = first :: rest) :
    IsMostFrequent classes (mostFrequent first rest) := by
  obtain ⟨front, n, back, heq, hfront, hback⟩ := mostFrequent_spec first rest
  rw [← h] at heq
  have hmem : (mostFrequent first rest, n) ∈ classCounts classes := by simp [heq]
  obtain ⟨hc, hn⟩ := mem_classCounts.mp hmem
  -- the classes are counted in the order of their first places
  have hordered : (classCounts classes).Pairwise fun e f =>
      classes.idxOf e.1 < classes.idxOf f.1 := by
    rw [classCounts, List.pairwise_map]
    exact pairwise_idxOf_eraseDups classes
  rw [heq, List.pairwise_append, List.pairwise_cons] at hordered
  -- where another class is counted
  have hwhere : ∀ d ∈ classes, (d, classes.count d) ∈ front ∨ d = mostFrequent first rest ∨
      (d, classes.count d) ∈ back := by
    intro d hd
    have hcounted : (d, classes.count d) ∈ classCounts classes := mem_classCounts.mpr ⟨hd, rfl⟩
    rw [heq, List.mem_append, List.mem_cons] at hcounted
    exact hcounted.imp_right (.imp_left (congrArg Prod.fst))
  refine ⟨hc, ?_, ?_⟩
  · intro d hd
    rw [← hn]
    rcases hwhere d hd with hd | rfl | hd
    · exact Nat.le_of_lt (hfront _ hd)
    · exact Nat.le_of_eq hn.symm
    · exact hback _ hd
  · intro d hd hcount
    rcases hwhere d hd with hd | rfl | hd
    · exact absurd (hcount.trans hn.symm) (Nat.ne_of_lt (hfront _ hd))
    · exact Nat.le_refl _
    · exact Nat.le_of_lt (hordered.2.1.1 _ hd)

/-! ### The type of a field -/

/-- Whether values are of several classes. -/
def AreMixed (classes : List TypeClass) : Prop :=
  ∃ d ∈ classes, ∃ e ∈ classes, d ≠ e

/-- Whether values are numbers of both classes. -/
def AreNumbers (classes : List TypeClass) : Prop :=
  ∀ c, c ∈ classes ↔ c = .integer ∨ c = .double

/-- The type of a field whose values have some classes: that of texts without values, the class if there
is only one, doubles for integers and doubles, and else the class that most values have. -/
structure IsTypeOf (classes : List TypeClass) (c : TypeClass) : Prop where
  of_none : classes = [] → c = .string
  of_one : ∀ d, (∀ e, e ∈ classes ↔ e = d) → c = d
  of_numbers : AreNumbers classes → c = .double
  of_several : AreMixed classes → ¬AreNumbers classes → IsMostFrequent classes c

theorem areMixed_of_forall {classes : List TypeClass} (hnil : classes ≠ [])
    (hone : ∀ d, ¬∀ e, e ∈ classes ↔ e = d) : AreMixed classes := by
  obtain ⟨d, hd⟩ := List.exists_mem_of_ne_nil classes hnil
  by_contra hsame
  refine hone d fun e => ⟨fun he => ?_, fun he => he ▸ hd⟩
  by_contra hne
  exact hsame ⟨e, he, d, hd, hne⟩

/-- The classes of the values leave no choice of a type. -/
theorem IsTypeOf.unique {classes : List TypeClass} {c d : TypeClass} (hc : IsTypeOf classes c)
    (hd : IsTypeOf classes d) : c = d := by
  by_cases hnil : classes = []
  · rw [hc.of_none hnil, hd.of_none hnil]
  by_cases hone : ∃ e, ∀ f, f ∈ classes ↔ f = e
  · obtain ⟨e, he⟩ := hone
    rw [hc.of_one e he, hd.of_one e he]
  by_cases hnumbers : AreNumbers classes
  · rw [hc.of_numbers hnumbers, hd.of_numbers hnumbers]
  have hmixed := areMixed_of_forall hnil (not_exists.mp hone)
  exact (hc.of_several hmixed hnumbers).unique (hd.of_several hmixed hnumbers)

theorem isTypeOf_nil : IsTypeOf [] .string where
  of_none _ := rfl
  of_one d h := absurd ((h d).mpr rfl) List.not_mem_nil
  of_numbers h := absurd ((h .double).mpr (.inr rfl)) List.not_mem_nil
  of_several := by
    rintro ⟨d, hd, -⟩
    cases hd

theorem isTypeOf_of_one {classes : List TypeClass} {c : TypeClass}
    (hone : ∀ e, e ∈ classes ↔ e = c) : IsTypeOf classes c where
  of_none hnil := absurd (hnil ▸ (hone c).mpr rfl) List.not_mem_nil
  of_one _ h := (h c).mp ((hone c).mpr rfl)
  of_numbers h := ((hone _).mp ((h .double).mpr (.inr rfl))).symm
  of_several := by
    rintro ⟨d, hd, e, he, hne⟩
    exact absurd (((hone d).mp hd).trans ((hone e).mp he).symm) hne

/-- Of two classes that are numbers, one is that of integers and the other that of doubles. -/
theorem areNumbers_iff {classes : List TypeClass} (h : AreMixed classes) :
    AreNumbers classes ↔ ∀ c ∈ classes, c = .integer ∨ c = .double := by
  refine ⟨fun hnumbers c => (hnumbers c).mp, fun hall c => ⟨hall c, ?_⟩⟩
  obtain ⟨d, hd, e, he, hne⟩ := h
  rcases hall d hd with rfl | rfl <;> rcases hall e he with rfl | rfl
  · exact absurd rfl hne
  · rintro (rfl | rfl) <;> assumption
  · rintro (rfl | rfl) <;> assumption
  · exact absurd rfl hne

theorem isTypeOf_of_mixed {classes : List TypeClass} {c : TypeClass} (h : AreMixed classes)
    (hnumbers : AreNumbers classes → c = .double)
    (hseveral : ¬AreNumbers classes → IsMostFrequent classes c) : IsTypeOf classes c where
  of_none hnil := by
    obtain ⟨d, hd, -⟩ := h
    exact absurd (hnil ▸ hd) List.not_mem_nil
  of_one d hone := by
    obtain ⟨e, he, f, hf, hne⟩ := h
    exact absurd (((hone e).mp he).trans ((hone f).mp hf).symm) hne
  of_numbers := hnumbers
  of_several _ := hseveral

theorem map_fst_classCounts (classes : List TypeClass) :
    (classCounts classes).map Prod.fst = classes.eraseDups := by
  rw [classCounts, List.map_map]
  exact List.map_id _

theorem one_lt_length_classCounts_iff {classes : List TypeClass} :
    1 < (classCounts classes).length ↔ AreMixed classes := by
  have hlength : (classCounts classes).length = classes.eraseDups.length := List.length_map _
  rw [hlength]
  constructor
  · intro hlt
    refine areMixed_of_forall ?_ fun d hone => ?_
    · rintro rfl
      exact absurd hlt (by decide)
    · -- the only class, once
      have hperm : classes.eraseDups.Perm [d] := by
        rw [List.perm_ext_iff_of_nodup (nodup_eraseDups _) (List.nodup_singleton d)]
        intro e
        rw [List.mem_eraseDups, hone, List.mem_singleton]
      rw [hperm.length_eq] at hlt
      exact absurd hlt (Nat.lt_irrefl 1)
  · rintro ⟨d, hd, e, he, hne⟩
    have hsub : [d, e] ⊆ classes.eraseDups := by
      simp [List.mem_eraseDups, hd, he]
    have hnodup : [d, e].Nodup := by simpa using hne
    exact (List.subperm_of_subset hnodup hsub).length_le

theorem isTypeOf_dataType {s : FieldSummary} {classes : List TypeClass}
    (h : s.classes = classCounts classes) : IsTypeOf classes s.dataType := by
  have hmem : ∀ c, c ∈ classes ↔ c ∈ s.classes.map Prod.fst := by
    intro c
    rw [h, map_fst_classCounts, List.mem_eraseDups]
  unfold FieldSummary.dataType
  split
  next hnil =>
    have hclasses : classes = [] := by
      rw [List.eq_nil_iff_forall_not_mem]
      intro c hc
      rw [hmem, hnil] at hc
      cases hc
    rw [hclasses]
    exact isTypeOf_nil
  next c n hone =>
    refine isTypeOf_of_one fun e => ?_
    rw [hmem, hone]
    exact List.mem_singleton
  next first rest hnone hclasses =>
    have hmixed : AreMixed classes := by
      rw [← one_lt_length_classCounts_iff, ← h, hclasses]
      cases rest with
      | nil => exact (hnone first.1 first.2 rfl rfl).elim
      | cons second rest => simp
    have hall : (s.classes.all fun c => c.1 = .integer || c.1 = .double) = true ↔
        AreNumbers classes := by
      rw [areNumbers_iff hmixed, List.all_eq_true]
      simp [hmem]
    refine isTypeOf_of_mixed hmixed ?_ ?_
    · exact fun hnumbers => if_pos (hall.mpr hnumbers)
    · intro hnumbers
      rw [if_neg fun htrue => hnumbers (hall.mp htrue)]
      exact isMostFrequent_mostFrequent (h ▸ hclasses)

/-! ### What documents have under a name -/

/-- The classes of the values that documents have under a name, value by value. -/
def classesOf (name : String) (docs : List Document) : List TypeClass :=
  (valuesOf name docs).filterMap Value.typeClass?

theorem mem_valuesOf {name : String} {docs : List Document} {v : Value} :
    v ∈ valuesOf name docs ↔ ∃ doc ∈ docs, doc.get? name = some v :=
  List.mem_filterMap

theorem typeClass?_eq_none_iff {v : Value} : v.typeClass? = none ↔ v = .null ∨ v = .undefined := by
  cases v <;> simp [Value.typeClass?]

theorem typeClass?_eq_array_iff {v : Value} :
    v.typeClass? = some .array ↔ ∃ items, v = .array items := by
  cases v <;> simp [Value.typeClass?]

section

variable {name : String} {docs : List Document}

theorem hasArray_of_iff : (FieldSummary.of name (valuesOf name docs)).hasArray = true ↔
    ∃ doc ∈ docs, ∃ items, doc.get? name = some (.array items) := by
  unfold FieldSummary.of
  simp only [List.any_eq_true, decide_eq_true_iff, typeClass?_eq_array_iff, mem_valuesOf]
  constructor
  · rintro ⟨v, ⟨doc, hdoc, hv⟩, items, rfl⟩
    exact ⟨doc, hdoc, items, hv⟩
  · rintro ⟨doc, hdoc, items, hv⟩
    exact ⟨.array items, ⟨doc, hdoc, hv⟩, items, rfl⟩

theorem nullable_of_iff : (FieldSummary.of name (valuesOf name docs)).nullable docs.length = true ↔
    (∃ doc ∈ docs, doc.get? name = none) ∨
      (∃ doc ∈ docs, doc.get? name = some .null ∨ doc.get? name = some .undefined) ∨
      AreMixed (classesOf name docs) := by
  have hseen : (valuesOf name docs).length < docs.length ↔ ∃ doc ∈ docs, doc.get? name = none := by
    rw [valuesOf, List.length_filterMap_lt_length_iff_exists]
    simp only [exists_prop]
  have hnulls : 0 < (valuesOf name docs).countP (·.typeClass? = none) ↔
      ∃ doc ∈ docs, doc.get? name = some .null ∨ doc.get? name = some .undefined := by
    simp only [List.countP_pos_iff, decide_eq_true_iff, typeClass?_eq_none_iff, mem_valuesOf]
    constructor
    · rintro ⟨v, ⟨doc, hdoc, hv⟩, rfl | rfl⟩
      · exact ⟨doc, hdoc, .inl hv⟩
      · exact ⟨doc, hdoc, .inr hv⟩
    · rintro ⟨doc, hdoc, hv | hv⟩
      · exact ⟨_, ⟨doc, hdoc, hv⟩, .inl rfl⟩
      · exact ⟨_, ⟨doc, hdoc, hv⟩, .inr rfl⟩
  rw [← hseen, ← hnulls, ← one_lt_length_classCounts_iff]
  unfold FieldSummary.nullable
  simp only [Bool.or_eq_true, decide_eq_true_iff, or_assoc]
  rfl

end

/-! ### Columns -/

/-- A column that tells what documents have under its name. -/
structure IsColumnOf (database collection : String) (docs : List Document) (c : Column) :
    Prop where
  database_eq : c.database = database
  collection_eq : c.collection = collection
  array_iff : c.array = true ↔ ∃ doc ∈ docs, ∃ items, doc.get? c.name = some (.array items)
  /-- Some document lacks the field or has null or undefined there, or its values are of two classes. -/
  nullable_iff : c.nullable = true ↔
    (∃ doc ∈ docs, doc.get? c.name = none) ∨
      (∃ doc ∈ docs, doc.get? c.name = some .null ∨ doc.get? c.name = some .undefined) ∨
      AreMixed (classesOf c.name docs)
  isTypeOf : IsTypeOf (classesOf c.name docs) c.dataType
  primaryKey_iff : c.primaryKey = true ↔ c.name = "_id"
  uniqueKey_iff : c.uniqueKey = true ↔ c.name = "_id"

/-- The order of columns: `_id` before the others, and these by their first places. -/
def ComesFirst (names : List String) (a b : String) : Prop :=
  a = "_id" ∨ b ≠ "_id" ∧ names.idxOf a < names.idxOf b

/-- The columns of documents: one for each name of a field, in order. -/
structure AreInferred (database collection : String) (docs : List Document)
    (columns : List Column) : Prop where
  mem_iff : ∀ name, name ∈ columns.map Column.name ↔ ∃ doc ∈ docs, name ∈ doc.names
  nodup : (columns.map Column.name).Nodup
  ordered : (columns.map Column.name).Pairwise (ComesFirst (docs.flatMap Fields.names))
  isColumnOf : ∀ c ∈ columns, IsColumnOf database collection docs c

variable {database collection : String} {docs : List Document} {columns : List Column}

theorem IsColumnOf.unique {c d : Column} (hc : IsColumnOf database collection docs c)
    (hd : IsColumnOf database collection docs d) (hname : c.name = d.name) : c = d := by
  cases c
  cases d
  obtain rfl : _ = _ := hname
  rw [Column.mk.injEq]
  exact ⟨hc.database_eq.trans hd.database_eq.symm, hc.collection_eq.trans hd.collection_eq.symm, rfl,
    hc.isTypeOf.unique hd.isTypeOf, Bool.eq_iff_iff.mpr (hc.nullable_iff.trans hd.nullable_iff.symm),
    Bool.eq_iff_iff.mpr (hc.primaryKey_iff.trans hd.primaryKey_iff.symm),
    Bool.eq_iff_iff.mpr (hc.uniqueKey_iff.trans hd.uniqueKey_iff.symm),
    Bool.eq_iff_iff.mpr (hc.array_iff.trans hd.array_iff.symm)⟩

theorem ComesFirst.antisymm {names : List String} {a b : String} (hab : ComesFirst names a b)
    (hba : ComesFirst names b a) : a = b := by
  rcases hab with ha | ⟨hb, hlt⟩
  · rcases hba with hb | ⟨ha', -⟩
    · exact ha.trans hb.symm
    · exact absurd ha ha'
  · rcases hba with hb' | ⟨-, hgt⟩
    · exact absurd hb' hb
    · exact absurd hlt (Nat.lt_asymm hgt)

theorem AreInferred.unique {others : List Column} (h : AreInferred database collection docs columns)
    (h' : AreInferred database collection docs others) : columns = others := by
  have hperm : (columns.map Column.name).Perm (others.map Column.name) := by
    rw [List.perm_ext_iff_of_nodup h.nodup h'.nodup]
    exact fun name => (h.mem_iff name).trans (h'.mem_iff name).symm
  have hnames : columns.map Column.name = others.map Column.name :=
    hperm.eq_of_pairwise (fun _ _ _ _ => ComesFirst.antisymm) h.ordered h'.ordered
  refine List.ext_getElem (by simpa using congrArg List.length hnames) fun i hi hi' => ?_
  have hname : columns[i].name = others[i].name := by
    simpa [hi, hi'] using congrArg (·[i]?) hnames
  exact (h.isColumnOf _ (List.getElem_mem hi)).unique (h'.isColumnOf _ (List.getElem_mem hi')) hname

theorem ordered_names_infer :
    ((infer database collection docs).map Column.name).Pairwise
      (ComesFirst (docs.flatMap Fields.names)) := by
  have hordered := pairwise_idxOf_eraseDups (docs.flatMap Fields.names)
  rw [names_infer, List.pairwise_append]
  refine ⟨?_, ?_, ?_⟩
  · refine (hordered.filter _).imp_of_mem fun ha _ _ => .inl ?_
    exact of_decide_eq_true (List.mem_filter.mp ha).2
  · refine (hordered.filter _).imp_of_mem fun _ hb hlt => .inr ⟨?_, hlt⟩
    exact of_decide_eq_true (List.mem_filter.mp hb).2
  · refine fun a ha b _ => .inl ?_
    exact of_decide_eq_true (List.mem_filter.mp ha).2

theorem isColumnOf_of_mem_infer (h : ∀ doc ∈ docs, doc.names.Nodup) {c : Column}
    (hc : c ∈ infer database collection docs) : IsColumnOf database collection docs c := by
  obtain ⟨s, hs, rfl⟩ := List.mem_map.mp hc
  have hs : s ∈ summarize docs := by
    rw [idFirst, List.mem_append, List.mem_filter, List.mem_filter] at hs
    exact hs.elim And.left And.left
  rw [summarize_eq] at hs
  obtain ⟨name, -, rfl⟩ := List.mem_map.mp hs
  rw [recorded_flatten h]
  exact {
    database_eq := rfl
    collection_eq := rfl
    array_iff := hasArray_of_iff
    nullable_iff := nullable_of_iff
    isTypeOf := isTypeOf_dataType rfl
    primaryKey_iff := decide_eq_true_iff
    uniqueKey_iff := decide_eq_true_iff }

theorem areInferred_infer (h : ∀ doc ∈ docs, doc.names.Nodup) :
    AreInferred database collection docs (infer database collection docs) where
  mem_iff _ := mem_names_infer database collection docs
  nodup := nodup_names_infer database collection docs
  ordered := ordered_names_infer
  isColumnOf _ := isColumnOf_of_mem_infer h

/-- **The columns that are inferred are those that the documents have.** -/
theorem infer_eq_iff {docs : List (Fields.Distinct Value)} :
    infer database collection (docs.map Fields.Distinct.fields) = columns ↔
      AreInferred database collection (docs.map Fields.Distinct.fields) columns := by
  have hinferred : AreInferred database collection (docs.map Fields.Distinct.fields)
      (infer database collection (docs.map Fields.Distinct.fields)) :=
    areInferred_infer fun _ => Fields.Distinct.nodup_of_mem
  constructor
  · rintro rfl
    exact hinferred
  · exact hinferred.unique

/-- Three orders, with a key that is not their first field. -/
def orders : List (Fields.Distinct Value) :=
  [⟨[("code", .string "a"), ("_id", .int32 1), ("total", .int32 20)], by decide⟩,
    ⟨[("_id", .int64 2), ("code", .int32 7), ("total", .double (.ofInt 15)), ("tags", .array [])],
      by decide⟩,
    ⟨[("_id", .int32 3), ("total", .null)], by decide⟩]

/-- Of the two classes of a code, that of texts came up first. -/
theorem areInferred_orders :
    AreInferred "shop" "orders" (orders.map Fields.Distinct.fields)
      [⟨"shop", "orders", "_id", .integer, false, true, true, false⟩,
        ⟨"shop", "orders", "code", .string, true, false, false, false⟩,
        ⟨"shop", "orders", "total", .double, true, false, false, false⟩,
        ⟨"shop", "orders", "tags", .array, true, false, false, true⟩] :=
  infer_eq_iff.mp (by decide +kernel)

end Keyset.Columns
