import Keyset.Proofs.Columns.Inference
import Keyset.Proofs.Connection.Introspection
import Keyset.Proofs.Store.Names

/-!
# Columns of larger samples

Further documents may add columns, but they never make one stricter (`Widens`): a column that may be
missing stays so, as does one that has arrays, and a column that is new may be missing.  So a larger
sample of a collection only widens its columns (`infer_widens`).

All that a column says of its field but the type is that some document is of some kind there, which
more documents cannot take back (`IsColumnOf.nullable_mono`, `IsColumnOf.array_mono`).  For the same
reason the order of the documents does not matter to it: it decides the order of the columns, and between
types that equally many values have, but nothing else (`facts_infer_perm`).
-/

namespace Keyset

/-- What a column says of its field, but for the type. -/
def Column.facts (c : Column) : String × Bool × Bool × Bool × Bool :=
  (c.name, c.nullable, c.array, c.primaryKey, c.uniqueKey)

namespace Columns

variable {database collection : String} {docs more : List Document} {c d : Column}

/-! ### One column, seen through more documents -/

theorem AreMixed.mono {classes others : List TypeClass} (h : AreMixed classes)
    (hsub : classes ⊆ others) : AreMixed others := by
  obtain ⟨a, ha, b, hb, hne⟩ := h
  exact ⟨a, hsub ha, b, hsub hb, hne⟩

theorem classesOf_subset (hsub : docs ⊆ more) (name : String) :
    classesOf name docs ⊆ classesOf name more := by
  intro a ha
  obtain ⟨v, hv, hclass⟩ := List.mem_filterMap.mp ha
  obtain ⟨doc, hdoc, hget⟩ := mem_valuesOf.mp hv
  have hmore : v ∈ valuesOf name more := mem_valuesOf.mpr ⟨doc, hsub hdoc, hget⟩
  exact List.mem_filterMap.mpr ⟨v, hmore, hclass⟩

namespace IsColumnOf

variable (hc : IsColumnOf database collection docs c) (hd : IsColumnOf database collection more d)

include hc hd

/-- A column that may be missing may be missing among more documents. -/
theorem nullable_mono (hsub : docs ⊆ more) (hname : d.name = c.name) (h : c.nullable = true) :
    d.nullable = true := by
  rw [hd.nullable_iff, hname]
  rcases hc.nullable_iff.mp h with ⟨doc, hdoc, hnone⟩ | ⟨doc, hdoc, hnull⟩ | hmixed
  · exact .inl ⟨doc, hsub hdoc, hnone⟩
  · exact .inr (.inl ⟨doc, hsub hdoc, hnull⟩)
  · exact .inr (.inr (hmixed.mono (classesOf_subset hsub c.name)))

/-- A column that has arrays has them among more documents. -/
theorem array_mono (hsub : docs ⊆ more) (hname : d.name = c.name) (h : c.array = true) :
    d.array = true := by
  rw [hd.array_iff, hname]
  obtain ⟨doc, hdoc, harray⟩ := hc.array_iff.mp h
  exact ⟨doc, hsub hdoc, harray⟩

/-- The documents decide what a column says of its field, whatever their order and however often each
of them is there. -/
theorem facts_eq (hsub : docs ⊆ more) (hsub' : more ⊆ docs) (hname : d.name = c.name) :
    d.facts = c.facts := by
  have hnullable : d.nullable = c.nullable := Bool.eq_iff_iff.mpr
    ⟨hd.nullable_mono hc hsub' hname.symm, hc.nullable_mono hd hsub hname⟩
  have harray : d.array = c.array := Bool.eq_iff_iff.mpr
    ⟨hd.array_mono hc hsub' hname.symm, hc.array_mono hd hsub hname⟩
  have hprimary : d.primaryKey = c.primaryKey := by
    rw [Bool.eq_iff_iff, hd.primaryKey_iff, hc.primaryKey_iff, hname]
  have hunique : d.uniqueKey = c.uniqueKey := by
    rw [Bool.eq_iff_iff, hd.uniqueKey_iff, hc.uniqueKey_iff, hname]
  simp only [Column.facts, hname, hnullable, harray, hprimary, hunique]

end IsColumnOf

/-! ### All columns -/

/-- Columns that are no stricter than those of some documents: each of them is kept, in its place but
for the key, and those that are new may be missing. -/
structure Widens (docs : List Document) (columns wider : List Column) : Prop where
  kept : ∀ c ∈ columns, ∃ d ∈ wider,
    d.database = c.database ∧ d.collection = c.collection ∧ d.name = c.name
  inOrder : (columns.map Column.name).filter (· ≠ "_id") <+:
    (wider.map Column.name).filter (· ≠ "_id")
  nullable : ∀ c ∈ columns, ∀ d ∈ wider, d.name = c.name → c.nullable = true → d.nullable = true
  array : ∀ c ∈ columns, ∀ d ∈ wider, d.name = c.name → c.array = true → d.array = true
  new : docs ≠ [] → ∀ d ∈ wider, d.name ∉ columns.map Column.name → d.nullable = true

/-- The columns other than the key stand in the order of the first places of their names. -/
theorem filter_names_infer :
    ((infer database collection docs).map Column.name).filter (· ≠ "_id") =
      (docs.flatMap Fields.names).eraseDups.filter (· ≠ "_id") := by
  have hkey (names : List String) :
      (names.filter (· = Projection.idField)).filter (· ≠ "_id") = [] := by
    rw [List.filter_eq_nil_iff]
    intro name hname
    have hid : name = "_id" := of_decide_eq_true (List.mem_filter.mp hname).2
    simp [hid]
  have hothers (names : List String) :
      (names.filter (· ≠ Projection.idField)).filter (· ≠ "_id") = names.filter (· ≠ "_id") := by
    rw [List.filter_filter]
    exact List.filter_congr fun name _ => Bool.and_self (decide (name ≠ "_id"))
  rw [names_infer, List.filter_append, hkey, hothers, List.nil_append]

/-- Names that come later do not move the first places. -/
theorem eraseDups_initial (names others : List String) :
    names.eraseDups <+: (names ++ others).eraseDups := by
  rw [List.eraseDups_append]
  exact List.prefix_append _ _

theorem get?_of_new (hnew : d.name ∉ (infer database collection docs).map Column.name)
    {doc : Document} (hdoc : doc ∈ docs) : doc.get? d.name = none := by
  refine Fields.get?_of_notMem fun hmem => hnew ?_
  exact (mem_names_infer database collection docs).mpr ⟨doc, hdoc, hmem⟩

/-- Further documents only widen the columns. -/
theorem widens_infer_append (h : ∀ doc ∈ docs ++ more, doc.names.Nodup) :
    Widens docs (infer database collection docs) (infer database collection (docs ++ more)) := by
  have hdocs : ∀ doc ∈ docs, doc.names.Nodup := fun doc hdoc => h doc (List.mem_append_left _ hdoc)
  have hsub : docs ⊆ docs ++ more := List.subset_append_left _ _
  refine ⟨?_, ?_, ?_, ?_, ?_⟩
  · intro c hc
    have hname : c.name ∈ (infer database collection docs).map Column.name := List.mem_map_of_mem hc
    obtain ⟨doc, hdoc, hmem⟩ := (mem_names_infer database collection docs).mp hname
    have hwider : c.name ∈ (infer database collection (docs ++ more)).map Column.name :=
      (mem_names_infer database collection _).mpr ⟨doc, hsub hdoc, hmem⟩
    obtain ⟨d, hd, hdname⟩ := List.mem_map.mp hwider
    obtain ⟨hdatabase, hcollection, -⟩ := exists_of_mem_infer hc
    obtain ⟨hdatabase', hcollection', -⟩ := exists_of_mem_infer hd
    exact ⟨d, hd, hdatabase'.trans hdatabase.symm, hcollection'.trans hcollection.symm, hdname⟩
  · rw [filter_names_infer, filter_names_infer, List.flatMap_append]
    exact (eraseDups_initial _ _).filter _
  · intro c hc d hd hname
    exact (isColumnOf_of_mem_infer hdocs hc).nullable_mono (isColumnOf_of_mem_infer h hd) hsub hname
  · intro c hc d hd hname
    exact (isColumnOf_of_mem_infer hdocs hc).array_mono (isColumnOf_of_mem_infer h hd) hsub hname
  · intro hne d hd hnew
    -- the first of the documents lacks the field
    obtain ⟨doc, hdoc⟩ := List.exists_mem_of_ne_nil docs hne
    rw [(isColumnOf_of_mem_infer h hd).nullable_iff]
    exact .inl ⟨doc, hsub hdoc, get?_of_new hnew hdoc⟩

theorem nodup_facts_infer : ((infer database collection docs).map Column.facts).Nodup := by
  have hnames : ((infer database collection docs).map Column.facts).map Prod.fst =
      (infer database collection docs).map Column.name := List.map_map
  refine .of_map Prod.fst ?_
  rw [hnames]
  exact nodup_names_infer database collection docs

theorem facts_infer_subset (hdocs : ∀ doc ∈ docs, doc.names.Nodup)
    (hmore : ∀ doc ∈ more, doc.names.Nodup) (hsub : docs ⊆ more) (hsub' : more ⊆ docs) :
    (infer database collection docs).map Column.facts ⊆
      (infer database collection more).map Column.facts := by
  intro facts hfacts
  obtain ⟨c, hc, rfl⟩ := List.mem_map.mp hfacts
  have hname : c.name ∈ (infer database collection docs).map Column.name := List.mem_map_of_mem hc
  obtain ⟨doc, hdoc, hmem⟩ := (mem_names_infer database collection docs).mp hname
  have hother : c.name ∈ (infer database collection more).map Column.name :=
    (mem_names_infer database collection more).mpr ⟨doc, hsub hdoc, hmem⟩
  obtain ⟨d, hd, hdname⟩ := List.mem_map.mp hother
  have heq : d.facts = c.facts := (isColumnOf_of_mem_infer hdocs hc).facts_eq
    (isColumnOf_of_mem_infer hmore hd) hsub hsub' hdname
  exact heq ▸ List.mem_map_of_mem hd

/-- The order of the documents does not matter to what the columns say of their fields. -/
theorem facts_infer_perm (h : ∀ doc ∈ docs, doc.names.Nodup) {shuffled : List Document}
    (hperm : shuffled.Perm docs) :
    ((infer database collection shuffled).map Column.facts).Perm
      ((infer database collection docs).map Column.facts) := by
  have hshuffled : ∀ doc ∈ shuffled, doc.names.Nodup := fun doc hdoc => h doc (hperm.subset hdoc)
  rw [List.perm_ext_iff_of_nodup nodup_facts_infer nodup_facts_infer]
  intro facts
  constructor
  · apply facts_infer_subset hshuffled h hperm.subset hperm.symm.subset
  · apply facts_infer_subset h hshuffled hperm.symm.subset hperm.subset

/-! ### Samples of a store in memory -/

/-- The first documents of a collection are among the first ones of a larger sample. -/
theorem widens_infer_take (h : ∀ doc ∈ docs, doc.names.Nodup) {small large : Nat}
    (hle : small ≤ large) :
    Widens (docs.take small) (infer database collection (docs.take small))
      (infer database collection (docs.take large)) := by
  obtain ⟨more, hmore⟩ : docs.take small <+: docs.take large := List.take_prefix_take_left hle
  rw [← hmore]
  refine widens_infer_append fun doc hdoc => h doc ?_
  rw [hmore] at hdoc
  exact List.mem_of_mem_take hdoc

/-- **Larger samples only widen the columns, and reordered ones change nothing but their types.**
Further documents keep every column, in its place but for the key, take back neither that it may be
missing nor that it has arrays, and add only columns that may be missing.  In whatever order documents
come, the same is said of their fields.  So of two introspections of a store in memory that differ in the
size of their samples, the larger answers wider columns of every collection. -/
theorem infer_widens (database collection : String) :
    (∀ docs more : List (Fields.Distinct Value),
      Widens (docs.map Fields.Distinct.fields)
        (infer database collection (docs.map Fields.Distinct.fields))
        (infer database collection ((docs ++ more).map Fields.Distinct.fields))) ∧
    (∀ docs shuffled : List (Fields.Distinct Value), shuffled.Perm docs →
      ((infer database collection (shuffled.map Fields.Distinct.fields)).map Column.facts).Perm
        ((infer database collection (docs.map Fields.Distinct.fields)).map Column.facts)) ∧
    ∀ (conn : Connection) (m : Memory.Distinct) (collections : List String) (small large : UInt64),
      collections.Nodup → small ≤ large →
      ∃ columns wider : List Column,
        (conn.columnsOf Memory.store small collections).run m.toMemory = (.ok columns, m.toMemory) ∧
        (conn.columnsOf Memory.store large collections).run m.toMemory = (.ok wider, m.toMemory) ∧
        ∀ name ∈ collections, ∃ sample,
          (Memory.store.sample conn.database name small).run m.toMemory =
            (.ok sample, m.toMemory) ∧
          sample <+: m.documents conn.database name ∧
          Widens sample (columns.filter (·.collection = name))
            (wider.filter (·.collection = name)) := by
  refine ⟨fun docs more => ?_, fun docs shuffled hperm => ?_, ?_⟩
  · rw [List.map_append]
    refine widens_infer_append fun doc hdoc => ?_
    rw [← List.map_append] at hdoc
    exact Fields.Distinct.nodup_of_mem hdoc
  · exact facts_infer_perm (fun _ => Fields.Distinct.nodup_of_mem) (hperm.map _)
  intro conn m collections small large hnodup hle
  refine ⟨_, _, conn.run_columnsOf m.toMemory small collections,
    conn.run_columnsOf m.toMemory large collections, ?_⟩
  intro name hname
  refine ⟨(m.documents conn.database name).take small.toNat, rfl, List.take_prefix _ _, ?_⟩
  rw [filter_inferAll hnodup, filter_inferAll hnodup, if_pos hname, if_pos hname]
  exact widens_infer_take (m.nodup conn.database name) hle

/-- A shop with the three orders. -/
def shop : Memory.Distinct :=
  Memory.Distinct.empty.insertMany "shop" "orders" orders

/-- The first order alone has a code that is never missing; the second adds tags. -/
theorem infer_widens_orders :
    orders.reverse.Perm orders ∧
      Widens ((orders.take 1).map Fields.Distinct.fields)
        (infer "shop" "orders" ((orders.take 1).map Fields.Distinct.fields))
        (infer "shop" "orders" ((orders.take 1 ++ orders.drop 1).map Fields.Distinct.fields)) ∧
      ((infer "shop" "orders" (orders.reverse.map Fields.Distinct.fields)).map Column.facts).Perm
        ((infer "shop" "orders" (orders.map Fields.Distinct.fields)).map Column.facts) ∧
      ∃ columns wider : List Column,
        ((Connection.toDatabase "shop").columnsOf Memory.store 1 ["orders"]).run shop.toMemory =
          (.ok columns, shop.toMemory) ∧
        ((Connection.toDatabase "shop").columnsOf Memory.store 3 ["orders"]).run shop.toMemory =
          (.ok wider, shop.toMemory) ∧
        ∀ name ∈ ["orders"], ∃ sample,
          (Memory.store.sample "shop" name 1).run shop.toMemory = (.ok sample, shop.toMemory) ∧
          sample <+: shop.documents "shop" name ∧
          Widens sample (columns.filter (·.collection = name))
            (wider.filter (·.collection = name)) := by
  have hperm : orders.reverse.Perm orders := List.reverse_perm orders
  obtain ⟨hmore, hshuffled, hsamples⟩ := infer_widens "shop" "orders"
  exact ⟨hperm, hmore _ _, hshuffled _ _ hperm,
    hsamples (.toDatabase "shop") shop ["orders"] 1 3 (by decide) (by decide)⟩

end Columns

end Keyset
