import Keyset.Proofs.Schema.Catalog
import Mathlib.Algebra.BigOperators.Group.List.Basic
import Mathlib.Algebra.GroupWithZero.Nat

/-!
# Relations counted by their tables

Every relation of a catalog leads from one of its tables and to one of its tables, and a table is there
once.  So the relations that lead from the tables, added up over all tables, are all relations, and so
are those that lead to them; a relation between a table and itself is among both for that table, and once
among the relations that touch it (`build_counts_relations`).

The relations of one side are counted by `sum_length_filter`, for both sides at once.  A catalog in which
every relation is turned round is made by the calls with the relations turned round (`build_inverse`).
-/

namespace Keyset

/-! ### Relations turned round -/

namespace Relation

theorem touches_inverse (r : Relation) (t : TableRef) : r.inverse.touches t = r.touches t :=
  Bool.or_comm _ _

theorem isCrossDatabase_inverse (r : Relation) : r.inverse.isCrossDatabase = r.isCrossDatabase := by
  unfold isCrossDatabase inverse
  cases r.left.table.database? with
  | none => cases r.right.table.database? <;> rfl
  | some a =>
    cases r.right.table.database? with
    | none => rfl
    | some b => exact decide_eq_decide.mpr ne_comm

end Relation

namespace CatalogCall

/-- The relation that a call is to add. -/
def relation? : CatalogCall → Option Relation
  | addTable _ => none
  | addRelation r => some r

/-- The call with its relation turned round; a table is added as it is. -/
def inverse : CatalogCall → CatalogCall
  | addTable e => addTable e
  | addRelation r => addRelation r.inverse

end CatalogCall

namespace Catalog

variable {c : Catalog}

/-- The catalog with every relation turned round. -/
def inverse (c : Catalog) : Catalog :=
  { c with relations := c.relations.map Relation.inverse }

/-- A call and its inverse do the same to a catalog and its inverse; where both tables are missing, they
fail for different reasons. -/
theorem after_inverse (c : Catalog) (call : CatalogCall) :
    c.inverse.after call.inverse = (c.after call).inverse := by
  have hhas : ∀ t, c.inverse.has t = c.has t := fun _ => rfl
  cases call with
  | addTable e =>
    show ((CatalogM.addTable e).run c.inverse).2 = ((CatalogM.addTable e).run c).2.inverse
    rw [CatalogM.run_addTable, CatalogM.run_addTable, hhas]
    split_ifs <;> rfl
  | addRelation r =>
    show ((CatalogM.addRelation r.inverse).run c.inverse).2 =
      ((CatalogM.addRelation r).run c).2.inverse
    have hleft : c.inverse.has r.inverse.left.table = c.has r.right.table := rfl
    have hright : c.inverse.has r.inverse.right.table = c.has r.left.table := rfl
    rw [CatalogM.run_addRelation, CatalogM.run_addRelation, hleft, hright]
    -- the sides are looked up in another order, but both calls need both
    cases c.has r.left.table <;> cases c.has r.right.table <;> simp [inverse]

theorem build_inverse (calls : List CatalogCall) :
    build (calls.map CatalogCall.inverse) = (build calls).inverse := by
  unfold build
  have hempty : empty = empty.inverse := rfl
  conv_lhs => rw [hempty]
  generalize empty = c
  induction calls generalizing c with
  | nil => rfl
  | cons call calls ih => rw [List.map_cons, List.foldl_cons, List.foldl_cons, after_inverse, ih]

/-- What a table has in a catalog turned round: the relations with a property are those that have it once
they are turned round. -/
theorem filter_inverse {p q : Relation → Bool} (h : ∀ r : Relation, p r.inverse = q r) :
    c.inverse.relations.filter p = (c.relations.filter q).map Relation.inverse := by
  have hcomp : p ∘ Relation.inverse = q := funext h
  show (c.relations.map Relation.inverse).filter p = _
  rw [List.filter_map, hcomp]

/-! ### Counting -/

/-- The relations between a table and itself. -/
def selfReferences (c : Catalog) (table : TableRef) : List Relation :=
  c.relations.filter fun r => r.isSelfReference && r.left.table = table

theorem sum_indicator (tables : List TableRef) (t : TableRef) :
    (tables.map fun other => if other = t then 1 else 0).sum = tables.count t := by
  induction tables with
  | nil => rfl
  | cons other tables ih =>
    rw [List.map_cons, List.sum_cons, ih, List.count_cons, Nat.add_comm]
    simp only [beq_iff_eq]

/-- Relations that have a table each on some side, counted table by table: each counts once, for the one
table that it has on that side. -/
theorem sum_length_filter {tables : List TableRef} (hnodup : tables.Nodup)
    (side : Relation → TableRef) {relations : List Relation} (h : ∀ r ∈ relations, side r ∈ tables) :
    (tables.map fun t => (relations.filter fun r => side r = t).length).sum = relations.length := by
  induction relations with
  | nil => simp
  | cons r relations ih =>
    rw [List.forall_mem_cons] at h
    have hcons : ∀ t, ((r :: relations).filter fun r => side r = t).length =
        (if t = side r then 1 else 0) + (relations.filter fun r => side r = t).length := by
      intro t
      rw [List.filter_cons]
      by_cases ht : t = side r
      · simp [ht, Nat.add_comm]
      · simp [ht, Ne.symm ht]
    -- the first relation counts for one table of the list
    have hone : (tables.map fun t => if t = side r then 1 else 0).sum = 1 := by
      rw [sum_indicator, List.count_eq_one_of_mem hnodup h.1]
    simp only [hcons]
    rw [List.sum_map_add, hone, ih h.2, List.length_cons, Nat.add_comm]

/-- What has one of two properties and what has both are, together, what has the one and what has the
other. -/
theorem length_filter_or_add_and (p q : Relation → Bool) (relations : List Relation) :
    (relations.filter fun r => p r || q r).length + (relations.filter fun r => p r && q r).length =
      (relations.filter p).length + (relations.filter q).length := by
  induction relations with
  | nil => rfl
  | cons r relations ih =>
    simp only [List.filter_cons]
    cases p r <;> cases q r <;> simp <;> omega

/-! ### After any calls -/

theorem relations_foldl (c : Catalog) (calls : List CatalogCall) :
    (calls.foldl after c).relations =
      c.relations ++ (c.accepted calls).filterMap CatalogCall.relation? := by
  refine read_foldl (fun c call hanswer => ?_) c calls
  cases call with
  | addTable e => rw [(after_addTable hanswer).2, CatalogCall.relation?, Option.toList_none,
      List.append_nil]
  | addRelation r => rw [(after_addRelation hanswer).2.2, CatalogCall.relation?, Option.toList_some]

/-- Some relations are those of all that have a property: in the order of all, and as often as there. -/
structure Selects (property : Relation → Prop) (all some : List Relation) : Prop where
  sublist : some.Sublist all
  count : ∀ r, (property r → some.count r = all.count r) ∧ (¬property r → r ∉ some)

theorem selects_filter {property : Relation → Prop} {p : Relation → Bool}
    (h : ∀ r, p r = true ↔ property r) (relations : List Relation) :
    Selects property relations (relations.filter p) where
  sublist := List.filter_sublist
  count r := by
    refine ⟨fun hr => List.count_filter ((h r).mpr hr), fun hr hmem => hr ?_⟩
    exact (h r).mp (List.mem_filter.mp hmem).2

/-- Whether a relation is one of a table with itself. -/
def LoopsAt (table : TableRef) (r : Relation) : Prop :=
  r.left.table = table ∧ r.right.table = table

theorem loopsAt_iff {table : TableRef} {r : Relation} :
    (r.isSelfReference && r.left.table = table) = true ↔ LoopsAt table r := by
  unfold Relation.isSelfReference LoopsAt
  rw [Bool.and_eq_true, decide_eq_true_iff, decide_eq_true_iff]
  constructor
  · rintro ⟨heq, rfl⟩
    exact ⟨rfl, heq.symm⟩
  · rintro ⟨rfl, hright⟩
    exact ⟨hright.symm, rfl⟩

/-- A relation of a table with itself touches the table once and leads both from it and to it. -/
theorem length_relationsFor_add_selfReferences (c : Catalog) (t : TableRef) :
    (c.relationsFor t).length + (c.selfReferences t).length =
      (c.outgoing t).length + (c.incoming t).length := by
  have hself : c.selfReferences t =
      c.relations.filter fun r => r.left.table = t && r.right.table = t := by
    refine List.filter_congr fun r _ => ?_
    rw [Bool.eq_iff_iff, loopsAt_iff, LoopsAt, Bool.and_eq_true, decide_eq_true_iff,
      decide_eq_true_iff]
  rw [hself]
  exact length_filter_or_add_and _ _ _

/-- How the relations of a catalog that was made by calls are divided among its tables. -/
structure CountsRelations (calls : List CatalogCall) (c : Catalog) : Prop where
  /-- The relations are those of the calls that succeeded, in order. -/
  relations_eq : c.relations = (empty.accepted calls).filterMap CatalogCall.relation?
  /-- The relations that lead from the tables are, together, all relations. -/
  sum_outgoing : (c.tables.map fun e => (c.outgoing e.table).length).sum = c.relations.length
  /-- The relations that lead to the tables are, together, all relations. -/
  sum_incoming : (c.tables.map fun e => (c.incoming e.table).length).sum = c.relations.length
  /-- Relations of a table with itself are counted on both sides, but touch it once. -/
  relationsFor_add_selfReferences : ∀ t,
    (c.relationsFor t).length + (c.selfReferences t).length =
      (c.outgoing t).length + (c.incoming t).length
  relationsFor_selects : ∀ t,
    Selects (fun r => r.left.table = t ∨ r.right.table = t) c.relations (c.relationsFor t)
  outgoing_selects : ∀ t, Selects (fun r => r.left.table = t) c.relations (c.outgoing t)
  incoming_selects : ∀ t, Selects (fun r => r.right.table = t) c.relations (c.incoming t)
  selfReferences_selects : ∀ t, Selects (LoopsAt t) c.relations (c.selfReferences t)
  /-- A table that is not in the catalog has no relations. -/
  not_holds : ∀ t, ¬c.Holds t → c.relationsFor t = [] ∧ c.outgoing t = [] ∧ c.incoming t = []
  /-- The calls with every relation turned round make the catalog with every relation turned round. -/
  build_inverse : build (calls.map CatalogCall.inverse) = c.inverse
  outgoing_inverse : ∀ t, c.inverse.outgoing t = (c.incoming t).map Relation.inverse
  incoming_inverse : ∀ t, c.inverse.incoming t = (c.outgoing t).map Relation.inverse
  relationsFor_inverse : ∀ t, c.inverse.relationsFor t = (c.relationsFor t).map Relation.inverse
  crossDatabaseRelations_inverse :
    c.inverse.crossDatabaseRelations = c.crossDatabaseRelations.map Relation.inverse

/-- **The relations of a catalog add up**: after any calls, of which any may have failed, each relation
is counted once among those that lead from the tables and once among those that lead to them, relations
between the same tables and of a table with itself included. -/
theorem build_counts_relations (calls : List CatalogCall) :
    CountsRelations calls (build calls) := by
  have hconsistent := consistent_build calls
  have hmem : ∀ {t}, (build calls).Holds t → t ∈ (build calls).tables.map TableEntry.table :=
    fun h => List.mem_map.mpr h
  refine
    { relations_eq := relations_foldl empty calls
      sum_outgoing := ?_
      sum_incoming := ?_
      relationsFor_add_selfReferences := length_relationsFor_add_selfReferences _
      relationsFor_selects := fun t => selects_filter (fun r => ?_) _
      outgoing_selects := fun t => selects_filter (fun r => decide_eq_true_iff) _
      incoming_selects := fun t => selects_filter (fun r => decide_eq_true_iff) _
      selfReferences_selects := fun t => selects_filter (fun r => loopsAt_iff) _
      not_holds := fun t ht => ?_
      build_inverse := build_inverse calls
      outgoing_inverse := fun t => filter_inverse fun _ => rfl
      incoming_inverse := fun t => filter_inverse fun _ => rfl
      relationsFor_inverse := fun t => filter_inverse fun r => r.touches_inverse t
      crossDatabaseRelations_inverse := filter_inverse Relation.isCrossDatabase_inverse }
  · rw [← sum_length_filter hconsistent.nodup (fun r => r.left.table)
      fun r hr => hmem (hconsistent.left_holds r hr), List.map_map]
    rfl
  · rw [← sum_length_filter hconsistent.nodup (fun r => r.right.table)
      fun r hr => hmem (hconsistent.right_holds r hr), List.map_map]
    rfl
  · rw [Relation.touches, Bool.or_eq_true, decide_eq_true_iff, decide_eq_true_iff]
  · -- both sides of a relation are in the catalog
    have hleft : ∀ r ∈ (build calls).relations, r.left.table ≠ t :=
      fun r hr heq => ht (heq ▸ hconsistent.left_holds r hr)
    have hright : ∀ r ∈ (build calls).relations, r.right.table ≠ t :=
      fun r hr heq => ht (heq ▸ hconsistent.right_holds r hr)
    refine ⟨?_, ?_, ?_⟩
    · refine List.filter_eq_nil_iff.mpr fun r hr => ?_
      simp [Relation.touches, hleft r hr, hright r hr]
    · exact List.filter_eq_nil_iff.mpr fun r hr => by simp [hleft r hr]
    · exact List.filter_eq_nil_iff.mpr fun r hr => by simp [hright r hr]

end Catalog

end Keyset
