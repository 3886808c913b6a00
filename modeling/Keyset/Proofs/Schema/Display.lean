import Keyset.Proofs.Text.Cutting
import Keyset.Schema.Catalog

/-!
# Tables that print alike

The text of a table is its three names with points between them.  The names may have points of their
own, and the label of the default database may be the name of another one, so different tables can print
alike.  A text stands for one table among those of a shape, which says how many of the points belong to
which name (`eq_iff_display_eq`), and for one table at all only if nothing but the first character of
the database is a point and the label of the default database does not occur (`printsAlone_iff`).
-/

namespace Keyset

/-- Where texts have as many separators before a separator, they are equal just if they are so before
and behind it. -/
theorem Text.append_cons_eq_iff {sep : Char} {a b s t : List Char} (h : a.count sep = b.count sep) :
    a ++ sep :: s = b ++ sep :: t ↔ a = b ∧ s = t := by
  induction a generalizing b with
  | nil =>
    cases b with
    | nil => simp
    | cons c b =>
      have hc : sep ≠ c := by
        rintro rfl
        rw [List.count_cons_self] at h
        exact absurd h (Nat.succ_ne_zero _).symm
      simp [hc]
  | cons d a ih =>
    cases b with
    | nil =>
      have hd : d ≠ sep := by
        rintro rfl
        rw [List.count_cons_self] at h
        exact absurd h (Nat.succ_ne_zero _)
      simp [hd]
    | cons c b =>
      by_cases hcd : d = c
      · subst hcd
        rw [List.count_cons, List.count_cons, Nat.add_right_cancel_iff] at h
        rw [List.cons_append, List.cons_append, List.cons.injEq, ih h, List.cons.injEq, and_assoc]
      · simp [hcd]

theorem SchemaError.message_unknownTable (t : TableRef) :
    (unknownTable t).message = "Table not registered: " ++ t.display :=
  rfl

theorem SchemaError.message_duplicateTable (t : TableRef) :
    (duplicateTable t).message = "Table already registered: " ++ t.display :=
  rfl

namespace TableRef

/-! ### The text of a table -/

/-- The first of the names in the text of a table. -/
def label (t : TableRef) : String :=
  t.database?.getD "<default>"

theorem label_of_default {t : TableRef} (h : t.database = "") : t.label = "<default>" := by
  rw [label, database?, if_pos h]
  rfl

theorem label_of_named {t : TableRef} (h : t.database ≠ "") : t.label = t.database := by
  rw [label, database?, if_neg h]
  rfl

theorem isDefaultDatabase_iff {t : TableRef} : t.isDefaultDatabase = true ↔ t.database = "" := by
  rw [isDefaultDatabase, database?]
  split_ifs with h <;> simp [h]

theorem label_ne_nil (t : TableRef) : t.label.toList ≠ [] := by
  by_cases h : t.database = ""
  · rw [label_of_default h]
    decide
  · rw [label_of_named h]
    exact fun hnil => h (String.toList_inj.mp hnil)

theorem toList_display (t : TableRef) :
    t.display.toList = t.label.toList ++ '.' :: (t.schema.toList ++ '.' :: t.name.toList) := by
  have hpoint : ".".toList = ['.'] := by decide
  show (t.label ++ "." ++ t.schema ++ "." ++ t.name).toList = _
  simp only [String.toList_append, hpoint, List.append_assoc, List.cons_append, List.nil_append]

theorem display_eq_iff {a b : TableRef} : a.display = b.display ↔
    a.label.toList ++ '.' :: (a.schema.toList ++ '.' :: a.name.toList) =
      b.label.toList ++ '.' :: (b.schema.toList ++ '.' :: b.name.toList) := by
  rw [← String.toList_inj, toList_display, toList_display]

/-- The points in the text of a table are two more than those in its names. -/
theorem count_display (t : TableRef) :
    t.display.toList.count '.' =
      t.label.toList.count '.' + t.schema.toList.count '.' + t.name.toList.count '.' + 2 := by
  rw [toList_display, List.count_append, List.count_cons_self, List.count_append,
    List.count_cons_self]
  omega

/-! ### Shapes -/

/-- How the text of a table is to be taken apart: how many points belong to the first two names, and
whether the first one is the label of the default database. -/
structure Shape where
  labelPoints : Nat
  schemaPoints : Nat
  isDefault : Bool
deriving DecidableEq, Repr

/-- The shape of a table. -/
def shape (t : TableRef) : Shape where
  labelPoints := t.label.toList.count '.'
  schemaPoints := t.schema.toList.count '.'
  isDefault := t.isDefaultDatabase

/-- Tables that print alike have the same names in their texts if the points are divided alike. -/
theorem names_eq_of_display_eq {a b : TableRef} (h : a.display = b.display)
    (hlabel : a.label.toList.count '.' = b.label.toList.count '.')
    (hschema : a.schema.toList.count '.' = b.schema.toList.count '.') :
    a.label = b.label ∧ a.schema = b.schema ∧ a.name = b.name := by
  rw [display_eq_iff, Text.append_cons_eq_iff hlabel, Text.append_cons_eq_iff hschema] at h
  simpa only [String.toList_inj] using h

theorem append_display_eq_iff (lead : String) {a b : TableRef} :
    lead ++ a.display = lead ++ b.display ↔ a.display = b.display := by
  rw [← String.toList_inj, String.toList_append, String.toList_append, List.append_cancel_left_eq,
    String.toList_inj]

theorem database_eq_of_label_eq {a b : TableRef} (h : a.label = b.label)
    (hdefault : a.database = "" ↔ b.database = "") : a.database = b.database := by
  by_cases ha : a.database = ""
  · rw [ha, hdefault.mp ha]
  · rwa [label_of_named ha, label_of_named fun hb => ha (hdefault.mpr hb)] at h

/-- Tables are equal if they print alike and are of one shape. -/
theorem eq_iff_display_eq {a b : TableRef} :
    a = b ↔ a.display = b.display ∧ a.shape = b.shape := by
  constructor
  · rintro rfl
    exact ⟨rfl, rfl⟩
  · rintro ⟨hdisplay, hshape⟩
    simp only [shape, Shape.mk.injEq] at hshape
    obtain ⟨hlabel, hschema, hdefault⟩ := hshape
    obtain ⟨hlabels, hschemas, hnames⟩ := names_eq_of_display_eq hdisplay hlabel hschema
    have hdatabases : a.database = b.database := by
      refine database_eq_of_label_eq hlabels ?_
      rw [← isDefaultDatabase_iff, ← isDefaultDatabase_iff, hdefault]
    cases a
    cases b
    simp_all

/-! ### Tables that print like no other -/

/-- Whether no other table prints like a table. -/
def PrintsAlone (t : TableRef) : Prop :=
  ∀ u : TableRef, u.display = t.display → u = t

/-- Whether the text of a table can be taken apart in one way: the database is neither the default one
nor named as that is labelled, and nothing but its first character is a point. -/
structure IsClear (t : TableRef) : Prop where
  named : t.database ≠ ""
  ne_label : t.database ≠ "<default>"
  database_tail : '.' ∉ t.database.toList.tail
  schema : '.' ∉ t.schema.toList
  name : '.' ∉ t.name.toList

/-- The other ways to take a text apart are those of other tables. -/
theorem PrintsAlone.isClear {t : TableRef} (h : t.PrintsAlone) : t.IsClear := by
  have hnamed : t.database ≠ "" := by
    intro hdefault
    have hother : (⟨"<default>", t.schema, t.name⟩ : TableRef) = t := by
      refine h _ (display_eq_iff.mpr ?_)
      rw [label_of_default hdefault]
      rfl
    have hdatabase : "<default>" = "" := (congrArg database hother).trans hdefault
    exact absurd hdatabase (by decide)
  refine ⟨hnamed, fun hlabelled => ?_, fun hpoint => ?_, fun hpoint => ?_, fun hpoint => ?_⟩
  · have hother : inDefault t.schema t.name = t := by
      refine h _ (display_eq_iff.mpr ?_)
      rw [label_of_named hnamed, hlabelled]
      rfl
    exact hnamed (congrArg database hother).symm
  · -- what stands behind the point of the database could be in the schema
    obtain ⟨x, y, hxy⟩ := List.append_of_mem hpoint
    obtain ⟨c, s, hs⟩ := List.exists_cons_of_ne_nil (t.label_ne_nil)
    rw [label_of_named hnamed] at hs
    rw [hs, List.tail_cons] at hxy
    have hfirst : String.ofList (c :: x) ≠ "" := fun hnil => by
      simpa using congrArg String.toList hnil
    have hother : (⟨String.ofList (c :: x), String.ofList (y ++ '.' :: t.schema.toList), t.name⟩ :
        TableRef) = t := by
      refine h _ (display_eq_iff.mpr ?_)
      rw [label_of_named hnamed, label_of_named hfirst, hs, hxy]
      simp
    have hlength := congrArg (fun u : TableRef => u.schema.toList.length) hother
    simp at hlength
    omega
  · -- what stands behind the point of the schema could be in the name
    obtain ⟨x, y, hxy⟩ := List.append_of_mem hpoint
    have hother : (⟨t.database, String.ofList x, String.ofList (y ++ '.' :: t.name.toList)⟩ :
        TableRef) = t := by
      refine h _ (display_eq_iff.mpr ?_)
      rw [hxy]
      simp [label, database?]
    have hlength := congrArg (fun u : TableRef => u.name.toList.length) hother
    simp at hlength
    omega
  · -- what stands before the point of the name could be in the schema
    obtain ⟨x, y, hxy⟩ := List.append_of_mem hpoint
    have hother : (⟨t.database, String.ofList (t.schema.toList ++ '.' :: x), String.ofList y⟩ :
        TableRef) = t := by
      refine h _ (display_eq_iff.mpr ?_)
      rw [hxy]
      simp [label, database?]
    have hlength := congrArg (fun u : TableRef => u.schema.toList.length) hother
    simp at hlength

/-- A table that prints like a clear one has its points where that has them. -/
theorem IsClear.count_eq {t u : TableRef} (ht : t.IsClear) (h : u.display = t.display) :
    u.label.toList.count '.' = t.label.toList.count '.' ∧
      u.schema.toList.count '.' = t.schema.toList.count '.' := by
  have hcount : u.display.toList.count '.' = t.display.toList.count '.' := by rw [h]
  have hschema : t.schema.toList.count '.' = 0 := List.count_eq_zero.mpr ht.schema
  have hname : t.name.toList.count '.' = 0 := List.count_eq_zero.mpr ht.name
  rw [count_display, count_display, hschema, hname] at hcount
  rw [hschema]
  -- both labels start with the first character of the text
  obtain ⟨c, s, hs⟩ := List.exists_cons_of_ne_nil t.label_ne_nil
  obtain ⟨d, r, hr⟩ := List.exists_cons_of_ne_nil u.label_ne_nil
  have hcd : d = c := by
    have htext := display_eq_iff.mp h
    rw [hs, hr] at htext
    exact (List.cons.inj htext).1
  have htail : s.count '.' = 0 := by
    have hdatabase := ht.database_tail
    rw [← label_of_named ht.named, hs, List.tail_cons] at hdatabase
    exact List.count_eq_zero.mpr hdatabase
  rw [hs, hr, hcd, List.count_cons, List.count_cons, htail] at hcount
  rw [hs, hr, hcd, List.count_cons, List.count_cons, htail]
  split_ifs at hcount ⊢ <;> omega

/-- A table prints like no other just if its text can be taken apart in one way. -/
theorem printsAlone_iff {t : TableRef} : t.PrintsAlone ↔ t.IsClear := by
  refine ⟨PrintsAlone.isClear, fun ht u h => ?_⟩
  obtain ⟨hlabel, hschema⟩ := ht.count_eq h
  obtain ⟨hlabels, hschemas, hnames⟩ := names_eq_of_display_eq h hlabel hschema
  have hnamed : u.database ≠ "" := by
    intro hdefault
    rw [label_of_default hdefault, label_of_named ht.named] at hlabels
    exact ht.ne_label hlabels.symm
  have hdatabases := database_eq_of_label_eq hlabels
    (iff_of_false hnamed ht.named)
  cases u
  cases t
  simp_all

/-- **Tables are told apart by their texts** among those of one shape, and a table is told apart from all
others exactly if it is clear; the texts of errors tell tables apart as far as their own texts do. -/
theorem display_tells_apart (a b : TableRef) :
    (a = b ↔ a.display = b.display ∧ a.shape = b.shape) ∧
      ((∀ other : TableRef, other.display = a.display → other = a) ↔ a.IsClear) ∧
      ((SchemaError.unknownTable a).message = (SchemaError.unknownTable b).message ↔
        a.display = b.display) ∧
      ((SchemaError.duplicateTable a).message = (SchemaError.duplicateTable b).message ↔
        a.display = b.display) := by
  refine ⟨eq_iff_display_eq, printsAlone_iff, ?_⟩
  rw [SchemaError.message_unknownTable, SchemaError.message_unknownTable,
    SchemaError.message_duplicateTable, SchemaError.message_duplicateTable, append_display_eq_iff,
    append_display_eq_iff]
  exact ⟨Iff.rfl, Iff.rfl⟩

/-- A point may be that of a name, and a database may be named like the label of the default one. -/
theorem distinct_tables_print_alike :
    let first : TableRef := ⟨"shop.eu", "public", "users"⟩
    let second : TableRef := ⟨"shop", "eu.public", "users"⟩
    let unnamed : TableRef := ⟨"", "public", "users"⟩
    let labelled : TableRef := ⟨"<default>", "public", "users"⟩
    (first ≠ second ∧ first.display = "shop.eu.public.users" ∧
        second.display = "shop.eu.public.users") ∧
      (unnamed ≠ labelled ∧ unnamed.display = "<default>.public.users" ∧
        labelled.display = "<default>.public.users") ∧
      (SchemaError.unknownTable first).message = (SchemaError.unknownTable second).message ∧
      ¬∀ a b : TableRef, a ≠ b → a.display ≠ b.display := by
  intro first second unnamed labelled
  have hpoints : first ≠ second ∧ first.display = "shop.eu.public.users" ∧
      second.display = "shop.eu.public.users" := by decide +kernel
  have hlabel : unnamed ≠ labelled ∧ unnamed.display = "<default>.public.users" ∧
      labelled.display = "<default>.public.users" := by decide +kernel
  refine ⟨hpoints, hlabel, ?_, fun h => ?_⟩
  · rw [SchemaError.message_unknownTable, SchemaError.message_unknownTable, hpoints.2.1, hpoints.2.2]
  · exact h first second hpoints.1 (hpoints.2.1.trans hpoints.2.2.symm)

end TableRef

end Keyset
