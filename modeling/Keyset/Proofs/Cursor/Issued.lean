import Keyset.Proofs.Cursor.RoundTrip
import Keyset.Proofs.Seek

/-!
# Cursors issued for a row

A row whose values fit the columns has a cursor, which is read as those values, so that it stands for
the filter of what comes after the row (`exists_seek_of_fits`).  Rows that hold integers, texts without
separators and truth values fit (`fitsRow_of_contains`).
-/

namespace Keyset

open Seek

/-! ### Classes of values -/

/-- A class of values that a column can hold throughout. -/
inductive ValueClass where
  | integer
  | text
  | flag

namespace ValueClass

/-- Whether a value belongs to a class; texts with a separator belong to none. -/
def contains : ValueClass → Value → Bool
  | .integer, v => v.integer?.isSome
  | .text, .string s => !s.toList.contains Cursor.separator
  | .flag, .boolean _ => true
  | _, _ => false

/-- The kind that a column of a class may be declared to have. -/
def kind? : ValueClass → Option ColumnKind
  | .integer => some .integer
  | .text => some .string
  | .flag => none

/-- Whether a column that is declared so, or not at all, suits a class. -/
def suits (cls : ValueClass) (declared : Option ColumnKind) : Bool :=
  declared.all fun k => cls.kind? == some k

/-- The rank of a class. -/
def rank : ValueClass → Nat
  | .integer => 2
  | .text => 3
  | .flag => 8

theorem rank_of_contains {cls : ValueClass} {v : Value} (h : cls.contains v = true) :
    v.rank = cls.rank := by
  cases cls <;> cases v <;> first | rfl | cases h

theorem isScalar_of_contains {cls : ValueClass} {v : Value} (h : cls.contains v = true) :
    v.isScalar = true := by
  cases cls <;> cases v <;> first | rfl | cases h

theorem admits_of_suits {cls : ValueClass} {col : OrderBy} {isLast : Bool} {k : ColumnKind}
    (hlast : isLast = true → cls = .integer) (hkind : cls.kind? = some k)
    (h : cls.suits col.kind = true) : Cursor.admits col isLast k = true := by
  unfold suits at h
  unfold Cursor.admits Cursor.kindAt
  cases hdeclared : col.kind with
  | some j =>
    rw [hdeclared, hkind, Option.all_some, beq_iff_eq, Option.some.injEq] at h
    rw [h]
    simp
  | none =>
    cases isLast with
    | false => rfl
    | true =>
      rw [hlast rfl] at hkind
      rw [← Option.some.inj hkind]
      rfl

/-- The values of a class fit the columns that suit it; in the last column only integers do. -/
theorem fits_of_contains {cls : ValueClass} {v : Value} {col : OrderBy} {isLast : Bool}
    (hlast : isLast = true → cls = .integer) (hsuits : cls.suits col.kind = true)
    (h : cls.contains v = true) : Cursor.fits col isLast v = true := by
  cases cls with
  | integer =>
    have hadmits := admits_of_suits hlast rfl hsuits
    cases v <;> first | exact hadmits | cases h
  | text =>
    have hadmits := admits_of_suits hlast rfl hsuits
    cases v with
    | string s =>
      have hsep : (!s.toList.contains Cursor.separator) = true := h
      rw [Cursor.fits, hadmits, hsep]
      cases isLast with
      | false => rfl
      | true => cases hlast rfl
    | _ => cases h
  | flag =>
    have hnone : col.kind = none := by
      cases hdeclared : col.kind with
      | none => rfl
      | some k =>
        rw [hdeclared] at hsuits
        cases hsuits
    cases v with
    | boolean b =>
      cases isLast with
      | false => simp [Cursor.fits, Cursor.kindAt, hnone]
      | true => cases hlast rfl
    | _ => cases h

end ValueClass

/-- Numbered documents hold integers. -/
theorem Numbered.exists_contains {path : String} {docs : List Document} (h : Numbered path docs)
    {d : Document} (hd : d ∈ docs) :
    ∃ v, d.at? path = some v ∧ ValueClass.integer.contains v = true := by
  obtain ⟨n, hn, -⟩ := h.exact d hd
  obtain ⟨v, hv, hvn⟩ := Option.bind_eq_some_iff.mp hn
  refine ⟨v, hv, ?_⟩
  rw [ValueClass.contains, hvn]
  rfl

/-! ### Rows that fit -/

/-- A document whose values can be written in columns and read back. -/
def FitsRow (doc : Document) : List OrderBy → Prop
  | [] => True
  | col :: cols =>
    (∃ v, doc.at? col.field = some v ∧ Cursor.fits col cols.isEmpty v = true) ∧ FitsRow doc cols

/-- A document with values of classes that suit leading columns and an integer in the last one fits
them. -/
theorem fitsRow_of_contains {d : Document} {leading : List OrderBy} {last : OrderBy}
    (hleading : ∀ col ∈ leading, ∃ (cls : ValueClass) (v : Value), cls.suits col.kind = true ∧
      d.at? col.field = some v ∧ cls.contains v = true)
    (hsuits : ValueClass.integer.suits last.kind = true)
    (hlast : ∃ v, d.at? last.field = some v ∧ ValueClass.integer.contains v = true) :
    FitsRow d (leading ++ [last]) := by
  induction leading with
  | nil =>
    obtain ⟨v, hv, hcontains⟩ := hlast
    exact ⟨⟨v, hv, ValueClass.fits_of_contains (fun _ => rfl) hsuits hcontains⟩, trivial⟩
  | cons col leading ih =>
    rw [List.forall_mem_cons] at hleading
    obtain ⟨⟨cls, v, hcls, hv, hcontains⟩, hleading⟩ := hleading
    have hempty : (leading ++ [last]).isEmpty = false := by simp
    refine ⟨⟨v, hv, ?_⟩, ih hleading⟩
    exact ValueClass.fits_of_contains (fun h => by simp [hempty] at h) hcls hcontains

/-- The values as which those of a row that fits are read back are the same values. -/
theorem exists_rowReadsBack_of_fitsRow {doc : Document} {cols : List OrderBy}
    (h : FitsRow doc cols) :
    ∃ ws vs, Cursor.RowReadsBack doc.toJson cols ws ∧ Value.listOfJson? ws = some vs ∧
      vs.length = cols.length ∧ HoldsAlike doc (cols.zip vs) := by
  induction cols with
  | nil => exact ⟨[], [], .nil, rfl, rfl, nofun⟩
  | cons col cols ih =>
    obtain ⟨⟨x, hx, hfits⟩, hrest⟩ := h
    obtain ⟨w, v, hw, hv, hxv⟩ := Cursor.exists_readsBack_of_fits hfits
    obtain ⟨ws, vs, hws, hvs, hlength, halike⟩ := ih hrest
    refine ⟨w :: ws, v :: vs, .cons (Document.lookup?_of_at? hx) hw hws, ?_,
      congrArg (· + 1) hlength, ?_⟩
    · rw [Value.listOfJson?, hv, hvs]
    · rw [List.zip_cons_cons, HoldsAlike, List.forall_mem_cons]
      exact ⟨⟨x, hx, hxv⟩, halike⟩

/-- A row that fits has a cursor, and the cursor stands for the filter of what comes after the row. -/
theorem exists_seek_of_fits {info : CursorInfo} {row : Document} (hplain : info.hasPlainLead = true)
    (hne : info.orderBy ≠ []) (hfields : OrdersByFields info) (h : FitsRow row info.orderBy) :
    ∃ c seek columns, info.encode row.toJson = some c ∧ info.seek c = .ok (some seek) ∧
      Document.ofJson seek = .ok (filterDocument columns) ∧ Usable columns ∧
      keys columns = info.orderBy.map OrderBy.key ∧ HoldsAlike row columns := by
  obtain ⟨ws, vs, hws, hvs, hlength, halike⟩ := exists_rowReadsBack_of_fitsRow h
  obtain ⟨c, hencode, hread⟩ := info.values?_encode hplain hne hws
  have hvalues : info.values? c.toList = .ok (some ws) := by
    have hbare := hread [] [] nofun nofun
    rwa [List.nil_append, List.append_nil] at hbare
  have hseek : info.seek c = .ok (some (filter (info.orderBy.zip ws))) := by
    rw [CursorInfo.seek, hvalues]
    rfl
  obtain ⟨ws', vs', hws', hvs', -, husable, hfilter⟩ := seek_eq_some hfields hseek
  obtain rfl : ws = ws' := Option.some.inj (Except.ok.inj (hvalues.symm.trans hws'))
  obtain rfl : vs = vs' := Option.some.inj (hvs.symm.trans hvs')
  exact ⟨_, _, _, hencode, hseek, hfilter, husable, keys_zip hlength, halike⟩

end Keyset
