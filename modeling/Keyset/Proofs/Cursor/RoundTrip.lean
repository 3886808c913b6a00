import Keyset.Proofs.Cursor.Clauses
import Keyset.Proofs.Cursor.Resumption

/-!
# Cursors that read back

Main statement: a row whose values the columns take has a cursor, and the cursor stands for the clauses
on those values, each with its type, whatever blanks are put around it (`seek_encode`).  Only in a
column of floats is an integer read as another value, the double nearest to it.

The columns read their texts independently (`RowReadsBack.exists_texts`), and blanks around a cursor
are taken off before anything else is looked at (`values?_of_blanks`).
-/

namespace Keyset

/-! ### Rows -/

namespace Cursor

/-- A row that holds in each column a value that the column takes, and what these are read back as. -/
inductive RowReadsBack (row : Json) : List OrderBy → List Json → Prop
  | nil : RowReadsBack row [] []
  | cons {col : OrderBy} {cols : List OrderBy} {v w : Json} {ws : List Json}
    (hv : lookup? row col.field = some v) (hw : ReadsBack col cols.isEmpty v w)
    (hws : RowReadsBack row cols ws) : RowReadsBack row (col :: cols) (w :: ws)

theorem RowReadsBack.length_eq {row : Json} {cols : List OrderBy} {ws : List Json}
    (h : RowReadsBack row cols ws) : ws.length = cols.length := by
  induction h with
  | nil => rfl
  | cons _ _ _ ih => rw [List.length_cons, List.length_cons, ih]

/-- The values that columns take are written, and what is written is read back. -/
theorem RowReadsBack.exists_texts {row : Json} {cols : List OrderBy} {ws : List Json}
    (h : RowReadsBack row cols ws) :
    ∃ texts, writtenTexts? row cols = some texts ∧ (∀ s ∈ texts, separator ∉ s) ∧
      Text.trimLast texts = texts ∧ readValues cols texts = .ok ws := by
  induction h with
  | nil => exact ⟨[], rfl, nofun, rfl, rfl⟩
  | @cons col cols v w ws hv hw hws ih =>
    obtain ⟨texts, htexts, hsep, htrim, hread⟩ := ih
    obtain ⟨t, hsurvives⟩ := hw.exists_survives
    refine ⟨t :: texts, ?_, ?_, ?_, ?_⟩
    · rw [writtenTexts?, hv, htexts]
      simp [hsurvives.written]
    · exact List.forall_mem_cons.mpr ⟨hsurvives.separator_notMem, hsep⟩
    · -- only the text of the last column is trimmed
      cases cols with
      | nil =>
        obtain rfl : [] = texts := Option.some.inj htexts
        rw [Text.trimLast, hsurvives.trimEnd rfl]
      | cons next cols =>
        have hne : texts ≠ [] := by
          rintro rfl
          have hlength := length_writtenTexts? htexts
          cases hlength
        rw [Text.trimLast, htrim]
        exact hne
    · rw [readValues, hsurvives.read, hread]
      rfl

end Cursor

/-! ### Cursors -/

namespace CursorInfo

variable {info : CursorInfo}

theorem normalize_of_blanks {before raw after : List Char}
    (hbefore : ∀ c ∈ before, Text.isBlank c = true) (hafter : ∀ c ∈ after, Text.isBlank c = true) :
    info.normalize (before ++ raw ++ after) = info.normalize raw := by
  unfold normalize
  rw [Text.trim_append hbefore hafter]

theorem values?_of_blanks {before raw after : List Char}
    (hbefore : ∀ c ∈ before, Text.isBlank c = true) (hafter : ∀ c ∈ after, Text.isBlank c = true) :
    info.values? (before ++ raw ++ after) = info.values? raw := by
  unfold values?
  rw [normalize_of_blanks hbefore hafter]

/-- The cursor of a row whose values the columns take holds those values, with any blanks around it. -/
theorem values?_encode {row : Json} {values : List Json} (hplain : info.hasPlainLead = true)
    (hne : info.orderBy ≠ []) (hrow : Cursor.RowReadsBack row info.orderBy values) :
    ∃ c, info.encode row = some c ∧
      ∀ before after : List Char, (∀ a ∈ before, Text.isBlank a = true) →
        (∀ a ∈ after, Text.isBlank a = true) →
        info.values? (before ++ c.toList ++ after) = .ok (some values) := by
  obtain ⟨texts, htexts, hsep, htrim, hread⟩ := hrow.exists_texts
  have hvalues : info.values? (info.cursorText texts) = .ok (some values) := by
    refine values?_cursorText hplain hne (Cursor.length_writtenTexts? htexts) ?_ ?_
    · rw [htrim]
      exact hsep
    · rw [htrim]
      exact hread
  refine ⟨_, encode_eq_some_iff.mpr ⟨hne, texts, htexts, rfl⟩, ?_⟩
  intro before after hbefore hafter
  rw [String.toList_ofList, values?_of_blanks hbefore hafter, hvalues]

/-- **A cursor reads back**: a row whose values the columns take has a cursor, and with any blanks
around it the cursor stands for the clauses on exactly those values. -/
theorem seek_encode {row : Json} {values : List Json} (hplain : info.hasPlainLead = true)
    (hne : info.orderBy ≠ []) (hrow : Cursor.RowReadsBack row info.orderBy values) :
    ∃ c f, info.encode row = some c ∧ Seek.IsAfter (info.orderBy.zip values) f ∧
      ∀ before after : String, (∀ a ∈ before.toList, Text.isBlank a = true) →
        (∀ a ∈ after.toList, Text.isBlank a = true) →
        info.seek (before ++ c ++ after) = .ok (some f) := by
  obtain ⟨c, hc, hvalues⟩ := values?_encode hplain hne hrow
  refine ⟨c, _, hc, Seek.isAfter_filter_zip hne hrow.length_eq, ?_⟩
  intro before after hbefore hafter
  rw [seek, String.toList_append, String.toList_append, hvalues _ _ hbefore hafter]
  rfl

/-- Columns of each kind, behind a lead. -/
def fourKinds : CursorInfo :=
  ⟨12, "gj-65:", [⟨"zip", .ascending, none⟩, ⟨"box.weight", .descending, some .float⟩,
    ⟨"sku", .ascending, some .string⟩, ⟨"id", .descending, none⟩]⟩

/-- A row with a string of digits, an integer in the column of floats and a string that ends in a
blank. -/
def fourValues : Json :=
  .object [("_id", .ofInt64 99), ("sku", .string " 07 "),
    ("box", .object [("weight", .ofInt64 2)]), ("zip", .string "10001")]

/-- The double that the column of floats reads. -/
def twoAsDouble : Json :=
  .number (.double (.ofInt 2) (Double.isFinite_ofInt64 2))

/-- The conditions that the columns but the last equal their values. -/
def fourEquals : List Json :=
  [.object [("zip", .string "10001")], .object [("box.weight", twoAsDouble)],
    .object [("sku", .string " 07 ")]]

/-- The filter of what comes after the row. -/
def fourClauses : Json.Object :=
  [("$or", .array
    [.object [("zip", .object [("$gt", .string "10001")])],
      .object [("$and", .array (fourEquals.take 1 ++
        [.object [("box.weight", .object [("$lt", twoAsDouble)])]]))],
      .object [("$and", .array (fourEquals.take 2 ++
        [.object [("sku", .object [("$gt", .string " 07 ")])]]))],
      .object [("$and", .array (fourEquals ++
        [.object [("_id", .object [("$lt", .ofInt64 99)])]]))]])]

theorem seek_encode_fourValues : fourKinds.hasPlainLead = true ∧ fourKinds.orderBy ≠ [] ∧
    Cursor.RowReadsBack fourValues fourKinds.orderBy
      [.string "10001", twoAsDouble, .string " 07 ", .ofInt64 99] ∧
    fourKinds.encode fourValues = some "gj-65:12:'10001:2: 07 :99" ∧
    fourKinds.seek ("\t" ++ "gj-65:12:'10001:2: 07 :99" ++ " \n") = .ok (some fourClauses) := by
  have hne : fourKinds.orderBy ≠ [] := nofun
  have hrow : Cursor.RowReadsBack fourValues fourKinds.orderBy
      [.string "10001", twoAsDouble, .string " 07 ", .ofInt64 99] :=
    .cons rfl (.string (.inr ⟨rfl, rfl⟩) (by decide +kernel) nofun) <|
      .cons rfl (.nearest 2 rfl) <|
      .cons rfl (.string (.inl rfl) (by decide +kernel) nofun) <|
      .cons rfl (.integer 99 (.inr rfl)) .nil
  have hencode : fourKinds.encode fourValues = some "gj-65:12:'10001:2: 07 :99" := by
    decide +kernel
  obtain ⟨c, f, hc, hafter, hseek⟩ := seek_encode rfl hne hrow
  obtain rfl : "gj-65:12:'10001:2: 07 :99" = c := Option.some.inj (hencode.symm.trans hc)
  obtain rfl : f = fourClauses := hafter.eq_filter
  have htab : ∀ a ∈ "\t".toList, Text.isBlank a = true := List.all_eq_true.mp rfl
  have hbreak : ∀ a ∈ " \n".toList, Text.isBlank a = true := List.all_eq_true.mp rfl
  exact ⟨rfl, hne, hrow, hencode, hseek "\t" " \n" htab hbreak⟩

end CursorInfo

end Keyset
