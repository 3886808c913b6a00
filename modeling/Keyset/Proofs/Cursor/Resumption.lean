import Keyset.Proofs.Cursor.Lookup
import Keyset.Proofs.Cursor.Values

/-!
# Cursors read back

A cursor is its lead, the number of its site, and one text for each column (`encode_eq_some_iff`).  A
decoder that uses it reads those texts again, the last one without its final blanks
(`readValues_of_values?`), and it does use it if no text holds a separator and the lead does not start
with a blank (`values?_cursorText`).
-/

namespace Keyset

/-! ### What a cursor is made of -/

namespace Cursor

/-- The texts of columns' values in a row. -/
def writtenTexts? (row : Json) : List OrderBy → Option (List (List Char))
  | [] => some []
  | col :: cols => do
    let value ← lookup? row col.field
    let s ← writeValue? col cols.isEmpty value
    return s :: (← writtenTexts? row cols)

theorem writeValues?_eq (row : Json) (cols : List OrderBy) :
    writeValues? row cols = (writtenTexts? row cols).map (Text.behind separator) := by
  induction cols with
  | nil => rfl
  | cons col cols ih =>
    rw [writeValues?, writtenTexts?, ih]
    cases lookup? row col.field with
    | none => rfl
    | some value =>
      cases hs : writeValue? col cols.isEmpty value with
      | none => simp [hs]
      | some s => cases hts : writtenTexts? row cols <;> simp [hs]

theorem writtenTexts?_cons {row : Json} {col : OrderBy} {cols : List OrderBy}
    {texts : List (List Char)} (h : writtenTexts? row (col :: cols) = some texts) :
    ∃ value s rest, lookup? row col.field = some value ∧
      writeValue? col cols.isEmpty value = some s ∧ writtenTexts? row cols = some rest ∧
      texts = s :: rest := by
  simp only [writtenTexts?, Option.bind_eq_bind, Option.pure_def, Option.bind_eq_some_iff,
    Option.some.injEq] at h
  obtain ⟨value, hvalue, s, hs, rest, hrest, htexts⟩ := h
  exact ⟨value, s, rest, hvalue, hs, hrest, htexts.symm⟩

theorem length_writtenTexts? {row : Json} {cols : List OrderBy} {texts : List (List Char)}
    (h : writtenTexts? row cols = some texts) : texts.length = cols.length := by
  induction cols generalizing texts with
  | nil =>
    rw [← Option.some.inj h]
    rfl
  | cons col cols ih =>
    obtain ⟨-, s, rest, -, -, hrest, rfl⟩ := writtenTexts?_cons h
    rw [List.length_cons, List.length_cons, ih hrest]

/-- What is written of a row was found in it. -/
theorem exists_written {row : Json} {cols : List OrderBy} {texts : List (List Char)}
    (h : writtenTexts? row cols = some texts) {col : OrderBy} (hcol : col ∈ cols) :
    ∃ w t, lookup? row col.field = some w ∧ valueText? w = some t := by
  induction cols generalizing texts with
  | nil => cases hcol
  | cons c cols ih =>
    obtain ⟨w, s, rest, hw, hs, hrest, -⟩ := writtenTexts?_cons h
    rcases List.mem_cons.mp hcol with rfl | hcol
    · obtain ⟨t, ht, -⟩ := Option.map_eq_some_iff.mp hs
      exact ⟨w, t, hw, ht⟩
    · exact ih hrest hcol

theorem readValues_cons {col : OrderBy} {cols : List OrderBy} {s : List Char}
    {texts : List (List Char)} {ws : List Json}
    (h : readValues (col :: cols) (s :: texts) = .ok ws) :
    ∃ w rest, readValue col cols.isEmpty s = .ok w ∧ readValues cols texts = .ok rest ∧
      ws = w :: rest := by
  rw [readValues] at h
  obtain ⟨w, hw, h⟩ := bind_eq_ok_iff.mp h
  obtain ⟨rest, hrest, h⟩ := bind_eq_ok_iff.mp h
  exact ⟨w, rest, hw, hrest, (Except.ok.inj h).symm⟩

/-- What is read from texts are scalars, one for each column. -/
theorem readValues_scalars {cols : List OrderBy} {texts : List (List Char)} {ws : List Json}
    (hlength : texts.length = cols.length) (h : readValues cols texts = .ok ws) :
    ∃ vs, Value.listOfJson? ws = some vs ∧ ws.length = cols.length ∧ vs.length = cols.length ∧
      ∀ v ∈ vs, v.isScalar = true ∧ v ≠ .null := by
  induction cols generalizing texts ws with
  | nil =>
    obtain rfl : ws = [] := by
      cases texts <;> exact (Except.ok.inj h).symm
    exact ⟨[], rfl, rfl, rfl, nofun⟩
  | cons col cols ih =>
    cases texts with
    | nil => cases hlength
    | cons s texts =>
      obtain ⟨w, rest, hw, hrest, rfl⟩ := readValues_cons h
      obtain ⟨v, hv, hscalar, hnull⟩ := isScalar_readValue hw
      obtain ⟨vs, hvs, hws, hlen, hall⟩ := ih (Nat.succ.inj hlength) hrest
      refine ⟨v :: vs, ?_, congrArg (· + 1) hws, congrArg (· + 1) hlen, ?_⟩
      · rw [Value.listOfJson?, hv, hvs]
      · exact List.forall_mem_cons.mpr ⟨⟨hscalar, hnull⟩, hall⟩

theorem isBlank_separator : Text.isBlank separator = false := rfl

end Cursor

namespace CursorInfo

variable {info : CursorInfo}

/-- The text of a cursor that holds texts of values. -/
def cursorText (info : CursorInfo) (texts : List (List Char)) : List Char :=
  info.lead.toList ++ (Text.digits info.selectId.toNat ++ Text.behind Cursor.separator texts)

/-- A cursor is made of the texts of a row's values. -/
theorem encode_eq_some_iff {row : Json} {c : String} :
    info.encode row = some c ↔ info.orderBy ≠ [] ∧
      ∃ texts, Cursor.writtenTexts? row info.orderBy = some texts ∧
        c = String.ofList (info.cursorText texts) := by
  unfold encode
  rw [Cursor.writeValues?_eq]
  by_cases hne : info.orderBy = []
  · simp [hne]
  · cases htexts : Cursor.writtenTexts? row info.orderBy with
    | none => simp [hne]
    | some texts => simp [hne, cursorText, eq_comm]

/-! ### What is left of its lead -/

/-- Whether a cursor's lead is there as it is after blanks are taken off. -/
def hasPlainLead (info : CursorInfo) : Bool :=
  info.lead.toList.head?.all fun c => !Text.isBlank c

/-- Blanks are taken off the lead, if it starts with them, and off the last text. -/
theorem trim_cursorText (info : CursorInfo) {texts : List (List Char)} (hne : texts ≠ []) :
    Text.trim (info.cursorText texts) = Text.trimStart info.lead.toList ++
      (Text.digits info.selectId.toNat ++
        Text.behind Cursor.separator (Text.trimLast texts)) := by
  obtain ⟨c, s, hs, hc⟩ := Text.digits_eq_cons info.selectId.toNat
  have hstart : Text.trimStart (info.cursorText texts) = Text.trimStart info.lead.toList ++
      (Text.digits info.selectId.toNat ++ Text.behind Cursor.separator texts) := by
    by_cases hlead : Text.trimStart info.lead.toList = []
    · rw [cursorText, Text.trimStart_append_of_eq_nil hlead, hlead, hs, List.cons_append,
        Text.trimStart_of_not_blank (Text.isBlank_of_isDigit hc), List.nil_append]
    · exact Text.trimStart_append hlead
  rw [Text.trim, hstart, ← List.append_assoc, Text.trimEnd_behind Cursor.isBlank_separator _ hne,
    List.append_assoc]

/-- What a decoder takes a cursor's values from: the lead is gone, unless it starts with a blank. -/
theorem normalize_cursorText (info : CursorInfo) {texts : List (List Char)} (hne : texts ≠ []) :
    ∃ front, (info.hasPlainLead = true → front = []) ∧
      info.normalize (info.cursorText texts) = front ++
        (Text.digits info.selectId.toNat ++
          Text.behind Cursor.separator (Text.trimLast texts)) := by
  obtain ⟨c, s, hs, hc⟩ := Text.digits_eq_cons info.selectId.toNat
  have hrest : Text.digits info.selectId.toNat ++
      Text.behind Cursor.separator (Text.trimLast texts) ≠ [] := by simp [hs]
  unfold normalize
  simp only [trim_cursorText info hne]
  rw [if_neg (by simp [hs])]
  by_cases hempty : info.lead = ""
  · refine ⟨[], fun _ => rfl, ?_⟩
    have htoken : withoutToken? (Text.digits info.selectId.toNat ++
        Text.behind Cursor.separator (Text.trimLast texts)) = none := by
      have hg : 'g' ≠ c := fun h => by rw [← h] at hc; cases hc
      simp [withoutToken?, hs, Text.after?, hg]
    have htrim : Text.trimStart info.lead.toList = [] := by rw [hempty]; rfl
    rw [if_pos hempty, htrim, List.nil_append, htoken]
    rfl
  rw [if_neg hempty]
  cases hlead : info.lead.toList with
  | nil => exact absurd (String.toList_eq_nil_iff.mp hlead) hempty
  | cons a lead =>
    cases ha : Text.isBlank a with
    | false =>
      refine ⟨[], fun _ => rfl, ?_⟩
      rw [Text.trimStart_of_not_blank ha, Text.after?_append]
      rfl
    | true =>
      refine ⟨Text.trimStart (a :: lead), fun hplain => ?_, ?_⟩
      · simp [hasPlainLead, hlead, ha] at hplain
      · -- what is left starts with no blank, so the lead is not found in it
        rw [hs, List.cons_append, Text.after?_trimStart ha (Text.isBlank_of_isDigit hc)]
        rfl

/-! ### Reading it -/

/-- The cursors that hold values: an own site, and a text for each column that it can be read from. -/
theorem values?_eq_some_iff {raw : List Char} {vs : List Json} :
    info.values? raw = .ok (some vs) ↔ info.normalize raw ≠ [] ∧ info.orderBy ≠ [] ∧
      ∃ site texts, Text.splitOn Cursor.separator (info.normalize raw) = site :: texts ∧
        Text.word64? site = some info.selectId ∧ texts.length = info.orderBy.length ∧
        Cursor.readValues info.orderBy texts = .ok vs := by
  unfold values?
  simp only
  by_cases hblank : info.normalize raw = []
  · simp only [hblank, if_true]
    constructor
    · exact fun h => nomatch Except.ok.inj h
    · exact fun h => absurd rfl h.1
  rw [if_neg hblank]
  cases hsplit : Text.splitOn Cursor.separator (info.normalize raw) with
  | nil => exact absurd hsplit (Text.splitOn_ne_nil _ _)
  | cons site texts =>
    simp only [List.headD_cons, List.tail_cons]
    constructor
    · intro h
      split at h
      · cases h
      · rename_i issued hissued
        by_cases hsite : issued = info.selectId
        case neg => rw [if_pos hsite] at h; cases h
        by_cases hcols : info.orderBy = []
        case pos => simp [hsite, hcols, throw, throwThe, MonadExceptOf.throw] at h
        by_cases hlength : texts.length = info.orderBy.length
        case neg => simp [hsite, hcols, hlength, throw, throwThe, MonadExceptOf.throw] at h
        simp only [hsite, hcols, hlength, ne_eq, not_true_eq_false, if_false] at h
        refine ⟨hblank, hcols, site, texts, rfl, hsite ▸ hissued, hlength, ?_⟩
        obtain ⟨ws, hread, hws⟩ := bind_eq_ok_iff.mp h
        rw [hread, Option.some.inj (Except.ok.inj hws)]
    · rintro ⟨-, hcols, site', texts', heq, hsite, hlength, hread⟩
      obtain ⟨rfl, rfl⟩ := List.cons.inj heq
      simp only [hsite, ne_eq, not_true_eq_false, if_false, hcols, hlength, hread]
      rfl

theorem separator_notMem_digits (n : Nat) : Cursor.separator ∉ Text.digits n :=
  fun h => nomatch Text.isDigit_of_mem_digits h

/-- Texts without a separator are found in a cursor and are read, if its lead is. -/
theorem values?_cursorText {texts : List (List Char)} {vs : List Json}
    (hplain : info.hasPlainLead = true) (hne : info.orderBy ≠ [])
    (hlength : texts.length = info.orderBy.length)
    (hsep : ∀ s ∈ Text.trimLast texts, Cursor.separator ∉ s)
    (hread : Cursor.readValues info.orderBy (Text.trimLast texts) = .ok vs) :
    info.values? (info.cursorText texts) = .ok (some vs) := by
  have htexts : texts ≠ [] := by
    rintro rfl
    exact hne (List.eq_nil_of_length_eq_zero hlength.symm)
  obtain ⟨front, hfront, hnorm⟩ := info.normalize_cursorText htexts
  rw [hfront hplain, List.nil_append] at hnorm
  obtain ⟨c, s, hs, -⟩ := Text.digits_eq_cons info.selectId.toNat
  refine values?_eq_some_iff.mpr ⟨by simp [hnorm, hs], hne, _, _, ?_, Text.word64?_digits _,
    (Text.length_trimLast texts).trans hlength, hread⟩
  rw [hnorm, Text.splitOn_behind (separator_notMem_digits _) hsep]

/-- A cursor that is used has no separator within its texts, and it is those that are read. -/
theorem readValues_of_values? {texts : List (List Char)} {vs : List Json}
    (hlength : texts.length = info.orderBy.length)
    (h : info.values? (info.cursorText texts) = .ok (some vs)) :
    Cursor.readValues info.orderBy (Text.trimLast texts) = .ok vs := by
  obtain ⟨-, hne, site, parts, hsplit, -, hparts, hread⟩ := values?_eq_some_iff.mp h
  have htexts : texts ≠ [] := by
    rintro rfl
    exact hne (List.eq_nil_of_length_eq_zero hlength.symm)
  obtain ⟨front, -, hnorm⟩ := info.normalize_cursorText htexts
  rw [hnorm, ← List.append_assoc] at hsplit
  -- the separators between the texts are as many as the parts ask for, so there are no others
  have hcount := Text.length_splitOn Cursor.separator
    (front ++ Text.digits info.selectId.toNat ++
      Text.behind Cursor.separator (Text.trimLast texts))
  rw [hsplit, List.length_cons, List.count_append, Text.count_behind, Text.length_trimLast] at hcount
  have hfirst : Cursor.separator ∉ front ++ Text.digits info.selectId.toNat :=
    List.count_eq_zero.mp (by omega)
  have hinner : ∀ s ∈ Text.trimLast texts, Cursor.separator ∉ s := by
    have hnone : Cursor.separator ∉ (Text.trimLast texts).flatten := List.count_eq_zero.mp (by omega)
    exact fun s hs hmem => hnone (List.mem_flatten.mpr ⟨s, hs, hmem⟩)
  rw [Text.splitOn_behind hfirst hinner] at hsplit
  rw [(List.cons.inj hsplit).2]
  exact hread

end CursorInfo

end Keyset
