import Keyset.Proofs.Seek

/-!
# The document that a cursor was issued for

The values of a document are read back from its cursor as they are or as values of another rank,
and the document comes after neither.  Only a text in the last column loses the blanks at its end; it
comes after the text without them, so that the document passes the filter of its own cursor if the
column ascends and is declared to hold texts (`passes_own_iff`).
-/

namespace Keyset

open Keyset.Filter Seek

/-- A document that holds a text with blanks at its end in a column for texts that ascends. -/
def Cursor.LosesBlanks (last : OrderBy) (doc : Document) : Prop :=
  last.kind = some .string ∧ last.direction = .ascending ∧
    ∃ s : String, doc.at? last.field = some (.string s) ∧ Text.trimEnd s.toList ≠ s.toList

/-- A text comes after the texts that it starts with. -/
theorem Value.compare_string_of_prefix {s t : String} (h : t.toList <+: s.toList) (hne : t ≠ s) :
    (Value.string s).compare (.string t) = .gt := by
  have hle := List.IsPrefix.le h
  show compareOfLessAndEq s t = .gt
  unfold compareOfLessAndEq
  rw [if_neg, if_neg]
  · exact fun heq => hne heq.symm
  · exact hle

namespace Seek

variable {doc : Document} {col : OrderBy} {isLast : Bool} {w : Json} {t : List Char} {x v : Value}

/-- A value that is written is no array. -/
theorem isFlat_of_written (hx : doc.at? col.field = some x)
    (ht : Cursor.writeValue? col isLast x.toJson = some t) : isFlat (doc.at? col.field) := by
  intro xs hxs
  obtain rfl : x = .array xs := Option.some.inj (hx.symm.trans hxs)
  cases ht

theorem fieldCompares_of_rank_ne (hx : doc.at? col.field = some x) (hflat : isFlat (doc.at? col.field))
    (hrank : x.rank ≠ v.rank) (accept : Ordering → Bool) :
    fieldCompares accept (doc.at? col.field) v = false := by
  rw [fieldCompares_of_flat hflat, hx, Option.any_some, ordered, beq_eq_false_iff_ne.mpr hrank,
    Bool.false_and]

/-- A document does not come after what is read back of its own value. -/
theorem fieldCompares_own (hw : Cursor.lookup? doc.toJson col.field = some w)
    (ht : Cursor.writeValue? col isLast w = some t) {w' : Json}
    (hread : Cursor.readValue col isLast t = .ok w') (hv : Value.ofJson? w' = some v)
    (d : Direction) : fieldCompares d.accepts (doc.at? col.field) v = false := by
  cases hx : doc.at? col.field with
  | none => rfl
  | some x =>
    obtain rfl : x.toJson = w := Option.some.inj ((Document.lookup?_of_at? hx).symm.trans hw)
    obtain ⟨v', hv', halike⟩ := Cursor.readValue_writeValue? ht hread
    obtain rfl : v' = v := Option.some.inj (hv'.symm.trans hv)
    obtain ⟨u, hu, hscalar, -⟩ := Cursor.isScalar_readValue hread
    obtain rfl : u = v' := Option.some.inj (hu.symm.trans hv')
    rw [← hx]
    -- a value does not come after one like it, nor after one of another rank
    rcases halike with halike | hrank
    · rw [hx]
      exact fieldCompares_of_alike hscalar halike d
    · exact fieldCompares_of_rank_ne hx (isFlat_of_written hx ht) hrank _

/-- A text comes after itself without the blanks at its end. -/
theorem fieldCompares_trimEnd {s : String} (hs : doc.at? col.field = some (.string s))
    (htrim : Text.trimEnd s.toList ≠ s.toList) (d : Direction) :
    fieldCompares d.accepts (doc.at? col.field)
      (.string (String.ofList (Text.trimEnd s.toList))) = (d == .ascending) := by
  have hflat : isFlat (doc.at? col.field) := by
    intro xs hxs
    cases hs.symm.trans hxs
  have hcompare : (Value.string s).compare (.string (String.ofList (Text.trimEnd s.toList))) = .gt := by
    apply Value.compare_string_of_prefix
    · rw [String.toList_ofList]
      exact Text.trimEnd_prefix s.toList
    · intro heq
      have htext := congrArg String.toList heq
      rw [String.toList_ofList] at htext
      exact htrim htext
  rw [fieldCompares_of_flat hflat, hs, Option.any_some, ordered, hcompare]
  cases d <;> rfl

/-- In the last column a document comes after its own value only if that loses blanks. -/
theorem fieldCompares_own_last (hw : Cursor.lookup? doc.toJson col.field = some w)
    (ht : Cursor.writeValue? col true w = some t) {w' : Json}
    (hread : Cursor.readValue col true (Text.trimEnd t) = .ok w') (hv : Value.ofJson? w' = some v) :
    fieldCompares col.direction.accepts (doc.at? col.field) v = true ↔
      Cursor.LosesBlanks col doc := by
  constructor
  · intro hcompares
    cases hx : doc.at? col.field with
    | none =>
      rw [hx] at hcompares
      cases hcompares
    | some x =>
      obtain rfl : x.toJson = w := Option.some.inj ((Document.lookup?_of_at? hx).symm.trans hw)
      obtain ⟨v', hv', hcases⟩ := Cursor.readValue_trimEnd ht hread
      obtain rfl : v' = v := Option.some.inj (hv'.symm.trans hv)
      obtain ⟨u, hu, hscalar, -⟩ := Cursor.isScalar_readValue hread
      obtain rfl : u = v' := Option.some.inj (hu.symm.trans hv')
      rcases hcases with halike | hrank | ⟨hkind, s, rfl, htrim, rfl⟩
      · rw [hx, fieldCompares_of_alike hscalar halike] at hcompares
        cases hcompares
      · rw [fieldCompares_of_rank_ne hx (isFlat_of_written hx ht) hrank] at hcompares
        cases hcompares
      · rw [fieldCompares_trimEnd hx htrim] at hcompares
        exact ⟨hkind, beq_iff_eq.mp hcompares, s, hx, htrim⟩
  · rintro ⟨hkind, hascending, s, hs, htrim⟩
    have hkindAt : Cursor.kindAt col true = some .string := by
      rw [Cursor.kindAt, hkind]
      rfl
    obtain rfl : (Value.string s).toJson = w :=
      Option.some.inj ((Document.lookup?_of_at? hs).symm.trans hw)
    rw [Cursor.writeValue?_of_kind hkindAt] at ht
    -- the text is written as it is, and read without its blanks
    obtain ⟨-, rfl⟩ := Cursor.valueText?_string_eq_some_iff.mp ht
    rw [Cursor.readValue_string hkindAt] at hread
    obtain rfl := Except.ok.inj hread
    obtain rfl : .string (String.ofList (Text.trimEnd s.toList)) = v := Option.some.inj hv
    rw [fieldCompares_trimEnd hs htrim, hascending]
    rfl

/-- Whatever the values of a document are, it passes the filter of the values read back from its cursor
only if the first values are read back as they are and the last one loses blanks. -/
theorem passes_own_iff {leading : List OrderBy} {last : OrderBy} {texts : List (List Char)}
    {ws : List Json} {vs : List Value}
    (htexts : Cursor.writtenTexts? doc.toJson (leading ++ [last]) = some texts)
    (hread : Cursor.readValues (leading ++ [last]) (Text.trimLast texts) = .ok ws)
    (hvs : Value.listOfJson? ws = some vs) :
    passes doc ((leading ++ [last]).zip vs) = true ↔
      (∀ c ∈ leading.zip vs, fieldEquals (doc.at? c.1.field) c.2 = true) ∧
        Cursor.LosesBlanks last doc := by
  -- no column but the last can tell a document from its own values
  induction leading generalizing texts ws vs with
  | nil =>
    obtain ⟨w, t, rest, hw, ht, hrest, rfl⟩ := Cursor.writtenTexts?_cons htexts
    obtain rfl : [] = rest := Option.some.inj hrest
    obtain ⟨w', ws', hread', hnil, rfl⟩ := Cursor.readValues_cons hread
    obtain rfl : [] = ws' := Except.ok.inj hnil
    obtain ⟨v, vs', hv, hvs', rfl⟩ := List.forall₂_cons_left_iff.mp
      (Value.listOfJson?_eq_some_iff.mp hvs)
    rw [List.nil_append, List.zip_cons_cons, List.zip_nil_left, passes, passes, Bool.and_false,
      Bool.or_false, fieldCompares_own_last hw ht hread' hv]
    simp
  | cons col leading ih =>
    rw [List.cons_append] at htexts hread ⊢
    obtain ⟨w, t, rest, hw, ht, hrest, rfl⟩ := Cursor.writtenTexts?_cons htexts
    have hempty : (leading ++ [last]).isEmpty = false := by simp
    have hne : rest ≠ [] := by
      rintro rfl
      have hlength := Cursor.length_writtenTexts? hrest
      simp at hlength
    rw [Text.trimLast] at hread
    · obtain ⟨w', ws', hread', hrest', rfl⟩ := Cursor.readValues_cons hread
      obtain ⟨v, vs', hv, hvs', rfl⟩ := List.forall₂_cons_left_iff.mp
        (Value.listOfJson?_eq_some_iff.mp hvs)
      rw [hempty] at ht hread'
      rw [List.zip_cons_cons, passes, fieldCompares_own hw ht hread' hv,
        Bool.false_or, Bool.and_eq_true,
        ih hrest hrest' (Value.listOfJson?_eq_some_iff.mpr hvs'), List.zip_cons_cons,
        List.forall_mem_cons, and_assoc]
    · exact hne

end Seek

end Keyset
