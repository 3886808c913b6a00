import Keyset.Proofs.Json.Fits
import Keyset.Proofs.Json.Leaves
import Keyset.Proofs.Json.Number

/-!
# JSON texts that read back

The text of a value is read as that value (`ofText?_text`), if it fits the greatest depth and its
doubles are read as they were written.
-/

namespace Keyset.Json

/-! ### Strings -/

theorem hex4?_control {n : Nat} (h : n < 0x20) :
    hex4? '0' '0' (Nat.digitChar (n / 16)) (Nat.digitChar (n % 16)) = some n := by
  have hzero : Text.hexDigit? '0' = some 0 := rfl
  unfold hex4?
  rw [hzero, Text.hexDigit?_digitChar (by omega), Text.hexDigit?_digitChar (by omega)]
  show some (((0 * 16 + 0) * 16 + n / 16) * 16 + n % 16) = some n
  congr 1
  omega

/-- A character is read as it is escaped. -/
theorem readString?_escape (c : Char) (s : List Char) :
    readString? (escape c ++ s) = (readString? s).map fun (cs, s) => (c :: cs, s) := by
  unfold escape
  split_ifs with hquote hbackslash h3 h4 h5 h6 h7 hcontrol
  · subst hquote
    rfl
  · subst hbackslash
    rfl
  · subst h3
    rfl
  · subst h4
    rfl
  · subst h5
    rfl
  · subst h6
    rfl
  · subst h7
    rfl
  · show readString? ('\\' :: 'u' :: '0' :: '0' :: _ :: _ :: s) = _
    have hlow : c.toNat < 0xD800 ∨ 0xE000 ≤ c.toNat := by omega
    rw [readString?]
    simp only [hex4?_control hcontrol, if_pos hlow, Char.ofNat_toNat]
  · show readString? (c :: s) = _
    rw [readString?, if_neg (not_or.mpr ⟨hcontrol, hbackslash⟩)]
    · exact fun h => hquote h
    · exact fun _ _ _ _ _ h _ => hbackslash h
    · exact fun _ _ h _ => hbackslash h

/-- A string is read up to its closing quote. -/
theorem readString?_escaped (cs rest : List Char) :
    readString? (cs.flatMap escape ++ '"' :: rest) = some (cs, rest) := by
  induction cs with
  | nil => rfl
  | cons c cs ih => rw [List.flatMap_cons, List.append_assoc, readString?_escape, ih, Option.map_some]

/-! ### Numbers -/

/-- A value whose doubles are read as they were written. -/
def DoublesRead (v : Json) : Prop :=
  ∀ x h, .number (.double x h) ∈ v.leaves → readNumber? (doubleText x) = some (.double x h, [])

theorem isNumeral_of_mem_numberText {n : Number} {c : Char} (h : c ∈ numberText n) :
    Double.isNumeral c = true := by
  cases n with
  | integer n _ => exact Double.isNumeral_of_mem_signedDigits h
  | double x _ => exact Double.isNumeral_of_mem_doubleText h

theorem readNumber?_numberText {n : Number} (h : DoublesRead (.number n)) :
    readNumber? (numberText n) = some (n, []) := by
  cases n with
  | integer n hn => exact readNumber?_signedDigits hn
  | double x hx => exact h x hx List.mem_cons_self

theorem exists_cons_numberText {n : Number} (h : DoublesRead (.number n)) :
    ∃ c s, numberText n = c :: s ∧ Double.isNumeral c = true := by
  cases hn : numberText n with
  | nil =>
    have hread := readNumber?_numberText h
    rw [hn] at hread
    cases hread
  | cons c s => exact ⟨c, s, rfl, isNumeral_of_mem_numberText (by rw [hn]; exact List.mem_cons_self)⟩

theorem DoublesRead.item {items : List Json} (h : (array items).DoublesRead) {v : Json}
    (hv : v ∈ items) : v.DoublesRead := by
  intro x hx hmem
  refine h x hx ?_
  rw [leaves_array]
  exact List.mem_flatMap_of_mem hv hmem

theorem DoublesRead.field {fields : Object} (h : (object fields).DoublesRead) {field : String × Json}
    (hfield : field ∈ fields) : field.2.DoublesRead := by
  intro x hx hmem
  refine h x hx ?_
  rw [leaves_object]
  exact List.mem_flatMap_of_mem hfield hmem

/-! ### The start of a value -/

theorem skipBlanks_of_not_blank {c : Char} (h : isBlank c = false) (s : List Char) :
    skipBlanks (c :: s) = c :: s := by
  simp [skipBlanks, h]

theorem isBlank_of_isNumeral {c : Char} (h : Double.isNumeral c = true) : isBlank c = false := by
  cases hblank : isBlank c with
  | false => rfl
  | true =>
    simp only [isBlank, Bool.or_eq_true, beq_iff_eq] at hblank
    rcases hblank with ((rfl | rfl) | rfl) | rfl <;> cases h

/-- The text of a value starts with a character that is neither blank nor closes an array. -/
theorem exists_cons_chars {v : Json} (h : v.DoublesRead) :
    ∃ c s, chars v = c :: s ∧ isBlank c = false ∧ c ≠ ']' := by
  cases v with
  | null => exact ⟨'n', _, rfl, rfl, by decide⟩
  | bool b => cases b <;> exact ⟨_, _, rfl, rfl, by decide⟩
  | number n =>
    obtain ⟨c, s, hn, hc⟩ := exists_cons_numberText h
    refine ⟨c, s, hn, isBlank_of_isNumeral hc, ?_⟩
    rintro rfl
    cases hc
  | string s => exact ⟨'"', _, rfl, rfl, by decide⟩
  | array items => exact ⟨'[', _, rfl, rfl, by decide⟩
  | object fields => exact ⟨'\x7b', _, rfl, rfl, by decide⟩

variable {fuel depth : Nat}

theorem readValue?_number {c : Char} (h : Double.isNumeral c = true) (s : List Char) :
    readValue? (fuel + 1) depth (c :: s) =
      (readNumber? (c :: s)).map fun (n, s) => (.number n, s) := by
  rw [readValue?, skipBlanks_of_not_blank (isBlank_of_isNumeral h)]
  split
  case h_7 => rfl
  all_goals
    rename_i heq
    obtain ⟨rfl, -⟩ := List.cons.inj heq
    cases h

theorem readValue?_items {c : Char} (hblank : isBlank c = false) (hclose : c ≠ ']')
    (s : List Char) :
    readValue? (fuel + 1) (depth + 1) ('[' :: c :: s) =
      (readItems? fuel depth (c :: s)).map fun (items, s) => (.array items, s) := by
  rw [readValue?, skipBlanks_of_not_blank rfl]
  simp only
  rw [skipBlanks_of_not_blank hblank]
  split
  case h_1 heq => exact absurd (List.cons.inj heq).1 hclose
  case h_2 => rfl

/-! ### Values -/

/-- A value that is read from its text, whatever follows that ends a value. -/
def ReadsBack (depth : Nat) (v : Json) : Prop :=
  ∀ fuel rest, 2 * (chars v).length ≤ fuel → Ends rest →
    readValue? fuel depth (chars v ++ rest) = some (v, rest)

/-- Items are read up to the bracket. -/
theorem readItems?_itemChars {items : List Json} (rest : List Char) (hne : items ≠ [])
    (h : ∀ v ∈ items, ReadsBack depth v) (hfuel : 2 * (itemChars items).length + 1 ≤ fuel) :
    readItems? fuel depth (itemChars items ++ ']' :: rest) = some (items, rest) := by
  induction items generalizing fuel with
  | nil => exact absurd rfl hne
  | cons v vs ih =>
    obtain ⟨hv, hvs⟩ := List.forall_mem_cons.mp h
    obtain ⟨fuel, rfl⟩ : ∃ f, fuel = f + 1 := ⟨fuel - 1, by omega⟩
    cases vs with
    | nil =>
      have htext : itemChars [v] = chars v := List.append_nil _
      rw [htext] at hfuel ⊢
      rw [readItems?, hv _ _ (by omega) (.cons (by simp) rest)]
      rfl
    | cons w vs =>
      -- the comma pays for the step that the item takes
      have htext : itemChars (v :: w :: vs) = chars v ++ ',' :: itemChars (w :: vs) := rfl
      rw [htext, List.length_append, List.length_cons] at hfuel
      rw [htext, List.append_assoc, List.cons_append, readItems?,
        hv _ _ (by omega) (.cons (by simp) _)]
      show (readItems? fuel depth (itemChars (w :: vs) ++ ']' :: rest)).map _ = _
      rw [ih (List.cons_ne_nil w vs) hvs (by omega), Option.map_some]

section Field

variable {k : String} {v : Json} {s rest rest' : List Char}

theorem quoted_append (k : String) (s : List Char) :
    quoted k ++ s = '"' :: (k.toList.flatMap escape ++ '"' :: s) := by
  simp [quoted]

/-- The last field of an object is read up to the brace. -/
theorem readFields?_last (hv : readValue? fuel depth s = some (v, '\x7d' :: rest)) :
    readFields? (fuel + 1) depth (quoted k ++ ':' :: s) = some ([(k, v)], rest) := by
  have hcolon : skipBlanks (':' :: s) = ':' :: s := skipBlanks_of_not_blank rfl s
  have hbrace : skipBlanks ('\x7d' :: rest) = '\x7d' :: rest := skipBlanks_of_not_blank rfl rest
  rw [quoted_append, readFields?, skipBlanks_of_not_blank rfl]
  simp only [readString?_escaped, hcolon, hv, hbrace, String.ofList_toList]

/-- A field is read up to the comma, and then the fields behind it. -/
theorem readFields?_comma {fields : List (String × Json)}
    (hv : readValue? fuel depth s = some (v, ',' :: rest))
    (hfields : readFields? fuel depth rest = some (fields, rest')) :
    readFields? (fuel + 1) depth (quoted k ++ ':' :: s) = some ((k, v) :: fields, rest') := by
  have hcolon : skipBlanks (':' :: s) = ':' :: s := skipBlanks_of_not_blank rfl s
  have hcomma : skipBlanks (',' :: rest) = ',' :: rest := skipBlanks_of_not_blank rfl rest
  rw [quoted_append, readFields?, skipBlanks_of_not_blank rfl]
  simp only [readString?_escaped, hcolon, hv, hcomma, hfields, Option.map_some,
    String.ofList_toList]

end Field

/-- Fields are read up to the brace. -/
theorem readFields?_fieldChars {fields : List (String × Json)} (rest : List Char)
    (hne : fields ≠ []) (h : ∀ field ∈ fields, ReadsBack depth field.2)
    (hfuel : 2 * (fieldChars fields).length + 1 ≤ fuel) :
    readFields? fuel depth (fieldChars fields ++ '\x7d' :: rest) = some (fields, rest) := by
  induction fields generalizing fuel with
  | nil => exact absurd rfl hne
  | cons field fs ih =>
    obtain ⟨k, v⟩ := field
    have hv : ReadsBack depth v := h (k, v) List.mem_cons_self
    have hfs : ∀ field ∈ fs, ReadsBack depth field.2 :=
      fun field hfield => h field (List.mem_cons_of_mem _ hfield)
    obtain ⟨fuel, rfl⟩ : ∃ f, fuel = f + 1 := ⟨fuel - 1, by omega⟩
    cases fs with
    | nil =>
      have htext : fieldChars [(k, v)] = quoted k ++ ':' :: chars v := List.append_nil _
      rw [htext, List.length_append, List.length_cons] at hfuel
      rw [htext, List.append_assoc, List.cons_append]
      exact readFields?_last (hv _ _ (by omega) (.cons (by simp) rest))
    | cons field fs =>
      have htext : fieldChars ((k, v) :: field :: fs) =
          quoted k ++ ':' :: (chars v ++ ',' :: fieldChars (field :: fs)) := by
        simp [fieldChars]
      rw [htext, List.length_append, List.length_cons, List.length_append,
        List.length_cons] at hfuel
      rw [htext, List.append_assoc, List.cons_append, List.append_assoc, List.cons_append]
      exact readFields?_comma (hv _ _ (by omega) (.cons (by simp) _))
        (ih (List.cons_ne_nil field fs) hfs (by omega))

theorem readsBack_number {n : Number} (h : (number n).DoublesRead) : ReadsBack depth (.number n) := by
  intro fuel rest hfuel hrest
  obtain ⟨c, s, hn, hc⟩ := exists_cons_numberText h
  have htext : chars (.number n) = c :: s := hn
  have hread := readNumber?_append hrest (readNumber?_numberText h)
  rw [hn] at hread
  rw [htext, List.length_cons] at hfuel
  obtain ⟨fuel, rfl⟩ : ∃ f, fuel = f + 1 := ⟨fuel - 1, by omega⟩
  rw [htext, List.cons_append, readValue?_number hc, ← List.cons_append, hread, Option.map_some,
    List.nil_append]

theorem readsBack_string (s : String) : ReadsBack depth (.string s) := by
  intro fuel rest hfuel hrest
  have htext : chars (.string s) = '"' :: (s.toList.flatMap escape ++ ['"']) := rfl
  rw [htext, List.length_cons] at hfuel
  obtain ⟨fuel, rfl⟩ : ∃ f, fuel = f + 1 := ⟨fuel - 1, by omega⟩
  rw [htext, List.cons_append, List.append_assoc]
  show (readString? (s.toList.flatMap escape ++ '"' :: rest)).map _ = _
  rw [readString?_escaped]
  show some (Json.string (String.ofList s.toList), rest) = _
  rw [String.ofList_toList]

theorem readsBack_array {items : List Json} (hreads : (array items).DoublesRead)
    (h : ∀ v ∈ items, ReadsBack depth v) : ReadsBack (depth + 1) (.array items) := by
  intro fuel rest hfuel hrest
  have htext : chars (.array items) ++ rest = '[' :: (itemChars items ++ ']' :: rest) := by
    simp [chars]
  have hlength : (chars (.array items)).length = (itemChars items).length + 2 := by
    simp [chars]
  rw [hlength] at hfuel
  obtain ⟨fuel, rfl⟩ : ∃ f, fuel = f + 1 := ⟨fuel - 1, by omega⟩
  rw [htext]
  cases items with
  | nil => rfl
  | cons v vs =>
    obtain ⟨c, s, hv, hblank, hclose⟩ := exists_cons_chars (hreads.item List.mem_cons_self)
    have hitems : readItems? fuel depth (itemChars (v :: vs) ++ ']' :: rest) = some (v :: vs, rest) :=
      readItems?_itemChars rest (List.cons_ne_nil v vs) h (by omega)
    obtain ⟨s', hs'⟩ : ∃ s', itemChars (v :: vs) ++ ']' :: rest = c :: s' := by
      rw [itemChars, hv]
      exact ⟨_, rfl⟩
    rw [hs'] at hitems ⊢
    rw [readValue?_items hblank hclose, hitems, Option.map_some]

theorem readsBack_object {fields : List (String × Json)} (hnodup : (Fields.names fields).Nodup)
    (h : ∀ field ∈ fields, ReadsBack depth field.2) : ReadsBack (depth + 1) (.object fields) := by
  intro fuel rest hfuel hrest
  have htext : chars (.object fields) ++ rest =
      '\x7b' :: (fieldChars fields ++ '\x7d' :: rest) := by
    simp [chars]
  have hlength : (chars (.object fields)).length = (fieldChars fields).length + 2 := by
    simp [chars]
  rw [hlength] at hfuel
  obtain ⟨fuel, rfl⟩ : ∃ f, fuel = f + 1 := ⟨fuel - 1, by omega⟩
  rw [htext]
  cases fields with
  | nil => rfl
  | cons field fs =>
    have hfields : readFields? fuel depth (fieldChars (field :: fs) ++ '\x7d' :: rest) =
        some (field :: fs, rest) :=
      readFields?_fieldChars rest (List.cons_ne_nil field fs) h (by omega)
    show (readFields? fuel depth (fieldChars (field :: fs) ++ '\x7d' :: rest)).map _ = _
    rw [hfields]
    show some (Json.object (Fields.ofPairs (field :: fs)), rest) = _
    rw [Fields.ofPairs_of_nodup hnodup]

/-- A value that fits is read from its text. -/
theorem readsBack {v : Json} (hfits : Fits depth v) (hreads : v.DoublesRead) :
    ReadsBack depth v := by
  induction hfits with
  | null depth =>
    intro fuel rest hfuel _
    have hlength : (chars .null).length = 4 := rfl
    obtain ⟨fuel, rfl⟩ : ∃ f, fuel = f + 1 := ⟨fuel - 1, by omega⟩
    rfl
  | bool depth b =>
    intro fuel rest hfuel _
    have hlength : 4 ≤ (chars (.bool b)).length := by cases b <;> decide
    obtain ⟨fuel, rfl⟩ : ∃ f, fuel = f + 1 := ⟨fuel - 1, by omega⟩
    cases b <;> rfl
  | number depth n => exact readsBack_number hreads
  | string depth s => exact readsBack_string s
  | array _ ih => exact readsBack_array hreads fun v hv => ih v hv (hreads.item hv)
  | object nodup _ ih =>
    exact readsBack_object nodup fun field hfield => ih field hfield (hreads.field hfield)

/-- **The text of a value is read as the value**, if the value fits and its doubles are read as they were
written. -/
theorem ofText?_text {v : Json} (hfits : Fits maxDepth v) (hreads : v.DoublesRead) :
    ofText? v.text = some v := by
  have hread := readsBack hfits hreads (2 * v.chars.length + 1) [] (by omega) .nil
  rw [List.append_nil] at hread
  unfold ofText? text
  rw [String.toList_ofList]
  simp only [hread]
  rfl

end Keyset.Json
