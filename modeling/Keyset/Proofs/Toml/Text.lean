import Keyset.Toml.Reader
import Keyset.Toml.Writer
import Mathlib.Data.List.TakeDrop
import Mathlib.Tactic.SplitIfs

/-!
# TOML strings that read back

A string is read back from its text, whichever of the four forms it is written in (`readString?_quoted`).
With escapes that holds of any string, because every character that would be taken for something else is
escaped; without escapes it holds of the strings that the form shows (`Form.shows`).  Quotes need care
where a form has three of them at the end: up to two may stand before those.
-/

namespace Keyset.Toml

/-! ### Characters -/

theorem isControl_cases {c : Char} (h : isControl c = true) :
    c.toNat < 0x20 ∧ c ≠ '\t' ∧ c ≠ '\n' ∨ c.toNat = 0x7F := by
  simpa [isControl, and_assoc] using h

/-- A character that need not be escaped can be part of a text, unless it is a line break. -/
theorem isTextChar_of_not_isControl {c : Char} (h : isControl c = false) (hbreak : c ≠ '\n') :
    isTextChar c = true := by
  unfold isControl at h
  unfold isTextChar
  by_cases htab : c = '\t'
  · subst htab
    rfl
  · simp [htab, hbreak] at h ⊢
    exact h

theorem ne_return_of_not_isControl {c : Char} (h : isControl c = false) : c ≠ '\r' := by
  rintro rfl
  cases h

/-- The digits of a control character stand for it. -/
theorem charOfHex?_controlDigits {c : Char} (h : isControl c = true) :
    charOfHex? (controlDigits c) = some c := by
  have hdigits : ∀ n : Fin 128,
      charOfHex? ((Text.hexDigits 4 n).map Char.toUpper) = some (Char.ofNat n) := by decide +kernel
  have hlt : c.toNat < 128 := by
    rcases isControl_cases h with h | h <;> omega
  rw [controlDigits, hdigits ⟨c.toNat, hlt⟩, Char.ofNat_toNat]

/-! ### Escapes -/

/-- The text of a character among escapes; a quote is not looked at here. -/
def escape (hasLines : Bool) (c : Char) : List Char :=
  match c with
  | '\x08' => ['\\', 'b']
  | '\t' => ['\\', 't']
  | '\n' => if hasLines then ['\n'] else ['\\', 'n']
  | '\x0c' => ['\\', 'f']
  | '\r' => ['\\', 'r']
  | '\\' => ['\\', '\\']
  | c => if isControl c then '\\' :: 'u' :: controlDigits c else [c]

variable {quotesAllowed quotes : Nat} {hasLines : Bool}

theorem escaped_quote (s : List Char) : escaped quotesAllowed hasLines quotes ('"' :: s) =
    if quotes < quotesAllowed then '"' :: escaped quotesAllowed hasLines (quotes + 1) s
    else '\\' :: '"' :: escaped quotesAllowed hasLines 0 s :=
  rfl

theorem escaped_cons {c : Char} (h : c ≠ '"') (s : List Char) :
    escaped quotesAllowed hasLines quotes (c :: s) =
      escape hasLines c ++ escaped quotesAllowed hasLines 0 s := by
  unfold escape
  split
  case h_7 =>
    rw [escaped]
    · split_ifs <;> rfl
    all_goals assumption
  case h_3 => cases hasLines <;> rfl
  all_goals rfl

/-- A reader of characters that understands escapes. -/
structure ReadsEscapes (read : List Char → Option (List Char × List Char)) : Prop where
  letter : ∀ c d s, unescape? c = some d → read ('\\' :: c :: s) = andThen (some d) (read s)
  digits : ∀ a b c d s,
    read ('\\' :: 'u' :: a :: b :: c :: d :: s) = andThen (charOfHex? [a, b, c, d]) (read s)
  plain : ∀ c s, isTextChar c = true → c ≠ '\\' → c ≠ '"' →
    read (c :: s) = andThen (some c) (read s)

theorem readsEscapes_basic : ReadsEscapes readBasic? where
  letter c d s h := by
    unfold unescape? at h
    split at h <;> cases h <;> rfl
  digits a b c d s := rfl
  plain c s h hbackslash hquote := by
    rw [readBasic?]
    · simp [h, hbackslash]
    all_goals simp_all

theorem readsEscapes_lines : ReadsEscapes (readLines? .closed) where
  letter c d s h := by
    unfold unescape? at h
    split at h <;> cases h <;> rfl
  digits a b c d s := rfl
  plain c s h hbackslash hquote := by
    have hreturn : c ≠ '\r' := by
      rintro rfl
      cases h
    have hbreak : c ≠ '\n' := by
      rintro rfl
      cases h
    rw [readLines?]
    · simp [h, hbackslash]
    all_goals simp_all

/-- A character is read as it is written among escapes. -/
theorem ReadsEscapes.escape {read : List Char → Option (List Char × List Char)}
    (h : ReadsEscapes read) {c : Char} (hquote : c ≠ '"')
    (hbreak : c = '\n' → hasLines = true → ∀ s, read ('\n' :: s) = andThen (some '\n') (read s))
    (s : List Char) : read (escape hasLines c ++ s) = andThen (some c) (read s) := by
  unfold Toml.escape
  split
  · exact h.letter 'b' _ s rfl
  · exact h.letter 't' _ s rfl
  · cases hasLines with
    | true => exact hbreak rfl rfl s
    | false => exact h.letter 'n' _ s rfl
  · exact h.letter 'f' _ s rfl
  · exact h.letter 'r' _ s rfl
  · exact h.letter '\\' _ s rfl
  · split_ifs with hcontrol
    · rw [← charOfHex?_controlDigits hcontrol]
      exact h.digits _ _ _ _ s
    · rename_i hbackslash
      refine h.plain c s (isTextChar_of_not_isControl (by simpa using hcontrol) ?_) ?_ hquote
      all_goals assumption

/-- What the text of a character with escapes starts with: a backslash, or the character itself, which
then is neither a control nor, where no quote is allowed, a quote. -/
theorem exists_cons_escaped (c : Char) (s : List Char) :
    ∃ d t, escaped quotesAllowed hasLines quotes (c :: s) = d :: t ∧
      (d = '\\' ∨ d = c ∧ isControl c = false ∧ (c = '"' → quotes < quotesAllowed)) := by
  by_cases hquote : c = '"'
  · subst hquote
    rw [escaped_quote]
    split_ifs with hallowed
    · exact ⟨_, _, rfl, .inr ⟨rfl, rfl, fun _ => hallowed⟩⟩
    · exact ⟨_, _, rfl, .inl rfl⟩
  · rw [escaped_cons hquote]
    unfold Toml.escape
    split
    case h_3 =>
      cases hasLines with
      | true => exact ⟨_, _, rfl, .inr ⟨rfl, rfl, nofun⟩⟩
      | false => exact ⟨_, _, rfl, .inl rfl⟩
    case h_7 =>
      split_ifs with hcontrol
      · exact ⟨_, _, rfl, .inl rfl⟩
      · exact ⟨_, _, rfl, .inr ⟨rfl, by simpa using hcontrol, fun h => absurd h hquote⟩⟩
    all_goals exact ⟨_, _, rfl, .inl rfl⟩

/-! ### Strings on one line -/

theorem readBasic?_escaped (cs rest : List Char) :
    readBasic? (escaped 0 false 0 cs ++ '"' :: rest) = some (cs, rest) := by
  induction cs with
  | nil => rfl
  | cons c cs ih =>
    by_cases hquote : c = '"'
    · subst hquote
      rw [escaped_quote, if_neg (Nat.lt_irrefl 0)]
      show readBasic? ('\\' :: '"' :: (escaped 0 false 0 cs ++ '"' :: rest)) = _
      rw [readsEscapes_basic.letter '"' '"' _ rfl, ih]
      rfl
    · have hbreak : c = '\n' → false = true → ∀ s,
          readBasic? ('\n' :: s) = andThen (some '\n') (readBasic? s) := nofun
      rw [escaped_cons hquote, List.append_assoc, readsEscapes_basic.escape hquote hbreak, ih]
      rfl

/-- A character without escapes is part of a text or a line break. -/
theorem not_isControl_of_shows {form : Form} {cs : List Char} (h : form.shows cs = true) :
    ∀ c ∈ cs, isControl c = false := by
  simp only [Form.shows, Bool.and_eq_true, Bool.not_eq_true', List.any_eq_false] at h
  simpa using h.1

theorem readLiteral?_append {cs : List Char} (h : Form.literal.shows cs = true) (rest : List Char) :
    readLiteral? (cs ++ '\'' :: rest) = some (cs, rest) := by
  have hmem : ∀ c ∈ cs, (isTextChar c && c != '\'') = true := by
    have hcontrol := not_isControl_of_shows h
    simp only [Form.shows, Bool.and_eq_true, Bool.not_eq_true', List.contains_eq_mem,
      decide_eq_false_iff_not] at h
    intro c hc
    have hquote : c ≠ '\'' := fun heq => h.2.1 (heq ▸ hc)
    have hbreak : c ≠ '\n' := fun heq => h.2.2 (heq ▸ hc)
    simp [isTextChar_of_not_isControl (hcontrol c hc) hbreak, hquote]
  rw [readLiteral?, List.span_eq_takeWhile_dropWhile, List.takeWhile_append_of_pos hmem,
    List.dropWhile_append_of_pos hmem]
  simp

/-! ### Strings on several lines -/

/-- What may follow the quotes that close a string: anything but another such quote. -/
def Closes (quote : Char) (rest : List Char) : Prop :=
  rest.head? ≠ some quote

theorem readLines?_close {rest : List Char} (h : Closes '"' rest) :
    readLines? .closed ('"' :: '"' :: '"' :: rest) = some ([], rest) ∧
      readLines? .closed ('"' :: '"' :: '"' :: '"' :: rest) = some (['"'], rest) ∧
      readLines? .closed ('"' :: '"' :: '"' :: '"' :: '"' :: rest) = some (['"', '"'], rest) := by
  cases rest with
  | nil => exact ⟨rfl, rfl, rfl⟩
  | cons c rest =>
    have hc : c ≠ '"' := fun hc => h (by rw [hc]; rfl)
    refine ⟨?_, ?_, rfl⟩
    · rw [readLines?] <;> simp_all
    · rw [readLines?] <;> simp_all

/-- A quote is read as one unless two more follow. -/
theorem readLines?_quote {s : List Char} (h : ∀ t, s ≠ '"' :: '"' :: t) :
    readLines? .closed ('"' :: s) = andThen (some '"') (readLines? .closed s) := by
  rw [readLines?]
  · rfl
  all_goals simp_all

/-- Where no quote is allowed, the text of a character with escapes does not start with one. -/
theorem exists_cons_escaped_ne_quote {c : Char} (h : c = '"' → ¬quotes < quotesAllowed)
    (hasLines : Bool) (s : List Char) :
    ∃ d t, escaped quotesAllowed hasLines quotes (c :: s) = d :: t ∧ d ≠ '"' := by
  obtain ⟨d, t, htext, rfl | ⟨rfl, -, hquote⟩⟩ := exists_cons_escaped c s
  · exact ⟨_, t, htext, by decide⟩
  · exact ⟨d, t, htext, fun hd => h hd (hquote hd)⟩

/-- A quote of a string is read as one: two more that follow it stand right before the closing ones. -/
theorem readLines?_quote_escaped {cs rest : List Char} (hquotes : quotes < 2)
    (hrest : Closes '"' rest)
    (ih : readLines? .closed (escaped 2 true (quotes + 1) cs ++ '"' :: '"' :: '"' :: rest) =
      some (cs, rest)) :
    readLines? .closed ('"' :: (escaped 2 true (quotes + 1) cs ++ '"' :: '"' :: '"' :: rest)) =
      some ('"' :: cs, rest) := by
  cases cs with
  | nil => exact (readLines?_close hrest).2.1
  | cons c cs =>
    by_cases hsecond : c = '"' ∧ quotes + 1 < 2
    · obtain ⟨rfl, hquotes⟩ := hsecond
      rw [escaped_quote, if_pos hquotes] at ih ⊢
      cases cs with
      | nil => exact (readLines?_close hrest).2.2
      | cons d cs =>
        -- a third quote would be escaped
        have hthird : d = '"' → ¬quotes + 1 + 1 < 2 := fun _ => by omega
        obtain ⟨e, t, htext, he⟩ := exists_cons_escaped_ne_quote hthird true cs
        rw [htext] at ih ⊢
        rw [readLines?_quote (by simp [he]), ih]
        rfl
    · obtain ⟨d, t, htext, hd⟩ :=
        exists_cons_escaped_ne_quote (fun hc hlt => hsecond ⟨hc, hlt⟩) true cs
      rw [htext] at ih ⊢
      rw [readLines?_quote (by simp [hd]), ih]
      rfl

theorem readLines?_escaped (cs : List Char) {rest : List Char} (hrest : Closes '"' rest) :
    readLines? .closed (escaped 2 true quotes cs ++ '"' :: '"' :: '"' :: rest) = some (cs, rest) := by
  induction cs generalizing quotes with
  | nil => exact (readLines?_close hrest).1
  | cons c cs ih =>
    by_cases hquote : c = '"'
    · subst hquote
      rw [escaped_quote]
      split_ifs with hquotes
      · exact readLines?_quote_escaped hquotes hrest ih
      · show readLines? .closed
          ('\\' :: '"' :: (escaped 2 true 0 cs ++ '"' :: '"' :: '"' :: rest)) = _
        rw [readsEscapes_lines.letter '"' '"' _ rfl, ih]
        rfl
    · rw [escaped_cons hquote, List.append_assoc,
        readsEscapes_lines.escape hquote (fun _ _ _ => rfl), ih]
      rfl

theorem readLiteralLines?_close {rest : List Char} (h : Closes '\'' rest) :
    readLiteralLines? ('\'' :: '\'' :: '\'' :: rest) = some ([], rest) ∧
      readLiteralLines? ('\'' :: '\'' :: '\'' :: '\'' :: rest) = some (['\''], rest) ∧
      readLiteralLines? ('\'' :: '\'' :: '\'' :: '\'' :: '\'' :: rest) =
        some (['\'', '\''], rest) := by
  cases rest with
  | nil => exact ⟨rfl, rfl, rfl⟩
  | cons c rest =>
    have hc : c ≠ '\'' := fun hc => h (by rw [hc]; rfl)
    refine ⟨?_, ?_, rfl⟩
    · rw [readLiteralLines?] <;> simp_all
    · rw [readLiteralLines?]
      simp_all

/-- Without escapes, a character that is no control is read as itself, a quote unless two more follow. -/
theorem readLiteralLines?_cons {c : Char} {s : List Char} (hc : isControl c = false)
    (hquote : c = '\'' → ∀ t, s ≠ '\'' :: '\'' :: t) :
    readLiteralLines? (c :: s) = andThen (some c) (readLiteralLines? s) := by
  by_cases hbreak : c = '\n'
  · subst hbreak
    rfl
  · have htext := isTextChar_of_not_isControl hc hbreak
    have hreturn := ne_return_of_not_isControl hc
    rw [readLiteralLines?]
    · rw [if_pos htext]
    all_goals simp_all

theorem le_longestRun (c : Char) (run : Nat) (s : List Char) : run ≤ longestRun c run s := by
  induction s generalizing run with
  | nil => exact Nat.le_refl run
  | cons d s ih =>
    rw [longestRun]
    split_ifs
    · exact Nat.le_trans (Nat.le_succ run) (ih (run + 1))
    · exact Nat.le_max_left _ _

theorem longestRun_le_succ (c : Char) (run : Nat) (s : List Char) :
    longestRun c run s ≤ longestRun c (run + 1) s := by
  induction s generalizing run with
  | nil => exact Nat.le_succ run
  | cons d s ih =>
    rw [longestRun, longestRun]
    split_ifs
    · exact ih (run + 1)
    · omega

/-- The longest run of a part is not longer. -/
theorem longestRun_le_cons (c d : Char) (s : List Char) :
    longestRun c 0 s ≤ longestRun c 0 (d :: s) := by
  rw [longestRun]
  split_ifs
  · exact longestRun_le_succ c 0 s
  · exact Nat.le_max_right _ _

theorem readLiteralLines?_append {cs rest : List Char} (hcontrol : ∀ c ∈ cs, isControl c = false)
    (hrun : longestRun '\'' 0 cs ≤ 2) (hrest : Closes '\'' rest) :
    readLiteralLines? (cs ++ '\'' :: '\'' :: '\'' :: rest) = some (cs, rest) := by
  induction cs with
  | nil => exact (readLiteralLines?_close hrest).1
  | cons c cs ih =>
    rw [List.forall_mem_cons] at hcontrol
    have hread := ih hcontrol.2 (Nat.le_trans (longestRun_le_cons _ _ _) hrun)
    by_cases hends : c = '\'' ∧ (cs = [] ∨ cs = ['\''])
    · obtain ⟨rfl, rfl | rfl⟩ := hends
      · exact (readLiteralLines?_close hrest).2.1
      · exact (readLiteralLines?_close hrest).2.2
    · have hquote : c = '\'' → ∀ t, cs ++ '\'' :: '\'' :: '\'' :: rest ≠ '\'' :: '\'' :: t := by
        rintro rfl t ht
        cases cs with
        | nil => exact hends ⟨rfl, .inl rfl⟩
        | cons d cs =>
          obtain ⟨rfl, htail⟩ := List.cons.inj ht
          cases cs with
          | nil => exact hends ⟨rfl, .inr rfl⟩
          | cons e cs =>
            -- three quotes in a row are not shown
            obtain ⟨rfl, -⟩ := List.cons.inj htail
            have hlong := le_longestRun '\'' 3 cs
            simp only [longestRun, if_true, Nat.zero_add, Nat.reduceAdd] at hrun
            omega
      rw [List.cons_append, readLiteralLines?_cons hcontrol.1 hquote, hread]
      rfl

/-! ### Strings of any form -/

/-- The line break behind opening quotes is that of the form, not one of the string. -/
theorem dropBreak_opening {cs s : List Char} (h : '\n' ∉ cs → ∀ c ∈ s.head?, c ≠ '\n' ∧ c ≠ '\r') :
    dropBreak (opening cs ++ s) = s := by
  unfold opening
  rw [List.contains_eq_mem]
  split_ifs with hbreak
  · rfl
  · rw [decide_eq_true_eq] at hbreak
    have hhead := h hbreak
    unfold dropBreak
    split <;> simp_all

theorem readString?_basic {s : List Char} (h : ∀ t, s ≠ '"' :: '"' :: t) :
    readString? ('"' :: s) = (readBasic? s).map fun (cs, s) => (String.ofList cs, s) := by
  rw [readString?]
  exact h

theorem readString?_literal {s : List Char} (h : ∀ t, s ≠ '\'' :: '\'' :: t) :
    readString? ('\'' :: s) = (readLiteral? s).map fun (cs, s) => (String.ofList cs, s) := by
  rw [readString?]
  exact h

section

variable {cs rest : List Char} (hdouble : Closes '"' rest) (hsingle : Closes '\'' rest)

include hdouble in
theorem readString?_write_basic :
    readString? (Form.basic.write cs ++ rest) = some (String.ofList cs, rest) := by
  have htext : Form.basic.write cs ++ rest = '"' :: (escaped 0 false 0 cs ++ '"' :: rest) := by
    simp [Form.write]
  rw [htext, readString?_basic, readBasic?_escaped]
  · rfl
  · intro t ht
    cases cs with
    | nil =>
      obtain ⟨-, ht⟩ := List.cons.inj ht
      exact hdouble (by rw [ht]; rfl)
    | cons c cs =>
      obtain ⟨d, u, htext, hd⟩ :=
        exists_cons_escaped_ne_quote (fun _ => Nat.lt_irrefl 0) false cs
      rw [htext] at ht
      exact hd (List.cons.inj ht).1

include hsingle in
theorem readString?_write_literal (h : Form.literal.shows cs = true) :
    readString? (Form.literal.write cs ++ rest) = some (String.ofList cs, rest) := by
  have htext : Form.literal.write cs ++ rest = '\'' :: (cs ++ '\'' :: rest) := by
    simp [Form.write]
  rw [htext, readString?_literal, readLiteral?_append h]
  · rfl
  · intro t ht
    cases cs with
    | nil =>
      obtain ⟨-, ht⟩ := List.cons.inj ht
      exact hsingle (by rw [ht]; rfl)
    | cons c cs =>
      obtain ⟨rfl, -⟩ := List.cons.inj ht
      simp [Form.shows] at h

include hdouble in
theorem readString?_write_lines :
    readString? (Form.lines.write cs ++ rest) = some (String.ofList cs, rest) := by
  have hquotes : "\"\"\"".toList = ['"', '"', '"'] := by decide
  have htext : Form.lines.write cs ++ rest =
      '"' :: '"' :: '"' :: (opening cs ++ (escaped 2 true 0 cs ++ '"' :: '"' :: '"' :: rest)) := by
    simp [Form.write, hquotes]
  have hopening : dropBreak (opening cs ++ (escaped 2 true 0 cs ++ '"' :: '"' :: '"' :: rest)) =
      escaped 2 true 0 cs ++ '"' :: '"' :: '"' :: rest := by
    refine dropBreak_opening fun hbreak => ?_
    cases cs with
    | nil => simp [escaped]
    | cons c cs =>
      obtain ⟨d, t, hescaped, hd⟩ :
          ∃ d t, escaped 2 true 0 (c :: cs) = d :: t ∧ _ := exists_cons_escaped c cs
      rw [hescaped, List.cons_append, List.head?_cons]
      rintro e ⟨⟩
      obtain rfl | ⟨rfl, hcontrol, -⟩ := hd
      · decide
      · exact ⟨(List.ne_of_not_mem_cons hbreak).symm, ne_return_of_not_isControl hcontrol⟩
  rw [htext, readString?, hopening, readLines?_escaped cs hdouble]
  rfl

include hsingle in
theorem readString?_write_literalLines (h : Form.literalLines.shows cs = true) :
    readString? (Form.literalLines.write cs ++ rest) = some (String.ofList cs, rest) := by
  have hquotes : "'''".toList = ['\'', '\'', '\''] := by decide
  have htext : Form.literalLines.write cs ++ rest =
      '\'' :: '\'' :: '\'' :: (opening cs ++ (cs ++ '\'' :: '\'' :: '\'' :: rest)) := by
    simp [Form.write, hquotes]
  have hopening : dropBreak (opening cs ++ (cs ++ '\'' :: '\'' :: '\'' :: rest)) =
      cs ++ '\'' :: '\'' :: '\'' :: rest := by
    refine dropBreak_opening fun hbreak => ?_
    cases cs with
    | nil => simp
    | cons c cs =>
      rintro e ⟨⟩
      have hcontrol := not_isControl_of_shows h _ List.mem_cons_self
      exact ⟨(List.ne_of_not_mem_cons hbreak).symm, ne_return_of_not_isControl hcontrol⟩
  have hrun : longestRun '\'' 0 cs ≤ 2 := by
    simp only [Form.shows, Bool.and_eq_true, decide_eq_true_eq] at h
    exact h.2
  rw [htext, readString?, hopening,
    readLiteralLines?_append (not_isControl_of_shows h) hrun hsingle]
  rfl

end

/-- The form of a string shows it, or has escapes. -/
theorem formOf_cases (cs : List Char) :
    (formOf cs).shows cs = true ∨ formOf cs = .basic ∨ formOf cs = .lines := by
  unfold formOf
  cases hform : [Form.basic, .literal, .lines, .literalLines].find? (·.shows cs) with
  | some form =>
    have hshows := List.find?_some hform
    exact .inl hshows
  | none =>
    right
    rw [Option.getD_none]
    split_ifs
    · exact .inr rfl
    · exact .inl rfl

/-- A string is read from its text, if what follows does not start with a quote. -/
theorem readString?_quoted (s : String) {rest : List Char} (hdouble : Closes '"' rest)
    (hsingle : Closes '\'' rest) : readString? (quoted s ++ rest) = some (s, rest) := by
  suffices h : readString? (quoted s ++ rest) = some (String.ofList s.toList, rest) by
    rwa [String.ofList_toList] at h
  unfold quoted
  cases hform : formOf s.toList with
  | basic => exact readString?_write_basic hdouble
  | lines => exact readString?_write_lines hdouble
  | literal =>
    have hshows := formOf_cases s.toList
    rw [hform] at hshows
    exact readString?_write_literal hsingle (by simpa using hshows)
  | literalLines =>
    have hshows := formOf_cases s.toList
    rw [hform] at hshows
    exact readString?_write_literalLines hsingle (by simpa using hshows)

end Keyset.Toml
