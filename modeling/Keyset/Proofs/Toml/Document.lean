import Keyset.Proofs.Fields
import Keyset.Proofs.Text.Numeral
import Keyset.Proofs.Toml.Text

/-!
# TOML documents that read back

A document whose lines each give a value to a bare key (`Lists`) is read as the fields that its lines
set, in their order (`Lists.ofText?`).  The value of a line is one that is read up to the line break
(`IsScalar`): a quoted string is, and so is an integer.  Integers take an argument, because dates, times
and floats are tried before them and also start with digits.
-/

namespace Keyset.Toml

/-! ### Integers -/

variable {n : Int} {rest : List Char}

/-- A numeral on a line starts with a digit or a minus sign. -/
theorem signedDigits_eq_cons (n : Int) :
    ∃ c s, Text.signedDigits n = c :: s ∧ (c.isDigit = true ∨ c = '-') := by
  unfold Text.signedDigits
  split_ifs
  · exact ⟨_, _, rfl, .inr rfl⟩
  · obtain ⟨c, s, hs, hc⟩ := Text.digits_eq_cons n.natAbs
    exact ⟨c, s, hs, .inl hc⟩

theorem digits_of_readDigits? {width m : Nat} {s t : List Char}
    (h : Instant.readDigits? width s = some (m, t)) :
    ∃ ds, s = ds ++ t ∧ ds.length = width ∧ ∀ c ∈ ds, c.isDigit = true := by
  simp only [Instant.readDigits?] at h
  split_ifs at h with hdigits
  cases h
  exact ⟨_, (List.take_append_drop width s).symm, hdigits.1, List.all_eq_true.mp hdigits.2⟩

/-- Behind the first digits of a numeral stands another one, or the end of the line. -/
theorem readChar?_of_readDigits? {width m : Nat} {s : List Char}
    (h : Instant.readDigits? (width + 1) (Text.signedDigits n ++ '\n' :: rest) = some (m, s))
    {c : Char} (hdigit : c.isDigit = false) (hbreak : c ≠ '\n') : Instant.readChar? c s = none := by
  obtain ⟨ds, htext, hlength, hds⟩ := digits_of_readDigits? h
  unfold Text.signedDigits at htext
  split_ifs at htext
  · -- a sign is no digit
    cases ds with
    | nil => cases hlength
    | cons d ds =>
      obtain ⟨rfl, -⟩ := List.cons.inj htext
      exact absurd (hds '-' List.mem_cons_self) (by decide)
  · -- what was read ends with the numeral or within it, as no line break was read
    rcases List.append_eq_append_iff.mp htext with ⟨t, rfl, hs⟩ | ⟨t, hs, rfl⟩
    · cases t with
      | nil =>
        rw [List.nil_append] at hs
        rw [← hs]
        exact if_neg hbreak.symm
      | cons d t =>
        obtain ⟨rfl, -⟩ := List.cons.inj hs
        exact absurd (hds '\n' (by simp)) (by decide)
    · cases t with
      | nil => exact if_neg hbreak.symm
      | cons d t =>
        have hd : d ∈ Text.digits n.natAbs := by simp [hs]
        exact if_neg (Text.ne_of_isDigit (Text.isDigit_of_mem_digits hd) hdigit)

theorem readDateTime?_integer : readDateTime? (Text.signedDigits n ++ '\n' :: rest) = none := by
  have hdate : readDate? (Text.signedDigits n ++ '\n' :: rest) = none := by
    unfold readDate?
    cases hread : Instant.readDigits? 4 (Text.signedDigits n ++ '\n' :: rest) with
    | none => rfl
    | some read =>
      show (Instant.readChar? '-' read.2).bind _ = none
      rw [readChar?_of_readDigits? hread rfl (by decide)]
      rfl
  have htime : readTime? (Text.signedDigits n ++ '\n' :: rest) = none := by
    unfold readTime? readField?
    cases hread : Instant.readDigits? 2 (Text.signedDigits n ++ '\n' :: rest) with
    | none => rfl
    | some read =>
      have hcolon := readChar?_of_readDigits? hread (c := ':') rfl (by decide)
      show ((if 0 ≤ read.1 ∧ read.1 ≤ 23 then some (read.1, read.2) else none).bind _) = none
      split_ifs
      · show (Instant.readChar? ':' read.2).bind _ = none
        rw [hcolon]
        rfl
      · rfl
  unfold readDateTime?
  rw [hdate, htime]
  rfl

theorem readSign_signedDigits (n : Int) (s : List Char) : ∃ sign,
    readSign (Text.signedDigits n ++ s) = (sign, Text.digits n.natAbs ++ s) ∧
      sign ++ Text.digits n.natAbs = Text.signedDigits n := by
  unfold Text.signedDigits
  split_ifs
  · exact ⟨['-'], rfl, rfl⟩
  · obtain ⟨c, t, ht, hc⟩ := Text.digits_eq_cons n.natAbs
    refine ⟨[], ?_, rfl⟩
    rw [ht, List.cons_append, readSign]
    all_goals
      rintro u heq
      obtain ⟨rfl, -⟩ := List.cons.inj heq
      cases hc

/-- Digits are read up to the end of their line. -/
theorem readDigits?_append {s : List Char} (hs : s ≠ []) (hdigits : ∀ c ∈ s, c.isDigit = true)
    (rest : List Char) :
    readDigits? Char.isDigit (s ++ '\n' :: rest) = some (s, '\n' :: rest) := by
  induction s with
  | nil => exact absurd rfl hs
  | cons c s ih =>
    rw [List.forall_mem_cons] at hdigits
    cases s with
    | nil =>
      rw [List.singleton_append, readDigits?]
      · rw [if_pos hdigits.1]
        rfl
      · nofun
    | cons d s =>
      have hd : d.isDigit = true := hdigits.2 d List.mem_cons_self
      have hread := ih (List.cons_ne_nil d s) hdigits.2
      rw [List.cons_append] at hread
      rw [List.cons_append, List.cons_append]
      rw [readDigits?, if_pos hdigits.1]
      · simp only [hd, if_true, hread, Option.map_some]
      · rintro e t heq
        obtain ⟨rfl, -⟩ := List.cons.inj heq
        cases hd

theorem readWhole?_digits (n : Nat) (rest : List Char) :
    readWhole? (Text.digits n ++ '\n' :: rest) = some (Text.digits n, '\n' :: rest) := by
  rcases Nat.eq_zero_or_pos n with rfl | hn
  · rfl
  · obtain ⟨c, s, hs, -, hc⟩ := Text.exists_digits_of_pos hn
    have hread := readDigits?_append (s := Text.digits n) (by simp [hs])
      (fun c => Text.isDigit_of_mem_digits) rest
    rw [hs] at hread ⊢
    rw [List.cons_append] at hread ⊢
    rw [readWhole?]
    · exact hread
    · intro t heq
      exact hc (List.cons.inj heq).1

theorem readFloat?_integer : readFloat? (Text.signedDigits n ++ '\n' :: rest) = none := by
  obtain ⟨sign, hsign, -⟩ := readSign_signedDigits n ('\n' :: rest)
  have hdigits : readFloatDigits? (Text.signedDigits n ++ '\n' :: rest) = none := by
    unfold readFloatDigits?
    rw [hsign]
    show (readWhole? (Text.digits n.natAbs ++ '\n' :: rest)).bind _ = none
    rw [readWhole?_digits]
    rfl
  obtain ⟨c, s, hs, hc⟩ := Text.digits_eq_cons n.natAbs
  unfold readFloat?
  rw [hsign, hdigits, hs, List.cons_append]
  -- behind its sign a numeral starts like neither an infinity nor a NaN
  split <;> simp_all

/-- A numeral that starts with a zero is zero. -/
theorem signedDigits_zero_cons {t : List Char}
    (h : Text.signedDigits n ++ '\n' :: rest = '0' :: t) : t = '\n' :: rest := by
  unfold Text.signedDigits at h
  split_ifs at h
  · cases h
  · rcases Nat.eq_zero_or_pos n.natAbs with hzero | hpos
    · rw [hzero] at h
      exact (List.cons.inj h).2.symm
    · obtain ⟨c, s, hs, -, hc⟩ := Text.exists_digits_of_pos hpos
      rw [hs] at h
      exact absurd (List.cons.inj h).1 hc

theorem readInteger?_signedDigits (n : Int64) (rest : List Char) :
    readInteger? (Text.signedDigits n.toInt ++ '\n' :: rest) = some (.integer n, '\n' :: rest) := by
  obtain ⟨sign, hsign, htext⟩ := readSign_signedDigits n.toInt ('\n' :: rest)
  unfold readInteger?
  split
  case h_4 =>
    rw [hsign]
    show (readWhole? (Text.digits n.toInt.natAbs ++ '\n' :: rest)).bind _ = _
    rw [readWhole?_digits]
    show (Text.integer64? (sign ++ Text.digits n.toInt.natAbs)).bind _ = _
    rw [htext, Text.integer64?_signedDigits]
    rfl
  -- a numeral has no letter behind a zero
  all_goals cases signedDigits_zero_cons ‹_›

/-! ### Values -/

/-- A text that is read as a value up to the end of its line. -/
structure IsScalar (text : List Char) (v : Toml) : Prop where
  starts : ∃ c s, text = c :: s ∧ c ∉ [' ', '\t', '[', '\x7b']
  read : ∀ rest, readScalar? (text ++ '\n' :: rest) = some (v, '\n' :: rest)

theorem isScalar_signedDigits (n : Int64) :
    IsScalar (Text.signedDigits n.toInt) (.integer n) where
  starts := by
    obtain ⟨c, s, hs, hc⟩ := signedDigits_eq_cons n.toInt
    refine ⟨c, s, hs, fun hmem => ?_⟩
    simp only [List.mem_cons, List.not_mem_nil, or_false] at hmem
    rcases hmem with rfl | rfl | rfl | rfl
    all_goals exact absurd hc (by decide)
  read rest := by
    obtain ⟨c, s, hs, hc⟩ := signedDigits_eq_cons n.toInt
    have hread : ((readDateTime? (Text.signedDigits n.toInt ++ '\n' :: rest)).or
        (readFloat? (Text.signedDigits n.toInt ++ '\n' :: rest))).or
        (readInteger? (Text.signedDigits n.toInt ++ '\n' :: rest)) =
          some (.integer n, '\n' :: rest) := by
      rw [readDateTime?_integer, readFloat?_integer, readInteger?_signedDigits]
      rfl
    rw [hs, List.cons_append] at hread ⊢
    unfold readScalar?
    split
    case h_5 => exact hread
    -- Booleans and strings start otherwise
    all_goals
      rename_i heq
      obtain ⟨rfl, -⟩ := List.cons.inj heq
      exact absurd hc (by decide)

theorem quoted_eq_cons (s : String) : ∃ c t, quoted s = c :: t ∧ (c = '"' ∨ c = '\'') := by
  unfold quoted Form.write
  cases formOf s.toList
  · exact ⟨_, _, rfl, .inl rfl⟩
  · exact ⟨_, _, rfl, .inr rfl⟩
  · exact ⟨_, _, rfl, .inl rfl⟩
  · exact ⟨_, _, rfl, .inr rfl⟩

theorem isScalar_quoted (s : String) : IsScalar (quoted s) (.string s) where
  starts := by
    obtain ⟨c, t, ht, rfl | rfl⟩ := quoted_eq_cons s
    · exact ⟨_, t, ht, by decide⟩
    · exact ⟨_, t, ht, by decide⟩
  read rest := by
    have hread : readString? (quoted s ++ '\n' :: rest) = some (s, '\n' :: rest) :=
      readString?_quoted s nofun nofun
    obtain ⟨c, t, ht, rfl | rfl⟩ := quoted_eq_cons s
    all_goals
      rw [ht] at hread ⊢
      show (readString? _).map _ = _
      rw [hread]
      rfl

theorem IsScalar.readValue? {text : List Char} {v : Toml} (h : IsScalar text v)
    (fuel depth : Nat) (rest : List Char) :
    readValue? (fuel + 1) depth (text ++ '\n' :: rest) = some (v, '\n' :: rest) := by
  obtain ⟨c, s, rfl, hc⟩ := h.starts
  rw [Toml.readValue?, h.read]
  all_goals simp_all

/-! ### Lines -/

/-- A key that need not be quoted. -/
def IsBareKey (key : String) : Prop :=
  key.toList ≠ [] ∧ key.toList.all isKeyChar = true

instance (key : String) : Decidable (IsBareKey key) :=
  inferInstanceAs (Decidable (_ ∧ _))

theorem IsBareKey.isKeyChar_of_mem {key : String} (h : IsBareKey key) :
    ∀ c ∈ key.toList, isKeyChar c = true :=
  List.all_eq_true.mp h.2

theorem IsBareKey.exists_cons {key : String} (h : IsBareKey key) :
    ∃ c s, key.toList = c :: s ∧ isKeyChar c = true := by
  obtain ⟨c, s, hs⟩ := List.exists_cons_of_ne_nil h.1
  exact ⟨c, s, hs, h.isKeyChar_of_mem c (hs ▸ List.mem_cons_self)⟩

/-- A character of a bare key is none of those that stand for something else at the start of a line. -/
theorem ne_of_isKeyChar {c d : Char} (hc : isKeyChar c = true) (hd : isKeyChar d = false) : c ≠ d := by
  rintro rfl
  rw [hc] at hd
  cases hd

theorem readKey?_bare {key : String} (h : IsBareKey key) (rest : List Char) :
    readKey? (key.toList ++ ' ' :: rest) = some (key, ' ' :: rest) := by
  obtain ⟨c, s, hs, hc⟩ := h.exists_cons
  have hspan : (key.toList ++ ' ' :: rest).span isKeyChar = (key.toList, ' ' :: rest) := by
    rw [List.span_eq_takeWhile_dropWhile, List.takeWhile_append_of_pos h.isKeyChar_of_mem,
      List.dropWhile_append_of_pos h.isKeyChar_of_mem]
    simp [show isKeyChar ' ' = false from rfl]
  rw [hs, List.cons_append] at hspan ⊢
  rw [readKey?, hspan]
  · show some (String.ofList (c :: s), _) = _
    rw [← hs, String.ofList_toList]
  · intro t heq
    exact ne_of_isKeyChar hc rfl (List.cons.inj heq).1
  · intro t heq
    exact ne_of_isKeyChar hc rfl (List.cons.inj heq).1

/-- No key starts with a blank. -/
theorem IsBareKey.skipBlanks {key : String} (h : IsBareKey key) (rest : List Char) :
    skipBlanks (key.toList ++ rest) = key.toList ++ rest := by
  obtain ⟨c, s, hs, hc⟩ := h.exists_cons
  have hspace := ne_of_isKeyChar (d := ' ') hc rfl
  have htab := ne_of_isKeyChar (d := '\t') hc rfl
  rw [hs, List.cons_append]
  exact List.dropWhile_cons_of_neg (by simp [isBlank, hspace, htab])

theorem readKeys?_bare {key : String} (h : IsBareKey key) (fuel : Nat) (rest : List Char) :
    readKeys? (fuel + 1) (key.toList ++ ' ' :: '=' :: rest) = some ([key], '=' :: rest) := by
  rw [readKeys?, h.skipBlanks, readKey?_bare h]
  rfl

theorem IsScalar.skipBlanks {value : List Char} {v : Toml} (h : IsScalar value v)
    (rest : List Char) : Toml.skipBlanks (' ' :: (value ++ rest)) = value ++ rest := by
  obtain ⟨c, s, rfl, hc⟩ := h.starts
  simp only [List.mem_cons, not_or] at hc
  show List.dropWhile isBlank (c :: (s ++ rest)) = _
  exact List.dropWhile_cons_of_neg (by simp [isBlank, hc])

/-- A document that was given values so far, and no header. -/
def State.ofEntries (entries : Fields Node) : State :=
  ⟨⟨.defined, entries⟩, []⟩

theorem State.insert?_ofEntries {entries : Fields Node} {key : String} (h : key ∉ entries.names)
    (v : Toml) : (State.ofEntries entries).insert? [] key v =
      some (State.ofEntries (entries ++ [(key, .value v)])) := by
  have hhas : entries.has key = false := by
    rw [Fields.has, Fields.get?_of_notMem h]
    rfl
  have hinsert : Section.insert [] key v ⟨.defined, entries⟩ =
      some ⟨.defined, entries ++ [(key, .value v)]⟩ := by
    simp [Section.insert, Section.change, hhas, Fields.put_of_notMem h]
  show (Section.insert [] key v ⟨.defined, entries⟩).bind _ = _
  rw [hinsert]
  rfl

/-- A line that gives a value to a bare key is read as that. -/
theorem readRest?_entry {key : String} {value : List Char} {v : Toml} {entries : Fields Node}
    (hkey : IsBareKey key) (hvalue : IsScalar value v) (hnew : key ∉ entries.names) (fuel : Nat)
    (rest : List Char) : readRest? (fuel + 1) (.ofEntries entries) (entry key value ++ rest) =
      readRest? fuel (.ofEntries (entries ++ [(key, .value v)])) rest := by
  have htext : entry key value ++ rest =
      key.toList ++ ' ' :: '=' :: ' ' :: (value ++ '\n' :: rest) := by
    simp [entry, show " = ".toList = [' ', '=', ' '] by decide]
  obtain ⟨c, s, hs, hc⟩ := hkey.exists_cons
  rw [htext, readRest?, hkey.skipBlanks, hs, List.cons_append]
  split
  case h_7 =>
    rw [← List.cons_append, ← hs, maxDepth, readKeys?_bare hkey]
    show (readValue? (2 * (skipBlanks (' ' :: (value ++ '\n' :: rest))).length + 1) 79
      (skipBlanks (' ' :: (value ++ '\n' :: rest)))).bind _ = _
    rw [hvalue.skipBlanks, hvalue.readValue?]
    show ((State.ofEntries entries).insert? [] key v).bind _ = _
    rw [State.insert?_ofEntries hnew]
    rfl
  case h_1 heq => cases heq
  -- all other lines start with a character that no bare key has
  all_goals
    rename_i heq
    obtain ⟨rfl, -⟩ := List.cons.inj heq
    cases hc

/-! ### Documents -/

/-- The entries of values that were given to keys. -/
def nodes (fields : Table) : Fields Node :=
  fields.map fun f => (f.1, .value f.2)

theorem fields_nodes (fields : Table) : Node.fields (nodes fields) = fields := by
  induction fields with
  | nil => rfl
  | cons f fields ih =>
    rw [nodes, List.map_cons, Node.fields]
    exact congrArg _ ih

/-- A text that lists fields: each of its lines gives the value of the next one to a bare key. -/
inductive Lists : List Char → Table → Prop
  | nil : Lists [] []
  | cons {key : String} {value text : List Char} {v : Toml} {fields : Table} (hkey : IsBareKey key)
    (hvalue : IsScalar value v) (htext : Lists text fields) :
    Lists (entry key value ++ text) ((key, v) :: fields)

namespace Lists

variable {text other : List Char} {fields more : Table}

theorem string {key : String} (h : IsBareKey key) (s : String) :
    Lists (stringEntry key s) [(key, .string s)] := by
  rw [stringEntry, ← List.append_nil (entry _ _)]
  exact cons h (isScalar_quoted s) nil

theorem integer {key : String} (h : IsBareKey key) (n : Int64) :
    Lists (integerEntry key n) [(key, .integer n)] := by
  rw [integerEntry, ← List.append_nil (entry _ _)]
  exact cons h (isScalar_signedDigits n) nil

theorem append (h : Lists text fields) (hother : Lists other more) :
    Lists (text ++ other) (fields ++ more) := by
  induction h with
  | nil => exact hother
  | cons hkey hvalue _ ih =>
    rw [List.append_assoc, List.cons_append]
    exact cons hkey hvalue ih

/-- An entry that may be left out. -/
theorem option {α : Type} {line : α → List Char} {field : α → String × Toml}
    (h : ∀ a, Lists (line a) [field a]) (a : Option α) :
    Lists ((a.map line).getD []) (a.map field).toList := by
  cases a with
  | none => exact nil
  | some a => exact h a

theorem length_le (h : Lists text fields) : fields.length ≤ text.length := by
  induction h with
  | nil => exact Nat.le_refl 0
  | cons hkey _ _ ih =>
    have hpos := List.length_pos_iff.mpr hkey.1
    simp only [entry, List.length_append, List.length_cons]
    omega

/-- The lines are read one after another, each into an entry of its own. -/
theorem readRest? (h : Lists text fields) {entries : Fields Node} {fuel : Nat}
    (hnodup : (entries.names ++ fields.names).Nodup) (hfuel : fields.length < fuel) :
    readRest? fuel (.ofEntries entries) text = some (.ofEntries (entries ++ nodes fields)) := by
  -- the entries of the lines read so far stand before the others
  induction h generalizing entries fuel with
  | nil =>
    obtain ⟨fuel, rfl⟩ := Nat.exists_eq_add_of_lt hfuel
    rw [nodes, List.map_nil, List.append_nil]
    rfl
  | @cons key value text v fields hkey hvalue _ ih =>
    obtain ⟨fuel, rfl⟩ := Nat.exists_eq_add_one_of_ne_zero (Nat.ne_zero_of_lt hfuel)
    have hsplit : entries.names ++ Fields.names ((key, v) :: fields) =
        Fields.names (entries ++ [(key, .value v)]) ++ fields.names := by
      simp [Fields.names]
    have hnew : key ∉ entries.names := fun hmem =>
      (List.nodup_append.mp hnodup).2.2 key hmem key List.mem_cons_self rfl
    rw [readRest?_entry hkey hvalue hnew, ih (hsplit ▸ hnodup) (Nat.lt_of_succ_lt_succ hfuel),
      List.append_assoc]
    rfl

/-- No line starts with a byte order mark. -/
theorem ne_mark (h : Lists text fields) (s : List Char) : text ≠ '\ufeff' :: s := by
  cases h with
  | nil => nofun
  | cons hkey _ _ =>
    obtain ⟨c, t, ht, hc⟩ := hkey.exists_cons
    intro heq
    rw [entry, ht] at heq
    exact ne_of_isKeyChar hc rfl (List.cons.inj heq).1

/-- A document is read as the fields that it lists. -/
theorem ofText? (h : Lists text fields) (hnodup : fields.names.Nodup) :
    ofText? (String.ofList text) = some fields := by
  have hread : Toml.readRest? (text.length + 1) (.ofEntries []) text =
      some (.ofEntries (nodes fields)) := h.readRest? hnodup (Nat.lt_succ_of_le h.length_le)
  have htext : Toml.ofText? (String.ofList text) =
      (Toml.readRest? (text.length + 1) (.ofEntries []) text).map fun state =>
        state.document.fields := by
    unfold Toml.ofText?
    rw [String.toList_ofList]
    split
    · exact absurd rfl (h.ne_mark _)
    · rfl
  rw [htext, hread, Option.map_some]
  exact congrArg some (fields_nodes fields)

end Lists

end Keyset.Toml
