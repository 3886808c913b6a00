import Keyset.Cursor.Text
import Keyset.Document.Extended
import Keyset.Proofs.Document.Comparison
import Keyset.Proofs.Double.Text
import Keyset.Proofs.Text.Cutting

/-!
# Values in cursors

What a cursor says of a value that its column takes reads back as that value, or as the nearest double
in a column of floats (`ReadsBack.exists_survives`); for the values of documents that means the same
value up to the width of integers (`exists_readsBack_of_fits`).  Whatever else is written reads as a value of
another rank, if it is read at all (`readValue_writeValue?`).
-/

namespace Keyset

namespace Cursor

/-! ### Reading by kind -/

theorem readValue_integer {col : OrderBy} {isLast : Bool} {s : List Char}
    (h : kindAt col isLast = some .integer) {n : Int64} (hs : Text.integer64? s = some n) :
    readValue col isLast s = .ok (.ofInt64 n) := by
  simp [readValue, h, hs]

theorem readValue_float {col : OrderBy} {isLast : Bool} {s : List Char}
    (h : kindAt col isLast = some .float) {x : Double} (hx : x.isFinite = true)
    (hs : Double.ofText? s = some x) :
    readValue col isLast s = .ok (.number (.double x hx)) := by
  simp [readValue, h, hs, Number.ofDouble?, hx]

theorem readValue_string {col : OrderBy} {isLast : Bool} {s : List Char}
    (h : kindAt col isLast = some .string) :
    readValue col isLast s = .ok (.string (String.ofList s)) := by
  simp [readValue, h]

theorem readValue_none {col : OrderBy} {isLast : Bool} {s : List Char}
    (h : kindAt col isLast = none) : readValue col isLast s = .ok (untyped s) := by
  simp [readValue, h]

theorem untyped_of_integer {s : List Char} {n : Int64} (h : Text.integer64? s = some n) :
    untyped s = .ofInt64 n := by
  unfold untyped
  split
  · rename_i t
    have hmark : Text.integer64? ('\'' :: t) = none :=
      Text.integer64?_eq_none List.mem_cons_self rfl (by decide) (by decide)
    rw [hmark] at h
    cases h
  · rw [h]

/-- The value of an integer of a signed word is a number with its double. -/
theorem ofJson?_ofInt64 (n : Int64) : ∃ v, Value.ofJson? (.ofInt64 n) = some v ∧
    v.toDouble? = some (.ofInt n.toInt) ∧ v.isScalar = true := by
  have hword : Word.int64? n.toInt = some n := Word.int64?_eq_some_iff.mpr rfl
  have hread : Value.ofJson? (.ofInt64 n)
      = some (((Word.int32? n.toInt).map Value.int32).getD (.int64 n)) := by
    show some (Value.ofNumber (.ofInt64 n)) = _
    have hint : (Number.ofInt64 n).int64? = some n := hword
    rw [Value.ofNumber, hint]
  refine ⟨_, hread, ?_⟩
  cases h : Word.int32? n.toInt with
  | none => exact ⟨rfl, rfl⟩
  | some m =>
    have hm : m.toInt = n.toInt := Word.int32?_eq_some_iff.mp h
    refine ⟨?_, rfl⟩
    show some (Double.ofInt m.toInt) = _
    rw [hm]

/-! ### What is written -/

theorem toJson_double {y : Double} (h : y.isFinite = true) :
    (Value.double y).toJson = .number (.double y h) := by
  show Value.doubleToJson .relaxed y = _
  rw [Value.doubleToJson, dif_pos h]

/-- A text is written as it is, unless it has a separator. -/
theorem valueText?_string_eq_some_iff {s : String} {t : List Char} :
    valueText? (.string s) = some t ↔ separator ∉ s.toList ∧ t = s.toList := by
  show (if s.toList.contains separator then none else some s.toList) = some t ↔ _
  by_cases hsep : separator ∈ s.toList
  · rw [if_pos (by simpa using hsep)]
    simp [hsep]
  · rw [if_neg (by simpa using hsep), Option.some.injEq, eq_comm]
    exact (and_iff_right hsep).symm

/-- The values that can be written: numbers, truth values, texts without a separator, and
identifiers or documents in the form of one. -/
theorem valueText?_toJson {x : Value} {t : List Char} (h : valueText? x.toJson = some t) :
    (∃ n : Int64, x.toDouble? = some (.ofInt n.toInt) ∧ needsMark x.toJson = false ∧
      t = Text.signedDigits n.toInt) ∨
    (∃ y : Double, x = .double y ∧ y.isFinite = true ∧ t = Json.doubleText y) ∨
    (∃ b : Bool, x = .boolean b ∧ t = (if b then "true" else "false").toList) ∨
    (∃ s : String, x = .string s ∧ separator ∉ t ∧ t = s.toList) ∨
    (x.rank = 7 ∨ x.rank = 4) := by
  cases x with
  | int32 n =>
    refine .inl ⟨n.toInt64, ?_, rfl, ?_⟩
    · rw [Int32.toInt_toInt64]
      rfl
    · rw [Int32.toInt_toInt64]
      exact (Option.some.inj h).symm
  | int64 n => exact .inl ⟨n, rfl, rfl, (Option.some.inj h).symm⟩
  | double y =>
    by_cases hy : y.isFinite = true
    · refine .inr (.inl ⟨y, rfl, hy, ?_⟩)
      rw [toJson_double hy] at h
      exact (Option.some.inj h).symm
    · have hjson : ∃ s, (Value.double y).toJson = .object [("$numberDouble", .string s)] := by
        show ∃ s, Value.doubleToJson .relaxed y = _
        rw [Value.doubleToJson, dif_neg hy]
        exact ⟨_, rfl⟩
      obtain ⟨s, hs⟩ := hjson
      rw [hs] at h
      cases h
  | boolean b => exact .inr (.inr (.inl ⟨b, rfl, (Option.some.inj h).symm⟩))
  | string s =>
    obtain ⟨hsep, rfl⟩ := valueText?_string_eq_some_iff.mp h
    exact .inr (.inr (.inr (.inl ⟨s, rfl, hsep, rfl⟩)))
  | objectId id => exact .inr (.inr (.inr (.inr (.inl rfl))))
  | document fields => exact .inr (.inr (.inr (.inr (.inr rfl))))
  | dateTime millis =>
    have hjson : ∃ v, (Value.dateTime millis).toJson = .object [("$date", v)] := by
      show ∃ v, Value.dateTimeToJson .relaxed millis = _
      unfold Value.dateTimeToJson
      split <;> exact ⟨_, rfl⟩
    obtain ⟨v, hv⟩ := hjson
    rw [hv] at h
    cases v <;> cases h
  | _ => cases h

theorem kindAt_eq_none {col : OrderBy} {isLast : Bool} :
    kindAt col isLast = none ↔ col.kind = none ∧ isLast = false := by
  unfold kindAt
  cases col.kind <;> cases isLast <;> simp

theorem writeValue?_of_kind {col : OrderBy} {isLast : Bool} {k : ColumnKind}
    (h : kindAt col isLast = some k) (v : Json) : writeValue? col isLast v = valueText? v := by
  have hmark : (col.kind.isNone && !isLast) = false := by
    cases hkind : col.kind <;> cases isLast <;> simp_all [kindAt]
  unfold writeValue?
  rw [hmark]
  simp

theorem writeValue?_of_none {col : OrderBy} {isLast : Bool} (h : kindAt col isLast = none)
    (v : Json) : writeValue? col isLast v =
      (valueText? v).map fun s => if needsMark v then stringMark :: s else s := by
  obtain ⟨hkind, hlast⟩ := kindAt_eq_none.mp h
  unfold writeValue?
  rw [hkind, hlast]
  simp

/-- A string behind a mark where it needs one is read as itself. -/
theorem untyped_marked (s : String) :
    untyped (if needsMark (.string s) then stringMark :: s.toList else s.toList) = .string s := by
  have hself : Json.string (String.ofList s.toList) = .string s := by rw [String.ofList_toList]
  cases hmark : needsMark (.string s) with
  | true =>
    rw [if_pos rfl, ← hself]
    rfl
  | false =>
    rw [if_neg Bool.false_ne_true]
    cases hread : untyped s.toList with
    | string u =>
      have hu : u = s := by simpa [needsMark, hread] using hmark
      rw [hu]
    | _ => simp [needsMark, hread] at hmark

/-! ### What is read -/

/-- The values that a column's text is read as. -/
theorem readValue_cases {col : OrderBy} {isLast : Bool} {s : List Char} {w : Json}
    (h : readValue col isLast s = .ok w) :
    (kindAt col isLast = some .integer ∧ ∃ n, Text.integer64? s = some n ∧ w = .ofInt64 n) ∨
    (kindAt col isLast = some .float ∧
      ∃ x, ∃ hx, Double.ofText? s = some x ∧ w = .number (.double x hx)) ∨
    (kindAt col isLast = some .string ∧ w = .string (String.ofList s)) ∨
    (kindAt col isLast = none ∧ w = untyped s) := by
  unfold readValue at h
  cases hkind : kindAt col isLast with
  | none =>
    rw [hkind] at h
    exact .inr (.inr (.inr ⟨rfl, (Except.ok.inj h).symm⟩))
  | some k =>
    rw [hkind] at h
    cases k with
    | integer =>
      cases hn : Text.integer64? s with
      | none =>
        rw [hn] at h
        cases h
      | some n =>
        rw [hn] at h
        exact .inl ⟨rfl, n, rfl, (Except.ok.inj h).symm⟩
    | float =>
      cases hx : Double.ofText? s with
      | none =>
        rw [hx] at h
        cases h
      | some x =>
        rw [hx, Option.bind_some] at h
        by_cases hfin : x.isFinite = true
        · rw [Number.ofDouble?, dif_pos hfin] at h
          exact .inr (.inl ⟨rfl, x, hfin, rfl, (Except.ok.inj h).symm⟩)
        · rw [Number.ofDouble?, dif_neg hfin] at h
          cases h
    | string => exact .inr (.inr (.inl ⟨rfl, (Except.ok.inj h).symm⟩))

theorem ofJson?_double (x : Double) (hx : x.isFinite = true) :
    Value.ofJson? (.number (.double x hx)) = some (.double x) := rfl

theorem isNaN_of_isFinite {x : Double} (h : x.isFinite = true) : x.isNaN = false := by
  unfold Double.isFinite at h
  unfold Double.isNaN
  simp only [decide_eq_true_eq, decide_eq_false_iff_not] at *
  omega

/-- A text without a type is read as a scalar, and never as null. -/
theorem isScalar_untyped (s : List Char) :
    ∃ v, Value.ofJson? (untyped s) = some v ∧ v.isScalar = true ∧ v ≠ .null := by
  unfold untyped
  split
  · exact ⟨_, rfl, rfl, by rintro ⟨⟩⟩
  · split
    · rename_i n hn
      obtain ⟨v, hv, hdouble, hscalar⟩ := ofJson?_ofInt64 n
      exact ⟨v, hv, hscalar, fun h => by rw [h] at hdouble; cases hdouble⟩
    · rename_i x hx
      obtain ⟨y, -, hy⟩ := Option.bind_eq_some_iff.mp hx
      unfold Number.ofDouble? at hy
      split_ifs at hy with hfin
      rw [← Option.some.inj hy, ofJson?_double]
      refine ⟨_, rfl, ?_, by rintro ⟨⟩⟩
      rw [Value.isScalar, isNaN_of_isFinite hfin]
      rfl
    · split_ifs <;> exact ⟨_, rfl, rfl, by rintro ⟨⟩⟩

/-- Whatever is read is a scalar, and never null. -/
theorem isScalar_readValue {col : OrderBy} {isLast : Bool} {s : List Char} {w : Json}
    (h : readValue col isLast s = .ok w) :
    ∃ v, Value.ofJson? w = some v ∧ v.isScalar = true ∧ v ≠ .null := by
  rcases readValue_cases h with ⟨-, n, -, rfl⟩ | ⟨-, x, hx, -, rfl⟩ | ⟨-, rfl⟩ | ⟨-, rfl⟩
  · obtain ⟨v, hv, hdouble, hscalar⟩ := ofJson?_ofInt64 n
    exact ⟨v, hv, hscalar, fun h => by rw [h] at hdouble; cases hdouble⟩
  · refine ⟨_, ofJson?_double x hx, ?_, by rintro ⟨⟩⟩
    rw [Value.isScalar, isNaN_of_isFinite hx]
    rfl
  · exact ⟨_, rfl, rfl, by rintro ⟨⟩⟩
  · exact isScalar_untyped s

theorem length_digits_natAbs (n : Int64) : (Text.digits n.toInt.natAbs).length ≤ 400 := by
  have hlo := n.le_toInt
  have hhi := n.toInt_lt
  have hdigits : (Text.digits n.toInt.natAbs).length ≤ 19 :=
    (Nat.length_toDigits_le_iff (by decide) (by decide)).mpr (by omega)
  omega

/-- The word of an integer is read from its text as the double nearest to it. -/
theorem ofText?_int64 (n : Int64) :
    Double.ofText? (Text.signedDigits n.toInt) = some (.ofInt n.toInt) :=
  Double.ofText?_signedDigits (length_digits_natAbs n)

theorem head?_ne_mark {t : List Char} (h : ∀ c ∈ t, Double.isNumeral c = true) :
    t.head? ≠ some stringMark := by
  intro hhead
  have hmark := h stringMark (List.mem_of_head? hhead)
  cases hmark

theorem untyped_of_double {s : List Char} {x : Double} (hint : Text.integer64? s = none)
    (hx : Double.ofText? s = some x) (hfin : x.isFinite = true) (hmark : s.head? ≠ some stringMark) :
    untyped s = .number (.double x hfin) := by
  unfold untyped
  split
  · exact absurd rfl hmark
  · rw [hint, hx, Option.bind_some, Number.ofDouble?, dif_pos hfin]

theorem untyped_bool (b : Bool) : untyped (if b then "true" else "false").toList = .bool b := by
  cases b <;> rfl

theorem integer64?_bool (b : Bool) :
    Text.integer64? (if b then "true" else "false").toList = none := by
  cases b <;> decide

theorem ofText?_bool (b : Bool) : Double.ofText? (if b then "true" else "false").toList = none := by
  cases b <;> decide

/-- What reads as an integer was written for that number, or for no number. -/
theorem toDouble?_of_integer {x : Value} {t : List Char} {n : Int64}
    (ht : valueText? x.toJson = some t) (hn : Text.integer64? t = some n) :
    x.toDouble? = some (.ofInt n.toInt) ∨ x.rank ≠ 2 := by
  rcases valueText?_toJson ht with ⟨m, hm, -, rfl⟩ | ⟨z, -, -, rfl⟩ | ⟨b, -, rfl⟩ | ⟨s, rfl, -⟩ |
    hrank
  · rw [Text.integer64?_signedDigits] at hn
    rw [← Option.some.inj hn]
    exact .inl hm
  · -- doubles have a point or an exponent
    rw [Double.integer64?_doubleText] at hn
    cases hn
  · rw [integer64?_bool] at hn
    cases hn
  · exact .inr (by simp [Value.rank])
  · exact .inr (by omega)

/-- What reads as a double was written for a number with that double, or for no number. -/
theorem alike_of_double {x : Value} {t : List Char} {y : Double}
    (ht : valueText? x.toJson = some t) (hy : Double.ofText? t = some y) :
    x.Alike (.double y) ∨ x.rank ≠ 2 := by
  rcases valueText?_toJson ht with ⟨m, hm, -, rfl⟩ | ⟨z, rfl, hz, rfl⟩ | ⟨b, -, rfl⟩ | ⟨s, rfl, -⟩ |
    hrank
  · rw [ofText?_int64] at hy
    exact .inl (.inr ⟨_, hm, by rw [← Option.some.inj hy]; rfl⟩)
  · rw [Double.ofText?_doubleText hz] at hy
    exact .inl (.inl (by rw [Option.some.inj hy]))
  · rw [ofText?_bool] at hy
    cases hy
  · exact .inr (by simp [Value.rank])
  · exact .inr (by omega)

/-- What is written for a text is the text. -/
theorem eq_string_of_valueText? {x : Value} {t : List Char} (ht : valueText? x.toJson = some t) :
    x = .string (String.ofList t) ∨ x.rank ≠ 3 := by
  rcases valueText?_toJson ht with ⟨m, hm, -, rfl⟩ | ⟨z, rfl, hz, rfl⟩ | ⟨b, rfl, rfl⟩ |
    ⟨s, rfl, -, rfl⟩ | hrank
  · exact .inr (by rw [Value.rank_of_toDouble? hm]; decide)
  · exact .inr (by simp [Value.rank])
  · exact .inr (by simp [Value.rank])
  · exact .inl (by rw [String.ofList_toList])
  · exact .inr (by omega)

/-- What is written without a type reads as what it was written for, or as a scalar in place of an
identifier or a document. -/
theorem untyped_writeValue? {col : OrderBy} {isLast : Bool} {x : Value} {t : List Char}
    (hkind : kindAt col isLast = none) (ht : writeValue? col isLast x.toJson = some t) :
    ∃ v, Value.ofJson? (untyped t) = some v ∧ (x.Alike v ∨ x.rank ≠ v.rank) := by
  rw [writeValue?_of_none hkind] at ht
  obtain ⟨s, hs, hts⟩ := Option.map_eq_some_iff.mp ht
  rcases valueText?_toJson hs with ⟨m, hm, hmark, rfl⟩ | ⟨z, rfl, hz, rfl⟩ | ⟨b, rfl, rfl⟩ |
    ⟨s, rfl, -, rfl⟩ | hrank
  · rw [hmark, if_neg Bool.false_ne_true] at hts
    obtain ⟨v, hv, hdouble, -⟩ := ofJson?_ofInt64 m
    rw [← hts, untyped_of_integer (Text.integer64?_signedDigits m)]
    exact ⟨v, hv, .inl (.inr ⟨_, hm, hdouble⟩)⟩
  · have hmark : needsMark (Value.double z).toJson = false := by
      rw [toJson_double hz]
      rfl
    rw [hmark, if_neg Bool.false_ne_true] at hts
    rw [← hts, untyped_of_double (Double.integer64?_doubleText z) (Double.ofText?_doubleText hz)
      hz (head?_ne_mark fun _ => Double.isNumeral_of_mem_doubleText)]
    exact ⟨_, ofJson?_double z hz, .inl (.inl rfl)⟩
  · have hts : (if b then "true" else "false").toList = t := hts
    rw [← hts, untyped_bool]
    exact ⟨_, rfl, .inl (.inl rfl)⟩
  · -- the mark keeps a text from being read as something else
    have hts : (if needsMark (.string s) then stringMark :: s.toList else s.toList) = t := hts
    rw [← hts, untyped_marked]
    exact ⟨_, rfl, .inl (.inl rfl)⟩
  · obtain ⟨v, hv, hscalar, -⟩ := isScalar_untyped t
    have hranks := Value.rank_of_isScalar hscalar
    exact ⟨v, hv, .inr (by omega)⟩

/-- What is read is alike to what was written, or of another rank. -/
theorem readValue_writeValue? {col : OrderBy} {isLast : Bool} {x : Value} {t : List Char} {w : Json}
    (ht : writeValue? col isLast x.toJson = some t) (hw : readValue col isLast t = .ok w) :
    ∃ v, Value.ofJson? w = some v ∧ (x.Alike v ∨ x.rank ≠ v.rank) := by
  rcases readValue_cases hw with ⟨hkind, n, hn, rfl⟩ | ⟨hkind, y, hy, hread, rfl⟩ | ⟨hkind, rfl⟩ |
    ⟨hkind, rfl⟩
  · -- read as an integer
    rw [writeValue?_of_kind hkind] at ht
    obtain ⟨v, hv, hdouble, -⟩ := ofJson?_ofInt64 n
    refine ⟨v, hv, ?_⟩
    rw [Value.rank_of_toDouble? hdouble]
    exact (toDouble?_of_integer ht hn).imp_left fun hx => .inr ⟨_, hx, hdouble⟩
  · -- read as a double
    rw [writeValue?_of_kind hkind] at ht
    exact ⟨.double y, ofJson?_double y hy, alike_of_double ht hread⟩
  · -- read as a string
    rw [writeValue?_of_kind hkind] at ht
    exact ⟨.string (String.ofList t), rfl, (eq_string_of_valueText? ht).imp_left .inl⟩
  · -- read without a type
    exact untyped_writeValue? hkind ht

/-- Neither numbers nor truth values are written with a blank at the end. -/
theorem string_of_trimEnd_ne {x : Value} {t : List Char} (ht : valueText? x.toJson = some t)
    (htrim : Text.trimEnd t ≠ t) :
    (∃ s : String, x = .string s ∧ t = s.toList) ∨ x.rank = 7 ∨ x.rank = 4 := by
  rcases valueText?_toJson ht with ⟨m, -, -, rfl⟩ | ⟨z, -, -, rfl⟩ | ⟨b, -, rfl⟩ |
    ⟨s, hs, -, rfl⟩ | hrank
  · refine absurd (Text.trimEnd_of_not_blank fun c hc => ?_) htrim
    rcases Text.mem_signedDigits hc with hc | rfl
    · exact Text.isBlank_of_isDigit hc
    · rfl
  · exact absurd (Text.trimEnd_of_not_blank fun c hc =>
      Double.isBlank_of_isNumeral (Double.isNumeral_of_mem_doubleText hc)) htrim
  · cases b <;> exact absurd rfl htrim
  · exact .inl ⟨s, hs, rfl⟩
  · exact .inr hrank

/-- The same in the last place, whose text loses its final blanks: only a string that is declared
as one may then be read as another, which is the same without them. -/
theorem readValue_trimEnd {col : OrderBy} {x : Value} {t : List Char} {w : Json}
    (ht : writeValue? col true x.toJson = some t)
    (hw : readValue col true (Text.trimEnd t) = .ok w) :
    ∃ v, Value.ofJson? w = some v ∧ (x.Alike v ∨ x.rank ≠ v.rank ∨
      (col.kind = some .string ∧ ∃ s : String, x = .string s ∧ Text.trimEnd s.toList ≠ s.toList ∧
        v = .string (String.ofList (Text.trimEnd s.toList)))) := by
  by_cases htrim : Text.trimEnd t = t
  · rw [htrim] at hw
    obtain ⟨v, hv, h⟩ := readValue_writeValue? ht hw
    exact ⟨v, hv, h.elim .inl fun hrank => .inr (.inl hrank)⟩
  have htext : valueText? x.toJson = some t := by
    cases hkind : kindAt col true with
    | none => exact absurd (kindAt_eq_none.mp hkind).2 (by decide)
    | some k => rw [← writeValue?_of_kind hkind, ht]
  have hrank := string_of_trimEnd_ne htext htrim
  have hne : ∀ r, r ≠ 3 → r ≠ 7 → r ≠ 4 → x.rank ≠ r := by
    rintro r h3 h7 h4 rfl
    rcases hrank with ⟨s, rfl, -⟩ | hrank | hrank
    · exact h3 rfl
    · exact h7 hrank
    · exact h4 hrank
  rcases readValue_cases hw with ⟨-, n, -, rfl⟩ | ⟨-, y, hy, -, rfl⟩ | ⟨hkind, rfl⟩ | ⟨hkind, -⟩
  · obtain ⟨v, hv, hdouble, -⟩ := ofJson?_ofInt64 n
    refine ⟨v, hv, .inr (.inl ?_)⟩
    rw [Value.rank_of_toDouble? hdouble]
    exact hne 2 (by decide) (by decide) (by decide)
  · exact ⟨_, ofJson?_double y hy, .inr (.inl (hne 2 (by decide) (by decide) (by decide)))⟩
  · refine ⟨_, rfl, ?_⟩
    rcases hrank with ⟨s, rfl, rfl⟩ | hrank
    · refine .inr (.inr ⟨?_, s, rfl, htrim, rfl⟩)
      unfold kindAt at hkind
      cases hcol : col.kind <;> simp_all
    · refine .inr (.inl ?_)
      show x.rank ≠ 3
      omega
  · exact absurd (kindAt_eq_none.mp hkind).2 (by decide)

/-! ### Values that are read back -/

/-- The values that a column takes and what they are read back as: themselves, except that a column of
floats reads an integer as the double nearest to it. -/
inductive ReadsBack (col : OrderBy) (isLast : Bool) : Json → Json → Prop
  | integer (n : Int64) (hcol : col.kind = some .integer ∨ col.kind = none) :
    ReadsBack col isLast (.ofInt64 n) (.ofInt64 n)
  | nearest (n : Int64) (hcol : col.kind = some .float) :
    ReadsBack col isLast (.ofInt64 n) (.number (.double (.ofInt n.toInt) (Double.isFinite_ofInt64 n)))
  | double {x : Double} (hx : x.isFinite = true)
    (hcol : col.kind = some .float ∨ col.kind = none ∧ isLast = false) :
    ReadsBack col isLast (.number (.double x hx)) (.number (.double x hx))
  | bool (b : Bool) (hcol : col.kind = none ∧ isLast = false) :
    ReadsBack col isLast (.bool b) (.bool b)
  | string {s : String} (hcol : col.kind = some .string ∨ col.kind = none ∧ isLast = false)
    (hseparator : ':' ∉ s.toList) (hend : isLast = true → ¬Text.EndsBlank s.toList) :
    ReadsBack col isLast (.string s) (.string s)

/-- Whether a column's text is read as a kind, be it because of what it looks like. -/
def admits (col : OrderBy) (isLast : Bool) (k : ColumnKind) : Bool :=
  (kindAt col isLast).all (· == k)

theorem admits_cases {col : OrderBy} {isLast : Bool} {k : ColumnKind}
    (h : admits col isLast k = true) : kindAt col isLast = none ∨ kindAt col isLast = some k := by
  unfold admits at h
  cases hkind : kindAt col isLast with
  | none => exact .inl rfl
  | some j =>
    rw [hkind] at h
    exact .inr (by rw [beq_iff_eq.mp h])

theorem admits_integer_iff {col : OrderBy} {isLast : Bool} :
    admits col isLast .integer = true ↔ col.kind = some .integer ∨ col.kind = none := by
  unfold admits kindAt
  cases col.kind <;> cases isLast <;> simp

/-- In the last place only a column that says so holds anything but integers. -/
theorem admits_iff {col : OrderBy} {isLast : Bool} {k : ColumnKind} (hk : k ≠ .integer) :
    admits col isLast k = true ↔ col.kind = some k ∨ col.kind = none ∧ isLast = false := by
  unfold admits kindAt
  cases col.kind <;> cases isLast <;> simp [hk.symm]

/-- A value that is written as a text and read from it as another. -/
structure Survives (col : OrderBy) (isLast : Bool) (v : Json) (t : List Char) (w : Json) : Prop where
  written : writeValue? col isLast v = some t
  separator_notMem : separator ∉ t
  trimEnd : isLast = true → Text.trimEnd t = t
  read : readValue col isLast t = .ok w

/-- The text of a number is the same everywhere, and it has neither separators nor blanks. -/
theorem written_number {col : OrderBy} {isLast : Bool} {k : ColumnKind} {v : Json}
    {t : List Char} (hkind : admits col isLast k = true) (ht : valueText? v = some t)
    (hmark : needsMark v = false) (hnumeral : ∀ c ∈ t, Double.isNumeral c = true) :
    writeValue? col isLast v = some t ∧ separator ∉ t ∧ Text.trimEnd t = t := by
  refine ⟨?_, ?_, ?_⟩
  · rcases admits_cases hkind with hkind | hkind
    · rw [writeValue?_of_none hkind, ht, hmark]
      rfl
    · rw [writeValue?_of_kind hkind, ht]
  · exact fun hsep => nomatch hnumeral separator hsep
  · exact Text.trimEnd_of_not_blank fun c hc => Double.isBlank_of_isNumeral (hnumeral c hc)

theorem survives_integer {col : OrderBy} {isLast : Bool} (h : admits col isLast .integer = true)
    (n : Int64) :
    Survives col isLast (.ofInt64 n) (Text.signedDigits n.toInt) (.ofInt64 n) := by
  obtain ⟨hwritten, hsep, htrim⟩ := written_number h (show valueText? (.ofInt64 n) = _ from rfl) rfl
    fun c => Double.isNumeral_of_mem_signedDigits
  have hread := Text.integer64?_signedDigits n
  refine ⟨hwritten, hsep, fun _ => htrim, ?_⟩
  rcases admits_cases h with hkind | hkind
  · rw [readValue_none hkind, untyped_of_integer hread]
  · exact readValue_integer hkind hread

/-- A column of floats reads an integer as the double nearest to it. -/
theorem survives_nearest {col : OrderBy} {isLast : Bool} (h : col.kind = some .float) (n : Int64) :
    Survives col isLast (.ofInt64 n) (Text.signedDigits n.toInt)
      (.number (.double (.ofInt n.toInt) (Double.isFinite_ofInt64 n))) := by
  have hkind : kindAt col isLast = some .float := by rw [kindAt, h, Option.some_or]
  obtain ⟨hwritten, hsep, htrim⟩ := written_number ((admits_iff (by decide)).mpr (.inl h))
    (show valueText? (.ofInt64 n) = _ from rfl) rfl fun c => Double.isNumeral_of_mem_signedDigits
  exact ⟨hwritten, hsep, fun _ => htrim, readValue_float hkind _ (ofText?_int64 n)⟩

theorem survives_double {col : OrderBy} {isLast : Bool} (h : admits col isLast .float = true)
    {x : Double} (hx : x.isFinite = true) :
    Survives col isLast (.number (.double x hx)) (Json.doubleText x) (.number (.double x hx)) := by
  have hnumeral : ∀ c ∈ Json.doubleText x, Double.isNumeral c = true :=
    fun _ => Double.isNumeral_of_mem_doubleText
  have hread := Double.ofText?_doubleText hx
  obtain ⟨hwritten, hsep, htrim⟩ := written_number h
    (show valueText? (.number (.double x hx)) = _ from rfl) rfl hnumeral
  refine ⟨hwritten, hsep, fun _ => htrim, ?_⟩
  rcases admits_cases h with hkind | hkind
  · rw [readValue_none hkind, untyped_of_double (Double.integer64?_doubleText x) hread hx
      (head?_ne_mark hnumeral)]
  · exact readValue_float hkind hx hread

theorem survives_bool {col : OrderBy} {isLast : Bool} (h : kindAt col isLast = none) (b : Bool) :
    Survives col isLast (.bool b) (if b then "true" else "false").toList (.bool b) := by
  refine ⟨?_, ?_, fun _ => ?_, ?_⟩
  · rw [writeValue?_of_none h]
    rfl
  · cases b <;> decide
  · cases b <;> rfl
  · rw [readValue_none h, untyped_bool]

/-- Only in the last place may a text not end in a blank. -/
theorem survives_string {col : OrderBy} {isLast : Bool} {s : String}
    (h : admits col isLast .string = true) (hsep : separator ∉ s.toList)
    (htrim : isLast = true → Text.trimEnd s.toList = s.toList) :
    ∃ t, Survives col isLast (.string s) t (.string s) := by
  have ht : valueText? (.string s) = some s.toList :=
    valueText?_string_eq_some_iff.mpr ⟨hsep, rfl⟩
  rcases admits_cases h with hkind | hkind
  · refine ⟨if needsMark (.string s) then stringMark :: s.toList else s.toList, ?_, ?_, ?_, ?_⟩
    · rw [writeValue?_of_none hkind, ht]
      rfl
    · split_ifs
      · exact fun hmem => (List.mem_cons.mp hmem).elim (by decide) hsep
      · exact hsep
    · -- the last place has a kind
      intro hlast
      rw [(kindAt_eq_none.mp hkind).2] at hlast
      cases hlast
    · rw [readValue_none hkind, untyped_marked]
  · refine ⟨s.toList, ?_, hsep, htrim, ?_⟩
    · rw [writeValue?_of_kind hkind, ht]
    · rw [readValue_string hkind, String.ofList_toList]

/-- What a column takes is written, and what is written is read back. -/
theorem ReadsBack.exists_survives {col : OrderBy} {isLast : Bool} {v w : Json}
    (h : ReadsBack col isLast v w) : ∃ t, Survives col isLast v t w := by
  cases h with
  | integer n hcol => exact ⟨_, survives_integer (admits_integer_iff.mpr hcol) n⟩
  | nearest n hcol => exact ⟨_, survives_nearest hcol n⟩
  | double hx hcol => exact ⟨_, survives_double ((admits_iff (by decide)).mpr hcol) hx⟩
  | bool b hcol => exact ⟨_, survives_bool (kindAt_eq_none.mpr hcol) b⟩
  | string hcol hseparator hend =>
    exact survives_string ((admits_iff (by decide)).mpr hcol) hseparator
      fun hlast => Text.trimEnd_of_not_endsBlank (hend hlast)

/-! ### Values of documents -/

/-- Whether the value of a document can be written in a column and read back without rounding. -/
def fits (col : OrderBy) (isLast : Bool) : Value → Bool
  | .int32 _ | .int64 _ => admits col isLast .integer
  | .double x => x.isFinite && admits col isLast .float
  | .boolean _ => (kindAt col isLast).isNone
  | .string s =>
    admits col isLast .string && !s.toList.contains separator &&
      (!isLast || Text.trimEnd s.toList == s.toList)
  | _ => false

theorem toJson_int32 (n : Int32) : (Value.int32 n).toJson = .ofInt64 n.toInt64 := by
  show Json.number (.integer n.toInt _) = .number (.integer n.toInt64.toInt _)
  simp only [Int32.toInt_toInt64]

/-- What fits a column is read back as the same value up to the width of integers. -/
theorem exists_readsBack_of_fits {col : OrderBy} {isLast : Bool} {x : Value}
    (h : fits col isLast x = true) :
    ∃ w v, ReadsBack col isLast x.toJson w ∧ Value.ofJson? w = some v ∧ x.Alike v := by
  cases x with
  | int32 n =>
    obtain ⟨v, hv, hdouble, -⟩ := ofJson?_ofInt64 n.toInt64
    rw [toJson_int32]
    exact ⟨_, v, .integer _ (admits_integer_iff.mp h), hv,
      .inr ⟨_, by rw [Int32.toInt_toInt64]; rfl, hdouble⟩⟩
  | int64 n =>
    obtain ⟨v, hv, hdouble, -⟩ := ofJson?_ofInt64 n
    exact ⟨_, v, .integer n (admits_integer_iff.mp h), hv, .inr ⟨_, rfl, hdouble⟩⟩
  | double y =>
    obtain ⟨hy, hkind⟩ := Bool.and_eq_true_iff.mp h
    rw [toJson_double hy]
    exact ⟨_, _, .double hy ((admits_iff (by decide)).mp hkind), ofJson?_double y hy, .inl rfl⟩
  | boolean b =>
    exact ⟨_, _, .bool b (kindAt_eq_none.mp (Option.isNone_iff_eq_none.mp h)), rfl, .inl rfl⟩
  | string s =>
    obtain ⟨⟨hkind, hsep⟩, htrim⟩ : (admits col isLast .string = true ∧ separator ∉ s.toList) ∧
        (isLast = true → Text.trimEnd s.toList = s.toList) := by
      simpa [fits, Bool.or_eq_true, imp_iff_not_or] using h
    refine ⟨_, _, .string ((admits_iff (by decide)).mp hkind) hsep ?_, rfl, .inl rfl⟩
    exact fun hlast => Text.trimEnd_eq_self_iff.mp (htrim hlast)
  | _ => cases h

end Cursor

end Keyset
