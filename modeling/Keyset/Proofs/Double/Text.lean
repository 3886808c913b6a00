import Keyset.Json.Printer
import Keyset.Proofs.Double.Decimal
import Keyset.Proofs.Text.Numeral

/-!
# Texts of doubles

What `Json.doubleText` writes is read by `ofText?` as the same double (`ofText?_doubleText`), and by
no reader of integers (`integer64?_doubleText`).  The text of an integer is read as the double nearest
to it (`ofText?_signedDigits`).
-/

namespace Keyset

namespace Double

/-! ### Scanning -/

/-- Texts that do not start with a digit. -/
def startsNoDigit (s : List Char) : Prop :=
  ∀ c, s.head? = some c → c.isDigit = false

theorem takeWhile_digits {ds rest : List Char} (hds : ∀ c ∈ ds, c.isDigit = true)
    (hrest : startsNoDigit rest) : (ds ++ rest).takeWhile Char.isDigit = ds := by
  rw [List.takeWhile_append_of_pos hds]
  cases rest with
  | nil => simp
  | cons c rest => simp [hrest c rfl]

theorem dropWhile_digits {ds rest : List Char} (hds : ∀ c ∈ ds, c.isDigit = true)
    (hrest : startsNoDigit rest) : (ds ++ rest).dropWhile Char.isDigit = rest := by
  rw [List.dropWhile_append_of_pos hds]
  cases rest with
  | nil => simp
  | cons c rest => simp [hrest c rfl]

theorem startsNoDigit_cons {c : Char} (h : c.isDigit = false) (s : List Char) :
    startsNoDigit (c :: s) := by
  intro d hd
  obtain rfl := Option.some.inj hd
  exact h

theorem startsNoDigit_nil : startsNoDigit [] :=
  fun c hc => by simp at hc

theorem isDigit_of_mem_replicate {n : Nat} {c : Char} (h : c ∈ List.replicate n '0') :
    c.isDigit = true := by
  rw [List.eq_of_mem_replicate h]
  rfl

/-- A text is the digits that it starts with and the rest. -/
theorem exists_digits (s : List Char) :
    ∃ ds rest, s = ds ++ rest ∧ (∀ c ∈ ds, c.isDigit = true) ∧ startsNoDigit rest := by
  induction s with
  | nil => exact ⟨[], [], rfl, nofun, startsNoDigit_nil⟩
  | cons c s ih =>
    cases hc : c.isDigit with
    | false => exact ⟨[], c :: s, rfl, nofun, startsNoDigit_cons hc s⟩
    | true =>
      obtain ⟨ds, rest, rfl, hds, hrest⟩ := ih
      exact ⟨c :: ds, rest, rfl, List.forall_mem_cons.mpr ⟨hc, hds⟩, hrest⟩

/-- Reading digits with a point before, among or behind them. -/
theorem decimal?_append_point {whole fraction rest : List Char}
    (hwhole : ∀ c ∈ whole, c.isDigit = true) (hfraction : ∀ c ∈ fraction, c.isDigit = true)
    (hrest : startsNoDigit rest) :
    decimal? (whole ++ '.' :: (fraction ++ rest)) =
      if whole ++ fraction = [] then none
      else (exponentPart? rest).map fun e =>
        ⟨Nat.ofDigitChars 10 (whole ++ fraction) 0, e - fraction.length⟩ := by
  have hpoint : startsNoDigit ('.' :: (fraction ++ rest)) := startsNoDigit_cons rfl _
  unfold decimal?
  simp only [takeWhile_digits hwhole hpoint, dropWhile_digits hwhole hpoint,
    takeWhile_digits hfraction hrest, dropWhile_digits hfraction hrest]

/-- Reading digits without a point. -/
theorem decimal?_append {whole rest : List Char} (hwhole : ∀ c ∈ whole, c.isDigit = true)
    (hrest : startsNoDigit rest) (hpoint : rest.head? ≠ some '.') :
    decimal? (whole ++ rest) =
      if whole = [] then none
      else (exponentPart? rest).map fun e => ⟨Nat.ofDigitChars 10 whole 0, e⟩ := by
  unfold decimal?
  simp only [takeWhile_digits hwhole hrest, dropWhile_digits hwhole hrest]
  cases rest with
  | nil => simp
  | cons c rest =>
    have hc : c ≠ '.' := fun h => hpoint (by rw [h]; rfl)
    simp [hc]

theorem decimal?_point {whole fraction rest : List Char} {e : Int}
    (hwhole : ∀ c ∈ whole, c.isDigit = true) (hfraction : ∀ c ∈ fraction, c.isDigit = true)
    (hne : whole ++ fraction ≠ []) (hrest : startsNoDigit rest) (he : exponentPart? rest = some e) :
    decimal? (whole ++ '.' :: (fraction ++ rest)) =
      some ⟨Nat.ofDigitChars 10 (whole ++ fraction) 0, e - fraction.length⟩ := by
  rw [decimal?_append_point hwhole hfraction hrest, if_neg hne, he, Option.map_some]

theorem decimal?_whole {whole rest : List Char} {e : Int}
    (hwhole : ∀ c ∈ whole, c.isDigit = true) (hne : whole ≠ []) (hrest : startsNoDigit rest)
    (hpoint : rest.head? ≠ some '.') (he : exponentPart? rest = some e) :
    decimal? (whole ++ rest) = some ⟨Nat.ofDigitChars 10 whole 0, e⟩ := by
  rw [decimal?_append hwhole hrest hpoint, if_neg hne, he, Option.map_some]

theorem decimal?_digits (n : Nat) : decimal? (Text.digits n) = some ⟨n, 0⟩ := by
  have h := decimal?_whole (fun _ => Text.isDigit_of_mem_digits)
    (Nat.toDigits_ne_nil (n := n) (b := 10)) startsNoDigit_nil (by simp) rfl
  rw [List.append_nil] at h
  rw [h]
  have hvalue : Nat.ofDigitChars 10 (Text.digits n) 0 = n := Nat.ofDigitChars_ten_toDigits
  rw [hvalue]

/-- A text that starts with a digit is no name of an infinity or a NaN. -/
theorem unsigned?_of_isDigit (negative : Bool) {c : Char} (s : List Char)
    (h : c.isDigit = true) :
    unsigned? negative (c :: s) = (decimal? (c :: s)).map (ofDecimal negative) := by
  have hlower : c.toLower = c := by
    simp only [Char.isDigit, Bool.and_eq_true, decide_eq_true_eq] at h
    have hhi : c.toNat ≤ 57 := h.2
    unfold Char.toLower
    rw [dif_neg]
    rintro ⟨hlo, -⟩
    have : 65 ≤ c.toNat := hlo
    omega
  have hi : c ≠ 'i' := Text.ne_of_isDigit h rfl
  have hn : c ≠ 'n' := Text.ne_of_isDigit h rfl
  unfold unsigned?
  simp [hlower, hi, hn]

/-- The sign of a text is read apart from what follows it. -/
theorem ofText?_sign (negative : Bool) {c : Char} (s : List Char) (h : c.isDigit = true) :
    ofText? ((if negative then ['-'] else []) ++ c :: s) = unsigned? negative (c :: s) := by
  have hminus : c ≠ '-' := Text.ne_of_isDigit h rfl
  have hplus : c ≠ '+' := Text.ne_of_isDigit h rfl
  cases negative
  · simp [ofText?, hminus, hplus]
  · simp [ofText?]

/-! ### Integers -/

/-- The text of an integer is read as the double nearest to it. -/
theorem ofText?_signedDigits {n : Int} (h : (Text.digits n.natAbs).length ≤ 400) :
    ofText? (Text.signedDigits n) = some (ofInt n) := by
  obtain ⟨c, s, hs, hc⟩ := Text.digits_eq_cons n.natAbs
  have htext : Text.signedDigits n
      = (if decide (n < 0) = true then ['-'] else []) ++ c :: s := by
    unfold Text.signedDigits
    by_cases hn : n < 0 <;> simp [hn, hs]
  rw [htext, ofText?_sign _ s hc, unsigned?_of_isDigit _ s hc, ← hs, decimal?_digits,
    Option.map_some, ofDecimal_natural _ h]
  rfl

/-! ### Doubles -/

/-- Zeros up to the point, and one behind it. -/
theorem decimal?_zerosBehind (n e : Nat) :
    decimal? (Text.digits n ++ List.replicate e '0' ++ ['.', '0']) =
      some ⟨n * 10 ^ (e + 1), -1⟩ := by
  have hwhole : ∀ c ∈ Text.digits n ++ List.replicate e '0', c.isDigit = true := by
    intro c hc
    rcases List.mem_append.mp hc with hc | hc
    · exact Text.isDigit_of_mem_digits hc
    · exact isDigit_of_mem_replicate hc
  have hfraction : ∀ c ∈ ['0'], c.isDigit = true := by simp
  have hne : Text.digits n ++ List.replicate e '0' ++ ['0'] ≠ [] := by simp
  have hread := decimal?_point hwhole hfraction hne startsNoDigit_nil rfl
  have hvalue : Nat.ofDigitChars 10 (Text.digits n) 0 = n := Nat.ofDigitChars_ten_toDigits
  refine hread.trans ?_
  simp only [Option.some.injEq, Decimal.mk.injEq]
  constructor
  · rw [Nat.ofDigitChars_append, Nat.ofDigitChars_append, hvalue, Nat.ofDigitChars_replicate_zero,
      Nat.ofDigitChars_cons, Nat.ofDigitChars_nil, Nat.pow_succ]
    ring_nf
    simp
  · simp

/-- A point among or beside the digits. -/
theorem decimal?_pointAmong (n k : Nat) :
    decimal? ((Text.digits n).take k ++ '.' :: (Text.digits n).drop k) =
      some ⟨n, -((Text.digits n).length - k : Nat)⟩ := by
  have hwhole : ∀ c ∈ (Text.digits n).take k, c.isDigit = true :=
    fun c hc => Text.isDigit_of_mem_digits (List.mem_of_mem_take hc)
  have hfraction : ∀ c ∈ (Text.digits n).drop k, c.isDigit = true :=
    fun c hc => Text.isDigit_of_mem_digits (List.mem_of_mem_drop hc)
  have hne : (Text.digits n).take k ++ (Text.digits n).drop k ≠ [] := by
    rw [List.take_append_drop]
    exact Nat.toDigits_ne_nil
  have hread := decimal?_point hwhole hfraction hne startsNoDigit_nil rfl
  have hvalue : Nat.ofDigitChars 10 (Text.digits n) 0 = n := Nat.ofDigitChars_ten_toDigits
  rw [List.append_nil, List.take_append_drop, hvalue, List.length_drop, zero_sub] at hread
  exact hread

/-- Zeros behind the point, before the digits. -/
theorem decimal?_zerosBefore (n z : Nat) :
    decimal? ('0' :: '.' :: List.replicate z '0' ++ Text.digits n) =
      some ⟨n, -(z + (Text.digits n).length : Nat)⟩ := by
  have hwhole : ∀ c ∈ ['0'], c.isDigit = true := by simp
  have hfraction : ∀ c ∈ List.replicate z '0' ++ Text.digits n, c.isDigit = true := by
    intro c hc
    rcases List.mem_append.mp hc with hc | hc
    · exact isDigit_of_mem_replicate hc
    · exact Text.isDigit_of_mem_digits hc
  have hread := decimal?_point hwhole hfraction (by simp) startsNoDigit_nil rfl
  have hvalue : Nat.ofDigitChars 10 (Text.digits n) 0 = n := Nat.ofDigitChars_ten_toDigits
  rw [List.append_nil, List.length_append, List.length_replicate, zero_sub] at hread
  refine hread.trans ?_
  rw [← List.append_assoc, Nat.ofDigitChars_append, Nat.ofDigitChars_append,
    Nat.ofDigitChars_replicate_zero, Nat.ofDigitChars_cons, Nat.ofDigitChars_nil]
  simp [hvalue]

/-- Reading a decimal written positionally gives its digits back, up to final zeros. -/
theorem decimal?_positional (d : Decimal) :
    ∃ c s k, Json.positional (Text.digits d.significand) d.exponent = c :: s ∧
      c.isDigit = true ∧ decimal? (c :: s) = some (d.shift k) := by
  obtain ⟨c, s, hds, hc⟩ := Text.digits_eq_cons d.significand
  obtain ⟨n, exponent⟩ := d
  unfold Json.positional
  simp only
  split_ifs with hexp hpoint
  · obtain ⟨e, rfl⟩ := Int.eq_ofNat_of_zero_le hexp
    have hread := decimal?_zerosBehind n e
    rw [Int.toNat_natCast]
    refine ⟨c, s ++ List.replicate e '0' ++ ['.', '0'], e + 1, ?_, hc, ?_⟩
    · rw [hds]
      rfl
    · rw [hds] at hread
      refine hread.trans ?_
      simp [Decimal.shift]
  · obtain ⟨k, hk⟩ := Int.eq_ofNat_of_zero_le (Int.le_of_lt hpoint)
    have hread := decimal?_pointAmong n k
    obtain ⟨m, rfl⟩ : ∃ m, k = m + 1 := ⟨k - 1, by omega⟩
    rw [hk, Int.toNat_natCast]
    refine ⟨c, s.take m ++ '.' :: (Text.digits n).drop (m + 1), 0, ?_, hc, ?_⟩
    · rw [hds]
      rfl
    · rw [hds, List.take_succ_cons, ← hds] at hread
      refine hread.trans ?_
      simp only [Decimal.shift, Option.some.injEq, Decimal.mk.injEq]
      constructor
      · simp
      · omega
  · obtain ⟨z, hz⟩ := Int.eq_ofNat_of_zero_le (show 0 ≤ -(exponent + (Text.digits n).length) by omega)
    rw [hz, Int.toNat_natCast]
    refine ⟨'0', _, 0, rfl, rfl, (decimal?_zerosBefore n z).trans ?_⟩
    simp only [Decimal.shift, Option.some.injEq, Decimal.mk.injEq]
    constructor
    · simp
    · omega

/-- The part behind the mark of an exponent. -/
theorem exponentPart?_signed (p : Int) :
    exponentPart? ('e' :: (if p < 0 then '-' else '+') :: Text.digits p.natAbs) = some p := by
  have hnat := Text.natural?_digits p.natAbs
  split_ifs with hp
  · have habs : -(p.natAbs : Int) = p := by omega
    show exponentPart? ('e' :: '-' :: Text.digits p.natAbs) = some p
    rw [exponentPart?, Text.signed?, hnat]
    show some (-(p.natAbs : Int)) = some p
    rw [habs]
  · have habs : (p.natAbs : Int) = p := by omega
    show exponentPart? ('e' :: '+' :: Text.digits p.natAbs) = some p
    rw [exponentPart?, Text.signed?, hnat]
    show some (p.natAbs : Int) = some p
    rw [habs]

/-- Reading a decimal written with an exponent gives it back. -/
theorem decimal?_scientific (d : Decimal) :
    ∃ c s, Json.scientific (Text.digits d.significand) d.exponent = c :: s ∧
      c.isDigit = true ∧ decimal? (c :: s) = some d := by
  obtain ⟨c, s, hds, hc⟩ := Text.digits_eq_cons d.significand
  have hdigit : ∀ x ∈ Text.digits d.significand, x.isDigit = true :=
    fun _ => Text.isDigit_of_mem_digits
  have hvalue : Nat.ofDigitChars 10 (c :: s) 0 = d.significand := by
    rw [← hds]
    exact Nat.ofDigitChars_ten_toDigits
  have hs : ∀ x ∈ s, x.isDigit = true := by
    intro x hx
    apply hdigit
    rw [hds]
    exact List.mem_cons_of_mem _ hx
  have hhead : ∀ x ∈ [c], x.isDigit = true := by simpa using hc
  have hmark : ∀ l, startsNoDigit ('e' :: l) := startsNoDigit_cons rfl
  have hexp := exponentPart?_signed (d.exponent + (Text.digits d.significand).length - 1)
  by_cases hnil : s = []
  · -- one digit has no point
    have hread := decimal?_whole hhead (by simp) (hmark _) (by simp) hexp
    refine ⟨c, _, ?_, hc, hread.trans ?_⟩
    · unfold Json.scientific
      rw [hds, hnil]
      rfl
    · rw [← hnil, hvalue, hds, hnil]
      simp
  · have hread := decimal?_point hhead hs (by simp) (hmark _) hexp
    refine ⟨c, _, ?_, hc, hread.trans ?_⟩
    · unfold Json.scientific
      rw [hds]
      simp [hnil]
    · rw [List.singleton_append, hvalue, hds]
      obtain ⟨m, e⟩ := d
      simp only [List.length_cons, Option.some.injEq, Decimal.mk.injEq, true_and]
      push_cast
      omega

theorem units_pos {x : Double} (h : x.isZero = false) : 0 < x.units := by
  obtain ⟨s, e, hunits, hmag, -, he⟩ := units_eq_shift x
  have hne : x.magnitude ≠ 0 := by simpa [isZero] using h
  have hbinade : 0 < binade := by decide
  have hs : 0 < s := by
    by_cases h0 : e = 0
    · rw [h0, Nat.zero_mul, Nat.zero_add] at hmag
      omega
    · have := he h0
      omega
  rw [hunits]
  exact Nat.mul_pos hs (Nat.two_pow_pos e)

/-- The three forms of the text of a double. -/
theorem doubleText_cases (x : Double) :
    (x.isZero = true ∧ Json.doubleText x = (if x.negative then ['-'] else []) ++ ['0', '.', '0']) ∨
    (x.isZero = false ∧ Json.doubleText x = (if x.negative then ['-'] else []) ++
      Json.positional (Text.digits x.shortest.significand) x.shortest.exponent) ∨
    (x.isZero = false ∧ Json.doubleText x = (if x.negative then ['-'] else []) ++
      Json.scientific (Text.digits x.shortest.significand) x.shortest.exponent) := by
  unfold Json.doubleText
  cases hzero : x.isZero
  · right
    simp only [Bool.false_eq_true, if_false, true_and]
    generalize x.shortest.exponent + (Text.digits x.shortest.significand).length - 1 = place
    by_cases hplace : -5 ≤ place ∧ place < 16
    · exact .inl (by rw [if_pos hplace])
    · exact .inr (by rw [if_neg hplace])
  · exact .inl ⟨rfl, rfl⟩

/-- The text of a finite double is read as that double. -/
theorem ofText?_doubleText {x : Double} (h : x.isFinite = true) :
    ofText? (Json.doubleText x) = some x := by
  -- the digits of every form give the double back, and its sign is read apart
  rcases doubleText_cases x with ⟨hzero, hx⟩ | ⟨hzero, hx⟩ | ⟨hzero, hx⟩
  · have hnull : x = zero x.negative := by
      obtain ⟨s, m⟩ := x
      have hm : m = 0 := by simpa [isZero] using hzero
      rw [hm]
      rfl
    have hread : decimal? ['0', '.', '0'] = some ⟨0, -1⟩ := by decide
    rw [hx, ofText?_sign _ _ rfl, unsigned?_of_isDigit _ _ rfl, hread, Option.map_some,
      ofDecimal_eq, if_pos (Or.inl rfl), ← hnull]
  · have hback := ofDecimal_shortest h (units_pos hzero)
    obtain ⟨c, s, k, htext, hc, hread⟩ := decimal?_positional x.shortest
    rw [hx, htext, ofText?_sign _ s hc, unsigned?_of_isDigit _ s hc, hread, Option.map_some,
      ofDecimal_shift, hback]
  · have hback := ofDecimal_shortest h (units_pos hzero)
    obtain ⟨c, s, htext, hc, hread⟩ := decimal?_scientific x.shortest
    rw [hx, htext, ofText?_sign _ s hc, unsigned?_of_isDigit _ s hc, hread, Option.map_some, hback]

/-! ### The characters of a number -/

/-- The characters that occur in numbers. -/
def isNumeral (c : Char) : Bool :=
  c.isDigit || c == '-' || c == '+' || c == '.' || c == 'e'

theorem isNumeral_of_isDigit {c : Char} (h : c.isDigit = true) : isNumeral c = true := by
  simp [isNumeral, h]

theorem isNumeral_of_mem_signedDigits {n : Int} {c : Char} (h : c ∈ Text.signedDigits n) :
    isNumeral c = true := by
  rcases Text.mem_signedDigits h with hc | rfl
  · exact isNumeral_of_isDigit hc
  · rfl

theorem isBlank_of_isNumeral {c : Char} (h : isNumeral c = true) : Text.isBlank c = false := by
  simp only [isNumeral, Bool.or_eq_true, beq_iff_eq] at h
  rcases h with (((h | rfl) | rfl) | rfl) | rfl
  · exact Text.isBlank_of_isDigit h
  all_goals decide

theorem isNumeral_of_mem_positional {ds : List Char} {e : Int} {c : Char}
    (hds : ∀ c ∈ ds, c.isDigit = true) (h : c ∈ Json.positional ds e) : isNumeral c = true := by
  unfold Json.positional at h
  simp only at h
  split_ifs at h
  · simp only [List.mem_append, List.mem_cons, List.not_mem_nil, or_false] at h
    rcases h with (h | h) | rfl | rfl
    · exact isNumeral_of_isDigit (hds c h)
    · exact isNumeral_of_isDigit (isDigit_of_mem_replicate h)
    all_goals rfl
  · rcases List.mem_append.mp h with h | h
    · exact isNumeral_of_isDigit (hds c (List.mem_of_mem_take h))
    · rcases List.mem_cons.mp h with rfl | h
      · rfl
      · exact isNumeral_of_isDigit (hds c (List.mem_of_mem_drop h))
  · simp only [List.cons_append, List.mem_cons, List.mem_append] at h
    rcases h with rfl | rfl | h | h
    · rfl
    · rfl
    · exact isNumeral_of_isDigit (isDigit_of_mem_replicate h)
    · exact isNumeral_of_isDigit (hds c h)

theorem isNumeral_of_mem_scientific {ds : List Char} {e : Int} {c : Char}
    (hds : ∀ c ∈ ds, c.isDigit = true) (h : c ∈ Json.scientific ds e) : isNumeral c = true := by
  unfold Json.scientific at h
  simp only [List.mem_append, List.mem_cons] at h
  rcases h with (h | h) | rfl | h | h
  · exact isNumeral_of_isDigit (hds c (List.mem_of_mem_take h))
  · split_ifs at h
    · simp at h
    · rcases List.mem_cons.mp h with rfl | h
      · rfl
      · exact isNumeral_of_isDigit (hds c (List.mem_of_mem_drop h))
  · rfl
  · split_ifs at h <;> rw [h] <;> rfl
  · exact isNumeral_of_isDigit (Text.isDigit_of_mem_digits h)

/-- The text of a double is made of the characters of numbers. -/
theorem isNumeral_of_mem_doubleText {x : Double} {c : Char} (h : c ∈ Json.doubleText x) :
    isNumeral c = true := by
  have hsign : ∀ c ∈ (if x.negative then ['-'] else []), isNumeral c = true := by
    intro c hc
    have hminus : x.negative = true ∧ c = '-' := by simpa using hc
    rw [hminus.2]
    rfl
  have hds : ∀ c ∈ Text.digits x.shortest.significand, c.isDigit = true :=
    fun _ => Text.isDigit_of_mem_digits
  rcases doubleText_cases x with ⟨-, hx⟩ | ⟨-, hx⟩ | ⟨-, hx⟩
  · rw [hx] at h
    rcases List.mem_append.mp h with h | h
    · exact hsign c h
    · simp only [List.mem_cons, List.not_mem_nil, or_false] at h
      rcases h with rfl | rfl | rfl <;> rfl
  · rw [hx] at h
    rcases List.mem_append.mp h with h | h
    · exact hsign c h
    · exact isNumeral_of_mem_positional hds h
  · rw [hx] at h
    rcases List.mem_append.mp h with h | h
    · exact hsign c h
    · exact isNumeral_of_mem_scientific hds h

theorem point_mem_positional (ds : List Char) (e : Int) : '.' ∈ Json.positional ds e := by
  unfold Json.positional
  simp only
  split_ifs <;> simp

theorem mark_mem_scientific (ds : List Char) (e : Int) : 'e' ∈ Json.scientific ds e := by
  unfold Json.scientific
  simp

/-- No integer is written like a double. -/
theorem integer64?_doubleText (x : Double) : Text.integer64? (Json.doubleText x) = none := by
  have hmark : '.' ∈ Json.doubleText x ∨ 'e' ∈ Json.doubleText x := by
    rcases doubleText_cases x with ⟨-, hx⟩ | ⟨-, hx⟩ | ⟨-, hx⟩
    · left
      rw [hx]
      simp
    · left
      rw [hx]
      exact List.mem_append_right _ (point_mem_positional _ _)
    · right
      rw [hx]
      exact List.mem_append_right _ (mark_mem_scientific _ _)
  rcases hmark with hmark | hmark
  · exact Text.integer64?_eq_none hmark rfl (by decide) (by decide)
  · exact Text.integer64?_eq_none hmark rfl (by decide) (by decide)

end Double

end Keyset
