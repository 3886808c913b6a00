import Keyset.Text.Blank
import Keyset.Text.Split
import Mathlib.Data.List.TakeWhile
import Mathlib.Tactic.SplitIfs

/-!
# Cutting and trimming joined parts

Parts that hold no separator are found again when the text in which each stands behind a separator
is cut (`splitOn_behind`), every text is cut into such parts (`exists_isCut`), and trimming that text
trims the last part only (`trimEnd_behind`).  The number of parts is one more than that of separators
(`length_splitOn`), so a part that holds one shows.  Blanks around a text do not change what is left
after trimming (`trim_append`), which is the text without them (`Trims.trim_eq`, `trims_trim`).
-/

namespace Keyset.Text

/-! ### Cutting -/

/-- Parts with a separator before each. -/
def behind (sep : Char) (parts : List (List Char)) : List Char :=
  parts.flatMap (sep :: ·)

@[simp] theorem behind_nil (sep : Char) : behind sep [] = [] := rfl

@[simp] theorem behind_cons (sep : Char) (part : List Char) (parts : List (List Char)) :
    behind sep (part :: parts) = sep :: (part ++ behind sep parts) := by
  simp [behind]

theorem splitOn_of_notMem {sep : Char} {s : List Char} (h : sep ∉ s) : splitOn sep s = [s] := by
  induction s with
  | nil => rfl
  | cons c s ih =>
    rw [List.mem_cons, not_or] at h
    have hc : c ≠ sep := fun hc => h.1 hc.symm
    rw [splitOn, if_neg hc, ih h.2]

theorem splitOn_append_cons {sep : Char} {part : List Char} (h : sep ∉ part) (s : List Char) :
    splitOn sep (part ++ sep :: s) = part :: splitOn sep s := by
  induction part with
  | nil => simp [splitOn]
  | cons c part ih =>
    rw [List.mem_cons, not_or] at h
    have hc : c ≠ sep := fun hc => h.1 hc.symm
    rw [List.cons_append, splitOn, if_neg hc, ih h.2]

/-- Parts without a separator are found again. -/
theorem splitOn_behind {sep : Char} {first : List Char} {parts : List (List Char)}
    (hfirst : sep ∉ first) (hparts : ∀ part ∈ parts, sep ∉ part) :
    splitOn sep (first ++ behind sep parts) = first :: parts := by
  induction parts generalizing first with
  | nil =>
    rw [behind_nil, List.append_nil]
    exact splitOn_of_notMem hfirst
  | cons part parts ih =>
    rw [behind_cons, splitOn_append_cons hfirst,
      ih (hparts part List.mem_cons_self) fun p hp => hparts p (List.mem_cons_of_mem _ hp)]

/-- A text that is cut at every separator into a first part and others. -/
structure IsCut (sep : Char) (s first : List Char) (parts : List (List Char)) : Prop where
  joined : s = first ++ behind sep parts
  first_notMem : sep ∉ first
  parts_notMem : ∀ part ∈ parts, sep ∉ part

theorem IsCut.splitOn_eq {sep : Char} {s first : List Char} {parts : List (List Char)}
    (h : IsCut sep s first parts) : splitOn sep s = first :: parts := by
  rw [h.joined, splitOn_behind h.first_notMem h.parts_notMem]

/-- Every text can be cut. -/
theorem exists_isCut (sep : Char) (s : List Char) : ∃ first parts, IsCut sep s first parts := by
  induction s with
  | nil => exact ⟨[], [], rfl, nofun, nofun⟩
  | cons c s ih =>
    obtain ⟨first, parts, hjoined, hfirst, hparts⟩ := ih
    by_cases hc : c = sep
    · refine ⟨[], first :: parts, ?_, nofun, List.forall_mem_cons.mpr ⟨hfirst, hparts⟩⟩
      rw [hc, behind_cons, ← hjoined, List.nil_append]
    · refine ⟨c :: first, parts, by rw [hjoined, List.cons_append], ?_, hparts⟩
      exact fun hmem => (List.mem_cons.mp hmem).elim (fun h => hc h.symm) hfirst

theorem after?_eq_some_iff {lead s t : List Char} : after? lead s = some t ↔ s = lead ++ t := by
  constructor
  · intro h
    induction lead generalizing s with
    | nil => exact Option.some.inj h
    | cons a lead ih =>
      cases s with
      | nil => cases h
      | cons c s =>
        rw [after?] at h
        split_ifs at h with hac
        rw [hac, ih h, List.cons_append]
  · rintro rfl
    exact after?_append lead t

theorem cutAt?_eq_some_iff {sep : Char} {s a b : List Char} :
    cutAt? sep s = some (a, b) ↔ s = a ++ sep :: b ∧ sep ∉ a := by
  constructor
  · intro h
    induction s generalizing a with
    | nil => cases h
    | cons c s ih =>
      rw [cutAt?] at h
      split_ifs at h with hc
      · cases h
        exact ⟨by rw [hc, List.nil_append], nofun⟩
      · obtain ⟨⟨a', b'⟩, hcut, hab⟩ := Option.map_eq_some_iff.mp h
        cases hab
        obtain ⟨rfl, ha⟩ := ih hcut
        refine ⟨rfl, fun hmem => ?_⟩
        exact (List.mem_cons.mp hmem).elim (fun h => hc h.symm) ha
  · rintro ⟨rfl, ha⟩
    induction a with
    | nil => simp [cutAt?]
    | cons c a ih =>
      rw [List.mem_cons, not_or] at ha
      have hc : c ≠ sep := fun hc => ha.1 hc.symm
      rw [List.cons_append, cutAt?, if_neg hc, ih ha.2]
      rfl

/-- A cut has one part more than there are separators. -/
theorem length_splitOn (sep : Char) (s : List Char) :
    (splitOn sep s).length = s.count sep + 1 := by
  induction s with
  | nil => rfl
  | cons c s ih =>
    by_cases hc : c = sep
    · rw [splitOn, if_pos hc, List.length_cons, ih, hc, List.count_cons_self]
    · rw [splitOn, if_neg hc, List.count_cons_of_ne hc, ← ih]
      cases h : splitOn sep s with
      | nil => exact absurd h (splitOn_ne_nil sep s)
      | cons part parts => rfl

/-- The separators of joined parts are those before the parts and those within. -/
theorem count_behind (sep : Char) (parts : List (List Char)) :
    (behind sep parts).count sep = parts.length + parts.flatten.count sep := by
  induction parts with
  | nil => rfl
  | cons part parts ih =>
    rw [behind_cons, List.count_cons_self, List.count_append, ih, List.length_cons,
      List.flatten_cons, List.count_append]
    omega

/-! ### Trimming -/

theorem trimStart_of_not_blank {c : Char} (h : isBlank c = false) (s : List Char) :
    trimStart (c :: s) = c :: s := by
  simp [trimStart, h]

theorem trimStart_append {s t : List Char} (h : trimStart s ≠ []) :
    trimStart (s ++ t) = trimStart s ++ t := by
  induction s with
  | nil => exact absurd rfl h
  | cons c s ih =>
    cases hc : isBlank c with
    | false => simp [trimStart, hc]
    | true =>
      have hs : trimStart (c :: s) = trimStart s := by simp [trimStart, hc]
      have hst : trimStart (c :: s ++ t) = trimStart (s ++ t) := by simp [trimStart, hc]
      rw [hs] at h ⊢
      rw [hst, ih h]

theorem trimStart_append_of_eq_nil {s t : List Char} (h : trimStart s = []) :
    trimStart (s ++ t) = trimStart t := by
  induction s with
  | nil => rfl
  | cons c s ih =>
    cases hc : isBlank c with
    | false =>
      rw [trimStart_of_not_blank hc] at h
      cases h
    | true =>
      have hs : trimStart (c :: s) = trimStart s := by simp [trimStart, hc]
      have hst : trimStart (c :: s ++ t) = trimStart (s ++ t) := by simp [trimStart, hc]
      rw [hs] at h
      rw [hst, ih h]

/-- What a trimmed text starts with is not blank. -/
theorem not_blank_of_trimStart {s t : List Char} {c : Char} (h : trimStart s = c :: t) :
    isBlank c = false := by
  induction s with
  | nil => cases h
  | cons d s ih =>
    cases hd : isBlank d with
    | false =>
      rw [trimStart_of_not_blank hd] at h
      rw [← (List.cons.inj h).1, hd]
    | true => exact ih (by simpa [trimStart, hd] using h)

/-- A lead that starts with a blank is not found behind itself without its first blanks. -/
theorem after?_trimStart {a c : Char} {lead s : List Char} (ha : isBlank a = true)
    (hc : isBlank c = false) : after? (a :: lead) (trimStart (a :: lead) ++ c :: s) = none := by
  cases htrim : trimStart (a :: lead) with
  | nil =>
    have hne : a ≠ c := fun h => by
      rw [h, hc] at ha
      cases ha
    simp [after?, hne]
  | cons b rest =>
    have hne : a ≠ b := fun h => by
      rw [h, not_blank_of_trimStart htrim] at ha
      cases ha
    simp [after?, hne]

theorem trimEnd_append_cons {c : Char} (h : isBlank c = false) (s t : List Char) :
    trimEnd (s ++ c :: t) = s ++ c :: trimEnd t := by
  have hlast : (c :: s.reverse).dropWhile isBlank = c :: s.reverse := by simp [h]
  have hrest : (t.reverse ++ c :: s.reverse).dropWhile isBlank
      = t.reverse.dropWhile isBlank ++ c :: s.reverse := by
    rw [List.dropWhile_append]
    split_ifs with hnil
    · rw [hlast, List.isEmpty_iff.mp hnil, List.nil_append]
    · rfl
  unfold trimEnd
  rw [List.reverse_append, List.reverse_cons, List.append_assoc, List.singleton_append, hrest]
  simp

theorem trimEnd_of_not_blank {s : List Char} (h : ∀ c ∈ s, isBlank c = false) : trimEnd s = s := by
  rcases List.eq_nil_or_concat s with rfl | ⟨front, c, rfl⟩
  · rfl
  · rw [List.concat_eq_append, trimEnd_append_cons (h c (by simp))]
    rfl

/-- Trimming the end keeps a beginning. -/
theorem trimEnd_prefix (s : List Char) : trimEnd s <+: s := by
  have hsuffix := List.dropWhile_suffix isBlank (l := s.reverse)
  rw [← List.reverse_prefix, List.reverse_reverse] at hsuffix
  exact hsuffix

theorem trimEnd_append {s t : List Char} (h : ∀ c ∈ t, isBlank c = true) :
    trimEnd (s ++ t) = trimEnd s := by
  have hblank : t.reverse.dropWhile isBlank = [] :=
    List.dropWhile_eq_nil_iff.mpr fun c hc => h c (List.mem_reverse.mp hc)
  unfold trimEnd
  rw [List.reverse_append, List.dropWhile_append, hblank]
  rfl

/-- Blanks on either side of a text are taken off with its own. -/
theorem trim_append {before s after : List Char} (hbefore : ∀ c ∈ before, isBlank c = true)
    (hafter : ∀ c ∈ after, isBlank c = true) : trim (before ++ s ++ after) = trim s := by
  have hnil : ∀ {t : List Char}, (∀ c ∈ t, isBlank c = true) → trimStart t = [] :=
    fun h => List.dropWhile_eq_nil_iff.mpr h
  unfold trim
  rw [List.append_assoc, trimStart_append_of_eq_nil (hnil hbefore)]
  by_cases hs : trimStart s = []
  · rw [trimStart_append_of_eq_nil hs, hnil hafter, hs]
  · rw [trimStart_append hs, trimEnd_append hafter]

/-- Whether a text starts with a blank. -/
def StartsBlank (s : List Char) : Prop :=
  ∃ c ∈ s.head?, isBlank c = true

/-- Whether a text ends with a blank. -/
def EndsBlank (s : List Char) : Prop :=
  ∃ c ∈ s.getLast?, isBlank c = true

/-- What is left of a text without the blanks around it. -/
structure Trims (raw s : List Char) : Prop where
  around : ∃ before after, (∀ c ∈ before, isBlank c = true) ∧ (∀ c ∈ after, isBlank c = true) ∧
    raw = before ++ s ++ after
  start : ¬StartsBlank s
  stop : ¬EndsBlank s

theorem endsBlank_append {s t : List Char} (h : t ≠ []) : EndsBlank (s ++ t) ↔ EndsBlank t := by
  obtain ⟨front, c, rfl⟩ := (List.eq_nil_or_concat t).resolve_left h
  simp [EndsBlank]

theorem EndsBlank.append {t : List Char} (h : EndsBlank t) (s : List Char) : EndsBlank (s ++ t) := by
  refine (endsBlank_append ?_).mpr h
  rintro rfl
  obtain ⟨c, hc, -⟩ := h
  cases hc

theorem startsBlank_append {s t : List Char} (h : s ≠ []) : StartsBlank (s ++ t) ↔ StartsBlank s := by
  obtain ⟨c, rest, rfl⟩ := List.exists_cons_of_ne_nil h
  rfl

theorem trimStart_of_not_startsBlank {s : List Char} (h : ¬StartsBlank s) : trimStart s = s := by
  cases s with
  | nil => rfl
  | cons c s =>
    refine trimStart_of_not_blank ?_ s
    simpa [StartsBlank] using h

theorem trimEnd_of_not_endsBlank {s : List Char} (h : ¬EndsBlank s) : trimEnd s = s := by
  rcases List.eq_nil_or_concat s with rfl | ⟨front, c, rfl⟩
  · rfl
  · have hc : isBlank c = false := by simpa [EndsBlank] using h
    rw [List.concat_eq_append, trimEnd_append_cons hc]
    rfl

theorem trimEnd_eq_self_iff {s : List Char} : trimEnd s = s ↔ ¬EndsBlank s := by
  refine ⟨?_, trimEnd_of_not_endsBlank⟩
  rintro h ⟨c, hc, hblank⟩
  obtain ⟨front, rfl⟩ := List.getLast?_eq_some_iff.mp hc
  rw [trimEnd_append (by simpa using hblank)] at h
  have hfront := trimEnd_prefix front
  have hlength := hfront.length_le
  rw [h, List.length_append, List.length_singleton] at hlength
  omega

theorem Trims.trim_eq {raw s : List Char} (h : Trims raw s) : trim raw = s := by
  obtain ⟨before, after, hbefore, hafter, rfl⟩ := h.around
  rw [trim_append hbefore hafter, trim, trimStart_of_not_startsBlank h.start,
    trimEnd_of_not_endsBlank h.stop]

/-- Trimming takes off blanks, and all of them. -/
theorem trims_trim (raw : List Char) : Trims raw (trim raw) := by
  have hstart : raw.takeWhile isBlank ++ trimStart raw = raw := List.takeWhile_append_dropWhile
  have hstop : trim raw ++ ((trimStart raw).reverse.takeWhile isBlank).reverse = trimStart raw := by
    rw [trim, trimEnd, ← List.reverse_append, List.takeWhile_append_dropWhile, List.reverse_reverse]
  have hblank : ∀ (s : List Char), ∀ c ∈ s.takeWhile isBlank, isBlank c = true :=
    fun s => List.all_eq_true.mp List.all_takeWhile
  refine ⟨⟨_, ((trimStart raw).reverse.takeWhile isBlank).reverse, hblank raw, ?_, ?_⟩, ?_, ?_⟩
  · exact fun c hc => hblank _ c (List.mem_reverse.mp hc)
  · rw [List.append_assoc, hstop, hstart]
  · rintro ⟨c, hc, hcblank⟩
    obtain ⟨s, hs⟩ := List.head?_eq_some_iff.mp hc
    rw [hs, List.cons_append] at hstop
    rw [not_blank_of_trimStart hstop.symm] at hcblank
    cases hcblank
  · rintro ⟨c, hc, hcblank⟩
    have hlast : (trimStart (trimStart raw).reverse).head? = some c := by
      rw [← hc, trim, trimEnd, List.getLast?_reverse]
      rfl
    obtain ⟨s, hs⟩ := List.head?_eq_some_iff.mp hlast
    rw [not_blank_of_trimStart hs] at hcblank
    cases hcblank

/-- The parts with the last one trimmed at its end. -/
def trimLast : List (List Char) → List (List Char)
  | [] => []
  | [part] => [trimEnd part]
  | part :: parts => part :: trimLast parts

theorem length_trimLast (parts : List (List Char)) :
    (trimLast parts).length = parts.length := by
  induction parts using trimLast.induct with
  | case1 => rfl
  | case2 part => rfl
  | case3 part parts hne ih => rw [trimLast, List.length_cons, List.length_cons, ih]; exact hne

/-- Trimming joined parts trims the last one only. -/
theorem trimEnd_behind {sep : Char} (h : isBlank sep = false) (s : List Char)
    {parts : List (List Char)} (hne : parts ≠ []) :
    trimEnd (s ++ behind sep parts) = s ++ behind sep (trimLast parts) := by
  induction parts using trimLast.induct generalizing s with
  | case1 => exact absurd rfl hne
  | case2 part =>
    rw [behind_cons, behind_nil, List.append_nil, trimEnd_append_cons h]
    simp [trimLast]
  | case3 part parts hcons ih =>
    have hparts : parts ≠ [] := fun hnil => hcons hnil
    rw [trimLast, behind_cons, behind_cons, ← List.cons_append, ← List.append_assoc, ih _ hparts,
      List.append_assoc, List.cons_append]
    exact hcons

end Keyset.Text
