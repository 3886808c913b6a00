import Keyset.Proofs.Cursor.Grammar
import Keyset.Proofs.Cursor.RoundTrip

/-!
# The lead of a cursor

What is left of a cursor is what stands behind its lead, whatever blanks are around it and whatever the
rest starts with, and a text without a lead is left as it is but for those blanks
(`normalize_strips_lead`).  The number of the site stands behind the lead of every cursor that is
issued, so that a query with the same lead at another site refuses it (`seek_refuses_other_site`).
-/

namespace Keyset.CursorInfo

variable {info : CursorInfo}

/-! ### Leads -/

/-- The word between `gj-` and the separator in the lead of a cursor: hexadecimal digits, at least
one. -/
structure IsToken (token : List Char) : Prop where
  ne_nil : token ≠ []
  isHexDigit : ∀ c ∈ token, Text.isHexDigit c = true

/-- The texts that have a lead between blanks, and what stands behind it: the query's own lead, or if it
has none, `gj-` and a word of hexadecimal digits. -/
inductive CarriesLead (info : CursorInfo) : List Char → List Char → Prop
  | own {before s after : List Char} (hbefore : ∀ c ∈ before, Text.isBlank c = true)
    (hafter : ∀ c ∈ after, Text.isBlank c = true) (hlead : info.lead ≠ "")
    (hplain : info.hasPlainLead = true) (hs : ¬Text.EndsBlank s)
    (hne : Text.EndsBlank info.lead.toList → s ≠ []) :
    CarriesLead info (before ++ (info.lead.toList ++ s) ++ after) s
  | token {before token s after : List Char} (hbefore : ∀ c ∈ before, Text.isBlank c = true)
    (hafter : ∀ c ∈ after, Text.isBlank c = true) (hlead : info.lead = "") (htoken : IsToken token)
    (hs : ¬Text.EndsBlank s) :
    CarriesLead info (before ++ ("gj-".toList ++ (token ++ Cursor.separator :: s)) ++ after) s

theorem IsToken.separator_notMem {token : List Char} (h : IsToken token) :
    Cursor.separator ∉ token :=
  fun hmem => nomatch h.isHexDigit _ hmem

theorem withoutToken?_eq_some_iff {s t : List Char} : withoutToken? s = some t ↔
    ∃ token, IsToken token ∧ s = "gj-".toList ++ (token ++ Cursor.separator :: t) := by
  simp only [withoutToken?, Option.bind_eq_bind, Option.bind_eq_some_iff, Text.after?_eq_some_iff,
    Prod.exists]
  constructor
  · rintro ⟨rest, rfl, token, tail, hcut, h⟩
    obtain ⟨rfl, -⟩ := Text.cutAt?_eq_some_iff.mp hcut
    split_ifs at h with htoken
    obtain rfl := Option.some.inj h
    exact ⟨token, ⟨htoken.1, List.all_eq_true.mp htoken.2⟩, rfl⟩
  · rintro ⟨token, htoken, rfl⟩
    refine ⟨_, rfl, token, t, Text.cutAt?_eq_some_iff.mpr ⟨rfl, htoken.separator_notMem⟩, ?_⟩
    rw [if_pos ⟨htoken.ne_nil, List.all_eq_true.mpr htoken.isHexDigit⟩]

/-! ### Taking a lead off -/

theorem normalize_of_trims {raw s : List Char} (h : Text.Trims raw s) :
    info.normalize raw =
      if s = [] then []
      else if info.lead = "" then (withoutToken? s).getD s
      else (Text.after? info.lead.toList s).getD s := by
  unfold normalize
  simp only [h.trim_eq]

theorem hasPlainLead_iff : info.hasPlainLead = true ↔ ¬Text.StartsBlank info.lead.toList := by
  unfold hasPlainLead Text.StartsBlank
  cases info.lead.toList <;> simp

/-- What is left between the blanks starts with the lead and ends as the rest does. -/
theorem CarriesLead.exists_trims {raw s : List Char} (h : CarriesLead info raw s) :
    ∃ lead, Text.Trims raw (lead ++ s) ∧ lead ++ s ≠ [] ∧
      if info.lead = "" then withoutToken? (lead ++ s) = some s else lead = info.lead.toList := by
  cases h with
  | @own before s after hbefore hafter hlead hplain hs hne =>
    have hcons : info.lead.toList ≠ [] := fun h => hlead (String.toList_eq_nil_iff.mp h)
    refine ⟨info.lead.toList, ⟨⟨before, after, hbefore, hafter, rfl⟩, ?_, ?_⟩,
      List.append_ne_nil_of_left_ne_nil hcons _, by rw [if_neg hlead]⟩
    · rw [Text.startsBlank_append hcons]
      exact hasPlainLead_iff.mp hplain
    · by_cases hnil : s = []
      · rw [hnil, List.append_nil]
        exact fun hends => hne hends hnil
      · rwa [Text.endsBlank_append hnil]
  | @token before token s after hbefore hafter hlead htoken hs =>
    have hassoc : "gj-".toList ++ (token ++ Cursor.separator :: s) =
        ("gj-".toList ++ token ++ [Cursor.separator]) ++ s := by simp
    refine ⟨"gj-".toList ++ token ++ [Cursor.separator], ?_, by simp, ?_⟩
    · rw [hassoc]
      refine ⟨⟨before, after, hbefore, hafter, rfl⟩, ?_, ?_⟩
      · rintro ⟨c, hc, hblank⟩
        obtain rfl := Option.some.inj hc
        cases hblank
      · by_cases hnil : s = []
        · rw [hnil, List.append_nil, Text.endsBlank_append (List.cons_ne_nil _ _)]
          rintro ⟨c, hc, hblank⟩
          obtain rfl := Option.some.inj hc
          cases hblank
        · rwa [Text.endsBlank_append hnil]
    · rw [if_pos hlead, ← hassoc]
      exact withoutToken?_eq_some_iff.mpr ⟨token, htoken, rfl⟩

/-- A lead is taken off, whatever stands behind it. -/
theorem CarriesLead.normalize_eq {raw s : List Char} (h : CarriesLead info raw s) :
    info.normalize raw = s := by
  obtain ⟨lead, htrims, hne, hlead⟩ := h.exists_trims
  rw [normalize_of_trims htrims, if_neg hne]
  split_ifs at hlead ⊢ with hempty
  · rw [hlead, Option.getD_some]
  · rw [hlead, Text.after?_append, Option.getD_some]

/-- A text without a lead is only trimmed. -/
theorem trims_normalize {raw : List Char} (h : ∀ s, ¬CarriesLead info raw s) :
    Text.Trims raw (info.normalize raw) := by
  have htrims := Text.trims_trim raw
  suffices hsame : info.normalize raw = Text.trim raw from hsame ▸ htrims
  obtain ⟨before, after, hbefore, hafter, hraw⟩ := htrims.around
  rw [normalize_of_trims htrims]
  split_ifs with hnil hlead
  · exact hnil.symm
  · cases htoken : withoutToken? (Text.trim raw) with
    | none => rfl
    | some s =>
      obtain ⟨token, htoken, hs⟩ := withoutToken?_eq_some_iff.mp htoken
      refine absurd ?_ (h s)
      have hstop := htrims.stop
      rw [hs] at hstop
      rw [hraw, hs]
      refine .token hbefore hafter hlead htoken fun hends => hstop ?_
      exact ((hends.append [Cursor.separator]).append token).append "gj-".toList
  · cases hafter' : Text.after? info.lead.toList (Text.trim raw) with
    | none => rfl
    | some s =>
      have hs := Text.after?_eq_some_iff.mp hafter'
      have hcons : info.lead.toList ≠ [] := fun h => hlead (String.toList_eq_nil_iff.mp h)
      refine absurd ?_ (h s)
      have hstart := htrims.start
      have hstop := htrims.stop
      rw [hs, Text.startsBlank_append hcons] at hstart
      rw [hs] at hstop
      rw [hraw, hs]
      refine .own hbefore hafter hlead (hasPlainLead_iff.mpr hstart)
        (fun hends => hstop (hends.append _)) ?_
      rintro hends rfl
      exact hstop (by rwa [List.append_nil])

/-- What becomes of the lead of a cursor. -/
structure StripsLead (info : CursorInfo) : Prop where
  /-- One lead is taken off, whatever stands behind it. -/
  strips : ∀ raw s, CarriesLead info raw s → info.normalize raw = s
  /-- A text without a lead is only trimmed. -/
  keeps : ∀ raw, (∀ s, ¬CarriesLead info raw s) → Text.Trims raw (info.normalize raw)
  /-- No lead is taken off but the query's own, if it has one. -/
  keeps_other_lead : info.lead ≠ "" → ∀ raw s, Text.Trims raw s → ¬info.lead.toList <+: s →
    info.normalize raw = s
  /-- If it has none, `gj-` is taken off only with a word of hexadecimal digits and a separator. -/
  keeps_without_token : info.lead = "" → ∀ raw tail, Text.Trims raw ("gj-".toList ++ tail) →
    (Cursor.separator ∉ tail ∨ ∃ token rest, tail = token ++ Cursor.separator :: rest ∧
      Cursor.separator ∉ token ∧ ¬IsToken token) →
    info.normalize raw = "gj-".toList ++ tail

/-- **One lead is taken off a cursor**, the query's own or one with a word of hexadecimal digits, and
nothing else but the blanks around it. -/
theorem normalize_strips_lead (info : CursorInfo) : StripsLead info where
  strips _ _ := CarriesLead.normalize_eq
  keeps _ := trims_normalize
  keeps_other_lead := by
    intro hlead raw s htrims hother
    have hnone : Text.after? info.lead.toList s = none := by
      rw [Option.eq_none_iff_forall_ne_some]
      exact fun t ht => hother ⟨t, (Text.after?_eq_some_iff.mp ht).symm⟩
    rw [normalize_of_trims htrims, if_neg hlead, hnone, Option.getD_none]
    split_ifs with hnil
    · exact hnil.symm
    · rfl
  keeps_without_token := by
    intro hlead raw tail htrims htail
    have hnone : withoutToken? ("gj-".toList ++ tail) = none := by
      rw [Option.eq_none_iff_forall_ne_some]
      intro t ht
      obtain ⟨token, htoken, hs⟩ := withoutToken?_eq_some_iff.mp ht
      have hcut := Text.cutAt?_eq_some_iff.mpr ⟨List.append_cancel_left hs, htoken.separator_notMem⟩
      rcases htail with hsep | ⟨token', rest, htail, hsep, hnot⟩
      · rw [List.append_cancel_left hs] at hsep
        exact hsep (by simp)
      · rw [Text.cutAt?_eq_some_iff.mpr ⟨htail, hsep⟩] at hcut
        cases hcut
        exact hnot htoken
    rw [normalize_of_trims htrims, if_neg (by simp), if_pos hlead, hnone, Option.getD_none]

/-! ### Sites -/

theorem normalize_eq_of_lead {a b : CursorInfo} (h : a.lead = b.lead) (raw : List Char) :
    a.normalize raw = b.normalize raw := by
  unfold normalize
  rw [h]

/-- A cursor that was issued for a site has the number of the site in front of its fields. -/
theorem exists_fields_of_encode {info : CursorInfo} {row : Json} {c : String}
    (hplain : info.hasPlainLead = true) (h : info.encode row = some c) :
    ∃ fields, Text.IsCut Cursor.separator (info.normalize c.toList)
      (Text.digits info.selectId.toNat) fields := by
  obtain ⟨hne, texts, htexts, rfl⟩ := encode_eq_some_iff.mp h
  have hlength := Cursor.length_writtenTexts? htexts
  have hcons : texts ≠ [] := by
    rintro rfl
    exact hne (List.eq_nil_of_length_eq_zero hlength.symm)
  obtain ⟨front, hfront, hnormalize⟩ := info.normalize_cursorText hcons
  rw [String.toList_ofList, hnormalize, hfront hplain, List.nil_append]
  obtain ⟨site, fields, hcut⟩ := Text.exists_isCut Cursor.separator
    (Text.digits info.selectId.toNat ++ Text.behind Cursor.separator (Text.trimLast texts))
  obtain ⟨text, rest, hrest⟩ : ∃ text rest, Text.trimLast texts = text :: rest := by
    refine List.exists_cons_of_ne_nil fun hnil => hcons ?_
    rw [← List.length_eq_zero_iff, ← Text.length_trimLast, hnil, List.length_nil]
  -- the first separator is the one behind the site
  have hsplit := hcut.splitOn_eq
  rw [hrest, Text.behind_cons, Text.splitOn_append_cons (separator_notMem_digits _)] at hsplit
  obtain ⟨rfl, -⟩ := List.cons.inj hsplit
  exact ⟨fields, hcut⟩

/-- **A cursor is of no use at another site**: a query with the same lead refuses it for its site,
whatever columns it has and whatever blanks are around the cursor. -/
theorem seek_refuses_other_site {a b : CursorInfo} {row : Json} {c : String}
    (hlead : a.lead = b.lead) (hplain : a.hasPlainLead = true) (hsite : a.selectId ≠ b.selectId)
    (h : a.encode row = some c) {before after : String}
    (hbefore : ∀ d ∈ before.toList, Text.isBlank d = true)
    (hafter : ∀ d ∈ after.toList, Text.isBlank d = true) :
    (∃ e, b.seek (before ++ c ++ after) = .error e ∧ e.kind = .cursorInvalid ∧
      e = .cursor (.otherSite a.selectId b.selectId)) ∧ b.seek? (before ++ c ++ after) = none := by
  obtain ⟨fields, hcut⟩ := exists_fields_of_encode hplain h
  have hnormalize : b.normalize (before ++ c ++ after).toList = a.normalize c.toList := by
    rw [String.toList_append, String.toList_append, normalize_of_blanks hbefore hafter,
      normalize_eq_of_lead hlead]
  rw [← hnormalize] at hcut
  have hspells : Text.SpellsNatural (Text.digits a.selectId.toNat) a.selectId.toNat :=
    Text.word64?_eq_some_iff.mp (Text.word64?_digits _)
  have hblank : b.normalize (before ++ c ++ after).toList ≠ [] := by
    rw [hcut.joined]
    exact List.append_ne_nil_of_left_ne_nil Nat.toDigits_ne_nil _
  have hseek := seek_of_fault hcut hblank (.otherSite hspells hsite)
  refine ⟨⟨_, hseek, rfl, rfl⟩, ?_⟩
  unfold seek?
  rw [hseek]

/-- The cursor of a row, at a query of the next number with the same columns. -/
theorem seek_refuses_other_site_next :
    let next : CursorInfo := { fourKinds with selectId := 13 }
    fourKinds.lead = next.lead ∧ fourKinds.hasPlainLead = true ∧ fourKinds.selectId ≠ next.selectId ∧
      fourKinds.encode fourValues = some "gj-65:12:'10001:2: 07 :99" ∧
      next.seek ("\t" ++ "gj-65:12:'10001:2: 07 :99" ++ " \n") =
        .error (.cursor (.otherSite 12 13)) ∧
      next.seek? ("\t" ++ "gj-65:12:'10001:2: 07 :99" ++ " \n") = none := by
  intro next
  have hlead : fourKinds.lead = next.lead := rfl
  have hplain : fourKinds.hasPlainLead = true := rfl
  have hsite : fourKinds.selectId ≠ next.selectId := by decide
  have hencode : fourKinds.encode fourValues = some "gj-65:12:'10001:2: 07 :99" := by
    decide +kernel
  have hbefore : ∀ a ∈ "\t".toList, Text.isBlank a = true := List.all_eq_true.mp rfl
  have hafter : ∀ a ∈ " \n".toList, Text.isBlank a = true := List.all_eq_true.mp rfl
  obtain ⟨⟨e, hseek, -, rfl⟩, hnone⟩ :=
    seek_refuses_other_site hlead hplain hsite hencode hbefore hafter
  exact ⟨hlead, hplain, hsite, hencode, hseek, hnone⟩

end Keyset.CursorInfo
