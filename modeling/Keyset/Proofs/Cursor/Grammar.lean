import Keyset.Proofs.Cursor.Clauses
import Keyset.Proofs.Cursor.Resumption
import Keyset.Proofs.Double.Literal

/-!
# The grammar of cursors

A cursor without its lead is a site and fields with separators between them.  It is read exactly if the
site is a spelling of the query's own number and each column takes its field (`Reads`); it then stands
for the filter of what comes after the values (`IsAfter`).  What is wrong with the site or with the
number of fields (`FrameFault`) is reported before the first field that does not fit (`FirstMisfit`).
The main statement is `seek_follows_grammar`.
-/

namespace Keyset

/-! ### Fields -/

namespace Cursor

/-- The texts that a column takes, and the values that they are read as. -/
inductive Reads (col : OrderBy) (isLast : Bool) (s : List Char) : Json → Prop
  | integer {n : Int64} (hcol : col.kind = some .integer ∨ col.kind = none ∧ isLast = true)
    (hs : Text.SpellsInteger s n.toInt) : Reads col isLast s (.ofInt64 n)
  | float {x : Double} (hcol : col.kind = some .float) (hx : x.isFinite = true)
    (hs : Double.Spells s x) : Reads col isLast s (.number (.double x hx))
  | string (hcol : col.kind = some .string) : Reads col isLast s (.string (String.ofList s))
  | untyped (hcol : col.kind = none ∧ isLast = false) : Reads col isLast s (untyped s)

/-- Why a column does not take a text. -/
def misfit (col : OrderBy) (s : List Char) : Error :=
  if col.kind = some .float then .notANumber (String.ofList s) col.column
  else .notAnInteger (String.ofList s) col.column

theorem kind_misfit (col : OrderBy) (s : List Char) : (misfit col s).kind = .typeMismatch := by
  unfold misfit
  split_ifs <;> rfl

/-- Texts that columns take, one for each, and the values that they are read as. -/
inductive ReadsAll : List OrderBy → List (List Char) → List Json → Prop
  | nil : ReadsAll [] [] []
  | cons {col : OrderBy} {cols : List OrderBy} {s : List Char} {texts : List (List Char)} {v : Json}
    {vs : List Json} (hs : Reads col cols.isEmpty s v) (htexts : ReadsAll cols texts vs) :
    ReadsAll (col :: cols) (s :: texts) (v :: vs)

/-- The error of the first text that its column does not take. -/
inductive FirstMisfit : List OrderBy → List (List Char) → Error → Prop
  | here {col : OrderBy} {cols : List OrderBy} {s : List Char} {texts : List (List Char)}
    (hs : ∀ v, ¬Reads col cols.isEmpty s v) : FirstMisfit (col :: cols) (s :: texts) (misfit col s)
  | later {col : OrderBy} {cols : List OrderBy} {s : List Char} {texts : List (List Char)} {v : Json}
    {e : Error} (hs : Reads col cols.isEmpty s v) (htexts : FirstMisfit cols texts e) :
    FirstMisfit (col :: cols) (s :: texts) e

theorem FirstMisfit.kind {cols : List OrderBy} {texts : List (List Char)} {e : Error}
    (h : FirstMisfit cols texts e) : e.kind = .typeMismatch := by
  induction h with
  | here => exact kind_misfit _ _
  | later _ _ ih => exact ih

theorem ReadsAll.length_eq {cols : List OrderBy} {texts : List (List Char)} {vs : List Json}
    (h : ReadsAll cols texts vs) : vs.length = cols.length := by
  induction h with
  | nil => rfl
  | cons _ _ ih => rw [List.length_cons, List.length_cons, ih]

theorem kindAt_eq_some_iff {col : OrderBy} {isLast : Bool} {k : ColumnKind} :
    kindAt col isLast = some k ↔
      col.kind = some k ∨ col.kind = none ∧ isLast = true ∧ k = .integer := by
  unfold kindAt
  cases col.kind <;> cases isLast <;> simp [eq_comm]

theorem kind_of_kindAt {col : OrderBy} {isLast : Bool} {k : ColumnKind}
    (h : kindAt col isLast = some k) (hk : k ≠ .integer) : col.kind = some k :=
  (kindAt_eq_some_iff.mp h).resolve_right fun hdefault => hk hdefault.2.2

/-- A column reads the texts that it takes. -/
theorem readValue_eq_ok_iff {col : OrderBy} {isLast : Bool} {s : List Char} {v : Json} :
    readValue col isLast s = .ok v ↔ Reads col isLast s v := by
  constructor
  · intro h
    rcases readValue_cases h with ⟨hkind, n, hn, rfl⟩ | ⟨hkind, x, hx, hread, rfl⟩ | ⟨hkind, rfl⟩ |
      ⟨hkind, rfl⟩
    · refine .integer ?_ (Text.integer64?_eq_some_iff.mp hn)
      exact (kindAt_eq_some_iff.mp hkind).imp_right fun h => ⟨h.1, h.2.1⟩
    · refine .float ?_ hx ((Double.ofText?_finite_iff hx).mp hread)
      exact kind_of_kindAt hkind (by decide)
    · exact .string (kind_of_kindAt hkind (by decide))
    · exact .untyped (kindAt_eq_none.mp hkind)
  · intro h
    cases h with
    | integer hcol hs =>
      refine readValue_integer (kindAt_eq_some_iff.mpr ?_) (Text.integer64?_eq_some_iff.mpr hs)
      exact hcol.imp_right fun h => ⟨h.1, h.2, rfl⟩
    | float hcol hx hs =>
      exact readValue_float (kindAt_eq_some_iff.mpr (.inl hcol)) hx
        ((Double.ofText?_finite_iff hx).mpr hs)
    | string hcol => exact readValue_string (kindAt_eq_some_iff.mpr (.inl hcol))
    | untyped hcol => exact readValue_none (kindAt_eq_none.mpr hcol)

theorem eq_misfit_of_readValue {col : OrderBy} {isLast : Bool} {s : List Char} {e : Error}
    (h : readValue col isLast s = .error e) : e = misfit col s := by
  unfold readValue at h
  cases hkind : kindAt col isLast with
  | none =>
    rw [hkind] at h
    cases h
  | some kind =>
    rw [hkind] at h
    cases kind with
    | integer =>
      have hcol : col.kind ≠ some .float := fun hcol => by simp [kindAt, hcol] at hkind
      rw [misfit, if_neg hcol]
      cases hn : Text.integer64? s with
      | some n =>
        rw [hn] at h
        cases h
      | none =>
        rw [hn] at h
        exact (Except.error.inj h).symm
    | float =>
      rw [misfit, if_pos (kind_of_kindAt hkind (by decide))]
      cases hx : (Double.ofText? s).bind Number.ofDouble? with
      | some x =>
        rw [hx] at h
        cases h
      | none =>
        rw [hx] at h
        exact (Except.error.inj h).symm
    | string => cases h

theorem readValue_eq_error_iff {col : OrderBy} {isLast : Bool} {s : List Char} {e : Error} :
    readValue col isLast s = .error e ↔ (∀ v, ¬Reads col isLast s v) ∧ e = misfit col s := by
  constructor
  · intro h
    refine ⟨fun v hv => ?_, eq_misfit_of_readValue h⟩
    rw [readValue_eq_ok_iff.mpr hv] at h
    cases h
  · rintro ⟨hnone, rfl⟩
    cases h : readValue col isLast s with
    | ok v => exact absurd (readValue_eq_ok_iff.mp h) (hnone v)
    | error e => rw [eq_misfit_of_readValue h]

theorem readValues_eq_ok_iff {cols : List OrderBy} {texts : List (List Char)} {vs : List Json}
    (hlength : texts.length = cols.length) :
    readValues cols texts = .ok vs ↔ ReadsAll cols texts vs := by
  induction cols generalizing texts vs with
  | nil =>
    obtain rfl := List.eq_nil_of_length_eq_zero hlength
    constructor
    · intro h
      obtain rfl := Except.ok.inj h
      exact .nil
    · intro h
      cases h
      rfl
  | cons col cols ih =>
    cases texts with
    | nil => cases hlength
    | cons s texts =>
      have hlength : texts.length = cols.length := Nat.succ.inj hlength
      constructor
      · intro h
        obtain ⟨v, rest, hv, hrest, rfl⟩ := readValues_cons h
        exact .cons (readValue_eq_ok_iff.mp hv) ((ih hlength).mp hrest)
      · intro h
        cases h with
        | cons hs htexts =>
          rw [readValues, readValue_eq_ok_iff.mpr hs, (ih hlength).mpr htexts]
          rfl

theorem readValues_eq_error_iff {cols : List OrderBy} {texts : List (List Char)} {e : Error} :
    readValues cols texts = .error e ↔ FirstMisfit cols texts e := by
  induction cols generalizing texts with
  | nil =>
    constructor
    · intro h
      cases texts <;> cases h
    · exact nofun
  | cons col cols ih =>
    cases texts with
    | nil =>
      constructor
      · intro h
        cases h
      · exact nofun
    | cons s texts =>
      rw [readValues, bind_eq_error_iff, readValue_eq_error_iff]
      constructor
      · rintro (⟨hs, rfl⟩ | ⟨v, hv, h⟩)
        · exact .here hs
        · rcases bind_eq_error_iff.mp h with h | ⟨vs, -, h⟩
          · exact .later (readValue_eq_ok_iff.mp hv) (ih.mp h)
          · cases h
      · intro h
        cases h with
        | here hs => exact .inl ⟨hs, rfl⟩
        | later hs htexts =>
          exact .inr ⟨_, readValue_eq_ok_iff.mpr hs, bind_eq_error_iff.mpr (.inl (ih.mpr htexts))⟩

end Cursor

/-! ### Cursors -/

namespace CursorInfo

variable (info : CursorInfo)

/-- A cursor of the query's own site with a field for each of its columns, of which there are some. -/
structure HasFrame (site : List Char) (fields : List (List Char)) : Prop where
  site : Text.SpellsNatural site info.selectId.toNat
  columns : info.orderBy ≠ []
  count : fields.length = info.orderBy.length

/-- What is wrong with the site of a cursor, or else with the columns, or else with the number of its
fields. -/
inductive FrameFault (site : List Char) (fields : List (List Char)) : CursorFault → Prop
  | badSite (hsite : ∀ w : UInt64, ¬Text.SpellsNatural site w.toNat) :
    FrameFault site fields (.badSite (String.ofList site))
  | otherSite {issued : UInt64} (hsite : Text.SpellsNatural site issued.toNat)
    (hne : issued ≠ info.selectId) :
    FrameFault site fields (.otherSite issued info.selectId)
  | noColumns (hsite : Text.SpellsNatural site info.selectId.toNat) (hcolumns : info.orderBy = []) :
    FrameFault site fields .noColumns
  | valueCount (hsite : Text.SpellsNatural site info.selectId.toNat) (hcolumns : info.orderBy ≠ [])
    (hcount : fields.length ≠ info.orderBy.length) :
    FrameFault site fields (.valueCount info.orderBy.length fields.length)

variable {info}

/-- A cursor has its frame, or something is wrong with it. -/
theorem hasFrame_iff {site : List Char} {fields : List (List Char)} :
    info.HasFrame site fields ↔ ¬∃ fault, info.FrameFault site fields fault := by
  constructor
  · rintro ⟨hsite, hcolumns, hcount⟩ ⟨fault, hfault⟩
    cases hfault with
    | badSite hbad => exact hbad _ hsite
    | otherSite hissued hne =>
      have hword := Text.word64?_eq_some_iff.mpr hissued
      rw [Text.word64?_eq_some_iff.mpr hsite] at hword
      exact hne (Option.some.inj hword).symm
    | noColumns _ hnone => exact hcolumns hnone
    | valueCount _ _ hne => exact hne hcount
  · intro hnone
    have hsite : Text.SpellsNatural site info.selectId.toNat := by
      by_contra hsite
      refine hnone ⟨_, .badSite fun w hw => hnone ⟨_, .otherSite hw fun hword => ?_⟩⟩
      exact hsite (hword ▸ hw)
    have hcolumns : info.orderBy ≠ [] := fun h => hnone ⟨_, .noColumns hsite h⟩
    exact ⟨hsite, hcolumns, by_contra fun h => hnone ⟨_, .valueCount hsite hcolumns h⟩⟩

section

variable {raw : String} {site : List Char} {fields : List (List Char)}

theorem seek_of_blank (hblank : info.normalize raw.toList = []) : info.seek raw = .ok none := by
  unfold seek values?
  simp only [if_pos hblank]
  rfl

variable (hcut : Text.IsCut Cursor.separator (info.normalize raw.toList) site fields)
include hcut

/-- Nothing is a spelling of a site. -/
theorem HasFrame.ne_nil (h : info.HasFrame site fields) : info.normalize raw.toList ≠ [] := by
  obtain ⟨c, t, hc⟩ : ∃ c t, site = c :: t := by
    obtain ⟨sign, negative, t, -, rfl, -, ht⟩ := h.site
    obtain ⟨c, u, rfl, -⟩ := ht.exists_cons
    cases sign with
    | nil => exact ⟨c, u, rfl⟩
    | cons a sign => exact ⟨a, _, rfl⟩
  rw [hcut.joined, hc]
  exact List.cons_ne_nil _ _

/-- A cursor with a site is checked for its frame, and then read field by field. -/
theorem seek_of_site {w : UInt64} (hblank : info.normalize raw.toList ≠ [])
    (hw : Text.SpellsNatural site w.toNat) : info.seek raw =
      if w ≠ info.selectId then .error (.cursor (.otherSite w info.selectId))
      else if info.orderBy = [] then .error (.cursor .noColumns)
      else if fields.length ≠ info.orderBy.length then
        .error (.cursor (.valueCount info.orderBy.length fields.length))
      else (Cursor.readValues info.orderBy fields).map fun values =>
        some (Seek.filter (info.orderBy.zip values)) := by
  unfold seek values?
  simp only [if_neg hblank, hcut.splitOn_eq, List.headD_cons, List.tail_cons,
    Text.word64?_eq_some_iff.mpr hw]
  split_ifs
  all_goals try rfl
  cases Cursor.readValues info.orderBy fields <;> rfl

theorem seek_of_fault (hblank : info.normalize raw.toList ≠ []) {fault : CursorFault}
    (h : info.FrameFault site fields fault) : info.seek raw = .error (.cursor fault) := by
  cases h with
  | badSite hbad =>
    have hnone : Text.word64? site = none := by
      rw [Option.eq_none_iff_forall_ne_some]
      exact fun w hw => hbad w (Text.word64?_eq_some_iff.mp hw)
    unfold seek values?
    simp only [if_neg hblank, hcut.splitOn_eq, List.headD_cons, hnone]
    rfl
  | otherSite hissued hne => rw [seek_of_site hcut hblank hissued, if_pos hne]
  | noColumns hsite hcolumns =>
    rw [seek_of_site hcut hblank hsite, if_neg (not_not.mpr rfl), if_pos hcolumns]
  | valueCount hsite hcolumns hcount =>
    rw [seek_of_site hcut hblank hsite, if_neg (not_not.mpr rfl), if_neg hcolumns, if_pos hcount]

theorem seek_of_frame (h : info.HasFrame site fields) :
    info.seek raw = (Cursor.readValues info.orderBy fields).map fun values =>
      some (Seek.filter (info.orderBy.zip values)) := by
  rw [seek_of_site hcut (h.ne_nil hcut) h.site, if_neg (not_not.mpr rfl), if_neg h.columns,
    if_neg (not_not.mpr h.count)]

theorem seek_of_misfit (h : info.HasFrame site fields) {e : Error}
    (he : Cursor.FirstMisfit info.orderBy fields e) : info.seek raw = .error e := by
  rw [seek_of_frame hcut h, Cursor.readValues_eq_error_iff.mpr he]
  rfl

theorem seek_of_readsAll (h : info.HasFrame site fields) {values : List Json} {f : Json.Object}
    (hvalues : Cursor.ReadsAll info.orderBy fields values)
    (hf : Seek.IsAfter (info.orderBy.zip values) f) : info.seek raw = .ok (some f) := by
  rw [seek_of_frame hcut h, (Cursor.readValues_eq_ok_iff h.count).mpr hvalues, hf.eq_filter]
  rfl

/-- A cursor is blank, or its frame is wrong, or a field does not fit, or it stands for a filter. -/
theorem seek_cases :
    (info.normalize raw.toList = [] ∧ info.seek raw = .ok none) ∨
      (info.normalize raw.toList ≠ [] ∧ ∃ fault, info.FrameFault site fields fault ∧
        info.seek raw = .error (.cursor fault)) ∨
      (info.HasFrame site fields ∧ ∃ e, Cursor.FirstMisfit info.orderBy fields e ∧
        info.seek raw = .error e) ∨
      (info.HasFrame site fields ∧ ∃ values f, Cursor.ReadsAll info.orderBy fields values ∧
        Seek.IsAfter (info.orderBy.zip values) f ∧ info.seek raw = .ok (some f)) := by
  by_cases hblank : info.normalize raw.toList = []
  · exact .inl ⟨hblank, seek_of_blank hblank⟩
  by_cases hfault : ∃ fault, info.FrameFault site fields fault
  · obtain ⟨fault, hfault⟩ := hfault
    exact .inr (.inl ⟨hblank, fault, hfault, seek_of_fault hcut hblank hfault⟩)
  have hframe := hasFrame_iff.mpr hfault
  cases hread : Cursor.readValues info.orderBy fields with
  | error e =>
    have he := Cursor.readValues_eq_error_iff.mp hread
    exact .inr (.inr (.inl ⟨hframe, e, he, seek_of_misfit hcut hframe he⟩))
  | ok values =>
    have hvalues := (Cursor.readValues_eq_ok_iff hframe.count).mp hread
    have hafter := Seek.isAfter_filter_zip hframe.columns hvalues.length_eq
    exact .inr (.inr (.inr ⟨hframe, values, _, hvalues, hafter,
      seek_of_readsAll hcut hframe hvalues hafter⟩))

theorem seek_eq_none_iff : info.seek raw = .ok none ↔ info.normalize raw.toList = [] := by
  refine ⟨fun h => ?_, seek_of_blank⟩
  rcases seek_cases hcut with ⟨hblank, -⟩ | ⟨-, _, -, hseek⟩ | ⟨-, _, -, hseek⟩ |
    ⟨-, _, _, -, -, hseek⟩
  · exact hblank
  all_goals
    rw [hseek] at h
    cases h

theorem seek_eq_ok_some_iff {f : Json.Object} : info.seek raw = .ok (some f) ↔
    info.HasFrame site fields ∧ ∃ values, Cursor.ReadsAll info.orderBy fields values ∧
      Seek.IsAfter (info.orderBy.zip values) f := by
  constructor
  · intro h
    rcases seek_cases hcut with ⟨-, hseek⟩ | ⟨-, _, -, hseek⟩ | ⟨-, _, -, hseek⟩ |
      ⟨hframe, values, f', hvalues, hafter, hseek⟩
    case inr.inr.inr =>
      rw [hseek, Except.ok.injEq, Option.some.injEq] at h
      exact ⟨hframe, values, hvalues, h ▸ hafter⟩
    all_goals
      rw [hseek] at h
      cases h
  · rintro ⟨hframe, values, hvalues, hafter⟩
    exact seek_of_readsAll hcut hframe hvalues hafter

theorem seek_eq_error_iff {e : Error} : info.seek raw = .error e ↔
    info.normalize raw.toList ≠ [] ∧
      ((∃ fault, info.FrameFault site fields fault ∧ e = .cursor fault) ∨
        info.HasFrame site fields ∧ Cursor.FirstMisfit info.orderBy fields e) := by
  constructor
  · intro h
    rcases seek_cases hcut with ⟨-, hseek⟩ | ⟨hblank, fault, hfault, hseek⟩ |
      ⟨hframe, e', he, hseek⟩ | ⟨-, _, _, -, -, hseek⟩
    case inr.inl =>
      rw [hseek, Except.error.injEq] at h
      exact ⟨hblank, .inl ⟨fault, hfault, h.symm⟩⟩
    case inr.inr.inl =>
      rw [hseek, Except.error.injEq] at h
      exact ⟨hframe.ne_nil hcut, .inr ⟨hframe, h ▸ he⟩⟩
    all_goals
      rw [hseek] at h
      cases h
  · rintro ⟨hblank, ⟨fault, hfault, rfl⟩ | ⟨hframe, hmisfit⟩⟩
    · exact seek_of_fault hcut hblank hfault
    · exact seek_of_misfit hcut hframe hmisfit

theorem kind_of_seek {e : Error} (h : info.seek raw = .error e) :
    (¬info.HasFrame site fields → e.kind = .cursorInvalid) ∧
      (info.HasFrame site fields → e.kind = .typeMismatch) := by
  rcases ((seek_eq_error_iff hcut).mp h).2 with ⟨fault, hfault, rfl⟩ | ⟨hframe, hmisfit⟩
  · exact ⟨fun _ => rfl, fun hframe => absurd ⟨fault, hfault⟩ (hasFrame_iff.mp hframe)⟩
  · exact ⟨fun hnot => absurd hframe hnot, fun _ => hmisfit.kind⟩

end

/-- What a query makes of a cursor, of which a text is left that is cut into a site and fields. -/
structure FollowsGrammar (info : CursorInfo) (s site : List Char) (fields : List (List Char))
    (outcome : Except Error (Option Json.Object)) : Prop where
  cut : Text.IsCut Cursor.separator s site fields
  /-- Only a cursor of which nothing is left counts as none. -/
  none_iff : outcome = .ok none ↔ s = []
  /-- A cursor is used exactly if it has its frame and each column takes its field; it then stands for
  the rows after the values of the fields. -/
  some_iff : ∀ f, outcome = .ok (some f) ↔ info.HasFrame site fields ∧
    ∃ values, Cursor.ReadsAll info.orderBy fields values ∧ Seek.IsAfter (info.orderBy.zip values) f
  /-- Any other cursor is refused for its frame, or else for the first field that does not fit. -/
  error_iff : ∀ e, outcome = .error e ↔ s ≠ [] ∧
    ((∃ fault, info.FrameFault site fields fault ∧ e = .cursor fault) ∨
      info.HasFrame site fields ∧ Cursor.FirstMisfit info.orderBy fields e)
  /-- The class of the error tells which of the two it is. -/
  kind_eq : ∀ e, outcome = .error e →
    (¬info.HasFrame site fields → e.kind = .cursorInvalid) ∧
      (info.HasFrame site fields → e.kind = .typeMismatch)

/-- **Cursors are read by their grammar**, which says which of them are used, what for, and why the
others are not. -/
theorem seek_follows_grammar (info : CursorInfo) (raw : String) :
    ∃ site fields,
      FollowsGrammar info (info.normalize raw.toList) site fields (info.seek raw) := by
  obtain ⟨site, fields, hcut⟩ := Text.exists_isCut Cursor.separator (info.normalize raw.toList)
  exact ⟨site, fields, hcut, seek_eq_none_iff hcut, fun _ => seek_eq_ok_some_iff hcut,
    fun _ => seek_eq_error_iff hcut, fun _ => kind_of_seek hcut⟩

end CursorInfo

end Keyset
