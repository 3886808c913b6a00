import Keyset.Config
import Keyset.Proofs.Environment
import Keyset.Proofs.Text.Spelling
import Keyset.Proofs.Toml.Document
import Mathlib.Logic.ExistsUnique

/-!
# The layers of a configuration

A setting is said by the file, or is as usual where the file leaves it out (`Config.IsSetBy`), unless a
variable has a value that is usable for it (`Config.IsLayered`).  A variable has the value of the process
environment, an empty one too, or that of the file of variables (`Config.Files.valueOf?`).  Loading
gives the settings after all layers, and fails only if no layer sets a positive sample size
(`Config.load_layers`).
-/

namespace Keyset.Config

/-! ### What the file says -/

theorem string?_eq_some_iff {v : Toml} {s : String} : string? v = some s ↔ v = .string s := by
  cases v <;> simp [string?]

theorem count?_eq_some_iff {v : Toml} {n : UInt64} :
    count? v = some n ↔ ∃ m : Int64, v = .integer m ∧ m.toInt = n.toNat := by
  cases v with
  | integer m =>
    have hbound := m.toInt_lt
    simp only [count?, Toml.integer.injEq, exists_eq_left']
    split_ifs with hm
    · rw [Option.some.injEq, ← UInt64.toNat_inj,
        UInt64.toNat_ofNat_of_lt' (by unfold UInt64.size; omega)]
      omega
    · exact iff_of_false nofun fun h => hm (h ▸ Int.natCast_nonneg _)
  | _ => simp [count?]

section

variable {α : Type} {read : Toml → Option α} {R : Toml → α → Prop} (h : ∀ v a, read v = some a ↔ R v a)
  {fields : Toml.Table} {name : String}
include h

/-- A setting that is said is read, and any other has no value. -/
theorem setting?_eq_some_iff {setting : Option α} :
    setting? fields name read = some setting ↔ Option.Rel R (fields.get? name) setting := by
  unfold setting?
  cases fields.get? name with
  | none =>
    show some none = some setting ↔ _
    cases setting with
    | none => exact iff_of_true rfl .none
    | some a => exact iff_of_false nofun nofun
  | some v =>
    show (read v).map some = some setting ↔ _
    rw [Option.map_eq_some_iff]
    constructor
    · rintro ⟨a, ha, rfl⟩
      exact .some ((h v a).mp ha)
    · intro hrel
      cases hrel with
      | some ha => exact ⟨_, (h v _).mpr ha, rfl⟩

/-- A setting that is not said is as usual. -/
theorem getD_setting?_iff {usual a : α} :
    (∃ setting, setting? fields name read = some setting ∧ setting.getD usual = a) ↔
      (fields.get? name).elim (a = usual) fun v => R v a := by
  simp only [setting?_eq_some_iff h]
  cases fields.get? name with
  | none =>
    constructor
    · rintro ⟨_, ⟨⟩, rfl⟩
      rfl
    · rintro rfl
      exact ⟨none, .none, rfl⟩
  | some v =>
    constructor
    · rintro ⟨_, ha, rfl⟩
      cases ha
      assumption
    · exact fun ha => ⟨some a, .some ha, rfl⟩

end

/-- The settings that a TOML document says, with the usual ones where it may say nothing. -/
structure IsSetBy (c : Config) (fields : Toml.Table) : Prop where
  uri : (fields.get? "uri").elim (c.uri = defaultUri) fun v => v = .string c.uri
  database : fields.get? "database" = some (.string c.database)
  sampleSize : (fields.get? "sample_size").elim
    (c.sampleSize = IntrospectOptions.defaultSampleSize) fun v =>
      ∃ n : Int64, v = .integer n ∧ n.toInt = c.sampleSize.toNat
  logFilter : Option.Rel (fun v s => v = .string s) (fields.get? "log_filter") c.logFilter
  seed : Option.Rel (fun v s => v = .string s) (fields.get? "seed") c.seed

theorem ofToml?_eq_some_iff {fields : Toml.Table} {c : Config} :
    ofToml? fields = some c ↔ c.IsSetBy fields := by
  have hstring : ∀ (v : Toml) s, string? v = some s ↔ v = .string s := fun _ _ => string?_eq_some_iff
  have hcount : ∀ (v : Toml) n, count? v = some n ↔ _ := fun _ _ => count?_eq_some_iff
  have hdatabase : ∀ s, (fields.get? "database").bind string? = some s ↔
      fields.get? "database" = some (.string s) := by
    simp only [Option.bind_eq_some_iff, hstring, exists_eq_right, implies_true]
  constructor
  · intro h
    obtain ⟨uri, huri, h⟩ := Option.bind_eq_some_iff.mp h
    obtain ⟨database, hreadDatabase, h⟩ := Option.bind_eq_some_iff.mp h
    obtain ⟨sampleSize, hsampleSize, h⟩ := Option.bind_eq_some_iff.mp h
    obtain ⟨logFilter, hlogFilter, h⟩ := Option.bind_eq_some_iff.mp h
    obtain ⟨seed, hseed, h⟩ := Option.bind_eq_some_iff.mp h
    cases h
    exact
      { uri := (getD_setting?_iff hstring).mp ⟨uri, huri, rfl⟩
        database := (hdatabase _).mp hreadDatabase
        sampleSize := (getD_setting?_iff hcount).mp ⟨sampleSize, hsampleSize, rfl⟩
        logFilter := (setting?_eq_some_iff hstring).mp hlogFilter
        seed := (setting?_eq_some_iff hstring).mp hseed }
  · intro h
    obtain ⟨uri, huri, hreadUri⟩ := (getD_setting?_iff hstring).mpr h.uri
    obtain ⟨sampleSize, hsampleSize, hreadSize⟩ := (getD_setting?_iff hcount).mpr h.sampleSize
    unfold ofToml?
    rw [huri, (hdatabase _).mpr h.database, hsampleSize, (setting?_eq_some_iff hstring).mpr h.logFilter,
      (setting?_eq_some_iff hstring).mpr h.seed]
    cases c
    subst hreadUri hreadSize
    rfl

/-! ### What variables override -/

/-- A variable overrides a setting by what its value stands for.  If it has no value, or one that stands
for nothing, the setting stays as it is. -/
def Overrides {α : Type} (R : String → α → Prop) (value : Option String) (setting result : α) : Prop :=
  (∃ s, value = some s ∧ R s result) ∨ ((¬∃ s a, value = some s ∧ R s a) ∧ result = setting)

theorem getD_bind_eq_iff {α : Type} {read : String → Option α} {R : String → α → Prop}
    (h : ∀ s a, read s = some a ↔ R s a) {value : Option String} {setting result : α} :
    (value.bind read).getD setting = result ↔ Overrides R value setting result := by
  simp only [Overrides, ← h, ← Option.bind_eq_some_iff]
  have hread : (∃ s a, value = some s ∧ read s = some a) ↔ ∃ a, value.bind read = some a := by
    rw [exists_comm]
    simp only [Option.bind_eq_some_iff]
  rw [hread]
  cases value.bind read with
  | none => simp [eq_comm]
  | some a => simp

/-- A text stands for itself unless it is empty. -/
def StandsForText (s t : String) : Prop :=
  s ≠ "" ∧ t = s

/-- A text stands for a positive integer if it spells one. -/
def StandsForSize (s : String) (n : UInt64) : Prop :=
  Text.SpellsNatural s.toList n.toNat ∧ 0 < n

theorem nonempty?_eq_some_iff {s t : String} : nonempty? s = some t ↔ StandsForText s t := by
  unfold nonempty? StandsForText
  split_ifs with hs <;> simp [hs, eq_comm]

theorem positive?_eq_some_iff {s : String} {n : UInt64} :
    positive? s = some n ↔ StandsForSize s n := by
  unfold positive? StandsForSize
  rw [Option.filter_eq_some_iff, Text.word64?_eq_some_iff, decide_eq_true_iff]

/-- The settings of a file after variables have overridden some of them. -/
structure IsLayered (file : Config) (valueOf? : String → Option String) (c : Config) : Prop where
  uri : Overrides StandsForText (valueOf? "GJ_MONGO_URI") file.uri c.uri
  database : Overrides StandsForText (valueOf? "GJ_MONGO_DATABASE") file.database c.database
  sampleSize :
    Overrides StandsForSize (valueOf? "GJ_MONGO_SAMPLE_SIZE") file.sampleSize c.sampleSize
  logFilter : c.logFilter = file.logFilter
  seed : c.seed = file.seed

theorem override_eq_iff {vars : Variables} {file c : Config} :
    file.override vars = c ↔ IsLayered file vars.get? c := by
  have htext : ∀ s t, nonempty? s = some t ↔ StandsForText s t := fun _ _ => nonempty?_eq_some_iff
  have hsize : ∀ s n, positive? s = some n ↔ StandsForSize s n := fun _ _ => positive?_eq_some_iff
  constructor
  · rintro rfl
    exact
      { uri := (getD_bind_eq_iff htext).mp rfl
        database := (getD_bind_eq_iff htext).mp rfl
        sampleSize := (getD_bind_eq_iff hsize).mp rfl
        logFilter := rfl
        seed := rfl }
  · intro h
    obtain ⟨uri, database, sampleSize, logFilter, seed⟩ := c
    simp only [override, mk.injEq]
    exact ⟨(getD_bind_eq_iff htext).mpr h.uri, (getD_bind_eq_iff htext).mpr h.database,
      (getD_bind_eq_iff hsize).mpr h.sampleSize, h.logFilter.symm, h.seed.symm⟩

/-- The sample size is zero if the file says so and no variable replaces it. -/
theorem IsLayered.sampleSize_eq_zero_iff {file c : Config} {valueOf? : String → Option String}
    (h : IsLayered file valueOf? c) : c.sampleSize = 0 ↔ file.sampleSize = 0 ∧
      ¬∃ s n, valueOf? "GJ_MONGO_SAMPLE_SIZE" = some s ∧ StandsForSize s n := by
  rcases h.sampleSize with ⟨s, hs, hsize⟩ | ⟨hnone, heq⟩
  · have hpos : c.sampleSize ≠ 0 := UInt64.pos_iff_ne_zero.mp hsize.2
    exact iff_of_false hpos fun h => h.2 ⟨s, _, hs, hsize⟩
  · rw [heq]
    exact (and_iff_left hnone).symm

/-! ### Loading -/

/-- The value of a variable: the one of the process environment if it is set there, and else the first
one that the file of variables assigns. -/
def Files.valueOf? (files : Files) (vars : Variables) (name : String) : Option String :=
  (vars.get? name).or
    (files.assignments.bind fun text => (Environment.assigned vars text).get? name)

/-- The settings that the file of a configuration says. -/
def Files.Say (files : Files) (file : Config) : Prop :=
  ∃ text fields, files.config = some text ∧ Toml.ofText? text = some fields ∧ file.IsSetBy fields

/-- Loading overrides the settings of the file, and checks the sample size after that. -/
theorem exists_load_eq {files : Files} {file : Config} (hfile : files.Say file) (dir : String)
    (vars : Variables) : ∃ layered,
    (∀ c, layered = c ↔ IsLayered file (files.valueOf? vars) c) ∧
      load dir files vars =
        if layered.sampleSize = 0 then .error .badSampleSize else .ok layered := by
  obtain ⟨text, fields, htext, hfields, hsays⟩ := hfile
  refine ⟨file.override ((files.assignments.map (Environment.load vars)).getD vars), ?_, ?_⟩
  · have hvars : ((files.assignments.map (Environment.load vars)).getD vars).get? =
        files.valueOf? vars := by
      funext name
      unfold Files.valueOf?
      cases files.assignments with
      | none => exact Option.or_none.symm
      | some text => exact Environment.get?_load vars text name
    intro c
    rw [override_eq_iff, hvars]
  · have hread : (Toml.ofText? text).bind ofToml? = some file := by
      rw [hfields, Option.bind_some, ofToml?_eq_some_iff.mpr hsays]
    simp only [load, htext, hread]

/-- **The layers of a configuration are exact**: where the file says settings, there is one configuration
in which each setting is that of the file unless a variable overrides it; loading gives it if its sample
size is positive, and fails otherwise, which is when the file says zero and no variable replaces that. -/
theorem load_layers {dir : String} {files : Files} {vars : Variables} {file : Config}
    (hfile : files.Say file) :
    (∃! c, IsLayered file (files.valueOf? vars) c) ∧
      (∀ c, load dir files vars = .ok c ↔
        IsLayered file (files.valueOf? vars) c ∧ 0 < c.sampleSize) ∧
      ∀ e, load dir files vars = .error e ↔ e = .badSampleSize ∧ file.sampleSize = 0 ∧
        ¬∃ s n, files.valueOf? vars "GJ_MONGO_SAMPLE_SIZE" = some s ∧ StandsForSize s n := by
  obtain ⟨layered, hlayered, hload⟩ := exists_load_eq hfile dir vars
  have hself : IsLayered file (files.valueOf? vars) layered := (hlayered layered).mp rfl
  refine ⟨⟨layered, hself, fun c hc => ((hlayered c).mpr hc).symm⟩, fun c => ?_, fun e => ?_⟩
  · rw [hload, ← hlayered]
    split_ifs with hzero
    · refine iff_of_false nofun ?_
      rintro ⟨rfl, hpos⟩
      exact UInt64.pos_iff_ne_zero.mp hpos hzero
    · rw [Except.ok.injEq]
      exact ⟨fun h => ⟨h, h ▸ UInt64.pos_iff_ne_zero.mpr hzero⟩, And.left⟩
  · rw [hload, ← hself.sampleSize_eq_zero_iff]
    split_ifs with hzero
    · simp [hzero, eq_comm]
    · exact iff_of_false nofun fun h => hzero h.2

/-- A variable that is set to the empty text hides the one of the file of variables but overrides
nothing, and a size of zero in the file is replaced. -/
theorem load_layers_hiddenVariable :
    let files : Files :=
      { config := some "database = \"shop\"\nsample_size = 0\n"
        assignments := some "GJ_MONGO_URI=store\nGJ_MONGO_DATABASE=other\nGJ_MONGO_SAMPLE_SIZE=+25\n" }
    files.Say ⟨defaultUri, "shop", 0, none, none⟩ ∧
      load "." files [("GJ_MONGO_DATABASE", "")] = .ok ⟨"store", "shop", 25, none, none⟩ := by
  intro files
  have hlists : Toml.Lists
      (Toml.stringEntry "database" "shop" ++ Toml.integerEntry "sample_size" 0)
      [("database", .string "shop"), ("sample_size", .integer 0)] :=
    (Toml.Lists.string (by decide) "shop").append (Toml.Lists.integer (by decide) 0)
  have htext : String.ofList
      (Toml.stringEntry "database" "shop" ++ Toml.integerEntry "sample_size" 0) =
        "database = \"shop\"\nsample_size = 0\n" := by decide +kernel
  have hfields := hlists.ofText? (by decide)
  rw [htext] at hfields
  have hfile : files.Say ⟨defaultUri, "shop", 0, none, none⟩ :=
    ⟨_, _, rfl, hfields, ⟨rfl, rfl, ⟨0, rfl, rfl⟩, .none, .none⟩⟩
  have huri : files.valueOf? [("GJ_MONGO_DATABASE", "")] "GJ_MONGO_URI" = some "store" := by
    decide +kernel
  have hdatabase : files.valueOf? [("GJ_MONGO_DATABASE", "")] "GJ_MONGO_DATABASE" = some "" := by
    decide +kernel
  have hsize : files.valueOf? [("GJ_MONGO_DATABASE", "")] "GJ_MONGO_SAMPLE_SIZE" = some "+25" := by
    decide +kernel
  have hread : Text.word64? "+25".toList = some 25 := by decide +kernel
  refine ⟨hfile, ((load_layers hfile).2.1 _).mpr ⟨⟨.inl ⟨_, huri, by decide, rfl⟩, .inr ⟨?_, rfl⟩,
    .inl ⟨_, hsize, Text.word64?_eq_some_iff.mp hread, by decide⟩, rfl, rfl⟩, by decide⟩⟩
  rintro ⟨s, t, hs, hne, -⟩
  rw [hdatabase, Option.some.injEq] at hs
  exact hne hs.symm

end Keyset.Config
