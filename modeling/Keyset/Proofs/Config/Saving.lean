import Keyset.Proofs.Config.Layers

/-!
# Saved configurations

The text of a configuration lists its settings, those that may be left out only where they have a value
(`Config.lists_text?`), and so a file with that text says the configuration (`Config.say_text?`).
Loading it gives the configuration again where no variable overrides a setting (`Config.load_saved`).
-/

namespace Keyset.Config

/-! ### What is saved -/

/-- The fields that a configuration is saved as, with its sample size as an integer of TOML. -/
def savedFields (c : Config) (sampleSize : Int64) : Toml.Table :=
  [("uri", .string c.uri)] ++ [("database", .string c.database)] ++
    [("sample_size", .integer sampleSize)] ++
    (c.logFilter.map fun s => ("log_filter", Toml.string s)).toList ++
    (c.seed.map fun s => ("seed", Toml.string s)).toList

theorem nodup_names_savedFields (c : Config) (sampleSize : Int64) :
    (c.savedFields sampleSize).names.Nodup := by
  obtain ⟨uri, database, n, logFilter, seed⟩ := c
  cases logFilter <;> cases seed <;> simp [savedFields, Fields.names]

theorem isSetBy_savedFields {c : Config} {sampleSize : Int64}
    (h : sampleSize.toInt = c.sampleSize.toNat) : c.IsSetBy (c.savedFields sampleSize) := by
  obtain ⟨uri, database, n, logFilter, seed⟩ := c
  have hlog : (savedFields ⟨uri, database, n, logFilter, seed⟩ sampleSize).get? "log_filter" =
      logFilter.map .string := by
    cases logFilter <;> cases seed <;> rfl
  have hseed : (savedFields ⟨uri, database, n, logFilter, seed⟩ sampleSize).get? "seed" =
      seed.map .string := by
    cases logFilter <;> cases seed <;> rfl
  exact
    { uri := rfl
      database := rfl
      sampleSize := ⟨sampleSize, rfl, h⟩
      logFilter := by
        rw [hlog]
        cases logFilter
        · exact .none
        · exact .some rfl
      seed := by
        rw [hseed]
        cases seed
        · exact .none
        · exact .some rfl }

/-- A configuration has a text if its sample size is an integer of TOML. -/
theorem exists_text?_iff {c : Config} :
    (∃ text, c.text? = some text) ↔ c.sampleSize.toNat < 0x8000000000000000 := by
  simp only [text?, Option.map_eq_some_iff]
  constructor
  · rintro ⟨text, n, hn, -⟩
    have hbound := n.toInt_lt
    rw [Word.int64?_eq_some_iff.mp hn] at hbound
    omega
  · intro h
    have hn : Word.int64? c.sampleSize.toNat = some (Int64.ofInt c.sampleSize.toNat) :=
      if_pos (by omega)
    exact ⟨_, _, hn, rfl⟩

/-- The text of a configuration lists its settings. -/
theorem lists_text? {c : Config} {text : String} (h : c.text? = some text) :
    ∃ n : Int64, n.toInt = c.sampleSize.toNat ∧ Toml.Lists text.toList (c.savedFields n) := by
  obtain ⟨n, hn, rfl⟩ := Option.map_eq_some_iff.mp h
  refine ⟨n, Word.int64?_eq_some_iff.mp hn, ?_⟩
  rw [String.toList_ofList]
  have huri : Toml.Lists (Toml.stringEntry "uri" c.uri) [("uri", .string c.uri)] :=
    .string (by decide) c.uri
  have hdatabase : Toml.Lists (Toml.stringEntry "database" c.database)
      [("database", .string c.database)] := .string (by decide) c.database
  have hsize : Toml.Lists (Toml.integerEntry "sample_size" n) [("sample_size", .integer n)] :=
    .integer (by decide) n
  have hlog : ∀ s, Toml.Lists (Toml.stringEntry "log_filter" s) [("log_filter", .string s)] :=
    Toml.Lists.string (by decide)
  have hseed : ∀ s, Toml.Lists (Toml.stringEntry "seed" s) [("seed", .string s)] :=
    Toml.Lists.string (by decide)
  exact (((huri.append hdatabase).append hsize).append (.option hlog c.logFilter)).append
    (.option hseed c.seed)

/-- A file with the text of a configuration says that configuration. -/
theorem say_text? {c : Config} {text : String} (h : c.text? = some text)
    (assignments : Option String) : Files.Say ⟨some text, assignments⟩ c := by
  obtain ⟨n, hn, hlists⟩ := lists_text? h
  have hread := hlists.ofText? (nodup_names_savedFields c n)
  rw [String.ofList_toList] at hread
  exact ⟨text, c.savedFields n, rfl, hread, isSetBy_savedFields hn⟩

/-! ### Loading what was saved -/

/-- The variables that override settings. -/
def variableNames : List String :=
  ["GJ_MONGO_URI", "GJ_MONGO_DATABASE", "GJ_MONGO_SAMPLE_SIZE"]

/-- Where no variable is set, the settings are those of the file. -/
theorem isLayered_self {valueOf? : String → Option String}
    (h : ∀ name ∈ variableNames, valueOf? name = none) (c : Config) : IsLayered c valueOf? c := by
  have hkeeps : ∀ {α : Type} (R : String → α → Prop) (setting : α),
      ∀ name ∈ variableNames, Overrides R (valueOf? name) setting setting := by
    intro α R setting name hname
    refine .inr ⟨?_, rfl⟩
    rintro ⟨s, a, hs, -⟩
    rw [h name hname] at hs
    cases hs
  exact
    { uri := hkeeps _ _ _ (by decide)
      database := hkeeps _ _ _ (by decide)
      sampleSize := hkeeps _ _ _ (by decide)
      logFilter := rfl
      seed := rfl }

/-- **A saved configuration loads back**: a configuration with a positive sample size that is an integer
of TOML has a text, and loading that text gives the configuration where no variable is set. -/
theorem load_saved {c : Config} {vars : Variables} (hpos : 1 ≤ c.sampleSize)
    (hsmall : c.sampleSize.toNat < 0x8000000000000000)
    (hvars : ∀ name ∈ variableNames, vars.get? name = none) (dir : String) :
    ∃ text, c.text? = some text ∧ load dir { config := some text, assignments := none } vars = .ok c := by
  obtain ⟨text, htext⟩ := exists_text?_iff.mpr hsmall
  refine ⟨text, htext, ?_⟩
  obtain ⟨layered, hlayered, hload⟩ := exists_load_eq (say_text? htext none) dir vars
  have hnone : ∀ name ∈ variableNames,
      Files.valueOf? { config := some text, assignments := none } vars name = none := by
    intro name hname
    rw [Files.valueOf?, hvars name hname]
    rfl
  obtain rfl : layered = c := (hlayered c).mpr (isLayered_self hnone c)
  rw [hload, if_neg]
  intro hzero
  rw [hzero] at hpos
  exact absurd hpos (by decide)

/-- Quotes, backslashes, line breaks and controls are all kept. -/
theorem load_saved_quotes :
    let c : Config := ⟨"mem'\"", "shop\\eu\r\n", 7, none, some "\"\"\"'''\x01"⟩
    let text := "uri = \"\"\"mem'\"\"\"\"\ndatabase = \"\"\"\nshop\\\\eu\\r\n\"\"\"\n" ++
      "sample_size = 7\nseed = \"\\\"\\\"\\\"'''\\u0001\"\n"
    c.text? = some text ∧
      load "." { config := some text, assignments := none } [("HOME", "/")] = .ok c := by
  intro c text
  have htext : c.text? = some text := by decide +kernel
  have hvars : ∀ name ∈ variableNames, Fields.get? [("HOME", "/")] name = none := by decide
  obtain ⟨saved, hsaved, hload⟩ := load_saved (c := c) (by decide) (by decide) hvars "."
  rw [htext] at hsaved
  obtain rfl := Option.some.inj hsaved
  exact ⟨htext, hload⟩

end Keyset.Config
