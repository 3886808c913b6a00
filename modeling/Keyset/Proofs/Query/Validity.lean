import Keyset.Proofs.Fields
import Keyset.Proofs.Json.Record
import Keyset.Proofs.Query.Options
import Keyset.Proofs.Query.Placeholder

/-!
# Valid queries

An option can have certain values (`OptionName.Takes`), and what is wrong with any other is said by
`OptionName.Refuses`.  The checks that are made while options are read are one check of each option that
the operation uses, in a fixed order (`Query.checkOptions_eq`), so that a query is valid if it names a
collection and suits each of them (`Query.validate_eq_ok_iff`), and its error is else that of the first
that is refused (`Query.validate_eq_error_iff`).  Before placeholders are bound, options that are one
are passed over (`Query.validateUnbound_eq_ok_iff`, `Query.validateUnbound_eq_error_iff`).
-/

namespace Keyset

/-! ### The values of options -/

/-- The options that an operation uses, in the order in which they are checked. -/
def Operation.options : Operation → List OptionName
  | .find | .aggregate => [.limit, .skip, .sort, .projection]
  | .introspectColumns => [.sampleSize, .collections]

namespace OptionName

/-- The values that an option can have. -/
def Takes (option : OptionName) (v : Json) : Prop :=
  match option with
  | .limit => ∃ n : Int64, v = .ofInt64 n
  | .skip => ∃ n : UInt64, v = .ofUInt64 n
  | .sort | .projection => ∃ fields doc, v = .object fields ∧ Document.ofJson fields = .ok doc
  | .sampleSize => ∃ n : UInt64, 0 < n ∧ v = .ofUInt64 n
  | .collections => v = .null ∨ ∃ names : List String, v = .strings names

/-- Whether the values of an option are documents. -/
def IsDocument (option : OptionName) : Prop :=
  option = .sort ∨ option = .projection

theorem takes_iff_of_isDocument {option : OptionName} (hoption : option.IsDocument) {v : Json} :
    option.Takes v ↔ ∃ fields doc, v = .object fields ∧ Document.ofJson fields = .ok doc := by
  rcases hoption with rfl | rfl <;> exact Iff.rfl

/-- What is wrong with a value that an option cannot have: it is of another kind, or an object that is
no document. -/
inductive Refuses (option : OptionName) : Json → Malformed → Prop where
  | kind {v : Json} (h : ¬option.Takes v)
    (hobject : option.IsDocument → ∀ fields, v ≠ .object fields) :
    Refuses option v (.badOption option)
  | document {fields : Json.Object} {what : Malformed} (hoption : option.IsDocument)
    (h : Document.ofJson fields = .error (.malformed what)) : Refuses option (.object fields) what

/-- Checks the value of an option. -/
def check (option : OptionName) (v : Json) : Except Error Unit :=
  match option with
  | .limit => (Query.orBad .limit v.int64?).map fun _ => ()
  | .skip => (Query.orBad .skip v.uint64?).map fun _ => ()
  | .sort => (Query.documentOption .sort v).map fun _ => ()
  | .projection => (Query.documentOption .projection v).map fun _ => ()
  | .sampleSize => (Query.orBad .sampleSize (v.uint64?.filter (0 < ·))).map fun _ => ()
  | .collections => (Query.collectionsOption v).map fun _ => ()

end OptionName

/-! ### Reading lists and documents -/

theorem Json.strings?_eq_some_iff {v : Json} {names : List String} :
    listOf? string? v = some names ↔ v = .strings names :=
  listOf?_eq_some_iff fun _ _ => string?_eq_some_iff

/-- An object that is no document is malformed. -/
theorem Document.exists_of_ofJson_error {fields : Json.Object} {e : Error}
    (h : Document.ofJson fields = .error e) : ∃ what, e = .malformed what := by
  unfold ofJson at h
  split at h
  · cases h
  · cases h
    exact ⟨_, rfl⟩
  · cases h
    exact ⟨_, rfl⟩

namespace Query

theorem documentOption_eq_ok_iff {option : OptionName} {v : Json} {doc : Document} :
    documentOption option v = .ok doc ↔
      ∃ fields, v = .object fields ∧ Document.ofJson fields = .ok doc := by
  cases v <;> simp [documentOption]

theorem documentOption_of_not_object {option : OptionName} {v : Json}
    (h : ∀ fields, v ≠ .object fields) :
    documentOption option v = .error (.malformed (.badOption option)) := by
  cases v with
  | object fields => exact absurd rfl (h fields)
  | _ => rfl

theorem orBad_eq_error_iff {α : Type} {option : OptionName} {v : Option α} {e : Error} :
    orBad option v = .error e ↔ v = none ∧ e = .malformed (.badOption option) := by
  cases v <;> simp [orBad, eq_comm]

theorem collectionsOption_eq_ok_iff {v : Json} {collections : Option (List String)} :
    collectionsOption v = .ok collections ↔
      (v = .null ∧ collections = none) ∨
      ∃ names, v = .strings names ∧ collections = some (distinct names) := by
  unfold collectionsOption
  split
  · simp [Json.strings, eq_comm]
  · rename_i hnull
    rw [orBad_eq_ok_iff, Option.map_eq_some_iff]
    simp only [Json.strings?_eq_some_iff]
    constructor
    · rintro ⟨names, hv, rfl⟩
      exact .inr ⟨names, hv, rfl⟩
    · rintro (⟨hv, -⟩ | ⟨names, hv, rfl⟩)
      · exact absurd hv hnull
      · exact ⟨names, hv, rfl⟩

end Query

namespace OptionName

variable {option : OptionName} {v : Json} {e : Error}

/-- The values that pass are those that the option can have. -/
theorem check_eq_ok_iff : option.check v = .ok () ↔ option.Takes v := by
  cases option with
  | limit =>
    unfold check Takes
    simp only [map_eq_ok_iff, and_true, Query.orBad_eq_ok_iff, Json.int64?_eq_some_iff]
  | skip =>
    unfold check Takes
    simp only [map_eq_ok_iff, and_true, Query.orBad_eq_ok_iff, Json.uint64?_eq_some_iff]
  | sort | projection =>
    unfold check Takes
    simp only [map_eq_ok_iff, and_true, Query.documentOption_eq_ok_iff]
    exact exists_comm
  | sampleSize =>
    unfold check Takes
    simp only [map_eq_ok_iff, and_true, Query.orBad_eq_ok_iff, Option.filter_eq_some_iff,
      Json.uint64?_eq_some_iff, decide_eq_true_iff]
    exact exists_congr fun n => and_comm
  | collections =>
    unfold check Takes
    simp only [map_eq_ok_iff, and_true, Query.collectionsOption_eq_ok_iff]
    constructor
    · rintro ⟨collections, ⟨hv, -⟩ | ⟨names, hv, -⟩⟩
      · exact .inl hv
      · exact .inr ⟨names, hv⟩
    · rintro (hv | ⟨names, hv⟩)
      · exact ⟨none, .inl ⟨hv, rfl⟩⟩
      · exact ⟨_, .inr ⟨names, hv, rfl⟩⟩

theorem check_object (hoption : option.IsDocument) (fields : Json.Object) :
    option.check (.object fields) = (Document.ofJson fields).map fun _ => () := by
  rcases hoption with rfl | rfl <;> rfl

/-- A value of another kind is refused by the name of the option. -/
theorem eq_badOption_of_check
    (hobject : option.IsDocument → ∀ fields, v ≠ .object fields)
    (h : option.check v = .error e) : e = .malformed (.badOption option) := by
  unfold check at h
  cases option with
  | limit | skip | sampleSize => exact (Query.orBad_eq_error_iff.mp (map_eq_error_iff.mp h)).2
  | sort | projection =>
    have hdocument := map_eq_error_iff.mp h
    rw [Query.documentOption_of_not_object (hobject (by simp [IsDocument]))] at hdocument
    exact (Except.error.inj hdocument).symm
  | collections =>
    have hlist := map_eq_error_iff.mp h
    unfold Query.collectionsOption at hlist
    split at hlist
    · cases hlist
    · exact (Query.orBad_eq_error_iff.mp hlist).2

/-- The values that do not pass are those that the option refuses, and the error says why. -/
theorem check_eq_error_iff :
    option.check v = .error e ↔ ∃ what, option.Refuses v what ∧ e = .malformed what := by
  constructor
  · intro h
    by_cases hobject : option.IsDocument ∧ ∃ fields, v = .object fields
    · obtain ⟨hoption, fields, rfl⟩ := hobject
      rw [check_object hoption, map_eq_error_iff] at h
      obtain ⟨what, rfl⟩ := Document.exists_of_ofJson_error h
      exact ⟨what, .document hoption h, rfl⟩
    · -- a value of another kind than the option needs
      have hkind : option.IsDocument → ∀ fields, v ≠ .object fields :=
        fun hoption fields hv => hobject ⟨hoption, fields, hv⟩
      have hrefused : ¬option.Takes v := by
        rw [← check_eq_ok_iff, h]
        exact nofun
      exact ⟨_, .kind hrefused hkind, eq_badOption_of_check hkind h⟩
  · rintro ⟨what, hrefuses, rfl⟩
    cases hrefuses with
    | kind hrefused hkind =>
      cases h : option.check v with
      | ok _ => exact absurd (check_eq_ok_iff.mp h) hrefused
      | error e => rw [eq_badOption_of_check hkind h]
    | document hoption h =>
      rw [check_object hoption, h]
      rfl

end OptionName

/-! ### Placeholders among the options -/

/-- Whether a value is a placeholder. -/
def Placeholder.IsOpen (v : Json) : Prop :=
  ∃ n, 0 < n ∧ v = .string (text n)

theorem Placeholder.isPlaceholder_iff {v : Json} : Query.isPlaceholder v = true ↔ IsOpen v := by
  have hleaf : Query.isPlaceholder v = (leafIndex? v).isSome := rfl
  rw [hleaf, Option.isSome_iff_exists]
  constructor
  · rintro ⟨i, hi⟩
    obtain ⟨n, hn, hv, -⟩ := exists_of_leafIndex? hi
    exact ⟨n, hn, hv⟩
  · rintro ⟨n, hn, rfl⟩
    exact ⟨_, leafIndex?_placeholder hn⟩

/-! ### Valid queries -/

namespace Query

variable {q : Query} {e : Error}

/-- Whether a query names a collection, where it needs one. -/
def NamesCollection (q : Query) : Prop :=
  q.operation.needsCollection = true → ∃ name, q.collection = some name ∧ name ≠ ""

/-- Whether an option has a value that it can have, if it is given. -/
def Suits (q : Query) (option : OptionName) : Prop :=
  ∀ v, q.options.get? option.name = some v → option.Takes v

/-- Whether an option has a value that it can have or is still open, if it is given. -/
def Admits (q : Query) (option : OptionName) : Prop :=
  ∀ v, q.options.get? option.name = some v → Placeholder.IsOpen v ∨ option.Takes v

/-- Checks an option, if it is given. -/
def checkOption (q : Query) (option : OptionName) : Except Error Unit :=
  match q.options.get? option.name with
  | some v => option.check v
  | none => .ok ()

theorem checkOption_eq_ok_iff {option : OptionName} :
    q.checkOption option = .ok () ↔ q.Suits option := by
  unfold checkOption Suits
  cases q.options.get? option.name with
  | none => simp
  | some v => simp [OptionName.check_eq_ok_iff]

theorem checkOption_eq_error_iff {option : OptionName} :
    q.checkOption option = .error e ↔ ∃ v what, q.options.get? option.name = some v ∧
      option.Refuses v what ∧ e = .malformed what := by
  unfold checkOption
  cases q.options.get? option.name with
  | none => simp
  | some v => simp [OptionName.check_eq_error_iff]

/-- Checking an option is reading it. -/
theorem checkOption_eq {α : Type} {option : OptionName} {read : Json → Except Error α}
    (h : ∀ v, option.check v = (read v).map fun _ => ()) (q : Query) :
    q.checkOption option = (q.option? option read).map fun _ => () := by
  unfold checkOption option?
  cases q.options.get? option.name with
  | none => rfl
  | some v =>
    show option.check v = (read v >>= fun a => .ok (some a)).map fun _ => ()
    rw [h]
    cases read v <;> rfl

theorem discard_bind {ε α β : Type} {r : Except ε α} {next : α → Except ε β} {rest : Except ε Unit}
    (h : ∀ a, ((next a).map fun _ => ()) = rest) :
    ((r >>= next).map fun _ => ()) = (r.map fun _ => ()) >>= fun _ => rest := by
  cases r with
  | error e => rfl
  | ok a => exact h a

/-- The options that an operation uses are checked one after the other. -/
theorem checkOptions_eq (q : Query) : q.checkOptions = q.operation.options.forM q.checkOption := by
  -- reading one option after the other is checking them so, whatever is read
  have hfind : (q.findOptions.map fun _ => ()) =
      [OptionName.limit, .skip, .sort, .projection].forM q.checkOption := by
    simp only [List.forM_eq_forM, List.forM_cons, List.forM_nil]
    rw [checkOption_eq fun _ => rfl, checkOption_eq fun _ => rfl, checkOption_eq fun _ => rfl,
      checkOption_eq fun _ => rfl]
    refine discard_bind fun limit => discard_bind fun skip => discard_bind fun sort => ?_
    exact discard_bind fun projection => rfl
  have hintrospect : (q.introspectOptions.map fun _ => ()) =
      [OptionName.sampleSize, .collections].forM q.checkOption := by
    simp only [List.forM_eq_forM, List.forM_cons, List.forM_nil]
    rw [checkOption_eq fun _ => rfl, checkOption_eq fun _ => rfl]
    refine discard_bind fun sampleSize => ?_
    exact discard_bind fun collections => rfl
  unfold checkOptions
  cases q.operation with
  | find | aggregate => exact hfind
  | introspectColumns => exact hintrospect

theorem namesCollection_iff :
    q.NamesCollection ↔ ¬(q.operation.needsCollection = true ∧ q.collectionName = "") := by
  unfold NamesCollection collectionName
  cases q.collection <;> simp

/-- **A query is valid** if it names a collection where it needs one, and the options that its operation
uses have values that they can have. -/
theorem validate_eq_ok_iff :
    q.validate = .ok () ↔ q.NamesCollection ∧ ∀ option ∈ q.operation.options, q.Suits option := by
  unfold validate
  rw [namesCollection_iff, checkOptions_eq]
  split
  case isTrue hmissing => simp [hmissing]
  case isFalse hnames =>
    rw [forM_eq_ok_iff, and_iff_right hnames]
    simp only [checkOption_eq_ok_iff]

/-- The error of a query that is not valid says that it names no collection, or else what is wrong with
the first of its options that is refused. -/
theorem validate_eq_error_iff :
    q.validate = .error e ↔ (¬q.NamesCollection ∧ e = .missingCollection) ∨
      (q.NamesCollection ∧ ∃ before option after v what,
        q.operation.options = before ++ option :: after ∧ (∀ o ∈ before, q.Suits o) ∧
        q.options.get? option.name = some v ∧ option.Refuses v what ∧ e = .malformed what) := by
  unfold validate
  rw [namesCollection_iff, checkOptions_eq]
  split
  case isTrue hmissing => simp [hmissing, eq_comm]
  case isFalse hnames =>
    rw [forM_eq_error_iff]
    simp only [checkOption_eq_ok_iff, checkOption_eq_error_iff, hnames, not_true, not_false_eq_true,
      false_and, false_or, true_and, exists_and_left]

/-! ### Valid queries with placeholders -/

/-- A query whose options have distinct names, as those of all queries have that are read. -/
structure Distinct extends Query where
  nodup : options.names.Nodup

variable (q : Query.Distinct)

theorem get?_withoutOpenOptions {name : String} {v : Json} :
    q.withoutOpenOptions.options.get? name = some v ↔
      q.options.get? name = some v ∧ ¬Placeholder.IsOpen v := by
  have hclosed : (!isPlaceholder v) = true ↔ ¬Placeholder.IsOpen v := by
    rw [← Placeholder.isPlaceholder_iff, Bool.not_eq_true', Bool.not_eq_true]
  unfold withoutOpenOptions
  simp only
  rw [Fields.get?_eq_some_iff (Fields.nodup_names_filter q.nodup _), List.mem_filter, hclosed,
    Fields.get?_eq_some_iff q.nodup]

theorem suits_withoutOpenOptions {option : OptionName} :
    q.withoutOpenOptions.Suits option ↔ q.Admits option := by
  unfold Suits Admits
  simp only [get?_withoutOpenOptions, and_imp, or_iff_not_imp_left]

/-- **A query is valid before its placeholders are bound** if it names a collection where it needs one,
and the options that its operation uses are placeholders or have values that they can have. -/
theorem validateUnbound_eq_ok_iff :
    q.validateUnbound = .ok () ↔
      q.NamesCollection ∧ ∀ option ∈ q.operation.options, q.Admits option := by
  unfold validateUnbound
  rw [validate_eq_ok_iff]
  simp only [suits_withoutOpenOptions]
  exact Iff.rfl

/-- Else its error is that of the first of its options that is refused, unless it names no collection;
options that are placeholders are passed over. -/
theorem validateUnbound_eq_error_iff :
    q.validateUnbound = .error e ↔ (¬q.NamesCollection ∧ e = .missingCollection) ∨
      (q.NamesCollection ∧ ∃ before option after v what,
        q.operation.options = before ++ option :: after ∧ (∀ o ∈ before, q.Admits o) ∧
        q.options.get? option.name = some v ∧ ¬Placeholder.IsOpen v ∧ option.Refuses v what ∧
        e = .malformed what) := by
  unfold validateUnbound
  rw [validate_eq_error_iff]
  simp only [suits_withoutOpenOptions, get?_withoutOpenOptions, and_assoc]
  exact Iff.rfl

end Query

end Keyset
