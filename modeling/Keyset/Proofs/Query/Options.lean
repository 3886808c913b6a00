import Keyset.Query.Options
import Keyset.Proofs.FirstPlaces

/-!
# The options of a query

An option that is not given has no value, and one that is given is read (`option?_eq_ok_iff`).  An
introspection is valid when its options are understood (`validate_introspection_iff`); it then samples
as many documents as it asks for, if it does, of the collections that it asks for, each once and in the
order of their first places (`pairwise_idxOf_distinct`).
-/

namespace Keyset.Query

open FirstPlaces (eraseDups_concat pairwise_idxOf_eraseDups)

theorem option?_eq_ok_iff {α : Type} {q : Query} {option : OptionName}
    {read : Json → Except Error α} {r : Option α} :
    q.option? option read = .ok r ↔
      (q.options.get? option.name = none ∧ r = none) ∨
      ∃ v a, q.options.get? option.name = some v ∧ read v = .ok a ∧ r = some a := by
  unfold Query.option?
  cases q.options.get? option.name with
  | none =>
    show Except.ok none = .ok r ↔ _
    simp [eq_comm]
  | some v =>
    show (read v >>= fun a => .ok (some a)) = .ok r ↔ _
    rw [bind_eq_ok_iff]
    simp [eq_comm]

/-- What is read of an option says whether it is given. -/
theorem has_of_option? {α : Type} {q : Query} {option : OptionName}
    {read : Json → Except Error α} {r : Option α} (h : q.option? option read = .ok r) :
    q.options.has option.name = r.isSome := by
  unfold Fields.has
  rcases option?_eq_ok_iff.mp h with ⟨hnone, rfl⟩ | ⟨v, a, hv, -, rfl⟩
  · rw [hnone]
    rfl
  · rw [hv]
    rfl

theorem orBad_eq_ok_iff {α : Type} {option : OptionName} {v : Option α} {a : α} :
    orBad option v = .ok a ↔ v = some a := by
  cases v <;> simp [orBad]

/-! ### Names, each once -/

theorem distinct_eq_eraseDups (names : List String) : distinct names = names.eraseDups := by
  induction names using List.reverseRecOn with
  | nil => rfl
  | append_singleton names last ih =>
    have hfold : distinct (names ++ [last]) =
        if (distinct names).contains last then distinct names else distinct names ++ [last] := by
      unfold distinct
      rw [List.foldl_append]
      rfl
    rw [hfold, ih, eraseDups_concat]
    simp only [List.contains_iff_mem, List.mem_eraseDups]

theorem mem_distinct {names : List String} {name : String} : name ∈ distinct names ↔ name ∈ names := by
  rw [distinct_eq_eraseDups, List.mem_eraseDups]

/-- The names stand in the order of their first places in the list. -/
theorem pairwise_idxOf_distinct (names : List String) :
    (distinct names).Pairwise fun a b => names.idxOf a < names.idxOf b := by
  rw [distinct_eq_eraseDups]
  exact pairwise_idxOf_eraseDups names

/-! ### Introspections -/

/-- The number of documents that a query asks to be sampled. -/
def requestedSize? (q : Query) : Option UInt64 :=
  (q.options.get? OptionName.sampleSize.name).bind Json.uint64?

/-- The names of the collections that a query asks for, as they are listed. -/
def requestedCollections? (q : Query) : Option (List String) :=
  (q.options.get? OptionName.collections.name).bind (Json.listOf? Json.string?)

variable {q : Query}

theorem validate_introspection_iff (hop : q.operation = .introspectColumns) :
    q.validate = .ok () ↔ ∃ options, q.introspectOptions = .ok options := by
  unfold validate checkOptions
  rw [hop]
  simp [Operation.needsCollection, map_eq_ok_iff]

/-- The size of samples is the one that was asked for, and the usual one if none was. -/
theorem requestedSize?_of_option? {size : Option UInt64}
    (h : (q.option? .sampleSize fun v => orBad .sampleSize (v.uint64?.filter (0 < ·))) = .ok size) :
    q.requestedSize? = size := by
  unfold requestedSize?
  rcases option?_eq_ok_iff.mp h with ⟨hnone, rfl⟩ | ⟨v, n, hv, hn, rfl⟩
  · rw [hnone]
    rfl
  · obtain ⟨hn, -⟩ := Option.filter_eq_some_iff.mp (orBad_eq_ok_iff.mp hn)
    rw [hv]
    exact hn

/-- The collections are those that were asked for, each once. -/
theorem requestedCollections?_of_option? {collections : Option (Option (List String))}
    (h : q.option? .collections collectionsOption = .ok collections) :
    collections.join = q.requestedCollections?.map distinct := by
  unfold requestedCollections?
  rcases option?_eq_ok_iff.mp h with ⟨hnone, rfl⟩ | ⟨v, names, hv, hnames, rfl⟩
  · rw [hnone]
    rfl
  · rw [hv]
    unfold collectionsOption at hnames
    split at hnames
    · -- `null` is no list
      obtain rfl := Except.ok.inj hnames
      rfl
    · have hlist := orBad_eq_ok_iff.mp hnames
      obtain ⟨listed, hlisted, rfl⟩ := Option.map_eq_some_iff.mp hlist
      rw [Option.bind_some, hlisted]
      rfl

/-- What was read of the options of an introspection is what they say. -/
theorem requested_of_introspectOptions {options : IntrospectOptions}
    (h : q.introspectOptions = .ok options) :
    q.options.has OptionName.sampleSize.name = q.requestedSize?.isSome ∧
      options.sampleSize = q.requestedSize?.getD IntrospectOptions.defaultSampleSize ∧
      options.collections = q.requestedCollections?.map distinct := by
  obtain ⟨size, hsize, h⟩ := bind_eq_ok_iff.mp h
  obtain ⟨collections, hcollections, h⟩ := bind_eq_ok_iff.mp h
  obtain rfl := Except.ok.inj h
  rw [requestedSize?_of_option? hsize]
  exact ⟨has_of_option? hsize, rfl, requestedCollections?_of_option? hcollections⟩

end Keyset.Query
