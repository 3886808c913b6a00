import Keyset.Proofs.Document.Wrappers
import Keyset.Proofs.Query.Validity
import Mathlib.Data.Set.List

/-!
# Checking a query before its placeholders are bound

A query is checked as soon as it is read, when an option that is a placeholder passes.  Placeholders
inside an option are taken for the strings that they are, which matters in a wrapper only: a query that
binding makes valid is refused early if a wrapper that holds a placeholder is no wrapper as it stands,
and for no other reason (`Query.validateUnbound_iff_of_bound`).
-/

namespace Keyset

/-! ### Values that are bound -/

namespace Placeholder

variable {args : List Json} {v : Json}

/-- Whether all wrappers in a value that hold a placeholder are read as they are. -/
def WrappersRead (v : Json) : Prop :=
  ∀ wrapper ∈ v.wrappers, (∃ n, 0 < n ∧ .string (text n) ∈ (Json.object wrapper).leaves) →
    (Value.ofJson? (.object wrapper)).isSome

theorem IsOpen.wrappers_eq_nil (h : IsOpen v) : v.wrappers = [] := by
  obtain ⟨n, -, rfl⟩ := h
  rfl

/-- A leaf is a placeholder, or is not changed by binding. -/
theorem isOpen_or_fill_eq (args : List Json) (v : Json) : IsOpen v ∨ fill args v = v := by
  cases hleaf : leafIndex? v with
  | none => exact .inr (fill_of_not_placeholder hleaf)
  | some i =>
    obtain ⟨n, hn, hv, -⟩ := exists_of_leafIndex? hleaf
    exact .inl ⟨n, hn, hv⟩

/-- What binding gives, if it is no array and no object, was there or is given for a placeholder. -/
theorem isOpen_or_eq {w : Json} (h : v.mapLeaves (fill args) = w) (harray : ∀ items, w ≠ .array items)
    (hobject : ∀ fields, w ≠ .object fields) : IsOpen v ∨ v = w := by
  have hleaf (leaf : Json) (hfill : fill args leaf = w) : IsOpen leaf ∨ leaf = w :=
    (isOpen_or_fill_eq args leaf).imp_right fun hself => hself.symm.trans hfill
  cases v with
  | array items => exact absurd h.symm (harray _)
  | object fields => exact absurd h.symm (hobject _)
  | null | bool | number | string => exact hleaf _ h

/-- Strings are bound to strings and to placeholders, which are strings themselves. -/
theorem isOpen_or_exists_strings {names : List String}
    (h : v.mapLeaves (fill args) = .strings names) : IsOpen v ∨ ∃ names', v = .strings names' := by
  cases v with
  | array items =>
    have hitems : items.map (Json.mapLeaves (fill args)) = names.map .string := by
      rw [← Json.mapItems_eq]
      exact Json.array.inj h
    -- each item is a string or was bound to one, and then it is the string of a placeholder
    have hstring : ∀ item ∈ items, item ∈ Set.range Json.string := by
      intro item hitem
      have hmem : item.mapLeaves (fill args) ∈ names.map .string := by
        rw [← hitems]
        exact List.mem_map_of_mem hitem
      obtain ⟨s, -, hs⟩ := List.mem_map.mp hmem
      rcases isOpen_or_eq hs.symm nofun nofun with ⟨n, -, hopen⟩ | heq
      · exact ⟨_, hopen.symm⟩
      · exact ⟨s, heq.symm⟩
    obtain ⟨names', hnames⟩ : items ∈ Set.range (List.map Json.string) := by
      rw [Set.range_list_map]
      exact hstring
    exact .inr ⟨names', congrArg Json.array hnames.symm⟩
  | object fields => cases h
  | null | bool | number | string =>
    refine .inl ((isOpen_or_fill_eq args _).resolve_right fun hself => ?_)
    cases hself.symm.trans h

end Placeholder

/-! ### Options that are bound -/

namespace OptionName

open Placeholder

variable {option : OptionName} {args : List Json} {v : Json}

theorem takes_of_bound (hoption : ¬option.IsDocument) (h : option.Takes (v.mapLeaves (fill args))) :
    IsOpen v ∨ option.Takes v := by
  cases option with
  | limit | skip =>
    obtain ⟨n, hn⟩ := h
    exact (isOpen_or_eq hn nofun nofun).imp_right fun hv => ⟨n, hv⟩
  | sort => exact absurd (.inl rfl) hoption
  | projection => exact absurd (.inr rfl) hoption
  | sampleSize =>
    obtain ⟨n, hpos, hn⟩ := h
    exact (isOpen_or_eq hn nofun nofun).imp_right fun hv => ⟨n, hpos, hv⟩
  | collections =>
    rcases h with hnull | ⟨names, hnames⟩
    · exact (isOpen_or_eq hnull nofun nofun).imp_right .inl
    · exact (isOpen_or_exists_strings hnames).imp_right .inr

theorem wrappers_eq_nil_of_takes (hoption : ¬option.IsDocument) (h : option.Takes v) :
    v.wrappers = [] := by
  cases option with
  | limit | skip =>
    obtain ⟨n, rfl⟩ := h
    rfl
  | sort => exact absurd (.inl rfl) hoption
  | projection => exact absurd (.inr rfl) hoption
  | sampleSize =>
    obtain ⟨n, -, rfl⟩ := h
    rfl
  | collections =>
    rcases h with rfl | ⟨names, rfl⟩
    · rfl
    · rw [Json.strings, Json.wrappers_array, List.flatMap_map]
      exact List.flatMap_eq_nil_iff.mpr fun _ _ => rfl

/-- A document was bound to an object whose wrappers, if any, are below it, and are read once they are
bound. -/
theorem exists_of_bound (hoption : option.IsDocument) (h : option.Takes (v.mapLeaves (fill args)))
    (hopen : ¬IsOpen v) : ∃ fields, v = .object fields ∧ Wrapper.nameOf? fields = none ∧
      ∀ wrapper ∈ v.wrappers,
        (Value.ofJson? (.object (Json.mapFields (fill args) wrapper))).isSome := by
  obtain ⟨fields', doc, hfields, hdoc⟩ := (takes_iff_of_isDocument hoption).mp h
  obtain ⟨hname, hread⟩ := Document.ofJson_eq_ok_iff.mp hdoc
  cases v with
  | object fields =>
    obtain rfl : Json.mapFields (fill args) fields = fields' := Json.object.inj hfields
    have hsome : (Value.ofJson? (.object (Json.mapFields (fill args) fields))).isSome := by
      rw [Value.ofJson?_of_nameOf?_none hname, hread]
      rfl
    -- binding keeps the names, so that the object was no wrapper before
    refine ⟨fields, rfl, (Json.nameOf?_mapFields _ _).symm.trans hname, fun wrapper hwrapper => ?_⟩
    exact Value.isSome_ofJson?_iff.mp hsome _ (Json.mapFields_mem_wrappers hwrapper)
  | array items => cases hfields
  | null | bool | number | string =>
    have hself := (isOpen_or_fill_eq args _).resolve_left hopen
    cases hself.symm.trans hfields

/-- An option whose bound value it can have is admitted before if the wrappers in it that hold a
placeholder are read as they are. -/
theorem admits_iff_of_bound (h : option.Takes (v.mapLeaves (fill args))) :
    IsOpen v ∨ option.Takes v ↔ WrappersRead v := by
  by_cases hopen : IsOpen v
  · rw [iff_true_left (.inl hopen), WrappersRead, hopen.wrappers_eq_nil]
    exact List.forall_mem_nil _
  rw [or_iff_right hopen]
  by_cases hoption : option.IsDocument
  · obtain ⟨fields, rfl, hname, hbound⟩ := exists_of_bound hoption h hopen
    have htakes : option.Takes (.object fields) ↔ (Value.ofJson? (.object fields)).isSome := by
      simp [takes_iff_of_isDocument hoption, Document.ofJson_eq_ok_iff, hname,
        Value.ofJson?_of_nameOf?_none hname, Option.isSome_iff_exists]
    rw [htakes, Value.isSome_ofJson?_iff]
    refine ⟨fun hall wrapper hwrapper _ => hall wrapper hwrapper, fun hread wrapper hwrapper => ?_⟩
    -- a wrapper without placeholders is not changed by binding
    by_cases hholds : ∃ n, 0 < n ∧ .string (text n) ∈ (Json.object wrapper).leaves
    · exact hread wrapper hwrapper hholds
    · have hself : (Json.object wrapper).mapLeaves (fill args) = .object wrapper := by
        refine Json.mapLeaves_eq_self fun leaf hleaf => ?_
        refine (isOpen_or_fill_eq args leaf).resolve_left ?_
        rintro ⟨n, hn, rfl⟩
        exact hholds ⟨n, hn, hleaf⟩
      rw [← hself]
      exact hbound wrapper hwrapper
  · have htakes := (takes_of_bound hoption h).resolve_left hopen
    rw [iff_true_left htakes, WrappersRead, wrappers_eq_nil_of_takes hoption htakes]
    exact List.forall_mem_nil _

/-- If its bound value is one that an option can have, only a wrapper makes the option refused before. -/
theorem eq_badWrapper_of_bound {what : Malformed} (h : option.Takes (v.mapLeaves (fill args)))
    (hopen : ¬IsOpen v) (hrefuses : option.Refuses v what) : what = .badWrapper := by
  by_cases hoption : option.IsDocument
  · obtain ⟨fields, rfl, hname, -⟩ := exists_of_bound hoption h hopen
    cases hrefuses with
    | kind _ hkind => exact absurd rfl (hkind hoption fields)
    | document _ herror => exact Document.eq_badWrapper_of_ofJson hname herror
  · have htakes := (takes_of_bound hoption h).resolve_left hopen
    cases hrefuses with
    | kind hrefused _ => exact absurd htakes hrefused
    | document hdocument _ => exact absurd hdocument hoption

end OptionName

/-! ### Queries that are bound -/

namespace Query

open Placeholder

theorem suits_mapLeaves {q : Query} {f : Json → Json} {option : OptionName} :
    (q.mapLeaves f).Suits option ↔
      ∀ v, q.options.get? option.name = some v → option.Takes (v.mapLeaves f) := by
  have hget : (q.mapLeaves f).options.get? option.name =
      (q.options.get? option.name).map (Json.mapLeaves f) := Json.get?_mapFields f q.options _
  unfold Suits
  rw [hget]
  simp

/-- **A query that binding makes valid is refused before only for a wrapper.**  Let a query be bound to
arguments, and let the outcome be valid.  The query is valid before if all wrappers that hold a
placeholder, in the options that its operation uses, are read as they are, and else its error is that of
a wrapper. -/
theorem validateUnbound_iff_of_bound {q : Query.Distinct} {b : Query} {args : List Json}
    (hbound : q.substitute args = .ok b) (hvalid : b.validate = .ok ()) :
    (q.validateUnbound = .ok () ↔ ∀ option ∈ q.operation.options, ∀ v,
      q.options.get? option.name = some v → WrappersRead v) ∧
    ∀ e, q.validateUnbound = .error e → e = .malformed .badWrapper := by
  obtain ⟨-, rfl⟩ := (substitute_checks q.toQuery args).eq_ok_iff.mp hbound
  obtain ⟨hnames, hsuits⟩ := validate_eq_ok_iff.mp hvalid
  have hnames : q.NamesCollection := hnames
  have htakes : ∀ option ∈ q.operation.options, ∀ v, q.options.get? option.name = some v →
      option.Takes (v.mapLeaves (fill args)) :=
    fun option hoption => suits_mapLeaves.mp (hsuits option hoption)
  constructor
  · rw [validateUnbound_eq_ok_iff, and_iff_right hnames]
    refine forall₂_congr fun option hoption => forall₂_congr fun v hv => ?_
    exact OptionName.admits_iff_of_bound (htakes option hoption v hv)
  · intro e he
    rcases (validateUnbound_eq_error_iff q).mp he with ⟨hmissing, -⟩ |
      ⟨-, before, option, after, v, what, hoptions, -, hv, hopen, hrefuses, rfl⟩
    · exact absurd hnames hmissing
    · have hmem : option ∈ q.operation.options := by
        rw [hoptions]
        exact List.mem_append_right before List.mem_cons_self
      rw [OptionName.eq_badWrapper_of_bound (htakes option hmem v hv) hopen hrefuses]

/-- A find whose options are placeholders, hold one as it is, and hold one in a wrapper that any string
can fill. -/
def openOptions : Query.Distinct where
  operation := .find
  collection := some "users"
  options := [("limit", .string "$1"), ("sort", .object [("age", .string "$2")]),
    ("projection", .object [("name", .single "$symbol" (.string "$3"))])]
  nodup := by decide

theorem validateUnbound_iff_of_bound_openOptions :
    ∃ b, openOptions.substitute [.ofInt64 5, .ofInt64 (-1), .string "x"] = .ok b ∧
      b.validate = .ok () ∧ openOptions.validateUnbound = .ok () := by
  have hbound : openOptions.substitute [.ofInt64 5, .ofInt64 (-1), .string "x"] = .ok _ := rfl
  have hread : ∀ option ∈ openOptions.options, (Value.ofJson? option.2).isSome := by decide
  refine ⟨_, hbound, rfl, ?_⟩
  refine (validateUnbound_iff_of_bound hbound rfl).1.mpr fun option _ v hv => ?_
  have hv := hread _ (Fields.mem_of_get? hv)
  exact fun wrapper hwrapper _ => Value.isSome_ofJson?_iff.mp hv wrapper hwrapper

/-- A find that is sorted by a field, in a direction given as a wrapped number. -/
def wrappedSort : Query.Distinct where
  operation := .find
  collection := some "users"
  options := [("sort", .object [("age", .single "$numberInt" (.string "$1"))])]
  nodup := by decide

/-- Binding makes this find valid, but it is refused before. -/
theorem validateUnbound_refuses_wrappedSort :
    ∃ b, wrappedSort.substitute [.string "1"] = .ok b ∧
      b.options = [("sort", .object [("age", .single "$numberInt" (.string "1"))])] ∧
      b.validate = .ok () ∧ wrappedSort.validateUnbound = .error (.malformed .badWrapper) :=
  ⟨_, rfl, rfl, rfl, rfl⟩

end Query

end Keyset
