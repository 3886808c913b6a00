import Keyset.Cursor.Seek

/-!
# The clauses of a filter

What the filter of the rows after given values looks like, with its JSON written out: a comparison for
one column, and for more of them a disjunction of clauses, in each of which the columns before equal
their values and the next one is strictly after its own (`Seek.IsAfter`).  For each list of columns
there is exactly one such filter, the one that a cursor stands for (`Seek.isAfter_filter` and
`Seek.IsAfter.eq_filter`).
-/

namespace Keyset

namespace Seek

/-- The condition that a column is strictly after a value in its direction. -/
inductive IsStrict (col : OrderBy) (value : Json) : Json.Object → Prop
  | ascending (hcol : col.direction = .ascending) :
    IsStrict col value [(col.field, .object [("$gt", value)])]
  | descending (hcol : col.direction = .descending) :
    IsStrict col value [(col.field, .object [("$lt", value)])]

/-- The clause of a column: those before it, if there are any, equal their values, and the column is
strictly after its own. -/
inductive IsClause (before : List (OrderBy × Json)) (col : OrderBy) (value : Json) : Json → Prop
  | first {strict : Json.Object} (hbefore : before = []) (hstrict : IsStrict col value strict) :
    IsClause before col value (.object strict)
  | later {strict : Json.Object} (hbefore : before ≠ []) (hstrict : IsStrict col value strict) :
    IsClause before col value (.object [("$and", .array
      ((before.map fun c => .object [(c.1.field, c.2)]) ++ [.object strict]))])

/-- The filter of the rows after the values of columns: one comparison for one column, and otherwise
a disjunction of one clause for each column, in their order. -/
inductive IsAfter : List (OrderBy × Json) → Json.Object → Prop
  | single {col : OrderBy} {value : Json} {f : Json.Object} (hstrict : IsStrict col value f) :
    IsAfter [(col, value)] f
  | several {columns : List (OrderBy × Json)} {clauses : List Json} (hcolumns : 2 ≤ columns.length)
    (hclauses : clauses.length = columns.length)
    (hclause : ∀ k col value, columns[k]? = some (col, value) →
      ∃ clause, clauses[k]? = some clause ∧ IsClause (columns.take k) col value clause) :
    IsAfter columns [("$or", .array clauses)]

/-! ### One clause -/

theorem isStrict_iff {col : OrderBy} {value : Json} {f : Json.Object} :
    IsStrict col value f ↔ f = [(col.field, .single col.direction.operator value)] := by
  constructor
  · rintro (hcol | hcol) <;> simp [hcol, Direction.operator, Json.single]
  · rintro rfl
    cases hcol : col.direction with
    | ascending => exact .ascending hcol
    | descending => exact .descending hcol

theorem isClause_iff {before : List (OrderBy × Json)} {col : OrderBy} {value clause : Json} :
    IsClause before col value clause ↔
      clause = under (before.map fun c => equals c.1 c.2) (after col value) := by
  constructor
  · rintro (⟨hbefore, hstrict⟩ | ⟨hbefore, hstrict⟩)
    · rw [isStrict_iff.mp hstrict, hbefore]
      rfl
    · rw [isStrict_iff.mp hstrict]
      obtain ⟨first, before, rfl⟩ := List.exists_cons_of_ne_nil hbefore
      rfl
  · rintro rfl
    have hstrict : IsStrict col value _ := isStrict_iff.mpr rfl
    cases before with
    | nil => exact .first rfl hstrict
    | cons first before => exact .later (List.cons_ne_nil _ _) hstrict

/-! ### All clauses -/

theorem length_branches (before : List Json) (columns : List (OrderBy × Json)) :
    (branches before columns).length = columns.length := by
  induction columns generalizing before with
  | nil => rfl
  | cons column columns ih =>
    obtain ⟨col, value⟩ := column
    rw [branches, List.length_cons, ih, List.length_cons]

/-- A branch is the comparison of its column under the equations of those before it. -/
theorem getElem?_branches {before : List Json} {columns : List (OrderBy × Json)} {k : Nat}
    {col : OrderBy} {value : Json} (h : columns[k]? = some (col, value)) :
    (branches before columns)[k]? =
      some (under (before ++ (columns.take k).map fun c => equals c.1 c.2) (after col value)) := by
  induction columns generalizing before k with
  | nil => cases h
  | cons first columns ih =>
    cases k with
    | zero =>
      obtain rfl := Option.some.inj h
      rw [branches, List.take_zero, List.map_nil, List.append_nil]
      rfl
    | succ k =>
      obtain ⟨col', value'⟩ := first
      rw [branches, List.getElem?_cons_succ, ih h, List.take_succ_cons, List.map_cons,
        List.append_assoc, List.singleton_append]

theorem isAfter_filter {columns : List (OrderBy × Json)} (h : columns ≠ []) :
    IsAfter columns (filter columns) := by
  match columns, h with
  | [(col, value)], _ => exact .single (isStrict_iff.mpr rfl)
  | _ :: _ :: _, _ =>
    refine .several (by simp) (length_branches _ _) fun k col value hk => ?_
    refine ⟨_, getElem?_branches hk, isClause_iff.mpr ?_⟩
    rw [List.nil_append]

/-- Columns with a value for each have such a filter. -/
theorem isAfter_filter_zip {cols : List OrderBy} {values : List Json} (hne : cols ≠ [])
    (hlength : values.length = cols.length) :
    IsAfter (cols.zip values) (filter (cols.zip values)) := by
  refine isAfter_filter ?_
  rw [Ne, List.zip_eq_nil_iff, ← List.length_eq_zero_iff (l := values), hlength,
    List.length_eq_zero_iff, or_self]
  exact hne

theorem IsAfter.eq_filter {columns : List (OrderBy × Json)} {f : Json.Object}
    (h : IsAfter columns f) : f = filter columns := by
  cases h with
  | single hstrict => exact isStrict_iff.mp hstrict
  | several hcolumns hlength hclause =>
    rename_i clauses
    -- the clauses are determined place by place, and there are no others
    have hclauses : clauses = branches [] columns := by
      refine List.ext_getElem? fun k => ?_
      cases hk : columns[k]? with
      | none =>
        rw [List.getElem?_eq_none_iff] at hk
        rw [List.getElem?_eq_none (hlength ▸ hk),
          List.getElem?_eq_none (length_branches [] columns ▸ hk)]
      | some column =>
        obtain ⟨clause, hget, hclause⟩ := hclause k _ _ hk
        rw [hget, getElem?_branches hk, isClause_iff.mp hclause, List.nil_append]
    match columns, hcolumns with
    | _ :: _ :: _, _ => rw [hclauses, filter]; simp

end Seek

end Keyset
