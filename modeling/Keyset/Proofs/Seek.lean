import Keyset.Cursor.Seek
import Keyset.Proofs.Cursor.Resumption
import Keyset.Proofs.Filter
import Keyset.Proofs.Sorting
import Keyset.Query.Options

/-!
# What comes after a cursor

The filter of a cursor can be evaluated on every document (`accepts_filterDocument`), and it accepts
those that equal the cursor's values in some first columns and come after the next one, which must
be of the value's rank (`passes_iff_exists`).  Where all ranks agree these are the documents that
sorting puts after the cursor's row; in general it is those of them whose first difference is within
one rank (`passes_eq_compare`).
-/

namespace Keyset

open Keyset.Filter

/-! ### The filter as a document -/

theorem isOperatorName_of_mem_names : ∀ name ∈ Wrapper.names, isOperatorName name = true := by
  decide

/-- An object with one field is read as a document, unless it is a wrapper. -/
theorem Value.ofJson?_single_eq {name : String} (hname : name ∉ Wrapper.names) (w : Json) :
    ofJson? (.single name w) = (ofJson? w).map fun v => .document [(name, v)] := by
  have hwrapper : Wrapper.nameOf? [(name, w)] = none := by
    refine List.find?_eq_none.mpr fun n hn => ?_
    have hne : name ≠ n := fun h => hname (h ▸ hn)
    simp [Fields.has, Fields.get?, hne]
  show ofJson? (.object [(name, w)]) = _
  rw [ofJson?, hwrapper]
  cases hw : ofJson? w <;> simp [fieldsOfJson?, hw]

theorem Value.ofJson?_single {name : String} {w : Json} {v : Value} (hname : name ∉ Wrapper.names)
    (hv : ofJson? w = some v) : ofJson? (.single name w) = some (.document [(name, v)]) := by
  rw [ofJson?_single_eq hname, hv]
  rfl

/-- Values are read one by one. -/
theorem Value.listOfJson?_eq_some_iff {ws : List Json} {vs : List Value} :
    listOfJson? ws = some vs ↔ List.Forall₂ (fun w v => ofJson? w = some v) ws vs := by
  induction ws generalizing vs with
  | nil =>
    rw [listOfJson?, Option.some.injEq, List.forall₂_nil_left_iff]
    exact eq_comm
  | cons w ws ih =>
    rw [listOfJson?, List.forall₂_cons_left_iff]
    constructor
    · intro h
      split at h
      · rename_i v us hv hus
        exact ⟨v, us, hv, ih.mp hus, (Option.some.inj h).symm⟩
      · cases h
    · rintro ⟨v, us, hv, hus, rfl⟩
      rw [hv, ih.mpr hus]

theorem OrderBy.notMem_names {col : OrderBy} (h : isOperatorName col.field = false) :
    col.field ∉ Wrapper.names := fun hmem => by
  rw [isOperatorName_of_mem_names _ hmem] at h
  cases h

/-- The orders that come later in a direction. -/
def Direction.accepts : Direction → Ordering → Bool
  | .ascending => Ordering.isGT
  | .descending => Ordering.isLT

/-- The order of what comes later in a direction. -/
def Direction.later : Direction → Ordering
  | .ascending => .gt
  | .descending => .lt

theorem Direction.accepts_eq (d : Direction) (o : Ordering) : d.accepts o = (o == d.later) := by
  cases d <;> cases o <;> rfl

namespace Seek

/-- The condition that a column comes after a value, as a document. -/
def afterValue (col : OrderBy) (v : Value) : Document :=
  [(col.field, .document [(col.direction.operator, v)])]

/-- The condition that a column equals a value, as a document. -/
def equalsValue (col : OrderBy) (v : Value) : Document :=
  [(col.field, v)]

/-- A condition under the conditions before it, as a document. -/
def underValue (before : List Value) (last : Document) : Document :=
  match before with
  | [] => last
  | _ => [("$and", .array (before ++ [.document last]))]

/-- The branches of a filter, as documents. -/
def branchValues (before : List Value) : List (OrderBy × Value) → List Value
  | [] => []
  | (col, v) :: rest =>
    .document (underValue before (afterValue col v)) ::
      branchValues (before ++ [.document (equalsValue col v)]) rest

/-- The filter of a cursor, as a document. -/
def filterDocument (columns : List (OrderBy × Value)) : Document :=
  match columns with
  | [(col, v)] => afterValue col v
  | _ => [("$or", .array (branchValues [] columns))]

/-- Columns with values in JSON, and the same columns with the values of those. -/
def Reads (ws : List (OrderBy × Json)) (vs : List (OrderBy × Value)) : Prop :=
  List.Forall₂ (fun w v => w.1 = v.1 ∧ Value.ofJson? w.2 = some v.2) ws vs

theorem ofJson?_after {col : OrderBy} {w : Json} {v : Value}
    (hcol : isOperatorName col.field = false) (hv : Value.ofJson? w = some v) :
    Value.ofJson? (after col w) = some (.document (afterValue col v)) := by
  have hop : col.direction.operator ∉ Wrapper.names := by
    cases col.direction <;> decide
  exact Value.ofJson?_single (OrderBy.notMem_names hcol) (Value.ofJson?_single hop hv)

theorem ofJson?_equals {col : OrderBy} {w : Json} {v : Value}
    (hcol : isOperatorName col.field = false) (hv : Value.ofJson? w = some v) :
    Value.ofJson? (equals col w) = some (.document (equalsValue col v)) :=
  Value.ofJson?_single (OrderBy.notMem_names hcol) hv

theorem ofJson?_under {before : List Json} {bs : List Value} {last : Json} {l : Document}
    (hbefore : List.Forall₂ (fun w v => Value.ofJson? w = some v) before bs)
    (hlast : Value.ofJson? last = some (.document l)) :
    Value.ofJson? (under before last) = some (.document (underValue bs l)) := by
  cases hbefore with
  | nil => exact hlast
  | @cons b v before bs hb hbefore =>
    have hfirst : List.Forall₂ (fun w v => Value.ofJson? w = some v) (b :: before) (v :: bs) :=
      .cons hb hbefore
    have hall := List.rel_append hfirst (List.Forall₂.cons hlast .nil)
    refine Value.ofJson?_single (by decide) ?_
    rw [Value.ofJson?, Value.listOfJson?_eq_some_iff.mpr hall]
    rfl

/-- The branches of a filter are read one by one. -/
theorem ofJson?_branches {before : List Json} {bs : List Value} {ws : List (OrderBy × Json)}
    {vs : List (OrderBy × Value)} (hcols : ∀ v ∈ vs, isOperatorName v.1.field = false)
    (hbefore : List.Forall₂ (fun w v => Value.ofJson? w = some v) before bs) (h : Reads ws vs) :
    List.Forall₂ (fun w v => Value.ofJson? w = some v) (branches before ws) (branchValues bs vs) := by
  induction h generalizing before bs with
  | nil => exact .nil
  | @cons w v ws vs hw h ih =>
    obtain ⟨col, w⟩ := w
    obtain ⟨col', v⟩ := v
    obtain ⟨rfl, hw⟩ := hw
    rw [List.forall_mem_cons] at hcols
    refine .cons (ofJson?_under hbefore (ofJson?_after hcols.1 hw)) (ih hcols.2 ?_)
    exact List.rel_append hbefore (.cons (ofJson?_equals hcols.1 hw) .nil)

/-- The filter of a cursor is a document, if no column has the name of an operator. -/
theorem ofJson_filter {ws : List (OrderBy × Json)} {vs : List (OrderBy × Value)}
    (hcols : ∀ v ∈ vs, isOperatorName v.1.field = false) (h : Reads ws vs) :
    Document.ofJson (filter ws) = .ok (filterDocument vs) := by
  have hor : Value.ofJson? (.single "$or" (.array (branches [] ws))) =
      some (.document [("$or", .array (branchValues [] vs))]) := by
    refine Value.ofJson?_single (by decide) ?_
    rw [Value.ofJson?, Value.listOfJson?_eq_some_iff.mpr (ofJson?_branches hcols .nil h)]
    rfl
  have hread : Value.ofJson? (.object (filter ws)) = some (.document (filterDocument vs)) := by
    cases h with
    | nil =>
      have hfilter : Json.object (filter []) = .single "$or" (.array (branches [] [])) := rfl
      rw [hfilter, hor]
      rfl
    | @cons w v ws vs hw h =>
      obtain ⟨col, w⟩ := w
      obtain ⟨col', v⟩ := v
      obtain ⟨rfl, hw⟩ := hw
      cases h with
      | nil =>
        have hfilter : Json.object (filter [(col, w)]) = after col w := rfl
        rw [hfilter, ofJson?_after (hcols _ List.mem_cons_self) hw]
        rfl
      | @cons w' v' ws vs hw' h =>
        have hfilter : Json.object (filter ((col, w) :: w' :: ws)) =
            .single "$or" (.array (branches [] ((col, w) :: w' :: ws))) := rfl
        rw [hfilter, hor]
        rfl
  rw [Document.ofJson, hread]

/-! ### What it accepts -/

/-- Whether a document equals values in some first columns and comes after the next one. -/
def passes (doc : Document) : List (OrderBy × Value) → Bool
  | [] => false
  | (col, v) :: rest =>
    fieldCompares col.direction.accepts (doc.at? col.field) v ||
      (fieldEquals (doc.at? col.field) v && passes doc rest)

variable {doc : Document} {col : OrderBy} {v : Value} {columns : List (OrderBy × Value)}

theorem accepts_afterValue (hcol : isOperatorName col.field = false) (doc : Document) (v : Value) :
    accepts doc (afterValue col v) =
      .ok (fieldCompares col.direction.accepts (doc.at? col.field) v) := by
  have hop : isOperatorName col.direction.operator = true := by
    cases col.direction <;> decide
  rw [afterValue, accepts_field hcol, fieldMatches_operator hop]
  cases col.direction <;> rfl

theorem accepts_equalsValue (hcol : isOperatorName col.field = false) (hv : v.isScalar = true)
    (doc : Document) : accepts doc (equalsValue col v) = .ok (fieldEquals (doc.at? col.field) v) := by
  have hdocument : v.document? = none := by
    cases v <;> first | rfl | cases hv
  rw [equalsValue, accepts_field hcol, fieldMatches_of_not_document hdocument]

theorem accepts_underValue {before : List Value} {bs : List Bool} {last : Document} {b : Bool}
    (hbefore : List.Forall₂ (HasOutcome doc) before bs) (hlast : accepts doc last = .ok b) :
    accepts doc (underValue before last) = .ok (bs.all id && b) := by
  cases hbefore with
  | nil => exact hlast
  | @cons v b' before bs hv hbefore =>
    have hfirst : List.Forall₂ (HasOutcome doc) (v :: before) (b' :: bs) := .cons hv hbefore
    have hall := List.rel_append hfirst (List.Forall₂.cons ⟨last, rfl, hlast⟩ .nil)
    show accepts doc [("$and", .array (v :: before ++ [.document last]))] = _
    rw [accepts_and hall, List.all_append]
    simp

/-- The outcomes of the branches, under an outcome of what stands before them. -/
def outcomes (doc : Document) (before : Bool) : List (OrderBy × Value) → List Bool
  | [] => []
  | (col, v) :: rest =>
    (before && fieldCompares col.direction.accepts (doc.at? col.field) v) ::
      outcomes doc (before && fieldEquals (doc.at? col.field) v) rest

theorem any_outcomes (doc : Document) (before : Bool) (columns : List (OrderBy × Value)) :
    (outcomes doc before columns).any id = (before && passes doc columns) := by
  induction columns generalizing before with
  | nil => simp [outcomes, passes]
  | cons column columns ih =>
    obtain ⟨col, v⟩ := column
    rw [outcomes, passes, List.any_cons, ih]
    cases before <;> simp

/-- The columns that a filter can be made of: fields, with values that are no documents or arrays. -/
def Usable (columns : List (OrderBy × Value)) : Prop :=
  ∀ c ∈ columns, isOperatorName c.1.field = false ∧ c.2.isScalar = true ∧ c.2 ≠ .null

theorem outcomes_branchValues {before : List Value} {bs : List Bool} (h : Usable columns)
    (hbefore : List.Forall₂ (HasOutcome doc) before bs) :
    List.Forall₂ (HasOutcome doc) (branchValues before columns)
      (outcomes doc (bs.all id) columns) := by
  induction columns generalizing before bs with
  | nil => exact .nil
  | cons column columns ih =>
    obtain ⟨col, v⟩ := column
    rw [Usable, List.forall_mem_cons] at h
    obtain ⟨⟨hcol, hv, -⟩, h⟩ := h
    refine .cons ⟨_, rfl, accepts_underValue hbefore (accepts_afterValue hcol doc v)⟩ ?_
    -- later branches also ask that this column is equal
    have hnext := ih h (List.rel_append hbefore
      (List.Forall₂.cons ⟨_, rfl, accepts_equalsValue hcol hv doc⟩ .nil))
    rw [List.all_append, List.all_cons, List.all_nil, Bool.and_true] at hnext
    exact hnext

/-- The filter of a cursor can be evaluated on every document. -/
theorem accepts_filterDocument (h : Usable columns) (doc : Document) :
    accepts doc (filterDocument columns) = .ok (passes doc columns) := by
  have hor : accepts doc [("$or", .array (branchValues [] columns))] = .ok (passes doc columns) := by
    rw [accepts_or (outcomes_branchValues h .nil), any_outcomes]
    rfl
  unfold filterDocument
  split
  · -- one column needs no disjunction
    rename_i col v
    have hcol := (h _ List.mem_cons_self).1
    rw [accepts_afterValue hcol, passes, passes, Bool.and_false, Bool.or_false]
  · exact hor

/-! ### Fields with one value -/

/-- Whether a field holds no array. -/
def isFlat (field : Option Value) : Prop :=
  ∀ xs, field ≠ some (.array xs)

theorem fieldCompares_of_flat {field : Option Value} (h : isFlat field) (accept : Ordering → Bool)
    (v : Value) : fieldCompares accept field v = field.any (ordered accept v) := by
  unfold fieldCompares
  split
  · rfl
  · exact absurd rfl (h _)
  · rfl

theorem fieldEquals_of_flat {field : Option Value} (h : isFlat field) (hv : v ≠ .null) :
    fieldEquals field v = field.any (·.equal v) := by
  unfold fieldEquals
  split
  · exact absurd rfl hv
  · rfl
  · exact absurd rfl (h _)
  · exact absurd rfl (h _)
  · rfl

/-- What passes equals the values in some first columns, and comes after the next one within its
rank. -/
theorem passes_iff_exists (h : ∀ c ∈ columns, isFlat (doc.at? c.1.field) ∧ c.2 ≠ .null) :
    passes doc columns = true ↔ ∃ before col v rest, columns = before ++ (col, v) :: rest ∧
      (∀ c ∈ before, ∃ x, doc.at? c.1.field = some x ∧ x.equal c.2 = true) ∧
      ∃ x, doc.at? col.field = some x ∧ x.rank = v.rank ∧ x.compare v = col.direction.later := by
  induction columns with
  | nil => simp [passes]
  | cons column columns ih =>
    obtain ⟨col, v⟩ := column
    rw [List.forall_mem_cons] at h
    obtain ⟨⟨hflat, hnull⟩, h⟩ := h
    have hafter : fieldCompares col.direction.accepts (doc.at? col.field) v = true ↔
        ∃ x, doc.at? col.field = some x ∧ x.rank = v.rank ∧ x.compare v = col.direction.later := by
      rw [fieldCompares_of_flat hflat]
      cases doc.at? col.field <;> simp [ordered, Direction.accepts_eq]
    have hequals : fieldEquals (doc.at? col.field) v = true ↔
        ∃ x, doc.at? col.field = some x ∧ x.equal v = true := by
      rw [fieldEquals_of_flat hflat hnull]
      cases doc.at? col.field <;> simp
    rw [passes, Bool.or_eq_true, Bool.and_eq_true, hafter, hequals, ih h]
    constructor
    · -- this column tells them apart, or it is equal and a later one does
      rintro (hx | ⟨hx, before, col', v', rest, rfl, hbefore, hlast⟩)
      · exact ⟨[], col, v, columns, rfl, nofun, hx⟩
      · refine ⟨(col, v) :: before, col', v', rest, rfl, ?_, hlast⟩
        exact List.forall_mem_cons.mpr ⟨hx, hbefore⟩
    · rintro ⟨before, col', v', rest, hsplit, hbefore, hlast⟩
      cases before with
      | nil =>
        obtain ⟨hhead, -⟩ := List.cons.inj hsplit
        obtain ⟨rfl, rfl⟩ := Prod.mk.inj hhead
        exact .inl hlast
      | cons c before =>
        obtain ⟨rfl, rfl⟩ := List.cons.inj hsplit
        rw [List.forall_mem_cons] at hbefore
        exact .inr ⟨hbefore.1, before, col', v', rest, rfl, hbefore.2, hlast⟩

/-- A document that holds a value like the cursor's in a column does not come after it there. -/
theorem fieldCompares_of_alike {x : Value} (hv : v.isScalar = true) (hx : x.Alike v) (d : Direction) :
    fieldCompares d.accepts (some x) v = false := by
  have hcompare : x.compare v = .eq := by
    rw [hx.compare_left, Value.compare_self]
  have hflat : isFlat (some x) := by
    rintro xs hxs
    have hrank := hx.rank_eq
    rw [Option.some.inj hxs] at hrank
    exact Value.ne_array_of_isScalar hv _ (Value.rank_eq_five.mp hrank.symm).choose_spec
  rw [fieldCompares_of_flat hflat, Option.any_some, ordered, hcompare]
  cases d <;> simp [Direction.accepts]

/-! ### The order of sorting -/

/-- The keys that columns with values sort by. -/
def keys (columns : List (OrderBy × Value)) : List Sorting.Key :=
  columns.map fun c => c.1.key

/-- Whether the first values in which two documents differ have one rank. -/
def differWithinRank : List Sorting.Key → Document → Document → Bool
  | [], _, _ => true
  | key :: rest, a, b =>
    if key.compare a b = .eq then differWithinRank rest a b
    else (Sorting.sortValue key.path a).rank == (Sorting.sortValue key.path b).rank

/-- A document that holds values like those of columns. -/
def HoldsAlike (doc : Document) (columns : List (OrderBy × Value)) : Prop :=
  ∀ c ∈ columns, ∃ y : Value, doc.at? c.1.field = some y ∧ y.Alike c.2

/-- The columns' values of a document are scalars, where null may be missing. -/
def HoldsScalars (doc : Document) (columns : List (OrderBy × Value)) : Prop :=
  ∀ c ∈ columns, (Sorting.sortValue c.1.field doc).isScalar = true

theorem isFlat_of_isScalar {path : String}
    (h : (Sorting.sortValue path doc).isScalar = true) : isFlat (doc.at? path) := by
  intro xs hxs
  rw [Sorting.sortValue, hxs] at h
  cases h

/-- A missing value sorts as null, which is of another rank than what a cursor holds. -/
theorem rank_null_ne (hv : v.isScalar = true) (hnull : v ≠ .null) : Value.null.rank ≠ v.rank :=
  fun h => hnull (Value.eq_null_of_rank hv h.symm)

theorem fieldCompares_eq {x : Value} (hx : Sorting.sortValue col.field doc = x)
    (hscalar : x.isScalar = true) (hv : v.isScalar = true) (hnull : v ≠ .null)
    (accept : Ordering → Bool) :
    fieldCompares accept (doc.at? col.field) v = (x.rank == v.rank && accept (x.compare v)) := by
  subst hx
  rw [fieldCompares_of_flat (isFlat_of_isScalar hscalar)]
  unfold Sorting.sortValue
  cases doc.at? col.field with
  | none =>
    show false = (Value.null.rank == v.rank && accept (Value.null.compare v))
    rw [beq_eq_false_iff_ne.mpr (rank_null_ne hv hnull)]
    rfl
  | some y => rfl

theorem fieldEquals_eq {x : Value} (hx : Sorting.sortValue col.field doc = x)
    (hscalar : x.isScalar = true) (hv : v.isScalar = true) (hnull : v ≠ .null) :
    fieldEquals (doc.at? col.field) v = (x.compare v == .eq) := by
  have hequal : x.equal v = (x.compare v == .eq) := by
    rw [Bool.eq_iff_iff, beq_iff_eq]
    exact Value.equal_iff_compare_eq hscalar hv
  subst hx
  rw [← hequal, fieldEquals_of_flat (isFlat_of_isScalar hscalar) hnull]
  unfold Sorting.sortValue
  cases doc.at? col.field with
  | none =>
    have hne : Value.null.equal v = false :=
      Bool.eq_false_iff.mpr fun h => rank_null_ne hv hnull (Value.rank_eq_of_equal h)
    exact hne.symm
  | some y => rfl

/-- On scalars the filter of a document's values accepts the documents that sorting puts after it, if
their first difference is within one rank. -/
theorem passes_eq_compare {r d : Document} (h : Usable columns) (hr : HoldsAlike r columns)
    (hd : HoldsScalars d columns) :
    passes d columns =
      (Sorting.compare (keys columns) r d == .lt && differWithinRank (keys columns) r d) := by
  induction columns with
  | nil => rfl
  | cons column columns ih =>
    obtain ⟨col, v⟩ := column
    rw [Usable, List.forall_mem_cons] at h
    rw [HoldsAlike, List.forall_mem_cons] at hr
    rw [HoldsScalars, List.forall_mem_cons] at hd
    obtain ⟨⟨-, hv, hnull⟩, h⟩ := h
    obtain ⟨⟨y, hy, halike⟩, hr⟩ := hr
    obtain ⟨hx, hd⟩ := hd
    have hyvalue : Sorting.sortValue col.field r = y := by
      rw [Sorting.sortValue, hy]
      rfl
    obtain ⟨x, hxvalue⟩ : ∃ x, Sorting.sortValue col.field d = x := ⟨_, rfl⟩
    -- the row holds a value like that of the cursor
    have hcompare : y.compare x = (x.compare v).swap := by
      rw [halike.compare_left, Value.compare_swap]
    have hkey : Sorting.Key.compare col.key r d =
        if col.direction == .ascending then (x.compare v).swap else x.compare v := by
      show (if (col.direction == .ascending) = true
        then (Sorting.sortValue col.field r).compare (Sorting.sortValue col.field d)
        else ((Sorting.sortValue col.field r).compare (Sorting.sortValue col.field d)).swap) = _
      rw [hyvalue, hxvalue, hcompare, Ordering.swap_swap]
    have hrank : (y.rank == x.rank) = (x.rank == v.rank) := by
      rw [halike.rank_eq]
      exact Bool.beq_comm
    rw [passes, fieldCompares_eq hxvalue (hxvalue ▸ hx) hv hnull,
      fieldEquals_eq hxvalue (hxvalue ▸ hx) hv hnull, ih h hr hd]
    show _ = (Sorting.compare (col.key :: keys columns) r d == .lt &&
      differWithinRank (col.key :: keys columns) r d)
    rw [Sorting.compare, differWithinRank, hkey]
    show _ = (_ && if _ then _ else
      (Sorting.sortValue col.field r).rank == (Sorting.sortValue col.field d).rank)
    rw [hyvalue, hxvalue, hrank]
    -- the column decides, unless the values are equal in it
    cases col.direction <;> cases x.compare v <;> simp [Direction.accepts, Ordering.then]

theorem differWithinRank_of_ranks {ks : List Sorting.Key} {a b : Document}
    (h : ∀ key ∈ ks, (Sorting.sortValue key.path a).rank = (Sorting.sortValue key.path b).rank) :
    differWithinRank ks a b = true := by
  induction ks with
  | nil => rfl
  | cons key ks ih =>
    rw [List.forall_mem_cons] at h
    rw [differWithinRank]
    split_ifs
    · exact ih h.2
    · exact beq_iff_eq.mpr h.1

/-- Where a document's values have the ranks of the columns' values, the filter is the order. -/
theorem passes_iff_compare_lt {r d : Document} (h : Usable columns) (hr : HoldsAlike r columns)
    (hd : ∀ c ∈ columns, ∃ x, d.at? c.1.field = some x ∧ x.rank = c.2.rank ∧
      x.isComparable = true) :
    passes d columns = true ↔ Sorting.compare (keys columns) r d = .lt := by
  have hscalars : HoldsScalars d columns := by
    intro c hc
    obtain ⟨x, hx, hrank, hcomparable⟩ := hd c hc
    obtain ⟨-, hv, hnull⟩ := h c hc
    rw [Sorting.sortValue, hx, Option.getD_some]
    exact Value.isScalar_of_rank hv hnull hrank hcomparable
  have hranks : ∀ key ∈ keys columns,
      (Sorting.sortValue key.path r).rank = (Sorting.sortValue key.path d).rank := by
    intro key hkey
    obtain ⟨c, hc, rfl⟩ := List.mem_map.mp hkey
    obtain ⟨x, hx, hrank, -⟩ := hd c hc
    obtain ⟨y, hy, halike⟩ := hr c hc
    show (Sorting.sortValue c.1.field r).rank = (Sorting.sortValue c.1.field d).rank
    rw [Sorting.sortValue, Sorting.sortValue, hx, hy, Option.getD_some, Option.getD_some, hrank,
      halike.rank_eq]
  rw [passes_eq_compare h hr hscalars, differWithinRank_of_ranks hranks, Bool.and_true, beq_iff_eq]

/-- A document does not come after its own values. -/
theorem passes_self {r : Document} (h : Usable columns) (hr : HoldsAlike r columns) :
    passes r columns = false := by
  induction columns with
  | nil => rfl
  | cons column columns ih =>
    obtain ⟨col, v⟩ := column
    rw [Usable, List.forall_mem_cons] at h
    rw [HoldsAlike, List.forall_mem_cons] at hr
    obtain ⟨y, hy, halike⟩ := hr.1
    rw [passes, hy, fieldCompares_of_alike h.1.2.1 halike, ih h.2 hr.2, Bool.and_false,
      Bool.or_false]

/-! ### Cursors that are used -/

/-- The fields of columns are paths into documents and not operators of filters. -/
def OrdersByFields (info : CursorInfo) : Prop :=
  ∀ col ∈ info.orderBy, isOperatorName col.field = false

theorem reads_zip {cols : List OrderBy} {ws : List Json} {vs : List Value}
    (h : List.Forall₂ (fun w v => Value.ofJson? w = some v) ws vs) :
    Reads (cols.zip ws) (cols.zip vs) := by
  induction h generalizing cols with
  | nil =>
    rw [List.zip_nil_right, List.zip_nil_right]
    exact .nil
  | cons hw h ih =>
    cases cols with
    | nil => exact .nil
    | cons col cols => exact .cons ⟨rfl, hw⟩ ih

/-- A cursor that is used holds a scalar for each column, and its filter is a document. -/
theorem seek_eq_some {info : CursorInfo} {raw : String} {seek : Json.Object}
    (hfields : OrdersByFields info) (h : info.seek raw = .ok (some seek)) :
    ∃ ws vs, info.values? raw.toList = .ok (some ws) ∧ Value.listOfJson? ws = some vs ∧
      vs.length = info.orderBy.length ∧ Usable (info.orderBy.zip vs) ∧
      Document.ofJson seek = .ok (filterDocument (info.orderBy.zip vs)) := by
  unfold CursorInfo.seek at h
  cases hvalues : info.values? raw.toList with
  | error e =>
    rw [hvalues] at h
    cases h
  | ok values =>
    rw [hvalues] at h
    obtain ⟨ws, rfl, rfl⟩ := Option.map_eq_some_iff.mp (Except.ok.inj h)
    obtain ⟨-, -, site, texts, -, -, hlength, hread⟩ := CursorInfo.values?_eq_some_iff.mp hvalues
    obtain ⟨vs, hvs, -, hlen, hscalars⟩ := Cursor.readValues_scalars hlength hread
    have husable : Usable (info.orderBy.zip vs) := by
      rintro ⟨col, v⟩ hmem
      obtain ⟨hcol, hv⟩ := List.of_mem_zip hmem
      exact ⟨hfields col hcol, hscalars v hv⟩
    refine ⟨ws, vs, rfl, hvs, hlen, husable, ?_⟩
    exact ofJson_filter (fun c hc => (husable c hc).1)
      (reads_zip (Value.listOfJson?_eq_some_iff.mp hvs))

theorem keys_zip {cols : List OrderBy} {vs : List Value} (h : vs.length = cols.length) :
    keys (cols.zip vs) = cols.map OrderBy.key := by
  have hfst : (cols.zip vs).map Prod.fst = cols := List.map_fst_zip (by omega)
  conv_rhs => rw [← hfst, List.map_map]
  rfl

/-- A filter with the keys of an order compares the order's fields. -/
theorem exists_orderBy_of_mem {columns : List (OrderBy × Value)} {cols : List OrderBy}
    (hkeys : keys columns = cols.map OrderBy.key) {c : OrderBy × Value} (hc : c ∈ columns) :
    ∃ col ∈ cols, col.field = c.1.field := by
  have hkey : c.1.key ∈ cols.map OrderBy.key := by
    rw [← hkeys]
    exact List.mem_map_of_mem hc
  obtain ⟨col, hcol, hcolkey⟩ := List.mem_map.mp hkey
  exact ⟨col, hcol, congrArg Sorting.Key.path hcolkey⟩

/-- The filter of a cursor that is used can be evaluated on every document.  On documents without
arrays in the columns it accepts those that equal the cursor's values in some first columns and come
after the next one within its rank.  Where the columns are distinct and all ranks agree, these are
the documents that sorting puts after one that holds the cursor's values; such a one is not
accepted itself. -/
theorem seek_accepts_strictly_after {info : CursorInfo} {raw : String} {seek : Json.Object}
    (hfields : OrdersByFields info) (h : info.seek raw = .ok (some seek)) :
    ∃ ws vs filter, info.values? raw.toList = .ok (some ws) ∧ Value.listOfJson? ws = some vs ∧
      vs.length = info.orderBy.length ∧ Document.ofJson seek = .ok filter ∧
      (∀ d : Document, (∀ col ∈ info.orderBy, ∀ xs, d.at? col.field ≠ some (.array xs)) →
        ∃ b, accepts d filter = .ok b ∧ (b = true ↔
          ∃ before col v rest, info.orderBy.zip vs = before ++ (col, v) :: rest ∧
            (∀ c ∈ before, ∃ x, d.at? c.1.field = some x ∧ x.equal c.2 = true) ∧
            ∃ x, d.at? col.field = some x ∧ x.rank = v.rank ∧
              x.compare v = col.direction.later)) ∧
      (∀ e d : Document, (info.orderBy.map OrderBy.field).Nodup →
        (∀ c ∈ info.orderBy.zip vs, e.at? c.1.field = some c.2) →
        (∀ c ∈ info.orderBy.zip vs, ∃ x, d.at? c.1.field = some x ∧ x.rank = c.2.rank ∧
          x.isComparable = true) →
        (accepts d filter = .ok true ↔
          Sorting.compare (Sorting.keys info.sortDocument) e d = .lt)) ∧
      ∀ e : Document, (∀ c ∈ info.orderBy.zip vs, e.at? c.1.field = some c.2) →
        accepts e filter = .ok false := by
  obtain ⟨ws, vs, hws, hvs, hlength, husable, hfilter⟩ := seek_eq_some hfields h
  have halike : ∀ {e : Document}, (∀ c ∈ info.orderBy.zip vs, e.at? c.1.field = some c.2) →
      HoldsAlike e (info.orderBy.zip vs) := fun he c hc => ⟨c.2, he c hc, .inl rfl⟩
  refine ⟨ws, vs, _, hws, hvs, hlength, hfilter, ?_, ?_, ?_⟩
  · intro d hd
    refine ⟨_, accepts_filterDocument husable d, passes_iff_exists fun c hc => ?_⟩
    exact ⟨hd c.1 (List.of_mem_zip (show (c.1, c.2) ∈ _ from hc)).1, (husable c hc).2.2⟩
  · intro e d hnodup he hd
    rw [accepts_filterDocument husable, Except.ok.injEq,
      passes_iff_compare_lt husable (halike he) hd, keys_zip hlength,
      CursorInfo.keys_sortDocument hnodup]
  · intro e he
    rw [accepts_filterDocument husable, passes_self husable (halike he)]

/-- A cursor over a column that descends and one that ascends. -/
def twoColumns : CursorInfo :=
  ⟨7, "page", [⟨"a", .descending, none⟩, ⟨"id", .ascending, some .integer⟩]⟩

theorem seek_accepts_strictly_after_twoColumns :
    OrdersByFields twoColumns ∧ ∃ seek filter,
      twoColumns.seek "page7:x:1" = .ok (some seek) ∧ Document.ofJson seek = .ok filter ∧
        accepts [("_id", .int32 2), ("a", .string "x")] filter = .ok true := by
  have hfields : OrdersByFields twoColumns := by
    unfold OrdersByFields
    decide
  have hseek : twoColumns.seek "page7:x:1" =
      .ok (some (filter (twoColumns.orderBy.zip [.string "x", .ofInt64 1]))) := rfl
  obtain ⟨ws, vs, filter, hws, hvs, -, hfilter, hflat, -, -⟩ :=
    seek_accepts_strictly_after hfields hseek
  refine ⟨hfields, _, filter, hseek, hfilter, ?_⟩
  have hvalues : twoColumns.values? "page7:x:1".toList = .ok (some [.string "x", .ofInt64 1]) := rfl
  obtain rfl : [.string "x", .ofInt64 1] = ws :=
    Option.some.inj (Except.ok.inj (hvalues.symm.trans hws))
  have hread : Value.listOfJson? [.string "x", .ofInt64 1] = some [.string "x", .int32 1] := rfl
  obtain rfl : [.string "x", .int32 1] = vs := Option.some.inj (hread.symm.trans hvs)
  have ha : Document.at? [("_id", .int32 2), ("a", .string "x")] "a" = some (.string "x") := rfl
  have hid : Document.at? [("_id", .int32 2), ("a", .string "x")] "_id" = some (.int32 2) := rfl
  obtain ⟨b, hb, hiff⟩ := hflat [("_id", .int32 2), ("a", .string "x")] (by
    intro col hcol xs
    rcases List.mem_cons.mp hcol with rfl | hcol
    · exact fun h => nomatch ha.symm.trans h
    · rw [List.mem_singleton.mp hcol]
      exact fun h => nomatch hid.symm.trans h)
  rw [hb, hiff.mpr ⟨[(⟨"a", .descending, none⟩, .string "x")], _, _, [], rfl, ?_, ?_⟩]
  · intro c hc
    rw [List.mem_singleton.mp hc]
    exact ⟨_, ha, rfl⟩
  · exact ⟨_, hid, rfl, by decide +kernel⟩

end Seek

end Keyset
