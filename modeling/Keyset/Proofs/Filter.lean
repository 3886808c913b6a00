import Keyset.Filter
import Mathlib.Data.List.Forall2

/-!
# What filters select

A condition on one field is about the value at its path (`accepts_field`), and a combination whose
parts can be evaluated combines their outcomes (`acceptsEntry_connective`).  A filter that can be
evaluated on all documents selects those on which it holds (`select_eq_ok_iff`).
-/

namespace Keyset.Filter

/-! ### One entry -/

theorem connective?_of_field {name : String} (h : isOperatorName name = false) :
    Connective.ofName? name = none := by
  unfold Connective.ofName?
  split
  · exact absurd h (by decide)
  · exact absurd h (by decide)
  · exact absurd h (by decide)
  · rfl

theorem accepts_single (doc : Document) (name : String) (condition : Value) :
    accepts doc [(name, condition)] = acceptsEntry doc name condition := by
  rw [accepts]
  cases acceptsEntry doc name condition with
  | error e => rfl
  | ok b => cases b <;> rfl

/-- A condition under the name of a field is about the value at that path. -/
theorem accepts_field {name : String} (h : isOperatorName name = false) (doc : Document)
    (condition : Value) :
    accepts doc [(name, condition)] = fieldMatches (doc.at? name) condition := by
  have hconnective := connective?_of_field h
  rw [accepts_single]
  unfold acceptsEntry
  split
  · rw [hconnective]
    simp only [h, Bool.false_eq_true, if_false]
  · rw [hconnective]
    simp only [h, Option.isSome_none, Bool.false_eq_true, if_false]

/-- A value that is no document is what a field must be equal to. -/
theorem fieldMatches_of_not_document {condition : Value} (h : condition.document? = none)
    (field : Option Value) : fieldMatches field condition = .ok (fieldEquals field condition) := by
  have hoperators : operators? condition = none := by
    cases condition <;> first | rfl | cases h
  rw [fieldMatches, hoperators]

/-- A single operator is a condition by itself. -/
theorem fieldMatches_operator {name : String} (h : isOperatorName name = true)
    (field : Option Value) (argument : Value) :
    fieldMatches field (.document [(name, argument)]) = satisfies field name argument := by
  have hoperators : operators? (.document [(name, argument)]) = some [(name, argument)] := by
    rw [operators?, if_pos h]
  rw [fieldMatches, hoperators]
  simp only [satisfiesAll]
  cases satisfies field name argument with
  | error e => rfl
  | ok b => cases b <;> rfl

/-! ### Combinations -/

/-- A value that is a filter with an outcome on a document. -/
def HasOutcome (doc : Document) (v : Value) (b : Bool) : Prop :=
  ∃ filter, v = .document filter ∧ accepts doc filter = .ok b

theorem allDocuments_of_outcomes {doc : Document} {items : List Value} {bs : List Bool}
    (h : List.Forall₂ (HasOutcome doc) items bs) : allDocuments items = true := by
  induction h with
  | nil => rfl
  | cons hv _ ih =>
    obtain ⟨filter, rfl, -⟩ := hv
    exact ih

theorem findsOutcome_of_outcomes {doc : Document} {items : List Value} {bs : List Bool}
    (wanted : Bool) (h : List.Forall₂ (HasOutcome doc) items bs) :
    findsOutcome doc wanted items = .ok (bs.contains wanted) := by
  induction h with
  | nil => rfl
  | @cons v b items bs hv _ ih =>
    obtain ⟨filter, rfl, haccepts⟩ := hv
    rw [findsOutcome, haccepts]
    -- the first outcome that is wanted ends the search
    by_cases hb : b = wanted
    · simp [hb]
    · have hne : wanted ≠ b := fun h => hb h.symm
      simp [hb, hne, ih]

/-- What a connective makes of the outcomes of its parts. -/
def Connective.combine (outcomes : List Bool) : Connective → Bool
  | .and => outcomes.all id
  | .or => outcomes.any id
  | .nor => outcomes.all not

/-- A combination of parts that have outcomes combines the outcomes. -/
theorem acceptsEntry_connective {name : String} {connective : Connective}
    (hname : Connective.ofName? name = some connective) {doc : Document} {items : List Value}
    {bs : List Bool} (h : List.Forall₂ (HasOutcome doc) items bs) :
    acceptsEntry doc name (.array items) = .ok (connective.combine bs) := by
  have hall : (!bs.contains false) = bs.all id := by
    rw [List.contains_eq_any_beq, List.not_any_eq_all_not]
    congr 1
    funext b
    cases b <;> rfl
  have hany : bs.contains true = bs.any id := by
    rw [List.contains_eq_any_beq]
    congr 1
    funext b
    cases b <;> rfl
  rw [acceptsEntry, hname]
  simp only [allDocuments_of_outcomes h, if_true]
  cases connective with
  | and =>
    rw [findsOutcome_of_outcomes false h, Connective.combine, ← hall]
    rfl
  | or => rw [findsOutcome_of_outcomes true h, hany, Connective.combine]
  | nor =>
    rw [findsOutcome_of_outcomes true h, hany, Connective.combine, ← List.not_any_eq_all_not]
    rfl

/-- A document is in a conjunction if it is in all parts. -/
theorem accepts_and {doc : Document} {items : List Value} {bs : List Bool}
    (h : List.Forall₂ (HasOutcome doc) items bs) :
    accepts doc [("$and", .array items)] = .ok (bs.all id) := by
  have hname : Connective.ofName? "$and" = some .and := rfl
  rw [accepts_single]
  exact acceptsEntry_connective hname h

/-- A document is in a disjunction if it is in some part. -/
theorem accepts_or {doc : Document} {items : List Value} {bs : List Bool}
    (h : List.Forall₂ (HasOutcome doc) items bs) :
    accepts doc [("$or", .array items)] = .ok (bs.any id) := by
  have hname : Connective.ofName? "$or" = some .or := rfl
  rw [accepts_single]
  exact acceptsEntry_connective hname h

/-! ### Selections -/

/-- Whether a filter can be evaluated on a document and accepts it. -/
def holds (filter doc : Document) : Bool :=
  match accepts doc filter with
  | .ok b => b
  | .error _ => false

/-- Whether a filter can be evaluated on a document. -/
def Evaluates (filter doc : Document) : Prop :=
  ∃ b, accepts doc filter = .ok b

theorem accepts_eq_holds {filter doc : Document} (h : Evaluates filter doc) :
    accepts doc filter = .ok (holds filter doc) := by
  obtain ⟨b, hb⟩ := h
  rw [holds, hb]

theorem holds_of_accepts {filter doc : Document} {b : Bool} (h : accepts doc filter = .ok b) :
    holds filter doc = b := by
  rw [holds, h]

/-- A selection succeeds exactly when the filter can be evaluated on all documents, and it keeps
those on which it holds. -/
theorem select_eq_ok_iff {filter : Document} {docs out : List Document} :
    select filter docs = .ok out ↔
      (∀ d ∈ docs, Evaluates filter d) ∧ out = docs.filter (holds filter) := by
  induction docs generalizing out with
  | nil => simp [select, eq_comm]
  | cons d docs ih =>
    have hcons : (d :: docs).filter (holds filter) =
        if holds filter d then d :: docs.filter (holds filter) else docs.filter (holds filter) :=
      List.filter_cons
    rw [select, bind_eq_ok_iff, List.forall_mem_cons, hcons]
    constructor
    · rintro ⟨b, hb, h⟩
      obtain ⟨rest, hrest, h⟩ := bind_eq_ok_iff.mp h
      obtain ⟨hevaluates, rfl⟩ := ih.mp hrest
      rw [holds_of_accepts hb]
      exact ⟨⟨⟨b, hb⟩, hevaluates⟩, (Except.ok.inj h).symm⟩
    · rintro ⟨⟨⟨b, hb⟩, hevaluates⟩, rfl⟩
      refine ⟨b, hb, bind_eq_ok_iff.mpr ⟨_, ih.mpr ⟨hevaluates, rfl⟩, ?_⟩⟩
      rw [holds_of_accepts hb]
      rfl

end Keyset.Filter
