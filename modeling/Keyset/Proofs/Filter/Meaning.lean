import Keyset.Proofs.Filter

/-!
# What filters mean

A filter that is well-formed (`isWellFormed`) has a Boolean meaning on every document (`meaning`), and
that is what it evaluates to (`accepts_eq_meaning`).  No entry, no part of a combination and no operator
comes before another in the meaning, so that they can be put in any order, anywhere in the filter
(`Rearranged.accepts_eq`).
-/

namespace Keyset.Filter

/-! ### Operators -/

/-- Whether an operator can be used with an argument: a list of values is an array. -/
def Operator.takes : Operator → Value → Bool
  | .isIn, .array _ | .notIn, .array _ => true
  | .isIn, _ | .notIn, _ => false
  | _, _ => true

/-- Whether the value of a field has to an argument the relation of an operator. -/
def Operator.relates (field : Option Value) : Operator → Value → Bool
  | .eq, v => fieldEquals field v
  | .ne, v => !fieldEquals field v
  | .gt, v => fieldCompares Ordering.isGT field v
  | .gte, v => fieldCompares Ordering.isGE field v
  | .lt, v => fieldCompares Ordering.isLT field v
  | .lte, v => fieldCompares Ordering.isLE field v
  | .isIn, .array items => items.any (fieldEquals field)
  | .notIn, .array items => items.all fun v => !fieldEquals field v
  | .isIn, _ | .notIn, _ => false
  | .exists, v => field.isSome == v.truthy

theorem satisfies_eq_relates {name : String} {op : Operator} (hname : Operator.ofName? name = some op)
    {v : Value} (hv : op.takes v = true) (field : Option Value) :
    satisfies field name v = .ok (op.relates field v) := by
  unfold satisfies
  rw [hname]
  cases op with
  | isIn =>
    cases v with
    | array items => rfl
    | _ => cases hv
  | notIn =>
    cases v with
    | array items =>
      show Except.ok (!items.any (fieldEquals field)) = _
      rw [List.not_any_eq_all_not]
      rfl
    | _ => cases hv
  | _ => rfl

theorem isOperatorName_of_operator {name : String} {op : Operator}
    (h : Operator.ofName? name = some op) : isOperatorName name = true := by
  unfold Operator.ofName? at h
  split at h <;> first | rfl | cases h

/-- Whether all names of a document are those of operators, and the operators take their arguments. -/
def areOperators (ops : Document) : Bool :=
  ops.all fun op => (Operator.ofName? op.1).any (·.takes op.2)

theorem areOperators_cons {op : String × Value} {ops : Document} :
    areOperators (op :: ops) = true ↔
      (∃ operator, Operator.ofName? op.1 = some operator ∧ operator.takes op.2 = true) ∧
        areOperators ops = true := by
  rw [areOperators, List.all_cons, Bool.and_eq_true, Option.any_eq_true]
  rfl

/-- Whether a condition on a field can be evaluated: a document whose first name starts with `$` is one
of operators. -/
def isCondition (condition : Value) : Bool :=
  (operators? condition).all areOperators

/-- What a condition says about the value of a field: all that its operators say, or that the value is
equal to it. -/
def conditionMeaning (field : Option Value) (condition : Value) : Bool :=
  match operators? condition with
  | some ops => ops.all fun op => (Operator.ofName? op.1).any (·.relates field op.2)
  | none => fieldEquals field condition

theorem satisfiesAll_eq_all {ops : Document} (h : areOperators ops = true) (field : Option Value) :
    satisfiesAll field ops =
      .ok (ops.all fun op => (Operator.ofName? op.1).any (·.relates field op.2)) := by
  induction ops with
  | nil => rfl
  | cons op ops ih =>
    obtain ⟨⟨operator, hname, hop⟩, hops⟩ := areOperators_cons.mp h
    rw [satisfiesAll, satisfies_eq_relates hname hop, ih hops, List.all_cons, hname, Option.any_some]
    cases operator.relates field op.2 <;> rfl

theorem fieldMatches_eq_meaning {condition : Value} (h : isCondition condition = true)
    (field : Option Value) : fieldMatches field condition = .ok (conditionMeaning field condition) := by
  unfold isCondition at h
  unfold fieldMatches conditionMeaning
  cases hops : operators? condition with
  | none => rfl
  | some ops =>
    rw [hops] at h
    exact satisfiesAll_eq_all h field

/-! ### Filters -/

mutual

/-- Whether a filter is well-formed: under the name of a field it has a condition, and under any other
name, which is that of a connective, well-formed filters. -/
def isWellFormed : (filter : List (String × Value)) → Bool
  | [] => true
  | (name, condition) :: rest => isWellFormedEntry name condition && isWellFormed rest
termination_by structural filter => filter

/-- Whether an entry of a filter is well-formed. -/
def isWellFormedEntry (name : String) : (condition : Value) → Bool
  | .array items =>
    if isOperatorName name then (Connective.ofName? name).isSome && areWellFormed items else true
  | condition => !isOperatorName name && isCondition condition
termination_by structural condition => condition

/-- Whether all values are well-formed filters. -/
def areWellFormed : (items : List Value) → Bool
  | [] => true
  | .document filter :: rest => isWellFormed filter && areWellFormed rest
  | _ :: _ => false
termination_by structural items => items

end

mutual

/-- What a filter says about a document: all that its entries say. -/
def meaning (doc : Document) : (filter : List (String × Value)) → Bool
  | [] => true
  | (name, condition) :: rest => entryMeaning doc name condition && meaning doc rest
termination_by structural filter => filter

/-- What an entry of a filter says about a document. -/
def entryMeaning (doc : Document) (name : String) : (condition : Value) → Bool
  | .array items =>
    match Connective.ofName? name with
    | some connective => connective.combine (meanings doc items)
    | none => conditionMeaning (doc.at? name) (.array items)
  | condition => conditionMeaning (doc.at? name) condition
termination_by structural condition => condition

/-- What filters say about a document, one after the other. -/
def meanings (doc : Document) : (items : List Value) → List Bool
  | [] => []
  | .document filter :: rest => meaning doc filter :: meanings doc rest
  | _ :: rest => meanings doc rest
termination_by structural items => items

end

theorem isWellFormedEntry_field {name : String} (h : isOperatorName name = false)
    (condition : Value) : isWellFormedEntry name condition = isCondition condition := by
  unfold isWellFormedEntry
  split
  · rw [h]
    rfl
  · rw [h]
    rfl

theorem entryMeaning_field {name : String} (h : isOperatorName name = false) (doc : Document)
    (condition : Value) :
    entryMeaning doc name condition = conditionMeaning (doc.at? name) condition := by
  unfold entryMeaning
  split
  · rw [connective?_of_field h]
  · rfl

/-- Under a name that is not that of a field there are well-formed filters. -/
theorem exists_connective_of_isWellFormedEntry {name : String} (hname : isOperatorName name = true)
    {items : List Value} (h : isWellFormedEntry name (.array items) = true) :
    (∃ connective, Connective.ofName? name = some connective) ∧ areWellFormed items = true := by
  rw [isWellFormedEntry, if_pos hname, Bool.and_eq_true, Option.isSome_iff_exists] at h
  exact h

theorem acceptsEntry_field {name : String} (hname : isOperatorName name = false) (doc : Document)
    {condition : Value} (h : isWellFormedEntry name condition = true) :
    acceptsEntry doc name condition = .ok (entryMeaning doc name condition) := by
  rw [isWellFormedEntry_field hname] at h
  rw [← accepts_single, accepts_field hname, fieldMatches_eq_meaning h, entryMeaning_field hname]

mutual

/-- **A well-formed filter evaluates to its meaning.** -/
theorem accepts_eq_meaning (doc : Document) :
    ∀ filter : List (String × Value), isWellFormed filter = true →
      accepts doc filter = .ok (meaning doc filter)
  | [], _ => rfl
  | (name, condition) :: rest, h => by
    rw [isWellFormed, Bool.and_eq_true] at h
    have hentry := acceptsEntry_eq_meaning doc name condition h.1
    have hrest := accepts_eq_meaning doc rest h.2
    rw [accepts, hentry, hrest, meaning]
    -- an entry that is not met ends the evaluation, and makes the meaning false
    cases entryMeaning doc name condition <;> rfl

theorem acceptsEntry_eq_meaning (doc : Document) (name : String) :
    ∀ condition : Value, isWellFormedEntry name condition = true →
      acceptsEntry doc name condition = .ok (entryMeaning doc name condition)
  | condition, h => by
    cases hname : isOperatorName name with
    | false => exact acceptsEntry_field hname doc h
    | true =>
      cases condition with
      | array items =>
        obtain ⟨⟨connective, hconnective⟩, hitems⟩ := exists_connective_of_isWellFormedEntry hname h
        have houtcomes := outcomes_meanings doc items hitems
        rw [acceptsEntry_connective hconnective houtcomes, entryMeaning, hconnective]
      | _ =>
        rw [isWellFormedEntry, hname] at h
        · cases h
        · exact nofun

/-- Well-formed filters have their meanings as outcomes. -/
theorem outcomes_meanings (doc : Document) :
    ∀ items : List Value, areWellFormed items = true →
      List.Forall₂ (HasOutcome doc) items (meanings doc items)
  | [], _ => .nil
  | .document filter :: rest, h => by
    rw [areWellFormed, Bool.and_eq_true] at h
    exact .cons ⟨filter, rfl, accepts_eq_meaning doc filter h.1⟩ (outcomes_meanings doc rest h.2)

end

/-! ### Rearrangements -/

theorem isWellFormed_eq_all (filter : Document) :
    isWellFormed filter = filter.all fun entry => isWellFormedEntry entry.1 entry.2 := by
  induction filter with
  | nil => rfl
  | cons entry rest ih => rw [isWellFormed, List.all_cons, ih]

theorem meaning_eq_all (doc filter : Document) :
    meaning doc filter = filter.all fun entry => entryMeaning doc entry.1 entry.2 := by
  induction filter with
  | nil => rfl
  | cons entry rest ih => rw [meaning, List.all_cons, ih]

theorem areWellFormed_eq_all (items : List Value) :
    areWellFormed items = items.all fun v => v.document?.any isWellFormed := by
  induction items with
  | nil => rfl
  | cons v rest ih =>
    rw [List.all_cons, ← ih]
    cases v <;> rfl

theorem meanings_eq_filterMap (doc : Document) (items : List Value) :
    meanings doc items = items.filterMap fun v => v.document?.map (meaning doc) := by
  induction items with
  | nil => rfl
  | cons v rest ih =>
    rw [List.filterMap_cons, ← ih]
    cases v <;> rfl

theorem Connective.combine_perm (connective : Connective) {bs cs : List Bool} (h : bs.Perm cs) :
    connective.combine bs = connective.combine cs := by
  cases connective with
  | and => exact h.all_eq
  | or => exact h.any_eq
  | nor => exact h.all_eq

section

variable {name : String} {connective : Connective} (hname : Connective.ofName? name = some connective)
include hname

theorem isOperatorName_of_connective : isOperatorName name = true := by
  cases h : isOperatorName name with
  | true => rfl
  | false =>
    rw [connective?_of_field h] at hname
    cases hname

theorem isWellFormedEntry_connective (items : List Value) :
    isWellFormedEntry name (.array items) = areWellFormed items := by
  rw [isWellFormedEntry, if_pos (isOperatorName_of_connective hname), hname, Option.isSome_some,
    Bool.true_and]

theorem entryMeaning_connective (doc : Document) (items : List Value) :
    entryMeaning doc name (.array items) = connective.combine (meanings doc items) := by
  rw [entryMeaning, hname]

end

/-- A document of operators is one in any order. -/
theorem operators?_of_areOperators {ops : Document} (h : areOperators ops = true) (hne : ops ≠ []) :
    operators? (.document ops) = some ops := by
  cases ops with
  | nil => exact absurd rfl hne
  | cons op ops =>
    obtain ⟨⟨operator, hname, -⟩, -⟩ := areOperators_cons.mp h
    rw [operators?, if_pos (isOperatorName_of_operator hname)]

theorem condition_perm {ops ops' : Document} (hops : operators? (.document ops) = some ops)
    (h : isCondition (.document ops) = true) (hperm : ops.Perm ops') :
    isCondition (.document ops') = true ∧
      ∀ field, conditionMeaning field (.document ops') = conditionMeaning field (.document ops) := by
  have hare : areOperators ops' = true := by
    rw [isCondition, hops, Option.all_some] at h
    rw [areOperators, ← hperm.all_eq]
    exact h
  have hops' : operators? (.document ops') = some ops' := by
    apply operators?_of_areOperators hare
    rintro rfl
    rw [hperm.eq_nil] at hops
    cases hops
  constructor
  · rw [isCondition, hops']
    exact hare
  · intro field
    unfold conditionMeaning
    rw [hops, hops']
    exact hperm.symm.all_eq

/-- One filter is another one with its entries, the parts of a combination or the operators of a
condition in another order, or with a part that is so rearranged; and so on, step by step. -/
inductive Rearranged : Document → Document → Prop
  | entries {f g : Document} : f.Perm g → Rearranged f g
  | parts {name : String} {connective : Connective} {items items' : List Value} {rest : Document} :
    Connective.ofName? name = some connective → items.Perm items' →
      Rearranged ((name, .array items) :: rest) ((name, .array items') :: rest)
  | operators {name : String} {ops ops' rest : Document} :
    operators? (.document ops) = some ops → ops.Perm ops' →
      Rearranged ((name, .document ops) :: rest) ((name, .document ops') :: rest)
  | part {name : String} {connective : Connective} {f g : Document} {items : List Value}
    {rest : Document} :
    Connective.ofName? name = some connective → Rearranged f g →
      Rearranged ((name, .array (.document f :: items)) :: rest)
        ((name, .array (.document g :: items)) :: rest)
  | trans {f g h : Document} : Rearranged f g → Rearranged g h → Rearranged f h

/-- A first entry may be replaced by one that is well-formed and says the same. -/
theorem meaning_replace {name : String} {v w : Value} {rest : Document}
    (hv : isWellFormed ((name, v) :: rest) = true)
    (h : isWellFormedEntry name v = true → isWellFormedEntry name w = true ∧
      ∀ doc, entryMeaning doc name w = entryMeaning doc name v) :
    isWellFormed ((name, w) :: rest) = true ∧
      ∀ doc, meaning doc ((name, w) :: rest) = meaning doc ((name, v) :: rest) := by
  rw [isWellFormed, Bool.and_eq_true] at hv
  obtain ⟨hw, hsame⟩ := h hv.1
  constructor
  · rw [isWellFormed, hw, hv.2]
    rfl
  · intro doc
    rw [meaning, meaning, hsame]

/-- A rearranged filter is well-formed, and it means the same. -/
theorem Rearranged.meaning_eq {f g : Document} (h : Rearranged f g) (hf : isWellFormed f = true) :
    isWellFormed g = true ∧ ∀ doc, meaning doc g = meaning doc f := by
  induction h with
  | entries hperm =>
    constructor
    · rw [isWellFormed_eq_all] at hf ⊢
      rw [← hperm.all_eq]
      exact hf
    · intro doc
      rw [meaning_eq_all, meaning_eq_all]
      exact hperm.symm.all_eq
  | parts hname hperm =>
    refine meaning_replace hf fun hitems => ?_
    rw [isWellFormedEntry_connective hname, areWellFormed_eq_all] at hitems ⊢
    constructor
    · rw [← hperm.all_eq]
      exact hitems
    · intro doc
      rw [entryMeaning_connective hname, entryMeaning_connective hname, meanings_eq_filterMap,
        meanings_eq_filterMap]
      exact Connective.combine_perm _ (hperm.symm.filterMap _)
  | @operators name ops ops' rest hops hperm =>
    refine meaning_replace hf fun hcondition => ?_
    cases hname : isOperatorName name with
    | true =>
      rw [isWellFormedEntry, hname] at hcondition
      · cases hcondition
      · exact nofun
    | false =>
      rw [isWellFormedEntry_field hname] at hcondition ⊢
      obtain ⟨hcondition', hsame⟩ := condition_perm hops hcondition hperm
      refine ⟨hcondition', fun doc => ?_⟩
      rw [entryMeaning_field hname, entryMeaning_field hname, hsame]
  | part hname _ ih =>
    refine meaning_replace hf fun hitems => ?_
    rw [isWellFormedEntry_connective hname, areWellFormed, Bool.and_eq_true] at hitems ⊢
    obtain ⟨hg, hsame⟩ := ih hitems.1
    refine ⟨⟨hg, hitems.2⟩, fun doc => ?_⟩
    rw [entryMeaning_connective hname, entryMeaning_connective hname, meanings, meanings, hsame]
  | trans _ _ ihfg ihgh =>
    obtain ⟨hg, hfg⟩ := ihfg hf
    obtain ⟨hh, hgh⟩ := ihgh hg
    exact ⟨hh, fun doc => (hgh doc).trans (hfg doc)⟩

theorem Rearranged.accepts_eq {f g : Document} (h : Rearranged f g) (hf : isWellFormed f = true)
    (doc : Document) : accepts doc g = accepts doc f := by
  obtain ⟨hg, hsame⟩ := h.meaning_eq hf
  rw [accepts_eq_meaning doc f hf, accepts_eq_meaning doc g hg, hsame]

/-! ### Filters on one document -/

/-- The first entry that is not met ends the search for it. -/
theorem findsOutcome_entries (doc filter : Document) :
    findsOutcome doc false (filter.map fun entry => .document [entry]) =
      (accepts doc filter).map not := by
  induction filter with
  | nil => rfl
  | cons entry rest ih =>
    obtain ⟨name, condition⟩ := entry
    rw [List.map_cons, findsOutcome, accepts_single, accepts]
    cases acceptsEntry doc name condition with
    | error e => rfl
    | ok b =>
      cases b with
      | false => rfl
      | true => exact ih

/-- A filter is the conjunction of its entries, whether or not it can be evaluated. -/
theorem accepts_entries (doc filter : Document) :
    accepts doc [("$and", .array (filter.map fun entry => .document [entry]))] =
      accepts doc filter := by
  have hname : Connective.ofName? "$and" = some .and := rfl
  have hdocuments : allDocuments (filter.map fun entry => .document [entry]) = true := by
    unfold allDocuments
    rw [List.all_map, List.all_eq_true]
    exact fun _ _ => rfl
  rw [accepts_single, acceptsEntry, hname]
  simp only [hdocuments, if_true, findsOutcome_entries]
  cases accepts doc filter with
  | error e => rfl
  | ok b => cases b <;> rfl

theorem accepts_connective {name : String} {connective : Connective}
    (hname : Connective.ofName? name = some connective) {items : List Value}
    (hitems : areWellFormed items = true) (doc : Document) :
    accepts doc [(name, .array items)] = .ok (connective.combine (meanings doc items)) := by
  rw [accepts_single]
  exact acceptsEntry_connective hname (outcomes_meanings doc items hitems)

theorem accepts_operator {name : String} {op : Operator} (hname : Operator.ofName? name = some op)
    {v : Value} (hv : op.takes v = true) {path : String} (hpath : isOperatorName path = false)
    (doc : Document) :
    accepts doc [(path, .document [(name, v)])] = .ok (op.relates (doc.at? path) v) := by
  rw [accepts_field hpath, fieldMatches_operator (isOperatorName_of_operator hname),
    satisfies_eq_relates hname hv]

/-- Filters on a document are Boolean expressions. -/
structure ReadsBoolean (doc : Document) : Prop where
  /-- A well-formed filter evaluates to its meaning. -/
  outcome : ∀ filter, isWellFormed filter = true → accepts doc filter = .ok (meaning doc filter)
  /-- The order of entries, of parts and of operators does not matter. -/
  rearranged : ∀ f g, isWellFormed f = true → Rearranged f g → accepts doc g = accepts doc f
  /-- A filter is the conjunction of its entries. -/
  entries : ∀ filter : Document,
    accepts doc [("$and", .array (filter.map fun entry => .document [entry]))] = accepts doc filter
  /-- None of the parts of a filter holds exactly if it is not so that some holds. -/
  nor_not_or : ∀ items, areWellFormed items = true → ∃ b,
    accepts doc [("$or", .array items)] = .ok b ∧ accepts doc [("$nor", .array items)] = .ok (!b)
  /-- Inequality is the negation of equality. -/
  ne_not_eq : ∀ path v, isOperatorName path = false → ∃ b,
    accepts doc [(path, .document [("$eq", v)])] = .ok b ∧
      accepts doc [(path, .document [("$ne", v)])] = .ok (!b)
  /-- To be in a list is to be equal to one of its values, and to be in none is the negation. -/
  nin_not_in : ∀ path values, isOperatorName path = false → ∃ b,
    accepts doc [(path, .document [("$in", .array values)])] = .ok b ∧
      accepts doc [(path, .document [("$nin", .array values)])] = .ok (!b) ∧
      (b = true ↔ ∃ v ∈ values, accepts doc [(path, .document [("$eq", v)])] = .ok true)

/-- **Filters are Boolean expressions** on every document. -/
theorem readsBoolean (doc : Document) : ReadsBoolean doc where
  outcome := accepts_eq_meaning doc
  rearranged := fun _ _ hf h => h.accepts_eq hf doc
  entries := accepts_entries doc
  nor_not_or := by
    intro items hitems
    have hor : Connective.ofName? "$or" = some .or := rfl
    have hnor : Connective.ofName? "$nor" = some .nor := rfl
    refine ⟨_, accepts_connective hor hitems doc, ?_⟩
    rw [accepts_connective hnor hitems doc, Connective.combine, Connective.combine,
      List.not_any_eq_all_not]
    rfl
  ne_not_eq := by
    intro path v hpath
    have heq : Operator.ofName? "$eq" = some .eq := rfl
    have hne : Operator.ofName? "$ne" = some .ne := rfl
    exact ⟨_, accepts_operator heq rfl hpath doc, accepts_operator hne rfl hpath doc⟩
  nin_not_in := by
    intro path values hpath
    have heq : Operator.ofName? "$eq" = some .eq := rfl
    have hin : Operator.ofName? "$in" = some .isIn := rfl
    have hnin : Operator.ofName? "$nin" = some .notIn := rfl
    refine ⟨_, accepts_operator hin rfl hpath doc, ?_, ?_⟩
    · rw [accepts_operator hnin rfl hpath doc, Operator.relates, Operator.relates,
        List.not_any_eq_all_not]
    · rw [Operator.relates, List.any_eq_true]
      have hvalue : ∀ v, accepts doc [(path, .document [("$eq", v)])] = .ok true ↔
          fieldEquals (doc.at? path) v = true := by
        intro v
        rw [accepts_operator heq rfl hpath doc, Except.ok.injEq]
        rfl
      simp only [hvalue]

/-- A filter with nested parts, and the same in another order. -/
theorem readsBoolean_nested :
    let doc : Document := [("n", .int32 2), ("tags", .array [.string "a", .string "b"])]
    let range : Document := [("$gt", .int32 1), ("$nin", .array [.int32 3])]
    let missing : Value := .document [("x", .null)]
    let tagged : Value := .document [("$nor", .array [.document [("tags", .string "a")]])]
    let filter : Document := [("n", .document range), ("$or", .array [tagged, missing])]
    let other : Document := [("$or", .array [missing, tagged]), ("n", .document range.reverse)]
    isWellFormed filter = true ∧ accepts doc filter = .ok true ∧ accepts doc other = .ok true ∧
      accepts doc [("$and", .array [.document [("n", .document range)],
        .document [("$or", .array [tagged, missing])]])] = .ok true := by
  intro doc range missing tagged filter other
  have hwell : isWellFormed filter = true := by decide
  have hmeaning : meaning doc filter = true := by decide +kernel
  have hrearranged : Rearranged filter other := by
    have hor : Connective.ofName? "$or" = some .or := rfl
    have hrange : operators? (.document range) = some range := rfl
    apply Rearranged.trans (.operators hrange (List.reverse_perm range).symm)
    apply Rearranged.trans (.entries (.swap _ _ []))
    exact .parts hor (.swap _ _ [])
  obtain ⟨houtcome, hrearrange, hentries, -, -, -⟩ := readsBoolean doc
  have haccepts : accepts doc filter = .ok true := (houtcome filter hwell).trans (congrArg _ hmeaning)
  exact ⟨hwell, haccepts, (hrearrange filter other hwell hrearranged).trans haccepts,
    (hentries filter).trans haccepts⟩

end Keyset.Filter
