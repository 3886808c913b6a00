import Keyset.Text.Numeral

/-!
# Errors

An error says what is wrong as a value; `Error.kind` is the class that callers act on, and
`Error.message?` the text that people read.  A text that does not conform to a format (JSON, a
wrapper, a record) has a kind but no message: where it goes wrong is the reader's affair.
-/

namespace Keyset

/-- The classes of errors. -/
inductive ErrorKind where
  | malformedInput
  | missingOperation
  | unsupportedOperation
  | missingParameter
  | typeMismatch
  | cursorInvalid
  | cancelled
  | backendError
deriving DecidableEq, Repr

/-- The name of a class of errors. -/
def ErrorKind.name : ErrorKind → String
  | .malformedInput => "malformed-input"
  | .missingOperation => "missing-operation"
  | .unsupportedOperation => "unsupported-operation"
  | .missingParameter => "missing-parameter"
  | .typeMismatch => "type-mismatch"
  | .cursorInvalid => "cursor-invalid"
  | .cancelled => "cancelled"
  | .backendError => "backend-error"

/-- The options that a query understands. -/
inductive OptionName where
  | limit
  | skip
  | sort
  | projection
  | sampleSize
  | collections
deriving DecidableEq, Repr

namespace OptionName

/-- The name under which an option is given. -/
def name : OptionName → String
  | .limit => "limit"
  | .skip => "skip"
  | .sort => "sort"
  | .projection => "projection"
  | .sampleSize => "sample_size"
  | .collections => "collections"

/-- What the value of an option must be. -/
def requirement : OptionName → String
  | .limit => "an integer"
  | .skip => "a non-negative integer"
  | .sort => "an object"
  | .projection => "an object"
  | .sampleSize => "a positive integer"
  | .collections => "a list of names"

end OptionName

/-- What is wrong with an input. -/
inductive Malformed where
  /-- The text is not JSON. -/
  | notJson
  /-- The query is not an object. -/
  | notAnObject
  /-- A field of the query does not have its shape. -/
  | wrongShape
  /-- An object with the name of a wrapper is not that wrapper. -/
  | badWrapper
  /-- An option does not have the value that it needs. -/
  | badOption (option : OptionName)
  /-- A wrapper of the named type stands where a document must. -/
  | notADocument (typeName : String)
  /-- The seed is not an object. -/
  | seedShape
  /-- A collection of the seed is not an array. -/
  | seedCollection (name : String)
  /-- A collection of the seed holds something that is not an object. -/
  | seedEntry (name : String)
deriving DecidableEq, Repr

/-- What is wrong, in words; faults of a text's format have none. -/
def Malformed.detail? : Malformed → Option String
  | .notJson => none
  | .notAnObject => some "query must be a JSON object"
  | .wrongShape => none
  | .badWrapper => none
  | .badOption option => some s!"option '{option.name}' must be {option.requirement}"
  | .notADocument typeName => some s!"expected a document, got {typeName}"
  | .seedShape => some "seed must map collection names to document arrays"
  | .seedCollection name => some s!"seed collection '{name}' must be an array"
  | .seedEntry name => some s!"seed collection '{name}' contains a non-object"

/-- What is wrong with a cursor. -/
inductive CursorFault where
  /-- The part before the values is no query site. -/
  | badSite (text : String)
  /-- The cursor was issued for another query site. -/
  | otherSite (issued expected : UInt64)
  /-- The query orders by no column. -/
  | noColumns
  /-- The cursor has another number of values than the query has columns. -/
  | valueCount (expected found : Nat)
deriving DecidableEq, Repr

/-- What is wrong with a cursor, in words. -/
def CursorFault.detail : CursorFault → String
  | .badSite text => s!"bad select id '{text}'"
  | .otherSite issued expected =>
    s!"issued for select {issued.toNat}, not {expected.toNat}"
  | .noColumns => "no order_by columns"
  | .valueCount expected found => s!"expected {expected} values, found {found}"

/-- What a store can find wrong with a request, or fail at by itself. -/
inductive StoreFault where
  /-- A connective of filters combines something that is not a document. -/
  | needsDocuments (operator : String)
  /-- An operator needs an array. -/
  | needsArray (operator : String)
  /-- An operator is not known. -/
  | unsupportedOperator (operator : String)
  /-- A stage does not have exactly one field. -/
  | stageSize
  /-- A stage needs a count. -/
  | needsCount (stage : String)
  /-- A stage is not known, or has not the kind of argument that it needs. -/
  | unsupportedStage (stage : String)
  /-- The store failed by itself. -/
  | failure (text : String)
deriving DecidableEq, Repr

/-- What a store reports, in words. -/
def StoreFault.detail : StoreFault → String
  | .needsDocuments operator => s!"{operator} entries must be documents"
  | .needsArray operator => s!"{operator} needs an array"
  | .unsupportedOperator operator => s!"unsupported query operator {operator}"
  | .stageSize => "pipeline stage must have exactly one field"
  | .needsCount stage => s!"{stage} needs a non-negative integer"
  | .unsupportedStage stage => s!"unsupported pipeline stage {stage}"
  | .failure text => text

/-- The errors of queries. -/
inductive Error where
  | malformed (what : Malformed)
  | missingOperation
  | missingCollection
  | unsupportedOperation (name : String)
  /-- A placeholder names an argument that was not given. -/
  | missingParameter (index provided : Nat)
  /-- A value of a cursor is not an integer. -/
  | notAnInteger (text column : String)
  /-- A value of a cursor is not a finite number. -/
  | notANumber (text column : String)
  | cursor (what : CursorFault)
  | cancelled
  | store (what : StoreFault)
deriving DecidableEq, Repr

namespace Error

/-- The class of an error. -/
def kind : Error → ErrorKind
  | .malformed _ => .malformedInput
  | .missingOperation => .missingOperation
  | .missingCollection => .missingOperation
  | .unsupportedOperation _ => .unsupportedOperation
  | .missingParameter _ _ => .missingParameter
  | .notAnInteger _ _ => .typeMismatch
  | .notANumber _ _ => .typeMismatch
  | .cursor _ => .cursorInvalid
  | .cancelled => .cancelled
  | .store _ => .backendError

/-- The text of an error. -/
def message? : Error → Option String
  | .malformed what => what.detail?.map fun detail => s!"Malformed input: {detail}"
  | .missingOperation => some "Missing operation"
  | .missingCollection => some "Missing required field 'collection'"
  | .unsupportedOperation name => some s!"Unsupported operation: {name}"
  | .missingParameter index provided =>
    some s!"Missing parameter ${index}: only {provided} argument(s) supplied"
  | .notAnInteger text column =>
    some s!"Type mismatch: cursor value '{text}' for column '{column}' is not an integer"
  | .notANumber text column =>
    some s!"Type mismatch: cursor value '{text}' for column '{column}' is not a number"
  | .cursor what => some s!"Invalid cursor: {what.detail}"
  | .cancelled => some "Operation cancelled"
  | .store what => some s!"Backend error: {what.detail}"

end Error

/-! ### Outcomes -/

/-- Two actions that may fail, one after the other, succeed when both do. -/
theorem bind_eq_ok_iff {ε α β : Type} {x : Except ε α} {f : α → Except ε β} {b : β} :
    x >>= f = .ok b ↔ ∃ a, x = .ok a ∧ f a = .ok b := by
  cases x with
  | error e =>
    constructor
    · intro h
      cases h
    · rintro ⟨a, h, -⟩
      cases h
  | ok a =>
    constructor
    · exact fun h => ⟨a, rfl, h⟩
    · rintro ⟨a', h, hb⟩
      obtain rfl := Except.ok.inj h
      exact hb

/-- They fail when the first does, or the second after it. -/
theorem bind_eq_error_iff {ε α β : Type} {x : Except ε α} {f : α → Except ε β} {e : ε} :
    x >>= f = .error e ↔ x = .error e ∨ ∃ a, x = .ok a ∧ f a = .error e := by
  cases x with
  | error e' =>
    constructor
    · intro h
      obtain rfl := Except.error.inj h
      exact .inl rfl
    · rintro (h | ⟨a, h, -⟩)
      · obtain rfl := Except.error.inj h
        rfl
      · cases h
  | ok a =>
    constructor
    · exact fun h => .inr ⟨a, rfl, h⟩
    · rintro (h | ⟨a', h, he⟩)
      · cases h
      · obtain rfl := Except.ok.inj h
        exact he

/-- An action whose result is only changed succeeds when it does. -/
theorem map_eq_ok_iff {ε α β : Type} {x : Except ε α} {f : α → β} {b : β} :
    x.map f = .ok b ↔ ∃ a, x = .ok a ∧ f a = b := by
  cases x <;> simp [Except.map]

/-- It fails as the action does. -/
theorem map_eq_error_iff {ε α β : Type} {x : Except ε α} {f : α → β} {e : ε} :
    x.map f = .error e ↔ x = .error e := by
  cases x <;> simp [Except.map]

/-- Loops of the same checks have the same outcome. -/
theorem forM_congr {ε α : Type} {f g : α → Except ε Unit} {xs : List α}
    (h : ∀ x ∈ xs, f x = g x) : xs.forM f = xs.forM g := by
  induction xs with
  | nil => rfl
  | cons x xs ih =>
    obtain ⟨hx, hxs⟩ := List.forall_mem_cons.mp h
    rw [show (x :: xs).forM f = f x >>= fun _ => xs.forM f from List.forM_cons, hx, ih hxs]
    exact List.forM_cons.symm

/-- A loop of checks succeeds when each of them does. -/
theorem forM_eq_ok_iff {ε α : Type} {f : α → Except ε Unit} {xs : List α} :
    xs.forM f = .ok () ↔ ∀ x ∈ xs, f x = .ok () := by
  induction xs with
  | nil => simp [pure, Except.pure]
  | cons x xs ih =>
    have hcons : (x :: xs).forM f = f x >>= fun _ => xs.forM f := List.forM_cons
    rw [hcons, bind_eq_ok_iff, List.forall_mem_cons, ih]
    exact ⟨fun ⟨_, hx, hxs⟩ => ⟨hx, hxs⟩, fun ⟨hx, hxs⟩ => ⟨(), hx, hxs⟩⟩

/-- It fails as the first of them that fails. -/
theorem forM_eq_error_iff {ε α : Type} {f : α → Except ε Unit} {xs : List α} {e : ε} :
    xs.forM f = .error e ↔ ∃ before x after, xs = before ++ x :: after ∧
      (∀ y ∈ before, f y = .ok ()) ∧ f x = .error e := by
  constructor
  · intro h
    induction xs with
    | nil => cases h
    | cons x xs ih =>
      have hcons : (x :: xs).forM f = f x >>= fun _ => xs.forM f := List.forM_cons
      rw [hcons] at h
      rcases bind_eq_error_iff.mp h with hx | ⟨_, hx, hxs⟩
      · exact ⟨[], x, xs, rfl, nofun, hx⟩
      · obtain ⟨before, y, after, rfl, hbefore, hy⟩ := ih hxs
        exact ⟨x :: before, y, after, rfl, List.forall_mem_cons.mpr ⟨hx, hbefore⟩, hy⟩
  · rintro ⟨before, x, after, rfl, hbefore, hx⟩
    have happend : (before ++ x :: after).forM f =
        before.forM f >>= fun _ => f x >>= fun _ => after.forM f :=
      List.forM_append.trans (congrArg _ (funext fun _ => List.forM_cons))
    rw [happend, forM_eq_ok_iff.mpr hbefore, hx]
    rfl

end Keyset
