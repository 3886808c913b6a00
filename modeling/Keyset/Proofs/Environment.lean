import Keyset.Environment
import Keyset.Proofs.Fields

/-!
# Variables of the environment and of a file

A file of variables makes assignments up to its first fault, each read under the variables that are set
by then (`assigned`).  After it was loaded, a variable has the value that it had before, or the first
one that the file assigns if it was not set (`get?_load`).
-/

namespace Keyset.Environment

/-- The assignments among texts, up to the first fault. -/
def assignedIn (vars : Variables) : List (Option (List Char)) → Fields String
  | [] => []
  | none :: _ => []
  | some text :: rest =>
    match readAssignment? vars text with
    | none => []
    | some none => assignedIn vars rest
    | some (some (name, value)) => (name, value) :: assignedIn (setDefault vars name value) rest

/-- A text without a byte order mark. -/
def withoutMark (s : List Char) : List Char :=
  match s with
  | '\ufeff' :: s => s
  | s => s

/-- The assignments that a file makes, in order; a name may be assigned more than once. -/
def assigned (vars : Variables) (text : String) : Fields String :=
  assignedIn vars (assignments [] .plain (withBreaks (Text.lines (withoutMark text.toList))))

/-- A variable that is set keeps its value. -/
theorem get?_setDefault (vars : Variables) (name value other : String) :
    (setDefault vars name value).get? other =
      (vars.get? other).or (if name = other then some value else none) := by
  unfold setDefault Fields.has
  cases hvalue : vars.get? name with
  | some v =>
    rw [Option.isSome_some, if_pos rfl]
    split_ifs with ho
    · subst ho
      rw [hvalue]
      rfl
    · exact Option.or_none.symm
  | none =>
    rw [Option.isSome_none, if_neg Bool.false_ne_true, Fields.get?_put]
    split_ifs with ho
    · subst ho
      rw [hvalue]
      rfl
    · exact Option.or_none.symm

theorem get?_loadAssignments (vars : Variables) (texts : List (Option (List Char)))
    (name : String) : (loadAssignments vars texts).get? name =
      (vars.get? name).or ((assignedIn vars texts).get? name) := by
  induction texts generalizing vars with
  | nil => exact Option.or_none.symm
  | cons text rest ih =>
    cases text with
    | none => exact Option.or_none.symm
    | some text =>
      rw [loadAssignments, assignedIn]
      cases readAssignment? vars text with
      | none => exact Option.or_none.symm
      | some assignment =>
        cases assignment with
        | none => exact ih vars
        | some assignment =>
          -- an earlier assignment of the name comes before later ones
          rw [ih, get?_setDefault, Option.or_assoc, Fields.get?]
          split_ifs <;> rfl

/-- Loading a file sets the variables that are not set, each to the first value that it is assigned. -/
theorem get?_load (vars : Variables) (text name : String) :
    (load vars text).get? name = (vars.get? name).or ((assigned vars text).get? name) :=
  get?_loadAssignments vars _ name

end Keyset.Environment
