/-!
# Cutting a text

Cutting at every occurrence of a separator, and taking a given text off the front.  A cut always
has at least one part (`splitOn_ne_nil`), and a text with nothing to cut is its own only part.
-/

namespace Keyset.Text

/-- The parts of a text between the occurrences of a separator, which itself is left out. -/
def splitOn (sep : Char) : List Char → List (List Char)
  | [] => [[]]
  | c :: s =>
    if c = sep then
      [] :: splitOn sep s
    else
      match splitOn sep s with
      | [] => [[c]]
      | part :: parts => (c :: part) :: parts

theorem splitOn_ne_nil (sep : Char) (s : List Char) : splitOn sep s ≠ [] := by
  cases s with
  | nil => simp [splitOn]
  | cons c s =>
    unfold splitOn
    split
    · simp
    · split <;> simp

/-- What follows `lead` in a text that starts with it. -/
def after? : (lead s : List Char) → Option (List Char)
  | [], s => some s
  | _ :: _, [] => none
  | a :: lead, c :: s => if a = c then after? lead s else none

@[simp] theorem after?_append (lead s : List Char) : after? lead (lead ++ s) = some s := by
  induction lead with
  | nil => rfl
  | cons a lead ih => simp [after?, ih]

/-- What stands before and after the first occurrence of a separator. -/
def cutAt? (sep : Char) : List Char → Option (List Char × List Char)
  | [] => none
  | c :: s => if c = sep then some ([], s) else (cutAt? sep s).map fun (a, b) => (c :: a, b)

/-- The lines of a text: what stands between its line feeds. -/
def lines (s : List Char) : List (List Char) :=
  splitOn '\n' s

end Keyset.Text
