import Keyset.Fields
import Keyset.Text.Alphanumeric
import Keyset.Text.Blank
import Keyset.Text.Split

/-!
# Environment variables and files of them

A file of variables has one assignment to a line, such as `NAME=value` or `export NAME="a value"`.
Quotes may span lines.  Between double quotes and outside of quotes a backslash escapes the next
character, and `$NAME` or `${NAME}` stands for the value of a variable that is set by then.  A comment
follows a blank.

Loading a file sets the variables that are not set yet, one assignment after the other, and stops at the
first line that is no assignment; what was set before it stays.
-/

namespace Keyset

/-- The variables that are set. -/
abbrev Variables := Fields String

namespace Environment

/-! ### Lines

An assignment goes on over the line break where a quote is open, or where the break follows a blank or a
backslash that nothing has followed yet.
-/

/-- What an assignment is in the middle of. -/
inductive Scan where
  | plain
  | blank
  | escape
  | single
  | singleEscape
  | double
  | doubleEscape
deriving DecidableEq, Repr

/-- What an assignment is in the middle of after one more character. -/
def Scan.next (scan : Scan) (c : Char) : Scan :=
  match scan with
  | .escape => .plain
  | .singleEscape => .single
  | .doubleEscape => .double
  | .single => if c = '\\' then .singleEscape else if c = '\'' then .plain else .single
  | .double => if c = '\\' then .doubleEscape else if c = '"' then .plain else .double
  | .plain | .blank =>
    if c = '\\' then .escape
    else if c = '"' then .double
    else if c = '\'' then .single
    else if scan = .plain ∧ Text.isBlank c ∧ c ≠ '\n' ∧ c ≠ '\r' then .blank
    else .plain

/-- Reads a line to its end, or to a comment, which ends the assignment: what is kept, and what the
assignment is in the middle of if it goes on. -/
def scanLine : Scan → List Char → List Char × Option Scan
  | scan, [] => ([], some scan)
  | scan, c :: s =>
    if scan = .blank ∧ c = '#' then ([], none)
    else
      let (kept, last) := scanLine (scan.next c) s
      (c :: kept, last)

/-- Puts the line breaks back between the lines of a text; an empty last line has none and is left
out. -/
def withBreaks : List (List Char) → List (List Char)
  | [] => []
  | [last] => if last = [] then [] else [last]
  | line :: rest => (line ++ ['\n']) :: withBreaks rest

/-- A text without the line break at its end. -/
def dropBreak (s : List Char) : List Char :=
  match s.reverse with
  | '\n' :: '\r' :: r => r.reverse
  | '\n' :: r => r.reverse
  | _ => s

/-- The texts of assignments, where some are pending; nothing at the end stands for one that does not
end. -/
def assignments (pending : List Char) (scan : Scan) :
    List (List Char) → List (Option (List Char))
  | [] => if scan = .plain then [] else [none]
  | line :: rest =>
    let text := pending ++ line
    if (Text.trimStart text).head? = some '#' then
      some [] :: assignments [] .plain rest
    else
      match scanLine scan line with
      | (kept, none) => some (pending ++ kept) :: assignments [] .plain rest
      | (_, some .plain) => some (dropBreak text) :: assignments [] .plain rest
      | (_, some scan) => assignments text scan rest

/-! ### Values -/

/-- What the value of an assignment is in the middle of; inside double quotes, `quoted` holds. -/
inductive Mode where
  | plain (quoted : Bool)
  | single
  | escape (quoted : Bool)
  /-- A name behind a dollar sign. -/
  | name (quoted : Bool) (name : List Char)
  /-- A name between braces. -/
  | braced (quoted : Bool) (name : List Char)
  /-- After a blank, only blanks and a comment may follow. -/
  | ended
deriving DecidableEq, Repr

/-- The value of a variable, empty if it is not set. -/
def valueOf (vars : Variables) (name : List Char) : List Char :=
  ((vars.get? (String.ofList name)).getD "").toList

/-- Reads the value of an assignment. -/
def readValue? (vars : Variables) : Mode → List Char → Option (List Char)
  | .plain quoted, [] => if quoted then none else some []
  | .escape quoted, [] => if quoted then none else some []
  | .name quoted name, [] => if quoted then none else some (valueOf vars name)
  | .single, [] => none
  | .braced _ _, [] => none
  | .ended, [] => some []
  | .ended, c :: s =>
    if c = ' ' ∨ c = '\t' then readValue? vars .ended s
    else if c = '#' then some []
    else none
  | .escape quoted, c :: s =>
    if ['\\', '\'', '"', '$', ' '].contains c then
      (readValue? vars (.plain quoted) s).map (c :: ·)
    else if c = 'n' then (readValue? vars (.plain quoted) s).map ('\n' :: ·)
    else none
  | .single, c :: s =>
    if c = '\'' then readValue? vars (.plain false) s
    else (readValue? vars .single s).map (c :: ·)
  | .name quoted name, c :: s =>
    if Text.isAlphanumeric c then readValue? vars (.name quoted (name ++ [c])) s
    else if c = '\x7b' ∧ name = [] then readValue? vars (.braced quoted []) s
    else if c = '$' then (readValue? vars (.name quoted []) s).map (valueOf vars name ++ ·)
    else (readValue? vars (.plain quoted) s).map fun r => valueOf vars name ++ c :: r
  | .braced quoted name, c :: s =>
    if c = '\x7d' then (readValue? vars (.plain quoted) s).map (valueOf vars name ++ ·)
    else readValue? vars (.braced quoted (name ++ [c])) s
  | .plain quoted, c :: s =>
    if c = '$' then readValue? vars (.name quoted []) s
    else if c = '\\' then readValue? vars (.escape quoted) s
    else if c = '"' then readValue? vars (.plain (!quoted)) s
    else if quoted then (readValue? vars (.plain true) s).map (c :: ·)
    else if c = '\'' then readValue? vars .single s
    else if c = ' ' ∨ c = '\t' then readValue? vars .ended s
    else (readValue? vars (.plain false) s).map (c :: ·)

/-! ### Assignments -/

/-- Reads the name of a variable. -/
def readName? (s : List Char) : Option (List Char × List Char) :=
  match s with
  | [] => none
  | c :: _ =>
    if c.isAlpha || c == '_' then
      some (s.span fun c => c.isAlphanum || c == '_' || c == '.')
    else
      none

/-- Reads a name and the equals sign behind it, with blanks around the name's end. -/
def readTarget? (s : List Char) : Option (List Char × List Char) := do
  let (name, s) ← readName? s
  match Text.trimStart s with
  | '=' :: s => some (name, s)
  | s =>
    if name = "export".toList then
      let (name, s) ← readName? s
      match Text.trimStart s with
      | '=' :: s => some (name, s)
      | _ => none
    else
      none

/-- Reads an assignment; a blank line and a comment are none.  The outer option is for faults. -/
def readAssignment? (vars : Variables) (text : List Char) :
    Option (Option (String × String)) :=
  match Text.trim text with
  | [] => some none
  | '#' :: _ => some none
  | s => do
    let (name, s) ← readTarget? s
    let value ←
      match Text.trimStart s with
      | [] => some []
      | '#' :: _ => some []
      | s => readValue? vars (.plain false) s
    return some (String.ofList name, String.ofList value)

/-- Sets a variable, unless it is set. -/
def setDefault (vars : Variables) (name value : String) : Variables :=
  if vars.has name then vars else vars.put name value

/-- Sets the variables of assignments, up to the first fault. -/
def loadAssignments (vars : Variables) : List (Option (List Char)) → Variables
  | [] => vars
  | none :: _ => vars
  | some text :: rest =>
    match readAssignment? vars text with
    | none => vars
    | some none => loadAssignments vars rest
    | some (some (name, value)) => loadAssignments (setDefault vars name value) rest

/-- The variables after a file was loaded. -/
def load (vars : Variables) (text : String) : Variables :=
  let s :=
    match text.toList with
    | '\ufeff' :: s => s
    | s => s
  loadAssignments vars (assignments [] .plain (withBreaks (Text.lines s)))

end Environment

end Keyset
