import Keyset.Text.Hex
import Keyset.Text.Numeral

/-!
# Writing TOML

Keys with strings and integers, one to a line.  A string has four forms, of which the first that shows it
without escapes is taken; a string that no form shows so is escaped.  A string with line breaks stands
on lines of its own between three quotes.
-/

namespace Keyset.Toml

/-! ### What a string contains -/

/-- Whether a character can be written as an escape only; a tab can be written as it is where there are
no escapes, and a line break has its own forms. -/
def isControl (c : Char) : Bool :=
  (c.toNat < 0x20 && c != '\t' && c != '\n') || c.toNat == 0x7F

/-- The length of the longest run of a character, where a run of a given length has just been seen. -/
def longestRun (c : Char) (run : Nat) : List Char → Nat
  | [] => run
  | d :: s => if d = c then longestRun c (run + 1) s else max run (longestRun c 0 s)

/-- The forms of a string: with escapes or literally, on one line or on several. -/
inductive Form where
  | basic
  | literal
  | lines
  | literalLines
deriving DecidableEq, Repr

/-- Whether a form shows a string without escapes. -/
def Form.shows (form : Form) (s : List Char) : Bool :=
  !s.any isControl &&
    match form with
    | .basic => !s.contains '\\' && !s.contains '"' && !s.contains '\n'
    | .literal => !s.contains '\'' && !s.contains '\n'
    | .lines => !s.contains '\\' && longestRun '"' 0 s ≤ 2
    | .literalLines => longestRun '\'' 0 s ≤ 2

/-- The form in which a string is written. -/
def formOf (s : List Char) : Form :=
  ([Form.basic, .literal, .lines, .literalLines].find? (·.shows s)).getD
    (if s.contains '\n' then .lines else .basic)

/-! ### Writing a string -/

/-- The four digits of a control character. -/
def controlDigits (c : Char) : List Char :=
  (Text.hexDigits 4 c.toNat).map Char.toUpper

/-- The characters of a string with escapes.  As many quotes in a row may stand unescaped as the form
allows; line breaks may where it has lines. -/
def escaped (quotesAllowed : Nat) (hasLines : Bool) (quotes : Nat) : List Char → List Char
  | [] => []
  | '"' :: s =>
    if quotes < quotesAllowed then '"' :: escaped quotesAllowed hasLines (quotes + 1) s
    else '\\' :: '"' :: escaped quotesAllowed hasLines 0 s
  | c :: s =>
    let rest := escaped quotesAllowed hasLines 0 s
    match c with
    | '\x08' => '\\' :: 'b' :: rest
    | '\t' => '\\' :: 't' :: rest
    | '\n' => if hasLines then '\n' :: rest else '\\' :: 'n' :: rest
    | '\x0c' => '\\' :: 'f' :: rest
    | '\r' => '\\' :: 'r' :: rest
    | '\\' => '\\' :: '\\' :: rest
    | c => if isControl c then '\\' :: 'u' :: controlDigits c ++ rest else c :: rest

/-- What stands behind the opening quotes of a form with lines: a line break if the string has one. -/
def opening (s : List Char) : List Char :=
  if s.contains '\n' then ['\n'] else []

/-- A string in a form. -/
def Form.write (form : Form) (s : List Char) : List Char :=
  match form with
  | .basic => '"' :: escaped 0 false 0 s ++ ['"']
  | .literal => '\'' :: s ++ ['\'']
  | .lines => "\"\"\"".toList ++ opening s ++ escaped 2 true 0 s ++ "\"\"\"".toList
  | .literalLines => "'''".toList ++ opening s ++ s ++ "'''".toList

/-- The text of a string. -/
def quoted (s : String) : List Char :=
  (formOf s.toList).write s.toList

/-! ### Writing entries -/

/-- A line with a key and the text of its value. -/
def entry (key : String) (value : List Char) : List Char :=
  key.toList ++ " = ".toList ++ value ++ ['\n']

/-- A line with a string. -/
def stringEntry (key value : String) : List Char :=
  entry key (quoted value)

/-- A line with an integer. -/
def integerEntry (key : String) (n : Int64) : List Char :=
  entry key (Text.signedDigits n.toInt)

end Keyset.Toml
