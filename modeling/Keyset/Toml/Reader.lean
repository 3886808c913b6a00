import Keyset.Document.Instant
import Keyset.Double.Decimal
import Keyset.Text.Hex
import Keyset.Text.Numeral
import Keyset.Toml.Basic

/-!
# Reading TOML

A document is a sequence of lines: a key and its value, the header of a table or of one more table of an
array, a comment, or nothing.  A value may span lines only inside an array or between three quotes.
`Toml.ofText?` gives the table of a document, or nothing if the document has a fault anywhere.
-/

namespace Keyset.Toml

/-! ### Characters -/

/-- The characters that separate tokens within a line. -/
def isBlank (c : Char) : Bool :=
  c == ' ' || c == '\t'

/-- The characters that comments may hold: all but controls, of which the tab is allowed. -/
def isTextChar (c : Char) : Bool :=
  c == '\t' || (0x20 ≤ c.toNat && c.toNat != 0x7F)

/-- The characters of a key that is not quoted. -/
def isKeyChar (c : Char) : Bool :=
  c.isAlphanum || c == '_' || c == '-'

/-- A text without the blanks that it starts with. -/
def skipBlanks (s : List Char) : List Char :=
  s.dropWhile isBlank

/-- What follows the end of a line: blanks, a comment and a line break, or the end of the text. -/
def readLineEnd? (s : List Char) : Option (List Char) :=
  let s := skipBlanks s
  let s := if s.head? = some '#' then s.dropWhile isTextChar else s
  match s with
  | [] => some []
  | '\n' :: s => some s
  | '\r' :: '\n' :: s => some s
  | _ => none

/-- A text without the blanks, line breaks and comments that it starts with. -/
def skipLines (inComment : Bool) : List Char → List Char
  | [] => []
  | '\n' :: s => skipLines false s
  | '\r' :: '\n' :: s => skipLines false s
  | c :: s =>
    if inComment then
      if isTextChar c then skipLines true s else c :: s
    else if isBlank c then skipLines false s
    else if c == '#' then skipLines true s
    else c :: s

/-! ### Strings -/

/-- The character that stands behind a backslash for another, if it is one letter. -/
def unescape? (c : Char) : Option Char :=
  match c with
  | 'b' => some '\x08'
  | 't' => some '\t'
  | 'n' => some '\n'
  | 'f' => some '\x0c'
  | 'r' => some '\r'
  | '"' => some '"'
  | '\\' => some '\\'
  | _ => none

/-- The character of hexadecimal digits. -/
def charOfHex? (digits : List Char) : Option Char := do
  let n ← Text.hexNatural? digits
  if n.isValidChar then some (Char.ofNat n) else none

/-- Puts a character before what was read. -/
def andThen (c : Option Char) (r : Option (List Char × List Char)) :
    Option (List Char × List Char) :=
  match c, r with
  | some c, some (cs, s) => some (c :: cs, s)
  | _, _ => none

/-- Reads a string behind its opening quote, up to the closing one. -/
def readBasic? : List Char → Option (List Char × List Char)
  | [] => none
  | '"' :: s => some ([], s)
  | '\\' :: 'u' :: a :: b :: c :: d :: s => andThen (charOfHex? [a, b, c, d]) (readBasic? s)
  | '\\' :: 'U' :: a :: b :: c :: d :: e :: f :: g :: h :: s =>
    andThen (charOfHex? [a, b, c, d, e, f, g, h]) (readBasic? s)
  | '\\' :: c :: s => andThen (unescape? c) (readBasic? s)
  | c :: s => if isTextChar c && c != '\\' then andThen (some c) (readBasic? s) else none

/-- Reads a string without escapes behind its opening quote, up to the closing one. -/
def readLiteral? (s : List Char) : Option (List Char × List Char) :=
  match s.span fun c => isTextChar c && c != '\'' with
  | (cs, '\'' :: s) => some (cs, s)
  | _ => none

/-- What a backslash at the end of a line leaves out: the blanks before the line break, and then all
blanks and line breaks up to the next character. -/
inductive Gap where
  | closed
  | beforeBreak
  | afterBreak
deriving DecidableEq, Repr

/-- Reads a string of several lines behind its three opening quotes, up to the closing ones.  Up to two
quotes may stand right before the closing ones. -/
def readLines? : Gap → List Char → Option (List Char × List Char)
  | _, [] => none
  | .beforeBreak, '\n' :: s => readLines? .afterBreak s
  | .beforeBreak, '\r' :: '\n' :: s => readLines? .afterBreak s
  | .beforeBreak, c :: s => if isBlank c then readLines? .beforeBreak s else none
  | .afterBreak, '\n' :: s => readLines? .afterBreak s
  | .afterBreak, '\r' :: '\n' :: s => readLines? .afterBreak s
  | .afterBreak, ' ' :: s => readLines? .afterBreak s
  | .afterBreak, '\t' :: s => readLines? .afterBreak s
  | _, '"' :: '"' :: '"' :: '"' :: '"' :: s => some (['"', '"'], s)
  | _, '"' :: '"' :: '"' :: '"' :: s => some (['"'], s)
  | _, '"' :: '"' :: '"' :: s => some ([], s)
  | _, '\n' :: s => andThen (some '\n') (readLines? .closed s)
  | _, '\r' :: '\n' :: s => andThen (some '\n') (readLines? .closed s)
  | _, '\\' :: '\n' :: s => readLines? .afterBreak s
  | _, '\\' :: '\r' :: '\n' :: s => readLines? .afterBreak s
  | _, '\\' :: 'u' :: a :: b :: c :: d :: s =>
    andThen (charOfHex? [a, b, c, d]) (readLines? .closed s)
  | _, '\\' :: 'U' :: a :: b :: c :: d :: e :: f :: g :: h :: s =>
    andThen (charOfHex? [a, b, c, d, e, f, g, h]) (readLines? .closed s)
  | _, '\\' :: c :: s =>
    if isBlank c then readLines? .beforeBreak s
    else andThen (unescape? c) (readLines? .closed s)
  | _, c :: s => if isTextChar c && c != '\\' then andThen (some c) (readLines? .closed s) else none

/-- Reads a string of several lines without escapes behind its three opening quotes, up to the closing
ones. -/
def readLiteralLines? : List Char → Option (List Char × List Char)
  | [] => none
  | '\'' :: '\'' :: '\'' :: '\'' :: '\'' :: s => some (['\'', '\''], s)
  | '\'' :: '\'' :: '\'' :: '\'' :: s => some (['\''], s)
  | '\'' :: '\'' :: '\'' :: s => some ([], s)
  | '\n' :: s => andThen (some '\n') (readLiteralLines? s)
  | '\r' :: '\n' :: s => andThen (some '\n') (readLiteralLines? s)
  | c :: s => if isTextChar c then andThen (some c) (readLiteralLines? s) else none

/-- A text without the line break that it starts with. -/
def dropBreak : List Char → List Char
  | '\n' :: s => s
  | '\r' :: '\n' :: s => s
  | s => s

/-- Reads a string of any of the four forms. -/
def readString? : List Char → Option (String × List Char)
  | '"' :: '"' :: '"' :: s =>
    (readLines? .closed (dropBreak s)).map fun (cs, s) => (String.ofList cs, s)
  | '\'' :: '\'' :: '\'' :: s =>
    (readLiteralLines? (dropBreak s)).map fun (cs, s) => (String.ofList cs, s)
  | '"' :: s => (readBasic? s).map fun (cs, s) => (String.ofList cs, s)
  | '\'' :: s => (readLiteral? s).map fun (cs, s) => (String.ofList cs, s)
  | _ => none

/-! ### Keys -/

/-- How many keys a dotted key may have, and how deep values may nest. -/
def maxDepth : Nat :=
  79

/-- Reads one key, quoted or not. -/
def readKey? : List Char → Option (String × List Char)
  | '"' :: s => (readBasic? s).map fun (cs, s) => (String.ofList cs, s)
  | '\'' :: s => (readLiteral? s).map fun (cs, s) => (String.ofList cs, s)
  | s =>
    match s.span isKeyChar with
    | ([], _) => none
    | (cs, s) => some (String.ofList cs, s)

/-- Reads a dotted key of at most so many keys, with blanks around each. -/
def readKeys? : Nat → List Char → Option (List String × List Char)
  | 0, _ => none
  | fuel + 1, s => do
    let (key, s) ← readKey? (skipBlanks s)
    match skipBlanks s with
    | '.' :: s =>
      let (keys, s) ← readKeys? fuel s
      return (key :: keys, s)
    | s => return ([key], s)

/-- The keys of a dotted key before the last, and the last. -/
def lastKey? (keys : List String) : Option (List String × String) :=
  keys.getLast?.map fun key => (keys.dropLast, key)

/-! ### Numbers, dates and times -/

/-- Reads digits of a class, between which single underscores may stand; gives the digits alone. -/
def readDigits? (isDigit : Char → Bool) : List Char → Option (List Char × List Char)
  | [] => none
  | c :: '_' :: d :: s =>
    if isDigit c then
      if isDigit d then (readDigits? isDigit (d :: s)).map fun (cs, s) => (c :: cs, s)
      else none
    else none
  | c :: s =>
    if isDigit c then
      match s with
      | [] => some ([c], [])
      | d :: _ =>
        if isDigit d then (readDigits? isDigit s).map fun (cs, s) => (c :: cs, s)
        else if d == '_' then none
        else some ([c], s)
    else none

/-- Reads a sign, if there is one. -/
def readSign : List Char → List Char × List Char
  | '-' :: s => (['-'], s)
  | '+' :: s => (['+'], s)
  | s => ([], s)

/-- Reads the digits of a whole number; one that starts with zero is zero. -/
def readWhole? : List Char → Option (List Char × List Char)
  | '0' :: s => some (['0'], s)
  | s => readDigits? Char.isDigit s

/-- The integer of digits in a base of at most sixteen. -/
def ofBase? (base : Nat) (digits : List Char) : Option Int64 := do
  let n ← digits.foldlM (fun n c => (Text.hexDigit? c).map (base * n + ·)) 0
  Word.int64? n

/-- Reads an integer. -/
def readInteger? : List Char → Option (Toml × List Char)
  | '0' :: 'x' :: s => do
    let (digits, s) ← readDigits? Text.isHexDigit s
    return (.integer (← ofBase? 16 digits), s)
  | '0' :: 'o' :: s => do
    let (digits, s) ← readDigits? (fun c => '0' ≤ c ∧ c ≤ '7') s
    return (.integer (← ofBase? 8 digits), s)
  | '0' :: 'b' :: s => do
    let (digits, s) ← readDigits? (fun c => c = '0' ∨ c = '1') s
    return (.integer (← ofBase? 2 digits), s)
  | s => do
    let (sign, s) := readSign s
    let (digits, s) ← readWhole? s
    return (.integer (← Text.integer64? (sign ++ digits)), s)

/-- Reads the exponent of a float, if there is one. -/
def readExponent? : List Char → Option (List Char × List Char)
  | 'e' :: s | 'E' :: s => do
    let (sign, s) := readSign s
    let (digits, s) ← readDigits? Char.isDigit s
    return ('e' :: sign ++ digits, s)
  | s => some ([], s)

/-- Reads the digits of a float and its exponent, which may not both be missing. -/
def readFloatDigits? (s : List Char) : Option (List Char × List Char) := do
  let (sign, s) := readSign s
  let (whole, s) ← readWhole? s
  match s with
  | '.' :: s =>
    let (fraction, s) ← readDigits? Char.isDigit s
    let (exponent, s) ← readExponent? s
    return (sign ++ whole ++ '.' :: fraction ++ exponent, s)
  | s =>
    let (exponent, s) ← readExponent? s
    if exponent = [] then none else some (sign ++ whole ++ exponent, s)

/-- Reads a float.  One that is too large is an error unless it is negative. -/
def readFloat? (s : List Char) : Option (Toml × List Char) :=
  match readSign s with
  | (sign, 'i' :: 'n' :: 'f' :: s) => some (.float (.infinity (sign = ['-'])), s)
  | (sign, 'n' :: 'a' :: 'n' :: s) => some (.float (.nan (sign = ['-'])), s)
  | _ => do
    let (digits, s) ← readFloatDigits? s
    let x ← Double.ofText? digits
    if x = .infinity false then none else some (.float x, s)

/-- Reads a number of so many digits that lies between two bounds. -/
def readField? (width low high : Nat) (s : List Char) : Option (Nat × List Char) := do
  let (n, s) ← Instant.readDigits? width s
  if low ≤ n ∧ n ≤ high then some (n, s) else none

/-- Reads a date. -/
def readDate? (s : List Char) : Option (List Char) := do
  let (year, s) ← Instant.readDigits? 4 s
  let s ← Instant.readChar? '-' s
  let (month, s) ← readField? 2 1 12 s
  let s ← Instant.readChar? '-' s
  let (_, s) ← readField? 2 1 (Instant.daysInMonth year month) s
  return s

/-- Reads a time of day. -/
def readTime? (s : List Char) : Option (List Char) := do
  let (_, s) ← readField? 2 0 23 s
  let s ← Instant.readChar? ':' s
  let (_, s) ← readField? 2 0 59 s
  let s ← Instant.readChar? ':' s
  let (_, s) ← readField? 2 0 60 s
  match s with
  | '.' :: s => if (s.takeWhile Char.isDigit) = [] then none else some (s.dropWhile Char.isDigit)
  | s => some s

/-- Reads the distance of a time from that of the zero meridian. -/
def readOffset? : List Char → Option (List Char)
  | 'Z' :: s | 'z' :: s => some s
  | '+' :: s | '-' :: s => do
    let (_, s) ← readField? 2 0 23 s
    let s ← Instant.readChar? ':' s
    let (_, s) ← readField? 2 0 59 s
    return s
  | _ => none

/-- The rest after a time of day behind a date; it may be missing. -/
def afterDate (s : List Char) : List Char :=
  match s with
  | c :: t =>
    if c == 'T' || c == 't' || c == ' ' then
      match readTime? t with
      | some t => (readOffset? t).getD t
      | none => s
    else s
  | [] => []

/-- Reads a date, a time of day, or both. -/
def readDateTime? (s : List Char) : Option (Toml × List Char) := do
  let rest ← ((readDate? s).map afterDate).or (readTime? s)
  return (.dateTime (String.ofList (s.take (s.length - rest.length))), rest)

/-! ### Values -/

/-- Reads a value that is one token. -/
def readScalar? (s : List Char) : Option (Toml × List Char) :=
  match s with
  | 't' :: 'r' :: 'u' :: 'e' :: s => some (.boolean true, s)
  | 'f' :: 'a' :: 'l' :: 's' :: 'e' :: s => some (.boolean false, s)
  | '"' :: _ | '\'' :: _ => (readString? s).map fun (t, s) => (.string t, s)
  | _ => ((readDateTime? s).or (readFloat? s)).or (readInteger? s)

mutual

/-- Reads a value.  The first argument bounds the number of tokens, the second how deep the value may
nest. -/
def readValue? : Nat → Nat → List Char → Option (Toml × List Char)
  | 0, _, _ => none
  | fuel + 1, depth, s =>
    match s, depth with
    | '[' :: _, 0 => none
    | '\x7b' :: _, 0 => none
    | '[' :: s, depth + 1 => (readItems? fuel depth s).map fun (items, s) => (.array items, s)
    | '\x7b' :: s, depth + 1 =>
      match skipBlanks s with
      | '\x7d' :: s => some (.table [], s)
      | _ => (readEntries? fuel depth .empty s).map fun (inline, s) => (.table inline.fields, s)
    | s, _ => readScalar? s

/-- Reads the items of an array up to the closing bracket, before which a comma may stand. -/
def readItems? : Nat → Nat → List Char → Option (List Toml × List Char)
  | 0, _, _ => none
  | fuel + 1, depth, s =>
    match skipLines false s with
    | ']' :: s => some ([], s)
    | s =>
      match readValue? fuel depth s with
      | none => none
      | some (v, s) =>
        match skipLines false s with
        | ',' :: s => (readItems? fuel depth s).map fun (vs, s) => (v :: vs, s)
        | ']' :: s => some ([v], s)
        | _ => none

/-- Reads the entries of an inline table, at least one, up to the closing brace. -/
def readEntries? : Nat → Nat → Section → List Char → Option (Section × List Char)
  | 0, _, _, _ => none
  | fuel + 1, depth, inline, s =>
    match readKeys? maxDepth s with
    | some (keys, '=' :: s) =>
      match readValue? fuel depth (skipBlanks s) with
      | none => none
      | some (v, s) =>
        match (lastKey? keys).bind fun (keys, key) => inline.insert keys key v with
        | none => none
        | some inline =>
          match skipBlanks s with
          | ',' :: s => readEntries? fuel depth inline s
          | '\x7d' :: s => some (inline, s)
          | _ => none
    | _ => none

end

/-! ### Documents -/

/-- A document up to some line: its table, and the keys of the header that is in force. -/
structure State where
  document : Section
  header : List String

/-- Reads a header behind its opening bracket, or behind both if it is one of an array of tables. -/
def readHeader? (isArray : Bool) (state : State) (s : List Char) : Option (State × List Char) := do
  let (keys, s) ← readKeys? maxDepth s
  let (above, key) ← lastKey? keys
  let s ←
    match isArray, s with
    | true, ']' :: ']' :: s => some s
    | false, ']' :: s => some s
    | _, _ => none
  let document ←
    if isArray then state.document.addTable above key else state.document.openTable above key
  return (⟨document, keys⟩, ← readLineEnd? s)

/-- Adds a value to the table of the header that is in force. -/
def State.insert? (state : State) (keys : List String) (key : String) (v : Toml) : Option State := do
  let document ← state.document.change .implied (Section.insert keys key v) state.header
  return { state with document }

/-- Reads the rest of a document.  The first argument bounds the number of lines. -/
def readRest? : Nat → State → List Char → Option State
  | 0, _, _ => none
  | fuel + 1, state, s =>
    match skipBlanks s with
    | [] => some state
    | '[' :: '[' :: s => do
      let (state, s) ← readHeader? true state s
      readRest? fuel state s
    | '[' :: s => do
      let (state, s) ← readHeader? false state s
      readRest? fuel state s
    | '#' :: s => do readRest? fuel state (← readLineEnd? ('#' :: s))
    | '\n' :: s => readRest? fuel state s
    | '\r' :: '\n' :: s => readRest? fuel state s
    | s => do
      let (keys, s) ← readKeys? maxDepth s
      let (above, key) ← lastKey? keys
      let s ← Instant.readChar? '=' s
      let s := skipBlanks s
      let (v, s) ← readValue? (2 * s.length + 1) maxDepth s
      let s ← readLineEnd? s
      readRest? fuel (← state.insert? above key v) s

/-- Reads a document, before which a byte order mark may stand. -/
def ofText? (text : String) : Option Table :=
  let s :=
    match text.toList with
    | '\ufeff' :: s => s
    | s => s
  (readRest? (s.length + 1) ⟨.empty, []⟩ s).map fun state => state.document.fields

end Keyset.Toml
