import Keyset.Double.Basic
import Keyset.Fields
import Keyset.Word

/-!
# JSON values

Values whose objects keep the order of their fields, and whose numbers are either integers of a
64-bit word, signed or not, or finite doubles.
-/

namespace Keyset

/-- A JSON number. -/
inductive Number where
  /-- An integer between -2⁶³ and 2⁶⁴ - 1. -/
  | integer (n : Int) (inRange : -0x8000000000000000 ≤ n ∧ n < 0x10000000000000000)
  /-- A double that is neither infinite nor a NaN. -/
  | double (x : Double) (isFinite : x.isFinite = true)
deriving DecidableEq

/-- A JSON value. -/
inductive Json where
  | null
  | bool (b : Bool)
  | number (n : Number)
  | string (s : String)
  | array (items : List Json)
  | object (fields : List (String × Json))

/-- The fields of a JSON object. -/
abbrev Json.Object := Fields Json

namespace Number

/-- The integer of a signed word. -/
def ofInt64 (n : Int64) : Number :=
  .integer n.toInt ⟨n.le_toInt, by have := n.toInt_lt; omega⟩

/-- The integer of an unsigned word. -/
def ofUInt64 (n : UInt64) : Number :=
  .integer n.toNat ⟨by omega, by have := n.toNat_lt; omega⟩

/-- An integer below 2³², such as a count of seconds. -/
def ofUInt32 (n : UInt32) : Number :=
  .integer n.toNat ⟨by omega, by have := n.toNat_lt; omega⟩

/-- The integer of a signed word of 32 bits. -/
def ofInt32 (n : Int32) : Number :=
  .integer n.toInt ⟨by have := n.le_toInt; omega, by have := n.toInt_lt; omega⟩

/-- A double as a number, if it is finite. -/
def ofDouble? (x : Double) : Option Number :=
  if h : x.isFinite = true then some (.double x h) else none

/-- The number as a signed word, if it is an integer that fits. -/
def int64? : Number → Option Int64
  | .integer n _ => Word.int64? n
  | .double _ _ => none

/-- The number as an unsigned word, if it is an integer that is not negative. -/
def uint64? : Number → Option UInt64
  | .integer n _ => Word.uint64? n
  | .double _ _ => none

/-- The number as an unsigned word of 32 bits, if it is an integer that fits. -/
def uint32? : Number → Option UInt32
  | .integer n _ => Word.uint32? n
  | .double _ _ => none

/-- The number rounded to a double. -/
def toDouble : Number → Double
  | .integer n _ => .ofInt n
  | .double x _ => x

end Number

namespace Json

/-- The integer of a signed word as a value. -/
def ofInt64 (n : Int64) : Json :=
  .number (.ofInt64 n)

/-- The integer of an unsigned word as a value. -/
def ofUInt64 (n : UInt64) : Json :=
  .number (.ofUInt64 n)

/-- The text of a string. -/
def string? : Json → Option String
  | .string s => some s
  | _ => none

/-- The number of a number. -/
def number? : Json → Option Number
  | .number n => some n
  | _ => none

/-- The truth value of a boolean. -/
def bool? : Json → Option Bool
  | .bool b => some b
  | _ => none

/-- The items of an array. -/
def array? : Json → Option (List Json)
  | .array items => some items
  | _ => none

/-- The fields of an object. -/
def object? : Json → Option Object
  | .object fields => some fields
  | _ => none

/-- The integer of a value, as a signed word. -/
def int64? (v : Json) : Option Int64 :=
  v.number?.bind Number.int64?

/-- The integer of a value, as an unsigned word. -/
def uint64? (v : Json) : Option UInt64 :=
  v.number?.bind Number.uint64?

/-- The integer of a value, as an unsigned word of 32 bits. -/
def uint32? (v : Json) : Option UInt32 :=
  v.number?.bind Number.uint32?

/-- The field of an object; other values have none. -/
def get? (v : Json) (name : String) : Option Json :=
  v.object?.bind (·.get? name)

/-- An object with one field. -/
def single (name : String) (value : Json) : Json :=
  .object [(name, value)]

/-- An array of strings. -/
def strings (ss : List String) : Json :=
  .array (ss.map .string)

end Json

end Keyset
