import Keyset.Document.Decimal128
import Keyset.Double.Basic
import Keyset.Fields

/-!
# Documents

A document is a list of named values in order.  Values are typed more finely than JSON values:
integers know their width, and there are identifiers, instants, bytes and a few marks that sort before
or after everything else.
-/

namespace Keyset

/-- An identifier of twelve bytes, read as one number. -/
abbrev ObjectId := Fin 0x1000000000000000000000000

/-- A value of a document. -/
inductive Value where
  | null
  | undefined
  | minKey
  | maxKey
  | boolean (b : Bool)
  | int32 (n : Int32)
  | int64 (n : Int64)
  | double (x : Double)
  | decimal (d : Decimal128)
  | string (s : String)
  | symbol (s : String)
  | regex (pattern options : String)
  | code (source : String)
  | scopedCode (source : String) (scope : List (String × Value))
  | binary (subtype : UInt8) (bytes : List UInt8)
  | objectId (id : ObjectId)
  | dateTime (millis : Int64)
  | timestamp (seconds increment : UInt32)
  | pointer (collection : String) (id : ObjectId)
  | array (items : List Value)
  | document (fields : List (String × Value))

/-- A document: named values in order. -/
abbrev Document := Fields Value

namespace Value

/-- The name of a value's type. -/
def typeName : Value → String
  | .null => "Null"
  | .undefined => "Undefined"
  | .minKey => "MinKey"
  | .maxKey => "MaxKey"
  | .boolean _ => "Boolean"
  | .int32 _ => "Int32"
  | .int64 _ => "Int64"
  | .double _ => "Double"
  | .decimal _ => "Decimal128"
  | .string _ => "String"
  | .symbol _ => "Symbol"
  | .regex _ _ => "RegularExpression"
  | .code _ => "JavaScriptCode"
  | .scopedCode _ _ => "JavaScriptCodeWithScope"
  | .binary _ _ => "Binary"
  | .objectId _ => "ObjectId"
  | .dateTime _ => "DateTime"
  | .timestamp _ _ => "Timestamp"
  | .pointer _ _ => "DbPointer"
  | .array _ => "Array"
  | .document _ => "EmbeddedDocument"

/-- The number of a value as a double: its own, or the nearest to an integer.  Decimals have none. -/
def toDouble? : Value → Option Double
  | .int32 n => some (.ofInt n.toInt)
  | .int64 n => some (.ofInt n.toInt)
  | .double x => some x
  | _ => none

/-- The document of a value. -/
def document? : Value → Option Document
  | .document fields => some fields
  | _ => none

/-- Whether a value switches something on: not `false`, not null or undefined, not zero. -/
def truthy (v : Value) : Bool :=
  match v with
  | .boolean b => b
  | .null | .undefined => false
  | _ => v.toDouble?.all fun x => !x.isZero

end Value

end Keyset
