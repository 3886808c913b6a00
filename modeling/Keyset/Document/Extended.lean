import Keyset.Document.Basic
import Keyset.Document.Instant
import Keyset.Double.Decimal
import Keyset.Json.Record
import Keyset.Text.Base64
import Keyset.Text.Hex

/-!
# Documents in JSON

Values that JSON lacks are wrapped in an object with one field whose name starts with `$`.  An object
that has one of those names must be exactly such a wrapper; of several names the first of
`Wrapper.names` decides.  Integers become the narrowest type that holds them, and numbers beyond a
signed word become doubles.

Writing is relaxed: integers and finite doubles are plain numbers, and an instant from 1970 to 9999
is its text.  The scope of a program text is a document whatever the names of its fields are, and it
is written raw: instants are counts of milliseconds, doubles that are not finite are null, and bytes
that have no subtype are lists of numbers.
-/

namespace Keyset

/-! ### Wrappers -/

namespace Wrapper

/-- The names that make an object a wrapper, in the order in which they decide. -/
def names : List String :=
  ["$oid", "$symbol", "$regularExpression", "$numberInt", "$numberLong", "$numberDouble",
    "$numberDecimal", "$binary", "$uuid", "$code", "$timestamp", "$date", "$minKey", "$maxKey",
    "$dbPointer", "$undefined"]

/-- The name that makes an object a wrapper, if it has one. -/
def nameOf? (fields : Json.Object) : Option String :=
  names.find? fields.has

/-- The value of the only field of a record. -/
def only? (name : String) (v : Json) : Option Json := do
  (← v.exactRecord? [name]).get? name

/-- The characters of a string. -/
def chars? (v : Json) : Option (List Char) :=
  v.string?.map String.toList

/-- Twenty-four hexadecimal digits. -/
def objectId? (s : List Char) : Option ObjectId := do
  let n ← if s.length = 24 then Text.hexNatural? s else none
  if h : n < 0x1000000000000000000000000 then some ⟨n, h⟩ else none

/-- The double of a text, with three names of its own for the infinities and NaN. -/
def double? (s : List Char) : Option Double :=
  if s = "Infinity".toList then some (.infinity false)
  else if s = "-Infinity".toList then some (.infinity true)
  else if s = "NaN".toList then some (.nan false)
  else Double.ofText? s

/-- A pattern and its options, which are kept in order. -/
def regex? (v : Json) : Option Value := do
  let body ← v.exactRecord? ["pattern", "options"]
  let pattern ← Json.required? body "pattern" Json.string?
  let options ← Json.required? body "options" Json.string?
  return .regex pattern (String.ofList (options.toList.mergeSort (· ≤ ·)))

/-- Bytes and the two hexadecimal digits of their subtype. -/
def binary? (v : Json) : Option Value := do
  let body ← v.exactRecord? ["base64", "subType"]
  let bytes ← Json.required? body "base64" chars?
  let subtype ← Json.required? body "subType" chars?
  let bytes ← Text.Base64.decode? bytes
  match Text.hexBytes? subtype with
  | some [subtype] => some (.binary subtype bytes)
  | _ => none

/-- Thirty-two hexadecimal digits in groups of 8, 4, 4, 4 and 12. -/
def hyphenated? (s : List Char) : Option (List UInt8) :=
  let isHyphen i := i == 8 || i == 13 || i == 18 || i == 23
  if s.zipIdx.all fun (c, i) => (c == '-') == isHyphen i then
    Text.hexBytes? (s.filter (· != '-'))
  else
    none

/-- The sixteen bytes of a universal identifier: digits alone, in groups, in groups between braces,
or in groups as a resource name. -/
def uuid? (s : List Char) : Option (List UInt8) :=
  if s.length = 32 then Text.hexBytes? s
  else if s.length = 36 then hyphenated? s
  else if s.length = 38 ∧ s.head? = some '\x7b' ∧ s.getLast? = some '\x7d' then
    hyphenated? ((s.drop 1).take 36)
  else if s.length = 45 ∧ (s.take 9).map Char.toLower = "urn:uuid:".toList then hyphenated? (s.drop 9)
  else none

/-- Seconds and an increment. -/
def timestamp? (v : Json) : Option Value := do
  let body ← v.exactRecord? ["t", "i"]
  let seconds ← Json.required? body "t" Json.uint32?
  let increment ← Json.required? body "i" Json.uint32?
  return .timestamp seconds increment

/-- An instant: its text, its milliseconds, or its milliseconds wrapped. -/
def dateTime? (v : Json) : Option Value :=
  match v with
  | .string s => (Instant.ofText? s.toList).map fun millis => .dateTime (Int64.ofInt millis)
  | .number n => n.int64?.map .dateTime
  | _ => ((only? "$numberLong" v).bind chars?).bind fun s => (Text.integer64? s).map .dateTime

/-- A collection and an identifier. -/
def pointer? (v : Json) : Option Value := do
  let body ← v.exactRecord? ["$ref", "$id"]
  let collection ← Json.required? body "$ref" Json.string?
  let id ← Json.required? body "$id" (only? "$oid")
  return .pointer collection (← objectId? (← chars? id))

/-- The number one. -/
def one? (v : Json) : Option Unit :=
  match v with
  | .number (.integer n _) => if n = 1 then some () else none
  | _ => none

/-- A program text, with the variables that it may use if there is a scope. -/
def code? (fields : Json.Object) (scope : Option Document) : Option Value := do
  let body ← (Json.object fields).exactRecord? ["$code", "$scope"]
  let source ← Json.required? body "$code" Json.string?
  match ← Json.optional? body "$scope" Json.object? with
  | none => some (.code source)
  | some _ => scope.map (.scopedCode source)

/-- The value of a wrapper of a name.  The last argument is the document of the field `$scope`. -/
def value? (name : String) (fields : Json.Object) (scope : Option Document) : Option Value :=
  if name = "$code" then
    code? fields scope
  else do
    let v ← only? name (.object fields)
    match name with
    | "$oid" => (objectId? (← chars? v)).map .objectId
    | "$symbol" => v.string?.map .symbol
    | "$regularExpression" => regex? v
    | "$numberInt" => (Text.integer32? (← chars? v)).map .int32
    | "$numberLong" => (Text.integer64? (← chars? v)).map .int64
    | "$numberDouble" => (double? (← chars? v)).map .double
    | "$numberDecimal" => (Decimal128.ofText? (← chars? v)).map .decimal
    | "$binary" => binary? v
    | "$uuid" => (uuid? (← chars? v)).map (.binary 4)
    | "$timestamp" => timestamp? v
    | "$date" => dateTime? v
    | "$minKey" => (one? v).map fun _ => .minKey
    | "$maxKey" => (one? v).map fun _ => .maxKey
    | "$dbPointer" => pointer? v
    | "$undefined" => (v.bool?.filter id).map fun _ => .undefined
    | _ => none

end Wrapper

/-! ### Reading -/

namespace Value

/-- The value of a number: the narrowest integer, or a double. -/
def ofNumber (n : Number) : Value :=
  match n.int64? with
  | some i => ((Word.int32? i.toInt).map .int32).getD (.int64 i)
  | none => .double n.toDouble

mutual

/-- The value of a JSON value, unless a wrapper in it is malformed. -/
def ofJson? : Json → Option Value
  | .null => some .null
  | .bool b => some (.boolean b)
  | .number n => some (ofNumber n)
  | .string s => some (.string s)
  | .array items => (listOfJson? items).map .array
  | .object fields =>
    match Wrapper.nameOf? fields with
    | none => (fieldsOfJson? fields).map .document
    | some name => Wrapper.value? name fields (scopeOfJson? fields)
termination_by structural v => v

/-- The values of JSON values. -/
def listOfJson? : List Json → Option (List Value)
  | [] => some []
  | v :: vs =>
    match ofJson? v, listOfJson? vs with
    | some v, some vs => some (v :: vs)
    | _, _ => none
termination_by structural vs => vs

/-- The fields of JSON fields. -/
def fieldsOfJson? : List (String × Json) → Option (List (String × Value))
  | [] => some []
  | (k, v) :: fs =>
    match ofJson? v, fieldsOfJson? fs with
    | some v, some fs => some ((k, v) :: fs)
    | _, _ => none
termination_by structural fs => fs

/-- The document of the field `$scope`, whose own names are not those of wrappers. -/
def scopeOfJson? : List (String × Json) → Option (List (String × Value))
  | [] => none
  | (k, .object scope) :: fs => if k = "$scope" then fieldsOfJson? scope else scopeOfJson? fs
  | _ :: fs => scopeOfJson? fs
termination_by structural fs => fs

end

/-! ### Writing -/

/-- A field of a wrapper. -/
def wrap (name : String) (v : Json) : Json :=
  .single name v

/-- A field of a wrapper that holds a text. -/
def wrapText (name : String) (s : List Char) : Json :=
  wrap name (.string (String.ofList s))

/-- The text of an identifier. -/
def objectIdText (id : ObjectId) : List Char :=
  Text.hexDigits 24 id

/-- A way of writing what JSON lacks. -/
inductive Form where
  /-- Instants are texts where they have one, and doubles that are not finite are wrapped. -/
  | relaxed
  /-- Instants are counts, doubles that are not finite are null, and bytes are lists. -/
  | raw
deriving DecidableEq, Repr

/-- A list of bytes as numbers. -/
def bytesToJson (bytes : List UInt8) : Json :=
  .array (bytes.map fun b => .number (.ofUInt32 b.toUInt32))

/-- The JSON value of a double. -/
def doubleToJson (form : Form) (x : Double) : Json :=
  if h : x.isFinite = true then .number (.double x h)
  else
    match form with
    | .raw => .null
    | .relaxed =>
      wrapText "$numberDouble"
        ((if x.negative then ['-'] else []) ++ (if x.isNaN then "NaN" else "Infinity").toList)

/-- The JSON value of an instant. -/
def dateTimeToJson (form : Form) (millis : Int64) : Json :=
  match form, Instant.text? millis.toInt with
  | .relaxed, some s => wrapText "$date" s
  | _, _ => wrap "$date" (wrapText "$numberLong" (Text.signedDigits millis.toInt))

/-- The JSON value of bytes with a subtype, of which zero is none. -/
def binaryToJson (form : Form) (subtype : UInt8) (bytes : List UInt8) : Json :=
  if form = .raw ∧ subtype = 0 then bytesToJson bytes
  else
    wrap "$binary" (.object
      [("base64", .string (String.ofList (Text.Base64.encode bytes))),
        ("subType", .string (String.ofList (Text.hexDigits 2 subtype.toNat)))])

mutual

/-- The JSON value of a value in a form. -/
def toJsonIn (form : Form) : Value → Json
  | .null => .null
  | .undefined => wrap "$undefined" (.bool true)
  | .minKey => wrap "$minKey" (.number (.integer 1 (by decide)))
  | .maxKey => wrap "$maxKey" (.number (.integer 1 (by decide)))
  | .boolean b => .bool b
  | .int32 n => .number (.ofInt32 n)
  | .int64 n => .number (.ofInt64 n)
  | .double x => doubleToJson form x
  | .decimal x => wrapText "$numberDecimal" x.text
  | .string s => .string s
  | .symbol s => wrap "$symbol" (.string s)
  | .regex pattern options =>
    wrap "$regularExpression" (.object [("pattern", .string pattern), ("options", .string options)])
  | .code source => wrap "$code" (.string source)
  | .scopedCode source scope =>
    .object [("$code", .string source), ("$scope", .object (fieldsToJsonIn .raw scope))]
  | .binary subtype bytes => binaryToJson form subtype bytes
  | .objectId id => wrapText "$oid" (objectIdText id)
  | .dateTime millis => dateTimeToJson form millis
  | .timestamp seconds increment =>
    wrap "$timestamp" (.object
      [("t", .number (.ofUInt32 seconds)), ("i", .number (.ofUInt32 increment))])
  | .pointer collection id =>
    wrap "$dbPointer" (.object
      [("$ref", .string collection), ("$id", wrapText "$oid" (objectIdText id))])
  | .array items => .array (listToJsonIn form items)
  | .document fields => .object (fieldsToJsonIn form fields)
termination_by structural v => v

/-- The JSON values of values in a form. -/
def listToJsonIn (form : Form) : List Value → List Json
  | [] => []
  | v :: vs => toJsonIn form v :: listToJsonIn form vs
termination_by structural vs => vs

/-- The JSON fields of fields in a form. -/
def fieldsToJsonIn (form : Form) : List (String × Value) → List (String × Json)
  | [] => []
  | (k, v) :: fs => (k, toJsonIn form v) :: fieldsToJsonIn form fs
termination_by structural fs => fs

end

/-- The relaxed JSON value of a value. -/
def toJson (v : Value) : Json :=
  v.toJsonIn .relaxed

end Value

/-- The relaxed JSON object of a document. -/
def Document.toJson (doc : Document) : Json :=
  (Value.document doc).toJson

end Keyset
