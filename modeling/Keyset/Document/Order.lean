import Keyset.Document.Basic

/-!
# Equality and order of values

Values of different ranks are ordered by rank.  Within a rank, numbers of all widths compare as
doubles, texts by their characters, arrays item by item; kinds without an order of their own are all
equal.  Equality is finer than the order: it is exact in the type except that two numbers are equal
when their doubles are, and it does not depend on the order of a document's fields.
-/

namespace Keyset.Value

/-- The place of a value's type among the types, lowest first. -/
def rank : Value → Nat
  | .minKey => 0
  | .null | .undefined => 1
  | .int32 _ | .int64 _ | .double _ | .decimal _ => 2
  | .string _ | .symbol _ => 3
  | .document _ => 4
  | .array _ => 5
  | .binary _ _ => 6
  | .objectId _ => 7
  | .boolean _ => 8
  | .dateTime _ => 9
  | .timestamp _ _ => 10
  | .regex _ _ => 11
  | .code _ | .scopedCode _ _ | .pointer _ _ => 12
  | .maxKey => 255

/-! ### Equality -/

mutual

/-- Whether two values are the same: of one type, with doubles compared as numbers and documents
compared as sets of fields. -/
def same : Value → Value → Bool
  | .null, .null => true
  | .undefined, .undefined => true
  | .minKey, .minKey => true
  | .maxKey, .maxKey => true
  | .boolean a, .boolean b => a == b
  | .int32 a, .int32 b => a == b
  | .int64 a, .int64 b => a == b
  | .double a, .double b => a.equal b
  | .decimal a, .decimal b => a == b
  | .string a, .string b => a == b
  | .symbol a, .symbol b => a == b
  | .regex p a, .regex q b => p == q && a == b
  | .code a, .code b => a == b
  | .scopedCode a s, .scopedCode b t => a == b && s.length == t.length && sameFields s t
  | .binary s a, .binary t b => s == t && a == b
  | .objectId a, .objectId b => a == b
  | .dateTime a, .dateTime b => a == b
  | .timestamp a i, .timestamp b j => a == b && i == j
  | .pointer c a, .pointer d b => c == d && a == b
  | .array xs, .array ys => sameItems xs ys
  | .document fs, .document gs => fs.length == gs.length && sameFields fs gs
  | _, _ => false
termination_by structural v => v

/-- Whether two lists are the same item by item. -/
def sameItems : List Value → List Value → Bool
  | [], [] => true
  | x :: xs, y :: ys => same x y && sameItems xs ys
  | _, _ => false
termination_by structural xs => xs

/-- Whether each field of a list has the same value in a document. -/
def sameFields : List (String × Value) → Fields Value → Bool
  | [], _ => true
  | (k, x) :: fs, gs =>
    (match gs.get? k with
      | some y => same x y
      | none => false) && sameFields fs gs
termination_by structural fs => fs

end

/-- Whether two values are equal as a filter sees it: numbers by value, everything else by `same`. -/
def equal (a b : Value) : Bool :=
  match a.toDouble?, b.toDouble? with
  | some x, some y => x.equal y
  | _, _ => same a b

/-! ### Order -/

/-- The double that orders a number; decimals have none, which the order treats as a NaN. -/
def orderDouble (v : Value) : Double :=
  v.toDouble?.getD (.nan false)

mutual

/-- The order of two values. -/
def compare : Value → Value → Ordering
  | .array xs, .array ys => compareItems xs ys
  | a, b =>
    if a.rank ≠ b.rank then Ord.compare a.rank b.rank
    else if a.rank = 2 then a.orderDouble.compare b.orderDouble
    else
      match a, b with
      | .string x, .string y => Ord.compare x y
      | .boolean x, .boolean y => Ord.compare x y
      | .objectId x, .objectId y => Ord.compare x y
      | .dateTime x, .dateTime y => Ord.compare x y
      | .timestamp t i, .timestamp u j => (Ord.compare t u).then (Ord.compare i j)
      | _, _ => .eq
termination_by structural v => v

/-- The order of two lists: by the first items that differ in order, and of two lists of which one
begins the other by length. -/
def compareItems : List Value → List Value → Ordering
  | [], [] => .eq
  | [], _ :: _ => .lt
  | _ :: _, [] => .gt
  | x :: xs, y :: ys => (compare x y).then (compareItems xs ys)
termination_by structural xs => xs

end

/-- Equality of values of documents. -/
instance : BEq Value :=
  ⟨same⟩

end Keyset.Value
