/-!
# Words

Integers as machine words.  An integer has a word if some word has its value, and then that word is
the only one; the statement for each kind of word is named like `int64?_eq_some_iff`.
-/

namespace Keyset.Word

/-- The signed word of 32 bits with a value, if there is one. -/
def int32? (n : Int) : Option Int32 :=
  if -0x80000000 ≤ n ∧ n < 0x80000000 then some (Int32.ofInt n) else none

/-- The signed word of 64 bits with a value, if there is one. -/
def int64? (n : Int) : Option Int64 :=
  if -0x8000000000000000 ≤ n ∧ n < 0x8000000000000000 then some (Int64.ofInt n) else none

/-- The unsigned word of 32 bits with a value, if there is one. -/
def uint32? (n : Int) : Option UInt32 :=
  if 0 ≤ n ∧ n < 0x100000000 then some (UInt32.ofNat n.toNat) else none

/-- The unsigned word of 64 bits with a value, if there is one. -/
def uint64? (n : Int) : Option UInt64 :=
  if 0 ≤ n ∧ n < 0x10000000000000000 then some (UInt64.ofNat n.toNat) else none

theorem int32?_eq_some_iff {n : Int} {w : Int32} : int32? n = some w ↔ w.toInt = n := by
  have hlo := w.le_toInt
  have hhi := w.toInt_lt
  unfold int32?
  split
  case isTrue h =>
    rw [Option.some.injEq]
    constructor
    · intro hw
      rw [← hw, Int32.toInt_ofInt_of_le (by omega) (by omega)]
    · intro hw
      rw [← hw, Int32.ofInt_toInt]
  case isFalse h =>
    constructor
    · intro hw
      nomatch hw
    · intro hw
      omega

theorem int64?_eq_some_iff {n : Int} {w : Int64} : int64? n = some w ↔ w.toInt = n := by
  have hlo := w.le_toInt
  have hhi := w.toInt_lt
  unfold int64?
  split
  case isTrue h =>
    rw [Option.some.injEq]
    constructor
    · intro hw
      rw [← hw, Int64.toInt_ofInt_of_le (by omega) (by omega)]
    · intro hw
      rw [← hw, Int64.ofInt_toInt]
  case isFalse h =>
    constructor
    · intro hw
      nomatch hw
    · intro hw
      omega

theorem uint64?_eq_some_iff {n : Int} {w : UInt64} : uint64? n = some w ↔ w.toNat = n := by
  have hw := w.toNat_lt
  unfold uint64?
  split
  case isTrue h =>
    rw [Option.some.injEq, ← UInt64.toNat_inj, UInt64.toNat_ofNat_of_lt' (by unfold UInt64.size; omega)]
    omega
  case isFalse h =>
    constructor
    · intro hw
      nomatch hw
    · intro hw
      omega

end Keyset.Word
