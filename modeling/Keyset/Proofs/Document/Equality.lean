import Keyset.Proofs.Sorting

/-!
# Equality and order of nested values

Equality of numbers widens them as the order does, but only outside arrays.  So plain values that are not
both arrays are equal exactly if they are level in the order, and two arrays if they are level and the
numbers at each place are, besides, of one type and the same integer (`equal_iff_level_and_typed`).
Arrays of numbers of different types are level without being equal (`level_arrays_not_equal`).
-/

namespace Keyset.Value

/-! ### Values in arrays -/

/-- If two values are both numbers, they are of one type and hold the same integer, if any. -/
def NumbersAgree (a b : Value) : Prop :=
  a.toDouble?.isSome → b.toDouble?.isSome → a.typeName = b.typeName ∧ a.integer? = b.integer?

/-- Numbers are the same exactly if they are level and agree: equality of values in arrays is exact in the
type, and for integers it is exact in the value where the order compares doubles. -/
theorem same_iff_of_numbers {a b : Value} {x y : Double} (ha : a.isPlain = true)
    (hb : b.isPlain = true) (hx : a.toDouble? = some x) (hy : b.toDouble? = some y) :
    a.same b = true ↔ a.compare b = .eq ∧ NumbersAgree a b := by
  have hagree : NumbersAgree a b ↔ a.typeName = b.typeName ∧ a.integer? = b.integer? := by
    simp [NumbersAgree, hx, hy]
  rw [hagree]
  cases a <;> first | (cases hx; done) | skip
  all_goals cases b <;> first | (cases hy; done) | skip
  case int32.int32 m n =>
    constructor
    · intro h
      obtain rfl : m = n := beq_iff_eq.mp h
      exact ⟨compare_self _, rfl, rfl⟩
    · rintro ⟨-, -, h⟩
      exact beq_iff_eq.mpr (Int32.toInt_inj.mp (Option.some.inj h))
  case int64.int64 m n =>
    constructor
    · intro h
      obtain rfl : m = n := beq_iff_eq.mp h
      exact ⟨compare_self _, rfl, rfl⟩
    · rintro ⟨-, -, h⟩
      exact beq_iff_eq.mpr (Int64.toInt_inj.mp (Option.some.inj h))
  case double.double z w =>
    rw [compare_of_toDouble? hx hy, ← Double.equal_iff_compare_eq (isNaN_of_isPlain ha hx)
      (isNaN_of_isPlain hb hy), same, Option.some.inj hx, Option.some.inj hy]
    exact ⟨fun h => ⟨h, rfl, rfl⟩, And.left⟩
  -- numbers of two types are not the same
  all_goals
    constructor
    · exact fun h => by cases h
    · exact fun h => absurd h.2.1 (by simp [typeName])

/-- Plain values, the first of them no array, are the same exactly if they are level and agree as
numbers. -/
theorem same_iff_of_flat {a b : Value} (ha : a.isPlain = true) (hb : b.isPlain = true)
    (hflat : ∀ xs, a ≠ .array xs) :
    a.same b = true ↔ a.compare b = .eq ∧ NumbersAgree a b := by
  by_cases hrank : a.rank = b.rank
  · cases hx : a.toDouble? with
    | some x =>
      obtain ⟨y, hy⟩ := exists_toDouble?_of_rank hb (hrank ▸ rank_of_toDouble? hx)
      exact same_iff_of_numbers ha hb hx hy
    | none =>
      rw [same_iff_compare_eq ha hb hflat hx hrank]
      have hagree : NumbersAgree a b := by
        intro hsome
        rw [hx] at hsome
        cases hsome
      exact ⟨fun h => ⟨h, hagree⟩, And.left⟩
  · constructor
    · exact fun h => absurd (rank_eq_of_same h) hrank
    · exact fun h => absurd h.1 (compare_ne_eq_of_rank_ne hrank)

mutual

/-- The pairs of values, not both arrays, that stand at one place of two values. -/
def places : Value → Value → List (Value × Value)
  | .array xs, .array ys => placesOfItems xs ys
  | a, b => [(a, b)]
termination_by structural v => v

/-- The pairs of values that stand at one place of two lists. -/
def placesOfItems : List Value → List Value → List (Value × Value)
  | x :: xs, y :: ys => places x y ++ placesOfItems xs ys
  | _, _ => []
termination_by structural xs => xs

end

theorem places_of_flat {a b : Value} (h : ∀ xs ys, a = .array xs → b ≠ .array ys) :
    places a b = [(a, b)] := by
  unfold places
  split
  · exact absurd rfl (h _ _ rfl)
  · rfl

/-- Numbers agree wherever two of them stand at one place of two lists. -/
def AgreeEverywhere (xs ys : List Value) : Prop :=
  ∀ pair ∈ placesOfItems xs ys, NumbersAgree pair.1 pair.2

/-- Two values are the same exactly if they are level and their numbers agree place by place.  It has a
name of its own as the induction goes through the items of arrays. -/
def SameByPlaces (a b : Value) : Prop :=
  a.same b = true ↔ a.compare b = .eq ∧ ∀ pair ∈ places a b, NumbersAgree pair.1 pair.2

theorem sameItems_iff {xs ys : List Value} (h : ∀ x ∈ xs, ∀ y ∈ ys, SameByPlaces x y) :
    sameItems xs ys = true ↔ compareItems xs ys = .eq ∧ AgreeEverywhere xs ys := by
  induction xs generalizing ys with
  | nil =>
    cases ys with
    | nil => exact ⟨fun _ => ⟨rfl, nofun⟩, fun _ => rfl⟩
    | cons y ys => exact ⟨nofun, fun h => nomatch h.1⟩
  | cons x xs ih =>
    cases ys with
    | nil => exact ⟨nofun, fun h => nomatch h.1⟩
    | cons y ys =>
      have hitem := h x List.mem_cons_self y List.mem_cons_self
      have hitems := ih fun x hx y hy =>
        h x (List.mem_cons_of_mem _ hx) y (List.mem_cons_of_mem _ hy)
      rw [SameByPlaces] at hitem
      rw [AgreeEverywhere] at hitems ⊢
      rw [sameItems, Bool.and_eq_true, hitem, hitems, compareItems, Ordering.then_eq_eq, placesOfItems,
        List.forall_mem_append]
      exact and_and_and_comm

theorem sameByPlaces {a b : Value} (ha : a.isPlain = true) (hb : b.isPlain = true) :
    SameByPlaces a b := by
  induction a using arrayInduction generalizing b with
  | hflat a hflat =>
    rw [SameByPlaces, places_of_flat fun xs _ h => absurd h (hflat xs), List.forall_mem_singleton]
    exact same_iff_of_flat ha hb hflat
  | harray xs ih =>
    rw [isPlain, arePlain_iff] at ha
    by_cases hrank : (Value.array xs).rank = b.rank
    · obtain ⟨ys, rfl⟩ := rank_eq_five.mp hrank.symm
      rw [isPlain, arePlain_iff] at hb
      exact sameItems_iff fun x hx y hy => ih x hx (ha x hx) (hb y hy)
    · constructor
      · exact fun h => absurd (rank_eq_of_same h) hrank
      · exact fun h => absurd h.1 (compare_ne_eq_of_rank_ne hrank)

/-- **Equal values are level values whose arrays agree on the types of numbers.**  Two plain values are
equal exactly if neither comes before the other and, if they are arrays, the numbers at each place are of
one type and hold the same integer, if any.  Outside arrays equality and order agree. -/
theorem equal_iff_level_and_typed {a b : Value} (ha : a.isPlain = true) (hb : b.isPlain = true) :
    a.equal b = true ↔
      a.compare b = .eq ∧ ∀ xs ys, a = .array xs → b = .array ys → AgreeEverywhere xs ys := by
  by_cases hflat : ∀ xs, a ≠ .array xs
  · rw [equal_iff_compare_eq_of_flat ha hb hflat]
    exact ⟨fun h => ⟨h, fun xs _ hxs => absurd hxs (hflat xs)⟩, And.left⟩
  obtain ⟨xs, rfl⟩ := not_forall_not.mp hflat
  by_cases hrank : (Value.array xs).rank = b.rank
  · obtain ⟨ys, rfl⟩ := rank_eq_five.mp hrank.symm
    -- arrays have no double, so that their equality looks at types
    have hsame : (Value.array xs).equal (.array ys) = true ↔
        (Value.array xs).compare (.array ys) = .eq ∧ AgreeEverywhere xs ys := sameByPlaces ha hb
    rw [hsame]
    refine and_congr_right fun _ => ⟨?_, fun h => h xs ys rfl rfl⟩
    rintro h xs' ys' hxs hys
    obtain rfl := Value.array.inj hxs
    obtain rfl := Value.array.inj hys
    exact h
  · constructor
    · exact fun h => absurd (rank_eq_of_equal h) hrank
    · exact fun h => absurd h.1 (compare_ne_eq_of_rank_ne hrank)

/-- Nested arrays with numbers of the same types, a zero of either sign among them. -/
theorem equal_iff_level_and_typed_nested :
    let a := array [int32 1, array [double (.zero false), string "x"], objectId 7]
    let b := array [int32 1, array [double (.zero true), string "x"], objectId 7]
    (a.isPlain = true ∧ b.isPlain = true) ∧ a.compare b = .eq ∧ a.equal b = true := by
  intro a b
  have ha : a.isPlain = true := by decide +kernel
  have hb : b.isPlain = true := by decide +kernel
  have hlevel : a.compare b = .eq := by decide +kernel
  have hagree : ∀ xs ys, a = .array xs → b = .array ys → AgreeEverywhere xs ys := by
    rintro xs ys hxs hys
    obtain rfl := Value.array.inj hxs
    obtain rfl := Value.array.inj hys
    simp [AgreeEverywhere, placesOfItems, places, NumbersAgree, toDouble?, typeName, integer?]
  exact ⟨⟨ha, hb⟩, hlevel, (equal_iff_level_and_typed ha hb).mpr ⟨hlevel, hagree⟩⟩

/-- Two arrays of one that are level but not equal: the number is an integer in the first and a double in
the second.  Outside arrays the two numbers are equal. -/
theorem level_arrays_not_equal :
    let a := array [int32 1]
    let b := array [double (.ofInt 1)]
    (a.isPlain = true ∧ b.isPlain = true) ∧ a.compare b = .eq ∧ a.equal b = false ∧
      (int32 1).equal (double (.ofInt 1)) = true ∧ ¬(a.equal b = true ↔ a.compare b = .eq) := by
  intro a b
  have hlevel : a.compare b = .eq := by decide +kernel
  have hequal : a.equal b = false := rfl
  refine ⟨⟨rfl, by decide +kernel⟩, hlevel, hequal, by decide +kernel, ?_⟩
  intro h
  rw [h.mpr hlevel] at hequal
  cases hequal

end Keyset.Value
