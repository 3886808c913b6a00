import Keyset.Document.Order
import Keyset.Proofs.Double.Rounding
import Mathlib.Tactic.SplitIfs

/-!
# The order of values

Swapping two values swaps their order (`compare_swap`).  Values without NaN, decimals and symbols are
in a total preorder (`compare_total_preorder`); with any of these the order is not transitive, because a
NaN or a decimal equals every number and a symbol every text.  Where no arrays are compared, equality and
order agree on plain values (`equal_iff_compare_eq_of_flat`), among them the scalars.
-/

namespace Keyset

/-! ### Orders of three things -/

/-- How the order of `a` and `c` follows from those of `a` and `b` and of `b` and `c`: an equal
step changes nothing, and two steps in one direction lead in that direction. -/
def Composes (ab bc ac : Ordering) : Prop :=
  (ab = .eq → ac = bc) ∧ (bc = .eq → ac = ab) ∧ (ab = bc → ac = ab)

/-- An equal first step leaves the second one, and so does a step in the same direction. -/
theorem composes_right {ab bc : Ordering} (h : bc = .eq → ab = .eq) : Composes ab bc bc :=
  ⟨fun _ => rfl, fun hbc => hbc.trans (h hbc).symm, Eq.symm⟩

theorem composes_left {ab bc : Ordering} (h : ab = .eq → bc = .eq) : Composes ab bc ab :=
  ⟨fun hab => hab.trans (h hab).symm, fun _ => rfl, fun _ => rfl⟩

/-- Steps in opposite directions lead anywhere. -/
theorem composes_opposite {ab : Ordering} (h : ab ≠ .eq) (ac : Ordering) :
    Composes ab ab.swap ac := by
  refine ⟨fun hab => absurd hab h, fun hba => absurd (Ordering.swap_eq_eq.mp hba) h, fun hsame => ?_⟩
  cases ab with
  | eq => exact absurd rfl h
  | lt => cases hsame
  | gt => cases hsame

theorem composes_cmp {α : Type} (cmp : α → α → Ordering) [Std.TransCmp cmp] (a b c : α) :
    Composes (cmp a b) (cmp b c) (cmp a c) := by
  refine ⟨fun h => Std.TransCmp.congr_left h, fun h => (Std.TransCmp.congr_right h).symm, ?_⟩
  intro h
  cases hab : cmp a b with
  | lt => exact Std.TransCmp.lt_trans hab (h ▸ hab)
  | eq => exact Std.TransCmp.eq_trans hab (h ▸ hab)
  | gt => exact Std.TransCmp.gt_trans hab (h ▸ hab)

/-- Orders taken one after the other compose part by part. -/
theorem Composes.then {ab bc ac ab' bc' ac' : Ordering} (h : Composes ab bc ac)
    (h' : ab = .eq → bc = .eq → Composes ab' bc' ac') :
    Composes (ab.then ab') (bc.then bc') (ac.then ac') := by
  obtain ⟨h1, h2, h3⟩ := h
  cases ab with
  | eq =>
    cases bc with
    | eq =>
      rw [h1 rfl]
      exact h' rfl rfl
    | lt =>
      rw [h1 rfl]
      show Composes ab' .lt .lt
      exact composes_right fun h => absurd h (by decide)
    | gt =>
      rw [h1 rfl]
      show Composes ab' .gt .gt
      exact composes_right fun h => absurd h (by decide)
  | lt =>
    cases bc with
    | eq =>
      rw [h2 rfl]
      show Composes .lt bc' .lt
      exact composes_left fun h => absurd h (by decide)
    | lt =>
      rw [h3 rfl]
      exact composes_left fun h => h
    | gt =>
      show Composes .lt .gt (ac.then ac')
      exact composes_opposite (by decide) _
  | gt =>
    cases bc with
    | eq =>
      rw [h2 rfl]
      show Composes .gt bc' .gt
      exact composes_left fun h => absurd h (by decide)
    | lt =>
      show Composes .gt .lt (ac.then ac')
      exact composes_opposite (by decide) _
    | gt =>
      rw [h3 rfl]
      exact composes_left fun h => h

theorem Composes.swap {ab bc ac : Ordering} (h : Composes ab bc ac) :
    Composes ab.swap bc.swap ac.swap := by
  obtain ⟨h1, h2, h3⟩ := h
  refine ⟨fun h => ?_, fun h => ?_, fun h => ?_⟩
  · rw [h1 (Ordering.swap_eq_eq.mp h)]
  · rw [h2 (Ordering.swap_eq_eq.mp h)]
  · rw [h3 (Ordering.swap_inj.mp h)]

theorem Composes.isLE {ab bc ac : Ordering} (h : Composes ab bc ac) (hab : ab.isLE = true)
    (hbc : bc.isLE = true) : ac.isLE = true := by
  obtain ⟨h1, h2, h3⟩ := h
  cases ab <;> cases bc <;> simp_all

namespace Double

theorem compare_swap (x y : Double) : (x.compare y).swap = y.compare x := by
  unfold compare
  rw [Bool.or_comm]
  split_ifs
  · rfl
  · exact (Std.OrientedCmp.eq_swap).symm

theorem composes_compare {x y z : Double} (hx : x.isNaN = false) (hy : y.isNaN = false)
    (hz : z.isNaN = false) : Composes (x.compare y) (y.compare z) (x.compare z) := by
  unfold compare
  simp only [hx, hy, hz, Bool.or_self, Bool.false_eq_true, if_false]
  exact composes_cmp (Ord.compare : Int → Int → Ordering) x.key y.key z.key

theorem equal_iff_compare_eq {x y : Double} (hx : x.isNaN = false) (hy : y.isNaN = false) :
    x.equal y = true ↔ x.compare y = .eq := by
  unfold equal compare
  simp [hx, hy]

end Double

namespace Value

/-! ### What a value is ordered by within its rank -/

/-- What orders a value among those of its rank. -/
inductive Ordinal where
  | none
  | number (x : Double)
  | text (s : String)
  | flag (b : Bool)
  | id (n : ObjectId)
  | instant (millis : Int64)
  | stamp (seconds increment : UInt32)

namespace Ordinal

/-- The order of two ordinals; those of different kinds are not told apart. -/
def compare : Ordinal → Ordinal → Ordering
  | number x, number y => x.compare y
  | text x, text y => Ord.compare x y
  | flag x, flag y => Ord.compare x y
  | id x, id y => Ord.compare x y
  | instant x, instant y => Ord.compare x y
  | stamp t i, stamp u j => (Ord.compare t u).then (Ord.compare i j)
  | _, _ => .eq

/-- The kind of an ordinal. -/
def kind : Ordinal → Nat
  | none => 0
  | number _ => 1
  | text _ => 2
  | flag _ => 3
  | id _ => 4
  | instant _ => 5
  | stamp _ _ => 6

/-- Whether an ordinal is no NaN. -/
def isProper : Ordinal → Bool
  | number x => !x.isNaN
  | _ => true

theorem compare_swap (a b : Ordinal) : (a.compare b).swap = b.compare a := by
  have swap {α : Type} [Ord α] [Std.OrientedOrd α] (x y : α) :
      (Ord.compare x y).swap = Ord.compare y x := Std.OrientedCmp.eq_swap.symm
  cases a <;> cases b
  case number.number x y => exact Double.compare_swap x y
  case text.text x y => exact swap x y
  case flag.flag x y => exact swap x y
  case id.id x y => exact swap x y
  case instant.instant x y => exact swap x y
  case stamp.stamp t i u j =>
    show ((Ord.compare t u).then (Ord.compare i j)).swap = _
    rw [Ordering.swap_then, swap, swap]
    rfl
  all_goals rfl

theorem composes_compare {a b c : Ordinal} (ha : a.isProper = true) (hb : b.isProper = true)
    (hc : c.isProper = true) (hab : a.kind = b.kind) (hbc : b.kind = c.kind) :
    Composes (a.compare b) (b.compare c) (a.compare c) := by
  cases a <;> cases b <;> simp [kind] at hab
  all_goals cases c <;> simp [kind] at hbc
  case none.none.none => exact composes_left fun h => h
  case number.number.number x y z =>
    exact Double.composes_compare (by simpa [isProper] using ha) (by simpa [isProper] using hb)
      (by simpa [isProper] using hc)
  case stamp.stamp.stamp t i u j v k =>
    exact (composes_cmp Ord.compare t u v).then fun _ _ => composes_cmp Ord.compare i j k
  case text.text.text x y z => exact composes_cmp Ord.compare x y z
  case flag.flag.flag x y z => exact composes_cmp Ord.compare x y z
  case id.id.id x y z => exact composes_cmp Ord.compare x y z
  case instant.instant.instant x y z => exact composes_cmp Ord.compare x y z

end Ordinal

/-- What orders a value that is no array. -/
def ordinal : Value → Ordinal
  | .int32 n => .number (.ofInt n.toInt)
  | .int64 n => .number (.ofInt n.toInt)
  | .double x => .number x
  | .decimal _ => .number (.nan false)
  | .string s => .text s
  | .boolean b => .flag b
  | .objectId id => .id id
  | .dateTime millis => .instant millis
  | .timestamp t i => .stamp t i
  | _ => .none

/-- The order of two values that are not both arrays. -/
def compareFlat (a b : Value) : Ordering :=
  (Ord.compare a.rank b.rank).then (a.ordinal.compare b.ordinal)

theorem ordinal_of_rank {a : Value} (h : a.rank = 2) : a.ordinal = .number a.orderDouble := by
  cases a <;> simp [rank] at h <;> simp [ordinal, orderDouble, toDouble?]

theorem compare_eq_compareFlat {a b : Value} (h : ∀ xs ys, a = .array xs → b ≠ .array ys) :
    a.compare b = compareFlat a b := by
  unfold compare compareFlat
  split
  · exact absurd rfl (h _ _ rfl)
  by_cases hr : a.rank = b.rank
  · rw [if_neg (not_not_intro hr), hr, Nat.compare_eq_eq.mpr rfl]
    -- numbers of all widths are ordered as doubles
    by_cases h2 : a.rank = 2
    · rw [if_pos (hr ▸ h2), ordinal_of_rank h2, ordinal_of_rank (hr ▸ h2)]
      rfl
    · rw [if_neg (hr ▸ h2)]
      cases a <;> first
        | exact absurd rfl h2
        | (cases b <;> first
            | (simp [rank] at hr; done)
            | rfl)
  · rw [if_pos hr]
    have hne : Ord.compare a.rank b.rank ≠ .eq := fun heq => hr (Nat.compare_eq_eq.mp heq)
    cases hc : Ord.compare a.rank b.rank with
    | eq => exact absurd hc hne
    | lt => rfl
    | gt => rfl

/-- A property of all values that are no arrays, and of an array if its items have it, is one of all
values. -/
theorem arrayInduction {P : Value → Prop} (hflat : ∀ v, (∀ xs, v ≠ .array xs) → P v)
    (harray : ∀ xs, (∀ x ∈ xs, P x) → P (.array xs)) (v : Value) : P v := by
  -- the items of an array are smaller than the array
  suffices h : ∀ n, ∀ v : Value, sizeOf v < n → P v from h _ v (Nat.lt_succ_self _)
  intro n
  induction n with
  | zero => exact fun v hv => absurd hv (Nat.not_lt_zero _)
  | succ n ih =>
    intro v hv
    by_cases h : ∃ xs, v = .array xs
    · obtain ⟨xs, rfl⟩ := h
      refine harray xs fun x hx => ih x ?_
      have hsize := List.sizeOf_lt_of_mem hx
      simp only [array.sizeOf_spec] at hv
      omega
    · exact hflat v fun xs hxs => h ⟨xs, hxs⟩

/-! ### Swapping -/

theorem compareFlat_swap (a b : Value) : (compareFlat a b).swap = compareFlat b a := by
  unfold compareFlat
  have hrank : (Ord.compare a.rank b.rank).swap = Ord.compare b.rank a.rank :=
    Std.OrientedCmp.eq_swap.symm
  rw [Ordering.swap_then, Ordinal.compare_swap, hrank]

/-- The order of two values is the opposite of their order the other way round. -/
theorem compare_swap (a b : Value) : (a.compare b).swap = b.compare a := by
  induction a using arrayInduction generalizing b with
  | hflat a ha =>
    rw [compare_eq_compareFlat fun xs _ h => absurd h (ha xs),
      compare_eq_compareFlat fun _ xs _ => ha xs]
    exact compareFlat_swap a b
  | harray xs ih =>
    by_cases hb : ∃ ys, b = .array ys
    · -- two arrays are compared item by item
      obtain ⟨ys, rfl⟩ := hb
      rw [compare, compare]
      induction xs generalizing ys with
      | nil => cases ys <;> rfl
      | cons x xs ihxs =>
        cases ys with
        | nil => rfl
        | cons y ys =>
          rw [compareItems, compareItems, Ordering.swap_then, ih x List.mem_cons_self,
            ihxs fun z hz => ih z (List.mem_cons_of_mem _ hz)]
    · have hflat : ∀ ys, b ≠ .array ys := fun ys h => hb ⟨ys, h⟩
      rw [compare_eq_compareFlat fun _ ys _ => hflat ys,
        compare_eq_compareFlat fun ys _ h => absurd h (hflat ys)]
      exact compareFlat_swap _ b

theorem compare_self (a : Value) : a.compare a = .eq := by
  have hswap := compare_swap a a
  cases h : a.compare a <;> rw [h] at hswap <;> first | rfl | cases hswap

/-! ### Comparable values -/

mutual

/-- Whether a value holds no NaN, no decimal and no symbol, be it in arrays. -/
def isComparable : Value → Bool
  | .double x => !x.isNaN
  | .decimal _ | .symbol _ => false
  | .array items => areComparable items
  | _ => true
termination_by structural v => v

/-- Whether all items are comparable. -/
def areComparable : List Value → Bool
  | [] => true
  | v :: vs => isComparable v && areComparable vs
termination_by structural vs => vs

end

theorem areComparable_iff {xs : List Value} :
    areComparable xs = true ↔ ∀ x ∈ xs, x.isComparable = true := by
  induction xs with
  | nil => simp [areComparable]
  | cons x xs ih => simp [areComparable, ih]

/-- The kind of the ordinals of a rank. -/
def kindOfRank : Nat → Nat
  | 2 => 1
  | 3 => 2
  | 8 => 3
  | 7 => 4
  | 9 => 5
  | 10 => 6
  | _ => 0

theorem kind_ordinal {a : Value} (h : a.isComparable = true) :
    a.ordinal.kind = kindOfRank a.rank := by
  cases a <;> first | rfl | cases h

theorem isProper_ordinal {a : Value} (h : a.isComparable = true) : a.ordinal.isProper = true := by
  cases a with
  | int32 n => simp [ordinal, Ordinal.isProper, Double.isNaN_ofInt]
  | int64 n => simp [ordinal, Ordinal.isProper, Double.isNaN_ofInt]
  | double x => exact h
  | decimal d => cases h
  | _ => rfl

theorem composes_compareFlat {a b c : Value} (ha : a.isComparable = true)
    (hb : b.isComparable = true) (hc : c.isComparable = true) :
    Composes (compareFlat a b) (compareFlat b c) (compareFlat a c) := by
  refine (composes_cmp Ord.compare a.rank b.rank c.rank).then fun hab hbc => ?_
  have hab : a.rank = b.rank := Nat.compare_eq_eq.mp hab
  have hbc : b.rank = c.rank := Nat.compare_eq_eq.mp hbc
  apply Ordinal.composes_compare (isProper_ordinal ha) (isProper_ordinal hb) (isProper_ordinal hc)
  · rw [kind_ordinal ha, kind_ordinal hb, hab]
  · rw [kind_ordinal hb, kind_ordinal hc, hbc]

theorem rank_eq_five {a : Value} : a.rank = 5 ↔ ∃ xs, a = .array xs := by
  cases a <;> simp [rank]

theorem compare_of_rank_ne {a b : Value} (h : a.rank ≠ b.rank) :
    a.compare b = Ord.compare a.rank b.rank := by
  rw [compare_eq_compareFlat fun xs ys ha hb => h (by rw [ha, hb]; rfl)]
  unfold compareFlat
  have hne : Ord.compare a.rank b.rank ≠ .eq := fun heq => h (Nat.compare_eq_eq.mp heq)
  cases hc : Ord.compare a.rank b.rank with
  | eq => exact absurd hc hne
  | lt => rfl
  | gt => rfl

theorem compare_ne_eq_of_rank_ne {a b : Value} (h : a.rank ≠ b.rank) : a.compare b ≠ .eq := by
  rw [compare_of_rank_ne h]
  exact fun heq => h (Nat.compare_eq_eq.mp heq)

/-- Values that are not all of one rank are ordered by their ranks. -/
theorem composes_compare_of_rank_ne {a b c : Value} (h : ¬(a.rank = b.rank ∧ b.rank = c.rank)) :
    Composes (a.compare b) (b.compare c) (a.compare c) := by
  have hranks := composes_cmp (Ord.compare : Nat → Nat → Ordering) a.rank b.rank c.rank
  by_cases hab : a.rank = b.rank
  · have hbc : b.rank ≠ c.rank := fun hbc => h ⟨hab, hbc⟩
    have hstep : a.compare c = b.compare c := by
      rw [compare_of_rank_ne (hab ▸ hbc), compare_of_rank_ne hbc, hab]
    rw [hstep]
    exact composes_right fun heq => absurd heq (compare_ne_eq_of_rank_ne hbc)
  by_cases hbc : b.rank = c.rank
  · have hstep : a.compare c = a.compare b := by
      rw [compare_of_rank_ne (hbc ▸ hab), compare_of_rank_ne hab, hbc]
    rw [hstep]
    exact composes_left fun heq => absurd heq (compare_ne_eq_of_rank_ne hab)
  -- all three ranks differ, unless the last is the first one again
  rw [compare_of_rank_ne hab, compare_of_rank_ne hbc]
  by_cases hac : a.rank = c.rank
  · have hswap : Ord.compare b.rank c.rank = (Ord.compare a.rank b.rank).swap := by
      rw [← hac]
      exact Std.OrientedCmp.eq_swap
    have hne : Ord.compare a.rank b.rank ≠ .eq := fun heq => hab (Nat.compare_eq_eq.mp heq)
    rw [hswap]
    exact composes_opposite hne _
  · rw [compare_of_rank_ne hac]
    exact hranks

/-- Lists whose items compose compose: by the first items that are told apart. -/
theorem composes_compareItems {xs : List Value}
    (h : ∀ x ∈ xs, ∀ y z : Value, y.isComparable = true → z.isComparable = true →
      Composes (x.compare y) (y.compare z) (x.compare z))
    (ys zs : List Value) (hys : ∀ y ∈ ys, y.isComparable = true)
    (hzs : ∀ z ∈ zs, z.isComparable = true) :
    Composes (compareItems xs ys) (compareItems ys zs) (compareItems xs zs) := by
  -- where one list ends before another it comes first, and otherwise their first items decide
  induction xs generalizing ys zs with
  | nil =>
    cases ys with
    | nil =>
      cases zs with
      | nil => exact composes_left fun h => h
      | cons z zs => exact composes_right fun _ => rfl
    | cons y ys =>
      cases zs with
      | nil =>
        show Composes .lt .gt .eq
        exact composes_opposite (by decide) _
      | cons z zs =>
        show Composes .lt (compareItems (y :: ys) (z :: zs)) .lt
        exact composes_left fun h => absurd h (by decide)
  | cons x xs ih =>
    cases ys with
    | nil =>
      cases zs with
      | nil => exact composes_left fun _ => rfl
      | cons z zs =>
        show Composes .gt .lt (compareItems (x :: xs) (z :: zs))
        exact composes_opposite (by decide) _
    | cons y ys =>
      cases zs with
      | nil =>
        show Composes (compareItems (x :: xs) (y :: ys)) .gt .gt
        exact composes_right fun h => absurd h (by decide)
      | cons z zs =>
        rw [List.forall_mem_cons] at hys hzs
        refine (h x List.mem_cons_self y z hys.1 hzs.1).then fun _ _ => ?_
        exact ih (fun w hw => h w (List.mem_cons_of_mem _ hw)) ys zs hys.2 hzs.2

/-- The orders of comparable values compose. -/
theorem composes_compare {a b c : Value} (ha : a.isComparable = true) (hb : b.isComparable = true)
    (hc : c.isComparable = true) :
    Composes (a.compare b) (b.compare c) (a.compare c) := by
  -- either the ranks decide, or the three values are arrays, or none of them is
  induction a using arrayInduction generalizing b c with
  | hflat a hflat =>
    by_cases hranks : a.rank = b.rank ∧ b.rank = c.rank
    · have hflatb : ∀ xs, b ≠ .array xs := fun xs h => by
        obtain ⟨ys, hys⟩ := rank_eq_five.mp (hranks.1.trans (rank_eq_five.mpr ⟨xs, h⟩))
        exact hflat ys hys
      rw [compare_eq_compareFlat fun xs _ h => absurd h (hflat xs),
        compare_eq_compareFlat fun xs _ h => absurd h (hflatb xs),
        compare_eq_compareFlat fun xs _ h => absurd h (hflat xs)]
      exact composes_compareFlat ha hb hc
    · exact composes_compare_of_rank_ne hranks
  | harray xs ih =>
    by_cases hranks : (Value.array xs).rank = b.rank ∧ b.rank = c.rank
    · obtain ⟨ys, rfl⟩ := rank_eq_five.mp hranks.1.symm
      obtain ⟨zs, rfl⟩ := rank_eq_five.mp hranks.2.symm
      simp only [isComparable, areComparable_iff] at ha hb hc
      exact composes_compareItems (fun x hx y z hy hz => ih x hx (ha x hx) hy hz) ys zs hb hc
    · exact composes_compare_of_rank_ne hranks

/-- Comparable values are ordered transitively. -/
theorem isLE_compare_trans {a b c : Value} (ha : a.isComparable = true)
    (hb : b.isComparable = true) (hc : c.isComparable = true) (hab : (a.compare b).isLE = true)
    (hbc : (b.compare c).isLE = true) : (a.compare c).isLE = true :=
  (composes_compare ha hb hc).isLE hab hbc

/-- **The order of values is a total preorder** on those that hold no NaN, no decimal and no symbol.  A
value is level with itself, and two values compare the other way round as the opposite; if a first value
does not come after a second, nor that after a third, then the first does not come after the third.  To
be level is an equivalence, and values that are level stand in the same order to every other value. -/
theorem compare_total_preorder {a b c : Value} (ha : a.isComparable = true)
    (hb : b.isComparable = true) (hc : c.isComparable = true) :
    a.compare a = .eq ∧ a.compare b = (b.compare a).swap ∧
      (a.compare b ≠ .gt → b.compare c ≠ .gt → a.compare c ≠ .gt) ∧
      (a.compare b = .eq → b.compare a = .eq) ∧
      (a.compare b = .eq → b.compare c = .eq → a.compare c = .eq) ∧
      (a.compare b = .eq → a.compare c = b.compare c ∧ c.compare a = c.compare b) := by
  have hswap : a.compare b = (b.compare a).swap := (compare_swap b a).symm
  have hlevel : a.compare b = .eq → a.compare c = b.compare c := (composes_compare ha hb hc).1
  refine ⟨compare_self a, hswap, ?_, ?_, ?_, ?_⟩
  · intro hab hbc
    apply Ordering.isLE_iff_ne_gt.mp
    exact isLE_compare_trans ha hb hc (Ordering.isLE_iff_ne_gt.mpr hab)
      (Ordering.isLE_iff_ne_gt.mpr hbc)
  · intro hab
    rw [hab] at hswap
    exact Ordering.swap_eq_eq.mp hswap.symm
  · intro hab hbc
    rw [hlevel hab]
    exact hbc
  · intro hab
    have hac := hlevel hab
    refine ⟨hac, ?_⟩
    rw [← compare_swap a c, ← compare_swap b c, hac]

/-- Nested lists with numbers of three widths: two that are level, and a longer one after both. -/
theorem compare_total_preorder_nested :
    let a := array [int32 1, array [boolean false]]
    let b := array [double (.ofInt 1), array [boolean false]]
    let c := array [int64 1, array [boolean false], null]
    (a.isComparable = true ∧ b.isComparable = true ∧ c.isComparable = true) ∧
      (a.compare b = .eq ∧ b.compare c = .lt) ∧
      a.compare a = .eq ∧ b.compare a = .eq ∧ a.compare c ≠ .gt ∧ a.compare c = b.compare c := by
  intro a b c
  have ha : a.isComparable = true := rfl
  have hb : b.isComparable = true := by decide +kernel
  have hc : c.isComparable = true := rfl
  have hab : a.compare b = .eq := by decide +kernel
  have hbc : b.compare c = .lt := by decide +kernel
  obtain ⟨hself, -, htrans, hsymm, -, hlevel⟩ := compare_total_preorder ha hb hc
  have hab' : a.compare b ≠ .gt := by
    rw [hab]
    decide
  have hbc' : b.compare c ≠ .gt := by
    rw [hbc]
    decide
  exact ⟨⟨ha, hb, hc⟩, ⟨hab, hbc⟩, hself, hsymm hab, htrans hab' hbc', (hlevel hab).1⟩

/-- A NaN is level with every number, so that two does not come after it, nor it after one. -/
example : (int32 2).compare (double (.nan false)) = .eq ∧
    (double (.nan false)).compare (int32 1) = .eq ∧ (int32 2).compare (int32 1) = .gt := by
  decide +kernel

/-! ### Equality -/

/-- Whether a value is null, a number other than NaN and a decimal, a text or a truth value. -/
def isScalar : Value → Bool
  | .null | .int32 _ | .int64 _ | .string _ | .boolean _ => true
  | .double x => !x.isNaN
  | _ => false

theorem isComparable_of_isScalar {a : Value} (h : a.isScalar = true) : a.isComparable = true := by
  cases a <;> first | rfl | exact h | cases h

theorem rank_of_isScalar {a : Value} (h : a.isScalar = true) :
    a.rank = 1 ∨ a.rank = 2 ∨ a.rank = 3 ∨ a.rank = 8 := by
  cases a <;> first | (simp [rank]; done) | cases h

theorem eq_null_of_rank {a : Value} (h : a.isScalar = true) (hrank : a.rank = 1) : a = .null := by
  cases a <;> first | rfl | (cases hrank; done) | cases h

/-- A comparable value of the rank of a scalar other than null is a scalar. -/
theorem isScalar_of_rank {a b : Value} (hb : b.isScalar = true) (hnull : b ≠ .null)
    (hrank : a.rank = b.rank) (ha : a.isComparable = true) : a.isScalar = true := by
  have hranks := rank_of_isScalar hb
  have hne : b.rank ≠ 1 := fun h => hnull (eq_null_of_rank hb h)
  rw [← hrank] at hranks hne
  cases a <;> first
    | rfl
    | exact ha
    | (cases ha; done)
    | simp [rank] at hranks hne

theorem ne_array_of_isScalar {a : Value} (h : a.isScalar = true) (xs : List Value) :
    a ≠ .array xs := by
  rintro rfl
  cases h

/-- Values of different ranks are not the same. -/
theorem rank_eq_of_same {a b : Value} (h : a.same b = true) : a.rank = b.rank := by
  cases a <;> cases b <;> first | rfl | simp [same] at h

theorem rank_of_toDouble? {a : Value} {x : Double} (h : a.toDouble? = some x) : a.rank = 2 := by
  cases a <;> first | rfl | cases h

theorem ordinal_of_toDouble? {a : Value} {x : Double} (h : a.toDouble? = some x) :
    a.ordinal = .number x := by
  rw [ordinal_of_rank (rank_of_toDouble? h), orderDouble, h]
  rfl

/-- Values of different ranks are not equal. -/
theorem rank_eq_of_equal {a b : Value} (h : a.equal b = true) : a.rank = b.rank := by
  unfold equal at h
  split at h
  · rename_i x y hx hy
    rw [rank_of_toDouble? hx, rank_of_toDouble? hy]
  · exact rank_eq_of_same h

/-- Numbers compare as their doubles. -/
theorem compare_of_toDouble? {a b : Value} {x y : Double} (ha : a.toDouble? = some x)
    (hb : b.toDouble? = some y) : a.compare b = x.compare y := by
  have hflat : ∀ xs ys, a = .array xs → b ≠ .array ys := by
    rintro xs ys rfl
    cases ha
  rw [compare_eq_compareFlat hflat, compareFlat, rank_of_toDouble? ha, rank_of_toDouble? hb,
    ordinal_of_toDouble? ha, ordinal_of_toDouble? hb]
  rfl

/-! ### Plain values -/

mutual

/-- Whether a value is null, a number other than NaN and a decimal, a text, a truth value, an identifier,
an instant or a stamp, or an array of such values at any depth. -/
def isPlain : Value → Bool
  | .null | .int32 _ | .int64 _ | .string _ | .boolean _ | .objectId _ | .dateTime _
  | .timestamp _ _ => true
  | .double x => !x.isNaN
  | .array items => arePlain items
  | _ => false
termination_by structural v => v

/-- Whether all items are plain. -/
def arePlain : List Value → Bool
  | [] => true
  | v :: vs => isPlain v && arePlain vs
termination_by structural vs => vs

end

theorem arePlain_iff {xs : List Value} : arePlain xs = true ↔ ∀ x ∈ xs, x.isPlain = true := by
  induction xs with
  | nil => simp [arePlain]
  | cons x xs ih => simp [arePlain, ih]

theorem isNaN_of_isPlain {a : Value} {x : Double} (ha : a.isPlain = true)
    (hx : a.toDouble? = some x) : x.isNaN = false := by
  cases a with
  | int32 n =>
    obtain rfl := Option.some.inj hx
    exact Double.isNaN_ofInt _
  | int64 n =>
    obtain rfl := Option.some.inj hx
    exact Double.isNaN_ofInt _
  | double y =>
    obtain rfl := Option.some.inj hx
    simpa [isPlain] using ha
  | _ => cases hx

/-- A plain value of the rank of numbers has a double. -/
theorem exists_toDouble?_of_rank {a : Value} (ha : a.isPlain = true) (h : a.rank = 2) :
    ∃ x, a.toDouble? = some x := by
  cases a <;> first
    | exact ⟨_, rfl⟩
    | (cases ha; done)
    | cases h

/-- Plain values that are neither numbers nor arrays are the same exactly if they are level. -/
theorem same_iff_compare_eq {a b : Value} (ha : a.isPlain = true) (hb : b.isPlain = true)
    (hflat : ∀ xs, a ≠ .array xs) (hnumber : a.toDouble? = none) (hrank : a.rank = b.rank) :
    a.same b = true ↔ a.compare b = .eq := by
  have beq_iff {α : Type} [BEq α] [LawfulBEq α] [Ord α] [Std.LawfulEqOrd α] (x y : α) :
      (x == y) = true ↔ Ord.compare x y = .eq := by
    rw [beq_iff_eq, Std.LawfulEqCmp.compare_eq_iff_eq]
  cases a <;> first | (cases ha; done) | (cases hnumber; done) | skip
  all_goals cases b <;> first | (cases hb; done) | (cases hrank; done) | skip
  case null.null => exact ⟨fun _ => rfl, fun _ => rfl⟩
  case boolean.boolean x y => exact beq_iff x y
  case string.string x y => exact beq_iff x y
  case objectId.objectId x y => exact beq_iff x y
  case dateTime.dateTime x y => exact beq_iff x y
  case timestamp.timestamp t i u j =>
    show (t == u && i == j) = true ↔ (Ord.compare t u).then (Ord.compare i j) = .eq
    rw [Bool.and_eq_true, Ordering.then_eq_eq, beq_iff, beq_iff]
  case array.array xs ys => exact absurd rfl (hflat xs)

/-- Plain values, the first of them no array, are equal exactly if they are level. -/
theorem equal_iff_compare_eq_of_flat {a b : Value} (ha : a.isPlain = true) (hb : b.isPlain = true)
    (hflat : ∀ xs, a ≠ .array xs) : a.equal b = true ↔ a.compare b = .eq := by
  by_cases hrank : a.rank = b.rank
  · cases hx : a.toDouble? with
    | some x =>
      obtain ⟨y, hy⟩ := exists_toDouble?_of_rank hb (hrank ▸ rank_of_toDouble? hx)
      rw [compare_of_toDouble? hx hy, equal, hx, hy]
      exact Double.equal_iff_compare_eq (isNaN_of_isPlain ha hx) (isNaN_of_isPlain hb hy)
    | none =>
      rw [equal, hx]
      exact same_iff_compare_eq ha hb hflat hx hrank
  · constructor
    · exact fun h => absurd (rank_eq_of_equal h) hrank
    · exact fun h => absurd h (compare_ne_eq_of_rank_ne hrank)

theorem isPlain_of_isScalar {a : Value} (h : a.isScalar = true) : a.isPlain = true := by
  cases a <;> first | rfl | exact h | cases h

/-- Two scalars are equal exactly when neither comes before the other. -/
theorem equal_iff_compare_eq {a b : Value} (ha : a.isScalar = true) (hb : b.isScalar = true) :
    a.equal b = true ↔ a.compare b = .eq :=
  equal_iff_compare_eq_of_flat (isPlain_of_isScalar ha) (isPlain_of_isScalar hb)
    (ne_array_of_isScalar ha)

/-! ### Numbers with one double -/

/-- One value, or two numbers with the same double: nothing tells them apart. -/
def Alike (a b : Value) : Prop :=
  a = b ∨ ∃ x, a.toDouble? = some x ∧ b.toDouble? = some x

namespace Alike

variable {a b : Value}

theorem symm (h : Alike a b) : Alike b a := by
  rcases h with rfl | ⟨x, ha, hb⟩
  · exact .inl rfl
  · exact .inr ⟨x, hb, ha⟩

theorem rank_eq (h : Alike a b) : a.rank = b.rank := by
  rcases h with rfl | ⟨x, ha, hb⟩
  · rfl
  · rw [rank_of_toDouble? ha, rank_of_toDouble? hb]

theorem compare_right (h : Alike a b) (v : Value) : v.compare a = v.compare b := by
  rcases h with rfl | ⟨x, ha, hb⟩
  · rfl
  · have hflat : ∀ {c : Value}, c.toDouble? = some x → ∀ xs ys, v = .array xs → c ≠ .array ys := by
      rintro c hc xs ys - rfl
      cases hc
    rw [compare_eq_compareFlat (hflat ha), compare_eq_compareFlat (hflat hb), compareFlat,
      compareFlat, rank_of_toDouble? ha, rank_of_toDouble? hb, ordinal_of_toDouble? ha,
      ordinal_of_toDouble? hb]

theorem compare_left (h : Alike a b) (v : Value) : a.compare v = b.compare v := by
  rw [← compare_swap v a, ← compare_swap v b, h.compare_right v]

end Alike

end Value

end Keyset
