import Keyset.Proofs.Json.Leaves
import Keyset.Proofs.Text.Numeral
import Keyset.Query.Placeholder

/-!
# Binding placeholders

The placeholders of a query are leaves of its pipeline, its filter, its options and its cursor
(`Query.leaves`).  Binding looks at them in the order of the text and stops at the first that has no
argument; if there is none it replaces each by its argument, all else staying as it is
(`Query.substitute_replaces_placeholders`).  Arguments without placeholders leave none behind, so that
binding once more changes nothing (`Query.substitute_final`).

Both follow from one equation: binding is a check of the leaves in order, followed by a replacement that
cannot fail (`Query.substitute_eq`).
-/

namespace Keyset

/-! ### The text of a placeholder -/

namespace Placeholder

/-- The placeholder of the argument at a place, counted from one. -/
def text (n : Nat) : String :=
  String.ofList ('$' :: Text.digits n)

/-- The placeholders are the texts `$1`, `$2`, … -/
theorem index?_eq_some_iff {s : String} {i : Nat} :
    index? s = some i ↔ ∃ n, 0 < n ∧ s = text n ∧ i = min maxIndex n := by
  constructor
  · intro h
    unfold index? at h
    split at h
    case h_2 => cases h
    case h_1 c digits hs =>
      split_ifs at h with hc
      obtain ⟨n, hn, rfl⟩ := Option.map_eq_some_iff.mp h
      have hdigits := (Text.natural?_eq_some_iff_digits hc).mp hn
      refine ⟨n, Nat.pos_of_ne_zero ?_, ?_, rfl⟩
      · rintro rfl
        exact hc (List.cons.inj hdigits).1
      · rw [text, ← hdigits, ← hs, String.ofList_toList]
  · rintro ⟨n, hn, rfl, rfl⟩
    obtain ⟨c, digits, hdigits, -, hc⟩ := Text.exists_digits_of_pos hn
    unfold index? text
    rw [String.toList_ofList, hdigits]
    show (if c = '0' then none else (Text.natural? (c :: digits)).map (min maxIndex)) = _
    rw [if_neg hc, ← hdigits, Text.natural?_digits]
    rfl

theorem index?_text {n : Nat} (h : 0 < n) : index? (text n) = some (min maxIndex n) :=
  index?_eq_some_iff.mpr ⟨n, h, rfl, rfl⟩

theorem pos_of_index? {s : String} {i : Nat} (h : index? s = some i) : 0 < i := by
  obtain ⟨n, hn, -, rfl⟩ := index?_eq_some_iff.mp h
  exact Nat.lt_min.mpr ⟨by decide, hn⟩

/-! ### Checking and filling leaves -/

/-- The index of a leaf that is a placeholder. -/
def leafIndex? (leaf : Json) : Option Nat :=
  leaf.string?.bind index?

/-- Whether a leaf has its argument, if it is a placeholder. -/
def check (args : List Json) (leaf : Json) : Except Error Unit :=
  match leafIndex? leaf with
  | some index =>
    if index ≤ args.length then .ok () else .error (.missingParameter index args.length)
  | none => .ok ()

/-- Whether leaves have their arguments, up to the first that has not. -/
def checkAll (args : List Json) (leaves : List Json) : Except Error Unit :=
  leaves.forM (check args)

/-- What stands for a leaf: its argument if it is a placeholder, else the leaf itself. -/
def fill (args : List Json) (leaf : Json) : Json :=
  ((leafIndex? leaf).bind fun index => args[index - 1]?).getD leaf

theorem exists_of_leafIndex? {leaf : Json} {i : Nat} (h : leafIndex? leaf = some i) :
    ∃ n, 0 < n ∧ leaf = .string (text n) ∧ i = min maxIndex n := by
  obtain ⟨s, hs, hi⟩ := Option.bind_eq_some_iff.mp h
  obtain ⟨n, hn, rfl, rfl⟩ := index?_eq_some_iff.mp hi
  cases leaf <;> cases hs
  exact ⟨n, hn, rfl, rfl⟩

theorem leafIndex?_placeholder {n : Nat} (h : 0 < n) :
    leafIndex? (.string (text n)) = some (min maxIndex n) :=
  index?_text h

theorem leafIndex?_eq_none_iff {leaf : Json} :
    leafIndex? leaf = none ↔ ∀ n, 0 < n → leaf ≠ .string (text n) := by
  constructor
  · rintro h n hn rfl
    rw [leafIndex?_placeholder hn] at h
    cases h
  · intro h
    rw [Option.eq_none_iff_forall_ne_some]
    intro i hi
    obtain ⟨n, hn, hleaf, -⟩ := exists_of_leafIndex? hi
    exact h n hn hleaf

theorem fill_of_not_placeholder {args : List Json} {leaf : Json} (h : leafIndex? leaf = none) :
    fill args leaf = leaf := by
  rw [fill, h]
  rfl

theorem check_of_not_placeholder {args : List Json} {leaf : Json} (h : leafIndex? leaf = none) :
    check args leaf = .ok () := by
  rw [check, h]

theorem check_placeholder {args : List Json} {n : Nat} (hn : 0 < n)
    (hargs : args.length < maxIndex) :
    check args (.string (text n)) =
      if n ≤ args.length then .ok () else .error (.missingParameter (min maxIndex n) args.length) := by
  have hiff : min maxIndex n ≤ args.length ↔ n ≤ args.length := by omega
  rw [check, leafIndex?_placeholder hn]
  simp only [hiff]

/-- A leaf passes if it is no placeholder or has its argument. -/
theorem check_eq_ok_iff {args : List Json} {leaf : Json} (hargs : args.length < maxIndex) :
    check args leaf = .ok () ↔ ∀ n, 0 < n → leaf = .string (text n) → n ≤ args.length := by
  constructor
  · rintro h n hn rfl
    rw [check_placeholder hn hargs] at h
    split_ifs at h with hle
    exact hle
  · intro h
    cases hleaf : leafIndex? leaf with
    | none => exact check_of_not_placeholder hleaf
    | some i =>
      obtain ⟨n, hn, rfl, -⟩ := exists_of_leafIndex? hleaf
      rw [check_placeholder hn hargs, if_pos (h n hn rfl)]

/-- A leaf that does not pass is a placeholder without an argument. -/
theorem exists_of_check_error {args : List Json} {leaf : Json} {e : Error}
    (hargs : args.length < maxIndex) (h : check args leaf = .error e) :
    ∃ n, 0 < n ∧ leaf = .string (text n) ∧ args.length < n ∧
      e = .missingParameter (min maxIndex n) args.length := by
  cases hleaf : leafIndex? leaf with
  | none =>
    rw [check_of_not_placeholder hleaf] at h
    cases h
  | some i =>
    obtain ⟨n, hn, rfl, -⟩ := exists_of_leafIndex? hleaf
    rw [check_placeholder hn hargs] at h
    split_ifs at h with hle
    exact ⟨n, hn, rfl, Nat.lt_of_not_le hle, (Except.error.inj h).symm⟩

theorem fill_placeholder {args : List Json} {n : Nat} (hn : n < args.length)
    (hargs : args.length < maxIndex) : fill args (.string (text (n + 1))) = args[n] := by
  have hmin : min maxIndex (n + 1) - 1 = n := by omega
  rw [fill, leafIndex?_placeholder (Nat.succ_pos n), Option.bind_some, hmin,
    List.getElem?_eq_getElem hn, Option.getD_some]

/-- A placeholder that passes stands for one of the arguments. -/
theorem fill_mem {args : List Json} {leaf : Json} {i : Nat} (hleaf : leafIndex? leaf = some i)
    (h : check args leaf = .ok ()) : fill args leaf ∈ args := by
  have hpos : 0 < i := by
    obtain ⟨s, -, hindex⟩ := Option.bind_eq_some_iff.mp hleaf
    exact pos_of_index? hindex
  rw [check, hleaf] at h
  have hle : i ≤ args.length := by
    by_contra hgt
    simp only [if_neg hgt] at h
    cases h
  have hlt : i - 1 < args.length := by omega
  rw [fill, hleaf, Option.bind_some, List.getElem?_eq_getElem hlt, Option.getD_some]
  exact List.getElem_mem hlt

/-! ### Binding as checking and filling -/

/-- An outcome that checks leaves in order and is a value if all have their arguments. -/
def Checks {α : Type} (args leaves : List Json) (r : Except Error α) (a : α) : Prop :=
  r = (checkAll args leaves).map fun _ => a

namespace Checks

variable {α β : Type} {args ls ls' : List Json} {r : Except Error α} {a : α}

theorem map (h : Checks args ls r a) (f : α → β) : Checks args ls (r.map f) (f a) := by
  unfold Checks at h ⊢
  rw [h]
  cases checkAll args ls <;> rfl

theorem bind_pure (h : Checks args ls r a) (f : α → β) :
    Checks args ls (r >>= fun a => Pure.pure (f a)) (f a) := by
  have hmap : (r >>= fun a => Pure.pure (f a)) = r.map f := by
    cases r <;> rfl
  rw [hmap]
  exact h.map f

theorem bind {next : α → Except Error β} {b : β} (h : Checks args ls r a)
    (hnext : Checks args ls' (next a) b) : Checks args (ls ++ ls') (r >>= next) b := by
  unfold Checks at h hnext ⊢
  have happend : checkAll args (ls ++ ls') = checkAll args ls >>= fun _ => checkAll args ls' :=
    List.forM_append
  rw [h, happend]
  cases checkAll args ls with
  | error e => rfl
  | ok _ => exact hnext

theorem pure (args : List Json) (a : α) : Checks args [] (.ok a) a :=
  rfl

theorem listMapM {xs : List α} {f : α → Except Error β} {leaves : α → List Json} {g : α → β}
    (h : ∀ x ∈ xs, Checks args (leaves x) (f x) (g x)) :
    Checks args (xs.flatMap leaves) (xs.mapM f) (xs.map g) := by
  induction xs with
  | nil => exact pure args []
  | cons x xs ih =>
    obtain ⟨hx, hxs⟩ := List.forall_mem_cons.mp h
    rw [List.mapM_cons, List.flatMap_cons]
    exact hx.bind ((ih hxs).bind_pure (g x :: ·))

theorem optionMapM {x : Option α} {f : α → Except Error β} {leaves : α → List Json} {g : α → β}
    (h : ∀ a, x = some a → Checks args (leaves a) (f a) (g a)) :
    Checks args (x.toList.flatMap leaves) (x.mapM f) (x.map g) := by
  cases x with
  | none => exact pure args none
  | some a =>
    have hmap : Option.mapM f (some a) = (f a).map some := by
      show f a >>= _ = _
      cases f a <;> rfl
    rw [hmap, Option.toList_some, List.flatMap_singleton]
    exact (h a rfl).map some

theorem eq_ok_iff {b : α} (h : Checks args ls r a) :
    r = .ok b ↔ (∀ leaf ∈ ls, check args leaf = .ok ()) ∧ b = a := by
  have hall : (∀ leaf ∈ ls, check args leaf = .ok ()) ↔ checkAll args ls = .ok () :=
    forM_eq_ok_iff.symm
  rw [h, hall]
  cases checkAll args ls with
  | error e => exact ⟨nofun, nofun⟩
  | ok _ => exact ⟨fun hb => ⟨rfl, (Except.ok.inj hb).symm⟩, fun ⟨_, hb⟩ => congrArg Except.ok hb.symm⟩

/-- An error is that of the first leaf that has one. -/
theorem exists_of_error {e : Error} (h : Checks args ls r a) (he : r = .error e) :
    ∃ before leaf after, ls = before ++ leaf :: after ∧
      (∀ l ∈ before, check args l = .ok ()) ∧ check args leaf = .error e := by
  have hfails : checkAll args ls = .error e := by
    rw [h] at he
    cases hall : checkAll args ls with
    | error e' =>
      rw [hall] at he
      exact congrArg Except.error (Except.error.inj he)
    | ok _ =>
      rw [hall] at he
      cases he
  exact forM_eq_error_iff.mp hfails

end Checks

theorem bind_string (args : List Json) (s : String) :
    Checks args [.string s] (bind args (.string s)) (fill args (.string s)) := by
  have hleaf : leafIndex? (.string s) = index? s := rfl
  have hall : checkAll args [.string s] = check args (.string s) >>= fun _ => .ok () := rfl
  unfold Checks
  rw [hall, bind, check, fill, hleaf]
  cases hindex : index? s with
  | none => rfl
  | some i =>
    have hpos := pos_of_index? hindex
    by_cases hi : i ≤ args.length
    · obtain ⟨a, ha⟩ : ∃ a, args[i - 1]? = some a := ⟨_, List.getElem?_eq_getElem (by omega)⟩
      simp only [argument, if_pos hi, ha, Option.bind_some, Option.getD_some]
      rfl
    · have hout : args[i - 1]? = none := List.getElem?_eq_none (by omega)
      simp only [argument, if_neg hi, hout]
      rfl

theorem bindItems_checks {args items : List Json}
    (h : ∀ v ∈ items, Checks args v.leaves (bind args v) (v.mapLeaves (fill args))) :
    Checks args (items.flatMap Json.leaves) (bindItems args items)
      (items.map (Json.mapLeaves (fill args))) := by
  have hmapM : bindItems args items = items.mapM (bind args) := by
    clear h
    induction items with
    | nil => rfl
    | cons v vs ih =>
      rw [bindItems, List.mapM_cons, ih]
      cases bind args v with
      | error e => rfl
      | ok w => cases vs.mapM (bind args) <;> rfl
  rw [hmapM]
  exact Checks.listMapM h

theorem bindFields_checks {args : List Json} {fields : Json.Object}
    (h : ∀ field ∈ fields, Checks args field.2.leaves (bind args field.2)
      (field.2.mapLeaves (fill args))) :
    Checks args (Json.object fields).leaves (bindFields args fields)
      (Json.mapFields (fill args) fields) := by
  have hmapM : bindFields args fields =
      fields.mapM fun field => (bind args field.2).map fun v => (field.1, v) := by
    clear h
    induction fields with
    | nil => rfl
    | cons field fs ih =>
      rw [bindFields, List.mapM_cons, ih]
      cases bind args field.2 with
      | error e => rfl
      | ok w =>
        cases fs.mapM fun field : String × Json => (bind args field.2).map fun v => (field.1, v) <;> rfl
  rw [hmapM, Json.leaves_object, Json.mapFields_eq]
  exact Checks.listMapM fun field hfield => (h field hfield).map _

/-- Binding a value checks its leaves in order and fills them. -/
theorem bind_checks (args : List Json) (v : Json) :
    Checks args v.leaves (bind args v) (v.mapLeaves (fill args)) := by
  induction v using Json.treeInduction with
  | null | bool | number => rfl
  | string s => exact bind_string args s
  | array items ih =>
    rw [bind, Json.leaves_array, Json.mapLeaves, Json.mapItems_eq]
    exact (bindItems_checks ih).map _
  | object fields ih =>
    rw [bind, Json.mapLeaves]
    exact (bindFields_checks ih).map _

end Placeholder

/-! ### Queries -/

namespace Query

open Placeholder

/-- The leaves of a query that may be placeholders, in the order in which they are bound. -/
def leaves (q : Query) : List Json :=
  (q.pipeline.flatMap fun stage => (Json.object stage).leaves) ++
    ((q.filter.toList.flatMap fun filter => (Json.object filter).leaves) ++
      ((Json.object q.options).leaves ++ q.cursor.toList.flatMap Json.leaves))

/-- A query with these leaves replaced. -/
def mapLeaves (f : Json → Json) (q : Query) : Query :=
  { q with
    pipeline := q.pipeline.map (Json.mapFields f)
    filter := q.filter.map (Json.mapFields f)
    options := Json.mapFields f q.options
    cursor := q.cursor.map (Json.mapLeaves f) }

/-- Binding a query checks its leaves in order and fills them. -/
theorem substitute_checks (q : Query) (args : List Json) :
    Checks args q.leaves (q.substitute args) (q.mapLeaves (fill args)) := by
  have hfields (fields : Json.Object) : Checks args (Json.object fields).leaves
      (bindFields args fields) (Json.mapFields (fill args) fields) :=
    bindFields_checks fun field _ => bind_checks args field.2
  have hpipeline := Checks.listMapM fun stage (_ : stage ∈ q.pipeline) => hfields stage
  have hfilter := Checks.optionMapM fun filter (_ : q.filter = some filter) => hfields filter
  have hcursor := Checks.optionMapM fun v (_ : q.cursor = some v) => bind_checks args v
  unfold leaves substitute
  refine hpipeline.bind (hfilter.bind ((hfields q.options).bind ?_))
  exact hcursor.bind_pure _

/-- A leaf of a query is its own only leaf. -/
theorem leaves_of_mem_leaves {q : Query} {leaf : Json} (h : leaf ∈ q.leaves) :
    leaf.leaves = [leaf] := by
  simp only [leaves, List.mem_append, List.mem_flatMap] at h
  rcases h with ⟨_, -, h⟩ | ⟨_, -, h⟩ | h | ⟨_, -, h⟩
  all_goals exact Json.leaves_of_mem_leaves h

theorem leaves_mapLeaves (f : Json → Json) (q : Query) :
    (q.mapLeaves f).leaves = q.leaves.flatMap fun leaf => (f leaf).leaves := by
  have hfields (fields : Json.Object) : (Json.object (Json.mapFields f fields)).leaves =
      (Json.object fields).leaves.flatMap fun leaf => (f leaf).leaves :=
    Json.leaves_mapLeaves f (.object fields)
  have hfilter : (q.filter.map (Json.mapFields f)).toList = q.filter.toList.map (Json.mapFields f) := by
    cases q.filter <;> rfl
  have hcursor : (q.cursor.map (Json.mapLeaves f)).toList = q.cursor.toList.map (Json.mapLeaves f) := by
    cases q.cursor <;> rfl
  simp only [leaves, mapLeaves, hfilter, hcursor, List.flatMap_append, List.flatMap_map,
    List.flatMap_assoc, hfields, Json.leaves_mapLeaves]

theorem mapLeaves_eq_self {f : Json → Json} {q : Query} (h : ∀ leaf ∈ q.leaves, f leaf = leaf) :
    q.mapLeaves f = q := by
  have hfields (fields : Json.Object) (hfields : ∀ leaf ∈ (Json.object fields).leaves, f leaf = leaf) :
      Json.mapFields f fields = fields :=
    Json.object.inj (Json.mapLeaves_eq_self hfields)
  simp only [leaves, List.mem_append, List.mem_flatMap, Option.mem_toList] at h
  have hpipeline : q.pipeline.map (Json.mapFields f) = q.pipeline := by
    rw [List.map_congr_left fun stage hstage => hfields stage fun leaf hleaf =>
      h leaf (.inl ⟨stage, hstage, hleaf⟩), List.map_id']
  have hfilter : q.filter.map (Json.mapFields f) = q.filter := by
    cases hq : q.filter with
    | none => rfl
    | some filter =>
      rw [Option.map_some, hfields filter fun leaf hleaf => h leaf (.inr (.inl ⟨filter, hq, hleaf⟩))]
  have hoptions : Json.mapFields f q.options = q.options :=
    hfields q.options fun leaf hleaf => h leaf (.inr (.inr (.inl hleaf)))
  have hcursor : q.cursor.map (Json.mapLeaves f) = q.cursor := by
    cases hq : q.cursor with
    | none => rfl
    | some v =>
      rw [Option.map_some, Json.mapLeaves_eq_self fun leaf hleaf =>
        h leaf (.inr (.inr (.inr ⟨v, hq, hleaf⟩)))]
  unfold mapLeaves
  rw [hpipeline, hfilter, hoptions, hcursor]

/-- **Binding replaces the placeholders, each once**: it succeeds if every placeholder has its argument,
and then the query is the same with each replaced by its argument; else its error is that of the first
placeholder without one.  There are fewer arguments than indices that are told apart. -/
theorem substitute_replaces_placeholders {q : Query} {args : List Json}
    (hargs : args.length < maxIndex) :
    ((∃ b, q.substitute args = .ok b) ↔
      ∀ n, 0 < n → .string (text n) ∈ q.leaves → n ≤ args.length) ∧
    (∀ b, q.substitute args = .ok b → b = q.mapLeaves (fill args)) ∧
    (∀ n (hn : n < args.length), fill args (.string (text (n + 1))) = args[n]) ∧
    (∀ leaf, (∀ n, 0 < n → leaf ≠ .string (text n)) → fill args leaf = leaf) ∧
    (∀ e, q.substitute args = .error e → ∃ before n after, 0 < n ∧
      q.leaves = before ++ .string (text n) :: after ∧ args.length < n ∧
      (∀ m, 0 < m → .string (text m) ∈ before → m ≤ args.length) ∧
      e = .missingParameter (min maxIndex n) args.length) := by
  have hchecks := substitute_checks q args
  refine ⟨?_, fun b hb => (hchecks.eq_ok_iff.mp hb).2, fun n hn => fill_placeholder hn hargs,
    fun leaf hleaf => fill_of_not_placeholder (leafIndex?_eq_none_iff.mpr hleaf), ?_⟩
  · simp only [hchecks.eq_ok_iff, check_eq_ok_iff hargs]
    constructor
    · rintro ⟨b, hpass, -⟩ n hn hmem
      exact hpass _ hmem n hn rfl
    · exact fun h => ⟨_, fun leaf hleaf n hn heq => h n hn (heq ▸ hleaf), rfl⟩
  · intro e he
    obtain ⟨before, leaf, after, hleaves, hbefore, hleaf⟩ := hchecks.exists_of_error he
    obtain ⟨n, hn, rfl, hlt, rfl⟩ := exists_of_check_error hargs hleaf
    refine ⟨before, n, after, hn, hleaves, hlt, fun m hm hmem => ?_, rfl⟩
    exact (check_eq_ok_iff hargs).mp (hbefore _ hmem) m hm rfl

/-- A query with placeholders in three of its fields, and with names and texts that look like some. -/
def openFind : Query where
  operation := .find
  collection := some "orders"
  filter := some [("$1", .string "$0"), ("tags", .array [.string "$2", .string "$age"])]
  options := [("limit", .string "$1")]
  params := [.string "$1"]
  cursor := some (.string "$2")

/-- Arguments of which one is a placeholder itself. -/
def openArguments : List Json :=
  [.ofInt64 5, .string "$1"]

theorem substitute_replaces_placeholders_openFind : openArguments.length < maxIndex ∧
    ∃ b, openFind.substitute openArguments = .ok b ∧ b = { openFind with
      filter := some [("$1", .string "$0"), ("tags", .array [.string "$1", .string "$age"])]
      options := [("limit", .ofInt64 5)]
      cursor := some (.string "$1") } := by
  have hargs : openArguments.length < maxIndex := by decide
  have hbound : openFind.substitute openArguments = .ok _ := rfl
  obtain ⟨-, hresult, -⟩ := substitute_replaces_placeholders (q := openFind) hargs
  exact ⟨hargs, _, hbound, (hresult _ hbound).trans rfl⟩

/-- The first placeholder without an argument is reported. -/
example : openFind.substitute [.null] = .error (.missingParameter 2 1) := rfl

/-- **Binding clean arguments is final**: if no argument holds a placeholder, none is left, and binding
again, to whatever arguments, changes nothing. -/
theorem substitute_final {q b : Query} {args : List Json}
    (hclean : ∀ arg ∈ args, ∀ n, 0 < n → .string (text n) ∉ arg.leaves)
    (h : q.substitute args = .ok b) :
    (∀ n, 0 < n → .string (text n) ∉ b.leaves) ∧ ∀ args', b.substitute args' = .ok b := by
  obtain ⟨hpass, rfl⟩ := (substitute_checks q args).eq_ok_iff.mp h
  have hnone : ∀ leaf ∈ (q.mapLeaves (fill args)).leaves, leafIndex? leaf = none := by
    intro leaf hleaf
    rw [leaves_mapLeaves] at hleaf
    obtain ⟨l, hl, hleaf⟩ := List.mem_flatMap.mp hleaf
    cases hindex : leafIndex? l with
    | none =>
      rw [fill_of_not_placeholder hindex, leaves_of_mem_leaves hl, List.mem_singleton] at hleaf
      rw [hleaf, hindex]
    | some index =>
      refine leafIndex?_eq_none_iff.mpr fun n hn heq => ?_
      exact hclean _ (fill_mem hindex (hpass l hl)) n hn (heq ▸ hleaf)
  refine ⟨fun n hn hmem => leafIndex?_eq_none_iff.mp (hnone _ hmem) n hn rfl, fun args' => ?_⟩
  refine (substitute_checks _ args').eq_ok_iff.mpr ⟨fun leaf hleaf => ?_, ?_⟩
  · exact check_of_not_placeholder (hnone leaf hleaf)
  · exact (mapLeaves_eq_self fun leaf hleaf => fill_of_not_placeholder (hnone leaf hleaf)).symm

/-- Arguments without placeholders. -/
def cleanArguments : List Json :=
  [.ofInt64 5, .object [("$1", .string "$y")]]

theorem substitute_final_openFind :
    (∀ arg ∈ cleanArguments, ∀ n, 0 < n → .string (text n) ∉ arg.leaves) ∧
    ∃ b, openFind.substitute cleanArguments = .ok b ∧
      (∀ n, 0 < n → .string (text n) ∉ b.leaves) ∧ b.substitute [] = .ok b := by
  have hindex : ∀ arg ∈ cleanArguments, ∀ leaf ∈ arg.leaves, leafIndex? leaf = none := by
    simp only [cleanArguments, List.forall_mem_cons]
    refine ⟨?_, ?_, nofun⟩
    · exact fun leaf hleaf => List.mem_singleton.mp hleaf ▸ rfl
    · exact fun leaf hleaf => List.mem_singleton.mp hleaf ▸ rfl
  have hclean : ∀ arg ∈ cleanArguments, ∀ n, 0 < n → .string (text n) ∉ arg.leaves :=
    fun arg harg n hn hmem => leafIndex?_eq_none_iff.mp (hindex arg harg _ hmem) n hn rfl
  have hbound : openFind.substitute cleanArguments = .ok _ := rfl
  obtain ⟨hnone, hagain⟩ := substitute_final hclean hbound
  exact ⟨hclean, _, hbound, hnone, hagain []⟩

end Query

end Keyset
