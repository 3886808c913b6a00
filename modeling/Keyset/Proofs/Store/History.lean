import Keyset.Proofs.Store.Seed

/-!
# The history of a store in memory

A collection holds what was put into it, in the order in which it was put there, whatever was done to
other collections in between (`run_keeps_history`).  Every change of a store is a row of puts
(`Change.run_action`), and so are all changes (`foldl_after`), so that what the store holds and shows
follows from what a put does.
-/

namespace Keyset

namespace Memory

/-! ### Changes -/

/-- A change of the collections of a store. -/
inductive Change where
  | createCollection (database collection : String)
  | insert (database collection : String) (doc : Document)
  | insertMany (database collection : String) (docs : List Document)
  | loadSeed (database : String) (seed : Json)

namespace Change

/-- What a change does. -/
def action : Change → StoreM Memory Unit
  | createCollection database collection => modify (·.createCollection database collection)
  | insert database collection doc => modify (·.insert database collection doc)
  | insertMany database collection docs => modify (·.insertMany database collection docs)
  | loadSeed database seed => Memory.loadSeed database seed

/-- What a change puts into collections, in order; of a seed with a fault, what stands before it. -/
def puts : Change → List Put
  | createCollection database collection => [⟨database, collection, []⟩]
  | insert database collection doc => [⟨database, collection, [doc]⟩]
  | insertMany database collection docs => [⟨database, collection, docs⟩]
  | loadSeed database (.object collections) => SeedPart.puts database (SeedPart.ofSeed collections)
  | loadSeed _ _ => []

/-- Whether a change names a collection of a database. -/
def Concerns (database collection : String) : Change → Prop
  | createCollection d c | insert d c _ | insertMany d c _ => d = database ∧ c = collection
  | loadSeed d (.object collections) => d = database ∧ collection ∈ collections.map Prod.fst
  | loadSeed _ _ => False

theorem run_action (change : Change) (m : Memory) :
    (change.action.run m).2 = m.putAll change.puts := by
  cases change with
  | loadSeed database seed =>
    cases seed with
    | object collections => exact congrArg Prod.snd (SeedPart.run_loadSeed collections m)
    | _ => rfl
  | _ => rfl

theorem concerns_of_mem_puts {change : Change} {p : Put} {database collection : String}
    (hp : p ∈ change.puts) (h : p.IsFor database collection) : change.Concerns database collection := by
  cases change with
  | loadSeed d seed =>
    cases seed with
    | object collections =>
      obtain ⟨part, hpart, hput⟩ := SeedPart.exists_part_of_mem_puts hp
      obtain ⟨hdatabase, hname⟩ := SeedPart.isFor_of_put? hput
      refine ⟨hdatabase.symm.trans h.1, ?_⟩
      rw [← h.2, hname]
      exact SeedPart.name_mem_of_mem_ofSeed hpart
    | _ => cases hp
  | _ =>
    obtain rfl := List.mem_singleton.mp hp
    exact h

end Change

/-- The store after a change, whether it succeeds or not. -/
def after (m : Memory) (change : Change) : Memory :=
  (change.action.run m).2

/-- The store after changes, from an empty one. -/
def run (changes : List Change) : Memory :=
  changes.foldl after empty

/-- What changes put into collections, in order. -/
def history (changes : List Change) : List Put :=
  changes.flatMap Change.puts

theorem foldl_after (m : Memory) (changes : List Change) :
    changes.foldl after m = m.putAll (history changes) := by
  induction changes generalizing m with
  | nil => rfl
  | cons change changes ih =>
    rw [List.foldl_cons, ih, after, Change.run_action]
    exact List.foldl_append.symm

/-! ### What a store shows -/

/-- An empty filter selects all documents. -/
theorem select_nil (docs : List Document) : Filter.select [] docs = .ok docs := by
  refine Filter.select_eq_ok_iff.mpr ⟨fun _ _ => ⟨true, rfl⟩, ?_⟩
  exact (List.filter_eq_self.mpr fun _ _ => rfl).symm

theorem run_find_all (m : Memory) (database collection : String) :
    (store.find database collection [] {}).run m =
      (.ok ((m.documents database collection).map .ok),
        { m with openCursors := m.openCursors + 1 }) := by
  rw [Connection.run_find, FindOptions.run_eq_map_arrange, select_nil]
  rfl

theorem run_aggregate_all (m : Memory) (database collection : String) :
    (store.aggregate database collection []).run m =
      (.ok ((m.documents database collection).map .ok),
        { m with openCursors := m.openCursors + 1 }) :=
  run_handOut (.ok (m.documents database collection)) m

/-- What was put into a collection by changes, one after the other. -/
def contents (database collection : String) (changes : List Change) : List Document :=
  documentsFor database collection (history changes)

/-- What a store shows after changes, and what it makes of a seed. -/
structure KeepsHistory (changes : List Change) (m : Memory) : Prop where
  /-- A find without conditions hands out what was put into the collection. -/
  find : ∀ database collection, ∃ m', (store.find database collection [] {}).run m =
    (.ok ((contents database collection changes).map .ok), m') ∧ m'.collections = m.collections
  /-- So does an aggregation without stages. -/
  aggregate : ∀ database collection, ∃ m', (store.aggregate database collection []).run m =
    (.ok ((contents database collection changes).map .ok), m') ∧ m'.collections = m.collections
  /-- So does a sample that is large enough. -/
  sample : ∀ database collection size,
    (contents database collection changes).length ≤ size.toNat →
      (store.sample database collection size).run m =
        (.ok (contents database collection changes), m)
  /-- The collections of a database are those that were put into, in strictly increasing order. -/
  listCollections : ∀ database, ∃ names, (store.listCollections database).run m = (.ok names, m) ∧
    names.Pairwise (· < ·) ∧
      ∀ name, name ∈ names ↔ ∃ p ∈ history changes, p.IsFor database name
  /-- A change that names other collections only has no effect on a collection. -/
  frame : ∀ change database collection, ¬Change.Concerns database collection change →
    (m.after change).documents database collection = m.documents database collection ∧
      ((m.after change).HasCollection database collection ↔ m.HasCollection database collection)
  /-- A seed that is no object changes nothing. -/
  seed_shape : ∀ database seed, seed.object? = none →
    (loadSeed database seed).run m = (.error (.malformed .seedShape), m)
  /-- A seed that succeeds puts all its collections and entries. -/
  seed_ok : ∀ database collections, ((loadSeed database (.object collections)).run m).1 = .ok () →
    List.Forall₂ (SeedPart.Puts database) (SeedPart.ofSeed collections)
      (Change.loadSeed database (.object collections)).puts
  /-- A seed that fails puts the collections and entries before the first that is at fault, which it
  reports. -/
  seed_error : ∀ database collections e,
    ((loadSeed database (.object collections)).run m).1 = .error e →
      ∃ before part after, SeedPart.ofSeed collections = before ++ part :: after ∧
        List.Forall₂ (SeedPart.Puts database) before
          (Change.loadSeed database (.object collections)).puts ∧
        part.put? database = .error e ∧
        (∀ name v, part = .entry name v →
          (m.after (.loadSeed database (.object collections))).HasCollection database name) ∧
        ∀ name v, part = .collection name v → (collections.map Prod.fst).Nodup →
          ((m.after (.loadSeed database (.object collections))).HasCollection database name ↔
            m.HasCollection database name)

theorem frame_of_not_concerns {change : Change} {database collection : String}
    (h : ¬Change.Concerns database collection change) (m : Memory) :
    (m.after change).documents database collection = m.documents database collection ∧
      ((m.after change).HasCollection database collection ↔ m.HasCollection database collection) := by
  have hputs : ∀ p ∈ change.puts, ¬p.IsFor database collection :=
    fun p hp hfor => h (Change.concerns_of_mem_puts hp hfor)
  rw [after, Change.run_action, documents_putAll, hasCollection_putAll]
  constructor
  · have hnone : change.puts.filter (Put.IsFor database collection) = [] :=
      List.filter_eq_nil_iff.mpr fun p hp => by simpa using hputs p hp
    rw [documentsFor, hnone, List.flatMap_nil, List.append_nil]
  · exact or_iff_left fun ⟨p, hp, hfor⟩ => hputs p hp hfor

/-- **A store keeps the history of its collections.**  After any changes, be they successful or not, a
collection shows the documents that were put into it, in order, and a database the names of the
collections that were put into; changes elsewhere have no effect on them.  Of a seed that fails, what
stands before the fault was put. -/
theorem run_keeps_history (changes : List Change) : KeepsHistory changes (run changes) := by
  have hrun : run changes = empty.putAll (history changes) := foldl_after empty changes
  have hdocuments : ∀ database collection,
      (run changes).documents database collection = contents database collection changes := by
    intro database collection
    rw [hrun, documents_putAll]
    rfl
  refine
    { find := fun database collection => ?_
      aggregate := fun database collection => ?_
      sample := fun database collection size hsize => ?_
      listCollections := fun database => ?_
      frame := fun change database collection h => frame_of_not_concerns h _
      seed_shape := fun database seed hseed => ?_
      seed_ok := fun database collections hok => ?_
      seed_error := fun database collections e herror => ?_ }
  · rw [run_find_all, hdocuments]
    exact ⟨_, rfl, rfl⟩
  · rw [run_aggregate_all, hdocuments]
    exact ⟨_, rfl, rfl⟩
  · show (Except.ok (((run changes).documents database collection).take size.toNat), run changes) = _
    rw [hdocuments, List.take_of_length_le hsize]
  · refine ⟨_, rfl, Catalog.pairwise_foldr_insertName _, fun name => ?_⟩
    have hempty : ¬empty.HasCollection database name := by simp [HasCollection, empty]
    rw [mem_collectionNames]
    show (run changes).HasCollection database name ↔ _
    rw [hrun, hasCollection_putAll, or_iff_right hempty]
  · cases seed with
    | object fields => cases hseed
    | _ => rfl
  · rw [SeedPart.run_loadSeed] at hok
    exact SeedPart.forall₂_puts_of_check hok
  · rw [SeedPart.run_loadSeed] at herror
    obtain ⟨before, part, rest, hsplit, hputs, hfault⟩ := SeedPart.exists_fault_of_check herror
    have hbehind := SeedPart.standsBehind_of_ofSeed hsplit
    obtain ⟨hentry, hcollection⟩ := SeedPart.isFor_of_fault hbehind hputs
    have hafter : (run changes).after (.loadSeed database (.object collections)) =
        (run changes).putAll (SeedPart.puts database (SeedPart.ofSeed collections)) :=
      Change.run_action _ _
    refine ⟨before, part, rest, hsplit, hputs, hfault, fun name v hpart => ?_,
      fun name v hpart hnodup => ?_⟩
    · rw [hafter, hasCollection_putAll]
      exact .inr (hentry name v hpart)
    · rw [hafter, hasCollection_putAll]
      exact or_iff_left fun ⟨p, hp, hfor⟩ => hcollection name v hpart hnodup p hp hfor

/-- A seed with an entry at fault leaves its collection with the entries before, and no later one. -/
example :
    let seed : Json := .object [("a", .array [.object [], .null]), ("b", .array [])]
    let m := run [.loadSeed "db" seed]
    m.documents "db" "a" = [[]] ∧ m.collectionNames "db" = ["a"] :=
  ⟨rfl, rfl⟩

end Memory

end Keyset
