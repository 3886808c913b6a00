import Keyset.Proofs.Connection.Introspection

/-!
# What is put into a store

To put documents into a collection adds them at its end and leaves all others as they are (`documents_put`,
`hasCollection_put`); these two lemmas are all that is used of the way in which collections are stored.  A
seed is a row of parts, its collections each with its entries behind it, and puts what stands before the
first part that is at fault (`SeedPart.run_loadSeed`).
-/

namespace Keyset

namespace Memory

/-! ### Putting documents into collections -/

/-- Documents for the end of a collection, which is made if it is not there. -/
structure Put where
  database : String
  collection : String
  documents : List Document

namespace Put

/-- Whether a put is for a collection of a database. -/
def IsFor (database collection : String) (p : Put) : Prop :=
  p.database = database ∧ p.collection = collection

instance (database collection : String) : DecidablePred (IsFor database collection) :=
  fun p => inferInstanceAs (Decidable (p.database = database ∧ p.collection = collection))

end Put

/-- A store after a put. -/
def put (m : Memory) (p : Put) : Memory :=
  m.insertMany p.database p.collection p.documents

/-- Whether a collection has been made in a database. -/
def HasCollection (m : Memory) (database collection : String) : Prop :=
  ∃ c ∈ m.collections, c.database = database ∧ c.name = collection

theorem isNamed_iff {database collection : String} {c : Collection} :
    isNamed database collection c = true ↔ c.database = database ∧ c.name = collection := by
  rw [isNamed, Bool.and_eq_true, decide_eq_true_iff, decide_eq_true_iff]

theorem documents_put_of_ne {database collection : String} (m : Memory) {p : Put}
    (h : ¬p.IsFor database collection) :
    (m.put p).documents database collection = m.documents database collection := by
  unfold put insertMany documents
  dsimp only
  have hnamed : ∀ c : Collection, isNamed p.database p.collection c = true →
      isNamed database collection c = false := by
    intro c hc
    obtain ⟨hdatabase, hname⟩ := isNamed_iff.mp hc
    refine Bool.eq_false_iff.mpr fun hc' => h ?_
    obtain ⟨hdatabase', hname'⟩ := isNamed_iff.mp hc'
    exact ⟨hdatabase.symm.trans hdatabase', hname.symm.trans hname'⟩
  induction m.collections with
  | nil =>
    have hnew : isNamed database collection ⟨p.database, p.collection, p.documents⟩ = false :=
      hnamed _ (isNamed_iff.mpr ⟨rfl, rfl⟩)
    rw [append, List.find?_cons_of_neg (by simp [hnew])]
  | cons c cs ih =>
    rw [append]
    split_ifs with hc
    · -- the collection that grows is another one
      have hold := hnamed c hc
      have hgrown : isNamed database collection { c with documents := c.documents ++ p.documents } =
          false := hold
      rw [List.find?_cons_of_neg (by simp [hgrown]), List.find?_cons_of_neg (by simp [hold])]
    · cases hfound : isNamed database collection c with
      | true => rw [List.find?_cons_of_pos hfound, List.find?_cons_of_pos hfound]
      | false =>
        rw [List.find?_cons_of_neg (by simp [hfound]), List.find?_cons_of_neg (by simp [hfound]), ih]

/-- A put adds its documents to its collection, and none to any other. -/
theorem documents_put (m : Memory) (p : Put) (database collection : String) :
    (m.put p).documents database collection = m.documents database collection ++
      if p.IsFor database collection then p.documents else [] := by
  split_ifs with h
  · obtain ⟨rfl, rfl⟩ := h
    exact documents_insertMany m p.database p.collection p.documents
  · rw [documents_put_of_ne m h, List.append_nil]

/-- A put makes its collection, and no other. -/
theorem hasCollection_put {m : Memory} {p : Put} {database collection : String} :
    (m.put p).HasCollection database collection ↔
      m.HasCollection database collection ∨ p.IsFor database collection := by
  unfold HasCollection put insertMany
  dsimp only
  induction m.collections with
  | nil => simp [append, Put.IsFor]
  | cons c cs ih =>
    rw [append]
    split_ifs with hc
    · obtain ⟨hdatabase, hname⟩ := isNamed_iff.mp hc
      simp [Put.IsFor, hdatabase, hname, or_comm]
    · rw [List.exists_mem_cons_iff, List.exists_mem_cons_iff, ih, or_assoc]

/-- A store after puts, one after the other. -/
def putAll (m : Memory) (puts : List Put) : Memory :=
  puts.foldl put m

/-- What puts put into a collection, in order. -/
def documentsFor (database collection : String) (puts : List Put) : List Document :=
  (puts.filter (Put.IsFor database collection)).flatMap Put.documents

theorem documents_putAll (m : Memory) (puts : List Put) (database collection : String) :
    (m.putAll puts).documents database collection =
      m.documents database collection ++ documentsFor database collection puts := by
  induction puts generalizing m with
  | nil => exact (List.append_nil _).symm
  | cons p puts ih =>
    show ((m.put p).putAll puts).documents database collection = _
    rw [ih, documents_put, List.append_assoc]
    unfold documentsFor
    by_cases hp : p.IsFor database collection
    · rw [if_pos hp, List.filter_cons_of_pos (by simpa using hp), List.flatMap_cons]
    · rw [if_neg hp, List.filter_cons_of_neg (by simpa using hp), List.nil_append]

theorem hasCollection_putAll {m : Memory} {puts : List Put} {database collection : String} :
    (m.putAll puts).HasCollection database collection ↔
      m.HasCollection database collection ∨ ∃ p ∈ puts, p.IsFor database collection := by
  induction puts generalizing m with
  | nil => simp [putAll]
  | cons p puts ih =>
    show ((m.put p).putAll puts).HasCollection database collection ↔ _
    rw [ih, hasCollection_put, List.exists_mem_cons_iff, or_assoc]

/-! ### Seeds -/

/-- A part of a seed: a collection with what it is given, or an entry of a collection. -/
inductive SeedPart where
  | collection (name : String) (value : Json)
  | entry (collection : String) (value : Json)

namespace SeedPart

/-- What a part of a seed puts into a database.  A collection that is no array and an entry that is no
document are at fault. -/
def put? (database : String) : SeedPart → Except Error Put
  | collection name (.array _) => .ok ⟨database, name, []⟩
  | collection name _ => .error (.malformed (.seedCollection name))
  | entry name (.object fields) => (Document.ofJson fields).map fun doc => ⟨database, name, [doc]⟩
  | entry name _ => .error (.malformed (.seedEntry name))

/-- The parts of a collection of a seed: the collection, and then its entries. -/
def ofCollection (c : String × Json) : List SeedPart :=
  collection c.1 c.2 :: (c.2.array?.getD []).map (entry c.1)

/-- The parts of a seed, collection by collection. -/
def ofSeed (collections : List (String × Json)) : List SeedPart :=
  collections.flatMap ofCollection

/-- What the parts before the first fault put into a database. -/
def puts (database : String) (parts : List SeedPart) : List Put :=
  ((parts.map (put? database)).takeWhile Except.isOk).filterMap Except.toOption

/-- Whether all parts can be put into a database, or else what is wrong with the first that cannot. -/
def check (database : String) (parts : List SeedPart) : Except Error Unit :=
  parts.forM fun part => (part.put? database).map fun _ => ()

/-- Puts into a database what the parts of a seed put there, up to the first fault. -/
def putAll (database : String) (parts : List SeedPart) : StoreM Memory Unit :=
  parts.forM fun part => do
    let p ← (part.put? database : Except Error Put)
    modify (·.put p)

variable {database : String}

theorem puts_cons_of_ok {part : SeedPart} {p : Put} (h : part.put? database = .ok p)
    (parts : List SeedPart) : puts database (part :: parts) = p :: puts database parts := by
  unfold puts
  rw [List.map_cons, h]
  rfl

theorem puts_cons_of_error {part : SeedPart} {e : Error} (h : part.put? database = .error e)
    (parts : List SeedPart) : puts database (part :: parts) = [] := by
  unfold puts
  rw [List.map_cons, h]
  rfl

theorem putAll_cons (part : SeedPart) (parts : List SeedPart) :
    putAll database (part :: parts) = (do
      let p ← (part.put? database : Except Error Put)
      modify (·.put p)
      putAll database parts) :=
  List.forM_cons.trans (bind_assoc _ _ _)

theorem putAll_append (parts more : List SeedPart) :
    putAll database (parts ++ more) = putAll database parts >>= fun _ => putAll database more :=
  List.forM_append

theorem run_putAll (parts : List SeedPart) (m : Memory) :
    (putAll database parts).run m = (check database parts, m.putAll (puts database parts)) := by
  induction parts generalizing m with
  | nil => rfl
  | cons part parts ih =>
    have hcheck : check database (part :: parts) =
        (part.put? database).map (fun _ => ()) >>= fun _ => check database parts := List.forM_cons
    rw [putAll_cons, hcheck, StoreM.run_bind, StoreM.run_lift]
    -- a fault ends the puts, and nothing else does
    cases hpart : part.put? database with
    | error e =>
      rw [puts_cons_of_error hpart]
      rfl
    | ok p =>
      rw [puts_cons_of_ok hpart]
      exact ih (m.put p)

theorem run_seedDocuments (collection : String) (entries : List Json) (m : Memory) :
    (seedDocuments database collection entries).run m =
      (putAll database (entries.map (entry collection))).run m := by
  induction entries generalizing m with
  | nil => rfl
  | cons value entries ih =>
    rw [List.map_cons, putAll_cons]
    cases value with
    | object fields =>
      rw [seedDocuments, put?, StoreM.run_bind, StoreM.run_lift, StoreM.run_bind, StoreM.run_lift]
      cases Document.ofJson fields with
      | error e => rfl
      | ok doc => exact ih _
    | _ => rfl

theorem run_seedCollections (collections : List (String × Json)) (m : Memory) :
    (seedCollections database collections).run m = (putAll database (ofSeed collections)).run m := by
  induction collections generalizing m with
  | nil => rfl
  | cons c collections ih =>
    obtain ⟨name, value⟩ := c
    cases value with
    | array entries =>
      show (do
        modify (·.createCollection database name)
        seedDocuments database name entries
        seedCollections database collections : StoreM Memory Unit).run m =
          (putAll database (collection name (.array entries) ::
            (entries.map (entry name) ++ ofSeed collections))).run m
      rw [putAll_cons, putAll_append]
      show (seedDocuments database name entries >>= fun _ => seedCollections database collections).run
          (m.createCollection database name) =
        (putAll database (entries.map (entry name)) >>= fun _ =>
          putAll database (ofSeed collections)).run (m.createCollection database name)
      rw [StoreM.run_bind, StoreM.run_bind, run_seedDocuments]
      -- a fault in the entries hides the other collections on both sides
      rcases (putAll database (entries.map (entry name))).run (m.createCollection database name) with
        ⟨e | ⟨⟩, m'⟩
      · rfl
      · exact ih m'
    | _ => rfl

/-- A seed puts what its parts before the first fault put, and answers with that fault. -/
theorem run_loadSeed (collections : List (String × Json)) (m : Memory) :
    (loadSeed database (.object collections)).run m =
      (check database (ofSeed collections), m.putAll (puts database (ofSeed collections))) :=
  (run_seedCollections collections m).trans (run_putAll _ m)

/-- Whether a part of a seed is not at fault, and puts something into a database. -/
def Puts (database : String) (part : SeedPart) (p : Put) : Prop :=
  part.put? database = .ok p

theorem puts_of_forall₂ {parts : List SeedPart} {ps : List Put}
    (h : List.Forall₂ (Puts database) parts ps) : puts database parts = ps := by
  induction h with
  | nil => rfl
  | cons hp _ ih => rw [puts_cons_of_ok hp, ih]

theorem exists_put_of_mem {parts : List SeedPart} {ps : List Put}
    (h : List.Forall₂ (Puts database) parts ps) {part : SeedPart} (hpart : part ∈ parts) :
    ∃ p ∈ ps, part.put? database = .ok p := by
  induction h with
  | nil => cases hpart
  | cons hp _ ih =>
    rcases List.mem_cons.mp hpart with rfl | hpart
    · exact ⟨_, List.mem_cons_self, hp⟩
    · obtain ⟨p, hmem, hput⟩ := ih hpart
      exact ⟨p, List.mem_cons_of_mem _ hmem, hput⟩

theorem puts_of_fault {before after : List SeedPart} {part : SeedPart} {ps : List Put} {e : Error}
    (h : List.Forall₂ (Puts database) before ps) (hpart : part.put? database = .error e) :
    puts database (before ++ part :: after) = ps := by
  induction h with
  | nil => exact puts_cons_of_error hpart after
  | cons hp _ ih => rw [List.cons_append, puts_cons_of_ok hp, ih]

theorem exists_forall₂_puts {parts : List SeedPart}
    (h : ∀ part ∈ parts, (part.put? database).map (fun _ => ()) = .ok ()) :
    ∃ ps, List.Forall₂ (Puts database) parts ps := by
  induction parts with
  | nil => exact ⟨[], .nil⟩
  | cons part parts ih =>
    obtain ⟨hpart, hparts⟩ := List.forall_mem_cons.mp h
    obtain ⟨p, hp, -⟩ := map_eq_ok_iff.mp hpart
    obtain ⟨ps, hps⟩ := ih hparts
    exact ⟨p :: ps, .cons hp hps⟩

/-- A seed without a fault puts all its parts. -/
theorem forall₂_puts_of_check {parts : List SeedPart} (h : check database parts = .ok ()) :
    List.Forall₂ (Puts database) parts (puts database parts) := by
  obtain ⟨ps, hps⟩ := exists_forall₂_puts (forM_eq_ok_iff.mp h)
  rw [puts_of_forall₂ hps]
  exact hps

/-- A seed with a fault puts all its parts before the first one. -/
theorem exists_fault_of_check {parts : List SeedPart} {e : Error}
    (h : check database parts = .error e) :
    ∃ before part after, parts = before ++ part :: after ∧
      List.Forall₂ (Puts database) before (puts database parts) ∧ part.put? database = .error e := by
  obtain ⟨before, part, after, rfl, hbefore, hpart⟩ := forM_eq_error_iff.mp h
  have hpart := map_eq_error_iff.mp hpart
  obtain ⟨ps, hps⟩ := exists_forall₂_puts hbefore
  refine ⟨before, part, after, rfl, ?_, hpart⟩
  rw [puts_of_fault hps hpart]
  exact hps

/-- A part of a seed is one of its collections, or an entry of one behind that collection and the
entries before. -/
inductive StandsBehind (collections : List (String × Json)) : List SeedPart → SeedPart → Prop where
  | collection (earlier : List (String × Json)) {later : List (String × Json)} {name : String}
      {value : Json} (h : collections = earlier ++ (name, value) :: later) :
      StandsBehind collections (ofSeed earlier) (collection name value)
  | entry (earlier : List (String × Json)) {later : List (String × Json)} {name : String}
      {done rest : List Json} {value : Json}
      (h : collections = earlier ++ (name, .array (done ++ value :: rest)) :: later) :
      StandsBehind collections
        (ofSeed earlier ++ collection name (.array (done ++ value :: rest)) :: done.map (entry name))
        (entry name value)

theorem StandsBehind.cons {collections : List (String × Json)} {before : List SeedPart}
    {part : SeedPart} (h : StandsBehind collections before part) (c : String × Json) :
    StandsBehind (c :: collections) (ofCollection c ++ before) part := by
  cases h with
  | collection earlier h =>
    exact .collection (c :: earlier) (by rw [h, List.cons_append])
  | entry earlier h =>
    rw [← List.append_assoc]
    exact .entry (c :: earlier) (by rw [h, List.cons_append])

theorem standsBehind_of_ofSeed {collections : List (String × Json)} {before after : List SeedPart}
    {part : SeedPart} (h : ofSeed collections = before ++ part :: after) :
    StandsBehind collections before part := by
  induction collections generalizing before with
  | nil => simp [ofSeed] at h
  | cons c collections ih =>
    obtain ⟨name, value⟩ := c
    have hcons : ofSeed ((name, value) :: collections) =
        ofCollection (name, value) ++ ofSeed collections := List.flatMap_cons
    rw [hcons, List.append_eq_append_iff] at h
    rcases h with ⟨before', rfl, h⟩ | ⟨part', hfirst, hrest⟩
    · exact (ih h).cons (name, value)
    cases part' with
    | nil =>
      -- the part is the first one of the next collection
      have hnext : StandsBehind collections [] part := ih hrest.symm
      have hbefore : before = ofCollection (name, value) ++ [] := by simpa using hfirst.symm
      rw [hbefore]
      exact hnext.cons (name, value)
    | cons p part' =>
      obtain ⟨rfl, -⟩ := List.cons.inj hrest
      unfold ofCollection at hfirst
      cases before with
      | nil =>
        obtain ⟨rfl, -⟩ := List.cons.inj hfirst
        exact .collection [] rfl
      | cons b before =>
        obtain ⟨rfl, hentries⟩ := List.cons.inj hfirst
        obtain ⟨done, others, hitems, rfl, hothers⟩ := List.map_eq_append_iff.mp hentries
        obtain ⟨v, rest, rfl, rfl, -⟩ := List.map_eq_cons_iff.mp hothers
        have hvalue : value = .array (done ++ v :: rest) := by
          cases value with
          | array items => exact congrArg Json.array hitems
          | _ => simp [Json.array?] at hitems
        rw [hvalue]
        exact .entry [] rfl

/-- The name of the collection that a part of a seed is about. -/
def name : SeedPart → String
  | collection name _ | entry name _ => name

/-- What a part puts, it puts into its own collection of the database. -/
theorem isFor_of_put? {part : SeedPart} {p : Put} (h : part.put? database = .ok p) :
    p.IsFor database part.name := by
  cases part with
  | collection name value =>
    cases value with
    | array entries =>
      obtain rfl := Except.ok.inj h
      exact ⟨rfl, rfl⟩
    | _ => cases h
  | entry name value =>
    cases value with
    | object fields =>
      obtain ⟨doc, -, rfl⟩ := map_eq_ok_iff.mp h
      exact ⟨rfl, rfl⟩
    | _ => cases h

theorem name_mem_of_mem_ofSeed {part : SeedPart} {collections : List (String × Json)}
    (h : part ∈ ofSeed collections) : part.name ∈ collections.map Prod.fst := by
  obtain ⟨c, hc, hpart⟩ := List.mem_flatMap.mp h
  refine List.mem_map.mpr ⟨c, hc, ?_⟩
  rcases List.mem_cons.mp hpart with rfl | hpart
  · rfl
  · obtain ⟨v, -, rfl⟩ := List.mem_map.mp hpart
    rfl

theorem exists_part_of_mem_puts {parts : List SeedPart} {p : Put} (h : p ∈ puts database parts) :
    ∃ part ∈ parts, part.put? database = .ok p := by
  obtain ⟨r, hr, hp⟩ := List.mem_filterMap.mp h
  obtain ⟨part, hpart, rfl⟩ := List.mem_map.mp (List.takeWhile_subset _ hr)
  refine ⟨part, hpart, ?_⟩
  cases hput : part.put? database with
  | error e =>
    rw [hput] at hp
    cases hp
  | ok q =>
    rw [hput] at hp
    exact congrArg Except.ok (Option.some.inj hp)

/-- The collection of an entry at fault has been put, and one at fault has not. -/
theorem isFor_of_fault {collections : List (String × Json)}
    {before : List SeedPart} {part : SeedPart} {ps : List Put}
    (h : StandsBehind collections before part) (hps : List.Forall₂ (Puts database) before ps) :
    (∀ name v, part = .entry name v → ∃ p ∈ ps, p.IsFor database name) ∧
      ∀ name v, part = .collection name v → (collections.map Prod.fst).Nodup →
        ∀ p ∈ ps, ¬p.IsFor database name := by
  cases h with
  | @collection earlier later name value h =>
    refine ⟨nofun, ?_⟩
    rintro _ _ ⟨⟩ hnodup p hp hfor
    -- what was put before is of earlier collections
    rw [← puts_of_forall₂ hps] at hp
    obtain ⟨q, hq, hput⟩ := exists_part_of_mem_puts hp
    have hname : q.name = name := (isFor_of_put? hput).2.symm.trans hfor.2
    rw [h, List.map_append, List.map_cons, List.nodup_append] at hnodup
    exact hnodup.2.2 name (hname ▸ name_mem_of_mem_ofSeed hq) name List.mem_cons_self rfl
  | @entry earlier later name done rest value h =>
    refine ⟨?_, nofun⟩
    rintro _ _ ⟨⟩
    have hmem : collection name (.array (done ++ value :: rest)) ∈
        ofSeed earlier ++ collection name (.array (done ++ value :: rest)) :: done.map (entry name) :=
      List.mem_append_right _ List.mem_cons_self
    obtain ⟨p, hp, hput⟩ := exists_put_of_mem hps hmem
    exact ⟨p, hp, isFor_of_put? hput⟩

end SeedPart

end Memory

end Keyset
