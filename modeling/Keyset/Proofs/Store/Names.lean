import Keyset.Proofs.Document.Wrappers
import Keyset.Proofs.Json.Fits
import Keyset.Proofs.Store.Seed

/-!
# Stores of documents with distinct names

No document that is read from a text has two fields of one name (`Document.nodup_names_ofJson`).  So a
store that is filled from texts has only such documents: `Memory.Distinct` are the stores of which that
is known, and loading a seed leaves another of them, whether or not it fails
(`Memory.Distinct.exists_loadSeed`).
-/

namespace Keyset

/-! ### Documents that are read -/

theorem Value.names_of_fieldsOfJson? {fields : Json.Object} {doc : Document}
    (h : fieldsOfJson? fields = some doc) : doc.names = fields.names := by
  induction fields generalizing doc with
  | nil =>
    obtain rfl : [] = doc := Option.some.inj h
    rfl
  | cons field fields ih =>
    obtain ⟨k, v⟩ := field
    rw [fieldsOfJson?] at h
    split at h
    · rename_i w ws hw hws
      obtain rfl := Option.some.inj h
      exact congrArg (k :: ·) (ih hws)
    · cases h

theorem Document.nodup_names_ofJson {depth : Nat} {fields : Json.Object} {doc : Document}
    (hfits : Json.Fits depth (.object fields)) (h : Document.ofJson fields = .ok doc) :
    doc.names.Nodup := by
  obtain ⟨-, hfields⟩ := Document.ofJson_eq_ok_iff.mp h
  rw [Value.names_of_fieldsOfJson? hfields]
  cases hfits with
  | object hnodup _ => exact hnodup

namespace Memory

/-! ### Stores -/

/-- A store in memory whose documents have distinct names. -/
structure Distinct extends Memory where
  nodup : ∀ database collection, ∀ doc ∈ toMemory.documents database collection, doc.names.Nodup

namespace Distinct

/-- The store without collections. -/
def empty : Distinct where
  toMemory := .empty
  nodup _ _ _ hdoc := nomatch hdoc

/-- Puts of documents with distinct names leave a store of such documents. -/
def putAll (m : Distinct) (puts : List Put) (h : ∀ p ∈ puts, ∀ doc ∈ p.documents, doc.names.Nodup) :
    Distinct where
  toMemory := m.toMemory.putAll puts
  nodup database collection doc hdoc := by
    rw [documents_putAll, List.mem_append] at hdoc
    rcases hdoc with hdoc | hdoc
    · exact m.nodup database collection doc hdoc
    · obtain ⟨p, hp, hdoc⟩ := List.mem_flatMap.mp hdoc
      exact h p (List.mem_of_mem_filter hp) doc hdoc

/-- Inserts documents in order. -/
def insertMany (m : Distinct) (database collection : String) (docs : List (Fields.Distinct Value)) :
    Distinct :=
  m.putAll [⟨database, collection, docs.map Fields.Distinct.fields⟩] <| by
    rw [List.forall_mem_singleton]
    exact fun _ => Fields.Distinct.nodup_of_mem

end Distinct

/-! ### Seeds -/

theorem SeedPart.exists_of_mem_puts {database : String} {parts : List SeedPart} {p : Put}
    (h : p ∈ puts database parts) : ∃ part ∈ parts, part.put? database = .ok p := by
  induction parts with
  | nil => cases h
  | cons part parts ih =>
    cases hpart : part.put? database with
    | error e =>
      rw [puts_cons_of_error hpart] at h
      cases h
    | ok first =>
      rw [puts_cons_of_ok hpart] at h
      rcases List.mem_cons.mp h with rfl | h
      · exact ⟨part, List.mem_cons_self, hpart⟩
      · obtain ⟨part', hmem, hput⟩ := ih h
        exact ⟨part', List.mem_cons_of_mem _ hmem, hput⟩

/-- What a part of a seed that was read puts into a store are documents with distinct names. -/
theorem SeedPart.nodup_of_put? {depth : Nat} {database : String}
    {collections : List (String × Json)} (hfits : Json.Fits depth (.object collections))
    {part : SeedPart} (hpart : part ∈ ofSeed collections) {p : Put}
    (h : part.put? database = .ok p) : ∀ doc ∈ p.documents, doc.names.Nodup := by
  obtain ⟨⟨name, value⟩, hc, hpart⟩ := List.mem_flatMap.mp hpart
  cases hfits with
  | object _ hvalues =>
    have hvalue := hvalues _ hc
    rcases List.mem_cons.mp hpart with rfl | hpart
    · -- a collection is made without documents
      cases value with
      | array entries =>
        obtain rfl := Except.ok.inj h
        exact nofun
      | _ => cases h
    · obtain ⟨entry, hentry, rfl⟩ := List.mem_map.mp hpart
      cases value with
      | array entries =>
        cases hvalue with
        | array hentries =>
          cases entry with
          | object fields =>
            obtain ⟨doc, hdoc, rfl⟩ := map_eq_ok_iff.mp h
            exact List.forall_mem_singleton.mpr
              (Document.nodup_names_ofJson (hentries _ hentry) hdoc)
          | _ => cases h
      | _ => cases hentry

/-- **A store that is filled from texts has documents with distinct names**: a seed that was read leaves
such a store as one, also if it stops at a fault. -/
theorem Distinct.exists_loadSeed (m : Distinct) (database : String) {text : String} {seed : Json}
    (h : Json.ofText? text = some seed) :
    ∃ m' : Distinct, ((loadSeed database seed).run m.toMemory).2 = m'.toMemory := by
  cases seed with
  | object collections =>
    rw [SeedPart.run_loadSeed]
    refine ⟨m.putAll (SeedPart.puts database (SeedPart.ofSeed collections)) fun p hp => ?_, rfl⟩
    obtain ⟨part, hpart, hput⟩ := SeedPart.exists_of_mem_puts hp
    exact SeedPart.nodup_of_put? (Json.fits_of_ofText? h) hpart hput
  | _ => exact ⟨m, rfl⟩

end Memory

end Keyset
