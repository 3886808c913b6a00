import Keyset.Proofs.Cursor.Lookup
import Keyset.Proofs.Text.Cutting

/-!
# One path in two forms

A path leads through a document and through its JSON form.  It is followed one part after the other, and
only a document has parts (`Document.at?_append`), so a path that leads through no name of an operator
finds the JSON form of what it finds in the document, and nothing where that has nothing
(`Document.lookup_reads_path`): the wrappers of values that JSON lacks cannot be entered.
-/

namespace Keyset

namespace Text

/-- A text with a separator is cut on either side of it. -/
theorem splitOn_append (sep : Char) (s t : List Char) :
    splitOn sep (s ++ sep :: t) = splitOn sep s ++ splitOn sep t := by
  induction s with
  | nil => simp [splitOn]
  | cons c s ih =>
    rw [List.cons_append, splitOn, splitOn, ih]
    split_ifs with hc
    · rfl
    · cases hs : splitOn sep s with
      | nil => exact absurd hs (splitOn_ne_nil sep s)
      | cons part parts => rfl

end Text

theorem pathNames_ne_nil (path : String) : pathNames path ≠ [] := by
  simp [pathNames, Text.splitOn_ne_nil]

theorem pathNames_append (outer inner : String) :
    pathNames (outer ++ "." ++ inner) = pathNames outer ++ pathNames inner := by
  have hpoint : ".".toList = ['.'] := by decide
  unfold pathNames
  rw [String.toList_append, String.toList_append, hpoint, List.append_assoc, List.singleton_append,
    Text.splitOn_append, List.map_append]

namespace Document

theorem follow?_cons {doc : Document} {name : String} {names : List String} (h : names ≠ []) :
    doc.follow? (name :: names) =
      ((doc.get? name).bind Value.document?).bind fun inner => inner.follow? names := by
  rw [follow?]
  · cases doc.get? name with
    | none => rfl
    | some v => cases v <;> rfl
  · exact h

theorem follow?_append {doc : Document} {outer inner : List String} (houter : outer ≠ [])
    (hinner : inner ≠ []) : doc.follow? (outer ++ inner) =
      ((doc.follow? outer).bind Value.document?).bind fun d => d.follow? inner := by
  induction outer generalizing doc with
  | nil => exact absurd rfl houter
  | cons name names ih =>
    rw [List.cons_append, follow?_cons (List.append_ne_nil_of_right_ne_nil _ hinner)]
    cases names with
    | nil => rfl
    | cons next rest =>
      rw [follow?_cons (List.cons_ne_nil next rest)]
      cases (Fields.get? doc name).bind Value.document? with
      | none => rfl
      | some d => exact ih (List.cons_ne_nil next rest)

/-- The second part of a path starts at the document that the first part leads to. -/
theorem at?_append (doc : Document) (outer inner : String) :
    doc.at? (outer ++ "." ++ inner) =
      ((doc.at? outer).bind Value.document?).bind fun d => d.at? inner := by
  unfold at?
  rw [pathNames_append, follow?_append (pathNames_ne_nil outer) (pathNames_ne_nil inner)]

theorem lookup?_toJson {doc : Document} {path : String} (hpath : isPlainPath path = true) :
    Cursor.lookup? doc.toJson path = (doc.at? path).map Value.toJson := by
  cases hvalue : doc.at? path with
  | some v => exact lookup?_of_at? hvalue
  | none =>
    rw [Option.map_none, Option.eq_none_iff_forall_ne_some]
    intro w hw
    obtain ⟨v, hv, -⟩ := exists_at?_of_lookup? hpath hw
    rw [hvalue] at hv
    cases hv

/-- **A path finds the same in a document and in its JSON form**: the JSON form of the value that it
leads to, or nothing in either.  A path goes on behind a document only, so nothing is found behind an
array or behind a value that is wrapped in an object of its own. -/
theorem lookup_reads_path {doc : Document} {path : String} (hpath : isPlainPath path = true) :
    Cursor.lookup? doc.toJson path = (doc.at? path).map Value.toJson ∧
      ∀ outer inner v, path = outer ++ "." ++ inner → doc.at? outer = some v →
        v.document? = none → doc.at? path = none ∧ Cursor.lookup? doc.toJson path = none := by
  refine ⟨lookup?_toJson hpath, ?_⟩
  rintro outer inner v rfl hv hdocument
  have hnone : doc.at? (outer ++ "." ++ inner) = none := by
    rw [at?_append, hv, Option.bind_some, hdocument, Option.bind_none]
  rw [lookup?_toJson hpath, hnone]
  exact ⟨rfl, rfl⟩

/-- A path leads through nested documents, but neither into an instant before 1970, which is wrapped
twice, nor into the items of an array. -/
theorem lookup_reads_path_member :
    let doc : Document :=
      [("member", .document [("name", .string "Ann"), ("since", .dateTime (-1))]),
        ("tags", .array [.document [("n", .int32 1)]])]
    (isPlainPath "member.name" = true ∧ isPlainPath "member.since.date" = true ∧
        isPlainPath "tags.n" = true) ∧
      Cursor.lookup? doc.toJson "member.name" = some (.string "Ann") ∧
      Cursor.lookup? doc.toJson "member.since" = some (Value.dateTime (-1)).toJson ∧
      Cursor.lookup? doc.toJson "member.since.date" = none ∧
      Cursor.lookup? doc.toJson "tags.n" = none := by
  intro doc
  have hname : isPlainPath "member.name" = true := by decide +kernel
  have hsince : isPlainPath "member.since" = true := by decide +kernel
  have hdate : isPlainPath "member.since.date" = true := by decide +kernel
  have htags : isPlainPath "tags.n" = true := by decide +kernel
  refine ⟨⟨hname, hdate, htags⟩, ?_, ?_, ?_, ?_⟩
  · rw [(lookup_reads_path hname).1]
    rfl
  · rw [(lookup_reads_path hsince).1]
    rfl
  · exact ((lookup_reads_path hdate).2 "member.since" "date" _ rfl rfl rfl).2
  · exact ((lookup_reads_path htags).2 "tags" "n" _ rfl rfl rfl).2

end Document

end Keyset
