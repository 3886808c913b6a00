import Keyset.Cursor.Text
import Keyset.Document.Extended
import Keyset.Document.Path
import Keyset.Filter

/-!
# Looking up columns in rows

What a path leads to in a document is found in its JSON form under the same path (`lookup?_of_at?`).
The JSON form has fields of its own in place of values that JSON lacks, but their names are those of
operators, so the converse holds for paths without such names (`exists_at?_of_lookup?`).
-/

namespace Keyset

theorem Cursor.lookup?_of_pathNames {row : Json} {name : String} (h : pathNames name = [name]) :
    lookup? row name = row.get? name := by
  show (pathNames name).foldlM Json.get? row = _
  rw [h, List.foldlM_cons]
  simp

namespace Document

theorem get?_fieldsToJsonIn (form : Value.Form) (doc : Document) (name : String) :
    Fields.get? (Value.fieldsToJsonIn form doc) name =
      (Fields.get? doc name).map (Value.toJsonIn form) := by
  induction doc with
  | nil => rfl
  | cons f doc ih =>
    obtain ⟨k, v⟩ := f
    rw [Value.fieldsToJsonIn, Fields.get?, Fields.get?]
    split
    · rfl
    · exact ih

/-- A field of a document is the field of its JSON form. -/
theorem get?_toJson (doc : Document) (name : String) :
    doc.toJson.get? name = (Fields.get? doc name).map Value.toJson := by
  show (Json.object (Value.fieldsToJsonIn .relaxed doc)).get? name = _
  exact get?_fieldsToJsonIn .relaxed doc name

/-- Names lead to the same value in the JSON form. -/
theorem foldlM_get?_of_follow? {doc : Document} {names : List String} {v : Value}
    (h : doc.follow? names = some v) : names.foldlM Json.get? doc.toJson = some v.toJson := by
  induction names generalizing doc with
  | nil => cases h
  | cons name names ih =>
    rw [List.foldlM_cons, get?_toJson]
    cases names with
    | nil =>
      rw [follow?] at h
      rw [h]
      rfl
    | cons next rest =>
      rw [follow?] at h
      · split at h
        · rename_i inner hinner
          rw [hinner]
          exact ih h
        · cases h
      · exact fun hnil => nomatch hnil

/-- What a path leads to in a document is found in its JSON form. -/
theorem lookup?_of_at? {doc : Document} {path : String} {v : Value} (h : doc.at? path = some v) :
    Cursor.lookup? doc.toJson path = some v.toJson :=
  foldlM_get?_of_follow? h

end Document

/-- A path that leads through no name of an operator. -/
def isPlainPath (path : String) : Bool :=
  (pathNames path).all fun name => !Filter.isOperatorName name

/-- Such a path is not the name of an operator itself. -/
theorem isOperatorName_of_isPlainPath {path : String} (h : isPlainPath path = true) :
    Filter.isOperatorName path = false := by
  rw [Bool.eq_false_iff]
  intro hop
  obtain ⟨s, hs⟩ : ∃ s, path.toList = '$' :: s := by
    unfold Filter.isOperatorName at hop
    cases htext : path.toList with
    | nil =>
      rw [htext] at hop
      cases hop
    | cons c s =>
      rw [htext, List.head?_cons, beq_iff_eq, Option.some.injEq] at hop
      exact ⟨s, by rw [hop]⟩
  have hdollar : '$' ≠ '.' := by decide
  -- the first name of the path starts with the same sign
  obtain ⟨part, parts, hparts⟩ : ∃ part parts,
      Text.splitOn '.' path.toList = ('$' :: part) :: parts := by
    rw [hs, Text.splitOn, if_neg hdollar]
    cases hsplit : Text.splitOn '.' s with
    | nil => exact ⟨[], [], rfl⟩
    | cons part parts => exact ⟨part, parts, rfl⟩
  unfold isPlainPath pathNames at h
  rw [hparts, List.map_cons, List.all_cons, Bool.and_eq_true] at h
  have hname : Filter.isOperatorName (String.ofList ('$' :: part)) = true := by
    rw [Filter.isOperatorName, String.toList_ofList]
    rfl
  rw [hname] at h
  cases h.1

theorem Value.get?_wrap {marker name : String} (hmarker : Filter.isOperatorName marker = true)
    (hname : Filter.isOperatorName name = false) (w : Json) : (wrap marker w).get? name = none := by
  have hne : marker ≠ name := by
    rintro rfl
    rw [hmarker] at hname
    cases hname
  show Fields.get? [(marker, w)] name = none
  rw [Fields.get?, if_neg hne]
  rfl

/-- The fields of the JSON forms of values that are no documents have the names of operators. -/
theorem Value.get?_toJson_of_not_document {v : Value} (hv : v.document? = none) {name : String}
    (hname : Filter.isOperatorName name = false) : v.toJson.get? name = none := by
  cases v with
  | document fields => cases hv
  | double x =>
    show (doubleToJson .relaxed x).get? name = none
    unfold doubleToJson
    split
    · rfl
    · exact get?_wrap rfl hname _
  | dateTime millis =>
    show (dateTimeToJson .relaxed millis).get? name = none
    unfold dateTimeToJson
    split <;> exact get?_wrap rfl hname _
  | scopedCode source scope =>
    have hcode : "$code" ≠ name := by
      rintro rfl
      cases hname
    have hscope : "$scope" ≠ name := by
      rintro rfl
      cases hname
    show Fields.get? [("$code", _), ("$scope", _)] name = none
    rw [Fields.get?, if_neg hcode, Fields.get?, if_neg hscope]
    rfl
  | binary subtype bytes => exact get?_wrap rfl hname _
  | _ => first | rfl | exact get?_wrap rfl hname _

namespace Document

/-- Names that are not those of operators lead to the JSON form of a value only. -/
theorem exists_follow?_of_foldlM {doc : Document} {names : List String} {w : Json}
    (hne : names ≠ []) (hnames : ∀ name ∈ names, Filter.isOperatorName name = false)
    (h : names.foldlM Json.get? doc.toJson = some w) :
    ∃ v, doc.follow? names = some v ∧ w = v.toJson := by
  induction names generalizing doc with
  | nil => exact absurd rfl hne
  | cons name names ih =>
    rw [List.foldlM_cons, get?_toJson] at h
    rw [List.forall_mem_cons] at hnames
    cases hfield : Fields.get? doc name with
    | none =>
      rw [hfield] at h
      cases h
    | some v =>
      rw [hfield] at h
      have h : names.foldlM Json.get? v.toJson = some w := h
      cases names with
      | nil => exact ⟨v, hfield, (Option.some.inj h).symm⟩
      | cons next rest =>
        -- only documents have fields whose names are not those of operators
        cases hdocument : v.document? with
        | none =>
          rw [List.foldlM_cons, Value.get?_toJson_of_not_document hdocument
            (hnames.2 next List.mem_cons_self)] at h
          cases h
        | some inner =>
          obtain rfl : v = .document inner := by
            cases v <;> cases hdocument
            rfl
          obtain ⟨u, hu, hw⟩ := ih (List.cons_ne_nil _ _) hnames.2 h
          refine ⟨u, ?_, hw⟩
          rw [follow?, hfield]
          · exact hu
          · exact fun hnil => nomatch hnil

/-- What is found in the JSON form under a path without names of operators is the JSON form of what the
path leads to. -/
theorem exists_at?_of_lookup? {doc : Document} {path : String} {w : Json}
    (hpath : isPlainPath path = true) (h : Cursor.lookup? doc.toJson path = some w) :
    ∃ v, doc.at? path = some v ∧ w = v.toJson := by
  refine exists_follow?_of_foldlM ?_ (fun name hname => ?_) h
  · unfold pathNames
    simp [Text.splitOn_ne_nil]
  · simpa using List.all_eq_true.mp hpath name hname

end Document

end Keyset
