import Keyset.Proofs.Cursor.Information
import Keyset.Proofs.Query.Text
import Keyset.Proofs.Query.Validity

/-!
# What is read of a text

A text is JSON or not, JSON is an object or not, the object names an operation, its fields have their
shapes, and the query that has their contents names a collection and has options that its operation can
use: the first of these that fails is the error, and if none does the query is what is read.
`Classifies` lists the cases, each with its outcome, and `Query.parse_classifies` says that reading is
this relation.

The cases speak of the fields of the object: `WellShaped` says which values a known field can have, and
`Query.Mirrors` how the contents of a query are those of the fields.
-/

namespace Keyset

theorem Operation.ofName_eq_ok_iff {name : String} {operation : Operation} :
    ofName name = .ok operation ↔ name = operation.name := by
  constructor
  · intro h
    unfold ofName ofName? at h
    split at h
    · rename_i found hfound
      obtain rfl := Except.ok.inj h
      split at hfound <;> cases hfound <;> rfl
    · cases h
  · rintro rfl
    rw [ofName, ofName?_name]

theorem Operation.ofName_eq_error_iff {name : String} {e : Error} :
    ofName name = .error e ↔
      (∀ operation : Operation, name ≠ operation.name) ∧ e = .unsupportedOperation name := by
  constructor
  · intro h
    refine ⟨fun operation hname => ?_, ?_⟩
    · rw [ofName_eq_ok_iff.mpr hname] at h
      cases h
    · unfold ofName at h
      split at h
      · cases h
      · exact (Except.error.inj h).symm
  · rintro ⟨hnone, rfl⟩
    cases h : ofName name with
    | ok operation => exact absurd (ofName_eq_ok_iff.mp h) (hnone operation)
    | error e =>
      unfold ofName at h
      split at h
      · cases h
      · exact h.symm

namespace Query

variable {q : Query} {text : String} {fields : Json.Object} {e : Error}

/-! ### The operation -/

theorem operationOf_eq_ok_iff {operation : Operation} :
    operationOf fields = .ok operation ↔
      fields.get? "operation" = some (.string operation.name) := by
  unfold operationOf
  split
  case h_1 name hname => rw [Operation.ofName_eq_ok_iff, hname, Option.some_inj, Json.string.injEq]
  case h_2 hname => exact ⟨nofun, fun h => absurd h (hname _)⟩

theorem operationOf_eq_error_iff :
    operationOf fields = .error e ↔
      ((∀ name, fields.get? "operation" ≠ some (.string name)) ∧ e = .missingOperation) ∨
      ∃ name, fields.get? "operation" = some (.string name) ∧
        (∀ operation : Operation, name ≠ operation.name) ∧ e = .unsupportedOperation name := by
  unfold operationOf
  split
  case h_1 name hname =>
    rw [Operation.ofName_eq_error_iff, hname]
    simp
  case h_2 hname =>
    have hnone : ∀ name, fields.get? "operation" ≠ some (.string name) := hname
    simp [hnone, eq_comm]

/-! ### The shape of the fields -/

/-- The known fields of an object have the shapes that a query needs. -/
structure WellShaped (fields : Json.Object) : Prop where
  collection : ∀ v, fields.get? "collection" = some v → v = .null ∨ ∃ s, v = .string s
  pipeline : ∀ v, fields.get? "pipeline" = some v →
    ∃ stages : List Json.Object, v = .array (stages.map .object)
  filter : ∀ v, fields.get? "filter" = some v → v = .null ∨ ∃ filter, v = .object filter
  options : ∀ v, fields.get? "options" = some v → ∃ options, v = .object options
  params : ∀ v, fields.get? "params" = some v → ∃ params, v = .array params
  cursorInfo : ∀ v, fields.get? "cursor_info" = some v →
    v = .null ∨ ∃ info : CursorInfo, info.IsGivenAs v

theorem stages?_eq_some_iff {v : Json} {stages : List Json.Object} :
    Json.listOf? Json.object? v = some stages ↔ v = .array (stages.map .object) :=
  Json.listOf?_eq_some_iff fun _ _ => Json.object?_eq_some_iff

theorem exists_ofFields?_iff {operation : Operation} :
    (∃ q, ofFields? operation fields = some q) ↔ WellShaped fields := by
  have hcollection : (∃ collection,
      Json.optional? fields "collection" Json.string? = some collection) ↔
      ∀ v, fields.get? "collection" = some v → v = .null ∨ ∃ s, v = .string s := by
    simp only [← Json.string?_eq_some_iff]
    exact Json.exists_optional?_iff
  have hpipeline : (∃ pipeline,
      Json.withDefault? fields "pipeline" (Json.listOf? Json.object?) [] = some pipeline) ↔
      ∀ v, fields.get? "pipeline" = some v →
        ∃ stages : List Json.Object, v = .array (stages.map .object) := by
    simp only [← stages?_eq_some_iff]
    exact Json.exists_withDefault?_iff
  have hfilter : (∃ filter, Json.optional? fields "filter" Json.object? = some filter) ↔
      ∀ v, fields.get? "filter" = some v → v = .null ∨ ∃ filter, v = .object filter := by
    simp only [← Json.object?_eq_some_iff]
    exact Json.exists_optional?_iff
  have hoptions : (∃ options, Json.withDefault? fields "options" Json.object? [] = some options) ↔
      ∀ v, fields.get? "options" = some v → ∃ options, v = .object options := by
    simp only [← Json.object?_eq_some_iff]
    exact Json.exists_withDefault?_iff
  have hparams : (∃ params, Json.withDefault? fields "params" Json.array? [] = some params) ↔
      ∀ v, fields.get? "params" = some v → ∃ params, v = .array params := by
    simp only [← Json.array?_eq_some_iff]
    exact Json.exists_withDefault?_iff
  have hcursorInfo : (∃ info, Json.optional? fields "cursor_info" CursorInfo.ofJson? = some info) ↔
      ∀ v, fields.get? "cursor_info" = some v →
        v = .null ∨ ∃ info : CursorInfo, info.IsGivenAs v := by
    simp only [← CursorInfo.ofJson?_eq_some_iff]
    exact Json.exists_optional?_iff
  have hcursor : ∃ cursor, Json.optional? fields "cursor" some = some cursor :=
    Json.exists_optional?_iff.mpr fun v _ => .inr ⟨v, rfl⟩
  constructor
  · rintro ⟨q, hq⟩
    obtain ⟨-, hread⟩ := ofFields?_eq_some_iff.mp hq
    exact ⟨hcollection.mp ⟨_, hread.collection⟩, hpipeline.mp ⟨_, hread.pipeline⟩,
      hfilter.mp ⟨_, hread.filter⟩, hoptions.mp ⟨_, hread.options⟩, hparams.mp ⟨_, hread.params⟩,
      hcursorInfo.mp ⟨_, hread.cursorInfo⟩⟩
  · intro h
    obtain ⟨collection, hcollection⟩ := hcollection.mpr h.collection
    obtain ⟨pipeline, hpipeline⟩ := hpipeline.mpr h.pipeline
    obtain ⟨filter, hfilter⟩ := hfilter.mpr h.filter
    obtain ⟨options, hoptions⟩ := hoptions.mpr h.options
    obtain ⟨params, hparams⟩ := hparams.mpr h.params
    obtain ⟨cursorInfo, hcursorInfo⟩ := hcursorInfo.mpr h.cursorInfo
    obtain ⟨cursor, hcursor⟩ := hcursor
    let extra := fields.filter fun field => !fieldNames.contains field.1
    refine ⟨⟨operation, collection, pipeline, filter, options, params, cursorInfo, cursor, extra⟩, ?_⟩
    exact ofFields?_eq_some_iff.mpr ⟨rfl, hcollection, hpipeline, hfilter, hoptions, hparams,
      hcursorInfo, hcursor, rfl⟩

/-! ### The contents of the fields -/

/-- A query has the contents of the fields of an object.  A collection, a filter, columns and a cursor
are absent where they are `null`, and what is not known is kept. -/
structure Mirrors (q : Query) (fields : Json.Object) : Prop where
  operation : fields.get? "operation" = some (.string q.operation.name)
  collection : Json.given? fields "collection" = q.collection.map .string
  pipeline : (fields.get? "pipeline").elim (q.pipeline = []) (· = .array (q.pipeline.map .object))
  filter : Json.given? fields "filter" = q.filter.map .object
  options : (fields.get? "options").elim (q.options = []) (· = .object q.options)
  params : (fields.get? "params").elim (q.params = []) (· = .array q.params)
  cursorInfo : Option.Rel (fun v info => info.IsGivenAs v) (Json.given? fields "cursor_info")
    q.cursorInfo
  cursor : Json.given? fields "cursor" = q.cursor
  extra : q.extra = fields.filter fun field => field.1 ∉ fieldNames

theorem ofFields_eq_ok_iff_mirrors : ofFields fields = .ok q ↔ q.Mirrors fields := by
  have hcollection : Json.optional? fields "collection" Json.string? = some q.collection ↔ _ :=
    Json.optional?_eq_some_iff_map fun _ _ => Json.string?_eq_some_iff
  have hpipeline : Json.withDefault? fields "pipeline" (Json.listOf? Json.object?) [] =
      some q.pipeline ↔ _ := Json.withDefault?_eq_some_iff fun _ _ => stages?_eq_some_iff
  have hfilter : Json.optional? fields "filter" Json.object? = some q.filter ↔ _ :=
    Json.optional?_eq_some_iff_map fun _ _ => Json.object?_eq_some_iff
  have hoptions : Json.withDefault? fields "options" Json.object? [] = some q.options ↔ _ :=
    Json.withDefault?_eq_some_iff fun _ _ => Json.object?_eq_some_iff
  have hparams : Json.withDefault? fields "params" Json.array? [] = some q.params ↔ _ :=
    Json.withDefault?_eq_some_iff fun _ _ => Json.array?_eq_some_iff
  have hcursorInfo : Json.optional? fields "cursor_info" CursorInfo.ofJson? =
      some q.cursorInfo ↔ _ := Json.optional?_eq_some_iff fun _ _ => CursorInfo.ofJson?_eq_some_iff
  have hcursor : Json.optional? fields "cursor" some = some q.cursor ↔
      Json.given? fields "cursor" = q.cursor := by
    rw [Json.optional?_eq_some_iff_map fun v a : Json => Option.some_inj, Option.map_id']
  have hunknown : (fields.filter fun field => !fieldNames.contains field.1) =
      fields.filter fun field => field.1 ∉ fieldNames := by
    simp
  rw [ofFields_eq_ok_iff, operationOf_eq_ok_iff]
  constructor
  · rintro ⟨hoperation, h⟩
    exact ⟨hoperation, hcollection.mp h.collection, hpipeline.mp h.pipeline, hfilter.mp h.filter,
      hoptions.mp h.options, hparams.mp h.params, hcursorInfo.mp h.cursorInfo,
      hcursor.mp h.cursor, h.extra.symm.trans hunknown⟩
  · intro h
    exact ⟨h.operation, hcollection.mpr h.collection, hpipeline.mpr h.pipeline,
      hfilter.mpr h.filter, hoptions.mpr h.options, hparams.mpr h.params,
      hcursorInfo.mpr h.cursorInfo, hcursor.mpr h.cursor, hunknown.trans h.extra.symm⟩

theorem ofFields_eq_error_iff :
    ofFields fields = .error e ↔ operationOf fields = .error e ∨
      (∃ operation, operationOf fields = .ok operation) ∧ ¬WellShaped fields ∧
        e = .malformed .wrongShape := by
  unfold ofFields
  rw [bind_eq_error_iff]
  refine or_congr_right ?_
  constructor
  · rintro ⟨operation, hoperation, h⟩
    refine ⟨⟨operation, hoperation⟩, fun hshaped => ?_, ?_⟩
    · obtain ⟨q, hq⟩ := exists_ofFields?_iff.mpr hshaped
      rw [hq] at h
      cases h
    · split at h
      · cases h
      · exact (Except.error.inj h).symm
  · rintro ⟨⟨operation, hoperation⟩, hshape, rfl⟩
    refine ⟨operation, hoperation, ?_⟩
    cases hq : ofFields? operation fields with
    | none => rfl
    | some q => exact absurd (exists_ofFields?_iff.mp ⟨q, hq⟩) hshape

/-- The names of the options of a query are distinct if it was read from a text. -/
theorem Mirrors.nodup_options {depth : Nat} (h : q.Mirrors fields)
    (hfits : Json.Fits depth (.object fields)) : q.options.names.Nodup := by
  have hoptions := h.options
  cases hget : fields.get? "options" with
  | none =>
    -- options that are left out are none
    rw [hget] at hoptions
    have hnone : q.options = [] := hoptions
    rw [hnone]
    exact List.nodup_nil
  | some v =>
    rw [hget] at hoptions
    obtain rfl : v = .object q.options := hoptions
    cases hfits with
    | object _ hfits =>
      cases hfits _ (Fields.mem_of_get? hget) with
      | object hnodup _ => exact hnodup

/-! ### What is read of a text -/

/-- What is read of a text, or why nothing is.  The cases stand in the order in which they are looked
for, and each says what the ones before it would not. -/
inductive Classifies (text : String) : Except Error Query → Prop where
  | notJson (h : Json.ofText? text = none) : Classifies text (.error (.malformed .notJson))
  | notAnObject {v : Json} (h : Json.ofText? text = some v) (hobject : ∀ fields, v ≠ .object fields) :
    Classifies text (.error (.malformed .notAnObject))
  | missingOperation {fields : Json.Object} (h : Json.ofText? text = some (.object fields))
    (hoperation : ∀ name, fields.get? "operation" ≠ some (.string name)) :
    Classifies text (.error .missingOperation)
  | unsupportedOperation {fields : Json.Object} {name : String}
    (h : Json.ofText? text = some (.object fields))
    (hname : fields.get? "operation" = some (.string name))
    (hoperation : ∀ operation : Operation, name ≠ operation.name) :
    Classifies text (.error (.unsupportedOperation name))
  | wrongShape {fields : Json.Object} {operation : Operation}
    (h : Json.ofText? text = some (.object fields))
    (hoperation : fields.get? "operation" = some (.string operation.name))
    (hshape : ¬WellShaped fields) : Classifies text (.error (.malformed .wrongShape))
  | missingCollection {fields : Json.Object} {q : Query} (h : Json.ofText? text = some (.object fields))
    (hq : q.Mirrors fields) (hmissing : ¬q.NamesCollection) :
    Classifies text (.error .missingCollection)
  | badOption {fields : Json.Object} {q : Query} {before after : List OptionName}
    {option : OptionName} {v : Json} {what : Malformed}
    (h : Json.ofText? text = some (.object fields)) (hq : q.Mirrors fields)
    (hnames : q.NamesCollection) (hoptions : q.operation.options = before ++ option :: after)
    (hbefore : ∀ o ∈ before, q.Admits o) (hv : q.options.get? option.name = some v)
    (hopen : ¬Placeholder.IsOpen v) (hrefuses : option.Refuses v what) :
    Classifies text (.error (.malformed what))
  | read {fields : Json.Object} {q : Query} (h : Json.ofText? text = some (.object fields))
    (hq : q.Mirrors fields) (hnames : q.NamesCollection)
    (hoptions : ∀ option ∈ q.operation.options, q.Admits option) : Classifies text (.ok q)

theorem parse_of_ofText? {v : Json} (h : Json.ofText? text = some v) : parse text = ofJson v := by
  unfold parse
  rw [h]

theorem ofJson_object_eq_error_iff :
    ofJson (.object fields) = .error e ↔
      ofFields fields = .error e ∨
        ∃ q : Query, q.Mirrors fields ∧ q.validateUnbound = .error e := by
  show (ofFields fields >>= fun q => q.validateUnbound >>= fun _ => .ok q) = .error e ↔ _
  rw [bind_eq_error_iff]
  simp [bind_eq_error_iff, ofFields_eq_ok_iff_mirrors]

/-- Every text is classified by what is read of it. -/
theorem classifies_parse (text : String) : Classifies text (parse text) := by
  cases htext : Json.ofText? text with
  | none =>
    unfold parse
    rw [htext]
    exact .notJson htext
  | some v =>
    rw [parse_of_ofText? htext]
    cases v with
    | null | bool | number | string | array => exact .notAnObject htext nofun
    | object fields =>
      have hfits := Json.fits_of_ofText? htext
      cases hread : ofJson (.object fields) with
      | ok q =>
        obtain ⟨hq, hvalid⟩ := ofJson_object_eq_ok_iff.mp hread
        have hq := ofFields_eq_ok_iff_mirrors.mp hq
        obtain ⟨hnames, hoptions⟩ := (validateUnbound_eq_ok_iff ⟨_, hq.nodup_options hfits⟩).mp hvalid
        exact .read htext hq hnames hoptions
      | error e =>
        -- the fields are at fault, or the query that has their contents is
        rcases ofJson_object_eq_error_iff.mp hread with hfields | ⟨q, hq, hinvalid⟩
        · rcases ofFields_eq_error_iff.mp hfields with hoperation | ⟨⟨_, hoperation⟩, hshape, rfl⟩
          · rcases operationOf_eq_error_iff.mp hoperation with ⟨hnone, rfl⟩ | ⟨_, hname, hnone, rfl⟩
            · exact .missingOperation htext hnone
            · exact .unsupportedOperation htext hname hnone
          · exact .wrongShape htext (operationOf_eq_ok_iff.mp hoperation) hshape
        · rcases (validateUnbound_eq_error_iff ⟨_, hq.nodup_options hfits⟩).mp hinvalid with
            ⟨hmissing, rfl⟩ | ⟨hnames, _, _, _, _, _, hoptions, hbefore, hv, hopen, hrefuses, rfl⟩
          · exact .missingCollection htext hq hmissing
          · exact .badOption htext hq hnames hoptions hbefore hv hopen hrefuses

theorem parse_eq_error_of_operationOf (htext : Json.ofText? text = some (.object fields))
    (h : operationOf fields = .error e) : parse text = .error e := by
  rw [parse_of_ofText? htext]
  exact ofJson_object_eq_error_iff.mpr (.inl (ofFields_eq_error_iff.mpr (.inl h)))

/-- If a text has the contents of a query, the query is read if it is valid. -/
theorem Mirrors.parse_eq (hq : q.Mirrors fields)
    (htext : Json.ofText? text = some (.object fields)) :
    parse text = q.validateUnbound.map fun _ => q := by
  rw [parse_of_ofText? htext]
  show (ofFields fields >>= fun q => q.validateUnbound >>= fun _ => .ok q) = _
  rw [ofFields_eq_ok_iff_mirrors.mpr hq]
  show (q.validateUnbound >>= fun _ => .ok q) = _
  cases q.validateUnbound <;> rfl

/-- A text is classified in one way. -/
theorem Classifies.parse_eq {r : Except Error Query} (h : Classifies text r) : parse text = r := by
  cases h with
  | notJson htext =>
    unfold parse
    rw [htext]
  | @notAnObject v htext hobject =>
    rw [parse_of_ofText? htext]
    cases v with
    | object fields => exact absurd rfl (hobject fields)
    | _ => rfl
  | missingOperation htext hnone =>
    exact parse_eq_error_of_operationOf htext (operationOf_eq_error_iff.mpr (.inl ⟨hnone, rfl⟩))
  | unsupportedOperation htext hname hnone =>
    refine parse_eq_error_of_operationOf htext (operationOf_eq_error_iff.mpr (.inr ?_))
    exact ⟨_, hname, hnone, rfl⟩
  | wrongShape htext hoperation hshape =>
    rw [parse_of_ofText? htext]
    refine ofJson_object_eq_error_iff.mpr (.inl (ofFields_eq_error_iff.mpr (.inr ?_)))
    exact ⟨⟨_, operationOf_eq_ok_iff.mpr hoperation⟩, hshape, rfl⟩
  | missingCollection htext hq hmissing =>
    rw [hq.parse_eq htext, map_eq_error_iff,
      validateUnbound_eq_error_iff ⟨_, hq.nodup_options (Json.fits_of_ofText? htext)⟩]
    exact .inl ⟨hmissing, rfl⟩
  | badOption htext hq hnames hoptions hbefore hv hopen hrefuses =>
    rw [hq.parse_eq htext, map_eq_error_iff,
      validateUnbound_eq_error_iff ⟨_, hq.nodup_options (Json.fits_of_ofText? htext)⟩]
    exact .inr ⟨hnames, _, _, _, _, _, hoptions, hbefore, hv, hopen, hrefuses, rfl⟩
  | read htext hq hnames hoptions =>
    have hvalid := validateUnbound_eq_ok_iff ⟨_, hq.nodup_options (Json.fits_of_ofText? htext)⟩
    rw [hq.parse_eq htext, hvalid.mpr ⟨hnames, hoptions⟩]
    rfl

/-! ### What is of no account -/

/-- Two queries that differ at most in what is not checked: they have one operation and one collection,
and give the same values to the options that the operation uses. -/
structure ChecksAlike (q q' : Query) : Prop where
  operation : q'.operation = q.operation
  collection : q'.collection = q.collection
  options : ∀ option ∈ q.operation.options,
    q'.options.get? option.name = q.options.get? option.name

theorem validateUnbound_congr (q q' : Query.Distinct) (h : ChecksAlike q.toQuery q'.toQuery) :
    q'.validateUnbound = q.validateUnbound := by
  have hoperation : q'.withoutOpenOptions.operation = q.withoutOpenOptions.operation := h.operation
  have hcollection : q'.withoutOpenOptions.collectionName = q.withoutOpenOptions.collectionName :=
    congrArg (Option.getD · "") h.collection
  have hcheck : q.operation.options.forM q'.withoutOpenOptions.checkOption =
      q.operation.options.forM q.withoutOpenOptions.checkOption := by
    refine forM_congr fun option hoption => ?_
    have hget : q'.withoutOpenOptions.options.get? option.name =
        q.withoutOpenOptions.options.get? option.name := by
      ext v
      rw [get?_withoutOpenOptions, get?_withoutOpenOptions, h.options option hoption]
    unfold checkOption
    rw [hget]
  unfold validateUnbound validate
  rw [checkOptions_eq, checkOptions_eq, hoperation, hcollection]
  exact congrArg _ hcheck

/-- **Reading classifies every text**: what is read of a text, or the error, is what the text is
classified as, and nothing else.  Texts of queries that differ only in what is not checked, such as the
values of options that the operation does not use, are refused alike. -/
theorem parse_classifies :
    (∀ text r, parse text = r ↔ Classifies text r) ∧
    ∀ {text text' : String} {fields fields' : Json.Object} {q q' : Query},
      Json.ofText? text = some (.object fields) → Json.ofText? text' = some (.object fields') →
      q.Mirrors fields → q'.Mirrors fields' → q.ChecksAlike q' →
      ∀ e, parse text' = .error e ↔ parse text = .error e := by
  refine ⟨fun text r => ⟨?_, Classifies.parse_eq⟩, ?_⟩
  · rintro rfl
    exact classifies_parse text
  · intro text text' fields fields' q q' htext htext' hq hq' halike e
    have hnodup := hq.nodup_options (Json.fits_of_ofText? htext)
    have hnodup' := hq'.nodup_options (Json.fits_of_ofText? htext')
    have hsame : q'.validateUnbound = q.validateUnbound :=
      validateUnbound_congr ⟨q, hnodup⟩ ⟨q', hnodup'⟩ halike
    rw [hq.parse_eq htext, hq'.parse_eq htext', map_eq_error_iff, map_eq_error_iff, hsame]

/-- An introspection with an option that only a find uses, and that no find could have. -/
def limitedIntrospection : Query where
  operation := .introspectColumns
  options := [("limit", .string "x")]

theorem parse_classifies_limitedIntrospection :
    Json.ofText? introspection.text = some (.object introspection.toJson) ∧
    Json.ofText? limitedIntrospection.text = some (.object limitedIntrospection.toJson) ∧
    introspection.Mirrors introspection.toJson ∧
    limitedIntrospection.Mirrors limitedIntrospection.toJson ∧
    introspection.ChecksAlike limitedIntrospection ∧
    (∀ e, parse limitedIntrospection.text = .error e ↔ parse introspection.text = .error e) ∧
    parse limitedIntrospection.text = .ok limitedIntrospection := by
  have hfits : Json.Fits Json.maxDepth (.object introspection.toJson) :=
    .object (by decide) (List.forall_mem_singleton.mpr (.string _ _))
  have hlimit : Json.Fits 126 (.object limitedIntrospection.options) :=
    .object (by decide) (List.forall_mem_singleton.mpr (.string _ _))
  have hfits' : Json.Fits Json.maxDepth (.object limitedIntrospection.toJson) :=
    .object (by decide) (List.forall_mem_cons.mpr
      ⟨.string _ _, List.forall_mem_singleton.mpr hlimit⟩)
  have hreads : (Json.object introspection.toJson).DoublesRead := by
    intro x hx hmem
    cases List.mem_singleton.mp hmem
  have hreads' : (Json.object limitedIntrospection.toJson).DoublesRead := by
    intro x hx hmem
    simp [limitedIntrospection, toJson, field?, Json.leaves, Json.fieldLeaves] at hmem
  have htext := Json.ofText?_text hfits hreads
  have htext' := Json.ofText?_text hfits' hreads'
  have hq : introspection.Mirrors introspection.toJson :=
    ⟨rfl, rfl, rfl, rfl, rfl, rfl, .none, rfl, rfl⟩
  have hq' : limitedIntrospection.Mirrors limitedIntrospection.toJson :=
    ⟨rfl, rfl, rfl, rfl, rfl, rfl, .none, rfl, rfl⟩
  have hunused : ∀ option ∈ limitedIntrospection.operation.options,
      limitedIntrospection.options.get? option.name = none :=
    List.forall_mem_cons.mpr ⟨rfl, List.forall_mem_singleton.mpr rfl⟩
  have halike : introspection.ChecksAlike limitedIntrospection := ⟨rfl, rfl, hunused⟩
  have hadmits : ∀ option ∈ limitedIntrospection.operation.options,
      limitedIntrospection.Admits option := by
    intro option hoption v hv
    rw [hunused option hoption] at hv
    cases hv
  have hnames : limitedIntrospection.NamesCollection := by
    simp [NamesCollection, limitedIntrospection, Operation.needsCollection]
  refine ⟨htext, htext', hq, hq', halike, parse_classifies.2 htext htext' hq hq' halike, ?_⟩
  exact (parse_classifies.1 _ _).mpr (.read htext' hq' hnames hadmits)

end Query

end Keyset
