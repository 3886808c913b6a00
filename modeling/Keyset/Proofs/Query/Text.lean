import Keyset.Proofs.Json.Record
import Keyset.Proofs.Json.Text
import Keyset.Query.Text

/-!
# Query texts that read back

A query that is read is valid, its unknown fields have names of their own, and it fits a text
(`Query.WellFormed`).  Such a query is read from its own text as it was (`Query.parse_inverts_text`).
-/

namespace Keyset

/-! ### Columns and their cursor -/

theorem OrderBy.ofJson?_toJson (col : OrderBy) : ofJson? col.toJson = some col := by
  obtain ⟨column, direction, kind⟩ := col
  cases direction <;> rcases kind with _ | _ | _ | _ <;> rfl

theorem CursorInfo.ofJson?_object (id columns : Json) (lead : String) :
    ofJson? (.object [("select_id", id), ("prefix", .string lead), ("order_by", columns)]) =
      id.uint64?.bind fun selectId => (Json.listOf? OrderBy.ofJson? columns).bind fun orderBy =>
        some ⟨selectId, lead, orderBy⟩ :=
  rfl

theorem CursorInfo.ofJson?_toJson (info : CursorInfo) : ofJson? info.toJson = some info := by
  have hcolumns : Json.listOf? OrderBy.ofJson? (.array (info.orderBy.map OrderBy.toJson)) =
      some info.orderBy := Json.listOf?_map OrderBy.ofJson?_toJson
  unfold toJson
  rw [ofJson?_object, Json.uint64?_ofUInt64, hcolumns]
  rfl

theorem OrderBy.fits_toJson (col : OrderBy) (depth : Nat) : Json.Fits (depth + 1) col.toJson := by
  obtain ⟨column, direction, kind⟩ := col
  cases kind with
  | none =>
    have hnames : ["column", "direction"].Nodup := by decide
    refine .object hnames ?_
    simp [Json.Fits.string]
  | some kind =>
    have hnames : ["column", "direction", "type"].Nodup := by decide
    refine .object hnames ?_
    simp [Json.Fits.string]

theorem CursorInfo.fits_toJson (info : CursorInfo) (depth : Nat) :
    Json.Fits (depth + 3) info.toJson := by
  have hnames : ["select_id", "prefix", "order_by"].Nodup := by decide
  have hcolumns : Json.Fits (depth + 2) (.array (info.orderBy.map OrderBy.toJson)) := by
    refine .array fun v hv => ?_
    obtain ⟨col, -, rfl⟩ := List.mem_map.mp hv
    exact col.fits_toJson depth
  refine .object hnames ?_
  simp only [List.forall_mem_cons]
  exact ⟨.number _ _, .string _ _, hcolumns, nofun⟩

/-! ### The fields of a query -/

namespace Query

/-- The fields that a query knows, with what is written of them. -/
def knownFields (q : Query) : List (String × Option Json) :=
  [("operation", some (.string q.operation.name)),
    ("collection", q.collection.map .string),
    ("pipeline", if q.pipeline = [] then none else some (.array (q.pipeline.map .object))),
    ("filter", q.filter.map .object),
    ("options", if q.options = [] then none else some (.object q.options)),
    ("params", if q.params = [] then none else some (.array q.params)),
    ("cursor_info", q.cursorInfo.map CursorInfo.toJson),
    ("cursor", q.cursor)]

/-- The fields that are written. -/
def written (known : List (String × Option Json)) : Json.Object :=
  known.flatMap fun field => field? field.1 field.2

theorem toJson_eq (q : Query) : q.toJson = written q.knownFields ++ q.extra := by
  simp [toJson, written, knownFields, field?]

theorem nodup_fieldNames : fieldNames.Nodup := by
  decide

theorem names_written_sublist (known : List (String × Option Json)) :
    (Fields.names (written known)).Sublist (known.map Prod.fst) := by
  induction known with
  | nil => exact List.Sublist.slnil
  | cons field known ih =>
    obtain ⟨k, v⟩ := field
    cases v with
    | none => exact ih.cons k
    | some v => exact ih.cons_cons k

theorem mem_of_mem_written {known : List (String × Option Json)} {field : String × Json}
    (h : field ∈ written known) : (field.1, some field.2) ∈ known := by
  obtain ⟨⟨k, v⟩, hmem, hfield⟩ := List.mem_flatMap.mp h
  obtain ⟨w, hw, rfl⟩ := List.mem_map.mp hfield
  rw [← Option.mem_toList.mp hw]
  exact hmem

theorem get?_written {known : List (String × Option Json)} (hnodup : (known.map Prod.fst).Nodup)
    {name : String} {v : Option Json} (h : (name, v) ∈ known) :
    Fields.get? (written known) name = v := by
  induction known with
  | nil => cases h
  | cons field known ih =>
    obtain ⟨k, w⟩ := field
    rw [List.map_cons, List.nodup_cons] at hnodup
    have hfirst : Fields.get? (field? k w) name = if k = name then w else none := by
      cases w <;> simp [field?, Fields.get?]
    have hcons : written ((k, w) :: known) = field? k w ++ written known := List.flatMap_cons
    rw [hcons, Fields.get?_append, hfirst]
    rcases List.mem_cons.mp h with heq | hmem
    · cases heq
      have hnone : Fields.get? (written known) name = none :=
        Fields.get?_of_notMem fun hname => hnodup.1 ((names_written_sublist known).subset hname)
      rw [if_pos rfl, hnone, Option.or_none]
    · have hne : k ≠ name := by
        rintro rfl
        exact hnodup.1 (List.mem_map.mpr ⟨(k, v), hmem, rfl⟩)
      rw [if_neg hne, Option.none_or]
      exact ih hnodup.2 hmem

/-- A query as it is after reading. -/
structure WellFormed (q : Query) : Prop where
  /-- It is valid as far as it can be checked before its placeholders are bound. -/
  valid : q.validateUnbound = .ok ()
  /-- Its unknown fields have names of their own. -/
  extra_unknown : ∀ name ∈ fieldNames, name ∉ Fields.names q.extra
  /-- An absent cursor is not written as `null`. -/
  cursor_ne_null : q.cursor ≠ some .null
  /-- Its objects have distinct names, and its values nest no deeper than can be read. -/
  fits : Json.Fits Json.maxDepth (.object q.toJson)

variable {q : Query}

/-- A field that a query knows is found with what was written of it. -/
theorem WellFormed.get?_toJson (hq : q.WellFormed) {name : String} {v : Option Json}
    (h : (name, v) ∈ q.knownFields) : Fields.get? q.toJson name = v := by
  have hname : name ∈ q.knownFields.map Prod.fst := List.mem_map.mpr ⟨(name, v), h, rfl⟩
  have hnodup : (q.knownFields.map Prod.fst).Nodup := nodup_fieldNames
  rw [toJson_eq, Fields.get?_append, get?_written hnodup h,
    Fields.get?_of_notMem (hq.extra_unknown name hname), Option.or_none]

theorem WellFormed.filter_toJson (hq : q.WellFormed) :
    (q.toJson.filter fun field => !fieldNames.contains field.1) = q.extra := by
  rw [toJson_eq, List.filter_append]
  have hknown : (written q.knownFields).filter (fun field => !fieldNames.contains field.1) = [] := by
    refine List.filter_eq_nil_iff.mpr fun field hfield => ?_
    have hmem : field.1 ∈ fieldNames :=
      (names_written_sublist q.knownFields).subset (Fields.mem_names hfield)
    simp [hmem]
  have hextra : q.extra.filter (fun field => !fieldNames.contains field.1) = q.extra := by
    refine List.filter_eq_self.mpr fun field hfield => ?_
    have hmem : field.1 ∉ fieldNames :=
      fun hmem => hq.extra_unknown field.1 hmem (Fields.mem_names hfield)
    simp [hmem]
  rw [hknown, hextra, List.nil_append]

/-! ### Reading what was written -/

/-- What the parts of a query are read from. -/
structure IsReadFrom (q : Query) (fields : Json.Object) : Prop where
  collection : Json.optional? fields "collection" Json.string? = some q.collection
  pipeline : Json.withDefault? fields "pipeline" (Json.listOf? Json.object?) [] = some q.pipeline
  filter : Json.optional? fields "filter" Json.object? = some q.filter
  options : Json.withDefault? fields "options" Json.object? [] = some q.options
  params : Json.withDefault? fields "params" Json.array? [] = some q.params
  cursorInfo : Json.optional? fields "cursor_info" CursorInfo.ofJson? = some q.cursorInfo
  cursor : Json.optional? fields "cursor" some = some q.cursor
  extra : (fields.filter fun field => !fieldNames.contains field.1) = q.extra

theorem ofFields?_eq_some_iff {operation : Operation} {fields : Json.Object} :
    ofFields? operation fields = some q ↔ q.operation = operation ∧ q.IsReadFrom fields := by
  constructor
  · intro h
    obtain ⟨collection, hcollection, h⟩ := Option.bind_eq_some_iff.mp h
    obtain ⟨pipeline, hpipeline, h⟩ := Option.bind_eq_some_iff.mp h
    obtain ⟨filter, hfilter, h⟩ := Option.bind_eq_some_iff.mp h
    obtain ⟨options, hoptions, h⟩ := Option.bind_eq_some_iff.mp h
    obtain ⟨params, hparams, h⟩ := Option.bind_eq_some_iff.mp h
    obtain ⟨info, hinfo, h⟩ := Option.bind_eq_some_iff.mp h
    obtain ⟨cursor, hcursor, h⟩ := Option.bind_eq_some_iff.mp h
    cases h
    exact ⟨rfl, hcollection, hpipeline, hfilter, hoptions, hparams, hinfo, hcursor, rfl⟩
  · rintro ⟨rfl, hq⟩
    unfold ofFields?
    rw [hq.collection, hq.pipeline, hq.filter, hq.options, hq.params, hq.cursorInfo, hq.cursor,
      hq.extra]
    rfl

theorem ofFields_eq_ok_iff {fields : Json.Object} :
    ofFields fields = .ok q ↔ operationOf fields = .ok q.operation ∧ q.IsReadFrom fields := by
  unfold ofFields
  rw [bind_eq_ok_iff]
  constructor
  · rintro ⟨operation, hoperation, h⟩
    cases hread : ofFields? operation fields with
    | none =>
      rw [hread] at h
      cases h
    | some p =>
      rw [hread] at h
      cases h
      obtain ⟨rfl, hq⟩ := ofFields?_eq_some_iff.mp hread
      exact ⟨hoperation, hq⟩
  · rintro ⟨hoperation, hq⟩
    refine ⟨q.operation, hoperation, ?_⟩
    rw [ofFields?_eq_some_iff.mpr ⟨rfl, hq⟩]
    rfl

theorem ofJson_object_eq_ok_iff {fields : Json.Object} :
    ofJson (.object fields) = .ok q ↔ ofFields fields = .ok q ∧ q.validateUnbound = .ok () := by
  show (ofFields fields >>= fun q => q.validateUnbound >>= fun _ => .ok q) = .ok q ↔ _
  simp only [bind_eq_ok_iff]
  constructor
  · rintro ⟨p, hp, _, hvalid, heq⟩
    cases heq
    exact ⟨hp, hvalid⟩
  · rintro ⟨hq, hvalid⟩
    exact ⟨q, hq, (), hvalid, rfl⟩

/-- A query is read from a text that holds an object with its operation and its parts, if it is
valid. -/
theorem parse_eq_ok_iff {text : String} :
    parse text = .ok q ↔ ∃ fields, Json.ofText? text = some (.object fields) ∧
      operationOf fields = .ok q.operation ∧ q.IsReadFrom fields ∧ q.validateUnbound = .ok () := by
  constructor
  · intro h
    unfold parse at h
    split at h
    · rename_i v hv
      cases v with
      | object fields =>
        obtain ⟨hfields, hvalid⟩ := ofJson_object_eq_ok_iff.mp h
        obtain ⟨hoperation, hq⟩ := ofFields_eq_ok_iff.mp hfields
        exact ⟨fields, hv, hoperation, hq, hvalid⟩
      | _ => cases h
    · cases h
  · rintro ⟨fields, htext, hoperation, hq, hvalid⟩
    unfold parse
    rw [htext]
    exact ofJson_object_eq_ok_iff.mpr ⟨ofFields_eq_ok_iff.mpr ⟨hoperation, hq⟩, hvalid⟩

theorem WellFormed.operationOf_toJson (hq : q.WellFormed) :
    operationOf q.toJson = .ok q.operation := by
  have hget : Fields.get? q.toJson "operation" = some (.string q.operation.name) :=
    hq.get?_toJson (by simp [knownFields])
  unfold operationOf
  rw [hget]
  show Operation.ofName q.operation.name = _
  rw [Operation.ofName, Operation.ofName?_name]

theorem WellFormed.isReadFrom_toJson (hq : q.WellFormed) : q.IsReadFrom q.toJson where
  collection := by
    have hget : Fields.get? q.toJson "collection" = q.collection.map .string :=
      hq.get?_toJson (by simp [knownFields])
    exact Json.optional?_of_get? hget (fun _ _ => rfl) nofun
  pipeline := by
    have hget : Fields.get? q.toJson "pipeline" =
        if q.pipeline = [] then none else some (.array (q.pipeline.map .object)) :=
      hq.get?_toJson (by simp [knownFields])
    exact Json.withDefault?_of_get? hget (Json.listOf?_map fun _ => rfl)
  filter := by
    have hget : Fields.get? q.toJson "filter" = q.filter.map .object :=
      hq.get?_toJson (by simp [knownFields])
    exact Json.optional?_of_get? hget (fun _ _ => rfl) nofun
  options := by
    have hget : Fields.get? q.toJson "options" =
        if q.options = [] then none else some (.object q.options) :=
      hq.get?_toJson (by simp [knownFields])
    exact Json.withDefault?_of_get? hget rfl
  params := by
    have hget : Fields.get? q.toJson "params" =
        if q.params = [] then none else some (.array q.params) :=
      hq.get?_toJson (by simp [knownFields])
    exact Json.withDefault?_of_get? hget rfl
  cursorInfo := by
    have hget : Fields.get? q.toJson "cursor_info" = q.cursorInfo.map CursorInfo.toJson :=
      hq.get?_toJson (by simp [knownFields])
    exact Json.optional?_of_get? hget (fun info _ => CursorInfo.ofJson?_toJson info) nofun
  cursor := by
    have hget : Fields.get? q.toJson "cursor" = q.cursor.map id := by
      rw [Option.map_id, id_eq]
      exact hq.get?_toJson (by simp [knownFields])
    refine Json.optional?_of_get? hget (fun _ _ => rfl) fun v hv hnull => ?_
    exact hq.cursor_ne_null (hv.trans (congrArg some hnull))
  extra := hq.filter_toJson

/-- A well-formed query is read from its own text. -/
theorem WellFormed.parse_text (hq : q.WellFormed) (hreads : (Json.object q.toJson).DoublesRead) :
    parse q.text = .ok q :=
  parse_eq_ok_iff.mpr ⟨q.toJson, Json.ofText?_text hq.fits hreads, hq.operationOf_toJson,
    hq.isReadFrom_toJson, hq.valid⟩

/-! ### What is read -/

theorem IsReadFrom.extra_unknown {fields : Json.Object} (hq : q.IsReadFrom fields) :
    ∀ name ∈ fieldNames, name ∉ Fields.names q.extra := by
  intro name hname hmem
  obtain ⟨field, hfield, rfl⟩ := List.mem_map.mp hmem
  rw [← hq.extra, List.mem_filter] at hfield
  simp [hname] at hfield

theorem IsReadFrom.cursor_ne_null {fields : Json.Object} (hq : q.IsReadFrom fields) :
    q.cursor ≠ some .null := by
  intro hnull
  obtain ⟨v, -, hv, hread⟩ := Json.get?_of_optional? (hq.cursor.trans (congrArg some hnull))
  exact hv (Option.some.inj hread)

/-- What is written of a query that was read fits where it was read. -/
theorem IsReadFrom.fits {fields : Json.Object} {depth : Nat} (hq : q.IsReadFrom fields)
    (hfits : ∀ field ∈ fields, Json.Fits (depth + 3) field.2) {name : String} {v : Json}
    (h : (name, some v) ∈ q.knownFields) : Json.Fits (depth + 3) v := by
  have hget {name : String} {v : Json} (h : fields.get? name = some v) :
      Json.Fits (depth + 3) v := hfits (name, v) (Fields.mem_of_get? h)
  simp only [knownFields, List.mem_cons, Prod.mk.injEq, List.not_mem_nil, or_false] at h
  -- one case for each known field: what is written again was read, or is of a fixed depth
  rcases h with ⟨-, h⟩ | ⟨-, h⟩ | ⟨-, h⟩ | ⟨-, h⟩ | ⟨-, h⟩ | ⟨-, h⟩ | ⟨-, h⟩ | ⟨-, h⟩
  · cases h
    exact .string _ _
  · obtain ⟨s, -, rfl⟩ := Option.map_eq_some_iff.mp h.symm
    exact .string _ s
  · split_ifs at h with hne
    cases h
    obtain ⟨v, hv, hread⟩ := Json.get?_of_withDefault? hq.pipeline hne
    rw [← (Json.listOf?_eq_some_iff fun _ _ => Json.object?_eq_some_iff).mp hread]
    exact hget hv
  · obtain ⟨filter, hfilter, rfl⟩ := Option.map_eq_some_iff.mp h.symm
    obtain ⟨v, hv, -, hread⟩ := Json.get?_of_optional? (hq.filter.trans (congrArg some hfilter))
    rw [← Json.object?_eq_some_iff.mp hread]
    exact hget hv
  · split_ifs at h with hne
    cases h
    obtain ⟨v, hv, hread⟩ := Json.get?_of_withDefault? hq.options hne
    rw [← Json.object?_eq_some_iff.mp hread]
    exact hget hv
  · split_ifs at h with hne
    cases h
    obtain ⟨v, hv, hread⟩ := Json.get?_of_withDefault? hq.params hne
    rw [← Json.array?_eq_some_iff.mp hread]
    exact hget hv
  · obtain ⟨info, -, rfl⟩ := Option.map_eq_some_iff.mp h.symm
    exact info.fits_toJson depth
  · obtain ⟨w, hw, -, hread⟩ := Json.get?_of_optional? (hq.cursor.trans (congrArg some h.symm))
    cases hread
    exact hget hw

/-- The names that are written of a query that was read are distinct. -/
theorem IsReadFrom.nodup_toJson {fields : Json.Object} (hq : q.IsReadFrom fields)
    (hnodup : (Fields.names fields).Nodup) : (Fields.names q.toJson).Nodup := by
  have hextra : (Fields.names q.extra).Nodup := by
    rw [← hq.extra]
    exact hnodup.sublist (List.filter_sublist.map _)
  have hknown : (Fields.names (written q.knownFields)).Nodup :=
    nodup_fieldNames.sublist (names_written_sublist q.knownFields)
  have hdisjoint : ∀ name ∈ Fields.names (written q.knownFields),
      ∀ other ∈ Fields.names q.extra, name ≠ other := by
    rintro name hname _ hother rfl
    exact hq.extra_unknown name ((names_written_sublist q.knownFields).subset hname) hother
  rw [toJson_eq, Fields.names, List.map_append]
  exact List.nodup_append.mpr ⟨hknown, hextra, hdisjoint⟩

/-- A query that is read is well-formed. -/
theorem wellFormed_of_parse {text : String} (h : parse text = .ok q) : q.WellFormed := by
  obtain ⟨fields, htext, -, hq, hvalid⟩ := parse_eq_ok_iff.mp h
  -- the object of the query takes one level, the columns of a cursor three below it
  have hobject : Json.Fits (123 + 3 + 1) (.object fields) := Json.fits_of_ofText? htext
  obtain ⟨hnodup, hfields⟩ := hobject.fields
  refine ⟨hvalid, hq.extra_unknown, hq.cursor_ne_null, ?_⟩
  show Json.Fits (123 + 3 + 1) (.object q.toJson)
  refine .object (hq.nodup_toJson hnodup) fun field hfield => ?_
  rw [toJson_eq] at hfield
  rcases List.mem_append.mp hfield with hknown | hextra
  · exact hq.fits hfields (mem_of_mem_written hknown)
  · rw [← hq.extra] at hextra
    exact hfields field (List.mem_filter.mp hextra).1

/-- **Reading a query inverts writing it.**  A well-formed query is read from its own text, every query
that is read is well-formed, and so the text of a query that was read is read as the same query.  The
doubles of the query must be read as they are written. -/
theorem parse_inverts_text :
    (∀ q : Query, q.WellFormed → (Json.object q.toJson).DoublesRead → parse q.text = .ok q) ∧
    (∀ x q, parse x = .ok q → q.WellFormed) ∧
    ∀ x q, parse x = .ok q → (Json.object q.toJson).DoublesRead → parse q.text = parse x := by
  refine ⟨fun q hq hreads => hq.parse_text hreads, fun x q hx => wellFormed_of_parse hx, ?_⟩
  intro x q hx hreads
  rw [hx]
  exact (wellFormed_of_parse hx).parse_text hreads

/-- A find with an empty filter, open options, a double among its parameters, a column without a type
and a field that is not known. -/
def pagedFind : Query where
  operation := .find
  collection := some "items"
  filter := some []
  options := [("limit", .string "$1"), ("sort", .object [("price", .ofInt64 (-1))])]
  params := [.number (.double ⟨false, 0x4004000000000000⟩ rfl), .null]
  cursorInfo := some ⟨3, "gj-1:", [⟨"price", .descending, some .float⟩, ⟨"id", .ascending, none⟩]⟩
  cursor := some (.string "$2")
  extra := [("future", .bool true)]

theorem wellFormed_pagedFind : pagedFind.WellFormed := by
  have hempty : Json.Fits 126 (.object []) := .object List.nodup_nil (List.forall_mem_nil _)
  have hoptions : Json.Fits 126 (.object pagedFind.options) := by
    refine .object (by decide) ?_
    simp only [pagedFind, List.forall_mem_cons]
    refine ⟨.string _ _, .object (by decide) ?_, List.forall_mem_nil _⟩
    exact List.forall_mem_singleton.mpr (.number _ _)
  have hparams : Json.Fits 126 (.array pagedFind.params) := by
    refine .array ?_
    simp only [pagedFind, List.forall_mem_cons]
    exact ⟨.number _ _, .null _, List.forall_mem_nil _⟩
  have hfits : Json.Fits Json.maxDepth (.object pagedFind.toJson) := by
    refine .object (by decide) ?_
    show ∀ field ∈ [("operation", Json.string "find"), ("collection", .string "items"),
      ("filter", .object []), ("options", .object pagedFind.options),
      ("params", .array pagedFind.params), ("cursor_info", CursorInfo.toJson _),
      ("cursor", .string "$2"), ("future", .bool true)], Json.Fits 126 field.2
    simp only [List.forall_mem_cons]
    exact ⟨.string _ _, .string _ _, hempty, hoptions, hparams, CursorInfo.fits_toJson _ 123,
      .string _ _, .bool _ _, List.forall_mem_nil _⟩
  have hcursor : pagedFind.cursor ≠ some .null := by
    simp [pagedFind]
  exact ⟨rfl, by decide, hcursor, hfits⟩

theorem doublesRead_pagedFind : (Json.object pagedFind.toJson).DoublesRead := by
  intro x hx hmem
  have hnumber : Number.double x hx = .double ⟨false, 0x4004000000000000⟩ rfl := by
    simpa [pagedFind, toJson, field?, CursorInfo.toJson, OrderBy.toJson, Json.leaves,
      Json.fieldLeaves, Json.itemLeaves, Json.ofInt64, Json.ofUInt64, Number.ofInt64,
      Number.ofUInt64] using hmem
  cases hnumber
  have hread : Json.readNumber? (Json.doubleText ⟨false, 0x4004000000000000⟩) =
      some (.double ⟨false, 0x4004000000000000⟩ rfl, []) := by
    decide +kernel
  exact hread

/-- An introspection. -/
def introspection : Query where
  operation := .introspectColumns

/-- The fields of the introspection in another order, with options that are empty. -/
def looseFields : Json.Object :=
  [("options", .object []), ("operation", .string "introspect_columns")]

theorem parse_looseFields : parse (Json.object looseFields).text = .ok introspection := by
  have hfits : Json.Fits Json.maxDepth (.object looseFields) := by
    refine .object (by decide) ?_
    simp only [looseFields, List.forall_mem_cons]
    exact ⟨.object List.nodup_nil (List.forall_mem_nil _), .string _ _, List.forall_mem_nil _⟩
  have hreads : (Json.object looseFields).DoublesRead := by
    intro x hx hmem
    cases List.mem_singleton.mp hmem
  have hread : introspection.IsReadFrom looseFields := ⟨rfl, rfl, rfl, rfl, rfl, rfl, rfl, rfl⟩
  exact parse_eq_ok_iff.mpr ⟨looseFields, Json.ofText?_text hfits hreads, rfl, hread, rfl⟩

theorem parse_inverts_text_pagedFind :
    (pagedFind.WellFormed ∧ (Json.object pagedFind.toJson).DoublesRead ∧
      parse pagedFind.text = .ok pagedFind) ∧
    (parse (Json.object looseFields).text = .ok introspection ∧ introspection.WellFormed ∧
      (Json.object introspection.toJson).DoublesRead ∧
      parse introspection.text = parse (Json.object looseFields).text) := by
  have hnone : (Json.object introspection.toJson).DoublesRead := by
    intro x hx hmem
    cases List.mem_singleton.mp hmem
  have hpaged := parse_inverts_text.1 pagedFind wellFormed_pagedFind doublesRead_pagedFind
  have hloose := parse_inverts_text.2.1 _ introspection parse_looseFields
  exact ⟨⟨wellFormed_pagedFind, doublesRead_pagedFind, hpaged⟩, parse_looseFields, hloose, hnone,
    parse_inverts_text.2.2 _ introspection parse_looseFields hnone⟩

end Query

end Keyset
