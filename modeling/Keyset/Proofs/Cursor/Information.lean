import Keyset.Cursor.Basic
import Keyset.Proofs.Json.Record

/-!
# Reading where a query resumes

The columns of a query and what else it needs to be resumed are records, given as objects or as arrays.
`OrderBy.IsGivenAs` and `CursorInfo.IsGivenAs` say which values give which records, and reading finds
just those (`OrderBy.ofJson?_eq_some_iff`, `CursorInfo.ofJson?_eq_some_iff`).
-/

namespace Keyset

/-! ### Records and choices -/

namespace Json

/-- The fields of a record: those of an object, or the items of an array under the names in their order,
of which the last may be left out. -/
inductive IsRecord (names : List String) : Json → Object → Prop where
  | object (fields : Object) : IsRecord names (.object fields) fields
  | array {items : List Json} (h : items.length ≤ names.length) :
    IsRecord names (.array items) (names.zip items)

/-- A value names a choice: it is the name, or an object that maps the name to `null`. -/
def Chooses (v : Json) (name : String) : Prop :=
  v = .string name ∨ v = .object [(name, .null)]

variable {v : Json}

theorem record?_eq_some_iff {names : List String} {fields : Object} :
    v.record? names = some fields ↔ IsRecord names v fields := by
  constructor
  · intro h
    unfold record? at h
    split at h
    · cases h
      exact .object fields
    · split_ifs at h with hlength
      cases h
      exact .array hlength
    · cases h
  · rintro (_ | hlength)
    · rfl
    · exact if_pos hlength

theorem choice?_eq_some_iff {name : String} : v.choice? = some name ↔ v.Chooses name := by
  unfold choice? Chooses
  split <;> simp_all

end Json

/-! ### Columns -/

/-- The names of a direction. -/
def Direction.IsNamed (direction : Direction) (name : String) : Prop :=
  match direction with
  | .ascending => name = "asc" ∨ name = "ASC"
  | .descending => name = "desc" ∨ name = "DESC"

theorem Direction.ofName?_eq_some_iff {name : String} {direction : Direction} :
    ofName? name = some direction ↔ direction.IsNamed name := by
  unfold ofName? IsNamed
  split <;> cases direction <;> simp_all

theorem ColumnKind.ofName?_eq_some_iff {name : String} {kind : ColumnKind} :
    ofName? name = some kind ↔ name = kind.name := by
  unfold ofName?
  split <;> cases kind <;> simp_all [ColumnKind.name]

namespace OrderBy

variable {col : OrderBy} {v : Json}

/-- A column is given by the fields of a record. -/
structure IsGivenBy (col : OrderBy) (fields : Json.Object) : Prop where
  column : fields.get? "column" = some (.string col.column)
  direction : (fields.get? "direction").elim (col.direction = .ascending) fun v =>
    ∃ name, v.Chooses name ∧ col.direction.IsNamed name
  kind : Option.Rel (fun v kind => v.Chooses kind.name) (Json.given? fields "type") col.kind

/-- A column is given as a value. -/
def IsGivenAs (col : OrderBy) (v : Json) : Prop :=
  ∃ fields, Json.IsRecord fieldNames v fields ∧ col.IsGivenBy fields

theorem ofJson?_eq_some_iff : ofJson? v = some col ↔ col.IsGivenAs v := by
  have hcolumn {fields : Json.Object} {column : String} :
      Json.required? fields "column" Json.string? = some column ↔
        fields.get? "column" = some (.string column) :=
    Json.required?_eq_some_iff fun _ _ => Json.string?_eq_some_iff
  have hdirection : ∀ (d : Json) direction, (d.choice?.bind Direction.ofName?) = some direction ↔
      ∃ name, d.Chooses name ∧ direction.IsNamed name := by
    simp only [Option.bind_eq_some_iff, Json.choice?_eq_some_iff, Direction.ofName?_eq_some_iff,
      implies_true]
  have hkind : ∀ (k : Json) kind, (k.choice?.bind ColumnKind.ofName?) = some kind ↔
      k.Chooses kind.name := by
    simp only [Option.bind_eq_some_iff, Json.choice?_eq_some_iff, ColumnKind.ofName?_eq_some_iff,
      exists_eq_right, implies_true]
  constructor
  · intro h
    obtain ⟨fields, hfields, h⟩ := Option.bind_eq_some_iff.mp h
    obtain ⟨column, hreadColumn, h⟩ := Option.bind_eq_some_iff.mp h
    obtain ⟨direction, hreadDirection, h⟩ := Option.bind_eq_some_iff.mp h
    obtain ⟨kind, hreadKind, h⟩ := Option.bind_eq_some_iff.mp h
    cases h
    exact ⟨fields, Json.record?_eq_some_iff.mp hfields, hcolumn.mp hreadColumn,
      (Json.withDefault?_eq_some_iff hdirection).mp hreadDirection,
      (Json.optional?_eq_some_iff hkind).mp hreadKind⟩
  · rintro ⟨fields, hfields, hcol⟩
    unfold ofJson?
    rw [Json.record?_eq_some_iff.mpr hfields, Option.bind_eq_bind, Option.bind_some,
      hcolumn.mpr hcol.column, Option.bind_eq_bind, Option.bind_some,
      (Json.withDefault?_eq_some_iff hdirection).mpr hcol.direction, Option.bind_eq_bind,
      Option.bind_some, (Json.optional?_eq_some_iff hkind).mpr hcol.kind]
    rfl

end OrderBy

namespace CursorInfo

variable {info : CursorInfo} {v : Json}

/-- What a query needs to be resumed is given by the fields of a record. -/
structure IsGivenBy (info : CursorInfo) (fields : Json.Object) : Prop where
  selectId : fields.get? "select_id" = some (.ofUInt64 info.selectId)
  lead : (fields.get? "prefix").elim (info.lead = "") (· = .string info.lead)
  orderBy : (fields.get? "order_by").elim (info.orderBy = []) fun v =>
    ∃ items, v = .array items ∧ List.Forall₂ (fun item col => col.IsGivenAs item) items info.orderBy

/-- What a query needs to be resumed is given as a value. -/
def IsGivenAs (info : CursorInfo) (v : Json) : Prop :=
  ∃ fields, Json.IsRecord fieldNames v fields ∧ info.IsGivenBy fields

theorem ofJson?_eq_some_iff : ofJson? v = some info ↔ info.IsGivenAs v := by
  have hselectId {fields : Json.Object} {selectId : UInt64} :
      Json.required? fields "select_id" Json.uint64? = some selectId ↔
        fields.get? "select_id" = some (.ofUInt64 selectId) :=
    Json.required?_eq_some_iff fun _ _ => Json.uint64?_eq_some_iff
  have hlead : ∀ (v : Json) lead, v.string? = some lead ↔ v = .string lead :=
    fun _ _ => Json.string?_eq_some_iff
  have horderBy : ∀ (v : Json) cols, Json.listOf? OrderBy.ofJson? v = some cols ↔
      ∃ items, v = .array items ∧ List.Forall₂ (fun item col => col.IsGivenAs item) items cols :=
    fun _ _ => Json.listOf?_eq_some_iff_forall₂ fun _ _ => OrderBy.ofJson?_eq_some_iff
  constructor
  · intro h
    obtain ⟨fields, hfields, h⟩ := Option.bind_eq_some_iff.mp h
    obtain ⟨selectId, hreadId, h⟩ := Option.bind_eq_some_iff.mp h
    obtain ⟨lead, hreadLead, h⟩ := Option.bind_eq_some_iff.mp h
    obtain ⟨orderBy, hreadColumns, h⟩ := Option.bind_eq_some_iff.mp h
    cases h
    exact ⟨fields, Json.record?_eq_some_iff.mp hfields, hselectId.mp hreadId,
      (Json.withDefault?_eq_some_iff hlead).mp hreadLead,
      (Json.withDefault?_eq_some_iff horderBy).mp hreadColumns⟩
  · rintro ⟨fields, hfields, hinfo⟩
    unfold ofJson?
    rw [Json.record?_eq_some_iff.mpr hfields, Option.bind_eq_bind, Option.bind_some,
      hselectId.mpr hinfo.selectId, Option.bind_eq_bind, Option.bind_some,
      (Json.withDefault?_eq_some_iff hlead).mpr hinfo.lead, Option.bind_eq_bind,
      Option.bind_some, (Json.withDefault?_eq_some_iff horderBy).mpr hinfo.orderBy]
    rfl

end CursorInfo

end Keyset
