import LabInventory.AssetParameters.Basic
import LabInventory.Assets.Basic
import LabInventory.Users.Theorems

open Sql Program

namespace LabInventory

-- How `serde_json` reads back a number that it has printed. Without its feature `float_roundtrip`, that
-- need not be the same double.
class JsonNumbers where
  reread : ℚ → ℚ

namespace Json

variable [JsonNumbers]

mutual

-- What arrives when an answer is sent back.
def resent : Json → Json
  | number q => number (JsonNumbers.reread q)
  | array values => array (resentAll values)
  | object fields => object (resentFields fields)
  | value => value

def resentAll : List Json → List Json
  | [] => []
  | value :: values => value.resent :: resentAll values

def resentFields : List (String × Json) → List (String × Json)
  | [] => []
  | (field, value) :: fields => (field, value.resent) :: resentFields fields

end

variable {value : Json}

@[simp]
theorem asStr_resent : value.resent.asStr = value.asStr := by
  cases value <;> rfl

@[simp]
theorem asBool_resent : value.resent.asBool = value.asBool := by
  cases value <;> rfl

theorem bind_asStr_resent {o : Option Json} : (o.map resent).bind asStr = o.bind asStr := by
  cases o <;> simp

theorem bind_asBool_resent {o : Option Json} : (o.map resent).bind asBool = o.bind asBool := by
  cases o <;> simp

@[simp]
theorem asF64_resent : value.resent.asF64 = value.asF64.map JsonNumbers.reread := by
  cases value <;> rfl

@[simp]
theorem get_resent {field : String} : value.resent.get field = (value.get field).map resent := by
  cases value
  case object fields =>
    simp only [resent, get]
    induction fields
    case nil => rfl
    case cons f fields ih =>
      rw [resentFields, List.lookup_cons, List.lookup_cons, ih]
      cases field == f.1 <;> rfl
  all_goals rfl

end Json

namespace AssetParameterValue

variable [JsonNumbers] {value : Json}

def reread : AssetParameterValue → AssetParameterValue
  | number n unitId => number (JsonNumbers.reread n) unitId
  | range start stop unitId => range (JsonNumbers.reread start) (JsonNumbers.reread stop) unitId
  | v => v

variable [TextFormats]

@[simp]
theorem parseUuidField_resent {field : String} :
    parseUuidField value.resent field = parseUuidField value field := by
  unfold parseUuidField
  cases h : value.get field <;> simp [h]

theorem parseNumber_resent : parseNumber value.resent =
    (fun (n, unitId) => (JsonNumbers.reread n, unitId)) <$> parseNumber value := by
  have hu : parseUnitId value.resent = parseUnitId value := parseUuidField_resent
  simp only [parseNumber, Json.asF64_resent, Json.get_resent, hu]
  cases value.asF64
  case some => rfl
  case none =>
    cases value.get "number"
    case none => rfl
    case some number =>
      simp only [Option.map_none, Option.map_some, Option.bind_some, Json.asF64_resent]
      cases number.asF64
      case none => rfl
      case some n => cases parseUnitId value <;> rfl

theorem parseRange_resent : parseRange value.resent =
    (fun (start, stop, unitId) => (JsonNumbers.reread start, JsonNumbers.reread stop, unitId)) <$>
      parseRange value := by
  have hu : parseUnitId value.resent = parseUnitId value := parseUuidField_resent
  have hf {field other : String} :
      (value.resent.get field <|> value.resent.get other).bind Json.asF64 =
        ((value.get field <|> value.get other).bind Json.asF64).map JsonNumbers.reread := by
    rw [Json.get_resent, Json.get_resent]
    cases value.get field
    case some => exact Json.asF64_resent
    case none =>
      cases value.get other
      case some => exact Json.asF64_resent
      case none => rfl
  simp only [parseRange, hf, hu]
  cases (value.get "range_start" <|> value.get "start").bind Json.asF64
  case none => rfl
  case some start =>
    cases (value.get "range_end" <|> value.get "end").bind Json.asF64
    case none => rfl
    case some stop => cases parseUnitId value <;> rfl

-- A value can be sent back if its numbers are read as they have been printed.
theorem parse_resent_iff {dataType : AssetParameterDataType} {v : AssetParameterValue}
    (h : parse dataType value = .ok v) : parse dataType value.resent = .ok v ↔ v.reread = v := by
  cases dataType
  case number =>
    simp only [parse, Except.bind_eq_ok, Except.pure_eq_ok] at h
    obtain ⟨⟨n, unitId⟩, hn, rfl⟩ := h
    simp only [parse, parseNumber_resent, hn, Except.bind_eq_ok, Except.map_eq_ok, Except.pure_eq_ok]
    constructor
    case mp =>
      rintro ⟨_, ⟨_, he, rfl⟩, hv⟩
      obtain rfl := Except.ok.inj he
      exact hv
    case mpr => exact fun hv => ⟨_, ⟨_, rfl, rfl⟩, hv⟩
  case range =>
    simp only [parse, Except.bind_eq_ok] at h
    obtain ⟨⟨start, stop, unitId⟩, hr, h⟩ := h
    obtain ⟨hle, h⟩ := Except.throw_bind_eq_ok.mp h
    obtain rfl := Except.pure_eq_ok.mp h
    simp only [parse, parseRange_resent, hr, Except.bind_eq_ok, Except.map_eq_ok]
    constructor
    case mp =>
      rintro ⟨_, ⟨_, he, rfl⟩, hv⟩
      obtain rfl := Except.ok.inj he
      exact Except.pure_eq_ok.mp (Except.throw_bind_eq_ok.mp hv).right
    case mpr =>
      intro hv
      obtain ⟨hs, ht, _⟩ := AssetParameterValue.range.inj hv
      refine ⟨_, ⟨_, rfl, rfl⟩, Except.throw_bind_eq_ok.mpr ⟨?_, Except.pure_eq_ok.mpr hv⟩⟩
      rwa [hs, ht]
  all_goals
    have hv : v.reread = v := by
      have hd := dataType_of_parse h
      cases v <;> first | rfl | cases hd
    refine iff_of_true ?_ hv
    rw [← h]
    simp only [parse, parseText, parseBoolean, parseDate, parseOption, Json.asStr_resent,
      Json.asBool_resent, Json.get_resent, Json.bind_asStr_resent, Json.bind_asBool_resent,
      parseUuidField_resent]

end AssetParameterValue

-- A value whose unit is replaced, if its type has any.
def AssetParameterValue.setUnit : AssetParameterValue → Option Uuid → AssetParameterValue
  | number n _, unitId => number n unitId
  | range start stop _, unitId => range start stop unitId
  | v, _ => v

namespace ParameterValueColumns

variable {old older new columns : ParameterValueColumns} {dataType : AssetParameterDataType}

-- What the columns of a data type hold.
def value (columns : ParameterValueColumns) : AssetParameterDataType → Option AssetParameterValue
  | .text => columns.valueText.map .text
  | .number => columns.valueNumber.map (.number · columns.unitId)
  | .range => columns.valueRangeStart.bind fun start =>
    columns.valueRangeEnd.map (.range start · columns.unitId)
  | .boolean => columns.valueBoolean.map .boolean
  | .date => columns.valueDate.map .date
  | .enum => columns.valueOptionId.map .enum

theorem migrate_migrate : older.migrate dataType (old.migrate dataType new) =
    older.migrate dataType new := by
  cases dataType <;> rfl

theorem value_migrate : (old.migrate dataType new).value dataType = new.value dataType := by
  cases dataType <;> rfl

theorem unitId_migrate (h : dataType.IsNumeric) : (old.migrate dataType new).unitId = new.unitId :=
  if_pos h

end ParameterValueColumns

namespace AssetParameterValueRow

-- The columns of the data type on their own. Migrations keep those of earlier types, too.
def ownColumns (r : AssetParameterValueRow) : ParameterValueColumns :=
  ParameterValueColumns.empty.migrate r.dataType r.columns

variable {r : AssetParameterValueRow}

theorem hasValue_ownColumns : { r with columns := r.ownColumns }.HasValue = r.HasValue := by
  obtain ⟨_, _, _, _, dataType, _⟩ := r
  cases dataType <;> rfl

theorem hasBaseRange_ownColumns (h : r.HasBaseRange) :
    { r with columns := r.ownColumns }.HasBaseRange := by
  obtain ⟨_, _, _, _, dataType, _⟩ := r
  cases dataType
  case range => exact h
  all_goals rfl

end AssetParameterValueRow

namespace ParameterValues

variable {definition : ParameterValueDefinition} {d : Database} {v : AssetParameterValue}
  {columns : ParameterValueColumns}

-- Values are resolved into the columns of their type.
theorem Resolves.migrate_empty (h : Resolves definition d v columns) :
    ParameterValueColumns.empty.migrate v.dataType columns = columns := by
  cases v
  case text | boolean | date =>
    obtain rfl := h
    rfl
  case number =>
    obtain ⟨_, _, rfl⟩ := h
    rfl
  case range =>
    obtain ⟨_, _, _, _, rfl⟩ := h
    rfl
  case enum =>
    obtain ⟨_, rfl⟩ := h
    rfl

theorem Resolves.value (h : Resolves definition d v columns) :
    columns.value v.dataType = some (v.setUnit columns.unitId) := by
  cases v
  case text | boolean | date =>
    obtain rfl := h
    rfl
  case number =>
    obtain ⟨_, _, rfl⟩ := h
    rfl
  case range =>
    obtain ⟨_, _, _, _, rfl⟩ := h
    rfl
  case enum =>
    obtain ⟨_, rfl⟩ := h
    rfl

theorem Resolves.option (h : Resolves definition d v columns) : columns.valueOptionId.all fun o =>
    (d.assetParameterOptions.find? o).any (·.parameterTypeId = definition.parameterTypeId) := by
  cases v
  case text | boolean | date =>
    obtain rfl := h
    rfl
  case number =>
    obtain ⟨_, _, rfl⟩ := h
    rfl
  case range =>
    obtain ⟨_, _, _, _, rfl⟩ := h
    rfl
  case enum =>
    obtain ⟨⟨o, ho, hp⟩, rfl⟩ := h
    simp [ho, hp]

theorem Normalizes.idempotent {unitId : Option Uuid} {value : ℚ} {result : Option Uuid × Option ℚ}
    (h : Normalizes definition d unitId value result) (hu : result.1.isSome) :
    Normalizes definition d result.1 value result := by
  unfold Normalizes at h ⊢
  cases hs : unitId <|> definition.defaultUnitId
  case none =>
    rw [hs] at h
    simp [h] at hu
  case some unitId =>
    rw [hs] at h
    obtain ⟨unit, hf, hd, rfl⟩ := h
    exact ⟨unit, hf, hd, rfl⟩

-- Once a value has a unit, it is resolved in the same way again.
theorem Resolves.idempotent (h : Resolves definition d v columns)
    (hu : v.dataType.IsNumeric → columns.unitId.isSome) :
    Resolves definition d (v.setUnit columns.unitId) columns := by
  cases v
  case text | boolean | date | enum => exact h
  case number =>
    obtain ⟨result, h, rfl⟩ := h
    exact ⟨result, h.idempotent (hu rfl), rfl⟩
  case range =>
    obtain ⟨result₁, result₂, h₁, h₂, rfl⟩ := h
    exact ⟨result₁, result₂, h₁.idempotent (hu rfl), h₂, rfl⟩

end ParameterValues

namespace Assets

variable [TextFormats]

-- The option is joined to the row.
def parameterValueJson (r : AssetParameterValueRow) (option : Option AssetParameterOptionRow) :
    Json :=
  match r.dataType with
  | .text => .object [("text", .ofOption .string r.columns.valueText)]
  | .number => .object [
    ("number", .ofOption .number r.columns.valueNumber),
    ("number_in_base", .ofOption .number r.columns.valueNumberInBase),
    ("unit_id", .ofOption (.string <| UuidFormat.showUuid ·) r.columns.unitId)
  ]
  | .range => .object [
    ("range_start", .ofOption .number r.columns.valueRangeStart),
    ("range_end", .ofOption .number r.columns.valueRangeEnd),
    ("range_start_in_base", .ofOption .number r.columns.valueRangeStartInBase),
    ("range_end_in_base", .ofOption .number r.columns.valueRangeEndInBase),
    ("unit_id", .ofOption (.string <| UuidFormat.showUuid ·) r.columns.unitId)
  ]
  | .boolean => .object [("boolean", .ofOption .bool r.columns.valueBoolean)]
  | .date => .object [("date", .ofOption (.string <| TextFormats.showDate ·) r.columns.valueDate)]
  | .enum => .object [
    ("option_id", .ofOption (.string <| UuidFormat.showUuid ·) r.columns.valueOptionId),
    ("option_code", .ofOption (.string ·.code) option),
    ("option_label", .ofOption (.string ·.label) option)
  ]

def readParameterValue (r : AssetParameterValueRow) (d : Database) : Json :=
  parameterValueJson r <| r.columns.valueOptionId.bind d.assetParameterOptions.find?

variable {r : AssetParameterValueRow} {option : Option AssetParameterOptionRow}

theorem parse_parameterValueJson (hr : r.HasValue)
    (hu : r.dataType.IsNumeric → r.columns.unitId.isSome) : ∃ v,
      AssetParameterValue.parse r.dataType (parameterValueJson r option) = .ok v ∧
      r.columns.value r.dataType = some v := by
  cases hd : r.dataType <;>
    simp only [AssetParameterValueRow.HasValue, hd] at hr hu <;>
    simp only [parameterValueJson, hd, AssetParameterValue.parse, ParameterValueColumns.value]
  case text =>
    obtain ⟨text, ht⟩ := Option.isSome_iff_exists.mp hr
    simp [AssetParameterValue.parseText, ht, Json.asStr, Json.get]
  case number =>
    obtain ⟨n, hn⟩ := Option.isSome_iff_exists.mp hr
    obtain ⟨unitId, hu⟩ := Option.isSome_iff_exists.mp (hu rfl)
    simp [AssetParameterValue.parseNumber, AssetParameterValue.parseUnitId,
      AssetParameterValue.parseUuidField, hn, hu, Json.asF64, Json.asStr, Json.get,
      List.lookup_cons, UuidFormat.parseUuid_showUuid]
  case range =>
    obtain ⟨start, hs, hr⟩ := (Option.any_eq_true _ _).mp hr
    obtain ⟨stop, ht, hr⟩ := (Option.any_eq_true _ _).mp hr
    obtain ⟨unitId, hu⟩ := Option.isSome_iff_exists.mp (hu rfl)
    simp [AssetParameterValue.parseRange, AssetParameterValue.parseUnitId,
      AssetParameterValue.parseUuidField, hs, ht, hu, Json.asF64, Json.asStr, Json.get,
      List.lookup_cons, UuidFormat.parseUuid_showUuid, not_lt.mpr (of_decide_eq_true hr)]
  case boolean =>
    obtain ⟨b, hb⟩ := Option.isSome_iff_exists.mp hr
    simp [AssetParameterValue.parseBoolean, hb, Json.asBool, Json.get]
  case date =>
    obtain ⟨date, hd⟩ := Option.isSome_iff_exists.mp hr
    simp [AssetParameterValue.parseDate, hd, Json.asStr, Json.get,
      TextFormats.parseDate_showDate]
  case enum =>
    obtain ⟨optionId, ho⟩ := Option.isSome_iff_exists.mp hr
    simp [AssetParameterValue.parseOption, AssetParameterValue.parseUuidField, ho, Json.asStr,
      Json.get, UuidFormat.parseUuid_showUuid]

-- A missing unit is emitted as `null`, which is not read as a missing unit.
theorem parse_resent_unitless [JsonNumbers] (hr : r.HasValue) (hd : r.dataType.IsNumeric)
    (hu : r.columns.unitId = none) :
    AssetParameterValue.parse r.dataType (parameterValueJson r option).resent =
      .error "unit_id must be a uuid string" := by
  have hm : (toString "unit_id" ++ toString " must be a uuid string" : String) =
    "unit_id must be a uuid string" := by decide
  cases ht : r.dataType <;> rw [ht] at hd <;> try exact absurd hd Bool.false_ne_true
  all_goals
    simp only [AssetParameterValueRow.HasValue, ht] at hr
    simp only [parameterValueJson, ht, AssetParameterValue.parse,
      AssetParameterValue.parseNumber_resent, AssetParameterValue.parseRange_resent]
  case number =>
    obtain ⟨n, hn⟩ := Option.isSome_iff_exists.mp hr
    simp [AssetParameterValue.parseNumber, AssetParameterValue.parseUnitId,
      AssetParameterValue.parseUuidField, hn, hu, Json.asF64, Json.asStr, Json.get,
      List.lookup_cons, hm]
  case range =>
    obtain ⟨start, hs, hr⟩ := (Option.any_eq_true _ _).mp hr
    obtain ⟨stop, ht, hr⟩ := (Option.any_eq_true _ _).mp hr
    simp [AssetParameterValue.parseRange, AssetParameterValue.parseUnitId,
      AssetParameterValue.parseUuidField, hs, ht, hu, Json.asF64, Json.asStr, Json.get,
      List.lookup_cons, hm]
    rfl

-- A row as it is left behind by the write paths.
structure StoredAs (definition : ParameterValueDefinition) (v : AssetParameterValue) (d : Database)
    (r : AssetParameterValueRow) : Prop where
  row : r ∈ d.assetParameterValues
  parameterTypeId : r.parameterTypeId = definition.parameterTypeId
  dataType : r.dataType = definition.dataType
  hasValue : r.HasValue
  hasBaseRange : r.HasBaseRange
  valueType : v.dataType = r.dataType
  resolves : ParameterValues.Resolves definition d v r.ownColumns

section Writing

variable {definition : ParameterValueDefinition} {v : AssetParameterValue} {d d' : Database}
  {columns : ParameterValueColumns} {value : ResolvedParameterValue}

omit [TextFormats] in
theorem checks_of_apply {w : RowWrite AssetParameterValueRow Uuid}
    (h : d.apply (.assetParameterValues w) = .ok d') (hw : w = .insert r ∨ w = .update r) :
    r.HasValue ∧ r.HasBaseRange := by
  obtain rfl | rfl := hw <;>
  · simp only [Database.apply, Database.writeAssetParameterValues, Except.bind_eq_ok,
      Except.check_eq_ok] at h
    obtain ⟨_, hv, _, hb, _⟩ := h
    exact ⟨hv, hb⟩

omit [TextFormats] in
theorem storedAs_of_apply {w : RowWrite AssetParameterValueRow Uuid}
    (ha : d.apply (.assetParameterValues w) = .ok d') (hw : w = .insert r ∨ w = .update r)
    (hr : r ∈ d'.assetParameterValues) (hp : r.parameterTypeId = definition.parameterTypeId)
    (hd : r.dataType = definition.dataType) (hv : v.dataType = definition.dataType)
    (hc : r.ownColumns = columns) (h : ParameterValues.Resolves definition d v columns) :
    StoredAs definition v d' r := by
  have happ := (Database.applied_of_apply ha).right
  have ⟨hval, hbase⟩ := checks_of_apply ha hw
  refine ⟨hr, hp, hd, hval, hbase, hv.trans hd.symm, hc ▸ h.frame ?_ ?_⟩ <;> rw [happ]

omit [TextFormats] in
theorem wlp_upsertAssetParameterValue {laboratoryId assetId newId : Uuid}
    (hp : value.parameterTypeId = definition.parameterTypeId)
    (hd : value.dataType = definition.dataType) (hv : v.dataType = definition.dataType)
    (h : ParameterValues.Resolves definition d v value.columns) :
    (upsertAssetParameterValue laboratoryId assetId newId value).wlp (fun _ d' =>
      ∀ r ∈ d'.assetParameterValues, r.assetId = assetId →
        r.parameterTypeId = definition.parameterTypeId → StoredAs definition v d' r) d := by
  have hown {r : AssetParameterValueRow} (hc : r.columns = value.columns)
      (ht : r.dataType = definition.dataType) : r.ownColumns = value.columns := by
    rw [AssetParameterValueRow.ownColumns, hc, ht, ← hv, h.migrate_empty]
  simp only [upsertAssetParameterValue, wp_bind, wp_read]
  cases hf : d.assetParameterValues.rows.find? fun r =>
    r.assetId = assetId ∧ r.parameterTypeId = value.parameterTypeId
  case none =>
    refine wp_exec.mpr ⟨fun d' ha => ⟨trivial, fun r hr hasset hparam => ?_⟩, fun _ _ => trivial⟩
    obtain hr' | rfl := (Table.mem_insert (Database.applied_of_apply ha).left).mp hr
    · have hn := List.find?_eq_none.mp hf r hr'
      simp [hasset, hparam, hp] at hn
    · exact storedAs_of_apply ha (.inl rfl) hr hp hd hv (hown rfl hd) h
  case some r₀ =>
    have hr₀ : r₀ ∈ d.assetParameterValues := List.mem_of_find?_eq_some hf
    have hk : r₀.assetId = assetId ∧ r₀.parameterTypeId = value.parameterTypeId := by
      simpa using List.find?_some hf
    have hfind : d.assetParameterValues.find? r₀.valueId = some r₀ := Table.find?_key hr₀
    simp only [wp_bind, wp_selectForUpdate, hfind]
    refine wp_exec.mpr ⟨fun d' ha => ⟨trivial, fun r hr hasset hparam => ?_⟩, fun _ _ => trivial⟩
    obtain ⟨hr', hn⟩ | ⟨rfl, _⟩ := (Table.mem_update (Database.applied_of_apply ha).left).mp hr
    · have he : r = r₀ := by
        refine Table.eq_of_clash (.head _) hr' hr₀ ⟨Option.some_ne_none _, ?_⟩
        simp [hasset, hparam, hk, hp]
      exact absurd (congrArg (·.valueId) he) hn
    · exact storedAs_of_apply ha (.inr rfl) hr (hk.right.trans hp) hd hv (hown rfl hd) h

open AssetParameters in
omit [TextFormats] in
theorem wlp_migrateInDatabase {valueId : Uuid} (hv : v.dataType = definition.dataType)
    (h : ParameterValues.Resolves definition d v value.columns) :
    (migrateAssetParameterValueInDatabase valueId definition.dataType value).wlp (fun _ d' =>
      ∀ r ∈ d'.assetParameterValues, r.valueId = valueId →
        r.parameterTypeId = definition.parameterTypeId → StoredAs definition v d' r) d := by
  simp only [migrateAssetParameterValueInDatabase, wp_bind, wp_read]
  cases hf : d.assetParameterValues.find? valueId
  case none => exact fun r hr hk _ => absurd hk (Table.find?_eq_none.mp hf r hr)
  case some r₀ =>
    obtain ⟨_, hk₀⟩ := Table.find?_eq_some.mp hf
    refine wp_exec.mpr ⟨fun d' ha => ⟨trivial, fun r hr hk hparam => ?_⟩, fun _ _ => trivial⟩
    obtain ⟨_, hn⟩ | ⟨rfl, _⟩ := (Table.mem_update (Database.applied_of_apply ha).left).mp hr
    · exact absurd (hk.trans hk₀.symm) hn
    · refine storedAs_of_apply ha (.inr rfl) hr hparam rfl hv ?_ h
      rw [AssetParameterValueRow.ownColumns, ParameterValueColumns.migrate_migrate, ← hv,
        h.migrate_empty]

theorem wlp_applyAssetParameterUpdate {laboratoryId assetId newId : Uuid} {json : Json}
    {parameterTypeId : Uuid} :
    (applyAssetParameterUpdate laboratoryId assetId newId (some definition)
      ⟨parameterTypeId, some json⟩).wlp (fun _ d' => ∀ r ∈ d'.assetParameterValues,
        r.assetId = assetId → r.parameterTypeId = definition.parameterTypeId →
          ∃ v, AssetParameterValue.parse definition.dataType json = .ok v ∧
            StoredAs definition v d' r) d := by
  refine wp_bind.mpr <| ParameterValues.wlp_resolveParameterValue fun v columns hv h => ?_
  have ht := AssetParameterValue.dataType_of_parse hv
  refine wp_mono (wlp_upsertAssetParameterValue rfl rfl ht h) fun _ d' h' r hr ha hp => ?_
  exact ⟨v, hv, h' r hr ha hp⟩

open AssetParameters in
-- Only enum values are not written as they are given.
theorem wlp_migrateStored [UnicodeSegmentation] {newId : Uuid} {stored : AssetParameterValueRow}
    {migrations : List UpdateAssetParameterValueMigration} :
    (migrateParameterValue definition migrations newId stored).wlp (fun _ d' =>
      ∀ r ∈ d'.assetParameterValues, r.valueId = stored.valueId →
        r.parameterTypeId = definition.parameterTypeId →
          ∃ v, StoredAs definition v d' r ∧ (definition.dataType ≠ .enum → ∃ m target,
            migrations.find? (·.valueId = stored.valueId) = some m ∧ m.value = some target ∧
            AssetParameterValue.parse definition.dataType target = .ok v)) d := by
  unfold migrateParameterValue
  split
  case h_2 => trivial
  case h_1 m hm =>
    split
    case h_2 =>
      refine wp_exec.mpr ⟨fun d' ha => ⟨trivial, fun r hr hk _ => ?_⟩, fun _ _ => trivial⟩
      obtain rfl := Except.pure_eq_ok.mp ha
      exact absurd hk (Table.mem_delete.mp hr).right
    case h_1 target ht =>
      have htarget : (resolveMigrationTarget definition.parameterTypeId definition.dataType target
          newId).wlp (fun target' _ => definition.dataType ≠ .enum → target' = target) d := by
        by_cases hn : definition.dataType = .enum
        case pos => exact wlp_of_forall fun _ _ hd => absurd hn hd
        case neg =>
          rw [resolveMigrationTarget, if_pos (.inl hn)]
          exact fun _ => rfl
      refine wp_bind.mpr <| wp_mono htarget fun target' d₁ ht' => wp_bind.mpr ?_
      refine ParameterValues.wlp_resolveParameterValue fun v columns hv h => ?_
      have hd := AssetParameterValue.dataType_of_parse hv
      refine wp_mono (wlp_migrateInDatabase hd h) fun _ d' h' r hr hk hp => ⟨v, h' r hr hk hp, ?_⟩
      exact fun hn => ⟨m, target, hm, ht, ht' hn ▸ hv⟩

end Writing

section RoundTrip

variable {definition : ParameterValueDefinition} {v : AssetParameterValue} {d d' : Database}

-- The values that are written with an asset, or by the migration of their parameter.
inductive Stored [UnicodeSegmentation] (definition : ParameterValueDefinition) :
    Database → AssetParameterValueRow → Prop
  | written {d d' : Database} {r : AssetParameterValueRow} {newId : Uuid} {json : Json}
    (h : (applyAssetParameterUpdate r.laboratoryId r.assetId newId (some definition)
      ⟨r.parameterTypeId, some json⟩).run d = .ok ((), d')) (hr : r ∈ d'.assetParameterValues)
    (hp : r.parameterTypeId = definition.parameterTypeId) : Stored definition d' r
  | migrated {d d' : Database} {r stored : AssetParameterValueRow} {newId : Uuid}
    {migrations : List UpdateAssetParameterValueMigration}
    (h : (AssetParameters.migrateParameterValue definition migrations newId stored).run d =
      .ok ((), d')) (hr : r ∈ d'.assetParameterValues) (hk : r.valueId = stored.valueId)
    (hp : r.parameterTypeId = definition.parameterTypeId) : Stored definition d' r

theorem Stored.storedAs [UnicodeSegmentation] (h : Stored definition d r) :
    ∃ v, StoredAs definition v d r := by
  obtain ⟨h, hr, hp⟩ | ⟨h, hr, hk, hp⟩ := h
  · exact (wp_run wlp_applyAssetParameterUpdate h r hr rfl hp).imp fun _ => And.right
  · exact (wp_run wlp_migrateStored h r hr hk hp).imp fun _ => And.left

variable [JsonNumbers]

-- What has been read is parsed as what is stored, and leaves the row alone when it is sent back.
structure RoundTrips (definition : ParameterValueDefinition) (d : Database)
    (r : AssetParameterValueRow) : Prop where
  parses : ∃ v, AssetParameterValue.parse definition.dataType (readParameterValue r d).resent = .ok v ∧
    r.columns.value r.dataType = some v
  keeps : ∀ newId, ∃ d', (applyAssetParameterUpdate r.laboratoryId r.assetId newId (some definition)
    ⟨r.parameterTypeId, some (readParameterValue r d).resent⟩).run d = .ok ((), d') ∧
      d'.assetParameterValues.find? r.valueId = some r

omit [TextFormats] [JsonNumbers] in
-- Nothing keeps a row from being replaced by its own columns.
theorem exists_updateOwn (h : StoredAs definition v d r) : ∃ d',
    d.apply (.assetParameterValues (.update { r with columns := r.ownColumns })) = .ok d' ∧
    d'.assetParameterValues.find? r.valueId = some { r with columns := r.ownColumns } := by
  let r' : AssetParameterValueRow := { r with columns := r.ownColumns }
  have hc : d.assetParameterValues.clash? r' = none := by
    refine Table.clash?_eq_none.mpr fun r₁ hr₁ hk => conflict?_eq_none.mpr fun ix hi hx => hk ?_
    obtain rfl := List.mem_singleton.mp hi
    exact congrArg (·.valueId) <| (Table.eq_of_clash hi h.row hr₁ hx).symm
  have hv : r'.HasValue := AssetParameterValueRow.hasValue_ownColumns.trans h.hasValue
  have hb : r'.HasBaseRange := AssetParameterValueRow.hasBaseRange_ownColumns h.hasBaseRange
  obtain ⟨t, ht⟩ := Table.exists_update hc
  refine ⟨{ d with assetParameterValues := t }, ?_, ?_⟩
  case refine_1 =>
    simp only [Database.apply, Database.writeAssetParameterValues, Except.bind_eq_ok,
      Except.check_eq_ok, Except.pure_eq_ok]
    exact ⟨(), hv, (), hb, t, ht, (), h.parameterTypeId.symm ▸ h.resolves.option, rfl⟩
  case refine_2 =>
    have hf : d.assetParameterValues.find? r.valueId = some r := Table.find?_key h.row
    exact Table.find?_update_self ht hf

omit [TextFormats] [JsonNumbers] in
-- There is one value for an asset and a parameter.
theorem find?_value (hr : r ∈ d.assetParameterValues) (hp : r.parameterTypeId = definition.parameterTypeId) :
    (d.assetParameterValues.rows.find? fun r' =>
      r'.assetId = r.assetId ∧ r'.parameterTypeId = definition.parameterTypeId) = some r := by
  cases hf : d.assetParameterValues.rows.find? fun r' =>
    r'.assetId = r.assetId ∧ r'.parameterTypeId = definition.parameterTypeId
  case none =>
    have hn := List.find?_eq_none.mp hf r hr
    simp [hp] at hn
  case some r' =>
    have hk : r'.assetId = r.assetId ∧ r'.parameterTypeId = definition.parameterTypeId := by
      simpa using List.find?_some hf
    refine congrArg some <| Table.eq_of_clash (.head _) (List.mem_of_find?_eq_some hf) hr
      ⟨Option.some_ne_none _, ?_⟩
    simp [hk, hp]

omit [JsonNumbers] in
-- What is read is the value that has been written, with the unit that it got.
theorem StoredAs.parse (h : StoredAs definition v d r)
    (hu : r.dataType.IsNumeric → r.columns.unitId.isSome) :
    AssetParameterValue.parse definition.dataType (readParameterValue r d) =
      .ok (v.setUnit r.ownColumns.unitId) ∧
    r.columns.value r.dataType = some (v.setUnit r.ownColumns.unitId) := by
  obtain ⟨v', hp, hv'⟩ := parse_parameterValueJson h.hasValue hu
  have hs : r.columns.value r.dataType = some (v.setUnit r.ownColumns.unitId) := by
    rw [← ParameterValueColumns.value_migrate, ← h.resolves.value, h.valueType]
    rfl
  exact ⟨h.dataType ▸ Option.some.inj (hv'.symm.trans hs) ▸ hp, hs⟩

theorem StoredAs.parse_resent (h : StoredAs definition v d r)
    (hu : r.dataType.IsNumeric → r.columns.unitId.isSome)
    (hx : ∀ v ∈ r.columns.value r.dataType, v.reread = v) :
    AssetParameterValue.parse definition.dataType (readParameterValue r d).resent =
      .ok (v.setUnit r.ownColumns.unitId) :=
  have ⟨hp, hv⟩ := h.parse hu
  (AssetParameterValue.parse_resent_iff hp).mpr (hx _ hv)

-- It is resolved as it has been.
theorem StoredAs.run (h : StoredAs definition v d r) (newId : Uuid)
    (hu : r.dataType.IsNumeric → r.columns.unitId.isSome)
    (hx : ∀ v ∈ r.columns.value r.dataType, v.reread = v) :
    ∃ d', (applyAssetParameterUpdate r.laboratoryId r.assetId newId (some definition)
      ⟨r.parameterTypeId, some (readParameterValue r d).resent⟩).run d = .ok ((), d') ∧
      d'.assetParameterValues.find? r.valueId = some { r with columns := r.ownColumns } := by
  have hres : ParameterValues.Resolves definition d (v.setUnit r.ownColumns.unitId) r.ownColumns :=
    h.resolves.idempotent fun hn => by
      rw [h.valueType] at hn
      exact (ParameterValueColumns.unitId_migrate hn).symm ▸ hu hn
  have hrow : d.assetParameterValues.find? r.valueId = some r := Table.find?_key h.row
  obtain ⟨d', ha, hd'⟩ := exists_updateOwn h
  have ha' : apply (.assetParameterValues (.update { r with
      dataType := definition.dataType, columns := r.ownColumns })) d = .ok d' := h.dataType ▸ ha
  have hw : (applyAssetParameterUpdate r.laboratoryId r.assetId newId (some definition)
      ⟨r.parameterTypeId, some (readParameterValue r d).resent⟩).wp (fun _ => True) (fun _ => False)
      (fun _ d' => d'.assetParameterValues.find? r.valueId =
        some { r with columns := r.ownColumns }) d := by
    refine wp_bind.mpr <| ParameterValues.wp_resolveParameterValue (h.parse_resent hu hx) hres ?_
    simp only [upsertAssetParameterValue, wp_bind, wp_read, find?_value h.row h.parameterTypeId,
      wp_selectForUpdate, hrow]
    refine wp_exec.mpr ⟨fun d₁ h₁ => ⟨trivial, ?_⟩, fun c hc => ?_⟩
    case refine_1 => exact Except.ok.inj (ha'.symm.trans h₁) ▸ hd'
    case refine_2 => cases ha'.symm.trans hc
  obtain ⟨_, d', hr, hf⟩ := wp_total hw
  exact ⟨d', hr, hf⟩

-- The value has a unit if it can have one, its numbers are read as they have been printed, and nothing
-- else is stored in the row.
theorem roundTrips_iff [UnicodeSegmentation] (h : Stored definition d r) :
    RoundTrips definition d r ↔
      (r.dataType.IsNumeric → r.columns.unitId.isSome) ∧
      (∀ v ∈ r.columns.value r.dataType, v.reread = v) ∧ r.ownColumns = r.columns := by
  obtain ⟨v, h⟩ := h.storedAs
  constructor
  case mp =>
    intro hrt
    obtain ⟨v', hp, hv⟩ := hrt.parses
    have hu : r.dataType.IsNumeric → r.columns.unitId.isSome := by
      intro hn
      by_contra hnone
      have he : AssetParameterValue.parse r.dataType (readParameterValue r d).resent =
          .error "unit_id must be a uuid string" :=
        parse_resent_unitless h.hasValue hn (by simpa using hnone)
      cases (h.dataType ▸ he).symm.trans hp
    have hx : ∀ v ∈ r.columns.value r.dataType, v.reread = v := by
      intro v₁ hv₁
      obtain rfl := Option.some.inj (hv.symm.trans hv₁)
      obtain ⟨hp', hv'⟩ := h.parse hu
      obtain rfl := Option.some.inj (hv.symm.trans hv')
      exact (AssetParameterValue.parse_resent_iff hp').mp hp
    refine ⟨hu, hx, ?_⟩
    obtain ⟨d₁, h₁, hf₁⟩ := hrt.keeps nilUuid
    obtain ⟨d₂, h₂, hf₂⟩ := h.run nilUuid hu hx
    obtain rfl : d₁ = d₂ := congrArg Prod.snd <| Except.ok.inj <| h₁.symm.trans h₂
    exact congrArg (·.columns) <| Option.some.inj <| hf₂.symm.trans hf₁
  case mpr =>
    rintro ⟨hu, hx, hc⟩
    refine ⟨⟨_, h.parse_resent hu hx, (h.parse hu).right⟩, fun newId => ?_⟩
    obtain ⟨d', hr, hf⟩ := h.run newId hu hx
    exact ⟨d', hr, by rw [hf, hc]⟩

end RoundTrip

section Examples

-- The value of a parameter of asset 3.
def storedValue (dataType : AssetParameterDataType) (columns : ParameterValueColumns) :
    AssetParameterValueRow where
  valueId := 7
  laboratoryId := 1
  assetId := 3
  parameterTypeId := 5
  dataType := dataType
  columns := columns

def kilohertz : UnitRow where
  unitId := 4
  laboratoryId := 1
  code := "khz"
  name := "Kilohertz"
  symbol := "kHz"
  dimension := "frequency"
  scaleToBase := ⟨1000, by decide⟩
  allowDecimal := true

-- A parameter with a dimension, but without a default unit.
def bandwidth : AssetParameterTypeRow where
  parameterTypeId := 5
  laboratoryId := 1
  code := "bandwidth"
  name := "Bandwidth"
  dataType := .number
  unitDimension := some "frequency"
  defaultUnitId := none
  description := none

def pieces : UnitRow where
  unitId := 8
  laboratoryId := 1
  code := "pcs"
  name := "Pieces"
  symbol := "pcs"
  dimension := "count"
  scaleToBase := ⟨1, by decide⟩
  allowDecimal := false

def oscilloscope : AssetRow where
  assetId := 3
  laboratoryId := 1
  categoryId := none
  trackingMode := .serialized
  name := "Oscilloscope"
  model := none
  manufacturer := none
  inventoryUnitId := 8
  publicNotes := none
  internalNotes := none

def electronics : Database where
  __ := Database.empty
  units := ⟨[kilohertz, pieces], by decide, by decide⟩
  assets := {oscilloscope}
  assetParameterTypes := {bandwidth}

def electronicsAfter (json : Json) : Database :=
  let _ := tallied
  (applyAssetParameterUpdate 1 3 7 (some bandwidth.definition) ⟨5, some json⟩).after electronics

def bandwidthValue (n : ℚ) (unitId : Option Uuid) (inBase : Option ℚ) : AssetParameterValueRow :=
  storedValue .number { ParameterValueColumns.empty with
    valueNumber := some n
    valueNumberInBase := inBase
    unitId
  }

def twoKilohertz : Json :=
  .object [("number", .number 2), ("unit_id", .string <| showHyphenated 4)]

-- Small integers are read as they have been printed.
@[reducible]
def exactNumbers : JsonNumbers where
  reread n := n

omit [TextFormats] in
theorem roundTrips_twoKilohertz :
    let _ := tallied
    let _ := exactNumbers
    RoundTrips bandwidth.definition (electronicsAfter twoKilohertz)
      (bandwidthValue 2 (some 4) (some 2000)) := by
  let _ := tallied
  let _ := exactNumbers
  let _ := UnicodeSegmentation.characters
  have hrun : (applyAssetParameterUpdate 1 3 7 (some bandwidth.definition)
      ⟨5, some twoKilohertz⟩).run electronics = .ok ((), electronicsAfter twoKilohertz) :=
    rfl
  have hrows : (electronicsAfter twoKilohertz).assetParameterValues.rows =
      [bandwidthValue 2 (some 4) (some 2000)] := by
    decide +kernel
  have hr : Stored bandwidth.definition (electronicsAfter twoKilohertz)
      (bandwidthValue 2 (some 4) (some 2000)) :=
    .written hrun (Table.mem_def.mpr <| hrows ▸ .head _) rfl
  have hx : ∀ v ∈ (bandwidthValue 2 (some 4) (some 2000)).columns.value .number, v.reread = v := by
    rintro _ ⟨⟩
    rfl
  exact (roundTrips_iff hr).mpr ⟨fun _ => rfl, hx, rfl⟩

def weight : ParameterValueDefinition where
  parameterTypeId := 5
  dataType := .number
  unitDimension := none
  defaultUnitId := none

def afterWeighing : Database :=
  let _ := tallied
  (applyAssetParameterUpdate 1 3 7 (some weight) ⟨5, some <| .number 20⟩).after electronics

omit [TextFormats] in
-- A number without a unit cannot be sent back.
theorem not_roundTrips_unitless :
    let _ := tallied
    let _ := exactNumbers
    let _ := UnicodeSegmentation.characters
    ¬∀ definition d r, Stored definition d r → RoundTrips definition d r := by
  intro _ _ _ h
  have hw : (applyAssetParameterUpdate 1 3 7 (some weight) ⟨5, some <| .number 20⟩).run electronics =
      .ok ((), afterWeighing) := rfl
  have hr : Stored weight afterWeighing (bandwidthValue 20 none none) :=
    .written hw (.head _) rfl
  obtain ⟨_, hp, _⟩ := (h _ _ _ hr).parses
  cases hp

end Examples

end Assets

end LabInventory
