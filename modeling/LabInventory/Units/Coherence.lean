import LabInventory.AssetParameters.Effects
import LabInventory.Assets.Effects
import LabInventory.Assets.UnitFilters
import LabInventory.Units.Basic

open Sql Program

namespace LabInventory

def ParameterValueColumns.amounts (c : ParameterValueColumns) : List ℚ :=
  c.valueNumber.toList ++ c.valueRangeStart.toList ++ c.valueRangeEnd.toList

-- An amount comes with a unit whenever the parameter has a dimension.
def AssetParameterValue.WithUnit (unitDimension : Option String) (defaultUnitId : Option Uuid)
    (v : AssetParameterValue) : Prop :=
  v.dataType.IsNumeric → v.unitId.isSome ∨ defaultUnitId.isSome ∨ unitDimension = none

-- A unit that is in use keeps its dimension, and its scale unless it only measures zero.
def Units.Request.KeepsUnits (d : Database) : Units.Request → Prop
  | create .. => True
  | update unitId payload => ∀ unit ∈ d.units, unit.unitId = unitId →
    ∀ r ∈ d.assetParameterValues, r.ownColumns.unitId = some unitId →
      (∀ s ∈ payload.dimension, ∀ dimension, UnitDimension.parse s = .ok dimension →
        dimension = unit.dimension) ∧
      (∀ q ∈ payload.scaleToBase, ∀ scale, validateScaleToBase q = .ok scale →
        scale = unit.scaleToBase ∨ ∀ x ∈ r.ownColumns.amounts, x = 0)

namespace AssetParameters

-- A default unit decides about the dimension.
def dimensionAfter (update : UpdateAssetParameter) (existing : AssetParameterTypeRow)
    (d : Database) : Option String :=
  match update.defaultUnitId.resolve existing.defaultUnitId with
  | some unitId => (d.units.find? unitId).map (·.dimension)
  | none => update.unitDimension.resolve (existing.unitDimension.map Text.trim)

-- A parameter that has values keeps its dimension, unless its data type changes. Then its values
-- are migrated.
def Request.KeepsUnits [TextFormats] [UnicodeSegmentation] (d : Database) : Request → Prop
  | .update parameterId payload _ _ => ∀ update, payload.toUpdateAssetParameter = .ok update →
    ∀ existing ∈ d.assetParameterTypes, existing.parameterTypeId = parameterId →
      (update.dataType.getD existing.dataType = existing.dataType →
        (∃ r ∈ d.assetParameterValues, r.parameterTypeId = parameterId) →
          dimensionAfter update existing d = existing.unitDimension) ∧
      (update.dataType.getD existing.dataType ≠ existing.dataType →
        ∀ m ∈ update.valueMigrations.getD [], ∀ json ∈ m.value, ∀ v,
          AssetParameterValue.parse (update.dataType.getD existing.dataType) json = .ok v →
          v.WithUnit (dimensionAfter update existing d)
            (update.defaultUnitId.resolve existing.defaultUnitId))
  | _ => True

end AssetParameters

def Assets.Request.KeepsUnits [TextFormats] (d : Database) (request : Assets.Request) : Prop :=
  ∀ t ∈ d.assetParameterTypes, ∀ v, IsInput request.parameters t v →
    v.WithUnit t.unitDimension t.defaultUnitId

namespace Units

-- An amount in the base unit. Without a unit, there is none.
def convert (d : Database) (unitId : Option Uuid) (amount : Option ℚ) : Option ℚ :=
  (unitId.bind d.units.find?).bind fun unit => amount.map (· * unit.scaleToBase)

-- The value `r` of the parameter `t` has the right unit, and has been converted by it.
structure Measured (d : Database) (t : AssetParameterTypeRow) (r : AssetParameterValueRow) :
    Prop where
  unit : r.dataType.IsNumeric → ∀ dimension ∈ t.unitDimension,
    ∃ unit ∈ d.units, r.ownColumns.unitId = some unit.unitId ∧ unit.dimension = dimension
  unitless : t.unitDimension = none → r.ownColumns.unitId = none
  number : r.ownColumns.valueNumberInBase = convert d r.ownColumns.unitId r.ownColumns.valueNumber
  rangeStart : r.ownColumns.valueRangeStartInBase =
    convert d r.ownColumns.unitId r.ownColumns.valueRangeStart
  rangeEnd : r.ownColumns.valueRangeEndInBase =
    convert d r.ownColumns.unitId r.ownColumns.valueRangeEnd

def Coherent (d : Database) : Prop :=
  ∀ r ∈ d.assetParameterValues, ∀ t ∈ d.assetParameterTypes,
    t.parameterTypeId = r.parameterTypeId → Measured d t r

-- While the values with the given ids are migrated, nothing is said about them.
structure CoherentBut (ids : List Uuid) (d : Database) : Prop where
  owned : ∀ r ∈ d.assetParameterValues, ∃ t ∈ d.assetParameterTypes,
    t.parameterTypeId = r.parameterTypeId
  measured : ∀ r ∈ d.assetParameterValues, r.valueId ∉ ids → ∀ t ∈ d.assetParameterTypes,
    t.parameterTypeId = r.parameterTypeId → Measured d t r

variable {d d' : Database} {t : AssetParameterTypeRow} {r : AssetParameterValueRow}
  {v : AssetParameterValue} {ids : List Uuid}

theorem unitId_ownColumns (hn : ¬r.dataType.IsNumeric) : r.ownColumns.unitId = none :=
  if_neg hn

section Measured

theorem normalizes_convert {definition : ParameterValueDefinition} {unitId : Option Uuid} {x : ℚ}
    {result : Option Uuid × Option ℚ}
    (h : ParameterValues.Normalizes definition d unitId x result) :
    result.2 = convert d result.1 (some x) := by
  unfold ParameterValues.Normalizes at h
  cases hu : unitId <|> definition.defaultUnitId <;> rw [hu] at h
  case none => rw [h]; rfl
  case some =>
    obtain ⟨unit, hf, _, rfl⟩ := h
    simp [convert, hf]

theorem unit_of_normalizes {definition : ParameterValueDefinition} {unitId : Option Uuid} {x : ℚ}
    {result : Option Uuid × Option ℚ} {dimension : String}
    (h : ParameterValues.Normalizes definition d unitId x result)
    (hu : unitId.isSome ∨ definition.defaultUnitId.isSome ∨ definition.unitDimension = none)
    (hd : definition.unitDimension = some dimension) :
    ∃ unit ∈ d.units, result.1 = some unit.unitId ∧ unit.dimension = dimension := by
  unfold ParameterValues.Normalizes at h
  cases hs : unitId <|> definition.defaultUnitId <;> rw [hs] at h
  case none => simp_all
  case some =>
    obtain ⟨unit, hf, hdim, rfl⟩ := h
    have ⟨hm, hk⟩ := Table.find?_eq_some.mp hf
    exact ⟨unit, hm, congrArg some hk.symm, Option.some.inj <| hdim.symm.trans hd⟩

theorem measured_of_resolves (h : ParameterValues.Resolves t.definition d v r.ownColumns)
    (hv : v.dataType = r.dataType) (hu : v.WithUnit t.unitDimension t.defaultUnitId) :
    Measured d t r := by
  cases v
  case text | boolean | date =>
    refine ⟨fun hn => ?_, fun _ => ?_, ?_, ?_, ?_⟩
    case refine_1 =>
      rw [← hv] at hn
      cases hn
    all_goals
      rw [h]
      rfl
  case enum =>
    refine ⟨fun hn => ?_, fun _ => ?_, ?_, ?_, ?_⟩
    case refine_1 =>
      rw [← hv] at hn
      cases hn
    all_goals
      rw [h.right]
      rfl
  case number =>
    obtain ⟨result, hn, hc⟩ := h
    refine ⟨fun _ dimension hd => ?_, fun hd => ?_, ?_, ?_, ?_⟩
    case refine_1 =>
      rw [hc]
      exact unit_of_normalizes hn (hu rfl) hd
    case refine_2 => rw [hc, Assets.normalizes_of_dimensionless hn hd]
    case refine_3 =>
      rw [hc]
      exact normalizes_convert hn
    all_goals
      rw [hc]
      simp [ParameterValueColumns.empty, convert]
  case range =>
    obtain ⟨result₁, result₂, h₁, h₂, hc⟩ := h
    refine ⟨fun _ dimension hd => ?_, fun hd => ?_, ?_, ?_, ?_⟩
    case refine_1 =>
      rw [hc]
      exact unit_of_normalizes h₁ (hu rfl) hd
    case refine_2 => rw [hc, Assets.normalizes_of_dimensionless h₁ hd]
    case refine_3 =>
      rw [hc]
      simp [ParameterValueColumns.empty, convert]
    case refine_4 =>
      rw [hc]
      exact normalizes_convert h₁
    case refine_5 =>
      rw [hc, normalizes_convert h₂, Assets.unitId_of_normalizes h₁ h₂]

theorem Measured.frame (h : Measured d t r) (hu : d'.units = d.units) : Measured d' t r := by
  constructor
  case unit => exact hu ▸ h.unit
  case unitless => exact h.unitless
  all_goals
    simp only [convert, hu]
    first
      | exact h.number
      | exact h.rangeStart
      | exact h.rangeEnd

theorem CoherentBut.frame (h : CoherentBut ids d) (hu : d'.units = d.units)
    (ht : d'.assetParameterTypes = d.assetParameterTypes)
    (hv : ∀ r ∈ d'.assetParameterValues, r ∈ d.assetParameterValues) : CoherentBut ids d' where
  owned r hr := ht ▸ h.owned r (hv r hr)
  measured r hr hi t hm hp := (h.measured r (hv r hr) hi t (ht ▸ hm) hp).frame hu

end Measured

section Units

-- Only numeric values have a unit, and it exists.
theorem Measured.exists_unit (h : Measured d t r) {unitId : Uuid}
    (hu : r.ownColumns.unitId = some unitId) : ∃ unit, d.units.find? unitId = some unit := by
  by_cases hn : r.dataType.IsNumeric
  case neg => cases (unitId_ownColumns hn).symm.trans hu
  case pos =>
    cases hd : t.unitDimension
    case none => cases (h.unitless hd).symm.trans hu
    case some dimension =>
      obtain ⟨unit, hm, hk, _⟩ := h.unit hn dimension hd
      obtain rfl := Option.some.inj <| hu.symm.trans hk
      exact ⟨unit, Table.find?_key hm⟩

-- Units may change in what does not affect the amounts that are measured in them.
structure KeepsUnit (r : AssetParameterValueRow) (unit unit' : UnitRow) : Prop where
  unitId : unit'.unitId = unit.unitId
  dimension : unit'.dimension = unit.dimension
  scaleToBase : unit'.scaleToBase = unit.scaleToBase ∨ ∀ x ∈ r.ownColumns.amounts, x = 0

theorem Measured.of_units (h : Measured d t r)
    (hu : ∀ unitId unit, r.ownColumns.unitId = some unitId → d.units.find? unitId = some unit →
      ∃ unit', d'.units.find? unitId = some unit' ∧ KeepsUnit r unit unit') : Measured d' t r := by
  have hconvert {amount : Option ℚ} (ha : ∀ x ∈ amount, x ∈ r.ownColumns.amounts) :
      convert d r.ownColumns.unitId amount = convert d' r.ownColumns.unitId amount := by
    cases hi : r.ownColumns.unitId
    case none => rfl
    case some unitId =>
      obtain ⟨unit, hf⟩ := h.exists_unit hi
      obtain ⟨unit', hf', hk⟩ := hu unitId unit hi hf
      cases amount
      case none => simp [convert, hf, hf']
      case some x =>
        simp only [convert, Option.bind_some, hf, hf', Option.map_some, Option.some.injEq]
        obtain hs | hz := hk.scaleToBase
        · rw [hs]
        · rw [hz x (ha x rfl), zero_mul, zero_mul]
  constructor
  case unit =>
    intro hn dimension hd
    obtain ⟨unit, hm, hi, rfl⟩ := h.unit hn dimension hd
    obtain ⟨unit', hf', hk⟩ := hu unit.unitId unit hi (Table.find?_key hm)
    exact ⟨unit', (Table.find?_eq_some.mp hf').left, hk.unitId ▸ hi, hk.dimension⟩
  case unitless => exact h.unitless
  case number =>
    exact h.number.trans <| hconvert fun x hx => by simp_all [ParameterValueColumns.amounts]
  case rangeStart =>
    exact h.rangeStart.trans <| hconvert fun x hx => by simp_all [ParameterValueColumns.amounts]
  case rangeEnd =>
    exact h.rangeEnd.trans <| hconvert fun x hx => by simp_all [ParameterValueColumns.amounts]

theorem CoherentBut.applyUnit {w : RowWrite UnitRow Uuid} (h : CoherentBut [] d)
    (ha : d.apply (.units w) = .ok d')
    (hu : ∀ r ∈ d.assetParameterValues, ∀ unitId unit, r.ownColumns.unitId = some unitId →
      d.units.find? unitId = some unit →
      ∃ unit', d'.units.find? unitId = some unit' ∧ KeepsUnit r unit unit') : CoherentBut [] d' := by
  have happ := (Database.applied_of_apply ha).right
  have ht : d'.assetParameterTypes = d.assetParameterTypes := by rw [happ]
  have hv : d'.assetParameterValues = d.assetParameterValues := by rw [happ]
  constructor
  case owned => exact fun r hr => ht ▸ h.owned r (hv ▸ hr)
  case measured =>
    intro r hr hi t hm hk
    exact (h.measured r (hv ▸ hr) hi t (ht ▸ hm) hk).of_units <| hu r (hv ▸ hr)

variable [UnicodeSegmentation] {ctx : LaboratoryContext}

theorem toUpdateUnit_eq_ok {payload : UpdateJsonData} {update : UpdateUnit}
    (h : payload.toUpdateUnit = .ok update) :
    payload.dimension.mapM UnitDimension.parse = .ok update.dimension ∧
    payload.scaleToBase.mapM validateScaleToBase = .ok update.scaleToBase := by
  simp only [UpdateJsonData.toUpdateUnit, Except.bind_eq_ok, Except.pure_eq_ok] at h
  obtain ⟨_, _, _, _, _, _, _, hd, _, hs, rfl⟩ := h
  exact ⟨hd, hs⟩

theorem coherent_createUnit {payload newId} (h : CoherentBut [] d) :
    (createUnit ctx payload newId).wlp (fun _ => CoherentBut []) d := by
  refine wp_readOnly_bind readOnly_read fun _ => wp_readOnly_bind readOnly_require fun _ => ?_
  refine wp_readOnly_bind readOnly_ofExcept fun new => ?_
  refine wp_exec.mpr ⟨fun d' ha => ⟨trivial, ?_⟩, fun _ _ => trivial⟩
  refine h.applyUnit ha fun r _ unitId unit _ hf => ⟨unit, ?_, rfl, rfl, .inl rfl⟩
  have ⟨hm, hk⟩ := Table.find?_eq_some.mp hf
  exact Table.find?_eq_some.mpr
    ⟨(Table.mem_insert (Database.applied_of_apply ha).left).mpr <| .inl hm, hk⟩

theorem coherent_updateUnit {unitId payload} (h : CoherentBut [] d)
    (hk : (Request.update unitId payload).KeepsUnits d) :
    (updateUnit ctx unitId payload).wlp (fun _ => CoherentBut []) d := by
  refine wp_readOnly_bind readOnly_read fun _ => wp_readOnly_bind readOnly_require fun _ => ?_
  refine wp_bind.mpr <| Transaction.wp_validated.mpr ⟨fun update hu => ?_, fun _ _ => trivial⟩
  refine wp_bind.mpr <| wp_selectForUpdate.mpr ?_
  cases hf : d.units.find? unitId
  case none => trivial
  case some existing =>
    have ⟨hx, hid⟩ := Table.find?_eq_some.mp hf
    refine wp_exec.mpr ⟨fun d' ha => ⟨trivial, ?_⟩, fun _ _ => trivial⟩
    refine h.applyUnit ha fun r hr id unit hi hf' => ?_
    by_cases he : existing.unitId = id
    case neg =>
      refine ⟨unit, ?_, rfl, rfl, .inl rfl⟩
      exact (Table.find?_write_of_ne (Database.applied_of_apply ha).left he).trans hf'
    case pos =>
      obtain rfl : unitId = id := hid.symm.trans he
      obtain rfl := Option.some.inj <| hf.symm.trans hf'
      have ⟨hdim, hscale⟩ := hk existing hx hid r hr hi
      have ⟨hd, hs⟩ := toUpdateUnit_eq_ok hu
      have hself := (Table.find?_update (Database.applied_of_apply ha).left).trans <| if_pos he
      rw [hf] at hself
      refine ⟨_, hself, rfl, ?_, ?_⟩
      case refine_1 => exact Except.getD_of_mapM (P := (· = existing.dimension)) hd rfl hdim
      case refine_2 =>
        exact Except.getD_of_mapM (P := fun s => s = existing.scaleToBase ∨
          ∀ x ∈ r.ownColumns.amounts, x = 0) hs (.inl rfl) hscale

theorem coherent_unit {request : Request} (h : CoherentBut [] d) (hk : request.KeepsUnits d) :
    CoherentBut [] ((request.handle ctx).after d) := by
  refine wp_after (I := fun _ => True) (R := fun _ => True) ?_ h
  cases request
  case create => exact coherent_createUnit h
  case update => exact coherent_updateUnit h hk

end Units

section Requests

-- The writes that can affect the units of the values.
def IsMeasureWrite : Write → Prop
  | .units _ | .assetParameterTypes _ | .assetParameterValues _ => True
  | _ => False

variable {w : Write}

theorem frame_of_apply (ha : d.apply w = .ok d') (hw : ¬IsMeasureWrite w) :
    d'.units = d.units ∧ d'.assetParameterTypes = d.assetParameterTypes ∧
    ∀ r ∈ d'.assetParameterValues, r ∈ d.assetParameterValues := by
  have happ := Database.applied_of_apply ha
  cases w
  case units | assetParameterTypes | assetParameterValues => exact absurd trivial hw
  case assetParameterOptions =>
    rw [happ.right]
    exact ⟨rfl, rfl, fun _ => id⟩
  case tree kind w =>
    have ⟨ht, _, hv⟩ := AssetParameters.parameters_of_apply ha id
    refine ⟨?_, ht, hv⟩
    cases kind <;> rw [happ.right]
  all_goals
    have ⟨ht, _, hv⟩ := AssetParameters.parameters_of_apply ha id
    exact ⟨by rw [happ.right], ht, hv⟩

theorem CoherentBut.apply (h : CoherentBut ids d) (ha : d.apply w = .ok d') (hw : ¬IsMeasureWrite w) :
    CoherentBut ids d' :=
  have ⟨hu, ht, hv⟩ := frame_of_apply ha hw
  h.frame hu ht hv

theorem not_isMeasureWrite_of_isItemWrite (h : InventoryItems.IsItemWrite d w) :
    ¬IsMeasureWrite w := by
  cases w
  case units | assetParameterTypes | assetParameterValues => exact h.elim
  all_goals exact id

-- A value is added or replaced.
theorem CoherentBut.applyValue {w : RowWrite AssetParameterValueRow Uuid} (h : CoherentBut ids d)
    (ha : d.apply (.assetParameterValues w) = .ok d')
    (hr : ∀ r, w = .insert r ∨ w = .update r → ∃ t ∈ d.assetParameterTypes,
      t.parameterTypeId = r.parameterTypeId ∧ Measured d t r) : CoherentBut ids d' := by
  have happ := Database.applied_of_apply ha
  have hu : d'.units = d.units := by rw [happ.right]
  have ht : d'.assetParameterTypes = d.assetParameterTypes := by rw [happ.right]
  have hnew {r} (hw : w = .insert r ∨ w = .update r) :
      (∃ t ∈ d'.assetParameterTypes, t.parameterTypeId = r.parameterTypeId) ∧
      ∀ t ∈ d'.assetParameterTypes, t.parameterTypeId = r.parameterTypeId → Measured d' t r := by
    obtain ⟨t, hm, hp, hmeasured⟩ := hr r hw
    refine ⟨⟨t, ht ▸ hm, hp⟩, fun t' hm' hp' => ?_⟩
    obtain rfl : t' = t := Table.eq_of_key_eq (ht ▸ hm') hm (hp'.trans hp.symm)
    exact hmeasured.frame hu
  constructor
  case owned =>
    intro r hm
    obtain hm | hw | hw := Table.mem_write happ.left hm
    · exact ht ▸ h.owned r hm
    · exact (hnew <| .inl hw).left
    · exact (hnew <| .inr hw).left
  case measured =>
    intro r hm hi t ht' hp
    obtain hm | hw | hw := Table.mem_write happ.left hm
    · exact (h.measured r hm hi t (ht ▸ ht') hp).frame hu
    · exact (hnew <| .inl hw).right t ht' hp
    · exact (hnew <| .inr hw).right t ht' hp

variable [TextFormats]

theorem closed_asset {request : Assets.Request} {d₀ : Database} (hk : request.KeepsUnits d₀) :
    Closed (Assets.IsRequestWrite request)
      (fun d => CoherentBut [] d ∧ d.assetParameterTypes = d₀.assetParameterTypes) := by
  have hframe {d d' w} (h : CoherentBut [] d ∧ d.assetParameterTypes = d₀.assetParameterTypes)
      (ha : Database.apply d w = .ok d') (hw : ¬IsMeasureWrite w) :
      CoherentBut [] d' ∧ d'.assetParameterTypes = d₀.assetParameterTypes :=
    ⟨h.left.apply ha hw, (frame_of_apply ha hw).right.left.trans h.right⟩
  refine Closed.or ?_ <| Closed.or ?_ ?_
  case refine_1 =>
    intro w d d' hw h ha
    refine hframe h ha fun hm => ?_
    cases w
    case units | assetParameterTypes | assetParameterValues => exact hw.elim
    all_goals exact hm.elim
  case refine_2 =>
    intro w d d' hw h ha
    cases w
    case assetParameterValues w =>
      have happ := Database.applied_of_apply ha
      refine ⟨h.left.applyValue ha fun r hr => ?_, happ.right ▸ h.right⟩
      have hres : ∃ t v, Assets.IsResolved request.parameters d r t v := by
        obtain rfl | rfl := hr <;> exact hw
      obtain ⟨t, v, hres⟩ := hres
      have hv : v.dataType = r.dataType := by
        obtain ⟨_, _, hp⟩ := hres.input
        exact (AssetParameterValue.dataType_of_parse hp).trans hres.dataType.symm
      have hown : r.ownColumns = r.columns := by
        rw [AssetParameterValueRow.ownColumns, ← hv, hres.resolves.migrate_empty]
      refine ⟨t, hres.type, hres.parameterTypeId.symm, measured_of_resolves (hown ▸ hres.resolves) hv ?_⟩
      exact hk t (h.right ▸ hres.type) v hres.toIsInput
    all_goals exact hw.elim
  case refine_3 =>
    exact fun w d d' hw h ha => hframe h ha <| not_isMeasureWrite_of_isItemWrite hw

theorem coherent_of_asset [UnicodeSegmentation] [ScanOrder] {request : Assets.Request}
    {ctx : LaboratoryContext} (h : CoherentBut [] d) (hs : InventoryItems.Stocked d.assets d)
    (hk : request.KeepsUnits d) : CoherentBut [] ((request.handle ctx).after d) :=
  ((Assets.performs_handle hs).after (closed_asset hk) ⟨h, rfl⟩).left

section Parameters

open AssetParameters

omit [TextFormats] in
theorem not_isMeasureWrite_of_isOptionWrite (h : IsOptionWrite w) : ¬IsMeasureWrite w := by
  cases w
  case assetParameterOptions => exact id
  all_goals exact h.elim

omit [TextFormats] in
theorem CoherentBut.options {α : Type} {p : Transaction α} (h : CoherentBut ids d)
    (hp : p.Writes IsOptionWrite) : p.wlp (fun _ => CoherentBut ids) d :=
  hp.wlp h fun _ _ _ hw h ha => h.apply ha <| not_isMeasureWrite_of_isOptionWrite hw

omit [TextFormats] in
theorem CoherentBut.insertType (h : CoherentBut ids d)
    (ha : d.apply (.assetParameterTypes (.insert t)) = .ok d') : CoherentBut ids d' := by
  have happ := Database.applied_of_apply ha
  have hv := (dependents_of_applyType ha nofun).right
  constructor
  case owned =>
    intro r hr
    obtain ⟨t', ht, hp⟩ := h.owned r (hv ▸ hr)
    exact ⟨t', (Table.mem_insert happ.left).mpr <| .inl ht, hp⟩
  case measured =>
    intro r hr hi t' ht hp
    obtain ht | rfl := (Table.mem_insert happ.left).mp ht
    · exact (h.measured r (hv ▸ hr) hi t' ht hp).frame <| by rw [happ.right]
    · obtain ⟨t₀, ht₀, hp₀⟩ := h.owned r (hv ▸ hr)
      exact absurd (hp₀.trans hp.symm) <| (Table.insert_eq_ok.mp happ.left).left t₀ ht₀

variable [UnicodeSegmentation] {ctx : LaboratoryContext} {p : Uuid}

omit [TextFormats] in
theorem coherent_createAssetParameter {payload newId newOptionIds} (h : CoherentBut [] d) :
    (createAssetParameter ctx payload newId newOptionIds).wlp (fun _ => CoherentBut []) d := by
  refine wp_readOnly_bind readOnly_read fun _ => wp_readOnly_bind readOnly_require fun _ => ?_
  refine wp_readOnly_bind readOnly_ofExcept fun new => wp_readOnly_bind readOnly_ofExcept fun _ => ?_
  refine wp_readOnly_bind normalizeUnitConfiguration_readOnly fun unitDimension => wp_bind.mpr ?_
  refine wp_exec.mpr ⟨fun d₁ ha => ⟨trivial, ?_⟩, fun _ _ => trivial⟩
  exact (h.insertType ha).options insertNewOptions_writes

-- What an update makes of the row of a parameter.
structure Updated (update : UpdateAssetParameter) (d : Database)
    (existing updated : AssetParameterTypeRow) : Prop where
  parameterTypeId : updated.parameterTypeId = existing.parameterTypeId
  dataType : updated.dataType = update.dataType.getD existing.dataType
  defaultUnitId : updated.defaultUnitId = update.defaultUnitId.resolve existing.defaultUnitId
  unitDimension : updated.unitDimension = dimensionAfter update existing d

omit [TextFormats] [UnicodeSegmentation] in
theorem wlp_normalizeUnitConfiguration {dataType : AssetParameterDataType}
    {unitDimension : Option String} {defaultUnitId : Option Uuid}
    {Q : Option String → Database → Prop}
    (hq : Q (match defaultUnitId with
      | some unitId => (d.units.find? unitId).map (·.dimension)
      | none => unitDimension) d) :
    (normalizeUnitConfiguration dataType unitDimension defaultUnitId).wlp Q d := by
  unfold normalizeUnitConfiguration
  split
  case isTrue =>
    cases defaultUnitId
    case none => exact hq
    case some unitId =>
      refine wp_bind.mpr <| wp_selectForUpdate.mpr ?_
      cases hf : d.units.find? unitId
      case none => trivial
      case some unit =>
        simp only [hf, Option.map_some] at hq
        exact wp_bind.mpr <| wp_require.mpr ⟨fun _ => hq, fun _ => trivial⟩
  case isFalse =>
    refine wp_bind.mpr <| wp_require.mpr ⟨fun hn => ?_, fun _ => trivial⟩
    simp only [Option.isNone_iff_eq_none] at hn
    obtain ⟨rfl, rfl⟩ := hn
    exact hq

omit [TextFormats] [UnicodeSegmentation] in
theorem parse_unitDimension {s dimension : String} (h : UnitDimension.parse s = .ok dimension) :
    dimension = Text.trim s := by
  unfold UnitDimension.parse at h
  split at h
  case isTrue => cases h
  case isFalse =>
    split at h
    case isTrue => exact (Except.ok.inj h).symm
    case isFalse => cases h

omit [TextFormats] [UnicodeSegmentation] in
theorem wlp_updateParameterRow {update : UpdateAssetParameter} {existing : AssetParameterTypeRow}
    {Q : AssetParameterTypeRow → Database → Prop}
    (hq : ∀ updated d', Updated update d existing updated →
      d.apply (.assetParameterTypes (.update updated)) = .ok d' → Q updated d') :
    (updateParameterRow update existing).wlp Q d := by
  refine wp_bind.mpr <| Transaction.wp_validated.mpr ⟨fun current hc => ?_, fun _ _ => trivial⟩
  have hcurrent : current = existing.unitDimension.map Text.trim := by
    cases hu : existing.unitDimension <;> rw [hu] at hc
    case none => exact (Except.pure_eq_ok.mp hc).symm
    case some s =>
      obtain ⟨dimension, hp, hc⟩ := Except.bind_eq_ok.mp hc
      exact (Except.pure_eq_ok.mp hc).symm.trans <| congrArg some <| parse_unitDimension hp
  refine wp_bind.mpr <| wlp_normalizeUnitConfiguration ?_
  refine wp_bind.mpr <| wp_exec.mpr ⟨fun d' ha => ⟨trivial, hq _ d' ⟨rfl, rfl, rfl, ?_⟩ ha⟩, ?_⟩
  case refine_1 =>
    rw [hcurrent]
    rfl
  case refine_2 => exact fun _ _ => trivial

omit [TextFormats] [UnicodeSegmentation] in
theorem Measured.of_unitDimension {t' : AssetParameterTypeRow} (h : Measured d t r)
    (ht : t'.unitDimension = t.unitDimension) : Measured d t' r :=
  ⟨fun hn => ht ▸ h.unit hn, fun hn => h.unitless (ht ▸ hn), h.number, h.rangeStart, h.rangeEnd⟩

-- The values of a parameter are either about to be migrated, or it keeps its dimension.
omit [TextFormats] [UnicodeSegmentation] in
theorem CoherentBut.updateType {existing updated : AssetParameterTypeRow} (h : CoherentBut [] d)
    (ha : d.apply (.assetParameterTypes (.update updated)) = .ok d')
    (he : existing ∈ d.assetParameterTypes)
    (hp : updated.parameterTypeId = existing.parameterTypeId)
    (hv : ∀ r ∈ d.assetParameterValues, r.parameterTypeId = existing.parameterTypeId →
      r.valueId ∉ ids → updated.unitDimension = existing.unitDimension) : CoherentBut ids d' := by
  have happ := Database.applied_of_apply ha
  have hvalues := (dependents_of_applyType ha nofun).right
  have hunits : d'.units = d.units := by rw [happ.right]
  constructor
  case owned =>
    intro r hr
    obtain ⟨t, ht, hk⟩ := h.owned r (hvalues ▸ hr)
    by_cases hu : t.parameterTypeId = updated.parameterTypeId
    case pos =>
      exact ⟨updated, (Table.mem_update happ.left).mpr <| .inr ⟨rfl, t, ht, hu⟩, hu.symm.trans hk⟩
    case neg => exact ⟨t, (Table.mem_update happ.left).mpr <| .inl ⟨ht, hu⟩, hk⟩
  case measured =>
    intro r hr hi t ht hk
    rw [hvalues] at hr
    obtain ⟨ht, _⟩ | ⟨rfl, _⟩ := (Table.mem_update happ.left).mp ht
    · exact (h.measured r hr List.not_mem_nil t ht hk).frame hunits
    · have hk := hp.symm.trans hk
      exact ((h.measured r hr List.not_mem_nil existing he hk).frame hunits).of_unitDimension <|
        hv r hr hk.symm hi

-- The amounts that a migration asks for come with a unit.
def MigratesUnits (t : AssetParameterTypeRow)
    (migrations : List UpdateAssetParameterValueMigration) : Prop :=
  ∀ m ∈ migrations, ∀ json ∈ m.value, ∀ v, AssetParameterValue.parse t.dataType json = .ok v →
    v.WithUnit t.unitDimension t.defaultUnitId

section Migrations

variable {migrations : List UpdateAssetParameterValueMigration} {valueId : Uuid}

omit [UnicodeSegmentation] in
theorem ownColumns_of_isMigrated {definition : ParameterValueDefinition} {r₀ : AssetParameterValueRow}
    {columns : ParameterValueColumns} (h : IsMigrated definition migrations d r₀ r v columns) :
    r.ownColumns = columns := by
  obtain rfl := h.row
  rw [AssetParameterValueRow.ownColumns, ParameterValueColumns.migrate_migrate, ← h.dataType,
    h.resolves.migrate_empty]

omit [UnicodeSegmentation] in
theorem withUnit_of_migration (hm : MigratesUnits t migrations) (hd : v.dataType = t.dataType)
    (h : t.dataType ≠ .enum → ∃ m ∈ migrations, ∃ json ∈ m.value,
      AssetParameterValue.parse t.dataType json = .ok v) : v.WithUnit t.unitDimension t.defaultUnitId := by
  by_cases he : t.dataType = .enum
  case pos =>
    intro hn
    rw [hd, he] at hn
    cases hn
  case neg =>
    obtain ⟨m, hmem, json, hj, hp⟩ := h he
    exact hm m hmem json hj v hp

omit [UnicodeSegmentation] in
theorem closed_migration (hm : MigratesUnits t migrations) :
    Closed (IsMigrationWrite t.definition migrations valueId)
      (fun d => CoherentBut ids d ∧ t ∈ d.assetParameterTypes) := by
  intro w d d' hw h ha
  cases w
  case assetParameterOptions =>
    exact ⟨h.left.apply ha id, (frame_of_apply ha id).right.left ▸ h.right⟩
  case assetParameterValues w =>
    refine ⟨h.left.applyValue ha fun r hr => ?_, (Database.applied_of_apply ha).right ▸ h.right⟩
    obtain rfl | rfl := hr
    · exact hw.elim
    · obtain ⟨_, r₀, v, columns, hmig⟩ := hw
      have hd : v.dataType = r.dataType := hmig.row ▸ hmig.dataType
      have hp : t.parameterTypeId = r.parameterTypeId := hmig.row ▸ hmig.parameterTypeId.symm
      refine ⟨t, h.right, hp, measured_of_resolves (ownColumns_of_isMigrated hmig ▸ hmig.resolves) hd ?_⟩
      exact withUnit_of_migration hm hmig.dataType hmig.migration
  all_goals exact hw.elim

omit [TextFormats] [UnicodeSegmentation] in
theorem following_options {α : Type} {p : Transaction α} (hp : p.Writes IsOptionWrite) :
    p.wlp (fun _ => Following d) d := by
  refine hp.wlp .refl fun w d₁ d₂ hw h ha => ?_
  cases w
  case assetParameterOptions =>
    rw [(Database.applied_of_apply ha).right]
    exact ⟨h.descends, h.types, h.units⟩
  all_goals exact hw.elim

theorem wlp_migrateParameterValue {stored : AssetParameterValueRow} {newId : Uuid}
    (h : CoherentBut (stored.valueId :: ids) d) (ht : t ∈ d.assetParameterTypes)
    (hs : OfParameter t.parameterTypeId stored.valueId d) (hm : MigratesUnits t migrations) :
    (migrateParameterValue t.definition migrations newId stored).wlp (fun _ d' =>
      CoherentBut ids d' ∧ t ∈ d'.assetParameterTypes ∧ Descends d d') d := by
  have hd : CoherentBut (stored.valueId :: ids) d ∧ t ∈ d.assetParameterTypes := ⟨h, ht⟩
  have hp : (migrateParameterValue t.definition migrations newId stored).performs
      (IsMigrationWrite t.definition migrations stored.valueId) _ d :=
    performs_and (performs_migrateParameterValue hs) (closed_migration hm) hd
  have hf := performs_and hp (fun w d₁ d₂ hw => closed_following w d₁ d₂ (.inr ⟨_, hw⟩)) (.refl (d := d))
  refine wp_mono (wp_and Assets.wlp_migrateStored <| wlp_of_performs hf) fun _ d' h' => ?_
  obtain ⟨hstored, ⟨_, hbut, ht'⟩, hdesc⟩ := h'
  refine ⟨⟨hbut.owned, fun r hr hi t' hmem hk => ?_⟩, ht', hdesc.descends⟩
  by_cases hv : r.valueId = stored.valueId
  case pos =>
    have hp := hs.descends hdesc.descends r hr hv
    obtain rfl : t' = t := Table.eq_of_key_eq hmem ht' (hk.trans hp)
    obtain ⟨v, has, hmig⟩ := hstored r hr hv hp
    have hd : v.dataType = t'.dataType := has.valueType.trans has.dataType
    refine measured_of_resolves has.resolves has.valueType <| withUnit_of_migration hm hd fun hn => ?_
    obtain ⟨m, target, hfind, htarget, hparse⟩ := hmig hn
    exact ⟨m, List.mem_of_find?_eq_some hfind, target, htarget, hparse⟩
  case neg => exact hbut.measured r hr (fun hm => (List.mem_cons.mp hm).elim hv hi) t' hmem hk

theorem wlp_migrateParameterValues {values : List AssetParameterValueRow} {newIds : NewIds}
    (h : CoherentBut (values.map (·.valueId)) d) (ht : t ∈ d.assetParameterTypes)
    (hs : ∀ r ∈ values, OfParameter t.parameterTypeId r.valueId d) (hm : MigratesUnits t migrations) :
    (migrateParameterValues t.definition migrations newIds values).wlp (fun _ => CoherentBut []) d := by
  induction values generalizing d newIds
  case nil => exact h
  case cons value values ih =>
    refine wp_bind.mpr <| wp_mono (wlp_migrateParameterValue h ht (hs value (.head _)) hm) ?_
    rintro _ d' ⟨h', ht', hdesc⟩
    exact ih h' ht' fun r hr => (hs r (.tail _ hr)).descends hdesc

end Migrations

section Updates

variable [ScanOrder]

theorem coherent_updateOptionsAndValues {update : UpdateAssetParameter}
    {existing updated : AssetParameterTypeRow} {existingOptions existingValues newIds newMigratedIds}
    (hu : updated ∈ d.assetParameterTypes)
    (hsame : updated.dataType = existing.dataType → CoherentBut [] d)
    (hchanged : updated.dataType ≠ existing.dataType →
      CoherentBut (existingValues.map (·.valueId)) d ∧
      MigratesUnits updated (update.valueMigrations.getD []))
    (hv : ∀ r ∈ existingValues, OfParameter updated.parameterTypeId r.valueId d) :
    (updateOptionsAndValues update existing updated existingOptions existingValues newIds
      newMigratedIds).wlp (fun _ => CoherentBut []) d := by
  unfold updateOptionsAndValues
  split
  case isTrue he => exact (hsame he).options applyOptionUpdates_writes
  case isFalse hn =>
    have ⟨hbut, hm⟩ := hchanged hn
    split
    case isTrue =>
      refine wp_bind.mpr <| wp_mono (wp_and (hbut.options applyOptionUpdates_writes) <|
        following_options applyOptionUpdates_writes) ?_
      rintro _ d₁ ⟨hbut₁, hf₁⟩
      exact wlp_migrateParameterValues hbut₁ (hf₁.types.symm ▸ hu)
        (fun r hr => (hv r hr).descends hf₁.descends) hm
    case isFalse =>
      refine wp_bind.mpr <| wp_mono (wlp_migrateParameterValues hbut hu hv hm) fun _ d₁ h₁ => ?_
      exact h₁.options applyOptionUpdates_writes

theorem coherent_updateAssetParameter {payload newIds newMigratedIds} (h : CoherentBut [] d)
    (hk : (AssetParameters.Request.update p payload newIds newMigratedIds).KeepsUnits d) :
    (updateAssetParameter ctx p payload newIds newMigratedIds).wlp (fun _ => CoherentBut []) d := by
  refine wp_readOnly_bind readOnly_read fun _ => wp_readOnly_bind readOnly_require fun _ => ?_
  refine wp_bind.mpr <| Transaction.wp_validated.mpr ⟨fun update hu => ?_, fun _ _ => trivial⟩
  refine wp_bind.mpr <| wp_selectForUpdate.mpr ?_
  cases hf : d.assetParameterTypes.find? p
  case none => trivial
  case some existing =>
    have ⟨hx, hp⟩ := Table.find?_eq_some.mp hf
    have ⟨hdim, hmig⟩ := hk update hu existing hx hp
    refine wp_readOnly_bind readOnly_selectAllForUpdate fun existingOptions => ?_
    refine wp_readOnly_bind readOnly_ofExcept fun _ => ?_
    refine wp_bind.mpr <| wlp_fetchMigratedValues fun existingValues hchanged hsame => ?_
    refine wp_bind.mpr <| wlp_updateParameterRow fun updated d₁ hup ha => ?_
    have happ := Database.applied_of_apply ha
    have hvalues := (dependents_of_applyType ha nofun).right
    have hmem : updated ∈ d₁.assetParameterTypes :=
      (Table.mem_update happ.left).mpr <| .inr ⟨rfl, existing, hx, hup.parameterTypeId.symm⟩
    have hfetched (r) (hr : r ∈ existingValues) :
        r ∈ d.assetParameterValues ∧ r.parameterTypeId = existing.parameterTypeId := by
      by_cases hc : decide (update.dataType.getD existing.dataType ≠ existing.dataType) = true
      case pos => exact ((hchanged hc).left r).mp hr
      case neg => exact absurd (hsame hc ▸ hr) List.not_mem_nil
    refine coherent_updateOptionsAndValues hmem (fun he => ?_) (fun hn => ⟨?_, ?_⟩) fun r hr r' hr' hk => ?_
    case refine_1 =>
      refine h.updateType ha hx hup.parameterTypeId fun r hr hk _ => ?_
      exact hup.unitDimension.trans <| hdim (hup.dataType.symm.trans he) ⟨r, hr, hk.trans hp⟩
    case refine_2 =>
      refine h.updateType ha hx hup.parameterTypeId fun r hr hk hi => absurd ?_ hi
      have hc := decide_eq_true (hup.dataType ▸ hn)
      exact List.mem_map.mpr ⟨r, ((hchanged hc).left r).mpr ⟨hr, hk⟩, rfl⟩
    case refine_3 =>
      intro m hm json hj v hv
      rw [hup.unitDimension, hup.defaultUnitId]
      exact hmig (hup.dataType ▸ hn) m hm json hj v (hup.dataType ▸ hv)
    case refine_4 =>
      obtain rfl : r' = r := Table.eq_of_key_eq (hvalues ▸ hr') (hfetched r hr).left hk
      exact (hfetched r' hr).right.trans hup.parameterTypeId.symm

omit [TextFormats] [UnicodeSegmentation] in
theorem coherent_deleteAssetParameter (h : CoherentBut [] d) :
    (deleteAssetParameter ctx p).wlp (fun _ => CoherentBut []) d := by
  refine wp_readOnly_bind readOnly_read fun _ => wp_readOnly_bind readOnly_require fun _ => ?_
  refine wp_bind.mpr <| wp_selectForUpdate.mpr ?_
  cases hf : d.assetParameterTypes.find? p
  case none => trivial
  case some existing =>
    refine wp_readOnly_bind readOnly_selectAllForUpdate fun _ => ?_
    have hread : (fetchAssetParameterAssignmentsForUpdate existing.parameterTypeId).ReadOnly :=
      readOnly_forAll fun _ => trivial
    refine wp_readOnly_bind hread fun _ => wp_readOnly_bind readOnly_selectAllForUpdate fun _ => ?_
    refine wp_exec.mpr ⟨fun d' ha => ⟨trivial, ?_⟩, fun _ _ => trivial⟩
    obtain rfl := Except.pure_eq_ok.mp ha
    constructor
    case owned =>
      intro r hr
      have ⟨hr, hn⟩ := Table.mem_filter.mp hr
      obtain ⟨t, ht, hk⟩ := h.owned r hr
      refine ⟨t, Table.mem_delete.mpr ⟨ht, ?_⟩, hk⟩
      exact fun he => of_decide_eq_true hn <| hk.symm.trans he
    case measured =>
      intro r hr hi t ht hk
      exact (h.measured r (Table.mem_filter.mp hr).left hi t (Table.mem_delete.mp ht).left hk).frame rfl

theorem coherent_parameter {request : AssetParameters.Request} (h : CoherentBut [] d)
    (hk : request.KeepsUnits d) : CoherentBut [] ((request.handle ctx).after d) := by
  refine wp_after (I := fun _ => True) (R := fun _ => True) ?_ h
  cases request
  case create => exact coherent_createAssetParameter h
  case update => exact coherent_updateAssetParameter h hk
  case delete => exact coherent_deleteAssetParameter h

end Updates

end Parameters

end Requests

section Reachable

def IsStockWrite : Write → Prop
  | .assets _ | .assetInventoryItems _ => True
  | _ => False

-- Requests come in any order, with any other writes in between.
inductive Step
  | unit (ctx : LaboratoryContext) (request : Request)
  | parameter (ctx : LaboratoryContext) (request : AssetParameters.Request)
  | asset (ctx : LaboratoryContext) (request : Assets.Request)
  | item (ctx : LaboratoryContext) (request : InventoryItems.Request)
  | elsewhere (w : Write) (hm : ¬IsMeasureWrite w) (hs : ¬IsStockWrite w)

variable [TextFormats] [UnicodeSegmentation] [ScanOrder]

def Step.after (d : Database) : Step → Database
  | unit ctx request => (request.handle ctx).after d
  | parameter ctx request => (request.handle ctx).after d
  | asset ctx request => (request.handle ctx).after d
  | item ctx request => (request.handle ctx).after d
  | elsewhere w _ _ => (d.apply w).toOption.getD d

def Step.KeepsUnits (d : Database) : Step → Prop
  | unit _ request => request.KeepsUnits d
  | parameter _ request => request.KeepsUnits d
  | asset _ request => request.KeepsUnits d
  | item .. | elsewhere .. => True

-- The states of the runs all of whose steps satisfy `P`.
inductive Reachable (P : Database → Step → Prop) : Database → Prop
  | init {d : Database} (hv : d.assetParameterValues = ∅) (hi : d.assetInventoryItems = ∅) :
    Reachable P d
  | step {d : Database} (s : Step) (h : Reachable P d) (hs : P d s) : Reachable P (s.after d)

structure Invariant (d : Database) : Prop extends CoherentBut [] d where
  stocked : InventoryItems.Stocked d.assets d

omit [TextFormats] [UnicodeSegmentation] [ScanOrder] in
theorem stocked_of_apply {w : Write} (h : InventoryItems.Stocked d.assets d) (hw : ¬IsStockWrite w)
    (ha : d.apply w = .ok d') : InventoryItems.Stocked d'.assets d' := by
  have hs := h.apply ha (by rintro w' rfl; exact hw trivial)
    (by rintro r (rfl | rfl) <;> exact absurd trivial hw)
  exact hs.same.symm ▸ hs

omit [TextFormats] [UnicodeSegmentation] [ScanOrder] in
theorem stocked_of_writes {α : Type} {p : Transaction α} (h : InventoryItems.Stocked d.assets d)
    (hp : p.Writes fun w => ¬IsStockWrite w) :
    InventoryItems.Stocked (p.after d).assets (p.after d) := by
  have hw := hp.wlp (J := fun d => InventoryItems.Stocked d.assets d) h fun w d₁ d₂ hw h ha =>
    stocked_of_apply h hw ha
  exact wp_after (J := fun d => InventoryItems.Stocked d.assets d) hw h

omit [TextFormats] [ScanOrder] in
theorem Request.handle_writes {ctx : LaboratoryContext} {request : Request} :
    (request.handle ctx).Writes fun w => ¬IsStockWrite w := by
  cases request
  case create =>
    refine readOnly_read.writes_bind fun _ => readOnly_require.writes_bind fun _ => ?_
    exact readOnly_ofExcept.writes_bind fun _ => writes_exec id
  case update =>
    refine readOnly_read.writes_bind fun _ => readOnly_require.writes_bind fun _ => ?_
    refine readOnly_ofExcept.writes_bind fun _ => readOnly_selectForUpdate.writes_bind fun r => ?_
    cases r
    case none => trivial
    case some => exact writes_exec id

theorem Invariant.step {s : Step} (h : Invariant d) (hs : s.KeepsUnits d) : Invariant (s.after d) := by
  cases s
  case unit ctx request =>
    exact ⟨coherent_unit h.toCoherentBut hs, stocked_of_writes h.stocked Request.handle_writes⟩
  case parameter ctx request =>
    refine ⟨coherent_parameter h.toCoherentBut hs, ?_⟩
    refine AssetParameters.performs_handle.after (J := fun d => InventoryItems.Stocked d.assets d)
      (fun w d₁ d₂ hw h ha => stocked_of_apply h (fun hn => ?_) ha) h.stocked
    cases w
    case assets | assetInventoryItems => exact (hw.choose_spec.right.elim id fun h => h.choose_spec)
    all_goals exact hn
  case asset ctx request =>
    refine ⟨coherent_of_asset h.toCoherentBut h.stocked hs, ?_⟩
    exact (Assets.performs_handle h.stocked).after (J := fun d => InventoryItems.Stocked d.assets d)
      Assets.closed_stocked h.stocked
  case item ctx request =>
    have hp : (request.handle ctx).performs InventoryItems.IsItemWrite (fun _ _ => True) d :=
      InventoryItems.performs_handle h.stocked
    refine ⟨hp.after (fun w d₁ d₂ hw h ha => h.apply ha <| not_isMeasureWrite_of_isItemWrite hw)
      h.toCoherentBut, ?_⟩
    have hs := (hp.after InventoryItems.closed_surrounded (.refl h.stocked)).stocked
    exact hs.same.symm ▸ hs
  case elsewhere w hm hn =>
    simp only [Step.after]
    cases ha : d.apply w
    case error => exact h
    case ok => exact ⟨h.toCoherentBut.apply ha hm, stocked_of_apply h.stocked hn ha⟩

theorem Reachable.invariant (h : Reachable Step.KeepsUnits d) : Invariant d := by
  induction h
  case init d hv hi =>
    have hbut : CoherentBut [] d := by constructor <;> simp [hv]
    exact ⟨hbut, rfl, by simp [hi]⟩
  case step hs ih => exact ih.step hs

theorem coherent_of_reachable (h : Reachable Step.KeepsUnits d) : Coherent d :=
  fun r hr => h.invariant.measured r hr List.not_mem_nil

end Reachable

-- An office that knows a unit, and a parameter that is measured in it.
def laboratory : Database where
  __ := Users.office
  units := {Assets.kilohertz}
  assetParameterTypes := {Assets.bandwidth}

def antenna : Assets.CreateJsonData where
  categoryId := none
  trackingMode := "serialized"
  name := "Antenna"
  model := none
  manufacturer := none
  inventoryUnitId := 4
  publicNotes := none
  internalNotes := none
  inventoryItems := none
  parameters := some [⟨5, Assets.twoKilohertz⟩]
  attachments := none

def newIds : Assets.NewGraphIds where
  asset := 3
  attachments := (100 + ·)
  inventoryItems _ := (200 + ·)
  parameterValues := (7 + ·)

def rescale (scaleToBase : ℚ) : UpdateJsonData where
  code := none
  name := none
  symbol := none
  dimension := none
  scaleToBase := some scaleToBase
  allowDecimal := none

def admin : LaboratoryContext := ⟨⟨2, .labAdmin, some 1⟩, 1⟩

-- The lab admin stores a value in a unit.
def measuredLaboratory : Database :=
  let _ := ScanOrder.stored
  let _ := tallied
  let _ := UnicodeSegmentation.characters
  (Step.asset admin (.create antenna newIds)).after laboratory

def rename (name : String) : UpdateJsonData where
  code := none
  name := some name
  symbol := none
  dimension := none
  scaleToBase := none
  allowDecimal := none

def renamedLaboratory : Database :=
  let _ := ScanOrder.stored
  let _ := tallied
  let _ := UnicodeSegmentation.characters
  (Step.unit admin (.update 4 (rename "Kilocycle"))).after measuredLaboratory

theorem coherent_renamedLaboratory :
    (renamedLaboratory.units.rows.map (·.name) = ["Kilocycle"] ∧
      renamedLaboratory.assetParameterValues.rows.any (·.columns.valueNumberInBase = some 2000)) ∧
    Coherent renamedLaboratory := by
  let _ := ScanOrder.stored
  let _ := tallied
  let _ := UnicodeSegmentation.characters
  have hv : AssetParameterValue.parse .number Assets.twoKilohertz = .ok (.number 2 (some 4)) := by
    decide +kernel
  have hk : (Step.asset admin (.create antenna newIds)).KeepsUnits laboratory := by
    intro t ht v hi _
    obtain rfl := Table.mem_singleton.mp ht
    obtain ⟨json, hm, hp⟩ := hi.input
    obtain hm | hm := List.mem_cons.mp hm
    · obtain rfl : json = Assets.twoKilohertz :=
        Option.some.inj <| congrArg AssetParameterValueInput.value hm
      obtain rfl := Except.ok.inj <| hv.symm.trans hp
      exact .inl rfl
    · cases hm
  have hr : Reachable Step.KeepsUnits laboratory := .init rfl rfl
  have hr := (hr.step _ hk).step (.unit admin (.update 4 (rename "Kilocycle"))) ?_
  case refine_1 => exact fun _ _ _ _ _ _ => ⟨nofun, nofun⟩
  exact ⟨by decide +kernel, coherent_of_reachable (d := renamedLaboratory) hr⟩

def rescaledLaboratory : Database :=
  let _ := ScanOrder.stored
  let _ := tallied
  let _ := UnicodeSegmentation.characters
  (Step.unit admin (.update 4 (rescale 1))).after measuredLaboratory

-- What has been converted with the old scale stays as it is.
theorem not_coherent_rescaledLaboratory :
    let _ := ScanOrder.stored
    let _ := tallied
    let _ := UnicodeSegmentation.characters
    ¬∀ d, Reachable (fun _ _ => True) d → Coherent d := by
  intro _ _ _ h
  have hr : Reachable (fun _ _ => True) laboratory := .init rfl rfl
  have hr := (hr.step (.asset admin (.create antenna newIds)) trivial).step
    (.unit admin (.update 4 (rescale 1))) trivial
  have hrows : rescaledLaboratory.assetParameterValues.rows =
      [Assets.bandwidthValue 2 (some 4) (some 2000)] := by decide +kernel
  have hm : Assets.bandwidthValue 2 (some 4) (some 2000) ∈ rescaledLaboratory.assetParameterValues :=
    Table.mem_def.mpr <| hrows ▸ .head _
  have ht : Assets.bandwidth ∈ rescaledLaboratory.assetParameterTypes := .head _
  have hn := (h rescaledLaboratory hr _ hm _ ht rfl).number
  have hc : convert rescaledLaboratory (some 4) (some 2) = some 2 := by decide +kernel
  cases hn.trans hc

end Units

end LabInventory
