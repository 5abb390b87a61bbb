import LabInventory.Schema

open Sql

namespace LabInventory

structure ParameterValueDefinition where
  parameterTypeId : Uuid
  dataType : AssetParameterDataType
  unitDimension : Option String
  defaultUnitId : Option Uuid

def AssetParameterTypeRow.definition (r : AssetParameterTypeRow) : ParameterValueDefinition :=
  { r with }

structure ResolvedParameterValue where
  parameterTypeId : Uuid
  dataType : AssetParameterDataType
  columns : ParameterValueColumns

namespace ParameterValues

def fetchUnit (unitId : Uuid) : Transaction UnitRow := do
  let some unit ← .selectForUpdate (.unit unitId) (·.units.find? unitId) |
    .abort (.validation "Unit not found")
  return unit

def normalizeUnitValue (definition : ParameterValueDefinition) (unitId : Option Uuid) (value : ℚ) :
    Transaction (Option Uuid × Option ℚ) := do
  let some unitId := unitId <|> definition.defaultUnitId | return (none, none)
  let unit ← fetchUnit unitId
  match definition.unitDimension with
  | some unitDimension =>
    .require (unitDimension = unit.dimension)
      (.validation "Parameter value unit dimension does not match parameter definition")
    return (some unit.unitId, some (value * unit.scaleToBase))
  | none => .abort (.validation "Parameter value unit is not allowed for this parameter")

def validateOption (parameterTypeId optionId : Uuid) : Transaction Unit := do
  let found ← .selectForUpdate (.assetParameterOption optionId) fun d =>
    (d.assetParameterOptions.find? optionId).filter (·.parameterTypeId = parameterTypeId)
  .require found.isSome (.validation "Asset parameter option not found")

def resolveColumns (definition : ParameterValueDefinition) :
    AssetParameterValue → Transaction ParameterValueColumns
  | .text text => return { ParameterValueColumns.empty with valueText := some text }
  | .number number unitId => do
    let (unitId, numberBase) ← normalizeUnitValue definition unitId number
    return { ParameterValueColumns.empty with
      valueNumber := some number
      valueNumberInBase := numberBase
      unitId
    }
  | .range start stop unitId => do
    let (unitId, startBase) ← normalizeUnitValue definition unitId start
    let (_, endBase) ← normalizeUnitValue definition unitId stop
    return { ParameterValueColumns.empty with
      valueRangeStart := some start
      valueRangeEnd := some stop
      valueRangeStartInBase := startBase
      valueRangeEndInBase := endBase
      unitId
    }
  | .boolean boolean => return { ParameterValueColumns.empty with valueBoolean := some boolean }
  | .date date => return { ParameterValueColumns.empty with valueDate := some date }
  | .enum optionId => do
    validateOption definition.parameterTypeId optionId
    return { ParameterValueColumns.empty with valueOptionId := some optionId }

def resolveParameterValue [TextFormats] (definition : ParameterValueDefinition) (value : Json) :
    Transaction ResolvedParameterValue := do
  let value ← .validated <| AssetParameterValue.parse definition.dataType value
  let columns ← resolveColumns definition value
  return { parameterTypeId := definition.parameterTypeId, dataType := definition.dataType, columns }

variable {definition : ParameterValueDefinition}

theorem normalizeUnitValue_readOnly {unitId value} :
    (normalizeUnitValue definition unitId value).ReadOnly := by
  unfold normalizeUnitValue
  split
  case h_1 unitId _ =>
    refine Program.ReadOnly.bind ?_ fun unit => ?_
    case refine_1 =>
      refine Program.readOnly_selectForUpdate.bind fun unit => ?_
      cases unit <;> trivial
    case refine_2 =>
      split
      case h_1 => exact Program.readOnly_require.bind fun _ => trivial
      case h_2 => trivial
  case h_2 => trivial

theorem resolveColumns_readOnly {value} : (resolveColumns definition value).ReadOnly := by
  cases value
  case text | boolean | date => trivial
  case number => exact normalizeUnitValue_readOnly.bind fun _ => trivial
  case range =>
    exact normalizeUnitValue_readOnly.bind fun _ => normalizeUnitValue_readOnly.bind fun _ => trivial
  case enum =>
    refine Program.ReadOnly.bind ?_ fun _ => trivial
    exact Program.readOnly_selectForUpdate.bind fun _ => Program.readOnly_require

theorem resolveParameterValue_readOnly [TextFormats] {value} :
    (resolveParameterValue definition value).ReadOnly :=
  Program.readOnly_ofExcept.bind fun _ => resolveColumns_readOnly.bind fun _ => trivial

-- What becomes of an amount: without a unit, it is not converted.
def Normalizes (definition : ParameterValueDefinition) (d : Database) (unitId : Option Uuid)
    (value : ℚ) (result : Option Uuid × Option ℚ) : Prop :=
  match unitId <|> definition.defaultUnitId with
  | none => result = (none, none)
  | some unitId => ∃ unit, d.units.find? unitId = some unit ∧
    definition.unitDimension = some unit.dimension ∧
    result = (some unitId, some (value * unit.scaleToBase))

def Resolves (definition : ParameterValueDefinition) (d : Database) :
    AssetParameterValue → ParameterValueColumns → Prop
  | .text text, columns => columns = { ParameterValueColumns.empty with valueText := some text }
  | .number number unitId, columns => ∃ result, Normalizes definition d unitId number result ∧
    columns = { ParameterValueColumns.empty with
      valueNumber := some number
      valueNumberInBase := result.2
      unitId := result.1
    }
  | .range start stop unitId, columns =>
    ∃ result₁ result₂, Normalizes definition d unitId start result₁ ∧
    Normalizes definition d result₁.1 stop result₂ ∧
    columns = { ParameterValueColumns.empty with
      valueRangeStart := some start
      valueRangeEnd := some stop
      valueRangeStartInBase := result₁.2
      valueRangeEndInBase := result₂.2
      unitId := result₁.1
    }
  | .boolean boolean, columns =>
    columns = { ParameterValueColumns.empty with valueBoolean := some boolean }
  | .date date, columns => columns = { ParameterValueColumns.empty with valueDate := some date }
  | .enum optionId, columns =>
    (∃ o, d.assetParameterOptions.find? optionId = some o ∧
      o.parameterTypeId = definition.parameterTypeId) ∧
    columns = { ParameterValueColumns.empty with valueOptionId := some optionId }

section Resolves

open Program

variable {d : Database} {I : Database → Prop} {R : ApiError → Prop}

theorem wlp_normalizeUnitValue {unitId : Option Uuid} {value : ℚ}
    {Q : Option Uuid × Option ℚ → Database → Prop}
    (hq : ∀ result, Normalizes definition d unitId value result → Q result d) :
    (normalizeUnitValue definition unitId value).wlp Q d := by
  unfold normalizeUnitValue
  unfold Normalizes at hq
  cases hu : unitId <|> definition.defaultUnitId
  case none => exact hq _ (by rw [hu])
  case some unitId =>
    rw [hu] at hq
    simp only [fetchUnit, wp_bind, wp_selectForUpdate]
    cases hf : d.units.find? unitId
    case none => trivial
    case some unit =>
      obtain rfl : unit.unitId = unitId := (Table.find?_eq_some.mp hf).right
      split
      case h_2 => trivial
      case h_1 unitDimension hd =>
        refine wp_bind.mpr <| wp_require.mpr ⟨fun he => hq _ ⟨unit, hf, ?_, rfl⟩, fun _ => trivial⟩
        exact hd.trans <| congrArg some he

theorem wp_normalizeUnitValue {unitId : Option Uuid} {value : ℚ} {result : Option Uuid × Option ℚ}
    {Q : Option Uuid × Option ℚ → Database → Prop} (h : Normalizes definition d unitId value result)
    (hq : Q result d) : (normalizeUnitValue definition unitId value).wp I R Q d := by
  unfold normalizeUnitValue
  unfold Normalizes at h
  cases hu : unitId <|> definition.defaultUnitId
  case none =>
    rw [hu] at h
    exact h ▸ hq
  case some unitId =>
    rw [hu] at h
    obtain ⟨unit, hf, hd, rfl⟩ := h
    obtain rfl : unit.unitId = unitId := (Table.find?_eq_some.mp hf).right
    simp only [fetchUnit, wp_bind, wp_selectForUpdate, hf, hd]
    exact wp_require.mpr ⟨fun _ => hq, fun hn => absurd rfl hn⟩

theorem wlp_resolveColumns {v : AssetParameterValue} {Q : ParameterValueColumns → Database → Prop}
    (hq : ∀ columns, Resolves definition d v columns → Q columns d) :
    (resolveColumns definition v).wlp Q d := by
  cases v
  case text | boolean | date => exact hq _ rfl
  case number number unitId =>
    exact wp_bind.mpr <| wlp_normalizeUnitValue fun result h => hq _ ⟨result, h, rfl⟩
  case range start stop unitId =>
    refine wp_bind.mpr <| wlp_normalizeUnitValue fun result₁ h₁ => ?_
    exact wp_bind.mpr <| wlp_normalizeUnitValue fun result₂ h₂ => hq _ ⟨result₁, result₂, h₁, h₂, rfl⟩
  case enum optionId =>
    simp only [resolveColumns, validateOption, wp_bind, wp_selectForUpdate, wp_require]
    refine ⟨fun hf => hq _ ⟨?_, rfl⟩, fun _ => trivial⟩
    obtain ⟨o, ho⟩ := Option.isSome_iff_exists.mp hf
    obtain ⟨ho, hp⟩ := Option.filter_eq_some_iff.mp ho
    exact ⟨o, ho, of_decide_eq_true hp⟩

theorem wp_resolveColumns {v : AssetParameterValue} {columns : ParameterValueColumns}
    {Q : ParameterValueColumns → Database → Prop} (h : Resolves definition d v columns)
    (hq : Q columns d) : (resolveColumns definition v).wp I R Q d := by
  cases v
  case text | boolean | date =>
    obtain rfl := h
    exact hq
  case number number unitId =>
    obtain ⟨result, h, rfl⟩ := h
    exact wp_bind.mpr <| wp_normalizeUnitValue h hq
  case range start stop unitId =>
    obtain ⟨result₁, result₂, h₁, h₂, rfl⟩ := h
    exact wp_bind.mpr <| wp_normalizeUnitValue h₁ <| wp_bind.mpr <| wp_normalizeUnitValue h₂ hq
  case enum optionId =>
    obtain ⟨⟨o, ho, hp⟩, rfl⟩ := h
    have hf : (d.assetParameterOptions.find? optionId).filter
        (·.parameterTypeId = definition.parameterTypeId) = some o :=
      Option.filter_eq_some_iff.mpr ⟨ho, decide_eq_true hp⟩
    simp only [resolveColumns, validateOption, wp_bind, wp_selectForUpdate, wp_require, hf]
    exact ⟨fun _ => hq, fun hn => absurd rfl hn⟩

theorem wlp_resolveParameterValue [TextFormats] {value : Json}
    {Q : ResolvedParameterValue → Database → Prop}
    (hq : ∀ v columns, AssetParameterValue.parse definition.dataType value = .ok v →
      Resolves definition d v columns →
      Q ⟨definition.parameterTypeId, definition.dataType, columns⟩ d) :
    (resolveParameterValue definition value).wlp Q d := by
  simp only [resolveParameterValue, wp_bind, Transaction.wp_validated]
  exact ⟨fun v hv => wlp_resolveColumns fun columns h => hq v columns hv h, fun _ _ => trivial⟩

theorem wp_resolveParameterValue [TextFormats] {value : Json} {v : AssetParameterValue}
    {columns : ParameterValueColumns} {Q : ResolvedParameterValue → Database → Prop}
    (hv : AssetParameterValue.parse definition.dataType value = .ok v)
    (h : Resolves definition d v columns)
    (hq : Q ⟨definition.parameterTypeId, definition.dataType, columns⟩ d) :
    (resolveParameterValue definition value).wp I R Q d := by
  simp only [resolveParameterValue, wp_bind, Transaction.wp_validated, hv, Except.ok.injEq,
    forall_eq', reduceCtorEq, false_implies, implies_true, and_true]
  exact wp_resolveColumns h hq

-- Only the units and the options matter.
theorem Resolves.frame {d' : Database} {v : AssetParameterValue} {columns : ParameterValueColumns}
    (h : Resolves definition d v columns) (hu : d'.units = d.units)
    (ho : d'.assetParameterOptions = d.assetParameterOptions) : Resolves definition d' v columns := by
  cases v <;> simpa only [Resolves, Normalizes, hu, ho] using h

end Resolves

end ParameterValues

end LabInventory
