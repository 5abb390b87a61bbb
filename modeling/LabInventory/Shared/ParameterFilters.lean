import LabInventory.Shared.ParameterValues

open Sql

namespace LabInventory

open Text

structure ParameterFilterInput where
  parameterTypeId : Uuid
  text : Option String
  numberMin : Option ℚ
  numberMax : Option ℚ
  rangeStart : Option ℚ
  rangeEnd : Option ℚ
  boolean : Option Bool
  dateStart : Option NaiveDate
  dateEnd : Option NaiveDate
  optionId : Option Uuid
  unitId : Option Uuid

inductive ParameterFilter
  | text (parameterTypeId : Uuid) (text : String)
  | number (parameterTypeId : Uuid) (min max : Option ℚ) (compareBase : Bool)
  | range (parameterTypeId : Uuid) (start stop : ℚ) (compareBase : Bool)
  | boolean (parameterTypeId : Uuid) (value : Bool)
  | date (parameterTypeId : Uuid) (start stop : Option NaiveDate)
  | enum (parameterTypeId optionId : Uuid)

def ParameterFilter.parameterTypeId : ParameterFilter → Uuid
  | text id _ | number id .. | range id .. | boolean id _ | date id .. | enum id _ => id

-- The operator `ILIKE`.
class PatternMatching where
  ilike (value pattern : String) : Bool

-- The patterns of `LIKE`.
def like : List Char → List Char → Bool
  | [], s => s.isEmpty
  | '%' :: p, s => s.tails.any (like p)
  | '_' :: p, _ :: s => like p s
  | '\\' :: c :: p, c' :: s => c = c' && like p s
  | c :: p, c' :: s => c = c' && like p s
  | _ :: _, [] => false

-- Only letters without accents are folded.
@[reducible]
def foldedMatching : PatternMatching where
  ilike value pattern := like (pattern.toList.map (·.toLower)) (value.toList.map (·.toLower))

namespace ParameterFilters

-- What the query parameter contains, once it has been deserialized.
inductive RawFilters
  | blank
  | malformed
  | inputs (inputs : List ParameterFilterInput)

def maxFilters : Nat :=
  20

def parseFilterInputs : RawFilters → Except String (List ParameterFilterInput)
  | .blank => return []
  | .malformed => throw "parameter_filters must be a JSON array"
  | .inputs inputs => do
    .check (inputs.length ≤ maxFilters)
      s!"parameter_filters cannot contain more than {maxFilters} conditions"
    .check (inputs.map (·.parameterTypeId)).Nodup
      "parameter_filters cannot contain duplicate parameter_type_id values"
    return inputs

def filterUnitId (definition : ParameterValueDefinition) (requestedUnitId : Option Uuid) :
    Option Uuid :=
  requestedUnitId <|> definition.defaultUnitId

def resolveFilterUnit (definition : ParameterValueDefinition) (requestedUnitId : Option Uuid)
    (units : Uuid → Option UnitRow) : Except String (Option UnitRow) :=
  match filterUnitId definition requestedUnitId with
  | none => do
    .check definition.unitDimension.isNone
      "Unit-based parameter filters require a unit_id or default unit"
    return none
  | some unitId => do
    let some unit := units unitId | throw "Unit not found"
    .check (definition.unitDimension = some unit.dimension)
      "Parameter filter unit dimension does not match parameter definition"
    return some unit

def scaleValue (value : ℚ) (unit : Option UnitRow) : ℚ :=
  match unit with
  | none => value
  | some unit => value * unit.scaleToBase

def scaleOptional (value : Option ℚ) (unit : Option UnitRow) : Option ℚ :=
  value.map (scaleValue · unit)

def normalizeFilter (input : ParameterFilterInput) (definition : ParameterValueDefinition)
    (units : Uuid → Option UnitRow) : Except String ParameterFilter :=
  match definition.dataType with
  | .text => do
    let text := trim (input.text.getD "")
    .check (text ≠ "") "Text parameter filters require text"
    return .text input.parameterTypeId text
  | .number => do
    .check (input.numberMin.isSome ∨ input.numberMax.isSome)
      "Number parameter filters require number_min or number_max"
    .check (input.numberMin.all fun min => input.numberMax.all (min ≤ ·))
      "number_min cannot exceed number_max"
    let unit ← resolveFilterUnit definition input.unitId units
    return .number input.parameterTypeId (scaleOptional input.numberMin unit)
      (scaleOptional input.numberMax unit) unit.isSome
  | .range => do
    let some start := input.rangeStart | throw "Range parameter filters require range_start"
    let some stop := input.rangeEnd | throw "Range parameter filters require range_end"
    .check (start ≤ stop) "range_start cannot exceed range_end"
    let unit ← resolveFilterUnit definition input.unitId units
    return .range input.parameterTypeId (scaleValue start unit) (scaleValue stop unit) unit.isSome
  | .boolean => do
    let some value := input.boolean | throw "Boolean parameter filters require boolean"
    return .boolean input.parameterTypeId value
  | .date => do
    .check (input.dateStart.isSome ∨ input.dateEnd.isSome)
      "Date parameter filters require date_start or date_end"
    .check (input.dateStart.all fun start => input.dateEnd.all (start ≤ ·))
      "date_start cannot be after date_end"
    return .date input.parameterTypeId input.dateStart input.dateEnd
  | .enum => do
    let some optionId := input.optionId | throw "Enum parameter filters require option_id"
    return .enum input.parameterTypeId optionId

def fetchParameterDefinition (laboratoryId parameterTypeId : Uuid) (d : Database) :
    Option ParameterValueDefinition :=
  ((d.assetParameterTypes.find? parameterTypeId).filter (·.laboratoryId = laboratoryId)).map
    fun r => { r with }

-- Units are looked up wherever they are.
def parseParameterFilters (laboratoryId : Uuid) (raw : RawFilters) (d : Database) :
    Except String (List ParameterFilter) := do
  let inputs ← parseFilterInputs raw
  inputs.mapM fun input => do
    let some definition := fetchParameterDefinition laboratoryId input.parameterTypeId d |
      throw "parameter_filters contain an unknown parameter_type_id"
    normalizeFilter input definition d.units.find?

-- A comparison with NULL is not true.
def within (min max : Option ℚ) (value : Option ℚ) : Bool :=
  min.all (fun min => value.any (min ≤ ·)) && max.all (fun max => value.any (· ≤ max))

-- The condition on a value. Amounts fall back to the raw ones.
def condition [PatternMatching] (c : ParameterValueColumns) : ParameterFilter → Bool
  | .text _ text => c.valueText.any (PatternMatching.ilike · s!"%{text}%")
  | .number _ min max compareBase =>
    within min max <| if compareBase then c.valueNumberInBase <|> c.valueNumber else c.valueNumber
  | .range _ start stop compareBase =>
    let startColumn :=
      if compareBase then c.valueRangeStartInBase <|> c.valueRangeStart else c.valueRangeStart
    let endColumn :=
      if compareBase then c.valueRangeEndInBase <|> c.valueRangeEnd else c.valueRangeEnd
    within none (some start) startColumn && within (some stop) none endColumn
  | .boolean _ value => c.valueBoolean.any (· = value)
  | .date _ start stop =>
    start.all (fun start => c.valueDate.any (start ≤ ·)) &&
    stop.all (fun stop => c.valueDate.any (· ≤ stop))
  | .enum _ optionId => c.valueOptionId.any (· = optionId)

-- Whether an asset is selected.
def pushParameterFilters [PatternMatching] (filters : List ParameterFilter) (assetId : Uuid)
    (d : Database) : Bool :=
  filters.all fun filter => d.assetParameterValues.rows.any fun r =>
    r.assetId = assetId && r.parameterTypeId = filter.parameterTypeId && condition r.columns filter

end ParameterFilters

end LabInventory
