import LabInventory.Attachments.Basic
import LabInventory.Shared.ParameterValues

open Sql

namespace LabInventory

structure NewAssetParameterOption where
  code : String
  label : String
  sortOrder : Int

structure NewAssetParameter where
  code : String
  name : String
  dataType : AssetParameterDataType
  unitDimension : Option String
  defaultUnitId : Option Uuid
  description : Option String
  options : List NewAssetParameterOption

structure UpdateAssetParameterOption where
  optionId : Option Uuid
  code : String
  label : String
  sortOrder : Int

-- Without a value, the stored value is removed.
structure UpdateAssetParameterValueMigration where
  valueId : Uuid
  value : Option Json

structure UpdateAssetParameter where
  code : Option String
  name : Option String
  dataType : Option AssetParameterDataType
  unitDimension : NullableUpdate String
  defaultUnitId : NullableUpdate Uuid
  description : NullableUpdate String
  options : Option (List UpdateAssetParameterOption)
  valueMigrations : Option (List UpdateAssetParameterValueMigration)

-- The columns of the data type are replaced, and those of other types are kept. Only the option is
-- never kept: leaving the enum type deletes it.
def ParameterValueColumns.migrate (old : ParameterValueColumns) (dataType : AssetParameterDataType)
    (new : ParameterValueColumns) : ParameterValueColumns where
  valueText := if dataType = .text then new.valueText else old.valueText
  valueNumber := if dataType = .number then new.valueNumber else old.valueNumber
  valueNumberInBase := if dataType = .number then new.valueNumberInBase else old.valueNumberInBase
  valueRangeStart := if dataType = .range then new.valueRangeStart else old.valueRangeStart
  valueRangeEnd := if dataType = .range then new.valueRangeEnd else old.valueRangeEnd
  valueRangeStartInBase :=
    if dataType = .range then new.valueRangeStartInBase else old.valueRangeStartInBase
  valueRangeEndInBase :=
    if dataType = .range then new.valueRangeEndInBase else old.valueRangeEndInBase
  unitId := if dataType.IsNumeric then new.unitId else old.unitId
  valueBoolean := if dataType = .boolean then new.valueBoolean else old.valueBoolean
  valueDate := if dataType = .date then new.valueDate else old.valueDate
  valueOptionId := if dataType = .enum then new.valueOptionId else none

namespace AssetParameters

def mapDatabaseError (c : Constraint) : ApiError :=
  if c = .assetParameterTypesCodeKey then
    .conflict "Asset parameter code already exists in this laboratory"
  else if c = .assetParameterOptionsCodeKey then
    .conflict "Asset parameter option code already exists"
  else if c.isForeignKey then
    .validation "Invalid referenced record"
  else if c.isCheck then
    .validation "Invalid asset parameter"
  else
    .conflict "Asset parameter already exists"

def mapParameterDeleteError (c : Constraint) : ApiError :=
  if c.isForeignKey then
    .conflict "Asset parameter is referenced by other records"
  else
    mapDatabaseError c

def mapOptionDeleteError (c : Constraint) : ApiError :=
  if c.isForeignKey then
    .conflict "Asset parameter option is referenced by asset values"
  else
    mapDatabaseError c

structure OptionJsonData where
  optionId : Option Uuid
  code : String
  label : String
  sortOrder : Option Int

-- A new parameter's options cannot come with an id.
structure NewOptionJsonData where
  code : String
  label : String
  sortOrder : Option Int

structure ValueMigrationJsonData where
  valueId : Uuid
  value : Json

structure CreateJsonData where
  code : String
  name : String
  dataType : String
  unitDimension : Option String
  defaultUnitId : Option Uuid
  description : Option String
  options : Option (List NewOptionJsonData)

structure UpdateJsonData where
  code : Option String
  name : Option String
  dataType : Option String
  unitDimension : Option (Option String)
  defaultUnitId : Option (Option Uuid)
  description : Option (Option String)
  options : Option (List OptionJsonData)
  valueMigrations : Option (List ValueMigrationJsonData)

def ValueMigrationJsonData.toMigration (migration : ValueMigrationJsonData) :
    UpdateAssetParameterValueMigration where
  valueId := migration.valueId
  value := match migration.value with
    | .null => none
    | value => some value

section Parsing

variable [UnicodeSegmentation]

def NewOptionJsonData.toOption (value : NewOptionJsonData) :
    Except String NewAssetParameterOption := do
  let code ← AssetParameterCode.parse value.code
  let label ← AssetParameterOptionLabel.parse value.label
  return { code, label, sortOrder := value.sortOrder.getD 0 }

def OptionJsonData.toOption (value : OptionJsonData) :
    Except String UpdateAssetParameterOption := do
  let code ← AssetParameterCode.parse value.code
  let label ← AssetParameterOptionLabel.parse value.label
  return { optionId := value.optionId, code, label, sortOrder := value.sortOrder.getD 0 }

def CreateJsonData.toNewAssetParameter (value : CreateJsonData) :
    Except String NewAssetParameter := do
  let options ← (value.options.getD []).mapM NewOptionJsonData.toOption
  let code ← AssetParameterCode.parse value.code
  let name ← AssetParameterName.parse value.name
  let dataType ← AssetParameterDataType.parse value.dataType
  let unitDimension ← value.unitDimension.mapM UnitDimension.parse
  return { value with code, name, dataType, unitDimension, options }

def UpdateJsonData.toUpdateAssetParameter (value : UpdateJsonData) :
    Except String UpdateAssetParameter := do
  let unitDimension ← value.unitDimension.mapM fun dimension => dimension.mapM UnitDimension.parse
  let options ← value.options.mapM fun options => options.mapM OptionJsonData.toOption
  let code ← value.code.mapM AssetParameterCode.parse
  let name ← value.name.mapM AssetParameterName.parse
  let dataType ← value.dataType.mapM AssetParameterDataType.parse
  return {
    code, name, dataType
    unitDimension := .ofOption unitDimension
    defaultUnitId := .ofOption value.defaultUnitId
    description := .ofOption value.description
    options
    valueMigrations := value.valueMigrations.map (·.map ValueMigrationJsonData.toMigration)
  }

end Parsing

def fetchAssetParameterForUpdate (parameterId : Uuid) :
    Transaction (Option AssetParameterTypeRow) :=
  .selectForUpdate (.assetParameterType parameterId) (·.assetParameterTypes.find? parameterId)

def optionsOf (parameterId : Uuid) (d : Database) : List AssetParameterOptionRow :=
  d.assetParameterOptions.rows.filter (·.parameterTypeId = parameterId)

def valuesOf (parameterId : Uuid) (d : Database) : List AssetParameterValueRow :=
  d.assetParameterValues.rows.filter (·.parameterTypeId = parameterId)

-- In which order the options are listed only matters to the response.
def fetchAssetParameterOptionsForUpdate [ScanOrder] (parameterId : Uuid) :
    Transaction (List AssetParameterOptionRow) :=
  .selectAllForUpdate (fun d => ScanOrder.visit (optionsOf parameterId d))
    (.assetParameterOption ·.optionId) fun d r =>
      (d.assetParameterOptions.find? r.optionId).filter (·.parameterTypeId = parameterId)

-- Values are listed together with their asset.
def fetchAssetParameterValuesForUpdate [ScanOrder] (parameterId : Uuid) :
    Transaction (List AssetParameterValueRow) :=
  .selectAllForUpdate (fun d => ScanOrder.visit (valuesOf parameterId d))
    (.assetParameterValue ·.valueId) fun d r =>
      (d.assetParameterValues.find? r.valueId).filter (·.parameterTypeId = parameterId)

def fetchAssetParameterAssignmentsForUpdate [ScanOrder] (parameterId : Uuid) : Transaction Unit :=
  .forAll (fun d => d.assetParameterAssignments.rows.filter (·.parameterTypeId = parameterId))
    (.assetParameterAssignment ·.assignmentId) fun _ => .done ()

def insertAssetParameter (r : AssetParameterTypeRow) : Transaction Unit :=
  .exec (.assetParameterTypes <| .insert r) mapDatabaseError

-- The row has been locked by `fetchAssetParameterForUpdate`.
def updateAssetParameterInDatabase (r : AssetParameterTypeRow) : Transaction Unit :=
  .exec (.assetParameterTypes <| .update r) mapDatabaseError

def deleteAssetParameterFromDatabase (parameterId : Uuid) : Transaction Unit :=
  .exec (.assetParameterTypes <| .delete parameterId) mapParameterDeleteError

def insertNewAssetParameterOption (parameterId newId : Uuid) (option : NewAssetParameterOption) :
    Transaction Unit := do
  .bindTexts [option.code, option.label]
  .exec (.assetParameterOptions <| .insert { option with
    optionId := newId
    parameterTypeId := parameterId
  }) mapDatabaseError

def insertAssetParameterOption (parameterId newId : Uuid) (option : UpdateAssetParameterOption) :
    Transaction Unit := do
  .bindTexts [option.code, option.label]
  .exec (.assetParameterOptions <| .insert {
    optionId := newId
    parameterTypeId := parameterId
    code := option.code
    label := option.label
    sortOrder := option.sortOrder
  }) mapDatabaseError

def insertMigratedAssetParameterOption (parameterId newId : Uuid) (code label : String) :
    Transaction Uuid := do
  .bindTexts [code, label]
  .exec (.assetParameterOptions <| .insert {
    optionId := newId
    parameterTypeId := parameterId
    code, label
    sortOrder := 0
  }) mapDatabaseError
  return newId

def updateAssetParameterOption (optionId : Uuid) (option : UpdateAssetParameterOption) :
    Transaction Unit := do
  .bindTexts [option.code, option.label]
  let some r ← .selectForUpdate (.assetParameterOption optionId)
    (·.assetParameterOptions.find? optionId) | return
  .exec (.assetParameterOptions <| .update { r with
    code := option.code
    label := option.label
    sortOrder := option.sortOrder
  }) mapDatabaseError

def deleteOptions [ScanOrder] (isDeleted : AssetParameterOptionRow → Bool) : Transaction Unit :=
  .forAll (fun d => d.assetParameterOptions.rows.filter isDeleted) (.assetParameterOption ·.optionId)
    fun r => .exec (.assetParameterOptions <| .delete r.optionId) mapOptionDeleteError

def deleteRemovedAssetParameterOptions [ScanOrder] (parameterId : Uuid)
    (retainedOptionIds : List Uuid) : Transaction Unit :=
  deleteOptions fun r => r.parameterTypeId = parameterId ∧ r.optionId ∉ retainedOptionIds

def deleteAssetParameterOptions [ScanOrder] (parameterId : Uuid) : Transaction Unit :=
  deleteOptions (·.parameterTypeId = parameterId)

def fetchAssetParameterOptionIdByCode (parameterId : Uuid) (code : String) :
    Transaction (Option Uuid) :=
  .read fun d => (d.assetParameterOptions.rows.find? fun r =>
    r.parameterTypeId = parameterId ∧ r.code = code).map (·.optionId)

-- The values have been locked by `fetchAssetParameterValuesForUpdate`.
def migrateAssetParameterValueInDatabase (valueId : Uuid) (dataType : AssetParameterDataType)
    (value : ResolvedParameterValue) : Transaction Unit := do
  let some r ← .read (·.assetParameterValues.find? valueId) | return
  .exec (.assetParameterValues <| .update { r with
    dataType
    columns := r.columns.migrate dataType value.columns
  }) mapDatabaseError

def deleteAssetParameterValueFromDatabase (valueId : Uuid) : Transaction Unit :=
  .exec (.assetParameterValues <| .delete valueId) mapDatabaseError

def fetchUnitDimensionForUpdate (unitId : Uuid) : Transaction (Option String) :=
  .selectForUpdate (.unit unitId) fun d => (d.units.find? unitId).map (·.dimension)

def validateNewOptions (dataType : AssetParameterDataType)
    (options : List NewAssetParameterOption) : Except ApiError Unit := do
  .check (dataType ≠ .enum → options = [])
    (.validation "Options are only allowed for enum asset parameters")
  .check (dataType = .enum → options ≠ [])
    (.validation "Enum asset parameters require at least one option")
  .check (options.map (·.code)).Nodup (.validation "Option codes must be unique")

def validateUniqueOptions (seenIds : List Uuid) (seenCodes : List String) :
    List UpdateAssetParameterOption → Except ApiError Unit
  | [] => return
  | option :: options => do
    .check (¬option.optionId.any seenIds.contains) (.validation "Option ids must be unique")
    .check (¬seenCodes.contains option.code) (.validation "Option codes must be unique")
    validateUniqueOptions (option.optionId.toList ++ seenIds) (option.code :: seenCodes) options

def validateUpdateOptionList (options : List UpdateAssetParameterOption) :
    Except ApiError Unit := do
  .check (options ≠ []) (.validation "Enum asset parameters require at least one option")
  validateUniqueOptions [] [] options

def validateUpdatedOptions (dataType : AssetParameterDataType)
    (updateOptions : Option (List UpdateAssetParameterOption))
    (existingOptions : List AssetParameterOptionRow) : Except ApiError Unit :=
  if dataType ≠ .enum then
    .check (updateOptions.all (· matches []))
      (.validation "Options are only allowed for enum asset parameters")
  else
    match updateOptions with
    | some options => validateUpdateOptionList options
    | none => .check (existingOptions ≠ [])
      (.validation "Enum asset parameters require at least one option")

-- Any string counts as the declaration of an option.
def migrationsDeclareOptions (migrations : Option (List UpdateAssetParameterValueMigration)) :
    Bool :=
  (migrations.getD []).any fun migration =>
    (migration.value.bind (·.get "option_code")).any (· matches .string _)

def validateEnumOptionsForTypeChange (updateOptions : Option (List UpdateAssetParameterOption))
    (migrationsDeclareOptions : Bool) (existingOptions : List AssetParameterOptionRow) :
    Except ApiError Unit :=
  if updateOptions.any (· ≠ []) then
    validateUpdatedOptions .enum updateOptions existingOptions
  else
    .check migrationsDeclareOptions
      (.validation "Enum asset parameters require at least one option")

def validateUniqueMigrations (knownValueIds seenIds : List Uuid) :
    List UpdateAssetParameterValueMigration → Except ApiError Unit
  | [] => return
  | migration :: migrations => do
    .check (¬seenIds.contains migration.valueId)
      (.validation "Asset parameter value migrations must be unique")
    .check (knownValueIds.contains migration.valueId)
      (.validation "Asset parameter value not found")
    validateUniqueMigrations knownValueIds (migration.valueId :: seenIds) migrations

def validateValueMigrations (values : List AssetParameterValueRow) :
    Option (List UpdateAssetParameterValueMigration) → Except ApiError Unit
  | none => .check (values = []) (.validation <|
    s!"All {values.length} stored values must be migrated when the asset parameter data type " ++
    "changes")
  | some migrations => do
    validateUniqueMigrations (values.map (·.valueId)) [] migrations
    .check (migrations.length = values.length) (.validation <|
      s!"{values.length - migrations.length} stored values are missing from the asset parameter " ++
      "value migration")

-- A default unit decides about the dimension.
def normalizeUnitConfiguration (dataType : AssetParameterDataType) (unitDimension : Option String)
    (defaultUnitId : Option Uuid) : Transaction (Option String) := do
  if dataType.IsNumeric then
    let some defaultUnitId := defaultUnitId | return unitDimension
    let some defaultUnitDimension ← fetchUnitDimensionForUpdate defaultUnitId |
      .abort (.validation "Default unit not found")
    .require (unitDimension.all (· = defaultUnitDimension))
      (.validation "Default unit dimension does not match asset parameter unit dimension")
    return some defaultUnitDimension
  else
    .require (unitDimension.isNone ∧ defaultUnitId.isNone)
      (.validation "Units are only allowed for number or range asset parameters")
    return none

def insertNewOptions (parameterId : Uuid) (newIds : NewIds) :
    List NewAssetParameterOption → Transaction Unit
  | [] => return
  | option :: options => do
    insertNewAssetParameterOption parameterId (newIds 0) option
    insertNewOptions parameterId (newIds <| · + 1) options

-- An option is matched to a stored one by its id, or else by its code.
def matchOption (existingOptions : List AssetParameterOptionRow)
    (option : UpdateAssetParameterOption) : Option Uuid :=
  option.optionId <|> (existingOptions.find? (·.code = option.code)).map (·.optionId)

def applyOptions (parameterId : Uuid) (existingOptions : List AssetParameterOptionRow)
    (newIds : NewIds) : List UpdateAssetParameterOption → Transaction Unit
  | [] => return
  | option :: options => do
    match matchOption existingOptions option with
    | some optionId => updateAssetParameterOption optionId option
    | none => insertAssetParameterOption parameterId (newIds 0) option
    applyOptions parameterId existingOptions (newIds <| · + 1) options

def replaceOptions [ScanOrder] (parameterId : Uuid)
    (existingOptions : List AssetParameterOptionRow) (options : List UpdateAssetParameterOption)
    (newIds : NewIds) : Transaction Unit := do
  .require (options.all fun option => option.optionId.all fun optionId =>
    existingOptions.any (·.optionId = optionId)) (.validation "Asset parameter option not found")
  deleteRemovedAssetParameterOptions parameterId (options.filterMap (matchOption existingOptions))
  applyOptions parameterId existingOptions newIds options

def applyOptionUpdates [ScanOrder] (parameterId : Uuid) (dataType : AssetParameterDataType)
    (existingOptions : List AssetParameterOptionRow)
    (updateOptions : Option (List UpdateAssetParameterOption)) (newIds : NewIds) :
    Transaction Unit :=
  if dataType = .enum then
    match updateOptions with
    | some options => replaceOptions parameterId existingOptions options newIds
    | none => return
  else
    deleteAssetParameterOptions parameterId

variable [TextFormats] [UnicodeSegmentation]

def optionReference (optionId : Uuid) : Json :=
  .object [("option_id", .string (UuidFormat.showUuid optionId))]

-- Without a label, the code has to do.
def migrationLabel (value : Json) (code : String) : Option String :=
  match value.get "option_label" with
  | some label => label.asStr
  | none => some code

-- A migration may name an option by a code, which the parameter gets if it does not have it yet.
def resolveMigrationTarget (parameterId : Uuid) (dataType : AssetParameterDataType) (value : Json)
    (newId : Uuid) : Transaction Json := do
  if dataType ≠ .enum ∨ (value.get "option_id").isSome ∨ (value.get "option_code").isNone then
    return value
  let some code := (value.get "option_code").bind Json.asStr |
    .abort (.validation "Asset parameter option code must be a string")
  if let some optionId ← fetchAssetParameterOptionIdByCode parameterId code then
    return optionReference optionId
  let some label := migrationLabel value code |
    .abort (.validation "Asset parameter option label must be a string")
  let code ← .validated <| AssetParameterCode.parse code
  let label ← .validated <| AssetParameterOptionLabel.parse label
  let optionId ← insertMigratedAssetParameterOption parameterId newId code label
  return optionReference optionId

def migrateParameterValue (definition : ParameterValueDefinition)
    (migrations : List UpdateAssetParameterValueMigration) (newId : Uuid)
    (value : AssetParameterValueRow) : Transaction Unit := do
  let some migration := migrations.find? (·.valueId = value.valueId) |
    .abort (.validation
      "All stored values must be migrated when the asset parameter data type changes")
  match migration.value with
  | some target =>
    let target ← resolveMigrationTarget definition.parameterTypeId definition.dataType target newId
    let resolved ← ParameterValues.resolveParameterValue definition target
    migrateAssetParameterValueInDatabase value.valueId definition.dataType resolved
  | none => deleteAssetParameterValueFromDatabase value.valueId

def migrateParameterValues (definition : ParameterValueDefinition)
    (migrations : List UpdateAssetParameterValueMigration) (newIds : NewIds) :
    List AssetParameterValueRow → Transaction Unit
  | [] => return
  | value :: values => do
    migrateParameterValue definition migrations (newIds 0) value
    migrateParameterValues definition migrations (newIds <| · + 1) values

def createAssetParameter (ctx : LaboratoryContext) (payload : CreateJsonData) (newId : Uuid)
    (newOptionIds : NewIds) : Transaction Unit := do
  let permitted ← .read (validatePermission · ctx.actor .assetParameter (.create ctx.laboratoryId))
  .require permitted (.forbidden "You don't have permission to create asset parameters.")
  let new ← .validated payload.toNewAssetParameter
  .ofExcept <| validateNewOptions new.dataType new.options
  let unitDimension ← normalizeUnitConfiguration new.dataType new.unitDimension new.defaultUnitId
  insertAssetParameter {
    parameterTypeId := newId
    laboratoryId := ctx.laboratoryId
    code := new.code
    name := new.name
    dataType := new.dataType
    unitDimension
    defaultUnitId := new.defaultUnitId
    description := new.description
  }
  insertNewOptions newId newOptionIds new.options

-- Only a change of the data type asks for migrations.
def fetchMigratedValues [ScanOrder] (update : UpdateAssetParameter) (parameterId : Uuid)
    (dataTypeChanged : Bool) : Transaction (List AssetParameterValueRow) := do
  if dataTypeChanged then
    let existingValues ← fetchAssetParameterValuesForUpdate parameterId
    .ofExcept <| validateValueMigrations existingValues update.valueMigrations
    return existingValues
  else
    .require update.valueMigrations.isNone (.validation
      "Value migrations are only allowed when the asset parameter data type changes")
    return []

def validateOptions (update : UpdateAssetParameter) (existing : AssetParameterTypeRow)
    (existingOptions : List AssetParameterOptionRow) : Except ApiError Unit :=
  let dataType := update.dataType.getD existing.dataType
  if dataType ≠ existing.dataType ∧ dataType = .enum then
    validateEnumOptionsForTypeChange update.options
      (migrationsDeclareOptions update.valueMigrations) existingOptions
  else
    validateUpdatedOptions dataType update.options existingOptions

def updateParameterRow (update : UpdateAssetParameter) (existing : AssetParameterTypeRow) :
    Transaction AssetParameterTypeRow := do
  let dataType := update.dataType.getD existing.dataType
  let currentUnitDimension ← .validated <| existing.unitDimension.mapM UnitDimension.parse
  let defaultUnitId := update.defaultUnitId.resolve existing.defaultUnitId
  let unitDimension ← normalizeUnitConfiguration dataType
    (update.unitDimension.resolve currentUnitDimension) defaultUnitId
  let updated := { existing with
    code := update.code.getD existing.code
    name := update.name.getD existing.name
    dataType, unitDimension, defaultUnitId
    description := update.description.resolve existing.description
  }
  updateAssetParameterInDatabase updated
  return updated

-- The options of a new enum have to exist before its values refer to them, and options can only be
-- deleted once no value refers to them anymore.
def updateOptionsAndValues [ScanOrder] (update : UpdateAssetParameter)
    (existing updated : AssetParameterTypeRow) (existingOptions : List AssetParameterOptionRow)
    (existingValues : List AssetParameterValueRow) (newIds newMigratedIds : NewIds) :
    Transaction Unit := do
  let applyOptionUpdates := applyOptionUpdates updated.parameterTypeId updated.dataType
    existingOptions update.options newIds
  let migrate := migrateParameterValues { updated with } (update.valueMigrations.getD [])
    newMigratedIds existingValues
  if updated.dataType = existing.dataType then
    applyOptionUpdates
  else if updated.dataType = .enum then
    applyOptionUpdates
    migrate
  else
    migrate
    applyOptionUpdates

def updateAssetParameter [ScanOrder] (ctx : LaboratoryContext) (parameterId : Uuid)
    (payload : UpdateJsonData) (newIds newMigratedIds : NewIds) : Transaction Unit := do
  let permitted ←
    .read (validatePermission · ctx.authorizationActor .assetParameter (.update parameterId))
  .require permitted (.forbidden "You are not allowed to update this asset parameter.")
  let update ← .validated payload.toUpdateAssetParameter
  let some existing ← fetchAssetParameterForUpdate parameterId |
    .abort (.notFound "Asset parameter not found")
  let existingOptions ← fetchAssetParameterOptionsForUpdate existing.parameterTypeId
  .ofExcept <| validateOptions update existing existingOptions
  let existingValues ← fetchMigratedValues update existing.parameterTypeId
    (update.dataType.getD existing.dataType ≠ existing.dataType)
  let updated ← updateParameterRow update existing
  updateOptionsAndValues update existing updated existingOptions existingValues newIds
    newMigratedIds

-- The values of the parameter are deleted together with it.
def deleteAssetParameter [ScanOrder] (ctx : LaboratoryContext) (parameterId : Uuid) :
    Transaction Unit := do
  let permitted ←
    .read (validatePermission · ctx.authorizationActor .assetParameter (.delete parameterId))
  .require permitted (.forbidden "You are not allowed to delete this asset parameter.")
  let some existing ← fetchAssetParameterForUpdate parameterId |
    .abort (.notFound "Asset parameter not found")
  let _ ← fetchAssetParameterOptionsForUpdate existing.parameterTypeId
  fetchAssetParameterAssignmentsForUpdate existing.parameterTypeId
  let _ ← fetchAssetParameterValuesForUpdate existing.parameterTypeId
  deleteAssetParameterFromDatabase existing.parameterTypeId

inductive Request
  | create (payload : CreateJsonData) (newId : Uuid) (newOptionIds : NewIds)
  | update (parameterId : Uuid) (payload : UpdateJsonData) (newIds newMigratedIds : NewIds)
  | delete (parameterId : Uuid)

def Request.handle [ScanOrder] (ctx : LaboratoryContext) : Request → Transaction Unit
  | create payload newId newOptionIds => createAssetParameter ctx payload newId newOptionIds
  | update parameterId payload newIds newMigratedIds =>
    updateAssetParameter ctx parameterId payload newIds newMigratedIds
  | delete parameterId => deleteAssetParameter ctx parameterId

section ReadOnly

open Program

omit [TextFormats] [UnicodeSegmentation] in
theorem normalizeUnitConfiguration_readOnly {dataType unitDimension defaultUnitId} :
    (normalizeUnitConfiguration dataType unitDimension defaultUnitId).ReadOnly := by
  unfold normalizeUnitConfiguration
  split
  case isFalse => exact readOnly_require.bind fun _ => trivial
  case isTrue =>
    cases defaultUnitId
    case none => trivial
    case some =>
      refine readOnly_selectForUpdate.bind fun dimension => ?_
      cases dimension
      case none => trivial
      case some => exact readOnly_require.bind fun _ => trivial

end ReadOnly

end AssetParameters

end LabInventory
