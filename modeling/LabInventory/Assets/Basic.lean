import LabInventory.InventoryItems.Basic
import LabInventory.Shared.ParameterValues

open Sql

namespace LabInventory

open Text

def AssetName.parse [UnicodeSegmentation] (s : String) : Except String String :=
  let isTooLong := UnicodeSegmentation.graphemes (trim s) > 256
  let containsForbiddenCharacters := (trim s).toList.any TreeName.forbiddenCharacters.contains
  if trim s = "" ∨ isTooLong ∨ containsForbiddenCharacters then
    .error s!"{s} is not a valid asset name."
  else
    .ok (trim s)

def AssetTrackingMode.parse (s : String) : Except String AssetTrackingMode :=
  match trim s with
  | "serialized" => .ok serialized
  | "quantity" => .ok quantity
  | _ => .error s!"{s} is not a valid asset tracking mode."

structure UpdateAsset where
  categoryId : NullableUpdate Uuid
  trackingMode : Option AssetTrackingMode
  name : Option String
  model : NullableUpdate String
  manufacturer : NullableUpdate String
  inventoryUnitId : Option Uuid
  publicNotes : NullableUpdate String
  internalNotes : NullableUpdate String

structure AssetParameterValueInput where
  parameterTypeId : Uuid
  value : Option Json

namespace Assets

structure UpdateJsonData where
  categoryId : Option (Option Uuid)
  trackingMode : Option String
  name : Option String
  model : Option (Option String)
  manufacturer : Option (Option String)
  inventoryUnitId : Option Uuid
  publicNotes : Option (Option String)
  internalNotes : Option (Option String)
  parameters : Option (List AssetParameterValueInput)

def UpdateJsonData.toUpdateAsset [UnicodeSegmentation] (value : UpdateJsonData) :
    Except String UpdateAsset := do
  let trackingMode ← value.trackingMode.mapM AssetTrackingMode.parse
  let name ← value.name.mapM AssetName.parse
  return {
    categoryId := .ofOption value.categoryId
    trackingMode, name
    model := nullableText value.model
    manufacturer := nullableText value.manufacturer
    inventoryUnitId := value.inventoryUnitId
    publicNotes := nullableText value.publicNotes
    internalNotes := nullableText value.internalNotes
  }

def mapDatabaseError (c : Constraint) : ApiError :=
  if c = .assetsLaboratoryNameModel then
    .conflict "Asset name and model already exist in this laboratory"
  else if c = .inventoryItemsAssetSerialNumber then
    .conflict "Inventory item serial number already exists for this asset"
  else if c = .inventoryItemsQuantityAggregate then
    .conflict "Inventory item already exists for this quantity aggregate"
  else if c.isForeignKey then
    .validation "Invalid referenced record"
  else if c.isCheck then
    .validation "Invalid asset data"
  else
    .conflict "Asset already exists"

-- An asset together with the number of its items.
def fetchAssetForUpdate (assetId : Uuid) : Transaction (Option (AssetRow × Nat)) :=
  .selectForUpdate (.asset assetId) fun d => (d.assets.find? assetId).map fun r =>
    (r, (d.assetInventoryItems.rows.filter (·.assetId = assetId)).length)

def fetchParameterValuesForAssetForUpdate [ScanOrder] (assetId : Uuid) : Transaction Unit :=
  .forAll (fun d => d.assetParameterValues.rows.filter (·.assetId = assetId))
    (.assetParameterValue ·.valueId) fun _ => .done ()

def validateCategory (laboratoryId : Uuid) (categoryId : Option Uuid) : Transaction Unit := do
  let some categoryId := categoryId | return
  let found ← .selectForUpdate (.tree .assetCategory categoryId) fun d =>
    (d.assetCategories.find? categoryId).filter (·.laboratoryId = laboratoryId)
  .require found.isSome (.validation "Asset category does not belong to this laboratory")

-- The row has been locked by `fetchAssetForUpdate`.
def updateAssetInDatabase (r : AssetRow) : Transaction Unit :=
  .exec (.assets <| .update r) mapDatabaseError

def rescaleInventoryQuantities [ScanOrder] (assetId : Uuid) (factor : ℚ) : Transaction Unit :=
  .forAll (fun d => d.assetInventoryItems.rows.filter (·.assetId = assetId))
    (.inventoryItem ·.inventoryItemId) fun r => do
      let found ← .read fun d =>
        (d.assetInventoryItems.find? r.inventoryItemId).filter (·.assetId = assetId)
      let some r := found | return
      .exec (.assetInventoryItems <| .update { r with
        quantityOnHand := r.quantityOnHand * factor
        quantityAllocated := r.quantityAllocated * factor
      }) mapDatabaseError

def convertInventoryQuantitiesToUnit [ScanOrder] (assetId : Uuid) (trackingMode : AssetTrackingMode)
    (sourceUnitId targetUnitId : Uuid) : Transaction Unit := do
  if sourceUnitId = targetUnitId then
    return
  let sourceUnit ← ParameterValues.fetchUnit sourceUnitId
  let targetUnit ← ParameterValues.fetchUnit targetUnitId
  .require (sourceUnit.dimension = targetUnit.dimension)
    (.validation "New inventory unit must measure the same dimension as the current one")
  match trackingMode with
  | .serialized => return
  | .quantity =>
    rescaleInventoryQuantities assetId (sourceUnit.scaleToBase / targetUnit.scaleToBase)

def fetchParameterDefinition (laboratoryId parameterTypeId : Uuid) :
    Transaction (Option ParameterValueDefinition) :=
  .selectForUpdate (.assetParameterType parameterTypeId) fun d =>
    (d.assetParameterTypes.find? parameterTypeId).bind fun r =>
      if r.laboratoryId = laboratoryId then
        some { r with }
      else
        none

-- A value of the same asset and parameter is overwritten.
def upsertAssetParameterValue (laboratoryId assetId newId : Uuid)
    (value : ResolvedParameterValue) : Transaction Unit := do
  let found ← .read fun d => d.assetParameterValues.rows.find? fun r =>
    r.assetId = assetId ∧ r.parameterTypeId = value.parameterTypeId
  match found with
  | none =>
    .exec (.assetParameterValues <| .insert {
      valueId := newId
      laboratoryId, assetId
      parameterTypeId := value.parameterTypeId
      dataType := value.dataType
      columns := value.columns
    }) mapDatabaseError
  | some r =>
    let some r ← .selectForUpdate (.assetParameterValue r.valueId)
      (·.assetParameterValues.find? r.valueId) | .abort rowNotFound
    .exec (.assetParameterValues <| .update { r with
      dataType := value.dataType
      columns := value.columns
    }) mapDatabaseError

def deleteAssetParameterValue (assetId parameterTypeId : Uuid) : Transaction Unit := do
  let found ← .read fun d => d.assetParameterValues.rows.find? fun r =>
    r.assetId = assetId ∧ r.parameterTypeId = parameterTypeId
  let some r := found | return
  .lockRow (.assetParameterValue r.valueId)
  .exec (.assetParameterValues <| .delete r.valueId) mapDatabaseError

variable [TextFormats]

def applyAssetParameterUpdate (laboratoryId assetId newId : Uuid)
    (definition : Option ParameterValueDefinition) (input : AssetParameterValueInput) :
    Transaction Unit :=
  match input.value with
  | some value => do
    let some definition := definition |
      .abort (.validation "Asset parameter does not belong to this laboratory")
    let resolved ← ParameterValues.resolveParameterValue definition value
    upsertAssetParameterValue laboratoryId assetId newId resolved
  | none => deleteAssetParameterValue assetId input.parameterTypeId

def fetchParameterDefinitions (laboratoryId : Uuid) :
    List AssetParameterValueInput →
      Transaction (List (AssetParameterValueInput × Option ParameterValueDefinition))
  | [] => return []
  | input :: inputs => do
    let definition ← fetchParameterDefinition laboratoryId input.parameterTypeId
    return (input, definition) :: (← fetchParameterDefinitions laboratoryId inputs)

def applyParameterUpdates (laboratoryId assetId : Uuid) (allowDelete : Bool) (newIds : NewIds) :
    List (AssetParameterValueInput × Option ParameterValueDefinition) → Transaction Unit
  | [] => return
  | (input, definition) :: inputs => do
    .require (input.value.isSome ∨ allowDelete) (.validation "Asset parameter value is required")
    applyAssetParameterUpdate laboratoryId assetId (newIds 0) definition input
    applyParameterUpdates laboratoryId assetId allowDelete (newIds <| · + 1) inputs

-- Values may only be deleted by an update.
def applyAssetParameterUpdates (laboratoryId assetId : Uuid)
    (inputs : List AssetParameterValueInput) (allowDelete : Bool) (newIds : NewIds) :
    Transaction Unit := do
  .require (inputs.map (·.parameterTypeId)).Nodup
    (.validation "Asset parameter values must be unique")
  let definitions ← fetchParameterDefinitions laboratoryId inputs
  applyParameterUpdates laboratoryId assetId allowDelete newIds definitions

-- The parameters which a category or one of its ancestors requires.
def requiredParameters (laboratoryId categoryId : Uuid) (d : Database) : List Uuid :=
  match (d.assetCategories.find? categoryId).filter (·.laboratoryId = laboratoryId) with
  | none => []
  | some current => (d.assetParameterAssignments.rows.filter fun a =>
    a.isRequired && (a.categoryId.bind d.assetCategories.find?).any fun ancestor =>
      ancestor.laboratoryId = current.laboratoryId ∧
      current.path.IsSelfOrDescendant ancestor.path ∧
      (ancestor.id = current.id ∨ a.appliesToDescendants)).map (·.parameterTypeId)

def hasParameterValue (laboratoryId assetId parameterTypeId : Uuid) (d : Database) : Bool :=
  d.assetParameterValues.rows.any fun r =>
    r.laboratoryId = laboratoryId ∧ r.assetId = assetId ∧ r.parameterTypeId = parameterTypeId

def validateRequiredParameters (laboratoryId assetId : Uuid) (categoryId : Option Uuid) :
    Transaction Unit := do
  let some categoryId := categoryId | return
  let required ← .read (requiredParameters laboratoryId categoryId)
  let complete ← .read fun d => required.all fun p => hasParameterValue laboratoryId assetId p d
  .require complete (.validation "Missing required asset parameter value")

def resolveTrackingMode (update : UpdateAsset) (existing : AssetRow) (inventoryItemCount : Nat) :
    Except String AssetTrackingMode := do
  let trackingMode := update.trackingMode.getD existing.trackingMode
  .check (¬(trackingMode ≠ existing.trackingMode ∧ 0 < inventoryItemCount))
    "Cannot change tracking_mode while inventory items exist"
  return trackingMode

variable [UnicodeSegmentation] [ScanOrder]

def updateAsset (ctx : LaboratoryContext) (assetId : Uuid) (payload : UpdateJsonData)
    (newIds : NewIds) : Transaction Unit := do
  let permitted ← .read (validatePermission · ctx.authorizationActor .asset (.update assetId))
  .require permitted (.forbidden "You don't have permission to update this asset.")
  let update ← .validated payload.toUpdateAsset
  let some (existing, inventoryItemCount) ← fetchAssetForUpdate assetId |
    .abort (.notFound "Asset not found")
  fetchParameterValuesForAssetForUpdate existing.assetId
  let categoryId := update.categoryId.resolve existing.categoryId
  validateCategory existing.laboratoryId categoryId
  let trackingMode ← .validated <| resolveTrackingMode update existing inventoryItemCount
  let inventoryUnitId := update.inventoryUnitId.getD existing.inventoryUnitId
  updateAssetInDatabase { existing with
    categoryId, trackingMode
    name := update.name.getD existing.name
    model := update.model.resolve existing.model
    manufacturer := update.manufacturer.resolve existing.manufacturer
    inventoryUnitId
    publicNotes := update.publicNotes.resolve existing.publicNotes
    internalNotes := update.internalNotes.resolve existing.internalNotes
  }
  convertInventoryQuantitiesToUnit existing.assetId trackingMode existing.inventoryUnitId
    inventoryUnitId
  match payload.parameters with
  | some inputs =>
    applyAssetParameterUpdates existing.laboratoryId existing.assetId inputs true newIds
  | none => pure ()
  validateRequiredParameters existing.laboratoryId existing.assetId categoryId

end Assets

end LabInventory
