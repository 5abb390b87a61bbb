import LabInventory.Assets.Basic

open Sql

namespace LabInventory

structure NewAsset where
  categoryId : Option Uuid
  trackingMode : AssetTrackingMode
  name : String
  model : Option String
  manufacturer : Option String
  inventoryUnitId : Uuid
  publicNotes : Option String
  internalNotes : Option String

-- The tracking mode of the asset decides about the fields of an item.
def NewInventoryItem.parseForTrackingMode [UnicodeSegmentation] (trackingMode : AssetTrackingMode)
    (serialNumber batchNumber : Option String) (quantityOnHand quantityAllocated : Option ℚ)
    (locationId : Option Uuid) (status publicNotes internalNotes : Option String) :
    Except String NewInventoryItem := do
  let status := (← status.mapM InventoryStatus.parse).getD .available
  match trackingMode with
  | .serialized =>
    if quantityOnHand.isSome ∨ quantityAllocated.isSome then
      throw "Serialized inventory items cannot specify quantity fields"
    let some serialNumber := serialNumber |
      throw "Serialized inventory items require serial_number"
    let serialNumber ← InventoryItemSerialNumber.parse serialNumber
    return .serialized serialNumber batchNumber locationId status publicNotes internalNotes
  | .quantity =>
    if serialNumber.isSome then
      throw "Quantity-tracked inventory items cannot specify serial_number"
    let some quantityOnHand := quantityOnHand |
      throw "Quantity-tracked inventory items require quantity_on_hand"
    NewInventoryItem.quantity batchNumber quantityOnHand (quantityAllocated.getD 0) locationId
      status publicNotes internalNotes

namespace Assets

structure InventoryItemJsonData where
  serialNumber : Option String
  batchNumber : Option String
  quantityOnHand : Option ℚ
  quantityAllocated : Option ℚ
  locationId : Option Uuid
  status : Option String
  publicNotes : Option String
  internalNotes : Option String
  attachments : Option (List NewAttachment)

structure ParameterValueJsonData where
  parameterTypeId : Uuid
  value : Json

structure CreateJsonData where
  categoryId : Option Uuid
  trackingMode : String
  name : String
  model : Option String
  manufacturer : Option String
  inventoryUnitId : Uuid
  publicNotes : Option String
  internalNotes : Option String
  inventoryItems : Option (List InventoryItemJsonData)
  parameters : Option (List ParameterValueJsonData)
  attachments : Option (List NewAttachment)

-- The uploads of the asset, and of its items.
def CreateJsonData.uploadIds (payload : CreateJsonData) : List Uuid :=
  let itemAttachments := (payload.inventoryItems.getD []).flatMap (·.attachments.getD [])
  (payload.attachments.getD [] ++ itemAttachments).map (·.uploadId)

structure NewInventoryItemInput where
  item : NewInventoryItem
  attachments : List NewAttachment

structure CreateAssetInput where
  asset : NewAsset
  attachments : List NewAttachment
  parameterValues : List AssetParameterValueInput
  inventoryItems : List NewInventoryItemInput

def CreateAssetInput.allAttachments (input : CreateAssetInput) : List NewAttachment :=
  input.attachments ++ input.inventoryItems.flatMap (·.attachments)

section Parsing

variable [UnicodeSegmentation]

def NewInventoryItemInput.parse (payload : InventoryItemJsonData)
    (trackingMode : AssetTrackingMode) : Except String NewInventoryItemInput := do
  let item ← NewInventoryItem.parseForTrackingMode trackingMode payload.serialNumber
    payload.batchNumber payload.quantityOnHand payload.quantityAllocated payload.locationId
    payload.status payload.publicNotes payload.internalNotes
  return { item, attachments := payload.attachments.getD [] }

def CreateJsonData.toNewAsset (value : CreateJsonData) : Except String NewAsset := do
  let trackingMode ← AssetTrackingMode.parse value.trackingMode
  let name ← AssetName.parse value.name
  return {
    categoryId := value.categoryId
    trackingMode, name
    model := normalizeOptionalText value.model
    manufacturer := normalizeOptionalText value.manufacturer
    inventoryUnitId := value.inventoryUnitId
    publicNotes := normalizeOptionalText value.publicNotes
    internalNotes := normalizeOptionalText value.internalNotes
  }

def CreateJsonData.toCreateAssetInput (payload : CreateJsonData) :
    Except String CreateAssetInput := do
  let asset ← payload.toNewAsset
  let inventoryItems ← (payload.inventoryItems.getD []).mapM
    (NewInventoryItemInput.parse · asset.trackingMode)
  let input := {
    asset
    attachments := payload.attachments.getD []
    parameterValues := (payload.parameters.getD []).map fun p => ⟨p.parameterTypeId, some p.value⟩
    inventoryItems
  }
  ensureUniqueUploads (CreateAssetInput.allAttachments input)
  return input

end Parsing

def insertAsset (laboratoryId newId : Uuid) (new : NewAsset) : Transaction Unit :=
  .exec (.assets <| .insert { new with assetId := newId, laboratoryId }) mapDatabaseError

def insertInventoryItem (laboratoryId assetId newId : Uuid) (trackingMode : AssetTrackingMode)
    (item : NewInventoryItem) : Transaction Unit :=
  .exec (.assetInventoryItems <| .insert { item with
    inventoryItemId := newId
    assetId, laboratoryId, trackingMode
    serialNumber := item.serialNumber.map (·.val)
  }) mapDatabaseError

def insertAssetInventoryItem (laboratoryId assetId newId : Uuid) (trackingMode : AssetTrackingMode)
    (item : NewInventoryItem) : Transaction Unit := do
  InventoryItems.validateOptionalLocation laboratoryId item.locationId
  insertInventoryItem laboratoryId assetId newId trackingMode item

-- The first of the new ids is that of the item.
def insertAssetInventoryItems (laboratoryId assetId : Uuid) (trackingMode : AssetTrackingMode)
    (newIds : Nat → NewIds) : List NewInventoryItemInput → Transaction Unit
  | [] => return
  | input :: inputs => do
    let newId := newIds 0 0
    insertAssetInventoryItem laboratoryId assetId newId trackingMode input.item
    Attachments.assignUploadedAttachments .validation (.inventoryItem newId) laboratoryId
      (newIds 0 <| · + 1) input.attachments
    insertAssetInventoryItems laboratoryId assetId trackingMode (newIds <| · + 1) inputs

structure NewGraphIds where
  asset : Uuid
  attachments : NewIds
  inventoryItems : Nat → NewIds
  parameterValues : NewIds

def insertAssetGraph [TextFormats] (laboratoryId : Uuid) (input : CreateAssetInput)
    (newIds : NewGraphIds) : Transaction Unit := do
  validateCategory laboratoryId input.asset.categoryId
  insertAsset laboratoryId newIds.asset input.asset
  Attachments.assignUploadedAttachments .validation (.asset newIds.asset) laboratoryId
    newIds.attachments input.attachments
  insertAssetInventoryItems laboratoryId newIds.asset input.asset.trackingMode newIds.inventoryItems
    input.inventoryItems
  applyAssetParameterUpdates laboratoryId newIds.asset input.parameterValues false
    newIds.parameterValues
  validateRequiredParameters laboratoryId newIds.asset input.asset.categoryId

def createAsset [TextFormats] [UnicodeSegmentation] (ctx : LaboratoryContext)
    (payload : CreateJsonData) (newIds : NewGraphIds) : Transaction Unit := do
  let permitted ← .read (validatePermission · ctx.actor .asset (.create ctx.laboratoryId))
  .require permitted (.forbidden "You don't have permission to create assets.")
  InventoryItems.requirePermissions ctx.actor .fileUpload
    (.forbidden "You do not have permission to assign this attachment")
    (payload.uploadIds.map .assign)
  let input ← .validated payload.toCreateAssetInput
  insertAssetGraph ctx.laboratoryId input newIds

def fetchInventoryItemsForAssetForUpdate [ScanOrder] (assetId : Uuid) :
    Transaction (List InventoryItemRow) :=
  .selectAllForUpdate
    (fun d => ScanOrder.visit (d.assetInventoryItems.rows.filter (·.assetId = assetId)))
    (.inventoryItem ·.inventoryItemId) fun d r =>
      (d.assetInventoryItems.find? r.inventoryItemId).filter (·.assetId = assetId)

def deleteAssetAttachments [ScanOrder] (assetId : Uuid) (inventoryItemIds : List Uuid) :
    Transaction (List Attachments.DeletedAttachmentRow) :=
  Attachments.deleteAttachments
    (fun r => r.assetId = some assetId ∨ r.inventoryItemId.any inventoryItemIds.contains)
    fun _ => .unexpected "Failed to delete asset attachments"

def deleteAssetFromDatabase (assetId : Uuid) : Transaction Unit :=
  .exec (.assets <| .delete assetId) mapDatabaseError

-- Yields what has been attached to the asset and its items. The objects of the files are deleted
-- after the commit.
def deleteAsset [ScanOrder] (ctx : LaboratoryContext) (assetId : Uuid) :
    Transaction (List Attachments.DeletedAttachmentRow) := do
  let permitted ← .read (validatePermission · ctx.authorizationActor .asset (.delete assetId))
  .require permitted (.forbidden "You don't have permission to delete this asset.")
  let some (asset, _) ← fetchAssetForUpdate assetId | .abort (.notFound "Asset not found")
  let inventoryItems ← fetchInventoryItemsForAssetForUpdate asset.assetId
  fetchParameterValuesForAssetForUpdate asset.assetId
  let deletedAttachments ←
    deleteAssetAttachments asset.assetId (inventoryItems.map (·.inventoryItemId))
  deleteAssetFromDatabase asset.assetId
  return deletedAttachments

inductive Request
  | create (payload : CreateJsonData) (newIds : NewGraphIds)
  | update (assetId : Uuid) (payload : UpdateJsonData) (newIds : NewIds)
  | delete (assetId : Uuid)

def Request.handle [TextFormats] [UnicodeSegmentation] [ScanOrder] (ctx : LaboratoryContext) :
    Request → Transaction Unit
  | create payload newIds => createAsset ctx payload newIds
  | update assetId payload newIds => updateAsset ctx assetId payload newIds
  | delete assetId => do
    let _ ← deleteAsset ctx assetId

-- What the requests write: assets, and whatever hangs off them.
def IsAssetWrite : Write → Prop
  | .assets _ | .assetInventoryItems _ | .assetParameterValues _ | .fileUploads _ | .files _
  | .attachmentAssignments _ => True
  | _ => False

theorem isAssetWrite_of_isFileWrite {w : Write} (h : Attachments.IsFileWrite w) :
    IsAssetWrite w := by
  cases w
  case fileUploads | files | attachmentAssignments => trivial
  all_goals exact h.elim

-- Those of them that have nothing to do with parameters, or with the asset itself.
def IsStockWrite : Write → Prop
  | .assetInventoryItems _ => True
  | w => Attachments.IsFileWrite w

theorem isAssetWrite_of_isStockWrite {w : Write} (h : IsStockWrite w) : IsAssetWrite w := by
  cases w
  case assetInventoryItems => trivial
  all_goals exact isAssetWrite_of_isFileWrite h

theorem isStockWrite_of_isFileWrite {w : Write} (h : Attachments.IsFileWrite w) :
    IsStockWrite w := by
  cases w
  case assetInventoryItems => trivial
  all_goals exact h

section Writes

open Program

theorem requirePermissions_readOnly {actor resource e actions} :
    (InventoryItems.requirePermissions actor resource e actions).ReadOnly := by
  induction actions
  case nil => trivial
  case cons ih => exact readOnly_read.bind fun _ => readOnly_require.bind fun _ => ih

theorem validateCategory_readOnly {laboratoryId categoryId} :
    (validateCategory laboratoryId categoryId).ReadOnly := by
  cases categoryId
  case none => trivial
  case some => exact readOnly_selectForUpdate.bind fun _ => readOnly_require

theorem validateRequiredParameters_readOnly {laboratoryId assetId categoryId} :
    (validateRequiredParameters laboratoryId assetId categoryId).ReadOnly := by
  cases categoryId
  case none => trivial
  case some => exact readOnly_read.bind fun _ => readOnly_read.bind fun _ => readOnly_require

theorem fetchParameterDefinitions_readOnly {laboratoryId inputs} :
    (fetchParameterDefinitions laboratoryId inputs).ReadOnly := by
  induction inputs
  case nil => trivial
  case cons ih => exact readOnly_selectForUpdate.bind fun _ => ih.bind fun _ => trivial

theorem fetchUnit_readOnly {unitId} : (ParameterValues.fetchUnit unitId).ReadOnly := by
  refine readOnly_selectForUpdate.bind fun unit => ?_
  cases unit <;> trivial

theorem upsertAssetParameterValue_writes {laboratoryId assetId newId value} :
    (upsertAssetParameterValue laboratoryId assetId newId value).Writes IsAssetWrite := by
  refine readOnly_read.writes_bind fun found => ?_
  cases found
  case none => exact writes_exec trivial
  case some =>
    refine readOnly_selectForUpdate.writes_bind fun r => ?_
    cases r
    case none => trivial
    case some => exact writes_exec trivial

theorem deleteAssetParameterValue_writes {assetId parameterTypeId} :
    (deleteAssetParameterValue assetId parameterTypeId).Writes IsAssetWrite := by
  refine readOnly_read.writes_bind fun found => ?_
  cases found
  case none => trivial
  case some => exact ⟨trivial, trivial⟩

variable [TextFormats]

theorem applyAssetParameterUpdate_writes {laboratoryId assetId newId definition input} :
    (applyAssetParameterUpdate laboratoryId assetId newId definition input).Writes
      IsAssetWrite := by
  unfold applyAssetParameterUpdate
  split
  case h_1 value _ =>
    cases definition
    case none => trivial
    case some =>
      refine ParameterValues.resolveParameterValue_readOnly.writes_bind fun _ => ?_
      exact upsertAssetParameterValue_writes
  case h_2 => exact deleteAssetParameterValue_writes

theorem applyAssetParameterUpdates_writes {laboratoryId assetId inputs allowDelete newIds} :
    (applyAssetParameterUpdates laboratoryId assetId inputs allowDelete newIds).Writes
      IsAssetWrite := by
  refine readOnly_require.writes_bind fun _ => fetchParameterDefinitions_readOnly.writes_bind ?_
  intro definitions
  induction definitions generalizing newIds
  case nil => trivial
  case cons ih =>
    exact readOnly_require.writes_bind fun _ => applyAssetParameterUpdate_writes.bind fun _ => ih

omit [TextFormats] in
theorem insertAssetInventoryItems_writes {laboratoryId assetId trackingMode newIds inputs} :
    (insertAssetInventoryItems laboratoryId assetId trackingMode newIds inputs).Writes
      IsStockWrite := by
  induction inputs generalizing newIds
  case nil => trivial
  case cons ih =>
    refine Writes.bind ?_ fun _ => Writes.bind ?_ fun _ => ih
    case refine_1 =>
      exact InventoryItems.validateOptionalLocation_readOnly.writes_bind fun _ => writes_exec trivial
    case refine_2 =>
      exact Attachments.assignUploadedAttachments_writes.mono fun _ => isStockWrite_of_isFileWrite

theorem createAsset_writes [UnicodeSegmentation] {ctx payload newIds} :
    (createAsset ctx payload newIds).Writes IsAssetWrite := by
  refine readOnly_read.writes_bind fun _ => readOnly_require.writes_bind fun _ => ?_
  refine InventoryItems.requirePermissions_readOnly.writes_bind fun _ => ?_
  refine readOnly_ofExcept.writes_bind fun input => ?_
  refine validateCategory_readOnly.writes_bind fun _ => (writes_exec trivial).bind fun _ => ?_
  refine Writes.bind ?_ fun _ => (insertAssetInventoryItems_writes.mono fun _ =>
    isAssetWrite_of_isStockWrite).bind fun _ => ?_
  case refine_1 =>
    exact Attachments.assignUploadedAttachments_writes.mono fun _ => isAssetWrite_of_isFileWrite
  case refine_2 =>
    exact applyAssetParameterUpdates_writes.bind fun _ => validateRequiredParameters_readOnly.writes

variable [ScanOrder]

omit [TextFormats] in
theorem convertInventoryQuantitiesToUnit_writes {assetId trackingMode sourceUnitId targetUnitId} :
    (convertInventoryQuantitiesToUnit assetId trackingMode sourceUnitId targetUnitId).Writes
      IsStockWrite := by
  unfold convertInventoryQuantitiesToUnit
  split
  case isTrue => trivial
  case isFalse =>
    refine fetchUnit_readOnly.writes_bind fun _ => fetchUnit_readOnly.writes_bind fun _ => ?_
    refine readOnly_require.writes_bind fun _ => ?_
    cases trackingMode
    case serialized => trivial
    case quantity =>
      refine writes_forAll fun r => readOnly_read.writes_bind fun found => ?_
      cases found
      case none => trivial
      case some => exact writes_exec trivial

theorem updateAsset_writes [UnicodeSegmentation] {ctx assetId payload newIds} :
    (updateAsset ctx assetId payload newIds).Writes IsAssetWrite := by
  refine readOnly_read.writes_bind fun _ => readOnly_require.writes_bind fun _ => ?_
  refine readOnly_ofExcept.writes_bind fun update => readOnly_selectForUpdate.writes_bind fun r => ?_
  cases r
  case none => trivial
  case some r =>
    refine (writes_forAll fun _ => writes_done).bind fun _ => ?_
    refine validateCategory_readOnly.writes_bind fun _ => readOnly_ofExcept.writes_bind fun _ => ?_
    refine (writes_exec trivial).bind fun _ => (convertInventoryQuantitiesToUnit_writes.mono fun _ =>
      isAssetWrite_of_isStockWrite).bind fun _ => ?_
    split
    case h_1 =>
      refine applyAssetParameterUpdates_writes.bind fun _ => ?_
      exact validateRequiredParameters_readOnly.writes
    case h_2 => exact validateRequiredParameters_readOnly.writes

omit [TextFormats] in
theorem deleteAsset_writes {ctx assetId} : (deleteAsset ctx assetId).Writes IsAssetWrite := by
  refine readOnly_read.writes_bind fun _ => readOnly_require.writes_bind fun _ => ?_
  refine readOnly_selectForUpdate.writes_bind fun r => ?_
  cases r
  case none => trivial
  case some r =>
    refine readOnly_selectAllForUpdate.writes_bind fun items => ?_
    refine (writes_forAll fun _ => writes_done).bind fun _ => Writes.bind ?_ fun _ => ?_
    case refine_1 =>
      exact Attachments.deleteAttachments_writes.mono fun _ => isAssetWrite_of_isFileWrite
    case refine_2 => exact (writes_exec trivial).bind fun _ => writes_done

theorem Request.handle_writes [UnicodeSegmentation] {ctx} {request : Request} :
    (request.handle ctx).Writes IsAssetWrite := by
  cases request
  case create => exact createAsset_writes
  case update => exact updateAsset_writes
  case delete => exact deleteAsset_writes.bind fun _ => writes_done

end Writes

end Assets

end LabInventory
