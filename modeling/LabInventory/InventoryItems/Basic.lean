import Mathlib.Algebra.Order.Ring.Rat
import Mathlib.Data.List.ReduceOption
import Mathlib.Data.Nat.Digits.Defs
import LabInventory.Attachments.Basic

open Sql

namespace LabInventory

-- Quantities are stored as `numeric`, but the routes of the items compute in `double precision`, in
-- whose range the quantities stay.
class DoublePrecision where
  -- The nearest number of double precision.
  nearest : ℚ → ℚ
  -- What a number of double precision is stored as. Only 15 significant digits are kept.
  toNumeric : ℚ → ℚ
  nearest_mono : Monotone nearest
  toNumeric_mono : Monotone toNumeric
  nearest_natCast {n : Nat} : n < 10 ^ 15 → nearest n = n
  toNumeric_natCast {n : Nat} : n < 10 ^ 15 → toNumeric n = n

namespace DoublePrecision

-- Rounding is set aside wherever nothing is said about it.
instance (priority := low) exact : DoublePrecision where
  nearest q := q
  toNumeric q := q
  nearest_mono := monotone_id
  toNumeric_mono := monotone_id
  nearest_natCast _ := rfl
  toNumeric_natCast _ := rfl

@[simp]
theorem nearest_exact {q : ℚ} : nearest q = q :=
  rfl

@[simp]
theorem toNumeric_exact {q : ℚ} : toNumeric q = q :=
  rfl

-- Each addition is rounded.
def sum [DoublePrecision] (qs : List ℚ) : ℚ :=
  qs.foldl (nearest <| · + ·) 0

theorem sum_exact {qs : List ℚ} : sum qs = qs.sum :=
  List.sum_eq_foldl.symm

end DoublePrecision

def InventoryItemRow.texts (r : InventoryItemRow) : List String :=
  [r.serialNumber, r.batchNumber, r.publicNotes, r.internalNotes].reduceOption

namespace InventoryItems

open DoublePrecision (nearest toNumeric)

variable [DoublePrecision]

def mapDatabaseError : Constraint → ApiError
  | .inventoryItemsAssetSerialNumber =>
    .conflict "Inventory item serial number already exists for this asset"
  | .inventoryItemsQuantityAggregate =>
    .conflict "Inventory item already exists for this quantity aggregate"
  | _ => .conflict "Inventory item already exists"

-- Items are joined with their asset.
def HasAsset (d : Database) (r : InventoryItemRow) : Bool :=
  (d.assets.find? r.assetId).isSome

def fetchInventoryItem? (d : Database) (inventoryItemId : Uuid) : Option InventoryItemRow :=
  (d.assetInventoryItems.find? inventoryItemId).filter (HasAsset d)

def fetchInventoryItemForUpdate (inventoryItemId : Uuid) : Transaction (Option InventoryItemRow) :=
  .selectForUpdate (.inventoryItem inventoryItemId) (fetchInventoryItem? · inventoryItemId)

-- Locks a whole batch in the order of the ids.
def fetchInventoryItemsForUpdate (inventoryItemIds : List Uuid) :
    Transaction (List InventoryItemRow) :=
  let found (d : Database) :=
    (d.assetInventoryItems.rows.filter fun r =>
      inventoryItemIds.contains r.inventoryItemId && HasAsset d r).map (·.inventoryItemId)
  .selectAllForUpdate (fun d => (found d).insertionSort (· ≤ ·)) .inventoryItem fetchInventoryItem?

-- The columns of a quantity aggregate are compared by `IS NOT DISTINCT FROM`.
def IsQuantityAggregate (laboratoryId assetId : Uuid) (batchNumber : Option String)
    (locationId : Option Uuid) (status : InventoryStatus) (excludeInventoryItemId : Option Uuid)
    (r : InventoryItemRow) : Bool :=
  r.trackingMode = .quantity && r.laboratoryId = laboratoryId && r.assetId = assetId &&
  r.batchNumber = batchNumber && r.locationId = locationId && r.status = status &&
  excludeInventoryItemId ≠ some r.inventoryItemId

def findQuantityAggregateForUpdate (laboratoryId assetId : Uuid) (batchNumber : Option String)
    (locationId : Option Uuid) (status : InventoryStatus) (excludeInventoryItemId : Option Uuid) :
    Transaction (Option InventoryItemRow) := do
  let isMatch (d : Database) (r : InventoryItemRow) : Bool :=
    HasAsset d r &&
    IsQuantityAggregate laboratoryId assetId batchNumber locationId status excludeInventoryItemId r
  let found ← .read fun d => d.assetInventoryItems.rows.find? (isMatch d)
  let some r := found | return none
  .lockRow (.inventoryItem r.inventoryItemId)
  .read fun d => (d.assetInventoryItems.find? r.inventoryItemId).filter (isMatch d)

def trimOptional (value : Option String) : Option String :=
  normalizeOptionalText value

-- The row that an insertion stores.
def stored (r : InventoryItemRow) : InventoryItemRow := { r with
  serialNumber := trimOptional r.serialNumber
  batchNumber := trimOptional r.batchNumber
  quantityOnHand := toNumeric r.quantityOnHand
  quantityAllocated := toNumeric r.quantityAllocated
  publicNotes := trimOptional r.publicNotes
  internalNotes := trimOptional r.internalNotes
}

def insertInventoryItemRow (r : InventoryItemRow) : Transaction Unit := do
  .bindTexts (stored r).texts
  .exec (.assetInventoryItems <| .insert <| stored r) mapDatabaseError

-- An update of a single row, which is locked before it is changed.
def updateInventoryItemRow (inventoryItemId : Uuid) (f : InventoryItemRow → InventoryItemRow) :
    Transaction Unit := do
  let some r ← .selectForUpdate (.inventoryItem inventoryItemId)
    (·.assetInventoryItems.find? inventoryItemId) | return
  .exec (.assetInventoryItems <| .update (f r)) mapDatabaseError

def updateInventoryItemInDatabase (inventoryItemId : Uuid) (serialNumber batchNumber : Option String)
    (quantityOnHand quantityAllocated : ℚ) (locationId : Option Uuid) (status : InventoryStatus)
    (publicNotes internalNotes : Option String) : Transaction Unit := do
  .bindTexts [serialNumber, batchNumber, publicNotes, internalNotes].reduceOption
  updateInventoryItemRow inventoryItemId fun r => { r with
    serialNumber, batchNumber, locationId, status, publicNotes, internalNotes
    quantityOnHand := toNumeric quantityOnHand
    quantityAllocated := toNumeric quantityAllocated
  }

def setQuantityOnHandInDatabase (inventoryItemId : Uuid) (quantityOnHand : ℚ) : Transaction Unit :=
  updateInventoryItemRow inventoryItemId fun r => { r with
    quantityOnHand := toNumeric quantityOnHand
  }

def addQuantitiesInDatabase (inventoryItemId : Uuid) (quantityDelta allocatedDelta : ℚ) :
    Transaction Unit :=
  updateInventoryItemRow inventoryItemId fun r => { r with
    quantityOnHand := r.quantityOnHand + toNumeric quantityDelta
    quantityAllocated := r.quantityAllocated + toNumeric allocatedDelta
  }

def deleteInventoryItemFromDatabase (inventoryItemId : Uuid) : Transaction Unit := do
  let some _ ← .selectForUpdate (.inventoryItem inventoryItemId)
    (·.assetInventoryItems.find? inventoryItemId) | return
  .exec (.assetInventoryItems <| .delete inventoryItemId) mapDatabaseError

-- The number `N` of a generated serial number `#N`.
def generatedSerial? (s : String) : Option Nat :=
  match s.toList with
  | '#' :: digits =>
    if digits ≠ [] ∧ digits.all Char.isDigit then
      some <| Nat.ofDigits 10 <| digits.reverse.map fun c => c.toNat - '0'.toNat
    else
      none
  | _ => none

-- The numbers have to fit into an `integer`.
def maxGeneratedSerialNumber (assetId : Uuid) : Transaction Nat := do
  let numbers ← .read fun d => (d.assetInventoryItems.rows.filter (·.assetId = assetId)).filterMap
    fun r => r.serialNumber.bind generatedSerial?
  .require (numbers.all (· < 2 ^ 31)) (.unexpected "integer out of range")
  return numbers.foldr max 0

def fetchAssetForInventoryForUpdate (assetId : Uuid) : Transaction (Option AssetRow) :=
  .selectForUpdate (.asset assetId) (·.assets.find? assetId)

def validateLocation (laboratoryId locationId : Uuid) : Transaction Unit := do
  let found ← .selectForUpdate (.tree .location locationId) fun d =>
    (d.locations.find? locationId).filter (·.laboratoryId = laboratoryId)
  .require found.isSome
    (.validation "Inventory item location does not belong to this laboratory")

-- A location only has to be valid if there is one.
def validateOptionalLocation (laboratoryId : Uuid) : Option Uuid → Transaction Unit
  | some locationId => validateLocation laboratoryId locationId
  | none => return

def deleteInventoryItemAttachments [ScanOrder] (inventoryItemId : Uuid) :
    Transaction (List Attachments.DeletedAttachmentRow) :=
  Attachments.deleteAttachments (·.inventoryItemId = some inventoryItemId)
    fun _ => .unexpected "Failed to delete inventory item attachments"

def moveInventoryItemAttachments [ScanOrder] (fromInventoryItemIds : List Uuid)
    (toInventoryItemId : Uuid) : Transaction Unit :=
  let isMoved (r : AttachmentAssignmentRow) : Bool :=
    r.inventoryItemId.any fromInventoryItemIds.contains
  .forAll (fun d => d.attachmentAssignments.rows.filter isMoved)
    (.attachmentAssignment ·.attachmentId) fun r => do
      let found ← .read fun d => (d.attachmentAssignments.find? r.attachmentId).filter isMoved
      let some r := found | return
      .exec (.attachmentAssignments <| .update { r with
        inventoryItemId := some toInventoryItemId
      }) fun _ => .unexpected "Failed to move inventory item attachments"

def validateRequestedIds (requestedIds : List Uuid) (rows : List InventoryItemRow) :
    Except ApiError Unit := do
  .check (requestedIds ≠ []) (.validation "inventory_item_ids cannot be empty")
  .check requestedIds.Nodup (.validation "inventory_item_ids cannot contain duplicates")
  .check (rows.length = requestedIds.length)
    (.notFound "One or more inventory items were not found")

def validateQuantityItem (r : InventoryItemRow) : Except ApiError Unit :=
  .check (r.trackingMode = .quantity)
    (.validation "Operation only applies to quantity-tracked inventory items")

-- The routes have their own copy of the check.
def validateQuantities (quantityOnHand quantityAllocated : ℚ) : Except ApiError Unit := do
  .check (0 ≤ quantityOnHand) (.validation "quantity_on_hand must be non-negative")
  .check (0 ≤ quantityAllocated) (.validation "quantity_allocated must be non-negative")
  .check (quantityAllocated ≤ quantityOnHand)
    (.validation "quantity_allocated cannot exceed quantity_on_hand")

def validatePatchAgainstTrackingMode (patch : UpdateInventoryItem) :
    AssetTrackingMode → Except ApiError Unit
  | .serialized => .check (patch.quantityOnHand.isNone ∧ patch.quantityAllocated.isNone)
    (.validation "Serialized inventory items cannot update quantity fields")
  | .quantity => .check patch.serialNumber.isNone
    (.validation "Quantity-tracked inventory items cannot update serial_number")

def nextSerialNumbers (assetId : Uuid) (count : Nat) : Transaction (List String) := do
  let maxSerial ← maxGeneratedSerialNumber assetId
  return (List.range' 1 count).map fun offset => s!"#{maxSerial + offset}"

def rereadInventoryItem (inventoryItemId : Uuid) (what : String) :
    Transaction InventoryItemRow := do
  let some r ← fetchInventoryItemForUpdate inventoryItemId |
    .abort (.unexpected s!"{what} inventory item not found")
  return r

def insertInventoryItem (r : InventoryItemRow) : Transaction InventoryItemRow := do
  insertInventoryItemRow r
  rereadInventoryItem r.inventoryItemId "Created"

def applyInventoryItemPatch (existing : InventoryItemRow) (patch : UpdateInventoryItem) :
    Transaction InventoryItemRow := do
  .ofExcept <| validatePatchAgainstTrackingMode patch existing.trackingMode
  let serialNumber := (patch.serialNumber.map (·.val)) <|> existing.serialNumber
  let batchNumber := patch.batchNumber.resolve existing.batchNumber
  let locationId := patch.locationId.resolve existing.locationId
  validateOptionalLocation existing.laboratoryId locationId
  let status := patch.status.getD existing.status
  let quantityOnHand := patch.quantityOnHand.getD (nearest existing.quantityOnHand)
  let quantityAllocated := patch.quantityAllocated.getD (nearest existing.quantityAllocated)
  let publicNotes := patch.publicNotes.resolve existing.publicNotes
  let internalNotes := patch.internalNotes.resolve existing.internalNotes
  .ofExcept <| validateQuantities quantityOnHand quantityAllocated
  updateInventoryItemInDatabase existing.inventoryItemId serialNumber batchNumber quantityOnHand
    quantityAllocated locationId status publicNotes internalNotes
  rereadInventoryItem existing.inventoryItemId "Updated"

def setQuantityOnHand (inventoryItemId : Uuid) (quantityOnHand : ℚ) :
    Transaction InventoryItemRow := do
  setQuantityOnHandInDatabase inventoryItemId quantityOnHand
  rereadInventoryItem inventoryItemId "Updated"

def addQuantitiesToItem (inventoryItemId : Uuid) (quantityDelta allocatedDelta : ℚ) :
    Transaction InventoryItemRow := do
  addQuantitiesInDatabase inventoryItemId quantityDelta allocatedDelta
  rereadInventoryItem inventoryItemId "Updated"

-- Each permission is looked up before the transaction begins.
def requirePermissions (actor : Actor) (resource : ResourceType) (e : ApiError) :
    List Action → Transaction Unit
  | [] => return
  | action :: actions => do
    let permitted ← .read (validatePermission · actor resource action)
    .require permitted e
    requirePermissions actor resource e actions

structure SerialItemJsonData where
  serialNumber : String
  attachments : Option (List NewAttachment)

structure CreateJsonData where
  serialItems : Option (List SerialItemJsonData)
  serialNumbers : Option (List String)
  count : Option Int
  batchNumber : Option String
  quantityOnHand : Option ℚ
  quantityAllocated : Option ℚ
  locationId : Option Uuid
  status : Option String
  publicNotes : Option String
  internalNotes : Option String
  attachments : Option (List NewAttachment)

inductive InventoryItemAttachmentSource
  | empty
  | single (group : List NewAttachment)
  | perSerialItem (groups : List (List NewAttachment))

namespace InventoryItemAttachmentSource

def parse (whole : List NewAttachment) (perSerialItem : List (List NewAttachment)) :
    Except String InventoryItemAttachmentSource :=
  match whole.isEmpty, perSerialItem.any (!·.isEmpty) with
  | false, true => .error "attachments cannot be combined with serial_items attachments"
  | false, false => .ok (single whole)
  | true, true => .ok (.perSerialItem perSerialItem)
  | true, false => .ok empty

def attachments : InventoryItemAttachmentSource → List NewAttachment
  | empty => []
  | single group => group
  | perSerialItem groups => groups.flatten

def assignGroups (laboratoryId : Uuid) (newIds : Nat → NewIds) :
    List (InventoryItemRow × List NewAttachment) → Transaction Unit
  | [] => return
  | (item, group) :: rest => do
    Attachments.assignUploadedAttachments .validation (.inventoryItem item.inventoryItemId)
      laboratoryId (newIds 0) group
    assignGroups laboratoryId (newIds <| · + 1) rest

def assign (created : List InventoryItemRow) (laboratoryId : Uuid) (newIds : Nat → NewIds) :
    InventoryItemAttachmentSource → Transaction Unit
  | empty => return
  | single group => do
    .require (created.length = 1) (.validation
      "attachments can only be supplied when exactly one inventory item is created")
    assignGroups laboratoryId newIds (created.zip [group])
  | perSerialItem groups => do
    .require (groups.length = created.length) (.validation
      "serial_items attachments must match created inventory items")
    assignGroups laboratoryId newIds (created.zip groups)

end InventoryItemAttachmentSource

namespace CreateJsonData

def attachmentGroups (payload : CreateJsonData) : List (List NewAttachment) :=
  (payload.serialItems.getD []).map (·.attachments.getD [])

def uploadIds (payload : CreateJsonData) : List Uuid :=
  (payload.attachments.getD [] ++ payload.attachmentGroups.flatten).map (·.uploadId)

def parseCreation [UnicodeSegmentation] (payload : CreateJsonData)
    (trackingMode : AssetTrackingMode) : Except String NewInventoryItems :=
  NewInventoryItems.parse trackingMode (payload.serialItems.map (·.map (·.serialNumber)))
    payload.serialNumbers payload.count payload.batchNumber payload.quantityOnHand
    payload.quantityAllocated payload.locationId payload.status payload.publicNotes
    payload.internalNotes

end CreateJsonData

def insertNewInventoryItem (asset : AssetRow) (trackingMode : AssetTrackingMode) (newId : Uuid)
    (item : NewInventoryItem) : Transaction InventoryItemRow :=
  insertInventoryItem {
    inventoryItemId := newId
    assetId := asset.assetId
    laboratoryId := asset.laboratoryId
    trackingMode
    serialNumber := item.serialNumber.map (·.val)
    batchNumber := item.batchNumber
    quantityOnHand := item.quantityOnHand
    quantityAllocated := item.quantityAllocated
    locationId := item.locationId
    status := item.status
    publicNotes := item.publicNotes
    internalNotes := item.internalNotes
  }

def insertNewInventoryItems (asset : AssetRow) (trackingMode : AssetTrackingMode)
    (newIds : NewIds) : List NewInventoryItem → Transaction (List InventoryItemRow)
  | [] => return []
  | item :: items => do
    let row ← insertNewInventoryItem asset trackingMode (newIds 0) item
    return row :: (← insertNewInventoryItems asset trackingMode (newIds <| · + 1) items)

def serialNumbers [UnicodeSegmentation] (assetId : Uuid) :
    InventoryItemSerialSource → Transaction (List InventoryItemSerialNumber)
  | .explicit values => return values
  | .generate count => do
    let generated ← nextSerialNumbers assetId count
    .validated <| generated.mapM InventoryItemSerialNumber.parse

def insertSerializedItems [UnicodeSegmentation] (asset : AssetRow)
    (serialSource : InventoryItemSerialSource) (batchNumber : Option String)
    (locationId : Option Uuid) (status : InventoryStatus) (publicNotes internalNotes : Option String)
    (newIds : NewIds) : Transaction (List InventoryItemRow) := do
  let serialNumbers ← serialNumbers asset.assetId serialSource
  insertNewInventoryItems asset .serialized newIds <| serialNumbers.map fun serialNumber =>
    .serialized serialNumber batchNumber locationId status publicNotes internalNotes

def createInventoryItems [UnicodeSegmentation] (ctx : LaboratoryContext) (assetId : Uuid)
    (payload : CreateJsonData) (newIds : NewIds) (newAttachmentIds : Nat → NewIds) :
    Transaction Unit := do
  let laboratoryId ← .fetch (fun d => (d.assets.find? assetId).map (·.laboratoryId))
    (.notFound "Asset not found")
  .require (laboratoryId = ctx.laboratoryId) (.notFound "Asset not found")
  requirePermissions ctx.authorizationActor .inventoryItem
    (.forbidden "You don't have permission to create inventory items.") [.create laboratoryId]
  requirePermissions ctx.actor .fileUpload
    (.forbidden "You do not have permission to assign this attachment")
    (payload.uploadIds.map .assign)
  let attachments ← .validated <|
    InventoryItemAttachmentSource.parse (payload.attachments.getD []) payload.attachmentGroups
  .validated <| ensureUniqueUploads attachments.attachments
  let some asset ← fetchAssetForInventoryForUpdate assetId | .abort (.notFound "Asset not found")
  let creation ← .validated <| payload.parseCreation asset.trackingMode
  validateOptionalLocation asset.laboratoryId creation.locationId
  let created ← match creation with
    | .serialized serialSource batchNumber locationId status publicNotes internalNotes =>
      insertSerializedItems asset serialSource batchNumber locationId status publicNotes
        internalNotes newIds
    | .quantity item => insertNewInventoryItems asset .quantity newIds [item]
  attachments.assign created asset.laboratoryId newAttachmentIds

structure UpdateJsonData where
  serialNumber : Option String
  batchNumber : Option (Option String)
  quantityOnHand : Option ℚ
  quantityAllocated : Option ℚ
  locationId : Option (Option Uuid)
  status : Option String
  publicNotes : Option (Option String)
  internalNotes : Option (Option String)

def UpdateJsonData.toUpdateInventoryItem [UnicodeSegmentation] (value : UpdateJsonData) :
    Except String UpdateInventoryItem :=
  UpdateInventoryItem.parse value.serialNumber value.batchNumber value.quantityOnHand value.quantityAllocated
    value.locationId value.status value.publicNotes value.internalNotes

def updateInventoryItem [UnicodeSegmentation] (ctx : LaboratoryContext) (inventoryItemId : Uuid)
    (payload : UpdateJsonData) : Transaction Unit := do
  requirePermissions ctx.authorizationActor .inventoryItem
    (.forbidden "You are not allowed to update this inventory item.") [.update inventoryItemId]
  let patch ← .validated payload.toUpdateInventoryItem
  let some existing ← fetchInventoryItemForUpdate inventoryItemId |
    .abort (.notFound "Inventory item not found")
  let _ ← applyInventoryItemPatch existing patch

structure BatchUpdateJsonData where
  inventoryItemIds : List Uuid
  batchNumber : Option (Option String)
  locationId : Option (Option Uuid)
  status : Option String
  publicNotes : Option (Option String)
  internalNotes : Option (Option String)

def BatchUpdateJsonData.toUpdateInventoryItem [UnicodeSegmentation] (value : BatchUpdateJsonData) :
    Except String UpdateInventoryItem :=
  UpdateInventoryItem.parse none value.batchNumber none none value.locationId value.status value.publicNotes
    value.internalNotes

def applyInventoryItemPatches (patch : UpdateInventoryItem) :
    List InventoryItemRow → Transaction Unit
  | [] => return
  | existing :: items => do
    let _ ← applyInventoryItemPatch existing patch
    applyInventoryItemPatches patch items

def batchUpdateInventoryItems [UnicodeSegmentation] (ctx : LaboratoryContext)
    (payload : BatchUpdateJsonData) : Transaction Unit := do
  let inventoryItemIds ← .validated <| InventoryItemIds.parse payload.inventoryItemIds
  let patch ← .validated payload.toUpdateInventoryItem
  .require patch.hasBatchUpdates (.validation "Batch update requires at least one update field")
  requirePermissions ctx.authorizationActor .inventoryItem
    (.forbidden "You don't have permission to update these inventory items.")
    (inventoryItemIds.values.map .update)
  let existingItems ← fetchInventoryItemsForUpdate inventoryItemIds.values
  .ofExcept <| validateRequestedIds inventoryItemIds.values existingItems
  applyInventoryItemPatches patch existingItems

structure SplitJsonData where
  quantity : ℚ
  batchNumber : Option (Option String)
  locationId : Option (Option Uuid)
  status : Option String
  publicNotes : Option String
  internalNotes : Option String

def SplitJsonData.toSplitInventoryItem (value : SplitJsonData) :
    Except String SplitInventoryItem :=
  SplitInventoryItem.parse value.quantity value.batchNumber value.locationId value.status value.publicNotes
    value.internalNotes

def splitInventoryItem (ctx : LaboratoryContext) (inventoryItemId : Uuid) (payload : SplitJsonData)
    (newId : Uuid) : Transaction Unit := do
  requirePermissions ctx.authorizationActor .inventoryItem
    (.forbidden "You are not allowed to split this inventory item.") [.update inventoryItemId]
  let command ← .validated payload.toSplitInventoryItem
  let some source ← fetchInventoryItemForUpdate inventoryItemId |
    .abort (.notFound "Inventory item not found")
  .ofExcept <| validateQuantityItem source
  let quantityOnHand := nearest source.quantityOnHand
  let quantityAllocated := nearest source.quantityAllocated
  .require (command.quantity ≤ nearest (quantityOnHand - quantityAllocated))
    (.validation "Split quantity cannot exceed unallocated quantity")
  let targetStatus := command.status.getD source.status
  let targetBatchNumber := command.batchNumber.resolve source.batchNumber
  let targetLocationId := command.locationId.resolve source.locationId
  validateOptionalLocation source.laboratoryId targetLocationId
  .require
    (¬(targetBatchNumber = source.batchNumber ∧ targetLocationId = source.locationId ∧
      targetStatus = source.status))
    (.validation "Split target must differ by batch, location, or status")
  let target ← findQuantityAggregateForUpdate source.laboratoryId source.assetId targetBatchNumber
    targetLocationId targetStatus (some source.inventoryItemId)
  let _ ← setQuantityOnHand source.inventoryItemId (nearest (quantityOnHand - command.quantity))
  match target with
  | some target =>
    let _ ← addQuantitiesToItem target.inventoryItemId command.quantity 0
  | none =>
    let _ ← insertInventoryItem {
      inventoryItemId := newId
      assetId := source.assetId
      laboratoryId := source.laboratoryId
      trackingMode := .quantity
      serialNumber := none
      batchNumber := targetBatchNumber
      quantityOnHand := command.quantity
      quantityAllocated := 0
      locationId := targetLocationId
      status := targetStatus
      publicNotes := command.publicNotes <|> source.publicNotes
      internalNotes := command.internalNotes <|> source.internalNotes
    }

structure MergeJsonData where
  targetInventoryItemId : Uuid
  sourceInventoryItemIds : List Uuid

def findRow (rows : List InventoryItemRow) (inventoryItemId : Uuid) (label : String) :
    Except ApiError InventoryItemRow :=
  match rows.find? (·.inventoryItemId = inventoryItemId) with
  | some r => .ok r
  | none => .error (.notFound s!"{label} inventory item not found")

def validateMergeCompatible (target source : InventoryItemRow) : Except ApiError Unit :=
  .check (target.laboratoryId = source.laboratoryId ∧ target.assetId = source.assetId ∧
      target.batchNumber = source.batchNumber ∧ target.locationId = source.locationId ∧
      target.status = source.status)
    (.validation "Source inventory items must match target asset, batch, location, and status")

def findSource (rows : List InventoryItemRow) (target : InventoryItemRow) (sourceId : Uuid) :
    Except ApiError InventoryItemRow := do
  let source ← findRow rows sourceId "Source"
  validateQuantityItem source
  validateMergeCompatible target source
  return source

def deleteInventoryItems : List Uuid → Transaction Unit
  | [] => return
  | inventoryItemId :: ids => do
    deleteInventoryItemFromDatabase inventoryItemId
    deleteInventoryItems ids

def mergeInventoryItems [ScanOrder] (ctx : LaboratoryContext) (payload : MergeJsonData) :
    Transaction Unit := do
  let command ← .validated <|
    MergeInventoryItems.parse payload.targetInventoryItemId payload.sourceInventoryItemIds
  let allIds := command.targetInventoryItemId :: command.sourceInventoryItemIds.values
  requirePermissions ctx.authorizationActor .inventoryItem
    (.forbidden "You don't have permission to merge these inventory items.") (allIds.map .update)
  let rows ← fetchInventoryItemsForUpdate allIds
  .ofExcept <| validateRequestedIds allIds rows
  let target ← .ofExcept <| findRow rows command.targetInventoryItemId "Target"
  .ofExcept <| validateQuantityItem target
  let sources ← .ofExcept <| command.sourceInventoryItemIds.values.mapM (findSource rows target)
  let quantityDelta := DoublePrecision.sum <| sources.map (nearest ·.quantityOnHand)
  let allocatedDelta := DoublePrecision.sum <| sources.map (nearest ·.quantityAllocated)
  let sourceIds := sources.map (·.inventoryItemId)
  moveInventoryItemAttachments sourceIds target.inventoryItemId
  let _ ← addQuantitiesToItem target.inventoryItemId quantityDelta allocatedDelta
  deleteInventoryItems sourceIds

def validateDeletable (r : InventoryItemRow) : Except ApiError Unit :=
  .check (nearest r.quantityAllocated ≤ 0)
    (.conflict "Cannot delete inventory items with allocated quantity")

-- Yields what has been attached to the item. The objects of the files are deleted after the commit.
def deleteInventoryItem [ScanOrder] (ctx : LaboratoryContext) (inventoryItemId : Uuid) :
    Transaction (List Attachments.DeletedAttachmentRow) := do
  requirePermissions ctx.authorizationActor .inventoryItem
    (.forbidden "You are not allowed to delete this inventory item.") [.delete inventoryItemId]
  let some item ← fetchInventoryItemForUpdate inventoryItemId |
    .abort (.notFound "Inventory item not found")
  .ofExcept <| validateDeletable item
  let deletedAttachments ← deleteInventoryItemAttachments item.inventoryItemId
  deleteInventoryItemFromDatabase item.inventoryItemId
  return deletedAttachments

def deleteItems [ScanOrder] :
    List InventoryItemRow → Transaction (List Attachments.DeletedAttachmentRow)
  | [] => return []
  | item :: items => do
    let itemAttachments ← deleteInventoryItemAttachments item.inventoryItemId
    deleteInventoryItemFromDatabase item.inventoryItemId
    return itemAttachments ++ (← deleteItems items)

def batchDeleteInventoryItems [ScanOrder] (ctx : LaboratoryContext) (inventoryItemIds : List Uuid) :
    Transaction (List Attachments.DeletedAttachmentRow) := do
  let inventoryItemIds ← .validated <| InventoryItemIds.parse inventoryItemIds
  requirePermissions ctx.authorizationActor .inventoryItem
    (.forbidden "You don't have permission to delete these inventory items.")
    (inventoryItemIds.values.map .delete)
  let items ← fetchInventoryItemsForUpdate inventoryItemIds.values
  .ofExcept <| validateRequestedIds inventoryItemIds.values items
  .ofExcept <| items.forM validateDeletable
  deleteItems items

inductive Request
  | create (assetId : Uuid) (payload : CreateJsonData) (newIds : NewIds)
      (newAttachmentIds : Nat → NewIds)
  | update (inventoryItemId : Uuid) (payload : UpdateJsonData)
  | batchUpdate (payload : BatchUpdateJsonData)
  | split (inventoryItemId : Uuid) (payload : SplitJsonData) (newId : Uuid)
  | merge (payload : MergeJsonData)
  | delete (inventoryItemId : Uuid)
  | batchDelete (inventoryItemIds : List Uuid)

def Request.handle [UnicodeSegmentation] [ScanOrder] (ctx : LaboratoryContext) :
    Request → Transaction Unit
  | create assetId payload newIds newAttachmentIds =>
    createInventoryItems ctx assetId payload newIds newAttachmentIds
  | update inventoryItemId payload => updateInventoryItem ctx inventoryItemId payload
  | batchUpdate payload => batchUpdateInventoryItems ctx payload
  | split inventoryItemId payload newId => splitInventoryItem ctx inventoryItemId payload newId
  | merge payload => mergeInventoryItems ctx payload
  | delete inventoryItemId => do
    let _ ← deleteInventoryItem ctx inventoryItemId
  | batchDelete inventoryItemIds => do
    let _ ← batchDeleteInventoryItems ctx inventoryItemIds

section ReadOnly

open Program

omit [DoublePrecision]

theorem requirePermissions_readOnly {actor resource e actions} :
    (requirePermissions actor resource e actions).ReadOnly := by
  induction actions
  case nil => trivial
  case cons ih => exact readOnly_read.bind fun _ => readOnly_require.bind fun _ => ih

theorem validateOptionalLocation_readOnly {laboratoryId locationId} :
    (validateOptionalLocation laboratoryId locationId).ReadOnly := by
  cases locationId
  case none => trivial
  case some => exact readOnly_selectForUpdate.bind fun _ => readOnly_require

end ReadOnly

end InventoryItems

end LabInventory
