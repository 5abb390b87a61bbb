import LabInventory.Schema

open Sql

namespace LabInventory

structure Actor where
  userId : Uuid
  userType : UserType
  laboratoryId : Option Uuid
deriving DecidableEq

namespace Actor

def isGuest (a : Actor) : Bool :=
  a.userType = .guest

def isAdmin (a : Actor) : Bool :=
  a.userType = .root || a.userType = .superAdmin || a.userType = .labAdmin

def isSystemAdmin (a : Actor) : Bool :=
  a.userType = .root || a.userType = .superAdmin

def isLabAdmin (a : Actor) : Bool :=
  a.userType = .labAdmin

def isRegularUser (a : Actor) : Bool :=
  a.userType = .user

def isSuperAdmin (a : Actor) : Bool :=
  a.userType = .superAdmin

def isRoot (a : Actor) : Bool :=
  a.userType = .root

end Actor

structure LaboratoryContext where
  actor : Actor
  laboratoryId : Uuid

def LaboratoryContext.authorizationActor (ctx : LaboratoryContext) : Actor :=
  if ctx.actor.isSystemAdmin then
    { userId := ctx.actor.userId, userType := .labAdmin, laboratoryId := some ctx.laboratoryId }
  else
    ctx.actor

inductive ResourceType
  | laboratory
  | user
  | guestRegistrationCode
  | unit
  | location
  | asset
  | inventoryItem
  | assetCategory
  | assetParameter
  | attachmentAssignment
  | fileUpload
  | federation
  | labelPrinter
deriving DecidableEq

-- The actions on resources.
inductive Action
  | assign (id : Uuid)
  | create (id : Uuid)
  | createUser (role : UserRole)
  | delete (id : Uuid)
  | deleteUser (role : UserRole)
  | read (id : Uuid)
  | browse (id : Uuid)
  | browseInternal (id : Uuid)
  | update (id : Uuid)
  | updateUser (target update : UserRole)
deriving DecidableEq

def getActor (d : Database) (userId : Uuid) : Option Actor :=
  (d.users.find? userId).map fun r =>
    { userId := r.userId, userType := r.userType, laboratoryId := r.laboratoryId }

namespace Actor

variable (a : Actor) (d : Database)

def canManageUser (target : UserRole) : Bool :=
  if ¬a.isAdmin then
    false
  else if a.isLabAdmin then
    if target.userType = .root ∨ target.userType = .superAdmin then
      false
    else
      match target.laboratoryId with
      | some labId => a.laboratoryId = some labId
      | none => false
  else if a.isSuperAdmin then
    target.userType ≠ .root
  else
    a.isRoot

def canCreateGuestRegistrationCode (laboratoryId : Uuid) : Bool :=
  (a.isLabAdmin || a.isRegularUser) && a.laboratoryId = some laboratoryId

def canViewUser (targetUserId : Uuid) : Bool :=
  match getActor d targetUserId with
  | none => false
  | some target =>
    if a.userId = targetUserId then
      true
    else if a.isGuest then
      false
    else if a.isRoot then
      true
    else if a.isAdmin then
      if a.isLabAdmin then
        if target.userType = .superAdmin ∨ target.userType = .root then
          false
        else
          match target.laboratoryId with
          | some labId => a.laboratoryId = some labId
          | none => false
      else if a.isSuperAdmin then
        target.userType ≠ .root
      else
        false
    else
      match a.laboratoryId with
      | some labId => target.laboratoryId = some labId
      | none => false

def canWriteLaboratoryResource (laboratoryId : Uuid) : Bool :=
  !a.isGuest && (a.isSystemAdmin || a.laboratoryId = some laboratoryId)

def canBrowseLaboratoryResource (laboratoryId : Uuid) : Bool :=
  a.isSystemAdmin || a.laboratoryId = some laboratoryId

def canBrowseLaboratoryInternalResource (laboratoryId : Uuid) : Bool :=
  a.isSystemAdmin || (a.laboratoryId = some laboratoryId && !a.isGuest)

def canReadLaboratoryResource (laboratoryId : Uuid) : Bool :=
  a.isRoot || a.isSuperAdmin || a.laboratoryId = some laboratoryId

def canQueryLaboratoryResource (laboratoryId : Uuid) : Bool :=
  a.canReadLaboratoryResource laboratoryId

def canManageUnits (laboratoryId : Uuid) : Bool :=
  a.isSystemAdmin || (a.isLabAdmin && a.laboratoryId = some laboratoryId)

def canManageUnit (unitId : Uuid) : Bool :=
  (d.units.find? unitId).any fun r => a.canManageUnits r.laboratoryId

def canViewUnit (unitId : Uuid) : Bool :=
  (d.units.find? unitId).any fun r => a.isSystemAdmin || a.laboratoryId = some r.laboratoryId

-- The rows that are edited by anyone who works in their laboratory.
def canManageRowOf (laboratoryId : Uuid) : Bool :=
  !a.isGuest && (a.isSystemAdmin || a.laboratoryId = some laboratoryId)

def canManageLocation (locationId : Uuid) : Bool :=
  (d.locations.find? locationId).any fun r => a.canManageRowOf r.laboratoryId

def canViewLocation (locationId : Uuid) : Bool :=
  (d.locations.find? locationId).any fun r => a.canQueryLaboratoryResource r.laboratoryId

def canManageAssetCategory (categoryId : Uuid) : Bool :=
  (d.assetCategories.find? categoryId).any fun r => a.canManageRowOf r.laboratoryId

def canViewAssetCategory (categoryId : Uuid) : Bool :=
  (d.assetCategories.find? categoryId).any fun r => a.canQueryLaboratoryResource r.laboratoryId

def canManageAssetParameter (parameterId : Uuid) : Bool :=
  (d.assetParameterTypes.find? parameterId).any fun r => a.canManageRowOf r.laboratoryId

def canViewAssetParameter (parameterId : Uuid) : Bool :=
  (d.assetParameterTypes.find? parameterId).any fun r => a.canQueryLaboratoryResource r.laboratoryId

def canManageAsset (assetId : Uuid) : Bool :=
  (d.assets.find? assetId).any fun r => a.canManageRowOf r.laboratoryId

def canViewAsset (assetId : Uuid) : Bool :=
  (d.assets.find? assetId).any fun r => a.canQueryLaboratoryResource r.laboratoryId

def canManageInventoryItem (inventoryItemId : Uuid) : Bool :=
  (d.assetInventoryItems.find? inventoryItemId).any fun r =>
    a.canWriteLaboratoryResource r.laboratoryId

def canViewInventoryItem (inventoryItemId : Uuid) : Bool :=
  (d.assetInventoryItems.find? inventoryItemId).any fun r =>
    a.canQueryLaboratoryResource r.laboratoryId

def ownsFileUpload (r : FileUploadRow) : Bool :=
  (a.isSystemAdmin || a.laboratoryId = some r.laboratoryId) &&
  (a.isSystemAdmin || a.userId = r.uploadedByUserId)

-- Missing uploads are reported by the deleting transaction.
def canManageFileUpload (uploadId : Uuid) : Bool :=
  (d.fileUploads.find? uploadId).all a.ownsFileUpload

def canAssignFileUpload (uploadId : Uuid) : Bool :=
  (d.fileUploads.find? uploadId).filter (fun r => r.consumedAt.isNone ∧ r.expiresAt > d.now)
    |>.all a.ownsFileUpload

def canManageAttachmentAssignment (attachmentId : Uuid) : Bool :=
  !a.isGuest && (d.attachmentAssignments.find? attachmentId).any fun r =>
    a.isSystemAdmin || a.laboratoryId = some r.laboratoryId

def canViewAttachmentAssignment (attachmentId : Uuid) : Bool :=
  (d.attachmentAssignments.find? attachmentId).any fun r =>
    a.isSystemAdmin || (a.laboratoryId = some r.laboratoryId && (r.isPublic || !a.isGuest))

def canBrowseLaboratories : Bool :=
  a.isRoot || a.isSuperAdmin || ((a.isLabAdmin || a.isRegularUser) && a.laboratoryId.isSome)

def canManageFederation (laboratoryId : Uuid) : Bool :=
  a.isLabAdmin && a.laboratoryId = some laboratoryId

def canReadFederation (laboratoryId : Uuid) : Bool :=
  (a.isLabAdmin || a.isRegularUser) && a.laboratoryId = some laboratoryId

def canManageLabelPrinters (laboratoryId : Uuid) : Bool :=
  a.isSystemAdmin || (a.isLabAdmin && a.laboratoryId = some laboratoryId)

def canUseLabelPrinters (laboratoryId : Uuid) : Bool :=
  a.canBrowseLaboratoryInternalResource laboratoryId

def canManageLabelPrinter (printerId : Uuid) : Bool :=
  (d.labelPrinters.find? printerId).any fun r => a.canManageLabelPrinters r.laboratoryId

def canUseLabelPrinter (printerId : Uuid) : Bool :=
  (d.labelPrinters.find? printerId).any fun r => a.canUseLabelPrinters r.laboratoryId

end Actor

def validatePermission (d : Database) (a : Actor) : ResourceType → Action → Bool
  | .laboratory, .create _ | .laboratory, .delete _ => a.isSystemAdmin
  | .laboratory, .read laboratoryId | .laboratory, .update laboratoryId =>
    a.isSystemAdmin || (a.isLabAdmin && a.laboratoryId = some laboratoryId)
  | .laboratory, .browse _ => a.canBrowseLaboratories
  | .laboratory, _ => false
  | .user, .createUser role | .user, .deleteUser role => a.canManageUser role
  | .user, .read userId => a.canViewUser d userId
  | .user, .updateUser target update => a.canManageUser target && a.canManageUser update
  | .user, _ => false
  | .guestRegistrationCode, .create laboratoryId => a.canCreateGuestRegistrationCode laboratoryId
  | .guestRegistrationCode, _ => false
  | .unit, .create laboratoryId => a.canManageUnits laboratoryId
  | .unit, .delete unitId | .unit, .update unitId => a.canManageUnit d unitId
  | .unit, .read unitId => a.canViewUnit d unitId
  | .unit, .browse laboratoryId => a.canBrowseLaboratoryResource laboratoryId
  | .unit, _ => false
  | .labelPrinter, .create laboratoryId => a.canManageLabelPrinters laboratoryId
  | .labelPrinter, .update printerId | .labelPrinter, .delete printerId =>
    a.canManageLabelPrinter d printerId
  | .labelPrinter, .browse laboratoryId => a.canUseLabelPrinters laboratoryId
  | .labelPrinter, .read printerId => a.canUseLabelPrinter d printerId
  | .labelPrinter, _ => false
  | .location, .create laboratoryId => a.canWriteLaboratoryResource laboratoryId
  | .location, .delete locationId | .location, .update locationId => a.canManageLocation d locationId
  | .location, .read locationId => a.canViewLocation d locationId
  | .location, .browse laboratoryId => a.canQueryLaboratoryResource laboratoryId
  | .location, _ => false
  | .asset, .create laboratoryId => a.canWriteLaboratoryResource laboratoryId
  | .asset, .delete assetId | .asset, .update assetId => a.canManageAsset d assetId
  | .asset, .read assetId => a.canViewAsset d assetId
  | .asset, .browse laboratoryId => a.canQueryLaboratoryResource laboratoryId
  | .asset, .browseInternal laboratoryId => a.canReadLaboratoryResource laboratoryId
  | .asset, _ => false
  | .inventoryItem, .create laboratoryId => a.canWriteLaboratoryResource laboratoryId
  | .inventoryItem, .delete itemId | .inventoryItem, .update itemId =>
    a.canManageInventoryItem d itemId
  | .inventoryItem, .read itemId => a.canViewInventoryItem d itemId
  | .inventoryItem, .browse laboratoryId => a.canQueryLaboratoryResource laboratoryId
  | .inventoryItem, .browseInternal laboratoryId => a.canReadLaboratoryResource laboratoryId
  | .inventoryItem, _ => false
  | .assetCategory, .create laboratoryId => a.canWriteLaboratoryResource laboratoryId
  | .assetCategory, .delete categoryId | .assetCategory, .update categoryId =>
    a.canManageAssetCategory d categoryId
  | .assetCategory, .read categoryId => a.canViewAssetCategory d categoryId
  | .assetCategory, .browse laboratoryId => a.canQueryLaboratoryResource laboratoryId
  | .assetCategory, _ => false
  | .assetParameter, .create laboratoryId => a.canWriteLaboratoryResource laboratoryId
  | .assetParameter, .delete parameterId | .assetParameter, .update parameterId =>
    a.canManageAssetParameter d parameterId
  | .assetParameter, .read parameterId => a.canViewAssetParameter d parameterId
  | .assetParameter, .browse laboratoryId => a.canQueryLaboratoryResource laboratoryId
  | .assetParameter, _ => false
  | .fileUpload, .create laboratoryId => a.canWriteLaboratoryResource laboratoryId
  | .fileUpload, .delete uploadId => a.canManageFileUpload d uploadId
  | .fileUpload, .read _ => true
  | .fileUpload, .browse laboratoryId => a.canBrowseLaboratoryResource laboratoryId
  | .fileUpload, .assign uploadId => a.canAssignFileUpload d uploadId
  | .fileUpload, _ => false
  | .attachmentAssignment, .create laboratoryId => a.canWriteLaboratoryResource laboratoryId
  | .attachmentAssignment, .delete attachmentId | .attachmentAssignment, .update attachmentId =>
    a.canManageAttachmentAssignment d attachmentId
  | .attachmentAssignment, .read attachmentId => a.canViewAttachmentAssignment d attachmentId
  | .attachmentAssignment, .browse laboratoryId => a.canQueryLaboratoryResource laboratoryId
  | .attachmentAssignment, .browseInternal laboratoryId =>
    a.canBrowseLaboratoryInternalResource laboratoryId
  | .attachmentAssignment, _ => false
  | .federation, .create laboratoryId | .federation, .update laboratoryId
  | .federation, .delete laboratoryId | .federation, .browseInternal laboratoryId =>
    a.canManageFederation laboratoryId
  | .federation, .browse laboratoryId => a.canReadFederation laboratoryId
  | .federation, _ => false

end LabInventory
