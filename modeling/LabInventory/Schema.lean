import LabInventory.Domain.AssetParameter
import LabInventory.Domain.Inventory
import LabInventory.Domain.Tree
import LabInventory.Domain.User
import LabInventory.Library.Except
import LabInventory.Library.ReadCommitted
import LabInventory.Library.Table

open Sql

namespace LabInventory

-- Points in time, in microseconds.
abbrev Timestamp := Int

def nilUuid : Uuid := 0

-- The primary keys, unique indexes, foreign keys and checks that can reject a write.
inductive Constraint
  | laboratoriesPkey
  | laboratoriesNameKey
  | usersPkey
  | usersUsernameKey
  | usersEmailKey
  | usersPhoneNumberKey
  | usersLaboratoryIdFkey
  | treePkey (kind : TreeKind)
  | treeSiblingName (kind : TreeKind)
  | treeSiblingCode (kind : TreeKind)
  | treePath (kind : TreeKind)
  | unitsPkey
  | unitsCodeKey
  | assetsPkey
  | assetsLaboratoryNameModel
  | assetsInventoryUnitIdFkey
  | assetParameterTypesPkey
  | assetParameterTypesCodeKey
  | assetParameterTypesCheck
  | assetParameterOptionsPkey
  | assetParameterOptionsCodeKey
  | assetParameterOptionsParameterTypeIdFkey
  | assetParameterValuesPkey
  | assetParameterValuesAssetKey
  | assetParameterValuesOptionFkey
  | assetParameterValuesCheck
  | assetParameterValuesBaseCheck
  | assetParameterAssignmentsPkey
  | assetParameterAssignmentCategory
  | assetParameterAssignmentAsset
  | inventoryItemsPkey
  | inventoryItemsAssetSerialNumber
  | inventoryItemsQuantityAggregate
  | fileUploadsPkey
  | fileUploadsStorageKeyKey
  | fileUploadsUploadedByUserIdFkey
  | filesPkey
  | filesStorageKeyKey
  | attachmentAssignmentsPkey
  | attachmentAssignmentsFileFkey
  | attachmentAssignmentsAssetFkey
  | attachmentAssignmentsInventoryItemFkey
  | attachmentAssignmentsCheck
  | labelPrintersPkey
  | labelPrintersLaboratoryName
  | borrowRequestsPkey
  | remoteNodesPkey
  | remoteNodesBaseUrlKey
  | remoteNodesCheck
  | laboratoryTrustsPkey
  | laboratoryTrustsKey
  | laboratoryTrustsLaboratoryFkey
  | laboratoryTrustsRemoteNodeFkey
  | pairingCodesPkey
  | pairingCodesCodeHashKey
  | pairingCodesLaboratoryFkey
  | pairingCodesCheck
  | requestNoncesPkey
  | requestNoncesRemoteNodeFkey
  | requestNoncesCheck
  | guestLinksPkey
  | guestLinksKey
  | guestLinksLaboratoryFkey
  | guestLinksRemoteNodeFkey
  | guestLinksLocalGuestUserFkey
  | guestLinksCheck
  | guestRegistrationCodesPkey
  | guestRegistrationCodesLaboratoryActive
  | guestRegistrationCodesCodeActive
  | guestRegistrationCodesLaboratoryFkey
  | guestRegistrationCodesCreatedByUserIdFkey
  | guestRegistrationCodesCheck
deriving DecidableEq

-- The constraints whose violation is reported as `23503`, instead of `23505`.
def Constraint.isForeignKey : Constraint → Bool
  | usersLaboratoryIdFkey | fileUploadsUploadedByUserIdFkey | assetParameterValuesOptionFkey
  | assetParameterOptionsParameterTypeIdFkey
  | laboratoryTrustsLaboratoryFkey | laboratoryTrustsRemoteNodeFkey | pairingCodesLaboratoryFkey
  | requestNoncesRemoteNodeFkey | guestLinksLaboratoryFkey | guestLinksRemoteNodeFkey
  | guestLinksLocalGuestUserFkey | attachmentAssignmentsFileFkey | attachmentAssignmentsAssetFkey
  | attachmentAssignmentsInventoryItemFkey | guestRegistrationCodesLaboratoryFkey
  | guestRegistrationCodesCreatedByUserIdFkey | assetsInventoryUnitIdFkey => true
  | _ => false

-- The constraints whose violation is reported as `23514`.
def Constraint.isCheck : Constraint → Bool
  | assetParameterValuesCheck | assetParameterValuesBaseCheck | remoteNodesCheck
  | pairingCodesCheck | requestNoncesCheck | guestLinksCheck | assetParameterTypesCheck
  | attachmentAssignmentsCheck | guestRegistrationCodesCheck => true
  | _ => false

structure LaboratoryRow where
  laboratoryId : Uuid
  name : String
deriving DecidableEq

instance : TableSchema LaboratoryRow Uuid Constraint where
  decEq := inferInstance
  key := (·.laboratoryId)
  primaryKey := .laboratoriesPkey
  indexes := [⟨.laboratoriesNameKey, String, (some ·.name)⟩]

structure UserRow where
  userId : Uuid
  username : String
  passwordHash : String
  userType : UserType
  laboratoryId : Option Uuid
  email : Option String
  phoneNumber : Option String
  description : Option String
  isFederationShadow : Bool := false
deriving DecidableEq

instance : TableSchema UserRow Uuid Constraint where
  decEq := inferInstance
  key := (·.userId)
  primaryKey := .usersPkey
  indexes := [
    ⟨.usersUsernameKey, String, (some ·.username)⟩,
    ⟨.usersEmailKey, String, (·.email)⟩,
    ⟨.usersPhoneNumberKey, String, (·.phoneNumber)⟩
  ]

-- The rows of `locations` and `asset_categories`.
structure TreeRow (kind : TreeKind) where
  id : Uuid
  laboratoryId : Uuid
  parentId : Option Uuid
  name : String
  code : TreeCode
  path : Ltree
  depth : Int
  description : Option String
deriving DecidableEq

abbrev LocationRow := TreeRow .location
abbrev AssetCategoryRow := TreeRow .assetCategory

-- Roots of a laboratory count as siblings.
instance {kind} : TableSchema (TreeRow kind) Uuid Constraint where
  decEq := inferInstance
  key := (·.id)
  primaryKey := .treePkey kind
  indexes := [
    ⟨.treeSiblingName kind, Uuid × Uuid × String,
      fun r => some (r.laboratoryId, r.parentId.getD nilUuid, r.name)⟩,
    ⟨.treeSiblingCode kind, Uuid × Uuid × TreeCode,
      fun r => some (r.laboratoryId, r.parentId.getD nilUuid, r.code)⟩,
    ⟨.treePath kind, Uuid × Ltree, fun r => some (r.laboratoryId, r.path)⟩
  ]

structure UnitRow where
  unitId : Uuid
  laboratoryId : Uuid
  code : String
  name : String
  symbol : String
  dimension : String
  scaleToBase : { q : ℚ // 0 < q }
  allowDecimal : Bool
deriving DecidableEq

instance : TableSchema UnitRow Uuid Constraint where
  decEq := inferInstance
  key := (·.unitId)
  primaryKey := .unitsPkey
  indexes := [⟨.unitsCodeKey, Uuid × String, fun r => some (r.laboratoryId, r.code)⟩]

structure AssetRow where
  assetId : Uuid
  laboratoryId : Uuid
  categoryId : Option Uuid
  trackingMode : AssetTrackingMode
  name : String
  model : Option String
  manufacturer : Option String
  inventoryUnitId : Uuid
  publicNotes : Option String
  internalNotes : Option String
deriving DecidableEq

instance : TableSchema AssetRow Uuid Constraint where
  decEq := inferInstance
  key := (·.assetId)
  primaryKey := .assetsPkey
  indexes := [
    ⟨.assetsLaboratoryNameModel, Uuid × String × String,
      fun r => some (r.laboratoryId, r.name, r.model.getD "")⟩
  ]

structure InventoryItemRow where
  inventoryItemId : Uuid
  assetId : Uuid
  laboratoryId : Uuid
  trackingMode : AssetTrackingMode
  serialNumber : Option String
  batchNumber : Option String
  quantityOnHand : ℚ
  quantityAllocated : ℚ
  locationId : Option Uuid
  status : InventoryStatus
  publicNotes : Option String
  internalNotes : Option String
deriving DecidableEq

instance : TableSchema InventoryItemRow Uuid Constraint where
  decEq := inferInstance
  key := (·.inventoryItemId)
  primaryKey := .inventoryItemsPkey
  indexes := [
    ⟨.inventoryItemsAssetSerialNumber, Uuid × Uuid × String,
      fun r => r.serialNumber.map fun s => (r.laboratoryId, r.assetId, s)⟩,
    ⟨.inventoryItemsQuantityAggregate, Uuid × Uuid × String × Uuid × InventoryStatus,
      fun r => if r.trackingMode = .quantity then
        some (r.laboratoryId, r.assetId, r.batchNumber.getD "", r.locationId.getD nilUuid, r.status)
      else
        none⟩
  ]

structure AssetParameterTypeRow where
  parameterTypeId : Uuid
  laboratoryId : Uuid
  code : String
  name : String
  dataType : AssetParameterDataType
  unitDimension : Option String
  defaultUnitId : Option Uuid
  description : Option String
deriving DecidableEq

-- Only numeric parameters have a unit.
def AssetParameterTypeRow.HasValidUnit (r : AssetParameterTypeRow) : Bool :=
  r.dataType.IsNumeric || (r.unitDimension.isNone && r.defaultUnitId.isNone)

instance : TableSchema AssetParameterTypeRow Uuid Constraint where
  decEq := inferInstance
  key := (·.parameterTypeId)
  primaryKey := .assetParameterTypesPkey
  indexes := [⟨.assetParameterTypesCodeKey, Uuid × String, fun r => some (r.laboratoryId, r.code)⟩]

structure AssetParameterOptionRow where
  optionId : Uuid
  parameterTypeId : Uuid
  code : String
  label : String
  sortOrder : Int
deriving DecidableEq

instance : TableSchema AssetParameterOptionRow Uuid Constraint where
  decEq := inferInstance
  key := (·.optionId)
  primaryKey := .assetParameterOptionsPkey
  indexes := [
    ⟨.assetParameterOptionsCodeKey, Uuid × String, fun r => some (r.parameterTypeId, r.code)⟩
  ]

structure AssetParameterValueRow where
  valueId : Uuid
  laboratoryId : Uuid
  assetId : Uuid
  parameterTypeId : Uuid
  dataType : AssetParameterDataType
  columns : ParameterValueColumns
deriving DecidableEq

namespace AssetParameterValueRow

-- The columns of the data type have to be filled. Those of other types may be, too.
def HasValue (r : AssetParameterValueRow) : Bool :=
  match r.dataType with
  | .text => r.columns.valueText.isSome
  | .number => r.columns.valueNumber.isSome
  | .range => r.columns.valueRangeStart.any fun start => r.columns.valueRangeEnd.any (start ≤ ·)
  | .boolean => r.columns.valueBoolean.isSome
  | .date => r.columns.valueDate.isSome
  | .enum => r.columns.valueOptionId.isSome

def HasBaseRange (r : AssetParameterValueRow) : Bool :=
  r.columns.valueRangeStartInBase.all fun start => r.columns.valueRangeEndInBase.all (start ≤ ·)

end AssetParameterValueRow

instance : TableSchema AssetParameterValueRow Uuid Constraint where
  decEq := inferInstance
  key := (·.valueId)
  primaryKey := .assetParameterValuesPkey
  indexes := [
    ⟨.assetParameterValuesAssetKey, Uuid × Uuid, fun r => some (r.assetId, r.parameterTypeId)⟩
  ]

structure AssetParameterAssignmentRow where
  assignmentId : Uuid
  laboratoryId : Uuid
  parameterTypeId : Uuid
  categoryId : Option Uuid
  assetId : Option Uuid
  appliesToDescendants : Bool
  isRequired : Bool
  sortOrder : Int
deriving DecidableEq

instance : TableSchema AssetParameterAssignmentRow Uuid Constraint where
  decEq := inferInstance
  key := (·.assignmentId)
  primaryKey := .assetParameterAssignmentsPkey
  indexes := [
    ⟨.assetParameterAssignmentCategory, Uuid × Uuid,
      fun r => r.categoryId.map fun c => (c, r.parameterTypeId)⟩,
    ⟨.assetParameterAssignmentAsset, Uuid × Uuid,
      fun r => r.assetId.map fun a => (a, r.parameterTypeId)⟩
  ]

structure FileUploadRow where
  uploadId : Uuid
  laboratoryId : Uuid
  storageKey : String
  uploadedByUserId : Uuid
  expiresAt : Timestamp
  consumedAt : Option Timestamp
deriving DecidableEq

instance : TableSchema FileUploadRow Uuid Constraint where
  decEq := inferInstance
  key := (·.uploadId)
  primaryKey := .fileUploadsPkey
  indexes := [⟨.fileUploadsStorageKeyKey, String, (some ·.storageKey)⟩]

structure FileRow where
  fileId : Uuid
  laboratoryId : Uuid
  storageKey : String
deriving DecidableEq

instance : TableSchema FileRow Uuid Constraint where
  decEq := inferInstance
  key := (·.fileId)
  primaryKey := .filesPkey
  indexes := [⟨.filesStorageKeyKey, String, (some ·.storageKey)⟩]

structure AttachmentAssignmentRow where
  attachmentId : Uuid
  laboratoryId : Uuid
  fileId : Uuid
  assetId : Option Uuid
  inventoryItemId : Option Uuid
  isPublic : Bool
deriving DecidableEq

instance : TableSchema AttachmentAssignmentRow Uuid Constraint where
  decEq := inferInstance
  key := (·.attachmentId)
  primaryKey := .attachmentAssignmentsPkey
  indexes := []

structure LabelPrinterRow where
  printerId : Uuid
  laboratoryId : Uuid
  name : String
deriving DecidableEq

instance : TableSchema LabelPrinterRow Uuid Constraint where
  decEq := inferInstance
  key := (·.printerId)
  primaryKey := .labelPrintersPkey
  indexes := [⟨.labelPrintersLaboratoryName, Uuid × String, fun r => some (r.laboratoryId, r.name)⟩]

inductive BorrowRequestStatus
  | pending
  | approved
  | rejected
  | cancelled
deriving DecidableEq

structure BorrowRequestRow where
  borrowRequestId : Uuid
  localLaboratoryId : Uuid
  inventoryItemId : Uuid
  requesterUserId : Option Uuid
  requesterUsername : String
  requesterUserType : UserType
  requesterGuestLinkId : Option Uuid
  requestNote : Option String
  status : BorrowRequestStatus
  reviewedByUserId : Option Uuid
  reviewedByUsername : Option String
  reviewedByUserType : Option UserType
  reviewedAt : Option Timestamp
  decisionNote : Option String
  createdAt : Timestamp
deriving DecidableEq

-- The partial index `uq_federation_borrow_requests_pending_item` is left out: the locks of the
-- transactions have to make up for it.
instance : TableSchema BorrowRequestRow Uuid Constraint where
  decEq := inferInstance
  key := (·.borrowRequestId)
  primaryKey := .borrowRequestsPkey
  indexes := []

inductive FederationStatus
  | active
  | revoked
deriving DecidableEq

structure RemoteNodeRow where
  remoteNodeId : Uuid
  baseUrl : String
  displayName : Option String
  sharedSecret : String
  sharedSecretHash : String
  tlsCertificateSha256 : Option String
  status : FederationStatus
  keyVersion : Int
  lastHandshakeAt : Option Timestamp
deriving DecidableEq

namespace RemoteNodeRow

-- The pattern `^[0-9a-f]{64}$`.
def IsPin (pin : String) : Bool :=
  pin.length = 64 && pin.toList.all fun c => c.isDigit || ('a' ≤ c && c ≤ 'f')

def IsValid (r : RemoteNodeRow) : Bool :=
  r.baseUrl ≠ "" && r.sharedSecret ≠ "" && r.sharedSecretHash ≠ "" && 0 < r.keyVersion &&
  r.tlsCertificateSha256.all IsPin

end RemoteNodeRow

instance : TableSchema RemoteNodeRow Uuid Constraint where
  decEq := inferInstance
  key := (·.remoteNodeId)
  primaryKey := .remoteNodesPkey
  indexes := [⟨.remoteNodesBaseUrlKey, String, (some ·.baseUrl)⟩]

structure TrustRow where
  trustId : Uuid
  localLaboratoryId : Uuid
  remoteNodeId : Uuid
  remoteLaboratoryId : Uuid
  remoteLaboratoryName : Option String
  status : FederationStatus
  revokedAt : Option Timestamp
deriving DecidableEq

instance : TableSchema TrustRow Uuid Constraint where
  decEq := inferInstance
  key := (·.trustId)
  primaryKey := .laboratoryTrustsPkey
  indexes := [
    ⟨.laboratoryTrustsKey, Uuid × Uuid × Uuid,
      fun r => some (r.localLaboratoryId, r.remoteNodeId, r.remoteLaboratoryId)⟩
  ]

structure PairingCodeRow where
  pairingCodeId : Uuid
  localLaboratoryId : Uuid
  codeHash : String
  expiresAt : Timestamp
  consumedAt : Option Timestamp
  createdAt : Timestamp
deriving DecidableEq

def PairingCodeRow.IsValid (r : PairingCodeRow) : Bool :=
  r.codeHash ≠ "" && r.createdAt < r.expiresAt

instance : TableSchema PairingCodeRow Uuid Constraint where
  decEq := inferInstance
  key := (·.pairingCodeId)
  primaryKey := .pairingCodesPkey
  indexes := [⟨.pairingCodesCodeHashKey, String, (some ·.codeHash)⟩]

structure RequestNonceRow where
  remoteNodeId : Uuid
  nonce : String
  expiresAt : Timestamp
deriving DecidableEq

instance : TableSchema RequestNonceRow (Uuid × String) Constraint where
  decEq := inferInstance
  key r := (r.remoteNodeId, r.nonce)
  primaryKey := .requestNoncesPkey
  indexes := []

structure GuestLinkRow where
  linkId : Uuid
  localLaboratoryId : Uuid
  remoteNodeId : Uuid
  remoteLaboratoryId : Uuid
  remoteUserId : Uuid
  remoteUsername : String
  remoteUserType : String
  localGuestUserId : Uuid
deriving DecidableEq

def GuestLinkRow.IsValid (r : GuestLinkRow) : Bool :=
  r.remoteUsername ≠ "" && ["lab_admin", "user"].contains r.remoteUserType

-- Whom a guest link stands in for.
def GuestLinkRow.remote (r : GuestLinkRow) : Uuid × Uuid × Uuid × Uuid :=
  (r.localLaboratoryId, r.remoteNodeId, r.remoteLaboratoryId, r.remoteUserId)

instance : TableSchema GuestLinkRow Uuid Constraint where
  decEq := inferInstance
  key := (·.linkId)
  primaryKey := .guestLinksPkey
  indexes := [⟨.guestLinksKey, Uuid × Uuid × Uuid × Uuid, (some ·.remote)⟩]

structure GuestRegistrationCodeRow where
  registrationCodeId : Uuid
  laboratoryId : Uuid
  codeHmac : String
  createdByUserId : Uuid
  createdAt : Timestamp
  expiresAt : Timestamp
  consumedAt : Option Timestamp
  revokedAt : Option Timestamp
deriving DecidableEq

namespace GuestRegistrationCodeRow

def IsOutstanding (r : GuestRegistrationCodeRow) : Bool :=
  r.consumedAt.isNone && r.revokedAt.isNone

def IsValid (r : GuestRegistrationCodeRow) : Bool :=
  RemoteNodeRow.IsPin r.codeHmac && r.createdAt < r.expiresAt &&
  !(r.consumedAt.isSome && r.revokedAt.isSome)

end GuestRegistrationCodeRow

instance : TableSchema GuestRegistrationCodeRow Uuid Constraint where
  decEq := inferInstance
  key := (·.registrationCodeId)
  primaryKey := .guestRegistrationCodesPkey
  indexes := [
    ⟨.guestRegistrationCodesLaboratoryActive, Uuid,
      fun r => if r.IsOutstanding then some r.laboratoryId else none⟩,
    ⟨.guestRegistrationCodesCodeActive, String,
      fun r => if r.IsOutstanding then some r.codeHmac else none⟩
  ]

-- The clocks of the database and of the server go their own ways.
structure Database where
  laboratories : Table LaboratoryRow
  users : Table UserRow
  locations : Table LocationRow
  assetCategories : Table AssetCategoryRow
  units : Table UnitRow
  assets : Table AssetRow
  assetInventoryItems : Table InventoryItemRow
  assetParameterTypes : Table AssetParameterTypeRow
  assetParameterOptions : Table AssetParameterOptionRow
  assetParameterValues : Table AssetParameterValueRow
  assetParameterAssignments : Table AssetParameterAssignmentRow
  fileUploads : Table FileUploadRow
  files : Table FileRow
  attachmentAssignments : Table AttachmentAssignmentRow
  labelPrinters : Table LabelPrinterRow
  borrowRequests : Table BorrowRequestRow
  localNodeId : Option Uuid
  remoteNodes : Table RemoteNodeRow
  laboratoryTrusts : Table TrustRow
  pairingCodes : Table PairingCodeRow
  requestNonces : Table RequestNonceRow
  guestLinks : Table GuestLinkRow
  guestRegistrationCodes : Table GuestRegistrationCodeRow
  now : Timestamp
  serverNow : Timestamp

-- The elementary writes. Those of the clocks are made by the environment only: time passes.
inductive Write
  | laboratories (w : RowWrite LaboratoryRow Uuid)
  | users (w : RowWrite UserRow Uuid)
  | tree (kind : TreeKind) (w : RowWrite (TreeRow kind) Uuid)
  | units (w : RowWrite UnitRow Uuid)
  | assets (w : RowWrite AssetRow Uuid)
  | assetInventoryItems (w : RowWrite InventoryItemRow Uuid)
  | assetParameterTypes (w : RowWrite AssetParameterTypeRow Uuid)
  | assetParameterOptions (w : RowWrite AssetParameterOptionRow Uuid)
  | assetParameterValues (w : RowWrite AssetParameterValueRow Uuid)
  | assetParameterAssignments (w : RowWrite AssetParameterAssignmentRow Uuid)
  | fileUploads (w : RowWrite FileUploadRow Uuid)
  | files (w : RowWrite FileRow Uuid)
  | attachmentAssignments (w : RowWrite AttachmentAssignmentRow Uuid)
  | labelPrinters (w : RowWrite LabelPrinterRow Uuid)
  | borrowRequests (w : RowWrite BorrowRequestRow Uuid)
  | remoteNodes (w : RowWrite RemoteNodeRow Uuid)
  | laboratoryTrusts (w : RowWrite TrustRow Uuid)
  | pairingCodes (w : RowWrite PairingCodeRow Uuid)
  | requestNonces (w : RowWrite RequestNonceRow (Uuid × String))
  | guestLinks (w : RowWrite GuestLinkRow Uuid)
  | guestRegistrationCodes (w : RowWrite GuestRegistrationCodeRow Uuid)
  | clock (now : Timestamp)
  | serverClock (now : Timestamp)

-- What can be locked: rows, and the entries of unique indexes that an insertion is waiting for. The
-- guest links of a user are what a cascade visits after the user.
inductive RowId
  | laboratory (id : Uuid)
  | user (id : Uuid)
  | tree (kind : TreeKind) (id : Uuid)
  | unit (id : Uuid)
  | asset (id : Uuid)
  | assetParameterType (id : Uuid)
  | assetParameterOption (id : Uuid)
  | assetParameterValue (id : Uuid)
  | assetParameterAssignment (id : Uuid)
  | inventoryItem (id : Uuid)
  | fileUpload (id : Uuid)
  | file (id : Uuid)
  | attachmentAssignment (id : Uuid)
  | borrowRequest (id : Uuid)
  | remoteNode (id : Uuid)
  | laboratoryTrust (localLaboratoryId remoteNodeId remoteLaboratoryId : Uuid)
  | pairingCode (id : Uuid)
  | guestLink (id : Uuid)
  | guestLinksOf (userId : Uuid)
  | guestLinkEntry (remote : Uuid × Uuid × Uuid × Uuid)
  | guestRegistrationCode (id : Uuid)
  | guestRegistrationCodeEntry (codeHmac : String)
  | usernameEntry (username : String)
  | requestNonce (remoteNodeId : Uuid) (nonce : String)
deriving DecidableEq

inductive ApiError
  | validation (message : String)
  | unauthorized (message : String)
  | forbidden (message : String)
  | notFound (message : String)
  | conflict (message : String)
  | badGateway (message : String)
  | unexpected (message : String)
deriving DecidableEq

namespace ApiError

def statusCode : ApiError → Nat
  | validation _ => 400
  | unauthorized _ => 401
  | forbidden _ => 403
  | notFound _ => 404
  | conflict _ => 409
  | badGateway _ => 502
  | unexpected _ => 500

def message : ApiError → String
  | validation message | unauthorized message | forbidden message | notFound message
  | conflict message | badGateway message | unexpected message => message

end ApiError

-- A statement that has to return a row, but does not.
def rowNotFound : ApiError :=
  .unexpected "no rows returned by a query that expected to return at least one row"

abbrev Transaction := Program Database RowId Write Constraint ApiError

-- What the parsers reject is reported as it is.
def Transaction.validated {α} (r : Except String α) : Transaction α :=
  .ofExcept <| r.mapError .validation

@[simp]
theorem Transaction.wp_validated {α r I R Q d} [Storage Database Write Constraint] :
    (validated r : Transaction α).wp I R Q d ↔
      (∀ a, r = .ok a → Q a d) ∧ (∀ e, r = .error e → R (.validation e)) := by
  simp [validated]

-- PostgreSQL refuses a text with the character U+0000 wherever it is bound. What is stored has none.
def StorableText (s : String) : Bool :=
  !s.toList.contains '\x00'

theorem storableText_iff {s : String} : StorableText s ↔ ∀ c ∈ s.toList, c ≠ '\x00' := by
  rw [StorableText, Bool.not_eq_true', ← Bool.not_eq_true, List.contains_iff_mem]
  exact ⟨fun h _ hm he => h (he ▸ hm), fun h hm => h _ hm rfl⟩

theorem storableText_trim {s : String} (h : StorableText s) : StorableText (Text.trim s) :=
  storableText_iff.mpr fun c hc => storableText_iff.mp h c (Text.mem_of_mem_trim hc)

def untranslatable : ApiError :=
  .unexpected "invalid byte sequence for encoding \"UTF8\": 0x00"

-- Binds the texts of a statement. The statements on users, trees, assets, files and remote nodes are
-- modelled for storable texts only.
def Transaction.bindTexts (texts : List String) : Transaction Unit :=
  .require (texts.all StorableText) untranslatable

@[simp]
theorem Transaction.wp_bindTexts {texts I R Q d} [Storage Database Write Constraint] :
    (bindTexts texts).wp I R Q d ↔
      ((∀ s ∈ texts, StorableText s) → Q () d) ∧ ((¬∀ s ∈ texts, StorableText s) → R untranslatable) := by
  simp only [bindTexts, Program.wp_require, List.all_eq_true]

@[simp]
theorem Transaction.readOnly_bindTexts {texts} : (bindTexts texts).ReadOnly :=
  Program.readOnly_require

namespace Database

def tree (d : Database) : (kind : TreeKind) → Table (TreeRow kind)
  | .location => d.locations
  | .assetCategory => d.assetCategories

def setTree (d : Database) : (kind : TreeKind) → Table (TreeRow kind) → Database
  | .location, t => { d with locations := t }
  | .assetCategory, t => { d with assetCategories := t }

-- Parameter assignments disappear with their category.
def writeTree (d : Database) (kind : TreeKind) (w : RowWrite (TreeRow kind) Uuid) :
    Except Constraint Database := do
  let d := d.setTree kind (← (d.tree kind).write w)
  match kind, w with
  | .assetCategory, .delete k => return { d with
      assetParameterAssignments := d.assetParameterAssignments.filter (·.categoryId ≠ some k)
    }
  | _, _ => return d

-- Guest links disappear with the rows that they refer to. Borrow requests forget about the link.
def deleteGuestLinks (d : Database) (p : GuestLinkRow → Bool) : Database :=
  { d with
    guestLinks := d.guestLinks.filter fun r => !p r
    borrowRequests := d.borrowRequests.modify (fun r => { r with
      requesterGuestLinkId := r.requesterGuestLinkId.filter fun linkId =>
        !d.guestLinks.rows.any fun link => p link && link.linkId = linkId
    }) fun _ => ⟨rfl, by simp [TableSchema.indexes]⟩ }

-- Uploads keep their user from being deleted. Borrow requests forget about the user, and the guest
-- links and registration codes of the user disappear.
def writeUsers (d : Database) (w : RowWrite UserRow Uuid) : Except Constraint Database := do
  let users ← d.users.write w
  match w with
  | .insert r | .update r =>
    .check (r.laboratoryId.all fun l => (d.laboratories.find? l).isSome) .usersLaboratoryIdFkey
    return { d with users }
  | .delete k =>
    .check (¬d.fileUploads.rows.any (·.uploadedByUserId = k)) .fileUploadsUploadedByUserIdFkey
    let forget (id : Option Uuid) := id.filter (· ≠ k)
    let borrowRequests := d.borrowRequests.modify (fun r => { r with
      requesterUserId := forget r.requesterUserId
      reviewedByUserId := forget r.reviewedByUserId
    }) fun _ => ⟨rfl, by simp [TableSchema.indexes]⟩
    let guestRegistrationCodes := d.guestRegistrationCodes.filter (·.createdByUserId ≠ k)
    return deleteGuestLinks { d with users, borrowRequests, guestRegistrationCodes }
      (·.localGuestUserId = k)

-- Attachments and borrow requests disappear with their item.
def writeAssetInventoryItems (d : Database) (w : RowWrite InventoryItemRow Uuid) :
    Except Constraint Database := do
  let assetInventoryItems ← d.assetInventoryItems.write w
  match w with
  | .insert _ | .update _ => return { d with assetInventoryItems }
  | .delete k => return { d with
      assetInventoryItems
      attachmentAssignments := d.attachmentAssignments.filter (·.inventoryItemId ≠ some k)
      borrowRequests := d.borrowRequests.filter (·.inventoryItemId ≠ k)
    }

-- The items and values of an asset disappear with it, and what is attached to any of them. Files do
-- not.
def writeAssets (d : Database) (w : RowWrite AssetRow Uuid) : Except Constraint Database := do
  let assets ← d.assets.write w
  match w with
  | .insert r | .update r =>
    .check (d.units.find? r.inventoryUnitId).isSome .assetsInventoryUnitIdFkey
    return { d with assets }
  | .delete k =>
    let isItem (id : Uuid) : Bool := (d.assetInventoryItems.find? id).any (·.assetId = k)
    return { d with
      assets
      assetInventoryItems := d.assetInventoryItems.filter (·.assetId ≠ k)
      assetParameterValues := d.assetParameterValues.filter (·.assetId ≠ k)
      assetParameterAssignments := d.assetParameterAssignments.filter (·.assetId ≠ some k)
      attachmentAssignments := d.attachmentAssignments.filter fun r =>
        r.assetId ≠ some k ∧ ¬r.inventoryItemId.any isItem
      borrowRequests := d.borrowRequests.filter (¬isItem ·.inventoryItemId)
    }

-- The options, values and assignments of a parameter disappear with it.
def writeAssetParameterTypes (d : Database) (w : RowWrite AssetParameterTypeRow Uuid) :
    Except Constraint Database := do
  match w with
  | .insert r | .update r =>
    .check r.HasValidUnit .assetParameterTypesCheck
    return { d with assetParameterTypes := ← d.assetParameterTypes.write w }
  | .delete k => return { d with
      assetParameterTypes := d.assetParameterTypes.delete k
      assetParameterOptions := d.assetParameterOptions.filter (·.parameterTypeId ≠ k)
      assetParameterValues := d.assetParameterValues.filter (·.parameterTypeId ≠ k)
      assetParameterAssignments := d.assetParameterAssignments.filter (·.parameterTypeId ≠ k)
    }

-- An option can only be deleted once no value points to it.
def writeAssetParameterOptions (d : Database) (w : RowWrite AssetParameterOptionRow Uuid) :
    Except Constraint Database := do
  let assetParameterOptions ← d.assetParameterOptions.write w
  match w with
  | .insert r | .update r =>
    .check (d.assetParameterTypes.find? r.parameterTypeId).isSome
      .assetParameterOptionsParameterTypeIdFkey
    return { d with assetParameterOptions }
  | .delete k =>
    .check (¬d.assetParameterValues.rows.any (·.columns.valueOptionId = some k))
      .assetParameterValuesOptionFkey
    return { d with assetParameterOptions }

-- The foreign key to the parameter's data type is left out: it is deferred, and holds in the end.
def writeAssetParameterValues (d : Database) (w : RowWrite AssetParameterValueRow Uuid) :
    Except Constraint Database := do
  let hasOption (r : AssetParameterValueRow) : Bool := r.columns.valueOptionId.all fun o =>
    (d.assetParameterOptions.find? o).any (·.parameterTypeId = r.parameterTypeId)
  match w with
  | .insert r | .update r =>
    .check r.HasValue .assetParameterValuesCheck
    .check r.HasBaseRange .assetParameterValuesBaseCheck
    let assetParameterValues ← d.assetParameterValues.write w
    .check (hasOption r) .assetParameterValuesOptionFkey
    return { d with assetParameterValues }
  | .delete k => return { d with assetParameterValues := d.assetParameterValues.delete k }

-- A file can only be deleted once no attachment points to it.
def writeFiles (d : Database) (w : RowWrite FileRow Uuid) : Except Constraint Database := do
  let files ← d.files.write w
  match w with
  | .insert _ | .update _ => return { d with files }
  | .delete k =>
    .check (¬d.attachmentAssignments.rows.any (·.fileId = k)) .attachmentAssignmentsFileFkey
    return { d with files }

-- Attachments belong to the laboratory of their file, and of what they are attached to.
def writeAttachmentAssignments (d : Database) (w : RowWrite AttachmentAssignmentRow Uuid) :
    Except Constraint Database := do
  match w with
  | .insert r | .update r =>
    .check (r.assetId.isNone ≠ r.inventoryItemId.isNone) .attachmentAssignmentsCheck
    let attachmentAssignments ← d.attachmentAssignments.write w
    .check ((d.files.find? r.fileId).any (·.laboratoryId = r.laboratoryId))
      .attachmentAssignmentsFileFkey
    .check (r.assetId.all fun a => (d.assets.find? a).any (·.laboratoryId = r.laboratoryId))
      .attachmentAssignmentsAssetFkey
    .check (r.inventoryItemId.all fun i =>
      (d.assetInventoryItems.find? i).any (·.laboratoryId = r.laboratoryId))
      .attachmentAssignmentsInventoryItemFkey
    return { d with attachmentAssignments }
  | .delete k => return { d with attachmentAssignments := d.attachmentAssignments.delete k }

-- Trusts, nonces and guest links disappear with their node.
def writeRemoteNodes (d : Database) (w : RowWrite RemoteNodeRow Uuid) :
    Except Constraint Database := do
  match w with
  | .insert r | .update r =>
    .check r.IsValid .remoteNodesCheck
    return { d with remoteNodes := ← d.remoteNodes.write w }
  | .delete k =>
    return deleteGuestLinks { d with
      remoteNodes := d.remoteNodes.delete k
      laboratoryTrusts := d.laboratoryTrusts.filter (·.remoteNodeId ≠ k)
      requestNonces := d.requestNonces.filter (·.remoteNodeId ≠ k)
    } (·.remoteNodeId = k)

def writeLaboratoryTrusts (d : Database) (w : RowWrite TrustRow Uuid) :
    Except Constraint Database := do
  let laboratoryTrusts ← d.laboratoryTrusts.write w
  match w with
  | .insert r | .update r =>
    .check (d.laboratories.find? r.localLaboratoryId).isSome .laboratoryTrustsLaboratoryFkey
    .check (d.remoteNodes.find? r.remoteNodeId).isSome .laboratoryTrustsRemoteNodeFkey
    return { d with laboratoryTrusts }
  | .delete _ => return { d with laboratoryTrusts }

def writePairingCodes (d : Database) (w : RowWrite PairingCodeRow Uuid) :
    Except Constraint Database := do
  match w with
  | .insert r | .update r =>
    .check r.IsValid .pairingCodesCheck
    let pairingCodes ← d.pairingCodes.write w
    .check (d.laboratories.find? r.localLaboratoryId).isSome .pairingCodesLaboratoryFkey
    return { d with pairingCodes }
  | .delete k => return { d with pairingCodes := d.pairingCodes.delete k }

def writeRequestNonces (d : Database) (w : RowWrite RequestNonceRow (Uuid × String)) :
    Except Constraint Database := do
  match w with
  | .insert r | .update r =>
    .check (r.nonce ≠ "") .requestNoncesCheck
    let requestNonces ← d.requestNonces.write w
    .check (d.remoteNodes.find? r.remoteNodeId).isSome .requestNoncesRemoteNodeFkey
    return { d with requestNonces }
  | .delete k => return { d with requestNonces := d.requestNonces.delete k }

def writeGuestLinks (d : Database) (w : RowWrite GuestLinkRow Uuid) :
    Except Constraint Database := do
  match w with
  | .insert r | .update r =>
    .check r.IsValid .guestLinksCheck
    let guestLinks ← d.guestLinks.write w
    .check (d.laboratories.find? r.localLaboratoryId).isSome .guestLinksLaboratoryFkey
    .check (d.remoteNodes.find? r.remoteNodeId).isSome .guestLinksRemoteNodeFkey
    .check (d.users.find? r.localGuestUserId).isSome .guestLinksLocalGuestUserFkey
    return { d with guestLinks }
  | .delete k => return d.deleteGuestLinks (·.linkId = k)

def writeGuestRegistrationCodes (d : Database) (w : RowWrite GuestRegistrationCodeRow Uuid) :
    Except Constraint Database := do
  match w with
  | .insert r | .update r =>
    .check r.IsValid .guestRegistrationCodesCheck
    let guestRegistrationCodes ← d.guestRegistrationCodes.write w
    .check (d.laboratories.find? r.laboratoryId).isSome .guestRegistrationCodesLaboratoryFkey
    .check (d.users.find? r.createdByUserId).isSome .guestRegistrationCodesCreatedByUserIdFkey
    return { d with guestRegistrationCodes }
  | .delete k => return { d with guestRegistrationCodes := d.guestRegistrationCodes.delete k }

def apply (d : Database) : Write → Except Constraint Database
  | .laboratories w => do return { d with laboratories := ← d.laboratories.write w }
  | .users w => d.writeUsers w
  | .tree kind w => d.writeTree kind w
  | .units w => do return { d with units := ← d.units.write w }
  | .assets w => d.writeAssets w
  | .assetInventoryItems w => d.writeAssetInventoryItems w
  | .assetParameterTypes w => d.writeAssetParameterTypes w
  | .assetParameterOptions w => d.writeAssetParameterOptions w
  | .assetParameterValues w => d.writeAssetParameterValues w
  | .assetParameterAssignments w => do
    return { d with assetParameterAssignments := ← d.assetParameterAssignments.write w }
  | .fileUploads w => do return { d with fileUploads := ← d.fileUploads.write w }
  | .files w => d.writeFiles w
  | .attachmentAssignments w => d.writeAttachmentAssignments w
  | .labelPrinters w => do return { d with labelPrinters := ← d.labelPrinters.write w }
  | .borrowRequests w => do return { d with borrowRequests := ← d.borrowRequests.write w }
  | .remoteNodes w => d.writeRemoteNodes w
  | .laboratoryTrusts w => d.writeLaboratoryTrusts w
  | .pairingCodes w => d.writePairingCodes w
  | .requestNonces w => d.writeRequestNonces w
  | .guestLinks w => d.writeGuestLinks w
  | .guestRegistrationCodes w => d.writeGuestRegistrationCodes w
  | .clock now => .ok { d with now := max d.now now }
  | .serverClock now => .ok { d with serverNow := max d.serverNow now }

instance : Storage Database Write Constraint where
  apply w d := d.apply w

def empty : Database where
  laboratories := ∅
  users := ∅
  locations := ∅
  assetCategories := ∅
  units := ∅
  assets := ∅
  assetInventoryItems := ∅
  assetParameterTypes := ∅
  assetParameterOptions := ∅
  assetParameterValues := ∅
  assetParameterAssignments := ∅
  fileUploads := ∅
  files := ∅
  attachmentAssignments := ∅
  labelPrinters := ∅
  borrowRequests := ∅
  localNodeId := none
  remoteNodes := ∅
  laboratoryTrusts := ∅
  pairingCodes := ∅
  requestNonces := ∅
  guestLinks := ∅
  guestRegistrationCodes := ∅
  now := 0
  serverNow := 0

variable {d d' : Database} {kind : TreeKind}

@[simp]
theorem tree_setTree {t : Table (TreeRow kind)} : (d.setTree kind t).tree kind = t := by
  cases kind <;> rfl

-- What a write leaves as it is.
def Applied (d d' : Database) : Write → Prop
  | .laboratories w => d.laboratories.write w = .ok d'.laboratories ∧
    d' = { d with laboratories := d'.laboratories }
  | .users w => d.users.write w = .ok d'.users ∧
    d' = { d with
      users := d'.users
      borrowRequests := d'.borrowRequests
      guestLinks := d'.guestLinks
      guestRegistrationCodes := d'.guestRegistrationCodes
    }
  | .tree .location w => d.locations.write w = .ok d'.locations ∧
    d' = { d with locations := d'.locations }
  | .tree .assetCategory w => d.assetCategories.write w = .ok d'.assetCategories ∧ d' = { d with
      assetCategories := d'.assetCategories
      assetParameterAssignments := d'.assetParameterAssignments
    }
  | .units w => d.units.write w = .ok d'.units ∧ d' = { d with units := d'.units }
  | .assets w => d.assets.write w = .ok d'.assets ∧ d' = { d with
      assets := d'.assets
      assetInventoryItems := d'.assetInventoryItems
      assetParameterValues := d'.assetParameterValues
      assetParameterAssignments := d'.assetParameterAssignments
      attachmentAssignments := d'.attachmentAssignments
      borrowRequests := d'.borrowRequests
    }
  | .assetInventoryItems w => d.assetInventoryItems.write w = .ok d'.assetInventoryItems ∧
    d' = { d with
      assetInventoryItems := d'.assetInventoryItems
      attachmentAssignments := d'.attachmentAssignments
      borrowRequests := d'.borrowRequests
    }
  | .assetParameterTypes w => d.assetParameterTypes.write w = .ok d'.assetParameterTypes ∧
    d' = { d with
      assetParameterTypes := d'.assetParameterTypes
      assetParameterOptions := d'.assetParameterOptions
      assetParameterValues := d'.assetParameterValues
      assetParameterAssignments := d'.assetParameterAssignments
    }
  | .assetParameterOptions w => d.assetParameterOptions.write w = .ok d'.assetParameterOptions ∧
    d' = { d with assetParameterOptions := d'.assetParameterOptions }
  | .assetParameterValues w => d.assetParameterValues.write w = .ok d'.assetParameterValues ∧
    d' = { d with assetParameterValues := d'.assetParameterValues }
  | .assetParameterAssignments w =>
    d.assetParameterAssignments.write w = .ok d'.assetParameterAssignments ∧
    d' = { d with assetParameterAssignments := d'.assetParameterAssignments }
  | .fileUploads w => d.fileUploads.write w = .ok d'.fileUploads ∧
    d' = { d with fileUploads := d'.fileUploads }
  | .files w => d.files.write w = .ok d'.files ∧ d' = { d with files := d'.files }
  | .attachmentAssignments w => d.attachmentAssignments.write w = .ok d'.attachmentAssignments ∧
    d' = { d with attachmentAssignments := d'.attachmentAssignments }
  | .labelPrinters w => d.labelPrinters.write w = .ok d'.labelPrinters ∧
    d' = { d with labelPrinters := d'.labelPrinters }
  | .borrowRequests w => d.borrowRequests.write w = .ok d'.borrowRequests ∧
    d' = { d with borrowRequests := d'.borrowRequests }
  | .remoteNodes w => d.remoteNodes.write w = .ok d'.remoteNodes ∧ d' = { d with
      remoteNodes := d'.remoteNodes
      laboratoryTrusts := d'.laboratoryTrusts
      requestNonces := d'.requestNonces
      guestLinks := d'.guestLinks
      borrowRequests := d'.borrowRequests
    }
  | .laboratoryTrusts w => d.laboratoryTrusts.write w = .ok d'.laboratoryTrusts ∧
    d' = { d with laboratoryTrusts := d'.laboratoryTrusts }
  | .pairingCodes w => d.pairingCodes.write w = .ok d'.pairingCodes ∧
    d' = { d with pairingCodes := d'.pairingCodes }
  | .requestNonces w => d.requestNonces.write w = .ok d'.requestNonces ∧
    d' = { d with requestNonces := d'.requestNonces }
  | .guestLinks w => d.guestLinks.write w = .ok d'.guestLinks ∧ d' = { d with
      guestLinks := d'.guestLinks
      borrowRequests := d'.borrowRequests
    }
  | .guestRegistrationCodes w =>
    d.guestRegistrationCodes.write w = .ok d'.guestRegistrationCodes ∧
    d' = { d with guestRegistrationCodes := d'.guestRegistrationCodes }
  | .clock _ => d.now ≤ d'.now ∧ d' = { d with now := d'.now }
  | .serverClock _ => d.serverNow ≤ d'.serverNow ∧ d' = { d with serverNow := d'.serverNow }

theorem applied_of_apply {w : Write} (h : d.apply w = .ok d') : Applied d d' w := by
  cases w
  case users w =>
    cases w <;>
    · simp only [apply, writeUsers, Except.bind_eq_ok, Except.check_eq_ok, Except.pure_eq_ok] at h
      obtain ⟨_, hw, _, _, rfl⟩ := h
      exact ⟨hw, rfl⟩
  case tree kind w =>
    simp only [apply, writeTree, Except.bind_eq_ok] at h
    obtain ⟨t, hw, h⟩ := h
    cases kind <;> cases w <;> obtain rfl := Except.pure_eq_ok.mp h <;> exact ⟨hw, rfl⟩
  case assets w =>
    simp only [apply, writeAssets, Except.bind_eq_ok] at h
    obtain ⟨t, hw, h⟩ := h
    cases w
    case delete =>
      obtain rfl := Except.pure_eq_ok.mp h
      exact ⟨hw, rfl⟩
    all_goals
      simp only [Except.bind_eq_ok, Except.pure_eq_ok] at h
      obtain ⟨_, _, rfl⟩ := h
      exact ⟨hw, rfl⟩
  case assetInventoryItems w =>
    simp only [apply, writeAssetInventoryItems, Except.bind_eq_ok] at h
    obtain ⟨t, hw, h⟩ := h
    cases w <;> obtain rfl := Except.pure_eq_ok.mp h <;> exact ⟨hw, rfl⟩
  case assetParameterTypes w =>
    cases w
    case delete =>
      obtain rfl := Except.pure_eq_ok.mp h
      exact ⟨rfl, rfl⟩
    all_goals
      simp only [apply, writeAssetParameterTypes, Except.bind_eq_ok, Except.pure_eq_ok] at h
      obtain ⟨_, _, t, hw, rfl⟩ := h
      exact ⟨hw, rfl⟩
  case assetParameterOptions w =>
    simp only [apply, writeAssetParameterOptions, Except.bind_eq_ok] at h
    obtain ⟨t, hw, h⟩ := h
    cases w <;>
    · simp only [Except.bind_eq_ok, Except.pure_eq_ok] at h
      obtain ⟨_, _, rfl⟩ := h
      exact ⟨hw, rfl⟩
  case assetParameterValues w =>
    cases w
    case delete =>
      obtain rfl := Except.pure_eq_ok.mp h
      exact ⟨rfl, rfl⟩
    all_goals
      simp only [apply, writeAssetParameterValues, Except.bind_eq_ok, Except.pure_eq_ok] at h
      obtain ⟨_, _, _, _, t, hw, _, _, rfl⟩ := h
      exact ⟨hw, rfl⟩
  case files w =>
    simp only [apply, writeFiles, Except.bind_eq_ok] at h
    obtain ⟨t, hw, h⟩ := h
    cases w
    case delete =>
      simp only [Except.bind_eq_ok, Except.pure_eq_ok] at h
      obtain ⟨_, _, rfl⟩ := h
      exact ⟨hw, rfl⟩
    all_goals
      obtain rfl := Except.pure_eq_ok.mp h
      exact ⟨hw, rfl⟩
  case attachmentAssignments w =>
    cases w
    case delete =>
      obtain rfl := Except.pure_eq_ok.mp h
      exact ⟨rfl, rfl⟩
    all_goals
      simp only [apply, writeAttachmentAssignments, Except.bind_eq_ok, Except.pure_eq_ok] at h
      obtain ⟨_, _, t, hw, _, _, _, _, _, _, rfl⟩ := h
      exact ⟨hw, rfl⟩
  case remoteNodes w =>
    cases w
    case delete =>
      obtain rfl := Except.pure_eq_ok.mp h
      exact ⟨rfl, rfl⟩
    all_goals
      simp only [apply, writeRemoteNodes, Except.bind_eq_ok, Except.pure_eq_ok] at h
      obtain ⟨_, _, t, hw, rfl⟩ := h
      exact ⟨hw, rfl⟩
  case laboratoryTrusts w =>
    simp only [apply, writeLaboratoryTrusts, Except.bind_eq_ok] at h
    obtain ⟨t, hw, h⟩ := h
    cases w
    case delete =>
      obtain rfl := Except.pure_eq_ok.mp h
      exact ⟨hw, rfl⟩
    all_goals
      simp only [Except.bind_eq_ok, Except.pure_eq_ok] at h
      obtain ⟨_, _, _, _, rfl⟩ := h
      exact ⟨hw, rfl⟩
  case pairingCodes w =>
    cases w
    case delete =>
      obtain rfl := Except.pure_eq_ok.mp h
      exact ⟨rfl, rfl⟩
    all_goals
      simp only [apply, writePairingCodes, Except.bind_eq_ok, Except.pure_eq_ok] at h
      obtain ⟨_, _, t, hw, _, _, rfl⟩ := h
      exact ⟨hw, rfl⟩
  case requestNonces w =>
    cases w
    case delete =>
      obtain rfl := Except.pure_eq_ok.mp h
      exact ⟨rfl, rfl⟩
    all_goals
      simp only [apply, writeRequestNonces, Except.bind_eq_ok, Except.pure_eq_ok] at h
      obtain ⟨_, _, t, hw, _, _, rfl⟩ := h
      exact ⟨hw, rfl⟩
  case guestLinks w =>
    cases w
    case delete k =>
      obtain rfl := Except.pure_eq_ok.mp h
      refine ⟨congrArg Except.ok <| Table.ext ?_, rfl⟩
      simp [deleteGuestLinks, Table.delete, Table.filter, TableSchema.key]
    all_goals
      simp only [apply, writeGuestLinks, Except.bind_eq_ok, Except.pure_eq_ok] at h
      obtain ⟨_, _, t, hw, _, _, _, _, _, _, rfl⟩ := h
      exact ⟨hw, rfl⟩
  case guestRegistrationCodes w =>
    cases w
    case delete =>
      obtain rfl := Except.pure_eq_ok.mp h
      exact ⟨rfl, rfl⟩
    all_goals
      simp only [apply, writeGuestRegistrationCodes, Except.bind_eq_ok, Except.pure_eq_ok] at h
      obtain ⟨_, _, t, hw, _, _, _, _, rfl⟩ := h
      exact ⟨hw, rfl⟩
  case clock | serverClock =>
    obtain rfl := Except.ok.inj h
    exact ⟨le_max_left _ _, rfl⟩
  all_goals
    simp only [apply, Except.bind_eq_ok, Except.pure_eq_ok] at h
    obtain ⟨t, hw, rfl⟩ := h
    exact ⟨hw, rfl⟩

theorem tree_of_apply {w : Write} (h : d.apply w = .ok d') (hw : ∀ k w', w ≠ .tree k w') :
    d'.tree kind = d.tree kind := by
  have ha := applied_of_apply h
  cases w
  case tree k w => exact absurd rfl (hw k w)
  all_goals
    rw [ha.right]
    cases kind <;> rfl

theorem assets_of_apply {w : Write} (h : d.apply w = .ok d') (hw : ∀ w', w ≠ .assets w') :
    d'.assets = d.assets := by
  have ha := applied_of_apply h
  cases w
  case assets w => exact absurd rfl (hw w)
  case tree kind w => cases kind <;> rw [ha.right]
  all_goals rw [ha.right]

theorem assetInventoryItems_of_apply {w : Write} (h : d.apply w = .ok d')
    (hw : ∀ w', w ≠ .assetInventoryItems w') (hn : ∀ w', w ≠ .assets w') :
    d'.assetInventoryItems = d.assetInventoryItems := by
  have ha := applied_of_apply h
  cases w
  case assetInventoryItems w => exact absurd rfl (hw w)
  case assets w => exact absurd rfl (hn w)
  case tree kind w => cases kind <;> rw [ha.right]
  all_goals rw [ha.right]

theorem write_of_writeTree {w : RowWrite (TreeRow kind) Uuid} (h : d.apply (.tree kind w) = .ok d') :
    (d.tree kind).write w = .ok (d'.tree kind) := by
  cases kind <;> exact (applied_of_apply h).left

theorem writeUsers_eq_ok {w} (h : d.writeUsers w = .ok d') :
    d.users.write w = .ok d'.users ∧ d'.laboratories = d.laboratories ∧
    ∀ r, w = .insert r ∨ w = .update r → ∀ l ∈ r.laboratoryId, (d.laboratories.find? l).isSome := by
  have ha : Applied d d' (.users w) := applied_of_apply h
  refine ⟨ha.left, by rw [ha.right], fun r hr => ?_⟩
  obtain rfl | rfl := hr <;>
  · simp only [writeUsers, Except.bind_eq_ok, Except.check_eq_ok, Option.all_eq_true] at h
    obtain ⟨_, _, _, hl, _⟩ := h
    exact hl

end Database

end LabInventory
