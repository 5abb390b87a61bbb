import LabInventory.Domain.File
import LabInventory.Federation.Forwarding
import LabInventory.InventoryItems.Stock
import LabInventory.Library.Listing
import LabInventory.Shared.KeywordSearch

open Listing Sql

namespace LabInventory

def AssetTrackingMode.asStr : AssetTrackingMode → String
  | serialized => "serialized"
  | quantity => "quantity"

-- How texts are ordered by the database.
class Collation where
  le : String → String → Bool

-- How the crate `form_urlencoded` reads a query string.
class FormUrlEncoded where
  parse : String → List (String × String)

namespace Federation.PublicData

section Tables

structure Stamps where
  createdAt : Timestamp
  updatedAt : Timestamp

-- The rows with the columns that are only ever displayed.
structure LaboratoryRecord extends LaboratoryRow, Stamps where
  address : String
  description : Option String
  contact : Option String

structure AssetRecord extends AssetRow, Stamps

structure InventoryItemRecord extends InventoryItemRow, Stamps where
  lastStocktakeAt : Option Timestamp

structure TreeRecord (kind : TreeKind) extends TreeRow kind, Stamps

structure UnitRecord extends UnitRow where
  createdAt : Timestamp

structure ParameterTypeRecord extends AssetParameterTypeRow, Stamps

structure ParameterValueRecord extends AssetParameterValueRow, Stamps

structure AttachmentRecord extends AttachmentAssignmentRow, Stamps where
  displayName : String
  description : Option String

structure FileRecord extends FileRow where
  originalFileName : String
  mimeType : Option String
  fileSizeBytes : Int
  sha256Hex : String
  uploadedByUserId : Option Uuid

-- What is read to answer a request, in whichever order. Items belong to the laboratory of their
-- asset, and attachments have files.
structure Catalog where
  laboratories : List LaboratoryRecord
  assets : List AssetRecord
  inventoryItems : List InventoryItemRecord
  trees : (kind : TreeKind) → List (TreeRecord kind)
  units : List UnitRecord
  parameterTypes : List ParameterTypeRecord
  parameterOptions : List AssetParameterOptionRow
  parameterValues : List ParameterValueRecord
  attachments : List AttachmentRecord
  files : List FileRecord
  objects : String → Option (List UInt8)
  stocked : ∀ i ∈ inventoryItems, ∀ a ∈ assets, a.assetId = i.assetId →
    a.laboratoryId = i.laboratoryId
  filed : ∀ r ∈ attachments, ∃ file ∈ files, file.fileId = r.fileId
  assetIds : (assets.map (·.assetId)).Nodup
  inventoryItemIds : (inventoryItems.map (·.inventoryItemId)).Nodup
  attachmentIds : (attachments.map (·.attachmentId)).Nodup

-- The columns of a database that nothing else reads, and the objects of its files.
structure Columns where
  laboratory : LaboratoryRow → LaboratoryRecord
  asset : AssetRow → Stamps
  inventoryItem : InventoryItemRow → Stamps × Option Timestamp
  tree : (kind : TreeKind) → TreeRow kind → Stamps
  unit : UnitRow → Timestamp
  parameterType : AssetParameterTypeRow → Stamps
  parameterValue : AssetParameterValueRow → Stamps
  attachment : AttachmentAssignmentRow → Stamps × String × Option String
  file : FileRow → FileRecord
  objects : String → Option (List UInt8)

def Catalog.ofDatabase (d : Database) (columns : Columns) (h : InventoryItems.Stocked d.assets d)
    (hf : ∀ r ∈ d.attachmentAssignments, ∃ file ∈ d.files, file.fileId = r.fileId) : Catalog where
  laboratories := d.laboratories.rows.map fun r => { columns.laboratory r with toLaboratoryRow := r }
  assets := d.assets.rows.map fun r => { toAssetRow := r, toStamps := columns.asset r }
  inventoryItems := d.assetInventoryItems.rows.map fun r => {
    toInventoryItemRow := r
    toStamps := (columns.inventoryItem r).1
    lastStocktakeAt := (columns.inventoryItem r).2
  }
  trees kind := (d.tree kind).rows.map fun r => { toTreeRow := r, toStamps := columns.tree kind r }
  units := d.units.rows.map fun r => { toUnitRow := r, createdAt := columns.unit r }
  parameterTypes := d.assetParameterTypes.rows.map fun r => {
    toAssetParameterTypeRow := r
    toStamps := columns.parameterType r
  }
  parameterOptions := d.assetParameterOptions.rows
  parameterValues := d.assetParameterValues.rows.map fun r => {
    toAssetParameterValueRow := r
    toStamps := columns.parameterValue r
  }
  attachments := d.attachmentAssignments.rows.map fun r => {
    toAttachmentAssignmentRow := r
    toStamps := (columns.attachment r).1
    displayName := (columns.attachment r).2.1
    description := (columns.attachment r).2.2
  }
  files := d.files.rows.map fun r => { columns.file r with toFileRow := r }
  objects := columns.objects
  stocked i hi a ha he := by
    obtain ⟨r, hr, rfl⟩ := List.mem_map.mp hi
    obtain ⟨r', hr', rfl⟩ := List.mem_map.mp ha
    obtain ⟨r'', hf, hl, _⟩ := (h.items r hr).asset
    obtain ⟨hm, hk⟩ := Table.find?_eq_some.mp hf
    exact Table.eq_of_key_eq hr' hm (Eq.trans he hk.symm) ▸ hl
  filed r hr := by
    obtain ⟨r₀, hr₀, rfl⟩ := List.mem_map.mp hr
    obtain ⟨file, hm, he⟩ := hf r₀ hr₀
    exact ⟨_, List.mem_map.mpr ⟨file, hm, rfl⟩, he⟩
  assetIds := by
    rw [List.map_map]
    exact List.pairwise_map.mpr d.assets.keyed
  inventoryItemIds := by
    rw [List.map_map]
    exact List.pairwise_map.mpr d.assetInventoryItems.keyed
  attachmentIds := by
    rw [List.map_map]
    exact List.pairwise_map.mpr d.attachmentAssignments.keyed

end Tables

section Queries

variable (c : Catalog) (laboratoryId : Uuid)

def unexpected : ApiError :=
  .unexpected "Failed to read federation public data"

-- A query fails if one of its texts cannot be bound.
def bindTexts (texts : List String) : Except ApiError Unit :=
  .check (texts.all StorableText) unexpected

structure LaboratoryPublicRow where
  laboratoryId : Uuid
  name : String
  address : String
  description : Option String
  contact : Option String
  createdAt : Timestamp
  updatedAt : Timestamp

def fetchLaboratory : Option LaboratoryPublicRow :=
  (c.laboratories.find? (·.laboratoryId = laboratoryId)).map fun r => { r with }

structure AssetPublicRow where
  assetId : Uuid
  laboratoryId : Uuid
  categoryId : Option Uuid
  trackingMode : AssetTrackingMode
  name : String
  model : Option String
  manufacturer : Option String
  inventoryUnitId : Uuid
  publicNotes : Option String
  inventoryItemCount : Nat
  quantityOnHand : ℚ
  quantityAllocated : ℚ
  createdAt : Timestamp
  updatedAt : Timestamp

-- Internal notes are not selected.
def assetSelect (r : AssetRecord) : AssetPublicRow :=
  let items := c.inventoryItems.filter (·.assetId = r.assetId)
  { r with
    inventoryItemCount := items.length
    quantityOnHand := (items.map (·.quantityOnHand)).sum
    quantityAllocated := (items.map (·.quantityAllocated)).sum }

-- A parameter of the query, unless it is blank.
def filterText (params : String → Option String) (key : String) : Option String :=
  normalizeOptionalText (params key)

def filterUuid [UuidFormat] (params : String → Option String) (key : String) : Option Uuid :=
  (params key).bind UuidFormat.parseUuid

-- The texts that `push_asset_filters` binds.
def assetFilterTexts (params : String → Option String) : List String :=
  ((filterText params "keyword").map fun keyword => s!"%{keyword}%").toList ++
    (filterText params "tracking_mode").toList ++ (filterText params "manufacturer").toList

def inventoryFilterTexts (params : String → Option String) : List String :=
  (filterText params "status").toList ++
    ((filterText params "keyword").map fun keyword => s!"%{keyword}%").toList

variable [UuidFormat] [PatternMatching]

def pushAssetFilters (params : String → Option String) (r : AssetRecord) : Bool :=
  r.laboratoryId = laboratoryId &&
  keywordFilter [some r.name, r.model, r.manufacturer, r.publicNotes] (params "keyword") &&
  (filterUuid params "category_id").all (r.categoryId = some ·) &&
  (filterText params "tracking_mode").all (r.trackingMode.asStr = ·) &&
  (filterText params "manufacturer").all (r.manufacturer = some ·)

def selectedAssets (params : String → Option String) : List AssetPublicRow :=
  (c.assets.filter (pushAssetFilters laboratoryId params)).map (assetSelect c)

def fetchAssets (params : String → Option String) (limit offset : Nat) :
    Except ApiError (List AssetPublicRow) := do
  bindTexts (assetFilterTexts params)
  return page limit offset <| orderBy (latestFirst (·.updatedAt) (·.assetId)) <|
    selectedAssets c laboratoryId params

def countAssets (params : String → Option String) : Except ApiError Nat := do
  bindTexts (assetFilterTexts params)
  return (c.assets.filter (pushAssetFilters laboratoryId params)).length

omit [UuidFormat] [PatternMatching] in
def fetchAsset (assetId : Uuid) : Option AssetPublicRow :=
  (c.assets.find? fun r => r.laboratoryId = laboratoryId && r.assetId = assetId).map (assetSelect c)

structure InventoryItemAssetResponse where
  assetId : Uuid
  categoryId : Option Uuid
  name : String
  model : Option String
  manufacturer : Option String
  inventoryUnitId : Uuid

structure InventoryItemPublicRow where
  inventoryItemId : Uuid
  assetId : Uuid
  laboratoryId : Uuid
  trackingMode : AssetTrackingMode
  serialNumber : Option String
  batchNumber : Option String
  quantityOnHand : ℚ
  quantityAllocated : ℚ
  locationId : Option Uuid
  status : InventoryStatus
  publicNotes : Option String
  createdAt : Timestamp
  updatedAt : Timestamp
  lastStocktakeAt : Option Timestamp
  asset : InventoryItemAssetResponse

-- Items are joined with their assets. Internal notes are not selected.
def inventoryItemSelect (r : InventoryItemRecord) : Option InventoryItemPublicRow :=
  (c.assets.find? (·.assetId = r.assetId)).map fun asset => { r with asset := { asset with } }

def joinedInventoryItems : List InventoryItemPublicRow :=
  c.inventoryItems.filterMap (inventoryItemSelect c)

def pushInventoryFilters (params : String → Option String) (r : InventoryItemPublicRow) : Bool :=
  r.laboratoryId = laboratoryId &&
  (filterUuid params "asset_id").all (r.assetId = ·) &&
  (filterText params "status").all (r.status.asStr = ·) &&
  keywordFilter [some r.asset.name, r.serialNumber, r.batchNumber, r.publicNotes] (params "keyword")

def selectedInventoryItems (params : String → Option String) : List InventoryItemPublicRow :=
  (joinedInventoryItems c).filter (pushInventoryFilters laboratoryId params)

def fetchInventoryItems (params : String → Option String) (limit offset : Nat) :
    Except ApiError (List InventoryItemPublicRow) := do
  bindTexts (inventoryFilterTexts params)
  return page limit offset <| orderBy (latestFirst (·.updatedAt) (·.inventoryItemId)) <|
    selectedInventoryItems c laboratoryId params

def countInventoryItems (params : String → Option String) : Except ApiError Nat := do
  bindTexts (inventoryFilterTexts params)
  return (selectedInventoryItems c laboratoryId params).length

omit [UuidFormat] [PatternMatching]

def fetchInventoryItem (inventoryItemId : Uuid) : Option InventoryItemPublicRow :=
  (joinedInventoryItems c).find? fun r =>
    r.laboratoryId = laboratoryId && r.inventoryItemId = inventoryItemId

def fetchInventoryItemsForAsset (assetId : Uuid) : List InventoryItemPublicRow :=
  orderBy (thenBy (ascending (·.createdAt)) (ascending (·.inventoryItemId))) <|
    (joinedInventoryItems c).filter fun r =>
      r.laboratoryId = laboratoryId && r.assetId = assetId

-- Paths are compared label by label.
def byPath {kind : TreeKind} (r₁ r₂ : TreeRecord kind) : Bool :=
  let labels (r : TreeRecord kind) : List (List Char) := r.path.map (·.val.toList)
  !(labels r₂).lex (labels r₁) fun l₁ l₂ => l₁.lex l₂ fun a b => a.toNat < b.toNat

-- The queries on categories and on locations are the same.
def fetchTrees (kind : TreeKind) (rootPath : Option Ltree) : List (TreeRecord kind) :=
  orderBy byPath <|
    (c.trees kind).filter fun r => r.laboratoryId = laboratoryId &&
      rootPath.all fun root => r.path.IsSelfOrDescendant root

def fetchTree (kind : TreeKind) (id : Uuid) : Option (TreeRecord kind) :=
  (c.trees kind).find? fun r => r.laboratoryId = laboratoryId && r.id = id

variable [Collation]

def byText {α : Type} (f : α → String) (a₁ a₂ : α) : Bool :=
  Collation.le (f a₁) (f a₂)

def fetchUnits : List UnitRecord :=
  orderBy (thenBy (byText (·.dimension)) (byText (·.code))) <|
    c.units.filter (·.laboratoryId = laboratoryId)

omit [Collation] in
def fetchUnit (unitId : Uuid) : Option UnitRecord :=
  c.units.find? fun r => r.laboratoryId = laboratoryId && r.unitId = unitId

def fetchParameters : List ParameterTypeRecord :=
  orderBy (byText (·.code)) <| c.parameterTypes.filter (·.laboratoryId = laboratoryId)

omit [Collation] in
def fetchParameter (parameterId : Uuid) : Option ParameterTypeRecord :=
  c.parameterTypes.find? fun r => r.laboratoryId = laboratoryId && r.parameterTypeId = parameterId

def fetchParameterOptions (parameterTypeId : Uuid) : List AssetParameterOptionRow :=
  orderBy (thenBy (ascending (·.sortOrder)) (thenBy (byText (·.label)) (byText (·.code)))) <|
    c.parameterOptions.filter (·.parameterTypeId = parameterTypeId)

structure ParameterValueRow where
  valueId : Uuid
  laboratoryId : Uuid
  assetId : Uuid
  parameterTypeId : Uuid
  code : String
  name : String
  dataType : AssetParameterDataType
  unitDimension : Option String
  defaultUnitId : Option Uuid
  columns : ParameterValueColumns
  optionCode : Option String
  optionLabel : Option String
  createdAt : Timestamp
  updatedAt : Timestamp

-- Parameters and options are looked up wherever they are.
def parameterValueSelect (r : ParameterValueRecord) : Option ParameterValueRow :=
  (c.parameterTypes.find? (·.parameterTypeId = r.parameterTypeId)).map fun parameter =>
    let option := r.columns.valueOptionId.bind fun optionId =>
      c.parameterOptions.find? (·.optionId = optionId)
    { r with
      code := parameter.code
      name := parameter.name
      unitDimension := parameter.unitDimension
      defaultUnitId := parameter.defaultUnitId
      optionCode := option.map (·.code)
      optionLabel := option.map (·.label) }

def fetchParameterValues (assetIds : List Uuid) : List ParameterValueRow :=
  orderBy (thenBy (ascending (·.assetId)) (thenBy (byText (·.name)) (byText (·.code)))) <|
    (c.parameterValues.filter fun r => assetIds.contains r.assetId).filterMap (parameterValueSelect c)

structure AttachmentPublicRow where
  attachmentId : Uuid
  laboratoryId : Uuid
  assetId : Option Uuid
  inventoryItemId : Option Uuid
  displayName : String
  originalFileName : String
  description : Option String
  mimeType : Option String
  fileSizeBytes : Int
  sha256Hex : String
  isPublic : Bool
  uploadedByUserId : Option Uuid
  createdAt : Timestamp
  updatedAt : Timestamp

omit [Collation]

def attachmentSelect (r : AttachmentRecord) : Option AttachmentPublicRow :=
  (c.files.find? (·.fileId = r.fileId)).map fun file => { r with
    originalFileName := file.originalFileName
    mimeType := file.mimeType
    fileSizeBytes := file.fileSizeBytes
    sha256Hex := file.sha256Hex
    uploadedByUserId := file.uploadedByUserId }

-- Only public attachments are selected.
def selectedAttachments (isMatch : AttachmentRecord → Bool) : List AttachmentPublicRow :=
  (c.attachments.filter fun r => r.laboratoryId = laboratoryId && isMatch r && r.isPublic).filterMap
    (attachmentSelect c)

def publicAttachments (isMatch : AttachmentRecord → Bool) : List AttachmentPublicRow :=
  orderBy (latestFirst (·.createdAt) (·.attachmentId)) (selectedAttachments c laboratoryId isMatch)

-- Files are not joined here.
def countLaboratoryAttachments : Nat :=
  (c.attachments.filter fun r => r.laboratoryId = laboratoryId && r.isPublic).length

def fetchLaboratoryAttachments (limit offset : Nat) : List AttachmentPublicRow :=
  page limit offset <| publicAttachments c laboratoryId fun _ => true

def fetchAssetAttachments (assetId : Uuid) : List AttachmentPublicRow :=
  publicAttachments c laboratoryId (·.assetId = some assetId)

def fetchInventoryItemAttachments (inventoryItemId : Uuid) : List AttachmentPublicRow :=
  publicAttachments c laboratoryId (·.inventoryItemId = some inventoryItemId)

def findPublicAttachment (attachmentId : Uuid) : Option AttachmentRecord :=
  c.attachments.find? fun r =>
    r.laboratoryId = laboratoryId && r.attachmentId = attachmentId && r.isPublic

def fetchAttachment (attachmentId : Uuid) : Option AttachmentPublicRow :=
  (findPublicAttachment c laboratoryId attachmentId).bind (attachmentSelect c)

structure AttachmentDownloadRow where
  storageKey : String
  originalFileName : String
  mimeType : Option String

def fetchAttachmentDownload (attachmentId : Uuid) : Option AttachmentDownloadRow :=
  (findPublicAttachment c laboratoryId attachmentId).bind fun r =>
    (c.files.find? (·.fileId = r.fileId)).map fun file => { file with }

end Queries

section Service

variable [FormUrlEncoded]

def defaultLimit : Int :=
  50

def maxLimit : Int :=
  200

-- The last one of several parameters of a name counts.
def queryParams (queryString : String) (key : String) : Option String :=
  (FormUrlEncoded.parse queryString).reverse.lookup key

def parseNumber (value : Option String) (key : String) (default : Int) : Except ApiError Int :=
  match value with
  | none => .ok default
  | some value => match parseSigned 64 value with
    | some n => .ok n
    | none => .error (.validation s!"{key} must be a number")

def limitOffset (queryString : String) : Except ApiError (Int × Int) := do
  let params := queryParams queryString
  let limit ← parseNumber (params "limit") "limit" defaultLimit
  let offset ← parseNumber (params "offset") "offset" 0
  .check (0 < limit) (.validation "limit must be positive")
  .check (0 ≤ offset) (.validation "offset must be non-negative")
  return (min limit maxLimit, offset)

def orNotFound {α : Type} (found : Option α) (message : String) : Except ApiError α :=
  match found with
  | some a => .ok a
  | none => .error (.notFound message)

structure PaginatedJson (α : Type) where
  items : List α
  limit : Int
  offset : Int
  total : Nat

structure AssetInventorySummary where
  itemCount : Nat
  quantityOnHand : ℚ
  quantityAllocated : ℚ

structure InventoryItemPublicResponse extends InventoryItemPublicRow where
  internalNotes : Option String

def InventoryItemPublicResponse.ofRow (r : InventoryItemPublicRow) : InventoryItemPublicResponse :=
  { r with internalNotes := none }

structure ParameterValueResponse where
  valueId : Uuid
  laboratoryId : Uuid
  assetId : Uuid
  parameterTypeId : Uuid
  code : String
  name : String
  dataType : AssetParameterDataType
  unitDimension : Option String
  defaultUnitId : Option Uuid
  value : Json
  createdAt : Timestamp
  updatedAt : Timestamp

def ParameterValueResponse.ofRow [TextFormats] (r : ParameterValueRow) : ParameterValueResponse :=
  let uuid (id : Uuid) : Json := .string (UuidFormat.showUuid id)
  let columns := r.columns
  { r with
    value := match r.dataType with
      | .text => .object [("text", .ofOption .string columns.valueText)]
      | .number => .object [
          ("number", .ofOption .number columns.valueNumber),
          ("number_in_base", .ofOption .number columns.valueNumberInBase),
          ("unit_id", .ofOption uuid columns.unitId)]
      | .range => .object [
          ("range_start", .ofOption .number columns.valueRangeStart),
          ("range_end", .ofOption .number columns.valueRangeEnd),
          ("range_start_in_base", .ofOption .number columns.valueRangeStartInBase),
          ("range_end_in_base", .ofOption .number columns.valueRangeEndInBase),
          ("unit_id", .ofOption uuid columns.unitId)]
      | .boolean => .object [("boolean", .ofOption .bool columns.valueBoolean)]
      | .date => .object [
          ("date", .ofOption (fun date => .string (TextFormats.showDate date)) columns.valueDate)]
      | .enum => .object [
          ("option_id", .ofOption uuid columns.valueOptionId),
          ("option_code", .ofOption .string r.optionCode),
          ("option_label", .ofOption .string r.optionLabel)] }

structure AssetPublicResponse where
  assetId : Uuid
  laboratoryId : Uuid
  categoryId : Option Uuid
  trackingMode : AssetTrackingMode
  name : String
  model : Option String
  manufacturer : Option String
  inventoryUnitId : Uuid
  publicNotes : Option String
  internalNotes : Option String
  inventorySummary : AssetInventorySummary
  inventoryItems : Option (List InventoryItemPublicResponse)
  parameters : Option (List ParameterValueResponse)
  createdAt : Timestamp
  updatedAt : Timestamp

def AssetPublicResponse.fromRow (r : AssetPublicRow)
    (inventoryItems : Option (List InventoryItemPublicResponse))
    (parameters : Option (List ParameterValueResponse)) : AssetPublicResponse :=
  { r with
    internalNotes := none
    inventorySummary := {
      itemCount := r.inventoryItemCount
      quantityOnHand := r.quantityOnHand
      quantityAllocated := r.quantityAllocated
    }
    inventoryItems, parameters }

structure ParameterResponse extends ParameterTypeRecord where
  options : List AssetParameterOptionRow

variable [TextFormats] [PatternMatching] [Collation] (c : Catalog) (laboratoryId : Uuid)

def listAssets (queryString : String) : Except ApiError (PaginatedJson AssetPublicResponse) := do
  let (limit, offset) ← limitOffset queryString
  let params := queryParams queryString
  let total ← countAssets c laboratoryId params
  let rows ← fetchAssets c laboratoryId params limit.toNat offset.toNat
  return {
    items := rows.map (AssetPublicResponse.fromRow · none none)
    limit, offset, total
  }

def listInventoryItemsForAsset (assetId : Uuid) : List InventoryItemPublicResponse :=
  (fetchInventoryItemsForAsset c laboratoryId assetId).map .ofRow

def includesParameters (params : String → Option String) : Bool :=
  (params "include").any fun value =>
    (value.toList.splitOn ',').any fun part => Text.trim (.ofList part) = "parameters"

def assetResponse (assetId : Uuid) (queryString : String) : Except ApiError AssetPublicResponse := do
  let row ← orNotFound (fetchAsset c laboratoryId assetId) "Asset not found"
  let parameters := if includesParameters (queryParams queryString) then
    some ((fetchParameterValues c [assetId]).map .ofRow)
  else
    none
  return .fromRow row (some (listInventoryItemsForAsset c laboratoryId assetId)) parameters

def listInventoryItems (queryString : String) :
    Except ApiError (PaginatedJson InventoryItemPublicResponse) := do
  let (limit, offset) ← limitOffset queryString
  let params := queryParams queryString
  let total ← countInventoryItems c laboratoryId params
  let rows ← fetchInventoryItems c laboratoryId params limit.toNat offset.toNat
  return {
    items := rows.map .ofRow
    limit, offset, total
  }

-- Roots that are no identifiers are ignored.
def listTrees (kind : TreeKind) (rootKey notFound queryString : String) :
    Except ApiError (List (TreeRecord kind)) := do
  let rootPath ← match filterUuid (queryParams queryString) rootKey with
    | some rootId =>
      (fun r => some r.path) <$> orNotFound (fetchTree c laboratoryId kind rootId) notFound
    | none => .ok none
  return fetchTrees c laboratoryId kind rootPath

def parameterResponse (r : ParameterTypeRecord) : ParameterResponse :=
  { r with options := fetchParameterOptions c r.parameterTypeId }

def listLaboratoryAttachments (queryString : String) :
    Except ApiError (PaginatedJson AttachmentPublicRow) := do
  let (limit, offset) ← limitOffset queryString
  return {
    items := fetchLaboratoryAttachments c laboratoryId limit.toNat offset.toNat
    limit, offset
    total := countLaboratoryAttachments c laboratoryId
  }

def contentDispositionFilename (fileName : String) : String :=
  .ofList <| fileName.toList.map fun c => if c = '"' ∨ c = '\\' ∨ isControl c then '_' else c

structure Download where
  contentType : String
  contentLength : Nat
  contentDisposition : String
  body : List UInt8

def downloadAttachment (attachmentId : Uuid) : Except ApiError Download := do
  let row ← orNotFound (fetchAttachmentDownload c laboratoryId attachmentId) "Attachment not found"
  let storageKey ← (FileStorageKey.parse row.storageKey).mapError .unexpected
  let fileName := contentDispositionFilename row.originalFileName
  let some bytes := c.objects storageKey | throw (.unexpected "Failed to read the file")
  return {
    contentType := row.mimeType.getD "application/octet-stream"
    contentLength := bytes.length
    contentDisposition := s!"attachment; filename=\"{fileName}\""
    body := bytes
  }

inductive Response
  | laboratory (r : LaboratoryPublicRow)
  | assets (page : PaginatedJson AssetPublicResponse)
  | asset (r : AssetPublicResponse)
  | inventoryItems (page : PaginatedJson InventoryItemPublicResponse)
  | inventoryItem (r : InventoryItemPublicResponse)
  | trees {kind : TreeKind} (rows : List (TreeRecord kind))
  | tree {kind : TreeKind} (r : TreeRecord kind)
  | units (rows : List UnitRecord)
  | unit (r : UnitRecord)
  | parameters (rows : List ParameterResponse)
  | parameter (r : ParameterResponse)
  | attachmentPage (page : PaginatedJson AttachmentPublicRow)
  | attachments (rows : List AttachmentPublicRow)
  | attachment (r : AttachmentPublicRow)
  | download (file : Download)

def respondPublicData (target : FederationReadTarget) (queryString : String) :
    Except ApiError Response :=
  match target with
  | .laboratory => .laboratory <$> orNotFound (fetchLaboratory c laboratoryId) "Laboratory not found"
  | .assets => .assets <$> listAssets c laboratoryId queryString
  | .asset assetId => .asset <$> assetResponse c laboratoryId assetId queryString
  | .inventoryItems => .inventoryItems <$> listInventoryItems c laboratoryId queryString
  | .inventoryItem itemId =>
    (fun r => .inventoryItem (.ofRow r)) <$>
      orNotFound (fetchInventoryItem c laboratoryId itemId) "Inventory item not found"
  | .assetCategories =>
    .trees <$> listTrees c laboratoryId .assetCategory "root_category_id" "Asset category not found"
      queryString
  | .assetCategory categoryId =>
    .tree <$>
      orNotFound (fetchTree c laboratoryId .assetCategory categoryId) "Asset category not found"
  | .locations =>
    .trees <$> listTrees c laboratoryId .location "root_location_id" "Location not found" queryString
  | .location locationId =>
    .tree <$> orNotFound (fetchTree c laboratoryId .location locationId) "Location not found"
  | .units => .ok (.units (fetchUnits c laboratoryId))
  | .unit unitId => .unit <$> orNotFound (fetchUnit c laboratoryId unitId) "Unit not found"
  | .assetParameters =>
    .ok (.parameters ((fetchParameters c laboratoryId).map (parameterResponse c)))
  | .assetParameter parameterId =>
    (fun r => .parameter (parameterResponse c r)) <$>
      orNotFound (fetchParameter c laboratoryId parameterId) "Asset parameter not found"
  | .attachments => .attachmentPage <$> listLaboratoryAttachments c laboratoryId queryString
  | .attachment attachmentId =>
    .attachment <$> orNotFound (fetchAttachment c laboratoryId attachmentId) "Attachment not found"
  | .assetAttachments assetId =>
    .ok (.attachments (fetchAssetAttachments c laboratoryId assetId))
  | .inventoryItemAttachments itemId =>
    .ok (.attachments (fetchInventoryItemAttachments c laboratoryId itemId))
  | .attachmentDownload attachmentId => .download <$> downloadAttachment c laboratoryId attachmentId

end Service

end Federation.PublicData

end LabInventory
