import Mathlib.Data.List.Sort
import LabInventory.FileUploads.Basic

open Sql

namespace LabInventory

-- The identifiers that are generated for new rows.
abbrev NewIds := Nat → Uuid

structure NewAttachment where
  uploadId : Uuid
  isPublic : Bool

def ensureUniqueUploads (attachments : List NewAttachment) : Except String Unit :=
  .check (attachments.map (·.uploadId)).Nodup "An upload can only be assigned once in a create request"

namespace Attachments

inductive AttachmentTarget
  | asset (assetId : Uuid)
  | inventoryItem (inventoryItemId : Uuid)

namespace AttachmentTarget

def assetId : AttachmentTarget → Option Uuid
  | asset assetId => some assetId
  | inventoryItem _ => none

def inventoryItemId : AttachmentTarget → Option Uuid
  | asset _ => none
  | inventoryItem inventoryItemId => some inventoryItemId

end AttachmentTarget

-- An attachment that has been deleted, together with the object of its file.
structure DeletedAttachmentRow where
  attachmentId : Uuid
  storageKey : String

def mapDatabaseError (c : Constraint) : ApiError :=
  if c.isForeignKey then
    .validation "Invalid referenced record"
  else if c.isCheck then
    .validation "Invalid attachment data"
  else
    .conflict "Attachment already exists"

-- The file takes over the object of the upload.
def insertAttachment (target : AttachmentTarget) (upload : FileUploadRow) (isPublic : Bool)
    (newFileId newAttachmentId : Uuid) : Transaction Unit := do
  .exec (.files <| .insert {
    fileId := newFileId
    laboratoryId := upload.laboratoryId
    storageKey := upload.storageKey
  }) mapDatabaseError
  .exec (.attachmentAssignments <| .insert {
    attachmentId := newAttachmentId
    laboratoryId := upload.laboratoryId
    fileId := newFileId
    assetId := target.assetId
    inventoryItemId := target.inventoryItemId
    isPublic
  }) mapDatabaseError

def assignUploadedAttachment (missing : String → ApiError) (target : AttachmentTarget)
    (laboratoryId : Uuid) (newIds : NewIds) (attachment : NewAttachment) : Transaction Unit := do
  let upload ← FileUploads.consumeFileUpload missing attachment.uploadId
  .require (upload.laboratoryId = laboratoryId)
    (.validation "File upload does not belong to the target laboratory")
  insertAttachment target upload attachment.isPublic (newIds 0) (newIds 1)

def assignEach (missing : String → ApiError) (target : AttachmentTarget) (laboratoryId : Uuid)
    (newIds : NewIds) : List NewAttachment → Transaction Unit
  | [] => return
  | a :: as => do
    assignUploadedAttachment missing target laboratoryId newIds a
    assignEach missing target laboratoryId (newIds <| · + 2) as

def assignUploadedAttachments (missing : String → ApiError) (target : AttachmentTarget)
    (laboratoryId : Uuid) (newIds : NewIds) (attachments : List NewAttachment) :
    Transaction Unit := do
  .require (attachments.map (·.uploadId)).Nodup
    (.validation "attachments cannot contain duplicate upload_id values")
  assignEach missing target laboratoryId newIds attachments

-- Each row is checked again once it is locked.
def deleteAssignment (isDeleted : AttachmentAssignmentRow → Bool) (err : Constraint → ApiError)
    (r : AttachmentAssignmentRow) : Transaction (List AttachmentAssignmentRow) := do
  let found ← .read fun d => (d.attachmentAssignments.find? r.attachmentId).filter isDeleted
  let some r := found | return []
  .exec (.attachmentAssignments <| .delete r.attachmentId) err
  return [r]

def deleteFile (err : Constraint → ApiError) (fileId : Uuid) : Transaction (List FileRow) := do
  let found ← .read (·.files.find? fileId)
  let some r := found | return []
  .exec (.files <| .delete r.fileId) err
  return [r]

def deletedAttachments (assignments : List AttachmentAssignmentRow) (files : List FileRow) :
    List DeletedAttachmentRow :=
  let rows := assignments.filterMap fun a =>
    (files.find? (·.fileId = a.fileId)).map fun f => ⟨a.attachmentId, f.storageKey⟩
  rows.insertionSort (·.attachmentId ≤ ·.attachmentId)

-- Deletes attachments together with their files.
def deleteAttachments [ScanOrder] (isDeleted : AttachmentAssignmentRow → Bool)
    (err : Constraint → ApiError) : Transaction (List DeletedAttachmentRow) := do
  let rows ← .read fun d => d.attachmentAssignments.rows.filter isDeleted
  let assignments ← .collect (.attachmentAssignment ·.attachmentId) (deleteAssignment isDeleted err)
    (ScanOrder.visit rows)
  let files ← .collect .file (deleteFile err) (assignments.map (·.fileId))
  return deletedAttachments assignments files

def fetchAttachmentForUpdate (attachmentId : Uuid) :
    Transaction (Option (AttachmentAssignmentRow × FileRow)) :=
  .selectForUpdate (.attachmentAssignment attachmentId) fun d => do
    let r ← d.attachmentAssignments.find? attachmentId
    let file ← d.files.find? r.fileId
    return (r, file)

-- Both routes look up the target, the permission to change it, and that to use the upload.
def assignAttachment (ctx : LaboratoryContext) (resource : ResourceType) (target : AttachmentTarget)
    (targetId : Uuid) (laboratoryOf : Database → Option Uuid) (missing forbidden : String)
    (payload : NewAttachment) (newIds : NewIds) : Transaction Unit := do
  let laboratoryId ← .fetch laboratoryOf (.notFound missing)
  .require (ctx.laboratoryId = laboratoryId) (.notFound missing)
  let permitted ← .read (validatePermission · ctx.authorizationActor resource (.update targetId))
  .require permitted (.forbidden forbidden)
  let permitted ←
    .read (validatePermission · ctx.authorizationActor .fileUpload (.assign payload.uploadId))
  .require permitted (.forbidden "You do not have permission to assign this attachment")
  assignUploadedAttachments .notFound target laboratoryId newIds [payload]

def assignAssetAttachment (ctx : LaboratoryContext) (assetId : Uuid) :
    NewAttachment → NewIds → Transaction Unit :=
  assignAttachment ctx .asset (.asset assetId) assetId
    (fun d => (d.assets.find? assetId).map (·.laboratoryId)) "Asset not found"
    "You do not have permission to assign attachments for this asset"

def assignInventoryItemAttachment (ctx : LaboratoryContext) (inventoryItemId : Uuid) :
    NewAttachment → NewIds → Transaction Unit :=
  assignAttachment ctx .inventoryItem (.inventoryItem inventoryItemId) inventoryItemId
    (fun d => (d.assetInventoryItems.find? inventoryItemId).map (·.laboratoryId))
    "Inventory item not found"
    "You do not have permission to assign attachments for this inventory item"

-- Yields the object that is deleted after the commit.
def deleteAttachment [ScanOrder] (ctx : LaboratoryContext) (attachmentId : Uuid) :
    Transaction String := do
  let some (_, file) ← fetchAttachmentForUpdate attachmentId |
    .abort (.notFound "Attachment not found")
  let permitted ← .read
    (validatePermission · ctx.authorizationActor .attachmentAssignment (.delete attachmentId))
  .require permitted (.forbidden "You are not allowed to delete this attachment")
  let _ ← deleteAttachments (·.attachmentId = attachmentId) mapDatabaseError
  return file.storageKey

-- The writes that the accounting of files is made of.
def IsFileWrite : Write → Prop
  | .fileUploads _ | .files _ | .attachmentAssignments _ => True
  | _ => False

section Writes

open Program

variable {missing : String → ApiError} {err : Constraint → ApiError}

theorem consumeFileUpload_writes {uploadId} :
    (FileUploads.consumeFileUpload missing uploadId).Writes IsFileWrite := by
  refine readOnly_selectForUpdate.writes_bind fun upload => ?_
  cases upload
  case none => trivial
  case some upload =>
    refine readOnly_require.writes_bind fun _ => readOnly_read.writes_bind fun _ => ?_
    refine readOnly_require.writes_bind fun _ => Writes.bind ?_ fun _ => writes_done
    exact readOnly_read.writes_bind fun _ => writes_exec trivial

theorem assignUploadedAttachment_writes {target laboratoryId newIds attachment} :
    (assignUploadedAttachment missing target laboratoryId newIds attachment).Writes IsFileWrite := by
  refine consumeFileUpload_writes.bind fun upload => readOnly_require.writes_bind fun _ => ?_
  exact (writes_exec trivial).bind fun _ => writes_exec trivial

theorem assignUploadedAttachments_writes {target laboratoryId newIds attachments} :
    (assignUploadedAttachments missing target laboratoryId newIds attachments).Writes
      IsFileWrite := by
  refine readOnly_require.writes_bind fun _ => ?_
  induction attachments generalizing newIds
  case nil => trivial
  case cons ih => exact assignUploadedAttachment_writes.bind fun _ => ih

theorem deleteAttachments_writes [ScanOrder] {isDeleted} :
    (deleteAttachments isDeleted err).Writes IsFileWrite := by
  refine readOnly_read.writes_bind fun rows => Writes.bind (writes_collect fun r => ?_) fun _ =>
    Writes.bind (writes_collect fun fileId => ?_) fun _ => writes_done
  case refine_1 =>
    refine readOnly_read.writes_bind fun found => ?_
    cases found
    case none => trivial
    case some => exact (writes_exec trivial).bind fun _ => writes_done
  case refine_2 =>
    refine readOnly_read.writes_bind fun found => ?_
    cases found
    case none => trivial
    case some => exact (writes_exec trivial).bind fun _ => writes_done

end Writes

end Attachments

end LabInventory
