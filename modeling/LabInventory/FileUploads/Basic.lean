import LabInventory.AccessControl.Basic

open Sql

namespace LabInventory

namespace FileUploads

def fetchFileUploadForUpdate (uploadId : Uuid) : Transaction (Option FileUploadRow) :=
  .selectForUpdate (.fileUpload uploadId) (·.fileUploads.find? uploadId)

def insertFileUpload (upload : FileUploadRow) : Transaction Unit :=
  .exec (.fileUploads <| .insert upload) fun _ => .unexpected "Failed to save the file upload"

-- The row has been locked by `fetchFileUploadForUpdate`.
def markFileUploadConsumed (upload : FileUploadRow) : Transaction Unit := do
  let now ← .read (·.now)
  .exec (.fileUploads <| .update { upload with consumedAt := some now })
    fun _ => .unexpected "Failed to mark file upload as consumed"

def deleteFileUploadFromDatabase (uploadId : Uuid) : Transaction Unit :=
  .exec (.fileUploads <| .delete uploadId) fun _ => .unexpected "Failed to delete file upload"

-- Each route reports a missing upload in its own way. Whether the upload has expired is a question
-- of the server's clock.
def consumeFileUpload (missing : String → ApiError) (uploadId : Uuid) :
    Transaction FileUploadRow := do
  let some upload ← fetchFileUploadForUpdate uploadId | .abort (missing "File upload not found")
  .require upload.consumedAt.isNone (.conflict "File upload has already been consumed")
  let now ← .read (·.serverNow)
  .require (now ≤ upload.expiresAt) (.validation "File upload has expired")
  markFileUploadConsumed upload
  return upload

def validateUploadPermission (ctx : LaboratoryContext) : Transaction Unit := do
  let permitted ← .read (validatePermission · ctx.actor .fileUpload (.create ctx.laboratoryId))
  .require permitted (.forbidden "You don't have permission to upload files.")

-- Follows once the object has been stored under its key.
def insertUploadedFile (ctx : LaboratoryContext) (storageKey : String)
    (uploadTokenTtl : Timestamp) (newId : Uuid) : Transaction Unit := do
  let now ← .read (·.serverNow)
  insertFileUpload {
    uploadId := newId
    laboratoryId := ctx.laboratoryId
    storageKey
    uploadedByUserId := ctx.actor.userId
    expiresAt := now + uploadTokenTtl
    consumedAt := none
  }

-- Yields the object that is deleted after the commit.
def deleteFileUpload (ctx : LaboratoryContext) (uploadId : Uuid) : Transaction String := do
  let permitted ← .read (validatePermission · ctx.authorizationActor .fileUpload (.delete uploadId))
  .require permitted (.forbidden "You are not allowed to delete this file upload.")
  let some upload ← fetchFileUploadForUpdate uploadId |
    .abort (.notFound "File upload not found")
  .require upload.consumedAt.isNone
    (.conflict "File upload has already been assigned to an attachment")
  deleteFileUploadFromDatabase upload.uploadId
  return upload.storageKey

end FileUploads

end LabInventory
