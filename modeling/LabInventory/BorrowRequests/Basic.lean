import LabInventory.InventoryItems.Basic

open Sql

namespace LabInventory

namespace BorrowRequestStatus

def parse (value : String) : Except String BorrowRequestStatus :=
  match Text.trim value with
  | "pending" => .ok pending
  | "approved" => .ok approved
  | "rejected" => .ok rejected
  | "cancelled" => .ok cancelled
  | _ => .error s!"{value} is not a valid borrow request status."

end BorrowRequestStatus

namespace BorrowRequests

open InventoryItems

def unexpectedError (context : String) (_ : Constraint) : ApiError :=
  .unexpected context

-- Requests are joined with their item, and the item with its asset.
def fetchBorrowRequest? (d : Database) (localLaboratoryId borrowRequestId : Uuid) :
    Option BorrowRequestRow :=
  (d.borrowRequests.find? borrowRequestId).filter fun r =>
    r.localLaboratoryId = localLaboratoryId && (fetchInventoryItem? d r.inventoryItemId).isSome

-- Locks the request and the item behind it together.
def fetchBorrowRequestForUpdate (localLaboratoryId borrowRequestId : Uuid) :
    Transaction (Option BorrowRequestRow) := do
  let some found ← .read (fetchBorrowRequest? · localLaboratoryId borrowRequestId) | return none
  .lock [.inventoryItem found.inventoryItemId] (.borrowRequest borrowRequestId) (.done ())
  .lockRow (.inventoryItem found.inventoryItemId)
  .read (fetchBorrowRequest? · localLaboratoryId borrowRequestId)

def requireBorrowRequest (localLaboratoryId borrowRequestId : Uuid) :
    Transaction BorrowRequestRow := do
  let some r ← fetchBorrowRequestForUpdate localLaboratoryId borrowRequestId |
    .abort (.notFound "Borrow request not found")
  return r

def IsPendingFor (inventoryItemId : Uuid) (r : BorrowRequestRow) : Bool :=
  r.inventoryItemId = inventoryItemId && r.status = .pending

def pendingBorrowRequestExists (inventoryItemId : Uuid) (d : Database) : Bool :=
  d.borrowRequests.rows.any (IsPendingFor inventoryItemId)

def insertBorrowRequest (r : BorrowRequestRow) : Transaction Unit := do
  .bindTexts r.requestNote.toList
  .exec (.borrowRequests <| .insert r) (unexpectedError "Failed to store a new borrow request")

def updateBorrowRequestRow (borrowRequestId laboratoryId : Uuid)
    (f : BorrowRequestRow → BorrowRequestRow) (context : String) : Transaction Unit := do
  let some r ← .selectForUpdate (.borrowRequest borrowRequestId) fun d =>
    (d.borrowRequests.find? borrowRequestId).filter (·.localLaboratoryId = laboratoryId) | return
  .exec (.borrowRequests <| .update (f r)) (unexpectedError context)

def updateBorrowRequestDecision (borrowRequestId laboratoryId : Uuid)
    (status : BorrowRequestStatus) (reviewedByUserId : Uuid) (reviewerUsername : String)
    (reviewerUserType : UserType) (decisionNote : Option String) : Transaction Unit := do
  let now ← .read (·.now)
  .bindTexts decisionNote.toList
  updateBorrowRequestRow borrowRequestId laboratoryId (fun r => { r with
    status
    reviewedByUserId := some reviewedByUserId
    reviewedByUsername := some reviewerUsername
    reviewedByUserType := some reviewerUserType
    reviewedAt := some now
    decisionNote
  }) "Failed to record the borrow request decision"

-- Leaves the columns of the reviewer alone: nobody reviews a cancelled request.
def updateBorrowRequestCancelled (borrowRequestId laboratoryId : Uuid) : Transaction Unit :=
  updateBorrowRequestRow borrowRequestId laboratoryId (fun r => { r with status := .cancelled })
    "Failed to record the borrow request cancellation"

def markInventoryItemBorrowed (inventoryItemId : Uuid) : Transaction Unit := do
  let some r ← .selectForUpdate (.inventoryItem inventoryItemId)
    (·.assetInventoryItems.find? inventoryItemId) | return
  .exec (.assetInventoryItems <| .update { r with status := .borrowed })
    (unexpectedError "Failed to mark the inventory item as borrowed")

def myBorrowRequestLimit : Nat :=
  200

-- The latest request comes first.
def newerFirst (r₁ r₂ : BorrowRequestRow) : Bool :=
  r₂.createdAt < r₁.createdAt ||
  r₁.createdAt = r₂.createdAt && r₂.borrowRequestId ≤ r₁.borrowRequestId

def fetchBorrowRequestsForGuestLink (laboratoryId guestLinkId : Uuid)
    (status : Option BorrowRequestStatus) (d : Database) : List BorrowRequestRow :=
  let found := d.borrowRequests.rows.filter fun r =>
    r.localLaboratoryId = laboratoryId && (fetchInventoryItem? d r.inventoryItemId).isSome &&
    r.requesterGuestLinkId = some guestLinkId && status.all (r.status = ·)
  (found.insertionSort (newerFirst · ·)).take myBorrowRequestLimit

-- The database picks one of the links that point to the user.
def fetchGuestLinkId [ScanOrder] (userId laboratoryId : Uuid) (d : Database) : Option Uuid :=
  let found := d.guestLinks.rows.filter fun r =>
    r.localGuestUserId = userId && r.localLaboratoryId = laboratoryId
  (ScanOrder.visit found).head?.map (·.linkId)

def fetchUserSnapshot (userId : Uuid) : Transaction (String × UserType) :=
  .fetch (fun d => (d.users.find? userId).map fun r => (r.username, r.userType))
    (.forbidden "Actor not found in the database")

-- Borrowing is for guests of the laboratory.
def validateRequestActor (actor : Actor) (laboratoryId : Uuid) : Except ApiError Unit :=
  .check (actor.isGuest ∧ actor.laboratoryId = some laboratoryId)
    (.forbidden "Only guest users can request borrows")

def validateResolverActor (actor : Actor) (laboratoryId : Uuid) : Except ApiError Unit :=
  .check ((actor.isLabAdmin ∨ actor.isRegularUser) ∧ actor.laboratoryId = some laboratoryId)
    (.forbidden
      "Only this laboratory's administrators and users can approve or reject borrow requests")

def cancellableBy (r : BorrowRequestRow) (actor : Actor) (guestLinkId : Option Uuid) : Bool :=
  guestLinkId.any (r.requesterGuestLinkId = some ·) || r.requesterUserId = some actor.userId

-- The guest link is known to the caller.
def createBorrowRequest (ctx : LaboratoryContext) (inventoryItemId : Uuid)
    (guestLinkId : Option Uuid) (requestNote : Option String) (newId : Uuid) :
    Transaction Unit := do
  let some item ← fetchInventoryItemForUpdate inventoryItemId |
    .abort (.notFound "Inventory item not found")
  .require (item.laboratoryId = ctx.laboratoryId) (.notFound "Inventory item not found")
  .ofExcept <| validateRequestActor ctx.actor ctx.laboratoryId
  .require (item.status = .available)
    (.conflict "Only available inventory items can be borrowed")
  let pending ← .read (pendingBorrowRequestExists item.inventoryItemId)
  .require (¬pending) (.conflict "This inventory item already has a pending borrow request")
  let (requesterUsername, requesterUserType) ← fetchUserSnapshot ctx.actor.userId
  let now ← .read (·.now)
  insertBorrowRequest {
    borrowRequestId := newId
    localLaboratoryId := ctx.laboratoryId
    inventoryItemId := item.inventoryItemId
    requesterUserId := some ctx.actor.userId
    requesterUsername, requesterUserType
    requesterGuestLinkId := guestLinkId
    requestNote := normalizeOptionalText requestNote
    status := .pending
    reviewedByUserId := none
    reviewedByUsername := none
    reviewedByUserType := none
    reviewedAt := none
    decisionNote := none
    createdAt := now
  }
  let _ ← requireBorrowRequest ctx.laboratoryId newId

def cancelBorrowRequest (ctx : LaboratoryContext) (borrowRequestId : Uuid)
    (guestLinkId : Option Uuid) : Transaction Unit := do
  .ofExcept <| validateRequestActor ctx.actor ctx.laboratoryId
  let row ← requireBorrowRequest ctx.laboratoryId borrowRequestId
  .require (cancellableBy row ctx.actor guestLinkId) (.notFound "Borrow request not found")
  .require (row.status = .pending) (.conflict "Borrow request is no longer pending")
  updateBorrowRequestCancelled borrowRequestId ctx.laboratoryId
  let _ ← requireBorrowRequest ctx.laboratoryId borrowRequestId

def validateBorrowRequestStatus (status : Option String) :
    Except ApiError (Option BorrowRequestStatus) :=
  status.mapM fun status => (BorrowRequestStatus.parse status).mapError .validation

namespace Routes

variable [ScanOrder]

-- A guest who is signed in is tied to a remote identity by a link, if there is one.
def createBorrowRequest (ctx : LaboratoryContext) (inventoryItemId : Uuid)
    (requestNote : Option String) (newId : Uuid) : Transaction Unit := do
  let guestLinkId ← .read (fetchGuestLinkId ctx.actor.userId ctx.laboratoryId)
  BorrowRequests.createBorrowRequest ctx inventoryItemId guestLinkId requestNote newId

def cancelBorrowRequest (ctx : LaboratoryContext) (borrowRequestId : Uuid) : Transaction Unit := do
  let guestLinkId ← .read (fetchGuestLinkId ctx.actor.userId ctx.laboratoryId)
  BorrowRequests.cancelBorrowRequest ctx borrowRequestId guestLinkId

end Routes

def parseDecision (decision : String) : Except ApiError BorrowRequestStatus := do
  let status ← (BorrowRequestStatus.parse decision).mapError .validation
  .check (¬(status = .pending ∨ status = .cancelled))
    (.validation "decision must be approved or rejected")
  return status

def resolveBorrowRequest (ctx : LaboratoryContext) (borrowRequestId : Uuid) (decision : String)
    (decisionNote : Option String) : Transaction Unit := do
  .ofExcept <| validateResolverActor ctx.actor ctx.laboratoryId
  let decision ← .ofExcept <| parseDecision decision
  let request ← requireBorrowRequest ctx.laboratoryId borrowRequestId
  .require (request.status = .pending) (.conflict "Borrow request has already been resolved")
  let some item ← fetchInventoryItemForUpdate request.inventoryItemId |
    .abort (.notFound "Inventory item not found")
  .require (¬(decision = .approved ∧ item.status ≠ .available))
    (.conflict "Only available inventory items can be approved for borrowing")
  let (reviewerUsername, reviewerUserType) ← fetchUserSnapshot ctx.actor.userId
  match decision with
  | .approved => markInventoryItemBorrowed item.inventoryItemId
  | _ => pure ()
  updateBorrowRequestDecision borrowRequestId ctx.laboratoryId decision ctx.actor.userId
    reviewerUsername reviewerUserType (normalizeOptionalText decisionNote)
  let _ ← requireBorrowRequest ctx.laboratoryId borrowRequestId

inductive Request
  | create (inventoryItemId : Uuid) (guestLinkId : Option Uuid) (requestNote : Option String)
      (newId : Uuid)
  | resolve (borrowRequestId : Uuid) (decision : String) (decisionNote : Option String)
  | cancel (borrowRequestId : Uuid) (guestLinkId : Option Uuid)

def Request.handle (ctx : LaboratoryContext) : Request → Transaction Unit
  | create inventoryItemId guestLinkId requestNote newId =>
    createBorrowRequest ctx inventoryItemId guestLinkId requestNote newId
  | resolve borrowRequestId decision decisionNote =>
    resolveBorrowRequest ctx borrowRequestId decision decisionNote
  | cancel borrowRequestId guestLinkId => cancelBorrowRequest ctx borrowRequestId guestLinkId

end BorrowRequests

end LabInventory
