import LabInventory.BorrowRequests.Basic
import LabInventory.Federation.GuestLinks.Basic

open Sql

namespace LabInventory

namespace Federation

open BorrowRequests

-- The parts of a path between its slashes. Empty ones do not count.
def pathParts (tail : String) : List String :=
  ((tail.toList.splitOn '/').filter (· ≠ [])).map .ofList

-- What a federated caller asks to do.
inductive FederationBorrowTarget
  | listMine
  | create (inventoryItemId : Uuid)
  | cancel (borrowRequestId : Uuid)
deriving DecidableEq

def parseBorrowTarget [UuidFormat] (method : Method) (tail : String) :
    Option FederationBorrowTarget :=
  match method, pathParts tail with
  | .get, ["borrow-requests"] => some .listMine
  | .post, ["inventory-items", itemId, "borrow-requests"] =>
    (UuidFormat.parseUuid itemId).map .create
  | .post, ["borrow-requests", requestId, "cancel"] =>
    (UuidFormat.parseUuid requestId).map .cancel
  | _, _ => none

-- The query is given by its keys and values.
def statusFilter (query : List (String × String)) : Option String :=
  (query.find? (·.1 = "status")).map (·.2)

-- Whatever the account is, that is what the borrow rules are applied to.
def federatedActor (caller : GuestLinkIdentity) : Transaction Actor :=
  .fetch (getActor · caller.localGuestUserId)
    (.unexpected "Federation guest link points at a user that does not exist")

inductive FederationBorrowResponse
  | requests (rows : List BorrowRequestRow)
  | created
  | cancelled

-- The `body` is what has been parsed as a new request: its note.
def respondFederationBorrow (laboratoryId : Uuid) (caller : GuestLinkIdentity)
    (target : FederationBorrowTarget) (query : List (String × String))
    (body : Except String (Option String)) (newId : Uuid) :
    Transaction FederationBorrowResponse := do
  let actor ← federatedActor caller
  match target with
  | .listMine =>
    let status ← .ofExcept <| validateBorrowRequestStatus (statusFilter query)
    let rows ← .read (fetchBorrowRequestsForGuestLink laboratoryId caller.linkId status)
    return .requests rows
  | .create inventoryItemId =>
    let requestNote ← .validated body
    createBorrowRequest ⟨actor, laboratoryId⟩ inventoryItemId (some caller.linkId) requestNote newId
    return .created
  | .cancel borrowRequestId =>
    cancelBorrowRequest ⟨actor, laboratoryId⟩ borrowRequestId (some caller.linkId)
    return .cancelled

end Federation

end LabInventory
