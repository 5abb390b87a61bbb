import LabInventory.Federation.Verification
import LabInventory.Federation.Pairing.Basic

open Sql Program

namespace LabInventory

namespace Federation

-- Who an inbound caller is: the link which records the remote user, and the account it stands for.
structure GuestLinkIdentity where
  linkId : Uuid
  localGuestUserId : Uuid
deriving DecidableEq

def GuestLinkRow.identity (r : GuestLinkRow) : GuestLinkIdentity where
  linkId := r.linkId
  localGuestUserId := r.localGuestUserId

-- The remote user that an inbound request to the laboratory comes from.
def InboundFederationContext.remote (context : InboundFederationContext) (laboratoryId : Uuid) :
    Uuid × Uuid × Uuid × Uuid :=
  (laboratoryId, context.remoteNode.remoteNodeId, context.remoteLaboratoryId, context.remoteUserId)

section Queries

def findGuestLink (remote : Uuid × Uuid × Uuid × Uuid) (d : Database) : Option GuestLinkRow :=
  d.guestLinks.rows.find? (·.remote = remote)

-- A link that has been found is looked at again, once its row is locked.
def refreshGuestLink (remote : Uuid × Uuid × Uuid × Uuid) (username userType : String)
    (linkId : Uuid) : Transaction (Option GuestLinkIdentity) := do
  .lockRow (.guestLink linkId)
  let link ← .read fun d => (d.guestLinks.find? linkId).filter (·.remote = remote)
  match link with
  | none => return none
  | some link =>
    .exec (.guestLinks <| .update { link with
      remoteUsername := username
      remoteUserType := userType
    }) mapDatabaseError
    return some (GuestLinkRow.identity link)

-- Refreshes the link that a remote user already has.
def touchGuestLink (laboratoryId : Uuid) (context : InboundFederationContext) :
    Transaction (Option GuestLinkIdentity) := do
  let found ← .read (findGuestLink (context.remote laboratoryId))
  match found with
  | none => return none
  | some found =>
    refreshGuestLink (context.remote laboratoryId) context.remoteUsername context.remoteUserType
      found.linkId

-- The insertion waits for others which insert the same user name.
def insertShadowGuest (userId : Uuid) (username passwordHash : String) (laboratoryId : Uuid) :
    Transaction Unit := do
  .lockRow (.usernameEntry username)
  .exec (.users <| .insert {
    userId, username, passwordHash
    userType := .guest
    laboratoryId := some laboratoryId
    email := none
    phoneNumber := none
    description := none
    isFederationShadow := true
  }) mapDatabaseError

def insertNewGuestLink (newLinkId laboratoryId : Uuid) (context : InboundFederationContext)
    (guestUserId : Uuid) : Transaction GuestLinkIdentity := do
  .exec (.guestLinks <| .insert {
    linkId := newLinkId
    localLaboratoryId := laboratoryId
    remoteNodeId := context.remoteNode.remoteNodeId
    remoteLaboratoryId := context.remoteLaboratoryId
    remoteUserId := context.remoteUserId
    remoteUsername := context.remoteUsername
    remoteUserType := context.remoteUserType
    localGuestUserId := guestUserId
  }) mapDatabaseError
  return ⟨newLinkId, guestUserId⟩

-- A concurrent request may have created the link first. Then its guest wins.
def insertGuestLink (newLinkId laboratoryId : Uuid) (context : InboundFederationContext)
    (guestUserId : Uuid) : Transaction GuestLinkIdentity := do
  .lockRow (.guestLinkEntry (context.remote laboratoryId))
  let found ← .read (findGuestLink (context.remote laboratoryId))
  match found with
  | none => insertNewGuestLink newLinkId laboratoryId context guestUserId
  | some found =>
    let refreshed ← refreshGuestLink (context.remote laboratoryId) context.remoteUsername
      context.remoteUserType found.linkId
    match refreshed with
    | some identity => return identity
    | none => insertNewGuestLink newLinkId laboratoryId context guestUserId

def guestLinkExistsForUser (userId : Uuid) (d : Database) : Bool :=
  d.guestLinks.rows.any (·.localGuestUserId = userId)

-- The guest links of the account are only visited by the cascade, after the account itself.
def deleteShadowGuest (userId : Uuid) : Transaction Unit := do
  .lock [.guestLinksOf userId] (.user userId) (.done ())
  let guest ← .read fun d => (d.users.find? userId).filter (·.isFederationShadow)
  match guest with
  | none => return
  | some _ => .exec (.users <| .delete userId) mapDatabaseError

def fetchGuestLinkUserForUpdate (laboratoryId linkId : Uuid) : Transaction (Option Uuid) := do
  let link ← .selectForUpdate (.guestLink linkId) fun d =>
    (d.guestLinks.find? linkId).filter (·.localLaboratoryId = laboratoryId)
  return link.map (·.localGuestUserId)

def updateGuestLinkUser (laboratoryId linkId targetGuestUserId : Uuid) : Transaction Unit := do
  let link ← .selectForUpdate (.guestLink linkId) fun d =>
    (d.guestLinks.find? linkId).filter (·.localLaboratoryId = laboratoryId)
  match link with
  | none => return
  | some link =>
    .exec (.guestLinks <| .update { link with localGuestUserId := targetGuestUserId })
      mapDatabaseError

end Queries

section Service

def validateTargetGuest (laboratoryId targetGuestUserId : Uuid) : Transaction Unit := do
  let user ← .fetch (·.users.find? targetGuestUserId)
    (.validation "Target guest user not found")
  .require (user.userType = .guest ∧ user.laboratoryId = some laboratoryId)
    (.validation "Target user must be a guest in this laboratory")

def shadowGuestUsername [UuidFormat] (context : InboundFederationContext) : String :=
  let first (id : Uuid) : String := .ofList ((UuidFormat.showUuid id).toList.take 8)
  "fed_" ++ first context.remoteNode.remoteNodeId ++ "_" ++ first context.remoteUserId

-- The transaction in which a remote user who was not seen before gets a link.
def storeGuestLink [UuidFormat] (laboratoryId : Uuid) (context : InboundFederationContext)
    (newUserId newLinkId : Uuid) (passwordHash : String) : Transaction GuestLinkIdentity := do
  insertShadowGuest newUserId (shadowGuestUsername context) passwordHash laboratoryId
  let identity ← insertGuestLink newLinkId laboratoryId context newUserId
  if identity.localGuestUserId ≠ newUserId then
    deleteShadowGuest newUserId
  return identity

def upsertGuestLink [UuidFormat] (laboratoryId : Uuid) (context : InboundFederationContext)
    (newUserId newLinkId : Uuid) (passwordHash : String) : Transaction GuestLinkIdentity := do
  let existing ← touchGuestLink laboratoryId context
  match existing with
  | some identity => return identity
  | none => storeGuestLink laboratoryId context newUserId newLinkId passwordHash

def mergeGuestLinkUser (laboratoryId linkId oldGuestUserId targetGuestUserId : Uuid) :
    Transaction Unit := do
  updateGuestLinkUser laboratoryId linkId targetGuestUserId
  let referenced ← .read (guestLinkExistsForUser oldGuestUserId)
  if ¬referenced then
    deleteShadowGuest oldGuestUserId

-- The transaction of a merge, after what is checked beforehand.
def storeMerge (laboratoryId linkId targetGuestUserId : Uuid) : Transaction Unit := do
  let some oldGuestUserId ← fetchGuestLinkUserForUpdate laboratoryId linkId |
    .abort (.notFound "Federation guest link not found")
  mergeGuestLinkUser laboratoryId linkId oldGuestUserId targetGuestUserId

def mergeGuestLink (settings : FederationSettings) (ctx : LaboratoryContext)
    (linkId targetGuestUserId : Uuid) : Transaction Unit := do
  requireFederation settings
  requirePermission ctx .update
  validateTargetGuest ctx.laboratoryId targetGuestUserId
  storeMerge ctx.laboratoryId linkId targetGuestUserId

end Service

end Federation

end LabInventory
