import LabInventory.Federation.Security

open Sql

namespace LabInventory

-- Who trusts whom.
def TrustRow.pair (r : TrustRow) : Uuid × Uuid × Uuid :=
  (r.localLaboratoryId, r.remoteNodeId, r.remoteLaboratoryId)

namespace Federation

def manageFederationForbidden : String :=
  "Only this laboratory's administrator can manage federation"

section Queries

def fetchLocalNodeId : Transaction Uuid :=
  .fetch (·.localNodeId) (.unexpected "This server has no federation node identity")

-- An insertion waits for the row with the same key, even when that is not visible yet.
def upsertRemoteNode (remoteNodeId : Uuid) (baseUrl : String) (displayName : Option String)
    (sharedSecret sharedSecretHash : String) (tlsCertificateSha256 : Option String)
    (keyVersion : Int) (now : Timestamp) : Transaction RemoteNodeRow := do
  .lockRow (.remoteNode remoteNodeId)
  let row : RemoteNodeRow := {
    remoteNodeId, baseUrl, displayName, sharedSecret, sharedSecretHash, tlsCertificateSha256
    status := .active
    keyVersion
    lastHandshakeAt := some now
  }
  match ← .read (·.remoteNodes.find? remoteNodeId) with
  | none => .exec (.remoteNodes <| .insert row) mapDatabaseError
  | some _ => .exec (.remoteNodes <| .update row) mapDatabaseError
  return row

def findTrust (pair : Uuid × Uuid × Uuid) (d : Database) : Option TrustRow :=
  d.laboratoryTrusts.rows.find? (·.pair = pair)

def upsertTrust (newTrustId localLaboratoryId remoteNodeId remoteLaboratoryId : Uuid)
    (remoteLaboratoryName : Option String) : Transaction TrustRow := do
  .lockRow (.laboratoryTrust localLaboratoryId remoteNodeId remoteLaboratoryId)
  match ← .read (findTrust (localLaboratoryId, remoteNodeId, remoteLaboratoryId)) with
  | none =>
    let row : TrustRow := {
      trustId := newTrustId
      localLaboratoryId, remoteNodeId, remoteLaboratoryId, remoteLaboratoryName
      status := .active
      revokedAt := none
    }
    .exec (.laboratoryTrusts <| .insert row) mapDatabaseError
    return row
  | some trust =>
    let row := { trust with remoteLaboratoryName, status := .active, revokedAt := none }
    .exec (.laboratoryTrusts <| .update row) mapDatabaseError
    return row

def revokeTrustInDatabase (laboratoryId trustId : Uuid) : Transaction (Option TrustRow) := do
  let now ← .read (·.now)
  let found (d : Database) :=
    (d.laboratoryTrusts.find? trustId).filter (·.localLaboratoryId = laboratoryId)
  let some trust ← .read found | return none
  .lockRow (.laboratoryTrust trust.localLaboratoryId trust.remoteNodeId trust.remoteLaboratoryId)
  let some trust ← .read found | return none
  let row := { trust with status := .revoked, revokedAt := some now }
  .exec (.laboratoryTrusts <| .update row) mapDatabaseError
  return some row

def insertPairingCode (newId laboratoryId : Uuid) (codeHash : String) (expiresAt : Timestamp) :
    Transaction PairingCodeRow := do
  let now ← .read (·.now)
  let row : PairingCodeRow := {
    pairingCodeId := newId
    localLaboratoryId := laboratoryId
    codeHash, expiresAt
    consumedAt := none
    createdAt := now
  }
  .exec (.pairingCodes <| .insert row) mapDatabaseError
  return row

def IsUsable (codeHash : String) (now : Timestamp) (r : PairingCodeRow) : Bool :=
  r.codeHash = codeHash && r.consumedAt.isNone && now < r.expiresAt

-- The code is looked at again once it is locked.
def consumePairingCode (codeHash : String) (now : Timestamp) :
    Transaction (Option PairingCodeRow) := do
  let some code ← .read (·.pairingCodes.rows.find? (IsUsable codeHash now)) | return none
  .lockRow (.pairingCode code.pairingCodeId)
  let some code ← .read fun d =>
    (d.pairingCodes.find? code.pairingCodeId).filter (IsUsable codeHash now) | return none
  let row := { code with consumedAt := some now }
  .exec (.pairingCodes <| .update row) mapDatabaseError
  return some row

end Queries

def requireFederation (settings : FederationSettings) : Transaction Unit :=
  .require settings.enabled (.forbidden federationDisabled)

def requirePermission (ctx : LaboratoryContext) (action : Uuid → Action) : Transaction Unit := do
  let permitted ← .read
    (validatePermission · ctx.authorizationActor .federation (action ctx.laboratoryId))
  .require permitted (.forbidden manageFederationForbidden)

-- Fifteen minutes.
def pairingCodeLifetime : Int :=
  15 * 60 * 1000000

section Pairing

variable [Cryptography]

structure PairingCodeResponse where
  pairingCodeId : Uuid
  pairingCode : String
  expiresAt : Timestamp
  localNodeId : Uuid
  localBaseUrl : String
  localLaboratoryId : Uuid

-- The `code` is a generated token.
def createPairingCode (settings : FederationSettings) (ctx : LaboratoryContext) (code : String)
    (newId : Uuid) : Transaction PairingCodeResponse := do
  requireFederation settings
  requirePermission ctx .create
  let localNodeId ← fetchLocalNodeId
  let now ← .read (·.now)
  let row ← insertPairingCode newId ctx.laboratoryId (sha256Hex (asBytes code))
    (now + pairingCodeLifetime)
  return {
    pairingCodeId := row.pairingCodeId
    pairingCode := code
    expiresAt := row.expiresAt
    localNodeId
    localBaseUrl := settings.publicBaseUrl
    localLaboratoryId := row.localLaboratoryId
  }

structure AcceptPairingJsonData where
  pairingCode : String
  requesterNodeId : Uuid
  requesterBaseUrl : String
  requesterLaboratoryId : Uuid
  requesterLaboratoryName : String
  sharedSecret : String
  tlsCertificateSha256 : Option String

structure AcceptPairingResponse where
  nodeId : Uuid
  publicBaseUrl : String
  laboratoryId : Uuid
  laboratoryName : String
  tlsCertificateSha256 : Option String
  keyVersion : Int

variable [Addresses]

def acceptPairing (settings : FederationSettings) (payload : AcceptPairingJsonData)
    (newTrustId : Uuid) : Transaction AcceptPairingResponse := do
  requireFederation settings
  let requesterBaseUrl ← .validated <| normalizeBaseUrl payload.requesterBaseUrl settings
  .require (Text.trim payload.sharedSecret ≠ "") (.validation "shared_secret is required")
  let sharedSecretHash := sha256Hex (asBytes payload.sharedSecret)
  let codeHash := sha256Hex (asBytes payload.pairingCode)
  let localNodeId ← fetchLocalNodeId
  -- The transaction starts here.
  let now ← .read (·.now)
  let some pairingCode ← consumePairingCode codeHash now |
    .abort (.validation "Pairing code is invalid or has expired")
  let laboratory ← .fetch (·.laboratories.find? pairingCode.localLaboratoryId)
    (.unexpected "The laboratory a pairing code was issued for no longer exists")
  let remote ← upsertRemoteNode payload.requesterNodeId requesterBaseUrl
    (some payload.requesterLaboratoryName) payload.sharedSecret sharedSecretHash none 1 now
  let _ ← upsertTrust newTrustId pairingCode.localLaboratoryId remote.remoteNodeId
    payload.requesterLaboratoryId (some payload.requesterLaboratoryName)
  return {
    nodeId := localNodeId
    publicBaseUrl := settings.publicBaseUrl
    laboratoryId := laboratory.laboratoryId
    laboratoryName := laboratory.name
    tlsCertificateSha256 := payload.tlsCertificateSha256
    keyVersion := 1
  }

structure CreateTrustJsonData where
  remoteBaseUrl : String
  remoteLaboratoryId : Uuid
  pairingCode : String
  tlsCertificateSha256 : Option String

omit [Cryptography] [Addresses] in
-- The address the remote node should call back on.
def requesterBaseUrl (requestBaseUrl : String) (settings : FederationSettings) : String :=
  if "127.0.0.1".toList <:+: settings.publicBaseUrl.toList ∨
      "localhost".toList <:+: settings.publicBaseUrl.toList then
    requestBaseUrl
  else
    settings.publicBaseUrl

-- A trust which is about to be created, while the remote node is contacted.
structure PendingTrust where
  laboratoryId : Uuid
  remoteBaseUrl : String
  remoteLaboratoryId : Uuid
  message : AcceptPairingJsonData

omit [Cryptography] in
-- The `sharedSecret` is a generated token.
def requestTrust (settings : FederationSettings) (ctx : LaboratoryContext)
    (payload : CreateTrustJsonData) (requestBaseUrl sharedSecret : String) :
    Transaction PendingTrust := do
  requireFederation settings
  requirePermission ctx .create
  .validated <| validateTlsPinValue payload.tlsCertificateSha256
  let remoteBaseUrl ← .validated <| normalizeBaseUrl payload.remoteBaseUrl settings
  let localNodeId ← fetchLocalNodeId
  let laboratory ← .fetch (·.laboratories.find? ctx.laboratoryId)
    (.unexpected "The laboratory this trust is created for no longer exists")
  return {
    laboratoryId := ctx.laboratoryId
    remoteBaseUrl
    remoteLaboratoryId := payload.remoteLaboratoryId
    message := {
      pairingCode := payload.pairingCode
      requesterNodeId := localNodeId
      requesterBaseUrl := requesterBaseUrl requestBaseUrl settings
      requesterLaboratoryId := ctx.laboratoryId
      requesterLaboratoryName := laboratory.name
      sharedSecret
      tlsCertificateSha256 := payload.tlsCertificateSha256
    }
  }

-- What the remote node answers.
structure PairingResponse where
  peerCertificate : Option (List UInt8)
  result : Except ApiError AcceptPairingResponse

omit [Cryptography] [Addresses] in
def remotePairingFailed (e : ApiError) : ApiError :=
  .badGateway ("Remote pairing failed with status " ++ e.statusCode.repr ++ ": " ++ e.message)

omit [Addresses] in
def checkPairingResponse (pending : PendingTrust) (response : PairingResponse) :
    Except ApiError AcceptPairingResponse := do
  (verifyTlsPin response.peerCertificate pending.message.tlsCertificateSha256).mapError .badGateway
  let accepted ← response.result.mapError remotePairingFailed
  .check (accepted.laboratoryId = pending.remoteLaboratoryId)
    (.badGateway "Remote pairing response laboratory does not match request")
  return accepted

omit [Addresses] in
def storeTrust (pending : PendingTrust) (response : PairingResponse) (newTrustId : Uuid) :
    Transaction TrustRow := do
  let accepted ← .ofExcept <| checkPairingResponse pending response
  let now ← .read (·.now)
  let remote ← upsertRemoteNode accepted.nodeId pending.remoteBaseUrl (some accepted.publicBaseUrl)
    pending.message.sharedSecret (sha256Hex (asBytes pending.message.sharedSecret))
    (accepted.tlsCertificateSha256.or pending.message.tlsCertificateSha256) accepted.keyVersion now
  upsertTrust newTrustId pending.laboratoryId remote.remoteNodeId pending.remoteLaboratoryId
    (some accepted.laboratoryName)

def createTrust (settings : FederationSettings) (ctx : LaboratoryContext)
    (payload : CreateTrustJsonData) (requestBaseUrl sharedSecret : String)
    (response : PairingResponse) (newTrustId : Uuid) : Transaction TrustRow := do
  let pending ← requestTrust settings ctx payload requestBaseUrl sharedSecret
  storeTrust pending response newTrustId

omit [Cryptography] [Addresses] in
def revokeTrust (settings : FederationSettings) (ctx : LaboratoryContext) (trustId : Uuid) :
    Transaction Unit := do
  requireFederation settings
  requirePermission ctx .delete
  let some _ ← revokeTrustInDatabase ctx.laboratoryId trustId |
    .abort (.notFound "Federation trust not found")

end Pairing

end Federation

end LabInventory
