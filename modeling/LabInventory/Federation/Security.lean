import Std.Data.String.ToInt
import LabInventory.AccessControl.Basic
import LabInventory.Library.Sha256

open Sql

namespace LabInventory

structure FederationSettings where
  enabled : Bool
  publicBaseUrl : String
  requireHttps : Bool
  allowInsecurePrivateNetwork : Bool
  requestTtlSeconds : Int
  allowedRemoteHosts : List String

-- The functions of the crates `sha2`, `hmac` and `base64`.
class Cryptography where
  sha256 : List UInt8 → List UInt8
  hmacSha256 : (key message : String) → List UInt8
  encodeBase64 : List UInt8 → String
  decodeBase64 : String → Option (List UInt8)
  length_sha256 {bs} : (sha256 bs).length = 32
  decodeBase64_encodeBase64 {bs} : decodeBase64 (encodeBase64 bs) = some bs
  encodeBase64_chars {bs} : ∀ c ∈ (encodeBase64 bs).toList, ' ' < c ∧ c.toNat < 127

-- `str::as_bytes`
def asBytes (s : String) : List UInt8 :=
  s.toList.flatMap String.utf8EncodeChar

@[reducible]
def Cryptography.standard : Cryptography where
  sha256 := Sha2.sha256
  hmacSha256 key message := Sha2.hmac (asBytes key) (asBytes message)
  encodeBase64 bs := .ofList (Base64.encode bs)
  decodeBase64 s := Base64.decode s.toList
  length_sha256 := Sha2.length_sha256
  decodeBase64_encodeBase64 := by
    simp only [String.toList_ofList]
    exact Base64.decode_encode
  encodeBase64_chars c hc := by
    have ha : Base64.alphabet.all fun c => ' ' < c ∧ c.toNat < 127 := by decide +kernel
    rw [List.all_eq_true] at ha
    rcases Base64.mem_encode (by simpa using hc) with h | rfl
    case inl => simpa using ha c h
    case inr => decide

inductive IpAddr
  | v4 (a b c d : UInt8)
  | v6 (ip : BitVec 128)
deriving DecidableEq

-- A parsed URL. Its `text` is what it is rendered as without the query and the fragment.
structure Url where
  scheme : String
  username : String
  password : Option String
  host : Option String
  port : Option Nat
  path : String
  text : String

-- How the crate `url` and the standard library read addresses.
class Addresses where
  parseUrl : String → Option Url
  parseIpAddr : String → Option IpAddr

namespace Federation

def federationDisabled : String :=
  "Federation is disabled"

def hexByte (b : UInt8) : List Char :=
  [Hex.digit (b.toNat / 16), Hex.digit (b.toNat % 16)]

def sha256Hex [Cryptography] (bytes : List UInt8) : String :=
  .ofList <| (Cryptography.sha256 bytes).flatMap hexByte

namespace IpAddr

def isMetadata (ip : IpAddr) : Bool :=
  ip = .v4 169 254 169 254

-- Of the IPv6 addresses, the leading bits are looked at.
def isSpecial : IpAddr → Bool
  | .v4 a b c d =>
    a = 127 || (a = 169 && b = 254) || (224 ≤ a && a ≤ 239) || (a = 0 && b = 0 && c = 0 && d = 0) ||
    (a = 255 && b = 255 && c = 255 && d = 255) || (a = 192 && b = 0 && c = 2) ||
    (a = 198 && b = 51 && c = 100) || (a = 203 && b = 0 && c = 113) || a = 10 ||
    (a = 172 && 16 ≤ b && b ≤ 31) || (a = 192 && b = 168)
  | .v6 ip =>
    ip = 1 || ip.toNat / 2 ^ 120 = 0xff || ip = 0 || ip.toNat / 2 ^ 121 = 0xfc / 2 ||
    ip.toNat / 2 ^ 118 = 0xfe80 / 2 ^ 6

end IpAddr

def validateRemoteIp (ip : IpAddr) (settings : FederationSettings) (allowlisted : Bool) :
    Except String Unit := do
  .check (¬IpAddr.isMetadata ip) "Metadata service IPs are not allowed as federation targets"
  .check (¬(IpAddr.isSpecial ip ∧ ¬(settings.allowInsecurePrivateNetwork ∨ allowlisted)))
    "Private or special-use federation target IPs require explicit allowance"

def toAsciiLowercase (s : String) : String :=
  .ofList <| s.toList.map Char.toLower

-- The names of methods are ASCII.
def toUppercase (s : String) : String :=
  .ofList <| s.toList.map Char.toUpper

def validateRemoteUrl [Addresses] (url : Url) (settings : FederationSettings) :
    Except String Unit := do
  if url.scheme = "http" then
    .check (¬settings.requireHttps ∧ settings.allowInsecurePrivateNetwork)
      "HTTP federation URLs are not allowed by this configuration"
  else
    .check (url.scheme = "https") "Federation URL must use http or https"
  .check (url.username = "" ∧ url.password.isNone) "Federation URL cannot contain credentials"
  let some host := url.host | throw "Federation URL must include a host"
  let host := toAsciiLowercase host
  let hostWithPort := match url.port with
    | some port => s!"{host}:{port}"
    | none => host
  let allowlisted := (settings.allowedRemoteHosts.map toAsciiLowercase).any fun value =>
    value = host || value = hostWithPort
  .check (settings.allowedRemoteHosts = [] ∨ allowlisted)
    "Remote host is not in federation allowed_remote_hosts"
  if host = "localhost" then
    .check (settings.allowInsecurePrivateNetwork ∨ allowlisted)
      "Localhost federation URLs are not allowed"
  else
    match Addresses.parseIpAddr host with
    | some ip => validateRemoteIp ip settings allowlisted
    | none => pure ()
    .check (¬(url.scheme = "http" ∧ ¬settings.allowInsecurePrivateNetwork ∧ ¬allowlisted))
      "HTTP federation URLs require explicit private-network allowance"

-- `str::trim_end_matches('/')`
def trimEndSlashes (s : String) : String :=
  .ofList <| s.toList.rdropWhile (· = '/')

def normalizeBaseUrl [Addresses] (input : String) (settings : FederationSettings) :
    Except String String := do
  let some url := Addresses.parseUrl input | throw "Invalid remote base URL"
  validateRemoteUrl url settings
  .check (url.path = "/" ∨ url.path = "") "Remote base URL cannot include a path"
  return trimEndSlashes url.text

def isAsciiHexdigit (c : Char) : Bool :=
  c.isDigit || ('a' ≤ c && c ≤ 'f') || ('A' ≤ c && c ≤ 'F')

-- The length is that of the encoded text. It differs from the number of characters only for texts
-- which are refused anyway.
def validateTlsPinValue : Option String → Except String Unit
  | some value => .check (value.utf8ByteSize = 64 ∧ value.toList.all isAsciiHexdigit)
    "TLS certificate SHA-256 pin must be 64 hex characters"
  | none => .ok ()

-- `actual_pin.eq_ignore_ascii_case(expected_pin)`
def verifyTlsPin [Cryptography] (peerCertificate : Option (List UInt8)) :
    Option String → Except String Unit
  | some expectedPin => do
    let some peerCertificate := peerCertificate | throw "TLS peer certificate is unavailable"
    .check (toAsciiLowercase (sha256Hex peerCertificate) = toAsciiLowercase expectedPin)
      "Remote TLS certificate pin does not match"
  | none => .ok ()

-- The methods that are routed to the inbound handlers.
inductive Method
  | get
  | post
deriving DecidableEq

def Method.asStr : Method → String
  | get => "GET"
  | post => "POST"

-- The first value of each header.
abbrev HeaderMap := String → Option (List UInt8)

namespace Header

def nodeId := "x-federation-node-id"
def keyVersion := "x-federation-key-version"
def timestamp := "x-federation-timestamp"
def nonce := "x-federation-nonce"
def signature := "x-federation-signature"
def remoteLaboratoryId := "x-federation-remote-laboratory-id"
def remoteUserId := "x-federation-remote-user-id"
def remoteUsername := "x-federation-remote-username"
def remoteUserType := "x-federation-remote-user-type"

def isVisibleAscii (b : UInt8) : Bool :=
  (32 ≤ b && b < 127) || b = 9

-- `HeaderValue::to_str`
def toStr (value : List UInt8) : Option String :=
  if value.all isVisibleAscii then some (.ofList <| value.map fun b => .ofNat b.toNat) else none

end Header

structure OutboundFederationIdentity where
  localNodeId : Uuid
  localLaboratoryId : Uuid
  userId : Uuid
  username : String
  userType : String

structure InboundFederationContext where
  remoteNode : RemoteNodeRow
  remoteLaboratoryId : Uuid
  remoteUserId : Uuid
  remoteUsername : String
  remoteUserType : String
deriving DecidableEq

-- There are no control characters in the target of a request.
structure PathAndQuery where
  asStr : String
  visible : ∀ c ∈ asStr.toList, ' ' < c

structure InboundRequest where
  method : Method
  pathAndQuery : PathAndQuery
  headers : HeaderMap
  body : List UInt8

-- The headers as they are received.
def toHeaderMap (headers : List (String × String)) : HeaderMap :=
  fun name => (headers.lookup name).map asBytes

section Signature

variable [UuidFormat]

-- The fields that a signature covers.
def canonicalFields (method pathAndQuery bodyHash : String) (nodeId laboratoryId userId : Uuid)
    (userType timestamp nonce : String) (keyVersion : Int) : List String := [
  "v1", toUppercase method, pathAndQuery, bodyHash, UuidFormat.showUuid nodeId,
  UuidFormat.showUuid laboratoryId, UuidFormat.showUuid userId, userType, timestamp, nonce,
  keyVersion.repr
]

def canonical (fields : List String) : String :=
  "\n".intercalate fields

variable [Cryptography]

def signCanonical (sharedSecret : String) (fields : List String) : String :=
  Cryptography.encodeBase64 (Cryptography.hmacSha256 sharedSecret (canonical fields))

omit [UuidFormat] in
def verifySignature (provided expected : String) : Except ApiError Unit := do
  let some provided := Cryptography.decodeBase64 provided |
    throw (.unauthorized "Invalid federation signature")
  let some expected := Cryptography.decodeBase64 expected |
    throw (.unauthorized "Invalid federation signature")
  .check (provided = expected) (.unauthorized "Federation signature mismatch")

-- The headers of a request which is made at the time `now`, in seconds.
def signedHeaders (method : Method) (pathAndQuery : PathAndQuery) (body : List UInt8)
    (remoteNode : RemoteNodeRow) (identity : OutboundFederationIdentity) (now : Int)
    (nonce : String) : List (String × String) :=
  let signature := signCanonical remoteNode.sharedSecret <| canonicalFields method.asStr
    pathAndQuery.asStr (sha256Hex body) identity.localNodeId identity.localLaboratoryId identity.userId
    identity.userType now.repr nonce remoteNode.keyVersion
  [
    (Header.nodeId, UuidFormat.showUuid identity.localNodeId),
    (Header.keyVersion, remoteNode.keyVersion.repr),
    (Header.timestamp, now.repr),
    (Header.nonce, nonce),
    (Header.signature, signature),
    (Header.remoteLaboratoryId, UuidFormat.showUuid identity.localLaboratoryId),
    (Header.remoteUserId, UuidFormat.showUuid identity.userId),
    (Header.remoteUsername, identity.username),
    (Header.remoteUserType, identity.userType)
  ]

end Signature

section Headers

def requiredHeader (headers : HeaderMap) (name : String) : Except ApiError String := do
  let some value := headers name |
    throw (.unauthorized ("Missing federation header: " ++ name))
  let some value := Header.toStr value |
    throw (.unauthorized ("Invalid federation header: " ++ name))
  return value

def parseHeader {α : Type} (parse : String → Option α) (headers : HeaderMap) (name : String) :
    Except ApiError α := do
  let some value := parse (← requiredHeader headers name) |
    throw (.unauthorized ("Invalid federation header: " ++ name))
  return value

def parseDigits (ds : List Char) : Option Nat :=
  if ds ≠ [] ∧ ds.all Char.isDigit then some (Nat.ofDigitChars 10 ds 0) else none

-- `str::parse` for the signed integers of a given width.
def parseSigned (width : Nat) (s : String) : Option Int :=
  let n : Option Int := match s.toList with
    | '-' :: ds => (parseDigits ds).map fun n => -(n : Int)
    | '+' :: ds => (parseDigits ds).map fun n => (n : Int)
    | ds => (parseDigits ds).map fun n => (n : Int)
  n.filter fun n => -2 ^ (width - 1) ≤ n ∧ n < 2 ^ (width - 1)

def parseUuidHeader [UuidFormat] : HeaderMap → String → Except ApiError Uuid :=
  parseHeader UuidFormat.parseUuid

def parseI32Header : HeaderMap → String → Except ApiError Int :=
  parseHeader (parseSigned 32)

def parseI64Header : HeaderMap → String → Except ApiError Int :=
  parseHeader (parseSigned 64)

-- What an inbound request says about itself.
structure FederationHeaders where
  remoteNodeId : Uuid
  keyVersion : Int
  timestamp : Int
  nonce : String
  signature : String
  remoteLaboratoryId : Uuid
  remoteUserId : Uuid
  remoteUsername : String
  remoteUserType : String

def parseFederationHeaders [UuidFormat] (headers : HeaderMap) :
    Except ApiError FederationHeaders := do
  let remoteNodeId ← parseUuidHeader headers Header.nodeId
  let keyVersion ← parseI32Header headers Header.keyVersion
  let timestamp ← parseI64Header headers Header.timestamp
  let nonce ← requiredHeader headers Header.nonce
  let signature ← requiredHeader headers Header.signature
  let remoteLaboratoryId ← parseUuidHeader headers Header.remoteLaboratoryId
  let remoteUserId ← parseUuidHeader headers Header.remoteUserId
  let remoteUsername := Text.trim (← requiredHeader headers Header.remoteUsername)
  let remoteUserType := Text.trim (← requiredHeader headers Header.remoteUserType)
  .check (remoteUserType = "lab_admin" ∨ remoteUserType = "user")
    (.forbidden "Remote user type is not allowed for federation")
  .check (remoteUsername ≠ "") (.unauthorized "Remote username is required")
  return {
    remoteNodeId, keyVersion, timestamp, nonce, signature, remoteLaboratoryId, remoteUserId
    remoteUsername, remoteUserType
  }

end Headers

-- The 64-bit arithmetic of release builds wraps around.
def wrap64 (n : Int) : Int :=
  n.bmod (2 ^ 64)

def isFresh (requestTtlSeconds now timestamp : Int) : Bool :=
  wrap64 |wrap64 (now - timestamp)| ≤ requestTtlSeconds

-- Seconds since the epoch.
def epochSeconds (t : Timestamp) : Int :=
  t / 1000000

def fetchActiveTrust (localLaboratoryId remoteNodeId remoteLaboratoryId : Uuid) (d : Database) :
    Option TrustRow :=
  d.laboratoryTrusts.rows.find? fun r =>
    r.localLaboratoryId = localLaboratoryId && r.remoteNodeId = remoteNodeId &&
    r.remoteLaboratoryId = remoteLaboratoryId && r.status = .active

def mapDatabaseError (c : Constraint) : ApiError :=
  if c.isForeignKey then
    .validation "Invalid referenced record"
  else if c.isCheck then
    .validation "Invalid federation data"
  else
    .conflict "Federation record already exists"

-- Nothing that a signed request carries reaches the nonce statements as data.
def securityError : ApiError → ApiError
  | .conflict message => .unauthorized message
  | .validation message => .unexpected message
  | e => e

def mapNonceError (c : Constraint) : ApiError :=
  match mapDatabaseError c with
  | .conflict _ => .conflict "Federation request nonce has already been used"
  | e => e

section Verify

variable [UuidFormat] [Cryptography]

-- What has to be signed of a request, in view of its headers.
def signedFields (request : InboundRequest) (h : FederationHeaders) : List String :=
  canonicalFields request.method.asStr request.pathAndQuery.asStr (sha256Hex request.body)
    h.remoteNodeId h.remoteLaboratoryId h.remoteUserId h.remoteUserType h.timestamp.repr h.nonce
    h.keyVersion

def checkSignature (sharedSecret : String) (request : InboundRequest) (h : FederationHeaders) :
    Except ApiError Unit :=
  verifySignature h.signature <| signCanonical sharedSecret (signedFields request h)

-- An unknown node is answered like a known one that fails to sign.
def authenticate (request : InboundRequest) (targetLaboratoryId : Uuid) (h : FederationHeaders) :
    Transaction InboundFederationContext := do
  let remoteNode ← .fetch (·.remoteNodes.find? h.remoteNodeId)
    (.unauthorized "Federation node is not known")
  .require (remoteNode.status = .active ∧ remoteNode.keyVersion = h.keyVersion)
    (.unauthorized "Federation node is not active or key version is invalid")
  let trust ← .read (fetchActiveTrust targetLaboratoryId h.remoteNodeId h.remoteLaboratoryId)
  .require trust.isSome (.forbidden "No active federation trust between these laboratories")
  .ofExcept <| checkSignature remoteNode.sharedSecret request h
  return {
    remoteNode
    remoteLaboratoryId := h.remoteLaboratoryId
    remoteUserId := h.remoteUserId
    remoteUsername := h.remoteUsername
    remoteUserType := h.remoteUserType
  }

variable [ScanOrder]

omit [UuidFormat] [Cryptography] in
def deleteExpiredNonces : Transaction Unit := do
  let now ← .read (·.now)
  .forAll (fun d => d.requestNonces.rows.filter (·.expiresAt ≤ now))
    (fun r => .requestNonce r.remoteNodeId r.nonce) fun r => do
      let some r ← .read (·.requestNonces.find? (r.remoteNodeId, r.nonce)) | return
      .exec (.requestNonces <| .delete (r.remoteNodeId, r.nonce))
        fun c => securityError (mapDatabaseError c)

omit [UuidFormat] [Cryptography] [ScanOrder] in
def insertNonce (remoteNodeId : Uuid) (nonce : String) (ttlSeconds : Int) : Transaction Unit := do
  let now ← .read (·.now)
  .exec (.requestNonces <| .insert {
    remoteNodeId, nonce
    expiresAt := now + ttlSeconds * 1000000
  }) fun c => securityError (mapNonceError c)

omit [UuidFormat] [Cryptography] in
def rememberNonce (remoteNodeId : Uuid) (nonce : String) (ttlSeconds : Int) : Transaction Unit := do
  deleteExpiredNonces
  insertNonce remoteNodeId nonce ttlSeconds

-- Only a request that has proved its signature may spend a nonce.
def verifyInboundRequest (settings : FederationSettings) (request : InboundRequest)
    (targetLaboratoryId : Uuid) : Transaction InboundFederationContext := do
  .require settings.enabled (.forbidden federationDisabled)
  let h ← .ofExcept <| parseFederationHeaders request.headers
  let now ← .read fun d => epochSeconds d.now
  .require (isFresh settings.requestTtlSeconds now h.timestamp)
    (.unauthorized "Federation request timestamp is outside the allowed window")
  let context ← authenticate request targetLaboratoryId h
  rememberNonce h.remoteNodeId h.nonce settings.requestTtlSeconds
  return context

end Verify

end Federation

end LabInventory
