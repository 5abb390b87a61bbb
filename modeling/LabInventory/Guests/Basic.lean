import LabInventory.Federation.Security
import LabInventory.Users.Basic

open Sql

namespace LabInventory

namespace Guests

structure GuestRegistrationHasher where
  secret : String

namespace GuestRegistrationHasher

def registrationCodeDomain : String :=
  "lab-inventory:guest-registration-code:v1\x00"

variable [Cryptography] (hasher : GuestRegistrationHasher)

def digest (domain value : String) : String :=
  .ofList <| (Cryptography.hmacSha256 hasher.secret (domain ++ value)).flatMap Federation.hexByte

def hashCode (code : String) : String :=
  hasher.digest registrationCodeDomain code

end GuestRegistrationHasher

namespace GuestRegistrationCode

def parse (value : String) : Except String String :=
  if value.utf8ByteSize = 6 ∧ value.toList.all Char.isDigit then
    .ok value
  else
    .error "Registration code must contain exactly 6 digits."

-- The code for a random number, with leading zeroes.
def generate (value : Fin 1000000) : String :=
  .ofList <| [5, 4, 3, 2, 1, 0].map fun i => Nat.digitChar (value / 10 ^ i % 10)

end GuestRegistrationCode

structure GuestRegistrationJsonData where
  username : String
  password : String
  email : String
  phoneNumber : String
  registrationCode : String
  description : Option String

structure GuestRegistration where
  username : String
  password : String
  email : String
  phoneNumber : String
  registrationCode : String
  description : Option String

def GuestRegistrationJsonData.parse [UnicodeSegmentation] [Credentials]
    (value : GuestRegistrationJsonData) : Except String GuestRegistration := do
  let username ← UserName.parse value.username
  let password ← UserPassword.parse value.password
  let email ← UserEmail.parse value.email
  let phoneNumber ← PhoneNumber.parse value.phoneNumber
  let registrationCode ← GuestRegistrationCode.parse value.registrationCode
  let description ← value.description.mapM UserDescription.parseOptional
  return { username, password, email, phoneNumber, registrationCode, description := description.join }

-- What a failing statement is reported as.
def statementError (_ : Constraint) : ApiError :=
  .unexpected "error returned from database"

def lockLaboratory (laboratoryId : Uuid) : Transaction Bool := do
  let r ← .selectForUpdate (.laboratory laboratoryId) (·.laboratories.find? laboratoryId)
  return r.isSome

section Codes

-- Within a transaction, `now()` is the time of its beginning.
variable (now : Timestamp)

-- An update of the outstanding codes with a given property. A row that has been changed in the
-- meantime is looked at again.
def revokeRegistrationCodes [ScanOrder] (p : GuestRegistrationCodeRow → Bool) : Transaction Unit :=
  .forAll (fun d => d.guestRegistrationCodes.rows.filter fun r => p r && r.IsOutstanding)
    (fun r => .guestRegistrationCode r.registrationCodeId) fun r => do
      let some r ← .read fun d => (d.guestRegistrationCodes.find? r.registrationCodeId).filter
        fun r => p r && r.IsOutstanding | return
      .exec (.guestRegistrationCodes <| .update { r with revokedAt := some now }) statementError

def revokeExpiredRegistrationCode [ScanOrder] (codeHmac : String) : Transaction Unit :=
  revokeRegistrationCodes now fun r => r.codeHmac = codeHmac && r.expiresAt ≤ now

def revokeLaboratoryRegistrationCode [ScanOrder] (laboratoryId : Uuid) : Transaction Unit :=
  revokeRegistrationCodes now fun r => r.laboratoryId = laboratoryId

-- `ON CONFLICT DO NOTHING`
def insertRegistrationCode (registrationCodeId laboratoryId : Uuid) (codeHmac : String)
    (createdByUserId : Uuid) (expiresAt : Timestamp) :
    Transaction (Option GuestRegistrationCodeRow) := do
  let r : GuestRegistrationCodeRow := {
    registrationCodeId, laboratoryId, codeHmac, createdByUserId, expiresAt
    createdAt := now
    consumedAt := none
    revokedAt := none
  }
  .lockRow (.guestRegistrationCodeEntry codeHmac)
  let taken ← .read fun d => (d.guestRegistrationCodes.find? registrationCodeId).isSome ||
    (d.guestRegistrationCodes.clash? r).isSome
  if taken then
    return none
  .exec (.guestRegistrationCodes <| .insert r) statementError
  return some r

-- The issuer has to be able to issue the code still.
def isIssuer (r : GuestRegistrationCodeRow) (issuer : UserRow) : Bool :=
  issuer.laboratoryId = some r.laboratoryId &&
  (issuer.userType = .labAdmin || issuer.userType = .user)

def isCandidate (codeHmac : String) (d : Database) (r : GuestRegistrationCodeRow) : Bool :=
  r.codeHmac = codeHmac && r.IsOutstanding && now < r.expiresAt &&
  (d.users.find? r.createdByUserId).any (isIssuer r)

-- The code and its issuer are locked, and looked at again.
def consumeRegistrationCode (codeHmac : String) : Transaction (Option GuestRegistrationCodeRow) := do
  let some candidate ← .read fun d =>
    d.guestRegistrationCodes.rows.find? (isCandidate now codeHmac d) | return none
  .lockRow (.guestRegistrationCode candidate.registrationCodeId)
  .lockRow (.user candidate.createdByUserId)
  let some code ← .read fun d =>
    (d.guestRegistrationCodes.find? candidate.registrationCodeId).filter fun r =>
      r.createdByUserId = candidate.createdByUserId && isCandidate now codeHmac d r | return none
  .exec (.guestRegistrationCodes <| .update { code with consumedAt := some now }) statementError
  return some code

end Codes

def registrationCodeTtlMinutes : Int := 10

def registrationCodeGenerationAttempts : Nat := 32

section Requests

variable [Cryptography] (hasher : GuestRegistrationHasher) (now : Timestamp)

-- An attempt consists of a random number and an identifier.
def allocateRegistrationCode [ScanOrder] (ctx : LaboratoryContext) (expiresAt : Timestamp) :
    List (Fin 1000000 × Uuid) → Transaction (String × GuestRegistrationCodeRow)
  | [] => .abort (.unexpected "Failed to allocate a unique guest registration code")
  | (value, newId) :: attempts => do
    let code := GuestRegistrationCode.generate value
    let codeHmac := hasher.hashCode code
    revokeExpiredRegistrationCode now codeHmac
    match ← insertRegistrationCode now newId ctx.laboratoryId codeHmac ctx.actor.userId expiresAt with
    | some row => return (code, row)
    | none => allocateRegistrationCode ctx expiresAt attempts

def createGuestRegistrationCode [ScanOrder] (ctx : LaboratoryContext)
    (attempts : List (Fin 1000000 × Uuid)) : Transaction (String × GuestRegistrationCodeRow) := do
  let permitted ← .read (validatePermission · ctx.actor .guestRegistrationCode
    (.create ctx.laboratoryId))
  .require permitted (.forbidden "You don't have permission to create a guest registration code.")
  let found ← lockLaboratory ctx.laboratoryId
  .require found (.validation "Invalid laboratory")
  revokeLaboratoryRegistrationCode now ctx.laboratoryId
  let expiresAt ← .read fun d => d.serverNow + registrationCodeTtlMinutes * 60 * 1000000
  allocateRegistrationCode hasher now ctx expiresAt (attempts.take registrationCodeGenerationAttempts)

def registerGuest [UnicodeSegmentation] [Credentials] (payload : GuestRegistrationJsonData)
    (newUserId : Uuid) (salt : String) : Transaction Unit := do
  let registration ← .validated payload.parse
  let some code ← consumeRegistrationCode now (hasher.hashCode registration.registrationCode) |
    .abort (.validation "Registration code is invalid or expired")
  let newUser ← .validated <| NewUser.new registration.username registration.password .guest
    (some code.laboratoryId) (some registration.email) (some registration.phoneNumber)
    registration.description
  Users.insertUser newUserId newUser (Credentials.hashPassword salt registration.password)

end Requests

end Guests

end LabInventory
