import LabInventory.Domain.Text

namespace LabInventory

open Text

inductive UserType
  | root
  | superAdmin
  | labAdmin
  | user
  | guest
deriving DecidableEq

namespace UserType

def toStr : UserType → String
  | root => "root"
  | superAdmin => "super_admin"
  | labAdmin => "lab_admin"
  | user => "user"
  | guest => "guest"

def parse (s : String) : Except String UserType :=
  match s with
  | "root" => .ok root
  | "super_admin" => .ok superAdmin
  | "lab_admin" => .ok labAdmin
  | "user" => .ok user
  | "guest" => .ok guest
  | _ => .error s!"{s} is not a valid user type."

theorem parse_toStr (t : UserType) : parse t.toStr = .ok t := by
  cases t <;> rfl

-- The users who work across laboratories.
def ServerScoped (t : UserType) : Prop :=
  t = superAdmin ∨ t = root

instance : DecidablePred ServerScoped :=
  fun _ => inferInstanceAs (Decidable (_ ∨ _))

end UserType

structure UserRole where
  userType : UserType
  laboratoryId : Option Uuid
deriving DecidableEq

-- Only server-scoped users can do without a laboratory.
def requireLaboratory (userType : UserType) (laboratoryId : Option Uuid) : Except String Unit :=
  if ¬userType.ServerScoped ∧ laboratoryId.isNone then
    .error s!"Laboratory ID is required for {userType.toStr}."
  else
    .ok ()

-- The functions of the crates that check e-mail addresses and hash passwords.
class Credentials where
  validateEmail : String → Bool
  hashPassword : (salt password : String) → String

def UserName.forbiddenCharacters : List Char :=
  ['/', '(', ')', '"', '<', '>', '\\', '\x7b', '\x7d']

def UserName.parse [UnicodeSegmentation] (s : String) : Except String String :=
  let isEmptyOrWhitespace := trim s = ""
  let isTooLong := UnicodeSegmentation.graphemes s > 256
  let containsForbiddenCharacters := s.toList.any forbiddenCharacters.contains
  if isEmptyOrWhitespace ∨ isTooLong ∨ containsForbiddenCharacters then
    .error s!"{s} is not a valid subscriber name."
  else
    .ok s

def UserPassword.parse (s : String) : Except String String :=
  if (trim s).utf8ByteSize ≥ 8 then
    .ok s
  else
    .error "Password must be at least 8 characters long."

def UserEmail.parse [Credentials] (s : String) : Except String String :=
  if Credentials.validateEmail s then
    .ok s
  else
    .error s!"{s} is not a valid subscriber email."

def PhoneNumber.parse (s : String) : Except String String :=
  if s.utf8ByteSize = 11 ∧ s.toList.all (·.isDigit) then
    .ok s
  else
    .error s!"{s} is not a valid phone number."

def UserDescription.parse [UnicodeSegmentation] (s : String) : Except String String :=
  if trim s = "" then
    .error "user description cannot be empty"
  else if UnicodeSegmentation.graphemes (trim s) > 500 then
    .error "user description is too long"
  else
    .ok (trim s)

def UserDescription.parseOptional [UnicodeSegmentation] (s : String) :
    Except String (Option String) :=
  if trim s = "" then .ok none else some <$> UserDescription.parse s

structure NewUser where
  username : String
  password : String
  userType : UserType
  laboratoryId : Option Uuid
  email : Option String
  phoneNumber : Option String
  description : Option String

namespace NewUser

def new (username password : String) (userType : UserType) (laboratoryId : Option Uuid)
    (email phoneNumber description : Option String) : Except String NewUser := do
  requireLaboratory userType laboratoryId
  return { username, password, userType, laboratoryId, email, phoneNumber, description }

end NewUser

structure UpdateUser where
  username : Option String
  userType : UserType
  userTypeChanged : Bool
  laboratoryId : Option Uuid
  laboratoryIdChanged : Bool
  email : NullableUpdate String
  phoneNumber : NullableUpdate String
  description : NullableUpdate String

namespace UpdateUser

def new (username : Option String) (userType : Option UserType) (laboratoryId : NullableUpdate Uuid)
    (email phoneNumber description : NullableUpdate String) (currentUserType : UserType)
    (currentLaboratoryId : Option Uuid) : Except String UpdateUser := do
  let userTypeChanged := userType.isSome
  let laboratoryIdChanged := laboratoryId ≠ .unchanged
  let userType := userType.getD currentUserType
  let laboratoryId := laboratoryId.resolve currentLaboratoryId
  requireLaboratory userType laboratoryId
  return {
    username, userType, userTypeChanged, laboratoryId, laboratoryIdChanged
    email, phoneNumber, description
  }

end UpdateUser

end LabInventory
