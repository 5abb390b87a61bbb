import LabInventory.AccessControl.Basic

open Sql

namespace LabInventory

def UserRow.role (r : UserRow) : UserRole where
  userType := r.userType
  laboratoryId := r.laboratoryId

namespace Users

structure CreateUserJsonData where
  username : String
  password : String
  userType : String
  laboratoryId : Option Uuid
  email : Option String
  phoneNumber : Option String
  description : Option String

def CreateUserJsonData.toNewUser [UnicodeSegmentation] [Credentials] (value : CreateUserJsonData) :
    Except String NewUser := do
  let username ← UserName.parse value.username
  let password ← UserPassword.parse value.password
  let userType ← UserType.parse value.userType
  let email ← value.email.mapM UserEmail.parse
  let phoneNumber ← value.phoneNumber.mapM PhoneNumber.parse
  let description ← value.description.mapM UserDescription.parseOptional
  NewUser.new username password userType value.laboratoryId email phoneNumber description.join

structure UpdateUserJsonData where
  username : Option String
  userType : Option String
  laboratoryId : Option (Option Uuid)
  email : Option (Option String)
  phoneNumber : Option (Option String)
  description : Option (Option String)

namespace UpdateUserJsonData

def updatesRoleOrLaboratory (payload : UpdateUserJsonData) : Bool :=
  payload.userType.isSome || payload.laboratoryId.isSome

def intoUpdateUser [UnicodeSegmentation] [Credentials] (payload : UpdateUserJsonData)
    (currentUserType : UserType) (currentLaboratoryId : Option Uuid) :
    Except String UpdateUser := do
  let username ← payload.username.mapM UserName.parse
  let userType ← payload.userType.mapM UserType.parse
  let laboratoryId := .ofOption payload.laboratoryId
  let email ← NullableUpdate.parse payload.email UserEmail.parse
  let phoneNumber ← NullableUpdate.parse payload.phoneNumber PhoneNumber.parse
  -- A blank description clears the stored one.
  let description := match payload.description with
    | some (some text) => if Text.trim text = "" then some none else some (some text)
    | other => other
  let description ← NullableUpdate.parse description UserDescription.parse
  UpdateUser.new username userType laboratoryId email phoneNumber description currentUserType
    currentLaboratoryId

end UpdateUserJsonData

def mapDatabaseError (c : Constraint) : ApiError :=
  match c with
  | .usersUsernameKey => .conflict "Username already exists"
  | .usersEmailKey => .conflict "Email already exists"
  | .usersPhoneNumberKey => .conflict "Phone number already exists"
  | .usersLaboratoryIdFkey => .validation "Invalid laboratory"
  | c =>
    if c.isForeignKey then
      .validation "Invalid referenced record"
    else
      .conflict "User already exists"

def mapDeleteError (c : Constraint) : ApiError :=
  if c.isForeignKey then .conflict "User is referenced by other records" else mapDatabaseError c

-- The laboratory of a user is taken from a left join with `laboratories`.
def fetchUser (userId : Uuid) (d : Database) : Option UserRow := do
  let r ← d.users.find? userId
  return { r with laboratoryId := r.laboratoryId.filter fun l => (d.laboratories.find? l).isSome }

def insertUser (newUserId : Uuid) (newUser : NewUser) (passwordHash : String) : Transaction Unit :=
  .exec (.users <| .insert {
    userId := newUserId
    username := newUser.username
    passwordHash
    userType := newUser.userType
    laboratoryId := newUser.laboratoryId
    email := newUser.email
    phoneNumber := newUser.phoneNumber
    description := newUser.description
  }) mapDatabaseError

def updateUserInDatabase (userId : Uuid) (username : Option String) (userType : UserType)
    (laboratoryId : Option Uuid) (email phoneNumber description : Option String) :
    Transaction Unit := do
  .lockRow (.user userId)
  let r ← .fetch (·.users.find? userId) rowNotFound
  .exec (.users <| .update { r with
    username := username.getD r.username
    userType, laboratoryId, email, phoneNumber, description
  }) mapDatabaseError

def deleteUserFromDatabase (userId : Uuid) : Transaction Unit := do
  let r ← .fetch (·.users.find? userId) rowNotFound
  .exec (.users <| .delete r.userId) mapDeleteError

def createUser [UnicodeSegmentation] [Credentials] (actor : Actor) (payload : CreateUserJsonData)
    (newUserId : Uuid) (salt : String) : Transaction Unit := do
  let newUser ← .validated payload.toNewUser
  let newUserRole : UserRole := ⟨newUser.userType, newUser.laboratoryId⟩
  let permitted ← .read (validatePermission · actor .user (.createUser newUserRole))
  .require permitted (.forbidden "You don't have permission to create this user.")
  insertUser newUserId newUser (Credentials.hashPassword salt newUser.password)

def updateUser [UnicodeSegmentation] [Credentials] (actor : Actor) (targetUserId : Uuid)
    (payload : UpdateUserJsonData) : Transaction Unit := do
  let target ← .fetch (fetchUser targetUserId) (.unexpected "User not found")
  .require (¬(actor.userId = target.userId ∧ payload.updatesRoleOrLaboratory))
    (.validation "Users cannot change their own role or laboratory")
  let update ← .validated <| payload.intoUpdateUser target.userType target.laboratoryId
  let updateRole : UserRole := ⟨update.userType, update.laboratoryId⟩
  let permitted ← .read (validatePermission · actor .user (.updateUser target.role updateRole))
  .require (actor.userId = target.userId ∨ permitted)
    (.forbidden "You don't have permission to update this user.")
  updateUserInDatabase target.userId update.username update.userType update.laboratoryId
    (update.email.resolve target.email) (update.phoneNumber.resolve target.phoneNumber)
    (update.description.resolve target.description)

def deleteUser (actor : Actor) (targetUserId : Uuid) : Transaction Unit := do
  let target ← .fetch (fetchUser targetUserId) (.unexpected "User not found")
  .require (actor.userId ≠ target.userId) (.validation "Users cannot delete themselves")
  let permitted ← .read (validatePermission · actor .user (.deleteUser target.role))
  .require permitted (.forbidden "You don't have permission to delete this user.")
  deleteUserFromDatabase target.userId

-- The requests of user management, with the values that are generated while processing them.
inductive Request
  | create (payload : CreateUserJsonData) (newUserId : Uuid) (salt : String)
  | update (targetUserId : Uuid) (payload : UpdateUserJsonData)
  | delete (targetUserId : Uuid)

namespace Request

def target : Request → Uuid
  | create _ newUserId _ => newUserId
  | update targetUserId _ | delete targetUserId => targetUserId

def handle [UnicodeSegmentation] [Credentials] (actor : Actor) : Request → Transaction Unit
  | create payload newUserId salt => createUser actor payload newUserId salt
  | update targetUserId payload => updateUser actor targetUserId payload
  | delete targetUserId => deleteUser actor targetUserId

-- The actor is looked up anew for each request of a session.
def process [UnicodeSegmentation] [Credentials] (userId : Uuid) (request : Request) :
    Transaction Unit := do
  let actor ← .fetch (getActor · userId) (.unauthorized "Authentication required")
  request.handle actor

end Request

end Users

end LabInventory
