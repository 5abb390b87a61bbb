import LabInventory.AccessControl.Basic

open Sql

namespace LabInventory

-- The actors who are confined to a laboratory.
inductive Actor.ScopedTo (laboratoryId : Uuid) : Actor → Prop
  | user {a : Actor} : ¬a.isSystemAdmin → a.laboratoryId = some laboratoryId → ScopedTo laboratoryId a
  | systemAdmin {ctx : LaboratoryContext} : ctx.actor.isSystemAdmin →
      ctx.laboratoryId = laboratoryId → ScopedTo laboratoryId ctx.authorizationActor

namespace ResourceType

-- The laboratory that a row belongs to. Federation state is addressed by its laboratory, and there
-- are no actions on single registration codes.
def OwnedBy (d : Database) (id laboratoryId : Uuid) : ResourceType → Prop
  | laboratory | federation => id = laboratoryId
  | user => ∃ r ∈ d.users, r.userId = id ∧ r.laboratoryId = some laboratoryId
  | guestRegistrationCode => True
  | unit => ∃ r ∈ d.units, r.unitId = id ∧ r.laboratoryId = laboratoryId
  | location => ∃ r ∈ d.locations, r.id = id ∧ r.laboratoryId = laboratoryId
  | asset => ∃ r ∈ d.assets, r.assetId = id ∧ r.laboratoryId = laboratoryId
  | inventoryItem =>
    ∃ r ∈ d.assetInventoryItems, r.inventoryItemId = id ∧ r.laboratoryId = laboratoryId
  | assetCategory => ∃ r ∈ d.assetCategories, r.id = id ∧ r.laboratoryId = laboratoryId
  | assetParameter =>
    ∃ r ∈ d.assetParameterTypes, r.parameterTypeId = id ∧ r.laboratoryId = laboratoryId
  | attachmentAssignment =>
    ∃ r ∈ d.attachmentAssignments, r.attachmentId = id ∧ r.laboratoryId = laboratoryId
  | fileUpload => ∃ r ∈ d.fileUploads, r.uploadId = id ∧ r.laboratoryId = laboratoryId
  | labelPrinter => ∃ r ∈ d.labelPrinters, r.printerId = id ∧ r.laboratoryId = laboratoryId

end ResourceType

namespace Action

def Concerns (d : Database) (resource : ResourceType) (laboratoryId : Uuid) : Action → Prop
  | create id | browse id | browseInternal id => id = laboratoryId
  | createUser role | deleteUser role => role.laboratoryId = some laboratoryId
  | updateUser target new =>
    target.laboratoryId = some laboratoryId ∨ new.laboratoryId = some laboratoryId
  | assign id | delete id | read id | update id => resource.OwnedBy d id laboratoryId

-- The actions that change something.
def IsWrite : Action → Prop
  | create _ | createUser _ | delete _ | deleteUser _ | update _ | updateUser _ _ => True
  | assign _ | read _ | browse _ | browseInternal _ => False

end Action

namespace Actor

variable {a : Actor} {d : Database} {laboratoryId : Uuid}

-- The actors who have no business in a laboratory.
structure ForeignTo (laboratoryId : Uuid) (a : Actor) : Prop where
  not_isSystemAdmin : a.isSystemAdmin = false
  laboratoryId_ne : a.laboratoryId ≠ some laboratoryId

theorem ScopedTo.foreignTo {otherId} (h : ScopedTo laboratoryId a) (hn : otherId ≠ laboratoryId) :
    ForeignTo otherId a := by
  cases h
  case user hs hl => exact ⟨by simpa using hs, by simpa [hl] using hn.symm⟩
  case systemAdmin hs hl =>
    simp only [LaboratoryContext.authorizationActor, hs, if_true]
    exact ⟨rfl, by simpa [hl] using hn.symm⟩

namespace ForeignTo

theorem isRoot (h : ForeignTo laboratoryId a) : a.isRoot = false := by
  have := h.not_isSystemAdmin
  simp_all [isSystemAdmin, Actor.isRoot]

theorem isSuperAdmin (h : ForeignTo laboratoryId a) : a.isSuperAdmin = false := by
  have := h.not_isSystemAdmin
  simp_all [isSystemAdmin, Actor.isSuperAdmin]

theorem canWriteLaboratoryResource (h : ForeignTo laboratoryId a) :
    a.canWriteLaboratoryResource laboratoryId = false := by
  simp [Actor.canWriteLaboratoryResource, h.not_isSystemAdmin, h.laboratoryId_ne]

theorem canBrowseLaboratoryResource (h : ForeignTo laboratoryId a) :
    a.canBrowseLaboratoryResource laboratoryId = false := by
  simp [Actor.canBrowseLaboratoryResource, h.not_isSystemAdmin, h.laboratoryId_ne]

theorem canBrowseLaboratoryInternalResource (h : ForeignTo laboratoryId a) :
    a.canBrowseLaboratoryInternalResource laboratoryId = false := by
  simp [Actor.canBrowseLaboratoryInternalResource, h.not_isSystemAdmin, h.laboratoryId_ne]

theorem canReadLaboratoryResource (h : ForeignTo laboratoryId a) :
    a.canReadLaboratoryResource laboratoryId = false := by
  simp [Actor.canReadLaboratoryResource, h.isRoot, h.isSuperAdmin, h.laboratoryId_ne]

theorem canQueryLaboratoryResource (h : ForeignTo laboratoryId a) :
    a.canQueryLaboratoryResource laboratoryId = false :=
  h.canReadLaboratoryResource

theorem canManageUnits (h : ForeignTo laboratoryId a) : a.canManageUnits laboratoryId = false := by
  simp [Actor.canManageUnits, h.not_isSystemAdmin, h.laboratoryId_ne]

theorem canManageRowOf (h : ForeignTo laboratoryId a) : a.canManageRowOf laboratoryId = false := by
  simp [Actor.canManageRowOf, h.not_isSystemAdmin, h.laboratoryId_ne]

theorem canManageFederation (h : ForeignTo laboratoryId a) :
    a.canManageFederation laboratoryId = false := by
  simp [Actor.canManageFederation, h.laboratoryId_ne]

theorem canReadFederation (h : ForeignTo laboratoryId a) :
    a.canReadFederation laboratoryId = false := by
  simp [Actor.canReadFederation, h.laboratoryId_ne]

theorem canManageLabelPrinters (h : ForeignTo laboratoryId a) :
    a.canManageLabelPrinters laboratoryId = false := by
  simp [Actor.canManageLabelPrinters, h.not_isSystemAdmin, h.laboratoryId_ne]

theorem canUseLabelPrinters (h : ForeignTo laboratoryId a) :
    a.canUseLabelPrinters laboratoryId = false :=
  h.canBrowseLaboratoryInternalResource

theorem canCreateGuestRegistrationCode (h : ForeignTo laboratoryId a) :
    a.canCreateGuestRegistrationCode laboratoryId = false := by
  simp [Actor.canCreateGuestRegistrationCode, h.laboratoryId_ne]

-- Only laboratory admins manage other users without being system admins.
theorem canManageUser {role} (h : ForeignTo laboratoryId a)
    (hr : role.laboratoryId = some laboratoryId) : a.canManageUser role = false := by
  unfold Actor.canManageUser
  simp [hr, h.isRoot, h.isSuperAdmin, h.laboratoryId_ne]

-- The exception for the own row is why it has to be excluded here.
theorem canViewUser (h : ForeignTo laboratoryId a) {r} (hr : r ∈ d.users)
    (hl : r.laboratoryId = some laboratoryId) (hn : r.userId ≠ a.userId) :
    a.canViewUser d r.userId = false := by
  have hf : d.users.find? r.userId = some r := Table.find?_key hr
  simp only [Actor.canViewUser, getActor, hf, Option.map_some, hn.symm, h.isRoot, h.isSuperAdmin,
    hl, h.laboratoryId_ne, Bool.false_eq_true, decide_false, if_false, ite_self]
  split_ifs <;> try rfl
  split
  case h_1 labId hs =>
    have : laboratoryId ≠ labId := fun he => h.laboratoryId_ne (he ▸ hs)
    simp [this]
  case h_2 => rfl

end ForeignTo

end Actor

namespace Actor

variable {a : Actor} {d : Database} {laboratoryId id : Uuid} {resource : ResourceType}

-- The actions which are answered from the laboratory that they name.
theorem ForeignTo.laboratoryAction (h : ForeignTo laboratoryId a) (hr : resource ≠ .fileUpload) :
    validatePermission d a resource (.create laboratoryId) = false ∧
    validatePermission d a resource (.browseInternal laboratoryId) = false ∧
    (resource ≠ .laboratory → validatePermission d a resource (.browse laboratoryId) = false) := by
  cases resource <;>
    simp [validatePermission, h.not_isSystemAdmin, h.canWriteLaboratoryResource, h.canManageUnits,
      h.canBrowseLaboratoryResource, h.canBrowseLaboratoryInternalResource,
      h.canReadLaboratoryResource, h.canQueryLaboratoryResource, h.canManageFederation,
      h.canReadFederation, h.canManageLabelPrinters, h.canUseLabelPrinters,
      h.canCreateGuestRegistrationCode] at hr ⊢

-- The actions which are answered from the roles that they name.
theorem ForeignTo.roleAction {role} (h : ForeignTo laboratoryId a)
    (hr : role.laboratoryId = some laboratoryId) (other : UserRole) :
    validatePermission d a resource (.createUser role) = false ∧
    validatePermission d a resource (.deleteUser role) = false ∧
    validatePermission d a resource (.updateUser role other) = false ∧
    validatePermission d a resource (.updateUser other role) = false := by
  cases resource <;> simp [validatePermission, h.canManageUser hr]

-- The actions which are answered from the row that they name.
theorem ForeignTo.rowAction (h : ForeignTo laboratoryId a) (hr : resource ≠ .fileUpload)
    (ho : resource.OwnedBy d id laboratoryId) :
    validatePermission d a resource (.assign id) = false ∧
    validatePermission d a resource (.delete id) = false ∧
    validatePermission d a resource (.update id) = false ∧
    (¬(resource = .user ∧ id = a.userId) → validatePermission d a resource (.read id) = false) := by
  cases resource
  case fileUpload => contradiction
  case laboratory =>
    obtain rfl : id = laboratoryId := ho
    simp [validatePermission, h.not_isSystemAdmin, h.laboratoryId_ne]
  case federation =>
    obtain rfl : id = laboratoryId := ho
    simp [validatePermission, h.canManageFederation]
  case guestRegistrationCode => simp [validatePermission]
  case user =>
    obtain ⟨r, hm, rfl, hl⟩ := ho
    exact ⟨rfl, rfl, rfl, fun hn => h.canViewUser hm hl (by simpa using hn)⟩
  case unit =>
    obtain ⟨r, hm, rfl, rfl⟩ := ho
    have hf : d.units.find? r.unitId = some r := Table.find?_key hm
    simp [validatePermission, canManageUnit, canViewUnit, hf, h.canManageUnits,
      h.not_isSystemAdmin, h.laboratoryId_ne]
  case labelPrinter =>
    obtain ⟨r, hm, rfl, rfl⟩ := ho
    have hf : d.labelPrinters.find? r.printerId = some r := Table.find?_key hm
    simp [validatePermission, canManageLabelPrinter, canUseLabelPrinter, hf,
      h.canManageLabelPrinters, h.canUseLabelPrinters]
  case location =>
    obtain ⟨r, hm, rfl, rfl⟩ := ho
    have hf : d.locations.find? r.id = some r := Table.find?_key hm
    simp [validatePermission, canManageLocation, canViewLocation, hf, h.canManageRowOf,
      h.canQueryLaboratoryResource]
  case asset =>
    obtain ⟨r, hm, rfl, rfl⟩ := ho
    have hf : d.assets.find? r.assetId = some r := Table.find?_key hm
    simp [validatePermission, canManageAsset, canViewAsset, hf, h.canManageRowOf,
      h.canQueryLaboratoryResource]
  case inventoryItem =>
    obtain ⟨r, hm, rfl, rfl⟩ := ho
    have hf : d.assetInventoryItems.find? r.inventoryItemId = some r := Table.find?_key hm
    simp [validatePermission, canManageInventoryItem, canViewInventoryItem, hf,
      h.canWriteLaboratoryResource, h.canQueryLaboratoryResource]
  case assetCategory =>
    obtain ⟨r, hm, rfl, rfl⟩ := ho
    have hf : d.assetCategories.find? r.id = some r := Table.find?_key hm
    simp [validatePermission, canManageAssetCategory, canViewAssetCategory, hf, h.canManageRowOf,
      h.canQueryLaboratoryResource]
  case assetParameter =>
    obtain ⟨r, hm, rfl, rfl⟩ := ho
    have hf : d.assetParameterTypes.find? r.parameterTypeId = some r := Table.find?_key hm
    simp [validatePermission, canManageAssetParameter, canViewAssetParameter, hf, h.canManageRowOf,
      h.canQueryLaboratoryResource]
  case attachmentAssignment =>
    obtain ⟨r, hm, rfl, rfl⟩ := ho
    have hf : d.attachmentAssignments.find? r.attachmentId = some r := Table.find?_key hm
    simp [validatePermission, canManageAttachmentAssignment, canViewAttachmentAssignment, hf,
      h.not_isSystemAdmin, h.laboratoryId_ne]

theorem ForeignTo.validatePermission_eq_false {action} (h : ForeignTo laboratoryId a)
    (hr : resource ≠ .fileUpload) (hc : action.Concerns d resource laboratoryId)
    (hb : ∀ id, ¬(resource = .laboratory ∧ action = .browse id))
    (hu : ¬(resource = .user ∧ action = .read a.userId)) :
    validatePermission d a resource action = false := by
  cases action
  case create => exact hc ▸ (h.laboratoryAction hr).left
  case browseInternal => exact hc ▸ (h.laboratoryAction hr).right.left
  case browse => exact hc ▸ (h.laboratoryAction hr).right.right fun he => hb _ ⟨he, rfl⟩
  case createUser role => exact (h.roleAction hc role).left
  case deleteUser role => exact (h.roleAction hc role).right.left
  case updateUser target new =>
    rcases hc with hc | hc
    case inl => exact (h.roleAction hc new).right.right.left
    case inr => exact (h.roleAction hc target).right.right.right
  case assign => exact (h.rowAction hr hc).left
  case delete => exact (h.rowAction hr hc).right.left
  case update => exact (h.rowAction hr hc).right.right.left
  case read =>
    exact (h.rowAction hr hc).right.right.right fun ⟨hs, he⟩ => hu ⟨hs, by rw [he]⟩

section Guest

-- What distinguishes guests from all other actors.
structure GuestLike (a : Actor) : Prop where
  isGuest : a.isGuest = true
  isSystemAdmin : a.isSystemAdmin = false
  isAdmin : a.isAdmin = false
  isLabAdmin : a.isLabAdmin = false
  isRegularUser : a.isRegularUser = false

theorem guestLike (h : a.isGuest) : a.GuestLike := by
  have hg : a.userType = .guest := by simpa [isGuest] using h
  constructor <;> simp [isGuest, isSystemAdmin, isAdmin, isLabAdmin, isRegularUser, hg]

namespace GuestLike

theorem canManageUser (h : a.GuestLike) {role} : a.canManageUser role = false := by
  unfold Actor.canManageUser
  simp [h.isAdmin]

theorem create (h : a.GuestLike) : validatePermission d a resource (.create id) = false := by
  cases resource <;>
    simp [validatePermission, canWriteLaboratoryResource, canManageUnits, canManageFederation,
      canManageLabelPrinters, canCreateGuestRegistrationCode, h.isGuest, h.isSystemAdmin,
      h.isLabAdmin, h.isRegularUser]

theorem delete (h : a.GuestLike) (hr : resource ≠ .fileUpload) :
    validatePermission d a resource (.delete id) = false := by
  cases resource <;>
    simp [validatePermission, canWriteLaboratoryResource, canManageUnits, canManageUnit,
      canManageLocation, canManageAsset, canManageAssetCategory, canManageInventoryItem,
      canManageRowOf, canManageAssetParameter, canManageAttachmentAssignment, canManageFederation,
      canManageLabelPrinter, canManageLabelPrinters, h.isGuest, h.isSystemAdmin,
      h.isLabAdmin] at hr ⊢

theorem update (h : a.GuestLike) : validatePermission d a resource (.update id) = false := by
  cases resource <;>
    simp [validatePermission, canWriteLaboratoryResource, canManageUnits, canManageUnit,
      canManageLocation, canManageAsset, canManageAssetCategory, canManageInventoryItem,
      canManageRowOf, canManageAssetParameter, canManageAttachmentAssignment, canManageFederation,
      canManageLabelPrinter, canManageLabelPrinters, h.isGuest, h.isSystemAdmin, h.isLabAdmin]

-- Guests only get to delete the uploads that are their own, and those that do not exist.
theorem deleteFileUpload (h : a.GuestLike) {r} (hr : r ∈ d.fileUploads)
    (hn : ¬(r.uploadedByUserId = a.userId ∧ a.laboratoryId = some r.laboratoryId)) :
    validatePermission d a .fileUpload (.delete r.uploadId) = false := by
  have hf : d.fileUploads.find? r.uploadId = some r := Table.find?_key hr
  simp only [validatePermission, canManageFileUpload, hf, Option.all_some, ownsFileUpload,
    h.isSystemAdmin]
  have : ¬(a.laboratoryId = some r.laboratoryId ∧ a.userId = r.uploadedByUserId) :=
    fun ⟨hl, hu⟩ => hn ⟨hu.symm, hl⟩
  simpa using this

end GuestLike

theorem validatePermission_guest {action} (h : a.isGuest) (hw : action.IsWrite)
    (hf : ∀ id, resource = .fileUpload → action = .delete id →
      ∃ r ∈ d.fileUploads, r.uploadId = id ∧
        ¬(r.uploadedByUserId = a.userId ∧ a.laboratoryId = some r.laboratoryId)) :
    validatePermission d a resource action = false := by
  have h := guestLike h
  cases action
  case create => exact h.create
  case update => exact h.update
  case createUser | deleteUser | updateUser =>
    cases resource <;> simp [validatePermission, h.canManageUser]
  case delete id =>
    by_cases hr : resource = .fileUpload
    case pos =>
      obtain ⟨r, hm, rfl, hn⟩ := hf id hr rfl
      exact hr ▸ h.deleteFileUpload hm hn
    case neg => exact h.delete hr
  case assign | read | browse | browseInternal => exact hw.elim

theorem canViewAttachmentAssignment_guest {r} (h : a.isGuest) (hr : r ∈ d.attachmentAssignments)
    (hp : ¬r.isPublic) : a.canViewAttachmentAssignment d r.attachmentId = false := by
  have hs := (guestLike h).isSystemAdmin
  have hf : d.attachmentAssignments.find? r.attachmentId = some r := Table.find?_key hr
  unfold canViewAttachmentAssignment
  simp [hf, hs, h, hp]

end Guest

end Actor

-- A laboratory's rows are out of reach for the actors of all others, except for an actor's own user.
theorem laboratory_isolation (d : Database) (a : Actor) (resource : ResourceType)
    (action : Action) :
    (∀ laboratoryId otherId, a.ScopedTo laboratoryId → otherId ≠ laboratoryId →
      resource ≠ .fileUpload → action.Concerns d resource otherId →
      (∀ id, ¬(resource = .laboratory ∧ action = .browse id)) →
      ¬(resource = .user ∧ action = .read a.userId) →
      validatePermission d a resource action = false) ∧
    (a.isGuest → action.IsWrite →
      (∀ id, resource = .fileUpload → action = .delete id →
        ∃ r ∈ d.fileUploads, r.uploadId = id ∧
          ¬(r.uploadedByUserId = a.userId ∧ a.laboratoryId = some r.laboratoryId)) →
      validatePermission d a resource action = false) ∧
    (a.isGuest → ∀ r ∈ d.attachmentAssignments, ¬r.isPublic →
      validatePermission d a .attachmentAssignment (.read r.attachmentId) = false) :=
  ⟨fun _ _ hs hn hr hc hb hu => (hs.foreignTo hn).validatePermission_eq_false hr hc hb hu,
    Actor.validatePermission_guest, fun h _ => Actor.canViewAttachmentAssignment_guest h⟩

-- A super admin who is registered with laboratory 2, and works on laboratory 1.
def visitingSuperAdmin : LaboratoryContext where
  actor := { userId := 7, userType := .superAdmin, laboratoryId := some 2 }
  laboratoryId := 1

-- A guest of laboratory 1.
def visitingGuest : Actor where
  userId := 3
  userType := .guest
  laboratoryId := some 1

def internalAttachment : AttachmentAssignmentRow where
  attachmentId := 5
  laboratoryId := 1
  fileId := 6
  assetId := some 3
  inventoryItemId := none
  isPublic := false

def visitedDatabase : Database where
  __ := Database.empty
  users := {{
    userId := 7, username := "admin", passwordHash := "", userType := .superAdmin
    laboratoryId := some 2, email := none, phoneNumber := none, description := none
  }}
  labelPrinters := {{ printerId := 4, laboratoryId := 2, name := "printer" }}
  attachmentAssignments := {internalAttachment}

theorem laboratory_isolation_visited :
    validatePermission visitedDatabase visitingSuperAdmin.authorizationActor .labelPrinter
      (.update 4) = false ∧
    validatePermission visitedDatabase visitingGuest .location (.create 1) = false ∧
    validatePermission visitedDatabase visitingGuest .attachmentAssignment (.read 5) = false :=
  ⟨(laboratory_isolation _ _ _ _).left 1 2 (.systemAdmin rfl rfl) (by decide) (by decide)
      ⟨_, List.mem_singleton_self _, rfl, rfl⟩ (by simp) (by simp),
    (laboratory_isolation _ _ _ _).right.left rfl trivial (by simp),
    (laboratory_isolation _ visitingGuest .user (.read 0)).right.right rfl internalAttachment
      (List.mem_singleton_self _) Bool.false_ne_true⟩

-- Actors can see their own user wherever it is registered, and guests can delete missing uploads.
theorem isolation_exceptions :
    (¬∀ (d : Database) (a : Actor) (laboratoryId otherId : Uuid) (resource : ResourceType)
        (action : Action), a.ScopedTo laboratoryId → otherId ≠ laboratoryId →
        resource ≠ .fileUpload → action.Concerns d resource otherId →
        (∀ id, ¬(resource = .laboratory ∧ action = .browse id)) →
        validatePermission d a resource action = false) ∧
    (¬∀ (d : Database) (a : Actor) (resource : ResourceType) (action : Action), a.isGuest →
        action.IsWrite → validatePermission d a resource action = false) :=
  ⟨fun h => absurd (h visitedDatabase visitingSuperAdmin.authorizationActor 1 2 .user (.read 7)
      (.systemAdmin rfl rfl) (by decide) (by decide) ⟨_, List.mem_singleton_self _, rfl, rfl⟩
      (by simp)) (by decide),
    fun h => absurd (h visitedDatabase visitingGuest .fileUpload (.delete 9) rfl trivial)
      (by decide)⟩

end LabInventory
