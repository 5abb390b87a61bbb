import Mathlib.Data.List.Sort
import LabInventory.AccessControl.Basic

open Sql

namespace LabInventory

namespace Trees

variable (kind : TreeKind)

def mapDatabaseError (c : Constraint) : ApiError :=
  if c = .treeSiblingName kind then
    .conflict s!"{kind.title} name already exists under this parent"
  else if c = .treeSiblingCode kind then
    .conflict s!"{kind.title} code already exists under this parent"
  else if c = .treePath kind then
    .conflict s!"{kind.title} path already exists"
  else if c.isForeignKey then
    .validation "Invalid laboratory"
  else
    .conflict s!"{kind.title} already exists"

def invalidReference : ApiError :=
  .validation "Invalid laboratory"

def stillReferenced : ApiError :=
  .conflict s!"{kind.title} is referenced by other records"

def invalidLtree : ApiError :=
  .unexpected "ltree syntax error"

def invalidSubpath : ApiError :=
  .unexpected "invalid positions"

def buildPathAndDepth (parent : Option (TreeRow kind)) (code : TreeCode) : String × Int :=
  match parent with
  | some parent => (parent.path.text ++ "." ++ code.val, parent.depth + 1)
  | none => (code.val, 0)

def pathIsSelfOrDescendant (candidatePath rootPath : String) : Bool :=
  candidatePath = rootPath ||
  (Text.stripPrefix candidatePath rootPath).any (·.toList.head? = some '.')

def fetchForUpdate (id : Uuid) : Transaction (Option (TreeRow kind)) :=
  .selectForUpdate (.tree kind id) fun d => (d.tree kind).find? id

def resolveNewParent (laboratoryId : Uuid) (parentId : Option Uuid) :
    Transaction (Option (TreeRow kind)) := do
  let some parentId := parentId | return none
  let some parent ← fetchForUpdate kind parentId |
    .abort (.validation s!"Parent {kind.parentNoun} not found")
  .require (parent.laboratoryId = laboratoryId)
    (.validation s!"Parent {kind.parentNoun} does not belong to this laboratory")
  return some parent

def resolveMovedParent (existing : TreeRow kind) (parentId : Option Uuid) :
    Transaction (Option (TreeRow kind)) := do
  let some parentId := parentId | return none
  .require (parentId ≠ existing.id) (.validation s!"{kind.title} cannot be moved under itself")
  let some parent ← fetchForUpdate kind parentId |
    .abort (.validation s!"Parent {kind.parentNoun} not found")
  .require (parent.laboratoryId = existing.laboratoryId)
    (.validation s!"Parent {kind.parentNoun} does not belong to this laboratory")
  .require (¬pathIsSelfOrDescendant parent.path.text existing.path.text)
    (.validation s!"{kind.title} cannot be moved under one of its descendants")
  return some parent

-- The foreign keys to the laboratory and to the parent.
def referencesExist (r : TreeRow kind) (d : Database) : Bool :=
  (d.laboratories.find? r.laboratoryId).isSome &&
  r.parentId.all fun p => ((d.tree kind).find? p).isSome

def insertNode (id laboratoryId : Uuid) (parentId : Option Uuid) (name : String) (code : TreeCode)
    (path : String) (depth : Int) (description : Option String) : Transaction (TreeRow kind) := do
  let path ← .fetch (fun _ => Ltree.ofText? path) invalidLtree
  let r := { id, laboratoryId, parentId, name, code, path, depth, description }
  .exec (.tree kind <| .insert r) (mapDatabaseError kind)
  let valid ← .read (referencesExist kind r)
  .require valid invalidReference
  return r

def updateInDatabase (id : Uuid) (parentId : Option Uuid) (name : String) (code : TreeCode)
    (path : String) (depth : Int) (description : Option String) : Transaction (TreeRow kind) := do
  let path ← .fetch (fun _ => Ltree.ofText? path) invalidLtree
  let some current ← fetchForUpdate kind id | .abort rowNotFound
  let r := { current with parentId, name, code, path, depth, description }
  .exec (.tree kind <| .update r) (mapDatabaseError kind)
  let valid ← .read (referencesExist kind r)
  .require valid invalidReference
  return r

-- The rows that `update_descendant_paths` applies to.
def IsBelow (laboratoryId id : Uuid) (oldPath : Ltree) (r : TreeRow kind) : Prop :=
  r.laboratoryId = laboratoryId ∧ r.path.IsSelfOrDescendant oldPath ∧ r.id ≠ id

instance {laboratoryId id oldPath} : DecidablePred (IsBelow kind laboratoryId id oldPath) :=
  fun _ => inferInstanceAs (Decidable (_ ∧ _))

-- Each row is checked again once it is locked.
def updateDescendantPath (laboratoryId id : Uuid) (oldPath newPath : Ltree) (r : TreeRow kind) :
    Transaction Unit := do
  let current ← .read fun d => (d.tree kind).find? r.id
  match current.filter (IsBelow kind laboratoryId id oldPath) with
  | none => return
  | some current =>
    let suffix ← .fetch (fun _ => current.path.subpath? oldPath.nlevel) invalidSubpath
    let path := newPath ++ suffix
    .exec (.tree kind <| .update { current with path, depth := path.nlevel - 1 })
      (mapDatabaseError kind)

def updateDescendantPaths [ScanOrder] (laboratoryId id : Uuid) (oldPath newPath : Ltree) :
    Transaction Unit :=
  .forAll (fun d => (d.tree kind).rows.filter (IsBelow kind laboratoryId id oldPath))
    (fun r => .tree kind r.id) (updateDescendantPath kind laboratoryId id oldPath newPath)

def moveNode [ScanOrder] (existing : TreeRow kind) (parentId : Option Uuid) (name : String)
    (code : TreeCode) (path : String) (depth : Int) (description : Option String) :
    Transaction (TreeRow kind) := do
  let updated ← updateInDatabase kind existing.id parentId name code path depth description
  if updated.path ≠ existing.path ∨ updated.depth ≠ existing.depth then
    updateDescendantPaths kind existing.laboratoryId existing.id existing.path updated.path
  return updated

-- The rows in the subtree of a path, including its root.
def InSubtree (laboratoryId : Uuid) (rootPath : Ltree) (r : TreeRow kind) : Prop :=
  r.laboratoryId = laboratoryId ∧ r.path.IsSelfOrDescendant rootPath

instance {laboratoryId rootPath} : DecidablePred (InSubtree kind laboratoryId rootPath) :=
  fun _ => inferInstanceAs (Decidable (_ ∧ _))

def subtree (laboratoryId : Uuid) (rootPath : Ltree) (d : Database) : List (TreeRow kind) :=
  (d.tree kind).rows.filter (InSubtree kind laboratoryId rootPath)

def fetchTreeForUpdate [ScanOrder] (laboratoryId : Uuid) (rootPath : Ltree) : Transaction Unit :=
  .forAll (subtree kind laboratoryId rootPath) (fun r => .tree kind r.id) fun _ => .done ()

def isReferenced (id : Uuid) (d : Database) : Bool :=
  (d.tree kind).rows.any (·.parentId = some id) ||
  match kind with
  | .location => d.assetInventoryItems.rows.any (·.locationId = some id)
  | .assetCategory => d.assets.rows.any (·.categoryId = some id)

-- Foreign keys are checked when the whole statement is through.
def deleteTree [ScanOrder] (laboratoryId : Uuid) (rootPath : Ltree) : Transaction Unit := do
  let rows ← .read (subtree kind laboratoryId rootPath)
  .forRows (fun r => .tree kind r.id)
    (fun r => .exec (.tree kind <| .delete r.id) (mapDatabaseError kind)) (ScanOrder.visit rows)
  let referenced ← .read fun d => rows.any fun r => isReferenced kind r.id d
  .require (¬referenced) (stillReferenced kind)

end Trees

namespace Locations

structure CreateJsonData where
  parentLocationId : Option Uuid
  name : String
  code : String
  description : Option String

structure NewLocation where
  parentLocationId : Option Uuid
  name : String
  code : TreeCode
  description : Option String

def CreateJsonData.toNewLocation [UnicodeSegmentation] (value : CreateJsonData) :
    Except String NewLocation := do
  let name ← LocationName.parse value.name
  let code ← LocationCode.parse value.code
  return { value with name, code }

structure UpdateJsonData where
  parentLocationId : Option (Option Uuid)
  name : Option String
  code : Option String
  description : Option (Option String)

structure UpdateLocation where
  parentLocationId : NullableUpdate Uuid
  name : Option String
  code : Option TreeCode
  description : NullableUpdate String

def UpdateJsonData.toUpdateLocation [UnicodeSegmentation] (value : UpdateJsonData) :
    Except String UpdateLocation := do
  let name ← value.name.mapM LocationName.parse
  let code ← value.code.mapM LocationCode.parse
  return {
    parentLocationId := .ofOption value.parentLocationId
    name, code
    description := .ofOption value.description
  }

def buildPathAndDepth : Option LocationRow → TreeCode → String × Int :=
  Trees.buildPathAndDepth .location

def resolveNewParent : Uuid → Option Uuid → Transaction (Option LocationRow) :=
  Trees.resolveNewParent .location

def resolveMovedParent : LocationRow → Option Uuid → Transaction (Option LocationRow) :=
  Trees.resolveMovedParent .location

def fetchLocationForUpdate : Uuid → Transaction (Option LocationRow) :=
  Trees.fetchForUpdate .location

def moveLocation [ScanOrder] : LocationRow → Option Uuid → String → TreeCode → String → Int →
    Option String → Transaction LocationRow :=
  Trees.moveNode .location

def inTree (laboratoryId : Uuid) (rootPath : Ltree) (d : Database) (r : InventoryItemRow) : Bool :=
  r.laboratoryId = laboratoryId ∧
  r.locationId.any fun l => (Trees.subtree .location laboratoryId rootPath d).any (·.id = l)

def fetchInventoryItemIdsInTree (laboratoryId : Uuid) (rootPath : Ltree) (d : Database) :
    List Uuid :=
  let found := d.assetInventoryItems.rows.filter (inTree laboratoryId rootPath d)
  (found.map (·.inventoryItemId)).insertionSort (· ≤ ·)

def clearInventoryItemLocationsInTree [ScanOrder] (laboratoryId : Uuid) (rootPath : Ltree) :
    Transaction Unit :=
  .forAll (fun d => d.assetInventoryItems.rows.filter (inTree laboratoryId rootPath d))
    (.inventoryItem ·.inventoryItemId) fun r => do
      let found ← .read fun d =>
        (d.assetInventoryItems.find? r.inventoryItemId).filter (inTree laboratoryId rootPath d)
      let some r := found | return
      .exec (.assetInventoryItems <| .update { r with locationId := none })
        (Trees.mapDatabaseError .location)

-- Yields the items whose location has been cleared. They are recorded.
def deleteLocationSubtree [ScanOrder] (laboratoryId : Uuid) (rootPath : Ltree) :
    Transaction (List Uuid) := do
  let clearedInventoryItemIds ← .read (fetchInventoryItemIdsInTree laboratoryId rootPath)
  clearInventoryItemLocationsInTree laboratoryId rootPath
  Trees.deleteTree .location laboratoryId rootPath
  return clearedInventoryItemIds

def createLocation [UnicodeSegmentation] (ctx : LaboratoryContext) (payload : CreateJsonData)
    (newId : Uuid) : Transaction Unit := do
  let permitted ← .read (validatePermission · ctx.actor .location (.create ctx.laboratoryId))
  .require permitted (.forbidden "You don't have permission to create locations.")
  let new ← .validated payload.toNewLocation
  let parent ← resolveNewParent ctx.laboratoryId new.parentLocationId
  let (path, depth) := buildPathAndDepth parent new.code
  let _ ← Trees.insertNode .location newId ctx.laboratoryId new.parentLocationId new.name new.code
    path depth new.description

def updateLocation [UnicodeSegmentation] [ScanOrder] (ctx : LaboratoryContext) (locationId : Uuid)
    (payload : UpdateJsonData) : Transaction Unit := do
  let permitted ← .read (validatePermission · ctx.authorizationActor .location (.update locationId))
  .require permitted (.notFound "Location not found")
  let update ← .validated payload.toUpdateLocation
  let some existing ← fetchLocationForUpdate locationId | .abort (.notFound "Location not found")
  let name := update.name.getD existing.name
  let code := update.code.getD existing.code
  let parentLocationId := update.parentLocationId.resolve existing.parentId
  let description := update.description.resolve existing.description
  let parent ← resolveMovedParent existing parentLocationId
  let (path, depth) := buildPathAndDepth parent code
  let _ ← moveLocation existing parentLocationId name code path depth description

def deleteLocation [ScanOrder] (ctx : LaboratoryContext) (locationId : Uuid) :
    Transaction (List Uuid) := do
  let permitted ← .read (validatePermission · ctx.authorizationActor .location (.delete locationId))
  .require permitted (.forbidden "You are not allowed to delete this location.")
  let some existing ← fetchLocationForUpdate locationId | .abort (.notFound "Location not found")
  Trees.fetchTreeForUpdate .location existing.laboratoryId existing.path
  deleteLocationSubtree existing.laboratoryId existing.path

inductive Request
  | create (payload : CreateJsonData) (newId : Uuid)
  | update (locationId : Uuid) (payload : UpdateJsonData)
  | delete (locationId : Uuid)

def Request.handle [UnicodeSegmentation] [ScanOrder] (ctx : LaboratoryContext) :
    Request → Transaction Unit
  | create payload newId => createLocation ctx payload newId
  | update locationId payload => updateLocation ctx locationId payload
  | delete locationId => do
    let _ ← deleteLocation ctx locationId

end Locations

namespace AssetCategories

structure ParameterAssignmentJsonData where
  parameterTypeId : Uuid
  appliesToDescendants : Option Bool
  isRequired : Option Bool
  sortOrder : Option Int

structure AssetCategoryParameterAssignmentInput where
  parameterTypeId : Uuid
  appliesToDescendants : Bool
  isRequired : Bool
  sortOrder : Int

def parseParameterAssignments (assignments : List ParameterAssignmentJsonData) :
    Except String (List AssetCategoryParameterAssignmentInput) :=
  if (assignments.map (·.parameterTypeId)).Nodup then
    .ok <| assignments.map fun a => {
      parameterTypeId := a.parameterTypeId
      appliesToDescendants := a.appliesToDescendants.getD true
      isRequired := a.isRequired.getD true
      sortOrder := a.sortOrder.getD 0
    }
  else
    .error "Asset parameter assignments must be unique"

structure CreateJsonData where
  parentCategoryId : Option Uuid
  name : String
  code : String
  description : Option String
  parameterAssignments : Option (List ParameterAssignmentJsonData)

structure NewAssetCategory where
  parentCategoryId : Option Uuid
  name : String
  code : TreeCode
  description : Option String

def CreateJsonData.toNewAssetCategory [UnicodeSegmentation] (value : CreateJsonData) :
    Except String NewAssetCategory := do
  let name ← AssetCategoryName.parse value.name
  let code ← AssetCategoryCode.parse value.code
  return { parentCategoryId := value.parentCategoryId, name, code, description := value.description }

structure UpdateJsonData where
  parentCategoryId : Option (Option Uuid)
  name : Option String
  code : Option String
  description : Option (Option String)
  parameterAssignments : Option (List ParameterAssignmentJsonData)

structure UpdateAssetCategory where
  parentCategoryId : NullableUpdate Uuid
  name : Option String
  code : Option TreeCode
  description : NullableUpdate String

def UpdateJsonData.toUpdateAssetCategory [UnicodeSegmentation] (value : UpdateJsonData) :
    Except String UpdateAssetCategory := do
  let name ← value.name.mapM AssetCategoryName.parse
  let code ← value.code.mapM AssetCategoryCode.parse
  return {
    parentCategoryId := .ofOption value.parentCategoryId
    name, code
    description := .ofOption value.description
  }

def buildPathAndDepth : Option AssetCategoryRow → TreeCode → String × Int :=
  Trees.buildPathAndDepth .assetCategory

def resolveNewParent : Uuid → Option Uuid → Transaction (Option AssetCategoryRow) :=
  Trees.resolveNewParent .assetCategory

def resolveMovedParent : AssetCategoryRow → Option Uuid → Transaction (Option AssetCategoryRow) :=
  Trees.resolveMovedParent .assetCategory

def fetchAssetCategoryForUpdate : Uuid → Transaction (Option AssetCategoryRow) :=
  Trees.fetchForUpdate .assetCategory

def moveAssetCategory [ScanOrder] : AssetCategoryRow → Option Uuid → String → TreeCode → String →
    Int → Option String → Transaction AssetCategoryRow :=
  Trees.moveNode .assetCategory

def validateParameterAssignments (laboratoryId : Uuid)
    (assignments : List AssetCategoryParameterAssignmentInput) : Transaction Unit := do
  let valid ← .read fun d => d.assetParameterTypes.rows.filter fun r =>
    r.laboratoryId = laboratoryId ∧ assignments.any (·.parameterTypeId = r.parameterTypeId)
  .require (valid.length = assignments.length)
    (.validation "Asset parameter does not belong to this laboratory")

-- The assignments come with the ids that are generated for them.
def insertParameterAssignments (laboratoryId categoryId : Uuid) :
    List (Uuid × AssetCategoryParameterAssignmentInput) → Transaction Unit
  | [] => return
  | (assignmentId, a) :: assignments => do
    .exec (.assetParameterAssignments <| .insert {
      assignmentId, laboratoryId
      parameterTypeId := a.parameterTypeId
      categoryId := some categoryId
      assetId := none
      appliesToDescendants := a.appliesToDescendants
      isRequired := a.isRequired
      sortOrder := a.sortOrder
    }) fun _ => .unexpected "Failed to insert asset category parameter assignment"
    insertParameterAssignments laboratoryId categoryId assignments

def parameterAssignmentsOf (categoryId : Uuid) (d : Database) : List AssetParameterAssignmentRow :=
  d.assetParameterAssignments.rows.filter (·.categoryId = some categoryId)

def deleteParameterAssignments [ScanOrder] (categoryId : Uuid) : Transaction Unit :=
  .forAll (parameterAssignmentsOf categoryId) (.assetParameterAssignment ·.assignmentId) fun r =>
    .exec (.assetParameterAssignments <| .delete r.assignmentId)
      fun _ => .unexpected "Failed to delete existing asset category parameter assignments"

def replaceParameterAssignments [ScanOrder] (laboratoryId categoryId : Uuid)
    (assignments : List (Uuid × AssetCategoryParameterAssignmentInput)) : Transaction Unit := do
  deleteParameterAssignments categoryId
  insertParameterAssignments laboratoryId categoryId assignments

def inTree (laboratoryId : Uuid) (rootPath : Ltree) (d : Database) (r : AssetRow) : Bool :=
  r.laboratoryId = laboratoryId ∧
  r.categoryId.any fun c => (Trees.subtree .assetCategory laboratoryId rootPath d).any (·.id = c)

def fetchAssetIdsInTree (laboratoryId : Uuid) (rootPath : Ltree) (d : Database) : List Uuid :=
  ((d.assets.rows.filter (inTree laboratoryId rootPath d)).map (·.assetId)).insertionSort (· ≤ ·)

def clearAssetCategoriesInTree [ScanOrder] (laboratoryId : Uuid) (rootPath : Ltree) :
    Transaction Unit :=
  .forAll (fun d => d.assets.rows.filter (inTree laboratoryId rootPath d)) (.asset ·.assetId)
    fun r => do
      let found ← .read fun d => (d.assets.find? r.assetId).filter (inTree laboratoryId rootPath d)
      let some r := found | return
      .exec (.assets <| .update { r with categoryId := none })
        (Trees.mapDatabaseError .assetCategory)

-- Yields the assets whose category has been cleared. They are recorded.
def deleteAssetCategorySubtree [ScanOrder] (laboratoryId : Uuid) (rootPath : Ltree) :
    Transaction (List Uuid) := do
  let clearedAssetIds ← .read (fetchAssetIdsInTree laboratoryId rootPath)
  clearAssetCategoriesInTree laboratoryId rootPath
  Trees.deleteTree .assetCategory laboratoryId rootPath
  return clearedAssetIds

def createAssetCategory [UnicodeSegmentation] (ctx : LaboratoryContext) (payload : CreateJsonData)
    (newId : Uuid) (newAssignmentIds : Nat → Uuid) : Transaction Unit := do
  let permitted ← .read (validatePermission · ctx.actor .assetCategory (.create ctx.laboratoryId))
  .require permitted (.forbidden "You don't have permission to create asset categories.")
  let assignments ← .validated <| parseParameterAssignments (payload.parameterAssignments.getD [])
  let new ← .validated payload.toNewAssetCategory
  let parent ← resolveNewParent ctx.laboratoryId new.parentCategoryId
  validateParameterAssignments ctx.laboratoryId assignments
  let (path, depth) := buildPathAndDepth parent new.code
  let category ← Trees.insertNode .assetCategory newId ctx.laboratoryId new.parentCategoryId new.name
    new.code path depth new.description
  insertParameterAssignments category.laboratoryId category.id <|
    assignments.mapIdx fun i a => (newAssignmentIds i, a)

def updateAssetCategory [UnicodeSegmentation] [ScanOrder] (ctx : LaboratoryContext)
    (categoryId : Uuid) (payload : UpdateJsonData) (newAssignmentIds : Nat → Uuid) :
    Transaction Unit := do
  let permitted ←
    .read (validatePermission · ctx.authorizationActor .assetCategory (.update categoryId))
  .require permitted (.forbidden "You are not allowed to update this asset category.")
  let assignments ← .validated <| payload.parameterAssignments.mapM parseParameterAssignments
  let update ← .validated payload.toUpdateAssetCategory
  let some existing ← fetchAssetCategoryForUpdate categoryId |
    .abort (.notFound "Asset category not found")
  .forAll (parameterAssignmentsOf existing.id) (.assetParameterAssignment ·.assignmentId)
    fun _ => .done ()
  if let some assignments := assignments then
    validateParameterAssignments existing.laboratoryId assignments
  let name := update.name.getD existing.name
  let code := update.code.getD existing.code
  let parentCategoryId := update.parentCategoryId.resolve existing.parentId
  let description := update.description.resolve existing.description
  let parent ← resolveMovedParent existing parentCategoryId
  let (path, depth) := buildPathAndDepth parent code
  let updated ← moveAssetCategory existing parentCategoryId name code path depth description
  if let some assignments := assignments then
    replaceParameterAssignments updated.laboratoryId updated.id <|
      assignments.mapIdx fun i a => (newAssignmentIds i, a)

def deleteAssetCategory [ScanOrder] (ctx : LaboratoryContext) (categoryId : Uuid) :
    Transaction (List Uuid) := do
  let permitted ←
    .read (validatePermission · ctx.authorizationActor .assetCategory (.delete categoryId))
  .require permitted (.forbidden "You are not allowed to delete this asset category.")
  let some existing ← fetchAssetCategoryForUpdate categoryId |
    .abort (.notFound "Asset category not found")
  Trees.fetchTreeForUpdate .assetCategory existing.laboratoryId existing.path
  .forAll (fun d => (Trees.subtree .assetCategory existing.laboratoryId existing.path d).flatMap
    fun r => parameterAssignmentsOf r.id d) (.assetParameterAssignment ·.assignmentId)
    fun _ => .done ()
  deleteAssetCategorySubtree existing.laboratoryId existing.path

inductive Request
  | create (payload : CreateJsonData) (newId : Uuid) (newAssignmentIds : Nat → Uuid)
  | update (categoryId : Uuid) (payload : UpdateJsonData) (newAssignmentIds : Nat → Uuid)
  | delete (categoryId : Uuid)

def Request.handle [UnicodeSegmentation] [ScanOrder] (ctx : LaboratoryContext) :
    Request → Transaction Unit
  | create payload newId newAssignmentIds => createAssetCategory ctx payload newId newAssignmentIds
  | update categoryId payload newAssignmentIds =>
    updateAssetCategory ctx categoryId payload newAssignmentIds
  | delete categoryId => do
    let _ ← deleteAssetCategory ctx categoryId

end AssetCategories

def Trees.Request : TreeKind → Type
  | .location => Locations.Request
  | .assetCategory => AssetCategories.Request

def Trees.Request.handle [UnicodeSegmentation] [ScanOrder] {kind : TreeKind}
    (ctx : LaboratoryContext) (request : Trees.Request kind) : Transaction Unit :=
  match kind with
  | .location => Locations.Request.handle ctx request
  | .assetCategory => AssetCategories.Request.handle ctx request

end LabInventory
