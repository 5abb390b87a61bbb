import LabInventory.Library.Effects
import LabInventory.Trees.Basic

open Sql Program

namespace LabInventory

namespace Locations

variable {d : Database} {ctx : LaboratoryContext} {laboratoryId id : Uuid} {rootPath : Ltree}

-- Nodes stay in their laboratory.
def IsNodeWrite (d : Database) : Write → Prop
  | .tree .location (.insert _) => True
  | .tree .location (.update r) =>
    ∃ r₀, d.locations.find? r.id = some r₀ ∧ r.laboratoryId = r₀.laboratoryId
  | _ => False

def IsDeletion (d : Database) : Write → Prop
  | .tree .location (.delete _) => True
  | .assetInventoryItems (.update r) =>
    ∃ r₀, d.assetInventoryItems.find? r.inventoryItemId = some r₀ ∧ r = { r₀ with locationId := none }
  | _ => False

def IsRequestWrite (d : Database) (w : Write) : Prop :=
  IsNodeWrite d w ∨ IsDeletion d w

theorem performs_updateDescendantPaths [ScanOrder] {oldPath newPath : Ltree} :
    (Trees.updateDescendantPaths .location laboratoryId id oldPath newPath).performs IsNodeWrite
      (fun _ _ => True) d := by
  refine performs_forAll (fun _ _ => True) trivial fun r _ d₁ _ => ?_
  refine readOnly_read.performs_bind <| wp_read.mpr ?_
  split
  case h_1 => trivial
  case h_2 current hf =>
    have hm := (Table.find?_eq_some.mp (Option.filter_eq_some_iff.mp hf).left).left
    refine readOnly_fetch.performs_bind_all fun _ => performs_exec ?_ fun _ _ => trivial
    exact ⟨current, Table.find?_key hm, rfl⟩

theorem performs_updateInDatabase {parentId : Option Uuid} {name path : String} {code : TreeCode}
    {depth : Int} {description : Option String} :
    (Trees.updateInDatabase .location id parentId name code path depth description).performs
      IsNodeWrite (fun _ _ => True) d := by
  refine readOnly_fetch.performs_bind_all fun path => ?_
  refine readOnly_selectForUpdate.performs_bind <| wp_selectForUpdate.mpr ?_
  cases hf : (d.tree .location).find? id
  case none => trivial
  case some current =>
    have hk := Table.find?_key (Table.find?_eq_some.mp hf).left
    refine performs_bind.mpr <| performs_exec ⟨current, hk, rfl⟩ fun _ _ => ?_
    exact readOnly_read.performs_bind_all fun _ => readOnly_require.performs_bind_all fun _ => trivial

theorem resolveNewParent_readOnly {parentId : Option Uuid} :
    (resolveNewParent laboratoryId parentId).ReadOnly := by
  cases parentId
  case none => trivial
  case some =>
    refine readOnly_selectForUpdate.bind fun parent => ?_
    cases parent
    case none => trivial
    case some => exact readOnly_require.bind fun _ => trivial

theorem resolveMovedParent_readOnly {existing : LocationRow} {parentId : Option Uuid} :
    (resolveMovedParent existing parentId).ReadOnly := by
  cases parentId
  case none => trivial
  case some =>
    refine readOnly_require.bind fun _ => readOnly_selectForUpdate.bind fun parent => ?_
    cases parent
    case none => trivial
    case some => exact readOnly_require.bind fun _ => readOnly_require.bind fun _ => trivial

theorem performs_createLocation [UnicodeSegmentation] {payload : CreateJsonData} :
    (createLocation ctx payload id).performs IsNodeWrite (fun _ _ => True) d := by
  refine readOnly_read.performs_bind_all fun _ => readOnly_require.performs_bind_all fun _ => ?_
  refine readOnly_ofExcept.performs_bind_all fun new => ?_
  refine resolveNewParent_readOnly.performs_bind_all fun parent => ?_
  refine performs_bind.mpr <| readOnly_fetch.performs_bind_all fun path => ?_
  refine performs_bind.mpr <| performs_exec trivial fun _ _ => ?_
  exact readOnly_read.performs_bind_all fun _ => readOnly_require.performs_bind_all fun _ => trivial

theorem performs_updateLocation [UnicodeSegmentation] [ScanOrder] {payload : UpdateJsonData} :
    (updateLocation ctx id payload).performs IsNodeWrite (fun _ _ => True) d := by
  refine readOnly_read.performs_bind_all fun _ => readOnly_require.performs_bind_all fun _ => ?_
  refine readOnly_ofExcept.performs_bind_all fun update => ?_
  refine readOnly_selectForUpdate.performs_bind_all fun existing => ?_
  cases existing
  case none => trivial
  case some existing =>
    refine resolveMovedParent_readOnly.performs_bind_all fun parent => performs_bind.mpr ?_
    refine performs_bind.mpr <| performs_mono performs_updateInDatabase fun updated _ _ => ?_
    split
    case isTrue =>
      exact performs_bind.mpr <| performs_mono performs_updateDescendantPaths fun _ _ _ => trivial
    case isFalse => trivial

theorem performs_clearInventoryItemLocationsInTree [ScanOrder] :
    (clearInventoryItemLocationsInTree laboratoryId rootPath).performs IsDeletion
      (fun _ _ => True) d := by
  refine performs_forAll (fun _ _ => True) trivial fun r _ d₁ _ => ?_
  refine readOnly_read.performs_bind <| wp_read.mpr ?_
  split
  case h_2 => trivial
  case h_1 r' hr' =>
    have hm := (Table.find?_eq_some.mp (Option.filter_eq_some_iff.mp hr').left).left
    exact performs_exec ⟨r', Table.find?_key hm, rfl⟩ fun _ _ => trivial

theorem performs_deleteLocation [ScanOrder] :
    (deleteLocation ctx id).performs IsDeletion (fun _ _ => True) d := by
  refine readOnly_read.performs_bind_all fun _ => readOnly_require.performs_bind_all fun _ => ?_
  refine readOnly_selectForUpdate.performs_bind_all fun existing => ?_
  cases existing
  case none => trivial
  case some existing =>
    refine ReadOnly.performs_bind_all (readOnly_forAll fun _ => trivial) fun _ => ?_
    refine readOnly_read.performs_bind_all fun _ => performs_bind.mpr ?_
    refine performs_mono performs_clearInventoryItemLocationsInTree fun _ _ _ => performs_bind.mpr ?_
    refine readOnly_read.performs_bind_all fun rows => performs_bind.mpr ?_
    refine performs_mono (performs_forRows (fun _ _ => True) trivial fun r _ _ _ =>
      performs_exec trivial fun _ _ => trivial) fun _ _ _ => ?_
    exact readOnly_read.performs_bind_all fun _ => readOnly_require.performs <|
      wlp_of_forall fun _ _ => trivial

theorem performs_handle [UnicodeSegmentation] [ScanOrder] {request : Request} :
    (request.handle ctx).performs IsRequestWrite (fun _ _ => True) d := by
  cases request
  case create => exact performs_imp performs_createLocation fun _ _ => .inl
  case update => exact performs_imp performs_updateLocation fun _ _ => .inl
  case delete =>
    refine performs_imp (performs_bind.mpr ?_) fun _ _ => .inr
    exact performs_mono performs_deleteLocation fun _ _ _ => trivial

end Locations

end LabInventory
