import LabInventory.InventoryItems.Effects

open Sql Program

namespace LabInventory

namespace InventoryItems

-- Neither items nor borrow requests are affected, not even by a cascade.
def Elsewhere (w : Write) : Prop :=
  ∀ d d' : Database, apply w d = .ok d' →
    d'.assetInventoryItems = d.assetInventoryItems ∧ d'.borrowRequests = d.borrowRequests

-- A transaction which edits items in any way, and decides what to do next by what it has read. No
-- statement changes the laboratory of an item.
inductive IsEdit : {α : Type} → Transaction α → Prop
  | elsewhere {α : Type} {p : Transaction α} : p.Writes Elsewhere → IsEdit p
  | insert {r err} : IsEdit (.exec (.assetInventoryItems <| .insert r) err)
  | update {inventoryItemId f} : (∀ r, (f r).inventoryItemId = r.inventoryItemId) →
      (∀ r, (f r).laboratoryId = r.laboratoryId) → IsEdit (updateInventoryItemRow inventoryItemId f)
  | delete {inventoryItemId} : IsEdit (deleteInventoryItemFromDatabase inventoryItemId)
  | bind {α β : Type} {p : Transaction α} {f : α → Transaction β} :
      IsEdit p → (∀ a, IsEdit (f a)) → IsEdit (p >>= f)

def IsEditWrite (w : Write) : Prop :=
  Elsewhere w ∨ ∃ w', w = .assetInventoryItems w'

theorem elsewhere_of_isFileWrite {w : Write} (hw : Attachments.IsFileWrite w) : Elsewhere w := by
  intro d d' h
  cases w
  case fileUploads | files | attachmentAssignments =>
    have hf := (Database.applied_of_apply h).right
    exact ⟨by rw [hf], by rw [hf]⟩
  all_goals exact hw.elim

namespace IsEdit

variable {α β : Type} {p : Transaction α} {f : α → Transaction β}

theorem files (h : p.Writes Attachments.IsFileWrite) : IsEdit p :=
  .elsewhere <| h.mono fun _ => elsewhere_of_isFileWrite

theorem readOnly (h : p.ReadOnly) : IsEdit p :=
  .elsewhere h.writes

theorem readOnly_bind (h : p.ReadOnly) (hf : ∀ a, IsEdit (f a)) : IsEdit (p >>= f) :=
  .bind (.readOnly h) hf

theorem writes (h : IsEdit p) : p.Writes IsEditWrite := by
  induction h
  case elsewhere hp => exact hp.mono fun _ hw => .inl hw
  case insert => exact writes_exec <| .inr ⟨_, rfl⟩
  case update =>
    refine readOnly_selectForUpdate.writes_bind fun found => ?_
    cases found
    case none => trivial
    case some => exact writes_exec <| .inr ⟨_, rfl⟩
  case delete =>
    refine readOnly_selectForUpdate.writes_bind fun found => ?_
    cases found
    case none => trivial
    case some => exact writes_exec <| .inr ⟨_, rfl⟩
  case bind ihp ihf => exact ihp.bind ihf

end IsEdit

section Requests

variable {ctx : LaboratoryContext} {inventoryItemId : Uuid}

theorem isEdit_reread {what : String} : IsEdit (rereadInventoryItem inventoryItemId what) := by
  refine .readOnly <| readOnly_selectForUpdate.bind fun r => ?_
  cases r <;> trivial

theorem isEdit_insertInventoryItem {r : InventoryItemRow} : IsEdit (insertInventoryItem r) :=
  .bind (.readOnly_bind Transaction.readOnly_bindTexts fun _ => .insert) fun _ => isEdit_reread

theorem isEdit_applyInventoryItemPatch {existing : InventoryItemRow} {patch : UpdateInventoryItem} :
    IsEdit (applyInventoryItemPatch existing patch) := by
  refine .readOnly_bind readOnly_ofExcept fun _ => ?_
  refine .readOnly_bind validateOptionalLocation_readOnly fun _ => ?_
  refine .readOnly_bind readOnly_ofExcept fun _ => .bind ?_ fun _ => isEdit_reread
  exact .readOnly_bind Transaction.readOnly_bindTexts fun _ => .update (fun _ => rfl) fun _ => rfl

theorem isEdit_applyInventoryItemPatches {items : List InventoryItemRow}
    {patch : UpdateInventoryItem} : IsEdit (applyInventoryItemPatches patch items) := by
  induction items
  case nil => exact .readOnly readOnly_done
  case cons ih => exact .bind isEdit_applyInventoryItemPatch fun _ => ih

theorem isEdit_updateInventoryItem [UnicodeSegmentation] {payload : UpdateJsonData} :
    IsEdit (updateInventoryItem ctx inventoryItemId payload) := by
  refine .readOnly_bind requirePermissions_readOnly fun _ => ?_
  refine .readOnly_bind readOnly_ofExcept fun _ => ?_
  refine .readOnly_bind readOnly_selectForUpdate fun existing => ?_
  cases existing
  case none => exact .readOnly readOnly_abort
  case some => exact .bind isEdit_applyInventoryItemPatch fun _ => .readOnly readOnly_done

theorem isEdit_batchUpdateInventoryItems [UnicodeSegmentation] {payload : BatchUpdateJsonData} :
    IsEdit (batchUpdateInventoryItems ctx payload) := by
  refine .readOnly_bind readOnly_ofExcept fun _ => .readOnly_bind readOnly_ofExcept fun _ => ?_
  refine .readOnly_bind readOnly_require fun _ => ?_
  refine .readOnly_bind requirePermissions_readOnly fun _ => ?_
  refine .readOnly_bind readOnly_selectAllForUpdate fun _ => ?_
  exact .readOnly_bind readOnly_ofExcept fun _ => isEdit_applyInventoryItemPatches

theorem isEdit_addQuantitiesToItem {quantityDelta allocatedDelta : ℚ} :
    IsEdit (addQuantitiesToItem inventoryItemId quantityDelta allocatedDelta) :=
  .bind (.update (fun _ => rfl) fun _ => rfl) fun _ => isEdit_reread

theorem isEdit_splitInventoryItem {payload : SplitJsonData} {newId : Uuid} :
    IsEdit (splitInventoryItem ctx inventoryItemId payload newId) := by
  refine .readOnly_bind requirePermissions_readOnly fun _ => ?_
  refine .readOnly_bind readOnly_ofExcept fun _ => ?_
  refine .readOnly_bind readOnly_selectForUpdate fun source => ?_
  cases source
  case none => exact .readOnly readOnly_abort
  case some source =>
    refine .readOnly_bind readOnly_ofExcept fun _ => .readOnly_bind readOnly_require fun _ => ?_
    refine .readOnly_bind validateOptionalLocation_readOnly fun _ => ?_
    refine .readOnly_bind readOnly_require fun _ => ?_
    refine .readOnly_bind findQuantityAggregateForUpdate_readOnly fun target => ?_
    refine .bind (.bind (.update (fun _ => rfl) fun _ => rfl) fun _ => isEdit_reread) fun _ => ?_
    cases target
    case none => exact .bind isEdit_insertInventoryItem fun _ => .readOnly readOnly_done
    case some => exact .bind isEdit_addQuantitiesToItem fun _ => .readOnly readOnly_done

theorem isEdit_deleteInventoryItems {inventoryItemIds : List Uuid} :
    IsEdit (deleteInventoryItems inventoryItemIds) := by
  induction inventoryItemIds
  case nil => exact .readOnly readOnly_done
  case cons ih => exact .bind .delete fun _ => ih

theorem writes_moveInventoryItemAttachments [ScanOrder] {ids : List Uuid} :
    (moveInventoryItemAttachments ids inventoryItemId).Writes Attachments.IsFileWrite := by
  refine writes_forAll fun r => readOnly_read.writes_bind fun found => ?_
  cases found
  case none => trivial
  case some => exact writes_exec trivial

theorem isEdit_mergeInventoryItems [ScanOrder] {payload : MergeJsonData} :
    IsEdit (mergeInventoryItems ctx payload) := by
  refine .readOnly_bind readOnly_ofExcept fun _ => ?_
  refine .readOnly_bind requirePermissions_readOnly fun _ => ?_
  refine .readOnly_bind readOnly_selectAllForUpdate fun _ => ?_
  refine .readOnly_bind readOnly_ofExcept fun _ => .readOnly_bind readOnly_ofExcept fun _ => ?_
  refine .readOnly_bind readOnly_ofExcept fun _ => .readOnly_bind readOnly_ofExcept fun _ => ?_
  refine .bind (.files writes_moveInventoryItemAttachments) fun _ => ?_
  exact .bind isEdit_addQuantitiesToItem fun _ => isEdit_deleteInventoryItems

theorem isEdit_deleteItem [ScanOrder] {β : Type}
    {f : List Attachments.DeletedAttachmentRow → Transaction β} (hf : ∀ as, IsEdit (f as)) :
    IsEdit (do
      let as ← deleteInventoryItemAttachments inventoryItemId
      deleteInventoryItemFromDatabase inventoryItemId
      f as) :=
  .bind (.files Attachments.deleteAttachments_writes) fun as => .bind .delete fun _ => hf as

theorem isEdit_deleteItems [ScanOrder] {items : List InventoryItemRow} :
    IsEdit (deleteItems items) := by
  induction items
  case nil => exact .readOnly readOnly_done
  case cons ih => exact isEdit_deleteItem fun _ => .bind ih fun _ => .readOnly readOnly_done

theorem isEdit_deleteInventoryItem [ScanOrder] : IsEdit (deleteInventoryItem ctx inventoryItemId) := by
  refine .readOnly_bind requirePermissions_readOnly fun _ => ?_
  refine .readOnly_bind readOnly_selectForUpdate fun item => ?_
  cases item
  case none => exact .readOnly readOnly_abort
  case some =>
    refine .readOnly_bind readOnly_ofExcept fun _ => ?_
    exact isEdit_deleteItem fun _ => .readOnly readOnly_done

theorem isEdit_batchDeleteInventoryItems [ScanOrder] {inventoryItemIds : List Uuid} :
    IsEdit (batchDeleteInventoryItems ctx inventoryItemIds) := by
  refine .readOnly_bind readOnly_ofExcept fun _ => ?_
  refine .readOnly_bind requirePermissions_readOnly fun _ => ?_
  refine .readOnly_bind readOnly_selectAllForUpdate fun _ => ?_
  refine .readOnly_bind readOnly_ofExcept fun _ => .readOnly_bind readOnly_ofExcept fun _ => ?_
  exact isEdit_deleteItems

theorem isEdit_insertNewInventoryItems {asset : AssetRow} {trackingMode : AssetTrackingMode}
    {newIds : NewIds} {items : List NewInventoryItem} :
    IsEdit (insertNewInventoryItems asset trackingMode newIds items) := by
  induction items generalizing newIds
  case nil => exact .readOnly readOnly_done
  case cons ih =>
    exact .bind isEdit_insertInventoryItem fun _ => .bind ih fun _ => .readOnly readOnly_done

theorem isEdit_createInventoryItems [UnicodeSegmentation] {payload : CreateJsonData}
    {assetId : Uuid} {newIds : NewIds} {newAttachmentIds : Nat → NewIds} :
    IsEdit (createInventoryItems ctx assetId payload newIds newAttachmentIds) := by
  refine .readOnly_bind readOnly_fetch fun _ => .readOnly_bind readOnly_require fun _ => ?_
  refine .readOnly_bind requirePermissions_readOnly fun _ => ?_
  refine .readOnly_bind requirePermissions_readOnly fun _ => ?_
  refine .readOnly_bind readOnly_ofExcept fun _ => .readOnly_bind readOnly_ofExcept fun _ => ?_
  refine .readOnly_bind readOnly_selectForUpdate fun asset => ?_
  cases asset
  case none => exact .readOnly readOnly_abort
  case some asset =>
    refine .readOnly_bind readOnly_ofExcept fun creation => ?_
    refine .readOnly_bind validateOptionalLocation_readOnly fun _ => ?_
    cases creation
    case quantity => exact .bind isEdit_insertNewInventoryItems fun _ => .files assign_writes
    case serialized source _ _ _ _ _ =>
      refine .bind (.readOnly_bind serialNumbers_readOnly fun _ => ?_) fun _ => .files assign_writes
      exact isEdit_insertNewInventoryItems

-- Each request that concerns items is an edit.
theorem isEdit_handle [UnicodeSegmentation] [ScanOrder] {request : Request} :
    IsEdit (request.handle ctx) := by
  cases request
  case create => exact isEdit_createInventoryItems
  case update => exact isEdit_updateInventoryItem
  case batchUpdate => exact isEdit_batchUpdateInventoryItems
  case split => exact isEdit_splitInventoryItem
  case merge => exact isEdit_mergeInventoryItems
  case delete => exact .bind isEdit_deleteInventoryItem fun _ => .readOnly readOnly_done
  case batchDelete => exact .bind isEdit_batchDeleteInventoryItems fun _ => .readOnly readOnly_done

end Requests

end InventoryItems

end LabInventory
