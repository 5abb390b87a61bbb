import LabInventory.BorrowRequests.Basic
import LabInventory.InventoryItems.Effects

open Sql Program

namespace LabInventory

namespace BorrowRequests

open InventoryItems

variable {d d' : Database} {ctx : LaboratoryContext} {laboratoryId borrowRequestId : Uuid}
  {r : BorrowRequestRow}

theorem readOnly_requireBorrowRequest : (requireBorrowRequest laboratoryId borrowRequestId).ReadOnly := by
  refine ReadOnly.bind (p := fetchBorrowRequestForUpdate _ _) ?_ fun r => ?_
  case refine_1 =>
    refine readOnly_read.bind fun found => ?_
    cases found
    case none => trivial
    case some => exact fun _ => trivial
  case refine_2 => cases r <;> trivial

theorem wp_requireBorrowRequest {I : Database → Prop} {R : ApiError → Prop}
    {Q : BorrowRequestRow → Database → Prop} :
    (requireBorrowRequest laboratoryId borrowRequestId).wp I R Q d ↔
      (∀ r, fetchBorrowRequest? d laboratoryId borrowRequestId = some r → Q r d) ∧
      (fetchBorrowRequest? d laboratoryId borrowRequestId = none →
        R (.notFound "Borrow request not found")) := by
  simp only [requireBorrowRequest, fetchBorrowRequestForUpdate, wp_bind, wp_read]
  cases hf : fetchBorrowRequest? d laboratoryId borrowRequestId <;> simp [hf]

theorem fetchBorrowRequest?_eq_some : fetchBorrowRequest? d laboratoryId borrowRequestId = some r ↔
    r ∈ d.borrowRequests ∧ r.borrowRequestId = borrowRequestId ∧
    r.localLaboratoryId = laboratoryId ∧ (fetchInventoryItem? d r.inventoryItemId).isSome := by
  simp only [fetchBorrowRequest?, Option.filter_eq_some_iff, Table.find?_eq_some, Bool.and_eq_true,
    decide_eq_true_eq, and_assoc]
  rfl

-- Nothing keeps a request from being changed.
theorem wp_updateBorrowRequestRow {R : ApiError → Prop} {Q : Unit → Database → Prop}
    {f : BorrowRequestRow → BorrowRequestRow} {context : String} (hr : r ∈ d.borrowRequests)
    (hk : r.borrowRequestId = borrowRequestId) (hl : r.localLaboratoryId = laboratoryId)
    (hf : (f r).borrowRequestId = borrowRequestId)
    (hq : ∀ d', d' = { d with borrowRequests := d'.borrowRequests } → f r ∈ d'.borrowRequests →
      Q () d') :
    (updateBorrowRequestRow borrowRequestId laboratoryId f context).wp (fun _ => True) R Q d := by
  have hfind : (d.borrowRequests.find? borrowRequestId).filter (·.localLaboratoryId = laboratoryId) =
      some r :=
    Option.filter_eq_some_iff.mpr ⟨Table.find?_eq_some.mpr ⟨hr, hk⟩, by simpa using hl⟩
  refine wp_bind.mpr <| wp_selectForUpdate.mpr ?_
  rw [hfind]
  refine wp_exec.mpr ⟨fun d' ha => ⟨trivial, ?_⟩, fun c ha => ?_⟩
  case refine_1 =>
    have happ := Database.applied_of_apply ha
    exact hq d' happ.right <| (Table.mem_update happ.left).mpr <| .inr ⟨rfl, r, hr, hk.trans hf.symm⟩
  case refine_2 =>
    have hc : d.borrowRequests.clash? (f r) = none := by
      simp [Table.clash?_eq_none, conflict?_eq_none, TableSchema.indexes]
    obtain ⟨t, ht⟩ := Table.exists_update hc
    have ha' : d.apply (.borrowRequests (.update (f r))) = .ok { d with borrowRequests := t } :=
      Except.bind_eq_ok.mpr ⟨t, ht, rfl⟩
    exact nomatch ha'.symm.trans ha

-- Requests stay with their item, and the item is marked at most.
def IsRequestWrite (d : Database) : Write → Prop
  | .assetInventoryItems (.update r) =>
    ∃ r₀, d.assetInventoryItems.find? r.inventoryItemId = some r₀ ∧ r = { r₀ with status := .borrowed }
  | .borrowRequests (.insert r) => (d.assetInventoryItems.find? r.inventoryItemId).isSome
  | .borrowRequests (.update r) =>
    ∃ r₀ ∈ d.borrowRequests, r₀.inventoryItemId = r.inventoryItemId
  | _ => False

theorem performs_updateBorrowRequestRow {f : BorrowRequestRow → BorrowRequestRow} {context : String}
    (hf : ∀ r, (f r).inventoryItemId = r.inventoryItemId) :
    (updateBorrowRequestRow borrowRequestId laboratoryId f context).performs IsRequestWrite
      (fun _ _ => True) d := by
  refine readOnly_selectForUpdate.performs_bind <| wp_selectForUpdate.mpr ?_
  cases hr : (d.borrowRequests.find? borrowRequestId).filter (·.localLaboratoryId = laboratoryId)
  case none => trivial
  case some r =>
    have hm := (Table.find?_eq_some.mp (Option.filter_eq_some_iff.mp hr).left).left
    exact performs_exec ⟨r, hm, (hf r).symm⟩ fun _ _ => trivial

theorem performs_markInventoryItemBorrowed {inventoryItemId : Uuid} :
    (markInventoryItemBorrowed inventoryItemId).performs IsRequestWrite (fun _ _ => True) d := by
  refine readOnly_selectForUpdate.performs_bind <| wp_selectForUpdate.mpr ?_
  cases hr : d.assetInventoryItems.find? inventoryItemId
  case none => trivial
  case some r =>
    obtain ⟨_, rfl⟩ := Table.find?_eq_some.mp hr
    exact performs_exec ⟨r, hr, rfl⟩ fun _ _ => trivial

theorem performs_createBorrowRequest {inventoryItemId newId : Uuid} {guestLinkId : Option Uuid}
    {requestNote : Option String} :
    (createBorrowRequest ctx inventoryItemId guestLinkId requestNote newId).performs IsRequestWrite
      (fun _ _ => True) d := by
  refine readOnly_selectForUpdate.performs_bind <| wp_selectForUpdate.mpr ?_
  cases hf : fetchInventoryItem? d inventoryItemId
  case none => trivial
  case some item =>
    refine readOnly_require.performs_bind_all fun _ => readOnly_ofExcept.performs_bind_all fun _ => ?_
    refine readOnly_require.performs_bind_all fun _ => readOnly_read.performs_bind_all fun _ => ?_
    refine readOnly_require.performs_bind_all fun _ => ?_
    refine ReadOnly.performs_bind_all (p := fetchUserSnapshot _) readOnly_fetch fun _ => ?_
    refine readOnly_read.performs_bind_all fun _ => performs_bind.mpr ?_
    refine Transaction.readOnly_bindTexts.performs_bind_all fun _ => performs_exec ?_ fun _ _ => ?_
    case refine_1 =>
      have hm := (Table.find?_eq_some.mp <| fetchInventoryItem?_eq_some hf).left
      exact Option.isSome_iff_exists.mpr ⟨item, Table.find?_key hm⟩
    case refine_2 => exact readOnly_requireBorrowRequest.performs_bind_all fun _ => trivial

theorem performs_cancelBorrowRequest {guestLinkId : Option Uuid} :
    (cancelBorrowRequest ctx borrowRequestId guestLinkId).performs IsRequestWrite
      (fun _ _ => True) d := by
  refine readOnly_ofExcept.performs_bind_all fun _ => ?_
  refine readOnly_requireBorrowRequest.performs_bind_all fun _ => ?_
  refine readOnly_require.performs_bind_all fun _ => readOnly_require.performs_bind_all fun _ => ?_
  refine performs_bind.mpr <| performs_mono (performs_updateBorrowRequestRow fun _ => rfl) ?_
  exact fun _ _ _ => readOnly_requireBorrowRequest.performs_bind_all fun _ => trivial

theorem performs_resolveBorrowRequest {decision : String} {note : Option String} :
    (resolveBorrowRequest ctx borrowRequestId decision note).performs IsRequestWrite
      (fun _ _ => True) d := by
  refine readOnly_ofExcept.performs_bind_all fun _ => readOnly_ofExcept.performs_bind_all fun status => ?_
  refine readOnly_requireBorrowRequest.performs_bind_all fun _ => ?_
  refine readOnly_require.performs_bind_all fun _ => ?_
  refine fetchInventoryItemForUpdate_readOnly.performs_bind_all fun item => ?_
  cases item
  case none => trivial
  case some item =>
    refine readOnly_require.performs_bind_all fun _ => ?_
    refine ReadOnly.performs_bind_all (p := fetchUserSnapshot _) readOnly_fetch fun reviewer => ?_
    have hdecided {d : Database} : (do
        updateBorrowRequestDecision borrowRequestId ctx.laboratoryId status ctx.actor.userId
          reviewer.1 reviewer.2 (normalizeOptionalText note)
        let _ ← requireBorrowRequest ctx.laboratoryId borrowRequestId :
          Transaction Unit).performs IsRequestWrite (fun _ _ => True) d := by
      refine performs_bind.mpr <| readOnly_read.performs_bind_all fun _ => ?_
      refine Transaction.readOnly_bindTexts.performs_bind_all fun _ => ?_
      refine performs_mono (performs_updateBorrowRequestRow fun _ => rfl) fun _ _ _ => ?_
      exact readOnly_requireBorrowRequest.performs_bind_all fun _ => trivial
    cases status
    case approved =>
      exact performs_bind.mpr <| performs_mono performs_markInventoryItemBorrowed fun _ _ _ => hdecided
    all_goals exact hdecided

theorem performs_handle {request : Request} :
    (request.handle ctx).performs IsRequestWrite (fun _ _ => True) d := by
  cases request
  case create => exact performs_createBorrowRequest
  case resolve => exact performs_resolveBorrowRequest
  case cancel => exact performs_cancelBorrowRequest

end BorrowRequests

end LabInventory
