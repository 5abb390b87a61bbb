import LabInventory.InventoryItems.Aggregates
import LabInventory.InventoryItems.Reachable

open Sql Program

namespace LabInventory

namespace BorrowRequests

open InventoryItems Inventory

variable {d d' : Database} {item : InventoryItemRow}

-- Some of the same batch, in the same location, has been borrowed before.
def HasBorrowedTwin (d : Database) (item : InventoryItemRow) : Prop :=
  item.trackingMode = .quantity ∧ ∃ r ∈ d.assetInventoryItems,
    r.inventoryItemId ≠ item.inventoryItemId ∧ r.trackingMode = .quantity ∧
    r.assetId = item.assetId ∧ r.batchNumber = item.batchNumber ∧
    r.locationId.getD nilUuid = item.locationId.getD nilUuid ∧ r.status = .borrowed

-- The status is part of what the quantity aggregates are distinguished by.
theorem clash?_borrowed (h : Stocked d.assets d) (hi : item ∈ d.assetInventoryItems) :
    d.assetInventoryItems.clash? { item with status := .borrowed } = none ↔
      ¬HasBorrowedTwin d item := by
  have hdesc : Redescribed item { item with status := .borrowed } := rfl
  refine Table.clash?_eq_none.trans ?_
  constructor
  case mp =>
    rintro hc ⟨hm, r, hr, hk, hmr, ha, hb, hl, hs⟩
    refine (conflict?_eq_none_iff hi hr hk hdesc .refl).mp (hc r hr hk) ?_
    have hlab := h.laboratoryId_eq hi hr ha.symm
    have hb := congrArg (·.getD "") hb.symm
    exact ⟨hm, hmr, hlab, ha.symm, hb, hl.symm, hs.symm⟩
  case mpr =>
    intro hn r hr hk
    refine (conflict?_eq_none_iff hi hr hk hdesc .refl).mpr fun hs => ?_
    have hb := (h.items r hr).batchNumber.getD_inj (h.items item hi).batchNumber hs.batchNumber.symm
    exact hn ⟨hs.quantity, r, hr, hk, hs.quantity', hs.assetId.symm, hb, hs.locationId.symm,
      hs.status.symm⟩

theorem wp_markInventoryItemBorrowed {R : ApiError → Prop} {Q : Unit → Database → Prop}
    (h : Stocked d.assets d) (hi : item ∈ d.assetInventoryItems)
    (hq : ¬HasBorrowedTwin d item → ∀ d',
      d' = { d with assetInventoryItems := d'.assetInventoryItems } →
      { item with status := .borrowed } ∈ d'.assetInventoryItems → Q () d')
    (hr : HasBorrowedTwin d item →
      R (.unexpected "Failed to mark the inventory item as borrowed")) :
    (markInventoryItemBorrowed item.inventoryItemId).wp (fun _ => True) R Q d := by
  have hf : d.assetInventoryItems.find? item.inventoryItemId = some item := Table.find?_key hi
  refine wp_bind.mpr <| wp_selectForUpdate.mpr ?_
  rw [hf]
  refine wp_exec.mpr ⟨fun d' ha => ⟨trivial, ?_⟩, fun c ha => ?_⟩
  case refine_1 =>
    obtain ⟨hu, hd⟩ := apply_updateItem.mp ha
    have hn := (clash?_borrowed h hi).mp (Table.update_eq_ok.mp hu).left
    exact hq hn d' hd <| (Table.mem_update hu).mpr <| .inr ⟨rfl, item, hi, rfl⟩
  case refine_2 =>
    by_cases hn : HasBorrowedTwin d item
    case pos => exact hr hn
    case neg =>
      obtain ⟨t, ht⟩ := Table.exists_update ((clash?_borrowed h hi).mpr hn)
      have ha' : d.apply (.assetInventoryItems (.update { item with status := .borrowed })) =
          .ok { d with assetInventoryItems := t } :=
        apply_updateItem.mpr ⟨ht, rfl⟩
      exact nomatch ha'.symm.trans ha

-- A request that the actor may approve: the item is there to be borrowed.
structure Approvable (d : Database) (ctx : LaboratoryContext) (request : BorrowRequestRow)
    (item : InventoryItemRow) : Prop where
  filed : request ∈ d.borrowRequests
  pending : request.status = .pending
  stored : item ∈ d.assetInventoryItems
  inventoryItemId : item.inventoryItemId = request.inventoryItemId
  available : item.status = .available
  laboratoryId : request.localLaboratoryId = ctx.laboratoryId
  permitted : validateResolverActor ctx.actor ctx.laboratoryId = .ok ()
  reviewer : ∃ u ∈ d.users, u.userId = ctx.actor.userId

variable {ctx : LaboratoryContext} {request : BorrowRequestRow} {decision : String}
  {note : Option String} {R : ApiError → Prop}

theorem fetchInventoryItem?_of_mem (h : Stocked d.assets d) (hi : item ∈ d.assetInventoryItems) :
    fetchInventoryItem? d item.inventoryItemId = some item := by
  obtain ⟨a, ha, _⟩ := (h.items item hi).asset
  exact Option.filter_eq_some_iff.mpr ⟨Table.find?_key hi, by simp [HasAsset, ha]⟩

theorem wp_updateBorrowRequestDecision {status : BorrowRequestStatus} {username : String}
    {userType : UserType} {Q : Unit → Database → Prop} (hs : ∀ s ∈ note, StorableText s) (hr : request ∈ d.borrowRequests)
    (hl : request.localLaboratoryId = ctx.laboratoryId)
    (hi : fetchInventoryItem? d request.inventoryItemId = some item)
    (hq : ∀ d', d' = { d with borrowRequests := d'.borrowRequests } → Q () d') : (do
      updateBorrowRequestDecision request.borrowRequestId ctx.laboratoryId status ctx.actor.userId
        username userType note
      let _ ← requireBorrowRequest ctx.laboratoryId request.borrowRequestId :
      Transaction Unit).wp (fun _ => True) R Q d := by
  refine wp_bind.mpr <| wp_bind.mpr <| wp_read.mpr <| wp_bind.mpr <| Transaction.wp_bindTexts.mpr
    ⟨fun _ => ?_, fun hn => absurd (fun s hm => hs s (Option.mem_toList.mp hm)) hn⟩
  refine wp_updateBorrowRequestRow hr rfl hl rfl fun d' hd hm => ?_
  have hf : fetchInventoryItem? d' request.inventoryItemId = some item := by
    rw [hd]
    exact hi
  refine wp_bind.mpr <| wp_requireBorrowRequest.mpr ⟨fun _ _ => hq d' hd, fun hn => ?_⟩
  have hfound := fetchBorrowRequest?_eq_some.mpr ⟨hm, rfl, hl, hf ▸ rfl⟩
  exact nomatch hfound.symm.trans hn

-- All that can keep the approval from going through is a twin of the item.
theorem wp_resolveBorrowRequest {Q : Unit → Database → Prop} (h : Invariant d)
    (ha : Approvable d ctx request item) (hd : parseDecision decision = .ok .approved)
    (hs : ∀ s ∈ normalizeOptionalText note, StorableText s)
    (hq : ¬HasBorrowedTwin d item → ∀ d',
      { item with status := .borrowed } ∈ d'.assetInventoryItems → Q () d')
    (hr : HasBorrowedTwin d item →
      R (.unexpected "Failed to mark the inventory item as borrowed")) :
    (resolveBorrowRequest ctx request.borrowRequestId decision note).wp (fun _ => True) R Q d := by
  have hitem := fetchInventoryItem?_of_mem h.stocked ha.stored
  have hfound : fetchBorrowRequest? d ctx.laboratoryId request.borrowRequestId = some request :=
    fetchBorrowRequest?_eq_some.mpr
      ⟨ha.filed, rfl, ha.laboratoryId, ha.inventoryItemId ▸ hitem ▸ rfl⟩
  obtain ⟨u, hu, hk⟩ := ha.reviewer
  have huser : d.users.find? ctx.actor.userId = some u := Table.find?_eq_some.mpr ⟨hu, hk⟩
  have hmark : (markInventoryItemBorrowed item.inventoryItemId).wp (fun _ => True) R
      (fun _ d₁ => (do
        updateBorrowRequestDecision request.borrowRequestId ctx.laboratoryId .approved
          ctx.actor.userId u.username u.userType (normalizeOptionalText note)
        let _ ← requireBorrowRequest ctx.laboratoryId request.borrowRequestId :
        Transaction Unit).wp (fun _ => True) R Q d₁) d := by
    refine wp_markInventoryItemBorrowed h.stocked ha.stored (fun hn d₁ hd₁ hm => ?_) hr
    have hitem₁ : fetchInventoryItem? d₁ request.inventoryItemId =
        some { item with status := .borrowed } := by
      obtain ⟨a, hasset, _⟩ := (h.stocked.items item ha.stored).asset
      refine Option.filter_eq_some_iff.mpr ⟨Table.find?_eq_some.mpr ⟨hm, ha.inventoryItemId⟩, ?_⟩
      rw [hd₁]
      simp [HasAsset, hasset]
    refine wp_updateBorrowRequestDecision hs ?_ ha.laboratoryId hitem₁ fun d₂ hd₂ => ?_
    case refine_1 =>
      rw [hd₁]
      exact ha.filed
    case refine_2 =>
      refine hq hn d₂ ?_
      rw [hd₂]
      exact hm
  refine wp_bind.mpr <| wp_ofExcept.mpr
    ⟨fun _ _ => ?_, fun _ he => nomatch ha.permitted.symm.trans he⟩
  refine wp_bind.mpr <| wp_ofExcept.mpr
    ⟨fun status hs => ?_, fun _ he => nomatch hd.symm.trans he⟩
  obtain rfl := Except.ok.inj <| hd.symm.trans hs
  refine wp_bind.mpr <| wp_requireBorrowRequest.mpr
    ⟨fun r hr => ?_, fun hn => nomatch hfound.symm.trans hn⟩
  obtain rfl := Option.some.inj <| hfound.symm.trans hr
  refine wp_bind.mpr <| wp_require.mpr ⟨fun _ => ?_, fun hn => absurd ha.pending hn⟩
  refine wp_bind.mpr <| wp_selectForUpdate.mpr ?_
  rw [← ha.inventoryItemId, hitem]
  refine wp_bind.mpr <| wp_require.mpr
    ⟨fun _ => ?_, fun hn => (hn fun h => h.right ha.available).elim⟩
  refine wp_bind.mpr <| wp_fetch.mpr ⟨fun reviewer hreviewer => ?_, fun hn => ?_⟩
  case refine_1 =>
    obtain ⟨u', hu', rfl⟩ := Option.map_eq_some_iff.mp hreviewer
    obtain rfl := Option.some.inj <| huser.symm.trans hu'
    exact wp_bind.mpr hmark
  case refine_2 => exact nomatch huser.symm.trans (Option.map_eq_none_iff.mp hn)

-- A twin keeps the approval from going through.
theorem run_resolveBorrowRequest (h : Invariant d) (ha : Approvable d ctx request item)
    (hd : parseDecision decision = .ok .approved)
    (hs : ∀ s ∈ normalizeOptionalText note, StorableText s) (ht : HasBorrowedTwin d item) :
    (resolveBorrowRequest ctx request.borrowRequestId decision note).run d =
      .error (.unexpected "Failed to mark the inventory item as borrowed") := by
  have hw : (resolveBorrowRequest ctx request.borrowRequestId decision note).wp (fun _ => True)
      (· = .unexpected "Failed to mark the inventory item as borrowed") (fun _ _ => False) d :=
    wp_resolveBorrowRequest h ha hd hs (fun hn _ _ => hn ht) fun _ => rfl
  cases hr : (resolveBorrowRequest ctx request.borrowRequestId decision note).run d
  case ok r => exact (wp_run hw hr).elim
  case error e =>
    obtain rfl := (wp_iff_run.mp hw).right.right e hr
    rfl

theorem approval_succeeds_iff [TextFormats] [UnicodeSegmentation] [ScanOrder] (h : Reachable d)
    (ha : Approvable d ctx request item) (hd : parseDecision decision = .ok .approved)
    (hs : ∀ s ∈ normalizeOptionalText note, StorableText s) :
    (∃ d', (resolveBorrowRequest ctx request.borrowRequestId decision note).run d = .ok ((), d') ∧
      { item with status := .borrowed } ∈ d'.assetInventoryItems) ↔ ¬HasBorrowedTwin d item := by
  constructor
  case mp =>
    rintro ⟨d', hrun, _⟩ ht
    exact nomatch hrun.symm.trans (run_resolveBorrowRequest h.invariant ha hd hs ht)
  case mpr =>
    intro hn
    have hw : (resolveBorrowRequest ctx request.borrowRequestId decision note).wp
        (fun _ => True) (fun _ => False)
        (fun _ d' => { item with status := .borrowed } ∈ d'.assetInventoryItems) d :=
      wp_resolveBorrowRequest h.invariant ha hd hs (fun _ _ hm => hm) fun ht => (hn ht).elim
    obtain ⟨_, d', hrun, hm⟩ := wp_total hw
    exact ⟨d', hrun, hm⟩

section Examples

def guest : LaboratoryContext := ⟨⟨3, .guest, some 1⟩, 1⟩

-- A guest asks for the bottles that are available.
def bottle : InventoryItemRow where
  inventoryItemId := 61
  assetId := 60
  laboratoryId := 1
  trackingMode := .quantity
  serialNumber := none
  batchNumber := none
  quantityOnHand := 2
  quantityAllocated := 0
  locationId := none
  status := .available
  publicNotes := none
  internalNotes := none

def bottleRequest : BorrowRequestRow where
  borrowRequestId := 70
  localLaboratoryId := 1
  inventoryItemId := 61
  requesterUserId := some 3
  requesterUsername := "guest"
  requesterUserType := .guest
  requesterGuestLinkId := none
  requestNote := none
  status := .pending
  reviewedByUserId := none
  reviewedByUsername := none
  reviewedByUserType := none
  reviewedAt := none
  decisionNote := none
  createdAt := 0

def ask : Call :=
  .borrow (.create 61 none none 70)

def shelved : Database :=
  let _ := ScanOrder.stored
  let _ := tallied
  let _ := UnicodeSegmentation.characters
  (ask.handle guest).after <| ((delivery "available" 61).handle admin).after storeroom

theorem parseDecision_approved : parseDecision "approved" = .ok .approved := by
  rfl

theorem approvable_bottle (hr : d.borrowRequests.rows = [bottleRequest])
    (hi : bottle ∈ d.assetInventoryItems.rows) (hu : d.users.rows = Users.office.users.rows) :
    Approvable d admin bottleRequest bottle where
  filed := Table.mem_def.mpr <| hr ▸ .head _
  pending := rfl
  stored := Table.mem_def.mpr hi
  inventoryItemId := rfl
  available := rfl
  laboratoryId := rfl
  permitted := rfl
  reviewer := ⟨Users.officeUser 2 "admin" .labAdmin (some 1), Table.mem_def.mpr <| by
    simp [hu, Users.office], rfl⟩

theorem rows_shelved :
    shelved.borrowRequests.rows = [bottleRequest] ∧ shelved.assetInventoryItems.rows = [bottle] ∧
    shelved.users.rows = Users.office.users.rows := by
  decide +kernel

theorem bottle_shelved : Approvable shelved admin bottleRequest bottle := by
  obtain ⟨hr, hi, hu⟩ := rows_shelved
  exact approvable_bottle hr (hi ▸ .head _) hu

theorem approval_succeeds_iff_shelved :
    let _ := ScanOrder.stored
    let _ := tallied
    let _ := UnicodeSegmentation.characters
    (∃ d', (resolveBorrowRequest admin bottleRequest.borrowRequestId "approved" none).run shelved =
        .ok ((), d') ∧
      { bottle with status := .borrowed } ∈ d'.assetInventoryItems) ↔
      ¬HasBorrowedTwin shelved bottle := by
  let _ := ScanOrder.stored
  let _ := tallied
  let _ := UnicodeSegmentation.characters
  have h : Reachable storeroom := .init rfl rfl rfl
  have h := (h.call admin (delivery "available" 61)).call guest ask
  have h : Reachable shelved := h
  exact approval_succeeds_iff h bottle_shelved parseDecision_approved nofun

-- Others of the same kind have been borrowed before.
def lent : InventoryItemRow :=
  { bottle with inventoryItemId := 62, status := .borrowed }

def lentOut : Database :=
  let _ := ScanOrder.stored
  let _ := tallied
  let _ := UnicodeSegmentation.characters
  (ask.handle guest).after delivered

theorem rows_lentOut :
    lentOut.borrowRequests.rows = [bottleRequest] ∧
    lentOut.assetInventoryItems.rows = [bottle, lent] ∧
    lentOut.users.rows = Users.office.users.rows := by
  decide +kernel

theorem bottle_lentOut : Approvable lentOut admin bottleRequest bottle := by
  obtain ⟨hr, hi, hu⟩ := rows_lentOut
  exact approvable_bottle hr (hi ▸ .head _) hu

theorem hasBorrowedTwin_lentOut : HasBorrowedTwin lentOut bottle := by
  obtain ⟨_, hi, _⟩ := rows_lentOut
  exact ⟨rfl, lent, Table.mem_def.mpr <| hi ▸ .tail _ (.head _), by decide,
    rfl, rfl, rfl, rfl, rfl⟩

theorem not_approved_lentOut :
    let _ := ScanOrder.stored
    let _ := tallied
    let _ := UnicodeSegmentation.characters
    Reachable lentOut ∧ Approvable lentOut admin bottleRequest bottle ∧
    (resolveBorrowRequest admin bottleRequest.borrowRequestId "approved" none).run lentOut =
      .error (.unexpected "Failed to mark the inventory item as borrowed") := by
  let _ := ScanOrder.stored
  let _ := tallied
  let _ := UnicodeSegmentation.characters
  have h : Reachable storeroom := .init rfl rfl rfl
  have h := (h.call admin (delivery "available" 61)).call admin (delivery "borrowed" 62)
  have h : Reachable lentOut := h.call guest ask
  refine ⟨h, bottle_lentOut, ?_⟩
  exact run_resolveBorrowRequest h.invariant bottle_lentOut parseDecision_approved nofun
    hasBorrowedTwin_lentOut

end Examples

end BorrowRequests

end LabInventory
