import LabInventory.InventoryItems.Basic

open Sql Program

namespace LabInventory

namespace InventoryItems

-- What makes up a sound item, given the assets of its database.
structure Accounted (assets : Table AssetRow) (r : InventoryItemRow) : Prop where
  allocated : 0 ≤ r.quantityAllocated
  onHand : r.quantityAllocated ≤ r.quantityOnHand
  asset : ∃ a, assets.find? r.assetId = some a ∧ a.laboratoryId = r.laboratoryId ∧
    a.trackingMode = r.trackingMode
  serialized : r.trackingMode = .serialized → (∃ s ∈ r.serialNumber, Text.trim s ≠ "") ∧
    r.quantityOnHand = 1 ∧ (r.quantityAllocated = 0 ∨ r.quantityAllocated = 1)
  quantity : r.trackingMode = .quantity → r.serialNumber = none
  batchNumber : Normalized r.batchNumber

-- The checks that the database makes on the rows of `asset_inventory_items`.
structure Checked (r : InventoryItemRow) : Prop where
  onHand : 0 ≤ r.quantityOnHand
  allocated : 0 ≤ r.quantityAllocated
  allocated_le : r.quantityAllocated ≤ r.quantityOnHand
  batchNumber : ∀ s ∈ r.batchNumber, Text.btrim s ≠ ""
  mode : (r.trackingMode = .serialized ∧ (∃ s ∈ r.serialNumber, Text.btrim s ≠ "") ∧
      r.quantityOnHand = 1 ∧ (r.quantityAllocated = 0 ∨ r.quantityAllocated = 1)) ∨
    (r.trackingMode = .quantity ∧ r.serialNumber = none)

theorem Accounted.checked {assets r} (h : Accounted assets r) : Checked r where
  onHand := h.allocated.trans h.onHand
  allocated := h.allocated
  allocated_le := h.onHand
  batchNumber := h.batchNumber.btrim_ne_empty
  mode := by
    cases hm : r.trackingMode
    case serialized =>
      obtain ⟨⟨s, hs, hn⟩, ho, ha⟩ := h.serialized hm
      exact .inl ⟨rfl, ⟨s, hs, Text.btrim_ne_empty hn⟩, ho, ha⟩
    case quantity => exact .inr ⟨rfl, h.quantity hm⟩

-- Changing where an item is, and how it is described, does not affect its soundness.
theorem Accounted.describe {assets r} (h : Accounted assets r) {batchNumber locationId status}
    {publicNotes internalNotes} (hb : Normalized batchNumber) :
    Accounted assets { r with batchNumber, locationId, status, publicNotes, internalNotes } where
  allocated := h.allocated
  onHand := h.onHand
  asset := h.asset
  serialized := h.serialized
  quantity := h.quantity
  batchNumber := hb

theorem Accounted.requantify {assets r} (h : Accounted assets r) (hm : r.trackingMode = .quantity)
    {quantityOnHand quantityAllocated : ℚ} (ha : 0 ≤ quantityAllocated)
    (ho : quantityAllocated ≤ quantityOnHand) :
    Accounted assets { r with quantityOnHand, quantityAllocated } where
  allocated := ha
  onHand := ho
  asset := h.asset
  serialized hs := by simp [hm] at hs
  quantity := h.quantity
  batchNumber := h.batchNumber

-- All items are sound with respect to the given assets.
structure Stocked (assets : Table AssetRow) (d : Database) : Prop where
  same : d.assets = assets
  items : ∀ r ∈ d.assetInventoryItems, Accounted assets r

variable {assets : Table AssetRow} {d d' : Database} {id : Uuid} {r : InventoryItemRow}

theorem Stocked.of_find? (h : Stocked assets d) (hr : d.assetInventoryItems.find? id = some r) :
    Accounted assets r :=
  h.items r (Table.find?_eq_some.mp hr).left

-- Items belong to the laboratory of their asset.
theorem Stocked.laboratoryId_eq {r' : InventoryItemRow} (h : Stocked assets d)
    (hr : r ∈ d.assetInventoryItems) (hr' : r' ∈ d.assetInventoryItems)
    (ha : r.assetId = r'.assetId) : r.laboratoryId = r'.laboratoryId := by
  obtain ⟨a, hf, hl, _⟩ := (h.items r hr).asset
  obtain ⟨a', hf', hl', _⟩ := (h.items r' hr').asset
  obtain rfl := Option.some.inj <| hf.symm.trans (ha ▸ hf')
  exact hl.symm.trans hl'

-- It suffices that the items which are written are sound.
theorem Stocked.apply {w : Write} (h : Stocked assets d) (ha : apply w d = .ok d')
    (hn : ∀ w', w ≠ .assets w')
    (hw : ∀ r, w = .assetInventoryItems (.insert r) ∨ w = .assetInventoryItems (.update r) →
      Accounted assets r) : Stocked assets d' where
  same := (Database.assets_of_apply ha hn).trans h.same
  items r hr := by
    by_cases hi : ∃ w', w = .assetInventoryItems w'
    case pos =>
      obtain ⟨w', rfl⟩ := hi
      have hd := (Database.applied_of_apply ha).left
      obtain hr | rfl | rfl := Table.mem_write hd hr
      case inl => exact h.items r hr
      case inr.inl => exact hw r (.inl rfl)
      case inr.inr => exact hw r (.inr rfl)
    case neg =>
      have hd := Database.assetInventoryItems_of_apply ha (fun w' he => hi ⟨w', he⟩) hn
      exact h.items r (hd ▸ hr)

theorem fetchInventoryItem?_eq_some (h : fetchInventoryItem? d id = some r) :
    d.assetInventoryItems.find? id = some r :=
  (Option.filter_eq_some_iff.mp h).left

theorem fetchInventoryItemForUpdate_readOnly : (fetchInventoryItemForUpdate id).ReadOnly :=
  readOnly_selectForUpdate

theorem rereadInventoryItem_readOnly {what} : (rereadInventoryItem id what).ReadOnly := by
  refine fetchInventoryItemForUpdate_readOnly.bind fun r => ?_
  cases r <;> trivial

theorem maxGeneratedSerialNumber_readOnly {assetId} : (maxGeneratedSerialNumber assetId).ReadOnly :=
  readOnly_read.bind fun _ => readOnly_require.bind fun _ => trivial

theorem findQuantityAggregateForUpdate_readOnly {laboratoryId assetId batchNumber locationId}
    {status exclude} : (findQuantityAggregateForUpdate laboratoryId assetId batchNumber locationId
      status exclude).ReadOnly := by
  refine readOnly_read.bind fun r => ?_
  cases r
  case none => trivial
  case some => exact fun _ => trivial

-- What is locked are different items.
theorem wlp_fetchInventoryItemsForUpdate {ids : List Uuid}
    {Q : List InventoryItemRow → Database → Prop}
    (hq : ∀ rows, (∀ r ∈ rows, d.assetInventoryItems.find? r.inventoryItemId = some r) →
      (rows.map (·.inventoryItemId)).Nodup → Q rows d) :
    (fetchInventoryItemsForUpdate ids).wlp Q d := by
  refine wp_selectAllForUpdate.mpr <| hq _ (fun r hr => ?_) ?_
  case refine_1 =>
    obtain ⟨id, _, hf⟩ := List.mem_filterMap.mp hr
    exact Table.find?_key (Table.find?_eq_some.mp <| fetchInventoryItem?_eq_some hf).left
  case refine_2 =>
    have hk : ∀ id id' k, k ∈ (fetchInventoryItem? d id).map (·.inventoryItemId) →
        k ∈ (fetchInventoryItem? d id').map (·.inventoryItemId) → id = id' := by
      have hkey {id k} (h : k ∈ (fetchInventoryItem? d id).map (·.inventoryItemId)) : k = id := by
        obtain ⟨r, hr, rfl⟩ := Option.map_eq_some_iff.mp h
        exact (Table.find?_eq_some.mp <| fetchInventoryItem?_eq_some hr).right
      exact fun _ _ _ h h' => (hkey h).symm.trans (hkey h')
    rw [List.map_filterMap]
    refine List.Nodup.filterMap hk <| (List.perm_insertionSort _ _).nodup_iff.mpr ?_
    exact List.pairwise_map.mpr <| List.Pairwise.filter _ d.assetInventoryItems.keyed

theorem fetchInventoryItemsForUpdate_readOnly {ids : List Uuid} :
    (fetchInventoryItemsForUpdate ids).ReadOnly :=
  readOnly_selectAllForUpdate

end InventoryItems

end LabInventory
