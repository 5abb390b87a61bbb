import LabInventory.InventoryItems.Effects
import LabInventory.Library.Bulk

open Sql Program

namespace LabInventory

namespace InventoryItems

variable {t : Table InventoryItemRow} {r r' r₀ r₀' : InventoryItemRow}

-- Quantities of an asset that are kept in one place and have the same status are one item.
structure SameAggregate (r r' : InventoryItemRow) : Prop where
  quantity : r.trackingMode = .quantity
  quantity' : r'.trackingMode = .quantity
  laboratoryId : r.laboratoryId = r'.laboratoryId
  assetId : r.assetId = r'.assetId
  batchNumber : r.batchNumber.getD "" = r'.batchNumber.getD ""
  locationId : r.locationId.getD nilUuid = r'.locationId.getD nilUuid
  status : r.status = r'.status

theorem SameAggregate.symm (h : SameAggregate r r') : SameAggregate r' r where
  quantity := h.quantity'
  quantity' := h.quantity
  laboratoryId := h.laboratoryId.symm
  assetId := h.assetId.symm
  batchNumber := h.batchNumber.symm
  locationId := h.locationId.symm
  status := h.status.symm

-- What can be said about an item differently, without it being another one.
def Redescribed (r₀ r : InventoryItemRow) : Prop :=
  r = { r₀ with
    batchNumber := r.batchNumber
    quantityOnHand := r.quantityOnHand
    quantityAllocated := r.quantityAllocated
    locationId := r.locationId
    status := r.status
    publicNotes := r.publicNotes
    internalNotes := r.internalNotes
  }

theorem Redescribed.refl : Redescribed r r :=
  rfl

-- The serial numbers of different items differ anyway.
theorem conflict?_eq_none_iff (h₀ : r₀ ∈ t) (h₀' : r₀' ∈ t)
    (hk : r₀'.inventoryItemId ≠ r₀.inventoryItemId) (hr : Redescribed r₀ r)
    (hr' : Redescribed r₀' r') : conflict? r r' = none ↔ ¬SameAggregate r r' := by
  refine conflict?_eq_none.trans ?_
  constructor
  case mp =>
    intro hn h
    refine hn _ (.tail _ (.head _)) ⟨?_, ?_⟩
    case refine_1 => simp [h.quantity]
    case refine_2 =>
      simp only [h.quantity, h.quantity', h.laboratoryId, h.assetId, h.batchNumber, h.locationId,
        h.status]
  case mpr =>
    intro hn ix hi hc
    obtain rfl | hi := List.mem_cons.mp hi
    case inl =>
      rw [hr, hr'] at hc
      exact hk <| congrArg (·.inventoryItemId) (Table.eq_of_clash (.head _) h₀' h₀ hc.symm)
    case inr =>
      obtain rfl := List.mem_singleton.mp hi
      obtain ⟨hs, he⟩ := hc
      have hm : r.trackingMode = .quantity := by
        by_contra hm
        exact hs (if_neg hm)
      have hm' : r'.trackingMode = .quantity := by
        by_contra hm'
        exact hs (he.trans (if_neg hm'))
      simp only [hm, hm', if_true, Option.some_inj, Prod.mk.injEq] at he
      obtain ⟨hl, ha, hb, hloc, hst⟩ := he
      exact hn ⟨hm, hm', hl, ha, hb, hloc, hst⟩

end InventoryItems

end LabInventory
