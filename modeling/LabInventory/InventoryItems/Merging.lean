import Mathlib.Logic.Relation
import LabInventory.InventoryItems.Stock
import LabInventory.Library.Effects

open Sql Program

namespace LabInventory

namespace InventoryItems

variable {d d' : Database} {ctx : LaboratoryContext} {r r₁ r₂ : InventoryItemRow} {id : Uuid}

-- What makes two items mergeable makes up an entry of the unique index on quantity aggregates.
theorem eq_of_mergeable (h₁ : r₁ ∈ d.assetInventoryItems) (h₂ : r₂ ∈ d.assetInventoryItems)
    (hq₁ : validateQuantityItem r₁ = .ok ()) (hq₂ : validateQuantityItem r₂ = .ok ())
    (hm : validateMergeCompatible r₁ r₂ = .ok ()) : r₁ = r₂ := by
  have hq₁ : r₁.trackingMode = .quantity := Except.check_eq_ok.mp hq₁
  have hq₂ : r₂.trackingMode = .quantity := Except.check_eq_ok.mp hq₂
  obtain ⟨hl, ha, hb, hp, hs⟩ := Except.check_eq_ok.mp hm
  refine Table.eq_of_clash (.tail _ (.head _)) h₁ h₂ ⟨?_, ?_⟩
  case refine_1 => simp [hq₁]
  case refine_2 => simp [hq₁, hq₂, hl, ha, hb, hp, hs]

theorem findRow_eq_ok {rows : List InventoryItemRow} {label : String}
    (h : findRow rows id label = .ok r) : r ∈ rows ∧ r.inventoryItemId = id := by
  unfold findRow at h
  split at h
  case h_1 hf =>
    obtain rfl := Except.ok.inj h
    exact ⟨List.mem_of_find?_eq_some hf, by simpa using List.find?_some hf⟩
  case h_2 => cases h

section

variable [ScanOrder]

-- Nothing is ever written.
theorem performs_mergeInventoryItems {P : Database → Write → Prop} {payload : MergeJsonData} :
    (mergeInventoryItems ctx payload).performs P (fun _ _ => False) d := by
  refine readOnly_ofExcept.performs_bind_all fun command => ?_
  refine requirePermissions_readOnly.performs_bind_all fun _ => ?_
  refine fetchInventoryItemsForUpdate_readOnly.performs_bind ?_
  refine wlp_fetchInventoryItemsForUpdate fun rows hrows _ => ?_
  refine readOnly_ofExcept.performs_bind_all fun _ => ?_
  refine readOnly_ofExcept.performs_bind <| wp_ofExcept.mpr ⟨fun target ht => ?_, fun _ _ => trivial⟩
  refine readOnly_ofExcept.performs_bind <| wp_ofExcept.mpr ⟨fun _ hqt => ?_, fun _ _ => trivial⟩
  refine readOnly_ofExcept.performs_bind <| wp_ofExcept.mpr ⟨fun sources hs => ?_, fun _ _ => trivial⟩
  obtain ⟨ht, htid⟩ := findRow_eq_ok ht
  -- There is a source, and it differs from the target.
  obtain ⟨id, ids, hids⟩ := List.exists_cons_of_ne_nil command.sourceInventoryItemIds.ne_nil
  simp only [hids, List.mapM_cons, Except.bind_eq_ok, findSource] at hs
  obtain ⟨_, ⟨source, hf, _, hqs, _, hm, _⟩, _⟩ := hs
  obtain ⟨hs, hsid⟩ := findRow_eq_ok hf
  have hmem {r} (hr : r ∈ rows) : r ∈ d.assetInventoryItems :=
    (Table.find?_eq_some.mp <| hrows r hr).left
  have he : target = source := eq_of_mergeable (hmem ht) (hmem hs) hqt hqs hm
  have hn : target.inventoryItemId ∉ command.sourceInventoryItemIds.values :=
    htid ▸ command.target_not_mem
  exact (hn (hids ▸ he ▸ hsid ▸ .head _)).elim

variable [UnicodeSegmentation]

def UpdateJsonData.isPlacement (payload : UpdateJsonData) : Prop :=
  payload.serialNumber = none ∧ payload.quantityOnHand = none ∧ payload.quantityAllocated = none ∧
  payload.publicNotes = none ∧ payload.internalNotes = none

-- A successful patch of the batch, the location or the status of an item.
def Places (d d' : Database) : Prop :=
  ∃ ctx id payload, payload.isPlacement ∧ (updateInventoryItem ctx id payload).run d = .ok ((), d')

def Live (d : Database) (target source : InventoryItemRow) : Prop :=
  ∃ d', Relation.ReflTransGen Places d d' ∧ ∃ ctx d'',
    (mergeInventoryItems ctx ⟨target.inventoryItemId, [source.inventoryItemId]⟩).run d' =
      .ok ((), d'')

theorem not_live : ¬Live d r₁ r₂ := by
  rintro ⟨d', _, ctx, d'', hr⟩
  exact wp_run (wlp_of_performs <| performs_mergeInventoryItems (P := fun _ _ => True)) hr

end

section Examples

def stockroom : Database where
  __ := Database.empty
  laboratories := {{ laboratoryId := 1, name := "Laboratory" }}
  assets := {{
    assetId := 60
    laboratoryId := 1
    categoryId := none
    trackingMode := .quantity
    name := "Reagent"
    model := none
    manufacturer := none
    inventoryUnitId := 8
    publicNotes := none
    internalNotes := none
  }}

def keeper : LaboratoryContext where
  actor := { userId := 1, userType := .labAdmin, laboratoryId := some 1 }
  laboratoryId := 1

def batch (batchNumber : String) : CreateJsonData where
  serialItems := none
  serialNumbers := none
  count := none
  batchNumber := some batchNumber
  quantityOnHand := some 2
  quantityAllocated := none
  locationId := none
  status := none
  publicNotes := none
  internalNotes := none
  attachments := none

-- Two batches of the same reagent.
def batched [UnicodeSegmentation] : Database :=
  (createInventoryItems keeper 60 (batch "B") (fun _ => 62) fun _ _ => 0).after <|
    (createInventoryItems keeper 60 (batch "A") (fun _ => 61) fun _ _ => 0).after stockroom

theorem batches_not_live :
    let _ := UnicodeSegmentation.characters
    let _ := ScanOrder.stored
    ∃ r₁ ∈ batched.assetInventoryItems, ∃ r₂ ∈ batched.assetInventoryItems,
      r₁ ≠ r₂ ∧ r₁.assetId = r₂.assetId ∧ r₁.trackingMode = .quantity ∧
      r₂.trackingMode = .quantity ∧ ¬Live batched r₁ r₂ := by
  let _ := UnicodeSegmentation.characters
  let _ := ScanOrder.stored
  have hb : batched.assetInventoryItems.rows.map
      (fun r => (r.inventoryItemId, r.assetId, r.trackingMode)) =
        [(61, 60, .quantity), (62, 60, .quantity)] := by
    decide +kernel
  obtain ⟨r₁, _, hrows, h₁, hb⟩ := List.map_eq_cons_iff.mp hb
  obtain ⟨r₂, _, rfl, h₂, _⟩ := List.map_eq_cons_iff.mp hb
  simp only [Prod.mk.injEq] at h₁ h₂
  have hm₁ : r₁ ∈ batched.assetInventoryItems.rows := hrows ▸ .head _
  have hm₂ : r₂ ∈ batched.assetInventoryItems.rows := hrows ▸ .tail _ (.head _)
  refine ⟨r₁, hm₁, r₂, hm₂, ?_, h₁.right.left.trans h₂.right.left.symm, h₁.right.right,
    h₂.right.right, ?_⟩
  case refine_1 =>
    rintro rfl
    exact absurd (h₁.left.symm.trans h₂.left) (by decide)
  case refine_2 =>
    rintro ⟨_, _, _, _, hr⟩
    exact wp_run (wlp_of_performs <| performs_mergeInventoryItems (P := fun _ _ => True)) hr

end Examples

end InventoryItems

end LabInventory
