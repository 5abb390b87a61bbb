import Mathlib.Algebra.Order.Field.Rat
import Mathlib.Data.List.Nodup
import LabInventory.Domain.Text

namespace LabInventory

open Text

inductive AssetTrackingMode
  | serialized
  | quantity
deriving DecidableEq

inductive InventoryStatus
  | available
  | reserved
  | borrowed
  | retired
  | lost
  | consumed
deriving DecidableEq

namespace InventoryStatus

def asStr : InventoryStatus → String
  | available => "available"
  | reserved => "reserved"
  | borrowed => "borrowed"
  | retired => "retired"
  | lost => "lost"
  | consumed => "consumed"

def parse (s : String) : Except String InventoryStatus :=
  match trim s with
  | "available" => .ok available
  | "reserved" => .ok reserved
  | "borrowed" => .ok borrowed
  | "retired" => .ok retired
  | "lost" => .ok lost
  | "consumed" => .ok consumed
  | _ => .error s!"{s} is not a valid asset inventory status."

theorem parse_asStr (s : InventoryStatus) : parse s.asStr = .ok s := by
  cases s <;> rfl

end InventoryStatus

structure InventoryItemSerialNumber where
  val : String
  trimmed : trim val = val
  ne_empty : val ≠ ""
deriving DecidableEq

namespace InventoryItemSerialNumber

def forbiddenCharacters : List Char :=
  ['/', '\\', '"', '<', '>', '\x7b', '\x7d']

def parse [UnicodeSegmentation] (s : String) : Except String InventoryItemSerialNumber :=
  let isTooLong := UnicodeSegmentation.graphemes (trim s) > 256
  let containsForbiddenCharacters := (trim s).toList.any forbiddenCharacters.contains
  if h : trim s = "" then
    .error s!"{s} is not a valid inventory item serial number."
  else if isTooLong ∨ containsForbiddenCharacters then
    .error s!"{s} is not a valid inventory item serial number."
  else
    .ok ⟨trim s, trim_idempotent, h⟩

end InventoryItemSerialNumber

def validateQuantities (quantityOnHand quantityAllocated : ℚ) : Except String Unit :=
  if quantityOnHand < 0 then
    .error "quantity_on_hand must be non-negative"
  else if quantityAllocated < 0 then
    .error "quantity_allocated must be non-negative"
  else if quantityAllocated > quantityOnHand then
    .error "quantity_allocated cannot exceed quantity_on_hand"
  else
    .ok ()

theorem validateQuantities_eq_ok {onHand allocated : ℚ} :
    validateQuantities onHand allocated = .ok () ↔ 0 ≤ allocated ∧ allocated ≤ onHand := by
  unfold validateQuantities
  split_ifs <;> grind

-- Quantities are always expressed in the inventory unit of the owning asset.
structure NewInventoryItem where
  serialNumber : Option InventoryItemSerialNumber
  batchNumber : Option String
  quantityOnHand : ℚ
  quantityAllocated : ℚ
  locationId : Option Uuid
  status : InventoryStatus
  publicNotes : Option String
  internalNotes : Option String

namespace NewInventoryItem

def serialized (serialNumber : InventoryItemSerialNumber) (batchNumber : Option String)
    (locationId : Option Uuid) (status : InventoryStatus)
    (publicNotes internalNotes : Option String) : NewInventoryItem where
  serialNumber := some serialNumber
  batchNumber := normalizeOptionalText batchNumber
  quantityOnHand := 1
  quantityAllocated := 0
  locationId := locationId
  status := status
  publicNotes := normalizeOptionalText publicNotes
  internalNotes := normalizeOptionalText internalNotes

def quantity (batchNumber : Option String) (quantityOnHand quantityAllocated : ℚ)
    (locationId : Option Uuid) (status : InventoryStatus)
    (publicNotes internalNotes : Option String) : Except String NewInventoryItem := do
  validateQuantities quantityOnHand quantityAllocated
  return {
    serialNumber := none
    batchNumber := normalizeOptionalText batchNumber
    quantityOnHand, quantityAllocated, locationId, status
    publicNotes := normalizeOptionalText publicNotes
    internalNotes := normalizeOptionalText internalNotes
  }

end NewInventoryItem

inductive InventoryItemSerialSource
  | explicit (values : List InventoryItemSerialNumber)
  | generate (count : Nat)

namespace InventoryItemSerialSource

def parseExplicit [UnicodeSegmentation] (values : List String) :
    Except String InventoryItemSerialSource := do
  if values.isEmpty then
    throw "serial_numbers cannot be empty"
  if values.length > 200 then
    throw "serial_numbers cannot contain more than 200 values"
  let parsed ← values.mapM InventoryItemSerialNumber.parse
  if ¬(parsed.map (·.val)).Nodup then
    throw "serial_numbers cannot contain duplicates"
  return explicit parsed

def parseGenerate (count : Int) : Except String InventoryItemSerialSource := do
  if count ≤ 0 then
    throw "count must be positive"
  if count > 200 then
    throw "count cannot exceed 200"
  return generate count.toNat

def parse [UnicodeSegmentation] (serialItems serialNumbers : Option (List String))
    (count : Option Int) : Except String InventoryItemSerialSource :=
  match serialItems, serialNumbers, count with
  | some items, none, none | none, some items, none => parseExplicit items
  | none, none, some count => parseGenerate count
  | some _, some _, _ | some _, _, some _ | none, some _, some _ =>
    .error "serialized creation accepts serial_items, serial_numbers, or count, not more than one"
  | none, none, none =>
    .error "serialized creation requires serial_items, serial_numbers, or count"

end InventoryItemSerialSource

inductive NewInventoryItems
  | serialized (serialSource : InventoryItemSerialSource) (batchNumber : Option String)
      (locationId : Option Uuid) (status : InventoryStatus)
      (publicNotes internalNotes : Option String)
  | quantity (item : NewInventoryItem)

namespace NewInventoryItems

def parse [UnicodeSegmentation] (trackingMode : AssetTrackingMode)
    (serialItems serialNumbers : Option (List String)) (count : Option Int)
    (batchNumber : Option String) (quantityOnHand quantityAllocated : Option ℚ)
    (locationId : Option Uuid) (status publicNotes internalNotes : Option String) :
    Except String NewInventoryItems := do
  let status := (← status.mapM InventoryStatus.parse).getD .available
  match trackingMode with
  | .serialized =>
    if quantityOnHand.isSome ∨ quantityAllocated.isSome then
      throw "Serialized inventory items cannot specify quantity fields"
    let serialSource ← InventoryItemSerialSource.parse serialItems serialNumbers count
    return serialized serialSource (normalizeOptionalText batchNumber) locationId status
      (normalizeOptionalText publicNotes) (normalizeOptionalText internalNotes)
  | .quantity =>
    if serialItems.isSome ∨ serialNumbers.isSome ∨ count.isSome then
      throw "Quantity-tracked inventory items cannot specify serial_items, serial_numbers, or count"
    let some quantityOnHand := quantityOnHand |
      throw "Quantity-tracked inventory items require quantity_on_hand"
    let item ← NewInventoryItem.quantity batchNumber quantityOnHand (quantityAllocated.getD 0)
      locationId status publicNotes internalNotes
    return quantity item

def locationId : NewInventoryItems → Option Uuid
  | serialized _ _ locationId .. => locationId
  | quantity item => item.locationId

end NewInventoryItems

structure UpdateInventoryItem where
  serialNumber : Option InventoryItemSerialNumber
  batchNumber : NullableUpdate String
  quantityOnHand : Option ℚ
  quantityAllocated : Option ℚ
  locationId : NullableUpdate Uuid
  status : Option InventoryStatus
  publicNotes : NullableUpdate String
  internalNotes : NullableUpdate String

namespace UpdateInventoryItem

def parse [UnicodeSegmentation] (serialNumber : Option String)
    (batchNumber : Option (Option String)) (quantityOnHand quantityAllocated : Option ℚ)
    (locationId : Option (Option Uuid)) (status : Option String)
    (publicNotes internalNotes : Option (Option String)) : Except String UpdateInventoryItem := do
  if let some quantity := quantityOnHand then
    validateQuantities quantity 0
  if let some quantity := quantityAllocated then
    validateQuantities quantity quantity
  let serialNumber ← serialNumber.mapM InventoryItemSerialNumber.parse
  let status ← status.mapM InventoryStatus.parse
  return {
    serialNumber
    batchNumber := nullableText batchNumber
    quantityOnHand, quantityAllocated
    locationId := .ofOption locationId
    status
    publicNotes := nullableText publicNotes
    internalNotes := nullableText internalNotes
  }

def hasBatchUpdates (u : UpdateInventoryItem) : Bool :=
  u.batchNumber ≠ .unchanged || u.locationId ≠ .unchanged || u.status.isSome ||
  u.publicNotes ≠ .unchanged || u.internalNotes ≠ .unchanged

end UpdateInventoryItem

structure InventoryItemIds where
  values : List Uuid
  ne_nil : values ≠ []
  nodup : values.Nodup

def InventoryItemIds.parse (values : List Uuid) : Except String InventoryItemIds :=
  if he : values = [] then
    .error "inventory_item_ids cannot be empty"
  else if hn : values.Nodup then
    .ok ⟨values, he, hn⟩
  else
    .error "inventory_item_ids cannot contain duplicates"

structure SplitInventoryItem where
  quantity : ℚ
  quantity_pos : 0 < quantity
  batchNumber : NullableUpdate String
  locationId : NullableUpdate Uuid
  status : Option InventoryStatus
  publicNotes : Option String
  internalNotes : Option String

def SplitInventoryItem.parse (quantity : ℚ) (batchNumber : Option (Option String))
    (locationId : Option (Option Uuid)) (status publicNotes internalNotes : Option String) :
    Except String SplitInventoryItem :=
  if h : 0 < quantity then do
    let status ← status.mapM InventoryStatus.parse
    return {
      quantity
      quantity_pos := h
      batchNumber := nullableText batchNumber
      locationId := .ofOption locationId
      status
      publicNotes := normalizeOptionalText publicNotes
      internalNotes := normalizeOptionalText internalNotes
    }
  else
    .error "quantity must be positive and finite"

structure MergeInventoryItems where
  targetInventoryItemId : Uuid
  sourceInventoryItemIds : InventoryItemIds
  target_not_mem : targetInventoryItemId ∉ sourceInventoryItemIds.values

def MergeInventoryItems.parse (targetInventoryItemId : Uuid) (sourceInventoryItemIds : List Uuid) :
    Except String MergeInventoryItems := do
  let sources ← InventoryItemIds.parse sourceInventoryItemIds
  if h : targetInventoryItemId ∈ sources.values then
    throw "target_inventory_item_id cannot be included in source_inventory_item_ids"
  else
    return ⟨targetInventoryItemId, sources, h⟩

end LabInventory
