import Mathlib.Algebra.Group.Prod
import Mathlib.Algebra.Order.Field.Rat
import LabInventory.BorrowRequests.Effects
import LabInventory.InventoryItems.Batches
import LabInventory.InventoryItems.Edits
import LabInventory.InventoryItems.Serials
import LabInventory.Library.Tally
import LabInventory.Library.Watch

open Sql Program Discipline

namespace LabInventory

namespace InventoryItems

-- What a row contributes to the quantities of an asset: on hand, and allocated.
def quantities (assetId : Uuid) (r : InventoryItemRow) : ℚ × ℚ :=
  if r.assetId = assetId then (r.quantityOnHand, r.quantityAllocated) else 0

def stock (assetId : Uuid) (d : Database) : ℚ × ℚ :=
  d.assetInventoryItems.tally (quantities assetId)

-- Only locked items are changed.
def Keeps (ks : Set RowId) (d d' : Database) : Prop :=
  ∀ i ∈ d.assetInventoryItems, .inventoryItem i.inventoryItemId ∉ ks → i ∈ d'.assetInventoryItems

inductive StockRole
  | move
  | edit

-- Stock is moved around without changing the total of an asset, while others edit the items freely.
def stockDiscipline : Discipline Database RowId StockRole where
  Inv _ := True
  Guar
    | .move, ks, d, d' => Keeps ks d d' ∧ ∀ assetId, stock assetId d' = stock assetId d
    | .edit, ks, d, d' => Keeps ks d d'
  Compat _ _ _ := True

theorem keeps_of_guar {role : StockRole} {ks : Set RowId} {d d' : Database}
    (h : stockDiscipline.Guar role ks d d') : Keeps ks d d' := by
  cases role
  case move => exact h.left
  case edit => exact h

section Safety

variable {d d' v : Database} {ks : Set RowId} {pending : List RowId} {log : List Write}
variable {i i' : InventoryItemRow} {rest : List InventoryItemRow} {excess excess' : Uuid → ℚ × ℚ}
variable {A : Set RowId → Database → Prop}

structure Held (i : InventoryItemRow) (ks : Set RowId) (d : Database) : Prop where
  locked : .inventoryItem i.inventoryItemId ∈ ks
  mem : i ∈ d.assetInventoryItems

theorem stable_held (i : InventoryItemRow) : stockDiscipline.Stable (Held i) where
  lock h := ⟨.inr h.locked, h.mem⟩
  interference hi h := by
    obtain ⟨_, ks', hd, hg⟩ := hi.guar
    exact ⟨h.locked, keeps_of_guar hg _ h.mem (hd _ h.locked)⟩

-- A transaction on its way from `d` to `v`: the rows of `rest` are still as they were, and the stock
-- is off by the `excess`.
structure Balanced (ks : Set RowId) (rest : List InventoryItemRow) (excess : Uuid → ℚ × ℚ)
    (d v : Database) : Prop where
  items : Keeps ks d v
  rest : ∀ i ∈ rest, i ∈ v.assetInventoryItems
  stock : ∀ assetId, stock assetId v = stock assetId d + excess assetId

structure Balances (rest : List InventoryItemRow) (excess : Uuid → ℚ × ℚ) (log : List Write)
    (ks : Set RowId) (d : Database) : Prop where
  locked : ∀ i ∈ rest, .inventoryItem i.inventoryItemId ∈ ks
  always : stockDiscipline.Always (Balanced ks rest excess) log ks d

theorem stable_balances : stockDiscipline.Stable (Balances rest excess log) where
  lock h := by
    refine ⟨fun i hi => .inr (h.locked i hi), (stable_always.lock h.always).mono fun _ _ hb => ?_⟩
    exact ⟨fun j hj hn => hb.items j hj fun hk => hn (.inr hk), hb.rest, hb.stock⟩
  interference hi h := ⟨h.locked, stable_always.interference hi h.always⟩

theorem balances_nil (h : ∀ i ∈ rest, Held i ks d) : Balances rest 0 [] ks d where
  locked i hi := (h i hi).locked
  always := always_nil (Stable.forall rest stable_held) h fun _ _ h =>
    ⟨fun _ hi _ => hi, fun j hj => (h j hj).mem, fun _ => (add_zero _).symm⟩

theorem Balances.update (h : Balances (i :: rest) excess log ks d)
    (hid : i'.inventoryItemId = i.inventoryItemId)
    (hn : ∀ j ∈ rest, j.inventoryItemId ≠ i.inventoryItemId)
    (he : ∀ a, excess' a + quantities a i = excess a + quantities a i') :
    Balances rest excess' (log ++ [.assetInventoryItems (.update i')]) ks d where
  locked j hj := h.locked j (.tail _ hj)
  always := by
    have hk := h.locked i (.head _)
    refine h.always.write (A := fun _ _ => True) .const trivial fun d v v' _ _ hb ha => ?_
    obtain ⟨hu, _⟩ := apply_updateItem.mp ha
    have hm (j : InventoryItemRow) (hj : j ∈ v.assetInventoryItems)
        (hn : j.inventoryItemId ≠ i.inventoryItemId) : j ∈ v'.assetInventoryItems :=
      (Table.mem_update hu).mpr (.inl ⟨hj, fun he => hn (he.trans hid)⟩)
    refine ⟨fun j hj hl => hm j (hb.items j hj hl) fun he => hl (he ▸ hk),
      fun j hj => hm j (hb.rest j (.tail _ hj)) (hn j hj), fun a => ?_⟩
    have ht : stock a v' + quantities a i = stock a v + quantities a i' :=
      Table.tally_update hu (hb.rest i (.head _)) hid.symm
    rw [hb.stock a, add_assoc, ← he a, ← add_assoc] at ht
    exact add_right_cancel ht

theorem Balances.insert (h : Balances rest excess log ks d)
    (he : ∀ a, excess' a = excess a + quantities a i) :
    Balances rest excess' (log ++ [.assetInventoryItems (.insert i)]) ks d where
  locked := h.locked
  always := by
    refine h.always.write (A := fun _ _ => True) .const trivial fun d v v' _ _ hb ha => ?_
    obtain ⟨hi, _⟩ := apply_insertItem.mp ha
    have hm (j : InventoryItemRow) (hj : j ∈ v.assetInventoryItems) : j ∈ v'.assetInventoryItems :=
      (Table.mem_insert hi).mpr (.inl hj)
    refine ⟨fun j hj hl => hm j (hb.items j hj hl), fun j hj => hm j (hb.rest j hj), fun a => ?_⟩
    have ht : stock a v' = stock a v + quantities a i := Table.tally_insert hi
    rw [ht, hb.stock a, add_assoc, ← he a]

theorem Balances.delete (h : Balances (i :: rest) excess log ks d)
    (hn : ∀ j ∈ rest, j.inventoryItemId ≠ i.inventoryItemId)
    (he : ∀ a, excess' a + quantities a i = excess a) :
    Balances rest excess' (log ++ [.assetInventoryItems (.delete i.inventoryItemId)]) ks d where
  locked j hj := h.locked j (.tail _ hj)
  always := by
    have hk := h.locked i (.head _)
    refine h.always.write (A := fun _ _ => True) .const trivial fun d v v' _ _ hb ha => ?_
    have hd : v'.assetInventoryItems = v.assetInventoryItems.delete i.inventoryItemId :=
      (Except.ok.inj (Database.applied_of_apply ha).left).symm
    have hm (j : InventoryItemRow) (hj : j ∈ v.assetInventoryItems)
        (hn : j.inventoryItemId ≠ i.inventoryItemId) : j ∈ v'.assetInventoryItems :=
      hd ▸ Table.mem_delete.mpr ⟨hj, hn⟩
    refine ⟨fun j hj hl => hm j (hb.items j hj hl) fun he => hl (he ▸ hk),
      fun j hj => hm j (hb.rest j (.tail _ hj)) (hn j hj), fun a => ?_⟩
    have ht : stock a v = quantities a i + stock a v' := by
      rw [stock, stock, hd]
      exact Table.tally_delete (hb.rest i (.head _))
    rw [hb.stock a, ← he a, add_comm (quantities a i), ← add_assoc] at ht
    exact (add_right_cancel ht).symm

-- Items are not affected, not even by a cascade.
def Aside (w : Write) : Prop :=
  ∀ d d' : Database, apply w d = .ok d' → d'.assetInventoryItems = d.assetInventoryItems

theorem Balances.aside {w : Write} (h : Balances rest excess log ks d) (hw : Aside w) :
    Balances rest excess (log ++ [w]) ks d where
  locked := h.locked
  always := by
    refine h.always.write (A := fun _ _ => True) .const trivial fun d v v' _ _ hb ha => ?_
    have hi := hw v v' ha
    have hs (a : Uuid) : stock a v' = stock a v := by rw [stock, stock, hi]
    exact ⟨fun j hj hl => hi ▸ hb.items j hj hl, hi ▸ hb.rest, fun a => (hs a).trans (hb.stock a)⟩

theorem Balances.commit {α : Type} {a : α} (h : Balances rest 0 log ks d) :
    stockDiscipline.Commit .move a pending log ks d := by
  intro d' v he hi hv
  have hb := h.always.env he hi hv
  exact ⟨trivial, hb.items, fun a => (hb.stock a).trans (add_zero _)⟩

-- The first of the rows is still the one that has been locked.
theorem Balances.find? (h : Balances (i :: rest) excess log ks d) (hv : replay log d = .ok v) :
    v.assetInventoryItems.find? i.inventoryItemId = some i :=
  Table.find?_key <| (h.always.view trivial hv).rest i (.head _)

theorem safe_updateLockedRow {Q : Unit → List RowId → List Write → Set RowId → Database → Prop}
    {f : InventoryItemRow → InventoryItemRow} {err : Constraint → ApiError}
    (h : Balances (i :: rest) excess log ks d) (hid : (f i).inventoryItemId = i.inventoryItemId)
    (hn : ∀ j ∈ rest, j.inventoryItemId ≠ i.inventoryItemId)
    (he : ∀ a, excess' a + quantities a i = excess a + quantities a (f i))
    (hq : ∀ pending log ks d, Balances rest excess' log ks d → Q () pending log ks d) :
    stockDiscipline.Safe Q (do
      let some r ← selectForUpdate (.inventoryItem i.inventoryItemId)
        (·.assetInventoryItems.find? i.inventoryItemId) | return
      .exec (.assetInventoryItems <| .update (f r)) err) pending log ks d := by
  refine safe_select stable_balances h fun d v _ h hv => ?_
  simp only [h.find? hv]
  refine safe_lock stable_balances h fun d _ h => safe_select stable_balances h fun d v _ h hv => ?_
  simp only [h.find? hv]
  exact safe_write stable_balances h fun d _ _ _ h _ _ => hq _ _ _ d (h.update hid hn he)

theorem safe_deleteInventoryItemFromDatabase
    {Q : Unit → List RowId → List Write → Set RowId → Database → Prop}
    (h : Balances (i :: rest) excess log ks d)
    (hn : ∀ j ∈ rest, j.inventoryItemId ≠ i.inventoryItemId)
    (he : ∀ a, excess' a + quantities a i = excess a)
    (hq : ∀ pending log ks d, Balances rest excess' log ks d → Q () pending log ks d) :
    stockDiscipline.Safe Q (deleteInventoryItemFromDatabase i.inventoryItemId) pending log ks d := by
  refine safe_select stable_balances h fun d v _ h hv => ?_
  simp only [h.find? hv]
  refine safe_lock stable_balances h fun d _ h => safe_select stable_balances h fun d v _ h hv => ?_
  simp only [h.find? hv]
  exact safe_write stable_balances h fun d _ _ _ h _ _ => hq _ _ _ d (h.delete hn he)

variable {Q : Unit → List RowId → List Write → Set RowId → Database → Prop}

theorem safe_writesAside {α : Type} {p : Transaction α} (hp : p.Writes Aside)
    (h : Balances rest excess log ks d) :
    stockDiscipline.Safe (fun _ _ log ks d => Balances rest excess log ks d) p pending log ks d :=
  safe_writes (B := Balances rest excess) hp (fun _ => stable_balances) h
    fun _ _ _ _ hw h => h.aside hw

theorem respects_of_writesAside {p : Transaction Unit} (hp : p.Writes Aside) :
    stockDiscipline.Respects .move p :=
  fun _ _ => safe_mono (safe_writesAside hp <| balances_nil fun _ h => absurd h List.not_mem_nil)
    Balances.commit

section Requests

variable {ctx : LaboratoryContext} {inventoryItemId : Uuid}

theorem safe_reread {what : String} (h : Balances rest excess log ks d)
    {Q : InventoryItemRow → List RowId → List Write → Set RowId → Database → Prop}
    (hq : ∀ r pending ks d, Balances rest excess log ks d → Q r pending log ks d) :
    stockDiscipline.Safe Q (rereadInventoryItem inventoryItemId what) pending log ks d := by
  rw [← bind_pure (rereadInventoryItem inventoryItemId what)]
  exact safe_readOnly rereadInventoryItem_readOnly stable_balances h fun _ h => hq _ _ _ _ h

-- The patch leaves the quantities alone.
theorem safe_applyInventoryItemPatch {patch : UpdateInventoryItem}
    {Q : InventoryItemRow → List RowId → List Write → Set RowId → Database → Prop}
    (hp : patch.quantityOnHand = none ∧ patch.quantityAllocated = none)
    (h : Balances (i :: rest) excess log ks d)
    (hn : ∀ j ∈ rest, j.inventoryItemId ≠ i.inventoryItemId)
    (hq : ∀ r pending log ks d, Balances rest excess log ks d → Q r pending log ks d) :
    stockDiscipline.Safe Q (applyInventoryItemPatch i patch) pending log ks d := by
  refine safe_ofExcept fun _ _ => ?_
  refine safe_readOnly validateOptionalLocation_readOnly stable_balances h fun _ h => ?_
  refine safe_ofExcept fun _ _ => safe_bind.mpr <| safe_require fun _ => ?_
  refine safe_updateLockedRow (f := fun r => { r with
    serialNumber := _, batchNumber := _, quantityOnHand := _, quantityAllocated := _, locationId := _
    status := _, publicNotes := _, internalNotes := _ }) h rfl hn (fun a => ?_)
    fun pending log ks d h => safe_reread h fun r _ ks d h => hq r _ log ks d h
  simp [hp.left, hp.right, quantities]

theorem unmeasured_of_parse [UnicodeSegmentation] {payload : UpdateJsonData}
    {patch : UpdateInventoryItem}
    (hp : payload.quantityOnHand = none ∧ payload.quantityAllocated = none)
    (h : payload.toUpdateInventoryItem = .ok patch) :
    patch.quantityOnHand = none ∧ patch.quantityAllocated = none := by
  simp only [UpdateJsonData.toUpdateInventoryItem, UpdateInventoryItem.parse, hp.left, hp.right] at h
  obtain ⟨_, _, h⟩ := Except.bind_eq_ok.mp h
  obtain ⟨_, _, h⟩ := Except.bind_eq_ok.mp h
  obtain rfl := Except.pure_eq_ok.mp h
  exact ⟨rfl, rfl⟩

-- The item is locked, and stays as it has been read.
theorem safe_fetchInventoryItemForUpdate {β : Type} {f : Option InventoryItemRow → Transaction β}
    {Q : β → List RowId → List Write → Set RowId → Database → Prop}
    (hA : stockDiscipline.Stable A) (ha : A ks d)
    (hn : ∀ pending ks d, A ks d → stockDiscipline.Safe Q (f none) pending [] ks d)
    (hs : ∀ i ks d, A ks d → Held i ks d → i.inventoryItemId = inventoryItemId →
      stockDiscipline.Safe Q (f (some i)) [] [] ks d) :
    stockDiscipline.Safe Q (fetchInventoryItemForUpdate inventoryItemId >>= f) pending [] ks d := by
  refine safe_selectForUpdate hA ha (fun d _ _ ha _ _ => hn _ _ d ha) fun d v _ ha hv => ?_
  obtain rfl := Except.ok.inj hv
  cases hf : fetchInventoryItem? d inventoryItemId
  case none => exact hn _ _ d ha
  case some i =>
    obtain ⟨hm, rfl⟩ := Table.find?_eq_some.mp (fetchInventoryItem?_eq_some hf)
    exact hs i _ d ha ⟨.inl rfl, hm⟩ rfl

theorem respects_updateInventoryItem [UnicodeSegmentation] {payload : UpdateJsonData}
    (hp : payload.quantityOnHand = none ∧ payload.quantityAllocated = none) :
    stockDiscipline.Respects .move (updateInventoryItem ctx inventoryItemId payload) := by
  intro d _
  have hA : stockDiscipline.Stable fun _ _ => True := .const
  refine safe_readOnly requirePermissions_readOnly hA trivial fun _ _ => ?_
  refine safe_ofExcept fun patch hpatch => ?_
  have hp := unmeasured_of_parse hp (Except.mapError_eq_ok.mp hpatch)
  refine safe_fetchInventoryItemForUpdate hA trivial (fun _ _ _ _ => trivial) fun i ks d _ h _ => ?_
  have h : Balances [i] 0 [] ks d := balances_nil fun j hj => List.mem_singleton.mp hj ▸ h
  refine safe_bind.mpr <| safe_applyInventoryItemPatch hp h (fun _ hj => absurd hj List.not_mem_nil)
    fun _ _ _ _ _ h => h.commit

theorem safe_fetchInventoryItemsForUpdate {β : Type} {ids : List Uuid}
    {f : List InventoryItemRow → Transaction β}
    {Q : β → List RowId → List Write → Set RowId → Database → Prop}
    (hq : ∀ rows pending ks d, (rows.map (·.inventoryItemId)).Nodup → (∀ i ∈ rows, Held i ks d) →
      stockDiscipline.Safe Q (f rows) pending [] ks d) :
    stockDiscipline.Safe Q (fetchInventoryItemsForUpdate ids >>= f) pending [] ks d := by
  refine safe_select (A := fun _ _ => True) .const trivial fun d v _ _ hv => ?_
  have hn : ((v.assetInventoryItems.rows.filter fun r =>
      ids.contains r.inventoryItemId && HasAsset v r).map (·.inventoryItemId)).Nodup :=
    List.pairwise_map.mpr (v.assetInventoryItems.keyed.filter _)
  have hn := (List.perm_insertionSort (· ≤ ·) _).nodup_iff.mpr hn
  refine safe_bind.mpr <| safe_mono (safe_lockEach (k := (·.inventoryItemId)) stable_held
    (.const (P := True)) trivial ?_ ?_) ?_
  case refine_1 =>
    exact fun v id i hf => (Table.find?_eq_some.mp (fetchInventoryItem?_eq_some hf)).right
  case refine_2 =>
    intro id i ks d v _ hk hv hf
    obtain rfl := Except.ok.inj hv
    obtain ⟨hm, rfl⟩ := Table.find?_eq_some.mp (fetchInventoryItem?_eq_some hf)
    exact ⟨hk, hm⟩
  case refine_3 =>
    intro rows pending log ks d h
    obtain ⟨rfl, _, hs, hheld⟩ := h
    exact hq rows pending ks d (hn.sublist hs) hheld

theorem safe_applyInventoryItemPatches {patch : UpdateInventoryItem} {rows : List InventoryItemRow}
    (hp : patch.quantityOnHand = none ∧ patch.quantityAllocated = none)
    (hn : (rows.map (·.inventoryItemId)).Nodup) (h : Balances rows 0 log ks d) :
    stockDiscipline.Safe (stockDiscipline.Commit .move) (applyInventoryItemPatches patch rows)
      pending log ks d := by
  induction rows generalizing pending log ks d
  case nil => exact h.commit
  case cons i rows ih =>
    obtain ⟨hi, hn⟩ := List.nodup_cons.mp hn
    have hne : ∀ j ∈ rows, j.inventoryItemId ≠ i.inventoryItemId :=
      fun j hj he => hi (List.mem_map.mpr ⟨j, hj, he⟩)
    exact safe_bind.mpr <| safe_applyInventoryItemPatch hp h hne fun _ _ _ _ _ h => ih hn h

theorem respects_batchUpdateInventoryItems [UnicodeSegmentation] {payload : BatchUpdateJsonData} :
    stockDiscipline.Respects .move (batchUpdateInventoryItems ctx payload) := by
  intro d _
  have hA : stockDiscipline.Stable fun _ _ => True := .const
  refine safe_ofExcept fun _ _ => safe_ofExcept fun patch hpatch => safe_require fun _ => ?_
  have hpatch := isBatchPatch (Except.mapError_eq_ok.mp hpatch)
  refine safe_readOnly requirePermissions_readOnly hA trivial fun _ _ => ?_
  refine safe_fetchInventoryItemsForUpdate fun rows pending ks d hn h => safe_ofExcept fun _ _ => ?_
  exact safe_applyInventoryItemPatches ⟨hpatch.quantityOnHand, hpatch.quantityAllocated⟩ hn
    (balances_nil h)

theorem safe_findQuantityAggregateForUpdate {β : Type} {laboratoryId assetId : Uuid}
    {batchNumber locationId status} {f : Option InventoryItemRow → Transaction β}
    {Q : β → List RowId → List Write → Set RowId → Database → Prop}
    (hA : stockDiscipline.Stable A) (ha : A ks d)
    (hn : ∀ pending ks d, A ks d → stockDiscipline.Safe Q (f none) pending [] ks d)
    (hs : ∀ i ks d, A ks d → Held i ks d → i.assetId = assetId → i.inventoryItemId ≠ inventoryItemId →
      stockDiscipline.Safe Q (f (some i)) [] [] ks d) :
    stockDiscipline.Safe Q (findQuantityAggregateForUpdate laboratoryId assetId batchNumber locationId
      status (some inventoryItemId) >>= f) pending [] ks d := by
  rw [findQuantityAggregateForUpdate, bind_assoc]
  refine safe_readOnly readOnly_read hA ha fun {found _ _ d} _ ha => ?_
  cases found
  case none => exact hn _ _ d ha
  case some r =>
    refine safe_lock hA ha fun d _ ha => safe_select (hA.and Stable.locked) ⟨ha, .inl rfl⟩ ?_
    intro d v _ ha hv
    obtain rfl := Except.ok.inj hv
    change stockDiscipline.Safe Q (f (Option.filter _ _)) _ _ _ _
    cases hf : Option.filter _ (d.assetInventoryItems.find? r.inventoryItemId)
    case none => exact hn _ _ d ha.left
    case some i =>
      obtain ⟨hf, hm⟩ := Option.filter_eq_some_iff.mp hf
      obtain ⟨hi, hid⟩ := Table.find?_eq_some.mp hf
      have hid : i.inventoryItemId = r.inventoryItemId := hid
      simp only [IsQuantityAggregate, Bool.and_eq_true, decide_eq_true_eq, ne_eq] at hm
      obtain ⟨_, ⟨⟨⟨⟨⟨_, _⟩, hasset⟩, _⟩, _⟩, _⟩, hne⟩ := hm
      exact hs i _ d ha.left ⟨hid ▸ ha.right, hi⟩ hasset fun he => hne (he ▸ rfl)

-- What has been taken from the source is missing until it is added to the target.
def taken (source : InventoryItemRow) (quantity : ℚ) (assetId : Uuid) : ℚ × ℚ :=
  if source.assetId = assetId then (-quantity, 0) else 0

theorem taken_add {quantity : ℚ} {assetId : Uuid} :
    taken i quantity assetId + (if i.assetId = assetId then (quantity, 0) else 0) = 0 := by
  unfold taken
  split
  case isTrue => exact Prod.ext (neg_add_cancel quantity) (add_zero 0)
  case isFalse => exact add_zero 0

theorem safe_addQuantitiesToItem {quantityDelta allocatedDelta : ℚ}
    {Q : InventoryItemRow → List RowId → List Write → Set RowId → Database → Prop}
    (h : Balances (i :: rest) excess log ks d)
    (hn : ∀ j ∈ rest, j.inventoryItemId ≠ i.inventoryItemId)
    (he : ∀ a, excess' a = excess a + if i.assetId = a then (quantityDelta, allocatedDelta) else 0)
    (hq : ∀ r pending log ks d, Balances rest excess' log ks d → Q r pending log ks d) :
    stockDiscipline.Safe Q (addQuantitiesToItem i.inventoryItemId quantityDelta allocatedDelta)
      pending log ks d := by
  refine safe_bind.mpr <| safe_updateLockedRow h rfl hn (fun a => ?_)
    fun pending log ks d h => safe_reread h fun r _ ks d h => hq r _ log ks d h
  by_cases ha : i.assetId = a <;> simp [quantities, he, ha, add_assoc, add_comm]

theorem safe_setQuantityOnHand {quantity : ℚ}
    {Q : InventoryItemRow → List RowId → List Write → Set RowId → Database → Prop}
    (h : Balances (i :: rest) 0 log ks d) (hn : ∀ j ∈ rest, j.inventoryItemId ≠ i.inventoryItemId)
    (hq : ∀ r pending log ks d, Balances rest (taken i quantity) log ks d → Q r pending log ks d) :
    stockDiscipline.Safe Q (setQuantityOnHand i.inventoryItemId (i.quantityOnHand - quantity))
      pending log ks d := by
  refine safe_bind.mpr <| safe_updateLockedRow h rfl hn (fun a => ?_)
    fun pending log ks d h => safe_reread h fun r _ ks d h => hq r _ log ks d h
  by_cases ha : i.assetId = a <;> simp [quantities, taken, ha, sub_eq_neg_add]

theorem respects_splitInventoryItem {payload : SplitJsonData} {newId : Uuid} :
    stockDiscipline.Respects .move (splitInventoryItem ctx inventoryItemId payload newId) := by
  intro d _
  have hA : stockDiscipline.Stable fun _ _ => True := .const
  refine safe_readOnly requirePermissions_readOnly hA trivial fun _ _ => ?_
  refine safe_ofExcept fun command _ => ?_
  refine safe_fetchInventoryItemForUpdate hA trivial (fun _ _ _ _ => trivial) ?_
  intro source ks d _ h _
  refine safe_ofExcept fun _ _ => safe_require fun _ => ?_
  refine safe_readOnly validateOptionalLocation_readOnly (stable_held source) h fun _ h => ?_
  refine safe_require fun _ => ?_
  refine safe_findQuantityAggregateForUpdate (stable_held source) h ?_ ?_
  case refine_1 =>
    intro pending ks d h
    have h : Balances [source] 0 [] ks d := balances_nil fun j hj => List.mem_singleton.mp hj ▸ h
    refine safe_bind.mpr <| safe_setQuantityOnHand h (fun _ hj => absurd hj List.not_mem_nil) ?_
    refine fun _ pending log ks d h => safe_bind.mpr <| safe_bind.mpr <| safe_require fun _ => ?_
    refine safe_write stable_balances h fun d _ _ _ h _ _ => ?_
    exact safe_reread (h.insert fun _ => taken_add.symm) fun _ _ _ _ h => h.commit
  case refine_2 =>
    intro target ks d hs ht ha hne
    have h : Balances [source, target] 0 [] ks d := balances_nil fun j hj => by
      rcases List.mem_pair.mp hj with rfl | rfl
      case inl => exact hs
      case inr => exact ht
    refine safe_bind.mpr <| safe_setQuantityOnHand h (fun j hj => List.mem_singleton.mp hj ▸ hne) ?_
    refine fun _ pending log ks d h => safe_bind.mpr ?_
    exact safe_addQuantitiesToItem h (fun _ hj => absurd hj List.not_mem_nil)
      (fun _ => ha ▸ taken_add.symm) fun _ _ _ _ _ h => h.commit

theorem sum_quantities {rows : List InventoryItemRow} {assetId : Uuid}
    (h : ∀ i ∈ rows, i.assetId = assetId) (a : Uuid) :
    (rows.map (quantities a)).sum = if assetId = a then
      ((rows.map (·.quantityOnHand)).sum, (rows.map (·.quantityAllocated)).sum) else 0 := by
  induction rows
  case nil => exact (ite_self _).symm
  case cons i rows ih =>
    rw [List.map_cons, List.sum_cons, ih fun j hj => h j (.tail _ hj), quantities, h i (.head _)]
    by_cases ha : assetId = a <;> simp [ha]

theorem safe_deleteInventoryItems {rows : List InventoryItemRow}
    (hn : (rows.map (·.inventoryItemId)).Nodup)
    (h : Balances rows (fun a => (rows.map (quantities a)).sum) log ks d) :
    stockDiscipline.Safe (stockDiscipline.Commit .move)
      (deleteInventoryItems (rows.map (·.inventoryItemId))) pending log ks d := by
  induction rows generalizing pending log ks d
  case nil => exact h.commit
  case cons i rows ih =>
    obtain ⟨hi, hn⟩ := List.nodup_cons.mp hn
    have hne : ∀ j ∈ rows, j.inventoryItemId ≠ i.inventoryItemId :=
      fun j hj he => hi (List.mem_map.mpr ⟨j, hj, he⟩)
    exact safe_bind.mpr <| safe_deleteInventoryItemFromDatabase h hne (fun a => add_comm _ _)
      fun _ _ _ _ h => ih hn h

theorem respects_mergeInventoryItems [ScanOrder] {payload : MergeJsonData} :
    stockDiscipline.Respects .move (mergeInventoryItems ctx payload) := by
  intro d _
  have hA : stockDiscipline.Stable fun _ _ => True := .const
  refine safe_ofExcept fun command _ => ?_
  refine safe_readOnly requirePermissions_readOnly hA trivial fun _ _ => ?_
  refine safe_fetchInventoryItemsForUpdate fun rows pending ks d _ hheld => safe_ofExcept fun _ _ => ?_
  refine safe_ofExcept fun target ht => safe_ofExcept fun _ _ => safe_ofExcept fun sources hs => ?_
  obtain ⟨ht, htid⟩ := findRow_eq_ok ht
  have hsource {id source} (h : findSource rows target id = .ok source) :
      source ∈ rows ∧ source.inventoryItemId = id ∧ source.assetId = target.assetId := by
    obtain ⟨_, hf, h⟩ := Except.bind_eq_ok.mp h
    obtain ⟨_, _, h⟩ := Except.bind_eq_ok.mp h
    obtain ⟨_, hm, h⟩ := Except.bind_eq_ok.mp h
    obtain rfl := Except.pure_eq_ok.mp h
    obtain ⟨hf, hid⟩ := findRow_eq_ok hf
    exact ⟨hf, hid, (Except.check_eq_ok.mp hm).right.left.symm⟩
  have hids : sources.map (·.inventoryItemId) = command.sourceInventoryItemIds.values.map id :=
    Except.map_eq_of_mapM hs fun id source h => (hsource h).right.left
  rw [List.map_id] at hids
  have hmem : ∀ source ∈ sources, source ∈ rows ∧ source.assetId = target.assetId := by
    intro source hm
    obtain ⟨id, _, h⟩ := Except.exists_of_mem_mapM hs hm
    exact ⟨(hsource h).left, (hsource h).right.right⟩
  have hne : ∀ source ∈ sources, source.inventoryItemId ≠ target.inventoryItemId := by
    intro source hm he
    refine command.target_not_mem (htid ▸ he ▸ hids ▸ List.mem_map.mpr ⟨source, hm, rfl⟩)
  have h : Balances (target :: sources) 0 [] ks d := balances_nil fun j hj => by
    rcases List.mem_cons.mp hj with rfl | hj
    case inl => exact hheld _ ht
    case inr => exact hheld _ (hmem j hj).left
  refine safe_bind.mpr <| safe_mono (safe_writesAside ?_ h) fun h => ?_
  case refine_1 => exact writes_moveInventoryItemAttachments.mono fun _ hw d d' h =>
      (elsewhere_of_isFileWrite hw d d' h).left
  refine safe_bind.mpr <| safe_addQuantitiesToItem h hne (fun a => ?_) fun _ _ _ _ _ h =>
    safe_deleteInventoryItems (hids ▸ command.sourceInventoryItemIds.nodup) h
  rw [sum_quantities (fun i hi => (hmem i hi).right) a, DoublePrecision.sum_exact,
    DoublePrecision.sum_exact]
  exact (zero_add _).symm

end Requests

section BorrowRequests

open BorrowRequests

variable {ctx : LaboratoryContext}

theorem writes_updateBorrowRequestRow {borrowRequestId laboratoryId : Uuid} {f context} :
    (updateBorrowRequestRow borrowRequestId laboratoryId f context).Writes Aside := by
  refine readOnly_selectForUpdate.writes_bind fun r => ?_
  cases r
  case none => trivial
  case some => exact writes_exec fun _ _ h => by rw [(Database.applied_of_apply h).right]

theorem writes_createBorrowRequest {inventoryItemId : Uuid} {guestLinkId : Option Uuid}
    {note : Option String} {newId : Uuid} :
    (createBorrowRequest ctx inventoryItemId guestLinkId note newId).Writes Aside := by
  refine readOnly_selectForUpdate.writes_bind fun item => ?_
  cases item
  case none => trivial
  case some item =>
    refine readOnly_require.writes_bind fun _ => readOnly_ofExcept.writes_bind fun _ => ?_
    refine readOnly_require.writes_bind fun _ => readOnly_read.writes_bind fun _ => ?_
    refine readOnly_require.writes_bind fun _ => ReadOnly.writes_bind (p := fetchUserSnapshot _) ?_ ?_
    case refine_1 => exact readOnly_fetch
    case refine_2 =>
      refine fun _ => readOnly_read.writes_bind fun _ => Writes.bind (p := insertBorrowRequest _) ?_ ?_
      case refine_1 =>
        refine Transaction.readOnly_bindTexts.writes_bind fun _ => writes_exec fun _ _ h => ?_
        rw [(Database.applied_of_apply h).right]
      case refine_2 => exact fun _ => readOnly_requireBorrowRequest.writes_bind fun _ => trivial

theorem writes_cancelBorrowRequest {borrowRequestId : Uuid} {guestLinkId : Option Uuid} :
    (cancelBorrowRequest ctx borrowRequestId guestLinkId).Writes Aside := by
  refine readOnly_ofExcept.writes_bind fun _ => readOnly_requireBorrowRequest.writes_bind fun _ => ?_
  refine readOnly_require.writes_bind fun _ => readOnly_require.writes_bind fun _ => ?_
  exact writes_updateBorrowRequestRow.bind fun _ =>
    readOnly_requireBorrowRequest.writes_bind fun _ => trivial

theorem respects_resolveBorrowRequest {borrowRequestId : Uuid} {decision : String}
    {note : Option String} :
    stockDiscipline.Respects .move (resolveBorrowRequest ctx borrowRequestId decision note) := by
  intro d _
  have hA : stockDiscipline.Stable fun _ _ => True := .const
  refine safe_ofExcept fun _ _ => safe_ofExcept fun status _ => ?_
  refine safe_readOnly readOnly_requireBorrowRequest hA trivial fun _ _ => safe_require fun _ => ?_
  refine safe_fetchInventoryItemForUpdate hA trivial (fun _ _ _ _ => trivial) fun i ks d _ h _ => ?_
  have h : Balances [i] 0 [] ks d := balances_nil fun j hj => List.mem_singleton.mp hj ▸ h
  refine safe_require fun _ => ?_
  refine safe_readOnly (p := fetchUserSnapshot _) readOnly_fetch stable_balances h fun _ h => ?_
  have hdecide (s : BorrowRequestStatus) (u : String × UserType) :
      (do
        updateBorrowRequestDecision borrowRequestId ctx.laboratoryId s ctx.actor.userId u.1 u.2
          (normalizeOptionalText note)
        let _ ← requireBorrowRequest ctx.laboratoryId borrowRequestId
        : Transaction Unit).Writes Aside := by
    refine .bind (readOnly_read.writes_bind fun _ => ?_) fun _ => ?_
    · exact Transaction.readOnly_bindTexts.writes_bind fun _ => writes_updateBorrowRequestRow
    exact readOnly_requireBorrowRequest.writes_bind fun _ => trivial
  cases status
  case approved =>
    refine safe_bind.mpr <| safe_updateLockedRow (f := fun r => { r with status := .borrowed }) h rfl
      (fun _ hj => absurd hj List.not_mem_nil) (fun a => rfl) fun pending log ks d h => ?_
    exact safe_mono (safe_writesAside (hdecide _ _) h) Balances.commit
  case pending | rejected | cancelled =>
    exact safe_mono (safe_writesAside (hdecide _ _) h) Balances.commit

end BorrowRequests

-- A write that only changes locked items, if it succeeds.
def Permits (ks : Set RowId) (w : Write) : Prop :=
  ∀ v v' : Database, apply w v = .ok v' → Keeps ks v v'

theorem keeps_of_permits (h : ∀ w ∈ log, Permits ks w) (hv : replay log d = .ok v) : Keeps ks d v := by
  induction log generalizing d
  case nil =>
    obtain rfl := Except.ok.inj hv
    exact fun _ hi _ => hi
  case cons w log ih =>
    obtain ⟨d', ha, hv⟩ := replay_cons.mp hv
    exact fun i hi hk => ih (fun w hw => h w (.tail _ hw)) hv i (h w (.head _) d d' ha i hi hk) hk

theorem stable_permits : stockDiscipline.Stable fun ks _ => ∀ w ∈ log, Permits ks w where
  lock h w hw v v' ha i hi hk := h w hw v v' ha i hi fun hm => hk (.inr hm)
  interference _ h := h

theorem safe_of_isEdit {α : Type} {p : Transaction α} (hp : IsEdit p)
    (h : ∀ w ∈ log, Permits ks w) :
    stockDiscipline.Safe (fun _ _ log ks _ => ∀ w ∈ log, Permits ks w) p pending log ks d := by
  have hconcat {log ks w} (h : ∀ w ∈ log, Permits ks w) (hw : Permits ks w) :
      ∀ w' ∈ log ++ [w], Permits ks w' := fun w' hm =>
    (List.mem_append.mp hm).elim (h w') fun hm => List.mem_singleton.mp hm ▸ hw
  induction hp generalizing pending log ks d
  case elsewhere hp =>
    refine safe_writes (B := fun log ks _ => ∀ w ∈ log, Permits ks w) hp
      (fun _ => stable_permits) h ?_
    exact fun w log ks d hw h => hconcat h fun v v' ha i hi _ => (hw v v' ha).left ▸ hi
  case insert =>
    refine safe_write stable_permits h fun d _ _ _ h _ _ => hconcat h fun v v' ha i hi _ => ?_
    exact (Table.mem_insert (apply_insertItem.mp ha).left).mpr (.inl hi)
  case update id f hid hlab =>
    refine safe_selectForUpdate stable_permits h (fun _ _ _ h _ _ => h) fun d v _ h _ => ?_
    cases hf : v.assetInventoryItems.find? id
    case none => exact h
    case some r =>
      obtain ⟨_, rfl⟩ := Table.find?_eq_some.mp hf
      refine safe_write stable_permits h fun d _ _ _ h _ _ => hconcat h fun v v' ha i hi hn => ?_
      refine (Table.mem_update (apply_updateItem.mp ha).left).mpr (.inl ⟨hi, fun he => hn ?_⟩)
      have he : i.inventoryItemId = (f r).inventoryItemId := he
      exact he ▸ hid r ▸ .inl rfl
  case delete id =>
    refine safe_selectForUpdate stable_permits h (fun _ _ _ h _ _ => h) fun d v _ h _ => ?_
    cases v.assetInventoryItems.find? id
    case none => exact h
    case some =>
      refine safe_write stable_permits h fun d _ _ _ h _ _ => hconcat h fun v v' ha i hi hn => ?_
      have hd : v'.assetInventoryItems = v.assetInventoryItems.delete id :=
        (Except.ok.inj (Database.applied_of_apply ha).left).symm
      refine hd ▸ Table.mem_delete.mpr ⟨hi, fun he => hn ?_⟩
      have he : i.inventoryItemId = id := he
      exact he ▸ .inl rfl
  case bind ihp ihf => exact safe_bind.mpr <| safe_mono (ihp h) fun h => ihf _ h

theorem respects_of_isEdit {p : Transaction Unit} (hp : IsEdit p) :
    stockDiscipline.Respects .edit p := by
  intro d _
  refine safe_mono (safe_of_isEdit hp fun _ h => absurd h List.not_mem_nil) fun h d' v _ _ hv => ?_
  exact ⟨trivial, keeps_of_permits h hv⟩

end Safety

section Runs

variable [UnicodeSegmentation] [ScanOrder]

-- What moves stock, or leaves it where it is.
inductive IsMove : Transaction Unit → Prop
  | update {ctx inventoryItemId payload} :
      payload.quantityOnHand = none ∧ payload.quantityAllocated = none →
      IsMove (updateInventoryItem ctx inventoryItemId payload)
  | batchUpdate {ctx payload} : IsMove (batchUpdateInventoryItems ctx payload)
  | split {ctx inventoryItemId payload newId} :
      IsMove (splitInventoryItem ctx inventoryItemId payload newId)
  | merge {ctx payload} : IsMove (mergeInventoryItems ctx payload)
  | borrow {ctx} {request : BorrowRequests.Request} : IsMove (request.handle ctx)
  | aside {p : Transaction Unit} : p.Writes Aside → IsMove p

theorem respects_of_isMove {p : Transaction Unit} (h : IsMove p) :
    stockDiscipline.Respects .move p := by
  cases h
  case update hp => exact respects_updateInventoryItem hp
  case batchUpdate => exact respects_batchUpdateInventoryItems
  case split => exact respects_splitInventoryItem
  case merge => exact respects_mergeInventoryItems
  case borrow request =>
    cases request
    case create => exact respects_of_writesAside writes_createBorrowRequest
    case resolve => exact respects_resolveBorrowRequest
    case cancel => exact respects_of_writesAside writes_cancelBorrowRequest
  case aside hp => exact respects_of_writesAside hp

inductive Handles : StockRole → Transaction Unit → Prop
  | move {p} : IsMove p → Handles .move p
  | edit {p} : IsEdit p → Handles .edit p

theorem respects_of_handles {role : StockRole} {p : Transaction Unit} (h : Handles role p) :
    stockDiscipline.Respects role p := by
  cases h
  case move hp => exact respects_of_isMove hp
  case edit hp => exact respects_of_isEdit hp

variable {ι : Type}

abbrev StockConfig (ι : Type) := Config ι Database RowId Write Constraint ApiError Unit

abbrev StockAction (ι : Type) := Sql.Action ι Database RowId Write Constraint ApiError Unit

def Begins (role : ι → StockRole) (_ : StockConfig ι) : StockAction ι → Prop
  | .begin i p => Handles (role i) p
  | .step _ | .commit _ | .rollback _ => True

-- Edits may be under way, but are not committed.
def OnlyMoves (role : ι → StockRole) (c : StockConfig ι) (a : StockAction ι) : Prop :=
  Begins role c a ∧ ∀ i, a = .commit i → role i = .move

variable {role : ι → StockRole} {c c₁ c₂ : StockConfig ι} {a : StockAction ι} {d : Database}

theorem admits_of_begins [DecidableEq ι] (h : Begins role c a) : stockDiscipline.Admits role c a := by
  cases a
  case begin => exact respects_of_handles h
  case commit => exact fun _ _ _ _ _ _ _ _ => trivial
  case step | rollback => trivial

variable [DecidableEq ι]

-- No quantity is lost between the rows. What rounding makes of a single quantity is set aside.
theorem stock_kept (h : Config.Run (Begins role) (.init d) c₁)
    (h' : Config.Run (OnlyMoves role) c₁ c₂) (assetId : Uuid) :
    stock assetId c₂.db = stock assetId c₁.db := by
  have hinit : stockDiscipline.Holds role (.init d : StockConfig ι) := .init trivial
  obtain ⟨h₁, _⟩ := hinit.run (fun _ _ => admits_of_begins) h
  suffices h : stockDiscipline.Holds role c₂ ∧ stock assetId c₂.db = stock assetId c₁.db from h.right
  induction h'
  case refl => exact ⟨h₁, rfl⟩
  case step hp hs ih =>
    obtain ⟨hb, hmove⟩ := hp
    obtain ⟨hc, hstock⟩ := ih
    obtain ⟨hc', he⟩ := hc.step (admits_of_begins hb) hs
    refine ⟨hc', ?_⟩
    rcases he with he | ⟨i, ha, hg⟩
    case inl => exact he ▸ hstock
    case inr =>
      rw [hmove i ha] at hg
      exact (hg.right assetId).trans hstock

end Runs

section Examples

-- Each porter takes something out of one batch and puts it elsewhere. The second one waits for the
-- batch that the first one has locked.
def relocation (batchNumber : String) : SplitJsonData where
  quantity := 1
  batchNumber := some (some batchNumber)
  locationId := none
  status := none
  publicNotes := none
  internalNotes := none

def porter : Bool → Transaction Unit
  | false => splitInventoryItem keeper 61 (relocation "C") 63
  | true => splitInventoryItem keeper 62 (relocation "A") 64

theorem stock_kept_batched :
    let _ := UnicodeSegmentation.characters
    let _ := ScanOrder.stored
    ∃ c : StockConfig Bool, c.db.assetInventoryItems.rows.map (·.quantityOnHand) = [2, 1, 1] ∧
      stock 60 c.db = stock 60 batched := by
  let _ := UnicodeSegmentation.characters
  let _ := ScanOrder.stored
  let run : List (StockAction Bool) :=
    [.begin false (porter false), .begin true (porter true)] ++ List.replicate 7 (.step false) ++
      List.replicate 5 (.step true) ++ List.replicate 9 (.step false) ++ [.commit false] ++
      List.replicate 16 (.step true) ++ [.commit true]
  have he : ((Config.init batched : StockConfig Bool).exec run).any
      fun c => c.db.assetInventoryItems.rows.map (·.quantityOnHand) = [2, 1, 1] := by
    decide +kernel
  obtain ⟨c, hc, he⟩ := (Option.any_eq_true _ _).mp he
  have hr : Config.Run (OnlyMoves fun _ => .move) (.init batched) c := by
    refine .of_exec hc fun c a ha => ⟨?_, fun _ _ => rfl⟩
    simp only [run, List.mem_append, List.mem_cons, List.mem_replicate, List.not_mem_nil,
      or_false] at ha
    rcases ha with ((((((rfl | rfl) | ⟨_, rfl⟩) | ⟨_, rfl⟩) | ⟨_, rfl⟩) | rfl) | ⟨_, rfl⟩) | rfl
    case inl.inl.inl.inl.inl.inl.inl => exact .move .split
    case inl.inl.inl.inl.inl.inl.inr => exact .move .split
    all_goals trivial
  exact ⟨c, of_decide_eq_true he, stock_kept .refl hr 60⟩

end Examples

end InventoryItems

end LabInventory
