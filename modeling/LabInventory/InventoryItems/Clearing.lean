import LabInventory.InventoryItems.Aggregates
import LabInventory.InventoryItems.Reachable

open Sql Program

namespace LabInventory

namespace Locations

open Inventory InventoryItems

variable {d d' : Database} {x : LocationRow}

def IsStoredBelow (d : Database) (x : Uuid) (r : InventoryItemRow) : Prop :=
  ∃ l ∈ r.locationId, (Trees.forest d.locations).IsAncestor x l

-- Items that cannot be told apart once they have lost their locations.
def Collides (d : Database) (x : Uuid) : Prop :=
  ∃ r ∈ d.assetInventoryItems, ∃ r' ∈ d.assetInventoryItems,
    r'.inventoryItemId ≠ r.inventoryItemId ∧ r.trackingMode = .quantity ∧
    r'.trackingMode = .quantity ∧ r'.assetId = r.assetId ∧ r'.batchNumber = r.batchNumber ∧
    r'.status = r.status ∧ IsStoredBelow d x r ∧
    (IsStoredBelow d x r' ∨ r'.locationId.getD nilUuid = nilUuid)

def clear (r : InventoryItemRow) : InventoryItemRow :=
  { r with locationId := none }

theorem redescribed_clear {r : InventoryItemRow} : Redescribed r (clear r) :=
  rfl

theorem inTree_iff (h : Invariant d) (hx : x ∈ d.locations) {r : InventoryItemRow}
    (hr : r ∈ d.assetInventoryItems) :
    inTree x.laboratoryId x.path d r ↔ IsStoredBelow d x.id r := by
  have hbelow := Trees.isAncestor_iff_subtree h.locations.forest hx
  simp only [inTree, decide_eq_true_eq, Option.any_eq_true]
  constructor
  case mp =>
    rintro ⟨_, l, hl, hs⟩
    exact ⟨l, hl, (hbelow l).mpr hs⟩
  case mpr =>
    rintro ⟨l, hl, ha⟩
    have hs := (hbelow l).mp ha
    refine ⟨?_, l, hl, hs⟩
    -- The location is the one that the item looks for.
    obtain ⟨n, hn, hk⟩ := List.any_eq_true.mp hs
    obtain ⟨hn, hin⟩ := List.mem_filter.mp hn
    obtain ⟨l', hl', hk', hlab⟩ := h.housed r hr l hl
    obtain rfl : n = l' := Table.eq_of_key_eq hn hl' <| (of_decide_eq_true hk).trans hk'.symm
    exact hlab.symm.trans (of_decide_eq_true hin).left

theorem admits_clear_iff (h : Invariant d) (hx : x ∈ d.locations) :
    d.assetInventoryItems.Admits (inTree x.laboratoryId x.path d) clear ↔ ¬Collides d x.id := by
  have hdesc {p : InventoryItemRow → Bool} {r : InventoryItemRow} :
      Redescribed r (if p r then clear r else r) := by
    split_ifs <;> rfl
  constructor
  case mp =>
    rintro ha ⟨r, hr, r', hr', hk, hm, hm', has, hb, hs, hbelow, hloc⟩
    have hp := (inTree_iff h hx hr).mpr hbelow
    refine (conflict?_eq_none_iff hr hr' hk redescribed_clear hdesc).mp (ha r hr hp r' hr' hk) ?_
    have hlab := h.stocked.laboratoryId_eq hr hr' has.symm
    have hb := congrArg (·.getD "") hb.symm
    split_ifs with hp'
    case pos => exact ⟨hm, hm', hlab, has.symm, hb, rfl, hs.symm⟩
    case neg =>
      have hnil := hloc.resolve_left fun hn => hp' <| (inTree_iff h hx hr').mpr hn
      exact ⟨hm, hm', hlab, has.symm, hb, hnil.symm, hs.symm⟩
  case mpr =>
    intro hn r hr hp r' hr' hk
    refine (conflict?_eq_none_iff hr hr' hk redescribed_clear hdesc).mpr fun hs => hn ?_
    have hb {r'' : InventoryItemRow} (he : r''.batchNumber = r'.batchNumber)
        (hg : r.batchNumber.getD "" = r''.batchNumber.getD "") : r'.batchNumber = r.batchNumber :=
      (h.stocked.items r' hr').batchNumber.getD_inj (h.stocked.items r hr).batchNumber <|
        (he ▸ hg).symm
    refine ⟨r, hr, r', hr', hk, hs.quantity, ?_⟩
    split_ifs at hs with hp'
    case pos =>
      exact ⟨hs.quantity', hs.assetId.symm, hb rfl hs.batchNumber, hs.status.symm,
        (inTree_iff h hx hr).mp hp, .inl <| (inTree_iff h hx hr').mp hp'⟩
    case neg =>
      exact ⟨hs.quantity', hs.assetId.symm, hb rfl hs.batchNumber, hs.status.symm,
        (inTree_iff h hx hr).mp hp, .inr hs.locationId.symm⟩

-- A row that is cleared has no more in common with those yet to be cleared than it will have with
-- what they become.
theorem conflict?_clear {r r' : InventoryItemRow} (hr : r ∈ d.assetInventoryItems)
    (hr' : r' ∈ d.assetInventoryItems) (hk : r'.inventoryItemId ≠ r.inventoryItemId)
    (h : conflict? (clear r) (clear r') = none) : conflict? (clear r) r' = none := by
  have hn := (conflict?_eq_none_iff hr hr' hk redescribed_clear redescribed_clear).mp h
  refine (conflict?_eq_none_iff hr hr' hk redescribed_clear .refl).mpr fun hs => hn ?_
  exact { hs with locationId := rfl }

-- Once the items are gone, nothing refers to the nodes but what is deleted along with them.
theorem not_isReferenced (h : Invariant d) (hx : x ∈ d.locations) {d₁ : Database}
    (hd₁ : d₁ = { d with assetInventoryItems := d₁.assetInventoryItems })
    (hf : ∀ k, d₁.assetInventoryItems.find? k = (d.assetInventoryItems.find? k).bind fun r =>
      if inTree x.laboratoryId x.path d r then some { r with locationId := none } else some r)
    {d' : Database} (hd' : d' = d₁.withoutNodes (fun id =>
      (Trees.subtree .location x.laboratoryId x.path d).any (·.id = id)) .location)
    {n : LocationRow} (hn : n ∈ Trees.subtree .location x.laboratoryId x.path d) :
    ¬Trees.isReferenced .location n.id d' := by
  have hbelow := Trees.isAncestor_iff_subtree h.locations.forest hx
  have hxn := (hbelow n.id).mpr <| List.any_eq_true.mpr ⟨n, hn, decide_eq_true rfl⟩
  rw [Trees.isReferenced, Bool.or_eq_true_iff, List.any_eq_true, List.any_eq_true]
  rintro (⟨c, hc, hp⟩ | ⟨r, hr, hl⟩)
  case inl =>
    have hc : c ∈ d.locations ∧
        !(Trees.subtree .location x.laboratoryId x.path d).any (·.id = c.id) := by
      rw [hd', hd₁] at hc
      exact Table.mem_filter.mp hc
    have hxc := (hbelow c.id).mp <|
      hxn.tail ⟨c.node, Trees.forest_of_mem hc.left, of_decide_eq_true hp⟩
    simp [hxc] at hc
  case inr =>
    have hr : r ∈ d₁.assetInventoryItems := by
      rw [hd'] at hr
      exact hr
    obtain ⟨r₀, hr₀, he⟩ := (Table.mem_of_find?_bind (g := clear) hf).mp hr
    have hl := of_decide_eq_true hl
    split_ifs at he with hin
    case pos => exact nomatch (congrArg (·.locationId) he).symm.trans hl
    case neg =>
      subst he
      exact hin <| (inTree_iff h hx hr₀).mpr ⟨n.id, hl, hxn⟩

section Deletion

variable [ScanOrder] {ctx : LaboratoryContext}

theorem wp_deleteLocation (h : Invariant d) (hx : x ∈ d.locations)
    (hp : validatePermission d ctx.authorizationActor .location (.delete x.id))
    (hn : ¬Collides d x.id) :
    (deleteLocation ctx x.id).wp (fun _ => True) (fun _ => False) (fun _ _ => True) d := by
  refine wp_bind.mpr <| wp_read.mpr <| wp_bind.mpr <| wp_require.mpr ⟨fun _ => ?_, fun hn => hn hp⟩
  refine wp_bind.mpr <| wp_selectForUpdate.mpr ?_
  have hf : (d.tree .location).find? x.id = some x := Table.find?_key hx
  rw [hf]
  refine wp_bind.mpr <| wp_forAll_done.mpr <| wp_bind.mpr <| wp_read.mpr <| wp_bind.mpr ?_
  refine wp_mono (wp_clearInventoryItemLocationsInTree fun r rs t hb hc => ?_) fun _ d₁ h₁ => ?_
  case refine_1 =>
    refine absurd (hb.clash?_eq_none (g := clear) (fun _ => rfl) ((admits_clear_iff h hx).mpr hn) ?_) hc
    exact fun r hr r' hr' _ _ hk => conflict?_clear hr hr' hk
  case refine_2 =>
    obtain ⟨hd₁, hf⟩ := h₁
    have hs : Trees.subtree .location x.laboratoryId x.path d₁ =
        Trees.subtree .location x.laboratoryId x.path d := by
      rw [hd₁]
      rfl
    refine wp_bind.mpr <| Trees.wp_deleteTree (fun _ _ _ => trivial) fun d' hd' hr => ?_
    rw [hs] at hd' hr
    obtain ⟨n, hn, href⟩ := hr
    exact not_isReferenced h hx hd₁ hf hd' hn href

theorem not_collides_of_run (h : Invariant d) (hx : x ∈ d.locations) :
    (deleteLocation ctx x.id).wlp (fun _ _ => ¬Collides d x.id) d := by
  refine wp_readOnly_bind readOnly_read fun _ => wp_readOnly_bind readOnly_require fun _ => ?_
  refine wp_bind.mpr <| wp_selectForUpdate.mpr ?_
  have hf : (d.tree .location).find? x.id = some x := Table.find?_key hx
  rw [hf]
  refine wp_bind.mpr <| wp_forAll_done.mpr <| wp_bind.mpr <| wp_read.mpr <| wp_bind.mpr ?_
  refine wp_mono clearInventoryItemLocationsInTree_eq fun _ d₁ h₁ => ?_
  have ha := Table.admits_of_find? (g := clear) (fun _ => rfl) h₁.right
  exact wlp_of_forall fun _ _ => (admits_clear_iff h hx).mp ha

theorem deletion_succeeds_iff [TextFormats] [UnicodeSegmentation] (h : Reachable d)
    (hx : x ∈ d.locations)
    (hp : validatePermission d ctx.authorizationActor .location (.delete x.id)) :
    (∃ cleared d', (deleteLocation ctx x.id).run d = .ok (cleared, d') ∧
      Deleted x.id d d' cleared) ↔ ¬Collides d x.id := by
  constructor
  case mp =>
    rintro ⟨cleared, d', hr, _⟩
    have hw : (deleteLocation ctx x.id).wlp (fun _ _ => ¬Collides d x.id) d :=
      not_collides_of_run h.invariant hx
    exact wp_run hw hr
  case mpr =>
    intro hn
    obtain ⟨cleared, d', hr, _⟩ := wp_total (wp_deleteLocation h.invariant hx hp hn)
    have hw : (deleteLocation ctx x.id).wlp (fun cleared d' => Deleted x.id d d' cleared) d :=
      deleteLocation_deleted h.invariant.locations.forest
    exact ⟨cleared, d', hr, wp_run (Q := fun cleared d' => Deleted x.id d d' cleared) hw hr⟩

end Deletion

section Examples

def shelving : Call :=
  .location (.create ⟨none, "Shelf", "shelf", none⟩ 80)

def placing (locationId : Option Uuid) (newId : Uuid) : Call :=
  .item (.create 60 { bottles "available" with locationId } (fun _ => newId) fun _ _ => 0)

-- Some bottles are on a shelf.
def shelf : LocationRow where
  id := 80
  laboratoryId := 1
  parentId := none
  name := "Shelf"
  code := ⟨"shelf", by decide⟩
  path := (Ltree.ofText? "shelf").getD []
  depth := 0
  description := none

def shelved : Database :=
  let _ := ScanOrder.stored
  let _ := tallied
  let _ := UnicodeSegmentation.characters
  ((placing (some 80) 61).handle admin).after <| (shelving.handle admin).after storeroom

def placed (locationId : Option Uuid) (newId : Uuid) : InventoryItemRow where
  inventoryItemId := newId
  assetId := 60
  laboratoryId := 1
  trackingMode := .quantity
  serialNumber := none
  batchNumber := none
  quantityOnHand := 2
  quantityAllocated := 0
  locationId := locationId
  status := .available
  publicNotes := none
  internalNotes := none

theorem shelf_shelved : shelf ∈ shelved.locations := by
  have hrows : shelved.locations.rows = [shelf] := by decide +kernel
  exact Table.mem_def.mpr <| by simp [hrows]

theorem deletion_succeeds_iff_shelved :
    let _ := ScanOrder.stored
    let _ := tallied
    let _ := UnicodeSegmentation.characters
    shelved.assetInventoryItems.rows = [placed (some 80) 61] ∧
    ((∃ cleared d', (deleteLocation admin shelf.id).run shelved = .ok (cleared, d') ∧
      Deleted shelf.id shelved d' cleared) ↔ ¬Collides shelved shelf.id) := by
  let _ := ScanOrder.stored
  let _ := tallied
  let _ := UnicodeSegmentation.characters
  have h : Reachable storeroom := .init rfl rfl rfl
  have h : Reachable shelved := (h.call admin shelving).call admin (placing (some 80) 61)
  exact ⟨by decide +kernel, deletion_succeeds_iff h shelf_shelved (by decide +kernel)⟩

-- Others stand about.
def scattered : Database :=
  let _ := ScanOrder.stored
  let _ := tallied
  let _ := UnicodeSegmentation.characters
  ((placing none 62).handle admin).after shelved

theorem not_deleted_scattered :
    let _ := ScanOrder.stored
    let _ := tallied
    let _ := UnicodeSegmentation.characters
    Reachable scattered ∧ shelf ∈ scattered.locations ∧
    validatePermission scattered admin.authorizationActor .location (.delete shelf.id) ∧
    scattered.assetInventoryItems.rows = [placed (some 80) 61, placed none 62] ∧
    (deleteLocation admin shelf.id).run scattered = .error (.conflict "Location already exists") := by
  let _ := ScanOrder.stored
  let _ := tallied
  let _ := UnicodeSegmentation.characters
  have h : Reachable storeroom := .init rfl rfl rfl
  have h := (h.call admin shelving).call admin (placing (some 80) 61)
  have hrows : scattered.locations.rows = [shelf] := by decide +kernel
  have hshelf : shelf ∈ scattered.locations := Table.mem_def.mpr <| by simp [hrows]
  exact ⟨h.call admin (placing none 62), hshelf, by decide +kernel, by decide +kernel, rfl⟩

end Examples

end Locations

end LabInventory
