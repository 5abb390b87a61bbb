import LabInventory.InventoryItems.Aggregates
import LabInventory.InventoryItems.Reachable

open Sql Program

namespace LabInventory

namespace InventoryItems

open DoublePrecision

variable {d d' : Database} {ids : List Uuid} {patch : UpdateInventoryItem}
  {r r' : InventoryItemRow} {rows : List InventoryItemRow}

-- What the constraints of the table promise.
structure Constrained (d : Database) : Prop where
  checked : ∀ r ∈ d.assetInventoryItems, Checked r
  hasAsset : ∀ r ∈ d.assetInventoryItems, HasAsset d r
  located : ∀ r ∈ d.assetInventoryItems, Located d r.laboratoryId r.locationId

-- A patch that may be applied to items of both tracking modes.
structure IsBatchPatch (patch : UpdateInventoryItem) : Prop where
  serialNumber : patch.serialNumber = none
  batchNumber : UpdateInventoryItem.Normalizes patch
  quantityOnHand : patch.quantityOnHand = none
  quantityAllocated : patch.quantityAllocated = none

theorem isBatchPatch [UnicodeSegmentation] {payload : BatchUpdateJsonData}
    (h : payload.toUpdateInventoryItem = .ok patch) : IsBatchPatch patch := by
  have hb := normalizes_of_parse h
  simp only [BatchUpdateJsonData.toUpdateInventoryItem, UpdateInventoryItem.parse] at h
  obtain ⟨serialNumber, hs, h⟩ := Except.bind_eq_ok.mp h
  obtain ⟨status, _, h⟩ := Except.bind_eq_ok.mp h
  obtain rfl := Except.pure_eq_ok.mp h
  exact ⟨(Except.pure_eq_ok.mp hs).symm, hb, rfl, rfl⟩

def IsNamed (ids : List Uuid) (r : InventoryItemRow) : Bool :=
  ids.contains r.inventoryItemId

theorem getD_resolve {α : Type} {u : NullableUpdate α} {current other : Option α} {default : α}
    (h : (u.resolve current).getD default = other.getD default) :
    (u.resolve current).getD default = (u.resolve other).getD default := by
  cases u
  case unchanged => exact h
  all_goals rfl

section Patches

variable [DoublePrecision]

-- What becomes of a quantity that is written back as it has been read. It stays what it is, unless
-- it has more than 15 significant digits.
def reread (q : ℚ) : ℚ :=
  toNumeric (nearest q)

theorem reread_mono : Monotone reread :=
  toNumeric_mono.comp nearest_mono

theorem reread_natCast {n : Nat} (h : n < 10 ^ 15) : reread n = n := by
  rw [reread, nearest_natCast h, toNumeric_natCast h]

theorem reread_zero : reread 0 = 0 :=
  mod_cast reread_natCast (show 0 < 10 ^ 15 by decide)

theorem reread_one : reread 1 = 1 :=
  mod_cast reread_natCast (show 1 < 10 ^ 15 by decide)

theorem nearest_nonneg {q : ℚ} (h : 0 ≤ q) : 0 ≤ nearest q := by
  have h₀ : nearest 0 = 0 := mod_cast nearest_natCast (show 0 < 10 ^ 15 by decide)
  exact h₀.symm.trans_le (nearest_mono h)

def patched (patch : UpdateInventoryItem) (r : InventoryItemRow) : InventoryItemRow :=
  { r with
    batchNumber := patch.batchNumber.resolve r.batchNumber
    quantityOnHand := reread r.quantityOnHand
    quantityAllocated := reread r.quantityAllocated
    locationId := patch.locationId.resolve r.locationId
    status := patch.status.getD r.status
    publicNotes := patch.publicNotes.resolve r.publicNotes
    internalNotes := patch.internalNotes.resolve r.internalNotes
  }

theorem redescribed_patched : Redescribed r (patched patch r) :=
  rfl

-- No check of the table is in the way of a patched item.
theorem checked_patched (hp : IsBatchPatch patch) (hc : Checked r) : Checked (patched patch r) where
  onHand := reread_zero.symm.trans_le (reread_mono hc.onHand)
  allocated := reread_zero.symm.trans_le (reread_mono hc.allocated)
  allocated_le := reread_mono hc.allocated_le
  batchNumber := by
    have hn := hp.batchNumber none nofun
    simp only [patched]
    cases hb : patch.batchNumber
    case unchanged => exact hc.batchNumber
    case set => exact (hb ▸ hn).btrim_ne_empty
    case clear => exact nofun
  mode := by
    refine hc.mode.imp_left fun ⟨hm, hs, ho, ha⟩ => ⟨hm, hs, ?_, ?_⟩
    case refine_1 => exact (congrArg reread ho).trans reread_one
    case refine_2 =>
      refine ha.imp (fun ha => ?_) fun ha => ?_
      case refine_1 => exact (congrArg reread ha).trans reread_zero
      case refine_2 => exact (congrArg reread ha).trans reread_one

-- All items are patched at once.
def patchedAmong (ids : List Uuid) (patch : UpdateInventoryItem) (r : InventoryItemRow) :
    InventoryItemRow :=
  if IsNamed ids r then patched patch r else r

theorem redescribed_patchedAmong : Redescribed r (patchedAmong ids patch r) := by
  unfold patchedAmong
  split_ifs <;> rfl

structure Patchable (d : Database) (ids : List Uuid) (patch : UpdateInventoryItem) : Prop where
  located : ∀ l, patch.locationId = .set l → ∀ r ∈ d.assetInventoryItems, IsNamed ids r →
    Located d r.laboratoryId (some l)
  storable : ∀ r ∈ d.assetInventoryItems, IsNamed ids r →
    ∀ s ∈ (patched patch r).texts, StorableText s
  distinct : ∀ r ∈ d.assetInventoryItems, IsNamed ids r → ∀ r' ∈ d.assetInventoryItems,
    r'.inventoryItemId ≠ r.inventoryItemId →
    ¬SameAggregate (patchedAmong ids patch r) (patchedAmong ids patch r')

structure Patched (d : Database) (ids : List Uuid) (patch : UpdateInventoryItem) (d' : Database) :
    Prop where
  items : ∀ r, r ∈ d'.assetInventoryItems ↔
    ∃ r₀ ∈ d.assetInventoryItems, r = patchedAmong ids patch r₀
  checked : ∀ r ∈ d'.assetInventoryItems, Checked r
  elsewhere : d' = { d with assetInventoryItems := d'.assetInventoryItems }

-- Patching an item again leaves it where it is, so it gets no closer to those yet to be patched than
-- it will be in the end.
theorem conflict?_patched (hr : r ∈ d.assetInventoryItems) (hr' : r' ∈ d.assetInventoryItems)
    (hk : r'.inventoryItemId ≠ r.inventoryItemId)
    (h : conflict? (patched patch r) (patched patch r') = none) :
    conflict? (patched patch r) r' = none := by
  have hn := (conflict?_eq_none_iff hr hr' hk redescribed_patched redescribed_patched).mp h
  refine (conflict?_eq_none_iff hr hr' hk redescribed_patched .refl).mpr fun hs => hn ?_
  have hstatus : patch.status.getD r.status = patch.status.getD r'.status := by
    cases hp : patch.status
    case none => simpa [patched, hp] using hs.status
    case some => rfl
  exact { hs with
    batchNumber := getD_resolve hs.batchNumber
    locationId := getD_resolve hs.locationId
    status := hstatus
  }

theorem admits_patched_iff : d.assetInventoryItems.Admits (IsNamed ids) (patched patch) ↔
    ∀ r ∈ d.assetInventoryItems, IsNamed ids r → ∀ r' ∈ d.assetInventoryItems,
      r'.inventoryItemId ≠ r.inventoryItemId →
      ¬SameAggregate (patchedAmong ids patch r) (patchedAmong ids patch r') := by
  refine forall₃_congr fun r hr hp => forall₃_congr fun r' hr' hk => ?_
  rw [patchedAmong, if_pos hp]
  exact conflict?_eq_none_iff hr hr' hk redescribed_patched redescribed_patchedAmong

-- A row which gets past everything that is looked at before it is written.
structure Writable (d : Database) (r : InventoryItemRow) : Prop where
  located : Located d r.laboratoryId r.locationId
  storable : ∀ s ∈ r.texts, StorableText s

theorem located_patched_iff (h : Constrained d) (hr : r ∈ d.assetInventoryItems) :
    Located d r.laboratoryId (patched patch r).locationId ↔
      ∀ l, patch.locationId = .set l → Located d r.laboratoryId (some l) := by
  simp only [patched]
  cases patch.locationId
  case unchanged => exact ⟨fun _ => nofun, fun _ => h.located r hr⟩
  case set => exact ⟨fun hl _ he => NullableUpdate.set.inj he ▸ hl, fun hl => hl _ rfl⟩
  case clear => exact ⟨fun _ => nofun, fun _ => nofun⟩

theorem wp_applyInventoryItemPatch {R : ApiError → Prop} {Q : InventoryItemRow → Database → Prop}
    (hp : IsBatchPatch patch) (hf : d.assetInventoryItems.find? r.inventoryItemId = some r)
    (hc : Checked r) (ha : HasAsset d r)
    (hq : Writable d (patched patch r) → ∀ d',
      d' = { d with assetInventoryItems := d'.assetInventoryItems } →
      (∀ k, d'.assetInventoryItems.find? k =
        if r.inventoryItemId = k then some (patched patch r) else d.assetInventoryItems.find? k) →
      Q (patched patch r) d')
    (hr : ¬(Writable d (patched patch r) ∧
      d.assetInventoryItems.clash? (patched patch r) = none) → ∀ e, R e) :
    (applyInventoryItemPatch r patch).wp (fun _ => True) R Q d := by
  have hmode : validatePatchAgainstTrackingMode patch r.trackingMode = .ok () := by
    cases r.trackingMode
    all_goals simp [validatePatchAgainstTrackingMode, hp.serialNumber, hp.quantityOnHand,
      hp.quantityAllocated]
  have hquantities : validateQuantities (patch.quantityOnHand.getD (nearest r.quantityOnHand))
      (patch.quantityAllocated.getD (nearest r.quantityAllocated)) = .ok () := by
    rw [hp.quantityOnHand, hp.quantityAllocated]
    simp [validateQuantities, Except.bind_eq_ok, nearest_nonneg hc.onHand,
      nearest_nonneg hc.allocated, nearest_mono hc.allocated_le]
  have hupdate : (fun r' : InventoryItemRow => { r' with
      serialNumber := (patch.serialNumber.map (·.val)) <|> r.serialNumber
      batchNumber := patch.batchNumber.resolve r.batchNumber
      quantityOnHand := toNumeric (patch.quantityOnHand.getD (nearest r.quantityOnHand))
      quantityAllocated := toNumeric (patch.quantityAllocated.getD (nearest r.quantityAllocated))
      locationId := patch.locationId.resolve r.locationId
      status := patch.status.getD r.status
      publicNotes := patch.publicNotes.resolve r.publicNotes
      internalNotes := patch.internalNotes.resolve r.internalNotes
    }) r = patched patch r := by
    simp [patched, reread, hp.serialNumber, hp.quantityOnHand, hp.quantityAllocated]
  have htexts : [(patch.serialNumber.map (·.val)) <|> r.serialNumber,
      patch.batchNumber.resolve r.batchNumber, patch.publicNotes.resolve r.publicNotes,
      patch.internalNotes.resolve r.internalNotes].reduceOption = (patched patch r).texts := by
    simp [InventoryItemRow.texts, patched, hp.serialNumber]
  refine wp_bind.mpr <| wp_ofExcept.mpr ⟨fun _ _ => ?_, fun _ he => absurd (hmode.symm.trans he) Except.ok_ne_error⟩
  refine wp_bind.mpr <| wp_validateOptionalLocation (fun hl => ?_)
    fun hl => hr fun h => hl h.left.located
  refine wp_bind.mpr <| wp_ofExcept.mpr
    ⟨fun _ _ => ?_, fun _ he => absurd (hquantities.symm.trans he) Except.ok_ne_error⟩
  refine wp_bind.mpr <| wp_bind.mpr <| Transaction.wp_bindTexts.mpr ?_
  rw [htexts]
  refine ⟨fun hs => wp_bind.mpr <| wp_selectForUpdate.mpr ?_,
    fun hs => hr (fun h => hs h.left.storable) _⟩
  rw [hf]
  dsimp only at hupdate ⊢
  rw [hupdate]
  refine wp_exec.mpr ⟨fun d' ha' => ⟨trivial, ?_⟩, fun c ha' => ?_⟩
  case refine_1 =>
    obtain ⟨hu, hd⟩ := apply_updateItem.mp ha'
    have hfind k : d'.assetInventoryItems.find? k =
        if r.inventoryItemId = k then some (patched patch r) else d.assetInventoryItems.find? k := by
      rw [Table.find?_update hu]
      by_cases hk : r.inventoryItemId = k
      case pos =>
        subst hk
        exact (if_pos rfl).trans <| (congrArg (Option.map _) hf).trans (if_pos rfl).symm
      case neg => exact (if_neg hk).trans (if_neg hk).symm
    have hreread : fetchInventoryItem? d' r.inventoryItemId = some (patched patch r) := by
      refine Option.filter_eq_some_iff.mpr ⟨(hfind _).trans (if_pos rfl), ?_⟩
      rw [hd]
      exact ha
    refine wp_bind.mpr <| wp_selectForUpdate.mpr ?_
    rw [hreread]
    exact hq ⟨hl, hs⟩ d' hd hfind
  case refine_2 =>
    refine hr (fun h => ?_) _
    obtain ⟨t, ht⟩ := Table.exists_update h.right
    have ha : d.apply (.assetInventoryItems (.update (patched patch r))) =
        .ok { d with assetInventoryItems := t } := apply_updateItem.mpr ⟨ht, rfl⟩
    exact absurd (ha.symm.trans ha') Except.ok_ne_error

section Loop

variable {d₀ : Database}

-- What holds while the rows that are left of `d₀` remain to be patched.
structure Patching (d₀ : Database) (ids : List Uuid) (patch : UpdateInventoryItem)
    (rows : List InventoryItemRow) (d : Database) : Prop where
  elsewhere : d = { d₀ with assetInventoryItems := d.assetInventoryItems }
  progress : BulkProgress d₀.assetInventoryItems (IsNamed ids) (some ∘ patched patch) rows
    d.assetInventoryItems

theorem Patching.mem (h : Patching d₀ ids patch (r :: rows) d) : r ∈ d₀.assetInventoryItems :=
  (Table.find?_eq_some.mp (h.progress.found r (.head _)).left).left

theorem wp_applyInventoryItemPatches (hc : Constrained d₀) (hp : IsBatchPatch patch)
    (h : Patching d₀ ids patch rows d) :
    (applyInventoryItemPatches patch rows).wp (fun _ => True)
      (fun _ => ¬((∀ r ∈ rows, Writable d₀ (patched patch r)) ∧
        d₀.assetInventoryItems.Admits (IsNamed ids) (patched patch)))
      (fun _ d' => (∀ r ∈ rows, Writable d₀ (patched patch r)) ∧
        Patching d₀ ids patch [] d') d := by
  induction rows generalizing d
  case nil => exact ⟨fun _ hr => absurd hr List.not_mem_nil, h⟩
  case cons r rows ih =>
    have hr := h.mem
    have hlocated : Located d r.laboratoryId (patched patch r).locationId ↔
        Located d₀ r.laboratoryId (patched patch r).locationId := by
      rw [h.elsewhere]
      rfl
    have hwritable : Writable d (patched patch r) ↔ Writable d₀ (patched patch r) :=
      ⟨fun h => ⟨hlocated.mp h.located, h.storable⟩, fun h => ⟨hlocated.mpr h.located, h.storable⟩⟩
    have hasset : HasAsset d r := by
      rw [h.elsewhere]
      exact hc.hasAsset r hr
    refine wp_bind.mpr <| wp_applyInventoryItemPatch hp h.progress.next.left (hc.checked r hr) hasset
      (fun hl d₁ hd₁ hf₁ => ?_) fun hn _ hadmit => hn ?_
    case refine_1 =>
      have h₁ : Patching d₀ ids patch rows d₁ := by
        refine ⟨?_, h.progress.visit hf₁⟩
        rw [hd₁, h.elsewhere]
      refine wp_imp (wp_mono (ih h₁) fun _ d' h' => ?_) (fun _ => id) fun _ hn hadmit => hn ?_
      case refine_1 => exact ⟨List.forall_mem_cons.mpr ⟨hwritable.mp hl, h'.left⟩, h'.right⟩
      case refine_2 => exact ⟨(List.forall_mem_cons.mp hadmit.left).right, hadmit.right⟩
    case refine_2 =>
      refine ⟨hwritable.mpr <| hadmit.left r (.head _), ?_⟩
      refine h.progress.clash?_eq_none (fun _ => rfl) hadmit.right ?_
      exact fun r hr r' hr' _ _ hk => conflict?_patched hr hr' hk

theorem wp_patched (hc : Constrained d) (hp : IsBatchPatch patch)
    (hr : rows.Perm (d.assetInventoryItems.filter (IsNamed ids)).rows) :
    (applyInventoryItemPatches patch rows).wp (fun _ => True) (fun _ => ¬Patchable d ids patch)
      (fun _ d' => Patchable d ids patch ∧ Patched d ids patch d') d := by
  have hwritable : (∀ r ∈ rows, Writable d (patched patch r)) ↔
      (∀ l, patch.locationId = .set l → ∀ r ∈ d.assetInventoryItems, IsNamed ids r →
        Located d r.laboratoryId (some l)) ∧
      ∀ r ∈ d.assetInventoryItems, IsNamed ids r → ∀ s ∈ (patched patch r).texts, StorableText s := by
    have hmem r : r ∈ rows ↔ r ∈ d.assetInventoryItems ∧ IsNamed ids r :=
      hr.mem_iff.trans Table.mem_filter
    constructor
    case mp =>
      refine fun h => ⟨fun l hl r hm hn => ?_, fun r hm hn => (h r <| (hmem r).mpr ⟨hm, hn⟩).storable⟩
      exact (located_patched_iff hc hm).mp (h r <| (hmem r).mpr ⟨hm, hn⟩).located l hl
    case mpr =>
      intro h r hm
      obtain ⟨hm, hn⟩ := (hmem r).mp hm
      exact ⟨(located_patched_iff hc hm).mpr fun l hl => h.left l hl r hm hn, h.right r hm hn⟩
  refine wp_imp (wp_mono (wp_applyInventoryItemPatches hc hp ⟨rfl, .start hr⟩) fun _ d' h => ?_)
    (fun _ => id) fun _ hn hpatch => hn ?_
  case refine_2 =>
    exact ⟨hwritable.mpr ⟨hpatch.located, hpatch.storable⟩, admits_patched_iff.mpr hpatch.distinct⟩
  obtain ⟨hl, h⟩ := h
  obtain ⟨hl, hs⟩ := hwritable.mp hl
  have hf : ∀ k, d'.assetInventoryItems.find? k = (d.assetInventoryItems.find? k).bind fun r =>
      if IsNamed ids r then some (patched patch r) else some r := fun k => by
    simpa using h.progress.find? k
  refine ⟨⟨hl, hs, admits_patched_iff.mp <| Table.admits_of_find? (fun _ => rfl) hf⟩, ?_⟩
  refine ⟨fun _ => Table.mem_of_find?_bind hf, fun r hr => ?_, h.elsewhere⟩
  obtain ⟨r₀, hr₀, rfl⟩ := (Table.mem_of_find?_bind hf).mp hr
  split_ifs
  case pos => exact checked_patched hp (hc.checked r₀ hr₀)
  case neg => exact hc.checked r₀ hr₀

end Loop

end Patches

def AllFound (d : Database) (ids : List Uuid) : Prop :=
  ∀ id ∈ ids, ∃ r ∈ d.assetInventoryItems, r.inventoryItemId = id

theorem wp_fetchInventoryItemsForUpdate {R : ApiError → Prop}
    {Q : List InventoryItemRow → Database → Prop} (hc : Constrained d)
    (hq : ∀ rows, rows.Perm (d.assetInventoryItems.filter (IsNamed ids)).rows → Q rows d) :
    (fetchInventoryItemsForUpdate ids).wp (fun _ => True) R Q d := by
  refine wp_selectAllForUpdate.mpr <| hq _ ?_
  have hfound : d.assetInventoryItems.rows.filter (fun r =>
      ids.contains r.inventoryItemId && HasAsset d r) =
      (d.assetInventoryItems.filter (IsNamed ids)).rows := by
    refine List.filter_congr fun r hr => ?_
    rw [hc.hasAsset r hr, Bool.and_true]
    rfl
  have hfetch : ∀ r ∈ (d.assetInventoryItems.filter (IsNamed ids)).rows,
      fetchInventoryItem? d r.inventoryItemId = some r := by
    intro r hr
    obtain ⟨hr, _⟩ := Table.mem_filter.mp <| Table.mem_def.mpr hr
    exact Option.filter_eq_some_iff.mpr ⟨Table.find?_key hr, hc.hasAsset r hr⟩
  dsimp only
  rw [hfound]
  refine ((List.perm_insertionSort _ _).filterMap _).trans ?_
  rw [List.filterMap_map]
  refine .of_eq ?_
  exact (List.filterMap_congr hfetch).trans List.filterMap_some

theorem length_eq_iff (hn : ids.Nodup)
    (hr : rows.Perm (d.assetInventoryItems.filter (IsNamed ids)).rows) :
    rows.length = ids.length ↔ AllFound d ids := by
  have hmem r : r ∈ rows ↔ r ∈ d.assetInventoryItems ∧ IsNamed ids r :=
    hr.mem_iff.trans Table.mem_filter
  have hkeys : (rows.map (·.inventoryItemId)).Nodup :=
    List.pairwise_map.mpr <| hr.symm.pairwise (d.assetInventoryItems.filter _).keyed Ne.symm
  have hsub : (rows.map (·.inventoryItemId)).Subperm ids := by
    refine List.subperm_of_subset hkeys fun id hid => ?_
    obtain ⟨r, hm, rfl⟩ := List.mem_map.mp hid
    exact List.contains_iff_mem.mp ((hmem r).mp hm).right
  constructor
  case mp =>
    intro hl id hid
    have hperm := hsub.perm_of_length_le (by simp [hl])
    obtain ⟨r, hm, rfl⟩ := List.mem_map.mp <| hperm.mem_iff.mpr hid
    exact ⟨r, ((hmem r).mp hm).left, rfl⟩
  case mpr =>
    intro hf
    have hsub' : ids.Subperm (rows.map (·.inventoryItemId)) := by
      refine List.subperm_of_subset hn fun id hid => ?_
      obtain ⟨r, hm, rfl⟩ := hf id hid
      exact List.mem_map.mpr ⟨r, (hmem r).mpr ⟨hm, List.contains_iff_mem.mpr hid⟩, rfl⟩
    simpa using (hsub.antisymm hsub').length_eq

theorem wp_requirePermissions {actor : Actor} {resource : ResourceType} {e : ApiError}
    {actions : List Action} {R : ApiError → Prop} {Q : Unit → Database → Prop}
    (hq : (∀ action ∈ actions, validatePermission d actor resource action) → Q () d)
    (hr : ¬(∀ action ∈ actions, validatePermission d actor resource action) → R e) :
    (requirePermissions actor resource e actions).wp (fun _ => True) R Q d := by
  induction actions
  case nil => exact hq nofun
  case cons action actions ih =>
    refine wp_bind.mpr <| wp_read.mpr <| wp_bind.mpr <| wp_require.mpr ⟨fun hp => ?_, fun hn => ?_⟩
    case refine_1 =>
      refine ih (fun h => hq <| List.forall_mem_cons.mpr ⟨hp, h⟩) fun hn => hr fun h => hn ?_
      exact (List.forall_mem_cons.mp h).right
    case refine_2 => exact hr fun h => hn (List.forall_mem_cons.mp h).left

section Requests

variable [DoublePrecision] [UnicodeSegmentation] {ctx : LaboratoryContext}
variable {payload : BatchUpdateJsonData}

structure Acceptable (d : Database) (ids : List Uuid) (patch : UpdateInventoryItem) : Prop where
  ne_nil : ids ≠ []
  hasBatchUpdates : patch.hasBatchUpdates
  found : AllFound d ids
  patchable : Patchable d ids patch

theorem wp_batchUpdateInventoryItems (hc : Constrained d)
    (hp : payload.toUpdateInventoryItem = .ok patch) (hn : payload.inventoryItemIds.Nodup)
    (hperm : ∀ r ∈ d.assetInventoryItems, IsNamed payload.inventoryItemIds r →
      validatePermission d ctx.authorizationActor .inventoryItem (.update r.inventoryItemId)) :
    (batchUpdateInventoryItems ctx payload).wp (fun _ => True)
      (fun _ => ¬Acceptable d payload.inventoryItemIds patch)
      (fun _ d' => Acceptable d payload.inventoryItemIds patch ∧
        Patched d payload.inventoryItemIds patch d') d := by
  refine wp_bind.mpr <| Transaction.wp_validated.mpr ⟨fun ids hids => ?_, fun e he h => ?_⟩
  case refine_2 => simp [InventoryItemIds.parse, h.ne_nil, hn] at he
  case refine_1 =>
    have hne : payload.inventoryItemIds ≠ [] := by
      intro hnil
      simp [InventoryItemIds.parse, hnil] at hids
    have hv : ids.values = payload.inventoryItemIds := by
      simp only [InventoryItemIds.parse, hne, hn, dif_pos, dif_neg, not_false_eq_true,
        Except.ok.injEq] at hids
      exact hids ▸ rfl
    refine wp_bind.mpr <| Transaction.wp_validated.mpr
      ⟨fun patch' hp' => ?_, fun _ he => nomatch hp.symm.trans he⟩
    obtain rfl := Except.ok.inj <| hp.symm.trans hp'
    refine wp_bind.mpr <| wp_require.mpr ⟨fun hb => ?_, fun hb h => hb h.hasBatchUpdates⟩
    rw [hv]
    refine wp_bind.mpr <| wp_requirePermissions (fun _ => ?_) fun hdenied h => hdenied ?_
    case refine_2 =>
      intro action ha
      obtain ⟨id, hid, rfl⟩ := List.mem_map.mp ha
      obtain ⟨r, hr, rfl⟩ := h.found id hid
      exact hperm r hr <| List.contains_iff_mem.mpr hid
    case refine_1 =>
      refine wp_bind.mpr <| wp_fetchInventoryItemsForUpdate hc fun rows hrows => ?_
      have hvalid : validateRequestedIds payload.inventoryItemIds rows = .ok () ↔
          AllFound d payload.inventoryItemIds := by
        simp [validateRequestedIds, Except.bind_eq_ok, hne, hn, length_eq_iff hn hrows]
      refine wp_bind.mpr <| wp_ofExcept.mpr ⟨fun _ hf => ?_, fun _ he h => ?_⟩
      case refine_2 => exact nomatch (hvalid.mpr h.found).symm.trans he
      case refine_1 =>
        have hf := hvalid.mp hf
        refine wp_imp (wp_mono (wp_patched hc (isBatchPatch hp) hrows) fun _ _ h => ?_) (fun _ => id)
          fun _ hpatch h => hpatch h.patchable
        exact ⟨⟨hne, hb, hf, h.left⟩, h.right⟩

theorem batch_update_eq_simultaneous (hc : Constrained d)
    (hp : payload.toUpdateInventoryItem = .ok patch) (hn : payload.inventoryItemIds.Nodup)
    (hperm : ∀ r ∈ d.assetInventoryItems, IsNamed payload.inventoryItemIds r →
      validatePermission d ctx.authorizationActor .inventoryItem (.update r.inventoryItemId)) :
    (batchUpdateInventoryItems ctx payload).Settles (Acceptable d payload.inventoryItemIds patch)
      (Patched d payload.inventoryItemIds patch) d ∧
    ∀ rows, rows.Perm (d.assetInventoryItems.filter (IsNamed payload.inventoryItemIds)).rows →
      (applyInventoryItemPatches patch rows).Settles (Patchable d payload.inventoryItemIds patch)
        (Patched d payload.inventoryItemIds patch) d :=
  ⟨settles_of_wp <| wp_batchUpdateInventoryItems hc hp hn hperm,
    fun _ hr => settles_of_wp <| wp_patched hc (isBatchPatch hp) hr⟩

end Requests

section Examples

open Inventory

theorem constrained_of_invariant (h : Invariant d) : Constrained d where
  checked r hr := (h.stocked.items r hr).checked
  hasAsset r hr := by
    obtain ⟨a, ha, _⟩ := (h.stocked.items r hr).asset
    simp [HasAsset, ha]
  located := h.housed

def relabelled (inventoryItemIds : List Uuid) : BatchUpdateJsonData where
  inventoryItemIds := inventoryItemIds
  batchNumber := some (some "B")
  locationId := none
  status := none
  publicNotes := none
  internalNotes := none

def relabelling : UpdateInventoryItem where
  serialNumber := none
  batchNumber := .set "B"
  quantityOnHand := none
  quantityAllocated := none
  locationId := .unchanged
  status := none
  publicNotes := .unchanged
  internalNotes := .unchanged

theorem constrained_delivered : Constrained delivered := by
  let _ := ScanOrder.stored
  let _ := tallied
  let _ := UnicodeSegmentation.characters
  have h : Reachable storeroom := .init rfl rfl rfl
  have h : Reachable delivered :=
    (h.call admin (delivery "available" 61)).call admin (delivery "borrowed" 62)
  exact constrained_of_invariant h.invariant

theorem permitted_delivered {ids : List Uuid} : ∀ r ∈ delivered.assetInventoryItems,
    IsNamed ids r →
    validatePermission delivered admin.authorizationActor .inventoryItem
      (.update r.inventoryItemId) := by
  have hp : delivered.assetInventoryItems.rows.all fun r =>
      validatePermission delivered admin.authorizationActor .inventoryItem
        (.update r.inventoryItemId) := by decide +kernel
  exact fun r hr _ => List.all_eq_true.mp hp r hr

-- All bottles turn out to be of one batch.
theorem batch_update_eq_simultaneous_delivered :
    let _ := UnicodeSegmentation.characters
    (batchUpdateInventoryItems admin (relabelled [62, 61])).Settles
      (Acceptable delivered [62, 61] relabelling) (Patched delivered [62, 61] relabelling)
      delivered ∧
    ∀ rows, rows.Perm (delivered.assetInventoryItems.filter (IsNamed [62, 61])).rows →
      (applyInventoryItemPatches relabelling rows).Settles
        (Patchable delivered [62, 61] relabelling) (Patched delivered [62, 61] relabelling)
        delivered := by
  let _ := UnicodeSegmentation.characters
  exact batch_update_eq_simultaneous constrained_delivered rfl (by decide) permitted_delivered

-- There has to be something to update.
theorem not_updated_empty :
    let _ := UnicodeSegmentation.characters
    Constrained delivered ∧ (relabelled []).toUpdateInventoryItem = .ok relabelling ∧
    AllFound delivered [] ∧ Patchable delivered [] relabelling ∧
    (batchUpdateInventoryItems admin (relabelled [])).run delivered =
      .error (.validation "inventory_item_ids cannot be empty") := by
  let _ := UnicodeSegmentation.characters
  refine ⟨constrained_delivered, rfl, nofun, ?_, rfl⟩
  constructor
  case located => exact fun _ _ _ _ => nofun
  case storable => exact fun _ _ => nofun
  case distinct => exact fun _ _ => nofun

end Examples

end InventoryItems

end LabInventory
