import LabInventory.InventoryItems.Merging

open Sql Program

namespace LabInventory

open Text

-- What makes up a sound item before it is stored.
structure NewInventoryItem.Sound (mode : AssetTrackingMode) (item : NewInventoryItem) : Prop where
  allocated : 0 ≤ item.quantityAllocated
  onHand : item.quantityAllocated ≤ item.quantityOnHand
  serialized : mode = .serialized → item.serialNumber.isSome ∧ item.quantityOnHand = 1 ∧
    item.quantityAllocated = 0
  quantity : mode = .quantity → item.serialNumber = none
  batchNumber : Normalized item.batchNumber

theorem NewInventoryItem.sound_serialized {serialNumber batchNumber locationId status publicNotes}
    {internalNotes} : (serialized serialNumber batchNumber locationId status publicNotes
      internalNotes).Sound .serialized where
  allocated := le_rfl
  onHand := zero_le_one
  serialized _ := ⟨rfl, rfl, rfl⟩
  quantity := nofun
  batchNumber := normalized_normalizeOptionalText

theorem NewInventoryItem.sound_quantity {batchNumber quantityOnHand quantityAllocated locationId}
    {status publicNotes internalNotes} {item : NewInventoryItem}
    (h : quantity batchNumber quantityOnHand quantityAllocated locationId status publicNotes
      internalNotes = .ok item) : item.Sound .quantity ∧ item.locationId = locationId := by
  obtain ⟨_, hv, h⟩ := Except.bind_eq_ok.mp h
  obtain rfl := Except.pure_eq_ok.mp h
  have ⟨ha, ho⟩ := validateQuantities_eq_ok.mp hv
  exact ⟨⟨ha, ho, nofun, fun _ => rfl, normalized_normalizeOptionalText⟩, rfl⟩

-- What the creation of items has been parsed into fits the tracking mode.
theorem NewInventoryItems.parse_eq_ok [UnicodeSegmentation] {mode serialItems serialNumbers count}
    {batchNumber quantityOnHand quantityAllocated locationId status publicNotes internalNotes}
    {creation : NewInventoryItems}
    (h : parse mode serialItems serialNumbers count batchNumber quantityOnHand quantityAllocated
      locationId status publicNotes internalNotes = .ok creation) :
    (mode = .serialized ∧ ∃ source batchNumber status publicNotes internalNotes, creation =
      .serialized source batchNumber locationId status publicNotes internalNotes) ∨
    (mode = .quantity ∧ ∃ item, creation = .quantity item ∧ item.Sound .quantity) := by
  obtain ⟨_, _, h⟩ := Except.bind_eq_ok.mp h
  cases mode
  case serialized =>
    refine .inl ⟨rfl, ?_⟩
    dsimp only at h
    split at h
    case isTrue => cases h
    case isFalse =>
      obtain ⟨source, _, h⟩ := Except.bind_eq_ok.mp h
      exact ⟨source, _, _, _, _, (Except.pure_eq_ok.mp h).symm⟩
  case quantity =>
    refine .inr ⟨rfl, ?_⟩
    dsimp only at h
    split at h
    case isTrue => cases h
    case isFalse =>
      cases quantityOnHand
      case none => cases h
      case some =>
        obtain ⟨item, hi, h⟩ := Except.bind_eq_ok.mp h
        exact ⟨item, (Except.pure_eq_ok.mp h).symm, (NewInventoryItem.sound_quantity hi).left⟩

namespace InventoryItems

-- The location of an item is one of its laboratory.
def Located (d : Database) (laboratoryId : Uuid) (locationId : Option Uuid) : Prop :=
  ∀ id ∈ locationId, ∃ r ∈ d.locations, r.id = id ∧ r.laboratoryId = laboratoryId

-- An item stays the one that it is.
structure Revises (d : Database) (r₀ r : InventoryItemRow) : Prop where
  inventoryItemId : r.inventoryItemId = r₀.inventoryItemId
  laboratoryId : r.laboratoryId = r₀.laboratoryId
  assetId : r.assetId = r₀.assetId
  locationId : r.locationId = r₀.locationId ∨ Located d r.laboratoryId r.locationId
  accounted : Accounted d.assets r

def IsItemWrite (d : Database) : Write → Prop
  | .assetInventoryItems (.insert r) =>
    Accounted d.assets r ∧ Located d r.laboratoryId r.locationId
  | .assetInventoryItems (.update r) =>
    ∃ r₀, d.assetInventoryItems.find? r.inventoryItemId = some r₀ ∧ Revises d r₀ r
  | .assetInventoryItems (.delete _) => True
  | w => Attachments.IsFileWrite w

variable {d d' : Database} {id assetId laboratoryId : Uuid} {r existing : InventoryItemRow}
  {asset : AssetRow} {item : NewInventoryItem} {mode : AssetTrackingMode}

-- The rows that items refer to stay as they are, and the items stay sound.
structure Surrounded (d₀ d : Database) : Prop where
  stocked : Stocked d₀.assets d
  locations : d.locations = d₀.locations
  units : d.units = d₀.units
  types : d.assetParameterTypes = d₀.assetParameterTypes
  options : d.assetParameterOptions = d₀.assetParameterOptions

theorem closed_surrounded {d₀ : Database} : Closed IsItemWrite (Surrounded d₀) := by
  intro w d d' hw h ha
  have happ := Database.applied_of_apply ha
  constructor
  case stocked =>
    refine h.stocked.apply ha ?_ ?_
    case refine_1 =>
      rintro w' rfl
      exact hw
    case refine_2 =>
      rintro r (rfl | rfl)
      · exact h.stocked.same ▸ hw.left
      · obtain ⟨_, _, hrev⟩ := hw
        exact h.stocked.same ▸ hrev.accounted
  all_goals
    cases w
    case assetInventoryItems | fileUploads | files | attachmentAssignments =>
      rw [happ.right]
      first
        | exact h.locations
        | exact h.units
        | exact h.types
        | exact h.options
    all_goals exact hw.elim

theorem Surrounded.refl (h : Stocked d.assets d) : Surrounded d d :=
  ⟨h, rfl, rfl, rfl, rfl⟩

theorem Surrounded.located {locationId : Option Uuid} (h : Surrounded d d')
    (hl : Located d laboratoryId locationId) : Located d' laboratoryId locationId := by
  simpa only [Located, h.locations] using hl

theorem isItemWrite_of_isFileWrite {w : Write} (h : Attachments.IsFileWrite w) : IsItemWrite d w := by
  cases w
  case fileUploads | files | attachmentAssignments => trivial
  all_goals exact h.elim

theorem wp_validateOptionalLocation {locationId : Option Uuid} {R : ApiError → Prop}
    {Q : Unit → Database → Prop} (hq : Located d laboratoryId locationId → Q () d)
    (hr : ¬Located d laboratoryId locationId → ∀ e, R e) :
    (validateOptionalLocation laboratoryId locationId).wp (fun _ => True) R Q d := by
  cases locationId
  case none => exact hq nofun
  case some id =>
    refine wp_bind.mpr <| wp_selectForUpdate.mpr <| wp_require.mpr ⟨fun hf => hq ?_, fun hn => ?_⟩
    case refine_1 =>
      rintro _ ⟨⟩
      obtain ⟨r, hf⟩ := Option.isSome_iff_exists.mp hf
      obtain ⟨hf, hl⟩ := Option.filter_eq_some_iff.mp hf
      obtain ⟨hm, hk⟩ := Table.find?_eq_some.mp hf
      exact ⟨r, hm, hk, of_decide_eq_true hl⟩
    case refine_2 =>
      refine hr (fun hl => hn ?_) _
      obtain ⟨r, hm, hk, hl⟩ := hl id rfl
      have hf : d.locations.find? id = some r := Table.find?_eq_some.mpr ⟨hm, hk⟩
      simp [hf, hl]

theorem wlp_validateOptionalLocation {locationId : Option Uuid} {Q : Unit → Database → Prop}
    (hq : Located d laboratoryId locationId → Q () d) :
    (validateOptionalLocation laboratoryId locationId).wlp Q d :=
  wp_validateOptionalLocation hq fun _ _ => trivial

theorem accounted_of_sound (h : item.Sound mode) {assets : Table AssetRow}
    (ha : assets.find? r.assetId = some asset) (hl : asset.laboratoryId = r.laboratoryId)
    (hm : asset.trackingMode = mode) (hr : r.trackingMode = mode)
    (hs : r.serialNumber = item.serialNumber.map (·.val)) (hb : r.batchNumber = item.batchNumber)
    (ho : r.quantityOnHand = item.quantityOnHand) (hq : r.quantityAllocated = item.quantityAllocated) :
    Accounted assets r where
  allocated := hq ▸ h.allocated
  onHand := hq ▸ ho ▸ h.onHand
  asset := ⟨asset, ha, hl, hm.trans hr.symm⟩
  serialized hmode := by
    have ⟨hsome, hone, hzero⟩ := h.serialized (hr.symm.trans hmode)
    obtain ⟨s, hs'⟩ := Option.isSome_iff_exists.mp hsome
    refine ⟨⟨s.val, by simp [hs, hs'], s.trimmed.symm ▸ s.ne_empty⟩, ho ▸ hone, .inl (hq ▸ hzero)⟩
  quantity hmode := by rw [hs, h.quantity (hr.symm.trans hmode), Option.map_none]
  batchNumber := hb ▸ h.batchNumber

section Requests

variable {ctx : LaboratoryContext}

theorem performs_insertInventoryItem (h : Accounted d.assets (stored r))
    (hl : Located d r.laboratoryId r.locationId) :
    (insertInventoryItem r).performs IsItemWrite (fun _ _ => True) d := by
  refine performs_bind.mpr <| Transaction.readOnly_bindTexts.performs_bind_all fun _ => ?_
  refine performs_exec ⟨h, hl⟩ fun d' _ => ?_
  exact rereadInventoryItem_readOnly.performs <| wlp_of_forall fun _ _ => trivial

theorem performs_updateInventoryItemRow {f : InventoryItemRow → InventoryItemRow}
    (hf : ∀ r, d.assetInventoryItems.find? id = some r → Revises d r (f r)) :
    (updateInventoryItemRow id f).performs IsItemWrite (fun _ d' => ∀ id' ≠ id,
      d'.assetInventoryItems.find? id' = d.assetInventoryItems.find? id') d := by
  refine readOnly_selectForUpdate.performs_bind <| wp_selectForUpdate.mpr ?_
  cases hr : d.assetInventoryItems.find? id
  case none => exact fun _ _ => rfl
  case some r =>
    have hrev := hf r hr
    have hid : (f r).inventoryItemId = id :=
      hrev.inventoryItemId.trans (Table.find?_eq_some.mp hr).right
    have hw : IsItemWrite d (.assetInventoryItems (.update (f r))) := ⟨r, hid ▸ hr, hrev⟩
    refine performs_exec hw fun d' ha id' hn => ?_
    refine Table.find?_write_of_ne (w := .update (f r)) (Database.applied_of_apply ha).left fun he => ?_
    exact hn <| he.symm.trans hid

theorem performs_reread {p : Transaction Unit} {what : String} {Q : Database → Prop}
    (h : p.performs IsItemWrite (fun _ => Q) d) :
    (p >>= fun _ => rereadInventoryItem id what).performs IsItemWrite (fun _ => Q) d :=
  performs_bind.mpr <| performs_mono h fun _ _ h => rereadInventoryItem_readOnly.performs <|
    wp_mono (wp_readOnly rereadInventoryItem_readOnly) fun _ _ he => he ▸ h

theorem performs_deleteInventoryItemFromDatabase :
    (deleteInventoryItemFromDatabase id).performs IsItemWrite (fun _ _ => True) d := by
  refine readOnly_selectForUpdate.performs_bind <| wp_selectForUpdate.mpr ?_
  cases d.assetInventoryItems.find? id
  case none => trivial
  case some => exact performs_exec trivial fun _ _ => trivial

theorem performs_fileWrites {α : Type} {p : Transaction α} (hp : p.Writes Attachments.IsFileWrite) :
    p.performs IsItemWrite (fun _ _ => True) d :=
  hp.performs fun _ _ => isItemWrite_of_isFileWrite

-- The rule that all items are sound when a request continues.
theorem performs_bind_surrounded {α β : Type} {p : Transaction α} {f : α → Transaction β}
    (hd : Stocked d.assets d) {Q : α → Database → Prop} {Q' : β → Database → Prop}
    (hp : p.performs IsItemWrite Q d)
    (hf : ∀ a d', Q a d' → Surrounded d d' → (f a).performs IsItemWrite Q' d') :
    (p >>= f).performs IsItemWrite Q' d :=
  performs_bind.mpr <| performs_mono (performs_and hp closed_surrounded (.refl hd))
    fun a d' h => hf a d' h.left h.right

theorem performs_insertNewInventoryItem {newId : Uuid} (ha : d.assets.find? asset.assetId = some asset)
    (hm : asset.trackingMode = mode) (hs : item.Sound mode)
    (hl : Located d asset.laboratoryId item.locationId) :
    (insertNewInventoryItem asset mode newId item).performs IsItemWrite (fun _ _ => True) d := by
  refine performs_insertInventoryItem ?_ hl
  refine accounted_of_sound hs ha rfl hm rfl ?_ hs.batchNumber.eq rfl rfl
  cases item.serialNumber
  case none => rfl
  case some s => exact Normalized.eq fun _ h => Option.some.inj h ▸ ⟨s.trimmed, s.ne_empty⟩

theorem performs_insertNewInventoryItems {newIds : NewIds} {items : List NewInventoryItem}
    (hd : Stocked d.assets d) (ha : d.assets.find? asset.assetId = some asset)
    (hm : asset.trackingMode = mode)
    (hs : ∀ item ∈ items, item.Sound mode ∧ Located d asset.laboratoryId item.locationId) :
    (insertNewInventoryItems asset mode newIds items).performs IsItemWrite (fun _ _ => True) d := by
  induction items generalizing d newIds
  case nil => trivial
  case cons item items ih =>
    have ⟨hsound, hl⟩ := hs item (.head _)
    refine performs_bind_surrounded hd (performs_insertNewInventoryItem ha hm hsound hl) ?_
    intro row d₁ _ h₁
    refine performs_bind.mpr <| performs_mono (ih ?_ ?_ ?_) fun _ _ _ => trivial
    case refine_1 => exact h₁.stocked.same ▸ h₁.stocked
    case refine_2 => exact h₁.stocked.same ▸ ha
    case refine_3 => exact fun i hi => (hs i (.tail _ hi)).imp_right h₁.located

theorem assignGroups_writes {newIds groups} :
    (InventoryItemAttachmentSource.assignGroups laboratoryId newIds groups).Writes
      Attachments.IsFileWrite := by
  induction groups generalizing newIds
  case nil => trivial
  case cons ih => exact Attachments.assignUploadedAttachments_writes.bind fun _ => ih

theorem assign_writes {created newIds} {source : InventoryItemAttachmentSource} :
    (source.assign created laboratoryId newIds).Writes Attachments.IsFileWrite := by
  cases source
  case empty => trivial
  case single | perSerialItem => exact readOnly_require.writes_bind fun _ => assignGroups_writes

theorem serialNumbers_readOnly [UnicodeSegmentation] {source : InventoryItemSerialSource} :
    (serialNumbers assetId source).ReadOnly := by
  cases source
  case explicit => trivial
  case generate =>
    refine ReadOnly.bind ?_ fun _ => readOnly_ofExcept
    exact maxGeneratedSerialNumber_readOnly.bind fun _ => trivial

theorem performs_insertSerializedItems [UnicodeSegmentation] {source : InventoryItemSerialSource}
    {batchNumber locationId status publicNotes internalNotes} {newIds : NewIds}
    (hd : Stocked d.assets d) (ha : d.assets.find? asset.assetId = some asset)
    (hm : asset.trackingMode = .serialized) (hl : Located d asset.laboratoryId locationId) :
    (insertSerializedItems asset source batchNumber locationId status publicNotes internalNotes
      newIds).performs IsItemWrite (fun _ _ => True) d := by
  refine serialNumbers_readOnly.performs_bind_all fun serialNumbers => ?_
  refine performs_insertNewInventoryItems hd ha hm fun item hi => ?_
  obtain ⟨_, _, rfl⟩ := List.mem_map.mp hi
  exact ⟨NewInventoryItem.sound_serialized, hl⟩

theorem performs_createInventoryItems [UnicodeSegmentation] {payload newIds newAttachmentIds}
    (hd : Stocked d.assets d) :
    (createInventoryItems ctx assetId payload newIds newAttachmentIds).performs IsItemWrite
      (fun _ _ => True) d := by
  refine readOnly_fetch.performs_bind_all fun _ => readOnly_require.performs_bind_all fun _ => ?_
  refine requirePermissions_readOnly.performs_bind_all fun _ => ?_
  refine requirePermissions_readOnly.performs_bind_all fun _ => ?_
  refine readOnly_ofExcept.performs_bind_all fun attachments => ?_
  refine readOnly_ofExcept.performs_bind_all fun _ => ?_
  refine readOnly_selectForUpdate.performs_bind <| wp_selectForUpdate.mpr ?_
  cases hf : d.assets.find? assetId
  case none => trivial
  case some asset =>
    have ha : d.assets.find? asset.assetId = some asset :=
      Table.find?_key (Table.find?_eq_some.mp hf).left
    refine readOnly_ofExcept.performs_bind <| Transaction.wp_validated.mpr ⟨?_, fun _ _ => trivial⟩
    intro creation hc
    refine validateOptionalLocation_readOnly.performs_bind <| wlp_validateOptionalLocation fun hl => ?_
    obtain ⟨hm, source, _, _, _, _, rfl⟩ | ⟨hm, item, rfl, hs⟩ := NewInventoryItems.parse_eq_ok hc
    · refine performs_bind.mpr <| performs_mono (performs_insertSerializedItems hd ha hm hl)
        fun _ _ _ => performs_fileWrites assign_writes
    · refine performs_bind.mpr <| performs_mono (performs_insertNewInventoryItems hd ha hm ?_)
        fun _ _ _ => performs_fileWrites assign_writes
      simpa using ⟨hs, hl⟩

theorem Accounted.patch {assets : Table AssetRow} {patch : UpdateInventoryItem}
    {locationId status publicNotes internalNotes} (h : Accounted assets existing)
    (hm : validatePatchAgainstTrackingMode patch existing.trackingMode = .ok ())
    (hq : validateQuantities (patch.quantityOnHand.getD existing.quantityOnHand)
      (patch.quantityAllocated.getD existing.quantityAllocated) = .ok ())
    (hb : Normalized (patch.batchNumber.resolve existing.batchNumber)) : Accounted assets { existing with
      serialNumber := (patch.serialNumber.map (·.val)) <|> existing.serialNumber
      batchNumber := patch.batchNumber.resolve existing.batchNumber
      quantityOnHand := patch.quantityOnHand.getD existing.quantityOnHand
      quantityAllocated := patch.quantityAllocated.getD existing.quantityAllocated
      locationId, status, publicNotes, internalNotes
    } := by
  simp only [validateQuantities, Except.bind_eq_ok, Except.check_eq_ok] at hq
  obtain ⟨_, _, _, ha, ho⟩ := hq
  refine ⟨ha, ho, h.asset, fun hs => ?_, fun hs => ?_, hb⟩
  case refine_1 =>
    rw [hs] at hm
    obtain ⟨hn, hn'⟩ := Except.check_eq_ok.mp hm
    simp only [Option.isNone_iff_eq_none] at hn hn'
    simp only [hn, hn', Option.getD_none]
    refine ⟨?_, (h.serialized hs).right⟩
    cases patch.serialNumber
    case none => exact (h.serialized hs).left
    case some s => exact ⟨s.val, rfl, s.trimmed.symm ▸ s.ne_empty⟩
  case refine_2 =>
    rw [hs] at hm
    have hn := Except.check_eq_ok.mp hm
    simp only [Option.isNone_iff_eq_none] at hn
    simp [hn, h.quantity hs]

def UpdateInventoryItem.Normalizes (patch : UpdateInventoryItem) : Prop :=
  ∀ current, Normalized current → Normalized (patch.batchNumber.resolve current)

theorem performs_applyInventoryItemPatch {patch : UpdateInventoryItem} (hd : Stocked d.assets d)
    (he : d.assetInventoryItems.find? existing.inventoryItemId = some existing)
    (hb : UpdateInventoryItem.Normalizes patch) :
    (applyInventoryItemPatch existing patch).performs IsItemWrite (fun _ d' =>
      ∀ id' ≠ existing.inventoryItemId,
        d'.assetInventoryItems.find? id' = d.assetInventoryItems.find? id') d := by
  have ha := hd.of_find? he
  refine readOnly_ofExcept.performs_bind <| wp_ofExcept.mpr ⟨fun _ hm => ?_, fun _ _ => trivial⟩
  refine validateOptionalLocation_readOnly.performs_bind <| wlp_validateOptionalLocation fun hl => ?_
  refine readOnly_ofExcept.performs_bind <| wp_ofExcept.mpr ⟨fun _ hq => ?_, fun _ _ => trivial⟩
  refine performs_reread <| Transaction.readOnly_bindTexts.performs_bind_all fun _ => ?_
  refine performs_updateInventoryItemRow fun r hr => ?_
  obtain rfl := Option.some.inj <| he.symm.trans hr
  exact ⟨rfl, rfl, rfl, .inr hl, ha.patch hm hq (hb _ ha.batchNumber)⟩

theorem wlp_fetchInventoryItemForUpdate {Q : Option InventoryItemRow → Database → Prop}
    (hq : ∀ r, (∀ r' ∈ r, d.assetInventoryItems.find? r'.inventoryItemId = some r') → Q r d) :
    (fetchInventoryItemForUpdate id).wlp Q d := by
  refine wp_selectForUpdate.mpr <| hq _ fun r hr => ?_
  exact Table.find?_key (Table.find?_eq_some.mp (fetchInventoryItem?_eq_some hr)).left

theorem normalizes_of_parse [UnicodeSegmentation] {serialNumber batchNumber quantityOnHand}
    {quantityAllocated locationId status publicNotes internalNotes} {patch : UpdateInventoryItem}
    (h : UpdateInventoryItem.parse serialNumber batchNumber quantityOnHand quantityAllocated
      locationId status publicNotes internalNotes = .ok patch) :
    UpdateInventoryItem.Normalizes patch := by
  have hb : patch.batchNumber = nullableText batchNumber := by
    cases quantityOnHand <;> cases quantityAllocated <;>
      simp only [UpdateInventoryItem.parse, Except.bind_eq_ok, Except.pure_eq_ok] at h
    case none.none =>
      obtain ⟨_, _, _, _, rfl⟩ := h
      rfl
    case none.some | some.none =>
      obtain ⟨_, _, _, _, _, _, rfl⟩ := h
      rfl
    case some.some =>
      obtain ⟨_, _, _, _, _, _, _, _, rfl⟩ := h
      rfl
  exact fun _ hc => hb ▸ normalized_resolve_nullableText hc

theorem performs_updateInventoryItem [UnicodeSegmentation] {payload} (hd : Stocked d.assets d) :
    (updateInventoryItem ctx id payload).performs IsItemWrite (fun _ _ => True) d := by
  refine requirePermissions_readOnly.performs_bind_all fun _ => ?_
  refine readOnly_ofExcept.performs_bind <| Transaction.wp_validated.mpr ⟨?_, fun _ _ => trivial⟩
  intro patch hp
  refine fetchInventoryItemForUpdate_readOnly.performs_bind <| wlp_fetchInventoryItemForUpdate ?_
  intro r hr
  cases r
  case none => trivial
  case some r =>
    have hpatch := performs_applyInventoryItemPatch hd (hr r rfl) (normalizes_of_parse hp)
    exact performs_bind.mpr <| performs_mono hpatch fun _ _ _ => trivial

theorem performs_applyInventoryItemPatches {patch : UpdateInventoryItem}
    {items : List InventoryItemRow} (hd : Stocked d.assets d)
    (hi : ∀ r ∈ items, d.assetInventoryItems.find? r.inventoryItemId = some r)
    (hn : (items.map (·.inventoryItemId)).Nodup) (hb : UpdateInventoryItem.Normalizes patch) :
    (applyInventoryItemPatches patch items).performs IsItemWrite (fun _ _ => True) d := by
  induction items generalizing d
  case nil => trivial
  case cons existing items ih =>
    have ⟨hne, hn⟩ := List.nodup_cons.mp hn
    refine performs_bind_surrounded hd (performs_applyInventoryItemPatch hd (hi _ (.head _)) hb) ?_
    intro _ d₁ hother h₁
    refine ih (h₁.stocked.same ▸ h₁.stocked) (fun r hr => ?_) hn
    have hne : r.inventoryItemId ≠ existing.inventoryItemId :=
      fun he => hne <| List.mem_map.mpr ⟨r, hr, he⟩
    exact (hother _ hne).trans (hi r (.tail _ hr))

theorem performs_batchUpdateInventoryItems [UnicodeSegmentation] {payload}
    (hd : Stocked d.assets d) :
    (batchUpdateInventoryItems ctx payload).performs IsItemWrite (fun _ _ => True) d := by
  refine readOnly_ofExcept.performs_bind_all fun ids => ?_
  refine readOnly_ofExcept.performs_bind <| Transaction.wp_validated.mpr ⟨?_, fun _ _ => trivial⟩
  intro patch hp
  refine readOnly_require.performs_bind_all fun _ => requirePermissions_readOnly.performs_bind_all ?_
  refine fun _ => fetchInventoryItemsForUpdate_readOnly.performs_bind ?_
  refine wlp_fetchInventoryItemsForUpdate fun items hi hn => ?_
  refine readOnly_ofExcept.performs_bind_all fun _ => ?_
  exact performs_applyInventoryItemPatches hd hi hn (normalizes_of_parse hp)

theorem wlp_findQuantityAggregateForUpdate {batchNumber locationId status}
    {Q : Option InventoryItemRow → Database → Prop}
    (hq : ∀ r, (∀ r' ∈ r, d.assetInventoryItems.find? r'.inventoryItemId = some r' ∧
      r'.trackingMode = .quantity ∧ r'.inventoryItemId ≠ id) → Q r d) :
    (findQuantityAggregateForUpdate laboratoryId assetId batchNumber locationId status
      (some id)).wlp Q d := by
  simp only [findQuantityAggregateForUpdate, wp_bind, wp_read]
  split
  case h_2 => exact hq none fun _ h => absurd h (Option.not_mem_none _)
  case h_1 r _ =>
    refine wp_bind.mpr <| wp_lockRow.mpr <| wp_read.mpr <| hq _ fun r' hr' => ?_
    obtain ⟨hf, hm⟩ := Option.filter_eq_some_iff.mp hr'
    simp only [IsQuantityAggregate, Bool.and_eq_true, decide_eq_true_eq, ne_eq] at hm
    obtain ⟨_, ⟨⟨⟨⟨⟨hmode, _⟩, _⟩, _⟩, _⟩, _⟩, hne⟩ := hm
    exact ⟨Table.find?_key (Table.find?_eq_some.mp hf).left, hmode, fun he => hne <| he ▸ rfl⟩

theorem performs_splitInventoryItem {payload : SplitJsonData} {newId} (hd : Stocked d.assets d) :
    (splitInventoryItem ctx id payload newId).performs IsItemWrite (fun _ _ => True) d := by
  refine requirePermissions_readOnly.performs_bind_all fun _ => ?_
  refine readOnly_ofExcept.performs_bind <| Transaction.wp_validated.mpr ⟨?_, fun _ _ => trivial⟩
  intro command hc
  refine fetchInventoryItemForUpdate_readOnly.performs_bind <| wlp_fetchInventoryItemForUpdate ?_
  intro source hsource
  cases source
  case none => trivial
  case some source =>
    have hs := hsource source rfl
    have ha := hd.of_find? hs
    refine readOnly_ofExcept.performs_bind <| wp_ofExcept.mpr ⟨fun _ hm => ?_, fun _ _ => trivial⟩
    have hm : source.trackingMode = .quantity := Except.check_eq_ok.mp hm
    refine readOnly_require.performs_bind <| wp_require.mpr ⟨fun hq => ?_, fun _ => trivial⟩
    refine validateOptionalLocation_readOnly.performs_bind <| wlp_validateOptionalLocation fun hl => ?_
    refine readOnly_require.performs_bind_all fun _ => ?_
    refine findQuantityAggregateForUpdate_readOnly.performs_bind <|
      wlp_findQuantityAggregateForUpdate fun target htarget => ?_
    refine performs_bind_surrounded hd (performs_reread <| performs_updateInventoryItemRow fun r hr => ?_)
      fun _ d₁ hother h₁ => ?_
    case refine_1 =>
      obtain rfl := Option.some.inj <| hs.symm.trans hr
      refine ⟨rfl, rfl, rfl, .inl rfl, ha.requantify hm ha.allocated ?_⟩
      simp only [DoublePrecision.nearest_exact, DoublePrecision.toNumeric_exact] at hq ⊢
      linarith
    case refine_2 =>
      split
      case h_1 target =>
        have ⟨ht, hmode, hne⟩ := htarget target rfl
        have hat := hd.of_find? ht
        refine performs_bind.mpr <| performs_mono (performs_reread <|
          performs_updateInventoryItemRow fun r hr => ?_) fun _ _ _ => trivial
        obtain rfl := Option.some.inj <| ht.symm.trans <| (hother _ hne).symm.trans hr
        refine ⟨rfl, rfl, rfl, .inl rfl, h₁.stocked.same ▸ hat.requantify hmode ?_ ?_⟩
        all_goals simp only [DoublePrecision.toNumeric_exact]
        · linarith [hat.allocated]
        · linarith [hat.onHand, command.quantity_pos]
      case h_2 =>
        refine performs_bind.mpr <| performs_mono (performs_insertInventoryItem ?_ <| h₁.located hl)
          fun _ _ _ => trivial
        obtain ⟨asset, hf, hlab, hmode⟩ := ha.asset
        refine ⟨le_rfl, command.quantity_pos.le, ⟨asset, h₁.stocked.same ▸ hf, hlab, hmode.trans hm⟩,
          nofun, fun _ => rfl, normalized_normalizeOptionalText⟩

theorem performs_deleteItems [ScanOrder] {items : List InventoryItemRow} :
    (deleteItems items).performs IsItemWrite (fun _ _ => True) d := by
  induction items generalizing d
  case nil => trivial
  case cons item items ih =>
    refine performs_bind.mpr <| performs_mono (performs_fileWrites Attachments.deleteAttachments_writes)
      fun _ _ _ => performs_bind.mpr <| performs_mono performs_deleteInventoryItemFromDatabase ?_
    exact fun _ _ _ => performs_bind.mpr <| performs_mono ih fun _ _ _ => trivial

theorem performs_handle [UnicodeSegmentation] [ScanOrder] {request : Request}
    (hd : Stocked d.assets d) :
    (request.handle ctx).performs IsItemWrite (fun _ _ => True) d := by
  cases request
  case create => exact performs_createInventoryItems hd
  case update => exact performs_updateInventoryItem hd
  case batchUpdate => exact performs_batchUpdateInventoryItems hd
  case split => exact performs_splitInventoryItem hd
  case merge => exact performs_mono performs_mergeInventoryItems fun _ _ h => h.elim
  case delete =>
    refine performs_bind.mpr <| requirePermissions_readOnly.performs_bind_all fun _ => ?_
    refine fetchInventoryItemForUpdate_readOnly.performs_bind_all fun item => ?_
    cases item
    case none => trivial
    case some item =>
      refine readOnly_ofExcept.performs_bind_all fun _ => performs_bind.mpr ?_
      refine performs_mono (performs_fileWrites Attachments.deleteAttachments_writes) fun _ _ _ => ?_
      exact performs_bind.mpr <| performs_mono performs_deleteInventoryItemFromDatabase
        fun _ _ _ => trivial
  case batchDelete =>
    refine performs_bind.mpr <| readOnly_ofExcept.performs_bind_all fun _ => ?_
    refine requirePermissions_readOnly.performs_bind_all fun _ => ?_
    refine fetchInventoryItemsForUpdate_readOnly.performs_bind_all fun items => ?_
    refine readOnly_ofExcept.performs_bind_all fun _ => readOnly_ofExcept.performs_bind_all fun _ => ?_
    exact performs_mono performs_deleteItems fun _ _ _ => trivial

end Requests

end InventoryItems

end LabInventory
