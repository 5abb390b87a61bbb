import LabInventory.Attachments.Assignment
import LabInventory.InventoryItems.Effects
import LabInventory.InventoryItems.Serials
import LabInventory.Users.Theorems

open Sql Program

namespace LabInventory

open Text

theorem InventoryItemSerialNumber.val_of_parse [UnicodeSegmentation] {s : String}
    {serialNumber : InventoryItemSerialNumber} (h : parse s = .ok serialNumber) :
    serialNumber.val = trim s := by
  unfold parse at h
  dsimp only at h
  split at h
  case isTrue => exact nomatch h
  case isFalse =>
    split at h
    case isTrue => exact nomatch h
    case isFalse => exact Except.ok.inj h ▸ rfl

theorem NewInventoryItems.source_of_parse [UnicodeSegmentation] {mode serialItems serialNumbers count}
    {batchNumber quantityOnHand quantityAllocated locationId status publicNotes internalNotes}
    {creation : NewInventoryItems}
    (h : parse mode serialItems serialNumbers count batchNumber quantityOnHand quantityAllocated
      locationId status publicNotes internalNotes = .ok creation) :
    (∃ source batchNumber locationId status publicNotes internalNotes, creation =
      .serialized source batchNumber locationId status publicNotes internalNotes ∧
      InventoryItemSerialSource.parse serialItems serialNumbers count = .ok source) ∨
    (∃ item, creation = .quantity item ∧ item.serialNumber = none ∧
      serialItems = none ∧ serialNumbers = none ∧ count = none) := by
  obtain ⟨_, _, h⟩ := Except.bind_eq_ok.mp h
  cases mode
  case serialized =>
    simp only [Except.throw_bind_eq_ok, Except.bind_eq_ok, Except.pure_eq_ok] at h
    obtain ⟨_, source, hs, rfl⟩ := h
    exact .inl ⟨source, _, _, _, _, _, rfl, hs⟩
  case quantity =>
    simp only [Except.throw_bind_eq_ok, not_or, Bool.not_eq_true, Option.isSome_eq_false_iff,
      Option.isNone_iff_eq_none] at h
    obtain ⟨hnone, h⟩ := h
    cases quantityOnHand
    case none => exact absurd h Except.throw_ne_ok
    case some =>
      obtain ⟨item, hi, h⟩ := Except.bind_eq_ok.mp h
      obtain ⟨_, _, hi⟩ := Except.bind_eq_ok.mp hi
      obtain rfl := Except.pure_eq_ok.mp hi
      exact .inr ⟨_, (Except.pure_eq_ok.mp h).symm, rfl, hnone⟩

namespace InventoryItems

open Attachments

variable {d d₁ d' : Database} {created : List InventoryItemRow} {groups : List (List NewAttachment)}

section Creation

variable {asset : AssetRow} {mode : AssetTrackingMode} {newIds : NewIds} {items : List NewInventoryItem}

-- The rows have been added to those of the table, and nothing else has happened.
structure Inserted (rows : List InventoryItemRow) (d d' : Database) : Prop where
  rows : d'.assetInventoryItems.rows = d.assetInventoryItems.rows ++ rows
  elsewhere : d' = { d with assetInventoryItems := d'.assetInventoryItems }

theorem wlp_insertInventoryItem {r : InventoryItemRow} :
    (insertInventoryItem r).wlp (fun row d' => row = stored r ∧ Inserted [stored r] d d') d := by
  refine wp_bind.mpr <| wp_bind.mpr <| Transaction.wp_bindTexts.mpr ⟨fun _ => ?_, fun _ => trivial⟩
  refine wp_exec.mpr ⟨fun d' ha => ⟨trivial, ?_⟩, fun _ _ => trivial⟩
  obtain ⟨hi, hd⟩ := apply_insertItem.mp ha
  have hself : d'.assetInventoryItems.find? r.inventoryItemId = some (stored r) :=
    Table.find?_insert_self hi
  refine wp_bind.mpr <| wp_selectForUpdate.mpr ?_
  cases hf : fetchInventoryItem? d' r.inventoryItemId
  case none => trivial
  case some row =>
    obtain ⟨hf, _⟩ := Option.filter_eq_some_iff.mp hf
    obtain rfl := Option.some.inj <| hself.symm.trans hf
    exact ⟨rfl, (Table.insert_eq_ok.mp hi).right.right, hd⟩

-- One row is created for each of the items, in their order.
theorem wlp_insertNewInventoryItems :
    (insertNewInventoryItems asset mode newIds items).wlp
      (fun rows d' => rows.map (·.serialNumber) = items.map serial ∧ Inserted rows d d') d := by
  induction items generalizing d newIds
  case nil => exact ⟨rfl, (List.append_nil _).symm, rfl⟩
  case cons item items ih =>
    refine wp_bind.mpr <| wp_mono wlp_insertInventoryItem fun row d₁ h₁ => ?_
    obtain ⟨rfl, hr₁, hd₁⟩ := h₁
    refine wp_bind.mpr <| wp_mono ih fun rows d₂ h₂ => ?_
    obtain ⟨hs, hr₂, hd₂⟩ := h₂
    refine ⟨?_, ?_, by rw [hd₂, hd₁]⟩
    case refine_1 =>
      rw [List.map_cons, List.map_cons, hs]
      congr 1
      cases hv : item.serialNumber
      case none => simp [stored, serial, hv]; rfl
      case some serialNumber =>
        refine Eq.trans (stored_serialNumber (?_ : _ = some serialNumber.val)) ?_
        all_goals simp [serial, hv]
    case refine_2 => rw [hr₂, hr₁, List.append_assoc, List.singleton_append]

variable [UnicodeSegmentation]

-- As many items are created as the request asks for, under the serial numbers that it gives.
structure Requested (payload : CreateJsonData) (serials : List (Option String)) : Prop where
  serialItems : ∀ items ∈ payload.serialItems,
    serials = items.map fun item => some (trim item.serialNumber)
  serialNumbers : ∀ values ∈ payload.serialNumbers, serials = values.map fun s => some (trim s)
  count : ∀ n ∈ payload.count, serials.length = n
  quantity : payload.serialItems = none → payload.serialNumbers = none → payload.count = none →
    serials = [none]

-- The serial numbers that a source can lead to.
def Yields (source : InventoryItemSerialSource) (serialNumbers : List InventoryItemSerialNumber) : Prop :=
  match source with
  | .explicit values => serialNumbers = values
  | .generate count => serialNumbers.length = count

theorem wlp_serialNumbers {assetId : Uuid} {source : InventoryItemSerialSource} :
    (serialNumbers assetId source).wlp (fun values d' => Yields source values ∧ d' = d) d := by
  cases source
  case explicit => exact ⟨rfl, rfl⟩
  case generate count =>
    refine wp_bind.mpr <| wp_nextSerialNumbers.mpr ⟨fun _ => ?_, fun _ => trivial⟩
    refine Transaction.wp_validated.mpr ⟨fun values hv => ⟨?_, rfl⟩, fun _ _ => trivial⟩
    have hl : values.map (fun _ => ()) = _ := Except.map_eq_of_mapM hv fun _ _ _ => rfl
    have hl := congrArg List.length hl
    simpa [Yields] using hl

theorem parseExplicit_eq_ok {values : List String} {source : InventoryItemSerialSource}
    (h : InventoryItemSerialSource.parseExplicit values = .ok source) :
    ∃ parsed : List InventoryItemSerialNumber, source = .explicit parsed ∧
      parsed.map (fun n => some n.val) = values.map fun s => some (trim s) := by
  simp only [InventoryItemSerialSource.parseExplicit, Except.throw_bind_eq_ok, Except.bind_eq_ok,
    Except.pure_eq_ok] at h
  obtain ⟨_, _, parsed, hp, _, rfl⟩ := h
  refine ⟨parsed, rfl, Except.map_eq_of_mapM hp fun s n hn => ?_⟩
  exact congrArg some <| InventoryItemSerialNumber.val_of_parse hn

omit [UnicodeSegmentation] in
theorem parseGenerate_eq_ok {count : Int} {source : InventoryItemSerialSource}
    (h : InventoryItemSerialSource.parseGenerate count = .ok source) :
    ∃ n : Nat, source = .generate n ∧ n = count := by
  simp only [InventoryItemSerialSource.parseGenerate, Except.throw_bind_eq_ok,
    Except.pure_eq_ok] at h
  obtain ⟨hpos, _, rfl⟩ := h
  exact ⟨_, rfl, Int.toNat_of_nonneg <| by omega⟩

theorem requested_of_parse {payload : CreateJsonData} {source : InventoryItemSerialSource}
    {serialNumbers : List InventoryItemSerialNumber}
    (h : InventoryItemSerialSource.parse (payload.serialItems.map (·.map (·.serialNumber)))
      payload.serialNumbers payload.count = .ok source) (hy : Yields source serialNumbers) :
    Requested payload (serialNumbers.map fun serialNumber => some serialNumber.val) := by
  cases hi : payload.serialItems <;> cases hn : payload.serialNumbers <;> cases hc : payload.count
  all_goals rw [hi, hn, hc] at h
  case some.none.none items =>
    obtain ⟨parsed, rfl, hv⟩ := parseExplicit_eq_ok h
    obtain rfl := hy
    rw [List.map_map] at hv
    refine ⟨?_, by simp [hn], by simp [hc], by simp [hi]⟩
    rw [hi]
    rintro _ ⟨⟩
    exact hv
  case none.some.none values =>
    obtain ⟨parsed, rfl, hv⟩ := parseExplicit_eq_ok h
    obtain rfl := hy
    refine ⟨by simp [hi], ?_, by simp [hc], by simp [hn]⟩
    rw [hn]
    rintro _ ⟨⟩
    exact hv
  case none.none.some count =>
    obtain ⟨n, rfl, rfl⟩ := parseGenerate_eq_ok h
    obtain rfl : serialNumbers.length = n := hy
    refine ⟨by simp [hi], by simp [hn], ?_, by simp [hc]⟩
    rw [hc]
    rintro _ ⟨⟩
    exact congrArg Nat.cast <| List.length_map _
  all_goals exact nomatch h

end Creation

section Groups

variable {payload : CreateJsonData} {source : InventoryItemAttachmentSource} {laboratoryId : Uuid}

-- Either spelling of the attachments, as a group for each of the created items.
inductive Grouped (payload : CreateJsonData) (count : Nat) : List (List NewAttachment) → Prop
  | empty (hw : payload.attachments.getD [] = []) (hp : payload.attachmentGroups.flatten = []) :
    Grouped payload count (.replicate count [])
  | single (hp : payload.attachmentGroups.flatten = []) (hc : count = 1) :
    Grouped payload count [payload.attachments.getD []]
  | perSerialItem (hw : payload.attachments.getD [] = [])
    (hc : payload.attachmentGroups.length = count) : Grouped payload count payload.attachmentGroups

-- The items with what is to be attached to them.
def placements (created : List InventoryItemRow) (groups : List (List NewAttachment)) :
    List (AttachmentTarget × NewAttachment) :=
  (created.zip groups).flatMap fun (item, group) =>
    group.map (.inventoryItem item.inventoryItemId, ·)

theorem Grouped.length {count : Nat} (h : Grouped payload count groups) : groups.length = count := by
  cases h
  case empty => exact List.length_replicate
  case single _ hc => exact hc.symm
  case perSerialItem hc => exact hc

theorem Grouped.flatten {count : Nat} (h : Grouped payload count groups) :
    groups.flatten.map (·.uploadId) = payload.uploadIds := by
  cases h
  case empty hw hp => simp [CreateJsonData.uploadIds, hw, hp]
  case single hp _ => simp [CreateJsonData.uploadIds, hp]
  case perSerialItem hw _ => simp [CreateJsonData.uploadIds, hw]

theorem uploadIds_placements (h : groups.length = created.length) :
    (placements created groups).map (·.2.uploadId) = groups.flatten.map (·.uploadId) := by
  induction created generalizing groups
  case nil =>
    obtain rfl := List.eq_nil_of_length_eq_zero h
    rfl
  case cons item created ih =>
    cases groups
    case nil => exact nomatch h
    case cons group groups =>
      have ih := ih <| Nat.succ.inj h
      unfold placements at ih ⊢
      rw [List.zip_cons_cons, List.flatMap_cons, List.map_append, ih, List.flatten_cons,
        List.map_append, List.map_map]
      rfl

theorem wlp_assignGroups {newIds : Nat → NewIds} {rest : List (InventoryItemRow × List NewAttachment)}
    (hf : Filed d)
    (hn : ((rest.flatMap fun (item, group) => group.map fun a =>
      (AttachmentTarget.inventoryItem item.inventoryItemId, a)).map (·.2.uploadId)).Nodup) :
    (InventoryItemAttachmentSource.assignGroups laboratoryId newIds rest).wlp
      (fun _ => Assigned (rest.flatMap fun (item, group) =>
        group.map (.inventoryItem item.inventoryItemId, ·)) d) d := by
  induction rest generalizing d newIds
  case nil => exact .nil hf
  case cons p rest ih =>
    obtain ⟨item, group⟩ := p
    have hn' := hn
    rw [List.flatMap_cons, List.map_append] at hn'
    obtain ⟨hgroup, hrest, _⟩ := List.nodup_append.mp hn'
    rw [List.map_map] at hgroup
    refine wp_bind.mpr <| wp_mono (wlp_assignUploadedAttachments hf hgroup) fun _ d₁ h => ?_
    exact wp_mono (ih h.filed hrest) fun _ d₂ h' => .append hn h h'

theorem wlp_assign {newIds : Nat → NewIds} (hf : Filed d)
    (hp : InventoryItemAttachmentSource.parse (payload.attachments.getD []) payload.attachmentGroups =
      .ok source)
    (hu : (source.attachments.map (·.uploadId)).Nodup) :
    (source.assign created laboratoryId newIds).wlp (fun _ d' => payload.uploadIds.Nodup ∧
      ∃ groups, Grouped payload created.length groups ∧
        Assigned (placements created groups) d d') d := by
  have hgroups {groups : List (List NewAttachment)} (hg : Grouped payload created.length groups)
      (hs : source.attachments = groups.flatten) :
      (InventoryItemAttachmentSource.assignGroups laboratoryId newIds (created.zip groups)).wlp
        (fun _ d' => payload.uploadIds.Nodup ∧ ∃ groups, Grouped payload created.length groups ∧
          Assigned (placements created groups) d d') d := by
    rw [hs] at hu
    have hn : ((placements created groups).map (·.2.uploadId)).Nodup := by
      rw [uploadIds_placements hg.length]
      exact hu
    exact wp_mono (wlp_assignGroups hf hn) fun _ d' h => ⟨hg.flatten ▸ hu, groups, hg, h⟩
  have hempty (ha : (payload.attachmentGroups.any fun group => !group.isEmpty) = false) :
      payload.attachmentGroups.flatten = [] :=
    List.flatten_eq_nil_iff.mpr fun group hg => by simpa using List.any_eq_false.mp ha group hg
  unfold InventoryItemAttachmentSource.parse at hp
  split at hp
  case h_1 => exact nomatch hp
  case h_2 hw ha =>
    obtain rfl := Except.ok.inj hp
    refine wp_bind.mpr <| wp_require.mpr ⟨fun hc => hgroups (.single (hempty ha) hc) ?_, fun _ => trivial⟩
    exact (List.append_nil _).symm
  case h_3 hw ha =>
    obtain rfl := Except.ok.inj hp
    refine wp_bind.mpr <| wp_require.mpr ⟨fun hc => hgroups ?_ rfl, fun _ => trivial⟩
    exact .perSerialItem (List.isEmpty_iff.mp hw) hc
  case h_4 hw ha =>
    obtain rfl := Except.ok.inj hp
    have hg : Grouped payload created.length (.replicate created.length []) :=
      .empty (List.isEmpty_iff.mp hw) (hempty ha)
    have hnone : placements created (.replicate created.length []) = [] := by
      refine List.flatMap_eq_nil_iff.mpr fun p hp => ?_
      change p.2.map _ = []
      rw [List.eq_of_mem_replicate (List.of_mem_zip hp).right]
      rfl
    refine ⟨?_, _, hg, hnone ▸ .nil hf⟩
    rw [← hg.flatten]
    simp

variable [UnicodeSegmentation] {ctx : LaboratoryContext} {assetId : Uuid} {newIds : NewIds}
  {newAttachmentIds : Nat → NewIds}

-- What is listed at a position is attached to the item that has been created for it, once and to
-- nothing else.
structure Follows (payload : CreateJsonData) (created : List InventoryItemRow)
    (groups : List (List NewAttachment)) (d d' : Database) : Prop where
  items : d'.assetInventoryItems.rows = d.assetInventoryItems.rows ++ created
  requested : Requested payload (created.map (·.serialNumber))
  grouped : Grouped payload created.length groups
  attached : ∀ (i : Nat) (item : InventoryItemRow) (group : List NewAttachment),
    created[i]? = some item → groups[i]? = some group → ∀ a ∈ group,
      attachedTo a.uploadId d' = [(none, some item.inventoryItemId)]
  consumed : ∀ k ∈ payload.uploadIds, ∃ upload, d.fileUploads.find? k = some upload ∧
    upload.consumedAt = none ∧
    d'.fileUploads.find? k = some { upload with consumedAt := some d.now }
  others : ∀ k ∉ payload.uploadIds,
    attachedTo k d' = attachedTo k d ∧ d'.fileUploads.find? k = d.fileUploads.find? k

omit [UnicodeSegmentation] in
theorem mem_placements {p : AttachmentTarget × NewAttachment} : p ∈ placements created groups ↔
    ∃ (i : Nat) (item : InventoryItemRow) (group : List NewAttachment), created[i]? = some item ∧
      groups[i]? = some group ∧ p.1 = .inventoryItem item.inventoryItemId ∧ p.2 ∈ group := by
  unfold placements
  rw [List.mem_flatMap]
  constructor
  case mp =>
    rintro ⟨⟨item, group⟩, hz, hp⟩
    obtain ⟨i, hi⟩ := List.mem_iff_getElem?.mp hz
    obtain ⟨hitem, hgroup⟩ := List.getElem?_zip_eq_some.mp hi
    obtain ⟨a, ha, rfl⟩ := List.mem_map.mp hp
    exact ⟨i, item, group, hitem, hgroup, rfl, ha⟩
  case mpr =>
    rintro ⟨i, item, group, hitem, hgroup, ht, ha⟩
    have hz : (created.zip groups)[i]? = some (item, group) :=
      List.getElem?_zip_eq_some.mpr ⟨hitem, hgroup⟩
    exact ⟨_, List.mem_iff_getElem?.mpr ⟨i, hz⟩, List.mem_map.mpr ⟨p.2, ha, by rw [← ht]⟩⟩

omit [UnicodeSegmentation] in
theorem follows_of_assigned (hi : Inserted created d d₁)
    (hr : Requested payload (created.map (·.serialNumber)))
    (hg : Grouped payload created.length groups) (ha : Assigned (placements created groups) d₁ d') :
    Follows payload created groups d d' := by
  have hids : (placements created groups).map (·.2.uploadId) = payload.uploadIds := by
    rw [uploadIds_placements hg.length, hg.flatten]
  have hd₁ := hi.elsewhere
  refine ⟨?_, hr, hg, fun i item group hitem hgroup a hm => ?_, fun k hk => ?_, fun k hk => ?_⟩
  case refine_1 =>
    have hitems : d'.assetInventoryItems = d₁.assetInventoryItems := by rw [ha.elsewhere]
    rw [hitems]
    exact hi.rows
  case refine_2 =>
    exact ha.placed (_, a) <| mem_placements.mpr ⟨i, item, group, hitem, hgroup, rfl, hm⟩
  case refine_3 =>
    obtain ⟨p, hp, rfl⟩ := List.mem_map.mp (hids ▸ hk)
    rw [hd₁] at ha
    exact ha.consumed p hp
  case refine_4 =>
    rw [hd₁] at ha
    exact ha.others k fun p hp he => hk <| hids ▸ List.mem_map.mpr ⟨p, hp, he⟩

theorem wlp_createInventoryItems (hf : Filed d) :
    (createInventoryItems ctx assetId payload newIds newAttachmentIds).wlp (fun _ d' =>
      payload.uploadIds.Nodup ∧ ∃ created groups, Follows payload created groups d d') d := by
  refine wp_readOnly_bind readOnly_fetch fun _ => wp_readOnly_bind readOnly_require fun _ => ?_
  refine wp_readOnly_bind requirePermissions_readOnly fun _ => ?_
  refine wp_readOnly_bind requirePermissions_readOnly fun _ => ?_
  refine wp_bind.mpr <| Transaction.wp_validated.mpr ⟨fun attachments hp => ?_, fun _ _ => trivial⟩
  refine wp_bind.mpr <| Transaction.wp_validated.mpr ⟨fun _ hu => ?_, fun _ _ => trivial⟩
  have hu : (attachments.attachments.map (·.uploadId)).Nodup := Except.check_eq_ok.mp hu
  refine wp_bind.mpr <| wp_selectForUpdate.mpr ?_
  cases d.assets.find? assetId
  case none => trivial
  case some asset =>
    refine wp_bind.mpr <| Transaction.wp_validated.mpr ⟨fun creation hc => ?_, fun _ _ => trivial⟩
    refine wp_readOnly_bind validateOptionalLocation_readOnly fun _ => ?_
    have hassign {created : List InventoryItemRow} {d₁ : Database} (hi : Inserted created d d₁)
        (hr : Requested payload (created.map (·.serialNumber))) :
        (attachments.assign created asset.laboratoryId newAttachmentIds).wlp (fun _ d' =>
          payload.uploadIds.Nodup ∧ ∃ created groups, Follows payload created groups d d') d₁ := by
      have hf₁ : Filed d₁ := by
        rw [hi.elsewhere]
        exact hf
      refine wp_mono (wlp_assign hf₁ hp hu) fun _ d' h => ⟨h.left, ?_⟩
      obtain ⟨groups, hg, ha⟩ := h.right
      exact ⟨created, groups, follows_of_assigned hi hr hg ha⟩
    obtain ⟨source, _, _, _, _, _, rfl, hs⟩ | ⟨item, rfl, hn, hq⟩ := NewInventoryItems.source_of_parse hc
    case inl =>
      refine wp_bind.mpr <| wp_bind.mpr <| wp_mono wlp_serialNumbers fun values d₁ h => ?_
      obtain ⟨hy, rfl⟩ := h
      refine wp_mono wlp_insertNewInventoryItems fun created d₂ h => hassign h.right ?_
      rw [h.left, List.map_map]
      exact requested_of_parse hs hy
    case inr =>
      refine wp_bind.mpr <| wp_mono wlp_insertNewInventoryItems fun created d₂ h => hassign h.right ?_
      have hserials : created.map (·.serialNumber) = [none] := by
        rw [h.left, List.map_singleton, serial, hn]
        rfl
      rw [hserials]
      obtain ⟨hi, hv, hc⟩ := hq
      have hi := Option.map_eq_none_iff.mp hi
      exact ⟨by simp [hi], by simp [hv], by simp [hc], fun _ _ _ => rfl⟩

theorem attachments_follow_items (hf : Filed d) :
    (∀ d', (createInventoryItems ctx assetId payload newIds newAttachmentIds).run d = .ok ((), d') →
      payload.uploadIds.Nodup ∧ ∃ created groups, Follows payload created groups d d') ∧
    ∀ e, (createInventoryItems ctx assetId payload newIds newAttachmentIds).run d = .error e →
      (createInventoryItems ctx assetId payload newIds newAttachmentIds).after d = d := by
  have hw : (createInventoryItems ctx assetId payload newIds newAttachmentIds).wlp (fun _ d' =>
      payload.uploadIds.Nodup ∧ ∃ created groups, Follows payload created groups d d') d :=
    wlp_createInventoryItems hf
  exact ⟨fun _ => wp_run hw, fun _ => after_of_error⟩

end Groups

def manual (uploadId : Uuid) (storageKey : String) : FileUploadRow where
  uploadId := uploadId
  laboratoryId := 1
  storageKey := storageKey
  uploadedByUserId := 2
  expiresAt := 10
  consumedAt := none

-- Two manuals have been uploaded for the microscopes of the office.
def documented : Database := { Users.office with
  assets := {microscope}
  fileUploads := ⟨[manual 40 "a.pdf", manual 41 "b.pdf"], by decide, by decide⟩
}

def pairCreation : CreateJsonData where
  serialItems := some [⟨"M1", some [⟨40, false⟩]⟩, ⟨"M2", some [⟨41, false⟩]⟩]
  serialNumbers := none
  count := none
  batchNumber := none
  quantityOnHand := none
  quantityAllocated := none
  locationId := none
  status := none
  publicNotes := none
  internalNotes := none
  attachments := none

theorem attachments_follow_items_documented :
    let _ := UnicodeSegmentation.characters
    ∃ d', (createInventoryItems ⟨⟨2, .labAdmin, some 1⟩, 1⟩ 10 pairCreation (20 + ·)
      fun i j => 60 + 2 * i + j).run documented = .ok ((), d') ∧
      ∃ created groups, Follows pairCreation created groups documented d' := by
  let _ := UnicodeSegmentation.characters
  have hf : Filed documented := fun r hr => absurd hr Table.not_mem_empty
  have hok : ((createInventoryItems ⟨⟨2, .labAdmin, some 1⟩, 1⟩ 10 pairCreation (20 + ·)
      fun i j => 60 + 2 * i + j).run documented).toBool := by decide +kernel
  have h : (∀ d', (createInventoryItems ⟨⟨2, .labAdmin, some 1⟩, 1⟩ 10 pairCreation (20 + ·)
      fun i j => 60 + 2 * i + j).run documented = .ok ((), d') → _) ∧ _ := attachments_follow_items hf
  cases hr : (createInventoryItems ⟨⟨2, .labAdmin, some 1⟩, 1⟩ 10 pairCreation (20 + ·)
      fun i j => 60 + 2 * i + j).run documented
  case error =>
    rw [hr] at hok
    exact nomatch hok
  case ok result => exact ⟨result.2, hr, (h.left result.2 hr).right⟩

end InventoryItems

end LabInventory
