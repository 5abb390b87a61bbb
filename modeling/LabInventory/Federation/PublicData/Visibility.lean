import LabInventory.Federation.PublicData.Basic

open Listing Sql

namespace LabInventory

namespace Federation.PublicData

section Veils

variable (laboratoryId : Uuid)

def laboratoryVeil : Veil LaboratoryRecord where
  visible r := r.laboratoryId = laboratoryId
  blank := id

def assetVeil : Veil AssetRecord where
  visible r := r.laboratoryId = laboratoryId
  blank r := { r with internalNotes := none }

def inventoryItemVeil : Veil InventoryItemRecord where
  visible r := r.laboratoryId = laboratoryId
  blank r := { r with internalNotes := none }

def treeVeil (kind : TreeKind) : Veil (TreeRecord kind) where
  visible r := r.laboratoryId = laboratoryId
  blank := id

def unitVeil : Veil UnitRecord where
  visible r := r.laboratoryId = laboratoryId
  blank := id

variable (c : Catalog)

-- The values of the laboratory's assets.
def parameterValueVeil : Veil ParameterValueRecord where
  visible r := c.assets.any fun asset =>
    asset.laboratoryId = laboratoryId && asset.assetId = r.assetId
  blank := id

-- The parameters of the laboratory, and whatever else its assets have values of.
def parameterTypeVeil : Veil ParameterTypeRecord where
  visible r := r.laboratoryId = laboratoryId ||
    ((parameterValueVeil laboratoryId c).shown c.parameterValues).any
      (·.parameterTypeId = r.parameterTypeId)
  blank := id

def parameterOptionVeil : Veil AssetParameterOptionRow where
  visible r :=
    ((parameterTypeVeil laboratoryId c).shown c.parameterTypes).any
      (·.parameterTypeId = r.parameterTypeId) ||
    ((parameterValueVeil laboratoryId c).shown c.parameterValues).any
      (·.columns.valueOptionId = some r.optionId)
  blank := id

def attachmentVeil : Veil AttachmentRecord where
  visible r := r.laboratoryId = laboratoryId && r.isPublic
  blank := id

def fileVeil : Veil FileRecord where
  visible r := ((attachmentVeil laboratoryId).shown c.attachments).any (·.fileId = r.fileId)
  blank := id

-- What is left of a catalog without internal notes, attachments that are not public, their files,
-- and other laboratories.
def Catalog.publicPart : Catalog where
  laboratories := (laboratoryVeil laboratoryId).shown c.laboratories
  assets := (assetVeil laboratoryId).shown c.assets
  inventoryItems := (inventoryItemVeil laboratoryId).shown c.inventoryItems
  trees kind := (treeVeil laboratoryId kind).shown (c.trees kind)
  units := (unitVeil laboratoryId).shown c.units
  parameterTypes := (parameterTypeVeil laboratoryId c).shown c.parameterTypes
  parameterOptions := (parameterOptionVeil laboratoryId c).shown c.parameterOptions
  parameterValues := (parameterValueVeil laboratoryId c).shown c.parameterValues
  attachments := (attachmentVeil laboratoryId).shown c.attachments
  files := (fileVeil laboratoryId c).shown c.files
  objects key :=
    if ((fileVeil laboratoryId c).shown c.files).any (Text.trim ·.storageKey = key) then c.objects key
    else none
  stocked i hi a ha he := by
    obtain ⟨i₀, hi₀, _, rfl⟩ := Veil.mem_shown.mp hi
    obtain ⟨a₀, ha₀, _, rfl⟩ := Veil.mem_shown.mp ha
    exact c.stocked i₀ hi₀ a₀ ha₀ he
  filed r hr := by
    obtain ⟨r₀, hr₀, _, rfl⟩ := Veil.mem_shown.mp hr
    obtain ⟨file, hf, he⟩ := c.filed r₀ hr₀
    refine ⟨file, Veil.mem_shown.mpr ⟨file, hf, ?_, rfl⟩, he⟩
    exact List.any_eq_true.mpr ⟨_, hr, decide_eq_true he.symm⟩
  assetIds := Veil.nodup_shown c.assetIds fun _ => rfl
  inventoryItemIds := Veil.nodup_shown c.inventoryItemIds fun _ => rfl
  attachmentIds := Veil.nodup_shown c.attachmentIds fun _ => rfl

end Veils

section Queries

variable {c : Catalog} {laboratoryId : Uuid}

theorem fetchLaboratory_publicPart :
    fetchLaboratory (c.publicPart laboratoryId) laboratoryId = fetchLaboratory c laboratoryId :=
  Veil.map_find?_shown ⟨fun _ _ h => h, fun _ => rfl⟩ fun _ _ _ => rfl

theorem admits_itemsOf {a : AssetRecord} (ha : a ∈ c.assets) (hl : a.laboratoryId = laboratoryId) :
    (inventoryItemVeil laboratoryId).Admits c.inventoryItems (·.assetId = a.assetId) where
  visible i hi he := decide_eq_true <|
    (c.stocked i hi a ha (of_decide_eq_true he).symm).symm.trans hl
  blank _ := rfl

theorem assetSelect_publicPart {a : AssetRecord} (ha : a ∈ c.assets)
    (hl : a.laboratoryId = laboratoryId) :
    assetSelect (c.publicPart laboratoryId) ((assetVeil laboratoryId).blank a) = assetSelect c a := by
  have h := admits_itemsOf ha hl
  have hsum (q : InventoryItemRecord → ℚ)
      (hq : ∀ i, q ((inventoryItemVeil laboratoryId).blank i) = q i) :
      ((((inventoryItemVeil laboratoryId).shown c.inventoryItems).filter
        (·.assetId = a.assetId)).map q).sum =
          ((c.inventoryItems.filter (·.assetId = a.assetId)).map q).sum :=
    congrArg List.sum <| Veil.map_filter_shown h fun i _ _ => hq i
  dsimp only [assetSelect]
  congr 1
  case e_inventoryItemCount => exact Veil.length_filter_shown h
  case e_quantityOnHand => exact hsum (·.quantityOnHand) fun _ => rfl
  case e_quantityAllocated => exact hsum (·.quantityAllocated) fun _ => rfl

section Assets

theorem fetchAsset_publicPart {assetId : Uuid} :
    fetchAsset (c.publicPart laboratoryId) laboratoryId assetId =
      fetchAsset c laboratoryId assetId := by
  refine Veil.map_find?_shown ⟨fun _ _ h => ?_, fun _ => rfl⟩ fun a ha h => ?_
  case refine_1 => exact (Bool.and_eq_true_iff.mp h).left
  case refine_2 =>
    exact assetSelect_publicPart ha (of_decide_eq_true (Bool.and_eq_true_iff.mp h).left)

variable [UuidFormat] [PatternMatching] {params : String → Option String}

theorem laboratoryId_of_pushAssetFilters {a : AssetRecord}
    (h : pushAssetFilters laboratoryId params a) : a.laboratoryId = laboratoryId := by
  simp only [pushAssetFilters, Bool.and_eq_true, decide_eq_true_eq] at h
  exact h.left.left.left.left

theorem admits_pushAssetFilters :
    (assetVeil laboratoryId).Admits c.assets (pushAssetFilters laboratoryId params) where
  visible _ _ h := decide_eq_true (laboratoryId_of_pushAssetFilters h)
  blank _ := rfl

theorem fetchAssets_publicPart {limit offset : Nat} :
    fetchAssets (c.publicPart laboratoryId) laboratoryId params limit offset =
      fetchAssets c laboratoryId params limit offset := by
  have hs : selectedAssets (c.publicPart laboratoryId) laboratoryId params =
      selectedAssets c laboratoryId params :=
    Veil.map_filter_shown admits_pushAssetFilters fun a ha h =>
      assetSelect_publicPart ha (laboratoryId_of_pushAssetFilters h)
  simp only [fetchAssets, hs]

theorem countAssets_publicPart :
    countAssets (c.publicPart laboratoryId) laboratoryId params =
      countAssets c laboratoryId params := by
  have hl : ((c.publicPart laboratoryId).assets.filter (pushAssetFilters laboratoryId params)).length =
      (c.assets.filter (pushAssetFilters laboratoryId params)).length :=
    Veil.length_filter_shown admits_pushAssetFilters
  simp only [countAssets, hl]

end Assets

section Items

theorem selected_inventoryItem {i : InventoryItemRecord} {r : InventoryItemPublicRow}
    (h : inventoryItemSelect c i = some r) : r.laboratoryId = i.laboratoryId := by
  obtain ⟨a, _, rfl⟩ := Option.map_eq_some_iff.mp h
  rfl

theorem inventoryItemSelect_publicPart {i : InventoryItemRecord} (hi : i ∈ c.inventoryItems)
    (hl : i.laboratoryId = laboratoryId) :
    inventoryItemSelect (c.publicPart laboratoryId) ((inventoryItemVeil laboratoryId).blank i) =
      inventoryItemSelect c i := by
  have h : (assetVeil laboratoryId).Admits c.assets (·.assetId = i.assetId) := by
    refine ⟨fun a ha he => decide_eq_true ?_, fun _ => rfl⟩
    exact (c.stocked i hi a ha (of_decide_eq_true he)).trans hl
  exact Veil.map_find?_shown h fun _ _ _ => rfl

-- Only items of the laboratory are asked for.
theorem filter_inventoryItems {q : InventoryItemPublicRow → Bool}
    (hq : ∀ r, q r → r.laboratoryId = laboratoryId) :
    (joinedInventoryItems (c.publicPart laboratoryId)).filter q =
      (joinedInventoryItems c).filter q := by
  refine Veil.filter_filterMap_shown (fun i hi hv => ?_) fun i _ r hr hq' => ?_
  case refine_1 => exact inventoryItemSelect_publicPart hi (of_decide_eq_true hv)
  case refine_2 => exact decide_eq_true <| (selected_inventoryItem hr).symm.trans (hq r hq')

theorem fetchInventoryItem_publicPart {inventoryItemId : Uuid} :
    fetchInventoryItem (c.publicPart laboratoryId) laboratoryId inventoryItemId =
      fetchInventoryItem c laboratoryId inventoryItemId := by
  unfold fetchInventoryItem
  rw [← List.head?_filter, ← List.head?_filter, filter_inventoryItems]
  exact fun r h => of_decide_eq_true (Bool.and_eq_true_iff.mp h).left

theorem fetchInventoryItemsForAsset_publicPart {assetId : Uuid} :
    fetchInventoryItemsForAsset (c.publicPart laboratoryId) laboratoryId assetId =
      fetchInventoryItemsForAsset c laboratoryId assetId := by
  unfold fetchInventoryItemsForAsset
  rw [filter_inventoryItems]
  exact fun r h => of_decide_eq_true (Bool.and_eq_true_iff.mp h).left

variable [UuidFormat] [PatternMatching] {params : String → Option String}

theorem laboratoryId_of_pushInventoryFilters {r : InventoryItemPublicRow}
    (h : pushInventoryFilters laboratoryId params r) : r.laboratoryId = laboratoryId := by
  simp only [pushInventoryFilters, Bool.and_eq_true, decide_eq_true_eq] at h
  exact h.left.left.left

theorem selectedInventoryItems_publicPart :
    selectedInventoryItems (c.publicPart laboratoryId) laboratoryId params =
      selectedInventoryItems c laboratoryId params :=
  filter_inventoryItems fun _ => laboratoryId_of_pushInventoryFilters

theorem fetchInventoryItems_publicPart {limit offset : Nat} :
    fetchInventoryItems (c.publicPart laboratoryId) laboratoryId params limit offset =
      fetchInventoryItems c laboratoryId params limit offset := by
  simp only [fetchInventoryItems, selectedInventoryItems_publicPart]

theorem countInventoryItems_publicPart :
    countInventoryItems (c.publicPart laboratoryId) laboratoryId params =
      countInventoryItems c laboratoryId params := by
  simp only [countInventoryItems, selectedInventoryItems_publicPart]

end Items

section Trees

variable {kind : TreeKind}

theorem fetchTrees_publicPart {rootPath : Option Ltree} :
    fetchTrees (c.publicPart laboratoryId) laboratoryId kind rootPath =
      fetchTrees c laboratoryId kind rootPath := by
  have h : (treeVeil laboratoryId kind).Admits (c.trees kind) fun r =>
      r.laboratoryId = laboratoryId && rootPath.all fun root => r.path.IsSelfOrDescendant root :=
    ⟨fun _ _ h => (Bool.and_eq_true_iff.mp h).left, fun _ => rfl⟩
  unfold fetchTrees
  congr 1
  exact (Veil.filter_shown h).trans (List.map_id _)

theorem fetchTree_publicPart {id : Uuid} :
    fetchTree (c.publicPart laboratoryId) laboratoryId kind id =
      fetchTree c laboratoryId kind id := by
  refine (Veil.find?_shown ⟨fun _ _ h => ?_, fun _ => rfl⟩).trans Option.map_id_apply
  exact (Bool.and_eq_true_iff.mp h).left

end Trees

section Parameters

theorem shown_parameterType {r : ParameterTypeRecord} (h : r ∈ c.parameterTypes)
    (hv : (parameterTypeVeil laboratoryId c).visible r) :
    r ∈ (parameterTypeVeil laboratoryId c).shown c.parameterTypes :=
  Veil.mem_shown.mpr ⟨r, h, hv, rfl⟩

theorem shown_parameterValue {r : ParameterValueRecord} (h : r ∈ c.parameterValues)
    (hv : (parameterValueVeil laboratoryId c).visible r) :
    r ∈ (parameterValueVeil laboratoryId c).shown c.parameterValues :=
  Veil.mem_shown.mpr ⟨r, h, hv, rfl⟩

theorem fetchParameter_publicPart {parameterId : Uuid} :
    fetchParameter (c.publicPart laboratoryId) laboratoryId parameterId =
      fetchParameter c laboratoryId parameterId := by
  refine (Veil.find?_shown ⟨fun _ _ h => ?_, fun _ => rfl⟩).trans Option.map_id_apply
  exact Bool.or_eq_true_iff.mpr (.inl (Bool.and_eq_true_iff.mp h).left)

theorem fetchUnit_publicPart {unitId : Uuid} :
    fetchUnit (c.publicPart laboratoryId) laboratoryId unitId = fetchUnit c laboratoryId unitId := by
  refine (Veil.find?_shown ⟨fun _ _ h => ?_, fun _ => rfl⟩).trans Option.map_id_apply
  exact (Bool.and_eq_true_iff.mp h).left

-- What a value is joined with is visible, too.
theorem parameterValueSelect_publicPart {r : ParameterValueRecord} (h : r ∈ c.parameterValues)
    (hv : (parameterValueVeil laboratoryId c).visible r) :
    parameterValueSelect (c.publicPart laboratoryId) r = parameterValueSelect c r := by
  have hr := shown_parameterValue h hv
  have ht : (parameterTypeVeil laboratoryId c).Admits c.parameterTypes
      (·.parameterTypeId = r.parameterTypeId) := by
    refine ⟨fun a _ he => Bool.or_eq_true_iff.mpr (.inr ?_), fun _ => rfl⟩
    exact List.any_eq_true.mpr ⟨r, hr, decide_eq_true (of_decide_eq_true he).symm⟩
  have ho : (r.columns.valueOptionId.bind fun optionId =>
      (c.publicPart laboratoryId).parameterOptions.find? (·.optionId = optionId)) =
        r.columns.valueOptionId.bind fun optionId =>
          c.parameterOptions.find? (·.optionId = optionId) := by
    cases hid : r.columns.valueOptionId
    case none => rfl
    case some optionId =>
      refine (Veil.find?_shown ⟨fun a _ he => ?_, fun _ => rfl⟩).trans Option.map_id_apply
      refine Bool.or_eq_true_iff.mpr (.inr <| List.any_eq_true.mpr ⟨r, hr, ?_⟩)
      exact decide_eq_true <| hid.trans (congrArg some (of_decide_eq_true he).symm)
  unfold parameterValueSelect
  rw [ho]
  exact Veil.map_find?_shown ht fun _ _ _ => rfl

variable [Collation]

theorem fetchUnits_publicPart :
    fetchUnits (c.publicPart laboratoryId) laboratoryId = fetchUnits c laboratoryId := by
  have h : (unitVeil laboratoryId).Admits c.units (·.laboratoryId = laboratoryId) :=
    ⟨fun _ _ h => h, fun _ => rfl⟩
  unfold fetchUnits
  congr 1
  exact (Veil.filter_shown h).trans (List.map_id _)

theorem fetchParameters_publicPart :
    fetchParameters (c.publicPart laboratoryId) laboratoryId = fetchParameters c laboratoryId := by
  have h : (parameterTypeVeil laboratoryId c).Admits c.parameterTypes
      (·.laboratoryId = laboratoryId) :=
    ⟨fun _ _ h => Bool.or_eq_true_iff.mpr (.inl h), fun _ => rfl⟩
  unfold fetchParameters
  congr 1
  exact (Veil.filter_shown h).trans (List.map_id _)

theorem parameterResponse_publicPart {r : ParameterTypeRecord} (h : r ∈ c.parameterTypes)
    (hl : r.laboratoryId = laboratoryId) :
    parameterResponse (c.publicPart laboratoryId) r = parameterResponse c r := by
  have hr := shown_parameterType h <| Bool.or_eq_true_iff.mpr (.inl (decide_eq_true hl))
  have ha : (parameterOptionVeil laboratoryId c).Admits c.parameterOptions
      (·.parameterTypeId = r.parameterTypeId) := by
    refine ⟨fun a _ he => Bool.or_eq_true_iff.mpr (.inl ?_), fun _ => rfl⟩
    exact List.any_eq_true.mpr ⟨r, hr, decide_eq_true (of_decide_eq_true he).symm⟩
  unfold parameterResponse fetchParameterOptions
  congr 2
  exact (Veil.filter_shown ha).trans (List.map_id _)

theorem listParameters_publicPart :
    (fetchParameters (c.publicPart laboratoryId) laboratoryId).map
      (parameterResponse (c.publicPart laboratoryId)) =
        (fetchParameters c laboratoryId).map (parameterResponse c) := by
  rw [fetchParameters_publicPart]
  refine List.map_congr_left fun r hr => ?_
  obtain ⟨hm, hl⟩ := List.mem_filter.mp (perm_orderBy.mem_iff.mp hr)
  exact parameterResponse_publicPart hm (of_decide_eq_true hl)

theorem fetchParameterValues_publicPart {a : AssetRecord} (ha : a ∈ c.assets)
    (hl : a.laboratoryId = laboratoryId) :
    fetchParameterValues (c.publicPart laboratoryId) [a.assetId] =
      fetchParameterValues c [a.assetId] := by
  have hv (r : ParameterValueRecord) (h : [a.assetId].contains r.assetId) :
      (parameterValueVeil laboratoryId c).visible r := by
    have he := List.mem_singleton.mp (List.contains_iff_mem.mp h)
    exact List.any_eq_true.mpr ⟨a, ha, by simp [hl, he]⟩
  unfold fetchParameterValues
  congr 1
  exact Veil.filterMap_filter_shown ⟨fun r _ h => hv r h, fun _ => rfl⟩ fun r hr h =>
    parameterValueSelect_publicPart hr (hv r h)

end Parameters

section Attachments

theorem admits_fileOf {r : AttachmentRecord} (h : r ∈ c.attachments)
    (hv : (attachmentVeil laboratoryId).visible r) :
    (fileVeil laboratoryId c).Admits c.files (·.fileId = r.fileId) where
  visible _ _ he := List.any_eq_true.mpr
    ⟨r, Veil.mem_shown.mpr ⟨r, h, hv, rfl⟩, decide_eq_true (of_decide_eq_true he).symm⟩
  blank _ := rfl

theorem attachmentSelect_publicPart {r : AttachmentRecord} (h : r ∈ c.attachments)
    (hv : (attachmentVeil laboratoryId).visible r) :
    attachmentSelect (c.publicPart laboratoryId) r = attachmentSelect c r :=
  Veil.map_find?_shown (admits_fileOf h hv) fun _ _ _ => rfl

theorem publicAttachments_publicPart {isMatch : AttachmentRecord → Bool} :
    publicAttachments (c.publicPart laboratoryId) laboratoryId isMatch =
      publicAttachments c laboratoryId isMatch := by
  have hv (r : AttachmentRecord) (h : r.laboratoryId = laboratoryId && isMatch r && r.isPublic) :
      (attachmentVeil laboratoryId).visible r := by
    simp only [Bool.and_eq_true] at h
    exact Bool.and_eq_true_iff.mpr ⟨h.left.left, h.right⟩
  unfold publicAttachments selectedAttachments
  congr 1
  exact Veil.filterMap_filter_shown ⟨fun r _ h => hv r h, fun _ => rfl⟩ fun r hr h =>
    attachmentSelect_publicPart hr (hv r h)

theorem countLaboratoryAttachments_publicPart :
    countLaboratoryAttachments (c.publicPart laboratoryId) laboratoryId =
      countLaboratoryAttachments c laboratoryId :=
  Veil.length_filter_shown ⟨fun _ _ h => h, fun _ => rfl⟩

theorem findPublicAttachment_visible {attachmentId : Uuid} {r : AttachmentRecord}
    (h : findPublicAttachment c laboratoryId attachmentId = some r) :
    r ∈ c.attachments ∧ (attachmentVeil laboratoryId).visible r := by
  have hp := List.find?_some h
  simp only [Bool.and_eq_true] at hp
  exact ⟨List.mem_of_find?_eq_some h, Bool.and_eq_true_iff.mpr ⟨hp.left.left, hp.right⟩⟩

theorem findPublicAttachment_publicPart {attachmentId : Uuid} :
    findPublicAttachment (c.publicPart laboratoryId) laboratoryId attachmentId =
      findPublicAttachment c laboratoryId attachmentId := by
  refine (Veil.find?_shown ⟨fun _ _ h => ?_, fun _ => rfl⟩).trans Option.map_id_apply
  simp only [Bool.and_eq_true] at h
  exact Bool.and_eq_true_iff.mpr ⟨h.left.left, h.right⟩

theorem fetchAttachment_publicPart {attachmentId : Uuid} :
    fetchAttachment (c.publicPart laboratoryId) laboratoryId attachmentId =
      fetchAttachment c laboratoryId attachmentId := by
  unfold fetchAttachment
  rw [findPublicAttachment_publicPart]
  cases h : findPublicAttachment c laboratoryId attachmentId
  case none => rfl
  case some r =>
    obtain ⟨hm, hv⟩ := findPublicAttachment_visible h
    exact attachmentSelect_publicPart hm hv

theorem fetchAttachmentDownload_publicPart {attachmentId : Uuid} :
    fetchAttachmentDownload (c.publicPart laboratoryId) laboratoryId attachmentId =
      fetchAttachmentDownload c laboratoryId attachmentId := by
  unfold fetchAttachmentDownload
  rw [findPublicAttachment_publicPart]
  cases h : findPublicAttachment c laboratoryId attachmentId
  case none => rfl
  case some r =>
    obtain ⟨hm, hv⟩ := findPublicAttachment_visible h
    exact Veil.map_find?_shown (admits_fileOf hm hv) fun _ _ _ => rfl

theorem eq_trim_of_parse {s key : String} (h : FileStorageKey.parse s = .ok key) :
    key = Text.trim s := by
  unfold FileStorageKey.parse at h
  dsimp only at h
  split at h
  case isTrue => exact (Except.ok.inj h).symm
  case isFalse => cases h

-- The object of a public attachment is there, too.
theorem objects_publicPart {attachmentId : Uuid} {row : AttachmentDownloadRow} {key : String}
    (h : fetchAttachmentDownload c laboratoryId attachmentId = some row)
    (hk : FileStorageKey.parse row.storageKey = .ok key) :
    (c.publicPart laboratoryId).objects key = c.objects key := by
  obtain ⟨r, hr, h⟩ := Option.bind_eq_some_iff.mp h
  obtain ⟨hm, hv⟩ := findPublicAttachment_visible hr
  obtain ⟨file, hf, rfl⟩ := Option.map_eq_some_iff.mp h
  have he : file.fileId = r.fileId := by simpa using List.find?_some hf
  have hv := (admits_fileOf hm hv).visible file (List.mem_of_find?_eq_some hf) (decide_eq_true he)
  refine if_pos <| List.any_eq_true.mpr ⟨file, Veil.mem_shown.mpr ⟨file, ?_, hv, rfl⟩, ?_⟩
  case refine_1 => exact List.mem_of_find?_eq_some hf
  case refine_2 => exact decide_eq_true (eq_trim_of_parse hk).symm

theorem downloadAttachment_publicPart {attachmentId : Uuid} :
    downloadAttachment (c.publicPart laboratoryId) laboratoryId attachmentId =
      downloadAttachment c laboratoryId attachmentId := by
  unfold downloadAttachment
  rw [fetchAttachmentDownload_publicPart]
  cases h : fetchAttachmentDownload c laboratoryId attachmentId
  case none => rfl
  case some row =>
    cases hk : FileStorageKey.parse row.storageKey
    case error => simp [orNotFound, hk, Except.mapError, bind, Except.bind]
    case ok key => simp [orNotFound, hk, Except.mapError, bind, Except.bind, objects_publicPart h hk]

end Attachments

end Queries

section Service

variable [FormUrlEncoded] [TextFormats] {c : Catalog} {laboratoryId : Uuid} {queryString : String}

theorem listTrees_publicPart {kind : TreeKind} {rootKey notFound : String} :
    listTrees (c.publicPart laboratoryId) laboratoryId kind rootKey notFound queryString =
      listTrees c laboratoryId kind rootKey notFound queryString := by
  simp only [listTrees, fetchTree_publicPart, fetchTrees_publicPart]

variable [Collation]

theorem assetResponse_publicPart {assetId : Uuid} :
    assetResponse (c.publicPart laboratoryId) laboratoryId assetId queryString =
      assetResponse c laboratoryId assetId queryString := by
  unfold assetResponse listInventoryItemsForAsset
  rw [fetchAsset_publicPart, fetchInventoryItemsForAsset_publicPart]
  cases h : fetchAsset c laboratoryId assetId
  case none => rfl
  case some row =>
    obtain ⟨a, ha, _⟩ := Option.map_eq_some_iff.mp h
    have hp := List.find?_some ha
    simp only [Bool.and_eq_true, decide_eq_true_eq] at hp
    obtain ⟨hl, rfl⟩ := hp
    rw [fetchParameterValues_publicPart (List.mem_of_find?_eq_some ha) hl]

variable [PatternMatching]

-- What a federated reader is answered comes from the public part alone.
theorem respondPublicData_publicPart {target : FederationReadTarget} :
    respondPublicData (c.publicPart laboratoryId) laboratoryId target queryString =
      respondPublicData c laboratoryId target queryString := by
  cases target
  case laboratory => simp only [respondPublicData, fetchLaboratory_publicPart]
  case assets =>
    simp only [respondPublicData, listAssets, fetchAssets_publicPart, countAssets_publicPart]
  case asset => simp only [respondPublicData, assetResponse_publicPart]
  case assetAttachments =>
    simp only [respondPublicData, fetchAssetAttachments, publicAttachments_publicPart]
  case assetCategories | locations => simp only [respondPublicData, listTrees_publicPart]
  case assetCategory | location => simp only [respondPublicData, fetchTree_publicPart]
  case assetParameters => simp only [respondPublicData, listParameters_publicPart]
  case assetParameter parameterId =>
    simp only [respondPublicData, fetchParameter_publicPart]
    cases h : fetchParameter c laboratoryId parameterId
    case none => rfl
    case some r =>
      have hp := List.find?_some h
      simp only [Bool.and_eq_true, decide_eq_true_eq] at hp
      simp only [orNotFound, Functor.map, Except.map,
        parameterResponse_publicPart (List.mem_of_find?_eq_some h) hp.left]
  case inventoryItems =>
    simp only [respondPublicData, listInventoryItems, fetchInventoryItems_publicPart,
      countInventoryItems_publicPart]
  case inventoryItem => simp only [respondPublicData, fetchInventoryItem_publicPart]
  case inventoryItemAttachments =>
    simp only [respondPublicData, fetchInventoryItemAttachments, publicAttachments_publicPart]
  case units => simp only [respondPublicData, fetchUnits_publicPart]
  case unit => simp only [respondPublicData, fetchUnit_publicPart]
  case attachments =>
    simp only [respondPublicData, listLaboratoryAttachments, fetchLaboratoryAttachments,
      publicAttachments_publicPart, countLaboratoryAttachments_publicPart]
  case attachment => simp only [respondPublicData, fetchAttachment_publicPart]
  case attachmentDownload => simp only [respondPublicData, downloadAttachment_publicPart]

end Service

end Federation.PublicData

end LabInventory
