import LabInventory.AssetParameters.Effects
import LabInventory.Assets.Conversion
import LabInventory.Assets.Overwriting
import LabInventory.Trees.Theorems

open Sql Program

namespace LabInventory

-- What the pages get to know about a category.
structure CategoryAssignment where
  parameterTypeId : Uuid
  appliesToDescendants : Bool

structure AssetCategory where
  categoryId : Uuid
  path : String
  depth : Int
  parameterAssignments : List CategoryAssignment

namespace AssetsPage

def isSelfOrAncestor (selected category : AssetCategory) : Bool :=
  selected.path = category.path ||
  (Text.stripPrefix selected.path (category.path ++ ".")).isSome

-- The parameters that the editor shows for a category. Only their set matters.
def parameterIdsForCategory (categoryId : Uuid) (categories : List AssetCategory) : List Uuid :=
  match categories.find? (·.categoryId = categoryId) with
  | none => []
  | some selected =>
    let ancestors := (categories.filter (isSelfOrAncestor selected)).mergeSort (·.depth ≤ ·.depth)
    ancestors.flatMap fun category => (category.parameterAssignments.filter fun assignment =>
      category.categoryId = selected.categoryId ∨ assignment.appliesToDescendants).map
        (·.parameterTypeId)

variable {categories : List AssetCategory} {selected : AssetCategory} {p : Uuid}

theorem mem_parameterIdsForCategory (hs : selected ∈ categories)
    (hu : ∀ c ∈ categories, c.categoryId = selected.categoryId → c = selected) :
    p ∈ parameterIdsForCategory selected.categoryId categories ↔ ∃ c ∈ categories,
      isSelfOrAncestor selected c ∧ ∃ a ∈ c.parameterAssignments, a.parameterTypeId = p ∧
        (c.categoryId = selected.categoryId ∨ a.appliesToDescendants) := by
  unfold parameterIdsForCategory
  cases hf : categories.find? (·.categoryId = selected.categoryId)
  case none => exact absurd (decide_eq_true rfl) <| List.find?_eq_none.mp hf selected hs
  case some c =>
    have hc : c.categoryId = selected.categoryId := by simpa using List.find?_some hf
    obtain rfl := hu c (List.mem_of_find?_eq_some hf) hc
    simp only [List.mem_flatMap, List.mem_mergeSort, List.mem_filter, List.mem_map, decide_eq_true_eq]
    constructor
    case mp =>
      rintro ⟨c, ⟨hc, hp⟩, a, ⟨ha, hd⟩, he⟩
      exact ⟨c, hc, hp, a, ha, he, hd⟩
    case mpr =>
      rintro ⟨c, hc, hp, a, ha, he, hd⟩
      exact ⟨c, ⟨hc, hp⟩, a, ⟨ha, hd⟩, he⟩

end AssetsPage

namespace Assets

variable {d d₁ d' : Database} {laboratoryId assetId categoryId p : Uuid} {current : AssetCategoryRow}

section Required

-- The category marks the parameter as required, or one of its ancestors does for its descendants.
def IsRequired (categoryId p : Uuid) (d : Database) : Prop :=
  ∃ a ∈ d.assetParameterAssignments, a.isRequired ∧ a.parameterTypeId = p ∧
    ∃ ancestorId, a.categoryId = some ancestorId ∧ (ancestorId = categoryId ∨
      (a.appliesToDescendants ∧ (Trees.forest d.assetCategories).IsAncestor ancestorId categoryId))

theorem mem_requiredParameters (hc : current ∈ d.assetCategories)
    (hl : current.laboratoryId = laboratoryId) :
    p ∈ requiredParameters laboratoryId current.id d ↔ ∃ a ∈ d.assetParameterAssignments,
      a.isRequired ∧ a.parameterTypeId = p ∧ ∃ ancestor ∈ d.assetCategories,
        a.categoryId = some ancestor.id ∧ ancestor.laboratoryId = current.laboratoryId ∧
        current.path.IsSelfOrDescendant ancestor.path ∧
        (ancestor.id = current.id ∨ a.appliesToDescendants) := by
  have hf : (d.assetCategories.find? current.id).filter (·.laboratoryId = laboratoryId) =
      some current :=
    Option.filter_eq_some_iff.mpr ⟨Table.find?_key hc, decide_eq_true hl⟩
  rw [requiredParameters, hf]
  simp only [List.mem_map, List.mem_filter, Bool.and_eq_true, Option.any_eq_true,
    Option.bind_eq_some_iff, Table.find?_eq_some, Trees.key_eq, decide_eq_true_eq]
  constructor
  case mp =>
    rintro ⟨a, ⟨ha, hr, ancestor, ⟨_, hk, hm, rfl⟩, h⟩, he⟩
    exact ⟨a, ha, hr, he, ancestor, hm, hk, h⟩
  case mpr =>
    rintro ⟨a, ha, hr, he, ancestor, hm, hk, h⟩
    exact ⟨a, ⟨ha, hr, ancestor, ⟨_, hk, hm, rfl⟩, h⟩, he⟩

-- The paths lead to what the parents say.
theorem mem_requiredParameters_iff (ht : Trees.WellFormed d.assetCategories)
    (hc : current ∈ d.assetCategories) (hl : current.laboratoryId = laboratoryId) :
    p ∈ requiredParameters laboratoryId current.id d ↔ IsRequired current.id p d := by
  rw [mem_requiredParameters hc hl]
  refine exists_congr fun a => and_congr_right fun _ => and_congr_right fun _ =>
    and_congr_right fun _ => ?_
  have hunder := ht.invariant.under
  constructor
  case mp =>
    rintro ⟨ancestor, hm, hk, hla, hp, h⟩
    refine ⟨ancestor.id, hk, h.imp_right fun ha => ⟨ha, ?_⟩⟩
    exact (hunder ancestor hm current hc).mpr ⟨hla, hp⟩
  case mpr =>
    rintro ⟨ancestorId, hk, h⟩
    obtain ⟨ancestor, hm, rfl⟩ : ∃ ancestor ∈ d.assetCategories, ancestor.id = ancestorId := by
      obtain rfl | ⟨_, ha⟩ := h
      case inl => exact ⟨current, hc, rfl⟩
      case inr =>
        obtain rfl | ha := Relation.reflTransGen_iff_eq_or_transGen.mp ha
        case inl => exact ⟨current, hc, rfl⟩
        case inr =>
          obtain ⟨_, hn, _⟩ := ht.forest.under_of_transGen ha (Trees.forest_of_mem hc)
          obtain ⟨ancestor, hm, hi, _⟩ := Trees.forest_eq_some.mp hn
          exact ⟨ancestor, hm, hi⟩
    have ha : (Trees.forest d.assetCategories).IsAncestor ancestor.id current.id := by
      obtain he | ⟨_, ha⟩ := h
      case inl => exact he ▸ .refl
      case inr => exact ha
    obtain ⟨hla, hp⟩ := (hunder ancestor hm current hc).mp ha
    exact ⟨ancestor, hm, hk, hla, hp, h.imp_right And.left⟩

def fromParts (r : AssetCategoryRow) (parameterAssignments : List AssetParameterAssignmentRow) :
    AssetCategory where
  categoryId := r.id
  path := r.path.text
  depth := r.depth
  parameterAssignments := parameterAssignments.map fun a => ⟨a.parameterTypeId, a.appliesToDescendants⟩

-- The list of categories that the pages get.
def listAssetCategories (laboratoryId : Uuid) (d : Database) : List AssetCategory :=
  (d.assetCategories.rows.filter (·.laboratoryId = laboratoryId)).map fun r =>
    fromParts r (AssetCategories.parameterAssignmentsOf r.id d)

theorem mem_listAssetCategories {c : AssetCategory} : c ∈ listAssetCategories laboratoryId d ↔
    ∃ r ∈ d.assetCategories, r.laboratoryId = laboratoryId ∧
      fromParts r (AssetCategories.parameterAssignmentsOf r.id d) = c := by
  simp only [listAssetCategories, List.mem_map, List.mem_filter, decide_eq_true_eq, and_assoc,
    Table.mem_def]

theorem isSelfOrAncestor_of_path {ancestor : AssetCategoryRow} {as bs : List AssetParameterAssignmentRow}
    (hn : ancestor.path ≠ []) (hp : current.path.IsSelfOrDescendant ancestor.path) :
    AssetsPage.isSelfOrAncestor (fromParts current as) (fromParts ancestor bs) := by
  refine Bool.or_eq_true_iff.mpr <| ((Ltree.isSelfOrDescendant_iff_text hn).mp hp).imp
    decide_eq_true fun h => Option.isSome_iff_exists.mpr ?_
  obtain ⟨s, hs⟩ := h
  refine ⟨.ofList s, Text.stripPrefix_eq_some.mpr <| String.toList_inj.mp ?_⟩
  change current.path.text.toList = _
  rw [hs]
  simp [fromParts]

-- The editor shows whatever is required.
theorem shown_of_required (ht : Trees.WellFormed d.assetCategories) (hc : current ∈ d.assetCategories)
    (hl : current.laboratoryId = laboratoryId) (hr : IsRequired current.id p d) :
    p ∈ AssetsPage.parameterIdsForCategory current.id (listAssetCategories laboratoryId d) := by
  obtain ⟨a, ha, _, hp, ancestor, hm, hk, hla, hpath, h⟩ := (mem_requiredParameters hc hl).mp <|
    (mem_requiredParameters_iff ht hc hl).mpr hr
  have hs := mem_listAssetCategories.mpr ⟨current, hc, hl, rfl⟩
  refine (AssetsPage.mem_parameterIdsForCategory hs fun c hc' he => ?_).mpr
    ⟨_, mem_listAssetCategories.mpr ⟨ancestor, hm, hla.trans hl, rfl⟩,
      isSelfOrAncestor_of_path (ht.path_ne_nil hm) hpath, ?_⟩
  case refine_1 =>
    obtain ⟨r, hr, _, rfl⟩ := mem_listAssetCategories.mp hc'
    obtain rfl : r = current := Table.eq_of_key_eq hr hc he
    rfl
  case refine_2 =>
    refine ⟨⟨a.parameterTypeId, a.appliesToDescendants⟩, List.mem_map.mpr ⟨a, ?_, rfl⟩, hp, h⟩
    exact List.mem_filter.mpr ⟨ha, decide_eq_true hk⟩

end Required

section Owned

-- Every value belongs to an asset of its laboratory.
def Owned (d : Database) : Prop :=
  ∀ r ∈ d.assetParameterValues, ∃ asset ∈ d.assets,
    asset.assetId = r.assetId ∧ asset.laboratoryId = r.laboratoryId

-- What happens to values and stock leaves alone what the values are checked against.
structure Keeps (d d' : Database) : Prop where
  owned : Owned d'
  assets : d'.assets = d.assets
  assetCategories : d'.assetCategories = d.assetCategories
  assetParameterAssignments : d'.assetParameterAssignments = d.assetParameterAssignments

theorem Keeps.trans (h : Keeps d d₁) (h' : Keeps d₁ d') : Keeps d d' where
  owned := h'.owned
  assets := h'.assets.trans h.assets
  assetCategories := h'.assetCategories.trans h.assetCategories
  assetParameterAssignments := h'.assetParameterAssignments.trans h.assetParameterAssignments

theorem Keeps.refl (ho : Owned d) : Keeps d d :=
  ⟨ho, rfl, rfl, rfl⟩

section Steps

variable {α β : Type} {p : Transaction α} {f : α → Transaction β} {Q : β → Database → Prop}

theorem wlp_keeps_stock (hp : p.Writes IsStockWrite) (ho : Owned d) :
    p.wlp (fun _ => Keeps d) d := by
  refine hp.wlp (.refl ho) fun w d₁ d₂ hw h ha => ?_
  have happ := Database.applied_of_apply ha
  cases w
  case assetInventoryItems | fileUploads | files | attachmentAssignments =>
    rw [happ.right]
    exact ⟨h.owned, h.assets, h.assetCategories, h.assetParameterAssignments⟩
  all_goals exact hw.elim

theorem keeps_value {w : RowWrite AssetParameterValueRow Uuid} (ho : Owned d)
    (ha : d.apply (.assetParameterValues w) = .ok d')
    (hw : ∀ r, w = .insert r ∨ w = .update r → ∃ asset ∈ d.assets,
      asset.assetId = r.assetId ∧ asset.laboratoryId = r.laboratoryId) : Keeps d d' := by
  obtain ⟨ht, hd⟩ := Database.applied_of_apply ha
  have howned : ∀ r ∈ d'.assetParameterValues, ∃ asset ∈ d.assets,
      asset.assetId = r.assetId ∧ asset.laboratoryId = r.laboratoryId :=
    fun r hr => (Table.mem_write ht hr).elim (ho r) (hw r)
  rw [hd]
  exact ⟨howned, rfl, rfl, rfl⟩

theorem wlp_keeps_bind (hp : p.wlp (fun _ => Keeps d) d)
    (hf : ∀ a d₁, Keeps d d₁ → (f a).wlp (fun _ => Keeps d₁) d₁) :
    (p >>= f).wlp (fun _ => Keeps d) d :=
  wp_bind.mpr <| wp_mono hp fun a d₁ h => wp_mono (hf a d₁ h) fun _ _ h' => h.trans h'

end Steps

section Values

variable {newId : Uuid} {asset : AssetRow} {allowDelete : Bool} {newIds : NewIds}

theorem wlp_keeps_upsert {value : ResolvedParameterValue} (ho : Owned d) (hm : asset ∈ d.assets) :
    (upsertAssetParameterValue asset.laboratoryId asset.assetId newId value).wlp
      (fun _ => Keeps d) d := by
  refine wp_bind.mpr <| wp_read.mpr ?_
  split
  case h_1 =>
    refine wp_exec.mpr ⟨fun d' ha => ⟨trivial, keeps_value ho ha ?_⟩, fun _ _ => trivial⟩
    rintro _ (⟨⟨⟩⟩ | ⟨⟨⟩⟩)
    exact ⟨asset, hm, rfl, rfl⟩
  case h_2 r₀ hf =>
    refine wp_bind.mpr <| wp_selectForUpdate.mpr ?_
    have hr₀ : r₀ ∈ d.assetParameterValues := List.mem_of_find?_eq_some hf
    rw [show d.assetParameterValues.find? r₀.valueId = some r₀ from Table.find?_key hr₀]
    refine wp_exec.mpr ⟨fun d' ha => ⟨trivial, keeps_value ho ha ?_⟩, fun _ _ => trivial⟩
    rintro _ (⟨⟨⟩⟩ | ⟨⟨⟩⟩)
    exact ho r₀ hr₀

variable [TextFormats]

theorem wlp_keeps_parameter {definition : Option ParameterValueDefinition}
    {input : AssetParameterValueInput} (ho : Owned d) (hm : asset ∈ d.assets) :
    (applyAssetParameterUpdate asset.laboratoryId asset.assetId newId definition input).wlp
      (fun _ => Keeps d) d := by
  unfold applyAssetParameterUpdate
  split
  case h_1 =>
    cases definition
    case none => trivial
    case some =>
      refine wp_readOnly_bind ParameterValues.resolveParameterValue_readOnly fun _ => ?_
      exact wlp_keeps_upsert ho hm
  case h_2 =>
    refine wp_bind.mpr <| wp_read.mpr ?_
    split
    case h_1 r _ =>
      refine wp_bind.mpr <| wp_lockRow.mpr <| wp_exec.mpr ⟨fun d' ha => ⟨trivial, ?_⟩, fun _ _ => trivial⟩
      exact keeps_value ho ha <| by rintro _ (⟨⟨⟩⟩ | ⟨⟨⟩⟩)
    case h_2 => exact .refl ho

theorem wlp_keeps_parameters {inputs : List AssetParameterValueInput} (ho : Owned d)
    (hm : asset ∈ d.assets) :
    (applyAssetParameterUpdates asset.laboratoryId asset.assetId inputs allowDelete newIds).wlp
      (fun _ => Keeps d) d := by
  refine wp_readOnly_bind readOnly_require fun _ => ?_
  refine wp_readOnly_bind fetchParameterDefinitions_readOnly fun definitions => ?_
  induction definitions generalizing d newIds
  case nil => exact .refl ho
  case cons ih =>
    refine wp_readOnly_bind readOnly_require fun _ => ?_
    exact wlp_keeps_bind (wlp_keeps_parameter ho hm) fun _ d₁ h => ih h.owned <| h.assets ▸ hm

end Values

end Owned

section Checked

variable [TextFormats] [UnicodeSegmentation]

-- The requests up to their last check, with what it is about: the laboratory, the asset and its
-- category.
def createUnchecked (ctx : LaboratoryContext) (payload : CreateJsonData) (newIds : NewGraphIds) :
    Transaction (Uuid × Uuid × Option Uuid) := do
  let permitted ← .read (validatePermission · ctx.actor .asset (.create ctx.laboratoryId))
  .require permitted (.forbidden "You don't have permission to create assets.")
  InventoryItems.requirePermissions ctx.actor .fileUpload
    (.forbidden "You do not have permission to assign this attachment")
    (payload.uploadIds.map .assign)
  let input ← .validated payload.toCreateAssetInput
  validateCategory ctx.laboratoryId input.asset.categoryId
  insertAsset ctx.laboratoryId newIds.asset input.asset
  Attachments.assignUploadedAttachments .validation (.asset newIds.asset) ctx.laboratoryId
    newIds.attachments input.attachments
  insertAssetInventoryItems ctx.laboratoryId newIds.asset input.asset.trackingMode
    newIds.inventoryItems input.inventoryItems
  applyAssetParameterUpdates ctx.laboratoryId newIds.asset input.parameterValues false
    newIds.parameterValues
  return (ctx.laboratoryId, newIds.asset, input.asset.categoryId)

def updateUnchecked [ScanOrder] (ctx : LaboratoryContext) (assetId : Uuid) (payload : UpdateJsonData)
    (newIds : NewIds) : Transaction (Uuid × Uuid × Option Uuid) := do
  let permitted ← .read (validatePermission · ctx.authorizationActor .asset (.update assetId))
  .require permitted (.forbidden "You don't have permission to update this asset.")
  let update ← .validated payload.toUpdateAsset
  let some (existing, inventoryItemCount) ← fetchAssetForUpdate assetId |
    .abort (.notFound "Asset not found")
  fetchParameterValuesForAssetForUpdate existing.assetId
  let categoryId := update.categoryId.resolve existing.categoryId
  validateCategory existing.laboratoryId categoryId
  let trackingMode ← .validated <| resolveTrackingMode update existing inventoryItemCount
  let inventoryUnitId := update.inventoryUnitId.getD existing.inventoryUnitId
  updateAssetInDatabase { existing with
    categoryId, trackingMode
    name := update.name.getD existing.name
    model := update.model.resolve existing.model
    manufacturer := update.manufacturer.resolve existing.manufacturer
    inventoryUnitId
    publicNotes := update.publicNotes.resolve existing.publicNotes
    internalNotes := update.internalNotes.resolve existing.internalNotes
  }
  convertInventoryQuantitiesToUnit existing.assetId trackingMode existing.inventoryUnitId
    inventoryUnitId
  match payload.parameters with
  | some inputs => applyAssetParameterUpdates existing.laboratoryId existing.assetId inputs true newIds
  | none => pure ()
  return (existing.laboratoryId, existing.assetId, categoryId)

def checkRequired (saved : Uuid × Uuid × Option Uuid) : Transaction Unit :=
  validateRequiredParameters saved.1 saved.2.1 saved.2.2

theorem createAsset_eq {ctx payload newIds} :
    createAsset ctx payload newIds = createUnchecked ctx payload newIds >>= checkRequired := by
  simp only [createAsset, createUnchecked, insertAssetGraph, bind_assoc]
  rfl

theorem updateAsset_eq [ScanOrder] {ctx assetId payload newIds} :
    updateAsset ctx assetId payload newIds =
      updateUnchecked ctx assetId payload newIds >>= checkRequired := by
  simp only [updateAsset, updateUnchecked, bind_assoc]
  refine bind_congr fun permitted => bind_congr fun _ => bind_congr fun update => ?_
  refine bind_congr fun found => ?_
  cases found
  case none => rfl
  case some found =>
    simp only [bind_assoc]
    refine bind_congr fun _ => bind_congr fun _ => bind_congr fun trackingMode => ?_
    refine bind_congr fun _ => bind_congr fun _ => ?_
    cases payload.parameters
    case none => rfl
    case some =>
      simp only [bind_assoc]
      rfl

-- What a request leaves behind once all of its other checks have passed.
structure Saved (d : Database) (saved : Uuid × Uuid × Option Uuid) (d' : Database) : Prop where
  asset : ∃ asset ∈ d'.assets, asset.assetId = saved.2.1 ∧ asset.laboratoryId = saved.1 ∧
    asset.categoryId = saved.2.2
  categorized : Categorized d saved.1 saved.2.2
  owned : Owned d'
  assetCategories : d'.assetCategories = d.assetCategories
  assetParameterAssignments : d'.assetParameterAssignments = d.assetParameterAssignments

omit [TextFormats] [UnicodeSegmentation] in
theorem Saved.keeps {saved : Uuid × Uuid × Option Uuid} (h : Saved d saved d₁) (hk : Keeps d₁ d') :
    Saved d saved d' where
  asset := hk.assets ▸ h.asset
  categorized := h.categorized
  owned := hk.owned
  assetCategories := hk.assetCategories.trans h.assetCategories
  assetParameterAssignments := hk.assetParameterAssignments.trans h.assetParameterAssignments

omit [TextFormats] [UnicodeSegmentation] in
theorem saved_of_applyAsset {w : RowWrite AssetRow Uuid} {asset : AssetRow}
    (ha : d.apply (.assets w) = .ok d')
    (hw : w = .insert asset ∨ w = .update asset ∧ ∃ r₀ ∈ d.assets, r₀.assetId = asset.assetId ∧
      r₀.laboratoryId = asset.laboratoryId)
    (hc : Categorized d asset.laboratoryId asset.categoryId) (ho : Owned d) :
    Saved d (asset.laboratoryId, asset.assetId, asset.categoryId) d' := by
  obtain ⟨ht, hd⟩ := Database.applied_of_apply ha
  obtain ⟨hdelete, hself, hkept⟩ : (∀ k, w ≠ .delete k) ∧ asset ∈ d'.assets ∧
      ∀ r ∈ d.assets, ∃ r' ∈ d'.assets, r'.assetId = r.assetId ∧ r'.laboratoryId = r.laboratoryId := by
    obtain rfl | ⟨rfl, r₀, hr₀, hk, hl⟩ := hw
    case inl =>
      exact ⟨nofun, (Table.mem_insert ht).mpr <| .inr rfl, fun r hr =>
        ⟨r, (Table.mem_insert ht).mpr <| .inl hr, rfl, rfl⟩⟩
    case inr =>
      have hself : asset ∈ d'.assets := (Table.mem_update ht).mpr <| .inr ⟨rfl, r₀, hr₀, hk⟩
      refine ⟨nofun, hself, fun r hr => ?_⟩
      by_cases he : r.assetId = asset.assetId
      case pos =>
        obtain rfl := Table.eq_of_key_eq hr hr₀ (he.trans hk.symm)
        exact ⟨asset, hself, hk.symm, hl.symm⟩
      case neg => exact ⟨r, (Table.mem_update ht).mpr <| .inl ⟨hr, he⟩, rfl, rfl⟩
  obtain ⟨_, hvalues, hassignments⟩ := dependents_of_applyAsset ha hdelete
  refine ⟨⟨asset, hself, rfl, rfl, rfl⟩, hc, fun r hr => ?_, by rw [hd], hassignments⟩
  obtain ⟨owner, hm, hi, hl⟩ := ho r <| hvalues ▸ hr
  obtain ⟨owner', hm', hi', hl'⟩ := hkept owner hm
  exact ⟨owner', hm', hi'.trans hi, hl'.trans hl⟩

section Steps

variable {saved : Uuid × Uuid × Option Uuid}

omit [TextFormats] [UnicodeSegmentation] in
theorem Saved.bind {α β : Type} {t : Transaction α} {f : α → Transaction β}
    {Q : β → Database → Prop} (h : Saved d saved d₁) (ht : t.wlp (fun _ => Keeps d₁) d₁)
    (hf : ∀ a d₂, Saved d saved d₂ → (f a).wlp Q d₂) : (t >>= f).wlp Q d₁ :=
  wp_bind.mpr <| wp_mono ht fun a d₂ hk => hf a d₂ <| h.keeps hk

omit [UnicodeSegmentation] in
theorem Saved.parameters {inputs : List AssetParameterValueInput} {allowDelete : Bool}
    {newIds : NewIds} (h : Saved d saved d₁) :
    (applyAssetParameterUpdates saved.1 saved.2.1 inputs allowDelete newIds).wlp
      (fun _ => Keeps d₁) d₁ := by
  obtain ⟨asset, hm, hi, hl, _⟩ := h.asset
  rw [← hi, ← hl]
  exact wlp_keeps_parameters h.owned hm

end Steps

theorem wlp_createUnchecked {ctx payload newIds} (ho : Owned d) :
    (createUnchecked ctx payload newIds).wlp (Saved d) d := by
  refine wp_readOnly_bind readOnly_read fun _ => wp_readOnly_bind readOnly_require fun _ => ?_
  refine wp_readOnly_bind requirePermissions_readOnly fun _ => ?_
  refine wp_readOnly_bind readOnly_ofExcept fun input => ?_
  refine wp_bind.mpr <| wlp_validateCategory fun hc => ?_
  refine wp_bind.mpr <| wp_exec.mpr ⟨fun d₁ ha => ⟨trivial, ?_⟩, fun _ _ => trivial⟩
  have hs := saved_of_applyAsset ha (.inl rfl) hc ho
  refine hs.bind (wlp_keeps_stock ?_ hs.owned) fun _ d₂ hs => ?_
  case refine_1 =>
    exact Attachments.assignUploadedAttachments_writes.mono fun _ => isStockWrite_of_isFileWrite
  case refine_2 =>
    refine hs.bind (wlp_keeps_stock insertAssetInventoryItems_writes hs.owned) fun _ d₃ hs => ?_
    exact hs.bind hs.parameters fun _ d₄ hs => hs

theorem wlp_updateUnchecked [ScanOrder] {ctx assetId payload newIds} (ho : Owned d) :
    (updateUnchecked ctx assetId payload newIds).wlp (Saved d) d := by
  refine wp_readOnly_bind readOnly_read fun _ => wp_readOnly_bind readOnly_require fun _ => ?_
  refine wp_readOnly_bind readOnly_ofExcept fun update => ?_
  refine wp_bind.mpr <| wp_selectForUpdate.mpr ?_
  cases hf : d.assets.find? assetId
  case none => trivial
  case some existing =>
    have hm : existing ∈ d.assets := (Table.find?_eq_some.mp hf).left
    refine wp_readOnly_bind fetchParameterValuesForAssetForUpdate_readOnly fun _ => ?_
    refine wp_bind.mpr <| wlp_validateCategory fun hc => ?_
    refine wp_readOnly_bind readOnly_ofExcept fun trackingMode => ?_
    refine wp_bind.mpr <| wp_exec.mpr ⟨fun d₁ ha => ⟨trivial, ?_⟩, fun _ _ => trivial⟩
    have hs := saved_of_applyAsset ha (.inr ⟨rfl, existing, hm, rfl, rfl⟩) hc ho
    refine hs.bind (wlp_keeps_stock convertInventoryQuantitiesToUnit_writes hs.owned) fun _ d₂ hs => ?_
    split
    case h_1 => exact hs.bind hs.parameters fun _ d₃ hs => hs
    case h_2 => exact hs

omit [TextFormats] [UnicodeSegmentation] in
theorem hasParameterValue_iff {asset : AssetRow} (ho : Owned d) (hm : asset ∈ d.assets) :
    hasParameterValue asset.laboratoryId asset.assetId p d ↔ (valueAt asset.assetId p d).isSome := by
  simp only [hasParameterValue, List.any_eq_true, decide_eq_true_eq, Option.isSome_iff_exists,
    valueAt_eq_some]
  constructor
  case mp =>
    rintro ⟨r, hr, _, ha, hp⟩
    exact ⟨_, r, hr, ha, hp, rfl⟩
  case mpr =>
    rintro ⟨_, r, hr, ha, hp, _⟩
    obtain ⟨owner, hm', hi, hl⟩ := ho r hr
    obtain rfl := Table.eq_of_key_eq hm' hm <| hi.trans ha
    exact ⟨r, hr, hl.symm, ha, hp⟩

-- The asset has a value for whatever its category requires.
def HasRequired (d : Database) (saved : Uuid × Uuid × Option Uuid) (d' : Database) : Prop :=
  ∀ categoryId ∈ saved.2.2, ∀ p, IsRequired categoryId p d → (valueAt saved.2.1 p d').isSome

omit [TextFormats] [UnicodeSegmentation] in
theorem Saved.isComplete_iff {saved : Uuid × Uuid × Option Uuid} (h : Saved d saved d')
    (ht : Trees.WellFormed d.assetCategories) :
    IsComplete d' saved.1 saved.2.1 saved.2.2 ↔ HasRequired d saved d' := by
  refine forall₂_congr fun categoryId hc => forall_congr' fun p => ?_
  obtain ⟨current, hm, rfl, hl⟩ := h.categorized categoryId hc
  obtain ⟨asset, ha, hi, hla, _⟩ := h.asset
  have hrequired : p ∈ requiredParameters saved.1 current.id d' ↔ IsRequired current.id p d := by
    rw [mem_requiredParameters_iff (h.assetCategories ▸ ht) (h.assetCategories ▸ hm) hl]
    unfold IsRequired
    rw [h.assetCategories, h.assetParameterAssignments]
  have hvalue := hasParameterValue_iff (p := p) h.owned ha
  rw [hi, hla] at hvalue
  rw [hrequired, hvalue]

omit [TextFormats] [UnicodeSegmentation] in
theorem run_validateRequiredParameters {c : Option Uuid} :
    (IsComplete d laboratoryId assetId c →
      (validateRequiredParameters laboratoryId assetId c).run d = .ok ((), d)) ∧
    (¬IsComplete d laboratoryId assetId c → (validateRequiredParameters laboratoryId assetId c).run d =
      .error (.validation "Missing required asset parameter value")) := by
  cases c
  case none => exact ⟨fun _ => rfl, fun h => absurd nofun h⟩
  case some c =>
    have hc : IsComplete d laboratoryId assetId (some c) ↔
        (requiredParameters laboratoryId c d).all (hasParameterValue laboratoryId assetId · d) := by
      simp [IsComplete]
    rw [hc]
    refine ⟨fun h => ?_, fun h => ?_⟩
    all_goals
      change (Program.require _ _).run d = _
      simp only [Program.require, h]
      rfl

section Invariant

variable [ScanOrder] {ctx : LaboratoryContext}

omit [TextFormats] [UnicodeSegmentation] in
theorem wlp_owned_deleteAsset (ho : Owned d) : (deleteAsset ctx assetId).wlp (fun _ => Owned) d := by
  refine wp_readOnly_bind readOnly_read fun _ => wp_readOnly_bind readOnly_require fun _ => ?_
  refine wp_readOnly_bind readOnly_selectForUpdate fun found => ?_
  cases found
  case none => trivial
  case some found =>
    refine wp_readOnly_bind readOnly_selectAllForUpdate fun items => ?_
    refine wp_readOnly_bind fetchParameterValuesForAssetForUpdate_readOnly fun _ => ?_
    have hw : (deleteAssetAttachments found.1.assetId (items.map (·.inventoryItemId))).Writes
        IsStockWrite :=
      Attachments.deleteAttachments_writes.mono fun _ => isStockWrite_of_isFileWrite
    refine wp_bind.mpr <| wp_mono (wlp_keeps_stock hw ho) fun _ d₁ hk => ?_
    refine wp_bind.mpr <| wp_exec.mpr ⟨fun d₂ ha => ⟨trivial, fun r hr => ?_⟩, fun _ _ => trivial⟩
    rw [(dependents_of_deleteAsset ha).right.left] at hr
    obtain ⟨hr, hne⟩ := Table.mem_filter.mp hr
    obtain ⟨owner, hm, hi, hl⟩ := hk.owned r hr
    have ht : d₁.assets.delete found.1.assetId = d₂.assets :=
      Except.ok.inj (Database.applied_of_apply ha).left
    refine ⟨owner, ht ▸ Table.mem_delete.mpr ⟨hm, ?_⟩, hi, hl⟩
    change owner.assetId ≠ _
    rw [hi]
    exact of_decide_eq_true hne

theorem wlp_owned_handle {request : Request} (ho : Owned d) :
    (request.handle ctx).wlp (fun _ => Owned) d := by
  cases request
  case create payload newIds =>
    change (createAsset ctx payload newIds).wlp _ d
    rw [createAsset_eq]
    refine wp_bind.mpr <| wp_mono (wlp_createUnchecked ho) fun saved d₁ h => ?_
    exact wp_mono (wp_readOnly validateRequiredParameters_readOnly) fun _ _ he => he ▸ h.owned
  case update assetId payload newIds =>
    change (updateAsset ctx assetId payload newIds).wlp _ d
    rw [updateAsset_eq]
    refine wp_bind.mpr <| wp_mono (wlp_updateUnchecked ho) fun saved d₁ h => ?_
    exact wp_mono (wp_readOnly validateRequiredParameters_readOnly) fun _ _ he => he ▸ h.owned
  case delete => exact wp_bind.mpr <| wp_mono (wlp_owned_deleteAsset ho) fun _ _ h => h

-- Neither requests for assets nor those for parameters take a value away from its asset.
theorem Owned.handle {request : Request} (ho : Owned d) : Owned ((request.handle ctx).after d) :=
  wp_after (wlp_owned_handle ho) ho

theorem Owned.handleParameter {request : AssetParameters.Request} (ho : Owned d) :
    Owned ((request.handle ctx).after d) := by
  refine AssetParameters.performs_handle.after (fun w d d' hw ho ha => ?_) ho
  have happ := Database.applied_of_apply ha
  cases w
  case assetParameterTypes w =>
    have hassets : d'.assets = d.assets := by rw [happ.right]
    have hvalues : ∀ r ∈ d'.assetParameterValues, r ∈ d.assetParameterValues := by
      cases w
      case delete =>
        obtain rfl := Except.pure_eq_ok.mp ha
        exact fun r hr => (Table.mem_filter.mp hr).left
      all_goals
        rw [(AssetParameters.dependents_of_applyType ha nofun).right]
        exact fun _ => id
    exact fun r hr => hassets ▸ ho r (hvalues r hr)
  case assetParameterOptions w =>
    rw [happ.right]
    exact ho
  case assetParameterValues w =>
    obtain ⟨_, _, hw | ⟨_, hw⟩⟩ := hw
    case inl => exact hw.elim
    case inr =>
      refine (keeps_value ho ha fun r hr => ?_).owned
      obtain rfl | rfl := hr
      case inl => exact hw.elim
      case inr =>
        obtain ⟨_, r₀, _, _, hm⟩ := hw
        rw [hm.row]
        exact ho r₀ hm.stored
  all_goals
    obtain ⟨_, _, hw | ⟨_, hw⟩⟩ := hw
    all_goals exact hw.elim

end Invariant

-- All other checks come first, and whatever is required is shown by the editor.
structure ChecksRequired (d : Database) (request : Transaction Unit)
    (unchecked : Transaction (Uuid × Uuid × Option Uuid)) : Prop where
  accepted : ∀ saved d', unchecked.run d = .ok (saved, d') →
    Saved d saved d' ∧ (request.run d = .ok ((), d') ↔ HasRequired d saved d')
  rejected : ∀ saved d', unchecked.run d = .ok (saved, d') → ¬HasRequired d saved d' →
    request.run d = .error (.validation "Missing required asset parameter value")
  failed : ∀ e, unchecked.run d = .error e → request.run d = .error e
  unchanged : ∀ e, request.run d = .error e → request.after d = d
  shown : ∀ saved d', unchecked.run d = .ok (saved, d') → ∀ categoryId ∈ saved.2.2, ∀ p,
    IsRequired categoryId p d →
      p ∈ AssetsPage.parameterIdsForCategory categoryId (listAssetCategories saved.1 d)

omit [TextFormats] [UnicodeSegmentation] in
theorem checksRequired_of_saved {request : Transaction Unit}
    {unchecked : Transaction (Uuid × Uuid × Option Uuid)} (hr : request = unchecked >>= checkRequired)
    (ht : Trees.WellFormed d.assetCategories) (hs : unchecked.wlp (Saved d) d) :
    ChecksRequired d request unchecked := by
  have hrun : request.run d = (unchecked.run d >>= fun (a, d') => (checkRequired a).run d') := by
    rw [hr, run_bind]
  refine ⟨fun saved d' hu => ?_, fun saved d' hu hn => ?_, fun e hu => ?_, fun _ => after_of_error,
    fun saved d' hu => ?_⟩
  case refine_1 =>
    have hs := wp_run hs hu
    have hrun : request.run d = (checkRequired saved).run d' := by rw [hrun, hu]; rfl
    refine ⟨hs, ?_⟩
    rw [hrun, ← hs.isComplete_iff ht]
    constructor
    case mp =>
      intro ho
      by_contra hn
      exact nomatch ho.symm.trans <| run_validateRequiredParameters.right hn
    case mpr => exact run_validateRequiredParameters.left
  case refine_2 =>
    have hs := wp_run hs hu
    rw [hrun, hu]
    exact run_validateRequiredParameters.right <| (hs.isComplete_iff ht).not.mpr hn
  case refine_3 =>
    rw [hrun, hu]
    rfl
  case refine_4 =>
    have hs := wp_run hs hu
    intro categoryId hc p hp
    obtain ⟨current, hm, rfl, hl⟩ := hs.categorized categoryId hc
    exact shown_of_required ht hm hl hp

theorem required_parameters_complete [ScanOrder] {ctx : LaboratoryContext}
    (ht : Trees.WellFormed d.assetCategories) (ho : Owned d) :
    (∀ payload newIds,
      ChecksRequired d (createAsset ctx payload newIds) (createUnchecked ctx payload newIds)) ∧
    ∀ assetId payload newIds, ChecksRequired d (updateAsset ctx assetId payload newIds)
      (updateUnchecked ctx assetId payload newIds) :=
  ⟨fun _ _ => checksRequired_of_saved createAsset_eq ht <| wlp_createUnchecked ho,
    fun _ _ _ => checksRequired_of_saved updateAsset_eq ht <| wlp_updateUnchecked ho⟩

end Checked

section Examples

-- The cable still has no bandwidth.
theorem required_parameters_complete_demanding :
    let _ := ScanOrder.stored
    let _ := tallied
    let _ := UnicodeSegmentation.characters
    (updateAsset admin cable.assetId (unitChange metre.unitId) fun _ => 0).run demanding =
      .error (.validation "Missing required asset parameter value") ∧
    5 ∈ AssetsPage.parameterIdsForCategory 9 (listAssetCategories 1 demanding) := by
  let _ := ScanOrder.stored
  let _ := tallied
  let _ := UnicodeSegmentation.characters
  have ht : Trees.WellFormed demanding.assetCategories := by
    have hl : demanding.assetCategories.rows.length = 1 := by decide +kernel
    have ha : demanding.assetCategories.rows.all fun r =>
      r.parentId = none ∧ r.path = [r.code.label] ∧ r.depth = 0 := by decide +kernel
    obtain ⟨r, hr⟩ := List.length_eq_one_iff.mp hl
    rw [hr] at ha
    exact .root hr <| by simpa using ha
  have ho : Owned demanding := by
    have hv : demanding.assetParameterValues.rows = [] := by decide +kernel
    intro r hr
    exact absurd (hv ▸ hr : r ∈ []) List.not_mem_nil
  have hrequired : IsRequired 9 5 demanding := by
    have ha : demanding.assetParameterAssignments.rows.any fun a =>
      a.isRequired ∧ a.parameterTypeId = 5 ∧ a.categoryId = some 9 := by decide +kernel
    obtain ⟨a, ha, he⟩ := List.any_eq_true.mp ha
    obtain ⟨hr, hp, hc⟩ := of_decide_eq_true he
    exact ⟨a, ha, hr, hp, 9, hc, .inl rfl⟩
  have hrun : ((updateUnchecked admin cable.assetId (unitChange metre.unitId) fun _ => 0).run
      demanding).toOption.any fun r =>
        r.1 = (1, 60, some 9) ∧ (valueAt 60 5 r.2).isNone := by decide +kernel
  have h : (∀ payload newIds, ChecksRequired demanding (createAsset admin payload newIds)
      (createUnchecked admin payload newIds)) ∧ _ := required_parameters_complete ht ho
  have hu := h.right cable.assetId (unitChange metre.unitId) fun _ => 0
  cases hr : (updateUnchecked admin cable.assetId (unitChange metre.unitId) fun _ => 0).run demanding
  case error =>
    rw [hr] at hrun
    exact nomatch hrun
  case ok result =>
    obtain ⟨saved, d'⟩ := result
    rw [hr] at hrun
    obtain ⟨rfl, hn⟩ := of_decide_eq_true hrun
    refine ⟨hu.rejected _ d' hr fun hc => ?_, hu.shown _ d' hr 9 rfl 5 hrequired⟩
    have hv := hc 9 rfl 5 hrequired
    exact nomatch (Option.isSome_iff_ne_none.mp hv <| Option.isNone_iff_eq_none.mp hn)

end Examples

end Assets

end LabInventory
