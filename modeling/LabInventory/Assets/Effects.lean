import Mathlib.Algebra.Order.Field.Basic
import LabInventory.Assets.Creation
import LabInventory.InventoryItems.Effects

open Sql Program

namespace LabInventory

open Text InventoryItems

theorem NewInventoryItem.sound_of_parse [UnicodeSegmentation] {mode serialNumber batchNumber}
    {quantityOnHand quantityAllocated locationId status publicNotes internalNotes}
    {item : NewInventoryItem}
    (h : parseForTrackingMode mode serialNumber batchNumber quantityOnHand quantityAllocated
      locationId status publicNotes internalNotes = .ok item) : item.Sound mode := by
  obtain ⟨_, _, h⟩ := Except.bind_eq_ok.mp h
  cases mode
  case serialized =>
    dsimp only at h
    split at h
    case isTrue => cases h
    case isFalse =>
      cases serialNumber
      case none => cases h
      case some =>
        obtain ⟨serialNumber, _, h⟩ := Except.bind_eq_ok.mp h
        exact Except.pure_eq_ok.mp h ▸ sound_serialized
  case quantity =>
    dsimp only at h
    split at h
    case isTrue => cases h
    case isFalse =>
      cases quantityOnHand
      case none => cases h
      case some => exact (sound_quantity h).left

namespace Assets

def Request.parameters : Request → List AssetParameterValueInput
  | create payload _ => (payload.parameters.getD []).map fun p => ⟨p.parameterTypeId, some p.value⟩
  | update _ payload _ => payload.parameters.getD []
  | delete _ => []

def Request.inventoryUnitId : Request → Option Uuid
  | create payload _ => some payload.inventoryUnitId
  | update _ payload _ => payload.inventoryUnitId
  | delete _ => none

def Categorized (d : Database) (laboratoryId : Uuid) (categoryId : Option Uuid) : Prop :=
  ∀ id ∈ categoryId, ∃ r ∈ d.assetCategories, r.id = id ∧ r.laboratoryId = laboratoryId

-- A value of the parameter `t`, as one of the inputs asks for it.
structure IsInput [TextFormats] (inputs : List AssetParameterValueInput) (t : AssetParameterTypeRow)
    (v : AssetParameterValue) : Prop where
  input : ∃ json, ⟨t.parameterTypeId, some json⟩ ∈ inputs ∧
    AssetParameterValue.parse t.dataType json = .ok v

-- The row that an input is resolved into.
structure IsResolved [TextFormats] (inputs : List AssetParameterValueInput) (d : Database)
    (r : AssetParameterValueRow) (t : AssetParameterTypeRow) (v : AssetParameterValue) : Prop
    extends IsInput inputs t v where
  type : t ∈ d.assetParameterTypes
  parameterTypeId : r.parameterTypeId = t.parameterTypeId
  dataType : r.dataType = t.dataType
  resolves : ParameterValues.Resolves t.definition d v r.columns
  laboratoryId : r.laboratoryId = t.laboratoryId ∨ ∃ r₀ ∈ d.assetParameterValues,
    r₀.parameterTypeId = r.parameterTypeId ∧ r₀.laboratoryId = r.laboratoryId

def IsValueWrite [TextFormats] (inputs : List AssetParameterValueInput) (d : Database) : Write → Prop
  | .assetParameterValues (.insert r) | .assetParameterValues (.update r) =>
    ∃ t v, IsResolved inputs d r t v
  | .assetParameterValues (.delete _) => True
  | _ => False

-- An asset only changes its tracking mode while it has no items.
structure Replaces (inventoryUnitId : Option Uuid) (d : Database) (r₀ r : AssetRow) : Prop where
  laboratoryId : r.laboratoryId = r₀.laboratoryId
  trackingMode : r.trackingMode = r₀.trackingMode ∨ ∀ i ∈ d.assetInventoryItems, i.assetId ≠ r.assetId
  categoryId : Categorized d r.laboratoryId r.categoryId
  inventoryUnitId : r.inventoryUnitId = r₀.inventoryUnitId ∨ some r.inventoryUnitId = inventoryUnitId

def IsRowWrite (inventoryUnitId : Option Uuid) (d : Database) : Write → Prop
  | .assets (.insert r) => Categorized d r.laboratoryId r.categoryId ∧
    some r.inventoryUnitId = inventoryUnitId
  | .assets (.update r) =>
    ∃ r₀, d.assets.find? r.assetId = some r₀ ∧ Replaces inventoryUnitId d r₀ r
  | .assets (.delete _) => True
  | _ => False

def IsRequestWrite [TextFormats] (request : Request) (d : Database) (w : Write) : Prop :=
  IsRowWrite request.inventoryUnitId d w ∨ IsValueWrite request.parameters d w ∨ IsItemWrite d w

variable [TextFormats] {inputs : List AssetParameterValueInput} {request : Request}
  {d d' : Database} {ctx : LaboratoryContext} {laboratoryId assetId categoryId : Uuid}

omit [TextFormats] in
theorem dependents_of_applyAsset {w : RowWrite AssetRow Uuid} (ha : d.apply (.assets w) = .ok d')
    (hw : ∀ k, w ≠ .delete k) : d'.assetInventoryItems = d.assetInventoryItems ∧
    d'.assetParameterValues = d.assetParameterValues ∧
    d'.assetParameterAssignments = d.assetParameterAssignments := by
  simp only [Database.apply, Database.writeAssets, Except.bind_eq_ok] at ha
  obtain ⟨_, _, ha⟩ := ha
  cases w
  case delete => exact absurd rfl (hw _)
  all_goals
    simp only [Except.bind_eq_ok, Except.pure_eq_ok] at ha
    obtain ⟨_, _, rfl⟩ := ha
    exact ⟨rfl, rfl, rfl⟩

omit [TextFormats] in
theorem dependents_of_deleteAsset (ha : d.apply (.assets (.delete assetId)) = .ok d') :
    d'.assetInventoryItems = d.assetInventoryItems.filter (·.assetId ≠ assetId) ∧
    d'.assetParameterValues = d.assetParameterValues.filter (·.assetId ≠ assetId) ∧
    d'.assetParameterAssignments = d.assetParameterAssignments.filter (·.assetId ≠ some assetId) := by
  simp only [Database.apply, Database.writeAssets, Except.bind_eq_ok, Except.pure_eq_ok] at ha
  obtain ⟨_, _, rfl⟩ := ha
  exact ⟨rfl, rfl, rfl⟩

omit [TextFormats] in
theorem closed_stocked_row {inventoryUnitId : Option Uuid} :
    Closed (IsRowWrite inventoryUnitId) (fun d => Stocked d.assets d) := by
  intro w d d' hw h ha
  have happ := Database.applied_of_apply ha
  cases w
  case assets w =>
    refine ⟨rfl, fun i hi => ?_⟩
    cases w
    case insert r =>
      have h := h.items i <| (dependents_of_applyAsset ha nofun).left ▸ hi
      obtain ⟨a, hf, ha⟩ := h.asset
      refine { h with asset := ⟨a, ?_, ha⟩ }
      have hn : r.assetId ≠ i.assetId := by
        intro he
        have hnone := Table.find?_of_insert happ.left
        simp [TableSchema.key, he, hf] at hnone
      exact (Table.find?_write_of_ne (w := .insert r) happ.left hn).trans hf
    case update r =>
      have hi' := (dependents_of_applyAsset ha nofun).left ▸ hi
      have h := h.items i hi'
      obtain ⟨r₀, hf₀, hrep⟩ := hw
      obtain ⟨a, hf, hl, ht⟩ := h.asset
      by_cases hk : r.assetId = i.assetId
      case pos =>
        obtain rfl := Option.some.inj <| hf₀.symm.trans (hk ▸ hf)
        have hself := Table.find?_update_self happ.left hf₀
        refine { h with asset := ⟨r, hk ▸ hself, hrep.laboratoryId.trans hl, ?_⟩ }
        exact (hrep.trackingMode.resolve_right fun hn => hn i hi' hk.symm).trans ht
      case neg =>
        exact { h with asset :=
          ⟨a, (Table.find?_write_of_ne (w := .update r) happ.left hk).trans hf, hl, ht⟩ }
    case delete k =>
      rw [(dependents_of_deleteAsset ha).left] at hi
      have ⟨hi, hk⟩ := Table.mem_filter.mp hi
      have h := h.items i hi
      obtain ⟨a, hf, ha⟩ := h.asset
      refine { h with asset := ⟨a, ?_, ha⟩ }
      have hk : k ≠ i.assetId := by
        rintro rfl
        simp at hk
      exact (Table.find?_write_of_ne (w := .delete k) happ.left hk).trans hf
  all_goals exact hw.elim

-- The rows that values are resolved by stay as they are.
structure Resolving (d₀ d : Database) : Prop where
  assets : d.assets = d₀.assets
  items : d.assetInventoryItems = d₀.assetInventoryItems
  units : d.units = d₀.units
  types : d.assetParameterTypes = d₀.assetParameterTypes
  options : d.assetParameterOptions = d₀.assetParameterOptions

theorem closed_resolving {d₀ : Database} : Closed (IsValueWrite inputs) (Resolving d₀) := by
  intro w d d' hw h ha
  have happ := Database.applied_of_apply ha
  cases w
  case assetParameterValues =>
    rw [happ.right]
    exact ⟨h.assets, h.items, h.units, h.types, h.options⟩
  all_goals exact hw.elim

-- The items stay sound, whatever happens to their assets.
theorem closed_stocked : Closed (IsRequestWrite request) (fun d => Stocked d.assets d) := by
  refine Closed.or closed_stocked_row <| Closed.or ?_ ?_
  case refine_1 =>
    intro w d d' hw h ha
    have hres := closed_resolving w d d' hw ⟨rfl, rfl, rfl, rfl, rfl⟩ ha
    exact ⟨rfl, hres.assets ▸ hres.items ▸ h.items⟩
  case refine_2 =>
    intro w d d' hw h ha
    have hs := (closed_surrounded w d d' hw (.refl h) ha).stocked
    exact hs.same ▸ hs

section Values

-- The definitions that have been fetched for the inputs.
def Defined (d : Database) (laboratoryId : Uuid) (inputs : List AssetParameterValueInput)
    (input : AssetParameterValueInput × Option ParameterValueDefinition) : Prop :=
  input.1 ∈ inputs ∧ ∀ definition ∈ input.2, ∃ t ∈ d.assetParameterTypes,
    t.parameterTypeId = input.1.parameterTypeId ∧ t.laboratoryId = laboratoryId ∧
    t.definition = definition

theorem performs_upsertAssetParameterValue {t : AssetParameterTypeRow} {v : AssetParameterValue}
    {newId : Uuid} {columns : ParameterValueColumns} (ht : t ∈ d.assetParameterTypes)
    (hl : t.laboratoryId = laboratoryId) (hi : IsInput inputs t v)
    (hr : ParameterValues.Resolves t.definition d v columns) :
    (upsertAssetParameterValue laboratoryId assetId newId
      ⟨t.parameterTypeId, t.dataType, columns⟩).performs (IsValueWrite inputs) (fun _ _ => True) d := by
  refine readOnly_read.performs_bind <| wp_read.mpr ?_
  split
  case h_1 =>
    exact performs_exec ⟨t, v, hi, ht, rfl, rfl, hr, .inl hl.symm⟩ fun _ _ => trivial
  case h_2 r₀ hf =>
    have hp : r₀.assetId = assetId ∧ r₀.parameterTypeId = t.parameterTypeId := by
      simpa using List.find?_some hf
    refine readOnly_selectForUpdate.performs_bind <| wp_selectForUpdate.mpr ?_
    have hr₀ : r₀ ∈ d.assetParameterValues := List.mem_of_find?_eq_some hf
    rw [show d.assetParameterValues.find? r₀.valueId = some r₀ from Table.find?_key hr₀]
    have hlab : ∃ r ∈ d.assetParameterValues, r.parameterTypeId = r₀.parameterTypeId ∧
        r.laboratoryId = r₀.laboratoryId := ⟨r₀, hr₀, rfl, rfl⟩
    exact performs_exec ⟨t, v, hi, ht, hp.right, rfl, hr, .inr hlab⟩ fun _ _ => trivial

theorem performs_applyAssetParameterUpdate {newId : Uuid} {input : AssetParameterValueInput}
    {definition : Option ParameterValueDefinition}
    (hd : Defined d laboratoryId inputs (input, definition)) :
    (applyAssetParameterUpdate laboratoryId assetId newId definition input).performs
      (IsValueWrite inputs) (fun _ _ => True) d := by
  obtain ⟨hin, hdef⟩ := hd
  unfold applyAssetParameterUpdate
  split
  case h_1 json hj =>
    cases definition
    case none => trivial
    case some definition =>
      obtain ⟨t, ht, hp, hl, rfl⟩ := hdef _ rfl
      refine ParameterValues.resolveParameterValue_readOnly.performs_bind <|
        ParameterValues.wlp_resolveParameterValue fun v columns hv hr => ?_
      refine performs_upsertAssetParameterValue ht hl ⟨json, ?_, hv⟩ hr
      exact hp ▸ hj ▸ hin
  case h_2 =>
    refine readOnly_read.performs_bind <| wp_read.mpr ?_
    split
    case h_1 => exact ⟨trivial, fun _ _ => trivial⟩
    case h_2 => trivial

theorem performs_applyParameterUpdates {allowDelete : Bool} {newIds : NewIds}
    {definitions : List (AssetParameterValueInput × Option ParameterValueDefinition)}
    (hd : ∀ input ∈ definitions, Defined d laboratoryId inputs input) :
    (applyParameterUpdates laboratoryId assetId allowDelete newIds definitions).performs
      (IsValueWrite inputs) (fun _ _ => True) d := by
  induction definitions generalizing d newIds
  case nil => trivial
  case cons input definitions ih =>
    refine readOnly_require.performs_bind_all fun _ => ?_
    refine performs_bind.mpr <| performs_mono (performs_and (performs_applyAssetParameterUpdate <|
      hd input (.head _)) closed_resolving ⟨rfl, rfl, rfl, rfl, rfl⟩) fun _ d₁ h₁ => ih ?_
    intro input hi
    simpa only [Defined, h₁.right.types] using hd input (.tail _ hi)

omit [TextFormats] in
theorem wlp_fetchParameterDefinition {parameterTypeId : Uuid} :
    (fetchParameterDefinition laboratoryId parameterTypeId).wlp (fun definition _ =>
      ∀ a ∈ definition, ∃ t ∈ d.assetParameterTypes, t.parameterTypeId = parameterTypeId ∧
        t.laboratoryId = laboratoryId ∧ t.definition = a) d := by
  refine wp_selectForUpdate.mpr fun a ha => ?_
  obtain ⟨t, hf, ht⟩ := Option.bind_eq_some_iff.mp ha
  have ⟨hm, hk⟩ := Table.find?_eq_some.mp hf
  split at ht
  case isTrue hl => exact ⟨t, hm, hk, hl, Option.some.inj ht⟩
  case isFalse => cases ht

omit [TextFormats] in
theorem wlp_fetchParameterDefinitions {rest : List AssetParameterValueInput}
    (hr : ∀ input ∈ rest, input ∈ inputs) :
    (fetchParameterDefinitions laboratoryId rest).wlp (fun definitions d' => d' = d ∧
      ∀ input ∈ definitions, Defined d laboratoryId inputs input) d := by
  induction rest
  case nil => exact ⟨rfl, nofun⟩
  case cons input rest ih =>
    have hread := wp_readOnly (I := fun _ => True) (d := d)
      (readOnly_selectForUpdate : (fetchParameterDefinition laboratoryId input.parameterTypeId).ReadOnly)
    refine wp_bind.mpr <| wp_mono (wp_and wlp_fetchParameterDefinition hread) fun definition d₁ h₁ => ?_
    obtain ⟨hdef, rfl⟩ := h₁
    refine wp_bind.mpr <| wp_mono (ih fun i hi => hr i (.tail _ hi)) fun definitions d₂ h₂ => ?_
    refine ⟨h₂.left, fun i hi => ?_⟩
    obtain rfl | hi := List.mem_cons.mp hi
    · exact ⟨hr input (.head _), hdef⟩
    · exact h₂.right i hi

theorem performs_applyAssetParameterUpdates {allowDelete : Bool} {newIds : NewIds} :
    (applyAssetParameterUpdates laboratoryId assetId inputs allowDelete newIds).performs
      (IsValueWrite inputs) (fun _ _ => True) d := by
  refine readOnly_require.performs_bind_all fun _ => ?_
  refine fetchParameterDefinitions_readOnly.performs_bind <|
    wp_mono (wlp_fetchParameterDefinitions fun _ => id) fun definitions d' h => ?_
  obtain ⟨rfl, h⟩ := h
  exact performs_applyParameterUpdates h

end Values

section Requests

variable {trackingMode : AssetTrackingMode}

theorem performs_values {α : Type} {p : Transaction α} {Q : α → Database → Prop}
    (h : p.performs (IsValueWrite request.parameters) Q d) :
    p.performs (IsRequestWrite request) Q d :=
  performs_imp h fun _ _ h => .inr <| .inl h

theorem performs_items {α : Type} {p : Transaction α} {Q : α → Database → Prop}
    (h : p.performs IsItemWrite Q d) : p.performs (IsRequestWrite request) Q d :=
  performs_imp h fun _ _ h => .inr <| .inr h

omit [TextFormats] in
theorem wp_validateCategory {categoryId : Option Uuid} {R : ApiError → Prop}
    {Q : Unit → Database → Prop} (hq : Categorized d laboratoryId categoryId → Q () d)
    (hr : ¬Categorized d laboratoryId categoryId → ∀ e, R e) :
    (validateCategory laboratoryId categoryId).wp (fun _ => True) R Q d := by
  cases categoryId
  case none => exact hq nofun
  case some id =>
    refine wp_bind.mpr <| wp_selectForUpdate.mpr <| wp_require.mpr ⟨fun hf => hq ?_, fun hn => ?_⟩
    case refine_1 =>
      rintro _ ⟨⟩
      obtain ⟨r, hf⟩ := Option.isSome_iff_exists.mp hf
      obtain ⟨hf, hl⟩ := Option.filter_eq_some_iff.mp hf
      obtain ⟨hm, hk⟩ := Table.find?_eq_some.mp hf
      exact ⟨r, hm, hk, of_decide_eq_true hl⟩
    case refine_2 =>
      refine hr (fun hc => hn ?_) _
      obtain ⟨r, hm, hk, hl⟩ := hc id rfl
      have hf : d.assetCategories.find? id = some r := Table.find?_eq_some.mpr ⟨hm, hk⟩
      simp [hf, hl]

omit [TextFormats] in
theorem wlp_validateCategory {categoryId : Option Uuid} {Q : Unit → Database → Prop}
    (hq : Categorized d laboratoryId categoryId → Q () d) :
    (validateCategory laboratoryId categoryId).wlp Q d :=
  wp_validateCategory hq fun _ _ => trivial

omit [TextFormats] in
theorem performs_insertAssetInventoryItem {newId : Uuid} {item : NewInventoryItem} {asset : AssetRow}
    (hf : d.assets.find? assetId = some asset) (hl : asset.laboratoryId = laboratoryId)
    (hm : asset.trackingMode = trackingMode) (hs : item.Sound trackingMode) :
    (insertAssetInventoryItem laboratoryId assetId newId trackingMode item).performs IsItemWrite
      (fun _ _ => True) d := by
  refine validateOptionalLocation_readOnly.performs_bind <| wlp_validateOptionalLocation fun hloc => ?_
  refine performs_exec ⟨?_, hloc⟩ fun _ _ => trivial
  exact accounted_of_sound hs hf hl hm rfl rfl rfl rfl rfl

omit [TextFormats] in
theorem performs_insertAssetInventoryItems {newIds : Nat → NewIds}
    {items : List NewInventoryItemInput} {asset : AssetRow} (hd : Stocked d.assets d)
    (hf : d.assets.find? assetId = some asset) (hl : asset.laboratoryId = laboratoryId)
    (hm : asset.trackingMode = trackingMode) (hs : ∀ input ∈ items, input.item.Sound trackingMode) :
    (insertAssetInventoryItems laboratoryId assetId trackingMode newIds items).performs IsItemWrite
      (fun _ _ => True) d := by
  induction items generalizing d newIds
  case nil => trivial
  case cons input items ih =>
    refine performs_bind_surrounded hd
      (performs_insertAssetInventoryItem hf hl hm <| hs input (.head _)) fun _ d₁ _ h₁ => ?_
    have hd₁ : Stocked d₁.assets d₁ := h₁.stocked.same ▸ h₁.stocked
    refine performs_bind_surrounded hd₁ (performs_fileWrites
      Attachments.assignUploadedAttachments_writes) fun _ d₂ _ h₂ => ?_
    refine ih (h₂.stocked.same ▸ h₂.stocked) ?_ fun i hi => hs i (.tail _ hi)
    rw [h₂.stocked.same, h₁.stocked.same, hf]

variable [UnicodeSegmentation]

omit [TextFormats] in
theorem CreateJsonData.toCreateAssetInput_eq_ok {payload : CreateJsonData} {input : CreateAssetInput}
    (h : payload.toCreateAssetInput = .ok input) :
    input.asset.inventoryUnitId = payload.inventoryUnitId ∧
    input.parameterValues =
      (payload.parameters.getD []).map (fun p => ⟨p.parameterTypeId, some p.value⟩) ∧
    ∀ i ∈ input.inventoryItems, i.item.Sound input.asset.trackingMode := by
  simp only [toCreateAssetInput, Except.bind_eq_ok, Except.pure_eq_ok] at h
  obtain ⟨asset, ha, items, hi, _, _, rfl⟩ := h
  simp only [toNewAsset, Except.bind_eq_ok, Except.pure_eq_ok] at ha
  obtain ⟨_, _, _, _, rfl⟩ := ha
  refine ⟨rfl, rfl, fun i hm => ?_⟩
  obtain ⟨_, _, hp⟩ := Except.exists_of_mem_mapM hi hm
  simp only [NewInventoryItemInput.parse, Except.bind_eq_ok, Except.pure_eq_ok] at hp
  obtain ⟨_, hp, rfl⟩ := hp
  exact NewInventoryItem.sound_of_parse hp

theorem performs_createAsset {payload : CreateJsonData} {newIds : NewGraphIds}
    (hd : Stocked d.assets d) :
    (createAsset ctx payload newIds).performs (IsRequestWrite (.create payload newIds))
      (fun _ _ => True) d := by
  refine readOnly_read.performs_bind_all fun _ => readOnly_require.performs_bind_all fun _ => ?_
  refine requirePermissions_readOnly.performs_bind_all fun _ => ?_
  refine readOnly_ofExcept.performs_bind <| Transaction.wp_validated.mpr ⟨?_, fun _ _ => trivial⟩
  intro input hi
  have ⟨hunit, hvalues, hitems⟩ := CreateJsonData.toCreateAssetInput_eq_ok hi
  refine validateCategory_readOnly.performs_bind <| wlp_validateCategory fun hc => ?_
  have hw : IsRequestWrite (.create payload newIds) d (.assets (.insert { input.asset with
      assetId := newIds.asset, laboratoryId := ctx.laboratoryId })) :=
    .inl ⟨hc, congrArg some hunit⟩
  refine performs_bind.mpr <| performs_exec hw fun d₁ ha => ?_
  have hd₁ : Stocked d₁.assets d₁ := closed_stocked _ _ _ hw hd ha
  have hf := Table.find?_insert_self (Database.applied_of_apply ha).left
  refine performs_bind.mpr <| performs_mono (performs_items <| performs_and (performs_fileWrites
    Attachments.assignUploadedAttachments_writes) closed_surrounded (.refl hd₁)) fun _ d₂ h₂ => ?_
  refine performs_bind.mpr <| performs_mono (performs_items <| performs_insertAssetInventoryItems
    (h₂.right.stocked.same ▸ h₂.right.stocked) (h₂.right.stocked.same ▸ hf) rfl rfl hitems) fun _ d₃ _ => ?_
  have hv : (applyAssetParameterUpdates ctx.laboratoryId newIds.asset input.parameterValues false
      newIds.parameterValues).performs (IsValueWrite (Request.create payload newIds).parameters)
      (fun _ _ => True) d₃ :=
    hvalues ▸ performs_applyAssetParameterUpdates
  exact performs_bind.mpr <| performs_mono (performs_values hv) fun _ _ _ =>
    validateRequiredParameters_readOnly.performs <| wlp_of_forall fun _ _ => trivial

variable [ScanOrder]

omit [TextFormats] [UnicodeSegmentation] in
theorem performs_rescaleInventoryQuantities {asset : AssetRow} {factor : ℚ} (hd : Stocked d.assets d)
    (hf : d.assets.find? assetId = some asset) (hm : asset.trackingMode = .quantity)
    (hp : 0 < factor) :
    (rescaleInventoryQuantities assetId factor).performs IsItemWrite (fun _ _ => True) d := by
  refine performs_mono (performs_forAll (fun _ d' => Surrounded d d') (.refl hd) fun r rs d₁ h₁ => ?_)
    fun _ _ _ => trivial
  refine readOnly_read.performs_bind <| wp_read.mpr ?_
  split
  case h_2 => exact h₁
  case h_1 r' hr' =>
    have ⟨hr', ha⟩ := Option.filter_eq_some_iff.mp hr'
    have hr := h₁.stocked.of_find? hr'
    have hmode : r'.trackingMode = .quantity := by
      obtain ⟨a, hfa, _, ht⟩ := hr.asset
      obtain rfl := Option.some.inj <| hf.symm.trans (of_decide_eq_true ha ▸ hfa)
      exact ht.symm.trans hm
    have hrev : Revises d₁ r' { r' with
        quantityOnHand := r'.quantityOnHand * factor
        quantityAllocated := r'.quantityAllocated * factor } := by
      refine ⟨rfl, rfl, rfl, .inl rfl, h₁.stocked.same ▸ hr.requantify hmode ?_ ?_⟩
      case refine_1 => exact mul_nonneg hr.allocated hp.le
      case refine_2 => exact mul_le_mul_of_nonneg_right hr.onHand hp.le
    have hw : IsItemWrite d₁ (.assetInventoryItems (.update { r' with
        quantityOnHand := r'.quantityOnHand * factor
        quantityAllocated := r'.quantityAllocated * factor })) :=
      ⟨r', Table.find?_key (Table.find?_eq_some.mp hr').left, hrev⟩
    exact performs_exec hw fun d₂ ha => closed_surrounded _ _ _ hw h₁ ha

omit [TextFormats] [UnicodeSegmentation] in
theorem performs_convertInventoryQuantitiesToUnit {asset : AssetRow} {sourceUnitId targetUnitId}
    (hd : Stocked d.assets d) (hf : d.assets.find? assetId = some asset)
    (hm : asset.trackingMode = trackingMode) :
    (convertInventoryQuantitiesToUnit assetId trackingMode sourceUnitId targetUnitId).performs
      IsItemWrite (fun _ _ => True) d := by
  unfold convertInventoryQuantitiesToUnit
  split
  case isTrue => trivial
  case isFalse =>
    refine fetchUnit_readOnly.performs_bind_all fun source => ?_
    refine fetchUnit_readOnly.performs_bind_all fun target => ?_
    refine readOnly_require.performs_bind_all fun _ => ?_
    cases trackingMode
    case serialized => trivial
    case quantity =>
      exact performs_rescaleInventoryQuantities hd hf hm <|
        div_pos source.scaleToBase.property target.scaleToBase.property

omit [TextFormats] [UnicodeSegmentation] in
theorem fetchParameterValuesForAssetForUpdate_readOnly :
    (fetchParameterValuesForAssetForUpdate assetId).ReadOnly :=
  readOnly_forAll fun _ => trivial

theorem performs_updateAsset {payload : UpdateJsonData} {newIds : NewIds}
    (hd : Stocked d.assets d) :
    (updateAsset ctx assetId payload newIds).performs (IsRequestWrite (.update assetId payload newIds))
      (fun _ _ => True) d := by
  refine readOnly_read.performs_bind_all fun _ => readOnly_require.performs_bind_all fun _ => ?_
  refine readOnly_ofExcept.performs_bind <| Transaction.wp_validated.mpr ⟨?_, fun _ _ => trivial⟩
  intro update hu
  refine readOnly_selectForUpdate.performs_bind <| wp_selectForUpdate.mpr ?_
  cases hf : d.assets.find? assetId
  case none => trivial
  case some existing =>
    refine fetchParameterValuesForAssetForUpdate_readOnly.performs_bind_all fun _ => ?_
    refine validateCategory_readOnly.performs_bind <| wlp_validateCategory fun hc => ?_
    refine readOnly_ofExcept.performs_bind <| Transaction.wp_validated.mpr ⟨?_, fun _ _ => trivial⟩
    intro trackingMode hm
    simp only [resolveTrackingMode, Except.bind_eq_ok, Except.check_eq_ok, Except.pure_eq_ok] at hm
    obtain ⟨_, hmode, rfl⟩ := hm
    let updated : AssetRow := { existing with
      categoryId := update.categoryId.resolve existing.categoryId
      trackingMode := update.trackingMode.getD existing.trackingMode
      name := update.name.getD existing.name
      model := update.model.resolve existing.model
      manufacturer := update.manufacturer.resolve existing.manufacturer
      inventoryUnitId := update.inventoryUnitId.getD existing.inventoryUnitId
      publicNotes := update.publicNotes.resolve existing.publicNotes
      internalNotes := update.internalNotes.resolve existing.internalNotes
    }
    have hk : d.assets.find? existing.assetId = some existing :=
      Table.find?_key (Table.find?_eq_some.mp hf).left
    have hrep : Replaces payload.inventoryUnitId d existing updated := by
      refine ⟨rfl, ?_, hc, ?_⟩
      case refine_1 =>
        by_cases he : updated.trackingMode = existing.trackingMode
        case pos => exact .inl he
        case neg =>
          have hnone := List.eq_nil_of_length_eq_zero <| Nat.eq_zero_of_not_pos fun hlt => hmode ⟨he, hlt⟩
          refine .inr fun i hi hia => List.filter_eq_nil_iff.mp hnone i hi ?_
          have hkey : existing.assetId = assetId := (Table.find?_eq_some.mp hf).right
          exact decide_eq_true <| hia.trans hkey
      case refine_2 =>
        have hunit : update.inventoryUnitId = payload.inventoryUnitId := by
          simp only [UpdateJsonData.toUpdateAsset, Except.bind_eq_ok, Except.pure_eq_ok] at hu
          obtain ⟨_, _, _, _, rfl⟩ := hu
          rfl
        change update.inventoryUnitId.getD existing.inventoryUnitId = _ ∨
          some (update.inventoryUnitId.getD existing.inventoryUnitId) = _
        rw [hunit]
        cases payload.inventoryUnitId
        case none => exact .inl rfl
        case some => exact .inr rfl
    have hw : IsRequestWrite (.update assetId payload newIds) d (.assets (.update updated)) :=
      .inl ⟨existing, hk, hrep⟩
    refine performs_bind.mpr <| performs_exec hw fun d₁ ha => ?_
    have hd₁ : Stocked d₁.assets d₁ := closed_stocked _ _ _ hw hd ha
    have hf₁ : d₁.assets.find? existing.assetId = some updated :=
      Table.find?_update_self (Database.applied_of_apply ha).left hk
    refine performs_bind.mpr <| performs_mono (performs_items <|
      performs_convertInventoryQuantitiesToUnit hd₁ hf₁ rfl) fun _ d₂ _ => ?_
    have hrequired : ∀ d₃ : Database, (validateRequiredParameters existing.laboratoryId existing.assetId
        (update.categoryId.resolve existing.categoryId)).performs
        (IsRequestWrite (.update assetId payload newIds)) (fun _ _ => True) d₃ :=
      fun _ => validateRequiredParameters_readOnly.performs <| wlp_of_forall fun _ _ => trivial
    split
    case h_2 => exact hrequired d₂
    case h_1 inputs hp =>
      have hv : (applyAssetParameterUpdates existing.laboratoryId existing.assetId inputs true
          newIds).performs
          (IsValueWrite (Request.update assetId payload newIds).parameters) (fun _ _ => True) d₂ := by
        rw [Request.parameters, hp]
        exact performs_applyAssetParameterUpdates
      exact performs_bind.mpr <| performs_mono (performs_values hv) fun _ d₃ _ => hrequired d₃

omit [UnicodeSegmentation] in
theorem performs_deleteAsset : (deleteAsset ctx assetId).performs
    (IsRequestWrite (.delete assetId)) (fun _ _ => True) d := by
  refine readOnly_read.performs_bind_all fun _ => readOnly_require.performs_bind_all fun _ => ?_
  refine readOnly_selectForUpdate.performs_bind_all fun found => ?_
  cases found
  case none => trivial
  case some found =>
    refine readOnly_selectAllForUpdate.performs_bind_all fun items => ?_
    refine fetchParameterValuesForAssetForUpdate_readOnly.performs_bind_all fun _ => ?_
    refine performs_bind.mpr <| performs_mono (performs_items <|
      performs_fileWrites Attachments.deleteAttachments_writes) fun _ d₁ _ => ?_
    exact performs_bind.mpr <| performs_exec (.inl trivial) fun _ _ => trivial

theorem performs_handle (hd : Stocked d.assets d) :
    (request.handle ctx).performs (IsRequestWrite request) (fun _ _ => True) d := by
  cases request
  case create => exact performs_createAsset hd
  case update => exact performs_updateAsset hd
  case delete => exact performs_bind.mpr <| performs_mono performs_deleteAsset fun _ _ _ => trivial

end Requests

end Assets

end LabInventory
