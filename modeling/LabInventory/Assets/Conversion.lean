import LabInventory.Assets.Effects
import LabInventory.Assets.UnitFilters
import LabInventory.InventoryItems.Updates
import LabInventory.Library.Frame
import LabInventory.Trees.Basic
import LabInventory.Users.Theorems

open Sql Program

namespace LabInventory

namespace Assets

open InventoryItems

variable {d d' : Database} {asset : AssetRow} {u v : UnitRow} {assetId : Uuid} {factor : ℚ}
  {r r' : InventoryItemRow}

def scaled (factor : ℚ) (r : InventoryItemRow) : InventoryItemRow :=
  { r with
    quantityOnHand := r.quantityOnHand * factor
    quantityAllocated := r.quantityAllocated * factor
  }

def rescaled (assetId : Uuid) (factor : ℚ) (r : InventoryItemRow) : InventoryItemRow :=
  if r.assetId = assetId ∧ r.trackingMode = .quantity then scaled factor r else r

theorem scaled_one : scaled 1 r = r := by
  simp [scaled]

theorem rescaled_one : rescaled assetId 1 r = r := by
  simp [rescaled, scaled_one]

theorem rescaled_rescaled {factor' : ℚ} :
    rescaled assetId factor' (rescaled assetId factor r) = rescaled assetId (factor * factor') r := by
  by_cases h : r.assetId = assetId ∧ r.trackingMode = .quantity
  case pos => simp [rescaled, scaled, h, mul_assoc]
  case neg => simp [rescaled, h]

-- No index covers the quantities.
theorem clash?_scaled {t : Table InventoryItemRow} (hr : r ∈ t) : t.clash? (scaled factor r) = none := by
  refine Table.clash?_eq_none.mpr fun r' hr' hk => ?_
  refine conflict?_eq_none.mpr fun ix hi hc => hk ?_
  have hc' : ix.Clash r r' := by
    obtain rfl | hi := List.mem_cons.mp hi
    case inl => exact hc
    case inr =>
      obtain rfl := List.mem_singleton.mp hi
      exact hc
  obtain rfl : r = r' := Table.eq_of_clash hi hr hr' hc'
  rfl

section Convert

variable [ScanOrder] {R : ApiError → Prop} {Q : Unit → Database → Prop} {mode : AssetTrackingMode}

theorem wp_rescaleInventoryQuantities :
    (rescaleInventoryQuantities assetId factor).wp (fun _ => True) R (fun _ d' =>
      d' = { d with assetInventoryItems := d'.assetInventoryItems } ∧
      ∀ k, d'.assetInventoryItems.find? k = (d.assetInventoryItems.find? k).bind fun r =>
        if decide (r.assetId = assetId) then some (scaled factor r) else some r) d := by
  refine wp_updateItems (p := fun _ r => decide (r.assetId = assetId)) (g := scaled factor)
    (ScanOrder.visit_perm _) (fun _ => rfl) (fun _ => rfl) fun r rs t h hc => ?_
  exact absurd (clash?_scaled (Table.find?_eq_some.mp h.next.left).left) hc

theorem wp_convertInventoryQuantitiesToUnit
    (hmode : ∀ r ∈ d.assetInventoryItems, r.assetId = assetId → r.trackingMode = mode)
    (hu : u ∈ d.units) (hv : v ∈ d.units)
    (hq : u.dimension = v.dimension → ∀ d',
      d' = { d with assetInventoryItems := d'.assetInventoryItems } →
      (∀ k, d'.assetInventoryItems.find? k = (d.assetInventoryItems.find? k).map
        (rescaled assetId (u.scaleToBase / v.scaleToBase))) → Q () d')
    (hr : u.dimension ≠ v.dimension → ∀ e, R e) :
    (convertInventoryQuantitiesToUnit assetId mode u.unitId v.unitId).wp (fun _ => True) R Q d := by
  -- Nothing happens to items that keep their quantities.
  have hkeep {factor : ℚ}
      (h : ∀ r ∈ d.assetInventoryItems, rescaled assetId factor r = r) (k : Uuid) :
      d.assetInventoryItems.find? k = (d.assetInventoryItems.find? k).map
        (rescaled assetId factor) := by
    cases hf : d.assetInventoryItems.find? k
    case none => rfl
    case some r => exact congrArg some (h r (Table.find?_eq_some.mp hf).left).symm
  unfold convertInventoryQuantitiesToUnit
  split
  case isTrue he =>
    obtain rfl : u = v := Table.eq_of_key_eq hu hv he
    refine hq rfl d rfl <| hkeep fun r _ => ?_
    rw [div_self u.scaleToBase.property.ne']
    exact rescaled_one
  case isFalse =>
    refine wp_bind.mpr <| wp_bind.mpr <| wp_selectForUpdate.mpr ?_
    rw [show d.units.find? u.unitId = some u from Table.find?_key hu]
    refine wp_bind.mpr <| wp_bind.mpr <| wp_selectForUpdate.mpr ?_
    rw [show d.units.find? v.unitId = some v from Table.find?_key hv]
    refine wp_bind.mpr <| wp_require.mpr ⟨fun hd => ?_, fun hd => hr hd _⟩
    cases mode
    case serialized =>
      refine hq hd d rfl <| hkeep fun r hm => if_neg fun h => ?_
      cases (hmode r hm h.left).symm.trans h.right
    case quantity =>
      refine wp_mono wp_rescaleInventoryQuantities fun _ d' h => hq hd d' h.left fun k => ?_
      rw [h.right]
      cases hf : d.assetInventoryItems.find? k
      case none => rfl
      case some r =>
        have hm := hmode r (Table.find?_eq_some.mp hf).left
        by_cases ha : r.assetId = assetId
        case pos => simp [rescaled, ha, hm ha]
        case neg => simp [rescaled, ha]

end Convert

section Parameters

variable {assets : Table AssetRow} {items : Table InventoryItemRow}

-- The values of parameters have nothing to do with what becomes of the asset and its items.
def withStock (assets : Table AssetRow) (items : Table InventoryItemRow) (d : Database) : Database :=
  { d with assets, assetInventoryItems := items }

theorem frames_fetchUnit {unitId : Uuid} :
    (ParameterValues.fetchUnit unitId).Frames (withStock assets items) := by
  refine Frames.bind (frames_selectForUpdate fun _ => rfl) fun unit => ?_
  cases unit <;> trivial

theorem frames_normalizeUnitValue {definition : ParameterValueDefinition} {unitId : Option Uuid}
    {value : ℚ} : (ParameterValues.normalizeUnitValue definition unitId value).Frames
      (withStock assets items) := by
  unfold ParameterValues.normalizeUnitValue
  split
  case h_1 =>
    refine frames_fetchUnit.bind fun unit => ?_
    split
    case h_1 => exact frames_require.bind fun _ => trivial
    case h_2 => trivial
  case h_2 => trivial

theorem frames_resolveColumns {definition : ParameterValueDefinition} {value : AssetParameterValue} :
    (ParameterValues.resolveColumns definition value).Frames (withStock assets items) := by
  cases value
  case text | boolean | date => trivial
  case number => exact frames_normalizeUnitValue.bind fun _ => trivial
  case range =>
    exact frames_normalizeUnitValue.bind fun _ => frames_normalizeUnitValue.bind fun _ => trivial
  case enum =>
    refine Frames.bind ?_ fun _ => trivial
    exact Frames.bind (frames_selectForUpdate fun _ => rfl) fun _ => frames_require

theorem frames_values {w : RowWrite AssetParameterValueRow Uuid} {err : Constraint → ApiError} :
    (exec (.assetParameterValues w) err : Transaction Unit).Frames (withStock assets items) := by
  refine frames_exec fun d => ?_
  cases w
  case delete => rfl
  all_goals
    simp only [apply, Database.apply, Database.writeAssetParameterValues, Except.map_bind]
    rfl

theorem frames_fetchParameterDefinitions {laboratoryId : Uuid}
    {inputs : List AssetParameterValueInput} :
    (fetchParameterDefinitions laboratoryId inputs).Frames (withStock assets items) := by
  induction inputs
  case nil => trivial
  case cons ih =>
    refine Frames.bind (frames_selectForUpdate fun _ => rfl) fun _ => ?_
    exact ih.bind fun _ => trivial

variable [TextFormats]

theorem frames_applyAssetParameterUpdate {laboratoryId assetId newId : Uuid}
    {definition : Option ParameterValueDefinition} {input : AssetParameterValueInput} :
    (applyAssetParameterUpdate laboratoryId assetId newId definition input).Frames
      (withStock assets items) := by
  unfold applyAssetParameterUpdate
  split
  case h_1 =>
    cases definition
    case none => trivial
    case some =>
      refine Frames.bind ?_ fun value => Frames.bind (frames_read fun _ => rfl) fun found => ?_
      case refine_1 =>
        exact frames_ofExcept.bind fun _ => frames_resolveColumns.bind fun _ => trivial
      case refine_2 =>
        cases found
        case none => exact frames_values
        case some =>
          refine Frames.bind (frames_selectForUpdate fun _ => rfl) fun r => ?_
          cases r
          case none => trivial
          case some => exact frames_values
  case h_2 =>
    refine Frames.bind (frames_read fun _ => rfl) fun found => ?_
    cases found
    case none => trivial
    case some => exact frames_lockRow.bind fun _ => frames_values

theorem frames_applyAssetParameterUpdates {laboratoryId assetId : Uuid}
    {inputs : List AssetParameterValueInput} {allowDelete : Bool} {newIds : NewIds} :
    (applyAssetParameterUpdates laboratoryId assetId inputs allowDelete newIds).Frames
      (withStock assets items) := by
  refine frames_require.bind fun _ => frames_fetchParameterDefinitions.bind fun definitions => ?_
  induction definitions generalizing newIds
  case nil => trivial
  case cons ih => exact frames_require.bind fun _ => frames_applyAssetParameterUpdate.bind fun _ => ih

end Parameters

def updatedRow (update : UpdateAsset) (existing : AssetRow) : AssetRow :=
  { existing with
    categoryId := update.categoryId.resolve existing.categoryId
    trackingMode := update.trackingMode.getD existing.trackingMode
    name := update.name.getD existing.name
    model := update.model.resolve existing.model
    manufacturer := update.manufacturer.resolve existing.manufacturer
    inventoryUnitId := update.inventoryUnitId.getD existing.inventoryUnitId
    publicNotes := update.publicNotes.resolve existing.publicNotes
    internalNotes := update.internalNotes.resolve existing.internalNotes
  }

-- The asset is replaced, and its quantities follow its unit.
structure Converted (d : Database) (asset : AssetRow) (u v : UnitRow) (d' : Database) : Prop where
  replaced : d.assets.update asset = .ok d'.assets
  items : ∀ k, d'.assetInventoryItems.find? k = (d.assetInventoryItems.find? k).map
    (rescaled asset.assetId (u.scaleToBase / v.scaleToBase))
  elsewhere : d' = { d with assets := d'.assets, assetInventoryItems := d'.assetInventoryItems }

def itemCount (d : Database) (assetId : Uuid) : Nat :=
  (d.assetInventoryItems.rows.filter (·.assetId = assetId)).length

-- What an update is checked for before the values of parameters are written.
structure Accepted (d : Database) (asset : AssetRow) (update : UpdateAsset) (u v : UnitRow) :
    Prop where
  category : Categorized d asset.laboratoryId (update.categoryId.resolve asset.categoryId)
  trackingMode : resolveTrackingMode update asset (itemCount d asset.assetId) =
    .ok (update.trackingMode.getD asset.trackingMode)
  name : d.assets.clash? (updatedRow update asset) = none
  dimension : u.dimension = v.dimension

theorem apply_updateAsset {r : AssetRow} (hv : (d.units.find? r.inventoryUnitId).isSome) :
    d.apply (.assets (.update r)) = .ok d' ↔
      d.assets.update r = .ok d'.assets ∧ d' = { d with assets := d'.assets } := by
  simp only [Database.apply, Database.writeAssets, Table.write, Except.bind_eq_ok,
    Except.check_eq_ok, Except.pure_eq_ok]
  constructor
  case mp =>
    rintro ⟨t, ht, _, _, rfl⟩
    exact ⟨ht, rfl⟩
  case mpr =>
    rintro ⟨ht, hd⟩
    exact ⟨_, ht, (), hv, hd.symm⟩

-- The tracking mode only changes as long as there are no items.
theorem trackingMode_of_resolve {update : UpdateAsset} {mode : AssetTrackingMode}
    (hmode : ∀ r ∈ d.assetInventoryItems, r.assetId = asset.assetId →
      r.trackingMode = asset.trackingMode)
    (hm : resolveTrackingMode update asset (itemCount d asset.assetId) = .ok mode) :
    ∀ r ∈ d.assetInventoryItems, r.assetId = asset.assetId → r.trackingMode = mode := by
  simp only [resolveTrackingMode, Except.bind_eq_ok, Except.check_eq_ok, Except.pure_eq_ok] at hm
  obtain ⟨_, hn, rfl⟩ := hm
  intro r hr ha
  by_contra hne
  refine hn ⟨fun he => hne <| (hmode r hr ha).trans he.symm, List.length_pos_of_mem (a := r) ?_⟩
  exact List.mem_filter.mpr ⟨hr, decide_eq_true ha⟩

-- The asset has a value for each parameter that its category asks for.
def IsComplete (d : Database) (laboratoryId assetId : Uuid) (categoryId : Option Uuid) : Prop :=
  ∀ c ∈ categoryId, ∀ p ∈ requiredParameters laboratoryId c d,
    hasParameterValue laboratoryId assetId p d

section Update

variable [TextFormats] [UnicodeSegmentation] [ScanOrder] {ctx : LaboratoryContext}
  {payload : UpdateJsonData} {update : UpdateAsset} {newIds : NewIds} {R : ApiError → Prop}
  {Q : Unit → Database → Prop}

-- What is left to be done once the quantities have been converted.
def finishUpdate (payload : UpdateJsonData) (newIds : NewIds) (existing : AssetRow)
    (categoryId : Option Uuid) : Transaction Unit := do
  match payload.parameters with
  | some inputs =>
    applyAssetParameterUpdates existing.laboratoryId existing.assetId inputs true newIds
  | none => pure ()
  validateRequiredParameters existing.laboratoryId existing.assetId categoryId

theorem wp_updateAsset (hx : asset ∈ d.assets)
    (hperm : validatePermission d ctx.authorizationActor .asset (.update asset.assetId))
    (hp : payload.toUpdateAsset = .ok update)
    (hmode : ∀ r ∈ d.assetInventoryItems, r.assetId = asset.assetId →
      r.trackingMode = asset.trackingMode)
    (hu : u ∈ d.units) (hv : v ∈ d.units) (hunit : u.unitId = asset.inventoryUnitId)
    (hunit' : v.unitId = update.inventoryUnitId.getD asset.inventoryUnitId)
    (hq : Accepted d asset update u v → ∀ d', Converted d (updatedRow update asset) u v d' →
      (finishUpdate payload newIds asset (update.categoryId.resolve asset.categoryId)).wp
        (fun _ => True) R Q d')
    (hr : ¬Accepted d asset update u v → ∀ e, R e) :
    (updateAsset ctx asset.assetId payload newIds).wp (fun _ => True) R Q d := by
  have hf : d.assets.find? asset.assetId = some asset := Table.find?_key hx
  refine wp_bind.mpr <| wp_read.mpr <| wp_bind.mpr <| wp_require.mpr ⟨fun _ => ?_, fun hn => (hn hperm).elim⟩
  refine wp_bind.mpr <| Transaction.wp_validated.mpr ⟨fun _ hp' => ?_, fun _ he => nomatch hp.symm.trans he⟩
  obtain rfl := Except.ok.inj <| hp.symm.trans hp'
  refine wp_bind.mpr <| wp_selectForUpdate.mpr ?_
  rw [hf]
  refine wp_bind.mpr <| wp_forAll_done.mpr ?_
  refine wp_bind.mpr <| wp_validateCategory (fun hc => ?_) fun hc => hr fun h => hc h.category
  refine wp_bind.mpr <| Transaction.wp_validated.mpr ⟨fun mode hm => ?_, fun _ he => hr (fun h => ?_) _⟩
  case refine_2 => exact nomatch h.trackingMode.symm.trans he
  case refine_1 =>
    obtain rfl : mode = update.trackingMode.getD asset.trackingMode := by
      simp only [resolveTrackingMode, Except.bind_eq_ok, Except.pure_eq_ok] at hm
      obtain ⟨_, _, rfl⟩ := hm
      rfl
    have hv' : (d.units.find? (updatedRow update asset).inventoryUnitId).isSome :=
      Option.isSome_iff_exists.mpr ⟨v, Table.find?_eq_some.mpr ⟨hv, hunit'⟩⟩
    refine wp_bind.mpr <| wp_exec.mpr ⟨fun d₁ ha => ⟨trivial, ?_⟩, fun c ha => hr (fun h => ?_) _⟩
    case refine_2 =>
      obtain ⟨t, ht⟩ := Table.exists_update h.name
      have ha' : d.apply (.assets (.update (updatedRow update asset))) = .ok { d with assets := t } :=
        (apply_updateAsset hv').mpr ⟨ht, rfl⟩
      exact nomatch ha'.symm.trans ha
    case refine_1 =>
      obtain ⟨ht, hd₁⟩ := (apply_updateAsset hv').mp ha
      have hname := (Table.update_eq_ok.mp ht).left
      have hitems : d₁.assetInventoryItems = d.assetInventoryItems := by rw [hd₁]
      have hunits : d₁.units = d.units := by rw [hd₁]
      have hmode₁ : ∀ r ∈ d₁.assetInventoryItems, r.assetId = asset.assetId →
          r.trackingMode = update.trackingMode.getD asset.trackingMode :=
        fun r hr ha => trackingMode_of_resolve hmode hm r (hitems ▸ hr) ha
      have hconvert : (convertInventoryQuantitiesToUnit asset.assetId
          (update.trackingMode.getD asset.trackingMode) u.unitId v.unitId).wp (fun _ => True) R
          (fun _ d₂ => (finishUpdate payload newIds asset
            (update.categoryId.resolve asset.categoryId)).wp (fun _ => True) R Q d₂) d₁ := by
        refine wp_convertInventoryQuantitiesToUnit hmode₁ (hunits ▸ hu) (hunits ▸ hv)
          (fun hdim d₂ hd₂ hf₂ => hq ⟨hc, hm, hname, hdim⟩ d₂ ?_) fun hdim => hr fun h => hdim h.dimension
        have hassets : d₂.assets = d₁.assets := by rw [hd₂]
        refine ⟨hassets ▸ ht, hitems ▸ hf₂, ?_⟩
        rw [hd₂, hd₁]
      rw [hunit, hunit'] at hconvert
      exact wp_bind.mpr hconvert

omit [TextFormats] [UnicodeSegmentation] [ScanOrder] in
theorem wp_validateRequiredParameters {laboratoryId assetId : Uuid} {categoryId : Option Uuid}
    (hq : IsComplete d laboratoryId assetId categoryId → Q () d)
    (hr : ¬IsComplete d laboratoryId assetId categoryId → ∀ e, R e) :
    (validateRequiredParameters laboratoryId assetId categoryId).wp (fun _ => True) R Q d := by
  cases categoryId
  case none => exact hq nofun
  case some c =>
    refine wp_bind.mpr <| wp_read.mpr <| wp_bind.mpr <| wp_read.mpr <| wp_require.mpr
      ⟨fun h => hq ?_, fun hn => hr (fun h => hn ?_) _⟩
    case refine_1 =>
      rintro _ ⟨⟩ p hp
      exact List.all_eq_true.mp h p hp
    case refine_2 => exact List.all_eq_true.mpr fun p hp => h c rfl p hp

-- Only the unit of the asset is changed.
def unitChange (unitId : Uuid) : UpdateJsonData where
  categoryId := none
  trackingMode := none
  name := none
  model := none
  manufacturer := none
  inventoryUnitId := some unitId
  publicNotes := none
  internalNotes := none
  parameters := none

def changedUnit (unitId : Uuid) : UpdateAsset where
  categoryId := .unchanged
  trackingMode := none
  name := none
  model := .unchanged
  manufacturer := .unchanged
  inventoryUnitId := some unitId
  publicNotes := .unchanged
  internalNotes := .unchanged

-- Somebody may give the asset another unit.
structure Changeable (d : Database) (ctx : LaboratoryContext) (asset : AssetRow) (u v : UnitRow) :
    Prop where
  stored : asset ∈ d.assets
  permitted : validatePermission d ctx.authorizationActor .asset (.update asset.assetId)
  category : Categorized d asset.laboratoryId asset.categoryId
  items : ∀ r ∈ d.assetInventoryItems, r.assetId = asset.assetId →
    r.trackingMode = asset.trackingMode
  source : u ∈ d.units
  target : v ∈ d.units
  unitId : u.unitId = asset.inventoryUnitId

omit [TextFormats] [ScanOrder] in
theorem toUpdateAsset_unitChange {unitId : Uuid} :
    (unitChange unitId).toUpdateAsset = .ok (changedUnit unitId) :=
  rfl

omit [TextFormats] [UnicodeSegmentation] [ScanOrder] in
theorem Changeable.accepted (h : Changeable d ctx asset u v) (hd : u.dimension = v.dimension) :
    Accepted d asset (changedUnit v.unitId) u v where
  category := h.category
  trackingMode := by simp [resolveTrackingMode, changedUnit]
  name := by
    refine Table.clash?_eq_none.mpr fun r hr hk => conflict?_eq_none.mpr fun ix hi hc => hk ?_
    have hc' : ix.Clash asset r := by
      obtain rfl := List.mem_singleton.mp hi
      exact hc
    obtain rfl : asset = r := Table.eq_of_clash hi h.stored hr hc'
    rfl
  dimension := hd

theorem wp_unitChange (h : Changeable d ctx asset u v) :
    (updateAsset ctx asset.assetId (unitChange v.unitId) newIds).wp (fun _ => True)
      (fun _ => ¬(u.dimension = v.dimension ∧
        IsComplete d asset.laboratoryId asset.assetId asset.categoryId))
      (fun _ d' => (u.dimension = v.dimension ∧
        IsComplete d asset.laboratoryId asset.assetId asset.categoryId) ∧
        Converted d { asset with inventoryUnitId := v.unitId } u v d') d := by
  refine wp_updateAsset h.stored h.permitted toUpdateAsset_unitChange h.items h.source h.target
    h.unitId rfl (fun ha d' hd' => ?_) fun hn _ hc => hn (h.accepted hc.left)
  have hcomplete : IsComplete d' asset.laboratoryId asset.assetId asset.categoryId ↔
      IsComplete d asset.laboratoryId asset.assetId asset.categoryId := by
    rw [hd'.elsewhere]
    rfl
  exact wp_validateRequiredParameters (fun hc => ⟨⟨ha.dimension, hcomplete.mp hc⟩, hd'⟩)
    fun hc _ hn => hc <| hcomplete.mpr hn.right

section Back

variable {update : UpdateAsset}

omit [TextFormats] [UnicodeSegmentation] [ScanOrder]

theorem Converted.mem_items (h : Converted d asset u v d') : r' ∈ d'.assetInventoryItems ↔
    ∃ r ∈ d.assetInventoryItems, r' = rescaled asset.assetId (u.scaleToBase / v.scaleToBase) r := by
  have hkey {r : InventoryItemRow} {factor : ℚ} :
      (rescaled asset.assetId factor r).inventoryItemId = r.inventoryItemId := by
    unfold rescaled
    split_ifs <;> rfl
  constructor
  case mp =>
    intro hr
    obtain ⟨r, hf, he⟩ := Option.map_eq_some_iff.mp <| (h.items _).symm.trans (Table.find?_key hr)
    exact ⟨r, (Table.find?_eq_some.mp hf).left, he.symm⟩
  case mpr =>
    rintro ⟨r, hr, rfl⟩
    have hf : d.assetInventoryItems.find? r.inventoryItemId = some r := Table.find?_key hr
    have hf' := (h.items r.inventoryItemId).trans (congrArg _ hf)
    exact (Table.find?_eq_some.mp hf').left

theorem Converted.find?_assets (h : Converted d asset u v d') (hk : ∃ r ∈ d.assets, r.assetId = asset.assetId)
    (k : Uuid) : d'.assets.find? k = if asset.assetId = k then some asset else d.assets.find? k := by
  obtain ⟨r, hr, he⟩ := hk
  have hf : d.assets.find? asset.assetId = some r := Table.find?_eq_some.mpr ⟨hr, he⟩
  rw [Table.find?_update h.replaced]
  by_cases hk : asset.assetId = k
  case pos =>
    subst hk
    exact (if_pos rfl).trans <| (congrArg (Option.map _) hf).trans (if_pos rfl).symm
  case neg => exact (if_neg hk).trans (if_neg hk).symm

theorem Changeable.back (h : Changeable d ctx asset u v)
    (hc : Converted d { asset with inventoryUnitId := v.unitId } u v d') :
    Changeable d' ctx { asset with inventoryUnitId := v.unitId } v u := by
  have hf := hc.find?_assets ⟨asset, h.stored, rfl⟩ asset.assetId
  rw [if_pos rfl] at hf
  have hunits : d'.units = d.units := by rw [hc.elsewhere]
  have hcategories : d'.assetCategories = d.assetCategories := by rw [hc.elsewhere]
  constructor
  case stored => exact (Table.find?_eq_some.mp hf).left
  case permitted =>
    have hp := h.permitted
    simp only [validatePermission, Actor.canManageAsset] at hp ⊢
    have hf₀ : d.assets.find? asset.assetId = some asset := Table.find?_key h.stored
    rw [hf₀] at hp
    rw [hf]
    exact hp
  case category =>
    intro id hid
    obtain ⟨c, hm, he⟩ := h.category id hid
    exact ⟨c, hcategories ▸ hm, he⟩
  case items =>
    intro r' hr' ha
    obtain ⟨r, hr, rfl⟩ := hc.mem_items.mp hr'
    have hrow := h.items r hr
    unfold rescaled at ha ⊢
    split_ifs at ha ⊢ <;> exact hrow ha
  case source => exact hunits ▸ h.target
  case target => exact hunits ▸ h.source
  case unitId => rfl

-- Each quantity is the same physical amount as before.
theorem Converted.amounts (hc : Converted d asset u v d') (hr : r ∈ d.assetInventoryItems)
    (ha : r.assetId = asset.assetId) (hm : r.trackingMode = .quantity) :
    ∃ r' ∈ d'.assetInventoryItems, r'.inventoryItemId = r.inventoryItemId ∧
      r'.quantityOnHand * v.scaleToBase = r.quantityOnHand * u.scaleToBase ∧
      r'.quantityAllocated * v.scaleToBase = r.quantityAllocated * u.scaleToBase ∧
      (0 ≤ r.quantityAllocated → 0 ≤ r'.quantityAllocated) ∧
      (r.quantityAllocated ≤ r.quantityOnHand → r'.quantityAllocated ≤ r'.quantityOnHand) := by
  have hv := v.scaleToBase.property
  have hfactor : 0 < (u.scaleToBase : ℚ) / v.scaleToBase := div_pos u.scaleToBase.property hv
  have hback (q : ℚ) : q * (u.scaleToBase / v.scaleToBase) * v.scaleToBase = q * u.scaleToBase := by
    rw [mul_assoc, div_mul_cancel₀ _ hv.ne']
  refine ⟨_, hc.mem_items.mpr ⟨r, hr, rfl⟩, ?_⟩
  rw [rescaled, if_pos ⟨ha, hm⟩]
  refine ⟨rfl, hback _, hback _, fun h => mul_nonneg h hfactor.le, fun h => ?_⟩
  exact mul_le_mul_of_nonneg_right h hfactor.le

-- There and back again.
theorem Converted.restored (h : Changeable d ctx asset u v)
    (hc : Converted d { asset with inventoryUnitId := v.unitId } u v d') {d'' : Database}
    (hb : Converted d' { asset with inventoryUnitId := u.unitId } v u d'') :
    (∀ k, d''.assetInventoryItems.find? k = d.assetInventoryItems.find? k) ∧
    ∀ k, d''.assets.find? k = d.assets.find? k := by
  constructor
  case left =>
    intro k
    have hone : (u.scaleToBase : ℚ) / v.scaleToBase * (v.scaleToBase / u.scaleToBase) = 1 := by
      have hu := u.scaleToBase.property.ne'
      have hv := v.scaleToBase.property.ne'
      rw [div_mul_div_comm, mul_comm (v.scaleToBase : ℚ), div_self (mul_ne_zero hu hv)]
    rw [hb.items, hc.items, Option.map_map]
    refine (congrArg (Option.map · _) ?_).trans (congrFun Option.map_id _)
    funext r
    exact rescaled_rescaled.trans <| hone ▸ rescaled_one
  case right =>
    intro k
    have hm := (h.back hc).stored
    rw [hb.find?_assets ⟨_, hm, rfl⟩, hc.find?_assets ⟨asset, h.stored, rfl⟩]
    by_cases hk : asset.assetId = k
    case pos =>
      subst hk
      rw [if_pos rfl]
      have hf : d.assets.find? asset.assetId = some asset := Table.find?_key h.stored
      rw [hf, h.unitId]
    case neg => rw [if_neg hk, if_neg hk]

end Back

-- What is asked for besides cannot be had.
inductive Rejected (d : Database) (asset : AssetRow) (u v : UnitRow) (payload : UpdateJsonData)
    (update : UpdateAsset) (newIds : NewIds) : Prop
  | dimension (h : u.dimension ≠ v.dimension)
  | category (h : ¬Categorized d asset.laboratoryId (update.categoryId.resolve asset.categoryId))
  | trackingMode (e : String)
    (h : resolveTrackingMode update asset (itemCount d asset.assetId) = .error e)
  | parameters (inputs : List AssetParameterValueInput) (e : ApiError)
    (hp : payload.parameters = some inputs)
    (h : (applyAssetParameterUpdates asset.laboratoryId asset.assetId inputs true newIds).run d =
      .error e)

theorem not_rejected_of_run (h : Changeable d ctx asset u v) (hp : payload.toUpdateAsset = .ok update)
    (hv : update.inventoryUnitId = some v.unitId) :
    (updateAsset ctx asset.assetId payload newIds).wlp
      (fun _ _ => ¬Rejected d asset u v payload update newIds) d := by
  refine wp_updateAsset h.stored h.permitted hp h.items h.source h.target h.unitId (by simp [hv])
    (fun ha d₁ hd₁ => ?_) fun _ _ => trivial
  by_cases hn : Rejected d asset u v payload update newIds
  case neg => exact wlp_of_forall fun _ _ => hn
  case pos =>
    cases hn
    case dimension h => exact absurd ha.dimension h
    case category h => exact absurd ha.category h
    case trackingMode e h => exact nomatch ha.trackingMode.symm.trans h
    case parameters inputs e hi he =>
      -- The values are written to a database with other items, but that does not matter.
      have hrun : (applyAssetParameterUpdates asset.laboratoryId asset.assetId inputs true newIds).run
          d₁ = .error e := by
        have hframe : (applyAssetParameterUpdates asset.laboratoryId asset.assetId inputs true
            newIds).Frames (withStock d₁.assets d₁.assetInventoryItems) := frames_applyAssetParameterUpdates
        have hr := hframe.run d
        rw [he] at hr
        rw [hd₁.elsewhere]
        exact hr
      rw [finishUpdate, hi]
      refine wp_bind.mpr <| wp_iff_run.mpr ⟨fun _ _ => trivial, fun _ _ ho => ?_, fun _ _ => trivial⟩
      exact nomatch hrun.symm.trans ho

omit [UnicodeSegmentation] [ScanOrder] in
theorem frames_finishUpdate {assets : Table AssetRow} {items : Table InventoryItemRow}
    {existing : AssetRow} {categoryId : Option Uuid} :
    (finishUpdate payload newIds existing categoryId).Frames (withStock assets items) := by
  have hrequired : (validateRequiredParameters existing.laboratoryId existing.assetId
      categoryId).Frames (withStock assets items) := by
    cases categoryId
    case none => trivial
    case some =>
      refine Frames.bind (frames_read fun _ => rfl) fun _ => ?_
      exact Frames.bind (frames_read fun _ => rfl) fun _ => frames_require
  unfold finishUpdate
  cases payload.parameters
  case none => exact hrequired
  case some => exact frames_applyAssetParameterUpdates.bind fun _ => hrequired

-- Whatever else is updated, the quantities follow the unit.
theorem rescaled_of_run (h : Changeable d ctx asset u v) (hp : payload.toUpdateAsset = .ok update)
    (hv : update.inventoryUnitId = some v.unitId) :
    (updateAsset ctx asset.assetId payload newIds).wlp (fun _ d' =>
      ∀ k, d'.assetInventoryItems.find? k = (d.assetInventoryItems.find? k).map
        (rescaled asset.assetId (u.scaleToBase / v.scaleToBase))) d := by
  refine wp_updateAsset h.stored h.permitted hp h.items h.source h.target h.unitId (by simp [hv])
    (fun _ d₁ hd₁ => ?_) fun _ _ => trivial
  refine wp_iff_run.mpr ⟨fun _ _ => trivial, fun _ d₂ hr => ?_, fun _ _ => trivial⟩
  have hframe : (finishUpdate payload newIds asset
      (update.categoryId.resolve asset.categoryId)).Frames
      (withStock d₁.assets d₁.assetInventoryItems) := frames_finishUpdate
  have hfix : withStock d₁.assets d₁.assetInventoryItems d₂ = d₂ := hframe.fixed rfl hr
  rw [← hfix]
  exact hd₁.items

theorem restored_of_changes (h : Changeable d ctx asset u v) (hd : u.dimension = v.dimension)
    (hc : IsComplete d asset.laboratoryId asset.assetId asset.categoryId) {newIds' : NewIds} :
    ∃ d' d'', (updateAsset ctx asset.assetId (unitChange v.unitId) newIds).run d = .ok ((), d') ∧
      (updateAsset ctx asset.assetId (unitChange u.unitId) newIds').run d' = .ok ((), d'') ∧
      (∀ k, d''.assetInventoryItems.find? k = d.assetInventoryItems.find? k) ∧
      ∀ k, d''.assets.find? k = d.assets.find? k := by
  have hthere : (updateAsset ctx asset.assetId (unitChange v.unitId) newIds).Settles _ _ d :=
    settles_of_wp <| wp_unitChange h
  obtain ⟨d', hr, hd'⟩ := hthere.succeeds ⟨hd, hc⟩
  have hc' : IsComplete d' asset.laboratoryId asset.assetId asset.categoryId := by
    rw [hd'.elsewhere]
    exact hc
  let changed : AssetRow := { asset with inventoryUnitId := v.unitId }
  have hback : (updateAsset ctx changed.assetId (unitChange u.unitId) newIds').Settles
      (v.dimension = u.dimension ∧
        IsComplete d' changed.laboratoryId changed.assetId changed.categoryId)
      (Converted d' { changed with inventoryUnitId := u.unitId } v u) d' :=
    settles_of_wp <| wp_unitChange (h.back hd')
  obtain ⟨d'', hr', hd''⟩ := hback.succeeds ⟨hd.symm, hc'⟩
  exact ⟨d', d'', hr, hr', hd'.restored h hd''⟩

theorem unit_change_preserves_stock (h : Changeable d ctx asset u v) :
    (updateAsset ctx asset.assetId (unitChange v.unitId) newIds).Settles
      (u.dimension = v.dimension ∧
        IsComplete d asset.laboratoryId asset.assetId asset.categoryId)
      (Converted d { asset with inventoryUnitId := v.unitId } u v) d ∧
    (∀ d', Converted d { asset with inventoryUnitId := v.unitId } u v d' →
      ∀ r ∈ d.assetInventoryItems, r.assetId = asset.assetId → r.trackingMode = .quantity →
      ∃ r' ∈ d'.assetInventoryItems, r'.inventoryItemId = r.inventoryItemId ∧
        r'.quantityOnHand * v.scaleToBase = r.quantityOnHand * u.scaleToBase ∧
        r'.quantityAllocated * v.scaleToBase = r.quantityAllocated * u.scaleToBase ∧
        (0 ≤ r.quantityAllocated → 0 ≤ r'.quantityAllocated) ∧
        (r.quantityAllocated ≤ r.quantityOnHand → r'.quantityAllocated ≤ r'.quantityOnHand)) ∧
    (u.dimension = v.dimension → IsComplete d asset.laboratoryId asset.assetId asset.categoryId →
      ∃ d' d'', (updateAsset ctx asset.assetId (unitChange v.unitId) newIds).run d = .ok ((), d') ∧
        (updateAsset ctx asset.assetId (unitChange u.unitId) newIds).run d' = .ok ((), d'') ∧
        (∀ k, d''.assetInventoryItems.find? k = d.assetInventoryItems.find? k) ∧
        ∀ k, d''.assets.find? k = d.assets.find? k) ∧
    ∀ payload update, payload.toUpdateAsset = .ok update →
      update.inventoryUnitId = some v.unitId →
      (∀ d', (updateAsset ctx asset.assetId payload newIds).run d = .ok ((), d') →
        ∀ k, d'.assetInventoryItems.find? k = (d.assetInventoryItems.find? k).map
          (rescaled asset.assetId (u.scaleToBase / v.scaleToBase))) ∧
      (Rejected d asset u v payload update newIds →
        (∃ e, (updateAsset ctx asset.assetId payload newIds).run d = .error e) ∧
          (updateAsset ctx asset.assetId payload newIds).after d = d) := by
  refine ⟨settles_of_wp <| wp_unitChange h, fun _ hc r hr => hc.amounts hr, ?_, ?_⟩
  case refine_1 => exact fun hd hc => restored_of_changes h hd hc
  case refine_2 =>
    intro payload update hp hv
    refine ⟨fun d' hr => ?_, fun hn => ?_⟩
    case refine_1 =>
      have hw : (updateAsset ctx asset.assetId payload newIds).wlp (fun _ d' =>
          ∀ k, d'.assetInventoryItems.find? k = (d.assetInventoryItems.find? k).map
            (rescaled asset.assetId (u.scaleToBase / v.scaleToBase))) d := rescaled_of_run h hp hv
      exact (wp_iff_run.mp hw).right.left () d' hr
    case refine_2 =>
      have hw : (updateAsset ctx asset.assetId payload newIds).wlp
          (fun _ _ => ¬Rejected d asset u v payload update newIds) d := not_rejected_of_run h hp hv
      cases hr : (updateAsset ctx asset.assetId payload newIds).run d
      case ok r => exact absurd hn <| (wp_iff_run.mp hw).right.left r.1 r.2 hr
      case error e => exact ⟨⟨e, rfl⟩, after_of_error hr⟩

end Update

section Examples

def admin : LaboratoryContext := ⟨⟨2, .labAdmin, some 1⟩, 1⟩

def centimetre : UnitRow where
  unitId := 4
  laboratoryId := 1
  code := "cm"
  name := "Centimetre"
  symbol := "cm"
  dimension := "length"
  scaleToBase := ⟨1 / 100, by norm_num⟩
  allowDecimal := true

def metre : UnitRow where
  unitId := 6
  laboratoryId := 1
  code := "m"
  name := "Metre"
  symbol := "m"
  dimension := "length"
  scaleToBase := ⟨1, one_pos⟩
  allowDecimal := true

def workshop : Database where
  __ := Users.office
  units := {
    rows := [centimetre, metre]
    keyed := by decide
    indexed := by decide
  }
  assetParameterTypes := {bandwidth}

def cable : AssetRow where
  assetId := 60
  laboratoryId := 1
  categoryId := some 9
  trackingMode := .quantity
  name := "Cable"
  model := none
  manufacturer := none
  inventoryUnitId := 4
  publicNotes := none
  internalNotes := none

def cableCreation : CreateJsonData where
  categoryId := some 9
  trackingMode := "quantity"
  name := "Cable"
  model := none
  manufacturer := none
  inventoryUnitId := 4
  publicNotes := none
  internalNotes := none
  inventoryItems := none
  parameters := none
  attachments := none

def cableIds : NewGraphIds where
  asset := 60
  attachments := (100 + ·)
  inventoryItems _ := (200 + ·)
  parameterValues := (7 + ·)

def coil : InventoryItems.CreateJsonData :=
  { batch "CUT-1" with quantityOnHand := some 250, quantityAllocated := some 50 }

-- There is a category of cables, and a coil of one of them.
def wired : Database :=
  let _ := ScanOrder.stored
  let _ := tallied
  let _ := UnicodeSegmentation.characters
  (createInventoryItems admin 60 coil (fun _ => 61) fun _ _ => 0).after <|
  (createAsset admin cableCreation cableIds).after <|
  (AssetCategories.createAssetCategory admin ⟨none, "Cables", "cables", none, none⟩ 9 fun _ => 0).after
    workshop

-- All cables are to have a bandwidth.
def demanding : Database :=
  let _ := ScanOrder.stored
  let _ := UnicodeSegmentation.characters
  (AssetCategories.updateAssetCategory admin 9
    ⟨none, none, none, none, some [⟨5, none, none, none⟩]⟩ fun _ => 10).after wired

theorem changeable_cable (ha : d.assets.rows = [cable]) (hu : d.units.rows = [centimetre, metre])
    (hp : validatePermission d admin.authorizationActor .asset (.update cable.assetId))
    (hc : d.assetCategories.rows.any fun r => r.id = 9 ∧ r.laboratoryId = 1)
    (hi : d.assetInventoryItems.rows.all fun r => r.trackingMode = .quantity) :
    Changeable d admin cable centimetre metre where
  stored := Table.mem_def.mpr <| by simp [ha]
  permitted := hp
  category := by
    rintro _ ⟨⟩
    obtain ⟨r, hr, he⟩ := List.any_eq_true.mp hc
    exact ⟨r, Table.mem_def.mpr hr, of_decide_eq_true he⟩
  items r hr _ := of_decide_eq_true <| List.all_eq_true.mp hi r hr
  source := Table.mem_def.mpr <| by simp [hu]
  target := Table.mem_def.mpr <| by simp [hu]
  unitId := rfl

theorem changeable_wired : Changeable wired admin cable centimetre metre := by
  refine changeable_cable ?_ ?_ ?_ ?_ ?_ <;> decide +kernel

theorem unit_change_preserves_stock_wired :
    let _ := ScanOrder.stored
    let _ := tallied
    let _ := UnicodeSegmentation.characters
    (updateAsset admin cable.assetId (unitChange metre.unitId) fun _ => 0).Settles
      (centimetre.dimension = metre.dimension ∧
        IsComplete wired cable.laboratoryId cable.assetId cable.categoryId)
      (Converted wired { cable with inventoryUnitId := metre.unitId } centimetre metre) wired :=
  let _ := ScanOrder.stored
  let _ := tallied
  let _ := UnicodeSegmentation.characters
  (unit_change_preserves_stock changeable_wired).left

theorem changeable_demanding : Changeable demanding admin cable centimetre metre := by
  refine changeable_cable ?_ ?_ ?_ ?_ ?_ <;> decide +kernel

-- The cable has no bandwidth, so its unit cannot be changed either.
theorem not_changed_demanding :
    let _ := ScanOrder.stored
    let _ := tallied
    let _ := UnicodeSegmentation.characters
    Changeable demanding admin cable centimetre metre ∧
    centimetre.dimension = metre.dimension ∧
    ∃ e, (updateAsset admin cable.assetId (unitChange metre.unitId) fun _ => 0).run demanding =
      .error e := by
  let _ := ScanOrder.stored
  let _ := tallied
  let _ := UnicodeSegmentation.characters
  have hs : (updateAsset admin cable.assetId (unitChange metre.unitId) fun _ => 0).Settles
      (centimetre.dimension = metre.dimension ∧
        IsComplete demanding cable.laboratoryId cable.assetId cable.categoryId)
      (Converted demanding { cable with inventoryUnitId := metre.unitId } centimetre metre)
      demanding := settles_of_wp <| wp_unitChange changeable_demanding
  refine ⟨changeable_demanding, rfl, (hs.fails fun h => ?_).left⟩
  have hn : (requiredParameters 1 9 demanding).all (hasParameterValue 1 60 · demanding) = false := by
    decide +kernel
  exact nomatch hn.symm.trans <| List.all_eq_true.mpr (h.right 9 rfl)

end Examples

end Assets

end LabInventory
