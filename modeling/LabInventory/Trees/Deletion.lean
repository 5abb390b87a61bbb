import LabInventory.InventoryItems.Updates
import LabInventory.Trees.Theorems

open Sql Program

namespace LabInventory

variable {kind : TreeKind} {d d' : Database}

-- Categories take their parameter assignments with them.
def Database.withoutNodes (d : Database) (isRemoved : Uuid → Bool) : TreeKind → Database
  | .location => { d with locations := d.locations.filter (!isRemoved ·.id) }
  | .assetCategory => { d with
      assetCategories := d.assetCategories.filter (!isRemoved ·.id)
      assetParameterAssignments :=
        d.assetParameterAssignments.filter (!·.categoryId.any isRemoved)
    }

namespace Trees

theorem withoutNodes_none : d.withoutNodes (fun _ => false) kind = d := by
  cases kind <;> simp [Database.withoutNodes]

theorem withoutNodes_withoutNodes {p q : Uuid → Bool} :
    (d.withoutNodes p kind).withoutNodes q kind = d.withoutNodes (fun id => p id || q id) kind := by
  have hany {o : Option Uuid} : o.any (fun id => p id || q id) = (o.any p || o.any q) := by
    cases o <;> rfl
  cases kind <;> simp [Database.withoutNodes, Table.filter_filter, hany]

theorem withoutNodes_of_apply {id : Uuid} (h : d.apply (.tree kind (.delete id)) = .ok d') :
    d' = d.withoutNodes (· = id) kind := by
  have hany {o : Option Uuid} : (!o.any (decide <| · = id)) = decide (o ≠ some id) := by
    cases o <;> simp
  cases kind
  case location =>
    obtain rfl := Except.pure_eq_ok.mp h
    simp [Database.withoutNodes, Database.setTree, Database.tree, Table.delete]
  case assetCategory =>
    obtain rfl := Except.pure_eq_ok.mp h
    simp only [Database.withoutNodes, Database.setTree, Database.tree, Table.delete, hany]
    simp

-- The paths find what is below a node by the parent relation.
theorem isAncestor_iff_subtree {x : TreeRow kind} (ht : (forest (d.tree kind)).WellFormed)
    (hx : x ∈ d.tree kind) (id : Uuid) : (forest (d.tree kind)).IsAncestor x.id id ↔
      (subtree kind x.laboratoryId x.path d).any (·.id = id) := by
  simp only [subtree, List.any_eq_true, List.mem_filter, decide_eq_true_eq]
  constructor
  case mp =>
    intro ha
    have hid : ∃ n, forest (d.tree kind) id = some n := by
      obtain he | ⟨_, _, n, hn, _⟩ := ha.cases_tail
      · exact ⟨_, he ▸ forest_of_mem hx⟩
      · exact ⟨n, hn⟩
    obtain ⟨n, hn⟩ := hid
    obtain ⟨r, hr, rfl, rfl⟩ := forest_eq_some.mp hn
    have hu := ht.under_of_isAncestor ha (forest_of_mem hx) hn
    exact ⟨r, ⟨hr, hu.group.symm, hu.path⟩, rfl⟩
  case mpr =>
    rintro ⟨r, ⟨hr, hl, hp⟩, rfl⟩
    exact ht.isAncestor_of_under forest_pathsUnique (forest_of_mem hx) (forest_of_mem hr) ⟨hl.symm, hp⟩

section DeleteTree

variable [ScanOrder] {laboratoryId : Uuid} {rootPath : Ltree}

omit [ScanOrder] in
theorem wp_deleteRows {row : TreeRow kind → RowId} {err : Constraint → ApiError}
    {rows : List (TreeRow kind)} :
    (forRows row (fun r => .exec (.tree kind (.delete r.id)) err) rows : Transaction Unit).wp
      (fun _ => True) (fun _ => False) (fun _ d' =>
        d' = d.withoutNodes (fun id => rows.any (·.id = id)) kind) d := by
  induction rows generalizing d
  case nil => exact withoutNodes_none.symm
  case cons r rows ih =>
    refine wp_lock.mpr <| wp_bind.mpr <| wp_exec.mpr ⟨fun d₁ ha => ⟨trivial, ?_⟩, fun c ha => ?_⟩
    case refine_1 =>
      refine wp_mono ih fun _ d' h => ?_
      rw [h, withoutNodes_of_apply ha, withoutNodes_withoutNodes]
      simp only [List.any_cons, eq_comm]
    case refine_2 => cases kind <;> exact absurd ha Except.ok_ne_error

-- Whatever still refers to a node keeps it from being deleted, and nothing else does.
theorem wp_deleteTree {R : ApiError → Prop} {Q : Unit → Database → Prop}
    (hq : ∀ d',
      d' = d.withoutNodes (fun id => (subtree kind laboratoryId rootPath d).any (·.id = id)) kind →
      (∀ r ∈ subtree kind laboratoryId rootPath d, ¬isReferenced kind r.id d') → Q () d')
    (hr : ∀ d',
      d' = d.withoutNodes (fun id => (subtree kind laboratoryId rootPath d).any (·.id = id)) kind →
      (∃ r ∈ subtree kind laboratoryId rootPath d, isReferenced kind r.id d') →
      R (stillReferenced kind)) :
    (deleteTree kind laboratoryId rootPath).wp (fun _ => True) R Q d := by
  refine wp_bind.mpr <| wp_read.mpr <| wp_bind.mpr ?_
  refine wp_mono (wp_imp wp_deleteRows (fun _ => id) fun _ => False.elim) fun _ d' h => ?_
  have hd : d' =
      d.withoutNodes (fun id => (subtree kind laboratoryId rootPath d).any (·.id = id)) kind := by
    rw [h]
    congr 1
    funext id
    exact (ScanOrder.visit_perm _).any_eq
  refine wp_bind.mpr <| wp_read.mpr <| wp_require.mpr ⟨fun hn => hq d' hd fun r hm href => hn ?_, ?_⟩
  case refine_1 => exact List.any_eq_true.mpr ⟨r, hm, href⟩
  case refine_2 => exact fun hn => hr d' hd <| List.any_eq_true.mp (not_not.mp hn)

theorem deleteTree_eq : (deleteTree kind laboratoryId rootPath).wlp (fun _ d' =>
    d' = d.withoutNodes (fun id => (subtree kind laboratoryId rootPath d).any (·.id = id)) kind ∧
    ∀ r ∈ subtree kind laboratoryId rootPath d, ¬isReferenced kind r.id d') d :=
  wp_deleteTree (fun _ hd hr => ⟨hd, hr⟩) fun _ _ _ => trivial

end DeleteTree

section Cleared

variable {ρ : Type} [TableSchema ρ Uuid Constraint] {t t' : Table ρ} {p : ρ → Bool}
  {Points : ρ → Prop} {clear : ρ → ρ}

-- The rows that point to a removed node have been cleared and recorded, and no others.
structure Cleared (t t' : Table ρ) (Points : ρ → Prop) (clear : ρ → ρ) (cleared : List Uuid) :
    Prop where
  rows : ∀ r, r ∈ t' ↔ ∃ r₀ ∈ t, r = if TableSchema.key r₀ ∈ cleared then clear r₀ else r₀
  recorded : ∀ id, id ∈ cleared ↔ ∃ r ∈ t, TableSchema.key r = id ∧ Points r
  nodup : cleared.Nodup

def keysInTree (t : Table ρ) (p : ρ → Bool) : List Uuid :=
  ((t.rows.filter p).map TableSchema.key).insertionSort (· ≤ ·)

theorem mem_keysInTree {id : Uuid} : id ∈ keysInTree t p ↔ ∃ r ∈ t, TableSchema.key r = id ∧ p r := by
  simp only [keysInTree, List.mem_insertionSort, List.mem_map, List.mem_filter, Table.mem_def]
  exact ⟨fun ⟨r, ⟨hr, hp⟩, hk⟩ => ⟨r, hr, hk, hp⟩, fun ⟨r, hr, hk, hp⟩ => ⟨r, ⟨hr, hp⟩, hk⟩⟩

theorem cleared_of_find?
    (h : ∀ k, t'.find? k = (t.find? k).bind fun r => if p r then some (clear r) else some r)
    (hp : ∀ r ∈ t, p r → Points r) (hn : ∀ r ∈ t, r ∈ t' → Points r → p r) :
    Cleared t t' Points clear (keysInTree t p) := by
  have hiff : ∀ r ∈ t, p r ↔ Points r := by
    intro r hr
    refine ⟨hp r hr, fun hpt => ?_⟩
    by_contra hnot
    exact hnot <| hn r hr ((Table.mem_of_find?_bind h).mpr ⟨r, hr, (if_neg hnot).symm⟩) hpt
  have hkey : ∀ r ∈ t, TableSchema.key r ∈ keysInTree t p ↔ p r := by
    intro r hr
    rw [mem_keysInTree]
    refine ⟨fun ⟨r', hr', hk, hp⟩ => ?_, fun hp => ⟨r, hr, rfl, hp⟩⟩
    exact Table.eq_of_key_eq hr' hr hk ▸ hp
  constructor
  case rows =>
    intro r
    rw [Table.mem_of_find?_bind h]
    refine exists_congr fun r₀ => and_congr_right fun hr₀ => ?_
    rw [if_congr (hkey r₀ hr₀) rfl rfl]
  case recorded =>
    intro id
    rw [mem_keysInTree]
    exact exists_congr fun r => and_congr_right fun hr => and_congr_right fun _ => hiff r hr
  case nodup =>
    refine (List.perm_insertionSort _ _).nodup_iff.mpr <| List.pairwise_map.mpr ?_
    exact t.keyed.filter _

end Cleared

end Trees

namespace Locations

variable {laboratoryId : Uuid} {rootPath : Ltree}

-- What remains without a location may clash with what has been cleared before.
theorem wp_clearInventoryItemLocationsInTree [ScanOrder] {R : ApiError → Prop}
    (hr : ∀ r rs t, BulkProgress d.assetInventoryItems (inTree laboratoryId rootPath d)
        (some ∘ fun r => { r with locationId := none }) (r :: rs) t →
      t.clash? { r with locationId := none } ≠ none → ∀ e, R e) :
    (clearInventoryItemLocationsInTree laboratoryId rootPath).wp (fun _ => True) R (fun _ d' =>
      d' = { d with assetInventoryItems := d'.assetInventoryItems } ∧
      ∀ k, d'.assetInventoryItems.find? k = (d.assetInventoryItems.find? k).bind fun r =>
        if inTree laboratoryId rootPath d r then some { r with locationId := none } else some r)
      d :=
  InventoryItems.wp_updateItems (p := inTree laboratoryId rootPath)
    (g := fun r => { r with locationId := none }) (ScanOrder.visit_perm _) (fun _ => rfl)
    (fun _ => rfl) fun r rs t h hc _ => hr r rs t h hc _

theorem clearInventoryItemLocationsInTree_eq [ScanOrder] :
    (clearInventoryItemLocationsInTree laboratoryId rootPath).wlp (fun _ d' =>
      d' = { d with assetInventoryItems := d'.assetInventoryItems } ∧
      ∀ k, d'.assetInventoryItems.find? k = (d.assetInventoryItems.find? k).bind fun r =>
        if inTree laboratoryId rootPath d r then some { r with locationId := none } else some r) d :=
  wp_clearInventoryItemLocationsInTree fun _ _ _ _ _ _ => trivial

-- What the deletion of `x` leaves behind.
structure Deleted (x : Uuid) (d d' : Database) (cleared : List Uuid) : Prop where
  locations : ∀ r, r ∈ d'.locations ↔ r ∈ d.locations ∧ ¬(Trees.forest d.locations).IsAncestor x r.id
  items : Trees.Cleared d.assetInventoryItems d'.assetInventoryItems
    (fun r => ∃ l ∈ r.locationId, (Trees.forest d.locations).IsAncestor x l)
    (fun r => { r with locationId := none }) cleared
  elsewhere : d' = { d with
    locations := d'.locations
    assetInventoryItems := d'.assetInventoryItems
  }

theorem deleteLocation_deleted [ScanOrder] {ctx : LaboratoryContext} {id : Uuid}
    (ht : (Trees.forest d.locations).WellFormed) :
    (deleteLocation ctx id).wlp (fun cleared d' => Deleted id d d' cleared) d := by
  refine wp_readOnly_bind readOnly_read fun _ => wp_readOnly_bind readOnly_require fun _ => ?_
  refine wp_bind.mpr <| wp_selectForUpdate.mpr ?_
  cases hf : (d.tree .location).find? id
  case none => trivial
  case some x =>
    obtain ⟨hx, rfl⟩ := Table.find?_eq_some.mp hf
    have hbelow := Trees.isAncestor_iff_subtree ht hx
    refine wp_bind.mpr <| wp_forAll_done.mpr <| wp_bind.mpr <| wp_read.mpr <| wp_bind.mpr ?_
    refine wp_mono clearInventoryItemLocationsInTree_eq fun _ d₁ h₁ => wp_bind.mpr ?_
    obtain ⟨hframe, hfind⟩ := h₁
    have hs : Trees.subtree .location x.laboratoryId x.path d₁ =
        Trees.subtree .location x.laboratoryId x.path d := by
      rw [hframe]
      rfl
    refine wp_mono Trees.deleteTree_eq fun _ d' h' => ?_
    rw [hs] at h'
    obtain ⟨hd', hfree⟩ := h'
    have hitems : d'.assetInventoryItems = d₁.assetInventoryItems := by
      rw [hd']
      rfl
    constructor
    case locations =>
      intro r
      have hl : d'.locations = d.locations.filter fun r =>
          !(Trees.subtree .location x.laboratoryId x.path d).any (·.id = r.id) := by
        rw [hd', hframe]
        rfl
      rw [hl, Table.mem_filter, Bool.not_eq_true', ← Bool.not_eq_true]
      exact and_congr_right fun _ => not_congr (hbelow _).symm
    case items =>
      refine Trees.cleared_of_find? (hitems ▸ hfind) (fun r _ hp => ?_) fun r _ hr hp => ?_
      case refine_1 =>
        obtain ⟨l, hl, ha⟩ := (Option.any_eq_true _ _).mp (of_decide_eq_true hp).right
        exact ⟨l, hl, (hbelow _).mpr ha⟩
      case refine_2 =>
        obtain ⟨l, hl, ha⟩ := hp
        obtain ⟨n, hm, hk⟩ := List.any_eq_true.mp <| (hbelow _).mp ha
        refine absurd (Bool.or_eq_true_iff.mpr <| .inr <| List.any_eq_true.mpr ⟨r, hr, ?_⟩) (hfree n hm)
        rw [of_decide_eq_true hk]
        exact decide_eq_true hl
    case elsewhere =>
      rw [hd', hframe]
      rfl

end Locations

namespace AssetCategories

variable {laboratoryId : Uuid} {rootPath : Ltree}

theorem updated_of_apply {r : AssetRow} (h : d.apply (.assets (.update r)) = .ok d') :
    d.assets.update r = .ok d'.assets ∧ d' = { d with assets := d'.assets } := by
  simp only [Database.apply, Database.writeAssets, Table.write, Except.bind_eq_ok,
    Except.pure_eq_ok] at h
  obtain ⟨t, ht, _, _, rfl⟩ := h
  exact ⟨ht, rfl⟩

theorem clearAssetCategoriesInTree_eq [ScanOrder] :
    (clearAssetCategoriesInTree laboratoryId rootPath).wlp (fun _ d' =>
      d' = { d with assets := d'.assets } ∧
      ∀ k, d'.assets.find? k = (d.assets.find? k).bind fun r =>
        if inTree laboratoryId rootPath d r then some { r with categoryId := none } else some r) d := by
  refine wp_bulk_of (v := Database.assets) (p := inTree laboratoryId rootPath d)
    (g := fun r => some { r with categoryId := none })
    (J := fun d' => d' = { d with assets := d'.assets })
    (ScanOrder.visit_perm _) rfl fun r rs d' hd h => ?_
  obtain ⟨hr, hp⟩ := h.next
  have hin : inTree laboratoryId rootPath d' r := by
    rw [hd]
    exact hp
  have hf : d'.assets.find? r.assetId = some r := hr
  refine wp_bind.mpr <| wp_read.mpr ?_
  rw [hf, Option.filter_some, if_pos hin]
  refine wp_exec.mpr ⟨fun d'' ha => ⟨trivial, ?_, fun k => ?_⟩, fun _ _ => trivial⟩
  case refine_1 => rw [(updated_of_apply ha).right, hd]
  case refine_2 =>
    rw [Table.find?_update (updated_of_apply ha).left]
    by_cases hk : TableSchema.key r = k
    case pos =>
      subst hk
      exact (if_pos rfl).trans <| (congrArg (Option.map _) hr).trans (if_pos rfl).symm
    case neg => exact (if_neg hk).trans (if_neg hk).symm

-- What the deletion of `x` leaves behind.
structure Deleted (x : Uuid) (d d' : Database) (cleared : List Uuid) : Prop where
  categories : ∀ r, r ∈ d'.assetCategories ↔
    r ∈ d.assetCategories ∧ ¬(Trees.forest d.assetCategories).IsAncestor x r.id
  assets : Trees.Cleared d.assets d'.assets
    (fun r => ∃ c ∈ r.categoryId, (Trees.forest d.assetCategories).IsAncestor x c)
    (fun r => { r with categoryId := none }) cleared
  assignments : ∀ r, r ∈ d'.assetParameterAssignments ↔ r ∈ d.assetParameterAssignments ∧
    ∀ c ∈ r.categoryId, ¬(Trees.forest d.assetCategories).IsAncestor x c
  elsewhere : d' = { d with
    assetCategories := d'.assetCategories
    assets := d'.assets
    assetParameterAssignments := d'.assetParameterAssignments
  }

theorem deleteAssetCategory_deleted [ScanOrder] {ctx : LaboratoryContext} {id : Uuid}
    (ht : (Trees.forest d.assetCategories).WellFormed) :
    (deleteAssetCategory ctx id).wlp (fun cleared d' => Deleted id d d' cleared) d := by
  refine wp_readOnly_bind readOnly_read fun _ => wp_readOnly_bind readOnly_require fun _ => ?_
  refine wp_bind.mpr <| wp_selectForUpdate.mpr ?_
  cases hf : (d.tree .assetCategory).find? id
  case none => trivial
  case some x =>
    obtain ⟨hx, rfl⟩ := Table.find?_eq_some.mp hf
    have hbelow := Trees.isAncestor_iff_subtree ht hx
    refine wp_bind.mpr <| wp_forAll_done.mpr <| wp_bind.mpr <| wp_forAll_done.mpr ?_
    refine wp_bind.mpr <| wp_read.mpr <| wp_bind.mpr ?_
    refine wp_mono clearAssetCategoriesInTree_eq fun _ d₁ h₁ => wp_bind.mpr ?_
    obtain ⟨hframe, hfind⟩ := h₁
    have hs : Trees.subtree .assetCategory x.laboratoryId x.path d₁ =
        Trees.subtree .assetCategory x.laboratoryId x.path d := by
      rw [hframe]
      rfl
    refine wp_mono Trees.deleteTree_eq fun _ d' h' => ?_
    rw [hs] at h'
    obtain ⟨hd', hfree⟩ := h'
    have hassets : d'.assets = d₁.assets := by
      rw [hd']
      rfl
    constructor
    case categories =>
      intro r
      have hl : d'.assetCategories = d.assetCategories.filter fun r =>
          !(Trees.subtree .assetCategory x.laboratoryId x.path d).any (·.id = r.id) := by
        rw [hd', hframe]
        rfl
      rw [hl, Table.mem_filter, Bool.not_eq_true', ← Bool.not_eq_true]
      exact and_congr_right fun _ => not_congr (hbelow _).symm
    case assets =>
      refine Trees.cleared_of_find? (hassets ▸ hfind) (fun r _ hp => ?_) fun r _ hr hp => ?_
      case refine_1 =>
        obtain ⟨c, hc, ha⟩ := (Option.any_eq_true _ _).mp (of_decide_eq_true hp).right
        exact ⟨c, hc, (hbelow _).mpr ha⟩
      case refine_2 =>
        obtain ⟨c, hc, ha⟩ := hp
        obtain ⟨n, hm, hk⟩ := List.any_eq_true.mp <| (hbelow _).mp ha
        refine absurd (Bool.or_eq_true_iff.mpr <| .inr <| List.any_eq_true.mpr ⟨r, hr, ?_⟩) (hfree n hm)
        rw [of_decide_eq_true hk]
        exact decide_eq_true hc
    case assignments =>
      intro r
      have ha : d'.assetParameterAssignments = d.assetParameterAssignments.filter fun r =>
          !r.categoryId.any fun c =>
            (Trees.subtree .assetCategory x.laboratoryId x.path d).any (·.id = c) := by
        rw [hd', hframe]
        rfl
      rw [ha, Table.mem_filter, Bool.not_eq_true', ← Bool.not_eq_true, Option.any_eq_true]
      refine and_congr_right fun _ => ⟨fun h c hc hac => ?_, fun h => ?_⟩
      · exact h ⟨c, hc, (hbelow _).mp hac⟩
      · rintro ⟨c, hc, hac⟩
        exact h c hc <| (hbelow _).mpr hac
    case elsewhere =>
      rw [hd', hframe]
      rfl

end AssetCategories

namespace Trees

variable [ScanOrder] {ctx : LaboratoryContext} {x : Uuid} {cleared : List Uuid}

-- Yields the rows that have been cleared.
def delete (kind : TreeKind) (ctx : LaboratoryContext) (id : Uuid) : Transaction (List Uuid) :=
  match kind with
  | .location => Locations.deleteLocation ctx id
  | .assetCategory => AssetCategories.deleteAssetCategory ctx id

def Deleted : TreeKind → Uuid → Database → Database → List Uuid → Prop
  | .location => Locations.Deleted
  | .assetCategory => AssetCategories.Deleted

theorem deleted_of_run (ht : (forest (d.tree kind)).WellFormed)
    (h : (delete kind ctx x).run d = .ok (cleared, d')) : Deleted kind x d d' cleared := by
  have hw : (delete kind ctx x).wlp (fun cleared d' => Deleted kind x d d' cleared) d := by
    cases kind
    case location => exact Locations.deleteLocation_deleted ht
    case assetCategory => exact AssetCategories.deleteAssetCategory_deleted ht
  exact wp_run (Q := fun cleared d' => Deleted kind x d d' cleared) hw h

def crate : InventoryItemRow where
  inventoryItemId := 7
  assetId := 3
  laboratoryId := 1
  trackingMode := .quantity
  serialNumber := none
  batchNumber := none
  quantityOnHand := 1
  quantityAllocated := 0
  locationId := some 6
  status := .available
  publicNotes := none
  internalNotes := none

-- The room has a shelf, and the shelf holds an item.
def stocked : Database :=
  { furnished with assetInventoryItems := {crate} }

omit [ScanOrder] in
theorem deleted_of_run_stocked :
    let _ := ScanOrder.stored
    ∃ d', (delete .location caretaker 5).run stocked = .ok ([7], d') ∧
      Deleted .location 5 stocked d' [7] := by
  let _ := UnicodeSegmentation.characters
  let _ := ScanOrder.stored
  have h₀ : building.tree .location = ∅ := rfl
  have hs {d} (request : Request .location) (h : Reachable .location building d) :
      Reachable .location building (handled request d) := .step caretaker request h
  have h : Reachable .location building furnished := hs _ <| hs _ <| hs _ .refl
  have ht : (forest (stocked.tree .location)).WellFormed := (h.wellFormed <| h₀ ▸ .empty).forest
  have hr : (delete .location caretaker 5).run stocked =
      .ok ([7], (delete .location caretaker 5).after stocked) := by
    rfl
  exact ⟨_, hr, deleted_of_run ht hr⟩

end Trees

end LabInventory
