import LabInventory.Assets.Effects
import LabInventory.BorrowRequests.Effects
import LabInventory.Trees.Deletion
import LabInventory.Trees.Effects
import LabInventory.Users.Theorems

open Sql Program

namespace LabInventory

namespace Inventory

open InventoryItems

variable {d d' : Database} {w : Write}

-- A borrow request disappears together with its item.
def Requested (d : Database) : Prop :=
  ∀ b ∈ d.borrowRequests, ∃ r ∈ d.assetInventoryItems, r.inventoryItemId = b.inventoryItemId

theorem mem_deleteGuestLinks {p : GuestLinkRow → Bool} {b : BorrowRequestRow}
    (hb : b ∈ (d.deleteGuestLinks p).borrowRequests) :
    ∃ b₀ ∈ d.borrowRequests, b₀.inventoryItemId = b.inventoryItemId := by
  simp only [Database.deleteGuestLinks, Table.mem_modify] at hb
  obtain ⟨b₀, hb₀, rfl⟩ := hb
  exact ⟨b₀, hb₀, rfl⟩

-- The requests that are left ask for what they asked for before.
theorem borrowRequests_of_apply (ha : d.apply w = .ok d')
    (hw : ∀ r, w ≠ .borrowRequests (.insert r) ∧ w ≠ .borrowRequests (.update r))
    {b : BorrowRequestRow} (hb : b ∈ d'.borrowRequests) :
    ∃ b₀ ∈ d.borrowRequests, b₀.inventoryItemId = b.inventoryItemId := by
  have happ := Database.applied_of_apply ha
  cases w
  case borrowRequests w =>
    obtain hb | rfl | rfl := Table.mem_write happ.left hb
    · exact ⟨b, hb, rfl⟩
    · exact absurd rfl (hw b).left
    · exact absurd rfl (hw b).right
  case users w =>
    simp only [Database.apply, Database.writeUsers, Except.bind_eq_ok] at ha
    obtain ⟨users, _, ha⟩ := ha
    cases w <;> simp only [Except.bind_eq_ok, Except.pure_eq_ok] at ha
    case delete =>
      obtain ⟨_, _, rfl⟩ := ha
      obtain ⟨b₁, hb₁, he⟩ := mem_deleteGuestLinks hb
      simp only [Table.mem_modify] at hb₁
      obtain ⟨b₀, hb₀, rfl⟩ := hb₁
      exact ⟨b₀, hb₀, he⟩
    all_goals
      obtain ⟨_, _, rfl⟩ := ha
      exact ⟨b, hb, rfl⟩
  case assets w =>
    simp only [Database.apply, Database.writeAssets, Except.bind_eq_ok] at ha
    obtain ⟨_, _, ha⟩ := ha
    cases w <;> simp only [Except.bind_eq_ok, Except.pure_eq_ok] at ha
    case delete =>
      subst ha
      exact ⟨b, (Table.mem_filter.mp hb).left, rfl⟩
    all_goals
      obtain ⟨_, _, rfl⟩ := ha
      exact ⟨b, hb, rfl⟩
  case assetInventoryItems w =>
    simp only [Database.apply, Database.writeAssetInventoryItems, Except.bind_eq_ok] at ha
    obtain ⟨_, _, ha⟩ := ha
    cases w <;> obtain rfl := Except.pure_eq_ok.mp ha
    case delete => exact ⟨b, (Table.mem_filter.mp hb).left, rfl⟩
    all_goals exact ⟨b, hb, rfl⟩
  case guestLinks w =>
    simp only [Database.apply, Database.writeGuestLinks] at ha
    cases w <;> simp only [Except.bind_eq_ok, Except.pure_eq_ok] at ha
    case delete =>
      subst ha
      exact mem_deleteGuestLinks hb
    all_goals
      obtain ⟨_, _, _, _, _, _, _, _, _, _, rfl⟩ := ha
      exact ⟨b, hb, rfl⟩
  case remoteNodes w =>
    simp only [Database.apply, Database.writeRemoteNodes] at ha
    cases w <;> simp only [Except.bind_eq_ok, Except.pure_eq_ok] at ha
    case delete =>
      subst ha
      exact mem_deleteGuestLinks hb
    all_goals
      obtain ⟨_, _, _, _, rfl⟩ := ha
      exact ⟨b, hb, rfl⟩
  case tree kind w =>
    have he : d'.borrowRequests = d.borrowRequests := by cases kind <;> rw [happ.right]
    exact ⟨b, he ▸ hb, rfl⟩
  all_goals
    have he : d'.borrowRequests = d.borrowRequests := by rw [happ.right]
    exact ⟨b, he ▸ hb, rfl⟩

-- What becomes of an item that is still asked for.
theorem exists_item_of_apply (ha : d.apply w = .ok d') {b : BorrowRequestRow}
    (hb : b ∈ d'.borrowRequests) (hw : ∀ w', w ≠ .borrowRequests w')
    (hi : ∃ r ∈ d.assetInventoryItems, r.inventoryItemId = b.inventoryItemId) :
    ∃ r ∈ d'.assetInventoryItems, r.inventoryItemId = b.inventoryItemId := by
  obtain ⟨r, hr, he⟩ := hi
  have happ := Database.applied_of_apply ha
  cases w
  case borrowRequests w => exact absurd rfl (hw w)
  case assetInventoryItems w =>
    cases w
    case insert r' => exact ⟨r, (Table.mem_insert happ.left).mpr <| .inl hr, he⟩
    case update r' =>
      by_cases hk : r.inventoryItemId = r'.inventoryItemId
      case pos => exact ⟨r', (Table.mem_update happ.left).mpr <| .inr ⟨rfl, r, hr, hk⟩, hk ▸ he⟩
      case neg => exact ⟨r, (Table.mem_update happ.left).mpr <| .inl ⟨hr, hk⟩, he⟩
    case delete k =>
      obtain rfl := Except.pure_eq_ok.mp ha
      have hk := (Table.mem_filter.mp hb).right
      refine ⟨r, Table.mem_delete.mpr ⟨hr, fun h => ?_⟩, he⟩
      exact of_decide_eq_true hk <| he.symm.trans h
  case assets w =>
    cases w
    case delete k =>
      simp only [Database.apply, Database.writeAssets, Except.bind_eq_ok, Except.pure_eq_ok] at ha
      obtain ⟨_, _, rfl⟩ := ha
      have hk := (Table.mem_filter.mp hb).right
      refine ⟨r, Table.mem_filter.mpr ⟨hr, ?_⟩, he⟩
      have hf : d.assetInventoryItems.find? b.inventoryItemId = some r := he ▸ Table.find?_key hr
      simpa [hf] using hk
    all_goals
      have hd := (Assets.dependents_of_applyAsset ha (by intro k he; cases he)).left
      exact ⟨r, hd ▸ hr, he⟩
  case tree kind w =>
    have hd : d'.assetInventoryItems = d.assetInventoryItems := by cases kind <;> rw [happ.right]
    exact ⟨r, hd ▸ hr, he⟩
  all_goals
    have hd : d'.assetInventoryItems = d.assetInventoryItems := by rw [happ.right]
    exact ⟨r, hd ▸ hr, he⟩

theorem Requested.apply (h : Requested d) (ha : d.apply w = .ok d')
    (hw : ∀ w', w ≠ .borrowRequests w') : Requested d' := by
  intro b hb
  have hn : ∀ r, w ≠ .borrowRequests (.insert r) ∧ w ≠ .borrowRequests (.update r) :=
    fun r => ⟨hw _, hw _⟩
  obtain ⟨b₀, hb₀, he⟩ := borrowRequests_of_apply ha hn hb
  obtain ⟨r, hr, hk⟩ := h b₀ hb₀
  exact exists_item_of_apply ha hb hw ⟨r, hr, hk.trans he⟩

-- Items stand in locations of their laboratory.
def Housed (d : Database) : Prop :=
  ∀ r ∈ d.assetInventoryItems, Located d r.laboratoryId r.locationId

theorem items_of_apply {r : InventoryItemRow} (ha : d.apply w = .ok d')
    (hr : r ∈ d'.assetInventoryItems) : r ∈ d.assetInventoryItems ∨
      w = .assetInventoryItems (.insert r) ∨ w = .assetInventoryItems (.update r) := by
  have happ := Database.applied_of_apply ha
  cases w
  case assetInventoryItems w =>
    obtain hr | rfl | rfl := Table.mem_write happ.left hr
    · exact .inl hr
    · exact .inr <| .inl rfl
    · exact .inr <| .inr rfl
  case assets w =>
    cases w
    case delete k =>
      rw [(Assets.dependents_of_deleteAsset ha).left] at hr
      exact .inl (Table.mem_filter.mp hr).left
    all_goals exact .inl <| (Assets.dependents_of_applyAsset ha nofun).left ▸ hr
  case tree kind w =>
    have hd : d'.assetInventoryItems = d.assetInventoryItems := by cases kind <;> rw [happ.right]
    exact .inl <| hd ▸ hr
  all_goals
    have hd : d'.assetInventoryItems = d.assetInventoryItems := by rw [happ.right]
    exact .inl <| hd ▸ hr

theorem Housed.apply (h : Housed d) (ha : d.apply w = .ok d')
    (hl : ∀ r ∈ d.locations, ∃ r' ∈ d'.locations, r'.id = r.id ∧ r'.laboratoryId = r.laboratoryId)
    (hw : ∀ r, w = .assetInventoryItems (.insert r) ∨ w = .assetInventoryItems (.update r) →
      Located d r.laboratoryId r.locationId) : Housed d' := by
  intro r hr
  have hr : Located d r.laboratoryId r.locationId := by
    obtain hr | hr := items_of_apply ha hr
    · exact h r hr
    · exact hw r hr
  intro id hi
  obtain ⟨l, hm, he, hlab⟩ := hr id hi
  obtain ⟨l', hm', he', hlab'⟩ := hl l hm
  exact ⟨l', hm', he'.trans he, hlab'.trans hlab⟩

theorem locations_of_apply (ha : d.apply w = .ok d') (hw : ∀ w', w ≠ .tree .location w') :
    d'.locations = d.locations := by
  have happ := Database.applied_of_apply ha
  cases w
  case tree kind w =>
    cases kind
    case location => exact absurd rfl (hw w)
    case assetCategory => rw [happ.right]
  all_goals rw [happ.right]

-- What the requests keep up.
structure Invariant (d : Database) : Prop where
  stocked : Stocked d.assets d
  requested : Requested d
  housed : Housed d
  locations : Trees.WellFormed (d.tree .location)

theorem Invariant.apply (h : Invariant d) (ha : d.apply w = .ok d') (hs : Stocked d'.assets d')
    (hr : Requested d') (hl : ∀ w', w ≠ .tree .location w')
    (hw : ∀ r, w = .assetInventoryItems (.insert r) ∨ w = .assetInventoryItems (.update r) →
      Located d r.laboratoryId r.locationId) : Invariant d' := by
  have he := locations_of_apply ha hl
  refine ⟨hs, hr, h.housed.apply ha (fun r hr => ⟨r, he ▸ hr, rfl, rfl⟩) hw, ?_⟩
  have ht : d'.tree .location = d.tree .location := he
  exact ht ▸ h.locations

theorem located_of_isItemWrite {r : InventoryItemRow} (h : Housed d) (hw : IsItemWrite d w)
    (hr : w = .assetInventoryItems (.insert r) ∨ w = .assetInventoryItems (.update r)) :
    Located d r.laboratoryId r.locationId := by
  obtain rfl | rfl := hr
  case inl => exact hw.right
  case inr =>
    obtain ⟨r₀, hf, hrev⟩ := hw
    obtain he | hl := hrev.locationId
    · rw [he, hrev.laboratoryId]
      exact h r₀ (Table.find?_eq_some.mp hf).left
    · exact hl

theorem closed_items : Closed IsItemWrite Invariant := by
  intro w d d' hw h ha
  have hs := (closed_surrounded w d d' hw (.refl h.stocked) ha).stocked
  refine h.apply ha (hs.same ▸ hs) (h.requested.apply ha ?_) ?_ fun r => located_of_isItemWrite h.housed hw
  all_goals
    rintro w' rfl
    exact hw

theorem closed_assets [TextFormats] {request : Assets.Request} :
    Closed (Assets.IsRequestWrite request) Invariant := by
  intro w d d' hw h ha
  refine h.apply ha (Assets.closed_stocked w d d' hw h.stocked ha) (h.requested.apply ha ?_) ?_ ?_
  case refine_3 =>
    intro r hr
    obtain hw | hw | hw := hw
    case inr.inr => exact located_of_isItemWrite h.housed hw hr
    all_goals obtain rfl | rfl := hr <;> exact hw.elim
  all_goals
    rintro w' rfl
    obtain hw | hw | hw := hw <;> exact hw

theorem closed_borrowing : Closed BorrowRequests.IsRequestWrite Invariant := by
  intro w d d' hw h ha
  cases w
  case assetInventoryItems w =>
    cases w
    case update r =>
      obtain ⟨r₀, hf, he⟩ := hw
      have hm := (Table.find?_eq_some.mp hf).left
      have hs : Stocked d.assets d' := by
        refine h.stocked.apply ha (fun _ => nofun) fun r' hr' => ?_
        obtain rfl : r = r' := by simpa using hr'
        rw [he]
        exact (h.stocked.items r₀ hm).describe (h.stocked.items r₀ hm).batchNumber
      refine h.apply ha (hs.same ▸ hs) (h.requested.apply ha fun _ => nofun) (fun _ => nofun) ?_
      intro r' hr'
      obtain rfl : r = r' := by simpa using hr'
      rw [he]
      exact h.housed r₀ hm
    all_goals exact hw.elim
  case borrowRequests w =>
    have happ := Database.applied_of_apply ha
    have hi : d'.assetInventoryItems = d.assetInventoryItems := by rw [happ.right]
    have hs : Stocked d.assets d' := h.stocked.apply ha (fun _ => nofun) fun _ hr => by simp at hr
    refine h.apply ha (hs.same ▸ hs) (fun b hb => ?_) (fun _ => nofun) fun _ hr => by simp at hr
    rw [hi]
    obtain hb | rfl | rfl := Table.mem_write happ.left hb
    case inl => exact h.requested b hb
    case inr.inl =>
      obtain ⟨r, hr⟩ := Option.isSome_iff_exists.mp hw
      exact ⟨r, Table.find?_eq_some.mp hr⟩
    case inr.inr =>
      obtain ⟨b₀, hb₀, he⟩ := hw
      exact he ▸ h.requested b₀ hb₀
  all_goals exact hw.elim

section Locations

theorem isLocationWrite {w : Write} (hw : Locations.IsRequestWrite d w) :
    (∃ w', w = .tree .location w') ∨ ∃ r r₀, w = .assetInventoryItems (.update r) ∧
      d.assetInventoryItems.find? r.inventoryItemId = some r₀ ∧ r = { r₀ with locationId := none } := by
  cases w
  case tree kind w =>
    cases kind
    case location => exact .inl ⟨w, rfl⟩
    case assetCategory => exact hw.elim False.elim False.elim
  case assetInventoryItems w =>
    cases w
    case update r =>
      obtain ⟨r₀, hf, he⟩ := hw.resolve_left id
      exact .inr ⟨r, r₀, rfl, hf, he⟩
    all_goals exact hw.elim False.elim False.elim
  all_goals exact hw.elim False.elim False.elim

theorem closed_locations :
    Closed Locations.IsRequestWrite fun d => Stocked d.assets d ∧ Requested d := by
  intro w d d' hw h ha
  obtain ⟨hs, hr⟩ := h
  obtain ⟨w', rfl⟩ | ⟨r, r₀, rfl, hf, he⟩ := isLocationWrite hw
  case inl =>
    have hs' : Stocked d.assets d' := hs.apply ha (fun _ => nofun) fun _ hr => by simp at hr
    exact ⟨hs'.same ▸ hs', hr.apply ha fun _ => nofun⟩
  case inr =>
    have hs' : Stocked d.assets d' := by
      refine hs.apply ha (fun _ => nofun) fun r' hr' => ?_
      obtain rfl : r = r' := by simpa using hr'
      have hm := hs.items r₀ (Table.find?_eq_some.mp hf).left
      exact he ▸ hm.describe hm.batchNumber
    exact ⟨hs'.same ▸ hs', hr.apply ha fun _ => nofun⟩

-- Nodes that are written stay where items look for them.
theorem closed_housed : Closed Locations.IsNodeWrite Housed := by
  intro w d d' hw h ha
  have happ := Database.applied_of_apply ha
  cases w
  case tree kind w =>
    cases kind
    case assetCategory => exact hw.elim
    case location =>
      refine h.apply ha (fun r hr => ?_) fun _ hr => by simp at hr
      cases w
      case insert r' => exact ⟨r, (Table.mem_insert happ.left).mpr <| .inl hr, rfl, rfl⟩
      case update r' =>
        obtain ⟨r₀, hf, hl⟩ := hw
        obtain ⟨hm, hk⟩ := Table.find?_eq_some.mp hf
        by_cases he : r.id = r'.id
        case pos =>
          obtain rfl : r₀ = r := Table.eq_of_key_eq hm hr (hk.trans he.symm)
          exact ⟨r', (Table.mem_update happ.left).mpr <| .inr ⟨rfl, r₀, hr, he⟩, he.symm, hl⟩
        case neg => exact ⟨r, (Table.mem_update happ.left).mpr <| .inl ⟨hr, he⟩, rfl, rfl⟩
      case delete => exact hw.elim
  all_goals exact hw.elim

theorem Housed.delete {x : Uuid} {cleared : List Uuid} (h : Housed d)
    (hd : Locations.Deleted x d d' cleared) : Housed d' := by
  intro r hr id hi
  obtain ⟨r₀, hr₀, he⟩ := (hd.items.rows r).mp hr
  split_ifs at he with hc
  case pos =>
    rw [he] at hi
    exact nomatch hi
  case neg =>
    subst he
    obtain ⟨l, hl, rfl, hlab⟩ := h r hr₀ id hi
    refine ⟨l, (hd.locations l).mpr ⟨hl, fun ha => hc ?_⟩, rfl, hlab⟩
    exact (hd.items.recorded _).mpr ⟨r, hr₀, rfl, l.id, hi, ha⟩

variable [UnicodeSegmentation] [ScanOrder] {ctx : LaboratoryContext}

theorem housed_handle {request : Locations.Request} (h : Invariant d) :
    (request.handle ctx).wlp (fun _ => Housed) d := by
  cases request
  case create => exact Locations.performs_createLocation.wlp closed_housed h.housed
  case update => exact Locations.performs_updateLocation.wlp closed_housed h.housed
  case delete =>
    refine wp_bind.mpr <| wp_mono (Locations.deleteLocation_deleted h.locations.forest) fun _ _ hd => ?_
    exact h.housed.delete hd

theorem invariant_location {request : Locations.Request} (h : Invariant d) :
    (request.handle ctx).wlp (fun _ => Invariant) d := by
  refine wp_mono (wp_and (Locations.performs_handle.wlp closed_locations ⟨h.stocked, h.requested⟩) <|
    wp_and (housed_handle h) <| Locations.handle_wlp h.locations) fun _ d' h' => ?_
  obtain ⟨⟨hs, hr⟩, hh, hc⟩ := h'
  exact ⟨hs, hr, hh, h.locations.change hc⟩

end Locations

section Runs

-- A request that has to do with items.
inductive Call
  | item (request : InventoryItems.Request)
  | asset (request : Assets.Request)
  | borrow (request : BorrowRequests.Request)
  | location (request : Locations.Request)

variable [TextFormats] [UnicodeSegmentation] [ScanOrder] {ctx : LaboratoryContext} {call : Call}

def Call.handle (ctx : LaboratoryContext) : Call → Transaction Unit
  | item request => request.handle ctx
  | asset request => request.handle ctx
  | borrow request => request.handle ctx
  | location request => request.handle ctx

-- Everything that items do not depend on may change at any time.
def IsElsewhere : Write → Prop
  | .assets _ | .assetInventoryItems _ | .borrowRequests _ | .tree .location _ => False
  | _ => True

inductive Reachable : Database → Prop
  | init {d : Database} (hi : d.assetInventoryItems = ∅) (hb : d.borrowRequests = ∅)
    (hl : d.locations = ∅) : Reachable d
  | call {d : Database} (ctx : LaboratoryContext) (call : Call) (h : Reachable d) :
    Reachable ((call.handle ctx).after d)
  | elsewhere {d d' : Database} {w : Write} (h : Reachable d) (hw : IsElsewhere w)
    (ha : d.apply w = .ok d') : Reachable d'

theorem Invariant.handle (h : Invariant d) : (call.handle ctx).wlp (fun _ => Invariant) d := by
  cases call
  case item => exact (InventoryItems.performs_handle h.stocked).wlp closed_items h
  case asset => exact (Assets.performs_handle h.stocked).wlp closed_assets h
  case borrow => exact BorrowRequests.performs_handle.wlp closed_borrowing h
  case location => exact invariant_location h

omit [TextFormats] [UnicodeSegmentation] [ScanOrder] in
theorem Invariant.elsewhere (h : Invariant d) (hw : IsElsewhere w) (ha : d.apply w = .ok d') :
    Invariant d' := by
  have hb : ∀ w', w ≠ .borrowRequests w' := by
    rintro w' rfl
    exact hw
  have hi : ∀ r, ¬(w = .assetInventoryItems (.insert r) ∨ w = .assetInventoryItems (.update r)) := by
    rintro r (rfl | rfl) <;> exact hw
  have hs : Stocked d.assets d' := by
    refine h.stocked.apply ha ?_ fun r hr => absurd hr (hi r)
    rintro w' rfl
    exact hw
  refine h.apply ha (hs.same ▸ hs) (h.requested.apply ha hb) ?_ fun r hr => absurd hr (hi r)
  rintro w' rfl
  exact hw

theorem Reachable.invariant (h : Reachable d) : Invariant d := by
  induction h
  case init d hi hb hl =>
    refine ⟨⟨rfl, ?_⟩, ?_, ?_, ?_⟩
    case refine_1 => simp [hi]
    case refine_2 => simp [Requested, hb]
    case refine_3 => simp [Housed, hi]
    case refine_4 =>
      have ht : d.tree .location = ∅ := hl
      exact ht ▸ .empty
  case call ih => exact wp_after ih.handle ih
  case elsewhere hw ha ih => exact ih.elsewhere hw ha

-- The checks of the table would let an item pass.
def IsChecked : Write → Prop
  | .assetInventoryItems (.insert r) | .assetInventoryItems (.update r) => Checked r
  | _ => True

omit [TextFormats] [UnicodeSegmentation] [ScanOrder] in
theorem isChecked_of_isItemWrite (hw : IsItemWrite d w) : IsChecked w := by
  cases w
  case assetInventoryItems w =>
    cases w
    case insert => exact hw.left.checked
    case update =>
      obtain ⟨_, _, hrev⟩ := hw
      exact hrev.accounted.checked
    case delete => trivial
  all_goals trivial

omit [TextFormats] [UnicodeSegmentation] [ScanOrder] in
theorem isChecked_of_describe {r r₀ : InventoryItemRow} (hs : Stocked d.assets d)
    (hf : d.assetInventoryItems.find? r.inventoryItemId = some r₀)
    (he : r = { r₀ with locationId := r.locationId, status := r.status }) : Checked r := by
  have hm := hs.items r₀ (Table.find?_eq_some.mp hf).left
  exact he ▸ (hm.describe hm.batchNumber).checked

theorem performs_checked (h : Invariant d) :
    (call.handle ctx).performs (fun _ w => IsChecked w) (fun _ _ => True) d := by
  cases call
  case item =>
    exact performs_imp (InventoryItems.performs_handle h.stocked) fun _ _ => isChecked_of_isItemWrite
  case asset =>
    refine performs_imp (Assets.performs_handle h.stocked) fun d w hw => ?_
    obtain hw | hw | hw := hw
    case inr.inr => exact isChecked_of_isItemWrite hw
    all_goals cases w <;> trivial
  case borrow =>
    refine performs_imp_of_closed BorrowRequests.performs_handle closed_borrowing h fun d w h hw => ?_
    cases w
    case assetInventoryItems w =>
      cases w
      case update r =>
        obtain ⟨r₀, hf, rfl⟩ := hw
        exact isChecked_of_describe h.stocked hf rfl
      all_goals exact hw.elim
    all_goals trivial
  case location =>
    refine performs_imp_of_closed Locations.performs_handle closed_locations ⟨h.stocked, h.requested⟩
      fun d w h hw => ?_
    obtain ⟨w', rfl⟩ | ⟨r, r₀, rfl, hf, rfl⟩ := isLocationWrite hw
    case inl => trivial
    case inr => exact isChecked_of_describe h.left hf rfl

-- All items are sound, and no request ever writes one that the checks would stop.
theorem accounted_of_reachable (h : Reachable d) :
    (∀ r ∈ d.assetInventoryItems, Accounted d.assets r) ∧
    ∀ (ctx : LaboratoryContext) (call : Call),
      (call.handle ctx).performs (fun _ w => IsChecked w) (fun _ _ => True) d :=
  ⟨h.invariant.stocked.items, fun _ _ => performs_checked h.invariant⟩

end Runs

section Examples

def admin : LaboratoryContext := ⟨⟨2, .labAdmin, some 1⟩, 1⟩

-- The office has a reagent, and none of it in stock.
def storeroom : Database :=
  { Users.office with assets := stockroom.assets }

def bottles (status : String) : CreateJsonData :=
  { batch "A" with batchNumber := none, status := some status }

def delivery (status : String) (newId : Uuid) : Call :=
  .item (.create 60 (bottles status) (fun _ => newId) fun _ _ => 0)

-- Some bottles are available, and others have been borrowed.
def delivered : Database :=
  let _ := ScanOrder.stored
  let _ := tallied
  let _ := UnicodeSegmentation.characters
  ((delivery "borrowed" 62).handle admin).after <| ((delivery "available" 61).handle admin).after storeroom

theorem accounted_of_reachable_delivered :
    let _ := ScanOrder.stored
    let _ := tallied
    let _ := UnicodeSegmentation.characters
    delivered.assetInventoryItems.rows.map (·.inventoryItemId) = [61, 62] ∧
    (∀ r ∈ delivered.assetInventoryItems, Accounted delivered.assets r) ∧
    ∀ (ctx : LaboratoryContext) (call : Call),
      (call.handle ctx).performs (fun _ w => IsChecked w) (fun _ _ => True) delivered := by
  let _ := ScanOrder.stored
  let _ := tallied
  let _ := UnicodeSegmentation.characters
  have h : Reachable storeroom := .init rfl rfl rfl
  have h := (h.call admin (delivery "available" 61)).call admin (delivery "borrowed" 62)
  exact ⟨by decide +kernel, accounted_of_reachable (d := delivered) h⟩

end Examples

end Inventory

end LabInventory
