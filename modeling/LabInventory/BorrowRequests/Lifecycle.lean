import LabInventory.BorrowRequests.Approval
import LabInventory.InventoryItems.Edits
import LabInventory.InventoryItems.Serials
import LabInventory.InventoryItems.Updates
import LabInventory.Library.Watch

open Sql Program

namespace LabInventory

namespace BorrowRequests

open InventoryItems

def IsDecided (status : BorrowRequestStatus) : Prop :=
  status = .approved ∨ status = .rejected

-- The columns of the reviewer are either all set, or none of them is.
structure Reviewed (r : BorrowRequestRow) : Prop where
  userId : r.reviewedByUserId.isSome
  username : r.reviewedByUsername.isSome
  userType : r.reviewedByUserType.isSome
  reviewedAt : r.reviewedAt.isSome

structure Unreviewed (r : BorrowRequestRow) : Prop where
  userId : r.reviewedByUserId = none
  username : r.reviewedByUsername = none
  userType : r.reviewedByUserType = none
  reviewedAt : r.reviewedAt = none

structure Coherent (d : Database) : Prop where
  pending : ∀ r₁ ∈ d.borrowRequests, ∀ r₂ ∈ d.borrowRequests, r₁.status = .pending →
    r₂.status = .pending → r₁.inventoryItemId = r₂.inventoryItemId → r₁ = r₂
  reviewed : ∀ r ∈ d.borrowRequests, IsDecided r.status → Reviewed r
  unreviewed : ∀ r ∈ d.borrowRequests, ¬IsDecided r.status → Unreviewed r
  item : ∀ r ∈ d.borrowRequests, ∃ i ∈ d.assetInventoryItems,
    i.inventoryItemId = r.inventoryItemId ∧ i.laboratoryId = r.localLaboratoryId

-- A transaction only changes items that it has locked, together with their requests. It has to lock
-- a request, too, unless the request disappears with its item.
structure Keeps (ks : Set RowId) (d d' : Database) : Prop where
  items : ∀ i ∈ d.assetInventoryItems, .inventoryItem i.inventoryItemId ∉ ks →
    i ∈ d'.assetInventoryItems
  requests : ∀ r ∈ d.borrowRequests, .inventoryItem r.inventoryItemId ∉ ks → r ∈ d'.borrowRequests
  filed : ∀ r ∈ d'.borrowRequests,
    .inventoryItem r.inventoryItemId ∉ ks ∨ .borrowRequest r.borrowRequestId ∉ ks →
    r ∈ d.borrowRequests

-- What a transaction is meant for.
inductive Role
  | create (ctx : LaboratoryContext) (inventoryItemId : Uuid)
  | resolve (ctx : LaboratoryContext) (borrowRequestId : Uuid) (decision : String)
  | cancel (ctx : LaboratoryContext) (borrowRequestId : Uuid)
  | edit

-- The guest link is either known already, or looked up by the transaction.
inductive Handles [ScanOrder] : Role → Transaction Unit → Prop
  | create {ctx inventoryItemId guestLinkId requestNote newId} :
    Handles (.create ctx inventoryItemId)
      (createBorrowRequest ctx inventoryItemId guestLinkId requestNote newId)
  | createRoute {ctx inventoryItemId requestNote newId} :
    Handles (.create ctx inventoryItemId)
      (Routes.createBorrowRequest ctx inventoryItemId requestNote newId)
  | resolve {ctx borrowRequestId decision decisionNote} :
    Handles (.resolve ctx borrowRequestId decision)
      (resolveBorrowRequest ctx borrowRequestId decision decisionNote)
  | cancel {ctx borrowRequestId guestLinkId} :
    Handles (.cancel ctx borrowRequestId) (cancelBorrowRequest ctx borrowRequestId guestLinkId)
  | cancelRoute {ctx borrowRequestId} :
    Handles (.cancel ctx borrowRequestId) (Routes.cancelBorrowRequest ctx borrowRequestId)
  | edit {p} : IsEdit p → Handles .edit p

structure Files (ctx : LaboratoryContext) (inventoryItemId : Uuid) (d d' : Database)
    (r : BorrowRequestRow) (item : InventoryItemRow) : Prop where
  mem : item ∈ d.assetInventoryItems
  identified : item.inventoryItemId = inventoryItemId
  available : item.status = .available
  isGuest : ctx.actor.isGuest
  actorLaboratory : ctx.actor.laboratoryId = some item.laboratoryId
  pending : r.status = .pending
  unreviewed : Unreviewed r
  requester : r.requesterUserId = some ctx.actor.userId
  requested : r.inventoryItemId = inventoryItemId
  laboratoryId : r.localLaboratoryId = item.laboratoryId
  requests : d.borrowRequests.insert r = .ok d'.borrowRequests
  items : d'.assetInventoryItems = d.assetInventoryItems

-- A pending request is settled: `r` becomes `r'`.
structure Settles (d d' : Database) (r r' : BorrowRequestRow) : Prop where
  mem : r ∈ d.borrowRequests
  pending : r.status = .pending
  sameRequest : r'.borrowRequestId = r.borrowRequestId
  sameItem : r'.inventoryItemId = r.inventoryItemId
  sameLaboratory : r'.localLaboratoryId = r.localLaboratoryId
  requests : d.borrowRequests.update r' = .ok d'.borrowRequests

structure Borrows (d d' : Database) (r : BorrowRequestRow) (item : InventoryItemRow) : Prop where
  mem : item ∈ d.assetInventoryItems
  identified : item.inventoryItemId = r.inventoryItemId
  available : item.status = .available
  items : d.assetInventoryItems.update { item with status := .borrowed } = .ok d'.assetInventoryItems

structure Resolves (ctx : LaboratoryContext) (borrowRequestId : Uuid) (decision : String)
    (d d' : Database) (r r' : BorrowRequestRow) : Prop extends Settles d d' r r' where
  requested : r.borrowRequestId = borrowRequestId
  decided : parseDecision decision = .ok r'.status
  reviewed : Reviewed r'
  isResolver : ctx.actor.isLabAdmin ∨ ctx.actor.isRegularUser
  actorLaboratory : ctx.actor.laboratoryId = some r.localLaboratoryId
  approved : r'.status = .approved → ∃ item, Borrows d d' r item
  rejected : r'.status = .rejected → d'.assetInventoryItems = d.assetInventoryItems

structure Cancels (ctx : LaboratoryContext) (borrowRequestId : Uuid) (d d' : Database)
    (r r' : BorrowRequestRow) : Prop extends Settles d d' r r' where
  requested : r.borrowRequestId = borrowRequestId
  cancelled : r'.status = .cancelled
  unreviewed : Unreviewed r'
  isGuest : ctx.actor.isGuest
  actorLaboratory : ctx.actor.laboratoryId = some r.localLaboratoryId
  items : d'.assetInventoryItems = d.assetInventoryItems

def Effect (role : Role) (d d' : Database) : Prop :=
  match role with
  | .create ctx inventoryItemId => ∃ r item, Files ctx inventoryItemId d d' r item
  | .resolve ctx borrowRequestId decision =>
    ∃ r r', Resolves ctx borrowRequestId decision d d' r r'
  | .cancel ctx borrowRequestId => ∃ r r', Cancels ctx borrowRequestId d d' r r'
  | .edit => ∀ r ∈ d'.borrowRequests, r ∈ d.borrowRequests

def requestDiscipline : Discipline Database RowId Role where
  Inv := Coherent
  Guar role ks d d' := Keeps ks d d' ∧ Effect role d d'
  Compat _ _ _ := True

section Effects

variable {d d' : Database} {ks : Set RowId} {r r' : BorrowRequestRow} {item : InventoryItemRow}

theorem Settles.mem_iff (h : Settles d d' r r') {q : BorrowRequestRow} : q ∈ d'.borrowRequests ↔
    (q ∈ d.borrowRequests ∧ q.borrowRequestId ≠ r.borrowRequestId) ∨ q = r' := by
  have hm : q ∈ d'.borrowRequests ↔
      (q ∈ d.borrowRequests ∧ q.borrowRequestId ≠ r'.borrowRequestId) ∨
      (q = r' ∧ ∃ q' ∈ d.borrowRequests, q'.borrowRequestId = r'.borrowRequestId) :=
    Table.mem_update h.requests
  rw [hm, h.sameRequest]
  exact or_congr_right ⟨And.left, fun hq => ⟨hq, r, h.mem, rfl⟩⟩

theorem Settles.coherent (h : Settles d d' r r') (hc : Coherent d) (hn : r'.status ≠ .pending)
    (hr : IsDecided r'.status → Reviewed r') (hu : ¬IsDecided r'.status → Unreviewed r')
    (hi : ∀ i ∈ d.assetInventoryItems, ∃ i' ∈ d'.assetInventoryItems,
      i'.inventoryItemId = i.inventoryItemId ∧ i'.laboratoryId = i.laboratoryId) : Coherent d' where
  pending r₁ h₁ r₂ h₂ hp₁ hp₂ he := by
    rcases h.mem_iff.mp h₁ with h₁ | rfl
    case inr => exact absurd hp₁ hn
    rcases h.mem_iff.mp h₂ with h₂ | rfl
    case inr => exact absurd hp₂ hn
    exact hc.pending r₁ h₁.left r₂ h₂.left hp₁ hp₂ he
  reviewed q hq hd := by
    rcases h.mem_iff.mp hq with hq | rfl
    case inl => exact hc.reviewed q hq.left hd
    case inr => exact hr hd
  unreviewed q hq hd := by
    rcases h.mem_iff.mp hq with hq | rfl
    case inl => exact hc.unreviewed q hq.left hd
    case inr => exact hu hd
  item q hq := by
    have hitem : ∃ i ∈ d.assetInventoryItems,
        i.inventoryItemId = q.inventoryItemId ∧ i.laboratoryId = q.localLaboratoryId := by
      rcases h.mem_iff.mp hq with hq | rfl
      case inl => exact hc.item q hq.left
      case inr =>
        rw [h.sameItem, h.sameLaboratory]
        exact hc.item r h.mem
    obtain ⟨i, hm, hid, hl⟩ := hitem
    obtain ⟨i', hm', hid', hl'⟩ := hi i hm
    exact ⟨i', hm', hid'.trans hid, hl'.trans hl⟩

theorem Settles.keeps (h : Settles d d' r r') (hi : .inventoryItem r.inventoryItemId ∈ ks)
    (hr : .borrowRequest r.borrowRequestId ∈ ks)
    (hitems : ∀ i ∈ d.assetInventoryItems, .inventoryItem i.inventoryItemId ∉ ks →
      i ∈ d'.assetInventoryItems) : Keeps ks d d' where
  items := hitems
  requests q hq hn := by
    refine h.mem_iff.mpr (.inl ⟨hq, fun he => hn ?_⟩)
    rwa [Table.eq_of_key_eq hq h.mem he]
  filed q hq hn := by
    rcases h.mem_iff.mp hq with hq | rfl
    case inl => exact hq.left
    case inr =>
      rw [h.sameItem, h.sameRequest] at hn
      exact hn.elim (absurd hi) (absurd hr)

theorem Borrows.mem_iff (h : Borrows d d' r item) {i : InventoryItemRow} :
    i ∈ d'.assetInventoryItems ↔
      (i ∈ d.assetInventoryItems ∧ i.inventoryItemId ≠ item.inventoryItemId) ∨
      i = { item with status := .borrowed } := by
  have hm : i ∈ d'.assetInventoryItems ↔
      (i ∈ d.assetInventoryItems ∧ i.inventoryItemId ≠ item.inventoryItemId) ∨
      (i = { item with status := .borrowed } ∧ ∃ i' ∈ d.assetInventoryItems,
        i'.inventoryItemId = item.inventoryItemId) := Table.mem_update h.items
  rw [hm]
  exact or_congr_right ⟨And.left, fun hi => ⟨hi, item, h.mem, rfl⟩⟩

theorem Borrows.exists_item (h : Borrows d d' r item) {i : InventoryItemRow}
    (hi : i ∈ d.assetInventoryItems) : ∃ i' ∈ d'.assetInventoryItems,
      i'.inventoryItemId = i.inventoryItemId ∧ i'.laboratoryId = i.laboratoryId := by
  by_cases he : i.inventoryItemId = item.inventoryItemId
  case pos =>
    obtain rfl := Table.eq_of_key_eq hi h.mem he
    exact ⟨_, h.mem_iff.mpr (.inr rfl), rfl, rfl⟩
  case neg => exact ⟨i, h.mem_iff.mpr (.inl ⟨hi, he⟩), rfl, rfl⟩

variable {ctx : LaboratoryContext} {inventoryItemId : Uuid}

theorem Files.mem_iff (h : Files ctx inventoryItemId d d' r item) {q : BorrowRequestRow} :
    q ∈ d'.borrowRequests ↔ q ∈ d.borrowRequests ∨ q = r :=
  Table.mem_insert h.requests

theorem Files.coherent (h : Files ctx inventoryItemId d d' r item) (hc : Coherent d)
    (hn : ∀ q ∈ d.borrowRequests, q.inventoryItemId = inventoryItemId → q.status ≠ .pending) :
    Coherent d' where
  pending r₁ h₁ r₂ h₂ hp₁ hp₂ he := by
    rcases h.mem_iff.mp h₁ with h₁ | rfl <;> rcases h.mem_iff.mp h₂ with h₂ | rfl
    case inl.inl => exact hc.pending r₁ h₁ r₂ h₂ hp₁ hp₂ he
    case inl.inr => exact absurd hp₁ <| hn r₁ h₁ (he.trans h.requested)
    case inr.inl => exact absurd hp₂ <| hn r₂ h₂ (he.symm.trans h.requested)
    case inr.inr => rfl
  reviewed q hq hd := by
    rcases h.mem_iff.mp hq with hq | rfl
    case inl => exact hc.reviewed q hq hd
    case inr => rw [IsDecided, h.pending] at hd; exact absurd hd (by decide)
  unreviewed q hq hd := by
    rcases h.mem_iff.mp hq with hq | rfl
    case inl => exact hc.unreviewed q hq hd
    case inr => exact h.unreviewed
  item q hq := by
    rw [h.items]
    rcases h.mem_iff.mp hq with hq | rfl
    case inl => exact hc.item q hq
    case inr =>
      exact ⟨item, h.mem, h.identified.trans h.requested.symm, h.laboratoryId.symm⟩

theorem Files.keeps (h : Files ctx inventoryItemId d d' r item)
    (hi : .inventoryItem inventoryItemId ∈ ks) (hr : .borrowRequest r.borrowRequestId ∈ ks) :
    Keeps ks d d' where
  items i hm _ := h.items ▸ hm
  requests q hq _ := h.mem_iff.mpr (.inl hq)
  filed q hq hn := by
    rcases h.mem_iff.mp hq with hq | rfl
    case inl => exact hq
    case inr =>
      rw [h.requested] at hn
      exact hn.elim (absurd hi) (absurd hr)

end Effects

section Safety

open Discipline

variable {d d' v : Database} {ks : Set RowId} {pending : List RowId} {log : List Write} {role : Role}
variable {r r' : BorrowRequestRow} {item : InventoryItemRow} {ctx : LaboratoryContext}
variable {A : Set RowId → Database → Prop}

theorem stable_locked {k : RowId} : requestDiscipline.Stable fun ks _ => k ∈ ks where
  lock h := .inr h
  interference _ h := h

-- An item stays as it is while it is locked.
structure Holds (item : InventoryItemRow) (ks : Set RowId) (d : Database) : Prop where
  locked : .inventoryItem item.inventoryItemId ∈ ks
  mem : item ∈ d.assetInventoryItems

theorem stable_holds : requestDiscipline.Stable (Holds item) where
  lock h := ⟨.inr h.locked, h.mem⟩
  interference hi h := by
    obtain ⟨_, ks', hd, hg, _⟩ := hi.guar
    exact ⟨h.locked, hg.items _ h.mem (hd _ h.locked)⟩

-- No requests are filed for it either.
structure Idle (inventoryItemId : Uuid) (ks : Set RowId) (d : Database) : Prop where
  locked : .inventoryItem inventoryItemId ∈ ks
  idle : ∀ r ∈ d.borrowRequests, r.inventoryItemId = inventoryItemId → r.status ≠ .pending

theorem stable_idle {inventoryItemId : Uuid} :
    requestDiscipline.Stable (Idle inventoryItemId) where
  lock h := ⟨.inr h.locked, h.idle⟩
  interference hi h := by
    obtain ⟨_, ks', hd, hg, _⟩ := hi.guar
    exact ⟨h.locked, fun r hr he => h.idle r (hg.filed r hr (.inl (he ▸ hd _ h.locked))) he⟩

-- A request which is locked can only disappear.
structure Asked (r : BorrowRequestRow) (ks : Set RowId) (d : Database) : Prop where
  locked : .borrowRequest r.borrowRequestId ∈ ks
  same : ∀ q ∈ d.borrowRequests, q.borrowRequestId = r.borrowRequestId → q = r

theorem stable_asked : requestDiscipline.Stable (Asked r) where
  lock h := ⟨.inr h.locked, h.same⟩
  interference hi h := by
    obtain ⟨_, ks', hd, hg, _⟩ := hi.guar
    exact ⟨h.locked, fun q hq he => h.same q (hg.filed q hq (.inr (he ▸ hd _ h.locked))) he⟩

structure Absent (borrowRequestId : Uuid) (ks : Set RowId) (d : Database) : Prop where
  locked : .borrowRequest borrowRequestId ∈ ks
  absent : ∀ q ∈ d.borrowRequests, q.borrowRequestId ≠ borrowRequestId

theorem stable_absent {borrowRequestId : Uuid} :
    requestDiscipline.Stable (Absent borrowRequestId) where
  lock h := ⟨.inr h.locked, h.absent⟩
  interference hi h := by
    obtain ⟨_, ks', hd, hg, _⟩ := hi.guar
    exact ⟨h.locked, fun q hq he => h.absent q (hg.filed q hq (.inr (he ▸ hd _ h.locked))) he⟩

-- It does not even do so while its item is locked, too.
structure Pinned (r : BorrowRequestRow) (ks : Set RowId) (d : Database) : Prop
    extends Asked r ks d where
  itemLocked : .inventoryItem r.inventoryItemId ∈ ks
  mem : r ∈ d.borrowRequests

theorem stable_pinned : requestDiscipline.Stable (Pinned r) where
  lock h := ⟨stable_asked.lock h.toAsked, .inr h.itemLocked, h.mem⟩
  interference hi h := by
    obtain ⟨_, ks', hd, hg, _⟩ := id hi.guar
    exact ⟨stable_asked.interference hi h.toAsked, h.itemLocked,
      hg.requests _ h.mem (hd _ h.itemLocked)⟩

variable {laboratoryId borrowRequestId : Uuid}

-- The item is the one of the request that has been found first.
theorem safe_requireBorrowRequest
    {Q : BorrowRequestRow → List RowId → List Write → Set RowId → Database → Prop}
    (hA : requestDiscipline.Stable A) (ha : A ks d)
    (hq : ∀ ks₁ d₁ v₁ found, A ks₁ d₁ → replay log d₁ = .ok v₁ →
      fetchBorrowRequest? v₁ laboratoryId borrowRequestId = some found →
      ∀ ks d v r, A ks d → replay log d = .ok v → .borrowRequest borrowRequestId ∈ ks →
      .inventoryItem found.inventoryItemId ∈ ks →
      fetchBorrowRequest? v laboratoryId borrowRequestId = some r → Q r [] log ks d) :
    requestDiscipline.Safe Q (requireBorrowRequest laboratoryId borrowRequestId) pending log ks d := by
  refine safe_select hA ha fun d₁ v₁ _ ha₁ hv₁ => ?_
  beta_reduce
  cases hf : fetchBorrowRequest? v₁ laboratoryId borrowRequestId
  case none => trivial
  case some found =>
    refine safe_lock hA ha₁ fun d _ ha => ?_
    refine safe_lock (hA.and stable_locked) ⟨ha, .inl rfl⟩ fun d _ ha => ?_
    refine safe_select ((hA.and stable_locked).and stable_locked) ⟨ha, .inl rfl⟩ fun d v _ ha hv => ?_
    obtain ⟨⟨ha, hr⟩, hi⟩ := ha
    beta_reduce
    cases hf' : fetchBorrowRequest? v laboratoryId borrowRequestId
    case none => trivial
    case some r => exact hq _ d₁ v₁ found ha₁ hv₁ hf _ d v r ha hv hr hi hf'

-- Requests are not changed by what has been written so far.
def Unfiled (log : List Write) : Prop :=
  ∀ d v : Database, replay log d = .ok v → v.borrowRequests = d.borrowRequests

theorem unfiled_nil : Unfiled [] :=
  fun _ _ h => Except.ok.inj h ▸ rfl

theorem safe_requireBorrowRequest_absent
    {Q : BorrowRequestRow → List RowId → List Write → Set RowId → Database → Prop}
    (hl : Unfiled log) (h : Absent borrowRequestId ks d) :
    requestDiscipline.Safe Q (requireBorrowRequest laboratoryId borrowRequestId) pending log ks d := by
  refine safe_requireBorrowRequest stable_absent h fun _ d₁ v₁ found ha hv hf => ?_
  obtain ⟨hm, hk, _⟩ := fetchBorrowRequest?_eq_some.mp hf
  exact absurd hk <| ha.absent found (hl d₁ v₁ hv ▸ hm)

theorem safe_updateBorrowRequestRow {Q : Unit → List RowId → List Write → Set RowId → Database → Prop}
    {f : BorrowRequestRow → BorrowRequestRow} {context : String} (hl : Unfiled log)
    (hA : requestDiscipline.Stable A) (ha : A ks d) (h : Asked r ks d)
    (hn : ∀ pending ks d, Absent r.borrowRequestId ks d → Q () pending log ks d)
    (hs : ∀ pending ks d, A ks d → Asked r ks d →
      Q () pending (log ++ [.borrowRequests (.update (f r))]) ks d) :
    requestDiscipline.Safe Q (updateBorrowRequestRow r.borrowRequestId r.localLaboratoryId f context)
      pending log ks d := by
  have hB := hA.and (stable_asked (r := r))
  have habsent {ks d v} (h : Asked r ks d) (hv : replay log d = .ok v)
      (hf : (v.borrowRequests.find? r.borrowRequestId).filter
        (·.localLaboratoryId = r.localLaboratoryId) = none) : Absent r.borrowRequestId ks d := by
    refine ⟨h.locked, fun q hq he => ?_⟩
    obtain rfl := h.same q hq he
    have hfind : v.borrowRequests.find? q.borrowRequestId = some q := by
      rw [hl d v hv]
      exact Table.find?_key hq
    simp [hfind] at hf
  refine safe_select hB ⟨ha, h⟩ fun d v _ h hv => ?_
  beta_reduce
  cases hf : (v.borrowRequests.find? r.borrowRequestId).filter
    (·.localLaboratoryId = r.localLaboratoryId)
  case none => exact hn _ _ _ (habsent h.right hv hf)
  case some =>
    refine safe_lock hB h fun d _ h => safe_select hB h fun d v _ h hv => ?_
    beta_reduce
    cases hf : (v.borrowRequests.find? r.borrowRequestId).filter
      (·.localLaboratoryId = r.localLaboratoryId)
    case none => exact hn _ _ _ (habsent h.right hv hf)
    case some q =>
      obtain ⟨hm, hk⟩ := Table.find?_eq_some.mp (Option.filter_eq_some_iff.mp hf).left
      obtain rfl : q = r := h.right.same q (hl d v hv ▸ hm) hk
      exact safe_write hB h fun d _ _ _ h _ _ => hs _ _ d h.left h.right

theorem replay_update {v : Database} (hl : Unfiled log)
    (hv : replay (log ++ [.borrowRequests (.update r)]) d = .ok v) :
    d.borrowRequests.update r = .ok v.borrowRequests ∧ ∃ v₁, replay log d = .ok v₁ ∧
      v.assetInventoryItems = v₁.assetInventoryItems := by
  obtain ⟨v₁, hv₁, ha⟩ := replay_concat.mp hv
  obtain ⟨hw, hf⟩ := Database.applied_of_apply ha
  exact ⟨hl d v₁ hv₁ ▸ hw, v₁, hv₁, by rw [hf]⟩

-- The request is found once more only if it has not disappeared, and its item is locked by then.
theorem safe_confirm {A : Set RowId → Database → Prop} (hl : Unfiled log)
    (hr : r'.borrowRequestId = r.borrowRequestId) (hi : r'.inventoryItemId = r.inventoryItemId)
    (hA : requestDiscipline.Stable A) (ha : A ks d) (h : Asked r ks d)
    (hc : ∀ ks d, A ks d → Pinned r ks d →
      requestDiscipline.Commit role () [] (log ++ [.borrowRequests (.update r')]) ks d) :
    requestDiscipline.Safe (requestDiscipline.Commit role) (do
        let _ ← requireBorrowRequest laboratoryId r.borrowRequestId)
      pending (log ++ [.borrowRequests (.update r')]) ks d := by
  refine safe_bind.mpr <| safe_requireBorrowRequest (hA.and stable_asked) ⟨ha, h⟩ ?_
  intro ks₁ d₁ v₁ found h₁ hv₁ hf ks d v q h hv hk hki hfq
  obtain ⟨hm, hid, _⟩ := fetchBorrowRequest?_eq_some.mp hf
  have hfound : found.inventoryItemId = r.inventoryItemId := by
    rcases (Table.mem_update (replay_update hl hv₁).left).mp hm with ⟨_, hn⟩ | ⟨rfl, _⟩
    case inl => exact absurd (hid.trans hr.symm) hn
    case inr => exact hi
  obtain ⟨hmq, hidq, _⟩ := fetchBorrowRequest?_eq_some.mp hfq
  have hmem : r ∈ d.borrowRequests := by
    rcases (Table.mem_update (replay_update hl hv).left).mp hmq with ⟨_, hn⟩ | ⟨_, q', hq', he⟩
    case inl => exact absurd (hidq.trans hr.symm) hn
    case inr => exact h.right.same q' hq' (he.trans hr) ▸ hq'
  exact hc ks d h.left ⟨h.right, hfound ▸ hki, hmem⟩

theorem not_isDecided_of_pending (h : r.status = .pending) : ¬IsDecided r.status := by
  rw [h]
  exact nofun

theorem safe_cancelBorrowRequest {guestLinkId : Option Uuid} :
    requestDiscipline.Safe (requestDiscipline.Commit (.cancel ctx borrowRequestId))
      (cancelBorrowRequest ctx borrowRequestId guestLinkId) pending [] ks d := by
  refine safe_ofExcept fun _ hactor => ?_
  obtain ⟨hguest, hactor⟩ := Except.check_eq_ok.mp hactor
  refine safe_bind.mpr <| safe_requireBorrowRequest (A := fun _ _ => True) .const trivial ?_
  intro _ _ _ _ _ _ _ ks d v r _ hv hk _ hf
  obtain rfl := Except.ok.inj hv
  obtain ⟨hm, rfl, hl, _⟩ := fetchBorrowRequest?_eq_some.mp hf
  have h : Asked r ks d := ⟨hk, fun q hq he => Table.eq_of_key_eq hq hm he⟩
  refine safe_require fun _ => safe_require fun hp => ?_
  rw [updateBorrowRequestCancelled, ← hl]
  refine safe_bind.mpr <| safe_updateBorrowRequestRow (A := fun _ _ => True) unfiled_nil .const trivial h
    (fun _ _ _ ha => safe_bind.mpr <| safe_requireBorrowRequest_absent unfiled_nil ha) ?_
  intro pending ks d _ h
  have hid : { r with status := .cancelled }.borrowRequestId = r.borrowRequestId := rfl
  refine safe_confirm (A := fun _ _ => True) unfiled_nil hid rfl .const trivial h
    fun ks d _ h d' v he hi hv => ?_
  have h := stable_pinned.env he h
  obtain ⟨hw, v₁, hv₁, hitems⟩ := replay_update unfiled_nil hv
  obtain rfl := Except.ok.inj hv₁
  have hs : Settles d' v r { r with status := .cancelled } := ⟨h.mem, hp, rfl, rfl, rfl, hw⟩
  have hu := hi.unreviewed r h.mem (not_isDecided_of_pending hp)
  have hu : Unreviewed { r with status := .cancelled } :=
    ⟨hu.userId, hu.username, hu.userType, hu.reviewedAt⟩
  refine ⟨hs.coherent hi nofun nofun (fun _ => hu) ?_, hs.keeps h.itemLocked h.locked ?_, r, _, hs,
    rfl, rfl, hu, hguest, hl ▸ hactor, hitems⟩
  case refine_1 => exact fun i hi => ⟨i, hitems ▸ hi, rfl, rfl⟩
  case refine_2 => exact fun i hi _ => hitems ▸ hi

theorem isDecided_of_parse {decision : String} {status : BorrowRequestStatus}
    (h : parseDecision decision = .ok status) : IsDecided status := by
  simp only [parseDecision, Except.bind_eq_ok, Except.check_eq_ok, Except.pure_eq_ok] at h
  obtain ⟨_, _, _, hn, rfl⟩ := h
  cases ‹BorrowRequestStatus› <;> simp_all [IsDecided]

theorem safe_updateBorrowRequestDecision {status : BorrowRequestStatus} {reviewerUserId : Uuid}
    {username : String} {userType : UserType} {note : Option String} (hl : Unfiled log)
    (hA : requestDiscipline.Stable A) (ha : A ks d) (h : Asked r ks d)
    (hc : ∀ r', r'.borrowRequestId = r.borrowRequestId → r'.inventoryItemId = r.inventoryItemId →
      r'.localLaboratoryId = r.localLaboratoryId → r'.status = status → Reviewed r' →
      ∀ ks d, A ks d → Pinned r ks d →
        requestDiscipline.Commit role () [] (log ++ [.borrowRequests (.update r')]) ks d) :
    requestDiscipline.Safe (requestDiscipline.Commit role) (do
        updateBorrowRequestDecision r.borrowRequestId r.localLaboratoryId status reviewerUserId
          username userType note
        let _ ← requireBorrowRequest r.localLaboratoryId r.borrowRequestId) pending log ks d := by
  refine safe_select (hA.and stable_asked) ⟨ha, h⟩ fun d v _ h _ => safe_bind.mpr ?_
  refine safe_require fun _ => safe_updateBorrowRequestRow hl hA h.left h.right
    (fun _ _ _ ha => safe_bind.mpr <| safe_requireBorrowRequest_absent hl ha) ?_
  intro pending ks d ha h
  exact safe_confirm hl rfl rfl hA ha h <| hc _ rfl rfl rfl rfl ⟨rfl, rfl, rfl, rfl⟩

-- What is to be committed once the request has been decided.
theorem Settles.resolved {decision : String} (h : Settles d d' r r') (hc : Coherent d)
    (hp : Pinned r ks d) (hd : parseDecision decision = .ok r'.status) (hr : Reviewed r')
    (hactor : ctx.actor.isLabAdmin ∨ ctx.actor.isRegularUser)
    (hl : ctx.actor.laboratoryId = some r.localLaboratoryId)
    (ha : r'.status = .approved → ∃ item, Borrows d d' r item)
    (hn : r'.status = .rejected → d'.assetInventoryItems = d.assetInventoryItems) :
    Coherent d' ∧ Keeps ks d d' ∧ Effect (.resolve ctx r.borrowRequestId decision) d d' := by
  have hdecided := isDecided_of_parse hd
  refine ⟨h.coherent hc ?_ (fun _ => hr) (absurd hdecided) ?_, h.keeps hp.itemLocked hp.locked ?_,
    r, r', h, rfl, hd, hr, hactor, hl, ha, hn⟩
  case refine_1 => rcases hdecided with hs | hs <;> simp [hs]
  case refine_2 =>
    intro i hi
    rcases hdecided with hs | hs
    case inl =>
      obtain ⟨item, hb⟩ := ha hs
      exact hb.exists_item hi
    case inr => exact ⟨i, hn hs ▸ hi, rfl, rfl⟩
  case refine_3 =>
    intro i hi hk
    rcases hdecided with hs | hs
    case inl =>
      obtain ⟨item, hb⟩ := ha hs
      exact hb.mem_iff.mpr (.inl ⟨hi, fun he => hk (he.trans hb.identified ▸ hp.itemLocked)⟩)
    case inr => exact hn hs ▸ hi

theorem safe_markInventoryItemBorrowed {Q : Unit → List RowId → List Write → Set RowId → Database → Prop}
    (hA : requestDiscipline.Stable A) (ha : A ks d) (h : Holds item ks d)
    (hq : ∀ pending ks d, A ks d → Holds item ks d →
      Q () pending [.assetInventoryItems (.update { item with status := .borrowed })] ks d) :
    requestDiscipline.Safe Q (markInventoryItemBorrowed item.inventoryItemId) pending [] ks d := by
  have hH : requestDiscipline.Stable (Holds item) := stable_holds
  have hB := hA.and hH
  have hfind {ks d v} (h : Holds item ks d) (hv : replay [] d = .ok v) :
      v.assetInventoryItems.find? item.inventoryItemId = some item := by
    obtain rfl := Except.ok.inj hv
    exact Table.find?_key h.mem
  refine safe_select hB ⟨ha, h⟩ fun d v _ h hv => ?_
  simp only [hfind h.right hv]
  refine safe_lock hB h fun d _ h => safe_select hB h fun d v _ h hv => ?_
  simp only [hfind h.right hv]
  exact safe_write hB h fun d _ _ _ h _ _ => hq _ _ d h.left h.right

theorem replay_markedBorrowed (h : replay [.assetInventoryItems (.update item)] d = .ok v) :
    d.assetInventoryItems.update item = .ok v.assetInventoryItems ∧
      v.borrowRequests = d.borrowRequests := by
  simp only [replay_cons, replay_nil, Except.ok.injEq] at h
  obtain ⟨_, ha, rfl⟩ := h
  obtain ⟨hu, hd⟩ := apply_updateItem.mp ha
  exact ⟨hu, by rw [hd]⟩

theorem unfiled_markedBorrowed : Unfiled [.assetInventoryItems (.update item)] :=
  fun _ _ h => (replay_markedBorrowed h).right

theorem safe_resolveBorrowRequest {decision : String} {note : Option String} :
    requestDiscipline.Safe (requestDiscipline.Commit (.resolve ctx borrowRequestId decision))
      (resolveBorrowRequest ctx borrowRequestId decision note) pending [] ks d := by
  refine safe_ofExcept fun _ hactor => safe_ofExcept fun status hd => ?_
  obtain ⟨hresolver, hactor⟩ := Except.check_eq_ok.mp hactor
  refine safe_bind.mpr <| safe_requireBorrowRequest (A := fun _ _ => True) .const trivial ?_
  intro _ _ _ _ _ _ _ ks d v r _ hv hk _ hf
  obtain rfl := Except.ok.inj hv
  obtain ⟨hm, rfl, hl, _⟩ := fetchBorrowRequest?_eq_some.mp hf
  have h : Asked r ks d := ⟨hk, fun q hq he => Table.eq_of_key_eq hq hm he⟩
  refine safe_require fun hp => ?_
  refine safe_selectForUpdate stable_asked h (fun _ _ _ _ _ _ => trivial) fun d v _ h hv => ?_
  obtain rfl := Except.ok.inj hv
  cases hf : fetchInventoryItem? d r.inventoryItemId
  case none => trivial
  case some item =>
    obtain ⟨hm, hi⟩ := Table.find?_eq_some.mp (fetchInventoryItem?_eq_some hf)
    have hi : item.inventoryItemId = r.inventoryItemId := hi
    have hheld : Holds item (insert (.inventoryItem r.inventoryItemId) ks) d := ⟨.inl (by rw [hi]), hm⟩
    refine safe_require fun hn => ?_
    refine safe_readOnly (p := fetchUserSnapshot _) readOnly_fetch (stable_holds.and stable_asked)
      ⟨hheld, h⟩ fun _ h => ?_
    rw [← hl] at hactor ⊢
    cases status
    case approved =>
      have ha : item.status = .available := by simpa using hn
      refine safe_bind.mpr <| safe_markInventoryItemBorrowed stable_asked h.right h.left ?_
      intro pending ks d hr hh
      refine safe_updateBorrowRequestDecision unfiled_markedBorrowed stable_holds hh hr ?_
      intro r' hid hitem hlab hs hrev ks d hh hp d' v he hc hv
      have hh := stable_holds.env he hh
      have hp := stable_pinned.env he hp
      obtain ⟨hw, v₁, hv₁, hitems⟩ := replay_update unfiled_markedBorrowed hv
      have hb : Borrows d' v r item := ⟨hh.mem, hi, ha, hitems ▸ (replay_markedBorrowed hv₁).left⟩
      have hsettles : Settles d' v r r' := ⟨hp.mem, ‹_›, hid, hitem, hlab, hw⟩
      refine hsettles.resolved hc hp (hs ▸ hd) hrev hresolver hactor (fun _ => ⟨item, hb⟩) fun hn => ?_
      cases hs.symm.trans hn
    case rejected =>
      refine safe_updateBorrowRequestDecision unfiled_nil stable_holds h.left h.right ?_
      intro r' hid hitem hlab hs hrev ks d _ hp d' v he hc hv
      have hp := stable_pinned.env he hp
      obtain ⟨hw, v₁, hv₁, hitems⟩ := replay_update unfiled_nil hv
      obtain rfl := Except.ok.inj hv₁
      have hsettles : Settles d' v r r' := ⟨hp.mem, ‹_›, hid, hitem, hlab, hw⟩
      refine hsettles.resolved hc hp (hs ▸ hd) hrev hresolver hactor (fun ha => ?_) fun _ => hitems
      cases hs.symm.trans ha
    case pending | cancelled => exact absurd (isDecided_of_parse hd) nofun

theorem replay_insert (h : replay [.borrowRequests (.insert r)] d = .ok v) :
    d.borrowRequests.insert r = .ok v.borrowRequests ∧
      v.assetInventoryItems = d.assetInventoryItems := by
  simp only [replay_cons, replay_nil, Except.ok.injEq] at h
  obtain ⟨_, ha, rfl⟩ := h
  obtain ⟨hi, hf⟩ := Database.applied_of_apply ha
  exact ⟨hi, by rw [hf]⟩

theorem safe_createBorrowRequest {inventoryItemId newId : Uuid} {guestLinkId : Option Uuid}
    {requestNote : Option String} :
    requestDiscipline.Safe (requestDiscipline.Commit (.create ctx inventoryItemId))
      (createBorrowRequest ctx inventoryItemId guestLinkId requestNote newId) pending [] ks d := by
  refine safe_selectForUpdate (A := fun _ _ => True) .const trivial
    (fun _ _ _ _ _ _ => trivial) fun d v _ _ hv => ?_
  obtain rfl := Except.ok.inj hv
  cases hf : fetchInventoryItem? d inventoryItemId
  case none => trivial
  case some item =>
    obtain ⟨hm, rfl⟩ := Table.find?_eq_some.mp (fetchInventoryItem?_eq_some hf)
    have h : Holds item (insert (.inventoryItem item.inventoryItemId) ks) d := ⟨.inl rfl, hm⟩
    refine safe_require fun hl => safe_ofExcept fun _ hactor => safe_require fun ha => ?_
    obtain ⟨hguest, hactor⟩ := Except.check_eq_ok.mp hactor
    refine safe_select stable_holds h fun d v _ h hv => safe_require fun hn => ?_
    obtain rfl := Except.ok.inj hv
    have hidle : Idle item.inventoryItemId (insert (.inventoryItem item.inventoryItemId) ks) d := by
      refine ⟨h.locked, fun r hr hi hp => hn ?_⟩
      exact List.any_eq_true.mpr ⟨r, hr, by simp [IsPendingFor, hi, hp]⟩
    have hH : requestDiscipline.Stable (Holds item) := stable_holds
    have hA := hH.and (stable_idle : requestDiscipline.Stable (Idle item.inventoryItemId))
    refine safe_readOnly (p := fetchUserSnapshot _) readOnly_fetch hA ⟨h, hidle⟩ fun _ h => ?_
    refine safe_select hA h fun d v _ h _ => ?_
    change requestDiscipline.Safe _ (insertBorrowRequest _ >>= _) _ _ _ _
    refine safe_bind.mpr <| safe_require fun _ => safe_write hA h fun d _ _ _ h _ _ => ?_
    change requestDiscipline.Safe _ (requireBorrowRequest _ _ >>= _) _ _ _ _
    refine safe_bind.mpr <| safe_requireBorrowRequest hA h ?_
    intro _ _ _ _ _ _ _ ks d _ _ h _ hk _ _ d' v he hc hv
    obtain ⟨hh, hidle⟩ := hA.env he h
    obtain ⟨hi, hitems⟩ := replay_insert hv
    have hfiles : Files ctx item.inventoryItemId d' v _ item :=
      ⟨hh.mem, rfl, ha, hguest, hl ▸ hactor, rfl, ⟨rfl, rfl, rfl, rfl⟩, rfl, rfl, hl.symm, hi, hitems⟩
    exact ⟨hfiles.coherent hc hidle.idle, hfiles.keeps hh.locked hk, _, _, hfiles⟩

-- What an edit has written so far: `new` are the items that it has inserted.
inductive Editing (ks : Set RowId) (d : Database) : List Write → List Uuid → Prop
  | nil : Editing ks d [] []
  | elsewhere {log new w} : Editing ks d log new → Elsewhere w → Editing ks d (log ++ [w]) new
  | insert {log new i} : Editing ks d log new →
      Editing ks d (log ++ [.assetInventoryItems (.insert i)]) (i.inventoryItemId :: new)
  | update {log new i} : Editing ks d log new → .inventoryItem i.inventoryItemId ∈ ks →
      ((∃ i₀ ∈ d.assetInventoryItems, i₀.inventoryItemId = i.inventoryItemId ∧
        i₀.laboratoryId = i.laboratoryId) ∨ i.inventoryItemId ∈ new) →
      Editing ks d (log ++ [.assetInventoryItems (.update i)]) new
  | delete {log new k} : Editing ks d log new → .inventoryItem k ∈ ks →
      Editing ks d (log ++ [.assetInventoryItems (.delete k)]) new

theorem stable_editing : requestDiscipline.Stable fun ks d => ∃ new, Editing ks d log new where
  lock h := by
    obtain ⟨new, h⟩ := h
    refine ⟨new, ?_⟩
    induction h
    case nil => exact .nil
    case elsewhere hw ih => exact .elsewhere ih hw
    case insert ih => exact .insert ih
    case update hk ho ih => exact .update ih (.inr hk) ho
    case delete hk ih => exact .delete ih (.inr hk)
  interference hi h := by
    obtain ⟨_, ks', hd, hg, _⟩ := hi.guar
    obtain ⟨new, h⟩ := h
    refine ⟨new, ?_⟩
    induction h
    case nil => exact .nil
    case elsewhere hw ih => exact .elsewhere ih hw
    case insert ih => exact .insert ih
    case update i hk ho ih =>
      refine .update ih hk <| ho.imp_left fun ⟨i₀, hm, he, hl⟩ => ⟨i₀, ?_, he, hl⟩
      exact hg.items i₀ hm (he ▸ hd _ hk)
    case delete hk ih => exact .delete ih hk

structure Edited (new : List Uuid) (ks : Set RowId) (d v : Database) : Prop where
  items : ∀ i ∈ d.assetInventoryItems, .inventoryItem i.inventoryItemId ∉ ks →
    i ∈ v.assetInventoryItems
  requests : ∀ r ∈ d.borrowRequests, .inventoryItem r.inventoryItemId ∉ ks → r ∈ v.borrowRequests
  filed : ∀ r ∈ v.borrowRequests, r ∈ d.borrowRequests
  origin : ∀ i ∈ v.assetInventoryItems, (∃ i₀ ∈ d.assetInventoryItems,
    i₀.inventoryItemId = i.inventoryItemId ∧ i₀.laboratoryId = i.laboratoryId) ∨
    i.inventoryItemId ∈ new
  present : ∀ r ∈ v.borrowRequests, ∃ i ∈ v.assetInventoryItems,
    i.inventoryItemId = r.inventoryItemId
  inserted : ∀ k ∈ new, ∀ r ∈ v.borrowRequests, r.inventoryItemId ≠ k

variable {new : List Uuid} {k : Uuid}

theorem Edited.insert {v' : Database} (h : Edited new ks d v)
    (ha : apply (.assetInventoryItems (.insert item)) v = .ok v') :
    Edited (item.inventoryItemId :: new) ks d v' := by
  obtain ⟨hi, hd⟩ := apply_insertItem.mp ha
  have hr : v'.borrowRequests = v.borrowRequests := by rw [hd]
  have hm (i : InventoryItemRow) : i ∈ v'.assetInventoryItems ↔ i ∈ v.assetInventoryItems ∨ i = item :=
    Table.mem_insert hi
  refine ⟨fun i hm' hk => (hm i).mpr (.inl (h.items i hm' hk)), fun r hr' hk => ?_, ?_,
    fun i hi => ?_, fun r hr' => ?_, fun k hk r hr' => ?_⟩
  case refine_1 => exact hr ▸ h.requests r hr' hk
  case refine_2 => exact hr ▸ h.filed
  case refine_3 =>
    rcases (hm i).mp hi with hi | rfl
    case inl => exact (h.origin i hi).imp_right (.tail _)
    case inr => exact .inr (.head _)
  case refine_4 =>
    obtain ⟨i, hi, he⟩ := h.present r (hr ▸ hr')
    exact ⟨i, (hm i).mpr (.inl hi), he⟩
  case refine_5 =>
    rw [hr] at hr'
    rcases List.mem_cons.mp hk with rfl | hk
    case inl =>
      obtain ⟨i, hi', he⟩ := h.present r hr'
      exact he ▸ (Table.insert_eq_ok.mp hi).left i hi'
    case inr => exact h.inserted k hk r hr'

theorem Edited.update {v' : Database} (h : Edited new ks d v)
    (hk : .inventoryItem item.inventoryItemId ∈ ks)
    (ho : (∃ i₀ ∈ d.assetInventoryItems, i₀.inventoryItemId = item.inventoryItemId ∧
      i₀.laboratoryId = item.laboratoryId) ∨ item.inventoryItemId ∈ new)
    (ha : apply (.assetInventoryItems (.update item)) v = .ok v') : Edited new ks d v' := by
  obtain ⟨hu, hd⟩ := apply_updateItem.mp ha
  have hr : v'.borrowRequests = v.borrowRequests := by rw [hd]
  have hm (i : InventoryItemRow) : i ∈ v'.assetInventoryItems ↔
      (i ∈ v.assetInventoryItems ∧ i.inventoryItemId ≠ item.inventoryItemId) ∨
      (i = item ∧ ∃ i' ∈ v.assetInventoryItems, i'.inventoryItemId = item.inventoryItemId) :=
    Table.mem_update hu
  refine ⟨fun i hi hn => (hm i).mpr (.inl ⟨h.items i hi hn, fun he => hn (he ▸ hk)⟩),
    fun r hr' hn => hr ▸ h.requests r hr' hn, hr ▸ h.filed, fun i hi => ?_, fun r hr' => ?_,
    fun k hk r hr' => h.inserted k hk r (hr ▸ hr')⟩
  case refine_1 =>
    rcases (hm i).mp hi with ⟨hi, _⟩ | ⟨rfl, _⟩
    case inl => exact h.origin i hi
    case inr => exact ho
  case refine_2 =>
    obtain ⟨i, hi, he⟩ := h.present r (hr ▸ hr')
    by_cases hn : i.inventoryItemId = item.inventoryItemId
    case pos => exact ⟨item, (hm item).mpr (.inr ⟨rfl, i, hi, hn⟩), hn.symm.trans he⟩
    case neg => exact ⟨i, (hm i).mpr (.inl ⟨hi, hn⟩), he⟩

theorem Edited.delete {v' : Database} (h : Edited new ks d v) (hk : .inventoryItem k ∈ ks)
    (ha : apply (.assetInventoryItems (.delete k)) v = .ok v') : Edited new ks d v' := by
  change v.writeAssetInventoryItems (.delete k) = .ok v' at ha
  obtain ⟨_, ht, hd⟩ := Except.bind_eq_ok.mp ha
  obtain rfl := Except.ok.inj ht
  obtain rfl := Except.pure_eq_ok.mp hd
  refine ⟨fun i hi hn => Table.mem_delete.mpr ⟨h.items i hi hn, ?_⟩,
    fun r hr hn => Table.mem_filter.mpr ⟨h.requests r hr hn, ?_⟩,
    fun r hr => h.filed r (Table.mem_filter.mp hr).left,
    fun i hi => h.origin i (Table.mem_delete.mp hi).left, fun r hr => ?_,
    fun k' hk' r hr => h.inserted k' hk' r (Table.mem_filter.mp hr).left⟩
  case refine_1 =>
    intro he
    have he : i.inventoryItemId = k := he
    exact hn (he ▸ hk)
  case refine_2 =>
    refine decide_eq_true fun he => hn ?_
    rw [he]
    exact hk
  case refine_3 =>
    obtain ⟨hr, hn⟩ := Table.mem_filter.mp hr
    obtain ⟨i, hi, he⟩ := h.present r hr
    exact ⟨i, Table.mem_delete.mpr ⟨hi, fun hk => of_decide_eq_true hn (he.symm.trans hk)⟩, he⟩

theorem Editing.edited (hc : Coherent d) (h : Editing ks d log new) (hv : replay log d = .ok v) :
    Edited new ks d v := by
  induction h generalizing v
  case nil =>
    obtain rfl := Except.ok.inj hv
    refine ⟨fun i hi _ => hi, fun r hr _ => hr, fun r hr => hr, fun i hi => .inl ⟨i, hi, rfl, rfl⟩,
      fun r hr => ?_, nofun⟩
    obtain ⟨i, hi, he, _⟩ := hc.item r hr
    exact ⟨i, hi, he⟩
  case elsewhere hw ih =>
    obtain ⟨v₁, hv₁, ha⟩ := replay_concat.mp hv
    obtain ⟨hi, hr⟩ := hw v₁ v ha
    have h := ih hv₁
    exact ⟨hi ▸ h.items, hr ▸ h.requests, hr ▸ h.filed, hi ▸ h.origin, hi ▸ hr ▸ h.present,
      hr ▸ h.inserted⟩
  case insert ih =>
    obtain ⟨v₁, hv₁, ha⟩ := replay_concat.mp hv
    exact (ih hv₁).insert ha
  case update hk ho ih =>
    obtain ⟨v₁, hv₁, ha⟩ := replay_concat.mp hv
    exact (ih hv₁).update hk ho ha
  case delete hk ih =>
    obtain ⟨v₁, hv₁, ha⟩ := replay_concat.mp hv
    exact (ih hv₁).delete hk ha

theorem Edited.coherent (h : Edited new ks d v) (hc : Coherent d) : Coherent v where
  pending r₁ h₁ r₂ h₂ := hc.pending r₁ (h.filed r₁ h₁) r₂ (h.filed r₂ h₂)
  reviewed r hr := hc.reviewed r (h.filed r hr)
  unreviewed r hr := hc.unreviewed r (h.filed r hr)
  item r hr := by
    obtain ⟨i, hi, he⟩ := h.present r hr
    obtain ⟨i₁, hi₁, he₁, hl₁⟩ := hc.item r (h.filed r hr)
    refine ⟨i, hi, he, ?_⟩
    rcases h.origin i hi with ⟨i₀, hi₀, he₀, hl₀⟩ | hn
    case inl =>
      obtain rfl := Table.eq_of_key_eq hi₀ hi₁ (he₀.trans (he.trans he₁.symm))
      exact hl₀.symm.trans hl₁
    case inr => exact absurd he.symm (h.inserted _ hn r hr)

theorem safe_of_isEdit {α : Type} {p : Transaction α} (hp : IsEdit p)
    (h : ∃ new, Editing ks d log new) : requestDiscipline.Safe
      (fun _ _ log ks d => ∃ new, Editing ks d log new) p pending log ks d := by
  induction hp generalizing pending log ks d
  case elsewhere hp =>
    refine safe_writes (B := fun log ks d => ∃ new, Editing ks d log new) hp
      (fun _ => stable_editing) h fun w log ks d hw h => ?_
    obtain ⟨new, h⟩ := h
    exact ⟨new, h.elsewhere hw⟩
  case insert =>
    refine safe_write stable_editing h fun d _ _ _ h _ _ => ?_
    obtain ⟨new, h⟩ := h
    exact ⟨_, h.insert⟩
  case update id f hid hlab =>
    refine safe_select stable_editing h fun d v _ h _ => ?_
    beta_reduce
    cases v.assetInventoryItems.find? id
    case none => exact h
    case some =>
      refine safe_lock stable_editing h fun d _ h => ?_
      refine safe_select (stable_editing.and stable_locked) ⟨h, .inl rfl⟩ fun d v hc h hv => ?_
      obtain ⟨⟨new, h⟩, hk⟩ := h
      beta_reduce
      cases hf : v.assetInventoryItems.find? id
      case none => exact ⟨new, h⟩
      case some i =>
        obtain ⟨hm, rfl⟩ := Table.find?_eq_some.mp hf
        have hk : RowId.inventoryItem i.inventoryItemId ∈ insert _ _ := hk
        have ho := (h.edited hc hv).origin i hm
        rw [← hid] at hk ho
        rw [← hlab] at ho
        exact safe_write stable_editing ⟨new, h.update hk ho⟩ fun d _ _ _ h _ _ => h
  case delete id =>
    refine safe_select stable_editing h fun d v _ h _ => ?_
    beta_reduce
    cases v.assetInventoryItems.find? id
    case none => exact h
    case some =>
      refine safe_lock stable_editing h fun d _ h => ?_
      refine safe_select (stable_editing.and stable_locked) ⟨h, .inl rfl⟩ fun d v _ h _ => ?_
      obtain ⟨⟨new, h⟩, hk⟩ := h
      beta_reduce
      cases v.assetInventoryItems.find? id
      case none => exact ⟨new, h⟩
      case some => exact safe_write stable_editing ⟨new, h.delete hk⟩ fun d _ _ _ h _ _ => h
  case bind ihp ihf => exact safe_bind.mpr <| safe_mono (ihp h) fun h => ihf _ h

theorem respects_of_isEdit {p : Transaction Unit} (hp : IsEdit p) :
    requestDiscipline.Respects .edit p := by
  intro d _
  refine safe_mono (safe_of_isEdit hp ⟨[], .nil⟩) fun h d' v he hc hv => ?_
  obtain ⟨new, h⟩ := stable_editing.env he h
  have hedited := h.edited hc hv
  refine ⟨hedited.coherent hc, ⟨hedited.items, hedited.requests, fun r hr _ => ?_⟩, hedited.filed⟩
  exact hedited.filed r hr

theorem respects_of_handles [ScanOrder] {p : Transaction Unit} (h : Handles role p) :
    requestDiscipline.Respects role p := by
  cases h
  case create => exact fun _ _ => safe_createBorrowRequest
  case createRoute =>
    exact fun _ _ => safe_select (A := fun _ _ => True) .const trivial fun _ _ _ _ _ =>
      safe_createBorrowRequest
  case resolve => exact fun _ _ => safe_resolveBorrowRequest
  case cancel => exact fun _ _ => safe_cancelBorrowRequest
  case cancelRoute =>
    exact fun _ _ => safe_select (A := fun _ _ => True) .const trivial fun _ _ _ _ _ =>
      safe_cancelBorrowRequest
  case edit hp => exact respects_of_isEdit hp

end Safety

section Runs

variable {ι : Type}

abbrev RequestConfig (ι : Type) := Config ι Database RowId Write Constraint ApiError Unit

abbrev RequestAction (ι : Type) := Sql.Action ι Database RowId Write Constraint ApiError Unit

-- Each transaction does what it is meant for.
def Begins [ScanOrder] (role : ι → Role) (_ : RequestConfig ι) : RequestAction ι → Prop
  | .begin i p => Handles (role i) p
  | .step _ | .commit _ | .rollback _ => True

variable [DecidableEq ι] [ScanOrder] {role : ι → Role} {c c' c₁ c₂ c₃ : RequestConfig ι} {d d' : Database}
variable {r r' : BorrowRequestRow} {inventoryItemId : Uuid} {a : RequestAction ι}

def Available (inventoryItemId : Uuid) (d : Database) : Prop :=
  ∃ i ∈ d.assetInventoryItems, i.inventoryItemId = inventoryItemId ∧ i.status = .available

-- An edit that is committed in the course of a run.
structure EditedBetween (role : ι → Role) (c₁ e e' c₂ : RequestConfig ι) : Prop where
  before : Config.Run (Begins role) c₁ e
  edit : ∃ i, role i = .edit ∧ e.step? (.commit i) = some e'
  after : Config.Run (Begins role) e' c₂

-- The edit that is committed has deleted the item.
def DeletesItem (role : ι → Role) (inventoryItemId : Uuid) (e e' : RequestConfig ι) : Prop :=
  ∃ i s, role i = .edit ∧ e.session i = some s ∧ e.step? (.commit i) = some e' ∧
    .assetInventoryItems (.delete inventoryItemId) ∈ s.log

-- A request only leaves the state in which it is pending.
def Advances (r r' : BorrowRequestRow) : Prop :=
  r' = r ∨ (r.status = .pending ∧ (IsDecided r'.status ∨ r'.status = .cancelled))

omit [DecidableEq ι] [ScanOrder] in
theorem Settles.advances (h : Settles d d' r r') (hs : IsDecided r'.status ∨ r'.status = .cancelled)
    {q q' : BorrowRequestRow} (hq : q ∈ d.borrowRequests) (hq' : q' ∈ d'.borrowRequests)
    (he : q'.borrowRequestId = q.borrowRequestId) : Advances q q' := by
  rcases h.mem_iff.mp hq' with ⟨hq', _⟩ | rfl
  case inl => exact .inl (Table.eq_of_key_eq hq' hq he)
  case inr =>
    obtain rfl := Table.eq_of_key_eq hq h.mem (he.symm.trans h.sameRequest)
    exact .inr ⟨h.pending, hs⟩

omit [DecidableEq ι] [ScanOrder] in
theorem Effect.advances {role : Role} (h : Effect role d d') (hr : r ∈ d.borrowRequests)
    (hr' : r' ∈ d'.borrowRequests) (he : r'.borrowRequestId = r.borrowRequestId) :
    Advances r r' := by
  cases role
  case create =>
    obtain ⟨new, item, h⟩ := h
    rcases h.mem_iff.mp hr' with hr' | rfl
    case inl => exact .inl (Table.eq_of_key_eq hr' hr he)
    case inr => exact absurd he.symm <| (Table.insert_eq_ok.mp h.requests).left r hr
  case resolve =>
    obtain ⟨_, _, h⟩ := h
    exact h.advances (.inl (isDecided_of_parse h.decided)) hr hr' he
  case cancel =>
    obtain ⟨_, _, h⟩ := h
    exact h.advances (.inr h.cancelled) hr hr' he
  case edit => exact .inl (Table.eq_of_key_eq (h r' hr') hr he)

omit [DecidableEq ι] [ScanOrder] in
-- What has been settled stays as it is, unless its item is deleted.
theorem Effect.settled {role : Role} (h : Effect role d d') (hr : r ∈ d.borrowRequests)
    (hn : r.status ≠ .pending) : r ∈ d'.borrowRequests ∨ role = .edit := by
  have hsettles {q q'} (h : Settles d d' q q') : r ∈ d'.borrowRequests := by
    refine h.mem_iff.mpr (.inl ⟨hr, fun he => hn ?_⟩)
    rw [Table.eq_of_key_eq hr h.mem he]
    exact h.pending
  cases role
  case create =>
    obtain ⟨_, _, h⟩ := h
    exact .inl (h.mem_iff.mpr (.inl hr))
  case resolve | cancel =>
    obtain ⟨_, _, h⟩ := h
    exact .inl (hsettles h.toSettles)
  case edit => exact .inr rfl

omit [DecidableEq ι] [ScanOrder] in
-- Items only become available again by an edit.
theorem Effect.unavailable {role : Role} (h : Effect role d d') (hn : ¬Available inventoryItemId d) :
    ¬Available inventoryItemId d' ∨ role = .edit := by
  cases role
  case create =>
    obtain ⟨_, _, h⟩ := h
    rw [Available, h.items]
    exact .inl hn
  case cancel =>
    obtain ⟨_, _, h⟩ := h
    rw [Available, h.items]
    exact .inl hn
  case resolve =>
    obtain ⟨q, q', h⟩ := h
    rcases isDecided_of_parse h.decided with hs | hs
    case inl =>
      obtain ⟨item, hb⟩ := h.approved hs
      refine .inl fun ⟨i, hi, he, ha⟩ => ?_
      rcases hb.mem_iff.mp hi with hi | rfl
      case inl => exact hn ⟨i, hi.left, he, ha⟩
      case inr => cases ha
    case inr =>
      rw [Available, h.rejected hs]
      exact .inl hn
  case edit => exact .inr rfl

omit [DecidableEq ι] in
theorem admits_of_begins (h : Begins role c a) : requestDiscipline.Admits role c a := by
  cases a
  case begin => exact respects_of_handles h
  case commit => exact fun _ _ _ _ _ _ _ _ => trivial
  case step | rollback => trivial

theorem effect_of_step (h : requestDiscipline.Holds role c) (ha : Begins role c a)
    (hs : c.step? a = some c') :
    c'.db = c.db ∨ ∃ i, a = .commit i ∧ Effect (role i) c.db c'.db := by
  obtain ⟨_, hd⟩ := h.step (admits_of_begins ha) hs
  refine hd.imp_right fun ⟨i, ha, hg⟩ => ⟨i, ha, hg.right⟩

omit [DecidableEq ι] [ScanOrder] in
-- A request disappears with its item.
theorem deleted_of_replay {log : List Write} (hw : ∀ w ∈ log, IsEditWrite w)
    (hv : replay log d = .ok d') (hm : r ∈ d.borrowRequests) (hm' : r ∉ d'.borrowRequests) :
    .assetInventoryItems (.delete r.inventoryItemId) ∈ log := by
  induction log generalizing d
  case nil =>
    obtain rfl := Except.ok.inj hv
    exact absurd hm hm'
  case cons w log ih =>
    obtain ⟨hw, hlog⟩ := List.forall_mem_cons.mp hw
    obtain ⟨v, ha, hv⟩ := replay_cons.mp hv
    have hrest (hr : r ∈ v.borrowRequests) := List.mem_cons_of_mem w <| ih hlog hv hr
    rcases hw with hw | ⟨w, rfl⟩
    case inl => exact hrest <| (hw d v ha).right ▸ hm
    case inr =>
      cases w
      case insert => exact hrest <| (apply_insertItem.mp ha).right ▸ hm
      case update => exact hrest <| (apply_updateItem.mp ha).right ▸ hm
      case delete k =>
        by_cases hk : r.inventoryItemId = k
        case pos => exact hk ▸ .head _
        case neg =>
          refine hrest ?_
          change d.writeAssetInventoryItems (.delete k) = .ok v at ha
          obtain ⟨_, _, hd⟩ := Except.bind_eq_ok.mp ha
          obtain rfl := Except.pure_eq_ok.mp hd
          exact Table.mem_filter.mpr ⟨hm, decide_eq_true hk⟩

-- All that the open edits write.
def EditsOnly (role : ι → Role) (c : RequestConfig ι) : Prop :=
  ∀ i s, c.session i = some s → role i = .edit → s.Writes IsEditWrite

theorem EditsOnly.run (h : EditsOnly role c₁) (hr : Config.Run (Begins role) c₁ c₂) :
    EditsOnly role c₂ := by
  refine hr.writes (Q := fun i => role i = .edit) (fun _ i p hp he => ?_) h
  have hp : Handles (role i) p := hp
  rw [he] at hp
  cases hp
  case edit hp => exact hp.writes

theorem settled_of_run (h : requestDiscipline.Holds role c₁) (hw : EditsOnly role c₁)
    (hr : Config.Run (Begins role) c₁ c₂) (hm : r ∈ c₁.db.borrowRequests) (hn : r.status ≠ .pending) :
    r ∈ c₂.db.borrowRequests ∨ ∃ e e', EditedBetween role c₁ e e' c₂ ∧
      DeletesItem role r.inventoryItemId e e' ∧
      r ∈ e.db.borrowRequests ∧ r ∉ e'.db.borrowRequests := by
  induction hr
  case refl => exact .inl hm
  case step c c' a hr ha hs ih =>
    rcases ih with hm | ⟨e, e', hb, he⟩
    case inr => exact .inr ⟨e, e', ⟨hb.before, hb.edit, .step hb.after ha hs⟩, he⟩
    case inl =>
      obtain ⟨hc, _⟩ := h.run (fun _ _ => admits_of_begins) hr
      rcases effect_of_step hc ha hs with hd | ⟨i, rfl, heff⟩
      case inl => exact .inl (hd ▸ hm)
      case inr =>
        by_cases hm' : r ∈ c'.db.borrowRequests
        case pos => exact .inl hm'
        case neg =>
          have hi : role i = .edit := (heff.settled hm hn).resolve_left hm'
          obtain ⟨s, _, hsession, _, hv⟩ := Config.commit_eq_some hs
          have hdelete := deleted_of_replay ((hw.run hr) i s hsession hi).log hv hm hm'
          exact .inr ⟨c, c', ⟨hr, ⟨i, hi, hs⟩, .refl⟩, ⟨i, s, hi, hsession, hs, hdelete⟩, hm, hm'⟩

theorem available_of_run (h : requestDiscipline.Holds role c₁) (hr : Config.Run (Begins role) c₁ c₂)
    (hn : ¬Available inventoryItemId c₁.db) (ha : Available inventoryItemId c₂.db) :
    ∃ e e', EditedBetween role c₁ e e' c₂ ∧ ¬Available inventoryItemId e.db ∧
      Available inventoryItemId e'.db := by
  induction hr
  case refl => exact absurd ha hn
  case step c c' a hr hb hs ih =>
    by_cases hc : Available inventoryItemId c.db
    case pos =>
      obtain ⟨e, e', hbetween, he⟩ := ih hc
      exact ⟨e, e', ⟨hbetween.before, hbetween.edit, .step hbetween.after hb hs⟩, he⟩
    case neg =>
      obtain ⟨hholds, _⟩ := h.run (fun _ _ => admits_of_begins) hr
      rcases effect_of_step hholds hb hs with hd | ⟨i, rfl, heff⟩
      case inl => exact absurd (hd ▸ ha) hc
      case inr =>
        have hi : role i = .edit := (heff.unavailable hc).resolve_left fun hn => hn ha
        exact ⟨c, c', ⟨hr, ⟨i, hi, hs⟩, .refl⟩, hc, ha⟩

omit [DecidableEq ι] [ScanOrder] in
theorem Resolves.unavailable {ctx : LaboratoryContext} {borrowRequestId : Uuid} {decision : String}
    (h : Resolves ctx borrowRequestId decision d d' r r') (ha : r'.status = .approved) :
    Available r.inventoryItemId d ∧ ¬Available r.inventoryItemId d' := by
  obtain ⟨item, hb⟩ := h.approved ha
  refine ⟨⟨item, hb.mem, hb.identified, hb.available⟩, fun ⟨i, hi, he, hs⟩ => ?_⟩
  rcases hb.mem_iff.mp hi with hi | rfl
  case inl => exact hi.right (he.trans hb.identified.symm)
  case inr => cases hs

-- At most one request is pending for an item, whatever happens concurrently. A request is settled
-- once, by those who may do so, and an item that has been lent is not lent again until an edit makes
-- it available.
theorem requests_settle_once (hd : Coherent d) (hr : Config.Run (Begins role) (.init d) c) :
    Coherent c.db ∧
    (∀ a c', c.step? a = some c' → (∀ i, a ≠ .commit i) → c'.db = c.db) ∧
    (∀ i c', c.step? (.commit i) = some c' → Effect (role i) c.db c'.db ∧
      ∀ r ∈ c.db.borrowRequests, ∀ r' ∈ c'.db.borrowRequests,
        r'.borrowRequestId = r.borrowRequestId → Advances r r') ∧
    (∀ r ∈ c.db.borrowRequests, r.status ≠ .pending → ∀ c₂, Config.Run (Begins role) c c₂ →
      r ∈ c₂.db.borrowRequests ∨ ∃ e e', EditedBetween role c e e' c₂ ∧
        DeletesItem role r.inventoryItemId e e' ∧
        r ∈ e.db.borrowRequests ∧ r ∉ e'.db.borrowRequests) ∧
    ∀ i ctx borrowRequestId decision r r' c₁, c.step? (.commit i) = some c₁ →
      Resolves ctx borrowRequestId decision c.db c₁.db r r' → r'.status = .approved →
      ∀ c₂, Config.Run (Begins role) c₁ c₂ →
      ∀ j ctx' borrowRequestId' decision' q q' c₃, c₂.step? (.commit j) = some c₃ →
      Resolves ctx' borrowRequestId' decision' c₂.db c₃.db q q' → q'.status = .approved →
      q.inventoryItemId = r.inventoryItemId →
      ∃ e e', EditedBetween role c₁ e e' c₂ ∧ ¬Available r.inventoryItemId e.db ∧
        Available r.inventoryItemId e'.db := by
  have h : requestDiscipline.Holds role (.init d : RequestConfig ι) := .init hd
  obtain ⟨h, _⟩ := h.run (fun _ _ => admits_of_begins) hr
  have hw : EditsOnly role (.init d : RequestConfig ι) := nofun
  have hw := hw.run hr
  refine ⟨h.inv, fun a c' hs ha => Config.db_of_step hs ha, fun i c' hs => ?_,
    fun r hm hn c₂ hr₂ => settled_of_run h hw hr₂ hm hn, ?_⟩
  case refine_1 =>
    obtain ⟨s, a, hi, hp, hv⟩ := Config.commit_eq_some hs
    obtain ⟨_, _, heff⟩ := h.commit hi hp hv fun _ _ _ _ _ _ _ _ => trivial
    exact ⟨heff, fun r hm r' hm' he => heff.advances hm hm' he⟩
  case refine_2 =>
    intro i _ _ _ r r' c₁ hs hres ha c₂ hr₂ j _ _ _ q q' c₃ _ hres' ha' he
    obtain ⟨h₁, _⟩ := h.step (a := .commit i) (fun _ _ _ _ _ _ _ _ => trivial) hs
    exact available_of_run h₁ hr₂ (hres.unavailable ha).right (he ▸ (hres'.unavailable ha').left)

end Runs

section Examples

open Inventory

def lending : Database :=
  let _ := ScanOrder.stored
  let _ := tallied
  let _ := UnicodeSegmentation.characters
  ((delivery "available" 61).handle admin).after storeroom

theorem coherent_lending : Coherent lending := by
  have hr : lending.borrowRequests.rows = [] := by decide +kernel
  have hn (r : BorrowRequestRow) : r ∉ lending.borrowRequests := by
    simp [Table.mem_def, hr]
  exact ⟨fun r h => absurd h (hn r), fun r h => absurd h (hn r), fun r h => absurd h (hn r),
    fun r h => absurd h (hn r)⟩

-- A guest asks for the bottles, and the request is approved.
def clerks : Bool → Role
  | false => .create guest 61
  | true => .resolve admin 70 "approved"

def clerk : Bool → Transaction Unit
  | false => createBorrowRequest guest 61 none none 70
  | true => resolveBorrowRequest admin 70 "approved" none

theorem requests_settle_once_bottle :
    let _ := ScanOrder.stored
    ∃ c c' : RequestConfig Bool, c.step? (.commit true) = some c' ∧
      Effect (.resolve admin 70 "approved") c.db c'.db := by
  let _ := ScanOrder.stored
  let asked : List (RequestAction Bool) :=
    .begin false (clerk false) :: List.replicate 11 (.step false) ++ [.commit false]
  let decided : List (RequestAction Bool) :=
    .begin true (clerk true) :: List.replicate 21 (.step true)
  have he : ((Config.init lending : RequestConfig Bool).exec (asked ++ decided)).any
      fun c => (c.step? (.commit true)).isSome := by
    decide +kernel
  obtain ⟨c, hc, he⟩ := (Option.any_eq_true _ _).mp he
  obtain ⟨c', hs⟩ := Option.isSome_iff_exists.mp he
  have hr : Config.Run (Begins clerks) (.init lending) c := by
    refine .of_exec hc fun c a ha => ?_
    simp only [asked, decided, List.mem_append, List.mem_cons, List.mem_replicate,
      List.not_mem_nil, or_false] at ha
    rcases ha with ((rfl | ⟨_, rfl⟩) | rfl) | rfl | ⟨_, rfl⟩
    case inl.inl.inl => exact .create
    case inr.inl => exact .resolve
    all_goals trivial
  exact ⟨c, c', hs, ((requests_settle_once coherent_lending hr).right.right.left true c' hs).left⟩

end Examples

end BorrowRequests

end LabInventory
