import LabInventory.Library.ReadCommitted
import LabInventory.InventoryItems.Stock
import LabInventory.BorrowRequests.Effects
import LabInventory.Federation.Pairing.Handshake
import LabInventory.Federation.GuestLinks.Effects

open Sql Program

namespace LabInventory

namespace Federation

-- Whether a write has nothing to do with links and accounts.
def IsUnlinked : Write → Prop
  | .requestNonces _ | .borrowRequests _ | .assetInventoryItems _ | .remoteNodes (.insert _)
  | .remoteNodes (.update _) | .laboratoryTrusts _ | .pairingCodes _ => True
  | _ => False

-- What a transaction does to the links before it deletes an account: it only changes links that it
-- has locked.
structure Keeps (ks : Set RowId) (d d' : Database) : Prop where
  backed : Backed d → Backed d'
  rows : ∀ r ∈ d.guestLinks, .guestLink r.linkId ∉ ks → r ∈ d'.guestLinks
  links : ∀ e ∈ links d, ∃ e' ∈ links d', e'.linkId = e.linkId ∧ e'.remote = e.remote
  users : ∀ u ∈ d.users, u ∈ d'.users
  shadows : ∀ u ∈ d'.users, u ∈ d.users ∨ u.isFederationShadow

-- An account is deleted which no link points to.
structure Reaps (d d' : Database) (userId : Uuid) : Prop where
  shadow : ∀ u ∈ d.users, u.userId = userId → u.isFederationShadow
  unlinked : ∀ e ∈ links d, e.localGuestUserId ≠ userId
  removes : Removes d d' userId

def Guarantee (ks : Set RowId) (d d' : Database) : Prop :=
  Keeps ks d d' ∨ ∃ d₁ userId, Keeps ks d d₁ ∧ Reaps d₁ d' userId

-- No further link gets pointed to an account that another transaction is going to delete.
def LeavesAlone (pending : List RowId) (d d' : Database) : Prop :=
  ∀ u ∈ d.users, u.isFederationShadow → .guestLinksOf u.userId ∈ pending →
    ∀ e ∈ links d', e.localGuestUserId = u.userId → e ∈ links d

def linkDiscipline : Discipline Database RowId Unit where
  Inv := Backed
  Guar _ := Guarantee
  Compat := LeavesAlone

variable {ks : Set RowId} {d d' d'' : Database} {r row : GuestLinkRow}

section Guarantee

variable {k : Uuid}

theorem Keeps.refl : Keeps ks d d :=
  ⟨id, fun _ h _ => h, fun e h => ⟨e, h, rfl, rfl⟩, fun _ h => h, fun _ h => .inl h⟩

theorem Keeps.trans (h : Keeps ks d d') (h' : Keeps ks d' d'') : Keeps ks d d'' where
  backed hb := h'.backed (h.backed hb)
  rows r hr hk := h'.rows r (h.rows r hr hk) hk
  links e he := by
    obtain ⟨e', he', hi, hm⟩ := h.links e he
    obtain ⟨e'', he'', hi', hm'⟩ := h'.links e' he'
    exact ⟨e'', he'', hi'.trans hi, hm'.trans hm⟩
  users u hu := h'.users u (h.users u hu)
  shadows u hu := (h'.shadows u hu).elim (h.shadows u) .inr

theorem Reaps.links (h : Reaps d d' k) : links d' = links d := by
  rw [h.removes.links]
  exact Set.sep_eq_self_iff_mem_true.mpr h.unlinked

theorem Reaps.backed (h : Reaps d d' k) (hb : Backed d) : Backed d' := by
  intro e he
  rw [h.links] at he
  obtain ⟨u, hu⟩ := Option.isSome_iff_exists.mp (hb e he)
  rw [h.removes.users, Table.find?_delete, if_neg (h.unlinked e he), hu]
  rfl

theorem Reaps.mem_guestLinks (h : Reaps d d' k) (hr : r ∈ d.guestLinks) : r ∈ d'.guestLinks :=
  (h.removes.guestLinks r).mpr ⟨hr, h.unlinked _ (mem_links hr)⟩

-- What others may count on.
theorem Guarantee.backed (h : Guarantee ks d d') (hb : Backed d) : Backed d' := by
  rcases h with h | ⟨d₁, k, h, hd⟩
  case inl => exact h.backed hb
  case inr => exact hd.backed (h.backed hb)

theorem Guarantee.rows (h : Guarantee ks d d') (hr : r ∈ d.guestLinks)
    (hk : .guestLink r.linkId ∉ ks) : r ∈ d'.guestLinks := by
  rcases h with h | ⟨d₁, k, h, hd⟩
  case inl => exact h.rows r hr hk
  case inr => exact hd.mem_guestLinks (h.rows r hr hk)

theorem Guarantee.shadows (h : Guarantee ks d d') {u : UserRow} (hu : u ∈ d'.users) :
    u ∈ d.users ∨ u.isFederationShadow := by
  rcases h with h | ⟨d₁, k, h, hd⟩
  case inl => exact h.shadows u hu
  case inr =>
    rw [hd.removes.users, Table.mem_delete] at hu
    exact h.shadows u hu.left

theorem Guarantee.links (h : Guarantee ks d d') {e : LinkEntry} (he : e ∈ links d) :
    ∃ e' ∈ Federation.links d', e'.linkId = e.linkId ∧ e'.remote = e.remote := by
  rcases h with h | ⟨d₁, k, h, hd⟩
  case inl => exact h.links e he
  case inr => exact hd.links ▸ h.links e he

-- Accounts stay as they are, unless they are shadows to which only links point that are locked by
-- the transaction that deletes them.
theorem Guarantee.users (h : Guarantee ks d d') {u : UserRow} (hu : u ∈ d.users)
    (hn : u ∉ d'.users) : u.isFederationShadow ∧
      (∀ e ∈ Federation.links d', e.localGuestUserId ≠ u.userId) ∧
      ∀ e ∈ Federation.links d, e.localGuestUserId = u.userId → .guestLink e.linkId ∈ ks := by
  rcases h with h | ⟨d₁, k, h, hd⟩
  case inl => exact absurd (h.users u hu) hn
  case inr =>
    have hu₁ := h.users u hu
    rw [hd.removes.users, Table.mem_delete] at hn
    obtain rfl : u.userId = k := by
      by_contra hk
      exact hn ⟨hu₁, hk⟩
    refine ⟨hd.shadow u hu₁ rfl, fun e he => hd.unlinked e (hd.links ▸ he), ?_⟩
    rintro _ ⟨r, hr, rfl⟩ he
    by_contra hk
    exact hd.unlinked _ (mem_links (h.rows r hr hk)) he

end Guarantee

section Writes

variable {userId laboratoryId : Uuid} {username passwordHash : String}

theorem frame_of_unlinked {w : Write} (hw : IsUnlinked w) (h : apply w d = .ok d') :
    d'.users = d.users ∧ d'.guestLinks = d.guestLinks ∧ d'.laboratories = d.laboratories := by
  have ha := Database.applied_of_apply h
  cases w
  case requestNonces | borrowRequests | assetInventoryItems | laboratoryTrusts | pairingCodes =>
    rw [ha.right]
    exact ⟨rfl, rfl, rfl⟩
  case remoteNodes w =>
    cases w
    case delete => exact hw.elim
    all_goals
      obtain ⟨_, _, t, _, rfl⟩ := by
        simpa only [apply, Database.apply, Database.writeRemoteNodes, Except.bind_eq_ok,
          Except.pure_eq_ok] using h
      exact ⟨rfl, rfl, rfl⟩
  all_goals exact hw.elim

theorem keeps_unlinked {w : Write} (hw : IsUnlinked w) (h : apply w d = .ok d') :
    Keeps ks d d' := by
  have ⟨hus, hgs, _⟩ := frame_of_unlinked hw h
  have hl : links d' = links d := links_congr hgs
  refine ⟨fun hb e he => ?_, fun r hr _ => ?_, fun e he => ?_, fun u hu => ?_, fun u hu => ?_⟩
  case refine_1 => exact hus ▸ hb e (hl ▸ he)
  case refine_2 => exact hgs ▸ hr
  case refine_3 => exact ⟨e, hl ▸ he, rfl, rfl⟩
  case refine_4 => exact hus ▸ hu
  case refine_5 => exact .inl (hus ▸ hu)

theorem keeps_insertShadow
    (h : apply (.users <| .insert (shadowGuest userId username passwordHash laboratoryId)) d =
      .ok d') : Keeps ks d d' := by
  obtain ⟨_, hi, hd⟩ := apply_insertShadow.mp h
  have hg : d'.guestLinks = d.guestLinks := by rw [hd]
  have hl : links d' = links d := links_congr hg
  have hu u : u ∈ d'.users ↔ u ∈ d.users ∨ u = _ := Table.mem_insert hi
  refine ⟨fun hb e he => ?_, fun r hr _ => ?_, fun e he => ?_, fun u h => ?_, fun u h => ?_⟩
  case refine_1 =>
    obtain ⟨u, hf⟩ := Option.isSome_iff_exists.mp (hb e (hl ▸ he))
    obtain ⟨hm, hk⟩ := Table.find?_eq_some.mp hf
    exact Option.isSome_iff_exists.mpr ⟨u, Table.find?_eq_some.mpr ⟨(hu u).mpr (.inl hm), hk⟩⟩
  case refine_2 => exact hg ▸ hr
  case refine_3 => exact ⟨e, hl ▸ he, rfl, rfl⟩
  case refine_4 => exact (hu u).mpr (.inl h)
  case refine_5 =>
    rcases (hu u).mp h with h | rfl
    case inl => exact .inl h
    case inr => exact .inr rfl

theorem keeps_insertGuestLink (h : apply (.guestLinks <| .insert row) d = .ok d') :
    Keeps ks d d' := by
  obtain ⟨hr, hi, hd⟩ := (apply_guestLinks (.inl rfl)).mp h
  have hu : d'.users = d.users := by rw [hd]
  have hl : links d' = insert (GuestLinkRow.entry row) (links d) := links_insert hi
  refine ⟨fun hb e he => ?_, fun r hr _ => ?_, fun e he => ?_, fun u h => ?_, fun u h => ?_⟩
  case refine_1 =>
    rw [hl] at he
    rcases he with rfl | he
    case inl => exact hu ▸ hr.guest
    case inr => exact hu ▸ hb e he
  case refine_2 => exact (Table.mem_insert hi).mpr (.inl hr)
  case refine_3 => exact ⟨e, hl ▸ .inr he, rfl, rfl⟩
  case refine_4 => exact hu ▸ h
  case refine_5 => exact .inl (hu ▸ h)

-- A link that is locked can be pointed to another account.
theorem keeps_updateGuestLink (h : apply (.guestLinks <| .update row) d = .ok d')
    (hm : r ∈ d.guestLinks) (hk : r.linkId = row.linkId) (hr : r.remote = row.remote)
    (hl : .guestLink r.linkId ∈ ks) : Keeps ks d d' := by
  obtain ⟨href, hw, hd⟩ := (apply_guestLinks (.inr rfl)).mp h
  have hu : d'.users = d.users := by rw [hd]
  have hls := links_update hw hm hk
  refine ⟨fun hb e he => ?_, fun r' hr' hn => ?_, fun e he => ?_, fun u h => ?_, fun u h => ?_⟩
  case refine_1 =>
    rw [hls] at he
    rcases he with rfl | he
    case inl => exact hu ▸ href.guest
    case inr => exact hu ▸ hb e he.left
  case refine_2 =>
    refine (Table.mem_update hw).mpr (.inl ⟨hr', fun he => hn ?_⟩)
    have he' : r'.linkId = row.linkId := he
    exact he' ▸ hk ▸ hl
  case refine_3 =>
    by_cases he' : e.linkId = row.linkId
    case neg => exact ⟨e, hls ▸ .inr ⟨he, he'⟩, rfl, rfl⟩
    case pos =>
      obtain rfl := entry_eq_of_linkId_eq he (mem_links hm) (he'.trans hk.symm)
      exact ⟨GuestLinkRow.entry row, hls ▸ .inl rfl, hk.symm, hr.symm⟩
  case refine_4 => exact hu ▸ h
  case refine_5 => exact .inl (hu ▸ h)

end Writes

section Safety

open Discipline

-- What a transaction has in the end: its result, the rows that are pending, its writes and locks.
abbrev Outcome (α : Type) :=
  α → List RowId → List Write → Set RowId → Database → Prop

variable {pending : List RowId} {log : List Write} {remote : Uuid × Uuid × Uuid × Uuid}
variable {userId : Uuid}

-- A link that the transaction has locked.
def Owns (r : GuestLinkRow) (ks : Set RowId) (d : Database) : Prop :=
  .guestLink r.linkId ∈ ks ∧ r ∈ d.guestLinks

theorem stable_owns : linkDiscipline.Stable (Owns r) where
  lock h := ⟨.inr h.left, h.right⟩
  interference hi h := by
    obtain ⟨_, ks', hd, hg⟩ := hi.guar
    exact ⟨h.left, Guarantee.rows hg h.right (hd _ h.left)⟩

theorem commit_of_guarantee
    (h : ∀ d' v, linkDiscipline.Env pending ks d d' → Backed d' → replay log d' = .ok v →
      Guarantee ks d' v) : linkDiscipline.Commit () () pending log ks d :=
  fun d' v he hi hv => ⟨(h d' v he hi hv).backed hi, h d' v he hi hv⟩

theorem commit_nothing : linkDiscipline.Commit () () pending ([] : List Write) ks d :=
  commit_of_guarantee fun _ _ _ _ hv => Except.ok.inj hv ▸ .inl .refl

-- The refreshed row stands for the same remote user and the same account.
theorem safe_refreshGuestLink {Q : Outcome (Option GuestLinkIdentity)}
    {username userType : String} {linkId : Uuid}
    (hlog : ∀ (d v : Database), replay log d = .ok v → v.guestLinks = d.guestLinks)
    (hn : ∀ pending ks d, Q none pending log ks d)
    (hs : ∀ r row pending ks d, Owns r ks d → r.remote = remote →
      GuestLinkRow.entry row = GuestLinkRow.entry r →
      Q (some (GuestLinkRow.identity r)) pending (log ++ [.guestLinks (.update row)]) ks d) :
    linkDiscipline.Safe Q (refreshGuestLink remote username userType linkId) pending log ks d := by
  unfold refreshGuestLink
  refine safe_lock (A := fun _ _ => True) .const trivial fun d _ _ => ?_
  refine safe_select (A := fun ks _ => .guestLink linkId ∈ ks) ?_ (.inl rfl) fun d v _ hk hv => ?_
  case refine_1 => exact ⟨fun h => .inr h, fun _ h => h⟩
  case refine_2 =>
    beta_reduce
    cases hf : (v.guestLinks.find? linkId).filter (·.remote = remote)
    case none => exact hn _ _ _
    case some r =>
      obtain ⟨hf, hr⟩ := Option.filter_eq_some_iff.mp hf
      obtain ⟨hm, hi⟩ := Table.find?_eq_some.mp hf
      have ho : Owns r (insert (.guestLink linkId) ks) d := ⟨hi ▸ hk, hlog d v hv ▸ hm⟩
      exact safe_write stable_owns ho fun d _ _ _ ho _ _ =>
        hs r _ _ _ d ho (by simpa using hr) rfl

theorem safe_insertGuestLink {Q : Outcome GuestLinkIdentity} {laboratoryId : Uuid}
    {context : InboundFederationContext} {newLinkId guestUserId : Uuid}
    (hlog : ∀ (d v : Database), replay log d = .ok v → v.guestLinks = d.guestLinks)
    (hn : ∀ row pending ks d, Q ⟨newLinkId, guestUserId⟩ pending
      (log ++ [.guestLinks (.insert row)]) ks d)
    (hs : ∀ r row pending ks d, Owns r ks d → GuestLinkRow.entry row = GuestLinkRow.entry r →
      Q (GuestLinkRow.identity r) pending (log ++ [.guestLinks (.update row)]) ks d) :
    linkDiscipline.Safe Q (insertGuestLink newLinkId laboratoryId context guestUserId) pending log
      ks d := by
  have hi pending ks d : linkDiscipline.Safe Q
      (insertNewGuestLink newLinkId laboratoryId context guestUserId) pending log ks d :=
    safe_write (A := fun _ _ => True) .const trivial fun d _ _ _ _ _ _ => hn _ pending ks d
  refine safe_lock (A := fun _ _ => True) .const trivial fun d _ _ => ?_
  refine safe_select (A := fun _ _ => True) .const trivial fun d v _ _ _ => ?_
  beta_reduce
  cases findGuestLink (context.remote laboratoryId) v
  case none => exact hi _ _ _
  case some found =>
    refine (safe_bind (p := refreshGuestLink _ _ _ _)).mpr <| safe_refreshGuestLink hlog (hi · · ·) ?_
    exact fun r row pending ks d ho _ he => hs r row pending ks d ho he

-- All accounts with the given identifier are shadows.
def IsShadow (userId : Uuid) (d : Database) : Prop :=
  ∀ u ∈ d.users, u.userId = userId → u.isFederationShadow

theorem stable_isShadow : linkDiscipline.Stable fun _ => IsShadow userId where
  lock h := h
  interference hi h u hu hk := by
    obtain ⟨_, ks', _, hg⟩ := hi.guar
    exact (Guarantee.shadows hg hu).elim (h u · hk) id

-- A deletion either finds nothing, or the account that it has looked for.
theorem safe_deleteShadowGuest {Q : Outcome Unit} {A : Set RowId → Database → Prop} (ha : A ks d)
    (hl : ∀ {k ks d}, A ks d → A (insert k ks) d)
    (hA : ∀ {ks pending d d'}, .guestLinksOf userId ∈ pending →
      linkDiscipline.Interference pending ks d d' → A ks d → A ks d')
    (hlog : ∀ (d v : Database), replay log d = .ok v → ∀ u ∈ d.users, u ∈ v.users)
    (hn : ∀ pending ks d, A ks d → Q () pending log ks d)
    (hd : ∀ pending ks d, .guestLinksOf userId ∈ pending → A ks d → IsShadow userId d →
      Q () pending (log ++ [.users (.delete userId)]) ks d) :
    linkDiscipline.Safe Q (deleteShadowGuest userId) pending log ks d := by
  intro d₁ he _
  have ha := hl (k := .user userId) <| he.preserves (P := A ks) (hA <| .tail _ <| .head _) ha
  intro d₂ v he _ hv
  have ha := he.preserves (P := A _) (hA <| .head _) ha
  beta_reduce
  cases hf : (v.users.find? userId).filter (·.isFederationShadow)
  case none => exact hn _ _ _ ha
  case some u =>
    obtain ⟨hf, hs⟩ := Option.filter_eq_some_iff.mp hf
    obtain ⟨hm, hk⟩ := Table.find?_eq_some.mp hf
    have hu : IsShadow userId d₂ := fun u' hu' hk' => by
      rwa [Table.eq_of_key_eq (hlog _ _ hv u' hu') hm (hk'.trans hk.symm)]
    intro d₃ v₃ _ he _ _ _
    exact hd _ _ _ (.head _) (he.preserves (P := A _) (hA <| .head _) ha)
      (stable_isShadow.env he hu)

end Safety

section Respects

open Discipline

variable {pending : List RowId} {log : List Write}
variable {laboratoryId newUserId newLinkId userId : Uuid} {username passwordHash : String}
variable {context : InboundFederationContext}

theorem commit_refresh (ho : Owns r ks d) (he : GuestLinkRow.entry row = GuestLinkRow.entry r) :
    linkDiscipline.Commit () () pending [.guestLinks (.update row)] ks d := by
  refine commit_of_guarantee fun d' v henv _ hv => .inl ?_
  obtain ⟨_, hw, hv⟩ := replay_cons.mp hv
  obtain rfl := Except.ok.inj hv
  have ho := stable_owns.env henv ho
  exact keeps_updateGuestLink hw ho.right (congrArg LinkEntry.linkId he).symm
    (congrArg LinkEntry.remote he).symm ho.left

theorem respects_touchGuestLink : linkDiscipline.Respects () (touchGuestLink laboratoryId context) := by
  intro d _
  refine safe_select (A := fun _ _ => True) .const trivial fun d v _ _ _ => ?_
  beta_reduce
  cases findGuestLink (context.remote laboratoryId) v
  case none => exact commit_nothing
  case some found =>
    refine safe_refreshGuestLink (fun d v hv => by rw [Except.ok.inj hv])
      (fun _ _ _ => commit_nothing) ?_
    exact fun r row pending ks d ho _ he => commit_refresh ho he

-- The writes of a request that stores a link.
abbrev insertShadow (newUserId : Uuid) (username passwordHash : String) (laboratoryId : Uuid) :
    Write :=
  .users <| .insert (shadowGuest newUserId username passwordHash laboratoryId)

theorem commit_store : linkDiscipline.Commit () () pending
    [insertShadow newUserId username passwordHash laboratoryId, .guestLinks (.insert row)] ks d := by
  refine commit_of_guarantee fun d' v _ _ hv => .inl ?_
  simp only [replay_cons, replay_nil, Except.ok.injEq] at hv
  obtain ⟨v₁, h₁, v₂, h₂, rfl⟩ := hv
  exact (keeps_insertShadow h₁).trans (keeps_insertGuestLink h₂)

-- The account that was inserted is superfluous when the remote user has a link already.
theorem keeps_refresh {v₁ v₂ : Database} (ho : Owns r ks d)
    (he : GuestLinkRow.entry row = GuestLinkRow.entry r)
    (h₁ : apply (insertShadow newUserId username passwordHash laboratoryId) d = .ok v₁)
    (h₂ : apply (.guestLinks (.update row)) v₁ = .ok v₂) : Keeps ks d v₂ ∧ links v₂ = links d := by
  obtain ⟨_, _, hd⟩ := apply_insertShadow.mp h₁
  have hg : v₁.guestLinks = d.guestLinks := by rw [hd]
  have hm : r ∈ v₁.guestLinks := hg ▸ ho.right
  obtain ⟨_, hw, _⟩ := (apply_guestLinks (.inr rfl)).mp h₂
  constructor
  case left =>
    exact (keeps_insertShadow h₁).trans <| keeps_updateGuestLink h₂ hm
      (congrArg LinkEntry.linkId he).symm (congrArg LinkEntry.remote he).symm ho.left
  case right => exact (links_refresh hw hm he).trans (links_congr hg)

theorem commit_storeRefresh (ho : Owns r ks d)
    (he : GuestLinkRow.entry row = GuestLinkRow.entry r) : linkDiscipline.Commit () () pending
    [insertShadow newUserId username passwordHash laboratoryId, .guestLinks (.update row)] ks d := by
  refine commit_of_guarantee fun d' v henv _ hv => .inl ?_
  simp only [replay_cons, replay_nil, Except.ok.injEq] at hv
  obtain ⟨v₁, h₁, v₂, h₂, rfl⟩ := hv
  exact (keeps_refresh (stable_owns.env henv ho) he h₁ h₂).left

theorem commit_storeDelete (ho : Owns r ks d)
    (he : GuestLinkRow.entry row = GuestLinkRow.entry r) : linkDiscipline.Commit () () pending
    [insertShadow newUserId username passwordHash laboratoryId, .guestLinks (.update row),
      .users (.delete newUserId)] ks d := by
  refine commit_of_guarantee fun d' v henv hb hv => .inr ?_
  simp only [replay_cons, replay_nil, Except.ok.injEq] at hv
  obtain ⟨v₁, h₁, v₂, h₂, v₃, h₃, rfl⟩ := hv
  have ⟨hk, hl⟩ := keeps_refresh (stable_owns.env henv ho) he h₁ h₂
  obtain ⟨hi, ht, _⟩ := apply_insertShadow.mp h₁
  obtain ⟨_, _, hd⟩ := (apply_guestLinks (.inr rfl)).mp h₂
  refine ⟨v₂, newUserId, hk, ?_, ?_, removes_of_apply h₃⟩
  case refine_1 =>
    intro u hu hid
    have hu : u ∈ v₁.users := by rwa [hd] at hu
    rcases (Table.mem_insert ht).mp hu with hu | rfl
    case inl => exact absurd hid (hi.userId u hu)
    case inr => rfl
  case refine_2 =>
    intro e he' hid
    obtain ⟨u, hf⟩ := Option.isSome_iff_exists.mp (hb e (hl ▸ he'))
    obtain ⟨hm, hk⟩ := Table.find?_eq_some.mp hf
    exact hi.userId u hm (hk.trans hid)

theorem respects_storeGuestLink [UuidFormat] : linkDiscipline.Respects ()
    (storeGuestLink laboratoryId context newUserId newLinkId passwordHash) := by
  intro d _
  refine safe_lock (A := fun _ _ => True) .const trivial fun d _ _ => ?_
  refine safe_write (A := fun _ _ => True) .const trivial fun d _ _ _ _ _ _ => ?_
  have hrep (d v : Database) (hv : replay [insertShadow newUserId (shadowGuestUsername context)
      passwordHash laboratoryId] d = .ok v) : v.guestLinks = d.guestLinks := by
    obtain ⟨_, hw, hv⟩ := replay_cons.mp hv
    obtain rfl := Except.ok.inj hv
    rw [(apply_insertShadow.mp hw).right.right]
  refine (safe_bind (p := insertGuestLink _ _ _ _)).mpr <| safe_insertGuestLink hrep ?_ ?_
  case refine_1 =>
    intro row pending ks d
    simp only [ne_eq, not_true_eq_false, if_false]
    exact commit_store
  case refine_2 =>
    intro r row pending ks d ho he
    split
    case isFalse => exact commit_storeRefresh ho he
    case isTrue =>
      refine (safe_bind (p := deleteShadowGuest _)).mpr <| safe_deleteShadowGuest (A := Owns r) ho
        stable_owns.lock (fun _ => stable_owns.interference) ?_ ?_ ?_
      case refine_1 =>
        intro d v hv u hu
        simp only [List.nil_append, List.cons_append, replay_cons, replay_nil,
          Except.ok.injEq] at hv
        obtain ⟨v₁, h₁, v₂, h₂, rfl⟩ := hv
        obtain ⟨_, _, hd⟩ := (apply_guestLinks (.inr rfl)).mp h₂
        have hk : Keeps ∅ d v₁ := keeps_insertShadow h₁
        exact hd ▸ hk.users u hu
      case refine_2 => exact fun _ _ _ ho => commit_storeRefresh ho he
      case refine_3 => exact fun _ _ _ _ ho _ => commit_storeDelete ho he

-- No link other than `r` points to the account of `r`, if that is a shadow.
structure Cleared (r : GuestLinkRow) (ks : Set RowId) (d : Database) : Prop where
  owns : Owns r ks d
  unlinked : ∀ u ∈ d.users, u.userId = r.localGuestUserId → u.isFederationShadow →
    ∀ e ∈ links d, e.linkId ≠ r.linkId → e.localGuestUserId ≠ r.localGuestUserId

-- This is where a transaction relies on others to leave the account alone.
theorem Cleared.interference (hp : .guestLinksOf r.localGuestUserId ∈ pending)
    (hi : linkDiscipline.Interference pending ks d d') (h : Cleared r ks d) : Cleared r ks d' where
  owns := stable_owns.interference hi h.owns
  unlinked u' hu' hk' hs' e he hn hid := by
    obtain ⟨u, hf⟩ := Option.isSome_iff_exists.mp (hi.pre _ (mem_links h.owns.right))
    obtain ⟨hu, hk⟩ := Table.find?_eq_some.mp hf
    have hk : u.userId = r.localGuestUserId := hk
    obtain ⟨_, ks', _, hg⟩ := hi.guar
    have hs : u.isFederationShadow := by
      by_cases hm : u ∈ d'.users
      case pos => rwa [Table.eq_of_key_eq hm hu' (hk.trans hk'.symm)]
      case neg => exact (Guarantee.users hg hu hm).left
    have he : e ∈ links d := hi.compat u hu hs (hk ▸ hp) e he (hid.trans hk.symm)
    exact h.unlinked u hu hk hs e he hn hid

section Merge

variable {targetGuestUserId : Uuid}

theorem keeps_repoint {v : Database} (ho : Owns r ks d)
    (h : apply (.guestLinks (.update { r with localGuestUserId := targetGuestUserId })) d = .ok v) :
    Keeps ks d v :=
  keeps_updateGuestLink h ho.right rfl rfl ho.left

theorem commit_repoint (ho : Owns r ks d) : linkDiscipline.Commit () () pending
    [.guestLinks (.update { r with localGuestUserId := targetGuestUserId })] ks d := by
  refine commit_of_guarantee fun d' v henv _ hv => .inl ?_
  simp only [replay_cons, replay_nil, Except.ok.injEq] at hv
  obtain ⟨v, h, rfl⟩ := hv
  exact keeps_repoint (stable_owns.env henv ho) h

theorem commit_mergeDelete (hc : Cleared r ks d) (hs : IsShadow r.localGuestUserId d)
    (hp : .guestLinksOf r.localGuestUserId ∈ pending) (hn : targetGuestUserId ≠ r.localGuestUserId) :
    linkDiscipline.Commit () () pending
      [.guestLinks (.update { r with localGuestUserId := targetGuestUserId }),
        .users (.delete r.localGuestUserId)] ks d := by
  refine commit_of_guarantee fun d' v henv hb hv => .inr ?_
  simp only [replay_cons, replay_nil, Except.ok.injEq] at hv
  obtain ⟨v₁, h₁, v₂, h₂, rfl⟩ := hv
  have hc : Cleared r ks d' := henv.preserves (P := Cleared r ks) (Cleared.interference hp) hc
  have hs : IsShadow r.localGuestUserId d' := stable_isShadow.env henv hs
  obtain ⟨_, hw, hd⟩ := (apply_guestLinks (.inr rfl)).mp h₁
  refine ⟨v₁, _, keeps_repoint hc.owns h₁, ?_, ?_, removes_of_apply h₂⟩
  case refine_1 =>
    intro u hu
    rw [hd] at hu
    exact hs u hu
  case refine_2 =>
    intro e he
    rw [links_update hw hc.owns.right rfl] at he
    rcases he with rfl | ⟨he, hi⟩
    case inl => exact hn
    case inr =>
      obtain ⟨u, hf⟩ := Option.isSome_iff_exists.mp (hb _ (mem_links hc.owns.right))
      obtain ⟨hu, hk⟩ := Table.find?_eq_some.mp hf
      exact hc.unlinked u hu hk (hs u hu hk) e he hi

-- What the check of a merge has to say about the committed state.
theorem cleared_of_unlinked {v : Database} (ho : Owns r ks d)
    (hv : apply (.guestLinks (.update { r with localGuestUserId := targetGuestUserId })) d = .ok v)
    (hx : ¬guestLinkExistsForUser r.localGuestUserId v) :
    Cleared r ks d ∧ targetGuestUserId ≠ r.localGuestUserId := by
  obtain ⟨_, hw, _⟩ := (apply_guestLinks (.inr rfl)).mp hv
  have hl := links_update hw ho.right rfl
  simp only [guestLinkExistsForUser_iff, hl, not_exists, not_and] at hx
  exact ⟨⟨ho, fun _ _ _ _ e he hn => hx e (.inr ⟨he, hn⟩)⟩, hx _ (.inl rfl)⟩

theorem safe_deleteRepointed {v : Database} (ho : Owns r ks d)
    (hv : replay [.guestLinks (.update { r with localGuestUserId := targetGuestUserId })] d = .ok v)
    (hx : ¬guestLinkExistsForUser r.localGuestUserId v) :
    linkDiscipline.Safe (linkDiscipline.Commit ()) (deleteShadowGuest r.localGuestUserId) pending
      [.guestLinks (.update { r with localGuestUserId := targetGuestUserId })] ks d := by
  simp only [replay_cons, replay_nil, Except.ok.injEq] at hv
  obtain ⟨v, hv, rfl⟩ := hv
  have ⟨hc, hn⟩ := cleared_of_unlinked ho hv hx
  refine safe_deleteShadowGuest hc (fun h => ⟨stable_owns.lock h.owns, h.unlinked⟩)
    Cleared.interference ?_ ?_ ?_
  case refine_1 =>
    intro d v hv u hu
    simp only [replay_cons, replay_nil, Except.ok.injEq] at hv
    obtain ⟨v, hv, rfl⟩ := hv
    obtain ⟨_, _, hd⟩ := (apply_guestLinks (.inr rfl)).mp hv
    rwa [hd]
  case refine_2 => exact fun _ _ _ h => commit_repoint h.owns
  case refine_3 => exact fun _ _ _ hp h hs => commit_mergeDelete h hs hp hn

theorem safe_storeMerge : linkDiscipline.Safe (linkDiscipline.Commit ())
    (storeMerge laboratoryId newLinkId targetGuestUserId) pending [] ks d := by
  unfold storeMerge fetchGuestLinkUserForUpdate
  simp only [bind_assoc, pure_bind]
  refine safe_selectForUpdate (A := fun _ _ => True) .const trivial (fun _ _ _ _ _ _ => trivial)
    fun d v _ _ hv => ?_
  obtain rfl := Except.ok.inj hv
  cases hf : (d.guestLinks.find? newLinkId).filter (·.localLaboratoryId = laboratoryId)
  case none => trivial
  case some r =>
    obtain ⟨hf, hl⟩ := Option.filter_eq_some_iff.mp hf
    obtain ⟨hm, hk⟩ := Table.find?_eq_some.mp hf
    have hk : r.linkId = newLinkId := hk
    have ho : Owns r (insert (.guestLink newLinkId) ks) d := ⟨.inl (congrArg _ hk), hm⟩
    have hfind (d : Database) (hm : r ∈ d.guestLinks) :
        (d.guestLinks.find? newLinkId).filter (·.localLaboratoryId = laboratoryId) = some r :=
      Option.filter_eq_some_iff.mpr ⟨Table.find?_eq_some.mpr ⟨hm, hk⟩, hl⟩
    simp only [Option.map_some, mergeGuestLinkUser, updateGuestLinkUser, bind_assoc]
    refine safe_selectForUpdate stable_owns ho ?_ ?_
    case refine_1 =>
      intro d v _ ho hv hn
      obtain rfl := Except.ok.inj hv
      rw [hfind d ho.right] at hn
      exact absurd hn (by simp)
    case refine_2 =>
      intro d v _ ho hv
      obtain rfl := Except.ok.inj hv
      rw [hfind d ho.right]
      refine safe_write stable_owns ho fun d _ _ _ ho _ _ => ?_
      refine safe_select stable_owns ho fun d v _ ho hv => ?_
      beta_reduce
      change linkDiscipline.Safe _ (if ¬guestLinkExistsForUser r.localGuestUserId v = true then
        deleteShadowGuest r.localGuestUserId else pure ()) _ _ _ _
      split
      case isTrue hx => exact safe_deleteRepointed ho hv hx
      case isFalse => exact commit_repoint ho

theorem respects_mergeGuestLink {settings : FederationSettings} {ctx : LaboratoryContext}
    {linkId : Uuid} :
    linkDiscipline.Respects () (mergeGuestLink settings ctx linkId targetGuestUserId) := by
  intro d _
  have hA : linkDiscipline.Stable fun _ _ => True := .const
  refine safe_readOnly (p := requireFederation _) ?_ hA trivial fun _ _ => ?_
  case refine_1 => exact readOnly_require
  refine safe_readOnly (p := requirePermission _ _) ?_ hA trivial fun _ _ => ?_
  case refine_1 => exact readOnly_read.bind fun _ => readOnly_require
  refine safe_readOnly (p := validateTargetGuest _ _) ?_ hA trivial fun _ _ => ?_
  case refine_1 => exact readOnly_fetch.bind fun _ => readOnly_require
  exact safe_storeMerge

end Merge

theorem respects_unlinked {p : Transaction Unit} (hp : p.Writes IsUnlinked) :
    linkDiscipline.Respects () p := by
  refine respects_of_writes hp fun log ks d v hl hb hv => ?_
  suffices h : Keeps ks d v from ⟨h.backed hb, .inl h⟩
  clear hb
  induction log generalizing d
  case nil => exact Except.ok.inj hv ▸ .refl
  case cons w log ih =>
    obtain ⟨d', ha, hv⟩ := replay_cons.mp hv
    exact (keeps_unlinked (hl w (.head _)) ha).trans <|
      ih d' (fun w hw => hl w (.tail _ hw)) hv

end Respects

section Calls

variable [Cryptography] [Addresses] [ScanOrder]

-- The transactions of merges and of inbound requests.
inductive LinkCall
  | merge (settings : FederationSettings) (ctx : LaboratoryContext)
      (linkId targetGuestUserId : Uuid)
  | touch (laboratoryId : Uuid) (context : InboundFederationContext)
  | store (laboratoryId : Uuid) (context : InboundFederationContext) (newUserId newLinkId : Uuid)
      (passwordHash : String)
  | verify (settings : FederationSettings) (request : InboundRequest) (laboratoryId : Uuid)
  | borrow (ctx : LaboratoryContext) (request : BorrowRequests.Request)
  | accept (settings : FederationSettings) (payload : AcceptPairingJsonData) (newTrustId : Uuid)

def LinkCall.handle : LinkCall → Transaction Unit
  | merge settings ctx linkId targetGuestUserId =>
    mergeGuestLink settings ctx linkId targetGuestUserId
  | touch laboratoryId context => do
    let _ ← touchGuestLink laboratoryId context
  | store laboratoryId context newUserId newLinkId passwordHash => do
    let _ ← storeGuestLink laboratoryId context newUserId newLinkId passwordHash
  | verify settings request laboratoryId => do
    let _ ← verifyInboundRequest settings request laboratoryId
  | borrow ctx request => request.handle ctx
  | accept settings payload newTrustId => do
    let _ ← acceptPairing settings payload newTrustId

open InventoryItems BorrowRequests

variable {settings : FederationSettings} {ctx : LaboratoryContext} {laboratoryId : Uuid}

omit [Addresses] [ScanOrder] in
theorem readOnly_authenticate {request : InboundRequest} {h : FederationHeaders} :
    (authenticate request laboratoryId h).ReadOnly := by
  refine readOnly_fetch.bind fun node => readOnly_require.bind fun _ => ?_
  exact readOnly_read.bind fun _ => readOnly_require.bind fun _ =>
    readOnly_ofExcept.bind fun _ => trivial

omit [Addresses] in
theorem writes_verifyInboundRequest {request : InboundRequest} :
    (verifyInboundRequest settings request laboratoryId).Writes IsUnlinked := by
  refine readOnly_require.writes_bind fun _ => readOnly_ofExcept.writes_bind fun h => ?_
  refine readOnly_read.writes_bind fun _ => readOnly_require.writes_bind fun _ => ?_
  refine readOnly_authenticate.writes_bind fun _ => ?_
  refine (Writes.bind (p := deleteExpiredNonces) ?_ fun _ => ?_).bind fun _ => trivial
  case refine_1 =>
    refine readOnly_read.writes_bind fun now => writes_forAll fun r => ?_
    refine readOnly_read.writes_bind fun found => ?_
    cases found
    case none => trivial
    case some => exact writes_exec trivial
  case refine_2 => exact readOnly_read.writes_bind fun now => writes_exec trivial

omit [Cryptography] [Addresses] [ScanOrder] in
theorem writes_upsertRemoteNode {remoteNodeId : Uuid} {baseUrl sharedSecret secretHash : String}
    {displayName pin : Option String} {keyVersion : Int} {now : Timestamp} :
    (upsertRemoteNode remoteNodeId baseUrl displayName sharedSecret secretHash pin keyVersion
      now).Writes IsUnlinked := by
  refine Writes.bind (p := lockRow _) trivial fun _ => readOnly_read.writes_bind fun found => ?_
  cases found <;> exact (writes_exec trivial).bind fun _ => trivial

omit [Cryptography] [Addresses] [ScanOrder] in
theorem writes_upsertTrust {newTrustId remoteNodeId remoteLaboratoryId : Uuid}
    {name : Option String} :
    (upsertTrust newTrustId laboratoryId remoteNodeId remoteLaboratoryId name).Writes IsUnlinked := by
  refine Writes.bind (p := lockRow _) trivial fun _ => readOnly_read.writes_bind fun found => ?_
  cases found <;> exact (writes_exec trivial).bind fun _ => trivial

omit [ScanOrder] in
theorem writes_acceptPairing {payload : AcceptPairingJsonData} {newTrustId : Uuid} :
    (acceptPairing settings payload newTrustId).Writes IsUnlinked := by
  refine readOnly_require.writes_bind fun _ => readOnly_ofExcept.writes_bind fun baseUrl => ?_
  refine readOnly_require.writes_bind fun _ => readOnly_fetch.writes_bind fun nodeId => ?_
  refine readOnly_read.writes_bind fun now => ?_
  refine Writes.bind (p := consumePairingCode _ _) ?_ fun code => ?_
  case refine_1 =>
    refine readOnly_read.writes_bind fun code => ?_
    cases code
    case none => trivial
    case some =>
      refine Writes.bind (p := lockRow _) trivial fun _ => readOnly_read.writes_bind fun code => ?_
      cases code
      case none => trivial
      case some => exact (writes_exec trivial).bind fun _ => trivial
  case refine_2 =>
    cases code
    case none => trivial
    case some code =>
      refine readOnly_fetch.writes_bind fun laboratory => ?_
      exact writes_upsertRemoteNode.bind fun node => writes_upsertTrust.bind fun _ => trivial

omit [Cryptography] [Addresses] [ScanOrder] in
theorem writes_updateBorrowRequestRow {borrowRequestId : Uuid} {context : String}
    {f : BorrowRequestRow → BorrowRequestRow} :
    (updateBorrowRequestRow borrowRequestId laboratoryId f context).Writes IsUnlinked := by
  refine readOnly_selectForUpdate.writes_bind fun r => ?_
  cases r
  case none => trivial
  case some => exact writes_exec trivial

omit [Cryptography] [Addresses] [ScanOrder] in
theorem writes_borrowRequest {request : BorrowRequests.Request} :
    (request.handle ctx).Writes IsUnlinked := by
  cases request
  case create =>
    refine readOnly_selectForUpdate.writes_bind fun item => ?_
    cases item
    case none => trivial
    case some item =>
      refine readOnly_require.writes_bind fun _ => readOnly_ofExcept.writes_bind fun _ => ?_
      refine readOnly_require.writes_bind fun _ => readOnly_read.writes_bind fun _ => ?_
      refine readOnly_require.writes_bind fun _ => readOnly_fetch.writes_bind fun _ => ?_
      refine readOnly_read.writes_bind fun _ => Writes.bind (p := insertBorrowRequest _) ?_ fun _ => ?_
      · exact Transaction.readOnly_bindTexts.writes_bind fun _ => writes_exec trivial
      exact readOnly_requireBorrowRequest.writes_bind fun _ => trivial
  case resolve id _ note =>
    refine readOnly_ofExcept.writes_bind fun _ => readOnly_ofExcept.writes_bind fun decision => ?_
    refine readOnly_requireBorrowRequest.writes_bind fun _ => readOnly_require.writes_bind fun _ => ?_
    refine readOnly_selectForUpdate.writes_bind fun item => ?_
    cases item
    case none => trivial
    case some item =>
      refine readOnly_require.writes_bind fun _ => readOnly_fetch.writes_bind fun reviewer => ?_
      have hdecided : Writes IsUnlinked (do
          updateBorrowRequestDecision id ctx.laboratoryId decision ctx.actor.userId reviewer.1
            reviewer.2 (normalizeOptionalText note)
          let _ ← requireBorrowRequest ctx.laboratoryId id : Transaction Unit) := by
        refine Writes.bind (p := updateBorrowRequestDecision ..) ?_ fun _ => ?_
        case refine_1 =>
          refine readOnly_read.writes_bind fun _ => ?_
          exact Transaction.readOnly_bindTexts.writes_bind fun _ => writes_updateBorrowRequestRow
        case refine_2 => exact readOnly_requireBorrowRequest.writes_bind fun _ => trivial
      cases decision
      case approved =>
        refine Writes.bind (p := markInventoryItemBorrowed _) ?_ fun _ => hdecided
        refine readOnly_selectForUpdate.writes_bind fun found => ?_
        cases found
        case none => trivial
        case some => exact writes_exec trivial
      all_goals exact hdecided
  case cancel =>
    refine readOnly_ofExcept.writes_bind fun _ => ?_
    refine readOnly_requireBorrowRequest.writes_bind fun _ => ?_
    refine readOnly_require.writes_bind fun _ => readOnly_require.writes_bind fun _ => ?_
    refine writes_updateBorrowRequestRow.bind fun _ => ?_
    exact readOnly_requireBorrowRequest.writes_bind fun _ => trivial

theorem LinkCall.respects (call : LinkCall) : linkDiscipline.Respects () call.handle := by
  cases call
  case merge => exact respects_mergeGuestLink
  case touch => exact respects_touchGuestLink.discard
  case store => exact respects_storeGuestLink.discard
  case verify => exact respects_unlinked <| writes_verifyInboundRequest.bind fun _ => trivial
  case borrow => exact respects_unlinked writes_borrowRequest
  case accept => exact respects_unlinked <| writes_acceptPairing.bind fun _ => trivial

end Calls

section Runs

-- Whether writes point a link to an account.
def PointsTo (log : List Write) (userId : Uuid) : Prop :=
  ∃ r : GuestLinkRow, r.localGuestUserId = userId ∧
    (.guestLinks (.insert r) ∈ log ∨ .guestLinks (.update r) ∈ log)

theorem guestLinks_of_apply {w : Write} (h : d.apply w = .ok d') (hr : r ∈ d'.guestLinks) :
    r ∈ d.guestLinks ∨ w = .guestLinks (.insert r) ∨ w = .guestLinks (.update r) := by
  have ha := Database.applied_of_apply h
  cases w
  case guestLinks w =>
    cases w
    case insert =>
      rcases (Table.mem_insert ha.left).mp hr with hr | rfl
      case inl => exact .inl hr
      case inr => exact .inr (.inl rfl)
    case update =>
      rcases (Table.mem_update ha.left).mp hr with hr | ⟨rfl, _⟩
      case inl => exact .inl hr.left
      case inr => exact .inr (.inr rfl)
    case delete k =>
      rw [← Except.ok.inj ha.left] at hr
      exact .inl (Table.mem_delete.mp hr).left
  case users w =>
    left
    cases w
    case delete => exact ((removes_of_apply h).guestLinks r).mp hr |>.left
    all_goals
      simp only [Database.apply, Database.writeUsers, Except.bind_eq_ok, Except.pure_eq_ok] at h
      obtain ⟨_, _, _, _, rfl⟩ := h
      exact hr
  case remoteNodes w =>
    left
    cases w
    case delete =>
      obtain rfl := Except.pure_eq_ok.mp h
      exact (Table.mem_filter.mp hr).left
    all_goals
      simp only [Database.apply, Database.writeRemoteNodes, Except.bind_eq_ok,
        Except.pure_eq_ok] at h
      obtain ⟨_, _, _, _, rfl⟩ := h
      exact hr
  case tree kind w => cases kind <;> exact .inl (by rwa [ha.right] at hr)
  all_goals exact .inl (by rwa [ha.right] at hr)

theorem guestLinks_of_replay {log : List Write} {v : Database} (h : replay log d = .ok v)
    (hr : r ∈ v.guestLinks) :
    r ∈ d.guestLinks ∨ .guestLinks (.insert r) ∈ log ∨ .guestLinks (.update r) ∈ log := by
  induction log generalizing d
  case nil => exact .inl (Except.ok.inj h ▸ hr)
  case cons w log ih =>
    obtain ⟨d', ha, h⟩ := replay_cons.mp h
    rcases ih h with hm | hm | hm
    case inl =>
      rcases guestLinks_of_apply ha hm with hm | rfl | rfl
      case inl => exact .inl hm
      case inr.inl => exact .inr (.inl (.head _))
      case inr.inr => exact .inr (.inr (.head _))
    case inr.inl => exact .inr (.inl (.tail _ hm))
    case inr.inr => exact .inr (.inr (.tail _ hm))

theorem leavesAlone_of_replay {log : List Write} {v : Database} {pending : List RowId}
    (h : replay log d = .ok v) (hp : ∀ u ∈ d.users, u.isFederationShadow →
      .guestLinksOf u.userId ∈ pending → ¬PointsTo log u.userId) : LeavesAlone pending d v := by
  rintro u hu hs hm _ ⟨r, hr, rfl⟩ he
  rcases guestLinks_of_replay h hr with hr | hr
  case inl => exact mem_links hr
  case inr => exact absurd ⟨r, he, hr⟩ (hp u hu hs hm)

variable {ι : Type}

abbrev LinkConfig (ι : Type) := Config ι Database RowId Write Constraint ApiError Unit

abbrev LinkAction (ι : Type) := Sql.Action ι Database RowId Write Constraint ApiError Unit

-- Every transaction is a merge or belongs to an inbound request.
def Calls [Cryptography] [Addresses] [ScanOrder] : LinkAction ι → Prop
  | .begin _ p => ∃ call : LinkCall, p = call.handle
  | .step _ | .commit _ | .rollback _ => True

-- No transaction that points a link to a shadow account commits while another one is about to delete
-- that account.
def Apart (c : LinkConfig ι) : LinkAction ι → Prop
  | .commit i => ∀ s, c.session i = some s → ∀ j s', j ≠ i → c.session j = some s' →
    ∀ u ∈ c.db.users, u.isFederationShadow → .guestLinksOf u.userId ∈ s'.unreached →
      ¬PointsTo s.log u.userId
  | .begin _ _ | .step _ | .rollback _ => True

variable [Cryptography] [Addresses] [ScanOrder] [DecidableEq ι] {c c' : LinkConfig ι}
variable {a : LinkAction ι}

omit [DecidableEq ι] in
theorem admits_of_apart (hc : Calls a) (ha : Apart c a) :
    linkDiscipline.Admits (fun _ => ()) c a := by
  cases a
  case begin i p =>
    obtain ⟨call, rfl⟩ := hc
    exact call.respects
  case commit i =>
    exact fun s v hs hv j s' hj hs' => leavesAlone_of_replay hv (ha s hs j s' hj hs')
  case step | rollback => trivial

omit [Cryptography] [Addresses] [ScanOrder] [DecidableEq ι] in
theorem exists_link_of_commits (h : Relation.ReflTransGen (fun d d' => linkDiscipline.Inv d ∧
      linkDiscipline.Inv d' ∧ ∃ r ks, linkDiscipline.Guar r ks d d') d d')
    {e : LinkEntry} (he : e ∈ links d) :
    ∃ e' ∈ links d', e'.linkId = e.linkId ∧ e'.remote = e.remote := by
  induction h
  case refl => exact ⟨e, he, rfl, rfl⟩
  case tail hg ih =>
    obtain ⟨_, _, _, ks, hg⟩ := hg
    obtain ⟨e', he', hi, hm⟩ := ih
    obtain ⟨e'', he'', hi', hm'⟩ := Guarantee.links hg he'
    exact ⟨e'', he'', hi'.trans hi, hm'.trans hm⟩

-- As long as that is the case, no link is lost. Accounts are only deleted if they are shadows, and if
-- no link points to them but those which the deleting transaction itself points elsewhere.
theorem merges_keep_links (hd : Backed d)
    (hr : Config.Run (fun c a => Calls a ∧ Apart c a) (.init d) c) :
    Backed c.db ∧ (∀ e ∈ links d, ∃ e' ∈ links c.db, e'.linkId = e.linkId ∧ e'.remote = e.remote) ∧
    ∀ a c', Calls a → Apart c a → c.step? a = some c' →
      (∀ e ∈ links c.db, ∃ e' ∈ links c'.db, e'.linkId = e.linkId ∧ e'.remote = e.remote) ∧
      ∀ u ∈ c.db.users, u ∉ c'.db.users → u.isFederationShadow ∧
        (∀ e ∈ links c'.db, e.localGuestUserId ≠ u.userId) ∧
        ∃ i, a = .commit i ∧ ∀ e ∈ links c.db, e.localGuestUserId = u.userId →
          .guestLink e.linkId ∈ c.locks i := by
  have hA (c : LinkConfig ι) (a : LinkAction ι) (h : Calls a ∧ Apart c a) :
      linkDiscipline.Admits (fun _ => ()) c a := admits_of_apart h.left h.right
  obtain ⟨hc, hg⟩ := (Discipline.Holds.init hd).run hA hr
  refine ⟨hc.inv, fun e he => exists_link_of_commits hg he, fun a c' hcall ha hs => ?_⟩
  obtain ⟨_, hdb | ⟨i, rfl, hg⟩⟩ := hc.step (admits_of_apart hcall ha) hs
  case inl =>
    rw [hdb]
    exact ⟨fun e he => ⟨e, he, rfl, rfl⟩, fun u hu hn => absurd hu hn⟩
  case inr =>
    refine ⟨fun e he => Guarantee.links hg he, fun u hu hn => ?_⟩
    have ⟨hsh, hl, hks⟩ := Guarantee.users hg hu hn
    exact ⟨hsh, hl, i, rfl, hks⟩

end Runs

section Examples

def guestLink (linkId remoteUserId localGuestUserId : Uuid) : GuestLinkRow where
  linkId := linkId
  localLaboratoryId := 1
  remoteNodeId := 7
  remoteLaboratoryId := 2
  remoteUserId := remoteUserId
  remoteUsername := "visitor"
  remoteUserType := "user"
  localGuestUserId := localGuestUserId

-- Two remote users with shadow accounts, and a guest who has an account of her own.
def visited : Database where
  __ := paired
  users := ⟨[
    shadowGuest 20 "fed_a" "hash" 1,
    shadowGuest 21 "fed_b" "hash" 1,
    { shadowGuest 30 "carol" "hash" 1 with isFederationShadow := false }
  ], by decide, by decide⟩
  guestLinks := ⟨[guestLink 41 5 20, guestLink 42 6 21], by decide, by decide⟩

def carolsMerge (linkId : Uuid) : Transaction Unit :=
  mergeGuestLink defaultSettings officeAdmin linkId 30

-- The other link is merged into the account 20, after it was found that nobody else needs it.
def crossing : List (LinkAction Bool) :=
  [.begin false (carolsMerge 41)] ++ List.replicate 10 (.step false) ++
  [.begin true (mergeGuestLink defaultSettings officeAdmin 42 20)] ++
  List.replicate 13 (.step true) ++ [.commit true] ++
  List.replicate 3 (.step false) ++ [.commit false]

theorem backed_visited : Backed visited := by
  rintro _ ⟨r, hr, rfl⟩
  have hr : r ∈ visited.guestLinks.rows := hr
  rcases List.mem_cons.mp hr with rfl | hr
  case inl => rfl
  case inr => exact List.mem_singleton.mp hr ▸ rfl

theorem crossing_merges_lose_link :
    let _ := hyphenated
    let _ := Cryptography.standard
    let _ := exampleAddresses
    let _ := ScanOrder.stored
    Backed visited ∧ ∃ c : LinkConfig Bool, Config.Run (fun _ => Calls) (.init visited) c ∧
      ∃ e ∈ links visited, ∀ e' ∈ links c.db, e'.linkId ≠ e.linkId := by
  let _ := hyphenated
  let _ := Cryptography.standard
  let _ := exampleAddresses
  let _ := ScanOrder.stored
  have he : ((Config.init visited : LinkConfig Bool).exec crossing).map
      (fun c => c.db.guestLinks.rows.map (·.linkId)) = some [41] := by decide +kernel
  obtain ⟨c, he, hl⟩ := Option.map_eq_some_iff.mp he
  refine ⟨backed_visited, c, .of_exec he fun c a ha => ?_, GuestLinkRow.entry (guestLink 42 6 21),
    mem_links (.tail _ (.head _)), ?_⟩
  case refine_1 =>
    cases a
    case begin i p =>
      have hp : i = false ∧ p = carolsMerge 41 ∨
          i = true ∧ p = mergeGuestLink defaultSettings officeAdmin 42 20 := by
        simpa [crossing] using ha
      rcases hp with ⟨_, rfl⟩ | ⟨_, rfl⟩ <;> exact ⟨.merge .., rfl⟩
    case step | commit | rollback => trivial
  case refine_2 =>
    rintro _ ⟨r, hr, rfl⟩
    have hk : r.linkId ∈ c.db.guestLinks.rows.map (·.linkId) := List.mem_map_of_mem hr
    rw [hl] at hk
    have hk : (GuestLinkRow.entry r).linkId = 41 := List.mem_singleton.mp hk
    exact hk ▸ by decide

-- The account 30 is nobody's shadow, and the transaction points links to no other account.
def PointsToCarol (c : LinkConfig Bool) (i : Bool) : Prop :=
  (∀ u ∈ c.db.users.rows, u.isFederationShadow → u.userId ≠ 30) ∧
  (c.session i).all fun s => s.log.all fun
    | .guestLinks (.insert r) | .guestLinks (.update r) => r.localGuestUserId = 30
    | _ => true

instance {c : LinkConfig Bool} {i : Bool} : Decidable (PointsToCarol c i) :=
  inferInstanceAs <| Decidable (_ ∧ _ = true)

theorem PointsToCarol.apart {c : LinkConfig Bool} {i : Bool} (h : PointsToCarol c i) :
    Apart c (.commit i) := by
  rintro s hs _ _ _ _ u hu hshadow _ ⟨r, hr, hw⟩
  obtain ⟨hcarol, hlog⟩ := h
  simp only [hs, Option.all_some, List.all_eq_true] at hlog
  have hr' : r.localGuestUserId = 30 := hw.elim (fun hw => by simpa using hlog _ hw) fun hw => by
    simpa using hlog _ hw
  exact hcarol u hu hshadow <| hr.symm.trans hr'

-- Both of the remote users are merged into the account of carol at once. The second merge is under
-- way by the time the first one commits.
theorem merges_keep_links_carol :
    let _ := hyphenated
    let _ := Cryptography.standard
    let _ := exampleAddresses
    let _ := ScanOrder.stored
    ∃ c : LinkConfig Bool, c.db.users.rows.map (·.userId) = [30] ∧ Backed c.db ∧
      ∀ e ∈ links visited, ∃ e' ∈ links c.db, e'.linkId = e.linkId ∧ e'.remote = e.remote := by
  let _ := hyphenated
  let _ := Cryptography.standard
  let _ := exampleAddresses
  let _ := ScanOrder.stored
  let as : List (LinkAction Bool) :=
    .begin false (carolsMerge 41) :: .begin true (carolsMerge 42) ::
      (List.replicate 3 (.step true) ++ List.replicate 13 (.step false))
  let as' : List (LinkAction Bool) := List.replicate 10 (.step true)
  have he : ((Config.init visited : LinkConfig Bool).exec as).any fun c₁ =>
      PointsToCarol c₁ false ∧ (c₁.step? (.commit false)).any fun c₂ =>
        (c₂.exec as').any fun c₃ =>
          PointsToCarol c₃ true ∧ (c₃.step? (.commit true)).any fun c₄ =>
            c₄.db.users.rows.map (·.userId) = [30] := by
    decide +kernel
  obtain ⟨c₁, he₁, h⟩ := (Option.any_eq_true _ _).mp he
  obtain ⟨hp₁, h⟩ := of_decide_eq_true h
  obtain ⟨c₂, hs₂, h⟩ := (Option.any_eq_true _ _).mp h
  obtain ⟨c₃, he₃, h⟩ := (Option.any_eq_true _ _).mp h
  obtain ⟨hp₃, h⟩ := of_decide_eq_true h
  obtain ⟨c₄, hs₄, hu⟩ := (Option.any_eq_true _ _).mp h
  have hr₁ : Config.Run (fun c a => Calls a ∧ Apart c a) (.init visited) c₁ := by
    refine .of_exec he₁ fun c a ha => ?_
    rcases List.mem_cons.mp ha with rfl | ha
    case inl => exact ⟨⟨.merge .., rfl⟩, trivial⟩
    case inr =>
      rcases List.mem_cons.mp ha with rfl | ha
      case inl => exact ⟨⟨.merge .., rfl⟩, trivial⟩
      case inr =>
        rcases List.mem_append.mp ha with ha | ha
        all_goals exact List.eq_of_mem_replicate ha ▸ ⟨trivial, trivial⟩
  have hr₂ := hr₁.step (a := .commit false) ⟨trivial, hp₁.apart⟩ hs₂
  have hr₃ := hr₂.trans <| .of_exec he₃ fun _ _ ha => List.eq_of_mem_replicate ha ▸ ⟨trivial, trivial⟩
  have hr₄ := hr₃.step (a := .commit true) ⟨trivial, hp₃.apart⟩ hs₄
  have ⟨hb, hl, _⟩ := merges_keep_links backed_visited hr₄
  exact ⟨c₄, of_decide_eq_true hu, hb, hl⟩

end Examples

end Federation

end LabInventory
