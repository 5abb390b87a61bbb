import Mathlib.Data.Set.Insert
import LabInventory.Federation.GuestLinks.Basic

open Sql Program

namespace LabInventory

namespace Federation

-- What stays the same of a guest link when it is refreshed.
structure LinkEntry where
  linkId : Uuid
  remote : Uuid × Uuid × Uuid × Uuid
  localGuestUserId : Uuid

def GuestLinkRow.entry (r : GuestLinkRow) : LinkEntry where
  linkId := r.linkId
  remote := r.remote
  localGuestUserId := r.localGuestUserId

def links (d : Database) : Set LinkEntry :=
  { e | ∃ r ∈ d.guestLinks, GuestLinkRow.entry r = e }

variable {R : ApiError → Prop} {d d' : Database} {r r₁ r₂ : GuestLinkRow} {e e₁ e₂ : LinkEntry}

section Rows

theorem mem_links (h : r ∈ d.guestLinks) : GuestLinkRow.entry r ∈ links d :=
  ⟨r, h, rfl⟩

theorem links_congr (h : d'.guestLinks = d.guestLinks) : links d' = links d := by
  rw [links, h, links]

theorem eq_of_remote_eq (h₁ : r₁ ∈ d.guestLinks) (h₂ : r₂ ∈ d.guestLinks)
    (h : r₁.remote = r₂.remote) : r₁ = r₂ := by
  have hi : (⟨Constraint.guestLinksKey, Uuid × Uuid × Uuid × Uuid, (some ·.remote)⟩ :
      UniqueIndex GuestLinkRow Constraint) ∈ TableSchema.indexes := .head _
  exact Table.eq_of_clash hi h₁ h₂ ⟨by simp, congrArg some h⟩

theorem entry_eq_of_linkId_eq (h₁ : e₁ ∈ links d) (h₂ : e₂ ∈ links d)
    (h : e₁.linkId = e₂.linkId) : e₁ = e₂ := by
  obtain ⟨r₁, h₁, rfl⟩ := h₁
  obtain ⟨r₂, h₂, rfl⟩ := h₂
  rw [Table.eq_of_key_eq h₁ h₂ h]

theorem entry_eq_of_remote_eq (h₁ : e₁ ∈ links d) (h₂ : e₂ ∈ links d)
    (h : e₁.remote = e₂.remote) : e₁ = e₂ := by
  obtain ⟨r₁, h₁, rfl⟩ := h₁
  obtain ⟨r₂, h₂, rfl⟩ := h₂
  rw [eq_of_remote_eq h₁ h₂ h]

theorem findGuestLink_eq_some {remote} :
    findGuestLink remote d = some r ↔ r ∈ d.guestLinks ∧ r.remote = remote := by
  constructor
  case mp =>
    intro h
    exact ⟨List.mem_of_find?_eq_some h, by simpa using List.find?_some h⟩
  case mpr =>
    rintro ⟨hm, hr⟩
    cases h : findGuestLink remote d
    case none =>
      have hn := List.find?_eq_none.mp h r hm
      simp [hr] at hn
    case some r' =>
      have hm' : r' ∈ d.guestLinks := List.mem_of_find?_eq_some h
      have hr' : r'.remote = remote := by simpa using List.find?_some h
      rw [eq_of_remote_eq hm hm' (hr.trans hr'.symm)]

theorem findGuestLink_eq_none {remote} :
    findGuestLink remote d = none ↔ ∀ e ∈ links d, e.remote ≠ remote := by
  have h : findGuestLink remote d = none ↔ ∀ r ∈ d.guestLinks, r.remote ≠ remote := by
    simp [findGuestLink, Table.mem_def]
  rw [h]
  constructor
  case mp =>
    rintro h _ ⟨r, hr, rfl⟩
    exact h r hr
  case mpr => exact fun h r hr => h _ (mem_links hr)

theorem guestLinkExistsForUser_iff {userId : Uuid} :
    guestLinkExistsForUser userId d ↔ ∃ e ∈ links d, e.localGuestUserId = userId := by
  simp only [guestLinkExistsForUser, List.any_eq_true, decide_eq_true_eq]
  constructor
  case mp =>
    rintro ⟨r, hr, hu⟩
    exact ⟨_, mem_links hr, hu⟩
  case mpr =>
    rintro ⟨_, ⟨r, hr, rfl⟩, hu⟩
    exact ⟨r, hr, hu⟩

end Rows

section Writes

theorem clash?_guestLink {t : Table GuestLinkRow} : t.clash? r = none ↔
    ∀ r' ∈ t, r'.remote = r.remote → r'.linkId = r.linkId := by
  simp only [Table.clash?_eq_none, conflict?_eq_none, TableSchema.indexes, TableSchema.key,
    List.forall_mem_singleton, UniqueIndex.Clash]
  grind

-- What a guest link refers to.
structure Referring (d : Database) (r : GuestLinkRow) : Prop where
  valid : r.IsValid
  laboratory : (d.laboratories.find? r.localLaboratoryId).isSome
  remoteNode : (d.remoteNodes.find? r.remoteNodeId).isSome
  guest : (d.users.find? r.localGuestUserId).isSome

theorem apply_guestLinks {w : RowWrite GuestLinkRow Uuid} (hw : w = .insert r ∨ w = .update r) :
    d.apply (.guestLinks w) = .ok d' ↔ Referring d r ∧
      d.guestLinks.write w = .ok d'.guestLinks ∧ d' = { d with guestLinks := d'.guestLinks } := by
  obtain rfl | rfl := hw <;>
  · simp only [Database.apply, Database.writeGuestLinks, Except.bind_eq_ok, Except.check_eq_ok,
      Except.pure_eq_ok]
    constructor
    case mp =>
      rintro ⟨_, hv, t, ht, _, hl, _, hn, _, hu, rfl⟩
      exact ⟨⟨hv, hl, hn, hu⟩, ht, rfl⟩
    case mpr =>
      rintro ⟨h, ht, he⟩
      exact ⟨(), h.valid, _, ht, (), h.laboratory, (), h.remoteNode, (), h.guest, he.symm⟩

theorem links_insert (h : d.guestLinks.insert r = .ok d'.guestLinks) :
    links d' = insert (GuestLinkRow.entry r) (links d) := by
  ext e
  simp only [links, Table.mem_insert h, Set.mem_ofPred_eq, Set.mem_insert_iff]
  grind

theorem links_update (h : d.guestLinks.update r = .ok d'.guestLinks) (hm : r₁ ∈ d.guestLinks)
    (hk : r₁.linkId = r.linkId) :
    links d' = insert (GuestLinkRow.entry r) { e ∈ links d | e.linkId ≠ r.linkId } := by
  ext e
  simp only [links, Table.mem_update h, Set.mem_ofPred_eq, Set.mem_insert_iff, TableSchema.key]
  constructor
  case mp =>
    rintro ⟨r', ⟨hr, hn⟩ | ⟨rfl, _⟩, rfl⟩
    case inl => exact .inr ⟨⟨r', hr, rfl⟩, hn⟩
    case inr => exact .inl rfl
  case mpr =>
    rintro (rfl | ⟨⟨r', hr, rfl⟩, hn⟩)
    case inl => exact ⟨r, .inr ⟨rfl, r₁, hm, hk⟩, rfl⟩
    case inr => exact ⟨r', .inl ⟨hr, hn⟩, rfl⟩

theorem links_refresh (h : d.guestLinks.update r = .ok d'.guestLinks) (hm : r₁ ∈ d.guestLinks)
    (he : GuestLinkRow.entry r = GuestLinkRow.entry r₁) : links d' = links d := by
  have hk : r.linkId = r₁.linkId := congrArg LinkEntry.linkId he
  rw [links_update h hm hk.symm, he]
  ext e
  constructor
  case mp =>
    rintro (rfl | h)
    case inl => exact mem_links hm
    case inr => exact h.left
  case mpr =>
    intro h
    by_cases hn : e.linkId = r.linkId
    case pos => exact .inl (entry_eq_of_linkId_eq h (mem_links hm) (hn.trans hk))
    case neg => exact .inr ⟨h, hn⟩

-- A user disappears together with the links that point to the account.
structure Removes (d d' : Database) (userId : Uuid) : Prop where
  users : d'.users = d.users.delete userId
  guestLinks : ∀ r, r ∈ d'.guestLinks ↔ r ∈ d.guestLinks ∧ r.localGuestUserId ≠ userId
  frame : d' = { d with
    users := d'.users
    borrowRequests := d'.borrowRequests
    guestLinks := d'.guestLinks
    guestRegistrationCodes := d'.guestRegistrationCodes
  }

theorem Removes.links {k : Uuid} (h : Removes d d' k) :
    links d' = { e ∈ links d | e.localGuestUserId ≠ k } := by
  ext e
  simp only [Federation.links, h.guestLinks, Set.mem_ofPred_eq]
  constructor
  case mp =>
    rintro ⟨r, ⟨hr, hn⟩, rfl⟩
    exact ⟨⟨r, hr, rfl⟩, hn⟩
  case mpr =>
    rintro ⟨⟨r, hr, rfl⟩, hn⟩
    exact ⟨r, ⟨hr, hn⟩, rfl⟩

theorem removes_of_apply {k : Uuid} (h : d.apply (.users <| .delete k) = .ok d') :
    Removes d d' k := by
  have ha := Database.applied_of_apply h
  simp only [Database.apply, Database.writeUsers, Except.bind_eq_ok, Except.check_eq_ok,
    Except.pure_eq_ok] at h
  obtain ⟨t, ht, _, _, rfl⟩ := h
  exact ⟨(Except.ok.inj ht).symm, fun r => by simp [Database.deleteGuestLinks], ha.right⟩

end Writes

section Users

def shadowGuest (userId : Uuid) (username passwordHash : String) (laboratoryId : Uuid) : UserRow where
  userId := userId
  username := username
  passwordHash := passwordHash
  userType := .guest
  laboratoryId := some laboratoryId
  email := none
  phoneNumber := none
  description := none
  isFederationShadow := true

variable {userId laboratoryId : Uuid} {username passwordHash : String}

theorem clash?_shadowGuest {t : Table UserRow} :
    t.clash? (shadowGuest userId username passwordHash laboratoryId) = none ↔
      ∀ u ∈ t, u.username = username → u.userId = userId := by
  simp only [Table.clash?_eq_none, conflict?_eq_none, TableSchema.indexes, TableSchema.key,
    List.forall_mem_cons, UniqueIndex.Clash, shadowGuest]
  grind

-- Whether a shadow account can be inserted.
structure Insertable (d : Database) (userId : Uuid) (username : String) (laboratoryId : Uuid) :
    Prop where
  userId : ∀ u ∈ d.users, u.userId ≠ userId
  username : ∀ u ∈ d.users, u.username ≠ username
  laboratory : (d.laboratories.find? laboratoryId).isSome

theorem apply_insertShadow :
    d.apply (.users <| .insert (shadowGuest userId username passwordHash laboratoryId)) = .ok d' ↔
      Insertable d userId username laboratoryId ∧ d.users.insert
        (shadowGuest userId username passwordHash laboratoryId) = .ok d'.users ∧
      d' = { d with users := d'.users } := by
  simp only [Database.apply, Database.writeUsers, Table.write, Except.bind_eq_ok, Except.check_eq_ok,
    Except.pure_eq_ok]
  constructor
  case mp =>
    rintro ⟨t, ht, _, hl, rfl⟩
    obtain ⟨hk, hc, _⟩ := Table.insert_eq_ok.mp ht
    refine ⟨⟨hk, fun u hu hn => hk u hu ?_, by simpa [shadowGuest] using hl⟩, ht, rfl⟩
    exact clash?_shadowGuest.mp hc u hu hn
  case mpr =>
    rintro ⟨h, ht, he⟩
    exact ⟨_, ht, (), by simpa [shadowGuest] using h.laboratory, he.symm⟩

theorem wp_insertShadowGuest (hR : ¬Insertable d userId username laboratoryId → ∀ e, R e) :
    (insertShadowGuest userId username passwordHash laboratoryId).wp (fun _ => True) R
      (fun _ d' => Insertable d userId username laboratoryId ∧ d' = { d with users := d'.users } ∧
        ∀ u, u ∈ d'.users ↔ u ∈ d.users ∨
          u = shadowGuest userId username passwordHash laboratoryId) d := by
  simp only [insertShadowGuest, wp_bind, wp_lockRow]
  refine wp_exec.mpr ⟨fun d' ha => ⟨trivial, ?_⟩, fun c hc => hR (fun h => ?_) _⟩
  case refine_1 =>
    obtain ⟨h, hi, he⟩ := apply_insertShadow.mp ha
    exact ⟨h, he, fun u => Table.mem_insert hi⟩
  case refine_2 =>
    obtain ⟨t, ht⟩ := Table.exists_insert h.userId (clash?_shadowGuest.mpr fun u hu hn =>
      absurd hn (h.username u hu))
    have hok : d.apply (.users <| .insert (shadowGuest userId username passwordHash laboratoryId)) =
        .ok { d with users := t } := apply_insertShadow.mpr ⟨h, ht, rfl⟩
    exact absurd (hok.symm.trans hc) (by simp)

def Drops (d d' : Database) (userId : Uuid) : Prop :=
  ((∀ u ∈ d.users, u.userId = userId → u.isFederationShadow = false) ∧ d' = d) ∨
  ((∃ u ∈ d.users, u.userId = userId ∧ u.isFederationShadow) ∧ Removes d d' userId)

theorem wp_deleteShadowGuest
    (hR : (∃ f ∈ d.fileUploads, f.uploadedByUserId = userId) → ∀ e, R e) :
    (deleteShadowGuest userId).wp (fun _ => True) R (fun _ d' => Drops d d' userId) d := by
  simp only [deleteShadowGuest, wp_bind, wp_lock, wp_read, wp_done]
  cases hf : (d.users.find? userId).filter (·.isFederationShadow)
  case none =>
    refine .inl ⟨fun u hu hk => ?_, rfl⟩
    have hu' : d.users.find? userId = some u := Table.find?_eq_some.mpr ⟨hu, hk⟩
    rw [hu', Option.filter_eq_none_iff] at hf
    simpa using hf
  case some u =>
    obtain ⟨hu, hs⟩ := Option.filter_eq_some_iff.mp hf
    obtain ⟨hm, hk⟩ := Table.find?_eq_some.mp hu
    refine wp_exec.mpr ⟨fun d' ha => ⟨trivial, .inr ⟨⟨u, hm, hk, hs⟩, ?_⟩⟩, fun c hc => hR ?_ _⟩
    case refine_1 => exact removes_of_apply ha
    case refine_2 =>
      by_contra hn
      have hn' : ¬d.fileUploads.rows.any (·.uploadedByUserId = userId) := by
        simpa [Table.mem_def] using hn
      have hc' : d.writeUsers (.delete userId) = .error c := hc
      simp [Database.writeUsers, Table.write, hn', bind, Except.bind, Except.check, pure,
        Except.pure] at hc'

end Users

section Requests

variable {laboratoryId newUserId newLinkId : Uuid} {context : InboundFederationContext}

-- What is known about a remote user whose request was verified.
structure Known (d : Database) (laboratoryId : Uuid) (context : InboundFederationContext) : Prop where
  username : context.remoteUsername ≠ ""
  userType : context.remoteUserType = "lab_admin" ∨ context.remoteUserType = "user"
  laboratory : (d.laboratories.find? laboratoryId).isSome
  remoteNode : (d.remoteNodes.find? context.remoteNode.remoteNodeId).isSome

-- The accounts that the guest links point to exist.
def Backed (d : Database) : Prop :=
  ∀ e ∈ links d, (d.users.find? e.localGuestUserId).isSome

theorem Known.referring (h : Known d laboratoryId context) (hl : r.localLaboratoryId = laboratoryId)
    (hn : r.remoteNodeId = context.remoteNode.remoteNodeId)
    (hu : r.remoteUsername = context.remoteUsername ∧ r.remoteUserType = context.remoteUserType)
    (hg : (d.users.find? r.localGuestUserId).isSome) : Referring d r := by
  refine ⟨?_, hl ▸ h.laboratory, hn ▸ h.remoteNode, hg⟩
  rcases h.userType with ht | ht <;> simp [GuestLinkRow.IsValid, hu, h.username, ht]

-- The effect of looking a remote user up.
structure Touches (d d' : Database) (remote : Uuid × Uuid × Uuid × Uuid)
    (found : Option GuestLinkIdentity) : Prop where
  frame : d' = { d with guestLinks := d'.guestLinks }
  links : links d' = links d
  none : found = none → ∀ e ∈ Federation.links d, e.remote ≠ remote
  some : ∀ i ∈ found, ⟨i.linkId, remote, i.localGuestUserId⟩ ∈ Federation.links d

theorem wp_refreshGuestLink (hm : r ∈ d.guestLinks) (hr : r.remote = context.remote laboratoryId)
    (hb : Backed d) (hR : ¬Known d laboratoryId context → ∀ e, R e) :
    (refreshGuestLink (context.remote laboratoryId) context.remoteUsername context.remoteUserType
      r.linkId).wp (fun _ => True) R
      (fun a d' => a = some (GuestLinkRow.identity r) ∧
        Touches d d' (context.remote laboratoryId) a) d := by
  have hf : (d.guestLinks.find? r.linkId).filter (·.remote = context.remote laboratoryId) = some r :=
    Option.filter_eq_some_iff.mpr ⟨Table.find?_key hm, by simpa using hr⟩
  simp only [refreshGuestLink, wp_bind, wp_lockRow, wp_read, hf, pure_def, wp_done]
  let row : GuestLinkRow := { r with
    remoteUsername := context.remoteUsername
    remoteUserType := context.remoteUserType
  }
  refine wp_exec.mpr ⟨fun d' ha => ⟨trivial, trivial, ?_⟩, fun c hc => hR (fun h => ?_) _⟩
  case refine_1 =>
    obtain ⟨_, hw, he⟩ := (apply_guestLinks (.inr rfl)).mp ha
    refine ⟨he, links_refresh (r := row) hw hm rfl, by simp, fun i hi => ?_⟩
    obtain rfl := Option.some.inj hi
    exact ⟨r, hm, by simp [GuestLinkRow.entry, GuestLinkRow.identity, hr]⟩
  case refine_2 =>
    have hq : r.localLaboratoryId = laboratoryId ∧
        r.remoteNodeId = context.remoteNode.remoteNodeId := by
      simp only [GuestLinkRow.remote, InboundFederationContext.remote, Prod.mk.injEq] at hr
      exact ⟨hr.left, hr.right.left⟩
    have hg : Referring d row := h.referring hq.left hq.right ⟨rfl, rfl⟩ (hb _ (mem_links hm))
    obtain ⟨t, ht⟩ := Table.exists_update (clash?_guestLink.mpr fun r' hr' hn => by
      rw [eq_of_remote_eq hr' hm hn] : d.guestLinks.clash? row = none)
    have hok : d.apply (.guestLinks <| .update row) = .ok { d with guestLinks := t } :=
      (apply_guestLinks (.inr rfl)).mpr ⟨hg, ht, rfl⟩
    exact absurd (hok.symm.trans hc) (by simp)

theorem wp_touchGuestLink (hb : Backed d) (hR : ¬Known d laboratoryId context → ∀ e, R e) :
    (touchGuestLink laboratoryId context).wp (fun _ => True) R
      (fun a d' => Touches d d' (context.remote laboratoryId) a) d := by
  simp only [touchGuestLink, wp_bind, wp_read]
  cases hf : findGuestLink (context.remote laboratoryId) d
  case none => exact ⟨rfl, rfl, fun _ => findGuestLink_eq_none.mp hf, by simp⟩
  case some r =>
    obtain ⟨hm, hr⟩ := findGuestLink_eq_some.mp hf
    exact wp_mono (wp_refreshGuestLink hm hr hb hR) fun _ _ h => h.right

-- The effect of storing a link, unless there is one already.
structure Registers (d d' : Database) (remote : Uuid × Uuid × Uuid × Uuid) (newUser : UserRow)
    (newLinkId : Uuid) (identity : GuestLinkIdentity) : Prop where
  frame : d' = { d with
    users := d'.users
    borrowRequests := d'.borrowRequests
    guestLinks := d'.guestLinks
    guestRegistrationCodes := d'.guestRegistrationCodes
  }
  mem : ⟨identity.linkId, remote, identity.localGuestUserId⟩ ∈ links d'
  effect : (links d' = links d ∧ ∀ u, u ∈ d'.users ↔ u ∈ d.users) ∨
    (links d' = insert ⟨newLinkId, remote, newUser.userId⟩ (links d) ∧
      (∀ e ∈ links d, e.remote ≠ remote ∧ e.linkId ≠ newLinkId) ∧
      ∀ u, u ∈ d'.users ↔ u ∈ d.users ∨ u = newUser)

-- Whether the identifiers that were generated are new.
structure Fresh (d : Database) (newUserId newLinkId : Uuid) : Prop where
  link : ∀ e ∈ links d, e.linkId ≠ newLinkId
  uploads : ∀ f ∈ d.fileUploads, f.uploadedByUserId ≠ newUserId

theorem wp_insertNewGuestLink {guestUserId : Uuid}
    (hn : ∀ e ∈ links d, e.remote ≠ context.remote laboratoryId)
    (hg : (d.users.find? guestUserId).isSome)
    (hR : ¬(Known d laboratoryId context ∧ ∀ e ∈ links d, e.linkId ≠ newLinkId) → ∀ e, R e) :
    (insertNewGuestLink newLinkId laboratoryId context guestUserId).wp (fun _ => True) R
      (fun i d' => i = ⟨newLinkId, guestUserId⟩ ∧ (∀ e ∈ links d, e.linkId ≠ newLinkId) ∧
        links d' = insert ⟨newLinkId, context.remote laboratoryId, guestUserId⟩ (links d) ∧
        d' = { d with guestLinks := d'.guestLinks }) d := by
  simp only [insertNewGuestLink, wp_bind, pure_def, wp_done]
  let row : GuestLinkRow := {
    linkId := newLinkId
    localLaboratoryId := laboratoryId
    remoteNodeId := context.remoteNode.remoteNodeId
    remoteLaboratoryId := context.remoteLaboratoryId
    remoteUserId := context.remoteUserId
    remoteUsername := context.remoteUsername
    remoteUserType := context.remoteUserType
    localGuestUserId := guestUserId
  }
  refine wp_exec.mpr ⟨fun d' ha => ⟨trivial, trivial, ?_⟩, fun c hc => hR (fun h => ?_) _⟩
  case refine_1 =>
    obtain ⟨_, hw, he⟩ := (apply_guestLinks (.inl rfl)).mp ha
    refine ⟨?_, links_insert (r := row) hw, he⟩
    rintro _ ⟨r, hr, rfl⟩
    exact (Table.insert_eq_ok.mp hw).left r hr
  case refine_2 =>
    have href : Referring d row := h.left.referring rfl rfl ⟨rfl, rfl⟩ hg
    obtain ⟨t, ht⟩ := @Table.exists_insert _ _ _ _ d.guestLinks row
      (fun r hr => h.right _ (mem_links hr))
      (clash?_guestLink.mpr fun r hr he => absurd he (hn _ (mem_links hr)))
    have hok : d.apply (.guestLinks <| .insert row) = .ok { d with guestLinks := t } :=
      (apply_guestLinks (.inl rfl)).mpr ⟨href, ht, rfl⟩
    exact absurd (hok.symm.trans hc) (by simp)

theorem wp_insertGuestLink {guestUserId : Uuid} (hb : Backed d)
    (hg : (d.users.find? guestUserId).isSome)
    (hR : ¬(Known d laboratoryId context ∧ ∀ e ∈ links d, e.linkId ≠ newLinkId) → ∀ e, R e) :
    (insertGuestLink newLinkId laboratoryId context guestUserId).wp (fun _ => True) R
      (fun i d' => d' = { d with guestLinks := d'.guestLinks } ∧
        ((links d' = links d ∧
          ⟨i.linkId, context.remote laboratoryId, i.localGuestUserId⟩ ∈ links d) ∨
        (i = ⟨newLinkId, guestUserId⟩ ∧
          (∀ e ∈ links d, e.remote ≠ context.remote laboratoryId ∧ e.linkId ≠ newLinkId) ∧
          links d' = insert ⟨newLinkId, context.remote laboratoryId, guestUserId⟩ (links d)))) d := by
  simp only [insertGuestLink, wp_bind, wp_lockRow, wp_read]
  cases hf : findGuestLink (context.remote laboratoryId) d
  case none =>
    have hn := findGuestLink_eq_none.mp hf
    refine wp_mono (wp_insertNewGuestLink hn hg hR) fun i d' h => ?_
    obtain ⟨hi, hk, hl, hd⟩ := h
    exact ⟨hd, .inr ⟨hi, fun e he => ⟨hn e he, hk e he⟩, hl⟩⟩
  case some r =>
    obtain ⟨hm, hr⟩ := findGuestLink_eq_some.mp hf
    simp only [wp_bind]
    refine wp_mono (wp_refreshGuestLink hm hr hb fun h => hR fun hk => h hk.left) fun a d' h => ?_
    obtain ⟨rfl, ht⟩ := h
    exact ⟨ht.frame, .inl ⟨ht.links, ht.some _ rfl⟩⟩

-- A remote user gets a link as long as nobody else has the name of the account that stands for it.
structure Linkable [UuidFormat] (d : Database) (laboratoryId : Uuid)
    (context : InboundFederationContext) (newUserId newLinkId : Uuid) : Prop where
  known : Known d laboratoryId context
  insertable : Insertable d newUserId (shadowGuestUsername context) laboratoryId
  fresh : Fresh d newUserId newLinkId

theorem wp_storeGuestLink [UuidFormat] {passwordHash : String} (hb : Backed d)
    (hR : ¬Linkable d laboratoryId context newUserId newLinkId → ∀ e, R e) :
    (storeGuestLink laboratoryId context newUserId newLinkId passwordHash).wp (fun _ => True) R
      (fun i d' => Insertable d newUserId (shadowGuestUsername context) laboratoryId ∧
        Registers d d' (context.remote laboratoryId)
          (shadowGuest newUserId (shadowGuestUsername context) passwordHash laboratoryId)
          newLinkId i) d := by
  simp only [storeGuestLink, wp_bind]
  refine wp_mono (wp_insertShadowGuest fun hn => hR fun h => hn h.insertable) fun _ d₁ h => ?_
  obtain ⟨hi, hd₁, hu₁⟩ := h
  have hl₁ : links d₁ = links d := links_congr (by rw [hd₁])
  have hne : ∀ e ∈ links d, e.localGuestUserId ≠ newUserId := fun e he hk => by
    obtain ⟨u, hu⟩ := Option.isSome_iff_exists.mp (hb e he)
    obtain ⟨hm, hk'⟩ := Table.find?_eq_some.mp hu
    exact hi.userId u hm (hk'.trans hk)
  have hfind : ∀ k, (∃ u ∈ d₁.users, u.userId = k) → (d₁.users.find? k).isSome := by
    rintro k ⟨u, hu, rfl⟩
    exact Option.isSome_iff_exists.mpr ⟨u, Table.find?_key hu⟩
  have hb₁ : Backed d₁ := fun e he => by
    obtain ⟨u, hu⟩ := Option.isSome_iff_exists.mp (hb e (hl₁ ▸ he))
    obtain ⟨hm, hk⟩ := Table.find?_eq_some.mp hu
    exact hfind _ ⟨u, (hu₁ u).mpr (.inl hm), hk⟩
  have hg₁ : (d₁.users.find? newUserId).isSome := hfind _ ⟨_, (hu₁ _).mpr (.inr rfl), rfl⟩
  have hlab : d₁.laboratories = d.laboratories ∧ d₁.remoteNodes = d.remoteNodes ∧
      d₁.fileUploads = d.fileUploads := by
    rw [hd₁]
    exact ⟨rfl, rfl, rfl⟩
  refine wp_mono (wp_insertGuestLink hb₁ hg₁ fun hn => hR fun h => hn ⟨?_, ?_⟩) fun i d₂ h => ?_
  case refine_1 =>
    exact ⟨h.known.username, h.known.userType, hlab.left ▸ h.known.laboratory,
      hlab.right.left ▸ h.known.remoteNode⟩
  case refine_2 => exact fun e he => h.fresh.link e (hl₁ ▸ he)
  case refine_3 =>
    obtain ⟨hd₂, ⟨hl₂, hm⟩ | ⟨rfl, hn, hl₂⟩⟩ := h
    case inr =>
      simp only [ne_eq, not_true_eq_false, if_false, pure_def, wp_done]
      refine ⟨hi, by rw [hd₂, hd₁], by rw [hl₂]; exact .inl rfl, .inr ⟨?_, ?_, ?_⟩⟩
      case refine_1 => rw [hl₂, hl₁]; rfl
      case refine_2 => exact fun e he => hn e (hl₁ ▸ he)
      case refine_3 =>
        intro u
        rw [hd₂]
        exact hu₁ u
    case inl =>
      have hold : i.localGuestUserId ≠ newUserId := hne _ (hl₁ ▸ hm)
      have hup : d₂.fileUploads = d.fileUploads := by rw [hd₂]; exact hlab.right.right
      have hus : d₂.users = d₁.users := by rw [hd₂]
      simp only [if_pos hold, wp_bind]
      refine wp_mono (wp_deleteShadowGuest fun hx => hR fun h => ?_) fun _ d₃ h => ?_
      case refine_1 =>
        obtain ⟨f, hf, hk⟩ := hx
        exact h.fresh.uploads f (hup ▸ hf) hk
      case refine_2 =>
        simp only [pure_def, wp_done]
        rcases h with ⟨hs, _⟩ | ⟨_, hr⟩
        case inl =>
          have hx := hs (shadowGuest newUserId _ passwordHash laboratoryId)
            (hus ▸ (hu₁ _).mpr (.inr rfl)) rfl
          simp [shadowGuest] at hx
        case inr =>
          have hl₃ : links d₃ = links d := by
            rw [hr.links, hl₂, hl₁]
            exact Set.sep_eq_self_iff_mem_true.mpr hne
          refine ⟨hi, by rw [hr.frame, hd₂, hd₁], ?_, .inl ⟨hl₃, fun u => ?_⟩⟩
          case refine_1 => rw [hl₃, ← hl₁]; exact hm
          case refine_2 =>
            rw [hr.users, hus, Table.mem_delete, hu₁]
            constructor
            case mp =>
              rintro ⟨hu | rfl, hk⟩
              case inl => exact hu
              case inr => exact absurd rfl hk
            case mpr => exact fun hu => ⟨.inl hu, hi.userId u hu⟩

end Requests

end Federation

end LabInventory
