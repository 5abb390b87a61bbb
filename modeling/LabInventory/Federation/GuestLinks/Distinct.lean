import LabInventory.Federation.Signature
import LabInventory.Federation.GuestLinks.Effects

open Sql Program

namespace LabInventory

namespace Federation

-- Remote users do not share accounts.
structure Distinct (d : Database) : Prop where
  backed : Backed d
  guests : ∀ e₁ ∈ links d, ∀ e₂ ∈ links d, e₁.localGuestUserId = e₂.localGuestUserId → e₁ = e₂

-- A remote user and a link determine each other.
theorem remote_eq_iff {d : Database} {e₁ e₂ : LinkEntry} (h₁ : e₁ ∈ links d) (h₂ : e₂ ∈ links d) :
    e₁.remote = e₂.remote ↔ e₁.linkId = e₂.linkId :=
  ⟨fun he => congrArg _ (entry_eq_of_remote_eq h₁ h₂ he),
    fun he => congrArg _ (entry_eq_of_linkId_eq h₁ h₂ he)⟩

-- So do a remote user and an account.
theorem Distinct.remote_eq_iff {d : Database} (h : Distinct d) {e₁ e₂ : LinkEntry}
    (h₁ : e₁ ∈ links d) (h₂ : e₂ ∈ links d) :
    e₁.remote = e₂.remote ↔ e₁.localGuestUserId = e₂.localGuestUserId :=
  ⟨fun he => congrArg _ (entry_eq_of_remote_eq h₁ h₂ he),
    fun he => congrArg _ (h.guests _ h₁ _ h₂ he)⟩

-- What other requests may do in the meantime: links, their accounts, laboratories and nodes stay.
structure Elsewhere (d d' : Database) : Prop where
  guestLinks : d'.guestLinks = d.guestLinks
  users : ∀ e ∈ links d, (d.users.find? e.localGuestUserId).isSome →
    (d'.users.find? e.localGuestUserId).isSome
  laboratories : ∀ id, (d.laboratories.find? id).isSome → (d'.laboratories.find? id).isSome
  remoteNodes : ∀ id, (d.remoteNodes.find? id).isSome → (d'.remoteNodes.find? id).isSome

-- The steps of the inbound requests, in any order. A request which does not find a link stores one
-- in a step of its own.
inductive Visits [UuidFormat] (d : Database) : Database → Prop
  | init : Visits d d
  | touch {d₁ laboratoryId context} : Visits d d₁ →
      Visits d ((touchGuestLink laboratoryId context).after d₁)
  | store {d₁ laboratoryId context newUserId newLinkId passwordHash} : Visits d d₁ → Visits d
      ((storeGuestLink laboratoryId context newUserId newLinkId passwordHash).after d₁)
  | other {d₁ d₂} : Visits d d₁ → Elsewhere d₁ d₂ → Visits d d₂

-- The outcome of a request that looks for a link in the state `d₁`, and if there is none, stores one
-- in the state `d₂`.
def upserted [UuidFormat] (laboratoryId : Uuid) (context : InboundFederationContext)
    (newUserId newLinkId : Uuid) (passwordHash : String) (d₁ d₂ : Database) :
    Except ApiError GuestLinkIdentity :=
  match (touchGuestLink laboratoryId context).run d₁ with
  | .error e => .error e
  | .ok (some identity, _) => .ok identity
  | .ok (none, _) =>
    Prod.fst <$> (storeGuestLink laboratoryId context newUserId newLinkId passwordHash).run d₂

section Steps

variable [UuidFormat] {d d' d'' : Database} {laboratoryId newUserId newLinkId : Uuid}
variable {context : InboundFederationContext} {passwordHash : String}

-- Links are only added, and each of them gets an account of its own.
structure Grows (d d' : Database) : Prop where
  links : links d ⊆ links d'
  backed : Backed d'
  distinct : Distinct d → Distinct d'
  laboratories : ∀ id, (d.laboratories.find? id).isSome → (d'.laboratories.find? id).isSome
  remoteNodes : ∀ id, (d.remoteNodes.find? id).isSome → (d'.remoteNodes.find? id).isSome

omit [UuidFormat] in
theorem Grows.refl (h : Backed d) : Grows d d :=
  ⟨subset_rfl, h, fun h => h, fun _ h => h, fun _ h => h⟩

omit [UuidFormat] in
theorem Grows.trans (h : Grows d d') (h' : Grows d' d'') : Grows d d'' where
  links := h.links.trans h'.links
  backed := h'.backed
  distinct hd := h'.distinct (h.distinct hd)
  laboratories id hi := h'.laboratories id (h.laboratories id hi)
  remoteNodes id hi := h'.remoteNodes id (h.remoteNodes id hi)

omit [UuidFormat] in
theorem Known.grows (h : Known d laboratoryId context) (hg : Grows d d') :
    Known d' laboratoryId context :=
  ⟨h.username, h.userType, hg.laboratories _ h.laboratory, hg.remoteNodes _ h.remoteNode⟩

omit [UuidFormat] in
theorem Elsewhere.grows (h : Elsewhere d d') (hb : Backed d) : Grows d d' := by
  have hl : Federation.links d' = Federation.links d := links_congr h.guestLinks
  have hb' : Backed d' := fun e he => h.users e (hl ▸ he) (hb e (hl ▸ he))
  exact ⟨hl ▸ subset_rfl, hb', fun hd => ⟨hb', hl ▸ hd.guests⟩, h.laboratories, h.remoteNodes⟩

omit [UuidFormat] in
theorem Touches.grows {remote found} (h : Touches d d' remote found) (hb : Backed d) :
    Grows d d' := by
  have hu : d'.users = d.users ∧ d'.laboratories = d.laboratories ∧
      d'.remoteNodes = d.remoteNodes := by
    rw [h.frame]
    exact ⟨rfl, rfl, rfl⟩
  have hb' : Backed d' := fun e he => hu.left ▸ hb e (h.links ▸ he)
  refine ⟨h.links ▸ subset_rfl, hb', fun hd => ⟨hb', h.links ▸ hd.guests⟩, ?_, ?_⟩
  case refine_1 => exact fun _ hi => hu.right.left ▸ hi
  case refine_2 => exact fun _ hi => hu.right.right ▸ hi

omit [UuidFormat] in
theorem Registers.grows {remote identity} {newUser : UserRow}
    (h : Registers d d' remote newUser newLinkId identity)
    (hn : ∀ u ∈ d.users, u.userId ≠ newUser.userId) (hb : Backed d) : Grows d d' := by
  have hu : d'.laboratories = d.laboratories ∧ d'.remoteNodes = d.remoteNodes := by
    rw [h.frame]
    exact ⟨rfl, rfl⟩
  have hold : ∀ e ∈ Federation.links d, ∃ u ∈ d.users, u.userId = e.localGuestUserId := fun e he => by
    obtain ⟨u, hf⟩ := Option.isSome_iff_exists.mp (hb e he)
    exact ⟨u, Table.find?_eq_some.mp hf⟩
  have hfind : ∀ k, (∃ u ∈ d'.users, u.userId = k) → (d'.users.find? k).isSome := by
    rintro k ⟨u, hu, rfl⟩
    exact Option.isSome_iff_exists.mpr ⟨u, Table.find?_key hu⟩
  have hb' : Backed d' := fun e he => by
    refine hfind _ ?_
    rcases h.effect with ⟨hl, hu⟩ | ⟨hl, _, hu⟩
    case inl =>
      obtain ⟨u, hm, hk⟩ := hold e (hl ▸ he)
      exact ⟨u, (hu u).mpr hm, hk⟩
    case inr =>
      rw [hl] at he
      rcases he with rfl | he
      case inl => exact ⟨newUser, (hu _).mpr (.inr rfl), rfl⟩
      case inr =>
        obtain ⟨u, hm, hk⟩ := hold e he
        exact ⟨u, (hu u).mpr (.inl hm), hk⟩
  refine ⟨?_, hb', fun hd => ⟨hb', ?_⟩, fun _ hi => hu.left ▸ hi, fun _ hi => hu.right ▸ hi⟩
  case refine_1 =>
    rcases h.effect with ⟨hl, _⟩ | ⟨hl, _⟩
    case inl => exact hl ▸ subset_rfl
    case inr => exact hl ▸ Set.subset_insert _ _
  case refine_2 =>
    have hne : ∀ e ∈ Federation.links d, e.localGuestUserId ≠ newUser.userId := fun e he hk => by
      obtain ⟨u, hm, hk'⟩ := hold e he
      exact hn u hm (hk'.trans hk)
    intro e₁ h₁ e₂ h₂ he
    rcases h.effect with ⟨hl, _⟩ | ⟨hl, _⟩
    case inl => exact hd.guests _ (hl ▸ h₁) _ (hl ▸ h₂) he
    case inr =>
      rw [hl] at h₁ h₂
      rcases h₁ with rfl | h₁ <;> rcases h₂ with rfl | h₂
      case inl.inl => rfl
      case inl.inr => exact absurd he.symm (hne _ h₂)
      case inr.inl => exact absurd he (hne _ h₁)
      case inr.inr => exact hd.guests _ h₁ _ h₂ he

theorem Visits.trans (h : Visits d d') (h' : Visits d' d'') : Visits d d'' := by
  induction h'
  case init => exact h
  case touch ih => exact .touch ih
  case store ih => exact .store ih
  case other he ih => exact .other ih he

theorem Visits.grows (h : Visits d d') (hb : Backed d) : Grows d d' := by
  induction h
  case init => exact .refl hb
  case touch ih =>
    exact ih.trans <| wp_after (wp_mono (wp_touchGuestLink ih.backed fun _ _ => trivial)
      fun _ _ ht => ht.grows ih.backed) (.refl ih.backed)
  case store ih =>
    refine ih.trans <| wp_after (wp_mono (wp_storeGuestLink ih.backed fun _ _ => trivial)
      fun _ _ hs => ?_) (.refl ih.backed)
    exact hs.right.grows hs.left.userId ih.backed
  case other he ih => exact ih.trans (he.grows ih.backed)

end Steps

section Upsert

variable [UuidFormat] {d d₀ d₁ d₂ d₃ : Database} {laboratoryId newUserId newLinkId : Uuid}
variable {context : InboundFederationContext} {passwordHash : String}
variable {i : GuestLinkIdentity}

-- The state in which such a request leaves the database.
def upsertedState (laboratoryId : Uuid) (context : InboundFederationContext)
    (newUserId newLinkId : Uuid) (passwordHash : String) (d₁ d₂ : Database) : Database :=
  match (touchGuestLink laboratoryId context).run d₁ with
  | .ok (none, _) =>
    (storeGuestLink laboratoryId context newUserId newLinkId passwordHash).after d₂
  | _ => (touchGuestLink laboratoryId context).after d₁

omit [UuidFormat] in
theorem exists_touchGuestLink (hb : Backed d₁) (hk : Known d₁ laboratoryId context) :
    ∃ found d', (touchGuestLink laboratoryId context).run d₁ = .ok (found, d') ∧
      Touches d₁ d' (context.remote laboratoryId) found :=
  wp_total <| wp_touchGuestLink hb fun hn => absurd hk hn

theorem exists_storeGuestLink (hb : Backed d₂) (hk : Known d₂ laboratoryId context)
    (hf : Fresh d₂ newUserId newLinkId) (hu : ∀ u ∈ d₂.users, u.userId ≠ newUserId) :
    (∃ i d', (storeGuestLink laboratoryId context newUserId newLinkId passwordHash).run d₂ =
      .ok (i, d')) ↔ ∀ u ∈ d₂.users, u.username ≠ shadowGuestUsername context := by
  constructor
  case mp =>
    rintro ⟨i, d', hr⟩
    exact (wp_run (wp_storeGuestLink hb fun _ _ => trivial) hr).left.username
  case mpr =>
    intro hn
    have h : Linkable d₂ laboratoryId context newUserId newLinkId :=
      ⟨hk, ⟨hu, hn, hk.laboratory⟩, hf⟩
    obtain ⟨i, d', hr, _⟩ := wp_total <| wp_storeGuestLink hb fun hn => absurd h hn
    exact ⟨i, d', hr⟩

theorem upserted_eq_ok (hb : Backed d₁) (hk : Known d₁ laboratoryId context)
    (hg : Grows ((touchGuestLink laboratoryId context).after d₁) d₂)
    (hf : Fresh d₂ newUserId newLinkId) (hu : ∀ u ∈ d₂.users, u.userId ≠ newUserId) :
    (∃ i, upserted laboratoryId context newUserId newLinkId passwordHash d₁ d₂ = .ok i) ↔
      (∃ e ∈ links d₁, e.remote = context.remote laboratoryId) ∨
      ∀ u ∈ d₂.users, u.username ≠ shadowGuestUsername context := by
  obtain ⟨found, d', hr, ht⟩ := exists_touchGuestLink hb hk
  rw [after_of_ok hr] at hg
  cases found
  case some i =>
    have hm := ht.some i rfl
    have hi : upserted laboratoryId context newUserId newLinkId passwordHash d₁ d₂ = .ok i := by
      simp only [upserted, hr]
    exact ⟨fun _ => .inl ⟨_, hm, rfl⟩, fun _ => ⟨i, hi⟩⟩
  case none =>
    have hn := ht.none rfl
    have hk₂ : Known d₂ laboratoryId context := (hk.grows (ht.grows hb)).grows hg
    have hs : (∃ i, upserted laboratoryId context newUserId newLinkId passwordHash d₁ d₂ = .ok i) ↔
        ∃ i d', (storeGuestLink laboratoryId context newUserId newLinkId passwordHash).run d₂ =
          .ok (i, d') := by
      simp only [upserted, hr, Except.map_eq_ok]
      constructor
      case mp =>
        rintro ⟨i, r, hr, _⟩
        exact ⟨r.1, r.2, hr⟩
      case mpr =>
        rintro ⟨i, d', hr⟩
        exact ⟨i, _, hr, rfl⟩
    rw [hs, exists_storeGuestLink hg.backed hk₂ hf hu]
    refine ⟨.inr, fun h => h.resolve_left ?_⟩
    rintro ⟨e, he, hr⟩
    exact hn e he hr

theorem mem_links_of_upserted (hb : Backed d₁) (hk : Known d₁ laboratoryId context)
    (hg : Grows ((touchGuestLink laboratoryId context).after d₁) d₂)
    (hi : upserted laboratoryId context newUserId newLinkId passwordHash d₁ d₂ = .ok i) :
    Grows d₁ (upsertedState laboratoryId context newUserId newLinkId passwordHash d₁ d₂) ∧
    ⟨i.linkId, context.remote laboratoryId, i.localGuestUserId⟩ ∈
      links (upsertedState laboratoryId context newUserId newLinkId passwordHash d₁ d₂) := by
  obtain ⟨found, d', hr, ht⟩ := exists_touchGuestLink hb hk
  rw [after_of_ok hr] at hg
  cases found
  case some j =>
    simp only [upserted, hr, Except.ok.injEq] at hi
    subst hi
    simp only [upsertedState, hr, after_of_ok hr]
    exact ⟨ht.grows hb, ht.links ▸ ht.some j rfl⟩
  case none =>
    simp only [upserted, hr, Except.map_eq_ok] at hi
    obtain ⟨⟨_, d₃⟩, hs, rfl⟩ := hi
    have h := wp_run (wp_storeGuestLink hg.backed fun _ _ => trivial) hs
    simp only [upsertedState, hr, after_of_ok hs]
    exact ⟨(ht.grows hb).trans <| hg.trans <| h.right.grows h.left.userId hg.backed, h.right.mem⟩

-- Without others in between, the two steps of a request are those of `upsertGuestLink`.
theorem run_upsertGuestLink :
    Prod.fst <$> (upsertGuestLink laboratoryId context newUserId newLinkId passwordHash).run d =
      upserted laboratoryId context newUserId newLinkId passwordHash d
        ((touchGuestLink laboratoryId context).after d) := by
  rw [upsertGuestLink, run_bind, upserted]
  cases hr : (touchGuestLink laboratoryId context).run d
  case error => rfl
  case ok r =>
    obtain ⟨found, d'⟩ := r
    rw [after_of_ok hr]
    cases found <;> rfl

variable [Cryptography] [ScanOrder] {settings : FederationSettings} {request : InboundRequest}

theorem elsewhere_of_verified
    (hv : (verifyInboundRequest settings request laboratoryId).run d₀ = .ok (context, d₁)) :
    Elsewhere d₀ d₁ := by
  obtain ⟨_, _, _, hr⟩ := remembered_of_verifyInboundRequest hv
  have hf := hr.frame
  exact ⟨by rw [hf], fun _ _ h => by rwa [hf], fun _ h => by rwa [hf], fun _ h => by rwa [hf]⟩

theorem known_of_verified (ht : ∀ t ∈ d₀.laboratoryTrusts,
      (d₀.laboratories.find? t.localLaboratoryId).isSome)
    (hv : (verifyInboundRequest settings request laboratoryId).run d₀ = .ok (context, d₁)) :
    Known d₁ laboratoryId context := by
  obtain ⟨h, hp, _, ha⟩ := authentic_of_verifyInboundRequest hv
  have hh := parsed_of_parseFederationHeaders hp
  have hc := ha.context
  have he := elsewhere_of_verified hv
  have hn : context.remoteNode.remoteNodeId = h.remoteNodeId :=
    (Table.find?_eq_some.mp ha.remoteNode).right
  refine ⟨?_, ?_, he.laboratories _ ?_, he.remoteNodes _ ?_⟩
  case refine_1 =>
    rw [hc]
    exact hh.remoteUsername_ne_empty
  case refine_2 =>
    rw [hc]
    exact hh.remoteUserType
  case refine_3 =>
    obtain ⟨t, hf⟩ := Option.isSome_iff_exists.mp ha.trust
    have hm : t ∈ d₀.laboratoryTrusts := List.mem_of_find?_eq_some hf
    have hl := List.find?_some hf
    simp only [Bool.and_eq_true, decide_eq_true_eq] at hl
    exact hl.left.left.left ▸ ht t hm
  case refine_4 =>
    rw [hn, ha.remoteNode]
    rfl

-- A remote user gets one link, unless the name of the account is taken, and an account of its own,
-- unless accounts have been merged at the outset.
theorem guest_link_per_remote_user (hb : Backed d) (h₀ : Visits d d₀)
    (ht : ∀ t ∈ d₀.laboratoryTrusts, (d₀.laboratories.find? t.localLaboratoryId).isSome)
    {d₀' : Database}
    (hv : (verifyInboundRequest settings request laboratoryId).run d₀ = .ok (context, d₀'))
    (h₁ : Visits d₀' d₁) (h₂ : Visits ((touchGuestLink laboratoryId context).after d₁) d₂)
    (hf : Fresh d₂ newUserId newLinkId) (hu : ∀ u ∈ d₂.users, u.userId ≠ newUserId) :
    ((∃ i, upserted laboratoryId context newUserId newLinkId passwordHash d₁ d₂ = .ok i) ↔
      (∃ e ∈ links d₁, e.remote = context.remote laboratoryId) ∨
      ∀ u ∈ d₂.users, u.username ≠ shadowGuestUsername context) ∧
    ∀ i d₃, upserted laboratoryId context newUserId newLinkId passwordHash d₁ d₂ = .ok i →
      Visits (upsertedState laboratoryId context newUserId newLinkId passwordHash d₁ d₂) d₃ →
      ⟨i.linkId, context.remote laboratoryId, i.localGuestUserId⟩ ∈ links d₃ ∧
      ∀ e ∈ links d₃, (e.remote = context.remote laboratoryId ↔ e.linkId = i.linkId) ∧
        (Distinct d →
          (e.remote = context.remote laboratoryId ↔ e.localGuestUserId = i.localGuestUserId)) := by
  have hg₀ := h₀.grows hb
  have hg₀' := (elsewhere_of_verified hv).grows hg₀.backed
  have hg₁ := h₁.grows hg₀'.backed
  have hk : Known d₁ laboratoryId context := (known_of_verified ht hv).grows hg₁
  have hg₂ := h₂.grows (Visits.touch .init |>.grows hg₁.backed).backed
  refine ⟨upserted_eq_ok hg₁.backed hk hg₂ hf hu, fun i d₃ hi h₃ => ?_⟩
  have ⟨hg, hm⟩ := mem_links_of_upserted hg₁.backed hk hg₂ hi
  have hg₃ := h₃.grows hg.backed
  have hg := (hg₀.trans hg₀').trans <| hg₁.trans <| hg.trans hg₃
  refine ⟨hg₃.links hm, fun e he => ⟨?_, fun hd => ?_⟩⟩
  case refine_1 => exact remote_eq_iff he (hg₃.links hm)
  case refine_2 => exact (hg.distinct hd).remote_eq_iff he (hg₃.links hm)

end Upsert

section Examples

def caller (userId : Uuid) : OutboundFederationIdentity where
  localNodeId := 7
  localLaboratoryId := 2
  userId := userId
  username := "alice"
  userType := "user"

def callerContext (userId : Uuid) : InboundFederationContext where
  remoteNode := partnerNode
  remoteLaboratoryId := 2
  remoteUserId := userId
  remoteUsername := Text.trim "alice"
  remoteUserType := "user"

section Calls

variable [UuidFormat] [Cryptography] [ScanOrder]

theorem exists_verified (userId : Uuid) : ∃ d, (verifyInboundRequest defaultSettings
    (signedRequest .get assetsPath [] partnerNode (caller userId) 1000 "nonce") 1).run paired =
      .ok (callerContext userId, d) := by
  have hv : Visible "alice" ∧ Text.trim "alice" ≠ "" := ⟨visible_of_all (by decide), by decide⟩
  obtain ⟨d, hr, _⟩ : ∃ d, (verifyInboundRequest defaultSettings
      (signedRequest .get assetsPath [] partnerNode (caller userId) 1000 "nonce") 1).run paired =
        .ok (callerContext userId, d) ∧ Remembered paired d 7 "nonce" 300 :=
    run_signedRequest rfl ⟨hv.left, hv.right, .inr rfl⟩
      (visible_of_all (by decide)) (by decide) (by decide) (by decide) rfl rfl rfl rfl rfl
      ⟨rfl, by decide, fun _ hr => absurd hr Table.not_mem_empty⟩
  exact ⟨d, hr⟩

omit [UuidFormat] [Cryptography] [ScanOrder] in
theorem links_paired : links paired = ∅ := by
  ext e
  refine ⟨?_, False.elim⟩
  rintro ⟨r, hr, _⟩
  exact Table.not_mem_empty hr

omit [UuidFormat] [Cryptography] [ScanOrder] in
theorem distinct_paired : Distinct paired := by
  refine ⟨fun e he => ?_, fun e he => ?_⟩
  case refine_1 => simp [links_paired] at he
  case refine_2 => simp [links_paired] at he

-- A state in which only the clock and the nonces have moved on.
structure Still (d : Database) : Prop where
  links : links d = ∅
  users : d.users = paired.users
  fileUploads : d.fileUploads = paired.fileUploads

theorem still_of_verified {context : InboundFederationContext} {d : Database} {request}
    (hv : (verifyInboundRequest defaultSettings request 1).run paired = .ok (context, d)) :
    Still d := by
  obtain ⟨_, _, _, hr⟩ := remembered_of_verifyInboundRequest hv
  have hf := hr.frame
  exact ⟨(links_congr (by rw [hf])).trans links_paired, by rw [hf], by rw [hf]⟩

omit [UuidFormat] [Cryptography] [ScanOrder] in
theorem Still.touch {context : InboundFederationContext} {d : Database} (h : Still d) :
    Still ((touchGuestLink 1 context).after d) := by
  have hb : Backed d := fun e he => by simp [h.links] at he
  refine wp_after (wp_mono (wp_touchGuestLink hb fun _ _ => trivial) fun _ d' ht => ?_) h
  have hf := ht.frame
  exact ⟨ht.links.trans h.links, by rw [hf]; exact h.users, by rw [hf]; exact h.fileUploads⟩

omit [UuidFormat] [Cryptography] [ScanOrder] in
theorem Still.fresh {d : Database} (h : Still d) : Fresh d 20 21 ∧
    (∀ u ∈ d.users, u.userId ≠ 20) ∧ ∀ u ∈ d.users, ∀ name, u.username ≠ name := by
  refine ⟨⟨fun e he => ?_, fun f hf => ?_⟩, fun u hu => ?_, fun u hu => ?_⟩
  case refine_1 => simp [h.links] at he
  case refine_2 => exact absurd (h.fileUploads ▸ hf) Table.not_mem_empty
  case refine_3 | refine_4 => exact absurd (h.users ▸ hu) Table.not_mem_empty

omit [UuidFormat] [Cryptography] [ScanOrder] in
theorem trusts_paired : ∀ t ∈ paired.laboratoryTrusts,
    (paired.laboratories.find? t.localLaboratoryId).isSome := by
  intro t ht
  exact Table.mem_singleton.mp ht ▸ rfl

-- The user 5 has a link, through the account 20.
structure Occupied (d : Database) : Prop where
  links : links d = {⟨21, (callerContext 5).remote 1, 20⟩}
  users : ∀ u ∈ d.users, u.userId = 20
  username : ∃ u ∈ d.users, u.username = shadowGuestUsername (callerContext 5)
  fileUploads : d.fileUploads = paired.fileUploads

omit [Cryptography] [ScanOrder] in
theorem Occupied.touch {context : InboundFederationContext} {d : Database} (h : Occupied d)
    (hb : Backed d) : Occupied ((touchGuestLink 1 context).after d) := by
  refine wp_after (wp_mono (wp_touchGuestLink hb fun _ _ => trivial) fun _ d' ht => ?_) h
  have hf := ht.frame
  have hu : d'.users = d.users ∧ d'.fileUploads = d.fileUploads := by
    rw [hf]
    exact ⟨rfl, rfl⟩
  exact ⟨ht.links.trans h.links, hu.left ▸ h.users, hu.left ▸ h.username,
    hu.right.trans h.fileUploads⟩

omit [Cryptography] [ScanOrder] in
theorem Occupied.fresh {d : Database} (h : Occupied d) :
    Fresh d 22 23 ∧ ∀ u ∈ d.users, u.userId ≠ 22 := by
  refine ⟨⟨fun e he => ?_, fun f hf => ?_⟩, fun u hu => ?_⟩
  case refine_1 =>
    rw [h.links, Set.mem_singleton_iff] at he
    exact he ▸ by decide
  case refine_2 => exact absurd (h.fileUploads ▸ hf) Table.not_mem_empty
  case refine_3 => exact h.users u hu ▸ by decide

-- After the request of some user has looked for a link in vain, the user 5 gets one.
theorem exists_occupied (userId : Uuid) : ∃ request d₁ d₂,
    (verifyInboundRequest defaultSettings request 1).run paired = .ok (callerContext userId, d₁) ∧
    links d₁ = ∅ ∧ Visits ((touchGuestLink 1 (callerContext userId)).after d₁) d₂ ∧ Occupied d₂ := by
  obtain ⟨d₁, hv⟩ := exists_verified userId
  have hstill := still_of_verified hv
  have hb₁ := (elsewhere_of_verified hv).grows distinct_paired.backed |>.backed
  have hk₁ := known_of_verified trusts_paired hv
  let d₂ := (touchGuestLink 1 (callerContext userId)).after d₁
  have hg₂ := (Visits.touch .init : Visits d₁ d₂).grows hb₁
  have hstill₂ : Still d₂ := hstill.touch
  obtain ⟨hf, hu, hn⟩ := hstill₂.fresh
  have hk₂ : Known d₂ 1 (callerContext 5) :=
    ⟨hk₁.username, hk₁.userType, hg₂.laboratories _ hk₁.laboratory, hg₂.remoteNodes _ hk₁.remoteNode⟩
  obtain ⟨j, d₃, hs⟩ : ∃ j d₃, (storeGuestLink 1 (callerContext 5) 20 21 "hash").run d₂ =
      .ok (j, d₃) := (exists_storeGuestLink hg₂.backed hk₂ hf hu).mpr fun u hm => hn u hm _
  obtain ⟨_, hreg⟩ := wp_run (wp_storeGuestLink hg₂.backed fun _ _ => trivial) hs
  obtain ⟨hl₃, _, hu₃⟩ := hreg.effect.resolve_left fun h => by
    have hm := hreg.mem
    rw [h.left, hstill₂.links] at hm
    exact hm
  refine ⟨_, d₁, d₃, hv, hstill.links, after_of_ok hs ▸ .store .init, ?_, fun u hm => ?_,
    ⟨_, (hu₃ _).mpr (.inr rfl), rfl⟩, ?_⟩
  case refine_1 =>
    rw [hl₃, hstill₂.links]
    exact insert_empty_eq _
  case refine_2 =>
    rcases (hu₃ u).mp hm with hm | rfl
    case inl => exact absurd (hstill₂.users ▸ hm) Table.not_mem_empty
    case inr => rfl
  case refine_3 =>
    rw [hreg.frame]
    exact hstill₂.fileUploads

end Calls

-- The users 5 and 6 of laboratory 2 have the same eight digits in front.
theorem shadowGuestUsername_caller :
    let _ := hyphenated
    shadowGuestUsername (callerContext 6) = shadowGuestUsername (callerContext 5) := by
  decide +kernel

-- The link is stored by another request of the user 5, before this one looks for it.
theorem guest_link_per_remote_user_first :
    let _ := hyphenated
    let _ := Cryptography.standard
    let _ := ScanOrder.stored
    ∃ d, upserted 1 (callerContext 5) 22 23 "hash" d ((touchGuestLink 1 (callerContext 5)).after d) =
      .ok ⟨21, 20⟩ := by
  let _ := hyphenated
  let _ := Cryptography.standard
  let _ := ScanOrder.stored
  obtain ⟨request, d₁, d₂, hv, _, hvisits, ho⟩ := exists_occupied 5
  have hg₁ := (elsewhere_of_verified hv).grows distinct_paired.backed
  have hvisits : Visits d₁ d₂ := (Visits.touch .init).trans hvisits
  have hg₂ := hvisits.grows hg₁.backed
  have hg₃ := (Visits.touch .init : Visits d₂ ((touchGuestLink 1 (callerContext 5)).after d₂)).grows
    hg₂.backed
  have ⟨hf, hu⟩ := (ho.touch hg₂.backed : Occupied ((touchGuestLink 1 (callerContext 5)).after d₂)).fresh
  obtain ⟨hsucceeds, honly⟩ := guest_link_per_remote_user distinct_paired.backed .init trusts_paired
    hv hvisits .init hf hu
  have he : ⟨21, (callerContext 5).remote 1, 20⟩ ∈ links d₂ := ho.links ▸ Set.mem_singleton _
  obtain ⟨i, hi⟩ := hsucceeds.mpr <| .inl ⟨_, he, rfl⟩
  have hk := ((known_of_verified trusts_paired hv).grows hg₂)
  have hg := (mem_links_of_upserted hg₂.backed hk (.refl hg₃.backed) hi).left
  obtain ⟨hlink, hguest⟩ := (honly i _ hi .init).right _ (hg.links he)
  refine ⟨d₂, hi.trans <| congrArg Except.ok ?_⟩
  obtain ⟨linkId, localGuestUserId⟩ := i
  obtain rfl : 21 = linkId := hlink.mp rfl
  obtain rfl : 20 = localGuestUserId := (hguest distinct_paired).mp rfl
  rfl

-- A first visit fails once the user 5 has a link: that of another user, whose account would have the
-- same name, and also that of the same user, when the link was created by a concurrent request.
theorem shadow_name_taken :
    let _ := hyphenated
    let _ := Cryptography.standard
    let _ := ScanOrder.stored
    Distinct paired ∧ ∀ userId ∈ [5, 6], ∃ request d₁ d₂,
      (verifyInboundRequest defaultSettings request 1).run paired =
        .ok (callerContext userId, d₁) ∧
      Visits ((touchGuestLink 1 (callerContext userId)).after d₁) d₂ ∧ Fresh d₂ 22 23 ∧
      (∀ u ∈ d₂.users, u.userId ≠ 22) ∧
      ∀ i, upserted 1 (callerContext userId) 22 23 "hash" d₁ d₂ ≠ .ok i := by
  let _ := hyphenated
  let _ := Cryptography.standard
  let _ := ScanOrder.stored
  refine ⟨distinct_paired, fun userId hid => ?_⟩
  obtain ⟨request, d₁, d₂, hv, hnone, hvisits, ho⟩ := exists_occupied userId
  have hb₁ := (elsewhere_of_verified hv).grows distinct_paired.backed |>.backed
  have hk₁ := known_of_verified trusts_paired hv
  have hg := (Visits.touch .init :
    Visits d₁ ((touchGuestLink 1 (callerContext userId)).after d₁)).grows hb₁
  have ⟨hf, hu⟩ := ho.fresh
  refine ⟨request, d₁, d₂, hv, hvisits, hf, hu, fun i hi => ?_⟩
  rcases (upserted_eq_ok hb₁ hk₁ (hvisits.grows hg.backed) hf hu).mp ⟨i, hi⟩ with h | h
  case inl =>
    obtain ⟨e, he, _⟩ := h
    rw [hnone] at he
    exact he
  case inr =>
    obtain ⟨u, hm, hname⟩ := ho.username
    refine h u hm <| hname.trans ?_
    rcases List.mem_cons.mp hid with rfl | hid
    case inl => rfl
    case inr => exact List.mem_singleton.mp hid ▸ shadowGuestUsername_caller.symm

end Examples

end Federation

end LabInventory
