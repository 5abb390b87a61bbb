import LabInventory.Users.Theorems
import LabInventory.Federation.GuestLinks.Merging

open Sql Program

namespace LabInventory

namespace Federation

-- The guest links of a laboratory point to guests of that laboratory.
structure GuestsOnly (d : Database) : Prop where
  laboratories : ∀ e ∈ links d, (d.laboratories.find? e.remote.1).isSome
  guests : ∀ e ∈ links d, ∃ u ∈ d.users, u.userId = e.localGuestUserId ∧
    u.role = ⟨.guest, some e.remote.1⟩

variable {d d' : Database} {r : GuestLinkRow} {userId linkId laboratoryId : Uuid}

namespace GuestsOnly

theorem backed (h : GuestsOnly d) : Backed d := by
  intro e he
  obtain ⟨u, hu, hk, _⟩ := h.guests e he
  exact Option.isSome_iff_exists.mpr ⟨u, Table.find?_eq_some.mpr ⟨hu, hk⟩⟩

-- Neither further accounts nor fewer links do any harm.
theorem mono (h : GuestsOnly d) (hl : links d' ⊆ links d) (hlab : d'.laboratories = d.laboratories)
    (hu : ∀ e ∈ links d', ∀ u ∈ d.users, u.userId = e.localGuestUserId → u ∈ d'.users) :
    GuestsOnly d' where
  laboratories e he := hlab ▸ h.laboratories e (hl he)
  guests e he := by
    obtain ⟨u, hm, hk, hr⟩ := h.guests e (hl he)
    exact ⟨u, hu e he u hm hk, hk, hr⟩

theorem removes (h : GuestsOnly d) (hd : Removes d d' userId) : GuestsOnly d' := by
  have hl := hd.links
  refine h.mono (hl ▸ Set.sep_subset _ _) (by rw [hd.frame]) fun e he u hu hk => ?_
  rw [hl] at he
  rw [hd.users]
  exact Table.mem_delete.mpr ⟨hu, fun hid => he.right (hk.symm.trans hid)⟩

theorem unlinked (h : GuestsOnly d) {w : Write} (hw : IsUnlinked w) (ha : apply w d = .ok d') :
    GuestsOnly d' := by
  have ⟨hu, hg, hl⟩ := frame_of_unlinked hw ha
  exact h.mono (links_congr hg).subset hl fun _ _ _ hm _ => hu ▸ hm

theorem touches {remote found} (h : GuestsOnly d) (ht : Touches d d' remote found) :
    GuestsOnly d' := by
  have hu : d'.users = d.users ∧ d'.laboratories = d.laboratories := by
    rw [ht.frame]
    exact ⟨rfl, rfl⟩
  exact h.mono ht.links.subset hu.right fun _ _ _ hm _ => hu.left ▸ hm

-- A link is stored together with the shadow account that it points to.
theorem registers {remote : Uuid × Uuid × Uuid × Uuid} {username passwordHash newUserId newLinkId i}
    (h : GuestsOnly d) (hi : Insertable d newUserId username laboratoryId)
    (hr : Registers d d' remote (shadowGuest newUserId username passwordHash laboratoryId)
      newLinkId i) (hl : remote.1 = laboratoryId) : GuestsOnly d' := by
  have hlab : d'.laboratories = d.laboratories := by rw [hr.frame]
  rcases hr.effect with ⟨hls, hu⟩ | ⟨hls, _, hu⟩
  case inl => exact h.mono hls.subset hlab fun _ _ u hm _ => (hu u).mpr hm
  case inr =>
    constructor
    case laboratories =>
      intro e he
      rw [hls] at he
      rcases he with rfl | he
      case inl => exact hlab ▸ hl ▸ hi.laboratory
      case inr => exact hlab ▸ h.laboratories e he
    case guests =>
      intro e he
      rw [hls] at he
      rcases he with rfl | he
      case inl => exact ⟨_, (hu _).mpr (.inr rfl), rfl, by rw [hl]; rfl⟩
      case inr =>
        obtain ⟨u, hm, hk, hr⟩ := h.guests e he
        exact ⟨u, (hu u).mpr (.inl hm), hk, hr⟩

-- A link may be pointed to a guest of the laboratory.
theorem repoint (h : GuestsOnly d) (hm : r ∈ d.guestLinks) {u : UserRow} (hu : u ∈ d.users)
    (hr : u.role = ⟨.guest, some r.localLaboratoryId⟩)
    (ha : apply (.guestLinks (.update { r with localGuestUserId := u.userId })) d = .ok d') :
    GuestsOnly d' := by
  obtain ⟨_, hw, hd⟩ := (apply_guestLinks (.inr rfl)).mp ha
  have hus : d'.users = d.users ∧ d'.laboratories = d.laboratories := by
    rw [hd]
    exact ⟨rfl, rfl⟩
  have hls := links_update hw hm rfl
  constructor
  case laboratories =>
    intro e he
    have hlab := h.laboratories _ (mem_links hm)
    rw [hls] at he
    rw [hus.right]
    rcases he with rfl | he
    case inl => exact hlab
    case inr => exact h.laboratories e he.left
  case guests =>
    intro e he
    rw [hls] at he
    rw [hus.left]
    rcases he with rfl | he
    case inl => exact ⟨u, hu, rfl, hr⟩
    case inr => exact h.guests e he.left

theorem wlp_mergeGuestLink {settings : FederationSettings} {ctx : LaboratoryContext}
    {targetGuestUserId : Uuid} (h : GuestsOnly d) :
    (mergeGuestLink settings ctx linkId targetGuestUserId).wlp (fun _ => GuestsOnly) d := by
  simp only [mergeGuestLink, requireFederation, requirePermission, validateTargetGuest, storeMerge,
    fetchGuestLinkUserForUpdate, mergeGuestLinkUser, updateGuestLinkUser, wp_bind, wp_require,
    wp_read, wp_fetch, wp_selectForUpdate, pure_def, wp_done, implies_true, and_true]
  intro _ _ u hf ht
  obtain ⟨hu, rfl⟩ := Table.find?_eq_some.mp hf
  cases hl : (d.guestLinks.find? linkId).filter (·.localLaboratoryId = ctx.laboratoryId)
  case none => trivial
  case some r =>
    obtain ⟨hr, hlab⟩ := Option.filter_eq_some_iff.mp hl
    obtain ⟨hm, _⟩ := Table.find?_eq_some.mp hr
    have hlab : r.localLaboratoryId = ctx.laboratoryId := by simpa using hlab
    simp only [Option.map_some, wp_bind, wp_selectForUpdate, hl, wp_read]
    refine wp_exec.mpr ⟨fun d₁ ha => ⟨trivial, ?_⟩, fun _ _ => trivial⟩
    have h₁ : GuestsOnly d₁ := h.repoint hm hu (by
      rw [hlab]
      exact congr (congrArg UserRole.mk ht.left) ht.right) ha
    split
    case isFalse => exact h₁
    case isTrue =>
      refine wp_mono (wp_deleteShadowGuest fun _ _ => trivial) fun _ d₂ hd => ?_
      rcases hd with ⟨_, rfl⟩ | ⟨_, hd⟩
      case inl => exact h₁
      case inr => exact h₁.removes hd

end GuestsOnly

section Users

open Users

variable [UnicodeSegmentation] [Credentials] {actor : Actor}

-- The role that an update asks for. What it does not mention is kept.
def requestedRole (payload : UpdateUserJsonData) (userType : Option UserType)
    (current : UserRole) : UserRole where
  userType := userType.getD current.userType
  laboratoryId := (NullableUpdate.ofOption payload.laboratoryId).resolve current.laboratoryId

-- What is known about an update that is accepted.
structure Updates (actor : Actor) (payload : UpdateUserJsonData) (current new : UserRow) : Prop where
  userId : new.userId = current.userId
  role : ∃ t, payload.userType.mapM UserType.parse = .ok t ∧
    new.role = requestedRole payload t current.role
  permitted : actor.userId = current.userId ∧ ¬payload.updatesRoleOrLaboratory ∨
    actor.userId ≠ current.userId ∧ actor.canManageUser new.role

theorem requestedRole_of_intoUpdateUser {payload : UpdateUserJsonData} {current : UserRow}
    {u : UpdateUser}
    (h : payload.intoUpdateUser current.userType current.laboratoryId = .ok u) :
    ∃ t, payload.userType.mapM UserType.parse = .ok t ∧
      ⟨u.userType, u.laboratoryId⟩ = requestedRole payload t current.role := by
  simp only [UpdateUserJsonData.intoUpdateUser, Except.bind_eq_ok] at h
  obtain ⟨_, _, t, hp, _, _, _, _, _, _, hn⟩ := h
  obtain ⟨htype, hlab, _⟩ := UpdateUser.new_eq_ok hn
  exact ⟨t, hp, congr (congrArg UserRole.mk htype) hlab⟩

theorem wlp_updateUser {payload : UpdateUserJsonData} :
    (updateUser actor userId payload).wlp (fun _ d' => ∃ current new,
      fetchUser userId d = some current ∧ current.userId = userId ∧
      Updates actor payload current new ∧ apply (.users (.update new)) d = .ok d') d := by
  simp only [updateUser, updateUserInDatabase, wp_bind, wp_lockRow, wp_fetch,
    Transaction.wp_validated, wp_read, wp_require, wp_exec, implies_true, and_true, true_and]
  intro current hf hself u hu hp row hrow d' ha
  obtain ⟨r, hr, hc⟩ : ∃ r, d.users.find? userId = some r ∧ current.userId = r.userId := by
    simp only [fetchUser, bind, Option.bind_eq_some_iff, pure, Option.some.injEq] at hf
    obtain ⟨r, hr, rfl⟩ := hf
    exact ⟨r, hr, rfl⟩
  have hid : current.userId = userId := hc.trans (Table.find?_eq_some.mp hr).right
  refine ⟨current, _, hf, hid, ?_, ha⟩
  refine ⟨(Table.find?_eq_some.mp hrow).right, requestedRole_of_intoUpdateUser hu, ?_⟩
  by_cases hs : actor.userId = current.userId
  case pos => exact .inl ⟨hs, fun h => hself ⟨hs, h⟩⟩
  case neg =>
    have hp := hp.resolve_left hs
    simp only [validatePermission, Bool.and_eq_true] at hp
    exact .inr ⟨hs, hp.right⟩

-- An update which the actor may make leaves the accounts that guest links point to guests of the
-- same laboratory.
def LeavesGuests (d : Database) (actor : Actor) : Users.Request → Prop
  | .update userId payload => actor.userId ≠ userId → ∀ e ∈ links d, e.localGuestUserId = userId →
    ∀ t, payload.userType.mapM UserType.parse = .ok t →
      let role : UserRole := ⟨.guest, some e.remote.1⟩
      actor.canManageUser (requestedRole payload t role) → requestedRole payload t role = role
  | .create .. | .delete _ => True

omit [UnicodeSegmentation] [Credentials] in
theorem Updates.guest {payload : UpdateUserJsonData} {current new : UserRow} {e : LinkEntry}
    (h : Updates actor payload current new) (hp : LeavesGuests d actor (.update userId payload))
    (hi : current.userId = userId) (he : e ∈ links d) (hk : e.localGuestUserId = userId)
    (hc : current.role = ⟨.guest, some e.remote.1⟩) : new.role = ⟨.guest, some e.remote.1⟩ := by
  obtain ⟨t, ht, hr⟩ := h.role
  rw [hc] at hr
  rcases h.permitted with ⟨_, hu⟩ | ⟨ha, hm⟩
  case inl =>
    simp only [UpdateUserJsonData.updatesRoleOrLaboratory, Bool.or_eq_true, not_or,
      Bool.not_eq_true, Option.isSome_eq_false_iff, Option.isNone_iff_eq_none] at hu
    rw [hu.left, Option.mapM_none, Except.pure_eq_ok] at ht
    rw [hr, requestedRole, ← ht, hu.right]
    rfl
  case inr => exact hr.trans <| hp (hi ▸ ha) e he hk t ht (hr ▸ hm)

omit [UnicodeSegmentation] [Credentials] in
theorem GuestsOnly.update {payload : UpdateUserJsonData} (h : GuestsOnly d)
    (hp : LeavesGuests d actor (.update userId payload)) {current new : UserRow}
    (hf : fetchUser userId d = some current) (hi : current.userId = userId)
    (hn : Updates actor payload current new) (ha : apply (.users (.update new)) d = .ok d') :
    GuestsOnly d' := by
  have hw := Database.writeUsers_eq_ok ha
  have hl : links d' = links d := by
    simp only [apply, Database.apply, Database.writeUsers, Except.bind_eq_ok,
      Except.pure_eq_ok] at ha
    obtain ⟨_, _, _, _, rfl⟩ := ha
    exact links_congr rfl
  have hid : new.userId = userId := hn.userId.trans hi
  refine ⟨fun e he => hw.right.left ▸ h.laboratories e (hl ▸ he), fun e he => ?_⟩
  have he : e ∈ links d := hl ▸ he
  obtain ⟨u, hu, hk, hr⟩ := h.guests e he
  by_cases hu' : u.userId = userId
  case neg =>
    exact ⟨u, (Table.mem_update hw.left).mpr (.inl ⟨hu, fun he => hu' (he.trans hid)⟩), hk, hr⟩
  case pos =>
    have hc : current.role = u.role := by
      simp only [fetchUser, bind, Option.bind_eq_some_iff, pure, Option.some.injEq] at hf
      obtain ⟨r, hr', rfl⟩ := hf
      obtain ⟨hm, hk'⟩ := Table.find?_eq_some.mp hr'
      obtain rfl := Table.eq_of_key_eq hm hu (hk'.trans hu'.symm)
      simp only [UserRow.role, UserRole.mk.injEq] at hr
      simp [UserRow.role, hr.right, h.laboratories e he]
    refine ⟨new, (Table.mem_update hw.left).mpr (.inr ⟨rfl, u, hu, hu'.trans hid.symm⟩), ?_, ?_⟩
    case refine_1 => exact hid.trans (hu'.symm.trans hk)
    case refine_2 => exact hn.guest hp hi he (hk.symm.trans hu') (hc.trans hr)

theorem GuestsOnly.process {request : Users.Request} (h : GuestsOnly d)
    (hp : ∀ actor ∈ getActor d userId, LeavesGuests d actor request) :
    (request.process userId).wlp (fun _ => GuestsOnly) d := by
  simp only [Request.process, wp_bind, wp_fetch, implies_true, and_true]
  intro actor ha
  have hp := hp actor ha
  cases request
  case create payload newUserId salt =>
    simp only [Request.handle, createUser, insertUser, wp_bind, Transaction.wp_validated, wp_read,
      wp_require, wp_exec, implies_true, and_true, true_and]
    intro newUser _ _ d' ha
    have hw := Database.writeUsers_eq_ok ha
    have hg : d'.guestLinks = d.guestLinks := by
      simp only [apply, Database.apply, Database.writeUsers, Except.bind_eq_ok,
        Except.pure_eq_ok] at ha
      obtain ⟨_, _, _, _, rfl⟩ := ha
      rfl
    exact h.mono (links_congr hg).subset hw.right.left
      fun _ _ u hu _ => (Table.mem_insert hw.left).mpr (.inl hu)
  case update targetUserId payload =>
    refine wp_mono wlp_updateUser fun _ d' hd => ?_
    obtain ⟨current, new, hf, hi, hn, ha⟩ := hd
    exact h.update hp hf hi hn ha
  case delete targetUserId =>
    simp only [Request.handle, deleteUser, deleteUserFromDatabase, wp_bind, wp_fetch, wp_read,
      wp_require, wp_exec, implies_true, and_true, true_and]
    exact fun _ _ _ _ _ _ d' ha => h.removes (removes_of_apply ha)

end Users

section Calls

variable [UnicodeSegmentation] [Credentials] [Cryptography] [Addresses] [ScanOrder]

-- The requests of the federation, local ones and inbound ones, and those of the user management.
inductive GuestCall
  | link (call : LinkCall)
  | createPairingCode (settings : FederationSettings) (ctx : LaboratoryContext) (code : String)
      (newId : Uuid)
  | createTrust (settings : FederationSettings) (ctx : LaboratoryContext)
      (payload : CreateTrustJsonData) (requestBaseUrl sharedSecret : String)
      (response : PairingResponse) (newTrustId : Uuid)
  | revokeTrust (settings : FederationSettings) (ctx : LaboratoryContext) (trustId : Uuid)
  | user (userId : Uuid) (request : Users.Request)

namespace GuestCall

def handle : GuestCall → Transaction Unit
  | link call => call.handle
  | createPairingCode settings ctx code newId => do
    let _ ← Federation.createPairingCode settings ctx code newId
  | createTrust settings ctx payload requestBaseUrl sharedSecret response newTrustId => do
    let _ ← Federation.createTrust settings ctx payload requestBaseUrl sharedSecret response
      newTrustId
  | revokeTrust settings ctx trustId => Federation.revokeTrust settings ctx trustId
  | user userId request => request.process userId

-- The requests which leave the accounts of remote users to remote users.
def Considerate (d : Database) : GuestCall → Prop
  | user userId request => ∀ actor ∈ getActor d userId, LeavesGuests d actor request
  | _ => True

end GuestCall

omit [UnicodeSegmentation] [Credentials] in
theorem GuestsOnly.linkCall (h : GuestsOnly d) (call : LinkCall) :
    call.handle.wlp (fun _ => GuestsOnly) d := by
  have hu {p : Transaction Unit} (hp : p.Writes IsUnlinked) : p.wlp (fun _ => GuestsOnly) d :=
    hp.wlp h fun _ _ _ hw h ha => h.unlinked hw ha
  cases call
  case merge => exact h.wlp_mergeGuestLink
  case touch laboratoryId context =>
    simp only [LinkCall.handle, wp_bind, pure_def, wp_done]
    exact wp_mono (wp_touchGuestLink h.backed fun _ _ => trivial) fun _ _ ht => h.touches ht
  case store laboratoryId context newUserId newLinkId passwordHash =>
    simp only [LinkCall.handle, wp_bind, pure_def, wp_done]
    refine wp_mono (wp_storeGuestLink h.backed fun _ _ => trivial) fun _ _ hs => ?_
    exact h.registers hs.left hs.right rfl
  case verify => exact hu <| writes_verifyInboundRequest.bind fun _ => trivial
  case borrow => exact hu writes_borrowRequest
  case accept => exact hu <| writes_acceptPairing.bind fun _ => trivial

theorem GuestsOnly.guestCall (h : GuestsOnly d) {call : GuestCall} (hc : call.Considerate d) :
    call.handle.wlp (fun _ => GuestsOnly) d := by
  have hu {p : Transaction Unit} (hp : p.Writes IsUnlinked) : p.wlp (fun _ => GuestsOnly) d :=
    hp.wlp h fun _ _ _ hw h ha => h.unlinked hw ha
  have hperm {ctx : LaboratoryContext} {action} : (requirePermission ctx action).ReadOnly :=
    readOnly_read.bind fun _ => readOnly_require
  cases call
  case link call => exact h.linkCall call
  case createPairingCode =>
    refine hu <| Writes.bind (p := Federation.createPairingCode ..) ?_ fun _ => trivial
    refine readOnly_require.writes_bind fun _ => hperm.writes_bind fun _ => ?_
    refine readOnly_fetch.writes_bind fun _ => readOnly_read.writes_bind fun _ => ?_
    refine Writes.bind (p := insertPairingCode ..) ?_ fun _ => trivial
    exact readOnly_read.writes_bind fun _ => (writes_exec trivial).bind fun _ => trivial
  case createTrust =>
    refine hu <| Writes.bind (p := Federation.createTrust ..) ?_ fun _ => trivial
    refine Writes.bind (p := requestTrust ..) ?_ fun pending => ?_
    case refine_1 =>
      refine readOnly_require.writes_bind fun _ => hperm.writes_bind fun _ => ?_
      refine readOnly_ofExcept.writes_bind fun _ => readOnly_ofExcept.writes_bind fun _ => ?_
      exact readOnly_fetch.writes_bind fun _ => readOnly_fetch.writes_bind fun _ => trivial
    case refine_2 =>
      refine readOnly_ofExcept.writes_bind fun _ => readOnly_read.writes_bind fun _ => ?_
      exact writes_upsertRemoteNode.bind fun _ => writes_upsertTrust
  case revokeTrust =>
    refine hu <| readOnly_require.writes_bind fun _ => hperm.writes_bind fun _ => ?_
    refine Writes.bind (p := revokeTrustInDatabase ..) ?_ fun found => by cases found <;> trivial
    refine readOnly_read.writes_bind fun _ => readOnly_read.writes_bind fun found => ?_
    cases found
    case none => trivial
    case some =>
      refine Writes.bind (p := lockRow _) trivial fun _ => readOnly_read.writes_bind fun found => ?_
      cases found
      case none => trivial
      case some => exact (writes_exec trivial).bind fun _ => trivial
  case user userId request => exact h.process hc

-- The states that are reached by requests, one after another.
inductive GuestRun (P : Database → GuestCall → Prop) (d₀ : Database) : Database → Prop
  | init : GuestRun P d₀ d₀
  | step {d₁ : Database} (call : GuestCall) : GuestRun P d₀ d₁ → P d₁ call →
      GuestRun P d₀ (call.handle.after d₁)

-- Remote users remain guests as long as nobody gives their accounts another role or laboratory.
theorem guest_links_to_guests {d₀ : Database} (hd : GuestsOnly d₀)
    (h : GuestRun (fun d call => call.Considerate d) d₀ d) :
    ∀ e ∈ links d, ∃ u ∈ d.users, u.userId = e.localGuestUserId ∧ u.userType = .guest ∧
      u.laboratoryId = some e.remote.1 := by
  suffices hg : GuestsOnly d by
    intro e he
    obtain ⟨u, hu, hk, hr⟩ := hg.guests e he
    simp only [UserRow.role, UserRole.mk.injEq] at hr
    exact ⟨u, hu, hk, hr⟩
  induction h
  case init => exact hd
  case step call _ hc ih => exact wp_after (ih.guestCall hc) ih

end Calls

section Examples

-- The office is run by the user 50.
def supervised : Database where
  __ := visited
  users := ⟨[
    shadowGuest 20 "fed_a" "hash" 1,
    shadowGuest 21 "fed_b" "hash" 1,
    { shadowGuest 30 "carol" "hash" 1 with isFederationShadow := false },
    { shadowGuest 50 "admin" "hash" 1 with userType := .labAdmin, isFederationShadow := false }
  ], by decide, by decide⟩

def promotion : Users.UpdateUserJsonData where
  username := none
  userType := some "user"
  laboratoryId := none
  email := none
  phoneNumber := none
  description := none

def promote (userId : Uuid) : GuestCall :=
  .user 50 (.update userId promotion)

theorem guestsOnly_supervised : GuestsOnly supervised := by
  have hm : ∀ r ∈ supervised.guestLinks, r = guestLink 41 5 20 ∨ r = guestLink 42 6 21 := by
    intro r hr
    have hr : r ∈ supervised.guestLinks.rows := hr
    simpa [supervised, visited] using hr
  constructor
  case laboratories =>
    rintro _ ⟨r, hr, rfl⟩
    rcases hm r hr with rfl | rfl <;> rfl
  case guests =>
    rintro _ ⟨r, hr, rfl⟩
    rcases hm r hr with rfl | rfl
    case inl => exact ⟨_, .head _, rfl, rfl⟩
    case inr => exact ⟨_, .tail _ (.head _), rfl, rfl⟩

-- An administrator makes a regular user of the account that a remote user acts through.
theorem promoted_shadow :
    let _ := hyphenated
    let _ := UnicodeSegmentation.characters
    let _ := Users.plainCredentials
    let _ := Cryptography.standard
    let _ := exampleAddresses
    let _ := ScanOrder.stored
    GuestsOnly supervised ∧ ∃ d, GuestRun (fun _ _ => True) supervised d ∧
      ∃ e ∈ links d, ∃ u ∈ d.users, u.userId = e.localGuestUserId ∧ u.userType ≠ .guest := by
  let _ := hyphenated
  let _ := UnicodeSegmentation.characters
  let _ := Users.plainCredentials
  let _ := Cryptography.standard
  let _ := exampleAddresses
  let _ := ScanOrder.stored
  refine ⟨guestsOnly_supervised, (promote 20).handle.after supervised,
    .step (promote 20) .init trivial, ?_⟩
  have hl : ((promote 20).handle.after supervised).guestLinks = supervised.guestLinks := by
    decide +kernel
  have hu : ((promote 20).handle.after supervised).users.rows.head? =
      some { shadowGuest 20 "fed_a" "hash" 1 with userType := .user } := by
    decide +kernel
  refine ⟨GuestLinkRow.entry (guestLink 41 5 20), ?_, _, List.mem_of_head? hu, rfl, ?_⟩
  case refine_1 => exact links_congr hl ▸ mem_links (.head _)
  case refine_2 => decide

-- Both of the remote users get the account 20, and carol becomes a regular user.
def sharedAccount : Database :=
  let _ := hyphenated
  let _ := UnicodeSegmentation.characters
  let _ := Users.plainCredentials
  let _ := Cryptography.standard
  let _ := exampleAddresses
  let _ := ScanOrder.stored
  (promote 30).handle.after <|
    (GuestCall.link (.merge defaultSettings officeAdmin 42 20)).handle.after supervised

theorem guest_links_to_guests_carol :
    (sharedAccount.guestLinks.rows.map (·.localGuestUserId) = [20, 20] ∧
      (sharedAccount.users.find? 30).map (·.userType) = some .user) ∧
    ∀ e ∈ links sharedAccount, ∃ u ∈ sharedAccount.users, u.userId = e.localGuestUserId ∧
      u.userType = .guest ∧ u.laboratoryId = some e.remote.1 := by
  let _ := hyphenated
  let _ := UnicodeSegmentation.characters
  let _ := Users.plainCredentials
  let _ := Cryptography.standard
  let _ := exampleAddresses
  let _ := ScanOrder.stored
  let merge := GuestCall.link (.merge defaultSettings officeAdmin 42 20)
  have hr : GuestRun (fun d call => call.Considerate d) supervised (merge.handle.after supervised) :=
    .step merge .init trivial
  refine ⟨by decide +kernel, guest_links_to_guests (d := sharedAccount) guestsOnly_supervised <|
    hr.step (promote 30) ?_⟩
  rintro actor _ _ _ ⟨r, hr, rfl⟩ he
  have hr : r ∈ (merge.handle.after supervised).guestLinks.rows := hr
  have hc : (merge.handle.after supervised).guestLinks.rows.all (·.localGuestUserId ≠ 30) := by
    decide +kernel
  have hn : r.localGuestUserId ≠ 30 := by simpa using List.all_eq_true.mp hc r hr
  exact absurd he hn

end Examples

end Federation

end LabInventory
