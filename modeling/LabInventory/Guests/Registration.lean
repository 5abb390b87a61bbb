import LabInventory.Guests.Basic
import LabInventory.Library.Watch
import LabInventory.Users.Theorems

open Sql Program

namespace LabInventory

namespace Guests

variable {d d' d'' : Database} {ks : Set RowId} {log : List Write} {now : Timestamp}

-- A transaction only changes users that it has locked, and codes that it has locked and which are
-- outstanding.
structure Keeps (ks : Set RowId) (d d' : Database) : Prop where
  codes : ∀ r ∈ d.guestRegistrationCodes, .guestRegistrationCode r.registrationCodeId ∉ ks →
    r ∈ d'.guestRegistrationCodes
  settled : ∀ r ∈ d.guestRegistrationCodes, ¬r.IsOutstanding → r ∈ d'.guestRegistrationCodes
  users : ∀ u ∈ d.users, .user u.userId ∉ ks → u ∈ d'.users

theorem apply_updateCode {r : GuestRegistrationCodeRow}
    (h : apply (.guestRegistrationCodes (.update r)) d = .ok d') :
    d.guestRegistrationCodes.update r = .ok d'.guestRegistrationCodes ∧ d'.users = d.users := by
  obtain ⟨hw, hf⟩ := Database.applied_of_apply h
  exact ⟨hw, by rw [hf]⟩

theorem apply_insertCode {r : GuestRegistrationCodeRow}
    (h : apply (.guestRegistrationCodes (.insert r)) d = .ok d') :
    d.guestRegistrationCodes.insert r = .ok d'.guestRegistrationCodes ∧ d'.users = d.users := by
  obtain ⟨hw, hf⟩ := Database.applied_of_apply h
  exact ⟨hw, by rw [hf]⟩

-- No references to a user are affected, unless the user is deleted.
theorem apply_writeUser {w : RowWrite UserRow Uuid} (h : apply (.users w) d = .ok d')
    (hn : ∀ k, w ≠ .delete k) :
    d.users.write w = .ok d'.users ∧ d'.guestRegistrationCodes = d.guestRegistrationCodes := by
  refine ⟨(Database.applied_of_apply h).left, ?_⟩
  cases w
  case delete k => exact absurd rfl (hn k)
  all_goals
    simp only [apply, Database.apply, Database.writeUsers, Except.bind_eq_ok,
      Except.pure_eq_ok] at h
    obtain ⟨_, _, _, _, rfl⟩ := h
    rfl

section Revocation

variable {r : GuestRegistrationCodeRow}

-- The state `v` is what becomes of `d` when outstanding codes are revoked that have been locked.
structure Revoked (ks : Set RowId) (d v : Database) : Prop where
  keeps : Keeps ks d v
  outstanding : ∀ r ∈ v.guestRegistrationCodes, r.IsOutstanding → r ∈ d.guestRegistrationCodes
  identifiers : ∀ r ∈ d.guestRegistrationCodes, ∃ r' ∈ v.guestRegistrationCodes,
    r'.registrationCodeId = r.registrationCodeId
  users : v.users = d.users

theorem Revoked.refl : Revoked ks d d :=
  ⟨⟨fun _ h _ => h, fun _ h _ => h, fun _ h _ => h⟩, fun _ h _ => h, fun r h => ⟨r, h, rfl⟩, rfl⟩

theorem Revoked.revoke {v v' : Database} (h : Revoked ks d v)
    (hr : r ∈ d.guestRegistrationCodes) (hk : .guestRegistrationCode r.registrationCodeId ∈ ks)
    (ho : r.IsOutstanding)
    (ha : apply (.guestRegistrationCodes (.update { r with revokedAt := some now })) v = .ok v') :
    Revoked ks d v' := by
  obtain ⟨hw, hu⟩ := apply_updateCode ha
  have hmem (r' : GuestRegistrationCodeRow) : r' ∈ v'.guestRegistrationCodes ↔
      (r' ∈ v.guestRegistrationCodes ∧ r'.registrationCodeId ≠ r.registrationCodeId) ∨
      (r' = { r with revokedAt := some now } ∧ ∃ r₁ ∈ v.guestRegistrationCodes,
        r₁.registrationCodeId = r.registrationCodeId) := Table.mem_update hw
  refine ⟨⟨fun r' hr' hn => ?_, fun r' hr' hn => ?_, fun u hm _ => ?_⟩, fun r' hr' hn => ?_,
    fun r' hr' => ?_, hu.trans h.users⟩
  case refine_1 =>
    exact (hmem r').mpr (.inl ⟨h.keeps.codes r' hr' hn, fun he => hn (he ▸ hk)⟩)
  case refine_2 =>
    refine (hmem r').mpr (.inl ⟨h.keeps.settled r' hr' hn, fun he => hn ?_⟩)
    rwa [Table.eq_of_key_eq hr' hr he]
  case refine_3 => rwa [hu, h.users]
  case refine_4 =>
    rcases (hmem r').mp hr' with hr' | ⟨rfl, _⟩
    case inl => exact h.outstanding r' hr'.left hn
    case inr => simp [GuestRegistrationCodeRow.IsOutstanding] at hn
  case refine_5 =>
    obtain ⟨r₁, hr₁, he⟩ := h.identifiers r' hr'
    by_cases hi : r₁.registrationCodeId = r.registrationCodeId
    case pos => exact ⟨_, (hmem _).mpr (.inr ⟨rfl, r₁, hr₁, hi⟩), hi.symm.trans he⟩
    case neg => exact ⟨r₁, (hmem _).mpr (.inl ⟨hr₁, hi⟩), he⟩

-- All of the writes revoke outstanding codes.
def Revoking (now : Timestamp) (log : List Write) (ks : Set RowId) (d : Database) : Prop :=
  ∀ w ∈ log, ∃ r ∈ d.guestRegistrationCodes, .guestRegistrationCode r.registrationCodeId ∈ ks ∧
    r.IsOutstanding ∧ w = .guestRegistrationCodes (.update { r with revokedAt := some now })

theorem Revoking.revoked {v : Database} (h : Revoking now log ks d) (hv : replay log d = .ok v) :
    Revoked ks d v := by
  induction log using List.reverseRecOn generalizing v
  case nil => exact Except.ok.inj hv ▸ .refl
  case append_singleton log w ih =>
    obtain ⟨v₁, hv₁, ha⟩ := replay_concat.mp hv
    obtain ⟨r, hr, hk, ho, rfl⟩ := h w (by simp)
    exact (ih (fun w hw => h w (by simp [hw])) hv₁).revoke hr hk ho ha

end Revocation

section Calls

-- The requests that concern registration codes, and the passing of time.
inductive Call
  | generate (ctx : LaboratoryContext) (attempts : List (Fin 1000000 × Uuid))
  | register (payload : GuestRegistrationJsonData) (newUserId : Uuid) (salt : String)
  | updateUser (actor : Actor) (targetUserId : Uuid) (payload : Users.UpdateUserJsonData)
  | clock (now : Timestamp)
  | serverClock (now : Timestamp)

variable [Cryptography] [UnicodeSegmentation] [Credentials]

def Call.handle [ScanOrder] (hasher : GuestRegistrationHasher) (now : Timestamp) :
    Call → Transaction Unit
  | generate ctx attempts => do
    let _ ← createGuestRegistrationCode hasher now ctx attempts
  | register payload newUserId salt => registerGuest hasher now payload newUserId salt
  | updateUser actor targetUserId payload => Users.updateUser actor targetUserId payload
  | clock now => .exec (.clock now) statementError
  | serverClock now => .exec (.serverClock now) statementError

-- A transaction, with the time of its beginning.
structure Begun where
  call : Call
  now : Timestamp

structure Issues (ctx : LaboratoryContext) (d d' : Database) (new : GuestRegistrationCodeRow) :
    Prop where
  mem : new ∈ d'.guestRegistrationCodes
  outstanding : new.IsOutstanding
  laboratoryId : new.laboratoryId = ctx.laboratoryId
  createdByUserId : new.createdByUserId = ctx.actor.userId
  fresh : ∀ r ∈ d.guestRegistrationCodes, r.registrationCodeId ≠ new.registrationCodeId
  users : d'.users = d.users

structure Registers (hasher : GuestRegistrationHasher) (now : Timestamp)
    (payload : GuestRegistrationJsonData) (d d' : Database) (code : GuestRegistrationCodeRow)
    (guest : UserRow) : Prop where
  mem : code ∈ d.guestRegistrationCodes
  presented : code.codeHmac = hasher.hashCode payload.registrationCode
  outstanding : code.IsOutstanding
  unexpired : now < code.expiresAt
  issuer : ∃ u ∈ d.users, u.userId = code.createdByUserId ∧ isIssuer code u
  role : guest.role = ⟨.guest, some code.laboratoryId⟩
  users : d.users.insert guest = .ok d'.users
  codes : d.guestRegistrationCodes.update { code with consumedAt := some now } =
    .ok d'.guestRegistrationCodes

def Effect (hasher : GuestRegistrationHasher) (b : Begun) (d d' : Database) : Prop :=
  match b.call with
  | .generate ctx _ => ∃ new, Issues ctx d d' new
  | .register payload _ _ => ∃ code guest, Registers hasher b.now payload d d' code guest
  | .updateUser .. | .clock _ | .serverClock _ =>
    d'.guestRegistrationCodes = d.guestRegistrationCodes

def codeDiscipline (hasher : GuestRegistrationHasher) : Discipline Database RowId Begun where
  Inv _ := True
  Guar b ks d d' := Keeps ks d d' ∧ Effect hasher b d d'
  Compat _ _ _ := True

end Calls

section Safety

open Discipline

variable [Cryptography] {hasher : GuestRegistrationHasher} {b : Begun} {pending : List RowId}

theorem commit_of_guar {α : Type} {a : α}
    (h : ∀ d' v, (codeDiscipline hasher).Env pending ks d d' → replay log d' = .ok v →
      Keeps ks d' v ∧ Effect hasher b d' v) :
    (codeDiscipline hasher).Commit b a pending log ks d :=
  fun d' v he _ hv => ⟨trivial, h d' v he hv⟩

theorem stable_revoking : (codeDiscipline hasher).Stable (Revoking now log) where
  lock h w hw := by
    obtain ⟨r, hr, hk, ho, he⟩ := h w hw
    exact ⟨r, hr, .inr hk, ho, he⟩
  interference hi h w hw := by
    obtain ⟨r, hr, hk, ho, he⟩ := h w hw
    obtain ⟨_, ks', hd, hg, _⟩ := hi.guar
    exact ⟨r, hg.codes r hr (hd _ hk), hk, ho, he⟩

-- Both a code and its issuer are locked.
structure Holds (code : GuestRegistrationCodeRow) (issuer : UserRow) (ks : Set RowId)
    (d : Database) : Prop where
  codeLocked : .guestRegistrationCode code.registrationCodeId ∈ ks
  issuerLocked : .user issuer.userId ∈ ks
  code : code ∈ d.guestRegistrationCodes
  issuer : issuer ∈ d.users

theorem stable_holds {code : GuestRegistrationCodeRow} {issuer : UserRow} :
    (codeDiscipline hasher).Stable (Holds code issuer) where
  lock h := ⟨.inr h.codeLocked, .inr h.issuerLocked, h.code, h.issuer⟩
  interference hi h := by
    obtain ⟨_, ks', hd, hg, _⟩ := hi.guar
    exact ⟨h.codeLocked, h.issuerLocked, hg.codes _ h.code (hd _ h.codeLocked),
      hg.users _ h.issuer (hd _ h.issuerLocked)⟩

theorem stable_locked {k : RowId} : (codeDiscipline hasher).Stable fun ks _ => k ∈ ks where
  lock h := .inr h
  interference _ h := h

variable [ScanOrder] {p : GuestRegistrationCodeRow → Bool} {ctx : LaboratoryContext}

theorem safe_revokeRegistrationCodes
    {Q : Unit → List RowId → List Write → Set RowId → Database → Prop} (h : Revoking now log ks d)
    (hq : ∀ pending log ks d, Revoking now log ks d → Q () pending log ks d) :
    (codeDiscipline hasher).Safe Q (revokeRegistrationCodes now p) pending log ks d := by
  refine safe_select stable_revoking h fun d v _ h _ => ?_
  refine safe_forRows (B := Revoking now) (fun _ => stable_revoking) h ?_ hq
  intro b pending log ks d hk h
  refine safe_select (stable_revoking.and stable_locked) ⟨h, hk⟩ fun d v _ h hv => ?_
  obtain ⟨h, hk⟩ := h
  beta_reduce
  cases hf : (v.guestRegistrationCodes.find? b.registrationCodeId).filter fun r =>
    p r && r.IsOutstanding
  case none => exact h
  case some r =>
    obtain ⟨hf, hp⟩ := Option.filter_eq_some_iff.mp hf
    obtain ⟨hm, hi⟩ := Table.find?_eq_some.mp hf
    have hi : r.registrationCodeId = b.registrationCodeId := hi
    rw [Bool.and_eq_true] at hp
    have hr : r ∈ d.guestRegistrationCodes := (h.revoked hv).outstanding r hm hp.right
    let w : Write := .guestRegistrationCodes (.update { r with revokedAt := some now })
    have h' : Revoking now (log ++ [w]) ks d := by
      intro w hw
      rcases List.mem_append.mp hw with hw | hw
      case inl => exact h w hw
      case inr => exact ⟨r, hr, hi ▸ hk, hp.right, List.mem_singleton.mp hw⟩
    exact safe_write stable_revoking h' fun d _ _ _ h' _ _ => h'

omit [ScanOrder] in
theorem safe_insertRegistrationCode {Q : Option GuestRegistrationCodeRow → List RowId → List Write →
      Set RowId → Database → Prop} {newId laboratoryId userId : Uuid} {codeHmac : String}
    {expiresAt : Timestamp} (h : Revoking now log ks d)
    (hn : ∀ pending ks d, Revoking now log ks d → Q none pending log ks d)
    (hs : ∀ pending ks d r, Revoking now log ks d → r.IsOutstanding → r.laboratoryId = laboratoryId →
      r.createdByUserId = userId →
      Q (some r) pending (log ++ [.guestRegistrationCodes (.insert r)]) ks d) :
    (codeDiscipline hasher).Safe Q
      (insertRegistrationCode now newId laboratoryId codeHmac userId expiresAt) pending log ks d := by
  refine safe_lock stable_revoking h fun d _ h => ?_
  refine safe_select stable_revoking h fun d v _ h _ => ?_
  let r : GuestRegistrationCodeRow :=
    ⟨newId, laboratoryId, codeHmac, userId, now, expiresAt, none, none⟩
  change (codeDiscipline hasher).Safe Q (if (v.guestRegistrationCodes.find? newId).isSome ||
    (v.guestRegistrationCodes.clash? r).isSome then pure none else _) _ _ _ _
  split
  case isTrue => exact hn _ _ _ h
  case isFalse =>
    exact safe_write stable_revoking h fun d _ _ _ h _ _ => hs _ _ _ r h rfl rfl rfl

omit [ScanOrder] in
theorem commit_generate {r : GuestRegistrationCodeRow}
    (hb : ∃ attempts, b.call = .generate ctx attempts) (h : Revoking now log ks d)
    (ho : r.IsOutstanding) (hl : r.laboratoryId = ctx.laboratoryId)
    (hu : r.createdByUserId = ctx.actor.userId) : (codeDiscipline hasher).Commit b ()
      pending (log ++ [.guestRegistrationCodes (.insert r)]) ks d := by
  refine commit_of_guar fun d' v he hv => ?_
  obtain ⟨v₁, hv₁, ha⟩ := replay_concat.mp hv
  have hr : Revoked ks d' v₁ := (stable_revoking.env he h).revoked hv₁
  obtain ⟨hi, hus⟩ := apply_insertCode ha
  have hmem {r' : GuestRegistrationCodeRow} (h : r' ∈ v₁.guestRegistrationCodes) :
      r' ∈ v.guestRegistrationCodes := (Table.mem_insert hi).mpr (.inl h)
  obtain ⟨attempts, hb⟩ := hb
  constructor
  case left =>
    refine ⟨fun r' hr' hn => hmem (hr.keeps.codes r' hr' hn),
      fun r' hr' hn => hmem (hr.keeps.settled r' hr' hn), fun u hm hn => ?_⟩
    rw [hus]
    exact hr.keeps.users u hm hn
  case right =>
    rw [Effect, hb]
    refine ⟨r, (Table.mem_insert hi).mpr (.inr rfl), ho, hl, hu, fun r' hr' hn => ?_,
      hus.trans hr.users⟩
    obtain ⟨r₁, hr₁, he⟩ := hr.identifiers r' hr'
    exact (Table.insert_eq_ok.mp hi).left r₁ hr₁ (he.trans hn)

theorem safe_allocateRegistrationCode {attempts : List (Fin 1000000 × Uuid)} {expiresAt : Timestamp}
    (hb : ∃ attempts, b.call = .generate ctx attempts) (h : Revoking now log ks d) :
    (codeDiscipline hasher).Safe (fun _ => (codeDiscipline hasher).Commit b ())
      (allocateRegistrationCode hasher now ctx expiresAt attempts) pending log ks d := by
  induction attempts generalizing pending log ks d
  case nil => trivial
  case cons attempt attempts ih =>
    unfold allocateRegistrationCode
    refine safe_bind.mpr <| safe_revokeRegistrationCodes h fun pending log ks d h => ?_
    refine safe_bind.mpr <| safe_insertRegistrationCode h ?_ ?_
    case refine_1 => exact fun pending ks d h => ih h
    case refine_2 =>
      exact fun pending ks d r h ho hl hu => commit_generate hb h ho hl hu

theorem respects_generate {attempts : List (Fin 1000000 × Uuid)}
    (hb : b.call = .generate ctx attempts) :
    (codeDiscipline hasher).Respects b (do
      let _ ← createGuestRegistrationCode hasher now ctx attempts) := by
  intro d _
  have hA : (codeDiscipline hasher).Stable (Revoking now []) := stable_revoking
  have h : Revoking now [] ∅ d := fun _ hw => absurd hw List.not_mem_nil
  unfold createGuestRegistrationCode lockLaboratory
  simp only [bind_assoc]
  refine safe_readOnly readOnly_read hA h fun _ h => ?_
  refine safe_readOnly readOnly_require hA h fun _ h => ?_
  refine safe_readOnly readOnly_selectForUpdate hA h fun _ h => ?_
  refine safe_readOnly (p := pure _) readOnly_done hA h fun _ h => ?_
  refine safe_readOnly readOnly_require hA h fun _ h => ?_
  refine safe_bind.mpr <| safe_revokeRegistrationCodes h fun pending log ks d h => ?_
  refine safe_readOnly readOnly_read stable_revoking h fun _ h => ?_
  exact safe_bind.mpr <| safe_allocateRegistrationCode ⟨attempts, hb⟩ h

section Register

variable {payload : GuestRegistrationJsonData} {newUserId : Uuid} {salt codeHmac : String}
variable {code : GuestRegistrationCodeRow} {issuer guest : UserRow}

omit [ScanOrder] in
theorem commit_register (hb : b.call = .register payload newUserId salt)
    (h : Holds code issuer ks d) (hp : code.codeHmac = hasher.hashCode payload.registrationCode)
    (ho : code.IsOutstanding) (hx : b.now < code.expiresAt)
    (hu : issuer.userId = code.createdByUserId) (hi : isIssuer code issuer)
    (hr : guest.role = ⟨.guest, some code.laboratoryId⟩) :
    (codeDiscipline hasher).Commit b () pending
      [.guestRegistrationCodes (.update { code with consumedAt := some b.now }),
        .users (.insert guest)] ks d := by
  refine commit_of_guar fun d' v he hv => ?_
  have h := stable_holds.env he h
  simp only [replay_cons, replay_nil, Except.ok.injEq] at hv
  obtain ⟨v₁, ha, _, ha', rfl⟩ := hv
  obtain ⟨hw, hus⟩ := apply_updateCode ha
  obtain ⟨hw', hcs⟩ := apply_writeUser ha' nofun
  rw [← hcs] at hw
  rw [hus] at hw'
  constructor
  case left =>
    refine ⟨fun r hr hn => ?_, fun r hr hn => ?_, fun u hm _ => (Table.mem_insert hw').mpr (.inl hm)⟩
    case refine_1 =>
      refine (Table.mem_update hw).mpr (.inl ⟨hr, fun he => hn ?_⟩)
      have he : r.registrationCodeId = code.registrationCodeId := he
      exact he ▸ h.codeLocked
    case refine_2 =>
      refine (Table.mem_update hw).mpr (.inl ⟨hr, fun he => hn ?_⟩)
      rwa [Table.eq_of_key_eq hr h.code he]
  case right =>
    rw [Effect, hb]
    exact ⟨code, guest, h.code, hp, ho, hx, ⟨issuer, h.issuer, hu, hi⟩, hr, hw', hw⟩

omit [Cryptography] [ScanOrder] in
theorem registrationCode_of_parse [UnicodeSegmentation] [Credentials]
    {registration : GuestRegistration} (h : payload.parse = .ok registration) :
    registration.registrationCode = payload.registrationCode := by
  simp only [GuestRegistrationJsonData.parse, Except.bind_eq_ok, Except.pure_eq_ok] at h
  obtain ⟨_, _, _, _, _, _, _, _, code, hc, _, _, rfl⟩ := h
  unfold GuestRegistrationCode.parse at hc
  split at hc
  case isTrue => exact (Except.ok.inj hc).symm
  case isFalse => cases hc

omit [ScanOrder] in
theorem safe_consumeRegistrationCode
    {Q : Option GuestRegistrationCodeRow → List RowId → List Write → Set RowId → Database → Prop}
    (hn : ∀ pending ks d, Q none pending [] ks d)
    (hs : ∀ pending ks d code issuer, Holds code issuer ks d → code.codeHmac = codeHmac →
      code.IsOutstanding → now < code.expiresAt → issuer.userId = code.createdByUserId →
      isIssuer code issuer → Q (some code) pending
        [.guestRegistrationCodes (.update { code with consumedAt := some now })] ks d) :
    (codeDiscipline hasher).Safe Q (consumeRegistrationCode now codeHmac) pending [] ks d := by
  refine safe_select (A := fun _ _ => True) .const trivial fun d v _ _ _ => ?_
  beta_reduce
  cases v.guestRegistrationCodes.rows.find? (isCandidate now codeHmac v)
  case none => exact hn _ _ _
  case some candidate =>
    refine safe_lock (A := fun _ _ => True) .const trivial fun d _ _ => ?_
    refine safe_lock stable_locked (.inl rfl) fun d _ hk => ?_
    refine safe_select (stable_locked.and stable_locked) ⟨hk, .inl rfl⟩ fun d v _ hk hv => ?_
    obtain rfl := Except.ok.inj hv
    beta_reduce
    cases hf : (d.guestRegistrationCodes.find? candidate.registrationCodeId).filter fun r =>
      r.createdByUserId = candidate.createdByUserId && isCandidate now codeHmac d r
    case none => exact hn _ _ _
    case some code =>
      obtain ⟨hf, hc⟩ := Option.filter_eq_some_iff.mp hf
      obtain ⟨hm, hi⟩ := Table.find?_eq_some.mp hf
      have hi : code.registrationCodeId = candidate.registrationCodeId := hi
      simp only [isCandidate, Bool.and_eq_true, decide_eq_true_eq, Option.any_eq_true] at hc
      obtain ⟨hu, ⟨⟨hp, ho⟩, hx⟩, issuer, hfi, hiss⟩ := hc
      obtain ⟨hmi, hki⟩ := Table.find?_eq_some.mp hfi
      have hki : issuer.userId = code.createdByUserId := hki
      refine safe_write stable_holds (?_ : Holds code issuer _ d) fun d _ _ _ h _ _ =>
        hs _ _ d code issuer h hp ho hx hki hiss
      refine ⟨?_, ?_, hm, hmi⟩
      case refine_1 =>
        rw [hi]
        exact hk.left
      case refine_2 =>
        rw [hki.trans hu]
        exact hk.right

omit [ScanOrder] in
theorem respects_register [UnicodeSegmentation] [Credentials]
    (hb : b.call = .register payload newUserId salt) :
    (codeDiscipline hasher).Respects b (registerGuest hasher b.now payload newUserId salt) := by
  intro d _
  unfold registerGuest
  cases hp : payload.parse
  case error => trivial
  case ok registration =>
    change (codeDiscipline hasher).Safe _ (consumeRegistrationCode _ _ >>= _) _ _ _ _
    refine safe_bind.mpr <| safe_consumeRegistrationCode (fun _ _ _ => trivial) ?_
    intro pending ks d code issuer h hc ho hx hu hi
    rw [registrationCode_of_parse hp] at hc
    have hn : NewUser.new registration.username registration.password .guest
        (some code.laboratoryId) (some registration.email) (some registration.phoneNumber)
        registration.description = .ok _ := rfl
    simp only [Transaction.validated, hn]
    exact safe_write stable_holds h fun d _ _ _ h _ _ => commit_register hb h hc ho hx hu hi rfl

end Register

section Environment

variable {user : UserRow} {userId : Uuid}

omit [ScanOrder] in
theorem commit_updateUser (hb : Effect hasher b = fun d d' => d'.guestRegistrationCodes =
      d.guestRegistrationCodes) (hk : .user user.userId ∈ ks) :
    (codeDiscipline hasher).Commit b () pending [.users (.update user)] ks d := by
  refine commit_of_guar fun d' v _ hv => ?_
  simp only [replay_cons, replay_nil, Except.ok.injEq] at hv
  obtain ⟨_, ha, rfl⟩ := hv
  obtain ⟨hw, hc⟩ := apply_writeUser ha nofun
  refine ⟨⟨fun r hr _ => hc ▸ hr, fun r hr _ => hc ▸ hr, fun u hu hn => ?_⟩, hb ▸ hc⟩
  refine (Table.mem_update hw).mpr (.inl ⟨hu, fun he => hn ?_⟩)
  have he : u.userId = user.userId := he
  exact he ▸ hk

omit [ScanOrder] in
theorem respects_updateUser [UnicodeSegmentation] [Credentials] {actor : Actor}
    {payload : Users.UpdateUserJsonData} (hb : b.call = .updateUser actor userId payload) :
    (codeDiscipline hasher).Respects b (Users.updateUser actor userId payload) := by
  intro d _
  have hA : (codeDiscipline hasher).Stable fun _ _ => True := .const
  have hb : Effect hasher b = fun d d' => d'.guestRegistrationCodes = d.guestRegistrationCodes := by
    funext d d'
    rw [Effect, hb]
  refine safe_readOnly readOnly_fetch hA trivial fun {target} _ _ _ _ _ => ?_
  refine safe_readOnly readOnly_require hA trivial fun _ _ => ?_
  refine safe_readOnly readOnly_ofExcept hA trivial fun _ _ => ?_
  refine safe_readOnly readOnly_read hA trivial fun _ _ => ?_
  refine safe_readOnly readOnly_require hA trivial fun _ _ => ?_
  refine safe_lock (A := fun _ _ => True) .const trivial fun d _ _ => ?_
  refine safe_select stable_locked (.inl rfl) fun d v _ hk _ => ?_
  beta_reduce
  cases hf : v.users.find? target.userId
  case none => trivial
  case some r =>
    have hi : r.userId = target.userId := (Table.find?_eq_some.mp hf).right
    exact safe_write stable_locked (hi ▸ hk) fun d _ _ _ hk _ _ => commit_updateUser hb hk

omit [ScanOrder] in
theorem respects_clock {w : Write} (hw : (∃ t, w = .clock t) ∨ ∃ t, w = .serverClock t)
    (hb : Effect hasher b = fun d d' => d'.guestRegistrationCodes = d.guestRegistrationCodes) :
    (codeDiscipline hasher).Respects b (.exec w statementError) := by
  intro d _
  refine safe_write (A := fun _ _ => True) .const trivial fun d _ _ _ _ _ _ => ?_
  refine commit_of_guar fun d' v _ hv => ?_
  simp only [List.nil_append, replay_cons, replay_nil, Except.ok.injEq] at hv
  obtain ⟨_, ha, rfl⟩ := hv
  rw [hb]
  rcases hw with ⟨t, rfl⟩ | ⟨t, rfl⟩
  all_goals
    obtain rfl := Except.ok.inj ha
    exact ⟨⟨fun _ h _ => h, fun _ h _ => h, fun _ h _ => h⟩, rfl⟩

end Environment

theorem Begun.respects [UnicodeSegmentation] [Credentials] :
    (codeDiscipline hasher).Respects b (b.call.handle hasher b.now) := by
  obtain ⟨call, now⟩ := b
  cases call
  case generate => exact respects_generate rfl
  case register => exact respects_register rfl
  case updateUser => exact respects_updateUser rfl
  case clock => exact respects_clock (.inl ⟨_, rfl⟩) rfl
  case serverClock => exact respects_clock (.inr ⟨_, rfl⟩) rfl

end Safety

section Runs

variable {ι : Type}

abbrev CodeConfig (ι : Type) := Config ι Database RowId Write Constraint ApiError Unit

abbrev CodeAction (ι : Type) := Sql.Action ι Database RowId Write Constraint ApiError Unit

variable [Cryptography] [ScanOrder] [UnicodeSegmentation] [Credentials]

-- Each transaction handles the request that it is meant for, and knows when it has begun.
def Begins (hasher : GuestRegistrationHasher) (role : ι → Begun) (c : CodeConfig ι) :
    CodeAction ι → Prop
  | .begin i p => p = (role i).call.handle hasher (role i).now ∧ (role i).now = c.db.now
  | .step _ | .commit _ | .rollback _ => True

variable {hasher : GuestRegistrationHasher} {role : ι → Begun}

theorem admits_of_begins {c : CodeConfig ι} {a : CodeAction ι} (h : Begins hasher role c a) :
    (codeDiscipline hasher).Admits role c a := by
  cases a
  case begin i p =>
    obtain ⟨rfl, _⟩ := h
    exact Begun.respects
  case commit => exact fun _ _ _ _ _ _ _ _ => trivial
  case step | rollback => trivial

variable [DecidableEq ι] {c c' c₁ c₂ : CodeConfig ι} {i : ι}

-- A code which is not outstanding anymore stays so.
theorem settled_of_run {r : GuestRegistrationCodeRow} (h : (codeDiscipline hasher).Holds role c₁)
    (hr : Config.Run (Begins hasher role) c₁ c₂) (hm : r ∈ c₁.db.guestRegistrationCodes)
    (hn : ¬r.IsOutstanding) : r ∈ c₂.db.guestRegistrationCodes := by
  obtain ⟨_, hg⟩ := h.run (fun _ _ => admits_of_begins) hr
  generalize c₂.db = d₂ at hg ⊢
  induction hg
  case refl => exact hm
  case tail hg ih =>
    obtain ⟨_, _, _, _, hk, _⟩ := hg
    exact hk.settled r ih hn

end Runs

section Examples

open Users

end Examples

end Guests

end LabInventory
