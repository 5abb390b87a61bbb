import LabInventory.Users.Basic

open Sql Program

namespace LabInventory

-- The foreign key of `users.laboratory_id`.
def Database.LaboratoriesOfUsers (d : Database) : Prop :=
  ∀ r ∈ d.users, ∀ l ∈ r.laboratoryId, (d.laboratories.find? l).isSome

def Database.role? (d : Database) (userId : Uuid) : Option UserRole :=
  (d.users.find? userId).map (·.role)

def Database.HasRoot (d : Database) : Prop :=
  ∃ r ∈ d.users, r.userType = .root

variable {d d' : Database} {actor : Actor} {id : Uuid}

theorem getActor_eq_some : getActor d id = some actor ↔
    ∃ r, d.users.find? id = some r ∧ actor = ⟨r.userId, r.userType, r.laboratoryId⟩ := by
  simp [getActor, eq_comm]

theorem Actor.canManageUser_of_isLabAdmin {role} (hl : actor.isLabAdmin)
    (h : actor.canManageUser role) :
    ¬role.userType.ServerScoped ∧ ∃ l, role.laboratoryId = some l ∧ actor.laboratoryId = some l := by
  have ha : actor.isAdmin := by simp_all [isLabAdmin, isAdmin]
  simp only [canManageUser, ha, hl] at h
  cases hr : role.laboratoryId <;> simp_all [UserType.ServerScoped]

theorem Actor.canManageUser_of_isSuperAdmin {role} (hs : actor.isSuperAdmin)
    (h : actor.canManageUser role) : role.userType ≠ .root := by
  have ha : actor.isAdmin ∧ ¬actor.isLabAdmin := by
    simp_all [isSuperAdmin, isAdmin, isLabAdmin]
  simpa [canManageUser, ha, hs] using h

theorem Actor.isAdmin_of_canManageUser {role} (h : actor.canManageUser role) : actor.isAdmin := by
  by_contra ha
  simp [canManageUser, ha] at h

-- Only root users manage root users.
theorem Actor.isRoot_of_canManageUser {role} (h : actor.canManageUser role)
    (hr : role.userType = .root) : actor.isRoot := by
  have ha := isAdmin_of_canManageUser h
  simp only [isAdmin, Bool.or_eq_true, decide_eq_true_eq] at ha
  rcases ha with (ha | ha) | ha
  case inl.inl => simp [isRoot, ha]
  case inl.inr => exact absurd hr <| canManageUser_of_isSuperAdmin (by simp [isSuperAdmin, ha]) h
  case inr =>
    obtain ⟨hs, _⟩ := canManageUser_of_isLabAdmin (by simp [isLabAdmin, ha]) h
    exact absurd (.inr hr) hs

theorem requireLaboratory_eq_ok {userType laboratoryId} :
    requireLaboratory userType laboratoryId = .ok () ↔
      userType.ServerScoped ∨ laboratoryId.isSome := by
  unfold requireLaboratory
  by_cases hs : userType.ServerScoped <;> cases laboratoryId <;> simp [hs]

theorem UpdateUser.new_eq_ok {username userType laboratoryId email phoneNumber description}
    {currentUserType currentLaboratoryId} {u : UpdateUser}
    (h : UpdateUser.new username userType laboratoryId email phoneNumber description currentUserType
      currentLaboratoryId = .ok u) :
    u.userType = userType.getD currentUserType ∧
    u.laboratoryId = laboratoryId.resolve currentLaboratoryId ∧
    (u.userType.ServerScoped ∨ u.laboratoryId.isSome) := by
  simp only [UpdateUser.new, Except.bind_eq_ok, Except.pure_eq_ok] at h
  obtain ⟨_, hr, hu⟩ := h
  subst hu
  exact ⟨rfl, rfl, requireLaboratory_eq_ok.mp hr⟩

namespace Users

variable [UnicodeSegmentation] [Credentials] {r r' : UserRow}

omit [UnicodeSegmentation] [Credentials] in
theorem fetchUser_eq_some (hd : d.LaboratoriesOfUsers) :
    fetchUser id d = some r ↔ d.users.find? id = some r := by
  have hf {r} (hr : d.users.find? id = some r) :
      r.laboratoryId.filter (fun l => (d.laboratories.find? l).isSome) = r.laboratoryId := by
    cases hl : r.laboratoryId
    case none => rfl
    case some l => simp [hd r (Table.find?_eq_some.mp hr).left l hl]
  unfold fetchUser
  cases h : d.users.find? id
  case none => simp
  case some r₁ => simp [hf h]

-- Without a new role or laboratory, an update keeps the current ones.
theorem UpdateUserJsonData.intoUpdateUser_eq_ok {payload : UpdateUserJsonData} {userType}
    {laboratoryId} {u : UpdateUser} (h : payload.intoUpdateUser userType laboratoryId = .ok u) :
    (u.userType.ServerScoped ∨ u.laboratoryId.isSome) ∧
    (¬payload.updatesRoleOrLaboratory → u.userType = userType ∧ u.laboratoryId = laboratoryId) := by
  simp only [intoUpdateUser, Except.bind_eq_ok] at h
  obtain ⟨_, _, userType', ht, _, _, _, _, _, _, hn⟩ := h
  obtain ⟨hu, hl, hs⟩ := UpdateUser.new_eq_ok hn
  refine ⟨hs, fun hp => ?_⟩
  simp only [updatesRoleOrLaboratory, Bool.or_eq_true, not_or, Bool.not_eq_true,
    Option.isSome_eq_false_iff, Option.isNone_iff_eq_none] at hp
  rw [hp.left, Option.mapM_none, Except.pure_eq_ok] at ht
  rw [hu, hl, hp.right, ← ht]
  exact ⟨rfl, rfl⟩

-- Rows that only differ in the columns which users can change on their own.
structure SameRole (r r' : UserRow) : Prop where
  userId : r'.userId = r.userId
  passwordHash : r'.passwordHash = r.passwordHash
  role : r'.role = r.role

-- What an actor's request is allowed to write.
inductive Change (actor : Actor) (d : Database) : RowWrite UserRow Uuid → Prop
  | create {new} : actor.canManageUser new.role → Change actor d (.insert new)
  | update {old new} : d.users.find? new.userId = some old → actor.userId ≠ old.userId →
      actor.canManageUser old.role → actor.canManageUser new.role → Change actor d (.update new)
  | self {old new} : d.users.find? actor.userId = some old → SameRole old new →
      (old.userType.ServerScoped ∨ old.laboratoryId.isSome) → Change actor d (.update new)
  | delete {old} : d.users.find? old.userId = some old → actor.userId ≠ old.userId →
      actor.canManageUser old.role → Change actor d (.delete old.userId)

-- The request of an actor, about the user with the given id, changes `d` into `d'`.
def Changes (actor : Actor) (id : Uuid) (d d' : Database) : Prop :=
  ∃ w, apply (.users w) d = .ok d' ∧ w.key = id ∧ Change actor d w

theorem createUser_changes {payload salt} :
    (createUser actor payload id salt).wp (fun _ => True) (fun _ => True)
      (fun _ => Changes actor id d) d := by
  simp only [createUser, insertUser, wp_bind, Transaction.wp_validated, wp_read, wp_require,
    wp_exec, implies_true, and_true, true_and]
  intro newUser _ hp d' hw
  exact ⟨_, hw, rfl, .create hp⟩

omit [UnicodeSegmentation] [Credentials] in
theorem deleteUser_changes (hd : d.LaboratoriesOfUsers) :
    (deleteUser actor id).wp (fun _ => True) (fun _ => True) (fun _ => Changes actor id d) d := by
  simp only [deleteUser, deleteUserFromDatabase, wp_bind, wp_fetch, wp_read, wp_require, wp_exec,
    implies_true, and_true, true_and]
  intro target ht hn hp r hr d' hw
  have hf := (fetchUser_eq_some hd).mp ht
  have hi : target.userId = id := (Table.find?_eq_some.mp hf).right
  rw [hi, hf, Option.some.injEq] at hr
  subst hr
  exact ⟨_, hw, hi, .delete (hi.symm ▸ hf) hn hp⟩

theorem updateUser_changes {payload} (hd : d.LaboratoriesOfUsers) :
    (updateUser actor id payload).wp (fun _ => True) (fun _ => True)
      (fun _ => Changes actor id d) d := by
  simp only [updateUser, updateUserInDatabase, wp_bind, wp_lockRow, wp_fetch,
    Transaction.wp_validated, wp_read, wp_require, wp_exec, implies_true, and_true, true_and]
  intro target ht hs u hu hp r hr d' hw
  have hf := (fetchUser_eq_some hd).mp ht
  have hi : target.userId = id := (Table.find?_eq_some.mp hf).right
  rw [hi, hf, Option.some.injEq] at hr
  subst hr
  obtain ⟨hc, hk⟩ := UpdateUserJsonData.intoUpdateUser_eq_ok hu
  refine ⟨_, hw, hi, ?_⟩
  by_cases ha : actor.userId = target.userId
  case pos =>
    obtain ⟨ht, hl⟩ := hk fun hp => hs ⟨ha, hp⟩
    have hf : d.users.find? actor.userId = some target := ha ▸ hi ▸ hf
    refine .self hf ⟨rfl, rfl, ?_⟩ (ht ▸ hl ▸ hc)
    simp [UserRow.role, ht, hl]
  case neg =>
    have hp := hp.resolve_left ha
    simp only [validatePermission, Bool.and_eq_true] at hp
    exact .update (hi ▸ hf) ha hp.left hp.right

theorem handle_changes {request : Request} (hd : d.LaboratoriesOfUsers) :
    (request.handle actor).wp (fun _ => True) (fun _ => True)
      (fun _ => Changes actor request.target d) d := by
  cases request
  case create => exact createUser_changes
  case update => exact updateUser_changes hd
  case delete => exact deleteUser_changes hd

theorem process_changes {request : Request} (hd : d.LaboratoriesOfUsers) :
    (request.process id).wp (fun _ => True) (fun _ => True)
      (fun _ d' => ∃ actor, getActor d id = some actor ∧ Changes actor request.target d d') d := by
  simp only [Request.process, wp_bind, wp_fetch, implies_true, and_true]
  exact fun actor ha => wp_mono (handle_changes hd) fun _ _ hc => ⟨actor, ha, hc⟩

namespace Changes

omit [UnicodeSegmentation] [Credentials]

theorem others (h : Changes actor id d d') {id' : Uuid} (hn : id' ≠ id) :
    d'.users.find? id' = d.users.find? id' := by
  have ⟨w, hw, hk, _⟩ := h
  exact Table.find?_write_of_ne (Database.writeUsers_eq_ok hw).left <| hk ▸ hn.symm

theorem laboratoriesOfUsers (h : Changes actor id d d') (hd : d.LaboratoriesOfUsers) :
    d'.LaboratoriesOfUsers := by
  intro r hr
  have ⟨w, hw, _⟩ := h
  have ⟨hu, hl, hf⟩ := Database.writeUsers_eq_ok hw
  rw [hl]
  rcases Table.mem_write hu hr with hr | hr
  case inl => exact hd r hr
  case inr => exact hf r hr

-- Actors either manage another user, or update themselves.
theorem managed_or_self {userId} (ha : getActor d userId = some actor)
    (h : Changes actor id d d') :
    (id ≠ actor.userId ∧ actor.isAdmin ∧
      ∀ role, d.role? id = some role ∨ d'.role? id = some role → actor.canManageUser role) ∨
    (id = actor.userId ∧ ∃ old new, d.users.find? id = some old ∧ d'.users.find? id = some new ∧
      SameRole old new ∧ (old.userType.ServerScoped ∨ old.laboratoryId.isSome)) := by
  have ⟨w, hw, hk, hc⟩ := h
  have hu := (Database.writeUsers_eq_ok hw).left
  cases hc
  case create new hm =>
    obtain rfl : new.userId = id := hk
    have hn : d.users.find? new.userId = none := Table.find?_of_insert hu
    have hs : d'.users.find? new.userId = some new := Table.find?_insert_self hu
    have ⟨r, hr, ha⟩ := getActor_eq_some.mp ha
    have hi : actor.userId = userId := ha ▸ (Table.find?_eq_some.mp hr).right
    refine .inl ⟨fun he => ?_, Actor.isAdmin_of_canManageUser hm, fun role hr => ?_⟩
    case refine_1 => simp [he, hi, hr] at hn
    case refine_2 =>
      simp only [Database.role?, hn, hs, Option.map_some, Option.map_none, reduceCtorEq, false_or,
        Option.some.injEq] at hr
      exact hr ▸ hm
  case update old new ho hn hm hm' =>
    obtain rfl : new.userId = id := hk
    have hi : old.userId = new.userId := (Table.find?_eq_some.mp ho).right
    have hs : d'.users.find? new.userId = some new := Table.find?_update_self hu ho
    refine .inl ⟨fun he => hn (he.symm.trans hi.symm), Actor.isAdmin_of_canManageUser hm, ?_⟩
    simp only [Database.role?, ho, hs, Option.map_some, Option.some.injEq]
    rintro role (hr | hr)
    case inl => exact hr ▸ hm
    case inr => exact hr ▸ hm'
  case self old new ho hs hl =>
    obtain rfl : new.userId = id := hk
    have hi : new.userId = actor.userId := hs.userId.trans (Table.find?_eq_some.mp ho).right
    rw [← hi] at ho
    exact .inr ⟨hi, old, new, ho, Table.find?_update_self hu ho, hs, hl⟩
  case delete old ho hn hm =>
    obtain rfl : old.userId = id := hk
    have hs : d'.users.find? old.userId = none := Except.ok.inj hu ▸ Table.find?_delete_self
    refine .inl ⟨fun he => hn he.symm, Actor.isAdmin_of_canManageUser hm, fun role hr => ?_⟩
    simp only [Database.role?, ho, hs, Option.map_some, Option.map_none, reduceCtorEq, or_false,
      Option.some.injEq] at hr
    exact hr ▸ hm

end Changes

-- The effect that an actor's accepted requests about a user are limited to.
structure Permitted (actor : Actor) (id : Uuid) (d d' : Database) : Prop where
  others : ∀ id' ≠ id, d'.users.find? id' = d.users.find? id'
  labAdmin : actor.isLabAdmin → ∀ role, d.role? id = some role ∨ d'.role? id = some role →
    ¬role.userType.ServerScoped ∧ ∃ l, role.laboratoryId = some l ∧ actor.laboratoryId = some l
  superAdmin : actor.isSuperAdmin → ∀ role, d.role? id = some role ∨ d'.role? id = some role →
    role.userType ≠ .root
  member : actor.isRegularUser ∨ actor.isGuest → id = actor.userId
  self : id = actor.userId → ∃ old new,
    d.users.find? id = some old ∧ d'.users.find? id = some new ∧ SameRole old new

namespace Changes

omit [UnicodeSegmentation] [Credentials]

theorem permitted {userId} (ha : getActor d userId = some actor) (h : Changes actor id d d') :
    Permitted actor id d d' := by
  rcases managed_or_self ha h with ⟨hn, hi, hm⟩ | ⟨he, old, new, ho, hw, hs, hl⟩
  case inl =>
    exact {
      others _ := h.others
      labAdmin hl role hr := Actor.canManageUser_of_isLabAdmin hl (hm role hr)
      superAdmin hs role hr := Actor.canManageUser_of_isSuperAdmin hs (hm role hr)
      member hu := by
        simp only [Actor.isAdmin, Actor.isRegularUser, Actor.isGuest, Bool.or_eq_true,
          decide_eq_true_eq] at hi hu
        rcases hu with hu | hu <;> simp [hu] at hi
      self he := absurd he hn
    }
  case inr =>
    obtain ⟨r, hr, hi⟩ := getActor_eq_some.mp ha
    have hu : userId = id := by rw [he, hi]; exact (Table.find?_eq_some.mp hr).right.symm
    obtain rfl : r = old := Option.some.inj <| hr.symm.trans (hu ▸ ho)
    have hrole {role} (hr : d.role? id = some role ∨ d'.role? id = some role) :
        role = ⟨actor.userType, actor.laboratoryId⟩ := by
      simp only [Database.role?, ho, hw, Option.map_some, hs.role, or_self,
        Option.some.injEq] at hr
      rw [← hr, hi]
      rfl
    refine {
      others _ := h.others
      labAdmin hu role hr := ?_
      superAdmin hu role hr := ?_
      member _ := he
      self _ := ⟨r, new, ho, hw, hs⟩
    }
    case refine_1 =>
      subst hi
      simp only [Actor.isLabAdmin, decide_eq_true_eq] at hu
      rw [hrole hr]
      simp only [UserType.ServerScoped, hu] at hl ⊢
      obtain ⟨l, hl⟩ := Option.isSome_iff_exists.mp <| hl.resolve_left <| by simp
      exact ⟨by simp, l, hl, hl⟩
    case refine_2 =>
      simp only [Actor.isSuperAdmin, decide_eq_true_eq] at hu
      simp [hrole hr, hu]

-- Root users are only managed by other root users.
theorem hasRoot {userId} (ha : getActor d userId = some actor) (h : Changes actor id d d')
    (hd : d.HasRoot) : d'.HasRoot := by
  have ⟨root, hm, hr⟩ := hd
  have hf := Table.find?_key hm
  by_cases hi : root.userId = id
  case neg => exact ⟨root, (Table.find?_eq_some.mp <| h.others hi |>.trans hf).left, hr⟩
  case pos =>
    subst hi
    rcases managed_or_self ha h with ⟨hn, _, hm⟩ | ⟨_, old, new, ho, hw, hs, _⟩
    case inl =>
      -- The actor is a different root user, whose row is left alone.
      have hc := hm root.role <| .inl <| by
        have hf : d.users.find? root.userId = some root := hf
        simp [Database.role?, hf]
      have ha' := Actor.isRoot_of_canManageUser hc hr
      obtain ⟨r, hr, hi⟩ := getActor_eq_some.mp ha
      subst hi
      have hu : r.userId = userId := (Table.find?_eq_some.mp hr).right
      have hr' : d'.users.find? r.userId = some r := (h.others hn.symm).trans <| hu ▸ hr
      exact ⟨r, (Table.find?_eq_some.mp hr').left, by simpa [Actor.isRoot] using ha'⟩
    case inr =>
      obtain rfl : root = old := Option.some.inj <| hf.symm.trans ho
      have hr' : new.userType = root.userType := congrArg UserRole.userType hs.role
      exact ⟨new, (Table.find?_eq_some.mp hw).left, hr' ▸ hr⟩

end Changes

-- The states which are reached by processing one request after another.
inductive Reachable (d₀ : Database) : Database → Prop
  | refl : Reachable d₀ d₀
  | step {d₁} (userId : Uuid) (request : Request) :
    Reachable d₀ d₁ → Reachable d₀ ((request.process userId).after d₁)

theorem after_process {userId} {request : Request} (hd : d.LaboratoriesOfUsers) :
    (request.process userId).after d = d ∨ ∃ actor, getActor d userId = some actor ∧
      Changes actor request.target d ((request.process userId).after d) := by
  cases hr : (request.process userId).run d
  case error => exact .inl (after_of_error hr)
  case ok => exact .inr (after_of_ok hr ▸ wp_run (process_changes hd) hr)

theorem Reachable.laboratoriesOfUsers (h : Reachable d d') (hd : d.LaboratoriesOfUsers) :
    d'.LaboratoriesOfUsers := by
  induction h
  case refl => exact hd
  case step d userId request _ ih =>
    rcases after_process ih with he | ⟨actor, _, hc⟩
    case inl => rw [he]; exact ih
    case inr => exact hc.laboratoriesOfUsers ih

theorem Reachable.hasRoot (h : Reachable d d') (hd : d.LaboratoriesOfUsers) (hr : d.HasRoot) :
    d'.HasRoot := by
  induction h
  case refl => exact hr
  case step d userId request h ih =>
    rcases after_process (h.laboratoriesOfUsers hd) with he | ⟨actor, ha, hc⟩
    case inl => rw [he]; exact ih
    case inr => exact hc.hasRoot ha ih

theorem user_management {d₀ : Database} (hd : d₀.LaboratoriesOfUsers) (h : Reachable d₀ d) :
    (∀ userId (request : Request) d', (request.process userId).run d = .ok ((), d') →
      ∃ actor, getActor d userId = some actor ∧ Permitted actor request.target d d') ∧
    (d₀.HasRoot → d.HasRoot) := by
  refine ⟨fun userId request d' hr => ?_, h.hasRoot hd⟩
  have ⟨actor, ha, hc⟩ := wp_run (process_changes <| h.laboratoriesOfUsers hd) hr
  exact ⟨actor, ha, hc.permitted ha⟩

@[reducible]
def plainCredentials : Credentials where
  validateEmail s := s.contains '@'
  hashPassword salt password := salt ++ password

def officeUser (userId : Uuid) (username : String) (userType : UserType)
    (laboratoryId : Option Uuid) : UserRow where
  userId := userId
  username := username
  passwordHash := ""
  userType := userType
  laboratoryId := laboratoryId
  email := none
  phoneNumber := none
  description := none

def office : Database where
  __ := Database.empty
  laboratories := {{ laboratoryId := 1, name := "Office" }}
  users := {
    rows := [officeUser 1 "root" .root none, officeUser 2 "admin" .labAdmin (some 1),
      officeUser 3 "guest" .guest (some 1)]
    keyed := by decide
    indexed := by decide
  }

-- The lab admin deletes the guest.
def guestRemoval : Transaction Unit :=
  @Request.process UnicodeSegmentation.characters plainCredentials 2 (.delete 3)

omit [UnicodeSegmentation] [Credentials] in
theorem user_management_office : ∃ d', guestRemoval.run office = .ok ((), d') ∧
    Permitted ⟨2, .labAdmin, some 1⟩ 3 office d' ∧ d'.HasRoot := by
  let _ := UnicodeSegmentation.characters
  let _ := plainCredentials
  have hd : office.LaboratoriesOfUsers := by
    simp only [Database.LaboratoriesOfUsers, Table.mem_def, office, officeUser, List.mem_cons,
      List.not_mem_nil, or_false, forall_eq_or_imp, forall_eq]
    exact ⟨by simp, by rintro _ ⟨⟩; rfl, by rintro _ ⟨⟩; rfl⟩
  have hr : office.HasRoot := ⟨_, List.mem_cons_self, rfl⟩
  have hg : guestRemoval.run office = .ok ((), guestRemoval.after office) := rfl
  obtain ⟨a, ha, hp⟩ := (user_management hd .refl).left 2 (.delete 3) _ hg
  obtain rfl : ⟨2, .labAdmin, some 1⟩ = a := Option.some.inj ha
  have hs : Reachable office (guestRemoval.after office) := .step 2 (.delete 3) .refl
  exact ⟨_, hg, hp, (user_management hd hs).right hr⟩

end Users

end LabInventory
