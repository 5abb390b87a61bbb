import LabInventory.Library.Watch
import LabInventory.Users.Theorems

open Sql Program

namespace LabInventory

namespace Users

-- The parts of a user that a payload either mentions or leaves alone.
inductive Part
  | role
  | email
  | phoneNumber
  | description

namespace Part

abbrev Value : Part → Type
  | role => UserRole
  | email | phoneNumber | description => Option String

def value : (part : Part) → UserRow → part.Value
  | role => UserRow.role
  | email => UserRow.email
  | phoneNumber => UserRow.phoneNumber
  | description => UserRow.description

def mentioned (payload : UpdateUserJsonData) : Part → Bool
  | role => payload.updatesRoleOrLaboratory
  | email => payload.email.isSome
  | phoneNumber => payload.phoneNumber.isSome
  | description => payload.description.isSome

end Part

structure Edit where
  actor : Actor
  payload : UpdateUserJsonData

variable [UnicodeSegmentation] [Credentials] {target : Uuid} {part : Part} {d d' : Database}

def Edit.handle (target : Uuid) (edit : Edit) : Transaction Unit :=
  updateUser edit.actor target edit.payload

abbrev EditWatch (ι : Type) :=
  Watch ι Edit Database RowId Write Constraint ApiError Unit

abbrev EditEvent (ι : Type) :=
  Event ι Edit

section Edits

variable {edit : Edit} {ds : List Database} {x : Unit × List Write} {t : UserRow}

-- A payload that does not mention a part leaves it as it was read.
theorem unmentioned_of_intoUpdateUser {payload : UpdateUserJsonData} {userType laboratoryId}
    {u : UpdateUser} (h : payload.intoUpdateUser userType laboratoryId = .ok u) :
    (¬payload.updatesRoleOrLaboratory → u.userType = userType ∧ u.laboratoryId = laboratoryId) ∧
    (payload.email = none → u.email = .unchanged) ∧
    (payload.phoneNumber = none → u.phoneNumber = .unchanged) ∧
    (payload.description = none → u.description = .unchanged) := by
  refine ⟨(payload.intoUpdateUser_eq_ok h).right, ?_⟩
  simp only [UpdateUserJsonData.intoUpdateUser, UpdateUser.new, Except.bind_eq_ok,
    Except.pure_eq_ok] at h
  obtain ⟨_, _, _, _, email, he, phoneNumber, hp, description, hd, _, _, rfl⟩ := h
  refine ⟨fun hn => ?_, fun hn => ?_, fun hn => ?_⟩
  case refine_1 => simpa [hn, NullableUpdate.parse, eq_comm] using he
  case refine_2 => simpa [hn, NullableUpdate.parse, eq_comm] using hp
  case refine_3 => simpa [hn, NullableUpdate.parse, eq_comm] using hd

omit [UnicodeSegmentation] [Credentials] in
theorem userId_of_fetchUser (h : fetchUser target d = some t) : t.userId = target := by
  obtain ⟨_, hf, ht⟩ := Option.bind_eq_some_iff.mp h
  obtain rfl := Option.some.inj ht
  exact (Table.find?_eq_some.mp hf).right

theorem outcome_edit (h : (edit.handle target).outcome ds = some x) :
    ∃ d ds' t row, ds = d :: ds' ∧ fetchUser target d = some t ∧
      x.2 = [.users (.update row)] ∧ row.userId = target ∧
      ∀ part, ¬Part.mentioned edit.payload part → part.value row = part.value t := by
  simp only [Edit.handle, updateUser, updateUserInDatabase, exec, lockRow, lock_bind, done_bind,
    outcome_lock, outcome_fetch_bind, outcome_require_bind, outcome_read_bind,
    Transaction.validated, outcome_ofExcept_bind, Except.mapError_eq_ok] at h
  obtain ⟨d, _, t, rfl, ht, _, u, hu, _, _, _, _, d', _, r, _, hr, h⟩ := h
  obtain ⟨_, hdone, hx⟩ := outcome_write.mp h
  obtain ⟨_, _, rfl⟩ := outcome_done.mp hdone
  obtain ⟨hrole, hemail, hphone, hdescription⟩ := unmentioned_of_intoUpdateUser hu
  have hid : r.userId = target :=
    (Table.find?_eq_some.mp hr).right.trans (userId_of_fetchUser ht)
  refine ⟨d, _, t, _, rfl, ht, hx.symm, hid, fun part hp => ?_⟩
  cases part
  case role =>
    obtain ⟨hu, hl⟩ := hrole hp
    simp [Part.value, UserRow.role, hu, hl]
  case email => simp [Part.value, hemail (by simpa [Part.mentioned] using hp), NullableUpdate.resolve]
  case phoneNumber =>
    simp [Part.value, hphone (by simpa [Part.mentioned] using hp), NullableUpdate.resolve]
  case description =>
    simp [Part.value, hdescription (by simpa [Part.mentioned] using hp), NullableUpdate.resolve]

end Edits

section Runs

variable {ι : Type} [DecidableEq ι] {w w' : EditWatch ι} {i : ι}

-- The parts that the payload leaves alone are still what they were when the target was read.
def Undisturbed (target : Uuid) (w : EditWatch ι) (i : ι) : Prop :=
  ∀ edit d ds, w.reads i = some (edit, d :: ds) → ∀ part, ¬Part.mentioned edit.payload part →
    (w.db.users.find? target).map part.value = (fetchUser target d).map part.value

def Considerate (target : Uuid) (w : EditWatch ι) : EditEvent ι → Prop
  | .commit i => Undisturbed target w i
  | _ => True

-- The state after the last edit that mentions the part, or the initial one.
def latest (part : Part) (d : Database) (w : EditWatch ι) : Database :=
  ((w.commits.find? fun c => Part.mentioned c.call.payload part).map (·.after)).getD d

omit [DecidableEq ι] [UnicodeSegmentation] [Credentials] in
theorem latest_cons {c : Committed Edit Database} {w' : EditWatch ι}
    (h : w'.commits = c :: w.commits) : latest part d w' =
      if Part.mentioned c.call.payload part then c.after else latest part d w := by
  simp only [latest, h, List.find?_cons]
  cases Part.mentioned c.call.payload part <;> rfl

theorem commit_edit (h : Watch.Sound (Edit.handle target) w)
    (hs : w.step? (Edit.handle target) (.commit i) = some w') :
    ∃ edit d ds t row, w.reads i = some (edit, d :: ds) ∧ fetchUser target d = some t ∧
      row.userId = target ∧ w.db.users.update row = .ok w'.db.users ∧
      (∀ part, ¬Part.mentioned edit.payload part → part.value row = part.value t) ∧
      w'.commits = ⟨edit, w.begun i, d :: ds, w.db, w'.db⟩ :: w.commits := by
  obtain ⟨edit, _, _, _, hr, ho, hv, hc⟩ := h.commit hs
  obtain ⟨d, ds, t, row, rfl, ht, rfl, hid, hp⟩ := outcome_edit ho
  obtain ⟨_, ha, he⟩ := replay_cons.mp hv
  obtain rfl := Except.ok.inj he
  exact ⟨edit, d, ds, t, row, hr, ht, hid, (Database.applied_of_apply ha).left, hp, hc⟩

theorem commit_keeps (h : Watch.Sound (Edit.handle target) w) (hu : Undisturbed target w i)
    (hs : w.step? (Edit.handle target) (.commit i) = some w') :
    ∃ c, w'.commits = c :: w.commits ∧ c.after = w'.db ∧ ∀ part,
      ¬Part.mentioned c.call.payload part →
      (w'.db.users.find? target).map part.value = (w.db.users.find? target).map part.value := by
  obtain ⟨edit, d, ds, t, row, hr, ht, rfl, hw, hp, hc⟩ := commit_edit h hs
  refine ⟨_, hc, rfl, fun part hn => ?_⟩
  have he := hu edit d ds hr part hn
  rw [ht] at he
  obtain ⟨r, hf, _⟩ := Option.map_eq_some_iff.mp he
  have hf' : w'.db.users.find? row.userId = some row := Table.find?_update_self hw hf
  rw [he, hf', Option.map_some, Option.map_some, hp part hn]

theorem kept_of_considerate (hr : Watch.Run (Edit.handle target) (Considerate target)
    (Watch.init d) w) : (w.db.users.find? target).map part.value =
      ((latest part d w).users.find? target).map part.value := by
  induction hr
  case refl => rfl
  case step w₁ w₂ e hrun hp hs ih =>
    have hsound : Watch.Sound (Edit.handle target) w₁ := hrun.sound .init
    cases e
    case commit i =>
      obtain ⟨c, hc, ha, hk⟩ := commit_keeps hsound hp hs
      rw [latest_cons hc]
      split
      case isTrue => rw [ha]
      case isFalse hn => exact (hk part hn).trans ih
    all_goals
      obtain ⟨hdb, hc⟩ := Watch.db_of_step hs (by simp)
      have hl : latest part d w₂ = latest part d w₁ := by rw [latest, hc, latest]
      rw [hdb, hl]
      exact ih

-- An edit of a user who is still there keeps what it does not mention iff it is undisturbed.
theorem keeps_iff_undisturbed (h : Watch.Sound (Edit.handle target) w)
    (hs : w.step? (Edit.handle target) (.commit i) = some w')
    (hu : (w.db.users.find? target).isSome) :
    Undisturbed target w i ↔ ∀ edit ds, w.reads i = some (edit, ds) → ∀ part,
      ¬Part.mentioned edit.payload part →
      (w'.db.users.find? target).map part.value = (w.db.users.find? target).map part.value := by
  obtain ⟨edit, d, ds, t, row, hr, ht, rfl, hw, hp, _⟩ := commit_edit h hs
  obtain ⟨r, hf⟩ := Option.isSome_iff_exists.mp hu
  have hf' : w'.db.users.find? row.userId = some row := Table.find?_update_self hw hf
  constructor
  case mp =>
    rintro hd _ _ he part hn
    obtain ⟨rfl, rfl⟩ := Prod.mk.inj (Option.some.inj (hr.symm.trans he))
    rw [hd edit d ds hr part hn, hf', ht, Option.map_some, Option.map_some, hp part hn]
  case mpr =>
    rintro hk _ _ _ he part hn
    obtain ⟨rfl, hds⟩ := Prod.mk.inj (Option.some.inj (hr.symm.trans he))
    obtain ⟨rfl, rfl⟩ := List.cons.inj hds
    rw [← hk edit _ hr part hn, hf', ht, Option.map_some, Option.map_some, hp part hn]

-- Each part of the target is what the last edit that mentions it has made of it, as long as edits
-- are only committed while they are undisturbed.
theorem role_changes_kept (hr : Watch.Run (Edit.handle target) (Considerate target)
    (Watch.init d) w) :
    (∀ part, (w.db.users.find? target).map (Part.value part) =
      ((latest part d w).users.find? target).map (Part.value part)) ∧
    ∀ i w', w.step? (Edit.handle target) (.commit i) = some w' →
      (w.db.users.find? target).isSome → (Undisturbed target w i ↔
        ∀ edit ds, w.reads i = some (edit, ds) → ∀ part, ¬Part.mentioned edit.payload part →
          (w'.db.users.find? target).map part.value = (w.db.users.find? target).map part.value) :=
  ⟨fun _ => kept_of_considerate hr, fun _ _ hs hu => keeps_iff_undisturbed (hr.sound .init) hs hu⟩

end Runs

section Examples

def emptyEdit : UpdateUserJsonData where
  username := none
  userType := none
  laboratoryId := none
  email := none
  phoneNumber := none
  description := none

-- An administrator is made a regular user, and edits the own profile.
def demotion : Edit where
  actor := { userId := 1, userType := .root, laboratoryId := none }
  payload := { emptyEdit with userType := some "user" }

def ownEdit : Edit where
  actor := { userId := 2, userType := .labAdmin, laboratoryId := some 1 }
  payload := { emptyEdit with description := some (some "At the office on Mondays") }

def demotionAround : List (EditEvent Bool) :=
  [.begin false ownEdit, .step false, .begin true demotion] ++ List.replicate 5 (.step true) ++
  [.commit true] ++ List.replicate 4 (.step false) ++ [.commit false]

omit [UnicodeSegmentation] [Credentials] in
theorem demotion_undone :
    let _ := UnicodeSegmentation.characters
    let _ := plainCredentials
    ∃ w : EditWatch Bool, Watch.Run (Edit.handle 2) (fun _ _ => True) (Watch.init office) w ∧
      (w.db.users.find? 2).map (Part.value .role) ≠
        ((latest .role office w).users.find? 2).map (Part.value .role) := by
  let _ := UnicodeSegmentation.characters
  let _ := plainCredentials
  have he : ((Watch.init office : EditWatch Bool).exec (Edit.handle 2) demotionAround).map
      (fun w => ((w.db.users.find? 2).map (·.userType),
        ((latest .role office w).users.find? 2).map (·.userType))) =
      some (some .labAdmin, some .user) := by
    decide +kernel
  obtain ⟨w, he, hw⟩ := Option.map_eq_some_iff.mp he
  obtain ⟨h₁, h₂⟩ := Prod.mk.inj hw
  refine ⟨w, .of_exec he fun _ _ _ => trivial, fun hk => ?_⟩
  have hk := congrArg (Option.map UserRole.userType) hk
  simp only [Option.map_map] at hk
  exact absurd (h₁.symm.trans (hk.trans h₂)) (by decide)

section Steps

variable {ι : Type} {w : EditWatch ι} {i : ι}

omit [UnicodeSegmentation] [Credentials] in
theorem considerate_of_ne_commit {e : EditEvent ι} (he : ∀ i, e ≠ .commit i) :
    Considerate target w e := by
  cases e
  case commit i => exact absurd rfl (he i)
  all_goals trivial

-- The edit has read the administrator as they are now.
def ReadsCurrent (w : EditWatch ι) (i : ι) : Prop :=
  (w.reads i).any fun r => r.2.head?.any fun d => fetchUser 2 d = w.db.users.find? 2

instance : Decidable (ReadsCurrent w i) :=
  inferInstanceAs <| Decidable (_ = true)

omit [UnicodeSegmentation] [Credentials] in
theorem ReadsCurrent.undisturbed (h : ReadsCurrent w i) : Undisturbed 2 w i := by
  intro edit d ds hr part _
  simp only [ReadsCurrent, hr, Option.any_some, List.head?_cons, decide_eq_true_eq] at h
  rw [h]

end Steps

omit [UnicodeSegmentation] [Credentials] in
-- The administrator is demoted while the edit of the own profile is under way, before that has read
-- anything.
theorem role_changes_kept_demotion :
    let _ := UnicodeSegmentation.characters
    let _ := plainCredentials
    ∃ w : EditWatch Bool, w.commits.length = 2 ∧
      (w.db.users.find? 2).map (·.userType) = some .user ∧
      ∀ part, (w.db.users.find? 2).map (Part.value part) =
        ((latest part office w).users.find? 2).map (Part.value part) := by
  let _ := UnicodeSegmentation.characters
  let _ := plainCredentials
  let es : List (EditEvent Bool) :=
    .begin false ownEdit :: .begin true demotion :: List.replicate 5 (.step true)
  let es' : List (EditEvent Bool) := List.replicate 5 (.step false)
  have he : ((Watch.init office : EditWatch Bool).exec (Edit.handle 2) es).any fun w₁ =>
      ReadsCurrent w₁ true ∧ (w₁.step? (Edit.handle 2) (.commit true)).any fun w₂ =>
        (w₂.exec (Edit.handle 2) es').any fun w₃ =>
          ReadsCurrent w₃ false ∧ (w₃.step? (Edit.handle 2) (.commit false)).any fun w₄ =>
            w₄.commits.length = 2 ∧ (w₄.db.users.find? 2).map (·.userType) = some .user := by
    decide +kernel
  obtain ⟨w₁, he₁, h⟩ := (Option.any_eq_true _ _).mp he
  obtain ⟨hd₁, h⟩ := of_decide_eq_true h
  obtain ⟨w₂, hs₂, h⟩ := (Option.any_eq_true _ _).mp h
  obtain ⟨w₃, he₃, h⟩ := (Option.any_eq_true _ _).mp h
  obtain ⟨hd₃, h⟩ := of_decide_eq_true h
  obtain ⟨w₄, hs₄, h⟩ := (Option.any_eq_true _ _).mp h
  obtain ⟨hc, hu⟩ := of_decide_eq_true h
  have hr₁ : Watch.Run (Edit.handle 2) (Considerate 2) (Watch.init office) w₁ := by
    refine .of_exec he₁ fun w e he => considerate_of_ne_commit fun i hi => ?_
    subst hi
    simp [es] at he
  have hr₂ := hr₁.step (e := .commit true) hd₁.undisturbed hs₂
  have hr₃ := hr₂.trans <| .of_exec he₃ fun w e he => considerate_of_ne_commit fun i hi => ?_
  case refine_1 => exact absurd (List.eq_of_mem_replicate he) (hi ▸ nofun)
  have hr₄ := hr₃.step (e := .commit false) hd₃.undisturbed hs₄
  exact ⟨w₄, hc, hu, (role_changes_kept hr₄).left⟩

end Examples

end Users

end LabInventory
