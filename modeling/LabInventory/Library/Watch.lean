import LabInventory.Library.ReadCommitted

namespace Sql

variable {ι Call D K W C E α β : Type}

namespace Program

-- The result and the writes of a transaction whose statements read the given states, one after
-- another.
def outcome : Program D K W C E α → List D → Option (α × List W)
  | .done a, [] => some (a, [])
  | .select n, d :: ds => (n d).outcome ds
  | .lock _ _ n, ds => n.outcome ds
  | .write w _ n, ds => (n.outcome ds).map fun (a, log) => (a, w :: log)
  | _, _ => none

section Outcome

variable {p : Program D K W C E α} {f : α → Program D K W C E β} {a b : α} {x : α × List W}
variable {y : β × List W} {ds : List D} {log : List W}

@[simp] theorem outcome_done : (done a : Program D K W C E α).outcome ds = some x ↔
    a = x.1 ∧ ds = [] ∧ x.2 = [] := by
  cases ds <;> simp [outcome, Prod.ext_iff, eq_comm]

@[simp] theorem outcome_abort {e} : (abort e : Program D K W C E α).outcome ds = none := by
  cases ds <;> rfl

@[simp] theorem outcome_select {n : D → Program D K W C E α} :
    (select n).outcome ds = some x ↔ ∃ d ds', ds = d :: ds' ∧ (n d).outcome ds' = some x := by
  cases ds <;> simp [outcome]

@[simp] theorem outcome_lock {rest k} : (lock rest k p).outcome ds = p.outcome ds := by
  cases ds <;> rfl

@[simp] theorem outcome_write {w err} : (write w err p).outcome ds = some x ↔
    ∃ log, p.outcome ds = some (x.1, log) ∧ w :: log = x.2 := by
  have he : (write w err p).outcome ds = (p.outcome ds).map fun (a, log) => (a, w :: log) := by
    cases ds <;> rfl
  simp [he, Option.map_eq_some_iff, Prod.ext_iff]

@[simp] theorem outcome_read_bind {γ : Type} {g : D → γ} {f : γ → Program D K W C E β} :
    (read g >>= f).outcome ds = some y ↔ ∃ d ds', ds = d :: ds' ∧ (f (g d)).outcome ds' = some y :=
  outcome_select

@[simp] theorem outcome_fetch_bind {g : D → Option α} {e} :
    (fetch g e >>= f).outcome ds = some y ↔
      ∃ d ds' a, ds = d :: ds' ∧ g d = some a ∧ (f a).outcome ds' = some y := by
  simp only [fetch, select_bind, outcome_select]
  refine exists_congr fun d => exists_congr fun ds' => ?_
  cases g d <;> simp

@[simp] theorem outcome_require_bind {c : Prop} [Decidable c] {e} {f : Unit → Program D K W C E β} :
    (require c e >>= f).outcome ds = some y ↔ c ∧ (f ()).outcome ds = some y := by
  unfold require
  split <;> simp_all

@[simp] theorem outcome_ofExcept_bind {r : Except E α} :
    (ofExcept r >>= f).outcome ds = some y ↔ ∃ a, r = .ok a ∧ (f a).outcome ds = some y := by
  cases r <;> simp [ofExcept]

end Outcome

end Program

-- The transaction that an action belongs to.
def Action.session : Action ι D K W C E α → ι
  | .begin i _ | .step i | .commit i | .rollback i => i

namespace Config

variable [Storage D W C] [DecidableEq ι] [DecidableEq K]
variable {c c' : Config ι D K W C E α} {a : Action ι D K W C E α} {i j : ι}

theorem session_of_step (h : c.step? a = some c') (hj : j ≠ a.session) :
    c'.session j = c.session j := by
  cases a
  all_goals
    simp only [Action.session] at hj
    simp only [step?] at h
    repeat' split at h
    all_goals first | simp only [reduceCtorEq] at h | (obtain rfl := Option.some.inj h; simp [put, close, hj])

theorem db_of_step (h : c.step? a = some c') (ha : ∀ i, a ≠ .commit i) : c'.db = c.db := by
  cases a
  case commit i => exact absurd rfl (ha i)
  all_goals
    simp only [step?] at h
    repeat' split at h
    all_goals first | simp only [reduceCtorEq] at h | (obtain rfl := Option.some.inj h; rfl)

theorem commit_eq_some (h : c.step? (.commit i) = some c') :
    ∃ s a, c.session i = some s ∧ s.program = .done a ∧ replay s.log c.db = .ok c'.db := by
  simp only [step?] at h
  split at h
  case h_1 => simp at h
  case h_2 s hs =>
    split at h
    case h_1 a hp =>
      split at h
      case h_1 => simp at h
      case h_2 d hv =>
        obtain rfl := Option.some.inj h
        exact ⟨s, a, hs, hp, hv⟩
    case h_2 => simp at h

theorem session_commit (h : c.step? (.commit i) = some c') : c'.session i = none := by
  simp only [step?] at h
  repeat' split at h
  all_goals first | simp only [reduceCtorEq] at h | (obtain rfl := Option.some.inj h; simp [close])

theorem session_rollback (h : c.step? (.rollback i) = some c') : c'.session i = none := by
  simp only [step?] at h
  split at h
  case h_1 => simp at h
  case h_2 =>
    obtain rfl := Option.some.inj h
    simp [close]

end Config

-- What a transaction has written so far, and what it may still write.
structure Session.Writes (P : W → Prop) (s : Session D K W C E α) : Prop where
  log : ∀ w ∈ s.log, P w
  program : s.program.Writes P

section Writes

variable [Storage D W C] [DecidableEq ι] [DecidableEq K] {P : W → Prop}
variable {c c' : Config ι D K W C E α} {i : ι} {s s' : Session D K W C E α}

theorem Session.Writes.step (h : s.Writes P) (hs : c.session i = some s)
    (hc : c.step? (.step i) = some c') (hs' : c'.session i = some s') : s'.Writes P := by
  obtain ⟨p, log, pending⟩ := s
  simp only [Config.step?, hs] at hc
  cases p
  case done | abort => simp at hc
  case select n =>
    simp only at hc
    split at hc
    case h_1 => simp at hc
    case h_2 v _ =>
      obtain rfl := Option.some.inj hc
      obtain rfl : _ = s' := by simpa [Config.put] using hs'
      exact ⟨h.log, h.program v⟩
  case lock rest k n =>
    simp only at hc
    split at hc
    case isFalse => simp at hc
    case isTrue =>
      obtain rfl := Option.some.inj hc
      obtain rfl : _ = s' := by simpa [Config.put] using hs'
      exact ⟨h.log, h.program⟩
  case write w err n =>
    simp only at hc
    split at hc
    case h_1 => simp at hc
    case h_2 =>
      split at hc
      case h_1 =>
        obtain rfl := Option.some.inj hc
        obtain rfl : _ = s' := by simpa [Config.put] using hs'
        exact ⟨h.log, trivial⟩
      case h_2 =>
        obtain rfl := Option.some.inj hc
        obtain rfl : _ = s' := by simpa [Config.put] using hs'
        refine ⟨fun w' hw => ?_, h.program.right⟩
        rcases List.mem_append.mp hw with hw | hw
        case inl => exact h.log w' hw
        case inr => exact List.mem_singleton.mp hw ▸ h.program.left

-- The transactions `Q` of a run write what the programs write with which they begin.
theorem Config.Run.writes {R : Config ι D K W C E α → Action ι D K W C E α → Prop} {Q : ι → Prop}
    (hr : Config.Run R c c') (hR : ∀ c i p, R c (.begin i p) → Q i → p.Writes P)
    (h : ∀ i s, c.session i = some s → Q i → s.Writes P) :
    ∀ i s, c'.session i = some s → Q i → s.Writes P := by
  induction hr
  case refl => exact h
  case step c₁ c₂ a _ ha hs ih =>
    intro i s hi hq
    by_cases hne : i = a.session
    case neg => exact ih i s (Config.session_of_step hs hne ▸ hi) hq
    case pos =>
      cases a
      case begin j p =>
        obtain rfl : i = j := hne
        simp only [Config.step?] at hs
        split at hs
        case h_1 => simp at hs
        case h_2 =>
          obtain rfl := Option.some.inj hs
          obtain rfl : _ = s := by simpa [Config.put] using hi
          exact ⟨List.forall_mem_nil P, hR c₁ i p ha hq⟩
      case step j =>
        obtain rfl : i = j := hne
        cases hs₁ : c₁.session i
        case none => simp [Config.step?, hs₁] at hs
        case some s₁ => exact (ih i s₁ hs₁ hq).step hs₁ hs hi
      case commit j =>
        obtain rfl : i = j := hne
        rw [Config.session_commit hs] at hi
        cases hi
      case rollback j =>
        obtain rfl : i = j := hne
        rw [Config.session_rollback hs] at hi
        cases hi

end Writes

-- What can happen while requests are handled concurrently.
inductive Event (ι Call : Type)
  | begin (i : ι) (call : Call)
  | step (i : ι)
  | commit (i : ι)
  | rollback (i : ι)

def Event.action (handle : Call → Program D K W C E α) : Event ι Call → Action ι D K W C E α
  | begin i call => .begin i (handle call)
  | step i => .step i
  | commit i => .commit i
  | rollback i => .rollback i

-- A request that has been committed, and the states that its statements have read. `begun` requests
-- had been committed when it began.
structure Committed (Call D : Type) where
  call : Call
  begun : Nat
  reads : List D
  before : D
  after : D

-- There is a time while the request is handled at which `p` is true of what has been committed by then.
def Committed.Meanwhile (c : Committed Call D) (earlier : List (Committed Call D))
    (p : List (Committed Call D) → Prop) : Prop :=
  ∃ cs, cs <:+ earlier ∧ c.begun ≤ cs.length ∧ p cs

-- Records what the open requests have read, and which requests have been committed: the last one
-- comes first.
structure Watch (ι Call D K W C E α : Type) where
  config : Config ι D K W C E α
  reads : ι → Option (Call × List D)
  begun : ι → Nat
  commits : List (Committed Call D)

namespace Watch

def init (d : D) : Watch ι Call D K W C E α where
  config := .init d
  reads _ := none
  begun _ := 0
  commits := []

def db (w : Watch ι Call D K W C E α) : D :=
  w.config.db

variable [Storage D W C]

-- What the next statement of a transaction reads.
def view? (w : Watch ι Call D K W C E α) (i : ι) : Option D :=
  match w.config.session i with
  | some ⟨.select _, log, _⟩ => (replay log w.db).toOption
  | _ => none

variable [DecidableEq ι]

def record (w : Watch ι Call D K W C E α) (c : Config ι D K W C E α) :
    Event ι Call → Watch ι Call D K W C E α
  | .begin i call => {
      config := c
      reads := Function.update w.reads i (some (call, []))
      begun := Function.update w.begun i w.commits.length
      commits := w.commits
    }
  | .step i =>
    let reads := (w.reads i).map fun (call, ds) => (call, ds ++ (w.view? i).toList)
    { w with config := c, reads := Function.update w.reads i reads }
  | .commit i =>
    let commits := (w.reads i).toList.map fun (call, ds) => ⟨call, w.begun i, ds, w.db, c.db⟩
    { w with
      config := c
      reads := Function.update w.reads i none
      commits := commits ++ w.commits
    }
  | .rollback i => { w with config := c, reads := Function.update w.reads i none }

variable [DecidableEq K]

def step? (handle : Call → Program D K W C E α) (w : Watch ι Call D K W C E α)
    (e : Event ι Call) : Option (Watch ι Call D K W C E α) :=
  (w.config.step? (e.action handle)).map (w.record · e)

def exec (handle : Call → Program D K W C E α) (w : Watch ι Call D K W C E α)
    (es : List (Event ι Call)) : Option (Watch ι Call D K W C E α) :=
  es.foldlM (step? handle) w

inductive Run (handle : Call → Program D K W C E α)
    (P : Watch ι Call D K W C E α → Event ι Call → Prop) :
    Watch ι Call D K W C E α → Watch ι Call D K W C E α → Prop
  | refl {w} : Run handle P w w
  | step {w₁ w₂ w₃ e} : Run handle P w₁ w₂ → P w₂ e → w₂.step? handle e = some w₃ →
      Run handle P w₁ w₃

variable {handle : Call → Program D K W C E α} {P : Watch ι Call D K W C E α → Event ι Call → Prop}
variable {w w' w₁ w₂ w₃ : Watch ι Call D K W C E α} {e : Event ι Call} {i : ι} {d : D}

theorem Run.trans (h : Run handle P w₁ w₂) (h' : Run handle P w₂ w₃) : Run handle P w₁ w₃ := by
  induction h'
  case refl => exact h
  case step hp hs ih => exact .step ih hp hs

theorem Run.mono {Q : Watch ι Call D K W C E α → Event ι Call → Prop} (h : Run handle P w₁ w₂)
    (hp : ∀ w e, P w e → Q w e) : Run handle Q w₁ w₂ := by
  induction h
  case refl => exact .refl
  case step ha hs ih => exact .step ih (hp _ _ ha) hs

-- A run in which the given events occur, each of them while `P` holds.
theorem Run.of_exec {es : List (Event ι Call)} (h : w.exec handle es = some w')
    (hp : ∀ w, ∀ e ∈ es, P w e) : Run handle P w w' := by
  induction es generalizing w
  case nil => exact Option.some.inj h ▸ .refl
  case cons e es ih =>
    simp only [exec, List.foldlM_cons, Option.bind_eq_bind, Option.bind_eq_some_iff] at h
    obtain ⟨w₂, hs, he⟩ := h
    have hr : Run handle P w w₂ := .step .refl (hp w e (.head _)) hs
    exact hr.trans <| ih he fun w e he => hp w e (.tail _ he)

theorem step?_eq_some : w.step? handle e = some w' ↔
    ∃ c, w.config.step? (e.action handle) = some c ∧ w.record c e = w' :=
  Option.map_eq_some_iff

-- The records agree with what the open transactions have done so far.
structure Sound (handle : Call → Program D K W C E α) (w : Watch ι Call D K W C E α) : Prop where
  session : ∀ i s, w.config.session i = some s → ∃ call ds, w.reads i = some (call, ds) ∧
    ∀ ds' a log, s.program.outcome ds' = some (a, log) →
      (handle call).outcome (ds ++ ds') = some (a, s.log ++ log)

omit [Storage D W C] [DecidableEq ι] [DecidableEq K] in
theorem Sound.init : Sound handle (init d : Watch ι Call D K W C E α) where
  session := by simp [Watch.init, Config.init]

omit [Storage D W C] [DecidableEq K] in
-- An event changes the session of `i` and its records at most.
theorem Sound.update (h : Sound handle w) {c : Config ι D K W C E α} {reads begun commits}
    (hc : ∀ j ≠ i, c.session j = w.config.session j)
    (hi : ∀ s, c.session i = some s → ∃ call ds, reads = some (call, ds) ∧
      ∀ ds' a log, s.program.outcome ds' = some (a, log) →
        (handle call).outcome (ds ++ ds') = some (a, s.log ++ log)) :
    Sound handle ⟨c, Function.update w.reads i reads, begun, commits⟩ where
  session j s hj := by
    by_cases he : j = i
    case pos =>
      subst he
      simpa using hi s hj
    case neg =>
      obtain ⟨call, ds, hr, ho⟩ := h.session j s (hc j he ▸ hj)
      exact ⟨call, ds, by simpa [he] using hr, ho⟩

-- What is left of a transaction after its next statement.
theorem outcome_of_step {s s' : Session D K W C E α} (hs : w.config.session i = some s)
    {c : Config ι D K W C E α} (hc : w.config.step? (.step i) = some c)
    (hs' : c.session i = some s') : ∃ log, s'.log = s.log ++ log ∧
      ∀ ds a log', s'.program.outcome ds = some (a, log') →
        s.program.outcome ((w.view? i).toList ++ ds) = some (a, log ++ log') := by
  obtain ⟨p, log, pending⟩ := s
  simp only [Config.step?, hs] at hc
  cases p
  case done | abort => simp at hc
  case select n =>
    simp only at hc
    split at hc
    case h_1 => simp at hc
    case h_2 v hv =>
      obtain rfl := Option.some.inj hc
      obtain rfl : _ = s' := by simpa [Config.put] using hs'
      refine ⟨[], by simp, fun ds a log' ho => ?_⟩
      have hview : w.view? i = some v := by simp [view?, hs, db, hv, Except.toOption]
      simpa [hview] using ho
  case lock rest k n =>
    simp only at hc
    split at hc
    case isFalse => simp at hc
    case isTrue =>
      obtain rfl := Option.some.inj hc
      obtain rfl : _ = s' := by simpa [Config.put] using hs'
      refine ⟨[], by simp, fun ds a log' ho => ?_⟩
      have hview : w.view? i = none := by simp [view?, hs]
      simpa [hview] using ho
  case write wr err n =>
    have hview : w.view? i = none := by simp [view?, hs]
    simp only at hc
    split at hc
    case h_1 => simp at hc
    case h_2 v hv =>
      split at hc
      case h_1 =>
        obtain rfl := Option.some.inj hc
        obtain rfl : _ = s' := by simpa [Config.put] using hs'
        exact ⟨[], by simp, fun ds a log' ho => by simp at ho⟩
      case h_2 =>
        obtain rfl := Option.some.inj hc
        obtain rfl : _ = s' := by simpa [Config.put] using hs'
        refine ⟨[wr], rfl, fun ds a log' ho => ?_⟩
        simpa [hview] using ho

theorem Sound.step (h : Sound handle w) (hs : w.step? handle e = some w') : Sound handle w' := by
  obtain ⟨c, hc, rfl⟩ := step?_eq_some.mp hs
  have hothers : ∀ j ≠ (e.action handle).session, c.session j = w.config.session j :=
    fun j hj => Config.session_of_step hc hj
  cases e
  case begin i call =>
    refine h.update hothers fun s hs => ⟨call, [], rfl, fun ds a log ho => ?_⟩
    simp only [Event.action, Config.step?] at hc
    split at hc
    case h_1 => simp at hc
    case h_2 =>
      obtain rfl := Option.some.inj hc
      obtain rfl : _ = s := by simpa [Config.put] using hs
      exact ho
  case step i =>
    refine h.update hothers fun s' hs' => ?_
    cases hs : w.config.session i
    case none => simp [Event.action, Config.step?, hs] at hc
    case some s =>
      obtain ⟨call, ds, hr, ho⟩ := h.session i s hs
      obtain ⟨log, hl, ho'⟩ := outcome_of_step hs hc hs'
      refine ⟨call, ds ++ (w.view? i).toList, by simp [hr], fun ds' a log' hf => ?_⟩
      rw [hl, List.append_assoc, List.append_assoc]
      exact ho _ a _ (ho' ds' a log' hf)
  case commit i =>
    refine h.update hothers fun s hs => ?_
    rw [Config.session_commit hc] at hs
    cases hs
  case rollback i =>
    refine h.update hothers fun s hs => ?_
    rw [Config.session_rollback hc] at hs
    cases hs

theorem Run.sound (hr : Run handle P w w') (h : Sound handle w) : Sound handle w' := by
  induction hr
  case refl => exact h
  case step hs ih => exact ih.step hs

-- What has been committed is what the transaction computes from the states it has read.
theorem Sound.commit (h : Sound handle w) (hs : w.step? handle (.commit i) = some w') :
    ∃ call ds a log, w.reads i = some (call, ds) ∧
      (handle call).outcome ds = some (a, log) ∧ replay log w.db = .ok w'.db ∧
      w'.commits = ⟨call, w.begun i, ds, w.db, w'.db⟩ :: w.commits := by
  obtain ⟨c, hc, rfl⟩ := step?_eq_some.mp hs
  obtain ⟨s, a, hi, hp, hv⟩ := Config.commit_eq_some hc
  obtain ⟨call, ds, hr, ho⟩ := h.session i s hi
  refine ⟨call, ds, a, s.log, hr, ?_, hv, by simp [record, hr, db]⟩
  simpa [hp] using ho [] a []

theorem db_of_step (hs : w.step? handle e = some w') (he : ∀ i, e ≠ .commit i) :
    w'.db = w.db ∧ w'.commits = w.commits := by
  obtain ⟨c, hc, rfl⟩ := step?_eq_some.mp hs
  have hdb : c.db = w.db := by
    refine Config.db_of_step hc fun i => ?_
    cases e <;> simp_all [Event.action]
  cases e
  case commit i => exact absurd rfl (he i)
  all_goals exact ⟨hdb, rfl⟩

end Watch

end Sql
