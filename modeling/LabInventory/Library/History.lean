import LabInventory.Library.Watch

namespace Sql

variable {ι Call D K W C E α β : Type}

namespace Program

variable {p : Program D K W C E α} {f : α → Program D K W C E β} {ds : List D} {y : β × List W}

theorem outcome_bind : (p >>= f).outcome ds = some y ↔ ∃ ds₁ ds₂ a log₁ log₂, ds = ds₁ ++ ds₂ ∧
    p.outcome ds₁ = some (a, log₁) ∧ (f a).outcome ds₂ = some (y.1, log₂) ∧ y.2 = log₁ ++ log₂ := by
  induction p generalizing ds y
  case done b =>
    constructor
    case mp => exact fun h => ⟨[], ds, b, [], y.2, rfl, rfl, h, rfl⟩
    case mpr =>
      rintro ⟨ds₁, ds₂, a, log₁, log₂, rfl, hp, hf, hy⟩
      obtain ⟨rfl, rfl, rfl⟩ := outcome_done.mp hp
      rw [show y = (y.1, log₂) from Prod.ext rfl hy]
      exact hf
  case abort => simp
  case select n ih =>
    simp only [select_bind, outcome_select, ih]
    constructor
    case mp =>
      rintro ⟨d, _, rfl, ds₁, ds₂, a, log₁, log₂, rfl, hp, hf, hy⟩
      exact ⟨d :: ds₁, ds₂, a, log₁, log₂, rfl, ⟨d, ds₁, rfl, hp⟩, hf, hy⟩
    case mpr =>
      rintro ⟨_, ds₂, a, log₁, log₂, rfl, ⟨d, ds₁, rfl, hp⟩, hf, hy⟩
      exact ⟨d, ds₁ ++ ds₂, rfl, ds₁, ds₂, a, log₁, log₂, rfl, hp, hf, hy⟩
  case lock ih => simp only [lock_bind, outcome_lock, ih]
  case write w err n ih =>
    simp only [write_bind, outcome_write, ih]
    constructor
    case mp =>
      rintro ⟨_, ⟨ds₁, ds₂, a, log₁, log₂, rfl, hp, hf, rfl⟩, hy⟩
      exact ⟨ds₁, ds₂, a, w :: log₁, log₂, rfl, ⟨log₁, hp, rfl⟩, hf, hy.symm⟩
    case mpr =>
      rintro ⟨ds₁, ds₂, a, _, log₂, rfl, ⟨log₁, hp, rfl⟩, hf, hy⟩
      exact ⟨log₁ ++ log₂, ⟨ds₁, ds₂, a, log₁, log₂, rfl, hp, hf, rfl⟩, hy.symm⟩

theorem Writes.outcome {P : W → Prop} {a : α} {log : List W} (hp : p.Writes P)
    (h : p.outcome ds = some (a, log)) : ∀ w ∈ log, P w := by
  induction p generalizing ds log
  case done =>
    obtain ⟨-, -, rfl⟩ := outcome_done.mp h
    exact fun _ hw => absurd hw List.not_mem_nil
  case abort => simp at h
  case select n ih =>
    obtain ⟨d, _, -, h⟩ := outcome_select.mp h
    exact ih d (hp d) h
  case lock ih => exact ih hp (outcome_lock.symm.trans h)
  case write w err n ih =>
    obtain ⟨log, h, rfl⟩ := outcome_write.mp h
    exact List.forall_mem_cons.mpr ⟨hp.left, ih hp.right h⟩

theorem ReadOnly.outcome {x : α × List W} (hp : p.ReadOnly) (h : p.outcome ds = some x) :
    x.2 = [] :=
  List.eq_nil_iff_forall_not_mem.mpr <| (hp.writes (P := fun _ => False)).outcome h

theorem outcome_discard {b b' : β} {log : List W}
    (h : (p >>= fun _ => done b).outcome ds = some (b', log)) : ∃ a, p.outcome ds = some (a, log) := by
  obtain ⟨ds₁, ds₂, a, log₁, log₂, rfl, hp, hd, he⟩ := outcome_bind.mp h
  obtain ⟨-, rfl, hl⟩ := outcome_done.mp hd
  obtain rfl : log₂ = [] := hl
  obtain rfl : log = log₁ ++ [] := he
  exact ⟨a, by rwa [List.append_nil, List.append_nil]⟩

-- The row is read once more after it has been locked.
theorem outcome_selectForUpdate_bind {γ : Type} {k : K} {g : D → Option γ}
    {f : Option γ → Program D K W C E β} (h : (selectForUpdate k g >>= f).outcome ds = some y) :
    (∃ d ds', ds = d :: ds' ∧ (f none).outcome ds' = some y) ∨
      ∃ d d' ds', ds = d :: d' :: ds' ∧ (f (g d')).outcome ds' = some y := by
  simp only [selectForUpdate, select_bind, outcome_select] at h
  obtain ⟨d, ds', rfl, h⟩ := h
  split at h
  case h_1 => exact .inl ⟨d, ds', rfl, h⟩
  case h_2 =>
    simp only [lock_bind, outcome_lock, select_bind, outcome_select] at h
    obtain ⟨d', ds', rfl, h⟩ := h
    exact .inr ⟨d, d', ds', rfl, h⟩

end Program

namespace Config

variable [Storage D W C] [DecidableEq ι] [DecidableEq K]
variable {c c' : Config ι D K W C E α} {a : Action ι D K W C E α} {i j : ι}

theorem locks_of_step (h : c.step? a = some c') (hj : j ≠ a.session) : c'.locks j = c.locks j := by
  cases a
  case commit i | rollback i =>
    simp only [step?] at h
    repeat' split at h
    all_goals first
      | simp only [reduceCtorEq] at h
      | (obtain rfl := Option.some.inj h; exact locks_close_of_ne hj)
  case begin =>
    simp only [step?] at h
    split at h
    case h_1 => simp at h
    case h_2 => exact Option.some.inj h ▸ rfl
  case step i =>
    simp only [step?] at h
    repeat' split at h
    all_goals first
      | simp only [reduceCtorEq] at h
      | (obtain rfl := Option.some.inj h; rfl)
      | skip
    case _ hk =>
      obtain rfl := Option.some.inj h
      ext k'
      rename_i k _ _
      by_cases he : k' = k
      case neg => simp [locks, put, he]
      case pos =>
        subst he
        have hj : i ≠ j := fun he => hj he.symm
        rcases hk with hk | hk <;> simp [locks, put, hk, hj]

-- Nothing is locked by a transaction that has ended.
theorem locks_of_closed (h : c.step? a = some c') (hn : c'.session a.session = none) :
    c'.locks a.session = ∅ := by
  cases a
  case commit i | rollback i =>
    simp only [step?] at h
    repeat' split at h
    all_goals first
      | simp only [reduceCtorEq] at h
      | (obtain rfl := Option.some.inj h; exact locks_close_self)
  case begin | step =>
    simp only [step?] at h
    repeat' split at h
    all_goals first
      | simp only [reduceCtorEq] at h
      | (obtain rfl := Option.some.inj h; simp [put, Action.session] at hn)

end Config

theorem Discipline.safe_read {ρ : Type} [Storage D W C] {R : Discipline D K ρ} {A : Set K → D → Prop}
    {Q : β → List K → List W → Set K → D → Prop} {f : α → Program D K W C E β} {g : D → α}
    {pending : List K} {log : List W} {ks : Set K} {d : D} (hA : R.Stable A) (ha : A ks d)
    (hn : ∀ d v, R.Inv d → A ks d → replay log d = .ok v → R.Safe Q (f (g v)) pending log ks d) :
    R.Safe Q (Program.read g >>= f) pending log ks d :=
  safe_select hA ha hn

-- What the transactions know about their own writes when they commit is all that others rely on.
def Discipline.ofTold [Storage D W C] (T : Set K → D → List W → Prop) : Discipline D K Unit where
  Inv _ := True
  Guar _ ks d d' := ∃ log, T ks d log ∧ replay log d = .ok d'
  Compat _ _ _ := True

section Told

variable [Storage D W C] {T : Set K → D → List W → Prop}

-- The transaction knows `T` about its writes whenever it may commit.
abbrev Told (T : Set K → D → List W → Prop) :
    Program D K W C E α → List K → List W → Set K → D → Prop :=
  (Discipline.ofTold T).Safe fun _ _ log ks d => T ks d log

structure Informed (T : Set K → D → List W → Prop) (c : Config ι D K W C E α) : Prop where
  closed : ∀ i, c.session i = none → c.locks i = ∅
  told : ∀ i s, c.session i = some s → Told T s.program s.pending s.log (c.locks i) c.db

theorem Informed.init {d : D} : Informed T (.init d : Config ι D K W C E α) where
  closed := by simp [Config.init, Config.locks]
  told := by simp [Config.init]

theorem Told.interference {s : Session D K W C E α} {ks : Set K} {d d' : D}
    (hT : ∀ log, (Discipline.ofTold T).Stable (T · · log))
    (h : Told T s.program s.pending s.log ks d)
    (hi : (Discipline.ofTold T).Interference s.unreached ks d d') :
    Told T s.program s.pending s.log ks d' := by
  obtain ⟨p, log, pending⟩ := s
  cases p
  case done => exact (hT log).interference hi h
  case abort => trivial
  case select => exact fun d'' v he => h d'' v (.head hi he)
  case lock => exact fun d'' he => h d'' (.head hi he)
  case write => exact fun d'' v v' he => h d'' v v' (.head hi he)

variable [DecidableEq ι] [DecidableEq K]
variable {c c' : Config ι D K W C E α} {a : Action ι D K W C E α} {i j : ι}

theorem Informed.commit (h : Informed T c) (hs : c.step? (.commit i) = some c') :
    ∃ s a, c.session i = some s ∧ s.program = .done a ∧ T (c.locks i) c.db s.log ∧
      replay s.log c.db = .ok c'.db := by
  obtain ⟨s, a, hi, hp, hv⟩ := Config.commit_eq_some hs
  have ht := h.told i s hi
  rw [hp] at ht
  exact ⟨s, a, hi, hp, ht, hv⟩

-- What a transaction is left with after its own action.
theorem Informed.own (h : Informed T c) (hb : ∀ p, a = .begin i p → Told T p [] [] ∅ c.db)
    (ha : a.session = i) (hs : c.step? a = some c') {s : Session D K W C E α}
    (hi : c'.session i = some s) : Told T s.program s.pending s.log (c'.locks i) c'.db := by
  cases a
  case begin j p =>
    obtain rfl : j = i := ha
    simp only [Config.step?] at hs
    split at hs
    case h_1 => simp at hs
    case h_2 hn =>
      obtain rfl := Option.some.inj hs
      obtain rfl : _ = s := by simpa [Config.put] using hi
      have hl : (c.put j (.start p)).locks j = ∅ := h.closed j hn
      exact hl ▸ hb p rfl
  case step j =>
    obtain rfl : j = i := ha
    simp only [Config.step?] at hs
    split at hs
    case h_1 => simp at hs
    case h_2 s₀ hj =>
      have ht := h.told j s₀ hj
      split at hs
      case h_1 | h_2 => simp at hs
      case h_3 n he =>
        rw [he] at ht
        split at hs
        case h_1 => simp at hs
        case h_2 v hv =>
          obtain rfl := Option.some.inj hs
          obtain rfl : _ = s := by simpa [Config.put] using hi
          exact ht c.db v .refl trivial hv
      case h_4 rest k n he =>
        rw [he] at ht
        split at hs
        case isFalse => simp at hs
        case isTrue =>
          obtain rfl := Option.some.inj hs
          obtain rfl : _ = s := by simpa [Config.put] using hi
          have hl : ({ c with owner := Function.update c.owner k (some j) }.put j
              { s₀ with program := n, pending := rest } : Config ..).locks j =
              insert k (c.locks j) := by
            ext k'
            by_cases he : k' = k <;> simp [Config.locks, Config.put, he]
          exact hl ▸ ht c.db .refl trivial
      case h_5 w err n he =>
        rw [he] at ht
        split at hs
        case h_1 => simp at hs
        case h_2 v hv =>
          split at hs
          case h_1 =>
            obtain rfl := Option.some.inj hs
            obtain rfl : _ = s := by simpa [Config.put] using hi
            trivial
          case h_2 v' hw =>
            obtain rfl := Option.some.inj hs
            obtain rfl : _ = s := by simpa [Config.put] using hi
            exact ht c.db v v' .refl trivial hv hw
  case commit j =>
    obtain rfl : j = i := ha
    rw [Config.session_commit hs] at hi
    cases hi
  case rollback j =>
    obtain rfl : j = i := ha
    rw [Config.session_rollback hs] at hi
    cases hi

theorem Informed.step (hT : ∀ log, (Discipline.ofTold T).Stable (T · · log)) (h : Informed T c)
    (hb : ∀ i p, a = .begin i p → Told T p [] [] ∅ c.db) (hs : c.step? a = some c') :
    Informed T c' where
  closed j hj := by
    by_cases he : j = a.session
    case neg =>
      rw [Config.locks_of_step hs he]
      exact h.closed j (Config.session_of_step hs he ▸ hj)
    case pos => exact he ▸ Config.locks_of_closed hs (he ▸ hj)
  told j s hj := by
    by_cases he : j = a.session
    case pos => exact h.own (fun p hp => hb j p hp) he.symm hs hj
    case neg =>
      rw [Config.locks_of_step hs he]
      rw [Config.session_of_step hs he] at hj
      have ht := h.told j s hj
      by_cases ha : ∀ i, a ≠ .commit i
      case pos => exact Config.db_of_step hs ha ▸ ht
      case neg =>
        obtain ⟨i, hn⟩ := not_forall.mp ha
        obtain rfl := not_not.mp hn
        obtain ⟨s', _, _, _, hlog, hv⟩ := h.commit hs
        exact ht.interference hT {
          pre := trivial
          post := trivial
          compat := trivial
          guar := ⟨(), c.locks i, Config.locks_disjoint he, s'.log, hlog, hv⟩
        }

end Told

namespace Watch

variable [Storage D W C] [DecidableEq ι] [DecidableEq K] {T : Set K → D → List W → Prop}
variable {handle : Call → Program D K W C E α} {P : Watch ι Call D K W C E α → Event ι Call → Prop}
variable {w w' : Watch ι Call D K W C E α} {e : Event ι Call} {i : ι} {d : D}

-- Both what a transaction has read and what it knows explain what it commits.
theorem told_of_commit (hs : Sound handle w) (h : Informed T w.config)
    (hw : w.step? handle (.commit i) = some w') : ∃ call ds a log, T (w.config.locks i) w.db log ∧
      (handle call).outcome ds = some (a, log) ∧ replay log w.db = .ok w'.db ∧
      w'.commits = ⟨call, w.begun i, ds, w.db, w'.db⟩ :: w.commits := by
  obtain ⟨c, hc, rfl⟩ := step?_eq_some.mp hw
  obtain ⟨s, a, hi, hp, ht, hv⟩ := h.commit hc
  obtain ⟨call, ds, hr, ho⟩ := hs.session i s hi
  refine ⟨call, ds, a, s.log, ht, ?_, hv, by simp [record, hr, db]⟩
  simpa [hp] using ho [] a []

-- The commits of a run satisfy `J`. What `Past` says about each of them still holds afterwards.
structure Recorded (J : Committed Call D → Prop) (Past : Committed Call D → D → Prop)
    (w : Watch ι Call D K W C E α) : Prop where
  commits : ∀ c ∈ w.commits, J c ∧ Past c w.db
  pairwise : w.commits.Pairwise fun c' c => Past c c'.before

variable {J : Committed Call D → Prop} {Past : Committed Call D → D → Prop}

theorem Run.recorded (hT : ∀ log, (Discipline.ofTold T).Stable (T · · log))
    (hP : ∀ w i call, P w (.begin i call) → Told T (handle call) [] [] ∅ w.db)
    (hJ : ∀ call n ds a log ks d d', T ks d log → (handle call).outcome ds = some (a, log) →
      replay log d = .ok d' → J ⟨call, n, ds, d, d'⟩)
    (hnew : ∀ c, J c → Past c c.after) (hpast : ∀ c c', J c' → Past c c'.before → Past c c'.after)
    (hr : Run handle P (.init d) w) : Recorded J Past w := by
  have h : Sound handle w ∧ Informed T w.config ∧ Recorded J Past w := by
    generalize hw : Watch.init d = w₀ at hr
    induction hr
    case refl => exact hw ▸ ⟨.init, .init, ⟨nofun, .nil⟩⟩
    case step w₁ w₂ w₃ e _ hp hs ih =>
      obtain ⟨hsound, hinformed, hrec⟩ := ih
      obtain ⟨c, hc, hw₃⟩ := step?_eq_some.mp hs
      have hc₃ : w₃.config = c := by
        rw [← hw₃]
        cases e <;> rfl
      refine ⟨hsound.step hs, hc₃ ▸ hinformed.step hT (fun i p hb => ?_) hc, ?_⟩
      case refine_1 =>
        cases e
        case begin j call =>
          obtain ⟨rfl, rfl⟩ := Action.begin.inj hb
          exact hP w₂ j call hp
        case step | commit | rollback => cases hb
      case refine_2 =>
        by_cases he : ∀ i, e ≠ .commit i
        case pos =>
          obtain ⟨hdb, hcommits⟩ := db_of_step hs he
          exact ⟨hcommits ▸ hdb ▸ hrec.commits, hcommits ▸ hrec.pairwise⟩
        case neg =>
          obtain ⟨i, hn⟩ := not_forall.mp he
          obtain rfl := not_not.mp hn
          obtain ⟨call, ds, a, log, ht, ho, hv, hcommits⟩ := told_of_commit hsound hinformed hs
          have hj := hJ call (w₂.begun i) ds a log _ _ _ ht ho hv
          constructor
          case commits =>
            rw [hcommits]
            refine List.forall_mem_cons.mpr ⟨⟨hj, hnew _ hj⟩, fun c hm => ?_⟩
            exact ⟨(hrec.commits c hm).left, hpast c _ hj (hrec.commits c hm).right⟩
          case pairwise =>
            rw [hcommits]
            exact List.pairwise_cons.mpr ⟨fun c hm => (hrec.commits c hm).right, hrec.pairwise⟩
  exact h.right.right

-- A run takes `d` to a state by these commits.
inductive Chained (d : D) : List (Committed Call D) → D → Prop
  | nil : Chained d [] d
  | cons {c cs} (h : Chained d cs c.before) : Chained d (c :: cs) c.after

theorem Chained.split {later earlier : List (Committed Call D)} {c : Committed Call D} {v d : D}
    (h : Chained d (later ++ c :: earlier) v) : Chained d earlier c.before := by
  induction later generalizing v
  case nil =>
    cases h
    assumption
  case cons ih =>
    cases h
    exact ih ‹_›

-- What only reads has seen states of the run, none of which are from before it began.
structure Reading (handle : Call → Program D K W C E α) (d : D) (w : Watch ι Call D K W C E α) :
    Prop where
  chained : Chained d w.commits w.db
  begun : ∀ i, w.begun i ≤ w.commits.length
  session : ∀ i call ds, w.reads i = some (call, ds) → (handle call).ReadOnly →
    ∀ s, w.config.session i = some s → s.log = [] ∧ s.program.ReadOnly
  reads : ∀ i call ds, w.reads i = some (call, ds) → (handle call).ReadOnly →
    ∀ v ∈ ds, ∃ cs, cs <:+ w.commits ∧ w.begun i ≤ cs.length ∧ Chained d cs v
  commits : ∀ later c earlier, w.commits = later ++ c :: earlier → (handle c.call).ReadOnly →
    ∀ v ∈ c.reads, c.Meanwhile earlier (Chained d · v)

section Reading

omit [Storage D W C] [DecidableEq ι] [DecidableEq K] in
theorem Reading.init : Reading handle d (.init d : Watch ι Call D K W C E α) where
  chained := .nil
  begun := by simp [Watch.init]
  session := by simp [Watch.init]
  reads := by simp [Watch.init]
  commits := by simp [Watch.init]

theorem readOnly_of_step {s s' : Session D K W C E α} {c : Config ι D K W C E α}
    (hs : w.config.session i = some s) (hl : s.log = []) (hp : s.program.ReadOnly)
    (hc : w.config.step? (.step i) = some c) (hs' : c.session i = some s') :
    s'.log = [] ∧ s'.program.ReadOnly := by
  obtain ⟨p, log, pending⟩ := s
  obtain rfl : log = [] := hl
  simp only [Config.step?, hs] at hc
  cases p
  case done | abort => simp at hc
  case write => exact hp.elim
  case select n =>
    obtain rfl := Option.some.inj hc
    obtain rfl : _ = s' := by simpa [Config.put] using hs'
    exact ⟨rfl, hp _⟩
  case lock =>
    simp only at hc
    split at hc
    case isFalse => simp at hc
    case isTrue =>
      obtain rfl := Option.some.inj hc
      obtain rfl : _ = s' := by simpa [Config.put] using hs'
      exact ⟨rfl, hp⟩

omit [DecidableEq ι] [DecidableEq K] in
theorem eq_of_view? {s : Session D K W C E α} {v : D} (hs : w.config.session i = some s)
    (hl : s.log = []) (hv : w.view? i = some v) : v = w.db := by
  obtain ⟨p, log, pending⟩ := s
  obtain rfl : log = [] := hl
  cases p
  case select => simpa [view?, hs, replay_nil, Except.toOption, eq_comm] using hv
  all_goals simp [view?, hs] at hv

omit [Storage D W C] [DecidableEq K] in
-- An event changes the session of `i`, its records and the commits at most.
theorem Reading.update (h : Reading handle d w) {c : Config ι D K W C E α} {reads begun commits}
    (hc : ∀ j ≠ i, c.session j = w.config.session j) (hb : ∀ j ≠ i, begun j = w.begun j)
    (hb' : begun i ≤ commits.length)
    (hi : ∀ call ds, reads = some (call, ds) → (handle call).ReadOnly →
      (∀ s, c.session i = some s → s.log = [] ∧ s.program.ReadOnly) ∧
        ∀ v ∈ ds, ∃ cs, cs <:+ w.commits ∧ begun i ≤ cs.length ∧ Chained d cs v)
    (hd : Chained d commits c.db) (hs : w.commits <:+ commits)
    (hr : ∀ later c earlier, commits = later ++ c :: earlier → (handle c.call).ReadOnly →
      ∀ v ∈ c.reads, c.Meanwhile earlier (Chained d · v)) :
    Reading handle d ⟨c, Function.update w.reads i reads, begun, commits⟩ where
  chained := hd
  begun j := by
    by_cases he : j = i
    case pos => exact he ▸ hb'
    case neg =>
      change begun j ≤ _
      rw [hb j he]
      exact (h.begun j).trans hs.length_le
  session j call ds hj hp := by
    by_cases he : j = i
    case pos =>
      subst he
      exact (hi call ds (by simpa using hj) hp).left
    case neg => exact hc j he ▸ h.session j call ds (by simpa [he] using hj) hp
  reads j call ds hj hp v hv := by
    have hpast : ∃ cs, cs <:+ w.commits ∧ begun j ≤ cs.length ∧ Chained d cs v := by
      by_cases he : j = i
      case pos =>
        subst he
        exact (hi call ds (by simpa using hj) hp).right v hv
      case neg => exact hb j he ▸ h.reads j call ds (by simpa [he] using hj) hp v hv
    obtain ⟨cs, hcs, hlength, hchain⟩ := hpast
    exact ⟨cs, hcs.trans hs, hlength, hchain⟩
  commits := hr

theorem Reading.step (hs : Sound handle w) (h : Reading handle d w)
    (hw : w.step? handle e = some w') : Reading handle d w' := by
  have hw' := hw
  obtain ⟨c, hc, rfl⟩ := step?_eq_some.mp hw
  have hothers : ∀ j ≠ (e.action handle).session, c.session j = w.config.session j :=
    fun j hj => Config.session_of_step hc hj
  have hdb (he : ∀ i, e ≠ .commit i) : Chained d w.commits c.db := by
    refine Config.db_of_step hc (fun i => ?_) ▸ h.chained
    cases e <;> simp_all [Event.action]
  cases e
  case begin i call =>
    refine h.update hothers (fun j hj => by simp [hj]) (by simp) (fun call' ds hr hp => ?_)
      (hdb (by simp)) (List.suffix_refl _) h.commits
    obtain ⟨rfl, rfl⟩ : call = call' ∧ [] = ds := by simpa using hr
    refine ⟨fun s hi => ?_, fun v hv => absurd hv List.not_mem_nil⟩
    simp only [Event.action, Config.step?] at hc
    split at hc
    case h_1 => simp at hc
    case h_2 =>
      obtain rfl := Option.some.inj hc
      obtain rfl : _ = s := by simpa [Config.put] using hi
      exact ⟨rfl, hp⟩
  case step i =>
    refine h.update hothers (fun _ _ => rfl) (h.begun i) (fun call ds' hr hp => ?_) (hdb (by simp))
      (List.suffix_refl _) h.commits
    obtain ⟨⟨call', ds⟩, hi, he⟩ := Option.map_eq_some_iff.mp hr
    obtain ⟨rfl, rfl⟩ := Prod.mk.inj he
    cases hsession : w.config.session i
    case none => simp [Event.action, Config.step?, hsession] at hc
    case some s =>
      obtain ⟨hl, hro⟩ := h.session i call' ds hi hp s hsession
      refine ⟨fun s' hs' => readOnly_of_step hsession hl hro hc hs', fun v hv => ?_⟩
      obtain hv | hv := List.mem_append.mp hv
      case inl => exact h.reads i call' ds hi hp v hv
      case inr =>
        have hview := eq_of_view? hsession hl (Option.mem_toList.mp hv)
        exact ⟨w.commits, List.suffix_refl _, h.begun i, hview ▸ h.chained⟩
  case commit i =>
    obtain ⟨call, ds, _, _, hr, -, -, hcommits⟩ := hs.commit hw'
    simp only [record, hr, Option.toList_some, List.map_cons, List.map_nil,
      List.singleton_append] at hcommits ⊢
    refine h.update hothers (fun _ _ => rfl) (Nat.le_succ_of_le (h.begun i)) (by simp)
      (.cons h.chained) (List.suffix_cons _ _) ?_
    intro later c' earlier he hp
    cases later
    case nil =>
      obtain ⟨rfl, rfl⟩ := List.cons.inj he
      exact h.reads i call ds hr hp
    case cons =>
      exact h.commits _ _ _ (List.cons.inj he).right hp
  case rollback i =>
    exact h.update hothers (fun _ _ => rfl) (h.begun i) (by simp) (hdb (by simp))
      (List.suffix_refl _) h.commits

theorem Run.reading (hr : Run handle P (.init d) w) : Reading handle d w := by
  have h : Sound handle w ∧ Reading handle d w := by
    generalize hw : Watch.init d = w₀ at hr
    induction hr
    case refl => exact hw ▸ ⟨.init, .init⟩
    case step hs ih => exact ⟨ih.left.step hs, ih.right.step ih.left hs⟩
  exact h.right

end Reading

section Since

variable {made ended : Committed Call D → Prop} {first : Prop} {c : Committed Call D}
  {cs : List (Committed Call D)}

-- What has been made has not been ended afterwards. It may also have been there at `first`.
def Since (made ended : Committed Call D → Prop) (first : Prop) (cs : List (Committed Call D)) :
    Prop :=
  (first ∧ ∀ c ∈ cs, ¬ended c) ∨
    ∃ later c earlier, cs = later ++ c :: earlier ∧ made c ∧ ∀ c' ∈ later, ¬ended c'

theorem since_nil : Since made ended first [] ↔ first := by
  simp [Since]

theorem since_cons :
    Since made ended first (c :: cs) ↔ made c ∨ Since made ended first cs ∧ ¬ended c := by
  constructor
  case mp =>
    rintro (⟨hf, hn⟩ | ⟨later, c', earlier, he, hm, hn⟩)
    case inl =>
      obtain ⟨hc, hn⟩ := List.forall_mem_cons.mp hn
      exact .inr ⟨.inl ⟨hf, hn⟩, hc⟩
    case inr =>
      cases later
      case nil =>
        obtain ⟨rfl, rfl⟩ := List.cons.inj he
        exact .inl hm
      case cons c'' later =>
        obtain ⟨rfl, rfl⟩ := List.cons.inj he
        obtain ⟨hc, hn⟩ := List.forall_mem_cons.mp hn
        exact .inr ⟨.inr ⟨later, c', earlier, rfl, hm, hn⟩, hc⟩
  case mpr =>
    rintro (hm | ⟨⟨hf, hn⟩ | ⟨later, c', earlier, rfl, hm, hn⟩, hc⟩)
    case inl => exact .inr ⟨[], c, cs, rfl, hm, fun _ h => absurd h List.not_mem_nil⟩
    case inr.inl => exact .inl ⟨hf, List.forall_mem_cons.mpr ⟨hc, hn⟩⟩
    case inr.inr =>
      exact .inr ⟨c :: later, c', earlier, rfl, hm, List.forall_mem_cons.mpr ⟨hc, hn⟩⟩

-- What each commit says about `I` adds up over the commits of a run.
theorem Chained.since {I : D → Prop} {v : D} (h : Chained d cs v)
    (hc : ∀ c ∈ cs, I c.after ↔ made c ∨ I c.before ∧ ¬ended c) :
    I v ↔ Since made ended (I d) cs := by
  induction h
  case nil => exact since_nil.symm
  case cons c cs _ ih =>
    obtain ⟨hc, hcs⟩ := List.forall_mem_cons.mp hc
    rw [hc, since_cons, ih hcs]

end Since

section Alone

variable {n : Nat} {c : Config ι D K W C E α} {call : Call} {a : α} {d' : D}

theorem exec_steps (h : w.config.exec (List.replicate n (.step i)) = some c) :
    ∃ w', w.exec handle (List.replicate n (.step i)) = some w' ∧ w'.config = c ∧
      w'.begun = w.begun ∧ w'.commits = w.commits ∧
      ∃ ds, w'.reads i = (w.reads i).map fun r => (r.1, r.2 ++ ds) := by
  induction n generalizing w
  case zero => exact ⟨w, rfl, Option.some.inj h, rfl, rfl, [], by cases w.reads i <;> simp⟩
  case succ n ih =>
    simp only [Config.exec, List.replicate_succ, List.foldlM_cons, Option.bind_eq_bind,
      Option.bind_eq_some_iff] at h
    obtain ⟨c₁, hs, h⟩ := h
    obtain ⟨w', he, hc, hbegun, hcommits, ds, hr⟩ := ih (w := w.record c₁ (.step i)) h
    have hs : w.step? handle (.step i) = some (w.record c₁ (.step i)) :=
      step?_eq_some.mpr ⟨c₁, hs, rfl⟩
    refine ⟨w', ?_, hc, hbegun, hcommits, (w.view? i).toList ++ ds, ?_⟩
    case refine_1 =>
      simp only [exec, List.replicate_succ, List.foldlM_cons, hs, Option.bind_eq_bind,
        Option.bind_some]
      exact he
    case refine_2 =>
      rw [hr]
      cases hw : w.reads i <;> simp [record, hw]

-- A transaction that succeeds on its own can be committed while no other one is open.
theorem exists_alone (i : ι) (hw : w.config = .init d) (h : (handle call).run d = .ok (a, d'))
    (hp : ∀ w e, P w e) : ∃ w', Run handle P w w' ∧ w'.config = .init d' ∧
      ∃ ds, w'.commits = ⟨call, w.commits.length, ds, d, d'⟩ :: w.commits := by
  obtain ⟨n, c, he, hc⟩ := Config.Alone.begin.exec (i := i) h
  let w₁ := w.record ((Config.init d).put i (.start (handle call))) (.begin i call)
  have hb : w.step? handle (.begin i call) = some w₁ := step?_eq_some.mpr ⟨_, by rw [hw]; rfl, rfl⟩
  obtain ⟨w₂, hrun, rfl, hbegun, hcommits, ds, hr⟩ :
    ∃ w₂, w₁.exec handle (List.replicate n (.step i)) = some w₂ ∧ _ := exec_steps he
  replace hr : w₂.reads i = some (call, ds) := by simpa [w₁, record] using hr
  let w' := w₂.record (.init d') (.commit i)
  have hs : w₂.step? handle (.commit i) = some w' := step?_eq_some.mpr ⟨_, hc.commit, rfl⟩
  have hr₁ : Run handle P w w₁ := .step .refl (hp _ _) hb
  refine ⟨w', .step (hr₁.trans <| .of_exec hrun fun w e _ => hp w e) (hp _ _) hs, rfl, ds, ?_⟩
  have hd : w₂.db = d := hc.db
  simp [w', record, hr, hbegun, hcommits, hd, w₁, Config.init]

end Alone

end Watch

end Sql
