import Mathlib.Data.Set.Insert
import Mathlib.Logic.Function.Basic
import Mathlib.Logic.Relation
import LabInventory.Library.Transaction

open Relation

namespace Sql

variable {D K W C E α ι : Type}

section Replay

variable [Storage D W C]

def replay (log : List W) (d : D) : Except C D :=
  log.foldlM (fun d w => apply w d) d

@[simp]
theorem replay_nil {d : D} : replay (C := C) [] d = .ok d :=
  rfl

theorem replay_cons {w : W} {log : List W} {d d' : D} :
    replay (w :: log) d = .ok d' ↔ ∃ v, apply w d = .ok v ∧ replay log v = .ok d' := by
  simp only [replay, List.foldlM_cons]
  cases apply w d <;> simp [bind, Except.bind]

theorem replay_append {log log' : List W} {d d' : D} :
    replay (log ++ log') d = .ok d' ↔ ∃ v, replay log d = .ok v ∧ replay log' v = .ok d' := by
  induction log generalizing d
  case nil => simp
  case cons w log ih =>
    simp only [List.cons_append, replay_cons, ih]
    grind

theorem replay_concat {log : List W} {w : W} {d d' : D} :
    replay (log ++ [w]) d = .ok d' ↔ ∃ v, replay log d = .ok v ∧ apply w v = .ok d' := by
  simp [replay_append, replay_cons]

end Replay

-- An open transaction. Its writes are kept in the `log`, until they are applied to the database by
-- the commit. The `pending` rows have been found by a statement, but are not locked yet.
structure Session (D K W C E α : Type) where
  program : Program D K W C E α
  log : List W
  pending : List K

namespace Session

def start (p : Program D K W C E α) : Session D K W C E α where
  program := p
  log := []
  pending := []

-- The rows that the running statement has found in its snapshot, but not reached.
def unreached (s : Session D K W C E α) : List K :=
  match s.program with
  | .lock rest k _ => k :: rest
  | _ => s.pending

end Session

-- The committed state of a database, its open transactions and the owners of the row locks.
structure Config (ι D K W C E α : Type) where
  db : D
  session : ι → Option (Session D K W C E α)
  owner : K → Option ι

inductive Action (ι D K W C E α : Type)
  | begin (i : ι) (p : Program D K W C E α)
  | step (i : ι)
  | commit (i : ι)
  | rollback (i : ι)

namespace Config

def init (d : D) : Config ι D K W C E α where
  db := d
  session _ := none
  owner _ := none

def locks (c : Config ι D K W C E α) (i : ι) : Set K :=
  { k | c.owner k = some i }

theorem locks_disjoint {c : Config ι D K W C E α} {i j : ι} (hn : i ≠ j) :
    ∀ k ∈ c.locks i, k ∉ c.locks j :=
  fun k (hi : c.owner k = _) (hj : c.owner k = _) => hn <| by simp_all

variable [DecidableEq ι]

def put (c : Config ι D K W C E α) (i : ι) (s : Session D K W C E α) : Config ι D K W C E α :=
  { c with session := Function.update c.session i (some s) }

-- The end of a transaction releases its locks.
def close (c : Config ι D K W C E α) (i : ι) : Config ι D K W C E α :=
  { c with
    session := Function.update c.session i none
    owner := fun k => if c.owner k = some i then none else c.owner k }

theorem locks_close_self {c : Config ι D K W C E α} {i : ι} : (c.close i).locks i = ∅ := by
  simp [locks, close]

theorem locks_close_of_ne {c : Config ι D K W C E α} {i j : ι} (hn : j ≠ i) :
    (c.close i).locks j = c.locks j := by
  ext k
  by_cases ho : c.owner k = some i <;> simp [locks, close, ho, hn.symm]

variable [DecidableEq K] [Storage D W C]

-- Each statement sees the state which is committed when it starts, and the transaction's own writes.
-- It waits for rows which are locked by others. That a transaction can also roll back at any point
-- covers deadlocks and lost connections.
def step? (c : Config ι D K W C E α) : Action ι D K W C E α → Option (Config ι D K W C E α)
  | .begin i p =>
    match c.session i with
    | some _ => none
    | none => some <| c.put i (.start p)
  | .step i =>
    match c.session i with
    | none => none
    | some s =>
      match s.program with
      | .done _ | .abort _ => none
      | .select n =>
        match replay s.log c.db with
        | .error _ => none
        | .ok v => some <| c.put i { s with program := n v }
      | .lock rest k n =>
        if c.owner k = none ∨ c.owner k = some i then
          some <| { c with owner := Function.update c.owner k (some i) }.put i
            { s with program := n, pending := rest }
        else
          none
      | .write w err n =>
        match replay s.log c.db with
        | .error _ => none
        | .ok v =>
          match apply w v with
          | .error e => some <| c.put i { s with program := .abort (err e) }
          | .ok _ => some <| c.put i { s with program := n, log := s.log ++ [w] }
  | .commit i =>
    match c.session i with
    | none => none
    | some s =>
      match s.program with
      | .done _ =>
        match replay s.log c.db with
        | .error _ => none
        | .ok d => some <| { c with db := d }.close i
      | _ => none
  | .rollback i =>
    match c.session i with
    | none => none
    | some _ => some <| c.close i

-- The actions that the environment may choose in a configuration are given by `P`.
inductive Run (P : Config ι D K W C E α → Action ι D K W C E α → Prop) :
    Config ι D K W C E α → Config ι D K W C E α → Prop
  | refl {c} : Run P c c
  | step {c₁ c₂ c₃ a} : Run P c₁ c₂ → P c₂ a → c₂.step? a = some c₃ → Run P c₁ c₃

def exec (c : Config ι D K W C E α) (as : List (Action ι D K W C E α)) :
    Option (Config ι D K W C E α) :=
  as.foldlM step? c

theorem Run.trans {P} {c₁ c₂ c₃ : Config ι D K W C E α} (h : Run P c₁ c₂) (h' : Run P c₂ c₃) :
    Run P c₁ c₃ := by
  induction h'
  case refl => exact h
  case step hp hs ih => exact .step ih hp hs

-- A run in which the environment chooses the given actions.
theorem Run.of_exec {P} {c c' : Config ι D K W C E α} {as : List (Action ι D K W C E α)}
    (h : c.exec as = some c') (hp : ∀ c, ∀ a ∈ as, P c a) : Run P c c' := by
  induction as generalizing c
  case nil => exact Option.some.inj h ▸ .refl
  case cons a as ih =>
    simp only [exec, List.foldlM_cons, Option.bind_eq_bind, Option.bind_eq_some_iff] at h
    obtain ⟨c₂, hs, he⟩ := h
    have hr : Run P c c₂ := .step .refl (hp c a (.head _)) hs
    exact hr.trans <| ih he fun c a ha => hp c a (.tail _ ha)

-- The only open transaction is `i`, which sees the state `v` and continues with `p`.
structure Alone (c : Config ι D K W C E α) (i : ι) (d v : D) (p : Program D K W C E α) : Prop where
  db : c.db = d
  owner : ∀ k, c.owner k = none ∨ c.owner k = some i
  others : ∀ j ≠ i, c.session j = none
  session : ∃ log pending, c.session i = some ⟨p, log, pending⟩ ∧ replay log d = .ok v

namespace Alone

variable {c : Config ι D K W C E α} {i : ι} {p : Program D K W C E α} {a : α} {d d' v : D}

omit [DecidableEq K] in
theorem begin : Alone ((init d).put i (.start p)) i d d p where
  db := rfl
  owner _ := .inl rfl
  others j hj := by simp [put, init, hj]
  session := ⟨[], [], by simp [put, Session.start], rfl⟩

omit [DecidableEq K] in
theorem put (h : c.Alone i d v p) {s} (hv : replay s.log d = .ok d') :
    (c.put i s).Alone i d d' s.program where
  db := h.db
  owner := h.owner
  others j hj := by simp [Config.put, hj, h.others j hj]
  session := ⟨s.log, s.pending, by simp [Config.put], hv⟩

omit [DecidableEq ι] in
theorem lock (h : c.Alone i d v p) (k : K) :
    ({ c with owner := Function.update c.owner k (some i) } : Config ..).Alone i d v p where
  db := h.db
  owner k' := by
    by_cases hk : k' = k
    case pos => simp [hk]
    case neg => simpa [hk] using h.owner k'
  others := h.others
  session := h.session

-- A transaction is not blocked while it is the only one that owns locks.
theorem exec (h : c.Alone i d v p) (hr : p.run v = .ok (a, d')) :
    ∃ n c', c.exec (List.replicate n (.step i)) = some c' ∧ c'.Alone i d d' (.done a) := by
  have ⟨log, pending, hs, hv⟩ := h.session
  have hv' := h.db ▸ hv
  induction p generalizing c v log pending
  case done b =>
    simp only [Program.run, Except.ok.injEq, Prod.mk.injEq] at hr
    exact ⟨0, c, rfl, hr.left ▸ hr.right ▸ h⟩
  case abort => simp [Program.run] at hr
  case select n ih =>
    have h₂ := h.put (s := ⟨n v, log, pending⟩) hv
    obtain ⟨m, c', he, hc⟩ := ih v h₂ hr log pending (by simp [Config.put]) hv (h₂.db ▸ hv)
    exact ⟨m + 1, c', by simp [Config.exec, List.replicate_succ, step?, hs, hv', ← he], hc⟩
  case lock rest k n ih =>
    have h₂ := (h.lock k).put (s := ⟨n, log, rest⟩) hv
    obtain ⟨m, c', he, hc⟩ := ih h₂ hr log rest (by simp [Config.put]) hv (h₂.db ▸ hv)
    exact ⟨m + 1, c', by simp [Config.exec, List.replicate_succ, step?, hs, h.owner k, ← he], hc⟩
  case write w err n ih =>
    simp only [Program.run] at hr
    split at hr
    case h_1 v' hw =>
      have hv₂ : replay (log ++ [w]) d = .ok v' := replay_concat.mpr ⟨v, hv, hw⟩
      have h₂ := h.put (s := ⟨n, log ++ [w], pending⟩) hv₂
      obtain ⟨m, c', he, hc⟩ := ih h₂ hr _ pending (by simp [Config.put]) hv₂ (h₂.db ▸ hv₂)
      exact ⟨m + 1, c', by simp [Config.exec, List.replicate_succ, step?, hs, hv', hw, ← he], hc⟩
    case h_2 => simp at hr

theorem commit (h : c.Alone i d d' (.done a)) : c.step? (.commit i) = some (.init d') := by
  have ⟨log, pending, hs, hv⟩ := h.session
  have hv' := h.db ▸ hv
  simp only [step?, hs, hv', Option.some.injEq]
  simp only [close, init, Config.mk.injEq, true_and]
  constructor
  case left =>
    funext j
    by_cases hj : j = i <;> simp [hj, h.others]
  case right =>
    funext k
    rcases h.owner k with ho | ho <;> simp [ho]

end Alone

end Config

-- What the transactions of a system rely on, and guarantee to each other: `Inv` holds in committed
-- states, `Guar r ks` bounds the effect of committing a transaction in the role `r` that owns the
-- locks `ks`, and `Compat ks` restricts commits while the rows `ks` are pending in another one.
structure Discipline (D K ρ : Type) where
  Inv : D → Prop
  Guar : ρ → Set K → D → D → Prop
  Compat : List K → D → D → Prop

namespace Discipline

variable {ρ : Type} [Storage D W C]

-- The effect of another transaction's commit, as seen by a transaction which owns the locks `ks`.
structure Interference (R : Discipline D K ρ) (pending : List K) (ks : Set K) (d d' : D) : Prop where
  pre : R.Inv d
  post : R.Inv d'
  compat : R.Compat pending d d'
  guar : ∃ r ks', (∀ k ∈ ks, k ∉ ks') ∧ R.Guar r ks' d d'

abbrev Env (R : Discipline D K ρ) (pending : List K) (ks : Set K) : D → D → Prop :=
  ReflTransGen (R.Interference pending ks)

-- The transaction ends with `Q`, no matter which commits of others occur between its statements.
def Safe (R : Discipline D K ρ) (Q : α → List K → List W → Set K → D → Prop) :
    Program D K W C E α → List K → List W → Set K → D → Prop
  | .done a, pending, log, ks, d => Q a pending log ks d
  | .abort _, _, _, _, _ => True
  | .select n, pending, log, ks, d =>
    ∀ d' v, R.Env pending ks d d' → R.Inv d' → replay log d' = .ok v →
      R.Safe Q (n v) pending log ks d'
  | .lock rest k n, _, log, ks, d =>
    ∀ d', R.Env (k :: rest) ks d d' → R.Inv d' → R.Safe Q n rest log (insert k ks) d'
  | .write w _ n, pending, log, ks, d =>
    ∀ d' v v', R.Env pending ks d d' → R.Inv d' → replay log d' = .ok v → apply w v = .ok v' →
      R.Safe Q n pending (log ++ [w]) ks d'

-- Committing the writes in `log` keeps to the discipline.
def Commit (R : Discipline D K ρ) (r : ρ) (_ : α) (pending : List K) (log : List W) (ks : Set K) (d : D) :
    Prop :=
  ∀ d' v, R.Env pending ks d d' → R.Inv d' → replay log d' = .ok v → R.Inv v ∧ R.Guar r ks d' v

def Respects (R : Discipline D K ρ) (r : ρ) (p : Program D K W C E α) : Prop :=
  ∀ d, R.Inv d → R.Safe (R.Commit r) p [] [] ∅ d

variable {R : Discipline D K ρ} {Q Q' : α → List K → List W → Set K → D → Prop}
variable {p : Program D K W C E α} {pending : List K} {log : List W} {ks : Set K} {d d' : D}

theorem Env.preserves {P : D → Prop} (h : R.Env pending ks d d')
    (hs : ∀ {d d'}, R.Interference pending ks d d' → P d → P d') (hp : P d) : P d' := by
  induction h
  case refl => exact hp
  case tail hi ih => exact hs hi ih

theorem safe_mono (h : R.Safe Q p pending log ks d)
    (hq : ∀ {a pending log ks d}, Q a pending log ks d → Q' a pending log ks d) :
    R.Safe Q' p pending log ks d := by
  induction p generalizing pending log ks d
  case done => exact hq h
  case abort => trivial
  case select ih => exact fun d' v he hi hv => ih v (h d' v he hi hv)
  case lock ih => exact fun d' he hi => ih (h d' he hi)
  case write ih => exact fun d' v v' he hi hv hw => ih (h d' v v' he hi hv hw)

theorem safe_bind {β} {f : α → Program D K W C E β}
    {Q : β → List K → List W → Set K → D → Prop} :
    R.Safe Q (p >>= f) pending log ks d ↔ R.Safe (fun a => R.Safe Q (f a)) p pending log ks d := by
  induction p generalizing pending log ks d
  case done | abort => rfl
  case select ih => simp [Safe, ih]
  case lock ih => simp [Safe, ih]
  case write ih => simp [Safe, ih]

theorem Commit.interference {r : ρ} {a : α} (h : R.Commit r a pending log ks d)
    (hi : R.Interference pending ks d d') : R.Commit r a pending log ks d' :=
  fun d'' v he => h d'' v (.head hi he)

-- Pending commits of other transactions do not matter to a transaction's safety.
theorem Safe.interference {r : ρ} (h : R.Safe (R.Commit r) p pending log ks d)
    (hi : R.Interference (Session.unreached ⟨p, log, pending⟩) ks d d') :
    R.Safe (R.Commit r) p pending log ks d' := by
  cases p
  case done => exact Commit.interference h hi
  case abort => trivial
  case select => exact fun d'' v he => h d'' v (.head hi he)
  case lock => exact fun d'' he => h d'' (.head hi he)
  case write => exact fun d'' v v' he => h d'' v v' (.head hi he)

-- What a transaction knows about the committed state, whatever others commit in the meantime.
structure Stable (R : Discipline D K ρ) (A : Set K → D → Prop) : Prop where
  lock : ∀ {k ks d}, A ks d → A (insert k ks) d
  interference : ∀ {pending ks d d'}, R.Interference pending ks d d' → A ks d → A ks d'

section Stable

variable {A B : Set K → D → Prop}

theorem Stable.env (hA : R.Stable A) (h : R.Env pending ks d d') (ha : A ks d) : A ks d' :=
  h.preserves (P := A ks) hA.interference ha

theorem Stable.and (hA : R.Stable A) (hB : R.Stable B) : R.Stable fun ks d => A ks d ∧ B ks d where
  lock h := ⟨hA.lock h.left, hB.lock h.right⟩
  interference hi h := ⟨hA.interference hi h.left, hB.interference hi h.right⟩

theorem Stable.const {P : Prop} : R.Stable fun _ _ => P where
  lock h := h
  interference _ h := h

theorem Stable.locked {k : K} : R.Stable fun ks _ => k ∈ ks where
  lock h := .inr h
  interference _ h := h

theorem Stable.forall {P : α → Set K → D → Prop} (as : List α) (hP : ∀ a, R.Stable (P a)) :
    R.Stable fun ks d => ∀ a ∈ as, P a ks d where
  lock h a hm := (hP a).lock (h a hm)
  interference hi h a hm := (hP a).interference hi (h a hm)

variable {β : Type} {f : α → Program D K W C E β} {Q : β → List K → List W → Set K → D → Prop}

theorem safe_select {n : D → Program D K W C E β} (hA : R.Stable A) (ha : A ks d)
    (hn : ∀ d v, R.Inv d → A ks d → replay log d = .ok v → R.Safe Q (n v) pending log ks d) :
    R.Safe Q (.select n) pending log ks d :=
  fun _ v he hi hv => hn _ v hi (hA.env he ha) hv

theorem safe_lock {k : K} {rest : List K} {p : Program D K W C E β} (hA : R.Stable A) (ha : A ks d)
    (hp : ∀ d, R.Inv d → A (insert k ks) d → R.Safe Q p rest log (insert k ks) d) :
    R.Safe Q (.lock rest k p) pending log ks d :=
  fun _ he hi => hp _ hi (hA.lock <| hA.env he ha)

theorem safe_write {w : W} {err : C → E} {p : Program D K W C E β} (hA : R.Stable A) (ha : A ks d)
    (hp : ∀ d v v', R.Inv d → A ks d → replay log d = .ok v → apply w v = .ok v' →
      R.Safe Q p pending (log ++ [w]) ks d) :
    R.Safe Q (.write w err p) pending log ks d :=
  fun _ v v' he hi hv hw => hp _ v v' hi (hA.env he ha) hv hw

theorem safe_selectForUpdate {k : K} {g : D → Option α} {f : Option α → Program D K W C E β}
    (hA : R.Stable A) (ha : A ks d)
    (hn : ∀ d v, R.Inv d → A ks d → replay log d = .ok v → g v = none →
      R.Safe Q (f none) pending log ks d)
    (hs : ∀ d v, R.Inv d → A (insert k ks) d → replay log d = .ok v →
      R.Safe Q (f (g v)) [] log (insert k ks) d) :
    R.Safe Q (.selectForUpdate k g >>= f) pending log ks d := by
  refine safe_select hA ha fun d v hi ha hv => ?_
  beta_reduce
  cases hg : g v
  case none => exact hn d v hi ha hv hg
  case some a =>
    exact safe_lock hA ha fun d _ ha => safe_select hA ha fun d v hi ha hv => hs d v hi ha hv

theorem safe_require {c : Prop} [Decidable c] {e : E} {f : Unit → Program D K W C E β}
    (h : c → R.Safe Q (f ()) pending log ks d) :
    R.Safe Q (.require c e >>= f) pending log ks d := by
  unfold Program.require
  split
  case isTrue hc => exact h hc
  case isFalse => trivial

theorem safe_ofExcept {r : Except E α} (h : ∀ a, r = .ok a → R.Safe Q (f a) pending log ks d) :
    R.Safe Q (.ofExcept r >>= f) pending log ks d := by
  cases r
  case ok a => exact h a rfl
  case error => trivial

-- What is known about the writes so far, and kept by the visit of each row of a statement.
theorem safe_forRows {γ : Type} {row : γ → K} {g : γ → Program D K W C E Unit} {rows : List γ}
    {Q : Unit → List K → List W → Set K → D → Prop} {B : List W → Set K → D → Prop}
    (hB : ∀ log, R.Stable (B log)) (hb : B log ks d)
    (hg : ∀ r pending log ks d, row r ∈ ks → B log ks d →
      R.Safe (fun _ _ => B) (g r) pending log ks d)
    (hq : ∀ pending log ks d, B log ks d → Q () pending log ks d) :
    R.Safe Q (Program.forRows row g rows) pending log ks d := by
  induction rows generalizing pending log ks d
  case nil => exact hq pending log ks d hb
  case cons r rows ih =>
    refine safe_lock (hB log) hb fun d _ hb => safe_bind.mpr ?_
    refine safe_mono (hg r _ log _ d (.inl rfl) hb) fun hb => ?_
    exact ih hb

-- A transaction reads and locks rows, while its own writes stay as they are.
theorem safe_readOnly {p : Program D K W C E α} (hp : p.ReadOnly) (hA : R.Stable A) (ha : A ks d)
    (hf : ∀ {a pending ks' d}, ks ⊆ ks' → A ks' d → R.Safe Q (f a) pending log ks' d) :
    R.Safe Q (p >>= f) pending log ks d := by
  induction p generalizing pending ks d
  case done => exact hf subset_rfl ha
  case abort => trivial
  case select n ih =>
    exact safe_select hA ha fun d v _ ha _ => ih v (hp v) ha hf
  case lock rest k n ih =>
    exact safe_lock hA ha fun d _ ha => ih hp ha fun hk => hf <| (Set.subset_insert k ks).trans hk
  case write => exact hp.elim

-- All of the writes can be added to what has been written so far.
theorem safe_writes {P : W → Prop} {p : Program D K W C E α} {B : List W → Set K → D → Prop}
    (hp : p.Writes P) (hB : ∀ log, R.Stable (B log)) (hb : B log ks d)
    (hw : ∀ w log ks d, P w → B log ks d → B (log ++ [w]) ks d) :
    R.Safe (fun _ _ => B) p pending log ks d := by
  induction p generalizing pending log ks d
  case done => exact hb
  case abort => trivial
  case select n ih => exact safe_select (hB log) hb fun d v _ hb _ => ih v (hp v) hb
  case lock rest k n ih => exact safe_lock (hB log) hb fun d _ hb => ih hp hb
  case write w err n ih =>
    exact safe_write (hB log) hb fun d _ _ _ hb _ _ => ih hp.right (hw w log ks d hp.left hb)

-- Rows are locked one after another, and `P` is known about each of them from then on.
theorem safe_lockEach {β : Type} {row : β → K} {g : D → β → Option α} {bs : List β} {k : α → β}
    {P : α → Set K → D → Prop} (hP : ∀ a, R.Stable (P a)) (hA : R.Stable A) (ha : A ks d)
    (hk : ∀ v b a, g v b = some a → k a = b)
    (hg : ∀ b a ks d v, A ks d → row b ∈ ks → replay log d = .ok v → g v b = some a → P a ks d) :
    R.Safe (fun as _ log' ks d => log' = log ∧ A ks d ∧ (as.map k).Sublist bs ∧ ∀ a ∈ as, P a ks d)
      (.lockEach row g bs : Program D K W C E (List α)) pending log ks d := by
  induction bs generalizing pending ks d A
  case nil => exact ⟨rfl, ha, .slnil, fun _ h => absurd h List.not_mem_nil⟩
  case cons b bs ih =>
    refine safe_lock hA ha fun d _ ha => ?_
    have hB := hA.and (Stable.locked : R.Stable fun ks _ => row b ∈ ks)
    refine safe_select hB ⟨ha, .inl rfl⟩ fun d v _ ha hv => ?_
    have hC := hA.and (Stable.forall (g v b).toList hP)
    have hfound : ∀ a ∈ (g v b).toList, P a _ d := fun a hm =>
      hg b a _ d v ha.left ha.right hv (Option.mem_toList.mp hm)
    refine safe_bind.mpr <| safe_mono (ih hC ⟨ha.left, hfound⟩ fun b a ks d v h => hg b a ks d v h.left) ?_
    intro as _ log' ks d h
    obtain ⟨hl, ⟨ha, hfound⟩, hs, has⟩ := h
    refine ⟨hl, ha, ?_, fun a hm => (List.mem_append.mp hm).elim (hfound a) (has a)⟩
    cases hr : g v b
    case none => exact hs.cons b
    case some a => exact hk v b a hr ▸ hs.cons_cons _

theorem Respects.discard {r : ρ} {p : Program D K W C E α} {b : β} (h : R.Respects r p) :
    R.Respects r (p >>= fun _ => .done b) :=
  fun d hi => safe_bind.mpr <| h d hi

-- What a transaction writes is all that matters if nothing has to be known about what it has read.
theorem respects_of_writes {P : W → Prop} {r : ρ} {p : Program D K W C E α} (hp : p.Writes P)
    (h : ∀ log ks d v, (∀ w ∈ log, P w) → R.Inv d → replay log d = .ok v →
      R.Inv v ∧ R.Guar r ks d v) : R.Respects r p := by
  have hs : ∀ pending log ks d, (∀ w ∈ log, P w) →
      R.Safe (R.Commit r) p pending log ks d := by
    induction p
    case done => exact fun _ log ks _ hl d' v _ hi hv => h log ks d' v hl hi hv
    case abort => exact fun _ _ _ _ _ => trivial
    case select n ih =>
      exact fun pending log ks _ hl d v _ _ _ => ih v (hp v) pending log ks d hl
    case lock rest k n ih => exact fun _ log ks _ hl d _ _ => ih hp rest log _ d hl
    case write w err n ih =>
      intro pending log ks _ hl d v v' _ _ _ _
      refine ih hp.right pending _ ks d fun w' hw => ?_
      rcases List.mem_append.mp hw with hw | hw
      case inl => exact hl w' hw
      case inr => exact List.mem_singleton.mp hw ▸ hp.left
  exact fun d _ => hs [] [] ∅ d (by simp)

end Stable

section Always

-- What happens to the committed state while a transaction owns the locks `ks`.
abbrev Elapse (R : Discipline D K ρ) (ks : Set K) : D → D → Prop :=
  ReflTransGen fun d d' => ∃ pending, R.Interference pending ks d d'

-- What the writes so far make of any state that may be committed by then.
def Always (R : Discipline D K ρ) (J : D → D → Prop) (log : List W) (ks : Set K) (d : D) : Prop :=
  ∀ d' v, R.Elapse ks d d' → R.Inv d' → replay log d' = .ok v → J d' v

variable {A : Set K → D → Prop} {J J' : D → D → Prop} {v : D}

theorem Env.elapse (h : R.Env pending ks d d') : R.Elapse ks d d' := by
  induction h
  case refl => exact .refl
  case tail hi ih => exact ih.tail ⟨pending, hi⟩

theorem Elapse.weaken {k : K} (h : R.Elapse (insert k ks) d d') : R.Elapse ks d d' := by
  induction h
  case refl => exact .refl
  case tail hi ih =>
    obtain ⟨pending, hi⟩ := hi
    obtain ⟨r, ks', hk, hg⟩ := hi.guar
    exact ih.tail ⟨pending, hi.pre, hi.post, hi.compat, r, ks', fun k hm => hk k (.inr hm), hg⟩

theorem stable_always : R.Stable (R.Always J log) where
  lock h d' v he := h d' v (Elapse.weaken he)
  interference hi h d' v he := h d' v (.head ⟨_, hi⟩ he)

theorem Stable.elapse (hA : R.Stable A) (h : R.Elapse ks d d') (ha : A ks d) : A ks d' := by
  induction h
  case refl => exact ha
  case tail hi ih =>
    obtain ⟨_, hi⟩ := hi
    exact hA.interference hi ih

theorem always_nil (hA : R.Stable A) (ha : A ks d) (hj : ∀ d, R.Inv d → A ks d → J d d) :
    R.Always (C := C) J ([] : List W) ks d := by
  intro d' v he hi hv
  obtain rfl := Except.ok.inj hv
  exact hj d' hi (hA.elapse he ha)

theorem Always.write (h : R.Always J log ks d) (hA : R.Stable A) (ha : A ks d) {w : W}
    (hw : ∀ d v v', R.Inv d → A ks d → J d v → apply w v = .ok v' → J' d v') :
    R.Always J' (log ++ [w]) ks d := by
  intro d' v' he hi hv'
  obtain ⟨v, hv, ha'⟩ := replay_concat.mp hv'
  exact hw d' v v' hi (hA.elapse he ha) (h d' v he hi hv) ha'

theorem Always.view (h : R.Always J log ks d) (hi : R.Inv d) (hv : replay log d = .ok v) : J d v :=
  h d v .refl hi hv

theorem Always.env (h : R.Always J log ks d) (he : R.Env pending ks d d') (hi : R.Inv d')
    (hv : replay log d' = .ok v) : J d' v :=
  h d' v he.elapse hi hv

theorem Always.mono (h : R.Always J log ks d) (hj : ∀ d v, J d v → J' d v) : R.Always J' log ks d :=
  fun d' v he hi hv => hj d' v (h d' v he hi hv)

end Always

-- The commits of a run have to be compatible with the rows that are pending in open transactions.
def Admits (R : Discipline D K ρ) (role : ι → ρ) (c : Config ι D K W C E α) : Action ι D K W C E α → Prop
  | .begin i p => R.Respects (role i) p
  | .commit i => ∀ s v, c.session i = some s → replay s.log c.db = .ok v →
      ∀ j s', j ≠ i → c.session j = some s' → R.Compat s'.unreached c.db v
  | .step _ | .rollback _ => True

structure Holds (R : Discipline D K ρ) (role : ι → ρ) (c : Config ι D K W C E α) : Prop where
  inv : R.Inv c.db
  closed : ∀ i, c.session i = none → c.locks i = ∅
  safe : ∀ i s, c.session i = some s →
    R.Safe (R.Commit (role i)) s.program s.pending s.log (c.locks i) c.db

theorem Holds.init {role : ι → ρ} (h : R.Inv d) :
    R.Holds role (Config.init d : Config ι D K W C E α) where
  inv := h
  closed := by simp [Config.init, Config.locks]
  safe := by simp [Config.init]

variable [DecidableEq ι] {role : ι → ρ} {c c' : Config ι D K W C E α} {a : Action ι D K W C E α} {i j : ι}

theorem Holds.put (h : R.Holds role c) {s}
    (hs : R.Safe (R.Commit (role i)) s.program s.pending s.log (c.locks i) c.db) :
    R.Holds role (c.put i s) where
  inv := h.inv
  closed j hj := by
    by_cases he : j = i
    case pos => simp [Config.put, he] at hj
    case neg => exact h.closed j (by simpa [Config.put, he] using hj)
  safe j s' hj := by
    by_cases he : j = i
    case pos =>
      subst he
      simp only [Config.put, Function.update_self, Option.some.injEq] at hj
      exact hj ▸ hs
    case neg => exact h.safe j s' (by simpa [Config.put, he] using hj)

theorem Holds.close (h : R.Holds role c) : R.Holds role (c.close i) where
  inv := h.inv
  closed j hj := by
    by_cases he : j = i
    case pos => exact he ▸ Config.locks_close_self
    case neg =>
      rw [Config.locks_close_of_ne he]
      exact h.closed j (by simpa [Config.close, he] using hj)
  safe j s hj := by
    by_cases he : j = i
    case pos => simp [Config.close, he] at hj
    case neg =>
      rw [Config.locks_close_of_ne he]
      exact h.safe j s (by simpa [Config.close, he] using hj)

theorem Holds.commit (h : R.Holds role c) {s a v} (hs : c.session i = some s)
    (hp : s.program = .done a) (hv : replay s.log c.db = .ok v) (ha : R.Admits role c (.commit i)) :
    R.Holds role ({ c with db := v }.close i) ∧ R.Guar (role i) (c.locks i) c.db v := by
  have hc : R.Commit (role i) a s.pending s.log (c.locks i) c.db := by
    have := h.safe i s hs
    rwa [hp] at this
  have ⟨hi, hg⟩ := hc c.db v .refl h.inv hv
  refine ⟨⟨hi, h.close.closed, fun j s' hj => ?_⟩, hg⟩
  have hn : j ≠ i := fun he => by simp [Config.close, he] at hj
  replace hj : c.session j = some s' := by simpa [Config.close, hn] using hj
  have hl : ({ c with db := v }.close i).locks j = c.locks j := Config.locks_close_of_ne (c := c) hn
  rw [hl]
  exact (h.safe j s' hj).interference {
    pre := h.inv
    post := hi
    compat := ha s v hs hv j s' hn hj
    guar := ⟨_, _, Config.locks_disjoint hn, hg⟩
  }

variable [DecidableEq K]

theorem Holds.lock (h : R.Holds role c) {s k} (hk : c.owner k = none ∨ c.owner k = some i)
    (hs : R.Safe (R.Commit (role i)) s.program s.pending s.log (insert k (c.locks i)) c.db) :
    R.Holds role ({ c with owner := Function.update c.owner k (some i) }.put i s) := by
  have hl j (hj : j ≠ i) :
      ({ c with owner := Function.update c.owner k (some i) } : Config ..).locks j = c.locks j := by
    ext k'
    by_cases he : k' = k
    case pos => subst he; rcases hk with hk | hk <;> simp [Config.locks, hk, hj.symm]
    case neg => simp [Config.locks, he]
  have hi : ({ c with owner := Function.update c.owner k (some i) } : Config ..).locks i =
      insert k (c.locks i) := by
    ext k'
    by_cases he : k' = k <;> simp [Config.locks, he]
  refine ⟨h.inv, fun j hj => ?_, fun j s' hj => ?_⟩
  case refine_1 =>
    have hn : j ≠ i := fun he => by simp [Config.put, he] at hj
    exact (hl j hn).trans <| h.closed j (by simpa [Config.put, hn] using hj)
  case refine_2 =>
    by_cases hn : j = i
    case pos =>
      subst hn
      simp only [Config.put, Function.update_self, Option.some.injEq] at hj
      exact hj ▸ hi ▸ hs
    case neg =>
      have := h.safe j s' (by simpa [Config.put, hn] using hj)
      exact hl j hn ▸ this

theorem Holds.step (h : R.Holds role c) (ha : R.Admits role c a) (hs : c.step? a = some c') :
    R.Holds role c' ∧
      (c'.db = c.db ∨ ∃ i, a = .commit i ∧ R.Guar (role i) (c.locks i) c.db c'.db) := by
  cases a
  case begin i p =>
    simp only [Config.step?] at hs
    split at hs
    case h_1 => simp at hs
    case h_2 hn =>
      obtain rfl := Option.some.inj hs
      refine ⟨h.put ?_, .inl rfl⟩
      exact h.closed i hn ▸ ha c.db h.inv
  case step i =>
    simp only [Config.step?] at hs
    split at hs
    case h_1 => simp at hs
    case h_2 s hi =>
      have hp := h.safe i s hi
      split at hs
      case h_1 | h_2 => simp at hs
      case h_3 n he =>
        rw [he] at hp
        split at hs
        case h_1 => simp at hs
        case h_2 v hv =>
          obtain rfl := Option.some.inj hs
          exact ⟨h.put <| hp c.db v .refl h.inv hv, .inl rfl⟩
      case h_4 rest k n he =>
        rw [he] at hp
        split at hs
        case isTrue hk =>
          obtain rfl := Option.some.inj hs
          exact ⟨h.lock hk <| hp c.db .refl h.inv, .inl rfl⟩
        case isFalse => simp at hs
      case h_5 w err n he =>
        rw [he] at hp
        split at hs
        case h_1 => simp at hs
        case h_2 v hv =>
          split at hs
          case h_1 => exact Option.some.inj hs ▸ ⟨h.put trivial, .inl rfl⟩
          case h_2 v' hw =>
            obtain rfl := Option.some.inj hs
            exact ⟨h.put <| hp c.db v v' .refl h.inv hv hw, .inl rfl⟩
  case commit i =>
    simp only [Config.step?] at hs
    split at hs
    case h_1 => simp at hs
    case h_2 s hi =>
      split at hs
      case h_1 a he =>
        split at hs
        case h_1 => simp at hs
        case h_2 v hv =>
          obtain rfl := Option.some.inj hs
          obtain ⟨hc, hg⟩ := h.commit hi he hv ha
          exact ⟨hc, .inr ⟨i, rfl, hg⟩⟩
      case h_2 => simp at hs
  case rollback i =>
    simp only [Config.step?] at hs
    split at hs
    case h_1 => simp at hs
    case h_2 => exact Option.some.inj hs ▸ ⟨h.close, .inl rfl⟩

-- In the runs of a system whose transactions respect a discipline, every commit keeps to it.
theorem Holds.run {P} (hP : ∀ c a, P c a → R.Admits role c a) (h : R.Holds role c)
    (hr : Config.Run P c c') :
    R.Holds role c' ∧
      ReflTransGen (fun d d' => R.Inv d ∧ R.Inv d' ∧ ∃ r ks, R.Guar r ks d d') c.db c'.db := by
  induction hr
  case refl => exact ⟨h, .refl⟩
  case step hr ha hs ih =>
    have ⟨h₂, hd⟩ := ih
    have ⟨h₃, hg⟩ := h₂.step (hP _ _ ha) hs
    rcases hg with hg | hg
    case inl => exact ⟨h₃, hg ▸ hd⟩
    case inr =>
      obtain ⟨_, _, hg⟩ := hg
      exact ⟨h₃, hd.tail ⟨h₂.inv, h₃.inv, _, _, hg⟩⟩

end Discipline

end Sql
