import Mathlib.Data.List.Basic

namespace Sql

-- A database state `D` that is changed by elementary writes `W`, each of which can be rejected by a
-- constraint `C`.
class Storage (D : Type) (W C : outParam Type) where
  apply : W → D → Except C D

export Storage (apply)

-- The order in which a statement visits the rows that it has found is up to the database.
class ScanOrder where
  visit {ρ : Type} : List ρ → List ρ
  visit_perm {ρ : Type} (rows : List ρ) : (visit rows).Perm rows

-- Rows are visited as they are stored.
@[reducible]
def ScanOrder.stored : ScanOrder where
  visit rows := rows
  visit_perm _ := .refl _

@[simp]
theorem ScanOrder.mem_visit [ScanOrder] {ρ : Type} {r : ρ} {rows : List ρ} :
    r ∈ visit rows ↔ r ∈ rows :=
  (visit_perm rows).mem_iff

-- The statements of a transaction. The `rest` of a `lock` are the rows that a statement spanning
-- multiple rows has found in its snapshot, but only visits after the row `k`.
inductive Program (D K W C E α : Type) : Type
  | done (a : α)
  | abort (e : E)
  | select (next : D → Program D K W C E α)
  | lock (rest : List K) (k : K) (next : Program D K W C E α)
  | write (w : W) (err : C → E) (next : Program D K W C E α)

namespace Program

variable {D K W C E α β γ : Type}

protected def bind (p : Program D K W C E α) (f : α → Program D K W C E β) :
    Program D K W C E β :=
  match p with
  | done a => f a
  | abort e => abort e
  | select n => select fun d => (n d).bind f
  | lock rest k n => lock rest k (n.bind f)
  | write w err n => write w err (n.bind f)

instance : Monad (Program D K W C E) where
  pure := done
  bind := Program.bind

@[simp]
theorem pure_def (a : α) : (pure a : Program D K W C E α) = done a :=
  rfl

section Bind

variable {f : α → Program D K W C E β}

@[simp] theorem done_bind {a} : (done a : Program D K W C E α) >>= f = f a := rfl
@[simp] theorem abort_bind {e} : (abort e : Program D K W C E α) >>= f = abort e := rfl
@[simp] theorem select_bind {n} : select n >>= f = select fun d => n d >>= f := rfl
@[simp] theorem lock_bind {rest k n} : lock rest k n >>= f = lock rest k (n >>= f) := rfl
@[simp] theorem write_bind {w err n} : write w err n >>= f = write w err (n >>= f) := rfl

end Bind

instance : LawfulMonad (Program D K W C E) := .mk' _
  (fun p => by
    change p.bind done = p
    induction p <;> simp_all [Program.bind])
  (fun _ _ => rfl)
  (fun p f g => by
    induction p <;> simp_all)

-- A query: evaluates `f` in the snapshot of the statement.
def read (f : D → α) : Program D K W C E α :=
  select fun d => done (f d)

-- `FOR UPDATE` on a single row.
def lockRow (k : K) : Program D K W C E Unit :=
  lock [] k (done ())

-- `SELECT .. FOR UPDATE` of a single row. The row is read again once it is locked.
def selectForUpdate (k : K) (f : D → Option α) : Program D K W C E (Option α) :=
  select fun d => match f d with
    | none => done none
    | some _ => lock [] k (select fun d => done (f d))

def exec (w : W) (err : C → E) : Program D K W C E Unit :=
  write w err (done ())

def ofExcept : Except E α → Program D K W C E α
  | .ok a => done a
  | .error e => abort e

def require (c : Prop) [Decidable c] (e : E) : Program D K W C E Unit :=
  if c then done () else abort e

-- A query which has to yield a row.
def fetch (f : D → Option α) (e : E) : Program D K W C E α :=
  select fun d => match f d with
    | some a => done a
    | none => abort e

-- Runs `f` on each row of a statement's snapshot, locking the rows one after another.
def forRows (row : β → K) (f : β → Program D K W C E Unit) : List β → Program D K W C E Unit
  | [] => done ()
  | b :: bs => lock (bs.map row) (row b) (f b >>= fun _ => forRows row f bs)

-- Like `forRows`, but gathers what `f` yields.
def collect (row : β → K) (f : β → Program D K W C E (List α)) :
    List β → Program D K W C E (List α)
  | [] => done []
  | b :: bs => lock (bs.map row) (row b) <|
    f b >>= fun as => collect row f bs >>= fun as' => done (as ++ as')

-- A statement that spans multiple rows.
def forAll [ScanOrder] (rows : D → List β) (row : β → K) (f : β → Program D K W C E Unit) :
    Program D K W C E Unit :=
  select fun d => forRows row f (ScanOrder.visit (rows d))

-- Locks rows one after another, and reads each of them again once it is locked.
def lockEach (row : β → K) (f : D → β → Option α) : List β → Program D K W C E (List α)
  | [] => done []
  | b :: bs => lock (bs.map row) (row b) <| select fun d =>
    lockEach row f bs >>= fun as => done ((f d b).toList ++ as)

-- `SELECT .. FOR UPDATE` of the rows that a query has found, in that order.
def selectAllForUpdate (found : D → List β) (row : β → K) (f : D → β → Option α) :
    Program D K W C E (List α) :=
  select fun d => lockEach row f (found d)

-- A transaction that only reads and locks rows.
def ReadOnly : Program D K W C E α → Prop
  | done _ | abort _ => True
  | select n => ∀ d, (n d).ReadOnly
  | lock _ _ n => n.ReadOnly
  | write .. => False

section ReadOnly

variable {f : α → Program D K W C E β}

@[simp] theorem readOnly_done {a} : (done a : Program D K W C E α).ReadOnly := trivial
@[simp] theorem readOnly_abort {e} : (abort e : Program D K W C E α).ReadOnly := trivial
@[simp] theorem readOnly_select {n : D → Program D K W C E α} :
    (select n).ReadOnly ↔ ∀ d, (n d).ReadOnly := .rfl
@[simp] theorem readOnly_lock {rest k} {p : Program D K W C E α} :
    (lock rest k p).ReadOnly ↔ p.ReadOnly := .rfl

@[simp] theorem readOnly_read {g : D → α} : (read g : Program D K W C E α).ReadOnly :=
  fun _ => trivial

@[simp] theorem readOnly_selectForUpdate {k} {g : D → Option α} :
    (selectForUpdate k g : Program D K W C E (Option α)).ReadOnly := fun d => by
  cases h : g d <;> simp [h]

@[simp] theorem readOnly_ofExcept {r : Except E α} : (ofExcept r : Program D K W C E α).ReadOnly := by
  cases r <;> trivial

@[simp] theorem readOnly_require {c : Prop} [Decidable c] {e} :
    (require c e : Program D K W C E Unit).ReadOnly := by
  unfold require
  split <;> trivial

@[simp] theorem readOnly_fetch {g : D → Option α} {e} :
    (fetch g e : Program D K W C E α).ReadOnly := fun d => by
  cases h : g d <;> simp [h]

theorem ReadOnly.bind {p : Program D K W C E α} (hp : p.ReadOnly) (hf : ∀ a, (f a).ReadOnly) :
    (p >>= f).ReadOnly := by
  induction p
  case done => exact hf _
  case abort => trivial
  case select ih => exact fun d => ih d (hp d)
  case lock ih => exact ih hp
  case write => exact hp.elim

@[simp] theorem readOnly_lockEach {row : β → K} {g : D → β → Option α} {bs} :
    (lockEach row g bs : Program D K W C E (List α)).ReadOnly := by
  induction bs
  case nil => trivial
  case cons ih => exact fun d => ih.bind fun _ => trivial

@[simp] theorem readOnly_selectAllForUpdate {row : β → K} {found : D → List β}
    {g : D → β → Option α} :
    (selectAllForUpdate found row g : Program D K W C E (List α)).ReadOnly :=
  fun _ => readOnly_lockEach

theorem readOnly_forAll [ScanOrder] {rows : D → List β} {row : β → K}
    {g : β → Program D K W C E Unit} (hg : ∀ b, (g b).ReadOnly) : (forAll rows row g).ReadOnly := by
  intro d
  change (forRows row g (ScanOrder.visit (rows d))).ReadOnly
  induction ScanOrder.visit (rows d)
  case nil => trivial
  case cons b bs ih => exact (hg b).bind fun _ => ih

end ReadOnly

-- A transaction all of whose writes satisfy `P`.
def Writes (P : W → Prop) : Program D K W C E α → Prop
  | done _ | abort _ => True
  | select n => ∀ d, (n d).Writes P
  | lock _ _ n => n.Writes P
  | write w _ n => P w ∧ n.Writes P

section Writes

variable {P : W → Prop} {f : α → Program D K W C E β}

@[simp] theorem writes_done {a} : (done a : Program D K W C E α).Writes P := trivial
@[simp] theorem writes_abort {e} : (abort e : Program D K W C E α).Writes P := trivial

theorem Writes.bind {p : Program D K W C E α} (hp : p.Writes P) (hf : ∀ a, (f a).Writes P) :
    (p >>= f).Writes P := by
  induction p
  case done => exact hf _
  case abort => trivial
  case select ih => exact fun d => ih d (hp d)
  case lock ih => exact ih hp
  case write ih => exact ⟨hp.left, ih hp.right⟩

theorem Writes.mono {P' : W → Prop} {p : Program D K W C E α} (hp : p.Writes P)
    (h : ∀ w, P w → P' w) : p.Writes P' := by
  induction p
  case done | abort => trivial
  case select ih => exact fun d => ih d (hp d)
  case lock ih => exact ih hp
  case write ih => exact ⟨h _ hp.left, ih hp.right⟩

theorem ReadOnly.writes {p : Program D K W C E α} (hp : p.ReadOnly) : p.Writes P := by
  induction p
  case done | abort => trivial
  case select ih => exact fun d => ih d (hp d)
  case lock ih => exact ih hp
  case write => exact hp.elim

theorem ReadOnly.writes_bind {p : Program D K W C E α} (hp : p.ReadOnly)
    (hf : ∀ a, (f a).Writes P) : (p >>= f).Writes P :=
  hp.writes.bind hf

theorem writes_exec {w : W} {err : C → E} (hw : P w) : (exec w err : Program D K W C E Unit).Writes P :=
  ⟨hw, trivial⟩

theorem writes_forAll [ScanOrder] {rows : D → List β} {row : β → K}
    {f : β → Program D K W C E Unit} (hf : ∀ b, (f b).Writes P) : (forAll rows row f).Writes P := by
  intro d
  change (forRows row f (ScanOrder.visit (rows d))).Writes P
  induction ScanOrder.visit (rows d)
  case nil => trivial
  case cons b bs ih => exact (hf b).bind fun _ => ih

theorem writes_collect {row : β → K} {f : β → Program D K W C E (List α)} {bs : List β}
    (hf : ∀ b, (f b).Writes P) : (collect row f bs).Writes P := by
  induction bs
  case nil => trivial
  case cons b bs ih => exact (hf b).bind fun _ => ih.bind fun _ => trivial

end Writes

variable [Storage D W C]

-- The outcome of running a transaction on its own. Once it aborts, nothing is left of its writes.
def run : Program D K W C E α → D → Except E (α × D)
  | done a, d => .ok (a, d)
  | abort e, _ => .error e
  | select n, d => (n d).run d
  | lock _ _ n, d => n.run d
  | write w err n, d =>
    match apply w d with
    | .ok d' => n.run d'
    | .error c => .error (err c)

-- The state after a request: a transaction either commits or is rolled back.
def after (p : Program D K W C E α) (d : D) : D :=
  match p.run d with
  | .ok (_, d') => d'
  | .error _ => d

theorem after_of_ok {p : Program D K W C E α} {d d' : D} {a : α} (h : p.run d = .ok (a, d')) :
    p.after d = d' := by
  simp [after, h]

theorem after_of_error {p : Program D K W C E α} {d : D} {e : E} (h : p.run d = .error e) :
    p.after d = d := by
  simp [after, h]

theorem run_bind {p : Program D K W C E α} {f : α → Program D K W C E β} {d : D} :
    (p >>= f).run d = (p.run d >>= fun (a, d') => (f a).run d') := by
  induction p generalizing d
  case done | abort => rfl
  case select ih => exact ih d
  case lock ih => exact ih
  case write ih =>
    simp only [write_bind, run]
    split
    · exact ih
    · rfl

-- The states that a transaction steps through on its own, one for each of its writes.
def trace : Program D K W C E α → D → List D
  | done _, _ | abort _, _ => []
  | select n, d => (n d).trace d
  | lock _ _ n, d => n.trace d
  | write w _ n, d =>
    match apply w d with
    | .ok d' => d' :: n.trace d'
    | .error _ => []

-- The weakest precondition under which a transaction that runs on its own satisfies `I` after each
-- of its writes, and ends with `Q` if it completes or with `R` if it aborts.
def wp (I : D → Prop) (R : E → Prop) (Q : α → D → Prop) : Program D K W C E α → D → Prop
  | done a, d => Q a d
  | abort e, _ => R e
  | select n, d => (n d).wp I R Q d
  | lock _ _ n, d => n.wp I R Q d
  | write w err n, d =>
    (∀ d', apply w d = .ok d' → I d' ∧ n.wp I R Q d') ∧ (∀ c, apply w d = .error c → R (err c))

-- Only speaks about the transactions that complete.
abbrev wlp (Q : α → D → Prop) (p : Program D K W C E α) (d : D) : Prop :=
  p.wp (fun _ => True) (fun _ => True) Q d

section Wp

variable {I : D → Prop} {R : E → Prop} {Q Q' : α → D → Prop} {p : Program D K W C E α} {d : D}

@[simp] theorem wp_done {a} : (done a : Program D K W C E α).wp I R Q d ↔ Q a d := .rfl
@[simp] theorem wp_abort {e} : (abort e : Program D K W C E α).wp I R Q d ↔ R e := .rfl
@[simp] theorem wp_select {n : D → Program D K W C E α} :
    (select n).wp I R Q d ↔ (n d).wp I R Q d := .rfl
@[simp] theorem wp_lock {rest k} : (lock rest k p).wp I R Q d ↔ p.wp I R Q d := .rfl
theorem wp_write {w err} : (write w err p).wp I R Q d ↔
    (∀ d', apply w d = .ok d' → I d' ∧ p.wp I R Q d') ∧ (∀ c, apply w d = .error c → R (err c)) :=
  .rfl

@[simp] theorem wp_read {f : D → α} :
    (read f : Program D K W C E α).wp I R Q d ↔ Q (f d) d := .rfl

@[simp] theorem wp_lockRow {k} {Q : Unit → D → Prop} :
    (lockRow k : Program D K W C E Unit).wp I R Q d ↔ Q () d := .rfl

@[simp] theorem wp_selectForUpdate {k} {f : D → Option α} {Q : Option α → D → Prop} :
    (selectForUpdate k f : Program D K W C E (Option α)).wp I R Q d ↔ Q (f d) d := by
  simp only [selectForUpdate, wp_select]
  cases h : f d <;> simp [h]

@[simp] theorem wp_exec {w err} {Q : Unit → D → Prop} :
    (exec w err : Program D K W C E Unit).wp I R Q d ↔
      (∀ d', apply w d = .ok d' → I d' ∧ Q () d') ∧ (∀ c, apply w d = .error c → R (err c)) :=
  .rfl

@[simp] theorem wp_require {c : Prop} [Decidable c] {e} {Q : Unit → D → Prop} :
    (require c e : Program D K W C E Unit).wp I R Q d ↔ (c → Q () d) ∧ (¬c → R e) := by
  unfold require
  split <;> simp_all

@[simp] theorem wp_fetch {f : D → Option α} {e} :
    (fetch f e : Program D K W C E α).wp I R Q d ↔
      (∀ a, f d = some a → Q a d) ∧ (f d = none → R e) := by
  simp only [fetch, wp_select]
  cases f d <;> simp

@[simp] theorem wp_ofExcept {r : Except E α} : (ofExcept r : Program D K W C E α).wp I R Q d ↔
    (∀ a, r = .ok a → Q a d) ∧ (∀ e, r = .error e → R e) := by
  cases r <;> simp [ofExcept]

@[simp]
theorem wp_bind {f : α → Program D K W C E β} {Q : β → D → Prop} :
    (p >>= f).wp I R Q d ↔ p.wp I R (fun a d' => (f a).wp I R Q d') d := by
  induction p generalizing d <;> simp_all [wp_write]

theorem wp_mono (h : p.wp I R Q d) (hq : ∀ a d', Q a d' → Q' a d') : p.wp I R Q' d := by
  induction p generalizing d
  case done | abort => simp_all
  case select ih => exact ih _ h
  case lock ih => exact ih h
  case write ih => exact ⟨fun d' ha => ⟨(h.left d' ha).left, ih (h.left d' ha).right⟩, h.right⟩

theorem wlp_of_forall (h : ∀ a d', Q a d') : p.wlp Q d := by
  induction p generalizing d
  case done => exact h _ _
  case abort => trivial
  case select ih => exact ih _
  case lock ih => exact ih
  case write ih => exact ⟨fun _ _ => ⟨trivial, ih⟩, fun _ _ => trivial⟩

theorem wp_and (h₁ : p.wp I R Q d) (h₂ : p.wp I R Q' d) :
    p.wp I R (fun a d' => Q a d' ∧ Q' a d') d := by
  induction p generalizing d
  case done | abort => simp_all
  case select ih => exact ih _ h₁ h₂
  case lock ih => exact ih h₁ h₂
  case write ih =>
    refine ⟨fun d' ha => ⟨(h₁.left d' ha).left, ?_⟩, h₁.right⟩
    exact ih (h₁.left d' ha).right (h₂.left d' ha).right

@[simp]
theorem wp_selectAllForUpdate {row : β → K} {found : D → List β} {g : D → β → Option α}
    {Q : List α → D → Prop} :
    (selectAllForUpdate found row g : Program D K W C E (List α)).wp I R Q d ↔
      Q ((found d).filterMap (g d)) d := by
  simp only [selectAllForUpdate, wp_select]
  induction found d generalizing Q
  case nil => rfl
  case cons b bs ih =>
    simp only [lockEach, wp_lock, wp_select, wp_bind, ih, wp_done]
    cases h : g d b <;> simp [h]

theorem wp_readOnly (hp : p.ReadOnly) : p.wp I (fun _ => True) (fun _ d' => d' = d) d := by
  induction p
  case done | abort => trivial
  case select ih => exact ih d (hp d)
  case lock ih => exact ih hp
  case write => exact hp.elim

theorem wp_readOnly_bind {f : α → Program D K W C E β} {Q : β → D → Prop} (hp : p.ReadOnly)
    (hf : ∀ a, (f a).wp I (fun _ => True) Q d) : (p >>= f).wp I (fun _ => True) Q d :=
  wp_bind.mpr <| wp_mono (wp_readOnly hp) fun a _ h => h ▸ hf a

theorem wp_imp {I' : D → Prop} {R' : E → Prop} (h : p.wp I R Q d) (hi : ∀ d', I d' → I' d')
    (hr : ∀ e, R e → R' e) : p.wp I' R' Q d := by
  induction p generalizing d
  case done => exact h
  case abort => exact hr _ h
  case select ih => exact ih _ h
  case lock ih => exact ih h
  case write ih =>
    refine ⟨fun d' ha => ⟨hi _ (h.left d' ha).left, ih (h.left d' ha).right⟩, fun c hc => ?_⟩
    exact hr _ (h.right c hc)

-- The rule for statements that span multiple rows: `J bs` holds when the rows `bs` remain.
theorem wp_forRows {row : β → K} {f : β → Program D K W C E Unit} {bs : List β}
    (J : List β → D → Prop) (hd : J bs d)
    (hf : ∀ b bs d, J (b :: bs) d → (f b).wp I R (fun _ d' => J bs d') d) :
    (forRows row f bs).wp I R (fun _ d' => J [] d') d := by
  induction bs generalizing d
  case nil => exact hd
  case cons b bs ih =>
    simp only [forRows, wp_lock, wp_bind]
    exact wp_mono (hf b bs d hd) fun _ _ => ih

-- Here `J as bs` holds when the rows `bs` remain and `as` has been gathered.
theorem wp_collect {row : β → K} {f : β → Program D K W C E (List α)} {bs : List β}
    (J : List α → List β → D → Prop) (hd : J [] bs d)
    (hf : ∀ as b bs d, J as (b :: bs) d → (f b).wp I R (fun as' d' => J (as ++ as') bs d') d) :
    (collect row f bs).wp I R (fun as d' => J as [] d') d := by
  suffices hs : ∀ as₀, J as₀ bs d →
      (collect row f bs).wp I R (fun as d' => J (as₀ ++ as) [] d') d from hs [] hd
  clear hd
  intro as₀ hd
  induction bs generalizing as₀ d
  case nil => simpa [collect] using hd
  case cons b bs ih =>
    simp only [collect, wp_lock, wp_bind, wp_done]
    refine wp_mono (hf as₀ b bs d hd) fun as d' hj => ?_
    simpa only [List.append_assoc] using ih _ hj

-- Locking rows does not change anything.
@[simp] theorem wp_forAll_done [ScanOrder] {rows : D → List β} {row : β → K} {Q : Unit → D → Prop} :
    (forAll rows row fun _ => done () : Program D K W C E Unit).wp I R Q d ↔ Q () d := by
  simp only [forAll, wp_select]
  induction ScanOrder.visit (rows d) <;> simp_all [forRows]

-- What holds throughout a statement that spans multiple rows.
theorem wp_forAll [ScanOrder] {rows : D → List β} {row : β → K} {f : β → Program D K W C E Unit}
    {J : D → Prop} (hd : J d) (hf : ∀ b d, J d → (f b).wp I R (fun _ => J) d) :
    (forAll rows row f).wp I R (fun _ => J) d :=
  wp_forRows (fun _ => J) hd fun b _ d => hf b d

theorem wp_iff_run : p.wp I R Q d ↔
    (∀ d' ∈ p.trace d, I d') ∧ (∀ a d', p.run d = .ok (a, d') → Q a d') ∧
    (∀ e, p.run d = .error e → R e) := by
  induction p generalizing d
  case done | abort => simp [trace, run]
  case select ih => exact ih _
  case lock ih => exact ih
  case write w err n ih =>
    simp only [wp_write, trace, run]
    cases apply w d
    case ok d' => simp [ih, and_assoc]
    case error c => simp

theorem wp_run {a : α} {d' : D} (h : p.wp I R Q d) (hr : p.run d = .ok (a, d')) : Q a d' :=
  (wp_iff_run.mp h).right.left a d' hr

theorem wp_run_error {e : E} (h : p.wp I R Q d) (hr : p.run d = .error e) : R e :=
  (wp_iff_run.mp h).right.right e hr

-- A transaction that ends in a state which satisfies `J` preserves `J`, since aborting it restores
-- the initial state.
theorem wp_after {J : D → Prop} (h : p.wp I R (fun _ => J) d) (hd : J d) : J (p.after d) := by
  cases hr : p.run d
  case ok r => rw [after_of_ok hr]; exact wp_run h hr
  case error e => rw [after_of_error hr]; exact hd

-- What each write preserves is preserved by the transaction.
theorem Writes.wp {P : W → Prop} {J : D → Prop} (hp : p.Writes P) (hd : J d)
    (hw : ∀ w d d', P w → J d → apply w d = .ok d' → J d') :
    p.wp J (fun _ => True) (fun _ => J) d := by
  induction p generalizing d
  case done => exact hd
  case abort => trivial
  case select ih => exact ih d (hp d) hd
  case lock ih => exact ih hp hd
  case write w err n ih =>
    refine ⟨fun d' ha => ?_, fun _ _ => trivial⟩
    have hd' : J d' := hw w d d' hp.left hd ha
    exact ⟨hd', ih hp.right hd'⟩

theorem Writes.wlp {P : W → Prop} {J : D → Prop} (hp : p.Writes P) (hd : J d)
    (hw : ∀ w d d', P w → J d → apply w d = .ok d' → J d') : p.wlp (fun _ => J) d :=
  wp_imp (hp.wp hd hw) (fun _ _ => trivial) fun _ _ => trivial

-- A transaction that cannot abort completes.
theorem wp_total (h : p.wp I (fun _ => False) Q d) : ∃ a d', p.run d = .ok (a, d') ∧ Q a d' := by
  cases hr : p.run d
  case ok r => exact ⟨r.1, r.2, rfl, wp_run h hr⟩
  case error e => exact (wp_run_error h hr).elim

end Wp

end Program

end Sql
