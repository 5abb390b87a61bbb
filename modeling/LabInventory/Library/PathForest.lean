import Mathlib.Data.List.Infix
import Mathlib.Logic.Function.Basic
import Mathlib.Logic.Relation

open Relation

-- The nodes of a forest know their parent, and store the labels on the way from the root to them.
-- Nodes of different groups have nothing to do with each other.
structure PathNode (ι γ α : Type) where
  group : γ
  parent : Option ι
  label : α
  path : List α

abbrev PathForest (ι γ α : Type) :=
  ι → Option (PathNode ι γ α)

namespace PathForest

variable {ι γ α : Type} {F : PathForest ι γ α} {i j p x : ι} {n m q old new : PathNode ι γ α}

def Parent (F : PathForest ι γ α) (i j : ι) : Prop :=
  ∃ n, F j = some n ∧ n.parent = some i

-- Each node is an ancestor of itself.
def IsAncestor (F : PathForest ι γ α) : ι → ι → Prop :=
  ReflTransGen F.Parent

def Acyclic (F : PathForest ι γ α) : Prop :=
  ∀ i, ¬TransGen F.Parent i i

-- The path of a node continues the path of its parent.
inductive Linked (F : PathForest ι γ α) (n : PathNode ι γ α) : Prop
  | root : n.parent = none → n.path = [n.label] → Linked F n
  | child {a b} : n.parent = some a → F a = some b → b.group = n.group →
      n.path = b.path ++ [n.label] → Linked F n

def WellFormed (F : PathForest ι γ α) : Prop :=
  ∀ i n, F i = some n → F.Linked n

def PathsUnique (F : PathForest ι γ α) : Prop :=
  ∀ i j n m, F i = some n → F j = some m → n.group = m.group → n.path = m.path → i = j

-- The stored path of `m` extends the one of `n`.
structure Under (n m : PathNode ι γ α) : Prop where
  group : n.group = m.group
  path : n.path <+: m.path

theorem Under.refl : Under n n :=
  ⟨rfl, List.prefix_rfl⟩

theorem Under.trans {k : PathNode ι γ α} (h₁ : Under n m) (h₂ : Under m k) : Under n k :=
  ⟨h₁.group.trans h₂.group, h₁.path.trans h₂.path⟩

instance [DecidableEq γ] [DecidableEq α] {n m : PathNode ι γ α} : Decidable (Under n m) :=
  decidable_of_iff (n.group = m.group ∧ n.path <+: m.path) ⟨fun h => ⟨h.1, h.2⟩, fun h => ⟨h.1, h.2⟩⟩

theorem Linked.path_ne_nil (h : F.Linked n) : n.path ≠ [] := by
  cases h
  case root h => simp [h]
  case child h => simp [h]

theorem Linked.parent (h : F.Linked n) (hp : n.parent = some p) :
    ∃ q, F p = some q ∧ q.group = n.group ∧ n.path = q.path ++ [n.label] := by
  cases h
  case root h _ => simp [hp] at h
  case child i q hi hq hg h =>
    obtain rfl : p = i := Option.some.inj <| hp.symm.trans hi
    exact ⟨q, hq, hg, h⟩

-- A node above `n` is `n` itself, or above its parent.
theorem Linked.under (h : F.Linked n) (hm : Under m n) (hn : m.path ≠ []) :
    m.path = n.path ∨ ∃ p q, n.parent = some p ∧ F p = some q ∧ Under m q := by
  cases h
  case root hp h =>
    have hm' := hm.path
    rw [h, ← List.nil_append [n.label], List.prefix_concat_iff, List.prefix_nil] at hm'
    exact .inl <| (hm'.resolve_right hn).trans h.symm
  case child p q hp hq hg h =>
    have hm' := hm.path
    rw [h, List.prefix_concat_iff] at hm'
    rcases hm' with hm' | hm'
    case inl => exact .inl <| hm'.trans h.symm
    case inr => exact .inr ⟨p, q, hp, hq, hm.group.trans hg.symm, hm'⟩

namespace WellFormed

theorem under_of_parent (h : F.WellFormed) (hp : F.Parent i j) (hm : F j = some m) :
    ∃ n, F i = some n ∧ Under n m ∧ n.path.length < m.path.length := by
  have ⟨m', hm', hp⟩ := hp
  obtain rfl : m = m' := Option.some.inj <| hm.symm.trans hm'
  have ⟨n, hn, hg, he⟩ := (h j m hm).parent hp
  exact ⟨n, hn, ⟨hg, he ▸ List.prefix_append ..⟩, by simp [he]⟩

theorem under_of_transGen (h : F.WellFormed) (ha : TransGen F.Parent i j) (hm : F j = some m) :
    ∃ n, F i = some n ∧ Under n m ∧ n.path.length < m.path.length := by
  induction ha generalizing m
  case single hp => exact h.under_of_parent hp hm
  case tail hp ih =>
    have ⟨k, hk, hu, hl⟩ := h.under_of_parent hp hm
    have ⟨n, hn, hu', hl'⟩ := ih hk
    exact ⟨n, hn, hu'.trans hu, hl'.trans hl⟩

theorem acyclic (h : F.WellFormed) : F.Acyclic := by
  intro i ha
  have ⟨m, hm⟩ : ∃ m, F i = some m := by
    cases ha
    case single hp => exact ⟨_, hp.choose_spec.left⟩
    case tail hp => exact ⟨_, hp.choose_spec.left⟩
  have ⟨n, hn, _, hl⟩ := h.under_of_transGen ha hm
  rw [Option.some.inj <| hn.symm.trans hm] at hl
  exact absurd hl <| lt_irrefl _

theorem under_of_isAncestor (h : F.WellFormed) (ha : F.IsAncestor i j) (hn : F i = some n)
    (hm : F j = some m) : Under n m := by
  rcases reflTransGen_iff_eq_or_transGen.mp ha with he | ha
  case inl =>
    subst he
    exact Option.some.inj (hn.symm.trans hm) ▸ .refl
  case inr =>
    obtain ⟨n', hn', hu, _⟩ := h.under_of_transGen ha hm
    exact Option.some.inj (hn'.symm.trans hn) ▸ hu

-- By induction on the length of the lower path.
theorem isAncestor_of_under (h : F.WellFormed) (hu : F.PathsUnique) (hn : F i = some n)
    (hm : F j = some m) (hnm : Under n m) : F.IsAncestor i j := by
  induction hl : m.path.length using Nat.strong_induction_on generalizing j m
  case h l ih =>
    rcases (h j m hm).under hnm (h i n hn).path_ne_nil with he | ⟨p, q, hp, hq, hnq⟩
    case inl => exact hu i j n m hn hm hnm.group he ▸ .refl
    case inr =>
      have ⟨q', hq', _, he⟩ := (h j m hm).parent hp
      obtain rfl : q' = q := Option.some.inj <| hq'.symm.trans hq
      have hlt : q'.path.length < l := by simp [← hl, he]
      exact .tail (ih _ hlt hq hnq rfl) ⟨m, hm, hp⟩

theorem isAncestor_iff (h : F.WellFormed) (hu : F.PathsUnique) (hn : F i = some n)
    (hm : F j = some m) : F.IsAncestor i j ↔ Under n m :=
  ⟨(h.under_of_isAncestor · hn hm), h.isAncestor_of_under hu hn hm⟩

end WellFormed

variable [DecidableEq ι]

def insert (F : PathForest ι γ α) (i : ι) (n : PathNode ι γ α) : PathForest ι γ α :=
  Function.update F i (some n)

theorem WellFormed.insert (h : F.WellFormed) (hi : F i = none) (hn : F.Linked n) :
    (F.insert i n).WellFormed := by
  have hl {m} (hm : F.Linked m) : (F.insert i n).Linked m := by
    cases hm
    case root hp hm => exact .root hp hm
    case child p q hp hq hg hm =>
      have hpi : p ≠ i := fun he => by simp [he, hi] at hq
      exact .child hp ((Function.update_of_ne hpi ..).trans hq) hg hm
  intro j m hm
  by_cases hj : j = i
  case pos =>
    subst hj
    simp only [PathForest.insert, Function.update_self, Option.some.injEq] at hm
    exact hm ▸ hl hn
  case neg =>
    simp only [PathForest.insert, Function.update_of_ne hj] at hm
    exact hl <| h j m hm

-- Sets the parent of `i`, and nothing else.
def reparent (F : PathForest ι γ α) (i : ι) (p : Option ι) : PathForest ι γ α :=
  fun j => if j = i then (F j).map fun n => { n with parent := p } else F j

variable [DecidableEq γ] [DecidableEq α]

-- Removes a node with everything below it.
def remove (F : PathForest ι γ α) (old : PathNode ι γ α) : PathForest ι γ α :=
  fun i => (F i).filter (¬Under old ·)

omit [DecidableEq ι] in
theorem WellFormed.remove (h : F.WellFormed) : (F.remove old).WellFormed := by
  intro i n hn
  simp only [PathForest.remove, Option.filter_eq_some_iff, decide_eq_true_eq] at hn
  cases h i n hn.left
  case root hp hn => exact .root hp hn
  case child p q hp hq hg he =>
    refine .child hp ?_ hg he
    simp only [PathForest.remove, hq, Option.filter_eq_some_iff, decide_eq_true_eq, true_and]
    exact fun hu => hn.right <| hu.trans ⟨hg, he ▸ List.prefix_append ..⟩

-- Replaces the path of `old`, which is a prefix of the path of `n`.
def rebase (old new n : PathNode ι γ α) : PathNode ι γ α :=
  { n with path := new.path ++ n.path.drop old.path.length }

-- Replaces the node `old` at `i`, and drags along everything below it.
def move (F : PathForest ι γ α) (i : ι) (old new : PathNode ι γ α) : PathForest ι γ α :=
  fun j => (F j).map fun n =>
    if j = i then new else if Under old n then rebase old new n else n

theorem move_self (hx : F x = some old) : F.move x old new x = some new := by
  simp [move, hx]

theorem move_under (hj : F j = some n) (hn : j ≠ x) (hu : Under old n) :
    F.move x old new j = some (rebase old new n) := by
  simp [move, hj, hn, hu]

theorem move_not_under (hj : F j = some n) (hn : j ≠ x) (hu : ¬Under old n) :
    F.move x old new j = some n := by
  simp [move, hj, hn, hu]

-- A node can be moved to any place which is not below itself.
theorem WellFormed.move (h : F.WellFormed) (hu : F.PathsUnique) (hx : F x = some old)
    (hg : new.group = old.group) (hl : F.Linked new)
    (hp : ∀ p q, new.parent = some p → F p = some q → ¬Under old q) :
    (F.move x old new).WellFormed := by
  intro j m hm
  obtain ⟨n, hn, rfl⟩ := Option.map_eq_some_iff.mp hm
  split_ifs with hj hun
  case pos =>
    cases hl
    case root hp he => exact .root hp he
    case child p q hp' hq hgq he =>
      have hnq := hp p q hp' hq
      have hpx : p ≠ x := by
        rintro rfl
        exact hnq <| Option.some.inj (hq.symm.trans hx) ▸ .refl
      exact .child hp' (move_not_under hq hpx hnq) hgq he
  case pos =>
    -- The node is not `old`, so that its parent is below `old`, too.
    rcases (h j n hn).under hun (h x old hx).path_ne_nil with he | ⟨p, q, hpn, hq, huq⟩
    case inl => exact absurd (hu x j old n hx hn hun.group he).symm hj
    case inr =>
      obtain ⟨q', hq', hgq, he⟩ := (h j n hn).parent hpn
      obtain rfl : q' = q := Option.some.inj <| hq'.symm.trans hq
      have hlen := huq.path.length_le
      by_cases hpx : p = x
      case pos =>
        subst hpx
        obtain rfl : q' = old := Option.some.inj <| hq.symm.trans hx
        refine .child hpn (move_self hx) (hg.trans hgq) ?_
        simp [rebase, he]
      case neg =>
        refine .child hpn (move_under hq hpx huq) hgq ?_
        simp [rebase, he, List.drop_append_of_le_length hlen]
  case neg =>
    cases h j n hn
    case root hpn he => exact .root hpn he
    case child p q hpn hq hgq he =>
      have huq : ¬Under old q := fun huq => hun <| huq.trans ⟨hgq, he ▸ List.prefix_append ..⟩
      have hpx : p ≠ x := by
        rintro rfl
        exact huq <| Option.some.inj (hq.symm.trans hx) ▸ .refl
      exact .child hpn (move_not_under hq hpx huq) hgq he

omit [DecidableEq γ] [DecidableEq α] in
theorem WellFormed.isAncestor_reparent {o : Option ι} (h : F.WellFormed) (ha : F.IsAncestor x j) :
    (F.reparent x o).IsAncestor x j := by
  induction ha
  case refl => exact .refl
  case tail b c hb hc ih =>
    -- The chain does not return to `x`.
    have hx : c ≠ x := fun he => h.acyclic x <| .tail' hb (he ▸ hc)
    have ⟨m, hm, hp⟩ := hc
    exact ih.tail ⟨m, (if_neg hx).trans hm, hp⟩

-- The places below a node are exactly the ones which it cannot be moved to.
theorem WellFormed.acyclic_reparent (h : F.WellFormed) (hu : F.PathsUnique) (hx : F x = some old)
    (hq : F p = some q) (hg : q.group = old.group) :
    (F.reparent x (some p)).Acyclic ↔ ¬Under old q := by
  constructor
  case mp =>
    intro ha hn
    have hd := h.isAncestor_reparent (o := some p) <| h.isAncestor_of_under hu hx hq hn
    exact ha x <| .tail' hd ⟨{ old with parent := some p }, by simp [reparent, hx], rfl⟩
  case mpr =>
    intro hn i hi
    let new : PathNode ι γ α := ⟨old.group, some p, old.label, q.path ++ [old.label]⟩
    have hw : (F.move x old new).WellFormed := by
      refine h.move hu hx rfl (.child rfl hq hg rfl) fun p' q' hp' hq' => ?_
      obtain rfl : p = p' := Option.some.inj hp'
      exact Option.some.inj (hq.symm.trans hq') ▸ hn
    refine hw.acyclic i <| TransGen.mono (fun a b ⟨m, hm, hp⟩ => ?_) i i hi
    by_cases hb : b = x
    case pos =>
      subst hb
      simp only [reparent, if_true, hx, Option.map_some, Option.some.injEq] at hm
      subst hm
      exact ⟨new, move_self hx, hp⟩
    case neg =>
      simp only [reparent, if_neg hb] at hm
      by_cases hum : Under old m
      case pos => exact ⟨_, move_under hm hb hum, hp⟩
      case neg => exact ⟨m, move_not_under hm hb hum, hp⟩

end PathForest
