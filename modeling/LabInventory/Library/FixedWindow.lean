import Mathlib.Data.List.Basic
import Mathlib.Data.List.Pairwise
import Mathlib.Logic.Function.Basic

namespace FixedWindow

-- A counter, and the last moment before it expires.
structure Counter where
  count : Nat
  deadline : Nat
deriving DecidableEq

-- A hit counts in the running window, or opens a new one.
def Counter.hit (w now : Nat) : Option Counter → Counter
  | none => ⟨1, now + w⟩
  | some c => if now ≤ c.deadline then ⟨c.count + 1, c.deadline⟩ else ⟨1, now + w⟩

-- Something that was let through in the window up to `deadline`.
structure Pass where
  time : Nat
  deadline : Nat

variable {w n a t now : Nat} {ps : List Pass} {c? : Option Counter}

-- Two passes are in the same window, or in disjoint ones.
def Pass.Follows (w : Nat) (p q : Pass) : Prop :=
  q.deadline = p.deadline ∨ p.deadline < q.time ∧ p.deadline + w < q.deadline

def inWindow (ps : List Pass) (deadline : Nat) : List Pass :=
  ps.filter (·.deadline = deadline)

theorem inWindow_eq_nil {d : Nat} (h : ∀ p ∈ ps, p.deadline < d) : inWindow ps d = [] := by
  refine List.filter_eq_nil_iff.mpr fun p hp => ?_
  have := h p hp
  simp only [decide_eq_true_eq]
  omega

theorem inWindow_concat_self {d : Nat} :
    inWindow (ps ++ [⟨now, d⟩]) d = inWindow ps d ++ [⟨now, d⟩] := by
  simp [inWindow, List.filter_append]

theorem inWindow_concat_of_ne {d d' : Nat} (hne : d ≠ d') :
    inWindow (ps ++ [⟨now, d⟩]) d' = inWindow ps d' := by
  simp [inWindow, List.filter_append, hne]

structure Spread (w n : Nat) (ps : List Pass) : Prop where
  follows : ps.Pairwise (Pass.Follows w)
  within : ∀ p ∈ ps, p.time ≤ p.deadline
  limit : ∀ d, (inWindow ps d).length ≤ n

theorem Spread.sublist {qs : List Pass} (h : Spread w n ps) (hs : qs.Sublist ps) : Spread w n qs where
  follows := h.follows.sublist hs
  within p hp := h.within p (hs.subset hp)
  limit d := Nat.le_trans (hs.filter _).length_le (h.limit d)

-- A stretch of time which is as long as a window meets two windows at most.
theorem Spread.length_le (h : Spread w n ps) (ha : ∀ p ∈ ps, a ≤ p.time ∧ p.time ≤ a + w) :
    ps.length ≤ 2 * n := by
  cases ps
  case nil => exact Nat.zero_le _
  case cons p ps =>
    have hothers : ((p :: ps).filter fun q => ¬q.deadline = p.deadline).length ≤ n := by
      cases ho : (p :: ps).filter fun q => ¬q.deadline = p.deadline
      case nil => exact Nat.zero_le _
      case cons q qs =>
        have hq : q ∈ (p :: ps).filter fun q => ¬q.deadline = p.deadline := ho ▸ .head _
        obtain ⟨hq, hne⟩ := List.mem_filter.mp hq
        replace hne : q.deadline ≠ p.deadline := by simpa using hne
        replace hq : q ∈ ps := (List.mem_cons.mp hq).resolve_left fun he => hne (he ▸ rfl)
        have hpq := (List.rel_of_pairwise_cons h.follows hq).resolve_left hne
        have hsame : ∀ r ∈ q :: qs, r.deadline = q.deadline := by
          intro r hr
          have hmem : r ∈ p :: ps := (List.mem_filter.mp (ho ▸ hr)).left
          obtain rfl | hr := List.mem_cons.mp hr
          case inl => rfl
          case inr =>
            have hs : (q :: qs).Pairwise (Pass.Follows w) :=
              ho ▸ h.follows.sublist List.filter_sublist
            -- A third window would be too late.
            refine (List.rel_of_pairwise_cons hs hr).resolve_right fun hlate => ?_
            have := h.within p (.head _)
            have := (ha p (.head _)).left
            have := (ha r hmem).right
            omega
        have hall : q :: qs = (q :: qs).filter (·.deadline = q.deadline) :=
          (List.filter_eq_self.mpr fun r hr => decide_eq_true (hsame r hr)).symm
        rw [hall, ← ho]
        exact Nat.le_trans (List.filter_sublist.filter _).length_le (h.limit q.deadline)
    have hfirst := h.limit p.deadline
    have hsum := List.length_eq_length_filter_add (l := p :: ps) fun q => decide (q.deadline = p.deadline)
    simp only [inWindow, decide_not] at hfirst hothers hsum
    omega

-- What a counter says about the passes so far.
structure Ledger (w n now : Nat) (c? : Option Counter) (ps : List Pass) : Prop where
  spread : Spread w n ps
  current : ∀ p ∈ ps, ∃ c ∈ c?, p.deadline = c.deadline ∨
    p.deadline + w < c.deadline ∧ c.deadline ≤ now + w
  counted : ∀ c ∈ c?, (inWindow ps c.deadline).length ≤ c.count

namespace Ledger

theorem init : Ledger w n now c? [] where
  spread := ⟨.nil, fun _ h => absurd h List.not_mem_nil, fun _ => Nat.zero_le _⟩
  current _ h := absurd h List.not_mem_nil
  counted _ _ := Nat.zero_le _

theorem mono (h : Ledger w n now c? ps) (ht : now ≤ t) : Ledger w n t c? ps where
  spread := h.spread
  current p hp := by
    obtain ⟨c, hc, hd⟩ := h.current p hp
    exact ⟨c, hc, hd.imp_right fun hd => ⟨hd.left, by omega⟩⟩
  counted := h.counted

-- The window of a hit is the running one, or comes after all of the passes.
theorem hit_cases (h : Ledger w n now c? ps) :
    (∃ c ∈ c?, now ≤ c.deadline ∧ Counter.hit w now c? = ⟨c.count + 1, c.deadline⟩) ∨
    Counter.hit w now c? = ⟨1, now + w⟩ ∧ ∀ p ∈ ps, p.deadline < now := by
  cases c?
  case none =>
    refine .inr ⟨rfl, fun p hp => ?_⟩
    obtain ⟨c, hc, -⟩ := h.current p hp
    cases hc
  case some c =>
    by_cases hl : now ≤ c.deadline
    case pos => exact .inl ⟨c, rfl, hl, if_pos hl⟩
    case neg =>
      refine .inr ⟨if_neg hl, fun p hp => ?_⟩
      obtain ⟨_, hc, hd⟩ := h.current p hp
      obtain rfl := Option.some.inj hc
      omega

theorem hit (h : Ledger w n now c? ps) : Ledger w n now (some (Counter.hit w now c?)) ps := by
  obtain ⟨c, hc, -, he⟩ | ⟨he, hlt⟩ := h.hit_cases
  case inl =>
    rw [he]
    refine ⟨h.spread, fun p hp => ⟨_, rfl, ?_⟩, fun _ hc' => ?_⟩
    case refine_1 =>
      obtain ⟨_, hc', hd⟩ := h.current p hp
      obtain rfl := Option.mem_unique hc hc'
      exact hd
    case refine_2 =>
      obtain rfl := Option.some.inj hc'
      exact Nat.le_succ_of_le (h.counted c hc)
  case inr =>
    rw [he]
    refine ⟨h.spread, fun p hp => ⟨_, rfl, .inr ⟨?_, Nat.le_refl _⟩⟩, fun _ hc' => ?_⟩
    case refine_1 => exact Nat.add_lt_add_right (hlt p hp) w
    case refine_2 =>
      obtain rfl := Option.some.inj hc'
      rw [inWindow_eq_nil fun p hp => Nat.lt_of_lt_of_le (hlt p hp) (Nat.le_add_right _ _)]
      exact Nat.zero_le _

-- A hit leaves room for itself in its window, which the passes so far are in or before.
theorem room (h : Ledger w n now c? ps) :
    (inWindow ps (Counter.hit w now c?).deadline).length + 1 ≤ (Counter.hit w now c?).count ∧
    now ≤ (Counter.hit w now c?).deadline ∧
    ∀ p ∈ ps, Pass.Follows w p ⟨now, (Counter.hit w now c?).deadline⟩ := by
  obtain ⟨c, hc, hl, he⟩ | ⟨he, hlt⟩ := h.hit_cases
  case inl =>
    rw [he]
    refine ⟨Nat.succ_le_succ (h.counted c hc), hl, fun p hp => ?_⟩
    obtain ⟨_, hc', hd⟩ := h.current p hp
    obtain rfl := Option.mem_unique hc hc'
    exact hd.imp Eq.symm fun hd => ⟨by simp only; omega, hd.left⟩
  case inr =>
    rw [he]
    refine ⟨?_, Nat.le_add_right _ _, fun p hp => .inr ⟨hlt p hp, ?_⟩⟩
    case refine_1 =>
      rw [inWindow_eq_nil fun p hp => Nat.lt_of_lt_of_le (hlt p hp) (Nat.le_add_right _ _)]
      exact Nat.le_refl _
    case refine_2 => exact Nat.add_lt_add_right (hlt p hp) w

theorem pass (h : Ledger w n now c? ps) (hn : (Counter.hit w now c?).count ≤ n) :
    Ledger w n now (some (Counter.hit w now c?)) (ps ++ [⟨now, (Counter.hit w now c?).deadline⟩]) := by
  have hh := h.hit
  obtain ⟨hcount, hlive, hfollows⟩ := h.room
  generalize Counter.hit w now c? = c at *
  refine ⟨⟨?_, ?_, fun d => ?_⟩, ?_, fun _ hc => ?_⟩
  case refine_1 =>
    refine List.pairwise_append.mpr ⟨h.spread.follows, List.pairwise_singleton _ _, fun p hp q hq => ?_⟩
    exact List.mem_singleton.mp hq ▸ hfollows p hp
  case refine_2 =>
    refine List.forall_mem_append.mpr ⟨h.spread.within, ?_⟩
    exact List.forall_mem_singleton.mpr hlive
  case refine_3 =>
    by_cases hd : c.deadline = d
    case pos =>
      subst hd
      rw [inWindow_concat_self, List.length_append]
      exact Nat.le_trans hcount hn
    case neg =>
      rw [inWindow_concat_of_ne hd]
      exact h.spread.limit d
  case refine_4 =>
    exact List.forall_mem_append.mpr ⟨hh.current, List.forall_mem_singleton.mpr ⟨c, rfl, .inl rfl⟩⟩
  case refine_5 =>
    obtain rfl := Option.some.inj hc
    rw [inWindow_concat_self, List.length_append]
    exact hcount

end Ledger

end FixedWindow
