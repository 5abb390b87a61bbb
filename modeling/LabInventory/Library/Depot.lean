import Mathlib.Data.Set.Insert
import Mathlib.Logic.Function.Basic

-- Objects that are stored under keys, and deleted some time after the last reference to them is gone.
-- What has ever been stored under a key is recorded in `stored`.
structure Depot (κ β : Type) where
  objects : κ → Option β
  stored : κ → Option β
  queues : List (List κ)

namespace Depot

variable {κ β : Type} {s : Depot κ β} {refs refs' : Set κ} {k : κ} {b : β} {q : List κ}

def empty : Depot κ β where
  objects _ := none
  stored _ := none
  queues := []

-- The objects of a queue are deleted one after another.
def schedule (s : Depot κ β) (q : List κ) : Depot κ β :=
  { s with queues := q :: s.queues }

-- The rest of a queue is given up.
def abandon (s : Depot κ β) (i : Nat) : Depot κ β :=
  { s with queues := s.queues.eraseIdx i }

section Decidable

variable [DecidableEq κ]

def store (s : Depot κ β) (k : κ) (b : β) : Depot κ β :=
  { s with
    objects := Function.update s.objects k (some b)
    stored := Function.update s.stored k (some b) }

-- Nothing is left that could be deleted if the object does not exist.
def removeNext (s : Depot κ β) (i : Nat) : Depot κ β :=
  match s.queues[i]? with
  | some (k :: q) => { s with
      objects := Function.update s.objects k none
      queues := s.queues.set i q
    }
  | _ => s

@[simp]
theorem stored_removeNext {i : Nat} : (s.removeNext i).stored = s.stored := by
  unfold removeNext
  split <;> rfl

end Decidable

-- What is referred to can be read, and is not about to be deleted.
structure Keeps (s : Depot κ β) (refs : Set κ) : Prop where
  present : ∀ k ∈ refs, (s.objects k).isSome
  original : ∀ k b, s.objects k = some b → s.stored k = some b
  scheduled : ∀ q ∈ s.queues, ∀ k ∈ q, (s.stored k).isSome ∧ k ∉ refs

theorem Keeps.empty : (empty : Depot κ β).Keeps ∅ where
  present _ h := h.elim
  original _ _ h := nomatch h
  scheduled _ h := nomatch h

theorem Keeps.stored (h : s.Keeps refs) (hk : k ∈ refs) : (s.stored k).isSome := by
  obtain ⟨b, hb⟩ := Option.isSome_iff_exists.mp <| h.present k hk
  exact Option.isSome_iff_exists.mpr ⟨b, h.original k b hb⟩

theorem Keeps.not_mem_of_none (h : s.Keeps refs) (hk : s.stored k = none) : k ∉ refs :=
  fun hm => by simpa [hk] using h.stored hm

-- References are dropped, and what they have referred to may be scheduled.
theorem Keeps.release (h : s.Keeps refs) (hr : refs' ⊆ refs) (hq : ∀ k ∈ q, k ∈ refs ∧ k ∉ refs') :
    (s.schedule q).Keeps refs' where
  present k hk := h.present k (hr hk)
  original := h.original
  scheduled q' hq' k hk := by
    obtain rfl | hq' := List.mem_cons.mp hq'
    case inl => exact ⟨h.stored (hq k hk).left, (hq k hk).right⟩
    case inr =>
      obtain ⟨hs, hn⟩ := h.scheduled q' hq' k hk
      exact ⟨hs, fun hm => hn (hr hm)⟩

theorem Keeps.weaken (h : s.Keeps refs) (hr : refs' ⊆ refs) : s.Keeps refs' where
  present k hk := h.present k (hr hk)
  original := h.original
  scheduled q hq k hk := by
    obtain ⟨hs, hn⟩ := h.scheduled q hq k hk
    exact ⟨hs, fun hm => hn (hr hm)⟩

theorem Keeps.abandon (h : s.Keeps refs) {i : Nat} : (s.abandon i).Keeps refs where
  present := h.present
  original := h.original
  scheduled q hq := h.scheduled q (List.mem_of_mem_eraseIdx hq)

variable [DecidableEq κ]

-- An object is stored under a key that is used for the first time.
theorem Keeps.store (h : s.Keeps refs) (hk : s.stored k = none) :
    (s.store k b).Keeps (insert k refs) where
  present k' hk' := by
    by_cases he : k' = k
    case pos => simp [Depot.store, he]
    case neg =>
      have hm : k' ∈ refs := (Set.mem_insert_iff.mp hk').resolve_left he
      simpa [Depot.store, he] using h.present k' hm
  original k' b' hb := by
    by_cases he : k' = k
    case pos =>
      subst he
      simpa [Depot.store] using hb
    case neg =>
      simp only [Depot.store, Function.update_of_ne he] at hb ⊢
      exact h.original k' b' hb
  scheduled q hq k' hk' := by
    obtain ⟨hs, hn⟩ := h.scheduled q hq k' hk'
    have he : k' ≠ k := fun he => by simp [he, hk] at hs
    refine ⟨by simpa [Depot.store, he] using hs, fun hm => ?_⟩
    exact hn <| (Set.mem_insert_iff.mp hm).resolve_left he

theorem Keeps.removeNext (h : s.Keeps refs) {i : Nat} : (s.removeNext i).Keeps refs := by
  unfold Depot.removeNext
  split
  case h_1 k q hi =>
    have hm : k :: q ∈ s.queues := List.mem_of_getElem? hi
    refine ⟨fun k' hk' => ?_, fun k' b hb => ?_, fun q' hq' k' hk' => ?_⟩
    case refine_1 =>
      have he : k' ≠ k := fun he => (h.scheduled _ hm k (.head _)).right (he ▸ hk')
      simpa [he] using h.present k' hk'
    case refine_2 =>
      by_cases he : k' = k
      case pos => simp [he] at hb
      case neg => exact h.original k' b (by simpa [he] using hb)
    case refine_3 =>
      obtain hq' | rfl := List.mem_or_eq_of_mem_set hq'
      case inl => exact h.scheduled q' hq' k' hk'
      case inr => exact h.scheduled _ hm k' (.tail _ hk')
  case h_2 => exact h

end Depot
