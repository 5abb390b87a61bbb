import Mathlib.Data.List.Sort

namespace Listing

variable {α β : Type} {as bs : List α} {a b : α} {n k : Nat}

def ascending [LE β] [DecidableLE β] (f : α → β) (a₁ a₂ : α) : Bool :=
  f a₁ ≤ f a₂

def descending [LE β] [DecidableLE β] (f : α → β) (a₁ a₂ : α) : Bool :=
  f a₂ ≤ f a₁

-- The second order decides where the first one does not.
def thenBy (le₁ le₂ : α → α → Bool) (a₁ a₂ : α) : Bool :=
  le₁ a₁ a₂ && (!le₁ a₂ a₁ || le₂ a₁ a₂)

def orderBy (le : α → α → Bool) (as : List α) : List α :=
  as.insertionSort (le · ·)

theorem perm_orderBy {le : α → α → Bool} : (orderBy le as).Perm as :=
  List.perm_insertionSort _ as

-- `LIMIT` and `OFFSET`
def page (limit offset : Nat) (as : List α) : List α :=
  (as.drop offset).take limit

section LatestFirst

variable {τ κ : Type} [LE τ] [DecidableLE τ] [LE κ] [DecidableLE κ] {at_ : α → τ} {id : α → κ}

-- The latest rows come first, and those of one time in the order of their identifiers.
def latestFirst (at_ : α → τ) (id : α → κ) : α → α → Bool :=
  thenBy (descending at_) (ascending id)

-- Rows are added and written, but none is lost or gets older.
def Gains (at_ : α → τ) (id : α → κ) (as bs : List α) : Prop :=
  ∀ a ∈ as, ∃ b ∈ bs, id b = id a ∧ at_ a ≤ at_ b

variable [Std.IsLinearOrder τ] [Std.IsLinearOrder κ]

end LatestFirst

-- What a reader of a table sees: some of the rows, with some of their columns blanked.
structure Veil (α : Type) where
  visible : α → Bool
  blank : α → α

namespace Veil

variable {v : Veil α} {p : α → Bool}

def shown (v : Veil α) (as : List α) : List α :=
  (as.filter v.visible).map v.blank

theorem mem_shown {a : α} : a ∈ v.shown as ↔ ∃ a' ∈ as, v.visible a' ∧ v.blank a' = a := by
  simp [shown, and_assoc]

theorem nodup_shown {κ : Type} {id : α → κ} (h : (as.map id).Nodup) (hb : ∀ a, id (v.blank a) = id a) :
    ((v.shown as).map id).Nodup := by
  rw [shown, List.map_map, show id ∘ v.blank = id from funext hb]
  exact h.sublist (List.filter_sublist.map id)

-- A condition that only visible rows meet, and that does not depend on what is blanked.
structure Admits (v : Veil α) (as : List α) (p : α → Bool) : Prop where
  visible : ∀ a ∈ as, p a → v.visible a
  blank : ∀ a, p (v.blank a) = p a

theorem filter_shown (h : v.Admits as p) : (v.shown as).filter p = (as.filter p).map v.blank := by
  have hp : (p ∘ v.blank) = p := funext h.blank
  rw [shown, List.filter_map, hp, List.filter_filter]
  congr 1
  refine List.filter_congr fun a hm => ?_
  cases ha : p a
  case false => rfl
  case true => simp [h.visible a hm ha]

theorem length_filter_shown (h : v.Admits as p) :
    ((v.shown as).filter p).length = (as.filter p).length := by
  rw [filter_shown h, List.length_map]

-- Two readers of the same rows get the same, if they agree on each of them.
theorem filterMap_filter_shown {f f' : α → Option β} (h : v.Admits as p)
    (hf : ∀ a ∈ as, p a → f' (v.blank a) = f a) :
    ((v.shown as).filter p).filterMap f' = (as.filter p).filterMap f := by
  rw [filter_shown h, List.filterMap_map]
  refine List.filterMap_congr fun a hm => ?_
  obtain ⟨hm, hp⟩ := List.mem_filter.mp hm
  exact hf a hm hp

theorem map_filter_shown {f f' : α → β} (h : v.Admits as p)
    (hf : ∀ a ∈ as, p a → f' (v.blank a) = f a) :
    ((v.shown as).filter p).map f' = (as.filter p).map f := by
  rw [← List.filterMap_eq_map, ← List.filterMap_eq_map]
  exact filterMap_filter_shown h fun a hm hp => congrArg some (hf a hm hp)

theorem find?_shown (h : v.Admits as p) : (v.shown as).find? p = (as.find? p).map v.blank := by
  rw [← List.head?_filter, ← List.head?_filter, filter_shown h, List.head?_map]

theorem bind_find?_shown {f f' : α → Option β} (h : v.Admits as p)
    (hf : ∀ a ∈ as, p a → f' (v.blank a) = f a) :
    ((v.shown as).find? p).bind f' = (as.find? p).bind f := by
  rw [find?_shown h]
  cases ha : as.find? p
  case none => rfl
  case some a => exact hf a (List.mem_of_find?_eq_some ha) (List.find?_some ha)

theorem map_find?_shown {f f' : α → β} (h : v.Admits as p)
    (hf : ∀ a ∈ as, p a → f' (v.blank a) = f a) :
    ((v.shown as).find? p).map f' = (as.find? p).map f := by
  simp only [Option.map_eq_bind]
  exact bind_find?_shown h fun a hm hp => congrArg some (hf a hm hp)

-- The condition is about what the rows are joined with.
theorem filter_filterMap_shown {f f' : α → Option β} {q : β → Bool}
    (hf : ∀ a ∈ as, v.visible a → f' (v.blank a) = f a)
    (hq : ∀ a ∈ as, ∀ b ∈ f a, q b → v.visible a) :
    ((v.shown as).filterMap f').filter q = (as.filterMap f).filter q := by
  rw [shown, List.filterMap_map, List.filter_filterMap, List.filter_filterMap, List.filterMap_filter]
  refine List.filterMap_congr fun a hm => ?_
  by_cases ha : v.visible a
  case pos => simp [ha, hf a hm ha]
  case neg =>
    rw [if_neg ha]
    exact (Option.filter_eq_none_iff.mpr fun b hb hb' => ha (hq a hm b hb hb')).symm

end Veil

end Listing
