import Mathlib.Data.List.Basic

-- Devices that read commands off a stream, and carry out one after the other.
structure CommandStream (α C S : Type) where
  read : List α → Option (C × List α)
  step : S → C → Option S

namespace CommandStream

variable {α C S : Type} (m : CommandStream α C S) {s s₁ s₂ s₃ : S} {c : C}
  {input input₁ input₂ : List α}

def run (s : S) (input : List α) : Option S :=
  match input with
  | [] => some s
  | a :: as => do
    let (c, rest) ← m.read (a :: as)
    if h : rest.length < (a :: as).length then
      run (← m.step s c) rest
    else
      none
termination_by input.length
decreasing_by exact h

-- The input takes the device from the one state to the other, whatever follows.
def Receives (s₁ : S) (input : List α) (s₂ : S) : Prop :=
  ∀ rest, m.run s₁ (input ++ rest) = m.run s₂ rest

variable {m}

theorem Receives.run_eq (h : m.Receives s₁ input s₂) : m.run s₁ input = some s₂ := by
  have hn : m.run s₂ [] = some s₂ := by rw [run]
  have hi := h []
  rwa [List.append_nil, hn] at hi

theorem Receives.refl : m.Receives s [] s :=
  fun _ => rfl

theorem Receives.trans (h₁ : m.Receives s₁ input₁ s₂) (h₂ : m.Receives s₂ input₂ s₃) :
    m.Receives s₁ (input₁ ++ input₂) s₃ := by
  intro rest
  rw [List.append_assoc, h₁, h₂]

theorem receives_of_read (hn : input ≠ []) (hr : ∀ rest, m.read (input ++ rest) = some (c, rest))
    (hs : m.step s₁ c = some s₂) : m.Receives s₁ input s₂ := by
  intro rest
  obtain ⟨a, as, rfl⟩ := List.exists_cons_of_ne_nil hn
  have ha := hr rest
  rw [List.cons_append] at ha ⊢
  have hl : rest.length < (a :: (as ++ rest)).length := by
    rw [List.length_cons, List.length_append]
    omega
  rw [run, ha, Option.bind_eq_bind, Option.bind_some]
  dsimp only
  rw [dif_pos hl, hs]
  rfl

end CommandStream
