import LabInventory.Library.Transaction

theorem Except.map_bind {ε α β γ : Type} {x : Except ε α} {f : α → Except ε β} {g : β → γ} :
    (x >>= f).map g = x >>= fun a => (f a).map g := by
  cases x <;> rfl

namespace Sql.Program

variable {D K W C E α β : Type} [Storage D W C] {f : D → D}

-- The transaction neither sees nor touches what `f` changes.
def Frames (f : D → D) : Program D K W C E α → Prop
  | done _ | abort _ => True
  | select n => ∀ d, n (f d) = n d ∧ (n d).Frames f
  | lock _ _ n => n.Frames f
  | write w _ n => (∀ d, apply w (f d) = (apply w d).map f) ∧ n.Frames f

section Rules

variable {k : K} {g : D → α} {p : Program D K W C E α} {q : α → Program D K W C E β}

theorem Frames.bind (hp : p.Frames f) (hq : ∀ a, (q a).Frames f) : (p >>= q).Frames f := by
  induction p
  case done => exact hq _
  case abort => trivial
  case select n ih =>
    intro d
    obtain ⟨he, hn⟩ := hp d
    exact ⟨congrArg (· >>= q) he, ih d hn⟩
  case lock ih => exact ih hp
  case write ih => exact ⟨hp.left, ih hp.right⟩

theorem frames_read (hg : ∀ d, g (f d) = g d) : (read g : Program D K W C E α).Frames f :=
  fun d => ⟨congrArg done (hg d), trivial⟩

theorem frames_lockRow : (lockRow k : Program D K W C E Unit).Frames f :=
  trivial

theorem frames_selectForUpdate {g : D → Option α} (hg : ∀ d, g (f d) = g d) :
    (selectForUpdate k g : Program D K W C E (Option α)).Frames f := by
  refine fun d => ⟨?_, ?_⟩
  case refine_1 => simp only [hg]
  case refine_2 =>
    dsimp only
    cases g d
    case none => trivial
    case some => exact frames_read hg

theorem frames_ofExcept {r : Except E α} : (ofExcept r : Program D K W C E α).Frames f := by
  cases r <;> trivial

theorem frames_require {c : Prop} [Decidable c] {e : E} :
    (require c e : Program D K W C E Unit).Frames f := by
  unfold require
  split <;> trivial

theorem frames_exec {w : W} {err : C → E} (hw : ∀ d, apply w (f d) = (apply w d).map f) :
    (exec w err : Program D K W C E Unit).Frames f :=
  ⟨hw, trivial⟩

-- The frame rule.
theorem Frames.run (h : p.Frames f) (d : D) : p.run (f d) = (p.run d).map fun r => (r.1, f r.2) := by
  induction p generalizing d
  case done | abort => rfl
  case select n ih =>
    obtain ⟨he, hn⟩ := h d
    simp only [Program.run, he]
    exact ih d hn d
  case lock ih => exact ih h d
  case write w err n ih =>
    simp only [Program.run, h.left d]
    cases apply w d
    case error => rfl
    case ok d' => exact ih h.right d'

theorem Frames.fixed {d d' : D} {a : α} (h : p.Frames f) (hd : f d = d)
    (hr : p.run d = .ok (a, d')) : f d' = d' := by
  have hf := h.run d
  rw [hd, hr] at hf
  exact (congrArg Prod.snd <| Except.ok.inj hf).symm

end Rules

end Sql.Program
