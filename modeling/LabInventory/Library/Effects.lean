import LabInventory.Library.Transaction

namespace Sql.Program

variable {D K W C E α β : Type} [Storage D W C]

-- What each write that satisfies `P` in its state preserves.
def Closed (P : D → W → Prop) (J : D → Prop) : Prop :=
  ∀ w d d', P d w → J d → apply w d = .ok d' → J d'

theorem Closed.or {P P' : D → W → Prop} {J : D → Prop} (h : Closed P J) (h' : Closed P' J) :
    Closed (fun d w => P d w ∨ P' d w) J :=
  fun w d d' hw => hw.elim (h w d d') (h' w d d')

-- When a transaction runs on its own, `P` holds of each write in the state that it is made in, and
-- `Q` holds once the transaction completes.
def performs (P : D → W → Prop) (Q : α → D → Prop) : Program D K W C E α → D → Prop
  | done a, d => Q a d
  | abort _, _ => True
  | select n, d => (n d).performs P Q d
  | lock _ _ n, d => n.performs P Q d
  | write w _ n, d => P d w ∧ ∀ d', apply w d = .ok d' → n.performs P Q d'

variable {P P' : D → W → Prop} {Q Q' : α → D → Prop} {J : D → Prop} {d : D}
  {p : Program D K W C E α}

@[simp]
theorem performs_bind {f : α → Program D K W C E β} {Q : β → D → Prop} :
    (p >>= f).performs P Q d ↔ p.performs P (fun a d' => (f a).performs P Q d') d := by
  induction p generalizing d <;> simp_all [performs]

theorem performs_exec {w : W} {err : C → E} {Q : Unit → D → Prop} (hw : P d w)
    (hq : ∀ d', apply w d = .ok d' → Q () d') :
    (exec w err : Program D K W C E Unit).performs P Q d :=
  ⟨hw, hq⟩

theorem performs_mono (h : p.performs P Q d) (hq : ∀ a d', Q a d' → Q' a d') :
    p.performs P Q' d := by
  induction p generalizing d
  case done => exact hq _ _ h
  case abort => trivial
  case select ih => exact ih _ h
  case lock ih => exact ih h
  case write ih => exact ⟨h.left, fun d' ha => ih (h.right d' ha)⟩

theorem performs_imp (h : p.performs P Q d) (hp : ∀ d w, P d w → P' d w) : p.performs P' Q d := by
  induction p generalizing d
  case done => exact h
  case abort => trivial
  case select ih => exact ih _ h
  case lock ih => exact ih h
  case write ih => exact ⟨hp _ _ h.left, fun d' ha => ih (h.right d' ha)⟩

-- Nothing has to be said about the writes of what only reads.
theorem ReadOnly.performs (hp : p.ReadOnly) (h : p.wlp Q d) : p.performs P Q d := by
  induction p
  case done => exact h
  case abort => trivial
  case select ih => exact ih d (hp d) h
  case lock ih => exact ih hp h
  case write => exact hp.elim

theorem ReadOnly.performs_bind {f : α → Program D K W C E β} {Q : β → D → Prop} (hp : p.ReadOnly)
    (h : p.wlp (fun a d' => (f a).performs P Q d') d) : (p >>= f).performs P Q d :=
  Program.performs_bind.mpr <| hp.performs h

-- What is read does not always matter.
theorem ReadOnly.performs_bind_all {f : α → Program D K W C E β} {Q : β → D → Prop}
    (hp : p.ReadOnly) (h : ∀ a, (f a).performs P Q d) : (p >>= f).performs P Q d :=
  hp.performs_bind <| wp_mono (wp_readOnly hp) fun a _ he => he ▸ h a

theorem Writes.performs {P' : W → Prop} (hp : p.Writes P') (h : ∀ d w, P' w → P d w) :
    p.performs P (fun _ _ => True) d := by
  induction p generalizing d
  case done | abort => trivial
  case select ih => exact ih d (hp d)
  case lock ih => exact ih hp
  case write ih => exact ⟨h _ _ hp.left, fun _ _ => ih hp.right⟩

-- The rule of invariants.
theorem performs_and (h : p.performs P Q d) (hj : Closed P J) (hd : J d) :
    p.performs P (fun a d' => Q a d' ∧ J d') d := by
  induction p generalizing d
  case done => exact ⟨h, hd⟩
  case abort => trivial
  case select ih => exact ih _ h hd
  case lock ih => exact ih h hd
  case write w err n ih =>
    exact ⟨h.left, fun d' ha => ih (h.right d' ha) (hj w d d' h.left hd ha)⟩

theorem performs_imp_of_closed (h : p.performs P Q d) (hj : Closed P J) (hd : J d)
    (hp : ∀ d w, J d → P d w → P' d w) : p.performs P' Q d := by
  induction p generalizing d
  case done => exact h
  case abort => trivial
  case select ih => exact ih _ h hd
  case lock ih => exact ih h hd
  case write w err n ih =>
    exact ⟨hp _ _ hd h.left, fun d' ha => ih (h.right d' ha) (hj w d d' h.left hd ha)⟩

theorem wlp_of_performs (h : p.performs P Q d) : p.wlp Q d := by
  induction p generalizing d
  case done => exact h
  case abort => trivial
  case select ih => exact ih _ h
  case lock ih => exact ih h
  case write ih => exact ⟨fun d' ha => ⟨trivial, ih (h.right d' ha)⟩, fun _ _ => trivial⟩

theorem performs.wlp (h : p.performs P (fun _ _ => True) d) (hj : Closed P J) (hd : J d) :
    p.wlp (fun _ => J) d :=
  wp_mono (wlp_of_performs <| performs_and h hj hd) fun _ _ hd' => hd'.right

theorem performs.after (h : p.performs P (fun _ _ => True) d) (hj : Closed P J) (hd : J d) :
    J (p.after d) :=
  wp_after (h.wlp hj hd) hd

-- `J` is carried from row to row.
theorem performs_forRows {row : β → K} {f : β → Program D K W C E Unit} {bs : List β}
    (J : List β → D → Prop) (hd : J bs d)
    (hf : ∀ b bs d, J (b :: bs) d → (f b).performs P (fun _ d' => J bs d') d) :
    (forRows row f bs).performs P (fun _ d' => J [] d') d := by
  induction bs generalizing d
  case nil => exact hd
  case cons b bs ih => exact performs_bind.mpr <| performs_mono (hf b bs d hd) fun _ _ => ih

theorem performs_forAll [ScanOrder] {rows : D → List β} {row : β → K}
    {f : β → Program D K W C E Unit} (J : List β → D → Prop)
    (hd : J (ScanOrder.visit (rows d)) d)
    (hf : ∀ b bs d, J (b :: bs) d → (f b).performs P (fun _ d' => J bs d') d) :
    (forAll rows row f).performs P (fun _ d' => J [] d') d :=
  performs_forRows J hd hf

end Sql.Program
