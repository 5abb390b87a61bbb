import Mathlib.Logic.Basic

namespace Except

variable {ε α β : Type}

def check (c : Prop) [Decidable c] (e : ε) : Except ε Unit :=
  if c then .ok () else .error e

variable {x : Except ε α} {f : α → Except ε β} {a : α} {b : β} {e : ε}

-- A computation succeeds iff all of its steps do.
@[simp]
theorem bind_eq_ok : (x >>= f) = .ok b ↔ ∃ a, x = .ok a ∧ f a = .ok b := by
  cases x <;> simp [bind, Except.bind]

@[simp]
theorem pure_eq_ok : (pure b : Except ε β) = .ok b' ↔ b = b' := by
  simp [pure, Except.pure]

@[simp]
theorem throw_ne_ok : (throw e : Except ε β) ≠ .ok b := by
  simp [throw, throwThe, MonadExceptOf.throw]

theorem ok_ne_error : (.ok a : Except ε α) ≠ .error e := by
  intro h
  cases h

@[simp]
theorem check_eq_ok {c : Prop} [Decidable c] {u : Unit} : check c e = .ok u ↔ c := by
  unfold check
  split <;> simp_all

@[simp]
theorem map_eq_ok {f : α → β} : f <$> x = .ok b ↔ ∃ a, x = .ok a ∧ f a = b := by
  cases x <;> simp [Functor.map, Except.map]

@[simp]
theorem mapError_eq_ok {ε' : Type} {f : ε → ε'} : x.mapError f = .ok a ↔ x = .ok a := by
  cases x
  case ok b =>
    change Except.ok b = .ok a ↔ _
    simp
  case error e =>
    change Except.error (f e) = .ok a ↔ _
    simp

@[simp]
theorem mapError_eq_error {ε' : Type} {f : ε → ε'} {e : ε'} :
    x.mapError f = .error e ↔ ∃ e', x = .error e' ∧ f e' = e := by
  cases x
  case ok b =>
    change Except.ok b = .error e ↔ _
    simp
  case error e' =>
    change Except.error (f e') = .error e ↔ _
    simp

-- A check that is made on the way.
theorem throw_bind_eq_ok {c : Prop} [Decidable c] {e : ε} {a : α} {x : Except ε α} :
    (if c then (throw e >>= fun _ : Unit => x) else x) = .ok a ↔ ¬c ∧ x = .ok a := by
  split
  case isTrue hc => exact iff_of_false (fun h => nomatch h) fun h => h.left hc
  case isFalse hc => exact (and_iff_right hc).symm

theorem exists_of_mem_mapM {as : List α} {bs : List β} (h : as.mapM f = .ok bs) (hb : b ∈ bs) :
    ∃ a ∈ as, f a = .ok b := by
  induction as generalizing bs
  case nil =>
    obtain rfl := pure_eq_ok.mp h
    cases hb
  case cons a as ih =>
    simp only [List.mapM_cons, bind_eq_ok, pure_eq_ok] at h
    obtain ⟨b', hf, bs', hm, rfl⟩ := h
    obtain rfl | hb := List.mem_cons.mp hb
    · exact ⟨a, .head _, hf⟩
    · exact (ih hm hb).imp fun _ h => ⟨.tail _ h.left, h.right⟩

theorem map_eq_of_mapM {γ : Type} {as : List α} {bs : List β} {g : β → γ} {g' : α → γ}
    (h : as.mapM f = .ok bs) (hf : ∀ a b, f a = .ok b → g b = g' a) : bs.map g = as.map g' := by
  induction as generalizing bs
  case nil =>
    obtain rfl := pure_eq_ok.mp h
    rfl
  case cons a as ih =>
    simp only [List.mapM_cons, bind_eq_ok, pure_eq_ok] at h
    obtain ⟨b, hb, bs', hm, rfl⟩ := h
    rw [List.map_cons, List.map_cons, hf a b hb, ih hm]

-- What is not given is left as it is.
theorem getD_of_mapM {o : Option α} {o' : Option β} {P : β → Prop} (h : o.mapM f = .ok o') (hb : P b)
    (hf : ∀ a ∈ o, ∀ b, f a = .ok b → P b) : P (o'.getD b) := by
  cases o
  case none => exact pure_eq_ok.mp h ▸ hb
  case some a =>
    obtain ⟨b', hb', h⟩ := bind_eq_ok.mp h
    exact pure_eq_ok.mp h ▸ hf a rfl b' hb'

end Except
