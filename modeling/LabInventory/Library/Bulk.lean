import LabInventory.Library.Table
import LabInventory.Library.Transaction

-- Statements that change multiple rows of a table.

namespace Sql

open TableSchema

namespace Program

variable {D K W C E ρ κ C' : Type} [Storage D W C] [TableSchema ρ κ C']
variable {I : D → Prop} {R : E → Prop} {d : D}
variable {v : D → Table ρ} {p : ρ → Bool} {g : ρ → Option ρ} {row : ρ → K}
variable {f : ρ → Program D K W C E Unit}

-- The rows `bs` remain to be visited, all others that satisfy `p` have been replaced.
structure BulkProgress (t : Table ρ) (p : ρ → Bool) (g : ρ → Option ρ) (bs : List ρ)
    (t' : Table ρ) : Prop where
  distinct : bs.Pairwise (key · ≠ key ·)
  found : ∀ b ∈ bs, t.find? (key b) = some b ∧ p b
  find? : ∀ k, t'.find? k =
    if ∃ b ∈ bs, key b = k then t.find? k else (t.find? k).bind fun r => if p r then g r else some r

theorem BulkProgress.start {t : Table ρ} {bs : List ρ} (h : bs.Perm (t.filter p).rows) :
    BulkProgress t p g bs t where
  distinct := h.symm.pairwise (t.filter p).keyed fun h => h.symm
  found b hb := by
    have ⟨hm, hp⟩ := Table.mem_filter.mp <| h.mem_iff.mp hb
    exact ⟨Table.find?_key hm, hp⟩
  find? k := by
    split_ifs
    case pos => rfl
    case neg hn =>
      cases hr : t.find? k
      case none => rfl
      case some r =>
        obtain ⟨hm, hk⟩ := Table.find?_eq_some.mp hr
        have hp : ¬p r := fun hp => hn ⟨r, h.mem_iff.mpr <| Table.mem_filter.mpr ⟨hm, hp⟩, hk⟩
        simp [hp]

theorem BulkProgress.visit {t t' t'' : Table ρ} {b : ρ} {bs : List ρ}
    (h : BulkProgress t p g (b :: bs) t')
    (hf : ∀ k, t''.find? k = if key b = k then g b else t'.find? k) :
    BulkProgress t p g bs t'' where
  distinct := h.distinct.of_cons
  found b' hb' := h.found b' <| List.mem_cons_of_mem _ hb'
  find? k := by
    have ⟨hb, hp⟩ := h.found b List.mem_cons_self
    rw [hf k, h.find? k]
    by_cases hk : key b = k
    case pos =>
      subst hk
      have hn : ¬∃ b' ∈ bs, key b' = key b := fun ⟨b', hb', he⟩ =>
        (List.pairwise_cons.mp h.distinct).left b' hb' he.symm
      rw [if_pos rfl, if_neg hn, hb, Option.bind_some, if_pos hp]
    case neg => simp [hk]

theorem BulkProgress.next {t t' : Table ρ} {b : ρ} {bs : List ρ}
    (h : BulkProgress t p g (b :: bs) t') : t'.find? (key b) = some b ∧ p b := by
  have ⟨hb, hp⟩ := h.found b List.mem_cons_self
  rw [h.find?, if_pos ⟨b, List.mem_cons_self, rfl⟩]
  exact ⟨hb, hp⟩

-- It suffices to look at what the statement does to a single row. `J` is what is known besides.
theorem wp_bulk_of {bs : List ρ} {J : D → Prop} (hb : bs.Perm ((v d).filter p).rows) (hj : J d)
    (hf : ∀ b bs d', J d' → BulkProgress (v d) p g (b :: bs) (v d') →
      (f b).wp I R (fun _ d'' =>
        J d'' ∧ ∀ k, (v d'').find? k = if key b = k then g b else (v d').find? k) d') :
    (forRows row f bs).wp I R (fun _ d' => J d' ∧ ∀ k, (v d').find? k =
      ((v d).find? k).bind fun r => if p r then g r else some r) d := by
  let K (bs : List ρ) (d' : D) : Prop := J d' ∧ BulkProgress (v d) p g bs (v d')
  refine wp_mono (wp_forRows K ⟨hj, .start hb⟩ fun b bs d' h => ?_) fun _ d' h => ⟨h.left, fun k => ?_⟩
  case refine_1 =>
    exact wp_mono (hf b bs d' h.left h.right) fun _ _ h' => ⟨h'.left, h.right.visit h'.right⟩
  case refine_2 => simpa using h.right.find? k

theorem wp_bulk {bs : List ρ} (hb : bs.Perm ((v d).filter p).rows)
    (hf : ∀ b d', p b → (v d').find? (key b) = some b →
      (f b).wp I R (fun _ d'' => ∀ k, (v d'').find? k = if key b = k then g b else (v d').find? k)
        d') :
    (forRows row f bs).wp I R (fun _ d' => ∀ k, (v d').find? k =
      ((v d).find? k).bind fun r => if p r then g r else some r) d := by
  refine wp_mono (wp_bulk_of (J := fun _ => True) hb trivial fun b bs d' _ h => ?_) fun _ _ h => h.right
  have ⟨hb, hp⟩ := h.next
  exact wp_mono (hf b d' hp hb) fun _ _ h => ⟨trivial, h⟩

-- The transaction goes through precisely if `c` holds, and does nothing otherwise.
structure Settles (q : Program D K W C E Unit) (c : Prop) (Q : D → Prop) (d : D) : Prop where
  succeeds : c → ∃ d', q.run d = .ok ((), d') ∧ Q d'
  fails : ¬c → (∃ e, q.run d = .error e) ∧ q.after d = d

theorem settles_of_wp {q : Program D K W C E Unit} {c : Prop} {Q : D → Prop}
    (h : q.wp (fun _ => True) (fun _ => ¬c) (fun _ d' => c ∧ Q d') d) : q.Settles c Q d := by
  have hrun := (wp_iff_run.mp h).right
  cases hr : q.run d
  case ok r =>
    obtain ⟨hc, hq⟩ := hrun.left r.1 r.2 hr
    exact ⟨fun _ => ⟨r.2, hr, hq⟩, fun hn => absurd hc hn⟩
  case error e =>
    have hn := hrun.right e hr
    exact ⟨fun hc => absurd hc hn, fun _ => ⟨⟨e, hr⟩, after_of_error hr⟩⟩

end Program

-- The rows that satisfy `p` can be replaced all at once.
def Table.Admits {ρ κ C : Type} [TableSchema ρ κ C] (t : Table ρ) (p : ρ → Bool) (g : ρ → ρ) : Prop :=
  ∀ r ∈ t, p r → ∀ r' ∈ t, key r' ≠ key r → conflict? (g r) (if p r' then g r' else r') = none

section Admits

variable {ρ κ C : Type} [TableSchema ρ κ C] {t t' : Table ρ} {p : ρ → Bool} {g : ρ → ρ} {b r : ρ}
  {bs : List ρ}

theorem Table.mem_of_find?_bind
    (h : ∀ k, t'.find? k = (t.find? k).bind fun r => if p r then some (g r) else some r) :
    r ∈ t' ↔ ∃ r₀ ∈ t, r = if p r₀ then g r₀ else r₀ := by
  constructor
  case mp =>
    intro hr
    have hf := (h (key r)).symm.trans <| Table.find?_key hr
    obtain ⟨r₀, hr₀, he⟩ := Option.bind_eq_some_iff.mp hf
    refine ⟨r₀, (Table.find?_eq_some.mp hr₀).left, ?_⟩
    split_ifs at he ⊢ <;> exact (Option.some.inj he).symm
  case mpr =>
    rintro ⟨r₀, hr₀, rfl⟩
    have hf : t'.find? (key r₀) = some (if p r₀ then g r₀ else r₀) := by
      rw [h, Table.find?_key hr₀, Option.bind_some]
      split_ifs <;> rfl
    exact (Table.find?_eq_some.mp hf).left

theorem Table.mem_of_find?_removed
    (h : ∀ k, t'.find? k = (t.find? k).bind fun r => if p r then none else some r) :
    r ∈ t' ↔ r ∈ t ∧ ¬p r := by
  have hf {t : Table ρ} : r ∈ t ↔ t.find? (key r) = some r :=
    (Table.find?_eq_some.trans <| and_iff_left rfl).symm
  rw [hf, hf, h]
  cases t.find? (key r)
  case none => simp
  case some r' =>
    by_cases hp : p r'
    case pos =>
      simp only [Option.bind_some, hp, if_true, Option.some_inj]
      exact ⟨nofun, fun h => absurd (h.left ▸ hp) h.right⟩
    case neg =>
      simp only [Option.bind_some, if_neg hp, Option.some_inj]
      exact ⟨fun h => ⟨h, h ▸ hp⟩, And.left⟩

-- What has been replaced could be replaced.
theorem Table.admits_of_find? (hg : ∀ r, key (g r) = key r)
    (h : ∀ k, t'.find? k = (t.find? k).bind fun r => if p r then some (g r) else some r) :
    t.Admits p g := by
  intro r hr hp r' hr' hn
  have hm : g r ∈ t' := (mem_of_find?_bind h).mpr ⟨r, hr, (if_pos hp).symm⟩
  have hm' : (if p r' then g r' else r') ∈ t' := (mem_of_find?_bind h).mpr ⟨r', hr', rfl⟩
  refine conflict?_eq_none.mpr fun ix hi hc => hn ?_
  have he := congrArg key (Table.eq_of_clash hi hm hm' hc)
  split_ifs at he
  · exact (hg r').symm.trans <| he.symm.trans (hg r)
  · exact he.symm.trans (hg r)

-- No row on the way clashes, as long as each row that is replaced avoids the rows which remain to be
-- replaced if it avoids what they are replaced by.
theorem Program.BulkProgress.clash?_eq_none (h : BulkProgress t p (some ∘ g) (b :: bs) t')
    (hg : ∀ r, key (g r) = key r) (ha : t.Admits p g)
    (hn : ∀ r ∈ t, ∀ r' ∈ t, p r → p r' → key r' ≠ key r → conflict? (g r) (g r') = none →
      conflict? (g r) r' = none) : t'.clash? (g b) = none := by
  obtain ⟨hb, hp⟩ := h.found b (.head _)
  have hbt := (Table.find?_eq_some.mp hb).left
  refine Table.clash?_eq_none.mpr fun r hr hne => ?_
  rw [hg] at hne
  have hf := (h.find? (key r)).symm.trans <| Table.find?_key hr
  split_ifs at hf with hbs
  case pos =>
    obtain ⟨b', hb', hk⟩ := hbs
    have hr' := (Table.find?_eq_some.mp hf).left
    have hp' : p r := by
      obtain ⟨hf', hp'⟩ := h.found b' hb'
      exact Option.some.inj ((hk ▸ hf').symm.trans hf) ▸ hp'
    have hc := ha b hbt hp r hr' hne
    rw [if_pos hp'] at hc
    exact hn b hbt r hr' hp hp' hne hc
  case neg =>
    obtain ⟨r₀, hr₀, he⟩ := Option.bind_eq_some_iff.mp hf
    obtain ⟨hm₀, hk₀⟩ := Table.find?_eq_some.mp hr₀
    have hc := ha b hbt hp r₀ hm₀ (hk₀ ▸ hne)
    split_ifs at he hc with hp₀
    · exact Option.some.inj he ▸ hc
    · exact Option.some.inj he ▸ hc

end Admits

end Sql
