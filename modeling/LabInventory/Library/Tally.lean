import Mathlib.Algebra.BigOperators.Group.List.Basic
import LabInventory.Library.Table

namespace Sql

namespace Table

open TableSchema

variable {ρ κ C M : Type} [TableSchema ρ κ C] {t t₁ : Table ρ} {r r₀ : ρ}

theorem nodup : t.rows.Nodup :=
  t.keyed.imp fun h he => h (congrArg key he)

theorem perm_iff {rows : List ρ} (h : rows.Nodup) :
    t.rows.Perm rows ↔ ∀ r, r ∈ t ↔ r ∈ rows :=
  List.perm_ext_iff_of_nodup nodup h

theorem perm_cons_delete (h : ∀ r', r' ∈ t₁ ↔ r' = r ∨ r' ∈ t.delete (key r)) :
    t₁.rows.Perm (r :: (t.delete (key r)).rows) := by
  refine (perm_iff (List.nodup_cons.mpr ⟨fun hr => ?_, nodup⟩)).mpr fun r' => ?_
  case refine_1 => exact (mem_delete.mp hr).right rfl
  case refine_2 => exact (h r').trans List.mem_cons.symm

theorem perm_delete (h : r ∈ t) : t.rows.Perm (r :: (t.delete (key r)).rows) := by
  refine perm_cons_delete fun r' => ⟨fun hr => ?_, fun hr => ?_⟩
  case refine_1 =>
    by_cases hk : key r' = key r
    case pos => exact .inl (eq_of_key_eq hr h hk)
    case neg => exact .inr (mem_delete.mpr ⟨hr, hk⟩)
  case refine_2 => exact hr.elim (fun he => he ▸ h) fun hr => (mem_delete.mp hr).left

theorem perm_update (h : t.update r = .ok t₁) (hm : r₀ ∈ t) (hk : key r₀ = key r) :
    t₁.rows.Perm (r :: (t.delete (key r)).rows) := by
  refine perm_cons_delete fun r' => (mem_update h).trans ?_
  rw [mem_delete]
  constructor
  case mp => exact fun hr => hr.elim .inr fun hr => .inl hr.left
  case mpr => exact fun hr => hr.elim (fun he => .inr ⟨he, r₀, hm, hk⟩) .inl

-- What the rows of a table amount to.
def tally [AddCommMonoid M] (t : Table ρ) (g : ρ → M) : M :=
  (t.rows.map g).sum

variable [AddCommMonoid M] {g : ρ → M}

theorem tally_delete (h : r ∈ t) : t.tally g = g r + (t.delete (key r)).tally g := by
  rw [tally, ((perm_delete h).map g).sum_eq, List.map_cons, List.sum_cons, tally]

theorem tally_update (h : t.update r = .ok t₁) (hm : r₀ ∈ t) (hk : key r₀ = key r) :
    t₁.tally g + g r₀ = t.tally g + g r := by
  have h₁ : t₁.tally g = g r + (t.delete (key r)).tally g := by
    rw [tally, ((perm_update h hm hk).map g).sum_eq, List.map_cons, List.sum_cons, tally]
  rw [h₁, tally_delete hm, hk, add_right_comm, add_comm (g r), add_right_comm]

theorem tally_insert (h : t.insert r = .ok t₁) : t₁.tally g = t.tally g + g r := by
  simp [tally, (insert_eq_ok.mp h).right.right]

end Table

end Sql
