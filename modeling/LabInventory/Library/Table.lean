import Mathlib.Data.List.Basic
import Mathlib.Data.List.Pairwise

namespace Sql

-- A unique index of a table. Rows without an entry are outside of the index: they do not meet the
-- predicate of a partial index, or one of the indexed columns is NULL.
structure UniqueIndex (ρ C : Type) where
  name : C
  Entry : Type
  [decEq : DecidableEq Entry]
  entry : ρ → Option Entry

attribute [instance] UniqueIndex.decEq

namespace UniqueIndex

variable {ρ C : Type}

def Clash (ix : UniqueIndex ρ C) (r₁ r₂ : ρ) : Prop :=
  ix.entry r₁ ≠ none ∧ ix.entry r₁ = ix.entry r₂

instance (ix : UniqueIndex ρ C) : DecidableRel ix.Clash :=
  fun _ _ => inferInstanceAs (Decidable (_ ∧ _))

theorem Clash.symm {ix : UniqueIndex ρ C} {r₁ r₂ : ρ} (h : ix.Clash r₁ r₂) : ix.Clash r₂ r₁ :=
  ⟨h.right ▸ h.left, h.right.symm⟩

end UniqueIndex

class TableSchema (ρ : Type) (κ C : outParam Type) where
  decEq : DecidableEq κ
  key : ρ → κ
  primaryKey : C
  indexes : List (UniqueIndex ρ C)

attribute [reducible, instance] TableSchema.decEq

open TableSchema

variable {ρ κ C : Type} [TableSchema ρ κ C]

-- The first index that does not admit both rows.
def conflict? (r₁ r₂ : ρ) : Option C :=
  (indexes : List (UniqueIndex ρ C)).find? (·.Clash r₁ r₂) |>.map (·.name)

theorem conflict?_eq_none {r₁ r₂ : ρ} :
    conflict? r₁ r₂ = none ↔ ∀ ix ∈ (indexes : List (UniqueIndex ρ C)), ¬ix.Clash r₁ r₂ := by
  simp [conflict?]

theorem conflict?_eq_none_symm {r₁ r₂ : ρ} (h : conflict? r₁ r₂ = none) :
    conflict? r₂ r₁ = none :=
  conflict?_eq_none.mpr fun ix hi hc => conflict?_eq_none.mp h ix hi hc.symm

-- The contents of a table: different rows have different keys and respect all unique indexes.
structure Table (ρ : Type) {κ C : Type} [TableSchema ρ κ C] where
  rows : List ρ
  keyed : rows.Pairwise (key · ≠ key ·)
  indexed : rows.Pairwise (conflict? · · = none)

namespace Table

variable {t t₁ t₂ : Table ρ} {r r₁ r₂ : ρ} {k : κ} {c : C} {p : ρ → Bool}

instance : Membership ρ (Table ρ) where
  mem t r := r ∈ t.rows

instance : EmptyCollection (Table ρ) where
  emptyCollection := ⟨[], .nil, .nil⟩

instance : Singleton ρ (Table ρ) where
  singleton r := ⟨[r], List.pairwise_singleton .., List.pairwise_singleton ..⟩

theorem mem_def : r ∈ t ↔ r ∈ t.rows :=
  Iff.rfl

@[ext]
theorem ext (h : t₁.rows = t₂.rows) : t₁ = t₂ := by
  cases t₁; cases t₂; simp_all

instance [DecidableEq ρ] : DecidableEq (Table ρ) := fun t₁ t₂ =>
  decidable_of_iff (t₁.rows = t₂.rows) ⟨ext, (· ▸ rfl)⟩

@[simp]
theorem not_mem_empty : r ∉ (∅ : Table ρ) :=
  List.not_mem_nil

@[simp]
theorem mem_singleton : r₁ ∈ ({r} : Table ρ) ↔ r₁ = r :=
  List.mem_singleton

theorem eq_of_key_eq (h₁ : r₁ ∈ t) (h₂ : r₂ ∈ t) (h : key r₁ = key r₂) : r₁ = r₂ := by
  by_contra hn
  have : Std.Symm (fun a b : ρ => key a ≠ key b) := ⟨fun _ _ => Ne.symm⟩
  exact t.keyed.forall h₁ h₂ hn h

theorem eq_of_clash {ix : UniqueIndex ρ C} (hi : ix ∈ indexes) (h₁ : r₁ ∈ t) (h₂ : r₂ ∈ t)
    (h : ix.Clash r₁ r₂) : r₁ = r₂ := by
  by_contra hn
  have : Std.Symm (fun a b : ρ => conflict? a b = none) := ⟨fun _ _ => conflict?_eq_none_symm⟩
  exact conflict?_eq_none.mp (t.indexed.forall h₁ h₂ hn) ix hi h

def find? (t : Table ρ) (k : κ) : Option ρ :=
  t.rows.find? (key · = k)

theorem find?_eq_some : t.find? k = some r ↔ r ∈ t ∧ key r = k := by
  constructor
  case mp =>
    intro h
    exact ⟨List.mem_of_find?_eq_some h, by simpa using List.find?_some h⟩
  case mpr =>
    rintro ⟨hm, hk⟩
    cases h : t.find? k
    case none =>
      have := List.find?_eq_none.mp h r hm
      simp [hk] at this
    case some r' =>
      have hk' : key r' = k := by simpa using List.find?_some h
      rw [eq_of_key_eq (List.mem_of_find?_eq_some h) hm (hk'.trans hk.symm)]

theorem find?_eq_none : t.find? k = none ↔ ∀ r ∈ t, key r ≠ k := by
  simp [find?, mem_def]

theorem find?_key (h : r ∈ t) : t.find? (key r) = some r :=
  find?_eq_some.mpr ⟨h, rfl⟩

-- The rows of a table that have the key of `r` are disregarded: `r` is about to replace them.
def clash? (t : Table ρ) (r : ρ) : Option C :=
  t.rows.findSome? fun r' => if key r' = key r then none else conflict? r r'

theorem clash?_eq_none :
    t.clash? r = none ↔ ∀ r' ∈ t, key r' ≠ key r → conflict? r r' = none := by
  simp [clash?, mem_def]

def insert (t : Table ρ) (r : ρ) : Except C (Table ρ) :=
  if hk : ∃ r' ∈ t.rows, key r' = key r then
    .error (primaryKey ρ)
  else
    match hc : t.clash? r with
    | some c => .error c
    | none => .ok {
      rows := t.rows ++ [r]
      keyed := by
        simp only [List.pairwise_append, List.mem_singleton, forall_eq]
        exact ⟨t.keyed, List.pairwise_singleton .., fun r' hr' he => hk ⟨r', hr', he⟩⟩
      indexed := by
        simp only [List.pairwise_append, List.mem_singleton, forall_eq]
        refine ⟨t.indexed, List.pairwise_singleton .., fun r' hr' => conflict?_eq_none_symm ?_⟩
        exact clash?_eq_none.mp hc r' hr' fun he => hk ⟨r', hr', he⟩
    }

-- A row whose indexed columns are those of the row it replaces.
theorem clash?_of_entries (hr : r₁ ∈ t) (hk : key r₁ = key r)
    (he : ∀ ix ∈ (indexes : List (UniqueIndex ρ C)), ix.entry r = ix.entry r₁) :
    t.clash? r = none := by
  refine clash?_eq_none.mpr fun r' hr' hn => conflict?_eq_none.mpr fun ix hi hc => hn ?_
  rw [UniqueIndex.Clash, he ix hi] at hc
  exact congrArg key (eq_of_clash hi hr' hr <| UniqueIndex.Clash.symm hc) |>.trans hk

theorem insert_eq_ok : t.insert r = .ok t₁ ↔
    (∀ r' ∈ t, key r' ≠ key r) ∧ t.clash? r = none ∧ t₁.rows = t.rows ++ [r] := by
  unfold insert
  split
  case isTrue h => simp [mem_def]; grind
  case isFalse h =>
    split
    case h_1 hc => simp [hc]
    case h_2 hc =>
      simp only [Except.ok.injEq, Table.ext_iff, hc]
      push Not at h
      exact ⟨fun he => ⟨h, trivial, he ▸ rfl⟩, fun he => he.right.right.symm⟩

theorem exists_insert (hk : ∀ r' ∈ t, key r' ≠ key r) (hc : t.clash? r = none) :
    ∃ t₁, t.insert r = .ok t₁ := by
  unfold insert
  split
  case isTrue h =>
    obtain ⟨r', hr, he⟩ := h
    exact absurd he (hk r' hr)
  case isFalse =>
    split
    case h_1 h => simp [hc] at h
    case h_2 => exact ⟨_, rfl⟩

theorem insert_eq_error (hk : ∀ r' ∈ t, key r' ≠ key r) (hc : t.clash? r = some c) :
    t.insert r = .error c := by
  unfold insert
  split
  case isTrue h =>
    obtain ⟨r', hr, he⟩ := h
    exact absurd he (hk r' hr)
  case isFalse =>
    split
    case h_1 h => rw [Option.some.inj <| hc.symm.trans h]
    case h_2 h => exact nomatch hc.symm.trans h

def update (t : Table ρ) (r : ρ) : Except C (Table ρ) :=
  match hc : t.clash? r with
  | some c => .error c
  | none => .ok {
    rows := t.rows.map fun r' => if key r' = key r then r else r'
    keyed := by
      refine List.pairwise_map.mpr <| t.keyed.imp fun h => ?_
      split <;> split <;> simp_all [eq_comm]
    indexed := by
      have hn := clash?_eq_none.mp hc
      refine List.pairwise_map.mpr ?_
      have h := t.indexed.and t.keyed
      refine h.imp_of_mem fun {a b} ha hb ⟨hi, hk⟩ => ?_
      split <;> split <;> simp_all
      · exact hn b hb ‹_›
      · exact conflict?_eq_none_symm <| hn a ha ‹_›
  }

theorem update_eq_ok : t.update r = .ok t₁ ↔
    t.clash? r = none ∧ t₁.rows = t.rows.map fun r' => if key r' = key r then r else r' := by
  unfold update
  split
  case h_1 hc => simp [hc]
  case h_2 hc =>
    simp only [Except.ok.injEq, Table.ext_iff, hc, true_and]
    exact eq_comm

theorem exists_update (hc : t.clash? r = none) : ∃ t₁, t.update r = .ok t₁ := by
  unfold update
  split
  case h_1 h => simp [hc] at h
  case h_2 => exact ⟨_, rfl⟩

def filter (t : Table ρ) (p : ρ → Bool) : Table ρ where
  rows := t.rows.filter p
  keyed := t.keyed.filter _
  indexed := t.indexed.filter _

@[simp]
theorem mem_filter : r ∈ t.filter p ↔ r ∈ t ∧ p r :=
  List.mem_filter

@[simp]
theorem filter_true : t.filter (fun _ => true) = t :=
  ext <| List.filter_eq_self.mpr fun _ _ => rfl

theorem filter_filter {q : ρ → Bool} : (t.filter p).filter q = t.filter fun r => p r && q r :=
  ext <| by simp [filter, List.filter_filter, Bool.and_comm]

def delete (t : Table ρ) (k : κ) : Table ρ :=
  t.filter (key · ≠ k)

-- Changes all rows at once, in columns that no index depends on.
def modify (t : Table ρ) (f : ρ → ρ)
    (h : ∀ r, key (f r) = key r ∧ ∀ ix ∈ (indexes : List (UniqueIndex ρ C)),
      ix.entry (f r) = ix.entry r) : Table ρ where
  rows := t.rows.map f
  keyed := List.pairwise_map.mpr <| t.keyed.imp fun hk => by simpa [(h _).left] using hk
  indexed := by
    refine List.pairwise_map.mpr <| t.indexed.imp fun hc => conflict?_eq_none.mpr fun ix hi => ?_
    have hn := conflict?_eq_none.mp hc ix hi
    simpa [UniqueIndex.Clash, (h _).right ix hi] using hn

@[simp]
theorem mem_modify {f h} : r ∈ t.modify f h ↔ ∃ r' ∈ t, f r' = r :=
  List.mem_map

@[simp]
theorem mem_delete : r ∈ t.delete k ↔ r ∈ t ∧ key r ≠ k := by
  simp [delete]

theorem mem_insert (h : t.insert r = .ok t₁) : r₁ ∈ t₁ ↔ r₁ ∈ t ∨ r₁ = r := by
  simp [mem_def, (insert_eq_ok.mp h).right.right]

theorem mem_update (h : t.update r = .ok t₁) :
    r₁ ∈ t₁ ↔ (r₁ ∈ t ∧ key r₁ ≠ key r) ∨ (r₁ = r ∧ ∃ r₂ ∈ t, key r₂ = key r) := by
  simp only [mem_def, (update_eq_ok.mp h).right, List.mem_map]
  grind

theorem find?_insert (h : t.insert r = .ok t₁) :
    t₁.find? k = if key r = k then some r else t.find? k := by
  have ⟨hk, _, he⟩ := insert_eq_ok.mp h
  simp only [find?, he, List.find?_append]
  split
  case isTrue hr =>
    have : t.rows.find? (key · = k) = none := by
      simpa [mem_def, hr] using hk
    simp [this, hr]
  case isFalse hr => simp [hr]

theorem find?_update (h : t.update r = .ok t₁) :
    t₁.find? k = if key r = k then (t.find? k).map fun _ => r else t.find? k := by
  ext r'
  rw [find?_eq_some, mem_update h]
  split
  case isTrue hk =>
    subst hk
    simp only [Option.map_eq_some_iff, find?_eq_some]
    grind
  case isFalse hk =>
    rw [find?_eq_some]
    grind

theorem find?_delete {k'} : (t.delete k').find? k = if k = k' then none else t.find? k := by
  ext r'
  rw [find?_eq_some, mem_delete]
  split
  case isTrue hk => grind
  case isFalse hk =>
    rw [find?_eq_some]
    grind

theorem find?_insert_self (h : t.insert r = .ok t₁) : t₁.find? (key r) = some r :=
  (find?_insert h).trans <| if_pos rfl

theorem find?_of_insert (h : t.insert r = .ok t₁) : t.find? (key r) = none :=
  find?_eq_none.mpr (insert_eq_ok.mp h).left

theorem find?_update_self (h : t.update r = .ok t₁) (hr : t.find? (key r) = some r₁) :
    t₁.find? (key r) = some r := by
  simp [find?_update h, hr]

theorem find?_update_of_mem (h : t.update r = .ok t₁) (hr : r₁ ∈ t) (hk : key r₁ = key r) :
    t₁.find? k = if key r = k then some r else t.find? k := by
  rw [find?_update h]
  split
  case isTrue he => rw [← he, ← hk, find?_key hr, Option.map_some]
  case isFalse => rfl

theorem find?_delete_self : (t.delete k).find? k = none :=
  find?_delete.trans <| if_pos rfl

end Table

-- The ways in which a statement changes a single row.
inductive RowWrite (ρ κ : Type)
  | insert (r : ρ)
  | update (r : ρ)
  | delete (k : κ)

def RowWrite.key : RowWrite ρ κ → κ
  | insert r | update r => TableSchema.key r
  | delete k => k

namespace Table

variable {t t₁ : Table ρ} {r r₁ : ρ} {k : κ}

def write (t : Table ρ) : RowWrite ρ κ → Except C (Table ρ)
  | .insert r => t.insert r
  | .update r => t.update r
  | .delete k => .ok (t.delete k)

-- A row of a written table is an old one, or the one that was written.
theorem mem_write {w : RowWrite ρ κ} (h : t.write w = .ok t₁) (hr : r ∈ t₁) :
    r ∈ t ∨ w = .insert r ∨ w = .update r := by
  cases w
  case insert => exact (mem_insert h |>.mp hr).imp_right fun he => .inl (by rw [he])
  case update =>
    rcases mem_update h |>.mp hr with hr | hr
    case inl => exact .inl hr.left
    case inr => exact .inr <| .inr (by rw [hr.left])
  case delete =>
    obtain rfl := Except.ok.inj h
    exact .inl (mem_delete.mp hr).left

theorem find?_write_of_ne {w : RowWrite ρ κ} (h : t.write w = .ok t₁) (hn : w.key ≠ k) :
    t₁.find? k = t.find? k := by
  cases w
  case insert => exact (find?_insert h).trans <| if_neg hn
  case update => exact (find?_update h).trans <| if_neg hn
  case delete =>
    obtain rfl := Except.ok.inj h
    exact find?_delete.trans <| if_neg hn.symm

end Table

end Sql
