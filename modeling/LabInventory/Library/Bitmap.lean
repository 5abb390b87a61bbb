import Mathlib.Data.List.Basic
import Mathlib.Data.Nat.Bitwise
import Mathlib.Tactic.IntervalCases

-- Rows of dots, with the leftmost one in the highest bit of the first byte.
namespace Bitmap

def mask (k : Nat) : UInt8 :=
  (0x80 : UInt8) >>> UInt8.ofNat k

def dot (row : List UInt8) (x : Nat) : Bool :=
  row[x / 8]?.any fun b => b &&& mask (x % 8) ≠ 0

def paint (row : List UInt8) (x : Nat) : List UInt8 :=
  row.modify (x / 8) (· ||| mask (x % 8))

variable {row : List UInt8} {k l n x y : Nat} {b : UInt8}

theorem toNat_mask (h : k < 8) : (mask k).toNat = 2 ^ (7 - k) := by
  interval_cases k <;> rfl

theorem and_mask_ne_zero (h : k < 8) : b &&& mask k ≠ 0 ↔ b.toNat.testBit (7 - k) := by
  rw [ne_eq, ← UInt8.toNat_inj, UInt8.toNat_and, toNat_mask h, Nat.and_two_pow]
  cases b.toNat.testBit (7 - k) <;> simp

theorem or_mask_and_mask_ne_zero (hk : k < 8) (hl : l < 8) :
    (b ||| mask k) &&& mask l ≠ 0 ↔ b &&& mask l ≠ 0 ∨ k = l := by
  rw [and_mask_ne_zero hl, and_mask_ne_zero hl, UInt8.toNat_or, toNat_mask hk, Nat.testBit_or,
    Nat.testBit_two_pow, Bool.or_eq_true, decide_eq_true_eq]
  refine or_congr_right ?_
  omega

@[simp]
theorem length_paint : (paint row x).length = row.length :=
  List.length_modify _ _ _

theorem dot_paint (h : x / 8 < row.length) : dot (paint row x) y ↔ dot row y ∨ x = y := by
  have hx : x % 8 < 8 := Nat.mod_lt _ (by decide)
  have hy : y % 8 < 8 := Nat.mod_lt _ (by decide)
  unfold dot paint
  rw [List.getElem?_modify]
  by_cases hd : x / 8 = y / 8
  case pos =>
    have he : x = y ↔ x % 8 = y % 8 := by omega
    obtain ⟨b, hb⟩ : ∃ b, row[y / 8]? = some b := ⟨_, List.getElem?_eq_getElem (hd ▸ h)⟩
    rw [he, hb]
    simpa [hd] using or_mask_and_mask_ne_zero hx hy
  case neg =>
    have he : x ≠ y := by
      rintro rfl
      exact hd rfl
    simp [hd, he]

theorem dot_replicate_zero : dot (.replicate n 0) x = false := by
  unfold dot
  by_cases h : x / 8 < n <;> simp [h]

theorem dot_drop : dot (row.drop n) x = dot row (8 * n + x) := by
  have hd : (8 * n + x) / 8 = n + x / 8 := by omega
  have hm : (8 * n + x) % 8 = x % 8 := by omega
  rw [dot, dot, hd, hm, List.getElem?_drop]

theorem dot_take (h : x < 8 * n) : dot (row.take n) x = dot row x := by
  have hd : x / 8 < n := by omega
  rw [dot, dot, List.getElem?_take_of_lt hd]

-- Painting in a loop, where each step adds its marks.
theorem dot_foldl {α : Type} {step : List UInt8 → α → List UInt8} {marks : α → Nat → Prop}
    {as : List α} (hs : ∀ row a, a ∈ as → row.length = n →
      (step row a).length = n ∧ ∀ y, dot (step row a) y ↔ dot row y ∨ marks a y)
    (hl : row.length = n) :
    (as.foldl step row).length = n ∧
      ∀ y, dot (as.foldl step row) y ↔ dot row y ∨ ∃ a ∈ as, marks a y := by
  induction as generalizing row
  case nil => exact ⟨hl, fun y => by simp⟩
  case cons a as ih =>
    obtain ⟨hl', hd⟩ := hs row a List.mem_cons_self hl
    obtain ⟨hl', hds⟩ := ih (fun row b hb => hs row b (List.mem_cons_of_mem _ hb)) hl'
    refine ⟨hl', fun y => ?_⟩
    rw [List.foldl_cons, hds, hd, or_assoc, List.exists_mem_cons_iff]

end Bitmap
