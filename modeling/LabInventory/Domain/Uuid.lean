import Mathlib.Algebra.Order.Ring.Nat
import Mathlib.Tactic.Ring
import LabInventory.Domain.Text

namespace LabInventory

namespace Hex

def digits : List Char :=
  "0123456789abcdef".toList

def digit (n : Nat) : Char :=
  digits.getD n '0'

variable {m n x : Nat}

theorem digit_mem : digit n ∈ digits := by
  rw [digit, List.getD_eq_getElem?_getD]
  cases h : digits[n]?
  case none => decide
  case some => exact List.mem_of_getElem? h

theorem idxOf_digit (h : n < 16) : digits.idxOf (digit n) = n := by
  have hd : ∀ n < 16, digits.idxOf (digit n) = n := by decide
  exact hd n h

theorem digit_injective (hm : m < 16) (hn : n < 16) (h : digit m = digit n) : m = n := by
  rw [← idxOf_digit hm, h, idxOf_digit hn]

-- The last `n` digits of a number.
def toDigits : Nat → Nat → List Char
  | 0, _ => []
  | n + 1, x => toDigits n (x / 16) ++ [digit (x % 16)]

def ofDigits (cs : List Char) : Nat :=
  cs.foldl (fun x c => 16 * x + digits.idxOf c) 0

theorem ofDigits_toDigits : ofDigits (toDigits n x) = x % 16 ^ n := by
  induction n generalizing x
  case zero => simp [toDigits, ofDigits, Nat.mod_one]
  case succ n ih =>
    have hd := idxOf_digit (Nat.mod_lt x (show 0 < 16 by decide))
    have he : ofDigits (toDigits (n + 1) x) = 16 * ofDigits (toDigits n (x / 16)) + x % 16 := by
      simp only [ofDigits, toDigits, List.foldl_append, List.foldl_cons, List.foldl_nil, hd]
    rw [he, ih, Nat.pow_succ', Nat.mod_mul]
    ring

theorem length_toDigits : (toDigits n x).length = n := by
  induction n generalizing x
  case zero => rfl
  case succ n ih => rw [toDigits, List.length_append, ih, List.length_singleton]

theorem mem_toDigits {c : Char} (h : c ∈ toDigits n x) : c ∈ digits := by
  induction n generalizing x
  case zero => simp [toDigits] at h
  case succ n ih =>
    rcases List.mem_append.mp h with h | h
    case inl => exact ih h
    case inr => exact List.mem_singleton.mp h ▸ digit_mem

end Hex

-- How the crate `uuid` reads and prints identifiers.
class UuidFormat where
  parseUuid : String → Option Uuid
  showUuid : Uuid → String
  parseUuid_showUuid {u} : parseUuid (showUuid u) = some u
  showUuid_chars {u} : ∀ c ∈ (showUuid u).toList, c ∈ Hex.digits ∨ c = '-'

theorem UuidFormat.showUuid_injective [UuidFormat] {u v : Uuid} (h : showUuid u = showUuid v) :
    u = v := by
  have hp := congrArg parseUuid h
  simpa [parseUuid_showUuid] using hp

-- Groups of 8, 4, 4, 4 and 12 digits.
def hyphenate (cs : List Char) : List Char :=
  cs.take 8 ++ '-' :: (cs.drop 8).take 4 ++ '-' :: (cs.drop 12).take 4 ++
    '-' :: (cs.drop 16).take 4 ++ '-' :: cs.drop 20

theorem mem_hyphenate {cs : List Char} {c : Char} (h : c ∈ hyphenate cs) : c ∈ cs ∨ c = '-' := by
  have hd {m : Nat} {c : Char} (h : c ∈ cs.drop m) : c ∈ cs := List.mem_of_mem_drop h
  have ht {m n : Nat} {c : Char} (h : c ∈ (cs.drop m).take n) : c ∈ cs := hd (List.mem_of_mem_take h)
  have h₀ : c ∈ cs.take 8 → c ∈ cs := List.mem_of_mem_take
  simp only [hyphenate, List.mem_append, List.mem_cons] at h
  grind

theorem filter_hyphenate {cs : List Char} (h : '-' ∉ cs) : (hyphenate cs).filter (· ≠ '-') = cs := by
  have hf {l : List Char} (hl : ∀ c ∈ l, c ∈ cs) : l.filter (· ≠ '-') = l :=
    List.filter_eq_self.mpr fun c hc => by
      have : c ≠ '-' := fun he => h (he ▸ hl c hc)
      simpa using this
  have hs {m n : Nat} : (cs.drop m).take n ++ cs.drop (m + n) = cs.drop m := by
    rw [← List.drop_drop, List.take_append_drop]
  have he : (hyphenate cs).filter (· ≠ '-') = cs.take 8 ++ ((cs.drop 8).take 4 ++
      ((cs.drop 12).take 4 ++ ((cs.drop 16).take 4 ++ cs.drop 20))) := by
    have h₁ := hf (l := cs.take 8) fun _ => List.mem_of_mem_take
    have h₂ := hf (l := cs.drop 20) fun _ => List.mem_of_mem_drop
    have h₃ {m : Nat} := hf (l := (cs.drop m).take 4) fun _ hc =>
      List.mem_of_mem_drop (List.mem_of_mem_take hc)
    simp only [hyphenate, List.filter_append, List.filter_cons, h₁, h₂, h₃]
    simp
  rw [he, hs (m := 16), hs (m := 12), hs (m := 8), List.take_append_drop]

def showHyphenated (u : Uuid) : String :=
  .ofList <| hyphenate (Hex.toDigits 32 u.toNat)

def parseHyphenated (s : String) : Option Uuid :=
  let u : Uuid := .ofNat 128 <| Hex.ofDigits (s.toList.filter (· ≠ '-'))
  if showHyphenated u = s then some u else none

theorem parseHyphenated_showHyphenated {u : Uuid} : parseHyphenated (showHyphenated u) = some u := by
  have hm : '-' ∉ Hex.toDigits 32 u.toNat :=
    fun h => absurd (Hex.mem_toDigits h) (by decide)
  have hu : Hex.ofDigits (Hex.toDigits 32 u.toNat) = u.toNat :=
    Hex.ofDigits_toDigits.trans <| Nat.mod_eq_of_lt u.isLt
  have he : BitVec.ofNat 128 (Hex.ofDigits ((showHyphenated u).toList.filter (· ≠ '-'))) = u := by
    rw [showHyphenated, String.toList_ofList, filter_hyphenate hm, hu, BitVec.ofNat_toNat,
      BitVec.setWidth_eq]
  unfold parseHyphenated
  simp only [he, if_true]

instance hyphenated : UuidFormat where
  parseUuid := parseHyphenated
  showUuid := showHyphenated
  parseUuid_showUuid := parseHyphenated_showHyphenated
  showUuid_chars c h := by
    rcases mem_hyphenate (by simpa [showHyphenated] using h) with h | h
    case inl => exact .inl <| Hex.mem_toDigits h
    case inr => exact .inr h

end LabInventory
