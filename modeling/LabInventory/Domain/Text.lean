import Mathlib.Data.List.Basic
import Mathlib.Data.List.DropRight

namespace LabInventory

-- 128-bit identifiers, as generated by `Uuid::new_v4`.
abbrev Uuid := BitVec 128

instance : LawfulBEq Uuid :=
  inferInstance

namespace Text

-- The code points with the Unicode property `White_Space`.
def isWhitespace (c : Char) : Bool :=
  (0x9 ≤ c.toNat ∧ c.toNat ≤ 0xD) || c.toNat = 0x20 || c.toNat = 0x85 || c.toNat = 0xA0 ||
  c.toNat = 0x1680 || (0x2000 ≤ c.toNat ∧ c.toNat ≤ 0x200A) || c.toNat = 0x2028 ||
  c.toNat = 0x2029 || c.toNat = 0x202F || c.toNat = 0x205F || c.toNat = 0x3000

def trimMatches (p : Char → Bool) (s : String) : String :=
  .ofList <| (s.toList.dropWhile p).rdropWhile p

-- `str::trim`
def trim (s : String) : String :=
  trimMatches isWhitespace s

-- The SQL function `btrim`, which only removes spaces.
def btrim (s : String) : String :=
  trimMatches (· = ' ') s

-- `str::strip_prefix`
def stripPrefix (s start : String) : Option String :=
  (start.toList.isPrefixOf? s.toList).map .ofList

theorem isPrefixOf?_eq_some {l₁ l₂ l : List Char} : l₁.isPrefixOf? l₂ = some l ↔ l₂ = l₁ ++ l := by
  induction l₁ generalizing l₂
  case nil => simp [List.isPrefixOf?, eq_comm]
  case cons c l₁ ih =>
    cases l₂
    case nil => simp [List.isPrefixOf?]
    case cons c' l₂ =>
      by_cases hc : c = c'
      case pos => simp [List.isPrefixOf?, hc, ih]
      case neg => simp [List.isPrefixOf?, hc, Ne.symm hc]

theorem stripPrefix_eq_some {s start t : String} : stripPrefix s start = some t ↔ s = start ++ t := by
  simp only [stripPrefix, Option.map_eq_some_iff, isPrefixOf?_eq_some, ← String.toList_inj,
    String.toList_append]
  constructor
  case mp => exact fun ⟨l, hl, ht⟩ => by rw [hl, ← ht, String.toList_ofList]
  case mpr => exact fun h => ⟨t.toList, h, String.toList_ofList⟩

variable {p q : Char → Bool} {s : String}

theorem toList_trimMatches :
    (trimMatches p s).toList = (s.toList.dropWhile p).rdropWhile p :=
  String.toList_ofList

theorem trimMatches_eq_empty : trimMatches p s = "" ↔ ∀ c ∈ s.toList, p c := by
  rw [← String.toList_inj, toList_trimMatches, String.toList_empty, List.rdropWhile_eq_nil_iff]
  refine Iff.trans ?_ List.dropWhile_eq_nil_iff
  constructor
  case mp =>
    intro h
    by_contra hn
    have hl := List.length_pos_iff.mpr hn
    exact List.dropWhile_get_zero_not p _ hl <| h _ <| List.getElem_mem hl
  case mpr => exact fun h => by simp [h]

theorem trimMatches_idempotent : trimMatches p (trimMatches p s) = trimMatches p s := by
  refine String.ext ?_
  rw [toList_trimMatches, toList_trimMatches]
  have hd : ((s.toList.dropWhile p).rdropWhile p).dropWhile p =
      (s.toList.dropWhile p).rdropWhile p := by
    refine List.dropWhile_eq_self_iff.mpr fun hl => ?_
    have hp := List.rdropWhile_prefix p (l := s.toList.dropWhile p)
    rw [hp.getElem hl]
    exact List.dropWhile_get_zero_not _ _ (lt_of_lt_of_le hl hp.length_le)
  rw [hd, List.rdropWhile_idempotent]

@[simp]
theorem trim_idempotent : trim (trim s) = trim s :=
  trimMatches_idempotent

theorem trim_eq_self (h : ∀ c ∈ s.toList, ¬isWhitespace c) : trim s = s := by
  have hd : s.toList.dropWhile isWhitespace = s.toList :=
    List.dropWhile_eq_self_iff.mpr fun hl => h _ (List.getElem_mem hl)
  have hr : s.toList.rdropWhile isWhitespace = s.toList :=
    List.rdropWhile_eq_self_iff.mpr fun hn => h _ (List.getLast_mem hn)
  rw [trim, trimMatches, hd, hr, String.ofList_toList]

theorem mem_of_mem_trim {c : Char} (h : c ∈ (trim s).toList) : c ∈ s.toList := by
  rw [trim, toList_trimMatches] at h
  exact List.dropWhile_subset _ <| (List.rdropWhile_prefix _ _).subset h

theorem utf8ByteSize_ofList {cs : List Char} (h : ∀ c ∈ cs, c.utf8Size = 1) :
    (String.ofList cs).utf8ByteSize = cs.length := by
  induction cs
  case nil => rfl
  case cons c cs ih =>
    have hc := h c List.mem_cons_self
    have hcs := ih fun c hc => h c (List.mem_cons_of_mem _ hc)
    rw [String.ofList_cons, String.utf8ByteSize_append, String.utf8ByteSize_singleton, hc, hcs,
      List.length_cons, Nat.add_comm]

theorem isAlphanum_iff {c : Char} : c.isAlphanum ↔ (65 ≤ c.toNat ∧ c.toNat ≤ 90) ∨
    (97 ≤ c.toNat ∧ c.toNat ≤ 122) ∨ (48 ≤ c.toNat ∧ c.toNat ≤ 57) := by
  change (decide (c.val ≥ 65 ∧ c.val ≤ 90) || (decide (c.val ≥ 97) && decide (c.val ≤ 122)) ||
    c.isDigit) = true ↔ _
  simp only [Bool.or_eq_true, Bool.and_eq_true, decide_eq_true_eq, ge_iff_le,
    UInt32.le_iff_toNat_le, Char.isDigit_iff_toNat, or_assoc]
  rfl

theorem mem_of_mem_intercalate {texts : List (List Char)} {c sep : Char}
    (h : c ∈ [sep].intercalate texts) (hc : c ≠ sep) : ∃ text ∈ texts, c ∈ text := by
  induction texts
  case nil => exact nomatch h
  case cons text texts ih =>
    by_cases hn : texts = []
    case pos =>
      rw [hn, List.intercalate_singleton] at h
      exact ⟨text, List.mem_cons_self, h⟩
    case neg =>
      rw [List.intercalate_cons_of_ne_nil hn, List.mem_append, List.mem_append, List.mem_singleton] at h
      obtain (h | rfl) | h := h
      case inl.inl => exact ⟨text, List.mem_cons_self, h⟩
      case inl.inr => exact absurd rfl hc
      case inr =>
        obtain ⟨text', hm, hct⟩ := ih h
        exact ⟨text', List.mem_cons_of_mem _ hm, hct⟩

-- Text that is not blank for `trim` is not blank for `btrim` either.
theorem btrim_ne_empty (h : trim s ≠ "") : btrim s ≠ "" := by
  refine fun hb => h <| trimMatches_eq_empty.mpr fun c hc => ?_
  have : c = ' ' := by simpa using trimMatches_eq_empty.mp hb c hc
  exact this ▸ (by decide)

end Text

open Text

def normalizeOptionalText (value : Option String) : Option String :=
  (value.map trim).filter (· ≠ "")

-- Text as it is stored: either absent, or trimmed and not empty.
def Normalized (value : Option String) : Prop :=
  ∀ s ∈ value, trim s = s ∧ s ≠ ""

theorem normalized_normalizeOptionalText {value} : Normalized (normalizeOptionalText value) := by
  simp only [Normalized, normalizeOptionalText, Option.mem_def, Option.filter_eq_some_iff,
    Option.map_eq_some_iff]
  rintro s ⟨⟨s', _, rfl⟩, hs⟩
  exact ⟨trim_idempotent, by simpa using hs⟩

theorem Normalized.eq {value} (h : Normalized value) : normalizeOptionalText value = value := by
  cases value
  case none => rfl
  case some s => have := h s rfl; simp [normalizeOptionalText, Option.filter, this]

theorem Normalized.getD_inj {value value'} (h : Normalized value) (h' : Normalized value')
    (he : value.getD "" = value'.getD "") : value = value' := by
  cases value <;> cases value'
  case none.none => rfl
  case none.some s => exact absurd he.symm (h' s rfl).right
  case some.none s => exact absurd he (h s rfl).right
  case some.some s s' => exact congrArg some he

theorem Normalized.btrim_ne_empty {value} (h : Normalized value) : ∀ s ∈ value, btrim s ≠ "" :=
  fun s hs => Text.btrim_ne_empty <| (h s hs).left.symm ▸ (h s hs).right

inductive NullableUpdate (α : Type)
  | unchanged
  | set (value : α)
  | clear
deriving DecidableEq

namespace NullableUpdate

variable {α β : Type}

def resolve (u : NullableUpdate α) (current : Option α) : Option α :=
  match u with
  | unchanged => current
  | set value => some value
  | clear => none

def ofOption : Option (Option α) → NullableUpdate α
  | some (some value) => set value
  | some none => clear
  | none => unchanged

def parse (value : Option (Option β)) (parse : β → Except String α) :
    Except String (NullableUpdate α) :=
  match value with
  | some (some value) => (parse value).map set
  | some none => .ok clear
  | none => .ok unchanged

end NullableUpdate

def nullableText (value : Option (Option String)) : NullableUpdate String :=
  match value with
  | some (some value) =>
    match normalizeOptionalText (some value) with
    | some value => .set value
    | none => .clear
  | some none => .clear
  | none => .unchanged

theorem normalized_resolve_nullableText {value current} (h : Normalized current) :
    Normalized ((nullableText value).resolve current) := by
  match value with
  | none => exact h
  | some none => simp [nullableText, NullableUpdate.resolve, Normalized]
  | some (some s) =>
    have hn : Normalized (normalizeOptionalText (some s)) := normalized_normalizeOptionalText
    simp only [nullableText]
    split
    case h_1 he => rwa [he] at hn
    case h_2 => simp [NullableUpdate.resolve, Normalized]

-- The number of extended grapheme clusters of a text, as counted by `unicode_segmentation`.
class UnicodeSegmentation where
  graphemes : String → Nat

-- Texts without combining characters have one grapheme cluster for each character.
@[reducible]
def UnicodeSegmentation.characters : UnicodeSegmentation where
  graphemes := String.length

end LabInventory
