import LabInventory.Library.LikePattern
import LabInventory.Shared.ParameterFilters

open Sql

namespace LabInventory

open Text

-- How the collation of the database folds cases.
class CaseFolding where
  lower : Char → Char
  lower_lower {c} : lower (lower c) = lower c
  lower_meta {c} : LikePattern.isMeta c → lower c = c
  isMeta_lower {c} : LikePattern.isMeta (lower c) = LikePattern.isMeta c

section Definitions

variable [CaseFolding]

def folded (s : String) : List Char :=
  s.toList.map CaseFolding.lower

-- `ILIKE`, which may be an error: the pattern is a text that is bound.
def ilike (value pattern : String) : Option Bool := do
  guard (StorableText pattern)
  return LikePattern.isMatch (← LikePattern.parse (folded pattern)) (folded value)

instance : PatternMatching where
  ilike value pattern := (ilike value pattern).getD false

def Contains (value keyword : String) : Prop :=
  folded keyword <:+: folded value

end Definitions

-- The condition on a keyword, if there is one. A missing text is an empty one.
def keywordFilter [PatternMatching] (fields : List (Option String)) (keyword : Option String) : Bool :=
  (normalizeOptionalText keyword).all fun keyword =>
    fields.any fun field => PatternMatching.ilike (field.getD "") s!"%{keyword}%"

def AssetRow.searched (r : AssetRow) (d : Database) : List (Option String) :=
  [some r.name, r.model, r.manufacturer, r.publicNotes] ++
    (d.assetInventoryItems.rows.filter (·.assetId = r.assetId)).flatMap fun item =>
      [item.serialNumber, item.batchNumber]

def InventoryItemRow.searched (r : InventoryItemRow) (asset : AssetRow) : List (Option String) :=
  [some asset.name, asset.model, asset.manufacturer, r.serialNumber, r.batchNumber, r.publicNotes,
    r.internalNotes]

namespace Assets

-- The part of `push_asset_filters` that is about the keyword.
def keywordFilter [PatternMatching] (keyword : Option String) (r : AssetRow) (d : Database) : Bool :=
  LabInventory.keywordFilter (r.searched d) keyword

end Assets

namespace InventoryItems

-- The part of `push_inventory_item_filters` that is about the keyword.
def keywordFilter [PatternMatching] (keyword : Option String) (r : InventoryItemRow)
    (asset : AssetRow) : Bool :=
  LabInventory.keywordFilter (r.searched asset) keyword

end InventoryItems

section Keywords

variable [CaseFolding]

-- Whatever is searched for is found where it is.
def TextFilterLiteral (s : String) : Prop :=
  ∀ (input : ParameterFilterInput) definition units filter, input.text = some s →
    definition.dataType = .text → ParameterFilters.normalizeFilter input definition units = .ok filter →
    ∀ columns, ParameterFilters.condition columns filter ↔
      ∃ value, columns.valueText = some value ∧ Contains value (trim s)

def AssetListLiteral (s : String) : Prop :=
  ∀ r d, Assets.keywordFilter (some s) r d ↔
    ∃ field ∈ r.searched d, Contains (field.getD "") (trim s)

def ItemListLiteral (s : String) : Prop :=
  ∀ r asset, InventoryItems.keywordFilter (some s) r asset ↔
    ∃ field ∈ r.searched asset, Contains (field.getD "") (trim s)

def IsPlain (s : String) : Prop :=
  ∀ c ∈ s.toList, ¬LikePattern.isMeta c ∧ c ≠ '\x00'

variable {s keyword value : String} {fields : List (Option String)}

theorem folded_pattern : folded s!"%{keyword}%" = '%' :: folded keyword ++ ['%'] := by
  have hm : CaseFolding.lower '%' = '%' := CaseFolding.lower_meta rfl
  simp [folded, toString, hm]

omit [CaseFolding] in
theorem storableText_pattern : StorableText s!"%{keyword}%" = StorableText keyword := by
  simp [StorableText, toString]

theorem isPlain_iff :
    IsPlain keyword ↔ (∀ c ∈ folded keyword, ¬LikePattern.isMeta c) ∧ StorableText keyword := by
  rw [storableText_iff, IsPlain]
  simp [folded, CaseFolding.isMeta_lower, forall_and]

-- The pattern of a keyword is well formed, whatever the keyword is.
theorem ilike_pattern {p : List LikePattern.Token}
    (hp : LikePattern.parse ('%' :: folded keyword ++ ['%']) = some p) :
    ilike value s!"%{keyword}%" =
      if StorableText keyword then some (LikePattern.isMatch p (folded value)) else none := by
  rw [ilike, storableText_pattern, folded_pattern, hp]
  cases StorableText keyword <;> rfl

theorem isSome_ilike : (ilike value s!"%{keyword}%").isSome ↔ StorableText keyword := by
  have hx : ¬LikePattern.isMeta 'x' := by decide
  obtain ⟨p, hp, -⟩ := LikePattern.wildcards_literal_iff (s := folded keyword) hx
  rw [ilike_pattern hp]
  split <;> simp [*]

theorem ilike_iff_contains (h : IsPlain keyword) :
    PatternMatching.ilike value s!"%{keyword}%" ↔ Contains value keyword := by
  have hx : ¬LikePattern.isMeta 'x' := by decide
  obtain ⟨hm, hs⟩ := isPlain_iff.mp h
  obtain ⟨p, hp, hc, -⟩ := LikePattern.wildcards_literal_iff (s := folded keyword) hx
  change (ilike value s!"%{keyword}%").getD false ↔ _
  rw [ilike_pattern hp, if_pos hs]
  exact hc hm (folded value)

-- Otherwise there is a text that matches and does not contain the keyword, or an error.
theorem exists_ilike_not_contains (hs : StorableText keyword) (h : ¬IsPlain keyword) :
    ∃ value, PatternMatching.ilike value s!"%{keyword}%" ∧ ¬Contains value keyword := by
  have hx : ¬LikePattern.isMeta (CaseFolding.lower 'x') := by
    rw [CaseFolding.isMeta_lower]
    decide
  obtain ⟨p, hp, -, hr, hn⟩ := LikePattern.wildcards_literal_iff (s := folded keyword) hx
  let reading := LikePattern.reading (CaseFolding.lower 'x') p
  have hfolded : folded (.ofList reading) = reading := by
    rw [folded, String.toList_ofList]
    refine (List.map_congr_left fun c hc => ?_).trans (List.map_id _)
    obtain rfl | hm := LikePattern.mem_reading hp hc
    case inl => exact CaseFolding.lower_lower
    case inr =>
      rw [← folded_pattern] at hm
      obtain ⟨c', -, rfl⟩ := List.mem_map.mp hm
      exact CaseFolding.lower_lower
  refine ⟨.ofList reading, ?_, fun hc => h <| isPlain_iff.mpr ⟨hn ?_, hs⟩⟩
  case refine_1 =>
    change (ilike (.ofList reading) s!"%{keyword}%").getD false
    rw [ilike_pattern hp, if_pos hs, hfolded]
    exact hr
  case refine_2 => rwa [Contains, hfolded] at hc

omit [CaseFolding] in
theorem keywordFilter_some [PatternMatching] (h : trim s ≠ "") : keywordFilter fields (some s) ↔
    ∃ field ∈ fields, PatternMatching.ilike (field.getD "") s!"%{trim s}%" := by
  have hn : normalizeOptionalText (some s) = some (trim s) := by
    simp [normalizeOptionalText, Option.filter, h]
  rw [keywordFilter, hn, Option.all_some, List.any_eq_true]

-- Without a keyword, everything is found.
theorem keywordFilter_plain (h : IsPlain (trim s)) (hn : fields ≠ []) :
    keywordFilter fields (some s) ↔ ∃ field ∈ fields, Contains (field.getD "") (trim s) := by
  by_cases hs : trim s = ""
  case pos =>
    have hf : keywordFilter fields (some s) := by
      simp [keywordFilter, normalizeOptionalText, hs]
    obtain ⟨field, rest, rfl⟩ := List.exists_cons_of_ne_nil hn
    refine iff_of_true hf ⟨field, List.mem_cons_self, ?_⟩
    rw [hs]
    exact List.nil_infix
  case neg =>
    rw [keywordFilter_some hs]
    exact exists_congr fun field => and_congr_right fun _ => ilike_iff_contains h

theorem keywordFilter_special (hst : StorableText (trim s)) (h : ¬IsPlain (trim s)) : ∃ value, ∀ n,
    keywordFilter (some value :: List.replicate n none) (some s) ∧
    ¬∃ field ∈ some value :: List.replicate n none, Contains (field.getD "") (trim s) := by
  have hs : trim s ≠ "" := by
    intro he
    refine h ?_
    rw [he]
    exact nofun
  obtain ⟨value, hm, hc⟩ := exists_ilike_not_contains hst h
  refine ⟨value, fun n => ⟨(keywordFilter_some hs).mpr ⟨some value, List.mem_cons_self, hm⟩, ?_⟩⟩
  rintro ⟨field, hf, hcf⟩
  obtain rfl | hf := List.mem_cons.mp hf
  case inl => exact hc hcf
  case inr =>
    obtain rfl := List.eq_of_mem_replicate hf
    have hnil : folded (trim s) = [] := List.infix_nil.mp hcf
    rw [folded, List.map_eq_nil_iff] at hnil
    exact hs (String.toList_inj.mp hnil)

theorem textFilterLiteral_iff (hst : StorableText (trim s)) :
    TextFilterLiteral s ↔ IsPlain (trim s) := by
  constructor
  case mp =>
    intro hl
    by_contra h
    have hs : trim s ≠ "" := by
      intro he
      refine h ?_
      rw [he]
      exact nofun
    obtain ⟨value, hm, hc⟩ := exists_ilike_not_contains hst h
    let input : ParameterFilterInput :=
      ⟨0, some s, none, none, none, none, none, none, none, none, none⟩
    have hn : ParameterFilters.normalizeFilter input ⟨0, .text, none, none⟩ (fun _ => none) =
        .ok (.text 0 (trim s)) := by
      simp [ParameterFilters.normalizeFilter, input, hs]
    have hv := (hl input _ _ _ rfl rfl hn { ParameterValueColumns.empty with valueText := some value }).mp hm
    obtain ⟨_, he, hcv⟩ := hv
    exact hc (Option.some.inj he ▸ hcv)
  case mpr =>
    intro h input definition units filter hi hd hn columns
    simp only [ParameterFilters.normalizeFilter, hd, hi, Except.bind_eq_ok, Except.pure_eq_ok] at hn
    obtain ⟨_, -, rfl⟩ := hn
    cases hv : columns.valueText
    case none => simp [ParameterFilters.condition, hv]
    case some value =>
      simp only [ParameterFilters.condition, hv, Option.any_some, Option.getD_some, Option.some.injEq,
        exists_eq_left']
      exact ilike_iff_contains h

theorem assetListLiteral_iff (hst : StorableText (trim s)) :
    AssetListLiteral s ↔ IsPlain (trim s) := by
  constructor
  case mp =>
    intro hl
    by_contra h
    obtain ⟨value, hv⟩ := keywordFilter_special hst h
    obtain ⟨hf, hn⟩ := hv 3
    let r : AssetRow := ⟨0, 0, none, .quantity, value, none, none, 0, none, none⟩
    exact hn ((hl r Database.empty).mp hf)
  case mpr => exact fun h r d => keywordFilter_plain h nofun

theorem itemListLiteral_iff (hst : StorableText (trim s)) :
    ItemListLiteral s ↔ IsPlain (trim s) := by
  constructor
  case mp =>
    intro hl
    by_contra h
    obtain ⟨value, hv⟩ := keywordFilter_special hst h
    obtain ⟨hf, hn⟩ := hv 6
    let asset : AssetRow := ⟨0, 0, none, .quantity, value, none, none, 0, none, none⟩
    let r : InventoryItemRow := ⟨0, 0, 0, .quantity, none, none, 0, 0, none, .available, none, none⟩
    exact hn ((hl r asset).mp hf)
  case mpr => exact fun h r asset => keywordFilter_plain h nofun

structure LiteralSearch (s : String) : Prop where
  textFilter : TextFilterLiteral s
  assetList : AssetListLiteral s
  itemList : ItemListLiteral s
  noError : ∀ value, (ilike value s!"%{trim s}%").isSome

-- Text is searched for literally iff no character of it is special to `LIKE` or cannot be bound.
theorem literalSearch_iff : LiteralSearch s ↔ IsPlain (trim s) := by
  constructor
  case mp =>
    intro h
    exact (textFilterLiteral_iff (isSome_ilike.mp (h.noError ""))).mp h.textFilter
  case mpr =>
    intro h
    obtain ⟨-, hs⟩ := isPlain_iff.mp h
    exact {
      textFilter := (textFilterLiteral_iff hs).mpr h
      assetList := (assetListLiteral_iff hs).mpr h
      itemList := (itemListLiteral_iff hs).mpr h
      noError := fun _ => isSome_ilike.mpr hs
    }

end Keywords

theorem toLower_cases (c : Char) : c.toLower = c ∨
    (97 ≤ c.toLower.toNat ∧ c.toLower.toNat ≤ 122 ∧ 65 ≤ c.toNat ∧ c.toNat ≤ 90) := by
  unfold Char.toLower
  split
  case isTrue h =>
    have h₁ : 65 ≤ c.toNat := UInt32.le_iff_toNat_le.mp h.left
    have h₂ : c.toNat ≤ 90 := UInt32.le_iff_toNat_le.mp h.right
    have hn : (c.val + ('a'.val - 'A'.val)).toNat = c.toNat + 32 := by
      rw [UInt32.toNat_add]
      change (c.toNat + 32) % 4294967296 = _
      omega
    right
    change 97 ≤ (c.val + ('a'.val - 'A'.val)).toNat ∧ (c.val + ('a'.val - 'A'.val)).toNat ≤ 122 ∧ _
    omega
  case isFalse => exact Or.inl rfl

theorem isMeta_toNat {c : Char} :
    LikePattern.isMeta c ↔ c.toNat = 37 ∨ c.toNat = 95 ∨ c.toNat = 92 := by
  simp only [LikePattern.isMeta, Bool.or_eq_true, decide_eq_true_eq, ← Char.toNat_inj, or_assoc]
  rfl

-- Only ASCII letters are folded.
@[reducible]
def asciiFolding : CaseFolding where
  lower := Char.toLower
  lower_lower {c} := by
    obtain h | ⟨h₁, h₂, -⟩ := toLower_cases c
    case inl => rw [h, h]
    case inr =>
      obtain h | ⟨-, -, h₃, h₄⟩ := toLower_cases c.toLower
      case inl => exact h
      case inr => omega
  lower_meta {c} hm := by
    obtain h | ⟨-, -, h₃, h₄⟩ := toLower_cases c
    case inl => exact h
    case inr =>
      rw [isMeta_toNat] at hm
      omega
  isMeta_lower {c} := by
    obtain h | ⟨h₁, h₂, h₃, h₄⟩ := toLower_cases c
    case inl => rw [h]
    case inr =>
      rw [Bool.eq_iff_iff, isMeta_toNat, isMeta_toNat]
      omega

-- An asset of the name `1000` is found for `100%`.
theorem not_literalSearch_percent :
    let _ := asciiFolding
    ¬LiteralSearch "100%" := by
  intro _ h
  let r : AssetRow := ⟨0, 0, none, .quantity, "1000", none, none, 0, none, none⟩
  have hf : Assets.keywordFilter (some "100%") r Database.empty := by decide +kernel
  obtain ⟨field, hm, hc⟩ := (h.assetList r Database.empty).mp hf
  have hall : (r.searched Database.empty).all fun field => !(folded (field.getD "")).contains '%' := by
    decide +kernel
  have hn := List.all_eq_true.mp hall field hm
  have hp : '%' ∈ folded (field.getD "") := hc.subset (by decide +kernel)
  simp [hp] at hn

end LabInventory
