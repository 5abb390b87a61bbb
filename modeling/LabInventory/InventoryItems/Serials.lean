import Mathlib.Data.List.MinMax
import LabInventory.InventoryItems.Effects
import LabInventory.InventoryItems.Updates

open Sql Program

namespace LabInventory

-- A text has no more grapheme clusters than code points.
class GraphemeClusters extends UnicodeSegmentation where
  graphemes_le {s} : graphemes s ≤ s.length

namespace InventoryItems

section Generated

variable {m n : Nat} {s : String}

def generatedSerial (n : Nat) : String :=
  s!"#{n}"

theorem toList_generatedSerial : (generatedSerial n).toList = '#' :: Nat.toDigits 10 n := by
  simp [generatedSerial, toString]

theorem ofDigits_eq_ofDigitChars {cs : List Char} :
    Nat.ofDigits 10 (cs.reverse.map fun c => c.toNat - '0'.toNat) = Nat.ofDigitChars 10 cs 0 := by
  induction cs using List.reverseRecOn
  case nil => rfl
  case append_singleton cs c ih =>
    rw [List.reverse_append, List.reverse_singleton, List.singleton_append, List.map_cons,
      Nat.ofDigits_cons, ih, Nat.ofDigitChars_append, Nat.ofDigitChars_cons, Nat.ofDigitChars_nil]
    exact Nat.add_comm _ _

theorem generatedSerial?_generatedSerial : generatedSerial? (generatedSerial n) = some n := by
  have hd : (Nat.toDigits 10 n).all Char.isDigit := List.all_eq_true.mpr fun c hc =>
    Nat.isDigit_of_mem_toDigits (by decide) (by decide) hc
  have hn : Nat.ofDigits 10 ((Nat.toDigits 10 n).reverse.map fun c => c.toNat - '0'.toNat) = n := by
    rw [ofDigits_eq_ofDigitChars, Nat.ofDigitChars_ten_toDigits]
  rw [generatedSerial?, toList_generatedSerial]
  exact (if_pos ⟨Nat.toDigits_ne_nil, hd⟩).trans (congrArg some hn)

theorem mem_generatedSerial {c : Char} (hc : c ∈ (generatedSerial n).toList) :
    c = '#' ∨ c.isDigit := by
  rw [toList_generatedSerial] at hc
  exact (List.mem_cons.mp hc).imp id (Nat.isDigit_of_mem_toDigits (by decide) (by decide))

theorem storableText_generatedSerial : StorableText (generatedSerial n) := by
  refine storableText_iff.mpr fun c hc he => ?_
  subst he
  exact absurd (mem_generatedSerial hc) (by decide)

theorem parse_generatedSerial [GraphemeClusters] (h : n < 2 ^ 64) :
    ∃ serial, InventoryItemSerialNumber.parse (generatedSerial n) = .ok serial ∧
      serial.val = generatedSerial n := by
  have htrim : Text.trim (generatedSerial n) = generatedSerial n := by
    refine Text.trim_eq_self fun c hc => ?_
    obtain rfl | hd := mem_generatedSerial hc
    case inl => decide
    case inr =>
      have hr := Char.isDigit_iff_toNat.mp hd
      have h₀ : '0'.toNat = 48 ∧ '9'.toNat = 57 := ⟨rfl, rfl⟩
      simp only [Text.isWhitespace, Bool.or_eq_true, decide_eq_true_eq]
      omega
  have hne : ¬Text.trim (generatedSerial n) = "" := by
    rw [htrim, ← String.toList_inj, toList_generatedSerial]
    exact List.cons_ne_nil _ _
  have hlength : ¬UnicodeSegmentation.graphemes (Text.trim (generatedSerial n)) > 256 := by
    have hl : (Nat.toDigits 10 n).length ≤ 20 :=
      (Nat.length_toDigits_le_iff (by decide) (by decide)).mpr (h.trans (by decide))
    have hs : (generatedSerial n).length = (Nat.toDigits 10 n).length + 1 := by
      rw [← String.length_toList, toList_generatedSerial, List.length_cons]
    have hg := GraphemeClusters.graphemes_le (s := generatedSerial n)
    rw [htrim]
    omega
  have hforbidden : (Text.trim (generatedSerial n)).toList.any
      InventoryItemSerialNumber.forbiddenCharacters.contains = false := by
    have hall : InventoryItemSerialNumber.forbiddenCharacters.all fun c => c ≠ '#' && !c.isDigit := by
      decide
    refine List.any_eq_false.mpr fun c hc hm => ?_
    rw [htrim] at hc
    have hn := List.all_eq_true.mp hall c (List.contains_iff_mem.mp hm)
    obtain rfl | hd := mem_generatedSerial hc
    case inl => exact absurd hn (by decide)
    case inr => simp [hd] at hn
  refine ⟨⟨Text.trim (generatedSerial n), Text.trim_idempotent, hne⟩, ?_, htrim⟩
  rw [InventoryItemSerialNumber.parse, dif_neg hne, if_neg]
  simp [hlength, hforbidden]

end Generated

section Insertion

variable {d : Database} {asset : AssetRow} {r : InventoryItemRow}

theorem apply_insertItem {d' : Database} :
    d.apply (.assetInventoryItems (.insert r)) = .ok d' ↔
      d.assetInventoryItems.insert r = .ok d'.assetInventoryItems ∧
      d' = { d with assetInventoryItems := d'.assetInventoryItems } :=
  apply_writeItem (by simp)

theorem storableText_normalized {values : List (Option String)}
    (h : ∀ s ∈ values.reduceOption, StorableText s) :
    ∀ s ∈ (values.map normalizeOptionalText).reduceOption, StorableText s := by
  intro s hs
  obtain ⟨value, hv, he⟩ := List.mem_map.mp <| List.reduceOption_mem_iff.mp hs
  obtain ⟨t, rfl, rfl⟩ := Option.map_eq_some_iff.mp (Option.filter_eq_some_iff.mp he).left
  exact storableText_trim (h t <| List.reduceOption_mem_iff.mpr hv)

-- An item can be inserted if its asset exists, its texts can be stored, its id is new and no index
-- has it already.
theorem wp_insertInventoryItem (ha : (d.assets.find? r.assetId).isSome)
    (ht : ∀ s ∈ r.texts, StorableText s)
    (hk : d.assetInventoryItems.find? r.inventoryItemId = none)
    (hc : d.assetInventoryItems.clash? (stored r) = none) :
    (insertInventoryItem r).wp (fun _ => True) (fun _ => False) (fun row d' =>
      row = stored r ∧ d'.assets = d.assets ∧
      d.assetInventoryItems.insert (stored r) = .ok d'.assetInventoryItems) d := by
  have hkey : ∀ r' ∈ d.assetInventoryItems, TableSchema.key r' ≠ TableSchema.key (stored r) :=
    Table.find?_eq_none.mp hk
  refine wp_bind.mpr <| wp_bind.mpr <| Transaction.wp_bindTexts.mpr
    ⟨fun _ => ?_, fun hn => hn (storableText_normalized ht)⟩
  refine wp_exec.mpr ⟨fun d' hd => ⟨trivial, ?_⟩, fun c hd => ?_⟩
  case refine_1 =>
    obtain ⟨hi, hd'⟩ := apply_insertItem.mp hd
    have hassets : d'.assets = d.assets := by rw [hd']
    have hfind : d'.assetInventoryItems.find? r.inventoryItemId = some (stored r) :=
      Table.find?_insert_self hi
    have hrow : fetchInventoryItem? d' r.inventoryItemId = some (stored r) := by
      rw [fetchInventoryItem?, hfind, Option.filter_some, if_pos]
      rw [HasAsset, hassets]
      exact ha
    simp only [rereadInventoryItem, fetchInventoryItemForUpdate]
    refine wp_bind.mpr <| wp_selectForUpdate.mpr ?_
    rw [hrow]
    exact ⟨rfl, hassets, hi⟩
  case refine_2 =>
    obtain ⟨t, ht⟩ := Table.exists_insert hkey hc
    have hok : d.apply (.assetInventoryItems (.insert (stored r))) =
        .ok { d with assetInventoryItems := t } := apply_insertItem.mpr ⟨ht, rfl⟩
    cases hd.symm.trans hok

variable {newIds : NewIds} {items : List NewInventoryItem}

def serial (item : NewInventoryItem) : Option String :=
  item.serialNumber.map (·.val)

def texts (item : NewInventoryItem) : List String :=
  [serial item, item.batchNumber, item.publicNotes, item.internalNotes].reduceOption

-- A serial number is stored as it is.
theorem stored_serialNumber {serialNumber : InventoryItemSerialNumber}
    (h : r.serialNumber = some serialNumber.val) : (stored r).serialNumber = r.serialNumber := by
  have hn : Normalized (some serialNumber.val) := by
    rintro _ ⟨⟩
    exact ⟨serialNumber.trimmed, serialNumber.ne_empty⟩
  change trimOptional r.serialNumber = _
  rw [h]
  exact hn.eq

-- Serialized items only clash by their serial numbers.
theorem clash?_serialized (hm : r.trackingMode = .serialized)
    (hs : ∀ r' ∈ d.assetInventoryItems, r'.assetId = r.assetId → r'.serialNumber ≠ r.serialNumber) :
    d.assetInventoryItems.clash? r = none := by
  refine Table.clash?_eq_none.mpr fun r' hr _ => conflict?_eq_none.mpr fun ix hix hc => ?_
  simp only [TableSchema.indexes, List.mem_cons, List.not_mem_nil, or_false] at hix
  obtain rfl | rfl := hix
  case inl =>
    obtain ⟨hn, he⟩ := hc
    simp only at hn he
    cases hv : r.serialNumber
    case none => simp [hv] at hn
    case some s =>
      cases hv' : r'.serialNumber
      case none => simp [hv, hv'] at he
      case some s' =>
        simp only [hv, hv', Option.map_some, Option.some.injEq, Prod.mk.injEq] at he
        exact hs r' hr he.right.left.symm (by rw [hv, hv', he.right.right])
  case inr =>
    obtain ⟨hn, -⟩ := hc
    simp [hm] at hn

-- Items with new serial numbers are inserted one after the other.
theorem wp_insertNewInventoryItems (ha : (d.assets.find? asset.assetId).isSome)
    (ht : ∀ item ∈ items, ∀ s ∈ texts item, StorableText s)
    (hi : ∀ i < items.length, d.assetInventoryItems.find? (newIds i) = none)
    (hd : ∀ i j, i < items.length → j < items.length → newIds i = newIds j → i = j)
    (hv : ∀ item ∈ items, item.serialNumber.isSome) (hn : (items.map serial).Nodup)
    (hf : ∀ item ∈ items, ∀ r ∈ d.assetInventoryItems, r.assetId = asset.assetId →
      r.serialNumber ≠ serial item) :
    (insertNewInventoryItems asset .serialized newIds items).wp (fun _ => True) (fun _ => False)
      (fun rows _ => rows.map (·.serialNumber) = items.map serial) d := by
  induction items generalizing d newIds
  case nil => exact rfl
  case cons item items ih =>
    obtain ⟨serialNumber, hserial⟩ := Option.isSome_iff_exists.mp (hv item List.mem_cons_self)
    let r : InventoryItemRow := {
      inventoryItemId := newIds 0
      assetId := asset.assetId
      laboratoryId := asset.laboratoryId
      trackingMode := .serialized
      serialNumber := item.serialNumber.map (·.val)
      batchNumber := item.batchNumber
      quantityOnHand := item.quantityOnHand
      quantityAllocated := item.quantityAllocated
      locationId := item.locationId
      status := item.status
      publicNotes := item.publicNotes
      internalNotes := item.internalNotes
    }
    have hs : (stored r).serialNumber = serial item := by
      have hr : r.serialNumber = some serialNumber.val := by simp [r, hserial]
      exact stored_serialNumber hr
    have hc : d.assetInventoryItems.clash? (stored r) = none := by
      refine clash?_serialized rfl fun r' hr he => ?_
      rw [hs]
      exact hf item List.mem_cons_self r' hr he
    have hw : (insertInventoryItem r).wp _ _ _ d :=
      wp_insertInventoryItem ha (ht item List.mem_cons_self) (hi 0 (Nat.zero_lt_succ _)) hc
    refine wp_bind.mpr <| wp_mono hw fun row d' h => ?_
    obtain ⟨rfl, hassets, hinsert⟩ := h
    obtain ⟨hnew, hn⟩ := List.nodup_cons.mp hn
    have hlt {i : Nat} (h : i < items.length) : i + 1 < (item :: items).length := Nat.succ_lt_succ h
    have ht := fun item hm => ht item (List.mem_cons_of_mem _ hm)
    refine wp_bind.mpr <| wp_mono (ih ?_ ht ?_ ?_ ?_ hn ?_) fun rows _ hrows => ?_
    case refine_1 => rwa [hassets]
    case refine_2 =>
      intro i h
      rw [Table.find?_insert hinsert, if_neg]
      case hnc =>
        intro he
        exact nomatch hd 0 (i + 1) (Nat.zero_lt_succ _) (hlt h) he
      exact hi (i + 1) (hlt h)
    case refine_3 =>
      intro i j h h' he
      exact Nat.succ.inj <| hd (i + 1) (j + 1) (hlt h) (hlt h') he
    case refine_4 => exact fun item hm => hv item (List.mem_cons_of_mem _ hm)
    case refine_5 =>
      intro item' hm r' hr he
      obtain hr | rfl := (Table.mem_insert hinsert).mp hr
      case inl => exact hf item' (List.mem_cons_of_mem _ hm) r' hr he
      case inr =>
        rw [hs]
        exact fun he => hnew (he ▸ List.mem_map_of_mem hm)
    case refine_6 =>
      change (stored r).serialNumber :: rows.map _ = serial item :: items.map serial
      rw [hs, hrows]

end Insertion

-- The numbers of the generated serial numbers of an asset.
def generatedNumbers (d : Database) (assetId : Uuid) : List Nat :=
  (d.assetInventoryItems.rows.filter (·.assetId = assetId)).filterMap fun r =>
    r.serialNumber.bind generatedSerial?

section Generation

variable [GraphemeClusters] {d : Database} {asset : AssetRow} {count : Nat} {newIds : NewIds}

-- As many items as asked for are created, under serial numbers that were not in use. They may be put
-- anywhere in the laboratory, and described by any text that can be stored.
def Generates (d : Database) (asset : AssetRow) (count : Nat) (newIds : NewIds) : Prop :=
  ∀ batchNumber locationId status publicNotes internalNotes,
    Located d asset.laboratoryId locationId →
    (∀ s ∈ [batchNumber, publicNotes, internalNotes].reduceOption, StorableText s) → ∃ rows d',
    (insertSerializedItems asset (.generate count) batchNumber locationId status publicNotes
      internalNotes newIds).run d = .ok (rows, d') ∧
    ∃ serials : List String, rows.map (·.serialNumber) = serials.map some ∧ serials.length = count ∧
      serials.Nodup ∧ ∀ r ∈ d.assetInventoryItems, r.assetId = asset.assetId →
        ∀ s ∈ serials, r.serialNumber ≠ some s

omit [GraphemeClusters] in
theorem foldr_max_lt {ns : List Nat} {m : Nat} (hm : 0 < m) (h : ∀ n ∈ ns, n < m) :
    ns.foldr max 0 < m := by
  induction ns
  case nil => exact hm
  case cons n ns ih =>
    obtain ⟨hn, h⟩ := List.forall_mem_cons.mp h
    exact max_lt hn (ih h)

omit [GraphemeClusters] in
theorem generatedSerial_injective : Function.Injective generatedSerial := by
  intro m n h
  have hm := congrArg generatedSerial? h
  rwa [generatedSerial?_generatedSerial, generatedSerial?_generatedSerial, Option.some.injEq] at hm

theorem mapM_parse_generatedSerial {ns : List Nat} (h : ∀ n ∈ ns, n < 2 ^ 64) :
    ∃ serials, (ns.map generatedSerial).mapM InventoryItemSerialNumber.parse = .ok serials ∧
      serials.map (·.val) = ns.map generatedSerial := by
  induction ns
  case nil => exact ⟨[], rfl, rfl⟩
  case cons n ns ih =>
    obtain ⟨hn, h⟩ := List.forall_mem_cons.mp h
    obtain ⟨serial, hp, hv⟩ := parse_generatedSerial hn
    obtain ⟨serials, hps, hvs⟩ := ih h
    refine ⟨serial :: serials, ?_, ?_⟩
    · rw [List.map_cons, List.mapM_cons, hp]
      simp [hps]
    · rw [List.map_cons, List.map_cons, hv, hvs]

omit [GraphemeClusters] in
theorem wp_nextSerialNumbers {Q : List String → Database → Prop} {R : ApiError → Prop} {I : Database → Prop}
    {assetId : Uuid} : (nextSerialNumbers assetId count).wp I R Q d ↔
      ((∀ n ∈ generatedNumbers d assetId, n < 2 ^ 31) →
        Q ((List.range' 1 count).map fun offset =>
          generatedSerial ((generatedNumbers d assetId).foldr max 0 + offset)) d) ∧
      (¬(∀ n ∈ generatedNumbers d assetId, n < 2 ^ 31) → R (.unexpected "integer out of range")) := by
  have hall : (generatedNumbers d assetId).all (· < 2 ^ 31) ↔ ∀ n ∈ generatedNumbers d assetId, n < 2 ^ 31 := by
    simp [List.all_eq_true]
  rw [← hall]
  simp only [nextSerialNumbers, maxGeneratedSerialNumber, wp_bind, wp_read, wp_require, pure_def, wp_done]
  rfl

-- Generation succeeds iff the numbers in use fit into an `integer`.
theorem generates_iff (ha : (d.assets.find? asset.assetId).isSome) (hc : count ≤ 200)
    (hi : ∀ i < count, d.assetInventoryItems.find? (newIds i) = none)
    (hd : ∀ i j, i < count → j < count → newIds i = newIds j → i = j) :
    Generates d asset count newIds ↔ ∀ n ∈ generatedNumbers d asset.assetId, n < 2 ^ 31 := by
  constructor
  case mp =>
    intro h
    by_contra hn
    obtain ⟨rows, d', hrun, -⟩ := h none none .available none none nofun (by simp)
    have hw : (insertSerializedItems asset (.generate count) none none .available none none newIds).wlp
        (fun _ _ => False) d := by
      refine wp_bind.mpr <| wp_bind.mpr <| wp_nextSerialNumbers.mpr ⟨fun h => absurd h hn, fun _ => trivial⟩
    exact wp_run hw hrun
  case mpr =>
    intro h batchNumber locationId status publicNotes internalNotes _ hstorable
    let max := (generatedNumbers d asset.assetId).foldr Max.max 0
    let numbers := (List.range' 1 count).map (max + ·)
    have hmax : max < 2 ^ 31 := foldr_max_lt (by decide) h
    have hnumbers : ∀ n ∈ numbers, max < n ∧ n < 2 ^ 64 := by
      intro n hn
      obtain ⟨offset, ho, rfl⟩ := List.mem_map.mp hn
      have hr := List.mem_range'_1.mp ho
      omega
    have hnodup : (numbers.map generatedSerial).Nodup :=
      ((List.nodup_range').map (add_right_injective max)).map generatedSerial_injective
    have hfresh : ∀ r ∈ d.assetInventoryItems, r.assetId = asset.assetId →
        ∀ s ∈ numbers.map generatedSerial, r.serialNumber ≠ some s := by
      intro r hr he s hs hrs
      obtain ⟨n, hn, rfl⟩ := List.mem_map.mp hs
      have hm : n ∈ generatedNumbers d asset.assetId := by
        refine List.mem_filterMap.mpr ⟨r, List.mem_filter.mpr ⟨hr, decide_eq_true he⟩, ?_⟩
        rw [hrs, Option.bind_some, generatedSerial?_generatedSerial]
      exact absurd (List.le_max_of_le' 0 hm le_rfl) (Nat.not_le.mpr (hnumbers n hn).left)
    obtain ⟨serials, hparse, hvals⟩ := mapM_parse_generatedSerial fun n hn => (hnumbers n hn).right
    let items := serials.map fun serialNumber => NewInventoryItem.serialized serialNumber batchNumber
      locationId status publicNotes internalNotes
    have hitems : items.map serial = (numbers.map generatedSerial).map some := by
      rw [← hvals]
      simp [items, serial, NewInventoryItem.serialized]
    have hlength : items.length = count := by
      have hl := congrArg List.length hitems
      simpa [numbers] using hl
    have hw : (insertNewInventoryItems asset .serialized newIds items).wp (fun _ => True) (fun _ => False)
        (fun rows _ => rows.map (·.serialNumber) = items.map serial) d := by
      refine wp_insertNewInventoryItems ha ?_ (hlength ▸ hi) (hlength ▸ hd) ?_ ?_ ?_
      case refine_1 =>
        intro item hm s hs
        have hserial : serial item ∈ items.map serial := List.mem_map_of_mem hm
        rw [hitems] at hserial
        obtain ⟨_, hserial, he⟩ := List.mem_map.mp hserial
        obtain ⟨n, _, rfl⟩ := List.mem_map.mp hserial
        obtain ⟨serialNumber, _, rfl⟩ := List.mem_map.mp hm
        obtain hs | hs := List.mem_cons.mp <| List.reduceOption_mem_iff.mp hs
        case inl =>
          obtain rfl := Option.some.inj <| hs.trans he.symm
          exact storableText_generatedSerial
        case inr => exact storableText_normalized hstorable s (List.reduceOption_mem_iff.mpr hs)
      case refine_2 => simp [items, NewInventoryItem.serialized]
      case refine_3 => exact hitems ▸ hnodup.map (Option.some_injective _)
      case refine_4 =>
        intro item hm r hr he
        have hs : serial item ∈ (numbers.map generatedSerial).map some := hitems ▸ List.mem_map_of_mem hm
        obtain ⟨s, hs, hse⟩ := List.mem_map.mp hs
        exact hse ▸ hfresh r hr he s hs
    have hrun : (insertSerializedItems asset (.generate count) batchNumber locationId status publicNotes
        internalNotes newIds).wp (fun _ => True) (fun _ => False)
        (fun rows _ => rows.map (·.serialNumber) = items.map serial) d := by
      refine wp_bind.mpr <| wp_bind.mpr <| wp_nextSerialNumbers.mpr ⟨fun _ => ?_, fun hn => absurd h hn⟩
      have hm : (List.range' 1 count).map (fun offset => generatedSerial (max + offset)) =
          numbers.map generatedSerial := by
        simp [numbers]
      change Program.wp _ _ _ (Transaction.validated (((List.range' 1 count).map fun offset =>
        generatedSerial (max + offset)).mapM InventoryItemSerialNumber.parse)) d
      rw [hm, hparse]
      exact hw
    obtain ⟨rows, d', hok, hrows⟩ := wp_total hrun
    exact ⟨rows, d', hok, numbers.map generatedSerial, hrows.trans hitems, by simp [numbers], hnodup, hfresh⟩

end Generation

@[reducible]
def codePointClusters : GraphemeClusters where
  __ := UnicodeSegmentation.characters
  graphemes_le := le_rfl

def microscope : AssetRow where
  assetId := 10
  laboratoryId := 1
  categoryId := none
  trackingMode := .serialized
  name := "Microscope"
  model := none
  manufacturer := none
  inventoryUnitId := 1
  publicNotes := none
  internalNotes := none

def numberedItem (serialNumber : String) : InventoryItemRow where
  inventoryItemId := 20
  assetId := 10
  laboratoryId := 1
  trackingMode := .serialized
  serialNumber := some serialNumber
  batchNumber := none
  quantityOnHand := 1
  quantityAllocated := 0
  locationId := none
  status := .available
  publicNotes := none
  internalNotes := none

-- A laboratory with a single item.
def numbered (serialNumber : String) : Database where
  __ := Database.empty
  assets := {microscope}
  assetInventoryItems := {numberedItem serialNumber}

def consecutiveIds : NewIds :=
  fun i => .ofNat 128 (30 + i)

-- The items `#8`, `#9` and `#10` are created.
theorem generates_numbered :
    let _ := codePointClusters
    Generates (numbered "#007") microscope 3 consecutiveIds := by
  let _ := codePointClusters
  have hall : (List.range 3).all fun i =>
      (numbered "#007").assetInventoryItems.find? (consecutiveIds i) = none := by decide +kernel
  have hi (i : Nat) (h : i < 3) : (numbered "#007").assetInventoryItems.find? (consecutiveIds i) = none :=
    of_decide_eq_true <| List.all_eq_true.mp hall i (List.mem_range.mpr h)
  have hd (i j : Nat) (h : i < 3) (h' : j < 3) (he : consecutiveIds i = consecutiveIds j) : i = j := by
    have hn := congrArg BitVec.toNat he
    rw [consecutiveIds, consecutiveIds, BitVec.toNat_ofNat, BitVec.toNat_ofNat, Nat.mod_eq_of_lt,
      Nat.mod_eq_of_lt] at hn
    all_goals omega
  have hnumbers : (generatedNumbers (numbered "#007") microscope.assetId).all (· < 2 ^ 31) := by
    decide +kernel
  refine (generates_iff (by decide +kernel) (by decide) hi hd).mpr fun n hn => ?_
  exact of_decide_eq_true <| List.all_eq_true.mp hnumbers n hn

-- A serial number that was entered by hand ends the numbering.
theorem not_generates_large :
    let _ := codePointClusters
    (InventoryItemSerialNumber.parse "#2147483648").toBool ∧
    ¬Generates (numbered "#2147483648") microscope 1 consecutiveIds := by
  let _ := codePointClusters
  refine ⟨by decide +kernel, fun h => ?_⟩
  obtain ⟨rows, d', hrun, -⟩ := h none none .available none none nofun (by simp)
  have hfails : ((insertSerializedItems microscope (.generate 1) none none .available none none
      consecutiveIds).run (numbered "#2147483648")).toBool = false := by decide +kernel
  rw [hrun] at hfails
  exact nomatch hfails

end InventoryItems

end LabInventory
