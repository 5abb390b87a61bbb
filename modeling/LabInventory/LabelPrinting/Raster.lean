import Mathlib.Data.List.Forall2
import Mathlib.Data.List.TakeWhile
import LabInventory.LabelPrinting.Media
import LabInventory.Library.Bitmap
import LabInventory.Library.PackBits

open PackBits

namespace LabInventory

namespace LabelPrinting

structure Page where
  widthDots : UInt16
  heightDots : UInt16
  bitmap : List UInt8

inductive RasterError
  | noPages
  | widthMismatch (width printable : UInt16)
  | lengthOutOfRange (height : UInt16)
  | bitmapSizeMismatch (width height : UInt16) (expected actual : Nat)
deriving DecidableEq

def RasterError.text : RasterError → String
  | noPages => "A print job must contain at least one page"
  | widthMismatch width printable =>
    s!"Label bitmap is {width} dots wide but the loaded media prints {printable} dots"
  | lengthOutOfRange height => s!"Label bitmap is {height} dots long, outside the printable range of {minRasterLines}-{maxRasterLines} dots"
  | bitmapSizeMismatch width height expected actual =>
    s!"Label bitmap is {actual} bytes but {width}x{height} dots needs {expected} bytes"

def rowBytes (widthDots : UInt16) : Nat :=
  (widthDots.toNat + 7) / 8

namespace Page

def new (media : MediaSpec) (widthDots heightDots : UInt16) (bitmap : List UInt8) :
    Except RasterError Page := do
  .check (widthDots = media.printableWidthDots)
    (.widthMismatch widthDots media.printableWidthDots)
  .check (minRasterLines ≤ heightDots.toNat ∧ heightDots.toNat ≤ maxRasterLines)
    (.lengthOutOfRange heightDots)
  let expected := rowBytes widthDots * heightDots.toNat
  .check (bitmap.length = expected)
    (.bitmapSizeMismatch widthDots heightDots expected bitmap.length)
  return { widthDots, heightDots, bitmap }

-- A slice that is out of bounds is a panic.
def row (page : Page) (index : Nat) : Option (List UInt8) :=
  let stride := rowBytes page.widthDots
  let start := stride * index
  if start + stride ≤ page.bitmap.length then
    some ((page.bitmap.drop start).take stride)
  else
    none

end Page

def esc : UInt8 := 0x1B

def toLeBytes : Nat → Nat → List UInt8
  | 0, _ => []
  | k + 1, n => .ofNat n :: toLeBytes k (n / 256)

def statusRequest : List UInt8 :=
  [esc, 0x69, 0x53]

def pushPreamble : List UInt8 :=
  .replicate invalidateBytes 0x00 ++ ([esc, 0x40] ++ [esc, 0x69, 0x61, 0x01] ++ statusRequest)

def validFlags : UInt8 :=
  0x80 ||| 0x02 ||| 0x04 ||| 0x08 ||| 0x40

def pushPrintInformation (media : MediaSpec) (page : Page) (pageIndex : Nat) : List UInt8 :=
  [esc, 0x69, 0x7A, validFlags, media.kind.printInformationCode, media.widthMm, media.lengthMm] ++
  toLeBytes 4 page.heightDots.toNat ++ [if pageIndex = 0 then 0 else 1, 0x00]

def pushModeCommands (autoCut : Bool) : List UInt8 :=
  [esc, 0x69, 0x4D, autoCut.toUInt8 <<< 6] ++ [esc, 0x69, 0x41, 1] ++
  [esc, 0x69, 0x4B, autoCut.toUInt8 <<< 3]

def pushMargins (media : MediaSpec) : List UInt8 :=
  [esc, 0x69, 0x64] ++ toLeBytes 2 media.feedMarginForPrint.toNat

def pushCompression : List UInt8 :=
  [0x4D, 0x02]

-- How many times the first byte repeats.
def runLength : List UInt8 → Nat
  | [] => 0
  | b :: data => (data.takeWhile (· = b)).length + 1

-- How many of the next bytes do not start a run.
def literalLength : Nat → List UInt8 → Nat
  | 0, _ | _, [] => 0
  | n + 1, b :: data => if runLength (b :: data) < 2 then literalLength n data + 1 else 0

theorem literalLength_pos {b : UInt8} {data : List UInt8} {n : Nat}
    (h : runLength (b :: data) < 2) : 0 < literalLength (n + 1) (b :: data) := by
  rw [literalLength, if_pos h]
  exact Nat.succ_pos _

def packBits : List UInt8 → List UInt8
  | [] => []
  | b :: data =>
    if h : 2 ≤ runLength (b :: data) then
      let take := min (runLength (b :: data)) 128
      .ofNat (257 - take) :: b :: packBits ((b :: data).drop take)
    else
      let length := literalLength 128 (b :: data)
      .ofNat (length - 1) :: ((b :: data).take length ++ packBits ((b :: data).drop length))
termination_by data => data.length
decreasing_by
  · rw [List.length_drop, List.length_cons]
    omega
  · have hpos : 0 < literalLength 128 (b :: data) := literalLength_pos (by omega)
    rw [List.length_drop, List.length_cons]
    omega

-- An access out of bounds is a panic. The result also has the index at which the loop ends.
def unpackBitsFrom (data : List UInt8) (index : Nat) (out : List UInt8) :
    Option (List UInt8 × Nat) :=
  if h : index < data.length then
    let control := data[index]
    let index := index + 1
    if control.toNat < 128 then
      let count := control.toNat + 1
      if index + count ≤ data.length then
        unpackBitsFrom data (index + count) (out ++ (data.drop index).take count)
      else
        none
    else if control.toNat = 128 then
      unpackBitsFrom data index out
    else if h : index < data.length then
      unpackBitsFrom data (index + 1) (out ++ .replicate (257 - control.toNat) data[index])
    else
      none
  else
    some (out, index)
termination_by data.length - index

def unpackBits (data : List UInt8) : Option (List UInt8 × Nat) :=
  unpackBitsFrom data 0 []

def blitDot (row : List UInt8) (leftOffset : Nat) (line : List UInt8) (x : Nat) :
    Option (List UInt8) := do
  let b ← row[x / 8]?
  if b &&& Bitmap.mask (x % 8) = 0 then
    return line
  let target := leftOffset + x
  let _ ← (line)[target / 8]?
  return Bitmap.paint line target

def blitRow (line row : List UInt8) (widthDots : UInt16) (leftOffset : Nat) :
    Option (List UInt8) :=
  (List.range widthDots.toNat).foldlM (blitDot row leftOffset) line

def pushRasterRow (media : MediaSpec) (page : Page) (index : Nat) : Option (List UInt8) := do
  let leftOffset := (media.leftOffsetDots page.widthDots).getD 0
  let line ← blitRow (.replicate bytesPerRow 0) (← page.row index) page.widthDots leftOffset.toNat
  let compressed := packBits line
  return [0x67, 0x00, .ofNat compressed.length] ++ compressed

def pushRasterRows (media : MediaSpec) (page : Page) : Option (List UInt8) := do
  let rows ← (List.range page.heightDots.toNat).mapM (pushRasterRow media page)
  return rows.flatten

def pushPage (media : MediaSpec) (autoCut : Bool) (lastIndex : Nat) (page : Page) (index : Nat) :
    Option (List UInt8) := do
  let rows ← pushRasterRows media page
  return pushPrintInformation media page index ++ pushModeCommands autoCut ++ pushMargins media ++
    pushCompression ++ rows ++ [if index = lastIndex then 0x1A else 0x0C]

-- There is no result if the encoder panics.
def encodeJob (media : MediaSpec) (autoCut : Bool) (pages : List Page) :
    Except RasterError (Option (List UInt8)) := do
  .check (pages ≠ []) .noPages
  return do
    let pages ← pages.zipIdx.mapM fun (page, index) =>
      pushPage media autoCut (pages.length - 1) page index
    return pushPreamble ++ pages.flatten

section Compression

variable {b : UInt8} {data : List UInt8} {n : Nat}

theorem take_eq_replicate (h : n ≤ runLength (b :: data)) :
    (b :: data).take n = .replicate n b := by
  have hl : (b :: data.takeWhile (· = b)).length = runLength (b :: data) := rfl
  have he : b :: data = b :: data.takeWhile (· = b) ++ data.dropWhile (· = b) := by
    rw [List.cons_append, List.takeWhile_append_dropWhile]
  rw [he, List.take_append_of_le_length (hl ▸ h)]
  refine List.eq_replicate_iff.mpr ⟨List.length_take_of_le (hl ▸ h), fun c hc => ?_⟩
  obtain rfl | hc := List.mem_cons.mp (List.mem_of_mem_take hc)
  case inl => rfl
  case inr => simpa using List.mem_takeWhile_imp hc

theorem literalLength_le : literalLength n data ≤ n ∧ literalLength n data ≤ data.length := by
  induction n generalizing data
  case zero => cases data <;> exact ⟨Nat.le_refl 0, Nat.zero_le _⟩
  case succ n ih =>
    cases data
    case nil => exact ⟨Nat.zero_le _, Nat.le_refl 0⟩
    case cons b data =>
      rw [literalLength]
      split
      case isTrue =>
        exact ⟨Nat.succ_le_succ ih.left, Nat.succ_le_succ ih.right⟩
      case isFalse => exact ⟨Nat.zero_le _, Nat.zero_le _⟩

theorem exists_packets (data : List UInt8) : ∃ ps : List Packet, (∀ p ∈ ps, p.Valid) ∧
    packBits data = ps.flatMap Packet.encode ∧ ps.flatMap Packet.bytes = data := by
  induction data using packBits.induct
  case case1 =>
    refine ⟨[], nofun, ?_, rfl⟩
    rw [packBits]
    rfl
  case case2 b data h take ih =>
    obtain ⟨ps, hv, hp, hb⟩ := ih
    refine ⟨.run take b :: ps, ?_, ?_, ?_⟩
    case refine_1 =>
      refine List.forall_mem_cons.mpr ⟨⟨?_, Nat.min_le_right _ _⟩, hv⟩
      exact Nat.le_min.mpr ⟨h, by decide⟩
    case refine_2 =>
      rw [packBits, dif_pos h]
      exact congrArg (UInt8.ofNat (257 - take) :: b :: ·) hp
    case refine_3 =>
      rw [List.flatMap_cons, hb]
      have ht := take_eq_replicate (Nat.min_le_left (runLength (b :: data)) 128)
      exact (congrArg (· ++ _) ht.symm).trans <| List.take_append_drop _ _
  case case3 b data h length ih =>
    obtain ⟨ps, hv, hp, hb⟩ := ih
    have hle : length ≤ 128 ∧ length ≤ (b :: data).length := literalLength_le
    have hpos : 0 < length := literalLength_pos (by omega)
    have hl : ((b :: data).take length).length = length := List.length_take_of_le hle.right
    refine ⟨.literal ((b :: data).take length) :: ps, ?_, ?_, ?_⟩
    case refine_1 =>
      exact List.forall_mem_cons.mpr ⟨⟨hl.symm ▸ hpos, hl.symm ▸ hle.left⟩, hv⟩
    case refine_2 =>
      rw [packBits, dif_neg h, List.flatMap_cons, Packet.encode, hl]
      exact congrArg (fun l => UInt8.ofNat (length - 1) :: ((b :: data).take length ++ l)) hp
    case refine_3 =>
      rw [List.flatMap_cons, hb]
      exact List.take_append_drop _ _

theorem unpack_packBits : unpack (packBits data) = some data := by
  obtain ⟨ps, hv, hp, hb⟩ := exists_packets data
  rw [hp, unpack_flatMap_encode hv, hb]

-- The loop reads what is left of the data.
theorem unpackBitsFrom_eq {index : Nat} {out : List UInt8} (h : index ≤ data.length) :
    unpackBitsFrom data index out =
      (unpack (data.drop index)).map fun bytes => (out ++ bytes, data.length) := by
  induction index, out using unpackBitsFrom.induct data
  case case1 index out hi control index' hn count hc ih =>
    have hl : control.toNat < (data.drop index').length := by
      rw [List.length_drop]
      omega
    rw [unpackBitsFrom, dif_pos hi, List.drop_eq_getElem_cons hi, unpack.eq_def]
    simp only [control, index', count] at hn hc hl ih ⊢
    simp only [hn, hc, hl, if_true, ih hc, List.drop_drop, Option.map_map]
    refine congrArg (Option.map · _) (funext fun bytes => ?_)
    exact congrArg (·, data.length) (List.append_assoc _ _ _)
  case case2 index out hi control index' hn count hc =>
    have hl : ¬control.toNat < (data.drop index').length := by
      rw [List.length_drop]
      omega
    rw [unpackBitsFrom, dif_pos hi, List.drop_eq_getElem_cons hi, unpack.eq_def]
    simp only [control, index', count] at hn hc hl ⊢
    simp only [hn, hc, hl, if_true, if_false, Option.map_none]
  case case3 index out hi control index' hn he ih =>
    rw [unpackBitsFrom, dif_pos hi, List.drop_eq_getElem_cons hi, unpack.eq_def]
    simp only [control, index'] at hn he ih ⊢
    simp only [hn, if_false]
    simp only [he, if_true, ih hi]
  case case4 index out hi control index' hn he hb ih =>
    rw [unpackBitsFrom, dif_pos hi, List.drop_eq_getElem_cons hi, unpack.eq_def]
    simp only [control, index'] at hn he hb ih ⊢
    simp only [hn, he, hb, if_false, dif_pos, ih hb, List.drop_eq_getElem_cons hb, Option.map_map]
    refine congrArg (Option.map · _) (funext fun bytes => ?_)
    exact congrArg (·, data.length) (List.append_assoc _ _ _)
  case case5 index out hi control index' hn he hb =>
    have hl : data.drop index' = [] := List.drop_of_length_le (Nat.le_of_not_lt hb)
    rw [unpackBitsFrom, dif_pos hi, List.drop_eq_getElem_cons hi, unpack.eq_def]
    simp only [control, index'] at hn he hb hl ⊢
    simp only [hn, he, hb, hl, if_false, dif_neg, not_false_eq_true, Option.map_none]
  case case6 index out hi =>
    have hl : index = data.length := Nat.le_antisymm h (Nat.le_of_not_lt hi)
    rw [unpackBitsFrom, dif_neg hi, hl, List.drop_length, unpack.eq_1, Option.map_some,
      List.append_nil]

theorem length_packBits_le : (packBits data).length ≤ 2 * data.length := by
  obtain ⟨ps, hv, hp, hb⟩ := exists_packets data
  rw [hp, ← hb]
  exact length_flatMap_encode_le hv

end Compression

section Rows

variable {media : MediaSpec} {page : Page} {widthDots heightDots offset : UInt16}
  {bitmap line line' row : List UInt8} {leftOffset n x y : Nat}

structure Page.Accepted (media : MediaSpec) (page : Page) : Prop where
  width : page.widthDots = media.printableWidthDots
  height : minRasterLines ≤ page.heightDots.toNat ∧ page.heightDots.toNat ≤ maxRasterLines
  bitmap : page.bitmap.length = rowBytes page.widthDots * page.heightDots.toNat

theorem new_eq_ok : Page.new media widthDots heightDots bitmap = .ok page ↔
    page = { widthDots, heightDots, bitmap } ∧ page.Accepted media := by
  simp only [Page.new, Except.bind_eq_ok, Except.check_eq_ok, Except.pure_eq_ok]
  constructor
  case mp =>
    rintro ⟨_, hw, _, hh, _, hb, rfl⟩
    exact ⟨rfl, hw, hh, hb⟩
  case mpr =>
    rintro ⟨rfl, hw, hh, hb⟩
    exact ⟨(), hw, (), hh, (), hb, rfl⟩

-- The dot `x` of the row `y`.
def Page.dot (page : Page) (x y : Nat) : Bool :=
  Bitmap.dot page.bitmap (8 * (rowBytes page.widthDots * y) + x)

theorem lt_rowBytes (h : x < widthDots.toNat) : x < 8 * rowBytes widthDots := by
  unfold rowBytes
  omega

theorem exists_row (h : page.Accepted media) (hy : y < page.heightDots.toNat) :
    ∃ row, page.row y = some row ∧ row.length = rowBytes page.widthDots ∧
      ∀ x < page.widthDots.toNat, Bitmap.dot row x = page.dot x y := by
  have hb : rowBytes page.widthDots * y + rowBytes page.widthDots ≤ page.bitmap.length := by
    rw [h.bitmap]
    exact Nat.mul_le_mul_left (rowBytes page.widthDots) hy
  refine ⟨_, if_pos hb, ?_, fun x hx => ?_⟩
  case refine_1 =>
    rw [List.length_take, List.length_drop]
    omega
  case refine_2 => rw [Bitmap.dot_take (lt_rowBytes hx), Bitmap.dot_drop, Page.dot]

-- The first `n` dots of the row have been copied to the line.
structure Blitted (row : List UInt8) (leftOffset n : Nat) (line line' : List UInt8) : Prop where
  length : line'.length = line.length
  dot : ∀ j, Bitmap.dot line' j ↔
    Bitmap.dot line j ∨ ∃ x < n, leftOffset + x = j ∧ Bitmap.dot row x

theorem exists_blitDot (h : Blitted row leftOffset x line line') (hr : x < 8 * row.length)
    (hl : leftOffset + x < 8 * line.length) :
    ∃ line'', blitDot row leftOffset line' x = some line'' ∧
      Blitted row leftOffset (x + 1) line line'' := by
  have hx : x / 8 < row.length := by omega
  have ht : (leftOffset + x) / 8 < line'.length := by
    rw [h.length]
    omega
  obtain ⟨b, hb⟩ : ∃ b, row[x / 8]? = some b := ⟨_, List.getElem?_eq_getElem hx⟩
  obtain ⟨c, hc⟩ : ∃ c, line'[(leftOffset + x) / 8]? = some c := ⟨_, List.getElem?_eq_getElem ht⟩
  have hd : Bitmap.dot row x ↔ b &&& Bitmap.mask (x % 8) ≠ 0 := by
    simp [Bitmap.dot, hb]
  have hsucc (j : Nat) : (∃ x' < x + 1, leftOffset + x' = j ∧ Bitmap.dot row x') ↔
      (∃ x' < x, leftOffset + x' = j ∧ Bitmap.dot row x') ∨
        (leftOffset + x = j ∧ Bitmap.dot row x) := by
    constructor
    case mp =>
      rintro ⟨x', hlt, he, hx'⟩
      obtain hlt | rfl := Nat.lt_succ_iff_lt_or_eq.mp hlt
      case inl => exact .inl ⟨x', hlt, he, hx'⟩
      case inr => exact .inr ⟨he, hx'⟩
    case mpr =>
      rintro (⟨x', hlt, he, hx'⟩ | ⟨he, hx'⟩)
      case inl => exact ⟨x', Nat.lt_succ_of_lt hlt, he, hx'⟩
      case inr => exact ⟨x, Nat.lt_succ_self x, he, hx'⟩
  by_cases hz : b &&& Bitmap.mask (x % 8) = 0
  case pos =>
    refine ⟨line', by simp [blitDot, hb, hz], h.length, fun j => ?_⟩
    rw [h.dot, hsucc, hd]
    simp [hz]
  case neg =>
    refine ⟨Bitmap.paint line' (leftOffset + x), by simp [blitDot, hb, hz, hc], ?_, fun j => ?_⟩
    case refine_1 => rw [Bitmap.length_paint, h.length]
    case refine_2 =>
      rw [Bitmap.dot_paint ht, h.dot, hsucc, hd, or_assoc]
      simp [hz]

theorem exists_blitDots (hr : n ≤ 8 * row.length) (hl : leftOffset + n ≤ 8 * line.length) :
    ∃ line', (List.range n).foldlM (blitDot row leftOffset) line = some line' ∧
      Blitted row leftOffset n line line' := by
  induction n
  case zero => exact ⟨line, rfl, rfl, fun j => by simp⟩
  case succ n ih =>
    obtain ⟨line', hf, hb⟩ := ih (by omega) (by omega)
    obtain ⟨line'', hs, hb⟩ := exists_blitDot hb (by omega) (by omega)
    refine ⟨line'', ?_, hb⟩
    rw [List.range_succ, List.foldlM_append, hf]
    simpa using hs

-- The line of the print head which shows the row `y`.
structure PrintsRow (media : MediaSpec) (page : Page) (y : Nat) (line : List UInt8) : Prop where
  length : line.length = bytesPerRow
  dots : ∀ offset, media.Fits offset → ∀ j, Bitmap.dot line j ↔
    ∃ x < page.widthDots.toNat, offset.toNat + x = j ∧ page.dot x y

def encodeLine (line : List UInt8) : List UInt8 :=
  [0x67, 0x00, .ofNat (packBits line).length] ++ packBits line

theorem exists_pushRasterRow (hf : media.Fits offset) (h : page.Accepted media)
    (hy : y < page.heightDots.toNat) :
    ∃ line, pushRasterRow media page y = some (encodeLine line) ∧ PrintsRow media page y line := by
  obtain ⟨row, hr, hl, hd⟩ := exists_row h hy
  have ho : media.leftOffsetDots page.widthDots = some offset := h.width ▸ hf.leftOffset
  have hpins : pins.toNat = 8 * bytesPerRow := rfl
  have htotal := hf.total
  have hw := h.width
  have hz : (List.replicate bytesPerRow (0 : UInt8)).length = bytesPerRow := List.length_replicate
  have hwidth : page.widthDots.toNat ≤ 8 * row.length := by
    rw [hl]
    unfold rowBytes
    omega
  obtain ⟨line, hb, hbl⟩ : ∃ line, blitRow (.replicate bytesPerRow 0) row page.widthDots offset.toNat =
      some line ∧ Blitted row offset.toNat page.widthDots.toNat (.replicate bytesPerRow 0) line :=
    exists_blitDots hwidth (by rw [hz, hw]; omega)
  refine ⟨line, ?_, hbl.length.trans hz, fun offset' hf' j => ?_⟩
  case refine_1 =>
    simp only [pushRasterRow, hr, ho, Option.getD_some, Option.bind_eq_bind, Option.bind_some, hb]
    rfl
  case refine_2 =>
    obtain rfl := Option.some.inj <| hf.leftOffset.symm.trans hf'.leftOffset
    rw [hbl.dot, Bitmap.dot_replicate_zero]
    constructor
    case mp =>
      rintro (h | ⟨x, hx, he, hx'⟩)
      case inl => exact nomatch h
      case inr => exact ⟨x, hx, he, hd x hx ▸ hx'⟩
    case mpr =>
      rintro ⟨x, hx, he, hx'⟩
      exact .inr ⟨x, hx, he, (hd x hx).symm ▸ hx'⟩

theorem exists_mapM {α β γ : Type} {f : α → Option β} {g : γ → β} {P : α → γ → Prop} {as : List α}
    (h : ∀ a ∈ as, ∃ c, f a = some (g c) ∧ P a c) :
    ∃ cs, as.mapM f = some (cs.map g) ∧ List.Forall₂ P as cs := by
  induction as
  case nil => exact ⟨[], rfl, .nil⟩
  case cons a as ih =>
    obtain ⟨c, hc, hp⟩ := h a List.mem_cons_self
    obtain ⟨cs, hcs, hps⟩ := ih fun a ha => h a (List.mem_cons_of_mem _ ha)
    refine ⟨c :: cs, ?_, .cons hp hps⟩
    rw [List.mapM_cons, hc, hcs]
    rfl

theorem exists_pushRasterRows (hf : media.Fits offset) (h : page.Accepted media) :
    ∃ lines, pushRasterRows media page = some (lines.flatMap encodeLine) ∧
      List.Forall₂ (PrintsRow media page) (List.range page.heightDots.toNat) lines := by
  obtain ⟨lines, hm, hl⟩ := exists_mapM fun y hy =>
    exists_pushRasterRow hf h (List.mem_range.mp hy)
  refine ⟨lines, ?_, hl⟩
  rw [pushRasterRows, hm, List.flatMap_def]
  rfl

theorem length_blitDot (h : blitDot row leftOffset line x = some line') :
    line'.length = line.length := by
  obtain ⟨b, hb, h⟩ := Option.bind_eq_some_iff.mp h
  by_cases hz : b &&& Bitmap.mask (x % 8) = 0
  case pos =>
    rw [if_pos hz] at h
    exact congrArg List.length (Option.some.inj h).symm
  case neg =>
    rw [if_neg hz] at h
    obtain ⟨c, hc, h⟩ := Option.bind_eq_some_iff.mp h
    obtain rfl := Option.some.inj h
    exact Bitmap.length_paint

theorem length_blitDots {xs : List Nat} (h : xs.foldlM (blitDot row leftOffset) line = some line') :
    line'.length = line.length := by
  induction xs generalizing line
  case nil => exact congrArg List.length (Option.some.inj h).symm
  case cons x xs ih =>
    rw [List.foldlM_cons] at h
    obtain ⟨line'', hx, h⟩ := Option.bind_eq_some_iff.mp h
    exact (ih h).trans <| length_blitDot hx

theorem pushRasterRow_eq_some {out : List UInt8} (h : pushRasterRow media page y = some out) :
    ∃ line, out = encodeLine line ∧ line.length = bytesPerRow := by
  obtain ⟨row, hr, h⟩ := Option.bind_eq_some_iff.mp h
  obtain ⟨line, hl, h⟩ := Option.bind_eq_some_iff.mp h
  exact ⟨line, (Option.some.inj h).symm, (length_blitDots hl).trans List.length_replicate⟩

theorem toNat_length_packBits (h : line.length = bytesPerRow) :
    (packBits line).length < 256 ∧
      (UInt8.ofNat (packBits line).length).toNat = (packBits line).length := by
  have hp : (packBits line).length ≤ 2 * line.length := length_packBits_le
  have hb : bytesPerRow = 90 := rfl
  have hlt : (packBits line).length < 256 := by omega
  exact ⟨hlt, UInt8.toNat_ofNat'.trans <| Nat.mod_eq_of_lt hlt⟩

theorem mapM_pushRasterRow {indices : List Nat} {rows : List (List UInt8)}
    (h : indices.mapM (pushRasterRow media page) = some rows) :
    ∃ lines : List (List UInt8), lines.length = indices.length ∧
      rows.flatten = lines.flatMap encodeLine ∧ ∀ line ∈ lines, line.length = bytesPerRow := by
  induction indices generalizing rows
  case nil =>
    obtain rfl : [] = rows := Option.some.inj h
    exact ⟨[], rfl, rfl, fun _ hl => absurd hl List.not_mem_nil⟩
  case cons index indices ih =>
    rw [List.mapM_cons] at h
    obtain ⟨out, ho, h⟩ := Option.bind_eq_some_iff.mp h
    obtain ⟨rows', hr, h⟩ := Option.bind_eq_some_iff.mp h
    obtain rfl := Option.some.inj h
    obtain ⟨line, rfl, hl⟩ := pushRasterRow_eq_some ho
    obtain ⟨lines, hn, hf, hls⟩ := ih hr
    refine ⟨line :: lines, congrArg (· + 1) hn, ?_, List.forall_mem_cons.mpr ⟨hl, hls⟩⟩
    rw [List.flatten_cons, hf, List.flatMap_cons]

theorem pushRasterRows_eq_some {out : List UInt8} (h : pushRasterRows media page = some out) :
    ∃ lines : List (List UInt8), lines.length = page.heightDots.toNat ∧
      out = lines.flatMap encodeLine ∧ ∀ line ∈ lines, line.length = bytesPerRow := by
  obtain ⟨rows, hr, h⟩ := Option.bind_eq_some_iff.mp h
  obtain rfl := Option.some.inj h
  obtain ⟨lines, hn, hf, hl⟩ := mapM_pushRasterRow hr
  exact ⟨lines, hn.trans List.length_range, hf, hl⟩

theorem pack_bits_round_trips (data : List UInt8) :
    unpackBits (packBits data) = some (data, (packBits data).length) ∧
    (∃ packets, controls (packBits data) = some packets ∧ packets.flatMap Prod.snd = data ∧
      ∀ control bytes, (control, bytes) ∈ packets →
        control ≠ 128 ∧ 1 ≤ bytes.length ∧ bytes.length ≤ 128) ∧
    (data.length = bytesPerRow → (packBits data).length < 256) ∧
    ∀ media page out, pushRasterRows media page = some out → ∃ lines : List (List UInt8),
      lines.length = page.heightDots.toNat ∧
      out = lines.flatMap (fun line =>
        [0x67, 0x00, .ofNat (packBits line).length] ++ packBits line) ∧
      ∀ line ∈ lines, line.length = bytesPerRow ∧
        (UInt8.ofNat (packBits line).length).toNat = (packBits line).length := by
  refine ⟨?_, ?_, fun h => (toNat_length_packBits h).left, fun media page out h => ?_⟩
  case refine_1 =>
    rw [unpackBits, unpackBitsFrom_eq (Nat.zero_le _), List.drop_zero, unpack_packBits]
    rfl
  case refine_2 =>
    obtain ⟨ps, hv, hp, hb⟩ := exists_packets data
    refine ⟨_, hp ▸ controls_flatMap_encode hv, ?_, fun control bytes hm => ?_⟩
    case refine_1 => rw [List.flatMap_map, hb]
    case refine_2 =>
      obtain ⟨p, hp, he⟩ := List.mem_map.mp hm
      obtain ⟨rfl, rfl⟩ := Prod.mk.inj he
      exact ⟨(hv p hp).control_ne, (hv p hp).length_bytes⟩
  case refine_3 =>
    obtain ⟨lines, hn, ho, hl⟩ := pushRasterRows_eq_some h
    exact ⟨lines, hn, ho, fun line hm => ⟨hl line hm, (toNat_length_packBits (hl line hm)).right⟩⟩

end Rows

end LabelPrinting

end LabInventory
