import LabInventory.Library.Except

namespace LabInventory

namespace LabelPrinting

def pins : UInt16 := 720

def bytesPerRow : Nat := 90

def invalidateBytes : Nat := 400

def minRasterLines : Nat := 150

def maxRasterLines : Nat := 11811

inductive MediaKind
  | continuous
  | dieCut
deriving DecidableEq

namespace MediaKind

def printInformationCode : MediaKind → UInt8
  | continuous => 0x0A
  | dieCut => 0x0B

def asStr : MediaKind → String
  | continuous => "continuous"
  | dieCut => "die_cut"

def parse : String → Option MediaKind
  | "continuous" => some continuous
  | "die_cut" => some dieCut
  | _ => none

theorem parse_eq_some {s : String} {kind : MediaKind} (h : parse s = some kind) :
    kind.asStr = s := by
  unfold parse at h
  split at h
  case h_1 => exact (Option.some.inj h) ▸ rfl
  case h_2 => exact (Option.some.inj h) ▸ rfl
  case h_3 => exact nomatch h

end MediaKind

-- The lengths of continuous stock are zero.
structure MediaSpec where
  kind : MediaKind
  widthMm : UInt8
  lengthMm : UInt8
  totalWidthDots : UInt16
  printableWidthDots : UInt16
  printableLengthDots : UInt16
  rightMarginDots : UInt16
  feedMarginDots : UInt16
deriving DecidableEq

-- `u16::checked_sub`
def checkedSub (a b : UInt16) : Option UInt16 :=
  if b ≤ a then some (a - b) else none

namespace MediaSpec

-- Where the left edge of a bitmap is on the print head.
def leftOffsetDots (media : MediaSpec) (bitmapWidthDots : UInt16) : Option UInt16 := do
  checkedSub (← checkedSub pins bitmapWidthDots) media.rightMarginDots

def feedMarginForPrint (media : MediaSpec) : UInt16 :=
  match media.kind with
  | .continuous => media.feedMarginDots
  | .dieCut => 0

end MediaSpec

def continuous (widthMm : UInt8) (totalWidthDots printableWidthDots rightMarginDots : UInt16) :
    MediaSpec where
  kind := .continuous
  widthMm := widthMm
  lengthMm := 0
  totalWidthDots := totalWidthDots
  printableWidthDots := printableWidthDots
  printableLengthDots := 0
  rightMarginDots := rightMarginDots
  feedMarginDots := 35

def dieCut (widthMm lengthMm : UInt8) (totalWidthDots printableWidthDots printableLengthDots
    rightMarginDots : UInt16) : MediaSpec where
  kind := .dieCut
  widthMm := widthMm
  lengthMm := lengthMm
  totalWidthDots := totalWidthDots
  printableWidthDots := printableWidthDots
  printableLengthDots := printableLengthDots
  rightMarginDots := rightMarginDots
  feedMarginDots := 0

def supportedMedia : List MediaSpec := [
  continuous 29 342 306 6,
  continuous 38 449 413 12,
  continuous 50 590 554 12,
  continuous 62 732 696 12,
  dieCut 17 54 201 165 566 0,
  dieCut 23 23 272 202 202 42,
  dieCut 29 90 342 306 991 6,
  dieCut 62 29 732 696 271 12,
  dieCut 62 100 732 696 1109 12
]

def lookup (kind : MediaKind) (widthMm : UInt8) (lengthMm : Option UInt8) : Option MediaSpec :=
  supportedMedia.find? fun spec =>
    spec.kind = kind && spec.widthMm = widthMm &&
      match kind with
      | .continuous => true
      | .dieCut => lengthMm = some spec.lengthMm

-- The printable area lies within the print head.
structure MediaSpec.Fits (media : MediaSpec) (offset : UInt16) : Prop where
  leftOffset : media.leftOffsetDots media.printableWidthDots = some offset
  total : offset.toNat + media.printableWidthDots.toNat + media.rightMarginDots.toNat = pins.toNat

theorem exists_fits {media : MediaSpec} (h : media ∈ supportedMedia) :
    ∃ offset, media.Fits offset := by
  have hall : supportedMedia.all fun media =>
      (media.leftOffsetDots media.printableWidthDots).any fun offset =>
        offset.toNat + media.printableWidthDots.toNat + media.rightMarginDots.toNat =
          pins.toNat := by decide
  obtain ⟨offset, ho, ht⟩ := (Option.any_eq_true _ _).mp <| List.all_eq_true.mp hall media h
  exact ⟨offset, ho, of_decide_eq_true ht⟩

-- Only the lengths of die-cut stock are fixed.
theorem printableLengthDots_ne_zero {media : MediaSpec} (h : media ∈ supportedMedia) :
    media.printableLengthDots ≠ 0 ↔ media.kind = .dieCut := by
  have hall : supportedMedia.all fun media =>
      decide (media.printableLengthDots ≠ 0 ↔ media.kind = .dieCut) := by decide
  exact of_decide_eq_true <| List.all_eq_true.mp hall media h

theorem of_lookup {kind : MediaKind} {widthMm : UInt8} {lengthMm : Option UInt8} {spec : MediaSpec}
    (h : lookup kind widthMm lengthMm = some spec) :
    spec.kind = kind ∧ spec.widthMm = widthMm ∧ (kind = .dieCut → lengthMm = some spec.lengthMm) := by
  have hs := List.find?_some h
  cases kind
  case continuous => simpa using hs
  case dieCut => simpa [and_assoc] using hs

end LabelPrinting

end LabInventory
