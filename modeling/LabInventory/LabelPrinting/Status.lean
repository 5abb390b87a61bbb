import LabInventory.LabelPrinting.Media
import LabInventory.Library.Bitmap

namespace LabInventory

namespace LabelPrinting

def statusBlockLen : Nat := 32

def offsetError1 : Nat := 8

def offsetError2 : Nat := 9

def offsetMediaWidth : Nat := 10

def offsetMediaType : Nat := 11

def offsetMediaLength : Nat := 17

inductive StatusError
  | tooShort (actual : Nat)
deriving DecidableEq

def StatusError.text : StatusError → String
  | tooShort actual => s!"Printer returned {actual} bytes, expected at least {statusBlockLen}"

inductive PrinterFault
  | noMedia
  | endOfMedia
  | cutterJam
  | mainUnitInUse
  | printerTurnedOff
  | highVoltageAdapter
  | fanError
  | replaceMedia
  | expansionBufferFull
  | communicationError
  | communicationBufferFull
  | coverOpen
  | cancelKey
  | cannotFeedMedia
  | systemError
deriving DecidableEq

def PrinterFault.code : PrinterFault → String
  | noMedia => "no_media"
  | endOfMedia => "end_of_media"
  | cutterJam => "cutter_jam"
  | mainUnitInUse => "main_unit_in_use"
  | printerTurnedOff => "printer_turned_off"
  | highVoltageAdapter => "high_voltage_adapter"
  | fanError => "fan_error"
  | replaceMedia => "replace_media"
  | expansionBufferFull => "expansion_buffer_full"
  | communicationError => "communication_error"
  | communicationBufferFull => "communication_buffer_full"
  | coverOpen => "cover_open"
  | cancelKey => "cancel_key"
  | cannotFeedMedia => "cannot_feed_media"
  | systemError => "system_error"

def error1Faults : List (Nat × PrinterFault) := [
  (0, .noMedia),
  (1, .endOfMedia),
  (2, .cutterJam),
  (4, .mainUnitInUse),
  (5, .printerTurnedOff),
  (6, .highVoltageAdapter),
  (7, .fanError)
]

def error2Faults : List (Nat × PrinterFault) := [
  (0, .replaceMedia),
  (1, .expansionBufferFull),
  (2, .communicationError),
  (3, .communicationBufferFull),
  (4, .coverOpen),
  (5, .cancelKey),
  (6, .cannotFeedMedia),
  (7, .systemError)
]

structure PrinterStatus where
  mediaKind : Option String
  mediaWidthMm : UInt8
  mediaLengthMm : UInt8
  faults : List PrinterFault
deriving DecidableEq

def collectFaults (byte : UInt8) (table : List (Nat × PrinterFault)) (out : List PrinterFault) :
    List PrinterFault :=
  table.foldl (fun out (bit, fault) =>
    if byte &&& ((1 : UInt8) <<< UInt8.ofNat bit) ≠ 0 then out ++ [fault] else out) out

namespace PrinterStatus

-- The offsets are within the block once its length has been checked.
def parse (block : List UInt8) : Except StatusError PrinterStatus := do
  .check (statusBlockLen ≤ block.length) (.tooShort block.length)
  let mediaKind : Option MediaKind :=
    match block.getD offsetMediaType 0 with
    | 0x0A => some .continuous
    | 0x0B => some .dieCut
    | _ => none
  let faults := collectFaults (block.getD offsetError1 0) error1Faults []
  let faults := collectFaults (block.getD offsetError2 0) error2Faults faults
  return {
    mediaKind := mediaKind.map MediaKind.asStr
    mediaWidthMm := block.getD offsetMediaWidth 0
    mediaLengthMm := block.getD offsetMediaLength 0
    faults
  }

def matchesSpec (status : PrinterStatus) (spec : MediaSpec) : Bool :=
  if status.mediaKind ≠ some spec.kind.asStr then
    false
  else if status.mediaWidthMm ≠ spec.widthMm then
    false
  else
    match spec.kind with
    | .continuous => true
    | .dieCut => status.mediaLengthMm = spec.lengthMm

def isReady (status : PrinterStatus) : Bool :=
  status.faults.isEmpty

end PrinterStatus

section Gate

variable {byte : UInt8} {table : List (Nat × PrinterFault)} {out : List PrinterFault} {bit : Nat}
  {block : List UInt8} {spec : MediaSpec}

theorem toNat_bit (h : bit < 8) : ((1 : UInt8) <<< UInt8.ofNat bit).toNat = 2 ^ bit := by
  interval_cases bit <;> rfl

theorem and_bit_eq_zero (h : bit < 8) :
    byte &&& ((1 : UInt8) <<< UInt8.ofNat bit) = 0 ↔ byte.toNat.testBit bit = false := by
  rw [← UInt8.toNat_inj, UInt8.toNat_and, toNat_bit h, Nat.and_two_pow]
  cases byte.toNat.testBit bit <;> simp

theorem collectFaults_eq_nil : collectFaults byte table out = [] ↔ out = [] ∧
    ∀ bit ∈ table.map Prod.fst, byte &&& ((1 : UInt8) <<< UInt8.ofNat bit) = 0 := by
  induction table generalizing out
  case nil => simp [collectFaults]
  case cons e table ih =>
    have hs : collectFaults byte (e :: table) out = collectFaults byte table
      (if byte &&& ((1 : UInt8) <<< UInt8.ofNat e.fst) ≠ 0 then out ++ [e.snd] else out) := rfl
    rw [hs, ih, List.map_cons, List.forall_mem_cons, ← and_assoc]
    refine and_congr_left' ?_
    by_cases he : byte &&& ((1 : UInt8) <<< UInt8.ofNat e.fst) = 0 <;> simp [he]

-- What a block says if the printer is ready and loaded with the stock.
structure Shows (spec : MediaSpec) (block : List UInt8) : Prop where
  error1 : ∀ bit < 8, bit ≠ 3 → (block.getD offsetError1 0).toNat.testBit bit = false
  error2 : ∀ bit < 8, (block.getD offsetError2 0).toNat.testBit bit = false
  kind : block.getD offsetMediaType 0 = spec.kind.printInformationCode
  width : block.getD offsetMediaWidth 0 = spec.widthMm
  length : spec.kind = .dieCut → block.getD offsetMediaLength 0 = spec.lengthMm

theorem mem_error1Faults : bit ∈ error1Faults.map Prod.fst ↔ bit < 8 ∧ bit ≠ 3 := by
  have hm : error1Faults.map Prod.fst = [0, 1, 2, 4, 5, 6, 7] := rfl
  rw [hm]
  simp only [List.mem_cons, List.not_mem_nil, or_false]
  omega

theorem mem_error2Faults : bit ∈ error2Faults.map Prod.fst ↔ bit < 8 := by
  have hm : error2Faults.map Prod.fst = [0, 1, 2, 3, 4, 5, 6, 7] := rfl
  rw [hm]
  simp only [List.mem_cons, List.not_mem_nil, or_false]
  omega

theorem faults_eq_nil {e₁ e₂ : UInt8} :
    collectFaults e₂ error2Faults (collectFaults e₁ error1Faults []) = [] ↔
      (∀ bit < 8, bit ≠ 3 → e₁.toNat.testBit bit = false) ∧
        ∀ bit < 8, e₂.toNat.testBit bit = false := by
  rw [collectFaults_eq_nil, collectFaults_eq_nil]
  simp only [true_and]
  refine and_congr ⟨fun h bit hb hn => ?_, fun h bit hm => ?_⟩ ⟨fun h bit hb => ?_, fun h bit hm => ?_⟩
  case refine_1 => exact (and_bit_eq_zero hb).mp <| h bit <| mem_error1Faults.mpr ⟨hb, hn⟩
  case refine_2 =>
    obtain ⟨hb, hn⟩ := mem_error1Faults.mp hm
    exact (and_bit_eq_zero hb).mpr <| h bit hb hn
  case refine_3 => exact (and_bit_eq_zero hb).mp <| h bit <| mem_error2Faults.mpr hb
  case refine_4 =>
    have hb := mem_error2Faults.mp hm
    exact (and_bit_eq_zero hb).mpr <| h bit hb

theorem matchesSpec_iff {status : PrinterStatus} : status.matchesSpec spec ↔
    status.mediaKind = some spec.kind.asStr ∧ status.mediaWidthMm = spec.widthMm ∧
      (spec.kind = .dieCut → status.mediaLengthMm = spec.lengthMm) := by
  unfold PrinterStatus.matchesSpec
  split
  case isTrue hk => exact iff_of_false Bool.false_ne_true fun h => hk h.left
  case isFalse hk =>
    split
    case isTrue hw => exact iff_of_false Bool.false_ne_true fun h => hw h.right.left
    case isFalse hw =>
      rw [and_iff_right (not_not.mp hk), and_iff_right (not_not.mp hw)]
      cases spec.kind <;> simp

-- The kinds of the status block are those of the print information.
theorem asStr_eq_iff {byte : UInt8} {kind : MediaKind} :
    (match byte with
      | 0x0A => some MediaKind.continuous
      | 0x0B => some MediaKind.dieCut
      | _ => none).map MediaKind.asStr = some kind.asStr ↔ byte = kind.printInformationCode := by
  have hs : MediaKind.continuous.asStr ≠ MediaKind.dieCut.asStr := by decide
  have hc : (0x0A : UInt8) ≠ 0x0B := by decide
  split
  case h_1 => cases kind <;> simp [MediaKind.printInformationCode, hs]
  case h_2 => cases kind <;> simp [MediaKind.printInformationCode, hs.symm]
  case h_3 hc hd =>
    refine iff_of_false (fun h => nomatch h) fun h => ?_
    cases kind
    case continuous => exact hc h
    case dieCut => exact hd h

theorem exists_parse (h : statusBlockLen ≤ block.length) : ∃ status,
    PrinterStatus.parse block = .ok status ∧
      (status.isReady ∧ status.matchesSpec spec ↔ Shows spec block) := by
  refine ⟨_, by rw [PrinterStatus.parse, Except.check, if_pos h]; rfl, ?_⟩
  rw [matchesSpec_iff, PrinterStatus.isReady, List.isEmpty_iff, faults_eq_nil]
  constructor
  case mp =>
    rintro ⟨⟨h₁, h₂⟩, hk, hw, hl⟩
    exact ⟨h₁, h₂, asStr_eq_iff.mp hk, hw, hl⟩
  case mpr =>
    rintro ⟨h₁, h₂, hk, hw, hl⟩
    exact ⟨⟨h₁, h₂⟩, asStr_eq_iff.mpr hk, hw, hl⟩

-- What follows the first bytes of a block is not looked at.
theorem shows_take : Shows spec (block.take statusBlockLen) ↔ Shows spec block := by
  have hg {n : Nat} (h : n < statusBlockLen) :
      (block.take statusBlockLen).getD n 0 = block.getD n 0 := by
    rw [List.getD_eq_getElem?_getD, List.getD_eq_getElem?_getD, List.getElem?_take_of_lt h]
  have h₁ := hg (n := offsetError1) (by decide)
  have h₂ := hg (n := offsetError2) (by decide)
  have hk := hg (n := offsetMediaType) (by decide)
  have hw := hg (n := offsetMediaWidth) (by decide)
  have hl := hg (n := offsetMediaLength) (by decide)
  constructor
  case mp =>
    intro h
    exact ⟨h₁ ▸ h.error1, h₂ ▸ h.error2, hk ▸ h.kind, hw ▸ h.width, hl ▸ h.length⟩
  case mpr =>
    intro h
    exact ⟨h₁ ▸ h.error1, h₂ ▸ h.error2, hk ▸ h.kind, hw ▸ h.width, hl ▸ h.length⟩

end Gate

end LabelPrinting

end LabInventory
