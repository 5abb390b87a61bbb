import LabInventory.LabelPrinting.Media

open LabInventory.LabelPrinting

namespace LabInventory

structure LabelPrinterMedia where
  spec : MediaSpec
  supported : spec ∈ supportedMedia

namespace LabelPrinterMedia

-- `u8::try_from`
def tryU8 (value : Int) (e : String) : Except String UInt8 :=
  if 0 ≤ value ∧ value < 256 then .ok (.ofNat value.toNat) else .error e

def find (kind : MediaKind) (widthMm : UInt8) (lengthMm : Option UInt8) :
    Option LabelPrinterMedia :=
  match h : lookup kind widthMm lengthMm with
  | some spec => some { spec, supported := List.mem_of_find?_eq_some h }
  | none => none

def parse (kind : String) (widthMm : Int) (lengthMm : Option Int) :
    Except String LabelPrinterMedia := do
  let some kind := MediaKind.parse kind | throw s!"{kind} is not a supported label media kind."
  let width ← tryU8 widthMm s!"{widthMm}mm is not a supported label width."
  let length ← lengthMm.mapM fun value => tryU8 value s!"{value}mm is not a supported label length."
  match kind, length with
  | .continuous, some _ => throw "Continuous label stock has no fixed length."
  | .dieCut, none => throw "Die-cut label stock requires a length."
  | _, _ =>
    let some media := find kind width length |
      match length with
      | some length => throw s!"{width}x{length}mm die-cut labels are not supported."
      | none => throw s!"{width}mm continuous labels are not supported."
    return media

def kindStr (media : LabelPrinterMedia) : String :=
  media.spec.kind.asStr

def widthMm (media : LabelPrinterMedia) : UInt8 :=
  media.spec.widthMm

def lengthMm (media : LabelPrinterMedia) : Option UInt8 :=
  match media.spec.kind with
  | .continuous => none
  | .dieCut => some media.spec.lengthMm

variable {kind : String} {width : Int} {length : Option Int} {media : LabelPrinterMedia}

theorem tryU8_eq_ok {value : Int} {e : String} {b : UInt8} (h : tryU8 value e = .ok b) :
    (b.toNat : Int) = value := by
  unfold tryU8 at h
  split at h
  case isTrue hv =>
    obtain rfl := Except.ok.inj h
    rw [UInt8.toNat_ofNat']
    omega
  case isFalse => exact nomatch h

theorem of_find {kind : MediaKind} {width : UInt8} {length : Option UInt8}
    (h : find kind width length = some media) (hl : kind = .continuous → length = none) :
    media.kindStr = kind.asStr ∧ media.widthMm = width ∧ media.lengthMm = length := by
  unfold find at h
  split at h
  case h_2 => exact nomatch h
  case h_1 spec hs =>
    obtain rfl := Option.some.inj h
    obtain ⟨hk, hw, hd⟩ := of_lookup hs
    refine ⟨congrArg MediaKind.asStr hk, hw, ?_⟩
    cases kind
    case continuous =>
      rw [lengthMm, hk]
      exact (hl rfl).symm
    case dieCut =>
      rw [lengthMm, hk]
      exact (hd rfl).symm

theorem length_of_mapM {e : Int → String} {l : Option UInt8}
    (h : length.mapM (fun value => tryU8 value (e value)) = .ok l) :
    length = l.map fun b => (b.toNat : Int) := by
  cases length
  case none => exact (Except.pure_eq_ok.mp h) ▸ rfl
  case some value =>
    obtain ⟨b, hb, h⟩ := Except.bind_eq_ok.mp h
    obtain rfl := Except.pure_eq_ok.mp h
    exact congrArg some (tryU8_eq_ok hb).symm

-- What has been parsed is written out as it was.
theorem parse_eq_ok (h : parse kind width length = .ok media) :
    media.kindStr = kind ∧ (media.widthMm.toNat : Int) = width ∧
      media.lengthMm.map (fun b => (b.toNat : Int)) = length := by
  unfold parse at h
  cases hk : MediaKind.parse kind
  case none =>
    rw [hk] at h
    exact nomatch h
  case some k =>
    rw [hk] at h
    obtain ⟨w, hw, h⟩ := Except.bind_eq_ok.mp h
    obtain ⟨l, hl, h⟩ := Except.bind_eq_ok.mp h
    have hf : find k w l = some media ∧ (k = .continuous → l = none) := by
      cases k
      case continuous =>
        cases l
        case some => exact absurd h Except.throw_ne_ok
        case none =>
          cases hf : find .continuous w none <;> dsimp only at h <;> rw [hf] at h
          case none => exact absurd h Except.throw_ne_ok
          case some m => exact ⟨congrArg some (Except.pure_eq_ok.mp h), fun _ => rfl⟩
      case dieCut =>
        cases l
        case none => exact absurd h Except.throw_ne_ok
        case some b =>
          cases hf : find .dieCut w (some b) <;> dsimp only at h <;> rw [hf] at h
          case none => exact absurd h Except.throw_ne_ok
          case some m => exact ⟨congrArg some (Except.pure_eq_ok.mp h), nofun⟩
    obtain ⟨hkind, hwidth, hlength⟩ := of_find hf.left hf.right
    refine ⟨hkind.trans (MediaKind.parse_eq_some hk), ?_, ?_⟩
    case refine_1 => rw [hwidth, tryU8_eq_ok hw]
    case refine_2 => rw [hlength, length_of_mapM hl]

end LabelPrinterMedia

end LabInventory
