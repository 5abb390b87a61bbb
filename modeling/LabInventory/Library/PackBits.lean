import Mathlib.Data.List.Basic

namespace PackBits

inductive Packet
  | run (n : Nat) (b : UInt8)
  | literal (bytes : List UInt8)

namespace Packet

-- The data that a packet stands for.
def bytes : Packet → List UInt8
  | run n b => .replicate n b
  | literal bytes => bytes

def encode : Packet → List UInt8
  | run n b => [.ofNat (257 - n), b]
  | literal bytes => .ofNat (bytes.length - 1) :: bytes

def control : Packet → UInt8
  | run n _ => .ofNat (257 - n)
  | literal bytes => .ofNat (bytes.length - 1)

-- The length fits into the control byte, and is not confused with the other kind.
def Valid : Packet → Prop
  | run n _ => 2 ≤ n ∧ n ≤ 128
  | literal bytes => 1 ≤ bytes.length ∧ bytes.length ≤ 128

theorem Valid.toNat_control {p : Packet} (h : p.Valid) : p.control.toNat =
    match p with
    | run n _ => 257 - n
    | literal bytes => bytes.length - 1 := by
  cases p
  case run n b =>
    have hl := h.left
    exact UInt8.toNat_ofNat'.trans <| Nat.mod_eq_of_lt (by omega)
  case literal bs =>
    have hu := h.right
    exact UInt8.toNat_ofNat'.trans <| Nat.mod_eq_of_lt (by omega)

theorem Valid.control_ne {p : Packet} (h : p.Valid) : p.control ≠ 128 := by
  intro he
  have hc := h.toNat_control
  rw [he] at hc
  cases p
  case run n b =>
    have hc : 128 = 257 - n := hc
    have hu := h.right
    omega
  case literal bs =>
    have hc : 128 = bs.length - 1 := hc
    have hu := h.right
    omega

theorem Valid.length_bytes {p : Packet} (h : p.Valid) :
    1 ≤ p.bytes.length ∧ p.bytes.length ≤ 128 := by
  cases p
  case run n b =>
    have hl : (bytes (run n b)).length = n := List.length_replicate
    rw [hl]
    exact ⟨Nat.le_of_lt h.left, h.right⟩
  case literal bs => exact h

theorem Valid.length_encode_le {p : Packet} (h : p.Valid) :
    p.encode.length ≤ 2 * p.bytes.length := by
  cases p
  case run n b =>
    have hl : (bytes (run n b)).length = n := List.length_replicate
    rw [hl]
    exact Nat.mul_le_mul_left 2 (Nat.le_of_lt h.left)
  case literal bs =>
    have hl : (encode (literal bs)).length = bs.length + 1 := rfl
    have hb : bytes (literal bs) = bs := rfl
    rw [hl, hb]
    have := h.left
    omega

end Packet

-- The control byte 128 stands for nothing.
def unpack : List UInt8 → Option (List UInt8)
  | [] => some []
  | n :: bytes =>
    if n.toNat < 128 then
      if n.toNat < bytes.length then
        (unpack (bytes.drop (n.toNat + 1))).map (bytes.take (n.toNat + 1) ++ ·)
      else
        none
    else if n.toNat = 128 then
      unpack bytes
    else
      match bytes with
      | [] => none
      | b :: bytes => (unpack bytes).map (.replicate (257 - n.toNat) b ++ ·)
termination_by bytes => bytes.length
decreasing_by
  · exact Nat.lt_succ_of_le (List.length_drop ▸ Nat.sub_le _ _)
  · exact Nat.lt_succ_self _
  · exact Nat.lt_succ_of_lt (Nat.lt_succ_self _)

-- The control bytes, each with the data that it stands for.
def controls : List UInt8 → Option (List (UInt8 × List UInt8))
  | [] => some []
  | n :: bytes =>
    if n.toNat < 128 then
      if n.toNat < bytes.length then
        (controls (bytes.drop (n.toNat + 1))).map ((n, bytes.take (n.toNat + 1)) :: ·)
      else
        none
    else if n.toNat = 128 then
      (controls bytes).map ((n, []) :: ·)
    else
      match bytes with
      | [] => none
      | b :: bytes => (controls bytes).map ((n, .replicate (257 - n.toNat) b) :: ·)
termination_by bytes => bytes.length
decreasing_by
  · exact Nat.lt_succ_of_le (List.length_drop ▸ Nat.sub_le _ _)
  · exact Nat.lt_succ_self _
  · exact Nat.lt_succ_of_lt (Nat.lt_succ_self _)

open Packet

variable {p : Packet} {ps : List Packet} {rest data : List UInt8}

theorem unpack_eq_controls : unpack data = (controls data).map (·.flatMap Prod.snd) := by
  induction data using controls.induct
  case case1 =>
    rw [unpack.eq_1, controls.eq_1]
    rfl
  case case2 n bytes hn hl ih =>
    rw [unpack.eq_def, controls.eq_def]
    simp only [hn, hl, if_true, ih, Option.map_map]
    rfl
  case case3 n bytes hn hl =>
    rw [unpack.eq_def, controls.eq_def]
    simp only [hn, hl, if_true, if_false]
    rfl
  case case4 n bytes hn he ih =>
    rw [unpack.eq_def, controls.eq_def]
    simp only [hn, if_false]
    simp only [he, if_true, ih, Option.map_map]
    rfl
  case case5 n hn he =>
    rw [unpack.eq_def, controls.eq_def]
    simp only [hn, he, if_false]
    rfl
  case case6 n hn he b bytes ih =>
    rw [unpack.eq_def, controls.eq_def]
    simp only [hn, he, if_false, ih, Option.map_map]
    rfl

theorem controls_encode (h : p.Valid) :
    controls (p.encode ++ rest) = (controls rest).map ((p.control, p.bytes) :: ·) := by
  have hn := h.toNat_control
  cases p
  case run n b =>
    obtain ⟨hl, hu⟩ := h
    have hn : (UInt8.ofNat (257 - n)).toNat = 257 - n := hn
    have he : (run n b).encode ++ rest = .ofNat (257 - n) :: b :: rest := rfl
    rw [he, controls, hn, if_neg (by omega), if_neg (by omega)]
    have hs : 257 - (257 - n) = n := by omega
    rw [hs]
    rfl
  case literal bs =>
    obtain ⟨hl, hu⟩ := h
    have hn : (UInt8.ofNat (bs.length - 1)).toNat = bs.length - 1 := hn
    have he : (literal bs).encode ++ rest = .ofNat (bs.length - 1) :: (bs ++ rest) := rfl
    have hs : bs.length - 1 + 1 = bs.length := by omega
    rw [he, controls.eq_def]
    dsimp only
    rw [hn, if_pos (by omega), if_pos (by rw [List.length_append]; omega), hs, List.drop_left,
      List.take_left]
    rfl

theorem controls_flatMap_encode (h : ∀ p ∈ ps, p.Valid) :
    controls (ps.flatMap encode) = some (ps.map fun p => (p.control, p.bytes)) := by
  induction ps
  case nil => exact controls.eq_1
  case cons p ps ih =>
    rw [List.flatMap_cons, controls_encode (h p List.mem_cons_self),
      ih fun p hp => h p (List.mem_cons_of_mem _ hp)]
    rfl

theorem unpack_flatMap_encode (h : ∀ p ∈ ps, p.Valid) :
    unpack (ps.flatMap encode) = some (ps.flatMap bytes) := by
  rw [unpack_eq_controls, controls_flatMap_encode h, Option.map_some, List.flatMap_map]

theorem length_flatMap_encode_le (h : ∀ p ∈ ps, p.Valid) :
    (ps.flatMap encode).length ≤ 2 * (ps.flatMap bytes).length := by
  induction ps
  case nil => exact Nat.le_refl 0
  case cons p ps ih =>
    have hp := (h p List.mem_cons_self).length_encode_le
    have hps := ih fun p hp => h p (List.mem_cons_of_mem _ hp)
    rw [List.flatMap_cons, List.flatMap_cons, List.length_append, List.length_append]
    omega

end PackBits
