import Mathlib

-- Numbers that are not negative, and the operations of `Float` on them.
open Float.Model UnpackedFloat

namespace Binary64

-- Normal numbers, the exponents of which are not too small or too large for anything.
structure Canonical (k m : Nat) (e : Int) : Prop where
  lower : 2 ^ 52 ≤ m
  upper : m < 2 ^ 53
  min : -k ≤ e
  max : e ≤ 900

variable {k m : Nat} {e : Int}

theorem Canonical.pos (h : Canonical k m e) : 0 < m :=
  lt_of_lt_of_le (by norm_num) h.lower

theorem Canonical.log2 (h : Canonical k m e) : m.log2 = 52 :=
  (Nat.log2_eq_iff h.pos.ne').mpr ⟨h.lower, h.upper⟩

section Pack

theorem unpackSign_packComponents {spec : Format} {sign exponent mantissa} :
    unpackSign (packComponents spec sign exponent mantissa) = sign.toBitVec := by
  ext i hi
  obtain rfl : i = 0 := by omega
  simp [unpackSign, packComponents, BitVec.getLsbD_append, BitVec.getElem_append]

theorem unpack_pack (h : Canonical k m e) (hk : k ≤ 1000) :
    (Float.Model.pack (.finite .positive m e h.pos)).unpack = .finite .positive m e h.pos := by
  have hmin := h.min
  have hmax := h.max
  have hb : (e + 1023 + 52).toNat < 2 ^ 11 - 1 := by omega
  have hp : UnpackedFloat.pack .binary64 (.finite .positive m e h.pos) =
      packComponents .binary64 .positive (.ofNat 11 (e + 1023 + 52).toNat) (.ofNat 52 m) := by
    have hlog : m.log2 + 1 = Format.mantissaBits .binary64 := by
      rw [h.log2]
      rfl
    unfold UnpackedFloat.pack
    dsimp only
    rw [if_neg ?_, if_pos hlog]
    case _ => rfl
    case _ =>
      change ¬2 ^ 11 ≤ (e + 1023 + 52).toNat + 1
      omega
  change UnpackedFloat.unpack .binary64 (UnpackedFloat.pack .binary64 (.finite .positive m e h.pos)) = _
  rw [hp]
  unfold UnpackedFloat.unpack
  simp only [unpackExponent_packComponents, unpackMantissa_packComponents, unpackSign_packComponents]
  have he : (BitVec.ofNat 11 (e + 1023 + 52).toNat).toNat = (e + 1023 + 52).toNat := by
    rw [BitVec.toNat_ofNat, Nat.mod_eq_of_lt (by omega)]
  rw [if_neg ?_, if_neg ?_]
  case _ =>
    have hm : (1#1 ++ BitVec.ofNat 52 m).toNat = m := by
      have hl := h.lower
      have hu := h.upper
      rw [BitVec.toNat_append, ← Nat.shiftLeft_add_eq_or_of_lt (BitVec.isLt _), BitVec.toNat_ofNat]
      norm_num at hl hu ⊢
      omega
    have hx : ((BitVec.ofNat 11 (e + 1023 + 52).toNat).toNat : Int) - (1023 + 52) = e := by
      rw [he]
      omega
    congr 1
  case _ =>
    intro h0
    have ht := congrArg BitVec.toNat h0
    rw [he] at ht
    norm_num at ht
    omega
  case _ =>
    intro h0
    have ht := congrArg BitVec.toNat h0
    rw [he] at ht
    norm_num at ht
    omega

end Pack

section Round

-- The mantissa without its last `s` bits, with ties to even.
def roundMantissa (m s : Nat) : Nat :=
  let r := m % 2 ^ s
  if 2 * r < 2 ^ s ∨ 2 * r = 2 ^ s ∧ m / 2 ^ s % 2 = 0 then m / 2 ^ s else m / 2 ^ s + 1

def rounded (m : Nat) (e : Int) : Nat × Int :=
  let s := m.log2 - 52
  let r := roundMantissa m s
  if r = 2 ^ 53 then (2 ^ 52, e + s + 1) else (r, e + s)

variable {n s : Nat} {em : ExtendedMantissa}

theorem roundMantissa_mem : m / 2 ^ s ≤ roundMantissa m s ∧ roundMantissa m s ≤ m / 2 ^ s + 1 := by
  unfold roundMantissa
  dsimp only
  split <;> omega

theorem mantissa_shiftRight : (em >>> n).mantissa = em.mantissa / 2 ^ n := by
  induction n
  case zero => exact (Nat.div_one _).symm
  case succ n ih =>
    have hs : (em >>> (n + 1)).mantissa = (em >>> n).mantissa / 2 := rfl
    rw [hs, ih, Nat.div_div_eq_div_mul, Nat.pow_succ]

-- The two bits remember whether anything has been lost.
theorem bits_shiftRight : ((ExtendedMantissa.mk m false false >>> n).roundBit ||
    (ExtendedMantissa.mk m false false >>> n).stickyBit) = decide (m % 2 ^ n ≠ 0) := by
  induction n
  case zero =>
    rw [Nat.pow_zero, Nat.mod_one]
    rfl
  case succ n ih =>
    have hr : (ExtendedMantissa.mk m false false >>> (n + 1)).roundBit =
        ((ExtendedMantissa.mk m false false >>> n).mantissa % 2 != 0) := rfl
    have hs : (ExtendedMantissa.mk m false false >>> (n + 1)).stickyBit =
        ((ExtendedMantissa.mk m false false >>> n).roundBit ||
          (ExtendedMantissa.mk m false false >>> n).stickyBit) := rfl
    have hm : m % 2 ^ (n + 1) ≠ 0 ↔ m / 2 ^ n % 2 ≠ 0 ∨ m % 2 ^ n ≠ 0 := by
      have hp := Nat.two_pow_pos n
      rw [Nat.mod_pow_succ, ne_eq, Nat.add_eq_zero_iff, Nat.mul_eq_zero]
      omega
    rw [hr, hs, ih, mantissa_shiftRight, Bool.eq_iff_iff]
    simp [hm]

theorem roundedMantissa_eq : em.roundedMantissa = if em.roundBit then
    if em.stickyBit then em.mantissa + 1 else em.mantissa + em.mantissa % 2 else em.mantissa := by
  obtain ⟨q, r, t⟩ := em
  cases r <;> cases t <;> rfl

theorem roundedMantissa_shiftRight :
    (ExtendedMantissa.mk m false false >>> s).roundedMantissa = roundMantissa m s := by
  cases s
  case zero =>
    have hr : roundMantissa m 0 = m := by
      simp [roundMantissa, Nat.mod_one]
    rw [hr]
    rfl
  case succ s =>
    have hr : (ExtendedMantissa.mk m false false >>> (s + 1)).roundBit =
        decide (m / 2 ^ s % 2 = 1) := by
      have hb : (ExtendedMantissa.mk m false false >>> (s + 1)).roundBit =
          ((ExtendedMantissa.mk m false false >>> s).mantissa % 2 != 0) := rfl
      rw [hb, mantissa_shiftRight, Bool.eq_iff_iff]
      simp
    have hs : (ExtendedMantissa.mk m false false >>> (s + 1)).stickyBit =
        decide (m % 2 ^ s ≠ 0) := bits_shiftRight
    have hm : (ExtendedMantissa.mk m false false >>> (s + 1)).mantissa = m / 2 ^ (s + 1) :=
      mantissa_shiftRight
    have hlt : m % 2 ^ s < 2 ^ s := Nat.mod_lt _ (Nat.two_pow_pos s)
    rw [roundedMantissa_eq, hr, hs, hm, roundMantissa, Nat.mod_pow_succ, Nat.pow_succ]
    simp only [decide_eq_true_eq]
    obtain hb | hb := Nat.mod_two_eq_zero_or_one (m / 2 ^ s)
    case inl =>
      rw [hb, if_neg (by decide), if_pos (.inl (by omega))]
    case inr =>
      rw [hb, if_pos rfl]
      by_cases hz : m % 2 ^ s = 0
      case pos =>
        rw [if_neg (not_not.mpr hz)]
        split <;> omega
      case neg => rw [if_pos hz, if_neg (by omega)]

-- The shift brings the mantissa to its 53 bits.
theorem shiftToTargetExponent_eq {e : Int} (hl : 52 ≤ m.log2) (he : -1000 ≤ e) :
    shiftToTargetExponent .binary64 m e .exact =
      (ExtendedMantissa.mk m false false >>> (m.log2 - 52), e + (m.log2 - 52 : Nat)) := by
  have ht : (Format.targetExponent .binary64 (totalExponent m e) - e).toNat = m.log2 - 52 := by
    have hb : (Format.mantissaBits .binary64 : Int) = 53 := rfl
    have hm : Format.minExponent .binary64 = -1074 := by decide
    simp only [Format.targetExponent, totalExponent, hb, hm]
    omega
  simp only [shiftToTargetExponent, shiftToExponent, ht]
  rfl

theorem abs_shift_sub_le {r : Nat} (hl : m / 2 ^ s ≤ r) (hu : r ≤ m / 2 ^ s + 1) :
    |(r * 2 ^ (e + s) - m * 2 ^ e : ℚ)| ≤ 2 ^ (s + e : ℤ) := by
  have hpos : (0 : ℚ) < 2 ^ e := zpow_pos (by norm_num) e
  have hdiv := Nat.div_add_mod m (2 ^ s)
  have hmod : m % 2 ^ s < 2 ^ s := Nat.mod_lt _ (Nat.two_pow_pos s)
  have h₁ : r * 2 ^ s ≤ m + 2 ^ s := by
    have := Nat.mul_le_mul_right (2 ^ s) hu
    rw [Nat.add_mul, Nat.one_mul, Nat.mul_comm (m / 2 ^ s)] at this
    omega
  have h₂ : m ≤ r * 2 ^ s + 2 ^ s := by
    have := Nat.mul_le_mul_right (2 ^ s) hl
    rw [Nat.mul_comm (m / 2 ^ s)] at this
    omega
  have h₁ : (r * 2 ^ s - m : ℚ) ≤ 2 ^ s := by
    have : ((r * 2 ^ s : Nat) : ℚ) ≤ (m + 2 ^ s : Nat) := Nat.cast_le.mpr h₁
    push_cast at this
    linarith
  have h₂ : -2 ^ s ≤ (r * 2 ^ s - m : ℚ) := by
    have : (m : ℚ) ≤ (r * 2 ^ s + 2 ^ s : Nat) := Nat.cast_le.mpr h₂
    push_cast at this
    linarith
  calc |(r * 2 ^ (e + s) - m * 2 ^ e : ℚ)| = |(r * 2 ^ s - m : ℚ)| * 2 ^ e := by
        rw [zpow_add₀ (by norm_num), zpow_natCast, ← abs_of_pos hpos, ← abs_mul, abs_of_pos hpos]
        ring_nf
    _ ≤ 2 ^ s * 2 ^ e := mul_le_mul_of_nonneg_right (abs_le.mpr ⟨h₂, h₁⟩) hpos.le
    _ = 2 ^ (s + e : ℤ) := by rw [zpow_add₀ (by norm_num), zpow_natCast]

theorem ne_zero (hl : 2 ^ 52 ≤ m) : m ≠ 0 := by
  rintro rfl
  norm_num at hl

theorem le_log2 (hl : 2 ^ 52 ≤ m) : 52 ≤ m.log2 :=
  (Nat.le_log2 (ne_zero hl)).mpr hl

theorem div_lower (hl : 2 ^ 52 ≤ m) : 2 ^ 52 ≤ m / 2 ^ (m.log2 - 52) := by
  have hlog := le_log2 hl
  rw [Nat.le_div_iff_mul_le (Nat.two_pow_pos _), ← Nat.pow_add, Nat.add_sub_cancel' hlog]
  exact Nat.log2_self_le (ne_zero hl)

theorem div_upper (hl : 2 ^ 52 ≤ m) : m / 2 ^ (m.log2 - 52) < 2 ^ 53 := by
  have hlog := le_log2 hl
  have hs : 53 + (m.log2 - 52) = m.log2 + 1 := by omega
  rw [Nat.div_lt_iff_lt_mul (Nat.two_pow_pos _), ← Nat.pow_add, hs]
  exact Nat.lt_log2_self

-- One more bit is needed if there is a carry.
theorem rounded_cases (hl : 2 ^ 52 ≤ m) (hmin : -k ≤ e) (hmax : m.log2 + e ≤ 951) :
    let s := m.log2 - 52
    let r := roundMantissa m s
    (rounded m e = (r, e + s) ∧ Canonical k r (e + s)) ∨
      (r = 2 ^ 53 ∧ rounded m e = (2 ^ 52, e + s + 1) ∧ Canonical k (2 ^ 52) (e + s + 1)) := by
  intro s r
  have hr : m / 2 ^ s ≤ r ∧ r ≤ m / 2 ^ s + 1 := roundMantissa_mem
  have hlow : 2 ^ 52 ≤ m / 2 ^ s := div_lower hl
  have hupp : m / 2 ^ s < 2 ^ 53 := div_upper hl
  have hlog := le_log2 hl
  by_cases hcarry : r = 2 ^ 53
  case pos => exact .inr ⟨hcarry, if_pos hcarry, le_refl _, by norm_num, by omega, by omega⟩
  case neg => exact .inl ⟨if_neg hcarry, hlow.trans hr.left, by omega, by omega, by omega⟩

theorem canonical_rounded (hl : 2 ^ 52 ≤ m) (hmin : -k ≤ e) (hmax : m.log2 + e ≤ 951) :
    Canonical k (rounded m e).1 (rounded m e).2 := by
  obtain ⟨he, hc⟩ | ⟨-, he, hc⟩ := rounded_cases hl hmin hmax <;> exact he ▸ hc

theorem abs_rounded_sub_le (hl : 2 ^ 52 ≤ m) (hmin : -k ≤ e) (hmax : m.log2 + e ≤ 951) :
    |((rounded m e).1 * 2 ^ (rounded m e).2 - m * 2 ^ e : ℚ)| ≤ 2 ^ (m.log2 - 52 + e : ℤ) := by
  have hlog := le_log2 hl
  let s := m.log2 - 52
  let r := roundMantissa m s
  have hs : (m.log2 - 52 + e : ℤ) = s + e := by omega
  have herr : |(r * 2 ^ (e + s) - m * 2 ^ e : ℚ)| ≤ 2 ^ (s + e : ℤ) :=
    abs_shift_sub_le roundMantissa_mem.left roundMantissa_mem.right
  rw [hs]
  obtain ⟨he, -⟩ | ⟨hr, he, -⟩ := rounded_cases hl hmin hmax
  case inl => exact he ▸ herr
  case inr =>
    have hr : r = 2 ^ 53 := hr
    have hv : ((2 ^ 52 : Nat) * 2 ^ (e + s + 1) : ℚ) = r * 2 ^ (e + s) := by
      rw [hr, zpow_add₀ (by norm_num) _ 1]
      push_cast
      ring
    rw [he, hv]
    exact herr

theorem roundWithAccuracy_eq (hl : 2 ^ 52 ≤ m) (hk : k ≤ 1000) (hmin : -k ≤ e)
    (hmax : m.log2 + e ≤ 951) : roundWithAccuracy .binary64 .positive m e .exact =
      .finite .positive (rounded m e).1 (rounded m e).2 (canonical_rounded hl hmin hmax).pos := by
  have hlog := le_log2 hl
  let s := m.log2 - 52
  let r := roundMantissa m s
  have hfirst : shiftToTargetExponent .binary64 m e .exact =
      (ExtendedMantissa.mk m false false >>> s, e + s) := shiftToTargetExponent_eq hlog (by omega)
  have hr : (ExtendedMantissa.mk m false false >>> s).roundedMantissa = r := roundedMantissa_shiftRight
  have hround {m' : Nat} {e' : Int} (hc : Canonical k m' e')
      (hsecond : shiftToTargetExponent .binary64 r (e + s) .exact =
        (ExtendedMantissa.mk m' false false, e')) : roundWithAccuracy .binary64 .positive m e .exact =
      .finite .positive m' e' hc.pos := by
    simp only [roundWithAccuracy, hfirst, hr, hsecond, dif_neg hc.pos.ne']
  obtain ⟨he, hc⟩ | ⟨hcarry, he, hc⟩ := rounded_cases hl hmin hmax
  case inl =>
    have hsecond := shiftToTargetExponent_eq (m := r) (e := e + s) hc.log2.ge (by omega)
    rw [hc.log2] at hsecond
    rw [hround hc (hsecond.trans <| congrArg (Prod.mk _) (add_zero _))]
    simp only [he]
  case inr =>
    have hcarry : r = 2 ^ 53 := hcarry
    have hlog : r.log2 = 53 := by
      rw [hcarry]
      exact Nat.log2_two_pow
    have hsecond := shiftToTargetExponent_eq (m := r) (e := e + s) (by omega) (by omega)
    rw [hlog, hcarry] at hsecond
    rw [hround hc (hcarry ▸ hsecond)]
    simp only [he]

end Round

-- A mantissa and an exponent, or zero.
abbrev Number := Option (Nat × Int)

namespace Number

def value : Number → ℚ
  | none => 0
  | some (m, e) => m * 2 ^ e

def natural (n : Nat) : Number :=
  if n = 0 then none else some (n * 2 ^ (52 - n.log2), (n.log2 : Int) - 52)

def mul : Number → Number → Number
  | some (m₁, e₁), some (m₂, e₂) => some (rounded (m₁ * m₂) (e₁ + e₂))
  | _, _ => none

def add : Number → Number → Number
  | some (m₁, e₁), some (m₂, e₂) =>
    let e := min e₁ e₂
    some (rounded (m₁ * 2 ^ (e₁ - e).toNat + m₂ * 2 ^ (e₂ - e).toNat) e)
  | none, v | v, none => v

def le : Number → Number → Bool
  | none, _ => true
  | some _, none => false
  | some (m₁, e₁), some (m₂, e₂) => ((compare e₁ e₂).then (compare m₁ m₂)).isLE

end Number

-- The float is the number.
inductive Is (k : Nat) (x : Float) : Number → Prop
  | zero (h : x.toModel.unpack = .zero .positive) : Is k x none
  | normal (m : Nat) (e : Int) (hc : Canonical k m e)
    (h : x.toModel.unpack = .finite .positive m e hc.pos) : Is k x (some (m, e))

section Operations

open Number

variable {l : Nat} {x y : Float} {u v : Number} {N : Int}

theorem unpack_pack_zero : (Float.Model.pack (.zero .positive)).unpack = .zero .positive :=
  rfl

theorem Canonical.value_pos (h : Canonical k m e) : 0 < value (some (m, e)) :=
  mul_pos (Nat.cast_pos.mpr h.pos) (zpow_pos (by norm_num) e)

theorem Is.nonneg (h : Is k x u) : 0 ≤ u.value := by
  cases h
  case zero => exact le_refl 0
  case normal m e hc _ => exact hc.value_pos.le

theorem log2_add_le (hm : m ≠ 0) (h : value (some (m, e)) ≤ 2 ^ N) : m.log2 + e ≤ N := by
  have hl : ((2 ^ m.log2 : Nat) : ℚ) ≤ m := Nat.cast_le.mpr <| Nat.log2_self_le hm
  have hpos : (0 : ℚ) ≤ 2 ^ e := zpow_nonneg (by norm_num) e
  have hle : (2 : ℚ) ^ (m.log2 + e : ℤ) ≤ 2 ^ N := by
    rw [zpow_add₀ (by norm_num), zpow_natCast]
    push_cast at hl
    exact (mul_le_mul_of_nonneg_right hl hpos).trans h
  exact (zpow_le_zpow_iff_right₀ (by norm_num)).mp hle

theorem abs_value_rounded_sub_le (hl : 2 ^ 52 ≤ m) (hmin : -k ≤ e)
    (hb : value (some (m, e)) ≤ 2 ^ N) (hN : N ≤ 900) :
    |value (some (rounded m e)) - value (some (m, e))| ≤ 2 ^ (N - 52) := by
  have hlog := log2_add_le (ne_zero hl) hb
  exact (abs_rounded_sub_le hl hmin (by omega)).trans <|
    zpow_le_zpow_right₀ (by norm_num) (by omega)

-- The outcome of an operation, before it is packed.
theorem is_rounded {z : Float} {w : UnpackedFloat} (hz : z.toModel = .pack w) (hk : k ≤ 1000)
    (hw : w = roundWithAccuracy .binary64 .positive m e .exact) (hl : 2 ^ 52 ≤ m) (hmin : -k ≤ e)
    (hb : value (some (m, e)) ≤ 2 ^ N) (hN : N ≤ 900) : Is k z (some (rounded m e)) := by
  have hlog := log2_add_le (ne_zero hl) hb
  have hmax : m.log2 + e ≤ 951 := by omega
  refine .normal _ _ (canonical_rounded hl hmin hmax) ?_
  rw [hz, hw, roundWithAccuracy_eq hl hk hmin hmax]
  exact unpack_pack (canonical_rounded hl hmin hmax) hk

-- The float is the number, which is as good as a rational one.
structure Near (k : Nat) (x : Float) (u : Number) (q ε : ℚ) : Prop where
  is : Is k x u
  error : |u.value - q| ≤ ε

theorem near_rounded {z : Float} {w : UnpackedFloat} (hz : z.toModel = .pack w) (hk : k ≤ 1000)
    (hw : w = roundWithAccuracy .binary64 .positive m e .exact) (hl : 2 ^ 52 ≤ m) (hmin : -k ≤ e)
    (hb : value (some (m, e)) ≤ 2 ^ N) (hN : N ≤ 900) :
    Near k z (some (rounded m e)) (value (some (m, e))) (2 ^ (N - 52)) :=
  ⟨is_rounded hz hk hw hl hmin hb hN, abs_value_rounded_sub_le hl hmin hb hN⟩

theorem Is.near {ε : ℚ} (h : Is k x u) (hε : 0 ≤ ε) : Near k x u u.value ε := by
  refine ⟨h, ?_⟩
  rw [sub_self, abs_zero]
  exact hε

theorem value_mul {m₁ m₂ : Nat} {e₁ e₂ : Int} :
    value (some (m₁, e₁)) * value (some (m₂, e₂)) = value (some (m₁ * m₂, e₁ + e₂)) := by
  simp only [value, zpow_add₀ (show (2 : ℚ) ≠ 0 by norm_num)]
  push_cast
  ring

theorem Is.mul (hx : Is k x u) (hy : Is l y v) (hk : k + l ≤ 1000)
    (hb : u.value * v.value ≤ 2 ^ N) (hN : N ≤ 900) :
    Near (k + l) (x * y) (u.mul v) (u.value * v.value) (2 ^ (N - 52)) := by
  have hz : (x * y).toModel = .pack (.mul .binary64 x.toModel.unpack y.toModel.unpack) := rfl
  have herr : (0 : ℚ) ≤ 2 ^ (N - 52) := zpow_nonneg (by norm_num) _
  cases hx
  case zero hx =>
    have h : Is (k + l) (x * y) none := by
      refine .zero ?_
      rw [hz, hx]
      cases hy
      case zero hy =>
        rw [hy]
        exact unpack_pack_zero
      case normal hy =>
        rw [hy]
        exact unpack_pack_zero
    have hv : value none * v.value = value none := zero_mul _
    rw [hv]
    exact h.near herr
  case normal m₁ e₁ hc₁ hx =>
    cases hy
    case zero hy =>
      have h : Is (k + l) (x * y) none := by
        refine .zero ?_
        rw [hz, hx, hy]
        exact unpack_pack_zero
      have hv : value (some (m₁, e₁)) * value none = value none := mul_zero _
      rw [hv]
      exact h.near herr
    case normal m₂ e₂ hc₂ hy =>
      have hl : 2 ^ 52 ≤ m₁ * m₂ := hc₁.lower.trans <| Nat.le_mul_of_pos_right _ hc₂.pos
      have hmin := hc₁.min
      have hmin' := hc₂.min
      rw [value_mul] at hb ⊢
      rw [hx, hy] at hz
      exact near_rounded hz hk rfl hl (by omega) hb hN

theorem normalize_eq (hl : 2 ^ 52 ≤ m) (he : -1000 ≤ e) :
    UnpackedFloat.normalize .binary64 m e .positive = roundWithAccuracy .binary64 .positive m e .exact := by
  have hm : m ≠ 0 := by
    rintro rfl
    norm_num at hl
  have hlog : 52 ≤ m.log2 := (Nat.le_log2 hm).mpr hl
  have hgt : compare (m : Int) 0 = .gt := by
    rw [compare_gt_iff_gt]
    omega
  have ht : (e - Format.targetExponent .binary64 (totalExponent m e)).toNat = 0 := by
    have hb : (Format.mantissaBits .binary64 : Int) = 53 := rfl
    have hmin : Format.minExponent .binary64 = -1074 := by decide
    simp only [Format.targetExponent, totalExponent, hb, hmin]
    omega
  have hd : decreaseExponent m e (Format.targetExponent .binary64 (totalExponent m e)) = (m, e) := by
    simp only [decreaseExponent, ht, Nat.shiftLeft_zero, Nat.cast_zero, Int.sub_zero]
  simp only [UnpackedFloat.normalize, hgt, UnpackedFloat.round, Int.toNat_natCast, hd]

-- A normal number, written with a smaller exponent.
theorem Canonical.shift {t : Int} (hc : Canonical k m e) (h : t ≤ e) :
    2 ^ 52 ≤ m * 2 ^ (e - t).toNat ∧ value (some (m * 2 ^ (e - t).toNat, t)) = value (some (m, e)) := by
  obtain ⟨s, rfl⟩ : ∃ s : Nat, e = t + s := ⟨(e - t).toNat, by omega⟩
  have hs : (t + s - t).toNat = s := by omega
  rw [hs]
  refine ⟨hc.lower.trans <| Nat.le_mul_of_pos_right _ (Nat.two_pow_pos s), ?_⟩
  simp only [value, zpow_add₀ (show (2 : ℚ) ≠ 0 by norm_num), zpow_natCast]
  push_cast
  ring

theorem value_add {m₁ m₂ : Nat} :
    value (some (m₁, e)) + value (some (m₂, e)) = value (some (m₁ + m₂, e)) := by
  simp only [value]
  push_cast
  ring

theorem Is.add (hx : Is k x u) (hy : Is k y v) (hk : k ≤ 1000) (hb : u.value + v.value ≤ 2 ^ N)
    (hN : N ≤ 900) : Near k (x + y) (u.add v) (u.value + v.value) (2 ^ (N - 52)) := by
  have hz : (x + y).toModel = .pack (.add .binary64 x.toModel.unpack y.toModel.unpack) := rfl
  have herr : (0 : ℚ) ≤ 2 ^ (N - 52) := zpow_nonneg (by norm_num) _
  cases hx
  case zero hx =>
    have hadd : add none v = v := by
      cases v <;> rfl
    have hv : value none + v.value = v.value := zero_add _
    rw [hadd, hv]
    refine Is.near ?_ herr
    cases hy
    case zero hy =>
      refine .zero ?_
      rw [hz, hx, hy]
      rfl
    case normal m e hc hy =>
      refine .normal m e hc ?_
      rw [hz, hx, hy]
      exact unpack_pack hc hk
  case normal m₁ e₁ hc₁ hx =>
    cases hy
    case zero hy =>
      have hv : value (some (m₁, e₁)) + value none = value (some (m₁, e₁)) := add_zero _
      rw [hv]
      refine Is.near (.normal m₁ e₁ hc₁ ?_) herr
      rw [hz, hx, hy]
      exact unpack_pack hc₁ hk
    case normal m₂ e₂ hc₂ hy =>
      let e := min e₁ e₂
      let m := m₁ * 2 ^ (e₁ - e).toNat + m₂ * 2 ^ (e₂ - e).toNat
      obtain ⟨hl, hv₁⟩ := hc₁.shift (min_le_left e₁ e₂)
      obtain ⟨-, hv₂⟩ := hc₂.shift (min_le_right e₁ e₂)
      have hmin := hc₁.min
      have hmin' := hc₂.min
      have hl : 2 ^ 52 ≤ m := hl.trans <| Nat.le_add_right _ _
      have hv : value (some (m₁, e₁)) + value (some (m₂, e₂)) = value (some (m, e)) := by
        rw [← hv₁, ← hv₂, value_add]
      have hw : UnpackedFloat.add .binary64 x.toModel.unpack y.toModel.unpack =
          roundWithAccuracy .binary64 .positive m e .exact := by
        rw [hx, hy, ← normalize_eq hl (by omega)]
        simp only [UnpackedFloat.add, decreaseExponent, Nat.shiftLeft_eq, Sign.apply, m, e]
        rfl
      rw [hv] at hb ⊢
      exact near_rounded hz hk hw hl (by omega) hb hN

-- A smaller exponent is a smaller number.
theorem Canonical.value_lt {m₁ m₂ : Nat} {e₁ e₂ : Int} (hc₁ : Canonical k m₁ e₁)
    (hc₂ : Canonical l m₂ e₂) (h : e₁ < e₂) : value (some (m₁, e₁)) < value (some (m₂, e₂)) := by
  obtain ⟨-, hv⟩ := hc₂.shift h.le
  have hs : 1 ≤ (e₂ - e₁).toNat := by omega
  have hpos : (0 : ℚ) < 2 ^ e₁ := zpow_pos (by norm_num) e₁
  have hlt : m₁ < m₂ * 2 ^ (e₂ - e₁).toNat := by
    have hp := Nat.pow_le_pow_right (show 0 < 2 by norm_num) hs
    have hmul := Nat.mul_le_mul hc₂.lower hp
    have hu := hc₁.upper
    omega
  rw [← hv]
  exact mul_lt_mul_of_pos_right (Nat.cast_lt.mpr hlt) hpos

theorem Canonical.le_iff {m₁ m₂ : Nat} {e₁ e₂ : Int} (hc₁ : Canonical k m₁ e₁)
    (hc₂ : Canonical l m₂ e₂) :
    le (some (m₁, e₁)) (some (m₂, e₂)) ↔ value (some (m₁, e₁)) ≤ value (some (m₂, e₂)) := by
  change ((compare e₁ e₂).then (compare m₁ m₂)).isLE ↔ _
  rcases lt_trichotomy e₁ e₂ with h | rfl | h
  case inl =>
    rw [compare_lt_iff_lt.mpr h]
    exact iff_of_true rfl (hc₁.value_lt hc₂ h).le
  case inr.inl =>
    have hpos : (0 : ℚ) < 2 ^ e₁ := zpow_pos (by norm_num) e₁
    simp only [value]
    rw [compare_eq_iff_eq.mpr rfl, Ordering.eq_then, mul_le_mul_iff_left₀ hpos, Nat.cast_le,
      Nat.isLE_compare]
  case inr.inr =>
    rw [compare_gt_iff_gt.mpr h]
    exact iff_of_false (by simp) (not_le.mpr <| hc₂.value_lt hc₁ h)

theorem Is.le_iff_le (hx : Is k x u) (hy : Is l y v) : x ≤ y ↔ u.le v := by
  have hle : x ≤ y ↔ UnpackedFloat.le x.toModel.unpack y.toModel.unpack = true := decide_eq_true_iff
  rw [hle]
  cases hx
  case zero hx =>
    rw [hx]
    cases hy
    case zero hy =>
      rw [hy]
      exact iff_of_true rfl rfl
    case normal hy =>
      rw [hy]
      exact iff_of_true rfl rfl
  case normal hx =>
    rw [hx]
    cases hy
    case zero hy =>
      rw [hy]
      rfl
    case normal hy =>
      rw [hy]
      rfl

theorem Is.le_iff (hx : Is k x u) (hy : Is l y v) : x ≤ y ↔ u.value ≤ v.value := by
  rw [hx.le_iff_le hy]
  have hu := hx.nonneg
  have hv := hy.nonneg
  cases hx
  case zero => exact iff_of_true rfl hv
  case normal hc₁ _ =>
    cases hy
    case zero => exact iff_of_false nofun (not_le.mpr hc₁.value_pos)
    case normal hc₂ _ => exact hc₁.le_iff hc₂

theorem value_natural {n : Nat} (h : n < 2 ^ 53) : (natural n).value = n := by
  unfold natural
  by_cases hn : n = 0
  case pos =>
    rw [if_pos hn, hn]
    rfl
  case neg =>
    have hlog := (Nat.log2_lt hn).mpr h
    obtain ⟨s, hs⟩ : ∃ s, 52 = n.log2 + s := Nat.exists_eq_add_of_le (by omega)
    have he : (n.log2 : Int) - 52 = -s := by omega
    have hd : 52 - n.log2 = s := by omega
    rw [if_neg hn, he, hd]
    simp only [value, zpow_neg, zpow_natCast]
    push_cast
    exact mul_inv_cancel_right₀ (pow_ne_zero s (by norm_num)) _

theorem Canonical.rounded_eq (h : Canonical k m e) : rounded m e = (m, e) := by
  have hr : roundMantissa m (m.log2 - 52) = m := by
    rw [h.log2]
    simp [roundMantissa, Nat.mod_one]
  unfold rounded
  dsimp only
  rw [hr, h.log2, if_neg h.upper.ne]
  exact congrArg (Prod.mk _) (add_zero _)

theorem is_natural {z : Float} {n : Nat} (hz : z.toModel = .ofNat n) (h : n < 2 ^ 53) :
    Is 52 z (natural n) := by
  have hz : z.toModel = .pack (UnpackedFloat.normalize .binary64 n 0 .positive) := hz
  by_cases hn : n = 0
  case pos =>
    subst hn
    refine .zero ?_
    rw [hz]
    exact unpack_pack_zero
  case neg =>
    have hlog := (Nat.log2_lt hn).mpr h
    obtain ⟨s, hs⟩ : ∃ s, 52 = n.log2 + s := Nat.exists_eq_add_of_le (by omega)
    have hnat : natural n = some (n * 2 ^ s, -(s : Int)) := by
      have he : (n.log2 : Int) - 52 = -s := by omega
      have hd : 52 - n.log2 = s := by omega
      rw [natural, if_neg hn, he, hd]
    have hc : Canonical 52 (n * 2 ^ s) (-s) := by
      refine ⟨?_, ?_, by omega, by omega⟩
      case refine_1 =>
        rw [hs, Nat.pow_add]
        exact Nat.mul_le_mul_right _ (Nat.log2_self_le hn)
      case refine_2 =>
        have hlt := Nat.mul_lt_mul_of_pos_right (Nat.lt_log2_self (n := n)) (Nat.two_pow_pos s)
        have hp : n.log2 + 1 + s = 53 := by omega
        rwa [← Nat.pow_add, hp] at hlt
    have hgt : compare (n : Int) 0 = .gt := by
      rw [compare_gt_iff_gt]
      omega
    have hd : decreaseExponent n 0 (Format.targetExponent .binary64 (totalExponent n 0)) =
        (n * 2 ^ s, -(s : Int)) := by
      have ht : (0 - Format.targetExponent .binary64 (totalExponent n 0)).toNat = s := by
        have hb : (Format.mantissaBits .binary64 : Int) = 53 := rfl
        have hmin : Format.minExponent .binary64 = -1074 := by decide
        simp only [Format.targetExponent, totalExponent, hb, hmin]
        omega
      unfold decreaseExponent
      dsimp only
      rw [ht, Nat.shiftLeft_eq, Int.zero_sub]
    have hw : UnpackedFloat.normalize .binary64 n 0 .positive =
        roundWithAccuracy .binary64 .positive (n * 2 ^ s) (-s) .exact := by
      simp only [UnpackedFloat.normalize, hgt, UnpackedFloat.round, Int.toNat_natCast, hd]
    have hb : (natural n).value ≤ 2 ^ (53 : Int) := by
      rw [value_natural h]
      exact_mod_cast h.le
    have his := is_rounded hz (by decide) hw hc.lower hc.min (hnat ▸ hb) (by decide)
    rw [hnat]
    rwa [hc.rounded_eq] at his

end Operations

section Errors

variable {l : Nat} {x y : Float} {u v : Number} {N : Int} {p q δ ε : ℚ}

theorem Near.mono (h : Near k x u q δ) (hε : δ ≤ ε) : Near k x u q ε :=
  ⟨h.is, h.error.trans hε⟩

theorem near_natural {z : Float} {n : Nat} (hz : z.toModel = .ofNat n) (h : n < 2 ^ 53) :
    Near 52 z (.natural n) n 0 :=
  value_natural h ▸ (is_natural hz h).near (le_refl 0)

theorem Near.add (hx : Near k x u p δ) (hy : Near k y v q ε) (hk : k ≤ 1000)
    (hb : p + q + δ + ε ≤ 2 ^ N) (hN : N ≤ 900) :
    Near k (x + y) (u.add v) (p + q) (δ + ε + 2 ^ (N - 52)) := by
  have hu := abs_le.mp hx.error
  have hv := abs_le.mp hy.error
  obtain ⟨his, herr⟩ := hx.is.add hy.is hk (by linarith) hN
  have herr := abs_le.mp herr
  exact ⟨his, abs_le.mpr ⟨by linarith, by linarith⟩⟩

theorem Near.mul (hx : Near k x u p δ) (hy : Near l y v q ε) (hp : 0 ≤ p) (hq : 0 ≤ q)
    (hk : k + l ≤ 1000) (hb : (p + δ) * (q + ε) ≤ 2 ^ N) (hN : N ≤ 900) :
    Near (k + l) (x * y) (u.mul v) (p * q) (p * ε + q * δ + δ * ε + 2 ^ (N - 52)) := by
  have hu := abs_le.mp hx.error
  have hv := abs_le.mp hy.error
  have hle : u.value * v.value ≤ (p + δ) * (q + ε) :=
    mul_le_mul (by linarith) (by linarith) hy.is.nonneg (by linarith [hx.is.nonneg])
  obtain ⟨his, herr⟩ := hx.is.mul hy.is hk (hle.trans hb) hN
  refine ⟨his, ?_⟩
  -- `uv - pq = p(v - q) + q(u - p) + (u - p)(v - q)`
  have hsplit : (u.mul v).value - p * q = ((u.mul v).value - u.value * v.value) +
      (p * (v.value - q) + q * (u.value - p) + (u.value - p) * (v.value - q)) := by ring
  have h₁ : |p * (v.value - q)| ≤ p * ε := by
    rw [abs_mul, abs_of_nonneg hp]
    exact mul_le_mul_of_nonneg_left hy.error hp
  have h₂ : |q * (u.value - p)| ≤ q * δ := by
    rw [abs_mul, abs_of_nonneg hq]
    exact mul_le_mul_of_nonneg_left hx.error hq
  have h₃ : |(u.value - p) * (v.value - q)| ≤ δ * ε := by
    rw [abs_mul]
    exact mul_le_mul hx.error hy.error (abs_nonneg _) ((abs_nonneg _).trans hx.error)
  rw [hsplit]
  calc |(u.mul v).value - u.value * v.value +
          (p * (v.value - q) + q * (u.value - p) + (u.value - p) * (v.value - q))|
      ≤ |(u.mul v).value - u.value * v.value| +
          (|p * (v.value - q)| + |q * (u.value - p)| + |(u.value - p) * (v.value - q)|) :=
        (abs_add_le _ _).trans <| add_le_add_right
          ((abs_add_le _ _).trans <| add_le_add_left (abs_add_le _ _) _) _
    _ ≤ p * ε + q * δ + δ * ε + 2 ^ (N - 52) := by linarith

end Errors

section Tables

variable {x : Float} {q ε : ℚ}

def read (x : Float) : Number :=
  match x.toModel.unpack with
  | .finite _ m e _ => some (m, e)
  | _ => none

-- Rows of tables are checked by evaluation.
def isNear (k : Nat) (x : Float) (q ε : ℚ) : Bool :=
  match x.toModel.unpack with
  | .zero .positive => decide (|q| ≤ ε)
  | .finite .positive m e _ =>
    decide (2 ^ 52 ≤ m ∧ m < 2 ^ 53 ∧ -k ≤ e ∧ e ≤ 0 ∧ |m - q * 2 ^ (-e).toNat| ≤ ε * 2 ^ (-e).toNat)
  | _ => false

theorem near_read (h : isNear k x q ε) : Near k x (read x) q ε := by
  unfold isNear at h
  split at h
  case h_1 hx =>
    have hr : read x = none := by
      rw [read, hx]
    rw [hr]
    refine ⟨.zero hx, ?_⟩
    rw [Number.value, zero_sub, abs_neg]
    exact of_decide_eq_true h
  case h_2 m e hm hx =>
    obtain ⟨hl, hu, hmin, hmax, herr⟩ := of_decide_eq_true h
    have hr : read x = some (m, e) := by
      rw [read, hx]
    rw [hr]
    refine ⟨.normal m e ⟨hl, hu, hmin, by omega⟩ hx, ?_⟩
    obtain ⟨n, rfl⟩ : ∃ n : Nat, e = -n := ⟨(-e).toNat, by omega⟩
    have hn : (- -(n : Int)).toNat = n := by omega
    have hpos : (0 : ℚ) < 2 ^ n := pow_pos (by norm_num) n
    rw [hn] at herr
    have he : (m * 2 ^ (-n : Int) - q : ℚ) = (m - q * 2 ^ n) / 2 ^ n := by
      rw [zpow_neg, zpow_natCast, sub_div, mul_div_cancel_right₀ _ hpos.ne', div_eq_mul_inv]
    rw [Number.value, he, abs_div, abs_of_pos hpos, div_le_iff₀ hpos]
    exact herr
  case h_3 => exact nomatch h

end Tables

end Binary64
