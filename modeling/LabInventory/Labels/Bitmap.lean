import LabInventory.LabelPrinting.Printer
import LabInventory.Library.Binary64

open Binary64

namespace LabInventory

namespace Labels

def blackThreshold : Float := 127

-- `Math.ceil(widthDots / 8)`
def rowBytes (widthDots : Nat) : Nat :=
  (widthDots + 7) / 8

def luminance (red green blue alpha : Float) : Float :=
  let alpha := alpha / 255
  (0.299 * red + 0.587 * green + 0.114 * blue) * alpha + 255 * (1 - alpha)

-- There is no number beyond the end of the pixels.
def component (pixels : List UInt8) (offset : Nat) : Float :=
  (pixels[offset]?.map UInt8.toFloat).getD (0 / 0)

def packPixel (pixels : List UInt8) (widthDots stride y : Nat) (packed : List UInt8) (x : Nat) :
    List UInt8 :=
  let offset := (y * widthDots + x) * 4
  let luminance := luminance (component pixels offset) (component pixels (offset + 1))
    (component pixels (offset + 2)) (component pixels (offset + 3))
  if luminance ≤ blackThreshold then
    packed.modify (y * stride + x >>> 3) (· ||| (0x80 : UInt8) >>> UInt8.ofNat (x &&& 7))
  else
    packed

def packPixels (pixels : List UInt8) (widthDots heightDots : Nat) : List UInt8 :=
  let stride := rowBytes widthDots
  (List.range heightDots).foldl
    (fun packed y => (List.range widthDots).foldl (packPixel pixels widthDots stride y) packed)
    (.replicate (stride * heightDots) 0)

structure Pixel where
  red : UInt8
  green : UInt8
  blue : UInt8
  alpha : UInt8
deriving DecidableEq

def pixelAt (pixels : List UInt8) (index : Nat) : Option Pixel := do
  let red ← pixels[index * 4]?
  let green ← pixels[index * 4 + 1]?
  let blue ← pixels[index * 4 + 2]?
  let alpha ← pixels[index * 4 + 3]?
  return { red, green, blue, alpha }

namespace Pixel

def luminance (pixel : Pixel) : Float :=
  Labels.luminance pixel.red.toFloat pixel.green.toFloat pixel.blue.toFloat pixel.alpha.toFloat

def level (pixel : Pixel) : Nat :=
  299 * pixel.red.toNat + 587 * pixel.green.toNat + 114 * pixel.blue.toNat

-- What the luminance is meant to be, composited over white.
def exactLuminance (pixel : Pixel) : ℚ :=
  let alpha : ℚ := pixel.alpha.toNat / 255
  (299 / 1000 * pixel.red.toNat + 587 / 1000 * pixel.green.toNat + 114 / 1000 * pixel.blue.toNat) *
    alpha + 255 * (1 - alpha)

def components (pixel : Pixel) : Nat × Nat × Nat × Nat :=
  (pixel.red.toNat, pixel.green.toNat, pixel.blue.toNat, pixel.alpha.toNat)

end Pixel

-- The luminance of these pixels is exactly at the threshold, and is rounded to be above it.
def misjudged : List (Nat × Nat × Nat × Nat) := [
  (0, 78, 151, 170), (3, 99, 35, 170), (4, 68, 192, 170), (7, 89, 76, 170), (8, 58, 233, 170),
  (11, 79, 117, 170), (15, 69, 158, 170), (18, 90, 42, 170), (22, 80, 83, 170), (23, 49, 240, 170),
  (26, 70, 124, 170), (30, 60, 165, 170), (34, 50, 206, 170), (38, 40, 247, 170),
  (41, 61, 131, 170), (44, 82, 15, 170), (45, 51, 172, 170), (48, 72, 56, 170), (49, 41, 213, 170),
  (52, 62, 97, 170), (53, 31, 254, 170), (56, 52, 138, 170), (59, 73, 22, 170), (60, 42, 179, 170),
  (63, 63, 63, 170), (64, 32, 220, 170), (71, 43, 145, 170), (75, 33, 186, 170), (78, 54, 70, 170),
  (79, 23, 227, 170), (82, 44, 111, 170), (86, 34, 152, 170), (89, 55, 36, 170),
  (90, 24, 193, 170), (94, 14, 234, 170), (97, 35, 118, 170), (100, 56, 2, 170),
  (101, 25, 159, 170), (104, 46, 43, 170), (105, 15, 200, 170), (108, 36, 84, 170),
  (109, 5, 241, 170), (112, 26, 125, 170), (115, 47, 9, 170), (119, 37, 50, 170),
  (120, 6, 207, 170), (123, 27, 91, 170), (127, 17, 132, 170), (131, 7, 173, 170),
  (138, 18, 98, 170), (142, 8, 139, 170), (145, 29, 23, 170), (153, 9, 105, 170),
  (160, 20, 30, 170), (164, 10, 71, 170), (168, 0, 112, 170), (175, 11, 37, 170),
  (179, 1, 78, 170), (201, 3, 10, 170), (137, 69, 31, 192), (193, 43, 18, 192), (242, 6, 80, 192),
  (1, 125, 159, 200), (16, 116, 166, 200), (27, 117, 132, 200), (31, 107, 173, 200),
  (57, 99, 146, 200), (72, 90, 153, 200), (87, 81, 160, 200), (98, 82, 126, 200),
  (110, 52, 249, 200), (113, 73, 133, 200), (128, 64, 140, 200), (136, 44, 222, 200),
  (139, 65, 106, 200), (151, 35, 229, 200), (154, 56, 113, 200), (169, 47, 120, 200),
  (192, 18, 209, 200), (207, 9, 216, 200), (210, 30, 100, 200), (218, 10, 182, 200),
  (233, 1, 189, 200), (244, 2, 155, 200), (85, 147, 64, 240), (126, 130, 44, 240),
  (167, 113, 24, 240), (231, 45, 254, 250)
]

section Luminance

variable {pixel : Pixel}

def red : Number := some (5386305154335113, -54)

def green : Number := some (5287225962532962, -53)

def blue : Number := some (8214565720323785, -56)

def threshold : Number := some (8936830510563328, -46)

theorem isNear_constants :
    isNear 64 0.299 (299 / 1000) (1 / 10 ^ 12) ∧ isNear 64 0.587 (587 / 1000) (1 / 10 ^ 12) ∧
    isNear 64 0.114 (114 / 1000) (1 / 10 ^ 12) ∧ isNear 64 blackThreshold 127 0 := by
  decide +kernel

theorem near_red : Near 64 0.299 red (299 / 1000) (1 / 10 ^ 12) := by
  obtain ⟨hn, _⟩ := isNear_constants
  have hr : read 0.299 = red := by rfl
  exact hr ▸ near_read hn

theorem near_green : Near 64 0.587 green (587 / 1000) (1 / 10 ^ 12) := by
  obtain ⟨_, hn, _⟩ := isNear_constants
  have hr : read 0.587 = green := by rfl
  exact hr ▸ near_read hn

theorem near_blue : Near 64 0.114 blue (114 / 1000) (1 / 10 ^ 12) := by
  obtain ⟨_, _, hn, _⟩ := isNear_constants
  have hr : read 0.114 = blue := by rfl
  exact hr ▸ near_read hn

theorem near_threshold : Near 64 blackThreshold threshold 127 0 := by
  obtain ⟨_, _, _, hn⟩ := isNear_constants
  have hr : read blackThreshold = threshold := by rfl
  exact hr ▸ near_read hn

-- The parts of the luminance that depend on the alpha value only.
theorem near_alphas : (List.range 256).all fun n =>
    isNear 64 ((UInt8.ofNat n).toFloat / 255) (n / 255) (1 / 10 ^ 12) &&
      isNear 180 (255 * (1 - (UInt8.ofNat n).toFloat / 255)) (255 * (1 - n / 255)) (1 / 10 ^ 12) := by
  decide +kernel

def white (alpha : UInt8) : Float :=
  255 * (1 - alpha.toFloat / 255)

theorem near_alpha (alpha : UInt8) :
    Near 64 (alpha.toFloat / 255) (read (alpha.toFloat / 255)) (alpha.toNat / 255) (1 / 10 ^ 12) ∧
      Near 180 (white alpha) (read (white alpha)) (255 * (1 - alpha.toNat / 255)) (1 / 10 ^ 12) := by
  have h := List.all_eq_true.mp near_alphas alpha.toNat (List.mem_range.mpr alpha.toNat_lt)
  obtain ⟨ha, hw⟩ := (Bool.and_eq_true _ _).mp h
  rw [UInt8.ofNat_toNat] at ha hw
  exact ⟨near_read ha, near_read hw⟩

def number (alpha white : Number) (r g b : Nat) : Number :=
  ((((red.mul (.natural r)).add (green.mul (.natural g))).add (blue.mul (.natural b))).mul alpha).add
    white

theorem near_component {k : Nat} {x : Float} {u : Number} {q : ℚ} (h : Near k x u q (1 / 10 ^ 12))
    (hk : k ≤ 900) (hq : 0 ≤ q) (hq₁ : q ≤ 9 / 10) (c : UInt8) :
    Near (k + 52) (x * c.toFloat) (u.mul (.natural c.toNat)) (q * c.toNat) (1 / 10 ^ 9) := by
  have hlt := c.toNat_lt
  have hc : Near 52 c.toFloat (.natural c.toNat) c.toNat 0 := near_natural rfl (by omega)
  have hle : (c.toNat : ℚ) ≤ 255 := by exact_mod_cast Nat.le_of_lt_succ hlt
  have hpos : (0 : ℚ) ≤ c.toNat := Nat.cast_nonneg _
  refine (h.mul (N := 8) hc hq hpos (by omega) ?_ (by decide)).mono ?_
  case refine_1 =>
    have hone : q + 1 / 10 ^ 12 ≤ 1 := by
      norm_num
      linarith
    rw [add_zero]
    calc (q + 1 / 10 ^ 12) * c.toNat ≤ 1 * 255 := mul_le_mul hone hle hpos (by norm_num)
      _ ≤ 2 ^ (8 : Int) := by norm_num
  case refine_2 =>
    norm_num
    linarith

-- The error is a tenth of the least distance between two luminances.
theorem near_number (pixel : Pixel) :
    Near 180 pixel.luminance
      (number (read (pixel.alpha.toFloat / 255)) (read (white pixel.alpha)) pixel.red.toNat
        pixel.green.toNat pixel.blue.toNat)
      pixel.exactLuminance (1 / 2550000) := by
  obtain ⟨ha, hw⟩ := near_alpha pixel.alpha
  have hr := near_component near_red (by decide) (by norm_num) (by norm_num) pixel.red
  have hg := near_component near_green (by decide) (by norm_num) (by norm_num) pixel.green
  have hb := near_component near_blue (by decide) (by norm_num) (by norm_num) pixel.blue
  have hle (c : UInt8) : (0 : ℚ) ≤ c.toNat ∧ (c.toNat : ℚ) ≤ 255 :=
    ⟨Nat.cast_nonneg _, by exact_mod_cast Nat.le_of_lt_succ c.toNat_lt⟩
  have hred := hle pixel.red
  have hgreen := hle pixel.green
  have hblue := hle pixel.blue
  have halpha := hle pixel.alpha
  have hpow : (2 : ℚ) ^ ((8 : Int) - 52) ≤ 1 / 10 ^ 13 := by norm_num
  have hrg := (hr.add (N := 8) hg (by decide) (by norm_num; linarith) (by decide)).mono
    (show _ ≤ (3 / 10 ^ 9 : ℚ) by linarith)
  have hrgb := (hrg.add (N := 8) hb (by decide) (by norm_num; linarith) (by decide)).mono
    (show _ ≤ (5 / 10 ^ 9 : ℚ) by linarith)
  have hsum : (299 / 1000 * pixel.red.toNat + 587 / 1000 * pixel.green.toNat +
      114 / 1000 * pixel.blue.toNat : ℚ) ≤ 255 := by linarith
  have hdiv : (pixel.alpha.toNat / 255 : ℚ) ≤ 1 := by linarith
  have hbound : (299 / 1000 * pixel.red.toNat + 587 / 1000 * pixel.green.toNat +
      114 / 1000 * pixel.blue.toNat + 5 / 10 ^ 9 : ℚ) * (pixel.alpha.toNat / 255 + 1 / 10 ^ 12) ≤
      2 ^ (8 : Int) := by
    calc _ ≤ (255 + 5 / 10 ^ 9 : ℚ) * (1 + 1 / 10 ^ 12) :=
        mul_le_mul (add_le_add_left hsum _) (add_le_add_left hdiv _) (by linarith) (by norm_num)
      _ ≤ 2 ^ (8 : Int) := by norm_num
  have hprod := (hrgb.mul (N := 8) ha (by linarith) (by linarith) (by decide) hbound
    (by decide)).mono (show _ ≤ (1 / 10 ^ 8 : ℚ) by nlinarith)
  have hmul := mul_le_mul_of_nonneg_right hsum (show (0 : ℚ) ≤ pixel.alpha.toNat / 255 by linarith)
  exact (hprod.add (N := 8) hw (by decide) (by norm_num; linarith) (by decide)).mono (by norm_num)

-- The exact luminance has only so many values.
theorem exactLuminance_eq : pixel.exactLuminance =
    (pixel.level * pixel.alpha.toNat + 255000 * (255 - pixel.alpha.toNat) : Nat) / 255000 := by
  have hlt := pixel.alpha.toNat_lt
  have hsub : ((255 - pixel.alpha.toNat : Nat) : ℚ) = 255 - pixel.alpha.toNat :=
    Nat.cast_sub (by omega)
  unfold Pixel.exactLuminance Pixel.level
  push_cast [hsub]
  ring

-- What is not at the threshold is judged correctly.
theorem judged_of_ne (h : pixel.level * pixel.alpha.toNat + 255000 * (255 - pixel.alpha.toNat) ≠
    127 * 255000) : pixel.luminance ≤ blackThreshold ↔ pixel.exactLuminance ≤ 127 := by
  have hn := near_number pixel
  have hthreshold : threshold.value = 127 :=
    sub_eq_zero.mp <| abs_nonpos_iff.mp near_threshold.error
  rw [hn.is.le_iff near_threshold.is, hthreshold]
  have herr := abs_le.mp hn.error
  rw [exactLuminance_eq] at herr ⊢
  generalize pixel.level * pixel.alpha.toNat + 255000 * (255 - pixel.alpha.toNat) = t at h herr ⊢
  obtain hlt | hgt := Nat.lt_or_gt_of_ne h
  case inl =>
    have ht : (t : ℚ) + 1 ≤ 127 * 255000 := by exact_mod_cast hlt
    exact iff_of_true (by linarith) (by linarith)
  case inr =>
    have ht : (127 * 255000 : ℚ) + 1 ≤ t := by exact_mod_cast hgt
    exact iff_of_false (by linarith) (by linarith)

-- The alpha values for which a pixel can be at the threshold, and how bright the pixel is then.
structure Borderline where
  alpha : Nat
  level : Nat
  number : Number
  white : Number

def borderlines : List Borderline := [
  ⟨128, 0, some (4521260802379792, -53), some (8936830510563328, -46)⟩,
  ⟨136, 15000, some (4803839602528529, -53), some (8373880557142016, -46)⟩,
  ⟨150, 37400, some (5298352502788819, -53), some (7388718138654720, -46)⟩,
  ⟨160, 51000, some (5651576002974740, -53), some (6685030696878080, -46)⟩,
  ⟨170, 63000, some (6004799503160661, -53), some (5981343255101441, -46)⟩,
  ⟨192, 85000, some (6781891203569688, -53), some (8866461766385664, -47)⟩,
  ⟨200, 91800, some (7064470003718425, -53), some (7740561859543040, -47)⟩,
  ⟨204, 95000, some (7205759403792794, -53), some (7177611906121726, -47)⟩,
  ⟨240, 119000, some (8477364004462110, -53), some (8444249301319682, -49)⟩,
  ⟨250, 124440, some (8830587504648031, -53), some (5629499534213132, -50)⟩,
  ⟨255, 127000, some (4503599627370496, -52), none⟩
]

theorem exists_borderline {a t : Nat} (ha : a < 256) (h : t * a + 255000 * (255 - a) = 127 * 255000) :
    ∃ b ∈ borderlines, b.alpha = a ∧ b.level = t := by
  have hall : (List.range 256).all fun a => a < 128 || (255000 * (a - 128)) % a != 0 ||
      borderlines.any fun b => b.alpha = a && b.level * a = 255000 * (a - 128) := by decide +kernel
  have hrow := List.all_eq_true.mp hall a (List.mem_range.mpr ha)
  have hge : 128 ≤ a := by omega
  have ht : t * a = 255000 * (a - 128) := by omega
  have hdvd : (255000 * (a - 128)) % a = 0 := by
    rw [← ht]
    exact Nat.mul_mod_left t a
  simp only [Bool.or_eq_true, decide_eq_true_eq, bne_iff_ne, hdvd, ne_eq, not_true_eq_false,
    or_false, List.any_eq_true, Bool.and_eq_true] at hrow
  obtain hlt | ⟨b, hb, he, hl⟩ := hrow
  case inl => omega
  case inr => exact ⟨b, hb, he, Nat.eq_of_mul_eq_mul_right (by omega) (hl.trans ht.symm)⟩

theorem read_borderlines : borderlines.all fun b =>
    read ((UInt8.ofNat b.alpha).toFloat / 255) = b.number && read (white (.ofNat b.alpha)) = b.white := by
  rfl

-- 47 is the inverse of 587 modulo 114, and so there are three greens for a red.
theorem judge_borderlines : borderlines.all fun b => (List.range 256).all fun r =>
    (List.range 3).all fun k =>
      let g := (47 * b.level + 83 * r) % 114 + 114 * k
      let rest := b.level - 299 * r - 587 * g
      !(299 * r + 587 * g ≤ b.level && rest / 114 < 256 && g < 256) ||
        (number b.number b.white r g (rest / 114)).le threshold != misjudged.any fun p =>
          p.1.beq r && (p.2.1.beq g && (p.2.2.1.beq (rest / 114) && p.2.2.2.beq b.alpha)) := by
  decide +kernel

theorem misjudged_borderlines : misjudged.all fun p =>
    (299 * p.1 + 587 * p.2.1 + 114 * p.2.2.1) * p.2.2.2 + 255000 * (255 - p.2.2.2) = 127 * 255000 := by
  decide

theorem judged_of_eq (h : pixel.level * pixel.alpha.toNat + 255000 * (255 - pixel.alpha.toNat) =
    127 * 255000) : pixel.luminance ≤ blackThreshold ↔ pixel.components ∉ misjudged := by
  obtain ⟨b, hb, ha, hl⟩ := exists_borderline pixel.alpha.toNat_lt h
  have hread := List.all_eq_true.mp read_borderlines b hb
  rw [ha, UInt8.ofNat_toNat] at hread
  obtain ⟨hread, hwhite⟩ := (Bool.and_eq_true _ _).mp hread
  have hn := (near_number pixel).is
  rw [of_decide_eq_true hread, of_decide_eq_true hwhite] at hn
  rw [hn.le_iff_le near_threshold.is]
  have hr := pixel.red.toNat_lt
  have hg := pixel.green.toNat_lt
  have hblue := pixel.blue.toNat_lt
  have hl : b.level = 299 * pixel.red.toNat + 587 * pixel.green.toNat + 114 * pixel.blue.toNat := hl
  obtain ⟨k, hk, hgreen⟩ : ∃ k < 3, pixel.green.toNat =
      (47 * b.level + 83 * pixel.red.toNat) % 114 + 114 * k :=
    ⟨pixel.green.toNat / 114, by omega, by omega⟩
  have hrest : (b.level - 299 * pixel.red.toNat - 587 * pixel.green.toNat) / 114 =
      pixel.blue.toNat := by omega
  have hrow := List.all_eq_true.mp judge_borderlines b hb
  have hrow := List.all_eq_true.mp hrow _ (List.mem_range.mpr hr)
  have hrow := List.all_eq_true.mp hrow k (List.mem_range.mpr hk)
  have hle : 299 * pixel.red.toNat + 587 * pixel.green.toNat ≤ b.level := by omega
  dsimp only at hrow
  rw [← hgreen, hrest, ha] at hrow
  simp only [hle, hblue, hg, decide_true, Bool.and_true, Bool.not_true, Bool.false_or,
    bne_iff_ne] at hrow
  have hmem : (misjudged.any fun p => p.1.beq pixel.red.toNat && (p.2.1.beq pixel.green.toNat &&
      (p.2.2.1.beq pixel.blue.toNat && p.2.2.2.beq pixel.alpha.toNat))) ↔
        pixel.components ∈ misjudged := by
    simp only [List.any_eq_true, Bool.and_eq_true, Nat.beq_eq]
    constructor
    case mp =>
      rintro ⟨⟨r, g, b, a⟩, hp, rfl, rfl, rfl, rfl⟩
      exact hp
    case mpr => exact fun hp => ⟨_, hp, rfl, rfl, rfl, rfl⟩
  rw [← hmem, Bool.eq_not_iff.mpr hrow, Bool.not_eq_true']
  exact (Bool.not_eq_true _).symm.to_iff

theorem judged_iff : (pixel.luminance ≤ blackThreshold ↔ pixel.exactLuminance ≤ 127) ↔
    pixel.components ∉ misjudged := by
  by_cases h : pixel.level * pixel.alpha.toNat + 255000 * (255 - pixel.alpha.toNat) = 127 * 255000
  case pos =>
    have he : pixel.exactLuminance ≤ 127 := by
      rw [exactLuminance_eq, h]
      norm_num
    rw [judged_of_eq h]
    exact ⟨fun hj => hj.mpr he, fun hj => iff_of_true hj he⟩
  case neg =>
    refine iff_of_true (judged_of_ne h) fun hm => h ?_
    exact of_decide_eq_true <| List.all_eq_true.mp misjudged_borderlines _ hm

end Luminance

open LabelPrinting hiding rowBytes

section Packing

variable {pixels packed bitmap : List UInt8} {widthDots heightDots stride index x y : Nat} {pixel : Pixel}

theorem exists_pixelAt (h : index * 4 + 3 < pixels.length) : ∃ pixel, pixelAt pixels index = some pixel := by
  have hget {i : Nat} (hi : i < pixels.length) : ∃ c, pixels[i]? = some c :=
    ⟨_, List.getElem?_eq_getElem hi⟩
  obtain ⟨red, hr⟩ := hget (show index * 4 < _ by omega)
  obtain ⟨green, hg⟩ := hget (show index * 4 + 1 < _ by omega)
  obtain ⟨blue, hb⟩ := hget (show index * 4 + 2 < _ by omega)
  obtain ⟨alpha, ha⟩ := hget h
  exact ⟨⟨red, green, blue, alpha⟩, by simp [pixelAt, hr, hg, hb, ha]⟩

theorem lt_of_pixelAt (h : pixelAt pixels index = some pixel) : index * 4 + 3 < pixels.length := by
  simp only [pixelAt, Option.bind_eq_bind, Option.bind_eq_some_iff] at h
  obtain ⟨_, _, _, _, _, _, _, ha, _⟩ := h
  exact (List.getElem?_eq_some_iff.mp ha).choose

theorem packPixel_eq (h : pixelAt pixels (y * widthDots + x) = some pixel) :
    packPixel pixels widthDots stride y packed x = if pixel.luminance ≤ blackThreshold then
      Bitmap.paint packed (8 * (stride * y) + x) else packed := by
  have hl : luminance (component pixels ((y * widthDots + x) * 4))
      (component pixels ((y * widthDots + x) * 4 + 1)) (component pixels ((y * widthDots + x) * 4 + 2))
      (component pixels ((y * widthDots + x) * 4 + 3)) = pixel.luminance := by
    simp only [pixelAt, Option.bind_eq_bind, Option.bind_eq_some_iff] at h
    obtain ⟨red, hr, green, hg, blue, hb, alpha, ha, he⟩ := h
    obtain rfl := Option.some.inj he
    simp only [component, hr, hg, hb, ha]
    rfl
  have hd : (8 * (stride * y) + x) / 8 = y * stride + x >>> 3 := by
    rw [Nat.shiftRight_eq_div_pow, Nat.mul_comm y]
    omega
  have hm : (8 * (stride * y) + x) % 8 = x &&& 7 := by
    have hand : x &&& 7 = x % 8 := Nat.and_two_pow_sub_one_eq_mod x 3
    rw [hand]
    omega
  simp only [packPixel, hl, Bitmap.paint, Bitmap.mask, hd, hm]

-- Whether a pixel leaves a dot.
def Inked (pixels : List UInt8) (index : Nat) : Prop :=
  ∃ pixel, pixelAt pixels index = some pixel ∧ pixel.luminance ≤ blackThreshold

theorem dot_packPixel (h : pixelAt pixels (y * widthDots + x) = some pixel)
    (hb : stride * y + x / 8 < packed.length) :
    (packPixel pixels widthDots stride y packed x).length = packed.length ∧
      ∀ j, Bitmap.dot (packPixel pixels widthDots stride y packed x) j ↔
        Bitmap.dot packed j ∨ (Inked pixels (y * widthDots + x) ∧ 8 * (stride * y) + x = j) := by
  have hi : Inked pixels (y * widthDots + x) ↔ pixel.luminance ≤ blackThreshold := by
    constructor
    case mp =>
      rintro ⟨pixel', hp, hl⟩
      obtain rfl := Option.some.inj <| h.symm.trans hp
      exact hl
    case mpr => exact fun hl => ⟨pixel, h, hl⟩
  have hlt : (8 * (stride * y) + x) / 8 < packed.length := by omega
  rw [packPixel_eq h, hi]
  by_cases hl : pixel.luminance ≤ blackThreshold
  case pos =>
    rw [if_pos hl]
    exact ⟨Bitmap.length_paint, fun j => by rw [Bitmap.dot_paint hlt, and_iff_right hl]⟩
  case neg =>
    rw [if_neg hl]
    exact ⟨rfl, fun j => by simp [hl]⟩

theorem dot_packRow (h : pixels.length = 4 * (widthDots * heightDots)) (hs : widthDots ≤ 8 * stride)
    (hy : y < heightDots) (hl : packed.length = stride * heightDots) :
    ((List.range widthDots).foldl (packPixel pixels widthDots stride y) packed).length =
        stride * heightDots ∧
      ∀ j, Bitmap.dot ((List.range widthDots).foldl (packPixel pixels widthDots stride y) packed) j ↔
        Bitmap.dot packed j ∨
          ∃ x ∈ List.range widthDots, Inked pixels (y * widthDots + x) ∧ 8 * (stride * y) + x = j := by
  refine Bitmap.dot_foldl (fun packed x hx hl => ?_) hl
  have hx := List.mem_range.mp hx
  have hle : widthDots * (y + 1) ≤ widthDots * heightDots := Nat.mul_le_mul_left _ hy
  have hle' : stride * (y + 1) ≤ stride * heightDots := Nat.mul_le_mul_left _ hy
  rw [Nat.mul_succ] at hle hle'
  obtain ⟨pixel, hp⟩ : ∃ pixel, pixelAt pixels (y * widthDots + x) = some pixel :=
    exists_pixelAt (by rw [h, Nat.mul_comm y]; omega)
  have hlt : stride * y + x / 8 < packed.length := by omega
  exact hl ▸ dot_packPixel hp hlt

theorem dot_packPixels (h : pixels.length = 4 * (widthDots * heightDots)) :
    (packPixels pixels widthDots heightDots).length = rowBytes widthDots * heightDots ∧
      ∀ j, Bitmap.dot (packPixels pixels widthDots heightDots) j ↔
        ∃ y < heightDots, ∃ x < widthDots,
          Inked pixels (y * widthDots + x) ∧ 8 * (rowBytes widthDots * y) + x = j := by
  have hs : widthDots ≤ 8 * rowBytes widthDots := by
    unfold rowBytes
    omega
  have hrow (packed : List UInt8) (y : Nat) (hy : y ∈ List.range heightDots)
      (hl : packed.length = rowBytes widthDots * heightDots) :=
    dot_packRow h hs (List.mem_range.mp hy) hl
  obtain ⟨hl, hd⟩ := Bitmap.dot_foldl hrow List.length_replicate
  refine ⟨hl, fun j => (hd j).trans ?_⟩
  rw [Bitmap.dot_replicate_zero]
  simp only [Bool.false_eq_true, false_or, List.mem_range]

-- The dots of two rows do not meet.
theorem dot_packPixels_iff (h : pixels.length = 4 * (widthDots * heightDots)) (hx : x < widthDots)
    (hy : y < heightDots) :
    Bitmap.dot (packPixels pixels widthDots heightDots) (8 * (rowBytes widthDots * y) + x) ↔
      Inked pixels (y * widthDots + x) := by
  have hs : widthDots ≤ 8 * rowBytes widthDots := by
    unfold rowBytes
    omega
  rw [(dot_packPixels h).right]
  constructor
  case mp =>
    rintro ⟨y', -, x', hx', hi, he⟩
    rw [← Nat.mul_assoc, ← Nat.mul_assoc] at he
    have hdiv {x y : Nat} (hx : x < widthDots) :
        (8 * rowBytes widthDots * y + x) / (8 * rowBytes widthDots) = y := by
      rw [Nat.mul_add_div (by omega), Nat.div_eq_of_lt (by omega), Nat.add_zero]
    obtain rfl : y' = y := by
      have hd := congrArg (· / (8 * rowBytes widthDots)) he
      rwa [hdiv hx, hdiv hx'] at hd
    obtain rfl : x' = x := Nat.add_left_cancel he
    exact hi
  case mpr => exact fun hi => ⟨y, hy, x, hx, hi, rfl⟩

end Packing

section Agreement

variable {media : MediaSpec} {heightDots : UInt16} {pixels : List UInt8} {page : Page}

theorem exists_printed (hm : media ∈ supportedMedia) (ha : page.Accepted media) (autoCut : Bool) :
    ∃ offset bytes printer printed, media.leftOffsetDots media.printableWidthDots = some offset ∧
      encodeJob media autoCut [page] = .ok (some bytes) ∧ Printer.receive bytes = some printer ∧
      printer.printed = [printed] ∧ printed.lines.length = page.heightDots.toNat ∧
      ∀ y line, printed.lines[y]? = some line → ∀ x < media.printableWidthDots.toNat,
        Bitmap.dot line (offset.toNat + x) = page.dot x y := by
  obtain ⟨offset, hf⟩ := exists_fits hm
  obtain ⟨bytes, printer, he, hr, hp⟩ : ∃ bytes printer, encodeJob media autoCut [page] =
      .ok (some bytes) ∧ Printer.receive bytes = some printer ∧ Printed media autoCut [page] printer :=
    exists_encodeJob hm (List.cons_ne_nil page []) fun page' h => List.mem_singleton.mp h ▸ ha
  obtain ⟨printed, hi, hfaithful⟩ := hp.pages 0 page rfl
  have hone : printer.printed = [printed] := by
    have hc : printer.printed.length = 1 := hp.count
    obtain ⟨printed', hs⟩ := List.length_eq_one_iff.mp hc
    rw [hs] at hi
    rw [hs, Option.some.inj hi]
  have htotal := hf.total
  have ho : pins.toNat - media.printableWidthDots.toNat - media.rightMarginDots.toNat =
      offset.toNat := by omega
  exact ⟨offset, bytes, printer, printed, hf.leftOffset, he, hr, hone, hfaithful.height.right,
    ho ▸ hfaithful.dots⟩

-- The bitmap is accepted, and the head prints what is dark.
def Agrees (media : MediaSpec) (heightDots : UInt16) (pixels : List UInt8) : Prop :=
  let width := media.printableWidthDots
  let bitmap := packPixels pixels width.toNat heightDots.toNat
  bitmap.length = LabelPrinting.rowBytes width * heightDots.toNat ∧
    ∃ page, Page.new media width heightDots bitmap = .ok page ∧
      ∀ autoCut, ∃ offset bytes printer printed, media.leftOffsetDots width = some offset ∧
        encodeJob media autoCut [page] = .ok (some bytes) ∧ Printer.receive bytes = some printer ∧
        printer.printed = [printed] ∧ printed.lines.length = heightDots.toNat ∧
        ∀ y line, printed.lines[y]? = some line → ∀ x < width.toNat, ∀ pixel,
          pixelAt pixels (y * width.toNat + x) = some pixel →
          (Bitmap.dot line (offset.toNat + x) ↔ pixel.exactLuminance ≤ 127)

theorem accepted_packPixels (hh : minRasterLines ≤ heightDots.toNat ∧ heightDots.toNat ≤ maxRasterLines)
    (hp : pixels.length = 4 * (media.printableWidthDots.toNat * heightDots.toNat)) :
    Page.Accepted media ⟨media.printableWidthDots, heightDots,
      packPixels pixels media.printableWidthDots.toNat heightDots.toNat⟩ :=
  ⟨rfl, hh, (dot_packPixels hp).left⟩

theorem dot_page_iff {x y : Nat} {pixel : Pixel}
    (hp : pixels.length = 4 * (media.printableWidthDots.toNat * heightDots.toNat))
    (hx : x < media.printableWidthDots.toNat) (hy : y < heightDots.toNat)
    (h : pixelAt pixels (y * media.printableWidthDots.toNat + x) = some pixel) :
    Page.dot ⟨media.printableWidthDots, heightDots,
      packPixels pixels media.printableWidthDots.toNat heightDots.toNat⟩ x y ↔
        pixel.luminance ≤ blackThreshold := by
  refine (dot_packPixels_iff hp hx hy).trans ?_
  constructor
  case mp =>
    rintro ⟨pixel', h', hl⟩
    obtain rfl := Option.some.inj <| h.symm.trans h'
    exact hl
  case mpr => exact fun hl => ⟨pixel, h, hl⟩

theorem Agrees.not_misjudged {index : Nat} {pixel : Pixel} (h : Agrees media heightDots pixels)
    (hm : media ∈ supportedMedia)
    (hh : minRasterLines ≤ heightDots.toNat ∧ heightDots.toNat ≤ maxRasterLines)
    (hp : pixels.length = 4 * (media.printableWidthDots.toNat * heightDots.toNat))
    (hpixel : pixelAt pixels index = some pixel) : pixel.components ∉ misjudged := by
  let width := media.printableWidthDots
  have ha := accepted_packPixels hh hp
  obtain ⟨-, page, hpage, hjob⟩ := h
  obtain rfl := Except.ok.inj <| (new_eq_ok.mpr ⟨rfl, ha⟩).symm.trans hpage
  obtain ⟨offset, bytes, printer, printed, ho, he, hr, hone, hlines, hd⟩ := exists_printed hm ha true
  obtain ⟨offset', bytes', printer', printed', ho', he', hr', hone', -, hd'⟩ := hjob true
  obtain rfl := Option.some.inj <| ho.symm.trans ho'
  obtain rfl := Option.some.inj <| Except.ok.inj <| he.symm.trans he'
  obtain rfl := Option.some.inj <| hr.symm.trans hr'
  obtain rfl := (List.cons.inj <| hone.symm.trans hone').left
  have hlt := lt_of_pixelAt hpixel
  rw [hp] at hlt
  have hwidth : 0 < width.toNat := by
    refine Nat.pos_of_ne_zero fun hz => ?_
    have hz : media.printableWidthDots.toNat = 0 := hz
    rw [hz, Nat.zero_mul] at hlt
    omega
  have hx : index % width.toNat < width.toNat := Nat.mod_lt _ hwidth
  have hy : index / width.toNat < heightDots.toNat :=
    (Nat.div_lt_iff_lt_mul hwidth).mpr <| by
      rw [Nat.mul_comm]
      exact (show index < media.printableWidthDots.toNat * heightDots.toNat by omega)
  have hsplit : index / width.toNat * width.toNat + index % width.toNat = index :=
    Nat.div_add_mod' _ _
  have hpixel' : pixelAt pixels (index / width.toNat * width.toNat + index % width.toNat) =
      some pixel := hsplit.symm ▸ hpixel
  obtain ⟨line, hline⟩ : ∃ line, printed.lines[index / width.toNat]? = some line :=
    ⟨_, List.getElem?_eq_getElem (hlines ▸ hy)⟩
  refine judged_iff.mp ?_
  rw [← hd' _ line hline _ hx pixel hpixel', hd _ line hline _ hx]
  exact (dot_page_iff hp hx hy hpixel').symm

theorem agrees_of_not_misjudged (hm : media ∈ supportedMedia)
    (hh : minRasterLines ≤ heightDots.toNat ∧ heightDots.toNat ≤ maxRasterLines)
    (hp : pixels.length = 4 * (media.printableWidthDots.toNat * heightDots.toNat))
    (hj : ∀ index pixel, pixelAt pixels index = some pixel → pixel.components ∉ misjudged) :
    Agrees media heightDots pixels := by
  have ha := accepted_packPixels hh hp
  refine ⟨ha.bitmap, _, new_eq_ok.mpr ⟨rfl, ha⟩, fun autoCut => ?_⟩
  obtain ⟨offset, bytes, printer, printed, ho, he, hr, hone, hlines, hd⟩ :=
    exists_printed hm ha autoCut
  refine ⟨offset, bytes, printer, printed, ho, he, hr, hone, hlines, ?_⟩
  intro y line hline x hx pixel hpixel
  have hy : y < heightDots.toNat := hlines ▸ (List.getElem?_eq_some_iff.mp hline).choose
  rw [hd y line hline x hx, dot_page_iff hp hx hy hpixel]
  exact judged_iff.mpr (hj _ pixel hpixel)

theorem agrees_iff (hm : media ∈ supportedMedia)
    (hh : minRasterLines ≤ heightDots.toNat ∧ heightDots.toNat ≤ maxRasterLines)
    (hp : pixels.length = 4 * (media.printableWidthDots.toNat * heightDots.toNat)) :
    Agrees media heightDots pixels ↔
      ∀ index pixel, pixelAt pixels index = some pixel → pixel.components ∉ misjudged :=
  ⟨fun h _ _ hpixel => h.not_misjudged hm hh hp hpixel, agrees_of_not_misjudged hm hh hp⟩

def stripes : List UInt8 :=
  (List.replicate (153 * 150) [(0 : UInt8), 0, 0, 255, 255, 255, 255, 255]).flatten

theorem length_stripes : stripes.length = 4 * (306 * 150) := by
  rw [stripes, List.length_flatten, List.map_replicate]
  exact List.sum_replicate_nat

-- Black and white columns in turns.
theorem agrees_iff_striped : Agrees (continuous 29 342 306 6) 150 stripes := by
  refine (agrees_iff (.head _) (by decide) length_stripes).mpr fun index pixel h => ?_
  have hget {i : Nat} {c : UInt8} (hc : stripes[i]? = some c) : c = 0 ∨ c = 255 := by
    obtain ⟨_, hl, hm⟩ := List.mem_flatten.mp <| List.mem_of_getElem? hc
    simpa [List.eq_of_mem_replicate hl] using hm
  simp only [pixelAt, Option.bind_eq_bind, Option.bind_eq_some_iff] at h
  obtain ⟨red, hr, green, hg, blue, hb, alpha, ha, he⟩ := h
  obtain rfl := Option.some.inj he
  have hmisjudged : ∀ p ∈ misjudged, p.2.2.2 ≠ 0 ∧ p.2.2.2 ≠ 255 := by
    decide
  intro hm
  obtain ⟨hzero, hfull⟩ := hmisjudged _ hm
  rcases hget ha with rfl | rfl
  case inl => exact hzero rfl
  case inr => exact hfull rfl

-- A grey which is half transparent, everywhere.
theorem not_agrees_grey : ¬∀ media ∈ supportedMedia, ∀ (heightDots : UInt16) (pixels : List UInt8),
    minRasterLines ≤ heightDots.toNat ∧ heightDots.toNat ≤ maxRasterLines →
    pixels.length = 4 * (media.printableWidthDots.toNat * heightDots.toNat) →
    Agrees media heightDots pixels := by
  intro h
  let pixels := (List.replicate (306 * 150) [(63 : UInt8), 63, 63, 170]).flatten
  have hl : pixels.length = 4 * (306 * 150) := by
    rw [List.length_flatten, List.map_replicate]
    exact List.sum_replicate_nat
  have hpixel : pixelAt pixels 0 = some ⟨63, 63, 63, 170⟩ := rfl
  have ha := h (continuous 29 342 306 6) (.head _) 150 pixels (by decide) hl
  exact ha.not_misjudged (.head _) (by decide) hl hpixel (by decide)

end Agreement

end Labels

end LabInventory
