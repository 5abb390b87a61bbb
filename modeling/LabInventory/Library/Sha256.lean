import Mathlib.Data.List.Basic

namespace Sha2

-- Evaluates a number before it is used.
def force {α : Type} (n : Nat) (f : Nat → α) : α :=
  match n with
  | 0 => f 0
  | n + 1 => f (n + 1)

def rotr (x n : Nat) : Nat :=
  (x >>> n) ||| (x <<< (32 - n)) % 0x100000000

def constants : List Nat := [
  0x428a2f98, 0x71374491, 0xb5c0fbcf, 0xe9b5dba5, 0x3956c25b, 0x59f111f1, 0x923f82a4, 0xab1c5ed5,
  0xd807aa98, 0x12835b01, 0x243185be, 0x550c7dc3, 0x72be5d74, 0x80deb1fe, 0x9bdc06a7, 0xc19bf174,
  0xe49b69c1, 0xefbe4786, 0x0fc19dc6, 0x240ca1cc, 0x2de92c6f, 0x4a7484aa, 0x5cb0a9dc, 0x76f988da,
  0x983e5152, 0xa831c66d, 0xb00327c8, 0xbf597fc7, 0xc6e00bf3, 0xd5a79147, 0x06ca6351, 0x14292967,
  0x27b70a85, 0x2e1b2138, 0x4d2c6dfc, 0x53380d13, 0x650a7354, 0x766a0abb, 0x81c2c92e, 0x92722c85,
  0xa2bfe8a1, 0xa81a664b, 0xc24b8b70, 0xc76c51a3, 0xd192e819, 0xd6990624, 0xf40e3585, 0x106aa070,
  0x19a4c116, 0x1e376c08, 0x2748774c, 0x34b0bcb5, 0x391c0cb3, 0x4ed8aa4a, 0x5b9cca4f, 0x682e6ff3,
  0x748f82ee, 0x78a5636f, 0x84c87814, 0x8cc70208, 0x90befffa, 0xa4506ceb, 0xbef9a3f7, 0xc67178f2
]

structure State where
  a : Nat
  b : Nat
  c : Nat
  d : Nat
  e : Nat
  f : Nat
  g : Nat
  h : Nat

def State.initial : State where
  a := 0x6a09e667
  b := 0xbb67ae85
  c := 0x3c6ef372
  d := 0xa54ff53a
  e := 0x510e527f
  f := 0x9b05688c
  g := 0x1f83d9ab
  h := 0x5be0cd19

def State.words (s : State) : List Nat :=
  [s.a, s.b, s.c, s.d, s.e, s.f, s.g, s.h]

def round (s : State) (kw : Nat) : State :=
  let choice := (s.e &&& s.f) ^^^ ((0x100000000 - 1 - s.e) &&& s.g)
  let majority := (s.a &&& s.b) ^^^ (s.a &&& s.c) ^^^ (s.b &&& s.c)
  let t := s.h + (rotr s.e 6 ^^^ rotr s.e 11 ^^^ rotr s.e 25) + choice + kw
  force (t % 0x100000000) fun t =>
  force ((t + (rotr s.a 2 ^^^ rotr s.a 13 ^^^ rotr s.a 22) + majority) % 0x100000000) fun a =>
  force ((s.d + t) % 0x100000000) fun e =>
  { a, b := s.a, c := s.b, d := s.c, e, f := s.e, g := s.f, h := s.g }

-- The message schedule, with its latest word first.
def extend : Nat → List Nat → List Nat
  | n + 1, w@(_ :: w₂ :: _ :: _ :: _ :: _ :: w₇ :: _ :: _ :: _ :: _ :: _ :: _ :: _ :: w₁₅ :: w₁₆ :: _) =>
    let s₀ := rotr w₁₅ 7 ^^^ rotr w₁₅ 18 ^^^ (w₁₅ >>> 3)
    let s₁ := rotr w₂ 17 ^^^ rotr w₂ 19 ^^^ (w₂ >>> 10)
    force ((s₁ + w₇ + s₀ + w₁₆) % 0x100000000) fun x => extend n (x :: w)
  | _, w => w

def rounds : List Nat → List Nat → State → State
  | k :: ks, w :: ws, s => rounds ks ws (round s (k + w))
  | _, _, s => s

def State.add (s t : State) : State :=
  force ((s.a + t.a) % 0x100000000) fun a =>
  force ((s.b + t.b) % 0x100000000) fun b =>
  force ((s.c + t.c) % 0x100000000) fun c =>
  force ((s.d + t.d) % 0x100000000) fun d =>
  force ((s.e + t.e) % 0x100000000) fun e =>
  force ((s.f + t.f) % 0x100000000) fun f =>
  force ((s.g + t.g) % 0x100000000) fun g =>
  force ((s.h + t.h) % 0x100000000) fun h =>
  { a, b, c, d, e, f, g, h }

-- The words of a block are given with the latest one first.
def compress (s : State) (block : List Nat) : State :=
  s.add <| rounds constants (extend 48 block).reverse s

-- The lowest `n` bytes of a number.
def toBytes : Nat → Nat → List UInt8
  | 0, _ => []
  | n + 1, x => toBytes n (x / 256) ++ [.ofNat (x % 256)]

def pad (message : List UInt8) : List UInt8 :=
  let zeros := (119 - message.length % 64) % 64
  message ++ 0x80 :: List.replicate zeros 0 ++ toBytes 8 (8 * message.length)

-- The next `n` words belong to the current block.
def absorb : List UInt8 → Nat → List Nat → State → State
  | a :: b :: c :: d :: bytes, n + 1, block, s =>
    force (((a.toNat * 256 + b.toNat) * 256 + c.toNat) * 256 + d.toNat) fun w =>
    match n with
    | 0 => absorb bytes 16 [] (compress s (w :: block))
    | n + 1 => absorb bytes (n + 1) (w :: block) s
  | _, _, _, s => s

def sha256 (message : List UInt8) : List UInt8 :=
  (absorb (pad message) 16 [] .initial).words.flatMap (toBytes 4)

theorem length_toBytes {n x : Nat} : (toBytes n x).length = n := by
  induction n generalizing x
  case zero => rfl
  case succ n ih => simp [toBytes, ih]

theorem length_sha256 {message : List UInt8} : (sha256 message).length = 32 := by
  simp [sha256, State.words, length_toBytes]

set_option maxRecDepth 10000 in
example : sha256 [97, 98, 99] = toBytes 32
    0xba7816bf8f01cfea414140de5dae2223b00361a396177a9cb410ff61f20015ad := by
  decide +kernel

def hmac (key message : List UInt8) : List UInt8 :=
  let key := if key.length ≤ 64 then key else sha256 key
  let key := key ++ List.replicate (64 - key.length) 0
  sha256 <| key.map (· ^^^ 0x5c) ++ sha256 (key.map (· ^^^ 0x36) ++ message)

end Sha2

namespace Base64

def alphabet : List Char :=
  "ABCDEFGHIJKLMNOPQRSTUVWXYZabcdefghijklmnopqrstuvwxyz0123456789+/".toList

def sextet (n : Nat) : Char :=
  alphabet.getD n 'A'

theorem idxOf_sextet {n : Nat} (h : n < 64) : alphabet.idxOf (sextet n) = n := by
  have hd : ∀ n < 64, alphabet.idxOf (sextet n) = n := by decide +kernel
  exact hd n h

theorem sextet_ne {n : Nat} (h : n < 64) : sextet n ≠ '=' := by
  have hd : ∀ n < 64, sextet n ≠ '=' := by decide +kernel
  exact hd n h

def encode : List UInt8 → List Char
  | [] => []
  | [a] => [sextet (a.toNat / 4), sextet (a.toNat % 4 * 16), '=', '=']
  | [a, b] => [
      sextet (a.toNat / 4), sextet (a.toNat % 4 * 16 + b.toNat / 16), sextet (b.toNat % 16 * 4), '='
    ]
  | a :: b :: c :: bytes =>
    sextet (a.toNat / 4) :: sextet (a.toNat % 4 * 16 + b.toNat / 16) ::
    sextet (b.toNat % 16 * 4 + c.toNat / 64) :: sextet (c.toNat % 64) :: encode bytes

theorem mem_encode {bytes : List UInt8} {c : Char} (h : c ∈ encode bytes) :
    c ∈ alphabet ∨ c = '=' := by
  have hs {n : Nat} : sextet n ∈ alphabet := by
    rw [sextet, List.getD_eq_getElem?_getD]
    cases hn : alphabet[n]?
    case none => decide +kernel
    case some => exact List.mem_of_getElem? hn
  induction bytes using encode.induct
  case case1 => simp [encode] at h
  case case2 => simp only [encode, List.mem_cons] at h; grind
  case case3 => simp only [encode, List.mem_cons] at h; grind
  case case4 ih => simp only [encode, List.mem_cons] at h; grind

def urlSafe : Char → Char
  | '+' => '-'
  | '/' => '_'
  | c => c

-- Without padding.
def encodeUrlSafe (bytes : List UInt8) : List Char :=
  ((encode bytes).filter (· ≠ '=')).map urlSafe

theorem encodeUrlSafe_ne_nil {bytes : List UInt8} (h : bytes ≠ []) : encodeUrlSafe bytes ≠ [] := by
  obtain ⟨a, l, rfl⟩ := List.exists_cons_of_ne_nil h
  have ha : a.toNat / 4 < 64 := by
    have := a.toNat_lt
    omega
  have hm : sextet (a.toNat / 4) ∈ encode (a :: l) := by
    rcases l with _ | ⟨b, _ | ⟨c, l⟩⟩ <;> simp [encode]
  have hf : sextet (a.toNat / 4) ∈ (encode (a :: l)).filter (· ≠ '=') :=
    List.mem_filter.mpr ⟨hm, decide_eq_true <| sextet_ne ha⟩
  exact List.ne_nil_of_mem <| List.mem_map_of_mem hf

theorem mem_encodeUrlSafe {bytes : List UInt8} {c : Char} (h : c ∈ encodeUrlSafe bytes) :
    ∃ a ∈ alphabet, urlSafe a = c := by
  obtain ⟨a, ha, rfl⟩ := List.mem_map.mp h
  obtain ⟨hm, hn⟩ := List.mem_filter.mp ha
  exact ⟨a, (mem_encode hm).resolve_right <| of_decide_eq_true hn, rfl⟩

-- Disregards what does not make up a whole byte.
def read : List Char → List UInt8
  | c₁ :: c₂ :: c₃ :: c₄ :: cs =>
    let x₁ := alphabet.idxOf c₁
    let x₂ := alphabet.idxOf c₂
    let x₃ := alphabet.idxOf c₃
    let x₄ := alphabet.idxOf c₄
    let a := .ofNat (x₁ * 4 + x₂ / 16)
    let b := .ofNat (x₂ % 16 * 16 + x₃ / 4)
    if c₃ = '=' then [a] else if c₄ = '=' then [a, b] else
      a :: b :: .ofNat (x₃ % 4 * 64 + x₄) :: read cs
  | _ => []

-- Padding is required, and the bits that are left over have to be zero.
def decode (cs : List Char) : Option (List UInt8) :=
  if encode (read cs) = cs then some (read cs) else none

theorem read_encode {bytes : List UInt8} : read (encode bytes) = bytes := by
  have hb (b : UInt8) : b.toNat < 256 := b.toNat_lt
  induction bytes using encode.induct
  case case1 => rfl
  case case2 a =>
    have ha := hb a
    simp only [encode, read, if_true, List.cons.injEq, and_true]
    rw [idxOf_sextet (by omega), idxOf_sextet (by omega), ← UInt8.toNat_inj, UInt8.toNat_ofNat']
    omega
  case case3 a b =>
    have ha := hb a
    have hb := hb b
    simp only [encode, read, if_neg (sextet_ne (n := b.toNat % 16 * 4) (by omega)), if_true,
      List.cons.injEq, and_true]
    rw [idxOf_sextet (by omega), idxOf_sextet (by omega), idxOf_sextet (by omega),
      ← UInt8.toNat_inj, ← UInt8.toNat_inj, UInt8.toNat_ofNat', UInt8.toNat_ofNat']
    omega
  case case4 a b c bytes ih =>
    have ha := hb a
    have hb' := hb b
    have hc := hb c
    simp only [encode, read, if_neg (sextet_ne (n := b.toNat % 16 * 4 + c.toNat / 64) (by omega)),
      if_neg (sextet_ne (n := c.toNat % 64) (by omega)), ih, List.cons.injEq, and_true]
    rw [idxOf_sextet (by omega), idxOf_sextet (by omega), idxOf_sextet (by omega),
      idxOf_sextet (by omega), ← UInt8.toNat_inj, ← UInt8.toNat_inj, ← UInt8.toNat_inj,
      UInt8.toNat_ofNat', UInt8.toNat_ofNat', UInt8.toNat_ofNat']
    omega

theorem encode_of_decode {bytes : List UInt8} {cs : List Char} (h : decode cs = some bytes) :
    encode bytes = cs := by
  unfold decode at h
  split at h
  case isTrue he => exact Option.some.inj h ▸ he
  case isFalse => exact nomatch h

theorem length_encode {bytes : List UInt8} :
    (encode bytes).length = 4 * ((bytes.length + 2) / 3) := by
  induction bytes using encode.induct
  case case1 => rfl
  case case2 => simp [encode]
  case case3 => simp [encode]
  case case4 a b c bytes ih =>
    rw [encode]
    simp only [List.length_cons, ih]
    omega

theorem decode_encode {bytes : List UInt8} : decode (encode bytes) = some bytes := by
  rw [decode, read_encode, if_pos rfl]

end Base64
