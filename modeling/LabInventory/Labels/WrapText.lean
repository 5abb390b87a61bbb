import Mathlib
import LabInventory.Library.Utf16

open Utf16

namespace LabInventory

namespace Labels

-- `…`
def ellipsis : UInt16 := 0x2026

section

variable {α : Type} [LinearOrder α] (measure : List UInt16 → α) (maxWidth : α)

-- The lines that have been finished, and the one that has been begun.
def wrapCharacters (maxLines : Nat) :
    List (List UInt16) → List (List UInt16) → List UInt16 → List (List UInt16) × List UInt16
  | [], lines, current => (lines, current)
  | character :: characters, lines, current =>
    let candidate := current ++ character
    if measure candidate ≤ maxWidth ∨ current = [] then
      wrapCharacters maxLines characters lines candidate
    else
      let lines := lines ++ [current]
      let current := character
      if lines.length = maxLines then
        (lines, current)
      else
        wrapCharacters maxLines characters lines current

-- Until the ellipsis fits behind it.
def shorten (last : List UInt16) : List UInt16 :=
  if last ≠ [] ∧ measure (last ++ [ellipsis]) > maxWidth then
    shorten last.dropLast
  else
    last
termination_by last.length
decreasing_by
  rename_i h
  rw [List.length_dropLast]
  exact Nat.sub_lt (List.length_pos_of_ne_nil h.left) Nat.one_pos

def wrapText (text : List UInt16) (maxLines : Nat) : List (List UInt16) :=
  let (lines, current) := wrapCharacters measure maxWidth maxLines (characters text) [] []
  if lines.length < maxLines ∧ current ≠ [] then
    lines ++ [current]
  else if lines.length = maxLines ∧ current ≠ [] then
    let last := shorten measure maxWidth (lines.getD (maxLines - 1) [])
    lines.set (maxLines - 1) (last ++ [ellipsis])
  else
    lines

end

-- A line is longer than a character only as far as it fits.
def Fits {α : Type} [LinearOrder α] (measure : List UInt16 → α) (maxWidth : α)
    (line : List (List UInt16)) : Prop :=
  ∀ k, 1 < k → k ≤ line.length → measure (line.take k).flatten ≤ maxWidth

-- There is no room for the character that follows the line.
structure Full {α : Type} [LinearOrder α] (measure : List UInt16 → α) (maxWidth : α)
    (line : List (List UInt16)) (next : List UInt16) : Prop where
  ne_nil : line ≠ []
  fits : Fits measure maxWidth line
  full : maxWidth < measure (line.flatten ++ next)

-- How the characters are broken into full lines, and what is left of them.
inductive Broken {α : Type} [LinearOrder α] (measure : List UInt16 → α) (maxWidth : α) :
    Nat → List (List UInt16) → List (List (List UInt16)) → List (List UInt16) → Prop
  | none {rest} : Broken measure maxWidth 0 rest [] rest
  | line {n characters line next characters' lines rest} :
    characters = line ++ next :: characters' → Full measure maxWidth line next →
    Broken measure maxWidth n (next :: characters') lines rest →
    Broken measure maxWidth (n + 1) characters (line :: lines) rest

-- As much of a line as leaves room for the ellipsis.
structure Longest {α : Type} [LinearOrder α] (measure : List UInt16 → α) (maxWidth : α)
    (last p : List UInt16) : Prop where
  begins : p <+: last
  fits : p = [] ∨ measure (p ++ [ellipsis]) ≤ maxWidth
  longest : ∀ q, q <+: last → q = [] ∨ measure (q ++ [ellipsis]) ≤ maxWidth → q.length ≤ p.length

section Lines

variable {α : Type} [LinearOrder α] {measure : List UInt16 → α} {maxWidth : α}
  {line line' cs cs' rest rest' : List (List UInt16)} {lines lines' : List (List (List UInt16))}
  {last next p q : List UInt16} {n m : Nat}

theorem length_le_of_full (h : Full measure maxWidth line next) (hf : Fits measure maxWidth line')
    (hp : line' <+: line ++ next :: cs) : line'.length ≤ line.length := by
  by_contra hl
  have hl : line.length + 1 ≤ line'.length := Nat.lt_of_not_le hl
  have ht : line'.take (line.length + 1) = line ++ [next] := by
    have hw : line' = (line ++ next :: cs).take line'.length := List.prefix_iff_eq_take.mp hp
    rw [hw, List.take_take, Nat.min_eq_left hl, List.take_length_add_append]
    rfl
  have hk := hf (line.length + 1) (Nat.succ_lt_succ (List.length_pos_of_ne_nil h.ne_nil)) hl
  rw [ht, List.flatten_append, List.flatten_singleton] at hk
  exact absurd h.full (not_lt_of_ge hk)

theorem Full.unique (h : Full measure maxWidth line next) (h' : Full measure maxWidth line' next')
    (he : line ++ next :: cs = line' ++ next' :: cs') : line = line' ∧ next = next' ∧ cs = cs' := by
  have hl : line.length = line'.length := by
    refine Nat.le_antisymm ?_ ?_
    case refine_1 => exact length_le_of_full h' h.fits ⟨_, he⟩
    case refine_2 => exact length_le_of_full h h'.fits ⟨_, he.symm⟩
  obtain ⟨hline, hc⟩ := List.append_inj he hl
  obtain ⟨hnext, hcs⟩ := List.cons.inj hc
  exact ⟨hline, hnext, hcs⟩

theorem broken_succ (h : Broken measure maxWidth (n + 1) cs lines rest) :
    ∃ line next cs' lines', lines = line :: lines' ∧ cs = line ++ next :: cs' ∧
      Full measure maxWidth line next ∧ Broken measure maxWidth n (next :: cs') lines' rest := by
  cases h
  case line hfull he hb => exact ⟨_, _, _, _, rfl, he, hfull, hb⟩

theorem Broken.unique (h : Broken measure maxWidth n cs lines rest)
    (h' : Broken measure maxWidth n cs lines' rest') : lines = lines' ∧ rest = rest' := by
  induction h generalizing lines'
  case none =>
    cases h'
    exact ⟨rfl, rfl⟩
  case line he hfull _ ih =>
    obtain ⟨_, _, _, _, rfl, he', hfull', hb'⟩ := broken_succ h'
    obtain ⟨rfl, rfl, rfl⟩ := hfull.unique hfull' (he.symm.trans he')
    obtain ⟨rfl, rfl⟩ := ih hb'
    exact ⟨rfl, rfl⟩

-- Where the rest fits, there are no more full lines.
theorem Broken.not_fits (h : Broken measure maxWidth m cs lines rest)
    (hf : Fits measure maxWidth rest) (hlt : m < n) : ¬Broken measure maxWidth n cs lines' rest' := by
  obtain ⟨n, rfl⟩ := Nat.exists_eq_succ_of_ne_zero (Nat.ne_zero_of_lt hlt)
  intro h'
  induction h generalizing n lines'
  case none =>
    obtain ⟨line, next, cs', _, _, he, hfull, _⟩ := broken_succ h'
    have hl := length_le_of_full hfull hf ⟨[], (List.append_nil _).trans he⟩
    rw [he, List.length_append, List.length_cons] at hl
    omega
  case line he hfull _ ih =>
    obtain ⟨_, _, _, _, rfl, he', hfull', hb'⟩ := broken_succ h'
    obtain ⟨rfl, rfl, rfl⟩ := hfull.unique hfull' (he.symm.trans he')
    have hlt := Nat.lt_of_succ_lt_succ hlt
    obtain ⟨n, rfl⟩ := Nat.exists_eq_succ_of_ne_zero (Nat.ne_zero_of_lt hlt)
    exact ih hf n hlt hb'

theorem Broken.eq_flatten (h : Broken measure maxWidth n cs lines rest) :
    cs = lines.flatten ++ rest := by
  induction h
  case none => rfl
  case line he _ _ ih => rw [he, ih, List.flatten_cons, List.append_assoc]

theorem Broken.length_eq (h : Broken measure maxWidth n cs lines rest) : lines.length = n := by
  induction h
  case none => rfl
  case line ih => exact congrArg (· + 1) ih

theorem Broken.fits (h : Broken measure maxWidth n cs lines rest) (hl : line ∈ lines) :
    line ≠ [] ∧ Fits measure maxWidth line := by
  induction h
  case none => exact absurd hl List.not_mem_nil
  case line hfull _ ih =>
    obtain rfl | hl := List.mem_cons.mp hl
    case inl => exact ⟨hfull.ne_nil, hfull.fits⟩
    case inr => exact ih hl

theorem Broken.rest_ne_nil (h : Broken measure maxWidth n cs lines rest) (hc : cs ≠ []) :
    rest ≠ [] := by
  induction h
  case none => exact hc
  case line ih => exact ih (List.cons_ne_nil _ _)

theorem Fits.snoc (h : Fits measure maxWidth line)
    (hn : measure (line.flatten ++ next) ≤ maxWidth ∨ line = []) :
    Fits measure maxWidth (line ++ [next]) := by
  intro k hk hl
  rw [List.length_append, List.length_singleton] at hl
  by_cases hlt : k ≤ line.length
  case pos =>
    rw [List.take_append_of_le_length hlt]
    exact h k hk hlt
  case neg =>
    have he : k = (line ++ [next]).length := by
      rw [List.length_append, List.length_singleton]
      omega
    obtain hn | rfl := hn
    case inl => rwa [he, List.take_length, List.flatten_append, List.flatten_singleton]
    case inr =>
      rw [List.length_nil] at hl
      omega

-- The characters have been broken into full lines, until there were enough of them.
def Wrapped {α : Type} [LinearOrder α] (measure : List UInt16 → α) (maxWidth : α) (maxLines : Nat)
    (characters texts : List (List UInt16)) (result : List (List UInt16) × List UInt16) : Prop :=
  ∃ n lines rest, result.fst = texts ++ lines.map List.flatten ∧
    Broken measure maxWidth n characters lines rest ∧
    (texts.length + n = maxLines ∧ 0 < n ∧ result.snd ≠ [] ∨
      texts.length + n < maxLines ∧ Fits measure maxWidth rest ∧ result.snd = rest.flatten)

theorem wrapped {maxLines : Nat} {texts : List (List UInt16)} (hn : ∀ c ∈ line ++ cs, c ≠ [])
    (hf : Fits measure maxWidth line) (ht : texts.length < maxLines) :
    Wrapped measure maxWidth maxLines (line ++ cs) texts
      (wrapCharacters measure maxWidth maxLines cs texts line.flatten) := by
  induction cs generalizing line texts
  case nil =>
    refine ⟨0, [], line, (List.append_nil _).symm, ?_, .inr ⟨ht, hf, rfl⟩⟩
    rw [List.append_nil]
    exact .none
  case cons c cs ih =>
    have hnil : line.flatten = [] ↔ line = [] :=
      flatten_eq_nil_iff fun d hd => hn d (List.mem_append_left _ hd)
    have hc : c ≠ [] := hn c (List.mem_append_right _ List.mem_cons_self)
    by_cases hfits : measure (line.flatten ++ c) ≤ maxWidth ∨ line.flatten = []
    case pos =>
      have hflat : line.flatten ++ c = (line ++ [c]).flatten := by
        rw [List.flatten_append, List.flatten_singleton]
      have ha : line ++ c :: cs = line ++ [c] ++ cs := List.append_cons _ _ _
      rw [wrapCharacters, if_pos hfits, hflat, ha]
      exact ih (ha ▸ hn) (hf.snoc (hfits.imp_right hnil.mp)) ht
    case neg =>
      have hline : line ≠ [] := fun h => hfits (.inr (hnil.mpr h))
      have hfull : Full measure maxWidth line c :=
        ⟨hline, hf, lt_of_not_ge fun h => hfits (.inl h)⟩
      have hl : (texts ++ [line.flatten]).length = texts.length + 1 := List.length_append
      rw [wrapCharacters, if_neg hfits]
      by_cases hm : (texts ++ [line.flatten]).length = maxLines
      case pos =>
        refine ⟨1, [line], c :: cs, ?_, .line rfl hfull .none, .inl ⟨hl ▸ hm, Nat.one_pos, ?_⟩⟩
        case refine_1 => exact congrArg Prod.fst (if_pos hm)
        case refine_2 => exact (congrArg Prod.snd (if_pos hm)).trans_ne hc
      case neg =>
        have hone : Fits measure maxWidth [c] := fun k hk hl => absurd hl (Nat.not_le_of_lt hk)
        have hw : Wrapped measure maxWidth maxLines ([c] ++ cs) (texts ++ [line.flatten])
            (wrapCharacters measure maxWidth maxLines cs (texts ++ [line.flatten]) [c].flatten) :=
          ih (fun d hd => hn d (List.mem_append_right _ hd)) hone (Nat.lt_of_le_of_ne (hl ▸ ht) hm)
        rw [List.flatten_singleton] at hw
        obtain ⟨n, lines, rest, he, hb, hr⟩ := hw
        refine ⟨n + 1, line :: lines, rest, ?_, .line rfl hfull hb, ?_⟩
        case refine_1 =>
          refine (congrArg Prod.fst (if_neg hm)).trans <| he.trans ?_
          rw [List.append_assoc]
          rfl
        case refine_2 =>
          rw [hl] at hr
          dsimp only
          rw [if_neg hm]
          exact hr.imp (fun h => ⟨by omega, Nat.succ_pos _, h.right.right⟩)
            fun h => ⟨by omega, h.right⟩

theorem longest_shorten : Longest measure maxWidth last (shorten measure maxWidth last) := by
  induction last using shorten.induct measure maxWidth
  case case1 last h ih =>
    rw [shorten, if_pos h]
    refine ⟨ih.begins.trans (List.dropLast_prefix _), ih.fits, fun q hq hf => ?_⟩
    have hne : q ≠ last := by
      rintro rfl
      obtain hf | hf := hf
      case inl => exact h.left hf
      case inr => exact absurd h.right (not_lt_of_ge hf)
    refine ih.longest q ?_ hf
    rw [List.dropLast_eq_take, List.prefix_take_iff]
    refine ⟨hq, Nat.le_sub_one_of_lt <| Nat.lt_of_le_of_ne hq.length_le fun he => ?_⟩
    exact hne <| hq.eq_of_length he
  case case2 last h =>
    rw [shorten, if_neg h]
    refine ⟨List.prefix_refl _, ?_, fun q hq _ => hq.length_le⟩
    by_cases hl : last = []
    case pos => exact .inl hl
    case neg => exact .inr <| le_of_not_gt fun hlt => h ⟨hl, hlt⟩

theorem Longest.unique (h : Longest measure maxWidth last p) (h' : Longest measure maxWidth last q) :
    p = q := by
  have hl : p.length = q.length := Nat.le_antisymm (h'.longest p h.begins h.fits)
    (h.longest q h'.begins h'.fits)
  have hp := List.prefix_iff_eq_take.mp h.begins
  have hq := List.prefix_iff_eq_take.mp h'.begins
  rw [hp, hq, hl]

theorem Broken.rest_ne_nil_of_pos (h : Broken measure maxWidth n cs lines rest) (hn : 0 < n) :
    rest ≠ [] := by
  obtain ⟨n, rfl⟩ := Nat.exists_eq_succ_of_ne_zero (Nat.ne_of_gt hn)
  obtain ⟨_, _, _, _, rfl, _, _, hb⟩ := broken_succ h
  exact hb.rest_ne_nil (List.cons_ne_nil _ _)

theorem wrapText_cases (measure : List UInt16 → α) (maxWidth : α) (text : List UInt16)
    {maxLines : Nat} (h : 0 < maxLines) :
    (∃ init line rest, Broken measure maxWidth maxLines (characters text) (init ++ [line]) rest ∧
      wrapText measure maxWidth text maxLines = init.map List.flatten ++
        [shorten measure maxWidth line.flatten ++ [ellipsis]]) ∨
    ∃ n lines rest, n < maxLines ∧ Broken measure maxWidth n (characters text) lines rest ∧
      Fits measure maxWidth rest ∧ wrapText measure maxWidth text maxLines =
        lines.map List.flatten ++ if rest = [] then [] else [rest.flatten] := by
  have hn : ∀ c ∈ [] ++ characters text, c ≠ [] := fun c hc => ne_nil_of_mem hc
  have hf : Fits measure maxWidth [] := fun k hk hl => absurd (Nat.le_trans hk hl) (by decide)
  have hw : Wrapped measure maxWidth maxLines (characters text) []
      (wrapCharacters measure maxWidth maxLines (characters text) [] []) := wrapped hn hf h
  unfold wrapText
  obtain ⟨⟨texts, current⟩, hres⟩ :
    ∃ result, wrapCharacters measure maxWidth maxLines (characters text) [] [] = result := ⟨_, rfl⟩
  rw [hres] at hw ⊢
  obtain ⟨n, lines, rest, ht, hb, hr⟩ := hw
  have ht : texts = lines.map List.flatten := ht
  have hl : texts.length = n := by rw [ht, List.length_map, hb.length_eq]
  rw [List.length_nil, Nat.zero_add] at hr
  obtain ⟨rfl, hpos, hc⟩ | ⟨hlt, hfits, hc⟩ := hr
  case inl =>
    left
    have hc : current ≠ [] := hc
    obtain rfl | ⟨init, line, rfl⟩ := List.eq_nil_or_concat' lines
    case inl => exact absurd hb.length_eq.symm (Nat.ne_of_gt hpos)
    case inr =>
      refine ⟨init, line, rest, hb, ?_⟩
      have hi : n - 1 = (init.map List.flatten).length := by
        have hlen := hb.length_eq
        rw [List.length_append, List.length_singleton] at hlen
        rw [List.length_map]
        omega
      dsimp only
      rw [if_neg (fun h => absurd h.left (Nat.not_lt_of_le (Nat.le_of_eq hl.symm))),
        if_pos ⟨hl, hc⟩, ht, List.map_append, hi]
      simp
  case inr =>
    right
    refine ⟨n, lines, rest, hlt, hb, hfits, ?_⟩
    have hc : current = rest.flatten := hc
    have hnil : rest.flatten = [] ↔ rest = [] := by
      refine flatten_eq_nil_iff fun c hm => ne_nil_of_mem (s := text) ?_
      rw [hb.eq_flatten]
      exact List.mem_append_right _ hm
    dsimp only
    by_cases hrest : rest = []
    case pos =>
      have hcur : current = [] := hc.trans (hnil.mpr hrest)
      rw [if_neg (fun h => h.right hcur), if_neg (fun h => h.right hcur), if_pos hrest, ht,
        List.append_nil]
    case neg =>
      have hcur : current ≠ [] := fun h => hrest (hnil.mp (hc.symm.trans h))
      rw [if_pos ⟨hl ▸ hlt, hcur⟩, if_neg hrest, ht, hc]

end Lines

-- The lines are made up of characters of the text. The last one may have an ellipsis behind them.
def Shown (lines : List (List (List UInt16))) (added : Bool) (texts : List (List UInt16)) : Prop :=
  if added then
    ∃ init last, lines = init ++ [last] ∧
      texts = init.map List.flatten ++ [last.flatten ++ [ellipsis]]
  else
    texts = lines.map List.flatten

structure Keeps {α : Type} [LinearOrder α] (measure : List UInt16 → α) (maxWidth : α)
    (text : List UInt16) (maxLines : Nat) (texts : List (List UInt16)) : Prop where
  count : texts.length ≤ maxLines
  fits : ∀ line ∈ texts, 1 < (characters line).length → measure line ≤ maxWidth
  text : ∃ lines added, Shown lines added texts ∧
    (∃ m, lines.flatten = (characters text).take m) ∧ (lines.flatten.flatten = text ↔ added = false)

-- The place where the last line is cut is not within a character.
def CutsBetweenCharacters {α : Type} [LinearOrder α] (measure : List UInt16 → α) (maxWidth : α)
    (text : List UInt16) (maxLines : Nat) : Prop :=
  ∀ lines line rest p t, Broken measure maxWidth maxLines (characters text) (lines ++ [line]) rest →
    line.flatten = p ++ t → Longest measure maxWidth line.flatten p → ¬Splits p t

section Keeping

variable {α : Type} [LinearOrder α] {measure : List UInt16 → α} {maxWidth : α}
  {text p t : List UInt16} {line rest : List (List UInt16)} {lines init : List (List (List UInt16))}
  {texts : List (List UInt16)} {maxLines n : Nat}

theorem Keeps.not_splits (h : Keeps measure maxWidth text maxLines (texts ++ [p ++ [ellipsis]]))
    (ht : text = texts.flatten ++ p ++ t) : ¬Splits p t := by
  intro hs
  obtain ⟨u, v, hu, hv, hhigh, hlow⟩ := hs
  obtain ⟨lines, added, hshown, ⟨m, hm⟩, hcomplete⟩ := h.text
  cases added
  case false =>
    have hshown : texts ++ [p ++ [ellipsis]] = lines.map List.flatten := hshown
    have hc := hcomplete.mpr rfl
    rw [List.flatten_flatten, ← hshown, ht, List.flatten_append, List.flatten_singleton,
      ← List.append_assoc] at hc
    obtain rfl := List.append_cancel_left hc
    obtain rfl := Option.some.inj hv
    exact absurd hlow (by decide)
  case true =>
    obtain ⟨init, last, rfl, he⟩ := hshown
    obtain ⟨rfl, hlast⟩ := List.append_inj' he rfl
    obtain rfl := List.append_cancel_right (List.cons.inj hlast).left
    have hflat : (init.map List.flatten).flatten ++ last.flatten =
        ((characters ((init.map List.flatten).flatten ++ last.flatten ++ t)).take m).flatten := by
      rw [← ht, ← hm, List.flatten_append, List.flatten_append, List.flatten_singleton,
        List.flatten_flatten]
    refine exists_take_iff.mp ⟨m, hflat⟩ ?_
    have hne : last.flatten ≠ [] := by
      intro hnil
      rw [hnil] at hu
      exact nomatch hu
    exact (splits_append_left hne).mpr ⟨u, v, hu, hv, hhigh, hlow⟩

-- What has been broken are the characters of the text.
theorem Broken.characters_flatten (hb : Broken measure maxWidth n (characters text) lines rest)
    (hl : line ∈ lines ∨ line = rest) : characters line.flatten = line := by
  have he := hb.eq_flatten
  obtain hl | rfl := hl
  case inl =>
    obtain ⟨before, after, rfl⟩ := List.append_of_mem hl
    rw [List.flatten_append, List.flatten_cons, ← List.append_assoc, List.append_assoc] at he
    exact characters_infix he
  case inr => exact characters_infix (he.trans (List.append_nil _).symm)

theorem Fits.measure_le (hf : Fits measure maxWidth line) (hc : characters line.flatten = line)
    (hl : 1 < (characters line.flatten).length) : measure line.flatten ≤ maxWidth := by
  rw [hc] at hl
  have hk := hf line.length hl (Nat.le_refl _)
  rwa [List.take_length] at hk

theorem keeps_of_not_splits (hb : Broken measure maxWidth maxLines (characters text) (init ++ [line]) rest)
    (h : 0 < maxLines) (hp : Longest measure maxWidth line.flatten p) (ht : line.flatten = p ++ t)
    (hs : ¬Splits p t) :
    Keeps measure maxWidth text maxLines (init.map List.flatten ++ [p ++ [ellipsis]]) := by
  have hline : characters line.flatten = line :=
    hb.characters_flatten <| .inl <| List.mem_append_right _ List.mem_cons_self
  obtain ⟨k, hk⟩ := exists_take_iff.mpr hs
  rw [← ht, hline] at hk
  have hsplit : characters text = (init.flatten ++ line.take k) ++ (line.drop k ++ rest) := by
    rw [hb.eq_flatten, List.flatten_append, List.flatten_singleton, List.append_assoc,
      List.append_assoc, ← List.append_assoc (line.take k), List.take_append_drop]
  refine ⟨?_, fun l hl hc => ?_, init ++ [line.take k], true, ?_, ?_, ?_⟩
  case refine_1 =>
    have hlen := hb.length_eq
    rw [List.length_append, List.length_singleton] at hlen
    rw [List.length_append, List.length_map, List.length_singleton]
    exact Nat.le_of_eq hlen
  case refine_2 =>
    obtain hl | hl := List.mem_append.mp hl
    case inl =>
      obtain ⟨line', hm, rfl⟩ := List.mem_map.mp hl
      have hm : line' ∈ init ++ [line] := List.mem_append_left _ hm
      exact (hb.fits hm).right.measure_le (hb.characters_flatten (.inl hm)) hc
    case inr =>
      obtain rfl := List.mem_singleton.mp hl
      obtain rfl | hfits := hp.fits
      case inl => exact absurd hc (by decide)
      case inr => exact hfits
  case refine_3 => exact ⟨init, line.take k, rfl, by rw [hk]⟩
  case refine_4 =>
    refine ⟨(init.flatten ++ line.take k).length, ?_⟩
    rw [hsplit, List.take_left, List.flatten_append, List.flatten_singleton]
  case refine_5 =>
    refine iff_of_false (fun he => ?_) (fun he => nomatch he)
    have hflat : (init.flatten ++ line.take k).flatten ++ (line.drop k ++ rest).flatten = text := by
      rw [← List.flatten_append, ← hsplit, flatten_characters]
    rw [List.flatten_append, List.flatten_singleton] at he
    rw [he, List.append_right_eq_self] at hflat
    have hnil : line.drop k ++ rest = [] := by
      refine (flatten_eq_nil_iff fun c hm => ne_nil_of_mem (s := text) ?_).mp hflat
      rw [hsplit]
      exact List.mem_append_right _ hm
    exact hb.rest_ne_nil_of_pos h (List.append_eq_nil_iff.mp hnil).right

theorem keeps_of_fits (hb : Broken measure maxWidth n (characters text) lines rest)
    (hn : n < maxLines) (hf : Fits measure maxWidth rest) :
    Keeps measure maxWidth text maxLines
      (lines.map List.flatten ++ if rest = [] then [] else [rest.flatten]) := by
  let last := if rest = [] then [] else [rest]
  have hlast : last.flatten = rest ∧ last.length ≤ 1 ∧ (∀ line ∈ last, line = rest) ∧
      (if rest = [] then [] else [rest.flatten]) = last.map List.flatten := by
    by_cases hr : rest = [] <;> simp [last, hr]
  obtain ⟨hflat, hlen, hmem, he⟩ := hlast
  have hall : (lines ++ last).flatten = characters text := by
    rw [List.flatten_append, hflat, hb.eq_flatten]
  rw [he, ← List.map_append]
  refine ⟨?_, fun l hl hc => ?_, lines ++ last, false, rfl, ?_, ?_⟩
  case refine_1 =>
    rw [List.length_map, List.length_append, hb.length_eq]
    omega
  case refine_2 =>
    obtain ⟨line, hm, rfl⟩ := List.mem_map.mp hl
    obtain hm | hm := List.mem_append.mp hm
    case inl => exact (hb.fits hm).right.measure_le (hb.characters_flatten (.inl hm)) hc
    case inr =>
      obtain rfl := hmem line hm
      exact hf.measure_le (hb.characters_flatten (.inr rfl)) hc
  case refine_3 => exact ⟨(characters text).length, hall.trans (List.take_length).symm⟩
  case refine_4 => exact iff_of_true (hall ▸ flatten_characters) rfl

-- There is nothing to be split in the basic plane.
theorem cuts_of_basic (h : ∀ u ∈ text, isHigh u = false) :
    CutsBetweenCharacters measure maxWidth text maxLines := by
  intro lines line rest p t hb ht _ hs
  obtain ⟨u, _, hu, _, hhigh, _⟩ := hs
  have hm : u ∈ line.flatten := ht ▸ List.mem_append_left t (List.mem_of_getLast? hu)
  have hflat : text = (lines ++ [line]).flatten.flatten ++ rest.flatten := by
    rw [← List.flatten_append, ← hb.eq_flatten, flatten_characters]
  rw [List.flatten_append, List.flatten_singleton, List.flatten_append] at hflat
  have hu : u ∈ text := hflat ▸ List.mem_append_left _ (List.mem_append_right _ hm)
  exact Bool.false_ne_true <| (h u hu).symm.trans hhigh

end Keeping

theorem wrap_text_keeps_iff {α : Type} [LinearOrder α] (measure : List UInt16 → α) (maxWidth : α)
    (text : List UInt16) (maxLines : Nat) (h : 0 < maxLines) :
    Keeps measure maxWidth text maxLines (wrapText measure maxWidth text maxLines) ↔
      CutsBetweenCharacters measure maxWidth text maxLines := by
  obtain ⟨init, line, rest, hb, hw⟩ | ⟨n, lines, rest, hn, hb, hf, hw⟩ :=
    wrapText_cases measure maxWidth text h
  case inl =>
    rw [hw]
    have hp : Longest measure maxWidth line.flatten (shorten measure maxWidth line.flatten) :=
      longest_shorten
    constructor
    case mp =>
      intro hk lines line' rest' q t hb' ht hq
      obtain ⟨hl, rfl⟩ := hb.unique hb'
      obtain ⟨rfl, hline⟩ := List.append_inj' hl rfl
      obtain ⟨rfl, _⟩ := List.cons.inj hline
      obtain rfl := hq.unique hp
      intro hs
      have htext : text = (init.map List.flatten).flatten ++
          shorten measure maxWidth line.flatten ++ (t ++ rest.flatten) := by
        rw [← List.append_assoc, List.append_assoc (init.map List.flatten).flatten, ← ht,
          ← List.flatten_flatten, ← List.flatten_append, ← List.flatten_append]
        have he := hb.eq_flatten
        rw [List.flatten_append, List.flatten_singleton] at he
        rw [← he, flatten_characters]
      have hne : t ≠ [] := by
        rintro rfl
        obtain ⟨_, _, _, hv, _⟩ := hs
        exact nomatch hv
      exact hk.not_splits htext ((splits_append_right hne).mpr hs)
    case mpr =>
      intro hcut
      obtain ⟨t, ht⟩ := hp.begins
      exact keeps_of_not_splits hb h hp ht.symm (hcut _ _ _ _ _ hb ht.symm hp)
  case inr =>
    rw [hw]
    refine iff_of_true (keeps_of_fits hb hn hf) fun lines' line' rest' p t hb' => ?_
    exact absurd hb' (hb.not_fits hf hn)

section Examples

theorem wrap_text_keeps_iff_basic :
    Keeps List.length 3 [0x61, 0x62, 0x63, 0x64] 1
      (wrapText List.length 3 [0x61, 0x62, 0x63, 0x64] 1) := by
  refine (wrap_text_keeps_iff List.length 3 [0x61, 0x62, 0x63, 0x64] 1 Nat.one_pos).mpr ?_
  have hall : ([0x61, 0x62, 0x63, 0x64] : List UInt16).all fun u => isHigh u = false := by decide
  exact cuts_of_basic fun u hu => of_decide_eq_true <| List.all_eq_true.mp hall u hu

-- `a😀b`
def grinning : List UInt16 :=
  [0x61, 0xD83D, 0xDE00, 0x62]

theorem wrapText_grinning : wrapText List.length 3 grinning 1 = [[0x61, 0xD83D] ++ [ellipsis]] := by
  have hw : wrapCharacters List.length 3 1 (characters grinning) [] [] =
      ([[0x61, 0xD83D, 0xDE00]], [0x62]) := by decide
  have hs : shorten List.length 3 [0x61, 0xD83D, 0xDE00] = [0x61, 0xD83D] := by
    rw [shorten, if_pos (by decide), shorten, if_neg (by decide)]
    rfl
  simp only [wrapText, hw]
  rw [if_neg (by decide), if_pos (by decide)]
  exact congrArg (fun last => [last ++ [ellipsis]]) hs

theorem wrap_text_splits_grinning : (∀ s t : List UInt16, s.length ≤ (s ++ t).length) ∧
    ¬Keeps List.length 3 grinning 1 (wrapText List.length 3 grinning 1) := by
  refine ⟨fun s t => ?_, fun h => ?_⟩
  case refine_1 =>
    rw [List.length_append]
    exact Nat.le_add_right _ _
  case refine_2 =>
    rw [wrapText_grinning] at h
    have hk : Keeps List.length 3 grinning 1 ([] ++ [[0x61, 0xD83D] ++ [ellipsis]]) := h
    exact hk.not_splits (t := [0xDE00, 0x62]) rfl ⟨0xD83D, 0xDE00, rfl, rfl, rfl, rfl⟩

end Examples

end Labels

end LabInventory
