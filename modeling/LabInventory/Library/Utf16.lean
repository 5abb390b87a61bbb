import Mathlib.Data.List.Basic

-- Text as code units, where a character outside the basic plane takes two of them.
namespace Utf16

def isHigh (u : UInt16) : Bool :=
  0xD800 ≤ u && u < 0xDC00

def isLow (u : UInt16) : Bool :=
  0xDC00 ≤ u && u < 0xE000

-- A surrogate without its partner is a character of its own.
def characters : List UInt16 → List (List UInt16)
  | [] => []
  | [u] => [[u]]
  | u :: v :: units =>
    if isHigh u && isLow v then
      [u, v] :: characters units
    else
      [u] :: characters (v :: units)

-- The border between the two texts is within a character.
def Splits (s t : List UInt16) : Prop :=
  ∃ u v, s.getLast? = some u ∧ t.head? = some v ∧ isHigh u ∧ isLow v

variable {s t c units : List UInt16} {cs : List (List UInt16)} {u v : UInt16} {m : Nat}

theorem characters_pair (h : isHigh u && isLow v) :
    characters (u :: v :: units) = [u, v] :: characters units := by
  rw [characters, if_pos h]

theorem characters_single (h : ¬(isHigh u && isLow v)) :
    characters (u :: v :: units) = [u] :: characters (v :: units) := by
  rw [characters, if_neg h]

theorem not_isHigh (h : isLow u) : isHigh u = false := by
  simp only [isHigh, isLow, Bool.and_eq_true, decide_eq_true_eq, Bool.and_eq_false_iff,
    decide_eq_false_iff_not] at h ⊢
  exact .inr fun hlt => UInt16.not_le.mpr hlt h.left

theorem flatten_characters : (characters s).flatten = s := by
  induction s using characters.induct
  case case1 => rfl
  case case2 => rfl
  case case3 u v units h ih =>
    rw [characters_pair h, List.flatten_cons, ih]
    rfl
  case case4 u v units h ih =>
    rw [characters_single h, List.flatten_cons, ih]
    rfl

theorem ne_nil_of_mem (h : c ∈ characters s) : c ≠ [] := by
  induction s using characters.induct
  case case1 => exact absurd h List.not_mem_nil
  case case2 u => exact List.mem_singleton.mp h ▸ List.cons_ne_nil _ _
  case case3 u v units hp ih =>
    rw [characters_pair hp] at h
    obtain rfl | h := List.mem_cons.mp h
    case inl => exact List.cons_ne_nil _ _
    case inr => exact ih h
  case case4 u v units hp ih =>
    rw [characters_single hp] at h
    obtain rfl | h := List.mem_cons.mp h
    case inl => exact List.cons_ne_nil _ _
    case inr => exact ih h

theorem splits_append_left (h : s ≠ []) : Splits (t ++ s) c ↔ Splits s c := by
  unfold Splits
  rw [List.getLast?_append_of_ne_nil _ h]

theorem splits_append_right (h : s ≠ []) : Splits t (s ++ c) ↔ Splits t s := by
  unfold Splits
  rw [List.head?_append_of_ne_nil _ h]

theorem not_splits_nil : ¬Splits [] t := by
  rintro ⟨_, _, h, _⟩
  exact nomatch h

-- Texts that do not share a character are taken apart on their own.
theorem characters_append (h : ¬Splits s t) : characters (s ++ t) = characters s ++ characters t := by
  induction s using characters.induct
  case case1 => rfl
  case case2 u =>
    cases t
    case nil => rfl
    case cons v units =>
      have hp : ¬(isHigh u && isLow v) := by
        intro hp
        obtain ⟨hu, hv⟩ := Bool.and_eq_true_iff.mp hp
        exact h ⟨u, v, rfl, rfl, hu, hv⟩
      exact characters_single hp
  case case3 u v units hp ih =>
    have hn : ¬Splits units t := by
      intro hs
      cases units
      case nil => exact not_splits_nil hs
      case cons w units =>
        exact h ((splits_append_left (t := [u, v]) (List.cons_ne_nil _ _)).mpr hs)
    rw [List.cons_append, List.cons_append, characters_pair hp, ih hn, characters_pair hp]
    rfl
  case case4 u v units hp ih =>
    have hn : ¬Splits (v :: units) t := fun hs =>
      h ((splits_append_left (t := [u]) (List.cons_ne_nil _ _)).mpr hs)
    rw [List.cons_append, List.cons_append, characters_single hp, characters_single hp]
    exact congrArg ([u] :: ·) (ih hn)

theorem not_splits_cons (hs : ∀ m, ¬Splits (cs.take m).flatten (cs.drop m).flatten)
    (hc : ¬Splits c cs.flatten) :
    ¬Splits ((c :: cs).take m).flatten ((c :: cs).drop m).flatten := by
  cases m
  case zero => exact not_splits_nil
  case succ m =>
    rw [List.take_succ_cons, List.drop_succ_cons, List.flatten_cons]
    by_cases he : (cs.take m).flatten = []
    case pos =>
      have hd : (cs.drop m).flatten = cs.flatten := by
        rw [← List.take_append_drop m cs, List.flatten_append, he, List.nil_append,
          List.take_append_drop]
      rwa [he, List.append_nil, hd]
    case neg => exact fun h => hs m <| (splits_append_left he).mp h

theorem not_splits_take :
    ¬Splits ((characters s).take m).flatten ((characters s).drop m).flatten := by
  induction s using characters.induct generalizing m
  case case1 =>
    rw [characters, List.take_nil]
    exact not_splits_nil
  case case2 u =>
    refine not_splits_cons (fun m => ?_) ?_
    case refine_1 =>
      rw [List.take_nil]
      exact not_splits_nil
    case refine_2 =>
      rintro ⟨_, _, _, h, _⟩
      exact nomatch h
  case case3 u v units hp ih =>
    rw [characters_pair hp]
    refine not_splits_cons (fun m => ih) ?_
    rintro ⟨v', w, hv, hw, hhigh, _⟩
    obtain rfl := Option.some.inj hv
    obtain ⟨_, hlow⟩ := Bool.and_eq_true_iff.mp hp
    exact Bool.false_ne_true <| (not_isHigh hlow).symm.trans hhigh
  case case4 u v units hp ih =>
    rw [characters_single hp]
    refine not_splits_cons (fun m => ih) ?_
    rw [flatten_characters]
    rintro ⟨u', v', hu, hv, hhigh, hlow⟩
    obtain rfl := Option.some.inj hu
    obtain rfl := Option.some.inj hv
    exact hp <| Bool.and_eq_true_iff.mpr ⟨hhigh, hlow⟩

-- The whole characters of a text are followed by whole characters.
theorem exists_take_iff : (∃ m, s = ((characters (s ++ t)).take m).flatten) ↔ ¬Splits s t := by
  constructor
  case mp =>
    rintro ⟨m, h⟩
    have ht : ((characters (s ++ t)).drop m).flatten = t := by
      have hf : ((characters (s ++ t)).take m).flatten ++ ((characters (s ++ t)).drop m).flatten =
          s ++ t := by
        rw [← List.flatten_append, List.take_append_drop, flatten_characters]
      rw [← h] at hf
      exact List.append_cancel_left hf
    have hn : ¬Splits ((characters (s ++ t)).take m).flatten ((characters (s ++ t)).drop m).flatten :=
      not_splits_take
    rw [← h, ht] at hn
    exact hn
  case mpr =>
    intro h
    refine ⟨(characters s).length, ?_⟩
    rw [characters_append h, List.take_left, flatten_characters]

theorem flatten_eq_nil_iff (h : ∀ c ∈ cs, c ≠ []) : cs.flatten = [] ↔ cs = [] := by
  refine ⟨fun hf => List.eq_nil_iff_forall_not_mem.mpr fun c hc => h c hc ?_, fun he => he ▸ rfl⟩
  exact List.flatten_eq_nil_iff.mp hf c hc

theorem eq_of_flatten_eq {cs cs' ds ds' : List (List UInt16)} (hn : ∀ c ∈ cs ++ ds, c ≠ [])
    (he : cs ++ ds = cs' ++ ds') (hf : cs.flatten = cs'.flatten) : cs = cs' := by
  have hp : cs <+: cs' ∨ cs' <+: cs :=
    List.prefix_or_prefix_of_prefix ⟨ds, rfl⟩ ⟨ds', he.symm⟩
  obtain ⟨es, rfl⟩ | ⟨es, rfl⟩ := hp
  case inl =>
    rw [List.flatten_append, List.self_eq_append_right] at hf
    have hs : ∀ c ∈ es, c ≠ [] := fun c hc =>
      hn c <| he ▸ List.mem_append_left _ (List.mem_append_right _ hc)
    rw [(flatten_eq_nil_iff hs).mp hf, List.append_nil]
  case inr =>
    rw [List.flatten_append, List.append_right_eq_self] at hf
    have hs : ∀ c ∈ es, c ≠ [] := fun c hc =>
      hn c <| List.mem_append_left _ (List.mem_append_right _ hc)
    rw [(flatten_eq_nil_iff hs).mp hf, List.append_nil]

-- Some of the characters of a text in a row are the characters of what they make up.
theorem characters_take_drop : characters ((characters s).take m).flatten = (characters s).take m ∧
    characters ((characters s).drop m).flatten = (characters s).drop m := by
  have hs : ((characters s).take m).flatten ++ ((characters s).drop m).flatten = s := by
    rw [← List.flatten_append, List.take_append_drop, flatten_characters]
  have ha := characters_append (not_splits_take (s := s) (m := m))
  rw [hs] at ha
  have hn : ∀ c ∈ (characters s).take m ++ (characters s).drop m, c ≠ [] := by
    rw [List.take_append_drop]
    exact fun c hc => ne_nil_of_mem hc
  have ht : (characters s).take m = characters ((characters s).take m).flatten :=
    eq_of_flatten_eq hn ((List.take_append_drop _ _).trans ha) flatten_characters.symm
  refine ⟨ht.symm, ?_⟩
  have hd : (characters s).take m ++ (characters s).drop m =
      (characters s).take m ++ characters ((characters s).drop m).flatten := by
    rw [List.take_append_drop]
    exact ha.trans (congrArg (· ++ _) ht.symm)
  exact (List.append_cancel_left hd).symm

theorem characters_infix {ds es : List (List UInt16)} (h : characters s = cs ++ ds ++ es) :
    characters ds.flatten = ds := by
  have hd : (characters s).drop cs.length = ds ++ es := by
    rw [h, List.append_assoc, List.drop_left]
  have hw : characters (ds ++ es).flatten = ds ++ es := hd ▸ characters_take_drop.right
  have ht : (characters (ds ++ es).flatten).take ds.length = ds := by
    rw [hw, List.take_left]
  have hc := (characters_take_drop (s := (ds ++ es).flatten) (m := ds.length)).left
  rwa [ht] at hc

end Utf16
