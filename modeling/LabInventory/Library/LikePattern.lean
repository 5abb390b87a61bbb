import Mathlib.Data.List.Infix

-- The patterns of the SQL operator `LIKE`.
namespace LikePattern

inductive Token
  | literal (c : Char)
  | one
  | many
deriving DecidableEq

open Token

-- A pattern that ends with the escape character is an error.
def parse : List Char → Option (List Token)
  | [] => some []
  | '\\' :: c :: s => (parse s).map (literal c :: ·)
  | ['\\'] => none
  | '%' :: s => (parse s).map (many :: ·)
  | '_' :: s => (parse s).map (one :: ·)
  | c :: s => (parse s).map (literal c :: ·)

def isMatch : List Token → List Char → Bool
  | [], s => s.isEmpty
  | literal c :: p, c' :: s => c = c' && isMatch p s
  | one :: p, _ :: s => isMatch p s
  | many :: p, s => s.tails.any (isMatch p)
  | _ :: _, [] => false

-- The characters that stand for something else.
def isMeta (c : Char) : Bool :=
  c = '%' || c = '_' || c = '\\'

-- The shortest text of a pattern, with `x` where any character will do.
def reading (x : Char) (p : List Token) : List Char :=
  p.flatMap fun
    | literal c => [c]
    | one => [x]
    | many => []

variable {p : List Token} {s t : List Char} {c x : Char}

theorem isMatch_many : isMatch (many :: p) s ↔ ∃ t, t <:+ s ∧ isMatch p t := by
  simp [isMatch]

theorem isMatch_literals : isMatch (s.map literal ++ p) t ↔ ∃ u, t = s ++ u ∧ isMatch p u := by
  induction s generalizing t
  case nil => simp
  case cons c s ih =>
    cases t
    case nil => simp [isMatch]
    case cons c' t =>
      rw [List.map_cons, List.cons_append, isMatch, Bool.and_eq_true, decide_eq_true_eq, ih]
      constructor
      case mp =>
        rintro ⟨rfl, u, rfl, hu⟩
        exact ⟨u, rfl, hu⟩
      case mpr =>
        rintro ⟨u, he, hu⟩
        obtain ⟨rfl, rfl⟩ := List.cons.inj he
        exact ⟨rfl, u, rfl, hu⟩

-- Literal characters between wildcards are searched for.
theorem isMatch_infix : isMatch (many :: (s.map literal ++ [many])) t ↔ s <:+: t := by
  have hall {u : List Char} : isMatch [many] u := isMatch_many.mpr ⟨[], List.nil_suffix, rfl⟩
  rw [isMatch_many]
  constructor
  case mp =>
    rintro ⟨u, ⟨v, rfl⟩, hu⟩
    obtain ⟨w, rfl, -⟩ := isMatch_literals.mp hu
    exact ⟨v, w, List.append_assoc v s w⟩
  case mpr =>
    rintro ⟨v, w, rfl⟩
    exact ⟨s ++ w, ⟨v, (List.append_assoc v s w).symm⟩, isMatch_literals.mpr ⟨w, rfl, hall⟩⟩

theorem isMatch_reading : isMatch p (reading x p) := by
  induction p
  case nil => rfl
  case cons token p ih =>
    cases token
    case literal c => simpa [reading, isMatch] using ih
    case one => exact ih
    case many => exact isMatch_many.mpr ⟨_, List.suffix_rfl, ih⟩

theorem not_isMeta (h₁ : ∀ c' s', c = '\\' → s = c' :: s' → False) (h₂ : c = '\\' → s = [] → False)
    (h₃ : c ≠ '%') (h₄ : c ≠ '_') : ¬isMeta c := by
  have hb : c ≠ '\\' := by
    intro hc
    cases s
    case nil => exact h₂ hc rfl
    case cons c' s => exact h₁ c' s hc rfl
  simp only [isMeta, Bool.or_eq_true, decide_eq_true_eq, not_or]
  exact ⟨⟨h₃, h₄⟩, hb⟩

theorem parse_cons (h : ¬isMeta c) : parse (c :: s) = (parse s).map (literal c :: ·) := by
  simp only [isMeta, Bool.or_eq_true, decide_eq_true_eq, not_or] at h
  rw [parse]
  · rintro _ _ rfl
    exact absurd rfl h.right
  · rintro rfl
    exact absurd rfl h.right
  · exact h.left.left
  · exact h.left.right

theorem parse_plain (h : ∀ c ∈ s, ¬isMeta c) :
    parse (s ++ t) = (parse t).map (s.map literal ++ ·) := by
  induction s
  case nil => simp
  case cons c s ih =>
    rw [List.cons_append, parse_cons (h c List.mem_cons_self),
      ih fun c hc => h c (List.mem_cons_of_mem _ hc), Option.map_map]
    rfl

-- A wildcard at the end is never missing what it escapes.
theorem parse_wildcard (hx : ¬isMeta x) : ∃ p, parse (s ++ ['%']) = some p ∧
    (reading x p).length ≤ s.length ∧ (reading x p = s → ∀ c ∈ s, ¬isMeta c) := by
  induction s using parse.induct
  case case1 => exact ⟨[many], rfl, le_rfl, nofun⟩
  case case2 c s ih =>
    obtain ⟨p, hp, hl, -⟩ := ih
    refine ⟨literal c :: p, by simp [parse, hp], Nat.le_succ_of_le (Nat.succ_le_succ hl), fun he => ?_⟩
    have hlength := congrArg List.length he
    simp only [reading, List.flatMap_cons, List.length_append, List.length_cons, List.length_nil] at hl hlength
    omega
  case case3 => exact ⟨[literal '%'], rfl, le_rfl, fun he => absurd (List.cons.inj he).left (by decide)⟩
  case case4 s ih =>
    obtain ⟨p, hp, hl, -⟩ := ih
    refine ⟨many :: p, by simp [parse, hp], Nat.le_succ_of_le hl, fun he => ?_⟩
    have hlength := congrArg List.length he
    simp only [reading, List.flatMap_cons, List.length_append, List.length_cons, List.length_nil] at hl hlength
    omega
  case case5 s ih =>
    obtain ⟨p, hp, hl, -⟩ := ih
    refine ⟨one :: p, by simp [parse, hp], Nat.succ_le_succ hl, fun he => ?_⟩
    obtain ⟨rfl, -⟩ := List.cons.inj he
    exact absurd rfl hx
  case case6 c s h₁ h₂ h₃ h₄ ih =>
    obtain ⟨p, hp, hl, hs⟩ := ih
    have hc : ¬isMeta c := not_isMeta h₁ h₂ h₃ h₄
    refine ⟨literal c :: p, ?_, Nat.succ_le_succ hl, fun he => ?_⟩
    case refine_1 => rw [List.cons_append, parse_cons hc, hp]; rfl
    case refine_2 =>
      obtain ⟨-, he⟩ := List.cons.inj he
      exact List.forall_mem_cons.mpr ⟨hc, hs he⟩

theorem mem_reading (h : parse s = some p) (hc : c ∈ reading x p) : c = x ∨ c ∈ s := by
  induction s using parse.induct generalizing p
  case case1 =>
    obtain rfl := Option.some.inj h
    exact nomatch hc
  case case2 c' s ih =>
    obtain ⟨p, hp, rfl⟩ := Option.map_eq_some_iff.mp h
    obtain rfl | hc := List.mem_cons.mp hc
    case inl => exact Or.inr (by simp)
    case inr => exact (ih hp hc).imp id fun hm => List.mem_cons_of_mem _ (List.mem_cons_of_mem _ hm)
  case case3 => exact nomatch h
  case case4 s ih =>
    obtain ⟨p, hp, rfl⟩ := Option.map_eq_some_iff.mp h
    exact (ih hp hc).imp id (List.mem_cons_of_mem _)
  case case5 s ih =>
    obtain ⟨p, hp, rfl⟩ := Option.map_eq_some_iff.mp h
    obtain rfl | hc := List.mem_cons.mp hc
    case inl => exact Or.inl rfl
    case inr => exact (ih hp hc).imp id (List.mem_cons_of_mem _)
  case case6 c' s h₁ h₂ h₃ h₄ ih =>
    rw [parse_cons (not_isMeta h₁ h₂ h₃ h₄)] at h
    obtain ⟨p, hp, rfl⟩ := Option.map_eq_some_iff.mp h
    obtain rfl | hc := List.mem_cons.mp hc
    case inl => exact Or.inr List.mem_cons_self
    case inr => exact (ih hp hc).imp id (List.mem_cons_of_mem _)

-- A text between wildcards is searched for literally iff there is nothing special about it.
theorem wildcards_literal_iff (hx : ¬isMeta x) : ∃ p, parse ('%' :: s ++ ['%']) = some p ∧
    ((∀ c ∈ s, ¬isMeta c) → ∀ t, isMatch p t ↔ s <:+: t) ∧
    (isMatch p (reading x p) ∧ (s <:+: reading x p → ∀ c ∈ s, ¬isMeta c)) := by
  obtain ⟨p, hp, hl, hs⟩ := parse_wildcard (s := s) hx
  refine ⟨many :: p, ?_, fun hplain t => ?_, isMatch_reading, fun hi => ?_⟩
  case refine_1 => rw [List.cons_append, parse, hp]; rfl
  case refine_2 =>
    have hparse : parse (s ++ ['%']) = some (s.map literal ++ [many]) := parse_plain hplain
    obtain rfl := Option.some.inj (hp.symm.trans hparse)
    exact isMatch_infix
  case refine_3 => exact hs (hi.eq_of_length_le hl).symm

end LikePattern
