import Mathlib.Data.List.Basic
import Mathlib.Data.List.Infix

namespace Sql

def isLabelChar (c : Char) : Bool :=
  c.isAlphanum || c = '_' || c = '-'

-- A label of an `ltree`.
structure Label where
  val : String
  ne_empty : val ≠ ""
  chars : ∀ c ∈ val.toList, isLabelChar c

namespace Label

instance : DecidableEq Label := fun ⟨a, _, _⟩ ⟨b, _, _⟩ =>
  decidable_of_iff (a = b) ⟨fun h => by subst h; rfl, congrArg val⟩

def ofText? (s : String) : Option Label :=
  if h : s ≠ "" ∧ s.toList.all isLabelChar then
    some ⟨s, h.left, List.all_eq_true.mp h.right⟩
  else
    none

theorem ofText?_val (l : Label) : ofText? l.val = some l :=
  dif_pos ⟨l.ne_empty, List.all_eq_true.mpr l.chars⟩

theorem toList_injective : Function.Injective fun l : Label => l.val.toList :=
  fun ⟨_, _, _⟩ ⟨_, _, _⟩ h => by simpa [String.toList_inj] using h

theorem dot_not_mem (l : Label) : '.' ∉ l.val.toList :=
  fun h => absurd (l.chars _ h) (by decide)

end Label

-- A path in a tree, as the labels from the root downwards.
abbrev Ltree := List Label

namespace Ltree

variable {p q r : Ltree} {l : Label} {s : String}

-- `path::text`
def text (p : Ltree) : String :=
  .ofList <| ['.'].intercalate <| p.map (·.val.toList)

-- `text::ltree`
def ofText? (s : String) : Option Ltree :=
  if s = "" then some [] else (s.toList.splitOn '.').mapM fun l => Label.ofText? (.ofList l)

-- `p <@ q`
def IsSelfOrDescendant (p q : Ltree) : Prop :=
  q <+: p

instance : DecidableRel IsSelfOrDescendant :=
  fun p q => inferInstanceAs (Decidable (q <+: p))

def nlevel (p : Ltree) : Nat :=
  p.length

-- The offset of a subpath must lie inside of the path.
def subpath? (p : Ltree) (offset : Nat) : Option Ltree :=
  if offset < p.length then some (p.drop offset) else none

theorem toList_text : p.text.toList = ['.'].intercalate (p.map (·.val.toList)) :=
  String.toList_ofList

@[simp]
theorem text_nil : text [] = "" :=
  rfl

@[simp]
theorem text_singleton : text [l] = l.val := by
  simp [text, String.ofList_toList]

theorem text_append (hp : p ≠ []) (hq : q ≠ []) : text (p ++ q) = p.text ++ "." ++ q.text := by
  refine String.ext ?_
  simp only [String.toList_append, toList_text]
  induction p
  case nil => contradiction
  case cons l p ih =>
    cases p
    case nil =>
      rw [List.singleton_append, List.map_cons, List.intercalate_cons_of_ne_nil (by simpa)]
      simp
    case cons l' p =>
      rw [List.cons_append, List.map_cons, List.intercalate_cons_of_ne_nil (by simp),
        ih (by simp), List.map_cons (l := l' :: p), List.intercalate_cons_of_ne_nil (by simp)]
      simp only [List.append_assoc]

theorem splitOn_text (h : p ≠ []) : p.text.toList.splitOn '.' = p.map (·.val.toList) := by
  rw [toList_text]
  refine List.splitOn_intercalate '.' ?_ (by simpa using h)
  simp only [List.mem_map, forall_exists_index, and_imp, forall_apply_eq_imp_iff₂]
  exact fun l _ => l.dot_not_mem

theorem text_eq_empty : p.text = "" ↔ p = [] := by
  constructor
  case mp =>
    intro h
    by_contra hp
    have hs := splitOn_text hp
    rw [h] at hs
    match p with
    | [l] => exact l.ne_empty <| String.ext <| by simpa using hs.symm
    | _ :: _ :: _ => simp at hs
  case mpr => exact (· ▸ rfl)

theorem mapM_ofText?_map (p : Ltree) :
    (p.map (·.val.toList)).mapM (fun l => Label.ofText? (.ofList l)) = some p := by
  induction p
  case nil => rfl
  case cons l p ih =>
    simp [List.mapM_cons, ih, String.ofList_toList, Label.ofText?_val]

-- A path is recovered from its text.
theorem ofText?_text (p : Ltree) : ofText? p.text = some p := by
  by_cases hp : p = []
  case pos => simp [hp, ofText?]
  case neg =>
    simp only [ofText?, text_eq_empty, hp, splitOn_text hp, if_false]
    exact mapM_ofText?_map p

theorem text_injective : Function.Injective text := fun p q h => by
  have := ofText?_text p
  rw [h, ofText?_text q] at this
  exact (Option.some.inj this).symm

-- One path is below another one iff its text continues the other's with a dot.
theorem isSelfOrDescendant_iff_text (hq : q ≠ []) :
    p.IsSelfOrDescendant q ↔ p.text = q.text ∨ ∃ s, p.text.toList = q.text.toList ++ '.' :: s := by
  constructor
  case mp =>
    rintro ⟨r, rfl⟩
    by_cases hr : r = []
    case pos => simp [hr]
    case neg => exact .inr ⟨(text r).toList, by simp [text_append hq hr]⟩
  case mpr =>
    rintro (h | ⟨s, h⟩)
    case inl => exact text_injective h ▸ List.prefix_rfl
    case inr =>
      have hp : p ≠ [] := fun hp => by simp [hp] at h
      have hs := splitOn_text hp
      rw [h, List.splitOn_append_cons_self, splitOn_text hq] at hs
      obtain ⟨q', hq', he⟩ := List.prefix_map_iff.mp ⟨_, hs⟩
      exact List.map_injective_iff.mpr Label.toList_injective he ▸ hq'

end Ltree

end Sql
