import Mathlib.Data.List.Basic
import Mathlib.Data.List.DropRight

-- Paths as the texts that they are written as.
namespace UnixPath

abbrev Path := List Char

inductive Component
  | root
  | current
  | parent
  | normal (name : Path)
deriving DecidableEq

def component? (name : Path) : Option Component :=
  if name = [] ∨ name = ['.'] then none
  else if name = ['.', '.'] then some .parent
  else some (.normal name)

-- Where a path starts, in view of the first of its names.
def start (p : Path) : List Component :=
  if p.head? = some '/' then [.root]
  else if (p.splitOn '/').head? = some ['.'] then [.current]
  else []

def components (p : Path) : List Component :=
  start p ++ (p.splitOn '/').filterMap component?

-- An absolute path replaces everything.
def push (p q : Path) : Path :=
  if q.head? = some '/' then q
  else if p = [] ∨ p.getLast? = some '/' then p ++ q
  else p ++ '/' :: q

-- Names of entries of a directory.
structure IsName (name : Path) : Prop where
  ne_nil : name ≠ []
  ne_current : name ≠ ['.']
  ne_parent : name ≠ ['.', '.']
  slash_not_mem : '/' ∉ name

variable {p q name : Path} {names : List Path}

theorem IsName.head?_ne (h : IsName name) : name.head? ≠ some '/' :=
  fun hs => h.slash_not_mem <| List.mem_of_head? hs

theorem IsName.splitOn_eq (h : IsName name) : name.splitOn '/' = [name] :=
  List.splitOn_eq_singleton h.slash_not_mem

theorem IsName.component?_eq (h : IsName name) : component? name = some (.normal name) := by
  rw [component?, if_neg (not_or.mpr ⟨h.ne_nil, h.ne_current⟩), if_neg h.ne_parent]

theorem IsName.components_eq (h : IsName name) : components name = [.normal name] := by
  have hs : start name = [] := by
    rw [start, if_neg h.head?_ne, h.splitOn_eq, if_neg]
    exact fun he => h.ne_current <| Option.some.inj he
  rw [components, hs, h.splitOn_eq, List.filterMap_cons_some h.component?_eq]
  rfl

-- What follows a separator is looked at on its own.
theorem components_append (h : IsName name) :
    components (p ++ '/' :: name) = components (p ++ ['/']) ++ [.normal name] := by
  have hsplit (q : Path) : (p ++ '/' :: q).splitOn '/' = p.splitOn '/' ++ q.splitOn '/' :=
    List.splitOn_append_cons_self p q
  have hstart : start (p ++ '/' :: name) = start (p ++ ['/']) := by
    have hhead : (p ++ '/' :: name).head? = (p ++ ['/']).head? := by
      cases p <;> rfl
    have hne : p.splitOn '/' ≠ [] := List.splitOn_ne_nil _ _
    have hfirst (q : Path) : ((p ++ '/' :: q).splitOn '/').head? = (p.splitOn '/').head? := by
      rw [hsplit, List.head?_append_of_ne_nil _ hne]
    rw [start, start, hhead, hfirst, hfirst]
  have hnil : ([] : Path).splitOn '/' = [[]] := rfl
  rw [components, components, hstart, hsplit, hsplit, h.splitOn_eq, hnil, List.filterMap_append,
    List.filterMap_append, List.filterMap_cons_some h.component?_eq]
  simp [component?]

theorem components_push (h : IsName name) :
    components (push p name) = components p ++ [.normal name] := by
  rw [push, if_neg h.head?_ne]
  by_cases hp : p = [] ∨ p.getLast? = some '/'
  case pos =>
    rw [if_pos hp]
    obtain rfl | hl := hp
    case inl => exact h.components_eq
    case inr =>
      obtain ⟨q, rfl⟩ : ∃ q, p = q ++ ['/'] := List.getLast?_eq_some_iff.mp hl
      rw [List.append_assoc]
      exact components_append h
  case neg =>
    obtain ⟨hn, hl⟩ := not_or.mp hp
    have hc : components (p ++ ['/']) = components p := by
      have hsplit : (p ++ ['/']).splitOn '/' = p.splitOn '/' ++ [[]] := List.splitOn_append_cons_self p []
      have hne : p.splitOn '/' ≠ [] := List.splitOn_ne_nil _ _
      have hhead : (p ++ ['/']).head? = p.head? := List.head?_append_of_ne_nil _ hn
      rw [components, components, start, start, hsplit, hhead, List.head?_append_of_ne_nil _ hne,
        List.filterMap_append]
      simp [component?]
    rw [if_neg hp, components_append h, hc]

theorem components_foldl_push (h : ∀ name ∈ names, IsName name) :
    components (names.foldl push p) = components p ++ names.map .normal := by
  induction names generalizing p
  case nil => exact (List.append_nil _).symm
  case cons name names ih =>
    rw [List.foldl_cons, ih fun name hm => h name (List.mem_cons_of_mem _ hm),
      components_push (h name List.mem_cons_self), List.append_assoc]
    rfl

theorem slash_not_mem_of_mem_splitOn (h : name ∈ p.splitOn '/') : '/' ∉ name := by
  induction p generalizing name
  case nil =>
    obtain rfl : name = [] := List.mem_singleton.mp h
    exact List.not_mem_nil
  case cons c p ih =>
    rw [List.splitOn_cons_eq_if_modifyHead] at h
    by_cases hc : c = '/'
    case pos =>
      rw [if_pos (beq_iff_eq.mpr hc)] at h
      obtain rfl | h := List.mem_cons.mp h
      case inl => exact List.not_mem_nil
      case inr => exact ih h
    case neg =>
      rw [if_neg fun hb => hc (beq_iff_eq.mp hb)] at h
      obtain ⟨first, rest, he⟩ := List.exists_cons_of_ne_nil (List.splitOn_ne_nil '/' p)
      rw [he, List.modifyHead_cons] at h
      rw [he] at ih
      obtain rfl | h := List.mem_cons.mp h
      case inl =>
        refine fun hm => (List.mem_cons.mp hm).elim (fun hs => hc hs.symm) ?_
        exact ih List.mem_cons_self
      case inr => exact ih (List.mem_cons_of_mem _ h)

-- The name of the file, if the path leads to one.
def fileName (p : Path) : Option Path :=
  match (components p).getLast? with
  | some (.normal name) => some name
  | _ => none

-- What follows the last dot of the name, unless the name begins with it.
def extension (p : Path) : Option Path := do
  let name ← fileName p
  if '.' ∈ name then
    let stem := (name.rdropWhile (· ≠ '.')).dropLast
    if stem = [] then none else some (name.rtakeWhile (· ≠ '.'))
  else
    none

end UnixPath
