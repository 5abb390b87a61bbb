import LabInventory.Library.Bulk
import LabInventory.Library.PathForest
import LabInventory.Trees.Basic

open Sql Program

namespace LabInventory

variable {kind : TreeKind}

def TreeRow.node (r : TreeRow kind) : PathNode Uuid Uuid Label where
  group := r.laboratoryId
  parent := r.parentId
  label := r.code.label
  path := r.path

namespace Trees

-- The abstract view of a table.
def forest (t : Table (TreeRow kind)) : PathForest Uuid Uuid Label :=
  fun id => (t.find? id).map TreeRow.node

variable {t t' : Table (TreeRow kind)} {r r' : TreeRow kind} {id : Uuid}

@[simp]
theorem key_eq : TableSchema.key r = r.id :=
  rfl

theorem forest_of_mem (h : r ∈ t) : forest t r.id = some r.node := by
  have hf : t.find? r.id = some r := Table.find?_key h
  simp [forest, hf]

theorem forest_eq_some {n} : forest t id = some n ↔ ∃ r ∈ t, r.id = id ∧ r.node = n := by
  simp only [forest, Option.map_eq_some_iff, Table.find?_eq_some, key_eq, and_assoc]

-- The index on the paths of a laboratory.
theorem eq_of_path_eq (hr : r ∈ t) (hr' : r' ∈ t) (hl : r.laboratoryId = r'.laboratoryId)
    (hp : r.path = r'.path) : r = r' := by
  let ix : UniqueIndex (TreeRow kind) Constraint :=
    ⟨.treePath kind, Uuid × Ltree, fun r => some (r.laboratoryId, r.path)⟩
  have hi : ix ∈ TableSchema.indexes := by simp [TableSchema.indexes, ix]
  exact Table.eq_of_clash hi hr hr' ⟨by simp [ix], by simp [ix, hl, hp]⟩

theorem forest_pathsUnique : (forest t).PathsUnique := by
  intro i j n m hn hm hg hp
  have ⟨r, hr, hi, hn⟩ := forest_eq_some.mp hn
  have ⟨r', hr', hj, hm⟩ := forest_eq_some.mp hm
  subst hn hm
  rw [← hi, ← hj, eq_of_path_eq hr hr' hg hp]

theorem forest_insert (h : t.insert r = .ok t') : forest t' = (forest t).insert r.id r.node := by
  funext i
  have hf := Table.find?_insert h (k := i)
  by_cases hi : r.id = i
  case pos => simp [forest, PathForest.insert, hf, hi]
  case neg => simp [forest, PathForest.insert, hf, hi, Ne.symm hi]

-- The stored paths describe a forest, and determine the depths.
structure WellFormed (t : Table (TreeRow kind)) : Prop where
  forest : (forest t).WellFormed
  depth : ∀ r ∈ t, r.depth = r.path.nlevel - 1

theorem WellFormed.empty : WellFormed (∅ : Table (TreeRow kind)) where
  forest _ _ h := by simp [forest_eq_some] at h
  depth _ h := absurd h Table.not_mem_empty

theorem WellFormed.path_ne_nil (h : WellFormed t) (hr : r ∈ t) : r.path ≠ [] :=
  (h.forest _ _ <| forest_of_mem hr).path_ne_nil

-- A row whose path and depth follow from its parent.
inductive Placed (t : Table (TreeRow kind)) (new : TreeRow kind) : Option (TreeRow kind) → Prop
  | root : new.parentId = none → new.path = [new.code.label] → new.depth = 0 → Placed t new none
  | child {p} : p ∈ t → p.laboratoryId = new.laboratoryId → new.parentId = some p.id →
      new.path = p.path ++ [new.code.label] → new.depth = p.depth + 1 → Placed t new (some p)

theorem Placed.linked {parent} (h : Placed t r parent) : (forest t).Linked r.node := by
  cases h
  case root hp h _ => exact .root hp h
  case child p hm hl hp h _ => exact .child hp (forest_of_mem hm) hl h

theorem Placed.depth {parent} (h : Placed t r parent) (ht : WellFormed t) :
    r.depth = r.path.nlevel - 1 := by
  cases h
  case root _ h hd => simp [h, hd, Ltree.nlevel]
  case child p hm _ _ h hd =>
    have hp := ht.depth p hm
    simp only [Ltree.nlevel] at hp
    simp [h, hd, hp, Ltree.nlevel]

-- What moving `x` to the place of `new` does to a row.
def moveRow (x new r : TreeRow kind) : TreeRow kind :=
  if r.id = x.id then
    new
  else if PathForest.Under x.node r.node then
    let path := new.path ++ r.path.drop x.path.nlevel
    { r with path, depth := path.nlevel - 1 }
  else
    r

theorem node_moveRow {x new : TreeRow kind} : (moveRow x new r).node =
    if r.id = x.id then new.node
    else if PathForest.Under x.node r.node then PathForest.rebase x.node new.node r.node
    else r.node := by
  unfold moveRow
  split_ifs <;> rfl

-- The effects that the operations have on a table.
inductive Change (t t' : Table (TreeRow kind)) : Prop
  | insert {new parent} : Placed t new parent → t.insert new = .ok t' → Change t t'
  | move {x new parent} : x ∈ t → new.id = x.id → new.laboratoryId = x.laboratoryId →
      Placed t new parent → (∀ p ∈ parent, ¬PathForest.Under x.node p.node) →
      (∀ i, t'.find? i = (t.find? i).map (moveRow x new)) → Change t t'
  | remove {x} : x ∈ t →
      (∀ i, t'.find? i = (t.find? i).filter (¬PathForest.Under x.node ·.node)) → Change t t'

theorem forest_move {x new : TreeRow kind} (h : ∀ i, t'.find? i = (t.find? i).map (moveRow x new)) :
    forest t' = (forest t).move x.id x.node new.node := by
  funext i
  simp only [forest, PathForest.move, h, Option.map_map]
  cases hr : t.find? i
  case none => rfl
  case some r =>
    have hi : r.id = i := (Table.find?_eq_some.mp hr).right
    simp [node_moveRow, hi]

theorem forest_remove {x : TreeRow kind}
    (h : ∀ i, t'.find? i = (t.find? i).filter (¬PathForest.Under x.node ·.node)) :
    forest t' = (forest t).remove x.node := by
  funext i
  simp only [forest, PathForest.remove, h]
  cases t.find? i
  case none => rfl
  case some r => by_cases hu : PathForest.Under x.node r.node <;> simp [Option.filter_some, hu]

theorem WellFormed.change (ht : WellFormed t) (h : Change t t') : WellFormed t' := by
  cases h
  case insert new parent hp hi =>
    constructor
    case forest =>
      rw [forest_insert hi]
      have hn : t.find? new.id = none := Table.find?_of_insert hi
      exact ht.forest.insert (by simp [Trees.forest, hn]) hp.linked
    case depth =>
      intro r hr
      cases Table.mem_insert hi |>.mp hr
      case inl hr => exact ht.depth r hr
      case inr hr => exact hr ▸ hp.depth ht
  case move x new parent hx hi hl hp hu hm =>
    constructor
    case forest =>
      rw [forest_move hm]
      refine ht.forest.move forest_pathsUnique (forest_of_mem hx) hl hp.linked fun i q hi hq => ?_
      cases hp
      case root hn _ _ => simp [TreeRow.node, hn] at hi
      case child p hpt _ hpi _ _ =>
        obtain rfl : p.id = i := Option.some.inj <| hpi.symm.trans hi
        obtain rfl : p.node = q := Option.some.inj <| (forest_of_mem hpt).symm.trans hq
        exact hu p rfl
    case depth =>
      intro r hr
      have hf := hm r.id
      rw [show t'.find? r.id = some r from Table.find?_key hr, eq_comm,
        Option.map_eq_some_iff] at hf
      obtain ⟨r₀, hr₀, he⟩ := hf
      have hd := ht.depth r₀ (Table.find?_eq_some.mp hr₀).left
      subst he
      unfold moveRow
      split_ifs
      case pos => exact hp.depth ht
      case pos => rfl
      case neg => exact hd
  case remove x hx hm =>
    constructor
    case forest => exact forest_remove hm ▸ ht.forest.remove
    case depth =>
      intro r hr
      have hf := hm r.id
      rw [show t'.find? r.id = some r from Table.find?_key hr, eq_comm,
        Option.filter_eq_some_iff] at hf
      exact ht.depth r (Table.find?_eq_some.mp hf.left).left

theorem WellFormed.root (ht : t.rows = [r])
    (hp : r.parentId = none ∧ r.path = [r.code.label] ∧ r.depth = 0) : WellFormed t := by
  have hi : (∅ : Table (TreeRow kind)).insert r = .ok t :=
    Table.insert_eq_ok.mpr ⟨fun _ h => absurd h Table.not_mem_empty, rfl, ht⟩
  exact .change .empty <| .insert (.root hp.left hp.right.left hp.right.right) hi

variable {d : Database} {laboratoryId : Uuid} {parentId : Option Uuid}
  {parent : Option (TreeRow kind)} {code : TreeCode} {oldPath newPath : Ltree}

-- The row that a parent id refers to.
def IsParent (t : Table (TreeRow kind)) (laboratoryId : Uuid) (parentId : Option Uuid) :
    Option (TreeRow kind) → Prop
  | none => parentId = none
  | some p => p ∈ t ∧ p.laboratoryId = laboratoryId ∧ parentId = some p.id

theorem IsParent.placed (h : IsParent t r.laboratoryId r.parentId parent)
    (hp : r.path = parent.elim [] (·.path) ++ [r.code.label])
    (hd : r.depth = (buildPathAndDepth kind parent r.code).snd) : Placed t r parent := by
  cases parent
  case none => exact .root h hp hd
  case some p => exact .child h.left h.right.left h.right.right hp hd

-- The text that is built for a path denotes the path below the parent.
theorem ofText?_buildPathAndDepth (h : ∀ p ∈ parent, p.path ≠ []) :
    Ltree.ofText? (buildPathAndDepth kind parent code).fst =
      some (parent.elim [] (·.path) ++ [code.label]) := by
  cases parent
  case none => rw [← Ltree.ofText?_text]; simp [buildPathAndDepth, code.text_label]
  case some p =>
    have ht := Ltree.text_append (h p rfl) (List.cons_ne_nil code.label [])
    rw [code.text_label] at ht
    rw [← Ltree.ofText?_text]
    simp [buildPathAndDepth, ht]

theorem resolveNewParent_wlp : (resolveNewParent kind laboratoryId parentId).wlp
    (fun parent d' => d' = d ∧ IsParent (d.tree kind) laboratoryId parentId parent) d := by
  cases parentId
  case none => exact ⟨rfl, rfl⟩
  case some i =>
    simp only [resolveNewParent, fetchForUpdate, wp_bind, wp_selectForUpdate]
    cases hf : (d.tree kind).find? i
    case none => trivial
    case some p =>
      obtain ⟨hp, hi⟩ := Table.find?_eq_some.mp hf
      simpa using fun hl => ⟨hp, hl, congrArg some hi.symm⟩

-- The string test agrees with the order of the paths.
theorem pathIsSelfOrDescendant_iff {p q : Ltree} (hq : q ≠ []) :
    pathIsSelfOrDescendant p.text q.text ↔ p.IsSelfOrDescendant q := by
  rw [Ltree.isSelfOrDescendant_iff_text hq]
  simp only [pathIsSelfOrDescendant, Bool.or_eq_true, decide_eq_true_eq, Option.any_eq_true,
    Text.stripPrefix_eq_some]
  refine or_congr_right ?_
  constructor
  case mp =>
    rintro ⟨t, ht, hd⟩
    obtain ⟨s, hs⟩ := List.head?_eq_some_iff.mp hd
    exact ⟨s, by rw [ht, String.toList_append, hs]⟩
  case mpr =>
    rintro ⟨s, hs⟩
    refine ⟨.ofList ('.' :: s), ?_, by simp⟩
    rw [← String.toList_inj, hs, String.toList_append, String.toList_ofList]

theorem resolveMovedParent_wlp {x : TreeRow kind} (ht : WellFormed (d.tree kind))
    (hx : x ∈ d.tree kind) : (resolveMovedParent kind x parentId).wlp
      (fun parent d' => d' = d ∧ IsParent (d.tree kind) x.laboratoryId parentId parent ∧
        ∀ p ∈ parent, ¬PathForest.Under x.node p.node) d := by
  cases parentId
  case none => exact ⟨rfl, rfl, fun _ h => nomatch h⟩
  case some i =>
    simp only [resolveMovedParent, fetchForUpdate, wp_bind, wp_selectForUpdate, wp_require,
      implies_true, and_true]
    intro hi
    cases hf : (d.tree kind).find? i
    case none => trivial
    case some p =>
      obtain ⟨hp, hi⟩ := Table.find?_eq_some.mp hf
      simp only [wp_bind, wp_require, implies_true, and_true]
      intro hl hs
      refine ⟨rfl, ⟨hp, hl, congrArg some hi.symm⟩, fun q hq hu => hs ?_⟩
      cases hq
      exact (pathIsSelfOrDescendant_iff <| ht.path_ne_nil hx).mpr hu.path

-- The descendants' paths continue the new path.
def rebaseRow (oldPath newPath : Ltree) (r : TreeRow kind) : TreeRow kind :=
  let path := newPath ++ r.path.drop oldPath.nlevel
  { r with path, depth := path.nlevel - 1 }

theorem updateDescendantPath_wlp (hr : (d.tree kind).find? r.id = some r)
    (hb : IsBelow kind laboratoryId id oldPath r) :
    (updateDescendantPath kind laboratoryId id oldPath newPath r).wlp
      (fun _ d' => ∀ i, (d'.tree kind).find? i =
        if r.id = i then some (rebaseRow oldPath newPath r) else (d.tree kind).find? i) d := by
  simp only [updateDescendantPath, wp_bind, wp_read, hr, Option.filter_some, hb, decide_true,
    if_true, wp_fetch, wp_exec, implies_true, and_true, true_and]
  intro suffix hs d' hw i
  have hw := Database.write_of_writeTree hw
  simp only [Ltree.subpath?, Option.ite_none_right_eq_some, Option.some.injEq] at hs
  rw [Table.find?_update hw]
  by_cases hi : r.id = i
  case pos =>
    subst hi
    simp [rebaseRow, hr, ← hs.right]
  case neg => simp [hi]

theorem updateDescendantPaths_wlp [ScanOrder] :
    (updateDescendantPaths kind laboratoryId id oldPath newPath).wlp
      (fun _ d' => ∀ i, (d'.tree kind).find? i = ((d.tree kind).find? i).bind fun r =>
        if IsBelow kind laboratoryId id oldPath r then some (rebaseRow oldPath newPath r)
        else some r) d := by
  simp only [updateDescendantPaths, forAll, wp_select]
  refine wp_mono (wp_bulk (v := (·.tree kind)) (ScanOrder.visit_perm _) fun b d' hb hf =>
    updateDescendantPath_wlp hf (by simpa using hb)) fun _ d' h i => ?_
  simpa using h i

theorem insertNode_wlp {name description} (ht : WellFormed (d.tree kind))
    (hp : IsParent (d.tree kind) laboratoryId parentId parent) :
    (insertNode kind id laboratoryId parentId name code (buildPathAndDepth kind parent code).fst
      (buildPathAndDepth kind parent code).snd description).wlp
      (fun _ d' => Change (d.tree kind) (d'.tree kind)) d := by
  have hn : ∀ p ∈ parent, p.path ≠ [] := by
    rintro p rfl
    exact ht.path_ne_nil hp.left
  simp only [insertNode, wp_bind, wp_fetch, wp_exec, wp_read, wp_require, pure_def, wp_done,
    implies_true, and_true, true_and, ofText?_buildPathAndDepth hn, Option.some.injEq]
  rintro path rfl d' hw -
  exact .insert (IsParent.placed hp rfl rfl) (Database.write_of_writeTree hw)

theorem updateInDatabase_wlp {x : TreeRow kind} {name description} (ht : WellFormed (d.tree kind))
    (hx : x ∈ d.tree kind) (hp : IsParent (d.tree kind) x.laboratoryId parentId parent) :
    (updateInDatabase kind x.id parentId name code (buildPathAndDepth kind parent code).fst
      (buildPathAndDepth kind parent code).snd description).wlp
      (fun new d' => (d.tree kind).update new = .ok (d'.tree kind) ∧ new.id = x.id ∧
        new.laboratoryId = x.laboratoryId ∧ Placed (d.tree kind) new parent) d := by
  have hn : ∀ p ∈ parent, p.path ≠ [] := by
    rintro p rfl
    exact ht.path_ne_nil hp.left
  have hf : (d.tree kind).find? x.id = some x := Table.find?_key hx
  simp only [updateInDatabase, fetchForUpdate, wp_bind, wp_fetch, wp_selectForUpdate, hf,
    ofText?_buildPathAndDepth hn, wp_exec, wp_read, wp_require, pure_def, wp_done, implies_true,
    and_true, true_and, Option.some.injEq]
  rintro path rfl d' hw -
  exact ⟨(Database.write_of_writeTree hw), IsParent.placed hp rfl rfl⟩

theorem isBelow_iff {x : TreeRow kind} (hn : r.id ≠ x.id) :
    IsBelow kind x.laboratoryId x.id x.path r ↔ PathForest.Under x.node r.node :=
  ⟨fun h => ⟨h.left.symm, h.right.left⟩, fun h => ⟨h.group.symm, h.path, hn⟩⟩

-- A row that keeps its path and depth does not affect the rows below it.
theorem moveRow_eq_self {x new : TreeRow kind} (ht : WellFormed t) (hr : r ∈ t) (hn : r.id ≠ x.id)
    (hp : new.path = x.path) : moveRow x new r = r := by
  unfold moveRow
  rw [if_neg hn]
  split_ifs
  case pos hu =>
    have he : x.path ++ r.path.drop x.path.nlevel = r.path :=
      List.prefix_iff_eq_append.mp hu.path
    have hd := ht.depth r hr
    simp only [hp, he, ← hd]
  case neg => rfl

theorem moveNode_wlp [ScanOrder] {x : TreeRow kind} {name description}
    (ht : WellFormed (d.tree kind)) (hx : x ∈ d.tree kind)
    (hp : IsParent (d.tree kind) x.laboratoryId parentId parent)
    (hu : ∀ p ∈ parent, ¬PathForest.Under x.node p.node) :
    (moveNode kind x parentId name code (buildPathAndDepth kind parent code).fst
      (buildPathAndDepth kind parent code).snd description).wlp
      (fun _ d' => Change (d.tree kind) (d'.tree kind)) d := by
  simp only [moveNode, wp_bind]
  refine wp_mono (updateInDatabase_wlp ht hx hp) fun new d₁ h => ?_
  obtain ⟨hw, hi, hl, hpl⟩ := h
  have hf (i : Uuid) : (d₁.tree kind).find? i =
      if x.id = i then ((d.tree kind).find? i).map fun _ => new else (d.tree kind).find? i := by
    rw [Table.find?_update hw, key_eq, hi]
  have hm (i : Uuid) (r : TreeRow kind) (hr : (d.tree kind).find? i = some r) : r.id = i :=
    (Table.find?_eq_some.mp hr).right
  split
  case isTrue hc =>
    simp only [wp_bind, pure_def, wp_done]
    refine wp_mono updateDescendantPaths_wlp fun _ d₂ hr => ?_
    refine .move hx hi hl hpl hu fun i => ?_
    rw [hr, hf]
    cases hr' : (d.tree kind).find? i
    case none => simp
    case some r =>
      have hri := hm i r hr'
      by_cases he : x.id = i
      case pos =>
        have hn : ¬IsBelow kind x.laboratoryId x.id x.path new := fun h => h.right.right hi
        subst he
        simp [hn, moveRow, hri]
      case neg =>
        have hn : r.id ≠ x.id := fun h => he <| h.symm.trans hri
        by_cases hu : PathForest.Under x.node r.node
        case pos => simp [he, isBelow_iff hn, hu, moveRow, hn, rebaseRow]
        case neg => simp [he, isBelow_iff hn, hu, moveRow, hn]
  case isFalse hc =>
    obtain ⟨hp, _⟩ := not_or.mp hc
    refine .move hx hi hl hpl hu fun i => ?_
    rw [hf]
    cases hr' : (d.tree kind).find? i
    case none => simp
    case some r =>
      have hri := hm i r hr'
      by_cases he : x.id = i
      case pos => simp [he, moveRow, hri]
      case neg =>
        have hn : r.id ≠ x.id := fun h => he <| h.symm.trans hri
        have hr := (Table.find?_eq_some.mp hr').left
        simp [he, moveRow_eq_self ht hr hn (not_not.mp hp)]

-- Placing a node under a new parent, followed by statements that leave the tree alone.
theorem resolveMovedParent_moveNode_wlp [ScanOrder] {x : TreeRow kind} {name description}
    {f : TreeRow kind → Transaction Unit} (ht : WellFormed (d.tree kind)) (hx : x ∈ d.tree kind)
    (hf : ∀ r d, (f r).wlp (fun _ d' => d'.tree kind = d.tree kind) d) :
    (resolveMovedParent kind x parentId >>= fun parent =>
      moveNode kind x parentId name code (buildPathAndDepth kind parent code).fst
        (buildPathAndDepth kind parent code).snd description >>= f).wlp
      (fun _ d' => Change (d.tree kind) (d'.tree kind)) d := by
  simp only [wp_bind]
  refine wp_mono (resolveMovedParent_wlp ht hx) fun parent _ h => ?_
  obtain ⟨he, hp, hu⟩ := h
  subst he
  refine wp_mono (moveNode_wlp ht hx hp hu) fun r _ h => ?_
  exact wp_mono (hf r _) fun _ _ h' => h' ▸ h

theorem deleteTree_wlp [ScanOrder] {x : TreeRow kind} (hx : x ∈ d.tree kind) :
    (deleteTree kind x.laboratoryId x.path).wlp
      (fun _ d' => Change (d.tree kind) (d'.tree kind)) d := by
  simp only [deleteTree, wp_bind, wp_read, wp_require, implies_true, and_true]
  refine wp_mono (wp_bulk (v := (·.tree kind)) (g := fun _ => none) (ScanOrder.visit_perm _)
    fun b d' hb hf => ?_) fun _ d' h hr => ?_
  case refine_1 =>
    simp only [wp_exec, implies_true, and_true, true_and]
    intro d'' hw i
    have hw := Database.write_of_writeTree (w := .delete b.id) hw
    rw [← Except.ok.inj hw, Table.find?_delete]
    simp [eq_comm]
  case refine_2 =>
    refine .remove hx fun i => ?_
    rw [h]
    cases (d.tree kind).find? i
    case none => rfl
    case some r =>
      have hu : InSubtree kind x.laboratoryId x.path r ↔ PathForest.Under x.node r.node :=
        ⟨fun h => ⟨h.left.symm, h.right⟩, fun h => ⟨h.group.symm, h.path⟩⟩
      by_cases hr : PathForest.Under x.node r.node <;> simp [Option.filter_some, hu, hr]

theorem resolveMovedParent_eq_ok_iff {x p : TreeRow kind} (ht : WellFormed (d.tree kind))
    (hx : x ∈ d.tree kind) (hp : p ∈ d.tree kind) (hl : p.laboratoryId = x.laboratoryId) :
    (∃ r, (resolveMovedParent kind x (some p.id)).run d = .ok r) ↔
      ((forest (d.tree kind)).reparent x.id (some p.id)).Acyclic := by
  rw [ht.forest.acyclic_reparent forest_pathsUnique (forest_of_mem hx) (forest_of_mem hp) hl]
  constructor
  case mp =>
    rintro ⟨⟨parent, d'⟩, hr⟩
    have ⟨_, hi, hu⟩ := wp_run (resolveMovedParent_wlp ht hx) hr
    cases parent
    case none => simp [IsParent] at hi
    case some q =>
      obtain ⟨hq, _, hi⟩ := hi
      obtain rfl : p = q := Table.eq_of_key_eq hp hq <| Option.some.inj hi
      exact hu p rfl
  case mpr =>
    intro hu
    have hn : p.id ≠ x.id := fun he => hu <| Table.eq_of_key_eq hp hx he ▸ .refl
    have hs : ¬pathIsSelfOrDescendant p.path.text x.path.text := fun hs =>
      hu ⟨hl.symm, (pathIsSelfOrDescendant_iff <| ht.path_ne_nil hx).mp hs⟩
    have hf : (d.tree kind).find? p.id = some p := Table.find?_key hp
    have hw : (resolveMovedParent kind x (some p.id)).wp (fun _ => True) (fun _ => False)
        (fun _ _ => True) d := by
      simp [resolveMovedParent, fetchForUpdate, hf, hn, hl, hs]
    obtain ⟨a, d', hr, _⟩ := wp_total hw
    exact ⟨(a, d'), hr⟩

end Trees

namespace Locations

variable [UnicodeSegmentation] [ScanOrder] {d : Database} {ctx : LaboratoryContext} {id : Uuid}

omit [ScanOrder] in
theorem createLocation_wlp {payload} (ht : Trees.WellFormed (d.tree .location)) :
    (createLocation ctx payload id).wlp
      (fun _ d' => Trees.Change (d.tree .location) (d'.tree .location)) d := by
  simp only [createLocation, resolveNewParent, buildPathAndDepth, wp_bind, wp_read, wp_require,
    Transaction.wp_validated, implies_true, and_true]
  intro _ new _
  refine wp_mono Trees.resolveNewParent_wlp fun parent _ h => ?_
  obtain ⟨he, hp⟩ := h
  subst he
  exact wp_mono (Trees.insertNode_wlp ht hp) fun _ _ h => h

theorem updateLocation_wlp {payload} (ht : Trees.WellFormed (d.tree .location)) :
    (updateLocation ctx id payload).wlp
      (fun _ d' => Trees.Change (d.tree .location) (d'.tree .location)) d := by
  simp only [updateLocation, fetchLocationForUpdate, Trees.fetchForUpdate, resolveMovedParent,
    buildPathAndDepth, moveLocation, wp_bind, wp_read, wp_require, Transaction.wp_validated,
    wp_selectForUpdate, implies_true, and_true]
  intro _ update _
  cases hf : (d.tree .location).find? id
  case none => trivial
  case some x =>
    have hx := (Table.find?_eq_some.mp hf).left
    exact Trees.resolveMovedParent_moveNode_wlp ht hx fun _ _ => rfl

omit [UnicodeSegmentation] in
theorem clearInventoryItemLocationsInTree_tree {laboratoryId rootPath} (kind : TreeKind) :
    (clearInventoryItemLocationsInTree laboratoryId rootPath).wlp
      (fun _ d' => d'.tree kind = d.tree kind) d := by
  refine wp_forAll rfl fun r d' hd => ?_
  simp only [wp_bind, wp_read]
  split
  case h_1 =>
    simp only [wp_exec, implies_true, and_true, true_and]
    exact fun d'' hw => (Database.tree_of_apply hw <| by simp).trans hd
  case h_2 => exact hd

omit [UnicodeSegmentation] in
theorem deleteLocation_wlp :
    (deleteLocation ctx id).wlp
      (fun _ d' => Trees.Change (d.tree .location) (d'.tree .location)) d := by
  simp only [deleteLocation, deleteLocationSubtree, fetchLocationForUpdate, Trees.fetchForUpdate,
    wp_bind, wp_read, wp_require, wp_selectForUpdate, implies_true, and_true]
  intro _
  cases hf : (d.tree .location).find? id
  case none => trivial
  case some x =>
    have hx := (Table.find?_eq_some.mp hf).left
    simp only [Trees.fetchTreeForUpdate, wp_bind, wp_forAll_done]
    refine wp_read.mpr <| wp_mono (clearInventoryItemLocationsInTree_tree .location) fun _ d₂ h₂ => ?_
    exact wp_mono (Trees.deleteTree_wlp (h₂ ▸ hx)) fun _ _ h => h₂ ▸ h

theorem handle_wlp {request : Request} (ht : Trees.WellFormed (d.tree .location)) :
    (request.handle ctx).wlp
      (fun _ d' => Trees.Change (d.tree .location) (d'.tree .location)) d := by
  cases request
  case create => exact createLocation_wlp ht
  case update => exact updateLocation_wlp ht
  case delete => exact wp_bind.mpr <| wp_mono deleteLocation_wlp fun _ _ h => h

end Locations

namespace AssetCategories

variable [UnicodeSegmentation] [ScanOrder] {d : Database} {ctx : LaboratoryContext} {id : Uuid}
  (kind : TreeKind)

omit [UnicodeSegmentation] [ScanOrder] in
theorem insertParameterAssignments_tree {laboratoryId categoryId assignments} :
    (insertParameterAssignments laboratoryId categoryId assignments).wlp
      (fun _ d' => d'.tree kind = d.tree kind) d := by
  induction assignments generalizing d
  case nil => rfl
  case cons a assignments ih =>
    simp only [insertParameterAssignments, wp_bind, wp_exec, implies_true, and_true, true_and]
    intro d₁ hw
    have ht : d₁.tree kind = d.tree kind := Database.tree_of_apply hw <| by simp
    exact wp_mono ih fun _ _ h => h.trans ht

omit [UnicodeSegmentation] in
theorem replaceParameterAssignments_tree {laboratoryId categoryId assignments} :
    (replaceParameterAssignments laboratoryId categoryId assignments).wlp
      (fun _ d' => d'.tree kind = d.tree kind) d := by
  simp only [replaceParameterAssignments, deleteParameterAssignments, wp_bind]
  have hd : (forAll (parameterAssignmentsOf categoryId) (.assetParameterAssignment ·.assignmentId)
      fun r => .exec (.assetParameterAssignments <| .delete r.assignmentId)
        fun _ => .unexpected "Failed to delete existing asset category parameter assignments" :
      Transaction Unit).wlp (fun _ d' => d'.tree kind = d.tree kind) d := by
    refine wp_forAll rfl fun r d' hd => ?_
    simp only [wp_exec, implies_true, and_true, true_and]
    exact fun d'' hw => (Database.tree_of_apply hw <| by simp).trans hd
  exact wp_mono hd fun _ _ h => wp_mono (insertParameterAssignments_tree kind) fun _ _ h' => h'.trans h

omit [UnicodeSegmentation] in
theorem clearAssetCategoriesInTree_tree {laboratoryId rootPath} :
    (clearAssetCategoriesInTree laboratoryId rootPath).wlp
      (fun _ d' => d'.tree kind = d.tree kind) d := by
  refine wp_forAll rfl fun r d' hd => ?_
  simp only [wp_bind, wp_read]
  split
  case h_1 =>
    simp only [wp_exec, implies_true, and_true, true_and]
    exact fun d'' hw => (Database.tree_of_apply hw <| by simp).trans hd
  case h_2 => exact hd

omit [UnicodeSegmentation] [ScanOrder] in
theorem validateParameterAssignments_wlp {laboratoryId assignments} :
    (validateParameterAssignments laboratoryId assignments).wlp (fun _ d' => d' = d) d := by
  simp [validateParameterAssignments]

omit [ScanOrder] in
theorem createAssetCategory_wlp {payload newAssignmentIds}
    (ht : Trees.WellFormed (d.tree .assetCategory)) :
    (createAssetCategory ctx payload id newAssignmentIds).wlp
      (fun _ d' => Trees.Change (d.tree .assetCategory) (d'.tree .assetCategory)) d := by
  simp only [createAssetCategory, resolveNewParent, buildPathAndDepth, wp_bind, wp_read, wp_require,
    Transaction.wp_validated, implies_true, and_true]
  intro _ _ _ new _
  refine wp_mono Trees.resolveNewParent_wlp fun parent _ h => ?_
  obtain ⟨he, hp⟩ := h
  subst he
  refine wp_mono validateParameterAssignments_wlp fun _ _ he => ?_
  subst he
  refine wp_mono (Trees.insertNode_wlp ht hp) fun _ _ h => ?_
  exact wp_mono (insertParameterAssignments_tree _) fun _ _ h' => h' ▸ h

theorem updateAssetCategory_wlp {payload newAssignmentIds}
    (ht : Trees.WellFormed (d.tree .assetCategory)) :
    (updateAssetCategory ctx id payload newAssignmentIds).wlp
      (fun _ d' => Trees.Change (d.tree .assetCategory) (d'.tree .assetCategory)) d := by
  simp only [updateAssetCategory, fetchAssetCategoryForUpdate, Trees.fetchForUpdate,
    resolveMovedParent, buildPathAndDepth, moveAssetCategory, wp_bind, wp_read, wp_require,
    Transaction.wp_validated, wp_selectForUpdate, implies_true, and_true]
  intro _ assignments _ update _
  cases hf : (d.tree .assetCategory).find? id
  case none => trivial
  case some x =>
    have hx := (Table.find?_eq_some.mp hf).left
    rw [wp_bind, wp_forAll_done]
    cases assignments
    case none => exact Trees.resolveMovedParent_moveNode_wlp ht hx fun _ _ => rfl
    case some assignments =>
      rw [wp_bind]
      refine wp_mono validateParameterAssignments_wlp fun _ _ hd => ?_
      subst hd
      exact Trees.resolveMovedParent_moveNode_wlp ht hx fun _ _ => replaceParameterAssignments_tree _

omit [UnicodeSegmentation] in
theorem deleteAssetCategory_wlp :
    (deleteAssetCategory ctx id).wlp
      (fun _ d' => Trees.Change (d.tree .assetCategory) (d'.tree .assetCategory)) d := by
  simp only [deleteAssetCategory, deleteAssetCategorySubtree, fetchAssetCategoryForUpdate,
    Trees.fetchForUpdate, wp_bind, wp_read, wp_require, wp_selectForUpdate,
    implies_true, and_true]
  intro _
  cases hf : (d.tree .assetCategory).find? id
  case none => trivial
  case some x =>
    have hx := (Table.find?_eq_some.mp hf).left
    simp only [Trees.fetchTreeForUpdate, wp_bind, wp_forAll_done]
    refine wp_read.mpr <| wp_mono (clearAssetCategoriesInTree_tree .assetCategory) fun _ d₂ h₂ => ?_
    exact wp_mono (Trees.deleteTree_wlp (h₂ ▸ hx)) fun _ _ h => h₂ ▸ h

theorem handle_wlp {request : Request} (ht : Trees.WellFormed (d.tree .assetCategory)) :
    (request.handle ctx).wlp
      (fun _ d' => Trees.Change (d.tree .assetCategory) (d'.tree .assetCategory)) d := by
  cases request
  case create => exact createAssetCategory_wlp ht
  case update => exact updateAssetCategory_wlp ht
  case delete => exact wp_bind.mpr <| wp_mono deleteAssetCategory_wlp fun _ _ h => h

end AssetCategories

namespace Trees

variable [UnicodeSegmentation] [ScanOrder] {d d' : Database} {t : Table (TreeRow kind)}

theorem handle_wlp {ctx} {request : Request kind} (ht : WellFormed (d.tree kind)) :
    (request.handle ctx).wlp (fun _ d' => Change (d.tree kind) (d'.tree kind)) d := by
  cases kind
  case location => exact Locations.handle_wlp ht
  case assetCategory => exact AssetCategories.handle_wlp ht

theorem WellFormed.after {ctx} {request : Request kind} (ht : WellFormed (d.tree kind)) :
    WellFormed ((request.handle ctx |>.after d).tree kind) :=
  wp_after (J := fun d => WellFormed (d.tree kind))
    (wp_mono (handle_wlp ht) fun _ _ h => ht.change h) ht

-- The states which are reached by handling one request after another.
inductive Reachable (kind : TreeKind) (d₀ : Database) : Database → Prop
  | refl : Reachable kind d₀ d₀
  | step {d₁} (ctx : LaboratoryContext) (request : Request kind) :
    Reachable kind d₀ d₁ → Reachable kind d₀ ((request.handle ctx).after d₁)

theorem Reachable.wellFormed (h : Reachable kind d d') (ht : WellFormed (d.tree kind)) :
    WellFormed (d'.tree kind) := by
  induction h
  case refl => exact ht
  case step ih => exact ih.after

-- What the rows of a tree say about its shape.
structure Invariant (t : Table (TreeRow kind)) : Prop where
  root : ∀ r ∈ t, r.parentId = none → r.path.text = r.code.val
  child : ∀ r ∈ t, ∀ p, r.parentId = some p → ∃ q ∈ t, q.id = p ∧
    q.laboratoryId = r.laboratoryId ∧ r.path.text = q.path.text ++ "." ++ r.code.val
  depth : ∀ r ∈ t, r.depth = r.path.nlevel - 1
  acyclic : (forest t).Acyclic
  unique : ∀ a ∈ t, ∀ b ∈ t, a.laboratoryId = b.laboratoryId → a.path = b.path → a = b
  under : ∀ a ∈ t, ∀ b ∈ t, (forest t).IsAncestor a.id b.id ↔
    a.laboratoryId = b.laboratoryId ∧ b.path.IsSelfOrDescendant a.path
  cycle : ∀ x ∈ t, ∀ p ∈ t, p.laboratoryId = x.laboratoryId →
    (pathIsSelfOrDescendant p.path.text x.path.text ↔
      ¬((forest t).reparent x.id (some p.id)).Acyclic)

omit [UnicodeSegmentation] [ScanOrder] in
theorem WellFormed.invariant (ht : WellFormed t) : Invariant t where
  root r hr hp := by
    cases ht.forest _ _ <| forest_of_mem hr
    case root _ he => exact (congrArg Ltree.text he).trans r.code.text_label
    case child i _ hi _ _ _ => simp [TreeRow.node, hp] at hi
  child r hr p hp := by
    obtain ⟨n, hn, hg, he⟩ := (ht.forest _ _ <| forest_of_mem hr).parent hp
    obtain ⟨q, hq, hi, hn⟩ := forest_eq_some.mp hn
    subst hn
    refine ⟨q, hq, hi, hg, ?_⟩
    have hc : [r.code.label] ≠ [] := List.cons_ne_nil _ _
    rw [show r.path = q.path ++ [r.code.label] from he, Ltree.text_append (ht.path_ne_nil hq) hc,
      r.code.text_label]
  depth := ht.depth
  acyclic := ht.forest.acyclic
  unique _ ha _ hb := eq_of_path_eq ha hb
  under a ha b hb := by
    rw [ht.forest.isAncestor_iff forest_pathsUnique (forest_of_mem ha) (forest_of_mem hb)]
    exact ⟨fun h => ⟨h.group, h.path⟩, fun h => ⟨h.left, h.right⟩⟩
  cycle x hx p hp hl := by
    have hc := ht.forest.acyclic_reparent forest_pathsUnique (forest_of_mem hx) (forest_of_mem hp) hl
    rw [hc, not_not, pathIsSelfOrDescendant_iff <| ht.path_ne_nil hx]
    exact ⟨fun h => ⟨hl.symm, h⟩, fun h => h.path⟩

theorem tree_operations {d₀ : Database} (h₀ : d₀.tree kind = ∅) (h : Reachable kind d₀ d) :
    Invariant (d.tree kind) ∧
    (∀ x ∈ d.tree kind, ∀ p ∈ d.tree kind, p.laboratoryId = x.laboratoryId →
      ((∃ e, (resolveMovedParent kind x (some p.id)).run d = .error e) ↔
        ¬((forest (d.tree kind)).reparent x.id (some p.id)).Acyclic)) ∧
    (∀ ctx (request : Request kind) e, (request.handle ctx).run d = .error e →
      (request.handle ctx).after d = d) := by
  have ht : WellFormed (d.tree kind) := h.wellFormed <| h₀ ▸ .empty
  refine ⟨ht.invariant, fun x hx p hp hl => ?_, fun _ _ _ => after_of_error⟩
  rw [← resolveMovedParent_eq_ok_iff ht hx hp hl]
  cases (resolveMovedParent kind x (some p.id)).run d <;> simp

def building : Database where
  __ := Database.empty
  laboratories := {{ laboratoryId := 1, name := "Laboratory" }}

def caretaker : LaboratoryContext where
  actor := { userId := 1, userType := .labAdmin, laboratoryId := some 1 }
  laboratoryId := 1

def handled (request : Request .location) (d : Database) : Database :=
  let _ := UnicodeSegmentation.characters
  let _ := ScanOrder.stored
  (request.handle caretaker).after d

def roomCreation : Request .location :=
  Locations.Request.create
    { parentLocationId := none, name := "Room", code := "r", description := none } 5

def shelfCreation : Request .location :=
  Locations.Request.create
    { parentLocationId := some 5, name := "Shelf", code := "s", description := none } 6

def roomUpdate : Request .location :=
  Locations.Request.update 5
    { parentLocationId := none, name := none, code := some "room", description := none }

-- A room is created, a shelf is put into it, and the room is given another code.
def furnished : Database :=
  handled roomUpdate <| handled shelfCreation <| handled roomCreation building

omit [UnicodeSegmentation] [ScanOrder] in
theorem tree_operations_furnished : Invariant (furnished.tree .location) ∧
    furnished.locations.rows.map (·.path.text) = ["room", "room.s"] := by
  let _ := UnicodeSegmentation.characters
  let _ := ScanOrder.stored
  have h₀ : building.tree .location = ∅ := rfl
  have hs {d} (request : Request .location) (h : Reachable .location building d) :
      Reachable .location building (handled request d) := .step caretaker request h
  have h : Reachable .location building furnished := hs _ <| hs _ <| hs _ .refl
  exact ⟨(tree_operations h₀ h).left, by decide +kernel⟩

end Trees

end LabInventory
