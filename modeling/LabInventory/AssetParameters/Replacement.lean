import LabInventory.AssetParameters.Options
import LabInventory.Library.Bulk

open Sql Program

namespace LabInventory

-- What an entry of the list that has been sent is stored as.
def UpdateAssetParameterOption.row (option : UpdateAssetParameterOption)
    (parameterId optionId : Uuid) : AssetParameterOptionRow where
  optionId := optionId
  parameterTypeId := parameterId
  code := option.code
  label := option.label
  sortOrder := option.sortOrder

def UpdateAssetParameterOption.IsStorable (option : UpdateAssetParameterOption) : Prop :=
  ∀ s ∈ [option.code, option.label], StorableText s

namespace AssetParameters

variable {d d₁ d' : Database} {p newId : Uuid} {existing : List AssetParameterOptionRow}
  {option : UpdateAssetParameterOption} {options : List UpdateAssetParameterOption} {newIds : NewIds}

section Written

-- The row that an entry is written to, a new one if it is not matched to a stored option.
def target (p : Uuid) (existing : List AssetParameterOptionRow) (newId : Uuid)
    (option : UpdateAssetParameterOption) : AssetParameterOptionRow :=
  option.row p <| (matchOption existing option).getD newId

def targets (p : Uuid) (existing : List AssetParameterOptionRow) (newIds : NewIds) :
    List UpdateAssetParameterOption → List AssetParameterOptionRow
  | [] => []
  | option :: options =>
    target p existing (newIds 0) option :: targets p existing (newIds <| · + 1) options

structure Written (r : AssetParameterOptionRow) (d d' : Database) : Prop where
  find? : ∀ k, d'.assetParameterOptions.find? k =
    if r.optionId = k then some r else d.assetParameterOptions.find? k
  elsewhere : d' = { d with assetParameterOptions := d'.assetParameterOptions }

theorem Written.mem {r o : AssetParameterOptionRow} (h : Written r d d') :
    o ∈ d'.assetParameterOptions ↔ o = r ∨ (o ∈ d.assetParameterOptions ∧ o.optionId ≠ r.optionId) := by
  have hf {o : AssetParameterOptionRow} {d : Database} :
      o ∈ d.assetParameterOptions ↔ d.assetParameterOptions.find? o.optionId = some o :=
    (Table.find?_eq_some.trans <| and_iff_left rfl).symm
  rw [hf, h.find?]
  by_cases hk : r.optionId = o.optionId
  case pos =>
    rw [if_pos hk, Option.some_inj]
    exact ⟨fun he => .inl he.symm, fun ho => ho.elim Eq.symm fun ho => absurd hk.symm ho.right⟩
  case neg =>
    rw [if_neg hk, ← hf]
    refine ⟨fun ho => .inr ⟨ho, Ne.symm hk⟩, fun ho => ho.elim ?_ And.left⟩
    rintro rfl
    exact absurd rfl hk

-- What an entry is matched to stays an option of the parameter.
theorem Written.isOption {r : AssetParameterOptionRow} {id : Uuid} (h : Written r d d')
    (hr : r.parameterTypeId = p) (hi : IsOption p id d) : IsOption p id d' := by
  obtain ⟨o, ho, rfl, hp⟩ := hi
  by_cases hk : o.optionId = r.optionId
  case pos => exact ⟨r, h.mem.mpr <| .inl rfl, hk.symm, hr⟩
  case neg => exact ⟨o, h.mem.mpr <| .inr ⟨ho, hk⟩, rfl, hp⟩

theorem apply_option {r : AssetParameterOptionRow} {w : RowWrite AssetParameterOptionRow Uuid}
    (hw : w = .insert r ∨ w = .update r) : d.apply (.assetParameterOptions w) = .ok d' ↔
      d.assetParameterOptions.write w = .ok d'.assetParameterOptions ∧
      (d.assetParameterTypes.find? r.parameterTypeId).isSome ∧
      d' = { d with assetParameterOptions := d'.assetParameterOptions } := by
  constructor
  case mp =>
    intro h
    obtain rfl | rfl := hw
    all_goals
      have happ := Database.applied_of_apply h
      simp only [Database.apply, Database.writeAssetParameterOptions, Except.bind_eq_ok,
        Except.check_eq_ok] at h
      obtain ⟨_, _, _, ht, _⟩ := h
      exact ⟨happ.left, ht, happ.right⟩
  case mpr =>
    rintro ⟨hw', ht, hd⟩
    refine Except.bind_eq_ok.mpr ⟨_, hw', ?_⟩
    obtain rfl | rfl := hw <;>
    exact Except.bind_eq_ok.mpr ⟨(), Except.check_eq_ok.mpr ht, congrArg Except.ok hd.symm⟩

-- The entry can be written when its turn comes.
structure Accepted (p : Uuid) (existing : List AssetParameterOptionRow) (newId : Uuid)
    (option : UpdateAssetParameterOption) (d : Database) : Prop where
  storable : option.IsStorable
  clash : d.assetParameterOptions.clash? (target p existing newId option) = none
  fresh : matchOption existing option = none → d.assetParameterOptions.find? newId = none
  parameter : (d.assetParameterTypes.find? p).isSome

def applyOption (p : Uuid) (existing : List AssetParameterOptionRow) (newId : Uuid)
    (option : UpdateAssetParameterOption) : Transaction Unit :=
  match matchOption existing option with
  | some optionId => updateAssetParameterOption optionId option
  | none => insertAssetParameterOption p newId option

theorem applyOptions_cons : applyOptions p existing newIds (option :: options) = (do
    applyOption p existing (newIds 0) option
    applyOptions p existing (newIds <| · + 1) options) := by
  rw [applyOptions, applyOption]
  cases matchOption existing option <;> rfl

theorem wp_applyOption {R : ApiError → Prop} {Q : Unit → Database → Prop}
    (hm : ∀ id ∈ matchOption existing option, IsOption p id d)
    (hq : Accepted p existing newId option d → ∀ d', Written (target p existing newId option) d d' →
      Q () d')
    (hr : ¬Accepted p existing newId option d → ∀ e, R e) :
    (applyOption p existing newId option).wp (fun _ => True) R Q d := by
  unfold applyOption
  cases ho : matchOption existing option
  case none =>
    have ht : target p existing newId option = option.row p newId := by rw [target, ho]; rfl
    refine wp_bind.mpr <| Transaction.wp_bindTexts.mpr ⟨fun hs => ?_, fun hs => hr (fun h => hs h.storable) _⟩
    refine wp_exec.mpr ⟨fun d' ha => ⟨trivial, ?_⟩, fun c hc => hr (fun h => ?_) _⟩
    case refine_1 =>
      obtain ⟨hi, hp, hd⟩ := (apply_option <| .inl rfl).mp ha
      have hc := (Table.insert_eq_ok.mp hi).right.left
      refine hq ⟨hs, ht ▸ hc, fun _ => Table.find?_of_insert hi, hp⟩ d' ⟨fun k => ?_, hd⟩
      rw [ht]
      exact Table.find?_insert hi
    case refine_2 =>
      obtain ⟨t, hi⟩ := Table.exists_insert (r := option.row p newId)
        (Table.find?_eq_none.mp <| h.fresh ho) (ht ▸ h.clash)
      have ha : d.apply (.assetParameterOptions (.insert (option.row p newId))) =
          .ok { d with assetParameterOptions := t } :=
        (apply_option <| .inl rfl).mpr ⟨hi, h.parameter, rfl⟩
      exact nomatch ha.symm.trans hc
  case some id =>
    obtain ⟨o, hs, rfl, rfl⟩ := hm id ho
    have hf : d.assetParameterOptions.find? o.optionId = some o := Table.find?_eq_some.mpr ⟨hs, rfl⟩
    have ht : target o.parameterTypeId existing newId option =
        option.row o.parameterTypeId o.optionId := by rw [target, ho]; rfl
    simp only [updateAssetParameterOption, wp_bind, Transaction.wp_bindTexts, wp_selectForUpdate, hf]
    refine ⟨fun hs => ?_, fun hs => hr (fun h => hs h.storable) _⟩
    refine wp_exec.mpr ⟨fun d' ha => ⟨trivial, ?_⟩, fun c hc => hr (fun h => ?_) _⟩
    case refine_1 =>
      obtain ⟨hu, hp, hd⟩ := (apply_option <| .inr rfl).mp ha
      have hc := (Table.update_eq_ok.mp hu).left
      have hn : matchOption existing option ≠ none := by simp [ho]
      refine hq ⟨hs, ht ▸ hc, fun h => absurd h hn, hp⟩ d' ⟨fun k => ?_, hd⟩
      rw [ht, Table.find?_update hu]
      by_cases hk : o.optionId = k
      case pos =>
        subst hk
        exact (if_pos rfl).trans <| (congrArg _ hf).trans (if_pos rfl).symm
      case neg => exact (if_neg hk).trans (if_neg hk).symm
    case refine_2 =>
      obtain ⟨t, hu⟩ := Table.exists_update (ht ▸ h.clash)
      have ha : d.apply (.assetParameterOptions (.update (option.row o.parameterTypeId o.optionId))) =
          .ok { d with assetParameterOptions := t } :=
        (apply_option <| .inr rfl).mpr ⟨hu, h.parameter, rfl⟩
      exact nomatch ha.symm.trans hc

end Written

section Applied

-- What the list has been applied to. Of the entries that are applied to the same option, the last
-- one is stored.
structure Applied (p : Uuid) (existing : List AssetParameterOptionRow)
    (options : List UpdateAssetParameterOption) (rows : List AssetParameterOptionRow)
    (d d' : Database) : Prop where
  stored : ∀ o ∈ d'.assetParameterOptions,
    o ∈ rows ∨ (o ∈ d.assetParameterOptions ∧ ∀ r ∈ rows, r.optionId ≠ o.optionId)
  kept : ∀ o ∈ d.assetParameterOptions, (∀ r ∈ rows, r.optionId ≠ o.optionId) →
    o ∈ d'.assetParameterOptions
  written : (rows.map (·.optionId)).Nodup → ∀ r ∈ rows, r ∈ d'.assetParameterOptions
  matched : ∀ r ∈ rows, r.optionId ∈ options.filterMap (matchOption existing) ∨
    d.assetParameterOptions.find? r.optionId = none
  distinct : (options.filterMap (matchOption existing)).Nodup → (rows.map (·.optionId)).Nodup

def AllStored (p : Uuid) (existing : List AssetParameterOptionRow)
    (options : List UpdateAssetParameterOption) (d : Database) : Prop :=
  ∀ id ∈ options.filterMap (matchOption existing), IsOption p id d

theorem filterMap_matchOption :
    (option :: options).filterMap (matchOption existing) =
      (matchOption existing option).toList ++ options.filterMap (matchOption existing) := by
  rw [List.filterMap_cons]
  cases matchOption existing option <;> rfl

theorem AllStored.head (h : AllStored p existing (option :: options) d) :
    ∀ id ∈ matchOption existing option, IsOption p id d := by
  intro id hi
  refine h id ?_
  rw [filterMap_matchOption, Option.mem_def.mp hi]
  exact .head _

theorem AllStored.tail {r : AssetParameterOptionRow} (h : AllStored p existing (option :: options) d)
    (hw : Written r d d') (hr : r.parameterTypeId = p) : AllStored p existing options d' := by
  intro id hi
  refine hw.isOption hr <| h id ?_
  rw [filterMap_matchOption]
  exact List.mem_append_right _ hi

theorem Applied.cons {rows : List AssetParameterOptionRow}
    (hs : AllStored p existing (option :: options) d)
    (ha : Accepted p existing newId option d) (hw : Written (target p existing newId option) d d₁)
    (h : Applied p existing options rows d₁ d') :
    Applied p existing (option :: options) (target p existing newId option :: rows) d d' := by
  have hnew {o : AssetParameterOptionRow} (ho : o ∈ d₁.assetParameterOptions) {r}
      (hr : d₁.assetParameterOptions.find? r = none) : r ≠ o.optionId := by
    rintro rfl
    exact Table.find?_eq_none.mp hr o ho rfl
  have htarget : target p existing newId option ∈ d₁.assetParameterOptions := hw.mem.mpr <| .inl rfl
  constructor
  case stored =>
    intro o ho
    obtain ho | ⟨ho, hn⟩ := h.stored o ho
    · exact .inl <| .tail _ ho
    · obtain rfl | ⟨ho, hk⟩ := hw.mem.mp ho
      · exact .inl <| .head _
      · exact .inr ⟨ho, List.forall_mem_cons.mpr ⟨hk.symm, hn⟩⟩
  case kept =>
    intro o ho hn
    obtain ⟨hk, hn⟩ := List.forall_mem_cons.mp hn
    exact h.kept o (hw.mem.mpr <| .inr ⟨ho, hk.symm⟩) hn
  case written =>
    intro hd
    obtain ⟨hn, hd⟩ := List.nodup_cons.mp hd
    refine List.forall_mem_cons.mpr ⟨h.kept _ htarget fun r hr he => ?_, h.written hd⟩
    exact hn <| List.mem_map.mpr ⟨r, hr, he⟩
  case matched =>
    rw [filterMap_matchOption]
    refine List.forall_mem_cons.mpr ⟨?_, fun r hr => ?_⟩
    case refine_1 =>
      cases ho : matchOption existing option
      case none =>
        refine .inr ?_
        rw [target, ho]
        exact ha.fresh ho
      case some id =>
        rw [target, ho]
        exact .inl <| .head _
    case refine_2 =>
      obtain hr | hr := h.matched r hr
      · exact .inl <| List.mem_append_right _ hr
      · have hk := hnew htarget hr
        rw [hw.find?, if_neg hk.symm] at hr
        exact .inr hr
  case distinct =>
    intro hd
    rw [filterMap_matchOption] at hd
    obtain ⟨_, hd, hdisj⟩ := List.nodup_append.mp hd
    refine List.nodup_cons.mpr ⟨fun hm => ?_, h.distinct hd⟩
    obtain ⟨r, hr, he⟩ := List.mem_map.mp hm
    obtain hr | hr := h.matched r hr
    case inr => exact hnew htarget hr he
    case inl =>
      cases ho : matchOption existing option
      case none =>
        obtain ⟨o, hm, hk, _⟩ := hs r.optionId <| filterMap_matchOption ▸ List.mem_append_right _ hr
        refine Table.find?_eq_none.mp (ha.fresh ho) o hm <| hk.trans <| he.trans ?_
        rw [target, ho]
        rfl
      case some id =>
        rw [target, ho] at he
        exact hdisj id (ho ▸ .head _) _ hr he.symm

theorem wlp_applyOptions_applied (hs : AllStored p existing options d) :
    (applyOptions p existing newIds options).wlp (fun _ d' =>
      Applied p existing options (targets p existing newIds options) d d') d := by
  induction options generalizing d newIds
  case nil =>
    refine wp_done.mpr ⟨fun o ho => .inr ⟨ho, nofun⟩, fun o ho _ => ho, fun _ => nofun, nofun, fun _ => .nil⟩
  case cons option options ih =>
    rw [applyOptions_cons]
    refine wp_bind.mpr <| wp_applyOption hs.head (fun ha d₁ hw => ?_) fun _ _ => trivial
    exact wp_mono (ih <| hs.tail hw rfl) fun _ d' h => h.cons hs ha hw

end Applied

section Deleted

variable [ScanOrder]

structure Retained (isDeleted : AssetParameterOptionRow → Bool) (d d' : Database) : Prop where
  mem : ∀ o, o ∈ d'.assetParameterOptions ↔ o ∈ d.assetParameterOptions ∧ ¬isDeleted o
  elsewhere : d' = { d with assetParameterOptions := d'.assetParameterOptions }

def IsReferenced (id : Uuid) (d : Database) : Prop :=
  ∃ v ∈ d.assetParameterValues, v.columns.valueOptionId = some id

theorem wp_deleteOptions {R : ApiError → Prop} {isDeleted : AssetParameterOptionRow → Bool}
    (hr : ∀ o ∈ d.assetParameterOptions, isDeleted o → IsReferenced o.optionId d → ∀ e, R e) :
    (deleteOptions isDeleted).wp (fun _ => True) R (fun _ d' => Retained isDeleted d d') d := by
  refine wp_mono (wp_bulk_of (v := Database.assetParameterOptions) (p := isDeleted)
    (g := fun _ => none) (J := fun d' => d' = { d with assetParameterOptions := d'.assetParameterOptions })
    (ScanOrder.visit_perm _) rfl fun r rs d₁ hd h => ?_) fun _ d' h =>
      ⟨fun _ => Table.mem_of_find?_removed h.right, h.left⟩
  refine wp_exec.mpr ⟨fun d₂ ha => ⟨trivial, ?_, fun k => ?_⟩, fun c hc => ?_⟩
  case refine_1 => rw [(Database.applied_of_apply ha).right, hd]
  case refine_2 =>
    rw [← Except.ok.inj (Database.applied_of_apply ha).left, Table.find?_delete]
    exact if_congr eq_comm rfl rfl
  case refine_3 =>
    obtain ⟨hf, hp⟩ := h.found r (.head _)
    refine hr r (Table.find?_eq_some.mp hf).left hp ?_ _
    by_contra hn
    have ha : d₁.apply (.assetParameterOptions (.delete r.optionId)) =
        .ok { d₁ with assetParameterOptions := d₁.assetParameterOptions.delete r.optionId } := by
      refine Except.bind_eq_ok.mpr ⟨_, rfl, Except.bind_eq_ok.mpr ⟨(), Except.check_eq_ok.mpr ?_, rfl⟩⟩
      rw [hd]
      intro ha
      obtain ⟨v, hv, he⟩ := List.any_eq_true.mp ha
      exact hn ⟨v, hv, of_decide_eq_true he⟩
    exact nomatch ha.symm.trans hc

end Deleted

section Replaced

-- A list of options that has passed its validation.
structure Distinct (options : List UpdateAssetParameterOption) : Prop where
  codes : ∀ e₁ ∈ options, ∀ e₂ ∈ options, e₁.code = e₂.code → e₁ = e₂
  pairs : options.Pairwise fun e₁ e₂ =>
    e₁.code ≠ e₂.code ∧ ∀ id ∈ e₁.optionId, e₂.optionId ≠ some id

theorem validateUniqueOptions_eq_ok {seenIds : List Uuid} {seenCodes : List String}
    (h : validateUniqueOptions seenIds seenCodes options = .ok ()) :
    (∀ e ∈ options, e.code ∉ seenCodes ∧ ∀ id ∈ e.optionId, id ∉ seenIds) ∧
    options.Pairwise fun e₁ e₂ => e₁.code ≠ e₂.code ∧ ∀ id ∈ e₁.optionId, e₂.optionId ≠ some id := by
  induction options generalizing seenIds seenCodes
  case nil => exact ⟨nofun, .nil⟩
  case cons e options ih =>
    simp only [validateUniqueOptions, Except.bind_eq_ok, Except.check_eq_ok] at h
    obtain ⟨_, hi, _, hc, h⟩ := h
    obtain ⟨hseen, hpairs⟩ := ih h
    have hid : ∀ id ∈ e.optionId, id ∉ seenIds := by
      intro id he hm
      rw [Option.mem_def.mp he] at hi
      exact hi <| List.contains_iff_mem.mpr hm
    refine ⟨List.forall_mem_cons.mpr ⟨⟨by simpa using hc, hid⟩, fun e' he' => ?_⟩, ?_⟩
    case refine_1 =>
      obtain ⟨hc', hi'⟩ := hseen e' he'
      refine ⟨fun hm => hc' <| .tail _ hm, fun id hid hm => hi' id hid ?_⟩
      exact List.mem_append_right _ hm
    case refine_2 =>
      refine List.pairwise_cons.mpr ⟨fun e' he' => ⟨?_, fun id hid he => ?_⟩, hpairs⟩
      case refine_1 =>
        intro he
        exact (hseen e' he').left <| he ▸ .head _
      case refine_2 =>
        refine (hseen e' he').right id he <| List.mem_append_left _ ?_
        rw [Option.mem_def.mp hid]
        exact .head _

theorem distinct_of_validate (h : validateUpdateOptionList options = .ok ()) : Distinct options := by
  obtain ⟨_, _, h⟩ := Except.bind_eq_ok.mp h
  have hp := (validateUniqueOptions_eq_ok h).right
  refine ⟨fun e₁ h₁ e₂ h₂ hc => ?_, hp⟩
  by_contra hn
  have : Std.Symm fun e₁ e₂ : UpdateAssetParameterOption => e₁.code ≠ e₂.code :=
    ⟨fun _ _ => Ne.symm⟩
  exact (hp.imp And.left).forall h₁ h₂ hn hc

theorem Fetched.code_inj (h : Fetched p d existing) {o₁ o₂ : AssetParameterOptionRow}
    (h₁ : o₁ ∈ existing) (h₂ : o₂ ∈ existing) (hc : o₁.code = o₂.code) : o₁ = o₂ := by
  obtain ⟨h₁, hp₁⟩ := (h o₁).mp h₁
  obtain ⟨h₂, hp₂⟩ := (h o₂).mp h₂
  exact codes_distinct h₁ h₂ (hp₁.trans hp₂.symm) hc

theorem matchOption_eq_some {id : Uuid} (h : matchOption existing option = some id) :
    option.optionId = some id ∨ (option.optionId = none ∧
      ∃ o ∈ existing, o.code = option.code ∧ o.optionId = id) := by
  unfold matchOption at h
  cases ho : option.optionId
  case some id' =>
    rw [ho] at h
    exact .inl h
  case none =>
    rw [ho] at h
    obtain ⟨o, hf, hi⟩ := Option.map_eq_some_iff.mp h
    exact .inr ⟨rfl, o, List.mem_of_find?_eq_some hf, by simpa using List.find?_some hf, hi⟩

theorem matchOption_of_code {o : AssetParameterOptionRow} (hf : Fetched p d existing)
    (hn : option.optionId = none) (ho : o ∈ existing) (hc : o.code = option.code) :
    matchOption existing option = some o.optionId := by
  unfold matchOption
  rw [hn]
  cases hx : existing.find? (·.code = option.code)
  case none => simpa [hc] using List.find?_eq_none.mp hx o ho
  case some o' =>
    have hc' : o'.code = option.code := by simpa using List.find?_some hx
    rw [hf.code_inj (List.mem_of_find?_eq_some hx) ho (hc'.trans hc.symm)]
    rfl

-- No entry without an id has the code of an option that another entry names.
def Unambiguous (existing : List AssetParameterOptionRow)
    (options : List UpdateAssetParameterOption) : Prop :=
  ∀ e₁ ∈ options, e₁.optionId = none → ∀ o ∈ existing, o.code = e₁.code →
    ∀ e₂ ∈ options, e₂.optionId ≠ some o.optionId

theorem Unambiguous.nodup (h : Unambiguous existing options) (hd : Distinct options)
    (hf : Fetched p d existing) : (options.filterMap (matchOption existing)).Nodup := by
  refine List.pairwise_filterMap.mpr <| hd.pairs.imp_of_mem fun {e₁ e₂} h₁ h₂ hne => ?_
  rintro id hi₁ _ hi₂ rfl
  obtain hi₁ | ⟨hn₁, o₁, ho₁, hc₁, hk₁⟩ := matchOption_eq_some hi₁ <;>
  obtain hi₂ | ⟨hn₂, o₂, ho₂, hc₂, hk₂⟩ := matchOption_eq_some hi₂
  · exact hne.right id hi₁ hi₂
  · exact h e₂ h₂ hn₂ o₂ ho₂ hc₂ e₁ h₁ (hk₂ ▸ hi₁)
  · exact h e₁ h₁ hn₁ o₁ ho₁ hc₁ e₂ h₂ (hk₁ ▸ hi₂)
  · obtain rfl : o₁ = o₂ :=
      Table.eq_of_key_eq ((hf o₁).mp ho₁).left ((hf o₂).mp ho₂).left (hk₁.trans hk₂.symm)
    exact hne.left (hc₁.symm.trans hc₂)

-- The entries are stored under pairwise distinct ids, those that have been given among them.
def Replaced (p : Uuid) (options : List UpdateAssetParameterOption) (d : Database) : Prop :=
  ∃ ids : List Uuid, ids.Nodup ∧
    List.Forall₂ (fun option id => ∀ given ∈ option.optionId, given = id) options ids ∧
    (optionsOf p d).Perm (List.zipWith (·.row p ·) options ids)

theorem mem_targets {r : AssetParameterOptionRow} (h : r ∈ targets p existing newIds options) :
    ∃ option ∈ options, ∃ newId, r = target p existing newId option := by
  induction options generalizing newIds
  case nil => exact nomatch h
  case cons option options ih =>
    obtain rfl | h := List.mem_cons.mp h
    · exact ⟨option, .head _, _, rfl⟩
    · obtain ⟨e, he, hr⟩ := ih h
      exact ⟨e, .tail _ he, hr⟩

theorem exists_target (h : option ∈ options) :
    ∃ newId, target p existing newId option ∈ targets p existing newIds options := by
  induction options generalizing newIds
  case nil => exact nomatch h
  case cons e options ih =>
    obtain rfl | h := List.mem_cons.mp h
    · exact ⟨_, .head _⟩
    · obtain ⟨newId, hm⟩ := ih h
      exact ⟨newId, .tail _ hm⟩

theorem zipWith_targets : List.zipWith (·.row p ·) options
    ((targets p existing newIds options).map (·.optionId)) = targets p existing newIds options := by
  induction options generalizing newIds
  case nil => rfl
  case cons option options ih => exact congrArg _ ih

theorem forall₂_targets : List.Forall₂ (fun option id => ∀ given ∈ option.optionId, given = id)
    options ((targets p existing newIds options).map (·.optionId)) := by
  induction options generalizing newIds
  case nil => exact .nil
  case cons option options ih =>
    refine .cons (fun given hg => ?_) ih
    rw [target, matchOption, Option.mem_def.mp hg]
    rfl

theorem allStored_of_retained (hf : Fetched p d existing)
    (hi : options.all fun option => option.optionId.all fun id => existing.any (·.optionId = id))
    (hr : Retained (fun r => r.parameterTypeId = p ∧
      r.optionId ∉ options.filterMap (matchOption existing)) d d₁) :
    AllStored p existing options d₁ := by
  intro id hid
  obtain ⟨option, ho, hm⟩ := List.mem_filterMap.mp hid
  have hex : ∃ o ∈ existing, o.optionId = id := by
    obtain hs | ⟨_, o, ho, _, hk⟩ := matchOption_eq_some hm
    · simpa [hs] using List.all_eq_true.mp hi option ho
    · exact ⟨o, ho, hk⟩
  obtain ⟨o, ho, rfl⟩ := hex
  obtain ⟨ho, hp⟩ := (hf o).mp ho
  refine ⟨o, (hr.mem o).mpr ⟨ho, ?_⟩, rfl, hp⟩
  simp only [decide_eq_true_eq, not_and, not_not]
  exact fun _ => hid

theorem replaced_of_nodup {rows : List AssetParameterOptionRow}
    (hr : rows = targets p existing newIds options) (hn : (rows.map (·.optionId)).Nodup)
    (hw : ∀ r ∈ rows, r ∈ d'.assetParameterOptions)
    (hs : ∀ o ∈ d'.assetParameterOptions, o.parameterTypeId = p → o ∈ rows) :
    Replaced p options d' := by
  refine ⟨_, hr ▸ hn, forall₂_targets, ?_⟩
  rw [zipWith_targets, ← hr]
  refine (List.perm_ext_iff_of_nodup ?_ hn.of_map).mpr fun o => ?_
  case refine_1 =>
    refine .filter _ <| d'.assetParameterOptions.keyed.imp ?_
    rintro a _ hk rfl
    exact hk rfl
  case refine_2 =>
    simp only [optionsOf, List.mem_filter, decide_eq_true_eq]
    refine ⟨fun h => hs o h.left h.right, fun h => ⟨hw o h, ?_⟩⟩
    obtain ⟨_, _, _, rfl⟩ := mem_targets (hr ▸ h)
    rfl

theorem Replaced.exists_row (h : Replaced p options d) (ho : option ∈ options) :
    ∃ o ∈ d.assetParameterOptions, o.parameterTypeId = p ∧ o.code = option.code := by
  obtain ⟨ids, _, hf, hp⟩ := h
  obtain ⟨i, hi, rfl⟩ := List.getElem_of_mem ho
  have hi' : i < ids.length := hf.length_eq ▸ hi
  have hm : options[i].row p ids[i] ∈ List.zipWith (·.row p ·) options ids := by
    refine List.mem_iff_getElem.mpr ⟨i, ?_, List.getElem_zipWith⟩
    rw [List.length_zipWith]
    exact lt_min hi hi'
  obtain ⟨hm, hk⟩ := List.mem_filter.mp <| hp.mem_iff.mpr hm
  exact ⟨_, hm, of_decide_eq_true hk, rfl⟩

variable [ScanOrder]

-- The options that are stored in the end all come from the list.
theorem wlp_replaceOptions_applied (hf : Fetched p d existing) :
    (replaceOptions p existing options newIds).wlp (fun _ d' =>
      (∃ d₁, Applied p existing options (targets p existing newIds options) d₁ d') ∧
      ∀ o ∈ d'.assetParameterOptions, o.parameterTypeId = p →
        o ∈ targets p existing newIds options) d := by
  refine wp_bind.mpr <| wp_require.mpr ⟨fun hi => wp_bind.mpr ?_, fun _ => trivial⟩
  refine wp_mono (wp_deleteOptions fun _ _ _ _ _ => trivial) fun _ d₁ hr => ?_
  refine wp_mono (wlp_applyOptions_applied (allStored_of_retained hf hi hr)) fun _ d' ha => ?_
  refine ⟨⟨d₁, ha⟩, fun o ho hp => ?_⟩
  obtain ho | ⟨ho, hn⟩ := ha.stored o ho
  case inl => exact ho
  case inr =>
    have hm := ((hr.mem o).mp ho).right
    simp only [decide_eq_true_eq, not_and, not_not] at hm
    obtain ⟨option, hopt, hid⟩ := List.mem_filterMap.mp (hm hp)
    obtain ⟨newId, ht⟩ := exists_target hopt
    refine absurd ?_ <| hn _ ht
    rw [target, hid]
    rfl

theorem replaced_iff_unambiguous (hf : Fetched p d existing)
    (hv : validateUpdateOptionList options = .ok ())
    (h : (replaceOptions p existing options newIds).run d = .ok ((), d')) :
    Replaced p options d' ↔ Unambiguous existing options := by
  have hd := distinct_of_validate hv
  obtain ⟨⟨d₁, ha⟩, hs⟩ := wp_run (wlp_replaceOptions_applied hf) h
  constructor
  case mp =>
    intro hr e₁ h₁ hn o ho hc e₂ h₂ hi
    -- Both entries have been written to the same row, which can only have the code of one of them.
    have hrow {e} (he : e ∈ options) (hm : matchOption existing e = some o.optionId) :
        ∃ r ∈ d'.assetParameterOptions, r.optionId = o.optionId ∧ r.code = e.code := by
      obtain ⟨r, hrd, hp, hcode⟩ := hr.exists_row he
      obtain ⟨e', he', newId, rfl⟩ := mem_targets <| hs r hrd hp
      obtain rfl := hd.codes e' he' e he hcode
      refine ⟨_, hrd, ?_, hcode⟩
      rw [target, hm]
      rfl
    obtain ⟨r₁, hr₁, hk₁, hc₁⟩ := hrow h₁ <| matchOption_of_code hf hn ho hc
    obtain ⟨r₂, hr₂, hk₂, hc₂⟩ := hrow h₂ <| by rw [matchOption, hi]; rfl
    obtain rfl : r₁ = r₂ := Table.eq_of_key_eq hr₁ hr₂ (hk₁.trans hk₂.symm)
    obtain rfl := hd.codes e₁ h₁ e₂ h₂ (hc₁.symm.trans hc₂)
    exact nomatch hn.symm.trans hi
  case mpr =>
    intro hu
    have hn := ha.distinct <| hu.nodup hd hf
    exact replaced_of_nodup rfl hn (ha.written hn) hs

end Replaced

-- The options that the enum has been created with.
def shades : List AssetParameterOptionRow :=
  [⟨6, 5, "red", "Red", 0⟩, ⟨7, 5, "blue", "Blue", 1⟩]

theorem options_colored : colored.assetParameterOptions.rows = shades := by
  decide +kernel

theorem fetched_shades : Fetched 5 colored shades := by
  intro o
  have hp : ∀ o ∈ shades, o.parameterTypeId = 5 := by simp [shades]
  rw [Table.mem_def, options_colored]
  exact ⟨fun ho => ⟨ho, hp o ho⟩, And.left⟩

-- Red gets another code and blue is replaced by green.
def repainted : List UpdateAssetParameterOption :=
  [⟨some 6, "crimson", "Crimson", 0⟩, ⟨none, "green", "Green", 1⟩]

theorem replaced_iff_unambiguous_repainted :
    let _ := ScanOrder.stored
    ∃ d', (replaceOptions 5 shades repainted (8 + ·)).run colored = .ok ((), d') ∧
      (Replaced 5 repainted d' ↔ Unambiguous shades repainted) := by
  let _ := ScanOrder.stored
  have hr : (replaceOptions 5 shades repainted (8 + ·)).run colored =
      .ok ((), (replaceOptions 5 shades repainted (8 + ·)).after colored) := by
    rfl
  exact ⟨_, hr, replaced_iff_unambiguous fetched_shades rfl hr⟩

-- One entry stands for red by its code, the other one by its id.
def ambiguous : List UpdateAssetParameterOption :=
  [⟨none, "red", "Red", 0⟩, ⟨some 6, "crimson", "Crimson", 1⟩]

theorem not_replaced_ambiguous :
    let _ := ScanOrder.stored
    Fetched 5 colored shades ∧ validateUpdateOptionList ambiguous = .ok () ∧
    ∃ d', (replaceOptions 5 shades ambiguous (8 + ·)).run colored = .ok ((), d') ∧
      ¬Replaced 5 ambiguous d' := by
  let _ := ScanOrder.stored
  refine ⟨fetched_shades, rfl, (replaceOptions 5 shades ambiguous (8 + ·)).after colored, rfl, ?_⟩
  have hc : ((replaceOptions 5 shades ambiguous (8 + ·)).after colored).assetParameterOptions.rows =
      [⟨6, 5, "crimson", "Crimson", 1⟩] := by
    decide +kernel
  intro hr
  have hm : ⟨none, "red", "Red", 0⟩ ∈ ambiguous := .head _
  obtain ⟨o, ho, _, hcode⟩ := hr.exists_row hm
  obtain rfl := List.mem_singleton.mp (hc ▸ Table.mem_def.mp ho)
  exact absurd hcode (by decide +kernel)

section Accepted

-- An entry names one of the options or brings a code of its own, and values keep their options.
structure Admissible (existing : List AssetParameterOptionRow)
    (options : List UpdateAssetParameterOption) (d : Database) : Prop where
  named : ∀ e ∈ options, ∀ id ∈ e.optionId, ∃ o ∈ existing, o.optionId = id
  new : ∀ e ∈ options, e.optionId = none → ∀ o ∈ existing, o.code ≠ e.code
  referenced : ∀ o ∈ existing, IsReferenced o.optionId d → ∃ e ∈ options, e.optionId = some o.optionId

-- No entry takes a code which the option of a later entry has.
def InOrder (existing : List AssetParameterOptionRow)
    (options : List UpdateAssetParameterOption) : Prop :=
  options.Pairwise fun e₁ e₂ => ∀ o ∈ existing, e₂.optionId = some o.optionId → o.code ≠ e₁.code

-- The list can be written: its texts can be stored, and its codes are free when their turn comes.
structure Writable (existing : List AssetParameterOptionRow)
    (options : List UpdateAssetParameterOption) : Prop where
  storable : ∀ e ∈ options, e.IsStorable
  inOrder : InOrder existing options

-- The same, for what is stored while the list is being written.
structure Free (options : List UpdateAssetParameterOption) (d : Database) : Prop where
  storable : ∀ e ∈ options, e.IsStorable
  inOrder : options.Pairwise fun e₁ e₂ =>
    ∀ o ∈ d.assetParameterOptions, e₂.optionId = some o.optionId → o.code ≠ e₁.code

-- The ids that are made up for new options differ from each other and from those of all options.
structure Unused (newIds : NewIds) (count : Nat) (d : Database) : Prop where
  distinct : ∀ m < count, ∀ n < count, newIds m = newIds n → m = n
  unused : ∀ n < count, d.assetParameterOptions.find? (newIds n) = none

-- What is known when the given entries remain to be written.
structure Ready (p : Uuid) (existing : List AssetParameterOptionRow) (newIds : NewIds)
    (options : List UpdateAssetParameterOption) (d : Database) : Prop where
  matched : ∀ e ∈ options, matchOption existing e = e.optionId
  distinct : options.Pairwise fun e₁ e₂ =>
    e₁.code ≠ e₂.code ∧ ∀ id ∈ e₁.optionId, e₂.optionId ≠ some id
  stored : ∀ e ∈ options, ∀ id ∈ e.optionId, IsOption p id d
  fresh : Unused newIds options.length d
  parameter : (d.assetParameterTypes.find? p).isSome
  held : ∀ o ∈ d.assetParameterOptions, o.parameterTypeId = p →
    (∃ e ∈ options, e.optionId = some o.optionId) ∨ ∀ e ∈ options, o.code ≠ e.code

theorem clash?_row {id : Uuid} : d.assetParameterOptions.clash? (option.row p id) = none ↔
    ∀ o ∈ d.assetParameterOptions, o.optionId ≠ id → o.parameterTypeId = p → o.code ≠ option.code := by
  refine Table.clash?_eq_none.trans <| forall_congr' fun o => forall_congr' fun _ => forall_congr' fun _ => ?_
  refine conflict?_eq_none.trans <| List.forall_mem_singleton.trans ?_
  constructor
  case mp =>
    rintro h hp hc
    refine h ⟨Option.some_ne_none _, ?_⟩
    simp [UpdateAssetParameterOption.row, hp, hc]
  case mpr =>
    rintro h ⟨_, he⟩
    obtain ⟨hp, hc⟩ := Prod.mk.inj <| Option.some.inj he
    exact h hp.symm hc.symm

namespace Ready

theorem id_ne (h : Ready p existing newIds (option :: options) d) {e : UpdateAssetParameterOption}
    {id : Uuid} (he : e ∈ options) (hi : e.optionId = some id) :
    id ≠ (target p existing (newIds 0) option).optionId := by
  rw [target, h.matched option (.head _)]
  cases ho : option.optionId
  case none =>
    obtain ⟨o, hm, rfl, _⟩ := h.stored e (.tail _ he) id hi
    exact Table.find?_eq_none.mp (h.fresh.unused 0 <| Nat.zero_lt_succ _) o hm
  case some id' =>
    rintro rfl
    exact ((List.pairwise_cons.mp h.distinct).left e he).right _ ho hi

theorem accepted_iff (h : Ready p existing newIds (option :: options) d) :
    Accepted p existing (newIds 0) option d ↔ option.IsStorable ∧
      ∀ e ∈ options, ∀ o ∈ d.assetParameterOptions,
        e.optionId = some o.optionId → o.code ≠ option.code := by
  constructor
  case mp =>
    intro ha
    refine ⟨ha.storable, fun e he o ho hi => ?_⟩
    refine clash?_row.mp ha.clash o ho (h.id_ne he hi) ?_
    obtain ⟨o', ho', hk, hp⟩ := h.stored e (.tail _ he) _ hi
    exact Table.eq_of_key_eq ho' ho hk ▸ hp
  case mpr =>
    rintro ⟨hs, hc⟩
    refine ⟨hs, clash?_row.mpr fun o ho hk hp => ?_, fun _ => h.fresh.unused 0 <| Nat.zero_lt_succ _,
      h.parameter⟩
    obtain ⟨e, he, hi⟩ | hn := h.held o ho hp
    case inr => exact hn option <| .head _
    case inl =>
      obtain rfl | he := List.mem_cons.mp he
      · refine absurd ?_ hk
        rw [h.matched e <| .head _, hi]
        rfl
      · exact hc e he o ho hi

theorem named_iff (h : Ready p existing newIds (option :: options) d)
    (hw : Written (target p existing (newIds 0) option) d d₁) {e : UpdateAssetParameterOption}
    {o : AssetParameterOptionRow} (he : e ∈ options) (hi : e.optionId = some o.optionId) :
    o ∈ d₁.assetParameterOptions ↔ o ∈ d.assetParameterOptions := by
  have hk := h.id_ne he hi
  refine hw.mem.trans ⟨fun ho => ho.elim ?_ And.left, fun ho => .inr ⟨ho, hk⟩⟩
  rintro rfl
  exact absurd rfl hk

theorem tail (h : Ready p existing newIds (option :: options) d)
    (hw : Written (target p existing (newIds 0) option) d d₁) :
    Ready p existing (newIds <| · + 1) options d₁ where
  matched e he := h.matched e <| .tail _ he
  distinct := h.distinct.of_cons
  stored e he id hi := hw.isOption rfl <| h.stored e (.tail _ he) id hi
  parameter := by
    rw [hw.elsewhere]
    exact h.parameter
  fresh := by
    refine ⟨fun m hm n hn he => ?_, fun n hn => ?_⟩
    case refine_1 =>
      exact Nat.succ.inj <| h.fresh.distinct _ (Nat.succ_lt_succ hm) _ (Nat.succ_lt_succ hn) he
    case refine_2 =>
      have hu := h.fresh.unused _ (Nat.succ_lt_succ hn)
      refine (hw.find? _).trans <| (if_neg ?_).trans hu
      rw [target, h.matched option <| .head _]
      cases ho : option.optionId
      case none =>
        intro he
        exact nomatch h.fresh.distinct _ (Nat.zero_lt_succ _) _ (Nat.succ_lt_succ hn) he
      case some id =>
        obtain ⟨o, hm, rfl, _⟩ := h.stored option (.head _) id ho
        exact Table.find?_eq_none.mp hu o hm
  held o ho hp := by
    obtain rfl | ⟨ho, hk⟩ := hw.mem.mp ho
    · exact .inr fun e he => ((List.pairwise_cons.mp h.distinct).left e he).left
    · refine (h.held o ho hp).imp (fun ⟨e, he, hi⟩ => ?_) fun hc e he => hc e <| .tail _ he
      obtain rfl | he := List.mem_cons.mp he
      · refine absurd ?_ hk
        rw [target, h.matched e <| .head _, hi]
        rfl
      · exact ⟨e, he, hi⟩

theorem free_iff (h : Ready p existing newIds (option :: options) d)
    (hw : Written (target p existing (newIds 0) option) d d₁) : Free options d₁ ↔ Free options d := by
  have hiff : (options.Pairwise fun e₁ e₂ => ∀ o ∈ d₁.assetParameterOptions,
        e₂.optionId = some o.optionId → o.code ≠ e₁.code) ↔
      options.Pairwise fun e₁ e₂ => ∀ o ∈ d.assetParameterOptions,
        e₂.optionId = some o.optionId → o.code ≠ e₁.code := by
    refine List.Pairwise.iff_of_mem fun {e₁ e₂} _ he => forall_congr' fun o => ?_
    constructor
    case mp => exact fun hc ho hi => hc ((h.named_iff hw he hi).mpr ho) hi
    case mpr => exact fun hc ho hi => hc ((h.named_iff hw he hi).mp ho) hi
  exact ⟨fun hf => ⟨hf.storable, hiff.mp hf.inOrder⟩, fun hf => ⟨hf.storable, hiff.mpr hf.inOrder⟩⟩

theorem free_cons (h : Ready p existing newIds (option :: options) d) :
    Free (option :: options) d ↔ Accepted p existing (newIds 0) option d ∧ Free options d := by
  rw [h.accepted_iff]
  constructor
  case mp =>
    intro hf
    obtain ⟨hs, hss⟩ := List.forall_mem_cons.mp hf.storable
    obtain ⟨hc, hcs⟩ := List.pairwise_cons.mp hf.inOrder
    exact ⟨⟨hs, hc⟩, hss, hcs⟩
  case mpr =>
    rintro ⟨⟨hs, hc⟩, hf⟩
    exact ⟨List.forall_mem_cons.mpr ⟨hs, hf.storable⟩, List.pairwise_cons.mpr ⟨hc, hf.inOrder⟩⟩

theorem head (h : Ready p existing newIds (option :: options) d) :
    ∀ id ∈ matchOption existing option, IsOption p id d :=
  fun id hi => h.stored option (.head _) id <| h.matched option (.head _) ▸ hi

theorem free_of_applyOptions (h : Ready p existing newIds options d) :
    (applyOptions p existing newIds options).wlp (fun _ _ => Free options d) d := by
  induction options generalizing d newIds
  case nil => exact ⟨nofun, .nil⟩
  case cons option options ih =>
    rw [applyOptions_cons]
    refine wp_bind.mpr <| wp_applyOption h.head (fun ha d₁ hw => ?_) fun _ _ => trivial
    refine wp_mono (ih <| h.tail hw) fun _ _ hf => ?_
    exact h.free_cons.mpr ⟨ha, (h.free_iff hw).mp hf⟩

theorem applyOptions_of_free (h : Ready p existing newIds options d) (hf : Free options d) :
    (applyOptions p existing newIds options).wp (fun _ => True) (fun _ => False) (fun _ _ => True) d := by
  induction options generalizing d newIds
  case nil => trivial
  case cons option options ih =>
    obtain ⟨ha, hf⟩ := h.free_cons.mp hf
    rw [applyOptions_cons]
    refine wp_bind.mpr <| wp_applyOption h.head (fun _ d₁ hw => ?_) fun hna => absurd ha hna
    exact ih (h.tail hw) <| (h.free_iff hw).mpr hf

end Ready

theorem Admissible.matchOption_eq (h : Admissible existing options d) (ho : option ∈ options) :
    matchOption existing option = option.optionId := by
  cases hi : option.optionId
  case some => rw [matchOption, hi]; rfl
  case none =>
    cases hm : matchOption existing option
    case none => rfl
    case some id =>
      obtain hs | ⟨_, o, hx, hc, _⟩ := matchOption_eq_some hm
      · cases hi.symm.trans hs
      · exact absurd hc <| h.new option ho hi o hx

theorem Admissible.mem_retained (h : Admissible existing options d) {id : Uuid} :
    id ∈ options.filterMap (matchOption existing) ↔ ∃ e ∈ options, e.optionId = some id := by
  refine List.mem_filterMap.trans <| exists_congr fun e => and_congr_right fun he => ?_
  rw [h.matchOption_eq he]

theorem Admissible.ready (h : Admissible existing options d) (hv : Distinct options)
    (hf : Fetched p d existing) (ht : ∃ r ∈ d.assetParameterTypes, r.parameterTypeId = p)
    (hn : Unused newIds options.length d) (hr : Retained (fun r => r.parameterTypeId = p ∧
      r.optionId ∉ options.filterMap (matchOption existing)) d d₁) :
    Ready p existing newIds options d₁ := by
  have hnamed {o : AssetParameterOptionRow} (ho : o ∈ d₁.assetParameterOptions)
      (hp : o.parameterTypeId = p) : ∃ e ∈ options, e.optionId = some o.optionId := by
    have hm := ((hr.mem o).mp ho).right
    simp only [decide_eq_true_eq, not_and, not_not] at hm
    exact h.mem_retained.mp (hm hp)
  constructor
  case matched => exact fun e he => h.matchOption_eq he
  case distinct => exact hv.pairs
  case stored =>
    intro e he id hi
    obtain ⟨o, ho, rfl⟩ := h.named e he id hi
    obtain ⟨ho, hp⟩ := (hf o).mp ho
    refine ⟨o, (hr.mem o).mpr ⟨ho, ?_⟩, rfl, hp⟩
    simp only [decide_eq_true_eq, not_and, not_not]
    exact fun _ => h.mem_retained.mpr ⟨e, he, hi⟩
  case fresh =>
    refine ⟨hn.distinct, fun n hlt => Table.find?_eq_none.mpr fun o ho => ?_⟩
    exact Table.find?_eq_none.mp (hn.unused n hlt) o ((hr.mem o).mp ho).left
  case parameter =>
    obtain ⟨r, hm, rfl⟩ := ht
    rw [hr.elsewhere]
    exact Option.isSome_iff_exists.mpr ⟨r, Table.find?_key hm⟩
  case held => exact fun o ho hp => .inl <| hnamed ho hp

theorem Ready.writable_iff (h : Ready p existing newIds options d₁) (hf : Fetched p d existing)
    (hr : ∀ o ∈ d₁.assetParameterOptions, o ∈ d.assetParameterOptions) :
    Free options d₁ ↔ Writable existing options := by
  suffices ho : (options.Pairwise fun e₁ e₂ => ∀ o ∈ d₁.assetParameterOptions,
      e₂.optionId = some o.optionId → o.code ≠ e₁.code) ↔ InOrder existing options from
    ⟨fun hf => ⟨hf.storable, ho.mp hf.inOrder⟩, fun hw => ⟨hw.storable, ho.mpr hw.inOrder⟩⟩
  refine List.Pairwise.iff_of_mem fun {e₁ e₂} _ he => forall_congr' fun o => ?_
  -- What an entry names has been retained.
  have hiff (hi : e₂.optionId = some o.optionId) : o ∈ d₁.assetParameterOptions ↔ o ∈ existing := by
    obtain ⟨o', ho', hk, hp⟩ := h.stored e₂ he _ hi
    constructor
    case mp =>
      intro ho
      obtain rfl : o' = o := Table.eq_of_key_eq ho' ho hk
      exact (hf o').mpr ⟨hr o' ho', hp⟩
    case mpr =>
      intro ho
      exact Table.eq_of_key_eq (hr o' ho') ((hf o).mp ho).left hk ▸ ho'
  exact ⟨fun hc ho hi => hc ((hiff hi).mpr ho) hi, fun hc ho hi => hc ((hiff hi).mp ho) hi⟩

variable [ScanOrder]

theorem replaceOptions_succeeds_iff (hf : Fetched p d existing)
    (ht : ∃ r ∈ d.assetParameterTypes, r.parameterTypeId = p)
    (hv : validateUpdateOptionList options = .ok ()) (ha : Admissible existing options d)
    (hn : Unused newIds options.length d) :
    (∃ d', (replaceOptions p existing options newIds).run d = .ok ((), d')) ↔
      Writable existing options := by
  have hd := distinct_of_validate hv
  have hnamed : options.all fun option => option.optionId.all fun id =>
      existing.any (·.optionId = id) := by
    refine List.all_eq_true.mpr fun e he => (Option.all_eq_true _ _).mpr fun id hi => ?_
    obtain ⟨o, ho, hk⟩ := ha.named e he id hi
    exact List.any_eq_true.mpr ⟨o, ho, decide_eq_true hk⟩
  have hdelete : (deleteRemovedAssetParameterOptions p
      (options.filterMap (matchOption existing))).wp (fun _ => True) (fun _ => False)
      (fun _ d₁ => Ready p existing newIds options d₁ ∧
        (Free options d₁ ↔ Writable existing options)) d := by
    refine wp_mono (wp_deleteOptions fun o ho hx href => ?_) fun _ d₁ hr => ?_
    case refine_1 =>
      obtain ⟨hp, hx⟩ := of_decide_eq_true hx
      exact absurd (ha.mem_retained.mpr <| ha.referenced o ((hf o).mpr ⟨ho, hp⟩) href) hx
    case refine_2 =>
      have h := ha.ready hd hf ht hn hr
      exact ⟨h, h.writable_iff hf fun o ho => ((hr.mem o).mp ho).left⟩
  constructor
  case mp =>
    rintro ⟨d', h⟩
    have hw : (replaceOptions p existing options newIds).wlp
        (fun _ _ => Writable existing options) d := by
      refine wp_bind.mpr <| wp_require.mpr ⟨fun _ => wp_bind.mpr ?_, fun _ => trivial⟩
      refine wp_mono (wp_imp hdelete (fun _ => id) fun _ _ => trivial) fun _ d₁ h₁ => ?_
      exact wp_mono (h₁.left.free_of_applyOptions) fun _ _ => h₁.right.mp
    exact wp_run (Q := fun _ _ => Writable existing options) hw h
  case mpr =>
    intro ho
    have hw : (replaceOptions p existing options newIds).wp (fun _ => True) (fun _ => False)
        (fun _ _ => True) d := by
      refine wp_bind.mpr <| wp_require.mpr ⟨fun _ => wp_bind.mpr ?_, fun hne => hne hnamed⟩
      exact wp_mono hdelete fun _ d₁ h₁ => h₁.left.applyOptions_of_free (h₁.right.mpr ho)
    obtain ⟨_, d', h, _⟩ := wp_total hw
    exact ⟨d', h⟩

end Accepted

theorem exists_parameter_colored : ∃ r ∈ colored.assetParameterTypes, r.parameterTypeId = 5 := by
  have ht : colored.assetParameterTypes.rows.any (·.parameterTypeId = 5) := by decide +kernel
  simpa [Table.mem_def] using ht

theorem not_isReferenced_colored {id : Uuid} : ¬IsReferenced id colored := by
  rintro ⟨v, hv, _⟩
  have hrows : colored.assetParameterValues.rows = [] := by decide +kernel
  exact List.not_mem_nil (hrows ▸ Table.mem_def.mp hv)

theorem unused_colored : Unused (8 + ·) 2 colored := by
  have hcases {n : Nat} (hn : n < 2) : n = 0 ∨ n = 1 := by omega
  constructor
  case distinct =>
    intro m hm n hn he
    obtain rfl | rfl := hcases hm <;> obtain rfl | rfl := hcases hn <;> first | rfl | cases he
  case unused =>
    intro n hn
    rw [Table.find?, options_colored]
    obtain rfl | rfl := hcases hn <;> rfl

theorem admissible_repainted : Admissible shades repainted colored where
  named := by simp [shades, repainted]
  new := by simp [shades, repainted]
  referenced _ _ h := absurd h not_isReferenced_colored

theorem replaceOptions_succeeds_iff_repainted :
    let _ := ScanOrder.stored
    (∃ d', (replaceOptions 5 shades repainted (8 + ·)).run colored = .ok ((), d')) ↔
      Writable shades repainted := by
  let _ := ScanOrder.stored
  exact replaceOptions_succeeds_iff fetched_shades exists_parameter_colored rfl
    admissible_repainted unused_colored

-- Red and blue swap their codes.
def swapped : List UpdateAssetParameterOption :=
  [⟨some 6, "blue", "Blue", 0⟩, ⟨some 7, "red", "Red", 1⟩]

theorem swapped_conflicts :
    let _ := ScanOrder.stored
    Fetched 5 colored shades ∧ (∃ r ∈ colored.assetParameterTypes, r.parameterTypeId = 5) ∧
    validateUpdateOptionList swapped = .ok () ∧ Admissible shades swapped colored ∧
    (replaceOptions 5 shades swapped (8 + ·)).run colored =
      .error (.conflict "Asset parameter option code already exists") := by
  let _ := ScanOrder.stored
  refine ⟨fetched_shades, exists_parameter_colored, rfl, ?_, rfl⟩
  constructor
  case named => simp [shades, swapped]
  case new => simp [swapped]
  case referenced => exact fun _ _ h => absurd h not_isReferenced_colored

end AssetParameters

end LabInventory
