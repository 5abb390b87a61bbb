import LabInventory.AssetParameters.Basic
import LabInventory.Assets.Creation
import LabInventory.Users.Theorems

open Sql Program

namespace LabInventory

namespace AssetParameters

variable {d d' : Database} {p q id : Uuid} {w : Write}

def IsOption (parameterId id : Uuid) (d : Database) : Prop :=
  ∃ o ∈ d.assetParameterOptions, o.optionId = id ∧ o.parameterTypeId = parameterId

def HasOption (parameterId : Uuid) (d : Database) : Prop :=
  ∃ id, IsOption parameterId id d

-- Enums have options, and nothing else does. An enum value is one of the options of its parameter.
structure Optioned (d : Database) : Prop where
  enums : ∀ r ∈ d.assetParameterTypes, r.dataType = .enum ↔ HasOption r.parameterTypeId d
  codes : ∀ o₁ ∈ d.assetParameterOptions, ∀ o₂ ∈ d.assetParameterOptions,
    o₁.parameterTypeId = o₂.parameterTypeId → o₁.code = o₂.code → o₁ = o₂
  values : ∀ v ∈ d.assetParameterValues, v.dataType = .enum →
    ∃ id, v.columns.valueOptionId = some id ∧ IsOption v.parameterTypeId id d

-- What the constraints of the tables take care of.
structure Referring (d : Database) : Prop where
  owned : ∀ o ∈ d.assetParameterOptions,
    ∃ r ∈ d.assetParameterTypes, r.parameterTypeId = o.parameterTypeId
  filled : ∀ v ∈ d.assetParameterValues, v.HasValue
  refers : ∀ v ∈ d.assetParameterValues, ∀ id ∈ v.columns.valueOptionId,
    IsOption v.parameterTypeId id d

-- While a request works on the parameter `p`, the other parameters keep their options.
structure OptionedBut (p : Uuid) (d : Database) : Prop extends Referring d where
  others : ∀ r ∈ d.assetParameterTypes, r.parameterTypeId ≠ p →
    (r.dataType = .enum ↔ HasOption r.parameterTypeId d)

theorem codes_distinct {o₁ o₂ : AssetParameterOptionRow} (h₁ : o₁ ∈ d.assetParameterOptions)
    (h₂ : o₂ ∈ d.assetParameterOptions) (ht : o₁.parameterTypeId = o₂.parameterTypeId)
    (hc : o₁.code = o₂.code) : o₁ = o₂ := by
  refine Table.eq_of_clash (.head _) h₁ h₂ ⟨Option.some_ne_none _, ?_⟩
  simp [ht, hc]

theorem Referring.optioned (h : Referring d)
    (he : ∀ r ∈ d.assetParameterTypes, r.dataType = .enum ↔ HasOption r.parameterTypeId d) :
    Optioned d where
  enums := he
  codes _ h₁ _ h₂ := codes_distinct h₁ h₂
  values v hv ht := by
    have hf := h.filled v hv
    simp only [AssetParameterValueRow.HasValue, ht] at hf
    obtain ⟨id, hi⟩ := Option.isSome_iff_exists.mp hf
    exact ⟨id, hi, h.refers v hv id hi⟩

theorem OptionedBut.optioned (h : OptionedBut p d)
    (hp : ∀ r ∈ d.assetParameterTypes, r.parameterTypeId = p → (r.dataType = .enum ↔ HasOption p d)) :
    Optioned d := by
  refine h.toReferring.optioned fun r hr => ?_
  by_cases he : r.parameterTypeId = p
  case pos => exact he ▸ hp r hr he
  case neg => exact h.others r hr he

section Apply

-- The writes that can change which options there are, or who refers to them.
def IsParameterWrite : Write → Prop
  | .assetParameterTypes _ | .assetParameterOptions _ | .assetParameterValues _ => True
  | _ => False

theorem parameters_of_apply (ha : d.apply w = .ok d') (hw : ¬IsParameterWrite w) :
    d'.assetParameterTypes = d.assetParameterTypes ∧
    d'.assetParameterOptions = d.assetParameterOptions ∧
    ∀ v ∈ d'.assetParameterValues, v ∈ d.assetParameterValues := by
  have happ := Database.applied_of_apply ha
  cases w
  case assetParameterTypes | assetParameterOptions | assetParameterValues =>
    exact absurd trivial hw
  case tree kind w => cases kind <;> rw [happ.right] <;> exact ⟨rfl, rfl, fun _ => id⟩
  case assets w =>
    refine ⟨by rw [happ.right], by rw [happ.right], fun v hv => ?_⟩
    simp only [Database.apply, Database.writeAssets, Except.bind_eq_ok] at ha
    obtain ⟨_, _, ha⟩ := ha
    cases w
    case delete =>
      obtain rfl := Except.pure_eq_ok.mp ha
      exact (Table.mem_filter.mp hv).left
    all_goals
      simp only [Except.bind_eq_ok, Except.pure_eq_ok] at ha
      obtain ⟨_, _, rfl⟩ := ha
      exact hv
  all_goals
    rw [happ.right]
    exact ⟨rfl, rfl, fun _ => id⟩

-- The writes of a request that works on the parameter `p`.
def Concerns (p : Uuid) (d : Database) : Write → Prop
  | .assetParameterTypes w => w.key = p
  | .assetParameterOptions (.insert r) => r.parameterTypeId = p
  | .assetParameterOptions (.update r) => r.parameterTypeId = p ∧ IsOption p r.optionId d
  | .assetParameterOptions (.delete id) =>
    ∀ o ∈ d.assetParameterOptions, o.optionId = id → o.parameterTypeId = p
  | _ => True

theorem isOption_insert {r : AssetParameterOptionRow}
    (ha : d.apply (.assetParameterOptions (.insert r)) = .ok d') :
    IsOption q id d' ↔ IsOption q id d ∨ (r.optionId = id ∧ r.parameterTypeId = q) := by
  have hm {o} : o ∈ d'.assetParameterOptions ↔ o ∈ d.assetParameterOptions ∨ o = r :=
    Table.mem_insert (Database.applied_of_apply ha).left
  constructor
  case mp =>
    rintro ⟨o, ho, he⟩
    obtain ho | rfl := hm.mp ho
    · exact .inl ⟨o, ho, he⟩
    · exact .inr he
  case mpr =>
    rintro (⟨o, ho, he⟩ | he)
    · exact ⟨o, hm.mpr <| .inl ho, he⟩
    · exact ⟨r, hm.mpr <| .inr rfl, he⟩

theorem isOption_update {r : AssetParameterOptionRow}
    (ha : d.apply (.assetParameterOptions (.update r)) = .ok d')
    (hr : IsOption r.parameterTypeId r.optionId d) : IsOption q id d' ↔ IsOption q id d := by
  have hm {o} : o ∈ d'.assetParameterOptions ↔
      (o ∈ d.assetParameterOptions ∧ o.optionId ≠ r.optionId) ∨
      (o = r ∧ ∃ o' ∈ d.assetParameterOptions, o'.optionId = r.optionId) :=
    Table.mem_update (Database.applied_of_apply ha).left
  obtain ⟨o₀, ho₀, hi₀, hp₀⟩ := hr
  constructor
  case mp =>
    rintro ⟨o, ho, hi, hq⟩
    obtain ⟨ho, _⟩ | ⟨rfl, _⟩ := hm.mp ho
    · exact ⟨o, ho, hi, hq⟩
    · exact ⟨o₀, ho₀, hi₀.trans hi, hp₀.trans hq⟩
  case mpr =>
    rintro ⟨o, ho, hi, hq⟩
    by_cases he : o.optionId = r.optionId
    case pos =>
      obtain rfl : o = o₀ := Table.eq_of_key_eq ho ho₀ (he.trans hi₀.symm)
      exact ⟨r, hm.mpr <| .inr ⟨rfl, o, ho, he⟩, he ▸ hi, hp₀ ▸ hq⟩
    case neg => exact ⟨o, hm.mpr <| .inl ⟨ho, he⟩, hi, hq⟩

theorem isOption_delete {k : Uuid}
    (ha : d.apply (.assetParameterOptions (.delete k)) = .ok d') :
    IsOption q id d' ↔ IsOption q id d ∧ id ≠ k := by
  obtain hd : d.assetParameterOptions.delete k = d'.assetParameterOptions :=
    Except.ok.inj (Database.applied_of_apply ha).left
  simp only [IsOption, ← hd, Table.mem_delete]
  constructor
  case mp =>
    rintro ⟨o, ⟨ho, hk⟩, rfl, hq⟩
    exact ⟨⟨o, ho, rfl, hq⟩, hk⟩
  case mpr =>
    rintro ⟨⟨o, ho, rfl, hq⟩, hk⟩
    exact ⟨o, ⟨ho, hk⟩, rfl, hq⟩

theorem dependents_of_applyType {w : RowWrite AssetParameterTypeRow Uuid}
    (ha : d.apply (.assetParameterTypes w) = .ok d') (hw : ∀ k, w ≠ .delete k) :
    d'.assetParameterOptions = d.assetParameterOptions ∧
    d'.assetParameterValues = d.assetParameterValues := by
  cases w
  case delete k => exact absurd rfl (hw k)
  all_goals
    simp only [Database.apply, Database.writeAssetParameterTypes, Except.bind_eq_ok,
      Except.pure_eq_ok] at ha
    obtain ⟨_, _, _, _, rfl⟩ := ha
    exact ⟨rfl, rfl⟩

theorem Referring.applyType {w : RowWrite AssetParameterTypeRow Uuid} (h : Referring d)
    (ha : d.apply (.assetParameterTypes w) = .ok d') : Referring d' := by
  have happ := Database.applied_of_apply ha
  cases w
  case delete k =>
    obtain rfl := Except.pure_eq_ok.mp ha
    constructor
    case owned =>
      intro o ho
      have ⟨ho, hk⟩ := Table.mem_filter.mp ho
      obtain ⟨r, hr, he⟩ := h.owned o ho
      exact ⟨r, Table.mem_delete.mpr ⟨hr, fun hd => by simp [← hd, ← he, TableSchema.key] at hk⟩, he⟩
    case filled => exact fun v hv => h.filled v (Table.mem_filter.mp hv).left
    case refers =>
      intro v hv id hi
      have ⟨hv, hk⟩ := Table.mem_filter.mp hv
      obtain ⟨o, ho, he, hp⟩ := h.refers v hv id hi
      exact ⟨o, Table.mem_filter.mpr ⟨ho, hp ▸ hk⟩, he, hp⟩
  all_goals
    have ⟨hoptions, hvalues⟩ := dependents_of_applyType ha nofun
    refine ⟨fun o ho => ?_, hvalues ▸ h.filled, ?_⟩
  case insert.refine_1 =>
    obtain ⟨r, hr, he⟩ := h.owned o (hoptions ▸ ho)
    exact ⟨r, (Table.mem_insert happ.left).mpr <| .inl hr, he⟩
  case update.refine_1 r' =>
    obtain ⟨r, hr, he⟩ := h.owned o (hoptions ▸ ho)
    by_cases hk : r.parameterTypeId = r'.parameterTypeId
    case pos => exact ⟨r', (Table.mem_update happ.left).mpr <| .inr ⟨rfl, r, hr, hk⟩, hk ▸ he⟩
    case neg => exact ⟨r, (Table.mem_update happ.left).mpr <| .inl ⟨hr, hk⟩, he⟩
  all_goals
    simp only [IsOption, hoptions, hvalues]
    exact h.refers

theorem Referring.applyOption {w : RowWrite AssetParameterOptionRow Uuid} (h : Referring d)
    (ha : d.apply (.assetParameterOptions w) = .ok d') (hw : Concerns p d (.assetParameterOptions w)) :
    Referring d' := by
  have hd := (Database.applied_of_apply ha).right
  have htypes : d'.assetParameterTypes = d.assetParameterTypes := by rw [hd]
  have hvalues : d'.assetParameterValues = d.assetParameterValues := by rw [hd]
  constructor
  case owned =>
    rw [htypes]
    intro o ho
    obtain ho' | rfl | rfl := Table.mem_write (Database.applied_of_apply ha).left ho
    · exact h.owned o ho'
    all_goals
      simp only [Database.apply, Database.writeAssetParameterOptions, Except.bind_eq_ok,
        Except.check_eq_ok] at ha
      obtain ⟨_, _, _, hf, _⟩ := ha
      obtain ⟨r, hr⟩ := Option.isSome_iff_exists.mp hf
      exact ⟨r, Table.find?_eq_some.mp hr⟩
  case filled => exact hvalues ▸ h.filled
  case refers =>
    rw [hvalues]
    intro v hv id hi
    have hv' := h.refers v hv id hi
    cases w
    case insert => exact (isOption_insert ha).mpr <| .inl hv'
    case update r => exact (isOption_update ha (hw.left ▸ hw.right)).mpr hv'
    case delete k =>
      refine (isOption_delete ha).mpr ⟨hv', ?_⟩
      simp only [Database.apply, Database.writeAssetParameterOptions, Except.bind_eq_ok,
        Except.check_eq_ok] at ha
      obtain ⟨_, _, _, hr, _⟩ := ha
      rintro rfl
      exact hr <| List.any_eq_true.mpr ⟨v, hv, decide_eq_true hi⟩

-- A new value is filled, and refers to an option of its parameter.
theorem values_of_apply {w : RowWrite AssetParameterValueRow Uuid} {v : AssetParameterValueRow}
    (ha : d.apply (.assetParameterValues w) = .ok d') (hv : v ∈ d'.assetParameterValues) :
    v ∈ d.assetParameterValues ∨
    (v.HasValue ∧ ∀ id ∈ v.columns.valueOptionId, IsOption v.parameterTypeId id d) := by
  obtain hv | rfl | rfl := Table.mem_write (Database.applied_of_apply ha).left hv
  · exact .inl hv
  all_goals
    simp only [Database.apply, Database.writeAssetParameterValues, Except.bind_eq_ok,
      Except.check_eq_ok] at ha
    obtain ⟨_, hf, _, _, t, hw, _, ho, _⟩ := ha
    refine .inr ⟨hf, fun id hi => ?_⟩
    obtain ⟨o, hm, hp⟩ := (Option.any_eq_true _ _).mp <| (Option.all_eq_true _ _).mp ho id hi
    obtain ⟨hm, he⟩ := Table.find?_eq_some.mp hm
    exact ⟨o, hm, he, of_decide_eq_true hp⟩

theorem Referring.applyValue {w : RowWrite AssetParameterValueRow Uuid} (h : Referring d)
    (ha : d.apply (.assetParameterValues w) = .ok d') : Referring d' := by
  have hd := (Database.applied_of_apply ha).right
  have hoptions : d'.assetParameterOptions = d.assetParameterOptions := by rw [hd]
  constructor
  case owned =>
    have htypes : d'.assetParameterTypes = d.assetParameterTypes := by rw [hd]
    exact htypes ▸ hoptions ▸ h.owned
  case filled =>
    intro v hv
    obtain hv | hv := values_of_apply ha hv
    · exact h.filled v hv
    · exact hv.left
  case refers =>
    intro v hv id hi
    simp only [IsOption, hoptions]
    obtain hv | hv := values_of_apply ha hv
    · exact h.refers v hv id hi
    · exact hv.right id hi

theorem Referring.apply (h : Referring d) (ha : d.apply w = .ok d') (hw : Concerns p d w) :
    Referring d' := by
  have happ := Database.applied_of_apply ha
  by_cases hn : IsParameterWrite w
  case neg =>
    have ⟨ht, ho, hv⟩ := parameters_of_apply ha hn
    constructor
    case owned => exact ht ▸ ho ▸ h.owned
    case filled => exact fun v hm => h.filled v (hv v hm)
    case refers =>
      intro v hm id hi
      obtain ⟨o, hm, he⟩ := h.refers v (hv v hm) id hi
      exact ⟨o, ho ▸ hm, he⟩
  case pos =>
    cases w
    case assetParameterTypes w => exact h.applyType ha
    case assetParameterOptions w => exact h.applyOption ha hw
    case assetParameterValues w => exact h.applyValue ha
    all_goals exact hn.elim

theorem hasOption_of_apply (ha : d.apply w = .ok d') (hw : Concerns p d w) (hq : q ≠ p) :
    HasOption q d' ↔ HasOption q d := by
  have happ := Database.applied_of_apply ha
  cases w
  case assetParameterOptions w =>
    cases w
    case insert r =>
      have hr : r.parameterTypeId ≠ q := fun he => hq <| he.symm.trans hw
      simp [HasOption, isOption_insert ha, hr]
    case update r => exact exists_congr fun _ => isOption_update ha (hw.left ▸ hw.right)
    case delete k =>
      refine exists_congr fun id => (isOption_delete ha).trans <| and_iff_left_of_imp ?_
      rintro ⟨o, ho, hi, he⟩ rfl
      exact hq <| he.symm.trans (hw o ho hi)
  case assetParameterTypes w =>
    cases w
    case delete k =>
      obtain rfl := Except.pure_eq_ok.mp ha
      obtain rfl : k = p := hw
      refine exists_congr fun id => exists_congr fun o => ?_
      simp only [Table.mem_filter, decide_eq_true_eq]
      grind
    all_goals
      have hd := dependents_of_applyType ha (by intro k he; cases he)
      simp only [HasOption, IsOption, hd.left]
  case tree kind w =>
    cases kind <;>
    · rw [happ.right]
      rfl
  all_goals
    rw [happ.right]
    rfl

theorem mem_types_of_apply {r : AssetParameterTypeRow} (ha : d.apply w = .ok d')
    (hw : Concerns p d w) (hr : r ∈ d'.assetParameterTypes) (hn : r.parameterTypeId ≠ p) :
    r ∈ d.assetParameterTypes := by
  have happ := Database.applied_of_apply ha
  cases w
  case assetParameterTypes w =>
    obtain hr | rfl | rfl := Table.mem_write happ.left hr
    · exact hr
    all_goals exact absurd hw hn
  case tree kind w => cases kind <;> rw [happ.right] at hr <;> exact hr
  all_goals
    rw [happ.right] at hr
    exact hr

theorem OptionedBut.apply (h : OptionedBut p d) (ha : d.apply w = .ok d') (hw : Concerns p d w) :
    OptionedBut p d' where
  toReferring := h.toReferring.apply ha hw
  others r hr hn :=
    (h.others r (mem_types_of_apply ha hw hr hn) hn).trans (hasOption_of_apply ha hw hn).symm

end Apply

-- The requests write the row of their parameter first.
structure Working (p : Uuid) (types : Table AssetParameterTypeRow) (d : Database) : Prop
    extends OptionedBut p d where
  types : d.assetParameterTypes = types

def Keeps (p : Uuid) (d d' : Database) : Prop :=
  ∀ id, IsOption p id d → IsOption p id d'

theorem Keeps.trans {d₁ d₂ d₃ : Database} (h₁ : Keeps p d₁ d₂) (h₂ : Keeps p d₂ d₃) :
    Keeps p d₁ d₃ :=
  fun id h => h₂ id (h₁ id h)

theorem Keeps.hasOption (h : Keeps p d d') : HasOption p d → HasOption p d' :=
  fun ⟨id, hi⟩ => ⟨id, h id hi⟩

theorem keeps_of_eq (h : d'.assetParameterOptions = d.assetParameterOptions) : Keeps p d d' := by
  intro id hi
  simpa only [IsOption, h] using hi

section Steps

variable {types : Table AssetParameterTypeRow} {err : Constraint → ApiError}

theorem wlp_execOption {w : RowWrite AssetParameterOptionRow Uuid} {Q : Unit → Database → Prop}
    (h : Working p types d) (hw : Concerns p d (.assetParameterOptions w))
    (hq : ∀ d', d.apply (.assetParameterOptions w) = .ok d' → Working p types d' → Q () d') :
    (exec (.assetParameterOptions w) err : Transaction Unit).wlp Q d := by
  refine wp_exec.mpr ⟨fun d' ha => ⟨trivial, hq d' ha ⟨h.toOptionedBut.apply ha hw, ?_⟩⟩, ?_⟩
  case refine_1 => rw [(Database.applied_of_apply ha).right, h.types]
  case refine_2 => exact fun _ _ => trivial

theorem wlp_execValue {w : RowWrite AssetParameterValueRow Uuid} (h : Working p types d) :
    (exec (.assetParameterValues w) err : Transaction Unit).wlp
      (fun _ d' => Working p types d' ∧ Keeps p d d') d := by
  refine wp_exec.mpr ⟨fun d' ha => ⟨trivial, ⟨h.toOptionedBut.apply ha trivial, ?_⟩, ?_⟩, ?_⟩
  case refine_1 => rw [(Database.applied_of_apply ha).right, h.types]
  case refine_2 => exact keeps_of_eq (by rw [(Database.applied_of_apply ha).right])
  case refine_3 => exact fun _ _ => trivial

theorem wlp_insertOption {r : AssetParameterOptionRow} (h : Working p types d)
    (hr : r.parameterTypeId = p) :
    (exec (.assetParameterOptions (.insert r)) err : Transaction Unit).wlp
      (fun _ d' => Working p types d' ∧ Keeps p d d' ∧ HasOption p d') d := by
  refine wlp_execOption h hr fun d' ha h' => ⟨h', fun id hi => ?_, r.optionId, ?_⟩
  case refine_1 => exact (isOption_insert ha).mpr <| .inl hi
  case refine_2 => exact (isOption_insert ha).mpr <| .inr ⟨rfl, hr⟩

theorem wlp_insertOption_bound {r : AssetParameterOptionRow} {texts : List String} (h : Working p types d)
    (hr : r.parameterTypeId = p) :
    (Transaction.bindTexts texts >>= fun _ => exec (.assetParameterOptions (.insert r)) err).wlp
      (fun _ d' => Working p types d' ∧ Keeps p d d' ∧ HasOption p d') d :=
  wp_bind.mpr <| Transaction.wp_bindTexts.mpr ⟨fun _ => wlp_insertOption h hr, fun _ => trivial⟩

theorem wlp_insertNewOptions {newIds : NewIds} {options : List NewAssetParameterOption}
    (h : Working p types d) : (insertNewOptions p newIds options).wlp
      (fun _ d' => Working p types d' ∧ (HasOption p d' ↔ HasOption p d ∨ options ≠ [])) d := by
  induction options generalizing d newIds
  case nil => exact ⟨h, by simp⟩
  case cons option options ih =>
    refine wp_bind.mpr <| wp_mono (wlp_insertOption_bound h rfl) fun _ d₁ h₁ => ?_
    refine wp_mono (ih h₁.left) fun _ d₂ h₂ => ⟨h₂.left, ?_⟩
    simp [h₂.right, h₁.right.right]

theorem wlp_updateOption {option : UpdateAssetParameterOption} (h : Working p types d)
    (hi : IsOption p id d) : (updateAssetParameterOption id option).wlp
      (fun _ d' => Working p types d' ∧ Keeps p d d' ∧ HasOption p d') d := by
  obtain ⟨r, hr, hi, hp⟩ := hi
  have hf : d.assetParameterOptions.find? id = some r := Table.find?_eq_some.mpr ⟨hr, hi⟩
  simp only [updateAssetParameterOption, wp_bind, Transaction.wp_bindTexts, wp_selectForUpdate, hf]
  refine ⟨fun _ => ?_, fun _ => trivial⟩
  have ho : IsOption p r.optionId d := ⟨r, hr, rfl, hp⟩
  refine wlp_execOption h ⟨hp, ho⟩ fun d' ha h' => ⟨h', fun id hi => ?_, r.optionId, ?_⟩
  case refine_1 => exact (isOption_update ha (hp.symm ▸ ho)).mpr hi
  case refine_2 => exact (isOption_update ha (hp.symm ▸ ho)).mpr ho

theorem wlp_applyOptions {newIds : NewIds} {existing : List AssetParameterOptionRow}
    {options : List UpdateAssetParameterOption} (h : Working p types d)
    (hm : ∀ option ∈ options, ∀ id ∈ matchOption existing option, IsOption p id d) :
    (applyOptions p existing newIds options).wlp (fun _ d' => Working p types d' ∧ Keeps p d d' ∧
      (options ≠ [] → HasOption p d')) d := by
  induction options generalizing d newIds
  case nil => exact ⟨h, fun _ => id, fun hn => absurd rfl hn⟩
  case cons option options ih =>
    have hrest {d₁} (h₁ : Working p types d₁ ∧ Keeps p d d₁ ∧ HasOption p d₁) :
        (applyOptions p existing (newIds <| · + 1) options).wlp (fun _ d' =>
          Working p types d' ∧ Keeps p d d' ∧ (option :: options ≠ [] → HasOption p d')) d₁ := by
      have hm₁ : ∀ option ∈ options, ∀ id ∈ matchOption existing option, IsOption p id d₁ :=
        fun o ho id hi => h₁.right.left id (hm o (.tail _ ho) id hi)
      refine wp_mono (ih h₁.left hm₁) fun _ d₂ h₂ => ⟨h₂.left, h₁.right.left.trans h₂.right.left, ?_⟩
      exact fun _ => h₂.right.left.hasOption h₁.right.right
    unfold applyOptions
    split
    case h_1 id hi =>
      exact wp_bind.mpr <| wp_mono (wlp_updateOption h (hm _ (.head _) id hi)) fun _ _ => hrest
    case h_2 => exact wp_bind.mpr <| wp_mono (wlp_insertOption_bound h rfl) fun _ _ => hrest

variable [ScanOrder]

theorem wlp_deleteOptions {isDeleted : AssetParameterOptionRow → Bool} (h : Working p types d)
    (hp : ∀ o, isDeleted o → o.parameterTypeId = p) : (deleteOptions isDeleted).wlp (fun _ d' =>
      Working p types d' ∧ ∀ o, o ∈ d'.assetParameterOptions ↔
        o ∈ d.assetParameterOptions ∧ ¬isDeleted o) d := by
  let J (rows : List AssetParameterOptionRow) (d' : Database) : Prop := Working p types d' ∧
    (∀ o ∈ rows, o ∈ d.assetParameterOptions ∧ isDeleted o) ∧
    (∀ o ∈ d'.assetParameterOptions, o ∈ d.assetParameterOptions ∧ (isDeleted o → o ∈ rows)) ∧
    ∀ o ∈ d.assetParameterOptions, ¬isDeleted o → o ∈ d'.assetParameterOptions
  refine wp_mono (wp_forRows J ⟨h, fun o ho => ?_, fun o ho => ⟨ho, fun hd => ?_⟩, fun o ho _ => ho⟩
    fun r rows d' hj => ?_) fun _ d' hj => ⟨hj.left, fun o => ⟨fun ho => ?_, fun ho => ?_⟩⟩
  case refine_1 => exact List.mem_filter.mp <| ScanOrder.mem_visit.mp ho
  case refine_2 => exact ScanOrder.mem_visit.mpr <| List.mem_filter.mpr ⟨ho, hd⟩
  case refine_3 =>
    obtain ⟨hw, hr, hold, hkept⟩ := hj
    have ⟨hm, hd⟩ := hr r (.head _)
    have heq {o} (ho : o ∈ d.assetParameterOptions) (hk : o.optionId = r.optionId) : o = r :=
      Table.eq_of_key_eq ho hm hk
    refine wlp_execOption hw (fun o ho hk => ?_) fun d'' ha hw'' => ?_
    case refine_1 => exact heq (hold o ho).left hk ▸ hp r hd
    case refine_2 =>
      have he := Except.ok.inj (Database.applied_of_apply ha).left
      refine ⟨hw'', fun o ho => hr o (.tail _ ho), fun o ho => ?_, fun o ho hn => ?_⟩
      case refine_1 =>
        have ⟨ho, hk⟩ := Table.mem_delete.mp (he ▸ ho)
        refine ⟨(hold o ho).left, fun hd => (List.mem_cons.mp <| (hold o ho).right hd).resolve_left ?_⟩
        rintro rfl
        exact hk rfl
      case refine_2 =>
        refine he ▸ Table.mem_delete.mpr ⟨hkept o ho hn, fun hk => hn ?_⟩
        exact heq ho hk ▸ hd
  case refine_4 =>
    have ⟨ho, hn⟩ := hj.right.right.left o ho
    exact ⟨ho, fun hd => List.not_mem_nil (hn hd)⟩
  case refine_5 => exact hj.right.right.right o ho.left ho.right

theorem wlp_deleteAssetParameterOptions (h : Working p types d) :
    (deleteAssetParameterOptions p).wlp (fun _ d' => Working p types d' ∧ ¬HasOption p d') d := by
  refine wp_mono (wlp_deleteOptions h fun o ho => of_decide_eq_true ho) fun _ d' h' => ⟨h'.left, ?_⟩
  rintro ⟨id, o, ho, _, hp⟩
  exact ((h'.right o).mp ho).right (decide_eq_true hp)

-- The options of the parameter, as they have been fetched.
def Fetched (p : Uuid) (d : Database) (existing : List AssetParameterOptionRow) : Prop :=
  ∀ o, o ∈ existing ↔ o ∈ d.assetParameterOptions ∧ o.parameterTypeId = p

theorem wlp_replaceOptions {newIds : NewIds} {existing : List AssetParameterOptionRow}
    {options : List UpdateAssetParameterOption} (h : Working p types d) (he : Fetched p d existing) :
    (replaceOptions p existing options newIds).wlp (fun _ d' =>
      Working p types d' ∧ (options ≠ [] → HasOption p d')) d := by
  simp only [replaceOptions, wp_bind, wp_require]
  refine ⟨fun hids => ?_, fun _ => trivial⟩
  have hp : ∀ o : AssetParameterOptionRow, decide (o.parameterTypeId = p ∧
      o.optionId ∉ options.filterMap (matchOption existing)) → o.parameterTypeId = p :=
    fun o ho => (of_decide_eq_true ho).left
  refine wp_mono (wlp_deleteOptions h hp) fun _ d₁ h₁ => ?_
  refine wp_mono (wlp_applyOptions h₁.left fun option ho id hi => ?_) fun _ d₂ h₂ =>
    ⟨h₂.left, h₂.right.right⟩
  -- What an option is matched to has been kept.
  have hex : ∃ r ∈ existing, r.optionId = id := by
    unfold matchOption at hi
    cases hid : option.optionId
    case none =>
      rw [hid] at hi
      obtain ⟨r, hr, hi⟩ := Option.map_eq_some_iff.mp hi
      exact ⟨r, List.mem_of_find?_eq_some hr, hi⟩
    case some id' =>
      obtain rfl : id' = id := by simpa [hid] using hi
      simpa [hid] using List.all_eq_true.mp hids option ho
  obtain ⟨r, hr, rfl⟩ := hex
  obtain ⟨hr, hp⟩ := (he r).mp hr
  refine ⟨r, (h₁.right r).mpr ⟨hr, ?_⟩, rfl, hp⟩
  simp only [decide_eq_true_eq, not_and, not_not]
  exact fun _ => List.mem_filterMap.mpr ⟨option, ho, hi⟩

theorem wlp_applyOptionUpdates {newIds : NewIds} {existing : List AssetParameterOptionRow}
    {updateOptions : Option (List UpdateAssetParameterOption)} {dataType : AssetParameterDataType}
    (h : Working p types d) (he : dataType = .enum → Fetched p d existing) :
    (applyOptionUpdates p dataType existing updateOptions newIds).wlp (fun _ d' =>
      Working p types d' ∧ (dataType ≠ .enum → ¬HasOption p d') ∧ (dataType = .enum →
        updateOptions.any (· ≠ []) ∨ (updateOptions = none ∧ HasOption p d) → HasOption p d')) d := by
  unfold applyOptionUpdates
  split
  case isTrue hd =>
    split
    case h_1 options =>
      refine wp_mono (wlp_replaceOptions h (he hd)) fun _ d' h' => ?_
      refine ⟨h'.left, absurd hd, fun _ ho => ?_⟩
      refine h'.right ?_
      simpa using ho
    case h_2 => exact ⟨h, absurd hd, fun _ ho => by simpa using ho⟩
  case isFalse hd =>
    refine wp_mono (wlp_deleteAssetParameterOptions h) fun _ d' h' => ?_
    exact ⟨h'.left, fun _ => h'.right, fun he => absurd he hd⟩

variable [TextFormats] [UnicodeSegmentation] {definition : ParameterValueDefinition}

omit [ScanOrder] in
theorem wlp_resolveMigrationTarget {dataType : AssetParameterDataType} {value : Json}
    {newId : Uuid} (h : Working p types d) : (resolveMigrationTarget p dataType value newId).wlp
      (fun _ d' => Working p types d' ∧ Keeps p d d') d := by
  have hd : Working p types d ∧ Keeps p d d := ⟨h, fun _ => id⟩
  unfold resolveMigrationTarget
  split
  case isTrue => exact hd
  case isFalse =>
    split
    case h_2 => trivial
    case h_1 code _ =>
      simp only [wp_bind, fetchAssetParameterOptionIdByCode, wp_read]
      split
      case h_1 => exact hd
      case h_2 =>
        split
        case h_2 => trivial
        case h_1 label _ =>
          simp only [wp_bind, Transaction.wp_validated]
          refine ⟨fun code _ => ⟨fun label _ => ?_, fun _ _ => trivial⟩, fun _ _ => trivial⟩
          refine wp_bind.mpr <| Transaction.wp_bindTexts.mpr ⟨fun _ => ?_, fun _ => trivial⟩
          refine wp_bind.mpr <| wp_mono (wlp_insertOption h rfl) fun _ d' h' => ?_
          exact ⟨h'.left, h'.right.left⟩

-- An enum value is one of the options.
omit [ScanOrder] [TextFormats] [UnicodeSegmentation] in
theorem hasOption_of_resolves {v : AssetParameterValue} {columns : ParameterValueColumns}
    (h : ParameterValues.Resolves definition d v columns) (hd : v.dataType = .enum) :
    HasOption definition.parameterTypeId d := by
  cases v
  case enum optionId =>
    obtain ⟨⟨o, ho, hp⟩, _⟩ := h
    exact ⟨optionId, o, (Table.find?_eq_some.mp ho).left, (Table.find?_eq_some.mp ho).right, hp⟩
  all_goals cases hd

omit [ScanOrder] in
theorem wlp_migrateParameterValue {migrations : List UpdateAssetParameterValueMigration}
    {newId : Uuid} {value : AssetParameterValueRow} (h : Working definition.parameterTypeId types d) :
    (migrateParameterValue definition migrations newId value).wlp (fun _ d' =>
      Working definition.parameterTypeId types d' ∧ Keeps definition.parameterTypeId d d' ∧
      (definition.dataType = .enum →
        (∃ m, migrations.find? (·.valueId = value.valueId) = some m ∧ m.value.isSome) →
        HasOption definition.parameterTypeId d')) d := by
  unfold migrateParameterValue
  split
  case h_2 => trivial
  case h_1 m hm =>
    split
    case h_2 hv =>
      refine wp_mono (wlp_execValue h) fun _ d' h' => ⟨h'.left, h'.right, fun _ he => ?_⟩
      obtain ⟨m', hm', hs⟩ := he
      obtain rfl := Option.some.inj <| hm.symm.trans hm'
      simp [hv] at hs
    case h_1 target _ =>
      refine wp_bind.mpr <| wp_mono (wlp_resolveMigrationTarget h) fun target d₁ h₁ => ?_
      refine wp_bind.mpr <| ParameterValues.wlp_resolveParameterValue fun v columns hv hr => ?_
      have ho (he : definition.dataType = .enum) : HasOption definition.parameterTypeId d₁ :=
        hasOption_of_resolves hr <| (AssetParameterValue.dataType_of_parse hv).trans he
      simp only [migrateAssetParameterValueInDatabase, wp_bind, wp_read]
      split
      case h_2 => exact ⟨h₁.left, h₁.right, fun he _ => ho he⟩
      case h_1 =>
        refine wp_mono (wlp_execValue h₁.left) fun _ d₂ h₂ => ?_
        exact ⟨h₂.left, h₁.right.trans h₂.right, fun he _ => h₂.right.hasOption (ho he)⟩

omit [ScanOrder] in
theorem wlp_migrateParameterValues {migrations : List UpdateAssetParameterValueMigration}
    {newIds : NewIds} {values : List AssetParameterValueRow}
    (h : Working definition.parameterTypeId types d) :
    (migrateParameterValues definition migrations newIds values).wlp (fun _ d' =>
      Working definition.parameterTypeId types d' ∧ Keeps definition.parameterTypeId d d' ∧
      (definition.dataType = .enum → (∃ v ∈ values,
        ∃ m, migrations.find? (·.valueId = v.valueId) = some m ∧ m.value.isSome) →
        HasOption definition.parameterTypeId d')) d := by
  induction values generalizing d newIds
  case nil =>
    refine ⟨h, fun _ => id, fun _ hm => ?_⟩
    obtain ⟨v, hv, _⟩ := hm
    exact absurd hv List.not_mem_nil
  case cons value values ih =>
    refine wp_bind.mpr <| wp_mono (wlp_migrateParameterValue h) fun _ d₁ h₁ => ?_
    refine wp_mono (ih h₁.left) fun _ d₂ h₂ => ?_
    refine ⟨h₂.left, h₁.right.left.trans h₂.right.left, fun he hm => ?_⟩
    obtain ⟨v, hv, hm⟩ := hm
    obtain rfl | hv := List.mem_cons.mp hv
    · exact h₂.right.left.hasOption <| h₁.right.right he hm
    · exact h₂.right.right he ⟨v, hv, hm⟩

end Steps

section Migrations

theorem validateUniqueMigrations_eq_ok {known seen : List Uuid}
    {migrations : List UpdateAssetParameterValueMigration}
    (h : validateUniqueMigrations known seen migrations = .ok ()) :
    (migrations.map (·.valueId)).Nodup ∧ ∀ m ∈ migrations, m.valueId ∉ seen ∧ m.valueId ∈ known := by
  induction migrations generalizing seen
  case nil => exact ⟨.nil, fun _ hm => absurd hm List.not_mem_nil⟩
  case cons m ms ih =>
    simp only [validateUniqueMigrations, Except.bind_eq_ok, Except.check_eq_ok] at h
    obtain ⟨_, hs, _, hk, h⟩ := h
    obtain ⟨hn, hm⟩ := ih h
    refine ⟨List.nodup_cons.mpr ⟨fun hc => ?_, hn⟩, fun m' hm' => ?_⟩
    case refine_1 =>
      obtain ⟨m', hm', he⟩ := List.mem_map.mp hc
      exact (hm m' hm').left <| he ▸ .head _
    case refine_2 =>
      obtain rfl | hm' := List.mem_cons.mp hm'
      · exact ⟨by simpa using hs, by simpa using hk⟩
      · exact ⟨fun hc => (hm m' hm').left <| .tail _ hc, (hm m' hm').right⟩

-- A migration is made for one of the values, and for none else.
theorem find?_migration {values : List AssetParameterValueRow}
    {migrations : List UpdateAssetParameterValueMigration} {m : UpdateAssetParameterValueMigration}
    (h : validateValueMigrations values (some migrations) = .ok ()) (hm : m ∈ migrations) :
    ∃ v ∈ values, migrations.find? (·.valueId = v.valueId) = some m := by
  obtain ⟨_, h, _⟩ := Except.bind_eq_ok.mp h
  have ⟨hn, hk⟩ := validateUniqueMigrations_eq_ok h
  obtain ⟨v, hv, he⟩ := List.mem_map.mp (hk m hm).right
  refine ⟨v, hv, ?_⟩
  cases hf : migrations.find? (·.valueId = v.valueId)
  case none => simpa [he] using List.find?_eq_none.mp hf m hm
  case some m' =>
    have hm' := List.mem_of_find?_eq_some hf
    have he' : m'.valueId = v.valueId := by simpa using List.find?_some hf
    rw [List.inj_on_of_nodup_map hn hm' hm (he'.trans he)]

theorem exists_migration {values : List AssetParameterValueRow}
    {migrations : Option (List UpdateAssetParameterValueMigration)}
    (h : validateValueMigrations values migrations = .ok ()) (hd : migrationsDeclareOptions migrations) :
    ∃ v ∈ values, ∃ m, (migrations.getD []).find? (·.valueId = v.valueId) = some m ∧
      m.value.isSome := by
  obtain ⟨m, hm, hc⟩ := List.any_eq_true.mp hd
  cases migrations
  case none => exact absurd hm List.not_mem_nil
  case some migrations =>
    obtain ⟨v, hv, hf⟩ := find?_migration h hm
    obtain ⟨code, hc, _⟩ := (Option.any_eq_true _ _).mp hc
    obtain ⟨value, hs, _⟩ := Option.bind_eq_some_iff.mp hc
    exact ⟨v, hv, m, hf, Option.isSome_iff_exists.mpr ⟨value, hs⟩⟩

end Migrations

section Requests

theorem Optioned.optionedBut (h : Optioned d) (hr : Referring d) : OptionedBut p d :=
  { hr with others := fun r hm _ => h.enums r hm }

-- The outcome of a request, if it is carried out.
def Settles (program : Transaction Unit) (d : Database) : Prop :=
  program.wlp (fun _ d' => Referring d' ∧ Optioned d') d

theorem OptionedBut.settled {r : AssetParameterTypeRow} (h : OptionedBut r.parameterTypeId d)
    (hr : r ∈ d.assetParameterTypes) (he : r.dataType = .enum ↔ HasOption r.parameterTypeId d) :
    Referring d ∧ Optioned d := by
  refine ⟨h.toReferring, h.optioned fun r' hr' hp => ?_⟩
  obtain rfl : r' = r := Table.eq_of_key_eq hr' hr hp
  exact he

-- A parameter that has just been written is there, and nothing else about options has changed.
theorem wlp_insertAssetParameter {r : AssetParameterTypeRow} {Q : Unit → Database → Prop}
    (hr : Referring d) (h : Optioned d) (hq : ∀ d', Working r.parameterTypeId d'.assetParameterTypes d' →
      r ∈ d'.assetParameterTypes → ¬HasOption r.parameterTypeId d' → Q () d') :
    (insertAssetParameter r).wlp Q d := by
  refine wp_exec.mpr ⟨fun d' ha => ⟨trivial, ?_⟩, fun _ _ => trivial⟩
  have hw : Concerns r.parameterTypeId d (.assetParameterTypes (.insert r)) := rfl
  have hi := (Database.applied_of_apply ha).left
  refine hq d' ⟨(h.optionedBut hr).apply ha hw, rfl⟩ ((Table.mem_insert hi).mpr <| .inr rfl) ?_
  rintro ⟨id, o, ho, _, hp⟩
  rw [(dependents_of_applyType ha nofun).left] at ho
  obtain ⟨r', hr', he⟩ := hr.owned o ho
  exact (Table.insert_eq_ok.mp hi).left r' hr' (he.trans hp)

theorem wlp_updateAssetParameterInDatabase {r existing : AssetParameterTypeRow}
    {Q : Unit → Database → Prop} (hr : Referring d) (h : Optioned d)
    (he : existing ∈ d.assetParameterTypes) (hk : r.parameterTypeId = existing.parameterTypeId)
    (hq : ∀ d', Working r.parameterTypeId d'.assetParameterTypes d' → r ∈ d'.assetParameterTypes →
      d'.assetParameterOptions = d.assetParameterOptions → Q () d') :
    (updateAssetParameterInDatabase r).wlp Q d := by
  refine wp_exec.mpr ⟨fun d' ha => ⟨trivial, ?_⟩, fun _ _ => trivial⟩
  have hw : Concerns r.parameterTypeId d (.assetParameterTypes (.update r)) := rfl
  have hu := (Database.applied_of_apply ha).left
  refine hq d' ⟨(h.optionedBut hr).apply ha hw, rfl⟩ ?_ (dependents_of_applyType ha nofun).left
  exact (Table.mem_update hu).mpr <| .inr ⟨rfl, existing, he, hk.symm⟩

variable {ctx : LaboratoryContext}

theorem settles_createAssetParameter [UnicodeSegmentation] {payload newId newOptionIds}
    (hr : Referring d) (h : Optioned d) :
    Settles (createAssetParameter ctx payload newId newOptionIds) d := by
  refine wp_readOnly_bind readOnly_read fun _ => wp_readOnly_bind readOnly_require fun _ => ?_
  refine wp_readOnly_bind readOnly_ofExcept fun new => wp_bind.mpr <| wp_ofExcept.mpr
    ⟨fun _ hv => ?_, fun _ _ => trivial⟩
  refine wp_readOnly_bind normalizeUnitConfiguration_readOnly fun unitDimension => ?_
  refine wp_bind.mpr <| wlp_insertAssetParameter hr h fun d₁ h₁ hm hn => ?_
  refine wp_mono (wlp_insertNewOptions h₁) fun _ d₂ h₂ => ?_
  refine h₂.left.toOptionedBut.settled (h₂.left.types.symm ▸ hm) ?_
  rw [h₂.right]
  simp only [validateNewOptions, Except.bind_eq_ok, Except.check_eq_ok] at hv
  obtain ⟨_, hother, _, henum, _⟩ := hv
  exact ⟨fun he => .inr (henum he), fun ho => by
    by_contra he
    exact ho.elim hn fun hne => hne (hother he)⟩

-- Either options come with the request or have been there, or a migration has to name one.
theorem options_of_validateOptions {update : UpdateAssetParameter} {existing : AssetParameterTypeRow}
    {existingOptions : List AssetParameterOptionRow}
    (h : validateOptions update existing existingOptions = .ok ())
    (he : update.dataType.getD existing.dataType = .enum) :
    update.options.any (· ≠ []) ∨
    (existing.dataType = .enum ∧ update.options = none ∧ existingOptions ≠ []) ∨
    (existing.dataType ≠ .enum ∧ migrationsDeclareOptions update.valueMigrations) := by
  have hupdated (h : validateUpdatedOptions .enum update.options existingOptions = .ok ()) :
      update.options.any (· ≠ []) ∨ (update.options = none ∧ existingOptions ≠ []) := by
    simp only [validateUpdatedOptions, ne_eq, not_true_eq_false, if_false] at h
    split at h
    case h_1 options ho =>
      obtain ⟨_, hn, _⟩ := Except.bind_eq_ok.mp h
      exact .inl (by simpa [ho] using Except.check_eq_ok.mp hn)
    case h_2 ho => exact .inr ⟨ho, Except.check_eq_ok.mp h⟩
  simp only [validateOptions, he] at h
  by_cases hx : existing.dataType = .enum
  case pos =>
    rw [if_neg (by simp [hx])] at h
    exact (hupdated h).imp_right fun h => .inl ⟨hx, h⟩
  case neg =>
    rw [if_pos ⟨Ne.symm hx, trivial⟩, validateEnumOptionsForTypeChange] at h
    split at h
    case isTrue ho => exact .inl ho
    case isFalse => exact .inr <| .inr ⟨hx, Except.check_eq_ok.mp h⟩

variable [ScanOrder] [TextFormats] [UnicodeSegmentation]

theorem wlp_updateOptionsAndValues {update : UpdateAssetParameter}
    {existing updated : AssetParameterTypeRow} {existingOptions existingValues newIds newMigratedIds}
    (h : Working updated.parameterTypeId d.assetParameterTypes d)
    (hf : Fetched updated.parameterTypeId d existingOptions)
    (hd : updated.dataType = update.dataType.getD existing.dataType)
    (ho : validateOptions update existing existingOptions = .ok ())
    (hm : updated.dataType ≠ existing.dataType →
      validateValueMigrations existingValues update.valueMigrations = .ok ()) :
    (updateOptionsAndValues update existing updated existingOptions existingValues newIds
      newMigratedIds).wlp (fun _ d' => Working updated.parameterTypeId d.assetParameterTypes d' ∧
        (updated.dataType = .enum ↔ HasOption updated.parameterTypeId d')) d := by
  have hex (hn : existingOptions ≠ []) : HasOption updated.parameterTypeId d := by
    obtain ⟨o, ho⟩ := List.exists_mem_of_ne_nil _ hn
    have ⟨ho, hp⟩ := (hf o).mp ho
    exact ⟨o.optionId, o, ho, rfl, hp⟩
  unfold updateOptionsAndValues
  split
  case isTrue hs =>
    refine wp_mono (wlp_applyOptionUpdates h fun _ => hf) fun _ d' h' => ⟨h'.left, ?_⟩
    constructor
    case mp =>
      intro he
      refine h'.right.right he ?_
      obtain ho | ⟨_, hnone, hn⟩ | ⟨hx, _⟩ := options_of_validateOptions ho (hd ▸ he)
      · exact .inl ho
      · exact .inr ⟨hnone, hex hn⟩
      · exact absurd (hs ▸ he) hx
    case mpr =>
      intro hp
      by_contra hn
      exact h'.right.left hn hp
  case isFalse hs =>
    split
    case isTrue he =>
      refine wp_bind.mpr <| wp_mono (wlp_applyOptionUpdates h fun _ => hf) fun _ d₁ h₁ => ?_
      refine wp_mono (wlp_migrateParameterValues h₁.left) fun _ d₂ h₂ => ?_
      refine ⟨h₂.left, iff_of_true he ?_⟩
      obtain ho | ⟨hx, _⟩ | ⟨_, hdecl⟩ := options_of_validateOptions ho (hd ▸ he)
      · exact h₂.right.left.hasOption <| h₁.right.right he <| .inl ho
      · exact absurd (he.trans hx.symm) hs
      · exact h₂.right.right he <| exists_migration (hm hs) hdecl
    case isFalse hn =>
      refine wp_bind.mpr <| wp_mono (wlp_migrateParameterValues h) fun _ d₁ h₁ => ?_
      refine wp_mono (wlp_applyOptionUpdates h₁.left fun he => absurd he hn) fun _ d₂ h₂ => ?_
      exact ⟨h₂.left, iff_of_false hn (h₂.right.left hn)⟩

-- The values of the parameter, as they have been fetched.
def FetchedValues (p : Uuid) (d : Database) (values : List AssetParameterValueRow) : Prop :=
  ∀ r, r ∈ values ↔ r ∈ d.assetParameterValues ∧ r.parameterTypeId = p

omit [UnicodeSegmentation] [TextFormats] in
theorem wlp_fetchAssetParameterValuesForUpdate {Q : List AssetParameterValueRow → Database → Prop}
    (hq : ∀ values, FetchedValues p d values → Q values d) :
    (fetchAssetParameterValuesForUpdate p).wlp Q d := by
  refine wp_selectAllForUpdate.mpr <| hq _ fun r => ?_
  simp only [List.mem_filterMap, ScanOrder.mem_visit, valuesOf, List.mem_filter]
  constructor
  case mp =>
    rintro ⟨_, _, hr⟩
    obtain ⟨hr, hp⟩ := Option.filter_eq_some_iff.mp hr
    exact ⟨(Table.find?_eq_some.mp hr).left, of_decide_eq_true hp⟩
  case mpr =>
    rintro ⟨hr, hp⟩
    exact ⟨r, ⟨hr, decide_eq_true hp⟩, Option.filter_eq_some_iff.mpr
      ⟨Table.find?_eq_some.mpr ⟨hr, rfl⟩, decide_eq_true hp⟩⟩

omit [UnicodeSegmentation] [TextFormats] in
theorem wlp_fetchMigratedValues {update : UpdateAssetParameter} {dataTypeChanged : Bool}
    {Q : List AssetParameterValueRow → Database → Prop}
    (hq : ∀ values, (dataTypeChanged → FetchedValues p d values ∧
      validateValueMigrations values update.valueMigrations = .ok ()) →
      (¬dataTypeChanged → values = []) → Q values d) :
    (fetchMigratedValues update p dataTypeChanged).wlp Q d := by
  unfold fetchMigratedValues
  split
  case isTrue hc =>
    refine wp_bind.mpr <| wlp_fetchAssetParameterValuesForUpdate fun values hf => ?_
    refine wp_bind.mpr <| wp_ofExcept.mpr ⟨fun _ hv => ?_, fun _ _ => trivial⟩
    exact hq values (fun _ => ⟨hf, hv⟩) fun hn => absurd hc hn
  case isFalse hc =>
    refine wp_bind.mpr <| wp_require.mpr ⟨fun _ => ?_, fun _ => trivial⟩
    exact hq [] (fun h => absurd h hc) fun _ => rfl

omit [TextFormats] [UnicodeSegmentation] in
theorem wlp_fetchAssetParameterOptionsForUpdate {Q : List AssetParameterOptionRow → Database → Prop}
    (hq : ∀ existing, Fetched p d existing → Q existing d) :
    (fetchAssetParameterOptionsForUpdate p).wlp Q d := by
  refine wp_selectAllForUpdate.mpr <| hq _ fun o => ?_
  simp only [List.mem_filterMap, ScanOrder.mem_visit, optionsOf, List.mem_filter]
  constructor
  case mp =>
    rintro ⟨r, _, hr⟩
    obtain ⟨hr, hp⟩ := Option.filter_eq_some_iff.mp hr
    exact ⟨(Table.find?_eq_some.mp hr).left, of_decide_eq_true hp⟩
  case mpr =>
    rintro ⟨ho, hp⟩
    exact ⟨o, ⟨ho, decide_eq_true hp⟩, Option.filter_eq_some_iff.mpr
      ⟨Table.find?_eq_some.mpr ⟨ho, rfl⟩, decide_eq_true hp⟩⟩

omit [ScanOrder] [TextFormats] [UnicodeSegmentation] in
theorem wlp_updateParameterRow {update : UpdateAssetParameter} {existing : AssetParameterTypeRow}
    {Q : AssetParameterTypeRow → Database → Prop} (hr : Referring d) (h : Optioned d)
    (he : existing ∈ d.assetParameterTypes)
    (hq : ∀ updated d', updated.parameterTypeId = existing.parameterTypeId →
      updated.dataType = update.dataType.getD existing.dataType →
      Working updated.parameterTypeId d'.assetParameterTypes d' → updated ∈ d'.assetParameterTypes →
      d'.assetParameterOptions = d.assetParameterOptions → Q updated d') :
    (updateParameterRow update existing).wlp Q d := by
  refine wp_readOnly_bind readOnly_ofExcept fun _ => ?_
  refine wp_readOnly_bind normalizeUnitConfiguration_readOnly fun unitDimension => wp_bind.mpr ?_
  exact wlp_updateAssetParameterInDatabase hr h he rfl fun d' hw hm ho => hq _ d' rfl rfl hw hm ho

theorem settles_updateAssetParameter {payload newIds newMigratedIds} (hr : Referring d)
    (h : Optioned d) : Settles (updateAssetParameter ctx p payload newIds newMigratedIds) d := by
  refine wp_readOnly_bind readOnly_read fun _ => wp_readOnly_bind readOnly_require fun _ => ?_
  refine wp_readOnly_bind readOnly_ofExcept fun update => wp_bind.mpr <| wp_selectForUpdate.mpr ?_
  cases hf : d.assetParameterTypes.find? p
  case none => trivial
  case some existing =>
    have ⟨hx, _⟩ := Table.find?_eq_some.mp hf
    refine wp_bind.mpr <| wlp_fetchAssetParameterOptionsForUpdate fun existingOptions hopts => ?_
    refine wp_bind.mpr <| wp_ofExcept.mpr ⟨fun _ hv => ?_, fun _ _ => trivial⟩
    refine wp_bind.mpr <| wlp_fetchMigratedValues fun existingValues hvals _ => ?_
    refine wp_bind.mpr <| wlp_updateParameterRow hr h hx fun updated d₁ hp hd hw hm ho => ?_
    refine wp_mono (wlp_updateOptionsAndValues hw ?_ hd hv fun hn => (hvals ?_).right) fun _ d₂ h₂ => ?_
    case refine_1 => simpa only [Fetched, ho, hp] using hopts
    case refine_2 => exact decide_eq_true (hd ▸ hn)
    case refine_3 =>
      exact h₂.left.toOptionedBut.settled (h₂.left.types.symm ▸ hm) h₂.right

omit [TextFormats] [UnicodeSegmentation] in
theorem settles_deleteAssetParameter (hr : Referring d) (h : Optioned d) :
    Settles (deleteAssetParameter ctx p) d := by
  refine wp_readOnly_bind readOnly_read fun _ => wp_readOnly_bind readOnly_require fun _ => ?_
  refine wp_bind.mpr <| wp_selectForUpdate.mpr ?_
  cases hf : d.assetParameterTypes.find? p
  case none => trivial
  case some existing =>
    refine wp_bind.mpr <| wlp_fetchAssetParameterOptionsForUpdate fun _ _ => ?_
    refine wp_bind.mpr <| wp_forAll_done.mpr <| wp_bind.mpr <| wp_selectAllForUpdate.mpr ?_
    refine wp_exec.mpr ⟨fun d' ha => ⟨trivial, ?_⟩, fun _ _ => trivial⟩
    have hw : Concerns existing.parameterTypeId d
      (.assetParameterTypes (.delete existing.parameterTypeId)) := rfl
    have hb := (h.optionedBut hr).apply ha hw
    refine ⟨hb.toReferring, hb.optioned fun r hm he => absurd he ?_⟩
    obtain rfl := Except.pure_eq_ok.mp ha
    exact (Table.mem_delete.mp hm).right

theorem settles_handle {request : Request} (hr : Referring d) (h : Optioned d) :
    Settles (request.handle ctx) d := by
  cases request
  case create => exact settles_createAssetParameter hr h
  case update => exact settles_updateAssetParameter hr h
  case delete => exact settles_deleteAssetParameter hr h

end Requests

section Reachable

variable [ScanOrder] [TextFormats] [UnicodeSegmentation]

-- Parameters and their values can be written by requests of either kind. Anything else may change
-- at any time.
inductive Reachable : Database → Prop
  | init {d : Database} (ht : d.assetParameterTypes = ∅) (ho : d.assetParameterOptions = ∅)
    (hv : d.assetParameterValues = ∅) : Reachable d
  | parameter {d : Database} (ctx : LaboratoryContext) (request : Request) (h : Reachable d) :
    Reachable ((request.handle ctx).after d)
  | asset {d : Database} (ctx : LaboratoryContext) (request : Assets.Request) (h : Reachable d) :
    Reachable ((request.handle ctx).after d)
  | elsewhere {d d' : Database} {w : Write} (h : Reachable d) (hw : ¬IsParameterWrite w)
    (ha : d.apply w = .ok d') : Reachable d'

omit [ScanOrder] [TextFormats] [UnicodeSegmentation] in
theorem optioned_of_value_or_elsewhere (h : Referring d ∧ Optioned d) (ha : d.apply w = .ok d')
    (ht : ∀ w', w ≠ .assetParameterTypes w') (ho : ∀ w', w ≠ .assetParameterOptions w') :
    Referring d' ∧ Optioned d' := by
  have hd : d'.assetParameterTypes = d.assetParameterTypes ∧
      d'.assetParameterOptions = d.assetParameterOptions := by
    have happ := Database.applied_of_apply ha
    cases w
    case assetParameterTypes w => exact absurd rfl (ht w)
    case assetParameterOptions w => exact absurd rfl (ho w)
    case tree kind w => cases kind <;> rw [happ.right] <;> exact ⟨rfl, rfl⟩
    all_goals
      rw [happ.right]
      exact ⟨rfl, rfl⟩
  have hr : Referring d' := by
    refine h.left.apply (p := nilUuid) ha ?_
    cases w
    case assetParameterTypes w => exact absurd rfl (ht w)
    case assetParameterOptions w => exact absurd rfl (ho w)
    all_goals trivial
  refine ⟨hr, hr.optioned fun r hm => ?_⟩
  simpa only [HasOption, IsOption, hd.right] using h.right.enums r (hd.left ▸ hm)

theorem optioned_of_asset {ctx : LaboratoryContext} {request : Assets.Request}
    (h : Referring d ∧ Optioned d) :
    (request.handle ctx).wlp (fun _ d' => Referring d' ∧ Optioned d') d := by
  refine Assets.Request.handle_writes.wlp h fun w d d' hw h ha => ?_
  refine optioned_of_value_or_elsewhere h ha ?_ ?_ <;> rintro w' rfl <;> exact hw

theorem Reachable.invariant (h : Reachable d) : Referring d ∧ Optioned d := by
  induction h
  case init d ht ho hv =>
    have hr : Referring d := by
      constructor <;> simp [ho, hv]
    exact ⟨hr, hr.optioned <| by simp [ht]⟩
  case parameter ih => exact wp_after (settles_handle ih.left ih.right) ih
  case asset ih => exact wp_after (optioned_of_asset ih) ih
  case elsewhere hw ha ih =>
    refine optioned_of_value_or_elsewhere ih ha ?_ ?_ <;> rintro w' rfl <;> exact hw trivial

theorem optioned_of_reachable (h : Reachable d) : Optioned d :=
  h.invariant.right

end Reachable

def color : CreateJsonData where
  code := "color"
  name := "Color"
  dataType := "enum"
  unitDimension := none
  defaultUnitId := none
  description := none
  options := some [⟨"red", "Red", none⟩, ⟨"blue", "Blue", some 1⟩]

-- The lab admin of the office creates an enum.
def colored : Database :=
  let _ := ScanOrder.stored
  let _ := tallied
  let _ := UnicodeSegmentation.characters
  (Request.handle ⟨⟨2, .labAdmin, some 1⟩, 1⟩ (.create color 5 (6 + ·))).after Users.office

-- The option red is replaced, and blue renamed.
def recolor : UpdateJsonData where
  code := none
  name := none
  dataType := none
  unitDimension := none
  defaultUnitId := none
  description := none
  options := some [⟨some 7, "navy", "Navy", none⟩, ⟨none, "green", "Green", none⟩]
  valueMigrations := none

def recolored : Database :=
  let _ := ScanOrder.stored
  let _ := tallied
  let _ := UnicodeSegmentation.characters
  (Request.handle ⟨⟨2, .labAdmin, some 1⟩, 1⟩ (.update 5 recolor (8 + ·) (9 + ·))).after colored

theorem optioned_recolored :
    ((∃ r ∈ recolored.assetParameterTypes, r.dataType = .enum) ∧
      recolored.assetParameterOptions.rows.map (·.code) = ["navy", "green"]) ∧
    Optioned recolored := by
  let _ := ScanOrder.stored
  let _ := tallied
  let _ := UnicodeSegmentation.characters
  have he : recolored.assetParameterTypes.rows.any (·.dataType = .enum) := by decide +kernel
  have hr : Reachable Users.office := .init rfl rfl rfl
  have hr := hr.parameter ⟨⟨2, .labAdmin, some 1⟩, 1⟩ (.create color 5 (6 + ·))
  have hr := hr.parameter ⟨⟨2, .labAdmin, some 1⟩, 1⟩ (.update 5 recolor (8 + ·) (9 + ·))
  simp only [List.any_eq_true, decide_eq_true_eq] at he
  exact ⟨⟨he, by decide +kernel⟩, optioned_of_reachable (d := recolored) hr⟩

end AssetParameters

end LabInventory
