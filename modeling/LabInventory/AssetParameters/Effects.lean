import LabInventory.AssetParameters.Options
import LabInventory.Library.Effects

open Sql Program

namespace LabInventory

namespace AssetParameters

def Request.migrations [UnicodeSegmentation] : Request → List UpdateAssetParameterValueMigration
  | update _ payload _ _ =>
    (payload.valueMigrations.map (·.map ValueMigrationJsonData.toMigration)).getD []
  | _ => []

def Request.defaultUnitId : Request → Option Uuid
  | create payload _ _ => payload.defaultUnitId
  | update _ payload _ _ => payload.defaultUnitId.join
  | delete _ => none

def IsOptionWrite : Write → Prop
  | .assetParameterOptions _ => True
  | _ => False

-- The row that a migration turns a value into.
structure IsMigrated [TextFormats] (definition : ParameterValueDefinition)
    (migrations : List UpdateAssetParameterValueMigration) (d : Database)
    (r₀ r : AssetParameterValueRow) (v : AssetParameterValue) (columns : ParameterValueColumns) :
    Prop where
  stored : r₀ ∈ d.assetParameterValues
  parameterTypeId : r₀.parameterTypeId = definition.parameterTypeId
  row : r = { r₀ with
    dataType := definition.dataType
    columns := r₀.columns.migrate definition.dataType columns
  }
  dataType : v.dataType = definition.dataType
  resolves : ParameterValues.Resolves definition d v columns
  migration : definition.dataType ≠ .enum → ∃ m ∈ migrations, ∃ json ∈ m.value,
    AssetParameterValue.parse definition.dataType json = .ok v

-- Options may be created on the way.
def IsMigrationWrite [TextFormats] (definition : ParameterValueDefinition)
    (migrations : List UpdateAssetParameterValueMigration) (valueId : Uuid) (d : Database) :
    Write → Prop
  | .assetParameterOptions _ => True
  | .assetParameterValues (.update r) => r.valueId = valueId ∧
    ∃ r₀ v columns, IsMigrated definition migrations d r₀ r v columns
  | .assetParameterValues (.delete k) => k = valueId
  | _ => False

-- What follows once the row of a parameter has been written.
def IsFollowingWrite [TextFormats] (definition : ParameterValueDefinition)
    (migrations : List UpdateAssetParameterValueMigration) (d : Database) (w : Write) : Prop :=
  IsOptionWrite w ∨ ∃ valueId, IsMigrationWrite definition migrations valueId d w

-- A parameter stays in its laboratory.
structure Reconfigures (defaultUnitId : Option Uuid) (r₀ r : AssetParameterTypeRow) : Prop where
  parameterTypeId : r.parameterTypeId = r₀.parameterTypeId
  laboratoryId : r.laboratoryId = r₀.laboratoryId
  defaultUnitId : ∀ unitId ∈ r.defaultUnitId, r₀.defaultUnitId = some unitId ∨
    defaultUnitId = some unitId

def IsRequestWrite [TextFormats] [UnicodeSegmentation] (request : Request) (d : Database) :
    Write → Prop
  | .assetParameterTypes (.insert r) => r.defaultUnitId = request.defaultUnitId
  | .assetParameterTypes (.update r) =>
    ∃ r₀ ∈ d.assetParameterTypes, Reconfigures request.defaultUnitId r₀ r
  | .assetParameterTypes (.delete _) => True
  | w => ∃ t ∈ d.assetParameterTypes, IsFollowingWrite t.definition request.migrations d w

variable {d d' : Database} {p : Uuid} {definition : ParameterValueDefinition}
  {migrations : List UpdateAssetParameterValueMigration}

section Options

theorem insertNewOptions_writes {newIds options} :
    (insertNewOptions p newIds options).Writes IsOptionWrite := by
  induction options generalizing newIds
  case nil => trivial
  case cons ih =>
    exact (Transaction.readOnly_bindTexts.writes_bind fun _ => writes_exec trivial).bind fun _ => ih

theorem updateAssetParameterOption_writes {optionId option} :
    (updateAssetParameterOption optionId option).Writes IsOptionWrite := by
  refine Transaction.readOnly_bindTexts.writes_bind fun _ => ?_
  refine readOnly_selectForUpdate.writes_bind fun r => ?_
  cases r
  case none => trivial
  case some => exact writes_exec trivial

theorem applyOptions_writes {existing newIds options} :
    (applyOptions p existing newIds options).Writes IsOptionWrite := by
  induction options generalizing newIds
  case nil => trivial
  case cons option options ih =>
    unfold applyOptions
    split
    case h_1 => exact updateAssetParameterOption_writes.bind fun _ => ih
    case h_2 =>
      exact (Transaction.readOnly_bindTexts.writes_bind fun _ => writes_exec trivial).bind fun _ => ih

variable [ScanOrder]

theorem deleteOptions_writes {isDeleted} : (deleteOptions isDeleted).Writes IsOptionWrite :=
  writes_forAll fun _ => writes_exec trivial

theorem applyOptionUpdates_writes {dataType existing updateOptions newIds} :
    (applyOptionUpdates p dataType existing updateOptions newIds).Writes IsOptionWrite := by
  unfold applyOptionUpdates
  split
  case isTrue =>
    split
    case h_1 =>
      refine readOnly_require.writes_bind fun _ => deleteOptions_writes.bind fun _ => ?_
      exact applyOptions_writes
    case h_2 => trivial
  case isFalse => exact deleteOptions_writes

end Options

section Migrations

-- Every value has been there before, for the same parameter.
def Descends (d₀ d : Database) : Prop :=
  ∀ r ∈ d.assetParameterValues, ∃ r₀ ∈ d₀.assetParameterValues, r₀.valueId = r.valueId ∧
    r₀.parameterTypeId = r.parameterTypeId ∧ r₀.laboratoryId = r.laboratoryId

theorem Descends.refl : Descends d d :=
  fun r hr => ⟨r, hr, rfl, rfl, rfl⟩

-- All rows of the value belong to the parameter.
def OfParameter (p valueId : Uuid) (d : Database) : Prop :=
  ∀ r ∈ d.assetParameterValues, r.valueId = valueId → r.parameterTypeId = p

theorem OfParameter.descends {valueId : Uuid} (h : OfParameter p valueId d) (hd : Descends d d') :
    OfParameter p valueId d' := by
  intro r hr hk
  obtain ⟨r₀, hr₀, hk₀, hp, _⟩ := hd r hr
  exact hp ▸ h r₀ hr₀ (hk₀.trans hk)

variable [TextFormats] [UnicodeSegmentation]

-- The other rows stay as they are.
structure Following (d₀ d : Database) : Prop where
  descends : Descends d₀ d
  types : d.assetParameterTypes = d₀.assetParameterTypes
  units : d.units = d₀.units

omit [TextFormats] [UnicodeSegmentation] in
theorem Following.refl : Following d d :=
  ⟨.refl, rfl, rfl⟩

omit [UnicodeSegmentation] in
theorem closed_following {d₀ : Database} :
    Closed (IsFollowingWrite definition migrations) (Following d₀) := by
  intro w d d' hw h ha
  have happ := Database.applied_of_apply ha
  cases w
  case assetParameterOptions =>
    rw [happ.right]
    exact ⟨h.descends, h.types, h.units⟩
  case assetParameterValues w =>
    refine ⟨?_, happ.right ▸ h.types, happ.right ▸ h.units⟩
    obtain hw | ⟨_, hw⟩ := hw
    · exact hw.elim
    intro r hr
    obtain hr | rfl | rfl := Table.mem_write happ.left hr
    · exact h.descends r hr
    · exact hw.elim
    · obtain ⟨_, r₀, _, _, hm⟩ := hw
      obtain ⟨r₁, hr₁, hk, hp, hl⟩ := h.descends r₀ hm.stored
      have hrow := hm.row
      exact ⟨r₁, hr₁, by rw [hk, hrow], by rw [hp, hrow], by rw [hl, hrow]⟩
  all_goals exact (hw.elim id fun ⟨_, hw⟩ => hw).elim

-- Only enum values are not written as they are given.
theorem performs_resolveMigrationTarget {P : Database → Write → Prop} {dataType : AssetParameterDataType}
    {value : Json} {newId : Uuid} (hp : ∀ d w, P d (.assetParameterOptions (.insert w))) :
    (resolveMigrationTarget p dataType value newId).performs P
      (fun target _ => dataType ≠ .enum → target = value) d := by
  unfold resolveMigrationTarget
  split
  case isTrue => exact fun _ => rfl
  case isFalse hn =>
    have he : dataType = .enum := by
      by_contra hd
      exact hn <| .inl hd
    split
    case h_2 => trivial
    case h_1 code _ =>
      refine readOnly_read.performs_bind <| wp_read.mpr ?_
      split
      case h_1 => exact fun hd => absurd he hd
      case h_2 =>
        split
        case h_2 => trivial
        case h_1 label _ =>
          refine readOnly_ofExcept.performs_bind_all fun code => ?_
          refine readOnly_ofExcept.performs_bind_all fun label => ?_
          refine performs_bind.mpr <| Transaction.readOnly_bindTexts.performs_bind_all fun _ => ?_
          exact ⟨hp _ _, fun _ _ hd => absurd he hd⟩

omit [UnicodeSegmentation] in
theorem performs_migrateInDatabase {valueId : Uuid} {v : AssetParameterValue}
    {columns : ParameterValueColumns}
    (hs : OfParameter definition.parameterTypeId valueId d) (hv : v.dataType = definition.dataType)
    (hr : ParameterValues.Resolves definition d v columns)
    (hm : definition.dataType ≠ .enum → ∃ m ∈ migrations, ∃ json ∈ m.value,
      AssetParameterValue.parse definition.dataType json = .ok v) :
    (migrateAssetParameterValueInDatabase valueId definition.dataType
      ⟨definition.parameterTypeId, definition.dataType, columns⟩).performs
      (IsMigrationWrite definition migrations valueId) (fun _ _ => True) d := by
  refine readOnly_read.performs_bind <| wp_read.mpr ?_
  split
  case h_2 => trivial
  case h_1 r₀ hf =>
    have ⟨hr₀, hk⟩ := Table.find?_eq_some.mp hf
    have hp := hs r₀ hr₀ hk
    exact performs_exec ⟨hk, r₀, v, columns, hr₀, hp, rfl, hv, hr, hm⟩ fun _ _ => trivial

theorem performs_migrateParameterValue {newId : Uuid} {stored : AssetParameterValueRow}
    (hs : OfParameter definition.parameterTypeId stored.valueId d) :
    (migrateParameterValue definition migrations newId stored).performs
      (IsMigrationWrite definition migrations stored.valueId) (fun _ _ => True) d := by
  unfold migrateParameterValue
  split
  case h_2 => trivial
  case h_1 m hm =>
    split
    case h_2 => exact performs_exec rfl fun _ _ => trivial
    case h_1 target ht =>
      have hclosed : Closed (IsMigrationWrite definition migrations stored.valueId) (Following d) :=
        fun w d₁ d₂ hw => closed_following w d₁ d₂ (.inr ⟨_, hw⟩)
      refine performs_bind.mpr <| performs_mono (performs_and
        (performs_resolveMigrationTarget fun _ _ => trivial) hclosed .refl) fun target' d₁ h₁ => ?_
      refine ParameterValues.resolveParameterValue_readOnly.performs_bind <|
        ParameterValues.wlp_resolveParameterValue fun v columns hv hr => ?_
      have hd := AssetParameterValue.dataType_of_parse hv
      refine performs_migrateInDatabase (hs.descends h₁.right.descends) hd hr fun hd => ?_
      exact ⟨m, List.mem_of_find?_eq_some hm, target, ht, h₁.left hd ▸ hv⟩

theorem performs_migrateParameterValues {newIds : NewIds} {values : List AssetParameterValueRow}
    (hs : ∀ r ∈ values, OfParameter definition.parameterTypeId r.valueId d) :
    (migrateParameterValues definition migrations newIds values).performs
      (IsFollowingWrite definition migrations) (fun _ _ => True) d := by
  induction values generalizing d newIds
  case nil => trivial
  case cons value values ih =>
    refine performs_bind.mpr <| performs_mono (performs_and (performs_imp
      (performs_migrateParameterValue (hs value (.head _))) fun _ _ h => .inr ⟨_, h⟩)
      closed_following .refl) fun _ d₁ h₁ => ?_
    exact ih fun r hr => (hs r (.tail _ hr)).descends h₁.right.descends

end Migrations

section Requests

variable [TextFormats] [UnicodeSegmentation] {ctx : LaboratoryContext} {request : Request}

-- The row of the parameter stays there.
theorem performs_following {α : Type} {t : AssetParameterTypeRow} {P : Transaction α}
    (ht : t ∈ d.assetParameterTypes)
    (h : P.performs (IsFollowingWrite t.definition request.migrations) (fun _ _ => True) d) :
    P.performs (IsRequestWrite request) (fun _ _ => True) d := by
  refine performs_imp_of_closed h closed_following .refl fun d' w hf hw => ?_
  have hw' : ∃ t ∈ d'.assetParameterTypes, IsFollowingWrite t.definition request.migrations d' w :=
    ⟨t, hf.types.symm ▸ ht, hw⟩
  cases w
  case assetParameterTypes => exact (hw.elim id fun ⟨_, hw⟩ => hw).elim
  all_goals exact hw'

theorem performs_createAssetParameter {payload newId newOptionIds} :
    (createAssetParameter ctx payload newId newOptionIds).performs
      (IsRequestWrite (.create payload newId newOptionIds)) (fun _ _ => True) d := by
  refine readOnly_read.performs_bind_all fun _ => readOnly_require.performs_bind_all fun _ => ?_
  refine readOnly_ofExcept.performs_bind <| Transaction.wp_validated.mpr ⟨?_, fun _ _ => trivial⟩
  intro new hn
  have hdefault : new.defaultUnitId = payload.defaultUnitId := by
    simp only [CreateJsonData.toNewAssetParameter, Except.bind_eq_ok, Except.pure_eq_ok] at hn
    obtain ⟨_, _, _, _, _, _, _, _, _, _, rfl⟩ := hn
    rfl
  refine readOnly_ofExcept.performs_bind_all fun _ => ?_
  refine normalizeUnitConfiguration_readOnly.performs_bind_all fun unitDimension => ?_
  refine performs_bind.mpr <| performs_exec hdefault fun d₁ ha => ?_
  have ht := (Table.mem_insert (Database.applied_of_apply ha).left).mpr <| .inr rfl
  exact performs_following ht <| insertNewOptions_writes.performs fun _ _ hw => .inl hw

theorem performs_updateParameterRow {update : UpdateAssetParameter} {existing : AssetParameterTypeRow}
    {defaultUnitId : Option (Option Uuid)} {Q : AssetParameterTypeRow → Database → Prop}
    (hf : existing ∈ d.assetParameterTypes) (hu : update.defaultUnitId = .ofOption defaultUnitId)
    (hr : request.defaultUnitId = defaultUnitId.join)
    (hq : ∀ updated d', updated.parameterTypeId = existing.parameterTypeId →
      updated ∈ d'.assetParameterTypes → d'.assetParameterValues = d.assetParameterValues →
      Q updated d') :
    (updateParameterRow update existing).performs (IsRequestWrite request) Q d := by
  refine readOnly_ofExcept.performs_bind_all fun _ => ?_
  refine normalizeUnitConfiguration_readOnly.performs_bind_all fun unitDimension => ?_
  refine performs_bind.mpr <| performs_exec ⟨existing, hf, rfl, rfl, ?_⟩ fun d' ha => hq _ d' rfl ?_ ?_
  case refine_1 =>
    intro unitId hi
    rw [hr]
    change update.defaultUnitId.resolve existing.defaultUnitId = some unitId at hi
    rw [hu] at hi
    match defaultUnitId with
    | none => exact .inl hi
    | some none => cases hi
    | some (some _) => exact .inr hi
  case refine_2 =>
    exact (Table.mem_update (Database.applied_of_apply ha).left).mpr <| .inr ⟨rfl, existing, hf, rfl⟩
  case refine_3 => exact (dependents_of_applyType ha nofun).right

variable [ScanOrder]

theorem performs_updateOptionsAndValues {update : UpdateAssetParameter}
    {existing updated : AssetParameterTypeRow} {existingOptions existingValues newIds newMigratedIds}
    (hm : request.migrations = update.valueMigrations.getD [])
    (hu : updated ∈ d.assetParameterTypes)
    (hv : ∀ r ∈ existingValues, OfParameter updated.parameterTypeId r.valueId d) :
    (updateOptionsAndValues update existing updated existingOptions existingValues newIds
      newMigratedIds).performs (IsRequestWrite request) (fun _ _ => True) d := by
  refine performs_following hu ?_
  rw [hm]
  have hopts {d₁ : Database} : (applyOptionUpdates updated.parameterTypeId updated.dataType
      existingOptions update.options newIds).performs
      (IsFollowingWrite updated.definition (update.valueMigrations.getD [])) (fun _ _ => True) d₁ :=
    applyOptionUpdates_writes.performs fun _ _ hw => .inl hw
  unfold updateOptionsAndValues
  split
  case isTrue => exact hopts
  case isFalse =>
    split
    case isTrue =>
      refine performs_bind.mpr <| performs_mono (performs_and hopts closed_following .refl) fun _ d₁ h₁ => ?_
      exact performs_migrateParameterValues fun r hr => (hv r hr).descends h₁.right.descends
    case isFalse =>
      exact performs_bind.mpr <| performs_mono (performs_migrateParameterValues hv) fun _ _ _ => hopts

omit [TextFormats] [ScanOrder] in
theorem UpdateJsonData.toUpdateAssetParameter_eq_ok {payload : UpdateJsonData}
    {update : UpdateAssetParameter} (h : payload.toUpdateAssetParameter = .ok update) :
    update.defaultUnitId = .ofOption payload.defaultUnitId ∧ update.valueMigrations =
      payload.valueMigrations.map (·.map ValueMigrationJsonData.toMigration) := by
  simp only [toUpdateAssetParameter, Except.bind_eq_ok, Except.pure_eq_ok] at h
  obtain ⟨_, _, _, _, _, _, _, _, _, _, rfl⟩ := h
  exact ⟨rfl, rfl⟩

omit [TextFormats] [UnicodeSegmentation] in
theorem fetchMigratedValues_readOnly {update : UpdateAssetParameter} {changed : Bool} :
    (fetchMigratedValues update p changed).ReadOnly := by
  unfold fetchMigratedValues
  split
  case isTrue =>
    exact readOnly_selectAllForUpdate.bind fun _ => readOnly_ofExcept.bind fun _ => trivial
  case isFalse => exact readOnly_require.bind fun _ => trivial

theorem performs_updateAssetParameter {payload newIds newMigratedIds} :
    (updateAssetParameter ctx p payload newIds newMigratedIds).performs
      (IsRequestWrite (.update p payload newIds newMigratedIds)) (fun _ _ => True) d := by
  refine readOnly_read.performs_bind_all fun _ => readOnly_require.performs_bind_all fun _ => ?_
  refine readOnly_ofExcept.performs_bind <| Transaction.wp_validated.mpr ⟨?_, fun _ _ => trivial⟩
  intro update hu
  have ⟨hdefault, hm⟩ := UpdateJsonData.toUpdateAssetParameter_eq_ok hu
  refine readOnly_selectForUpdate.performs_bind <| wp_selectForUpdate.mpr ?_
  cases hf : d.assetParameterTypes.find? p
  case none => trivial
  case some existing =>
    have ⟨hx, _⟩ := Table.find?_eq_some.mp hf
    refine readOnly_selectAllForUpdate.performs_bind_all fun existingOptions => ?_
    refine readOnly_ofExcept.performs_bind_all fun _ => fetchMigratedValues_readOnly.performs_bind ?_
    refine wlp_fetchMigratedValues fun existingValues hchanged hsame => performs_bind.mpr ?_
    refine performs_updateParameterRow hx hdefault rfl fun updated d₁ hp hmem hvalues => ?_
    refine performs_updateOptionsAndValues (congrArg (·.getD []) hm.symm) hmem fun r hr r' hr' hk => ?_
    have hfetched : r ∈ d.assetParameterValues ∧ r.parameterTypeId = existing.parameterTypeId := by
      by_cases hc : decide (update.dataType.getD existing.dataType ≠ existing.dataType) = true
      case pos => exact ((hchanged hc).left r).mp hr
      case neg => exact absurd (hsame hc ▸ hr) List.not_mem_nil
    obtain rfl : r' = r := Table.eq_of_key_eq (hvalues ▸ hr') hfetched.left hk
    exact hfetched.right.trans hp.symm

theorem performs_deleteAssetParameter : (deleteAssetParameter ctx p).performs
    (IsRequestWrite (.delete p)) (fun _ _ => True) d := by
  refine readOnly_read.performs_bind_all fun _ => readOnly_require.performs_bind_all fun _ => ?_
  refine readOnly_selectForUpdate.performs_bind_all fun existing => ?_
  cases existing
  case none => trivial
  case some existing =>
    refine readOnly_selectAllForUpdate.performs_bind_all fun _ => ?_
    have hread : (fetchAssetParameterAssignmentsForUpdate existing.parameterTypeId).ReadOnly :=
      readOnly_forAll fun _ => trivial
    refine hread.performs_bind_all fun _ => readOnly_selectAllForUpdate.performs_bind_all fun _ => ?_
    exact performs_exec trivial fun _ _ => trivial

theorem performs_handle : (request.handle ctx).performs (IsRequestWrite request) (fun _ _ => True) d := by
  cases request
  case create => exact performs_createAssetParameter
  case update => exact performs_updateAssetParameter
  case delete => exact performs_deleteAssetParameter

end Requests

end AssetParameters

end LabInventory
