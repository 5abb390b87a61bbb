import LabInventory.Assets.RoundTrip
import LabInventory.Shared.ParameterFilters

open Sql Program

namespace LabInventory

-- The unit that a value is written with, if it names one.
def AssetParameterValue.unitId : AssetParameterValue → Option Uuid
  | number _ unitId | range _ _ unitId => unitId
  | _ => none

namespace Database

-- An amount in the base unit. Without a unit, it is what it is.
def inBase (d : Database) (value : ℚ) (unitId : Option Uuid) : ℚ :=
  ParameterFilters.scaleValue value <| unitId.bind d.units.find?

end Database

namespace ParameterFilters

variable {d : Database} {definition : ParameterValueDefinition} {input : ParameterFilterInput}
  {filter : ParameterFilter} {unit : Option UnitRow}

-- Units are needed iff the parameter has a dimension.
theorem resolveFilterUnit_eq_ok {requested : Option Uuid}
    (h : resolveFilterUnit definition requested d.units.find? = .ok unit) :
    (filterUnitId definition requested).bind d.units.find? = unit ∧
    ((filterUnitId definition requested = none ∧ unit = none ∧ definition.unitDimension = none) ∨
      ∃ u, unit = some u ∧ definition.unitDimension = some u.dimension) := by
  unfold resolveFilterUnit at h
  cases hu : filterUnitId definition requested
  case none =>
    simp only [hu, Except.bind_eq_ok, Except.check_eq_ok, Except.pure_eq_ok] at h
    obtain ⟨_, hd, rfl⟩ := h
    exact ⟨rfl, .inl ⟨rfl, rfl, by simpa using hd⟩⟩
  case some unitId =>
    simp only [hu] at h
    cases hf : d.units.find? unitId
    case none => simp [hf] at h
    case some u =>
      simp only [hf, Except.bind_eq_ok, Except.check_eq_ok, Except.pure_eq_ok] at h
      obtain ⟨_, hd, rfl⟩ := h
      exact ⟨hf, .inr ⟨u, rfl, hd⟩⟩

theorem within_some {min max : Option ℚ} {x : ℚ} : within min max (some x) ↔
    (∀ m ∈ min, m ≤ x) ∧ ∀ m ∈ max, x ≤ m := by
  simp [within, Option.all_eq_true]

-- What an accepted filter on amounts selects.
theorem number_of_normalizeFilter (hd : definition.dataType = .number)
    (h : normalizeFilter input definition d.units.find? = .ok filter) : ∃ unit,
      resolveFilterUnit definition input.unitId d.units.find? = .ok unit ∧
      filter = .number input.parameterTypeId (scaleOptional input.numberMin unit)
        (scaleOptional input.numberMax unit) unit.isSome := by
  simp only [normalizeFilter, hd, Except.bind_eq_ok, Except.pure_eq_ok] at h
  obtain ⟨_, _, _, _, unit, hu, rfl⟩ := h
  exact ⟨unit, hu, rfl⟩

theorem range_of_normalizeFilter (hd : definition.dataType = .range)
    (h : normalizeFilter input definition d.units.find? = .ok filter) : ∃ start stop unit,
      input.rangeStart = some start ∧ input.rangeEnd = some stop ∧
      resolveFilterUnit definition input.unitId d.units.find? = .ok unit ∧
      filter = .range input.parameterTypeId (scaleValue start unit) (scaleValue stop unit)
        unit.isSome := by
  simp only [normalizeFilter, hd] at h
  cases hs : input.rangeStart
  case none => simp [hs] at h
  case some start =>
    cases ht : input.rangeEnd
    case none => simp [hs, ht] at h
    case some stop =>
      simp only [hs, ht, Except.bind_eq_ok, Except.pure_eq_ok] at h
      obtain ⟨_, _, unit, hu, rfl⟩ := h
      exact ⟨start, stop, unit, rfl, rfl, hu, rfl⟩

theorem mem_zip_of_mapM {α β ε : Type} {f : α → Except ε β} {as : List α} {bs : List β} {a : α} {b : β}
    (h : as.mapM f = .ok bs) (hm : (a, b) ∈ as.zip bs) : f a = .ok b := by
  induction as generalizing bs
  case nil => simp at hm
  case cons a' as ih =>
    simp only [List.mapM_cons, Except.bind_eq_ok, Except.pure_eq_ok] at h
    obtain ⟨b', hb, bs', hbs, rfl⟩ := h
    obtain he | hm := List.mem_cons.mp hm
    · obtain ⟨rfl, rfl⟩ := Prod.mk.inj he
      exact hb
    · exact ih hbs hm

end ParameterFilters

namespace Assets

open ParameterFilters ParameterValues

-- A value that has been written into a row.
inductive Written [TextFormats] [UnicodeSegmentation] (definition : ParameterValueDefinition)
    (v : AssetParameterValue) : Database → AssetParameterValueRow → Prop
  | asset {d d' : Database} {r : AssetParameterValueRow} {newId : Uuid} {json : Json}
    (hv : AssetParameterValue.parse definition.dataType json = .ok v)
    (h : (applyAssetParameterUpdate r.laboratoryId r.assetId newId (some definition)
      ⟨r.parameterTypeId, some json⟩).run d = .ok ((), d')) (hr : r ∈ d'.assetParameterValues)
    (hp : r.parameterTypeId = definition.parameterTypeId) : Written definition v d' r
  | migration {d d' : Database} {r stored : AssetParameterValueRow} {newId : Uuid} {json : Json}
    {migrations : List UpdateAssetParameterValueMigration} {m : UpdateAssetParameterValueMigration}
    (hm : migrations.find? (·.valueId = stored.valueId) = some m) (hj : m.value = some json)
    (hv : AssetParameterValue.parse definition.dataType json = .ok v)
    (h : (AssetParameters.migrateParameterValue definition migrations newId stored).run d =
      .ok ((), d')) (hr : r ∈ d'.assetParameterValues) (hk : r.valueId = stored.valueId)
    (hp : r.parameterTypeId = definition.parameterTypeId) : Written definition v d' r

variable {d d₀ : Database} {definition : ParameterValueDefinition} {v : AssetParameterValue}
  {r : AssetParameterValueRow}

theorem Written.storedAs [TextFormats] [UnicodeSegmentation] (h : Written definition v d r)
    (hn : definition.dataType.IsNumeric) : StoredAs definition v d r := by
  obtain ⟨hv, h, hr, hp⟩ | ⟨hm, hj, hv, h, hr, hk, hp⟩ := h
  · obtain ⟨v', hv', hs⟩ := wp_run wlp_applyAssetParameterUpdate h r hr rfl hp
    obtain rfl := Except.ok.inj <| hv'.symm.trans hv
    exact hs
  · obtain ⟨v', hs, he⟩ := wp_run wlp_migrateStored h r hr hk hp
    obtain ⟨m', json', hm', hj', hv'⟩ := he fun he => by simp [he, AssetParameterDataType.IsNumeric] at hn
    obtain rfl := Option.some.inj <| hm'.symm.trans hm
    obtain rfl := Option.some.inj <| hj'.symm.trans hj
    obtain rfl := Except.ok.inj <| hv'.symm.trans hv
    exact hs

-- The comparison of a value in the unit `V` with the bounds of a filter in the unit `U`.
def Matches (d : Database) (input : ParameterFilterInput) (V U : Option Uuid) :
    AssetParameterValue → Prop
  | .number n _ => (∀ min ∈ input.numberMin, d.inBase min U ≤ d.inBase n V) ∧
    ∀ max ∈ input.numberMax, d.inBase n V ≤ d.inBase max U
  | .range a b _ => ∀ start ∈ input.rangeStart, ∀ stop ∈ input.rangeEnd,
    d.inBase a V ≤ d.inBase start U ∧ d.inBase stop U ≤ d.inBase b V
  | _ => False

structure Agrees [PatternMatching] (definition : ParameterValueDefinition) (v : AssetParameterValue)
    (d : Database) (r : AssetParameterValueRow) (input : ParameterFilterInput)
    (filter : ParameterFilter) : Prop where
  selects : pushParameterFilters [filter] r.assetId d ↔
    Matches d input r.columns.unitId (filterUnitId definition input.unitId) v
  unit : (filterUnitId definition input.unitId).isSome → r.columns.unitId.isSome

-- There is a unit to write the value in, unless there is none to filter by.
def HasUnit (definition : ParameterValueDefinition) (unitId : Option Uuid) (d : Database) : Prop :=
  unitId.isSome ∨ definition.defaultUnitId.isSome ∨ definition.unitDimension = none ∨
  ∀ unit ∈ d.units, definition.unitDimension ≠ some unit.dimension

-- There is only one value for the filter to look at.
theorem pushParameterFilters_iff [PatternMatching] {filter : ParameterFilter}
    (hr : r ∈ d.assetParameterValues) (hp : filter.parameterTypeId = r.parameterTypeId) :
    pushParameterFilters [filter] r.assetId d ↔ condition r.columns filter := by
  simp only [pushParameterFilters, List.all_cons, List.all_nil, Bool.and_true, List.any_eq_true,
    Bool.and_eq_true, decide_eq_true_eq]
  constructor
  case mp =>
    rintro ⟨r', hr', ⟨ha, hp'⟩, hc⟩
    have he : r' = r := by
      refine Table.eq_of_clash (.head _) hr' hr ⟨Option.some_ne_none _, ?_⟩
      simp [ha, hp', hp]
    exact he ▸ hc
  case mpr => exact fun hc => ⟨r, hr, ⟨rfl, hp.symm⟩, hc⟩

theorem normalizes_of_dimensionless {unitId : Option Uuid} {x : ℚ} {result : Option Uuid × Option ℚ}
    (h : Normalizes definition d unitId x result) (hd : definition.unitDimension = none) :
    result = (none, none) := by
  unfold Normalizes at h
  cases hu : unitId <|> definition.defaultUnitId <;> rw [hu] at h
  case none => exact h
  case some =>
    obtain ⟨_, _, hs, _⟩ := h
    cases hd.symm.trans hs

theorem normalizes_of_unit {unitId : Option Uuid} {x : ℚ} {result : Option Uuid × Option ℚ}
    (h : Normalizes definition d unitId x result)
    (hu : unitId.isSome ∨ definition.defaultUnitId.isSome) :
    result.1.isSome ∧ result.2 = some (d.inBase x result.1) := by
  unfold Normalizes at h
  cases hs : unitId <|> definition.defaultUnitId <;> rw [hs] at h
  case none => simp_all
  case some =>
    obtain ⟨unit, hf, _, rfl⟩ := h
    refine ⟨rfl, ?_⟩
    simp [Database.inBase, hf, scaleValue]

theorem normalizes_unitless {unitId : Option Uuid} {x : ℚ} {result : Option Uuid × Option ℚ}
    (h : Normalizes definition d unitId x result) (hu : unitId = none)
    (hd : definition.defaultUnitId = none) : result = (none, none) := by
  simpa [Normalizes, hu, hd] using h

theorem unitId_of_normalizes {u : Option Uuid} {x y : ℚ} {result₁ result₂ : Option Uuid × Option ℚ}
    (h₁ : Normalizes definition d u x result₁) (h₂ : Normalizes definition d result₁.1 y result₂) :
    result₂.1 = result₁.1 := by
  unfold Normalizes at h₁ h₂
  cases hs : u <|> definition.defaultUnitId <;> rw [hs] at h₁
  case none =>
    have hd : definition.defaultUnitId = none := by simp_all
    obtain rfl := h₁
    rw [hd] at h₂
    exact congrArg Prod.fst h₂
  case some unitId =>
    obtain ⟨_, _, _, rfl⟩ := h₁
    obtain ⟨_, _, _, rfl⟩ := h₂
    rfl

-- An amount is compared in the way it has been stored.
theorem compared_of_unit {input : ParameterFilterInput} {unit : Option UnitRow} {x : ℚ}
    {unitId : Option Uuid} {result : Option Uuid × Option ℚ}
    (hf : resolveFilterUnit definition input.unitId d.units.find? = .ok unit)
    (h : Normalizes definition d unitId x result) (hu : HasUnit definition unitId d) :
    ((filterUnitId definition input.unitId).isSome → result.1.isSome) ∧
    (if unit.isSome then result.2 <|> some x else some x) = some (d.inBase x result.1) := by
  obtain ⟨hbind, ⟨hnone, rfl, hd⟩ | ⟨unit, rfl, hd⟩⟩ := resolveFilterUnit_eq_ok hf
  · obtain rfl := normalizes_of_dimensionless h hd
    simp [hnone, Database.inBase, scaleValue]
  · have hs : unitId.isSome ∨ definition.defaultUnitId.isSome := by
      obtain hs | hs | hn | hn := hu
      · exact .inl hs
      · exact .inr hs
      · cases hn.symm.trans hd
      · obtain ⟨_, _, hf⟩ := Option.bind_eq_some_iff.mp hbind
        exact absurd hd <| hn unit (Table.find?_eq_some.mp hf).left
    have ⟨hi, hb⟩ := normalizes_of_unit h hs
    simp [hi, hb]

variable {input : ParameterFilterInput} {filter : ParameterFilter}

theorem agrees_number [PatternMatching] {n : ℚ} {u : Option Uuid} (hr : r ∈ d.assetParameterValues)
    (hp : r.parameterTypeId = definition.parameterTypeId) (hd : definition.dataType = .number)
    (hrd : r.dataType = .number) (h : Resolves definition d (.number n u) r.ownColumns)
    (hf : normalizeFilter input definition d.units.find? = .ok filter)
    (hi : input.parameterTypeId = definition.parameterTypeId)
    (hu : HasUnit definition u d) : Agrees definition (.number n u) d r input filter := by
  obtain ⟨unit, hfu, rfl⟩ := number_of_normalizeFilter hd hf
  obtain ⟨result, hn, hc⟩ := h
  simp only [AssetParameterValueRow.ownColumns, hrd] at hc
  have hnumber : r.columns.valueNumber = some n := congrArg (·.valueNumber) hc
  have hbase : r.columns.valueNumberInBase = result.2 := congrArg (·.valueNumberInBase) hc
  have hunit : r.columns.unitId = result.1 := congrArg (·.unitId) hc
  obtain ⟨hsome, hcompared⟩ := compared_of_unit hfu hn hu
  refine ⟨(pushParameterFilters_iff hr ?_).trans ?_, hunit ▸ hsome⟩
  case refine_1 => exact hi.trans hp.symm
  case refine_2 =>
    simp only [condition, hnumber, hbase, hcompared, within_some, Matches, hunit, scaleOptional,
      Database.inBase, (resolveFilterUnit_eq_ok hfu).left]
    simp

theorem agrees_range [PatternMatching] {a b : ℚ} {u : Option Uuid} (hr : r ∈ d.assetParameterValues)
    (hp : r.parameterTypeId = definition.parameterTypeId) (hd : definition.dataType = .range)
    (hrd : r.dataType = .range) (h : Resolves definition d (.range a b u) r.ownColumns)
    (hf : normalizeFilter input definition d.units.find? = .ok filter)
    (hi : input.parameterTypeId = definition.parameterTypeId)
    (hu : HasUnit definition u d) : Agrees definition (.range a b u) d r input filter := by
  obtain ⟨start, stop, unit, hs, ht, hfu, rfl⟩ := range_of_normalizeFilter hd hf
  obtain ⟨result₁, result₂, h₁, h₂, hc⟩ := h
  simp only [AssetParameterValueRow.ownColumns, hrd] at hc
  have hstart : r.columns.valueRangeStart = some a := congrArg (·.valueRangeStart) hc
  have hend : r.columns.valueRangeEnd = some b := congrArg (·.valueRangeEnd) hc
  have hstartBase : r.columns.valueRangeStartInBase = result₁.2 :=
    congrArg (·.valueRangeStartInBase) hc
  have hendBase : r.columns.valueRangeEndInBase = result₂.2 := congrArg (·.valueRangeEndInBase) hc
  have hunit : r.columns.unitId = result₁.1 := congrArg (·.unitId) hc
  have hu₂ : HasUnit definition result₁.1 d := by
    obtain hs | hs | hn := hu
    · exact .inl (normalizes_of_unit h₁ <| .inl hs).left
    · exact .inr <| .inl hs
    · exact .inr <| .inr hn
  obtain ⟨hsome, hcompared₁⟩ := compared_of_unit hfu h₁ hu
  obtain ⟨_, hcompared₂⟩ := compared_of_unit hfu h₂ hu₂
  rw [unitId_of_normalizes h₁ h₂] at hcompared₂
  refine ⟨(pushParameterFilters_iff hr ?_).trans ?_, hunit ▸ hsome⟩
  case refine_1 => exact hi.trans hp.symm
  case refine_2 =>
    simp only [condition, hstart, hend, hstartBase, hendBase, hcompared₁, hcompared₂, within_some,
      Bool.and_eq_true, Matches, hunit, hs, ht, Database.inBase, (resolveFilterUnit_eq_ok hfu).left]
    simp

-- Filters on the parameter of the value that have been accepted.
def FiltersAgree [PatternMatching] (t : AssetParameterTypeRow) (v : AssetParameterValue) (d : Database)
    (r : AssetParameterValueRow) : Prop :=
  ∀ inputs filters, parseParameterFilters t.laboratoryId (.inputs inputs) d = .ok filters →
    ∀ input filter, (input, filter) ∈ inputs.zip filters → input.parameterTypeId = t.parameterTypeId →
      Agrees t.definition v d r input filter

theorem normalizeFilter_of_parse {t : AssetParameterTypeRow} {inputs : List ParameterFilterInput}
    {filters : List ParameterFilter} (ht : t ∈ d.assetParameterTypes)
    (h : parseParameterFilters t.laboratoryId (.inputs inputs) d = .ok filters)
    (hm : (input, filter) ∈ inputs.zip filters) (hi : input.parameterTypeId = t.parameterTypeId) :
    normalizeFilter input t.definition d.units.find? = .ok filter := by
  obtain ⟨inputs', hp, h⟩ := Except.bind_eq_ok.mp h
  simp only [parseFilterInputs, Except.bind_eq_ok, Except.pure_eq_ok] at hp
  obtain ⟨_, _, _, _, rfl⟩ := hp
  have hn := mem_zip_of_mapM h hm
  have hf : ParameterFilters.fetchParameterDefinition t.laboratoryId input.parameterTypeId d =
      some t.definition := by
    rw [hi, ParameterFilters.fetchParameterDefinition, show d.assetParameterTypes.find? t.parameterTypeId = some t from
      Table.find?_key ht]
    simp [AssetParameterTypeRow.definition]
  simpa only [hf] using hn

-- A filter on any parameter, with all bounds at zero.
def zeroFilter (parameterTypeId unitId : Uuid) : ParameterFilterInput where
  parameterTypeId := parameterTypeId
  text := none
  numberMin := some 0
  numberMax := some 0
  rangeStart := some 0
  rangeEnd := some 0
  boolean := none
  dateStart := none
  dateEnd := none
  optionId := none
  unitId := some unitId

theorem exists_zeroFilter {t : AssetParameterTypeRow} {unit : UnitRow} (hn : t.dataType.IsNumeric)
    (ht : t ∈ d.assetParameterTypes) (hunit : unit ∈ d.units)
    (hd : t.unitDimension = some unit.dimension) : ∃ filter, parseParameterFilters t.laboratoryId
      (.inputs [zeroFilter t.parameterTypeId unit.unitId]) d = .ok [filter] := by
  have hf : ParameterFilters.fetchParameterDefinition t.laboratoryId t.parameterTypeId d =
      some t.definition := by
    rw [ParameterFilters.fetchParameterDefinition,
      show d.assetParameterTypes.find? t.parameterTypeId = some t from Table.find?_key ht]
    simp [AssetParameterTypeRow.definition]
  have hunit : d.units.find? unit.unitId = some unit := Table.find?_key hunit
  have hu : resolveFilterUnit t.definition (some unit.unitId) d.units.find? = .ok (some unit) := by
    simp [resolveFilterUnit, filterUnitId, hunit, AssetParameterTypeRow.definition, hd, Except.check]
  have hz : ∃ filter, normalizeFilter (zeroFilter t.parameterTypeId unit.unitId) t.definition
      d.units.find? = .ok filter := by
    have hdt : t.definition.dataType = t.dataType := rfl
    cases hdata : t.dataType <;> rw [hdata] at hn hdt <;> try cases hn
    all_goals
      simp only [normalizeFilter, hdt, zeroFilter, Except.bind_eq_ok, Except.check_eq_ok,
        Except.pure_eq_ok]
    case number => exact ⟨_, (), by simp, (), by simp, _, hu, rfl⟩
    case range => exact ⟨_, (), le_rfl, _, hu, rfl⟩
  obtain ⟨filter, hz⟩ := hz
  refine ⟨filter, Except.bind_eq_ok.mpr ⟨[zeroFilter t.parameterTypeId unit.unitId], ?_, ?_⟩⟩
  case refine_1 =>
    simp [parseFilterInputs, maxFilters]
  case refine_2 =>
    have hid : (zeroFilter t.parameterTypeId unit.unitId).parameterTypeId = t.parameterTypeId := rfl
    simp only [List.mapM_cons, List.mapM_nil, hid, hf]
    exact Except.bind_eq_ok.mpr ⟨filter, hz, rfl⟩

theorem resolves_frame_of_isNumeric {columns : ParameterValueColumns} (hn : v.dataType.IsNumeric)
    (hu : d.units = d₀.units) (h : Resolves definition d₀ v columns) :
    Resolves definition d v columns := by
  cases v
  case number | range => simpa only [Resolves, Normalizes, hu] using h
  all_goals cases hn

theorem filtersAgree_iff [TextFormats] [UnicodeSegmentation] [PatternMatching]
    {t : AssetParameterTypeRow} (hw : Written t.definition v d₀ r) (hn : t.dataType.IsNumeric)
    (hu : d.units = d₀.units) (ht : t ∈ d.assetParameterTypes) (hr : r ∈ d.assetParameterValues) :
    FiltersAgree t v d r ↔ HasUnit t.definition v.unitId d := by
  have hs := hw.storedAs hn
  have hvd : v.dataType = t.dataType := hs.valueType.trans hs.dataType
  have hres : Resolves t.definition d v r.ownColumns :=
    resolves_frame_of_isNumeric (hvd ▸ hn) hu hs.resolves
  constructor
  case mp =>
    intro ha
    by_contra hno
    simp only [HasUnit, not_or, not_forall, not_not, Option.not_isSome_iff_eq_none] at hno
    obtain ⟨hv, hdefault, _, unit, hunit, hd⟩ := hno
    obtain ⟨filter, hf⟩ := exists_zeroFilter hn ht hunit hd
    have hsome := (ha _ _ hf _ _ (.head _) rfl).unit rfl
    -- Without a unit of its own, the value has been stored without any.
    have hnone : r.ownColumns.unitId = none := by
      cases v
      case number =>
        obtain ⟨result, h, hc⟩ := hres
        rw [hc, normalizes_unitless h hv hdefault]
      case range =>
        obtain ⟨result, _, h, _, hc⟩ := hres
        rw [hc, normalizes_unitless h hv hdefault]
      all_goals simp [← hvd, AssetParameterValue.dataType, AssetParameterDataType.IsNumeric] at hn
    rw [AssetParameterValueRow.ownColumns, ParameterValueColumns.unitId_migrate
      (show r.dataType.IsNumeric from hs.dataType ▸ hn)] at hnone
    simp [hnone] at hsome
  case mpr =>
    intro hunit inputs filters hf input filter hm hi
    have hnorm := normalizeFilter_of_parse ht hf hm hi
    cases v
    case number =>
      exact agrees_number hr hs.parameterTypeId hvd.symm (hs.dataType.trans hvd.symm) hres hnorm hi hunit
    case range =>
      exact agrees_range hr hs.parameterTypeId hvd.symm (hs.dataType.trans hvd.symm) hres hnorm hi hunit
    all_goals simp [← hvd, AssetParameterValue.dataType, AssetParameterDataType.IsNumeric] at hn

theorem filtersAgree_twoKilohertz :
    let _ := foldedMatching
    FiltersAgree bandwidth (.number 2 (some 4)) (electronicsAfter twoKilohertz)
      (bandwidthValue 2 (some 4) (some 2000)) := by
  let _ := foldedMatching
  let _ := tallied
  let _ := UnicodeSegmentation.characters
  have hv : AssetParameterValue.parse .number twoKilohertz = .ok (.number 2 (some 4)) := by
    decide +kernel
  have hrun : (applyAssetParameterUpdate 1 3 7 (some bandwidth.definition)
      ⟨5, some twoKilohertz⟩).run electronics = .ok ((), electronicsAfter twoKilohertz) :=
    rfl
  have hrows : (electronicsAfter twoKilohertz).assetParameterValues.rows =
      [bandwidthValue 2 (some 4) (some 2000)] := by
    decide +kernel
  have hr : bandwidthValue 2 (some 4) (some 2000) ∈
      (electronicsAfter twoKilohertz).assetParameterValues :=
    Table.mem_def.mpr <| hrows ▸ .head _
  have hw : Written bandwidth.definition (.number 2 (some 4)) (electronicsAfter twoKilohertz)
      (bandwidthValue 2 (some 4) (some 2000)) :=
    .asset hv hrun hr rfl
  exact (filtersAgree_iff hw rfl rfl (.head _) hr).mpr <| .inl rfl

-- A number without a unit is compared with a bound in the base unit.
theorem not_filtersAgree_unitless :
    let _ := tallied
    let _ := UnicodeSegmentation.characters
    let _ := foldedMatching
    ¬∀ (t : AssetParameterTypeRow) v d r, Written t.definition v d r → t.dataType.IsNumeric →
      t ∈ d.assetParameterTypes → FiltersAgree t v d r := by
  intro _ _ _ h
  have hr : bandwidthValue 5 none none ∈ (electronicsAfter <| .number 5).assetParameterValues :=
    .head _
  have hrun : (applyAssetParameterUpdate 1 3 7 (some bandwidth.definition)
      ⟨5, some <| .number 5⟩).run electronics = .ok ((), electronicsAfter <| .number 5) :=
    rfl
  have hw : Written bandwidth.definition (.number 5 none) (electronicsAfter <| .number 5)
      (bandwidthValue 5 none none) :=
    .asset rfl hrun hr rfl
  have hunit : kilohertz ∈ (electronicsAfter <| .number 5).units :=
    .head _
  obtain ⟨filter, hf⟩ := exists_zeroFilter (t := bandwidth) rfl (.head _) hunit rfl
  cases (h _ _ _ _ hw rfl (.head _) _ _ hf _ _ (.head _) rfl).unit rfl

end Assets

end LabInventory
