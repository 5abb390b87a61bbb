import LabInventory.Assets.RoundTrip

open Sql Program

namespace LabInventory

namespace ParameterValues

variable {definition : ParameterValueDefinition} {d : Database} {v : AssetParameterValue}
  {columns columns' : ParameterValueColumns} {unitId : Option Uuid} {value : ℚ}
  {result result' : Option Uuid × Option ℚ}

theorem Normalizes.unique (h : Normalizes definition d unitId value result)
    (h' : Normalizes definition d unitId value result') : result = result' := by
  unfold Normalizes at h h'
  cases hu : unitId <|> definition.defaultUnitId
  case none =>
    rw [hu] at h h'
    exact h.trans h'.symm
  case some unitId =>
    rw [hu] at h h'
    obtain ⟨unit, hf, _, rfl⟩ := h
    obtain ⟨unit', hf', _, rfl⟩ := h'
    rw [Option.some.inj <| hf.symm.trans hf']

-- There is one way to resolve a value.
theorem Resolves.unique (h : Resolves definition d v columns) (h' : Resolves definition d v columns') :
    columns = columns' := by
  cases v
  case text | boolean | date => exact h.trans h'.symm
  case number =>
    obtain ⟨result, hn, rfl⟩ := h
    obtain ⟨result', hn', rfl⟩ := h'
    rw [hn.unique hn']
  case range =>
    obtain ⟨result₁, result₂, hn₁, hn₂, rfl⟩ := h
    obtain ⟨result₁', result₂', hn₁', hn₂', rfl⟩ := h'
    obtain rfl := hn₁.unique hn₁'
    rw [hn₂.unique hn₂']
  case enum => exact h.right.trans h'.right.symm

-- Amounts in the same unit are converted by the same positive factor.
theorem Normalizes.mono {value' : ℚ} (hv : value ≤ value')
    (h : Normalizes definition d unitId value result)
    (h' : Normalizes definition d result.1 value' result') :
    result.2.all fun a => result'.2.all (a ≤ ·) := by
  unfold Normalizes at h h'
  cases hu : unitId <|> definition.defaultUnitId
  case none =>
    rw [hu] at h
    obtain rfl := h
    rfl
  case some unitId =>
    rw [hu] at h
    obtain ⟨unit, hf, _, rfl⟩ := h
    obtain ⟨unit', hf', _, rfl⟩ := h'
    obtain rfl := Option.some.inj <| hf.symm.trans hf'
    exact decide_eq_true <| mul_le_mul_of_nonneg_right hv unit.scaleToBase.property.le

end ParameterValues

namespace AssetParameterValue

variable [TextFormats] {dataType : AssetParameterDataType} {json : Json} {v : AssetParameterValue}
  {definition : ParameterValueDefinition} {d : Database} {columns : ParameterValueColumns}

theorem range_le_of_parse {start stop : ℚ} {unitId : Option Uuid}
    (h : parse dataType json = .ok (range start stop unitId)) : start ≤ stop := by
  obtain rfl : .range = dataType := dataType_of_parse h
  simp only [parse, Except.bind_eq_ok] at h
  obtain ⟨⟨start', stop', unitId'⟩, _, h⟩ := h
  split at h
  case isTrue =>
    obtain ⟨_, h, _⟩ := Except.bind_eq_ok.mp h
    exact absurd h Except.throw_ne_ok
  case isFalse hle =>
    obtain ⟨rfl, rfl, _⟩ := AssetParameterValue.range.inj <| Except.pure_eq_ok.mp h
    exact not_lt.mp hle

-- What a value is resolved into passes the checks of the table.
theorem checks_of_resolves {r : AssetParameterValueRow} (h : parse dataType json = .ok v)
    (hr : ParameterValues.Resolves definition d v columns) (hd : r.dataType = dataType)
    (hc : r.columns = columns) : r.HasValue ∧ r.HasBaseRange := by
  obtain rfl := dataType_of_parse h
  unfold AssetParameterValueRow.HasValue AssetParameterValueRow.HasBaseRange
  rw [hd, hc]
  cases v
  case text | boolean | date =>
    obtain rfl := hr
    exact ⟨rfl, rfl⟩
  case number =>
    obtain ⟨_, _, rfl⟩ := hr
    exact ⟨rfl, rfl⟩
  case range =>
    obtain ⟨_, _, hn, hn', rfl⟩ := hr
    have hle := range_le_of_parse h
    exact ⟨decide_eq_true hle, hn.mono hle hn'⟩
  case enum =>
    obtain ⟨_, rfl⟩ := hr
    exact ⟨rfl, rfl⟩

end AssetParameterValue

namespace Assets

variable {d d₁ d' : Database} {assetId laboratoryId newId p q a : Uuid} {newIds : NewIds}
  {entry : Option (AssetParameterDataType × ParameterValueColumns)}

section Stored

-- The values of an asset as a map: the data type and all columns, also those of other types.
def valueAt (assetId parameterTypeId : Uuid) (d : Database) :
    Option (AssetParameterDataType × ParameterValueColumns) :=
  (d.assetParameterValues.rows.find? fun r =>
    r.assetId = assetId ∧ r.parameterTypeId = parameterTypeId).map fun r => (r.dataType, r.columns)

-- There is one value for an asset and a parameter.
theorem value_unique {r₁ r₂ : AssetParameterValueRow} (h₁ : r₁ ∈ d.assetParameterValues)
    (h₂ : r₂ ∈ d.assetParameterValues) (ha : r₁.assetId = r₂.assetId)
    (hp : r₁.parameterTypeId = r₂.parameterTypeId) : r₁ = r₂ := by
  refine Table.eq_of_clash (.head _) h₁ h₂ ⟨Option.some_ne_none _, ?_⟩
  simp [ha, hp]

theorem valueAt_eq_some {e : AssetParameterDataType × ParameterValueColumns} :
    valueAt a p d = some e ↔ ∃ r ∈ d.assetParameterValues,
      r.assetId = a ∧ r.parameterTypeId = p ∧ (r.dataType, r.columns) = e := by
  constructor
  case mp =>
    intro h
    obtain ⟨r, hf, he⟩ := Option.map_eq_some_iff.mp h
    obtain ⟨ha, hp⟩ : r.assetId = a ∧ r.parameterTypeId = p := by simpa using List.find?_some hf
    exact ⟨r, List.mem_of_find?_eq_some hf, ha, hp, he⟩
  case mpr =>
    rintro ⟨r, hr, ha, hp, he⟩
    unfold valueAt
    cases hf : d.assetParameterValues.rows.find? fun r => r.assetId = a ∧ r.parameterTypeId = p
    case none => exact absurd (decide_eq_true ⟨ha, hp⟩) <| List.find?_eq_none.mp hf r hr
    case some r' =>
      obtain ⟨ha', hp'⟩ : r'.assetId = a ∧ r'.parameterTypeId = p := by simpa using List.find?_some hf
      rw [value_unique (List.mem_of_find?_eq_some hf) hr (ha'.trans ha.symm) (hp'.trans hp.symm)]
      exact congrArg some he

-- The values of other assets and parameters are left alone.
structure Stores (assetId p newId : Uuid)
    (entry : Option (AssetParameterDataType × ParameterValueColumns)) (d d' : Database) : Prop where
  valueAt : ∀ a q, valueAt a q d' =
    if a = assetId ∧ q = p then entry else valueAt a q d
  elsewhere : d' = { d with assetParameterValues := d'.assetParameterValues }
  unused : ∀ k, k ≠ newId → d.assetParameterValues.find? k = none →
    d'.assetParameterValues.find? k = none

-- All rows are still there, but those of the asset and the parameter.
theorem valueAt_replace {new : Option AssetParameterValueRow}
    (hn : ∀ r ∈ new, r.assetId = assetId ∧ r.parameterTypeId = p)
    (hm : ∀ r, r ∈ d'.assetParameterValues ↔
      (r ∈ d.assetParameterValues ∧ ¬(r.assetId = assetId ∧ r.parameterTypeId = p)) ∨ r ∈ new) :
    valueAt a q d' = if a = assetId ∧ q = p then new.map fun r => (r.dataType, r.columns)
      else valueAt a q d := by
  refine Option.ext fun e => ?_
  rw [valueAt_eq_some]
  split
  case isTrue hk =>
    obtain ⟨rfl, rfl⟩ := hk
    rw [Option.map_eq_some_iff]
    constructor
    case mp =>
      rintro ⟨r, hr, ha, hp, he⟩
      obtain hr | hr := (hm r).mp hr
      · exact absurd ⟨ha, hp⟩ hr.right
      · exact ⟨r, hr, he⟩
    case mpr =>
      rintro ⟨r, hr, he⟩
      exact ⟨r, (hm r).mpr <| .inr hr, (hn r hr).left, (hn r hr).right, he⟩
  case isFalse hk =>
    rw [valueAt_eq_some]
    constructor
    case mp =>
      rintro ⟨r, hr, rfl, rfl, he⟩
      obtain hr | hr := (hm r).mp hr
      · exact ⟨r, hr.left, rfl, rfl, he⟩
      · exact absurd (hn r hr) hk
    case mpr =>
      rintro ⟨r, hr, rfl, rfl, he⟩
      exact ⟨r, (hm r).mpr <| .inl ⟨hr, hk⟩, rfl, rfl, he⟩

theorem stores_insert {r : AssetParameterValueRow}
    (ha : d.apply (.assetParameterValues (.insert r)) = .ok d')
    (hn : ∀ r' ∈ d.assetParameterValues, ¬(r'.assetId = r.assetId ∧
      r'.parameterTypeId = r.parameterTypeId)) :
    Stores r.assetId r.parameterTypeId r.valueId (some (r.dataType, r.columns)) d d' := by
  obtain ⟨hi, hd⟩ := Database.applied_of_apply ha
  have hnew : ∀ r' ∈ some r, r'.assetId = r.assetId ∧ r'.parameterTypeId = r.parameterTypeId := by
    rintro _ ⟨⟩
    exact ⟨rfl, rfl⟩
  refine ⟨fun a q => valueAt_replace hnew fun r' => ?_, hd, fun k hk hf => ?_⟩
  case refine_1 =>
    rw [Table.mem_insert hi, Option.mem_some_iff, eq_comm]
    exact or_congr_left (and_iff_left_of_imp fun hr => hn r' hr).symm
  case refine_2 => exact (Table.find?_insert hi).trans <| (if_neg hk.symm).trans hf

theorem stores_update {r₀ r : AssetParameterValueRow} (hr₀ : r₀ ∈ d.assetParameterValues)
    (hk : r₀.valueId = r.valueId) (he : r₀.assetId = r.assetId ∧ r₀.parameterTypeId = r.parameterTypeId)
    (ha : d.apply (.assetParameterValues (.update r)) = .ok d') :
    Stores r.assetId r.parameterTypeId newId (some (r.dataType, r.columns)) d d' := by
  obtain ⟨hu, hd⟩ := Database.applied_of_apply ha
  have hnew : ∀ r' ∈ some r, r'.assetId = r.assetId ∧ r'.parameterTypeId = r.parameterTypeId := by
    rintro _ ⟨⟩
    exact ⟨rfl, rfl⟩
  refine ⟨fun a q => valueAt_replace hnew fun r' => ?_, hd, fun k hk' hf => ?_⟩
  case refine_1 =>
    rw [Table.mem_update hu, Option.mem_some_iff]
    refine or_congr (and_congr_right fun hr => not_congr ⟨fun hkey => ?_, fun hp => ?_⟩)
      ⟨fun hr => hr.left.symm, fun hr => ⟨hr.symm, r₀, hr₀, hk⟩⟩
    case refine_1 =>
      obtain rfl := Table.eq_of_key_eq hr hr₀ (hkey.trans hk.symm)
      exact he
    case refine_2 =>
      rw [value_unique hr hr₀ (hp.left.trans he.left.symm) (hp.right.trans he.right.symm)]
      exact hk
  case refine_2 =>
    rw [Table.find?_update_of_mem hu hr₀ hk]
    refine (if_neg fun hkey => ?_).trans hf
    exact Table.find?_eq_none.mp hf r₀ hr₀ <| hk.trans hkey

theorem stores_delete {r : AssetParameterValueRow} (hr : r ∈ d.assetParameterValues)
    (ha : d.apply (.assetParameterValues (.delete r.valueId)) = .ok d') :
    Stores r.assetId r.parameterTypeId newId none d d' := by
  obtain ⟨he, hd⟩ := Database.applied_of_apply ha
  have ht : d.assetParameterValues.delete r.valueId = d'.assetParameterValues := Except.ok.inj he
  have hnone (r' : AssetParameterValueRow) : r' ∉ (none : Option AssetParameterValueRow) :=
    Option.not_mem_none r'
  refine ⟨fun a q => valueAt_replace (fun r' hr' => absurd hr' (hnone r')) fun r' => ?_, hd,
    fun k hk hf => ?_⟩
  case refine_1 =>
    rw [← ht, Table.mem_delete]
    refine Iff.trans (and_congr_right fun hr' => not_congr ⟨fun hkey => ?_, fun hp => ?_⟩)
      (or_iff_left (hnone r')).symm
    case refine_1 =>
      obtain rfl := Table.eq_of_key_eq hr' hr hkey
      exact ⟨rfl, rfl⟩
    case refine_2 =>
      rw [value_unique hr' hr hp.left hp.right]
      rfl
  case refine_2 =>
    rw [← ht, Table.find?_delete, hf]
    exact ite_self none

end Stored

section Writes

variable {value : ResolvedParameterValue} {R : ApiError → Prop} {Q : Unit → Database → Prop}

-- What is found is the value of the asset and the parameter.
theorem find?_valueAt : (d.assetParameterValues.rows.find? fun r =>
    r.assetId = a ∧ r.parameterTypeId = p) = none → ∀ r ∈ d.assetParameterValues,
      ¬(r.assetId = a ∧ r.parameterTypeId = p) :=
  fun h r hr he => List.find?_eq_none.mp h r hr <| decide_eq_true he

theorem exists_writeValue {w : RowWrite AssetParameterValueRow Uuid} {r : AssetParameterValueRow}
    {t : Table AssetParameterValueRow} (hw : w = .insert r ∨ w = .update r)
    (hc : r.HasValue ∧ r.HasBaseRange)
    (ho : r.columns.valueOptionId.all fun o =>
      (d.assetParameterOptions.find? o).any (·.parameterTypeId = r.parameterTypeId))
    (ht : d.assetParameterValues.write w = .ok t) :
    d.apply (.assetParameterValues w) = .ok { d with assetParameterValues := t } := by
  obtain rfl | rfl := hw <;>
  · simp only [Database.apply, Database.writeAssetParameterValues, Except.bind_eq_ok,
      Except.check_eq_ok, Except.pure_eq_ok]
    exact ⟨(), hc.left, (), hc.right, t, ht, (), ho, rfl⟩

theorem wp_upsertAssetParameterValue
    (hc : ∀ r : AssetParameterValueRow, r.dataType = value.dataType → r.columns = value.columns →
      r.HasValue ∧ r.HasBaseRange)
    (ho : value.columns.valueOptionId.all fun o =>
      (d.assetParameterOptions.find? o).any (·.parameterTypeId = value.parameterTypeId))
    (hn : d.assetParameterValues.find? newId = none)
    (hq : ∀ d', Stores assetId value.parameterTypeId newId (some (value.dataType, value.columns)) d d' →
      Q () d') :
    (upsertAssetParameterValue laboratoryId assetId newId value).wp (fun _ => True) R Q d := by
  refine wp_bind.mpr <| wp_read.mpr ?_
  cases hf : d.assetParameterValues.rows.find? fun r =>
    r.assetId = assetId ∧ r.parameterTypeId = value.parameterTypeId
  case none =>
    have hnone := find?_valueAt hf
    have hclash : d.assetParameterValues.clash? ⟨newId, laboratoryId, assetId,
        value.parameterTypeId, value.dataType, value.columns⟩ = none := by
      refine Table.clash?_eq_none.mpr fun r hr _ => conflict?_eq_none.mpr ?_
      refine List.forall_mem_singleton.mpr fun hx => hnone r hr ?_
      obtain ⟨ha, hp⟩ := Prod.mk.inj <| Option.some.inj hx.right
      exact ⟨ha.symm, hp.symm⟩
    obtain ⟨t, ht⟩ := Table.exists_insert (Table.find?_eq_none.mp hn) hclash
    have ha := exists_writeValue (.inl rfl) (hc _ rfl rfl) ho ht
    refine wp_exec.mpr ⟨fun d' hd => ⟨trivial, hq d' ?_⟩, fun c hd => nomatch ha.symm.trans hd⟩
    exact stores_insert hd hnone
  case some r =>
    have hr : r ∈ d.assetParameterValues := List.mem_of_find?_eq_some hf
    obtain ⟨rfl, hp⟩ : r.assetId = assetId ∧ r.parameterTypeId = value.parameterTypeId := by
      simpa using List.find?_some hf
    have hrow : d.assetParameterValues.find? r.valueId = some r := Table.find?_key hr
    refine wp_bind.mpr <| wp_selectForUpdate.mpr ?_
    rw [hrow]
    have hclash : d.assetParameterValues.clash? { r with
        dataType := value.dataType, columns := value.columns } = none :=
      Table.clash?_of_entries hr rfl <| List.forall_mem_singleton.mpr rfl
    obtain ⟨t, ht⟩ := Table.exists_update hclash
    have ha := exists_writeValue (.inr rfl) (hc _ rfl rfl) (hp ▸ ho) ht
    refine wp_exec.mpr ⟨fun d' hd => ⟨trivial, hq d' ?_⟩, fun c hd => nomatch ha.symm.trans hd⟩
    have hs : Stores r.assetId r.parameterTypeId newId (some (value.dataType, value.columns)) d d' :=
      stores_update (r := { r with dataType := value.dataType, columns := value.columns }) hr rfl
        ⟨rfl, rfl⟩ hd
    exact hp ▸ hs

theorem wp_deleteAssetParameterValue (hq : ∀ d', Stores assetId p newId none d d' → Q () d') :
    (deleteAssetParameterValue assetId p).wp (fun _ => True) R Q d := by
  refine wp_bind.mpr <| wp_read.mpr ?_
  cases hf : d.assetParameterValues.rows.find? fun r => r.assetId = assetId ∧ r.parameterTypeId = p
  case none =>
    refine hq d ⟨fun a q => ?_, rfl, fun _ _ => id⟩
    split
    case isTrue hk =>
      obtain ⟨rfl, rfl⟩ := hk
      rw [valueAt, hf]
      rfl
    case isFalse => rfl
  case some r =>
    have hr : r ∈ d.assetParameterValues := List.mem_of_find?_eq_some hf
    obtain ⟨rfl, rfl⟩ : r.assetId = assetId ∧ r.parameterTypeId = p := by
      simpa using List.find?_some hf
    refine wp_bind.mpr <| wp_lockRow.mpr <| wp_exec.mpr ⟨fun d' hd => ⟨trivial, hq d' ?_⟩, fun c hd => ?_⟩
    case refine_1 => exact stores_delete hr hd
    case refine_2 => exact nomatch hd

end Writes

section Batches

variable [TextFormats] {inputs inputs' : List AssetParameterValueInput} {allowDelete : Bool}
  {input : AssetParameterValueInput}

def definitionOf (laboratoryId parameterTypeId : Uuid) (d : Database) :
    Option ParameterValueDefinition :=
  (d.assetParameterTypes.find? parameterTypeId).bind fun r =>
    if r.laboratoryId = laboratoryId then some { r with } else none

-- What an input makes of the value of its parameter. A value is resolved into the columns of its
-- data type, and all other columns are empty.
def Asks (laboratoryId : Uuid) (allowDelete : Bool) (d : Database) (input : AssetParameterValueInput)
    (entry : Option (AssetParameterDataType × ParameterValueColumns)) : Prop :=
  match input.value with
  | none => allowDelete ∧ entry = none
  | some json => ∃ definition v columns, definitionOf laboratoryId input.parameterTypeId d = some definition ∧
    AssetParameterValue.parse definition.dataType json = .ok v ∧
    ParameterValues.Resolves definition d v columns ∧
    ParameterValueColumns.empty.migrate definition.dataType columns = columns ∧
    entry = some (definition.dataType, columns)

theorem Asks.unique {entry' : Option (AssetParameterDataType × ParameterValueColumns)}
    (h : Asks laboratoryId allowDelete d input entry) (h' : Asks laboratoryId allowDelete d input entry') :
    entry = entry' := by
  unfold Asks at h h'
  cases hv : input.value
  case none =>
    rw [hv] at h h'
    exact h.right.trans h'.right.symm
  case some json =>
    rw [hv] at h h'
    obtain ⟨definition, v, columns, hd, hp, hr, _, rfl⟩ := h
    obtain ⟨definition', v', columns', hd', hp', hr', _, rfl⟩ := h'
    obtain rfl := Option.some.inj <| hd.symm.trans hd'
    obtain rfl := Except.ok.inj <| hp.symm.trans hp'
    rw [hr.unique hr']

theorem asks_congr (hd : d' = { d with assetParameterValues := d'.assetParameterValues }) :
    Asks laboratoryId allowDelete d' input entry ↔ Asks laboratoryId allowDelete d input entry := by
  have ht : d'.assetParameterTypes = d.assetParameterTypes := by rw [hd]
  have hu : d'.units = d.units := by rw [hd]
  have ho : d'.assetParameterOptions = d.assetParameterOptions := by rw [hd]
  unfold Asks
  cases input.value
  case none => rfl
  case some json =>
    refine exists_congr fun definition => exists_congr fun v => exists_congr fun columns => ?_
    rw [definitionOf, ht, ← definitionOf]
    refine and_congr_right fun _ => and_congr_right fun _ => and_congr_left fun _ => ?_
    exact ⟨fun h => h.frame hu.symm ho.symm, fun h => h.frame hu ho⟩

-- Every input can be carried out.
def Carried (laboratoryId : Uuid) (allowDelete : Bool) (inputs : List AssetParameterValueInput)
    (d : Database) : Prop :=
  ∀ input ∈ inputs, ∃ entry, Asks laboratoryId allowDelete d input entry

-- The values of the asset are overwritten by what the inputs ask for.
structure Overwritten (laboratoryId assetId : Uuid) (allowDelete : Bool)
    (inputs : List AssetParameterValueInput) (d d' : Database) : Prop where
  asked : ∀ input ∈ inputs, Asks laboratoryId allowDelete d input (valueAt assetId input.parameterTypeId d')
  kept : ∀ p, (∀ input ∈ inputs, input.parameterTypeId ≠ p) → valueAt assetId p d' = valueAt assetId p d
  others : ∀ a p, a ≠ assetId → valueAt a p d' = valueAt a p d
  elsewhere : d' = { d with assetParameterValues := d'.assetParameterValues }

theorem Overwritten.cons
    (hn : ∀ i ∈ inputs, input.parameterTypeId ≠ i.parameterTypeId)
    (ha : Asks laboratoryId allowDelete d input entry)
    (hs : Stores assetId input.parameterTypeId newId entry d d₁)
    (h : Overwritten laboratoryId assetId allowDelete inputs d₁ d') :
    Overwritten laboratoryId assetId allowDelete (input :: inputs) d d' where
  asked i hi := by
    obtain rfl | hi := List.mem_cons.mp hi
    case inl =>
      rw [h.kept _ fun i' hi' => (hn i' hi').symm, hs.valueAt, if_pos ⟨rfl, rfl⟩]
      exact ha
    case inr => exact (asks_congr hs.elsewhere).mp <| h.asked i hi
  kept p hp := by
    obtain ⟨hi, hp⟩ := List.forall_mem_cons.mp hp
    rw [h.kept p hp, hs.valueAt, if_neg fun hk => hi hk.right.symm]
  others a p hne := by
    rw [h.others a p hne, hs.valueAt, if_neg fun hk => hne hk.left]
  elsewhere := by
    rw [h.elsewhere, hs.elsewhere]

-- The ids that are made up for new values differ from each other and from those of all values.
structure UnusedValues (newIds : NewIds) (count : Nat) (d : Database) : Prop where
  distinct : ∀ m < count, ∀ n < count, newIds m = newIds n → m = n
  unused : ∀ n < count, d.assetParameterValues.find? (newIds n) = none

omit [TextFormats] in
theorem UnusedValues.tail {count : Nat} (h : UnusedValues newIds (count + 1) d)
    (hs : Stores assetId p (newIds 0) entry d d') : UnusedValues (newIds <| · + 1) count d' where
  distinct m hm n hn he := Nat.succ.inj <| h.distinct _ (Nat.succ_lt_succ hm) _ (Nat.succ_lt_succ hn) he
  unused n hn := by
    refine hs.unused _ (fun he => ?_) <| h.unused _ (Nat.succ_lt_succ hn)
    exact nomatch h.distinct _ (Nat.succ_lt_succ hn) _ (Nat.zero_lt_succ _) he

variable {R : ApiError → Prop} {Q : Unit → Database → Prop}

theorem wp_resolve {definition : ParameterValueDefinition} {json : Json}
    {Q : ResolvedParameterValue → Database → Prop}
    (hq : ∀ v columns, AssetParameterValue.parse definition.dataType json = .ok v →
      ParameterValues.Resolves definition d v columns →
      Q ⟨definition.parameterTypeId, definition.dataType, columns⟩ d)
    (hr : (¬∃ v columns, AssetParameterValue.parse definition.dataType json = .ok v ∧
      ParameterValues.Resolves definition d v columns) → ∀ e, R e) :
    (ParameterValues.resolveParameterValue definition json).wp (fun _ => True) R Q d := by
  by_cases h : ∃ v columns, AssetParameterValue.parse definition.dataType json = .ok v ∧
    ParameterValues.Resolves definition d v columns
  case pos =>
    obtain ⟨v, columns, hv, h⟩ := h
    exact ParameterValues.wp_resolveParameterValue hv h <| hq v columns hv h
  case neg =>
    refine wp_imp (ParameterValues.wlp_resolveParameterValue fun v columns hv hs => ?_) (fun _ => id)
      fun e _ => hr h e
    exact absurd ⟨v, columns, hv, hs⟩ h

theorem wp_applyAssetParameterUpdate (hd : input.value.isSome ∨ allowDelete)
    (hn : d.assetParameterValues.find? newId = none)
    (hq : ∀ entry d', Asks laboratoryId allowDelete d input entry →
      Stores assetId input.parameterTypeId newId entry d d' → Q () d')
    (hr : (¬∃ entry, Asks laboratoryId allowDelete d input entry) → ∀ e, R e) :
    (applyAssetParameterUpdate laboratoryId assetId newId
      (definitionOf laboratoryId input.parameterTypeId d) input).wp (fun _ => True) R Q d := by
  unfold applyAssetParameterUpdate
  unfold Asks at hq hr
  cases hv : input.value
  case none =>
    simp only [hv] at hq hd ⊢
    exact wp_deleteAssetParameterValue fun d' hs => hq none d' ⟨hd.resolve_left nofun, rfl⟩ hs
  case some json =>
    simp only [hv] at hq hr ⊢
    cases hf : definitionOf laboratoryId input.parameterTypeId d
    case none =>
      refine hr (fun h => ?_) _
      obtain ⟨_, _, _, _, hdef, _⟩ := h
      exact nomatch hf.symm.trans hdef
    case some definition =>
      obtain ⟨t, ht, hl⟩ := Option.bind_eq_some_iff.mp hf
      have hp : definition.parameterTypeId = input.parameterTypeId := by
        split at hl
        case isTrue => exact Option.some.inj hl ▸ (Table.find?_eq_some.mp ht).right
        case isFalse => exact nomatch hl
      refine wp_bind.mpr <| wp_resolve (fun v columns hv hres => ?_) fun h => hr fun h' => h ?_
      case refine_1 =>
        have hown := hres.migrate_empty
        rw [AssetParameterValue.dataType_of_parse hv] at hown
        refine wp_upsertAssetParameterValue (fun r ht hc => ?_) hres.option hn fun d' hs => ?_
        case refine_1 => exact AssetParameterValue.checks_of_resolves hv hres ht hc
        case refine_2 =>
          refine hq _ d' ⟨definition, v, columns, hf, hv, hres, hown, rfl⟩ ?_
          rw [← hp]
          exact hs
      case refine_2 =>
        obtain ⟨_, definition', v, columns, hf', hv, hres, _⟩ := h'
        obtain rfl := Option.some.inj <| hf.symm.trans hf'
        exact ⟨v, columns, hv, hres⟩

def defined (laboratoryId : Uuid) (d : Database) (inputs : List AssetParameterValueInput) :
    List (AssetParameterValueInput × Option ParameterValueDefinition) :=
  inputs.map fun input => (input, definitionOf laboratoryId input.parameterTypeId d)

omit [TextFormats] in
theorem wp_fetchParameterDefinitions
    {Q : List (AssetParameterValueInput × Option ParameterValueDefinition) → Database → Prop} :
    (fetchParameterDefinitions laboratoryId inputs).wp (fun _ => True) R Q d ↔
      Q (defined laboratoryId d inputs) d := by
  induction inputs generalizing Q
  case nil => exact .rfl
  case cons input inputs ih =>
    refine wp_bind.trans <| wp_selectForUpdate.trans <| wp_bind.trans ?_
    exact ih

omit [TextFormats] in
theorem defined_congr (hd : d'.assetParameterTypes = d.assetParameterTypes) :
    defined laboratoryId d' inputs = defined laboratoryId d inputs := by
  unfold defined definitionOf
  rw [hd]

theorem wp_applyParameterUpdates (hu : UnusedValues newIds inputs.length d)
    (hn : (inputs.map (·.parameterTypeId)).Nodup) :
    (applyParameterUpdates laboratoryId assetId allowDelete newIds (defined laboratoryId d inputs)).wp
      (fun _ => True) (fun _ => ¬Carried laboratoryId allowDelete inputs d)
      (fun _ d' => Carried laboratoryId allowDelete inputs d ∧
        Overwritten laboratoryId assetId allowDelete inputs d d') d := by
  induction inputs generalizing d newIds
  case nil =>
    refine ⟨fun input hi => ?_, fun input hi => ?_, fun _ _ => rfl, fun _ _ _ => rfl, rfl⟩
    all_goals exact absurd hi List.not_mem_nil
  case cons input inputs ih =>
    obtain ⟨hne, hn⟩ := List.nodup_cons.mp hn
    have hne : ∀ i ∈ inputs, input.parameterTypeId ≠ i.parameterTypeId :=
      fun i hi he => hne <| List.mem_map.mpr ⟨i, hi, he.symm⟩
    refine wp_bind.mpr <| wp_require.mpr ⟨fun hd => ?_, fun hd hc => ?_⟩
    case refine_2 =>
      obtain ⟨entry, ha⟩ := hc input (.head _)
      unfold Asks at ha
      cases hv : input.value
      case none =>
        rw [hv] at ha
        exact hd <| .inr ha.left
      case some => exact hd <| .inl <| hv ▸ rfl
    case refine_1 =>
      refine wp_bind.mpr <| wp_applyAssetParameterUpdate hd (hu.unused 0 <| Nat.zero_lt_succ _)
        (fun entry d₁ ha hs => ?_) fun h e hc => h <| hc input (.head _)
      have hcarried : Carried laboratoryId allowDelete inputs d₁ ↔
          Carried laboratoryId allowDelete inputs d :=
        forall₂_congr fun i _ => exists_congr fun _ => asks_congr hs.elsewhere
      have htypes : d₁.assetParameterTypes = d.assetParameterTypes := by rw [hs.elsewhere]
      rw [← show defined laboratoryId d₁ inputs = inputs.map _ from defined_congr htypes]
      refine wp_imp (wp_mono (ih (hu.tail hs) hn) fun _ d' h => ?_) (fun _ => id) fun e he hc => ?_
      case refine_1 =>
        exact ⟨List.forall_mem_cons.mpr ⟨⟨entry, ha⟩, hcarried.mp h.left⟩, h.right.cons hne ha hs⟩
      case refine_2 => exact he <| hcarried.mpr (List.forall_mem_cons.mp hc).right

theorem wp_applyAssetParameterUpdates (hu : UnusedValues newIds inputs.length d) :
    (applyAssetParameterUpdates laboratoryId assetId inputs allowDelete newIds).wp (fun _ => True)
      (fun _ => ¬((inputs.map (·.parameterTypeId)).Nodup ∧ Carried laboratoryId allowDelete inputs d))
      (fun _ d' => ((inputs.map (·.parameterTypeId)).Nodup ∧
        Carried laboratoryId allowDelete inputs d) ∧
        Overwritten laboratoryId assetId allowDelete inputs d d') d := by
  refine wp_bind.mpr <| wp_require.mpr ⟨fun hn => ?_, fun hn h => hn h.left⟩
  refine wp_bind.mpr <| wp_fetchParameterDefinitions.mpr ?_
  refine wp_imp (wp_mono (wp_applyParameterUpdates hu hn) fun _ d' h => ?_) (fun _ => id)
    fun e he h => he h.right
  exact ⟨⟨hn, h.left⟩, h.right⟩

-- Whether the inputs can be carried out does not depend on their order, nor does the outcome.
theorem Overwritten.perm {d₂ : Database} (hp : inputs.Perm inputs')
    (h : Overwritten laboratoryId assetId allowDelete inputs d d')
    (h' : Overwritten laboratoryId assetId allowDelete inputs' d d₂) :
    valueAt a p d₂ = valueAt a p d' := by
  by_cases ha : a = assetId
  case neg => rw [h.others a p ha, h'.others a p ha]
  case pos =>
    subst ha
    by_cases hi : ∃ input ∈ inputs, input.parameterTypeId = p
    case pos =>
      obtain ⟨input, hi, rfl⟩ := hi
      exact (h'.asked input <| hp.mem_iff.mp hi).unique <| h.asked input hi
    case neg =>
      have hn : ∀ input ∈ inputs, input.parameterTypeId ≠ p := fun input hm he => hi ⟨input, hm, he⟩
      rw [h.kept p hn, h'.kept p fun input hm => hn input <| hp.mem_iff.mpr hm]

-- What the tables ask for besides: the asset is stored, and its texts can be.
structure Storable (assetId : Uuid) (inputs : List AssetParameterValueInput) (d : Database) :
    Prop where
  asset : (d.assets.find? assetId).isSome
  texts : ∀ input ∈ inputs, ∀ text, input.value = some (.string text) → StorableText text

theorem parameter_updates_overwrite (hu : UnusedValues newIds inputs.length d) :
    ((∃ d', (applyAssetParameterUpdates laboratoryId assetId inputs allowDelete newIds).run d =
        .ok ((), d')) →
      (inputs.map (·.parameterTypeId)).Nodup ∧ Carried laboratoryId allowDelete inputs d) ∧
    (Storable assetId inputs d → (inputs.map (·.parameterTypeId)).Nodup →
      Carried laboratoryId allowDelete inputs d →
      ∃ d', (applyAssetParameterUpdates laboratoryId assetId inputs allowDelete newIds).run d =
        .ok ((), d')) ∧
    (∀ d', (applyAssetParameterUpdates laboratoryId assetId inputs allowDelete newIds).run d =
        .ok ((), d') → Overwritten laboratoryId assetId allowDelete inputs d d') ∧
    (¬Carried laboratoryId allowDelete inputs d →
      (applyAssetParameterUpdates laboratoryId assetId inputs allowDelete newIds).after d = d) ∧
    ∀ inputs' newIds', inputs.Perm inputs' → UnusedValues newIds' inputs'.length d → ∀ d',
      (applyAssetParameterUpdates laboratoryId assetId inputs allowDelete newIds).run d = .ok ((), d') →
      ∃ d₂, (applyAssetParameterUpdates laboratoryId assetId inputs' allowDelete newIds').run d =
        .ok ((), d₂) ∧ ∀ a p, valueAt a p d₂ = valueAt a p d' := by
  have hw {inputs : List AssetParameterValueInput} {newIds : NewIds}
      (hu : UnusedValues newIds inputs.length d) :
      (applyAssetParameterUpdates laboratoryId assetId inputs allowDelete newIds).wp _ _ _ d :=
    wp_applyAssetParameterUpdates hu
  have hsucceeds {inputs : List AssetParameterValueInput} {newIds : NewIds}
      (hu : UnusedValues newIds inputs.length d)
      (h : (inputs.map (·.parameterTypeId)).Nodup ∧ Carried laboratoryId allowDelete inputs d) :
      ∃ d', (applyAssetParameterUpdates laboratoryId assetId inputs allowDelete newIds).run d =
        .ok ((), d') := by
    cases hr : (applyAssetParameterUpdates laboratoryId assetId inputs allowDelete newIds).run d
    case error e =>
      have hn := wp_run_error (hw hu) hr
      exact absurd h hn
    case ok result => exact ⟨result.2, rfl⟩
  refine ⟨fun ⟨d', hr⟩ => (wp_run (hw hu) hr).left, fun _ hn hc => hsucceeds hu ⟨hn, hc⟩,
    fun d' hr => ?_, fun hn => ?_, fun inputs' newIds' hp hu' d' hr => ?_⟩
  case refine_1 => exact (wp_run (hw hu) hr).right
  case refine_2 =>
    cases hr : (applyAssetParameterUpdates laboratoryId assetId inputs allowDelete newIds).run d
    case ok result => exact absurd (wp_run (hw hu) hr).left.right hn
    case error e => exact after_of_error hr
  case refine_3 =>
    obtain ⟨⟨hn, hc⟩, ho⟩ := wp_run (hw hu) hr
    have hn' := (hp.map (·.parameterTypeId)).nodup_iff.mp hn
    obtain ⟨d₂, hr₂⟩ := hsucceeds hu' ⟨hn', fun input hi => hc input <| hp.mem_iff.mpr hi⟩
    exact ⟨d₂, hr₂, fun a p => ho.perm hp (wp_run (hw hu') hr₂).right⟩

end Batches

section Examples

def crate : AssetRow where
  assetId := 3
  laboratoryId := 1
  categoryId := none
  trackingMode := .quantity
  name := "Crate"
  model := none
  manufacturer := none
  inventoryUnitId := 8
  publicNotes := none
  internalNotes := none

def textOf (text : String) : ParameterValueColumns :=
  { ParameterValueColumns.empty with valueText := some text }

-- There is a note and a remark about the crate.
def noted : Database := { Database.empty with
  assets := {crate}
  assetParameterTypes := ⟨[
    ⟨5, 1, "note", "Note", .text, none, none, none⟩,
    ⟨6, 1, "remark", "Remark", .text, none, none, none⟩
  ], by decide, by decide⟩
  assetParameterValues := ⟨[
    ⟨40, 1, 3, 5, .text, textOf "heavy"⟩,
    ⟨41, 1, 3, 6, .text, textOf "on loan"⟩
  ], by decide, by decide⟩
}

-- The note is overwritten, and the remark removed.
def revision : List AssetParameterValueInput :=
  [⟨5, some <| .string "fragile"⟩, ⟨6, none⟩]

theorem parameter_updates_overwrite_noted :
    let _ := tallied
    ∃ d', (applyAssetParameterUpdates 1 3 revision true (8 + ·)).run noted = .ok ((), d') ∧
      Overwritten 1 3 true revision noted d' ∧ valueAt 3 5 d' = some (.text, textOf "fragile") ∧
      valueAt 3 6 d' = none := by
  let _ := tallied
  have hu : UnusedValues (8 + ·) revision.length noted := by
    have htwo {n : Nat} (hn : n < revision.length) : n = 0 ∨ n = 1 := by
      have hlength : revision.length = 2 := rfl
      omega
    refine ⟨fun m hm n hn he => ?_, fun n hn => ?_⟩
    case refine_1 =>
      obtain rfl | rfl := htwo hm <;> obtain rfl | rfl := htwo hn
      all_goals first | rfl | exact absurd he (by decide)
    case refine_2 =>
      obtain rfl | rfl := htwo hn <;> rfl
  have hnote : Asks 1 true noted ⟨5, some <| .string "fragile"⟩ (some (.text, textOf "fragile")) :=
    ⟨⟨5, .text, none, none⟩, .text "fragile", _, rfl, rfl, rfl, rfl, rfl⟩
  have hremark : Asks 1 true noted ⟨6, none⟩ none := ⟨rfl, rfl⟩
  have hc : Carried 1 true revision noted := by
    exact List.forall_mem_cons.mpr ⟨⟨_, hnote⟩, List.forall_mem_singleton.mpr ⟨_, hremark⟩⟩
  have hs : Storable 3 revision noted := by
    refine ⟨rfl, List.forall_mem_cons.mpr ⟨fun text ht => ?_, List.forall_mem_singleton.mpr nofun⟩⟩
    obtain rfl := Json.string.inj (Option.some.inj ht)
    decide
  obtain ⟨d', hr⟩ := (parameter_updates_overwrite hu).right.left hs (by decide) hc
  have ho := (parameter_updates_overwrite hu).right.right.left d' hr
  refine ⟨d', hr, ho, ?_, ?_⟩
  case refine_1 => exact (ho.asked _ (.head _)).unique hnote
  case refine_2 => exact (ho.asked _ (.tail _ (.head _))).unique hremark

end Examples

end Assets

end LabInventory
