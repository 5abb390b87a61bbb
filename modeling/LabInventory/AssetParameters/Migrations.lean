import LabInventory.AssetParameters.Replacement

open Sql Program

namespace LabInventory

namespace AssetParameters

-- What the migration of a value says about it: nothing, that it is removed, or what it becomes.
def migrationOf (migrations : List UpdateAssetParameterValueMigration)
    (value : AssetParameterValueRow) : Option (Option Json) :=
  (migrations.find? (·.valueId = value.valueId)).map (·.value)

-- The id of an option takes precedence over its code.
def namedCode (target : Json) : Option String :=
  if (target.get "option_id").isSome then
    none
  else
    (target.get "option_code").bind Json.asStr

def Names (migrations : List UpdateAssetParameterValueMigration) (value : AssetParameterValueRow)
    (code : String) : Prop :=
  ∃ target raw, migrationOf migrations value = some (some target) ∧ namedCode target = some raw ∧
    AssetParameterCode.parse raw = .ok code

inductive Destination
  | existing (optionId : Uuid)
  | new (code label : String)
deriving DecidableEq

variable [TextFormats] [UnicodeSegmentation]

def newOption (target : Json) (raw : String) : Option Destination :=
  (migrationLabel target raw).bind fun label =>
    match AssetParameterCode.parse raw, AssetParameterOptionLabel.parse label with
    | .ok code, .ok label => if [code, label].all StorableText then some (.new code label) else none
    | _, _ => none

def optionOfCode (known : List AssetParameterOptionRow) (target : Json) (raw : String) :
    Option Destination :=
  match known.find? (·.code = raw) with
  | some option => some (.existing option.optionId)
  | none => newOption target raw

-- Where a migration leads, given the options that the parameter has when it is its turn. Without a
-- destination, the request is rejected.
def destination (known : List AssetParameterOptionRow) (target : Json) : Option Destination :=
  if (target.get "option_id").isSome ∨ (target.get "option_code").isNone then
    match AssetParameterValue.parse .enum target with
    | .ok (.enum optionId) =>
      if known.any (·.optionId = optionId) then some (.existing optionId) else none
    | _ => none
  else
    ((target.get "option_code").bind Json.asStr).bind <| optionOfCode known target

def migratedOption (parameterId newId : Uuid) (code label : String) : AssetParameterOptionRow where
  optionId := newId
  parameterTypeId := parameterId
  code := code
  label := label
  sortOrder := 0

-- No migration names an option that is already there by a code that is only found once it has been
-- trimmed.
def Undisputed (parameterId : Uuid) (migrations : List UpdateAssetParameterValueMigration)
    (newIds : NewIds) (known : List AssetParameterOptionRow) : List AssetParameterValueRow → Prop
  | [] => True
  | value :: values =>
    match migrationOf migrations value with
    | none => True
    | some none => Undisputed parameterId migrations (newIds <| · + 1) known values
    | some (some target) =>
      match destination known target with
      | none => True
      | some (.existing _) => Undisputed parameterId migrations (newIds <| · + 1) known values
      | some (.new code label) => (∀ o ∈ known, o.code ≠ code) ∧
        Undisputed parameterId migrations (newIds <| · + 1)
          (migratedOption parameterId (newIds 0) code label :: known) values

variable {d d₁ d' : Database} {p id newId : Uuid} {newIds : NewIds} {target : Json}
  {code label raw : String} {definition : ParameterValueDefinition}
  {migrations : List UpdateAssetParameterValueMigration}
  {value : AssetParameterValueRow} {values : List AssetParameterValueRow}
  {known known₁ known' : List AssetParameterOptionRow}
  {R : ApiError → Prop}

section Destination

omit [TextFormats] [UnicodeSegmentation] in
theorem not_passed (hn : namedCode target = some raw) :
    ¬((target.get "option_id").isSome ∨ (target.get "option_code").isNone) := by
  unfold namedCode at hn
  split at hn
  case isTrue => exact nomatch hn
  case isFalse hi =>
    rintro (hs | hc)
    · exact hi hs
    · rw [Option.isNone_iff_eq_none.mp hc] at hn
      exact nomatch hn

theorem destination_of_not_passed
    (h : ¬((target.get "option_id").isSome ∨ (target.get "option_code").isNone)) :
    destination known target = (namedCode target).bind (optionOfCode known target) := by
  rw [destination, if_neg h, namedCode, if_neg fun hi => h <| .inl hi]

omit [TextFormats] in
theorem newOption_eq_some {place : Destination} (h : newOption target raw = some place) :
    ∃ label code label', migrationLabel target raw = some label ∧
      AssetParameterCode.parse raw = .ok code ∧ AssetParameterOptionLabel.parse label = .ok label' ∧
      place = .new code label' := by
  obtain ⟨label, hl, h⟩ := Option.bind_eq_some_iff.mp h
  split at h
  case h_1 code label' hc hl' =>
    obtain ⟨_, h⟩ := Option.ite_none_right_eq_some.mp h
    exact ⟨label, code, label', hl, hc, hl', (Option.some.inj h).symm⟩
  case h_2 => exact nomatch h

-- A code that has been parsed is found as it is.
theorem destination_existing (hc : ∀ o ∈ known, AssetParameterCode.parse o.code = .ok o.code)
    (hn : namedCode target = some raw) (hp : AssetParameterCode.parse raw = .ok code)
    (hd : destination known target = some (.existing id)) :
    ∃ o ∈ known, o.optionId = id ∧ o.code = code := by
  rw [destination_of_not_passed <| not_passed hn, hn, Option.bind_some, optionOfCode] at hd
  split at hd
  case h_1 option hf =>
    have ho := List.mem_of_find?_eq_some hf
    have hr : option.code = raw := by simpa using List.find?_some hf
    refine ⟨option, ho, Destination.existing.inj <| Option.some.inj hd, ?_⟩
    exact Except.ok.inj <| (hc option ho).symm.trans <| hr ▸ hp
  case h_2 =>
    obtain ⟨_, _, _, _, _, _, he⟩ := newOption_eq_some hd
    exact nomatch he

theorem destination_new (hd : destination known target = some (.new code label)) :
    ∃ raw, namedCode target = some raw ∧ AssetParameterCode.parse raw = .ok code := by
  by_cases hpass : (target.get "option_id").isSome ∨ (target.get "option_code").isNone
  case pos =>
    rw [destination, if_pos hpass] at hd
    split at hd
    case h_1 =>
      split at hd
      case isTrue => exact nomatch hd
      case isFalse => exact nomatch hd
    case h_2 => exact nomatch hd
  case neg =>
    rw [destination_of_not_passed hpass] at hd
    obtain ⟨raw, hr, hd⟩ := Option.bind_eq_some_iff.mp hd
    unfold optionOfCode at hd
    split at hd
    case h_1 => exact nomatch hd
    case h_2 =>
      obtain ⟨_, _, _, _, hc, _, he⟩ := newOption_eq_some hd
      obtain ⟨rfl, _⟩ := Destination.new.inj he
      exact ⟨raw, hr, hc⟩

end Destination

section Steps

-- No two options of the parameter have the same code.
omit [TextFormats] [UnicodeSegmentation] in
theorem Fetched.find?_code (hf : Fetched p d known) : known.find? (·.code = raw) =
    d.assetParameterOptions.rows.find? fun r => r.parameterTypeId = p ∧ r.code = raw := by
  cases h : d.assetParameterOptions.rows.find? fun r => r.parameterTypeId = p ∧ r.code = raw
  case none =>
    refine List.find?_eq_none.mpr fun o ho hc => ?_
    obtain ⟨ho, hp⟩ := (hf o).mp ho
    exact List.find?_eq_none.mp h o ho <| decide_eq_true ⟨hp, of_decide_eq_true hc⟩
  case some o =>
    have ho := List.mem_of_find?_eq_some h
    obtain ⟨hp, hc⟩ : o.parameterTypeId = p ∧ o.code = raw := by simpa using List.find?_some h
    cases hk : known.find? (·.code = raw)
    case none =>
      exact absurd (decide_eq_true hc) <| List.find?_eq_none.mp hk o <| (hf o).mpr ⟨ho, hp⟩
    case some o' =>
      obtain ⟨ho', hp'⟩ := (hf o').mp <| List.mem_of_find?_eq_some hk
      have hc' : o'.code = raw := by simpa using List.find?_some hk
      rw [codes_distinct ho' ho (hp'.trans hp.symm) (hc'.trans hc.symm)]

-- What is known when the given values remain to be migrated. All codes have been parsed before they
-- are stored.
structure Migrating (definition : ParameterValueDefinition) (newIds : NewIds)
    (known : List AssetParameterOptionRow) (values : List AssetParameterValueRow) (d : Database) :
    Prop where
  options : Fetched definition.parameterTypeId d known
  coded : ∀ o ∈ known, AssetParameterCode.parse o.code = .ok o.code
  parameter : (d.assetParameterTypes.find? definition.parameterTypeId).isSome
  fresh : Unused newIds values.length d
  stored : ∀ v ∈ values, d.assetParameterValues.find? v.valueId = some v ∧
    v.parameterTypeId = definition.parameterTypeId ∧ v.HasBaseRange
  distinct : values.Pairwise (·.valueId ≠ ·.valueId)

-- Nothing but the given value has changed.
structure Turned (valueId : Uuid) (r : Option AssetParameterValueRow) (d d' : Database) : Prop where
  find? : ∀ k, d'.assetParameterValues.find? k =
    if valueId = k then r else d.assetParameterValues.find? k
  elsewhere : d' = { d with assetParameterValues := d'.assetParameterValues }

def enumColumns (optionId : Uuid) : ParameterValueColumns :=
  { ParameterValueColumns.empty with valueOptionId := some optionId }

def enumRow (value : AssetParameterValueRow) (optionId : Uuid) : AssetParameterValueRow where
  valueId := value.valueId
  laboratoryId := value.laboratoryId
  assetId := value.assetId
  parameterTypeId := value.parameterTypeId
  dataType := .enum
  columns := value.columns.migrate .enum (enumColumns optionId)

def optionConflict : ApiError :=
  .conflict "Asset parameter option code already exists"

omit [UnicodeSegmentation] in
theorem parse_optionReference : AssetParameterValue.parse .enum (optionReference id) = .ok (.enum id) := by
  simp [AssetParameterValue.parse, AssetParameterValue.parseOption,
    AssetParameterValue.parseUuidField, optionReference, Json.asStr, Json.get,
    UuidFormat.parseUuid_showUuid]

omit [UnicodeSegmentation] in
theorem wp_resolveOption {I : Database → Prop} {Q : ResolvedParameterValue → Database → Prop}
    (hd : definition.dataType = .enum) (ht : AssetParameterValue.parse .enum target = .ok (.enum id))
    (hi : IsOption definition.parameterTypeId id d)
    (hq : Q ⟨definition.parameterTypeId, definition.dataType, enumColumns id⟩ d) :
    (ParameterValues.resolveParameterValue definition target).wp I R Q d := by
  obtain ⟨o, ho, rfl, hp⟩ := hi
  have hr : ParameterValues.Resolves definition d (.enum o.optionId) (enumColumns o.optionId) :=
    ⟨⟨o, Table.find?_key ho, hp⟩, rfl⟩
  exact ParameterValues.wp_resolveParameterValue (hd ▸ ht) hr hq

omit [UnicodeSegmentation] in
theorem wp_resolveOption_unknown {I : Database → Prop}
    {Q : ResolvedParameterValue → Database → Prop} (hd : definition.dataType = .enum)
    (hr : ∀ m, R (.validation m)) (hi : ∀ id, AssetParameterValue.parse .enum target = .ok (.enum id) →
      ¬IsOption definition.parameterTypeId id d) :
    (ParameterValues.resolveParameterValue definition target).wp I R Q d := by
  simp only [ParameterValues.resolveParameterValue, wp_bind, Transaction.wp_validated, hd]
  refine ⟨fun v hv => ?_, fun e _ => hr e⟩
  have ht := AssetParameterValue.dataType_of_parse hv
  cases v
  case enum id =>
    simp only [ParameterValues.resolveColumns, ParameterValues.validateOption, wp_bind,
      wp_selectForUpdate, wp_require]
    refine ⟨fun hf => absurd ?_ (hi id hv), fun _ => hr _⟩
    obtain ⟨o, ho⟩ := Option.isSome_iff_exists.mp hf
    obtain ⟨ho, hp⟩ := Option.filter_eq_some_iff.mp ho
    obtain ⟨ho, hk⟩ := Table.find?_eq_some.mp ho
    exact ⟨o, ho, hk, of_decide_eq_true hp⟩
  all_goals cases ht

-- A new option can only be rejected because of its code.
omit [TextFormats] [UnicodeSegmentation] in
theorem insertOption_eq_error {r : AssetParameterOptionRow} {c : Constraint}
    (hk : d.assetParameterOptions.find? r.optionId = none)
    (hp : (d.assetParameterTypes.find? r.parameterTypeId).isSome)
    (h : d.apply (.assetParameterOptions (.insert r)) = .error c) :
    d.assetParameterOptions.clash? r ≠ none ∧ c = .assetParameterOptionsCodeKey := by
  cases hc : d.assetParameterOptions.clash? r
  case none =>
    obtain ⟨t, hi⟩ := Table.exists_insert (Table.find?_eq_none.mp hk) hc
    have ha : d.apply (.assetParameterOptions (.insert r)) =
        .ok { d with assetParameterOptions := t } := (apply_option <| .inl rfl).mpr ⟨hi, hp, rfl⟩
    exact nomatch ha.symm.trans h
  case some c' =>
    have ha : d.apply (.assetParameterOptions (.insert r)) = .error c' := by
      change (d.assetParameterOptions.insert r >>= _) = _
      rw [Table.insert_eq_error (Table.find?_eq_none.mp hk) hc]
      rfl
    refine ⟨Option.some_ne_none _, ?_⟩
    obtain rfl := Except.error.inj <| ha.symm.trans h
    obtain ⟨o, _, hc⟩ := List.exists_of_findSome?_eq_some hc
    split at hc
    case isTrue => exact nomatch hc
    case isFalse =>
      obtain ⟨ix, hx, rfl⟩ := Option.map_eq_some_iff.mp hc
      obtain rfl := List.mem_singleton.mp <| List.mem_of_find?_eq_some hx
      rfl

omit [TextFormats] [UnicodeSegmentation] in
theorem wp_insertMigrated {Q : Uuid → Database → Prop} (hf : Fetched p d known)
    (hp : (d.assetParameterTypes.find? p).isSome) (hn : d.assetParameterOptions.find? newId = none)
    (hq : (∀ o ∈ known, o.code ≠ code) → ∀ d', Written (migratedOption p newId code label) d d' →
      Q newId d')
    (hr : ¬(∀ o ∈ known, o.code ≠ code) → R optionConflict)
    (hs : ∀ s ∈ [code, label], StorableText s) :
    (insertMigratedAssetParameterOption p newId code label).wp (fun _ => True) R Q d := by
  have hclash : d.assetParameterOptions.clash? (migratedOption p newId code label) = none ↔
      ∀ o ∈ known, o.code ≠ code := by
    have hrow : d.assetParameterOptions.clash?
      ((⟨none, code, label, 0⟩ : UpdateAssetParameterOption).row p newId) = none ↔ _ := clash?_row
    refine hrow.trans ⟨fun h o ho => ?_, fun h o ho _ hp => h o <| (hf o).mpr ⟨ho, hp⟩⟩
    obtain ⟨ho, hp⟩ := (hf o).mp ho
    exact h o ho (Table.find?_eq_none.mp hn o ho) hp
  refine wp_bind.mpr <| Transaction.wp_bindTexts.mpr ⟨fun _ => ?_, fun hn => absurd hs hn⟩
  refine wp_bind.mpr <| wp_exec.mpr ⟨fun d' ha => ⟨trivial, ?_⟩, fun c hc => ?_⟩
  case refine_1 =>
    obtain ⟨hi, _, hd⟩ := (apply_option <| .inl rfl).mp ha
    exact hq (hclash.mp (Table.insert_eq_ok.mp hi).right.left) d' ⟨fun k => Table.find?_insert hi, hd⟩
  case refine_2 =>
    obtain ⟨hne, rfl⟩ := insertOption_eq_error hn hp hc
    exact hr <| mt hclash.mpr hne

theorem wp_settle {Q : ResolvedParameterValue → Database → Prop} (hd : definition.dataType = .enum)
    (h : Migrating definition newIds known (value :: values) d)
    (hv : destination known target = none → ∀ e, e ≠ optionConflict → R e)
    (hx : ∀ id, destination known target = some (.existing id) →
      IsOption definition.parameterTypeId id d →
      Q ⟨definition.parameterTypeId, definition.dataType, enumColumns id⟩ d)
    (hn : ∀ code label, destination known target = some (.new code label) →
      (∀ o ∈ known, o.code ≠ code) → ∀ d', Written
        (migratedOption definition.parameterTypeId (newIds 0) code label) d d' →
      Q ⟨definition.parameterTypeId, definition.dataType, enumColumns (newIds 0)⟩ d')
    (hc : ∀ code label, destination known target = some (.new code label) →
      ¬(∀ o ∈ known, o.code ≠ code) → R optionConflict) :
    (resolveMigrationTarget definition.parameterTypeId definition.dataType target (newIds 0) >>=
      ParameterValues.resolveParameterValue definition).wp (fun _ => True) R Q d := by
  have hknown {id : Uuid} : (∃ o ∈ known, o.optionId = id) ↔ IsOption definition.parameterTypeId id d := by
    refine exists_congr fun o => ?_
    rw [h.options o, and_assoc, and_comm (a := o.parameterTypeId = _)]
  by_cases hpass : (target.get "option_id").isSome ∨ (target.get "option_code").isNone
  case pos =>
    have hr : resolveMigrationTarget definition.parameterTypeId definition.dataType target
        (newIds 0) = .done target := if_pos <| .inr hpass
    rw [hr]
    by_cases hi : ∃ id, AssetParameterValue.parse .enum target = .ok (.enum id) ∧
      IsOption definition.parameterTypeId id d
    case pos =>
      obtain ⟨id, ht, hi⟩ := hi
      refine wp_resolveOption hd ht hi <| hx id ?_ hi
      have hany : known.any (·.optionId = id) := by simpa using hknown.mpr hi
      simp only [destination, if_pos hpass, ht, hany, if_true]
    case neg =>
      refine wp_resolveOption_unknown hd (fun m => hv ?_ _ nofun) fun id ht hi' => hi ⟨id, ht, hi'⟩
      rw [destination, if_pos hpass]
      split
      case h_1 id ht => exact if_neg fun hany => hi ⟨id, ht, hknown.mp <| by simpa using hany⟩
      case h_2 => rfl
  case neg =>
    have hplace : destination known target = _ := destination_of_not_passed hpass
    rw [namedCode, if_neg fun hi => hpass <| .inl hi] at hplace
    refine wp_bind.mpr ?_
    unfold resolveMigrationTarget
    rw [if_neg <| not_or.mpr ⟨not_not.mpr hd, hpass⟩]
    split
    case h_2 hraw =>
      refine hv (hplace.trans ?_) _ nofun
      rw [Option.eq_none_iff_forall_ne_some.mpr hraw]
      rfl
    case h_1 raw hraw =>
      rw [hraw, Option.bind_some, optionOfCode, h.options.find?_code] at hplace
      refine wp_bind.mpr <| wp_read.mpr ?_
      cases hf : d.assetParameterOptions.rows.find? fun r =>
        r.parameterTypeId = definition.parameterTypeId ∧ r.code = raw
      case some o =>
        rw [hf] at hplace
        simp only [Option.map_some]
        have ho : IsOption definition.parameterTypeId o.optionId d := by
          have hp : o.parameterTypeId = definition.parameterTypeId ∧ o.code = raw := by
            simpa using List.find?_some hf
          exact ⟨o, List.mem_of_find?_eq_some hf, rfl, hp.left⟩
        exact wp_resolveOption hd parse_optionReference ho <| hx _ hplace ho
      case none =>
        rw [hf] at hplace
        simp only [Option.map_none]
        split
        case h_2 hl =>
          refine hv (hplace.trans ?_) _ nofun
          rw [newOption, Option.eq_none_iff_forall_ne_some.mpr hl]
          rfl
        case h_1 label hl =>
          simp only [wp_bind, Transaction.wp_validated]
          refine ⟨fun code hcode => ⟨fun label' hlabel => ?_, fun e he => hv ?_ _ nofun⟩,
            fun e he => hv ?_ _ nofun⟩
          case refine_2 => rw [hplace, newOption, hl, Option.bind_some, hcode, he]
          case refine_3 => rw [hplace, newOption, hl, Option.bind_some, he]
          by_cases hs : ∀ s ∈ [code, label'], StorableText s
          case neg =>
            refine wp_bind.mpr <| Transaction.wp_bindTexts.mpr ⟨fun h => absurd h hs, fun _ => ?_⟩
            refine hv (hplace.trans ?_) _ (by decide)
            simp only [newOption, hl, hcode, hlabel, Option.bind_some, List.all_eq_true, hs, if_false]
          have hdest : destination known target = some (.new code label') := by
            rw [hplace]
            simp only [newOption, hl, hcode, hlabel, Option.bind_some, List.all_eq_true.mpr hs, if_true]
          refine wp_mono (wp_insertMigrated h.options h.parameter
            (h.fresh.unused 0 <| Nat.zero_lt_succ _) (Q := fun id d' => id = newIds 0 ∧ Written
              (migratedOption definition.parameterTypeId (newIds 0) code label') d d' ∧
              ∀ o ∈ known, o.code ≠ code)
            (fun hne d' hw => ⟨rfl, hw, hne⟩) (hc code label' hdest) hs) fun id d' h' => ?_
          obtain ⟨rfl, hw, hne⟩ := h'
          have ho : IsOption definition.parameterTypeId (newIds 0) d' :=
            ⟨_, hw.mem.mpr <| .inl rfl, rfl, rfl⟩
          exact wp_resolveOption hd parse_optionReference ho <| hn code label' hdest hne d' hw

omit [TextFormats] [UnicodeSegmentation] in
theorem wp_turn {columns : ParameterValueColumns}
    (hs : d.assetParameterValues.find? value.valueId = some value)
    (hp : value.parameterTypeId = p) (hb : value.HasBaseRange) (hi : IsOption p id d)
    (hc : columns = enumColumns id) :
    (migrateAssetParameterValueInDatabase value.valueId .enum ⟨p, .enum, columns⟩).wp
      (fun _ => True) R (fun _ => Turned value.valueId (some (enumRow value id)) d) d := by
  subst hc hp
  have hm := (Table.find?_eq_some.mp hs).left
  have hclash : d.assetParameterValues.clash? (enumRow value id) = none :=
    Table.clash?_of_entries hm rfl <| List.forall_mem_singleton.mpr rfl
  obtain ⟨t, hu⟩ := Table.exists_update hclash
  have ha : d.apply (.assetParameterValues (.update (enumRow value id))) =
      .ok { d with assetParameterValues := t } := by
    refine Except.bind_eq_ok.mpr ⟨(), Except.check_eq_ok.mpr rfl, ?_⟩
    refine Except.bind_eq_ok.mpr ⟨(), Except.check_eq_ok.mpr hb, ?_⟩
    refine Except.bind_eq_ok.mpr ⟨t, hu, ?_⟩
    refine Except.bind_eq_ok.mpr ⟨(), Except.check_eq_ok.mpr ?_, rfl⟩
    obtain ⟨o, ho, rfl, hp⟩ := hi
    have hf : d.assetParameterOptions.find? o.optionId = some o := Table.find?_key ho
    change (d.assetParameterOptions.find? o.optionId).any
      (·.parameterTypeId = value.parameterTypeId) = true
    rw [hf]
    exact decide_eq_true hp
  refine wp_bind.mpr <| wp_read.mpr ?_
  rw [hs]
  refine wp_exec.mpr ⟨fun d' hd => ⟨trivial, ?_⟩, fun c hd => nomatch ha.symm.trans hd⟩
  obtain rfl := Except.ok.inj <| ha.symm.trans hd
  exact ⟨fun k => Table.find?_update_of_mem hu hm rfl, rfl⟩

theorem wp_migrateParameterValue {Q : Unit → Database → Prop} (hd : definition.dataType = .enum)
    (h : Migrating definition newIds known (value :: values) d)
    (hu : migrationOf migrations value = none → ∀ m, R (.validation m))
    (hv : ∀ target, migrationOf migrations value = some (some target) →
      destination known target = none → ∀ e, e ≠ optionConflict → R e)
    (hdel : migrationOf migrations value = some none → ∀ d', Turned value.valueId none d d' → Q () d')
    (hx : ∀ target id, migrationOf migrations value = some (some target) →
      destination known target = some (.existing id) →
      ∀ d', Turned value.valueId (some (enumRow value id)) d d' → Q () d')
    (hn : ∀ target code label, migrationOf migrations value = some (some target) →
      destination known target = some (.new code label) → (∀ o ∈ known, o.code ≠ code) →
      ∀ d₁ d', Written (migratedOption definition.parameterTypeId (newIds 0) code label) d d₁ →
      Turned value.valueId (some (enumRow value (newIds 0))) d₁ d' → Q () d')
    (hc : ∀ target code label, migrationOf migrations value = some (some target) →
      destination known target = some (.new code label) → ¬(∀ o ∈ known, o.code ≠ code) →
      R optionConflict) :
    (migrateParameterValue definition migrations (newIds 0) value).wp (fun _ => True) R Q d := by
  obtain ⟨hs, hp, hb⟩ := h.stored value (.head _)
  unfold migrateParameterValue
  cases hf : migrations.find? (·.valueId = value.valueId)
  case none => exact hu (by rw [migrationOf, hf]; rfl) _
  case some m =>
    have hm : migrationOf migrations value = some m.value := by rw [migrationOf, hf]; rfl
    cases ht : m.value
    case none =>
      simp only [ht]
      refine wp_exec.mpr ⟨fun d' ha => ⟨trivial, hdel (ht ▸ hm) d' ⟨fun k => ?_, ?_⟩⟩, fun c ha => ?_⟩
      case refine_1 =>
        rw [← Except.ok.inj (Database.applied_of_apply ha).left, Table.find?_delete]
        exact if_congr eq_comm rfl rfl
      case refine_2 => exact (Database.applied_of_apply ha).right
      case refine_3 => exact nomatch ha
    case some target =>
      rw [ht] at hm
      simp only [ht]
      rw [← bind_assoc]
      refine wp_bind.mpr <| wp_settle hd h (hv target hm) (fun id hplace hi => ?_)
        (fun code label hplace hne d₁ hw => ?_) fun code label hplace => hc target code label hm hplace
      case refine_1 =>
        rw [hd]
        exact wp_mono (wp_turn hs hp hb hi rfl) fun _ d' => hx target id hm hplace d'
      case refine_2 =>
        have hs₁ : d₁.assetParameterValues.find? value.valueId = some value := by
          rw [hw.elsewhere]
          exact hs
        have hi : IsOption definition.parameterTypeId (newIds 0) d₁ :=
          ⟨_, hw.mem.mpr <| .inl rfl, rfl, rfl⟩
        rw [hd]
        exact wp_mono (wp_turn hs₁ hp hb hi rfl) fun _ d' =>
          hn target code label hm hplace hne d₁ d' hw

end Steps

section Runs

def Lands (value : AssetParameterValueRow) (option : AssetParameterOptionRow) (d : Database) : Prop :=
  ∃ r, d.assetParameterValues.find? value.valueId = some r ∧
    r.columns.valueOptionId = some option.optionId

-- What the given values have been migrated to.
structure Settled (parameterId : Uuid) (migrations : List UpdateAssetParameterValueMigration)
    (known known' : List AssetParameterOptionRow) (values : List AssetParameterValueRow)
    (d d' : Database) : Prop where
  options : Fetched parameterId d' known'
  kept : ∀ o ∈ known, o ∈ known'
  created : ∀ o ∈ known', o ∈ known ∨ ((∀ o' ∈ known, o'.code ≠ o.code) ∧
    ∃ v ∈ values, Names migrations v o.code)
  landed : ∀ v ∈ values, ∀ code, Names migrations v code →
    ∃ o ∈ known', o.code = code ∧ Lands v o d'
  others : ∀ k, (∀ v ∈ values, v.valueId ≠ k) →
    d'.assetParameterValues.find? k = d.assetParameterValues.find? k

omit [TextFormats] [UnicodeSegmentation] in
theorem Settled.cons (hk : ∀ o ∈ known, o ∈ known₁)
    (hc : ∀ o ∈ known₁, o ∈ known ∨ ((∀ o' ∈ known, o'.code ≠ o.code) ∧ Names migrations value o.code))
    (hl : ∀ code, Names migrations value code → ∃ o ∈ known₁, o.code = code ∧ Lands value o d₁)
    (ho : ∀ k, value.valueId ≠ k → d₁.assetParameterValues.find? k = d.assetParameterValues.find? k)
    (hd : ∀ v ∈ values, value.valueId ≠ v.valueId)
    (h : Settled p migrations known₁ known' values d₁ d') :
    Settled p migrations known known' (value :: values) d d' where
  options := h.options
  kept o hm := h.kept o (hk o hm)
  created o hm := by
    obtain hm | ⟨hn, v, hv, hname⟩ := h.created o hm
    case inl =>
      exact (hc o hm).imp_right fun hn => ⟨hn.left, value, .head _, hn.right⟩
    case inr => exact .inr ⟨fun o' ho' => hn o' (hk o' ho'), v, .tail _ hv, hname⟩
  landed v hv code hname := by
    obtain rfl | hv := List.mem_cons.mp hv
    case inl =>
      obtain ⟨o, hm, hcode, r, hr, hid⟩ := hl code hname
      refine ⟨o, h.kept o hm, hcode, r, ?_, hid⟩
      exact (h.others _ fun v' hv' he => hd v' hv' he.symm).trans hr
    case inr => exact h.landed v hv code hname
  others k hn := by
    obtain ⟨hv, hn⟩ := List.forall_mem_cons.mp hn
    exact (h.others k hn).trans (ho k hv)

omit [TextFormats] [UnicodeSegmentation] in
theorem Unused.tail {n : Nat} (h : Unused newIds (n + 1) d)
    (hf : ∀ k, newIds 0 ≠ k → d.assetParameterOptions.find? k = none →
      d'.assetParameterOptions.find? k = none) : Unused (newIds <| · + 1) n d' where
  distinct i hi j hj he := Nat.succ.inj <| h.distinct _ (Nat.succ_lt_succ hi) _ (Nat.succ_lt_succ hj) he
  unused i hi := by
    refine hf _ (fun he => ?_) <| h.unused _ (Nat.succ_lt_succ hi)
    exact nomatch h.distinct _ (Nat.zero_lt_succ _) _ (Nat.succ_lt_succ hi) he

omit [TextFormats] [UnicodeSegmentation] in
theorem Migrating.turn {r : Option AssetParameterValueRow}
    (h : Migrating definition newIds known (value :: values) d) (ht : Turned value.valueId r d d') :
    Migrating definition (newIds <| · + 1) known values d' := by
  have ho : d'.assetParameterOptions = d.assetParameterOptions := by rw [ht.elsewhere]
  constructor
  case options =>
    intro o
    rw [ho]
    exact h.options o
  case coded => exact h.coded
  case parameter =>
    rw [ht.elsewhere]
    exact h.parameter
  case fresh => exact h.fresh.tail fun k _ hk => ho ▸ hk
  case stored =>
    intro v hv
    obtain ⟨hs, hp, hb⟩ := h.stored v (.tail _ hv)
    exact ⟨(ht.find? _).trans <| (if_neg <| (List.pairwise_cons.mp h.distinct).left v hv).trans hs, hp, hb⟩
  case distinct => exact h.distinct.of_cons

omit [TextFormats] [UnicodeSegmentation] in
theorem Migrating.create {r : Option AssetParameterValueRow}
    (h : Migrating definition newIds known (value :: values) d)
    (hc : AssetParameterCode.parse code = .ok code)
    (hw : Written (migratedOption definition.parameterTypeId (newIds 0) code label) d d₁)
    (ht : Turned value.valueId r d₁ d') : Migrating definition (newIds <| · + 1)
      (migratedOption definition.parameterTypeId (newIds 0) code label :: known) values d' := by
  have ho : d'.assetParameterOptions = d₁.assetParameterOptions := by rw [ht.elsewhere]
  have hv : d₁.assetParameterValues = d.assetParameterValues := by rw [hw.elsewhere]
  have hn := h.fresh.unused 0 <| Nat.zero_lt_succ _
  constructor
  case options =>
    intro o
    rw [ho, hw.mem, List.mem_cons, h.options o]
    constructor
    case mp =>
      rintro (rfl | ⟨hm, hp⟩)
      · exact ⟨.inl rfl, rfl⟩
      · exact ⟨.inr ⟨hm, Table.find?_eq_none.mp hn o hm⟩, hp⟩
    case mpr => exact fun hm => hm.left.imp_right fun hd => ⟨hd.left, hm.right⟩
  case coded => exact List.forall_mem_cons.mpr ⟨hc, h.coded⟩
  case parameter =>
    rw [ht.elsewhere, hw.elsewhere]
    exact h.parameter
  case fresh =>
    refine h.fresh.tail fun k hne hk => ?_
    rw [ho, hw.find?]
    exact (if_neg hne).trans hk
  case stored =>
    intro v hv'
    obtain ⟨hs, hp, hb⟩ := h.stored v (.tail _ hv')
    refine ⟨(ht.find? _).trans <| (if_neg <| (List.pairwise_cons.mp h.distinct).left v hv').trans ?_, hp, hb⟩
    exact hv ▸ hs
  case distinct => exact h.distinct.of_cons

omit [TextFormats] [UnicodeSegmentation] in
theorem parse_of_parse (h : AssetParameterCode.parse raw = .ok code) :
    AssetParameterCode.parse code = .ok code := by
  unfold AssetParameterCode.parse at h ⊢
  split at h
  case isTrue => exact nomatch h
  case isFalse hne =>
    split at h
    case isFalse => exact nomatch h
    case isTrue hcode =>
      obtain rfl := Except.ok.inj h
      rw [Text.trim_idempotent, if_neg hne, if_pos hcode]

omit [TextFormats] [UnicodeSegmentation] in
theorem validation_ne_optionConflict {m : String} : ApiError.validation m ≠ optionConflict :=
  nofun

-- The migrations of the values succeed unless one of them is rejected, and no migration runs into
-- an option that is already there.
theorem wp_migrateParameterValues (hd : definition.dataType = .enum)
    (h : Migrating definition newIds known values d) :
    (migrateParameterValues definition migrations newIds values).wp (fun _ => True)
      (fun e => Undisputed definition.parameterTypeId migrations newIds known values ↔
        e ≠ optionConflict)
      (fun _ d' => Undisputed definition.parameterTypeId migrations newIds known values ∧
        ∃ known', Settled definition.parameterTypeId migrations known known' values d d') d := by
  induction values generalizing newIds known d
  case nil =>
    refine ⟨trivial, known, h.options, fun _ => id, fun o ho => .inl ho, fun v hv => ?_, fun _ _ => rfl⟩
    exact absurd hv List.not_mem_nil
  case cons value values ih =>
    have hdist := (List.pairwise_cons.mp h.distinct).left
    generalize hu : Undisputed definition.parameterTypeId migrations newIds known
      (value :: values) = undisputed
    refine wp_bind.mpr <| wp_migrateParameterValue hd h (fun hm m => ?_) (fun target hm hplace e hne => ?_)
      (fun hm d₁ ht => ?_) (fun target id hm hplace d₁ ht => ?_)
      (fun target code label hm hplace hne d₁ d₂ hw ht => ?_) fun target code label hm hplace hne => ?_
    case refine_1 =>
      simp only [Undisputed, hm] at hu
      exact hu ▸ iff_of_true trivial validation_ne_optionConflict
    case refine_2 =>
      simp only [Undisputed, hm, hplace] at hu
      exact hu ▸ iff_of_true trivial hne
    case refine_3 =>
      simp only [Undisputed, hm] at hu
      subst hu
      refine wp_mono (ih (h.turn ht)) fun _ d' h' => ?_
      obtain ⟨hu, known', hs⟩ := h'
      refine ⟨hu, known', ?_⟩
      refine hs.cons (fun _ hm => hm) (fun o ho => .inl ho) (fun code hname => ?_)
        (fun k hk => (ht.find? k).trans <| if_neg hk) hdist
      obtain ⟨target, _, hm', _⟩ := hname
      exact nomatch hm.symm.trans hm'
    case refine_4 =>
      simp only [Undisputed, hm, hplace] at hu
      subst hu
      refine wp_mono (ih (h.turn ht)) fun _ d' h' => ?_
      obtain ⟨hu, known', hs⟩ := h'
      refine ⟨hu, known', ?_⟩
      refine hs.cons (fun _ hm => hm) (fun o ho => .inl ho) (fun code hname => ?_)
        (fun k hk => (ht.find? k).trans <| if_neg hk) hdist
      obtain ⟨target', raw, hm', hraw, hparse⟩ := hname
      obtain rfl := Option.some.inj <| Option.some.inj <| hm.symm.trans hm'
      obtain ⟨o, ho, rfl, hcode⟩ := destination_existing h.coded hraw hparse hplace
      exact ⟨o, ho, hcode, _, (ht.find? _).trans <| if_pos rfl, rfl⟩
    case refine_5 =>
      obtain ⟨raw, hraw, hparse⟩ := destination_new hplace
      simp only [Undisputed, hm, hplace] at hu
      subst hu
      refine wp_imp (wp_mono (ih (h.create (parse_of_parse hparse) hw ht))
        fun _ d' h' => ?_) (fun _ => id) fun e he => (and_iff_right hne).trans he
      obtain ⟨hu, known', hs⟩ := h'
      refine ⟨⟨hne, hu⟩, known', ?_⟩
      refine hs.cons (fun o ho => .tail _ ho) (List.forall_mem_cons.mpr ⟨.inr ⟨hne, target, raw, hm,
        hraw, hparse⟩, fun o ho => .inl ho⟩) (fun code' hname => ?_) (fun k hk => ?_) hdist
      case refine_1 =>
        obtain ⟨target', raw', hm', hraw', hparse'⟩ := hname
        obtain rfl := Option.some.inj <| Option.some.inj <| hm.symm.trans hm'
        obtain rfl := Option.some.inj <| hraw.symm.trans hraw'
        refine ⟨_, .head _, Except.ok.inj <| hparse.symm.trans hparse', enumRow value (newIds 0), ?_, rfl⟩
        exact (ht.find? _).trans <| if_pos rfl
      case refine_2 =>
        rw [ht.find?, if_neg hk, hw.elsewhere]
    case refine_6 =>
      simp only [Undisputed, hm, hplace] at hu
      subst hu
      exact iff_of_false (fun hu => hne hu.left) fun hn => hn rfl

-- The migrations agree on the options: whoever comes first creates an option, and nobody is in the
-- way of somebody else.
structure Agrees (definition : ParameterValueDefinition)
    (migrations : List UpdateAssetParameterValueMigration) (newIds : NewIds)
    (values : List AssetParameterValueRow) (d : Database) : Prop where
  accepted : (migrateParameterValues definition migrations newIds values).run d ≠
    .error (.conflict "Asset parameter option code already exists")
  shared : ∀ d', (migrateParameterValues definition migrations newIds values).run d = .ok ((), d') →
    ∀ v₁ ∈ values, ∀ v₂ ∈ values, ∀ code, Names migrations v₁ code → Names migrations v₂ code →
    ∃ o ∈ d'.assetParameterOptions, o.code = code ∧ Lands v₁ o d' ∧ Lands v₂ o d'
  created : ∀ d', (migrateParameterValues definition migrations newIds values).run d = .ok ((), d') →
    ∀ code, ((∃ v ∈ values, Names migrations v code) ∧
      ∀ o ∈ optionsOf definition.parameterTypeId d, o.code ≠ code) ↔
    ∃! o, o ∈ optionsOf definition.parameterTypeId d' ∧
      o ∉ optionsOf definition.parameterTypeId d ∧ o.code = code

omit [TextFormats] [UnicodeSegmentation] in
theorem mem_optionsOf {o : AssetParameterOptionRow} :
    o ∈ optionsOf p d ↔ o ∈ d.assetParameterOptions ∧ o.parameterTypeId = p :=
  List.mem_filter.trans <| and_congr_right fun _ => decide_eq_true_iff

omit [TextFormats] [UnicodeSegmentation] in
theorem Settled.created_iff {known : List AssetParameterOptionRow}
    (hf : Fetched p d known) (h : Settled p migrations known known' values d d') :
    ((∃ v ∈ values, Names migrations v code) ∧ ∀ o ∈ optionsOf p d, o.code ≠ code) ↔
    ∃! o, o ∈ optionsOf p d' ∧ o ∉ optionsOf p d ∧ o.code = code := by
  have hold {o : AssetParameterOptionRow} : o ∈ optionsOf p d ↔ o ∈ known :=
    mem_optionsOf.trans (hf o).symm
  have hnew {o : AssetParameterOptionRow} : o ∈ optionsOf p d' ↔ o ∈ known' :=
    mem_optionsOf.trans (h.options o).symm
  constructor
  case mp =>
    rintro ⟨⟨v, hv, hname⟩, hn⟩
    obtain ⟨o, ho, hc, _⟩ := h.landed v hv code hname
    refine ⟨o, ⟨hnew.mpr ho, fun hm => hn o hm hc, hc⟩, ?_⟩
    rintro o' ⟨ho', _, hc'⟩
    obtain ⟨ho, hp⟩ := (h.options o).mp ho
    obtain ⟨ho', hp'⟩ := mem_optionsOf.mp ho'
    exact codes_distinct ho' ho (hp'.trans hp.symm) (hc'.trans hc.symm)
  case mpr =>
    rintro ⟨o, ⟨ho, hn, rfl⟩, _⟩
    obtain hm | ⟨hne, v, hv, hname⟩ := h.created o (hnew.mp ho)
    case inl => exact absurd (hold.mpr hm) hn
    case inr => exact ⟨⟨v, hv, hname⟩, fun o' ho' => hne o' (hold.mp ho')⟩

theorem agrees_iff_undisputed (hd : definition.dataType = .enum)
    (h : Migrating definition newIds known values d) :
    Agrees definition migrations newIds values d ↔
      Undisputed definition.parameterTypeId migrations newIds known values := by
  have hw : (migrateParameterValues definition migrations newIds values).wp _ _ _ d :=
    wp_migrateParameterValues hd h
  constructor
  case mp =>
    intro ha
    cases hr : (migrateParameterValues definition migrations newIds values).run d
    case ok result => exact (wp_run hw hr).left
    case error e =>
      refine (wp_run_error hw hr).mpr ?_
      rintro rfl
      exact ha.accepted hr
  case mpr =>
    intro hu
    constructor
    case accepted => exact fun hr => (wp_run_error hw hr).mp hu rfl
    case shared =>
      intro d' hr v₁ hv₁ v₂ hv₂ code hn₁ hn₂
      obtain ⟨_, known', hs⟩ := wp_run hw hr
      obtain ⟨o₁, ho₁, hc₁, hl₁⟩ := hs.landed v₁ hv₁ code hn₁
      obtain ⟨o₂, ho₂, hc₂, hl₂⟩ := hs.landed v₂ hv₂ code hn₂
      obtain ⟨ho₁, hp₁⟩ := (hs.options o₁).mp ho₁
      obtain ⟨ho₂, hp₂⟩ := (hs.options o₂).mp ho₂
      obtain rfl := codes_distinct ho₁ ho₂ (hp₁.trans hp₂.symm) (hc₁.trans hc₂.symm)
      exact ⟨o₁, ho₁, hc₁, hl₁, hl₂⟩
    case created =>
      intro d' hr code
      obtain ⟨_, known', hs⟩ := wp_run hw hr
      exact hs.created_iff h.options

end Runs

-- Two texts that are about to become options.
def painted : List AssetParameterValueRow :=
  [⟨20, 1, 30, 5, .text, { ParameterValueColumns.empty with valueText := some "Rot" }⟩,
    ⟨21, 1, 31, 5, .text, { ParameterValueColumns.empty with valueText := some "rot" }⟩]

def spotted : Database := { Database.empty with
  assetParameterTypes := {⟨5, 1, "color", "Color", .enum, none, none, none⟩}
  assetParameterValues := ⟨painted, by decide, by decide⟩
}

-- The code of the second migration is only the code of the first one once it has been trimmed.
def spots : List UpdateAssetParameterValueMigration :=
  [⟨20, some <| .object [("option_code", .string "red")]⟩,
    ⟨21, some <| .object [("option_code", .string " red")]⟩]

omit [TextFormats] [UnicodeSegmentation] in
theorem migrating_spotted : Migrating ⟨5, .enum, none, none⟩ (8 + ·) [] painted spotted where
  options o := iff_of_false List.not_mem_nil fun h => Table.not_mem_empty h.left
  coded o ho := absurd ho List.not_mem_nil
  parameter := rfl
  fresh := by
    refine ⟨fun m hm n hn he => ?_, fun n _ => rfl⟩
    have hcases {n : Nat} (hn : n < 2) : n = 0 ∨ n = 1 := by omega
    obtain rfl | rfl := hcases hm <;> obtain rfl | rfl := hcases hn <;> first | rfl | cases he
  stored := by simp [painted, spotted, Table.find?, TableSchema.key, AssetParameterValueRow.HasBaseRange,
    ParameterValueColumns.empty]
  distinct := by decide

omit [TextFormats] [UnicodeSegmentation] in
theorem agrees_iff_undisputed_spotted :
    let _ := tallied
    let _ := UnicodeSegmentation.characters
    Agrees ⟨5, .enum, none, none⟩ spots (8 + ·) painted spotted ↔
      Undisputed 5 spots (8 + ·) [] painted := by
  let _ := tallied
  let _ := UnicodeSegmentation.characters
  exact agrees_iff_undisputed rfl migrating_spotted

omit [TextFormats] [UnicodeSegmentation] in
theorem not_agrees_spotted :
    let _ := tallied
    let _ := UnicodeSegmentation.characters
    Migrating ⟨5, .enum, none, none⟩ (8 + ·) [] painted spotted ∧
    ¬Agrees ⟨5, .enum, none, none⟩ spots (8 + ·) painted spotted := by
  let _ := tallied
  let _ := UnicodeSegmentation.characters
  exact ⟨migrating_spotted, fun h => h.accepted rfl⟩

end AssetParameters

end LabInventory
