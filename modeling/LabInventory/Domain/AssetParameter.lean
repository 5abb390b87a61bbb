import Mathlib.Algebra.Order.Field.Rat
import LabInventory.Domain.Tree
import LabInventory.Domain.Uuid
import LabInventory.Library.Except

namespace LabInventory

open Text

-- `serde_json::Value`, with exact numbers.
inductive Json
  | null
  | bool (b : Bool)
  | number (q : ℚ)
  | string (s : String)
  | array (values : List Json)
  | object (fields : List (String × Json))

namespace Json

def get : Json → String → Option Json
  | object fields, field => fields.lookup field
  | _, _ => none

def asStr : Json → Option String
  | string s => some s
  | _ => none

def asF64 : Json → Option ℚ
  | number q => some q
  | _ => none

def asBool : Json → Option Bool
  | bool b => some b
  | _ => none

def ofOption {α : Type} (f : α → Json) : Option α → Json
  | some a => f a
  | none => null

@[simp] theorem ofOption_some {α : Type} {f : α → Json} {a : α} : ofOption f (some a) = f a := rfl
@[simp] theorem ofOption_none {α : Type} {f : α → Json} : ofOption f none = null := rfl

end Json

-- Days of the Gregorian calendar.
abbrev NaiveDate := Int

-- How the crates `uuid` and `chrono` read and print their types.
class TextFormats extends UuidFormat where
  parseDate : String → Option NaiveDate
  showDate : NaiveDate → String
  parseDate_showDate {d} : parseDate (showDate d) = some d

-- Tallies the days before and after the epoch.
@[reducible]
def tallied : TextFormats where
  parseDate s := some <| (s.toList.count '+' : Int) - s.toList.count '-'
  showDate d := .ofList <| List.replicate d.toNat '+' ++ List.replicate (-d).toNat '-'
  parseDate_showDate {d} := by
    have hp : List.count '+' (List.replicate (-d).toNat '-') = 0 := by simp [List.count_replicate]
    have hm : List.count '-' (List.replicate d.toNat '+') = 0 := by simp [List.count_replicate]
    have hd (n : Int) : (n.toNat : Int) - (-n).toNat = n := by omega
    simp only [String.toList_ofList, List.count_append, List.count_replicate_self, hp, hm]
    simpa using hd d

def AssetParameterCode.parse (s : String) : Except String String :=
  if trim s = "" then
    .error "code is required"
  else if IsCode (trim s).toList then
    .ok (trim s)
  else
    .error s!"{s} is not a valid asset parameter code."

def AssetParameterName.parse [UnicodeSegmentation] (s : String) : Except String String :=
  let isTooLong := UnicodeSegmentation.graphemes (trim s) > 256
  let containsForbiddenCharacters := (trim s).toList.any TreeName.forbiddenCharacters.contains
  if trim s = "" ∨ isTooLong ∨ containsForbiddenCharacters then
    .error s!"{s} is not a valid asset parameter name."
  else
    .ok (trim s)

def AssetParameterOptionLabel.parse [UnicodeSegmentation] (s : String) : Except String String :=
  if trim s = "" ∨ UnicodeSegmentation.graphemes (trim s) > 256 then
    .error s!"{s} is not a valid asset parameter option label."
  else
    .ok (trim s)

def UnitDimension.parse (s : String) : Except String String :=
  if trim s = "" then
    .error "dimension is required"
  else if IsCode (trim s).toList then
    .ok (trim s)
  else
    .error s!"{s} is not a valid unit dimension."

inductive AssetParameterDataType
  | text
  | number
  | range
  | boolean
  | date
  | enum
deriving DecidableEq

def AssetParameterDataType.parse (s : String) : Except String AssetParameterDataType :=
  match trim s with
  | "text" => .ok text
  | "number" => .ok number
  | "range" => .ok range
  | "boolean" => .ok boolean
  | "date" => .ok date
  | "enum" => .ok enum
  | _ => .error s!"{s} is not a valid asset parameter data type."

def AssetParameterDataType.IsNumeric : AssetParameterDataType → Bool
  | number | range => true
  | _ => false

inductive AssetParameterValue
  | text (text : String)
  | number (number : ℚ) (unitId : Option Uuid)
  | range (start stop : ℚ) (unitId : Option Uuid)
  | boolean (boolean : Bool)
  | date (date : NaiveDate)
  | enum (optionId : Uuid)
deriving DecidableEq

namespace AssetParameterValue

variable [TextFormats]

def parseText (value : Json) : Except String String :=
  match value.asStr <|> (value.get "text").bind Json.asStr with
  | some s => .ok s
  | none => .error "Text parameter value must be a string"

def parseUuidField (value : Json) (field : String) : Except String (Option Uuid) :=
  match value.get field with
  | none => .ok none
  | some value =>
    match value.asStr.bind UuidFormat.parseUuid with
    | some id => .ok (some id)
    | none => .error s!"{field} must be a uuid string"

def parseUnitId (value : Json) : Except String (Option Uuid) :=
  parseUuidField value "unit_id"

def parseNumber (value : Json) : Except String (ℚ × Option Uuid) :=
  match value.asF64 with
  | some n => .ok (n, none)
  | none =>
    match (value.get "number").bind Json.asF64 with
    | some n => do return (n, ← parseUnitId value)
    | none => .error "Number parameter value must include number"

def parseRange (value : Json) : Except String (ℚ × ℚ × Option Uuid) := do
  let some start := (value.get "range_start" <|> value.get "start").bind Json.asF64 |
    throw "Range parameter value must include range_start"
  let some stop := (value.get "range_end" <|> value.get "end").bind Json.asF64 |
    throw "Range parameter value must include range_end"
  return (start, stop, ← parseUnitId value)

def parseBoolean (value : Json) : Except String Bool :=
  match value.asBool <|> (value.get "boolean").bind Json.asBool with
  | some b => .ok b
  | none => .error "Boolean parameter value must be a boolean"

def parseDate (value : Json) : Except String NaiveDate :=
  match value.asStr <|> (value.get "date").bind Json.asStr with
  | some s =>
    match TextFormats.parseDate s with
    | some d => .ok d
    | none => .error "Invalid date parameter value"
  | none => .error "Date parameter value must be an ISO date string"

def parseOption (value : Json) : Except String Uuid :=
  match value.asStr with
  | some s =>
    match UuidFormat.parseUuid s with
    | some optionId => .ok optionId
    | none => .error "Invalid enum option id"
  | none => do
    let some optionId ← parseUuidField value "option_id" |
      throw "Enum parameter value requires option_id"
    return optionId

def parse (dataType : AssetParameterDataType) (value : Json) : Except String AssetParameterValue :=
  match dataType with
  | .text => do return text (← parseText value)
  | .number => do
    let (n, unitId) ← parseNumber value
    return number n unitId
  | .range => do
    let (start, stop, unitId) ← parseRange value
    if start > stop then
      throw "range_start cannot exceed range_end"
    return range start stop unitId
  | .boolean => do return boolean (← parseBoolean value)
  | .date => do return date (← parseDate value)
  | .enum => do return enum (← parseOption value)

def dataType : AssetParameterValue → AssetParameterDataType
  | text _ => .text
  | number .. => .number
  | range .. => .range
  | boolean _ => .boolean
  | date _ => .date
  | enum _ => .enum

theorem dataType_of_parse {dataType value v} (h : parse dataType value = .ok v) :
    v.dataType = dataType := by
  cases dataType
  case range =>
    simp only [parse, Except.bind_eq_ok] at h
    obtain ⟨_, _, h⟩ := h
    split_ifs at h
    · obtain ⟨_, h, _⟩ := Except.bind_eq_ok.mp h
      exact absurd h Except.throw_ne_ok
    · rw [← Except.pure_eq_ok.mp h]
      rfl
  all_goals
    simp only [parse, Except.bind_eq_ok, Except.pure_eq_ok] at h
    obtain ⟨_, _, rfl⟩ := h
    rfl

end AssetParameterValue

-- The columns of a stored value. Which of them are meant depends on its data type.
structure ParameterValueColumns where
  valueText : Option String
  valueNumber : Option ℚ
  valueNumberInBase : Option ℚ
  valueRangeStart : Option ℚ
  valueRangeEnd : Option ℚ
  valueRangeStartInBase : Option ℚ
  valueRangeEndInBase : Option ℚ
  unitId : Option Uuid
  valueBoolean : Option Bool
  valueDate : Option NaiveDate
  valueOptionId : Option Uuid
deriving DecidableEq

def ParameterValueColumns.empty : ParameterValueColumns where
  valueText := none
  valueNumber := none
  valueNumberInBase := none
  valueRangeStart := none
  valueRangeEnd := none
  valueRangeStartInBase := none
  valueRangeEndInBase := none
  unitId := none
  valueBoolean := none
  valueDate := none
  valueOptionId := none

end LabInventory
