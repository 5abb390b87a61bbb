import LabInventory.AccessControl.Basic

open Sql

namespace LabInventory

open Text

def UnitCode.parse (s : String) : Except String String :=
  if trim s = "" then
    .error "code is required"
  else if IsCode (trim s).toList then
    .ok (trim s)
  else
    .error s!"{s} is not a valid unit code."

def UnitName.parse [UnicodeSegmentation] (s : String) : Except String String :=
  let isTooLong := UnicodeSegmentation.graphemes (trim s) > 128
  let containsForbiddenCharacters := (trim s).toList.any TreeName.forbiddenCharacters.contains
  if trim s = "" ∨ isTooLong ∨ containsForbiddenCharacters then
    .error s!"{s} is not a valid unit name."
  else
    .ok (trim s)

def UnitSymbol.parse [UnicodeSegmentation] (s : String) : Except String String :=
  if trim s = "" ∨ UnicodeSegmentation.graphemes (trim s) > 32 then
    .error s!"{s} is not a valid unit symbol."
  else
    .ok (trim s)

abbrev Scale := { q : ℚ // 0 < q }

def validateScaleToBase (scaleToBase : ℚ) : Except String Scale :=
  if h : 0 < scaleToBase then
    .ok ⟨scaleToBase, h⟩
  else
    .error "scale_to_base must be greater than zero"

structure NewUnit where
  code : String
  name : String
  symbol : String
  dimension : String
  scaleToBase : Scale
  allowDecimal : Bool

structure UpdateUnit where
  code : Option String
  name : Option String
  symbol : Option String
  dimension : Option String
  scaleToBase : Option Scale
  allowDecimal : Option Bool

namespace Units

def mapDatabaseError (c : Constraint) : ApiError :=
  if c = .unitsCodeKey then
    .conflict "Unit code already exists"
  else if c.isForeignKey then
    .validation "Invalid referenced record"
  else if c.isCheck then
    .validation "Invalid unit"
  else
    .conflict "Unit already exists"

structure CreateJsonData where
  code : String
  name : String
  symbol : String
  dimension : String
  scaleToBase : ℚ
  allowDecimal : Bool

structure UpdateJsonData where
  code : Option String
  name : Option String
  symbol : Option String
  dimension : Option String
  scaleToBase : Option ℚ
  allowDecimal : Option Bool

variable [UnicodeSegmentation]

def CreateJsonData.toNewUnit (value : CreateJsonData) : Except String NewUnit := do
  let code ← UnitCode.parse value.code
  let name ← UnitName.parse value.name
  let symbol ← UnitSymbol.parse value.symbol
  let dimension ← UnitDimension.parse value.dimension
  let scaleToBase ← validateScaleToBase value.scaleToBase
  return { code, name, symbol, dimension, scaleToBase, allowDecimal := value.allowDecimal }

def UpdateJsonData.toUpdateUnit (value : UpdateJsonData) : Except String UpdateUnit := do
  let code ← value.code.mapM UnitCode.parse
  let name ← value.name.mapM UnitName.parse
  let symbol ← value.symbol.mapM UnitSymbol.parse
  let dimension ← value.dimension.mapM UnitDimension.parse
  let scaleToBase ← value.scaleToBase.mapM validateScaleToBase
  return { code, name, symbol, dimension, scaleToBase, allowDecimal := value.allowDecimal }

def fetchUnitForUpdate (unitId : Uuid) : Transaction (Option UnitRow) :=
  .selectForUpdate (.unit unitId) (·.units.find? unitId)

def insertUnit (r : UnitRow) : Transaction Unit :=
  .exec (.units <| .insert r) mapDatabaseError

-- The row has been locked by `fetchUnitForUpdate`.
def updateUnitInDatabase (r : UnitRow) : Transaction Unit :=
  .exec (.units <| .update r) mapDatabaseError

def createUnit (ctx : LaboratoryContext) (payload : CreateJsonData) (newId : Uuid) :
    Transaction Unit := do
  let permitted ← .read (validatePermission · ctx.actor .unit (.create ctx.laboratoryId))
  .require permitted (.forbidden "You don't have permission to create units.")
  let new ← .validated payload.toNewUnit
  insertUnit { new with unitId := newId, laboratoryId := ctx.laboratoryId }

-- What an update does not mention stays as it is.
def updateUnit (ctx : LaboratoryContext) (unitId : Uuid) (payload : UpdateJsonData) :
    Transaction Unit := do
  let permitted ← .read (validatePermission · ctx.authorizationActor .unit (.update unitId))
  .require permitted (.forbidden "You are not allowed to update this unit.")
  let update ← .validated payload.toUpdateUnit
  let some existing ← fetchUnitForUpdate unitId | .abort (.notFound "Unit not found")
  updateUnitInDatabase { existing with
    code := update.code.getD existing.code
    name := update.name.getD existing.name
    symbol := update.symbol.getD existing.symbol
    dimension := update.dimension.getD existing.dimension
    scaleToBase := update.scaleToBase.getD existing.scaleToBase
    allowDecimal := update.allowDecimal.getD existing.allowDecimal
  }

inductive Request
  | create (payload : CreateJsonData) (newId : Uuid)
  | update (unitId : Uuid) (payload : UpdateJsonData)

def Request.handle (ctx : LaboratoryContext) : Request → Transaction Unit
  | create payload newId => createUnit ctx payload newId
  | update unitId payload => updateUnit ctx unitId payload

end Units

end LabInventory
