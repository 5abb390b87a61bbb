import LabInventory.Library.Except
import LabInventory.Domain.Text

namespace LabInventory

-- `char::is_control`
def isControl (c : Char) : Bool :=
  c.toNat < 0x20 || (0x7F ≤ c.toNat && c.toNat < 0xA0)

def FileName.parse [UnicodeSegmentation] (s : String) : Except String String :=
  let trimmed := Text.trim s
  if trimmed = "" ∨ 255 < UnicodeSegmentation.graphemes trimmed ∨
      trimmed.toList.any fun c => isControl c || c = '/' || c = '\\' then
    .error s!"{s} is not a valid file name."
  else
    .ok trimmed

def FileSha256.parse (s : String) : Except String String :=
  let value := Text.trim s
  if value.utf8ByteSize = 64 ∧ value.toList.all fun c =>
      c.isDigit || ('a' ≤ c && c ≤ 'f') || ('A' ≤ c && c ≤ 'F') then
    .ok <| .ofList <| value.toList.map Char.toLower
  else
    .error "attachment sha256 must be a 64-character hex digest"

def FileStorageKey.isValid (segment : List Char) : Bool :=
  segment ≠ [] && segment ≠ ['.'] && segment ≠ ['.', '.'] && !segment.contains '\\' &&
    !segment.any isControl

def FileStorageKey.parse (s : String) : Except String String :=
  let value := Text.trim s
  if value ≠ "" ∧ value.utf8ByteSize ≤ 512 ∧ (value.toList.splitOn '/').all isValid then
    .ok value
  else
    .error "attachment storage key is invalid"

end LabInventory
