import LabInventory.Domain.Text
import LabInventory.Library.Ltree

open Sql

namespace LabInventory

open Text

-- Locations and asset categories are kept in trees of the same shape.
inductive TreeKind
  | location
  | assetCategory
deriving DecidableEq

namespace TreeKind

def noun : TreeKind → String
  | location => "location"
  | assetCategory => "asset category"

def parentNoun : TreeKind → String
  | location => "location"
  | assetCategory => "category"

def title : TreeKind → String
  | location => "Location"
  | assetCategory => "Asset category"

end TreeKind

def isCodeChar (c : Char) : Bool :=
  c.isLower || c.isDigit || c = '_'

-- The codes that match `^[a-z][a-z0-9_]{0,63}$`.
def IsCode (s : List Char) : Prop :=
  s.head?.any Char.isLower ∧ s.all isCodeChar ∧ s.length ≤ 64

instance : DecidablePred IsCode :=
  fun _ => inferInstanceAs (Decidable (_ ∧ _))

structure TreeCode where
  val : String
  valid : IsCode val.toList
deriving DecidableEq

namespace TreeCode

def parse (kind : TreeKind) (s : String) : Except String TreeCode :=
  if trim s = "" then
    .error "code is required"
  else if h : IsCode (trim s).toList then
    .ok ⟨trim s, h⟩
  else
    .error s!"{s} is not a valid {kind.noun} code."

theorem isLabelChar_of_isCodeChar {c : Char} (h : isCodeChar c) : isLabelChar c := by
  change ((c.isUpper || c.isLower) || c.isDigit) || c = '_' || c = '-'
  simp only [isCodeChar] at h
  grind

-- A code can serve as a label of a path.
def label (c : TreeCode) : Label where
  val := c.val
  ne_empty h := by
    have hc := c.valid.left
    simp [h] at hc
  chars x hx := isLabelChar_of_isCodeChar <| List.all_eq_true.mp c.valid.right.left x hx

theorem label_injective : Function.Injective label :=
  fun ⟨_, _⟩ ⟨_, _⟩ h => by simpa [label] using h

theorem text_label (c : TreeCode) : Ltree.text [c.label] = c.val :=
  Ltree.text_singleton

end TreeCode

def TreeName.forbiddenCharacters : List Char :=
  ['/', '\\', '"', '<', '>', '\x7b', '\x7d']

def TreeName.parse [UnicodeSegmentation] (kind : TreeKind) (s : String) : Except String String :=
  let isTooLong := UnicodeSegmentation.graphemes (trim s) > 256
  let containsForbiddenCharacters := (trim s).toList.any forbiddenCharacters.contains
  if trim s = "" ∨ isTooLong ∨ containsForbiddenCharacters then
    .error s!"{s} is not a valid {kind.noun} name."
  else
    .ok (trim s)

def LocationCode.parse : String → Except String TreeCode :=
  TreeCode.parse .location

def AssetCategoryCode.parse : String → Except String TreeCode :=
  TreeCode.parse .assetCategory

def LocationName.parse [UnicodeSegmentation] : String → Except String String :=
  TreeName.parse .location

def AssetCategoryName.parse [UnicodeSegmentation] : String → Except String String :=
  TreeName.parse .assetCategory

end LabInventory
