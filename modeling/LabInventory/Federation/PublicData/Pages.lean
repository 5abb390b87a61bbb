import LabInventory.Federation.PublicData.Basic

open Listing

namespace LabInventory

namespace Federation.PublicData

variable {α β : Type} {query : Nat → String} {n k : Nat} {params params' : String → Option String}
variable {laboratoryId : Uuid}

-- The pages that a reader is shown. The rows that the filters admit are `rows i` while page `i` is
-- asked for.
structure Shows (list : Nat → Except ApiError (PaginatedJson β)) (n k : Nat) (rows : Nat → List α)
    (f : α → β) (at_ : α → Timestamp) (id : α → Uuid) (pages : Nat → PaginatedJson β) : Prop where
  answered : ∀ i < k, list i = .ok (pages i)
  total : ∀ i < k, (pages i).total = (rows i).length
  -- Rows that nobody writes are shown in order, and each once.
  unwritten : ∀ all, (∀ i < k, (rows i).Perm all) → all.length ≤ n * k →
    (List.range k).flatMap (fun i => (pages i).items) = (orderBy (latestFirst at_ id) all).map f
  -- Next to rows that are written, those that are not are still shown.
  written : (∀ i, i + 1 < k → Gains at_ id (rows i) (rows (i + 1))) → (rows (k - 1)).length ≤ n * k →
    ∀ r : Nat → α, 0 < k → (∀ i < k, r i ∈ rows i ∧ id (r i) = id (r 0) ∧ at_ (r i) = at_ (r 0)) →
      ∃ i < k, f (r i) ∈ (pages i).items

section Answers

variable {texts : List String} {list : Nat → Except ApiError (PaginatedJson β)} {rows : Nat → List α}
variable {f : α → β} {at_ : α → Timestamp} {id : α → Uuid}

end Answers

section Filters

variable [UuidFormat] [PatternMatching] (laboratoryId)

end Filters

section Listings

variable [FormUrlEncoded] [TextFormats] [PatternMatching] {c : Nat → Catalog}

end Listings

section Examples

def shelf (assets : List AssetRecord) (h : (assets.map (·.assetId)).Nodup) : Catalog where
  laboratories := []
  assets := assets
  inventoryItems := []
  trees _ := []
  units := []
  parameterTypes := []
  parameterOptions := []
  parameterValues := []
  attachments := []
  files := []
  objects _ := none
  stocked _ h := absurd h List.not_mem_nil
  filed _ h := absurd h List.not_mem_nil
  assetIds := h
  inventoryItemIds := .nil
  attachmentIds := .nil

end Examples

end Federation.PublicData

end LabInventory
