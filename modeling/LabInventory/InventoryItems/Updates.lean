import LabInventory.InventoryItems.Basic
import LabInventory.Library.Bulk

open Sql Program

namespace LabInventory

namespace InventoryItems

variable {d d' : Database}

-- Nothing else depends on an item, except when it is deleted.
theorem apply_writeItem {w : RowWrite InventoryItemRow Uuid} (hw : ∀ k, w ≠ .delete k) :
    d.apply (.assetInventoryItems w) = .ok d' ↔
      d.assetInventoryItems.write w = .ok d'.assetInventoryItems ∧
      d' = { d with assetInventoryItems := d'.assetInventoryItems } := by
  cases w
  case delete k => exact absurd rfl (hw k)
  all_goals
    simp only [Database.apply, Database.writeAssetInventoryItems, Except.bind_eq_ok,
      Except.pure_eq_ok]
    constructor
    case mp =>
      rintro ⟨t, ht, rfl⟩
      exact ⟨ht, rfl⟩
    case mpr =>
      rintro ⟨ht, hd⟩
      exact ⟨_, ht, hd.symm⟩

theorem apply_updateItem {r : InventoryItemRow} :
    d.apply (.assetInventoryItems (.update r)) = .ok d' ↔
      d.assetInventoryItems.update r = .ok d'.assetInventoryItems ∧
      d' = { d with assetInventoryItems := d'.assetInventoryItems } :=
  apply_writeItem (by simp)

-- The items that `p` selects are updated one by one. The others play no role in what it selects.
theorem wp_updateItems {rows : List InventoryItemRow} {p : Database → InventoryItemRow → Bool}
    {g : InventoryItemRow → InventoryItemRow} {err : Constraint → ApiError} {R : ApiError → Prop}
    (hrows : rows.Perm (d.assetInventoryItems.filter (p d)).rows)
    (hp : ∀ t, p { d with assetInventoryItems := t } = p d)
    (hg : ∀ r, (g r).inventoryItemId = r.inventoryItemId)
    (hr : ∀ r rs t, BulkProgress d.assetInventoryItems (p d) (some ∘ g) (r :: rs) t →
      t.clash? (g r) ≠ none → ∀ c, R (err c)) :
    (forRows (RowId.inventoryItem ·.inventoryItemId) (fun r => do
      let found ← .read fun d => (d.assetInventoryItems.find? r.inventoryItemId).filter (p d)
      let some r := found | return
      .exec (.assetInventoryItems <| .update (g r)) err) rows : Transaction Unit).wp
      (fun _ => True) R (fun _ d' =>
        d' = { d with assetInventoryItems := d'.assetInventoryItems } ∧
        ∀ k, d'.assetInventoryItems.find? k = (d.assetInventoryItems.find? k).bind fun r =>
          if p d r then some (g r) else some r) d := by
  refine wp_bulk_of (v := Database.assetInventoryItems) (p := p d) (g := some ∘ g)
    (J := fun d' => d' = { d with assetInventoryItems := d'.assetInventoryItems })
    hrows rfl fun r rs d' hd h => ?_
  obtain ⟨hf, hpr⟩ := h.next
  have hpr' : p d' r := by
    rw [hd, hp]
    exact hpr
  have hf' : d'.assetInventoryItems.find? r.inventoryItemId = some r := hf
  refine wp_bind.mpr <| wp_read.mpr ?_
  rw [hf', Option.filter_some, if_pos hpr']
  refine wp_exec.mpr ⟨fun d'' ha => ⟨trivial, ?_, fun k => ?_⟩, fun c ha => hr r rs _ h ?_ _⟩
  case refine_1 => rw [(apply_updateItem.mp ha).right, hd]
  case refine_2 =>
    rw [Table.find?_update (apply_updateItem.mp ha).left]
    by_cases hk : TableSchema.key r = k
    case pos =>
      subst hk
      have hkey : TableSchema.key (g r) = TableSchema.key r := hg r
      exact (if_pos hkey).trans <| (congrArg (Option.map _) hf).trans (if_pos rfl).symm
    case neg =>
      have hkey : TableSchema.key (g r) ≠ k := fun he => hk <| (hg r).symm.trans he
      exact (if_neg hkey).trans (if_neg hk).symm
  case refine_3 =>
    intro hc
    obtain ⟨t, ht⟩ := Table.exists_update hc
    have ha' : d'.apply (.assetInventoryItems (.update (g r))) =
        .ok { d' with assetInventoryItems := t } := apply_updateItem.mpr ⟨ht, rfl⟩
    exact nomatch ha'.symm.trans ha

end InventoryItems

end LabInventory
