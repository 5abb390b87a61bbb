import Mathlib.Data.List.Perm.Basic
import LabInventory.Assets.Creation
import LabInventory.Attachments.Accounting
import LabInventory.FileStorage.Local
import LabInventory.InventoryItems.Effects
import LabInventory.InventoryItems.Merging
import LabInventory.Library.Depot

open Sql Program LabInventory.Attachments

namespace LabInventory

namespace FileStorage

section Requests

variable {ctx : LaboratoryContext} {d d' : Database} {α : Type}

theorem settles_assignAttachment {resource target targetId laboratoryOf missing forbidden payload}
    {newIds : NewIds} :
    Settles (fun _ => []) (assignAttachment ctx resource target targetId laboratoryOf missing
      forbidden payload newIds) := by
  refine settles_readOnly_bind readOnly_fetch fun _ => ?_
  refine settles_readOnly_bind readOnly_require fun _ => settles_readOnly_bind readOnly_read fun _ => ?_
  refine settles_readOnly_bind readOnly_require fun _ => settles_readOnly_bind readOnly_read fun _ => ?_
  exact settles_readOnly_bind readOnly_require fun _ => settles_assignUploadedAttachments

theorem settles_insertAssetInventoryItems {laboratoryId assetId trackingMode newIds inputs} :
    Settles (fun _ => [])
      (Assets.insertAssetInventoryItems laboratoryId assetId trackingMode newIds inputs) := by
  induction inputs generalizing newIds
  case nil => exact settles_done rfl
  case cons ih =>
    refine Settles.bind (settles_of_writes ?_) fun _ =>
      settles_assignUploadedAttachments.bind fun _ => ih
    exact InventoryItems.validateOptionalLocation_readOnly.writes_bind fun _ => writes_exec trivial

theorem untouched_applyAssetParameterUpdate [TextFormats]
    {laboratoryId assetId newId definition input} :
    (Assets.applyAssetParameterUpdate laboratoryId assetId newId definition input).Writes
      Untouched := by
  unfold Assets.applyAssetParameterUpdate
  split
  case h_1 value _ =>
    cases definition
    case none => trivial
    case some =>
      refine ParameterValues.resolveParameterValue_readOnly.writes_bind fun _ => ?_
      refine readOnly_read.writes_bind fun found => ?_
      cases found
      case none => exact writes_exec trivial
      case some =>
        refine readOnly_selectForUpdate.writes_bind fun r => ?_
        cases r
        case none => trivial
        case some => exact writes_exec trivial
  case h_2 =>
    refine readOnly_read.writes_bind fun found => ?_
    cases found
    case none => trivial
    case some => exact ⟨trivial, trivial⟩

theorem untouched_applyAssetParameterUpdates [TextFormats]
    {laboratoryId assetId inputs allowDelete newIds} :
    (Assets.applyAssetParameterUpdates laboratoryId assetId inputs allowDelete newIds).Writes
      Untouched := by
  refine readOnly_require.writes_bind fun _ => ?_
  refine Assets.fetchParameterDefinitions_readOnly.writes_bind fun definitions => ?_
  induction definitions generalizing newIds
  case nil => trivial
  case cons ih =>
    exact readOnly_require.writes_bind fun _ => untouched_applyAssetParameterUpdate.bind fun _ => ih

theorem settles_createAsset [TextFormats] [UnicodeSegmentation] {payload newIds} :
    Settles (fun _ => []) (Assets.createAsset ctx payload newIds) := by
  refine settles_readOnly_bind readOnly_read fun _ => ?_
  refine settles_readOnly_bind readOnly_require fun _ => ?_
  refine settles_readOnly_bind InventoryItems.requirePermissions_readOnly fun _ => ?_
  refine settles_readOnly_bind readOnly_ofExcept fun input => ?_
  refine settles_readOnly_bind Assets.validateCategory_readOnly fun _ => ?_
  refine Settles.bind (settles_of_writes <| writes_exec trivial) fun _ => ?_
  refine settles_assignUploadedAttachments.bind fun _ => ?_
  refine settles_insertAssetInventoryItems.bind fun _ => settles_of_writes ?_
  refine untouched_applyAssetParameterUpdates.bind fun _ => ?_
  exact Assets.validateRequiredParameters_readOnly.writes

theorem untouched_insertNewInventoryItems {asset trackingMode newIds items} :
    (InventoryItems.insertNewInventoryItems asset trackingMode newIds items).Writes Untouched := by
  induction items generalizing newIds
  case nil => trivial
  case cons ih =>
    refine Writes.bind (Writes.bind ?_ fun _ => ?_) fun _ => ih.bind fun _ => trivial
    · exact Transaction.readOnly_bindTexts.writes_bind fun _ => writes_exec trivial
    refine readOnly_selectForUpdate.writes_bind fun r => ?_
    cases r <;> trivial

theorem settles_assignGroups {laboratoryId newIds groups} :
    Settles (fun _ => [])
      (InventoryItems.InventoryItemAttachmentSource.assignGroups laboratoryId newIds groups) := by
  induction groups generalizing newIds
  case nil => exact settles_done rfl
  case cons ih => exact settles_assignUploadedAttachments.bind fun _ => ih

theorem settles_assign {created laboratoryId newIds}
    {source : InventoryItems.InventoryItemAttachmentSource} :
    Settles (fun _ => []) (source.assign created laboratoryId newIds) := by
  cases source
  case empty => exact settles_done rfl
  case single => exact settles_readOnly_bind readOnly_require fun _ => settles_assignGroups
  case perSerialItem => exact settles_readOnly_bind readOnly_require fun _ => settles_assignGroups

theorem settles_createInventoryItems [UnicodeSegmentation] {assetId payload newIds newAttachmentIds} :
    Settles (fun _ => [])
      (InventoryItems.createInventoryItems ctx assetId payload newIds newAttachmentIds) := by
  refine settles_readOnly_bind readOnly_fetch fun _ => ?_
  refine settles_readOnly_bind readOnly_require fun _ => ?_
  refine settles_readOnly_bind InventoryItems.requirePermissions_readOnly fun _ => ?_
  refine settles_readOnly_bind InventoryItems.requirePermissions_readOnly fun _ => ?_
  refine settles_readOnly_bind readOnly_ofExcept fun _ => ?_
  refine settles_readOnly_bind readOnly_ofExcept fun _ => ?_
  refine settles_readOnly_bind readOnly_selectForUpdate fun asset => ?_
  cases asset
  case none => exact settles_abort
  case some asset =>
    refine settles_readOnly_bind readOnly_ofExcept fun creation => ?_
    refine settles_readOnly_bind InventoryItems.validateOptionalLocation_readOnly fun _ => ?_
    cases creation
    case quantity =>
      exact (settles_of_writes untouched_insertNewInventoryItems).bind fun _ => settles_assign
    case serialized source _ _ _ _ _ =>
      refine Settles.bind (settles_of_writes ?_) fun _ => settles_assign
      exact InventoryItems.serialNumbers_readOnly.writes_bind fun _ =>
        untouched_insertNewInventoryItems

-- An item can be deleted without a trace once nothing is attached to it.
theorem wlp_deleteInventoryItemFromDatabase {inventoryItemId : Uuid}
    (hn : ∀ r ∈ d.attachmentAssignments, r.inventoryItemId ≠ some inventoryItemId) :
    (InventoryItems.deleteInventoryItemFromDatabase inventoryItemId).wlp
      (fun _ d' => SameFiles d d') d := by
  refine wp_bind.mpr <| wp_selectForUpdate.mpr ?_
  cases d.assetInventoryItems.find? inventoryItemId
  case none => exact wp_done.mpr .refl
  case some =>
    refine wp_exec.mpr ⟨fun d' h => ⟨trivial, sameFiles_of_deleteItem h hn⟩, fun _ _ => trivial⟩

variable [ScanOrder]

abbrev storageKeys (as : List DeletedAttachmentRow) : List String :=
  as.map (·.storageKey)

theorem wlp_deleteItem {inventoryItemId : Uuid} {f : List DeletedAttachmentRow → Transaction α}
    {Q : α → Database → Prop} (ha : Accounted d)
    (hq : ∀ as d₁, Accounts d (storageKeys as) d₁ → (f as).wlp Q d₁) :
    wlp Q (do
      let as ← InventoryItems.deleteInventoryItemAttachments inventoryItemId
      InventoryItems.deleteInventoryItemFromDatabase inventoryItemId
      f as) d := by
  refine wp_bind.mpr <| wp_mono (wlp_deleteAttachments ha) fun as d₁ h => ?_
  refine wp_bind.mpr <|
    wp_mono (wlp_deleteInventoryItemFromDatabase fun r hr he => ?_) fun _ d₂ hs => ?_
  case refine_1 => exact (h.remaining r hr).right <| decide_eq_true he
  case refine_2 =>
    have hd₂ := h.accounts.trans <| hs.accounts h.accounts.accounted
    exact hq as d₂ <| List.append_nil (storageKeys as) ▸ hd₂

theorem settles_deleteInventoryItem {inventoryItemId} :
    Settles storageKeys (InventoryItems.deleteInventoryItem ctx inventoryItemId) := by
  refine settles_readOnly_bind InventoryItems.requirePermissions_readOnly fun _ => ?_
  refine settles_readOnly_bind readOnly_selectForUpdate fun item => ?_
  cases item
  case none => exact settles_abort
  case some item =>
    refine settles_readOnly_bind readOnly_ofExcept fun _ => ?_
    exact fun d ha => wlp_deleteItem ha fun as d₁ h => wp_done.mpr h

theorem settles_deleteItems {items : List InventoryItemRow} :
    Settles storageKeys (InventoryItems.deleteItems items) := by
  induction items
  case nil => exact settles_done rfl
  case cons item items ih =>
    refine fun d ha => wlp_deleteItem ha fun as d₁ h => ?_
    refine wp_bind.mpr <| wp_mono (ih d₁ h.accounted) fun as' d₂ h' => wp_done.mpr ?_
    rw [storageKeys, List.map_append]
    exact h.trans h'

theorem settles_batchDeleteInventoryItems {inventoryItemIds} :
    Settles storageKeys (InventoryItems.batchDeleteInventoryItems ctx inventoryItemIds) := by
  refine settles_readOnly_bind readOnly_ofExcept fun _ => ?_
  refine settles_readOnly_bind InventoryItems.requirePermissions_readOnly fun _ => ?_
  refine settles_readOnly_bind readOnly_selectAllForUpdate fun _ => ?_
  refine settles_readOnly_bind readOnly_ofExcept fun _ => ?_
  exact settles_readOnly_bind readOnly_ofExcept fun _ => settles_deleteItems

-- A merge that runs on its own never completes.
theorem settles_mergeInventoryItems {payload} :
    Settles (fun _ => []) (InventoryItems.mergeInventoryItems ctx payload) :=
  fun _ _ => wp_mono (wlp_of_performs <|
    InventoryItems.performs_mergeInventoryItems (P := fun _ _ => True)) fun _ _ h => h.elim

theorem settles_deleteAsset {assetId} :
    Settles storageKeys (Assets.deleteAsset ctx assetId) := by
  refine settles_readOnly_bind readOnly_read fun _ => ?_
  refine settles_readOnly_bind readOnly_require fun _ => ?_
  refine settles_readOnly_bind readOnly_selectForUpdate fun found => ?_
  cases found
  case none => exact settles_abort
  case some found =>
    obtain ⟨asset, _⟩ := found
    intro d ha
    refine wp_bind.mpr <| wp_selectAllForUpdate.mpr ?_
    refine wp_readOnly_bind (readOnly_forAll fun _ => readOnly_done) fun _ => ?_
    refine wp_bind.mpr <| wp_mono (wlp_deleteAttachments ha) fun as d₁ h => ?_
    refine wp_bind.mpr <| wp_exec.mpr ⟨fun d₂ hd => ⟨trivial, wp_done.mpr ?_⟩, fun _ _ => trivial⟩
    have hs : SameFiles d₁ d₂ := by
      refine sameFiles_of_deleteAsset hd (fun r hr he => ?_) fun r hr item hi hk he => ?_
      case refine_1 => exact (h.remaining r hr).right <| by simp [he]
      case refine_2 =>
        refine (h.remaining r hr).right ?_
        have hitems : d₁.assetInventoryItems = d.assetInventoryItems := by rw [h.elsewhere]
        rw [hitems] at hi
        have hf : d.assetInventoryItems.find? item.inventoryItemId = some item := Table.find?_key hi
        simp only [he, Option.any_some, List.contains_iff_mem, List.mem_map, List.mem_filterMap,
          ScanOrder.mem_visit, List.mem_filter, decide_eq_true_eq]
        refine .inr ⟨item, ⟨item, ⟨hi, hk⟩, ?_⟩, rfl⟩
        rw [hf]
        exact Option.filter_some_pos <| decide_eq_true hk
    exact List.append_nil (storageKeys as) ▸ h.accounts.trans (hs.accounts h.accounts.accounted)

end Requests

section Keys

variable {laboratoryId laboratoryId' objectId objectId' : Uuid} {name name' key : String}
  {bytes bytes' : List UInt8}

theorem splitOn_uploadKey (h : uploadKey laboratoryId objectId name bytes = .ok key) :
    key.toList.splitOn '/' = keySegments laboratoryId objectId name bytes := by
  let segments := keySegments laboratoryId objectId name bytes
  have hsegments : ∀ segment ∈ segments, ∀ c ∈ segment, isKeyChar c :=
    fun segment hm => (keySegments_chars segment hm).right
  rw [uploadKey_eq] at h
  obtain ⟨rfl, -⟩ := parse_eq_ok.mp h
  have htrim : Text.trim (.ofList (['/'].intercalate segments)) =
      .ofList (['/'].intercalate segments) := by
    refine Text.trim_eq_self fun c hc => ?_
    rw [String.toList_ofList] at hc
    by_cases hs : c = '/'
    case pos => rw [hs]; decide
    case neg =>
      obtain ⟨segment, hm, hcs⟩ := Text.mem_of_mem_intercalate hc hs
      exact not_isWhitespace (hsegments segment hm c hcs)
  rw [htrim, String.toList_ofList]
  refine List.splitOn_intercalate '/' (fun segment hm hs => ?_) nofun
  exact absurd (hsegments segment hm _ hs) (by decide)

-- Objects are told apart by their identifiers.
theorem objectId_of_uploadKey (h : uploadKey laboratoryId objectId name bytes = .ok key)
    (h' : uploadKey laboratoryId' objectId' name' bytes' = .ok key) : objectId = objectId' := by
  have he := (splitOn_uploadKey h).symm.trans (splitOn_uploadKey h')
  simp only [keySegments, List.cons.injEq, String.toList_inj] at he
  have hid := congrArg parseHyphenated he.right.right.right.left
  rw [parseHyphenated_showHyphenated, parseHyphenated_showHyphenated] at hid
  exact Option.some.inj hid

theorem parse_uploadKey (h : uploadKey laboratoryId objectId name bytes = .ok key) :
    FileStorageKey.parse key = .ok key :=
  parse_parse <| uploadKey_eq.symm.trans h

end Keys

def storeUpload (maxFileSizeBytes : Nat) (laboratoryId objectId : Uuid) (originalFileName : String)
    (bytes : List UInt8) : Except String String := do
  .check (bytes ≠ []) "File uploads cannot be empty"
  .check (bytes.length ≤ maxFileSizeBytes) "File upload exceeds configured size limit"
  uploadKey laboratoryId objectId originalFileName bytes

structure Settings where
  maxFileSizeBytes : Nat
  uploadTokenTtl : Timestamp

inductive Request
  | deleteFileUpload (uploadId : Uuid)
  | assignAssetAttachment (assetId : Uuid) (payload : NewAttachment) (newIds : NewIds)
  | assignInventoryItemAttachment (inventoryItemId : Uuid) (payload : NewAttachment) (newIds : NewIds)
  | updateAttachment (attachmentId : Uuid) (isPublic : Option Bool)
  | deleteAttachment (attachmentId : Uuid)
  | createAsset (payload : Assets.CreateJsonData) (newIds : Assets.NewGraphIds)
  | deleteAsset (assetId : Uuid)
  | createInventoryItems (assetId : Uuid) (payload : InventoryItems.CreateJsonData) (newIds : NewIds)
      (newAttachmentIds : Nat → NewIds)
  | mergeInventoryItems (payload : InventoryItems.MergeJsonData)
  | deleteInventoryItem (inventoryItemId : Uuid)
  | batchDeleteInventoryItems (inventoryItemIds : List Uuid)

variable [TextFormats] [UnicodeSegmentation] [ScanOrder]

-- Yields the keys of the objects that are deleted after the commit.
def Request.handle (ctx : LaboratoryContext) : Request → Transaction (List String)
  | deleteFileUpload uploadId => do return [← FileUploads.deleteFileUpload ctx uploadId]
  | assignAssetAttachment assetId payload newIds => do
    Attachments.assignAssetAttachment ctx assetId payload newIds
    return []
  | assignInventoryItemAttachment inventoryItemId payload newIds => do
    Attachments.assignInventoryItemAttachment ctx inventoryItemId payload newIds
    return []
  | updateAttachment attachmentId isPublic => do
    Attachments.updateAttachment ctx attachmentId isPublic
    return []
  | deleteAttachment attachmentId => do return [← Attachments.deleteAttachment ctx attachmentId]
  | createAsset payload newIds => do
    Assets.createAsset ctx payload newIds
    return []
  | deleteAsset assetId => do return storageKeys (← Assets.deleteAsset ctx assetId)
  | createInventoryItems assetId payload newIds newAttachmentIds => do
    InventoryItems.createInventoryItems ctx assetId payload newIds newAttachmentIds
    return []
  | mergeInventoryItems payload => do
    InventoryItems.mergeInventoryItems ctx payload
    return []
  | deleteInventoryItem inventoryItemId => do
    return storageKeys (← InventoryItems.deleteInventoryItem ctx inventoryItemId)
  | batchDeleteInventoryItems inventoryItemIds => do
    return storageKeys (← InventoryItems.batchDeleteInventoryItems ctx inventoryItemIds)

theorem settles_handle {ctx : LaboratoryContext} {request : Request} :
    Settles id (request.handle ctx) := by
  have hmap {α : Type} {keys : α → List String} {p : Transaction α} (hp : Settles keys p) :
      Settles id (p >>= fun a => .done (keys a)) :=
    fun d ha => wp_bind.mpr <| wp_mono (hp d ha) fun _ _ h => wp_done.mpr h
  cases request
  case deleteFileUpload => exact hmap settles_deleteFileUpload
  case assignAssetAttachment => exact hmap settles_assignAttachment
  case assignInventoryItemAttachment => exact hmap settles_assignAttachment
  case updateAttachment => exact hmap settles_updateAttachment
  case deleteAttachment => exact hmap settles_deleteAttachment
  case createAsset => exact hmap settles_createAsset
  case deleteAsset => exact hmap settles_deleteAsset
  case createInventoryItems => exact hmap settles_createInventoryItems
  case mergeInventoryItems => exact hmap settles_mergeInventoryItems
  case deleteInventoryItem => exact hmap settles_deleteInventoryItem
  case batchDeleteInventoryItems => exact hmap settles_batchDeleteInventoryItems

-- The objects of uploads whose row is not there yet are kept by their requests.
structure World where
  db : Database
  depot : Depot String (List UInt8)
  objectIds : List Uuid
  uploading : List (LaboratoryContext × String)

namespace World

def start (d : Database) : World where
  db := d
  depot := .empty
  objectIds := []
  uploading := []

def keys (w : World) : List String :=
  w.uploading.map (·.2)

def refs (w : World) : Set String :=
  inUse w.db ∪ { k | k ∈ w.keys }

structure Sound (w : World) : Prop where
  accounted : Accounted w.db
  keeps : w.depot.Keeps w.refs
  nodup : w.keys.Nodup
  apart : ∀ k ∈ w.keys, k ∉ inUse w.db
  named : ∀ k, (w.depot.stored k).isSome → ∃ laboratoryId objectId name bytes,
    objectId ∈ w.objectIds ∧ uploadKey laboratoryId objectId name bytes = .ok k
  whole : ∀ k ∈ w.refs, ∀ bytes, w.depot.stored k = some bytes → ∃ laboratoryId objectId name,
    uploadKey laboratoryId objectId name bytes = .ok k

end World

inductive Event
  | store (ctx : LaboratoryContext) (objectId : Uuid) (originalFileName : String) (bytes : List UInt8)
  | failToStore (ctx : LaboratoryContext) (objectId : Uuid) (originalFileName : String)
      (bytes written : List UInt8)
  | insert (i : Nat) (newId : Uuid)
  | lose (i : Nat)
  | request (ctx : LaboratoryContext) (request : Request)
  | other (p : Transaction Unit) (h : p.Writes Untouched)
  | deleteNext (i : Nat)
  | giveUp (i : Nat)

-- The identifiers of objects are random, and not drawn twice.
def Event.Fresh (w : World) : Event → Prop
  | store _ objectId _ _ | failToStore _ objectId _ _ _ => objectId ∉ w.objectIds
  | _ => True

namespace World

-- The transactions of requests take place one after another, next to what happens in the storage.
-- An upload stores its object before it inserts the row, and takes it back if that fails. Other
-- objects are deleted after the commit. Each of this can fail, or stop halfway.
def step (settings : Settings) (w : World) : Event → World
  | .store ctx objectId originalFileName bytes =>
    match (FileUploads.validateUploadPermission ctx).run w.db, storeUpload settings.maxFileSizeBytes
      ctx.laboratoryId objectId originalFileName bytes with
    | .ok _, .ok key => { w with
        depot := w.depot.store key bytes
        objectIds := objectId :: w.objectIds
        uploading := (ctx, key) :: w.uploading
      }
    | _, _ => w
  | .failToStore ctx objectId originalFileName bytes written =>
    match storeUpload settings.maxFileSizeBytes ctx.laboratoryId objectId originalFileName bytes with
    | .ok key => { w with
        depot := w.depot.store key written
        objectIds := objectId :: w.objectIds
      }
    | .error _ => w
  | .insert i newId =>
    match w.uploading[i]? with
    | none => w
    | some (ctx, key) =>
      let uploading := w.uploading.eraseIdx i
      match (FileUploads.insertUploadedFile ctx key settings.uploadTokenTtl newId).run w.db with
      | .ok (_, db) => { w with db, uploading }
      | .error _ => { w with uploading, depot := w.depot.schedule [key] }
  | .lose i => { w with uploading := w.uploading.eraseIdx i }
  | .request ctx request =>
    match (request.handle ctx).run w.db with
    | .ok (keys, db) => { w with db, depot := w.depot.schedule keys }
    | .error _ => w
  | .other p _ => { w with db := p.after w.db }
  | .deleteNext i => { w with depot := w.depot.removeNext i }
  | .giveUp i => { w with depot := w.depot.abandon i }

inductive Run (settings : Settings) : World → World → Prop
  | refl {w} : Run settings w w
  | step {w₁ w₂ e} : Run settings w₁ w₂ → e.Fresh w₂ → Run settings w₁ (w₂.step settings e)

section Sound

variable {w w' : World} {d : Database} {keys : List String} {key : String} {objectId : Uuid}
  {bytes : List UInt8} {ctx : LaboratoryContext} {settings : Settings}

omit [TextFormats] [UnicodeSegmentation] [ScanOrder]

-- References may be dropped as long as the storage goes along.
theorem Sound.shrink (h : w.Sound) (ha : Accounted w'.db) (hr : w'.refs ⊆ w.refs)
    (hu : w'.keys.Sublist w.keys) (hn : ∀ k ∈ w'.keys, k ∉ inUse w'.db)
    (hk : w'.depot.Keeps w'.refs) (hs : w'.depot.stored = w.depot.stored)
    (hi : w'.objectIds = w.objectIds) : w'.Sound where
  accounted := ha
  keeps := hk
  nodup := h.nodup.sublist hu
  apart := hn
  named := by rw [hs, hi]; exact h.named
  whole k hm := by rw [hs]; exact h.whole k (hr hm)

theorem Sound.stored_eq_none (h : w.Sound) (hn : objectId ∉ w.objectIds)
    {laboratoryId : Uuid} {name : String}
    (hk : uploadKey laboratoryId objectId name bytes = .ok key) : w.depot.stored key = none := by
  by_contra hs
  obtain ⟨_, _, _, _, hm, hk'⟩ := h.named key <| Option.isSome_iff_ne_none.mpr hs
  exact hn <| objectId_of_uploadKey hk hk' ▸ hm

theorem storeUpload_eq_ok {laboratoryId : Uuid} {name : String}
    (h : storeUpload settings.maxFileSizeBytes laboratoryId objectId name bytes = .ok key) :
    uploadKey laboratoryId objectId name bytes = .ok key := by
  simp only [storeUpload, Except.bind_eq_ok] at h
  obtain ⟨_, _, _, _, hk⟩ := h
  exact hk

theorem Sound.store (h : w.Sound) (hn : objectId ∉ w.objectIds) {name : String}
    (hk : uploadKey ctx.laboratoryId objectId name bytes = .ok key) :
    Sound { w with
      depot := w.depot.store key bytes
      objectIds := objectId :: w.objectIds
      uploading := (ctx, key) :: w.uploading
    } := by
  have hs := h.stored_eq_none hn hk
  have hnew : key ∉ w.refs := h.keeps.not_mem_of_none hs
  have hrefs : inUse w.db ∪ { k | k ∈ key :: w.keys } = insert key w.refs := by
    ext k
    simp [refs, or_left_comm]
  refine ⟨h.accounted, ?_, ?_, ?_, fun k hm => ?_, fun k hm b hb => ?_⟩
  case refine_1 =>
    change (w.depot.store key bytes).Keeps (inUse w.db ∪ { k | k ∈ key :: w.keys })
    exact hrefs ▸ h.keeps.store hs
  case refine_2 => exact List.nodup_cons.mpr ⟨fun hm => hnew (.inr hm), h.nodup⟩
  case refine_3 => exact List.forall_mem_cons.mpr ⟨fun hm => hnew (.inl hm), h.apart⟩
  case refine_4 =>
    by_cases he : k = key
    case pos => exact ⟨_, _, _, _, .head _, he ▸ hk⟩
    case neg =>
      obtain ⟨_, _, _, _, hi, hk'⟩ := h.named k (by simpa [Depot.store, he] using hm)
      exact ⟨_, _, _, _, .tail _ hi, hk'⟩
  case refine_5 =>
    by_cases he : k = key
    case pos =>
      obtain rfl : bytes = b := by simpa [Depot.store, he] using hb
      exact ⟨_, _, _, he ▸ hk⟩
    case neg =>
      have hm : k ∈ w.refs := (hrefs ▸ hm : k ∈ insert key w.refs).resolve_left he
      exact h.whole k hm b (by simpa [Depot.store, he] using hb)

-- Nothing refers to what is left of an object that could not be stored.
theorem Sound.failToStore (h : w.Sound) (hn : objectId ∉ w.objectIds) {laboratoryId : Uuid}
    {name : String} {written : List UInt8}
    (hk : uploadKey laboratoryId objectId name bytes = .ok key) :
    Sound { w with
      depot := w.depot.store key written
      objectIds := objectId :: w.objectIds
    } := by
  have hs := h.stored_eq_none hn hk
  have hnew : key ∉ w.refs := h.keeps.not_mem_of_none hs
  refine ⟨h.accounted, ?_, h.nodup, h.apart, fun k hm => ?_, fun k hm b hb => ?_⟩
  case refine_1 => exact (h.keeps.store hs).weaken <| Set.subset_insert _ _
  case refine_2 =>
    by_cases he : k = key
    case pos => exact ⟨_, _, _, _, .head _, he ▸ hk⟩
    case neg =>
      obtain ⟨_, _, _, _, hi, hk'⟩ := h.named k (by simpa [Depot.store, he] using hm)
      exact ⟨_, _, _, _, .tail _ hi, hk'⟩
  case refine_3 =>
    have he : k ≠ key := fun he => hnew (he ▸ hm)
    exact h.whole k hm b (by simpa [Depot.store, he] using hb)

theorem Sound.database (h : w.Sound) (ha : Accounts w.db keys d) :
    Sound { w with db := d, depot := w.depot.schedule keys } := by
  have hr : inUse d ∪ { k | k ∈ w.keys } ⊆ w.refs := Set.union_subset_union_left _ ha.kept
  have hn : ∀ k ∈ w.keys, k ∉ inUse d := fun k hk hu => h.apart k hk (ha.kept hu)
  refine h.shrink ha.accounted hr (.refl _) hn (h.keeps.release hr fun k hk => ?_) rfl rfl
  obtain ⟨hu, hu'⟩ := ha.dropped k hk
  exact ⟨.inl hu, fun hm => hm.elim hu' fun hm => h.apart k hm hu⟩

theorem Sound.other (h : w.Sound) (ha : Accounts w.db [] d) : Sound { w with db := d } := by
  have hr : inUse d ∪ { k | k ∈ w.keys } ⊆ w.refs := Set.union_subset_union_left _ ha.kept
  have hn : ∀ k ∈ w.keys, k ∉ inUse d := fun k hk hu => h.apart k hk (ha.kept hu)
  exact h.shrink ha.accounted hr (.refl _) hn (h.keeps.weaken hr) rfl rfl

-- A request that is uploading lets go of its object.
theorem Sound.drop (h : w.Sound) {i : Nat} (hd : Accounted d) (hk : inUse d ⊆ w.refs)
    (hn : ∀ k ∈ (w.uploading.eraseIdx i).map (·.2), k ∉ inUse d) :
    Sound { w with db := d, uploading := w.uploading.eraseIdx i } := by
  have hu : ((w.uploading.eraseIdx i).map (·.2)).Sublist w.keys :=
    (List.eraseIdx_sublist _ _).map _
  have hr : inUse d ∪ { k | k ∈ (w.uploading.eraseIdx i).map (·.2) } ⊆ w.refs :=
    Set.union_subset hk fun k hm => .inr (hu.subset hm)
  exact h.shrink hd hr hu hn (h.keeps.weaken hr) rfl rfl

theorem Sound.not_mem_eraseIdx (h : w.Sound) {i : Nat} (hi : w.uploading[i]? = some (ctx, key)) :
    key ∈ w.keys ∧ key ∉ (w.uploading.eraseIdx i).map (·.2) := by
  obtain ⟨hl, he⟩ := List.getElem?_eq_some_iff.mp hi
  have hp := (List.getElem_cons_eraseIdx_perm hl).map (·.2)
  rw [he, List.map_cons] at hp
  exact ⟨hp.mem_iff.mp (.head _), (List.nodup_cons.mp <| hp.nodup_iff.mpr h.nodup).left⟩

theorem Sound.insert (h : w.Sound) {i : Nat} (hi : w.uploading[i]? = some (ctx, key))
    (hd : Accounted d) (hk : inUse d ⊆ Insert.insert key (inUse w.db)) :
    Sound { w with db := d, uploading := w.uploading.eraseIdx i } := by
  obtain ⟨hm, hn⟩ := h.not_mem_eraseIdx hi
  refine h.drop hd (fun k hu => ?_) fun k hm' hu => ?_
  case refine_1 => exact (hk hu).elim (fun he => .inr (he ▸ hm)) .inl
  case refine_2 =>
    obtain rfl | hu := hk hu
    case inl => exact hn hm'
    case inr => exact h.apart k (((List.eraseIdx_sublist _ _).map _).subset hm') hu

theorem Sound.takeBack (h : w.Sound) {i : Nat} (hi : w.uploading[i]? = some (ctx, key)) :
    Sound { w with
      uploading := w.uploading.eraseIdx i
      depot := w.depot.schedule [key]
    } := by
  obtain ⟨hm, hn⟩ := h.not_mem_eraseIdx hi
  have hu : ((w.uploading.eraseIdx i).map (·.2)).Sublist w.keys :=
    (List.eraseIdx_sublist _ _).map _
  have hr : inUse w.db ∪ { k | k ∈ (w.uploading.eraseIdx i).map (·.2) } ⊆ w.refs :=
    Set.union_subset_union_right _ fun k hk => hu.subset hk
  refine h.shrink h.accounted hr hu (fun k hk => h.apart k (hu.subset hk)) ?_ rfl rfl
  refine h.keeps.release hr <| List.forall_mem_singleton.mpr ⟨.inr hm, ?_⟩
  exact fun hk => hk.elim (h.apart key hm) hn

end Sound

theorem Sound.step {settings : Settings} {w : World} {e : Event} (h : w.Sound) (hf : e.Fresh w) :
    (w.step settings e).Sound := by
  cases e
  case store ctx objectId originalFileName bytes =>
    simp only [World.step]
    split
    case h_1 hk => exact h.store hf (storeUpload_eq_ok hk)
    case h_2 => exact h
  case failToStore =>
    simp only [World.step]
    split
    case h_1 hk => exact h.failToStore hf (storeUpload_eq_ok hk)
    case h_2 => exact h
  case insert i newId =>
    simp only [World.step]
    split
    case h_1 => exact h
    case h_2 ctx key hi =>
      have hn := h.apart key (h.not_mem_eraseIdx hi).left
      split
      case h_1 hr =>
        obtain ⟨hd, hk⟩ := wp_run (wlp_insertUploadedFile h.accounted hn) hr
        exact h.insert hi hd hk
      case h_2 => exact h.takeBack hi
  case lose i =>
    exact h.drop h.accounted (fun k hk => .inl hk) fun k hk =>
      h.apart k <| ((List.eraseIdx_sublist _ _).map _).subset hk
  case request ctx request =>
    simp only [World.step]
    split
    case h_1 keys d hr => exact h.database <| wp_run (settles_handle w.db h.accounted) hr
    case h_2 => exact h
  case other p hp =>
    exact h.other <| wp_after (settles_of_writes hp w.db h.accounted) (.refl h.accounted)
  case deleteNext i =>
    exact h.shrink h.accounted subset_rfl (.refl _) h.apart h.keeps.removeNext
      Depot.stored_removeNext rfl
  case giveUp i => exact { h with keeps := h.keeps.abandon }

theorem Run.sound {settings : Settings} {w w' : World} (hr : Run settings w w') (h : w.Sound) :
    w'.Sound := by
  induction hr
  case refl => exact h
  case step hf ih => exact ih.step hf

variable {d : Database}

omit [TextFormats] [UnicodeSegmentation] [ScanOrder] in
theorem Sound.start (hu : d.fileUploads = ∅) (hf : d.files = ∅) (ha : d.attachmentAssignments = ∅) :
    (start d).Sound := by
  have hrefs : (World.start d).refs = ∅ := by
    refine Set.eq_empty_iff_forall_notMem.mpr fun k hk => ?_
    obtain (⟨file, hm, _⟩ | ⟨upload, hm, _⟩) | hk := hk
    case inl.inl => exact Table.not_mem_empty (hf ▸ hm)
    case inl.inr => exact Table.not_mem_empty (hu ▸ hm)
    case inr => exact List.not_mem_nil hk
  refine ⟨⟨fun r hm => ?_, fun file hm => ?_, fun r hm => ?_, fun file hm => ?_⟩, hrefs ▸ .empty,
    .nil, nofun, nofun, fun _ _ _ h => nomatch h⟩
  case refine_1 => exact (Table.not_mem_empty (ha ▸ hm)).elim
  case refine_2 => exact (Table.not_mem_empty (hf ▸ hm)).elim
  case refine_3 => exact (Table.not_mem_empty (ha ▸ hm)).elim
  case refine_4 => exact (Table.not_mem_empty (hf ▸ hm)).elim

def read (w : World) (storageKey : String) : Except ApiError (List UInt8) :=
  match w.depot.objects storageKey with
  | some bytes => .ok bytes
  | none => .error (.unexpected "Failed to read attachment object")

def fetchAttachmentFile (w : World) (attachmentId : Uuid) : Option FileRow := do
  let r ← w.db.attachmentAssignments.find? attachmentId
  w.db.files.find? r.fileId

def downloadAttachment (w : World) (ctx : LaboratoryContext) (attachmentId : Uuid) :
    Except ApiError (List UInt8) := do
  .check (validatePermission w.db ctx.authorizationActor .attachmentAssignment (.read attachmentId))
    (.forbidden "You do not have permission to download this attachment")
  let some file := w.fetchAttachmentFile attachmentId | .error (.notFound "Attachment not found")
  let storageKey ← (FileStorageKey.parse file.storageKey).mapError .unexpected
  w.read storageKey

section Read

variable {w : World} {k : String}

omit [TextFormats] [UnicodeSegmentation] [ScanOrder]

-- What is in use can be read, as it has been uploaded.
theorem Sound.read (h : w.Sound) (hk : k ∈ inUse w.db) : ∃ bytes laboratoryId objectId name,
    FileStorageKey.parse k = .ok k ∧ w.read k = .ok bytes ∧
      uploadKey laboratoryId objectId name bytes = .ok k := by
  obtain ⟨bytes, hb⟩ := Option.isSome_iff_exists.mp <| h.keeps.present k (.inl hk)
  obtain ⟨laboratoryId, objectId, name, hn⟩ := h.whole k (.inl hk) bytes (h.keeps.original k bytes hb)
  refine ⟨bytes, laboratoryId, objectId, name, parse_uploadKey hn, ?_, hn⟩
  unfold World.read
  rw [hb]

theorem Sound.downloadAttachment (h : w.Sound) {ctx : LaboratoryContext} {r : AttachmentAssignmentRow}
    (hr : r ∈ w.db.attachmentAssignments)
    (hp : validatePermission w.db ctx.authorizationActor .attachmentAssignment (.read r.attachmentId)) :
    ∃ file ∈ w.db.files, file.fileId = r.fileId ∧
      w.downloadAttachment ctx r.attachmentId = w.read file.storageKey := by
  obtain ⟨file, hf⟩ := Option.isSome_iff_exists.mp <| h.accounted.filed r hr
  obtain ⟨hm, he⟩ := Table.find?_eq_some.mp hf
  obtain ⟨_, _, _, _, hparse, _⟩ := h.read (.inl ⟨file, hm, rfl⟩)
  refine ⟨file, hm, he, ?_⟩
  have hfound : w.db.attachmentAssignments.find? r.attachmentId = some r := Table.find?_key hr
  have hfile : w.fetchAttachmentFile r.attachmentId = some file := by
    rw [fetchAttachmentFile, hfound]
    exact hf
  simp only [World.downloadAttachment, hp, Except.check, if_true, hfile, hparse]
  rfl

end Read

end World

theorem files_accounted {settings : Settings} {d : Database} {w : World} (hu : d.fileUploads = ∅)
    (hf : d.files = ∅) (ha : d.attachmentAssignments = ∅) (hr : World.Run settings (.start d) w) :
    (∀ file ∈ w.db.files, ∃! r, r ∈ w.db.attachmentAssignments ∧ r.fileId = file.fileId) ∧
    (∀ file ∈ w.db.files, ∀ upload ∈ w.db.fileUploads, upload.storageKey = file.storageKey →
      upload.consumedAt ≠ none) ∧
    (∀ k ∈ inUse w.db, (∀ q ∈ w.depot.queues, k ∉ q) ∧
      ∃ bytes laboratoryId objectId name, FileStorageKey.parse k = .ok k ∧ w.read k = .ok bytes ∧
        uploadKey laboratoryId objectId name bytes = .ok k) ∧
    (∀ ctx, ∀ r ∈ w.db.attachmentAssignments,
      validatePermission w.db ctx.authorizationActor .attachmentAssignment (.read r.attachmentId) →
      ∃ bytes, w.downloadAttachment ctx r.attachmentId = .ok bytes) := by
  have h : w.Sound := hr.sound <| .start hu hf ha
  refine ⟨fun file hm => ?_, h.accounted.spent, fun k hk => ⟨fun q hq hm => ?_, h.read hk⟩,
    fun ctx r hm hp => ?_⟩
  case refine_1 =>
    obtain ⟨r, hm', he⟩ := h.accounted.attached file hm
    refine ⟨r, ⟨hm', he⟩, fun r' hr' => ?_⟩
    exact h.accounted.single r' hr'.left r hm' <| hr'.right.trans he.symm
  case refine_2 => exact (h.keeps.scheduled q hq k hm).right (.inl hk)
  case refine_3 =>
    obtain ⟨file, hfile, -, hd⟩ := h.downloadAttachment hm hp
    obtain ⟨bytes, _, _, _, -, hread, -⟩ := h.read (.inl ⟨file, hfile, rfl⟩)
    exact ⟨bytes, hd.trans hread⟩

section Examples

open InventoryItems

def smallFiles : Settings where
  maxFileSizeBytes := 100
  uploadTokenTtl := 1000

-- A manual is uploaded, and attached to the reagent.
def filed : World :=
  let _ := tallied
  let _ := UnicodeSegmentation.characters
  let _ := ScanOrder.stored
  let payload : NewAttachment := ⟨70, false⟩
  (((World.start stockroom).step smallFiles (.store keeper 5 "manual.PDF" [104, 105])).step smallFiles
    (.insert 0 70)).step smallFiles
    (.request keeper (.assignAssetAttachment 60 payload fun i => .ofNat 128 (80 + i)))

omit [TextFormats] [UnicodeSegmentation] [ScanOrder] in
theorem files_accounted_filed : ∃ bytes, filed.downloadAttachment keeper 81 = .ok bytes := by
  let _ := tallied
  let _ := UnicodeSegmentation.characters
  let _ := ScanOrder.stored
  have hmanual : (Event.store keeper 5 "manual.PDF" [104, 105]).Fresh (.start stockroom) :=
    List.not_mem_nil
  have hr : World.Run smallFiles (.start stockroom) filed := by
    refine .step (e := .request ..) (.step (e := .insert 0 70) ?_ trivial) trivial
    exact .step .refl hmanual
  have hfiled : 81 ∈ filed.db.attachmentAssignments.rows.map (·.attachmentId) ∧
      validatePermission filed.db keeper.authorizationActor .attachmentAssignment (.read 81) := by decide +kernel
  obtain ⟨r, hr', he⟩ := List.mem_map.mp hfiled.left
  obtain ⟨-, -, -, hd⟩ := files_accounted rfl rfl rfl hr
  have hdownload := hd keeper r hr'
  rw [he] at hdownload
  exact hdownload hfiled.right

end Examples

end FileStorage

end LabInventory
