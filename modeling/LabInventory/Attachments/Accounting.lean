import LabInventory.Attachments.Assignment

open Sql Program

namespace LabInventory

namespace Attachments

variable {d d₁ d₂ d' : Database} {α β : Type}

-- The objects of files, and of the uploads that may still become one.
def inUse (d : Database) : Set String :=
  { k | (∃ file ∈ d.files, file.storageKey = k) ∨
    ∃ upload ∈ d.fileUploads, upload.consumedAt = none ∧ upload.storageKey = k }

structure Accounted (d : Database) : Prop where
  filed : Filed d
  attached : ∀ file ∈ d.files, ∃ r ∈ d.attachmentAssignments, r.fileId = file.fileId
  single : ∀ r₁ ∈ d.attachmentAssignments, ∀ r₂ ∈ d.attachmentAssignments,
    r₁.fileId = r₂.fileId → r₁ = r₂
  spent : ∀ file ∈ d.files, ∀ upload ∈ d.fileUploads, upload.storageKey = file.storageKey →
    upload.consumedAt ≠ none

theorem eq_of_storageKey {file file' : FileRow} (h : file ∈ d.files) (h' : file' ∈ d.files)
    (he : file.storageKey = file'.storageKey) : file = file' :=
  Table.eq_of_clash (.head _) h h' ⟨Option.some_ne_none _, congrArg some he⟩

theorem upload_eq_of_storageKey {upload upload' : FileUploadRow} (h : upload ∈ d.fileUploads)
    (h' : upload' ∈ d.fileUploads) (he : upload.storageKey = upload'.storageKey) :
    upload = upload' :=
  Table.eq_of_clash (.head _) h h' ⟨Option.some_ne_none _, congrArg some he⟩

-- What happens to the objects in use while `keys` are given up.
structure Accounts (d : Database) (keys : List String) (d' : Database) : Prop where
  accounted : Accounted d'
  kept : inUse d' ⊆ inUse d
  dropped : ∀ k ∈ keys, k ∈ inUse d ∧ k ∉ inUse d'

theorem Accounts.refl (h : Accounted d) : Accounts d [] d where
  accounted := h
  kept := subset_rfl
  dropped _ hk := absurd hk List.not_mem_nil

theorem Accounts.trans {keys keys' : List String} (h : Accounts d keys d₁)
    (h' : Accounts d₁ keys' d') : Accounts d (keys ++ keys') d' where
  accounted := h'.accounted
  kept := h'.kept.trans h.kept
  dropped k hk := by
    obtain hk | hk := List.mem_append.mp hk
    case inl => exact ⟨(h.dropped k hk).left, fun hu => (h.dropped k hk).right (h'.kept hu)⟩
    case inr => exact ⟨h.kept (h'.dropped k hk).left, (h'.dropped k hk).right⟩

section Untouched

structure SameFiles (d d' : Database) : Prop where
  fileUploads : d'.fileUploads = d.fileUploads
  files : d'.files = d.files
  attachmentAssignments : d'.attachmentAssignments = d.attachmentAssignments

theorem SameFiles.refl : SameFiles d d :=
  ⟨rfl, rfl, rfl⟩

theorem SameFiles.trans (h : SameFiles d d₁) (h' : SameFiles d₁ d') : SameFiles d d' :=
  ⟨h'.fileUploads.trans h.fileUploads, h'.files.trans h.files,
    h'.attachmentAssignments.trans h.attachmentAssignments⟩

theorem SameFiles.accounts (h : SameFiles d d') (ha : Accounted d) : Accounts d [] d' where
  accounted := by
    refine ⟨ha.filed.of_subset h.files fun r hr => h.attachmentAssignments ▸ hr, ?_, ?_, ?_⟩
    case refine_1 => rw [h.files, h.attachmentAssignments]; exact ha.attached
    case refine_2 => rw [h.attachmentAssignments]; exact ha.single
    case refine_3 => rw [h.files, h.fileUploads]; exact ha.spent
  kept := by
    unfold inUse
    rw [h.files, h.fileUploads]
  dropped _ hk := absurd hk List.not_mem_nil

-- The writes that no attachment, file or upload notices.
def Untouched : Write → Prop
  | .fileUploads _ | .files _ | .attachmentAssignments _ | .assets (.delete _)
  | .assetInventoryItems (.delete _) => False
  | _ => True

theorem sameFiles_of_apply {w : Write} (hw : Untouched w) (h : d.apply w = .ok d') :
    SameFiles d d' := by
  have ha := Database.applied_of_apply h
  cases w
  case fileUploads | files | attachmentAssignments => exact hw.elim
  case assets w =>
    cases w
    case delete => exact hw.elim
    all_goals
      simp only [Database.apply, Database.writeAssets, Except.bind_eq_ok, Except.pure_eq_ok] at h
      obtain ⟨_, _, _, _, rfl⟩ := h
      exact ⟨rfl, rfl, rfl⟩
  case assetInventoryItems w =>
    cases w
    case delete => exact hw.elim
    all_goals
      simp only [Database.apply, Database.writeAssetInventoryItems, Except.bind_eq_ok,
        Except.pure_eq_ok] at h
      obtain ⟨_, _, rfl⟩ := h
      exact ⟨rfl, rfl, rfl⟩
  case tree kind w => cases kind <;> exact ⟨by rw [ha.right], by rw [ha.right], by rw [ha.right]⟩
  all_goals exact ⟨by rw [ha.right], by rw [ha.right], by rw [ha.right]⟩

-- An item that nothing is attached to can go.
theorem sameFiles_of_deleteItem {k : Uuid} (h : d.apply (.assetInventoryItems (.delete k)) = .ok d')
    (hn : ∀ r ∈ d.attachmentAssignments, r.inventoryItemId ≠ some k) : SameFiles d d' := by
  simp only [Database.apply, Database.writeAssetInventoryItems, Except.bind_eq_ok,
    Except.pure_eq_ok] at h
  obtain ⟨_, _, rfl⟩ := h
  refine ⟨rfl, rfl, Table.ext ?_⟩
  exact List.filter_eq_self.mpr fun r hr => decide_eq_true (hn r hr)

theorem sameFiles_of_deleteAsset {k : Uuid} (h : d.apply (.assets (.delete k)) = .ok d')
    (hn : ∀ r ∈ d.attachmentAssignments, r.assetId ≠ some k)
    (hi : ∀ r ∈ d.attachmentAssignments, ∀ item ∈ d.assetInventoryItems, item.assetId = k →
      r.inventoryItemId ≠ some item.inventoryItemId) : SameFiles d d' := by
  simp only [Database.apply, Database.writeAssets, Except.bind_eq_ok, Except.pure_eq_ok] at h
  obtain ⟨_, _, rfl⟩ := h
  refine ⟨rfl, rfl, Table.ext ?_⟩
  refine List.filter_eq_self.mpr fun r hr => decide_eq_true ⟨hn r hr, fun ha => ?_⟩
  obtain ⟨id, he, ha⟩ := (Option.any_eq_true _ _).mp ha
  obtain ⟨item, hf, hk⟩ := (Option.any_eq_true _ _).mp ha
  obtain ⟨hm, rfl⟩ := Table.find?_eq_some.mp hf
  exact hi r hr item hm (of_decide_eq_true hk) he

end Untouched

-- What a transaction does to the objects in use when it runs on its own.
def Settles (keys : α → List String) (p : Transaction α) : Prop :=
  ∀ d, Accounted d → p.wlp (fun a d' => Accounts d (keys a) d') d

section Settles

variable {keys : α → List String} {keys' : β → List String} {p : Transaction α}
  {f : α → Transaction β}

theorem Settles.bind (hp : Settles (fun _ => []) p) (hf : ∀ a, Settles keys' (f a)) :
    Settles keys' (p >>= f) :=
  fun d h => wp_bind.mpr <| wp_mono (hp d h) fun a d₁ h₁ =>
    wp_mono (hf a d₁ h₁.accounted) fun _ _ h' => h₁.trans h'

theorem settles_done {b : β} (h : keys' b = []) : Settles keys' (.done b) :=
  fun _ ha => wp_done.mpr <| h ▸ .refl ha

theorem settles_abort {e : ApiError} : Settles keys (.abort e) :=
  fun _ _ => trivial

theorem settles_readOnly_bind (hp : p.ReadOnly) (hf : ∀ a, Settles keys' (f a)) :
    Settles keys' (p >>= f) :=
  fun d h => wp_readOnly_bind hp fun a => hf a d h

theorem settles_of_writes (hp : p.Writes Untouched) : Settles (fun _ => []) p :=
  fun _ h => hp.wlp (.refl h) fun _ _ _ hw hd ha =>
    hd.trans <| (sameFiles_of_apply hw ha).accounts hd.accounted

end Settles

section Assigning

variable {target : AttachmentTarget} {upload : FileUploadRow} {fileId attachmentId : Uuid}
  {isPublic : Bool} {missing : String → ApiError} {laboratoryId : Uuid} {newIds : NewIds}

-- The object passes from the upload to the file.
theorem Writing.accounts (h : Writing target upload fileId attachmentId isPublic d d')
    (hc : upload.consumedAt = none) (ha : Accounted d) (hf : Filed d') : Accounts d [] d' := by
  have hupload := h.stored
  refine ⟨⟨hf, fun file hm => ?_, fun r₁ h₁ r₂ h₂ he => ?_, fun file hm u hu hk => ?_⟩, ?_,
    fun _ hk => absurd hk List.not_mem_nil⟩
  case refine_1 =>
    obtain hm | rfl := (Table.mem_insert h.taken).mp hm
    case inl =>
      obtain ⟨r, hr, he⟩ := ha.attached file hm
      exact ⟨r, (Table.mem_insert h.attached).mpr (.inl hr), he⟩
    case inr => exact ⟨_, (Table.mem_insert h.attached).mpr (.inr rfl), rfl⟩
  case refine_2 =>
    have hnew : ∀ r ∈ d.attachmentAssignments, r.fileId ≠ fileId := by
      intro r hr he
      have hfile := ha.filed r hr
      rw [he, show d.files.find? fileId = none from Table.find?_of_insert h.taken] at hfile
      exact nomatch hfile
    obtain h₁ | rfl := (Table.mem_insert h.attached).mp h₁ <;>
      obtain h₂ | rfl := (Table.mem_insert h.attached).mp h₂
    case inl.inl => exact ha.single r₁ h₁ r₂ h₂ he
    case inl.inr => exact absurd he <| hnew r₁ h₁
    case inr.inl => exact absurd he.symm <| hnew r₂ h₂
    case inr.inr => rfl
  case refine_3 =>
    obtain ⟨hu, hne⟩ | ⟨rfl, _⟩ := (Table.mem_update h.consumed).mp hu
    case inr => exact Option.some_ne_none _
    case inl =>
      obtain hm | rfl := (Table.mem_insert h.taken).mp hm
      case inl => exact ha.spent file hm u hu hk
      case inr =>
        exact absurd (upload_eq_of_storageKey hu hupload hk ▸ rfl) hne
  case refine_4 =>
    rintro k (⟨file, hm, rfl⟩ | ⟨u, hu, hn, rfl⟩)
    case inl =>
      obtain hm | rfl := (Table.mem_insert h.taken).mp hm
      case inl => exact .inl ⟨file, hm, rfl⟩
      case inr => exact .inr ⟨upload, hupload, hc, rfl⟩
    case inr =>
      obtain ⟨hu, -⟩ | ⟨rfl, _⟩ := (Table.mem_update h.consumed).mp hu
      case inl => exact .inr ⟨u, hu, hn, rfl⟩
      case inr => exact nomatch hn

theorem settles_assignUploadedAttachment {attachment : NewAttachment} :
    Settles (fun _ => [])
      (assignUploadedAttachment missing target laboratoryId newIds attachment) := by
  intro d ha
  refine wp_bind.mpr <| wlp_consumeFileUpload fun upload d₁ hu hc h₁ => ?_
  refine wp_readOnly_bind readOnly_require fun _ => ?_
  refine wp_bind.mpr <| wp_exec.mpr ⟨fun d₂ h₂ => ⟨trivial, ?_⟩, fun _ _ => trivial⟩
  refine wp_exec.mpr ⟨fun d₃ h₃ => ⟨trivial, ?_⟩, fun _ _ => trivial⟩
  obtain ⟨ht₁, hd₁⟩ := Database.applied_of_apply h₁
  obtain ⟨ht₂, hd₂⟩ := Database.applied_of_apply h₂
  obtain ⟨ht₃, hd₃⟩ := Database.applied_of_apply h₃
  have hw : Writing target upload (newIds 0) (newIds 1) attachment.isPublic d d₃ := by
    rw [show d₁.files = d.files by rw [hd₁]] at ht₂
    rw [show d₂.attachmentAssignments = d.attachmentAssignments by rw [hd₂, hd₁]] at ht₃
    rw [show d₁.fileUploads = d₃.fileUploads by rw [hd₃, hd₂]] at ht₁
    rw [show d₂.files = d₃.files by rw [hd₃]] at ht₂
    exact ⟨(Table.find?_eq_some.mp hu).left, ht₁, ht₂, ht₃⟩
  exact hw.accounts hc ha <| ((ha.filed.apply h₁).apply h₂).apply h₃

theorem settles_assignUploadedAttachments {attachments : List NewAttachment} :
    Settles (fun _ => [])
      (assignUploadedAttachments missing target laboratoryId newIds attachments) := by
  refine settles_readOnly_bind readOnly_require fun _ => ?_
  induction attachments generalizing newIds
  case nil => exact settles_done rfl
  case cons ih => exact settles_assignUploadedAttachment.bind fun _ => ih

end Assigning

section Removal

variable {ρ κ C : Type} [TableSchema ρ κ C]

-- The rows that satisfy `p` are removed one after another. The keys `left` remain to be visited.
structure Removed (p : ρ → Bool) (t : Table ρ) (gone : List ρ) (left : List κ) (t' : Table ρ) :
    Prop where
  removed : ∀ r ∈ gone, r ∈ t ∧ p r
  remaining : ∀ r, r ∈ t' ↔ r ∈ t ∧ r ∉ gone
  unvisited : ∀ r ∈ t', p r → TableSchema.key r ∈ left

variable {p : ρ → Bool} {t t' : Table ρ} {gone : List ρ} {left : List κ} {k : κ} {r : ρ}

theorem Removed.init (h : ∀ r ∈ t, p r → TableSchema.key r ∈ left) : Removed p t [] left t where
  removed _ hr := absurd hr List.not_mem_nil
  remaining _ := (and_iff_left List.not_mem_nil).symm
  unvisited := h

theorem Removed.skip (h : Removed p t gone (k :: left) t') (hn : (t'.find? k).filter p = none) :
    Removed p t gone left t' where
  removed := h.removed
  remaining := h.remaining
  unvisited r hr hp := by
    obtain rfl | hm := List.mem_cons.mp (h.unvisited r hr hp)
    case inl =>
      rw [Table.find?_key hr, Option.filter_some, if_pos hp] at hn
      exact nomatch hn
    case inr => exact hm

theorem Removed.delete (h : Removed p t gone (k :: left) t')
    (hf : (t'.find? k).filter p = some r) :
    Removed p t (gone ++ [r]) left (t'.delete (TableSchema.key r)) := by
  obtain ⟨hf, hp⟩ := Option.filter_eq_some_iff.mp hf
  obtain ⟨hr, rfl⟩ := Table.find?_eq_some.mp hf
  have hmem : ∀ r', r' ∈ t'.delete (TableSchema.key r) ↔ r' ∈ t' ∧ r' ≠ r := by
    intro r'
    rw [Table.mem_delete]
    refine and_congr_right fun hm => not_congr ⟨fun hk => Table.eq_of_key_eq hm hr hk, ?_⟩
    rintro rfl
    rfl
  refine ⟨fun r' hm => ?_, fun r' => ?_, fun r' hm hp' => ?_⟩
  case refine_1 =>
    obtain hm | hm := List.mem_append.mp hm
    case inl => exact h.removed r' hm
    case inr =>
      obtain rfl := List.mem_singleton.mp hm
      exact ⟨((h.remaining r').mp hr).left, hp⟩
  case refine_2 => rw [hmem, h.remaining, List.mem_append, List.mem_singleton, not_or, and_assoc]
  case refine_3 =>
    obtain ⟨hm, hne⟩ := (hmem r').mp hm
    exact (List.mem_cons.mp (h.unvisited r' hm hp')).resolve_left fun hk =>
      hne <| Table.eq_of_key_eq hm hr hk

end Removal

section Deleting

variable {isDeleted : AttachmentAssignmentRow → Bool} {err : Constraint → ApiError}

theorem wlp_collect_deleteAssignment {bs : List AttachmentAssignmentRow}
    (hb : ∀ r ∈ d.attachmentAssignments, isDeleted r → r.attachmentId ∈ bs.map (·.attachmentId)) :
    wlp (fun gone d' => Removed isDeleted d.attachmentAssignments gone [] d'.attachmentAssignments ∧
        d' = { d with attachmentAssignments := d'.attachmentAssignments })
      (.collect (.attachmentAssignment ·.attachmentId) (deleteAssignment isDeleted err) bs) d := by
  refine wp_collect (fun gone bs (d' : Database) => Removed isDeleted d.attachmentAssignments gone
    (bs.map (·.attachmentId)) d'.attachmentAssignments ∧
      d' = { d with attachmentAssignments := d'.attachmentAssignments }) ⟨.init hb, rfl⟩ ?_
  intro gone b bs d₁ hd₁
  obtain ⟨h, he⟩ := hd₁
  refine wp_bind.mpr <| wp_read.mpr ?_
  cases hf : (d₁.attachmentAssignments.find? b.attachmentId).filter isDeleted
  case none =>
    refine wp_done.mpr ⟨?_, he⟩
    rw [List.append_nil]
    exact h.skip hf
  case some r =>
    refine wp_bind.mpr <| wp_exec.mpr ⟨fun d₂ ha => ⟨trivial, wp_done.mpr ?_⟩, fun _ _ => trivial⟩
    obtain ⟨ht, he'⟩ := Database.applied_of_apply ha
    have hgone : d₁.attachmentAssignments.delete r.attachmentId = d₂.attachmentAssignments :=
      Except.ok.inj ht
    exact ⟨hgone ▸ h.delete hf, by rw [he', he]⟩

theorem wlp_collect_deleteFile {ids : List Uuid} :
    wlp (fun gone d' => Removed (fun file => ids.contains file.fileId) d.files gone [] d'.files ∧
        d' = { d with files := d'.files })
      (.collect .file (deleteFile err) ids) d := by
  let J (gone : List FileRow) (left : List Uuid) (d' : Database) : Prop :=
    (∀ k ∈ left, ids.contains k) ∧
      Removed (fun file => ids.contains file.fileId) d.files gone left d'.files ∧
      d' = { d with files := d'.files }
  have hd : J [] ids d :=
    ⟨fun _ => List.contains_iff_mem.mpr, .init fun _ _ => List.contains_iff_mem.mp, rfl⟩
  refine wp_mono (wp_collect J hd ?_) fun _ _ h => h.right
  intro gone k left d₁ hd₁
  obtain ⟨hl, h, he⟩ := hd₁
  have hl' : ∀ k ∈ left, ids.contains k := fun k' hk' => hl k' (.tail _ hk')
  have hfilter : (d₁.files.find? k).filter (fun file => ids.contains file.fileId) =
      d₁.files.find? k := by
    cases hf : d₁.files.find? k
    case none => rfl
    case some file =>
      obtain ⟨-, rfl⟩ := Table.find?_eq_some.mp hf
      exact Option.filter_some_pos (hl _ (.head _))
  refine wp_bind.mpr <| wp_read.mpr ?_
  cases hf : d₁.files.find? k
  case none =>
    refine wp_done.mpr ⟨hl', ?_, he⟩
    rw [List.append_nil]
    exact h.skip (hfilter.trans hf)
  case some file =>
    refine wp_bind.mpr <| wp_exec.mpr ⟨fun d₂ ha => ⟨trivial, wp_done.mpr ?_⟩, fun _ _ => trivial⟩
    obtain ⟨ht, he'⟩ := Database.applied_of_apply ha
    have hgone : d₁.files.delete file.fileId = d₂.files := Except.ok.inj ht
    exact ⟨hl', hgone ▸ h.delete (hfilter.trans hf), by rw [he', he]⟩

theorem exists_of_mem_deletedAttachments {assignments : List AttachmentAssignmentRow}
    {files : List FileRow} {k : String}
    (h : k ∈ (deletedAttachments assignments files).map (·.storageKey)) :
    ∃ file ∈ files, file.storageKey = k := by
  obtain ⟨r, hr, rfl⟩ := List.mem_map.mp h
  have hr := (List.perm_insertionSort _ _).mem_iff.mp hr
  obtain ⟨a, -, ha⟩ := List.mem_filterMap.mp hr
  obtain ⟨file, hf, rfl⟩ := Option.map_eq_some_iff.mp ha
  exact ⟨file, List.mem_of_find?_eq_some hf, rfl⟩

-- Nothing that should be deleted is left, and its objects are given up.
structure Detached (isDeleted : AttachmentAssignmentRow → Bool) (d : Database) (keys : List String)
    (d' : Database) : Prop where
  accounts : Accounts d keys d'
  remaining : ∀ r ∈ d'.attachmentAssignments, r ∈ d.attachmentAssignments ∧ ¬isDeleted r
  files : ∀ file ∈ d'.files, file ∈ d.files
  elsewhere : d' = { d with attachmentAssignments := d'.attachmentAssignments, files := d'.files }

-- Which files go is decided by the attachments that go.
theorem Accounted.detach {keys : List String} (ha : Accounted d)
    (hr : ∀ r, r ∈ d'.attachmentAssignments ↔ r ∈ d.attachmentAssignments ∧ ¬isDeleted r)
    (hf : ∀ file, file ∈ d'.files ↔ file ∈ d.files ∧
      ∀ r ∈ d.attachmentAssignments, isDeleted r → r.fileId ≠ file.fileId)
    (hu : d'.fileUploads = d.fileUploads)
    (hk : ∀ k ∈ keys, ∃ file ∈ d.files, file ∉ d'.files ∧ file.storageKey = k) :
    Accounts d keys d' := by
  refine ⟨⟨fun r hm => ?_, fun file hm => ?_, fun r₁ h₁ r₂ h₂ => ?_, fun file hm u hu' => ?_⟩,
    fun k hm => ?_, fun k hm => ?_⟩
  case refine_1 =>
    obtain ⟨hm, hn⟩ := (hr r).mp hm
    obtain ⟨file, hfile⟩ := Option.isSome_iff_exists.mp <| ha.filed r hm
    obtain ⟨hmem, he⟩ := Table.find?_eq_some.mp hfile
    refine Option.isSome_iff_exists.mpr ⟨file, Table.find?_eq_some.mpr ⟨?_, he⟩⟩
    refine (hf file).mpr ⟨hmem, fun r' hr' hd' he' => hn ?_⟩
    exact ha.single r' hr' r hm (he'.trans he) ▸ hd'
  case refine_2 =>
    obtain ⟨hm, hn⟩ := (hf file).mp hm
    obtain ⟨r, hm', he⟩ := ha.attached file hm
    exact ⟨r, (hr r).mpr ⟨hm', fun hd => hn r hm' hd he⟩, he⟩
  case refine_3 => exact ha.single r₁ ((hr r₁).mp h₁).left r₂ ((hr r₂).mp h₂).left
  case refine_4 => exact ha.spent file ((hf file).mp hm).left u (hu ▸ hu')
  case refine_5 =>
    obtain ⟨file, hm, he⟩ | ⟨u, hu', hc, he⟩ := hm
    case inl => exact .inl ⟨file, ((hf file).mp hm).left, he⟩
    case inr => exact .inr ⟨u, hu ▸ hu', hc, he⟩
  case refine_6 =>
    obtain ⟨file, hfile, hn, rfl⟩ := hk k hm
    refine ⟨.inl ⟨file, hfile, rfl⟩, ?_⟩
    rintro (⟨file', hm', he⟩ | ⟨u, hu', hc, he⟩)
    case inl =>
      exact hn (eq_of_storageKey ((hf file').mp hm').left hfile he ▸ hm')
    case inr => exact ha.spent file hfile u (hu ▸ hu') he hc

theorem wlp_deleteAttachments [ScanOrder] (ha : Accounted d) :
    (deleteAttachments isDeleted err).wlp
      (fun as d' => Detached isDeleted d (as.map (·.storageKey)) d') d := by
  refine wp_bind.mpr <| wp_read.mpr <| wp_bind.mpr ?_
  refine wp_mono (wlp_collect_deleteAssignment fun r hr hd => ?_) fun gone d₁ hd₁ => ?_
  case refine_1 =>
    refine List.mem_map.mpr ⟨r, ScanOrder.mem_visit.mpr ?_, rfl⟩
    exact List.mem_filter.mpr ⟨hr, hd⟩
  obtain ⟨h₁, he₁⟩ := hd₁
  refine wp_bind.mpr <| wp_mono wlp_collect_deleteFile fun files d₂ hd₂ => wp_done.mpr ?_
  obtain ⟨h₂, he₂⟩ := hd₂
  rw [show d₁.files = d.files by rw [he₁]] at h₂
  have hassignments : d₂.attachmentAssignments = d₁.attachmentAssignments := by rw [he₂]
  have hgone : ∀ r, r ∈ gone ↔ r ∈ d.attachmentAssignments ∧ isDeleted r := by
    refine fun r => ⟨h₁.removed r, fun hr => ?_⟩
    by_contra hn
    exact List.not_mem_nil <| h₁.unvisited r ((h₁.remaining r).mpr ⟨hr.left, hn⟩) hr.right
  have hids : ∀ file : FileRow, (gone.map (·.fileId)).contains file.fileId ↔
      ∃ r ∈ d.attachmentAssignments, isDeleted r ∧ r.fileId = file.fileId := by
    simp [hgone, and_assoc]
  have hleft : ∀ r, r ∈ d₂.attachmentAssignments ↔ r ∈ d.attachmentAssignments ∧ ¬isDeleted r := by
    intro r
    rw [hassignments, h₁.remaining, hgone]
    exact and_congr_right fun hr => not_congr <| and_iff_right hr
  refine ⟨ha.detach hleft (fun file => ?_) (by rw [he₂, he₁]) fun k hk => ?_,
    fun r hr => (hleft r).mp hr, fun file hm => ((h₂.remaining file).mp hm).left,
    by rw [he₂, he₁]⟩
  case refine_1 =>
    rw [h₂.remaining]
    refine and_congr_right fun hm => ⟨fun hn r hr hd he => ?_, fun hn hg => ?_⟩
    case refine_1 =>
      refine List.not_mem_nil <| h₂.unvisited file ((h₂.remaining file).mpr ⟨hm, hn⟩) ?_
      exact (hids file).mpr ⟨r, hr, hd, he⟩
    case refine_2 =>
      obtain ⟨r, hr, hd, he⟩ := (hids file).mp (h₂.removed file hg).right
      exact hn r hr hd he
  case refine_2 =>
    obtain ⟨file, hg, he⟩ := exists_of_mem_deletedAttachments hk
    exact ⟨file, (h₂.removed file hg).left, fun hm => ((h₂.remaining file).mp hm).right hg, he⟩

theorem wlp_fetchAttachmentForUpdate {attachmentId : Uuid}
    {Q : Option (AttachmentAssignmentRow × FileRow) → Database → Prop} (hn : Q none d)
    (hs : ∀ r ∈ d.attachmentAssignments, ∀ file ∈ d.files, r.attachmentId = attachmentId →
      file.fileId = r.fileId → Q (some (r, file)) d) :
    (fetchAttachmentForUpdate attachmentId).wlp Q d := by
  refine wp_selectForUpdate.mpr ?_
  cases hr : d.attachmentAssignments.find? attachmentId
  case none => exact hn
  case some r =>
    obtain ⟨hm, hk⟩ := Table.find?_eq_some.mp hr
    simp only [Option.bind_eq_bind, Option.bind_some, Option.pure_def]
    cases hf : d.files.find? r.fileId
    case none => exact hn
    case some file =>
      obtain ⟨hfile, hid⟩ := Table.find?_eq_some.mp hf
      exact hs r hm file hfile hk hid

theorem settles_deleteAttachment [ScanOrder] {ctx : LaboratoryContext} {attachmentId : Uuid} :
    Settles (fun key => [key]) (deleteAttachment ctx attachmentId) := by
  intro d ha
  refine wp_bind.mpr <| wlp_fetchAttachmentForUpdate trivial fun r hm file hfile hk hid => ?_
  refine wp_readOnly_bind readOnly_read fun _ => wp_readOnly_bind readOnly_require fun _ => ?_
  refine wp_bind.mpr <| wp_mono (wlp_deleteAttachments ha) fun as d' h => wp_done.mpr ?_
  refine ⟨h.accounts.accounted, h.accounts.kept, List.forall_mem_singleton.mpr ?_⟩
  refine ⟨.inl ⟨file, hfile, rfl⟩, ?_⟩
  rintro (⟨file', hm', he⟩ | ⟨u, hu, hc, he⟩)
  case inl =>
    have hsame : file' = file := eq_of_storageKey (h.files file' hm') hfile he
    obtain ⟨r', hr', he'⟩ := h.accounts.accounted.attached file' hm'
    obtain ⟨hr', hn⟩ := h.remaining r' hr'
    have hrr : r' = r := ha.single r' hr' r hm <| he'.trans <| hsame ▸ hid
    exact hn <| hrr ▸ decide_eq_true hk
  case inr =>
    have huploads : d'.fileUploads = d.fileUploads := by rw [h.elsewhere]
    exact ha.spent file hfile u (huploads ▸ hu) he hc

end Deleting

section Updating

-- Attachments are not modelled with their name and description.
def updateAttachment (ctx : LaboratoryContext) (attachmentId : Uuid) (isPublic : Option Bool) :
    Transaction Unit := do
  let some (existing, _) ← fetchAttachmentForUpdate attachmentId |
    .abort (.notFound "Attachment not found")
  let permitted ← .read
    (validatePermission · ctx.authorizationActor .attachmentAssignment (.update attachmentId))
  .require permitted (.forbidden "You do not have permission to update this attachment")
  .exec (.attachmentAssignments <| .update { existing with
    isPublic := isPublic.getD existing.isPublic
  }) mapDatabaseError

variable {r r' : AttachmentAssignmentRow}

-- An attachment can be passed on, as long as it keeps its file.
theorem Accounted.pass (ha : Accounted d) (hr : r ∈ d.attachmentAssignments)
    (hk : r'.attachmentId = r.attachmentId) (hf : r'.fileId = r.fileId)
    (h : d.apply (.attachmentAssignments (.update r')) = .ok d') : Accounts d [] d' := by
  have hfiled := ha.filed.apply h
  obtain ⟨ht, he⟩ := Database.applied_of_apply h
  have hfiles : d'.files = d.files := by rw [he]
  have huploads : d'.fileUploads = d.fileUploads := by rw [he]
  have hmem : ∀ a, a ∈ d'.attachmentAssignments ↔
      (a ∈ d.attachmentAssignments ∧ a.attachmentId ≠ r.attachmentId) ∨ a = r' := by
    intro a
    refine (Table.mem_update ht).trans ?_
    refine or_congr (by rw [← hk]; rfl) (and_iff_left ⟨r, hr, hk.symm⟩)
  have hsame : ∀ a ∈ d.attachmentAssignments, a.fileId = r.fileId → a = r :=
    fun a hm hf => ha.single a hm r hr hf
  refine ⟨⟨hfiled, fun file hm => ?_, fun r₁ h₁ r₂ h₂ he => ?_, ?_⟩, ?_,
    fun _ hk => absurd hk List.not_mem_nil⟩
  case refine_1 =>
    obtain ⟨a, hm', he⟩ := ha.attached file (hfiles ▸ hm)
    by_cases hid : a.attachmentId = r.attachmentId
    case pos =>
      obtain rfl := Table.eq_of_key_eq hm' hr hid
      exact ⟨r', (hmem r').mpr (.inr rfl), hf.trans he⟩
    case neg => exact ⟨a, (hmem a).mpr (.inl ⟨hm', hid⟩), he⟩
  case refine_2 =>
    obtain ⟨h₁, hn₁⟩ | rfl := (hmem r₁).mp h₁ <;> obtain ⟨h₂, hn₂⟩ | rfl := (hmem r₂).mp h₂
    case inl.inl => exact ha.single r₁ h₁ r₂ h₂ he
    case inl.inr => exact absurd (hsame r₁ h₁ (he.trans hf) ▸ rfl) hn₁
    case inr.inl => exact absurd (hsame r₂ h₂ (he.symm.trans hf) ▸ rfl) hn₂
    case inr.inr => rfl
  case refine_3 =>
    rw [hfiles, huploads]
    exact ha.spent
  case refine_4 =>
    unfold inUse
    rw [hfiles, huploads]

theorem settles_updateAttachment {ctx : LaboratoryContext} {attachmentId : Uuid}
    {isPublic : Option Bool} :
    Settles (fun _ => []) (updateAttachment ctx attachmentId isPublic) := by
  intro d ha
  refine wp_bind.mpr <| wlp_fetchAttachmentForUpdate trivial fun r hm _ _ _ _ => ?_
  refine wp_readOnly_bind readOnly_read fun _ => wp_readOnly_bind readOnly_require fun _ => ?_
  refine wp_exec.mpr ⟨fun d' h => ⟨trivial, ?_⟩, fun _ _ => trivial⟩
  refine ha.pass hm ?_ ?_ h <;> rfl

end Updating

section Uploads

variable {ctx : LaboratoryContext} {uploadId newId : Uuid} {storageKey : String}
  {uploadTokenTtl : Timestamp}

theorem settles_deleteFileUpload :
    Settles (fun key => [key]) (FileUploads.deleteFileUpload ctx uploadId) := by
  intro d ha
  refine wp_bind.mpr <| wp_read.mpr <| wp_bind.mpr <| wp_require.mpr ⟨fun _ => ?_, fun _ => trivial⟩
  refine wp_bind.mpr <| wp_selectForUpdate.mpr ?_
  cases hf : d.fileUploads.find? uploadId
  case none => trivial
  case some upload =>
    obtain ⟨hm, -⟩ := Table.find?_eq_some.mp hf
    refine wp_bind.mpr <| wp_require.mpr ⟨fun hc => ?_, fun _ => trivial⟩
    have hc := Option.isNone_iff_eq_none.mp hc
    refine wp_bind.mpr <| wp_exec.mpr ⟨fun d' h => ⟨trivial, wp_done.mpr ?_⟩, fun _ _ => trivial⟩
    have hfiled := ha.filed.apply h
    obtain ⟨ht, he⟩ := Database.applied_of_apply h
    have hfiles : d'.files = d.files := by rw [he]
    have hassignments : d'.attachmentAssignments = d.attachmentAssignments := by rw [he]
    have huploads : ∀ u, u ∈ d'.fileUploads ↔ u ∈ d.fileUploads ∧ u.uploadId ≠ upload.uploadId := by
      intro u
      have hgone : d.fileUploads.delete upload.uploadId = d'.fileUploads := Except.ok.inj ht
      rw [← hgone]
      exact Table.mem_delete
    refine ⟨⟨hfiled, ?_, ?_, fun file hfile u hu => ?_⟩, fun k hk => ?_, fun k hk => ?_⟩
    case refine_1 => rw [hfiles, hassignments]; exact ha.attached
    case refine_2 => rw [hassignments]; exact ha.single
    case refine_3 => exact ha.spent file (hfiles ▸ hfile) u ((huploads u).mp hu).left
    case refine_4 =>
      obtain ⟨file, hfile, he⟩ | ⟨u, hu, hn, he⟩ := hk
      case inl => exact .inl ⟨file, hfiles ▸ hfile, he⟩
      case inr => exact .inr ⟨u, ((huploads u).mp hu).left, hn, he⟩
    case refine_5 =>
      obtain rfl := List.mem_singleton.mp hk
      refine ⟨.inr ⟨upload, hm, hc, rfl⟩, ?_⟩
      rintro (⟨file, hfile, he⟩ | ⟨u, hu, -, he⟩)
      case inl => exact ha.spent file (hfiles ▸ hfile) upload hm he.symm hc
      case inr =>
        obtain ⟨hu, hne⟩ := (huploads u).mp hu
        exact hne (upload_eq_of_storageKey hu hm he ▸ rfl)

-- An upload brings its own object.
theorem wlp_insertUploadedFile (ha : Accounted d) (hk : storageKey ∉ inUse d) :
    (FileUploads.insertUploadedFile ctx storageKey uploadTokenTtl newId).wlp
      (fun _ d' => Accounted d' ∧ inUse d' ⊆ insert storageKey (inUse d)) d := by
  refine wp_bind.mpr <| wp_read.mpr <| wp_exec.mpr ⟨fun d' h => ⟨trivial, ?_⟩, fun _ _ => trivial⟩
  have hfiled := ha.filed.apply h
  obtain ⟨ht, he⟩ := Database.applied_of_apply h
  have hfiles : d'.files = d.files := by rw [he]
  have hassignments : d'.attachmentAssignments = d.attachmentAssignments := by rw [he]
  refine ⟨⟨hfiled, ?_, ?_, fun file hfile u hu he => ?_⟩, fun k hm => ?_⟩
  case refine_1 => rw [hfiles, hassignments]; exact ha.attached
  case refine_2 => rw [hassignments]; exact ha.single
  case refine_3 =>
    rw [hfiles] at hfile
    obtain hu | rfl := (Table.mem_insert ht).mp hu
    case inl => exact ha.spent file hfile u hu he
    case inr => exact absurd (.inl ⟨file, hfile, he.symm⟩) hk
  case refine_4 =>
    obtain ⟨file, hfile, he⟩ | ⟨u, hu, hc, he⟩ := hm
    case inl => exact .inr <| .inl ⟨file, hfiles ▸ hfile, he⟩
    case inr =>
      obtain hu | rfl := (Table.mem_insert ht).mp hu
      case inl => exact .inr <| .inr ⟨u, hu, hc, he⟩
      case inr => exact .inl he.symm

end Uploads

end Attachments

end LabInventory
