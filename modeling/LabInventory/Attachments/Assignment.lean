import LabInventory.Attachments.Basic

open Sql Program

namespace LabInventory

namespace Attachments

variable {d d₁ d' : Database}

section Filed

-- Attachments point to files.
def Filed (d : Database) : Prop :=
  ∀ r ∈ d.attachmentAssignments, (d.files.find? r.fileId).isSome

theorem Filed.of_subset (h : Filed d) (hf : d'.files = d.files)
    (ha : ∀ r ∈ d'.attachmentAssignments, r ∈ d.attachmentAssignments) : Filed d' :=
  fun r hr => hf ▸ h r (ha r hr)

-- The foreign key holds whatever is written.
theorem Filed.apply {w : Write} (h : Filed d) (ha : d.apply w = .ok d') : Filed d' := by
  have happ := Database.applied_of_apply ha
  cases w
  case files w =>
    obtain ⟨ht, hd⟩ := happ
    have hassignments : d'.attachmentAssignments = d.attachmentAssignments := by rw [hd]
    intro r hr
    rw [hassignments] at hr
    have hfile := h r hr
    cases w
    case insert file =>
      rw [Table.find?_insert ht]
      split
      case isTrue => rfl
      case isFalse => exact hfile
    case update file =>
      rw [Table.find?_update ht]
      split
      case isTrue => exact Option.isSome_map.trans hfile
      case isFalse => exact hfile
    case delete k =>
      simp only [Database.apply, Database.writeFiles, Except.bind_eq_ok, Except.check_eq_ok] at ha
      obtain ⟨_, _, _, hn, _⟩ := ha
      have hd : d'.files = d.files.delete k := (Except.ok.inj ht).symm
      rw [hd, Table.find?_delete, if_neg]
      case hnc =>
        exact fun hk => hn <| List.any_eq_true.mpr ⟨r, hr, decide_eq_true hk⟩
      exact hfile
  case attachmentAssignments w =>
    obtain ⟨ht, hd⟩ := happ
    have hfiles : d'.files = d.files := by rw [hd]
    intro r hr
    rw [hfiles]
    obtain hr | hw := Table.mem_write ht hr
    case inl => exact h r hr
    case inr =>
      obtain rfl | rfl := hw <;>
      · simp only [Database.apply, Database.writeAttachmentAssignments, Except.bind_eq_ok,
          Except.check_eq_ok] at ha
        obtain ⟨_, _, _, _, _, hf, _⟩ := ha
        exact Option.isSome_of_any hf
  case assetInventoryItems w =>
    refine h.of_subset (by rw [happ.right]) fun r hr => ?_
    simp only [Database.apply, Database.writeAssetInventoryItems, Except.bind_eq_ok] at ha
    obtain ⟨_, _, ha⟩ := ha
    cases w <;> obtain rfl := Except.pure_eq_ok.mp ha
    case insert | update => exact hr
    case delete => exact (Table.mem_filter.mp hr).left
  case assets w =>
    refine h.of_subset (by rw [happ.right]) fun r hr => ?_
    simp only [Database.apply, Database.writeAssets, Except.bind_eq_ok] at ha
    obtain ⟨_, _, ha⟩ := ha
    cases w
    case delete =>
      obtain rfl := Except.pure_eq_ok.mp ha
      exact (Table.mem_filter.mp hr).left
    all_goals
      simp only [Except.bind_eq_ok, Except.pure_eq_ok] at ha
      obtain ⟨_, _, rfl⟩ := ha
      exact hr
  case tree kind w => cases kind <;> exact h.of_subset (by rw [happ.right]) (by rw [happ.right]; exact fun _ => id)
  all_goals exact h.of_subset (by rw [happ.right]) (by rw [happ.right]; exact fun _ => id)

end Filed

section Assigned

-- The file of an attachment has taken over the object of its upload.
def IsFrom (uploadId : Uuid) (d : Database) (r : AttachmentAssignmentRow) : Bool :=
  (d.files.find? r.fileId).any fun file =>
    (d.fileUploads.find? uploadId).map (·.storageKey) = some file.storageKey

-- The assets and items that an upload is attached to.
def attachedTo (uploadId : Uuid) (d : Database) : List (Option Uuid × Option Uuid) :=
  (d.attachmentAssignments.rows.filter (IsFrom uploadId d)).map fun r => (r.assetId, r.inventoryItemId)

structure Assigned (placements : List (AttachmentTarget × NewAttachment)) (d d' : Database) : Prop where
  placed : ∀ p ∈ placements, attachedTo p.2.uploadId d' = [(p.1.assetId, p.1.inventoryItemId)]
  consumed : ∀ p ∈ placements, ∃ upload, d.fileUploads.find? p.2.uploadId = some upload ∧
    upload.consumedAt = none ∧
    d'.fileUploads.find? p.2.uploadId = some { upload with consumedAt := some d.now }
  others : ∀ k, (∀ p ∈ placements, p.2.uploadId ≠ k) →
    attachedTo k d' = attachedTo k d ∧ d'.fileUploads.find? k = d.fileUploads.find? k
  elsewhere : d' = { d with
    fileUploads := d'.fileUploads
    files := d'.files
    attachmentAssignments := d'.attachmentAssignments
  }
  filed : Filed d'

variable {placements placements' : List (AttachmentTarget × NewAttachment)}
  {target : AttachmentTarget} {attachment : NewAttachment} {laboratoryId : Uuid} {newIds : NewIds}

theorem Assigned.nil (h : Filed d) : Assigned [] d d where
  placed _ hp := absurd hp List.not_mem_nil
  consumed _ hp := absurd hp List.not_mem_nil
  others _ _ := ⟨rfl, rfl⟩
  elsewhere := rfl
  filed := h

-- Uploads that are all different do not get in each other's way.
theorem Assigned.append (hn : ((placements ++ placements').map (·.2.uploadId)).Nodup)
    (h : Assigned placements d d₁) (h' : Assigned placements' d₁ d') :
    Assigned (placements ++ placements') d d' := by
  have hne : ∀ p ∈ placements, ∀ q ∈ placements', q.2.uploadId ≠ p.2.uploadId := by
    intro p hp q hq he
    rw [List.map_append] at hn
    exact (List.nodup_append.mp hn).right.right _ (List.mem_map_of_mem hp) _
      (List.mem_map_of_mem hq) he.symm
  have hnow : d₁.now = d.now := by rw [h.elsewhere]
  refine ⟨fun p hp => ?_, fun p hp => ?_, fun k hk => ?_, ?_, h'.filed⟩
  case refine_1 =>
    obtain hp | hp := List.mem_append.mp hp
    case inl => exact (h'.others _ <| hne p hp).left.trans <| h.placed p hp
    case inr => exact h'.placed p hp
  case refine_2 =>
    obtain hp | hp := List.mem_append.mp hp
    case inl =>
      obtain ⟨upload, hu, hc, hu'⟩ := h.consumed p hp
      exact ⟨upload, hu, hc, (h'.others _ <| hne p hp).right.trans hu'⟩
    case inr =>
      obtain ⟨upload, hu, hc, hu'⟩ := h'.consumed p hp
      have hother := (h.others p.2.uploadId fun q hq he => hne q hq p hp he.symm).right
      exact ⟨upload, hother ▸ hu, hc, hnow ▸ hu'⟩
  case refine_3 =>
    obtain ⟨ha, hf⟩ := h.others k fun p hp => hk p <| List.mem_append_left _ hp
    obtain ⟨ha', hf'⟩ := h'.others k fun p hp => hk p <| List.mem_append_right _ hp
    exact ⟨ha'.trans ha, hf'.trans hf⟩
  case refine_4 => rw [h'.elsewhere, h.elsewhere]

section Step

variable {upload : FileUploadRow} {fileId attachmentId : Uuid} {isPublic : Bool} {k : Uuid}

-- What assigning a single upload writes.
structure Writing (target : AttachmentTarget) (upload : FileUploadRow) (fileId attachmentId : Uuid)
    (isPublic : Bool) (d d' : Database) : Prop where
  stored : upload ∈ d.fileUploads
  consumed : d.fileUploads.update { upload with consumedAt := some d.now } = .ok d'.fileUploads
  taken : d.files.insert ⟨fileId, upload.laboratoryId, upload.storageKey⟩ = .ok d'.files
  attached : d.attachmentAssignments.insert ⟨attachmentId, upload.laboratoryId, fileId,
    target.assetId, target.inventoryItemId, isPublic⟩ = .ok d'.attachmentAssignments

theorem Writing.find? (h : Writing target upload fileId attachmentId isPublic d d') :
    d'.fileUploads.find? k = if upload.uploadId = k then some { upload with consumedAt := some d.now }
      else d.fileUploads.find? k :=
  Table.find?_update_of_mem h.consumed h.stored rfl

theorem Writing.storageKey (h : Writing target upload fileId attachmentId isPublic d d') :
    (d'.fileUploads.find? k).map (·.storageKey) = (d.fileUploads.find? k).map (·.storageKey) := by
  rw [h.find?]
  split
  case isTrue hk =>
    rw [← hk, show d.fileUploads.find? upload.uploadId = some upload from Table.find?_key h.stored]
    rfl
  case isFalse => rfl

theorem Writing.isFrom (h : Writing target upload fileId attachmentId isPublic d d') (hf : Filed d)
    {r : AttachmentAssignmentRow} (hr : r ∈ d.attachmentAssignments) :
    IsFrom k d' r = IsFrom k d r := by
  have hne : fileId ≠ r.fileId := by
    intro he
    have hnone : d.files.find? fileId = none := Table.find?_of_insert h.taken
    have hfile := hf r hr
    rw [← he, hnone] at hfile
    exact nomatch hfile
  unfold IsFrom
  rw [h.storageKey, (Table.find?_insert h.taken).trans (if_neg hne)]

-- The object has not been attached to anything yet.
theorem Writing.attachedTo_eq_nil (h : Writing target upload fileId attachmentId isPublic d d') :
    attachedTo upload.uploadId d = [] := by
  refine List.map_eq_nil_iff.mpr <| List.filter_eq_nil_iff.mpr fun r _ hfrom => ?_
  obtain ⟨file, hf, hk⟩ := (Option.any_eq_true _ _).mp hfrom
  rw [show d.fileUploads.find? upload.uploadId = some upload from Table.find?_key h.stored] at hk
  have hkey : upload.storageKey = file.storageKey := Option.some.inj <| of_decide_eq_true hk
  have hm : file ∈ d.files := (Table.find?_eq_some.mp hf).left
  have he : file = ⟨fileId, upload.laboratoryId, upload.storageKey⟩ := by
    refine Table.eq_of_clash (.head _) ((Table.mem_insert h.taken).mpr <| .inl hm)
      ((Table.mem_insert h.taken).mpr <| .inr rfl) ⟨Option.some_ne_none _, ?_⟩
    exact congrArg some hkey.symm
  exact (Table.insert_eq_ok.mp h.taken).left file hm <| congrArg FileRow.fileId he

theorem Writing.isFrom_new (h : Writing target upload fileId attachmentId isPublic d d') :
    IsFrom k d' ⟨attachmentId, upload.laboratoryId, fileId, target.assetId, target.inventoryItemId,
      isPublic⟩ = decide (upload.uploadId = k) := by
  have hfile : d'.files.find? fileId = some ⟨fileId, upload.laboratoryId, upload.storageKey⟩ :=
    Table.find?_insert_self h.taken
  rw [IsFrom, h.storageKey]
  simp only [hfile, Option.any_some, decide_eq_decide, Option.map_eq_some_iff]
  constructor
  case mp =>
    rintro ⟨other, ho, hk⟩
    obtain ⟨hm, rfl⟩ := Table.find?_eq_some.mp ho
    have he : upload = other := by
      refine Table.eq_of_clash (.head _) h.stored hm ⟨Option.some_ne_none _, ?_⟩
      exact congrArg some hk.symm
    rw [he]
    rfl
  case mpr =>
    rintro rfl
    exact ⟨upload, Table.find?_key h.stored, rfl⟩

theorem Writing.attachedTo (h : Writing target upload fileId attachmentId isPublic d d')
    (hf : Filed d) : Attachments.attachedTo k d' =
      if upload.uploadId = k then [(target.assetId, target.inventoryItemId)]
      else Attachments.attachedTo k d := by
  have hrows := (Table.insert_eq_ok.mp h.attached).right.right
  have hold : d.attachmentAssignments.rows.filter (IsFrom k d') =
      d.attachmentAssignments.rows.filter (IsFrom k d) :=
    List.filter_congr fun r hr => h.isFrom hf hr
  have hnew : Attachments.attachedTo k d' = Attachments.attachedTo k d ++
      if upload.uploadId = k then [(target.assetId, target.inventoryItemId)] else [] := by
    unfold Attachments.attachedTo
    rw [hrows, List.filter_append, hold, List.map_append, List.filter_singleton, h.isFrom_new]
    split <;> simp_all
  rw [hnew]
  split
  case isTrue hk => rw [← hk, h.attachedTo_eq_nil, List.nil_append]
  case isFalse => exact List.append_nil _

end Step

variable {missing : String → ApiError}

theorem wlp_consumeFileUpload {uploadId : Uuid} {Q : FileUploadRow → Database → Prop}
    (hq : ∀ upload d₁, d.fileUploads.find? uploadId = some upload → upload.consumedAt = none →
      d.apply (.fileUploads (.update { upload with consumedAt := some d.now })) = .ok d₁ →
      Q upload d₁) :
    (FileUploads.consumeFileUpload missing uploadId).wlp Q d := by
  refine wp_bind.mpr <| wp_selectForUpdate.mpr ?_
  cases hu : d.fileUploads.find? uploadId
  case none => trivial
  case some upload =>
    refine wp_bind.mpr <| wp_require.mpr ⟨fun hc => ?_, fun _ => trivial⟩
    refine wp_readOnly_bind readOnly_read fun _ => wp_readOnly_bind readOnly_require fun _ => ?_
    refine wp_bind.mpr <| wp_bind.mpr <| wp_read.mpr <| wp_exec.mpr ⟨fun d₁ ha => ⟨trivial, ?_⟩,
      fun _ _ => trivial⟩
    exact hq upload d₁ hu (Option.isNone_iff_eq_none.mp hc) ha

theorem wlp_assignUploadedAttachment (hf : Filed d) :
    (assignUploadedAttachment missing target laboratoryId newIds attachment).wlp
      (fun _ => Assigned [(target, attachment)] d) d := by
  refine wp_bind.mpr <| wlp_consumeFileUpload fun upload d₁ hu hc h₁ => ?_
  refine wp_readOnly_bind readOnly_require fun _ => ?_
  refine wp_bind.mpr <| wp_exec.mpr ⟨fun d₂ h₂ => ⟨trivial, ?_⟩, fun _ _ => trivial⟩
  refine wp_exec.mpr ⟨fun d₃ h₃ => ⟨trivial, ?_⟩, fun _ _ => trivial⟩
  have hfiled : Filed d₃ := ((hf.apply h₁).apply h₂).apply h₃
  obtain ⟨ht₁, hd₁⟩ := Database.applied_of_apply h₁
  obtain ⟨ht₂, hd₂⟩ := Database.applied_of_apply h₂
  obtain ⟨ht₃, hd₃⟩ := Database.applied_of_apply h₃
  have hw : Writing target upload (newIds 0) (newIds 1) attachment.isPublic d d₃ := by
    refine ⟨(Table.find?_eq_some.mp hu).left, ?_, ?_, ?_⟩
    case refine_1 =>
      have huploads : d₃.fileUploads = d₁.fileUploads := by rw [hd₃, hd₂]
      rw [huploads]
      exact ht₁
    case refine_2 =>
      have hfiles : d₁.files = d.files ∧ d₃.files = d₂.files := ⟨by rw [hd₁], by rw [hd₃]⟩
      rw [hfiles.right, ← hfiles.left]
      exact ht₂
    case refine_3 =>
      have hassignments : d₂.attachmentAssignments = d.attachmentAssignments := by rw [hd₂, hd₁]
      rw [← hassignments]
      exact ht₃
  have hkey : upload.uploadId = attachment.uploadId := (Table.find?_eq_some.mp hu).right
  refine ⟨List.forall_mem_singleton.mpr ?_, List.forall_mem_singleton.mpr ⟨upload, hu, hc, ?_⟩,
    fun k hk => ?_, ?_, hfiled⟩
  case refine_1 => rw [hw.attachedTo hf, if_pos hkey]
  case refine_2 => rw [hw.find?, if_pos hkey]
  case refine_3 =>
    have hne : ¬upload.uploadId = k := fun he => hk _ (.head _) <| hkey.symm.trans he
    exact ⟨by rw [hw.attachedTo hf, if_neg hne], by rw [hw.find?, if_neg hne]⟩
  case refine_4 => rw [hd₃, hd₂, hd₁]

theorem wlp_assignUploadedAttachments {attachments : List NewAttachment} (hf : Filed d)
    (hn : (attachments.map (·.uploadId)).Nodup) :
    (assignUploadedAttachments missing target laboratoryId newIds attachments).wlp
      (fun _ => Assigned (attachments.map (target, ·)) d) d := by
  refine wp_readOnly_bind readOnly_require fun _ => ?_
  induction attachments generalizing d newIds
  case nil => exact .nil hf
  case cons attachment attachments ih =>
    refine wp_bind.mpr <| wp_mono (wlp_assignUploadedAttachment hf) fun _ d₁ h => ?_
    refine wp_mono (ih h.filed hn.of_cons) fun _ d₂ h' => ?_
    have hplaced : (((attachment :: attachments).map (target, ·)).map (·.2.uploadId)).Nodup := by
      rw [List.map_map]
      exact hn
    exact .append hplaced h h'

end Assigned

end Attachments

end LabInventory
