import LabInventory.FileStorage.Accounting
import LabInventory.Library.History

open Sql Program LabInventory.Attachments

namespace LabInventory

namespace FileUploads

variable {d d' v : Database} {ks : Set RowId} {log log' : List Write} {J J' : FileUploadRow → Prop}
  {u : FileUploadRow}

structure Takes (u : FileUploadRow) (file : FileRow) : Prop where
  storageKey : file.storageKey = u.storageKey
  laboratoryId : file.laboratoryId = u.laboratoryId

structure Attaches (file : FileRow) (r : AttachmentAssignmentRow) : Prop where
  fileId : r.fileId = file.fileId
  laboratoryId : r.laboratoryId = file.laboratoryId

-- The object of an upload passes on to a new file, which has an attachment.
def spendingWrites (u : FileUploadRow) (now : Timestamp) (file : FileRow)
    (r : AttachmentAssignmentRow) : List Write :=
  [.fileUploads (.update { u with consumedAt := some now }), .files (.insert file),
    .attachmentAssignments (.insert r)]

-- The writes spend uploads that satisfy `J`.
inductive Spending (J : FileUploadRow → Prop) : List Write → Prop
  | nil : Spending J []
  | aside {log w} (h : Spending J log) (hw : Untouched w) : Spending J (log ++ [w])
  | spend {log u now file r} (h : Spending J log) (hj : J u) (hn : u.consumedAt = none)
      (ht : Takes u file) (ha : Attaches file r) : Spending J (log ++ spendingWrites u now file r)

section Spending

theorem Spending.mono (h : Spending J log) (hj : ∀ u, J u → J' u) : Spending J' log := by
  induction h
  case nil => exact .nil
  case aside hw ih => exact ih.aside hw
  case spend hu hn ht ha ih => exact ih.spend (hj _ hu) hn ht ha

theorem Spending.append (h : Spending J log) (h' : Spending J log') : Spending J (log ++ log') := by
  induction h'
  case nil => exact (List.append_nil log).symm ▸ h
  case aside hw ih => exact List.append_assoc .. ▸ ih.aside hw
  case spend hu hn ht ha ih => exact List.append_assoc .. ▸ ih.spend hu hn ht ha

theorem spending_of_untouched (h : ∀ w ∈ log, Untouched w) : Spending J log := by
  induction log using List.reverseRecOn
  case nil => exact .nil
  case append_singleton log w ih =>
    exact (ih fun w hw => h w <| List.mem_append_left _ hw).aside <|
      h w <| List.mem_append_right _ <| .head _

theorem Spending.upload {w : RowWrite FileUploadRow Uuid} (h : Spending J log)
    (hw : .fileUploads w ∈ log) :
    ∃ u now, w = .update { u with consumedAt := some now } ∧ J u ∧ u.consumedAt = none := by
  induction h
  case nil => exact absurd hw List.not_mem_nil
  case aside hw' ih =>
    obtain hw | hw := List.mem_append.mp hw
    case inl => exact ih hw
    case inr =>
      rw [← List.mem_singleton.mp hw] at hw'
      exact hw'.elim
  case spend u now _ _ _ hu hn _ _ ih =>
    obtain hw | hw := List.mem_append.mp hw
    case inl => exact ih hw
    case inr =>
      refine ⟨u, now, ?_, hu, hn⟩
      simpa [spendingWrites] using hw

theorem Spending.file {file : FileRow} (h : Spending J log) (hw : .files (.insert file) ∈ log) :
    ∃ u now, .fileUploads (.update { u with consumedAt := some now }) ∈ log ∧ J u ∧
      u.consumedAt = none ∧ Takes u file ∧
      ∃ r, .attachmentAssignments (.insert r) ∈ log ∧ Attaches file r := by
  induction h
  case nil => exact absurd hw List.not_mem_nil
  case aside hw' ih =>
    obtain hw | hw := List.mem_append.mp hw
    case inl =>
      obtain ⟨u, now, hu, hj, hn, ht, r, hr, ha⟩ := ih hw
      exact ⟨u, now, List.mem_append_left _ hu, hj, hn, ht, r, List.mem_append_left _ hr, ha⟩
    case inr =>
      rw [← List.mem_singleton.mp hw] at hw'
      exact hw'.elim
  case spend u now file' r _ hu hn ht ha ih =>
    obtain hw | hw := List.mem_append.mp hw
    case inl =>
      obtain ⟨u, now, hu, hj, hn, ht, r, hr, ha⟩ := ih hw
      exact ⟨u, now, List.mem_append_left _ hu, hj, hn, ht, r, List.mem_append_left _ hr, ha⟩
    case inr =>
      obtain rfl : file = file' := by simpa [spendingWrites] using hw
      exact ⟨u, now, by simp [spendingWrites], hu, hn, ht, r, by simp [spendingWrites], ha⟩

-- An upload has become a file.
structure Used (u : FileUploadRow) (file : FileRow) (d d' : Database) : Prop where
  takes : Takes u file
  stored : file ∈ d'.files
  new : file ∉ d.files
  consumed : ∃ now, { u with consumedAt := some now } ∈ d'.fileUploads
  attached : ∃ r ∈ d'.attachmentAssignments, Attaches file r

-- The upload is locked, and has been committed as it is.
def Available (ks : Set RowId) (d : Database) (u : FileUploadRow) : Prop :=
  u ∈ d.fileUploads ∧ .fileUpload u.uploadId ∈ ks

-- What becomes of a state when uploads are spent.
structure Spent (log : List Write) (ks : Set RowId) (d v : Database) : Prop where
  fate : ∀ u ∈ d.fileUploads, u ∈ v.fileUploads ∨ u.consumedAt = none ∧ .fileUpload u.uploadId ∈ ks ∧
    ∃ file, Used u file d v
  rows : ∀ u ∈ v.fileUploads, u ∈ d.fileUploads ∨ u.consumedAt ≠ none
  consumed : ∀ u, .fileUploads (.update u) ∈ log → ∀ u' ∈ v.fileUploads, u'.uploadId = u.uploadId →
    u'.consumedAt ≠ none
  kept : ∀ file ∈ d.files, file ∈ v.files
  files : ∀ file ∈ v.files, file ∈ d.files ∨ .files (.insert file) ∈ log
  assignments : ∀ r, .attachmentAssignments (.insert r) ∈ log → r ∈ v.attachmentAssignments

theorem Spent.refl : Spent [] ks d d where
  fate _ h := .inl h
  rows _ h := .inl h
  consumed _ h := absurd h List.not_mem_nil
  kept _ h := h
  files _ h := .inl h
  assignments _ h := absurd h List.not_mem_nil

theorem Spent.aside {v' : Database} {w : Write} (h : Spent log ks d v) (hw : Untouched w)
    (ha : apply w v = .ok v') : Spent (log ++ [w]) ks d v' := by
  have hs := sameFiles_of_apply hw ha
  refine ⟨fun u hu => ?_, ?_, fun u hm => ?_, ?_, fun file hm => ?_, fun r hm => ?_⟩
  case refine_1 =>
    rw [hs.fileUploads]
    obtain hm | ⟨hn, hk, file, hf⟩ := h.fate u hu
    case inl => exact .inl hm
    case inr =>
      refine .inr ⟨hn, hk, file, hf.takes, ?_, hf.new, ?_, ?_⟩
      case refine_1 => exact hs.files ▸ hf.stored
      case refine_2 => exact hs.fileUploads ▸ hf.consumed
      case refine_3 => exact hs.attachmentAssignments ▸ hf.attached
  case refine_2 => exact hs.fileUploads ▸ h.rows
  case refine_3 =>
    rw [hs.fileUploads]
    obtain hm | hm := List.mem_append.mp hm
    case inl => exact h.consumed u hm
    case inr =>
      rw [← List.mem_singleton.mp hm] at hw
      exact hw.elim
  case refine_4 => exact hs.files ▸ h.kept
  case refine_5 => exact (h.files file (hs.files ▸ hm)).imp_right (List.mem_append_left _)
  case refine_6 =>
    rw [hs.attachmentAssignments]
    obtain hm | hm := List.mem_append.mp hm
    case inl => exact h.assignments r hm
    case inr =>
      rw [← List.mem_singleton.mp hm] at hw
      exact hw.elim

theorem Spent.spend {v' : Database} {now : Timestamp} {file : FileRow} {r : AttachmentAssignmentRow}
    (h : Spent log ks d v) (hu : Available ks d u) (hn : u.consumedAt = none) (ht : Takes u file)
    (ha : Attaches file r) (hv : replay (spendingWrites u now file r) v = .ok v') :
    Spent (log ++ spendingWrites u now file r) ks d v' := by
  simp only [spendingWrites, replay_cons, replay_nil, Except.ok.injEq] at hv
  obtain ⟨v₁, h₁, v₂, h₂, v₃, h₃, hv⟩ := hv
  obtain rfl : v' = v₃ := hv.symm
  obtain ⟨ht₁, hd₁⟩ := Database.applied_of_apply h₁
  obtain ⟨ht₂, hd₂⟩ := Database.applied_of_apply h₂
  obtain ⟨ht₃, hd₃⟩ := Database.applied_of_apply h₃
  rw [show v₁.fileUploads = v'.fileUploads by rw [hd₃, hd₂]] at ht₁
  rw [show v₁.files = v.files by rw [hd₁], show v₂.files = v'.files by rw [hd₃]] at ht₂
  rw [show v₂.attachmentAssignments = v.attachmentAssignments by rw [hd₂, hd₁]] at ht₃
  have huploads : ∀ u', u' ∈ v'.fileUploads ↔
      (u' ∈ v.fileUploads ∧ u'.uploadId ≠ u.uploadId) ∨ (u' = { u with consumedAt := some now } ∧
        ∃ u₀ ∈ v.fileUploads, u₀.uploadId = u.uploadId) := fun _ => Table.mem_update ht₁
  have hrow : ∃ u₀ ∈ v.fileUploads, u₀.uploadId = u.uploadId := by
    obtain hm | ⟨-, -, file', hf⟩ := h.fate u hu.left
    case inl => exact ⟨u, hm, rfl⟩
    case inr =>
      obtain ⟨now', hm⟩ := hf.consumed
      exact ⟨_, hm, rfl⟩
  have hfiles : ∀ file', file' ∈ v'.files ↔ file' ∈ v.files ∨ file' = file :=
    fun _ => Table.mem_insert ht₂
  have hassignments : ∀ r', r' ∈ v'.attachmentAssignments ↔ r' ∈ v.attachmentAssignments ∨ r' = r :=
    fun _ => Table.mem_insert ht₃
  have hnew : file ∉ d.files := fun hm =>
    (Table.insert_eq_ok.mp ht₂).left file (h.kept file hm) rfl
  refine ⟨fun u' hu' => ?_, fun u' hu' => ?_, fun u₁ hm u' hu' hk => ?_, fun file' hm => ?_,
    fun file' hm => ?_, fun r' hm => ?_⟩
  case refine_1 =>
    by_cases he : u'.uploadId = u.uploadId
    case pos =>
      obtain rfl := Table.eq_of_key_eq hu' hu.left he
      refine .inr ⟨hn, hu.right, file, ht, (hfiles file).mpr (.inr rfl), hnew, ⟨now, ?_⟩,
        r, (hassignments r).mpr (.inr rfl), ha⟩
      exact (huploads _).mpr (.inr ⟨rfl, hrow⟩)
    case neg =>
      refine (h.fate u' hu').imp (fun hm => (huploads u').mpr (.inl ⟨hm, he⟩)) ?_
      rintro ⟨hn', hk, file', hf⟩
      obtain ⟨now', hm⟩ := hf.consumed
      obtain ⟨r', hr, ha'⟩ := hf.attached
      exact ⟨hn', hk, file', hf.takes, (hfiles file').mpr (.inl hf.stored), hf.new,
        ⟨now', (huploads _).mpr (.inl ⟨hm, he⟩)⟩, r', (hassignments r').mpr (.inl hr), ha'⟩
  case refine_2 =>
    obtain ⟨hm, -⟩ | ⟨rfl, -⟩ := (huploads u').mp hu'
    case inl => exact h.rows u' hm
    case inr => exact .inr <| Option.some_ne_none _
  case refine_3 =>
    obtain ⟨hu', hne⟩ | ⟨rfl, -⟩ := (huploads u').mp hu'
    case inr => exact Option.some_ne_none _
    case inl =>
      obtain hm | hm := List.mem_append.mp hm
      case inl => exact h.consumed u₁ hm u' hu' hk
      case inr =>
        obtain rfl : u₁ = { u with consumedAt := some now } := by simpa [spendingWrites] using hm
        exact absurd hk hne
  case refine_4 => exact (hfiles file').mpr (.inl <| h.kept file' hm)
  case refine_5 =>
    obtain hm | rfl := (hfiles file').mp hm
    case inl => exact (h.files file' hm).imp_right (List.mem_append_left _)
    case inr => exact .inr <| List.mem_append_right _ (.tail _ <| .head _)
  case refine_6 =>
    refine (hassignments r').mpr ?_
    obtain hm | hm := List.mem_append.mp hm
    case inl => exact .inl <| h.assignments r' hm
    case inr => exact .inr <| by simpa [spendingWrites] using hm

theorem Spending.spent (h : Spending (Available ks d) log) (hv : replay log d = .ok v) :
    Spent log ks d v := by
  induction h generalizing v
  case nil => exact Except.ok.inj hv ▸ .refl
  case aside hw ih =>
    obtain ⟨v₁, hv₁, ha⟩ := replay_concat.mp hv
    exact (ih hv₁).aside hw ha
  case spend hu hn ht ha ih =>
    obtain ⟨v₁, hv₁, hv⟩ := replay_append.mp hv
    exact (ih hv₁).spend hu hn ht ha hv

end Spending

-- The writes that concern neither uploads nor new files.
def Removes : Write → Prop
  | .fileUploads _ | .files (.insert _) | .files (.update _) => False
  | _ => True

theorem Removes.apply {w : Write} (hw : Removes w) (h : d.apply w = .ok d') :
    d'.fileUploads = d.fileUploads ∧ ∀ file ∈ d'.files, file ∈ d.files := by
  have ha := Database.applied_of_apply h
  cases w
  case fileUploads => exact hw.elim
  case files w =>
    refine ⟨by rw [ha.right], fun file hm => ?_⟩
    cases w
    case insert | update => exact hw.elim
    case delete k =>
      have hd : d.files.delete k = d'.files := Except.ok.inj ha.left
      exact (Table.mem_delete.mp (hd ▸ hm)).left
  case tree kind w =>
    cases kind <;> exact ⟨by rw [ha.right], fun _ hm => by rw [ha.right] at hm; exact hm⟩
  all_goals exact ⟨by rw [ha.right], fun _ hm => by rw [ha.right] at hm; exact hm⟩

theorem removes_replay (h : ∀ w ∈ log, Removes w) (hv : replay log d = .ok v) :
    v.fileUploads = d.fileUploads ∧ ∀ file ∈ v.files, file ∈ d.files := by
  induction log generalizing d
  case nil => exact Except.ok.inj hv ▸ ⟨rfl, fun _ h => h⟩
  case cons w log ih =>
    obtain ⟨d₁, h₁, hv⟩ := replay_cons.mp hv
    obtain ⟨hw, h⟩ := List.forall_mem_cons.mp h
    obtain ⟨hu₁, hf₁⟩ := hw.apply h₁
    obtain ⟨hu, hf⟩ := ih h hv
    exact ⟨hu.trans hu₁, fun file hm => hf₁ file (hf file hm)⟩

-- What a request knows about its writes when it commits.
inductive Known (ks : Set RowId) (d : Database) : List Write → Prop
  | spending {log : List Write} (h : Spending (Available ks d) log) : Known ks d log
  | adding {u : FileUploadRow} (hn : u.consumedAt = none) : Known ks d [.fileUploads (.insert u)]
  | dropping {u : FileUploadRow} (hu : Available ks d u) (hn : u.consumedAt = none) :
      Known ks d [.fileUploads (.delete u.uploadId)]
  | removing {log : List Write} (h : ∀ w ∈ log, Removes w) : Known ks d log

theorem Known.keeps (h : Known ks d log) (hv : replay log d = .ok d') (hu : u ∈ d.fileUploads)
    (hs : u.consumedAt = none → .fileUpload u.uploadId ∉ ks) : u ∈ d'.fileUploads := by
  cases h
  case spending h =>
    obtain hm | ⟨hn, hk, -⟩ := (h.spent hv).fate u hu
    case inl => exact hm
    case inr => exact absurd hk (hs hn)
  case adding u' _ =>
    simp only [replay_cons, replay_nil, Except.ok.injEq] at hv
    obtain ⟨_, ha, rfl⟩ := hv
    exact (Table.mem_insert (Database.applied_of_apply ha).left).mpr (.inl hu)
  case dropping u' hu' hn =>
    simp only [replay_cons, replay_nil, Except.ok.injEq] at hv
    obtain ⟨_, ha, rfl⟩ := hv
    have hd := Except.ok.inj (Database.applied_of_apply ha).left
    refine hd ▸ Table.mem_delete.mpr ⟨hu, fun he => ?_⟩
    obtain rfl := Table.eq_of_key_eq hu hu'.left he
    exact hs hn hu'.right
  case removing h => exact (removes_replay h hv).left ▸ hu

abbrev uploadDiscipline : Discipline Database RowId Unit :=
  .ofTold Known

section Stability

open Discipline

theorem stable_available :
    uploadDiscipline.Stable fun ks d => u.consumedAt = none ∧ Available ks d u where
  lock h := ⟨h.left, h.right.left, .inr h.right.right⟩
  interference hi h := by
    obtain ⟨_, ks', hd, log, hk, hv⟩ := hi.guar
    exact ⟨h.left, hk.keeps hv h.right.left fun _ => hd _ h.right.right, h.right.right⟩

theorem stable_spending : uploadDiscipline.Stable fun ks d => Spending (Available ks d) log := by
  have hmono {ks ks' d d'} (h : Spending (Available ks d) log)
      (hs : ∀ u, u.consumedAt = none → Available ks d u → Available ks' d' u) :
      Spending (Available ks' d') log := by
    induction h
    case nil => exact .nil
    case aside hw ih => exact ih.aside hw
    case spend hu hn ht ha ih => exact ih.spend (hs _ hn hu) hn ht ha
  constructor
  case lock => exact fun h => hmono h fun u hn hu => (stable_available.lock ⟨hn, hu⟩).right
  case interference =>
    exact fun hi h => hmono h fun u hn hu => (stable_available.interference hi ⟨hn, hu⟩).right

theorem stable_spending_and (log : List Write) (u : FileUploadRow) :
    uploadDiscipline.Stable fun ks d =>
      Spending (Available ks d) log ∧ u.consumedAt = none ∧ Available ks d u :=
  stable_spending.and stable_available

theorem stable_known : uploadDiscipline.Stable (Known · · log) where
  lock h := by
    cases h
    case spending h => exact .spending <| stable_spending.lock h
    case adding hn => exact .adding hn
    case dropping hu hn => exact .dropping (stable_available.lock ⟨hn, hu⟩).right hn
    case removing h => exact .removing h
  interference hi h := by
    cases h
    case spending h => exact .spending <| stable_spending.interference hi h
    case adding hn => exact .adding hn
    case dropping hu hn => exact .dropping (stable_available.interference hi ⟨hn, hu⟩).right hn
    case removing h => exact .removing h

end Stability

-- A transaction that spends uploads of `S` at most.
inductive Filing (S : Set Uuid) : {α : Type} → Transaction α → Prop
  | elsewhere {α} {p : Transaction α} (h : p.Writes Untouched) : Filing S p
  | assign {missing target laboratoryId newIds} {attachment : NewAttachment}
      (h : attachment.uploadId ∈ S) :
      Filing S (assignUploadedAttachment missing target laboratoryId newIds attachment)
  | bind {α β} {p : Transaction α} {f : α → Transaction β} (h : Filing S p)
      (hf : ∀ a, Filing S (f a)) : Filing S (p >>= f)

section Filing

open Discipline

variable {α β : Type} {S : Set Uuid} {p : Transaction α} {f : α → Transaction β}
  {pending : List RowId} {missing : String → ApiError}

theorem Filing.readOnly_bind (hp : p.ReadOnly) (hf : ∀ a, Filing S (f a)) : Filing S (p >>= f) :=
  .bind (.elsewhere hp.writes) hf

theorem Filing.ofExcept_bind {r : Except ApiError α} (hf : ∀ a, r = .ok a → Filing S (f a)) :
    Filing S (.ofExcept r >>= f) := by
  cases r
  case ok a => exact hf a rfl
  case error => exact .elsewhere trivial

theorem Filing.assignUploadedAttachments {target laboratoryId newIds}
    {attachments : List NewAttachment} (h : ∀ a ∈ attachments, a.uploadId ∈ S) :
    Filing S (assignUploadedAttachments missing target laboratoryId newIds attachments) := by
  refine .readOnly_bind readOnly_require fun _ => ?_
  induction attachments generalizing newIds
  case nil => exact .elsewhere trivial
  case cons ih =>
    obtain ⟨ha, h⟩ := List.forall_mem_cons.mp h
    exact .bind (.assign ha) fun _ => ih h

-- An upload that is still available to the transaction has not been spent by itself.
theorem Spending.available {uploadId : Uuid} (h : Spending (Available ks d) log)
    (hk : .fileUpload uploadId ∈ ks) (hv : replay log d = .ok v)
    (hu : v.fileUploads.find? uploadId = some u) (hn : u.consumedAt = none) : Available ks d u := by
  obtain ⟨hm, rfl⟩ := Table.find?_eq_some.mp hu
  exact ⟨((h.spent hv).rows u hm).resolve_right fun hne => hne hn, hk⟩

theorem safe_consumeFileUpload {uploadId : Uuid} {f : FileUploadRow → Transaction β}
    {Q : β → List RowId → List Write → Set RowId → Database → Prop}
    (hs : Spending (Available ks d) log)
    (hq : ∀ u now pending ks d, Spending (Available ks d) log → u.consumedAt = none →
      Available ks d u → uploadDiscipline.Safe Q (f u) pending
        (log ++ [.fileUploads (.update { u with consumedAt := some now })]) ks d) :
    uploadDiscipline.Safe Q (consumeFileUpload missing uploadId >>= f) pending log ks d := by
  refine safe_bind.mpr ?_
  refine safe_selectForUpdate stable_spending hs (fun _ _ _ _ _ _ => trivial) fun d v _ hs hv => ?_
  cases hf : v.fileUploads.find? uploadId
  case none => trivial
  case some u =>
    refine safe_require fun hn => ?_
    have hn := Option.isNone_iff_eq_none.mp hn
    have hu := hs.available (.inl rfl) hv hf hn
    have hA := stable_spending_and log u
    refine safe_select hA ⟨hs, hn, hu⟩ fun d _ _ ha _ => safe_require fun _ => ?_
    refine safe_select hA ha fun d v _ ha _ => ?_
    exact safe_write hA ha fun d _ _ _ ha _ _ => hq u v.now _ _ d ha.left ha.right.left ha.right.right

theorem Filing.safe (h : Filing S p) (hs : Spending (Available ks d) log) :
    uploadDiscipline.Safe (fun _ _ log ks d => Spending (Available ks d) log) p pending log ks d := by
  induction h generalizing pending log ks d
  case elsewhere hp =>
    exact safe_writes (B := fun log ks d => Spending (Available ks d) log) hp
      (fun _ => stable_spending) hs fun _ _ _ _ hw hs => hs.aside hw
  case assign missing target laboratoryId newIds attachment _ =>
    refine safe_consumeFileUpload hs fun u now pending ks d hs hn hu => safe_require fun _ => ?_
    have hA := stable_spending_and log u
    refine safe_write hA ⟨hs, hn, hu⟩ fun d _ _ _ ha _ _ => ?_
    refine safe_write hA ha fun d _ _ _ ha _ _ => ?_
    have hspend : Spending _ (log ++ spendingWrites u now ⟨newIds 0, u.laboratoryId, u.storageKey⟩
        ⟨newIds 1, u.laboratoryId, newIds 0, target.assetId, target.inventoryItemId,
          attachment.isPublic⟩) :=
      ha.left.spend ha.right.right ha.right.left ⟨rfl, rfl⟩ ⟨rfl, rfl⟩
    change Spending _ _
    simpa [spendingWrites] using hspend
  case bind ih ih' => exact safe_bind.mpr <| safe_mono (ih hs) fun h => ih' _ h

-- What is spent has been read while it could be.
structure Timely (S : Set Uuid) (ds : List Database) (u : FileUploadRow) : Prop where
  requested : u.uploadId ∈ S
  unexpired : ∃ v ∈ ds, v.serverNow ≤ u.expiresAt

theorem Timely.mono {ds ds' : List Database} (h : Timely S ds u) (hs : ds ⊆ ds') :
    Timely S ds' u := by
  obtain ⟨hr, v, hv, hx⟩ := h
  exact ⟨hr, v, hs hv, hx⟩

theorem Filing.spending {ds : List Database} {a : α} (h : Filing S p)
    (ho : p.outcome ds = some (a, log)) : Spending (Timely S ds) log := by
  induction h generalizing ds log
  case elsewhere hp => exact spending_of_untouched <| hp.outcome ho
  case assign missing target laboratoryId newIds attachment hm =>
    unfold assignUploadedAttachment consumeFileUpload fetchFileUploadForUpdate at ho
    simp only [bind_assoc] at ho
    replace ho := outcome_selectForUpdate_bind ho
    obtain ⟨_, _, -, ho⟩ | ⟨_, v, ds, rfl, ho⟩ := ho
    case inl => simp at ho
    case inr =>
      cases hu : v.fileUploads.find? attachment.uploadId
      case none => simp [hu] at ho
      case some u =>
        rw [hu] at ho
        simp only [bind_assoc, outcome_require_bind, outcome_read_bind] at ho
        obtain ⟨hn, d, ds, rfl, hx, ho⟩ := ho
        simp only [markFileUploadConsumed, bind_assoc, outcome_read_bind, pure_bind] at ho
        obtain ⟨d', ds, rfl, ho⟩ := ho
        simp only [exec, insertAttachment, write_bind, done_bind, outcome_write, outcome_done,
          outcome_require_bind] at ho
        obtain ⟨_, ⟨-, _, ⟨_, ⟨-, -, rfl⟩, rfl⟩, rfl⟩, rfl⟩ := ho
        have hk : u.uploadId = attachment.uploadId := (Table.find?_eq_some.mp hu).right
        have htakes : Takes u ⟨newIds 0, u.laboratoryId, u.storageKey⟩ := ⟨rfl, rfl⟩
        exact Spending.nil.spend ⟨hk ▸ hm, d, by simp, hx⟩ (Option.isNone_iff_eq_none.mp hn) htakes
          ⟨rfl, rfl⟩
  case bind ih ih' =>
    obtain ⟨ds₁, ds₂, _, log₁, log₂, rfl, hp, hf, rfl⟩ := outcome_bind.mp ho
    refine (ih hp).mono (fun u hu => hu.mono <| List.subset_append_left _ _) |>.append ?_
    exact (ih' _ hf).mono fun u hu => hu.mono <| List.subset_append_right _ _

end Filing

section Calls

variable [TextFormats] [UnicodeSegmentation] [ScanOrder]

-- The requests of users, whatever else is done, and the passing of time.
inductive Call
  | upload (ctx : LaboratoryContext) (storageKey : String) (uploadTokenTtl : Timestamp)
      (newId : Uuid)
  | request (ctx : LaboratoryContext) (request : FileStorage.Request)
  | other (p : Transaction Unit) (h : p.Writes Untouched)

def Call.handle : Call → Transaction Unit
  | upload ctx storageKey uploadTokenTtl newId => do
    validateUploadPermission ctx
    insertUploadedFile ctx storageKey uploadTokenTtl newId
  | .request ctx r => do
    let _ ← r.handle ctx
  | other p _ => p

section Removals

omit [TextFormats] [UnicodeSegmentation]

theorem removes_deleteAttachments {isDeleted : AttachmentAssignmentRow → Bool}
    {err : Constraint → ApiError} : (deleteAttachments isDeleted err).Writes Removes := by
  refine readOnly_read.writes_bind fun rows => Writes.bind (writes_collect fun r => ?_) fun _ =>
    Writes.bind (writes_collect fun fileId => ?_) fun _ => writes_done
  all_goals
    refine readOnly_read.writes_bind fun found => ?_
    cases found
    case none => trivial
    case some => exact (writes_exec trivial).bind fun _ => writes_done

omit [ScanOrder] in
theorem removes_fetchAttachmentForUpdate {attachmentId : Uuid} {α : Type}
    {f : Option (AttachmentAssignmentRow × FileRow) → Transaction α}
    (h : ∀ found, (f found).Writes Removes) :
    (fetchAttachmentForUpdate attachmentId >>= f).Writes Removes :=
  readOnly_selectForUpdate.writes_bind h

theorem removes_deleteAttachment {ctx : LaboratoryContext} {attachmentId : Uuid} :
    (deleteAttachment ctx attachmentId).Writes Removes := by
  refine removes_fetchAttachmentForUpdate fun found => ?_
  cases found
  case none => trivial
  case some =>
    refine readOnly_read.writes_bind fun _ => readOnly_require.writes_bind fun _ => ?_
    exact removes_deleteAttachments.bind fun _ => writes_done

omit [ScanOrder] in
theorem removes_updateAttachment {ctx : LaboratoryContext} {attachmentId : Uuid}
    {isPublic : Option Bool} : (updateAttachment ctx attachmentId isPublic).Writes Removes := by
  refine removes_fetchAttachmentForUpdate fun found => ?_
  cases found
  case none => trivial
  case some =>
    refine readOnly_read.writes_bind fun _ => readOnly_require.writes_bind fun _ => ?_
    exact writes_exec trivial

omit [ScanOrder] in
theorem removes_deleteInventoryItemFromDatabase {inventoryItemId : Uuid} :
    (InventoryItems.deleteInventoryItemFromDatabase inventoryItemId).Writes Removes := by
  refine readOnly_selectForUpdate.writes_bind fun found => ?_
  cases found
  case none => trivial
  case some => exact writes_exec trivial

theorem removes_deleteItems {items : List InventoryItemRow} :
    (InventoryItems.deleteItems items).Writes Removes := by
  induction items
  case nil => trivial
  case cons ih =>
    refine removes_deleteAttachments.bind fun _ => ?_
    exact removes_deleteInventoryItemFromDatabase.bind fun _ => ih.bind fun _ => writes_done

theorem removes_deleteInventoryItem {ctx : LaboratoryContext} {inventoryItemId : Uuid} :
    (InventoryItems.deleteInventoryItem ctx inventoryItemId).Writes Removes := by
  refine InventoryItems.requirePermissions_readOnly.writes_bind fun _ => ?_
  refine readOnly_selectForUpdate.writes_bind fun item => ?_
  cases item
  case none => trivial
  case some =>
    refine readOnly_ofExcept.writes_bind fun _ => removes_deleteAttachments.bind fun _ => ?_
    exact removes_deleteInventoryItemFromDatabase.bind fun _ => writes_done

theorem removes_batchDeleteInventoryItems {ctx : LaboratoryContext} {inventoryItemIds : List Uuid} :
    (InventoryItems.batchDeleteInventoryItems ctx inventoryItemIds).Writes Removes := by
  refine readOnly_ofExcept.writes_bind fun _ => ?_
  refine InventoryItems.requirePermissions_readOnly.writes_bind fun _ => ?_
  refine readOnly_selectAllForUpdate.writes_bind fun _ => readOnly_ofExcept.writes_bind fun _ => ?_
  exact readOnly_ofExcept.writes_bind fun _ => removes_deleteItems

theorem removes_deleteAsset {ctx : LaboratoryContext} {assetId : Uuid} :
    (Assets.deleteAsset ctx assetId).Writes Removes := by
  refine readOnly_read.writes_bind fun _ => readOnly_require.writes_bind fun _ => ?_
  refine readOnly_selectForUpdate.writes_bind fun found => ?_
  cases found
  case none => trivial
  case some =>
    refine readOnly_selectAllForUpdate.writes_bind fun _ => ?_
    refine ReadOnly.writes_bind (readOnly_forAll fun _ => readOnly_done) fun _ => ?_
    refine removes_deleteAttachments.bind fun _ => ?_
    exact (writes_exec trivial).bind fun _ => writes_done

theorem removes_moveInventoryItemAttachments {ids : List Uuid} {inventoryItemId : Uuid} :
    (InventoryItems.moveInventoryItemAttachments ids inventoryItemId).Writes Removes := by
  refine writes_forAll fun r => readOnly_read.writes_bind fun found => ?_
  cases found
  case none => trivial
  case some => exact writes_exec trivial

theorem removes_mergeInventoryItems {ctx : LaboratoryContext} {payload} :
    (InventoryItems.mergeInventoryItems ctx payload).Writes Removes := by
  refine readOnly_ofExcept.writes_bind fun _ => ?_
  refine InventoryItems.requirePermissions_readOnly.writes_bind fun _ => ?_
  refine readOnly_selectAllForUpdate.writes_bind fun _ => readOnly_ofExcept.writes_bind fun _ => ?_
  refine readOnly_ofExcept.writes_bind fun _ => readOnly_ofExcept.writes_bind fun _ => ?_
  refine readOnly_ofExcept.writes_bind fun sources => ?_
  refine removes_moveInventoryItemAttachments.bind fun _ => Writes.bind ?_ fun _ => ?_
  case refine_1 =>
    refine Writes.bind (readOnly_selectForUpdate.writes_bind fun found => ?_) fun _ => ?_
    case refine_1 => cases found <;> trivial
    case refine_2 =>
      refine readOnly_selectForUpdate.writes_bind fun found => ?_
      cases found <;> trivial
  case refine_2 =>
    induction sources.map (·.inventoryItemId)
    case nil => trivial
    case cons ih => exact removes_deleteInventoryItemFromDatabase.bind fun _ => ih

end Removals

section Filings

variable {S : Set Uuid} {ctx : LaboratoryContext} {ds : List Database}

-- The uploads that a request is about.
def requested : FileStorage.Request → Set Uuid
  | .assignAssetAttachment _ payload _ | .assignInventoryItemAttachment _ payload _ =>
    {payload.uploadId}
  | .createAsset payload _ => { k | k ∈ payload.uploadIds }
  | .createInventoryItems _ payload _ _ => { k | k ∈ payload.uploadIds }
  | _ => ∅

omit [TextFormats] [UnicodeSegmentation] [ScanOrder]

theorem filing_assignAttachment {resource target targetId laboratoryOf missing forbidden}
    {payload : NewAttachment} {newIds : NewIds} : Filing {payload.uploadId} (assignAttachment ctx
      resource target targetId laboratoryOf missing forbidden payload newIds) := by
  refine .readOnly_bind readOnly_fetch fun _ => .readOnly_bind readOnly_require fun _ => ?_
  refine .readOnly_bind readOnly_read fun _ => .readOnly_bind readOnly_require fun _ => ?_
  refine .readOnly_bind readOnly_read fun _ => .readOnly_bind readOnly_require fun _ => ?_
  exact .assignUploadedAttachments <| List.forall_mem_singleton.mpr rfl

theorem filing_insertAssetInventoryItems {laboratoryId assetId trackingMode newIds}
    {inputs : List Assets.NewInventoryItemInput}
    (h : ∀ a ∈ inputs.flatMap (·.attachments), a.uploadId ∈ S) :
    Filing S (Assets.insertAssetInventoryItems laboratoryId assetId trackingMode newIds inputs) := by
  induction inputs generalizing newIds
  case nil => exact .elsewhere trivial
  case cons ih =>
    rw [List.flatMap_cons, List.forall_mem_append] at h
    refine .bind (.elsewhere ?_) fun _ =>
      .bind (.assignUploadedAttachments h.left) fun _ => ih h.right
    exact InventoryItems.validateOptionalLocation_readOnly.writes_bind fun _ => writes_exec trivial

theorem attachments_of_parse [UnicodeSegmentation] {item : Assets.InventoryItemJsonData}
    {trackingMode : AssetTrackingMode} {input : Assets.NewInventoryItemInput}
    (h : Assets.NewInventoryItemInput.parse item trackingMode = .ok input) :
    input.attachments = item.attachments.getD [] := by
  simp only [Assets.NewInventoryItemInput.parse, Except.bind_eq_ok, Except.pure_eq_ok] at h
  obtain ⟨_, _, rfl⟩ := h
  rfl

theorem uploadIds_of_toCreateAssetInput [UnicodeSegmentation] {payload : Assets.CreateJsonData}
    {input : Assets.CreateAssetInput} (h : payload.toCreateAssetInput = .ok input) :
    input.allAttachments.map (·.uploadId) = payload.uploadIds := by
  simp only [Assets.CreateJsonData.toCreateAssetInput, Except.bind_eq_ok, Except.pure_eq_ok] at h
  obtain ⟨_, _, items, hitems, _, _, rfl⟩ := h
  have hitems := Except.map_eq_of_mapM hitems fun _ _ => attachments_of_parse
  rw [Assets.CreateAssetInput.allAttachments, Assets.CreateJsonData.uploadIds, List.flatMap_def,
    hitems, List.flatMap_def]

theorem filing_createAsset [TextFormats] [UnicodeSegmentation] {payload : Assets.CreateJsonData}
    {newIds} : Filing { k | k ∈ payload.uploadIds } (Assets.createAsset ctx payload newIds) := by
  refine .readOnly_bind readOnly_read fun _ => .readOnly_bind readOnly_require fun _ => ?_
  refine .readOnly_bind InventoryItems.requirePermissions_readOnly fun _ => ?_
  refine .ofExcept_bind fun input hi => ?_
  have hids := uploadIds_of_toCreateAssetInput (Except.mapError_eq_ok.mp hi)
  have hmem : ∀ a ∈ input.allAttachments, a.uploadId ∈ { k | k ∈ payload.uploadIds } :=
    fun a ha => hids ▸ List.mem_map_of_mem ha
  refine .readOnly_bind Assets.validateCategory_readOnly fun _ => ?_
  refine .bind (.elsewhere <| writes_exec trivial) fun _ => ?_
  refine .bind (.assignUploadedAttachments fun a ha => hmem a <| List.mem_append_left _ ha) fun _ => ?_
  refine .bind (filing_insertAssetInventoryItems fun a ha => hmem a <| List.mem_append_right _ ha)
    fun _ => .elsewhere ?_
  exact FileStorage.untouched_applyAssetParameterUpdates.bind fun _ =>
    Assets.validateRequiredParameters_readOnly.writes

theorem filing_assignGroups {laboratoryId : Uuid} {newIds : Nat → NewIds}
    {groups : List (InventoryItemRow × List NewAttachment)}
    (h : ∀ g ∈ groups, ∀ a ∈ g.2, a.uploadId ∈ S) : Filing S
      (InventoryItems.InventoryItemAttachmentSource.assignGroups laboratoryId newIds groups) := by
  induction groups generalizing newIds
  case nil => exact .elsewhere trivial
  case cons ih =>
    obtain ⟨hg, h⟩ := List.forall_mem_cons.mp h
    exact .bind (.assignUploadedAttachments hg) fun _ => ih h

theorem filing_assign {created laboratoryId newIds}
    {source : InventoryItems.InventoryItemAttachmentSource}
    (h : ∀ a ∈ source.attachments, a.uploadId ∈ S) :
    Filing S (source.assign created laboratoryId newIds) := by
  cases source
  case empty => exact .elsewhere trivial
  case single group =>
    refine .readOnly_bind readOnly_require fun _ => filing_assignGroups fun g hg => ?_
    rw [List.mem_singleton.mp (List.of_mem_zip hg).right]
    exact h
  case perSerialItem groups =>
    refine .readOnly_bind readOnly_require fun _ => filing_assignGroups fun g hg a ha => ?_
    exact h a <| List.mem_flatten.mpr ⟨g.2, (List.of_mem_zip hg).right, ha⟩

theorem uploadIds_of_attachmentSource {payload : InventoryItems.CreateJsonData} {source}
    (h : InventoryItems.InventoryItemAttachmentSource.parse (payload.attachments.getD [])
      payload.attachmentGroups = .ok source) {a : NewAttachment} (ha : a ∈ source.attachments) :
    a.uploadId ∈ payload.uploadIds := by
  refine List.mem_map_of_mem <| List.mem_append.mpr ?_
  unfold InventoryItems.InventoryItemAttachmentSource.parse at h
  split at h
  case h_1 => simp at h
  case h_2 =>
    obtain rfl := Except.ok.inj h
    exact .inl ha
  case h_3 =>
    obtain rfl := Except.ok.inj h
    exact .inr ha
  case h_4 =>
    obtain rfl := Except.ok.inj h
    exact absurd ha List.not_mem_nil

theorem filing_createInventoryItems [UnicodeSegmentation] {assetId newIds newAttachmentIds}
    {payload : InventoryItems.CreateJsonData} : Filing { k | k ∈ payload.uploadIds }
      (InventoryItems.createInventoryItems ctx assetId payload newIds newAttachmentIds) := by
  refine .readOnly_bind readOnly_fetch fun _ => .readOnly_bind readOnly_require fun _ => ?_
  refine .readOnly_bind InventoryItems.requirePermissions_readOnly fun _ => ?_
  refine .readOnly_bind InventoryItems.requirePermissions_readOnly fun _ => ?_
  refine .ofExcept_bind fun source hsource => .readOnly_bind readOnly_ofExcept fun _ => ?_
  have hmem : ∀ a ∈ source.attachments, a.uploadId ∈ { k | k ∈ payload.uploadIds } :=
    fun a => uploadIds_of_attachmentSource (Except.mapError_eq_ok.mp hsource)
  refine .readOnly_bind readOnly_selectForUpdate fun asset => ?_
  cases asset
  case none => exact .elsewhere trivial
  case some asset =>
    refine .readOnly_bind readOnly_ofExcept fun creation => ?_
    refine .readOnly_bind InventoryItems.validateOptionalLocation_readOnly fun _ => ?_
    cases creation
    case quantity =>
      exact .bind (.elsewhere FileStorage.untouched_insertNewInventoryItems) fun _ =>
        filing_assign hmem
    case serialized =>
      refine .bind (.elsewhere ?_) fun _ => filing_assign hmem
      exact InventoryItems.serialNumbers_readOnly.writes_bind fun _ =>
        FileStorage.untouched_insertNewInventoryItems

-- What the permission to use an upload comes to.
def MayAssign (ctx : LaboratoryContext) (uploadId : Uuid) (v : Database) : Prop :=
  ∀ u, v.fileUploads.find? uploadId = some u → u.consumedAt = none → v.now < u.expiresAt →
    u.uploadedByUserId = ctx.actor.userId ∨ ctx.actor.isSystemAdmin

theorem mayAssign_of_canAssignFileUpload {actor : Actor} {uploadId : Uuid}
    (h : actor.canAssignFileUpload v uploadId) (hu : actor.userId = ctx.actor.userId)
    (ha : actor.isSystemAdmin → ctx.actor.isSystemAdmin) : MayAssign ctx uploadId v := by
  intro u hf hn hx
  have hown : actor.ownsFileUpload u := by
    simpa [Actor.canAssignFileUpload, hf, hn, hx] using h
  simp only [Actor.ownsFileUpload, Bool.and_eq_true, Bool.or_eq_true, decide_eq_true_eq] at hown
  exact hown.right.elim (fun hs => .inr (ha hs)) fun he => .inl (he.symm.trans hu)

theorem mayAssign_of_actor {uploadId : Uuid}
    (h : validatePermission v ctx.actor .fileUpload (.assign uploadId)) :
    MayAssign ctx uploadId v := by
  have h : ctx.actor.canAssignFileUpload v uploadId := h
  exact mayAssign_of_canAssignFileUpload h rfl id

theorem mayAssign_of_authorizationActor {uploadId : Uuid}
    (h : validatePermission v ctx.authorizationActor .fileUpload (.assign uploadId)) :
    MayAssign ctx uploadId v := by
  have h : ctx.authorizationActor.canAssignFileUpload v uploadId := h
  refine mayAssign_of_canAssignFileUpload h ?_ ?_ <;>
    unfold LaboratoryContext.authorizationActor <;> split
  case refine_1.isTrue | refine_1.isFalse => rfl
  case refine_2.isTrue hs => exact fun _ => hs
  case refine_2.isFalse => exact id

theorem outcome_requirePermissions_bind {α : Type} {actor : Actor} {resource : ResourceType}
    {e : ApiError} {actions : List Action} {f : Unit → Transaction α} {x : α × List Write}
    (h : (InventoryItems.requirePermissions actor resource e actions >>= f).outcome ds = some x) :
    (∀ action ∈ actions, ∃ v ∈ ds, validatePermission v actor resource action) ∧
      ∃ ds', ds' ⊆ ds ∧ (f ()).outcome ds' = some x := by
  induction actions generalizing ds
  case nil => exact ⟨fun _ ha => absurd ha List.not_mem_nil, ds, fun _ h => h, h⟩
  case cons action actions ih =>
    simp only [InventoryItems.requirePermissions, bind_assoc, outcome_read_bind,
      outcome_require_bind] at h
    obtain ⟨v, ds, rfl, hp, h⟩ := h
    obtain ⟨hall, ds', hs, h⟩ := ih h
    refine ⟨List.forall_mem_cons.mpr ⟨⟨v, .head _, hp⟩, fun a ha => ?_⟩, ds',
      List.subset_cons_of_subset v hs, h⟩
    obtain ⟨v', hv', hp'⟩ := hall a ha
    exact ⟨v', .tail _ hv', hp'⟩

theorem permitted_of_assignAttachment {resource target targetId laboratoryOf missing forbidden}
    {payload : NewAttachment} {newIds : NewIds} {x}
    (h : (assignAttachment ctx resource target targetId laboratoryOf missing forbidden payload
      newIds).outcome ds = some x) : ∃ v ∈ ds, MayAssign ctx payload.uploadId v := by
  simp only [assignAttachment, outcome_fetch_bind, outcome_require_bind, outcome_read_bind] at h
  obtain ⟨_, _, _, rfl, -, -, _, _, rfl, -, v, _, rfl, hp, -⟩ := h
  exact ⟨v, by simp, mayAssign_of_authorizationActor hp⟩

end Filings

section Requests

variable {ctx : LaboratoryContext} {r : FileStorage.Request} {ds : List Database} {k : Uuid}

theorem handle_cases (ctx : LaboratoryContext) (r : FileStorage.Request) :
    (∃ uploadId, r = .deleteFileUpload uploadId) ∨
    Filing (requested r) (r.handle ctx) ∨ (r.handle ctx).Writes Removes := by
  cases r
  case deleteFileUpload => exact .inl ⟨_, rfl⟩
  case assignAssetAttachment =>
    exact .inr <| .inl <| .bind filing_assignAttachment fun _ => .elsewhere trivial
  case assignInventoryItemAttachment =>
    exact .inr <| .inl <| .bind filing_assignAttachment fun _ => .elsewhere trivial
  case createAsset =>
    exact .inr <| .inl <| .bind filing_createAsset fun _ => .elsewhere trivial
  case createInventoryItems =>
    exact .inr <| .inl <| .bind filing_createInventoryItems fun _ => .elsewhere trivial
  case updateAttachment => exact .inr <| .inr <| removes_updateAttachment.bind fun _ => trivial
  case deleteAttachment => exact .inr <| .inr <| removes_deleteAttachment.bind fun _ => trivial
  case deleteAsset => exact .inr <| .inr <| removes_deleteAsset.bind fun _ => trivial
  case mergeInventoryItems =>
    exact .inr <| .inr <| removes_mergeInventoryItems.bind fun _ => trivial
  case deleteInventoryItem =>
    exact .inr <| .inr <| removes_deleteInventoryItem.bind fun _ => trivial
  case batchDeleteInventoryItems =>
    exact .inr <| .inr <| removes_batchDeleteInventoryItems.bind fun _ => trivial

-- Every upload that is asked for has been looked at.
theorem permitted_of_outcome {x : List String × List Write}
    (h : (r.handle ctx).outcome ds = some x) (hk : k ∈ requested r) :
    ∃ v ∈ ds, MayAssign ctx k v := by
  cases r
  case assignAssetAttachment =>
    obtain ⟨ds₁, ds₂, _, _, _, rfl, ho, -⟩ := outcome_bind.mp h
    obtain ⟨v, hv, hm⟩ := permitted_of_assignAttachment ho
    exact ⟨v, List.mem_append_left _ hv, Set.mem_singleton_iff.mp hk ▸ hm⟩
  case assignInventoryItemAttachment =>
    obtain ⟨ds₁, ds₂, _, _, _, rfl, ho, -⟩ := outcome_bind.mp h
    obtain ⟨v, hv, hm⟩ := permitted_of_assignAttachment ho
    exact ⟨v, List.mem_append_left _ hv, Set.mem_singleton_iff.mp hk ▸ hm⟩
  case createAsset payload newIds =>
    obtain ⟨ds₁, ds₂, _, _, _, rfl, ho, -⟩ := outcome_bind.mp h
    simp only [Assets.createAsset, outcome_read_bind, outcome_require_bind] at ho
    obtain ⟨_, ds, rfl, -, ho⟩ := ho
    obtain ⟨hall, -⟩ := outcome_requirePermissions_bind ho
    obtain ⟨v, hv, hp⟩ := hall (.assign k) <| List.mem_map_of_mem hk
    exact ⟨v, List.mem_append_left _ <| .tail _ hv, mayAssign_of_actor hp⟩
  case createInventoryItems =>
    obtain ⟨ds₁, ds₂, _, _, _, rfl, ho, -⟩ := outcome_bind.mp h
    simp only [InventoryItems.createInventoryItems, outcome_fetch_bind, outcome_require_bind] at ho
    obtain ⟨_, ds, _, rfl, -, -, ho⟩ := ho
    obtain ⟨-, ds', hs, ho⟩ := outcome_requirePermissions_bind ho
    obtain ⟨hall, -⟩ := outcome_requirePermissions_bind ho
    obtain ⟨v, hv, hp⟩ := hall (.assign k) <| List.mem_map_of_mem hk
    exact ⟨v, List.mem_append_left _ <| .tail _ (hs hv), mayAssign_of_actor hp⟩
  all_goals exact hk.elim

end Requests

section Commits

open Discipline

variable {call : Call} {ds : List Database} {file : FileRow}

omit [TextFormats] [UnicodeSegmentation] [ScanOrder] in
theorem told_deleteFileUpload {ctx : LaboratoryContext} {uploadId : Uuid} :
    Told Known (deleteFileUpload ctx uploadId) [] [] ∅ d := by
  have hA : uploadDiscipline.Stable fun ks d => Spending (Available ks d) [] := stable_spending
  refine safe_readOnly readOnly_read hA .nil fun _ hs => ?_
  refine safe_readOnly readOnly_require hA hs fun _ hs => ?_
  refine safe_selectForUpdate hA hs (fun _ _ _ _ _ _ => trivial) fun d v _ hs hv => ?_
  cases hf : v.fileUploads.find? uploadId
  case none => trivial
  case some u =>
    refine safe_require (c := u.consumedAt.isNone) fun hn => ?_
    have hn := Option.isNone_iff_eq_none.mp hn
    have hu := hs.available (.inl rfl) hv hf hn
    exact safe_write stable_available ⟨hn, hu⟩ fun d _ _ _ hu _ _ => .dropping hu.right hu.left

omit [TextFormats] [UnicodeSegmentation] [ScanOrder] in
theorem told_upload {ctx : LaboratoryContext} {storageKey : String} {ttl : Timestamp}
    {newId : Uuid} : Told Known (do
      validateUploadPermission ctx
      insertUploadedFile ctx storageKey ttl newId) [] [] ∅ d := by
  have hA : uploadDiscipline.Stable fun _ _ => True := .const
  have hp : (validateUploadPermission ctx).ReadOnly := readOnly_read.bind fun _ => readOnly_require
  refine safe_readOnly hp hA trivial fun _ _ => safe_select hA trivial fun d v _ _ _ => ?_
  exact safe_write hA trivial fun _ _ _ _ _ _ _ => .adding rfl

omit [TextFormats] [UnicodeSegmentation] [ScanOrder] in
theorem told_of_removes {α : Type} {p : Transaction α} (h : p.Writes Removes) :
    Told Known p [] [] ∅ d := by
  have hs : uploadDiscipline.Safe (fun _ _ log _ _ => ∀ w ∈ log, Removes w) p [] [] ∅ d := by
    refine safe_writes (B := fun log _ _ => ∀ w ∈ log, Removes w) h (fun _ => .const)
      (fun _ hw => absurd hw List.not_mem_nil) ?_
    exact fun w log ks d hw hlog => List.forall_mem_append.mpr ⟨hlog, List.forall_mem_singleton.mpr hw⟩
  exact safe_mono hs fun h => .removing h

omit [TextFormats] [UnicodeSegmentation] [ScanOrder] in
theorem Filing.told {α : Type} {S : Set Uuid} {p : Transaction α} (h : Filing S p) :
    Told Known p [] [] ∅ d :=
  safe_mono (h.safe .nil) fun h => .spending h

theorem told_handle : Told Known call.handle [] [] ∅ d := by
  cases call
  case upload => exact told_upload
  case request ctx r =>
    refine safe_bind.mpr ?_
    obtain ⟨uploadId, rfl⟩ | h | h := handle_cases ctx r
    case inl => exact safe_bind.mpr told_deleteFileUpload
    case inr.inl => exact h.told
    case inr.inr => exact told_of_removes h
  case other p h => exact Filing.told (S := ∅) (.elsewhere h)

-- The upload that a commit has made a file of.
structure Origin (c : Committed Call Database) (file : FileRow) (u : FileUploadRow) : Prop where
  mem : u ∈ c.before.fileUploads
  unused : u.consumedAt = none
  used : Used u file c.before c.after
  unexpired : ∃ v ∈ c.reads, v.serverNow ≤ u.expiresAt
  permitted : ∃ ctx r, c.call = .request ctx r ∧ ∃ v ∈ c.reads, MayAssign ctx u.uploadId v

structure Accountable (c : Committed Call Database) : Prop where
  files : ∀ file ∈ c.after.files, file ∉ c.before.files → ∃ u, Origin c file u
  uploads : ∀ u ∈ c.before.fileUploads, u ∉ c.after.fileUploads → u.consumedAt = none ∧
    ((∃ ctx, c.call = .request ctx (.deleteFileUpload u.uploadId)) ∨ ∃ file, Origin c file u)

-- Why a request has written to the uploads.
inductive Reason (call : Call) (ds : List Database) : RowWrite FileUploadRow Uuid → Prop
  | upload {u : FileUploadRow} : Reason call ds (.insert u)
  | delete {ctx : LaboratoryContext} {uploadId : Uuid}
      (h : call = .request ctx (.deleteFileUpload uploadId)) : Reason call ds (.delete uploadId)
  | spend {ctx : LaboratoryContext} {r : FileStorage.Request} {u : FileUploadRow} {now : Timestamp}
      (h : call = .request ctx r) (hn : u.consumedAt = none) (ht : Timely (requested r) ds u)
      (hp : ∃ v ∈ ds, MayAssign ctx u.uploadId v) :
      Reason call ds (.update { u with consumedAt := some now })

omit [TextFormats] [UnicodeSegmentation] [ScanOrder] in
theorem outcome_deleteFileUpload {ctx : LaboratoryContext} {uploadId : Uuid} {key : String}
    (ho : (deleteFileUpload ctx uploadId).outcome ds = some (key, log)) :
    log = [.fileUploads (.delete uploadId)] := by
  simp only [deleteFileUpload, outcome_read_bind, outcome_require_bind] at ho
  obtain ⟨_, _, rfl, -, ho⟩ := ho
  replace ho := outcome_selectForUpdate_bind ho
  obtain ⟨_, _, -, ho⟩ | ⟨_, v, ds, rfl, ho⟩ := ho
  case inl => simp at ho
  case inr =>
    cases hu : v.fileUploads.find? uploadId
    case none => simp [hu] at ho
    case some u =>
      have hk : u.uploadId = uploadId := (Table.find?_eq_some.mp hu).right
      rw [hu] at ho
      simp only [outcome_require_bind, deleteFileUploadFromDatabase, exec, write_bind, outcome_write,
        done_bind, pure_def, outcome_done] at ho
      obtain ⟨-, _, ⟨-, -, rfl⟩, rfl⟩ := ho
      rw [hk]

theorem reason_of_outcome {w : RowWrite FileUploadRow Uuid}
    (ho : call.handle.outcome ds = some ((), log)) (hw : .fileUploads w ∈ log) :
    Reason call ds w := by
  cases call
  case upload =>
    simp only [Call.handle, validateUploadPermission, insertUploadedFile, insertFileUpload, bind_assoc,
      outcome_read_bind, outcome_require_bind, exec, outcome_write, outcome_done] at ho
    obtain ⟨_, _, -, -, _, _, -, _, ⟨-, -, rfl⟩, rfl⟩ := ho
    obtain rfl := Write.fileUploads.inj <| List.mem_singleton.mp hw
    exact .upload
  case request ctx r =>
    replace ho := outcome_bind.mp ho
    obtain ⟨ds₁, ds₂, keys, log₁, log₂, rfl, ho, hd, rfl⟩ := ho
    obtain ⟨-, rfl, rfl⟩ := outcome_done.mp hd
    rw [List.append_nil] at hw ⊢
    obtain ⟨uploadId, rfl⟩ | h | h := handle_cases ctx r
    case inl =>
      replace ho := outcome_bind.mp ho
      obtain ⟨_, _, _, log₁, log₂, rfl, ho, hd, rfl⟩ := ho
      obtain ⟨-, rfl, rfl⟩ := outcome_done.mp hd
      rw [List.append_nil, outcome_deleteFileUpload ho] at hw
      obtain rfl := Write.fileUploads.inj <| List.mem_singleton.mp hw
      exact .delete rfl
    case inr.inl =>
      obtain ⟨u, now, rfl, ht, hn⟩ := (h.spending ho).upload hw
      exact .spend rfl hn ht <| permitted_of_outcome ho ht.requested
    case inr.inr => exact (h.outcome ho _ hw).elim
  case other p h => exact (h.outcome ho _ hw).elim

omit [TextFormats] [UnicodeSegmentation] [ScanOrder] in
theorem spend_of_reason {now : Timestamp}
    (h : Reason call ds (.update { u with consumedAt := some now })) (hn : u.consumedAt = none) :
    ∃ ctx r, call = .request ctx r ∧ Timely (requested r) ds u ∧
      ∃ v ∈ ds, MayAssign ctx u.uploadId v := by
  generalize hw : RowWrite.update { u with consumedAt := some now } = w at h
  cases h
  case upload => cases hw
  case delete => cases hw
  case spend ctx r u' now' hcall hn' ht hp =>
    simp only [RowWrite.update.injEq, FileUploadRow.mk.injEq] at hw
    obtain rfl : u = u' := by
      cases u
      cases u'
      simp_all
    exact ⟨ctx, r, hcall, ht, hp⟩

omit [TextFormats] [UnicodeSegmentation] [ScanOrder] in
theorem delete_of_reason {k : Uuid} (h : Reason call ds (.delete k)) :
    ∃ ctx, call = .request ctx (.deleteFileUpload k) := by
  cases h
  case delete hcall => exact ⟨_, hcall⟩

omit [TextFormats] [UnicodeSegmentation] [ScanOrder] in
-- No other upload has become the file.
theorem Origin.unique {c : Committed Call Database} {u u' : FileUploadRow} (h : Origin c file u)
    (hn : u'.consumedAt = none) (hu : Used u' file c.before c.after) : u = u' := by
  obtain ⟨now, hm⟩ := h.used.consumed
  obtain ⟨now', hm'⟩ := hu.consumed
  have he := upload_eq_of_storageKey hm hm' <|
    h.used.takes.storageKey.symm.trans hu.takes.storageKey
  have hn' := h.unused
  cases u
  cases u'
  simp_all

theorem accountable {begun : Nat} (ht : Known ks d log) (ho : call.handle.outcome ds = some ((), log))
    (hv : replay log d = .ok d') : Accountable ⟨call, begun, ds, d, d'⟩ := by
  cases ht
  case spending h =>
    have hs := h.spent hv
    have hfiles : ∀ file ∈ d'.files, file ∉ d.files → ∃ u, Origin ⟨call, begun, ds, d, d'⟩ file u := by
      intro file hm hn
      obtain ⟨u, now, hw, hu, hnone, htakes, r, hr, ha⟩ := h.file <| (hs.files file hm).resolve_left hn
      have hused : ∃ now, { u with consumedAt := some now } ∈ d'.fileUploads := by
        obtain hm' | ⟨-, -, _, hused⟩ := hs.fate u hu.left
        case inl => exact absurd hnone <| hs.consumed _ hw u hm' rfl
        case inr => exact hused.consumed
      obtain ⟨ctx, request, hcall, ht, hp⟩ := spend_of_reason (reason_of_outcome ho hw) hnone
      exact ⟨u, hu.left, hnone, ⟨htakes, hm, hn, hused, r, hs.assignments r hr, ha⟩, ht.unexpired,
        ctx, request, hcall, hp⟩
    refine ⟨hfiles, fun u hm hn => ?_⟩
    obtain ⟨hnone, -, file, hused⟩ := (hs.fate u hm).resolve_left hn
    obtain ⟨u', horigin⟩ := hfiles file hused.stored hused.new
    obtain rfl : u' = u := horigin.unique hnone hused
    exact ⟨hnone, .inr ⟨file, horigin⟩⟩
  case adding u hn =>
    simp only [replay_cons, replay_nil, Except.ok.injEq] at hv
    obtain ⟨_, ha, rfl⟩ := hv
    obtain ⟨ht, he⟩ := Database.applied_of_apply ha
    refine ⟨fun file hm hn => absurd (by rw [he] at hm; exact hm) hn, fun u' hm hn => ?_⟩
    exact absurd ((Table.mem_insert ht).mpr (.inl hm)) hn
  case dropping u hu hn =>
    have hkeeps := fun u' hm => Known.keeps (u := u') (.dropping hu hn) hv hm
    simp only [replay_cons, replay_nil, Except.ok.injEq] at hv
    obtain ⟨_, ha, rfl⟩ := hv
    obtain ⟨ht, he⟩ := Database.applied_of_apply ha
    refine ⟨fun file hm hn => absurd (by rw [he] at hm; exact hm) hn, fun u' hm hn' => ?_⟩
    have hd := Except.ok.inj ht
    obtain rfl : u' = u := by
      by_contra hne
      refine hn' <| hd ▸ Table.mem_delete.mpr ⟨hm, fun hk => hne ?_⟩
      exact Table.eq_of_key_eq hm hu.left hk
    have hreason := reason_of_outcome ho (.head _)
    exact ⟨hn, .inl <| delete_of_reason hreason⟩
  case removing h =>
    obtain ⟨hu, hf⟩ := removes_replay h hv
    exact ⟨fun file hm hn => absurd (hf file hm) hn, fun u hm hn => absurd (hu ▸ hm) hn⟩

-- The object of each new file keeps being that of a spent upload.
def Kept (c : Committed Call Database) (d : Database) : Prop :=
  ∀ file ∈ c.after.files, file ∉ c.before.files →
    ∃ u ∈ d.fileUploads, u.consumedAt ≠ none ∧ u.storageKey = file.storageKey

omit [TextFormats] [UnicodeSegmentation] [ScanOrder]

theorem Accountable.kept {c : Committed Call Database} (h : Accountable c) : Kept c c.after := by
  intro file hm hn
  obtain ⟨u, ho⟩ := h.files file hm hn
  obtain ⟨now, hu⟩ := ho.used.consumed
  exact ⟨_, hu, Option.some_ne_none now, ho.used.takes.storageKey.symm⟩

theorem Kept.after {c c' : Committed Call Database} (hc : Accountable c') (h : Kept c c'.before) :
    Kept c c'.after := by
  intro file hm hn
  obtain ⟨u, hu, hs, hk⟩ := h file hm hn
  by_cases hm' : u ∈ c'.after.fileUploads
  case pos => exact ⟨u, hm', hs, hk⟩
  case neg => exact absurd (hc.uploads u hu hm').left hs

-- The upload of a new file was unused, that of an older one has been spent.
theorem Accountable.storageKey_ne {c : Committed Call Database} (h : Accountable c)
    (hu : u ∈ c.before.fileUploads)
    (hs : u.consumedAt ≠ none) (hm : file ∈ c.after.files) (hn : file ∉ c.before.files) :
    file.storageKey ≠ u.storageKey := by
  intro hk
  obtain ⟨u', ho⟩ := h.files file hm hn
  obtain rfl := upload_eq_of_storageKey ho.mem hu <| ho.used.takes.storageKey.symm.trans hk
  exact hs ho.unused

-- Every file stems from an upload of its own: no run makes files of the same upload twice.
theorem uploads_spent_once [TextFormats] [UnicodeSegmentation] [ScanOrder] {ι : Type}
    [DecidableEq ι] {P} {w : Watch ι Call Database RowId Write Constraint ApiError Unit}
    (hr : Watch.Run Call.handle P (.init d) w) : (∀ c ∈ w.commits, Accountable c ∧ Kept c w.db) ∧
      w.commits.Pairwise fun c' c => ∀ file ∈ c.after.files, file ∉ c.before.files →
        ∀ file' ∈ c'.after.files, file' ∉ c'.before.files → file'.storageKey ≠ file.storageKey := by
  have hrec : Watch.Recorded Accountable Kept w := hr.recorded (fun _ => stable_known)
    (fun _ _ _ _ => told_handle) (fun _ _ _ _ _ _ _ _ ht ho hv => accountable ht ho hv)
    (fun _ h => h.kept) fun _ _ hc h => h.after hc
  refine ⟨hrec.commits, hrec.pairwise.imp_of_mem fun hm' _ hk file hf hn file' hf' hn' => ?_⟩
  obtain ⟨u, hu, hs, hkey⟩ := hk file hf hn
  exact hkey ▸ (hrec.commits _ hm').left.storageKey_ne hu hs hf' hn'

end Commits

end Calls

section Examples

open InventoryItems

-- The manual of the reagent is uploaded, and attached to it.
def attached [TextFormats] [UnicodeSegmentation] [ScanOrder] : List (Event Unit Call) :=
  .begin () (.upload keeper "manual" 1000 70) :: List.replicate 3 (.step ()) ++
    .commit () :: .begin () (.request keeper <| .assignAssetAttachment 60 ⟨70, false⟩ fun i =>
      .ofNat 128 (80 + i)) :: List.replicate 11 (.step ()) ++ [.commit ()]

theorem uploads_spent_once_attached :
    let _ := tallied
    let _ := UnicodeSegmentation.characters
    let _ := ScanOrder.stored
    ∃ w : Watch Unit Call Database RowId Write Constraint ApiError Unit,
      Watch.Run Call.handle (fun _ _ => True) (Watch.init stockroom) w ∧
        ∃ c ∈ w.commits, ∃ file u, Origin c file u := by
  let _ := tallied
  let _ := UnicodeSegmentation.characters
  let _ := ScanOrder.stored
  have he : ((Watch.init stockroom : Watch Unit Call Database RowId Write Constraint ApiError
      Unit).exec Call.handle attached).any fun w => w.commits.any fun c =>
        c.before.files.rows.isEmpty ∧ ¬c.after.files.rows.isEmpty := by
    decide +kernel
  obtain ⟨w, he, hw⟩ := (Option.any_eq_true _ _).mp he
  obtain ⟨c, hc, hw⟩ := List.any_eq_true.mp hw
  obtain ⟨hb, ha⟩ := of_decide_eq_true hw
  obtain ⟨file, hf⟩ := List.exists_mem_of_ne_nil _ fun hn => ha <| List.isEmpty_iff.mpr hn
  have hn : file ∉ c.before.files := fun hm =>
    List.not_mem_nil <| List.isEmpty_iff.mp hb ▸ (show file ∈ c.before.files.rows from hm)
  have hr : Watch.Run Call.handle (fun _ _ => True) (Watch.init stockroom) w :=
    .of_exec he fun _ _ _ => trivial
  obtain ⟨hall, -⟩ := uploads_spent_once hr
  exact ⟨w, hr, c, hc, file, (hall c hc).left.files file hf hn⟩

end Examples

end FileUploads

end LabInventory
