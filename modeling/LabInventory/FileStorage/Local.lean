import LabInventory.Domain.File
import LabInventory.Domain.Uuid
import LabInventory.Library.Sha256
import LabInventory.Library.UnixPath

open UnixPath

namespace LabInventory

namespace FileStorage

def hexDigest (bytes : List UInt8) : String :=
  .ofList <| (Sha2.sha256 bytes).flatMap fun b => [Hex.digit (b.toNat / 16), Hex.digit (b.toNat % 16)]

def fileExtension (fileName : String) : Option String := do
  let extension ← UnixPath.extension fileName.toList
  let extension := (Text.trim (.ofList extension)).toList.map Char.toLower
  if extension = [] ∨ 16 < (String.ofList extension).utf8ByteSize ∨
      !extension.all Char.isAlphanum then
    none
  else
    some (.ofList extension)

-- The part of an upload that decides about where its object is stored.
def uploadKey (laboratoryId objectId : Uuid) (originalFileName : String) (bytes : List UInt8) :
    Except String String := do
  let sha256Hex ← FileSha256.parse (hexDigest bytes)
  let fileName := match fileExtension originalFileName with
    | some extension => s!"{sha256Hex}.{extension}"
    | none => sha256Hex
  FileStorageKey.parse
    s!"labs/{showHyphenated laboratoryId}/objects/{showHyphenated objectId}/{fileName}"

def pushSegment (path segment : Path) : Except String Path :=
  if segment = [] ∨ segment = ['.'] ∨ segment = ['.', '.'] ∨ segment.contains '\\' ∨
      segment.contains '/' then
    .error "Invalid attachment storage key"
  else
    .ok (push path segment)

def pathForKey (root : Path) (storageKey : String) : Except String Path :=
  (storageKey.toList.splitOn '/').foldlM pushSegment root

section Keys

variable {s key : String} {segment root : Path} {segments : List Path}

theorem parse_eq_ok : FileStorageKey.parse s = .ok key ↔ key = Text.trim s ∧ key ≠ "" ∧
    key.utf8ByteSize ≤ 512 ∧ ∀ segment ∈ key.toList.splitOn '/', FileStorageKey.isValid segment := by
  unfold FileStorageKey.parse
  rw [← List.all_eq_true]
  dsimp only
  split
  case isTrue h =>
    constructor
    case mp =>
      intro hk
      obtain rfl := Except.ok.inj hk
      exact ⟨rfl, h⟩
    case mpr =>
      rintro ⟨rfl, -⟩
      rfl
  case isFalse h =>
    refine iff_of_false nofun ?_
    rintro ⟨rfl, hk⟩
    exact h hk

theorem isName_of_isValid (hv : FileStorageKey.isValid segment) (hs : '/' ∉ segment) :
    IsName segment := by
  simp only [FileStorageKey.isValid, Bool.and_eq_true, decide_eq_true_eq] at hv
  exact ⟨hv.left.left.left.left, hv.left.left.left.right, hv.left.left.right, hs⟩

-- Local storage takes whatever the parser takes.
theorem foldlM_pushSegment
    (h : ∀ segment ∈ segments, FileStorageKey.isValid segment ∧ '/' ∉ segment) :
    segments.foldlM pushSegment root = .ok (segments.foldl push root) := by
  induction segments generalizing root
  case nil => rfl
  case cons segment segments ih =>
    obtain ⟨hv, hs⟩ := h segment List.mem_cons_self
    have hn := isName_of_isValid hv hs
    have hb : '\\' ∉ segment := by
      simp only [FileStorageKey.isValid, Bool.and_eq_true, Bool.not_eq_true'] at hv
      rw [← List.contains_iff_mem, hv.left.right]
      exact Bool.false_ne_true
    have hpush : pushSegment root segment = .ok (push root segment) :=
      if_neg (by simp [hn.ne_nil, hn.ne_current, hn.ne_parent, hb, hs])
    rw [List.foldlM_cons, hpush]
    exact ih fun segment hm => h segment (List.mem_cons_of_mem _ hm)

theorem pathForKey_eq_ok (h : FileStorageKey.parse s = .ok key) :
    pathForKey root key = .ok ((key.toList.splitOn '/').foldl push root) :=
  foldlM_pushSegment fun segment hm =>
    ⟨(parse_eq_ok.mp h).right.right.right segment hm, slash_not_mem_of_mem_splitOn hm⟩

theorem isName_of_parse (h : FileStorageKey.parse s = .ok key)
    (hm : segment ∈ key.toList.splitOn '/') : IsName segment :=
  isName_of_isValid ((parse_eq_ok.mp h).right.right.right segment hm) (slash_not_mem_of_mem_splitOn hm)

theorem parse_parse (h : FileStorageKey.parse s = .ok key) : FileStorageKey.parse key = .ok key := by
  obtain ⟨rfl, hk⟩ := parse_eq_ok.mp h
  exact parse_eq_ok.mpr ⟨Text.trim_idempotent.symm, hk⟩

variable (root) in
theorem components_pathForKey (h : FileStorageKey.parse s = .ok key) :
    ∃ path, pathForKey root key = .ok path ∧
      components path = components root ++ (key.toList.splitOn '/').map .normal :=
  ⟨_, pathForKey_eq_ok h, components_foldl_push fun _ hm => isName_of_parse h hm⟩

theorem splitOn_injective {k₁ k₂ : String} (h : k₁.toList.splitOn '/' = k₂.toList.splitOn '/') :
    k₁ = k₂ := by
  have he := congrArg (['/'].intercalate ·) h
  rw [List.intercalate_splitOn, List.intercalate_splitOn] at he
  exact String.toList_inj.mp he

end Keys

section Uploads

variable {name extension : String} {c : Char} {cs : List Char} {laboratoryId objectId : Uuid}
  {bytes : List UInt8}

-- The characters of the segments that are made for an upload.
def isKeyChar (c : Char) : Bool :=
  c.isAlphanum || c = '-' || c = '.'

theorem isKeyChar_iff : isKeyChar c ↔ (65 ≤ c.toNat ∧ c.toNat ≤ 90) ∨
    (97 ≤ c.toNat ∧ c.toNat ≤ 122) ∨ (48 ≤ c.toNat ∧ c.toNat ≤ 57) ∨ c.toNat = 45 ∨ c.toNat = 46 := by
  simp only [isKeyChar, Bool.or_eq_true, Text.isAlphanum_iff, decide_eq_true_eq, ← Char.toNat_inj,
    or_assoc]
  rfl

theorem isKeyChar_of_mem_digits (h : c ∈ Hex.digits) : isKeyChar c := by
  have ha : Hex.digits.all isKeyChar := by decide
  exact List.all_eq_true.mp ha c h

theorem not_isWhitespace (h : isKeyChar c) : ¬Text.isWhitespace c := by
  have hc := isKeyChar_iff.mp h
  simp only [Text.isWhitespace, Bool.or_eq_true, decide_eq_true_eq]
  omega

theorem not_isControl (h : isKeyChar c) : ¬isControl c := by
  have hc := isKeyChar_iff.mp h
  simp only [isControl, Bool.or_eq_true, Bool.and_eq_true, decide_eq_true_eq]
  omega

theorem utf8Size_keyChar (h : isKeyChar c) : c.utf8Size = 1 := by
  have hc := isKeyChar_iff.mp h
  refine Char.utf8Size_eq_one_iff.mpr (UInt32.le_iff_toNat_le.mpr ?_)
  change c.toNat ≤ 127
  omega

theorem isValid_of_keyChars (hl : 2 < cs.length) (hc : ∀ c ∈ cs, isKeyChar c) :
    FileStorageKey.isValid cs := by
  have hb : '\\' ∉ cs := fun h => absurd (hc _ h) (by decide)
  have hctrl : cs.any isControl = false := List.any_eq_false.mpr fun c h => not_isControl (hc c h)
  have hne {ds : List Char} (hd : ds.length ≤ 2) : cs ≠ ds := by
    rintro rfl
    omega
  have h₁ := hne (show ['.'].length ≤ 2 by decide)
  have h₂ := hne (show ['.', '.'].length ≤ 2 by decide)
  have h₀ : cs ≠ [] := hne (Nat.zero_le 2)
  simp [FileStorageKey.isValid, hctrl, h₀, h₁, h₂, hb]

theorem mem_hexDigest (h : c ∈ (hexDigest bytes).toList) : c ∈ Hex.digits := by
  simp only [hexDigest, String.toList_ofList, List.mem_flatMap, List.mem_cons, List.not_mem_nil,
    or_false] at h
  obtain ⟨b, -, rfl | rfl⟩ := h <;> exact Hex.digit_mem

theorem length_hexDigest : (hexDigest bytes).toList.length = 64 := by
  have hl : (Sha2.sha256 bytes).length = 32 := Sha2.length_sha256
  rw [hexDigest, String.toList_ofList, List.length_flatMap]
  simp [hl]

attribute [irreducible] hexDigest

theorem hexDigest_parses : FileSha256.parse (hexDigest bytes) = .ok (hexDigest bytes) := by
  have hk {c : Char} (h : c ∈ (hexDigest bytes).toList) : isKeyChar c :=
    isKeyChar_of_mem_digits (mem_hexDigest h)
  have ht : Text.trim (hexDigest bytes) = hexDigest bytes :=
    Text.trim_eq_self fun c h => not_isWhitespace (hk h)
  have hs : (hexDigest bytes).utf8ByteSize = 64 := by
    have hu := Text.utf8ByteSize_ofList fun c h => utf8Size_keyChar (hk h)
    rwa [String.ofList_toList, length_hexDigest] at hu
  have hdigits : Hex.digits.all fun c =>
      (c.isDigit || ('a' ≤ c && c ≤ 'f') || ('A' ≤ c && c ≤ 'F')) && c.toLower = c := by decide
  have hx {c : Char} (h : c ∈ (hexDigest bytes).toList) :=
    (Bool.and_eq_true _ _).mp <| List.all_eq_true.mp hdigits c (mem_hexDigest h)
  have hlower : (hexDigest bytes).toList.map Char.toLower = (hexDigest bytes).toList :=
    (List.map_congr_left fun c h => of_decide_eq_true (hx h).right).trans (List.map_id _)
  unfold FileSha256.parse
  dsimp only
  rw [ht, if_pos ⟨hs, List.all_eq_true.mpr fun c h => (hx h).left⟩, hlower, String.ofList_toList]

theorem fileExtension_chars (h : fileExtension name = some extension) :
    extension.toList.length ≤ 16 ∧ ∀ c ∈ extension.toList, isKeyChar c := by
  simp only [fileExtension, Option.bind_eq_bind, Option.bind_eq_some_iff] at h
  obtain ⟨suffix, -, h⟩ := h
  split at h
  case isTrue => exact nomatch h
  case isFalse hn =>
    obtain rfl := Option.some.inj h
    obtain ⟨-, hn⟩ := not_or.mp hn
    obtain ⟨hs, ha⟩ := not_or.mp hn
    rw [Bool.not_eq_true, Bool.not_eq_false'] at ha
    have hk : ∀ c ∈ (Text.trim (.ofList suffix)).toList.map Char.toLower, isKeyChar c := by
      intro c hc
      simp only [isKeyChar, List.all_eq_true.mp ha c hc, Bool.true_or]
    rw [Text.utf8ByteSize_ofList fun c hc => utf8Size_keyChar (hk c hc)] at hs
    rw [String.toList_ofList]
    exact ⟨Nat.not_lt.mp hs, hk⟩

theorem length_showHyphenated {id : Uuid} : (showHyphenated id).toList.length = 36 := by
  have hl : (Hex.toDigits 32 id.toNat).length = 32 := Hex.length_toDigits
  simp [showHyphenated, hyphenate, hl]

theorem showHyphenated_chars {id : Uuid} (h : c ∈ (showHyphenated id).toList) : isKeyChar c := by
  obtain h | rfl := mem_hyphenate (by simpa [showHyphenated] using h)
  case inl => exact isKeyChar_of_mem_digits (Hex.mem_toDigits h)
  case inr => rfl

-- The name of an object in the storage.
def objectName (originalFileName : String) (bytes : List UInt8) : String :=
  match fileExtension originalFileName with
  | some extension => s!"{hexDigest bytes}.{extension}"
  | none => hexDigest bytes

theorem toList_objectName : (objectName name bytes).toList = (hexDigest bytes).toList ++
    (fileExtension name).elim [] fun extension => '.' :: extension.toList := by
  unfold objectName
  cases fileExtension name
  case none => exact (List.append_nil _).symm
  case some extension =>
    simp [toString]

theorem objectName_chars (h : c ∈ (objectName name bytes).toList) : isKeyChar c := by
  rw [toList_objectName, List.mem_append] at h
  cases h
  case inl h => exact isKeyChar_of_mem_digits (mem_hexDigest h)
  case inr h =>
    cases he : fileExtension name
    case none => simp [he] at h
    case some extension =>
      simp only [he, Option.elim_some, List.mem_cons] at h
      obtain rfl | h := h
      case inl => rfl
      case inr => exact (fileExtension_chars he).right c h

theorem length_objectName :
    64 ≤ (objectName name bytes).toList.length ∧ (objectName name bytes).toList.length ≤ 81 := by
  have hd : (hexDigest bytes).toList.length = 64 := length_hexDigest
  rw [toList_objectName, List.length_append, hd]
  cases he : fileExtension name
  case none => exact ⟨le_rfl, by decide⟩
  case some extension =>
    have hl := (fileExtension_chars he).left
    rw [Option.elim_some, List.length_cons]
    omega

def keySegments (laboratoryId objectId : Uuid) (name : String) (bytes : List UInt8) : List Path :=
  ["labs".toList, (showHyphenated laboratoryId).toList, "objects".toList,
    (showHyphenated objectId).toList, (objectName name bytes).toList]

theorem keySegments_chars : ∀ segment ∈ keySegments laboratoryId objectId name bytes,
    2 < segment.length ∧ ∀ c ∈ segment, isKeyChar c := by
  have hid {id : Uuid} : 2 < (showHyphenated id).toList.length := by
    rw [length_showHyphenated]
    decide
  have hlabs : "labs".toList.all isKeyChar := by decide
  have hobjects : "objects".toList.all isKeyChar := by decide
  have hname : 64 ≤ (objectName name bytes).toList.length := length_objectName.left
  simp only [keySegments, List.forall_mem_cons]
  refine ⟨⟨by decide, List.all_eq_true.mp hlabs⟩, ⟨hid, fun _ => showHyphenated_chars⟩,
    ⟨by decide, List.all_eq_true.mp hobjects⟩, ⟨hid, fun _ => showHyphenated_chars⟩,
    ⟨lt_of_lt_of_le (by decide) hname, fun _ => objectName_chars⟩, nofun⟩

theorem uploadKey_eq : uploadKey laboratoryId objectId name bytes = FileStorageKey.parse
    (.ofList <| ['/'].intercalate <| keySegments laboratoryId objectId name bytes) := by
  have hk : String.ofList (['/'].intercalate <| keySegments laboratoryId objectId name bytes) =
      s!"labs/{showHyphenated laboratoryId}/objects/{showHyphenated objectId}/{objectName name bytes}" := by
    refine String.toList_inj.mp ?_
    simp [keySegments, List.intercalate, toString]
  rw [hk]
  unfold uploadKey
  rw [hexDigest_parses]
  simp only [objectName, bind, Except.bind]

theorem uploadKey_eq_ok : ∃ key, uploadKey laboratoryId objectId name bytes = .ok key ∧
    FileStorageKey.parse key = .ok key := by
  let segments := keySegments laboratoryId objectId name bytes
  let key := ['/'].intercalate segments
  have hsegments : ∀ segment ∈ segments, 2 < segment.length ∧ ∀ c ∈ segment, isKeyChar c :=
    keySegments_chars
  have hsplit : key.splitOn '/' = segments := by
    refine List.splitOn_intercalate '/' (fun segment hm hs => ?_) nofun
    exact absurd ((hsegments segment hm).right _ hs) (by decide)
  have hchars : ∀ c ∈ key, isKeyChar c ∨ c = '/' := by
    intro c hc
    by_cases hs : c = '/'
    case pos => exact Or.inr hs
    case neg =>
      obtain ⟨segment, hm, hcs⟩ := Text.mem_of_mem_intercalate hc hs
      exact Or.inl <| (hsegments segment hm).right c hcs
  have htrim : Text.trim (.ofList key) = .ofList key := by
    refine Text.trim_eq_self fun c hc => ?_
    obtain hk | rfl := hchars c (by rwa [String.toList_ofList] at hc)
    case inl => exact not_isWhitespace hk
    case inr => decide
  have hsize : (String.ofList key).utf8ByteSize ≤ 512 := by
    have hl : key.length ≤ 168 := by
      have hid (id : Uuid) : (showHyphenated id).toList.length = 36 := length_showHyphenated
      have hl := hid laboratoryId
      have ho := hid objectId
      have hname : (objectName name bytes).toList.length ≤ 81 := length_objectName.right
      simp only [key, segments, keySegments, List.intercalate, List.intersperse, List.flatten_cons,
        List.flatten_nil, List.length_append, List.length_cons, List.length_nil, hl, ho]
      have hlabs : "labs".toList.length = 4 := rfl
      have hobjects : "objects".toList.length = 7 := rfl
      omega
    rw [Text.utf8ByteSize_ofList fun c hc => (hchars c hc).elim utf8Size_keyChar (· ▸ rfl)]
    exact hl.trans (by decide)
  have hparse : FileStorageKey.parse (.ofList key) = .ok (.ofList key) := by
    refine parse_eq_ok.mpr ⟨htrim.symm, ?_, hsize, ?_⟩
    · intro he
      have hnil := congrArg String.toList he
      rw [String.toList_ofList] at hnil
      rw [hnil] at hsplit
      exact absurd (congrArg List.length hsplit) (by simp [segments, keySegments])
    · rw [String.toList_ofList, hsplit]
      exact fun segment hm => isValid_of_keyChars (hsegments segment hm).left (hsegments segment hm).right
  exact ⟨.ofList key, uploadKey_eq.trans hparse, hparse⟩

end Uploads

theorem storage_keys [UnicodeSegmentation] (root : Path) :
    (∀ s name laboratoryId objectId bytes, FileName.parse s = .ok name → ∃ key path,
      uploadKey laboratoryId objectId name bytes = .ok key ∧ FileStorageKey.parse key = .ok key ∧
      pathForKey root key = .ok path) ∧
    (∀ s key, FileStorageKey.parse s = .ok key → ∃ path names, pathForKey root key = .ok path ∧
      names ≠ [] ∧ (∀ name ∈ names, IsName name) ∧
      components path = components root ++ names.map .normal) ∧
    (∀ s₁ s₂ key₁ key₂ path₁ path₂, FileStorageKey.parse s₁ = .ok key₁ →
      FileStorageKey.parse s₂ = .ok key₂ → pathForKey root key₁ = .ok path₁ →
      pathForKey root key₂ = .ok path₂ → components path₁ = components path₂ → key₁ = key₂) := by
  refine ⟨fun s name laboratoryId objectId bytes _ => ?uploads, fun s key h => ?below,
    fun s₁ s₂ key₁ key₂ path₁ path₂ h₁ h₂ hp₁ hp₂ hc => ?apart⟩
  case uploads =>
    obtain ⟨key, hkey, hparse⟩ : ∃ key, uploadKey laboratoryId objectId name bytes = .ok key ∧
      FileStorageKey.parse key = .ok key := uploadKey_eq_ok
    exact ⟨key, _, hkey, hparse, pathForKey_eq_ok hparse⟩
  case below =>
    obtain ⟨path, hpath, hc⟩ := components_pathForKey root h
    exact ⟨path, _, hpath, List.splitOn_ne_nil _ _, fun _ hm => isName_of_parse h hm, hc⟩
  case apart =>
    obtain ⟨_, hpath₁, hc₁⟩ := components_pathForKey root h₁
    obtain ⟨_, hpath₂, hc₂⟩ := components_pathForKey root h₂
    obtain rfl := Except.ok.inj (hp₁.symm.trans hpath₁)
    obtain rfl := Except.ok.inj (hp₂.symm.trans hpath₂)
    rw [hc₁, hc₂] at hc
    have hinj : Function.Injective Component.normal := fun _ _ => Component.normal.inj
    exact splitOn_injective <| hinj.list_map <| List.append_cancel_left hc

theorem storage_keys_report :
    let _ := UnicodeSegmentation.characters
    (∃ key path, uploadKey 1 2 "report.PDF" [104, 105] = .ok key ∧
      FileStorageKey.parse key = .ok key ∧ pathForKey "/srv".toList key = .ok path) ∧
    (∃ path names, pathForKey "/srv".toList "labs/1" = .ok path ∧ names ≠ [] ∧
      (∀ name ∈ names, IsName name) ∧
      components path = components "/srv".toList ++ names.map .normal) ∧
    ∀ path₁ path₂, pathForKey "/srv".toList "labs/1" = .ok path₁ →
      pathForKey "/srv".toList "labs/2" = .ok path₂ → components path₁ ≠ components path₂ := by
  let _ := UnicodeSegmentation.characters
  have h₁ : FileStorageKey.parse " labs/1 " = .ok "labs/1" := by decide +kernel
  have h₂ : FileStorageKey.parse "labs/2" = .ok "labs/2" := by decide +kernel
  have hname : FileName.parse " report.PDF" = .ok "report.PDF" := by decide +kernel
  obtain ⟨huploads, hbelow, hapart⟩ := storage_keys "/srv".toList
  refine ⟨huploads _ _ 1 2 [104, 105] hname, hbelow _ _ h₁, fun path₁ path₂ hp₁ hp₂ hc => ?_⟩
  exact absurd (hapart _ _ _ _ _ _ h₁ h₂ hp₁ hp₂ hc) (by decide)

end FileStorage

end LabInventory
