import LabInventory.Federation.Verification

open Sql Program

namespace LabInventory

namespace Federation

-- Texts which can be told apart again once they are joined by line breaks.
def SingleLine (s : String) : Prop :=
  '\n' ∉ s.toList

section SingleLine

variable {s : String} {fields fields₁ fields₂ : List String}

theorem canonical_injective (hn₁ : fields₁ ≠ []) (hn₂ : fields₂ ≠ [])
    (h₁ : ∀ s ∈ fields₁, SingleLine s) (h₂ : ∀ s ∈ fields₂, SingleLine s)
    (h : canonical fields₁ = canonical fields₂) : fields₁ = fields₂ := by
  have hs {fields : List String} (hn : fields ≠ []) (hf : ∀ s ∈ fields, SingleLine s) :
      (canonical fields).toList.splitOn '\n' = fields.map (·.toList) := by
    have hl : "\n".toList = ['\n'] := rfl
    rw [canonical, String.toList_intercalate, hl]
    exact List.splitOn_intercalate _ (by simpa [SingleLine] using hf) (by simpa using hn)
  have he : fields₁.map (·.toList) = fields₂.map (·.toList) := by
    rw [← hs hn₁ h₁, ← hs hn₂ h₂, h]
  exact List.map_injective_iff.mpr (fun _ _ => String.toList_inj.mp) he

theorem singleLine_natRepr {n : Nat} : SingleLine n.repr := by
  intro h
  have hd := Nat.isDigit_of_mem_toDigits (b := 10) (by decide) (by decide) (by simpa using h)
  exact absurd hd (by decide)

theorem singleLine_intRepr {n : Int} : SingleLine n.repr := by
  cases n
  case ofNat n => exact singleLine_natRepr
  case negSucc n =>
    have h := singleLine_natRepr (n := n + 1)
    simpa [SingleLine, Int.repr] using h

theorem hexByte_injective {a b : UInt8} (h : hexByte a = hexByte b) : a = b := by
  simp only [hexByte, List.cons.injEq, and_true] at h
  have ha := a.toNat_lt
  have hb := b.toNat_lt
  have hd := Hex.digit_injective (by omega) (by omega) h.left
  have hm := Hex.digit_injective (by omega) (by omega) h.right
  exact UInt8.toNat_inj.mp (by omega)

theorem flatMap_hexByte_injective {bs₁ bs₂ : List UInt8}
    (h : bs₁.flatMap hexByte = bs₂.flatMap hexByte) : bs₁ = bs₂ := by
  induction bs₁ generalizing bs₂
  case nil => cases bs₂ <;> simp_all [hexByte]
  case cons b₁ bs₁ ih =>
    cases bs₂
    case nil => simp [hexByte] at h
    case cons b₂ bs₂ =>
      have h : hexByte b₁ ++ bs₁.flatMap hexByte = hexByte b₂ ++ bs₂.flatMap hexByte := h
      have ⟨hb, hbs⟩ := List.append_inj h rfl
      rw [hexByte_injective hb, ih hbs]

section Sha256

variable [Cryptography] {bytes bytes₁ bytes₂ : List UInt8}

theorem sha256Hex_eq (h : sha256Hex bytes₁ = sha256Hex bytes₂) :
    Cryptography.sha256 bytes₁ = Cryptography.sha256 bytes₂ :=
  flatMap_hexByte_injective <| String.ofList_injective h

theorem singleLine_sha256Hex : SingleLine (sha256Hex bytes) := by
  intro h
  simp only [sha256Hex, String.toList_ofList, List.mem_flatMap] at h
  have ⟨b, _, hc⟩ := h
  have hm : '\n' ∈ Hex.digits := by
    simp only [hexByte, List.mem_cons, List.not_mem_nil, or_false] at hc
    rcases hc with hc | hc <;> exact hc ▸ Hex.digit_mem
  exact absurd hm (by decide)

end Sha256

theorem singleLine_showUuid [UuidFormat] {u : Uuid} : SingleLine (UuidFormat.showUuid u) :=
  fun h => absurd (UuidFormat.showUuid_chars _ h) (by decide)

theorem singleLine_toStr {value : List UInt8} (h : Header.toStr value = some s) : SingleLine s := by
  unfold Header.toStr at h
  split at h
  case isFalse => simp at h
  case isTrue hv =>
    obtain rfl := Option.some.inj h
    simp only [SingleLine, String.toList_ofList, List.mem_map, not_exists, not_and]
    intro b hb hn
    have hb := List.all_eq_true.mp hv b hb
    have hc : ∀ n < 127, n ≠ 10 → Char.ofNat n ≠ '\n' := by decide
    simp only [Header.isVisibleAscii, Bool.or_eq_true, Bool.and_eq_true, decide_eq_true_eq,
      UInt8.le_iff_toNat_le, UInt8.lt_iff_toNat_lt, ← UInt8.toNat_inj] at hb
    exact hc b.toNat (by simp at hb; omega) (by simp at hb; omega) hn

theorem singleLine_requiredHeader {headers name} (h : requiredHeader headers name = .ok s) : SingleLine s := by
  have ⟨_, _, hs⟩ := requiredHeader_eq_ok.mp h
  exact singleLine_toStr hs

theorem FederationHeaders.Parsed.remoteUserType_singleLine {headers} {p : FederationHeaders}
    (h : p.Parsed headers) :
    SingleLine p.remoteUserType := by
  rcases h.remoteUserType with h | h <;> rw [h] <;> unfold SingleLine <;> decide

end SingleLine

section Fixed

variable [UuidFormat] [Cryptography] {request request₁ request₂ : InboundRequest}
variable {h h₁ h₂ : FederationHeaders}

theorem singleLine_signedFields (hp : h.Parsed request.headers) :
    ∀ s ∈ signedFields request h, SingleLine s := by
  have hm : SingleLine (toUppercase request.method.asStr) := by
    unfold SingleLine
    cases request.method <;> decide
  have hv : SingleLine request.pathAndQuery.asStr :=
    fun hn => absurd (request.pathAndQuery.visible _ hn) (by decide)
  have hl : SingleLine "v1" := by unfold SingleLine; decide
  simp only [signedFields, canonicalFields, List.forall_mem_cons, List.not_mem_nil, false_implies,
    implies_true, and_true]
  exact ⟨hl, hm, hv, singleLine_sha256Hex, singleLine_showUuid, singleLine_showUuid,
    singleLine_showUuid, hp.remoteUserType_singleLine, singleLine_intRepr,
    singleLine_requiredHeader hp.nonce, singleLine_intRepr⟩

-- The fields that are signed are the same.
structure SameSigned (request₁ request₂ : InboundRequest) (h₁ h₂ : FederationHeaders) : Prop where
  method : request₁.method = request₂.method
  pathAndQuery : request₁.pathAndQuery.asStr = request₂.pathAndQuery.asStr
  bodyHash : sha256Hex request₁.body = sha256Hex request₂.body
  remoteNodeId : h₁.remoteNodeId = h₂.remoteNodeId
  remoteLaboratoryId : h₁.remoteLaboratoryId = h₂.remoteLaboratoryId
  remoteUserId : h₁.remoteUserId = h₂.remoteUserId
  remoteUserType : h₁.remoteUserType = h₂.remoteUserType
  timestamp : h₁.timestamp = h₂.timestamp
  nonce : h₁.nonce = h₂.nonce
  keyVersion : h₁.keyVersion = h₂.keyVersion

theorem sameSigned_of_signedFields_eq (h : signedFields request₁ h₁ = signedFields request₂ h₂) :
    SameSigned request₁ request₂ h₁ h₂ := by
  simp only [signedFields, canonicalFields, List.cons.injEq, and_true] at h
  obtain ⟨_, hm, hv, hb, hn, hl, hu, ht, hs, hc, hk⟩ := h
  refine ⟨?_, hv, hb, UuidFormat.showUuid_injective hn, UuidFormat.showUuid_injective hl, UuidFormat.showUuid_injective hu, ht,
    Int.repr_injective hs, hc, Int.repr_injective hk⟩
  have hi : ∀ m₁ m₂ : Method, toUppercase m₁.asStr = toUppercase m₂.asStr → m₁ = m₂ := by
    intro m₁ m₂ h
    cases m₁ <;> cases m₂ <;> first | rfl | exact absurd h (by decide)
  exact hi _ _ hm

-- The string that is signed determines all of the fields it is made of.
theorem sameSigned_of_canonical_eq (hp₁ : h₁.Parsed request₁.headers)
    (hp₂ : h₂.Parsed request₂.headers)
    (h : canonical (signedFields request₁ h₁) = canonical (signedFields request₂ h₂)) :
    SameSigned request₁ request₂ h₁ h₂ :=
  sameSigned_of_signedFields_eq <| canonical_injective (List.cons_ne_nil _ _) (List.cons_ne_nil _ _)
    (singleLine_signedFields hp₁) (singleLine_signedFields hp₂) h

-- The user name that a request claims.
def usernameHeader (request : InboundRequest) : Except ApiError String :=
  Text.trim <$> requiredHeader request.headers Header.remoteUsername

-- What an accepted request is taken for.
structure SameContext (request₁ request₂ : InboundRequest) (c₁ c₂ : InboundFederationContext) :
    Prop where
  method : request₁.method = request₂.method
  pathAndQuery : request₁.pathAndQuery.asStr = request₂.pathAndQuery.asStr
  body : request₁.body = request₂.body
  remoteLaboratoryId : c₁.remoteLaboratoryId = c₂.remoteLaboratoryId
  remoteUserId : c₁.remoteUserId = c₂.remoteUserId
  remoteUsername : c₁.remoteUsername = c₂.remoteUsername
  remoteUserType : c₁.remoteUserType = c₂.remoteUserType

variable [ScanOrder] {settings₁ settings₂ : FederationSettings} {d₁ d₂ d₁' d₂' : Database}
variable {c₁ c₂ : InboundFederationContext} {targetLaboratoryId₁ targetLaboratoryId₂ : Uuid}

-- Apart from the user name, a signature fixes what an accepted request is taken for.
theorem signature_fixes_context
    (hv₁ : (verifyInboundRequest settings₁ request₁ targetLaboratoryId₁).run d₁ = .ok (c₁, d₁'))
    (hv₂ : (verifyInboundRequest settings₂ request₂ targetLaboratoryId₂).run d₂ = .ok (c₂, d₂'))
    (hp₁ : parseFederationHeaders request₁.headers = .ok h₁)
    (hp₂ : parseFederationHeaders request₂.headers = .ok h₂)
    (hs : h₁.signature = h₂.signature)
    (unforgeable :
      Cryptography.hmacSha256 c₁.remoteNode.sharedSecret (canonical (signedFields request₁ h₁)) =
        Cryptography.hmacSha256 c₂.remoteNode.sharedSecret (canonical (signedFields request₂ h₂)) →
      canonical (signedFields request₁ h₁) = canonical (signedFields request₂ h₂))
    (collisionFree : Cryptography.sha256 request₁.body = Cryptography.sha256 request₂.body →
      request₁.body = request₂.body) :
    (SameContext request₁ request₂ c₁ c₂ ↔ usernameHeader request₁ = usernameHeader request₂) ∧
    (canonical (signedFields request₁ h₁) = canonical (signedFields request₂ h₂) →
      SameSigned request₁ request₂ h₁ h₂) := by
  have hP₁ := parsed_of_parseFederationHeaders hp₁
  have hP₂ := parsed_of_parseFederationHeaders hp₂
  refine ⟨?_, sameSigned_of_canonical_eq hP₁ hP₂⟩
  have ⟨g₁, hg₁, _, ha₁⟩ := authentic_of_verifyInboundRequest hv₁
  have ⟨g₂, hg₂, _, ha₂⟩ := authentic_of_verifyInboundRequest hv₂
  obtain rfl : h₁ = g₁ := Except.ok.inj (hp₁.symm.trans hg₁)
  obtain rfl : h₂ = g₂ := Except.ok.inj (hp₂.symm.trans hg₂)
  have hm := checkSignature_eq_ok ha₁.signature
  rw [hs, checkSignature_eq_ok ha₂.signature] at hm
  have hf := sameSigned_of_canonical_eq hP₁ hP₂ <| unforgeable (Option.some.inj hm).symm
  have hu {request h} (hP : FederationHeaders.Parsed request.headers h) :
      usernameHeader request = .ok h.remoteUsername := by
    have ⟨_, hr, ht⟩ := hP.remoteUsername
    rw [usernameHeader, hr, ← ht]
    rfl
  rw [hu hP₁, hu hP₂, Except.ok.injEq]
  have he₁ := ha₁.context
  have he₂ := ha₂.context
  constructor
  case mp =>
    intro h
    have hn := h.remoteUsername
    rwa [he₁, he₂] at hn
  case mpr =>
    intro h
    rw [he₁, he₂]
    exact {
      method := hf.method
      pathAndQuery := hf.pathAndQuery
      body := collisionFree <| sha256Hex_eq hf.bodyHash
      remoteLaboratoryId := hf.remoteLaboratoryId
      remoteUserId := hf.remoteUserId
      remoteUsername := h
      remoteUserType := hf.remoteUserType
    }

end Fixed

section Examples

def partnerNode : RemoteNodeRow where
  remoteNodeId := 7
  baseUrl := "https://partner.example"
  displayName := none
  sharedSecret := "secret"
  sharedSecretHash := "hash"
  tlsCertificateSha256 := none
  status := .active
  keyVersion := 1
  lastHandshakeAt := none

-- Laboratory 1 trusts laboratory 2 of the partner.
def paired : Database where
  __ := Database.empty
  laboratories := {{ laboratoryId := 1, name := "Office" }}
  localNodeId := some 9
  remoteNodes := {partnerNode}
  laboratoryTrusts := {{
    trustId := 3
    localLaboratoryId := 1
    remoteNodeId := 7
    remoteLaboratoryId := 2
    remoteLaboratoryName := none
    status := .active
    revokedAt := none
  }}
  now := 1000 * 1000000

def defaultSettings : FederationSettings where
  enabled := true
  publicBaseUrl := "https://office.example"
  requireHttps := true
  allowInsecurePrivateNetwork := false
  requestTtlSeconds := 300
  allowedRemoteHosts := []

-- A user of laboratory 2, by the name given in the request.
def visitor (username : String) : OutboundFederationIdentity where
  localNodeId := 7
  localLaboratoryId := 2
  userId := 5
  username := username
  userType := "user"

def assetsPath : PathAndQuery where
  asStr := "/assets"
  visible c hc := by
    have h : "/assets".toList.all (' ' < ·) := by decide
    exact of_decide_eq_true (List.all_eq_true.mp h c hc)

def browse [UuidFormat] [Cryptography] (username : String) : InboundRequest :=
  signedRequest .get assetsPath [] partnerNode (visitor username) 1000 "nonce"

def browseContext (username : String) : InboundFederationContext where
  remoteNode := partnerNode
  remoteLaboratoryId := 2
  remoteUserId := 5
  remoteUsername := Text.trim username
  remoteUserType := "user"

section Browse

variable [UuidFormat] [Cryptography]

theorem run_browse [ScanOrder] (username : String) (hv : Visible username)
    (hn : Text.trim username ≠ "") :
    ∃ d, (verifyInboundRequest defaultSettings (browse username) 1).run paired =
      .ok (browseContext username, d) := by
  have ⟨d, hr, _⟩ : ∃ d, (verifyInboundRequest defaultSettings (browse username) 1).run paired =
      .ok (browseContext username, d) ∧ Remembered paired d 7 "nonce" 300 :=
    run_signedRequest rfl ⟨hv, hn, .inr rfl⟩ (visible_of_all (by decide)) (by decide) (by decide)
      (by decide) rfl rfl rfl rfl rfl ⟨rfl, by decide, fun _ hr => absurd hr Table.not_mem_empty⟩
  exact ⟨d, hr⟩

theorem parse_browse (username : String) (hv : Visible username) (hn : Text.trim username ≠ "") :
    parseFederationHeaders (browse username).headers = .ok
      (.ofSigned .get assetsPath [] partnerNode (visitor username) 1000 "nonce") :=
  parseFederationHeaders_signedHeaders ⟨hv, hn, .inr rfl⟩ (visible_of_all (by decide)) (by decide)
    (by decide)

end Browse

theorem signature_fixes_context_browse :
    let _ := hyphenated
    let _ := Cryptography.standard
    (SameContext (browse "alice") (browse "mallory") (browseContext "alice")
        (browseContext "mallory") ↔
      usernameHeader (browse "alice") = usernameHeader (browse "mallory")) := by
  let _ := hyphenated
  let _ := Cryptography.standard
  let _ := ScanOrder.stored
  have hv : Visible "alice" ∧ Visible "mallory" :=
    ⟨visible_of_all (by decide), visible_of_all (by decide)⟩
  have hn : Text.trim "alice" ≠ "" ∧ Text.trim "mallory" ≠ "" := by decide
  obtain ⟨_, h₁⟩ := run_browse "alice" hv.left hn.left
  obtain ⟨_, h₂⟩ := run_browse "mallory" hv.right hn.right
  have hp₁ := parse_browse "alice" hv.left hn.left
  have hp₂ := parse_browse "mallory" hv.right hn.right
  exact (signature_fixes_context h₁ h₂ hp₁ hp₂ rfl (fun _ => rfl) fun _ => rfl).left

-- A request of one user is accepted in the name of another one, once the user name is replaced.
theorem username_not_signed :
    let _ := hyphenated
    let _ := Cryptography.standard
    let _ := ScanOrder.stored
    ∃ request₁ request₂ : InboundRequest, ∃ c₁ c₂ d₁ d₂,
      (verifyInboundRequest defaultSettings request₁ 1).run paired = .ok (c₁, d₁) ∧
      (verifyInboundRequest defaultSettings request₂ 1).run paired = .ok (c₂, d₂) ∧
      (∀ name ∈ [Header.nodeId, Header.nonce, Header.signature],
        request₁.headers name = request₂.headers name) ∧
      c₁.remoteUsername = "alice" ∧ c₂.remoteUsername = "mallory" := by
  let _ := hyphenated
  let _ := Cryptography.standard
  let _ := ScanOrder.stored
  obtain ⟨d₁, h₁⟩ := run_browse "alice" (visible_of_all (by decide)) (by decide)
  obtain ⟨d₂, h₂⟩ := run_browse "mallory" (visible_of_all (by decide)) (by decide)
  refine ⟨browse "alice", browse "mallory", _, _, d₁, d₂, h₁, h₂, ?_, by decide, by decide⟩
  simp only [List.forall_mem_cons, List.not_mem_nil, false_implies, implies_true, and_true]
  exact ⟨rfl, rfl, rfl⟩

end Examples

end Federation

end LabInventory
