import Mathlib.Algebra.Order.Group.Abs
import LabInventory.Domain.User
import LabInventory.Federation.Pairing.Direction
import LabInventory.Federation.Signature
import LabInventory.Users.Theorems

open Sql Program

namespace LabInventory

namespace Federation

def generateToken (bytes : List UInt8) : String :=
  .ofList <| Base64.encodeUrlSafe bytes

-- The bytes that `HeaderValue::try_from` admits. There are more of them than `to_str` reads.
def Header.isValue (b : UInt8) : Bool :=
  (32 ≤ b && b ≠ 127) || b = 9

def InboundRequest.Sendable (request : InboundRequest) : Prop :=
  ∀ name value, request.headers name = some value → value.all Header.isValue

-- The seconds between the first and the last `DateTime<Utc>`.
def IsTimestamp (n : Int) : Prop :=
  -8334601228800 ≤ n ∧ n ≤ 8210266876799

-- Names that come out of a header as they have been put in.
structure FitsHeader (s : String) : Prop where
  visible : Visible s
  trimmed : Text.trim s = s

theorem visible_generateToken {bytes : List UInt8} : Visible (generateToken bytes) := by
  intro c hc
  have ha : Base64.alphabet.all fun a => 32 ≤ (Base64.urlSafe a).toNat ∧
      (Base64.urlSafe a).toNat < 127 := by decide +kernel
  obtain ⟨a, hm, rfl⟩ := Base64.mem_encodeUrlSafe (by simpa [generateToken] using hc)
  exact .inl <| of_decide_eq_true <| List.all_eq_true.mp ha a hm

theorem generateToken_ne_empty {bytes : List UInt8} (h : bytes ≠ []) : generateToken bytes ≠ "" := by
  intro he
  exact Base64.encodeUrlSafe_ne_nil h <| String.ofList_injective he

theorem isFresh_of_timely {ttlSeconds now timestamp : Int} (hn : IsTimestamp now)
    (ht : IsTimestamp timestamp) (h : |now - timestamp| ≤ ttlSeconds) :
    isFresh ttlSeconds now timestamp := by
  obtain ⟨hn₁, hn₂⟩ := hn
  obtain ⟨ht₁, ht₂⟩ := ht
  have hwrap {n : Int} (hl : -16544868105599 ≤ n) (hu : n ≤ 16544868105599) : wrap64 n = n :=
    Int.bmod_eq_of_le_mul_two (by norm_num; omega) (by norm_num; omega)
  have habs : |now - timestamp| ≤ 16544868105599 := abs_le.mpr ⟨by omega, by omega⟩
  have hpos := abs_nonneg (now - timestamp)
  have hdiff : wrap64 (now - timestamp) = now - timestamp := hwrap (by omega) (by omega)
  rw [isFresh, hdiff, hwrap (by omega) habs]
  exact decide_eq_true h

section Headers

variable {s t : String}

-- Bytes that are not ASCII are read by nobody.
theorem visible_of_toStr (h : Header.toStr (asBytes s) = some t) : Visible s := by
  unfold Header.toStr at h
  split at h
  case isFalse => exact nomatch h
  case isTrue hv =>
    intro c hc
    have hb (b : UInt8) (hb : b ∈ String.utf8EncodeChar c) :
        (32 ≤ b.toNat ∧ b.toNat < 127) ∨ b.toNat = 9 := by
      have hm : b ∈ asBytes s := List.mem_flatMap.mpr ⟨c, hc, hb⟩
      simpa [Header.isVisibleAscii, UInt8.le_iff_toNat_le, UInt8.lt_iff_toNat_lt,
        ← UInt8.toNat_inj] using List.all_eq_true.mp hv b hm
    have hn : c.val.toNat = c.toNat := rfl
    -- The last byte of a longer encoding is a continuation byte.
    have hlast (bs : List UInt8) (he : String.utf8EncodeChar c =
        bs ++ [.ofNat (c.toNat % 64 + 128)]) : False := by
      have hr := hb (.ofNat (c.toNat % 64 + 128)) (by simp [he])
      rw [UInt8.toNat_ofNat'] at hr
      omega
    by_cases h₁ : c.toNat ≤ 0x7f
    case pos =>
      have hr := hb (.ofNat c.toNat) (by simp [String.utf8EncodeChar, hn, h₁])
      rwa [UInt8.toNat_ofNat', Nat.mod_eq_of_lt (by omega)] at hr
    by_cases h₂ : c.toNat ≤ 0x7ff
    case pos =>
      exact (hlast [_] (by simp only [String.utf8EncodeChar, hn, h₁, h₂]; rfl)).elim
    by_cases h₃ : c.toNat ≤ 0xffff
    case pos =>
      exact (hlast [_, _] (by simp only [String.utf8EncodeChar, hn, h₁, h₂, h₃]; rfl)).elim
    case neg =>
      exact (hlast [_, _, _] (by simp only [String.utf8EncodeChar, hn, h₁, h₂, h₃]; rfl)).elim

theorem isValue_of_isVisibleAscii {b : UInt8} (h : Header.isVisibleAscii b) : Header.isValue b := by
  simp only [Header.isVisibleAscii, Header.isValue, Bool.or_eq_true, Bool.and_eq_true,
    decide_eq_true_eq, UInt8.le_iff_toNat_le, UInt8.lt_iff_toNat_lt, ← UInt8.toNat_inj, ne_eq] at h ⊢
  rcases h with ⟨hl, hu⟩ | h
  case inl => exact .inl ⟨hl, fun he => by simp [he] at hu⟩
  case inr => exact .inr h

theorem isValue_of_visible (h : Visible s) : (asBytes s).all Header.isValue := by
  have ht := toStr_asBytes h
  unfold Header.toStr at ht
  split at ht
  case isFalse => exact nomatch ht
  case isTrue hv =>
    exact List.all_eq_true.mpr fun b hb => isValue_of_isVisibleAscii <| List.all_eq_true.mp hv b hb

end Headers

section Delivery

variable [UuidFormat] [Cryptography] {settings settings' : FederationSettings}
  {d d' d'' : Database} {user : UserRow} {laboratoryId localNodeId : Uuid} {path : ProxyPath}
  {method : Method} {pathAndQuery : PathAndQuery} {body bytes : List UInt8} {now : Int}
  {node node' : RemoteNodeRow} {identity : OutboundFederationIdentity} {nonce : String}
  {context : InboundFederationContext} {targetLaboratoryId : Uuid}

-- The request is received within its lifetime. The bytes are random, and have not been seen before.
structure Arrives (settings : FederationSettings) (d : Database) (localNodeId : Uuid) (now : Int)
    (bytes : List UInt8) : Prop where
  length : bytes.length = 24
  sent : IsTimestamp now
  received : IsTimestamp (epochSeconds d.now)
  timely : |epochSeconds d.now - now| ≤ settings.requestTtlSeconds
  unused : ∀ r ∈ d.requestNonces, d.now < r.expiresAt →
    (r.remoteNodeId, r.nonce) ≠ (localNodeId, generateToken bytes)

-- The request of the user is sent, and the partner learns who has made it.
def Delivered [ScanOrder] (settings settings' : FederationSettings) (d d' : Database)
    (user : UserRow) (laboratoryId : Uuid) (path : ProxyPath) (method : Method)
    (pathAndQuery : PathAndQuery) (body : List UInt8) (now : Int) (bytes : List UInt8) : Prop :=
  ∃ request, (proxy settings ⟨user.userId, user.userType, user.laboratoryId⟩ path method
      pathAndQuery body now (generateToken bytes)).run d = .ok (request, d) ∧
    request.Sendable ∧
    ∃ context d'', (verifyInboundRequest settings' request path.remoteLaboratoryId).run d' =
        .ok (context, d'') ∧
      context.remoteLaboratoryId = laboratoryId ∧ context.remoteUserId = user.userId ∧
      context.remoteUsername = user.username ∧ context.remoteUserType = user.userType.toStr

theorem sendable_signedRequest (hi : identity.Presentable) (hn : Visible nonce) :
    (signedRequest method pathAndQuery body node identity now nonce).Sendable := by
  intro name value h
  obtain ⟨s, hs, rfl⟩ := Option.map_eq_some_iff.mp h
  refine isValue_of_visible ?_
  have ht : Visible identity.userType := by
    rcases hi.userType with h | h <;> exact h ▸ visible_of_all (by decide)
  have hall : ∀ header ∈ signedHeaders method pathAndQuery body node identity now nonce,
      Visible header.2 := by
    simp only [signedHeaders, List.forall_mem_cons, List.not_mem_nil, false_implies, implies_true,
      and_true]
    exact ⟨visible_showUuid, visible_intRepr, visible_intRepr, hn, visible_signCanonical,
      visible_showUuid, visible_showUuid, hi.username, ht⟩
  obtain ⟨l₁, l₂, he, _⟩ := List.lookup_eq_some_iff.mp hs
  exact hall (name, s) <| he ▸ List.mem_append_right _ List.mem_cons_self

-- The name is read before anything else is known about the request.
theorem fitsHeader_of_verify [ScanOrder] (h : (verifyInboundRequest settings
    (signedRequest method pathAndQuery body node identity now nonce) targetLaboratoryId).run d =
      .ok (context, d')) (hc : context.remoteUsername = identity.username) :
    FitsHeader identity.username := by
  obtain ⟨p, hp, _, ha⟩ := authentic_of_verifyInboundRequest h
  obtain ⟨s, hs, ht⟩ := (parsed_of_parseFederationHeaders hp).remoteUsername
  obtain ⟨value, hv, hs⟩ := requiredHeader_eq_ok.mp hs
  obtain rfl : asBytes identity.username = value := Option.some.inj hv
  have hvis := visible_of_toStr hs
  obtain rfl : identity.username = s := Option.some.inj <| (toStr_asBytes hvis).symm.trans hs
  have hn : context.remoteUsername = p.remoteUsername :=
    congrArg InboundFederationContext.remoteUsername ha.context
  exact ⟨hvis, ht.trans <| hn.symm.trans hc⟩

omit [UuidFormat] [Cryptography] in
theorem presentable_outbound (hu : Proxied d user laboratoryId) (hv : Visible user.username)
    (hn : Text.trim user.username ≠ "") :
    (UserRow.outbound user localNodeId laboratoryId).Presentable := by
  refine ⟨hv, hn, ?_⟩
  rcases hu.userType with h | h <;> simp [UserRow.outbound, h, UserType.toStr]

section Named

variable [ScanOrder]

omit [ScanOrder] in
theorem run_proxy_opened (he : settings.enabled) (hu : Proxied d user laboratoryId)
    (ho : Opened d d' laboratoryId localNodeId path node node') :
    (proxy settings ⟨user.userId, user.userType, user.laboratoryId⟩ path method pathAndQuery body
      now nonce).run d = .ok (signedRequest method pathAndQuery body node
        (UserRow.outbound user localNodeId laboratoryId) now nonce, d) :=
  run_proxy he hu ho.sent ho.sender ho.active.left ho.identity

theorem fitsHeader_of_delivered (he : settings.enabled) (hu : Proxied d user laboratoryId)
    (ho : Opened d d' laboratoryId localNodeId path node node')
    (h : Delivered settings settings' d d' user laboratoryId path method pathAndQuery body now
      bytes) : FitsHeader user.username := by
  obtain ⟨request, hr, _, context, d'', hv, _, _, hn, _⟩ := h
  obtain rfl := congrArg Prod.fst <| Except.ok.inj <| (run_proxy_opened he hu ho).symm.trans hr
  exact fitsHeader_of_verify hv hn

theorem delivered_of_fitsHeader (he : settings.enabled) (he' : settings'.enabled)
    (hu : Proxied d user laboratoryId) (hn : Text.trim user.username ≠ "")
    (ho : Opened d d' laboratoryId localNodeId path node node')
    (ha : Arrives settings' d' localNodeId now bytes) (hf : FitsHeader user.username) :
    Delivered settings settings' d d' user laboratoryId path method pathAndQuery body now bytes := by
  have hi : (UserRow.outbound user localNodeId laboratoryId).Presentable :=
    presentable_outbound hu hf.visible hn
  have hne : bytes ≠ [] := by
    rintro rfl
    exact nomatch ha.length
  have hunused : Unused d' localNodeId (generateToken bytes) :=
    ⟨by rw [ho.receiver]; rfl, generateToken_ne_empty hne, ha.unused⟩
  have hrange : -2 ^ 63 ≤ now ∧ now < 2 ^ 63 := by
    obtain ⟨hl, hu⟩ := ha.sent
    exact ⟨by norm_num; omega, by norm_num; omega⟩
  obtain ⟨d'', hv, _⟩ : ∃ d'', (verifyInboundRequest settings' (signedRequest method pathAndQuery
      body node (UserRow.outbound user localNodeId laboratoryId) now (generateToken bytes))
        path.remoteLaboratoryId).run d' = .ok (_, d'') ∧ _ :=
    run_signedRequest he' hi visible_generateToken ho.range hrange
      (isFresh_of_timely ha.received ha.sent ha.timely) ho.receiver ho.active.right
      ho.keyVersion ho.sharedSecret ho.received hunused
  exact ⟨_, run_proxy_opened he hu ho, sendable_signedRequest hi visible_generateToken, _, d'', hv,
    rfl, rfl, hf.trimmed, rfl⟩

theorem delivered_iff_fitsHeader [UnicodeSegmentation] (he : settings.enabled)
    (he' : settings'.enabled) (hu : Proxied d user laboratoryId)
    (hp : UserName.parse user.username = .ok user.username)
    (ho : Opened d d' laboratoryId localNodeId path node node')
    (ha : Arrives settings' d' localNodeId now bytes) :
    Delivered settings settings' d d' user laboratoryId path method pathAndQuery body now bytes ↔
      FitsHeader user.username := by
  have hn : Text.trim user.username ≠ "" := by
    intro ht
    simp [UserName.parse, ht] at hp
  constructor
  case mp => exact fitsHeader_of_delivered he hu ho
  case mpr => exact delivered_of_fitsHeader he he' hu hn ho ha

end Named

end Delivery

section Examples

def partnerUser (username : String) : UserRow :=
  Users.officeUser 5 username .user (some 2)

-- Laboratory 2 of the partner trusts laboratory 1.
def partnerOf (user : UserRow) : Database where
  __ := Database.empty
  laboratories := {{ laboratoryId := 2, name := "Partner" }}
  users := {user}
  localNodeId := some 7
  remoteNodes := {officeNode}
  laboratoryTrusts := {{
    trustId := 4
    localLaboratoryId := 2
    remoteNodeId := 9
    remoteLaboratoryId := 1
    remoteLaboratoryName := none
    status := .active
    revokedAt := none
  }}

theorem proxied_partnerUser {username : String} :
    Proxied (partnerOf (partnerUser username)) (partnerUser username) 2 :=
  ⟨rfl, .inr rfl, rfl⟩

theorem opened_paired {user : UserRow} :
    Opened (partnerOf user) paired 2 7 ⟨9, 1⟩ officeNode partnerNode where
  identity := rfl
  sender := rfl
  receiver := rfl
  active := ⟨rfl, rfl⟩
  sharedSecret := rfl
  keyVersion := rfl
  range := by decide
  sent := rfl
  received := rfl

theorem arrives_paired : Arrives defaultSettings paired 7 1000 (List.replicate 24 0) where
  length := rfl
  sent := by unfold IsTimestamp; decide
  received := by unfold IsTimestamp; decide
  timely := by decide
  unused r hr := absurd hr Table.not_mem_empty

theorem delivered_iff_fitsHeader_bob :
    let _ := hyphenated
    let _ := Cryptography.standard
    let _ := ScanOrder.stored
    Delivered defaultSettings defaultSettings (partnerOf (partnerUser "bob")) paired
      (partnerUser "bob") 2 ⟨9, 1⟩ .get assetsPath [] 1000 (List.replicate 24 0) := by
  let _ := hyphenated
  let _ := Cryptography.standard
  let _ := ScanOrder.stored
  let _ := UnicodeSegmentation.characters
  exact (delivered_iff_fitsHeader rfl rfl proxied_partnerUser (by decide +kernel) opened_paired
    arrives_paired).mpr ⟨visible_of_all (by decide), by decide⟩

-- The name can be sent, but it cannot be read.
theorem not_delivered_zoe :
    let _ := hyphenated
    let _ := Cryptography.standard
    let _ := ScanOrder.stored
    let _ := UnicodeSegmentation.characters
    Proxied (partnerOf (partnerUser "Zoë")) (partnerUser "Zoë") 2 ∧
    UserName.parse "Zoë" = .ok "Zoë" ∧ (asBytes "Zoë").all Header.isValue ∧
    Opened (partnerOf (partnerUser "Zoë")) paired 2 7 ⟨9, 1⟩ officeNode partnerNode ∧
    Arrives defaultSettings paired 7 1000 (List.replicate 24 0) ∧
    ¬Delivered defaultSettings defaultSettings (partnerOf (partnerUser "Zoë")) paired
      (partnerUser "Zoë") 2 ⟨9, 1⟩ .get assetsPath [] 1000 (List.replicate 24 0) := by
  let _ := hyphenated
  let _ := Cryptography.standard
  let _ := ScanOrder.stored
  let _ := UnicodeSegmentation.characters
  refine ⟨proxied_partnerUser, by decide +kernel, by decide +kernel, opened_paired, arrives_paired,
    fun h => ?_⟩
  have hf : FitsHeader (partnerUser "Zoë").username :=
    fitsHeader_of_delivered rfl proxied_partnerUser opened_paired h
  exact absurd (hf.visible 'ë' (by decide +kernel)) (by decide +kernel)

end Examples

end Federation

end LabInventory
