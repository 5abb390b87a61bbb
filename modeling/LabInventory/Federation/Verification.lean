import LabInventory.Federation.Security

open Sql Program

namespace LabInventory

namespace Federation

-- Texts that a header can carry.
def Visible (s : String) : Prop :=
  ∀ c ∈ s.toList, (32 ≤ c.toNat ∧ c.toNat < 127) ∨ c.toNat = 9

section Visible

variable {s : String}

theorem visible_of_all
    (h : s.toList.all fun c => (32 ≤ c.toNat ∧ c.toNat < 127) ∨ c.toNat = 9) : Visible s := by
  intro c hc
  simpa using List.all_eq_true.mp h c hc

theorem toStr_asBytes (h : Visible s) : Header.toStr (asBytes s) = some s := by
  have he (c : Char) (hc : c ∈ s.toList) : String.utf8EncodeChar c = [c.val.toUInt8] ∧
      c.val.toUInt8.toNat = c.toNat := by
    have hv := h c hc
    have hn : c.val.toNat = c.toNat := rfl
    refine ⟨String.utf8EncodeChar_eq_singleton <| Char.utf8Size_eq_one_iff.mpr ?_, ?_⟩
    case refine_1 => rw [UInt32.le_iff_toNat_le, hn]; simp; omega
    case refine_2 => rw [UInt32.toNat_toUInt8, hn]; omega
  have hb : asBytes s = s.toList.map (·.val.toUInt8) := by
    rw [asBytes, List.map_eq_flatMap]
    exact List.flatMap_congr fun c hc => (he c hc).left
  have hv : (asBytes s).all Header.isVisibleAscii := by
    simp only [hb, List.all_map, List.all_eq_true, Function.comp_apply, Header.isVisibleAscii,
      Bool.or_eq_true, Bool.and_eq_true, decide_eq_true_eq, UInt8.le_iff_toNat_le,
      UInt8.lt_iff_toNat_lt, ← UInt8.toNat_inj]
    intro c hc
    rw [(he c hc).right]
    simpa using h c hc
  have hs : (asBytes s).map (fun b => Char.ofNat b.toNat) = s.toList := by
    rw [hb, List.map_map]
    refine (List.map_congr_left fun c hc => ?_).trans (List.map_id _)
    simp only [Function.comp_apply, (he c hc).right, Char.ofNat_toNat, id]
  rw [Header.toStr, if_pos hv, hs, String.ofList_toList]

theorem visible_natRepr {n : Nat} : Visible n.repr := by
  intro c hc
  have hd := Nat.isDigit_of_mem_toDigits (b := 10) (by decide) (by decide) (by simpa using hc)
  have h₀ : '0'.toNat = 48 := rfl
  have h₉ : '9'.toNat = 57 := rfl
  have hr := Char.isDigit_iff_toNat.mp hd
  omega

theorem visible_intRepr {n : Int} : Visible n.repr := by
  cases n
  case ofNat n => exact visible_natRepr
  case negSucc n =>
    intro c hc
    simp only [Int.repr, String.toList_append, List.mem_append] at hc
    rcases hc with hc | hc
    case inl =>
      obtain rfl : c = '-' := by simpa using hc
      decide
    case inr => exact visible_natRepr c hc

theorem visible_showUuid [UuidFormat] {u : Uuid} : Visible (UuidFormat.showUuid u) := by
  intro c hc
  rcases UuidFormat.showUuid_chars c hc with h | rfl
  case inl =>
    have hd : Hex.digits.all fun c => (32 ≤ c.toNat ∧ c.toNat < 127) ∨ c.toNat = 9 := by decide
    simpa using List.all_eq_true.mp hd c h
  case inr => decide

end Visible

theorem parseDigits_natRepr {n : Nat} : parseDigits n.repr.toList = some n := by
  have hd : n.repr.toList = Nat.toDigits 10 n := by simp
  have hn : Nat.toDigits 10 n ≠ [] := Nat.toDigits_ne_nil
  have ha : (Nat.toDigits 10 n).all Char.isDigit := List.all_eq_true.mpr fun c hc =>
    Nat.isDigit_of_mem_toDigits (by decide) (by decide) hc
  rw [parseDigits, hd, if_pos ⟨hn, ha⟩, Nat.ofDigitChars_toDigits (by decide) (by decide)]

-- Numbers are read back from how they are printed.
theorem parseSigned_intRepr {width : Nat} {n : Int} (hl : -2 ^ (width - 1) ≤ n)
    (hu : n < 2 ^ (width - 1)) : parseSigned width n.repr = some n := by
  have hf : (some n).filter (fun n => -2 ^ (width - 1) ≤ n ∧ n < 2 ^ (width - 1)) = some n :=
    Option.filter_eq_some_iff.mpr ⟨rfl, by simp [hl, hu]⟩
  cases n
  case negSucc n =>
    have ht : (Int.negSucc n).repr.toList = '-' :: (n + 1).repr.toList := by
      simp [Int.repr]
    simp only [parseSigned, ht, parseDigits_natRepr]
    exact hf
  case ofNat n =>
    have ht : (Int.ofNat n).repr.toList = n.repr.toList := rfl
    have hn := parseDigits_natRepr (n := n)
    have hd : ∀ c ∈ n.repr.toList, c.isDigit := fun c hc =>
      Nat.isDigit_of_mem_toDigits (b := 10) (by decide) (by decide) (by simpa using hc)
    unfold parseSigned
    rw [ht]
    split
    case h_1 he => exact absurd (hd '-' (he ▸ List.mem_cons_self)) (by decide)
    case h_2 he => exact absurd (hd '+' (he ▸ List.mem_cons_self)) (by decide)
    case h_3 => rw [hn]; exact hf

section Headers

variable {headers : HeaderMap} {name s : String}

theorem requiredHeader_eq_ok : requiredHeader headers name = .ok s ↔
    ∃ value, headers name = some value ∧ Header.toStr value = some s := by
  unfold requiredHeader
  cases headers name
  case none => simp
  case some value => cases h : Header.toStr value <;> simp [h]

variable [UuidFormat] {p : FederationHeaders}

-- What is known about the headers that are accepted.
structure FederationHeaders.Parsed (headers : HeaderMap) (p : FederationHeaders) : Prop where
  nonce : requiredHeader headers Header.nonce = .ok p.nonce
  remoteUsername : ∃ s, requiredHeader headers Header.remoteUsername = .ok s ∧
    Text.trim s = p.remoteUsername
  remoteUsername_ne_empty : p.remoteUsername ≠ ""
  remoteUserType : p.remoteUserType = "lab_admin" ∨ p.remoteUserType = "user"

theorem parsed_of_parseFederationHeaders (h : parseFederationHeaders headers = .ok p) :
    p.Parsed headers := by
  simp only [parseFederationHeaders, Except.bind_eq_ok, Except.check_eq_ok, Except.pure_eq_ok] at h
  obtain ⟨_, _, _, _, _, _, nonce, hn, _, _, _, _, _, _, s, hs, t, ht, _, hT, _, hU, rfl⟩ := h
  exact ⟨hn, ⟨s, hs, rfl⟩, hU, hT⟩

end Headers

section Window

variable {requestTtlSeconds now timestamp : Int}

-- In a checked build, what would wrap around is a panic.
def checked64 (n : Int) : Option Int :=
  if -2 ^ 63 ≤ n ∧ n < 2 ^ 63 then some n else none

def isFreshChecked (requestTtlSeconds now timestamp : Int) : Option Bool := do
  let difference ← checked64 (now - timestamp)
  let distance ← checked64 |difference|
  return distance ≤ requestTtlSeconds

-- Both builds look at the mathematical distance.
structure WindowKept (requestTtlSeconds now timestamp : Int) : Prop where
  release : isFresh requestTtlSeconds now timestamp ↔ |now - timestamp| ≤ requestTtlSeconds
  checked : isFreshChecked requestTtlSeconds now timestamp =
    some (decide (|now - timestamp| ≤ requestTtlSeconds))

theorem wrap64_eq_self {n : Int} (hl : -2 ^ 63 ≤ n) (hu : n < 2 ^ 63) : wrap64 n = n :=
  Int.bmod_eq_of_le_mul_two (by norm_num at hl ⊢; omega) (by norm_num at hu ⊢; omega)

theorem checked64_eq_some {n m : Int} : checked64 n = some m ↔ n = m ∧ -2 ^ 63 ≤ n ∧ n < 2 ^ 63 := by
  unfold checked64
  by_cases h : -2 ^ 63 ≤ n ∧ n < 2 ^ 63
  case pos => rw [if_pos h, Option.some.injEq, and_iff_left h]
  case neg =>
    rw [if_neg h]
    exact iff_of_false nofun fun hn => h hn.right

theorem windowKept_iff :
    WindowKept requestTtlSeconds now timestamp ↔ |now - timestamp| < 2 ^ 63 := by
  constructor
  case mp =>
    intro h
    have hc := h.checked
    simp only [isFreshChecked, Option.bind_eq_bind, Option.bind_eq_some_iff, checked64_eq_some] at hc
    obtain ⟨_, ⟨rfl, -⟩, _, ⟨-, -, hlt⟩, -⟩ := hc
    exact hlt
  case mpr =>
    intro h
    have hd := abs_lt.mp h
    have hpos := abs_nonneg (now - timestamp)
    have hdiff : -2 ^ 63 ≤ now - timestamp := hd.left.le
    have hdist : -2 ^ 63 ≤ |now - timestamp| := le_trans (by norm_num) hpos
    constructor
    case release =>
      rw [isFresh, wrap64_eq_self hdiff hd.right, wrap64_eq_self hdist h]
      exact decide_eq_true_iff
    case checked =>
      have h₁ := checked64_eq_some.mpr ⟨rfl, hdiff, hd.right⟩
      have h₂ := checked64_eq_some.mpr ⟨rfl, hdist, h⟩
      simp only [isFreshChecked, h₁, h₂, Option.bind_eq_bind, Option.bind_some]
      rfl

-- Half of all 64-bit values away, the difference is its own absolute value, which is negative.
theorem not_windowKept_halfway : ¬∀ requestTtlSeconds now timestamp : Int,
    -2 ^ 63 ≤ timestamp → timestamp < 2 ^ 63 → WindowKept requestTtlSeconds now timestamp := by
  intro h
  have hw := h 60 1700000000 (1700000000 - 2 ^ 63) (by omega) (by omega)
  have hf : isFresh 60 1700000000 (1700000000 - 2 ^ 63) := by decide +kernel
  have hd := (le_abs_self _).trans <| hw.release.mp hf
  omega

end Window

section Authentic

variable [UuidFormat] [Cryptography]

-- What is checked of an inbound request in a database state.
structure Authentic (d : Database) (request : InboundRequest) (targetLaboratoryId : Uuid)
    (h : FederationHeaders) (context : InboundFederationContext) : Prop where
  remoteNode : d.remoteNodes.find? h.remoteNodeId = some context.remoteNode
  active : context.remoteNode.status = .active
  keyVersion : context.remoteNode.keyVersion = h.keyVersion
  trust : (fetchActiveTrust targetLaboratoryId h.remoteNodeId h.remoteLaboratoryId d).isSome
  signature : checkSignature context.remoteNode.sharedSecret request h = .ok ()
  context : context = { context with
    remoteLaboratoryId := h.remoteLaboratoryId
    remoteUserId := h.remoteUserId
    remoteUsername := h.remoteUsername
    remoteUserType := h.remoteUserType
  }

variable {request : InboundRequest} {targetLaboratoryId : Uuid} {h : FederationHeaders}
variable {context : InboundFederationContext} {settings : FederationSettings} {d d' : Database}

theorem wlp_authenticate : (authenticate request targetLaboratoryId h).wlp
    (fun context d' => d' = d ∧ Authentic d request targetLaboratoryId h context) d := by
  simp only [authenticate, wlp, wp_bind, wp_fetch, wp_require, wp_read, wp_ofExcept, implies_true,
    and_true, pure_def, wp_done, true_and]
  exact fun remoteNode hr ha ht _ hs => ⟨hr, ha.left, ha.right, ht, hs, rfl⟩

theorem checkSignature_eq_ok {secret : String} (hs : checkSignature secret request h = .ok ()) :
    Cryptography.decodeBase64 h.signature =
      some (Cryptography.hmacSha256 secret (canonical (signedFields request h))) := by
  simp only [checkSignature, verifySignature, signCanonical,
    Cryptography.decodeBase64_encodeBase64] at hs
  cases hd : Cryptography.decodeBase64 h.signature
  case none => simp [hd] at hs
  case some => simpa [hd] using hs

variable [ScanOrder]

-- The outcome of a verification is decided before the nonce is looked at.
theorem authentic_of_verifyInboundRequest
    (hv : (verifyInboundRequest settings request targetLaboratoryId).run d = .ok (context, d')) :
    ∃ h, parseFederationHeaders request.headers = .ok h ∧
      isFresh settings.requestTtlSeconds (epochSeconds d.now) h.timestamp ∧
      Authentic d request targetLaboratoryId h context := by
  suffices hw : (verifyInboundRequest settings request targetLaboratoryId).wlp (fun context _ =>
      ∃ h, parseFederationHeaders request.headers = .ok h ∧
        isFresh settings.requestTtlSeconds (epochSeconds d.now) h.timestamp ∧
        Authentic d request targetLaboratoryId h context) d from wp_run hw hv
  simp only [verifyInboundRequest, wlp, wp_bind, wp_require, wp_ofExcept, wp_read, implies_true,
    and_true, pure_def, wp_done]
  intro _ h hh hf
  refine wp_mono wlp_authenticate fun context d' ha => ?_
  exact wlp_of_forall fun _ _ => ⟨h, hh, hf, ha.left ▸ ha.right⟩

end Authentic

section Signed

theorem requiredHeader_toHeaderMap {headers : List (String × String)} {name s : String}
    (hl : headers.lookup name = some s) (hs : Visible s) :
    requiredHeader (toHeaderMap headers) name = .ok s :=
  requiredHeader_eq_ok.mpr ⟨asBytes s, by simp [toHeaderMap, hl], toStr_asBytes hs⟩

theorem parseHeader_toHeaderMap {α : Type} {parse : String → Option α} {a : α}
    {headers : List (String × String)} {name s : String} (hl : headers.lookup name = some s)
    (hs : Visible s) (hp : parse s = some a) :
    parseHeader parse (toHeaderMap headers) name = .ok a := by
  simp [parseHeader, requiredHeader_toHeaderMap hl hs, bind, Except.bind, hp]

variable [Cryptography]

theorem visible_signCanonical {secret : String} {fields : List String} :
    Visible (signCanonical secret fields) := by
  intro c hc
  have h := Cryptography.encodeBase64_chars c hc
  have hl : ' '.toNat < c.toNat := UInt32.lt_iff_toNat_lt.mp h.left
  exact .inl ⟨hl.le, h.right⟩

variable [UuidFormat]

variable {method : Method} {pathAndQuery : PathAndQuery} {body : List UInt8}
variable {remoteNode : RemoteNodeRow} {identity : OutboundFederationIdentity} {now : Int}
variable {nonce : String}

-- The headers that the verifier reads off a request which has been signed.
def FederationHeaders.ofSigned (method : Method) (pathAndQuery : PathAndQuery) (body : List UInt8)
    (remoteNode : RemoteNodeRow) (identity : OutboundFederationIdentity) (now : Int)
    (nonce : String) : FederationHeaders where
  remoteNodeId := identity.localNodeId
  keyVersion := remoteNode.keyVersion
  timestamp := now
  nonce := nonce
  signature := signCanonical remoteNode.sharedSecret <| canonicalFields method.asStr
    pathAndQuery.asStr (sha256Hex body) identity.localNodeId identity.localLaboratoryId
    identity.userId identity.userType now.repr nonce remoteNode.keyVersion
  remoteLaboratoryId := identity.localLaboratoryId
  remoteUserId := identity.userId
  remoteUsername := Text.trim identity.username
  remoteUserType := identity.userType

-- Who can be named in the headers of a request.
structure OutboundFederationIdentity.Presentable (identity : OutboundFederationIdentity) : Prop where
  username : Visible identity.username
  username_ne_empty : Text.trim identity.username ≠ ""
  userType : identity.userType = "lab_admin" ∨ identity.userType = "user"

theorem parseFederationHeaders_signedHeaders (hi : identity.Presentable) (hc : Visible nonce)
    (hk : -2 ^ 31 ≤ remoteNode.keyVersion ∧ remoteNode.keyVersion < 2 ^ 31)
    (hn : -2 ^ 63 ≤ now ∧ now < 2 ^ 63) :
    parseFederationHeaders
      (toHeaderMap (signedHeaders method pathAndQuery body remoteNode identity now nonce)) =
      .ok (.ofSigned method pathAndQuery body remoteNode identity now nonce) := by
  have ht : Visible identity.userType ∧ Text.trim identity.userType = identity.userType := by
    rcases hi.userType with h | h <;> rw [h]
    case inl => exact ⟨visible_of_all (by decide), by decide⟩
    case inr => exact ⟨visible_of_all (by decide), by decide⟩
  let headers := signedHeaders method pathAndQuery body remoteNode identity now nonce
  have hr (name : String) {s : String} : headers.lookup name = some s → Visible s →
      requiredHeader (toHeaderMap headers) name = .ok s := requiredHeader_toHeaderMap
  have hu (name : String) {u : Uuid} (h : headers.lookup name = some (UuidFormat.showUuid u)) :
      parseUuidHeader (toHeaderMap headers) name = .ok u :=
    parseHeader_toHeaderMap h visible_showUuid UuidFormat.parseUuid_showUuid
  have h₁ := hu Header.nodeId rfl
  have h₂ : parseI32Header (toHeaderMap headers) Header.keyVersion = .ok remoteNode.keyVersion :=
    parseHeader_toHeaderMap rfl visible_intRepr (parseSigned_intRepr hk.left hk.right)
  have h₃ : parseI64Header (toHeaderMap headers) Header.timestamp = .ok now :=
    parseHeader_toHeaderMap rfl visible_intRepr (parseSigned_intRepr hn.left hn.right)
  have h₄ := hr Header.nonce rfl hc
  have h₅ := hr Header.signature rfl visible_signCanonical
  have h₆ := hu Header.remoteLaboratoryId rfl
  have h₇ := hu Header.remoteUserId rfl
  have h₈ := hr Header.remoteUsername rfl hi.username
  have h₉ := hr Header.remoteUserType rfl ht.left
  change parseFederationHeaders (toHeaderMap headers) = _
  simp only [parseFederationHeaders, h₁, h₂, h₃, h₄, h₅, h₆, h₇, h₈, h₉, ht.right, bind,
    Except.bind, Except.check, if_pos hi.userType, if_pos hi.username_ne_empty]
  rfl

-- The verifier reads off who has signed a request.
theorem parseFederationHeaders_signed {h : FederationHeaders} (hp : parseFederationHeaders
    (toHeaderMap (signedHeaders method pathAndQuery body remoteNode identity now nonce)) = .ok h) :
    h.remoteNodeId = identity.localNodeId ∧
    h.remoteLaboratoryId = identity.localLaboratoryId := by
  let headers := signedHeaders method pathAndQuery body remoteNode identity now nonce
  have hu (name : String) {u : Uuid} (h : headers.lookup name = some (UuidFormat.showUuid u)) :
      parseUuidHeader (toHeaderMap headers) name = .ok u :=
    parseHeader_toHeaderMap h visible_showUuid UuidFormat.parseUuid_showUuid
  have h₁ := hu Header.nodeId rfl
  have h₂ := hu Header.remoteLaboratoryId rfl
  change parseFederationHeaders (toHeaderMap headers) = _ at hp
  simp only [parseFederationHeaders, h₁, h₂, Except.bind_eq_ok, Except.check_eq_ok,
    Except.pure_eq_ok, Except.ok.injEq] at hp
  obtain ⟨_, hn, _, _, _, _, _, _, _, _, _, hl, _, _, _, _, _, _, _, _, _, _, _, _, rfl⟩ := hp
  exact ⟨hn.symm, hl.symm⟩

end Signed

section Nonces

variable [ScanOrder] {R : ApiError → Prop} {d d' : Database} {remoteNodeId : Uuid} {nonce : String}
variable {ttlSeconds : Int}

-- The nonces that are left by a sweep.
structure Swept (d d' : Database) : Prop where
  frame : d' = { d with requestNonces := d'.requestNonces }
  mem_iff : ∀ r, r ∈ d'.requestNonces ↔ r ∈ d.requestNonces ∧ d.now < r.expiresAt

theorem wp_deleteExpiredNonces :
    deleteExpiredNonces.wp (fun _ => True) R (fun _ => Swept d) d := by
  let J (rows : List RequestNonceRow) (d' : Database) : Prop :=
    d' = { d with requestNonces := d'.requestNonces } ∧
    (∀ r ∈ d'.requestNonces, r ∈ d.requestNonces ∧ (d.now < r.expiresAt ∨ r ∈ rows)) ∧
    (∀ r ∈ d.requestNonces, d.now < r.expiresAt → r ∈ d'.requestNonces) ∧
    (∀ r ∈ rows, r ∈ d.requestNonces ∧ r.expiresAt ≤ d.now)
  simp only [deleteExpiredNonces, wp_bind, wp_read, forAll, wp_select]
  refine wp_mono (wp_forRows J ⟨rfl, ?_, fun r hr _ => hr, ?_⟩ ?_) ?_
  case refine_1 =>
    intro r hr
    by_cases h : d.now < r.expiresAt
    case pos => exact ⟨hr, .inl h⟩
    case neg => exact ⟨hr, .inr <| by simpa [Table.mem_def] using ⟨hr, not_lt.mp h⟩⟩
  case refine_2 =>
    intro r hr
    simpa [Table.mem_def] using hr
  case refine_3 =>
    rintro b bs d' ⟨hf, hm, hu, hb⟩
    simp only [wp_bind, wp_read]
    cases hr : d'.requestNonces.find? (b.remoteNodeId, b.nonce)
    case none =>
      refine ⟨hf, fun r hr' => ⟨(hm r hr').left, ?_⟩, hu, fun r hr' => hb r (.tail _ hr')⟩
      rcases (hm r hr').right with h | h
      case inl => exact .inl h
      case inr =>
        refine .inr <| (List.mem_cons.mp h).resolve_left fun he => ?_
        exact Table.find?_eq_none.mp hr r hr' (he ▸ rfl)
    case some r₁ =>
      have hk : (r₁.remoteNodeId, r₁.nonce) = (b.remoteNodeId, b.nonce) := (Table.find?_eq_some.mp hr).right
      refine wp_exec.mpr ⟨fun d₂ ha => ⟨trivial, ?_⟩, fun c hc => ?_⟩
      case refine_1 =>
        obtain rfl := Except.ok.inj ha
        refine ⟨by rw [hf], fun r hr' => ?_, fun r hr' he => ?_, fun r hr' => hb r (.tail _ hr')⟩
        case refine_1 =>
          have hd := Table.mem_delete.mp hr'
          refine ⟨(hm r hd.left).left, (hm r hd.left).right.imp_right fun h => ?_⟩
          exact (List.mem_cons.mp h).resolve_left fun he => hd.right (he ▸ hk.symm)
        case refine_2 =>
          refine Table.mem_delete.mpr ⟨hu r hr' he, fun hn => ?_⟩
          obtain ⟨hbm, hbe⟩ := hb b (.head _)
          obtain rfl := Table.eq_of_key_eq hr' hbm (hn.trans hk)
          exact absurd he (not_lt.mpr hbe)
      case refine_2 => simp [Storage.apply, Database.apply, Database.writeRequestNonces, pure, Except.pure] at hc
  case refine_4 =>
    rintro _ d' ⟨hf, hm, hu, _⟩
    refine ⟨hf, fun r => ⟨fun hr => ?_, fun hr => hu r hr.left hr.right⟩⟩
    exact ⟨(hm r hr).left, (hm r hr).right.resolve_right List.not_mem_nil⟩

-- A nonce that can be stored: those which have expired are swept first.
structure Unused (d : Database) (remoteNodeId : Uuid) (nonce : String) : Prop where
  known : (d.remoteNodes.find? remoteNodeId).isSome
  ne_empty : nonce ≠ ""
  unexpired : ∀ r ∈ d.requestNonces, d.now < r.expiresAt → (r.remoteNodeId, r.nonce) ≠ (remoteNodeId, nonce)

-- The nonces that are left once a new one is stored.
structure Remembered (d d' : Database) (remoteNodeId : Uuid) (nonce : String) (ttlSeconds : Int) :
    Prop where
  frame : d' = { d with requestNonces := d'.requestNonces }
  mem_iff : ∀ r, r ∈ d'.requestNonces ↔ (r ∈ d.requestNonces ∧ d.now < r.expiresAt) ∨
    r = { remoteNodeId, nonce, expiresAt := d.now + ttlSeconds * 1000000 }

omit [ScanOrder] in
theorem apply_insertNonce {r : RequestNonceRow} : d.apply (.requestNonces <| .insert r) = .ok d' ↔
    r.nonce ≠ "" ∧ (d.remoteNodes.find? r.remoteNodeId).isSome ∧
    d.requestNonces.insert r = .ok d'.requestNonces ∧
    d' = { d with requestNonces := d'.requestNonces } := by
  simp only [Database.apply, Database.writeRequestNonces, Table.write, Except.bind_eq_ok,
    Except.check_eq_ok, Except.pure_eq_ok]
  constructor
  case mp =>
    rintro ⟨_, hn, t, ht, _, hk, rfl⟩
    exact ⟨hn, hk, ht, rfl⟩
  case mpr =>
    rintro ⟨hn, hk, ht, he⟩
    exact ⟨(), hn, _, ht, (), hk, he.symm⟩

omit [ScanOrder] in
theorem clash?_requestNonce {t : Table RequestNonceRow} {r : RequestNonceRow} :
    t.clash? r = none :=
  Table.clash?_eq_none.mpr fun _ _ _ => conflict?_eq_none.mpr <| by simp [TableSchema.indexes]

theorem wp_rememberNonce (hR : ¬Unused d remoteNodeId nonce → ∀ e, R e) :
    (rememberNonce remoteNodeId nonce ttlSeconds).wp (fun _ => True) R
      (fun _ d' => Unused d remoteNodeId nonce ∧ Remembered d d' remoteNodeId nonce ttlSeconds) d := by
  simp only [rememberNonce, wp_bind]
  refine wp_mono wp_deleteExpiredNonces fun _ d₁ hs => ?_
  have hf := hs.frame
  have hnow : d₁.now = d.now := by rw [hf]
  have hnodes : d₁.remoteNodes = d.remoteNodes := by rw [hf]
  simp only [insertNonce, wp_bind, wp_read, wp_exec, true_and]
  constructor
  case left =>
    intro d₂ ha
    obtain ⟨hn, hk, hi, he⟩ := apply_insertNonce.mp ha
    have hu := (Table.insert_eq_ok.mp hi).left
    refine ⟨⟨hnodes ▸ hk, hn, fun r hr ht => hu r ((hs.mem_iff r).mpr ⟨hr, ht⟩)⟩, ?_, fun r => ?_⟩
    case refine_1 => rw [he, hf]
    case refine_2 => rw [Table.mem_insert hi, hs.mem_iff, hnow]
  case right =>
    intro c hc
    refine hR (fun hu => ?_) _
    let r : RequestNonceRow := {
      remoteNodeId, nonce
      expiresAt := d₁.now + ttlSeconds * 1000000
    }
    have hi : ∀ r' ∈ d₁.requestNonces, TableSchema.key r' ≠ TableSchema.key r := fun r' hr' =>
      hu.unexpired r' ((hs.mem_iff r').mp hr').left ((hs.mem_iff r').mp hr').right
    obtain ⟨t, ht⟩ := Table.exists_insert hi clash?_requestNonce
    have ha : d₁.apply (.requestNonces <| .insert r) = .ok { d₁ with requestNonces := t } :=
      apply_insertNonce.mpr ⟨hu.ne_empty, hnodes ▸ hu.known, ht, rfl⟩
    exact absurd (ha.symm.trans hc) (by simp)

variable [UuidFormat] [Cryptography] {settings : FederationSettings} {request : InboundRequest}
variable {targetLaboratoryId : Uuid} {h : FederationHeaders} {context : InboundFederationContext}

-- A request that is authentic, fresh and new is accepted.
theorem run_verifyInboundRequest (he : settings.enabled)
    (hp : parseFederationHeaders request.headers = .ok h)
    (hf : isFresh settings.requestTtlSeconds (epochSeconds d.now) h.timestamp)
    (ha : Authentic d request targetLaboratoryId h context)
    (hu : Unused d h.remoteNodeId h.nonce) :
    ∃ d', (verifyInboundRequest settings request targetLaboratoryId).run d = .ok (context, d') ∧
      Remembered d d' h.remoteNodeId h.nonce settings.requestTtlSeconds := by
  suffices hw : (verifyInboundRequest settings request targetLaboratoryId).wp (fun _ => True)
      (fun _ => False) (fun c d' => c = context ∧
        Remembered d d' h.remoteNodeId h.nonce settings.requestTtlSeconds) d by
    have ⟨_, d', hr, hc, hd⟩ := wp_total hw
    exact ⟨d', hc ▸ hr, hd⟩
  have ht := ha.trust
  simp only [verifyInboundRequest, authenticate, wp_bind, wp_require, wp_ofExcept, wp_read,
    wp_fetch, pure_def, wp_done, he, hp, hf, ha.remoteNode, Except.ok.injEq, Option.some.injEq,
    forall_eq', ha.active, ha.keyVersion, ht, ha.signature, true_implies, not_true_eq_false,
    false_implies, and_true, and_self, reduceCtorEq, implies_true]
  refine fun _ => wp_mono (wp_rememberNonce fun hn => absurd hu hn) fun _ d' hd => ⟨?_, hd.right⟩
  exact ha.context.symm

variable {method : Method} {pathAndQuery : PathAndQuery} {body : List UInt8} {now : Int}
variable {remoteNode node : RemoteNodeRow} {identity : OutboundFederationIdentity}

-- A request that the sender signs with the secret of the receiver.
def signedRequest (method : Method) (pathAndQuery : PathAndQuery) (body : List UInt8)
    (remoteNode : RemoteNodeRow) (identity : OutboundFederationIdentity) (now : Int)
    (nonce : String) : InboundRequest where
  method := method
  pathAndQuery := pathAndQuery
  headers := toHeaderMap <| signedHeaders method pathAndQuery body remoteNode identity now nonce
  body := body

theorem run_signedRequest (he : settings.enabled) (hi : identity.Presentable) (hc : Visible nonce)
    (hk : -2 ^ 31 ≤ remoteNode.keyVersion ∧ remoteNode.keyVersion < 2 ^ 31)
    (hn : -2 ^ 63 ≤ now ∧ now < 2 ^ 63)
    (hf : isFresh settings.requestTtlSeconds (epochSeconds d.now) now)
    (hr : d.remoteNodes.find? identity.localNodeId = some node) (ha : node.status = .active)
    (hv : node.keyVersion = remoteNode.keyVersion)
    (hs : node.sharedSecret = remoteNode.sharedSecret)
    (ht : (fetchActiveTrust targetLaboratoryId identity.localNodeId identity.localLaboratoryId
      d).isSome)
    (hu : Unused d identity.localNodeId nonce) :
    ∃ d', (verifyInboundRequest settings
        (signedRequest method pathAndQuery body remoteNode identity now nonce)
        targetLaboratoryId).run d = .ok ({
          remoteNode := node
          remoteLaboratoryId := identity.localLaboratoryId
          remoteUserId := identity.userId
          remoteUsername := Text.trim identity.username
          remoteUserType := identity.userType
        }, d') ∧
      Remembered d d' identity.localNodeId nonce settings.requestTtlSeconds := by
  let h := FederationHeaders.ofSigned method pathAndQuery body remoteNode identity now nonce
  refine run_verifyInboundRequest (h := h) he
    (parseFederationHeaders_signedHeaders hi hc hk hn) hf ⟨hr, ha, hv, ht, ?_, rfl⟩ hu
  simp only [checkSignature, verifySignature, signCanonical, h, FederationHeaders.ofSigned,
    Cryptography.decodeBase64_encodeBase64, hs]
  exact Except.check_eq_ok.mpr rfl

-- A request that is accepted leaves its nonce behind, and changes nothing else.
theorem remembered_of_verifyInboundRequest {d' : Database}
    (hv : (verifyInboundRequest settings request targetLaboratoryId).run d = .ok (context, d')) :
    ∃ h, parseFederationHeaders request.headers = .ok h ∧ Unused d h.remoteNodeId h.nonce ∧
      Remembered d d' h.remoteNodeId h.nonce settings.requestTtlSeconds := by
  suffices hw : (verifyInboundRequest settings request targetLaboratoryId).wlp (fun _ d' =>
      ∃ h, parseFederationHeaders request.headers = .ok h ∧ Unused d h.remoteNodeId h.nonce ∧
        Remembered d d' h.remoteNodeId h.nonce settings.requestTtlSeconds) d from wp_run hw hv
  simp only [verifyInboundRequest, wlp, wp_bind, wp_require, wp_ofExcept, wp_read, implies_true,
    and_true, pure_def, wp_done]
  intro _ h hh hf
  refine wp_mono wlp_authenticate fun context d₁ ha => ?_
  obtain ⟨rfl, _⟩ := ha
  exact wp_mono (wp_rememberNonce fun _ _ => trivial) fun _ d' hr => ⟨h, hh, hr⟩

-- Requests are only accepted from laboratories with a trust.
theorem trust_of_signedRequest {d' : Database} (hv : (verifyInboundRequest settings
    (signedRequest method pathAndQuery body remoteNode identity now nonce)
    targetLaboratoryId).run d = .ok (context, d')) :
    context.remoteLaboratoryId = identity.localLaboratoryId ∧
    (fetchActiveTrust targetLaboratoryId identity.localNodeId identity.localLaboratoryId
      d).isSome := by
  obtain ⟨h, hp, _, ha⟩ := authentic_of_verifyInboundRequest hv
  have ⟨hn, hl⟩ := parseFederationHeaders_signed hp
  have ht := ha.trust
  rw [hn, hl] at ht
  exact ⟨(congrArg InboundFederationContext.remoteLaboratoryId ha.context).trans hl, ht⟩

end Nonces

end Federation

end LabInventory
