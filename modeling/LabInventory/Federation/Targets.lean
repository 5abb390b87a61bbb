import LabInventory.Federation.Signature

namespace LabInventory

namespace Federation

namespace IpAddr

-- Addresses of this machine, of the networks around it or of no single machine.
def isInternalV4 (a b c d : UInt8) : Bool :=
  a = 127 || a = 10 || (a = 172 && 16 ≤ b && b ≤ 31) || (a = 192 && b = 168) ||
  (a = 169 && b = 254) || (a = 0 && b = 0 && c = 0 && d = 0) || (224 ≤ a && a ≤ 239)

-- An address of either kind may be the same as one of the other kind, `::ffff:a.b.c.d`.
def isInternal : IpAddr → Bool
  | .v4 a b c d => isInternalV4 a b c d
  | .v6 ip =>
    ip = 0 || ip = 1 || ip.toNat / 2 ^ 120 = 0xff || ip.toNat / 2 ^ 121 = 0xfc / 2 ||
    ip.toNat / 2 ^ 118 = 0xfe80 / 2 ^ 6 ||
    (ip.toNat / 2 ^ 32 = 0xffff && isInternalV4 (.ofNat (ip.toNat / 2 ^ 24))
      (.ofNat (ip.toNat / 2 ^ 16)) (.ofNat (ip.toNat / 2 ^ 8)) (.ofNat ip.toNat))

theorem special_of_internal {a b c d : UInt8} (h : isInternal (.v4 a b c d)) :
    isSpecial (.v4 a b c d) := by
  unfold isInternal isInternalV4 at h
  unfold isSpecial
  grind

-- `Ipv4Addr` as it is displayed.
def dotted (a b c d : UInt8) : String :=
  .ofList <| ['.'].intercalate <| [a, b, c, d].map fun n => Nat.toDigits 10 n.toNat

def bracketed (text : String) : String :=
  .ofList <| '[' :: text.toList ++ [']']

end IpAddr

-- How the crate `url` renders the hosts that are addresses, and which of the renderings the
-- standard library reads as addresses.
class AddressHosts extends Addresses where
  address : Url → Option IpAddr
  showIpv6 : BitVec 128 → String
  host_v4 {s url a b c d} : parseUrl s = some url → address url = some (.v4 a b c d) →
    url.host = some (IpAddr.dotted a b c d)
  host_v6 {s url ip} : parseUrl s = some url → address url = some (.v6 ip) →
    url.host = some (IpAddr.bracketed (showIpv6 ip))
  parseIpAddr_dotted {a b c d} : parseIpAddr (IpAddr.dotted a b c d) = some (.v4 a b c d)
  parseIpAddr_bracketed {text} : parseIpAddr (IpAddr.bracketed text) = none

open AddressHosts

def isAllowlisted (url : Url) (settings : FederationSettings) : Bool :=
  url.host.any fun host =>
    let host := toAsciiLowercase host
    let hostWithPort := match url.port with
      | some port => s!"{host}:{port}"
      | none => host
    (settings.allowedRemoteHosts.map toAsciiLowercase).any fun value =>
      value = host || value = hostWithPort

-- No internal address is accepted unless the settings say so.
def BlocksInternal [AddressHosts] (input : String) (settings : FederationSettings) : Prop :=
  ∀ url base ip, Addresses.parseUrl input = some url → normalizeBaseUrl input settings = .ok base →
    ¬settings.allowInsecurePrivateNetwork → ¬isAllowlisted url settings →
    address url = some ip → ¬IpAddr.isInternal ip

section Rendering

variable [AddressHosts] {input base host : String} {settings : FederationSettings} {url : Url}
  {a b c d : UInt8}

omit [AddressHosts] in
theorem mem_dotted {x : Char} (h : x ∈ (IpAddr.dotted a b c d).toList) : x = '.' ∨ x.isDigit := by
  by_cases hx : x = '.'
  case pos => exact Or.inl hx
  case neg =>
    rw [IpAddr.dotted, String.toList_ofList] at h
    obtain ⟨text, hm, hxt⟩ := Text.mem_of_mem_intercalate h hx
    obtain ⟨n, -, rfl⟩ := List.mem_map.mp hm
    exact Or.inr <| Nat.isDigit_of_mem_toDigits (by decide) (by decide) hxt

omit [AddressHosts] in
theorem toLower_eq_self {x : Char} (h : x.isDigit) : x.toLower = x := by
  have hd := Char.isDigit_iff_toNat.mp h
  refine dif_neg fun hu => ?_
  have hge : 65 ≤ x.toNat := UInt32.le_iff_toNat_le.mp hu.left
  have h9 : '9'.toNat = 57 := rfl
  omega

omit [AddressHosts] in
theorem toAsciiLowercase_dotted :
    toAsciiLowercase (IpAddr.dotted a b c d) = IpAddr.dotted a b c d := by
  refine String.toList_inj.mp ?_
  rw [toAsciiLowercase, String.toList_ofList]
  refine (List.map_congr_left fun x hx => ?_).trans (List.map_id _)
  obtain rfl | hd := mem_dotted hx
  case inl => rfl
  case inr => exact toLower_eq_self hd

omit [AddressHosts] in
theorem dotted_ne_localhost : toAsciiLowercase (IpAddr.dotted a b c d) ≠ "localhost" := by
  rw [toAsciiLowercase_dotted]
  intro he
  have hl : 'l' ∈ (IpAddr.dotted a b c d).toList := by
    rw [he]
    decide
  obtain h | h := mem_dotted hl <;> exact absurd h (by decide)

theorem validateRemoteUrl_eq_ok (hn : settings.allowInsecurePrivateNetwork = false)
    (hl : isAllowlisted url settings = false) (hh : url.host = some host)
    (he : toAsciiLowercase host ≠ "localhost") :
    validateRemoteUrl url settings = .ok () ↔ url.scheme = "https" ∧ url.username = "" ∧
      url.password = none ∧ settings.allowedRemoteHosts = [] ∧
      ∀ ip ∈ Addresses.parseIpAddr (toAsciiLowercase host), ¬IpAddr.isMetadata ip ∧ ¬IpAddr.isSpecial ip := by
  have hv : validateRemoteUrl url settings = .ok () ↔ url.scheme = "https" ∧ url.username = "" ∧
      url.password = none ∧ (settings.allowedRemoteHosts = [] ∨ isAllowlisted url settings) ∧
      ∀ ip ∈ Addresses.parseIpAddr (toAsciiLowercase host),
        validateRemoteIp ip settings (isAllowlisted url settings) = .ok () := by
    simp only [validateRemoteUrl, isAllowlisted, hh, hn, if_neg he, Option.any_some]
    by_cases hs : url.scheme = "http"
    case pos => simp [hs]
    case neg =>
      cases url.port <;> cases Addresses.parseIpAddr (toAsciiLowercase host) <;>
        simp [hs, and_assoc, Unique.exists_iff]
  simp [hv, hl, hn, validateRemoteIp]

theorem normalizeBaseUrl_eq_ok (hu : Addresses.parseUrl input = some url) :
    (∃ base, normalizeBaseUrl input settings = .ok base) ↔
      validateRemoteUrl url settings = .ok () ∧ (url.path = "/" ∨ url.path = "") := by
  simp only [normalizeBaseUrl, hu, Except.bind_eq_ok, Except.check_eq_ok, Except.pure_eq_ok]
  simp [Unique.exists_iff, and_comm]

omit [AddressHosts] in
theorem toAsciiLowercase_bracketed {text : String} :
    toAsciiLowercase (IpAddr.bracketed text) = IpAddr.bracketed (toAsciiLowercase text) := by
  refine String.toList_inj.mp ?_
  simp [toAsciiLowercase, IpAddr.bracketed]

omit [AddressHosts] in
theorem bracketed_ne_localhost {text : String} :
    toAsciiLowercase (IpAddr.bracketed text) ≠ "localhost" := by
  rw [toAsciiLowercase_bracketed]
  intro he
  have hl := congrArg (·.toList.head?) he
  simp [IpAddr.bracketed] at hl

-- Dotted addresses are recognised, bracketed ones are not.
theorem blocksInternal_iff : BlocksInternal input settings ↔ ∀ url ip,
    Addresses.parseUrl input = some url → address url = some (.v6 ip) →
    IpAddr.isInternal (.v6 ip) → settings.allowInsecurePrivateNetwork = false →
    settings.allowedRemoteHosts = [] → ¬(url.scheme = "https" ∧ url.username = "" ∧
      url.password = none ∧ (url.path = "/" ∨ url.path = "")) := by
  constructor
  case mp =>
    rintro hb url ip hu ha hi hn hl ⟨hs, hname, hpass, hpath⟩
    have hw : isAllowlisted url settings = false := by
      simp [isAllowlisted, hl]
    have hv : validateRemoteUrl url settings = .ok () := by
      have hh := host_v6 hu ha
      refine (validateRemoteUrl_eq_ok hn hw hh bracketed_ne_localhost).mpr ⟨hs, hname, hpass, hl, ?_⟩
      rw [toAsciiLowercase_bracketed, parseIpAddr_bracketed]
      exact nofun
    obtain ⟨base, hbase⟩ := (normalizeBaseUrl_eq_ok hu).mpr ⟨hv, hpath⟩
    exact hb url base _ hu hbase (by simp [hn]) (by simp [hw]) ha hi
  case mpr =>
    intro h url base ip hu hbase hn hw ha hi
    rw [Bool.not_eq_true] at hn hw
    obtain ⟨hv, hpath⟩ := (normalizeBaseUrl_eq_ok hu).mp ⟨base, hbase⟩
    cases ip
    case v4 a b c d =>
      have hh := host_v4 hu ha
      obtain ⟨-, -, -, -, hip⟩ := (validateRemoteUrl_eq_ok hn hw hh dotted_ne_localhost).mp hv
      rw [toAsciiLowercase_dotted, parseIpAddr_dotted] at hip
      exact (hip _ rfl).right (IpAddr.special_of_internal hi)
    case v6 ip =>
      have hh := host_v6 hu ha
      obtain ⟨hs, hname, hpass, hl, -⟩ := (validateRemoteUrl_eq_ok hn hw hh bracketed_ne_localhost).mp hv
      exact h url ip hu ha hi hn hl ⟨hs, hname, hpass, hpath⟩

end Rendering

section Loopback

variable {a b c d : UInt8}

def parseOctet (text : List Char) : Option UInt8 :=
  let n := Nat.ofDigitChars 10 text 0
  if n < 256 ∧ Nat.toDigits 10 n = text then some (.ofNat n) else none

def parseDotted (s : String) : Option IpAddr :=
  if s.toList.all fun c => c = '.' || c.isDigit then
    match (s.toList.splitOn '.').mapM parseOctet with
    | some [a, b, c, d] => some (.v4 a b c d)
    | _ => none
  else
    none

theorem parseOctet_toDigits {n : UInt8} : parseOctet (Nat.toDigits 10 n.toNat) = some n := by
  have hn : n.toNat < 256 := n.toNat_lt
  rw [parseOctet, Nat.ofDigitChars_ten_toDigits, if_pos ⟨hn, rfl⟩, UInt8.ofNat_toNat]

theorem parseDotted_dotted : parseDotted (IpAddr.dotted a b c d) = some (.v4 a b c d) := by
  have ha : (IpAddr.dotted a b c d).toList.all fun c => c = '.' || c.isDigit := by
    refine List.all_eq_true.mpr fun x hx => ?_
    simpa using mem_dotted hx
  have hs : (IpAddr.dotted a b c d).toList.splitOn '.' =
      [a, b, c, d].map fun n => Nat.toDigits 10 n.toNat := by
    rw [IpAddr.dotted, String.toList_ofList]
    refine List.splitOn_intercalate '.' (fun text hm hd => ?_) nofun
    obtain ⟨n, -, rfl⟩ := List.mem_map.mp hm
    exact absurd (Nat.isDigit_of_mem_toDigits (by decide) (by decide) hd) (by decide)
  rw [parseDotted, if_pos ha, hs]
  simp [parseOctet_toDigits]

-- The URL of this machine by the address `::1`.
def loopbackUrl : Url where
  scheme := "https"
  username := ""
  password := none
  host := some "[::1]"
  port := none
  path := "/"
  text := "https://[::1]/"

@[reducible]
def loopbackHosts : AddressHosts where
  parseUrl s := if s = "https://[::1]" then some loopbackUrl else none
  parseIpAddr := parseDotted
  address url := if url.host = some "[::1]" then some (.v6 1) else none
  showIpv6 _ := "::1"
  host_v4 {s url a b c d} _ ha := by
    split at ha <;> exact nomatch ha
  host_v6 {s url ip} _ ha := by
    split at ha
    case isTrue hh => exact hh
    case isFalse => exact nomatch ha
  parseIpAddr_dotted := parseDotted_dotted
  parseIpAddr_bracketed {text} := by
    refine if_neg ?_
    simp [IpAddr.bracketed]

theorem not_blocksInternal_loopback :
    let _ := loopbackHosts
    ¬BlocksInternal "https://[::1]" defaultSettings := by
  intro _ hb
  have hbase : normalizeBaseUrl "https://[::1]" defaultSettings = .ok "https://[::1]" := by decide +kernel
  exact hb loopbackUrl _ (.v6 1) rfl hbase (by decide) (by decide) rfl (by decide)

end Loopback

end Federation

end LabInventory
