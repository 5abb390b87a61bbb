import LabInventory.Federation.Borrowing.Basic
import LabInventory.Federation.Signature
import LabInventory.Library.WebUrl

open Sql

namespace LabInventory

-- The forms of identifiers that the crate `uuid` reads are made of few characters.
class UuidTexts extends UuidFormat where
  parseUuid_chars {s u} : parseUuid s = some u →
    s.toList.all fun c => c.isAlphanum || c = '-' || c = ':' || c = '{' || c = '}'

-- How hosts are read, and URLs that do not belong to web servers.
class WebAddresses extends WebUrl.Authorities where
  parseIpAddr : String → Option IpAddr
  parseOther : String → Option Url
  parseOther_scheme {s url} : parseOther s = some url → url.scheme ≠ "http" ∧ url.scheme ≠ "https"

def Url.ofWeb [WebUrl.Authorities] (url : WebUrl.Url) : Url where
  scheme := .ofList url.origin.scheme
  username := .ofList url.origin.username
  password := url.origin.password.map .ofList
  host := some (.ofList url.origin.host)
  port := url.origin.port
  path := .ofList url.path
  text := .ofList (WebUrl.renderOrigin url.origin ++ url.path)

instance [WebAddresses] : Addresses where
  parseUrl s := match WebUrl.parse s.toList with
    | some url => some (.ofWeb url)
    | none => WebAddresses.parseOther s
  parseIpAddr := WebAddresses.parseIpAddr

namespace Federation

-- `str::trim_matches('/')`
def trimSlashes (s : List Char) : List Char :=
  (s.dropWhile (· = '/')).rdropWhile (· = '/')

def inboundPrefix : String :=
  "/api/v1/federation/inbound/laboratories/"

def buildRemoteUrl [UuidFormat] [WebUrl.Authorities] (baseUrl : String) (remoteLaboratoryId : Uuid)
    (tail queryString : String) : Option WebUrl.Url :=
  let url := (trimEndSlashes baseUrl).toList ++ inboundPrefix.toList ++
    (UuidFormat.showUuid remoteLaboratoryId).toList
  let tail := trimSlashes tail.toList
  let url := if tail = [] then url else url ++ '/' :: tail
  let url := if queryString = "" then url else url ++ '?' :: queryString.toList
  WebUrl.parse url

-- What is signed, and what the request is sent for.
def pathAndQuery (url : WebUrl.Url) : Option PathAndQuery :=
  let text := url.path ++ url.query.elim [] ('?' :: ·)
  if h : text.all (' ' < ·) then
    some ⟨.ofList text, by simpa using h⟩
  else
    none

inductive FederationReadTarget
  | laboratory
  | assets
  | asset (assetId : Uuid)
  | assetAttachments (assetId : Uuid)
  | assetCategories
  | assetCategory (categoryId : Uuid)
  | assetParameters
  | assetParameter (parameterId : Uuid)
  | inventoryItems
  | inventoryItem (itemId : Uuid)
  | inventoryItemAttachments (itemId : Uuid)
  | locations
  | location (locationId : Uuid)
  | units
  | unit (unitId : Uuid)
  | attachments
  | attachment (attachmentId : Uuid)
  | attachmentDownload (attachmentId : Uuid)
deriving DecidableEq

def routeNotFound : ApiError :=
  .notFound "Federation route not found"

def parseUuid [UuidFormat] (value : String) : Except ApiError Uuid :=
  match UuidFormat.parseUuid value with
  | some id => .ok id
  | none => .error routeNotFound

def parseReadTarget [UuidFormat] (tail : String) : Except ApiError FederationReadTarget :=
  match pathParts tail with
  | [] => .ok .laboratory
  | ["assets"] => .ok .assets
  | ["assets", assetId] => .asset <$> parseUuid assetId
  | ["assets", assetId, "attachments"] => .assetAttachments <$> parseUuid assetId
  | ["inventory-items"] => .ok .inventoryItems
  | ["inventory-items", itemId] => .inventoryItem <$> parseUuid itemId
  | ["inventory-items", itemId, "attachments"] => .inventoryItemAttachments <$> parseUuid itemId
  | ["asset-categories"] => .ok .assetCategories
  | ["asset-categories", categoryId] => .assetCategory <$> parseUuid categoryId
  | ["asset-parameters"] => .ok .assetParameters
  | ["asset-parameters", parameterId] => .assetParameter <$> parseUuid parameterId
  | ["locations"] => .ok .locations
  | ["locations", locationId] => .location <$> parseUuid locationId
  | ["units"] => .ok .units
  | ["units", unitId] => .unit <$> parseUuid unitId
  | ["attachments"] => .ok .attachments
  | ["attachments", attachmentId] => .attachment <$> parseUuid attachmentId
  | ["attachments", attachmentId, "download"] => .attachmentDownload <$> parseUuid attachmentId
  | _ => .error routeNotFound

-- The checks of `proxy_get` and `proxy_post`.
def checkTail [UuidFormat] (method : Method) (tail : String) : Except ApiError Unit :=
  match method with
  | .get => do
    if (parseBorrowTarget .get tail).isNone then
      discard <| parseReadTarget tail
  | .post => .check (parseBorrowTarget .post tail).isSome routeNotFound

-- What `handle_inbound` answers with. Only reads fall through to the second parser.
def resolveTarget [UuidFormat] (method : Method) (tail : String) :
    Except ApiError (FederationBorrowTarget ⊕ FederationReadTarget) :=
  match parseBorrowTarget method tail, method with
  | some target, _ => .ok (.inl target)
  | none, .get => .inr <$> parseReadTarget tail
  | none, .post => .error routeNotFound

structure InboundPath where
  laboratoryId : Uuid
  tail : String

def decodeText (s : List Char) : Option String :=
  String.fromUTF8? (WebUrl.percentDecode s).toByteArray

-- Matches the path with the routes below `inboundPrefix`, and decodes what they take from it. Only
-- reads have a route without a tail.
def routeInbound [UuidFormat] (method : Method) (path : List Char) : Option InboundPath := do
  let rest ← inboundPrefix.toList.isPrefixOf? path
  let laboratoryId ← UuidFormat.parseUuid (← decodeText (rest.takeWhile (· ≠ '/')))
  match rest.dropWhile (· ≠ '/'), method with
  | _ :: tail, _ => return ⟨laboratoryId, ← decodeText tail⟩
  | [], .get => return ⟨laboratoryId, ""⟩
  | [], .post => none

-- The path and the query of a request as it is received.
def splitTarget (target : PathAndQuery) : List Char × Option (List Char) :=
  let text := target.asStr.toList
  (text.takeWhile (· ≠ '?'), match text.dropWhile (· ≠ '?') with
    | _ :: query => some query
    | [] => none)

theorem decodeText_percentEncode {set : Char → Bool} {s : List Char} (h : ¬ '%' ∈ s) :
    decodeText (WebUrl.percentEncode set s) = some (.ofList s) := by
  have hp : WebUrl.percentDecode (WebUrl.percentEncode set s) = s.flatMap String.utf8EncodeChar :=
    WebUrl.percentDecode_percentEncode fun c hc he => absurd (he ▸ hc) h
  have hv : s.utf8Encode.IsValidUTF8 := ByteArray.isValidUTF8_utf8Encode
  have hs : String.fromUTF8 s.utf8Encode hv = .ofList s :=
    String.toByteArray_inj.mp String.toByteArray_ofList.symm
  rw [decodeText, hp]
  exact (dif_pos hv).trans (congrArg some hs)

section Base

variable [WebAddresses] {settings : FederationSettings} {url : Url} {input base : String}

theorem scheme_of_validateRemoteUrl (h : validateRemoteUrl url settings = .ok ()) :
    url.scheme = "http" ∨ url.scheme = "https" := by
  unfold validateRemoteUrl at h
  by_cases hs : url.scheme = "http"
  case pos => exact Or.inl hs
  case neg =>
    simp only [if_neg hs, Except.bind_eq_ok, Except.check_eq_ok] at h
    obtain ⟨_, h, -⟩ := h
    exact Or.inr h

-- An accepted base URL is rendered as its origin alone.
theorem origin_of_normalizeBaseUrl (h : normalizeBaseUrl input settings = .ok base) :
    ∃ scheme ∈ WebUrl.webSchemes, ∃ authority origin,
      WebUrl.Authorities.parse scheme authority = some origin ∧
      (∃ url, WebUrl.parse input.toList = some url ∧ url.origin = origin) ∧
      base.toList = WebUrl.renderOrigin origin := by
  simp only [normalizeBaseUrl] at h
  cases hu : Addresses.parseUrl input
  case none =>
    rw [hu] at h
    exact absurd h Except.throw_ne_ok
  case some url =>
    simp only [hu, Except.bind_eq_ok, Except.check_eq_ok, Except.pure_eq_ok] at h
    obtain ⟨⟨⟩, hv, -, hpath, rfl⟩ := h
    cases hw : WebUrl.parse input.toList
    case none =>
      simp only [Addresses.parseUrl, hw] at hu
      obtain ⟨h₁, h₂⟩ := WebAddresses.parseOther_scheme hu
      exact ((scheme_of_validateRemoteUrl hv).elim h₁ h₂).elim
    case some web =>
      simp only [Addresses.parseUrl, hw, Option.some.injEq] at hu
      obtain ⟨scheme, hs, authority, ho⟩ := WebUrl.parse_eq_some hw
      refine ⟨scheme, hs, authority, web.origin, ho, ⟨web, rfl, rfl⟩, ?_⟩
      have hp : web.path = ['/'] ∨ web.path = [] := by
        rw [← hu] at hpath
        simpa [Url.ofWeb, ← String.toList_inj] using hpath
      have hend : (WebUrl.renderOrigin web.origin).rdropWhile (· = '/') =
          WebUrl.renderOrigin web.origin := WebUrl.renderOrigin_no_slash ho
      rw [← hu, Url.ofWeb, trimEndSlashes, String.toList_ofList, String.toList_ofList]
      obtain hp | hp := hp
      case inl => rw [hp, List.rdropWhile_concat_pos _ _ _ (by decide), hend]
      case inr => rw [hp, List.append_nil, hend]

end Base

section Tails

variable {tail : String} {s t : List Char}

def partsOf (s : List Char) : List (List Char) :=
  (s.splitOn '/').filter (· ≠ [])

theorem partsOf_append : partsOf (s ++ '/' :: t) = partsOf s ++ partsOf t := by
  have hs : (s ++ '/' :: t).splitOn '/' = s.splitOn '/' ++ t.splitOn '/' :=
    List.splitOn_append_cons_self s t
  rw [partsOf, hs, List.filter_append]
  rfl

-- Slashes around a path do not count.
theorem partsOf_trimSlashes : partsOf (trimSlashes s) = partsOf s := by
  have hd : partsOf (s.dropWhile (· = '/')) = partsOf s := by
    induction s
    case nil => rfl
    case cons c s ih =>
      by_cases hc : c = '/'
      case pos =>
        have ha := partsOf_append (s := []) (t := s)
        rw [List.dropWhile_cons_of_pos (by simp [hc]), ih, hc]
        exact ha.symm
      case neg => rw [List.dropWhile_cons_of_neg (by simp [hc])]
  have hr {s : List Char} : partsOf (s.rdropWhile (· = '/')) = partsOf s := by
    induction s using List.reverseRecOn
    case nil => rfl
    case append_singleton s c ih =>
      by_cases hc : c = '/'
      case pos =>
        have ha := partsOf_append (s := s) (t := [])
        rw [List.rdropWhile_concat_pos _ _ _ (by simp [hc]), ih, hc, ha]
        exact (List.append_nil _).symm
      case neg => rw [List.rdropWhile_concat_neg _ _ _ (by simp [hc])]
  rw [trimSlashes, hr, hd]

theorem pathParts_trimSlashes : pathParts (.ofList (trimSlashes tail.toList)) = pathParts tail := by
  have hp := partsOf_trimSlashes (s := tail.toList)
  unfold partsOf at hp
  rw [pathParts, pathParts, String.toList_ofList, hp]

variable [UuidFormat] {method : Method} {tail' : String}
  {target : FederationBorrowTarget ⊕ FederationReadTarget}

theorem resolveTarget_congr (h : pathParts tail' = pathParts tail) :
    resolveTarget method tail' = resolveTarget method tail := by
  unfold resolveTarget parseBorrowTarget parseReadTarget
  rw [h]

-- What the proxy lets through is answered, writes by writes and reads by reads.
theorem resolveTarget_of_checkTail (h : checkTail method tail = .ok ()) :
    ∃ target, resolveTarget method tail = .ok target := by
  unfold checkTail at h
  unfold resolveTarget
  cases method
  case get =>
    cases hb : parseBorrowTarget .get tail
    case none =>
      rw [hb] at h
      obtain ⟨target, hr, -⟩ := Except.map_eq_ok.mp h
      exact ⟨.inr target, by simp [hr]⟩
    case some target => exact ⟨.inl target, rfl⟩
  case post =>
    obtain ⟨target, hb⟩ := Option.isSome_iff_exists.mp (Except.check_eq_ok.mp h)
    rw [hb]
    exact ⟨.inl target, rfl⟩

theorem write_of_post (h : resolveTarget .post tail = .ok target) :
    ∃ t, target = .inl t ∧ t ≠ .listMine := by
  unfold resolveTarget at h
  split at h
  case h_1 t hb =>
    refine ⟨t, (Except.ok.inj h).symm, ?_⟩
    rintro rfl
    unfold parseBorrowTarget at hb
    split at hb <;> simp_all
  case h_2 hm => exact nomatch hm
  case h_3 => exact nomatch h

theorem read_of_get (h : resolveTarget .get tail = .ok target) :
    target = .inl .listMine ∨ ∃ t, target = .inr t := by
  unfold resolveTarget at h
  split at h
  case h_1 t hb =>
    refine Or.inl ?_
    obtain rfl := Except.ok.inj h
    unfold parseBorrowTarget at hb
    split at hb <;> simp_all
  case h_2 =>
    obtain ⟨t, -, rfl⟩ := Except.map_eq_ok.mp h
    exact Or.inr ⟨t, rfl⟩
  case h_3 hm => exact nomatch hm

end Tails

section Characters

-- The characters of the parts of a path that are answered.
def isPartChar (c : Char) : Bool :=
  c.isAlphanum || c = '-' || c = ':' || c = '{' || c = '}'

variable [UuidTexts] {method : Method} {tail part : String}
  {target : FederationBorrowTarget ⊕ FederationReadTarget}

theorem partChars_of_parseUuid {id : Uuid} (h : parseUuid part = .ok id) :
    part.toList.all isPartChar := by
  unfold parseUuid at h
  split at h
  case h_1 hp => exact UuidTexts.parseUuid_chars hp
  case h_2 => exact nomatch h

theorem partChars_of_parseBorrowTarget {target : FederationBorrowTarget}
    (h : parseBorrowTarget method tail = some target) :
    (pathParts tail).all fun part => part.toList.all isPartChar := by
  have hu {id : String} {f : Uuid → FederationBorrowTarget}
      (h : (UuidFormat.parseUuid id).map f = some target) : id.toList.all isPartChar := by
    obtain ⟨_, hp, -⟩ := Option.map_eq_some_iff.mp h
    exact UuidTexts.parseUuid_chars hp
  unfold parseBorrowTarget at h
  split at h
  case h_1 hp =>
    rw [hp]
    decide
  case h_2 id hp =>
    rw [hp, List.all_cons, List.all_cons, hu h]
    decide
  case h_3 id hp =>
    rw [hp, List.all_cons, List.all_cons, hu h]
    decide
  case h_4 => exact nomatch h

theorem partChars_of_parseReadTarget {target : FederationReadTarget}
    (h : parseReadTarget tail = .ok target) :
    (pathParts tail).all fun part => part.toList.all isPartChar := by
  have hu {id : String} {f : Uuid → FederationReadTarget} (h : f <$> parseUuid id = .ok target) :
      id.toList.all isPartChar := by
    obtain ⟨_, hp, -⟩ := Except.map_eq_ok.mp h
    exact partChars_of_parseUuid hp
  unfold parseReadTarget at h
  split at h
  case h_1 hp | h_2 hp | h_5 hp | h_8 hp | h_10 hp | h_12 hp | h_14 hp | h_16 hp =>
    rw [hp]
    decide
  case h_3 hp | h_4 hp | h_6 hp | h_7 hp | h_9 hp | h_11 hp | h_13 hp | h_15 hp | h_17 hp | h_18 hp =>
    rw [hp, List.all_cons, List.all_cons, hu h]
    decide
  case h_19 => exact nomatch h

theorem partChars_of_resolveTarget (h : resolveTarget method tail = .ok target) :
    (pathParts tail).all fun part => part.toList.all isPartChar := by
  unfold resolveTarget at h
  split at h
  case h_1 t hb => exact partChars_of_parseBorrowTarget hb
  case h_2 =>
    obtain ⟨t, hr, -⟩ := Except.map_eq_ok.mp h
    exact partChars_of_parseReadTarget hr
  case h_3 => exact nomatch h

-- Every character of a path is part of a part of it.
theorem chars_of_resolveTarget (h : resolveTarget method tail = .ok target) {c : Char}
    (hc : c ∈ trimSlashes tail.toList) : isPartChar c ∨ c = '/' := by
  by_cases hs : c = '/'
  case pos => exact Or.inr hs
  case neg =>
    have hi : c ∈ ['/'].intercalate ((trimSlashes tail.toList).splitOn '/') := by
      rwa [List.intercalate_splitOn]
    obtain ⟨segment, hm, hcs⟩ := Text.mem_of_mem_intercalate hi hs
    have hpart : String.ofList segment ∈ pathParts tail := by
      rw [← pathParts_trimSlashes, pathParts, String.toList_ofList]
      refine List.mem_map_of_mem (List.mem_filter.mpr ⟨hm, ?_⟩)
      exact decide_eq_true (List.ne_nil_of_mem hcs)
    have hall := List.all_eq_true.mp (partChars_of_resolveTarget h) _ hpart
    rw [String.toList_ofList] at hall
    exact Or.inl <| List.all_eq_true.mp hall c hcs

omit [UuidTexts] in
-- Such characters mean nothing to the reader of a URL.
theorem plain_of_partChar {c : Char} (h : isPartChar c ∨ c = '/') :
    (¬WebUrl.isBlank c ∧ WebUrl.isPathChar c) ∧ c ≠ '.' ∧ c ≠ '%' ∧ c ≠ '\\' := by
  have hc : (65 ≤ c.toNat ∧ c.toNat ≤ 90) ∨ (97 ≤ c.toNat ∧ c.toNat ≤ 122) ∨
      (48 ≤ c.toNat ∧ c.toNat ≤ 57) ∨ c.toNat = 45 ∨ c.toNat = 58 ∨ c.toNat = 123 ∨ c.toNat = 125 ∨
      c.toNat = 47 := by
    simp only [isPartChar, Bool.or_eq_true, Text.isAlphanum_iff, decide_eq_true_eq, ← Char.toNat_inj,
      or_assoc] at h
    exact h
  simp only [WebUrl.isBlank, WebUrl.isPathChar, Bool.and_eq_true, decide_eq_true_eq, ne_eq,
    ← Char.toNat_inj]
  have hv : '?'.toNat = 63 ∧ '#'.toNat = 35 ∧ '.'.toNat = 46 ∧ '%'.toNat = 37 ∧ '\\'.toNat = 92 :=
    ⟨rfl, rfl, rfl, rfl, rfl⟩
  omega

end Characters

section Forwarding

def segmentsOf (tail : String) : List (List Char) :=
  let tail := trimSlashes tail.toList
  if tail = [] then [] else tail.splitOn '/'

-- The path that is asked for, before it is encoded.
def forwardedPath [UuidFormat] (remoteLaboratoryId : Uuid) (tail : String) : List Char :=
  inboundPrefix.toList ++ (UuidFormat.showUuid remoteLaboratoryId).toList ++
    (let tail := trimSlashes tail.toList
    if tail = [] then [] else '/' :: tail)

variable [UuidTexts] [WebUrl.Authorities] {method : Method} {tail query base : String}
  {target : FederationBorrowTarget ⊕ FederationReadTarget} {id : Uuid} {scheme s : List Char}
  {origin : WebUrl.Origin} {c : Char}

omit [WebUrl.Authorities] in
theorem showUuid_partChar (h : c ∈ (UuidFormat.showUuid id).toList) : isPartChar c := by
  have hd : Hex.digits.all isPartChar := by decide
  obtain h | rfl := UuidFormat.showUuid_chars c h
  case inl => exact List.all_eq_true.mp hd c h
  case inr => rfl

omit [WebUrl.Authorities] in
theorem forwardedPath_chars (h : resolveTarget method tail = .ok target)
    (hc : c ∈ forwardedPath id tail) : isPartChar c ∨ c = '/' := by
  have hprefix : inboundPrefix.toList.all fun c => isPartChar c || c = '/' := by decide
  rw [forwardedPath, List.mem_append, List.mem_append] at hc
  obtain (hc | hc) | hc := hc
  case inl.inl => simpa using List.all_eq_true.mp hprefix c hc
  case inl.inr => exact Or.inl (showUuid_partChar hc)
  case inr =>
    dsimp only at hc
    split at hc
    case isTrue => exact nomatch hc
    case isFalse =>
      obtain rfl | hc := List.mem_cons.mp hc
      case inl => exact Or.inr rfl
      case inr => exact chars_of_resolveTarget h hc

theorem buildRemoteUrl_eq (ho : WebUrl.Authorities.parse scheme s = some origin)
    (hs : scheme ∈ WebUrl.webSchemes) (hb : base.toList = WebUrl.renderOrigin origin)
    (h : resolveTarget method tail = .ok target) :
    buildRemoteUrl base id tail query = some ⟨origin,
      WebUrl.percentEncode WebUrl.pathSet (forwardedPath id tail),
      (if query = "" then none else some query.toList).map fun query =>
        WebUrl.percentEncode WebUrl.specialQuerySet ((WebUrl.cleanEnd query).takeWhile (· ≠ '#'))⟩ := by
  have hbase : (trimEndSlashes base).toList = WebUrl.renderOrigin origin := by
    rw [trimEndSlashes, String.toList_ofList, hb, WebUrl.renderOrigin_no_slash ho]
  have hplain : ∀ c ∈ forwardedPath id tail, (¬WebUrl.isBlank c ∧ WebUrl.isPathChar c) ∧
      c ≠ '.' ∧ c ≠ '%' ∧ c ≠ '\\' := fun c hc => plain_of_partChar (forwardedPath_chars h hc)
  obtain ⟨path, hpath⟩ : ∃ path, forwardedPath id tail = '/' :: path := ⟨_, rfl⟩
  have hparse : WebUrl.parsePath (forwardedPath id tail) =
      WebUrl.percentEncode WebUrl.pathSet (forwardedPath id tail) := by
    rw [hpath] at hplain ⊢
    exact WebUrl.parsePath_eq fun c hc => (hplain c (List.mem_cons_of_mem _ hc)).right
  have hfirst : ∀ c ∈ (forwardedPath id tail).head?, c = '/' := by
    rw [hpath]
    exact fun c hc => (Option.some.inj hc).symm
  have happend : WebUrl.parse (WebUrl.renderOrigin origin ++ (forwardedPath id tail ++
      (if query = "" then none else some query.toList).elim [] ('?' :: ·))) = _ :=
    WebUrl.parse_append ho hs (fun c hc => (hplain c hc).left) hfirst
  rw [hparse] at happend
  rw [← happend, buildRemoteUrl, hbase, forwardedPath]
  by_cases hq : query = "" <;> by_cases ht : trimSlashes tail.toList = [] <;> simp [hq, ht]

section Forwarded

variable {url : WebUrl.Url}

omit [WebUrl.Authorities] in
theorem mem_forwarded (h : resolveTarget method tail = .ok target)
    (hc : c ∈ WebUrl.percentEncode WebUrl.pathSet (forwardedPath id tail)) : c ≠ '?' := by
  have hall : ('%' :: WebUrl.hexDigits).all (· ≠ '?') := by decide
  obtain rfl | hc | ⟨hc, -⟩ := WebUrl.mem_percentEncode hc
  case inl => decide
  case inr.inl => exact of_decide_eq_true <| List.all_eq_true.mp hall c (List.mem_cons_of_mem _ hc)
  case inr.inr =>
    have hp := (plain_of_partChar (forwardedPath_chars h hc)).left.right
    simp only [WebUrl.isPathChar, Bool.and_eq_true, decide_eq_true_eq] at hp
    exact hp.left

-- The receiver sees the path and the query of the URL.
omit [WebUrl.Authorities] in
theorem splitTarget_pathAndQuery (h : resolveTarget method tail = .ok target)
    (hp : url.path = WebUrl.percentEncode WebUrl.pathSet (forwardedPath id tail))
    (hq : ∀ text ∈ url.query, text.all (' ' < ·)) :
    ∃ p, pathAndQuery url = some p ∧ splitTarget p = (url.path, url.query) := by
  have hpath : url.path.all (' ' < ·) := by
    rw [hp]
    exact WebUrl.visible_percentEncode fun c hc => by simp [WebUrl.pathSet, WebUrl.querySet, hc]
  have hvisible : (url.path ++ url.query.elim [] ('?' :: ·)).all (' ' < ·) := by
    rw [List.all_append, hpath]
    cases hu : url.query
    case none => rfl
    case some text =>
      rw [Option.elim_some, List.all_cons, hq text hu]
      decide
  have hne : ∀ c ∈ url.path, decide (c ≠ '?') :=
    fun c hc => decide_eq_true <| mem_forwarded h (hp ▸ hc)
  have hstop : ∀ c ∈ (url.query.elim [] ('?' :: ·)).head?, decide (c ≠ '?') = false := by
    cases url.query
    case none => exact nofun
    case some text => exact fun c hc => Option.some.inj hc ▸ rfl
  refine ⟨_, dif_pos hvisible, ?_⟩
  simp only [splitTarget, String.toList_ofList, WebUrl.takeWhile_append hne hstop,
    WebUrl.dropWhile_append hne hstop]
  cases url.query
  case none => rfl
  case some text => rfl

omit [WebUrl.Authorities] in
theorem showUuid_plain : ∀ c ∈ (UuidFormat.showUuid id).toList,
    c ≠ '/' ∧ c ≠ '%' ∧ ¬WebUrl.pathSet c := by
  have hd : ('-' :: Hex.digits).all fun c => c ≠ '/' && c ≠ '%' && !WebUrl.pathSet c := by decide
  intro c hc
  have hm : c ∈ '-' :: Hex.digits := List.mem_cons.mpr (UuidFormat.showUuid_chars c hc).symm
  simpa [and_assoc] using List.all_eq_true.mp hd c hm

omit [WebUrl.Authorities] in
theorem percentEncode_showUuid : WebUrl.percentEncode WebUrl.pathSet (UuidFormat.showUuid id).toList =
    (UuidFormat.showUuid id).toList :=
  WebUrl.percentEncode_eq_self fun c hc => (showUuid_plain c hc).right.right

omit [WebUrl.Authorities] in
-- Only the tail needs to be encoded.
theorem percentEncode_forwardedPath : WebUrl.percentEncode WebUrl.pathSet (forwardedPath id tail) =
    inboundPrefix.toList ++ ((UuidFormat.showUuid id).toList ++
      if trimSlashes tail.toList = [] then [] else
        '/' :: WebUrl.percentEncode WebUrl.pathSet (trimSlashes tail.toList)) := by
  have hprefix : WebUrl.percentEncode WebUrl.pathSet inboundPrefix.toList = inboundPrefix.toList := by
    decide
  rw [forwardedPath, WebUrl.percentEncode_append, WebUrl.percentEncode_append, hprefix,
    percentEncode_showUuid, List.append_assoc]
  by_cases ht : trimSlashes tail.toList = []
  case pos => simp only [if_pos ht]; rfl
  case neg => simp only [if_neg ht]; rfl

omit [WebUrl.Authorities] in
theorem routeInbound_forwarded (h : resolveTarget method tail = .ok target) :
    routeInbound method (WebUrl.percentEncode WebUrl.pathSet (forwardedPath id tail)) =
      some ⟨id, .ofList (trimSlashes tail.toList)⟩ := by
  have hdecode : decodeText (UuidFormat.showUuid id).toList = some (UuidFormat.showUuid id) := by
    have hd : decodeText (WebUrl.percentEncode WebUrl.pathSet (UuidFormat.showUuid id).toList) =
        some (.ofList (UuidFormat.showUuid id).toList) :=
      decodeText_percentEncode fun hm => (showUuid_plain '%' hm).right.left rfl
    rwa [percentEncode_showUuid, String.ofList_toList] at hd
  have hslash : ∀ c ∈ (UuidFormat.showUuid id).toList, decide (c ≠ '/') :=
    fun c hc => decide_eq_true (showUuid_plain c hc).left
  have hstop : ∀ c ∈ (if trimSlashes tail.toList = [] then [] else
      '/' :: WebUrl.percentEncode WebUrl.pathSet (trimSlashes tail.toList)).head?,
      decide (c ≠ '/') = false := by
    split
    case isTrue => exact nofun
    case isFalse => exact fun c hc => Option.some.inj hc ▸ rfl
  rw [percentEncode_forwardedPath, routeInbound, Text.isPrefixOf?_eq_some.mpr rfl]
  simp only [Option.bind_eq_bind, Option.bind_some, WebUrl.takeWhile_append hslash hstop,
    WebUrl.dropWhile_append hslash hstop, hdecode, UuidFormat.parseUuid_showUuid]
  by_cases ht : trimSlashes tail.toList = []
  case pos =>
    have hget : method = .get := by
      cases method
      case get => rfl
      case post =>
        have hparts : pathParts tail = [] := by
          rw [← pathParts_trimSlashes, ht]
          rfl
        simp [resolveTarget, parseBorrowTarget, hparts] at h
    rw [if_pos ht, ht, hget]
    rfl
  case neg =>
    have htail : ¬ '%' ∈ trimSlashes tail.toList := fun hm =>
      (plain_of_partChar (chars_of_resolveTarget h hm)).right.right.left rfl
    rw [if_neg ht]
    simp only [decodeText_percentEncode htail]
    rfl

end Forwarded

omit [UuidTexts] [WebUrl.Authorities] in
theorem flatMap_segmentsOf :
    (segmentsOf tail).flatMap (fun segment => '/' :: WebUrl.percentEncode WebUrl.pathSet segment) =
      if trimSlashes tail.toList = [] then [] else
        '/' :: WebUrl.percentEncode WebUrl.pathSet (trimSlashes tail.toList) := by
  unfold segmentsOf
  by_cases ht : trimSlashes tail.toList = []
  case pos => simp only [if_pos ht]; rfl
  case neg =>
    simp only [if_neg ht]
    rw [WebUrl.flatMap_slash (List.splitOn_ne_nil _ _), List.intercalate_splitOn]

end Forwarding

-- A request means the same at both ends.
theorem proxied_request [UuidTexts] [Cryptography] [WebAddresses] {settings : FederationSettings}
    {input base tail : String} {method : Method} (hb : normalizeBaseUrl input settings = .ok base)
    (h : checkTail method tail = .ok ()) (remoteLaboratoryId : Uuid) (query : String) :
    ∃ origin url target p, WebUrl.parse base.toList = some ⟨origin, ['/'], none⟩ ∧
      buildRemoteUrl base remoteLaboratoryId tail query = some url ∧ url.origin = origin ∧
      url.path = inboundPrefix.toList ++ (UuidFormat.showUuid remoteLaboratoryId).toList ++
        (segmentsOf tail).flatMap (fun segment => '/' :: WebUrl.percentEncode WebUrl.pathSet segment) ∧
      url.query = (if query = "" then none else some query.toList).map (fun query =>
        WebUrl.percentEncode WebUrl.specialQuerySet ((WebUrl.cleanEnd query).takeWhile (· ≠ '#'))) ∧
      resolveTarget method tail = .ok target ∧ pathAndQuery url = some p ∧
      (∀ body remoteNode identity now nonce,
        let request := signedRequest method p body remoteNode identity now nonce
        request.pathAndQuery = p ∧ splitTarget request.pathAndQuery = (url.path, url.query) ∧
        ∃ path, routeInbound request.method (splitTarget request.pathAndQuery).1 = some path ∧
          path.laboratoryId = remoteLaboratoryId ∧ resolveTarget request.method path.tail = .ok target) ∧
      (method = .post → ∃ t, target = .inl t ∧ t ≠ .listMine) ∧
      (method = .get → target = .inl .listMine ∨ ∃ t, target = .inr t) := by
  obtain ⟨scheme, hs, authority, origin, ho, -, hbase⟩ := origin_of_normalizeBaseUrl hb
  obtain ⟨target, htarget⟩ := resolveTarget_of_checkTail h
  have horigin : WebUrl.parse base.toList = some ⟨origin, ['/'], none⟩ := by
    have hparse : WebUrl.parse (WebUrl.renderOrigin origin ++ ([] ++ none.elim [] ('?' :: ·))) = _ :=
      WebUrl.parse_append ho hs nofun nofun
    rwa [Option.elim_none, List.append_nil, List.append_nil, ← hbase] at hparse
  let url : WebUrl.Url := ⟨origin,
    WebUrl.percentEncode WebUrl.pathSet (forwardedPath remoteLaboratoryId tail),
    (if query = "" then none else some query.toList).map fun query =>
      WebUrl.percentEncode WebUrl.specialQuerySet ((WebUrl.cleanEnd query).takeWhile (· ≠ '#'))⟩
  have hquery : ∀ text ∈ url.query, text.all (' ' < ·) := by
    intro text ht
    obtain ⟨query, -, rfl⟩ := Option.map_eq_some_iff.mp ht
    exact WebUrl.visible_percentEncode fun c hc => by
      simp [WebUrl.specialQuerySet, WebUrl.querySet, hc]
  obtain ⟨p, hp, hsplit⟩ := splitTarget_pathAndQuery htarget rfl hquery
  refine ⟨origin, url, target, p, horigin, buildRemoteUrl_eq ho hs hbase htarget, rfl, ?_, rfl, htarget,
    hp, ?_, ?_, ?_⟩
  case refine_1 =>
    rw [flatMap_segmentsOf, List.append_assoc]
    exact percentEncode_forwardedPath
  case refine_2 =>
    intro body remoteNode identity now nonce
    refine ⟨rfl, hsplit, ⟨remoteLaboratoryId, .ofList (trimSlashes tail.toList)⟩, ?_, rfl, ?_⟩
    case refine_1 =>
      have hpath : (splitTarget p).1 = url.path := congrArg Prod.fst hsplit
      exact hpath ▸ routeInbound_forwarded htarget
    case refine_2 => exact (resolveTarget_congr pathParts_trimSlashes).trans htarget
  case refine_3 => exact fun hm => write_of_post (hm ▸ htarget)
  case refine_4 => exact fun hm => read_of_get (hm ▸ htarget)

section Partner

@[reducible]
def hyphenatedTexts : UuidTexts where
  __ := hyphenated
  parseUuid_chars {s u} h := by
    have hs : showHyphenated u = s := by
      unfold hyphenated parseHyphenated at h
      dsimp only at h
      split at h
      case isTrue he => exact Option.some.inj h ▸ he
      case isFalse => exact nomatch h
    have hd : ('-' :: Hex.digits).all isPartChar := by decide
    refine List.all_eq_true.mpr fun c hc => List.all_eq_true.mp hd c ?_
    obtain h | rfl := mem_hyphenate (by simpa [← hs, showHyphenated] using hc)
    case inl => exact List.mem_cons_of_mem _ (Hex.mem_toDigits h)
    case inr => exact List.mem_cons_self

-- There is a single host.
@[reducible]
def partnerAddresses : WebAddresses where
  parse scheme authority :=
    if authority = "partner.example".toList then some ⟨scheme, [], none, authority, none⟩ else none
  render origin := "partner.example".toList
  scheme_parse {scheme s origin} h := by
    split at h
    case isTrue => exact Option.some.inj h ▸ rfl
    case isFalse => exact nomatch h
  parse_render {scheme s origin} h := by
    split at h
    case isTrue hs => rw [if_pos rfl, ← h, hs]
    case isFalse => exact nomatch h
  render_ne_nil _ := by decide
  render_chars _ := by decide
  parseIpAddr _ := none
  parseOther _ := none
  parseOther_scheme := nofun

theorem proxied_request_partner :
    let _ := partnerAddresses
    let _ := hyphenatedTexts
    let _ := Cryptography.standard
    ∃ url p, buildRemoteUrl "https://partner.example" 6
        "assets//00000000-0000-0000-0000-000000000007/" "include=all" = some url ∧
      pathAndQuery url = some p ∧
      ∃ path, routeInbound .get (splitTarget p).1 = some path ∧ path.laboratoryId = 6 ∧
        ∃ target, resolveTarget .get path.tail = .ok target := by
  let _ := partnerAddresses
  let _ := hyphenatedTexts
  let _ := Cryptography.standard
  have hb : normalizeBaseUrl " https:partner.example?x" defaultSettings = .ok "https://partner.example" := by
    decide +kernel
  have hc : checkTail .get "assets//00000000-0000-0000-0000-000000000007/" = .ok () := by
    decide +kernel
  obtain ⟨origin, url, target, p, -, hurl, -, -, -, -, hp, hreceive, -⟩ :=
    proxied_request hb hc 6 "include=all"
  obtain ⟨-, -, path, hroute, hid, htarget⟩ := hreceive [] partnerNode ⟨1, 2, 3, "", ""⟩ 0 ""
  exact ⟨url, p, hurl, hp, path, hroute, hid, target, htarget⟩

end Partner

end Federation

end LabInventory
