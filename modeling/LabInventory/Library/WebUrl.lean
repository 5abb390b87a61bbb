import Mathlib.Data.List.Basic
import Mathlib.Data.List.DropRight

-- URLs of web servers, as texts are read by the steps of the URL standard.
namespace WebUrl

abbrev Text := List Char

section Encoding

def querySet (c : Char) : Bool :=
  c.toNat ≤ 0x20 || 0x7E < c.toNat || c = '"' || c = '#' || c = '<' || c = '>'

def specialQuerySet (c : Char) : Bool :=
  querySet c || c = '\''

def pathSet (c : Char) : Bool :=
  querySet c || c = '?' || c = '^' || c.toNat = 0x60 || c = '{' || c = '}'

def hexDigits : Text :=
  "0123456789ABCDEF".toList

def encodeByte (b : UInt8) : Text :=
  ['%', hexDigits.getD (b.toNat / 16) '0', hexDigits.getD (b.toNat % 16) '0']

def percentEncode (set : Char → Bool) (s : Text) : Text :=
  s.flatMap fun c => if set c then (String.utf8EncodeChar c).flatMap encodeByte else [c]

def hexValue (c : Char) : Option Nat :=
  hexDigits.idxOf? c.toUpper

-- What is not an escape sequence stands for itself.
def percentDecode : Text → List UInt8
  | '%' :: c₁ :: c₂ :: s =>
    match hexValue c₁, hexValue c₂ with
    | some m, some n => .ofNat (16 * m + n) :: percentDecode s
    | _, _ => String.utf8EncodeChar '%' ++ percentDecode (c₁ :: c₂ :: s)
  | c :: s => String.utf8EncodeChar c ++ percentDecode s
  | [] => []

variable {set : Char → Bool} {s t : Text} {c : Char} {n : Nat}

theorem hexDigit_mem : hexDigits.getD n '0' ∈ hexDigits := by
  rw [List.getD_eq_getElem?_getD]
  cases h : hexDigits[n]?
  case none => decide
  case some => exact List.mem_of_getElem? h

theorem hexValue_hexDigit (h : n < 16) : hexValue (hexDigits.getD n '0') = some n := by
  have hd : (List.range 16).all fun n => hexValue (hexDigits.getD n '0') = some n := by decide
  exact of_decide_eq_true <| List.all_eq_true.mp hd n (List.mem_range.mpr h)

theorem percentDecode_encodeByte {b : UInt8} :
    percentDecode (encodeByte b ++ s) = b :: percentDecode s := by
  have hb : b.toNat < 256 := b.toNat_lt
  have hh : hexValue (hexDigits.getD (b.toNat / 16) '0') = some (b.toNat / 16) :=
    hexValue_hexDigit (by omega)
  have hl : hexValue (hexDigits.getD (b.toNat % 16) '0') = some (b.toNat % 16) :=
    hexValue_hexDigit (by omega)
  have hs : 16 * (b.toNat / 16) + b.toNat % 16 = b.toNat := by omega
  rw [encodeByte, List.cons_append, List.cons_append, List.cons_append, List.nil_append,
    percentDecode]
  simp only [hh, hl, hs, UInt8.ofNat_toNat]

theorem percentDecode_encodeBytes {bs : List UInt8} :
    percentDecode (bs.flatMap encodeByte ++ s) = bs ++ percentDecode s := by
  induction bs
  case nil => rfl
  case cons b bs ih =>
    rw [List.flatMap_cons, List.append_assoc, percentDecode_encodeByte, ih]
    rfl

theorem percentDecode_cons (h : c ≠ '%') :
    percentDecode (c :: s) = String.utf8EncodeChar c ++ percentDecode s := by
  rw [percentDecode]
  rintro c₁ c₂ s' hc -
  exact h hc

theorem percentDecode_percentEncode (h : ∀ c ∈ s, c = '%' → set c) :
    percentDecode (percentEncode set s) = s.flatMap String.utf8EncodeChar := by
  induction s
  case nil => rfl
  case cons c s ih =>
    have ih := ih fun c hc => h c (List.mem_cons_of_mem _ hc)
    rw [percentEncode] at ih ⊢
    rw [List.flatMap_cons, List.flatMap_cons]
    by_cases hc : set c
    case pos => rw [if_pos hc, percentDecode_encodeBytes, ih]
    case neg =>
      rw [if_neg hc, List.singleton_append, percentDecode_cons, ih]
      exact fun he => hc (h c List.mem_cons_self he)

theorem percentEncode_append :
    percentEncode set (s ++ t) = percentEncode set s ++ percentEncode set t :=
  List.flatMap_append

theorem percentEncode_eq_self (h : ∀ c ∈ s, ¬set c) : percentEncode set s = s := by
  induction s
  case nil => rfl
  case cons c s ih =>
    have ih := ih fun c hc => h c (List.mem_cons_of_mem _ hc)
    rw [percentEncode] at ih ⊢
    rw [List.flatMap_cons, if_neg (h c List.mem_cons_self), ih]
    rfl

theorem mem_percentEncode (h : c ∈ percentEncode set s) :
    c = '%' ∨ c ∈ hexDigits ∨ (c ∈ s ∧ ¬set c) := by
  obtain ⟨c', hm, hc⟩ := List.mem_flatMap.mp h
  by_cases hs : set c'
  case pos =>
    rw [if_pos hs] at hc
    obtain ⟨b, -, hb⟩ := List.mem_flatMap.mp hc
    simp only [encodeByte, List.mem_cons, List.not_mem_nil, or_false] at hb
    obtain rfl | rfl | rfl := hb
    case inl => exact Or.inl rfl
    case inr.inl => exact Or.inr (Or.inl hexDigit_mem)
    case inr.inr => exact Or.inr (Or.inl hexDigit_mem)
  case neg =>
    rw [if_neg hs] at hc
    obtain rfl := List.mem_singleton.mp hc
    exact Or.inr (Or.inr ⟨hm, hs⟩)

-- What is encoded can be sent.
theorem visible_percentEncode (h : ∀ c, c.toNat ≤ 0x20 → set c) :
    (percentEncode set s).all (' ' < ·) := by
  have hall : ('%' :: hexDigits).all (' ' < ·) := by decide
  refine List.all_eq_true.mpr fun c hc => ?_
  obtain rfl | hc | ⟨-, hs⟩ := mem_percentEncode hc
  case inl => rfl
  case inr.inl => exact List.all_eq_true.mp hall c (List.mem_cons_of_mem _ hc)
  case inr.inr =>
    have hn : ¬c.toNat ≤ 0x20 := fun hle => hs (h c hle)
    refine decide_eq_true <| UInt32.lt_iff_toNat_lt.mpr ?_
    exact Nat.not_le.mp hn

end Encoding

section Paths

def singleDots : List Text :=
  [".", "%2e", "%2E"].map String.toList

def doubleDots : List Text :=
  ["..", ".%2e", ".%2E", "%2e.", "%2E.", "%2e%2e", "%2e%2E", "%2E%2e", "%2E%2E"].map String.toList

-- A dot segment at the end leaves an empty one.
def pathState (path : List Text) : List Text → List Text
  | [] => path
  | [segment] =>
    if segment ∈ doubleDots then path.dropLast ++ [[]]
    else if segment ∈ singleDots then path ++ [[]]
    else path ++ [percentEncode pathSet segment]
  | segment :: segments =>
    if segment ∈ doubleDots then pathState path.dropLast segments
    else if segment ∈ singleDots then pathState path segments
    else pathState (path ++ [percentEncode pathSet segment]) segments

-- The path starts with a separator, unless it is missing.
def parsePath (s : Text) : Text :=
  let segments := (s.map fun c => if c = '\\' then '/' else c).tail.splitOn '/'
  (pathState [] segments).flatMap fun segment => '/' :: segment

def parseQuery : Text → Option Text
  | '?' :: s => some <| percentEncode specialQuerySet (s.takeWhile (· ≠ '#'))
  | _ => none

variable {s segment : Text} {segments path : List Text}

theorem not_dots (h : ∀ c ∈ segment, c ≠ '.' ∧ c ≠ '%') :
    ¬segment ∈ doubleDots ∧ ¬segment ∈ singleDots := by
  have hall : (doubleDots ++ singleDots).all fun s => s.any fun c => c = '.' || c = '%' := by decide
  rw [← not_or, ← List.mem_append]
  intro hs
  obtain ⟨c, hm, hd⟩ := List.any_eq_true.mp <| List.all_eq_true.mp hall segment hs
  obtain ⟨h₁, h₂⟩ := h c hm
  simp [h₁, h₂] at hd

theorem mem_intercalate {c : Char} (h : segment ∈ segments) (hc : c ∈ segment) :
    c ∈ ['/'].intercalate segments := by
  induction segments
  case nil => exact nomatch h
  case cons segment' segments ih =>
    by_cases hn : segments = []
    case pos =>
      rw [hn] at h ⊢
      rw [List.intercalate_singleton]
      exact List.mem_singleton.mp h ▸ hc
    case neg =>
      rw [List.intercalate_cons_of_ne_nil hn, List.mem_append, List.mem_append]
      obtain rfl | h := List.mem_cons.mp h
      case inl => exact Or.inl (Or.inl hc)
      case inr => exact Or.inr (ih h)

theorem pathState_eq (h : ∀ segment ∈ segments, ∀ c ∈ segment, c ≠ '.' ∧ c ≠ '%') :
    pathState path segments = path ++ segments.map (percentEncode pathSet) := by
  induction segments generalizing path
  case nil => exact (List.append_nil _).symm
  case cons segment segments ih =>
    obtain ⟨h₂, h₁⟩ := not_dots (h segment List.mem_cons_self)
    cases segments
    case nil => simp [pathState, h₁, h₂]
    case cons segment' segments =>
      rw [pathState, if_neg h₂, if_neg h₁, ih fun segment hm => h segment (List.mem_cons_of_mem _ hm)]
      · simp
      · exact nofun

theorem flatMap_slash (h : segments ≠ []) :
    segments.flatMap (fun segment => '/' :: percentEncode pathSet segment) =
      '/' :: percentEncode pathSet (['/'].intercalate segments) := by
  induction segments
  case nil => exact absurd rfl h
  case cons segment segments ih =>
    by_cases hn : segments = []
    case pos => simp [hn]
    case neg =>
      have hs : percentEncode pathSet ['/'] = ['/'] := rfl
      rw [List.flatMap_cons, ih hn, List.intercalate_cons_of_ne_nil hn, percentEncode_append,
        percentEncode_append, hs]
      simp

-- A path without dot segments keeps its segments.
theorem parsePath_eq (h : ∀ c ∈ s, c ≠ '.' ∧ c ≠ '%' ∧ c ≠ '\\') :
    parsePath ('/' :: s) = '/' :: percentEncode pathSet s := by
  have hm : s.map (fun c => if c = '\\' then '/' else c) = s :=
    (List.map_congr_left fun c hc => if_neg (h c hc).right.right).trans (List.map_id _)
  have hd : ∀ segment ∈ s.splitOn '/', ∀ c ∈ segment, c ≠ '.' ∧ c ≠ '%' := by
    intro segment hs c hc
    have hcs : c ∈ ['/'].intercalate (s.splitOn '/') := mem_intercalate hs hc
    rw [List.intercalate_splitOn] at hcs
    exact ⟨(h c hcs).left, (h c hcs).right.left⟩
  rw [parsePath, List.map_cons, List.tail_cons, hm, pathState_eq hd, List.nil_append,
    List.flatMap_map, flatMap_slash (List.splitOn_ne_nil _ _), List.intercalate_splitOn]

end Paths

structure Origin where
  scheme : Text
  username : Text
  password : Option Text
  host : Text
  port : Option Nat
deriving DecidableEq

def isBlank (c : Char) : Bool :=
  c.toNat ≤ 0x20

-- What ends the authority.
def isDelimiter (c : Char) : Bool :=
  c = '/' || c = '\\' || c = '?' || c = '#'

-- How authorities are read and rendered.
class Authorities where
  parse : (scheme authority : Text) → Option Origin
  render : Origin → Text
  scheme_parse {scheme s origin} : parse scheme s = some origin → origin.scheme = scheme
  parse_render {scheme s origin} : parse scheme s = some origin →
    parse scheme (render origin) = some origin
  render_ne_nil {scheme s origin} : parse scheme s = some origin → render origin ≠ []
  render_chars {scheme s origin} : parse scheme s = some origin → (render origin).all fun c => !isBlank c && !isDelimiter c

structure Url where
  origin : Origin
  path : Text
  query : Option Text
deriving DecidableEq

def webSchemes : List Text :=
  ["http", "https"].map String.toList

def cleanEnd (s : Text) : Text :=
  (s.rdropWhile isBlank).filter fun c => c ≠ '\t' && c ≠ '\n' && c ≠ '\r'

def isPathChar (c : Char) : Bool :=
  c ≠ '?' && c ≠ '#'

-- Any number of slashes may follow the scheme.
def parse [Authorities] (s : Text) : Option Url := do
  let s := cleanEnd (s.dropWhile isBlank)
  let scheme := (s.takeWhile (· ≠ ':')).map Char.toLower
  let ':' :: s := s.dropWhile (· ≠ ':') | none
  let s := s.dropWhile fun c => c = '/' || c = '\\'
  if scheme ∈ webSchemes then
    let origin ← Authorities.parse scheme (s.takeWhile (!isDelimiter ·))
    let s := s.dropWhile (!isDelimiter ·)
    return ⟨origin, parsePath (s.takeWhile isPathChar), parseQuery (s.dropWhile isPathChar)⟩
  else
    none

-- The text of the URL up to its path.
def renderOrigin [Authorities] (origin : Origin) : Text :=
  origin.scheme ++ "://".toList ++ Authorities.render origin

-- A request is sent for the path and the query.
def Url.pathAndQuery (url : Url) : Text :=
  url.path ++ url.query.elim [] fun query => '?' :: query

section Parsing

variable {s t path : Text} {c : Char} {p : Char → Bool}

theorem takeWhile_append (hs : ∀ c ∈ s, p c) (ht : ∀ c ∈ t.head?, p c = false) :
    (s ++ t).takeWhile p = s := by
  rw [List.takeWhile_append_of_pos hs]
  cases t
  case nil => exact List.append_nil s
  case cons c t => rw [List.takeWhile_cons_of_neg (by simp [ht c rfl]), List.append_nil]

theorem dropWhile_append (hs : ∀ c ∈ s, p c) (ht : ∀ c ∈ t.head?, p c = false) :
    (s ++ t).dropWhile p = t := by
  rw [List.dropWhile_append_of_pos hs]
  cases t
  case nil => rfl
  case cons c t => exact List.dropWhile_cons_of_neg (by simp [ht c rfl])

theorem cleanEnd_append (h : ∀ c ∈ s, ¬isBlank c) : cleanEnd (s ++ t) = s ++ cleanEnd t := by
  have hr : (s ++ t).rdropWhile isBlank = s ++ t.rdropWhile isBlank := by
    have hd : s.reverse.dropWhile isBlank = s.reverse :=
      List.dropWhile_eq_self_iff.mpr fun hl => h _ <| List.mem_reverse.mp (List.getElem_mem hl)
    rw [List.rdropWhile, List.reverse_append, List.dropWhile_append, hd]
    split
    case isTrue he =>
      rw [List.rdropWhile, List.isEmpty_iff.mp he, List.reverse_nil, List.append_nil, List.reverse_reverse]
    case isFalse => rw [List.reverse_append, List.reverse_reverse, List.rdropWhile]
  have hf : s.filter (fun c => c ≠ '\t' && c ≠ '\n' && c ≠ '\r') = s := by
    refine List.filter_eq_self.mpr fun c hc => ?_
    have hb := h c hc
    have hne {c' : Char} (hb' : isBlank c') : c ≠ c' := fun he => hb (he ▸ hb')
    simp [hne (show isBlank '\t' from rfl), hne (show isBlank '\n' from rfl),
      hne (show isBlank '\r' from rfl)]
  rw [cleanEnd, hr, List.filter_append, hf]
  rfl

theorem web_scheme {scheme : Text} (h : scheme ∈ webSchemes) : scheme ≠ [] ∧
    ∀ c ∈ scheme, ¬isBlank c ∧ c ≠ ':' ∧ c.toLower = c := by
  have hall : webSchemes.all fun scheme => scheme ≠ [] &&
      scheme.all fun c => !isBlank c && c ≠ ':' && c.toLower = c := by decide
  have hs := List.all_eq_true.mp hall scheme h
  simp only [Bool.and_eq_true, decide_eq_true_eq, List.all_eq_true, Bool.not_eq_true'] at hs
  refine ⟨hs.left, fun c hc => ?_⟩
  obtain ⟨⟨hb, hn⟩, hl⟩ := hs.right c hc
  exact ⟨Bool.not_eq_true _ ▸ hb, hn, hl⟩

theorem cleanEnd_cons (h : ¬isBlank c) : cleanEnd (c :: s) = c :: cleanEnd s :=
  cleanEnd_append (s := [c]) (t := s) <| List.forall_mem_singleton.mpr h

theorem cleanEnd_query (query : Option Text) : cleanEnd (query.elim [] ('?' :: ·)) =
    query.elim [] fun query => '?' :: cleanEnd query := by
  cases query
  case none => rfl
  case some query => exact cleanEnd_cons (by decide)

theorem head?_query (query : Option Text) (c : Char)
    (h : c ∈ (query.elim [] fun query => '?' :: cleanEnd query).head?) : c = '?' := by
  cases query
  case none => exact nomatch h
  case some query => exact (Option.some.inj h).symm

theorem parseQuery_query (query : Option Text) :
    parseQuery (query.elim [] fun query => '?' :: cleanEnd query) = query.map fun query =>
      percentEncode specialQuerySet ((cleanEnd query).takeWhile (· ≠ '#')) := by
  cases query
  case none => rfl
  case some query => rfl

variable [Authorities] {scheme : Text} {query : Option Text} {origin : Origin}

theorem render_char (h : Authorities.parse scheme s = some origin)
    (hc : c ∈ Authorities.render origin) : ¬isBlank c ∧ (!isDelimiter c) = true := by
  have hr := List.all_eq_true.mp (Authorities.render_chars h) c hc
  rw [Bool.and_eq_true, Bool.not_eq_true', ← Bool.not_eq_true] at hr
  exact hr

theorem renderOrigin_eq (h : Authorities.parse scheme s = some origin) :
    renderOrigin origin = scheme ++ ':' :: '/' :: '/' :: Authorities.render origin := by
  rw [renderOrigin, Authorities.scheme_parse h]
  simp

theorem renderOrigin_no_slash (h : Authorities.parse scheme s = some origin) :
    (renderOrigin origin).rdropWhile (· = '/') = renderOrigin origin := by
  rw [List.rdropWhile_eq_self_iff]
  intro hn
  have hnil := Authorities.render_ne_nil h
  have hl : (renderOrigin origin).getLast hn = (Authorities.render origin).getLast hnil :=
    List.getLast_append_of_ne_nil _ hnil
  have hc := (render_char h (List.getLast_mem hnil)).right
  rw [hl]
  intro hs
  rw [of_decide_eq_true hs] at hc
  exact nomatch hc

-- There is nothing to clean up to the query.
theorem clean_append (h : Authorities.parse scheme s = some origin) (hs : scheme ∈ webSchemes)
    (hp : ∀ c ∈ path, ¬isBlank c) :
    cleanEnd ((renderOrigin origin ++ (path ++ t)).dropWhile isBlank) =
      renderOrigin origin ++ (path ++ cleanEnd t) := by
  obtain ⟨hnil, hscheme⟩ := web_scheme hs
  have hvisible : ∀ c ∈ renderOrigin origin ++ path, ¬isBlank c := by
    have hslash : ¬isBlank '/' := by decide
    have hcolon : ¬isBlank ':' := by decide
    simp only [renderOrigin_eq h, List.forall_mem_append, List.forall_mem_cons]
    exact ⟨⟨fun c hc => (hscheme c hc).left, hcolon, hslash, hslash,
      fun c hc => (render_char h hc).left⟩, hp⟩
  have hfirst : (renderOrigin origin ++ (path ++ t)).dropWhile isBlank =
      renderOrigin origin ++ (path ++ t) := by
    obtain ⟨c, cs, rfl⟩ := List.exists_cons_of_ne_nil hnil
    rw [renderOrigin_eq h]
    exact List.dropWhile_cons_of_neg (hscheme c List.mem_cons_self).left
  have hclean := cleanEnd_append (t := t) hvisible
  rw [hfirst]
  simpa using hclean

-- A path and a query can be appended to the text of an origin.
theorem parse_append (h : Authorities.parse scheme s = some origin) (hs : scheme ∈ webSchemes)
    (hp : ∀ c ∈ path, ¬isBlank c ∧ isPathChar c) (hh : ∀ c ∈ path.head?, c = '/') :
    parse (renderOrigin origin ++ (path ++ query.elim [] ('?' :: ·))) =
      some ⟨origin, parsePath path, query.map fun query =>
        percentEncode specialQuerySet ((cleanEnd query).takeWhile (· ≠ '#'))⟩ := by
  obtain ⟨-, hscheme⟩ := web_scheme hs
  let tail : Text := query.elim [] fun query => '?' :: cleanEnd query
  have hclean : cleanEnd ((renderOrigin origin ++ (path ++ query.elim [] ('?' :: ·))).dropWhile
      isBlank) = scheme ++ ':' :: '/' :: '/' :: (Authorities.render origin ++ (path ++ tail)) := by
    rw [clean_append h hs fun c hc => (hp c hc).left, renderOrigin_eq h, cleanEnd_query]
    simp [tail]
  have hcolon : ∀ c ∈ scheme, decide (c ≠ ':') := fun c hc => decide_eq_true (hscheme c hc).right.left
  have hstop {t : Text} : ∀ c ∈ (':' :: t).head?, decide (c ≠ ':') = false := by
    intro c hc
    exact Option.some.inj hc ▸ rfl
  have hlower : scheme.map Char.toLower = scheme :=
    (List.map_congr_left fun c hc => (hscheme c hc).right.right).trans (List.map_id _)
  have hslashes : ('/' :: '/' :: (Authorities.render origin ++ (path ++ tail))).dropWhile
      (fun c => c = '/' || c = '\\') = Authorities.render origin ++ (path ++ tail) := by
    obtain ⟨c, cs, hcs⟩ := List.exists_cons_of_ne_nil (Authorities.render_ne_nil h)
    have hc := (render_char h (hcs ▸ List.mem_cons_self)).right
    simp only [isDelimiter, Bool.not_eq_true', Bool.or_eq_false_iff, decide_eq_false_iff_not] at hc
    rw [hcs]
    simp [hc.left.left]
  have hauthority : ∀ c ∈ Authorities.render origin, !isDelimiter c :=
    fun c hc => (render_char h hc).right
  have hend : ∀ c ∈ (path ++ tail).head?, (!isDelimiter c) = false := by
    intro c hc
    rw [List.head?_append, Option.mem_def, Option.or_eq_some_iff] at hc
    obtain hc | ⟨-, hc⟩ := hc
    case inl => exact hh c hc ▸ rfl
    case inr => exact head?_query query c hc ▸ rfl
  have hpath : ∀ c ∈ path, isPathChar c := fun c hc => (hp c hc).right
  have hquery : ∀ c ∈ tail.head?, isPathChar c = false := fun c hc => head?_query query c hc ▸ rfl
  unfold parse
  simp only [hclean, takeWhile_append hcolon hstop, dropWhile_append hcolon hstop, hlower, hslashes,
    if_pos hs, takeWhile_append hauthority hend, dropWhile_append hauthority hend,
    Authorities.parse_render h, takeWhile_append hpath hquery, dropWhile_append hpath hquery]
  rw [parseQuery_query]
  rfl

theorem parse_eq_some {url : Url} (h : parse s = some url) : ∃ scheme ∈ webSchemes, ∃ authority,
    Authorities.parse scheme authority = some url.origin := by
  unfold parse at h
  dsimp only at h
  split at h
  case h_1 =>
    split at h
    case isTrue hs =>
      obtain ⟨origin, ho, h⟩ := Option.bind_eq_some_iff.mp h
      obtain rfl := Option.some.inj h
      exact ⟨_, hs, _, ho⟩
    case isFalse => exact nomatch h
  case h_2 => exact nomatch h

end Parsing

end WebUrl
