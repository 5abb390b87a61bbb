import LabInventory.Domain.LabelPrinter
import LabInventory.LabelPrinting.Printer
import LabInventory.LabelPrinting.Transport
import LabInventory.Library.Sha256
import LabInventory.Domain.Text

open LabInventory.LabelPrinting

namespace LabInventory

-- `base64::engine::general_purpose::STANDARD`, which insists on padding.
class Base64Engine where
  decode : String → Option (List UInt8)
  size_of_decode {s bytes} : decode s = some bytes → s.utf8ByteSize = 4 * ((bytes.length + 2) / 3)

@[reducible]
def Base64Engine.standard : Base64Engine where
  decode s := Base64.decode s.toList
  size_of_decode {s bytes} h := by
    have ha : Base64.alphabet.all fun c => c.utf8Size = 1 := by decide +kernel
    have he : Base64.encode bytes = s.toList := Base64.encode_of_decode h
    have hc : ∀ c ∈ Base64.encode bytes, c.utf8Size = 1 := by
      intro c hm
      obtain hm | rfl := Base64.mem_encode hm
      case inl => exact of_decide_eq_true <| List.all_eq_true.mp ha c hm
      case inr => rfl
    have hs : s = .ofList (Base64.encode bytes) := by rw [he, String.ofList_toList]
    rw [hs, Text.utf8ByteSize_ofList hc, Base64.length_encode]

namespace LabelPrinters

-- The columns that a print reads.
structure LabelPrinterRow where
  mediaKind : String
  mediaWidthMm : Int
  mediaLengthMm : Option Int
  autoCut : Bool

inductive PrintError
  | validation (message : String)
  | mediaMismatch (loaded expected : String)
  | notReady (faults : String)
  | transport (e : TransportError)
  | unexpected (message : String)

def PrintError.text : PrintError → String
  | validation message => message
  | mediaMismatch loaded expected =>
    s!"The printer is loaded with {loaded}, but this label is laid out for {expected}"
  | notReady faults => s!"The printer is not ready: {faults}"
  | transport e => e.text
  | unexpected message => message

inductive PrintLabelsError
  | validationError (message : String)
  | forbidden (message : String)
  | notFound (message : String)
  | printerNotReady (message : String)
  | printerUnreachable (message : String)
  | unexpectedError (message : String)
deriving DecidableEq

namespace PrintLabelsError

def ofTransportError : TransportError → PrintLabelsError
  | e@(.blockedAddress _) | e@(.blockedPort _) => validationError e.text
  | e => printerUnreachable e.text

def ofPrintError : PrintError → PrintLabelsError
  | .validation message => validationError message
  | e@(.mediaMismatch _ _) | e@(.notReady _) => printerNotReady e.text
  | .transport e => ofTransportError e
  | .unexpected message => unexpectedError message

end PrintLabelsError

structure PageJsonData where
  widthDots : UInt16
  heightDots : UInt16
  bitmapBase64 : String

-- What the JSON extractor of the web framework has accepted: a larger body (2 MiB by default) is
-- refused before it is read as one.
structure JsonData where
  pages : List PageJsonData
  copies : Option UInt32

structure RequestedPage where
  widthDots : UInt16
  heightDots : UInt16
  bitmap : List UInt8

def maxLabelsPerRequest : Nat := 500

def maxCopies : UInt32 := 20

def LabelPrinterRow.media (printer : LabelPrinterRow) : Option LabelPrinterMedia :=
  (LabelPrinterMedia.parse printer.mediaKind printer.mediaWidthMm printer.mediaLengthMm).toOption

def LabelPrinterRow.requireMedia (printer : LabelPrinterRow) : Except PrintError LabelPrinterMedia :=
  match printer.media with
  | some media => .ok media
  | none => .error <| .validation s!"This printer is configured for {printer.mediaKind} {printer.mediaWidthMm}mm label stock, which this server cannot lay out."

def describeLoaded (status : PrinterStatus) : String :=
  match status.mediaKind with
  | none => "no label stock"
  | some kind =>
    if status.mediaLengthMm = 0 then
      s!"{status.mediaWidthMm}mm {kind} stock"
    else
      s!"{status.mediaWidthMm}x{status.mediaLengthMm}mm {kind} stock"

def describeExpected (media : LabelPrinterMedia) : String :=
  match media.lengthMm with
  | some length => s!"{media.widthMm}x{length}mm {media.kindStr} stock"
  | none => s!"{media.widthMm}mm {media.kindStr} stock"

def checkReady (status : PrinterStatus) (media : LabelPrinterMedia) : Except PrintError Unit := do
  .check status.isReady (.notReady <| ", ".intercalate <| status.faults.map PrinterFault.code)
  .check (status.matchesSpec media.spec) <|
    .mediaMismatch (describeLoaded status) (describeExpected media)

-- `usize::saturating_mul`
def saturatingMul (a b : Nat) : Nat :=
  min (a * b) (2 ^ 64 - 1)

def buildPage (media : LabelPrinterMedia) (copies : UInt32) (pages : List Page)
    (page : RequestedPage) : Except PrintError (List Page) := do
  let spec := media.spec
  .check (¬(spec.printableLengthDots ≠ 0 ∧ page.heightDots ≠ spec.printableLengthDots)) <|
    .validation s!"Label is {page.heightDots} dots long but {describeExpected media} die-cut labels are {spec.printableLengthDots} dots."
  let built ← (Page.new spec page.widthDots page.heightDots page.bitmap).mapError fun e =>
    .validation e.text
  return pages ++ .replicate copies.toNat built

def buildPages (media : LabelPrinterMedia) (requested : List RequestedPage) (copies : UInt32) :
    Except PrintError (List Page) := do
  .check (requested.isEmpty = false) <|
    .validation "A print request must contain at least one label."
  .check (¬(copies = 0 ∨ maxCopies < copies)) <|
    .validation s!"Copies must be between 1 and {maxCopies}."
  let total := saturatingMul requested.length copies.toNat
  .check (total ≤ maxLabelsPerRequest) <|
    .validation s!"A print request may produce at most {maxLabelsPerRequest} labels; this one would produce {total}."
  requested.foldlM (buildPage media copies) []

-- There is no result if the encoder panics.
def encode (media : LabelPrinterMedia) (autoCut : Bool) (pages : List Page) :
    Except PrintError (Option (List UInt8)) :=
  (encodeJob media.spec autoCut pages).mapError fun e => .validation e.text

def maxPageBytes (media : LabelPrinterMedia) : Nat :=
  rowBytes media.spec.printableWidthDots * maxRasterLines

def largerThanAccepted : PrintLabelsError :=
  .validationError "Label bitmap is larger than the printer can accept."

def decodePage [Base64Engine] (page : PageJsonData) (limit : Nat) :
    Except PrintLabelsError RequestedPage := do
  .check (page.bitmapBase64.utf8ByteSize / 4 * 3 ≤ limit) largerThanAccepted
  let some bitmap := Base64Engine.decode page.bitmapBase64 |
    throw <| .validationError "Label bitmap is not valid base64."
  return { widthDots := page.widthDots, heightDots := page.heightDots, bitmap }

structure Prepared where
  media : LabelPrinterMedia
  pages : List Page
  job : List UInt8

def prepare [Base64Engine] (printer : LabelPrinterRow) (payload : JsonData) :
    Except PrintLabelsError (Option Prepared) := do
  let media ← printer.requireMedia.mapError .ofPrintError
  let copies := payload.copies.getD 1
  .check (payload.pages.length ≤ maxLabelsPerRequest) <|
    .validationError s!"A print request may contain at most {maxLabelsPerRequest} labels."
  let pageLimit := maxPageBytes media
  let requested ← payload.pages.mapM fun page => decodePage page pageLimit
  let pages ← (buildPages media requested copies).mapError .ofPrintError
  let job ← (encode media printer.autoCut pages).mapError .ofPrintError
  return job.map fun job => { media, pages, job }

def fetch (permitted : Bool) (fetched : Option LabelPrinterRow) :
    Except PrintLabelsError LabelPrinterRow :=
  match permitted, fetched with
  | true, some printer => .ok printer
  | _, _ => .error <| .notFound "Label printer not found"

-- Status and job share one connection.
def converse (peer : Peer) (prepared : Prepared) : Session PrintLabelsError (Option Nat) := do
  Session.lift <| peer.connect.mapError .ofTransportError
  let status ← Session.mapError .ofTransportError <| requestStatus peer
  Session.lift <| (checkReady status prepared.media).mapError .ofPrintError
  Session.mapError .ofTransportError <| writeJob peer prepared.job
  return some prepared.pages.length

-- How many labels have been printed.
def printLabels [Base64Engine] (permitted : Bool) (fetched : Option LabelPrinterRow)
    (payload : JsonData) (peer : Peer) : Session PrintLabelsError (Option Nat) := do
  let printer ← Session.lift <| fetch permitted fetched
  let prepared ← Session.lift <| prepare printer payload
  match prepared with
  | none => return none
  | some prepared => converse peer prepared

section Requests

variable {printer : LabelPrinterRow} {payload : JsonData} {media : LabelPrinterMedia}
  {spec : MediaSpec} {page : PageJsonData} {requested : RequestedPage} {built : Page}
  {pages acc acc' : List Page} {copies : UInt32} {limit : Nat}

structure Configured (printer : LabelPrinterRow) (media : LabelPrinterMedia) : Prop where
  stock : printer.media = some media
  kind : printer.mediaKind = media.spec.kind.asStr
  width : printer.mediaWidthMm = media.spec.widthMm.toNat
  length : printer.mediaLengthMm = media.lengthMm.map fun length => (length.toNat : Int)

theorem configured_of_media (h : printer.media = some media) : Configured printer media := by
  have hp : LabelPrinterMedia.parse printer.mediaKind printer.mediaWidthMm printer.mediaLengthMm =
      .ok media := by
    unfold LabelPrinterRow.media at h
    cases hp : LabelPrinterMedia.parse printer.mediaKind printer.mediaWidthMm printer.mediaLengthMm
    case error =>
      rw [hp] at h
      exact nomatch h
    case ok =>
      rw [hp] at h
      exact congrArg Except.ok (Option.some.inj h)
  obtain ⟨hk, hw, hl⟩ := LabelPrinterMedia.parse_eq_ok hp
  exact ⟨h, hk.symm, hw.symm, hl.symm⟩

theorem buildPage_eq_ok : buildPage media copies acc requested = .ok acc' ↔
    (media.spec.kind = .dieCut → requested.heightDots = media.spec.printableLengthDots) ∧
      ∃ built, Page.new media.spec requested.widthDots requested.heightDots requested.bitmap =
        .ok built ∧ acc' = acc ++ .replicate copies.toNat built := by
  have hk := printableLengthDots_ne_zero media.supported
  have hc : ¬(media.spec.printableLengthDots ≠ 0 ∧
      requested.heightDots ≠ media.spec.printableLengthDots) ↔
        (media.spec.kind = .dieCut → requested.heightDots = media.spec.printableLengthDots) := by
    rw [hk, not_and, not_not]
  simp only [buildPage, Except.bind_eq_ok, Except.check_eq_ok, Except.mapError_eq_ok,
    Except.pure_eq_ok, hc]
  constructor
  case mp =>
    rintro ⟨_, hl, built, hb, rfl⟩
    exact ⟨hl, built, hb, rfl⟩
  case mpr =>
    rintro ⟨hl, built, hb, rfl⟩
    exact ⟨(), hl, built, hb, rfl⟩

theorem copies_iff : ¬(copies = 0 ∨ maxCopies < copies) ↔ 1 ≤ copies.toNat ∧ copies.toNat ≤ 20 := by
  have hm : maxCopies.toNat = 20 := rfl
  have hz : copies = 0 ↔ copies.toNat = 0 := by
    rw [← UInt32.toNat_inj]
    rfl
  rw [hz, UInt32.lt_iff_toNat_lt, hm]
  omega

theorem total_iff {n : Nat} : saturatingMul n copies.toNat ≤ maxLabelsPerRequest ↔
    n * copies.toNat ≤ 500 := by
  unfold saturatingMul maxLabelsPerRequest
  omega

theorem exists_job {autoCut : Bool} (hn : pages ≠ []) (h : ∀ page ∈ pages, page.Accepted media.spec) :
    ∃ job, encodeJob media.spec autoCut pages = .ok (some job) ∧
      ∃ device, Printer.receive job = some device ∧ Printed media.spec autoCut pages device := by
  obtain ⟨job, device, hj, hr, hp⟩ := exists_encodeJob media.supported hn h
  exact ⟨job, hj, device, hr, hp⟩

theorem buildPages_eq_ok {rs : List RequestedPage} : buildPages media rs copies = .ok pages ↔
    rs ≠ [] ∧ (1 ≤ copies.toNat ∧ copies.toNat ≤ 20) ∧ rs.length * copies.toNat ≤ 500 ∧
      rs.foldlM (buildPage media copies) [] = .ok pages := by
  simp only [buildPages, Except.bind_eq_ok, Except.check_eq_ok, copies_iff, total_iff,
    List.isEmpty_eq_false_iff]
  constructor
  case mp =>
    rintro ⟨_, hn, _, hc, _, ht, hf⟩
    exact ⟨hn, hc, ht, hf⟩
  case mpr =>
    rintro ⟨hn, hc, ht, hf⟩
    exact ⟨(), hn, (), hc, (), ht, hf⟩

theorem length_expanded {built : List Page} {n : Nat} :
    (built.flatMap (.replicate n)).length = built.length * n := by
  rw [List.length_flatMap]
  simp

theorem exists_forall₂ {α β : Type} {R : α → β → Prop} {as : List α} :
    (∃ bs, List.Forall₂ R as bs) ↔ ∀ a ∈ as, ∃ b, R a b := by
  induction as
  case nil => exact iff_of_true ⟨[], .nil⟩ fun a ha => absurd ha List.not_mem_nil
  case cons a as ih =>
    rw [List.forall_mem_cons, ← ih]
    constructor
    case mp =>
      rintro ⟨bs, hb⟩
      obtain ⟨b, bs, h, hbs, rfl⟩ := List.forall₂_cons_left_iff.mp hb
      exact ⟨⟨b, h⟩, ⟨bs, hbs⟩⟩
    case mpr =>
      rintro ⟨⟨b, h⟩, ⟨bs, hbs⟩⟩
      exact ⟨b :: bs, .cons h hbs⟩

variable [Base64Engine]

-- The label that a page of a request stands for.
structure Printable (spec : MediaSpec) (page : PageJsonData) (built : Page) : Prop where
  decoded : Base64Engine.decode page.bitmapBase64 = some built.bitmap
  size : built.bitmap.length = rowBytes spec.printableWidthDots * page.heightDots.toNat
  width : page.widthDots = spec.printableWidthDots
  height : minRasterLines ≤ page.heightDots.toNat ∧ page.heightDots.toNat ≤ maxRasterLines
  length : spec.kind = .dieCut → page.heightDots = spec.printableLengthDots
  built : built.widthDots = page.widthDots ∧ built.heightDots = page.heightDots

structure Admissible (printer : LabelPrinterRow) (payload : JsonData) (media : LabelPrinterMedia) :
    Prop where
  configured : Configured printer media
  copies : 1 ≤ (payload.copies.getD 1).toNat ∧ (payload.copies.getD 1).toNat ≤ 20
  total : 1 ≤ payload.pages.length * (payload.copies.getD 1).toNat ∧
    payload.pages.length * (payload.copies.getD 1).toNat ≤ 500
  pages : ∀ page ∈ payload.pages, ∃ built, Printable media.spec page built

theorem Printable.accepted (h : Printable spec page built) : built.Accepted spec where
  width := h.built.left.trans h.width
  height := h.built.right ▸ h.height
  bitmap := by rw [h.size, h.built.left, h.width, h.built.right]

-- The text that is let through can be decoded without the check having been in the way.
theorem decodePage_eq_ok : decodePage page limit = .ok requested ↔
    page.bitmapBase64.utf8ByteSize / 4 * 3 ≤ limit ∧
      Base64Engine.decode page.bitmapBase64 = some requested.bitmap ∧
      requested.widthDots = page.widthDots ∧ requested.heightDots = page.heightDots := by
  rw [decodePage, Except.bind_eq_ok]
  simp only [Except.check_eq_ok]
  cases hd : Base64Engine.decode page.bitmapBase64
  case none =>
    refine iff_of_false ?_ fun h => nomatch h.right.left
    rintro ⟨_, _, h⟩
    exact nomatch h
  case some bitmap =>
    constructor
    case mp =>
      rintro ⟨_, hl, h⟩
      obtain rfl := Except.pure_eq_ok.mp h
      exact ⟨hl, rfl, rfl, rfl⟩
    case mpr =>
      rintro ⟨hl, hb, hw, hh⟩
      refine ⟨(), hl, Except.pure_eq_ok.mpr ?_⟩
      cases requested
      simp_all

-- The limit is a whole number of groups of three bytes.
theorem Printable.size_le (h : Printable media.spec page built) :
    page.bitmapBase64.utf8ByteSize / 4 * 3 ≤ maxPageBytes media := by
  have hs := Base64Engine.size_of_decode h.decoded
  have hm : rowBytes media.spec.printableWidthDots * page.heightDots.toNat ≤
      rowBytes media.spec.printableWidthDots * maxRasterLines := Nat.mul_le_mul_left _ h.height.right
  have hl : maxPageBytes media = 3 * (rowBytes media.spec.printableWidthDots * 3937) := by
    rw [maxPageBytes, Nat.mul_left_comm]
    rfl
  have hb : built.bitmap.length ≤ maxPageBytes media := h.size.trans_le hm
  omega

theorem exists_decodePage (h : Printable media.spec page built) :
    decodePage page (maxPageBytes media) =
      .ok { widthDots := page.widthDots, heightDots := page.heightDots, bitmap := built.bitmap } :=
  decodePage_eq_ok.mpr ⟨h.size_le, h.decoded, rfl, rfl⟩

theorem le_of_not_larger (h : decodePage page limit ≠ .error largerThanAccepted) :
    page.bitmapBase64.utf8ByteSize / 4 * 3 ≤ limit := by
  by_contra hl
  refine h ?_
  rw [decodePage, Except.check, if_neg hl]
  rfl

-- A page is checked in three places.
theorem printable_iff : (∃ requested, decodePage page (maxPageBytes media) = .ok requested ∧
      buildPage media copies acc requested = .ok acc') ↔
    ∃ built, Printable media.spec page built ∧ acc' = acc ++ .replicate copies.toNat built := by
  constructor
  case mp =>
    rintro ⟨requested, hd, hb⟩
    obtain ⟨_, hd, hw, hh⟩ := decodePage_eq_ok.mp hd
    obtain ⟨hl, built, hn, rfl⟩ := buildPage_eq_ok.mp hb
    obtain ⟨rfl, ha⟩ := new_eq_ok.mp hn
    have hwidth : requested.widthDots = media.spec.printableWidthDots := ha.width
    refine ⟨_, ⟨hd, ?_, hw ▸ hwidth, hh ▸ ha.height, hh ▸ hl, hw, hh⟩, rfl⟩
    exact hh ▸ hwidth ▸ ha.bitmap
  case mpr =>
    rintro ⟨built, h, rfl⟩
    obtain ⟨hw, hh⟩ := h.built
    refine ⟨_, exists_decodePage h, buildPage_eq_ok.mpr ⟨h.length, built, ?_, rfl⟩⟩
    refine new_eq_ok.mpr ⟨?_, h.accepted⟩
    rw [← hw, ← hh]

theorem printables_iff {ps : List PageJsonData} :
    (∃ rs, (ps.mapM fun page => decodePage page (maxPageBytes media)) = .ok rs ∧
        rs.length = ps.length ∧ rs.foldlM (buildPage media copies) acc = .ok acc') ↔
      ∃ built, List.Forall₂ (Printable media.spec) ps built ∧
        acc' = acc ++ built.flatMap (.replicate copies.toNat) := by
  induction ps generalizing acc
  case nil =>
    constructor
    case mp =>
      rintro ⟨rs, hm, _, hf⟩
      obtain rfl := Except.pure_eq_ok.mp hm
      obtain rfl := Except.pure_eq_ok.mp hf
      exact ⟨[], .nil, (List.append_nil _).symm⟩
    case mpr =>
      rintro ⟨built, hb, rfl⟩
      obtain rfl := List.forall₂_nil_left_iff.mp hb
      refine ⟨[], rfl, rfl, ?_⟩
      rw [List.flatMap_nil, List.append_nil]
      rfl
  case cons page ps ih =>
    constructor
    case mp =>
      rintro ⟨rs, hm, hn, hf⟩
      simp only [List.mapM_cons, Except.bind_eq_ok, Except.pure_eq_ok] at hm
      obtain ⟨r, hr, rs, hrs, rfl⟩ := hm
      rw [List.foldlM_cons] at hf
      obtain ⟨acc₁, hb, hf⟩ := Except.bind_eq_ok.mp hf
      obtain ⟨built, hp, rfl⟩ := printable_iff.mp ⟨r, hr, hb⟩
      obtain ⟨builts, hps, rfl⟩ := ih.mp ⟨rs, hrs, Nat.succ.inj hn, hf⟩
      exact ⟨built :: builts, .cons hp hps, by rw [List.flatMap_cons, List.append_assoc]⟩
    case mpr =>
      rintro ⟨builts, hb, rfl⟩
      obtain ⟨built, builts, hp, hps, rfl⟩ := List.forall₂_cons_left_iff.mp hb
      obtain ⟨r, hr, hb⟩ := printable_iff.mpr ⟨built, hp, rfl⟩
      have he : acc ++ (built :: builts).flatMap (.replicate copies.toNat) =
          acc ++ .replicate copies.toNat built ++ builts.flatMap (.replicate copies.toNat) := by
        rw [List.flatMap_cons, List.append_assoc]
      obtain ⟨rs, hrs, hn, hf⟩ := ih.mpr ⟨builts, hps, he⟩
      refine ⟨r :: rs, ?_, congrArg Nat.succ hn, ?_⟩
      case refine_1 =>
        rw [List.mapM_cons, hr, hrs]
        rfl
      case refine_2 =>
        rw [List.foldlM_cons, hb]
        exact hf

structure Expanded (printer : LabelPrinterRow) (payload : JsonData) (prepared : Prepared) : Prop where
  admissible : Admissible printer payload prepared.media
  pages : ∃ built, List.Forall₂ (Printable prepared.media.spec) payload.pages built ∧
    prepared.pages = built.flatMap (.replicate (payload.copies.getD 1).toNat)
  job : encodeJob prepared.media.spec printer.autoCut prepared.pages = .ok (some prepared.job)
  printed : ∃ device, Printer.receive prepared.job = some device ∧
    Printed prepared.media.spec printer.autoCut prepared.pages device

theorem accepted_of_mem {ps : List PageJsonData} {built : List Page} {n : Nat}
    (h : List.Forall₂ (Printable spec) ps built) {p : Page}
    (hp : p ∈ built.flatMap (.replicate n)) : p.Accepted spec := by
  obtain ⟨b, hb, hr⟩ := List.mem_flatMap.mp hp
  obtain rfl := List.eq_of_mem_replicate hr
  obtain ⟨i, hi⟩ := List.mem_iff_getElem?.mp hb
  obtain ⟨page, _, hpage⟩ := exists_getElem? h hi
  exact hpage.accepted

theorem prepare_eq_ok {o : Option Prepared} : prepare printer payload = .ok o ↔
    ∃ media rs pages, printer.media = some media ∧ payload.pages.length ≤ 500 ∧
      (payload.pages.mapM fun page => decodePage page (maxPageBytes media)) = .ok rs ∧
      buildPages media rs (payload.copies.getD 1) = .ok pages ∧
      ∃ job, encodeJob media.spec printer.autoCut pages = .ok job ∧
        o = job.map fun job => { media, pages, job } := by
  have hm {media : LabelPrinterMedia} : printer.requireMedia = .ok media ↔
      printer.media = some media := by
    unfold LabelPrinterRow.requireMedia
    cases printer.media <;> simp
  simp only [prepare, encode, Except.bind_eq_ok, Except.check_eq_ok, Except.mapError_eq_ok,
    Except.pure_eq_ok, hm]
  constructor
  case mp =>
    rintro ⟨media, hm, _, hl, rs, hrs, pages, hp, job, hj, rfl⟩
    exact ⟨media, rs, pages, hm, hl, hrs, hp, job, hj, rfl⟩
  case mpr =>
    rintro ⟨media, rs, pages, hm, hl, hrs, hp, job, hj, rfl⟩
    exact ⟨media, hm, (), hl, rs, hrs, pages, hp, job, hj, rfl⟩

theorem ne_nil_of_total {ps : List PageJsonData} {built : List Page} {n : Nat}
    (hb : List.Forall₂ (Printable spec) ps built) (h : 1 ≤ ps.length * n) :
    built.flatMap (.replicate n) ≠ [] := by
  rw [hb.length_eq, ← length_expanded] at h
  exact List.ne_nil_of_length_pos h

-- Whatever is prepared has been expanded, so that the encoder does not panic.
theorem expanded_of_prepare {o : Option Prepared} (h : prepare printer payload = .ok o) :
    ∃ prepared, o = some prepared ∧ Expanded printer payload prepared := by
  obtain ⟨media, rs, pages, hm, _, hrs, hp, job, hj, rfl⟩ := prepare_eq_ok.mp h
  obtain ⟨hn, hc, ht, hf⟩ := buildPages_eq_ok.mp hp
  have hmap : rs.map (fun _ => ()) = payload.pages.map (fun _ => ()) :=
    Except.map_eq_of_mapM hrs fun _ _ _ => rfl
  have hlen : rs.length = payload.pages.length := by
    simpa using congrArg List.length hmap
  obtain ⟨built, hb, he⟩ := printables_iff.mp ⟨rs, hrs, hlen, hf⟩
  rw [List.nil_append] at he
  have hpos : 1 ≤ payload.pages.length * (payload.copies.getD 1).toNat :=
    Nat.mul_pos (hlen ▸ List.length_pos_of_ne_nil hn) hc.left
  obtain ⟨bytes, hj', hprinted⟩ : ∃ job, encodeJob media.spec printer.autoCut pages = .ok (some job) ∧
      ∃ device, Printer.receive job = some device ∧ Printed media.spec printer.autoCut pages device :=
    exists_job (he ▸ ne_nil_of_total hb hpos) fun p hm => accepted_of_mem hb (he ▸ hm)
  obtain rfl := Except.ok.inj <| hj.symm.trans hj'
  refine ⟨_, rfl, ⟨configured_of_media hm, hc, ⟨hpos, hlen ▸ ht⟩, ?_⟩, ⟨built, hb, he⟩, hj, hprinted⟩
  exact exists_forall₂.mp ⟨built, hb⟩

theorem exists_prepare (h : Admissible printer payload media) :
    ∃ prepared, prepare printer payload = .ok (some prepared) := by
  obtain ⟨built, hb⟩ := exists_forall₂.mpr h.pages
  have hl : payload.pages.length ≤ 500 :=
    Nat.le_trans (Nat.le_mul_of_pos_right _ h.copies.left) h.total.right
  let pages := built.flatMap (.replicate (payload.copies.getD 1).toNat)
  have hr : ∃ rs, (payload.pages.mapM fun page => decodePage page (maxPageBytes media)) = .ok rs ∧
      rs.length = payload.pages.length ∧
      rs.foldlM (buildPage media (payload.copies.getD 1)) [] = .ok pages :=
    printables_iff.mpr ⟨built, hb, (List.nil_append _).symm⟩
  obtain ⟨rs, hrs, hlen, hf⟩ := hr
  have hpos : 0 < rs.length := hlen ▸ Nat.pos_of_mul_pos_right h.total.left
  have hpages : buildPages media rs (payload.copies.getD 1) = .ok pages :=
    buildPages_eq_ok.mpr ⟨List.ne_nil_of_length_pos hpos, h.copies, hlen ▸ h.total.right, hf⟩
  obtain ⟨job, hj, _⟩ : ∃ job, encodeJob media.spec printer.autoCut pages = .ok (some job) ∧
      ∃ device, Printer.receive job = some device ∧ Printed media.spec printer.autoCut pages device :=
    exists_job (ne_nil_of_total hb h.total.left) fun p hm => accepted_of_mem hb hm
  exact ⟨{ media, pages, job },
    prepare_eq_ok.mpr ⟨media, rs, pages, h.configured.stock, hl, hrs, hpages, some job, hj, rfl⟩⟩

end Requests

section Exchange

variable {media : LabelPrinterMedia} {spec : MediaSpec} {status : PrinterStatus} {peer : Peer}
  {prepared : Prepared} {block : List UInt8} {events : List Event}

-- All that may be sent and received on the connection.
inductive Exchanged (spec : MediaSpec) (job : List UInt8) : List Event → Prop
  | idle : Exchanged spec job []
  | asked {bytes : List UInt8} : bytes <+: statusQuery → Exchanged spec job [.sent bytes]
  | answered {block : List UInt8} : block.length = statusBlockLen →
    Exchanged spec job [.sent statusQuery, .received block]
  | printed {block bytes : List UInt8} : block.length = statusBlockLen → Shows spec block → bytes <+: job →
    Exchanged spec job [.sent statusQuery, .received block, .sent bytes]

theorem checkReady_eq_ok {u : Unit} : checkReady status media = .ok u ↔
    status.isReady ∧ status.matchesSpec media.spec := by
  simp only [checkReady, Except.bind_eq_ok, Except.check_eq_ok]
  constructor
  case mp =>
    rintro ⟨_, h⟩
    exact h
  case mpr => exact fun h => ⟨(), h⟩

theorem exists_notReady (h : checkReady status media ≠ .ok ()) : ∃ message,
    (checkReady status media).mapError PrintLabelsError.ofPrintError =
      .error (.printerNotReady message) := by
  by_cases hr : status.isReady
  case neg =>
    rw [checkReady, Except.check, if_neg hr]
    exact ⟨_, rfl⟩
  case pos =>
    by_cases hm : status.matchesSpec media.spec
    case neg =>
      rw [checkReady, Except.check, Except.check, if_pos hr, if_neg hm]
      exact ⟨_, rfl⟩
    case pos => exact absurd (checkReady_eq_ok.mpr ⟨hr, hm⟩) h

theorem checkReady_parse (h : PrinterStatus.parse block = .ok status) :
    checkReady status media = .ok () ↔ Shows media.spec block := by
  have hl : statusBlockLen ≤ block.length := by
    obtain ⟨_, hc, _⟩ := Except.bind_eq_ok.mp h
    exact Except.check_eq_ok.mp hc
  obtain ⟨status', hp, hs⟩ : ∃ status', PrinterStatus.parse block = .ok status' ∧
      (status'.isReady ∧ status'.matchesSpec media.spec ↔ Shows media.spec block) := exists_parse hl
  obtain rfl := Except.ok.inj <| h.symm.trans hp
  exact checkReady_eq_ok.trans hs

theorem exchanged_of_converse {r : Except PrintLabelsError (Option Nat)}
    (h : converse peer prepared [] = (r, events)) :
    Exchanged prepared.media.spec prepared.job events := by
  obtain ⟨_, hc, _⟩ | ⟨_, _, hc, h⟩ := Session.bind_cases h
  case inl =>
    obtain rfl := (Prod.mk.inj hc).right
    exact .idle
  case inr =>
    obtain rfl := (Prod.mk.inj hc).right
    obtain ⟨_, hs, _⟩ | ⟨status, _, hs, h⟩ := Session.bind_cases h
    case inl =>
      obtain ⟨_, hs, _⟩ := Session.mapError_cases hs
      obtain ⟨_, bytes, _, hb, rfl⟩ | ⟨block, hl, _, rfl⟩ := requestStatus_cases hs
      case inl => exact .asked hb
      case inr => exact .answered hl
    case inr =>
      obtain ⟨r', hs, hr⟩ := Session.mapError_cases hs
      obtain ⟨_, _, rfl, _⟩ | ⟨block, hl, rfl, rfl⟩ := requestStatus_cases hs
      case inl => exact nomatch hr
      case inr =>
        have hp : PrinterStatus.parse block = .ok status := by
          simpa using hr.symm
        obtain ⟨_, hk, _⟩ | ⟨_, _, hk, h⟩ := Session.bind_cases h
        case inl =>
          obtain rfl := (Prod.mk.inj hk).right
          exact .answered hl
        case inr =>
          obtain ⟨hok, rfl⟩ := Prod.mk.inj hk
          have hshows : Shows prepared.media.spec block :=
            (checkReady_parse hp).mp <| Except.mapError_eq_ok.mp hok
          have hwrite : ∃ bytes, bytes <+: prepared.job ∧
              events = [.sent statusQuery, .received block] ++ [.sent bytes] := by
            obtain ⟨_, hw, _⟩ | ⟨_, _, hw, h⟩ := Session.bind_cases h
            case inl =>
              obtain ⟨_, hw, _⟩ := Session.mapError_cases hw
              obtain ⟨bytes, hb, rfl, _⟩ := write_cases hw
              exact ⟨bytes, hb, rfl⟩
            case inr =>
              obtain rfl := (Prod.mk.inj h).right
              obtain ⟨_, hw, _⟩ := Session.mapError_cases hw
              obtain ⟨bytes, hb, rfl, _⟩ := write_cases hw
              exact ⟨bytes, hb, rfl⟩
          obtain ⟨bytes, hb, rfl⟩ := hwrite
          exact .printed hl hshows hb

-- If nothing goes wrong on the network, then the block alone decides.
theorem converse_eq (hc : peer.connect = .ok ()) (hw : ∀ events bytes, peer.refusal events bytes = none)
    (hr : ∀ events, peer.reply events = .ok block) (hl : statusBlockLen ≤ block.length) :
    let answered := [.sent statusQuery, .received (block.take statusBlockLen)]
    (Shows prepared.media.spec block → converse peer prepared [] =
      (.ok (some prepared.pages.length), answered ++ [.sent prepared.job])) ∧
    (¬Shows prepared.media.spec block →
      ∃ message, converse peer prepared [] = (.error (.printerNotReady message), answered)) := by
  intro answered
  have hwrite : write peer statusQuery [] = (.ok (), [.sent statusQuery]) := by
    rw [write, hw]
    rfl
  have hread : readExact peer statusBlockLen [.sent statusQuery] =
      (.ok (block.take statusBlockLen), answered) := by
    rw [readExact, hr]
    exact if_pos hl
  have hlen : statusBlockLen ≤ (block.take statusBlockLen).length := by
    rw [List.length_take_of_le hl]
  obtain ⟨status, hp, _⟩ : ∃ status, PrinterStatus.parse (block.take statusBlockLen) = .ok status ∧
      (status.isReady ∧ status.matchesSpec prepared.media.spec ↔
        Shows prepared.media.spec (block.take statusBlockLen)) := exists_parse hlen
  have hk : checkReady status prepared.media = .ok () ↔ Shows prepared.media.spec block :=
    (checkReady_parse hp).trans shows_take
  have hstatus : requestStatus peer [] = (.ok status, answered) := by
    refine (Session.bind_eq_of_ok hwrite).trans <| (Session.bind_eq_of_ok hread).trans ?_
    rw [hp]
    rfl
  have hconnect : Session.lift (peer.connect.mapError PrintLabelsError.ofTransportError) [] =
      (.ok (), []) := by
    rw [hc]
    rfl
  have hmap : Session.mapError PrintLabelsError.ofTransportError (requestStatus peer) [] =
      (.ok status, answered) := by
    rw [Session.mapError, hstatus]
    rfl
  constructor
  case left =>
    intro h
    refine (Session.bind_eq_of_ok hconnect).trans <| (Session.bind_eq_of_ok hmap).trans ?_
    have hready : Session.lift ((checkReady status prepared.media).mapError
        PrintLabelsError.ofPrintError) answered = (.ok (), answered) := by
      rw [hk.mpr h]
      rfl
    have hjob : Session.mapError PrintLabelsError.ofTransportError (writeJob peer prepared.job)
        answered = (.ok (), answered ++ [.sent prepared.job]) := by
      rw [Session.mapError, writeJob, write, hw]
      rfl
    exact (Session.bind_eq_of_ok hready).trans (Session.bind_eq_of_ok hjob)
  case right =>
    intro h
    obtain ⟨message, hm⟩ := exists_notReady fun hok => h (hk.mp hok)
    have hrefused : Session.lift ((checkReady status prepared.media).mapError
        PrintLabelsError.ofPrintError) answered = (.error (.printerNotReady message), answered) := by
      rw [hm]
      rfl
    refine ⟨message, ?_⟩
    refine (Session.bind_eq_of_ok hconnect).trans <| (Session.bind_eq_of_ok hmap).trans ?_
    exact Session.bind_eq_of_error hrefused

variable [Base64Engine] {printer : LabelPrinterRow} {payload : JsonData}

theorem printLabels_eq (h : prepare printer payload = .ok (some prepared)) :
    printLabels true (some printer) payload peer [] = converse peer prepared [] := by
  have hf : (Session.lift (fetch true (some printer))) [] = (.ok printer, []) := rfl
  have hp : (Session.lift (prepare printer payload)) [] = (.ok (some prepared), []) := by
    rw [h]
    rfl
  exact (Session.bind_eq_of_ok hf).trans (Session.bind_eq_of_ok hp)

-- Nothing is sent for a request that has not been accepted.
theorem exchanged_of_printLabels {permitted : Bool} {fetched : Option LabelPrinterRow}
    {r : Except PrintLabelsError (Option Nat)}
    (h : printLabels permitted fetched payload peer [] = (r, events)) :
    events = [] ∨ ∃ printer prepared, fetched = some printer ∧
      prepare printer payload = .ok (some prepared) ∧
      Exchanged prepared.media.spec prepared.job events := by
  obtain ⟨_, hf, _⟩ | ⟨printer, _, hf, h⟩ := Session.bind_cases h
  case inl => exact .inl (Prod.mk.inj hf).right.symm
  case inr =>
    obtain ⟨hfetched, rfl⟩ := Prod.mk.inj hf
    have hrow : fetched = some printer := by
      unfold fetch at hfetched
      split at hfetched
      case h_1 => exact congrArg some (Except.ok.inj hfetched)
      case h_2 => exact nomatch hfetched
    obtain ⟨_, hp, _⟩ | ⟨o, _, hp, h⟩ := Session.bind_cases h
    case inl => exact .inl (Prod.mk.inj hp).right.symm
    case inr =>
      obtain ⟨hok, rfl⟩ := Prod.mk.inj hp
      obtain ⟨prepared, rfl, _⟩ := expanded_of_prepare hok
      exact .inr ⟨printer, prepared, hrow, hok, exchanged_of_converse h⟩

end Exchange

-- Each check bounds what the next one has to deal with.
theorem print_requests_are_gated [Base64Engine] (printer : LabelPrinterRow) (payload : JsonData) :
    ((∃ prepared, prepare printer payload = .ok (some prepared)) ↔
      ∃ media, Admissible printer payload media) ∧
    (∀ o, prepare printer payload = .ok o →
      ∃ prepared, o = some prepared ∧ Expanded printer payload prepared) ∧
    (∀ media page built, Printable (LabelPrinterMedia.spec media) page built →
      decodePage page (maxPageBytes media) ≠ .error largerThanAccepted) ∧
    (∀ media page, decodePage page (maxPageBytes media) ≠ .error largerThanAccepted →
      page.bitmapBase64.utf8ByteSize * 6 / 8 ≤ maxPageBytes media + 2 ∧
      ∀ bitmap, Base64Engine.decode page.bitmapBase64 = some bitmap →
        bitmap.length ≤ page.bitmapBase64.utf8ByteSize * 6 / 8) ∧
    (∀ permitted fetched peer r events, printLabels permitted fetched payload peer [] = (r, events) →
      events = [] ∨ ∃ printer prepared, fetched = some printer ∧
        prepare printer payload = .ok (some prepared) ∧
        Exchanged prepared.media.spec prepared.job events) ∧
    ∀ prepared peer block, prepare printer payload = .ok (some prepared) →
      Peer.connect peer = .ok () → (∀ events bytes, peer.refusal events bytes = none) →
      (∀ events, peer.reply events = .ok block) → statusBlockLen ≤ block.length →
      let answered := [.sent statusQuery, .received (block.take statusBlockLen)]
      (Shows prepared.media.spec block → printLabels true (some printer) payload peer [] =
        (.ok (some prepared.pages.length), answered ++ [.sent prepared.job])) ∧
      (¬Shows prepared.media.spec block → ∃ message,
        printLabels true (some printer) payload peer [] =
          (.error (.printerNotReady message), answered)) := by
  refine ⟨⟨?_, ?_⟩, fun o h => expanded_of_prepare h, ?_, ?_, ?_, ?_⟩
  case refine_1 =>
    rintro ⟨prepared, h⟩
    obtain ⟨_, _, he⟩ := expanded_of_prepare h
    exact ⟨_, he.admissible⟩
  case refine_2 =>
    rintro ⟨media, h⟩
    exact exists_prepare h
  case refine_3 =>
    intro media page built h he
    exact nomatch (exists_decodePage h).symm.trans he
  case refine_4 =>
    intro media page h
    have hl := le_of_not_larger h
    refine ⟨by omega, fun bitmap hd => ?_⟩
    have hs := Base64Engine.size_of_decode hd
    omega
  case refine_5 => exact fun permitted fetched peer r events h => exchanged_of_printLabels h
  case refine_6 =>
    intro prepared peer block hp hc hw hr hl answered
    rw [printLabels_eq hp]
    exact converse_eq hc hw hr hl

section Examples

def labelPrinter : LabelPrinterRow where
  mediaKind := "continuous"
  mediaWidthMm := 29
  mediaLengthMm := none
  autoCut := true

def encodedPage (page : Page) : PageJsonData where
  widthDots := page.widthDots
  heightDots := page.heightDots
  bitmapBase64 := .ofList (Base64.encode page.bitmap)

def stripedRequest : JsonData where
  pages := [encodedPage stripedPage, encodedPage blankPage]
  copies := some 2

def labelMedia : LabelPrinterMedia where
  spec := continuous 29 342 306 6
  supported := .head _

theorem decode_encodedPage {page : Page} :
    Base64.decode (encodedPage page).bitmapBase64.toList = some page.bitmap :=
  (congrArg Base64.decode String.toList_ofList).trans Base64.decode_encode

theorem admissible_striped :
    let _ := Base64Engine.standard
    Admissible labelPrinter stripedRequest labelMedia := by
  intro _
  refine ⟨configured_of_media rfl, by decide, by decide, fun page hp => ?_⟩
  rcases List.mem_cons.mp hp with rfl | hp
  case inl =>
    exact ⟨stripedPage, decode_encodedPage, List.length_replicate, rfl, by decide, nofun, rfl, rfl⟩
  case inr =>
    obtain rfl := List.mem_singleton.mp hp
    exact ⟨blankPage, decode_encodedPage, List.length_replicate, rfl, by decide, nofun, rfl, rfl⟩

theorem print_requests_are_gated_striped :
    let _ := Base64Engine.standard
    ∃ prepared, prepare labelPrinter stripedRequest = .ok (some prepared) ∧
      prepared.pages.length = 4 := by
  intro _
  obtain ⟨haccepted, hexpanded, _⟩ := print_requests_are_gated labelPrinter stripedRequest
  obtain ⟨prepared, hp⟩ := haccepted.mpr ⟨labelMedia, admissible_striped⟩
  obtain ⟨_, ho, he⟩ := hexpanded _ hp
  obtain rfl := Option.some.inj ho
  obtain ⟨built, hb, hpages⟩ := he.pages
  refine ⟨prepared, hp, ?_⟩
  rw [hpages, length_expanded, ← hb.length_eq]
  rfl

end Examples

end LabelPrinters

end LabInventory
