import LabInventory.Library.CommandStream
import LabInventory.LabelPrinting.Raster

open PackBits CommandStream

namespace LabInventory

namespace LabelPrinting

structure PrintInformation where
  flags : UInt8
  mediaType : UInt8
  width : UInt8
  length : UInt8
  lines : Nat
  page : UInt8
  reserved : UInt8
deriving DecidableEq

inductive Command
  | invalidate
  | initialise
  | switchMode (mode : UInt8)
  | requestStatus
  | printInformation (info : PrintInformation)
  | variousMode (mode : UInt8)
  | cutEach (labels : UInt8)
  | expandedMode (mode : UInt8)
  | margin (dots : Nat)
  | compression (mode : UInt8)
  | rasterLine (data : List UInt8)
  | print
  | printWithFeeding
deriving DecidableEq

def ofLeBytes (bytes : List UInt8) : Nat :=
  bytes.foldr (fun b n => b.toNat + 256 * n) 0

-- The command language of the printer. What follows the length of a raster line is not looked at.
def readCommand : List UInt8 → Option (Command × List UInt8)
  | 0x00 :: bytes => some (.invalidate, bytes)
  | 0x1B :: 0x40 :: bytes => some (.initialise, bytes)
  | 0x1B :: 0x69 :: 0x61 :: mode :: bytes => some (.switchMode mode, bytes)
  | 0x1B :: 0x69 :: 0x53 :: bytes => some (.requestStatus, bytes)
  | 0x1B :: 0x69 :: 0x7A :: flags :: mediaType :: width :: length :: n₀ :: n₁ :: n₂ :: n₃ :: page ::
      reserved :: bytes =>
    let lines := ofLeBytes [n₀, n₁, n₂, n₃]
    some (.printInformation { flags, mediaType, width, length, lines, page, reserved }, bytes)
  | 0x1B :: 0x69 :: 0x4D :: mode :: bytes => some (.variousMode mode, bytes)
  | 0x1B :: 0x69 :: 0x41 :: labels :: bytes => some (.cutEach labels, bytes)
  | 0x1B :: 0x69 :: 0x4B :: mode :: bytes => some (.expandedMode mode, bytes)
  | 0x1B :: 0x69 :: 0x64 :: n₀ :: n₁ :: bytes => some (.margin (ofLeBytes [n₀, n₁]), bytes)
  | 0x4D :: mode :: bytes => some (.compression mode, bytes)
  | 0x67 :: 0x00 :: n :: bytes =>
    if n.toNat ≤ bytes.length then
      some (.rasterLine (bytes.take n.toNat), bytes.drop n.toNat)
    else
      none
  | 0x0C :: bytes => some (.print, bytes)
  | 0x1A :: bytes => some (.printWithFeeding, bytes)
  | _ => none

structure PrintedPage where
  info : PrintInformation
  variousMode : UInt8
  cutEach : UInt8
  expandedMode : UInt8
  margin : Nat
  lines : List (List UInt8)
  fed : Bool
deriving DecidableEq

-- The commands of a session are those which are not part of a page.
structure Printer where
  session : List Command
  variousMode : UInt8
  cutEach : UInt8
  expandedMode : UInt8
  margin : Nat
  compression : UInt8
  info : Option PrintInformation
  buffer : List (List UInt8)
  printed : List PrintedPage
deriving DecidableEq

namespace Printer

def off : Printer where
  session := []
  variousMode := 0
  cutEach := 0
  expandedMode := 0
  margin := 0
  compression := 0
  info := none
  buffer := []
  printed := []

-- A page needs as many lines as have been announced.
def finish (printer : Printer) (fed : Bool) : Option Printer := do
  let info ← printer.info
  if printer.buffer.length = info.lines then
    let { variousMode, cutEach, expandedMode, margin, buffer, .. } := printer
    let page := { info, variousMode, cutEach, expandedMode, margin, lines := buffer, fed }
    return { printer with info := none, buffer := [], printed := printer.printed ++ [page] }
  else
    none

def step (printer : Printer) : Command → Option Printer
  | .printInformation info => if printer.info = none then some { printer with info } else none
  | .variousMode mode => some { printer with variousMode := mode }
  | .cutEach labels => some { printer with cutEach := labels }
  | .expandedMode mode => some { printer with expandedMode := mode }
  | .margin dots => some { printer with margin := dots }
  | .compression mode => some { printer with compression := mode }
  | .rasterLine data => do
    let _ ← printer.info
    let line ← if printer.compression = 0x02 then unpack data else some data
    if line.length = bytesPerRow then
      return { printer with buffer := printer.buffer ++ [line] }
    else
      none
  | .print => printer.finish false
  | .printWithFeeding => printer.finish true
  | c => if printer.info = none then some { printer with session := printer.session ++ [c] } else none

def stream : CommandStream UInt8 Command Printer where
  read := readCommand
  step := step

def receive (bytes : List UInt8) : Option Printer :=
  stream.run off bytes

-- The next page can begin.
structure Ready (printer : Printer) : Prop where
  info : printer.info = none
  buffer : printer.buffer = []

end Printer

theorem ofLeBytes_toLeBytes {k n : Nat} : ofLeBytes (toLeBytes k n) = n % 256 ^ k := by
  induction k generalizing n
  case zero => exact (Nat.mod_one n).symm
  case succ k ih =>
    have hc : ofLeBytes (toLeBytes (k + 1) n) =
        (UInt8.ofNat n).toNat + 256 * ofLeBytes (toLeBytes k (n / 256)) := rfl
    have hm : n % 256 ^ (k + 1) = n % 256 + 256 * (n / 256 % 256 ^ k) := by
      rw [Nat.pow_succ', Nat.mod_mul]
    rw [hc, ih, UInt8.toNat_ofNat', hm]

section Pages

variable {media : MediaSpec} {page : Page} {printer printer' : Printer} {autoCut : Bool}
  {line : List UInt8} {lines : List (List UInt8)} {index last : Nat} {offset : UInt16}
  {bytes : List UInt8} {c : Command}

open Printer

theorem receives_rasterLine (hi : printer.info.isSome) (hc : printer.compression = 0x02)
    (hl : line.length = bytesPerRow) :
    stream.Receives printer (encodeLine line) { printer with buffer := printer.buffer ++ [line] } := by
  have hn : (UInt8.ofNat (packBits line).length).toNat = (packBits line).length :=
    (toNat_length_packBits hl).right
  have hread (rest : List UInt8) : readCommand (encodeLine line ++ rest) =
      some (.rasterLine (packBits line), rest) := by
    have he : encodeLine line ++ rest =
        0x67 :: 0x00 :: .ofNat (packBits line).length :: (packBits line ++ rest) := rfl
    rw [he, readCommand, hn, if_pos (by rw [List.length_append]; omega), List.take_left,
      List.drop_left]
  refine receives_of_read (List.cons_ne_nil _ _) hread ?_
  obtain ⟨info, hi⟩ := Option.isSome_iff_exists.mp hi
  change (do
    let _ ← printer.info
    let line ← if printer.compression = 0x02 then unpack (packBits line) else some (packBits line)
    if line.length = bytesPerRow then
      return { printer with buffer := printer.buffer ++ [line] }
    else
      none : Option Printer) = _
  rw [hi, if_pos hc, unpack_packBits]
  exact if_pos hl

theorem receives_rasterLines (hi : printer.info.isSome) (hc : printer.compression = 0x02)
    (hl : ∀ line ∈ lines, line.length = bytesPerRow) :
    stream.Receives printer (lines.flatMap encodeLine)
      { printer with buffer := printer.buffer ++ lines } := by
  induction lines generalizing printer
  case nil =>
    rw [List.append_nil]
    exact .refl
  case cons line lines ih =>
    have hline := receives_rasterLine hi hc (hl line List.mem_cons_self)
    let next : Printer := { printer with buffer := printer.buffer ++ [line] }
    have hlines : stream.Receives next (lines.flatMap encodeLine)
        { next with buffer := next.buffer ++ lines } :=
      ih hi hc fun line h => hl line (List.mem_cons_of_mem _ h)
    have hb : next.buffer ++ lines = printer.buffer ++ line :: lines := List.append_assoc _ _ _
    rw [hb] at hlines
    exact hline.trans hlines

def announced (media : MediaSpec) (page : Page) (index : Nat) : PrintInformation where
  flags := validFlags
  mediaType := media.kind.printInformationCode
  width := media.widthMm
  length := media.lengthMm
  lines := page.heightDots.toNat
  page := if index = 0 then 0 else 1
  reserved := 0x00

theorem readCommand_printInformation {rest : List UInt8} :
    readCommand (pushPrintInformation media page index ++ rest) =
      some (.printInformation (announced media page index), rest) := by
  have hh : ofLeBytes (toLeBytes 4 page.heightDots.toNat) = page.heightDots.toNat := by
    rw [ofLeBytes_toLeBytes]
    exact Nat.mod_eq_of_lt <| Nat.lt_trans page.heightDots.toNat_lt (by decide)
  have he : readCommand (pushPrintInformation media page index ++ rest) = some (.printInformation {
      announced media page index with lines := ofLeBytes (toLeBytes 4 page.heightDots.toNat) },
      rest) := rfl
  rw [he, hh]
  rfl

theorem readCommand_margin {rest : List UInt8} : readCommand (pushMargins media ++ rest) =
    some (.margin media.feedMarginForPrint.toNat, rest) := by
  have hm : ofLeBytes (toLeBytes 2 media.feedMarginForPrint.toNat) =
      media.feedMarginForPrint.toNat := by
    rw [ofLeBytes_toLeBytes]
    exact Nat.mod_eq_of_lt media.feedMarginForPrint.toNat_lt
  have he : readCommand (pushMargins media ++ rest) =
    some (.margin (ofLeBytes (toLeBytes 2 media.feedMarginForPrint.toNat)), rest) := rfl
  rw [he, hm]

def printedPage (media : MediaSpec) (autoCut : Bool) (page : Page) (index last : Nat)
    (lines : List (List UInt8)) : PrintedPage where
  info := announced media page index
  variousMode := autoCut.toUInt8 <<< 6
  cutEach := 1
  expandedMode := autoCut.toUInt8 <<< 3
  margin := media.feedMarginForPrint.toNat
  lines := lines
  fed := index = last

-- A page leaves the printer ready for the next one.
theorem receives_page (media : MediaSpec) (autoCut : Bool) (index last : Nat)
    (hp : printer.Ready) (hl : ∀ line ∈ lines, line.length = bytesPerRow)
    (hn : lines.length = page.heightDots.toNat) :
    ∃ printer', stream.Receives printer (pushPrintInformation media page index ++
        pushModeCommands autoCut ++ pushMargins media ++ pushCompression ++
        lines.flatMap encodeLine ++ [if index = last then 0x1A else 0x0C]) printer' ∧
      printer'.Ready ∧ printer'.session = printer.session ∧
      printer'.printed = printer.printed ++ [printedPage media autoCut page index last lines] := by
  let info := announced media page index
  let p₁ : Printer := { printer with info := some info }
  let p₂ : Printer :=
    { p₁ with
      variousMode := autoCut.toUInt8 <<< 6
      cutEach := 1
      expandedMode := autoCut.toUInt8 <<< 3
    }
  let p₃ : Printer := { p₂ with margin := media.feedMarginForPrint.toNat }
  let p₄ : Printer := { p₃ with compression := 0x02 }
  let p₅ : Printer := { p₄ with buffer := lines }
  let printed := printedPage media autoCut page index last lines
  let p₆ : Printer := { p₅ with info := none, buffer := [], printed := printer.printed ++ [printed] }
  have h₁ : stream.Receives printer (pushPrintInformation media page index) p₁ :=
    receives_of_read (List.cons_ne_nil _ _) (fun _ => readCommand_printInformation) (if_pos hp.info)
  have h₂ : stream.Receives p₁ (pushModeCommands autoCut) p₂ := by
    let q₁ : Printer := { p₁ with variousMode := autoCut.toUInt8 <<< 6 }
    let q₂ : Printer := { q₁ with cutEach := 1 }
    have hv : stream.Receives p₁ [esc, 0x69, 0x4D, autoCut.toUInt8 <<< 6] q₁ :=
      receives_of_read (List.cons_ne_nil _ _) (fun _ => rfl) rfl
    have hc : stream.Receives q₁ [esc, 0x69, 0x41, 1] q₂ :=
      receives_of_read (List.cons_ne_nil _ _) (fun _ => rfl) rfl
    have he : stream.Receives q₂ [esc, 0x69, 0x4B, autoCut.toUInt8 <<< 3] p₂ :=
      receives_of_read (List.cons_ne_nil _ _) (fun _ => rfl) rfl
    exact (hv.trans hc).trans he
  have h₃ : stream.Receives p₂ (pushMargins media) p₃ :=
    receives_of_read (List.cons_ne_nil _ _) (fun _ => readCommand_margin) rfl
  have h₄ : stream.Receives p₃ pushCompression p₄ :=
    receives_of_read (List.cons_ne_nil _ _) (fun _ => rfl) rfl
  have h₅ : stream.Receives p₄ (lines.flatMap encodeLine) p₅ := by
    have hr : stream.Receives p₄ (lines.flatMap encodeLine)
        { p₄ with buffer := p₄.buffer ++ lines } := receives_rasterLines rfl rfl hl
    have hb : p₄.buffer = [] := hp.buffer
    rw [hb, List.nil_append] at hr
    exact hr
  have h₆ : stream.Receives p₅ [if index = last then 0x1A else 0x0C] p₆ := by
    have hf : p₅.finish (index = last) = some p₆ := if_pos hn
    by_cases he : index = last
    case pos =>
      rw [if_pos he]
      rw [decide_eq_true he] at hf
      exact receives_of_read (List.cons_ne_nil _ _) (fun _ => rfl) hf
    case neg =>
      rw [if_neg he]
      rw [decide_eq_false he] at hf
      exact receives_of_read (List.cons_ne_nil _ _) (fun _ => rfl) hf
  exact ⟨p₆, (((((h₁.trans h₂).trans h₃).trans h₄).trans h₅).trans h₆), ⟨rfl, rfl⟩, rfl, rfl⟩

theorem receives_invalidate {n : Nat} (hi : printer.info = none) :
    stream.Receives printer (.replicate n 0x00)
      { printer with session := printer.session ++ .replicate n .invalidate } := by
  induction n generalizing printer
  case zero =>
    rw [List.replicate_zero, List.replicate_zero, List.append_nil]
    exact .refl
  case succ n ih =>
    let next : Printer := { printer with session := printer.session ++ [.invalidate] }
    have h₁ : stream.Receives printer [0x00] next :=
      receives_of_read (List.cons_ne_nil _ _) (fun _ => rfl) (if_pos hi)
    have h₂ : stream.Receives next (.replicate n 0x00)
        { next with session := next.session ++ .replicate n .invalidate } := ih hi
    have hs : next.session ++ .replicate n .invalidate =
        printer.session ++ .replicate (n + 1) .invalidate := List.append_assoc _ _ _
    rw [hs] at h₂
    exact h₁.trans h₂

def preamble : List Command :=
  .replicate invalidateBytes .invalidate ++ [.initialise, .switchMode 0x01, .requestStatus]

theorem receives_preamble : stream.Receives off pushPreamble { off with session := preamble } := by
  let session : List Command := .replicate invalidateBytes .invalidate
  let p₁ : Printer := { off with session }
  let p₂ : Printer := { off with session := session ++ [.initialise] }
  let p₃ : Printer := { off with session := session ++ [.initialise] ++ [.switchMode 0x01] }
  let p₄ : Printer :=
    { off with session := session ++ [.initialise] ++ [.switchMode 0x01] ++ [.requestStatus] }
  have h₁ : stream.Receives off (.replicate invalidateBytes 0x00) p₁ := receives_invalidate rfl
  have h₂ : stream.Receives p₁ [esc, 0x40] p₂ :=
    receives_of_read (List.cons_ne_nil _ _) (fun _ => rfl) rfl
  have h₃ : stream.Receives p₂ [esc, 0x69, 0x61, 0x01] p₃ :=
    receives_of_read (List.cons_ne_nil _ _) (fun _ => rfl) rfl
  have h₄ : stream.Receives p₃ statusRequest p₄ :=
    receives_of_read (List.cons_ne_nil _ _) (fun _ => rfl) rfl
  have hp : p₄ = { off with session := preamble } := by
    simp only [p₄, session, preamble, List.append_assoc, List.cons_append, List.nil_append]
  exact hp ▸ h₁.trans ((h₂.trans h₃).trans h₄)

-- What has been printed is what has been asked for.
structure Faithful (media : MediaSpec) (autoCut : Bool) (page : Page) (index last : Nat)
    (printed : PrintedPage) : Prop where
  height : printed.info.lines = page.heightDots.toNat ∧
    printed.lines.length = page.heightDots.toNat
  first : printed.info.page = if index = 0 then 0 else 1
  stock : printed.info.mediaType = media.kind.printInformationCode ∧
    printed.info.width = media.widthMm ∧ printed.info.length = media.lengthMm ∧
    printed.margin = media.feedMarginForPrint.toNat
  cut : printed.variousMode = (if autoCut then 0x40 else 0) ∧ printed.cutEach = 1 ∧
    printed.expandedMode = if autoCut then 0x08 else 0
  fed : printed.fed ↔ index = last
  width : ∀ line ∈ printed.lines, 8 * line.length = pins.toNat
  dots : ∀ y line, printed.lines[y]? = some line → ∀ x < media.printableWidthDots.toNat,
    Bitmap.dot line (pins.toNat - media.printableWidthDots.toNat - media.rightMarginDots.toNat + x) =
      page.dot x y
  blank : ∀ line ∈ printed.lines, ∀ j,
    (j < pins.toNat - media.printableWidthDots.toNat - media.rightMarginDots.toNat ∨
      pins.toNat - media.rightMarginDots.toNat ≤ j) → Bitmap.dot line j = false

theorem exists_getElem? {α β : Type} {R : α → β → Prop} {as : List α} {bs : List β}
    (h : List.Forall₂ R as bs) {i : Nat} {b : β} (hb : bs[i]? = some b) :
    ∃ a, as[i]? = some a ∧ R a b := by
  induction h generalizing i
  case nil => exact nomatch hb
  case cons hr _ ih =>
    cases i
    case zero =>
      obtain rfl := Option.some.inj hb
      exact ⟨_, rfl, hr⟩
    case succ => exact ih hb

theorem faithful_printedPage (hf : media.Fits offset) (h : page.Accepted media)
    (hl : List.Forall₂ (PrintsRow media page) (List.range page.heightDots.toNat) lines) :
    Faithful media autoCut page index last (printedPage media autoCut page index last lines) := by
  have htotal := hf.total
  have hw := h.width
  have hrow {y : Nat} {line : List UInt8} (hy : lines[y]? = some line) :
      PrintsRow media page y line := by
    obtain ⟨y', hy', hp⟩ := exists_getElem? hl hy
    obtain ⟨_, he⟩ := List.getElem?_eq_some_iff.mp hy'
    rw [List.getElem_range] at he
    exact he ▸ hp
  constructor
  case height => exact ⟨rfl, hl.length_eq.symm.trans List.length_range⟩
  case first => rfl
  case stock => exact ⟨rfl, rfl, rfl, rfl⟩
  case cut => cases autoCut <;> exact ⟨rfl, rfl, rfl⟩
  case fed => exact decide_eq_true_iff
  case width =>
    intro line hm
    obtain ⟨y, hy⟩ := List.mem_iff_getElem?.mp hm
    rw [(hrow hy).length]
    rfl
  case dots =>
    intro y line hy x hx
    have ho : pins.toNat - media.printableWidthDots.toNat - media.rightMarginDots.toNat =
        offset.toNat := by omega
    rw [ho, Bool.eq_iff_iff, (hrow hy).dots offset hf]
    constructor
    case mp =>
      rintro ⟨x', _, he, hd⟩
      obtain rfl : x' = x := Nat.add_left_cancel he
      exact hd
    case mpr => exact fun hd => ⟨x, hw ▸ hx, rfl, hd⟩
  case blank =>
    intro line hm j hj
    obtain ⟨y, hy⟩ := List.mem_iff_getElem?.mp hm
    refine Bool.eq_false_iff.mpr fun hd => ?_
    obtain ⟨x, hx, he, _⟩ := ((hrow hy).dots offset hf j).mp hd
    rw [hw] at hx
    omega

theorem receives_pages {pages : List Page} (autoCut : Bool) (last first : Nat)
    (hf : media.Fits offset) (h : ∀ page ∈ pages, page.Accepted media) (hp : printer.Ready) :
    ∃ chunks printed printer', (pages.zipIdx first).mapM (fun (page, index) =>
        pushPage media autoCut last page index) = some chunks ∧
      stream.Receives printer chunks.flatten printer' ∧ printer'.Ready ∧
      printer'.session = printer.session ∧ printer'.printed = printer.printed ++ printed ∧
      List.Forall₂ (fun (page, index) => Faithful media autoCut page index last)
        (pages.zipIdx first) printed := by
  induction pages generalizing first printer
  case nil => exact ⟨[], [], printer, rfl, .refl, hp, rfl, (List.append_nil _).symm, .nil⟩
  case cons page pages ih =>
    have ha := h page List.mem_cons_self
    obtain ⟨lines, hl, hr⟩ := exists_pushRasterRows hf ha
    have hwidth : ∀ line ∈ lines, line.length = bytesPerRow := by
      intro line hm
      obtain ⟨y, hy⟩ := List.mem_iff_getElem?.mp hm
      obtain ⟨_, _, hp⟩ := exists_getElem? hr hy
      exact hp.length
    have hn : lines.length = page.heightDots.toNat := hr.length_eq.symm.trans List.length_range
    obtain ⟨p₁, h₁, hp₁, hs₁, hq₁⟩ := receives_page media autoCut first last hp hwidth hn
    obtain ⟨chunks, printed, p₂, hm, h₂, hp₂, hs₂, hq₂, ha₂⟩ :=
      ih (first + 1) (fun page hm => h page (List.mem_cons_of_mem _ hm)) hp₁
    refine ⟨_ :: chunks, _ :: printed, p₂, ?_, h₁.trans h₂, hp₂, hs₂.trans hs₁, ?_,
      .cons (faithful_printedPage hf ha hr) ha₂⟩
    case refine_1 =>
      rw [List.zipIdx_cons, List.mapM_cons, hm]
      simp only [pushPage, hl]
      rfl
    case refine_2 => rw [hq₂, hq₁, List.append_assoc]; rfl

-- The printer is left with all pages, and with nothing else.
structure Printed (media : MediaSpec) (autoCut : Bool) (pages : List Page) (printer : Printer) :
    Prop where
  ready : printer.Ready
  session : printer.session = preamble
  count : printer.printed.length = pages.length
  pages : ∀ index page, pages[index]? = some page → ∃ printed, printer.printed[index]? = some printed ∧
    Faithful media autoCut page index (pages.length - 1) printed

theorem exists_encodeJob {pages : List Page} (hm : media ∈ supportedMedia) (hn : pages ≠ [])
    (h : ∀ page ∈ pages, page.Accepted media) :
    ∃ bytes printer, encodeJob media autoCut pages = .ok (some bytes) ∧
      receive bytes = some printer ∧ Printed media autoCut pages printer := by
  obtain ⟨offset, hf⟩ := exists_fits hm
  let started : Printer := { off with session := preamble }
  have hs : started.Ready := ⟨rfl, rfl⟩
  obtain ⟨chunks, printed, printer, hc, hr, hready, hsession, hprinted, hfaithful⟩ :=
    receives_pages autoCut (pages.length - 1) 0 hf h hs
  have hprinted : printer.printed = printed := hprinted
  refine ⟨pushPreamble ++ chunks.flatten, printer, ?_, (receives_preamble.trans hr).run_eq, ?_⟩
  case refine_1 =>
    rw [encodeJob, Except.check, if_pos hn]
    simp only [hc]
    rfl
  case refine_2 =>
    have hl : pages.length = printed.length := by
      rw [← hfaithful.length_eq, List.length_zipIdx]
    refine ⟨hready, hsession, hprinted ▸ hl.symm, fun index page hp => ?_⟩
    have hi : index < printed.length := hl ▸ (List.getElem?_eq_some_iff.mp hp).choose
    obtain ⟨⟨page', index'⟩, hz, hfp⟩ := exists_getElem? hfaithful (List.getElem?_eq_getElem hi)
    rw [List.getElem?_zipIdx, hp] at hz
    obtain ⟨rfl, rfl⟩ := Prod.mk.inj <| Option.some.inj hz
    rw [Nat.zero_add] at hfp
    exact ⟨_, hprinted ▸ List.getElem?_eq_getElem hi, hfp⟩

-- The stream can be read back, whatever is on the labels.
theorem job_is_faithful {pages : List Page} (hm : media ∈ supportedMedia) (hn : pages ≠ [])
    (h : ∀ page ∈ pages, ∃ widthDots heightDots bitmap,
      Page.new media widthDots heightDots bitmap = .ok page) :
    ∃ bytes printer, encodeJob media autoCut pages = .ok (some bytes) ∧
      receive bytes = some printer ∧ Printed media autoCut pages printer := by
  refine exists_encodeJob hm hn fun page hp => ?_
  obtain ⟨widthDots, heightDots, bitmap, hok⟩ := h page hp
  exact (new_eq_ok.mp hok).right

end Pages

section Examples

def blankPage : Page where
  widthDots := 306
  heightDots := 150
  bitmap := .replicate (39 * 150) 0

-- Every other dot is black.
def stripedPage : Page where
  widthDots := 306
  heightDots := 200
  bitmap := .replicate (39 * 200) 0xAA

theorem job_is_faithful_striped :
    ∃ bytes printer,
      encodeJob (continuous 29 342 306 6) true [stripedPage, blankPage] = .ok (some bytes) ∧
      Printer.receive bytes = some printer ∧
      Printed (continuous 29 342 306 6) true [stripedPage, blankPage] printer := by
  refine job_is_faithful (.head _) (List.cons_ne_nil _ _) fun page hp => ?_
  rcases List.mem_cons.mp hp with rfl | hp
  case inl =>
    refine ⟨306, 200, stripedPage.bitmap, new_eq_ok.mpr ⟨rfl, rfl, by decide, ?_⟩⟩
    exact List.length_replicate
  case inr =>
    obtain rfl := List.mem_singleton.mp hp
    refine ⟨306, 150, blankPage.bitmap, new_eq_ok.mpr ⟨rfl, rfl, by decide, ?_⟩⟩
    exact List.length_replicate

end Examples

end LabelPrinting

end LabInventory
