import LabInventory.Federation.Borrowing.Basic
import LabInventory.Federation.GuestLinks.Guests

open Sql Program

namespace LabInventory

namespace Federation

open InventoryItems BorrowRequests

-- How a request came in: under which account, and by which link. A guest who is signed in also gets
-- a link, if there is one.
structure Filing where
  laboratoryId : Uuid
  userId : Uuid
  linkId : Option Uuid
  federated : Bool

-- Who has filed the requests.
abbrev Filings := Uuid → Option Filing

variable {h : Filings} {f : Filing} {d d' : Database} {r : BorrowRequestRow} {w : Write}

-- What is left of a filing: the account and the link are forgotten once they are deleted.
structure Filed (h : Filings) (d : Database) (r : BorrowRequestRow) (f : Filing) : Prop where
  filing : h r.borrowRequestId = some f
  laboratoryId : r.localLaboratoryId = f.laboratoryId
  userId : ∀ u ∈ r.requesterUserId, u = f.userId
  linkId : r.requesterGuestLinkId = f.linkId ∨
    r.requesterGuestLinkId = none ∧ ∀ k ∈ f.linkId, ∀ e ∈ links d, e.linkId ≠ k

def OnFile (h : Filings) (d : Database) : Prop :=
  ∀ r ∈ d.borrowRequests, ∃ f, Filed h d r f

-- Writes which neither change requests nor give a link an identifier that was in use before.
def LeavesRequests (h : Filings) : Write → Prop
  | .borrowRequests _ | .guestLinks (.delete _) | .remoteNodes (.delete _) => False
  | .guestLinks (.insert r) => ∀ id f, h id = some f → f.linkId ≠ some r.linkId
  | _ => True

-- The requests that are left refer to what they referred to before, unless that was deleted.
structure Retains (d' : Database) (r r' : BorrowRequestRow) : Prop where
  borrowRequestId : r'.borrowRequestId = r.borrowRequestId
  laboratoryId : r'.localLaboratoryId = r.localLaboratoryId
  userId : r'.requesterUserId = r.requesterUserId ∨ r'.requesterUserId = none
  linkId : r'.requesterGuestLinkId = r.requesterGuestLinkId ∨ r'.requesterGuestLinkId = none ∧
    ∀ k ∈ r.requesterGuestLinkId, ∀ e ∈ links d', e.linkId ≠ k

theorem Retains.refl : Retains d' r r :=
  ⟨rfl, rfl, .inl rfl, .inl rfl⟩

theorem Filed.retains {r' : BorrowRequestRow} (hf : Filed h d r f) (hr : Retains d' r r')
    (hl : ∀ e' ∈ links d', (∃ e ∈ links d, e.linkId = e'.linkId) ∨ f.linkId ≠ some e'.linkId) :
    Filed h d' r' f where
  filing := hr.borrowRequestId ▸ hf.filing
  laboratoryId := hr.laboratoryId.trans hf.laboratoryId
  userId u hu := by
    rcases hr.userId with he | he
    case inl => exact hf.userId u (he ▸ hu)
    case inr => simp [he] at hu
  linkId := by
    rcases hf.linkId with he | ⟨hn, hg⟩
    case inl => exact he ▸ hr.linkId
    case inr =>
      refine .inr ⟨?_, fun k hk e' he' hid => ?_⟩
      case refine_1 =>
        rcases hr.linkId with he | he
        case inl => exact he.trans hn
        case inr => exact he.left
      case refine_2 =>
        rcases hl e' he' with ⟨e, he, hi⟩ | hi
        case inl => exact hg k hk e he (hi.trans hid)
        case inr => exact hi (hid ▸ hk)

theorem links_of_leavesRequests (hw : LeavesRequests h w) (ha : apply w d = .ok d') {e' : LinkEntry}
    (he : e' ∈ links d') : (∃ e ∈ links d, e.linkId = e'.linkId) ∨
      ∀ id f, h id = some f → f.linkId ≠ some e'.linkId := by
  obtain ⟨r, hr, rfl⟩ := he
  rcases guestLinks_of_apply ha hr with hm | rfl | rfl
  case inl => exact .inl ⟨_, mem_links hm, rfl⟩
  case inr.inl => exact .inr hw
  case inr.inr =>
    obtain ⟨_, hu, _⟩ := (apply_guestLinks (.inr rfl)).mp ha
    obtain ⟨_, hn⟩ | ⟨_, r₁, hm, hk⟩ := (Table.mem_update hu).mp hr
    case inl => exact absurd rfl hn
    case inr => exact .inl ⟨_, mem_links hm, hk⟩

theorem filter_eq_or_none {o : Option Uuid} {p : Uuid → Bool} :
    o.filter p = o ∨ o.filter p = none ∧ ∀ k ∈ o, p k = false := by
  cases o
  case none => exact .inl rfl
  case some k => cases hp : p k <;> simp [hp]

-- The account and its links are deleted together.
theorem retains_of_deleteUser {k : Uuid} (ha : apply (.users (.delete k)) d = .ok d')
    {r' : BorrowRequestRow} (hr : r' ∈ d'.borrowRequests) :
    ∃ r ∈ d.borrowRequests, Retains d' r r' := by
  have hd := removes_of_apply ha
  simp only [apply, Database.apply, Database.writeUsers, Except.bind_eq_ok, Except.check_eq_ok,
    Except.pure_eq_ok] at ha
  obtain ⟨users, _, _, _, he⟩ := ha
  rw [← he] at hr
  simp only [Database.deleteGuestLinks, Table.mem_modify] at hr
  obtain ⟨_, ⟨r, hm, rfl⟩, rfl⟩ := hr
  refine ⟨r, hm, rfl, rfl, ?_, ?_⟩
  case refine_1 => exact filter_eq_or_none.imp_right And.left
  case refine_2 =>
    refine filter_eq_or_none.imp_right fun h => ⟨h.left, fun id hid e he hk => ?_⟩
    have hx := h.right id hid
    simp only [Bool.not_eq_false', List.any_eq_true, Bool.and_eq_true, decide_eq_true_eq] at hx
    obtain ⟨link, hlink, hu, rfl⟩ := hx
    rw [hd.links] at he
    have he' := entry_eq_of_linkId_eq he.left (mem_links hlink) hk
    exact he.right (he' ▸ hu)

theorem retains_of_apply (hw : LeavesRequests h w) (ha : apply w d = .ok d')
    {r' : BorrowRequestRow} (hr : r' ∈ d'.borrowRequests) :
    ∃ r ∈ d.borrowRequests, Retains d' r r' := by
  have hf := Database.applied_of_apply ha
  cases w
  case borrowRequests => exact hw.elim
  case users w =>
    cases w
    case delete => exact retains_of_deleteUser ha hr
    all_goals
      simp only [apply, Database.apply, Database.writeUsers, Except.bind_eq_ok,
        Except.pure_eq_ok] at ha
      obtain ⟨_, _, _, _, rfl⟩ := ha
      exact ⟨r', hr, .refl⟩
  case assets w =>
    cases w
    case delete =>
      simp only [apply, Database.apply, Database.writeAssets, Except.bind_eq_ok,
        Except.pure_eq_ok] at ha
      obtain ⟨_, _, rfl⟩ := ha
      exact ⟨r', (Table.mem_filter.mp hr).left, .refl⟩
    all_goals
      simp only [apply, Database.apply, Database.writeAssets, Except.bind_eq_ok,
        Except.pure_eq_ok] at ha
      obtain ⟨_, _, _, _, rfl⟩ := ha
      exact ⟨r', hr, .refl⟩
  case assetInventoryItems w =>
    cases w
    case delete =>
      simp only [apply, Database.apply, Database.writeAssetInventoryItems, Except.bind_eq_ok,
        Except.pure_eq_ok] at ha
      obtain ⟨_, _, rfl⟩ := ha
      exact ⟨r', (Table.mem_filter.mp hr).left, .refl⟩
    all_goals
      simp only [apply, Database.apply, Database.writeAssetInventoryItems, Except.bind_eq_ok,
        Except.pure_eq_ok] at ha
      obtain ⟨_, _, rfl⟩ := ha
      exact ⟨r', hr, .refl⟩
  case guestLinks w =>
    cases w
    case delete => exact hw.elim
    case insert =>
      rw [((apply_guestLinks (.inl rfl)).mp ha).right.right] at hr
      exact ⟨r', hr, .refl⟩
    case update =>
      rw [((apply_guestLinks (.inr rfl)).mp ha).right.right] at hr
      exact ⟨r', hr, .refl⟩
  case remoteNodes w =>
    cases w
    case delete => exact hw.elim
    all_goals
      simp only [apply, Database.apply, Database.writeRemoteNodes, Except.bind_eq_ok,
        Except.pure_eq_ok] at ha
      obtain ⟨_, _, _, _, rfl⟩ := ha
      exact ⟨r', hr, .refl⟩
  case tree kind w =>
    have hb : d'.borrowRequests = d.borrowRequests := by cases kind <;> rw [hf.right]
    exact ⟨r', hb ▸ hr, .refl⟩
  all_goals
    have hb : d'.borrowRequests = d.borrowRequests := by rw [hf.right]
    exact ⟨r', hb ▸ hr, .refl⟩

theorem OnFile.apply (hd : OnFile h d) (hw : LeavesRequests h w)
    (ha : Sql.apply w d = .ok d') : OnFile h d' := by
  intro r' hr'
  obtain ⟨r, hr, hret⟩ := retains_of_apply hw ha hr'
  obtain ⟨f, hf⟩ := hd r hr
  refine ⟨f, hf.retains hret fun e' he' => ?_⟩
  exact (links_of_leavesRequests hw ha he').imp_right fun hn => hn _ f hf.filing

section Requests

variable {ctx : LaboratoryContext} {laboratoryId inventoryItemId borrowRequestId newId : Uuid}
variable {guestLinkId : Option Uuid} {requestNote : Option String}

-- Requests get another status at most.
structure Edits (d d' : Database) : Prop where
  guestLinks : d'.guestLinks = d.guestLinks
  requests : ∀ r' ∈ d'.borrowRequests, ∃ r ∈ d.borrowRequests, Retains d' r r'

theorem Edits.refl : Edits d d :=
  ⟨rfl, fun r hr => ⟨r, hr, .refl⟩⟩

theorem Edits.of_eq (hg : d'.guestLinks = d.guestLinks) (hb : d'.borrowRequests = d.borrowRequests) :
    Edits d d' :=
  ⟨hg, fun r hr => ⟨r, hb ▸ hr, .refl⟩⟩

theorem Retains.trans {r' r'' : BorrowRequestRow} {d'' : Database} (h : Retains d' r r')
    (h' : Retains d'' r' r'') (hl : links d'' = links d') : Retains d'' r r'' where
  borrowRequestId := h'.borrowRequestId.trans h.borrowRequestId
  laboratoryId := h'.laboratoryId.trans h.laboratoryId
  userId := by
    rcases h'.userId with he | he
    case inl => exact he ▸ h.userId
    case inr => exact .inr he
  linkId := by
    rcases h.linkId with he | ⟨hn, hg⟩
    case inl => exact he ▸ h'.linkId
    case inr =>
      refine .inr ⟨?_, hl ▸ hg⟩
      rcases h'.linkId with he | he
      case inl => exact he.trans hn
      case inr => exact he.left

theorem Edits.trans {d'' : Database} (h : Edits d d') (h' : Edits d' d'') : Edits d d'' where
  guestLinks := h'.guestLinks.trans h.guestLinks
  requests r'' hr'' := by
    obtain ⟨r', hr', he'⟩ := h'.requests r'' hr''
    obtain ⟨r, hr, he⟩ := h.requests r' hr'
    exact ⟨r, hr, he.trans he' (links_congr h'.guestLinks)⟩

theorem OnFile.edits (hd : OnFile h d) (he : Edits d d') : OnFile h d' := by
  intro r' hr'
  obtain ⟨r, hr, hret⟩ := he.requests r' hr'
  obtain ⟨f, hf⟩ := hd r hr
  have hl : links d' = links d := links_congr he.guestLinks
  exact ⟨f, hf.retains hret fun e he => .inl ⟨e, hl ▸ he, rfl⟩⟩

theorem OnFile.after {α : Type} {p : Transaction α} (hd : OnFile h d)
    (hp : p.wlp (fun _ => OnFile h) d) : OnFile h (p.after d) :=
  wp_after hp hd

-- The edits that a decision or a cancellation makes to a request.
structure KeepsFiling (g : BorrowRequestRow → BorrowRequestRow) : Prop where
  borrowRequestId : ∀ r, (g r).borrowRequestId = r.borrowRequestId
  laboratoryId : ∀ r, (g r).localLaboratoryId = r.localLaboratoryId
  userId : ∀ r, (g r).requesterUserId = r.requesterUserId
  linkId : ∀ r, (g r).requesterGuestLinkId = r.requesterGuestLinkId

theorem wlp_updateBorrowRequestRow {g : BorrowRequestRow → BorrowRequestRow} {context : String}
    (hg : KeepsFiling g) :
    (updateBorrowRequestRow borrowRequestId laboratoryId g context).wlp
      (fun _ d' => Edits d d') d := by
  simp only [updateBorrowRequestRow, wp_bind, wp_selectForUpdate]
  cases hf : (d.borrowRequests.find? borrowRequestId).filter (·.localLaboratoryId = laboratoryId)
  case none => exact .refl
  case some r =>
    refine wp_exec.mpr ⟨fun d' ha => ⟨trivial, ?_⟩, fun _ _ => trivial⟩
    have happ := Database.applied_of_apply ha
    obtain ⟨hf, _⟩ := Option.filter_eq_some_iff.mp hf
    have hm := (Table.find?_eq_some.mp hf).left
    refine ⟨by rw [happ.right], fun r' hr' => ?_⟩
    rcases (Table.mem_update happ.left).mp hr' with ⟨hr', _⟩ | ⟨rfl, _⟩
    case inl => exact ⟨r', hr', .refl⟩
    case inr =>
      exact ⟨r, hm, hg.borrowRequestId r, hg.laboratoryId r, .inl (hg.userId r), .inl (hg.linkId r)⟩

theorem wlp_cancelBorrowRequest :
    (cancelBorrowRequest ctx borrowRequestId guestLinkId).wlp (fun _ d' => Edits d d') d := by
  unfold cancelBorrowRequest
  refine wp_readOnly_bind readOnly_ofExcept fun _ => ?_
  refine wp_readOnly_bind readOnly_requireBorrowRequest fun _ => ?_
  refine wp_readOnly_bind readOnly_require fun _ => wp_readOnly_bind readOnly_require fun _ => ?_
  refine wp_bind.mpr <| wp_mono (wlp_updateBorrowRequestRow ⟨?_, ?_, ?_, ?_⟩) fun _ d' he => ?_
  case refine_5 => exact wp_readOnly_bind readOnly_requireBorrowRequest fun _ => he
  all_goals exact fun _ => rfl

theorem wlp_resolveBorrowRequest {decision : String} {note : Option String} :
    (resolveBorrowRequest ctx borrowRequestId decision note).wlp (fun _ d' => Edits d d') d := by
  unfold resolveBorrowRequest
  refine wp_readOnly_bind readOnly_ofExcept fun _ => ?_
  refine wp_readOnly_bind readOnly_ofExcept fun decision => ?_
  refine wp_readOnly_bind readOnly_requireBorrowRequest fun request => ?_
  refine wp_readOnly_bind readOnly_require fun _ => ?_
  refine wp_readOnly_bind readOnly_selectForUpdate fun item => ?_
  cases item
  case none => trivial
  case some item =>
    refine wp_readOnly_bind readOnly_require fun _ => ?_
    refine wp_readOnly_bind readOnly_fetch fun reviewer => ?_
    have hdecided {d₁ : Database} (he : Edits d d₁) : (do
        updateBorrowRequestDecision borrowRequestId ctx.laboratoryId decision ctx.actor.userId
          reviewer.1 reviewer.2 (normalizeOptionalText note)
        let _ ← requireBorrowRequest ctx.laboratoryId borrowRequestId :
          Transaction Unit).wlp (fun _ d' => Edits d d') d₁ := by
      refine wp_bind.mpr <| wp_readOnly_bind readOnly_read fun now => ?_
      refine wp_readOnly_bind Transaction.readOnly_bindTexts fun _ => ?_
      refine wp_mono (wlp_updateBorrowRequestRow ⟨?_, ?_, ?_, ?_⟩) fun _ d₂ he₂ => ?_
      case refine_5 => exact wp_readOnly_bind readOnly_requireBorrowRequest fun _ => he.trans he₂
      all_goals exact fun _ => rfl
    cases decision
    case approved =>
      refine wp_bind.mpr <| wp_mono (Q := fun _ d₁ => Edits d d₁) ?_ fun _ d₁ he => hdecided he
      simp only [markInventoryItemBorrowed, wp_bind, wp_selectForUpdate]
      cases d.assetInventoryItems.find? item.inventoryItemId
      case none => exact .refl
      case some found =>
        refine wp_exec.mpr ⟨fun d' ha => ⟨trivial, ?_⟩, fun _ _ => trivial⟩
        simp only [apply, Database.apply, Database.writeAssetInventoryItems, Except.bind_eq_ok,
          Except.pure_eq_ok] at ha
        obtain ⟨_, _, rfl⟩ := ha
        exact .of_eq rfl rfl
    all_goals exact hdecided .refl

theorem wlp_createBorrowRequest :
    (createBorrowRequest ctx inventoryItemId guestLinkId requestNote newId).wlp
      (fun _ d' => ∃ r : BorrowRequestRow, r.borrowRequestId = newId ∧
        r.localLaboratoryId = ctx.laboratoryId ∧ r.requesterUserId = some ctx.actor.userId ∧
        r.requesterGuestLinkId = guestLinkId ∧ apply (.borrowRequests (.insert r)) d = .ok d') d := by
  unfold createBorrowRequest
  refine wp_readOnly_bind readOnly_selectForUpdate fun item => ?_
  cases item
  case none => trivial
  case some item =>
    refine wp_readOnly_bind readOnly_require fun _ => wp_readOnly_bind readOnly_ofExcept fun _ => ?_
    refine wp_readOnly_bind readOnly_require fun _ => wp_readOnly_bind readOnly_read fun _ => ?_
    refine wp_readOnly_bind readOnly_require fun _ => ?_
    refine wp_readOnly_bind (p := fetchUserSnapshot _) readOnly_fetch fun requester => ?_
    refine wp_readOnly_bind readOnly_read fun now => wp_bind.mpr ?_
    refine wp_readOnly_bind Transaction.readOnly_bindTexts fun _ => ?_
    refine wp_exec.mpr ⟨fun d' ha => ⟨trivial, ?_⟩, fun _ _ => trivial⟩
    exact wp_readOnly_bind readOnly_requireBorrowRequest fun _ => ⟨_, rfl, rfl, rfl, rfl, ha⟩

-- Whether a request can be cancelled, and by whom.
theorem cancelBorrowRequest_eq_ok :
    (∃ d', (cancelBorrowRequest ctx borrowRequestId guestLinkId).run d = .ok ((), d')) ↔
      validateRequestActor ctx.actor ctx.laboratoryId = .ok () ∧
      ∃ r, fetchBorrowRequest? d ctx.laboratoryId borrowRequestId = some r ∧
        cancellableBy r ctx.actor guestLinkId ∧ r.status = .pending := by
  constructor
  case mp =>
    rintro ⟨d', hr⟩
    suffices hw : (cancelBorrowRequest ctx borrowRequestId guestLinkId).wlp (fun _ _ =>
        validateRequestActor ctx.actor ctx.laboratoryId = .ok () ∧
        ∃ r, fetchBorrowRequest? d ctx.laboratoryId borrowRequestId = some r ∧
          cancellableBy r ctx.actor guestLinkId ∧ r.status = .pending) d from (wp_run hw hr :)
    simp only [cancelBorrowRequest, wp_bind, wp_ofExcept, wp_requireBorrowRequest, wp_require,
      implies_true, and_true]
    exact fun _ ha r hf hc hp => wlp_of_forall fun _ _ _ _ => ⟨ha, r, hf, hc, hp⟩
  case mpr =>
    rintro ⟨ha, r, hf, hc, hp⟩
    suffices hw : (cancelBorrowRequest ctx borrowRequestId guestLinkId).wp (fun _ => True)
        (fun _ => False) (fun _ _ => True) d by
      obtain ⟨_, d', hr, _⟩ := wp_total hw
      exact ⟨d', hr⟩
    obtain ⟨hm, hk, hl, hi⟩ := fetchBorrowRequest?_eq_some.mp hf
    have hfind : (d.borrowRequests.find? borrowRequestId).filter
        (·.localLaboratoryId = ctx.laboratoryId) = some r :=
      Option.filter_eq_some_iff.mpr ⟨Table.find?_eq_some.mpr ⟨hm, hk⟩, by simpa using hl⟩
    have hupdate : (updateBorrowRequestCancelled borrowRequestId ctx.laboratoryId).wp
        (fun _ => True) (fun _ => False) (fun _ d' =>
          (fetchBorrowRequest? d' ctx.laboratoryId borrowRequestId).isSome) d := by
      simp only [updateBorrowRequestCancelled, updateBorrowRequestRow, wp_bind, wp_selectForUpdate,
        hfind]
      refine wp_exec.mpr ⟨fun d' hw => ⟨trivial, ?_⟩, fun c hw => ?_⟩
      case refine_1 =>
        have happ := Database.applied_of_apply hw
        have hd : d' = { d with borrowRequests := d'.borrowRequests } := happ.right
        refine Option.isSome_iff_exists.mpr ⟨{ r with status := .cancelled },
          fetchBorrowRequest?_eq_some.mpr ⟨?_, hk, hl, by rw [hd]; exact hi⟩⟩
        exact (Table.mem_update happ.left).mpr (.inr ⟨rfl, r, hm, rfl⟩)
      case refine_2 =>
        have hc : d.borrowRequests.clash? { r with status := .cancelled } = none := by
          simp [Table.clash?_eq_none, conflict?_eq_none, TableSchema.indexes]
        obtain ⟨t, ht⟩ := Table.exists_update hc
        simp [apply, Database.apply, Table.write, ht, bind, Except.bind, pure, Except.pure] at hw
    simp only [cancelBorrowRequest, wp_bind, wp_ofExcept, wp_requireBorrowRequest, wp_require, ha, hf,
      hc, hp, Option.some.injEq, reduceCtorEq, not_true_eq_false, false_implies, implies_true,
      and_true, forall_const, forall_eq']
    refine wp_mono hupdate fun _ d' hs => ⟨fun _ _ => trivial, fun hn => ?_⟩
    simp [hn] at hs

end Requests

section Runs

variable [ScanOrder] {e : LinkEntry}

-- The states that are reached from one without requests. A caller acts through a link in the state
-- in which the request is processed.
inductive Borrowing : Database → Filings → Prop
  | init {d₁} : (∀ r, r ∉ Database.borrowRequests d₁) → Borrowing d₁ fun _ => none
  | file {d₁ h₁ d₂ query body newId response} {e₁ : LinkEntry} {inventoryItemId : Uuid} :
      Borrowing d₁ h₁ → e₁ ∈ links d₁ →
      (respondFederationBorrow e₁.remote.1 ⟨e₁.linkId, e₁.localGuestUserId⟩
        (.create inventoryItemId) query body newId).run d₁ = .ok (response, d₂) →
      Borrowing d₂ (Function.update h₁ newId <| some {
        laboratoryId := e₁.remote.1
        userId := e₁.localGuestUserId
        linkId := some e₁.linkId
        federated := true
      })
  | fileLocally {d₁ h₁ d₂ requestNote newId} {ctx : LaboratoryContext} {inventoryItemId : Uuid} :
      Borrowing d₁ h₁ →
      (Routes.createBorrowRequest ctx inventoryItemId requestNote newId).run d₁ = .ok ((), d₂) →
      Borrowing d₂ (Function.update h₁ newId <| some {
        laboratoryId := ctx.laboratoryId
        userId := ctx.actor.userId
        linkId := fetchGuestLinkId ctx.actor.userId ctx.laboratoryId d₁
        federated := false
      })
  | cancel {d₁ h₁ query body newId} {e₁ : LinkEntry} {borrowRequestId : Uuid} :
      Borrowing d₁ h₁ → e₁ ∈ links d₁ →
      Borrowing ((respondFederationBorrow e₁.remote.1 ⟨e₁.linkId, e₁.localGuestUserId⟩
        (.cancel borrowRequestId) query body newId).after d₁) h₁
  | cancelLocally {d₁ h₁} {ctx : LaboratoryContext} {borrowRequestId : Uuid} : Borrowing d₁ h₁ →
      Borrowing ((Routes.cancelBorrowRequest ctx borrowRequestId).after d₁) h₁
  | resolve {d₁ h₁} {ctx : LaboratoryContext} {borrowRequestId decision note} : Borrowing d₁ h₁ →
      Borrowing ((resolveBorrowRequest ctx borrowRequestId decision note).after d₁) h₁
  | other {d₁ h₁} {p : Transaction Unit} : Borrowing d₁ h₁ → p.Writes (LeavesRequests h₁) →
      Borrowing (p.after d₁) h₁

omit [ScanOrder] in
theorem OnFile.file {f : Filing} (hd : OnFile h d)
    (ha : Sql.apply (.borrowRequests (.insert r)) d = .ok d')
    (hl : r.localLaboratoryId = f.laboratoryId)
    (hu : r.requesterUserId = some f.userId) (hk : r.requesterGuestLinkId = f.linkId) :
    OnFile (Function.update h r.borrowRequestId <| some f) d' := by
  have happ := Database.applied_of_apply ha
  have hls : links d' = links d := links_congr (by rw [happ.right])
  intro r' hr'
  rcases (Table.mem_insert happ.left).mp hr' with hr' | rfl
  case inl =>
    obtain ⟨f', hf⟩ := hd r' hr'
    have hne : r'.borrowRequestId ≠ r.borrowRequestId := (Table.insert_eq_ok.mp happ.left).left r' hr'
    refine ⟨f', ?_, hf.laboratoryId, hf.userId, hls ▸ hf.linkId⟩
    rw [Function.update_of_ne hne]
    exact hf.filing
  case inr =>
    exact ⟨f, Function.update_self .., hl, fun u h => Option.some.inj (h.symm.trans hu), .inl hk⟩

omit [ScanOrder] in
theorem wp_federatedActor_bind {α : Type} {I : Database → Prop} {R : ApiError → Prop}
    {caller : GuestLinkIdentity} {p : Actor → Transaction α} {Q : α → Database → Prop}
    (hp : ∀ a ∈ getActor d caller.localGuestUserId, a.userId = caller.localGuestUserId →
      (p a).wp I R Q d)
    (hn : getActor d caller.localGuestUserId = none →
      R (.unexpected "Federation guest link points at a user that does not exist")) :
    (federatedActor caller >>= p).wp I R Q d := by
  refine wp_bind.mpr <| wp_fetch.mpr ⟨fun a ha => hp a ha ?_, hn⟩
  obtain ⟨_, hf, rfl⟩ := Option.map_eq_some_iff.mp ha
  exact (Table.find?_eq_some.mp hf).right

omit [ScanOrder] in
theorem wlp_respondFederationBorrow_create {laboratoryId inventoryItemId newId : Uuid}
    {caller : GuestLinkIdentity} {query body} :
    (respondFederationBorrow laboratoryId caller (.create inventoryItemId) query body newId).wlp
      (fun _ d' => ∃ r : BorrowRequestRow, r.borrowRequestId = newId ∧
        r.localLaboratoryId = laboratoryId ∧ r.requesterUserId = some caller.localGuestUserId ∧
        r.requesterGuestLinkId = some caller.linkId ∧
        Sql.apply (.borrowRequests (.insert r)) d = Except.ok d') d := by
  refine wp_federatedActor_bind (fun a _ ha => ?_) fun _ => trivial
  refine wp_readOnly_bind readOnly_ofExcept fun note => wp_bind.mpr ?_
  exact wp_mono wlp_createBorrowRequest fun _ _ ⟨r, hk, hl, hu, hg, hw⟩ =>
    ⟨r, hk, hl, ha ▸ hu, hg, hw⟩

omit [ScanOrder] in
theorem wlp_respondFederationBorrow_cancel {laboratoryId borrowRequestId newId : Uuid}
    {caller : GuestLinkIdentity} {query body} :
    (respondFederationBorrow laboratoryId caller (.cancel borrowRequestId) query body newId).wlp
      (fun _ d' => Edits d d') d := by
  refine wp_federatedActor_bind (fun a _ _ => wp_bind.mpr ?_) fun _ => trivial
  exact wp_mono wlp_cancelBorrowRequest fun _ _ he => he

theorem Borrowing.onFile (hr : Borrowing d h) : OnFile h d := by
  induction hr
  case init hn => exact fun r hr => absurd hr (hn r)
  case file hrun ih =>
    obtain ⟨r, rfl, hl, hu, hk, ha⟩ := wp_run wlp_respondFederationBorrow_create hrun
    exact ih.file ha hl hu hk
  case fileLocally hrun ih =>
    simp only [Routes.createBorrowRequest, run_bind] at hrun
    obtain ⟨r, rfl, hl, hu, hk, ha⟩ := wp_run wlp_createBorrowRequest hrun
    exact ih.file ha hl hu hk
  case cancel ih =>
    exact wp_after (wp_mono wlp_respondFederationBorrow_cancel fun _ _ he => ih.edits he) ih
  case cancelLocally ih =>
    refine wp_after (I := fun _ => True) (wp_readOnly_bind readOnly_read fun _ => ?_) ih
    exact wp_mono wlp_cancelBorrowRequest fun _ _ he => ih.edits he
  case resolve ih => exact wp_after (wp_mono wlp_resolveBorrowRequest fun _ _ he => ih.edits he) ih
  case other hp ih => exact wp_after (hp.wlp ih fun _ _ _ hw hd ha => hd.apply hw ha) ih

end Runs

section Sets

variable {e : LinkEntry}

-- The pending requests for items of the laboratory behind a link.
structure Pending (d : Database) (e : LinkEntry) (r : BorrowRequestRow) : Prop where
  mem : r ∈ d.borrowRequests
  status : r.status = .pending
  laboratoryId : r.localLaboratoryId = e.remote.1
  item : (fetchInventoryItem? d r.inventoryItemId).isSome

def filedThrough (d : Database) (h : Filings) (e : LinkEntry) : Set BorrowRequestRow :=
  { r | Pending d e r ∧
    ∃ f, h r.borrowRequestId = some f ∧ f.federated ∧ f.linkId = some e.linkId }

-- The link is recorded as well if a guest is signed in, and it is the one that was found.
def recorded (d : Database) (h : Filings) (e : LinkEntry) : Set BorrowRequestRow :=
  { r | Pending d e r ∧ ∃ f, h r.borrowRequestId = some f ∧ f.linkId = some e.linkId }

def filedUnder (d : Database) (h : Filings) (e : LinkEntry) : Set BorrowRequestRow :=
  { r | Pending d e r ∧ ∃ f, h r.borrowRequestId = some f ∧ f.userId = e.localGuestUserId }

def Lists (d : Database) (e : LinkEntry) (query : List (String × String))
    (rows : List BorrowRequestRow) : Prop :=
  ∃ body newId d', (respondFederationBorrow e.remote.1 ⟨e.linkId, e.localGuestUserId⟩ .listMine query
    body newId).run d = .ok (.requests rows, d')

def cancellable (d : Database) (e : LinkEntry) : Set BorrowRequestRow :=
  { r | Pending d e r ∧ ∃ query body newId response d',
    (respondFederationBorrow e.remote.1 ⟨e.linkId, e.localGuestUserId⟩ (.cancel r.borrowRequestId)
      query body newId).run d = .ok (response, d') }

theorem mem_fetchBorrowRequestsForGuestLink {status : Option BorrowRequestStatus}
    (hr : r ∈ fetchBorrowRequestsForGuestLink e.remote.1 e.linkId status d) :
    r ∈ d.borrowRequests ∧ r.localLaboratoryId = e.remote.1 ∧
    (fetchInventoryItem? d r.inventoryItemId).isSome ∧
    r.requesterGuestLinkId = some e.linkId := by
  have hm := (List.mem_insertionSort _).mp (List.mem_of_mem_take hr)
  simp only [List.mem_filter, Bool.and_eq_true, decide_eq_true_eq] at hm
  exact ⟨hm.left, hm.right.left.left.left, hm.right.left.left.right, hm.right.left.right⟩

-- What has been left out is not newer than what is listed.
theorem fetchBorrowRequestsForGuestLink_complete (hp : Pending d e r)
    (hk : r.requesterGuestLinkId = some e.linkId) :
    r ∈ fetchBorrowRequestsForGuestLink e.remote.1 e.linkId (some .pending) d ∨
    (fetchBorrowRequestsForGuestLink e.remote.1 e.linkId (some .pending) d).length =
      myBorrowRequestLimit ∧
    ∀ r' ∈ fetchBorrowRequestsForGuestLink e.remote.1 e.linkId (some .pending) d,
      newerFirst r' r := by
  have htotal : Std.Total (newerFirst · · : BorrowRequestRow → BorrowRequestRow → Prop) := ⟨by
    intro r₁ r₂
    simp only [newerFirst, Bool.or_eq_true, Bool.and_eq_true, decide_eq_true_eq]
    have := BitVec.le_total r₁.borrowRequestId r₂.borrowRequestId
    grind⟩
  have htrans : IsTrans BorrowRequestRow (newerFirst · ·) := ⟨by
    intro r₁ r₂ r₃
    simp only [newerFirst, Bool.or_eq_true, Bool.and_eq_true, decide_eq_true_eq]
    have := @BitVec.le_trans _ r₃.borrowRequestId r₂.borrowRequestId r₁.borrowRequestId
    grind⟩
  simp only [fetchBorrowRequestsForGuestLink]
  generalize hf : d.borrowRequests.rows.filter _ = found
  have hm : r ∈ found.insertionSort (newerFirst · ·) := by
    refine (List.mem_insertionSort _).mpr (hf ▸ List.mem_filter.mpr ⟨hp.mem, ?_⟩)
    simp [hp.laboratoryId, hp.item, hk, hp.status]
  have hs := List.pairwise_insertionSort (newerFirst · ·) found
  generalize found.insertionSort (newerFirst · ·) = sorted at hm hs
  rw [← List.take_append_drop myBorrowRequestLimit sorted] at hm hs
  rcases List.mem_append.mp hm with hm | hm
  case inl => exact .inl hm
  case inr =>
    refine .inr ⟨?_, fun r' hr' => (List.pairwise_append.mp hs).right.right r' hr' r hm⟩
    have := List.length_pos_of_mem hm
    rw [List.length_drop] at this
    exact List.length_take_of_le (by omega)

theorem Filed.of_linkId (hf : Filed h d r f) (hk : r.requesterGuestLinkId = some e.linkId) :
    f.linkId = some e.linkId := by
  rcases hf.linkId with he | ⟨hn, _⟩
  case inl => exact he.symm.trans hk
  case inr => simp [hn] at hk

theorem Filed.linkId_eq (hf : Filed h d r f) (he : e ∈ links d) (hk : f.linkId = some e.linkId) :
    r.requesterGuestLinkId = some e.linkId := by
  rcases hf.linkId with hl | ⟨_, hg⟩
  case inl => exact hl.trans hk
  case inr => exact absurd rfl (hg _ hk e he)

theorem run_federatedActor_bind_eq_ok {α : Type} {caller : GuestLinkIdentity}
    {p : Actor → Transaction α} {x : α × Database} :
    (federatedActor caller >>= p).run d = .ok x ↔
      ∃ a ∈ getActor d caller.localGuestUserId, (p a).run d = .ok x := by
  simp only [federatedActor, fetch, select_bind, run]
  cases getActor d caller.localGuestUserId <;> simp [run]

theorem lists_iff {query : List (String × String)} {rows : List BorrowRequestRow} :
    Lists d e query rows ↔ (∃ a, getActor d e.localGuestUserId = some a) ∧
      ∃ status, validateBorrowRequestStatus (statusFilter query) = .ok status ∧
        fetchBorrowRequestsForGuestLink e.remote.1 e.linkId status d = rows := by
  simp only [Lists, respondFederationBorrow, run_federatedActor_bind_eq_ok]
  cases validateBorrowRequestStatus (statusFilter query)
  case error => simp [Program.ofExcept, run]
  case ok => simp [Program.ofExcept, Program.read, run]

theorem mem_cancellable : r ∈ cancellable d e ↔ Pending d e r ∧
    ∃ a ∈ getActor d e.localGuestUserId, validateRequestActor a e.remote.1 = .ok () ∧
      cancellableBy r a (some e.linkId) := by
  refine and_congr_right fun hp => ?_
  have hf : fetchBorrowRequest? d e.remote.1 r.borrowRequestId = some r :=
    fetchBorrowRequest?_eq_some.mpr ⟨hp.mem, rfl, hp.laboratoryId, hp.item⟩
  have hcancel (a : Actor) : (∃ d', (cancelBorrowRequest ⟨a, e.remote.1⟩ r.borrowRequestId
      (some e.linkId)).run d = .ok ((), d')) ↔
      validateRequestActor a e.remote.1 = .ok () ∧ cancellableBy r a (some e.linkId) := by
    simp [cancelBorrowRequest_eq_ok, hf, hp.status]
  simp only [respondFederationBorrow, run_federatedActor_bind_eq_ok]
  constructor
  case mp =>
    rintro ⟨_, _, _, response, d', a, ha, hr⟩
    rw [run_bind] at hr
    obtain ⟨⟨_, d₁⟩, hc, _⟩ := Except.bind_eq_ok.mp hr
    exact ⟨a, ha, (hcancel a).mp ⟨d₁, hc⟩⟩
  case mpr =>
    rintro ⟨a, ha, hc⟩
    obtain ⟨d₁, hc⟩ := (hcancel a).mpr hc
    refine ⟨[], .ok none, 0, .cancelled, d₁, a, ha, ?_⟩
    rw [run_bind, hc]
    rfl

-- A caller lists the requests that its link has been recorded with, and these can be cancelled as
-- long as the account is a guest of the laboratory.
theorem borrow_requests_of_link [ScanOrder] (hr : Borrowing d h) (he : e ∈ links d) :
    filedThrough d h e ⊆ recorded d h e ∧
    (∀ query rows, Lists d e query rows → ∀ r ∈ rows, r.status = .pending → r ∈ recorded d h e) ∧
    (∀ rows, Lists d e [("status", "pending")] rows → ∀ r ∈ recorded d h e, r ∈ rows ∨
      rows.length = myBorrowRequestLimit ∧ ∀ r' ∈ rows, newerFirst r' r) ∧
    cancellable d e ⊆ recorded d h e ∪ filedUnder d h e ∧
    ((∃ u ∈ d.users, u.userId = e.localGuestUserId ∧ u.userType = .guest ∧
        u.laboratoryId = some e.remote.1) →
      (∃ rows, Lists d e [("status", "pending")] rows) ∧ recorded d h e ⊆ cancellable d e ∧
      (filedUnder d h e ⊆ recorded d h e → cancellable d e = recorded d h e)) := by
  have hstatus : validateBorrowRequestStatus (statusFilter [("status", "pending")]) =
      .ok (some .pending) := by
    rfl
  have hrecorded {r} (hp : Pending d e r) :
      r ∈ recorded d h e ↔ r.requesterGuestLinkId = some e.linkId := by
    obtain ⟨f, hf⟩ := hr.onFile r hp.mem
    refine ⟨?_, fun hk => ⟨hp, f, hf.filing, hf.of_linkId hk⟩⟩
    rintro ⟨_, f', hf', hk⟩
    obtain rfl := Option.some.inj (hf.filing.symm.trans hf')
    exact hf.linkId_eq he hk
  have hcancellable : cancellable d e ⊆ recorded d h e ∪ filedUnder d h e := by
    intro r hc
    obtain ⟨hp, a, ha, _, hby⟩ := mem_cancellable.mp hc
    have hid : a.userId = e.localGuestUserId := by
      obtain ⟨_, hf, rfl⟩ := Option.map_eq_some_iff.mp ha
      exact (Table.find?_eq_some.mp hf).right
    obtain ⟨f, hf⟩ := hr.onFile r hp.mem
    simp only [cancellableBy, Option.any_some, Bool.or_eq_true, decide_eq_true_eq] at hby
    rcases hby with hk | hu
    case inl => exact .inl ((hrecorded hp).mpr hk)
    case inr => exact .inr ⟨hp, f, hf.filing, (hf.userId _ hu).symm.trans hid⟩
  refine ⟨?_, ?_, ?_, hcancellable, ?_⟩
  case refine_1 =>
    rintro r ⟨hp, f, hf, _, hk⟩
    exact ⟨hp, f, hf, hk⟩
  case refine_2 =>
    intro query rows hl r hm hp
    obtain ⟨_, status, _, rfl⟩ := lists_iff.mp hl
    obtain ⟨hm, hlab, hi, hk⟩ := mem_fetchBorrowRequestsForGuestLink hm
    exact (hrecorded ⟨hm, hp, hlab, hi⟩).mpr hk
  case refine_3 =>
    intro rows hl r hm
    obtain ⟨_, status, hs, rfl⟩ := lists_iff.mp hl
    obtain rfl := Except.ok.inj (hstatus.symm.trans hs)
    exact fetchBorrowRequestsForGuestLink_complete hm.left ((hrecorded hm.left).mp hm)
  case refine_4 =>
    rintro ⟨u, hu, hid, hg, hlab⟩
    have ha : getActor d e.localGuestUserId = some ⟨u.userId, u.userType, u.laboratoryId⟩ := by
      simp [getActor, Table.find?_eq_some.mpr ⟨hu, hid⟩]
    have hguest : validateRequestActor ⟨u.userId, u.userType, u.laboratoryId⟩ e.remote.1 =
        .ok () := by
      simp [validateRequestActor, Actor.isGuest, hg, hlab, Except.check]
    have hsub : recorded d h e ⊆ cancellable d e := by
      intro r hm
      refine mem_cancellable.mpr ⟨hm.left, _, ha, hguest, ?_⟩
      simp [cancellableBy, (hrecorded hm.left).mp hm]
    refine ⟨⟨_, lists_iff.mpr ⟨⟨_, ha⟩, _, hstatus, rfl⟩⟩, hsub, fun hf => ?_⟩
    exact hcancellable.trans (Set.union_subset .rfl hf) |>.antisymm hsub

end Sets

section Examples

-- Laboratory 1 has something to lend.
def lending : Database where
  __ := visited
  assets := ⟨[{
    assetId := 60
    laboratoryId := 1
    categoryId := none
    trackingMode := .serialized
    name := "Scope"
    model := none
    manufacturer := none
    inventoryUnitId := 8
    publicNotes := none
    internalNotes := none
  }], by decide, by decide⟩
  assetInventoryItems := ⟨[{
    inventoryItemId := 61
    assetId := 60
    laboratoryId := 1
    trackingMode := .serialized
    serialNumber := some "S1"
    batchNumber := none
    quantityOnHand := 1
    quantityAllocated := 0
    locationId := none
    status := .available
    publicNotes := none
    internalNotes := none
  }], by decide, by decide⟩

theorem writes_mergeGuestLink {settings : FederationSettings} {ctx : LaboratoryContext}
    {linkId targetGuestUserId : Uuid} :
    (mergeGuestLink settings ctx linkId targetGuestUserId).Writes (LeavesRequests h) := by
  refine readOnly_require.writes_bind fun _ => ?_
  refine (readOnly_read.bind fun _ => readOnly_require).writes_bind fun _ => ?_
  refine (readOnly_fetch.bind fun _ => readOnly_require).writes_bind fun _ => ?_
  refine (readOnly_selectForUpdate.bind fun _ => readOnly_done).writes_bind fun old => ?_
  cases old
  case none => trivial
  case some old =>
    refine Writes.bind ?_ fun _ => readOnly_read.writes_bind fun referenced => ?_
    case refine_1 =>
      refine readOnly_selectForUpdate.writes_bind fun link => ?_
      cases link
      case none => trivial
      case some => exact writes_exec trivial
    case refine_2 =>
      cases referenced
      case true => trivial
      case false =>
        refine readOnly_read.writes_bind fun guest => ?_
        cases guest
        case none => trivial
        case some => exact writes_exec trivial

-- Both of the remote users are merged into the account of carol, and one of them files a request.
def mergedTwice : Database :=
  (carolsMerge 42).after <| (carolsMerge 41).after lending

def carolsLink (linkId remoteUserId : Uuid) : LinkEntry :=
  GuestLinkRow.entry (guestLink linkId remoteUserId 30)

def filing : Transaction FederationBorrowResponse :=
  respondFederationBorrow (carolsLink 42 6).remote.1 ⟨42, 30⟩ (.create 61) [] (.ok none) 70

def requested : Database :=
  filing.after mergedTwice

def carolsFilings : Filings :=
  Function.update (fun _ => none) 70 <| some {
    laboratoryId := (carolsLink 42 6).remote.1
    userId := 30
    linkId := some 42
    federated := true
  }

def carolsRequest : BorrowRequestRow where
  borrowRequestId := 70
  localLaboratoryId := 1
  inventoryItemId := 61
  requesterUserId := some 30
  requesterUsername := "carol"
  requesterUserType := .guest
  requesterGuestLinkId := some 42
  requestNote := none
  status := .pending
  reviewedByUserId := none
  reviewedByUsername := none
  reviewedByUserType := none
  reviewedAt := none
  decisionNote := none
  createdAt := lending.now

theorem carolsLink_mem_links {linkId remoteUserId : Uuid} {rows : List GuestLinkRow}
    (hd : d.guestLinks.rows = rows) (hm : guestLink linkId remoteUserId 30 ∈ rows) :
    carolsLink linkId remoteUserId ∈ links d := by
  subst hd
  exact mem_links hm

theorem carolsFilings_eq : carolsFilings carolsRequest.borrowRequestId = some {
    laboratoryId := 1
    userId := 30
    linkId := some 42
    federated := true
  } := by
  rfl

theorem rows_requested :
    requested.guestLinks.rows = [guestLink 41 5 30, guestLink 42 6 30] ∧
    requested.borrowRequests.rows = [carolsRequest] ∧
    requested.users.rows.head? =
      some { shadowGuest 30 "carol" "hash" 1 with isFederationShadow := false } ∧
    getActor requested 30 = some ⟨30, .guest, some 1⟩ ∧
    (fetchInventoryItem? requested 61).isSome := by
  decide +kernel

theorem borrowing_requested [ScanOrder] : Borrowing requested carolsFilings := by
  have hm : Borrowing mergedTwice fun _ => none :=
    .other (.other (.init fun r hr => by cases hr) writes_mergeGuestLink) writes_mergeGuestLink
  obtain ⟨hl, hok⟩ : mergedTwice.guestLinks.rows = [guestLink 41 5 30, guestLink 42 6 30] ∧
      (filing.run mergedTwice).toOption.isSome := by
    decide +kernel
  have hk : carolsLink 42 6 ∈ links mergedTwice := carolsLink_mem_links hl (.tail _ (.head _))
  cases hr : filing.run mergedTwice
  case error => simp [hr, Except.toOption] at hok
  case ok x =>
    have hd : requested = x.2 := after_of_ok hr
    exact hd ▸ .file hm hk hr

theorem pending_carolsRequest {linkId remoteUserId : Uuid} :
    Pending requested (carolsLink linkId remoteUserId) carolsRequest := by
  obtain ⟨_, hrows, _, _, hitem⟩ := rows_requested
  exact ⟨Table.mem_def.mpr <| hrows ▸ .head _, rfl, rfl, hitem⟩

-- What one of the remote users has filed is cancelled by the other, who does not even list it.
theorem others_cancelled :
    let _ := ScanOrder.stored
    carolsRequest ∈ cancellable requested (carolsLink 41 5) ∧
    carolsRequest ∉ filedThrough requested carolsFilings (carolsLink 41 5) ∧
    ∀ query rows, Lists requested (carolsLink 41 5) query rows → carolsRequest ∉ rows := by
  let _ := ScanOrder.stored
  have hne : (41 : Uuid) ≠ 42 := by decide
  obtain ⟨_, _, _, ha, _⟩ := rows_requested
  refine ⟨?_, ?_, ?_⟩
  case refine_1 =>
    exact mem_cancellable.mpr ⟨pending_carolsRequest, _, ha, by decide, by decide⟩
  case refine_2 =>
    rintro ⟨_, f, hf, _, hl⟩
    obtain rfl := Option.some.inj (carolsFilings_eq.symm.trans hf)
    exact hne (Option.some.inj hl).symm
  case refine_3 =>
    intro query rows hl hm
    obtain ⟨_, _, _, rfl⟩ := lists_iff.mp hl
    exact hne (Option.some.inj (mem_fetchBorrowRequestsForGuestLink hm).right.right.right).symm

-- One of the remote users is merged into the account of carol, who files a request herself.
def mergedOnce : Database :=
  (carolsMerge 41).after lending

def signedIn : LaboratoryContext :=
  ⟨⟨30, .guest, some 1⟩, 1⟩

def filedHerself : Database :=
  let _ := ScanOrder.stored
  (Routes.createBorrowRequest signedIn 61 none 70).after mergedOnce

def herFilings : Filings :=
  let _ := ScanOrder.stored
  Function.update (fun _ => none) 70 <| some {
    laboratoryId := 1
    userId := 30
    linkId := fetchGuestLinkId 30 1 mergedOnce
    federated := false
  }

def herRequest : BorrowRequestRow :=
  { carolsRequest with requesterGuestLinkId := some 41 }

theorem borrowing_filedHerself :
    let _ := ScanOrder.stored
    Borrowing filedHerself herFilings := by
  let _ := ScanOrder.stored
  have hm : Borrowing mergedOnce fun _ => none :=
    .other (.init fun r hr => by cases hr) writes_mergeGuestLink
  have hok : ((Routes.createBorrowRequest signedIn 61 none 70).run mergedOnce).toOption.isSome := by
    decide +kernel
  cases hr : (Routes.createBorrowRequest signedIn 61 none 70).run mergedOnce
  case error =>
    rw [hr] at hok
    exact nomatch hok
  case ok x =>
    have hd : filedHerself = x.2 := after_of_ok hr
    exact hd ▸ .fileLocally hm hr

theorem rows_filedHerself :
    let _ := ScanOrder.stored
    filedHerself.guestLinks.rows = [guestLink 41 5 30, guestLink 42 6 21] ∧
    filedHerself.borrowRequests.rows = [herRequest] ∧
    getActor filedHerself 30 = some ⟨30, .guest, some 1⟩ ∧
    (fetchInventoryItem? filedHerself 61).isSome ∧
    herRequest ∈ fetchBorrowRequestsForGuestLink 1 41 none filedHerself := by
  decide +kernel

-- Carol's own request is taken for one of the remote user's.
theorem own_listed :
    let _ := ScanOrder.stored
    herRequest ∈ cancellable filedHerself (carolsLink 41 5) ∧
    herRequest ∉ filedThrough filedHerself herFilings (carolsLink 41 5) ∧
    ∃ rows, Lists filedHerself (carolsLink 41 5) [] rows ∧ herRequest ∈ rows := by
  let _ := ScanOrder.stored
  obtain ⟨_, hrows, ha, hitem, hlisted⟩ := rows_filedHerself
  have hp : Pending filedHerself (carolsLink 41 5) herRequest :=
    ⟨Table.mem_def.mpr <| hrows ▸ .head _, rfl, rfl, hitem⟩
  refine ⟨mem_cancellable.mpr ⟨hp, _, ha, by decide, by decide⟩, ?_, _,
    lists_iff.mpr ⟨⟨_, ha⟩, _, rfl, rfl⟩, hlisted⟩
  rintro ⟨_, f, hf, hfederated, _⟩
  obtain rfl := Option.some.inj hf
  exact nomatch hfederated

-- The sets differ for two reasons: what one link has filed is cancelled through the other, and a
-- guest who is signed in files on behalf of the link.
theorem others_request_cancelled :
    let _ := ScanOrder.stored
    (∃ d h, Borrowing d h ∧ ∃ e ∈ links d, ∃ r ∈ cancellable d e, r ∉ filedThrough d h e ∧
      ∀ query rows, Lists d e query rows → r ∉ rows) ∧
    ∃ d h, Borrowing d h ∧ ∃ e ∈ links d, ∃ r ∈ cancellable d e, r ∉ filedThrough d h e ∧
      ∃ query rows, Lists d e query rows ∧ r ∈ rows := by
  let _ := ScanOrder.stored
  constructor
  case left =>
    obtain ⟨hl, _⟩ := rows_requested
    exact ⟨requested, carolsFilings, borrowing_requested, _, carolsLink_mem_links hl (.head _),
      carolsRequest, others_cancelled⟩
  case right =>
    obtain ⟨hl, _⟩ := rows_filedHerself
    obtain ⟨hc, hf, hr⟩ := own_listed
    exact ⟨filedHerself, herFilings, borrowing_filedHerself, _, carolsLink_mem_links hl (.head _),
      herRequest, hc, hf, _, hr⟩

-- The other one.
theorem borrow_requests_of_link_carol :
    let _ := ScanOrder.stored
    cancellable requested (carolsLink 42 6) = recorded requested carolsFilings (carolsLink 42 6) ∧
    ∃ rows, Lists requested (carolsLink 42 6) [("status", "pending")] rows := by
  let _ := ScanOrder.stored
  obtain ⟨hl, hrows, hu, _⟩ := rows_requested
  have hk : carolsLink 42 6 ∈ links requested := carolsLink_mem_links hl (.tail _ (.head _))
  obtain ⟨_, _, _, _, hguest⟩ := borrow_requests_of_link borrowing_requested hk
  obtain ⟨hl, _, he⟩ := hguest ⟨_, List.mem_of_head? hu, rfl, rfl, rfl⟩
  refine ⟨he ?_, hl⟩
  rintro r ⟨hp, f, hf, _⟩
  have hm : r ∈ requested.borrowRequests.rows := hp.mem
  obtain rfl := List.mem_singleton.mp (hrows ▸ hm)
  exact ⟨hp, _, carolsFilings_eq, rfl⟩

end Examples

end Federation

end LabInventory
