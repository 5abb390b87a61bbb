import LabInventory.Federation.Signature

open Sql Program

namespace LabInventory

namespace Federation

-- The checks before the sender of a request is looked at.
def checkTimestamp [UuidFormat] (settings : FederationSettings) (request : InboundRequest) :
    Transaction FederationHeaders := do
  .require settings.enabled (.forbidden federationDisabled)
  let h ← .ofExcept <| parseFederationHeaders request.headers
  let now ← .read fun d => epochSeconds d.now
  .require (isFresh settings.requestTtlSeconds now h.timestamp)
    (.unauthorized "Federation request timestamp is outside the allowed window")
  return h

-- The statements of the verifier. They do not share a transaction.
theorem verifyInboundRequest_eq [UuidFormat] [Cryptography] [ScanOrder]
    {settings : FederationSettings} {request : InboundRequest} {targetLaboratoryId : Uuid} :
    verifyInboundRequest settings request targetLaboratoryId = (do
      let h ← checkTimestamp settings request
      let context ← authenticate request targetLaboratoryId h
      deleteExpiredNonces
      insertNonce h.remoteNodeId h.nonce settings.requestTtlSeconds
      return context) := by
  simp only [verifyInboundRequest, checkTimestamp, rememberNonce, bind_assoc, pure_bind]

-- How far the verification of a request has come.
inductive Stage
  | checked
  | authenticated
  | swept

structure Verification where
  request : InboundRequest
  targetLaboratoryId : Uuid
  headers : FederationHeaders
  stage : Stage

namespace Verification

def credential (v : Verification) : Uuid × String × String :=
  (v.headers.remoteNodeId, v.headers.nonce, v.headers.signature)

def signedText [UuidFormat] [Cryptography] (v : Verification) : String :=
  canonical (signedFields v.request v.headers)

end Verification

-- Any number of requests are verified at a time. Those which have been accepted are kept, the last
-- one comes first.
structure Verifier where
  db : Database
  pending : Nat → Option Verification
  accepted : List Verification

namespace Verifier

def init (d : Database) : Verifier where
  db := d
  pending _ := none
  accepted := []

def put (s : Verifier) (i : Nat) (v : Option Verification) : Verifier :=
  { s with pending := Function.update s.pending i v }

inductive Event
  | clock (now : Timestamp)
  | sweep
  | check (i : Nat) (request : InboundRequest) (targetLaboratoryId : Uuid)
  | authenticate (i : Nat)
  | delete (i : Nat)
  | insert (i : Nat)
  | drop (i : Nat)
  | other

@[simp]
theorem put_self {s : Verifier} {i : Nat} {v : Option Verification} : (s.put i v).pending i = v := by
  simp [put]

variable [UuidFormat] [Cryptography] [ScanOrder]

-- A statement of a verification, or a sweep, finds the database as the previous one has left it. The
-- rest of the instance leaves the nonces alone.
inductive Next (settings : FederationSettings) (s : Verifier) : Event → Verifier → Prop
  | clock {now} : Next settings s (.clock now)
      { s with db := { s.db with now := max s.db.now now } }
  | sweep {d} (hr : deleteExpiredNonces.run s.db = .ok ((), d)) :
      Next settings s .sweep { s with db := d }
  | check {i request targetLaboratoryId h d} (hi : s.pending i = none)
      (hr : (checkTimestamp settings request).run s.db = .ok (h, d)) :
      Next settings s (.check i request targetLaboratoryId)
        ({ s with db := d }.put i (some ⟨request, targetLaboratoryId, h, .checked⟩))
  | authenticate {i request targetLaboratoryId h context d}
      (hi : s.pending i = some ⟨request, targetLaboratoryId, h, .checked⟩)
      (hr : (Federation.authenticate request targetLaboratoryId h).run s.db = .ok (context, d)) :
      Next settings s (.authenticate i)
        ({ s with db := d }.put i (some ⟨request, targetLaboratoryId, h, .authenticated⟩))
  | delete {i request targetLaboratoryId h d}
      (hi : s.pending i = some ⟨request, targetLaboratoryId, h, .authenticated⟩)
      (hr : deleteExpiredNonces.run s.db = .ok ((), d)) :
      Next settings s (.delete i)
        ({ s with db := d }.put i (some ⟨request, targetLaboratoryId, h, .swept⟩))
  | insert {i request targetLaboratoryId h d}
      (hi : s.pending i = some ⟨request, targetLaboratoryId, h, .swept⟩)
      (hr : (insertNonce h.remoteNodeId h.nonce settings.requestTtlSeconds).run s.db =
        .ok ((), d)) :
      Next settings s (.insert i) {
        db := d
        pending := Function.update s.pending i none
        accepted := ⟨request, targetLaboratoryId, h, .swept⟩ :: s.accepted
      }
  | drop {i} : Next settings s (.drop i) (s.put i none)
  | other {d} (hn : d.requestNonces = s.db.requestNonces) (hc : s.db.now ≤ d.now) :
      Next settings s .other { s with db := d }

inductive Run (settings : FederationSettings) (P : Verifier → Event → Prop) (s : Verifier) :
    Verifier → Prop
  | refl : Run settings P s s
  | step {s₁ s₂ e} : Run settings P s s₁ → P s₁ e → s₁.Next settings e s₂ → Run settings P s s₂

variable {settings : FederationSettings} {s s' : Verifier} {e : Event} {v v' : Verification}
variable {d : Database} {i : Nat}

-- A request that has been seen before is told apart by the nonce which it has left behind: from the
-- second after its timestamp on, the nonce is kept for as long as the timestamp is in the window.
structure Settles (settings : FederationSettings) (s : Verifier) (v : Verification) : Prop where
  passed : v.headers.timestamp < epochSeconds s.db.now
  current : epochSeconds s.db.now ≤ v.headers.timestamp + settings.requestTtlSeconds
  collisionFree : ∀ v' ∈ s.accepted, ∀ secret secret',
    Cryptography.hmacSha256 secret v.signedText = Cryptography.hmacSha256 secret' v'.signedText →
    v.signedText = v'.signedText

def Timely (settings : FederationSettings) (s : Verifier) : Event → Prop
  | .insert i => ∀ v, s.pending i = some v → s.Settles settings v
  | _ => True

end Verifier

namespace Verification

variable [UuidFormat] [Cryptography] {settings : FederationSettings} {v v' : Verification}

structure Signed (v : Verification) : Prop where
  signature : ∃ secret, Cryptography.decodeBase64 v.headers.signature =
    some (Cryptography.hmacSha256 secret v.signedText)

structure Parsed (v : Verification) : Prop where
  headers : v.headers.Parsed v.request.headers

-- The time from which on a request is not in the window anymore.
def deadline (settings : FederationSettings) (v : Verification) : Int :=
  (v.headers.timestamp + 1 + settings.requestTtlSeconds) * 1000000

omit [UuidFormat] [Cryptography] in
theorem lt_deadline {now : Int}
    (h : epochSeconds now ≤ v.headers.timestamp + settings.requestTtlSeconds) :
    now < v.deadline settings := by
  unfold epochSeconds at h
  unfold deadline
  omega

omit [UuidFormat] [Cryptography] in
theorem deadline_le {now : Int} (h : v.headers.timestamp < epochSeconds now) :
    v.deadline settings ≤ now + settings.requestTtlSeconds * 1000000 := by
  unfold epochSeconds at h
  unfold deadline
  omega

end Verification

namespace Verifier

variable [UuidFormat] [Cryptography] [ScanOrder]

-- The nonces of the requests that have been accepted are kept until their deadlines.
structure Sound (settings : FederationSettings) (s : Verifier) : Prop where
  parsed : ∀ i v, s.pending i = some v → v.Parsed
  signed : ∀ i v, s.pending i = some v → v.stage ≠ .checked → v.Signed
  accepted : ∀ v ∈ s.accepted, v.Parsed ∧ v.Signed
  stored : ∀ v ∈ s.accepted, s.db.now < v.deadline settings → ∃ r ∈ s.db.requestNonces,
    (r.remoteNodeId, r.nonce) = (v.headers.remoteNodeId, v.headers.nonce) ∧
    v.deadline settings ≤ r.expiresAt
  distinct : (s.accepted.map Verification.credential).Nodup

namespace Sound

variable {settings : FederationSettings} {s s' : Verifier} {e : Event} {v : Verification}
variable {d : Database} {i : Nat}

omit [ScanOrder] in
theorem init : Sound settings (.init d) where
  parsed _ _ h := by cases h
  signed _ _ h := by cases h
  accepted _ h := by cases h
  stored _ h := by cases h
  distinct := .nil

omit [ScanOrder] in
-- Nonces may be added, and those which have expired may be swept.
theorem keep (h : Sound settings s) (hc : s.db.now ≤ d.now)
    (hn : ∀ r ∈ s.db.requestNonces, d.now < r.expiresAt → r ∈ d.requestNonces) :
    Sound settings { s with db := d } where
  parsed := h.parsed
  signed := h.signed
  accepted := h.accepted
  distinct := h.distinct
  stored v hv hd := by
    obtain ⟨r, hr, hk, he⟩ := h.stored v hv (lt_of_le_of_lt hc hd)
    exact ⟨r, hn r hr (lt_of_lt_of_le hd he), hk, he⟩

omit [ScanOrder] in
theorem put (h : Sound settings s) (hp : v.Parsed) (hv : v.stage ≠ .checked → v.Signed) :
    Sound settings (s.put i (some v)) where
  parsed j v' hj := by
    by_cases he : j = i
    case pos =>
      obtain rfl : v = v' := by simpa [Verifier.put, he] using hj
      exact hp
    case neg => exact h.parsed j v' (by simpa [Verifier.put, he] using hj)
  signed j v' hj := by
    by_cases he : j = i
    case pos =>
      obtain rfl : v = v' := by simpa [Verifier.put, he] using hj
      exact hv
    case neg => exact h.signed j v' (by simpa [Verifier.put, he] using hj)
  accepted := h.accepted
  stored := h.stored
  distinct := h.distinct

omit [ScanOrder] in
theorem drop (h : Sound settings s) : Sound settings (s.put i none) where
  parsed j v hj := by
    by_cases he : j = i
    case pos => simp [Verifier.put, he] at hj
    case neg => exact h.parsed j v (by simpa [Verifier.put, he] using hj)
  signed j v hj := by
    by_cases he : j = i
    case pos => simp [Verifier.put, he] at hj
    case neg => exact h.signed j v (by simpa [Verifier.put, he] using hj)
  accepted := h.accepted
  stored := h.stored
  distinct := h.distinct

theorem sweep (h : Sound settings s) (hr : deleteExpiredNonces.run s.db = .ok ((), d)) :
    Sound settings { s with db := d } := by
  have hs : Swept s.db d := wp_run (Q := fun _ => Swept s.db) (R := fun _ => True)
    wp_deleteExpiredNonces hr
  have hnow : d.now = s.db.now := by rw [hs.frame]
  exact h.keep hnow.ge fun r hr he => (hs.mem_iff r).mpr ⟨hr, hnow ▸ he⟩

omit [ScanOrder] in
-- Equal signatures cover equal texts, unless there is a collision.
theorem timestamp_eq {v' : Verification} (hp : v.Parsed) (hs : v.Signed) (hp' : v'.Parsed)
    (hs' : v'.Signed) (hv : s.Settles settings v) (hm : v' ∈ s.accepted)
    (he : v'.credential = v.credential) : v'.headers.timestamp = v.headers.timestamp := by
  simp only [Verification.credential, Prod.mk.injEq] at he
  obtain ⟨secret, hd⟩ := hs.signature
  obtain ⟨secret', hd'⟩ := hs'.signature
  rw [he.right.right, hd, Option.some.injEq] at hd'
  have ht : v.signedText = v'.signedText := hv.collisionFree v' hm secret secret' hd'
  exact (sameSigned_of_canonical_eq hp'.headers hp.headers ht.symm).timestamp

omit [Cryptography] [ScanOrder] in
theorem checkTimestamp_eq_ok {request : InboundRequest} {h : FederationHeaders}
    (hr : (checkTimestamp settings request).run s.db = .ok (h, d)) :
    d = s.db ∧ h.Parsed request.headers := by
  suffices hw : (checkTimestamp settings request).wlp (fun h d => d = s.db ∧
      h.Parsed request.headers) s.db from (wp_run hw hr :)
  simp only [checkTimestamp, wlp, wp_bind, wp_require, wp_ofExcept, wp_read, implies_true,
    and_true, true_and, pure_def, wp_done]
  exact fun _ h hp _ => parsed_of_parseFederationHeaders hp

omit [UuidFormat] [Cryptography] [ScanOrder] in
theorem insertNonce_eq_ok {remoteNodeId : Uuid} {nonce : String} {ttlSeconds : Int}
    (hr : (insertNonce remoteNodeId nonce ttlSeconds).run s.db = .ok ((), d)) :
    d.now = s.db.now ∧
    (∀ r ∈ s.db.requestNonces, (r.remoteNodeId, r.nonce) ≠ (remoteNodeId, nonce)) ∧
    ∀ r, r ∈ d.requestNonces ↔ r ∈ s.db.requestNonces ∨
      r = { remoteNodeId, nonce, expiresAt := s.db.now + ttlSeconds * 1000000 } := by
  suffices hw : (insertNonce remoteNodeId nonce ttlSeconds).wlp (fun _ d => d.now = s.db.now ∧
      (∀ r ∈ s.db.requestNonces, (r.remoteNodeId, r.nonce) ≠ (remoteNodeId, nonce)) ∧
      ∀ r, r ∈ d.requestNonces ↔ r ∈ s.db.requestNonces ∨
        r = { remoteNodeId, nonce, expiresAt := s.db.now + ttlSeconds * 1000000 }) s.db from
    (wp_run hw hr :)
  simp only [insertNonce, wlp, wp_bind, wp_read, wp_exec, implies_true, and_true, true_and]
  intro d' ha
  obtain ⟨_, _, hi, hf⟩ := apply_insertNonce.mp ha
  exact ⟨by rw [hf], (Table.insert_eq_ok.mp hi).left, fun r => Table.mem_insert hi⟩

omit [ScanOrder] in
theorem insert (h : Sound settings s) {v : Verification} (hi : s.pending i = some v)
    (hs : v.stage = .swept) (hv : s.Settles settings v)
    (hr : (insertNonce v.headers.remoteNodeId v.headers.nonce settings.requestTtlSeconds).run s.db =
      .ok ((), d)) :
    Sound settings ⟨d, Function.update s.pending i none, v :: s.accepted⟩ := by
  obtain ⟨hnow, hnew, hmem⟩ := insertNonce_eq_ok hr
  have hp := h.parsed i v hi
  have hsigned := h.signed i v hi (by rw [hs]; nofun)
  constructor
  case parsed => exact h.drop.parsed
  case signed => exact h.drop.signed
  case accepted => exact List.forall_mem_cons.mpr ⟨⟨hp, hsigned⟩, h.accepted⟩
  case stored =>
    refine List.forall_mem_cons.mpr ⟨fun _ => ?_, fun v' hv' hd => ?_⟩
    case refine_1 =>
      exact ⟨_, (hmem _).mpr (.inr rfl), rfl, Verification.deadline_le hv.passed⟩
    case refine_2 =>
      obtain ⟨r, hr, hk, he⟩ := h.stored v' hv' (hnow ▸ hd)
      exact ⟨r, (hmem r).mpr (.inl hr), hk, he⟩
  case distinct =>
    refine List.nodup_cons.mpr ⟨fun hm => ?_, h.distinct⟩
    obtain ⟨v', hv', he⟩ := List.mem_map.mp hm
    obtain ⟨hp', hs'⟩ := h.accepted v' hv'
    have ht := timestamp_eq hp hsigned hp' hs' hv hv' he
    -- The nonce of the earlier copy is still there.
    have hd : s.db.now < v'.deadline settings := by
      rw [Verification.deadline, ht]
      exact Verification.lt_deadline hv.current
    obtain ⟨r, hr, hk, _⟩ := h.stored v' hv' hd
    simp only [Verification.credential, Prod.mk.injEq] at he
    rw [he.left, he.right.left] at hk
    exact hnew r hr hk

theorem step (h : Sound settings s) (ht : s.Timely settings e) (hn : s.Next settings e s') :
    Sound settings s' := by
  cases hn
  case clock => exact h.keep (le_max_left _ _) fun r hr _ => hr
  case sweep hr => exact h.sweep hr
  case check hr =>
    obtain ⟨rfl, hp⟩ := checkTimestamp_eq_ok hr
    exact h.put ⟨hp⟩ fun hn => absurd rfl hn
  case authenticate i request targetLaboratoryId p context d hi hr =>
    obtain ⟨rfl, ha⟩ := wp_run wlp_authenticate hr
    exact h.put ⟨(h.parsed i _ hi).headers⟩ fun _ => ⟨_, checkSignature_eq_ok ha.signature⟩
  case delete i request targetLaboratoryId p d hi hr =>
    have hs : (⟨request, targetLaboratoryId, p, .authenticated⟩ : Verification).Signed :=
      h.signed i _ hi nofun
    exact (h.sweep hr).put ⟨(h.parsed i _ hi).headers⟩ fun _ => ⟨hs.signature⟩
  case insert i request targetLaboratoryId p d hi hr => exact h.insert hi rfl (ht _ hi) hr
  case drop => exact h.drop
  case other hm hc =>
    refine h.keep hc fun r hr _ => ?_
    rwa [hm]

theorem run (h : Sound settings s) (hr : s.Run settings (·.Timely settings) s') :
    Sound settings s' := by
  induction hr
  case refl => exact h
  case step ht hn ih => exact ih.step ht hn

end Sound

-- No credential is accepted twice.
theorem accepted_at_most_once {settings : FederationSettings} {d : Database} {s : Verifier}
    (hr : (init d).Run settings (·.Timely settings) s) (remoteNodeId : Uuid)
    (nonce signature : String) :
    (s.accepted.map Verification.credential).count (remoteNodeId, nonce, signature) ≤ 1 :=
  List.nodup_iff_count_le_one.mp (Sound.init.run hr).distinct _

section Examples

variable {settings : FederationSettings} {P Q : Verifier → Event → Prop} {s s₁ s₂ : Verifier}

theorem Run.trans (h : s.Run settings P s₁) (h' : s₁.Run settings P s₂) : s.Run settings P s₂ := by
  induction h'
  case refl => exact h
  case step hp hn ih => exact ih.step hp hn

theorem Run.mono (h : s.Run settings P s₁) (hq : ∀ s e, P s e → Q s e) : s.Run settings Q s₁ := by
  induction h
  case refl => exact .refl
  case step hp hn ih => exact ih.step (hq _ _ hp) hn

variable {i : Nat} {request : InboundRequest} {targetLaboratoryId : Uuid} {h : FederationHeaders}
variable {context : InboundFederationContext}

-- A verification that is not disturbed by the clock, or by other requests.
def Undisturbed (s : Verifier) (h : FederationHeaders) (s' : Verifier) : Event → Prop
  | .insert i => s'.db.now = s.db.now ∧ s'.accepted = s.accepted ∧
    ∀ v, s'.pending i = some v → v.headers = h
  | _ => True

-- All that is left to do is to store the nonce.
theorem exists_swept (he : settings.enabled) (hi : s.pending i = none)
    (hp : parseFederationHeaders request.headers = .ok h)
    (hf : isFresh settings.requestTtlSeconds (epochSeconds s.db.now) h.timestamp)
    (ha : Authentic s.db request targetLaboratoryId h context) {d : Database}
    (hd : deleteExpiredNonces.run s.db = .ok ((), d)) :
    ∃ s', s.Run settings (fun _ e => ∀ i, e ≠ .insert i) s' ∧ s'.db = d ∧
      s'.pending i = some ⟨request, targetLaboratoryId, h, .swept⟩ ∧ s'.accepted = s.accepted := by
  have hcheck : (checkTimestamp settings request).run s.db = .ok (h, s.db) := by
    suffices hw : (checkTimestamp settings request).wp (fun _ => True) (fun _ => False)
        (fun h' d => h' = h ∧ d = s.db) s.db by
      obtain ⟨_, _, hr, rfl, rfl⟩ := wp_total hw
      exact hr
    simp only [checkTimestamp, wp_bind, wp_require, wp_ofExcept, wp_read, pure_def, wp_done, he, hp,
      hf, Except.ok.injEq, forall_eq', not_true_eq_false, false_implies, reduceCtorEq, implies_true,
      and_self]
  have hauth : (Federation.authenticate request targetLaboratoryId h).run s.db =
      .ok (context, s.db) := by
    suffices hw : (Federation.authenticate request targetLaboratoryId h).wp (fun _ => True)
        (fun _ => False) (fun c d => c = context ∧ d = s.db) s.db by
      obtain ⟨_, _, hr, rfl, rfl⟩ := wp_total hw
      exact hr
    simp only [Federation.authenticate, wp_bind, wp_require, wp_ofExcept, wp_read, wp_fetch, pure_def,
      wp_done, ha.remoteNode, ha.active, ha.keyVersion, ha.trust, ha.signature, Option.some.injEq,
      forall_eq', true_implies, not_true_eq_false, false_implies, and_true, and_self, reduceCtorEq,
      implies_true]
    exact fun _ => ha.context.symm
  have h₁ : s.Run settings (fun _ e => ∀ i, e ≠ .insert i) _ :=
    .step (e := .check i request targetLaboratoryId) .refl (by simp) (.check hi hcheck)
  have h₂ := h₁.step (e := .authenticate i) (by simp) (.authenticate put_self hauth)
  have h₃ := h₂.step (e := .delete i) (by simp) (.delete put_self hd)
  exact ⟨_, h₃, rfl, put_self, rfl⟩

theorem exists_accepted (he : settings.enabled) (hi : s.pending i = none)
    (hp : parseFederationHeaders request.headers = .ok h)
    (hf : isFresh settings.requestTtlSeconds (epochSeconds s.db.now) h.timestamp)
    (ha : Authentic s.db request targetLaboratoryId h context)
    (hu : Unused s.db h.remoteNodeId h.nonce) :
    ∃ s', s.Run settings (s.Undisturbed h) s' ∧
      Remembered s.db s'.db h.remoteNodeId h.nonce settings.requestTtlSeconds ∧
      s'.pending i = none ∧
      s'.accepted = ⟨request, targetLaboratoryId, h, .swept⟩ :: s.accepted := by
  have hw : (rememberNonce h.remoteNodeId h.nonce settings.requestTtlSeconds).wp (fun _ => True)
      (fun _ => False) _ s.db := wp_rememberNonce fun hn => absurd hu hn
  obtain ⟨_, d, hr, _, hd⟩ := wp_total hw
  rw [rememberNonce, run_bind, Except.bind_eq_ok] at hr
  obtain ⟨⟨_, d₁⟩, hdelete, hinsert⟩ := hr
  have hs : Swept s.db d₁ := wp_run (Q := fun _ => Swept s.db) (R := fun _ => True)
    wp_deleteExpiredNonces hdelete
  obtain ⟨s₁, hr, rfl, hv, hacc⟩ := exists_swept he hi hp hf ha hdelete
  have hr : s.Run settings (s.Undisturbed h) s₁ := by
    refine hr.mono fun s' e hn => ?_
    cases e
    case insert i => exact absurd rfl (hn i)
    all_goals trivial
  refine ⟨_, .step hr ?_ (.insert hv hinsert), hd, Function.update_self .., congrArg _ hacc⟩
  refine ⟨(congrArg Database.now hs.frame :), hacc, fun v hv' => ?_⟩
  obtain rfl := Option.some.inj <| hv.symm.trans hv'
  rfl

def browseHeaders : FederationHeaders :=
  .ofSigned .get assetsPath [] partnerNode (visitor "alice") 1000 "nonce"

omit [ScanOrder] in
theorem authentic_browse {d : Database} (hn : d.remoteNodes = paired.remoteNodes)
    (ht : d.laboratoryTrusts = paired.laboratoryTrusts) :
    Authentic d (browse "alice") 1 browseHeaders (browseContext "alice") where
  remoteNode := by rw [hn]; rfl
  active := rfl
  keyVersion := rfl
  trust := by rw [fetchActiveTrust, ht]; rfl
  signature := by
    simp only [checkSignature, verifySignature, signCanonical, browseHeaders,
      FederationHeaders.ofSigned, Cryptography.decodeBase64_encodeBase64]
    exact Except.check_eq_ok.mpr rfl
  context := rfl

-- The request of a user of the partner is accepted.
theorem exists_browsed (hi : s.pending i = none) (hn : s.db.remoteNodes = paired.remoteNodes)
    (ht : s.db.laboratoryTrusts = paired.laboratoryTrusts)
    (hf : isFresh 300 (epochSeconds s.db.now) 1000) (hu : Unused s.db 7 "nonce") :
    ∃ s', s.Run defaultSettings (s.Undisturbed browseHeaders) s' ∧
      Remembered s.db s'.db 7 "nonce" 300 ∧ s'.pending i = none ∧
      s'.accepted = ⟨browse "alice", 1, browseHeaders, .swept⟩ :: s.accepted :=
  exists_accepted rfl hi (parse_browse "alice" (visible_of_all (by decide)) (by decide)) hf
    (authentic_browse hn ht) hu

end Examples

end Verifier

namespace Verifier

section Examples

-- A second later, the sender's timestamp has passed.
def pairedLater : Database :=
  { paired with now := 1001 * 1000000 }

theorem passed_pairedLater : 1000 < epochSeconds pairedLater.now ∧
    epochSeconds pairedLater.now ≤ 1000 + defaultSettings.requestTtlSeconds := by
  decide

section Copies

variable [UuidFormat] [Cryptography] [ScanOrder] {s : Verifier}

-- The request has been accepted, and a copy of it has got as far as its nonce.
structure Copied (s : Verifier) : Prop where
  run : (init pairedLater).Run defaultSettings (·.Timely defaultSettings) s
  now : s.db.now = pairedLater.now
  accepted : s.accepted = [⟨browse "alice", 1, browseHeaders, .swept⟩]
  pending : s.pending 0 = some ⟨browse "alice", 1, browseHeaders, .swept⟩

theorem exists_copied : ∃ s, Copied s := by
  obtain ⟨s₁, hr, hrem, hi, ha⟩ := exists_browsed (i := 0) (s := init pairedLater) rfl rfl rfl
    (by decide) ⟨rfl, by decide, fun _ hr => absurd hr Table.not_mem_empty⟩
  have ht : (init pairedLater).Run defaultSettings (·.Timely defaultSettings) s₁ := by
    refine hr.mono fun s' e hu => ?_
    cases e
    case insert i =>
      intro v hv
      obtain ⟨hnow, hacc, hh⟩ := hu
      refine ⟨?_, ?_, fun v' hv' => ?_⟩
      case refine_1 =>
        rw [hh v hv, hnow]
        exact passed_pairedLater.left
      case refine_2 =>
        rw [hh v hv, hnow]
        exact passed_pairedLater.right
      case refine_3 => rw [hacc] at hv'; cases hv'
    all_goals trivial
  have hf : s₁.db.remoteNodes = paired.remoteNodes ∧ s₁.db.laboratoryTrusts = paired.laboratoryTrusts ∧
      s₁.db.now = pairedLater.now := by
    rw [hrem.frame]
    exact ⟨rfl, rfl, rfl⟩
  obtain ⟨hnodes, htrusts, hnow⟩ := hf
  have hfresh : isFresh 300 (epochSeconds s₁.db.now) 1000 := by rw [hnow]; decide
  obtain ⟨_, d, hd, hswept⟩ := wp_total (wp_deleteExpiredNonces : deleteExpiredNonces.wp _ _ _ s₁.db)
  obtain ⟨s₂, hr₂, rfl, hpending, ha₂⟩ : ∃ s₂, s₁.Run defaultSettings _ s₂ ∧ s₂.db = d ∧
      s₂.pending 0 = some ⟨browse "alice", 1, browseHeaders, .swept⟩ ∧ s₂.accepted = s₁.accepted :=
    exists_swept rfl hi (parse_browse "alice" (visible_of_all (by decide)) (by decide)) hfresh
      (authentic_browse hnodes htrusts) hd
  have ht₂ : (init pairedLater).Run defaultSettings (·.Timely defaultSettings) s₂ := by
    refine ht.trans <| hr₂.mono fun s' e hn => ?_
    cases e
    case insert i => exact absurd rfl (hn i)
    all_goals trivial
  exact ⟨s₂, ht₂, (congrArg Database.now hswept.frame).trans hnow, ha₂.trans ha, hpending⟩

theorem Copied.timely (h : Copied s) : s.Timely defaultSettings (.insert 0) := by
  intro v hv
  obtain rfl := Option.some.inj <| h.pending.symm.trans hv
  refine ⟨h.now ▸ passed_pairedLater.left, h.now ▸ passed_pairedLater.right, fun v hv _ _ _ => ?_⟩
  rw [h.accepted] at hv
  rw [List.mem_singleton.mp hv]

end Copies

theorem accepted_at_most_once_copied :
    let _ := hyphenated
    let _ := Cryptography.standard
    let _ := ScanOrder.stored
    ∃ s, Copied s ∧ ∀ s', ¬s.Next defaultSettings (.insert 0) s' := by
  let _ := hyphenated
  let _ := Cryptography.standard
  let _ := ScanOrder.stored
  obtain ⟨s, h⟩ := exists_copied
  refine ⟨s, h, fun s' hn => ?_⟩
  have honce := accepted_at_most_once (h.run.step h.timely hn) browseHeaders.remoteNodeId
    browseHeaders.nonce browseHeaders.signature
  cases hn
  case insert _ hv =>
    cases h.pending.symm.trans hv
    simp only [h.accepted, List.map_cons] at honce
    exact absurd honce (by simp [Verification.credential])

-- A request of a sender whose clock agrees with the receiver's is accepted once more at the end of
-- the window, after its nonce has been swept.
theorem accepted_twice :
    let _ := hyphenated
    let _ := Cryptography.standard
    let _ := ScanOrder.stored
    ¬∀ (settings : FederationSettings) (d : Database) (s : Verifier),
      (init d).Run settings (fun _ _ => True) s → ∀ remoteNodeId nonce signature,
        (s.accepted.map Verification.credential).count (remoteNodeId, nonce, signature) ≤ 1 := by
  intro _ _ _ h
  obtain ⟨s₁, h₁, hd, hi, ha₁⟩ := exists_browsed (i := 0) (s := init paired) rfl rfl rfl (by decide)
    ⟨rfl, by decide, fun _ hr => absurd hr Table.not_mem_empty⟩
  have hf := hd.frame
  let s₂ : Verifier := { s₁ with db := { s₁.db with now := max s₁.db.now (1300 * 1000000) } }
  have hnow : s₂.db.now = 1300 * 1000000 := by
    change max s₁.db.now _ = _
    rw [hf]
    rfl
  have h₂ : (init paired).Run defaultSettings (fun _ _ => True) s₂ :=
    (h₁.mono fun _ _ _ => trivial).step trivial .clock
  have hnodes : s₂.db.remoteNodes = paired.remoteNodes := by
    change s₁.db.remoteNodes = _
    rw [hf]
    rfl
  have htrusts : s₂.db.laboratoryTrusts = paired.laboratoryTrusts := by
    change s₁.db.laboratoryTrusts = _
    rw [hf]
    rfl
  have hu : Unused s₂.db 7 "nonce" := by
    refine ⟨by rw [hnodes]; rfl, by decide, fun r hr hn => ?_⟩
    rcases (hd.mem_iff r).mp hr with hr | rfl
    case inl => exact absurd hr.left Table.not_mem_empty
    case inr =>
      rw [hnow] at hn
      exact absurd hn (by decide)
  obtain ⟨s₃, h₃, _, _, ha₂⟩ := exists_browsed (s := s₂) hi hnodes htrusts (by rw [hnow]; decide) hu
  have hr := h _ _ s₃ (h₂.trans (h₃.mono fun _ _ _ => trivial)) browseHeaders.remoteNodeId
    browseHeaders.nonce browseHeaders.signature
  rw [ha₂] at hr
  change ((_ :: s₁.accepted).map Verification.credential).count _ ≤ 1 at hr
  rw [ha₁] at hr
  simp [init, Verification.credential] at hr

end Examples

end Verifier

end Federation

end LabInventory
