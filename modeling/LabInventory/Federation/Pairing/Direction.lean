import LabInventory.Federation.Pairing.Handshake

open Sql Program

namespace LabInventory

namespace Federation

section History

-- The pairings in which a laboratory on a side has taken part, and which were not revoked there
-- since. One of the two laboratories has redeemed a code of the other one.
abbrev Pairings :=
  Side → Uuid → Uuid → Prop

def Pairings.record [Cryptography] (nodeId : Side → Uuid) (settings : Side → FederationSettings)
    (net net' : Network) (pairings : Pairings) : Network.Step → Pairings
  | .accept i _ => fun t b a => pairings t b a ∨ ∃ s pending response,
    net'.handshakes i = some ⟨s, pending, some (.ok response)⟩ ∧ t = s.other ∧
    b = response.laboratoryId ∧ a = pending.message.requesterLaboratoryId
  | .finish i peerCertificate newTrustId => fun s a b => pairings s a b ∨
    ∃ pending result accepted, net.handshakes i = some ⟨s, pending, some result⟩ ∧
    Storable pending ⟨peerCertificate, result⟩ newTrustId (net.instances s) accepted ∧
    a = pending.laboratoryId ∧ b = pending.remoteLaboratoryId
  | .revoke s ctx trustId => fun t a b => pairings t a b ∧ ¬(t = s ∧
    (∃ d, (revokeTrust (settings s) ctx trustId).run (net.instances s) = .ok ((), d)) ∧
    ∃ trust ∈ (net.instances s).laboratoryTrusts, trust.trustId = trustId ∧
      trust.pair = (a, nodeId s.other, b))
  | _ => pairings

inductive Network.History [Cryptography] [Addresses] (settings : Side → FederationSettings) (nodeId : Side → Uuid)
    (net : Network) (pairings : Pairings) : Network → Pairings → Prop
  | init : History settings nodeId net pairings net pairings
  | step {net₁ net₂ pairings₁ a} : History settings nodeId net pairings net₁ pairings₁ →
      net₁.Next settings a net₂ →
      History settings nodeId net pairings net₂ (pairings₁.record nodeId settings net₁ net₂ a)

structure Handshake.Genuine (settings : Side → FederationSettings) (nodeId : Side → Uuid)
    (h : Handshake) : Prop extends h.Honest nodeId where
  enabled : (settings h.requester).enabled
  laboratoryId : h.pending.laboratoryId = h.pending.message.requesterLaboratoryId
  accepted : ∀ response, h.answer = some (.ok response) → (settings h.requester.other).enabled

-- Trusts come from pairings only.
structure Recorded (settings : Side → FederationSettings) (nodeId : Side → Uuid) (net : Network)
    (pairings : Pairings) : Prop where
  localNodeId : ∀ s, (net.instances s).localNodeId = some (nodeId s)
  handshakes : ∀ i h, net.handshakes i = some h → h.Genuine settings nodeId
  trusts : ∀ s a b, Trusts nodeId s (net.instances s) a b → pairings s a b

-- Two instances which have not been paired with each other so far.
structure Unpaired (nodeId : Side → Uuid) (net : Network) : Prop where
  localNodeId : ∀ s, (net.instances s).localNodeId = some (nodeId s)
  quiet : net.Quiet
  trusts : ∀ s a b, ¬Trusts nodeId s (net.instances s) a b

variable {nodeId : Side → Uuid} {net net' : Network} {pairings pairings' : Pairings} {s : Side}
variable {settings : Side → FederationSettings} {i : Nat} {d d' : Database}

theorem Unpaired.recorded (h : Unpaired nodeId net) :
    Recorded settings nodeId net fun _ _ _ => False where
  localNodeId := h.localNodeId
  handshakes i g hg := by simp [h.quiet i] at hg
  trusts := h.trusts

theorem Recorded.put (h : Recorded settings nodeId net pairings) {g : Handshake}
    (hg : g.Genuine settings nodeId) : Recorded settings nodeId (net.put i g) pairings where
  localNodeId := h.localNodeId
  handshakes j g' hg' := by
    by_cases hj : j = i
    case pos =>
      subst hj
      obtain rfl := Option.some.inj (Network.put_self.symm.trans hg')
      exact hg
    case neg => exact h.handshakes j g' (Network.put_of_ne hj ▸ hg')
  trusts := h.trusts

theorem Recorded.drop (h : Recorded settings nodeId net pairings) :
    Recorded settings nodeId (net.drop i) pairings where
  localNodeId := h.localNodeId
  handshakes j g hg := by
    by_cases hj : j = i
    case pos => simp [hj] at hg
    case neg => exact h.handshakes j g (Network.drop_of_ne hj ▸ hg)
  trusts := h.trusts

-- One of the instances changes, and with it what is recorded.
theorem Recorded.set (h : Recorded settings nodeId net pairings)
    (hd : d.localNodeId = some (nodeId s)) (hp : ∀ t, t ≠ s → ∀ a b, pairings t a b → pairings' t a b)
    (ht : ∀ a b, Trusts nodeId s d a b → pairings' s a b) :
    Recorded settings nodeId (net.set s d) pairings' where
  localNodeId := Network.forall_set (P := fun t d => d.localNodeId = some (nodeId t)) h.localNodeId hd
  handshakes := h.handshakes
  trusts t a b := by
    by_cases hs : t = s
    case pos => subst hs; simpa using ht a b
    case neg =>
      intro hab
      refine hp t hs a b (h.trusts t a b ?_)
      simpa [Network.set, hs] using hab

theorem Recorded.reduce (h : Recorded settings nodeId net pairings)
    (hd : Reduces (net.instances s) d) : Recorded settings nodeId (net.set s d) pairings :=
  h.set (hd.localNodeId.trans (h.localNodeId s)) (fun _ _ _ _ hp => hp) fun a b ht =>
    h.trusts s a b (hd.trusts _ _ _ ht)

theorem trusts_of_pairs {code : Option PairingCodeRow} {node : RemoteNodeRow} {trust : TrustRow} {a b : Uuid}
    (hp : Pairs d d' code node trust) (ht : Trusts nodeId s d' a b) :
    Trusts nodeId s d a b ∨ trust.pair = (a, nodeId s.other, b) := by
  obtain ⟨r, hr, hk, hs⟩ := fetchActiveTrust_isSome.mp ht
  rcases (hp.trusts r).mp hr with h | rfl
  case inl => exact .inl (fetchActiveTrust_isSome.mpr ⟨r, h.left, hk, hs⟩)
  case inr => exact .inr hk

end History

section Steps

variable [Cryptography] [Addresses] {nodeId : Side → Uuid} {net net' : Network}
variable {pairings pairings' : Pairings} {settings : Side → FederationSettings} {a : Network.Step}

theorem Recorded.step (h : Recorded settings nodeId net pairings)
    (hn : net.Next settings a net') :
    Recorded settings nodeId net' (pairings.record nodeId settings net net' a) := by
  cases hn
  case issue => exact h.reduce reduces_createPairingCode
  case request i s ctx request requestBaseUrl sharedSecret pending d hf hr =>
    obtain ⟨_, hq⟩ := wp_run wlp_requestTrust hr
    have hi : pending.message.requesterNodeId = nodeId s :=
      Option.some.inj (hq.localNodeId.symm.trans (h.localNodeId s))
    have hl := hq.laboratoryId.trans hq.requesterLaboratoryId.symm
    exact h.put ⟨⟨hi, by simp⟩, hq.enabled, hl, by simp⟩
  case accept i s pending newTrustId response d hf hr =>
    obtain ⟨code, trust, ha⟩ := wp_run (wp_acceptPairing fun _ _ => trivial) hr
    obtain ⟨baseUrl, _, _, hp⟩ := ha.pairs
    have hg := h.handshakes i _ hf
    have hi : response.nodeId = nodeId s.other :=
      Option.some.inj (ha.nodeId.symm.trans (h.localNodeId s.other))
    have hd : d.localNodeId = some (nodeId s.other) := by
      rw [hp.frame]
      exact h.localNodeId s.other
    have hg' : Handshake.Genuine settings nodeId ⟨s, pending, some (.ok response)⟩ := by
      refine ⟨⟨hg.requesterNodeId, fun response' hr' => ?_⟩, hg.enabled, hg.laboratoryId,
        fun _ _ => ha.enabled⟩
      obtain rfl : response = response' := by simpa using hr'
      exact ⟨hi, ha.keyVersion⟩
    have hs : Recorded settings nodeId ((net.set s.other d).put i ⟨s, pending, some (.ok response)⟩)
        (pairings.record nodeId settings net ((net.set s.other d).put i
          ⟨s, pending, some (.ok response)⟩) (.accept i newTrustId)) := by
      refine (h.set hd (fun t _ b a hp => .inl hp) fun b a ht => ?_).put hg'
      rcases trusts_of_pairs hp ht with ht | ht
      case inl => exact .inl (h.trusts _ _ _ ht)
      case inr =>
        have he := ha.opens.pair.symm.trans ht
        simp only [Prod.mk.injEq] at he
        exact .inr ⟨s, pending, response, Network.put_self, rfl,
          he.left.symm.trans ha.laboratoryId.symm, he.right.right.symm⟩
    exact ⟨hs.localNodeId, hs.handshakes, hs.trusts⟩
  case refuse i s pending newTrustId e hf hr =>
    have hg := h.handshakes i _ hf
    have hs := h.put (i := i) (g := ⟨s, pending, some (.error e)⟩)
      ⟨⟨hg.requesterNodeId, by simp⟩, hg.enabled, hg.laboratoryId, by simp⟩
    exact ⟨hs.localNodeId, hs.handshakes, fun t b a ht => .inl (hs.trusts t b a ht)⟩
  case finish i s pending result peerCertificate newTrustId hf =>
    have hg := h.handshakes i _ hf
    cases hr : (storeTrust pending ⟨peerCertificate, result⟩ newTrustId).run (net.instances s)
    case error e =>
      rw [after_of_error hr]
      have hs := (h.reduce (s := s) .refl).drop (i := i)
      exact ⟨hs.localNodeId, hs.handshakes, fun t b a ht => .inl (hs.trusts t b a ht)⟩
    case ok r =>
      obtain ⟨trust, d⟩ := r
      obtain ⟨accepted, hs⟩ := wp_run (wp_storeTrust fun _ _ => trivial) hr
      rw [after_of_ok hr]
      have hd : d.localNodeId = some (nodeId s) := by
        rw [hs.pairs.frame]
        exact h.localNodeId s
      refine (h.set hd (fun t _ b a hp => .inl hp) fun a b ht => ?_).drop
      rcases trusts_of_pairs hs.pairs ht with ht | ht
      case inl => exact .inl (h.trusts _ _ _ ht)
      case inr =>
        have he := hs.opens.pair.symm.trans ht
        simp only [Prod.mk.injEq] at he
        exact .inr ⟨pending, result, accepted, hf, hs.storable, he.left.symm, he.right.right.symm⟩
  case lose i => exact h.drop
  case revoke s ctx trustId =>
    cases hr : (revokeTrust (settings s) ctx trustId).run (net.instances s)
    case error e =>
      rw [after_of_error hr]
      have hs := h.reduce (s := s) .refl
      refine ⟨hs.localNodeId, hs.handshakes, fun t b a ht => ⟨hs.trusts t b a ht, ?_⟩⟩
      rintro ⟨_, ⟨d, hd⟩, _⟩
      simp [hr] at hd
    case ok r =>
      obtain ⟨_, d⟩ := r
      obtain ⟨trust, hm, _, hk, hs⟩ := wp_run wlp_revokeTrust hr
      rw [after_of_ok hr]
      have hd : d.localNodeId = some (nodeId s) := by
        rw [hs.frame]
        exact h.localNodeId s
      refine h.set hd (fun t ht a b hp => ⟨hp, fun hn => ht hn.left⟩) fun a b ht => ?_
      have ⟨ht, hn⟩ := fetchActiveTrust_of_revoked rfl hs ht
      refine ⟨h.trusts _ _ _ ht, ?_⟩
      rintro ⟨_, _, trust', hm', hk', hp⟩
      obtain rfl := Table.eq_of_key_eq hm hm' (hk.trans hk'.symm)
      exact hn hp
  case work s d hi hn ht => exact h.reduce (.of_eq hi hn ht)

theorem Recorded.run (h : Recorded settings nodeId net pairings)
    (hr : net.History settings nodeId pairings net' pairings') :
    Recorded settings nodeId net' pairings' := by
  induction hr
  case init => exact h
  case step hn ih => exact ih.step hn

end Steps

section Requests

variable [UuidFormat] [Cryptography]

-- A request that arrives at its time, and whose nonce has not been used.
structure Timely (settings : FederationSettings) (d : Database) (localNodeId : Uuid) (now : Int)
    (nonce : String) : Prop where
  range : -2 ^ 63 ≤ now ∧ now < 2 ^ 63
  fresh : isFresh settings.requestTtlSeconds (epochSeconds d.now) now
  visible : Visible nonce
  unused : Unused d localNodeId nonce

-- The users of a laboratory whose names fit into a header.
structure Visitor (d : Database) (user : UserRow) (laboratoryId : Uuid) : Prop where
  proxied : Proxied d user laboratoryId
  visible : Visible user.username
  ne_empty : Text.trim user.username ≠ ""

-- Any request of the user is signed by the one instance and accepted by the other one.
def Served [ScanOrder] (settings settings' : FederationSettings) (d d' : Database) (user : UserRow)
    (laboratoryId localNodeId : Uuid) (path : ProxyPath) : Prop :=
  ∀ method pathAndQuery body now nonce, Timely settings' d' localNodeId now nonce →
    ∃ request context d'',
      (proxy settings ⟨user.userId, user.userType, user.laboratoryId⟩ path method pathAndQuery body
        now nonce).run d = .ok (request, d) ∧
      (verifyInboundRequest settings' request path.remoteLaboratoryId).run d' =
        .ok (context, d'') ∧
      context.remoteLaboratoryId = laboratoryId ∧ context.remoteUserId = user.userId

variable {settings settings' : FederationSettings} {d d' : Database} {path : ProxyPath}
variable {laboratoryId localNodeId : Uuid} {node node' : RemoteNodeRow} {user : UserRow}

-- One side trusts the other one, and knows it by the same key.
structure Opened (d d' : Database) (laboratoryId localNodeId : Uuid) (path : ProxyPath)
    (node node' : RemoteNodeRow) : Prop where
  identity : d.localNodeId = some localNodeId
  sender : d.remoteNodes.find? path.remoteNodeId = some node
  receiver : d'.remoteNodes.find? localNodeId = some node'
  active : node.status = .active ∧ node'.status = .active
  sharedSecret : node'.sharedSecret = node.sharedSecret
  keyVersion : node'.keyVersion = node.keyVersion
  range : -2 ^ 31 ≤ node.keyVersion ∧ node.keyVersion < 2 ^ 31
  sent : (fetchActiveTrust laboratoryId path.remoteNodeId path.remoteLaboratoryId d).isSome
  received : (fetchActiveTrust path.remoteLaboratoryId localNodeId laboratoryId d').isSome

theorem Opened.served [ScanOrder] (h : Opened d d' laboratoryId localNodeId path node node')
    (he : settings.enabled) (he' : settings'.enabled) (hu : Visitor d user laboratoryId) :
    Served settings settings' d d' user laboratoryId localNodeId path := by
  intro method pathAndQuery body now nonce ht
  have hp : OutboundFederationIdentity.Presentable
      (UserRow.outbound user localNodeId laboratoryId) := by
    refine ⟨hu.visible, hu.ne_empty, ?_⟩
    rcases hu.proxied.userType with h | h <;> simp [UserRow.outbound, h, UserType.toStr]
  have hs : (proxy settings ⟨user.userId, user.userType, user.laboratoryId⟩ path method pathAndQuery
      body now nonce).run d = _ :=
    run_proxy he hu.proxied h.sent h.sender h.active.left h.identity
  obtain ⟨d'', hr, _⟩ : ∃ d'', (verifyInboundRequest settings' (signedRequest method pathAndQuery body
      node (UserRow.outbound user localNodeId laboratoryId) now nonce)
        path.remoteLaboratoryId).run d' = .ok (_, d'') ∧ _ :=
    run_signedRequest he' hp ht.visible h.range ht.range ht.fresh h.receiver h.active.right
      h.keyVersion h.sharedSecret h.received ht.unused
  exact ⟨_, _, d'', hs, hr, rfl, rfl⟩

variable [Addresses] {nodeId : Side → Uuid} {net net' : Network} {pairings : Pairings} {i : Nat}
variable {settings : Side → FederationSettings} {h : Handshake} {response : AcceptPairingResponse}
variable {peerCertificate : Option (List UInt8)} {newTrustId : Uuid}

-- The issuer of a code has redeemed it, and still holds what it has stored then.
structure Handshake.Held (nodeId : Side → Uuid) (net : Network) (h : Handshake)
    (response : AcceptPairingResponse) : Prop where
  answer : h.answer = some (.ok response)
  node : ∃ node, (net.instances h.requester.other).remoteNodes.find? (nodeId h.requester) =
    some node ∧ node.status = .active ∧ node.sharedSecret = h.pending.message.sharedSecret ∧
    node.keyVersion = 1
  trust : Trusts nodeId h.requester.other (net.instances h.requester.other) response.laboratoryId
    h.pending.message.requesterLaboratoryId

omit [UuidFormat] in
theorem held_of_accept {s : Side} {pending : PendingTrust} {d : Database}
    (hr : Recorded settings nodeId net pairings)
    (hf : net.handshakes i = some ⟨s, pending, none⟩)
    (ha : (acceptPairing (settings s.other) pending.message newTrustId).run (net.instances s.other) =
      .ok (response, d)) (hd : net'.instances s.other = d) :
    Handshake.Held nodeId net' ⟨s, pending, some (.ok response)⟩ response := by
  obtain ⟨code, trust, ha⟩ := wp_run (wp_acceptPairing fun _ _ => trivial) ha
  obtain ⟨baseUrl, _, _, hp⟩ := ha.pairs
  have hi : pending.message.requesterNodeId = nodeId s := (hr.handshakes i _ hf).requesterNodeId
  subst hd
  refine ⟨rfl, ⟨_, (hp.nodes _).trans (if_pos hi), rfl, rfl, rfl⟩, ?_⟩
  have ht := ha.opens.pair
  rw [← ha.laboratoryId, hi] at ht
  refine fetchActiveTrust_isSome.mpr ⟨trust, (hp.trusts trust).mpr (.inr rfl), ?_, ha.opens.status⟩
  rw [ht, Side.other_other]

-- Both sides store the same row, which opens the way there and the way back.
structure OpensBoth [ScanOrder] (settings : Side → FederationSettings) (nodeId : Side → Uuid)
    (net : Network) (s : Side) (a b : Uuid) : Prop where
  there : ∀ user, Visitor (net.instances s) user a → Served (settings s) (settings s.other)
    (net.instances s) (net.instances s.other) user a (nodeId s) ⟨nodeId s.other, b⟩
  back : ∀ user, Visitor (net.instances s.other) user b → Served (settings s.other) (settings s)
    (net.instances s.other) (net.instances s) user b (nodeId s.other) ⟨nodeId s, a⟩

omit [UuidFormat] in
theorem stores_of_finish (hf : net.handshakes i = some h) (ha : h.answer = some (.ok response))
    (hs : Storable h.pending ⟨peerCertificate, .ok response⟩ newTrustId
      (net.instances h.requester) response)
    (hn : net.Next settings (.finish i peerCertificate newTrustId) net') :
    net'.instances h.requester.other = net.instances h.requester.other ∧
    ∃ trust, Stores h.pending ⟨peerCertificate, .ok response⟩ newTrustId
      (net.instances h.requester) (net'.instances h.requester) response trust := by
  cases hn
  case finish s pending result hf' =>
  obtain rfl := Option.some.inj (hf.symm.trans hf')
  obtain rfl : result = .ok response := Option.some.inj ha
  obtain ⟨trust, d', hok, accepted, hst⟩ := exists_storeTrust hs
  obtain rfl := Except.ok.inj (hst.storable.checked.symm.trans hs.checked)
  simp only [after_of_ok hok, Network.instances_drop, Network.set_self, Network.set_other, true_and]
  exact ⟨trust, hst⟩

omit [UuidFormat] [Addresses] in
theorem laboratoryId_of_checked {pending : PendingTrust} {result : PairingResponse}
    (hc : checkPairingResponse pending result = .ok response) :
    response.laboratoryId = pending.remoteLaboratoryId := by
  simp only [checkPairingResponse, Except.bind_eq_ok, Except.mapError_eq_ok, Except.pure_eq_ok,
    Except.check_eq_ok] at hc
  obtain ⟨_, _, _, _, _, hl, rfl⟩ := hc
  exact hl

theorem opensBoth_of_finish [ScanOrder] (hr : Recorded settings nodeId net pairings)
    (hf : net.handshakes i = some h) (hh : h.Held nodeId net response)
    (hs : Storable h.pending ⟨peerCertificate, .ok response⟩ newTrustId
      (net.instances h.requester) response)
    (hn : net.Next settings (.finish i peerCertificate newTrustId) net') :
    OpensBoth settings nodeId net' h.requester h.pending.laboratoryId response.laboratoryId := by
  obtain ⟨node, hnode, hact, hsec, hkey⟩ := hh.node
  have hg := hr.handshakes i _ hf
  have hi := hg.answer response hh.answer
  obtain ⟨ho, trust, hst⟩ := stores_of_finish hf hh.answer hs hn
  obtain ⟨s, pending, answer⟩ := h
  have hd : (net'.instances s).localNodeId = some (nodeId s) := by
    rw [hst.pairs.frame]
    exact hr.localNodeId s
  have hd' : (net'.instances s.other).localNodeId = some (nodeId s.other) := by
    rw [ho]
    exact hr.localNodeId s.other
  have hrow : (net'.instances s).remoteNodes.find? (nodeId s.other) =
      some (pending.responder response (net.instances s).now) :=
    (hst.pairs.nodes _).trans (if_pos hi.left)
  have hrow' : (net'.instances s.other).remoteNodes.find? (nodeId s) = some node := by
    rw [ho]
    exact hnode
  have htrust : (fetchActiveTrust pending.laboratoryId (nodeId s.other) response.laboratoryId
      (net'.instances s)).isSome := by
    refine fetchActiveTrust_isSome.mpr
      ⟨trust, (hst.pairs.trusts trust).mpr (.inr rfl), ?_, hst.opens.status⟩
    rw [hst.opens.pair, hi.left, laboratoryId_of_checked hs.checked]
  have htrust' : (fetchActiveTrust response.laboratoryId (nodeId s) pending.laboratoryId
      (net'.instances s.other)).isSome := by
    have ht := hh.trust
    rw [Trusts, Side.other_other, ← hg.laboratoryId] at ht
    rw [ho]
    exact ht
  have hone : response.keyVersion = 1 := hi.right
  have he' : (settings s.other).enabled := hg.accepted response hh.answer
  constructor
  case there =>
    intro user hu
    refine Opened.served ⟨hd, hrow, hrow', ⟨rfl, hact⟩, hsec, hkey.trans hone.symm, ?_, htrust,
      htrust'⟩ hg.enabled he' hu
    simp [PendingTrust.responder, hone]
  case back =>
    intro user hu
    refine Opened.served ⟨hd', hrow', hrow, ⟨hact, rfl⟩, hsec.symm, hone.trans hkey.symm, ?_,
      htrust', htrust⟩ he' hg.enabled hu
    simp [hkey]

-- A request of the laboratory `a`, which the other side accepts for its laboratory `b`.
def Travels [ScanOrder] (settings : Side → FederationSettings) (nodeId : Side → Uuid)
    (net net' : Network) (s : Side) (a b : Uuid) : Prop :=
  ∃ actor method pathAndQuery body now nonce request context d d',
    (proxy (settings s) actor ⟨nodeId s.other, b⟩ method pathAndQuery body now nonce).run
      (net.instances s) = .ok (request, d) ∧
    (verifyInboundRequest (settings s.other) request b).run (net'.instances s.other) =
      .ok (context, d') ∧
    context.remoteLaboratoryId = a

omit [Addresses] in
theorem trusts_of_travels [ScanOrder] {s : Side} {a b : Uuid}
    (hi : (net.instances s).localNodeId = some (nodeId s))
    (h : Travels settings nodeId net net' s a b) :
    Trusts nodeId s (net.instances s) a b ∧
    Trusts nodeId s.other (net'.instances s.other) b a := by
  obtain ⟨actor, method, pathAndQuery, body, now, nonce, request, context, d, d', hp, hv, rfl⟩ := h
  obtain ⟨_, laboratoryId, localNodeId, remoteNode, user, _, hl, ht, rfl⟩ := wp_run wlp_proxy hp
  obtain rfl := Option.some.inj (hl.symm.trans hi)
  have ⟨hc, ht'⟩ := trust_of_signedRequest hv
  rw [hc, Trusts, Trusts, Side.other_other]
  exact ⟨ht, ht'⟩

-- Requests only travel between laboratories that were paired, but then they travel both ways.
theorem pairing_opens_both_directions [ScanOrder] (hu : Unpaired nodeId net) {net₁ : Network}
    {pairings₁ : Pairings} (hr : net.History settings nodeId (fun _ _ _ => False) net₁ pairings₁) :
    (∀ net₂ pairings₂ s a b, net₁.History settings nodeId pairings₁ net₂ pairings₂ →
      Travels settings nodeId net₁ net₂ s a b → pairings₁ s a b ∧ pairings₂ s.other b a) ∧
    ∀ i h response peerCertificate newTrustId net₂, net₁.handshakes i = some h →
      h.Held nodeId net₁ response →
      Storable h.pending ⟨peerCertificate, .ok response⟩ newTrustId (net₁.instances h.requester)
        response →
      net₁.Next settings (.finish i peerCertificate newTrustId) net₂ →
      OpensBoth settings nodeId net₂ h.requester h.pending.laboratoryId response.laboratoryId := by
  have h₁ := hu.recorded.run hr
  refine ⟨fun net₂ pairings₂ s a b hr₂ ht => ?_, fun _ _ _ _ _ _ hf hh hs hn =>
    opensBoth_of_finish h₁ hf hh hs hn⟩
  have ⟨hs, ho⟩ := trusts_of_travels (h₁.localNodeId s) ht
  exact ⟨h₁.trusts _ _ _ hs, (h₁.run hr₂).trusts _ _ _ ho⟩

end Requests

section Examples

-- Laboratory 1 of the office, which has never issued a code.
def office : Database where
  __ := Database.empty
  laboratories := {{ laboratoryId := 1, name := "Office" }}
  localNodeId := some 9
  now := 1000 * 1000000

def bob : UserRow where
  userId := 5
  username := "bob"
  passwordHash := "hash"
  userType := .user
  laboratoryId := some 2
  email := none
  phoneNumber := none
  description := none

theorem unpaired_office [Cryptography] : Unpaired neighbourId (connect office partner) where
  localNodeId s := by cases s <;> rfl
  quiet _ := rfl
  trusts s a b h := by
    obtain ⟨r, hr, _⟩ := fetchActiveTrust_isSome.mp h
    cases s
    case left => exact Table.not_mem_empty hr
    case right => exact Table.not_mem_empty hr

-- The office redeems a code of the partner.
theorem exists_paired [Cryptography] :
    let _ := exampleAddresses
    ∃ (net net' : Network) (pairings : Pairings) (h : Handshake) (response : AcceptPairingResponse),
      (connect office partner).History (fun _ => defaultSettings) neighbourId (fun _ _ _ => False)
        net pairings ∧
      net.handshakes 0 = some h ∧ h.Held neighbourId net response ∧ h.requester = .left ∧
      h.pending.laboratoryId = 1 ∧ response.laboratoryId = 2 ∧
      net.instances .left = office ∧ (net.instances .right).users = partner.users ∧
      Storable h.pending ⟨none, .ok response⟩ 12 (net.instances h.requester) response ∧
      net.Next (fun _ => defaultSettings) (.finish 0 none 12) net' := by
  let _ := exampleAddresses
  have hacc : Acceptable defaultSettings (pendingRotation 2).message 11 partner :=
    acceptable_rotation rfl rfl rfl rfl (fun r hr => absurd hr Table.not_mem_empty) fun r hr =>
      absurd hr Table.not_mem_empty
  obtain ⟨response, d, hr, code, trust, ha⟩ := exists_acceptPairing hacc
  obtain rfl : code = partnerCode := Table.mem_singleton.mp ha.mem
  obtain ⟨baseUrl, _, _, hp⟩ := ha.pairs
  let net := (connect office partner).put 0 ⟨.left, pendingRotation 2, none⟩
  let net' : Network :=
    { (net.set .right d).put 0 ⟨.left, pendingRotation 2, some (.ok response)⟩ with latest := some 0 }
  have h₁ : (connect office partner).Next (fun _ => defaultSettings)
      (.request 0 .left officeAdmin (rotation 2) "" "other") net := .request rfl (run_rotation rfl rfl)
  have h₂ : net.Next (fun _ => defaultSettings) (.accept 0 11) net' := .accept Network.put_self hr
  have hf : net'.handshakes 0 = some ⟨.left, pendingRotation 2, some (.ok response)⟩ := by
    change ((net.set .right d).put 0 _).handshakes 0 = _
    exact Network.put_self
  have hrec : Recorded (fun _ => defaultSettings) neighbourId net fun _ _ _ => False :=
    unpaired_office.recorded.step h₁
  have ho : net'.instances .left = office := rfl
  have hs : Storable (pendingRotation 2) ⟨none, .ok response⟩ 12 office response :=
    storable_rotation ha rfl rfl (fun r hr => absurd hr Table.not_mem_empty) fun r hr =>
      absurd hr Table.not_mem_empty
  have hd : net'.instances .right = d := rfl
  refine ⟨net', _, _, _, response, .step (.step .init h₁) h₂, hf,
    held_of_accept hrec Network.put_self hr hd, rfl, rfl, ha.laboratoryId, ho, ?_, ?_, .finish hf⟩
  case refine_1 => rw [hd, hp.frame]
  case refine_2 =>
    change Storable _ _ _ (net'.instances .left) _
    rwa [ho]

theorem pairing_opens_both_directions_office :
    let _ := hyphenated
    let _ := Cryptography.standard
    let _ := ScanOrder.stored
    let _ := exampleAddresses
    ∃ (net : Network) (pairings : Pairings) (net' : Network),
      (connect office partner).History (fun _ => defaultSettings) neighbourId (fun _ _ _ => False)
        net pairings ∧
      net.Next (fun _ => defaultSettings) (.finish 0 none 12) net' ∧
      OpensBoth (fun _ => defaultSettings) neighbourId net' .left 1 2 := by
  let _ := hyphenated
  let _ := Cryptography.standard
  let _ := ScanOrder.stored
  let _ := exampleAddresses
  obtain ⟨net, net', pairings, h, response, hr, hf, hh, hq, hl, hl', _, _, hs, hn⟩ := exists_paired
  have ho := (pairing_opens_both_directions unpaired_office hr).right _ _ _ _ _ _ hf hh hs hn
  rw [hq, hl, hl'] at ho
  exact ⟨net, pairings, net', hr, hn, ho⟩

-- A user of the partner is served by the office, although the partner has not redeemed any code.
theorem issuer_served :
    let _ := hyphenated
    let _ := Cryptography.standard
    let _ := ScanOrder.stored
    let _ := exampleAddresses
    ∃ (net : Network) (pairings : Pairings), Unpaired neighbourId (connect office partner) ∧
      (connect office partner).History (fun _ => defaultSettings) neighbourId (fun _ _ _ => False)
        net pairings ∧
      (∀ code, code ∉ (net.instances .left).pairingCodes) ∧
      Travels (fun _ => defaultSettings) neighbourId net net .right 2 1 := by
  let _ := hyphenated
  let _ := Cryptography.standard
  let _ := ScanOrder.stored
  let _ := exampleAddresses
  obtain ⟨net, net', pairings, h, response, hr, hf, hh, hq, hl, hl', hoff, husers, hs, hn⟩ :=
    exists_paired
  have hrec := unpaired_office.recorded.run hr
  have ho := opensBoth_of_finish hrec hf hh hs hn
  have hi := (hrec.handshakes 0 _ hf).answer response hh.answer
  obtain ⟨hother, trust, hst⟩ := stores_of_finish hf hh.answer hs hn
  rw [hq] at ho hst hother hi
  rw [hl, hl'] at ho
  rw [hoff] at hst
  refine ⟨net', _, unpaired_office, .step hr hn, fun code hc => ?_, ?_⟩
  case refine_1 =>
    rcases (hst.pairs.codes code).mp hc with h | h
    case inl => exact Table.not_mem_empty h.left
    case inr => simp at h
  case refine_2 =>
    have hu : Visitor (net'.instances .right) bob 2 := by
      refine ⟨⟨?_, .inr rfl, rfl⟩, visible_of_all (by decide), by decide⟩
      have he : net'.instances .right = net.instances .right := hother
      rw [he, husers]
      rfl
    have ht : Timely defaultSettings (net'.instances .left) 7 1000 "nonce" := by
      have hk : (net'.instances .left).remoteNodes.find? 7 = some _ :=
        (hst.pairs.nodes 7).trans (if_pos hi.left)
      have hframe := hst.pairs.frame
      have hnow : (net'.instances .left).now = 1000 * 1000000 := by rw [hframe]; rfl
      have hnonces : (net'.instances .left).requestNonces = office.requestNonces := by rw [hframe]
      refine ⟨by decide, by rw [hnow]; decide, visible_of_all (by decide), by rw [hk]; rfl, by decide,
        fun r hr => ?_⟩
      rw [hnonces] at hr
      exact absurd hr Table.not_mem_empty
    obtain ⟨request, context, d', hp, hv, hc, _⟩ :=
      ho.back bob hu .get assetsPath [] 1000 "nonce" ht
    exact ⟨_, _, _, _, _, _, request, context, _, d', hp, hv, hc⟩

end Examples

end Federation

end LabInventory
