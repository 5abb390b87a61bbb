import LabInventory.Federation.Pairing.Effects
import LabInventory.Federation.Pairing.Isolation
import LabInventory.Federation.Proxy

open Sql Program

namespace LabInventory

namespace Federation

-- Two instances which are paired with each other.
inductive Side
  | left
  | right
deriving DecidableEq

namespace Side

def other : Side → Side
  | left => right
  | right => left

@[simp]
theorem other_other {s : Side} : s.other.other = s := by
  cases s <;> rfl

@[simp]
theorem other_ne {s : Side} : s.other ≠ s := by
  cases s <;> simp [other]

theorem eq_or_eq_other (s t : Side) : t = s ∨ t = s.other := by
  cases s <;> cases t <;> simp [other]

end Side

-- A call of `create_trust` which waits for the other side. Its message is on the way as long as
-- there is no answer.
structure Handshake where
  requester : Side
  pending : PendingTrust
  answer : Option (Except ApiError AcceptPairingResponse)

-- Of the handshakes in flight, `latest` is the one that was accepted last, unless it has ended.
structure Network where
  instances : Side → Database
  handshakes : Nat → Option Handshake
  latest : Option Nat

namespace Network

def Quiet (net : Network) : Prop :=
  ∀ i, net.handshakes i = none

def set (net : Network) (s : Side) (d : Database) : Network :=
  { net with instances := Function.update net.instances s d }

def put (net : Network) (i : Nat) (h : Handshake) : Network :=
  { net with handshakes := Function.update net.handshakes i (some h) }

def drop (net : Network) (i : Nat) : Network where
  instances := net.instances
  handshakes := Function.update net.handshakes i none
  latest := net.latest.filter (· ≠ i)

section Access

variable {net : Network} {s t : Side} {d : Database} {i j : Nat} {h : Handshake}

@[simp] theorem set_self : (net.set s d).instances s = d := by simp [set]
@[simp] theorem set_other : (net.set s d).instances s.other = net.instances s.other := by simp [set]
@[simp] theorem other_set : (net.set s.other d).instances s = net.instances s := by
  simp [set, Side.other_ne.symm]
@[simp] theorem handshakes_set : (net.set s d).handshakes = net.handshakes := rfl
@[simp] theorem latest_set : (net.set s d).latest = net.latest := rfl
@[simp] theorem put_self : (net.put i h).handshakes i = some h := by simp [put]
@[simp] theorem instances_put : (net.put i h).instances = net.instances := rfl
@[simp] theorem latest_put : (net.put i h).latest = net.latest := rfl
@[simp] theorem drop_self : (net.drop i).handshakes i = none := by simp [drop]
@[simp] theorem instances_drop : (net.drop i).instances = net.instances := rfl

theorem put_of_ne (hn : j ≠ i) : (net.put i h).handshakes j = net.handshakes j := by
  simp [put, hn]

theorem drop_of_ne (hn : j ≠ i) : (net.drop i).handshakes j = net.handshakes j := by
  simp [drop, hn]

end Access

end Network

namespace Network

-- The steps of the two instances. The message of a handshake and its answer can be lost at any time.
inductive Step
  | issue (s : Side) (ctx : LaboratoryContext) (code : String) (newId : Uuid)
  | request (i : Nat) (s : Side) (ctx : LaboratoryContext) (request : CreateTrustJsonData)
      (requestBaseUrl sharedSecret : String)
  | accept (i : Nat) (newTrustId : Uuid)
  | finish (i : Nat) (peerCertificate : Option (List UInt8)) (newTrustId : Uuid)
  | lose (i : Nat)
  | revoke (s : Side) (ctx : LaboratoryContext) (trustId : Uuid)
  | work (s : Side) (d : Database)

section Run

variable [Cryptography] [Addresses]

-- Apart from pairing, the instances leave their nodes and trusts alone.
inductive Next (settings : Side → FederationSettings) (net : Network) : Step → Network → Prop
  | issue {s ctx code newId} : Next settings net (.issue s ctx code newId)
      (net.set s ((createPairingCode (settings s) ctx code newId).after (net.instances s)))
  | request {i s ctx request requestBaseUrl sharedSecret pending d} :
      net.handshakes i = none →
      (requestTrust (settings s) ctx request requestBaseUrl sharedSecret).run (net.instances s) =
        .ok (pending, d) →
      Next settings net (.request i s ctx request requestBaseUrl sharedSecret)
        (net.put i ⟨s, pending, none⟩)
  | accept {i s pending newTrustId response d} :
      net.handshakes i = some ⟨s, pending, none⟩ →
      (acceptPairing (settings s.other) pending.message newTrustId).run (net.instances s.other) =
        .ok (response, d) →
      Next settings net (.accept i newTrustId)
        { (net.set s.other d).put i ⟨s, pending, some (.ok response)⟩ with latest := some i }
  | refuse {i s pending newTrustId e} :
      net.handshakes i = some ⟨s, pending, none⟩ →
      (acceptPairing (settings s.other) pending.message newTrustId).run (net.instances s.other) =
        .error e →
      Next settings net (.accept i newTrustId) (net.put i ⟨s, pending, some (.error e)⟩)
  | finish {i s pending result peerCertificate newTrustId} :
      net.handshakes i = some ⟨s, pending, some result⟩ →
      Next settings net (.finish i peerCertificate newTrustId) ((net.set s
        ((storeTrust pending ⟨peerCertificate, result⟩ newTrustId).after (net.instances s))).drop i)
  | lose {i} : Next settings net (.lose i) (net.drop i)
  | revoke {s ctx trustId} : Next settings net (.revoke s ctx trustId)
      (net.set s ((revokeTrust (settings s) ctx trustId).after (net.instances s)))
  | work {s d} : d.localNodeId = (net.instances s).localNodeId →
      d.remoteNodes = (net.instances s).remoteNodes →
      d.laboratoryTrusts = (net.instances s).laboratoryTrusts →
      Next settings net (.work s d) (net.set s d)

end Run

end Network

-- The laboratory `a` on the side `s` trusts the laboratory `b` on the other side.
def Trusts (nodeId : Side → Uuid) (s : Side) (d : Database) (a b : Uuid) : Prop :=
  (fetchActiveTrust a (nodeId s.other) b d).isSome

-- What the side `s` holds for the other side.
def sharedKey (nodeId : Side → Uuid) (s : Side) (d : Database) : Option (String × Int) :=
  (d.remoteNodes.find? (nodeId s.other)).map fun r => (r.sharedSecret, r.keyVersion)

namespace Network

def Mutual (nodeId : Side → Uuid) (net : Network) (s : Side) (a b : Uuid) : Prop :=
  Trusts nodeId s (net.instances s) a b ∧ Trusts nodeId s.other (net.instances s.other) b a

-- Laboratories that trust each other can verify each other's requests.
def Agrees (nodeId : Side → Uuid) (net : Network) : Prop :=
  ∀ s a b, net.Mutual nodeId s a b →
    sharedKey nodeId s (net.instances s) = sharedKey nodeId s.other (net.instances s.other)

section Run

variable [Cryptography]

-- The handshake that was accepted last is stored, unless there is nothing to break. Others that were
-- accepted before are only stored as long as it is going to overwrite them.
def Orderly (nodeId : Side → Uuid) (net : Network) : Step → Prop
  | .finish i peerCertificate newTrustId => ∀ s pending result,
    net.handshakes i = some ⟨s, pending, some result⟩ →
    if net.latest = some i then
      (∃ accepted, Storable pending ⟨peerCertificate, result⟩ newTrustId (net.instances s) accepted) ∨
      ∀ s a b, ¬net.Mutual nodeId s a b
    else
      (∀ accepted, ¬Storable pending ⟨peerCertificate, result⟩ newTrustId (net.instances s) accepted) ∨
      ∃ j h, net.latest = some j ∧ net.handshakes j = some h ∧ h.requester = s
  | .lose i => net.latest = some i → ∀ s a b, ¬net.Mutual nodeId s a b
  | _ => True

-- The steps that may occur in a state are given by `P`.
inductive Run [Addresses] (settings : Side → FederationSettings) (P : Network → Step → Prop)
    (net : Network) : Network → Prop
  | init : Run settings P net net
  | step {net₁ net₂ a} : Run settings P net net₁ → P net₁ a → net₁.Next settings a net₂ →
      Run settings P net net₂

end Run

end Network

structure Handshake.Honest (nodeId : Side → Uuid) (h : Handshake) : Prop where
  requesterNodeId : h.pending.message.requesterNodeId = nodeId h.requester
  answer : ∀ response, h.answer = some (.ok response) →
    response.nodeId = nodeId h.requester.other ∧ response.keyVersion = 1

-- The other side already holds the secret of the handshake.
structure Handshake.Accepted (nodeId : Side → Uuid) (net : Network) (h : Handshake) : Prop where
  answer : ∃ response, h.answer = some (.ok response)
  key : sharedKey nodeId h.requester.other (net.instances h.requester.other) =
    some (h.pending.message.sharedSecret, 1)

-- Two instances between which no handshake is going on.
structure Settled (nodeId : Side → Uuid) (net : Network) : Prop where
  localNodeId : ∀ s, (net.instances s).localNodeId = some (nodeId s)
  quiet : net.Quiet
  latest : net.latest = none
  agrees : net.Agrees nodeId

structure Coherent (nodeId : Side → Uuid) (net : Network) : Prop where
  localNodeId : ∀ s, (net.instances s).localNodeId = some (nodeId s)
  honest : ∀ i h, net.handshakes i = some h → h.Honest nodeId
  agrees : net.latest = none → net.Agrees nodeId
  accepted : ∀ i, net.latest = some i → ∃ h, net.handshakes i = some h ∧ h.Accepted nodeId net

section Changes

variable {nodeId : Side → Uuid} {net : Network} {s : Side} {d d' : Database} {a b n : Uuid}

theorem fetchActiveTrust_isSome : (fetchActiveTrust a n b d).isSome ↔
    ∃ r ∈ d.laboratoryTrusts, r.pair = (a, n, b) ∧ r.status = .active := by
  simp only [fetchActiveTrust, List.find?_isSome, Bool.and_eq_true, decide_eq_true_eq,
    TrustRow.pair, Prod.mk.injEq, Table.mem_def]
  grind

-- A step which does not touch the nodes, and only takes back trusts.
structure Reduces (d d' : Database) : Prop where
  localNodeId : d'.localNodeId = d.localNodeId
  remoteNodes : d'.remoteNodes = d.remoteNodes
  trusts : ∀ a n b, (fetchActiveTrust a n b d').isSome → (fetchActiveTrust a n b d).isSome

theorem Reduces.refl : Reduces d d :=
  ⟨rfl, rfl, fun _ _ _ h => h⟩

theorem Reduces.of_eq (hi : d'.localNodeId = d.localNodeId) (hn : d'.remoteNodes = d.remoteNodes)
    (ht : d'.laboratoryTrusts = d.laboratoryTrusts) : Reduces d d' where
  localNodeId := hi
  remoteNodes := hn
  trusts a n b h := by rwa [fetchActiveTrust, ht] at h

theorem Network.forall_set {P : Side → Database → Prop} (h : ∀ t, P t (net.instances t))
    (hd : P s d) (t : Side) : P t ((net.set s d).instances t) := by
  by_cases ht : t = s
  case pos => subst ht; simpa using hd
  case neg => simpa [set, ht] using h t

theorem Coherent.reduce (h : Coherent nodeId net) (hd : Reduces (net.instances s) d) :
    Coherent nodeId (net.set s d) where
  localNodeId := Network.forall_set (P := fun t d => d.localNodeId = some (nodeId t)) h.localNodeId
    (hd.localNodeId.trans (h.localNodeId s))
  honest := h.honest
  agrees hl t a b hm := by
    have hk : ∀ t, sharedKey nodeId t ((net.set s d).instances t) =
        sharedKey nodeId t (net.instances t) :=
      Network.forall_set (P := fun t d => sharedKey nodeId t d = sharedKey nodeId t (net.instances t))
        (fun _ => rfl) (by rw [sharedKey, sharedKey, hd.remoteNodes])
    have ht : ∀ t a b, Trusts nodeId t ((net.set s d).instances t) a b →
        Trusts nodeId t (net.instances t) a b :=
      Network.forall_set (P := fun t d => ∀ a b, Trusts nodeId t d a b →
        Trusts nodeId t (net.instances t) a b) (fun _ _ _ h => h) fun a b => hd.trusts a _ b
    rw [hk, hk]
    exact h.agrees hl t a b ⟨ht _ _ _ hm.left, ht _ _ _ hm.right⟩
  accepted i hi := by
    obtain ⟨h', hf, ha⟩ := h.accepted i hi
    refine ⟨h', hf, ha.answer, Eq.trans ?_ ha.key⟩
    exact Network.forall_set (P := fun t d => sharedKey nodeId t d = sharedKey nodeId t (net.instances t))
      (fun _ => rfl) (by rw [sharedKey, sharedKey, hd.remoteNodes]) _

theorem Coherent.put (h : Coherent nodeId net) {i : Nat} {h' : Handshake} (hh : h'.Honest nodeId)
    (hl : net.latest ≠ some i) : Coherent nodeId (net.put i h') where
  localNodeId := h.localNodeId
  honest j g hg := by
    by_cases hj : j = i
    case pos =>
      subst hj
      rw [Network.put_self] at hg
      exact Option.some.inj hg ▸ hh
    case neg => exact h.honest j g (Network.put_of_ne hj ▸ hg)
  agrees := h.agrees
  accepted j hj := by
    obtain ⟨g, hf, ha⟩ := h.accepted j hj
    have hn : j ≠ i := fun he => hl (he ▸ hj)
    exact ⟨g, (Network.put_of_ne hn).trans hf, ha.answer, ha.key⟩

-- A handshake ends. Unless it was the one which was accepted last, nothing depends on it.
theorem Coherent.drop (h : Coherent nodeId net) {i : Nat}
    (ha : net.latest = some i → net.Agrees nodeId) : Coherent nodeId (net.drop i) where
  localNodeId := h.localNodeId
  honest j g hg := by
    by_cases hj : j = i
    case pos => simp [hj] at hg
    case neg => exact h.honest j g (Network.drop_of_ne hj ▸ hg)
  agrees hl := by
    cases hn : net.latest
    case none => exact h.agrees hn
    case some j =>
      have hj : j = i := by simpa [Network.drop, hn] using hl
      exact ha (hj ▸ hn)
  accepted j hj := by
    have ⟨hn, hi⟩ := Option.filter_eq_some_iff.mp hj
    obtain ⟨g, hf, ha⟩ := h.accepted j hn
    exact ⟨g, (Network.drop_of_ne (by simpa using hi)).trans hf, ha.answer, ha.key⟩

-- A side may store whatever it likes while the other side waits for it.
theorem Coherent.store (h : Coherent nodeId net) {i : Nat} {g : Handshake}
    (hl : net.latest = some i) (hi : net.handshakes i = some g) (hg : g.requester = s)
    (hd : d.localNodeId = some (nodeId s)) : Coherent nodeId (net.set s d) where
  localNodeId := Network.forall_set (P := fun t d => d.localNodeId = some (nodeId t)) h.localNodeId hd
  honest := h.honest
  agrees hn := by simp [hl] at hn
  accepted j hj := by
    obtain ⟨g', hf, ha⟩ := h.accepted j hj
    obtain rfl : i = j := Option.some.inj (hl.symm.trans hj)
    obtain rfl : g = g' := Option.some.inj (hi.symm.trans hf)
    subst hg
    exact ⟨g, hf, ha.answer, by simpa using ha.key⟩

end Changes

section Steps

variable [Cryptography] {nodeId : Side → Uuid} {net net' : Network} {s : Side} {d d' : Database}
variable {settings : Side → FederationSettings}

theorem reduces_createPairingCode {settings ctx code newId} :
    Reduces d ((createPairingCode settings ctx code newId).after d) := by
  refine wp_after (wp_mono wlp_createPairingCode fun _ d' h => ?_) .refl
  obtain ⟨row, _, _, _, _, hs⟩ := h
  exact .of_eq (by rw [hs.frame]) (by rw [hs.frame]) (by rw [hs.frame])

omit [Cryptography] in
theorem fetchActiveTrust_of_revoked {trust : TrustRow} (ht : trust.status = .revoked)
    (hs : StoresTrust d d' trust) {a n b : Uuid} (hf : (fetchActiveTrust a n b d').isSome) :
    (fetchActiveTrust a n b d).isSome ∧ trust.pair ≠ (a, n, b) := by
  obtain ⟨r, hr, hp, ha⟩ := fetchActiveTrust_isSome.mp hf
  rcases (hs.mem_iff r).mp hr with h | rfl
  case inl =>
    have hn : trust.pair ≠ (a, n, b) := fun he => h.right (hp.trans he.symm)
    exact ⟨fetchActiveTrust_isSome.mpr ⟨r, h.left, hp, ha⟩, hn⟩
  case inr => simp [ht] at ha

omit [Cryptography] in
theorem reduces_revokeTrust {settings ctx trustId} :
    Reduces d ((revokeTrust settings ctx trustId).after d) := by
  refine wp_after (wp_mono wlp_revokeTrust fun _ d' h => ?_) .refl
  obtain ⟨trust, _, _, _, hs⟩ := h
  exact ⟨by rw [hs.frame], by rw [hs.frame], fun a n b hf =>
    (fetchActiveTrust_of_revoked rfl hs hf).left⟩

variable [Addresses]

theorem Coherent.accept (h : Coherent nodeId net) {i : Nat} {pending newTrustId response}
    (hf : net.handshakes i = some ⟨s, pending, none⟩)
    (hr : (acceptPairing (settings s.other) pending.message newTrustId).run
      (net.instances s.other) = .ok (response, d)) :
    Coherent nodeId
      { (net.set s.other d).put i ⟨s, pending, some (.ok response)⟩ with latest := some i } := by
  obtain ⟨code, trust, ha⟩ := wp_run (wp_acceptPairing fun _ _ => trivial) hr
  obtain ⟨baseUrl, _, _, hp⟩ := ha.pairs
  have hh := h.honest i _ hf
  have hi : response.nodeId = nodeId s.other :=
    Option.some.inj (ha.nodeId.symm.trans (h.localNodeId s.other))
  have hd : d.localNodeId = some (nodeId s.other) := by
    rw [hp.frame]
    exact h.localNodeId s.other
  refine ⟨?_, fun j g hg => ?_, by simp, fun j hj => ?_⟩
  case refine_1 =>
    exact Network.forall_set (P := fun t d => d.localNodeId = some (nodeId t)) h.localNodeId hd
  case refine_2 =>
    by_cases hj : j = i
    case pos =>
      subst hj
      obtain rfl := Option.some.inj (Network.put_self.symm.trans hg)
      refine ⟨hh.requesterNodeId, fun response' hr' => ?_⟩
      obtain rfl : response = response' := by simpa using hr'
      exact ⟨hi, ha.keyVersion⟩
    case neg => exact h.honest j g ((Network.put_of_ne hj).symm.trans hg)
  case refine_3 =>
    obtain rfl := Option.some.inj hj
    refine ⟨_, Network.put_self, ⟨response, rfl⟩, ?_⟩
    have hn : pending.message.requesterNodeId = nodeId s := hh.requesterNodeId
    simp [sharedKey, hp.nodes, hn, AcceptPairingJsonData.requester]

omit [Addresses] in
theorem Coherent.finish (h : Coherent nodeId net) {i : Nat} {pending result peerCertificate newTrustId}
    (hf : net.handshakes i = some ⟨s, pending, some result⟩)
    (ho : net.Orderly nodeId (.finish i peerCertificate newTrustId)) :
    Coherent nodeId ((net.set s
      ((storeTrust pending ⟨peerCertificate, result⟩ newTrustId).after (net.instances s))).drop i) := by
  have hh := h.honest i _ hf
  replace ho := ho s pending result hf
  cases hr : (storeTrust pending ⟨peerCertificate, result⟩ newTrustId).run (net.instances s)
  case error e =>
    rw [after_of_error hr]
    refine (h.reduce .refl).drop fun hl => ?_
    rw [Network.latest_set] at hl
    rw [if_pos hl] at ho
    rcases ho with ⟨accepted, hs⟩ | ho
    case inl =>
      obtain ⟨_, _, hok, _⟩ := exists_storeTrust hs
      simp [hr] at hok
    case inr =>
      have he : net.set s (net.instances s) = net := by simp [Network.set]
      rw [he]
      exact fun t a b hm => absurd hm (ho t a b)
  case ok r =>
    obtain ⟨trust, d⟩ := r
    obtain ⟨accepted, hs⟩ := wp_run (wp_storeTrust fun _ _ => trivial) hr
    rw [after_of_ok hr]
    have hc := hs.storable.checked
    simp only [checkPairingResponse, Except.bind_eq_ok, Except.mapError_eq_ok,
      Except.pure_eq_ok] at hc
    obtain ⟨_, _, response, hok, _, _, he⟩ := hc
    subst he
    have hn := hh.answer response (congrArg some hok)
    have hp := hs.pairs
    have hk : sharedKey nodeId s d = some (pending.message.sharedSecret, 1) := by
      simp [sharedKey, hp.nodes, PendingTrust.responder, hn.left, hn.right]
    have hd : d.localNodeId = some (nodeId s) := by
      rw [hp.frame]
      exact h.localNodeId s
    by_cases hl : net.latest = some i
    case pos =>
      refine (h.store hl hf rfl hd).drop fun _ t a b _ => ?_
      obtain ⟨g, hg, ha⟩ := h.accepted i hl
      obtain rfl := Option.some.inj (hf.symm.trans hg)
      have hko : sharedKey nodeId s.other (net.instances s.other) = _ := ha.key
      obtain rfl | rfl := s.eq_or_eq_other t
      case inl => simp [hk, hko]
      case inr => simp [hk, hko]
    case neg =>
      rw [if_neg hl] at ho
      obtain ho | ⟨j, g, hj, hg, hs'⟩ := ho
      case inl => exact absurd hs.storable (ho response)
      case inr => exact (h.store hj hg hs' hd).drop fun he => absurd he hl

theorem Coherent.step (h : Coherent nodeId net) {a : Network.Step} (ho : net.Orderly nodeId a)
    (hn : net.Next settings a net') : Coherent nodeId net' := by
  cases hn
  case issue => exact h.reduce reduces_createPairingCode
  case request i s ctx request requestBaseUrl sharedSecret pending d hf hr =>
    obtain ⟨_, hq⟩ := wp_run wlp_requestTrust hr
    have hi : pending.message.requesterNodeId = nodeId s :=
      Option.some.inj (hq.localNodeId.symm.trans (h.localNodeId s))
    refine h.put ⟨hi, by simp⟩ fun hl => ?_
    obtain ⟨g, hg, _⟩ := h.accepted i hl
    simp [hf] at hg
  case accept hf hr => exact h.accept hf hr
  case refuse i s pending newTrustId e hf hr =>
    refine h.put ⟨(h.honest i _ hf).requesterNodeId, by simp⟩ fun hl => ?_
    obtain ⟨g, hg, ha⟩ := h.accepted i hl
    obtain rfl := Option.some.inj (hf.symm.trans hg)
    have ⟨_, ha⟩ := ha.answer
    simp at ha
  case finish hf => exact h.finish hf ho
  case lose i => exact h.drop fun hl s a b hm => absurd hm (ho hl s a b)
  case revoke => exact h.reduce reduces_revokeTrust
  case work hi hn ht => exact h.reduce (.of_eq hi hn ht)

theorem Coherent.run (h : Coherent nodeId net) (hr : net.Run settings (·.Orderly nodeId) net') :
    Coherent nodeId net' := by
  induction hr
  case init => exact h
  case step ho hn ih => exact ih.step ho hn

end Steps

section Pin

variable {pin : String}

theorem isAsciiHexdigit_iff {c : Char} : isAsciiHexdigit c ↔ (48 ≤ c.toNat ∧ c.toNat ≤ 57) ∨
    (97 ≤ c.toNat ∧ c.toNat ≤ 102) ∨ (65 ≤ c.toNat ∧ c.toNat ≤ 70) := by
  have hle {a b : Char} : a ≤ b ↔ a.toNat ≤ b.toNat := UInt32.le_iff_toNat_le
  simp only [isAsciiHexdigit, Bool.or_eq_true, Bool.and_eq_true, decide_eq_true_eq, hle,
    Char.isDigit_iff_toNat, or_assoc]
  rfl

theorem utf8Size_hexdigit {c : Char} (h : isAsciiHexdigit c) : c.utf8Size = 1 := by
  refine Char.utf8Size_eq_one_iff.mpr (UInt32.le_iff_toNat_le.mpr ?_)
  have hc := isAsciiHexdigit_iff.mp h
  change c.toNat ≤ 127
  omega

-- Of the pins that are admitted, the table only takes those without upper-case letters.
theorem isPin_iff (h : validateTlsPinValue (some pin) = .ok ()) :
    RemoteNodeRow.IsPin pin ↔ ∀ c ∈ pin.toList, ¬('A' ≤ c ∧ c ≤ 'F') := by
  have ⟨hl, ha⟩ := Except.check_eq_ok.mp h
  rw [List.all_eq_true] at ha
  have hs := Text.utf8ByteSize_ofList fun c hc => utf8Size_hexdigit (ha c hc)
  rw [String.ofList_toList, hl] at hs
  have hd : pin.length = 64 := by rw [← String.length_toList, hs]
  have hle {a b : Char} : a ≤ b ↔ a.toNat ≤ b.toNat := UInt32.le_iff_toNat_le
  have hA : 'A'.toNat = 65 ∧ 'F'.toNat = 70 ∧ 'a'.toNat = 97 ∧ 'f'.toNat = 102 ∧ '0'.toNat = 48 ∧
    '9'.toNat = 57 := by decide
  simp only [RemoteNodeRow.IsPin, hd, decide_true, Bool.true_and, List.all_eq_true]
  refine forall₂_congr fun c hc => ?_
  have hx := isAsciiHexdigit_iff.mp (ha c hc)
  simp only [Bool.or_eq_true, Bool.and_eq_true, decide_eq_true_eq, hle, Char.isDigit_iff_toNat]
  omega

end Pin

theorem Settled.coherent {nodeId : Side → Uuid} {net : Network} (h : Settled nodeId net) :
    Coherent nodeId net where
  localNodeId := h.localNodeId
  honest i g hg := by simp [h.quiet i] at hg
  agrees _ := h.agrees
  accepted i hi := by simp [h.latest] at hi

-- As long as the handshake that was accepted last gets stored, laboratories that trust each other
-- share their keys.
theorem pairing_agreement [Cryptography] [Addresses] {settings : Side → FederationSettings}
    {nodeId : Side → Uuid} {net net' : Network} (h : Settled nodeId net)
    (hr : net.Run settings (·.Orderly nodeId) net') :
    (net'.Quiet → net'.Agrees nodeId) ∧
    ∀ pin, validateTlsPinValue (some pin) = .ok () →
      (RemoteNodeRow.IsPin pin ↔ ∀ c ∈ pin.toList, ¬('A' ≤ c ∧ c ≤ 'F')) := by
  refine ⟨fun hq => ?_, fun _ => isPin_iff⟩
  have hc := h.coherent.run hr
  cases hl : net'.latest
  case none => exact hc.agrees hl
  case some i =>
    obtain ⟨g, hg, _⟩ := hc.accepted i hl
    simp [hq i] at hg

section Examples

def partnerCode [Cryptography] : PairingCodeRow where
  pairingCodeId := 8
  localLaboratoryId := 2
  codeHash := sha256Hex (asBytes "code")
  expiresAt := 1900 * 1000000
  consumedAt := none
  createdAt := 1000 * 1000000

-- Laboratory 2 of the partner, which has issued a code.
def partner [Cryptography] : Database where
  __ := Database.empty
  laboratories := {{ laboratoryId := 2, name := "Partner" }}
  users := {{
    userId := 5
    username := "bob"
    passwordHash := "hash"
    userType := .user
    laboratoryId := some 2
    email := none
    phoneNumber := none
    description := none
  }}
  localNodeId := some 7
  pairingCodes := {partnerCode}
  now := 1000 * 1000000

def officeNode : RemoteNodeRow where
  remoteNodeId := 9
  baseUrl := "https://office.example"
  displayName := none
  sharedSecret := "secret"
  sharedSecretHash := "hash"
  tlsCertificateSha256 := none
  status := .active
  keyVersion := 1
  lastHandshakeAt := none

def connect (left right : Database) : Network where
  instances
    | .left => left
    | .right => right
  handshakes _ := none
  latest := none

-- Laboratory 2 of the partner trusts laboratory 1 of the office.
def trusting [Cryptography] : Database where
  __ := partner
  remoteNodes := {officeNode}
  laboratoryTrusts := {{
    trustId := 4
    localLaboratoryId := 2
    remoteNodeId := 9
    remoteLaboratoryId := 1
    remoteLaboratoryName := none
    status := .active
    revokedAt := none
  }}

def neighbours [Cryptography] : Network :=
  connect paired trusting

def neighbourId : Side → Uuid
  | .left => 9
  | .right => 7

def officeAdmin : LaboratoryContext where
  actor := { userId := 6, userType := .labAdmin, laboratoryId := some 1 }
  laboratoryId := 1

-- The code is that of laboratory 2.
def rotation (remoteLaboratoryId : Uuid) : CreateTrustJsonData where
  remoteBaseUrl := "https://partner.example"
  remoteLaboratoryId := remoteLaboratoryId
  pairingCode := "code"
  tlsCertificateSha256 := none

def pendingRotation (remoteLaboratoryId : Uuid) : PendingTrust where
  laboratoryId := 1
  remoteBaseUrl := "https://partner.example"
  remoteLaboratoryId := remoteLaboratoryId
  message := {
    pairingCode := "code"
    requesterNodeId := 9
    requesterBaseUrl := "https://office.example"
    requesterLaboratoryId := 1
    requesterLaboratoryName := "Office"
    sharedSecret := "other"
    tlsCertificateSha256 := none
  }

section Rotation

variable {d : Database} {l : Uuid}

theorem run_rotation (hi : d.localNodeId = some 9)
    (hl : d.laboratories = {{ laboratoryId := 1, name := "Office" }}) :
    let _ := exampleAddresses
    (requestTrust defaultSettings officeAdmin (rotation l) "" "other").run d =
      .ok (pendingRotation l, d) := by
  let _ := exampleAddresses
  have hu : requesterBaseUrl "" defaultSettings = "https://office.example" := by decide +kernel
  have hr : (requestTrust defaultSettings officeAdmin (rotation l) "" "other").run d = _ :=
    run_requestTrust rfl rfl rfl normalizeBaseUrl_example.left hi (by rw [hl]; rfl)
  rw [hu] at hr
  exact hr

theorem acceptable_rotation [Cryptography] (hi : d.localNodeId = some 7)
    (hl : d.laboratories = partner.laboratories) (hc : d.pairingCodes = partner.pairingCodes)
    (hnow : d.now = partner.now) (hn : ∀ r ∈ d.remoteNodes, r.remoteNodeId = 9)
    (ht : ∀ r ∈ d.laboratoryTrusts, r.trustId ≠ 11) :
    let _ := exampleAddresses
    Acceptable defaultSettings (pendingRotation l).message 11 d := by
  let _ := exampleAddresses
  have hs : sha256Hex (asBytes "other") ≠ "" ∧ sha256Hex (asBytes "code") ≠ "" :=
    ⟨sha256Hex_ne_empty, sha256Hex_ne_empty⟩
  have hm : partnerCode ∈ d.pairingCodes := hc ▸ List.mem_singleton_self _
  have hlab : (d.laboratories.find? 2).isSome := by rw [hl]; rfl
  refine ⟨rfl, ⟨_, normalizeBaseUrl_example.right, ?_, fun r hr _ => hn r hr⟩, ?_, by simp [hi],
    partnerCode, hm, ?_, ?_, hlab, fun _ => ht⟩
  case refine_1 => simp [RemoteNodeRow.IsValid, AcceptPairingJsonData.requester, pendingRotation, hs]
  case refine_2 =>
    have h : Text.trim "other" ≠ "" := by decide
    exact h
  case refine_3 => simp [IsUsable, pendingRotation, hnow, partner, partnerCode]
  case refine_4 => simp [PairingCodeRow.IsValid, partnerCode, hs]

theorem storable_rotation [Cryptography] [Addresses] {d₁ d₂ : Database} {code : PairingCodeRow}
    {trust : TrustRow} {response : AcceptPairingResponse}
    (ha : Accepts defaultSettings (pendingRotation 2).message d₁ d₂ code trust response)
    (hc : code.localLaboratoryId = 2)
    (hl : d.laboratories = {{ laboratoryId := 1, name := "Office" }})
    (hn : ∀ r ∈ d.remoteNodes, r.remoteNodeId = response.nodeId)
    (ht : ∀ r ∈ d.laboratoryTrusts, r.trustId ≠ 12) :
    Storable (pendingRotation 2) ⟨none, .ok response⟩ 12 d response := by
  refine ⟨?_, ⟨?_, fun r hr _ => hn r hr⟩, ⟨by rw [hl]; rfl, fun _ => ht⟩⟩
  case refine_1 =>
    have hl : response.laboratoryId = (pendingRotation 2).remoteLaboratoryId :=
      ha.laboratoryId.trans hc
    simp only [checkPairingResponse, Except.bind_eq_ok, Except.mapError_eq_ok, Except.check_eq_ok,
      Except.pure_eq_ok]
    exact ⟨(), rfl, response, rfl, (), hl, rfl⟩
  case refine_2 =>
    have hne : sha256Hex (asBytes "other") ≠ "" := sha256Hex_ne_empty
    have hpin : response.tlsCertificateSha256 = none := ha.tlsCertificateSha256
    simp [RemoteNodeRow.IsValid, PendingTrust.responder, pendingRotation, ha.keyVersion, hpin, hne]

theorem neighbours_settled [Cryptography] : Settled neighbourId neighbours where
  localNodeId s := by cases s <;> rfl
  quiet _ := rfl
  latest := rfl
  agrees s a b _ := by cases s <;> rfl

-- The partner has accepted the message, while the office waits for the answer.
def rotated (l : Uuid) (response : AcceptPairingResponse) (right : Database) : Network where
  instances := (connect paired right).instances
  handshakes i := if i = 0 then some ⟨.left, pendingRotation l, some (.ok response)⟩ else none
  latest := some 0

theorem exists_rotated [Cryptography] (l : Uuid) :
    let _ := exampleAddresses
    ∃ response d trust,
      Accepts defaultSettings (pendingRotation l).message trusting d partnerCode trust response ∧
      ∀ P : Network → Network.Step → Prop, (∀ net i s ctx request requestBaseUrl sharedSecret,
          P net (.request i s ctx request requestBaseUrl sharedSecret)) →
        (∀ net i newTrustId, P net (.accept i newTrustId)) →
        neighbours.Run (fun _ => defaultSettings) P (rotated l response d) := by
  let _ := exampleAddresses
  have hacc : Acceptable defaultSettings (pendingRotation l).message 11 trusting := by
    refine acceptable_rotation rfl rfl rfl rfl (fun r hr => ?_) fun r hr => ?_
    case refine_1 => exact congrArg RemoteNodeRow.remoteNodeId (Table.mem_singleton.mp hr)
    case refine_2 => exact Table.mem_singleton.mp hr ▸ by decide
  obtain ⟨response, d, hr, code, trust, ha⟩ := exists_acceptPairing hacc
  obtain rfl : code = partnerCode := Table.mem_singleton.mp ha.mem
  refine ⟨response, d, trust, ha, fun P hq hacc => ?_⟩
  have h₁ : neighbours.Next (fun _ => defaultSettings)
      (.request 0 .left officeAdmin (rotation l) "" "other")
      (neighbours.put 0 ⟨.left, pendingRotation l, none⟩) := .request rfl (run_rotation rfl rfl)
  have h₂ : (neighbours.put 0 ⟨.left, pendingRotation l, none⟩).Next (fun _ => defaultSettings)
      (.accept 0 11) _ := .accept Network.put_self hr
  have he : { ((neighbours.put 0 ⟨.left, pendingRotation l, none⟩).set .right d).put 0
      ⟨.left, pendingRotation l, some (.ok response)⟩ with latest := some 0 } =
        rotated l response d := by
    simp only [Network.put, Network.set, rotated, neighbours, connect, Network.mk.injEq, and_true]
    constructor
    case left => funext s; cases s <;> rfl
    case right => funext i; by_cases hi : i = 0 <;> simp [hi]
  exact he ▸ .step (.step .init (hq ..) h₁) (hacc ..) h₂

-- The partner uses the new secret from then on.
theorem trusts_of_accepted [Cryptography] {l : Uuid} {trust : TrustRow}
    {response : AcceptPairingResponse} :
    let _ := exampleAddresses
    Accepts defaultSettings (pendingRotation l).message trusting d partnerCode trust response →
      Trusts neighbourId .right d 2 1 ∧ sharedKey neighbourId .right d = some ("other", 1) := by
  intro _ ha
  obtain ⟨_, _, _, hp⟩ := ha.pairs
  constructor
  case left =>
    exact fetchActiveTrust_isSome.mpr ⟨trust, (hp.trusts _).mpr (.inr rfl), ha.opens.pair,
      ha.opens.status⟩
  case right =>
    simp only [sharedKey, hp.nodes]
    rfl

theorem finish_rotated [Cryptography] {l : Uuid} {response : AcceptPairingResponse}
    {right : Database} :
    let _ := exampleAddresses
    (rotated l response right).Next (fun _ => defaultSettings) (.finish 0 none 12)
      (connect ((storeTrust (pendingRotation l) ⟨none, .ok response⟩ 12).after paired) right) := by
  let _ := exampleAddresses
  have h : (rotated l response right).Next (fun _ => defaultSettings) (.finish 0 none 12) _ :=
    .finish rfl
  convert h
  simp only [connect, Network.drop, Network.set, rotated, Network.mk.injEq]
  refine ⟨?_, ?_, rfl⟩
  case refine_1 => funext s; cases s <;> rfl
  case refine_2 => funext i; by_cases hi : i = 0 <;> simp [hi]

end Rotation

theorem pairing_agreement_rotated :
    let _ := Cryptography.standard
    let _ := exampleAddresses
    ∃ net', neighbours.Run (fun _ => defaultSettings) (·.Orderly neighbourId) net' ∧
      net'.Quiet ∧ net'.Mutual neighbourId .left 1 2 ∧
      (∀ s, sharedKey neighbourId s (net'.instances s) = some ("other", 1)) ∧
      net'.Agrees neighbourId := by
  let _ := Cryptography.standard
  let _ := exampleAddresses
  obtain ⟨response, d, trust, ha, hrun⟩ := exists_rotated 2
  have hi : response.nodeId = 7 := (Option.some.inj ha.nodeId).symm
  have hs : Storable (pendingRotation 2) ⟨none, .ok response⟩ 12 paired response := by
    refine storable_rotation ha rfl rfl (fun r hr => ?_) fun r hr => ?_
    case refine_1 => exact Table.mem_singleton.mp hr ▸ hi.symm
    case refine_2 => exact Table.mem_singleton.mp hr ▸ by decide
  have ho : (rotated 2 response d).Orderly neighbourId (.finish 0 none 12) := by
    intro s pending result hf
    obtain ⟨rfl, rfl, rfl⟩ : s = .left ∧ pending = pendingRotation 2 ∧ result = .ok response := by
      simpa [rotated, eq_comm] using hf
    have hl : (rotated 2 response d).latest = some 0 := rfl
    rw [if_pos hl]
    exact .inl ⟨response, hs⟩
  have hr : neighbours.Run (fun _ => defaultSettings) (·.Orderly neighbourId) _ :=
    .step (hrun _ (fun _ _ _ _ _ _ _ => trivial) fun _ _ _ => trivial) ho finish_rotated
  have hagrees := (pairing_agreement neighbours_settled hr).left fun _ => rfl
  obtain ⟨ht, hk⟩ := trusts_of_accepted ha
  have hw : (storeTrust (pendingRotation 2) ⟨none, .ok response⟩ 12).wp _ (fun _ => False) _ paired :=
    wp_storeTrust fun hn => absurd hs (hn response)
  obtain ⟨trust', d', hrun', accepted, hstores⟩ := wp_total hw
  obtain rfl := Except.ok.inj <| hstores.storable.checked.symm.trans hs.checked
  have ht' : Trusts neighbourId .left d' 1 2 := fetchActiveTrust_isSome.mpr
    ⟨trust', (hstores.pairs.trusts _).mpr (.inr rfl),
      hstores.opens.pair.trans <| congrArg (1, ·, 2) hi, hstores.opens.status⟩
  rw [after_of_ok hrun'] at hr hagrees
  refine ⟨_, hr, fun _ => rfl, ⟨ht', ht⟩, fun s => ?_, hagrees⟩
  cases s
  case left => exact (hagrees .left 1 2 ⟨ht', ht⟩).trans hk
  case right => exact hk

-- The trust between two laboratories stops working, once a further handshake turns out to be for
-- another laboratory. A pin in upper case is admitted, but cannot be stored.
theorem rotation_breaks_trust :
    let _ := Cryptography.standard
    let _ := exampleAddresses
    (∃ net', Settled neighbourId neighbours ∧ neighbours.Mutual neighbourId .left 1 2 ∧
      neighbours.Run (fun _ => defaultSettings) (fun _ _ => True) net' ∧ net'.Quiet ∧
      ¬net'.Agrees neighbourId) ∧
    ∃ pin, validateTlsPinValue (some pin) = .ok () ∧ ¬RemoteNodeRow.IsPin pin := by
  let _ := Cryptography.standard
  let _ := exampleAddresses
  refine ⟨?_, .ofList (List.replicate 64 'A'), by decide +kernel, by decide +kernel⟩
  obtain ⟨response, d, trust, ha, hrun⟩ := exists_rotated 3
  have he : (storeTrust (pendingRotation 3) ⟨none, .ok response⟩ 12).after paired = paired := by
    cases hr : (storeTrust (pendingRotation 3) ⟨none, .ok response⟩ 12).run paired
    case error e => exact after_of_error hr
    case ok r =>
      obtain ⟨accepted, hs⟩ := wp_run (wp_storeTrust fun _ _ => trivial) hr
      have hc := hs.storable.checked
      simp only [checkPairingResponse, Except.bind_eq_ok, Except.mapError_eq_ok,
        Except.pure_eq_ok, Except.check_eq_ok, Except.ok.injEq] at hc
      obtain ⟨_, _, _, rfl, _, hl, _⟩ := hc
      exact absurd (ha.laboratoryId.symm.trans hl) (by decide)
  have hfin : (rotated 3 response d).Next (fun _ => defaultSettings) (.finish 0 none 12) _ :=
    finish_rotated
  rw [he] at hfin
  refine ⟨_, neighbours_settled, ⟨rfl, rfl⟩, .step (hrun _ (fun _ _ _ _ _ _ _ => trivial)
    fun _ _ _ => trivial) trivial hfin, fun _ => rfl, fun hagr => ?_⟩
  obtain ⟨ht, hk⟩ := trusts_of_accepted ha
  have hm : sharedKey neighbourId .left paired = sharedKey neighbourId .right d :=
    hagr .left 1 2 ⟨rfl, ht⟩
  rw [hk] at hm
  exact absurd hm (by decide)

end Examples

end Federation

end LabInventory
