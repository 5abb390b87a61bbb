import LabInventory.Federation.Pairing.Effects
import LabInventory.Federation.Signature

open Sql Program

namespace LabInventory

namespace Federation

section Calls

variable [Cryptography] [Addresses]

-- The requests by which a laboratory is paired, with the values that are generated or received
-- while processing them.
inductive PairingCall
  | accept (payload : AcceptPairingJsonData) (newTrustId : Uuid)
  | create (ctx : LaboratoryContext) (request : CreateTrustJsonData)
      (requestBaseUrl sharedSecret : String) (response : PairingResponse) (newTrustId : Uuid)

namespace PairingCall

def handle (settings : FederationSettings) : PairingCall → Transaction Unit
  | accept payload newTrustId => do
    let _ ← acceptPairing settings payload newTrustId
  | create ctx request requestBaseUrl sharedSecret response newTrustId => do
    let _ ← createTrust settings ctx request requestBaseUrl sharedSecret response newTrustId

-- The laboratory has issued the code, or asks for the trust.
def MadeFor (laboratoryId : Uuid) (d : Database) : PairingCall → Prop
  | accept payload _ => ∀ code ∈ d.pairingCodes,
    code.codeHash = sha256Hex (asBytes payload.pairingCode) → code.localLaboratoryId = laboratoryId
  | create ctx .. => ctx.laboratoryId = laboratoryId

omit [Cryptography] [Addresses] in
-- The key material that a call suggests for a node.
def Offers (remoteNodeId : Uuid) (secret : String) (keyVersion : Int) : PairingCall → Prop
  | accept payload _ => payload.requesterNodeId = remoteNodeId ∧ payload.sharedSecret = secret ∧
    keyVersion = 1
  | create _ _ _ sharedSecret response _ => ∃ accepted, response.result = .ok accepted ∧
    accepted.nodeId = remoteNodeId ∧ sharedSecret = secret ∧ accepted.keyVersion = keyVersion

end PairingCall

variable {settings : FederationSettings} {laboratoryId : Uuid} {d d' d'' : Database}
variable {call : PairingCall} {calls : List PairingCall}

-- What the calls for a laboratory leave as it is for all others.
structure Isolated (laboratoryId : Uuid) (calls : List PairingCall) (d d' : Database) : Prop where
  nodes : ∀ n, d'.remoteNodes.find? n = d.remoteNodes.find? n ∨
    ∃ call ∈ calls, ∃ row, d'.remoteNodes.find? n = some row ∧
      call.Offers n row.sharedSecret row.keyVersion ∧ row.status = .active
  trusts : ∀ r : TrustRow, r.localLaboratoryId ≠ laboratoryId →
    (r ∈ d'.laboratoryTrusts ↔ r ∈ d.laboratoryTrusts)
  codes : ∀ r : PairingCodeRow, r.localLaboratoryId ≠ laboratoryId →
    (r ∈ d'.pairingCodes ↔ r ∈ d.pairingCodes)

namespace Isolated

omit [Cryptography] [Addresses] in
theorem refl : Isolated laboratoryId calls d d :=
  ⟨fun _ => .inl rfl, fun _ _ => .rfl, fun _ _ => .rfl⟩

omit [Cryptography] [Addresses] in
theorem trans {calls'} (h : Isolated laboratoryId calls d d')
    (h' : Isolated laboratoryId calls' d' d'') :
    Isolated laboratoryId (calls ++ calls') d d'' where
  nodes n := by
    rcases h'.nodes n with he | ⟨call, hm, h'⟩
    case inr => exact .inr ⟨call, List.mem_append_right _ hm, h'⟩
    case inl =>
      rw [he]
      rcases h.nodes n with he | ⟨call, hm, h⟩
      case inl => exact .inl he
      case inr => exact .inr ⟨call, List.mem_append_left _ hm, h⟩
  trusts r hr := (h'.trusts r hr).trans (h.trusts r hr)
  codes r hr := (h'.codes r hr).trans (h.codes r hr)

omit [Cryptography] [Addresses] in
theorem of_pairs {code : Option PairingCodeRow} {node : RemoteNodeRow} {trust : TrustRow}
    (h : Pairs d d' code node trust) (hc : ∀ c ∈ code, c ∈ d.pairingCodes ∧
      c.localLaboratoryId = laboratoryId) (ht : trust.localLaboratoryId = laboratoryId)
    (hn : node.status = .active)
    (ho : call.Offers node.remoteNodeId node.sharedSecret node.keyVersion) :
    Isolated laboratoryId [call] d d' where
  nodes n := by
    rw [h.nodes]
    split
    case isTrue he => exact .inr ⟨call, .head _, node, rfl, he ▸ ho, hn⟩
    case isFalse => exact .inl rfl
  trusts r hr := by
    rw [h.trusts]
    constructor
    case mp =>
      rintro (h | rfl)
      case inl => exact h.left
      case inr => exact absurd ht hr
    case mpr =>
      intro hm
      refine .inl ⟨hm, fun he => hr ?_⟩
      simp only [TrustRow.pair, Prod.mk.injEq] at he
      exact he.left.trans ht
  codes r hr := by
    rw [h.codes]
    constructor
    case mp =>
      rintro (h | ⟨c, hm, rfl⟩)
      case inl => exact h.left
      case inr => exact absurd (hc c hm).right hr
    case mpr =>
      intro hm
      refine .inl ⟨hm, fun c hcm he => hr ?_⟩
      obtain rfl := Table.eq_of_key_eq hm (hc c hcm).left he
      exact (hc r hcm).right

end Isolated

theorem isolated_after (h : call.MadeFor laboratoryId d) :
    Isolated laboratoryId [call] d ((call.handle settings).after d) := by
  refine wp_after (I := fun _ => True) (R := fun _ => True) ?_ .refl
  cases call
  case accept payload newTrustId =>
    simp only [PairingCall.handle, wp_bind, pure_def, wp_done]
    refine wp_mono (wp_acceptPairing fun _ _ => trivial) fun response d' ha => ?_
    obtain ⟨code, trust, ha⟩ := ha
    obtain ⟨baseUrl, _, _, hp⟩ := ha.pairs
    have hu := ha.usable
    simp only [IsUsable, Bool.and_eq_true, decide_eq_true_eq] at hu
    have hl := h code ha.mem hu.left.left
    have ht := ha.opens.pair
    simp only [TrustRow.pair, Prod.mk.injEq] at ht
    refine .of_pairs hp (fun c hc => ?_) (ht.left.trans hl) rfl ⟨rfl, rfl, rfl⟩
    obtain rfl := Option.some.inj hc
    exact ⟨ha.mem, hl⟩
  case create ctx request requestBaseUrl sharedSecret response newTrustId =>
    simp only [PairingCall.handle, wp_bind, pure_def, wp_done]
    refine wp_mono wlp_createTrust fun trust d' hs => ?_
    obtain ⟨pending, accepted, hr, hs⟩ := hs
    have ht := hs.opens.pair
    simp only [TrustRow.pair, Prod.mk.injEq] at ht
    have hc := hs.storable.checked
    simp only [checkPairingResponse, Except.bind_eq_ok, Except.mapError_eq_ok, Except.pure_eq_ok] at hc
    obtain ⟨_, _, accepted', ha, _, _, rfl⟩ := hc
    refine .of_pairs hs.pairs (by simp) ((ht.left.trans hr.laboratoryId).trans h) rfl ?_
    exact ⟨accepted', ha, rfl, hr.sharedSecret.symm, rfl⟩

-- The runs of calls that are made for a laboratory, one after another. Meanwhile, time passes.
inductive PairingRun (settings : FederationSettings) (laboratoryId : Uuid) (d : Database) :
    List PairingCall → Database → Prop
  | init : PairingRun settings laboratoryId d [] d
  | call {cs d₁ c} : PairingRun settings laboratoryId d cs d₁ → c.MadeFor laboratoryId d₁ →
    PairingRun settings laboratoryId d (cs ++ [c]) ((c.handle settings).after d₁)
  | tick {cs d₁ now} : PairingRun settings laboratoryId d cs d₁ →
    PairingRun settings laboratoryId d cs { d₁ with now }

-- Pairing a laboratory does not affect the trusts and codes of others, nor the nodes that none of
-- the calls names.
theorem pairing_isolation (h : PairingRun settings laboratoryId d calls d') :
    Isolated laboratoryId calls d d' := by
  induction h
  case init => exact .refl
  case call hm ih => exact ih.trans (isolated_after hm)
  case tick ih => exact ⟨ih.nodes, ih.trusts, ih.codes⟩

end Calls

section Examples

def exampleUrl (host text : String) : Url where
  scheme := "https"
  username := ""
  password := none
  host := some host
  port := none
  path := "/"
  text := text

-- How the addresses of the examples are read.
@[reducible]
def exampleAddresses : Addresses where
  parseUrl s :=
    if s = "https://partner.example" then
      some (exampleUrl "partner.example" "https://partner.example/")
    else if s = "https://office.example" then
      some (exampleUrl "office.example" "https://office.example/")
    else
      none
  parseIpAddr _ := none

theorem normalizeBaseUrl_example :
    let _ := exampleAddresses
    normalizeBaseUrl "https://partner.example" defaultSettings = .ok "https://partner.example" ∧
    normalizeBaseUrl "https://office.example" defaultSettings = .ok "https://office.example" := by
  decide +kernel

-- Laboratory 4 of the same instance has issued a code.
def shared [Cryptography] : Database where
  __ := paired
  laboratories := ⟨[⟨1, "Office"⟩, ⟨4, "Workshop"⟩], by decide, by decide⟩
  pairingCodes := {{
    pairingCodeId := 8
    localLaboratoryId := 4
    codeHash := sha256Hex (asBytes "code")
    expiresAt := 1900 * 1000000
    consumedAt := none
    createdAt := 1000 * 1000000
  }}

-- The code is redeemed in the name of the node that laboratory 1 trusts.
def intrusion : AcceptPairingJsonData where
  pairingCode := "code"
  requesterNodeId := 7
  requesterBaseUrl := "https://partner.example"
  requesterLaboratoryId := 6
  requesterLaboratoryName := "Guest"
  sharedSecret := "other"
  tlsCertificateSha256 := none

theorem acceptable_intrusion [Cryptography] :
    let _ := exampleAddresses
    Acceptable defaultSettings intrusion 11 shared := by
  let _ := exampleAddresses
  have hs : sha256Hex (asBytes "other") ≠ "" ∧ sha256Hex (asBytes "code") ≠ "" :=
    ⟨sha256Hex_ne_empty, sha256Hex_ne_empty⟩
  refine ⟨rfl, ⟨_, normalizeBaseUrl_example.left, ?_, fun r hr _ => ?_⟩, by decide, rfl, _, .head _, ?_,
    ?_, rfl, fun _ r hr => ?_⟩
  case refine_1 => simp [RemoteNodeRow.IsValid, AcceptPairingJsonData.requester, intrusion, hs]
  case refine_2 =>
    obtain rfl : r = partnerNode := Table.mem_singleton.mp hr
    rfl
  case refine_3 => simp [IsUsable, intrusion, shared, paired]
  case refine_4 => simp [PairingCodeRow.IsValid, hs]
  case refine_5 => exact Table.mem_singleton.mp hr ▸ by decide

theorem madeFor_intrusion [Cryptography] :
    (PairingCall.accept intrusion 11).MadeFor 4 shared := by
  intro code hc _
  exact congrArg PairingCodeRow.localLaboratoryId (Table.mem_singleton.mp hc)

-- Laboratory 4 gets its trust, and the node its new secret.
theorem exists_intruded [Cryptography] :
    let _ := exampleAddresses
    ∃ d', PairingRun defaultSettings 4 shared [.accept intrusion 11] d' ∧
      (∃ t ∈ d'.laboratoryTrusts, t.pair = (4, 7, 6)) ∧
      (d'.remoteNodes.find? 7).map (·.sharedSecret) = some "other" := by
  let _ := exampleAddresses
  obtain ⟨response, d', hr, code, trust, ha⟩ := exists_acceptPairing acceptable_intrusion
  obtain ⟨baseUrl, _, _, hp⟩ := ha.pairs
  have hd : ((PairingCall.accept intrusion 11).handle defaultSettings).after shared = d' := by
    refine after_of_ok (a := ()) ?_
    rw [PairingCall.handle, run_bind, hr]
    rfl
  have hrun : PairingRun defaultSettings 4 shared [.accept intrusion 11] d' :=
    hd ▸ .call .init madeFor_intrusion
  refine ⟨d', hrun, ⟨trust, (hp.trusts trust).mpr (.inr rfl), ?_⟩, ?_⟩
  case refine_1 =>
    obtain rfl : code = _ := Table.mem_singleton.mp ha.mem
    exact ha.opens.pair
  case refine_2 =>
    rw [hp.nodes]
    rfl

theorem pairing_isolation_intrusion :
    let _ := Cryptography.standard
    let _ := exampleAddresses
    ∃ d', (∃ t ∈ d'.laboratoryTrusts, t.pair = (4, 7, 6)) ∧
      Isolated 4 [.accept intrusion 11] shared d' := by
  let _ := Cryptography.standard
  let _ := exampleAddresses
  obtain ⟨d', hrun, ht, _⟩ := exists_intruded
  exact ⟨d', ht, pairing_isolation hrun⟩

-- Laboratory 4 changes the secret by which laboratory 1 and its partner sign their requests.
theorem secret_replaced :
    let _ := Cryptography.standard
    let _ := exampleAddresses
    ∃ calls d' trust node, PairingRun defaultSettings 4 shared calls d' ∧
      trust ∈ shared.laboratoryTrusts ∧ trust.localLaboratoryId = 1 ∧ trust.status = .active ∧
      shared.remoteNodes.find? trust.remoteNodeId = some node ∧ node.sharedSecret = "secret" ∧
      (d'.remoteNodes.find? trust.remoteNodeId).map (·.sharedSecret) = some "other" := by
  let _ := Cryptography.standard
  let _ := exampleAddresses
  obtain ⟨d', hrun, _, hsecret⟩ := exists_intruded
  exact ⟨_, d', _, partnerNode, hrun, .head _, rfl, rfl, rfl, rfl, hsecret⟩

end Examples

end Federation

end LabInventory
