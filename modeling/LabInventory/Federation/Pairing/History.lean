import LabInventory.Federation.Pairing.Concurrent
import LabInventory.Federation.Pairing.Handshake

open Sql Program

namespace LabInventory

namespace Federation

namespace History

variable {d d' d₁ v : Database} {ks : Set RowId} {log : List Write}

section Stores

theorem storesNode_of_apply {w : RowWrite RemoteNodeRow Uuid} {row : RemoteNodeRow}
    (hw : w = .insert row ∨ w = .update row ∧ HasNode d row.remoteNodeId)
    (ha : d.apply (.remoteNodes w) = .ok d') : StoresNode d d' row := by
  obtain rfl | ⟨rfl, r, hm, hk⟩ := hw
  case inl =>
    obtain ⟨-, ht, he⟩ := (apply_remoteNodes (.inl rfl)).mp ha
    exact ⟨he, fun n => Table.find?_insert ht⟩
  case inr =>
    obtain ⟨-, ht, he⟩ := (apply_remoteNodes (.inr rfl)).mp ha
    exact ⟨he, fun n => Table.find?_update_of_mem ht hm hk⟩

theorem storesTrust_of_apply {w : RowWrite TrustRow Uuid} {row : TrustRow}
    (hw : w = .insert row ∨ w = .update row ∧ HasTrust d row.trustId row.pair)
    (ha : d.apply (.laboratoryTrusts w) = .ok d') : StoresTrust d d' row := by
  obtain rfl | ⟨rfl, t, hm, hk, hp⟩ := hw
  case inr => exact storesTrust_of_update hm hk hp ha
  case inl =>
    obtain ⟨-, -, ht, -⟩ := (apply_laboratoryTrusts (.inl rfl)).mp ha
    obtain ⟨hk, hc, -⟩ := Table.insert_eq_ok.mp ht
    refine storesTrust_of_insert (findTrust_eq_none.mpr fun r hr hp => ?_) ha
    exact hk r hr <| clash?_trust.mp hc r hr hp

theorem storesCode_of_apply {w : RowWrite PairingCodeRow Uuid} {row : PairingCodeRow}
    (hw : w = .insert row ∨
      w = .update row ∧ ∃ r ∈ d.pairingCodes, r.pairingCodeId = row.pairingCodeId)
    (ha : d.apply (.pairingCodes w) = .ok d') : StoresCode d d' row := by
  obtain rfl | ⟨rfl, hr⟩ := hw
  case inl =>
    obtain ⟨-, ht, -, he⟩ := (apply_pairingCodes (.inl rfl)).mp ha
    refine ⟨he, fun r => ?_⟩
    rw [Table.mem_insert ht]
    exact or_congr_left ⟨fun h => ⟨h, (Table.insert_eq_ok.mp ht).left r h⟩, And.left⟩
  case inr =>
    obtain ⟨-, ht, -, he⟩ := (apply_pairingCodes (.inr rfl)).mp ha
    refine ⟨he, fun r => ?_⟩
    rw [Table.mem_update ht]
    exact or_congr_right <| and_iff_left hr

-- An active node that signs with this key.
structure Carries (node : RemoteNodeRow) (nodeId : Uuid) (secret : String) (version : Int) : Prop where
  remoteNodeId : node.remoteNodeId = nodeId
  status : node.status = .active
  sharedSecret : node.sharedSecret = secret
  keyVersion : node.keyVersion = version

-- The writes that open a trust.
structure OpeningWrites (node : RemoteNodeRow) (trust : TrustRow) (nw : RowWrite RemoteNodeRow Uuid)
    (tw : RowWrite TrustRow Uuid) : Prop where
  storesNode : nw = .insert node ∨ nw = .update node
  storesTrust : tw = .insert trust ∨ tw = .update trust
  active : trust.status = .active

-- They follow the redemption of a code.
theorem pairs_of_replay (log : List Write) {node : RemoteNodeRow} {trust : TrustRow}
    {nw : RowWrite RemoteNodeRow Uuid} {tw : RowWrite TrustRow Uuid}
    (hw : OpeningWrites node trust nw tw)
    (h : Prepared ks d (log ++ [.remoteNodes nw, .laboratoryTrusts tw]))
    (hl : ∀ w ∈ log, RedeemsOnly w)
    (hv : replay (log ++ [.remoteNodes nw, .laboratoryTrusts tw]) d = .ok d') :
    ∃ d₁, replay log d = .ok d₁ ∧ Pairs d₁ d' none node trust := by
  obtain ⟨d₁, hd, hv⟩ := replay_append.mp hv
  obtain ⟨d₂, ha, hv⟩ := replay_cons.mp hv
  obtain ⟨d₃, ha', hv⟩ := replay_cons.mp hv
  obtain rfl := Except.ok.inj hv
  have hnode : StoresNode d₁ d₂ node := by
    refine storesNode_of_apply (hw.storesNode.imp_right fun he => ⟨he, ?_⟩) ha
    have hg := (h (.remoteNodes nw) (by simp)).resolve_left (fun hf => hf)
    rw [he] at hg
    obtain ⟨r, hm, hr⟩ : HasNode d node.remoteNodeId := hg
    exact ⟨r, remoteNodes_of_replay hl hd ▸ hm, hr⟩
  have htrust : StoresTrust d₂ d₃ trust := by
    refine storesTrust_of_apply (hw.storesTrust.imp_right fun he => ⟨he, ?_⟩) ha'
    have hg := (h (.laboratoryTrusts tw) (by simp)).resolve_left (fun hf => hf)
    rw [he] at hg
    obtain ⟨t, hg, hk, hp⟩ := hg
    have hprep : ∀ w ∈ log, PreparesTrust w := by
      intro w hw
      cases w
      case pairingCodes => trivial
      all_goals exact (hl _ hw).elim
    have heq : d₁.laboratoryTrusts = d.laboratoryTrusts := laboratoryTrusts_of_replay hprep hd
    have heq' : d₂.laboratoryTrusts = d₁.laboratoryTrusts := by rw [hnode.frame]
    exact ⟨t, heq' ▸ heq ▸ hg.left, hk, hp⟩
  exact ⟨d₁, hd, .of_stores hnode htrust⟩

end Stores

section Changes

variable {pair : Uuid × Uuid × Uuid} {node : RemoteNodeRow} {trust : TrustRow}
  {nodeId : Uuid} {secret : String} {version : Int}

-- What requests are checked against.
def Trusted (d : Database) (pair : Uuid × Uuid × Uuid) : Prop :=
  (fetchActiveTrust pair.1 pair.2.1 pair.2.2 d).isSome

def Keyed (d : Database) (nodeId : Uuid) (secret : String) (version : Int) : Prop :=
  ∃ r, d.remoteNodes.find? nodeId = some r ∧ Carries r nodeId secret version

theorem trusted_iff : Trusted d pair ↔ ∃ r ∈ d.laboratoryTrusts, r.pair = pair ∧ r.status = .active :=
  fetchActiveTrust_isSome

theorem trusted_congr (h : d'.laboratoryTrusts = d.laboratoryTrusts) :
    Trusted d' pair ↔ Trusted d pair := by
  simp only [trusted_iff, h]

theorem keyed_congr (h : d'.remoteNodes = d.remoteNodes) :
    Keyed d' nodeId secret version ↔ Keyed d nodeId secret version := by
  simp only [Keyed, h]

theorem trusted_of_pairs (h : Pairs d d' none node trust) (ha : trust.status = .active) :
    Trusted d' pair ↔ pair = trust.pair ∨ Trusted d pair := by
  simp only [trusted_iff, h.trusts]
  constructor
  case mp =>
    rintro ⟨r, ⟨hm, -⟩ | rfl, hp, hr⟩
    case inl => exact .inr ⟨r, hm, hp, hr⟩
    case inr => exact .inl hp.symm
  case mpr =>
    rintro (rfl | ⟨r, hm, hp, hr⟩)
    case inl => exact ⟨trust, .inr rfl, rfl, ha⟩
    case inr =>
      by_cases he : r.pair = trust.pair
      case pos => exact ⟨trust, .inr rfl, he ▸ hp, ha⟩
      case neg => exact ⟨r, .inl ⟨hm, he⟩, hp, hr⟩

theorem keyed_of_pairs {nodeId' : Uuid} {secret' : String} {version' : Int}
    (h : Pairs d d' none node trust) (hc : Carries node nodeId' secret' version') :
    Keyed d' nodeId secret version ↔
      (nodeId = nodeId' ∧ secret = secret' ∧ version = version') ∨
      Keyed d nodeId secret version ∧ nodeId ≠ nodeId' := by
  obtain ⟨rfl, ha, rfl, rfl⟩ := hc
  simp only [Keyed, h.nodes]
  by_cases he : node.remoteNodeId = nodeId
  case pos =>
    subst he
    constructor
    case mp =>
      rintro ⟨_, hr, -, -, rfl, rfl⟩
      obtain rfl : node = _ := by simpa using hr
      exact .inl ⟨rfl, rfl, rfl⟩
    case mpr =>
      rintro (⟨-, rfl, rfl⟩ | ⟨-, hn⟩)
      case inl => exact ⟨node, by simp, rfl, ha, rfl, rfl⟩
      case inr => exact absurd rfl hn
  case neg => simp [he, Ne.symm he]

theorem usable_unique {row row' : PairingCodeRow} {hash : String} {now now' : Timestamp}
    (hm : row ∈ d.pairingCodes) (hm' : row' ∈ d.pairingCodes) (hu : IsUsable hash now row)
    (hu' : IsUsable hash now' row') : row = row' := by
  simp only [IsUsable, Bool.and_eq_true, decide_eq_true_eq] at hu hu'
  exact eq_of_codeHash_eq hm hm' (hu.left.left.trans hu'.left.left.symm)

theorem consumedAt_of_usable {row : PairingCodeRow} {hash : String} {now : Timestamp}
    (h : IsUsable hash now row) : row.consumedAt = none := by
  simp only [IsUsable, Bool.and_eq_true, Option.isNone_iff_eq_none] at h
  exact h.left.right

theorem eq_of_consumed {row row' : PairingCodeRow} {now now' : Timestamp} (hr : row.consumedAt = none)
    (hr' : row'.consumedAt = none)
    (h : { row with consumedAt := some now } = { row' with consumedAt := some now' }) :
    row = row' := by
  cases row
  cases row'
  simp_all

end Changes

section Outcomes

variable {α : Type} {ds : List Database} {now : Timestamp} {y : α × List Write}

theorem outcome_consumePairingCode {codeHash : String}
    {f : Option PairingCodeRow → Transaction α} (hf : ∀ ds, (f none).outcome ds = none)
    (h : (consumePairingCode codeHash now >>= f).outcome ds = some y) :
    ∃ code ds' log, IsUsable codeHash now code ∧ ds' ⊆ ds ∧
      (f (some { code with consumedAt := some now })).outcome ds' = some (y.1, log) ∧
      y.2 = .pairingCodes (.update { code with consumedAt := some now }) :: log := by
  simp only [consumePairingCode, bind_assoc, outcome_read_bind] at h
  obtain ⟨v, ds, rfl, h⟩ := h
  cases hv : v.pairingCodes.rows.find? (IsUsable codeHash now)
  case none => simp [hv, hf] at h
  case some code₀ =>
    simp only [hv, lockRow, lock_bind, done_bind, outcome_lock, bind_assoc, outcome_read_bind] at h
    obtain ⟨v', ds, rfl, h⟩ := h
    cases hv : (v'.pairingCodes.find? code₀.pairingCodeId).filter (IsUsable codeHash now)
    case none => simp [hv, hf] at h
    case some code =>
      simp only [hv, exec, write_bind, done_bind, pure_bind, outcome_write] at h
      obtain ⟨log, h, he⟩ := h
      have hs : ds ⊆ v :: v' :: ds := fun d hd => .tail _ <| .tail _ hd
      exact ⟨code, ds, log, (Option.filter_eq_some_iff.mp hv).right, hs, h, he.symm⟩

theorem outcome_upsertRemoteNode {remoteNodeId : Uuid} {baseUrl secret hash : String}
    {name pin : Option String} {version : Int} {f : RemoteNodeRow → Transaction α}
    (h : (upsertRemoteNode remoteNodeId baseUrl name secret hash pin version now >>= f).outcome ds =
      some y) :
    let row : RemoteNodeRow :=
      ⟨remoteNodeId, baseUrl, name, secret, hash, pin, .active, version, some now⟩
    ∃ w ds' log, (w = .insert row ∨ w = .update row) ∧
      (f row).outcome ds' = some (y.1, log) ∧ y.2 = .remoteNodes w :: log := by
  simp only [upsertRemoteNode, bind_assoc, lockRow, lock_bind, done_bind, outcome_lock,
    outcome_read_bind] at h
  obtain ⟨v, ds, rfl, h⟩ := h
  cases hv : v.remoteNodes.find? remoteNodeId
  case none =>
    simp only [hv, exec, write_bind, done_bind, outcome_write] at h
    obtain ⟨log, h, he⟩ := h
    exact ⟨_, ds, log, .inl rfl, h, he.symm⟩
  case some =>
    simp only [hv, exec, write_bind, done_bind, outcome_write] at h
    obtain ⟨log, h, he⟩ := h
    exact ⟨_, ds, log, .inr rfl, h, he.symm⟩

theorem outcome_upsertTrust {newTrustId l n r : Uuid} {name : Option String}
    {y : TrustRow × List Write} (h : (upsertTrust newTrustId l n r name).outcome ds = some y) :
    ∃ w row, (w = .insert row ∨ w = .update row) ∧ row.pair = (l, n, r) ∧
      row.status = .active ∧ y.2 = [.laboratoryTrusts w] := by
  simp only [upsertTrust, lockRow, lock_bind, done_bind, outcome_lock, outcome_read_bind] at h
  obtain ⟨v, ds, rfl, h⟩ := h
  cases hv : findTrust (l, n, r) v
  case none =>
    simp only [hv, exec, write_bind, done_bind, pure_def, outcome_write, outcome_done] at h
    obtain ⟨log, ⟨-, -, rfl⟩, he⟩ := h
    exact ⟨_, _, .inl rfl, rfl, rfl, he.symm⟩
  case some trust =>
    simp only [hv, exec, write_bind, done_bind, pure_def, outcome_write, outcome_done] at h
    obtain ⟨log, ⟨-, -, rfl⟩, he⟩ := h
    let row := { trust with remoteLaboratoryName := name, status := .active, revokedAt := none }
    exact ⟨_, row, .inr rfl, (findTrust_eq_some.mp hv).right, rfl, he.symm⟩

variable [Cryptography] [Addresses] {settings : FederationSettings} {newTrustId : Uuid}

theorem outcome_acceptPairing {payload : AcceptPairingJsonData}
    {y : AcceptPairingResponse × List Write}
    (h : (acceptPairing settings payload newTrustId).outcome ds = some y) :
    ∃ v ∈ ds, ∃ code node nw tw trust,
      IsUsable (sha256Hex (asBytes payload.pairingCode)) v.now code ∧
      Carries node payload.requesterNodeId payload.sharedSecret 1 ∧ OpeningWrites node trust nw tw ∧
      trust.pair =
        (code.localLaboratoryId, payload.requesterNodeId, payload.requesterLaboratoryId) ∧
      y.2 = [.pairingCodes (.update { code with consumedAt := some v.now }), .remoteNodes nw,
        .laboratoryTrusts tw] := by
  simp only [acceptPairing, requireFederation, fetchLocalNodeId, Transaction.validated,
    outcome_require_bind, outcome_ofExcept_bind, outcome_fetch_bind, outcome_read_bind] at h
  obtain ⟨-, baseUrl, -, -, _, ds', _, rfl, -, v, ds, rfl, h⟩ := h
  obtain ⟨code, ds', log, hu, -, h, hy⟩ := outcome_consumePairingCode (fun _ => rfl) h
  simp only [outcome_fetch_bind] at h
  obtain ⟨_, ds', _, rfl, -, h⟩ := h
  obtain ⟨nw, ds', log', hn, h, rfl⟩ := outcome_upsertRemoteNode h
  obtain ⟨_, _, _, log, _, rfl, htrust, hdone, rfl⟩ := outcome_bind.mp h
  obtain ⟨tw, trust, ht, hp, ha, hlog⟩ := outcome_upsertTrust htrust
  obtain rfl : log = _ := hlog
  obtain ⟨-, -, rfl⟩ := outcome_done.mp hdone
  exact ⟨v, by simp, code, _, nw, tw, trust, hu, ⟨rfl, rfl, rfl, rfl⟩, ⟨hn, ht, ha⟩, hp, hy⟩

theorem outcome_createTrust {ctx : LaboratoryContext} {payload : CreateTrustJsonData}
    {requestBaseUrl sharedSecret : String} {response : PairingResponse}
    {y : TrustRow × List Write} (h : (createTrust settings ctx payload requestBaseUrl sharedSecret
      response newTrustId).outcome ds = some y) :
    (∃ v ∈ ds, validatePermission v ctx.authorizationActor .federation (.create ctx.laboratoryId)) ∧
    ∃ accepted node nw tw trust, response.result = .ok accepted ∧
      accepted.laboratoryId = payload.remoteLaboratoryId ∧
      Carries node accepted.nodeId sharedSecret accepted.keyVersion ∧ OpeningWrites node trust nw tw ∧
      trust.pair = (ctx.laboratoryId, accepted.nodeId, payload.remoteLaboratoryId) ∧
      y.2 = [.remoteNodes nw, .laboratoryTrusts tw] := by
  simp only [createTrust, requestTrust, requireFederation, requirePermission, fetchLocalNodeId,
    Transaction.validated, bind_assoc, pure_bind, outcome_require_bind, outcome_ofExcept_bind,
    outcome_fetch_bind, outcome_read_bind, storeTrust] at h
  obtain ⟨-, v, ds, rfl, hp, _, -, baseUrl, -, _, ds', _, rfl, -, _, ds, _, rfl, -, h⟩ := h
  obtain ⟨accepted, ha, h⟩ := h
  obtain ⟨now, ds', rfl, h⟩ := h
  obtain ⟨nw, ds', log, hn, h, hy⟩ := outcome_upsertRemoteNode h
  obtain ⟨tw, trust, ht, hpair, hactive, hlog⟩ := outcome_upsertTrust h
  obtain rfl : log = _ := hlog
  simp only [checkPairingResponse, Except.bind_eq_ok, Except.mapError_eq_ok, Except.check_eq_ok,
    Except.pure_eq_ok] at ha
  obtain ⟨_, -, _, ha, _, hl, rfl⟩ := ha
  have hw : OpeningWrites _ trust nw tw := ⟨hn, ht, hactive⟩
  exact ⟨⟨v, .head _, hp⟩, _, _, nw, tw, trust, ha, hl, ⟨rfl, rfl, rfl, rfl⟩, hw, hpair, hy⟩

end Outcomes

section Commits

variable [Cryptography] [Addresses]

abbrev Commit := Committed Call Database

-- The permission has been looked up while the request was handled.
def Permitted (c : Commit) (ctx : LaboratoryContext) (action : Action) : Prop :=
  ∃ v ∈ c.reads, validatePermission v ctx.authorizationActor .federation action

-- The code that a request creates.
def Issues (c : Commit) (row : PairingCodeRow) : Prop :=
  match c.call with
  | .createPairingCode _ ctx code newId => row ∈ c.after.pairingCodes ∧
    Permitted c ctx (.create ctx.laboratoryId) ∧ row.pairingCodeId = newId ∧
    row.localLaboratoryId = ctx.laboratoryId ∧ row.codeHash = sha256Hex (asBytes code) ∧
    row.consumedAt = none ∧ ∃ v ∈ c.reads, row.expiresAt = v.now + pairingCodeLifetime
  | _ => False

-- The code that a request uses up. It has been presented while it was valid.
def Redeems (c : Commit) (row : PairingCodeRow) : Prop :=
  match c.call with
  | .acceptPairing _ payload _ => row ∈ c.before.pairingCodes ∧
    ∃ v ∈ c.reads, IsUsable (sha256Hex (asBytes payload.pairingCode)) v.now row
  | _ => False

-- The laboratories between which a request opens a trust.
def Opens (c : Commit) (pair : Uuid × Uuid × Uuid) : Prop :=
  match c.call with
  | .acceptPairing _ payload _ => ∃ row, Redeems c row ∧
    pair = (row.localLaboratoryId, payload.requesterNodeId, payload.requesterLaboratoryId)
  | .createTrust _ ctx payload _ _ response _ => Permitted c ctx (.create ctx.laboratoryId) ∧
    ∃ accepted, response.result = .ok accepted ∧ accepted.laboratoryId = payload.remoteLaboratoryId ∧
      pair = (ctx.laboratoryId, accepted.nodeId, payload.remoteLaboratoryId)
  | _ => False

def Revokes (c : Commit) (pair : Uuid × Uuid × Uuid) : Prop :=
  match c.call with
  | .revokeTrust _ ctx trustId => Permitted c ctx (.delete ctx.laboratoryId) ∧
    pair.1 = ctx.laboratoryId ∧ HasTrust c.before trustId pair
  | _ => False

-- The secret that a request stores for a node.
def Keys (c : Commit) (nodeId : Uuid) (secret : String) (version : Int) : Prop :=
  match c.call with
  | .acceptPairing _ payload _ =>
    nodeId = payload.requesterNodeId ∧ secret = payload.sharedSecret ∧ version = 1
  | .createTrust _ _ _ _ sharedSecret response _ => ∃ accepted, response.result = .ok accepted ∧
    nodeId = accepted.nodeId ∧ secret = sharedSecret ∧ version = accepted.keyVersion
  | _ => False

-- What a commit changes.
structure Legible (c : Commit) : Prop where
  trusted : ∀ pair, Trusted c.after pair ↔ Opens c pair ∨ Trusted c.before pair ∧ ¬Revokes c pair
  keyed : ∀ nodeId secret version, Keyed c.after nodeId secret version ↔
    Keys c nodeId secret version ∨
    Keyed c.before nodeId secret version ∧ ¬∃ secret version, Keys c nodeId secret version
  codes : ∀ row : PairingCodeRow, row.consumedAt = none → (row ∈ c.after.pairingCodes ↔
    Issues c row ∨ row ∈ c.before.pairingCodes ∧ ¬Redeems c row)
  consumed : ∀ row ∈ c.before.pairingCodes, row.consumedAt ≠ none → row ∈ c.after.pairingCodes
  redeemed : ∀ row, Redeems c row → ∃ row' ∈ c.after.pairingCodes,
    row'.pairingCodeId = row.pairingCodeId ∧ row'.consumedAt ≠ none

section Legible

variable {begun : Nat} {ds : List Database} {settings : FederationSettings} {ctx : LaboratoryContext}
  {a : Unit} {newTrustId : Uuid}

omit [Cryptography] [Addresses] in
-- A code that is used up is not there any more, and the others stay.
theorem mem_of_storesCode {row row' : PairingCodeRow} {now : Timestamp} (hm : row ∈ d.pairingCodes)
    (h : StoresCode d d' { row with consumedAt := some now }) (hn : row'.consumedAt = none) :
    row' ∈ d'.pairingCodes ↔ row' ∈ d.pairingCodes ∧ row' ≠ row := by
  rw [h.mem_iff]
  constructor
  case mp =>
    rintro (⟨hm', hk⟩ | rfl)
    case inl => exact ⟨hm', fun he => hk (he ▸ rfl)⟩
    case inr => cases hn
  case mpr =>
    intro h
    exact .inl ⟨h.left, fun hk => h.right (Table.eq_of_key_eq h.left hm hk)⟩

omit [Addresses] in
theorem mem_of_redeems {c : Commit} {row : PairingCodeRow} (h : Redeems c row) :
    row ∈ c.before.pairingCodes ∧ row.consumedAt = none := by
  unfold Redeems at h
  split at h
  case h_1 =>
    obtain ⟨hm, _, -, hu⟩ := h
    exact ⟨hm, consumedAt_of_usable hu⟩
  case h_2 => exact h.elim

omit [Addresses] in
theorem trusted_of_same {c : Commit} {pair : Uuid × Uuid × Uuid}
    (h : c.after.laboratoryTrusts = c.before.laboratoryTrusts) (ho : ¬Opens c pair)
    (hr : ¬Revokes c pair) :
    Trusted c.after pair ↔ Opens c pair ∨ Trusted c.before pair ∧ ¬Revokes c pair := by
  simp [trusted_congr h, ho, hr]

omit [Cryptography] [Addresses] in
theorem keyed_of_same {c : Commit} {nodeId : Uuid} {secret : String} {version : Int}
    (h : c.after.remoteNodes = c.before.remoteNodes)
    (hk : ∀ {secret version}, ¬Keys c nodeId secret version) :
    Keyed c.after nodeId secret version ↔ Keys c nodeId secret version ∨
      Keyed c.before nodeId secret version ∧ ¬∃ secret version, Keys c nodeId secret version := by
  simp [keyed_congr h, hk]

-- The code that is written is still the one of the state before.
theorem committed_acceptPairing {payload : AcceptPairingJsonData} {response : AcceptPairingResponse}
    (hk : Prepared ks d log) (ho : (acceptPairing settings payload newTrustId).outcome ds =
      some (response, log)) :
    ∃ v ∈ ds, ∃ code ∈ d.pairingCodes, ∃ node nw tw trust,
      IsUsable (sha256Hex (asBytes payload.pairingCode)) v.now code ∧
      Carries node payload.requesterNodeId payload.sharedSecret 1 ∧ OpeningWrites node trust nw tw ∧
      trust.pair =
        (code.localLaboratoryId, payload.requesterNodeId, payload.requesterLaboratoryId) ∧
      log = [.pairingCodes (.update { code with consumedAt := some v.now }), .remoteNodes nw,
        .laboratoryTrusts tw] := by
  obtain ⟨v, hv, code, node, nw, tw, trust, hu, hn, hw, hp, rfl⟩ := outcome_acceptPairing ho
  obtain ⟨code', now, he, hm, hnone, -⟩ := (hk _ (.head _)).resolve_left fun h => h
  obtain rfl := eq_of_consumed (consumedAt_of_usable hu) hnone he
  exact ⟨v, hv, code, hm, node, nw, tw, trust, hu, hn, hw, hp, rfl⟩

theorem exists_redeems {payload : AcceptPairingJsonData} {response : AcceptPairingResponse}
    (hk : Prepared ks d log) (ho : (acceptPairing settings payload newTrustId).outcome ds =
      some (response, log)) :
    ∃ row, Redeems ⟨.acceptPairing settings payload newTrustId, begun, ds, d, d'⟩ row := by
  obtain ⟨v, hv, code, hm, -, -, -, -, hu, -⟩ := committed_acceptPairing hk ho
  exact ⟨code, hm, v, hv, hu⟩

theorem legible_acceptPairing {payload : AcceptPairingJsonData} {response : AcceptPairingResponse}
    (hk : Prepared ks d log) (ho : (acceptPairing settings payload newTrustId).outcome ds =
      some (response, log)) (hv : replay log d = .ok d') :
    Legible ⟨.acceptPairing settings payload newTrustId, begun, ds, d, d'⟩ := by
  obtain ⟨v, hvds, code, hm, node, nw, tw, trust, hu, hn, hw, hp, rfl⟩ :=
    committed_acceptPairing hk ho
  obtain ⟨d₁, hd, hpairs⟩ :=
    pairs_of_replay [_] hw hk (List.forall_mem_singleton.mpr trivial) hv
  obtain ⟨d₂, ha, hd⟩ := replay_cons.mp hd
  obtain rfl := Except.ok.inj hd
  have hcode : StoresCode d d₂ { code with consumedAt := some v.now } :=
    storesCode_of_apply (.inr ⟨rfl, code, hm, rfl⟩) ha
  let c : Commit := ⟨.acceptPairing settings payload newTrustId, begun, ds, d, d'⟩
  have hr : Redeems c code := ⟨hm, v, hvds, hu⟩
  have hr' : ∀ row, Redeems c row → row = code := by
    rintro row ⟨hm', v', -, hu'⟩
    exact usable_unique hm' hm hu' hu
  have hnodes : d₂.remoteNodes = d.remoteNodes := by rw [hcode.frame]
  have htrusts : d₂.laboratoryTrusts = d.laboratoryTrusts := by rw [hcode.frame]
  have hcodes : ∀ row, row ∈ d'.pairingCodes ↔ row ∈ d₂.pairingCodes := by simp [hpairs.codes]
  constructor
  case trusted =>
    intro pair
    rw [trusted_of_pairs hpairs hw.active, trusted_congr htrusts, hp]
    constructor
    case mp => exact fun h => h.imp (fun h => ⟨code, hr, h⟩) fun h => ⟨h, fun h => h⟩
    case mpr =>
      rintro (⟨row, hrow, h⟩ | ⟨h, -⟩)
      case inl => exact .inl <| hr' row hrow ▸ h
      case inr => exact .inr h
  case keyed =>
    intro nodeId secret version
    rw [keyed_of_pairs hpairs hn, keyed_congr hnodes]
    refine or_congr_right <| and_congr_right fun _ => not_congr ?_
    constructor
    case mp => exact fun h => ⟨_, _, h, rfl, rfl⟩
    case mpr =>
      rintro ⟨_, _, h, -⟩
      exact h
  case codes =>
    intro row hc
    rw [hcodes, mem_of_storesCode hm hcode hc]
    constructor
    case mp => exact fun h => .inr ⟨h.left, fun hrow => h.right (hr' row hrow)⟩
    case mpr =>
      rintro (h | ⟨h, hne⟩)
      case inl => exact h.elim
      case inr => exact ⟨h, fun he => hne (he ▸ hr)⟩
  case consumed =>
    intro row hrow hne
    refine (hcodes row).mpr <| (hcode.mem_iff row).mpr <| .inl ⟨hrow, fun he => hne ?_⟩
    exact Table.eq_of_key_eq hrow hm he ▸ consumedAt_of_usable hu
  case redeemed =>
    intro row hrow
    refine ⟨{ code with consumedAt := some v.now }, ?_, hr' row hrow ▸ rfl, Option.some_ne_none _⟩
    exact (hcodes _).mpr <| (hcode.mem_iff _).mpr <| .inr rfl

theorem legible_createTrust {payload : CreateTrustJsonData} {requestBaseUrl sharedSecret : String}
    {response : PairingResponse} {row : TrustRow} (hk : Prepared ks d log)
    (ho : (createTrust settings ctx payload requestBaseUrl sharedSecret response newTrustId).outcome
      ds = some (row, log)) (hv : replay log d = .ok d') :
    Legible ⟨.createTrust settings ctx payload requestBaseUrl sharedSecret response newTrustId, begun, ds, d,
      d'⟩ := by
  obtain ⟨hperm, accepted, node, nw, tw, trust, ha, hl, hn, hw, hp, rfl⟩ := outcome_createTrust ho
  obtain ⟨d₁, hd, hpairs⟩ :=
    pairs_of_replay [] hw hk (fun _ h => absurd h List.not_mem_nil) hv
  obtain rfl := Except.ok.inj hd
  have hcodes : ∀ row, row ∈ d'.pairingCodes ↔ row ∈ d.pairingCodes := by simp [hpairs.codes]
  have haccepted {accepted' : AcceptPairingResponse} (h : response.result = .ok accepted') :
      accepted' = accepted := Except.ok.inj <| h.symm.trans ha
  constructor
  case trusted =>
    intro pair
    rw [trusted_of_pairs hpairs hw.active, hp]
    constructor
    case mp => exact fun h => h.imp (fun h => ⟨hperm, accepted, ha, hl, h⟩) fun h => ⟨h, fun h => h⟩
    case mpr =>
      rintro (⟨-, accepted', h, -, rfl⟩ | ⟨h, -⟩)
      case inl => exact .inl <| haccepted h ▸ rfl
      case inr => exact .inr h
  case keyed =>
    intro nodeId secret version
    rw [keyed_of_pairs hpairs hn]
    refine or_congr ⟨fun h => ⟨accepted, ha, h⟩, ?_⟩ <| and_congr_right fun _ => not_congr ⟨?_, ?_⟩
    case refine_1 =>
      rintro ⟨accepted', h, hkey⟩
      exact haccepted h ▸ hkey
    case refine_2 => exact fun h => ⟨_, _, accepted, ha, h, rfl, rfl⟩
    case refine_3 =>
      rintro ⟨_, _, accepted', h, hkey, -⟩
      exact haccepted h ▸ hkey
  case codes =>
    intro row hc
    rw [hcodes]
    exact ⟨fun h => .inr ⟨h, fun h => h⟩, fun h => h.elim False.elim And.left⟩
  case consumed => exact fun row hrow _ => (hcodes row).mpr hrow
  case redeemed => exact fun _ h => h.elim

omit [Addresses] in
theorem legible_createPairingCode {code : String} {newId : Uuid} {response : PairingCodeResponse}
    (ho : (createPairingCode settings ctx code newId).outcome ds = some (response, log))
    (hv : replay log d = .ok d') :
    Legible ⟨.createPairingCode settings ctx code newId, begun, ds, d, d'⟩ := by
  simp only [createPairingCode, requireFederation, requirePermission, fetchLocalNodeId,
    insertPairingCode, bind_assoc, outcome_require_bind, outcome_fetch_bind,
    outcome_read_bind] at ho
  obtain ⟨-, v, ds, rfl, hp, _, ds', _, rfl, -, now, ds, rfl, v', ds', rfl, ho⟩ := ho
  simp only [exec, write_bind, done_bind, pure_def, outcome_write, outcome_done] at ho
  obtain ⟨log, ⟨-, rfl, rfl⟩, rfl⟩ := ho
  obtain ⟨d₁, ha, hv⟩ := replay_cons.mp hv
  obtain rfl := Except.ok.inj hv
  obtain ⟨-, ht, -, hf⟩ := (apply_pairingCodes (.inl rfl)).mp ha
  have hmem : ∀ row, row ∈ d₁.pairingCodes ↔ row ∈ d.pairingCodes ∨ row = _ :=
    fun _ => Table.mem_insert ht
  constructor
  case trusted => exact fun pair => trusted_of_same (by rw [hf]) (fun h => h) fun h => h
  case keyed => exact fun _ _ _ => keyed_of_same (by rw [hf]) fun h => h
  case codes =>
    intro row hc
    rw [hmem]
    constructor
    case mp =>
      rintro (h | rfl)
      case inl => exact .inr ⟨h, fun h => h⟩
      case inr =>
        refine .inl ⟨(hmem _).mpr (.inr rfl), ⟨v, by simp, hp⟩, rfl, rfl, rfl, rfl, now, by simp, rfl⟩
    case mpr =>
      rintro (h | ⟨h, -⟩)
      case inl => exact (hmem row).mp h.left
      case inr => exact .inl h
  case consumed => exact fun row hrow _ => (hmem row).mpr (.inl hrow)
  case redeemed => exact fun _ h => h.elim

omit [Addresses] in
theorem legible_revokeTrust {trustId : Uuid} (hk : Prepared ks d log)
    (ho : (revokeTrust settings ctx trustId).outcome ds = some (a, log))
    (hv : replay log d = .ok d') : Legible ⟨.revokeTrust settings ctx trustId, begun, ds, d, d'⟩ := by
  simp only [revokeTrust, requireFederation, requirePermission, revokeTrustInDatabase, bind_assoc,
    outcome_require_bind, outcome_read_bind] at ho
  obtain ⟨-, v, ds, rfl, hp, now, ds', rfl, v', ds, rfl, ho⟩ := ho
  cases hf : (v'.laboratoryTrusts.find? trustId).filter (·.localLaboratoryId = ctx.laboratoryId)
  case none => simp [hf] at ho
  case some trust₀ =>
    simp only [hf, lockRow, lock_bind, done_bind, outcome_lock, bind_assoc, outcome_read_bind] at ho
    obtain ⟨v'', ds', rfl, ho⟩ := ho
    cases hf : (v''.laboratoryTrusts.find? trustId).filter (·.localLaboratoryId = ctx.laboratoryId)
    case none => simp [hf] at ho
    case some trust =>
      simp only [hf, exec, write_bind, done_bind, pure_def, outcome_write, outcome_done] at ho
      obtain ⟨log, ⟨-, rfl, rfl⟩, rfl⟩ := ho
      obtain ⟨d₁, ha, hv⟩ := replay_cons.mp hv
      obtain rfl := Except.ok.inj hv
      obtain ⟨hfind, hlab⟩ := Option.filter_eq_some_iff.mp hf
      obtain ⟨-, hid⟩ := Table.find?_eq_some.mp hfind
      replace hlab : trust.localLaboratoryId = ctx.laboratoryId := by simpa using hlab
      replace hid : trust.trustId = trustId := hid
      obtain ⟨t, ht, htid, hpair⟩ := (hk _ (.head _)).resolve_left fun h => h
      replace htid : t.trustId = trust.trustId := htid
      replace hpair : t.pair = trust.pair := hpair
      have hs : StoresTrust d d₁ { trust with status := .revoked, revokedAt := some now.now } :=
        storesTrust_of_apply (.inr ⟨rfl, t, ht.left, htid, hpair⟩) ha
      have hcodes : d₁.pairingCodes = d.pairingCodes := by rw [hs.frame]
      constructor
      case trusted =>
        intro pair
        simp only [trusted_iff, hs.mem_iff]
        constructor
        case mp =>
          rintro ⟨r, ⟨hm, hne⟩ | rfl, hrp, hactive⟩
          case inr => cases hactive
          case inl =>
            refine .inr ⟨⟨r, hm, hrp, hactive⟩, fun h => hne ?_⟩
            obtain ⟨-, -, t', hm', hid', hp'⟩ := h
            obtain rfl := Table.eq_of_key_eq hm' ht.left <| hid'.trans (htid.trans hid).symm
            exact hrp.trans <| hp'.symm.trans hpair
        case mpr =>
          rintro (h | ⟨⟨r, hm, hrp, hactive⟩, hn⟩)
          case inl => exact h.elim
          case inr =>
            refine ⟨r, .inl ⟨hm, fun he => hn ⟨⟨v, .head _, hp⟩, ?_, t, ht.left, htid.trans hid, ?_⟩⟩,
              hrp, hactive⟩
            case refine_1 =>
              rw [← hrp, he]
              exact hlab
            case refine_2 => exact hpair.trans <| he.symm.trans hrp
      case keyed => exact fun _ _ _ => keyed_of_same (by rw [hs.frame]) fun h => h
      case codes =>
        intro row _
        rw [hcodes]
        exact ⟨fun h => .inr ⟨h, fun h => h⟩, fun h => h.elim False.elim And.left⟩
      case consumed => exact fun row hrow _ => hcodes ▸ hrow
      case redeemed => exact fun _ h => h.elim

omit [Addresses] in
theorem legible_of_sameTrusts {c : Commit} (hs : SameTrusts c.before c.after)
    (hc : (∃ settings request l, c.call = .verify settings request l) ∨ ∃ p hp, c.call = .other p hp) :
    Legible c := by
  have hi {row} : ¬Issues c row := by
    obtain ⟨_, _, _, h⟩ | ⟨_, _, h⟩ := hc <;> simp [Issues, h]
  have hr {row} : ¬Redeems c row := by
    obtain ⟨_, _, _, h⟩ | ⟨_, _, h⟩ := hc <;> simp [Redeems, h]
  have ho {pair} : ¬Opens c pair := by
    obtain ⟨_, _, _, h⟩ | ⟨_, _, h⟩ := hc <;> simp [Opens, h]
  have hv {pair} : ¬Revokes c pair := by
    obtain ⟨_, _, _, h⟩ | ⟨_, _, h⟩ := hc <;> simp [Revokes, h]
  have hk {n s k} : ¬Keys c n s k := by
    obtain ⟨_, _, _, h⟩ | ⟨_, _, h⟩ := hc <;> simp [Keys, h]
  constructor
  case trusted => exact fun pair => trusted_of_same hs.laboratoryTrusts ho hv
  case keyed => exact fun _ _ _ => keyed_of_same hs.remoteNodes hk
  case codes => exact fun row _ => by simp [hs.pairingCodes, hi, hr]
  case consumed => exact fun row hrow _ => hs.pairingCodes ▸ hrow
  case redeemed => exact fun _ h => (hr h).elim

end Legible

section Runs

variable [UuidFormat]

-- A commit that has done what its request computes from what it has read.
structure Faithful (c : Commit) : Prop where
  legible : Legible c
  accepts : ∀ settings payload newTrustId, c.call = .acceptPairing settings payload newTrustId →
    ∃ row, Redeems c row
  outcome : ∃ x, c.call.handle.outcome c.reads = some x

theorem faithful_of_outcome {call : Call} {begun : Nat} {ds : List Database} {a : Unit} (hk : Prepared ks d log)
    (ho : call.handle.outcome ds = some (a, log)) (hv : replay log d = .ok d') :
    Faithful ⟨call, begun, ds, d, d'⟩ := by
  refine ⟨?_, ?_, _, ho⟩
  case refine_1 =>
    cases call
    case createPairingCode =>
      obtain ⟨_, ho⟩ := outcome_discard ho
      exact legible_createPairingCode ho hv
    case acceptPairing =>
      obtain ⟨_, ho⟩ := outcome_discard ho
      exact legible_acceptPairing hk ho hv
    case createTrust =>
      obtain ⟨_, ho⟩ := outcome_discard ho
      exact legible_createTrust hk ho hv
    case revokeTrust => exact legible_revokeTrust hk ho hv
    case verify settings request l =>
      obtain rfl : log = [] := readOnly_verify.outcome ho
      obtain rfl := Except.ok.inj hv
      exact legible_of_sameTrusts ⟨rfl, rfl, rfl⟩ (.inl ⟨settings, request, l, rfl⟩)
    case other p hp =>
      exact legible_of_sameTrusts (sameTrusts_of_replay (hp.outcome ho) hv) (.inr ⟨p, hp, rfl⟩)
  case refine_2 =>
    rintro settings payload newTrustId rfl
    obtain ⟨_, ho⟩ := outcome_discard ho
    exact exists_redeems hk ho

-- A code that has been redeemed is still there, as a consumed one.
def Spent (c : Commit) (d : Database) : Prop :=
  ∀ row, Redeems c row → ∃ row' ∈ d.pairingCodes, row'.pairingCodeId = row.pairingCodeId ∧
    row'.consumedAt ≠ none

variable {ι : Type} [DecidableEq ι] {w : Watch ι Call Database RowId Write Constraint ApiError Unit}
  {P : Watch ι Call Database RowId Write Constraint ApiError Unit → Event ι Call → Prop}

theorem recorded_of_run (hr : Watch.Run Call.handle P (.init d) w) :
    Watch.Recorded Faithful Spent w := by
  refine hr.recorded (T := Prepared) (fun _ => stable_prepared) (fun w i call _ => told_handle call) ?_
    (fun c hc => hc.legible.redeemed) fun c c' hc' hp row hrow => ?_
  case refine_1 => exact fun call begun ds a log ks d d' hk ho hv => faithful_of_outcome hk ho hv
  case refine_2 =>
    obtain ⟨row', hm, hid, hne⟩ := hp row hrow
    exact ⟨row', hc'.legible.consumed row' hm hne, hid, hne⟩

theorem outcome_verify {settings : FederationSettings} {request : InboundRequest} {l : Uuid}
    {ds : List Database} {x : Unit × List Write}
    (h : (Call.verify settings request l).handle.outcome ds = some x) :
    ∃ h secret, parseFederationHeaders request.headers = .ok h ∧
      checkSignature secret request h = .ok () ∧
      (∃ v ∈ ds, Keyed v h.remoteNodeId secret h.keyVersion) ∧
      ∃ v ∈ ds, Trusted v (l, h.remoteNodeId, h.remoteLaboratoryId) := by
  simp only [Call.handle, checkTimestamp, authenticate, bind_assoc, pure_bind, outcome_require_bind,
    outcome_ofExcept_bind, outcome_read_bind, outcome_fetch_bind] at h
  obtain ⟨-, h, hparse, now, ds, rfl, -, v, ds', node, rfl, hf, ha, v', ds, rfl, ht, _, hs, -⟩ := h
  have hn := (Table.find?_eq_some.mp hf).right
  exact ⟨h, node.sharedSecret, hparse, hs, ⟨v, by simp, node, hf, hn, ha.left, rfl, ha.right⟩,
    v', by simp, ht⟩

-- The key of a node that a request has stored last.
def KeyedSince (d : Database) (cs : List Commit) (nodeId : Uuid) (secret : String) (version : Int) :
    Prop :=
  Watch.Since (Keys · nodeId secret version) (fun c => ∃ secret version, Keys c nodeId secret version)
    (Keyed d nodeId secret version) cs

-- A trust that a request has opened, and none has revoked afterwards.
def TrustedSince (d : Database) (cs : List Commit) (pair : Uuid × Uuid × Uuid) : Prop :=
  Watch.Since (Opens · pair) (Revokes · pair) (Trusted d pair) cs

-- A code that a request has created, and none has redeemed afterwards.
def UnusedSince (d : Database) (cs : List Commit) (row : PairingCodeRow) : Prop :=
  Watch.Since (Issues · row) (Redeems · row) (row ∈ d.pairingCodes) cs

-- While a request was verified, its key was the last one of its node, and its trust was open.
theorem inbound_requests_trusted (hr : Watch.Run Call.handle P (.init d) w)
    (later earlier : List Commit) {c : Commit} (hc : w.commits = later ++ c :: earlier)
    {settings : FederationSettings} {request : InboundRequest} {l : Uuid}
    (hcall : c.call = .verify settings request l) :
    ∃ h secret, parseFederationHeaders request.headers = .ok h ∧
      checkSignature secret request h = .ok () ∧
      c.Meanwhile earlier (KeyedSince d · h.remoteNodeId secret h.keyVersion) ∧
      c.Meanwhile earlier (TrustedSince d · (l, h.remoteNodeId, h.remoteLaboratoryId)) := by
  have hrec := recorded_of_run hr
  have hlegible : ∀ cs, cs <:+ earlier → ∀ c ∈ cs, Legible c := by
    intro cs hs c' hm
    refine (hrec.commits c' ?_).left.legible
    exact hc ▸ List.mem_append_right _ (.tail _ <| hs.subset hm)
  have hreads := hr.reading.commits later c earlier hc (hcall ▸ readOnly_verify)
  have hm : c ∈ w.commits := hc ▸ List.mem_append_right _ (.head _)
  obtain ⟨x, ho⟩ := (hrec.commits c hm).left.outcome
  rw [hcall] at ho
  obtain ⟨h, secret, hparse, hs, ⟨v, hv, hkey⟩, v', hv', htrust⟩ := outcome_verify ho
  refine ⟨h, secret, hparse, hs, ?_, ?_⟩
  case refine_1 =>
    obtain ⟨cs, hcs, hbegun, hchain⟩ := hreads v hv
    have hsince := hchain.since (I := (Keyed · h.remoteNodeId secret h.keyVersion)) fun c' hm =>
      (hlegible cs hcs c' hm).keyed _ _ _
    exact ⟨cs, hcs, hbegun, hsince.mp hkey⟩
  case refine_2 =>
    obtain ⟨cs, hcs, hbegun, hchain⟩ := hreads v' hv'
    have hsince := hchain.since (I := (Trusted · (l, h.remoteNodeId, h.remoteLaboratoryId)))
      fun c' hm => (hlegible cs hcs c' hm).trusted _
    exact ⟨cs, hcs, hbegun, hsince.mp htrust⟩

theorem pairing_codes_redeemed_once (hr : Watch.Run Call.handle P (.init d) w) :
    (∀ later c earlier, w.commits = later ++ c :: earlier → ∀ settings payload newTrustId,
      c.call = .acceptPairing settings payload newTrustId →
      ∃ row, Redeems c row ∧ UnusedSince d earlier row) ∧
    w.commits.Pairwise fun c' c => ∀ row' row, Redeems c' row' → Redeems c row →
      row'.pairingCodeId ≠ row.pairingCodeId := by
  have hrec := recorded_of_run hr
  constructor
  case left =>
    intro later c earlier hc settings payload newTrustId hcall
    have hm : c ∈ w.commits := hc ▸ List.mem_append_right _ (.head _)
    obtain ⟨row, hrow⟩ := (hrec.commits c hm).left.accepts settings payload newTrustId hcall
    obtain ⟨hmem, hnone⟩ := mem_of_redeems hrow
    have hchain : Watch.Chained d earlier c.before := (hc ▸ hr.reading.chained).split
    have hlegible : ∀ c' ∈ earlier, Legible c' := fun c' hm =>
      (hrec.commits c' <| hc ▸ List.mem_append_right _ (.tail _ hm)).left.legible
    refine ⟨row, hrow, (hchain.since (I := (row ∈ Database.pairingCodes ·)) fun c' hm => ?_).mp hmem⟩
    exact (hlegible c' hm).codes row hnone
  case right =>
    refine hrec.pairwise.imp fun hspent row' row hrow' hrow he => ?_
    obtain ⟨hmem, hnone⟩ := mem_of_redeems hrow'
    obtain ⟨row'', hm, hid, hne⟩ := hspent row hrow
    obtain rfl := Table.eq_of_key_eq hmem hm <| he.trans hid.symm
    exact hne hnone

end Runs

end Commits

section Examples

-- Laboratory 4 has not issued its code yet.
def unshared [Cryptography] : Database where
  __ := shared
  pairingCodes := ∅

def workshopAdmin : LaboratoryContext where
  actor := { userId := 8, userType := .labAdmin, laboratoryId := some 4 }
  laboratoryId := 4

def guestNode [Cryptography] : RemoteNodeRow :=
  intrusion.requester "https://partner.example" shared.now

-- A user of laboratory 6 looks at laboratory 4, with the secret by which the code has been redeemed.
def visit [UuidFormat] [Cryptography] : InboundRequest :=
  signedRequest .get assetsPath [] guestNode { visitor "alice" with localLaboratoryId := 6 } 1000 "nonce"

def issuing : Call :=
  .createPairingCode defaultSettings workshopAdmin "code" 8

theorem run_issuing [UuidFormat] [Cryptography] [Addresses] :
    issuing.handle.run unshared = .ok ((), shared) := by
  have hs : sha256Hex (asBytes "code") ≠ "" := sha256Hex_ne_empty
  have ha : unshared.apply (.pairingCodes (.insert
      ⟨8, 4, sha256Hex (asBytes "code"), 1900 * 1000000, none, 1000 * 1000000⟩)) = .ok shared :=
    (apply_pairingCodes (.inl rfl)).mpr ⟨by simp [PairingCodeRow.IsValid, hs], rfl, rfl, rfl⟩
  have hw : issuing.handle.wp (fun _ => True) (fun _ => False) (fun _ d' => d' = shared) unshared := by
    simp only [issuing, Call.handle, createPairingCode, requireFederation, fetchLocalNodeId,
      insertPairingCode, wp_bind, wp_require, wp_requirePermission, wp_fetch, wp_read, wp_exec, pure_def,
      wp_done]
    refine ⟨fun _ => ⟨fun _ => ⟨fun _ _ => ⟨fun d' h => ⟨trivial, ?_⟩, fun c h => ?_⟩, nofun⟩, fun h => h rfl⟩,
      fun h => h rfl⟩
    case refine_1 => exact Except.ok.inj (h.symm.trans ha)
    case refine_2 => cases h.symm.trans ha
  obtain ⟨_, _, hr, rfl⟩ := wp_total hw
  exact hr

theorem run_visit [UuidFormat] [Cryptography] [Addresses] {d' : Database} {trust : TrustRow}
    (hf : d'.requestNonces = ∅ ∧ d'.now = shared.now)
    (hn : d'.remoteNodes.find? 7 = some guestNode) (ht : trust ∈ d'.laboratoryTrusts)
    (ho : OpensTrust trust (4, 7, 6) (some "Guest")) :
    ∃ d'', (Call.verify defaultSettings visit 4).handle.run d' = .ok ((), d'') := by
  let _ := ScanOrder.stored
  have hk : (-2 ^ 31 : Int) ≤ 1 ∧ (1 : Int) < 2 ^ 31 := by decide
  have hfresh : isFresh 300 (epochSeconds (1000 * 1000000)) 1000 := by decide
  have hv : ∃ d'', (verifyInboundRequest defaultSettings visit 4).run d' =
      .ok (⟨guestNode, 6, 5, Text.trim "alice", "user"⟩, d'') ∧ Remembered d' d'' 7 "nonce" 300 :=
    run_signedRequest rfl ⟨visible_of_all (by decide), by decide, .inr rfl⟩ (visible_of_all (by decide))
      hk (by decide) (by rw [hf.right]; exact hfresh) hn rfl rfl rfl
      (fetchActiveTrust_isSome.mpr ⟨trust, ht, ho.pair, ho.status⟩)
      ⟨congrArg Option.isSome hn, by decide, fun _ hr => absurd (hf.left ▸ hr) Table.not_mem_empty⟩
  obtain ⟨_, hv, -⟩ := hv
  simp only [verifyInboundRequest_eq, run_bind, Except.bind_eq_ok, Prod.exists] at hv
  obtain ⟨h, d₁, hcheck, context, d₂, hauth, -⟩ := hv
  refine ⟨d₂, ?_⟩
  simp only [Call.handle, run_bind, Except.bind_eq_ok, Prod.exists]
  exact ⟨h, d₁, hcheck, context, d₂, hauth, rfl⟩

abbrev Traffic := Watch Unit Call Database RowId Write Constraint ApiError Unit

-- The code is issued and redeemed, and the trust that this opens is used.
theorem exists_requests [UuidFormat] [Cryptography] :
    let _ := exampleAddresses
    ∃ w : Traffic, Watch.Run Call.handle (fun _ _ => True) (.init unshared) w ∧
      ∃ c₁ c₂ c₃, w.commits = [c₃, c₂, c₁] ∧ c₁.call = issuing ∧
        c₂.call = .acceptPairing defaultSettings intrusion 11 ∧
        c₃.call = .verify defaultSettings visit 4 ∧ c₃.begun = 2 := by
  let _ := exampleAddresses
  have hall (w : Traffic) (e : Event Unit Call) : True := trivial
  obtain ⟨w₁, hr₁, hw₁, ds₁, hc₁⟩ := Watch.exists_alone (w := .init unshared) () rfl run_issuing hall
  obtain ⟨response, d₂, hrun, code, trust, ha⟩ := exists_acceptPairing acceptable_intrusion
  replace hrun : (Call.acceptPairing defaultSettings intrusion 11).handle.run shared = .ok ((), d₂) := by
    rw [Call.handle, run_bind, hrun]
    rfl
  obtain ⟨w₂, hr₂, hw₂, ds₂, hc₂⟩ := Watch.exists_alone () hw₁ hrun hall
  obtain ⟨baseUrl, hb, -, hp⟩ := ha.pairs
  obtain rfl := Except.ok.inj (normalizeBaseUrl_example.left.symm.trans hb)
  have ho : OpensTrust trust (4, 7, 6) (some "Guest") := by
    obtain rfl : code = _ := Table.mem_singleton.mp ha.mem
    exact ha.opens
  have hf : d₂.requestNonces = ∅ ∧ d₂.now = shared.now := by
    rw [hp.frame]
    exact ⟨rfl, rfl⟩
  obtain ⟨d₃, hrun⟩ :=
    run_visit hf ((hp.nodes 7).trans (if_pos rfl)) ((hp.trusts trust).mpr (.inr rfl)) ho
  obtain ⟨w₃, hr₃, -, ds₃, hc₃⟩ := Watch.exists_alone () hw₂ hrun hall
  rw [hc₂, hc₁] at hc₃
  exact ⟨w₃, (hr₁.trans hr₂).trans hr₃, _, _, _, hc₃, rfl, rfl, rfl, rfl⟩

theorem inbound_requests_trusted_visit :
    let _ := hyphenated
    let _ := Cryptography.standard
    let _ := exampleAddresses
    ∃ (w : Traffic) (c₁ c₂ c₃ : Commit), w.commits = [c₃, c₂, c₁] ∧
      c₂.call = .acceptPairing defaultSettings intrusion 11 ∧
      c₃.call = .verify defaultSettings visit 4 ∧ c₃.begun = 2 ∧
      ∃ h secret, parseFederationHeaders visit.headers = .ok h ∧
        checkSignature secret visit h = .ok () ∧
        c₃.Meanwhile [c₂, c₁] (KeyedSince unshared · h.remoteNodeId secret h.keyVersion) ∧
        c₃.Meanwhile [c₂, c₁] (TrustedSince unshared · (4, h.remoteNodeId, h.remoteLaboratoryId)) := by
  let _ := hyphenated
  let _ := Cryptography.standard
  let _ := exampleAddresses
  obtain ⟨w, hr, c₁, c₂, c₃, hc, -, h₂, h₃, hb⟩ := exists_requests
  exact ⟨w, c₁, c₂, c₃, hc, h₂, h₃, hb, inbound_requests_trusted hr [] [c₂, c₁] hc h₃⟩

theorem pairing_codes_redeemed_once_shared :
    let _ := hyphenated
    let _ := Cryptography.standard
    let _ := exampleAddresses
    ∃ (w : Traffic) (c₁ c₂ c₃ : Commit), w.commits = [c₃, c₂, c₁] ∧ c₁.call = issuing ∧
      (∃ row, Redeems c₂ row ∧ UnusedSince unshared [c₁] row) ∧
      w.commits.Pairwise fun c' c => ∀ row' row, Redeems c' row' → Redeems c row →
        row'.pairingCodeId ≠ row.pairingCodeId := by
  let _ := hyphenated
  let _ := Cryptography.standard
  let _ := exampleAddresses
  obtain ⟨w, hr, c₁, c₂, c₃, hc, h₁, h₂, -, -⟩ := exists_requests
  obtain ⟨hredeems, honce⟩ := pairing_codes_redeemed_once hr
  exact ⟨w, c₁, c₂, c₃, hc, h₁, hredeems [c₃] c₂ [c₁] hc _ _ _ h₂, honce⟩

end Examples

end History

end Federation

end LabInventory
