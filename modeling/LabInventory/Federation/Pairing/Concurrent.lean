import LabInventory.Federation.Pairing.Effects
import LabInventory.Federation.Replay
import LabInventory.Library.History

open Sql Program

namespace LabInventory

namespace Federation

namespace History

-- The writes that have nothing to do with who trusts whom.
def Apart : Write → Prop
  | .laboratories (.delete _) | .remoteNodes _ | .laboratoryTrusts _ | .pairingCodes _ => False
  | _ => True

def lockOf (pair : Uuid × Uuid × Uuid) : RowId :=
  .laboratoryTrust pair.1 pair.2.1 pair.2.2

-- A code that the transaction may redeem.
def Redeemable (ks : Set RowId) (d : Database) (code : PairingCodeRow) : Prop :=
  code ∈ d.pairingCodes ∧ code.consumedAt = none ∧ .pairingCode code.pairingCodeId ∈ ks

def HasNode (d : Database) (nodeId : Uuid) : Prop :=
  ∃ r ∈ d.remoteNodes, r.remoteNodeId = nodeId

def HasTrust (d : Database) (trustId : Uuid) (pair : Uuid × Uuid × Uuid) : Prop :=
  ∃ t ∈ d.laboratoryTrusts, t.trustId = trustId ∧ t.pair = pair

-- A trust that the transaction may change.
def Editable (ks : Set RowId) (d : Database) (trust : TrustRow) : Prop :=
  trust ∈ d.laboratoryTrusts ∧ lockOf trust.pair ∈ ks

-- What a transaction knows about its other writes.
def Grounded (ks : Set RowId) (d : Database) : Write → Prop
  | .pairingCodes (.insert code) => code.consumedAt = none
  | .pairingCodes (.update row) =>
    ∃ code now, row = { code with consumedAt := some now } ∧ Redeemable ks d code
  | .remoteNodes (.insert _) => True
  | .remoteNodes (.update row) => HasNode d row.remoteNodeId
  | .laboratoryTrusts (.insert _) => True
  | .laboratoryTrusts (.update row) =>
    ∃ trust, Editable ks d trust ∧ trust.trustId = row.trustId ∧ trust.pair = row.pair
  | _ => False

def Prepared (ks : Set RowId) (d : Database) (log : List Write) : Prop :=
  ∀ w ∈ log, Apart w ∨ Grounded ks d w

-- Nothing changes about who trusts whom.
structure SameTrusts (d d' : Database) : Prop where
  pairingCodes : d'.pairingCodes = d.pairingCodes
  remoteNodes : d'.remoteNodes = d.remoteNodes
  laboratoryTrusts : d'.laboratoryTrusts = d.laboratoryTrusts

variable {d d' v v' : Database} {ks ks' : Set RowId} {w : Write} {log : List Write}
  {code : PairingCodeRow} {trust : TrustRow} {nodeId trustId : Uuid} {pair : Uuid × Uuid × Uuid}

theorem Apart.apply (hw : Apart w) (ha : d.apply w = .ok d') : SameTrusts d d' := by
  have happ := Database.applied_of_apply ha
  cases w
  case remoteNodes | laboratoryTrusts | pairingCodes => exact hw.elim
  case tree kind _ =>
    cases kind <;>
    · rw [happ.right]
      exact ⟨rfl, rfl, rfl⟩
  all_goals
    rw [happ.right]
    exact ⟨rfl, rfl, rfl⟩

theorem SameTrusts.trans {d₁ d₂ d₃ : Database} (h : SameTrusts d₁ d₂) (h' : SameTrusts d₂ d₃) :
    SameTrusts d₁ d₃ where
  pairingCodes := h'.pairingCodes.trans h.pairingCodes
  remoteNodes := h'.remoteNodes.trans h.remoteNodes
  laboratoryTrusts := h'.laboratoryTrusts.trans h.laboratoryTrusts

theorem sameTrusts_of_replay (h : ∀ w ∈ log, Apart w) (hv : replay log d = .ok v) :
    SameTrusts d v := by
  induction log generalizing d
  case nil => exact Except.ok.inj hv ▸ ⟨rfl, rfl, rfl⟩
  case cons w log ih =>
    obtain ⟨d₁, h₁, hv⟩ := replay_cons.mp hv
    obtain ⟨hw, h⟩ := List.forall_mem_cons.mp h
    exact (hw.apply h₁).trans <| ih h hv

section Interference

-- A handshake redeems a code before it stores a node, and opens a trust after that.
def RedeemsOnly : Write → Prop
  | .pairingCodes _ => True
  | _ => False

def PreparesTrust : Write → Prop
  | .pairingCodes _ | .remoteNodes (.insert _) | .remoteNodes (.update _) => True
  | _ => False

theorem laboratoryTrusts_of_apply (hw : PreparesTrust w) (ha : d.apply w = .ok d') :
    d'.laboratoryTrusts = d.laboratoryTrusts := by
  cases w
  case pairingCodes => rw [(Database.applied_of_apply ha).right]
  case remoteNodes w =>
    cases w
    case insert => rw [((apply_remoteNodes (.inl rfl)).mp ha).right.right]
    case update => rw [((apply_remoteNodes (.inr rfl)).mp ha).right.right]
    case delete => exact hw.elim
  all_goals exact hw.elim

theorem Grounded.preparesTrust (hg : Grounded ks d w) (hw : ∀ w', w ≠ .laboratoryTrusts w') :
    PreparesTrust w := by
  cases w
  case laboratoryTrusts w => exact absurd rfl (hw w)
  case pairingCodes => trivial
  case remoteNodes w =>
    cases w
    case insert | update => trivial
    case delete => exact hg.elim
  all_goals exact hg.elim

-- A row that others own is not touched by a write. `d` is the state before all of them.
theorem Grounded.keeps_code (hg : Grounded ks d w) (ha : v.apply w = .ok v')
    (hd : code ∈ d.pairingCodes) (hm : code ∈ v.pairingCodes)
    (hk : code.consumedAt = none → .pairingCode code.pairingCodeId ∉ ks) : code ∈ v'.pairingCodes := by
  have happ := Database.applied_of_apply ha
  cases w
  case pairingCodes w =>
    cases w
    case insert => exact (Table.mem_insert happ.left).mpr (.inl hm)
    case delete => exact hg.elim
    case update row =>
      obtain ⟨code', now, rfl, hc⟩ := hg
      refine (Table.mem_update happ.left).mpr (.inl ⟨hm, fun he => ?_⟩)
      obtain rfl := Table.eq_of_key_eq hd hc.left he
      exact hk hc.right.left hc.right.right
  case remoteNodes | laboratoryTrusts =>
    rw [happ.right]
    exact hm
  all_goals exact hg.elim

theorem Grounded.keeps_trust (hg : Grounded ks d w) (ha : v.apply w = .ok v')
    (hd : trust ∈ d.laboratoryTrusts) (hm : trust ∈ v.laboratoryTrusts)
    (hk : lockOf trust.pair ∉ ks) : trust ∈ v'.laboratoryTrusts := by
  by_cases hw : ∀ w', w ≠ .laboratoryTrusts w'
  case pos => exact laboratoryTrusts_of_apply (hg.preparesTrust hw) ha ▸ hm
  case neg =>
    obtain ⟨w, rfl⟩ := not_forall_not.mp hw
    have happ := Database.applied_of_apply ha
    cases w
    case insert => exact (Table.mem_insert happ.left).mpr (.inl hm)
    case delete => exact hg.elim
    case update row =>
      obtain ⟨trust', ht', he, -⟩ := hg
      refine (Table.mem_update happ.left).mpr (.inl ⟨hm, fun he' => hk ?_⟩)
      obtain rfl := Table.eq_of_key_eq hd ht'.left <| he'.trans he.symm
      exact ht'.right

theorem Grounded.keeps_node (hg : Grounded ks d w) (ha : v.apply w = .ok v')
    (h : HasNode v nodeId) : HasNode v' nodeId := by
  have happ := Database.applied_of_apply ha
  obtain ⟨r, hm, hr⟩ := h
  cases w
  case remoteNodes w =>
    cases w
    case insert => exact ⟨r, (Table.mem_insert happ.left).mpr (.inl hm), hr⟩
    case delete => exact hg.elim
    case update row =>
      by_cases he : r.remoteNodeId = row.remoteNodeId
      case pos =>
        exact ⟨row, (Table.mem_update happ.left).mpr (.inr ⟨rfl, r, hm, he⟩), he.symm.trans hr⟩
      case neg => exact ⟨r, (Table.mem_update happ.left).mpr (.inl ⟨hm, he⟩), hr⟩
  case laboratoryTrusts | pairingCodes =>
    rw [happ.right]
    exact ⟨r, hm, hr⟩
  all_goals exact hg.elim

theorem Grounded.keeps_pair (hg : Grounded ks d w) (ha : v.apply w = .ok v')
    (hd : HasTrust d trustId pair) (h : HasTrust v trustId pair) : HasTrust v' trustId pair := by
  obtain ⟨t, hm, ht, hp⟩ := h
  by_cases hw : ∀ w', w ≠ .laboratoryTrusts w'
  case pos => exact ⟨t, laboratoryTrusts_of_apply (hg.preparesTrust hw) ha ▸ hm, ht, hp⟩
  case neg =>
    obtain ⟨w, rfl⟩ := not_forall_not.mp hw
    have happ := Database.applied_of_apply ha
    cases w
    case insert => exact ⟨t, (Table.mem_insert happ.left).mpr (.inl hm), ht, hp⟩
    case delete => exact hg.elim
    case update row =>
      by_cases he : t.trustId = row.trustId
      case neg => exact ⟨t, (Table.mem_update happ.left).mpr (.inl ⟨hm, he⟩), ht, hp⟩
      case pos =>
        -- The row that is replaced still is for whom it was when the transaction has read it.
        obtain ⟨trust, hg, hk, hrow⟩ := hg
        obtain ⟨t₀, hm₀, ht₀, rfl⟩ := hd
        obtain rfl := Table.eq_of_key_eq hm₀ hg.left <| ht₀.trans (ht.symm.trans (he.trans hk.symm))
        have hm' : row ∈ v'.laboratoryTrusts :=
          (Table.mem_update happ.left).mpr (.inr ⟨rfl, t, hm, he⟩)
        exact ⟨row, hm', he.symm.trans ht, hrow.symm⟩

-- What holds of each write holds of all of them.
theorem Prepared.keeps {I : Database → Prop} (h : Prepared ks d log) (hv : replay log v = .ok v')
    (hi : I v) (hsame : ∀ v v', SameTrusts v v' → I v → I v')
    (hs : ∀ w v v', Grounded ks d w → v.apply w = .ok v' → I v → I v') : I v' := by
  induction log generalizing v
  case nil => exact Except.ok.inj hv ▸ hi
  case cons w log ih =>
    obtain ⟨v₁, h₁, hv⟩ := replay_cons.mp hv
    obtain ⟨hw, h⟩ := List.forall_mem_cons.mp h
    exact ih h hv <| hw.elim (fun hw => hsame v v₁ (hw.apply h₁) hi) fun hw => hs w v v₁ hw h₁ hi

abbrev trustDiscipline : Discipline Database RowId Unit :=
  .ofTold Prepared

open Discipline

theorem stable_redeemable : trustDiscipline.Stable (Redeemable · · code) where
  lock h := ⟨h.left, h.right.left, .inr h.right.right⟩
  interference hi h := by
    obtain ⟨_, ks', hd, log, hk, hv⟩ := hi.guar
    refine ⟨hk.keeps (I := fun v => code ∈ v.pairingCodes) hv h.left ?_ ?_, h.right⟩
    case refine_1 => exact fun v v' hs hm => hs.pairingCodes ▸ hm
    case refine_2 =>
      exact fun w v v' hg ha hm => hg.keeps_code ha h.left hm fun _ => hd _ h.right.right

theorem stable_editable : trustDiscipline.Stable (Editable · · trust) where
  lock h := ⟨h.left, .inr h.right⟩
  interference hi h := by
    obtain ⟨_, ks', hd, log, hk, hv⟩ := hi.guar
    refine ⟨hk.keeps (I := fun v => trust ∈ v.laboratoryTrusts) hv h.left ?_ ?_, h.right⟩
    case refine_1 => exact fun v v' hs hm => hs.laboratoryTrusts ▸ hm
    case refine_2 => exact fun w v v' hg ha hm => hg.keeps_trust ha h.left hm <| hd _ h.right

theorem stable_known : trustDiscipline.Stable fun _ d => HasNode d nodeId where
  lock h := h
  interference hi h := by
    obtain ⟨_, ks', -, log, hk, hv⟩ := hi.guar
    refine hk.keeps (I := (HasNode · nodeId)) hv h (fun v v' hs hm => ?_)
      fun w v v' hg ha hm => hg.keeps_node ha hm
    obtain ⟨r, hm, hr⟩ := hm
    exact ⟨r, hs.remoteNodes ▸ hm, hr⟩

theorem stable_trusted : trustDiscipline.Stable fun _ d => HasTrust d trustId pair where
  lock h := h
  interference hi h := by
    obtain ⟨_, ks', -, log, hk, hv⟩ := hi.guar
    refine hk.keeps (I := (HasTrust · trustId pair)) hv h (fun v v' hs hm => ?_)
      fun w v v' hg ha hm => hg.keeps_pair ha h hm
    obtain ⟨t, hm, ht⟩ := hm
    exact ⟨t, hs.laboratoryTrusts ▸ hm, ht⟩

theorem stable_grounded : trustDiscipline.Stable (Grounded · · w) := by
  cases w
  case pairingCodes w =>
    cases w
    case insert | delete => exact .const
    case update row =>
      constructor
      case lock =>
        rintro _ _ _ ⟨code, now, rfl, h⟩
        exact ⟨code, now, rfl, stable_redeemable.lock h⟩
      case interference =>
        rintro _ _ _ _ hi ⟨code, now, rfl, h⟩
        exact ⟨code, now, rfl, stable_redeemable.interference hi h⟩
  case remoteNodes w =>
    cases w
    case insert | delete => exact .const
    case update => exact stable_known
  case laboratoryTrusts w =>
    cases w
    case insert | delete => exact .const
    case update row =>
      constructor
      case lock =>
        rintro _ _ _ ⟨trust, h, hk⟩
        exact ⟨trust, stable_editable.lock h, hk⟩
      case interference =>
        rintro _ _ _ _ hi ⟨trust, h, hk⟩
        exact ⟨trust, stable_editable.interference hi h, hk⟩
  all_goals exact .const

theorem stable_prepared : trustDiscipline.Stable (Prepared · · log) where
  lock h w hw := (h w hw).imp_right stable_grounded.lock
  interference hi h w hw := (h w hw).imp_right <| stable_grounded.interference hi

section Handlers

variable {α : Type} {Q : α → List RowId → List Write → Set RowId → Database → Prop}
  {pending : List RowId} {l n r : Uuid} {now : Timestamp}

theorem Prepared.concat (h : Prepared ks d log) (hw : Grounded ks d w) : Prepared ks d (log ++ [w]) :=
  List.forall_mem_append.mpr ⟨h, List.forall_mem_singleton.mpr <| .inr hw⟩

theorem safe_consumePairingCode {codeHash : String} {f : PairingCodeRow → Transaction α} {e : ApiError}
    (hq : ∀ code pending ks d, Redeemable ks d code → trustDiscipline.Safe Q
      (f { code with consumedAt := some now }) pending
        [.pairingCodes (.update { code with consumedAt := some now })] ks d) :
    trustDiscipline.Safe Q (do
      let some code ← consumePairingCode codeHash now | .abort e
      f code) pending [] ks d := by
  unfold consumePairingCode
  refine safe_bind.mpr <| safe_read .const trivial fun d v _ _ _ => ?_
  cases hf : v.pairingCodes.rows.find? (IsUsable codeHash now)
  case none => trivial
  case some code₀ =>
    refine safe_lock .const trivial fun d _ _ => ?_
    refine safe_read Stable.locked (.inl rfl) fun d v _ hk hv => ?_
    obtain rfl := Except.ok.inj hv
    cases hf : (d.pairingCodes.find? code₀.pairingCodeId).filter (IsUsable codeHash now)
    case none => trivial
    case some code =>
      obtain ⟨hf, hu⟩ := Option.filter_eq_some_iff.mp hf
      obtain ⟨hm, hi⟩ := Table.find?_eq_some.mp hf
      simp only [IsUsable, Bool.and_eq_true, Option.isNone_iff_eq_none] at hu
      have hi : code.pairingCodeId = code₀.pairingCodeId := hi
      have hc : Redeemable (insert (.pairingCode code₀.pairingCodeId) ks) d code :=
        ⟨hm, hu.left.right, hi ▸ hk⟩
      exact safe_write stable_redeemable hc fun d _ _ _ hc _ _ => hq code _ _ d hc

theorem remoteNodes_of_replay (h : ∀ w ∈ log, RedeemsOnly w) (hv : replay log d = .ok v) :
    v.remoteNodes = d.remoteNodes := by
  induction log generalizing d
  case nil => exact Except.ok.inj hv ▸ rfl
  case cons w log ih =>
    obtain ⟨d₁, h₁, hv⟩ := replay_cons.mp hv
    obtain ⟨hw, h⟩ := List.forall_mem_cons.mp h
    refine (ih h hv).trans ?_
    cases w
    case pairingCodes => rw [(Database.applied_of_apply h₁).right]
    all_goals exact hw.elim

theorem laboratoryTrusts_of_replay (h : ∀ w ∈ log, PreparesTrust w) (hv : replay log d = .ok v) :
    v.laboratoryTrusts = d.laboratoryTrusts := by
  induction log generalizing d
  case nil => exact Except.ok.inj hv ▸ rfl
  case cons w log ih =>
    obtain ⟨d₁, h₁, hv⟩ := replay_cons.mp hv
    obtain ⟨hw, h⟩ := List.forall_mem_cons.mp h
    exact (ih h hv).trans <| laboratoryTrusts_of_apply hw h₁

theorem safe_upsertRemoteNode {baseUrl secret hash : String} {name pin : Option String} {version : Int}
    {f : RemoteNodeRow → Transaction α} (h : Prepared ks d log) (hl : ∀ w ∈ log, RedeemsOnly w)
    (hq : ∀ row w pending ks d, PreparesTrust w → Prepared ks d (log ++ [w]) →
      trustDiscipline.Safe Q (f row) pending (log ++ [w]) ks d) :
    trustDiscipline.Safe Q (upsertRemoteNode n baseUrl name secret hash pin version now >>= f)
      pending log ks d := by
  unfold upsertRemoteNode
  refine safe_bind.mpr <| safe_lock stable_prepared h fun d _ h => ?_
  refine safe_read stable_prepared h fun d v _ h hv => ?_
  cases hf : v.remoteNodes.find? n
  case none =>
    exact safe_write stable_prepared h fun d _ _ _ h _ _ => hq _ _ _ _ d trivial (h.concat trivial)
  case some r =>
    obtain ⟨hm, hr⟩ := Table.find?_eq_some.mp hf
    have hn : HasNode d n := ⟨r, remoteNodes_of_replay hl hv ▸ hm, hr⟩
    refine safe_write (stable_prepared.and stable_known) ⟨h, hn⟩ fun d _ _ _ h _ _ => ?_
    exact hq _ _ _ _ d trivial (h.left.concat h.right)

theorem told_upsertTrust {newTrustId : Uuid} {name : Option String} (h : Prepared ks d log)
    (hl : ∀ w ∈ log, PreparesTrust w) :
    Told Prepared (upsertTrust newTrustId l n r name) pending log ks d := by
  unfold upsertTrust
  refine safe_lock stable_prepared h fun d _ h => ?_
  have hA : trustDiscipline.Stable fun ks d => Prepared ks d log ∧ lockOf (l, n, r) ∈ ks :=
    stable_prepared.and .locked
  refine safe_read hA ⟨h, .inl rfl⟩ fun d v _ ha hv => ?_
  cases hf : findTrust (l, n, r) v
  case none =>
    exact safe_write stable_prepared ha.left fun d _ _ _ h _ _ => h.concat trivial
  case some trust =>
    obtain ⟨hm, hp⟩ := findTrust_eq_some.mp hf
    have he : Editable _ d trust := ⟨laboratoryTrusts_of_replay hl hv ▸ hm, hp ▸ ha.right⟩
    refine safe_write (stable_prepared.and stable_editable) ⟨ha.left, he⟩ fun d _ _ _ h _ _ => ?_
    exact h.left.concat ⟨trust, h.right, rfl, rfl⟩

end Handlers

section Calls

variable [UuidFormat] [Cryptography] [Addresses]

-- The requests that concern trust, and whatever else is done. A verification reads, and an accepted
-- one is followed by other writes.
inductive Call
  | createPairingCode (settings : FederationSettings) (ctx : LaboratoryContext) (code : String)
      (newId : Uuid)
  | acceptPairing (settings : FederationSettings) (payload : AcceptPairingJsonData)
      (newTrustId : Uuid)
  | createTrust (settings : FederationSettings) (ctx : LaboratoryContext)
      (payload : CreateTrustJsonData) (requestBaseUrl sharedSecret : String)
      (response : PairingResponse) (newTrustId : Uuid)
  | revokeTrust (settings : FederationSettings) (ctx : LaboratoryContext) (trustId : Uuid)
  | verify (settings : FederationSettings) (request : InboundRequest) (targetLaboratoryId : Uuid)
  | other (p : Transaction Unit) (h : p.Writes Apart)

def Call.handle : Call → Transaction Unit
  | createPairingCode settings ctx code newId => do
    let _ ← Federation.createPairingCode settings ctx code newId
  | acceptPairing settings payload newTrustId => do
    let _ ← Federation.acceptPairing settings payload newTrustId
  | createTrust settings ctx payload requestBaseUrl sharedSecret response newTrustId => do
    let _ ← Federation.createTrust settings ctx payload requestBaseUrl sharedSecret response newTrustId
  | revokeTrust settings ctx trustId => Federation.revokeTrust settings ctx trustId
  | verify settings request targetLaboratoryId => do
    let h ← checkTimestamp settings request
    let _ ← authenticate request targetLaboratoryId h
  | other p _ => p

section Told

omit [UuidFormat] [Cryptography] [Addresses]

variable {α β : Type} {pending : List RowId}

theorem prepared_nil : Prepared ks d [] :=
  fun _ h => absurd h List.not_mem_nil

theorem readOnly_requirePermission {ctx : LaboratoryContext} {action : Uuid → Action} :
    (requirePermission ctx action).ReadOnly :=
  readOnly_read.bind fun _ => readOnly_require

-- Whatever is read before anything is written does not matter.
theorem told_readOnly_bind {p : Transaction α} {f : α → Transaction β} (hp : p.ReadOnly)
    (h : ∀ a pending ks d, Told Prepared (f a) pending [] ks d) :
    Told Prepared (p >>= f) pending [] ks d :=
  safe_readOnly hp .const trivial fun _ _ => h _ _ _ _

end Told

section Told

variable {ctx : LaboratoryContext} {pending : List RowId} {settings : FederationSettings}

omit [UuidFormat] [Addresses] in
theorem told_createPairingCode {code : String} {newId : Uuid} :
    Told Prepared (createPairingCode settings ctx code newId) pending [] ks d := by
  refine told_readOnly_bind readOnly_require fun _ _ _ _ => ?_
  refine told_readOnly_bind readOnly_requirePermission fun _ _ _ _ => ?_
  refine told_readOnly_bind readOnly_fetch fun _ _ _ _ => ?_
  refine told_readOnly_bind readOnly_read fun _ _ _ _ => ?_
  refine safe_bind.mpr <| safe_read .const trivial fun d v _ _ _ => ?_
  refine safe_write .const trivial fun d _ _ _ _ _ _ => ?_
  exact prepared_nil.concat (w := .pairingCodes _) rfl

omit [UuidFormat] in
theorem told_acceptPairing {payload : AcceptPairingJsonData} {newTrustId : Uuid} :
    Told Prepared (acceptPairing settings payload newTrustId) pending [] ks d := by
  refine told_readOnly_bind readOnly_require fun _ _ _ _ => ?_
  refine told_readOnly_bind readOnly_ofExcept fun _ _ _ _ => ?_
  refine told_readOnly_bind readOnly_require fun _ _ _ _ => ?_
  refine told_readOnly_bind readOnly_fetch fun _ _ _ _ => ?_
  refine told_readOnly_bind readOnly_read fun now _ _ _ => ?_
  refine safe_consumePairingCode fun code pending ks d hc => ?_
  have h : Prepared ks d [.pairingCodes (.update { code with consumedAt := some now })] :=
    prepared_nil.concat ⟨code, now, rfl, hc⟩
  refine safe_readOnly readOnly_fetch stable_prepared h fun _ h => ?_
  have hredeems : ∀ w ∈ [Write.pairingCodes (.update { code with consumedAt := some now })],
      RedeemsOnly w := List.forall_mem_singleton.mpr trivial
  refine safe_upsertRemoteNode h hredeems fun _ w _ _ _ hw h => ?_
  refine safe_bind.mpr <| told_upsertTrust h <| List.forall_mem_append.mpr ⟨?_, ?_⟩
  case refine_1 => exact List.forall_mem_singleton.mpr trivial
  case refine_2 => exact List.forall_mem_singleton.mpr hw

omit [UuidFormat] in
theorem told_createTrust {payload : CreateTrustJsonData} {requestBaseUrl sharedSecret : String}
    {response : PairingResponse} {newTrustId : Uuid} : Told Prepared
      (createTrust settings ctx payload requestBaseUrl sharedSecret response newTrustId) pending []
      ks d := by
  refine told_readOnly_bind ?_ fun _ _ _ _ => ?_
  case refine_1 =>
    refine readOnly_require.bind fun _ => readOnly_requirePermission.bind fun _ => ?_
    refine readOnly_ofExcept.bind fun _ => readOnly_ofExcept.bind fun _ => ?_
    exact readOnly_fetch.bind fun _ => readOnly_fetch.bind fun _ => trivial
  case refine_2 =>
    refine told_readOnly_bind readOnly_ofExcept fun _ _ _ _ => ?_
    refine told_readOnly_bind readOnly_read fun _ _ _ _ => ?_
    refine safe_upsertRemoteNode prepared_nil (fun _ h => absurd h List.not_mem_nil) ?_
    exact fun row w pending ks d hw h => told_upsertTrust h <| List.forall_mem_singleton.mpr hw

omit [UuidFormat] [Cryptography] [Addresses] in
theorem told_revokeTrust {trustId : Uuid} :
    Told Prepared (revokeTrust settings ctx trustId) pending [] ks d := by
  refine told_readOnly_bind readOnly_require fun _ _ _ _ => ?_
  refine told_readOnly_bind readOnly_requirePermission fun _ _ _ _ => ?_
  refine safe_bind.mpr <| safe_read .const trivial fun d now _ _ _ => ?_
  refine safe_read .const trivial fun d v _ _ hv => ?_
  obtain rfl := Except.ok.inj hv
  cases hf : (d.laboratoryTrusts.find? trustId).filter (·.localLaboratoryId = ctx.laboratoryId)
  case none => trivial
  case some trust₀ =>
    obtain ⟨hm, hk⟩ := Table.find?_eq_some.mp (Option.filter_eq_some_iff.mp hf).left
    have ht : HasTrust d trustId trust₀.pair := ⟨trust₀, hm, hk, rfl⟩
    refine safe_lock stable_trusted ht fun d _ ht => ?_
    refine safe_read (stable_trusted.and (.locked (k := lockOf trust₀.pair))) ⟨ht, .inl rfl⟩ ?_
    refine fun d v _ h hv => ?_
    obtain rfl := Except.ok.inj hv
    cases hf : (d.laboratoryTrusts.find? trustId).filter (·.localLaboratoryId = ctx.laboratoryId)
    case none => trivial
    case some trust =>
      obtain ⟨hm, hk⟩ := Table.find?_eq_some.mp (Option.filter_eq_some_iff.mp hf).left
      obtain ⟨⟨t, ht, hk', hp⟩, hlock⟩ := h
      obtain rfl := Table.eq_of_key_eq hm ht <| hk.trans hk'.symm
      have he : Editable _ d trust := ⟨hm, hp ▸ hlock⟩
      refine safe_write stable_editable he fun d _ _ _ he _ _ => ?_
      exact prepared_nil.concat (w := .laboratoryTrusts _) ⟨trust, he, rfl, rfl⟩

theorem readOnly_verify {request : InboundRequest} {targetLaboratoryId : Uuid} :
    (Call.verify settings request targetLaboratoryId).handle.ReadOnly := by
  refine ReadOnly.bind ?_ fun h => ReadOnly.bind ?_ fun _ => trivial
  case refine_1 =>
    refine readOnly_require.bind fun _ => readOnly_ofExcept.bind fun _ => ?_
    exact readOnly_read.bind fun _ => readOnly_require.bind fun _ => trivial
  case refine_2 =>
    refine readOnly_fetch.bind fun _ => readOnly_require.bind fun _ => ?_
    refine readOnly_read.bind fun _ => readOnly_require.bind fun _ => ?_
    exact readOnly_ofExcept.bind fun _ => trivial

omit [UuidFormat] [Cryptography] [Addresses] in
theorem told_writes {α : Type} {p : Transaction α} (hp : p.Writes Apart) :
    Told Prepared p pending [] ks d :=
  safe_writes (B := fun log ks d => Prepared ks d log) hp (fun _ => stable_prepared) prepared_nil
    fun _ _ _ _ hw h => List.forall_mem_append.mpr ⟨h, List.forall_mem_singleton.mpr <| .inl hw⟩

theorem told_handle (call : Call) : Told Prepared call.handle [] [] ∅ d := by
  cases call
  case createPairingCode => exact safe_bind.mpr told_createPairingCode
  case acceptPairing => exact safe_bind.mpr told_acceptPairing
  case createTrust => exact safe_bind.mpr told_createTrust
  case revokeTrust => exact told_revokeTrust
  case verify => exact told_writes readOnly_verify.writes
  case other p hp => exact told_writes hp

end Told

end Calls

end Interference

end History

end Federation

end LabInventory
