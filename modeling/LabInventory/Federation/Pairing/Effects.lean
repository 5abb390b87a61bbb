import LabInventory.Federation.Pairing.Basic

open Sql Program

namespace LabInventory

namespace Federation

variable {R : ApiError → Prop} {d d' : Database}

section RemoteNode

theorem clash?_remoteNode {t : Table RemoteNodeRow} {r : RemoteNodeRow} : t.clash? r = none ↔
    ∀ r' ∈ t, r'.baseUrl = r.baseUrl → r'.remoteNodeId = r.remoteNodeId := by
  simp only [Table.clash?_eq_none, conflict?_eq_none, TableSchema.indexes, TableSchema.key,
    List.forall_mem_singleton, UniqueIndex.Clash]
  grind

-- A row that the table of remote nodes admits.
structure StorableNode (d : Database) (row : RemoteNodeRow) : Prop where
  valid : row.IsValid
  baseUrl : ∀ r ∈ d.remoteNodes, r.baseUrl = row.baseUrl → r.remoteNodeId = row.remoteNodeId

structure StoresNode (d d' : Database) (row : RemoteNodeRow) : Prop where
  frame : d' = { d with remoteNodes := d'.remoteNodes }
  find? : ∀ n, d'.remoteNodes.find? n =
    if row.remoteNodeId = n then some row else d.remoteNodes.find? n

theorem apply_remoteNodes {w : RowWrite RemoteNodeRow Uuid} {row : RemoteNodeRow}
    (hw : w = .insert row ∨ w = .update row) : d.apply (.remoteNodes w) = .ok d' ↔
      row.IsValid ∧ d.remoteNodes.write w = .ok d'.remoteNodes ∧
      d' = { d with remoteNodes := d'.remoteNodes } := by
  obtain rfl | rfl := hw <;>
  · simp only [Database.apply, Database.writeRemoteNodes, Except.bind_eq_ok, Except.check_eq_ok,
      Except.pure_eq_ok]
    constructor
    case mp =>
      rintro ⟨_, hv, t, ht, rfl⟩
      exact ⟨hv, ht, rfl⟩
    case mpr =>
      rintro ⟨hv, ht, he⟩
      exact ⟨(), hv, _, ht, he.symm⟩

theorem wp_upsertRemoteNode {row : RemoteNodeRow} {now : Timestamp} (hs : row.status = .active)
    (hn : row.lastHandshakeAt = some now) (hR : ¬StorableNode d row → ∀ e, R e) :
    (upsertRemoteNode row.remoteNodeId row.baseUrl row.displayName row.sharedSecret
      row.sharedSecretHash row.tlsCertificateSha256 row.keyVersion now).wp (fun _ => True) R
      (fun a d' => a = row ∧ StorableNode d row ∧ StoresNode d d' row) d := by
  have hr : ({ row with status := .active, lastHandshakeAt := some now } : RemoteNodeRow) = row := by
    rw [← hs, ← hn]
  have hw {w : RowWrite RemoteNodeRow Uuid} (hw : w = .insert row ∨ w = .update row)
      (hf : ∀ t, d.remoteNodes.write w = .ok t → ∀ n, t.find? n =
        if row.remoteNodeId = n then some row else d.remoteNodes.find? n)
      (hc : ∀ t, d.remoteNodes.write w = .ok t → d.remoteNodes.clash? row = none)
      (ht : d.remoteNodes.clash? row = none → ∃ t, d.remoteNodes.write w = .ok t) :
      (exec (Write.remoteNodes w) mapDatabaseError : Transaction Unit).wp (fun _ => True) R
        (fun _ d' => row = row ∧ StorableNode d row ∧ StoresNode d d' row) d := by
    refine wp_exec.mpr ⟨fun d' ha => ⟨trivial, rfl, ?_⟩, fun c ha => hR (fun h => ?_) _⟩
    case refine_1 =>
      obtain ⟨hv, ht, he⟩ := (apply_remoteNodes hw).mp ha
      exact ⟨⟨hv, clash?_remoteNode.mp (hc _ ht)⟩, he, hf _ ht⟩
    case refine_2 =>
      obtain ⟨t, ht⟩ := ht (clash?_remoteNode.mpr h.baseUrl)
      have hok : d.apply (.remoteNodes w) = .ok { d with remoteNodes := t } :=
        (apply_remoteNodes hw).mpr ⟨h.valid, ht, rfl⟩
      exact absurd (hok.symm.trans ha) (by simp)
  simp only [upsertRemoteNode, hr, wp_bind, wp_lockRow, wp_read, pure_def]
  cases hd : d.remoteNodes.find? row.remoteNodeId
  case none =>
    have hk : ∀ r' ∈ d.remoteNodes, TableSchema.key r' ≠ TableSchema.key row :=
      Table.find?_eq_none.mp hd
    exact hw (.inl rfl) (fun _ ht _ => Table.find?_insert ht)
      (fun _ ht => (Table.insert_eq_ok.mp ht).right.left) (Table.exists_insert hk)
  case some r =>
    refine hw (.inr rfl) (fun t ht n => ?_) (fun _ ht => (Table.update_eq_ok.mp ht).left)
      Table.exists_update
    rw [Table.find?_update ht]
    by_cases h : row.remoteNodeId = n
    case pos =>
      subst h
      simp [TableSchema.key, hd]
    case neg => simp [TableSchema.key, h]

end RemoteNode

section Trust

theorem clash?_trust {t : Table TrustRow} {r : TrustRow} : t.clash? r = none ↔
    ∀ r' ∈ t, r'.pair = r.pair → r'.trustId = r.trustId := by
  simp only [Table.clash?_eq_none, conflict?_eq_none, TableSchema.indexes, TableSchema.key,
    List.forall_mem_singleton, UniqueIndex.Clash, TrustRow.pair]
  grind

theorem findTrust_eq_some {pair : Uuid × Uuid × Uuid} {r : TrustRow} :
    findTrust pair d = some r ↔ r ∈ d.laboratoryTrusts ∧ r.pair = pair := by
  constructor
  case mp =>
    intro h
    exact ⟨List.mem_of_find?_eq_some h, by simpa using List.find?_some h⟩
  case mpr =>
    rintro ⟨hm, hp⟩
    cases h : findTrust pair d
    case none =>
      have hn := List.find?_eq_none.mp h r hm
      simp [hp] at hn
    case some r' =>
      have hm' : r' ∈ d.laboratoryTrusts := List.mem_of_find?_eq_some h
      have hp' : r'.pair = pair := by simpa using List.find?_some h
      have hi : (⟨Constraint.laboratoryTrustsKey, Uuid × Uuid × Uuid,
          fun r => some (r.localLaboratoryId, r.remoteNodeId, r.remoteLaboratoryId)⟩ :
          UniqueIndex TrustRow Constraint) ∈ TableSchema.indexes := .head _
      rw [Table.eq_of_clash hi hm' hm ⟨by simp, congrArg some (hp'.trans hp.symm)⟩]

theorem findTrust_eq_none {pair : Uuid × Uuid × Uuid} :
    findTrust pair d = none ↔ ∀ r ∈ d.laboratoryTrusts, r.pair ≠ pair := by
  simp [findTrust, Table.mem_def]

structure StoresTrust (d d' : Database) (row : TrustRow) : Prop where
  frame : d' = { d with laboratoryTrusts := d'.laboratoryTrusts }
  mem_iff : ∀ r, r ∈ d'.laboratoryTrusts ↔ (r ∈ d.laboratoryTrusts ∧ r.pair ≠ row.pair) ∨ r = row

theorem apply_laboratoryTrusts {w : RowWrite TrustRow Uuid} {row : TrustRow}
    (hw : w = .insert row ∨ w = .update row) : d.apply (.laboratoryTrusts w) = .ok d' ↔
      (d.laboratories.find? row.localLaboratoryId).isSome ∧
      (d.remoteNodes.find? row.remoteNodeId).isSome ∧
      d.laboratoryTrusts.write w = .ok d'.laboratoryTrusts ∧
      d' = { d with laboratoryTrusts := d'.laboratoryTrusts } := by
  obtain rfl | rfl := hw <;>
  · simp only [Database.apply, Database.writeLaboratoryTrusts, Except.bind_eq_ok,
      Except.check_eq_ok, Except.pure_eq_ok]
    constructor
    case mp =>
      rintro ⟨t, ht, _, hl, _, hn, rfl⟩
      exact ⟨hl, hn, ht, rfl⟩
    case mpr =>
      rintro ⟨hl, hn, ht, he⟩
      exact ⟨_, ht, (), hl, (), hn, he.symm⟩

-- Updates of a trust never change whom it is for.
theorem storesTrust_of_update {t row : TrustRow} (hm : t ∈ d.laboratoryTrusts)
    (hk : t.trustId = row.trustId) (hp : t.pair = row.pair)
    (ha : d.apply (.laboratoryTrusts <| .update row) = .ok d') : StoresTrust d d' row := by
  have ⟨_, _, ht, he⟩ := (apply_laboratoryTrusts (.inr rfl)).mp ha
  refine ⟨he, fun r => ?_⟩
  rw [Table.mem_update ht]
  have hf := findTrust_eq_some.mpr ⟨hm, hp⟩
  have hr (hr : r ∈ d.laboratoryTrusts) : TableSchema.key r ≠ TableSchema.key row ↔ r.pair ≠ row.pair := by
    refine not_congr ⟨fun hk' => ?_, fun hp' => ?_⟩
    case refine_1 => rw [Table.eq_of_key_eq hr hm (hk'.trans hk.symm), hp]
    case refine_2 =>
      have := (findTrust_eq_some.mpr ⟨hr, hp'⟩).symm.trans hf
      obtain rfl := Option.some.inj this
      exact hk
  constructor
  case mp =>
    rintro (⟨hm', hn⟩ | ⟨he, _⟩)
    case inl => exact .inl ⟨hm', (hr hm').mp hn⟩
    case inr => exact .inr he
  case mpr =>
    rintro (⟨hm', hn⟩ | he)
    case inl => exact .inl ⟨hm', (hr hm').mpr hn⟩
    case inr => exact .inr ⟨he, t, hm, hk⟩

theorem storesTrust_of_insert {row : TrustRow} (hn : findTrust row.pair d = none)
    (ha : d.apply (.laboratoryTrusts <| .insert row) = .ok d') : StoresTrust d d' row := by
  have ⟨_, _, ht, he⟩ := (apply_laboratoryTrusts (.inl rfl)).mp ha
  refine ⟨he, fun r => ?_⟩
  rw [Table.mem_insert ht]
  exact or_congr_left ⟨fun h => ⟨h, findTrust_eq_none.mp hn r h⟩, And.left⟩

-- A trust that the tables admit.
structure StorableTrust (d : Database) (newTrustId : Uuid) (pair : Uuid × Uuid × Uuid) : Prop where
  laboratory : (d.laboratories.find? pair.1).isSome
  remoteNode : (d.remoteNodes.find? pair.2.1).isSome
  unused : findTrust pair d = none → ∀ r ∈ d.laboratoryTrusts, r.trustId ≠ newTrustId

-- The row by which a trust is opened.
structure OpensTrust (row : TrustRow) (pair : Uuid × Uuid × Uuid) (name : Option String) :
    Prop where
  pair : row.pair = pair
  remoteLaboratoryName : row.remoteLaboratoryName = name
  status : row.status = .active
  revokedAt : row.revokedAt = none

theorem wp_upsertTrust {newTrustId l n r : Uuid} {name : Option String}
    (hR : ¬StorableTrust d newTrustId (l, n, r) → ∀ e, R e) :
    (upsertTrust newTrustId l n r name).wp (fun _ => True) R
      (fun row d' => OpensTrust row (l, n, r) name ∧ StorableTrust d newTrustId (l, n, r) ∧
        StoresTrust d d' row) d := by
  simp only [upsertTrust, wp_bind, wp_lockRow, wp_read]
  cases hf : findTrust (l, n, r) d
  case none =>
    simp only [wp_bind, pure_def, wp_done]
    refine wp_exec.mpr ⟨fun d' ha => ⟨trivial, ⟨rfl, rfl, rfl, rfl⟩, ?_, storesTrust_of_insert hf ha⟩,
      fun c ha => hR (fun h => ?_) _⟩
    case refine_1 =>
      obtain ⟨hl, hn, ht, _⟩ := (apply_laboratoryTrusts (.inl rfl)).mp ha
      exact ⟨hl, hn, fun _ => (Table.insert_eq_ok.mp ht).left⟩
    case refine_2 =>
      let row : TrustRow := {
        trustId := newTrustId
        localLaboratoryId := l
        remoteNodeId := n
        remoteLaboratoryId := r
        remoteLaboratoryName := name
        status := .active
        revokedAt := none
      }
      have hc : d.laboratoryTrusts.clash? row = none := clash?_trust.mpr fun r' hr' hp =>
        absurd hp (findTrust_eq_none.mp hf r' hr')
      obtain ⟨t, ht⟩ := Table.exists_insert (h.unused hf) hc
      have hok : d.apply (.laboratoryTrusts <| .insert row) = .ok { d with laboratoryTrusts := t } :=
        (apply_laboratoryTrusts (.inl rfl)).mpr ⟨h.laboratory, h.remoteNode, ht, rfl⟩
      exact absurd (hok.symm.trans ha) (by simp)
  case some trust =>
    obtain ⟨hm, hp⟩ := findTrust_eq_some.mp hf
    simp only [wp_bind, pure_def, wp_done]
    refine wp_exec.mpr ⟨fun d' ha => ⟨trivial, ⟨hp, rfl, rfl, rfl⟩, ?_,
      storesTrust_of_update hm rfl rfl ha⟩, fun c ha => hR (fun h => ?_) _⟩
    case refine_1 =>
      obtain ⟨hl, hn, _⟩ := (apply_laboratoryTrusts (.inr rfl)).mp ha
      simp only [TrustRow.pair, Prod.mk.injEq] at hp
      exact ⟨hp.left ▸ hl, hp.right.left ▸ hn, fun hn => by simp [hf] at hn⟩
    case refine_2 =>
      let row := { trust with remoteLaboratoryName := name, status := .active, revokedAt := none }
      have hc : d.laboratoryTrusts.clash? row = none := clash?_trust.mpr fun r' hr' hp' => by
        have := (findTrust_eq_some.mpr ⟨hr', hp'.trans hp⟩).symm.trans hf
        rw [Option.some.inj this]
      obtain ⟨t, ht⟩ := Table.exists_update hc
      simp only [TrustRow.pair, Prod.mk.injEq] at hp
      have hok : d.apply (.laboratoryTrusts <| .update row) = .ok { d with laboratoryTrusts := t } :=
        (apply_laboratoryTrusts (.inr rfl)).mpr
          ⟨hp.left ▸ h.laboratory, hp.right.left ▸ h.remoteNode, ht, rfl⟩
      exact absurd (hok.symm.trans ha) (by simp)

end Trust

section Revoke

variable {laboratoryId trustId : Uuid}

theorem wlp_revokeTrustInDatabase : (revokeTrustInDatabase laboratoryId trustId).wlp
    (fun a d' => match a with
      | none => d' = d
      | some row => ∃ trust ∈ d.laboratoryTrusts, trust.localLaboratoryId = laboratoryId ∧
        trust.trustId = trustId ∧
        row = { trust with status := .revoked, revokedAt := some d.now } ∧ StoresTrust d d' row)
    d := by
  simp only [revokeTrustInDatabase, wlp, wp_bind, wp_read]
  cases hf : (d.laboratoryTrusts.find? trustId).filter (·.localLaboratoryId = laboratoryId)
  case none => rfl
  case some trust =>
    simp only [wp_bind, wp_lockRow, wp_read, hf, pure_def, wp_done]
    obtain ⟨ht, hl⟩ := Option.filter_eq_some_iff.mp hf
    obtain ⟨hm, hk⟩ := Table.find?_eq_some.mp ht
    refine wp_exec.mpr ⟨fun d' ha => ⟨trivial, trust, hm, by simpa using hl, hk, rfl, ?_⟩,
      fun _ _ => trivial⟩
    exact storesTrust_of_update hm rfl rfl ha

end Revoke

section PairingCode

structure StoresCode (d d' : Database) (row : PairingCodeRow) : Prop where
  frame : d' = { d with pairingCodes := d'.pairingCodes }
  mem_iff : ∀ r, r ∈ d'.pairingCodes ↔
    (r ∈ d.pairingCodes ∧ r.pairingCodeId ≠ row.pairingCodeId) ∨ r = row

theorem clash?_pairingCode {t : Table PairingCodeRow} {r : PairingCodeRow} : t.clash? r = none ↔
    ∀ r' ∈ t, r'.codeHash = r.codeHash → r'.pairingCodeId = r.pairingCodeId := by
  simp only [Table.clash?_eq_none, conflict?_eq_none, TableSchema.indexes, TableSchema.key,
    List.forall_mem_singleton, UniqueIndex.Clash]
  grind

theorem eq_of_codeHash_eq {r₁ r₂ : PairingCodeRow} (h₁ : r₁ ∈ d.pairingCodes)
    (h₂ : r₂ ∈ d.pairingCodes) (h : r₁.codeHash = r₂.codeHash) : r₁ = r₂ := by
  have hi : (⟨.pairingCodesCodeHashKey, String, (some ·.codeHash)⟩ :
      UniqueIndex PairingCodeRow Constraint) ∈ TableSchema.indexes := .head _
  exact Table.eq_of_clash hi h₁ h₂ ⟨by simp, congrArg some h⟩

theorem eq_of_usable {r₁ r₂ : PairingCodeRow} {codeHash : String} {now : Timestamp}
    (h₁ : r₁ ∈ d.pairingCodes) (h₂ : r₂ ∈ d.pairingCodes) (hu₁ : IsUsable codeHash now r₁)
    (hu₂ : IsUsable codeHash now r₂) : r₁ = r₂ := by
  simp only [IsUsable, Bool.and_eq_true, decide_eq_true_eq] at hu₁ hu₂
  exact eq_of_codeHash_eq h₁ h₂ (hu₁.left.left.trans hu₂.left.left.symm)

theorem apply_pairingCodes {w : RowWrite PairingCodeRow Uuid} {row : PairingCodeRow}
    (hw : w = .insert row ∨ w = .update row) : d.apply (.pairingCodes w) = .ok d' ↔
      row.IsValid ∧ d.pairingCodes.write w = .ok d'.pairingCodes ∧
      (d.laboratories.find? row.localLaboratoryId).isSome ∧
      d' = { d with pairingCodes := d'.pairingCodes } := by
  obtain rfl | rfl := hw <;>
  · simp only [Database.apply, Database.writePairingCodes, Except.bind_eq_ok, Except.check_eq_ok,
      Except.pure_eq_ok]
    constructor
    case mp =>
      rintro ⟨_, hv, t, ht, _, hl, rfl⟩
      exact ⟨hv, ht, hl, rfl⟩
    case mpr =>
      rintro ⟨hv, ht, hl, he⟩
      exact ⟨(), hv, _, ht, (), hl, he.symm⟩

variable {codeHash : String} {now : Timestamp}

-- The outcome of claiming a code.
def Consumes (codeHash : String) (now : Timestamp) (d d' : Database) : Option PairingCodeRow → Prop
  | none => d' = d ∧ ∀ code ∈ d.pairingCodes, ¬IsUsable codeHash now code
  | some row => ∃ code ∈ d.pairingCodes, IsUsable codeHash now code ∧
    row = { code with consumedAt := some now } ∧ StoresCode d d' row

theorem wp_consumePairingCode (hR : ∀ code ∈ d.pairingCodes, IsUsable codeHash now code →
      ¬(code.IsValid ∧ (d.laboratories.find? code.localLaboratoryId).isSome) → ∀ e, R e) :
    (consumePairingCode codeHash now).wp (fun _ => True) R
      (fun a d' => Consumes codeHash now d d' a) d := by
  simp only [consumePairingCode, wp_bind, wp_read]
  cases hf : d.pairingCodes.rows.find? (IsUsable codeHash now)
  case none =>
    refine ⟨rfl, fun code hc => ?_⟩
    simpa using List.find?_eq_none.mp hf code hc
  case some code =>
    have hm : code ∈ d.pairingCodes := List.mem_of_find?_eq_some hf
    have hu : IsUsable codeHash now code := List.find?_some hf
    have hk : (d.pairingCodes.find? code.pairingCodeId).filter (IsUsable codeHash now) =
        some code :=
      Option.filter_eq_some_iff.mpr ⟨Table.find?_key hm, hu⟩
    simp only [wp_bind, wp_lockRow, wp_read, hk, pure_def, wp_done]
    let row := { code with consumedAt := some now }
    refine wp_exec.mpr ⟨fun d' ha => ⟨trivial, code, hm, hu, rfl, ?_⟩,
      fun c ha => hR code hm hu (fun h => ?_) _⟩
    case refine_1 =>
      obtain ⟨_, ht, _, he⟩ := (apply_pairingCodes (.inr rfl)).mp ha
      refine ⟨he, fun r => ?_⟩
      rw [Table.mem_update ht]
      exact or_congr_right (and_iff_left ⟨code, hm, rfl⟩)
    case refine_2 =>
      have hc : d.pairingCodes.clash? row = none := clash?_pairingCode.mpr fun r' hr' hp => by
        rw [eq_of_codeHash_eq hr' hm hp]
      obtain ⟨t, ht⟩ := Table.exists_update hc
      have hok : d.apply (.pairingCodes <| .update row) = .ok { d with pairingCodes := t } :=
        (apply_pairingCodes (.inr rfl)).mpr ⟨h.left, ht, h.right, rfl⟩
      exact absurd (hok.symm.trans ha) (by simp)

variable {newId laboratoryId : Uuid} {expiresAt : Timestamp}

theorem wlp_insertPairingCode : (insertPairingCode newId laboratoryId codeHash expiresAt).wlp
    (fun row d' => row.pairingCodeId = newId ∧ row.localLaboratoryId = laboratoryId ∧
      row.codeHash = codeHash ∧ row.consumedAt = none ∧ (∀ r ∈ d.pairingCodes, r.pairingCodeId ≠ newId) ∧
      StoresCode d d' row) d := by
  simp only [insertPairingCode, wlp, wp_bind, wp_read, pure_def, wp_done, true_and]
  refine wp_exec.mpr ⟨fun d' ha => ⟨trivial, ?_⟩, fun _ _ => trivial⟩
  obtain ⟨_, ht, _, he⟩ := (apply_pairingCodes (.inl rfl)).mp ha
  have hk := (Table.insert_eq_ok.mp ht).left
  refine ⟨hk, he, fun r => ?_⟩
  rw [Table.mem_insert ht]
  exact or_congr_left ⟨fun h => ⟨h, hk r h⟩, And.left⟩

end PairingCode

-- What a handshake changes on one of its sides. The `code` is the one that is redeemed there.
structure Pairs (d d' : Database) (code : Option PairingCodeRow) (node : RemoteNodeRow)
    (trust : TrustRow) : Prop where
  frame : d' = { d with
    pairingCodes := d'.pairingCodes
    remoteNodes := d'.remoteNodes
    laboratoryTrusts := d'.laboratoryTrusts
  }
  codes : ∀ r, r ∈ d'.pairingCodes ↔
    (r ∈ d.pairingCodes ∧ ∀ c ∈ code, r.pairingCodeId ≠ c.pairingCodeId) ∨
    ∃ c ∈ code, r = { c with consumedAt := some d.now }
  nodes : ∀ n, d'.remoteNodes.find? n =
    if node.remoteNodeId = n then some node else d.remoteNodes.find? n
  trusts : ∀ r, r ∈ d'.laboratoryTrusts ↔ (r ∈ d.laboratoryTrusts ∧ r.pair ≠ trust.pair) ∨ r = trust

namespace Pairs

variable {d₁ : Database} {node : RemoteNodeRow} {trust : TrustRow}

theorem of_stores (hn : StoresNode d d₁ node) (ht : StoresTrust d₁ d' trust) :
    Pairs d d' none node trust where
  frame := by rw [ht.frame, hn.frame]
  codes r := by rw [ht.frame, hn.frame]; simp
  nodes n := by rw [ht.frame]; exact hn.find? n
  trusts r := by rw [ht.mem_iff, hn.frame]

theorem of_code {code : PairingCodeRow}
    (hc : StoresCode d d₁ { code with consumedAt := some d.now })
    (hp : Pairs d₁ d' none node trust) : Pairs d d' (some code) node trust where
  frame := by rw [hp.frame, hc.frame]
  codes r := by
    rw [hp.codes, hc.mem_iff]
    simp
  nodes n := by rw [hp.nodes, hc.frame]
  trusts r := by rw [hp.trusts, hc.frame]

end Pairs

-- What is left to check once a node may be stored.
structure OpenablePair (d : Database) (newTrustId : Uuid) (pair : Uuid × Uuid × Uuid) : Prop where
  laboratory : (d.laboratories.find? pair.1).isSome
  unused : findTrust pair d = none → ∀ r ∈ d.laboratoryTrusts, r.trustId ≠ newTrustId

theorem wp_upsertPair {row : RemoteNodeRow} {now : Timestamp} {newTrustId l r : Uuid}
    {name : Option String} (hs : row.status = .active) (hn : row.lastHandshakeAt = some now)
    (hR : ¬(StorableNode d row ∧ OpenablePair d newTrustId (l, row.remoteNodeId, r)) →
      ∀ e, R e) :
    (upsertRemoteNode row.remoteNodeId row.baseUrl row.displayName row.sharedSecret
      row.sharedSecretHash row.tlsCertificateSha256 row.keyVersion now).wp (fun _ => True) R
      (fun remote d₁ => (upsertTrust newTrustId l remote.remoteNodeId r name).wp (fun _ => True) R
        (fun trust d' => OpensTrust trust (l, row.remoteNodeId, r) name ∧ StorableNode d row ∧
          OpenablePair d newTrustId (l, row.remoteNodeId, r) ∧ Pairs d d' none row trust) d₁) d := by
  refine wp_mono (wp_upsertRemoteNode hs hn fun h => hR fun h' => h h'.left) fun node d₁ hnode => ?_
  obtain ⟨rfl, hstore, hsn⟩ := hnode
  have hf := hsn.frame
  have ht : d₁.laboratoryTrusts = d.laboratoryTrusts := by rw [hf]
  refine wp_mono (wp_upsertTrust fun h => hR fun h' => h ⟨?_, ?_, fun hn => ?_⟩) fun trust d' htrust => ?_
  case refine_1 =>
    rw [hf]
    exact h'.right.laboratory
  case refine_2 => simp [hsn.find?]
  case refine_3 =>
    rw [ht]
    exact h'.right.unused (by rwa [findTrust, ht] at hn)
  case refine_4 =>
    obtain ⟨ho, hp, hst⟩ := htrust
    refine ⟨ho, hstore, ⟨?_, fun hn => ?_⟩, .of_stores hsn hst⟩
    case refine_1 =>
      have hl : d₁.laboratories = d.laboratories := by rw [hf]
      exact hl ▸ hp.laboratory
    case refine_2 => exact ht ▸ hp.unused (by rwa [findTrust, ht])

section Handshake

variable [Cryptography] [Addresses] {settings : FederationSettings} {newTrustId : Uuid}

omit [Addresses] in
theorem sha256Hex_ne_empty {bytes : List UInt8} : sha256Hex bytes ≠ "" := by
  intro h
  have hl : ((sha256Hex bytes).toList).length = 64 := by
    simp only [sha256Hex, String.toList_ofList, List.length_flatMap, hexByte, List.length_cons,
      List.length_nil]
    simp [Cryptography.length_sha256]
  simp [h] at hl

variable {payload : AcceptPairingJsonData}

-- The row by which the node that redeems a code is known.
def AcceptPairingJsonData.requester (payload : AcceptPairingJsonData) (baseUrl : String)
    (now : Timestamp) : RemoteNodeRow where
  remoteNodeId := payload.requesterNodeId
  baseUrl := baseUrl
  displayName := some payload.requesterLaboratoryName
  sharedSecret := payload.sharedSecret
  sharedSecretHash := sha256Hex (asBytes payload.sharedSecret)
  tlsCertificateSha256 := none
  status := .active
  keyVersion := 1
  lastHandshakeAt := some now

-- When a code can be redeemed.
structure Acceptable (settings : FederationSettings) (payload : AcceptPairingJsonData)
    (newTrustId : Uuid) (d : Database) : Prop where
  enabled : settings.enabled
  node : ∃ baseUrl, normalizeBaseUrl payload.requesterBaseUrl settings = .ok baseUrl ∧
    StorableNode d (payload.requester baseUrl d.now)
  sharedSecret : Text.trim payload.sharedSecret ≠ ""
  localNodeId : d.localNodeId.isSome
  code : ∃ code ∈ d.pairingCodes, IsUsable (sha256Hex (asBytes payload.pairingCode)) d.now code ∧
    code.IsValid ∧ OpenablePair d newTrustId
      (code.localLaboratoryId, payload.requesterNodeId, payload.requesterLaboratoryId)

-- The outcome of redeeming a code on the side that has issued it.
structure Accepts (settings : FederationSettings) (payload : AcceptPairingJsonData)
    (d d' : Database) (code : PairingCodeRow) (trust : TrustRow) (response : AcceptPairingResponse) :
    Prop where
  enabled : settings.enabled
  mem : code ∈ d.pairingCodes
  usable : IsUsable (sha256Hex (asBytes payload.pairingCode)) d.now code
  opens : OpensTrust trust
    (code.localLaboratoryId, payload.requesterNodeId, payload.requesterLaboratoryId)
    (some payload.requesterLaboratoryName)
  pairs : ∃ baseUrl, normalizeBaseUrl payload.requesterBaseUrl settings = .ok baseUrl ∧
    StorableNode d (payload.requester baseUrl d.now) ∧
    Pairs d d' (some code) (payload.requester baseUrl d.now) trust
  nodeId : d.localNodeId = some response.nodeId
  publicBaseUrl : response.publicBaseUrl = settings.publicBaseUrl
  laboratoryId : response.laboratoryId = code.localLaboratoryId
  tlsCertificateSha256 : response.tlsCertificateSha256 = payload.tlsCertificateSha256
  keyVersion : response.keyVersion = 1

theorem wp_acceptPairing (hR : ¬Acceptable settings payload newTrustId d → ∀ e, R e) :
    (acceptPairing settings payload newTrustId).wp (fun _ => True) R
      (fun response d' => ∃ code trust, Accepts settings payload d d' code trust response) d := by
  simp only [acceptPairing, requireFederation, fetchLocalNodeId, Transaction.validated, wp_bind,
    wp_require, wp_ofExcept, Except.mapError_eq_ok, Except.mapError_eq_error, wp_fetch, wp_read]
  refine ⟨fun he => ⟨fun baseUrl hb => ⟨fun hs => ⟨fun localNodeId hl => ?_, fun hl => ?_⟩,
    fun hs => ?_⟩, ?_⟩, fun he => ?_⟩
  case refine_2 => exact hR (fun h => by simpa [hl] using h.localNodeId) _
  case refine_3 => exact hR (fun h => hs h.sharedSecret) _
  case refine_4 =>
    rintro _ ⟨_, hb, rfl⟩
    refine hR (fun h => ?_) _
    obtain ⟨_, hb', _⟩ := h.node
    simp [hb] at hb'
  case refine_5 => exact hR (fun h => he h.enabled) _
  case refine_1 =>
    have hR' {c} (hc : c ∈ d.pairingCodes)
        (hu : IsUsable (sha256Hex (asBytes payload.pairingCode)) d.now c)
        (hn : ¬(c.IsValid ∧ OpenablePair d newTrustId
          (c.localLaboratoryId, payload.requesterNodeId, payload.requesterLaboratoryId))) :
        ∀ e, R e := by
      refine hR fun h => ?_
      obtain ⟨c', hc', hu', hv⟩ := h.code
      obtain rfl := eq_of_usable hc hc' hu hu'
      exact hn hv
    refine wp_mono (wp_consumePairingCode fun c hc hu hn => hR' hc hu fun h => hn ⟨h.left, h.right.laboratory⟩)
      fun code? d₁ hcode => ?_
    cases code?
    case none =>
      refine hR (fun h => ?_) _
      obtain ⟨c, hc, hu, _⟩ := h.code
      exact hcode.right c hc hu
    case some code₁ =>
      obtain ⟨code, hc, hu, rfl, hsc⟩ := hcode
      have hf := hsc.frame
      have hnodes : d₁.remoteNodes = d.remoteNodes := by rw [hf]
      have htrusts : d₁.laboratoryTrusts = d.laboratoryTrusts := by rw [hf]
      have hlabs : d₁.laboratories = d.laboratories := by rw [hf]
      simp only [wp_bind, wp_fetch]
      refine ⟨fun laboratory hlab => ?_, fun hlab => hR' hc hu (fun h => ?_) _⟩
      case refine_2 => simpa [← hlabs, hlab] using h.right.laboratory
      let row := payload.requester baseUrl d.now
      have hk : laboratory.laboratoryId = code.localLaboratoryId := (Table.find?_eq_some.mp hlab).right
      refine wp_mono (@wp_upsertPair R d₁ row d.now newTrustId code.localLaboratoryId
        payload.requesterLaboratoryId (some payload.requesterLaboratoryName) rfl rfl fun hn => ?_)
        fun _ d₂ h => wp_mono h fun trust d₃ h => ?_
      case refine_1 =>
        refine hR fun h => hn ⟨?_, ?_⟩
        case refine_1 =>
          obtain ⟨_, hb', hs'⟩ := h.node
          obtain rfl := Except.ok.inj (hb.symm.trans hb')
          exact ⟨hs'.valid, hnodes ▸ hs'.baseUrl⟩
        case refine_2 =>
          obtain ⟨c', hc', hu', _, ho⟩ := h.code
          obtain rfl := eq_of_usable hc hc' hu hu'
          exact ⟨hlabs ▸ ho.laboratory, fun hf => htrusts ▸ ho.unused (by rwa [findTrust, htrusts] at hf)⟩
      case refine_2 =>
        obtain ⟨ho, hstore, _, hp⟩ := h
        exact ⟨code, trust, he, hc, hu, ho, ⟨baseUrl, hb, ⟨hstore.valid, hnodes ▸ hstore.baseUrl⟩,
          .of_code hsc hp⟩, hl, rfl, hk, rfl, rfl⟩

theorem exists_acceptPairing (h : Acceptable settings payload newTrustId d) :
    ∃ response d', (acceptPairing settings payload newTrustId).run d = .ok (response, d') ∧
      ∃ code trust, Accepts settings payload d d' code trust response :=
  wp_total <| wp_acceptPairing fun hn => absurd h hn

variable {ctx : LaboratoryContext} {action : Uuid → Action} {Q : Unit → Database → Prop}

omit [Cryptography] [Addresses] in
theorem wp_requirePermission : (requirePermission ctx action).wp (fun _ => True) R Q d ↔
    (validatePermission d ctx.authorizationActor .federation (action ctx.laboratoryId) → Q () d) ∧
    (¬validatePermission d ctx.authorizationActor .federation (action ctx.laboratoryId) →
      R (.forbidden manageFederationForbidden)) := by
  simp only [requirePermission, wp_bind, wp_read, wp_require]

variable {request : CreateTrustJsonData} {requestBaseUrl sharedSecret : String}
variable {pending : PendingTrust} {response : PairingResponse}

-- The outcome of asking for a trust, up to the point where the remote node is contacted.
structure Requests (settings : FederationSettings) (ctx : LaboratoryContext)
    (request : CreateTrustJsonData) (requestBaseUrl sharedSecret : String) (d : Database)
    (pending : PendingTrust) : Prop where
  enabled : settings.enabled
  permitted : validatePermission d ctx.authorizationActor .federation (.create ctx.laboratoryId)
  tlsPin : validateTlsPinValue request.tlsCertificateSha256 = .ok ()
  remoteBaseUrl : normalizeBaseUrl request.remoteBaseUrl settings = .ok pending.remoteBaseUrl
  localNodeId : d.localNodeId = some pending.message.requesterNodeId
  laboratory : (d.laboratories.find? ctx.laboratoryId).isSome
  laboratoryId : pending.laboratoryId = ctx.laboratoryId
  remoteLaboratoryId : pending.remoteLaboratoryId = request.remoteLaboratoryId
  requesterLaboratoryId : pending.message.requesterLaboratoryId = ctx.laboratoryId
  requesterBaseUrl : pending.message.requesterBaseUrl = requesterBaseUrl requestBaseUrl settings
  pairingCode : pending.message.pairingCode = request.pairingCode
  sharedSecret : pending.message.sharedSecret = sharedSecret
  tlsCertificateSha256 : pending.message.tlsCertificateSha256 = request.tlsCertificateSha256

omit [Cryptography] in
theorem wlp_requestTrust : (requestTrust settings ctx request requestBaseUrl sharedSecret).wlp
    (fun pending d' => d' = d ∧
      Requests settings ctx request requestBaseUrl sharedSecret d pending) d := by
  simp only [requestTrust, requireFederation, fetchLocalNodeId, Transaction.validated, wlp, wp_bind,
    wp_require, wp_requirePermission, wp_ofExcept, Except.mapError_eq_ok, wp_fetch, implies_true,
    and_true, pure_def, wp_done, true_and]
  intro he hp _ ht remoteBaseUrl hb localNodeId hl laboratory hlab
  exact ⟨he, hp, ht, hb, hl, by simp [hlab], rfl, rfl, rfl, rfl, rfl, rfl, rfl⟩

omit [Cryptography] in
theorem run_requestTrust {remoteBaseUrl : String} {localNodeId : Uuid} {laboratory : LaboratoryRow}
    (he : settings.enabled)
    (hp : validatePermission d ctx.authorizationActor .federation (.create ctx.laboratoryId))
    (ht : validateTlsPinValue request.tlsCertificateSha256 = .ok ())
    (hb : normalizeBaseUrl request.remoteBaseUrl settings = .ok remoteBaseUrl)
    (hi : d.localNodeId = some localNodeId)
    (hl : d.laboratories.find? ctx.laboratoryId = some laboratory) :
    (requestTrust settings ctx request requestBaseUrl sharedSecret).run d = .ok (⟨
      ctx.laboratoryId, remoteBaseUrl, request.remoteLaboratoryId,
      ⟨request.pairingCode, localNodeId, requesterBaseUrl requestBaseUrl settings, ctx.laboratoryId,
        laboratory.name, sharedSecret, request.tlsCertificateSha256⟩⟩, d) := by
  suffices hw : (requestTrust settings ctx request requestBaseUrl sharedSecret).wp (fun _ => True)
      (fun _ => False) (fun a d' => a = ⟨ctx.laboratoryId, remoteBaseUrl, request.remoteLaboratoryId,
        ⟨request.pairingCode, localNodeId, requesterBaseUrl requestBaseUrl settings,
          ctx.laboratoryId, laboratory.name, sharedSecret, request.tlsCertificateSha256⟩⟩ ∧
        d' = d) d by
    obtain ⟨_, _, hr, rfl, rfl⟩ := wp_total hw
    exact hr
  simp only [requestTrust, requireFederation, fetchLocalNodeId, Transaction.validated, wp_bind,
    wp_require, wp_requirePermission, wp_ofExcept, Except.mapError_eq_ok, Except.mapError_eq_error,
    wp_fetch, pure_def, wp_done, he, hp, ht, hb, hi, hl, Except.ok.injEq, Option.some.injEq,
    forall_eq', true_implies, not_true_eq_false, false_implies, and_true, reduceCtorEq,
    false_and, exists_false, implies_true]

-- The row by which the node that has accepted a code is known.
def PendingTrust.responder (pending : PendingTrust) (accepted : AcceptPairingResponse)
    (now : Timestamp) : RemoteNodeRow where
  remoteNodeId := accepted.nodeId
  baseUrl := pending.remoteBaseUrl
  displayName := some accepted.publicBaseUrl
  sharedSecret := pending.message.sharedSecret
  sharedSecretHash := sha256Hex (asBytes pending.message.sharedSecret)
  tlsCertificateSha256 := accepted.tlsCertificateSha256.or pending.message.tlsCertificateSha256
  status := .active
  keyVersion := accepted.keyVersion
  lastHandshakeAt := some now

-- When an answer can be stored.
structure Storable (pending : PendingTrust) (response : PairingResponse) (newTrustId : Uuid)
    (d : Database) (accepted : AcceptPairingResponse) : Prop where
  checked : checkPairingResponse pending response = .ok accepted
  node : StorableNode d (pending.responder accepted d.now)
  pair : OpenablePair d newTrustId
    (pending.laboratoryId, accepted.nodeId, pending.remoteLaboratoryId)

-- The outcome of a handshake on the side that has asked for it.
structure Stores (pending : PendingTrust) (response : PairingResponse) (newTrustId : Uuid)
    (d d' : Database) (accepted : AcceptPairingResponse) (trust : TrustRow) : Prop where
  storable : Storable pending response newTrustId d accepted
  opens : OpensTrust trust (pending.laboratoryId, accepted.nodeId, pending.remoteLaboratoryId)
    (some accepted.laboratoryName)
  pairs : Pairs d d' none (pending.responder accepted d.now) trust

omit [Addresses] in
theorem wp_storeTrust (hR : (∀ accepted, ¬Storable pending response newTrustId d accepted) → ∀ e, R e) :
    (storeTrust pending response newTrustId).wp (fun _ => True) R
      (fun trust d' => ∃ accepted, Stores pending response newTrustId d d' accepted trust) d := by
  simp only [storeTrust, wp_bind, wp_ofExcept, wp_read]
  refine ⟨fun accepted ha => ?_, fun e he => hR (fun accepted h => ?_) _⟩
  case refine_2 => exact absurd (he.symm.trans h.checked) (by simp)
  refine wp_mono (@wp_upsertPair R d (pending.responder accepted d.now) d.now newTrustId
    pending.laboratoryId pending.remoteLaboratoryId (some accepted.laboratoryName) rfl rfl fun hn => ?_)
    fun _ d₁ h => wp_mono h fun trust d₂ h => ?_
  case refine_1 =>
    refine hR fun accepted' h => hn ?_
    obtain rfl := Except.ok.inj (ha.symm.trans h.checked)
    exact ⟨h.node, h.pair⟩
  case refine_2 => exact ⟨accepted, ⟨ha, h.right.left, h.right.right.left⟩, h.left, h.right.right.right⟩

omit [Addresses] in
theorem exists_storeTrust {accepted : AcceptPairingResponse}
    (h : Storable pending response newTrustId d accepted) :
    ∃ trust d', (storeTrust pending response newTrustId).run d = .ok (trust, d') ∧
      ∃ accepted, Stores pending response newTrustId d d' accepted trust :=
  wp_total <| wp_storeTrust fun hn => absurd h (hn accepted)

theorem wlp_createTrust :
    (createTrust settings ctx request requestBaseUrl sharedSecret response newTrustId).wlp
      (fun trust d' => ∃ pending accepted,
        Requests settings ctx request requestBaseUrl sharedSecret d pending ∧
        Stores pending response newTrustId d d' accepted trust) d := by
  simp only [createTrust, wlp, wp_bind]
  refine wp_mono wlp_requestTrust fun pending d₁ h => ?_
  obtain ⟨rfl, hr⟩ := h
  exact wp_mono (wp_storeTrust fun _ _ => trivial) fun trust d' hs => ⟨pending, hs.choose, hr, hs.choose_spec⟩

variable {code : String} {newId trustId : Uuid}

omit [Addresses] in
theorem wlp_createPairingCode : (createPairingCode settings ctx code newId).wlp
    (fun _ d' => ∃ row : PairingCodeRow, row.localLaboratoryId = ctx.laboratoryId ∧
      row.codeHash = sha256Hex (asBytes code) ∧ row.consumedAt = none ∧
      (∀ r ∈ d.pairingCodes, r.pairingCodeId ≠ row.pairingCodeId) ∧ StoresCode d d' row) d := by
  simp only [createPairingCode, requireFederation, fetchLocalNodeId, wlp, wp_bind, wp_require,
    wp_requirePermission, wp_fetch, wp_read, implies_true, and_true, pure_def, wp_done]
  intro _ _ _ _
  refine wp_mono wlp_insertPairingCode fun row d' h => ?_
  obtain ⟨hi, hl, hh, hc, hn, hs⟩ := h
  exact ⟨row, hl, hh, hc, hi ▸ hn, hs⟩

omit [Cryptography] [Addresses] in
theorem wlp_revokeTrust : (revokeTrust settings ctx trustId).wlp
    (fun _ d' => ∃ trust ∈ d.laboratoryTrusts, trust.localLaboratoryId = ctx.laboratoryId ∧
      trust.trustId = trustId ∧
      StoresTrust d d' { trust with status := .revoked, revokedAt := some d.now }) d := by
  simp only [revokeTrust, requireFederation, wlp, wp_bind, wp_require, wp_requirePermission,
    implies_true, and_true]
  intro _ _
  refine wp_mono wlp_revokeTrustInDatabase fun row d' h => ?_
  cases row
  case none => trivial
  case some row =>
    obtain ⟨trust, hm, hl, hk, rfl, hs⟩ := h
    exact ⟨trust, hm, hl, hk, hs⟩

end Handshake

end Federation

end LabInventory
