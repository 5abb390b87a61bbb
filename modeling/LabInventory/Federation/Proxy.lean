import LabInventory.Federation.Verification

open Sql Program

namespace LabInventory

namespace Federation

structure ProxyPath where
  remoteNodeId : Uuid
  remoteLaboratoryId : Uuid

-- What gets signed is what the database says about the user right now.
def authorizeProxy (settings : FederationSettings) (actor : Actor) (path : ProxyPath) :
    Transaction (RemoteNodeRow × OutboundFederationIdentity) := do
  .require settings.enabled (.forbidden federationDisabled)
  .require (actor.isLabAdmin ∨ actor.isRegularUser)
    (.forbidden "Only laboratory administrators and users can use federation")
  let some localLaboratoryId := actor.laboratoryId |
    .abort (.forbidden "Federation requires a laboratory-scoped user")
  let trust ← .read (fetchActiveTrust localLaboratoryId path.remoteNodeId path.remoteLaboratoryId)
  .require trust.isSome (.forbidden "No active federation trust between these laboratories")
  let remoteNode ← .fetch (·.remoteNodes.find? path.remoteNodeId)
    (.notFound "Remote federation node not found")
  .require (remoteNode.status = .active) (.forbidden "Remote federation node is not active")
  let user ← .fetch (·.users.find? actor.userId) (.forbidden "Current user not found")
  .require ((user.userType = .labAdmin ∨ user.userType = .user) ∧
      user.laboratoryId = some localLaboratoryId)
    (.forbidden "Current user is not allowed to use federation")
  let localNodeId ← .fetch (·.localNodeId) (.unexpected "This server has no federation node identity")
  return (remoteNode, {
    localNodeId, localLaboratoryId
    userId := user.userId
    username := user.username
    userType := user.userType.toStr
  })

variable [UuidFormat] [Cryptography]

-- A request on behalf of a user, which is sent at the time `now` to the remote laboratory.
def proxy (settings : FederationSettings) (actor : Actor) (path : ProxyPath) (method : Method)
    (pathAndQuery : PathAndQuery) (body : List UInt8) (now : Int) (nonce : String) :
    Transaction InboundRequest := do
  let (remoteNode, identity) ← authorizeProxy settings actor path
  return signedRequest method pathAndQuery body remoteNode identity now nonce

variable {settings : FederationSettings} {path : ProxyPath} {method : Method} {d : Database}
variable {pathAndQuery : PathAndQuery} {body : List UInt8} {now : Int} {nonce : String}
variable {remoteNode : RemoteNodeRow} {user : UserRow} {laboratoryId localNodeId : Uuid}

-- Users who are sent to a remote laboratory, by the name of their account.
structure Proxied (d : Database) (user : UserRow) (laboratoryId : Uuid) : Prop where
  mem : d.users.find? user.userId = some user
  userType : user.userType = .labAdmin ∨ user.userType = .user
  laboratoryId : user.laboratoryId = some laboratoryId

def UserRow.outbound (user : UserRow) (localNodeId laboratoryId : Uuid) :
    OutboundFederationIdentity where
  localNodeId := localNodeId
  localLaboratoryId := laboratoryId
  userId := user.userId
  username := user.username
  userType := user.userType.toStr

theorem run_proxy (he : settings.enabled) (hu : Proxied d user laboratoryId)
    (ht : (fetchActiveTrust laboratoryId path.remoteNodeId path.remoteLaboratoryId d).isSome)
    (hn : d.remoteNodes.find? path.remoteNodeId = some remoteNode)
    (ha : remoteNode.status = .active) (hl : d.localNodeId = some localNodeId) :
    (proxy settings ⟨user.userId, user.userType, user.laboratoryId⟩ path method pathAndQuery body now
      nonce).run d = .ok (signedRequest method pathAndQuery body remoteNode
        (UserRow.outbound user localNodeId laboratoryId) now nonce, d) := by
  have hr : Actor.isLabAdmin ⟨user.userId, user.userType, some laboratoryId⟩ ∨
      Actor.isRegularUser ⟨user.userId, user.userType, some laboratoryId⟩ := by
    simpa [Actor.isLabAdmin, Actor.isRegularUser] using hu.userType
  suffices hw : (proxy settings ⟨user.userId, user.userType, user.laboratoryId⟩ path method
      pathAndQuery body now nonce).wp (fun _ => True) (fun _ => False) (fun a d' =>
        a = signedRequest method pathAndQuery body remoteNode
          (UserRow.outbound user localNodeId laboratoryId) now nonce ∧ d' = d) d by
    obtain ⟨_, _, hr, rfl, rfl⟩ := wp_total hw
    exact hr
  simp only [proxy, authorizeProxy, hu.laboratoryId, wp_bind, wp_require, wp_read, wp_fetch, pure_def,
    wp_done, he, hr, ht, hn, ha, hu.mem, hl, hu.userType, Option.some.injEq, forall_eq',
    true_implies, not_true_eq_false, false_implies, and_true, and_self, reduceCtorEq]
  rfl

-- Only laboratories with a trust send requests.
theorem wlp_proxy {actor : Actor} : (proxy settings actor path method pathAndQuery body now nonce).wlp
    (fun request d' => d' = d ∧ ∃ laboratoryId localNodeId remoteNode user,
      actor.laboratoryId = some laboratoryId ∧ d.localNodeId = some localNodeId ∧
      (fetchActiveTrust laboratoryId path.remoteNodeId path.remoteLaboratoryId d).isSome ∧
      request = signedRequest method pathAndQuery body remoteNode
        (UserRow.outbound user localNodeId laboratoryId) now nonce) d := by
  simp only [proxy, authorizeProxy, wlp, wp_bind, wp_require, implies_true, and_true]
  intro _ _
  cases hl : actor.laboratoryId
  case none => trivial
  case some laboratoryId =>
    simp only [wp_bind, wp_read, wp_require, wp_fetch, implies_true, and_true, pure_def, wp_done,
      true_and, Option.some.injEq]
    intro ht remoteNode _ _ user _ _ localNodeId hi
    exact ⟨laboratoryId, localNodeId, remoteNode, user, rfl, hi, ht, rfl⟩

end Federation

end LabInventory
