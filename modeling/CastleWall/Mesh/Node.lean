import CastleWall.Mesh.Guardian
import CastleWall.Mesh.Roster
import CastleWall.Mesh.LocalState

/-! # A node of the mesh

`mesh/lifecycle/mesh-node.ts`: what a node does with an inbound broadcast, a sync response it asked for, a drop-out
sweep and the operations of its operator. Every function also tells what it did, in order; the runs below are read
off these marks. -/

namespace CastleWall.Mesh

open Text Cognitive.StateStore Custody
open Outcome (require)

structure ReceivedEventLog where
  (eventType emitterNode emitterPrincipal : String)
  monotonicSeq : Int
  eventId : String
  receivedAt : Int

structure MeshNode where
  (nodeId fortressId : String)
  systemPrincipalId : Option String
  pinnedMaster : FortressMasterPublicKey
  nodePrivateKey : Option (List UInt8)
  certificate : Option NodeIdentityCertificate
  /-- The counter `envelope_monotonic_seq`. -/
  envelopeMonotonicSeq : Int
  roster : NodeRoster
  policyBundle : PolicyBundleStore
  locatorTable : LocatorTableStore
  lifecycleLog : NodeLifecycleEventLog
  principalRoster : OrderedMap String PrincipalCertificate
  lastReceivedMonotonicSeq : OrderedMap String Int
  guardianRoster : Option GuardianRoster
  outstandingSyncRequests : OrderedMap String Int
  receivedLog : List ReceivedEventLog

inductive Channel where
  | broadcast
  | sync

inductive Mark where
  /-- An event was dealt with, refused or not: the node before and after. -/
  | delivered (channel : Channel) (nowMs : Int) (before : MeshNode) (evt : SignedEvent Payload) (after : MeshNode)
  /-- The envelope of an emitter was dispatched, applied or appended. -/
  | accepted (emitterNode eventId : String)
  /-- A policy or locator event of a sync response is applied. -/
  | tabled (before : MeshNode) (evt : SignedEvent Payload)
  /-- `admitRevoke` returned `admitted`; the channel of a revoke that came from a peer. -/
  | admittedRevoke (nowMs : Int) (before : MeshNode) (rev : SignedEvent Payload) (freshness : FreshnessMode)
    (via : Option Channel)

def SignedEvent.acceptedMark {π : Type} (evt : SignedEvent π) : Mark := .accepted evt.emitterNode evt.eventId

def Payload.asJoin : Payload → Option NodeJoinPayload
  | .nodeJoin p => some p
  | _ => none

def Payload.asRevoke : Payload → Option NodeRevokePayload
  | .nodeRevoke p => some p
  | _ => none

def Payload.asHeartbeat : Payload → Option HeartbeatPayload
  | .heartbeat p => some p
  | _ => none

namespace MeshNode

section Verification

variable (env : MeshEnv) (nowMs : Int) (node : MeshNode)

/-- Revoked and expired nodes are not looked up. -/
def verifyOrThrow {π : Type} [WirePayload π] (evt : SignedEvent π) : Except MeshRefusal (SignedEvent π) :=
  (verifySignedEvent env nowMs evt
    { pinnedMasterPubkey := node.pinnedMaster
      lookupNodeCert := node.roster.lookupActiveNodeCert
      lookupPrincipalCert := node.principalRoster.get }).map (·.event)

/-- The certificate the event carries is looked up in front of the roster, whatever the presence of its node. -/
def verifyNodeJoinBeforeRosterMutation (evt : SignedEvent Payload) : Except MeshRefusal NodeJoinPayload := do
  let join ← orRefuse evt.payload.asJoin .malformedPayload
  let certificate := join.certificate
  let issuerPrincipalCert ← orRefuse (node.principalRoster.get certificate.parentChain.principalId) .unknownIssuer
  verifyCertChain env nowMs certificate issuerPrincipalCert node.pinnedMaster
  let _ ← verifySignedEvent env nowMs evt
    { pinnedMasterPubkey := node.pinnedMaster
      lookupNodeCert := fun id =>
        if id=certificate.nodeId then some certificate else node.roster.lookupActiveNodeCert id
      lookupPrincipalCert := node.principalRoster.get }
  return join

def enforceReceivedMonotonicSeq (evt : SignedEvent Payload) : Except MeshRefusal MeshNode := do
  require ((node.lastReceivedMonotonicSeq.get evt.emitterNode).all fun last => last < evt.monotonicSeq) .rollbackDetected
  return { node with
    lastReceivedMonotonicSeq := node.lastReceivedMonotonicSeq.set evt.emitterNode evt.monotonicSeq }

end Verification

section Revoke

variable (env : MeshEnv) (nowMs : Int) (node : MeshNode)

def guardianSignature (roster : GuardianRoster) (sig : QuorumSignature) : Except MeshRefusal GuardianSignature := do
  let guardian ← orRefuse (roster.guardians.find? fun g => g.publicKey=sig.guardianPubkey) .unknownGuardianKey
  return ⟨guardian.guardianId,sig.signature⟩

def assertNodeRevokePayloadQuorumAuthorized (payload : NodeRevokePayload) (freshness : FreshnessMode) :
    Except MeshRefusal Unit := do
  let quorumSignatures := payload.quorumSignatures.getD []
  require (quorumSignatures≠[]) .missingRevokeAuthority
  let quorumContext ← orRefuse payload.quorumContext .unwindowedQuorum
  let roster ← orRefuse node.guardianRoster .noGuardianRoster
  let context ← parseGuardianRevokeQuorumContext env quorumContext
  assertQuorumContextFresh env context freshness
  let signatures ← quorumSignatures.mapM (guardianSignature roster)
  verifyGuardianQuorum env
    (buildGuardianRevokeQuorumInput context payload.nodeId payload.reason node.fortressId)
    { rosterVersion := roster.version, signatures } roster

def assertNodeRevokeAuthorized (evt : SignedEvent Payload) (freshness : FreshnessMode) : Except MeshRefusal Unit := do
  let payload := evt.payload.asRevoke
  require ((payload.bind (·.quorumContext)).isSome → (payload.bind (·.quorumSignatures)).getD []≠[])
    .orphanQuorumContext
  if (truthy evt.principalSignature).isSome then return ()
  else
    match payload with
    | some payload => node.assertNodeRevokePayloadQuorumAuthorized env payload freshness
    | none => .error .missingRevokeAuthority

def revokeAuthorizationKey (rev : SignedEvent Payload) : Except MeshRefusal String :=
  let target := rev.payload.nodeId.getD "undefined"
  match truthy rev.principalSignature with
  | some signature => .ok (principalAuthorizationKey env target signature)
  | none =>
    match rev.payload.asRevoke.bind (·.quorumContext) with
    | some context => .ok (quorumAuthorizationKey target context.ceremonyId)
    | none => .error .missingRevokeAuthority

def admitRevoke (rev : SignedEvent Payload) (freshness : FreshnessMode) (via : Option Channel) :
    Except MeshRefusal (MeshNode × List Mark) := do
  node.assertNodeRevokeAuthorized env rev freshness
  let target := rev.payload.nodeId
  let authKey ← revokeAuthorizationKey env rev
  if node.lifecycleLog.hasRetainedRevokeAuthorization authKey then
    require (target.bind node.roster.presenceOf=some .revoked) .revokeAfterReadmission
    return (node,[])
  else
    return ({ node with
      lifecycleLog := node.lifecycleLog.appendRevoke rev target authKey
      roster := node.roster.markRevoked target nowMs },[.admittedRevoke nowMs node rev freshness via])

end Revoke

section Broadcast

variable (env : MeshEnv) (nowMs : Int) (node : MeshNode) (evt : SignedEvent Payload)

def appendLifecycle : MeshNode :=
  { node with lifecycleLog := node.lifecycleLog.append evt }

def dispatch : MeshNode × List Mark :=
  match evt.eventType with
  | "heartbeat" => ({ node with roster := node.roster.recordHeartbeat evt.emitterNode nowMs evt.payload.asHeartbeat },[])
  | "policy_update" => ({ node with policyBundle := (node.policyBundle.upsert env nowMs evt).1 },[])
  | "locator_update" => ({ node with locatorTable := (node.locatorTable.upsert evt).1 },[])
  | "node_join" =>
    match evt.payload.asJoin.map fun join => node.roster.add join.certificate nowMs with
    | some (.ok roster) => (appendLifecycle { node with roster } evt,[])
    | _ => (node,[])
  | "node_leave" => (appendLifecycle { node with roster := node.roster.markLeft evt.payload.nodeId nowMs } evt,[])
  | "node_revoke" =>
    match node.admitRevoke env nowMs evt (.strict nowMs) (some .broadcast) with
    | .ok result => result
    | .error _ => (node,[])
  | "canonical_audit_change" => (node.appendLifecycle evt,[])
  | "master_rotation" => (node.appendLifecycle evt,[])
  | "node_attestation_refresh" => (node.appendLifecycle evt,[])
  | _ => (node,[])

/-- The certificate of a join is in the roster before its envelope and its sequence number are checked. -/
def admitJoin : Except MeshRefusal (MeshNode × List Mark) :=
  if evt.eventType = "node_join" then do
    let join ← node.verifyNodeJoinBeforeRosterMutation env nowMs evt
    let roster ← node.roster.add join.certificate nowMs
    return ({ node with roster },[evt.acceptedMark])
  else .ok (node,[])

def recordReceived : MeshNode :=
  { node with
    receivedLog := node.receivedLog ++
      [⟨evt.eventType,evt.emitterNode,evt.emitterPrincipal,evt.monotonicSeq,evt.eventId,nowMs⟩] }

def receiveVerified : MeshNode × List Mark :=
  match node.verifyOrThrow env nowMs evt >>= fun _ => node.enforceReceivedMonotonicSeq evt with
  | .error _ => (node,[])
  | .ok checked =>
    let result := (checked.recordReceived nowMs evt).dispatch env nowMs evt
    (result.1,evt.acceptedMark::result.2)

def handleIncomingBroadcast : MeshNode × List Mark :=
  match node.admitJoin env nowMs evt with
  | .error _ => (node,[.delivered .broadcast nowMs node evt node])
  | .ok joined =>
    let result := joined.1.receiveVerified env nowMs evt
    (result.1,.delivered .broadcast nowMs node evt result.1::(joined.2++result.2))

end Broadcast

end MeshNode

end CastleWall.Mesh
