import CastleWall.Mesh.Node

/-! # Sync responses, the operator and runs

The unicast half of `mesh/lifecycle/mesh-node.ts`, the operations its operator calls, and the runs of a node over
all of these. -/

namespace CastleWall.Mesh

open Text Cognitive.StateStore Custody
open Outcome (require)

inductive SyncKind where
  | initialSync
  | deltaSync
  | agentStateTransfer
deriving DecidableEq

def SyncKind.text : SyncKind → String
  | .initialSync => "initial_sync"
  | .deltaSync => "delta_sync"
  | .agentStateTransfer => "agent_state_transfer"

/-- `rest` are the fields `applySync` does not read. -/
structure SyncResponsePayload where
  kind : SyncKind
  requestId : Option String
  (nodeLifecycleEvents policyUpdates locatorUpdates : Option (List (SignedEvent Payload)))
  rest : List (String × Json)

def SignedEvent.value (evt : SignedEvent Payload) : Json :=
  match evt.body with
  | .obj fields =>
    .obj (Json.ofFields (fields++defined [("node_signature",some (.str evt.nodeSignature)),
      ("principal_signature",evt.principalSignature.map .str)]))
  | body => body

def SyncResponsePayload.value (payload : SyncResponsePayload) : Json :=
  let events := fun evts : Option (List (SignedEvent Payload)) => evts.map fun evts => Json.arr (evts.map (·.value))
  .obj (Json.ofFields (defined [("kind",some (.str payload.kind.text)),("request_id",payload.requestId.map .str),
    ("node_lifecycle_events",events payload.nodeLifecycleEvents),("policy_updates",events payload.policyUpdates),
    ("locator_updates",events payload.locatorUpdates)]++payload.rest))

instance : WirePayload SyncResponsePayload := ⟨SyncResponsePayload.value⟩

def syncRequestIdExpiryMs : Int := 10 * 60 * 1000

def maxOutstandingSyncRequests : Nat := 64

namespace MeshNode

section Sync

variable (env : MeshEnv) (nowMs : Int) (node : MeshNode)

def registerOutstandingSyncRequest (requestId : String) : MeshNode :=
  let live := node.outstandingSyncRequests.filter fun _ expiry => decide (nowMs < expiry)
  let kept := live.drop (live.entries.length+1 - maxOutstandingSyncRequests)
  { node with outstandingSyncRequests := kept.set requestId (nowMs+syncRequestIdExpiryMs) }

/-- A match consumes the id; an id that has expired does not correlate. -/
def consumeOutstandingSyncRequest (requestId : Option String) : MeshNode × Bool :=
  match requestId with
  | none => (node,false)
  | some id =>
    match node.outstandingSyncRequests.get id with
    | none => (node,false)
    | some expiry =>
      ({ node with outstandingSyncRequests := node.outstandingSyncRequests.erase id },decide (nowMs < expiry))

/-- `authenticatedPeer` throws for a reserved id. -/
def authenticatedPeer (nodeId : String) : Except MeshRefusal Unit :=
  require (isReservedNodeId nodeId=false) .reservedNodeId

def admitSyncEvent (evt : SignedEvent Payload) : Except MeshRefusal (MeshNode × List Mark) :=
  if evt.eventType = "node_join" then do
    let join ← node.verifyNodeJoinBeforeRosterMutation env nowMs evt
    authenticatedPeer evt.emitterNode
    let roster ← node.roster.add join.certificate nowMs
    return (appendLifecycle { node with roster } evt,[evt.acceptedMark])
  else do
    let _ ← node.verifyOrThrow env nowMs evt
    authenticatedPeer evt.emitterNode
    if evt.eventType = "node_revoke" then
      let effectiveAt := (evt.payload.asRevoke.map (·.effectiveAt)).getD ""
      let result ← node.admitRevoke env nowMs evt (.syncAnchored nowMs effectiveAt) (some .sync)
      return (result.1,evt.acceptedMark::result.2)
    else if evt.eventType = "node_leave" then
      let appended := node.appendLifecycle evt
      return ({ appended with roster := appended.roster.markLeft evt.payload.nodeId nowMs },[evt.acceptedMark])
    else return (node.appendLifecycle evt,[evt.acceptedMark])

def applySyncEvent (evt : SignedEvent Payload) : MeshNode × List Mark :=
  match node.admitSyncEvent env nowMs evt with
  | .error _ => (node,[.delivered .sync nowMs node evt node])
  | .ok result => (result.1,.delivered .sync nowMs node evt result.1::result.2)

def applySyncEvents (node : MeshNode) : List (SignedEvent Payload) → MeshNode × List Mark
  | [] => (node,[])
  | evt::evts =>
    let first := node.applySyncEvent env nowMs evt
    let rest := applySyncEvents first.1 evts
    (rest.1,first.2++rest.2)

def applyPolicy (evt : SignedEvent Payload) : MeshNode :=
  { node with policyBundle := (node.policyBundle.upsert env nowMs evt).1 }

def applyLocator (evt : SignedEvent Payload) : MeshNode :=
  { node with locatorTable := (node.locatorTable.upsert evt).1 }

/-- `applySyncResponse` over one table. -/
def applyTable (apply : MeshNode → SignedEvent Payload → MeshNode) (node : MeshNode) :
    List (SignedEvent Payload) → MeshNode × List Mark
  | [] => (node,[])
  | evt::evts =>
    let rest := applyTable apply (apply node evt) evts
    (rest.1,.tabled node evt::evt.acceptedMark::rest.2)

def verifies (evt : SignedEvent Payload) : Bool := (node.verifyOrThrow env nowMs evt).isOk

/-- The two tables are verified before the lifecycle events are applied, and applied after them. -/
def applySync (payload : SyncResponsePayload) : MeshNode × List Mark :=
  let policyUpdates := (payload.policyUpdates.getD []).filter (node.verifies env nowMs)
  let locatorUpdates := (payload.locatorUpdates.getD []).filter (node.verifies env nowMs)
  let lifecycle := node.applySyncEvents env nowMs (payload.nodeLifecycleEvents.getD [])
  let policies := applyTable (fun node evt => node.applyPolicy env nowMs evt) lifecycle.1 policyUpdates
  let locators := applyTable (fun node evt => node.applyLocator evt) policies.1 locatorUpdates
  (locators.1,lifecycle.2++(policies.2++locators.2))

/-- A response is applied only where it answers a request of this node. -/
def handleSyncResponse (evt : SignedEvent SyncResponsePayload) : MeshNode × List Mark :=
  match node.verifyOrThrow env nowMs evt with
  | .error _ => (node,[])
  | .ok _ =>
    let consumed := node.consumeOutstandingSyncRequest nowMs evt.payload.requestId
    if consumed.2 then
      let result := consumed.1.applySync env nowMs evt.payload
      (result.1,evt.acceptedMark::result.2)
    else (consumed.1,[])

def handleSyncRequest (evt : SignedEvent Payload) : MeshNode × List Mark :=
  match node.verifyOrThrow env nowMs evt with
  | .error _ => (node,[])
  | .ok _ => ({ node with envelopeMonotonicSeq := node.envelopeMonotonicSeq+1 },[evt.acceptedMark])

end Sync

structure Stamp where
  (eventId emittedAt : String)
  sent : Bool

structure RevokeParams where
  (targetNodeId reason : String)
  principalPrivateKey : Option (List UInt8)
  emitterPrincipal : Option String
  quorumSignatures : Option (List QuorumSignature)
  quorumContext : Option QuorumContextWire

section Operator

variable (env : MeshEnv) (nowMs : Int) (node : MeshNode)

def keyed : Bool := node.nodePrivateKey.isSome && node.certificate.isSome

variable (stamp : Stamp)

/-- The counter has moved also where the event is not sent. -/
def emitLifecycleEvent (eventType : String) (payload : Payload) (emitterPrincipal : Option String)
    (principalPrivateKey : Option (List UInt8)) : MeshNode × Except MeshRefusal (SignedEvent Payload) :=
  let monotonicSeq := node.envelopeMonotonicSeq+1
  let packed : Except MeshRefusal (SignedEvent Payload) := do
    let nodePrivateKey ← orRefuse node.nodePrivateKey .notKeyed
    let evt ← packSignedEvent env stamp.eventId stamp.emittedAt
      { eventType, emitterNode := node.nodeId
        emitterPrincipal := emitterPrincipal.getD (node.systemPrincipalId.getD "system")
        fortressId := node.fortressId, payload, monotonicSeq, nodePrivateKey, principalPrivateKey }
    require (stamp.sent=true) .transportFailed
    return evt
  ({ node with envelopeMonotonicSeq := monotonicSeq },packed)

/-- The part of `acceptJoinRequest` after the approver has issued a certificate. -/
def acceptApprovedJoin (certificate : NodeIdentityCertificate) (nonce : String) : MeshNode :=
  match node.roster.add certificate nowMs with
  | .error _ => node
  | .ok roster =>
    let emitted := { node with roster }.emitLifecycleEvent env stamp "node_join" (.nodeJoin ⟨certificate,nonce⟩)
      none none
    match emitted.2 with
    | .error _ => emitted.1
    | .ok evt => emitted.1.appendLifecycle evt

def revokePayload (effectiveAt : String) (params : RevokeParams) : NodeRevokePayload where
  nodeId := params.targetNodeId
  reason := params.reason
  effectiveAt
  quorumSignatures := params.quorumSignatures
  quorumContext :=
    if params.quorumSignatures.getD []=[] then none
    else params.quorumContext.map fun context => { context with inputSchema := guardianRevokeQuorumSchemaV2 }

/-- A quorum is checked before the event is broadcast; a principal's key only signs it. -/
def mayRevoke (payload : NodeRevokePayload) (params : RevokeParams) : Except MeshRefusal Unit := do
  require (node.keyed=true) .notKeyed
  require (params.principalPrivateKey.isSome ∨ params.quorumSignatures.getD []≠[]) .missingRevokeAuthority
  if params.principalPrivateKey.isNone then
    node.assertNodeRevokePayloadQuorumAuthorized env payload (.strict nowMs)

def revokePeer (params : RevokeParams) : MeshNode × List Mark :=
  let payload := revokePayload stamp.emittedAt params
  match node.mayRevoke env nowMs payload params with
  | .error _ => (node,[])
  | .ok _ =>
    let emitted := node.emitLifecycleEvent env stamp "node_revoke" (.nodeRevoke payload) params.emitterPrincipal
      params.principalPrivateKey
    match emitted.2 >>= fun evt => emitted.1.admitRevoke env nowMs evt (.strict nowMs) none with
    | .error _ => (emitted.1,[])
    | .ok result => result

def registerPrincipal (principal : PrincipalCertificate) : MeshNode :=
  { node with principalRoster := node.principalRoster.set principal.principalId principal }

def addToRoster (certificate : NodeIdentityCertificate) : MeshNode :=
  match node.roster.add certificate nowMs with
  | .error _ => node
  | .ok roster => { node with roster }

def admitPeerCertificate (certificate : NodeIdentityCertificate) (issuingPrincipalCert : PrincipalCertificate) :
    MeshNode :=
  match verifyCertChain env nowMs certificate issuingPrincipalCert node.pinnedMaster with
  | .error _ => node
  | .ok _ => (node.registerPrincipal issuingPrincipalCert).addToRoster nowMs certificate

def registerGuardianRoster (roster : GuardianRoster) : MeshNode :=
  match verifyGuardianRoster env roster node.pinnedMaster with
  | .error _ => node
  | .ok _ => { node with guardianRoster := some roster }

def installMasterRotation (newMaster : FortressMasterPublicKey) (reIssuedSelfCert : NodeIdentityCertificate)
    (newRootPrincipalCert : PrincipalCertificate) : MeshNode :=
  if newMaster.publicKey=node.pinnedMaster.publicKey then node
  else if reIssuedSelfCert.nodeId≠node.nodeId then node
  else if reIssuedSelfCert.parentChain.fortressMasterPubkey≠newMaster.publicKey then node
  else
    ({ node with pinnedMaster := newMaster, certificate := some reIssuedSelfCert }.registerPrincipal
      newRootPrincipalCert).addToRoster nowMs reIssuedSelfCert

def requestSyncFromPeer (requestId : String) : MeshNode :=
  if node.keyed then
    { node.registerOutstandingSyncRequest nowMs requestId with envelopeMonotonicSeq := node.envelopeMonotonicSeq+1 }
  else node

end Operator

inductive Input where
  | broadcast (nowMs : Int) (evt : SignedEvent Payload)
  | syncResponse (nowMs : Int) (evt : SignedEvent SyncResponsePayload)
  | syncRequest (nowMs : Int) (evt : SignedEvent Payload)
  | requestSyncFromPeer (nowMs : Int) (requestId : String)
  | checkDropouts (nowMs : Int)
  | acceptApprovedJoin (nowMs : Int) (stamp : Stamp) (certificate : NodeIdentityCertificate) (nonce : String)
  | revokePeer (nowMs : Int) (stamp : Stamp) (params : RevokeParams)
  | registerPrincipal (principal : PrincipalCertificate)
  | admitPeerCertificate (nowMs : Int) (certificate : NodeIdentityCertificate) (issuer : PrincipalCertificate)
  | registerGuardianRoster (roster : GuardianRoster)
  | installMasterRotation (nowMs : Int) (newMaster : FortressMasterPublicKey)
    (reIssuedSelfCert : NodeIdentityCertificate) (newRootPrincipalCert : PrincipalCertificate)

def step (env : MeshEnv) (node : MeshNode) : Input → MeshNode × List Mark
  | .broadcast nowMs evt => node.handleIncomingBroadcast env nowMs evt
  | .syncResponse nowMs evt => node.handleSyncResponse env nowMs evt
  | .syncRequest nowMs evt => node.handleSyncRequest env nowMs evt
  | .requestSyncFromPeer nowMs requestId => (node.requestSyncFromPeer nowMs requestId,[])
  | .checkDropouts nowMs => ({ node with roster := (node.roster.checkDropouts nowMs).1 },[])
  | .acceptApprovedJoin nowMs stamp certificate nonce =>
    (node.acceptApprovedJoin env nowMs stamp certificate nonce,[])
  | .revokePeer nowMs stamp params => node.revokePeer env nowMs stamp params
  | .registerPrincipal principal => (node.registerPrincipal principal,[])
  | .admitPeerCertificate nowMs certificate issuer => (node.admitPeerCertificate env nowMs certificate issuer,[])
  | .registerGuardianRoster roster => (node.registerGuardianRoster env roster,[])
  | .installMasterRotation nowMs newMaster reIssuedSelfCert newRootPrincipalCert =>
    (node.installMasterRotation nowMs newMaster reIssuedSelfCert newRootPrincipalCert,[])

def run (env : MeshEnv) (node : MeshNode) : List Input → MeshNode × List Mark
  | [] => (node,[])
  | input::inputs =>
    let first := node.step env input
    let rest := run env first.1 inputs
    (rest.1,first.2++rest.2)

def deliver (env : MeshEnv) (nowMs : Int) (node : MeshNode) (evt : SignedEvent Payload) : Channel → MeshNode
  | .broadcast => (node.handleIncomingBroadcast env nowMs evt).1
  | .sync => (node.applySyncEvent env nowMs evt).1

end MeshNode

/-- The clock a revoke is held against: that of the node, or on the sync path the time the revoke states. -/
def freshnessOf (nowMs : Int) (rev : SignedEvent Payload) : Option Channel → FreshnessMode
  | some .sync => .syncAnchored nowMs ((rev.payload.asRevoke.map (·.effectiveAt)).getD "")
  | _ => .strict nowMs

/-- An event was dealt with as its channel does, and a revoke that was admitted passed the assertion of its
authority in that very node, and the envelope check where it came from a peer. -/
def Mark.Sound (env : MeshEnv) : Mark → Prop
  | .delivered channel nowMs before evt after => after=before.deliver env nowMs evt channel
  | .admittedRevoke nowMs before rev freshness via =>
    before.assertNodeRevokeAuthorized env rev freshness=.ok () ∧ freshness=freshnessOf nowMs rev via ∧
      (via.isSome=true → (before.verifyOrThrow env nowMs rev).isOk=true)
  | _ => True

section Marks

variable {env : MeshEnv} {nowMs : Int} {node : MeshNode} {evt : SignedEvent Payload}

theorem sound_accepted {π : Type} (evt : SignedEvent π) : evt.acceptedMark.Sound env := trivial

theorem isOk_of_eq_ok {α : Type} {x : Except MeshRefusal α} {a : α} (h : x=.ok a) : x.isOk=true := by
  rw [h]
  rfl

theorem admitRevoke_sound {freshness : FreshnessMode} {via : Option Channel} {result : MeshNode × List Mark}
    (h : node.admitRevoke env nowMs evt freshness via=.ok result)
    (hfre : freshness=freshnessOf nowMs evt via)
    (hver : via.isSome=true → (node.verifyOrThrow env nowMs evt).isOk=true) :
    ∀ m∈result.2, m.Sound env := by
  unfold MeshNode.admitRevoke at h
  obtain ⟨_,haut,h⟩ := Outcome.bind_ok h
  obtain ⟨authKey,-,h⟩ := Outcome.bind_ok h
  split at h
  · simp only [Outcome.require_bind_eq_ok] at h
    cases h.2
    simp
  · cases h
    simpa using ⟨haut,hfre,hver⟩

theorem dispatch_sound (hver : (node.verifyOrThrow env nowMs evt).isOk=true) :
    ∀ m∈(node.dispatch env nowMs evt).2, m.Sound env := by
  unfold MeshNode.dispatch
  split <;> try simp only [List.not_mem_nil,false_imp_iff,implies_true]
  · split <;> simp only [List.not_mem_nil,false_imp_iff,implies_true]
  · cases hadm : node.admitRevoke env nowMs evt (.strict nowMs) (some .broadcast) with
    | error refusal => simp
    | ok result => exact admitRevoke_sound hadm rfl fun _ => hver

theorem receiveVerified_sound : ∀ m∈(node.receiveVerified env nowMs evt).2, m.Sound env := by
  unfold MeshNode.receiveVerified
  cases hche : node.verifyOrThrow env nowMs evt >>= fun _ => node.enforceReceivedMonotonicSeq evt with
  | error refusal => simp
  | ok checked =>
    obtain ⟨verified,hver,hseq⟩ := Outcome.bind_ok hche
    -- the checks leave what envelopes are verified against as it was
    have hsam : (checked.recordReceived nowMs evt).verifyOrThrow env nowMs evt=node.verifyOrThrow env nowMs evt := by
      simp only [MeshNode.enforceReceivedMonotonicSeq,Outcome.require_bind_eq_ok] at hseq
      cases hseq.2
      rfl
    rw [List.forall_mem_cons]
    refine ⟨sound_accepted evt,dispatch_sound ?_⟩
    rw [hsam]
    exact isOk_of_eq_ok hver

theorem handleIncomingBroadcast_sound : ∀ m∈(node.handleIncomingBroadcast env nowMs evt).2, m.Sound env := by
  have hdel : (node.handleIncomingBroadcast env nowMs evt).1=node.deliver env nowMs evt .broadcast := rfl
  unfold MeshNode.handleIncomingBroadcast at hdel ⊢
  cases hjoi : node.admitJoin env nowMs evt with
  | error refusal =>
    rw [hjoi] at hdel
    simp only [List.mem_singleton,forall_eq]
    exact hdel
  | ok joined =>
    rw [hjoi] at hdel
    rw [List.forall_mem_cons]
    refine ⟨hdel,?_⟩
    rw [List.forall_mem_append]
    refine ⟨?_,receiveVerified_sound⟩
    unfold MeshNode.admitJoin at hjoi
    split at hjoi
    · obtain ⟨join,-,hjoi⟩ := Outcome.bind_ok hjoi
      obtain ⟨roster,-,hjoi⟩ := Outcome.bind_ok hjoi
      cases hjoi
      simpa using sound_accepted evt
    · cases hjoi
      simp

theorem admitSyncEvent_sound {result : MeshNode × List Mark} (h : node.admitSyncEvent env nowMs evt=.ok result) :
    ∀ m∈result.2, m.Sound env := by
  unfold MeshNode.admitSyncEvent at h
  split at h
  · obtain ⟨join,-,h⟩ := Outcome.bind_ok h
    obtain ⟨-,-,h⟩ := Outcome.bind_ok h
    obtain ⟨roster,-,h⟩ := Outcome.bind_ok h
    cases h
    simpa using sound_accepted evt
  · obtain ⟨verified,hver,h⟩ := Outcome.bind_ok h
    obtain ⟨-,-,h⟩ := Outcome.bind_ok h
    split at h
    · obtain ⟨admitted,hadm,h⟩ := Outcome.bind_ok h
      cases h
      rw [List.forall_mem_cons]
      refine ⟨sound_accepted evt,?_⟩
      exact admitRevoke_sound hadm rfl fun _ => isOk_of_eq_ok hver
    · split at h
      · cases h
        simpa using sound_accepted evt
      · cases h
        simpa using sound_accepted evt

theorem applySyncEvent_sound : ∀ m∈(node.applySyncEvent env nowMs evt).2, m.Sound env := by
  have hdel : (node.applySyncEvent env nowMs evt).1=node.deliver env nowMs evt .sync := rfl
  unfold MeshNode.applySyncEvent at hdel ⊢
  cases hadm : node.admitSyncEvent env nowMs evt with
  | error refusal =>
    rw [hadm] at hdel
    simp only [List.mem_singleton,forall_eq]
    exact hdel
  | ok result =>
    rw [hadm] at hdel
    rw [List.forall_mem_cons]
    exact ⟨hdel,admitSyncEvent_sound hadm⟩

theorem applySyncEvents_sound {evts : List (SignedEvent Payload)} :
    ∀ m∈(node.applySyncEvents env nowMs evts).2, m.Sound env := by
  induction evts generalizing node with
  | nil => simp [MeshNode.applySyncEvents]
  | cons evt evts ih =>
    simp only [MeshNode.applySyncEvents,List.forall_mem_append]
    exact ⟨applySyncEvent_sound,ih⟩

theorem applyTable_sound {apply : MeshNode → SignedEvent Payload → MeshNode} {evts : List (SignedEvent Payload)} :
    ∀ m∈(MeshNode.applyTable apply node evts).2, m.Sound env := by
  induction evts generalizing node with
  | nil => simp [MeshNode.applyTable]
  | cons evt evts ih =>
    simp only [MeshNode.applyTable,List.forall_mem_cons]
    exact ⟨trivial,sound_accepted evt,ih⟩

theorem handleSyncResponse_sound {evt : SignedEvent SyncResponsePayload} :
    ∀ m∈(node.handleSyncResponse env nowMs evt).2, m.Sound env := by
  unfold MeshNode.handleSyncResponse
  split
  · simp
  · simp only
    split
    · simp only [MeshNode.applySync,List.forall_mem_cons,List.forall_mem_append]
      exact ⟨sound_accepted evt,applySyncEvents_sound,applyTable_sound,applyTable_sound⟩
    · simp

theorem revokePeer_sound {stamp : MeshNode.Stamp} {params : MeshNode.RevokeParams} :
    ∀ m∈(node.revokePeer env nowMs stamp params).2, m.Sound env := by
  simp only [MeshNode.revokePeer]
  split
  · simp
  · split
    · simp
    · rename_i result hres
      obtain ⟨evt,-,hadm⟩ := Outcome.bind_ok hres
      exact admitRevoke_sound hadm rfl (by simp)

theorem step_sound {input : MeshNode.Input} : ∀ m∈(node.step env input).2, m.Sound env := by
  cases input with
  | broadcast nowMs evt => exact handleIncomingBroadcast_sound
  | syncResponse nowMs evt => exact handleSyncResponse_sound
  | syncRequest nowMs evt =>
    simp only [MeshNode.step,MeshNode.handleSyncRequest]
    split
    · simp
    · simpa using sound_accepted evt
  | revokePeer nowMs stamp params => exact revokePeer_sound
  | requestSyncFromPeer => simp [MeshNode.step]
  | checkDropouts => simp [MeshNode.step]
  | acceptApprovedJoin => simp [MeshNode.step]
  | registerPrincipal => simp [MeshNode.step]
  | admitPeerCertificate => simp [MeshNode.step]
  | registerGuardianRoster => simp [MeshNode.step]
  | installMasterRotation => simp [MeshNode.step]

theorem run_sound {inputs : List MeshNode.Input} : ∀ m∈(node.run env inputs).2, m.Sound env := by
  induction inputs generalizing node with
  | nil => simp [MeshNode.run]
  | cons input inputs ih =>
    simp only [MeshNode.run,List.forall_mem_append]
    exact ⟨step_sound,ih⟩

end Marks

end CastleWall.Mesh
