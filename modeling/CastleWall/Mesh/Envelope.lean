import CastleWall.Mesh.TrustRoot

/-! # Signed events

`mesh/envelope.ts` and the payloads of `mesh/types.ts`. An event is signed by the key of the node that emits
it, and by that of a principal where one authored it. -/

namespace CastleWall.Mesh

open Text Cognitive.StateStore Custody
open Outcome (require)

inductive AdvertisedState where
  | active
  | draining
  | gatedClosed
deriving DecidableEq

def AdvertisedState.text : AdvertisedState → String
  | .active => "active"
  | .draining => "draining"
  | .gatedClosed => "gated_closed"

structure HeartbeatPayload where
  nodeState : AdvertisedState
  policyVersionVector : List (String × Int)
  (auditSeq agentCount uptimeSeconds : Int)

structure PolicyUpdatePayload where
  agentId : String
  policyVersion : Int
  (validFrom validUntil policyBlob : String)
  parentVersion : Option Int

structure LocatorUpdatePayload where
  (agentId canonicalNode : String)
  locatorVersion : Int
  lastMigrationAt : String
  fallbackNodes : Option (List String)
  hostingPrincipal : String

structure NodeJoinPayload where
  certificate : NodeIdentityCertificate
  bootstrapTokenRef : String

inductive LeaveReason where
  | graceful
  | operatorDirected

def LeaveReason.text : LeaveReason → String
  | .graceful => "graceful"
  | .operatorDirected => "operator_directed"

structure NodeLeavePayload where
  nodeId : String
  reason : LeaveReason
  drainDeadline : Option String

structure QuorumSignature where
  (guardianPubkey signature : String)

structure QuorumContextWire where
  (inputSchema ceremonyId initiatedAt expiresAt : String)

structure NodeRevokePayload where
  (nodeId reason effectiveAt : String)
  quorumSignatures : Option (List QuorumSignature)
  quorumContext : Option QuorumContextWire

/-- A payload of the shapes the handlers read; the event type beside it is a field of its own, and a handler
that is given another shape finds the fields it reads undefined. -/
inductive Payload where
  | heartbeat (payload : HeartbeatPayload)
  | policyUpdate (payload : PolicyUpdatePayload)
  | locatorUpdate (payload : LocatorUpdatePayload)
  | nodeJoin (payload : NodeJoinPayload)
  | nodeLeave (payload : NodeLeavePayload)
  | nodeRevoke (payload : NodeRevokePayload)
  | other (value : Json)

def NodeIdentityCertificate.value (cert : NodeIdentityCertificate) : Json :=
  objectOf [("certificate_version",cert.certificateVersion.map .str),("node_id",some (.str cert.nodeId)),
    ("node_pubkey",some (.str cert.nodePubkey)),("node_mode",some (.str cert.nodeMode.text)),
    ("fortress_id",some (.str cert.fortressId)),("joined_at",some (.str cert.joinedAt)),
    ("expires_at",cert.expiresAt.map .str),("capabilities",some (.num cert.capabilities)),
    ("parent_chain",some cert.parentChain.value),("tee_attestation_hash",cert.teeAttestationHash.map .str),
    ("principal_signature",some (.str cert.principalSignature)),
    ("master_signature",cert.masterSignature.map .str),("delegated_grants",cert.delegatedGrants.map .arr),
    ("attestation_lineage_chain",cert.attestationLineageChain.map .arr)]

def QuorumSignature.value (s : QuorumSignature) : Json :=
  objectOf [("guardian_pubkey",some (.str s.guardianPubkey)),("signature",some (.str s.signature))]

def QuorumContextWire.value (context : QuorumContextWire) : Json :=
  objectOf [("input_schema",some (.str context.inputSchema)),("ceremony_id",some (.str context.ceremonyId)),
    ("initiated_at",some (.str context.initiatedAt)),("expires_at",some (.str context.expiresAt))]

def Payload.value : Payload → Json
  | .heartbeat p =>
    objectOf [("node_state",some (.str p.nodeState.text)),
      ("policy_version_vector",some (objectOf (p.policyVersionVector.map fun f => (f.1,some (.num f.2))))),
      ("audit_seq",some (.num p.auditSeq)),("agent_count",some (.num p.agentCount)),
      ("uptime_seconds",some (.num p.uptimeSeconds))]
  | .policyUpdate p =>
    objectOf [("agent_id",some (.str p.agentId)),("policy_version",some (.num p.policyVersion)),
      ("valid_from",some (.str p.validFrom)),("valid_until",some (.str p.validUntil)),
      ("policy_blob",some (.str p.policyBlob)),("parent_version",p.parentVersion.map .num)]
  | .locatorUpdate p =>
    objectOf [("agent_id",some (.str p.agentId)),("canonical_node",some (.str p.canonicalNode)),
      ("locator_version",some (.num p.locatorVersion)),("last_migration_at",some (.str p.lastMigrationAt)),
      ("fallback_nodes",p.fallbackNodes.map fun nodes => .arr (nodes.map .str)),
      ("hosting_principal",some (.str p.hostingPrincipal))]
  | .nodeJoin p =>
    objectOf [("certificate",some p.certificate.value),("bootstrap_token_ref",some (.str p.bootstrapTokenRef))]
  | .nodeLeave p =>
    objectOf [("node_id",some (.str p.nodeId)),("reason",some (.str p.reason.text)),
      ("drain_deadline",p.drainDeadline.map .str)]
  | .nodeRevoke p =>
    objectOf [("node_id",some (.str p.nodeId)),("reason",some (.str p.reason)),
      ("effective_at",some (.str p.effectiveAt)),
      ("quorum_signatures",p.quorumSignatures.map fun signatures => .arr (signatures.map (·.value))),
      ("quorum_context",p.quorumContext.map (·.value))]
  | .other value => value

/-- `payload.node_id` where the payload has one. -/
def Payload.nodeId : Payload → Option String
  | .nodeLeave p => some p.nodeId
  | .nodeRevoke p => some p.nodeId
  | _ => none

structure SignedEvent (π : Type) where
  (protocolVersion eventType eventId emitterNode emitterPrincipal fortressId : String)
  causalParents : List String
  payload : π
  (payloadHash emittedAt : String)
  monotonicSeq : Int
  extensionEnvelope : List (String × Json)
  nodeSignature : String
  principalSignature : Option String

class WirePayload (π : Type) where
  value : π → Json

instance : WirePayload Payload := ⟨Payload.value⟩

section

variable {π : Type} [WirePayload π]

def SignedEvent.body (evt : SignedEvent π) : Json :=
  objectOf [("protocol_version",some (.str evt.protocolVersion)),("event_type",some (.str evt.eventType)),
    ("event_id",some (.str evt.eventId)),("emitter_node",some (.str evt.emitterNode)),
    ("emitter_principal",some (.str evt.emitterPrincipal)),("fortress_id",some (.str evt.fortressId)),
    ("causal_parents",some (.arr (evt.causalParents.map .str))),
    ("payload",some (WirePayload.value evt.payload)),("payload_hash",some (.str evt.payloadHash)),
    ("emitted_at",some (.str evt.emittedAt)),("monotonic_seq",some (.num evt.monotonicSeq)),
    ("extension_envelope",some (.obj evt.extensionEnvelope))]

def payloadHashOf (env : MeshEnv) (payload : π) : Except MeshRefusal String := do
  let bytes ← canonicalizeToBytes (WirePayload.value payload)
  return toBase64url (env.sha256 bytes)

end

def protocolVersion : String := "0.1"

def reservedEventTypePrefixes : List String :=
  ["EXTENSION_","cross_fortress_","multi_master_","cross_harness_approval_"]

def isReservedEventType (s : String) : Bool :=
  reservedEventTypePrefixes.any fun start => start.toList.isPrefixOf s.toList

def reservedExtensionEnvelopeKeys : List String :=
  ["cross_fortress_read_grant","cross_fortress_read_query","cross_fortress_read_response",
    "multi_master_policy_merge","audit_replication_full_n_way","auto_promote_canonical_audit",
    "agent_live_migration"]

def isReservedExtensionKey (key : String) : Bool := reservedExtensionEnvelopeKeys.contains key

structure PackParams (π : Type) where
  (eventType emitterNode emitterPrincipal fortressId : String)
  payload : π
  monotonicSeq : Int
  nodePrivateKey : List UInt8
  principalPrivateKey : Option (List UInt8)

def packSignedEvent {π : Type} [WirePayload π] (env : MeshEnv) (eventId emittedAt : String)
    (params : PackParams π) : Except MeshRefusal (SignedEvent π) := do
  require (isReservedEventType params.eventType=false) .reservedEventType
  let payloadHash ← payloadHashOf env params.payload
  let unsigned : SignedEvent π :=
    { protocolVersion, eventType := params.eventType, eventId, emitterNode := params.emitterNode
      emitterPrincipal := params.emitterPrincipal, fortressId := params.fortressId, causalParents := []
      payload := params.payload, payloadHash, emittedAt, monotonicSeq := params.monotonicSeq
      extensionEnvelope := [], nodeSignature := "", principalSignature := none }
  let bytes ← canonicalizeToBytes unsigned.body
  return { unsigned with
    nodeSignature := toBase64url (env.sign bytes params.nodePrivateKey)
    principalSignature := params.principalPrivateKey.map fun key => toBase64url (env.sign bytes key) }

structure VerifyContext where
  pinnedMasterPubkey : FortressMasterPublicKey
  lookupNodeCert : String → Option NodeIdentityCertificate
  lookupPrincipalCert : String → Option PrincipalCertificate
  requireMatchingFortress : Bool := true

structure VerifyResult (π : Type) where
  ok : Bool
  recognizedReservedExtensionKeys : List String
  event : SignedEvent π

section Verify

variable {π : Type} [WirePayload π] (env : MeshEnv) (nowMs : Int)

def orRefuse {α : Type} (value : Option α) (refusal : MeshRefusal) : Except MeshRefusal α :=
  match value with
  | some a => .ok a
  | none => .error refusal

/-- The principal's signature, under the certificate the context holds of the emitting principal. -/
def verifyPrincipalSignature (evt : SignedEvent π) (bytes : List UInt8) (principalCert : Option PrincipalCertificate) :
    Except MeshRefusal Unit :=
  match truthy evt.principalSignature, principalCert with
  | some signature, some cert =>
    require (env.signed signature bytes cert.principalPubkey=true) .envelopePrincipalSignatureInvalid
  | _, _ => .ok ()

def verifySignedEvent (evt : SignedEvent π) (ctx : VerifyContext) : Except MeshRefusal (VerifyResult π) := do
  require (evt.protocolVersion=protocolVersion) .unknownProtocolVersion
  require (ctx.requireMatchingFortress=true → evt.fortressId=ctx.pinnedMasterPubkey.fortressId)
    .envelopeFortressMismatch
  let freshPayloadHash ← payloadHashOf env evt.payload
  require (freshPayloadHash=evt.payloadHash) .payloadHashMismatch
  let nodeCert ← orRefuse (ctx.lookupNodeCert evt.emitterNode) .unknownEmitter
  require (hasReservedCapabilityBits nodeCert.capabilities=false) .reservedCapabilityBits
  let principalCert := ctx.lookupPrincipalCert evt.emitterPrincipal
  require ((truthy evt.principalSignature).isSome → principalCert.isSome) .unknownPrincipal
  let issuerPrincipalCert ← orRefuse (ctx.lookupPrincipalCert nodeCert.parentChain.principalId) .unknownIssuer
  verifyCertChain env nowMs nodeCert issuerPrincipalCert ctx.pinnedMasterPubkey
  let bytes ← canonicalizeToBytes evt.body
  require (env.signed evt.nodeSignature bytes nodeCert.nodePubkey=true) .nodeSignatureInvalid
  verifyPrincipalSignature env evt bytes principalCert
  require (isReservedEventType evt.eventType=false) .reservedEventType
  require (∀ field∈evt.extensionEnvelope, isReservedExtensionKey field.1=false) .reservedExtensionKey
  return { ok := true, recognizedReservedExtensionKeys := [], event := evt }

variable {env nowMs} {evt : SignedEvent π} {ctx : VerifyContext}

theorem orRefuse_eq_ok {α : Type} {value : Option α} {refusal : MeshRefusal} {a : α} :
    orRefuse value refusal=.ok a ↔ value=some a := by
  cases value with
  | none => simp [orRefuse]
  | some b => simp [orRefuse]

/-- The emitter's certificate is one the context holds, and a principal's signature on the event verifies under
the certificate the context holds of that principal. -/
theorem verifySignedEvent_ok {result : VerifyResult π} (h : verifySignedEvent env nowMs evt ctx=.ok result) :
    result.event=evt ∧ (∃ cert, ctx.lookupNodeCert evt.emitterNode=some cert) ∧
      ∀ signature, truthy evt.principalSignature=some signature →
        ∃ cert bytes, ctx.lookupPrincipalCert evt.emitterPrincipal=some cert ∧
          canonicalizeToBytes evt.body=.ok bytes ∧ env.signed signature bytes cert.principalPubkey=true := by
  unfold verifySignedEvent at h
  simp only [Outcome.require_bind_eq_ok] at h
  obtain ⟨-,-,h⟩ := h
  obtain ⟨hash,-,h⟩ := Outcome.bind_ok h
  simp only [Outcome.require_bind_eq_ok] at h
  obtain ⟨-,h⟩ := h
  obtain ⟨nodeCert,hcer,h⟩ := Outcome.bind_ok h
  simp only [Outcome.require_bind_eq_ok] at h
  obtain ⟨-,hpri,h⟩ := h
  obtain ⟨issuer,-,h⟩ := Outcome.bind_ok h
  obtain ⟨-,-,h⟩ := Outcome.bind_ok h
  obtain ⟨bytes,hbyt,h⟩ := Outcome.bind_ok h
  simp only [Outcome.require_bind_eq_ok] at h
  obtain ⟨-,h⟩ := h
  obtain ⟨_,hsid,h⟩ := Outcome.bind_ok h
  simp only [Outcome.require_bind_eq_ok] at h
  refine ⟨?_,⟨nodeCert,orRefuse_eq_ok.mp hcer⟩,?_⟩
  · obtain ⟨-,-,h⟩ := h
    cases h
    rfl
  · intro signature hsig
    rw [hsig] at hpri
    obtain ⟨cert,hloo⟩ := Option.isSome_iff_exists.mp (hpri rfl)
    simp only [verifyPrincipalSignature,hsig,hloo] at hsid
    exact ⟨cert,bytes,hloo,hbyt,Outcome.require_eq_ok.mp hsid⟩

end Verify

end CastleWall.Mesh
