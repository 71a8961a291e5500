import CastleWall.Mesh.Sync

/-! # Master rotations

`mesh/guardian/master-rotation.ts` and the receiving half of `mesh/recovery-flows/master-rotation.ts`: a quorum of
guardians hands a fortress over to a new master. A node learns of it by a broadcast with the quorum and by a
unicast with its own part of the new key material, in any order, and installs the rotation when it has both. -/

namespace CastleWall.Mesh

open Text Cognitive.StateStore Custody
open Outcome (require)
open IsoInstant (parseIsoInstantWithOffset)

structure MasterRotationPayload where
  oldMasterPubkey : String
  newMasterPubkey : FortressMasterPublicKey
  quorumSignatures : List QuorumSignature
  rotatedAt : String
  quorumContext : Option QuorumContextWire

/-- Why a rotation is refused; `mesh` are the refusals of the checks that other ceremonies share. -/
inductive RotationRefusal where
  | mesh (refusal : MeshRefusal)
  | oldMasterMismatch
  | newMasterFortressMismatch
  | noContext
  | rotatedAtNotIso
  | rotatedAtBeforeWindow
  | rotatedAtAfterWindow
  | unknownGuardian
  | wrongTarget
  | wrongFortress
  | malformedEnvelope
  | sealBroken
  | bundleMasterMismatch
  | bundleTimeMismatch
  | certificateOfOther
  | certChainMismatch
deriving DecidableEq

def guardianMasterRotationQuorumSchemaV2 : String := "sanctuary.guardian-master-rotation-quorum.v2"

def parseQuorumContextForSchema (env : MeshEnv) (raw : QuorumContextWire) (expectedSchema : String) :
    Except MeshRefusal ParsedQuorumContext := do
  require (raw.inputSchema=expectedSchema) .malformedQuorumContext
  require (isCeremonyId raw.ceremonyId=true) .malformedQuorumContext
  let initiatedAtMs ← orRefuse (parseIsoInstantWithOffset env.dateParse raw.initiatedAt) .malformedQuorumContext
  let expiresAtMs ← orRefuse (parseIsoInstantWithOffset env.dateParse raw.expiresAt) .malformedQuorumContext
  require (initiatedAtMs < expiresAtMs) .malformedQuorumContext
  return { inputSchema := raw.inputSchema, ceremonyId := raw.ceremonyId, initiatedAt := raw.initiatedAt
           expiresAt := raw.expiresAt, initiatedAtMs, expiresAtMs }

def parseMasterRotationQuorumContext (env : MeshEnv) (raw : QuorumContextWire) :
    Except MeshRefusal ParsedQuorumContext :=
  parseQuorumContextForSchema env raw guardianMasterRotationQuorumSchemaV2

/-- The lower bound is given the clock skew, the upper bound is not. -/
def assertRotatedAtWithinContext (env : MeshEnv) (context : ParsedQuorumContext) (rotatedAt : String) :
    Except RotationRefusal Unit :=
  match parseIsoInstantWithOffset env.dateParse rotatedAt with
  | none => .error .rotatedAtNotIso
  | some rotatedMs => do
    require (context.initiatedAtMs - revokeQuorumClockSkewMs ≤ rotatedMs) .rotatedAtBeforeWindow
    require (rotatedMs ≤ context.expiresAtMs) .rotatedAtAfterWindow

def FortressMasterPublicKey.value (key : FortressMasterPublicKey) : Json :=
  objectOf [("public_key",some (.str key.publicKey)),("fortress_id",some (.str key.fortressId)),
    ("created_at",some (.str key.createdAt))]

def buildGuardianMasterRotationQuorumInput (context : ParsedQuorumContext) (oldMasterPubkey : String)
    (newMasterPubkey : FortressMasterPublicKey) (rotatedAt fortressId : String) : Json :=
  objectOf [("schema",some (.str guardianMasterRotationQuorumSchemaV2)),("fortress_id",some (.str fortressId)),
    ("old_master_pubkey",some (.str oldMasterPubkey)),("new_master_pubkey",some newMasterPubkey.value),
    ("rotated_at",some (.str rotatedAt)),("ceremony_id",some (.str context.ceremonyId)),
    ("initiated_at",some (.str context.initiatedAt)),("expires_at",some (.str context.expiresAt))]

/-- The event names keys; quorums are counted by the ids the pinned roster has for them. -/
def rekeySignatures (roster : GuardianRoster) : List QuorumSignature → Except RotationRefusal (List GuardianSignature)
  | [] => .ok []
  | s::signatures =>
    match roster.guardians.find? fun g => g.publicKey=s.guardianPubkey with
    | none => .error .unknownGuardian
    | some guardian => do
      let rest ← rekeySignatures roster signatures
      return ⟨guardian.guardianId,s.signature⟩::rest

def contextOf (payload : MasterRotationPayload) : Except RotationRefusal QuorumContextWire :=
  match payload.quorumContext with
  | some wire => .ok wire
  | none => .error .noContext

def acceptMasterRotation (env : MeshEnv) (nowMs : Int) (payload : MasterRotationPayload)
    (pinnedMaster : FortressMasterPublicKey) (pinnedRoster : GuardianRoster) : Except RotationRefusal Unit := do
  require (payload.oldMasterPubkey=pinnedMaster.publicKey) .oldMasterMismatch
  require (payload.newMasterPubkey.fortressId=pinnedMaster.fortressId) .newMasterFortressMismatch
  let wire ← contextOf payload
  let context ← (parseMasterRotationQuorumContext env wire).mapError .mesh
  (assertQuorumContextFresh env context (.strict nowMs)).mapError .mesh
  assertRotatedAtWithinContext env context payload.rotatedAt
  let signatures ← rekeySignatures pinnedRoster payload.quorumSignatures
  (verifyGuardianQuorum env
    (buildGuardianMasterRotationQuorumInput context payload.oldMasterPubkey payload.newMasterPubkey payload.rotatedAt
      pinnedMaster.fortressId) ⟨pinnedRoster.version,signatures⟩ pinnedRoster).mapError .mesh

/-- At least `m` guardians of the roster with distinct keys signed the hand-over from the pinned master to the new
one, in a window that is fresh now and that the time of the rotation is in, up to `slack` before its start. -/
structure RotationAuthorized (env : MeshEnv) (nowMs slack : Int) (payload : MasterRotationPayload)
    (pinnedMaster : FortressMasterPublicKey) (pinnedRoster : GuardianRoster) : Prop where
  oldMaster : payload.oldMasterPubkey=pinnedMaster.publicKey
  fortress : payload.newMasterPubkey.fortressId=pinnedMaster.fortressId
  signed : ∃ wire context rotatedMs bytes signatures signers,
    payload.quorumContext=some wire ∧ parseMasterRotationQuorumContext env wire=.ok context ∧
    context.expiresAtMs - context.initiatedAtMs ≤ revokeQuorumMaxLifetimeMs ∧
    context.initiatedAtMs ≤ nowMs+revokeQuorumClockSkewMs ∧ nowMs ≤ context.expiresAtMs ∧
    parseIsoInstantWithOffset env.dateParse payload.rotatedAt=some rotatedMs ∧
    context.initiatedAtMs - slack ≤ rotatedMs ∧ rotatedMs ≤ context.expiresAtMs ∧
    canonicalizeToBytes (buildGuardianMasterRotationQuorumInput context pinnedMaster.publicKey payload.newMasterPubkey
      payload.rotatedAt pinnedMaster.fortressId)=.ok bytes ∧
    SignedBy env pinnedRoster bytes signatures signers ∧ pinnedRoster.m ≤ signers.length

theorem acceptMasterRotation_ok {env : MeshEnv} {nowMs : Int} {payload : MasterRotationPayload}
    {pinnedMaster : FortressMasterPublicKey} {pinnedRoster : GuardianRoster} {u : Unit}
    (h : acceptMasterRotation env nowMs payload pinnedMaster pinnedRoster=.ok u) :
    RotationAuthorized env nowMs revokeQuorumClockSkewMs payload pinnedMaster pinnedRoster := by
  simp only [acceptMasterRotation,Outcome.require_bind_eq_ok] at h
  obtain ⟨hold,hfor,h⟩ := h
  obtain ⟨wire,hwir,h⟩ := Outcome.bind_ok h
  obtain ⟨context,hcon,h⟩ := Outcome.bind_ok h
  obtain ⟨_,hfre,h⟩ := Outcome.bind_ok h
  obtain ⟨_,hrot,h⟩ := Outcome.bind_ok h
  obtain ⟨signatures,-,h⟩ := Outcome.bind_ok h
  rw [Outcome.mapError_eq_ok] at hcon hfre h
  have hsom : payload.quorumContext=some wire := by
    unfold contextOf at hwir
    split at hwir
    · rename_i wire' hwir'
      rw [hwir',Except.ok.inj hwir]
    · cases hwir
  simp only [assertQuorumContextFresh,Outcome.require_bind_eq_ok,Outcome.require_eq_ok] at hfre
  obtain ⟨hlif,hsta,hope⟩ := hfre
  obtain ⟨bytes,signers,hbyt,hsig,hm⟩ := verifyGuardianQuorum_ok h
  unfold assertRotatedAtWithinContext at hrot
  cases hms : parseIsoInstantWithOffset env.dateParse payload.rotatedAt with
  | none =>
    rw [hms] at hrot
    cases hrot
  | some rotatedMs =>
    rw [hms] at hrot
    simp only [Outcome.require_bind_eq_ok,Outcome.require_eq_ok] at hrot
    rw [hold] at hbyt
    exact ⟨hold,hfor,wire,context,rotatedMs,bytes,signatures,signers,hsom,hcon,hlif,hsta,
      hope,hms,hrot.1,hrot.2,hbyt,hsig,hm⟩

structure MasterRotationBundlePlaintext where
  newMasterSecret : String
  reIssuedSelfCert : NodeIdentityCertificate
  newRootPrincipalCert : PrincipalCertificate
  (rotatedAt newMasterPubkey : String)

structure MasterRotationBundleEnvelope where
  (targetNodeId fortressId : String)
  ciphertext : Json
  (rotatedAt newMasterPubkey : String)

structure RotationEnv extends MeshEnv where
  /-- `ed25519.getPublicKey` of a secret. -/
  publicKeyOf : List UInt8 → List UInt8
  /-- HKDF of the master secret for a node. -/
  deriveNodeTransportKey : List UInt8 → String → NodeMode → List UInt8
  /-- AES-GCM under a key and additional data, and the reading of the plaintext; `none` where either fails. -/
  openBundle : List UInt8 → List UInt8 → Json → Option MasterRotationBundlePlaintext

def bundleAad (fortressId targetNodeId rotatedAt newMasterPubkey : String) : List UInt8 :=
  utf8Bytes ("sanctuary-recovery-flows-v0.1-master-rotation-bundle|" ++ fortressId ++ "|" ++ targetNodeId ++ "|" ++
    rotatedAt ++ "|" ++ newMasterPubkey)

def openedBundle (bundle : Option MasterRotationBundlePlaintext) : Except RotationRefusal MasterRotationBundlePlaintext :=
  match bundle with
  | some plaintext => .ok plaintext
  | none => .error .sealBroken

def unwrapMasterRotationBundle (env : RotationEnv) (envelope : MasterRotationBundleEnvelope)
    (oldFortressMasterSecret : List UInt8) (thisNodeId : String) (thisNodeMode : NodeMode) (thisFortressId : String) :
    Except RotationRefusal MasterRotationBundlePlaintext := do
  require (envelope.targetNodeId=thisNodeId) .wrongTarget
  require (envelope.fortressId=thisFortressId) .wrongFortress
  let plaintext ← openedBundle (env.openBundle
    (env.deriveNodeTransportKey oldFortressMasterSecret thisNodeId thisNodeMode)
    (bundleAad thisFortressId thisNodeId envelope.rotatedAt envelope.newMasterPubkey) envelope.ciphertext)
  require (plaintext.newMasterPubkey=envelope.newMasterPubkey) .bundleMasterMismatch
  require (plaintext.rotatedAt=envelope.rotatedAt) .bundleTimeMismatch
  require (plaintext.reIssuedSelfCert.nodeId=thisNodeId) .certificateOfOther
  return plaintext

structure KeyedNode where
  node : MeshNode
  fortressMasterSecret : List UInt8

/-- The secret, the pinned key, the principal and the certificate are swapped before the roster is asked. -/
def KeyedNode.installMasterRotation (self : KeyedNode) (nowMs : Int) (newMaster : FortressMasterPublicKey)
    (newMasterSecret : List UInt8) (reIssuedSelfCert : NodeIdentityCertificate)
    (newRootPrincipalCert : PrincipalCertificate) : KeyedNode × Except MeshRefusal Unit :=
  if newMaster.publicKey=self.node.pinnedMaster.publicKey then (self,.ok ())
  else if reIssuedSelfCert.nodeId≠self.node.nodeId then (self,.error .rotationWrongNode)
  else if reIssuedSelfCert.parentChain.fortressMasterPubkey≠newMaster.publicKey then (self,.error .rotationWrongMaster)
  else (⟨self.node.installMasterRotation nowMs newMaster reIssuedSelfCert newRootPrincipalCert,newMasterSecret⟩,
    (self.node.roster.add reIssuedSelfCert nowMs).map fun _ => ())

/-- The two halves of a rotation; the broadcast with the peer whose event carried it. -/
structure PendingRotationOnReceiver where
  bundle : Option MasterRotationBundlePlaintext := none
  broadcast : Option (MasterRotationPayload × String) := none

structure MasterRotationReceiver where
  keyed : KeyedNode
  nodeId : String
  nodeMode : NodeMode
  fortressId : String
  pending : OrderedMap String PendingRotationOnReceiver
  installed : List String

/-- What the accessors of the receiver's options answer while a message is handled, and the clock. -/
structure RotationContext where
  nowMs : Int
  oldFortressMasterSecret : List UInt8
  pinnedOldMaster : FortressMasterPublicKey
  pinnedGuardianRoster : GuardianRoster

inductive RotationNotice where
  | refused (emitterNode rotatedAt : String) (refusal : RotationRefusal)
  | ackError (rotatedAt newMasterPubkey : String) (refusal : RotationRefusal)
  | ackInstalled (rotatedAt newMasterPubkey : String)
deriving DecidableEq

inductive UnicastMessage where
  | other
  | malformed
  | bundle (envelope : MasterRotationBundleEnvelope)

inductive RotationInput where
  | unicast (context : RotationContext) (recipient : String) (message : UnicastMessage)
  | broadcast (context : RotationContext) (payload : MasterRotationPayload) (emitterNode : String)

def RotationInput.context : RotationInput → RotationContext
  | .unicast context _ _ => context
  | .broadcast context _ _ => context

namespace MasterRotationReceiver

variable (env : RotationEnv) (self : MasterRotationReceiver)

def install (context : RotationContext) (rotatedAt : String) (bundle : MasterRotationBundlePlaintext)
    (payload : MasterRotationPayload) : MasterRotationReceiver × List RotationNotice :=
  let newMaster := payload.newMasterPubkey
  if bundle.reIssuedSelfCert.parentChain.fortressMasterPubkey≠newMaster.publicKey then
    (self,[.ackError rotatedAt newMaster.publicKey .certChainMismatch])
  else
    let swapped := self.keyed.installMasterRotation context.nowMs newMaster (decodeBase64url bundle.newMasterSecret)
      bundle.reIssuedSelfCert bundle.newRootPrincipalCert
    match swapped.2 with
    | .error refusal =>
      ({ self with keyed := swapped.1 },[.ackError rotatedAt newMaster.publicKey (.mesh refusal)])
    | .ok _ =>
      ({ self with keyed := swapped.1, installed := rotatedAt::self.installed },
        [.ackInstalled rotatedAt newMaster.publicKey])

def maybeInstall (context : RotationContext) (rotatedAt : String) : MasterRotationReceiver × List RotationNotice :=
  if rotatedAt∈self.installed then (self,[])
  else
    match self.pending.get rotatedAt with
    | some ⟨some bundle,some (payload,emitterNode)⟩ =>
      match acceptMasterRotation env.toMeshEnv context.nowMs payload context.pinnedOldMaster
          context.pinnedGuardianRoster with
      | .error refusal =>
        ({ self with pending := self.pending.set rotatedAt { bundle := some bundle } },
          [.refused emitterNode rotatedAt refusal])
      | .ok _ => self.install context rotatedAt bundle payload
    | _ => (self,[])

def handleIncomingUnicast (context : RotationContext) (recipient : String) (message : UnicastMessage) :
    MasterRotationReceiver × List RotationNotice :=
  if recipient≠self.nodeId then (self,[])
  else
    match message with
    | .other => (self,[])
    | .malformed => (self,[])
    | .bundle envelope =>
      match unwrapMasterRotationBundle env envelope context.oldFortressMasterSecret self.nodeId self.nodeMode
          self.fortressId with
      | .error _ => (self,[])
      | .ok plaintext =>
        let entry := (self.pending.get envelope.rotatedAt).getD {}
        let held := { self with
          pending := self.pending.set envelope.rotatedAt { entry with bundle := some plaintext } }
        held.maybeInstall env context envelope.rotatedAt

def handleIncomingMasterRotationBroadcast (context : RotationContext) (payload : MasterRotationPayload)
    (emitterNode : String) : MasterRotationReceiver × List RotationNotice :=
  let entry := (self.pending.get payload.rotatedAt).getD {}
  let held := { self with
    pending := self.pending.set payload.rotatedAt { entry with broadcast := some (payload,emitterNode) } }
  held.maybeInstall env context payload.rotatedAt

def step (input : RotationInput) : MasterRotationReceiver × List RotationNotice :=
  match input with
  | .unicast context recipient message => self.handleIncomingUnicast env context recipient message
  | .broadcast context payload emitterNode =>
    self.handleIncomingMasterRotationBroadcast env context payload emitterNode

def run (inputs : List RotationInput) : MasterRotationReceiver :=
  inputs.foldl (fun self input => (self.step env input).1) self

end MasterRotationReceiver

end CastleWall.Mesh
