import CastleWall.Operational.AuditLoad
import Mathlib.Algebra.GroupWithZero.Nat

/-! # Appends, checkpoints and rotation

What a process does under the audit write lock, and the runs of processes that take the lock in turn and may
stop between any two storage operations. -/

namespace CastleWall.Operational

open AuditStore

section

variable (crypto : AuditCrypto) (s : AuditStore)

def assertWriterHeadAnchorBinding : Option AuditIntegrityFinding :=
  match loadHeadAnchor crypto s with
  | .valid head =>
    let sequence := head.highestSequence
    let check (hash : String) : Option AuditIntegrityFinding :=
      if hash≠head.headHash then some ⟨.tailAnchorInvalid,some sequence,none,false⟩ else none
    match s.entries.find? fun e => e.sequence=sequence with
    | some e =>
      let hash := crypto.computeAuditEntryHash e.toEntryHashInput
      if hash≠e.entryHash then some ⟨.entryHashMismatch,some sequence,none,false⟩ else check hash
    | none =>
      match loadRotationAnchor crypto s with
      | .valid rotation =>
        if sequence+1=rotation.baseSequence then check rotation.basePrevHash
        else if rotation.baseSequence - 1 < sequence then
          some ⟨.sequenceGapOrReorder,some sequence,none,false⟩
        else none
      | _ => if 0 < sequence then some ⟨.sequenceGapOrReorder,some sequence,none,false⟩ else none
  | _ => none

inductive AuditDiscoveryOutcome where
  | unknown
  | found (sequence : Nat) (hash : String)
  | baseline

def readLatestPersistedChainState (w : Writer) : Except AuditRefusal AuditDiscoveryOutcome :=
  match s.entries.getLast? with
  | some e =>
    let adoptedTip := max (w.nextSequence - 1) e.sequence
    match loadHeadAnchor crypto s with
    | .valid head =>
      if adoptedTip < head.highestSequence then .ok .unknown
      else match assertWriterHeadAnchorBinding crypto s with
        | some finding => .error (.integrity [finding])
        | none => .ok (.found e.sequence e.entryHash)
    | _ => .ok (.found e.sequence e.entryHash)
  | none =>
    let tip := w.nextSequence - 1
    let beyondTip : Bool := match loadHeadAnchor crypto s with
      | .valid head =>
        decide ((head.highestSequence=tip ∧ head.headHash≠w.lastEntryHash) ∨ tip < head.highestSequence)
      | .invalid => true
      | .absent => false
    if beyondTip ∨ tip < w.knownHighWater ∨ 0 < w.knownHighWater then .ok .unknown
    else if tip=0 ∧ isEstablishedAuditStore s false=false ∧ w.lastEntryHash=auditChainGenesis then
      .ok .baseline
    else .ok .unknown

def freshenChainStateFromDisk (w : Writer) : AuditM Writer := do
  let outcome ← Process.observe fun s => readLatestPersistedChainState crypto s w
  match outcome with
  | .error refusal => Process.fail refusal
  | .ok .unknown => Process.fail .chainStateUnknown
  | .ok .baseline => return w
  | .ok (.found sequence hash) =>
    let w := if w.nextSequence ≤ sequence+1 then
      { w with nextSequence := sequence+1, lastEntryHash := hash } else w
    return { w with knownHighWater := max w.knownHighWater sequence }

def envelopeOf (entry : AuditEntry) (nonce sequence : Nat) (prevHash : String) : PersistedAuditEnvelope :=
  let input : EntryHashInput := ⟨sequence,prevHash,entry.timestamp,crypto.encrypt entry nonce⟩
  ⟨input,crypto.computeAuditEntryHash input⟩

def writeHeadAnchor (highestSequence : Nat) (headHash : String) : AuditM Unit := do
  Process.modify (·.putHeadAnchor (sealRecord crypto.headAnchorMac ⟨highestSequence,headHash⟩))
  Process.modify (·.putEstablished)

def persistChainedEntry (entry : AuditEntry) (nonce : Nat) (w : Writer) : AuditM Writer := do
  Process.require (w.loaded ∧ w.hasHardFinding=false) (.integrity w.integrityFindings)
  let w ← freshenChainStateFromDisk crypto w
  let envelope := envelopeOf crypto entry nonce w.nextSequence w.lastEntryHash
  Process.modify (·.putEntry envelope)
  writeHeadAnchor crypto envelope.sequence envelope.entryHash
  return { w with
    nextSequence := envelope.sequence+1
    lastEntryHash := envelope.entryHash
    knownHighWater := max w.knownHighWater envelope.sequence
    ownHighestPersistedSequence := max w.ownHighestPersistedSequence envelope.sequence }

/-- The signer finds no identity, signs, or fails. -/
inductive SignerOutcome where
  | noIdentity
  | signs
  | fails (reason : SignerFailureReason)
deriving DecidableEq

def readHighestAuditCheckpointSequence : Nat :=
  (s.checkpoints.map (·.checkpointSequence)).max?.getD 0

def collectPersistedEntryHashes (fromSequence toSequence : Nat) : Option (List String) :=
  let range := List.range' fromSequence (toSequence+1 - fromSequence)
  if range.any fun n => 1 < (s.entries.map (·.sequence)).count n then none
  else range.mapM fun n => (bySequence s.entries n).map (·.entryHash)

variable (payload : CheckpointPayload)

def recordSignerFailure (reason : SignerFailureReason) (w : Writer) :
    AuditM Writer := do
  let latch ← Process.observe (readSigningLatch crypto)
  let written ← writeSigningHead crypto
    { ensure := latch=.absent ∧ w.signingEvidenceSeen=false
      addIncidents := [⟨payload.checkpointSequence,reason⟩] }
  return { w with signingEvidenceSeen := w.signingEvidenceSeen || written }

/-- Before its first signed checkpoint a store has a signing head, and then a latch. -/
def armSigning (w : Writer) : AuditM (Writer × Bool) := do
  let latch ← Process.observe (readSigningLatch crypto)
  if latch=.absent ∧ w.signingEvidenceSeen=false then
    let _ ← writeSigningHead crypto { ensure := true }
    let armed ← writeSigningLatch crypto
      ⟨payload.checkpointSequence,(crypto.sign payload).signerKid,payload.signedAt⟩
    return ({ w with signingEvidenceSeen := true },armed)
  else return (w,false)

def writeCheckpointRecord (signer : SignerOutcome) (w : Writer) :
    AuditM Writer := do
  match signer with
  | .noIdentity =>
    Process.modify (·.putCheckpoint ⟨payload,none⟩)
    return w
  | .fails reason =>
    let w ← recordSignerFailure crypto payload reason w
    Process.modify (·.putCheckpoint ⟨payload,none⟩)
    return w
  | .signs =>
    let (w,armedThisWrite) ← armSigning crypto payload w
    Process.modify (·.putCheckpoint ⟨payload,some (crypto.sign payload)⟩)
    let _ ← writeSigningHead crypto
      { tipCandidate := some payload.checkpointSequence
        floorCandidate := if armedThisWrite then some payload.checkpointSequence else none }
    return w

def rotationBase : Nat :=
  match loadRotationAnchor crypto s with
  | .valid anchor => anchor.baseSequence
  | _ => 0

def checkpointPayloadOf (signedAt : String) (w : Writer) : Option CheckpointPayload :=
  let previous := readHighestAuditCheckpointSequence s
  let checkpointSequence := max (w.nextSequence - 1) w.ownHighestPersistedSequence
  let fromSequence := max (previous+1) (rotationBase crypto s)
  match collectPersistedEntryHashes s fromSequence checkpointSequence with
  | none => none
  | some hashes =>
    if checkpointSequence < fromSequence then none
    else some ⟨checkpointSequence,fromSequence,crypto.computeAuditRoot hashes,previous,signedAt⟩

/-- Whether a checkpoint is due rests on counters and on the age of the tail: any process may take one. -/
def writeCheckpoint (signer : SignerOutcome) (signedAt : String) (w : Writer) : AuditM Writer := do
  let w ← freshenChainStateFromDisk crypto w
  let payload ← Process.observe fun s => checkpointPayloadOf crypto s signedAt w
  match payload with
  | some payload => writeCheckpointRecord crypto payload signer w
  | none => return w

structure RetentionLimits where
  (maxEntries maxTotalSizeBytes rotationHysteresis byteMargin : Nat)

def overTarget (targetBytes : Nat) : List Nat → Nat
  | [] => 0
  | size::sizes => if targetBytes < size+sizes.sum then overTarget targetBytes sizes+1 else 0

variable (limits : RetentionLimits)

def rotationDeleteCount (sizes : List Nat) : Nat :=
  if sizes.length ≤ limits.maxEntries ∧ sizes.sum ≤ limits.maxTotalSizeBytes then 0
  else
    let byCount := sizes.length - max 1 (limits.maxEntries - limits.rotationHysteresis)
    byCount+overTarget (limits.maxTotalSizeBytes - limits.byteMargin) (sizes.drop byCount)

def pruneSteps : Nat → List PersistedAuditEnvelope → AuditM Unit
  | n+1, oldest::base::rest => do
    Process.modify (·.putRotationAnchor (sealRecord crypto.rotationAnchorMac ⟨base.sequence,base.prevHash⟩))
    Process.modify (·.deleteEntry oldest.sequence)
    pruneSteps n (base::rest)
  | _, _ => return ()

/-- The lowest survivors that go. The time an episode may take lets the first step through, and `budget` more. -/
def pruneCount (size : PersistedAuditEnvelope → Nat) (budget : Nat)
    (s : AuditStore) : Nat :=
  let anchored := match loadRotationAnchor crypto s with
    | .valid anchor => (s.entries.findIdx? fun e => e.sequence=anchor.baseSequence).getD 0
    | _ => 0
  let toDelete := min (max (rotationDeleteCount limits (s.entries.map size)) anchored) (s.entries.length - 1)
  min toDelete (budget+1)

def maybeRotate (size : PersistedAuditEnvelope → Nat) (budget : Nat) (w : Writer) :
    AuditM Writer := do
  let s ← Process.observe id
  pruneSteps crypto (pruneCount crypto limits size budget s) s.entries
  return w

inductive AuditAction where
  | load (mayMutate : Bool) (now : String)
  | append (entry : AuditEntry) (nonce : Nat)
  | checkpoint (signer : SignerOutcome) (signedAt : String)
  | rotate (limits : RetentionLimits) (size : PersistedAuditEnvelope → Nat) (budget : Nat)

def AuditAction.program (w : Writer) : AuditAction → AuditM Writer
  | .load mayMutate now => reloadPersistedEntries crypto mayMutate now w
  | .append entry nonce => persistChainedEntry crypto entry nonce w
  | .checkpoint signer signedAt => writeCheckpoint crypto signer signedAt w
  | .rotate limits size budget => maybeRotate crypto limits size budget w

structure AuditEvent where
  process : Nat
  action : AuditAction
  crashAfter : Option Nat := none

structure World where
  store : AuditStore := {}
  writers : Nat → Writer := fun _ => {}

namespace World

def step (world : World) (event : AuditEvent) : World :=
  let program := event.action.program crypto (world.writers event.process)
  match event.crashAfter with
  | some n => ⟨program.after n world.store,Function.update world.writers event.process {}⟩
  | none =>
    match program.run world.store with
    | (.ok w,s) => ⟨s,Function.update world.writers event.process w⟩
    | (.error _,s) => ⟨s,world.writers⟩

def run (world : World) (events : List AuditEvent) : World := events.foldl (step crypto) world

end World

def strictLoadFindings (mayMutate : Bool) (now : String) (s : AuditStore) : List AuditIntegrityFinding :=
  match (reloadPersistedEntries crypto mayMutate now {}).run s with
  | (.ok w,_) => w.integrityFindings
  | (.error _,_) => []

end

end CastleWall.Operational
