import CastleWall.Operational.AuditStore

/-! # The load pass

`loadPersistedEntries` and what it calls: the walk over the entries, the anchors, the checkpoints and the
signing control records, with the recovery writes a load may make. -/

namespace CastleWall.Operational

open AuditStore

structure Writer where
  loaded : Bool := false
  integrityFindings : List AuditIntegrityFinding := []
  nextSequence : Nat := 1
  lastEntryHash : String := auditChainGenesis
  knownHighWater : Nat := 0
  ownHighestPersistedSequence : Nat := 0
  signingEvidenceSeen : Bool := false
  signingRecoveryThisLoad : Bool := false

def Writer.hasHardFinding (w : Writer) : Bool := w.integrityFindings.any isHardIntegrityFinding

inductive AuditRefusal where
  | chainStateUnknown
  | integrity (findings : List AuditIntegrityFinding)

abbrev AuditM : Type → Type := Process AuditStore AuditRefusal

section

variable (crypto : AuditCrypto)

def entryFindings (envelope : PersistedAuditEnvelope) : List AuditIntegrityFinding :=
  (if crypto.computeAuditEntryHash envelope.toEntryHashInput≠envelope.entryHash then
    [⟨.entryHashMismatch,some envelope.sequence,none,false⟩] else []) ++
  (if (crypto.decrypt envelope.encryptedPayloadBytes).isNone then
    [⟨.entryDecryptFailed,some envelope.sequence,none,false⟩] else [])

/-- An entry that does not decrypt is left out of the walk. -/
def chainedEntries (entries : List PersistedAuditEnvelope) : List PersistedAuditEnvelope :=
  entries.filter fun e => (crypto.decrypt e.encryptedPayloadBytes).isSome

/-- Of the entries observed, the one with the highest number, and the last of these. -/
def highestObserved (entries : List PersistedAuditEnvelope) : Option PersistedAuditEnvelope :=
  entries.foldl (fun best e => match best with
    | none => some e
    | some b => if b.sequence ≤ e.sequence then some e else some b) none

structure ChainSeed where
  expectedSequence : Nat
  expectedPrevHash : String
  authenticatedStart : Bool
deriving DecidableEq

/-- Where the walk starts: at genesis, or at the cut the rotation anchor authenticates. -/
def resolveChainSeed (rotation : ControlRead RotationAnchor) :
    List PersistedAuditEnvelope → ChainSeed × List AuditIntegrityFinding
  | [] => (⟨1,auditChainGenesis,true⟩,
      if rotation=.absent then [] else [⟨.rotationAnchorInvalid,none,none,false⟩])
  | head::_ =>
    if head.sequence ≤ 1 then (⟨1,auditChainGenesis,true⟩,[])
    else
      let fromHead : ChainSeed := ⟨head.sequence,head.prevHash,false⟩
      match rotation with
      | .valid anchor =>
        if anchor.baseSequence=head.sequence then (⟨anchor.baseSequence,anchor.basePrevHash,true⟩,[])
        else (fromHead,[⟨.rotationAnchorInvalid,some head.sequence,none,false⟩])
      | .invalid => (fromHead,[⟨.rotationAnchorInvalid,some head.sequence,none,false⟩])
      | .absent => (fromHead,[⟨.rotationAnchorMissing,some head.sequence,none,false⟩])

def verifyChainedEntries : Nat → String → List PersistedAuditEnvelope → List AuditIntegrityFinding
  | _, _, [] => []
  | expectedSequence, expectedPrevHash, envelope::rest =>
    (if envelope.sequence≠expectedSequence then
      [⟨.sequenceGapOrReorder,some envelope.sequence,none,false⟩] else []) ++
    (if envelope.prevHash≠expectedPrevHash then
      [⟨.prevHashMismatch,some envelope.sequence,none,false⟩] else []) ++
    verifyChainedEntries (expectedSequence+1) envelope.entryHash rest

variable (s : AuditStore)

def loadRotationAnchor : ControlRead RotationAnchor :=
  readSealed crypto.rotationAnchorMac s.rotationAnchor

/-- The anchor of an empty chain is no anchor. -/
def loadHeadAnchor : ControlRead HeadAnchor :=
  match readSealed crypto.headAnchorMac s.headAnchor with
  | .valid anchor => if anchor.highestSequence=0 then .invalid else .valid anchor
  | other => other

variable (chained : List PersistedAuditEnvelope)

def anchorEntryHash (seed : ChainSeed) (anchor : HeadAnchor) :
    Option String :=
  match chained.find? fun e => e.sequence=anchor.highestSequence with
  | some e => some e.entryHash
  | none =>
    if seed.authenticatedStart ∧ anchor.highestSequence+1=seed.expectedSequence then
      some seed.expectedPrevHash
    else none

def isEstablishedAuditStore (hasAuditEntries : Bool) : Bool :=
  hasAuditEntries || s.established || s.hasCheckpointRecords

def verifyHeadAnchor (anchor : ControlRead HeadAnchor) (highestChainedSeq : Nat)
    (namedHash : HeadAnchor → Option String) (hasChainedEntries : Bool) : List AuditIntegrityFinding :=
  match anchor with
  | .valid a =>
    if highestChainedSeq < a.highestSequence then
      [⟨.tailAnchorInvalid,some highestChainedSeq,none,false⟩]
    else match namedHash a with
      | some hash =>
        if hash≠a.headHash then [⟨.tailAnchorInvalid,some a.highestSequence,none,false⟩] else []
      | none => []
  | .invalid => [⟨.tailAnchorInvalid,none,none,false⟩]
  | .absent =>
    if isEstablishedAuditStore s hasChainedEntries then [⟨.tailAnchorMissing,none,none,false⟩] else []

def spansRotatedEntries (rotationFloor : Nat) (record : AuditCheckpointRecord) : Bool :=
  0 < record.fromSequence ∧ record.fromSequence < rotationFloor

def checkpointRange (record : AuditCheckpointRecord) : List Nat :=
  List.range' record.fromSequence (record.checkpointSequence+1 - record.fromSequence)

def checkpointRootFindings (record : AuditCheckpointRecord) :
    List AuditIntegrityFinding :=
  ((checkpointRange record).filterMap fun sequence =>
    if (bySequence chained sequence).isNone then
      some ⟨.checkpointRootMismatch,some sequence,none,false⟩ else none) ++
  (if record.rootHash≠crypto.computeAuditRoot
      ((checkpointRange record).filterMap fun sequence => (bySequence chained sequence).map (·.entryHash)) then
    [⟨.checkpointRootMismatch,some record.checkpointSequence,none,false⟩] else [])

def verifyCheckpointRecordSignature (record : AuditCheckpointRecord) : Bool :=
  match record.signed with
  | none => false
  | some signature => crypto.verify record.toCheckpointPayload signature

def checkpointFindings (record : AuditCheckpointRecord) :
    List AuditIntegrityFinding :=
  (if spansRotatedEntries ((chained.head?.map (·.sequence)).getD 1) record then []
    else checkpointRootFindings crypto chained record) ++
  (if record.signed.isSome ∧ verifyCheckpointRecordSignature crypto record=false then
    [⟨.checkpointSignatureMismatch,some record.checkpointSequence,none,false⟩] else [])

def resolverVerifiedSequences (checkpoints : List AuditCheckpointRecord) : List Nat :=
  (checkpoints.filter (verifyCheckpointRecordSignature crypto)).map (·.checkpointSequence)

def readSigningLatch : ControlRead SigningLatch :=
  match readSealed crypto.signingLatchMac s.signingLatch with
  | .valid latch => if latch.armedAtSequence=0 then .invalid else .valid latch
  | other => other

/-- A tip without a floor is never written. -/
def readSigningHead : ControlRead SigningHead :=
  match readSealed crypto.signingHeadMac s.signingHead with
  | .valid head =>
    if 0 < head.highestSignedCheckpointSequence ∧ head.lowestSignedCheckpointSequence=none then .invalid
    else .valid head
  | other => other

def signingHeadRecentRingMax : Nat := 32

def signingHeadLatchedRingMax : Nat := 32

structure SigningHeadIntent where
  ensure : Bool := false
  addIncidents : List SigningHeadIncident := []
  tipCandidate : Option Nat := none
  floorCandidate : Option Nat := none
  addMarkers : List SigningHeadLatchedMarker := []

def unionInto {α : Type} [DecidableEq α] (base added : List α) : List α :=
  added.foldl (fun acc a => if a∈acc then acc else acc++[a]) base

def zeroSigningHead : SigningHead := ⟨0,none,none,[],0,none,[],0,false⟩

def signingHeadMarkerDetailMaxChars : Nat := 256

def clampMarker (marker : SigningHeadLatchedMarker) : SigningHeadLatchedMarker :=
  { marker with detail := String.ofList (marker.detail.toList.take signingHeadMarkerDetailMaxChars) }

/-- Every memory of the head moves in its safe direction only. -/
def mergeSigningHead (base : SigningHead) (intent : SigningHeadIntent) : SigningHead :=
  let incidents := (unionInto base.recent intent.addIncidents).mergeSort fun a b => a.sequence ≤ b.sequence
  let incidentSequences := base.firstIncidentSequence.toList++base.lastIncidentSequence.toList ++
    intent.addIncidents.map (·.sequence)
  let markers := unionInto base.latched (intent.addMarkers.map clampMarker)
  let evicted := markers.length - signingHeadLatchedRingMax
  let lowest := (base.lowestSignedCheckpointSequence.toList++intent.floorCandidate.toList).min?
  let highest := max base.highestSignedCheckpointSequence (intent.tipCandidate.getD 0)
  { incidentCount := base.incidentCount+intent.addIncidents.length
    firstIncidentSequence := incidentSequences.min?
    lastIncidentSequence := incidentSequences.max?
    recent := incidents.drop (incidents.length - signingHeadRecentRingMax)
    highestSignedCheckpointSequence := highest
    -- The tip is the floor of a head that has none.
    lowestSignedCheckpointSequence := if 0 < highest ∧ lowest=none then intent.tipCandidate else lowest
    latched := markers.drop evicted
    latchedEvictedCount := base.latchedEvictedCount+evicted
    hardDowngradeEverLatched :=
      base.hardDowngradeEverLatched || markers.any fun m => m.markerKind=.downgradeLatched }

def writeSigningLatch (latch : SigningLatch) : AuditM Bool := do
  let existing ← Process.observe (readSigningLatch crypto)
  match existing with
  | .absent => do
    Process.modify (·.putSigningLatch (sealRecord crypto.signingLatchMac latch))
    return true
  | _ => return false

/-- The head is merged into what is stored; only `ensure` makes one where there is none. -/
def writeSigningHead (intent : SigningHeadIntent) : AuditM Bool := do
  let existing ← Process.observe (readSigningHead crypto)
  match existing with
  | .invalid => return false
  | .valid head => do
    Process.modify (·.putSigningHead (sealRecord crypto.signingHeadMac (mergeSigningHead head intent)))
    return true
  | .absent =>
    if intent.ensure then do
      Process.modify
        (·.putSigningHead (sealRecord crypto.signingHeadMac (mergeSigningHead zeroSigningHead intent)))
      return true
    else return false

structure SigningView where
  checkpoints : List AuditCheckpointRecord
  latch : ControlRead SigningLatch
  head : ControlRead SigningHead
  /-- The checkpoints whose signature is good. -/
  resolverVerified : List Nat

def signingView : SigningView :=
  ⟨s.checkpoints,readSigningLatch crypto s,readSigningHead crypto s,
    resolverVerifiedSequences crypto s.checkpoints⟩

@[simp] theorem signingView_checkpoints :
    (signingView crypto s).checkpoints=s.checkpoints := rfl

@[simp] theorem signingView_latch : (signingView crypto s).latch=readSigningLatch crypto s := rfl

@[simp] theorem signingView_head : (signingView crypto s).head=readSigningHead crypto s := rfl

@[simp] theorem signingView_resolverVerified :
    (signingView crypto s).resolverVerified=resolverVerifiedSequences crypto s.checkpoints := rfl

namespace SigningView

variable (v : SigningView)

def sequences : List Nat := v.checkpoints.map (·.checkpointSequence)

def duplicateSequences : List Nat := (v.sequences.filter fun n => 1 < v.sequences.count n).dedup

def verified : List Nat := v.resolverVerified.filter fun n => n∉v.duplicateSequences

def boundSequences : List Nat := v.sequences.filter fun n => n∉v.duplicateSequences

def earliestVerified : Option Nat := v.verified.min?

def highestVerified : Nat := v.verified.max?.getD 0

def evidenceSeen : Bool := v.latch≠.absent ∨ v.head≠.absent ∨ v.resolverVerified≠[]

def tamperFindings : List AuditIntegrityFinding :=
  (if v.latch=.invalid then [⟨.checkpointSigningDowngrade,none,some .latchTamper,false⟩] else []) ++
  (if v.head=.invalid then [⟨.checkpointSigningDowngrade,none,some .headTamper,false⟩] else [])

/-- A recovery that was latched is reported by every later load, as a warning unless this load made it. -/
def latchedFindings (signingRecoveryThisLoad : Bool) : List AuditIntegrityFinding :=
  match v.head with
  | .valid head =>
    (if (head.latched.any fun m => m.markerKind=.downgradeLatched) ∨ head.hardDowngradeEverLatched then
      [⟨.checkpointSigningDowngrade,none,some .latched,false⟩] else []) ++
    ((head.latched.filter fun m => m.markerKind≠.downgradeLatched).map fun m =>
      ⟨if m.markerKind=.headRecreated then .checkpointSigningHeadRecovered else .checkpointSigningFloorRecovered,
        none,some .latched,!signingRecoveryThisLoad⟩) ++
    (if 0 < head.latchedEvictedCount ∧ head.latched=[] ∧ head.hardDowngradeEverLatched=false then
      [⟨.checkpointSigningHeadRecovered,none,some .latchedEvicted,!signingRecoveryThisLoad⟩] else [])
  | _ => []

/-- The committed tip and floor, and every checkpoint a signed one names before it, still stand. -/
def coverageFindings : List AuditIntegrityFinding :=
  (match v.head with
  | .valid head =>
    (if v.highestVerified < head.highestSignedCheckpointSequence then
      [⟨.checkpointSigningDowngrade,some head.highestSignedCheckpointSequence,some .deletedTail,false⟩]
      else []) ++
    (match head.lowestSignedCheckpointSequence with
    | some lowest =>
      if lowest∉v.verified ∨ v.earliestVerified.any (lowest < ·) then
        [⟨.checkpointSigningDowngrade,some lowest,some .rolledFloor,false⟩] else []
    | none => [])
  | _ => []) ++
  v.checkpoints.filterMap fun record =>
    if record.checkpointSequence∈v.verified ∧ 0 < record.previousCheckpointSequence ∧
        record.previousCheckpointSequence∉v.boundSequences then
      some ⟨.checkpointSigningDowngrade,some record.previousCheckpointSequence,some .deletedPredecessor,false⟩
    else none

def coverageVeto : Bool := v.duplicateSequences≠[] ∨ v.coverageFindings≠[]

def headFloor : Option Nat :=
  match v.head with
  | .valid head => head.lowestSignedCheckpointSequence
  | _ => none

def latchFloor : Option Nat :=
  match v.latch with
  | .valid latch => some latch.armedAtSequence
  | _ => none

def verdictFloor : Option Nat :=
  (v.latchFloor.toList++v.headFloor.toList++v.earliestVerified.toList).min?

def incidentRing : List Nat :=
  match v.head with
  | .valid head => head.recent.map (·.sequence)
  | _ => []

def unsignedFindings : List AuditIntegrityFinding :=
  v.checkpoints.filterMap fun record =>
    if record.signed.isSome then none
    else if record.checkpointSequence∈v.incidentRing then
      some ⟨.checkpointSigningError,some record.checkpointSequence,none,false⟩
    else if v.verdictFloor.any (· ≤ record.checkpointSequence) then
      some ⟨.checkpointSigningDowngrade,some record.checkpointSequence,some .strip,false⟩
    else none

def latchRecoveryDue : Bool := v.latch=.absent ∧ v.verified≠[]

def headRecoveryDue : Bool := v.head=.absent ∧ (v.latchFloor.isSome ∨ v.verified≠[])

def recoveryFindings : List AuditIntegrityFinding :=
  (if v.latchRecoveryDue then [⟨.checkpointSigningFloorRecovered,none,none,false⟩] else []) ++
  (if v.headRecoveryDue then [⟨.checkpointSigningHeadRecovered,none,none,false⟩] else [])

def selfHealDue : Bool :=
  match v.head with
  | .valid head =>
    v.coverageVeto=false ∧ v.verified≠[] ∧
      (head.highestSignedCheckpointSequence < v.highestVerified ∨ head.lowestSignedCheckpointSequence=none ∨
        head.lowestSignedCheckpointSequence.any fun lowest => v.earliestVerified.any (· < lowest))
  | _ => false

def findings (signingRecoveryThisLoad : Bool) : List AuditIntegrityFinding :=
  (v.duplicateSequences.map fun n => ⟨.checkpointMalformed,some n,some .duplicateSequence,false⟩) ++
    v.tamperFindings++v.latchedFindings signingRecoveryThisLoad++v.coverageFindings++v.unsignedFindings ++
    v.recoveryFindings

end SigningView

def FindingVariant.text : FindingVariant → String
  | .duplicateSequence => "duplicate-sequence"
  | .latchTamper => "latch-tamper"
  | .headTamper => "head-tamper"
  | .latched => "latched"
  | .latchedEvicted => "latched-evicted"
  | .deletedTail => "deleted-tail"
  | .rolledFloor => "rolled-floor"
  | .deletedPredecessor => "deleted-predecessor"
  | .strip => "strip"

def sequenceText : Option Nat → String
  | some n => toString n
  | none => "none"

def downgradeMarkers (findings : List AuditIntegrityFinding) : List SigningHeadLatchedMarker :=
  let downgrades := findings.filter fun f => f.kind=.checkpointSigningDowngrade ∧ f.variant≠some .latched
  (downgrades.map (·.variant)).eraseDups.map fun variant =>
    let sequences := (downgrades.filter fun f => f.variant=variant).map fun f => f.sequence.getD 0
    let name := (variant.map (·.text)).getD "unspecified"
    let lowest := sequences.min?.getD 0
    let highest := sequences.max?.getD 0
    ⟨.downgradeLatched,s!"{name}: sequences {lowest}..{highest}"⟩

def recoveryMarkers (v : SigningView) (findings : List AuditIntegrityFinding) : List SigningHeadLatchedMarker :=
  let earliest := sequenceText v.earliestVerified
  let highest := v.highestVerified
  (if v.latchRecoveryDue then
    [⟨.latchRecovered,s!"latch absent over signing evidence; earliest verified {earliest}"⟩] else []) ++
  (if v.headRecoveryDue then
    [⟨.headRecreated,s!"head absent over signing evidence; observed verified range {earliest}..{highest}"⟩]
    else []) ++
  (if v.coverageVeto then downgradeMarkers findings else [])

def performSigningRecoveryWrites (v : SigningView) (findings : List AuditIntegrityFinding) (now : String) :
    AuditM Unit := do
  let markers := recoveryMarkers v findings
  let stampValues := !v.coverageVeto
  let observedFloor := (v.earliestVerified.toList++v.headFloor.toList).min?
  let stamps := stampValues && observedFloor.isSome && decide (0 < v.highestVerified)
  if markers≠[] ∨ stampValues then
    let _ ← writeSigningHead crypto
      { ensure := v.head=.absent ∨ v.head=.invalid
        addMarkers := markers
        tipCandidate := if stamps then some v.highestVerified else none
        floorCandidate := if stamps then observedFloor else none }
    match observedFloor with
    | some floor =>
      if v.latchRecoveryDue ∧ stampValues then
        let _ ← writeSigningLatch crypto ⟨floor,"recovered",now⟩
        return ()
    | none => return ()

def loadFindings (s : AuditStore) (signingRecoveryThisLoad : Bool) : List AuditIntegrityFinding :=
  let chained := chainedEntries crypto s.entries
  let seed := resolveChainSeed (loadRotationAnchor crypto s) chained
  let highestChainedSeq := ((highestObserved s.entries).map (·.sequence)).getD 0
  s.entries.flatMap (entryFindings crypto)++seed.2 ++
    verifyChainedEntries seed.1.expectedSequence seed.1.expectedPrevHash chained ++
    s.checkpoints.flatMap (checkpointFindings crypto chained) ++
    (signingView crypto s).findings signingRecoveryThisLoad ++
    verifyHeadAnchor s (loadHeadAnchor crypto s) highestChainedSeq (anchorEntryHash chained seed.1)
      (!chained.isEmpty)

variable (mayMutate : Bool)

def loadPersistedEntries (now : String) (w : Writer) : AuditM Writer := do
  let s ← Process.observe id
  let v := signingView crypto s
  let tip := highestObserved s.entries
  if (v.latchRecoveryDue ∨ v.headRecoveryDue ∨ v.selfHealDue) ∧ mayMutate then
    performSigningRecoveryWrites crypto v (v.findings w.signingRecoveryThisLoad) now
  return { w with
    integrityFindings := loadFindings crypto s w.signingRecoveryThisLoad
    nextSequence := (tip.map (·.sequence)).getD 0+1
    lastEntryHash := (tip.map (·.entryHash)).getD auditChainGenesis
    knownHighWater := max w.knownHighWater ((tip.map (·.sequence)).getD 0)
    signingEvidenceSeen := w.signingEvidenceSeen || v.evidenceSeen
    signingRecoveryThisLoad := w.signingRecoveryThisLoad || v.latchRecoveryDue || v.headRecoveryDue }

/-- A pass with a hard finding is made once more; on a store that stands still the second is the last. -/
def loadPersistedEntriesWithReadConsistency (now : String) (w : Writer) : AuditM Writer := do
  let w ← loadPersistedEntries crypto mayMutate now { w with signingRecoveryThisLoad := false }
  if w.hasHardFinding then loadPersistedEntries crypto mayMutate now w else return w

def reloadPersistedEntries (now : String) (w : Writer) : AuditM Writer := do
  let w ← loadPersistedEntriesWithReadConsistency crypto mayMutate now w
  return { w with loaded := true }

end

end CastleWall.Operational
