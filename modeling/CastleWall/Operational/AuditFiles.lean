import CastleWall.Operational.AuditChainRun

/-! # Entry files

`loadPersistedEntries` over the files of `_audit`, whatever they hold: entries of the chain, entries in the format
from before the chain, and files that are neither. Over files of the chain alone it is the load of an audit
store. -/

namespace CastleWall.Operational

open AuditStore

structure LegacyEntry where
  (key encryptedPayloadBytes : String)

/-- A file as it is read. What is JSON and no entry of the chain is taken for a legacy entry. -/
inductive AuditFile where
  | chained (envelope : PersistedAuditEnvelope) (positive : 0 < envelope.sequence)
  | legacy (entry : LegacyEntry)
  | malformed
  | unreadable

/-- The files in the order of their keys, and the records beside them, of whose entries nothing is read. -/
structure AuditFiles where
  files : List AuditFile
  records : AuditStore
  legacyAnchor : Option AuditCheckpointRecord := none

namespace AuditFile

def envelope? : AuditFile → Option PersistedAuditEnvelope
  | .chained envelope _ => some envelope
  | _ => none

section

variable (crypto : AuditCrypto)

def legacyEntry? : AuditFile → Option LegacyEntry
  | .legacy entry => if (crypto.decrypt entry.encryptedPayloadBytes).isSome then some entry else none
  | _ => none

def findings : AuditFile → List AuditIntegrityFinding
  | .chained envelope _ => entryFindings crypto envelope
  | .legacy entry =>
    if (crypto.decrypt entry.encryptedPayloadBytes).isNone then [⟨.entryDecryptFailed,none,none,false⟩] else []
  | .malformed => [⟨.entryMalformed,none,none,false⟩]
  | .unreadable => [⟨.entryUnreadable,none,none,false⟩]

end

end AuditFile

/-- The entries before the chain: how many, and the root over them that the chain continues. -/
structure LegacyRegion where
  legacyCount : Nat
  legacyAnchorHash : String

namespace LegacyRegion

variable (crypto : AuditCrypto) (region : LegacyRegion)

def defaultSeed : ChainSeed :=
  ⟨region.legacyCount+1,if 0 < region.legacyCount then region.legacyAnchorHash else auditChainGenesis,true⟩

def resolveChainSeed (rotation : ControlRead RotationAnchor) :
    List PersistedAuditEnvelope → ChainSeed × List AuditIntegrityFinding
  | [] => (region.defaultSeed,if rotation=.absent then [] else [⟨.rotationAnchorInvalid,none,none,false⟩])
  | head::_ =>
    if head.sequence ≤ region.legacyCount+1 then (region.defaultSeed,[])
    else
      let fromHead : ChainSeed := ⟨head.sequence,head.prevHash,false⟩
      match rotation with
      | .valid anchor =>
        if anchor.baseSequence=head.sequence then (⟨anchor.baseSequence,anchor.basePrevHash,true⟩,[])
        else (fromHead,[⟨.rotationAnchorInvalid,some head.sequence,none,false⟩])
      | .invalid => (fromHead,[⟨.rotationAnchorInvalid,some head.sequence,none,false⟩])
      | .absent => (fromHead,[⟨.rotationAnchorMissing,some head.sequence,none,false⟩])

def verifyLegacyAnchor : Option AuditCheckpointRecord → List AuditIntegrityFinding
  | none => []
  | some anchor =>
    if region.legacyCount=0 then []
    else
      (if anchor.signed.isSome ∧ verifyCheckpointRecordSignature crypto anchor=false then
        [⟨.checkpointSignatureMismatch,some anchor.checkpointSequence,none,false⟩] else []) ++
      (if anchor.checkpointSequence≠region.legacyCount ∨ anchor.rootHash≠region.legacyAnchorHash then
        [⟨.legacyAnchorMismatch,none,none,false⟩] else [])

def spansRotatedEntries (rotationFloor : Nat) (record : AuditCheckpointRecord) : Bool :=
  region.legacyCount < record.fromSequence ∧ record.fromSequence < rotationFloor

variable (chained : List PersistedAuditEnvelope)

def checkpointRootFindings (record : AuditCheckpointRecord) :
    List AuditIntegrityFinding :=
  let mismatch (hashes : List String) : List AuditIntegrityFinding :=
    if record.rootHash≠crypto.computeAuditRoot hashes then
      [⟨.checkpointRootMismatch,some record.checkpointSequence,none,false⟩] else []
  if record.fromSequence=1 ∧ record.checkpointSequence=region.legacyCount ∧ 0 < region.legacyCount then
    mismatch [region.legacyAnchorHash]
  else
    ((checkpointRange record).filterMap fun sequence =>
      if sequence ≤ region.legacyCount ∨ (bySequence chained sequence).isNone then
        some ⟨.checkpointRootMismatch,some sequence,none,false⟩ else none) ++
    mismatch ((checkpointRange record).filterMap fun sequence =>
      if sequence ≤ region.legacyCount then none else (bySequence chained sequence).map (·.entryHash))

def checkpointFindings (record : AuditCheckpointRecord) :
    List AuditIntegrityFinding :=
  (if region.spansRotatedEntries ((chained.head?.map (·.sequence)).getD (region.legacyCount+1)) record then []
    else region.checkpointRootFindings crypto chained record) ++
  (if record.signed.isSome ∧ verifyCheckpointRecordSignature crypto record=false then
    [⟨.checkpointSignatureMismatch,some record.checkpointSequence,none,false⟩] else [])

def anchorEntryHash (seed : ChainSeed) (anchor : HeadAnchor) :
    Option String :=
  match Operational.anchorEntryHash chained seed anchor with
  | some hash => some hash
  | none => if anchor.highestSequence=region.legacyCount then some region.legacyAnchorHash else none

def headAnchorDue (anchor : ControlRead HeadAnchor) (highestChainedSeq : Nat) (hasChainedEntries : Bool) : Bool :=
  anchor=.absent ∧ 0 < region.legacyCount ∧ hasChainedEntries=false ∧ 0 < highestChainedSeq

def verifyHeadAnchor (s : AuditStore) (anchor : ControlRead HeadAnchor) (highestChainedSeq : Nat)
    (namedHash : HeadAnchor → Option String) (hasChainedEntries hasLegacyAnchor : Bool) :
    List AuditIntegrityFinding :=
  if region.headAnchorDue anchor highestChainedSeq hasChainedEntries then []
  -- The legacy anchor is a checkpoint record too, so it establishes a store as an entry does.
  else Operational.verifyHeadAnchor s anchor highestChainedSeq namedHash
    (decide (0 < region.legacyCount) || hasChainedEntries || hasLegacyAnchor)

end LegacyRegion

namespace AuditFiles

section

variable (d : AuditFiles)

def envelopes : List PersistedAuditEnvelope := d.files.filterMap AuditFile.envelope?

variable (crypto : AuditCrypto)

def verifiedChain : List PersistedAuditEnvelope := chainedEntries crypto d.envelopes

def legacyEntries : List LegacyEntry := d.files.filterMap (AuditFile.legacyEntry? crypto)

-- The hash is over the place of a legacy entry, its key and its bytes.
variable (legacyHash : Nat → LegacyEntry → String)

def legacyRegion : LegacyRegion :=
  ⟨(d.legacyEntries crypto).length,
    if d.legacyEntries crypto=[] then auditChainGenesis
    else crypto.computeAuditRoot ((d.legacyEntries crypto).mapIdx fun i entry => legacyHash (i+1) entry)⟩

def highestChainedSeq : Nat :=
  ((highestObserved d.envelopes).map (·.sequence)).getD (d.legacyRegion crypto legacyHash).legacyCount

def loadFindings (signingRecoveryThisLoad : Bool) : List AuditIntegrityFinding :=
  let chained := d.verifiedChain crypto
  let region := d.legacyRegion crypto legacyHash
  let seed := region.resolveChainSeed (loadRotationAnchor crypto d.records) chained
  List.flatten [d.files.flatMap (AuditFile.findings crypto),
    region.verifyLegacyAnchor crypto d.legacyAnchor,
    seed.2,
    verifyChainedEntries seed.1.expectedSequence seed.1.expectedPrevHash chained,
    d.records.checkpoints.flatMap (region.checkpointFindings crypto chained),
    (signingView crypto d.records).findings signingRecoveryThisLoad,
    region.verifyHeadAnchor d.records (loadHeadAnchor crypto d.records) (d.highestChainedSeq crypto legacyHash)
      (region.anchorEntryHash chained seed.1) (!chained.isEmpty) d.legacyAnchor.isSome]

end

section

variable (crypto : AuditCrypto) (legacyHash : Nat → LegacyEntry → String) (mayMutate : Bool)

def writtenLegacyAnchor (signer : SignerOutcome) (now : String) (d : AuditFiles) :
    Option AuditCheckpointRecord :=
  let region := d.legacyRegion crypto legacyHash
  if d.legacyAnchor=none ∧ 0 < region.legacyCount ∧ mayMutate then
    let payload : CheckpointPayload := ⟨region.legacyCount,1,region.legacyAnchorHash,0,now⟩
    some ⟨payload,if signer=.signs then some (crypto.sign payload) else none⟩
  else d.legacyAnchor

def recoveredRecords (now : String) (signingRecoveryThisLoad : Bool) (s : AuditStore) :
    AuditStore :=
  let v := signingView crypto s
  if (v.latchRecoveryDue ∨ v.headRecoveryDue ∨ v.selfHealDue) ∧ mayMutate then
    ((performSigningRecoveryWrites crypto v (v.findings signingRecoveryThisLoad) now).run s).2
  else s

def anchoredRecords (d : AuditFiles) (s : AuditStore) : AuditStore :=
  let region := d.legacyRegion crypto legacyHash
  let highest := d.highestChainedSeq crypto legacyHash
  let hash := ((highestObserved d.envelopes).map (·.entryHash)).getD region.legacyAnchorHash
  if region.headAnchorDue (loadHeadAnchor crypto d.records) highest (!(d.verifiedChain crypto).isEmpty) ∧ mayMutate then
    (s.putHeadAnchor (sealRecord crypto.headAnchorMac ⟨highest,hash⟩)).putEstablished
  else s

def loaded (signer : SignerOutcome) (now : String) (signingRecoveryThisLoad : Bool)
    (d : AuditFiles) : AuditFiles where
  files := d.files
  records := anchoredRecords crypto legacyHash mayMutate d
    (recoveredRecords crypto mayMutate now signingRecoveryThisLoad d.records)
  legacyAnchor := writtenLegacyAnchor crypto legacyHash mayMutate signer now d

/-- The findings of the load that a process starts with: a pass with a hard finding is made once more. -/
def strictLoadFindings (signer : SignerOutcome) (now : String) (d : AuditFiles) :
    List AuditIntegrityFinding :=
  let first := d.loadFindings crypto legacyHash false
  let v := signingView crypto d.records
  if first.any isHardIntegrityFinding then
    (d.loaded crypto legacyHash mayMutate signer now false).loadFindings crypto legacyHash
      (v.latchRecoveryDue || v.headRecoveryDue)
  else first

end

end AuditFiles

def LegacyRegion.empty : LegacyRegion := ⟨0,auditChainGenesis⟩

namespace LegacyRegion

variable (crypto : AuditCrypto)

theorem resolveChainSeed_empty (rotation : ControlRead RotationAnchor) (chained : List PersistedAuditEnvelope) :
    empty.resolveChainSeed rotation chained=Operational.resolveChainSeed rotation chained := by
  cases chained with
  | nil => rfl
  | cons head rest => rfl

theorem verifyLegacyAnchor_empty (anchor : Option AuditCheckpointRecord) :
    empty.verifyLegacyAnchor crypto anchor=[] := by
  cases anchor with
  | none => rfl
  | some anchor => rfl

end LegacyRegion

theorem loadHeadAnchor_pos {crypto : AuditCrypto} {s : AuditStore} {anchor : HeadAnchor}
    (h : loadHeadAnchor crypto s=.valid anchor) : 0 < anchor.highestSequence := by
  rw [loadHeadAnchor] at h
  cases hrea : readSealed crypto.headAnchorMac s.headAnchor with
  | absent =>
    rw [hrea] at h
    cases h
  | invalid =>
    rw [hrea] at h
    cases h
  | valid data =>
    rw [hrea] at h
    dsimp only at h
    split_ifs at h with hzer
    cases h
    exact Nat.pos_of_ne_zero hzer

namespace AuditFiles

variable {crypto : AuditCrypto} {d : AuditFiles}

theorem recoveredRecords_keeps {I : AuditStore → Prop} (h : Beside I) {s : AuditStore} (hs : I s)
    (mayMutate : Bool) (now : String) (signingRecoveryThisLoad : Bool) :
    I (recoveredRecords crypto mayMutate now signingRecoveryThisLoad s) := by
  rw [recoveredRecords]
  split_ifs
  · exact (h.performSigningRecoveryWrites hs _ _ now).run.1
  · exact hs

end AuditFiles

end CastleWall.Operational
