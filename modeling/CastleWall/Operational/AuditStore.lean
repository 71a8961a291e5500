import CastleWall.Support.Process
import Mathlib.Data.List.Sort

/-! # The audit store

`operational/audit-log.ts`: the records of `_audit`, `_audit_checkpoints` and `_meta` on a store whose entries
are all chained and that no split boundary divides. -/

namespace CastleWall.Operational

/-- An entry as the caller gives it, `content` being all of it but the time. -/
structure AuditEntry where
  (timestamp content : String)

structure EntryHashInput where
  sequence : Nat
  (prevHash timestamp encryptedPayloadBytes : String)
deriving DecidableEq

structure PersistedAuditEnvelope extends EntryHashInput where
  entryHash : String
deriving DecidableEq

structure HeadAnchor where
  highestSequence : Nat
  headHash : String
deriving DecidableEq

structure RotationAnchor where
  baseSequence : Nat
  basePrevHash : String
deriving DecidableEq

structure CheckpointPayload where
  (checkpointSequence fromSequence : Nat)
  rootHash : String
  previousCheckpointSequence : Nat
  signedAt : String
deriving DecidableEq

structure CheckpointSignature where
  (signerKid signature : String)
deriving DecidableEq

/-- A checkpoint without a signature is marked `unsigned`. -/
structure AuditCheckpointRecord extends CheckpointPayload where
  signed : Option CheckpointSignature
deriving DecidableEq

structure SigningLatch where
  armedAtSequence : Nat
  (signerKid armedAt : String)
deriving DecidableEq

inductive SignerFailureReason where
  | identityUnreadable
  | identityUndecryptable
  | signingFailed
deriving DecidableEq

structure SigningHeadIncident where
  sequence : Nat
  reasonClass : SignerFailureReason
deriving DecidableEq

inductive MarkerKind where
  | latchRecovered
  | headRecreated
  | downgradeLatched
deriving DecidableEq

structure SigningHeadLatchedMarker where
  markerKind : MarkerKind
  detail : String
deriving DecidableEq

structure SigningHead where
  incidentCount : Nat
  (firstIncidentSequence lastIncidentSequence : Option Nat)
  recent : List SigningHeadIncident
  highestSignedCheckpointSequence : Nat
  lowestSignedCheckpointSequence : Option Nat
  latched : List SigningHeadLatchedMarker
  latchedEvictedCount : Nat
  hardDowngradeEverLatched : Bool
deriving DecidableEq

structure Sealed (α : Type) where
  data : α
  mac : String
deriving DecidableEq

/-- A record read back: one that does not carry its MAC is tampered with. -/
inductive ControlRead (α : Type) where
  | absent
  | valid (data : α)
  | invalid
deriving DecidableEq

def sealRecord {α : Type} (mac : α → String) (data : α) : Sealed α := ⟨data,mac data⟩

def readSealed {α : Type} (mac : α → String) : Option (Sealed α) → ControlRead α
  | none => .absent
  | some record => if record.mac=mac record.data then .valid record.data else .invalid

@[simp] theorem readSealed_none {α : Type} (mac : α → String) : readSealed mac none=.absent := rfl

@[simp] theorem readSealed_sealRecord {α : Type} (mac : α → String) (data : α) :
    readSealed mac (some (sealRecord mac data))=.valid data := if_pos rfl

structure AuditCrypto where
  computeAuditEntryHash : EntryHashInput → String
  computeAuditRoot : List String → String
  headAnchorMac : HeadAnchor → String
  rotationAnchorMac : RotationAnchor → String
  signingLatchMac : SigningLatch → String
  signingHeadMac : SigningHead → String
  /-- The payload an entry is stored as, with a nonce of its own. -/
  encrypt : AuditEntry → Nat → String
  decrypt : String → Option AuditEntry
  sign : CheckpointPayload → CheckpointSignature
  /-- The signature is good under a key the resolver knows the signer by. -/
  verify : CheckpointPayload → CheckpointSignature → Bool
  decrypt_encrypt : ∀ entry nonce, decrypt (encrypt entry nonce)=some entry
  verify_sign : ∀ payload, verify payload (sign payload)=true

/-! Texts that keep all they are made of can stand for what the keys compute. -/

def fieldText (fields : List String) : List Char :=
  fields.flatMap fun field => field.toList.flatMap (fun c => ['1',c])++['0']

/-- The fields of a text, the first of them read as far as `field`. -/
def readFields (field : List Char) : List Char → List String
  | '1' :: c::rest => readFields (field++[c]) rest
  | '0' :: rest => String.ofList field::readFields [] rest
  | _ => []

theorem readFields_append (field chars rest : List Char) :
    readFields field (chars.flatMap (fun c => ['1',c]) ++ '0' :: rest) =
      String.ofList (field++chars)::readFields [] rest := by
  induction chars generalizing field with
  | nil =>
    rw [List.append_nil]
    rfl
  | cons c chars ih =>
    change readFields (field++[c]) (chars.flatMap (fun c => ['1',c]) ++ '0' :: rest)=_
    rw [ih,List.append_assoc]
    rfl

theorem readFields_fieldText (fields : List String) : readFields [] (fieldText fields)=fields := by
  induction fields with
  | nil => rfl
  | cons field fields ih =>
    rw [fieldText,List.flatMap_cons,List.append_assoc,List.singleton_append,readFields_append,List.nil_append,
      String.ofList_toList]
    exact congrArg _ ih

def textCrypto : AuditCrypto where
  computeAuditEntryHash input := String.ofList
    (fieldText [toString input.sequence,input.prevHash,input.timestamp,input.encryptedPayloadBytes])
  computeAuditRoot hashes := String.ofList (fieldText hashes)
  headAnchorMac anchor := String.ofList (fieldText ["head",toString anchor.highestSequence,anchor.headHash])
  rotationAnchorMac anchor := String.ofList (fieldText ["rotation",toString anchor.baseSequence,anchor.basePrevHash])
  signingLatchMac latch := String.ofList (fieldText ["latch",toString latch.armedAtSequence,latch.signerKid,latch.armedAt])
  signingHeadMac head := String.ofList (fieldText ["signing",toString head.highestSignedCheckpointSequence])
  encrypt entry _ := String.ofList (fieldText [entry.timestamp,entry.content])
  decrypt payload := match readFields [] payload.toList with
    | [timestamp,content] => some ⟨timestamp,content⟩
    | _ => none
  sign payload := ⟨"kid",payload.rootHash⟩
  verify payload signature := signature.signature=payload.rootHash
  decrypt_encrypt entry nonce := by
    rw [String.toList_ofList,readFields_fieldText]
  verify_sign payload := decide_eq_true rfl

def auditChainGenesis : String := "GENESIS"

/-- Entries and checkpoints stand in the order of their keys, which is that of their sequence numbers.
`history` is not stored: it has every entry that was ever written, in the order of the writes. -/
structure AuditStore where
  entries : List PersistedAuditEnvelope := []
  checkpoints : List AuditCheckpointRecord := []
  headAnchor : Option (Sealed HeadAnchor) := none
  rotationAnchor : Option (Sealed RotationAnchor) := none
  signingLatch : Option (Sealed SigningLatch) := none
  signingHead : Option (Sealed SigningHead) := none
  /-- The marker `audit-head-anchor-established-v1`. -/
  established : Bool := false
  history : List PersistedAuditEnvelope := []
deriving DecidableEq

namespace AuditStore

variable (s : AuditStore)

/-! Each of these is one write or one delete of the storage backend. -/

def putEntry (envelope : PersistedAuditEnvelope) : AuditStore :=
  { s with
    entries := s.entries.orderedInsert (fun a b => a.sequence ≤ b.sequence) envelope
    history := s.history++[envelope] }

def deleteEntry (sequence : Nat) : AuditStore :=
  { s with entries := s.entries.eraseP fun e => e.sequence=sequence }

def putCheckpoint (record : AuditCheckpointRecord) : AuditStore :=
  { s with
    checkpoints := (s.checkpoints.filter fun c => c.checkpointSequence≠record.checkpointSequence).orderedInsert
      (fun a b => a.checkpointSequence ≤ b.checkpointSequence) record }

def putHeadAnchor (record : Sealed HeadAnchor) : AuditStore := { s with headAnchor := some record }

def putEstablished : AuditStore := { s with established := true }

def putRotationAnchor (record : Sealed RotationAnchor) : AuditStore := { s with rotationAnchor := some record }

def putSigningLatch (record : Sealed SigningLatch) : AuditStore := { s with signingLatch := some record }

def putSigningHead (record : Sealed SigningHead) : AuditStore := { s with signingHead := some record }

/-- Some record stands in `_audit_checkpoints`. -/
def hasCheckpointRecords : Bool :=
  !s.checkpoints.isEmpty || s.headAnchor.isSome || s.rotationAnchor.isSome || s.signingLatch.isSome ||
    s.signingHead.isSome

def bySequence (entries : List PersistedAuditEnvelope) (sequence : Nat) : Option PersistedAuditEnvelope :=
  entries.reverse.find? fun e => e.sequence=sequence

end AuditStore

inductive FindingKind where
  | entryHashMismatch
  | entryUnreadable
  | entryMalformed
  | entryDecryptFailed
  | sequenceGapOrReorder
  | prevHashMismatch
  | rotationAnchorMissing
  | rotationAnchorInvalid
  | tailAnchorMissing
  | tailAnchorInvalid
  | legacyAnchorMismatch
  | checkpointMalformed
  | checkpointRootMismatch
  | checkpointSignatureMismatch
  | checkpointSigningDowngrade
  | checkpointSigningError
  | checkpointSigningHeadRecovered
  | checkpointSigningFloorRecovered
deriving DecidableEq

inductive FindingVariant where
  | duplicateSequence
  | latchTamper
  | headTamper
  | latched
  | latchedEvicted
  | deletedTail
  | rolledFloor
  | deletedPredecessor
  | strip
deriving DecidableEq

structure AuditIntegrityFinding where
  kind : FindingKind
  sequence : Option Nat := none
  variant : Option FindingVariant := none
  /-- The severity is `warn`. -/
  warn : Bool := false
deriving DecidableEq

def isHardIntegrityFinding (finding : AuditIntegrityFinding) : Bool := !finding.warn

end CastleWall.Operational
