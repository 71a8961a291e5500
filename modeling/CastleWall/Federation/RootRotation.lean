import CastleWall.Federation.SyncState
import CastleWall.Support.Faulty

/-! # Rotating the root of a federation

`mesh/federation-rotate-root.ts`: a new fortress master is minted, staged, journaled and promoted over the live
record; after a compromise the old master is put into the durable set of revoked roots before the journal goes. A
rotation that was cut off is resumed from its journal. -/

namespace CastleWall.Federation

open Mesh Faulty
open Outcome (require)

structure HybridMaster where
  (ed25519PublicKey mlDsaPublicKey : String)
  (ed25519PrivateKey mlDsaSecretKey : List UInt8)

structure FederationRootRotationCertificate where
  (fortressId oldMasterPubkey : String)
  newMaster : FortressMasterPublicKey
  rotationSerial : Nat
  (rotatedAt signature : String)
  hybridRotation : Option String

structure FederationTrustRootRecord where
  (fortressId nodeId : String)
  pinnedMasterPubkey : FortressMasterPublicKey
  masterSecret : List UInt8
  masterPrivateKey : Option (List UInt8)
  issuingPrincipalCert : PrincipalCertificate
  issuingPrincipalPrivateKey : List UInt8
  localNodeCert : NodeIdentityCertificate
  localNodePrivateKey : List UInt8
  rotationSerial : Option Nat
  rotationCert : Option FederationRootRotationCertificate
  hybrid : Option HybridMaster

inductive FederationRotationPhase where
  | staged
  | promoting
deriving DecidableEq

structure FederationRotationJournalData where
  fortressId : String
  phase : FederationRotationPhase
  (oldRotationSerial newRotationSerial : Nat)
  (oldMasterPubkey newMasterPubkey : String)
  compromise : Bool
  revocationSerial : Option Nat
  (oldHybridEd25519Pubkey oldHybridMlDsaPubkey : Option String)
  hybridExpected : Bool

structure RootHost where
  custodyRotation : Bool
  (live staged : Option FederationTrustRootRecord)
  journal : Option FederationRotationJournalData
  sync : FederationSyncStateSnapshot

inductive RootCall where
  | readCustodyJournal
  | existsJournal
  | existsStaged
  | deleteStaged
  | loadLive
  | saveLive
  | loadStaged
  | saveStaged
  | readJournal
  | writeJournal
  | deleteJournal
  | loadSync
  | lockSync
  | writeAnchor
  | writeSync
  | audit
deriving DecidableEq

inductive RotateError where
  | lost (call : RootCall)
  | custodyRotationInProgress
  | rotationInProgress
  | notProvisioned
  | notIssuer
  | hybridDowngrade
  | invalidRecord
  | syncUnreadable
  | noJournal
  | compromiseJournal
  | renewalJournal
  | stagedNotHybrid
  | noRotationCert
deriving DecidableEq

structure RootEnv extends MeshEnv where
  /-- The checks of `validateRecord` that do not look at the clock: key lengths, private keys against the public
  ones, the rotation certificate and the hybrid block. -/
  consistent : FederationTrustRootRecord → Bool

def validateRecord (env : RootEnv) (nowMs : Int) (record : FederationTrustRootRecord) : Except RotateError Unit := do
  require (record.fortressId=record.pinnedMasterPubkey.fortressId) .invalidRecord
  require (record.issuingPrincipalCert.fortressId=record.fortressId) .invalidRecord
  require (record.localNodeCert.fortressId=record.fortressId) .invalidRecord
  require (record.localNodeCert.nodeId=record.nodeId) .invalidRecord
  (verifyPrincipalCertificate env.toMeshEnv nowMs record.issuingPrincipalCert record.pinnedMasterPubkey).mapError
    fun _ => .invalidRecord
  (verifyCertChain env.toMeshEnv nowMs record.localNodeCert record.issuingPrincipalCert
    record.pinnedMasterPubkey).mapError fun _ => .invalidRecord
  require (env.consistent record=true) .invalidRecord

/-- What a rotation draws and signs: the new master, the certificates the cascade issues under it, a fresh secret,
and a new hybrid master where the old root has one. -/
structure FreshRoot where
  (publicKey createdAt : String)
  (masterPrivateKey masterSecret : List UInt8)
  principalCert : PrincipalCertificate
  principalPrivateKey : List UInt8
  nodeCert : NodeIdentityCertificate
  (rotatedAt rotationSignature : String)
  hybrid : HybridMaster
  hybridRotation : String

def ed25519PrivateKeyBytes : Nat := 32

def mlDsa65SecretKeyBytes : Nat := 4032

/-- `assertHybridRecordWellFormedForRotation`. -/
def HybridMaster.wellFormed (hybrid : HybridMaster) : Bool :=
  hybrid.ed25519PublicKey ≠ "" && hybrid.mlDsaPublicKey ≠ "" &&
    hybrid.ed25519PrivateKey.length=ed25519PrivateKeyBytes && hybrid.mlDsaSecretKey.length=mlDsa65SecretKeyBytes

variable (live : FederationTrustRootRecord)

/-- What `mintRotatedRecord` and `mintCompromiseRotatedRecord` share. -/
def mintRecord (fresh : FreshRoot) (masterSecret : List UInt8)
    (rotation : Option (Nat × FederationRootRotationCertificate)) : Except RotateError FederationTrustRootRecord := do
  require (live.masterPrivateKey.isSome=true) .notIssuer
  require (live.hybrid.all HybridMaster.wellFormed=true) .hybridDowngrade
  return {
    fortressId := live.fortressId
    nodeId := live.nodeId
    pinnedMasterPubkey := ⟨fresh.publicKey,live.fortressId,fresh.createdAt⟩
    masterSecret
    masterPrivateKey := some fresh.masterPrivateKey
    issuingPrincipalCert := fresh.principalCert
    issuingPrincipalPrivateKey := fresh.principalPrivateKey
    localNodeCert := fresh.nodeCert
    localNodePrivateKey := live.localNodePrivateKey
    rotationSerial := rotation.map Prod.fst
    rotationCert := rotation.map Prod.snd
    hybrid := live.hybrid.map fun _ => fresh.hybrid }

def mintRotatedRecord (fresh : FreshRoot) (newRotationSerial : Nat) :
    Except RotateError FederationTrustRootRecord :=
  mintRecord live fresh live.masterSecret (some (newRotationSerial,
    { fortressId := live.fortressId
      oldMasterPubkey := live.pinnedMasterPubkey.publicKey
      newMaster := ⟨fresh.publicKey,live.fortressId,fresh.createdAt⟩
      rotationSerial := newRotationSerial
      rotatedAt := fresh.rotatedAt
      signature := fresh.rotationSignature
      hybridRotation := live.hybrid.map fun _ => fresh.hybridRotation }))

def mintCompromiseRotatedRecord (fresh : FreshRoot) :
    Except RotateError FederationTrustRootRecord :=
  mintRecord live fresh fresh.masterSecret none

abbrev RootProg (α : Type) : Type := Prog RootCall RootHost RotateError α

section Programs

variable (env : RootEnv) (nowMs : Int)

def plainRootCall (call : RootCall) : RootProg Unit := Prog.read call (.lost call) fun _ => .ok ()

def loadLive : RootProg (Option FederationTrustRootRecord) :=
  Prog.read .loadLive (.lost .loadLive) fun h =>
    match h.live with
    | none => .ok none
    | some record => (validateRecord env nowMs record).map fun _ => some record

variable (record : FederationTrustRootRecord)

def saveLive : RootProg Unit :=
  Prog.write .saveLive (.lost .saveLive) fun h =>
    (validateRecord env nowMs record).map fun _ => { h with live := some record }

def loadStaged : RootProg (Option FederationTrustRootRecord) :=
  Prog.read .loadStaged (.lost .loadStaged) fun h => .ok h.staged

def saveStaged : RootProg Unit :=
  Prog.write .saveStaged (.lost .saveStaged) fun h => .ok { h with staged := some record }

def deleteStagedRoot : RootProg Unit :=
  Prog.write .deleteStaged (.lost .deleteStaged) fun h => .ok { h with staged := none }

def readJournal : RootProg (Option FederationRotationJournalData) :=
  Prog.read .readJournal (.lost .readJournal) fun h => .ok h.journal

variable (journal : FederationRotationJournalData)

def writeJournal : RootProg Unit :=
  Prog.write .writeJournal (.lost .writeJournal) fun h => .ok { h with journal := some journal }

def clearRotationJournal : RootProg Unit :=
  Prog.write .deleteJournal (.lost .deleteJournal) fun h => .ok { h with journal := none }

/-- Integers above this are not read back. -/
def maxSafeInteger : Nat := 2 ^ 53 - 1

def loadSync : RootProg FederationSyncStateSnapshot :=
  Prog.read .loadSync (.lost .loadSync) fun h =>
    if h.sync.highestRevocationSerial ≤ maxSafeInteger then .ok h.sync else .error .syncUnreadable

/-- `FederationSyncStateStore.persist`: under the lock, the record is read again and the anchor is raised before
the merge is written. -/
def persistSync (snapshot : FederationSyncStateSnapshot) : RootProg Unit := do
  plainRootCall .lockSync
  let onDisk ← loadSync
  plainRootCall .writeAnchor
  Prog.write .writeSync (.lost .writeSync) fun h =>
    .ok { h with sync := mergeSyncStateMonotonic onDisk snapshot }

def checkHybrid (staged : FederationTrustRootRecord) : Except RotateError Unit :=
  require (journal.hybridExpected=true → staged.hybrid.isSome=true) .stagedNotHybrid

def markPromoting : RootProg Unit :=
  if journal.phase=.promoting then pure () else writeJournal { journal with phase := .promoting }

def promote : RootProg Unit := do
  markPromoting journal
  match ← loadStaged with
  | none => pure ()
  | some staged => do
    Prog.ofExcept (checkHybrid journal staged)
    saveLive env nowMs staged
    deleteStagedRoot

def withRevokedRoots (snapshot : FederationSyncStateSnapshot) (keys : Finset String) (serial : Nat) :
    FederationSyncStateSnapshot :=
  { snapshot with
    revokedRootPubkeys := snapshot.revokedRootPubkeys ∪ keys
    highestRevocationSerial := max snapshot.highestRevocationSerial serial }

def persistRevocation (keys : Finset String) (serial : Nat) : RootProg Unit := do
  let snapshot ← loadSync
  persistSync (withRevokedRoots snapshot keys serial)

/-- Neither rotation is in flight, and a staged record without a journal is removed. -/
def refuseWhileRotating : RootProg Unit := do
  let custody ← Prog.read .readCustodyJournal (.lost .readCustodyJournal) fun h => .ok h.custodyRotation
  Prog.ofExcept (require (custody=false) .custodyRotationInProgress)
  let journaled ← Prog.read .existsJournal (.lost .existsJournal) fun h => .ok h.journal.isSome
  Prog.ofExcept (require (journaled=false) .rotationInProgress)

def cleanOrphan : RootProg Unit := do
  let orphan ← Prog.read .existsStaged (.lost .existsStaged) fun h => .ok h.staged.isSome
  if orphan then deleteStagedRoot else pure ()

def loadIssuer : RootProg FederationTrustRootRecord := do
  match ← loadLive env nowMs with
  | none => Prog.fail .notProvisioned
  | some live => pure live

/-- The `catch` of a rotation: the failure is audited, then reported. -/
def auditing {α : Type} (m : RootProg α) : RootProg α := do
  match ← m.attempt with
  | .ok a => pure a
  | .error err => do
    plainRootCall .audit
    Prog.fail err

structure RotateFederationRootResult where
  fortressId : String
  newPinnedMaster : FortressMasterPublicKey
  rotationCert : Option FederationRootRotationCertificate
  rotationSerial : Option Nat
  previousMasterPubkey : String
  resumed : Bool

def renewalJournal (live rotated : FederationTrustRootRecord) : FederationRotationJournalData where
  fortressId := live.fortressId
  phase := .staged
  oldRotationSerial := live.rotationSerial.getD 0
  newRotationSerial := live.rotationSerial.getD 0+1
  oldMasterPubkey := live.pinnedMasterPubkey.publicKey
  newMasterPubkey := rotated.pinnedMasterPubkey.publicKey
  compromise := false
  revocationSerial := none
  oldHybridEd25519Pubkey := none
  oldHybridMlDsaPubkey := none
  hybridExpected := live.hybrid.isSome

variable (fresh : FreshRoot)

def renewFrom (live : FederationTrustRootRecord) : RootProg RotateFederationRootResult := do
  let rotated ← Prog.ofExcept (mintRotatedRecord live fresh (live.rotationSerial.getD 0+1))
  saveStaged rotated
  writeJournal (renewalJournal live rotated)
  promote env nowMs (renewalJournal live rotated)
  plainRootCall .audit
  clearRotationJournal
  pure ⟨rotated.fortressId,rotated.pinnedMasterPubkey,rotated.rotationCert,rotated.rotationSerial,
    live.pinnedMasterPubkey.publicKey,false⟩

def rotateFederationRootRenew : RootProg RotateFederationRootResult := do
  refuseWhileRotating
  cleanOrphan
  let live ← loadIssuer env nowMs
  auditing (renewFrom env nowMs fresh live)

structure RotateFederationRootCompromisedResult where
  fortressId : String
  newPinnedMaster : FortressMasterPublicKey
  revokedMasterPubkey : String
  revocationSerial : Nat

def FederationTrustRootRecord.rootKeys : Finset String :=
  insert record.pinnedMasterPubkey.publicKey
    ((record.hybrid.map fun hybrid => {hybrid.ed25519PublicKey, hybrid.mlDsaPublicKey}).getD ∅)

def FederationRotationJournalData.revokedKeys : Finset String :=
  insert journal.oldMasterPubkey (journal.oldHybridEd25519Pubkey.toFinset ∪ journal.oldHybridMlDsaPubkey.toFinset)

def compromiseJournal (live rotated : FederationTrustRootRecord) (revocationSerial : Nat) :
    FederationRotationJournalData where
  fortressId := live.fortressId
  phase := .staged
  oldRotationSerial := live.rotationSerial.getD 0
  newRotationSerial := live.rotationSerial.getD 0
  oldMasterPubkey := live.pinnedMasterPubkey.publicKey
  newMasterPubkey := rotated.pinnedMasterPubkey.publicKey
  compromise := true
  revocationSerial := some revocationSerial
  oldHybridEd25519Pubkey := live.hybrid.map (·.ed25519PublicKey)
  oldHybridMlDsaPubkey := live.hybrid.map (·.mlDsaPublicKey)
  hybridExpected := live.hybrid.isSome

def compromiseFrom (live : FederationTrustRootRecord) :
    RootProg RotateFederationRootCompromisedResult := do
  let prior ← loadSync
  let rotated ← Prog.ofExcept (mintCompromiseRotatedRecord live fresh)
  saveStaged rotated
  writeJournal (compromiseJournal live rotated (prior.highestRevocationSerial+1))
  promote env nowMs (compromiseJournal live rotated (prior.highestRevocationSerial+1))
  persistRevocation live.rootKeys (prior.highestRevocationSerial+1)
  plainRootCall .audit
  clearRotationJournal
  pure ⟨rotated.fortressId,rotated.pinnedMasterPubkey,live.pinnedMasterPubkey.publicKey,
    prior.highestRevocationSerial+1⟩

def rotateFederationRootCompromised : RootProg RotateFederationRootCompromisedResult := do
  refuseWhileRotating
  cleanOrphan
  let live ← loadIssuer env nowMs
  auditing (compromiseFrom env nowMs fresh live)

def openJournal (compromise : Bool) : RootProg FederationRotationJournalData := do
  match ← readJournal with
  | none => Prog.fail .noJournal
  | some journal =>
    if journal.compromise=compromise then pure journal
    else Prog.fail (if compromise then .renewalJournal else .compromiseJournal)

def promotedRoot : RootProg FederationTrustRootRecord := do
  match ← loadLive env nowMs with
  | none => Prog.fail .noRotationCert
  | some live => pure live

def resumeFederationRootRotation : RootProg RotateFederationRootResult := do
  let journal ← openJournal false
  promote env nowMs journal
  let live ← promotedRoot env nowMs
  Prog.ofExcept (require (live.rotationCert.isSome=true ∧ live.rotationSerial.isSome=true) .noRotationCert)
  plainRootCall .audit
  clearRotationJournal
  pure ⟨live.fortressId,live.pinnedMasterPubkey,live.rotationCert,live.rotationSerial,journal.oldMasterPubkey,true⟩

def resumeFederationRootCompromised : RootProg RotateFederationRootCompromisedResult := do
  let journal ← openJournal true
  promote env nowMs journal
  let live ← promotedRoot env nowMs
  persistRevocation journal.revokedKeys (journal.revocationSerial.getD 1)
  plainRootCall .audit
  clearRotationJournal
  pure ⟨live.fortressId,live.pinnedMasterPubkey,journal.oldMasterPubkey,journal.revocationSerial.getD 1⟩

end Programs

inductive RootAct where
  | renew (fresh : FreshRoot)
  | compromised (fresh : FreshRoot)
  | resumeRenewal
  | resumeCompromised

structure RootProcess where
  act : RootAct
  nowMs : Int
  fault : Nat → RootCall → Fault

def RootAct.Resumes : RootAct → Prop
  | .resumeRenewal => True
  | .resumeCompromised => True
  | _ => False

def RootProcess.run (env : RootEnv) (p : RootProcess) : RootProg Unit :=
  match p.act with
  | .renew fresh => do let _ ← rotateFederationRootRenew env p.nowMs fresh; pure ()
  | .compromised fresh => do let _ ← rotateFederationRootCompromised env p.nowMs fresh; pure ()
  | .resumeRenewal => do let _ ← resumeFederationRootRotation env p.nowMs; pure ()
  | .resumeCompromised => do let _ ← resumeFederationRootCompromised env p.nowMs; pure ()

def runRoot (env : RootEnv) (ps : List RootProcess) (w : World RootCall RootHost) : World RootCall RootHost :=
  runs (RootProcess.run env) RootProcess.fault ps w

end CastleWall.Federation
