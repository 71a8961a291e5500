import CastleWall.Support.Faulty
import CastleWall.Support.OrderedMap
import CastleWall.Support.Outcome

/-! # The journal of an exit import

`exit/bundle.ts` and `storage/exit-import-journal-record.ts`: an import snapshots every location it may write and
publishes the snapshots before its first write. What was cut off is rolled back from the journal, unless the import
record says that the import was activated. -/

namespace CastleWall.Exit

open Faulty
open Outcome (require)

abbrev Bytes : Type := List UInt8

structure StagedLocation where
  (namespaceName key : String)
deriving DecidableEq

def exitImportNamespace : String := "_exit_imports"
def exitPublicIdentitiesNamespace : String := "_exit_public_identities"
def exitAuditReceiptsNamespace : String := "_exit_audit_receipts"
def exitPolicySetsNamespace : String := "_exit_policy_sets"
def exitCommitmentsNamespace : String := "_exit_commitments"
def exitPlaceholderMetadataNamespace : String := "_exit_placeholder_metadata"
def knownSignersNamespace : String := "_known_signers"
def stateEnvelopePublicKeysKey : String := "state-envelope-public-keys-v1"
def stateEnvelopeVersionAnchorsKey : String := "state-envelope-version-anchors-v1"

def maxExitImportJournalLocations : Nat := 100000

def completionLocation (importId : String) : StagedLocation := ⟨exitImportNamespace,importId⟩

/-- The namespaces that nothing but an import writes. -/
def exitStagingNamespaces : List String :=
  [exitPublicIdentitiesNamespace,exitPolicySetsNamespace,exitAuditReceiptsNamespace,exitCommitmentsNamespace,
    exitPlaceholderMetadataNamespace,exitImportNamespace]

def locationNeedsPostImageDivergenceCheck (namespaceName : String) : Bool :=
  decide (namespaceName∉exitStagingNamespaces)

def isReservedNamespace (namespaceName : String) : Bool := namespaceName.startsWith "_"

def isLocationWithinImportWriteSet (loc : StagedLocation) : Bool :=
  if loc.namespaceName∈exitStagingNamespaces ∨
      loc.namespaceName∈["_reputation",knownSignersNamespace,"_sdw_document_corpus"] then true
  else if loc.namespaceName = "_meta" then
    decide (loc.key=stateEnvelopePublicKeysKey ∨ loc.key=stateEnvelopeVersionAnchorsKey)
  else !isReservedNamespace loc.namespaceName

def dedupeLocations (locations : List StagedLocation) : List StagedLocation := locations.eraseDups

structure StorageSnapshot where
  location : StagedLocation
  data : Option Bytes

structure ExitImportJournalRecord where
  (importId identityId startedAt : String)
  snapshots : List StorageSnapshot

def hasOversizedSnapshotsArray (record : ExitImportJournalRecord) : Bool :=
  decide (maxExitImportJournalLocations < record.snapshots.length)

def isWellFormedExitImportJournalRecord (record : ExitImportJournalRecord) : Bool :=
  record.snapshots.all fun s => isLocationWithinImportWriteSet s.location

inductive PostImage where
  | deleted
  | hash (text : String)
deriving DecidableEq

/-- An import that published its journal, and what storage held right after it wrote its own import record. -/
structure ExitAttempt where
  record : ExitImportJournalRecord
  completed : Option (StagedLocation → Option Bytes)

structure ExitHost where
  data : StagedLocation → Option Bytes
  journals : OrderedMap String ExitImportJournalRecord
  postImages : OrderedMap (String × StagedLocation) PostImage
  rotating : Bool
  /-- Kept for statements: the imports that published a journal, newest first. -/
  attempts : List ExitAttempt

def ExitHost.put (h : ExitHost) (loc : StagedLocation) (value : Option Bytes) : ExitHost :=
  { h with data := Function.update h.data loc value }

@[simp] theorem ExitHost.put_data_self (h : ExitHost) (loc : StagedLocation) (value : Option Bytes) :
    (h.put loc value).data loc=value := by
  simp [ExitHost.put]

theorem ExitHost.put_data_of_ne (h : ExitHost) {loc loc' : StagedLocation} (value : Option Bytes) (hne : loc'≠loc) :
    (h.put loc value).data loc'=h.data loc' := by
  simp [ExitHost.put,hne]

structure ExitEnv where
  hash : Bytes → String
  /-- The bytes parse to an object whose `activated_at` is a string. -/
  activated : Bytes → Bool

inductive RestoreSafety where
  | safeNoop
  | safeRestore
  | diverged
deriving DecidableEq

def classifyRestoreSafety (env : ExitEnv) (current preImage : Option Bytes) (postImage : Option PostImage) :
    RestoreSafety :=
  if current.map env.hash=preImage.map env.hash then .safeNoop
  else if postImage=some .deleted ∧ current=none then .safeRestore
  else if postImage≠none ∧ postImage=current.map (fun bytes => .hash (env.hash bytes)) then .safeRestore
  else .diverged

inductive Clearing where
  | completed
  | rolledBack
  | recovered
deriving DecidableEq

inductive ExitCall where
  | read
  | write
  | stamp
  | readPostImage
  | recordPostImage
  | readRotation
  | flush
  | listJournals
  | readJournal
  | writeJournal
  | listPostImages (clearing : Clearing)
  | deletePostImage (clearing : Clearing)
  | deleteJournal (clearing : Clearing)
deriving DecidableEq

inductive ExitError where
  | lost (call : ExitCall)
  | tooLarge
  | interruptedImport
  | interruptedImportRecoveryFailed (failed : List String)
  | rotationInProgress
  | notVerified
  | stagedArtifactConflict
  | undeclaredWrite
  | operationFailed
  | postImageDiverged
  | partialScope

abbrev ExitProg (α : Type) : Type := Prog ExitCall ExitHost ExitError α

def plainExitCall (call : ExitCall) : ExitProg Unit := Prog.read call (.lost call) fun _ => .ok ()

def readData (loc : StagedLocation) : ExitProg (Option Bytes) :=
  Prog.read .read (.lost .read) fun h => .ok (h.data loc)

def putData (loc : StagedLocation) (value : Option Bytes) : ExitProg Unit :=
  Prog.write .write (.lost .write) fun h => .ok (h.put loc value)

def readRotationJournal : ExitProg Unit := do
  let rotating ← Prog.read .readRotation (.lost .readRotation) fun h => .ok h.rotating
  Prog.ofExcept (require (rotating=false) .rotationInProgress)

def listJournals : ExitProg (List String) :=
  Prog.read .listJournals (.lost .listJournals) fun h => .ok (h.journals.entries.map Prod.fst)

def hasInterruptedExitImport : ExitProg Bool := do
  let keys ← listJournals
  pure (decide (keys≠[]))

section Programs

variable (env : ExitEnv)

def snapshotEach : List StagedLocation → ExitProg (List StorageSnapshot)
  | [] => pure []
  | loc::rest => do
    let data ← readData loc
    let snapshots ← snapshotEach rest
    pure (⟨loc,data⟩::snapshots)

def snapshotStorageLocations (locations : List StagedLocation) : ExitProg (List StorageSnapshot) :=
  snapshotEach (dedupeLocations locations)

def recordPostImage (importId : String) (loc : StagedLocation) (bytes : Option Bytes) : ExitProg Unit :=
  Prog.write .recordPostImage (.lost .recordPostImage) fun h =>
    .ok { h with postImages := h.postImages.set (importId,loc) ((bytes.map fun b => .hash (env.hash b)).getD .deleted) }

def readPostImageHash (importId : String) (loc : StagedLocation) : ExitProg (Option PostImage) :=
  Prog.read .readPostImage (.lost .readPostImage) fun h => .ok (h.postImages.get (importId,loc))

def deleteEachPostImage (clearing : Clearing) : List (String × StagedLocation) → ExitProg Unit
  | [] => pure ()
  | key::rest => do
    Prog.write (.deletePostImage clearing) (.lost (.deletePostImage clearing)) fun h =>
      .ok { h with postImages := h.postImages.erase key }
    deleteEachPostImage clearing rest

def deletePostImageRecords (clearing : Clearing) (importId : String) : ExitProg Unit := do
  let keys ← Prog.read (.listPostImages clearing) (.lost (.listPostImages clearing)) fun h =>
    .ok ((h.postImages.entries.map Prod.fst).filter fun key => key.1=importId)
  deleteEachPostImage clearing keys

def deleteImportJournal (clearing : Clearing) (importId : String) : ExitProg Unit := do
  deletePostImageRecords clearing importId
  Prog.write (.deleteJournal clearing) (.lost (.deleteJournal clearing)) fun h =>
    .ok { h with journals := h.journals.erase importId }

def writeImportJournal (record : ExitImportJournalRecord) : ExitProg Unit :=
  Prog.write .writeJournal (.lost .writeJournal) fun h =>
    .ok { h with journals := h.journals.set record.importId record, attempts := ⟨record,none⟩::h.attempts }

def ExitHost.complete (h : ExitHost) (importId : String) (bytes : Bytes) : ExitHost :=
  let h' := h.put (completionLocation importId) (some bytes)
  { h' with
    attempts := match h.attempts with
      | [] => []
      | a::rest => { a with completed := some h'.data } :: rest }

/-- The write of the import record that carries `activated_at`. -/
def writeCompletion (importId : String) (bytes : Bytes) : ExitProg Unit :=
  Prog.write .stamp (.lost .stamp) fun h => .ok (h.complete importId bytes)

/-- Whether the location may be put back; `false` where its bytes are neither the pre-image nor the import's own. -/
def restoreSnapshot (importId : String) (s : StorageSnapshot) : ExitProg Bool :=
  if locationNeedsPostImageDivergenceCheck s.location.namespaceName then do
    let current ← readData s.location
    let postImage ← readPostImageHash importId s.location
    match classifyRestoreSafety env current s.data postImage with
    | .safeNoop => pure true
    | .diverged => pure false
    | .safeRestore => do
      putData s.location s.data
      pure true
  else do
    putData s.location s.data
    pure true

structure RestoreResult where
  (failed diverged : List StagedLocation)

def RestoreResult.fail (result : RestoreResult) (loc : StagedLocation) : RestoreResult :=
  { result with failed := loc::result.failed }

def RestoreResult.diverge (result : RestoreResult) (loc : StagedLocation) : RestoreResult :=
  ⟨loc::result.failed,loc::result.diverged⟩

def restoreStorageSnapshots (importId : String) : List StorageSnapshot → ExitProg RestoreResult
  | [] => pure ⟨[],[]⟩
  | s::rest => do
    let outcome ← (restoreSnapshot env importId s).attempt
    let result ← restoreStorageSnapshots importId rest
    match outcome with
    | .ok true => pure result
    | .ok false => pure (result.diverge s.location)
    | .error _ => pure (result.fail s.location)

inductive AdmissionStep where
  | write (loc : StagedLocation) (bytes : Bytes)
  | delete (loc : StagedLocation)
  | throw

structure MemoryAdmission where
  (importId identityId startedAt : String)
  locations : List StagedLocation
  operation : List AdmissionStep
  completionBytes : Bytes
  /-- The callback's locations are not import records. -/
  outside : ∀ loc∈locations, loc.namespaceName≠exitImportNamespace
  activates : env.activated completionBytes=true

variable {env} in
def MemoryAdmission.journalLocations (a : MemoryAdmission env) : List StagedLocation :=
  a.locations++[completionLocation a.importId]

def assertDeclared (declared : List StagedLocation) (loc : StagedLocation) : ExitProg Unit :=
  Prog.ofExcept (require (loc∈declared) .undeclaredWrite)

def recordDeleted (importId : String) (loc : StagedLocation) (existed : Bool) : ExitProg Unit :=
  if existed then recordPostImage env importId loc none else pure ()

/-- A step under the write guard: it is declared, and its bytes are recorded before the next one. -/
def guardedStep (importId : String) (declared : List StagedLocation) : AdmissionStep → ExitProg Unit
  | .write loc bytes => do
    assertDeclared declared loc
    putData loc (some bytes)
    recordPostImage env importId loc (some bytes)
  | .delete loc => do
    assertDeclared declared loc
    let current ← readData loc
    putData loc none
    recordDeleted env importId loc current.isSome
  | .throw => Prog.fail .operationFailed

def guardedSteps (importId : String) (declared : List StagedLocation) : List AdmissionStep → ExitProg Unit
  | [] => pure ()
  | step::rest => do
    guardedStep env importId declared step
    guardedSteps importId declared rest

def verifySnapshot (importId : String) (s : StorageSnapshot) : ExitProg Unit :=
  if locationNeedsPostImageDivergenceCheck s.location.namespaceName then do
    let current ← readData s.location
    let postImage ← readPostImageHash importId s.location
    Prog.ofExcept (require (classifyRestoreSafety env current s.data postImage≠.diverged) .postImageDiverged)
  else pure ()

def verifySnapshots (importId : String) : List StorageSnapshot → ExitProg Unit
  | [] => pure ()
  | s::rest => do
    verifySnapshot env importId s
    verifySnapshots importId rest

variable {env}

def writeAdmission (a : MemoryAdmission env) (snapshots : List StorageSnapshot) : ExitProg Unit := do
  guardedSteps env a.importId a.locations a.operation
  verifySnapshots env a.importId snapshots
  writeCompletion a.importId a.completionBytes

def admitAndClear (a : MemoryAdmission env) (snapshots : List StorageSnapshot) : ExitProg Unit := do
  writeAdmission a snapshots
  deleteImportJournal .completed a.importId

variable (env) in
def rollBackAdmission (importId : String) (snapshots : List StorageSnapshot) (err : ExitError) : ExitProg Unit := do
  let rollback ← restoreStorageSnapshots env importId snapshots
  Prog.ofExcept (require (rollback.failed=[] ∧ rollback.diverged=[]) .partialScope)
  deleteImportJournal .rolledBack importId
  Prog.fail err

def runJournaledExitMemoryAdmission (a : MemoryAdmission env) : ExitProg Unit := do
  Prog.ofExcept (require (a.locations.length ≤ maxExitImportJournalLocations) .tooLarge)
  let interrupted ← hasInterruptedExitImport
  Prog.ofExcept (require (interrupted=false) .interruptedImport)
  let snapshots ← snapshotStorageLocations a.journalLocations
  writeImportJournal ⟨a.importId,a.identityId,a.startedAt,snapshots⟩
  match ← (admitAndClear a snapshots).attempt with
  | .ok _ => pure ()
  | .error err => rollBackAdmission env a.importId snapshots err

structure RecoveryReport where
  recovered : Nat
  (failed diverged : List String)
  divergedLocations : List StagedLocation

def completionActivated (env : ExitEnv) (record : Option Bytes) : Bool := record.any env.activated

variable (env)

def recoverJournal (key : String) (record : ExitImportJournalRecord) : ExitProg RecoveryReport := do
  let importRecord ← readData (completionLocation record.importId)
  if completionActivated env importRecord then do
    deleteImportJournal .recovered key
    pure ⟨1,[],[],[]⟩
  else do
    let cleanup ← restoreStorageSnapshots env record.importId record.snapshots
    if cleanup.failed=[] then do
      deleteImportJournal .recovered key
      pure ⟨1,[],[],[]⟩
    else
      pure ⟨0,[key],if cleanup.diverged=[] then [] else [key],cleanup.diverged⟩

def recoverEntry (key : String) : ExitProg RecoveryReport := do
  let record ← Prog.read .readJournal (.lost .readJournal) fun h => .ok (h.journals.get key)
  match record with
  | none => pure ⟨0,[key],[],[]⟩
  | some record =>
    if hasOversizedSnapshotsArray record || !isWellFormedExitImportJournalRecord record then pure ⟨0,[key],[],[]⟩
    else recoverJournal env key record

def recoverInterruptedExitImports : ExitProg RecoveryReport := do
  match ← listJournals with
  | [] => pure ⟨0,[],[],[]⟩
  | [key] => do
    let report ← recoverEntry env key
    plainExitCall .flush
    pure report
  | keys => pure ⟨0,keys,[],[]⟩

def recoverInterruptedExitImportsOrThrow : ExitProg Unit := do
  let report ← recoverInterruptedExitImports env
  Prog.ofExcept (require (report.failed=[]) (.interruptedImportRecoveryFailed report.failed))

structure StagedArtifacts where
  publicIdentity : Option (String × Bytes)
  (policySet auditReceipts commitments placeholderMetadata : Option Bytes)

def StagedArtifacts.writes (artifacts : StagedArtifacts) (importId : String) : List (StagedLocation × Bytes) :=
  (artifacts.publicIdentity.map fun identity => (⟨exitPublicIdentitiesNamespace,identity.1⟩,identity.2)).toList ++
  (artifacts.policySet.map fun bytes => (⟨exitPolicySetsNamespace,importId⟩,bytes)).toList ++
  (artifacts.auditReceipts.map fun bytes => (⟨exitAuditReceiptsNamespace,importId⟩,bytes)).toList ++
  (artifacts.commitments.map fun bytes => (⟨exitCommitmentsNamespace,importId⟩,bytes)).toList ++
  (artifacts.placeholderMetadata.map fun bytes => (⟨exitPlaceholderMetadataNamespace,importId⟩,bytes)).toList

inductive ActivationStep where
  | write (loc : StagedLocation) (bytes : Bytes)
  | throw

structure BundleImport where
  (importId identityId startedAt : String)
  /-- What the checks before the import decided. -/
  (verified allowStagedOverwrite : Bool)
  artifacts : StagedArtifacts
  /-- The attestations, the known signers, the state entries and the two `_meta` keys. -/
  locations : List StagedLocation
  operation : List ActivationStep
  (interimBytes completionBytes : Bytes)
  outside : ∀ loc∈locations, loc.namespaceName≠exitImportNamespace
  declared : ∀ loc bytes, ActivationStep.write loc bytes∈operation → loc∈locations
  inProgress : env.activated interimBytes=false
  activates : env.activated completionBytes=true

variable {env}

def BundleImport.activationSnapshotLocations (b : BundleImport env) : List StagedLocation :=
  (b.artifacts.writes b.importId).map Prod.fst++completionLocation b.importId::b.locations

def locationExists (loc : StagedLocation) : ExitProg Bool := do
  let data ← readData loc
  pure data.isSome

def refuseStagedConflicts (b : BundleImport env) : ExitProg Unit := do
  let policySet ← locationExists ⟨exitPolicySetsNamespace,b.importId⟩
  let auditReceipts ← locationExists ⟨exitAuditReceiptsNamespace,b.importId⟩
  let commitments ← locationExists ⟨exitCommitmentsNamespace,b.importId⟩
  let importRecord ← locationExists (completionLocation b.importId)
  Prog.ofExcept (require ((policySet || auditReceipts || commitments || importRecord)=true →
    b.allowStagedOverwrite=true) .stagedArtifactConflict)

def stageEach : List (StagedLocation × Bytes) → ExitProg Unit
  | [] => pure ()
  | (loc,bytes)::rest => do
    putData loc (some bytes)
    stageEach rest

variable (env) in
/-- A post-image that cannot be recorded does not fail the write. -/
def activationStep (importId : String) : ActivationStep → ExitProg Unit
  | .write loc bytes => do
    putData loc (some bytes)
    let _ ← (recordPostImage env importId loc (some bytes)).attempt
    pure ()
  | .throw => Prog.fail .operationFailed

variable (env) in
def activationSteps (importId : String) : List ActivationStep → ExitProg Unit
  | [] => pure ()
  | step::rest => do
    activationStep env importId step
    activationSteps importId rest

def activate (b : BundleImport env) : ExitProg Unit := do
  readRotationJournal
  stageEach (b.artifacts.writes b.importId)
  putData (completionLocation b.importId) (some b.interimBytes)
  plainExitCall .flush
  activationSteps env b.importId b.operation
  plainExitCall .flush
  writeCompletion b.importId b.completionBytes

/-- A journal that cannot be cleared after the stamp is no failure. -/
def activateAndClear (b : BundleImport env) : ExitProg Unit := do
  activate b
  let _ ← (deleteImportJournal .completed b.importId).attempt
  pure ()

def clearUnlessFailed (importId : String) (cleanup : RestoreResult) : ExitProg Unit :=
  if cleanup.failed=[] then deleteImportJournal .rolledBack importId else pure ()

variable (env) in
def rollBackActivation (importId : String) (snapshots : List StorageSnapshot) (err : ExitError) : ExitProg Unit := do
  let cleanup ← restoreStorageSnapshots env importId snapshots
  clearUnlessFailed importId cleanup
  plainExitCall .flush
  Prog.fail err

def importExitBundle (b : BundleImport env) : ExitProg Unit := do
  recoverInterruptedExitImportsOrThrow env
  readRotationJournal
  Prog.ofExcept (require (b.verified=true) .notVerified)
  refuseStagedConflicts b
  Prog.ofExcept (require (b.activationSnapshotLocations.length ≤ maxExitImportJournalLocations) .tooLarge)
  let snapshots ← snapshotStorageLocations b.activationSnapshotLocations
  readRotationJournal
  let interrupted ← hasInterruptedExitImport
  Prog.ofExcept (require (interrupted=false) .interruptedImport)
  writeImportJournal ⟨b.importId,b.identityId,b.startedAt,snapshots⟩
  match ← (activateAndClear b).attempt with
  | .ok _ => pure ()
  | .error err => rollBackActivation env b.importId snapshots err

end Programs

inductive ExitAct (env : ExitEnv) where
  | admission (a : MemoryAdmission env)
  | bundle (b : BundleImport env)
  | recover

structure ExitProcess (env : ExitEnv) where
  act : ExitAct env
  fault : Nat → ExitCall → Fault

def ExitProcess.run {env : ExitEnv} (p : ExitProcess env) : ExitProg Unit :=
  match p.act with
  | .admission a => runJournaledExitMemoryAdmission a
  | .bundle b => importExitBundle b
  | .recover => do let _ ← recoverInterruptedExitImports env; pure ()

def runExit {env : ExitEnv} (ps : List (ExitProcess env)) (w : World ExitCall ExitHost) : World ExitCall ExitHost :=
  runs ExitProcess.run ExitProcess.fault ps w

end CastleWall.Exit
