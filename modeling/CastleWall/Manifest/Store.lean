import CastleWall.Support.Durable
import CastleWall.Support.Lines
import CastleWall.Policy.Snapshot

/-! # The manifest store

The policy directory of `manifest/store.rs`: the signed manifest with its rule files, the generations a
broker published and the pointer to the active one, and the high-water mark that no later manifest may
fall below. Files are taken to belong to the daemon; every other way a storage call can fail is a fault
that the caller of the model chooses. -/

namespace CastleWall.Manifest

open Text Policy

def maxStoredPolicyGenerations : Nat := 1024

def maxManifestBytes : Nat := 4 * 1024 * 1024

def maxRuleBytes : Nat := 1024 * 1024

def maxPublishBundleBytes : Nat := 160 * 1024

/-- The path an error names. A directory is the policy directory or a generation under it. -/
inductive StorePath where
  | policyDir
  | manifest (dir : Option String)
  | pointer
  | pointerTmp
  | generations
  | generation (name : String)
  | stagedRule (name file : String)
  | highWater
  | highWaterTmp

inductive CommitStage where
  | pointerSync
  | highWater

inductive ManifestStoreError where
  | manifestIo (path : StorePath) (sourceMessage : String)
  | manifestParse (path : StorePath) (sourceMessage : String)
  | manifestSignatureFailed (reason : String)
  | manifestSchemaUnsupported (found expected : UInt32)
  | ruleFileIo (file sourceMessage : String)
  | ruleDigestFailed (reason : String) (issues : List String)
  | ruleIdentityPreflight (issues : List String)
  | policySnapshot (source : PolicySnapshotError)
  | bootConfinedScopeRefusal (errors : List ConfinedAgentScopeError) (agentUid ceiling : UInt32)
      (gateUid : Option UInt32)
  | fortressMismatch (expected got : String)
  | generationRollback (candidate highWater : UInt64)
  | highWaterIo (path : StorePath) (sourceMessage : String)
  | publicationCommitIndeterminate (stage : CommitStage) (source : ManifestStoreError)

namespace ManifestStoreError

def isIndeterminate : ManifestStoreError → Bool
  | .publicationCommitIndeterminate .. => true
  | _ => false

def bootConfinedSubject : ManifestStoreError → Option (UInt32 × UInt32 × Option UInt32)
  | .bootConfinedScopeRefusal _ agentUid ceiling gateUid => some (agentUid,ceiling,gateUid)
  | _ => none

end ManifestStoreError

structure ManifestHighWater where
  fortressId : String
  generation : UInt64
  manifestSignatureB64url : String

/-- What the store takes from outside this crate, and the signature and file-name checks of the manifest,
which nothing here depends on. -/
structure StoreEnv where
  admission : AdmissionEnv
  signedManifestFromStr : String → Except String SignedManifest
  verifyManifestSignature : SignedManifest → Vector UInt8 32 → Except String Unit
  preflightManifestRuleEntries : List ManifestRuleEntry → List String
  highWaterToVec : ManifestHighWater → List UInt8
  highWaterFromSlice : List UInt8 → Except String ManifestHighWater

def StoreEnv.Lawful (env : StoreEnv) : Prop :=
  ∀ mark, env.highWaterFromSlice (env.highWaterToVec mark)=.ok mark

structure BundleDir where
  manifest : Option (List UInt8)
  rules : Option (List (String × List UInt8))

structure PolicyDisk where
  root : BundleDir
  generations : Option (List (String × BundleDir))
  (pointer highWater : RenamedFile (List UInt8))

def PolicyDisk.syncPolicyDir (disk : PolicyDisk) : PolicyDisk :=
  { disk with pointer := disk.pointer.sync, highWater := disk.highWater.sync }

structure ManifestStore where
  pinnedKey : Vector UInt8 32
  expectedFortressId : String
  current : Option LoadedManifest
  currentSnapshot : Option PolicySnapshot

def ManifestStore.new (pinnedKey : Vector UInt8 32) (expectedFortressId : String) : ManifestStore where
  pinnedKey := pinnedKey
  expectedFortressId := expectedFortressId
  current := none
  currentSnapshot := none

structure LoadFaults where
  pointer : Option String := none
  generations : Option String := none
  generation : Option String := none
  manifest : Option String := none
  rulesDir : Option String := none
  rule : String → Option String := fun _ => none
  highWater : Option String := none

inductive ReadError where
  | notFound
  | failed (message : String)

def ReadError.message : ReadError → String
  | .notFound => "No such file or directory (os error 2)"
  | .failed message => message

def readBoundedRegularNoFollow (cap : Nat) (fault : Option String) (content : Option (List UInt8)) :
    Except ReadError (List UInt8) :=
  match fault, content with
  | some err, _ => .error (.failed err)
  | none, none => .error .notFound
  | none, some bytes =>
    if bytes.length > cap then
      .error (.failed
        "not a daemon-owned, non-writable-by-others, single-link bounded regular file")
    else .ok bytes

def isGenerationName (name : String) : Bool :=
  name.utf8ByteSize == 18 && startsWith name "g-" &&
    ((utf8Bytes name).drop 2).all fun b => (0x30 ≤ b && b ≤ 0x39) || (0x61 ≤ b && b ≤ 0x66)

def resolveActivePolicyDir (disk : PolicyDisk) (faults : LoadFaults) :
    Except ManifestStoreError (Option String × BundleDir) :=
  match readBoundedRegularNoFollow 64 faults.pointer disk.pointer.visible with
  | .error .notFound => .ok (none,disk.root)
  | .error (.failed err) => .error (.manifestIo .pointer err)
  | .ok raw =>
    match decodeUtf8 raw with
    | none => .error (.manifestIo .pointer "active policy pointer is not UTF-8")
    | some name =>
      if !isGenerationName name then
        .error (.manifestIo .pointer "active policy pointer has invalid generation grammar")
      else
        match faults.generations, disk.generations with
        | some err, _ => .error (.manifestIo .generations err)
        | none, none => .error (.manifestIo .generations ReadError.notFound.message)
        | none, some generations =>
          match faults.generation, generations.lookup name with
          | some err, _ => .error (.manifestIo (.generation name) err)
          | none, none => .error (.manifestIo (.generation name) ReadError.notFound.message)
          | none, some bundle => .ok (some name,bundle)

def readRules (faults : LoadFaults) (rules : List (String × List UInt8)) :
    List ManifestRuleEntry → Except ManifestStoreError (List (String × List UInt8))
  | [] => .ok []
  | entry::entries =>
    match readBoundedRegularNoFollow maxRuleBytes (faults.rule entry.file) (rules.lookup entry.file) with
    | .error err => .error (.ruleFileIo entry.file err.message)
    | .ok bytes =>
      match readRules faults rules entries with
      | .error err => .error err
      | .ok files => .ok ((entry.file,bytes)::files)

def ruleDigestIssue (env : AdmissionEnv) (files : List (String × List UInt8)) (entry : ManifestRuleEntry) :
    Option String :=
  match files.lookup entry.file with
  | none => some ("rule file missing on disk: " ++ entry.file)
  | some bytes =>
    let digest := env.sha256Hex bytes
    if digest≠toAsciiLowercase entry.sha256 then
      some ("rule file sha256 mismatch for " ++ entry.file ++ " (manifest says " ++ entry.sha256 ++
        ", found " ++ digest ++ ")")
    else none

section Load

variable (env : StoreEnv)

def loadSignedManifestFromExactDir (pinnedKey : Vector UInt8 32) (dir : Option String) (bundle : BundleDir)
    (faults : LoadFaults) : Except ManifestStoreError LoadedManifest :=
  match readBoundedRegularNoFollow maxManifestBytes faults.manifest bundle.manifest with
  | .error err => .error (.manifestIo (.manifest dir) err.message)
  | .ok rawBytes =>
    match decodeUtf8 rawBytes with
    | none => .error (.manifestParse (.manifest dir) "invalid utf-8 sequence")
    | some raw =>
      match env.signedManifestFromStr raw with
      | .error err => .error (.manifestParse (.manifest dir) err)
      | .ok signed =>
        if signed.manifest.schemaVersion≠schemaVersionV1 then
          .error (.manifestSchemaUnsupported signed.manifest.schemaVersion schemaVersionV1)
        else
          match env.verifyManifestSignature signed pinnedKey with
          | .error reason => .error (.manifestSignatureFailed reason)
          | .ok () =>
            match env.preflightManifestRuleEntries signed.manifest.rules with
            | issue::issues => .error (.ruleIdentityPreflight (issue::issues))
            | [] =>
              match faults.rulesDir, bundle.rules with
              | some err, _ => .error (.ruleFileIo "rules" err)
              | none, none => .error (.ruleFileIo "rules" ReadError.notFound.message)
              | none, some rules =>
                match readRules faults rules signed.manifest.rules with
                | .error err => .error err
                | .ok files =>
                  match signed.manifest.rules.filterMap (ruleDigestIssue env.admission files) with
                  | issue::issues => .error (.ruleDigestFailed "rule validation failed" (issue::issues))
                  | [] =>
                    .ok { signed := signed, ruleFiles := files
                          manifestSignatureB64url := signed.signature.signatureB64url
                          ruleCount := signed.manifest.rules.length % 2 ^ 32 }

def loadSignedManifestFromDisk (pinnedKey : Vector UInt8 32) (disk : PolicyDisk) (faults : LoadFaults) :
    Except ManifestStoreError LoadedManifest := do
  let (dir,bundle) ← resolveActivePolicyDir disk faults
  loadSignedManifestFromExactDir env pinnedKey dir bundle faults

structure PreparedManifestReload where
  loaded : LoadedManifest
  snapshot : PolicySnapshot

inductive ScopeAdmissionMode where
  | enforceNewGeneration
  | warnOnlyCommittedGeneration

def readHighWater (fault : Option String) (file : RenamedFile (List UInt8)) :
    Except ManifestStoreError (Option ManifestHighWater) :=
  match readBoundedRegularNoFollow 4096 fault file.visible with
  | .error .notFound => .ok none
  | .error (.failed err) => .error (.highWaterIo .highWater err)
  | .ok bytes =>
    match env.highWaterFromSlice bytes with
    | .error err => .error (.highWaterIo .highWater ("invalid high-water state: " ++ err))
    | .ok mark => .ok (some mark)

/-- Scoped rules must name the confined agent; the exact committed manifest is only warned about. -/
def applyConfinedScopeAdmission (snapshot : PolicySnapshot) (mode : ScopeAdmissionMode)
    (exactCommittedReclaim : Bool) : Except ManifestStoreError Unit :=
  match snapshot.confinedAgentUid with
  | none => .ok ()
  | some admittedUid =>
    match collectConfinedAgentScopeErrors snapshot.rules admittedUid with
    | [] => .ok ()
    | error::errors =>
      if exactCommittedReclaim then .ok ()
      else
        match mode, snapshot.confinedAgentUidCeiling with
        | .enforceNewGeneration, _ => .error (.policySnapshot (.confinedAgentScope error))
        | .warnOnlyCommittedGeneration, some ceiling =>
          .error (.bootConfinedScopeRefusal (error::errors) admittedUid ceiling snapshot.confinedGateUid)
        | .warnOnlyCommittedGeneration, none => .error (.policySnapshot (.confinedAgentScope error))

/-- The high-water mark is of this fortress and the candidate is above it, or is the very manifest it
records where that may be reclaimed. Answers whether it is that manifest. -/
def checkHighWater (expectedFortressId : String) (loaded : LoadedManifest) (allowExactReclaim : Bool) :
    Option ManifestHighWater → Except ManifestStoreError Bool
  | none => .ok false
  | some mark =>
    if mark.fortressId≠expectedFortressId then
      .error (.fortressMismatch expectedFortressId mark.fortressId)
    else
      let candidate := loaded.signed.manifest.generation
      let same := candidate == mark.generation &&
        loaded.manifestSignatureB64url == mark.manifestSignatureB64url
      if candidate ≤ mark.generation ∧ ¬ (allowExactReclaim && same) then
        .error (.generationRollback candidate mark.generation)
      else .ok same

variable (store : ManifestStore)

def prepareLoaded (disk : PolicyDisk) (loaded : LoadedManifest)
    (allowExactReclaim : Bool) (mode : ScopeAdmissionMode) (faults : LoadFaults) :
    Except ManifestStoreError PreparedManifestReload :=
  if loaded.signed.manifest.fortressId≠store.expectedFortressId then
    .error (.fortressMismatch store.expectedFortressId loaded.signed.manifest.fortressId)
  else do
    let mark ← readHighWater env faults.highWater disk.highWater
    let exactCommittedReclaim ← checkHighWater store.expectedFortressId loaded allowExactReclaim mark
    match fromLoadedManifest env.admission loaded with
    | .error err => .error (.policySnapshot err)
    | .ok snapshot =>
      applyConfinedScopeAdmission snapshot mode exactCommittedReclaim
      return { loaded := loaded, snapshot := snapshot }

def prepareReload (disk : PolicyDisk) (mode : ScopeAdmissionMode)
    (faults : LoadFaults) : Except ManifestStoreError PreparedManifestReload := do
  let loaded ← loadSignedManifestFromDisk env store.pinnedKey disk faults
  prepareLoaded env store disk loaded true mode faults

structure PersistFaults where
  create : Option String := none
  write : Option String := none
  rename : Option String := none
  parentSync : Option String := none

def persistHighWater (disk : PolicyDisk) (mark : ManifestHighWater) (faults : PersistFaults) :
    PolicyDisk × Except ManifestStoreError Unit :=
  match faults.create, faults.write, faults.rename with
  | some err, _, _ => (disk,.error (.highWaterIo .highWaterTmp err))
  | none, some err, _ => (disk,.error (.highWaterIo .highWaterTmp err))
  | none, none, some err => (disk,.error (.highWaterIo .highWater err))
  | none, none, none =>
    let disk := { disk with highWater := disk.highWater.rename (env.highWaterToVec mark) }
    match faults.parentSync with
    | some err => (disk,.error (.highWaterIo .policyDir err))
    | none => (disk.syncPolicyDir,.ok ())

def highWaterOf (loaded : LoadedManifest) : ManifestHighWater where
  fortressId := store.expectedFortressId
  generation := loaded.signed.manifest.generation
  manifestSignatureB64url := loaded.manifestSignatureB64url

def commitPreparedReload (disk : PolicyDisk) (prepared : PreparedManifestReload)
    (faults : PersistFaults) : ManifestStore × PolicyDisk × Except ManifestStoreError LoadedManifest :=
  match persistHighWater env disk (highWaterOf store prepared.loaded) faults with
  | (disk,.error err) => (store,disk,.error err)
  | (disk,.ok ()) =>
    ({ store with current := some prepared.loaded, currentSnapshot := some prepared.snapshot },disk,
      .ok prepared.loaded)

end Load

end CastleWall.Manifest
