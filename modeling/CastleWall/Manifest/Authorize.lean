import CastleWall.Manifest.Store

/-! # Authorized changes of the live policy

The three ways a manifest becomes live: a reload, the load at boot, and the publication of a bundle. Each
prepares a candidate, asks its caller to authorize exactly that candidate, and commits it. -/

namespace CastleWall.Manifest

open Text Policy

inductive AuthorizedReloadError (ε : Type) where
  | verify (err : ManifestStoreError)
  | authorization (err : ε)

structure Stored (σ : Type) where
  store : ManifestStore
  disk : PolicyDisk
  caller : σ

/-- Runs on the exact candidate and returns only once its receipt is durable. -/
abbrev Authorize (σ ε : Type) := LoadedManifest → σ → σ × Except ε Unit

section Authorized

variable (env : StoreEnv) {σ ε : Type} (s : Stored σ)

def commitAuthorized (prepared : PreparedManifestReload) (faults : PersistFaults) :
    Stored σ × Except ManifestStoreError LoadedManifest :=
  match commitPreparedReload env s.store s.disk prepared faults with
  | (store,disk,result) => ({ s with store := store, disk := disk },result)

def reloadInMode (mode : ScopeAdmissionMode) (s : Stored σ) (load : LoadFaults) (persist : PersistFaults)
    (authorize : Authorize σ ε) : Stored σ × Except (AuthorizedReloadError ε) LoadedManifest :=
  match prepareReload env s.store s.disk mode load with
  | .error err => (s,.error (.verify err))
  | .ok prepared =>
    match authorize prepared.loaded s.caller with
    | (caller,.error err) => ({ s with caller := caller },.error (.authorization err))
    | (caller,.ok ()) =>
      match commitAuthorized env { s with caller := caller } prepared persist with
      | (s,.error err) => (s,.error (.verify err))
      | (s,.ok loaded) => (s,.ok loaded)

def reloadWithAuthorization (load : LoadFaults) (persist : PersistFaults)
    (authorize : Authorize σ ε) : Stored σ × Except (AuthorizedReloadError ε) LoadedManifest :=
  reloadInMode env .enforceNewGeneration s load persist authorize

def reloadActiveAtBootWithAuthorization (load : LoadFaults) (persist : PersistFaults)
    (authorize : Authorize σ ε) : Stored σ × Except (AuthorizedReloadError ε) LoadedManifest :=
  reloadInMode env .warnOnlyCommittedGeneration s load persist authorize

structure Bundle where
  manifestBytes : List UInt8
  rules : List (String × List UInt8)

structure PublishFaults where
  secureDirectory : Option String := none
  parentSync : Option String := none
  quotaRead : Option String := none
  createStaged : Option String := none
  modeStaged : Option String := none
  createRules : Option String := none
  modeRules : Option String := none
  writeRule : Nat → Option String := fun _ => none
  syncRules : Option String := none
  writeManifest : Option String := none
  syncStaged : Option String := none
  syncGenerations : Option String := none
  load : LoadFaults := {}
  pointerWrite : Option String := none
  pointerRename : Option String := none
  pointerRemove : Option String := none
  /-- The sync after a failed rename, whose result is ignored. -/
  cleanupSync : Option String := none
  policyDirSync : Option String := none
  persist : PersistFaults := {}
  /-- What removing the staged directory of a failed publication leaves of it. -/
  leftover : Option BundleDir := none

def bundleBytes (bundle : Bundle) : Nat :=
  bundle.manifestBytes.length +
    (bundle.rules.map fun rule => (utf8Bytes rule.1).length+rule.2.length).sum

variable (disk : PolicyDisk)

def ensureSecureDirectory (faults : PublishFaults) :
    PolicyDisk × Except ManifestStoreError Unit :=
  match faults.secureDirectory with
  | some err => (disk,.error (.manifestIo .generations err))
  | none =>
    let disk := { disk with generations := some (disk.generations.getD []) }
    match faults.parentSync with
    | some err => (disk,.error (.manifestIo .policyDir err))
    | none => (disk.syncPolicyDir,.ok ())

def enforceGenerationQuota (faults : PublishFaults) : Except ManifestStoreError Unit :=
  match faults.quotaRead with
  | some err => .error (.manifestIo .generations err)
  | none =>
    if ((disk.generations.getD []).filter fun entry => isGenerationName entry.1).length ≥
        maxStoredPolicyGenerations then
      .error (.manifestIo .generations ("policy generation retention reached cap " ++
        toString maxStoredPolicyGenerations ++
        "; investigate and archive inactive generations before publishing"))
    else .ok ()

def unsafeFilename (name : String) : Bool :=
  name == "" || decide (name.utf8ByteSize > 255) || name == "." || name == ".." ||
    name.toList.contains '/' || name.toList.contains (Char.ofNat 92) || name.toList.contains (Char.ofNat 0)

def stageRules (faults : PublishFaults) (name : String) :
    Nat → List String → List (String × List UInt8) → Except ManifestStoreError Unit
  | _, _, [] => .ok ()
  | index, supplied, (file,_)::rules =>
    if unsafeFilename file then
      .error (.ruleIdentityPreflight ["unsafe supplied rule filename " ++ file])
    else if supplied.contains file then
      .error (.ruleIdentityPreflight ["duplicate supplied rule file " ++ file])
    else
      match faults.writeRule index with
      | some err => .error (.manifestIo (.stagedRule name file) err)
      | none => stageRules faults name (index+1) (file::supplied) rules

def failWith (path : StorePath) : Option String → Except ManifestStoreError Unit
  | none => .ok ()
  | some err => .error (.manifestIo path err)

def createStaged (name : String) (faults : PublishFaults) :
    Except ManifestStoreError Unit := do
  enforceGenerationQuota disk faults
  if ((disk.generations.getD []).lookup name).isSome then
    throw (.manifestIo (.generation name) "File exists (os error 17)")
  failWith (.generation name) faults.createStaged

def stageBundle (bundle : Bundle) (name : String) (faults : PublishFaults) :
    Except ManifestStoreError BundleDir := do
  failWith (.generation name) faults.modeStaged
  failWith (.generation name) faults.createRules
  failWith (.generation name) faults.modeRules
  stageRules faults name 0 [] bundle.rules
  failWith (.generation name) faults.syncRules
  failWith (.manifest (some name)) faults.writeManifest
  failWith (.generation name) faults.syncStaged
  failWith .generations faults.syncGenerations
  return { manifest := some bundle.manifestBytes, rules := some bundle.rules }

/-- The candidate of the staged directory: it loads, references exactly the supplied files and passes
admission as a new generation. -/
def prepareStaged (store : ManifestStore) (disk : PolicyDisk) (bundle : Bundle) (name : String)
    (faults : PublishFaults) : Except ManifestStoreError (BundleDir × PreparedManifestReload) := do
  let staged ← stageBundle bundle name faults
  let loaded ← loadSignedManifestFromExactDir env store.pinnedKey (some name) staged faults.load
  let supplied := bundle.rules.map Prod.fst
  let referenced := loaded.signed.manifest.rules.map (·.file)
  if ¬ (supplied.all (referenced.contains ·) && referenced.all (supplied.contains ·)) then
    throw (.ruleIdentityPreflight ["supplied rule set is not exactly the manifest-referenced set"])
  let prepared ← prepareLoaded env store disk loaded false .enforceNewGeneration faults.load
  return (staged,prepared)

def withGeneration (name : String) (bundle : Option BundleDir) : PolicyDisk :=
  { disk with
    generations := disk.generations.map fun generations =>
      (bundle.map fun bundle => (name,bundle)).toList++generations }

def activateGeneration (name : String) (staged : BundleDir)
    (prepared : PreparedManifestReload) (faults : PublishFaults) :
    Stored σ × Except ManifestStoreError LoadedManifest :=
  let dropped : Stored σ := { s with disk := withGeneration s.disk name faults.leftover }
  match faults.pointerWrite, faults.pointerRename with
  | some err, _ => (dropped,.error (.manifestIo .pointerTmp err))
  | none, some err =>
    let message := match faults.pointerRemove with
      | none => err
      | some cleanup => err ++ "; additionally failed to remove pointer temporary: " ++ cleanup
    let disk := match faults.cleanupSync with
      | none => dropped.disk.syncPolicyDir
      | some _ => dropped.disk
    ({ dropped with disk := disk },.error (.manifestIo .pointer message))
  | none, none =>
    let disk := withGeneration s.disk name (some staged)
    let disk := { disk with pointer := disk.pointer.rename (utf8Bytes name) }
    match faults.policyDirSync with
    | some err =>
      ({ s with disk := disk },
        .error (.publicationCommitIndeterminate .pointerSync (.manifestIo .policyDir err)))
    | none =>
      match commitAuthorized env { s with disk := disk.syncPolicyDir } prepared faults.persist with
      | (s,.error err) => (s,.error (.publicationCommitIndeterminate .highWater err))
      | (s,.ok loaded) => (s,.ok loaded)

def publishBundleWithAuthorization (bundle : Bundle) (name : String)
    (faults : PublishFaults) (authorize : Authorize σ ε) :
    Stored σ × Except (AuthorizedReloadError ε) LoadedManifest :=
  if bundleBytes bundle > maxPublishBundleBytes then
    (s,.error (.verify (.manifestIo .policyDir ("policy publication bundle is " ++
      toString (bundleBytes bundle) ++ " bytes (cap " ++ toString maxPublishBundleBytes ++ ")"))))
  else
    match ensureSecureDirectory s.disk faults with
    | (disk,.error err) => ({ s with disk := disk },.error (.verify err))
    | (disk,.ok ()) =>
      match createStaged disk name faults with
      | .error err => ({ s with disk := disk },.error (.verify err))
      | .ok () =>
        match prepareStaged env s.store disk bundle name faults with
        | .error err => ({ s with disk := withGeneration disk name faults.leftover },.error (.verify err))
        | .ok (staged,prepared) =>
          match authorize prepared.loaded s.caller with
          | (caller,.error err) =>
            ({ s with disk := withGeneration disk name faults.leftover, caller := caller },
              .error (.authorization err))
          | (caller,.ok ()) =>
            match activateGeneration env { s with disk := disk, caller := caller } name staged prepared
              faults with
            | (s,.error err) => (s,.error (.verify err))
            | (s,.ok loaded) => (s,.ok loaded)

end Authorized

end CastleWall.Manifest
