import CastleWall.Egress.RegistryRun

/-! # Gate generations

`generation.ts`: a bring-up binds a gate port, checks who listens on it, arms the anchor and publishes the
manifest; a staging record, written ahead of each step, says how far it came. Deleting the record commits the
generation. Recovery looks at the record of a bring-up that did not come to that. -/

namespace CastleWall.Egress

open Faulty

inductive GenerationPhase where
  | ownerChecked
  | pfLoaded
  | manifestReloaded
  deriving DecidableEq

structure GateBinding where
  (port pid : Nat)
  pidStart : String

structure GenerationBringUpRequest where
  agentUid : Nat
  fortressPath : String

structure CommittedGeneration where
  (generationId agentUid gatePort gatePid : Nat)
  (gatePidStart fortressPath : String)

structure GenerationStagingRecord extends CommittedGeneration where
  phase : GenerationPhase

structure PublishedManifest where
  (gatePort generationId : Nat)

/-- What the coordinator keeps beside the registry: the staging record of each uid, the published manifest, and
the ports with a listener. -/
structure GateFiles where
  staging : Nat → Option GenerationStagingRecord
  manifest : Nat → Option PublishedManifest
  held : List Nat

abbrev GateHost : Type := Host GateFiles

abbrev GateProg (α : Type) : Type := Prog Call GateHost GateError α

def computeNextGenerationId (committedGenerationId : Option Generation) (stagingGenerationId : Option Nat)
    (generationFloor : Option Generation) : Except GateError Generation :=
  let highest := max (max ((committedGenerationId.map (·.val)).getD 0) (stagingGenerationId.getD 0))
    ((generationFloor.map (·.val)).getD 0)
  match Generation.ofNat? (highest+1) with
  | some next => .ok next
  | none => .error .noHeadroom

structure ResolvedGeneration where
  (committedGenerationId committedPort : Option Nat)

def resolveCommittedGeneration (entry : Option PfAnchorRegistryEntry) (stagingRecordPresent registryDirty : Bool) :
    ResolvedGeneration :=
  match entry with
  | none => ⟨none,none⟩
  | some entry =>
    if stagingRecordPresent || entry.tombstone || registryDirty then ⟨none,none⟩
    else
      match entry.generationId with
      | none => ⟨none,none⟩
      | some g => ⟨some g.val,some entry.gatePort⟩

structure GenerationMatchInput where
  (committedGenerationId committedPort pfPassPort manifestPort manifestGenerationId : Option Nat)

inductive MismatchReason where
  | noCommittedGeneration
  | noCommittedPort
  | pfPassPort (found : Option Nat) (committed : Nat)
  | manifestPort (found : Option Nat) (committed : Nat)
  | manifestGeneration (found : Option Nat) (committed : Nat)

structure GenerationMatch where
  serve : Bool
  reasons : List MismatchReason

def evaluateGenerationMatch (input : GenerationMatchInput) : GenerationMatch :=
  let reasons :=
    (if input.committedGenerationId.isNone then [.noCommittedGeneration] else []) ++
    (match input.committedPort with
      | none => [.noCommittedPort]
      | some port =>
        (if input.pfPassPort≠some port then [.pfPassPort input.pfPassPort port] else []) ++
        (if input.manifestPort≠some port then [.manifestPort input.manifestPort port] else [])) ++
    (match input.committedGenerationId with
      | none => []
      | some g => if input.manifestGenerationId≠some g then [.manifestGeneration input.manifestGenerationId g] else [])
  ⟨reasons.isEmpty,reasons⟩

/-- What the world answers a process: pf, the port a bind learns, and who listens where. -/
structure GateEnv where
  pf : Pf
  binding : GateBinding
  owner : Nat → Nat → String → Bool

variable (files : GateFiles)

def GateFiles.stage (uid : Nat) (record : Option GenerationStagingRecord) : GateFiles :=
  { files with staging := Function.update files.staging uid record }

@[simp] theorem GateFiles.staging_stage_self (uid : Nat) (record : Option GenerationStagingRecord) :
    (files.stage uid record).staging uid=record := Function.update_self ..

theorem GateFiles.staging_stage_of_ne {uid uid' : Nat} (record : Option GenerationStagingRecord)
    (h : uid'≠uid) : (files.stage uid record).staging uid'=files.staging uid' := Function.update_of_ne h ..

variable (uid : Nat)

/-- A record of another uid is not interpreted. -/
def loadStaging : GateProg (Option GenerationStagingRecord) :=
  Prog.read .loadStaging (.lost .loadStaging) fun h =>
    match h.rest.staging uid with
    | none => .ok none
    | some record => if record.agentUid=uid then .ok (some record) else .error .foreignStaging

def saveStaging (record : GenerationStagingRecord) : GateProg Unit :=
  Prog.write .saveStaging (.lost .saveStaging) fun h =>
    .ok { h with rest := h.rest.stage record.agentUid (some record) }

def deleteStaging : GateProg Unit :=
  Prog.write .deleteStaging (.lost .deleteStaging) fun h => .ok { h with rest := h.rest.stage uid none }

def bindPort (port : Nat) : GateProg Unit :=
  Prog.write .bind (.lost .bind) fun h =>
    if port∈h.rest.held then .error .portTaken
    else .ok { h with rest := { h.rest with held := port::h.rest.held } }

def releasePort (port : Nat) : GateProg Unit :=
  Prog.write .releasePort (.lost .releasePort) fun h =>
    .ok { h with rest := { h.rest with held := h.rest.held.filter (· ≠ port) } }

variable (env : GateEnv)

def verifyOwner (port pid : Nat) (pidStart : String) : GateProg Bool :=
  Prog.read .verifyOwner (.lost .verifyOwner) fun _ => .ok (env.owner port pid pidStart)

def publishManifest (manifest : PublishedManifest) : GateProg Unit :=
  Prog.write .publishManifest (.lost .publishManifest) fun h =>
    .ok { h with rest := { h.rest with manifest := Function.update h.rest.manifest uid (some manifest) } }

def listRegistry : GateProg RegistryListing :=
  Prog.read .loadRegistry (.lost .loadRegistry) fun h => h.registry.list

def readEntry : GateProg (Option PfAnchorRegistryEntry) := do
  let listing ← listRegistry
  pure (listing.entries.find? fun e => e.agentUid=uid)

def readGenerationFloor : GateProg (Option Generation) := do
  let listing ← listRegistry
  pure listing.generationFloor

def armEntry (pf : Pf) (base : CommittedGeneration) : GateProg Unit := do
  let _ ← addOrUpdate pf
    { agentUid := some (.number base.agentUid)
      gatePort := some (.number base.gatePort)
      fortressPath := some (.string base.fortressPath)
      generationId := some (.number base.generationId)
      tombstone := none }
  pure ()

inductive RecoveryAction where
  | none
  | discarded
  | tombstoned

structure GenerationRecoveryOutcome where
  action : RecoveryAction
  generationId : Option Nat
  ownerHolds : Option Bool

def recoverLocked (uid : Nat) : GateProg GenerationRecoveryOutcome := do
  match ← loadStaging uid with
  | none => pure ⟨.none,none,none⟩
  | some record => do
    let checked ← (verifyOwner env record.gatePort record.gatePid record.gatePidStart).attempt
    let ownerHolds := checked.toOption.getD false
    match record.phase with
    | .ownerChecked => do
      deleteStaging uid
      pure ⟨.discarded,some record.generationId,some ownerHolds⟩
    | _ => do
      let _ ← tombstone env.pf uid (some ⟨record.gatePort,record.fortressPath,some record.generationId⟩)
      deleteStaging uid
      pure ⟨.tombstoned,some record.generationId,some ownerHolds⟩

/-- What follows the owner check: each step's intent is staged before the step, and deleting the record commits. -/
def armAndPublish (base : CommittedGeneration) : GateProg CommittedGeneration := do
  saveStaging { base with phase := .ownerChecked }
  saveStaging { base with phase := .pfLoaded }
  armEntry env.pf base
  saveStaging { base with phase := .manifestReloaded }
  publishManifest base.agentUid ⟨base.gatePort,base.generationId⟩
  deleteStaging base.agentUid
  pure base

def bringUpSteps (uid : Nat) (fortressPath : String) : GateProg CommittedGeneration := do
  let committed ← readEntry uid
  let generationFloor ← readGenerationFloor
  let generationId ← Prog.ofExcept
    (computeNextGenerationId (committed.bind (·.generationId)) none generationFloor)
  let base : CommittedGeneration :=
    ⟨generationId.val,uid,env.binding.port,env.binding.pid,env.binding.pidStart,fortressPath⟩
  let owned ← verifyOwner env env.binding.port env.binding.pid env.binding.pidStart
  if owned then armAndPublish env base else Prog.fail .notOwner

def attemptBringUp (uid : Nat) (fortressPath : String) :
    GateProg (Except GateError CommittedGeneration) := do
  match ← loadStaging uid with
  | some _ => Prog.fail .stagingPresent
  | none => do
    bindPort env.binding.port
    (bringUpSteps env uid fortressPath).attempt

/-- The uncommitted pass is dropped before the port is freed; a recovery that fails keeps the port. -/
def recoverAndRelease (uid : Nat) (err : GateError) : GateProg CommittedGeneration := do
  match ← (recoverLocked env uid).attempt with
  | .ok _ => do
    let _ ← (releasePort env.binding.port).attempt
    Prog.fail err
  | .error _ => Prog.fail err

def bringUpLocked (uid : Nat) (fortressPath : String) : GateProg CommittedGeneration := do
  match ← attemptBringUp env uid fortressPath with
  | .ok committed => pure committed
  | .error err => recoverAndRelease env uid err

def bringUp (request : GenerationBringUpRequest) : GateProg CommittedGeneration :=
  if request.agentUid=0 ∨ request.fortressPath = "" then Prog.fail .badRequest
  else bringUpLocked env request.agentUid request.fortressPath

end CastleWall.Egress
