import CastleWall.Decision.Engine

/-! # Making a manifest live

The boot load, the reload and the publication of `decision.rs` around the store's authorized changes, and
the runs of a daemon over its policy directory. Each call reports, in order, the receipt rows it put in the
log and the manifest it committed in memory. -/

namespace CastleWall.Decision

open Text Policy Manifest Audit

structure DecisionEnv where
  wal : WalEnv
  store : StoreEnv

structure ManifestReloadSummary where
  signatureB64url : String
  ruleCount : Nat

inductive FreezeDefect where
  | bootTwice
  | noSnapshot
  | inconsistent (defect : IdentityDefect)
  | alreadyFrozen

inductive ReloadError where
  | storeUnwired
  | storePoisoned
  | verify (err : ManifestStoreError)
  | audit (err : ControlAuditError)
  | cancelled
  | identityChangeWhileArmed (detail : IdentityRefusal)
  | identityFreeze (detail : FreezeDefect)

inductive IdentityGate where
  | bootFreeze
  | frozen

inductive Effect where
  /-- A receipt row is whole in the log; it is durable when its sync returned. -/
  | receipt (row : WalEntry) (durable : Bool)
  | committed (loaded : LoadedManifest)

structure Caller where
  engine : DecisionEngine
  effects : List Effect

structure Host where
  engine : DecisionEngine
  disk : PolicyDisk

def bootManifestLoadOperation : String := "boot_manifest_load_authorized"

def bootManifestLoadContext : String := "boot"

def publishOperation : String := "ipc_policy_bundle_publish_authorized"

def receiptDetail (context signature : String) (ruleCount : Nat) : String :=
  "context=" ++ context ++ " signature=" ++ signature ++ " rules=" ++ toString ruleCount

def writtenRow (env : WalEnv) (before after : Option WalWriter) (event : String)
    (sinceEpochMs : Option Nat) : Option WalEntry := do
  let w ← before
  let w' ← after
  let row ← (nextEntry env w event .control sinceEpochMs).toOption
  if w'.file.bytes=w.file.bytes++walRowBytes row.text then some row else none

def appendReceipt (env : WalEnv) (operation context : String) (call : ControlAppend)
    (loaded : LoadedManifest) (caller : Caller) : Caller × Except ControlAuditError Unit :=
  let detail := receiptDetail context loaded.manifestSignatureB64url loaded.ruleCount
  let (engine,result) := appendControlAuditCancellable env caller.engine operation detail call
  let row := writtenRow env caller.engine.walWriter engine.walWriter
    (controlEvent caller.engine.fortressId operation detail) call.sinceEpochMs
  ({ engine := engine
     effects := caller.effects++(row.map fun row => .receipt row result.isOk).toList },
    result.map fun _ => ())

def refuseIdentityChange (env : AdmissionEnv) (engine : DecisionEngine) (loaded : LoadedManifest) :
    Except ControlAuditError Unit :=
  match engine.armedIdentity with
  | none => .error (.identityChangeWhileArmed .notFrozen)
  | some frozen =>
    match fromLoadedManifest env loaded with
    | .error err => .error (.identityChangeWhileArmed (.underivable err))
    | .ok snapshot =>
      match AdmittedIdentity.fromSnapshot snapshot with
      | .error defect => .error (.identityChangeWhileArmed (.inconsistent defect))
      | .ok candidate =>
        if candidate.subject=frozen.subject then .ok ()
        else .error (.identityChangeWhileArmed (.changed frozen.subject candidate.subject))

structure AuthorizeCall where
  shutdown : Bool
  append : ControlAppend

variable (env : DecisionEnv)

def authorizeLoaded (gate : IdentityGate) (operation context : String)
    (call : AuthorizeCall) : Authorize Caller ControlAuditError := fun loaded caller =>
  if call.shutdown then (caller,.error .cancelled)
  else
    match gate with
    | .bootFreeze => appendReceipt env.wal operation context call.append loaded caller
    | .frozen =>
      match refuseIdentityChange env.store.admission caller.engine loaded with
      | .error err => (caller,.error err)
      | .ok () => appendReceipt env.wal operation context call.append loaded caller

def authorizePublication (context : String) (call : AuthorizeCall) (cancelled : Bool) :
    Authorize Caller ControlAuditError := fun loaded caller =>
  match authorizeLoaded env .frozen publishOperation context call loaded caller with
  | (caller,.error err) => (caller,.error err)
  | (caller,.ok ()) => if cancelled then (caller,.error .cancelled) else (caller,.ok ())

def reloadError : AuthorizedReloadError ControlAuditError → ReloadError
  | .verify err => .verify err
  | .authorization .cancelled => .cancelled
  | .authorization (.identityChangeWhileArmed detail) => .identityChangeWhileArmed detail
  | .authorization err => .audit err

def summarize : Except (AuthorizedReloadError ControlAuditError) LoadedManifest →
    Except ReloadError ManifestReloadSummary
  | .ok loaded =>
    .ok { signatureB64url := loaded.manifestSignatureB64url, ruleCount := loaded.ruleCount }
  | .error err => .error (reloadError err)

def committedEffect {ε : Type} : Except ε LoadedManifest → List Effect
  | .ok loaded => [.committed loaded]
  | .error _ => []

def lockStore : LockOutcome → Except ReloadError Unit
  | .acquired => .ok ()
  | .poisoned => .error .storePoisoned
  | .cancelled => .error .cancelled
  | .timeout => .error .cancelled

def settle (s : Stored Caller) : Host where
  engine := { s.caller.engine with manifestStore := some s.store }
  disk := s.disk

def beginChange (host : Host) (store : ManifestStore) : Stored Caller where
  store := store
  disk := host.disk
  caller := { engine := host.engine, effects := [] }

def withStore (host : Host) (lock : LockOutcome)
    (change : Stored Caller → Stored Caller × Except (AuthorizedReloadError ControlAuditError) LoadedManifest) :
    Host × List Effect × Except ReloadError ManifestReloadSummary :=
  match host.engine.manifestStore with
  | none => (host,[],.error .storeUnwired)
  | some store =>
    match lockStore lock with
    | .error err => (host,[],.error err)
    | .ok () =>
      let (s,outcome) := change (beginChange host store)
      (settle s,s.caller.effects++committedEffect outcome,summarize outcome)

structure ReloadCall where
  storeLock : LockOutcome
  load : LoadFaults
  authorize : AuthorizeCall
  persist : PersistFaults

def reloadManifestAuthorized (host : Host) (operation context : String)
    (call : ReloadCall) : Host × List Effect × Except ReloadError ManifestReloadSummary :=
  withStore host call.storeLock fun s =>
    reloadWithAuthorization env.store s call.load call.persist
      (authorizeLoaded env .frozen operation context call.authorize)

def bootIdentity (engine : DecisionEngine) (result : Except ReloadError ManifestReloadSummary) :
    Except FreezeDefect (Option AdmittedIdentity) :=
  match result with
  | .ok _ =>
    match engine.manifestStore.bind (·.currentSnapshot) with
    | none => .error .noSnapshot
    | some snapshot =>
      match AdmittedIdentity.fromSnapshot snapshot with
      | .error defect => .error (.inconsistent defect)
      | .ok identity => .ok (some identity)
  | .error (.verify err) =>
    match err.bootConfinedSubject, engine.manifestStore with
    | some (agentUid,ceiling,gateUid), some store =>
      .ok (some { fortressId := store.expectedFortressId, subject := .confined agentUid ceiling gateUid })
    | _, _ => .ok (some { fortressId := engine.fortressId, subject := .unconfined })
  | .error _ => .ok none

def freezeAtBoot (engine : DecisionEngine) (result : Except ReloadError ManifestReloadSummary) :
    DecisionEngine × Except ReloadError ManifestReloadSummary :=
  match bootIdentity engine result with
  | .error defect => (engine,.error (.identityFreeze defect))
  | .ok none => (engine,result)
  | .ok (some identity) =>
    match engine.armedIdentity with
    | none => ({ engine with armedIdentity := some identity },result)
    | some _ => (engine,.error (.identityFreeze .alreadyFrozen))

/-- The boot load; nothing is frozen when the store could not be locked. -/
def reloadManifestAuthorizedAtBoot (host : Host) (call : ReloadCall) :
    Host × List Effect × Except ReloadError ManifestReloadSummary :=
  match host.engine.armedIdentity with
  | some _ => (host,[],.error (.identityFreeze .bootTwice))
  | none =>
    let (host',effects,result) := withStore host call.storeLock fun s =>
      reloadActiveAtBootWithAuthorization env.store s call.load call.persist
        (authorizeLoaded env .bootFreeze bootManifestLoadOperation bootManifestLoadContext call.authorize)
    match host.engine.manifestStore, lockStore call.storeLock with
    | some _, .ok () =>
      let (engine,result) := freezeAtBoot host'.engine result
      ({ host' with engine := engine },effects,result)
    | _, _ => (host',effects,result)

structure PublishCall where
  storeLock : LockOutcome
  faults : PublishFaults
  authorize : AuthorizeCall
  /-- The shutdown flag is set or the deadline has passed once the receipt is durable. -/
  cancelled : Bool

def publishManifestBundleAuthorized (host : Host) (context : String) (bundle : Bundle)
    (name : String) (call : PublishCall) : Host × List Effect × Except ReloadError ManifestReloadSummary :=
  withStore host call.storeLock fun s =>
    publishBundleWithAuthorization env.store s bundle name call.faults
      (authorizePublication env context call.authorize call.cancelled)

inductive HostOp where
  | boot (call : ReloadCall)
  /-- A reload asked for over IPC or by the watcher. -/
  | reload (operation context : String) (call : ReloadCall)
  | publish (context : String) (bundle : Bundle) (name : String) (call : PublishCall)
  /-- The policy files change under the daemon. -/
  | edit (root : BundleDir) (generations : Option (List (String × BundleDir)))
  /-- Verdicts, drains and acknowledgements move the log on. -/
  | audit (wal : Option WalWriter)
  /-- A crash, at any point after a fault too, and a new process that finds these contents. -/
  | restart (pointer highWater : Option (List UInt8)) (wal : Option WalWriter)

def restartHost (host : Host) (pointer highWater : Option (List UInt8)) (wal : Option WalWriter) : Host where
  engine :=
    { host.engine with
      manifestStore := host.engine.manifestStore.map fun store =>
        ManifestStore.new store.pinnedKey store.expectedFortressId
      walWriter := wal
      armedIdentity := none
      unattributedAttempts := 0
      unattributedLogLines := 0 }
  disk := { host.disk with pointer := .found pointer, highWater := .found highWater }

def stepHost (host : Host) : HostOp → Host × List Effect
  | .boot call =>
    let (host,effects,_) := reloadManifestAuthorizedAtBoot env host call
    (host,effects)
  | .reload operation context call =>
    let (host,effects,_) := reloadManifestAuthorized env host operation context call
    (host,effects)
  | .publish context bundle name call =>
    let (host,effects,_) := publishManifestBundleAuthorized env host context bundle name call
    (host,effects)
  | .edit root generations =>
    ({ host with disk := { host.disk with root := root, generations := generations } },[])
  | .audit wal => ({ host with engine := { host.engine with walWriter := wal } },[])
  | .restart pointer highWater wal =>
    if pointer∈host.disk.pointer.survivors ∧ highWater∈host.disk.highWater.survivors then
      (restartHost host pointer highWater wal,[])
    else (host,[])

def runHost (env : DecisionEnv) (host : Host) : List HostOp → Host × List (List Effect)
  | [] => (host,[])
  | op::ops =>
    let (host,effects) := stepHost env host op
    let (host,rest) := runHost env host ops
    (host,effects::rest)

/-- A daemon that has not loaded anything yet. -/
structure Fresh (host : Host) : Prop where
  unarmed : host.engine.armedIdentity=none
  empty : ∀ store, host.engine.manifestStore=some store →
    store.current=none ∧ store.currentSnapshot=none

end CastleWall.Decision
