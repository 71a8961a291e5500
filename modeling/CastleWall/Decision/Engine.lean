import CastleWall.Audit.Ring
import CastleWall.Audit.Writer
import CastleWall.Policy.Event
import CastleWall.Manifest.Authorize

/-! # The decision engine

Policy lookup, durable evidence and the verdict of one attempt (`decision.rs`). Each wait for a lock ends
as the caller of the model chooses; the clock and the storage faults come with it. -/

namespace CastleWall.Decision

open Text Policy Manifest Audit

structure DecisionEngine where
  fortressId : String
  manifestStore : Option ManifestStore
  walWriter : Option WalWriter
  auditBuffer : AuditRingBuffer
  /-- Written at most once, by the boot load. -/
  armedIdentity : Option AdmittedIdentity
  (unattributedAttempts unattributedLogLines : Nat)

/-- How waiting for a lock ends. Only the waits of a control operation see a shutdown. -/
inductive LockOutcome where
  | acquired
  | poisoned
  | cancelled
  | timeout
  deriving DecidableEq

/-- Why a candidate may not become live under the armed identity. -/
inductive IdentityRefusal where
  | notFrozen
  | underivable (err : PolicySnapshotError)
  | inconsistent (defect : IdentityDefect)
  | changed (armed candidate : AdmittedSubject)

inductive ControlAuditError where
  | walUnwired
  | walPoisoned
  | walAppend (err : WalError)
  | auditBufferPoisoned
  | canonicalize (err : CanonicalJsonError)
  | cancelled
  | lockTimeout
  | identityChangeWhileArmed (detail : IdentityRefusal)

def controlEventFields (fortressId operation detail : String) : List (String × Json) :=
  [("layer",.str auditLayer),("operation",.str operation),
    ("schema_version",.num schemaVersionV1.toNat),("fortress_id",.str fortressId),
    ("detail",.str detail)]

def controlEvent (fortressId operation detail : String) : String :=
  (Json.obj (Json.ofFields (controlEventFields fortressId operation detail))).canonicalText

structure ControlAppend where
  (bufferLock walLock : LockOutcome)
  /-- The shutdown flag once both locks are held. -/
  shutdown : Bool
  sinceEpochMs : Option Nat
  fate : AppendFate

def lockControl (poisoned : ControlAuditError) : LockOutcome → Except ControlAuditError Unit
  | .acquired => .ok ()
  | .poisoned => .error poisoned
  | .cancelled => .error .cancelled
  | .timeout => .error .lockTimeout

variable (engine : DecisionEngine)

def pushEvent (event : String) (sinceEpochMs : Option Nat) (critical : Bool) :
    DecisionEngine :=
  { engine with
    auditBuffer := engine.auditBuffer.append
      { eventCanonicalJson := event, capturedAt := sinceEpochMs.getD 0, critical := critical } }

def appendControlAuditCancellable (env : WalEnv) (engine : DecisionEngine) (operation detail : String)
    (call : ControlAppend) : DecisionEngine × Except ControlAuditError Nat :=
  match engine.walWriter with
  | none => (engine,.error .walUnwired)
  | some wal =>
    match lockControl .auditBufferPoisoned call.bufferLock, lockControl .walPoisoned call.walLock with
    | .error err, _ => (engine,.error err)
    | .ok (), .error err => (engine,.error err)
    | .ok (), .ok () =>
      if call.shutdown then (engine,.error .cancelled)
      else
        let event := controlEvent engine.fortressId operation detail
        match append env wal event .control call.sinceEpochMs call.fate with
        | (wal,.error err) => ({ engine with walWriter := some wal },.error (.walAppend err))
        | (wal,.ok seq) =>
          (pushEvent { engine with walWriter := some wal } event call.sinceEpochMs true,.ok seq)

inductive AttemptError where
  | manifestStoreUnwired
  | walUnwired
  | manifestStorePoisoned
  | walPoisoned
  | auditCanonicalize (err : CanonicalJsonError)

inductive OutcomeEvidence where
  | recorded (verdict : Verdict) (walSeq : Nat) (subject : ProtectionSubject) (eventCanonicalJson : String)
  | ringOnlyFailClosed (subject : ProtectionSubject) (eventCanonicalJson : String)
  | unattributed

structure EvaluationOutcome where
  evidence : OutcomeEvidence
  timestampIso8601 : String

def EvaluationOutcome.verdict (outcome : EvaluationOutcome) : Verdict :=
  match outcome.evidence with
  | .recorded verdict _ _ _ => verdict
  | .ringOnlyFailClosed _ _ => .deny .auditWalAppendFailed
  | .unattributed => .deny .defaultDeny

def EvaluationOutcome.releases (outcome : EvaluationOutcome) : Bool :=
  match outcome.evidence with
  | .recorded (.allow _) _ _ _ => true
  | _ => false

structure Attempt where
  (storeLock walLock bufferLock : LockOutcome)
  timestamp : String
  sinceEpochMs : Option Nat
  fate : AppendFate

/-- The verdict and the identity it is recorded under, read while the store is locked. -/
def decideUnderStore (store : ManifestStore) (request : EvaluationRequest) :
    LockOutcome → Except AttemptError (Verdict × Option AdmittedIdentity)
  | .acquired =>
    match store.currentSnapshot with
    | some snapshot =>
      .ok (snapshot.evaluate request,(AdmittedIdentity.fromSnapshot snapshot).toOption)
    | none => .ok (.deny .defaultDeny,engine.armedIdentity)
  | .poisoned => .error .manifestStorePoisoned
  | _ => .ok (.deny .defaultDeny,engine.armedIdentity)

def shouldLog (n : Nat) : Bool := n.isPowerOfTwo

def unattributedOutcome (timestamp : String) :
    DecisionEngine × EvaluationOutcome :=
  let count := min (engine.unattributedAttempts+1) (2 ^ 64 - 1)
  let lines := if shouldLog count then (engine.unattributedLogLines+1) % 2 ^ 64
    else engine.unattributedLogLines
  ({ engine with unattributedAttempts := count, unattributedLogLines := lines },
    { evidence := .unattributed, timestampIso8601 := timestamp })

def pushIfLocked (event : String) (attempt : Attempt) (critical : Bool) :
    DecisionEngine :=
  if attempt.bufferLock=.acquired then pushEvent engine event attempt.sinceEpochMs critical else engine

def failClosed (request : EvaluationRequest) (subject : ProtectionSubject)
    (attempt : Attempt) : DecisionEngine × Except AttemptError EvaluationOutcome :=
  match buildAuditEventCanonicalJson (.deny .auditWalAppendFailed) request subject attempt.timestamp with
  | .error err => (engine,.error (.auditCanonicalize err))
  | .ok event =>
    (pushIfLocked engine event attempt true,
      .ok { evidence := .ringOnlyFailClosed subject event, timestampIso8601 := attempt.timestamp })

def recordVerdict (env : WalEnv) (engine : DecisionEngine) (wal : WalWriter) (verdict : Verdict)
    (request : EvaluationRequest) (subject : ProtectionSubject) (attempt : Attempt) :
    DecisionEngine × Except AttemptError EvaluationOutcome :=
  match buildAuditEventCanonicalJson verdict request subject attempt.timestamp with
  | .error err => (engine,.error (.auditCanonicalize err))
  | .ok event =>
    match attempt.walLock with
    | .acquired =>
      match append env wal event .critical attempt.sinceEpochMs attempt.fate with
      | (wal,.ok seq) =>
        (pushIfLocked { engine with walWriter := some wal } event attempt false,
          .ok { evidence := .recorded verdict seq subject event, timestampIso8601 := attempt.timestamp })
      | (wal,.error _) => failClosed { engine with walWriter := some wal } request subject attempt
    | .poisoned => (engine,.error .walPoisoned)
    | _ => failClosed engine request subject attempt

def evaluateAttempt (env : WalEnv) (engine : DecisionEngine) (request : EvaluationRequest)
    (attempt : Attempt) : DecisionEngine × Except AttemptError EvaluationOutcome :=
  match engine.manifestStore, engine.walWriter with
  | none, _ => (engine,.error .manifestStoreUnwired)
  | some _, none => (engine,.error .walUnwired)
  | some store, some wal =>
    match decideUnderStore engine store request attempt.storeLock with
    | .error err => (engine,.error err)
    | .ok (verdict,identity) =>
      match resolveAuditSubject identity request.agentId with
      | none =>
        let (engine,outcome) := unattributedOutcome engine attempt.timestamp
        (engine,.ok outcome)
      | some subject => recordVerdict env engine wal verdict request subject attempt

def released : Except AttemptError EvaluationOutcome → Bool
  | .ok outcome => outcome.releases
  | .error _ => false

end CastleWall.Decision
