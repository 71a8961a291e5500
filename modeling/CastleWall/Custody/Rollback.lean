import CastleWall.Custody.EpochWitness

/-! # Rollback freezes

The boot check, the freeze marker and `restore-attest` of `core/anti-rollback.ts`, and the cross-check of
`core/config-baseline.ts` that runs after it. The marker caches a suspicion that the witnesses support;
deleting it has the suspicion derived again. -/

namespace CastleWall.Custody

open Cognitive.StateStore

structure FreezeData where
  (witnessedEpoch observedEpoch : Int)
  (witnessSource frozenAt : String)

def freezeFields (d : FreezeData) : List (String × Option Json) :=
  [("witnessed_epoch",some (.num d.witnessedEpoch)),("observed_epoch",some (.num d.observedEpoch)),
    ("witness_source",some (.str d.witnessSource)),("frozen_at",some (.str d.frozenAt))]

def numberOf : Json → Option Int
  | .num n => some n
  | _ => none

def decodeFreeze (data : Json) : Option FreezeData := do
  let witnessedEpoch ← (field data "witnessed_epoch").bind numberOf
  let observedEpoch ← (field data "observed_epoch").bind numberOf
  let witnessSource ← (field data "witness_source").bind stringOf
  let frozenAt ← (field data "frozen_at").bind stringOf
  return ⟨witnessedEpoch,observedEpoch,witnessSource,frozenAt⟩

def freezeKind : RecordKind FreezeData where
  marker := "__sanctuary_custody_rollback_freeze_v1"
  purpose := .rollbackFreeze
  domain := "sanctuary.custody-rollback-freeze.v1\n"
  encode := fun d => objectOf (freezeFields d)
  decode := decodeFreeze

structure FreezeState where
  frozen : Bool
  data : Option FreezeData

section Operations

variable (mac : MasterMac)

/-- A marker that does not authenticate freezes too. -/
def freezeStateOf (file : MetaFile) : FreezeState :=
  match freezeKind.read mac file with
  | .absent => ⟨false,none⟩
  | .invalid => ⟨true,none⟩
  | .valid data => ⟨true,some data⟩

def isRollbackFrozen : CustodyM FreezeState := Process.observe fun f => freezeStateOf mac f.freeze

def putFreeze (data : FreezeData) (f : Fortress) : Fortress :=
  { f with freeze := some (some (freezeKind.record mac data)) }

def writeFreeze (data : FreezeData) : CustodyM Unit := Process.modify (putFreeze mac data)

def clearFreeze : CustodyM Unit := Process.modify fun f => { f with freeze := none }

structure WitnessObservation where
  highestEpoch : Nat
  source : String
  suspect : Bool
  notes : List String

def rotationTamperedNote : String :=
  "the master-rotation epoch record (__custody_epoch_keys) is present but " ++
    "failed authentication; treating as suspected rollback"

def witnessInvalidNote : String :=
  "the custody epoch witness record is present but failed authentication; " ++
    "treating as suspected rollback"

def spliceNote : String :=
  "the audit head anchor is present but does NOT authenticate under the " ++
    "unlocked master; the custody files appear to be from a different " ++
    "(older) master grafted onto this fortress's audit chain — a custody " ++
    "splice that can resurrect a retired credential"

def rotationEpoch : RotationRecord → Nat × Bool
  | .absent => (0,false)
  | .present count => (count,false)
  | .tampered => (0,true)

def observeRotation (rotation : RotationRecord) : WitnessObservation :=
  if (rotationEpoch rotation).2 then ⟨0,"creation",true,[rotationTamperedNote]⟩
  else if 0 < (rotationEpoch rotation).1 then
    ⟨(rotationEpoch rotation).1,"master-rotation epoch record (#501)",false,[]⟩
  else ⟨0,"creation",false,[]⟩

def observeWitness (witness : RecordStatus EpochWitness) (o : WitnessObservation) : WitnessObservation :=
  match witness with
  | .invalid => { o with suspect := true, notes := o.notes++[witnessInvalidNote] }
  | .valid w =>
    if o.highestEpoch < w.epoch then
      { o with highestEpoch := w.epoch, source := "custody epoch witness record" }
    else o
  | .absent => o

def observeHeadAnchor (headAnchor : HeadAnchor) (o : WitnessObservation) : WitnessObservation :=
  match headAnchor with
  | .tampered =>
    { o with
      suspect := true
      source := if o.source = "creation" then "audit head anchor (splice signature)" else o.source
      notes := o.notes++[spliceNote] }
  | _ => o

def observeWitnessEpoch (rotation : RotationRecord) (headAnchor : HeadAnchor) : CustodyM WitnessObservation := do
  let witness ← Process.observe fun f => readEpochWitness mac f.witness
  return observeHeadAnchor headAnchor (observeWitness witness (observeRotation rotation))

inductive RollbackVerdict where
  | ok (epoch : Nat)
  | rollbackSuspected (observedEpoch witnessedEpoch : Nat) (witnessSource : String) (notes : List String)

def evaluateRollback (envelopeEpoch : Nat) (o : WitnessObservation) : RollbackVerdict :=
  if o.suspect then .rollbackSuspected envelopeEpoch (max o.highestEpoch envelopeEpoch) o.source o.notes
  else if envelopeEpoch < o.highestEpoch then
    .rollbackSuspected envelopeEpoch o.highestEpoch o.source
      ((s!"on-disk custody epoch ({envelopeEpoch}) is older than the highest " ++
        s!"surviving witness ({o.highestEpoch}); a snapshot may have " ++
        "been restored or the custody files spliced back")::o.notes)
  else .ok envelopeEpoch

def freezeDataOf (observedEpoch witnessedEpoch : Nat) (witnessSource now : String) : FreezeData :=
  ⟨witnessedEpoch,observedEpoch,witnessSource,now⟩

def epochIdFor (o : WitnessObservation) (epoch : Nat) : String :=
  if epoch=0 then "epoch-0-creation" else s!"epoch-{epoch}:{o.source}"

structure RollbackBootResult where
  verdict : RollbackVerdict
  frozen : Bool

def freezeUnlessKnown (prior : FreezeState) (data : FreezeData) : CustodyM Unit :=
  if prior.data.isSome then pure () else writeFreeze mac data

def evaluateAndEnforceRollback (envelopeEpoch : Nat) (o : WitnessObservation) (now : String) :
    CustodyM RollbackBootResult := do
  let priorFreeze ← isRollbackFrozen mac
  match evaluateRollback envelopeEpoch o with
  | .rollbackSuspected observedEpoch witnessedEpoch witnessSource notes =>
    freezeUnlessKnown mac priorFreeze (freezeDataOf observedEpoch witnessedEpoch witnessSource now)
    return ⟨.rollbackSuspected observedEpoch witnessedEpoch witnessSource notes,true⟩
  | .ok epoch =>
    -- An observation that agrees does not clear a freeze.
    writeEpochWitness mac ⟨envelopeEpoch,epochIdFor o envelopeEpoch,now,none,none,none⟩ false
    return ⟨.ok epoch,priorFreeze.frozen⟩

def observeFortress : CustodyM (Nat × WitnessObservation) := do
  let rotation ← Process.observe (·.rotation)
  let headAnchor ← Process.observe (·.headAnchor)
  let observation ← observeWitnessEpoch mac rotation headAnchor
  let envelopeEpoch ← Process.observe (·.envelopeEpoch)
  return (envelopeEpoch,observation)

def bootCheck (now : String) : CustodyM RollbackBootResult := do
  let (envelopeEpoch,observation) ← observeFortress mac
  evaluateAndEnforceRollback mac envelopeEpoch observation now

def rekorCounterFloorWitnessSource : String :=
  "transparency counter floor vs locally-recorded Rekor anchor receipts (Stage 2)"

/-- `evaluateAndEnforceRekorCounterFloor`; a read that fails leaves everything as it is. -/
def enforceRekorCounterFloor (now : String) : CustodyM Unit := do
  let verdict ← Process.observe (·.stage2)
  match verdict with
  | .suspected onDiskFloor highestAnchoredCounter =>
    let priorFreeze ← isRollbackFrozen mac
    freezeUnlessKnown mac priorFreeze
      (freezeDataOf onDiskFloor highestAnchoredCounter rekorCounterFloorWitnessSource now)
  | _ => return ()

def recomputeStage2Freeze (now : String) : CustodyM FreezeState := do
  let verdict ← Process.observe (·.stage2)
  match verdict with
  | .suspected onDiskFloor highestAnchoredCounter =>
    enforceRekorCounterFloor mac now
    return ⟨true,some (freezeDataOf onDiskFloor highestAnchoredCounter rekorCounterFloorWitnessSource now)⟩
  | .unreadable =>
    let data := freezeDataOf 0 0
      (rekorCounterFloorWitnessSource ++ " (recompute I/O error — failing toward frozen)") now
    writeFreeze mac data
    return ⟨true,some data⟩
  | _ => return ⟨false,none⟩

def isRollbackFrozenWithRecompute (now : String) : CustodyM FreezeState := do
  let marker ← isRollbackFrozen mac
  let present ← Process.observe fun f => f.freeze.isSome
  if present then return marker
  else
    let (envelopeEpoch,observation) ← observeFortress mac
    match evaluateRollback envelopeEpoch observation with
    | .rollbackSuspected observedEpoch witnessedEpoch witnessSource _ =>
      let data := freezeDataOf observedEpoch witnessedEpoch witnessSource now
      writeFreeze mac data
      return ⟨true,some data⟩
    | .ok _ => recomputeStage2Freeze mac now

/-- What `loadAuthenticatedBaseline` makes of the baseline record. -/
inductive LoadedBaseline where
  | absent
  | reseed (recognizedSchema : Nat)
  /-- The stored posture, and whether the running configuration is weaker. -/
  | authenticated (downgraded : Bool)
  /-- The record is refused. -/
  | refused

def configBaselineSchemaVersion : Nat := 3

inductive ConfigBaselineCrossCheck where
  | seeded
  | reseeded
  | advanced

def crossCheckConfigBaseline (loaded : LoadedBaseline) (now : String) : CustodyM ConfigBaselineCrossCheck := do
  match loaded with
  | .refused => Process.fail .configBaselineInvalid
  | .absent =>
    let latch ← readBaselineEstablishedLatch mac
    Process.require (¬ latch.established=true) .configBaselineRollback
    raiseBaselineEstablishedLatch mac configBaselineSchemaVersion now
    return .seeded
  | .reseed recognizedSchema =>
    let latch ← readBaselineEstablishedLatch mac
    Process.require (¬ (latch.established=true ∧ latch.sealedSchema.any (recognizedSchema < ·)=true))
      .configBaselineRollback
    raiseBaselineEstablishedLatch mac configBaselineSchemaVersion now
    return .reseeded
  | .authenticated downgraded =>
    let _ ← readBaselineEstablishedLatch mac
    Process.require (¬ downgraded=true) .configDowngrade
    raiseBaselineEstablishedLatch mac configBaselineSchemaVersion now
    return .advanced

structure Attestation where
  attestedEpoch : Nat
  epochId : String
  willUnfreeze : Bool
  priorFreeze : Option FreezeData

structure RestoreAttestResult where
  attestedEpoch : Nat
  unfroze : Bool

/-- The custody lock, the audit log and the transparency records an attestation uses. -/
structure AttestEnv where
  /-- The lease is held at the given check. -/
  assertLockHeld : Nat → Bool
  /-- The audit entry is durable. -/
  recordAttestation : Attestation → Bool
  /-- The transparency floor is raised to the anchored counter, as far as that goes. -/
  rebaselined : Stage2Verdict → Stage2Verdict

def rebaselineStage2FloorBestEffort (env : AttestEnv) : CustodyM Unit :=
  Process.modify fun f =>
    if f.stage2=.notApplicable then f else { f with stage2 := env.rebaselined f.stage2 }

def attestedWitness (currentEpoch : Nat) (epochId now : String) (latch : BaselineLatch) (floor : Nat) :
    EpochWitness where
  epoch := currentEpoch
  epochId := epochId
  witnessedAt := now
  baselineEstablished := if latch.established then some true else none
  baselineSchema := if latch.established then latch.sealedSchema else none
  revocationFloor := if 0 < floor then some floor else none

def clearIfAuthenticated (env : AttestEnv) (unfroze : Bool) : CustodyM Unit :=
  if unfroze then do
    Process.require (env.assertLockHeld 5=true) .leaseLost
    clearFreeze
    Process.require (env.assertLockHeld 6=true) .leaseLost
  else return ()

def restoreAttest (env : AttestEnv) (currentEpoch : Nat) (epochId now : String) :
    CustodyM RestoreAttestResult := do
  Process.require (env.assertLockHeld 0=true) .leaseLost
  let priorFreeze ← isRollbackFrozen mac
  let unfroze := priorFreeze.frozen && priorFreeze.data.isSome
  Process.require (env.assertLockHeld 1=true) .leaseLost
  Process.require (env.recordAttestation ⟨currentEpoch,epochId,unfroze,priorFreeze.data⟩=true)
    .attestationNotRecorded
  Process.require (env.assertLockHeld 2=true) .leaseLost
  let priorLatch ← readBaselineEstablishedLatch mac
  let priorRevocationFloor ← readRevocationFloorLatch mac
  Process.require (env.assertLockHeld 3=true) .leaseLost
  writeEpochWitness mac (attestedWitness currentEpoch epochId now priorLatch priorRevocationFloor.1) true
  Process.require (env.assertLockHeld 4=true) .leaseLost
  clearIfAuthenticated env unfroze
  Process.require (env.assertLockHeld 7=true) .leaseLost
  rebaselineStage2FloorBestEffort env
  Process.require (env.assertLockHeld 8=true) .leaseLost
  return ⟨currentEpoch,unfroze⟩

end Operations

section Evidence

variable (mac : MasterMac)

def observation (f : Fortress) : WitnessObservation :=
  observeHeadAnchor f.headAnchor
    (observeWitness (readEpochWitness mac f.witness) (observeRotation f.rotation))

/-- A rotation record or an audit head that contradicts the envelope, whatever the witness says. -/
def Corroborated (f : Fortress) : Prop :=
  f.rotation=.tampered ∨ f.headAnchor=.tampered ∨ f.envelopeEpoch < (rotationEpoch f.rotation).1

instance (f : Fortress) : Decidable (Corroborated f) := by
  unfold Corroborated
  infer_instance

def Stage2Verdict.Alarms : Stage2Verdict → Prop
  | .suspected _ _ => True
  | .unreadable => True
  | _ => False

def Suspects (f : Fortress) : Prop :=
  (observation mac f).suspect=true ∨ f.envelopeEpoch < (observation mac f).highestEpoch

theorem evaluateRollback_eq_suspected {envelopeEpoch : Nat} {o : WitnessObservation}
    (h : o.suspect=true ∨ envelopeEpoch < o.highestEpoch) :
    ∃ observedEpoch witnessedEpoch witnessSource notes, evaluateRollback envelopeEpoch o =
      .rollbackSuspected observedEpoch witnessedEpoch witnessSource notes := by
  rw [evaluateRollback]
  by_cases hsus : o.suspect=true
  · rw [if_pos hsus]
    exact ⟨_,_,_,_,rfl⟩
  · rw [if_neg hsus,if_pos (h.resolve_left hsus)]
    exact ⟨_,_,_,_,rfl⟩

theorem evaluateRollback_eq_ok {envelopeEpoch : Nat} {o : WitnessObservation}
    (h : ¬ (o.suspect=true ∨ envelopeEpoch < o.highestEpoch)) :
    evaluateRollback envelopeEpoch o=.ok envelopeEpoch := by
  rw [not_or] at h
  rw [evaluateRollback,if_neg h.1,if_neg h.2]

theorem observeRotation_suspect (rotation : RotationRecord) :
    (observeRotation rotation).suspect=true ↔ rotation=.tampered := by
  cases rotation with
  | absent => simp [observeRotation,rotationEpoch]
  | present count =>
    by_cases hcou : 0 < count
    · simp [observeRotation,rotationEpoch,hcou]
    · simp [observeRotation,rotationEpoch,hcou]
  | tampered => simp [observeRotation,rotationEpoch]

theorem observeRotation_highestEpoch (rotation : RotationRecord) :
    (observeRotation rotation).highestEpoch=(rotationEpoch rotation).1 := by
  cases rotation with
  | absent => simp [observeRotation,rotationEpoch]
  | present count =>
    by_cases hcou : 0 < count
    · simp [observeRotation,rotationEpoch,hcou]
    · simp [observeRotation,rotationEpoch,hcou]
      omega
  | tampered => simp [observeRotation,rotationEpoch]

theorem observeHeadAnchor_suspect (headAnchor : HeadAnchor) (o : WitnessObservation) :
    (observeHeadAnchor headAnchor o).suspect=true ↔ headAnchor=.tampered ∨ o.suspect=true := by
  cases headAnchor <;> simp [observeHeadAnchor]

theorem observeHeadAnchor_highestEpoch (headAnchor : HeadAnchor) (o : WitnessObservation) :
    (observeHeadAnchor headAnchor o).highestEpoch=o.highestEpoch := by
  cases headAnchor <;> rfl

theorem observeWitness_valid_highestEpoch (w : EpochWitness) (o : WitnessObservation) :
    (observeWitness (.valid w) o).highestEpoch=max o.highestEpoch w.epoch := by
  by_cases hlt : o.highestEpoch < w.epoch
  · simp [observeWitness,hlt,hlt.le]
  · simp [observeWitness,hlt,not_lt.mp hlt]

theorem observeWitness_valid_suspect (w : EpochWitness) (o : WitnessObservation) :
    (observeWitness (.valid w) o).suspect=o.suspect := by
  rw [observeWitness]
  split_ifs <;> rfl

/-- The suspicion rests on the records beside the witness, on a witness that does not authenticate, or on one of
a later epoch. -/
theorem suspects_iff (f : Fortress) :
    Suspects mac f ↔ Corroborated f ∨ readEpochWitness mac f.witness=.invalid ∨
      ∃ w, readEpochWitness mac f.witness=.valid w ∧ f.envelopeEpoch < w.epoch := by
  rw [Suspects,observation,observeHeadAnchor_suspect,observeHeadAnchor_highestEpoch,Corroborated]
  cases hrea : readEpochWitness mac f.witness with
  | valid w =>
    rw [observeWitness_valid_suspect,observeWitness_valid_highestEpoch,observeRotation_suspect,
      observeRotation_highestEpoch,lt_max_iff]
    simp
    tauto
  | absent =>
    simp [observeWitness,observeRotation_suspect,observeRotation_highestEpoch]
    tauto
  | invalid => simp [observeWitness]

variable (file : MetaFile)

theorem freezeStateOf_frozen : (freezeStateOf mac file).frozen=file.isSome := by
  rcases file with - | - | parsed
  · rfl
  · rfl
  · rw [freezeStateOf]
    cases hrea : freezeKind.read mac (some (some parsed)) with
    | valid data => rfl
    | invalid => rfl
    | absent =>
      rw [RecordKind.read] at hrea
      split at hrea
      · split_ifs at hrea
      · cases hrea

theorem run_isRollbackFrozen (f : Fortress) :
    (isRollbackFrozen mac).run f=(.ok (freezeStateOf mac f.freeze),f) := rfl

theorem run_observeFortress (f : Fortress) :
    (observeFortress mac).run f=(.ok (f.envelopeEpoch,observation mac f),f) := rfl

def OnlyFreezes (f g : Fortress) : Prop :=
  g=f ∨ ∃ data, g=putFreeze mac data f

theorem run_freezeUnlessKnown (prior : FreezeState) (data : FreezeData) (f : Fortress) :
    ∃ g, (freezeUnlessKnown mac prior data).run f=(.ok (),g) ∧ OnlyFreezes mac f g := by
  rw [freezeUnlessKnown]
  split_ifs
  · exact ⟨f,rfl,.inl rfl⟩
  · exact ⟨_,rfl,.inr ⟨data,rfl⟩⟩

variable {f g : Fortress}

theorem run_bootCheck_of_suspects (h : Suspects mac f) (now : String) :
    ∃ r g, (bootCheck mac now).run f=(.ok r,g) ∧ r.frozen=true ∧ (∀ n, r.verdict≠.ok n) ∧
      OnlyFreezes mac f g := by
  obtain ⟨observedEpoch,witnessedEpoch,witnessSource,notes,hver⟩ := evaluateRollback_eq_suspected h
  rw [bootCheck,Process.run_bind,Effect.bind_apply_ok (run_observeFortress mac f)]
  dsimp only
  rw [evaluateAndEnforceRollback,Process.run_bind,Effect.bind_apply_ok (run_isRollbackFrozen mac f),hver]
  dsimp only
  obtain ⟨g,hrun,hfre⟩ := run_freezeUnlessKnown mac (freezeStateOf mac f.freeze)
    (freezeDataOf observedEpoch witnessedEpoch witnessSource now) f
  rw [Process.run_bind,Effect.bind_apply_ok hrun]
  exact ⟨_,g,rfl,rfl,nofun,hfre⟩

variable {now : String}

/-- A boot that does not suspect says so, if it ends. -/
theorem run_bootCheck_of_not_suspects {r : RollbackBootResult}
    (h : ¬ Suspects mac f) (hrun : (bootCheck mac now).run f=(.ok r,g)) :
    r.verdict=.ok f.envelopeEpoch := by
  rw [bootCheck,Process.run_bind,Effect.bind_apply_ok (run_observeFortress mac f)] at hrun
  dsimp only at hrun
  rw [evaluateAndEnforceRollback,Process.run_bind,Effect.bind_apply_ok (run_isRollbackFrozen mac f),
    evaluateRollback_eq_ok h] at hrun
  dsimp only at hrun
  rw [Process.run_bind] at hrun
  obtain ⟨u,s',-,hret⟩ := Effect.bind_eq_ok hrun
  cases hret
  rfl

theorem run_enforceRekorCounterFloor (now : String) (f : Fortress) :
    ∃ g, (enforceRekorCounterFloor mac now).run f=(.ok (),g) ∧ OnlyFreezes mac f g := by
  rw [enforceRekorCounterFloor,Process.run_bind,Effect.bind_apply_ok (Process.run_observe _ f)]
  cases hsta : f.stage2 with
  | suspected onDiskFloor higr =>
    dsimp only
    rw [Process.run_bind,Effect.bind_apply_ok (run_isRollbackFrozen mac f)]
    exact run_freezeUnlessKnown mac _ _ f
  | notApplicable => exact ⟨f,rfl,.inl rfl⟩
  | consistent => exact ⟨f,rfl,.inl rfl⟩
  | unreadable => exact ⟨f,rfl,.inl rfl⟩

theorem run_recomputeStage2Freeze (now : String) (f : Fortress) :
    ∃ s g, (recomputeStage2Freeze mac now).run f=(.ok s,g) ∧ (s.frozen=true ↔ f.stage2.Alarms) ∧
      OnlyFreezes mac f g := by
  rw [recomputeStage2Freeze,Process.run_bind,Effect.bind_apply_ok (Process.run_observe _ f)]
  cases hsta : f.stage2 with
  | suspected onDiskFloor higr =>
    dsimp only
    obtain ⟨g,hrun,hfre⟩ := run_enforceRekorCounterFloor mac now f
    rw [Process.run_bind,Effect.bind_apply_ok hrun]
    exact ⟨_,g,rfl,by simp [Stage2Verdict.Alarms],hfre⟩
  | notApplicable => exact ⟨_,f,rfl,by simp [Stage2Verdict.Alarms],.inl rfl⟩
  | consistent => exact ⟨_,f,rfl,by simp [Stage2Verdict.Alarms],.inl rfl⟩
  | unreadable => exact ⟨_,_,rfl,by simp [Stage2Verdict.Alarms],.inr ⟨_,rfl⟩⟩

theorem run_isRollbackFrozenWithRecompute (now : String) (f : Fortress) :
    ∃ s g, (isRollbackFrozenWithRecompute mac now).run f=(.ok s,g) ∧
      (s.frozen=true ↔ f.freeze.isSome=true ∨ Suspects mac f ∨ f.stage2.Alarms) ∧ OnlyFreezes mac f g := by
  rw [isRollbackFrozenWithRecompute,Process.run_bind,Effect.bind_apply_ok (run_isRollbackFrozen mac f),
    Process.run_bind,Effect.bind_apply_ok (Process.run_observe _ f)]
  by_cases hmar : f.freeze.isSome=true
  · rw [if_pos hmar]
    refine ⟨_,f,rfl,?_,.inl rfl⟩
    rw [freezeStateOf_frozen]
    simp [hmar]
  · rw [if_neg hmar,Process.run_bind,Effect.bind_apply_ok (run_observeFortress mac f)]
    dsimp only
    by_cases hsus : Suspects mac f
    · obtain ⟨observedEpoch,witnessedEpoch,witnessSource,notes,hver⟩ :=
        evaluateRollback_eq_suspected hsus
      rw [hver]
      exact ⟨_,_,rfl,by simp [hsus],.inr ⟨_,rfl⟩⟩
    · rw [evaluateRollback_eq_ok hsus]
      obtain ⟨s,g,hrun,hfro,hfre⟩ := run_recomputeStage2Freeze mac now f
      refine ⟨s,g,hrun,?_,hfre⟩
      rw [hfro]
      simp [hmar,hsus]

def reportsFrozen (now : String) (f : Fortress) : Bool :=
  match ((isRollbackFrozenWithRecompute mac now).run f).1 with
  | .ok state => state.frozen
  | .error _ => false

theorem reportsFrozen_iff (now : String) (f : Fortress) :
    reportsFrozen mac now f=true ↔ f.freeze.isSome=true ∨ Suspects mac f ∨ f.stage2.Alarms := by
  obtain ⟨s,g,hrun,hfro,-⟩ := run_isRollbackFrozenWithRecompute mac now f
  rw [reportsFrozen,hrun]
  exact hfro

/-! The cross-check changes the witness at most. -/

/-- The loaded baselines for which the cross-check fails before it raises the latch. -/
def LoadedBaseline.Stops (loaded : LoadedBaseline) : Prop :=
  loaded=.refused ∨ loaded=.authenticated true

theorem run_require_raise {p : Prop} [Decidable p] {err : CustodyError} {result : ConfigBaselineCrossCheck}
    (now : String) (f : Fortress) :
    Raised mac f (((do
      Process.require p err
      raiseBaselineEstablishedLatch mac configBaselineSchemaVersion now
      return result) : CustodyM ConfigBaselineCrossCheck).run f).2 := by
  rw [Process.run_bind,Process.run_require]
  by_cases hp : p
  · obtain ⟨g,hrun,hrai⟩ := run_raiseBaselineEstablishedLatch mac
      (show configBaselineSchemaVersion < 2 ^ 53 by decide) now f
    rw [Effect.bind_apply_ok (Effect.require_apply hp _ f),Process.run_bind,Effect.bind_apply_ok hrun]
    exact hrai
  · rw [Effect.bind_apply_error (Effect.require_fails hp _ f)]
    exact .kept

theorem run_crossCheckConfigBaseline (loaded : LoadedBaseline) (now : String) (f : Fortress) :
    Raised mac f ((crossCheckConfigBaseline mac loaded now).run f).2 := by
  cases loaded with
  | refused => exact .kept
  | absent => exact run_require_raise mac now f
  | reseed recognizedSchema => exact run_require_raise mac now f
  | authenticated downgraded => exact run_require_raise mac now f

theorem run_crossCheckConfigBaseline_stops {loaded : LoadedBaseline} (h : loaded.Stops) (now : String)
    (f : Fortress) : ((crossCheckConfigBaseline mac loaded now).run f).2=f := by
  rcases h with rfl | rfl
  · rfl
  · rfl

inductive FortressEvent where
  | boot (now : String)
  | bootStage2 (now : String)
  | crossCheck (loaded : LoadedBaseline) (now : String)
  | raiseRevocation (version : Nat) (now : String)
  | gate (now : String)
  | deleteMarker

/-- The fortress afterwards, whether the routine failed or not. -/
def applyEvent (f : Fortress) : FortressEvent → Fortress
  | .boot now => ((bootCheck mac now).run f).2
  | .bootStage2 now => ((enforceRekorCounterFloor mac now).run f).2
  | .crossCheck loaded now => ((crossCheckConfigBaseline mac loaded now).run f).2
  | .raiseRevocation version now => ((raiseRevocationFloorLatch mac version now).run f).2
  | .gate now => ((isRollbackFrozenWithRecompute mac now).run f).2
  | .deleteMarker => { f with freeze := none }

def runEvents (f : Fortress) (events : List FortressEvent) : Fortress := events.foldl (applyEvent mac) f

/-- A suspicion that no routine takes back. -/
def Firm (f : Fortress) : Prop :=
  Corroborated f ∨ f.stage2.Alarms ∨
    ∃ w, readEpochWitness mac f.witness=.valid w ∧ f.envelopeEpoch < w.epoch

def FortressEvent.RaisesLatch : FortressEvent → Prop
  | .crossCheck loaded _ => ¬ loaded.Stops
  | .raiseRevocation version _ => version < 2 ^ 53
  | _ => False

/-- No latch is raised on a witness that does not authenticate, unless the suspicion has other support. -/
def SupportedRun (f : Fortress) : List FortressEvent → Prop
  | [] => True
  | event::events =>
    (event.RaisesLatch → readEpochWitness mac f.witness=.invalid → Corroborated f ∨ f.stage2.Alarms) ∧
      SupportedRun (applyEvent mac f event) events

theorem suspects_or_alarms_iff (f : Fortress) :
    Suspects mac f ∨ f.stage2.Alarms ↔ Firm mac f ∨ readEpochWitness mac f.witness=.invalid := by
  rw [suspects_iff,Firm]
  grind

variable {mac}

theorem Firm.onlyFreezes (h : Firm mac f) (hfg : OnlyFreezes mac f g) : Firm mac g := by
  rcases hfg with rfl | ⟨data,rfl⟩
  · exact h
  · exact h

theorem Firm.raised (h : Firm mac f) (hfg : Raised mac f g) : Firm mac g := by
  cases hfg with
  | kept => exact h
  | written hsaf hbel =>
    rename_i w
    rcases h with hcor | hala | ⟨c,hrea,hepo⟩
    · exact .inl hcor
    · exact .inr (.inl hala)
    · refine .inr (.inr ⟨w,read_putWitness mac hsaf f,?_⟩)
      rw [(hbel c hrea).2]
      exact hepo

theorem run_raiseRevocationFloorLatch_refused {version : Nat} (h : ¬ version < 2 ^ 53) (now : String)
    (f : Fortress) : ((raiseRevocationFloorLatch mac version now).run f).2=f := by
  rw [raiseRevocationFloorLatch,Process.run_bind,Process.run_require,
    Effect.bind_apply_error (Effect.require_fails h _ f)]

theorem raised_raiseRevocationFloorLatch (version : Nat) (now : String) (f : Fortress) :
    Raised mac f ((raiseRevocationFloorLatch mac version now).run f).2 := by
  by_cases hver : version < 2 ^ 53
  · obtain ⟨g,hrun,hrai,-⟩ := run_raiseRevocationFloorLatch mac hver now f
    rw [hrun]
    exact hrai
  · rw [run_raiseRevocationFloorLatch_refused hver]
    exact .kept

theorem stage2_writeEpochWitness (data : EpochWitness) (f : Fortress) :
    ((writeEpochWitness mac data false).run f).2.stage2=f.stage2 := by
  rw [run_writeEpochWitness]
  split
  · split_ifs <;> rfl
  · rfl

theorem stage2_bootCheck (now : String) (f : Fortress) :
    ((bootCheck mac now).run f).2.stage2=f.stage2 := by
  by_cases hsus : Suspects mac f
  · obtain ⟨r,g,hrun,-,-,hfre⟩ := run_bootCheck_of_suspects mac hsus now
    rw [hrun]
    rcases hfre with rfl | ⟨data,rfl⟩ <;> rfl
  · rw [bootCheck,Process.run_bind,Effect.bind_apply_ok (run_observeFortress mac f)]
    dsimp only
    rw [evaluateAndEnforceRollback,Process.run_bind,Effect.bind_apply_ok (run_isRollbackFrozen mac f),
      evaluateRollback_eq_ok hsus]
    dsimp only
    rw [Process.run_bind]
    exact (congrArg Fortress.stage2 (Effect.bind_pure_state _ _ f)).trans (stage2_writeEpochWitness _ f)

theorem Firm.applyEvent (h : Firm mac f) (event : FortressEvent) :
    Firm mac (applyEvent mac f event) := by
  cases event with
  | boot now =>
    by_cases hsus : Suspects mac f
    · obtain ⟨r,g,hrun,-,-,hfre⟩ := run_bootCheck_of_suspects mac hsus now
      rw [Custody.applyEvent,hrun]
      exact h.onlyFreezes hfre
    · have hala : f.stage2.Alarms :=
        (((suspects_or_alarms_iff mac f).mpr (.inl h)).resolve_left hsus)
      refine .inr (.inl ?_)
      rw [Custody.applyEvent,stage2_bootCheck]
      exact hala
  | bootStage2 now =>
    obtain ⟨g,hrun,hfre⟩ := run_enforceRekorCounterFloor mac now f
    rw [Custody.applyEvent,hrun]
    exact h.onlyFreezes hfre
  | crossCheck loaded now => exact h.raised (run_crossCheckConfigBaseline mac loaded now f)
  | raiseRevocation version now => exact h.raised (raised_raiseRevocationFloorLatch version now f)
  | gate now =>
    obtain ⟨s,g,hrun,-,hfre⟩ := run_isRollbackFrozenWithRecompute mac now f
    rw [Custody.applyEvent,hrun]
    exact h.onlyFreezes hfre
  | deleteMarker => exact h

theorem Firm.runEvents (h : Firm mac f) (events : List FortressEvent) :
    Firm mac (runEvents mac f events) := by
  induction events generalizing f with
  | nil => exact h
  | cons event events ih => exact ih (h.applyEvent event)

theorem OnlyFreezes.witness (h : OnlyFreezes mac f g) : g.witness=f.witness := by
  rcases h with rfl | ⟨data,rfl⟩ <;> rfl

/-- An event that raises no latch leaves a witness that does not authenticate as it is. -/
theorem witness_applyEvent (hrea : readEpochWitness mac f.witness=.invalid)
    {event : FortressEvent} (h : ¬ event.RaisesLatch) :
    (applyEvent mac f event).witness=f.witness := by
  cases event with
  | boot now =>
    obtain ⟨r,g,hrun,-,-,hfre⟩ :=
      run_bootCheck_of_suspects mac ((suspects_iff mac f).mpr (.inr (.inl hrea))) now
    rw [applyEvent,hrun]
    exact hfre.witness
  | bootStage2 now =>
    obtain ⟨g,hrun,hfre⟩ := run_enforceRekorCounterFloor mac now f
    rw [applyEvent,hrun]
    exact hfre.witness
  | crossCheck loaded now => rw [applyEvent,run_crossCheckConfigBaseline_stops mac (not_not.mp h)]
  | raiseRevocation version now => rw [applyEvent,run_raiseRevocationFloorLatch_refused h]
  | gate now =>
    obtain ⟨s,g,hrun,-,hfre⟩ := run_isRollbackFrozenWithRecompute mac now f
    rw [applyEvent,hrun]
    exact hfre.witness
  | deleteMarker => rfl

theorem supported_runEvents (h : Suspects mac f ∨ f.stage2.Alarms)
    {events : List FortressEvent} (heve : SupportedRun mac f events) :
    Suspects mac (runEvents mac f events) ∨ (runEvents mac f events).stage2.Alarms := by
  induction events generalizing f with
  | nil => exact h
  | cons event events ih =>
    refine ih ?_ heve.2
    rw [suspects_or_alarms_iff] at h ⊢
    rcases h with hfir | hrea
    · exact .inl (hfir.applyEvent event)
    by_cases hrai : event.RaisesLatch
    · refine .inl (Firm.applyEvent ?_ event)
      rcases heve.1 hrai hrea with hcor | hala
      · exact .inl hcor
      · exact .inr (.inl hala)
    · rw [witness_applyEvent hrea hrai]
      exact .inr hrea

/-- A latch raised on a witness that does not authenticate starts it afresh at epoch zero. -/
theorem run_raiseRevocationFloorLatch_invalid {version : Nat} (hver : version < 2 ^ 53) (now : String) (hrea : readEpochWitness mac f.witness=.invalid) :
    (raiseRevocationFloorLatch mac version now).run f =
      (.ok (),putWitness mac (raisedFloor (latchBase .invalid now) version now) f) := by
  have hwri := run_writeEpochWitness mac (raisedFloor (latchBase .invalid now) version now) f
  rw [hrea] at hwri
  rw [raiseRevocationFloorLatch,Process.run_bind,Process.run_require,
    Effect.bind_apply_ok (Effect.require_apply hver _ f),Process.run_bind,
    Effect.bind_apply_ok (Process.run_observe _ f),hrea]
  exact hwri

/-- A suspicion that rests on the witness alone is gone once a latch is raised and the marker deleted. -/
theorem not_reportsFrozen_raise_delete (hrea : readEpochWitness mac f.witness=.invalid)
    (hcor : ¬ Corroborated f) (hala : ¬ f.stage2.Alarms) (later now : String) :
    reportsFrozen mac later (runEvents mac f [.raiseRevocation 1 now,.deleteMarker])=false := by
  have hver : 1 < 2 ^ 53 := Nat.one_lt_two_pow (by decide)
  have hbas : (latchBase .invalid now).Safe := ⟨Nat.two_pow_pos 53,nofun,nofun⟩
  rw [← Bool.not_eq_true,reportsFrozen_iff,runEvents,List.foldl_cons,List.foldl_cons,List.foldl_nil,
    applyEvent,applyEvent,run_raiseRevocationFloorLatch_invalid hver now hrea,suspects_iff]
  dsimp only
  rw [read_putWitness mac (safe_raisedFloor hbas hver now)]
  rintro (hmar | (hcor' | hinv | ⟨w,hw,hepo⟩) | hala')
  · cases hmar
  · exact hcor hcor'
  · cases hinv
  · cases hw
    exact Nat.not_lt_zero _ hepo
  · exact hala hala'

/-- A suspected rollback stays reported along every run that raises no latch on a witness that does not
authenticate, and along every run whatever exactly when it does not rest on such a witness alone. -/
theorem suspected_rollback_stays_frozen {r : RollbackBootResult}
    (hboot : (bootCheck mac now).run f=(.ok r,g)) (hsuspected : ∀ n, r.verdict≠.ok n) :
    (∀ events later, SupportedRun mac g events → reportsFrozen mac later (runEvents mac g events)=true) ∧
      ((∀ events later, reportsFrozen mac later (runEvents mac g events)=true) ↔
        Corroborated f ∨ f.stage2.Alarms ∨ readEpochWitness mac f.witness≠.invalid) := by
  have hsus : Suspects mac f := by
    by_contra hnot
    exact hsuspected _ (run_bootCheck_of_not_suspects mac hnot hboot)
  have hfre : OnlyFreezes mac f g := by
    obtain ⟨r',g',hrun,-,-,hfre⟩ := run_bootCheck_of_suspects mac hsus now
    cases hboot.symm.trans hrun
    exact hfre
  have hsam : (Suspects mac g ↔ Suspects mac f) ∧ (Corroborated g ↔ Corroborated f) ∧
      g.stage2=f.stage2 ∧ g.witness=f.witness := by
    rcases hfre with rfl | ⟨data,rfl⟩ <;> exact ⟨Iff.rfl,Iff.rfl,rfl,rfl⟩
  obtain ⟨hsuf,hcor,hsta,hwit⟩ := hsam
  refine ⟨fun events later heve => ?_,fun hall => ?_,fun hsup events later => ?_⟩
  · exact (reportsFrozen_iff mac later _).mpr
      (.inr (supported_runEvents (.inl (hsuf.mpr hsus)) heve))
  · by_contra hnone
    rw [not_or,not_or,not_not] at hnone
    have hunf := not_reportsFrozen_raise_delete (hwit ▸ hnone.2.2)
      (mt hcor.mp hnone.1) (hsta ▸ hnone.2.1) now now
    rw [hall] at hunf
    cases hunf
  · refine (reportsFrozen_iff mac later _).mpr (.inr ?_)
    rw [suspects_or_alarms_iff]
    refine .inl (Firm.runEvents (Firm.onlyFreezes ?_ hfre) events)
    rw [Firm]
    have hcas := (suspects_iff mac f).mp hsus
    tauto

def restoredFortress : Fortress :=
  ⟨none,none,none,none,false,.present 3,.valid,1,.notApplicable⟩

theorem restored_snapshot_stays_frozen :
    (∀ n, evaluateRollback 1 (observation (fun _ _ => []) restoredFortress)≠.ok n) ∧
      ∀ events later, reportsFrozen (fun _ _ => []) later
        (runEvents (fun _ _ => []) ((bootCheck (fun _ _ => []) "2026-01-01").run restoredFortress).2 events) =
          true :=
  ⟨nofun,(suspected_rollback_stays_frozen (f := restoredFortress)
    (r := ⟨evaluateRollback 1 (observation (fun _ _ => []) restoredFortress),true⟩) rfl nofun).2.mpr
      (.inl (by decide))⟩

/-- A fortress whose witness does not parse. -/
def garbledFortress : Fortress :=
  ⟨some none,none,none,none,false,.absent,.valid,0,.notApplicable⟩

theorem raised_latch_and_deletion_unfreeze :
    ∃ r g, (bootCheck (fun _ _ => []) "2026-01-01").run garbledFortress=(.ok r,g) ∧ r.frozen=true ∧
      (∀ n, r.verdict≠.ok n) ∧
      reportsFrozen (fun _ _ => []) "2026-01-03"
        (runEvents (fun _ _ => []) g [.raiseRevocation 1 "2026-01-02",.deleteMarker])=false := by
  refine ⟨_,_,rfl,rfl,nofun,?_⟩
  exact not_reportsFrozen_raise_delete rfl (by decide) id _ _

variable (mac) {env : AttestEnv}

theorem run_clearIfAuthenticated {unfroze : Bool} {u : Unit}
    (h : (clearIfAuthenticated env unfroze).run f=(.ok u,g)) :
    g=if unfroze then { f with freeze := none } else f := by
  rw [clearIfAuthenticated] at h
  cases unfroze with
  | false =>
    cases h
    rfl
  | true =>
    obtain ⟨-,hcle⟩ := Process.run_require_bind_eq_ok h
    rw [clearFreeze,Process.run_modify_bind,Process.run_require] at hcle
    exact (Effect.require_eq_ok hcle).2

def attestedFortress (currentEpoch : Nat) (epochId now : String) (f : Fortress) : Fortress :=
  let witness := readEpochWitness mac f.witness
  let attested := putWitness mac
    (attestedWitness currentEpoch epochId now (baselineLatchOf witness) (revocationFloorOf witness).1) f
  if (freezeStateOf mac f.freeze).frozen && (freezeStateOf mac f.freeze).data.isSome then
    { attested with freeze := none }
  else attested

variable {currentEpoch : Nat}

theorem run_restoreAttest {epochId : String}
    {r : RestoreAttestResult} (h : (restoreAttest mac env currentEpoch epochId now).run f=(.ok r,g))
    (hsta : f.stage2=.notApplicable) : g=attestedFortress mac currentEpoch epochId now f := by
  obtain ⟨-,hpri⟩ := Process.run_require_bind_eq_ok h
  rw [isRollbackFrozen,Process.run_observe_bind] at hpri
  obtain ⟨-,hrec⟩ := Process.run_require_bind_eq_ok hpri
  obtain ⟨-,hfen⟩ := Process.run_require_bind_eq_ok hrec
  obtain ⟨-,hlat⟩ := Process.run_require_bind_eq_ok hfen
  rw [readBaselineEstablishedLatch,Process.run_observe_bind,readRevocationFloorLatch,
    Process.run_observe_bind] at hlat
  obtain ⟨-,hwri⟩ := Process.run_require_bind_eq_ok hlat
  rw [writeEpochWitness,if_pos rfl,storeWitness,Process.run_modify_bind] at hwri
  obtain ⟨-,hcle⟩ := Process.run_require_bind_eq_ok hwri
  rw [Process.run_bind] at hcle
  obtain ⟨u,s₁,hcld,hreb⟩ := Effect.bind_eq_ok hcle
  have hs₁ := run_clearIfAuthenticated hcld
  obtain ⟨-,hmod⟩ := Process.run_require_bind_eq_ok hreb
  rw [rebaselineStage2FloorBestEffort,Process.run_modify_bind] at hmod
  obtain ⟨-,hret⟩ := Process.run_require_bind_eq_ok hmod
  have hstage₁ : s₁.stage2=.notApplicable := by
    rw [hs₁]
    split_ifs <;> exact hsta
  cases hret
  rw [if_pos hstage₁]
  exact hs₁

/-- The marker is gone unless it was there and did not authenticate. -/
theorem freeze_attestedFortress (currentEpoch : Nat) (epochId now : String) (f : Fortress) :
    (attestedFortress mac currentEpoch epochId now f).freeze.isSome=true ↔
      freezeKind.read mac f.freeze=.invalid := by
  rw [attestedFortress]
  cases hrea : freezeKind.read mac f.freeze with
  | valid data => simp [freezeStateOf,hrea]
  | absent =>
    have hfro := freezeStateOf_frozen mac f.freeze
    simp only [freezeStateOf,hrea] at hfro
    simp [freezeStateOf,hrea,putWitness,← hfro]
  | invalid =>
    have hfro := freezeStateOf_frozen mac f.freeze
    simp only [freezeStateOf,hrea] at hfro
    simp [freezeStateOf,hrea,putWitness,← hfro]

theorem sealedSchema_lt :
    ∀ n, (baselineLatchOf (readEpochWitness mac file)).sealedSchema=some n → n < 2 ^ 53 := by
  intro n hn
  cases hrea : readEpochWitness mac file with
  | valid w =>
    rw [hrea,baselineLatchOf] at hn
    split_ifs at hn
    exact (safe_of_valid hrea).baselineSchema n hn
  | absent =>
    rw [hrea] at hn
    cases hn
  | invalid =>
    rw [hrea] at hn
    cases hn

theorem revocationFloorOf_lt : (revocationFloorOf (readEpochWitness mac file)).1 < 2 ^ 53 := by
  cases hrea : readEpochWitness mac file with
  | valid w =>
    rw [revocationFloorOf]
    cases hflo : w.revocationFloor with
    | none => exact Nat.two_pow_pos 53
    | some n => exact (safe_of_valid hrea).revocationFloor n hflo
  | absent => exact Nat.two_pow_pos 53
  | invalid => exact Nat.two_pow_pos 53

theorem safe_attestedWitness {floor : Nat} {latch : BaselineLatch} (epochId now : String)
    (hepo : currentEpoch < 2 ^ 53) (hsch : ∀ n, latch.sealedSchema=some n → n < 2 ^ 53)
    (hflo : floor < 2 ^ 53) : (attestedWitness currentEpoch epochId now latch floor).Safe where
  epoch := hepo
  baselineSchema := by
    intro n hn
    dsimp only [attestedWitness] at hn
    split_ifs at hn
    exact hsch n hn
  revocationFloor := by
    intro n hn
    dsimp only [attestedWitness] at hn
    split_ifs at hn
    cases hn
    exact hflo

theorem read_attestedFortress (hepo : currentEpoch < 2 ^ 53) (epochId now : String)
    (f : Fortress) :
    ∃ w, readEpochWitness mac (attestedFortress mac currentEpoch epochId now f).witness=.valid w ∧
      w.epoch=currentEpoch := by
  have hsaf := safe_attestedWitness epochId now hepo (sealedSchema_lt mac f.witness)
    (revocationFloorOf_lt mac f.witness)
  refine ⟨attestedWitness currentEpoch epochId now (baselineLatchOf (readEpochWitness mac f.witness))
    (revocationFloorOf (readEpochWitness mac f.witness)).1,?_,rfl⟩
  rw [attestedFortress]
  split_ifs <;> exact read_epochWitnessRecord mac hsaf

theorem corroborated_attestedFortress (currentEpoch : Nat) (epochId now : String) (f : Fortress) :
    Corroborated (attestedFortress mac currentEpoch epochId now f) ↔ Corroborated f := by
  rw [attestedFortress]
  split_ifs <;> exact Iff.rfl

theorem stage2_attestedFortress (currentEpoch : Nat) (epochId now : String) (f : Fortress) :
    (attestedFortress mac currentEpoch epochId now f).stage2=f.stage2 := by
  rw [attestedFortress]
  split_ifs <;> rfl

theorem envelopeEpoch_attestedFortress (currentEpoch : Nat) (epochId now : String) (f : Fortress) :
    (attestedFortress mac currentEpoch epochId now f).envelopeEpoch=f.envelopeEpoch := by
  rw [attestedFortress]
  split_ifs <;> rfl

/-- An attestation unfreezes exactly when the marker was genuine or absent and the rotation record does not go
beyond the envelope. -/
theorem restoreAttest_unfreezes_iff {epochId : String}
    {r : RestoreAttestResult} (hstage : f.stage2=.notApplicable) (hhead : f.headAnchor=.valid)
    (hepoch : f.envelopeEpoch < 2 ^ 53)
    (hrun : (restoreAttest mac env f.envelopeEpoch epochId now).run f=(.ok r,g)) (later : String) :
    reportsFrozen mac later g=false ↔
      freezeKind.read mac f.freeze≠.invalid ∧ f.rotation≠.tampered ∧
        (rotationEpoch f.rotation).1 ≤ f.envelopeEpoch := by
  obtain ⟨w,hrea,hw⟩ := read_attestedFortress mac hepoch epochId now f
  rw [← Bool.not_eq_true,reportsFrozen_iff,suspects_iff,run_restoreAttest mac hrun hstage,
    freeze_attestedFortress,corroborated_attestedFortress,stage2_attestedFortress,hrea,
    envelopeEpoch_attestedFortress,hstage,Corroborated,hhead]
  simp [hw,Stage2Verdict.Alarms]

def steadyEnv : AttestEnv := ⟨fun _ => true,fun _ => true,id⟩

theorem attested_garbled_witness_unfreezes :
    reportsFrozen (fun _ _ => []) "2026-01-02" garbledFortress=true ∧
      ∃ r g, (restoreAttest (fun _ _ => []) steadyEnv 0 "epoch-0" "2026-01-02").run garbledFortress=(.ok r,g) ∧
        reportsFrozen (fun _ _ => []) "2026-01-03" g=false := by
  have hsus : Suspects (fun _ _ => []) garbledFortress := (suspects_iff _ _).mpr (.inr (.inl rfl))
  obtain ⟨r,g,hrun⟩ : ∃ r g, (restoreAttest (fun _ _ => []) steadyEnv 0 "epoch-0" "2026-01-02").run
      garbledFortress=(.ok r,g) := ⟨_,_,rfl⟩
  refine ⟨(reportsFrozen_iff _ _ _).mpr (.inr (.inl hsus)),r,g,hrun,?_⟩
  exact (restoreAttest_unfreezes_iff (fun _ _ => []) (f := garbledFortress) rfl rfl (Nat.two_pow_pos 53) hrun
    "2026-01-03").mpr ⟨nofun,nofun,le_refl 0⟩

/-- A fortress in order, but for a marker that does not parse. -/
def garbledMarker : Fortress := ⟨none,some none,none,none,false,.absent,.valid,0,.notApplicable⟩

theorem attested_garbled_marker_stays_frozen :
    ∃ r g, (restoreAttest (fun _ _ => []) steadyEnv 0 "epoch-0" "2026-01-02").run garbledMarker=(.ok r,g) ∧
      reportsFrozen (fun _ _ => []) "2026-01-03" g=true := by
  refine ⟨_,_,rfl,?_⟩
  exact (reportsFrozen_iff _ _ _).mpr (.inl rfl)

end Evidence

end CastleWall.Custody
