import CastleWall.Federation.GuardianGate

/-! # The host of a guardian requirement

`principal-policy/dashboard.ts`: the fields of the requirement, the one writer of them, and the countdown that disables
a requirement no guardian and no master key is there to disable. -/

namespace CastleWall.Federation

open Mesh

/-- What a federation is provisioned with: the master that is pinned is the fortress's own. -/
structure FederationContext where
  pinnedMaster : FortressMasterPublicKey
  fortressId : String
  sameFortress : pinnedMaster.fortressId=fortressId

structure BreakGlassState where
  nonce : Int
  intent : DisableIntent
  targetM : Option Int
  (initiatedAt completesAt delayMs : Int)

def minBreakGlassDelayMs : Int := 24 * 60 * 60 * 1000

def breakGlassElapsed (state : BreakGlassState) (now : Int) : Bool := decide (state.completesAt ≤ now)

structure GuardianHost where
  context : Option FederationContext
  syncStateUnavailable : Bool
  requirement : Option GuardianRevocationRequirement
  /-- The latch. -/
  requirementInvalid : Bool
  requirementGeneration : Nat
  (disableNonce loweredHighWater : Int)
  breakGlass : Option BreakGlassState

namespace GuardianHost

variable (env : MeshEnv) (host : GuardianHost)

def state : GuardianRequirementState where
  requirement := host.requirement
  latchInvalid := host.requirementInvalid
  pinnedMaster := host.context.map (·.pinnedMaster)
  fortressId := host.context.map (·.fortressId)
  syncStateUnavailable := host.syncStateUnavailable
  nextDisableNonce := host.disableNonce+1
  guardianLoweredHighWater := host.loweredHighWater

def raisedTo (current : Int) : Option Int → Int
  | none => current
  | some n => max current n

def applyEffect (effect : GuardianRequirementEffect) (completes : Bool) : GuardianHost where
  context := host.context
  syncStateUnavailable := host.syncStateUnavailable
  requirement := effect.requirement
  requirementInvalid := if effect.clearsLatch || effect.masterAuthorizedNull then false else host.requirementInvalid
  requirementGeneration := host.requirementGeneration+1
  disableNonce := raisedTo host.disableNonce effect.burnedNonce
  loweredHighWater := raisedTo host.loweredHighWater effect.supersedesLoweredNonce
  breakGlass := if completes then none else host.breakGlass

def completes : GuardianRequirementTransition → Bool
  | .breakGlassComplete _ => true
  | .operatorSet _ _ _ => false

def commitGuardianRequirementTransition (t : GuardianRequirementTransition) (persisted : Bool) : GuardianHost :=
  match host.state.authorizeGuardianRequirementTransition env t with
  | .error _ => host
  | .ok effect => if persisted then host.applyEffect effect (completes t) else host

/-- Only a disable, only of a requirement that is in force, one at a time. -/
def initiateFederationGuardianBreakGlass (intent : DisableIntent) (targetM : Option Int) (delayMs now : Int)
    (persisted : Bool) : GuardianHost :=
  if intent≠.disable then host
  else if host.syncStateUnavailable || host.requirementInvalid then host
  else if host.requirement.isNone then host
  else if host.breakGlass.isSome then host
  else if persisted then
    { host with
      requirementGeneration := host.requirementGeneration+1
      breakGlass := some
        { nonce := host.disableNonce+1, intent, targetM, initiatedAt := now
          completesAt := now+max delayMs minBreakGlassDelayMs, delayMs := max delayMs minBreakGlassDelayMs }
      disableNonce := host.disableNonce+1 }
  else host

def terminateFederationGuardianBreakGlass (armed : BreakGlassState) (persisted : Bool) : GuardianHost :=
  if persisted then
    { host with
      requirementGeneration := host.requirementGeneration+1
      breakGlass := none
      disableNonce := max host.disableNonce armed.nonce }
  else host

def vetoFederationGuardianBreakGlass (approval : Option GuardianApproval) (persisted : Bool) : GuardianHost :=
  match host.breakGlass, host.requirement with
  | some armed, some current =>
    match evaluateGuardianBreakGlassVeto env current current.roster.fortressId armed.nonce approval with
    | .error _ => host
    | .ok _ => host.terminateFederationGuardianBreakGlass armed persisted
  | _, _ => host

def cancelFederationGuardianBreakGlass (persisted : Bool) : GuardianHost :=
  match host.breakGlass with
  | none => host
  | some armed => host.terminateFederationGuardianBreakGlass armed persisted

def tickFederationGuardianBreakGlass (now : Int) (persisted : Bool) : GuardianHost :=
  match host.breakGlass with
  | none => host
  | some armed =>
    if breakGlassElapsed armed now=false then host
    else if host.syncStateUnavailable || host.requirementInvalid then host
    else if armed.intent≠.disable then host
    else host.commitGuardianRequirementTransition env (.breakGlassComplete armed.targetM) persisted

end GuardianHost

inductive GuardianInput where
  | operatorSet (next : Option GuardianRevocationRequirement) (auth : Option GuardianDisableAuthorization)
      (loweredThreshold : Option LoweredThresholdAuthorization) (persisted : Bool)
  | initiate (intent : DisableIntent) (targetM : Option Int) (delayMs now : Int) (persisted : Bool)
  | veto (approval : Option GuardianApproval) (persisted : Bool)
  | cancel (persisted : Bool)
  | tick (now : Int) (persisted : Bool)

def GuardianHost.step (env : MeshEnv) (host : GuardianHost) : GuardianInput → GuardianHost
  | .operatorSet next auth loweredThreshold persisted =>
    host.commitGuardianRequirementTransition env (.operatorSet next auth loweredThreshold) persisted
  | .initiate intent targetM delayMs now persisted =>
    host.initiateFederationGuardianBreakGlass intent targetM delayMs now persisted
  | .veto approval persisted => host.vetoFederationGuardianBreakGlass env approval persisted
  | .cancel persisted => host.cancelFederationGuardianBreakGlass persisted
  | .tick now persisted => host.tickFederationGuardianBreakGlass env now persisted

def GuardianHost.lowered (host : GuardianHost) : Option LoweredThresholdAuthorizationBody :=
  (host.requirement.bind (·.loweredThreshold)).map (·.body)

end CastleWall.Federation
