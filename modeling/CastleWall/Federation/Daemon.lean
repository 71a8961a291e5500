import CastleWall.Federation.Events
import CastleWall.Support.Cooperative

/-! # The daemon of a federation

`principal-policy/dashboard.ts`: the calls that change what a federation's daemon holds. Each changes the memory at
once, then waits for an audit entry or for the record to be written, and takes its change back where that fails. -/

namespace CastleWall.Federation

open Mesh Cooperative

structure Daemon where
  guardian : GuardianHost
  (breakGlassTickInFlight enabled : Bool)
  enabledGeneration : Nat
  acceptedHighWater : OrderedMap String Nat
  outboundHighWater : Nat
  state : FederationDashboardState
  (roster revokedRoots : Finset String)
  highestRevocationSerial : Nat

inductive DaemonRequest where
  | setRequirement (next : Option GuardianRevocationRequirement) (auth : Option GuardianDisableAuthorization)
      (loweredThreshold : Option LoweredThresholdAuthorization)
  | initiate (intent : DisableIntent) (targetM : Option Int) (delayMs now : Int)
  | veto (approval : Option GuardianApproval)
  | cancel
  | tick
  | setEnabled (enabled : Bool)
  | recordJoin (nodeId nodeMode : String)
  | append (events : List FederationEvent) (senderNodeId : Option String) (wireVersionSupported : Bool)
  | recordAcceptedHighWater (senderNodeId : String) (highWater : Nat) (nodeMode : Option String)
  | nextOutboundHighWater

inductive DaemonCall where
  /-- An audit entry of a refusal or a failure is written, then the call throws. -/
  | throws (byTick : Bool)
  | auditTransition (prior : GuardianHost) (t : GuardianRequirementTransition) (effect : GuardianRequirementEffect)
  | markEstablished (prior : GuardianHost) (t : GuardianRequirementTransition) (effect : GuardianRequirementEffect)
  | persistTransition (prior : GuardianHost) (t : GuardianRequirementTransition) (effect : GuardianRequirementEffect)
  | auditInitiate (prior : GuardianHost)
  | persistInitiate (prior : GuardianHost)
  | auditTerminate (prior : GuardianHost)
  | persistTerminate (prior : GuardianHost)
  | auditTick (armed : BreakGlassState)
  | persistEnabled (priorEnabled : Bool) (priorGeneration : Nat)
  | persistJoin (nodeId : String) (rosterHadNode : Bool) (prior : FederationDashboardState)
  | persistAppend
  | persistHighWater (senderNodeId : String) (prior highWater : Nat)
  | persistOutbound (next : Nat)

inductive DaemonAnswer where
  | refused
  | failed
  | ticked
  | transitioned
  | initiated
  | terminated
  | enabled
  | joined
  | appended
  | recorded (senderNodeId : String) (highWater : Nat)
  | reserved (next : Nat)
deriving DecidableEq

inductive DaemonMark where
  /-- The guardian fields were changed. -/
  | guardian
  /-- The memory was handed over to be written. -/
  | handed
  /-- The set of revoked nodes was changed. -/
  | revoked
  | recorded (senderNodeId : String)

structure DaemonBoot where
  /-- The record cannot be read, or is not what the witnesses beside it say. -/
  latches : Bool

abbrev DaemonTurn := Turn Daemon DaemonCall DaemonMark DaemonAnswer

namespace Daemon

variable (env : FederationEnv) (daemon : Daemon)

def returns (answer : DaemonAnswer) : DaemonTurn := ⟨daemon,.returns answer,[]⟩

def available : Daemon := { daemon with guardian := { daemon.guardian with syncStateUnavailable := false } }

def snapshotFederationSyncState : FederationSyncStateSnapshot where
  federationEnabled := daemon.enabled
  federationEnabledGeneration := daemon.enabledGeneration
  acceptedHighWater := daemon.acceptedHighWater
  outboundHighWater := daemon.outboundHighWater
  revokedNodeIds := daemon.state.revoked
  highestEvictionSerial := daemon.state.evictionMaxSerial
  revokedRootPubkeys := daemon.revokedRoots
  highestRevocationSerial := daemon.highestRevocationSerial
  operatorPolicy := daemon.state.operatorPolicy
  appliedPolicyVersions := daemon.state.appliedPolicyVersions
  nodes := daemon.state.nodes
  guardianRevocationRequirement := daemon.guardian.requirement
  guardianRevocationRequirementGeneration := daemon.guardian.requirementGeneration
  guardianDisableNonce := daemon.guardian.disableNonce
  guardianLoweredHighWater := daemon.guardian.loweredHighWater
  guardianBreakGlass := daemon.guardian.breakGlass

variable (prior : GuardianHost)

def restoreAll : Daemon :=
  { daemon with
    guardian := { prior with
      context := daemon.guardian.context, syncStateUnavailable := daemon.guardian.syncStateUnavailable } }

def restoreBreakGlass : Daemon :=
  { daemon with
    guardian := { daemon.guardian with
      requirementGeneration := prior.requirementGeneration
      breakGlass := prior.breakGlass
      disableNonce := prior.disableNonce } }

def tickEnded (ended : Bool) : Daemon :=
  { daemon with breakGlassTickInFlight := daemon.breakGlassTickInFlight && !ended }

def auditedRefusal : GuardianRequirementRefusal → Bool
  | .guardianDisableAuthorizationRequired => true
  | .federationSyncStateUnavailable => true
  | .loweredThresholdInvalid => true
  | _ => false

def commitGuardianRequirementTransition (t : GuardianRequirementTransition) : DaemonTurn :=
  match daemon.guardian.state.authorizeGuardianRequirementTransition env.mesh t with
  | .error refusal =>
    if auditedRefusal refusal then ⟨daemon,.waits (.throws (GuardianHost.completes t)),[]⟩
    else ⟨daemon.tickEnded (GuardianHost.completes t),.returns .refused,[]⟩
  | .ok effect =>
    ⟨{ daemon with guardian := daemon.guardian.applyEffect effect (GuardianHost.completes t) },
      .waits (.auditTransition daemon.guardian t effect),[.guardian]⟩

def rollBackTransition (t : GuardianRequirementTransition) : DaemonTurn :=
  ⟨daemon.restoreAll prior,.waits (.throws (GuardianHost.completes t)),[.guardian]⟩

/-- The sentinel is written before the record, and only for a requirement. -/
def transitionAudited (t : GuardianRequirementTransition) (effect : GuardianRequirementEffect) :
    DaemonTurn :=
  if effect.requirement.isSome then ⟨daemon,.waits (.markEstablished prior t effect),[]⟩
  else ⟨daemon,.writes (.persistTransition prior t effect),[.handed]⟩

def initiateFederationGuardianBreakGlass (intent : DisableIntent) (targetM : Option Int) (delayMs now : Int) :
    DaemonTurn :=
  if intent≠.disable then daemon.returns .refused
  else if daemon.guardian.syncStateUnavailable || daemon.guardian.requirementInvalid then daemon.returns .refused
  else if daemon.guardian.requirement.isNone then daemon.returns .refused
  else if daemon.guardian.breakGlass.isSome then daemon.returns .refused
  else
    ⟨{ daemon with
        guardian := daemon.guardian.initiateFederationGuardianBreakGlass intent targetM delayMs now true },
      .waits (.auditInitiate daemon.guardian),[.guardian]⟩

def terminateFederationGuardianBreakGlass (armed : BreakGlassState) : DaemonTurn :=
  ⟨{ daemon with guardian := daemon.guardian.terminateFederationGuardianBreakGlass armed true },
    .waits (.auditTerminate daemon.guardian),[.guardian]⟩

def vetoFederationGuardianBreakGlass (approval : Option GuardianApproval) : DaemonTurn :=
  match daemon.guardian.breakGlass, daemon.guardian.requirement with
  | some armed, some current =>
    match evaluateGuardianBreakGlassVeto env.mesh current current.roster.fortressId armed.nonce approval with
    | .error _ => ⟨daemon,.waits (.throws false),[]⟩
    | .ok _ => daemon.terminateFederationGuardianBreakGlass armed
  | _, _ => daemon.returns .refused

def cancelFederationGuardianBreakGlass : DaemonTurn :=
  match daemon.guardian.breakGlass with
  | none => daemon.returns .refused
  | some armed => daemon.terminateFederationGuardianBreakGlass armed

def tickFederationGuardianBreakGlass : DaemonTurn :=
  if daemon.breakGlassTickInFlight then daemon.returns .ticked
  else
    match daemon.guardian.breakGlass with
    | none => daemon.returns .ticked
    | some armed => ⟨{ daemon with breakGlassTickInFlight := true },.waits (.auditTick armed),[]⟩

/-- The countdown that was read before the entry is the one whose time is checked; the one that is armed is completed. -/
def tickAudited (armed : BreakGlassState) (now : Int) : DaemonTurn :=
  if breakGlassElapsed armed now=false then (daemon.tickEnded true).returns .ticked
  else if daemon.guardian.syncStateUnavailable || daemon.guardian.requirementInvalid then
    (daemon.tickEnded true).returns .ticked
  else
    match daemon.guardian.breakGlass with
    | none => (daemon.tickEnded true).returns .ticked
    | some current =>
      if current.intent≠.disable then (daemon.tickEnded true).returns .ticked
      else daemon.commitGuardianRequirementTransition env (.breakGlassComplete current.targetM)

def setEnabled (enabled : Bool) : DaemonTurn :=
  ⟨{ daemon with enabled, enabledGeneration := daemon.enabledGeneration+1 },
    .writes (.persistEnabled daemon.enabled daemon.enabledGeneration),[.handed]⟩

def recordJoin (nodeId nodeMode : String) : DaemonTurn :=
  ⟨{ daemon with
      roster := insert nodeId daemon.roster
      state := (daemon.state.upsertFederationNode nodeId ⟨some .verified,some nodeMode,none,none⟩).appendLocalFederationEvent
        env "node.joined" },
    .writes (.persistJoin nodeId (nodeId∈daemon.roster) daemon.state),[.handed]⟩

def rollBackJoin (nodeId : String) (rosterHadNode : Bool) (prior : FederationDashboardState) : Daemon :=
  { daemon with state := prior, roster := if rosterHadNode then daemon.roster else daemon.roster.erase nodeId }

def policyVersion (state : FederationDashboardState) : Nat := (state.operatorPolicy.map (·.version)).getD 0

def revokedMark (before after : FederationDashboardState) : List DaemonMark :=
  if after.revoked=before.revoked then [] else [.revoked]

/-- A batch that advances nothing durable is not written. -/
def appendFederationEvents (events : List FederationEvent) (senderNodeId : Option String)
    (wireVersionSupported : Bool) : DaemonTurn :=
  if daemon.guardian.syncStateUnavailable then daemon.returns .refused
  else
    let next := (daemon.state.appendFederationEvents env events senderNodeId wireVersionSupported).nextState
    let marks := revokedMark daemon.state next
    if daemon.state.evictionMaxSerial < next.evictionMaxSerial ∨ policyVersion daemon.state < policyVersion next ∨
        daemon.state.nodes.entries.length < next.nodes.entries.length then
      ⟨{ daemon with state := next },.writes .persistAppend,.handed::marks⟩
    else ⟨{ daemon with state := next },.returns .appended,marks⟩

def acceptedHighWaterFor (senderNodeId : String) : Option Nat := daemon.acceptedHighWater.get senderNodeId

/-- A high water that does not advance is accepted as it is. -/
def recordAcceptedHighWater (senderNodeId : String) (highWater : Nat) (nodeMode : Option String) : DaemonTurn :=
  if daemon.guardian.syncStateUnavailable then daemon.returns .failed
  else
    let prior := (daemon.acceptedHighWater.get senderNodeId).getD 0
    let state := daemon.state.upsertFederationNode senderNodeId ⟨some .verified,nodeMode,none,none⟩
    if prior < highWater then
      ⟨{ daemon with state, acceptedHighWater := daemon.acceptedHighWater.set senderNodeId highWater },
        .writes (.persistHighWater senderNodeId prior highWater),[.handed,.recorded senderNodeId]⟩
    else ⟨{ daemon with state },.returns (.recorded senderNodeId highWater),[.recorded senderNodeId]⟩

def nextOutboundHighWater : DaemonTurn :=
  if daemon.guardian.syncStateUnavailable then daemon.returns .failed
  else
    ⟨{ daemon with outboundHighWater := daemon.outboundHighWater+1 },
      .writes (.persistOutbound (daemon.outboundHighWater+1)),[.handed]⟩

/-- Undone only where no later reservation was made. -/
def rollBackOutbound (next : Nat) : Daemon :=
  if daemon.outboundHighWater=next then { daemon with outboundHighWater := next - 1 } else daemon

/-- `projectAppliedPoliciesOntoRoster`. -/
def projectAppliedPolicies (nodes : OrderedMap String FederationNodeView)
    (appliedPolicyVersions : OrderedMap String FederationAppliedPolicyVersion) :
    OrderedMap String FederationNodeView :=
  appliedPolicyVersions.entries.foldl (fun nodes entry =>
    if (nodes.get entry.1).isSome then upsertNode nodes entry.1 ⟨none,none,none,some entry.2⟩ else nodes) nodes

def fresh (syncStateUnavailable : Bool) : Daemon where
  guardian := ⟨env.context,syncStateUnavailable,none,false,0,0,0,none⟩
  breakGlassTickInFlight := false
  enabled := false
  enabledGeneration := 0
  acceptedHighWater := .empty
  outboundHighWater := 0
  state := ⟨[],∅,0,none,.empty,.empty⟩
  roster := ∅
  revokedRoots := env.revokedRootPubkeys
  highestRevocationSerial := env.highestRevocationSerial

def rehydrates (persisted : GuardianRevocationRequirement) (loweredHighWater : Int) : Bool :=
  match env.context with
  | none => false
  | some context =>
    (verifyGuardianRoster env.mesh persisted.roster context.pinnedMaster).isOk &&
      match persisted.loweredThreshold with
      | none => true
      | some lowered =>
        verifyLoweredThresholdAuthorization env.mesh lowered context.fortressId persisted.roster.version
          persisted.roster.m context.pinnedMaster && decide (loweredHighWater < lowered.body.disableNonce)

/-- `rehydrateGuardianRevocationRequirement`: the requirement and its latch. -/
def rehydrateGuardianRevocationRequirement (persisted : Option GuardianRevocationRequirement)
    (loweredHighWater : Int) : Option GuardianRevocationRequirement × Bool :=
  match persisted with
  | none => (none,false)
  | some persisted => if rehydrates env persisted loweredHighWater then (some persisted,false) else (none,true)

def nonceFloor (snapshot : FederationSyncStateSnapshot) : Int :=
  max (max 0 snapshot.guardianDisableNonce)
    ((snapshot.guardianRevocationRequirement.bind (·.loweredNonce)).getD 0)

def hydrateFederationSyncState (boot : DaemonBoot) (snapshot : FederationSyncStateSnapshot) : Daemon :=
  if boot.latches then fresh env true
  else
    let loweredHighWater := max 0 snapshot.guardianLoweredHighWater
    let rehydrated := rehydrateGuardianRevocationRequirement env snapshot.guardianRevocationRequirement loweredHighWater
    { fresh env false with
      guardian :=
        { context := env.context
          syncStateUnavailable := false
          requirement := rehydrated.1
          requirementInvalid := rehydrated.2
          requirementGeneration := snapshot.guardianRevocationRequirementGeneration
          disableNonce := nonceFloor snapshot
          loweredHighWater
          breakGlass := snapshot.guardianBreakGlass }
      enabled := snapshot.federationEnabled
      enabledGeneration := snapshot.federationEnabledGeneration
      acceptedHighWater := snapshot.acceptedHighWater
      outboundHighWater := snapshot.outboundHighWater
      state :=
        { eventLog := []
          revoked := snapshot.revokedNodeIds
          evictionMaxSerial := snapshot.highestEvictionSerial
          operatorPolicy := snapshot.operatorPolicy
          appliedPolicyVersions := snapshot.appliedPolicyVersions
          nodes := projectAppliedPolicies snapshot.nodes snapshot.appliedPolicyVersions }
      revokedRoots := env.revokedRootPubkeys ∪ snapshot.revokedRootPubkeys
      highestRevocationSerial := max env.highestRevocationSerial snapshot.highestRevocationSerial }

def begin : DaemonRequest → DaemonTurn
  | .setRequirement next auth loweredThreshold =>
    daemon.commitGuardianRequirementTransition env (.operatorSet next auth loweredThreshold)
  | .initiate intent targetM delayMs now => daemon.initiateFederationGuardianBreakGlass intent targetM delayMs now
  | .veto approval => daemon.vetoFederationGuardianBreakGlass env approval
  | .cancel => daemon.cancelFederationGuardianBreakGlass
  | .tick => daemon.tickFederationGuardianBreakGlass
  | .setEnabled enabled => daemon.setEnabled enabled
  | .recordJoin nodeId nodeMode => daemon.recordJoin env nodeId nodeMode
  | .append events senderNodeId wireVersionSupported =>
    daemon.appendFederationEvents env events senderNodeId wireVersionSupported
  | .recordAcceptedHighWater senderNodeId highWater nodeMode =>
    daemon.recordAcceptedHighWater senderNodeId highWater nodeMode
  | .nextOutboundHighWater => daemon.nextOutboundHighWater

/-- The audit entry before an initiation, a veto or a cancellation is persisted is outside of what is rolled back. -/
def resume (reply : Reply) : DaemonCall → DaemonTurn
  | .throws byTick => (daemon.tickEnded byTick).returns .failed
  | .auditTransition prior t effect =>
    if reply.ok then daemon.transitionAudited prior t effect else daemon.rollBackTransition prior t
  | .markEstablished prior t effect =>
    if reply.ok then ⟨daemon,.writes (.persistTransition prior t effect),[.handed]⟩
    else daemon.rollBackTransition prior t
  | .persistTransition prior t _ =>
    if reply.ok then (daemon.available.tickEnded (GuardianHost.completes t)).returns .transitioned
    else daemon.rollBackTransition prior t
  | .auditInitiate prior =>
    if reply.ok then ⟨daemon,.writes (.persistInitiate prior),[.handed]⟩ else daemon.returns .failed
  | .persistInitiate prior =>
    if reply.ok then daemon.available.returns .initiated
    else ⟨daemon.restoreBreakGlass prior,.waits (.throws false),[.guardian]⟩
  | .auditTerminate prior =>
    if reply.ok then ⟨daemon,.writes (.persistTerminate prior),[.handed]⟩ else daemon.returns .failed
  | .persistTerminate prior =>
    if reply.ok then daemon.available.returns .terminated
    else ⟨daemon.restoreBreakGlass prior,.waits (.throws false),[.guardian]⟩
  | .auditTick armed =>
    if reply.ok then daemon.tickAudited env armed reply.now else (daemon.tickEnded true).returns .ticked
  | .persistEnabled priorEnabled priorGeneration =>
    if reply.ok then daemon.available.returns .enabled
    else Daemon.returns { daemon with enabled := priorEnabled, enabledGeneration := priorGeneration } .failed
  | .persistJoin nodeId rosterHadNode prior =>
    if reply.ok then daemon.available.returns .joined
    else (daemon.rollBackJoin nodeId rosterHadNode prior).returns .failed
  | .persistAppend => if reply.ok then daemon.available.returns .appended else daemon.returns .failed
  | .persistHighWater senderNodeId prior highWater =>
    if reply.ok then daemon.available.returns (.recorded senderNodeId highWater)
    else Daemon.returns { daemon with acceptedHighWater := daemon.acceptedHighWater.set senderNodeId prior } .failed
  | .persistOutbound next =>
    if reply.ok then daemon.available.returns (.reserved next) else (daemon.rollBackOutbound next).returns .failed

end Daemon

abbrev DaemonHost :=
  Host DaemonRequest DaemonBoot Daemon FederationSyncStateSnapshot DaemonCall DaemonMark DaemonAnswer

abbrev DaemonWorld := World Daemon FederationSyncStateSnapshot DaemonCall DaemonMark DaemonAnswer

abbrev DaemonEvent := Event DaemonRequest DaemonBoot

def daemonHost (env : FederationEnv) : DaemonHost where
  begin := fun request daemon => daemon.begin env request
  resume := fun call reply daemon => daemon.resume env reply call
  snapshot := Daemon.snapshotFederationSyncState
  merge := mergeSyncStateMonotonic
  boot := Daemon.hydrateFederationSyncState env

end CastleWall.Federation
