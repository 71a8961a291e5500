import CastleWall.Federation.GuardianHost

/-! # The durable sync state of a federation

`v1/federation-sync-state-store.ts`: one record holds what a daemon must not forget, and every write of it is folded
over what the record holds already, so that no revocation and no floor is lost. -/

namespace CastleWall.Federation

open Mesh

structure FederationAppliedPolicyVersion where
  version : Nat
  (hash sourceEventId : String)

inductive AttestationStatus where
  | verified
  | pending
  | failed
  | unknown

structure FederationNodeView where
  attestationStatus : AttestationStatus
  nodeMode : String
  lastSequence : Nat
  appliedPolicy : Option FederationAppliedPolicyVersion

structure FederationSyncStateSnapshot where
  federationEnabled : Bool
  federationEnabledGeneration : Nat
  acceptedHighWater : OrderedMap String Nat
  outboundHighWater : Nat
  revokedNodeIds : Finset String
  highestEvictionSerial : Nat
  revokedRootPubkeys : Finset String
  highestRevocationSerial : Nat
  operatorPolicy : Option FederationAppliedPolicyVersion
  appliedPolicyVersions : OrderedMap String FederationAppliedPolicyVersion
  nodes : OrderedMap String FederationNodeView
  guardianRevocationRequirement : Option GuardianRevocationRequirement
  guardianRevocationRequirementGeneration : Nat
  (guardianDisableNonce guardianLoweredHighWater : Int)
  guardianBreakGlass : Option BreakGlassState

def emptyFederationSyncState : FederationSyncStateSnapshot where
  federationEnabled := false
  federationEnabledGeneration := 0
  acceptedHighWater := .empty
  outboundHighWater := 0
  revokedNodeIds := ∅
  highestEvictionSerial := 0
  revokedRootPubkeys := ∅
  highestRevocationSerial := 0
  operatorPolicy := none
  appliedPolicyVersions := .empty
  nodes := .empty
  guardianRevocationRequirement := none
  guardianRevocationRequirementGeneration := 0
  guardianDisableNonce := 0
  guardianLoweredHighWater := 0
  guardianBreakGlass := none

/-- A floor never goes down; a sender without one has none. -/
def higherWater (prior : Option Nat) (highWater : Nat) : Nat := max (prior.getD 0) highWater

def newerMarker (prior : Option FederationAppliedPolicyVersion) (marker : FederationAppliedPolicyVersion) :
    FederationAppliedPolicyVersion :=
  match prior with
  | none => marker
  | some prior => if prior.version < marker.version then marker else prior

/-- `newerPolicy`, and `newerAppliedPolicy` of the daemon. -/
def newerPolicy (base next : Option FederationAppliedPolicyVersion) : Option FederationAppliedPolicyVersion :=
  match next with
  | none => base
  | some next => some (newerMarker base next)

def fresherNode (prior : Option FederationNodeView) (next : FederationNodeView) : FederationNodeView :=
  match prior with
  | none => next
  | some prior => if prior.lastSequence ≤ next.lastSequence then next else prior

/-- `selectGuardianRevocationRequirementByGeneration`: what is at rest wins a tie. -/
def guardianWinner (base next : FederationSyncStateSnapshot) : FederationSyncStateSnapshot :=
  if base.guardianRevocationRequirementGeneration < next.guardianRevocationRequirementGeneration then next else base

/-- `selectFederationEnabledByGeneration`. -/
def enabledWinner (base next : FederationSyncStateSnapshot) : FederationSyncStateSnapshot :=
  if base.federationEnabledGeneration < next.federationEnabledGeneration then next else base

def mergeSyncStateMonotonic (base next : FederationSyncStateSnapshot) : FederationSyncStateSnapshot where
  federationEnabled := (enabledWinner base next).federationEnabled
  federationEnabledGeneration := max base.federationEnabledGeneration next.federationEnabledGeneration
  acceptedHighWater := base.acceptedHighWater.mergeOver higherWater next.acceptedHighWater
  outboundHighWater := max base.outboundHighWater next.outboundHighWater
  revokedNodeIds := base.revokedNodeIds ∪ next.revokedNodeIds
  highestEvictionSerial := max base.highestEvictionSerial next.highestEvictionSerial
  revokedRootPubkeys := base.revokedRootPubkeys ∪ next.revokedRootPubkeys
  highestRevocationSerial := max base.highestRevocationSerial next.highestRevocationSerial
  operatorPolicy := newerPolicy base.operatorPolicy next.operatorPolicy
  appliedPolicyVersions := base.appliedPolicyVersions.mergeOver newerMarker next.appliedPolicyVersions
  nodes := base.nodes.mergeOver fresherNode next.nodes
  guardianRevocationRequirement := (guardianWinner base next).guardianRevocationRequirement
  guardianRevocationRequirementGeneration :=
    max base.guardianRevocationRequirementGeneration next.guardianRevocationRequirementGeneration
  guardianDisableNonce := max base.guardianDisableNonce next.guardianDisableNonce
  guardianLoweredHighWater := max base.guardianLoweredHighWater next.guardianLoweredHighWater
  guardianBreakGlass := (guardianWinner base next).guardianBreakGlass

end CastleWall.Federation
