import CastleWall.Federation.Threshold

/-! # The guardian requirement and its gate

`v1/federation-revocation-guardian-gate.ts` and `v1/federation-guardian-disable-gate.ts`: a requirement pins a roster
of guardians whose quorum a kill needs, and one function decides every change of the requirement. Strengthening it is
the operator's own; weakening it takes the master key, a quorum of the guardians in force, or a countdown. -/

namespace CastleWall.Federation

open Mesh Custody Cognitive.StateStore
open Outcome (require)

def loweredThresholdAuthorizationDomain : String := "sanctuary.federation.guardian-requirement.lowered-threshold.v1"

structure LoweredThresholdAuthorizationBody where
  (domain fortressId : String)
  (rosterVersion effectiveM disableNonce : Int)
deriving DecidableEq

/-- The master signs a threshold below the roster's own; the roster is not touched. -/
structure LoweredThresholdAuthorization where
  body : LoweredThresholdAuthorizationBody
  signature : String
deriving DecidableEq

structure GuardianRevocationRequirement where
  roster : GuardianRoster
  expectedRosterVersion : Option Int
  loweredThreshold : Option LoweredThresholdAuthorization
deriving DecidableEq

namespace GuardianRevocationRequirement

variable (requirement : GuardianRevocationRequirement)

def effectiveThresholdM : Int :=
  match requirement.loweredThreshold with
  | some lowered => lowered.body.effectiveM
  | none => requirement.roster.m

def expectedVersion : Int := requirement.expectedRosterVersion.getD requirement.roster.version

def loweredNonce : Option Int := requirement.loweredThreshold.map (·.body.disableNonce)

end GuardianRevocationRequirement

def guardianSignOffAction : String := "federation_node_eviction"

def guardianDisableSignOffAction : String := "federation_guardian_requirement_disable"

def guardianBreakGlassVetoAction : String := "federation_guardian_break_glass_veto"

inductive DisableIntent where
  | disable
  | lower
deriving DecidableEq

def DisableIntent.text : DisableIntent → String
  | .disable => "disable"
  | .lower => "lower"

def numberText (n : Int) : String := String.ofList (Json.write (.num n))

def targetText : Option Int → String
  | some m => numberText m
  | none => "off"

def revocationCascadeId (fortressId nodeId : String) : String := "federation-node-eviction:" ++ fortressId ++ ":" ++ nodeId

def disableCascadeId (fortressId : String) (disableNonce : Int) (intent : DisableIntent) (targetM : Option Int) : String :=
  "federation-guardian-requirement-disable:" ++ fortressId ++ ":" ++ numberText disableNonce ++ ":" ++ intent.text ++
    ":" ++ targetText targetM

def breakGlassVetoCascadeId (fortressId : String) (disableNonce : Int) : String :=
  "federation-guardian-break-glass-veto:" ++ fortressId ++ ":" ++ numberText disableNonce

inductive GateDenial where
  | guardianApprovalsRequired
  | guardianThresholdNotMet
  | guardianRosterStale
  | guardianSignoffInvalid

def classifyGateError : ThresholdRefusal → GateDenial
  | .thresholdNotMet => .guardianThresholdNotMet
  | .rosterStale => .guardianRosterStale
  | .invalid => .guardianSignoffInvalid

section Gates

variable (env : MeshEnv)

def evaluateSignOff (requirement : GuardianRevocationRequirement) (input : ApprovalSigningInput)
    (approvals : Option (List GuardianApproval)) : Except GateDenial (List String) :=
  match approvals with
  | none => .error .guardianApprovalsRequired
  | some [] => .error .guardianApprovalsRequired
  | some approvals =>
    match enforceThreshold env requirement.roster input approvals (some requirement.expectedVersion)
        (some requirement.effectiveThresholdM) with
    | .ok result => .ok result.validGuardianIds
    | .error refusal => .error (classifyGateError refusal)

def revocationSigningInput (requirement : GuardianRevocationRequirement) (fortressId nodeId : String) :
    ApprovalSigningInput :=
  ⟨revocationCascadeId fortressId nodeId,guardianSignOffAction,fortressId,requirement.expectedVersion⟩

def evaluateGuardianRevocationSignOff (requirement : GuardianRevocationRequirement) (fortressId nodeId : String)
    (approvals : Option (List GuardianApproval)) : Except GateDenial (List String) :=
  evaluateSignOff env requirement (revocationSigningInput requirement fortressId nodeId) approvals

def disableSigningInput (requirement : GuardianRevocationRequirement) (fortressId : String) (disableNonce : Int)
    (intent : DisableIntent) (targetM : Option Int) : ApprovalSigningInput :=
  ⟨disableCascadeId fortressId disableNonce intent targetM,guardianDisableSignOffAction,fortressId,
    requirement.expectedVersion⟩

def evaluateGuardianDisableSignOff (requirement : GuardianRevocationRequirement) (fortressId : String)
    (disableNonce : Int) (intent : DisableIntent) (targetM : Option Int) (approvals : Option (List GuardianApproval)) :
    Except GateDenial (List String) :=
  evaluateSignOff env requirement (disableSigningInput requirement fortressId disableNonce intent targetM) approvals

def evaluateGuardianBreakGlassVeto (requirement : GuardianRevocationRequirement) (fortressId : String)
    (disableNonce : Int) (approval : Option GuardianApproval) : Except GateDenial String :=
  match approval with
  | none => .error .guardianApprovalsRequired
  | some approval =>
    let input : ApprovalSigningInput := ⟨breakGlassVetoCascadeId fortressId disableNonce,guardianBreakGlassVetoAction,
      fortressId,requirement.expectedVersion⟩
    match enforceThreshold env { requirement.roster with m := 1 } input [approval] (some requirement.expectedVersion)
        none with
    | .error refusal => .error (classifyGateError refusal)
    | .ok result =>
      match result.validGuardianIds.head? with
      | some guardianId => .ok guardianId
      | none => .error .guardianSignoffInvalid

def masterDisableAuthorizationDomain : String := "sanctuary.federation.guardian-requirement.master-authorization.v1"

structure MasterDisableAuthorizationBody where
  (domain fortressId : String)
  disableNonce : Int
  intent : DisableIntent
  targetM : Option Int

structure MasterDisableAuthorization where
  body : MasterDisableAuthorizationBody
  signature : String

def nullableNumber : Option Int → Json
  | some n => .num n
  | none => .null

/-- `buildMasterDisableAuthorizationBody`. -/
def masterDisableAuthorizationValue (fortressId : String) (disableNonce : Int) (intent : DisableIntent)
    (targetM : Option Int) : Json :=
  objectOf [("domain",some (.str masterDisableAuthorizationDomain)),("fortress_id",some (.str fortressId)),
    ("disable_nonce",some (.num disableNonce)),("intent",some (.str intent.text)),
    ("target_m",some (nullableNumber targetM))]

def signedByMaster (signature : String) (value : Json) (pinnedMaster : FortressMasterPublicKey) : Bool :=
  match canonicalizeToBytes value with
  | .ok bytes => env.signed signature bytes pinnedMaster.publicKey
  | .error _ => false

def verifyMasterDisableAuthorization (authorization : MasterDisableAuthorization) (fortressId : String)
    (disableNonce : Int) (intent : DisableIntent) (targetM : Option Int) (pinnedMaster : FortressMasterPublicKey) :
    Bool :=
  let body := authorization.body
  authorization.signature ≠ "" && body.domain=masterDisableAuthorizationDomain && body.fortressId=fortressId &&
    body.disableNonce=disableNonce && body.intent=intent && body.targetM=targetM &&
    signedByMaster env authorization.signature
      (masterDisableAuthorizationValue body.fortressId body.disableNonce body.intent body.targetM) pinnedMaster

/-- `buildLoweredThresholdAuthorizationBody`. -/
def loweredThresholdAuthorizationValue (fortressId : String) (rosterVersion effectiveM disableNonce : Int) : Json :=
  objectOf [("domain",some (.str loweredThresholdAuthorizationDomain)),("fortress_id",some (.str fortressId)),
    ("roster_version",some (.num rosterVersion)),("effective_m",some (.num effectiveM)),
    ("disable_nonce",some (.num disableNonce))]

def isSafeInteger (n : Int) : Bool := decide (n.natAbs ≤ 2 ^ 53 - 1)

def verifyLoweredThresholdAuthorization (authorization : LoweredThresholdAuthorization) (fortressId : String)
    (rosterVersion rosterM : Int) (pinnedMaster : FortressMasterPublicKey) : Bool :=
  let body := authorization.body
  authorization.signature ≠ "" && body.domain=loweredThresholdAuthorizationDomain && body.fortressId=fortressId &&
    body.rosterVersion=rosterVersion && isSafeInteger body.effectiveM && decide (1 ≤ body.effectiveM) &&
    decide (body.effectiveM ≤ rosterM) && isSafeInteger body.disableNonce && decide (0 ≤ body.disableNonce) &&
    signedByMaster env authorization.signature
      (loweredThresholdAuthorizationValue body.fortressId body.rosterVersion body.effectiveM body.disableNonce) pinnedMaster

end Gates

structure GuardianRequirementState where
  requirement : Option GuardianRevocationRequirement
  /-- A roster that was persisted did not verify. -/
  latchInvalid : Bool
  pinnedMaster : Option FortressMasterPublicKey
  fortressId : Option String
  syncStateUnavailable : Bool
  (nextDisableNonce guardianLoweredHighWater : Int)

structure GuardianDisableAuthorization where
  quorumApprovals : Option (List GuardianApproval)
  masterAuthorization : Option MasterDisableAuthorization

inductive GuardianRequirementTransition where
  | operatorSet (next : Option GuardianRevocationRequirement) (auth : Option GuardianDisableAuthorization)
      (loweredThreshold : Option LoweredThresholdAuthorization)
  | breakGlassComplete (targetM : Option Int)

inductive Classification where
  | increase
  | decrease
  | noop
deriving DecidableEq

inductive AuthMethod where
  | operator
  | quorum
  | master
  | breakGlass
deriving DecidableEq

structure GuardianRequirementEffect where
  requirement : Option GuardianRevocationRequirement
  (clearsLatch masterAuthorizedNull : Bool)
  authMethod : Option AuthMethod
  (burnedNonce supersedesLoweredNonce : Option Int)
  classification : Classification

inductive GuardianRequirementRefusal where
  | federationNotProvisioned
  | federationSyncStateUnavailable
  | guardianDisableAuthorizationRequired
  | guardianRosterSignatureInvalid
  | loweredThresholdInvalid

namespace GuardianRequirementState

variable (env : MeshEnv) (state : GuardianRequirementState)

/-- A fortress whose roster did not verify has a guard, though none is in force. -/
def guardConfigured : Bool := state.requirement.isSome || state.latchInvalid

variable (next : Option GuardianRevocationRequirement)

def classify : Classification :=
  match next with
  | none => if state.guardConfigured then .decrease else .noop
  | some next =>
    match state.requirement with
    | none => .increase
    | some live =>
      if next.effectiveThresholdM < live.effectiveThresholdM then .decrease
      else if live.effectiveThresholdM < next.effectiveThresholdM then .increase
      else .noop

def verifyNextRoster (next : GuardianRevocationRequirement) : Except GuardianRequirementRefusal Unit :=
  match state.pinnedMaster with
  | none => .error .federationNotProvisioned
  | some pinnedMaster =>
    if (verifyGuardianRoster env next.roster pinnedMaster).isOk then .ok () else .error .guardianRosterSignatureInvalid

def requireLoweredThresholdForNext (next : GuardianRevocationRequirement)
    (lowered : Option LoweredThresholdAuthorization) : Except GuardianRequirementRefusal Unit :=
  match lowered with
  | none => .ok ()
  | some lowered =>
    match state.pinnedMaster, state.fortressId with
    | some pinnedMaster, some fortressId => do
      require (verifyLoweredThresholdAuthorization env lowered fortressId next.roster.version next.roster.m
        pinnedMaster=true) .loweredThresholdInvalid
      require (state.guardianLoweredHighWater < lowered.body.disableNonce) .loweredThresholdInvalid
    | _, _ => .error .federationNotProvisioned

def intentOf : DisableIntent :=
  match next with
  | none => .disable
  | some _ => .lower

def targetOf : Option Int := next.map (·.effectiveThresholdM)

/-- An authorization of the master comes first, and where there is one the quorum is not looked at. -/
def decreaseAuthMethod (auth : Option GuardianDisableAuthorization) :
    Option AuthMethod :=
  match auth with
  | none => none
  | some auth =>
    match auth.masterAuthorization with
    | some authorization =>
      match state.pinnedMaster, state.fortressId with
      | some pinnedMaster, some fortressId =>
        if verifyMasterDisableAuthorization env authorization fortressId state.nextDisableNonce (intentOf next)
          (targetOf next) pinnedMaster then some .master else none
      | _, _ => none
    | none =>
      match auth.quorumApprovals, state.requirement with
      | some approvals, some live =>
        if (evaluateGuardianDisableSignOff env live live.roster.fortressId state.nextDisableNonce (intentOf next)
          (targetOf next) (some approvals)).isOk then some .quorum else none
      | _, _ => none

def loweredNext (next : GuardianRevocationRequirement) (loweredThreshold : Option LoweredThresholdAuthorization) :
    Except GuardianRequirementRefusal GuardianRevocationRequirement := do
  verifyNextRoster env state next
  match loweredThreshold <|> next.loweredThreshold with
  | none => return next
  | some lowered =>
    requireLoweredThresholdForNext env state next (some lowered)
    require (lowered.body.effectiveM=next.effectiveThresholdM) .loweredThresholdInvalid
    require (lowered.body.disableNonce=state.nextDisableNonce) .loweredThresholdInvalid
    return { next with loweredThreshold := some lowered }

/-- The nonce of the lowered threshold in force, where what is installed has another or none. -/
def supersededNonce (installed : Option GuardianRevocationRequirement) : Option Int :=
  match state.requirement.bind (·.loweredNonce) with
  | none => none
  | some prior => if some prior=installed.bind (·.loweredNonce) then none else some prior

def installDecrease
    (loweredThreshold : Option LoweredThresholdAuthorization) :
    Except GuardianRequirementRefusal (Option GuardianRevocationRequirement) :=
  match next with
  | none => .ok none
  | some next => (loweredNext env state next loweredThreshold).map some

def authorizeDecrease (auth : Option GuardianDisableAuthorization)
    (loweredThreshold : Option LoweredThresholdAuthorization) :
    Except GuardianRequirementRefusal GuardianRequirementEffect :=
  match decreaseAuthMethod env state next auth with
  | none => .error .guardianDisableAuthorizationRequired
  | some authMethod => do
    require (state.syncStateUnavailable=false) .federationSyncStateUnavailable
    require (authMethod=.master ∨ state.latchInvalid=false) .federationSyncStateUnavailable
    let installed ← installDecrease env state next loweredThreshold
    return {
      requirement := installed
      clearsLatch := next.isSome && state.latchInvalid
      masterAuthorizedNull := next.isNone && authMethod=.master
      authMethod := some authMethod
      burnedNonce := some state.nextDisableNonce
      supersedesLoweredNonce := supersededNonce state installed
      classification := .decrease }

def authorizeInstall (next : GuardianRevocationRequirement) (classification : Classification) :
    Except GuardianRequirementRefusal GuardianRequirementEffect := do
  verifyNextRoster env state next
  requireLoweredThresholdForNext env state next next.loweredThreshold
  let superseded := supersededNonce state (some next)
  return {
    requirement := some next
    clearsLatch := state.latchInvalid
    masterAuthorizedNull := false
    authMethod := some .operator
    burnedNonce := superseded.map fun _ => state.nextDisableNonce
    supersedesLoweredNonce := superseded
    classification }

def authorizeGuardianRequirementTransition :
    GuardianRequirementTransition → Except GuardianRequirementRefusal GuardianRequirementEffect
  | .breakGlassComplete _ =>
    .ok { requirement := none, clearsLatch := false, masterAuthorizedNull := false, authMethod := some .breakGlass
          burnedNonce := none, supersedesLoweredNonce := state.requirement.bind (·.loweredNonce)
          classification := .decrease }
  | .operatorSet next auth loweredThreshold =>
    match classify state next with
    | .decrease => authorizeDecrease env state next auth loweredThreshold
    | classification =>
      match next with
      | some next => authorizeInstall env state next classification
      | none =>
        .ok { requirement := none, clearsLatch := false, masterAuthorizedNull := false, authMethod := none
              burnedNonce := none, supersedesLoweredNonce := none, classification := .noop }

end GuardianRequirementState

end CastleWall.Federation
