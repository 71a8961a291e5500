import CastleWall.Federation.GuardianHost

/-! # Weakening a guardian requirement

The threshold in force goes down, or the requirement goes, only by a signature of the master, by a quorum of the
guardians in force, or by a countdown that has elapsed. A lowered threshold that was dropped is known by its nonce
alone, so it stays dropped only while no other one shares its nonce. -/

namespace CastleWall.Federation

open Mesh Custody
open Outcome (require)

section Signed

variable {env : MeshEnv}

theorem signedByMaster_iff {signature : String} {value : Json} {pinnedMaster : FortressMasterPublicKey} :
    signedByMaster env signature value pinnedMaster=true ↔
      ∃ bytes, canonicalizeToBytes value=.ok bytes ∧ env.signed signature bytes pinnedMaster.publicKey=true := by
  rw [signedByMaster]
  cases canonicalizeToBytes value with
  | ok bytes => simp
  | error refusal => simp

/-- The master has signed to change the requirement of this fortress, at this nonce. -/
def MasterSigned (env : MeshEnv) (host : GuardianHost) (auth : Option GuardianDisableAuthorization)
    (intent : DisableIntent) (targetM : Option Int) : Prop :=
  ∃ context given authorization bytes, host.context=some context ∧ auth=some given ∧
    given.masterAuthorization=some authorization ∧
    canonicalizeToBytes (masterDisableAuthorizationValue context.fortressId (host.disableNonce+1) intent targetM) =
      .ok bytes ∧
    env.signed authorization.signature bytes context.pinnedMaster.publicKey=true

/-- As many guardians in force as a kill takes have signed to change the requirement of this fortress, at this
nonce. -/
def QuorumSigned (env : MeshEnv) (host : GuardianHost) (auth : Option GuardianDisableAuthorization)
    (intent : DisableIntent) (targetM : Option Int) : Prop :=
  ∃ context live given approvals bytes signers, host.context=some context ∧ host.requirement=some live ∧
    auth=some given ∧ given.quorumApprovals=some approvals ∧
    canonicalizeToBytes (disableSigningInput live context.fortressId (host.disableNonce+1) intent targetM).value =
      .ok bytes ∧
    SignedBy env live.roster bytes (approvals.map GuardianApproval.toSignature) signers ∧
    live.effectiveThresholdM ≤ signers.length

structure VerifiedRequirement (env : MeshEnv) (context : FederationContext) (live : GuardianRevocationRequirement) :
    Prop where
  roster : (verifyGuardianRoster env live.roster context.pinnedMaster).isOk=true
  lowered : ∀ lowered, live.loweredThreshold=some lowered →
    verifyLoweredThresholdAuthorization env lowered context.fortressId live.roster.version live.roster.m
      context.pinnedMaster=true

theorem verifyGuardianRoster_isOk {roster : GuardianRoster} {pinned : FortressMasterPublicKey}
    (h : (verifyGuardianRoster env roster pinned).isOk=true) :
    roster.fortressId=pinned.fortressId ∧ ∃ bytes, canonicalizeToBytes roster.body=.ok bytes ∧
      env.signed roster.masterSignature bytes pinned.publicKey=true := by
  cases hver : verifyGuardianRoster env roster pinned with
  | error refusal => simp [hver,Except.isOk,Except.toBool] at h
  | ok u =>
    rw [verifyGuardianRoster] at hver
    obtain ⟨_,-,hver⟩ := Outcome.bind_ok hver
    rw [Outcome.require_bind_eq_ok,Outcome.require_bind_eq_ok,Outcome.require_bind_eq_ok] at hver
    obtain ⟨hfor,-,-,hver⟩ := hver
    obtain ⟨bytes,hbyt,hver⟩ := Outcome.bind_ok hver
    exact ⟨hfor,bytes,hbyt,Outcome.require_eq_ok.mp hver⟩

theorem VerifiedRequirement.effectiveThresholdM_le {context : FederationContext} {live : GuardianRevocationRequirement}
    (h : VerifiedRequirement env context live) : live.effectiveThresholdM ≤ live.roster.m := by
  rw [GuardianRevocationRequirement.effectiveThresholdM]
  cases hlow : live.loweredThreshold with
  | none => exact le_refl _
  | some lowered =>
    have hver := h.lowered lowered hlow
    simp only [verifyLoweredThresholdAuthorization,Bool.and_eq_true,decide_eq_true_eq] at hver
    exact hver.1.1.1.2

theorem evaluateSignOff_isOk {requirement : GuardianRevocationRequirement} {input : ApprovalSigningInput}
    {approvals : Option (List GuardianApproval)} {ids : List String}
    (h : evaluateSignOff env requirement input approvals=.ok ids) :
    ∃ given result, approvals=some given ∧
      enforceThreshold env requirement.roster input given (some requirement.expectedVersion)
        (some requirement.effectiveThresholdM)=.ok result ∧ result.validGuardianIds=ids := by
  cases approvals with
  | none => cases h
  | some given =>
    cases given with
    | nil => cases h
    | cons approval rest =>
      simp only [evaluateSignOff] at h
      cases hres : enforceThreshold env requirement.roster input (approval::rest)
          (some requirement.expectedVersion) (some requirement.effectiveThresholdM) with
      | error refusal =>
        rw [hres] at h
        cases h
      | ok result =>
        rw [hres] at h
        cases h
        exact ⟨approval::rest,result,rfl,hres,rfl⟩

theorem decreaseAuthMethod_some {state : GuardianRequirementState} {next : Option GuardianRevocationRequirement}
    {auth : Option GuardianDisableAuthorization} {method : AuthMethod}
    (h : state.decreaseAuthMethod env next auth=some method) :
    ∃ given, auth=some given ∧
      ((∃ authorization pinnedMaster fortressId, given.masterAuthorization=some authorization ∧
          state.pinnedMaster=some pinnedMaster ∧ state.fortressId=some fortressId ∧
          verifyMasterDisableAuthorization env authorization fortressId state.nextDisableNonce
            (GuardianRequirementState.intentOf next) (GuardianRequirementState.targetOf next) pinnedMaster=true) ∨
        ∃ approvals live, given.quorumApprovals=some approvals ∧ state.requirement=some live ∧
          (evaluateGuardianDisableSignOff env live live.roster.fortressId state.nextDisableNonce
            (GuardianRequirementState.intentOf next) (GuardianRequirementState.targetOf next)
            (some approvals)).isOk=true) := by
  cases auth with
  | none => cases h
  | some given =>
    refine ⟨given,rfl,?_⟩
    rw [GuardianRequirementState.decreaseAuthMethod] at h
    cases hmas : given.masterAuthorization with
    | some authorization =>
      cases hpin : state.pinnedMaster with
      | none =>
        simp only [hmas,hpin] at h
        cases h
      | some pinnedMaster =>
        cases hfor : state.fortressId with
        | none =>
          simp only [hmas,hpin,hfor] at h
          cases h
        | some fortressId =>
          simp only [hmas,hpin,hfor,Option.ite_none_right_eq_some] at h
          exact .inl ⟨authorization,pinnedMaster,fortressId,rfl,rfl,rfl,h.1⟩
    | none =>
      cases happ : given.quorumApprovals with
      | none =>
        simp only [hmas,happ] at h
        cases h
      | some approvals =>
        cases hliv : state.requirement with
        | none =>
          simp only [hmas,happ,hliv] at h
          cases h
        | some live =>
          simp only [hmas,happ,hliv,Option.ite_none_right_eq_some] at h
          exact .inr ⟨approvals,live,rfl,rfl,h.1⟩

def GuardianHost.Verified (env : MeshEnv) (host : GuardianHost) : Prop :=
  ∀ live, host.requirement=some live → ∃ context, host.context=some context ∧ VerifiedRequirement env context live

theorem signed_of_decreaseAuthMethod {host : GuardianHost} {next : Option GuardianRevocationRequirement}
    {auth : Option GuardianDisableAuthorization} {method : AuthMethod} (hver : host.Verified env)
    (h : host.state.decreaseAuthMethod env next auth=some method) :
    MasterSigned env host auth (GuardianRequirementState.intentOf next) (GuardianRequirementState.targetOf next) ∨
    QuorumSigned env host auth (GuardianRequirementState.intentOf next) (GuardianRequirementState.targetOf next) := by
  obtain ⟨given,haut,hmas | hquo⟩ := decreaseAuthMethod_some h
  · obtain ⟨authorization,pinnedMaster,fortressId,hgiv,hpin,hfor,hvey⟩ := hmas
    obtain ⟨context,hcon,rfl⟩ := Option.map_eq_some_iff.mp hpin
    have hid : fortressId=context.fortressId := by
      simpa only [GuardianHost.state,hcon,Option.map_some,Option.some.injEq,eq_comm] using hfor
    subst hid
    simp only [verifyMasterDisableAuthorization,Bool.and_eq_true,decide_eq_true_eq] at hvey
    obtain ⟨⟨⟨⟨⟨⟨-,-⟩,hfos⟩,hnon⟩,hine⟩,htar⟩,hsig⟩ := hvey
    rw [hfos,hnon,hine,htar] at hsig
    obtain ⟨bytes,hbyt,hsig⟩ := signedByMaster_iff.mp hsig
    exact .inl ⟨context,given,authorization,bytes,hcon,haut,hgiv,hbyt,hsig⟩
  · obtain ⟨approvals,live,hgiv,hliv,hall⟩ := hquo
    obtain ⟨context,hcon,hreq⟩ := hver live hliv
    have hfos : live.roster.fortressId=context.fortressId :=
      (verifyGuardianRoster_isOk hreq.roster).1.trans context.sameFortress
    rw [hfos] at hall
    cases hdec : evaluateGuardianDisableSignOff env live context.fortressId host.state.nextDisableNonce
        (GuardianRequirementState.intentOf next) (GuardianRequirementState.targetOf next) (some approvals) with
    | error denial => simp [hdec,Except.isOk,Except.toBool] at hall
    | ok ids =>
      obtain ⟨given',result,hgiv',henf,-⟩ := evaluateSignOff_isOk hdec
      cases hgiv'
      obtain ⟨bytes,signers,-,-,hbyt,hsig,-,hcou⟩ := enforceThreshold_ok henf
      rw [thresholdOf,min_eq_left hreq.effectiveThresholdM_le] at hcou
      exact .inr ⟨context,live,given,approvals,bytes,signers,hcon,hliv,haut,hgiv,hbyt,hsig,
        hcou⟩

end Signed

def GuardianRequirementTransition.carried : GuardianRequirementTransition → List LoweredThresholdAuthorizationBody
  | .operatorSet next _ loweredThreshold =>
    (loweredThreshold.toList++(next.bind (·.loweredThreshold)).toList).map (·.body)
  | .breakGlassComplete _ => []

/-- What is installed was checked, and its lowered threshold was carried and is above the high water. -/
structure Installable (env : MeshEnv) (state : GuardianRequirementState) (t : GuardianRequirementTransition)
    (installed : GuardianRevocationRequirement) : Prop where
  roster : ∃ pinnedMaster, state.pinnedMaster=some pinnedMaster ∧
    (verifyGuardianRoster env installed.roster pinnedMaster).isOk=true
  lowered : ∀ lowered, installed.loweredThreshold=some lowered →
    ∃ pinnedMaster fortressId, state.pinnedMaster=some pinnedMaster ∧ state.fortressId=some fortressId ∧
      verifyLoweredThresholdAuthorization env lowered fortressId installed.roster.version installed.roster.m
        pinnedMaster=true ∧
      state.guardianLoweredHighWater < lowered.body.disableNonce ∧ lowered.body∈t.carried

structure EffectSpec (env : MeshEnv) (state : GuardianRequirementState) (t : GuardianRequirementTransition)
    (effect : GuardianRequirementEffect) : Prop where
  superseded : effect.supersedesLoweredNonce=state.supersededNonce effect.requirement
  burned : effect.burnedNonce=none ∨ effect.burnedNonce=some state.nextDisableNonce
  installed : ∀ requirement, effect.requirement=some requirement → Installable env state t requirement

section Transitions

variable {env : MeshEnv} {state : GuardianRequirementState} {next : GuardianRevocationRequirement}

theorem verifyNextRoster_ok {u : Unit}
    (h : state.verifyNextRoster env next=.ok u) :
    ∃ pinnedMaster, state.pinnedMaster=some pinnedMaster ∧
      (verifyGuardianRoster env next.roster pinnedMaster).isOk=true := by
  rw [GuardianRequirementState.verifyNextRoster] at h
  cases hpin : state.pinnedMaster with
  | none =>
    rw [hpin] at h
    cases h
  | some pinnedMaster =>
    rw [hpin] at h
    by_cases hok : (verifyGuardianRoster env next.roster pinnedMaster).isOk=true
    · exact ⟨pinnedMaster,rfl,hok⟩
    · simp only [if_neg hok] at h
      cases h

theorem requireLoweredThresholdForNext_ok
    {lowered : LoweredThresholdAuthorization} {u : Unit}
    (h : state.requireLoweredThresholdForNext env next (some lowered)=.ok u) :
    ∃ pinnedMaster fortressId, state.pinnedMaster=some pinnedMaster ∧ state.fortressId=some fortressId ∧
      verifyLoweredThresholdAuthorization env lowered fortressId next.roster.version next.roster.m pinnedMaster=true ∧
      state.guardianLoweredHighWater < lowered.body.disableNonce := by
  rw [GuardianRequirementState.requireLoweredThresholdForNext] at h
  cases hpin : state.pinnedMaster with
  | none =>
    simp only [hpin] at h
    cases h
  | some pinnedMaster =>
    cases hfor : state.fortressId with
    | none =>
      simp only [hpin,hfor] at h
      cases h
    | some fortressId =>
      simp only [hpin,hfor,Outcome.require_bind_eq_ok,Outcome.require_eq_ok] at h
      exact ⟨pinnedMaster,fortressId,rfl,rfl,h⟩

theorem installDecrease_ok {next : Option GuardianRevocationRequirement}
    {auth : Option GuardianDisableAuthorization} {loweredThreshold : Option LoweredThresholdAuthorization}
    {installed : Option GuardianRevocationRequirement} (h : state.installDecrease env next loweredThreshold=.ok installed) :
    ∀ requirement, installed=some requirement →
      Installable env state (.operatorSet next auth loweredThreshold) requirement := by
  intro requirement hreq
  subst hreq
  cases next with
  | none => cases h
  | some next =>
    obtain ⟨requirement',hnex,heq⟩ := Outcome.map_ok h
    cases heq
    obtain ⟨_,hros,hnex⟩ := Outcome.bind_ok hnex
    have hver := verifyNextRoster_ok hros
    cases hlow : loweredThreshold <|> next.loweredThreshold with
    | none =>
      rw [hlow] at hnex
      cases hnex
      refine ⟨hver,fun lowered hnex => ?_⟩
      rw [hnex] at hlow
      cases loweredThreshold <;> cases hlow
    | some lowered =>
      rw [hlow] at hnex
      obtain ⟨_,hree,hnex⟩ := Outcome.bind_ok hnex
      rw [Outcome.require_bind_eq_ok,Outcome.require_bind_eq_ok] at hnex
      obtain ⟨-,-,hnex⟩ := hnex
      cases hnex
      refine ⟨hver,fun lowered' heq => ?_⟩
      cases heq
      obtain ⟨pinnedMaster,fortressId,hpin,hfor,hvey,hwat⟩ :=
        requireLoweredThresholdForNext_ok hree
      refine ⟨pinnedMaster,fortressId,hpin,hfor,hvey,hwat,?_⟩
      simp only [GuardianRequirementTransition.carried,List.mem_map,List.mem_append,Option.mem_toList,
        Option.bind_some]
      refine ⟨lowered,?_,rfl⟩
      cases loweredThreshold with
      | none => exact .inr hlow
      | some other => exact .inl hlow

theorem authorizeInstall_ok {auth : Option GuardianDisableAuthorization}
    {loweredThreshold : Option LoweredThresholdAuthorization} {classification : Classification}
    {effect : GuardianRequirementEffect} (h : state.authorizeInstall env next classification=.ok effect) :
    effect.requirement=some next ∧ effect.authMethod=some .operator ∧
      EffectSpec env state (.operatorSet (some next) auth loweredThreshold) effect := by
  obtain ⟨_,hros,h⟩ := Outcome.bind_ok h
  obtain ⟨_,hlow,h⟩ := Outcome.bind_ok h
  cases h
  refine ⟨rfl,rfl,rfl,?_,?_⟩
  · cases state.supersededNonce (some next) with
    | none => exact .inl rfl
    | some nonce => exact .inr rfl
  · intro requirement hreq
    cases hreq
    refine ⟨verifyNextRoster_ok hros,fun lowered hnex => ?_⟩
    rw [hnex] at hlow
    obtain ⟨pinnedMaster,fortressId,hpin,hfor,hver,hwat⟩ := requireLoweredThresholdForNext_ok hlow
    refine ⟨pinnedMaster,fortressId,hpin,hfor,hver,hwat,?_⟩
    simp [GuardianRequirementTransition.carried,hnex]

/-- One of four things is committed: a decrease that was signed for, an install by the operator, nothing, or the end
of a countdown. -/
inductive Committed (env : MeshEnv) (state : GuardianRequirementState) :
    GuardianRequirementTransition → GuardianRequirementEffect → Prop
  | decrease {next : Option GuardianRevocationRequirement} {auth : Option GuardianDisableAuthorization}
      {loweredThreshold : Option LoweredThresholdAuthorization} {effect : GuardianRequirementEffect}
      (method : AuthMethod) (hmethod : state.decreaseAuthMethod env next auth=some method)
      (hauth : effect.authMethod=some method) : Committed env state (.operatorSet next auth loweredThreshold) effect
  | install {next : GuardianRevocationRequirement} {auth : Option GuardianDisableAuthorization}
      {loweredThreshold : Option LoweredThresholdAuthorization} {effect : GuardianRequirementEffect}
      (hrequirement : effect.requirement=some next)
      (hkeeps : ∀ live, state.requirement=some live → live.effectiveThresholdM ≤ next.effectiveThresholdM) :
      Committed env state (.operatorSet (some next) auth loweredThreshold) effect
  | nothing {auth : Option GuardianDisableAuthorization} {loweredThreshold : Option LoweredThresholdAuthorization}
      {effect : GuardianRequirementEffect} (hnone : state.requirement=none) (hrequirement : effect.requirement=none) :
      Committed env state (.operatorSet none auth loweredThreshold) effect
  | breakGlass {targetM : Option Int} {effect : GuardianRequirementEffect} (hrequirement : effect.requirement=none)
      (hauth : effect.authMethod=some .breakGlass) : Committed env state (.breakGlassComplete targetM) effect

theorem authorize_ok {t : GuardianRequirementTransition} {effect : GuardianRequirementEffect}
    (h : state.authorizeGuardianRequirementTransition env t=.ok effect) :
    Committed env state t effect ∧ EffectSpec env state t effect := by
  cases t with
  | breakGlassComplete targetM =>
    cases h
    refine ⟨.breakGlass rfl rfl,?_,.inl rfl,fun requirement hreq => nomatch hreq⟩
    rw [GuardianRequirementState.supersededNonce]
    cases state.requirement.bind (·.loweredNonce) with
    | none => rfl
    | some prior => rfl
  | operatorSet next auth loweredThreshold =>
    rw [GuardianRequirementState.authorizeGuardianRequirementTransition] at h
    by_cases hdec : state.classify next=.decrease
    · rw [hdec] at h
      change state.authorizeDecrease env next auth loweredThreshold=.ok effect at h
      rw [GuardianRequirementState.authorizeDecrease] at h
      cases hmet : state.decreaseAuthMethod env next auth with
      | none =>
        rw [hmet] at h
        cases h
      | some method =>
        simp only [hmet,Outcome.require_bind_eq_ok] at h
        obtain ⟨-,-,h⟩ := h
        obtain ⟨installed,hins,h⟩ := Outcome.bind_ok h
        cases h
        exact ⟨.decrease method hmet rfl,rfl,.inr rfl,installDecrease_ok hins⟩
    · cases next with
      | some next =>
        have hinl : state.authorizeInstall env next (state.classify (some next))=.ok effect := by
          cases hcla : state.classify (some next) with
          | decrease => exact absurd hcla hdec
          | increase => rwa [hcla] at h
          | noop => rwa [hcla] at h
        obtain ⟨hreq,-,hspe⟩ := authorizeInstall_ok hinl
        refine ⟨.install hreq fun live hliv => ?_,hspe⟩
        by_contra hlt
        rw [not_le] at hlt
        simp only [GuardianRequirementState.classify,hliv,if_pos hlt,not_true] at hdec
      | none =>
        have hgua : state.guardConfigured=false := by
          by_contra hgua
          simp only [GuardianRequirementState.classify,Bool.not_eq_false] at hgua hdec
          rw [if_pos hgua] at hdec
          exact hdec rfl
        have hnone : state.requirement=none := by
          rw [GuardianRequirementState.guardConfigured,Bool.or_eq_false_iff] at hgua
          exact Option.isSome_eq_false_iff.mp hgua.1 |> Option.isNone_iff_eq_none.mp
        have hcla : state.classify none=.noop := by
          rw [GuardianRequirementState.classify,hgua]
          rfl
        rw [hcla] at h
        cases h
        refine ⟨.nothing hnone rfl,?_,.inl rfl,fun requirement hreq => nomatch hreq⟩
        rw [GuardianRequirementState.supersededNonce,hnone]
        rfl

end Transitions

structure Kept (host host' : GuardianHost) : Prop where
  context : host'.context=host.context
  requirement : host'.requirement=host.requirement
  loweredHighWater : host'.loweredHighWater=host.loweredHighWater
  disableNonce : host.disableNonce ≤ host'.disableNonce
  breakGlass : ∀ armed, host'.breakGlass=some armed → host.breakGlass=some armed ∨ armed.nonce ≤ host'.disableNonce

theorem Kept.refl (host : GuardianHost) : Kept host host :=
  ⟨rfl,rfl,rfl,le_refl _,fun _ harm => .inl harm⟩

/-- What an input commits: an operator's own transition, or the end of a countdown that has elapsed. -/
inductive Commits (host : GuardianHost) : GuardianInput → GuardianRequirementTransition → Prop
  | operatorSet (next : Option GuardianRevocationRequirement) (auth : Option GuardianDisableAuthorization)
      (loweredThreshold : Option LoweredThresholdAuthorization) (persisted : Bool) :
      Commits host (.operatorSet next auth loweredThreshold persisted) (.operatorSet next auth loweredThreshold)
  | tick (armed : BreakGlassState) (now : Int) (persisted : Bool) (harmed : host.breakGlass=some armed)
      (helapsed : armed.completesAt ≤ now) : Commits host (.tick now persisted) (.breakGlassComplete armed.targetM)

section Steps

variable {env : MeshEnv} {host : GuardianHost}

theorem commit_cases (t : GuardianRequirementTransition) (persisted : Bool) :
    host.commitGuardianRequirementTransition env t persisted=host ∨
    ∃ effect, host.state.authorizeGuardianRequirementTransition env t=.ok effect ∧
      host.commitGuardianRequirementTransition env t persisted=host.applyEffect effect (GuardianHost.completes t) := by
  rw [GuardianHost.commitGuardianRequirementTransition]
  cases host.state.authorizeGuardianRequirementTransition env t with
  | error refusal => exact .inl rfl
  | ok effect =>
    cases persisted with
    | false => exact .inl rfl
    | true => exact .inr ⟨effect,rfl,rfl⟩

theorem kept_terminate (armed : BreakGlassState) (persisted : Bool) :
    Kept host (host.terminateFederationGuardianBreakGlass armed persisted) := by
  rw [GuardianHost.terminateFederationGuardianBreakGlass]
  cases persisted with
  | false => exact .refl host
  | true => exact ⟨rfl,rfl,rfl,le_max_left _ _,fun _ hnone => nomatch hnone⟩

theorem kept_initiate (intent : DisableIntent) (targetM : Option Int) (delayMs now : Int) (persisted : Bool) :
    Kept host (host.initiateFederationGuardianBreakGlass intent targetM delayMs now persisted) := by
  rw [GuardianHost.initiateFederationGuardianBreakGlass]
  by_cases hine : intent≠.disable
  · rw [if_pos hine]
    exact .refl host
  rw [if_neg hine]
  by_cases hlat : (host.syncStateUnavailable || host.requirementInvalid)=true
  · rw [if_pos hlat]
    exact .refl host
  rw [if_neg hlat]
  by_cases hnone : host.requirement.isNone=true
  · rw [if_pos hnone]
    exact .refl host
  rw [if_neg hnone]
  by_cases harm : host.breakGlass.isSome=true
  · rw [if_pos harm]
    exact .refl host
  rw [if_neg harm]
  cases persisted with
  | false => exact .refl host
  | true =>
    refine ⟨rfl,rfl,rfl,Int.le_add_one (le_refl _),fun armed harm => .inr ?_⟩
    cases harm
    exact le_refl _

theorem tick_cases (now : Int) (persisted : Bool) :
    host.tickFederationGuardianBreakGlass env now persisted=host ∨
    ∃ armed, host.breakGlass=some armed ∧ armed.completesAt ≤ now ∧
      host.tickFederationGuardianBreakGlass env now persisted =
        host.commitGuardianRequirementTransition env (.breakGlassComplete armed.targetM) persisted := by
  rw [GuardianHost.tickFederationGuardianBreakGlass]
  cases harm : host.breakGlass with
  | none => exact .inl rfl
  | some armed =>
    by_cases hela : breakGlassElapsed armed now=false
    · exact .inl (if_pos hela)
    by_cases hlat : (host.syncStateUnavailable || host.requirementInvalid)=true
    · exact .inl (by simp only [if_neg hela,if_pos hlat])
    by_cases hine : armed.intent≠.disable
    · exact .inl (by simp only [if_neg hela,if_neg hlat,if_pos hine])
    · refine .inr ⟨armed,rfl,?_,by simp only [if_neg hela,if_neg hlat,if_neg hine]⟩
      rw [Bool.not_eq_false] at hela
      exact of_decide_eq_true hela

theorem step_cases (input : GuardianInput) :
    Kept host (host.step env input) ∨
    ∃ t effect, Commits host input t ∧ host.state.authorizeGuardianRequirementTransition env t=.ok effect ∧
      host.step env input=host.applyEffect effect (GuardianHost.completes t) := by
  have hcom : ∀ t persisted, Commits host input t →
      host.step env input=host.commitGuardianRequirementTransition env t persisted →
      Kept host (host.step env input) ∨
      ∃ t effect, Commits host input t ∧ host.state.authorizeGuardianRequirementTransition env t=.ok effect ∧
        host.step env input=host.applyEffect effect (GuardianHost.completes t) := by
    intro t persisted hcos hste
    rcases commit_cases t persisted with hsam | ⟨effect,haut,happ⟩
    · rw [hste,hsam]
      exact .inl (.refl host)
    · exact .inr ⟨t,effect,hcos,haut,hste.trans happ⟩
  cases input with
  | operatorSet next auth loweredThreshold persisted =>
    exact hcom _ persisted (.operatorSet next auth loweredThreshold persisted) rfl
  | initiate intent targetM delayMs now persisted => exact .inl (kept_initiate intent targetM delayMs now persisted)
  | veto approval persisted =>
    left
    rw [GuardianHost.step,GuardianHost.vetoFederationGuardianBreakGlass]
    split
    · split
      · exact .refl host
      · exact kept_terminate _ persisted
    · exact .refl host
  | cancel persisted =>
    left
    rw [GuardianHost.step,GuardianHost.cancelFederationGuardianBreakGlass]
    split
    · exact .refl host
    · exact kept_terminate _ persisted
  | tick now persisted =>
    rcases tick_cases now persisted with hsam | ⟨armed,harm,hela,hste⟩
    · rw [GuardianHost.step,hsam]
      exact .inl (.refl host)
    · exact hcom _ persisted (.tick armed now persisted harm hela) hste

end Steps

structure GuardianWorld where
  host : GuardianHost
  /-- Nonces that were spent, one by one. -/
  burned : List Int
  /-- Lowered thresholds that were in force and are no longer. -/
  dropped : List LoweredThresholdAuthorizationBody

def burnedBy (host host' : GuardianHost) : List Int :=
  (if host'.disableNonce=host.disableNonce then [] else [host'.disableNonce]) ++
    match host.breakGlass, host'.breakGlass with
    | some armed, none => [armed.nonce]
    | _, _ => []

def droppedBy (host host' : GuardianHost) : List LoweredThresholdAuthorizationBody :=
  match host.lowered with
  | none => []
  | some body => if host'.lowered=some body then [] else [body]

def GuardianWorld.step (env : MeshEnv) (world : GuardianWorld) (input : GuardianInput) : GuardianWorld where
  host := world.host.step env input
  burned := world.burned++burnedBy world.host (world.host.step env input)
  dropped := world.dropped++droppedBy world.host (world.host.step env input)

def GuardianWorld.run (env : MeshEnv) (world : GuardianWorld) (inputs : List GuardianInput) : GuardianWorld :=
  inputs.foldl (GuardianWorld.step env) world

def Weakens (host host' : GuardianHost) : Prop :=
  ∃ live, host.requirement=some live ∧
    ∀ live', host'.requirement=some live' → live'.effectiveThresholdM < live.effectiveThresholdM

def AuthorizedWeakening (env : MeshEnv) (world : GuardianWorld) : GuardianInput → Prop
  | .operatorSet next auth _ _ =>
    (∀ nonce∈world.burned, nonce < world.host.disableNonce+1) ∧
      (MasterSigned env world.host auth (GuardianRequirementState.intentOf next) (GuardianRequirementState.targetOf next) ∨
        QuorumSigned env world.host auth (GuardianRequirementState.intentOf next)
          (GuardianRequirementState.targetOf next))
  | .tick now _ => ∃ armed, world.host.breakGlass=some armed ∧ armed.completesAt ≤ now
  | _ => False

def GuardianInput.carried : GuardianInput → List LoweredThresholdAuthorizationBody
  | .operatorSet next auth loweredThreshold _ =>
    (GuardianRequirementTransition.operatorSet next auth loweredThreshold).carried
  | _ => []

/-- No lowered threshold that is carried has the nonce of another that is in force. -/
def SeparateNonces (host : GuardianHost) (input : GuardianInput) : Prop :=
  ∀ body, host.lowered=some body → ∀ carried∈input.carried, carried≠body → carried.disableNonce≠body.disableNonce

def SeparateRun (env : MeshEnv) (world : GuardianWorld) : List GuardianInput → Prop
  | [] => True
  | input::rest => SeparateNonces world.host input ∧ SeparateRun env (world.step env input) rest

structure GuardianInv (env : MeshEnv) (world : GuardianWorld) : Prop where
  verified : world.host.Verified env
  burned : ∀ nonce∈world.burned, nonce ≤ world.host.disableNonce
  armed : ∀ armed, world.host.breakGlass=some armed → armed.nonce ≤ world.host.disableNonce
  dropped : ∀ body∈world.dropped, body.disableNonce ≤ world.host.loweredHighWater
  inForce : ∀ body, world.host.lowered=some body → body∉world.dropped

section Invariant

variable {env : MeshEnv} {world : GuardianWorld} {input : GuardianInput}

theorem Commits.carried {host : GuardianHost} {t : GuardianRequirementTransition}
    (h : Commits host input t) : t.carried=input.carried := by
  cases h with
  | operatorSet next auth loweredThreshold persisted => rfl
  | tick armed now persisted harm hela => rfl

theorem le_raisedTo (current : Int) (raised : Option Int) : current ≤ GuardianHost.raisedTo current raised := by
  cases raised with
  | none => exact le_refl _
  | some n => exact le_max_left _ _

theorem mem_burnedBy {host host' : GuardianHost} {nonce : Int} (h : nonce∈burnedBy host host')
    (hnon : host.disableNonce ≤ host'.disableNonce)
    (harm : ∀ armed, host.breakGlass=some armed → armed.nonce ≤ host.disableNonce) : nonce ≤ host'.disableNonce := by
  rcases List.mem_append.mp h with h | h
  · split at h
    · cases h
    · rw [List.mem_singleton.mp h]
  · split at h
    case h_1 armed hbef haft =>
      rw [List.mem_singleton.mp h]
      exact (harm _ hbef).trans hnon
    case h_2 => cases h

theorem mem_droppedBy {host host' : GuardianHost} {body : LoweredThresholdAuthorizationBody}
    (h : body∈droppedBy host host') : host.lowered=some body ∧ host'.lowered≠some body := by
  rw [droppedBy] at h
  cases hlow : host.lowered with
  | none =>
    rw [hlow] at h
    cases h
  | some body' =>
    simp only [hlow] at h
    by_cases hsam : host'.lowered=some body'
    · rw [if_pos hsam] at h
      cases h
    · rw [if_neg hsam] at h
      rw [List.mem_singleton.mp h]
      exact ⟨rfl,hsam⟩

theorem lowered_eq_some {host : GuardianHost} {body : LoweredThresholdAuthorizationBody}
    (h : host.lowered=some body) :
    ∃ live lowered, host.requirement=some live ∧ live.loweredThreshold=some lowered ∧ lowered.body=body := by
  obtain ⟨lowered,hbin,hbod⟩ := Option.map_eq_some_iff.mp h
  obtain ⟨live,hliv,hlow⟩ := Option.bind_eq_some_iff.mp hbin
  exact ⟨live,lowered,hliv,hlow,hbod⟩

theorem GuardianInv.kept (h : GuardianInv env world)
    (hkep : Kept world.host (world.host.step env input)) : GuardianInv env (world.step env input) := by
  have hlow : (world.host.step env input).lowered=world.host.lowered := by
    rw [GuardianHost.lowered,GuardianHost.lowered,hkep.requirement]
  have hdro : droppedBy world.host (world.host.step env input)=[] := by
    rw [List.eq_nil_iff_forall_not_mem]
    intro body hbod
    obtain ⟨hbef,haft⟩ := mem_droppedBy hbod
    exact haft (hlow.trans hbef)
  refine ⟨?_,?_,?_,?_,?_⟩
  · intro live hliv
    obtain ⟨context,hcon,hver⟩ := h.verified live (hkep.requirement ▸ hliv)
    exact ⟨context,hkep.context.trans hcon,hver⟩
  · refine List.forall_mem_append.mpr ⟨fun nonce hnon => (h.burned nonce hnon).trans hkep.disableNonce,?_⟩
    exact fun nonce hnon => mem_burnedBy hnon hkep.disableNonce h.armed
  · intro armed harm
    rcases hkep.breakGlass armed harm with hbef | hnon
    · exact (h.armed armed hbef).trans hkep.disableNonce
    · exact hnon
  · intro body hbod
    change body∈world.dropped++_ at hbod
    rw [hdro,List.append_nil] at hbod
    exact (h.dropped body hbod).trans_eq hkep.loweredHighWater.symm
  · intro body hbod hmem
    change body∈world.dropped++_ at hmem
    rw [hdro,List.append_nil] at hmem
    exact h.inForce body (hlow ▸ hbod) hmem

theorem GuardianInv.committed (h : GuardianInv env world) {t : GuardianRequirementTransition}
    {effect : GuardianRequirementEffect} (hsep : SeparateNonces world.host input)
    (hcom : Commits world.host input t) (hspe : EffectSpec env world.host.state t effect)
    (hste : world.host.step env input=world.host.applyEffect effect (GuardianHost.completes t)) :
    GuardianInv env (world.step env input) := by
  have hnon : world.host.disableNonce ≤ (world.host.step env input).disableNonce := by
    rw [hste]
    exact le_raisedTo _ _
  have hwat : world.host.loweredHighWater ≤ (world.host.step env input).loweredHighWater := by
    rw [hste]
    exact le_raisedTo _ _
  refine ⟨?_,?_,?_,?_,?_⟩
  · intro live hliv
    change (world.host.step env input).requirement=some live at hliv
    rw [hste] at hliv
    obtain ⟨⟨pinnedMaster,hpin,hros⟩,hlow⟩ := hspe.installed live hliv
    obtain ⟨context,hcon,rfl⟩ := Option.map_eq_some_iff.mp hpin
    refine ⟨context,?_,hros,fun lowered hnex => ?_⟩
    · change (world.host.step env input).context=some context
      rw [hste]
      exact hcon
    · obtain ⟨pinned,fortressId,hpin',hfor,hver,-,-⟩ := hlow lowered hnex
      simp only [GuardianHost.state,hcon,Option.map_some,Option.some.injEq] at hpin' hfor
      rw [hpin',hfor]
      exact hver
  · refine List.forall_mem_append.mpr ⟨fun nonce hmem => (h.burned nonce hmem).trans hnon,?_⟩
    exact fun nonce hmem => mem_burnedBy hmem hnon h.armed
  · intro armed harm
    change (world.host.step env input).breakGlass=some armed at harm
    rw [hste,GuardianHost.applyEffect] at harm
    cases hcos : GuardianHost.completes t with
    | true =>
      rw [hcos] at harm
      cases harm
    | false =>
      rw [hcos] at harm
      exact (h.armed armed harm).trans hnon
  · refine List.forall_mem_append.mpr ⟨fun body hboy => (h.dropped body hboy).trans hwat,fun body hboy => ?_⟩
    obtain ⟨hbef,haft⟩ := mem_droppedBy hboy
    -- another lowered threshold with this nonce would have been carried
    have hsup : effect.supersedesLoweredNonce=some body.disableNonce := by
      obtain ⟨live,lowered,hliv,hlow,hboy⟩ := lowered_eq_some hbef
      have hpri : world.host.state.requirement.bind (·.loweredNonce)=some body.disableNonce := by
        simp [GuardianHost.state,hliv,GuardianRevocationRequirement.loweredNonce,hlow,hboy]
      rw [hspe.superseded,GuardianRequirementState.supersededNonce,hpri]
      refine if_neg fun hsam => ?_
      obtain ⟨live',hliv',hnon'⟩ := Option.bind_eq_some_iff.mp hsam.symm
      obtain ⟨lowered',hlow',hequ⟩ := Option.map_eq_some_iff.mp hnon'
      obtain ⟨-,-,-,-,-,-,hcar⟩ := (hspe.installed live' hliv').lowered lowered' hlow'
      rw [hcom.carried] at hcar
      refine hsep body hbef lowered'.body hcar (fun hbod => haft ?_) hequ
      rw [hste,GuardianHost.lowered,GuardianHost.applyEffect,hliv',Option.bind_some,hlow',Option.map_some,
        hbod]
    change body.disableNonce ≤ (world.host.step env input).loweredHighWater
    rw [hste,GuardianHost.applyEffect,hsup]
    exact le_max_right _ _
  · intro body hboy hmem
    change (world.host.step env input).lowered=some body at hboy
    rcases List.mem_append.mp hmem with hmem | hmem
    · rw [hste] at hboy
      obtain ⟨live,lowered,hliv,hlow,rfl⟩ := lowered_eq_some hboy
      obtain ⟨-,-,-,-,-,habo,-⟩ := (hspe.installed live hliv).lowered lowered hlow
      exact absurd habo (not_lt.mpr (h.dropped _ hmem))
    · exact (mem_droppedBy hmem).2 hboy

theorem GuardianInv.step (h : GuardianInv env world)
    (hsep : SeparateNonces world.host input) : GuardianInv env (world.step env input) := by
  rcases step_cases input with hkep | ⟨t,effect,hcom,haut,hste⟩
  · exact h.kept hkep
  · exact h.committed hsep hcom (authorize_ok haut).2 hste

theorem GuardianInv.run {inputs : List GuardianInput} (h : GuardianInv env world)
    (hsep : SeparateRun env world inputs) : GuardianInv env (world.run env inputs) := by
  induction inputs generalizing world with
  | nil => exact h
  | cons input inputs ih => exact ih (h.step hsep.1) hsep.2

theorem GuardianInv.authorized (h : GuardianInv env world)
    (hwea : Weakens world.host (world.host.step env input)) : AuthorizedWeakening env world input := by
  obtain ⟨live,hliv,hwer⟩ := hwea
  rcases step_cases input with hkep | ⟨t,effect,hcom,haut,hste⟩
  · exact absurd (hwer live (hkep.requirement.trans hliv)) (lt_irrefl _)
  · cases hcom with
    | tick armed now persisted harm hela => exact ⟨armed,harm,hela⟩
    | operatorSet next auth loweredThreshold persisted =>
      refine ⟨fun nonce hnon => Int.lt_add_one_of_le (h.burned nonce hnon),?_⟩
      have hcod := (authorize_ok haut).1
      cases hcod with
      | decrease method hmet hauh => exact signed_of_decreaseAuthMethod h.verified hmet
      | install hreq hkee =>
        have hbel := hwer _ (by rw [hste]; exact hreq)
        exact absurd hbel (not_lt.mpr (hkee live hliv))
      | nothing hnone hreq =>
        change world.host.requirement=none at hnone
        rw [hnone] at hliv
        cases hliv

end Invariant

/-- Whatever is committed, from a host that has booted, a guardian requirement is weakened only where it was signed for
or a countdown has elapsed; and where lowered thresholds that follow each other have nonces of their own, none that was
dropped is in force again. -/
theorem guardian_requirement_not_weakened (env : MeshEnv) (world : GuardianWorld) (inputs : List GuardianInput)
    (hstart : GuardianInv env world) (hseparate : SeparateRun env world inputs) :
    (∀ input, Weakens (world.run env inputs).host ((world.run env inputs).host.step env input) →
      AuthorizedWeakening env (world.run env inputs) input) ∧
    ∀ body, (world.run env inputs).host.lowered=some body → body∉(world.run env inputs).dropped := by
  have h := hstart.run hseparate
  exact ⟨fun input => h.authorized,h.inForce⟩

namespace Sample

open Text Cognitive.StateStore

def env : MeshEnv where
  verify _ _ _ := true
  sign _ _ := []
  sha256 _ := []
  dateParse _ := none
  decodePolicyBlob _ := none

def context : FederationContext := ⟨⟨"AA","f-1","2026-01-01T00:00:00.000Z"⟩,"f-1",rfl⟩

def keyOf (b : UInt8) : String := toBase64url (List.replicate 32 b)

def guardian (id : String) (b : UInt8) : GuardianIdentity := ⟨id,keyOf b,"human","2026-01-01T00:00:00.000Z"⟩

def rosterOf (version : Int) (first second : GuardianIdentity) : GuardianRoster where
  m := 2
  n := 2
  guardians := [first,second]
  signatureScheme := "ed25519-v1"
  version
  createdAt := "2026-01-01T00:00:00.000Z"
  fortressId := "f-1"
  masterSignature := "AA"

theorem canonicalGuardianKey_keyOf (b : UInt8) : canonicalGuardianKey (keyOf b)=.ok (keyOf b) := by
  have hdec : decodeBase64url (keyOf b)=List.replicate 32 b := decodeBase64url_toBase64url _
  rw [canonicalGuardianKey,hdec]
  simp only [Outcome.require_bind_eq_ok,List.length_replicate]
  exact ⟨rfl,rfl,rfl⟩

variable {a b : UInt8}

theorem keyOf_injective (h : keyOf a=keyOf b) : a=b := by
  have hbyt := congrArg decodeBase64url h
  rw [keyOf,keyOf,decodeBase64url_toBase64url,decodeBase64url_toBase64url] at hbyt
  exact (List.replicate_inj.mp hbyt).2.resolve_left (by decide)

variable {version : Int}

theorem rosterOf_safe (hver : version.natAbs ≤ 9) (first second : GuardianIdentity) :
    numbersSafe (rosterOf version first second).body=true := by
  have hgua : ∀ g : GuardianIdentity, numbersSafe g.value=true := by
    intro g
    rw [GuardianIdentity.value,numbersSafe_objectOf (by simp)]
    simp only [List.mem_cons,List.not_mem_nil,or_false,Prod.mk.injEq,Option.some.injEq]
    rintro key value (⟨-,rfl⟩ | ⟨-,rfl⟩ | ⟨-,rfl⟩ | ⟨-,rfl⟩) <;> rfl
  rw [GuardianRoster.body,numbersSafe_objectOf (by simp)]
  simp only [List.mem_cons,List.not_mem_nil,or_false,Prod.mk.injEq,Option.some.injEq,rosterOf,List.map_cons,
    List.map_nil]
  rintro key value (⟨-,rfl⟩ | ⟨-,rfl⟩ | ⟨-,rfl⟩ | ⟨-,rfl⟩ | ⟨-,rfl⟩ | ⟨-,rfl⟩ | ⟨-,rfl⟩)
  · decide
  · decide
  · simp [numbersSafe,itemsSafe,hgua]
  · rfl
  · simp only [numbersSafe,decide_eq_true_eq]
    omega
  · rfl
  · rfl

theorem shape_rosterOf {first second : String} (hids : second≠first) (hkey : b≠a) :
    validateRosterShape (rosterOf version (guardian first a) (guardian second b))=.ok () := by
  have hdis : keyOf b≠keyOf a := fun h => hkey (keyOf_injective h)
  simp [validateRosterShape,rosterOf,validateGuardians,guardian,canonicalGuardianKey_keyOf,require,bind,
    Except.bind,hids,hdis]

theorem verify_rosterOf {verifier : MeshEnv} {first second : String}
    (hpos : 1 ≤ version) (hver : version.natAbs ≤ 9) (hids : second≠first) (hkey : b≠a)
    (hsig : verifier.signed "AA"
      (utf8Bytes (rosterOf version (guardian first a) (guardian second b)).body.canonicalText) "AA" = true) :
    (verifyGuardianRoster verifier (rosterOf version (guardian first a) (guardian second b))
      context.pinnedMaster).isOk=true := by
  have hbyt := canonicalizeToBytes_of_safe (rosterOf_safe hver (guardian first a) (guardian second b))
  have hfor : (rosterOf version (guardian first a) (guardian second b)).fortressId =
      context.pinnedMaster.fortressId := rfl
  have hsch : (rosterOf version (guardian first a) (guardian second b)).signatureScheme=signatureSchemeV1 := rfl
  have hfir : 1 ≤ (rosterOf version (guardian first a) (guardian second b)).version := hpos
  have hvey : verifyGuardianRoster verifier (rosterOf version (guardian first a) (guardian second b))
      context.pinnedMaster=.ok () := by
    rw [verifyGuardianRoster,shape_rosterOf hids hkey]
    have hmas : verifier.signed (rosterOf version (guardian first a) (guardian second b)).masterSignature
        (utf8Bytes (rosterOf version (guardian first a) (guardian second b)).body.canonicalText)
        context.pinnedMaster.publicKey=true := hsig
    simp only [hbyt,bind,Except.bind,require,if_pos hfor,if_pos hsch,if_pos hfir,if_pos hmas]
  rw [hvey]
  rfl

theorem signed (value : Json) (hsaf : numbersSafe value=true) :
    signedByMaster env "AA" value context.pinnedMaster=true :=
  signedByMaster_iff.mpr ⟨_,canonicalizeToBytes_of_safe hsaf,rfl⟩

def pinned : GuardianRoster := rosterOf 1 (guardian "g-1" 1) (guardian "g-2" 2)

theorem verify_pinned : (verifyGuardianRoster env pinned context.pinnedMaster).isOk=true :=
  verify_rosterOf (by decide) (by decide) (by decide) (by decide) rfl

variable (effectiveM : Int)

def loweredTo : LoweredThresholdAuthorization :=
  ⟨⟨loweredThresholdAuthorizationDomain,"f-1",1,effectiveM,1⟩,"AA"⟩

theorem verify_loweredTo {effectiveM : Int} (h : 1 ≤ effectiveM ∧ effectiveM ≤ 2) :
    verifyLoweredThresholdAuthorization env (loweredTo effectiveM) "f-1" 1 2 context.pinnedMaster=true := by
  have hsaf : numbersSafe (loweredThresholdAuthorizationValue "f-1" 1 effectiveM 1)=true := by
    rw [loweredThresholdAuthorizationValue,numbersSafe_objectOf (by simp)]
    simp only [List.mem_cons,List.not_mem_nil,or_false,Prod.mk.injEq,Option.some.injEq]
    rintro key value (⟨-,rfl⟩ | ⟨-,rfl⟩ | ⟨-,rfl⟩ | ⟨-,rfl⟩ | ⟨-,rfl⟩)
    · rfl
    · rfl
    · decide
    · simp only [numbersSafe,decide_eq_true_eq]
      omega
    · decide
  have hinr : isSafeInteger effectiveM=true := decide_eq_true (by omega)
  have hone : isSafeInteger 1=true := by decide
  simp [verifyLoweredThresholdAuthorization,loweredTo,hinr,hone,h.1,h.2,signed _ hsaf]

def requirementOf : GuardianRevocationRequirement := ⟨pinned,none,some (loweredTo effectiveM)⟩

def installOf : GuardianInput := .operatorSet (some (requirementOf effectiveM)) none none true

def masterAuthorization : MasterDisableAuthorization :=
  ⟨⟨masterDisableAuthorizationDomain,"f-1",1,.lower,some 1⟩,"AA"⟩

def lowerInput : GuardianInput := .operatorSet (some (requirementOf 1)) (some ⟨none,some masterAuthorization⟩) none true

/-- A host that was provisioned and never had a requirement. -/
def fresh : GuardianHost := ⟨some context,false,none,false,0,0,0,none⟩

def hostOf (generation : Nat) (disableNonce : Int) : GuardianHost :=
  ⟨some context,false,some (requirementOf effectiveM),false,generation,disableNonce,0,none⟩

theorem verifyNextRoster_requirementOf {state : GuardianRequirementState}
    (hpin : state.pinnedMaster=some context.pinnedMaster) :
    state.verifyNextRoster env (requirementOf effectiveM)=.ok () := by
  simp only [GuardianRequirementState.verifyNextRoster,hpin]
  exact if_pos verify_pinned

theorem requireLoweredThreshold_loweredTo {state : GuardianRequirementState} {effectiveM : Int}
    (hbou : 1 ≤ effectiveM ∧ effectiveM ≤ 2) (hpin : state.pinnedMaster=some context.pinnedMaster)
    (hfor : state.fortressId=some "f-1") (hwat : state.guardianLoweredHighWater < 1) :
    state.requireLoweredThresholdForNext env (requirementOf effectiveM) (some (loweredTo effectiveM))=.ok () := by
  have hver : verifyLoweredThresholdAuthorization env (loweredTo effectiveM) "f-1"
      (requirementOf effectiveM).roster.version (requirementOf effectiveM).roster.m context.pinnedMaster=true :=
    verify_loweredTo hbou
  have habo : state.guardianLoweredHighWater < (loweredTo effectiveM).body.disableNonce := hwat
  simp only [GuardianRequirementState.requireLoweredThresholdForNext,hpin,hfor,bind,Except.bind,require,
    if_pos hver,if_pos habo]

theorem fresh_install : fresh.step env (installOf 2)=hostOf 2 1 0 := by
  have hros : fresh.state.verifyNextRoster env (requirementOf 2)=.ok () := verifyNextRoster_requirementOf 2 rfl
  have hlow : fresh.state.requireLoweredThresholdForNext env (requirementOf 2) (requirementOf 2).loweredThreshold =
      .ok () := requireLoweredThreshold_loweredTo (by decide) rfl rfl (by decide)
  have haut : fresh.state.authorizeInstall env (requirementOf 2) .increase =
      .ok ⟨some (requirementOf 2),false,false,some .operator,none,none,.increase⟩ := by
    rw [GuardianRequirementState.authorizeInstall,hros,hlow]
    rfl
  have hcla : fresh.state.classify (some (requirementOf 2))=.increase := rfl
  simp only [GuardianHost.step,installOf,GuardianHost.commitGuardianRequirementTransition,
    GuardianRequirementState.authorizeGuardianRequirementTransition,hcla,haut]
  rfl

theorem hostOf_lower : (hostOf 2 1 0).step env lowerInput=hostOf 1 2 1 := by
  have hsaf : numbersSafe (masterDisableAuthorizationValue "f-1" 1 .lower (some 1))=true := by decide
  have hmas : verifyMasterDisableAuthorization env masterAuthorization "f-1" 1 .lower (some 1) context.pinnedMaster =
      true := by
    simp [verifyMasterDisableAuthorization,masterAuthorization,signed _ hsaf]
  have hmet : (hostOf 2 1 0).state.decreaseAuthMethod env (some (requirementOf 1))
      (some ⟨none,some masterAuthorization⟩)=some .master := by
    change (if verifyMasterDisableAuthorization env masterAuthorization "f-1" 1 .lower (some 1) context.pinnedMaster then
      some AuthMethod.master else none)=_
    exact if_pos hmas
  have hros : (hostOf 2 1 0).state.verifyNextRoster env (requirementOf 1)=.ok () :=
    verifyNextRoster_requirementOf 1 rfl
  have hlow : (hostOf 2 1 0).state.requireLoweredThresholdForNext env (requirementOf 1) (some (loweredTo 1)) =
      .ok () := requireLoweredThreshold_loweredTo (by decide) rfl rfl (by decide)
  have hins : (hostOf 2 1 0).state.installDecrease env (some (requirementOf 1)) none=.ok (some (requirementOf 1)) := by
    have hcar : ((none : Option LoweredThresholdAuthorization) <|> (requirementOf 1).loweredThreshold) =
        some (loweredTo 1) := rfl
    simp only [GuardianRequirementState.installDecrease,GuardianRequirementState.loweredNext,hros,hcar,
      hlow]
    rfl
  have haut : (hostOf 2 1 0).state.authorizeDecrease env (some (requirementOf 1))
      (some ⟨none,some masterAuthorization⟩) none =
      .ok ⟨some (requirementOf 1),false,false,some .master,some 1,none,.decrease⟩ := by
    simp only [GuardianRequirementState.authorizeDecrease,hmet,hins]
    rfl
  have hcla : (hostOf 2 1 0).state.classify (some (requirementOf 1))=.decrease := rfl
  simp only [GuardianHost.step,lowerInput,GuardianHost.commitGuardianRequirementTransition,
    GuardianRequirementState.authorizeGuardianRequirementTransition,hcla,haut]
  rfl

theorem hostOf_raise : ∃ host, (hostOf 1 2 1).step env (installOf 2)=host ∧ host.lowered=some (loweredTo 2).body := by
  have hros : (hostOf 1 2 1).state.verifyNextRoster env (requirementOf 2)=.ok () :=
    verifyNextRoster_requirementOf 2 rfl
  have hlow : (hostOf 1 2 1).state.requireLoweredThresholdForNext env (requirementOf 2)
      (requirementOf 2).loweredThreshold=.ok () := requireLoweredThreshold_loweredTo (by decide) rfl rfl (by decide)
  have haut : (hostOf 1 2 1).state.authorizeInstall env (requirementOf 2) .increase =
      .ok ⟨some (requirementOf 2),false,false,some .operator,none,none,.increase⟩ := by
    rw [GuardianRequirementState.authorizeInstall,hros,hlow]
    rfl
  have hcla : (hostOf 1 2 1).state.classify (some (requirementOf 2))=.increase := rfl
  refine ⟨_,rfl,?_⟩
  simp only [GuardianHost.step,installOf,GuardianHost.commitGuardianRequirementTransition,
    GuardianRequirementState.authorizeGuardianRequirementTransition,hcla,haut]
  rfl

theorem fresh_inv : GuardianInv env ⟨fresh,[],[]⟩ := by
  refine ⟨?_,?_,?_,?_,?_⟩ <;> intro x hx <;> cases hx

end Sample

open Sample in
/-- The operator installs a threshold of 2 that the master signed, the master lowers it to 1 at the same nonce, and the
operator has the first one in force again. -/
theorem dropped_threshold_in_force_again :
    ∃ body, (GuardianWorld.run env ⟨fresh,[],[]⟩ [installOf 2,lowerInput,installOf 2]).host.lowered=some body ∧
      body∈(GuardianWorld.run env ⟨fresh,[],[]⟩ [installOf 2,lowerInput,installOf 2]).dropped := by
  obtain ⟨host,hrai,hfor⟩ := hostOf_raise
  have hdro : (loweredTo 2).body∈droppedBy (hostOf 2 1 0) (hostOf 1 2 1) := by decide
  refine ⟨(loweredTo 2).body,?_,?_⟩
  · rw [GuardianWorld.run,List.foldl_cons,List.foldl_cons,List.foldl_cons,List.foldl_nil]
    simp only [GuardianWorld.step,fresh_install,hostOf_lower,hrai]
    exact hfor
  · rw [GuardianWorld.run,List.foldl_cons,List.foldl_cons,List.foldl_cons,List.foldl_nil]
    simp only [GuardianWorld.step,fresh_install,hostOf_lower]
    exact List.mem_append_left _ (List.mem_append_right _ hdro)

open Sample in
theorem not_weakened_fresh :
    AuthorizedWeakening env (GuardianWorld.run env ⟨fresh,[],[]⟩ [installOf 2]) lowerInput ∧
      (loweredTo 2).body∉(GuardianWorld.run env ⟨fresh,[],[]⟩ [installOf 2]).dropped := by
  have hsep : SeparateRun env ⟨fresh,[],[]⟩ [installOf 2] := by
    refine ⟨?_,trivial⟩
    intro body hbod
    cases hbod
  have hhos : (GuardianWorld.run env ⟨fresh,[],[]⟩ [installOf 2]).host=hostOf 2 1 0 := fresh_install
  obtain ⟨haut,hdro⟩ :=
    guardian_requirement_not_weakened env ⟨fresh,[],[]⟩ [installOf 2] fresh_inv hsep
  refine ⟨haut lowerInput ?_,hdro _ ?_⟩
  · rw [hhos,hostOf_lower]
    refine ⟨requirementOf 2,rfl,fun live hliv => ?_⟩
    cases hliv
    decide
  · rw [hhos]
    rfl

end CastleWall.Federation
