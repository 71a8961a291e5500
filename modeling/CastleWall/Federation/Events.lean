import CastleWall.Federation.SyncState

/-! # The events of a federation

`v1/federation-revocation.ts` and the staging of `principal-policy/dashboard.ts`: a batch of events is taken whole or
in part, evictions first, and an eviction only adds to the nodes that are revoked. -/

namespace CastleWall.Federation

open Mesh

inductive FederationEventBody where
  | eviction (nodeId : String) (evictionSerial : Nat)
  | policyBundle (marker : FederationAppliedPolicyVersion)
  | other (kind : String)

structure FederationEvent where
  (eventId originNodeId : String)
  sequence : Nat
  body : FederationEventBody
  previousHash : Option String
  eventHash : String

def FederationEvent.isReserved (event : FederationEvent) : Bool :=
  match event.body with
  | .other _ => false
  | _ => true

structure FederationDashboardState where
  eventLog : List FederationEvent
  revoked : Finset String
  evictionMaxSerial : Nat
  operatorPolicy : Option FederationAppliedPolicyVersion
  appliedPolicyVersions : OrderedMap String FederationAppliedPolicyVersion
  nodes : OrderedMap String FederationNodeView

structure FederationEnv where
  mesh : MeshEnv
  context : Option FederationContext
  /-- The node of this fortress. -/
  (nodeId nodeMode : String)
  eventHash : String → String → Nat → FederationEventBody → Option String → String
  /-- The payload, the principal's certificate and the operator's signature, the serial number apart. -/
  evictionVerified : FederationEvent → Bool
  /-- `foldVerifiedFederationPolicyBundleEvent`. -/
  foldPolicy : FederationEvent → Option FederationAppliedPolicyVersion →
    OrderedMap String FederationAppliedPolicyVersion →
    Option (Option FederationAppliedPolicyVersion × OrderedMap String FederationAppliedPolicyVersion)
  /-- The revoked roots and the serial number that the trust root holds. -/
  revokedRootPubkeys : Finset String
  highestRevocationSerial : Nat

def federationOperatorAuthorityOrigin (fortressId : String) : String := "operator:" ++ fortressId

def isFederationOperatorAuthorityEvent (event : FederationEvent) (fortressId : String) : Bool :=
  event.originNodeId=federationOperatorAuthorityOrigin fortressId && event.isReserved

structure NodeUpdate where
  attestationStatus : Option AttestationStatus
  nodeMode : Option String
  lastSequence : Option Nat
  appliedPolicy : Option FederationAppliedPolicyVersion

def buildFederationNodeUpsert (nodes : OrderedMap String FederationNodeView) (nodeId : String) (update : NodeUpdate) :
    FederationNodeView :=
  let existing := nodes.get nodeId
  { attestationStatus := (update.attestationStatus <|> existing.map (·.attestationStatus)).getD .unknown
    nodeMode := (update.nodeMode <|> existing.map (·.nodeMode)).getD "unknown"
    lastSequence := (update.lastSequence <|> existing.map (·.lastSequence)).getD 0
    appliedPolicy := update.appliedPolicy <|> existing.bind (·.appliedPolicy) }

def upsertNode (nodes : OrderedMap String FederationNodeView) (nodeId : String) (update : NodeUpdate) :
    OrderedMap String FederationNodeView :=
  nodes.set nodeId (buildFederationNodeUpsert nodes nodeId update)

namespace FederationDashboardState

variable (env : FederationEnv) (state : FederationDashboardState)

def upsertFederationNode (nodeId : String) (update : NodeUpdate) : FederationDashboardState :=
  { state with nodes := upsertNode state.nodes nodeId update }

def lastOf (originNodeId : String) : Option FederationEvent :=
  state.eventLog.reverse.find? fun event => event.originNodeId=originNodeId

def appendLocalFederationEvent (kind : String) : FederationDashboardState :=
  let previous := state.lastOf env.nodeId
  let sequence := (previous.map (·.sequence)).getD 0+1
  let eventId := env.nodeId ++ ":" ++ toString sequence
  let previousHash := previous.map (·.eventHash)
  { state with
    eventLog := state.eventLog ++
      [⟨eventId,env.nodeId,sequence,.other kind,previousHash,
        env.eventHash eventId env.nodeId sequence (.other kind) previousHash⟩] }

variable (event : FederationEvent)

def validateFederationEventHash : Bool :=
  event.eventHash=env.eventHash event.eventId event.originNodeId event.sequence event.body event.previousHash

/-- `foldFederationNodeEvictionEvent`: a serial number is used once. -/
def foldFederationEvictionEvent (nodeId : String) (evictionSerial : Nat) :
    Option FederationDashboardState :=
  if evictionSerial ≤ state.evictionMaxSerial then none
  else if env.evictionVerified event=false then none
  else some { state with revoked := insert nodeId state.revoked, evictionMaxSerial := evictionSerial }

def foldReserved : Option FederationDashboardState :=
  match event.body with
  | .eviction nodeId evictionSerial => foldFederationEvictionEvent env state event nodeId evictionSerial
  | .policyBundle _ =>
    match env.foldPolicy event state.operatorPolicy state.appliedPolicyVersions with
    | none => none
    | some (current,appliedByNode) =>
      some { state with operatorPolicy := current, appliedPolicyVersions := appliedByNode }
  | .other _ => none

variable (fortressId : String)

def admitEvent (event : FederationEvent) : Option FederationDashboardState :=
  let last := state.lastOf event.originNodeId
  if validateFederationEventHash env event=false then none
  else if event.eventId∈state.eventLog.map (·.eventId) then none
  else if event.sequence ≤ (last.map (·.sequence)).getD 0 then none
  else if event.previousHash≠last.map (·.eventHash) then none
  else if event.isReserved || event.originNodeId=federationOperatorAuthorityOrigin fortressId then
    if isFederationOperatorAuthorityEvent event fortressId then foldReserved env state event else none
  else some state

def rosterAfter (event : FederationEvent) : OrderedMap String FederationNodeView :=
  let nodes :=
    match event.body, state.operatorPolicy with
    | .policyBundle _, some marker =>
      upsertNode state.nodes env.nodeId ⟨some .verified,some env.nodeMode,none,some marker⟩
    | _, _ => state.nodes
  if event.originNodeId=federationOperatorAuthorityOrigin fortressId then nodes
  else upsertNode nodes event.originNodeId ⟨some .verified,none,some event.sequence,none⟩

structure Staged where
  (accepted rejected : List FederationEvent)
  nextState : FederationDashboardState

def stageEvent (staged : Staged) (event : FederationEvent) : Staged :=
  match admitEvent env staged.nextState fortressId event with
  | none => { staged with rejected := staged.rejected++[event] }
  | some folded =>
    { staged with
      accepted := staged.accepted++[event]
      nextState := { folded with
        eventLog := folded.eventLog++[event], nodes := rosterAfter env folded fortressId event } }

variable (events : List FederationEvent)

def byNode : List FederationEvent :=
  (events.map (·.originNodeId)).eraseDups.flatMap fun nodeId =>
    (events.filter fun event => event.originNodeId=nodeId).insertionSort fun a b => a.sequence ≤ b.sequence

def stageFederationEventsAfterRevocationGate (events : List FederationEvent) : Staged :=
  (byNode events).foldl (stageEvent env fortressId) ⟨[],[],state⟩

/-- An event of a reserved kind comes from the operator, and the operator sends no other. -/
def reservedEventBatchRejection (events : List FederationEvent) : Bool :=
  events.any fun event =>
    event.isReserved != decide (event.originNodeId=federationOperatorAuthorityOrigin fortressId)

def pendingEvictionNodeIds : Finset String :=
  (events.filterMap fun event =>
    match event.body with
    | .eviction nodeId _ => some nodeId
    | _ => none).toFinset

def acceptFederationEventsFailClosed (events : List FederationEvent)
    (senderNodeId : Option String) (wireVersionSupported : Bool) : Staged :=
  if events=[] then ⟨[],[],state⟩
  else if wireVersionSupported=false then ⟨[],events,state⟩
  else if reservedEventBatchRejection fortressId events then ⟨[],events,state⟩
  else
    let authority := events.filter fun event => isFederationOperatorAuthorityEvent event fortressId
    let ordinary := events.filter fun event => !isFederationOperatorAuthorityEvent event fortressId
    let evictions := stageFederationEventsAfterRevocationGate env state fortressId authority
    let projected := state.revoked ∪ pendingEvictionNodeIds evictions.accepted
    let senderRevoked := senderNodeId.any fun sender => decide (sender∈projected)
    let refused := ordinary.filter fun event => senderRevoked || decide (event.originNodeId∈projected)
    let candidates := ordinary.filter fun event => !(senderRevoked || decide (event.originNodeId∈projected))
    let appended := stageFederationEventsAfterRevocationGate env state fortressId (evictions.accepted++candidates)
    { appended with rejected := evictions.rejected++refused++appended.rejected }

def appendFederationEvents (senderNodeId : Option String)
    (wireVersionSupported : Bool) : Staged :=
  match env.context with
  | none => ⟨[],events,state⟩
  | some context =>
    acceptFederationEventsFailClosed env state context.fortressId events senderNodeId wireVersionSupported

variable {env state}

theorem pendingEvictionNodeIds_append (events more : List FederationEvent) :
    pendingEvictionNodeIds (events++more)=pendingEvictionNodeIds events ∪ pendingEvictionNodeIds more := by
  rw [pendingEvictionNodeIds,List.filterMap_append,List.toFinset_append]
  rfl

/-- An event that is admitted revokes what it says, and the log is left to the staging. -/
theorem admitEvent_spec {fortressId : String} {event : FederationEvent} {folded : FederationDashboardState}
    (h : admitEvent env state fortressId event=some folded) :
    folded.eventLog=state.eventLog ∧ folded.revoked=state.revoked ∪ pendingEvictionNodeIds [event] := by
  unfold admitEvent at h
  dsimp only at h
  split_ifs at h with _ _ _ _ _ hres
  · unfold foldReserved at h
    cases hbod : event.body with
    | eviction nodeId serial =>
      simp only [hbod,foldFederationEvictionEvent] at h
      split_ifs at h
      cases h
      simp [pendingEvictionNodeIds,hbod]
    | policyBundle marker =>
      simp only [hbod] at h
      split at h
      · cases h
      · cases h
        simp [pendingEvictionNodeIds,hbod]
    | other kind => simp [hbod] at h
  · cases h
    refine ⟨rfl,?_⟩
    cases hbod : event.body with
    | eviction nodeId serial => simp_all [FederationEvent.isReserved]
    | policyBundle marker => simp_all [FederationEvent.isReserved]
    | other kind => simp [pendingEvictionNodeIds,hbod]

theorem stageEvent_revoked (staged : Staged) (event : FederationEvent) :
    staged.nextState.revoked ⊆ (stageEvent env fortressId staged event).nextState.revoked := by
  unfold stageEvent
  split
  · exact Finset.Subset.refl _
  · next folded h =>
      dsimp only
      rw [(admitEvent_spec h).2]
      exact Finset.subset_union_left

theorem stage_revoked (events : List FederationEvent) (staged : Staged) :
    staged.nextState.revoked ⊆ (events.foldl (stageEvent env fortressId) staged).nextState.revoked := by
  induction events generalizing staged with
  | nil => exact Finset.Subset.refl _
  | cons event rest ih => exact (stageEvent_revoked fortressId staged event).trans (ih _)

theorem appendFederationEvents_revoked (senderNodeId : Option String)
    (wireVersionSupported : Bool) :
    state.revoked ⊆ (appendFederationEvents env state events senderNodeId wireVersionSupported).nextState.revoked := by
  unfold appendFederationEvents
  split
  · exact Finset.Subset.refl _
  · unfold acceptFederationEventsFailClosed
    split_ifs
    · exact Finset.Subset.refl _
    · exact Finset.Subset.refl _
    · exact Finset.Subset.refl _
    · dsimp only
      exact stage_revoked _ _ ⟨[],[],state⟩

end FederationDashboardState

end CastleWall.Federation
