import CastleWall.Federation.Events

/-! # The gate of a batch, with its callbacks

`v1/federation-revocation.ts`, `acceptFederationEventsFailClosed` with the callbacks of `principal-policy/dashboard.ts`:
a callback can be missing and a callback can throw. -/

namespace CastleWall.Federation

inductive BatchReason where
  | unsupportedWireVersion
  | operatorAuthorityInvalid
  | revocationStateUnavailable
  | appendFailed
  | nodeRevoked
  | revocationValidationUnavailable
  /-- The reasons of the staging. -/
  | staging

structure BatchResult where
  accepted : List FederationEvent
  rejected : List (String × BatchReason)
  (senderRevoked revocationStateAvailable batchRejected : Bool)

/-- The callbacks of the gate over a state: undefined is `none`, a call that throws is an error and leaves the state. -/
structure GateCallbacks (σ : Type) where
  isNodeRevoked : Option (String → Except Unit Bool)
  validateEvents : Option (List FederationEvent → Except Unit (List FederationEvent × List FederationEvent))
  appendEvents : List FederationEvent → Except Unit (List FederationEvent × List FederationEvent × σ)

namespace BatchGate

open FederationDashboardState

variable {σ : Type}

def rejectAllForBatchReason (events : List FederationEvent) (reason : BatchReason) : BatchResult :=
  ⟨[],events.map fun event => (event.eventId,reason),false,true,true⟩

def rejectAllForUnavailableRevocation (events : List FederationEvent) : BatchResult :=
  ⟨[],events.map fun event => (event.eventId,.revocationStateUnavailable),false,false,true⟩

def idsToEvaluate (events : List FederationEvent) (senderNodeId : Option String) : List String :=
  senderNodeId.toList++events.map (·.originNodeId)

/-- What the callback says of each node it is asked about, or nothing when a call throws. -/
def evaluateRevocationState (nodeIds : List String) (isNodeRevoked : String → Except Unit Bool) :
    Option (String → Bool) :=
  if nodeIds.all fun nodeId => (isNodeRevoked nodeId).isOk then
    some fun nodeId => nodeId∈nodeIds && (isNodeRevoked nodeId).toOption=some true
  else none

def validateEventsForProjection (callbacks : GateCallbacks σ) (events : List FederationEvent) :
    Except Unit (List FederationEvent × List (String × BatchReason)) :=
  match callbacks.validateEvents with
  | some validateEvents => do
    let (accepted,rejected) ← validateEvents events
    return (accepted,rejected.map fun event => (event.eventId,.staging))
  | none => .ok ([],events.map fun event => (event.eventId,.revocationValidationUnavailable))

/-- The state is the one that `appendEvents` leaves. -/
def acceptFederationEventsFailClosed (callbacks : GateCallbacks σ) (state : σ) (fortressId : String)
    (events : List FederationEvent) (senderNodeId : Option String) (wireVersionSupported : Bool) : BatchResult × σ :=
  if events=[] then (⟨[],[],false,true,false⟩,state)
  else if wireVersionSupported=false then (rejectAllForBatchReason events .unsupportedWireVersion,state)
  else if reservedEventBatchRejection fortressId events then
    (rejectAllForBatchReason events .operatorAuthorityInvalid,state)
  else
    match callbacks.isNodeRevoked.bind (evaluateRevocationState (idsToEvaluate events senderNodeId)) with
    | none => (rejectAllForUnavailableRevocation events,state)
    | some revoked =>
      let evictionEvents := events.filter fun event => isFederationOperatorAuthorityEvent event fortressId
      let ordinaryEvents := events.filter fun event => !isFederationOperatorAuthorityEvent event fortressId
      match if evictionEvents=[] then .ok ([],[]) else validateEventsForProjection callbacks evictionEvents with
      | .error _ => (rejectAllForBatchReason events .appendFailed,state)
      | .ok (evictions,evictionRejections) =>
        let projectedRevoked := fun nodeId => revoked nodeId || decide (nodeId∈pendingEvictionNodeIds evictions)
        let senderRevoked := senderNodeId.any projectedRevoked
        let refused := ordinaryEvents.filter fun event => senderRevoked || projectedRevoked event.originNodeId
        let candidates := ordinaryEvents.filter fun event => !(senderRevoked || projectedRevoked event.originNodeId)
        match if evictions++candidates=[] then .ok ([],[],state) else callbacks.appendEvents (evictions++candidates) with
        | .error _ => (rejectAllForBatchReason events .appendFailed,state)
        | .ok (accepted,rejected,next) =>
          (⟨accepted,evictionRejections++refused.map (fun event => (event.eventId,.nodeRevoked)) ++
            rejected.map (fun event => (event.eventId,.staging)),senderRevoked,true,false⟩,next)

section Gate

variable {callbacks : GateCallbacks σ} {state : σ} {fortressId : String} {events : List FederationEvent}
  {senderNodeId : Option String} {wireVersionSupported : Bool} {result : BatchResult} {next : σ}

/-- Nothing is appended, or `appendEvents` is given the evictions that were validated and the ordinary events of nodes
that are not revoked. -/
theorem accept_cases (h : acceptFederationEventsFailClosed callbacks state fortressId events senderNodeId
      wireVersionSupported=(result,next)) :
    (result.accepted=[] ∧ next=state) ∨
    ∃ isNodeRevoked revoked evictions candidates rejected,
      callbacks.isNodeRevoked=some isNodeRevoked ∧
      evaluateRevocationState (idsToEvaluate events senderNodeId) isNodeRevoked=some revoked ∧
      result.batchRejected=false ∧ reservedEventBatchRejection fortressId events=false ∧
      (evictions=[] ∨ ∃ others, validateEventsForProjection callbacks
        (events.filter fun event => isFederationOperatorAuthorityEvent event fortressId)=.ok (evictions,others)) ∧
      (∀ event∈candidates, event∈events ∧ isFederationOperatorAuthorityEvent event fortressId=false ∧
        revoked event.originNodeId=false ∧ event.originNodeId∉pendingEvictionNodeIds evictions) ∧
      callbacks.appendEvents (evictions++candidates)=.ok (result.accepted,rejected,next) := by
  unfold acceptFederationEventsFailClosed at h
  split_ifs at h with _ _ hres
  · cases h
    exact .inl ⟨rfl,rfl⟩
  · cases h
    exact .inl ⟨rfl,rfl⟩
  · cases h
    exact .inl ⟨rfl,rfl⟩
  · split at h
    · cases h
      exact .inl ⟨rfl,rfl⟩
    · next revoked hrev =>
      obtain ⟨isNodeRevoked,hcal,hrea⟩ := Option.bind_eq_some_iff.mp hrev
      dsimp only at h
      split at h
      · cases h
        exact .inl ⟨rfl,rfl⟩
      · next evictions others hevi =>
        split at h
        · cases h
          exact .inl ⟨rfl,rfl⟩
        · next accepted rejected after happ =>
          cases h
          split at happ
          · cases happ
            exact .inl ⟨rfl,rfl⟩
          · refine .inr ⟨isNodeRevoked,revoked,evictions,_,rejected,hcal,hrea,rfl,
              Bool.not_eq_true _ ▸ hres,?_,?_,happ⟩
            · split at hevi
              · cases hevi
                exact .inl rfl
              · exact .inr ⟨others,hevi⟩
            · intro event heve
              simp only [List.mem_filter,Bool.not_eq_true',Bool.or_eq_false_iff,decide_eq_false_iff_not] at heve
              exact ⟨heve.1.1,heve.1.2,heve.2.2.1,heve.2.2.2⟩

end Gate

structure GateFaults where
  revocationMissing : Bool
  revocationThrows : String → Bool
  validationMissing : Bool
  (validationThrows appendThrows : List FederationEvent → Bool)

def dashboardCallbacks (env : FederationEnv) (state : FederationDashboardState) (fortressId : String)
    (faults : GateFaults) : GateCallbacks FederationDashboardState where
  isNodeRevoked :=
    if faults.revocationMissing then none
    else some fun nodeId =>
      if faults.revocationThrows nodeId then .error () else .ok (decide (nodeId∈state.revoked))
  validateEvents :=
    if faults.validationMissing then none
    else some fun batch =>
      if faults.validationThrows batch then .error ()
      else
        let staged := stageFederationEventsAfterRevocationGate env state fortressId batch
        .ok (staged.accepted,staged.rejected)
  appendEvents batch :=
    if faults.appendThrows batch then .error ()
    else
      let staged := stageFederationEventsAfterRevocationGate env state fortressId batch
      .ok (staged.accepted,staged.rejected,staged.nextState)

/-- The events that are accepted are in the log, and the evictions among them are in the projection. -/
structure StagedFrom (state : FederationDashboardState) (batch : List FederationEvent) (staged : Staged) : Prop where
  subset : staged.accepted ⊆ batch
  eventLog : staged.nextState.eventLog=state.eventLog++staged.accepted
  revoked : staged.nextState.revoked=state.revoked ∪ pendingEvictionNodeIds staged.accepted

variable {env : FederationEnv} {state : FederationDashboardState} {fortressId : String}
  {batch : List FederationEvent} {event : FederationEvent}

theorem StagedFrom.stageEvent {staged : Staged} (h : StagedFrom state batch staged) (heve : event∈batch) :
    StagedFrom state batch (stageEvent env fortressId staged event) := by
  unfold FederationDashboardState.stageEvent
  split
  · exact ⟨h.subset,h.eventLog,h.revoked⟩
  · next folded hadm =>
    obtain ⟨hlog,hrev⟩ := admitEvent_spec hadm
    refine ⟨?_,?_,?_⟩
    · intro other hoth
      rcases List.mem_append.mp hoth with hoth | hoth
      · exact h.subset hoth
      · rw [List.mem_singleton.mp hoth]
        exact heve
    · dsimp only
      rw [hlog,h.eventLog,List.append_assoc]
    · dsimp only
      rw [hrev,h.revoked,pendingEvictionNodeIds_append,Finset.union_assoc]

theorem mem_byNode {events : List FederationEvent} (h : event∈byNode events) :
    event∈events := by
  obtain ⟨nodeId,-,hsor⟩ := List.mem_flatMap.mp h
  exact (List.mem_filter.mp ((List.mem_insertionSort _).mp hsor)).1

theorem stagedFrom (batch : List FederationEvent) :
    StagedFrom state batch (stageFederationEventsAfterRevocationGate env state fortressId batch) := by
  unfold stageFederationEventsAfterRevocationGate
  have hrun : ∀ (todo : List FederationEvent) (staged : Staged), todo ⊆ batch → StagedFrom state batch staged →
      StagedFrom state batch (todo.foldl (stageEvent env fortressId) staged) := by
    intro todo
    induction todo with
    | nil => exact fun staged _ h => h
    | cons event rest ih =>
      intro staged hsub h
      exact ih _ (fun other hoth => hsub (List.mem_cons_of_mem _ hoth))
        (h.stageEvent (hsub List.mem_cons_self))
  refine hrun _ _ (fun event heve => mem_byNode heve) ⟨List.nil_subset _,(List.append_nil _).symm,?_⟩
  exact (Finset.union_empty _).symm

variable {faults : GateFaults} {nodeId : String}

theorem revoked_of_ready {isNodeRevoked : String → Except Unit Bool} {nodeIds : List String}
    {revoked : String → Bool} (hcal : (dashboardCallbacks env state fortressId faults).isNodeRevoked=some isNodeRevoked)
    (hrea : evaluateRevocationState nodeIds isNodeRevoked=some revoked) (hmem : nodeId∈nodeIds) :
    revoked nodeId=decide (nodeId∈state.revoked) := by
  unfold dashboardCallbacks at hcal
  dsimp only at hcal
  split at hcal
  · cases hcal
  · cases hcal
    unfold evaluateRevocationState at hrea
    split at hrea
    · next hall =>
      have hok := List.all_eq_true.mp hall nodeId hmem
      cases hrea
      dsimp only at hok ⊢
      split at hok
      · cases hok
      · next hthr => simp [hmem,hthr,Except.toOption]
    · cases hrea

theorem stagedFrom_append {accepted rejected : List FederationEvent}
    {next : FederationDashboardState}
    (h : (dashboardCallbacks env state fortressId faults).appendEvents batch=.ok (accepted,rejected,next)) :
    StagedFrom state batch ⟨accepted,rejected,next⟩ := by
  unfold dashboardCallbacks at h
  dsimp only at h
  split at h
  · cases h
  · have hsta := @stagedFrom env state fortressId batch
    obtain ⟨rfl,hres⟩ := Prod.mk.inj (Except.ok.inj h)
    obtain ⟨rfl,rfl⟩ := Prod.mk.inj hres
    exact hsta

theorem validated_subset {accepted : List FederationEvent}
    {others : List (String × BatchReason)}
    (h : validateEventsForProjection (dashboardCallbacks env state fortressId faults) batch=.ok (accepted,others)) :
    accepted ⊆ batch := by
  unfold validateEventsForProjection dashboardCallbacks at h
  dsimp only at h
  split at h
  · next validateEvents hval =>
    split at hval
    · cases hval
    · cases hval
      dsimp only at h
      split at h
      · cases h
      · have hsta := @stagedFrom env state fortressId batch
        obtain ⟨rfl,-⟩ := Prod.mk.inj (Except.ok.inj h)
        exact hsta.subset
  · cases h
    exact List.nil_subset _

/-- In a batch that is not refused, an eviction comes from the operator. -/
theorem authority_of_eviction {events : List FederationEvent}
    (h : reservedEventBatchRejection fortressId events=false) (heve : event∈events) {serial : Nat} (hbod : event.body=.eviction nodeId serial) :
    isFederationOperatorAuthorityEvent event fortressId=true := by
  have hres : event.isReserved=true := by rw [FederationEvent.isReserved,hbod]
  have hsam := List.any_eq_false.mp h event heve
  simp only [hres,bne_iff_ne,ne_eq,not_not,true_eq_decide_iff] at hsam
  rw [isFederationOperatorAuthorityEvent,hres,decide_eq_true hsam]
  rfl

theorem mem_pendingEvictionNodeIds {events : List FederationEvent} :
    nodeId∈pendingEvictionNodeIds events ↔ ∃ event∈events, ∃ serial, event.body=.eviction nodeId serial := by
  rw [pendingEvictionNodeIds,List.mem_toFinset,List.mem_filterMap]
  refine exists_congr fun event => and_congr_right fun _ => ?_
  cases event.body with
  | eviction other serial => simp
  | policyBundle marker => simp
  | other kind => simp

/-- Whatever the batch, its order, the state and the callbacks that fail: what is accepted is what the log gains, and
the evictions among it are what the projection gains; no ordinary event that is accepted comes from a node that is
revoked before the batch or by it; and a batch that is rejected as a whole leaves the state. -/
theorem batch_gate (env : FederationEnv) (state : FederationDashboardState) (fortressId : String) (faults : GateFaults)
    (events : List FederationEvent) (senderNodeId : Option String) (wireVersionSupported : Bool) :
    let out := acceptFederationEventsFailClosed (dashboardCallbacks env state fortressId faults) state fortressId events
      senderNodeId wireVersionSupported
    out.2.eventLog=state.eventLog++out.1.accepted ∧
    out.2.revoked=state.revoked ∪ pendingEvictionNodeIds out.1.accepted ∧
    (∀ event∈out.1.accepted, isFederationOperatorAuthorityEvent event fortressId=false →
      event.originNodeId∉state.revoked ∧ event.originNodeId∉out.2.revoked) ∧
    (out.1.batchRejected=true → out.1.accepted=[] ∧ out.2=state) := by
  intro out
  rcases accept_cases (rfl : _=(out.1,out.2)) with ⟨hnone,hsta⟩ | ⟨isNodeRevoked,revoked,evictions,candidates,
    rejected,hcal,hrea,hnot,hres,hevi,hcan,happ⟩
  · rw [hnone,hsta]
    exact ⟨(List.append_nil _).symm,(Finset.union_empty _).symm,nofun,fun _ => ⟨rfl,rfl⟩⟩
  · have hstd := stagedFrom_append happ
    have haut : ∀ event∈evictions, isFederationOperatorAuthorityEvent event fortressId=true := by
      rcases hevi with rfl | ⟨others,hval⟩
      · exact nofun
      · exact fun event heve => (List.mem_filter.mp (validated_subset hval heve)).2
    refine ⟨hstd.eventLog,hstd.revoked,?_,?_⟩
    · intro event heve hord
      obtain ⟨hbat,-,hbef,hpen⟩ : event∈events ∧ _ := by
        rcases List.mem_append.mp (hstd.subset heve) with hin | hin
        · rw [haut event hin] at hord
          cases hord
        · exact hcan event hin
      have hmem : event.originNodeId∈idsToEvaluate events senderNodeId :=
        List.mem_append_right _ (List.mem_map_of_mem hbat)
      rw [revoked_of_ready hcal hrea hmem,decide_eq_false_iff_not] at hbef
      refine ⟨hbef,?_⟩
      rw [hstd.revoked,Finset.mem_union,not_or]
      refine ⟨hbef,fun hin => ?_⟩
      obtain ⟨eviction,hevn,serial,hbod⟩ := mem_pendingEvictionNodeIds.mp hin
      rcases List.mem_append.mp (hstd.subset hevn) with hin | hin
      · exact hpen (mem_pendingEvictionNodeIds.mpr ⟨eviction,hin,serial,hbod⟩)
      · obtain ⟨hbat,hoth,-⟩ := hcan eviction hin
        rw [authority_of_eviction hres hbat hbod] at hoth
        cases hoth
    · intro hrej
      rw [hnot] at hrej
      cases hrej

end BatchGate

end CastleWall.Federation
