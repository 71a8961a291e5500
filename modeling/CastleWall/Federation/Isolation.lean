import CastleWall.Federation.LiveState
import CastleWall.Federation.NoWeakening

/-! # Guardian transitions that overlap

A transition, an initiation or a termination changes the guardian fields at once and puts back the fields it found
where an audit entry or the record cannot be written. While it is suspended another call may change the fields, or hand
the memory over to be written: then what it puts back is below what the other has persisted. -/

namespace CastleWall.Federation

open Mesh Cooperative

namespace DaemonCall

def prior : DaemonCall → Option GuardianHost
  | .auditTransition prior _ _ => some prior
  | .markEstablished prior _ _ => some prior
  | .persistTransition prior _ _ => some prior
  | .auditInitiate prior => some prior
  | .persistInitiate prior => some prior
  | .auditTerminate prior => some prior
  | .persistTerminate prior => some prior
  | _ => none

/-- Whether only the countdown is put back. -/
def ofBreakGlass : DaemonCall → Bool
  | .auditInitiate _ => true
  | .persistInitiate _ => true
  | .auditTerminate _ => true
  | .persistTerminate _ => true
  | _ => false

def spent : DaemonCall → Option Int
  | .auditTransition _ _ effect => effect.burnedNonce
  | .markEstablished _ _ effect => effect.burnedNonce
  | .persistTransition _ _ effect => effect.burnedNonce
  | .auditInitiate prior => some (prior.disableNonce+1)
  | .persistInitiate prior => some (prior.disableNonce+1)
  | _ => none

def persists : DaemonCall → Bool
  | .persistTransition _ _ _ => true
  | .persistInitiate _ => true
  | .persistTerminate _ => true
  | .persistEnabled _ _ => true
  | .persistJoin _ _ _ => true
  | .persistAppend => true
  | .persistHighWater _ _ _ => true
  | .persistOutbound _ => true
  | _ => false

def takesBack : DaemonCall → Bool
  | .auditInitiate _ => false
  | .auditTerminate _ => false
  | call => call.prior.isSome

end DaemonCall

def Clean (seen : List DaemonMark) : Prop := .guardian∉seen ∧ .handed∉seen

/-- A guardian call that takes its change back has seen nothing of the kind since it began. -/
def TakesBackAlone (world : DaemonWorld) : DaemonEvent → Prop
  | .resume i reply => ∀ s told, world.suspended[i]? = some s → s.replyOf reply=some told → told.ok=false →
      s.call.takesBack=true → Clean s.seen
  | _ => True

/-- The guardian fields are not below a snapshot. -/
structure Covers (guardian : GuardianHost) (snapshot : FederationSyncStateSnapshot) : Prop where
  generation : snapshot.guardianRevocationRequirementGeneration ≤ guardian.requirementGeneration
  requirement : guardian.requirementGeneration=snapshot.guardianRevocationRequirementGeneration →
    guardian.requirement=snapshot.guardianRevocationRequirement
  nonce : snapshot.guardianDisableNonce ≤ guardian.disableNonce
  highWater : snapshot.guardianLoweredHighWater ≤ guardian.loweredHighWater

theorem covers_snapshot (daemon : Daemon) : Covers daemon.guardian daemon.snapshotFederationSyncState :=
  ⟨Nat.le_refl _,fun _ => rfl,Int.le_refl _,Int.le_refl _⟩

structure SameGuardian (a b : GuardianHost) : Prop where
  requirement : b.requirement=a.requirement
  generation : b.requirementGeneration=a.requirementGeneration
  nonce : b.disableNonce=a.disableNonce
  highWater : b.loweredHighWater=a.loweredHighWater

theorem SameGuardian.refl (a : GuardianHost) : SameGuardian a a := ⟨rfl,rfl,rfl,rfl⟩

/-- What a call does: nothing to the fields, a change of them, or taking its change back. -/
inductive GuardianTurn (daemon : Daemon) (call : Option DaemonCall) (turn : DaemonTurn) : Prop where
  | quiet (same : SameGuardian daemon.guardian turn.memory.guardian)
      (hands : ∀ next, turn.next=.writes next → .handed∈turn.marks ∧ next.persists=true)
      (goesOn : ∀ next, turn.next.suspends=some next → next.prior=none ∧ next.spent=none ∨
        ∃ c, call=some c ∧ c.persists=false ∧ next.prior=c.prior ∧ next.spent=c.spent ∧
          next.ofBreakGlass=c.ofBreakGlass)
  | advance (next : DaemonCall) (waits : turn.next=.waits next) (marked : .guardian∈turn.marks)
      (prior : next.prior=some daemon.guardian)
      (generation : turn.memory.guardian.requirementGeneration=daemon.guardian.requirementGeneration+1)
      (nonce : daemon.guardian.disableNonce ≤ turn.memory.guardian.disableNonce)
      (highWater : daemon.guardian.loweredHighWater ≤ turn.memory.guardian.loweredHighWater)
      (spends : ∀ n, next.spent=some n →
        n=daemon.guardian.disableNonce+1 ∧ n ≤ turn.memory.guardian.disableNonce)
      (breakGlass : next.ofBreakGlass=true → turn.memory.guardian.requirement=daemon.guardian.requirement ∧
        turn.memory.guardian.loweredHighWater=daemon.guardian.loweredHighWater)
  | takeBack (c : DaemonCall) (prior : GuardianHost) (resumed : call=some c) (had : c.prior=some prior)
      (byTick : Bool) (waits : turn.next=.waits (.throws byTick)) (marked : .guardian∈turn.marks)
      (generation : turn.memory.guardian.requirementGeneration=prior.requirementGeneration)
      (nonce : turn.memory.guardian.disableNonce=prior.disableNonce)
      (rest : turn.memory.guardian.requirement=prior.requirement ∧
          turn.memory.guardian.loweredHighWater=prior.loweredHighWater ∨
        c.ofBreakGlass=true ∧ turn.memory.guardian.requirement=daemon.guardian.requirement ∧
          turn.memory.guardian.loweredHighWater=daemon.guardian.loweredHighWater)

section Turns

variable {env : FederationEnv} {daemon changed : Daemon} {call : Option DaemonCall} {marks : List DaemonMark}

theorem guardianTurn_returns {answer : DaemonAnswer} (h : SameGuardian daemon.guardian changed.guardian) :
    GuardianTurn daemon call ⟨changed,.returns answer,marks⟩ := by
  refine .quiet h ?_ ?_
  · intro next hnex
    cases hnex
  · intro next hnex
    cases hnex

variable {next c : DaemonCall}

theorem guardianTurn_waits (h : SameGuardian daemon.guardian changed.guardian)
    (hpri : next.prior=none) (hspe : next.spent=none) :
    GuardianTurn daemon call ⟨changed,.waits next,marks⟩ := by
  refine .quiet h ?_ ?_
  · intro other hnex
    cases hnex
  · intro other hnex
    cases hnex
    exact .inl ⟨hpri,hspe⟩

theorem guardianTurn_writes (h : SameGuardian daemon.guardian changed.guardian)
    (hper : next.persists=true) (hpri : next.prior=none) (hspe : next.spent=none) :
    GuardianTurn daemon call ⟨changed,.writes next,.handed::marks⟩ := by
  refine .quiet h ?_ ?_
  · intro other hnex
    cases hnex
    exact ⟨List.mem_cons_self,hper⟩
  · intro other hnex
    cases hnex
    exact .inl ⟨hpri,hspe⟩

theorem commit_turn (t : GuardianRequirementTransition) :
    GuardianTurn daemon call (daemon.commitGuardianRequirementTransition env t) := by
  unfold Daemon.commitGuardianRequirementTransition
  split
  · split_ifs
    · exact guardianTurn_waits (SameGuardian.refl _) rfl rfl
    · exact guardianTurn_returns (SameGuardian.refl _)
  · next effect heff =>
    refine .advance _ rfl List.mem_cons_self rfl rfl (le_raisedTo _ _) (le_raisedTo _ _) ?_ ?_
    · intro n hn
      have hbur : effect.burnedNonce=some n := hn
      refine ⟨?_,?_⟩
      · rcases (authorize_ok heff).2.burned with hnone | hnex
        · rw [hbur] at hnone
          cases hnone
        · rw [hbur] at hnex
          exact Option.some.inj hnex
      · change n ≤ GuardianHost.raisedTo _ effect.burnedNonce
        rw [hbur]
        exact Int.le_max_right _ _
    · intro h
      cases h

theorem initiate_turn (intent : DisableIntent) (targetM : Option Int) (delayMs now : Int) :
    GuardianTurn daemon call (daemon.initiateFederationGuardianBreakGlass intent targetM delayMs now) := by
  unfold Daemon.initiateFederationGuardianBreakGlass
  split_ifs with hine hlat hnone harm
  · exact guardianTurn_returns (SameGuardian.refl _)
  · exact guardianTurn_returns (SameGuardian.refl _)
  · exact guardianTurn_returns (SameGuardian.refl _)
  · exact guardianTurn_returns (SameGuardian.refl _)
  · have hini : daemon.guardian.initiateFederationGuardianBreakGlass intent targetM delayMs now true =
        { daemon.guardian with
          requirementGeneration := daemon.guardian.requirementGeneration+1
          breakGlass := some
            { nonce := daemon.guardian.disableNonce+1, intent, targetM, initiatedAt := now
              completesAt := now+max delayMs minBreakGlassDelayMs, delayMs := max delayMs minBreakGlassDelayMs }
          disableNonce := daemon.guardian.disableNonce+1 } := by
      unfold GuardianHost.initiateFederationGuardianBreakGlass
      rw [if_neg hine,if_neg hlat,if_neg hnone,if_neg harm,if_pos rfl]
    rw [hini]
    refine .advance _ rfl List.mem_cons_self rfl rfl ?_ (Int.le_refl _) ?_ ?_
    · exact Int.le_add_one (Int.le_refl _)
    · intro n hn
      cases hn
      exact ⟨rfl,Int.le_refl _⟩
    · exact fun _ => ⟨rfl,rfl⟩

theorem terminate_turn (armed : BreakGlassState) :
    GuardianTurn daemon call (daemon.terminateFederationGuardianBreakGlass armed) := by
  refine .advance _ rfl List.mem_cons_self rfl rfl (Int.le_max_left _ _) (Int.le_refl _) ?_ ?_
  · intro n hn
    cases hn
  · exact fun _ => ⟨rfl,rfl⟩

theorem begin_turn (request : DaemonRequest) : GuardianTurn daemon call (daemon.begin env request) := by
  cases request with
  | setRequirement => exact commit_turn _
  | initiate => exact initiate_turn _ _ _ _
  | veto approval =>
    change GuardianTurn daemon call (daemon.vetoFederationGuardianBreakGlass env approval)
    unfold Daemon.vetoFederationGuardianBreakGlass
    split
    · split
      · exact guardianTurn_waits (SameGuardian.refl _) rfl rfl
      · exact terminate_turn _
    · exact guardianTurn_returns (SameGuardian.refl _)
  | cancel =>
    change GuardianTurn daemon call daemon.cancelFederationGuardianBreakGlass
    unfold Daemon.cancelFederationGuardianBreakGlass
    split
    · exact guardianTurn_returns (SameGuardian.refl _)
    · exact terminate_turn _
  | tick =>
    change GuardianTurn daemon call daemon.tickFederationGuardianBreakGlass
    unfold Daemon.tickFederationGuardianBreakGlass
    split_ifs
    · exact guardianTurn_returns (SameGuardian.refl _)
    · split
      · exact guardianTurn_returns (SameGuardian.refl _)
      · exact guardianTurn_waits (SameGuardian.refl _) rfl rfl
  | setEnabled | recordJoin => exact guardianTurn_writes (SameGuardian.refl _) rfl rfl rfl
  | append events senderNodeId wireVersionSupported =>
    change GuardianTurn daemon call (daemon.appendFederationEvents env events senderNodeId wireVersionSupported)
    unfold Daemon.appendFederationEvents
    dsimp only
    split_ifs
    · exact guardianTurn_returns (SameGuardian.refl _)
    · exact guardianTurn_writes (SameGuardian.refl _) rfl rfl rfl
    · exact guardianTurn_returns (SameGuardian.refl _)
  | recordAcceptedHighWater sender highWater nodeMode =>
    change GuardianTurn daemon call (daemon.recordAcceptedHighWater sender highWater nodeMode)
    unfold Daemon.recordAcceptedHighWater
    dsimp only
    split_ifs
    · exact guardianTurn_returns (SameGuardian.refl _)
    · exact guardianTurn_writes (SameGuardian.refl _) rfl rfl rfl
    · exact guardianTurn_returns (SameGuardian.refl _)
  | nextOutboundHighWater =>
    change GuardianTurn daemon call daemon.nextOutboundHighWater
    unfold Daemon.nextOutboundHighWater
    split_ifs
    · exact guardianTurn_returns (SameGuardian.refl _)
    · exact guardianTurn_writes (SameGuardian.refl _) rfl rfl rfl

theorem tickAudited_turn (armed : BreakGlassState) (now : Int) :
    GuardianTurn daemon call (daemon.tickAudited env armed now) := by
  unfold Daemon.tickAudited
  split_ifs
  · exact guardianTurn_returns (SameGuardian.refl _)
  · exact guardianTurn_returns (SameGuardian.refl _)
  · split
    · exact guardianTurn_returns (SameGuardian.refl _)
    · split_ifs
      · exact guardianTurn_returns (SameGuardian.refl _)
      · exact commit_turn _

theorem rollBack_turn {prior : GuardianHost} (t : GuardianRequirementTransition)
    (hpri : c.prior=some prior) : GuardianTurn daemon (some c) (daemon.rollBackTransition prior t) :=
  .takeBack c prior rfl hpri (GuardianHost.completes t) rfl List.mem_cons_self rfl rfl (.inl ⟨rfl,rfl⟩)

theorem restoreBreakGlass_turn {prior : GuardianHost} (hpri : c.prior=some prior)
    (hc : c.ofBreakGlass=true) :
    GuardianTurn daemon (some c) ⟨daemon.restoreBreakGlass prior,.waits (.throws false),[.guardian]⟩ :=
  .takeBack c prior rfl hpri false rfl List.mem_cons_self rfl rfl (.inr ⟨hc,rfl,rfl⟩)

/-- A guardian call that has its audit entry waits for the next thing, with the same fields to put back. -/
theorem goesOn_turn {after : Next DaemonCall DaemonAnswer}
    (haft : after=.waits next ∧ marks=[] ∨ after=.writes next ∧ marks=[.handed] ∧ next.persists=true)
    (hc : c.persists=false) (hpri : next.prior=c.prior) (hspe : next.spent=c.spent)
    (hkin : next.ofBreakGlass=c.ofBreakGlass) : GuardianTurn daemon (some c) ⟨daemon,after,marks⟩ := by
  refine .quiet (SameGuardian.refl _) ?_ ?_
  · intro other hnex
    rcases haft with ⟨rfl,-⟩ | ⟨rfl,rfl,hper⟩
    · cases hnex
    · cases hnex
      exact ⟨List.mem_cons_self,hper⟩
  · intro other hnex
    rcases haft with ⟨rfl,-⟩ | ⟨rfl,-,-⟩
    · cases hnex
      exact .inr ⟨c,rfl,hc,hpri,hspe,hkin⟩
    · cases hnex
      exact .inr ⟨c,rfl,hc,hpri,hspe,hkin⟩

theorem transitionAudited_turn (prior : GuardianHost) (t : GuardianRequirementTransition)
    (effect : GuardianRequirementEffect) :
    GuardianTurn daemon (some (.auditTransition prior t effect)) (daemon.transitionAudited prior t effect) := by
  unfold Daemon.transitionAudited
  split_ifs
  · exact goesOn_turn (.inl ⟨rfl,rfl⟩) rfl rfl rfl rfl
  · exact goesOn_turn (.inr ⟨rfl,rfl,rfl⟩) rfl rfl rfl rfl

theorem resume_turn (reply : Reply) (c : DaemonCall) : GuardianTurn daemon (some c) (daemon.resume env reply c) := by
  cases c with
  | throws => exact guardianTurn_returns (SameGuardian.refl _)
  | auditTransition prior t effect =>
    unfold Daemon.resume
    split_ifs
    · exact transitionAudited_turn prior t effect
    · exact rollBack_turn t rfl
  | markEstablished prior t effect =>
    unfold Daemon.resume
    split_ifs
    · exact goesOn_turn (.inr ⟨rfl,rfl,rfl⟩) rfl rfl rfl rfl
    · exact rollBack_turn t rfl
  | persistTransition prior t effect =>
    unfold Daemon.resume
    split_ifs
    · exact guardianTurn_returns ⟨rfl,rfl,rfl,rfl⟩
    · exact rollBack_turn t rfl
  | auditInitiate | auditTerminate =>
    unfold Daemon.resume
    split_ifs
    · exact goesOn_turn (.inr ⟨rfl,rfl,rfl⟩) rfl rfl rfl rfl
    · exact guardianTurn_returns (SameGuardian.refl _)
  | persistInitiate | persistTerminate =>
    unfold Daemon.resume
    split_ifs
    · exact guardianTurn_returns ⟨rfl,rfl,rfl,rfl⟩
    · exact restoreBreakGlass_turn rfl rfl
  | auditTick =>
    unfold Daemon.resume
    split_ifs
    · exact tickAudited_turn _ _
    · exact guardianTurn_returns (SameGuardian.refl _)
  | persistEnabled | persistJoin | persistAppend | persistHighWater =>
    unfold Daemon.resume
    split_ifs
    · exact guardianTurn_returns ⟨rfl,rfl,rfl,rfl⟩
    · exact guardianTurn_returns (SameGuardian.refl _)
  | persistOutbound next =>
    unfold Daemon.resume
    split_ifs
    · exact guardianTurn_returns ⟨rfl,rfl,rfl,rfl⟩
    · apply guardianTurn_returns
      unfold Daemon.rollBackOutbound
      split_ifs
      · exact SameGuardian.refl _
      · exact SameGuardian.refl _

end Turns

abbrev SuspendedCall := Suspended FederationSyncStateSnapshot DaemonCall DaemonMark

abbrev Saved := List (DaemonCall × FederationSyncStateSnapshot)

/-- What a call that is clean would put back covers what the other writes and spends. -/
def Below (s other : SuspendedCall) : Prop :=
  ∀ prior, s.call.prior=some prior → Clean s.seen →
    (∀ snapshot, other.stage.snapshot=some snapshot → Covers prior snapshot) ∧
      ∀ n, other.call.spent=some n → n ≤ prior.disableNonce

/-- What the call would put back covers what was saved, and only the countdown differs where only that is put back. -/
structure Backed (guardian : GuardianHost) (saved : Saved) (call : DaemonCall) (prior : GuardianHost) : Prop where
  covers : ∀ entry∈saved, Covers prior entry.2
  nonces : ∀ entry∈saved, ∀ n, entry.1.spent=some n → n ≤ prior.disableNonce
  breakGlass : call.ofBreakGlass=true → guardian.requirement=prior.requirement ∧
    guardian.loweredHighWater=prior.loweredHighWater

def spentNonces (suspended : List SuspendedCall) (saved : Saved) : List Int :=
  saved.filterMap (fun entry => entry.1.spent)++suspended.filterMap fun s => s.call.spent

structure Isolated (guardian : GuardianHost) (suspended : List SuspendedCall) (saved : Saved) : Prop where
  staged : ∀ s∈suspended, ∀ snapshot, s.stage.snapshot=some snapshot →
    s.call.persists=true ∧ Covers guardian snapshot
  kept : ∀ entry∈saved, Covers guardian entry.2
  backed : ∀ s∈suspended, ∀ prior, s.call.prior=some prior → Clean s.seen → Backed guardian saved s.call prior
  apart : suspended.Pairwise fun s other => Below s other ∧ Below other s
  nodup : (spentNonces suspended saved).Nodup
  spent : ∀ n∈spentNonces suspended saved, n ≤ guardian.disableNonce

section Invariant

variable {guardian changed : GuardianHost} {suspended pre post : List SuspendedCall} {saved : Saved}
  {s other : SuspendedCall} {snapshot : FederationSyncStateSnapshot} {marks : List DaemonMark}

theorem clean_of_append {seen : List DaemonMark} (h : Clean (seen++marks)) : Clean seen :=
  ⟨fun hmem => h.1 (List.mem_append_left _ hmem),fun hmem => h.2 (List.mem_append_left _ hmem)⟩

theorem Below.see (h : Below s other) (marks : List DaemonMark) : Below (s.see marks) (other.see marks) :=
  fun prior hpri hcle => h prior hpri (clean_of_append hcle)

theorem spentNonces_see (marks : List DaemonMark) :
    spentNonces (suspended.map (Suspended.see marks)) saved=spentNonces suspended saved := by
  simp only [spentNonces,List.filterMap_map]
  rfl

theorem Isolated.see (h : Isolated guardian suspended saved) (marks : List DaemonMark) :
    Isolated guardian (suspended.map (Suspended.see marks)) saved where
  staged := by
    intro s hs
    obtain ⟨before,hbef,rfl⟩ := List.mem_map.mp hs
    exact h.staged before hbef
  kept := h.kept
  backed := by
    intro s hs prior hpri hcle
    obtain ⟨before,hbef,rfl⟩ := List.mem_map.mp hs
    exact h.backed before hbef prior hpri (clean_of_append hcle)
  apart := by
    rw [List.pairwise_map]
    exact h.apart.imp fun hapa => ⟨hapa.1.see marks,hapa.2.see marks⟩
  nodup := by
    rw [spentNonces_see]
    exact h.nodup
  spent := by
    rw [spentNonces_see]
    exact h.spent

theorem spentNonces_middle (pre post : List SuspendedCall) (s : SuspendedCall) (saved : Saved) :
    (spentNonces (pre++s::post) saved).Perm (s.call.spent.toList++spentNonces (pre++post) saved) := by
  have hcon : ∀ rest : List SuspendedCall, (s::rest).filterMap (fun s => s.call.spent) =
      s.call.spent.toList++rest.filterMap fun s => s.call.spent := by
    intro rest
    cases h : s.call.spent <;> simp [h]
  simp only [spentNonces,List.filterMap_append,hcon]
  rw [← List.append_assoc]
  refine (List.perm_append_comm_assoc _ _ _).trans ?_
  rw [List.append_assoc]

theorem mem_middle {a b : List SuspendedCall} (h : other∈a++b) : other∈a++s::b := by
  rcases List.mem_append.mp h with h | h
  · exact List.mem_append_left _ h
  · exact List.mem_append_right _ (List.mem_cons_of_mem s h)

theorem Isolated.drop (h : Isolated guardian (pre++s::post) saved) : Isolated guardian (pre++post) saved where
  staged := fun other hoth => h.staged other (mem_middle hoth)
  kept := h.kept
  backed := fun other hoth => h.backed other (mem_middle hoth)
  apart := h.apart.sublist (List.Sublist.append_left (List.sublist_cons_self s post) pre)
  nodup := (List.nodup_append.mp ((spentNonces_middle pre post s saved).nodup_iff.mp h.nodup)).2.1
  spent := fun n hn => h.spent n ((spentNonces_middle pre post s saved).mem_iff.mpr (List.mem_append_right _ hn))

theorem Isolated.apart_of_mem (h : Isolated guardian (pre++s::post) saved) (hoth : other∈pre++post) :
    Below s other ∧ Below other s := by
  have happ := List.pairwise_append.mp h.apart
  rcases List.mem_append.mp hoth with hoth | hoth
  · exact (happ.2.2 other hoth s List.mem_cons_self).symm
  · exact (List.pairwise_cons.mp happ.2.1).1 other hoth

theorem Covers.congr (h : Covers guardian snapshot) (hsam : SameGuardian guardian changed) :
    Covers changed snapshot := by
  refine ⟨?_,?_,?_,?_⟩
  · rw [hsam.generation]
    exact h.generation
  · rw [hsam.generation,hsam.requirement]
    exact h.requirement
  · rw [hsam.nonce]
    exact h.nonce
  · rw [hsam.highWater]
    exact h.highWater

theorem Isolated.congr (h : Isolated guardian suspended saved) (hsam : SameGuardian guardian changed) :
    Isolated changed suspended saved where
  staged := fun s hs snapshot hsna =>
    ⟨(h.staged s hs snapshot hsna).1,(h.staged s hs snapshot hsna).2.congr hsam⟩
  kept := fun entry hent => (h.kept entry hent).congr hsam
  backed := by
    intro s hs prior hpri hcle
    have hbac := h.backed s hs prior hpri hcle
    refine ⟨hbac.covers,hbac.nonces,?_⟩
    rw [hsam.requirement,hsam.highWater]
    exact hbac.breakGlass
  apart := h.apart
  nodup := h.nodup
  spent := by
    rw [hsam.nonce]
    exact h.spent

/-- No call that is suspended is clean any more, and the fields cover what they have to. -/
theorem Isolated.change (h : Isolated guardian suspended saved)
    (hcle : ∀ s∈suspended, ¬ Clean s.seen)
    (hsta : ∀ s∈suspended, ∀ snapshot, s.stage.snapshot=some snapshot → Covers changed snapshot)
    (hkep : ∀ entry∈saved, Covers changed entry.2)
    (hspe : ∀ n∈spentNonces suspended saved, n ≤ changed.disableNonce) : Isolated changed suspended saved where
  staged := fun s hs snapshot hsna => ⟨(h.staged s hs snapshot hsna).1,hsta s hs snapshot hsna⟩
  kept := hkep
  backed := fun s hs _ _ hc => absurd hc (hcle s hs)
  apart := h.apart
  nodup := h.nodup
  spent := hspe

theorem Isolated.add (h : Isolated guardian suspended saved)
    (hsta : ∀ snapshot, s.stage.snapshot=some snapshot → s.call.persists=true ∧ Covers guardian snapshot)
    (hbac : ∀ prior, s.call.prior=some prior → Clean s.seen → Backed guardian saved s.call prior)
    (hapa : ∀ other∈suspended, Below other s ∧ Below s other)
    (hspe : ∀ n, s.call.spent=some n → n∉spentNonces suspended saved ∧ n ≤ guardian.disableNonce) :
    Isolated guardian (suspended++[s]) saved := by
  have hper := spentNonces_middle suspended [] s saved
  rw [List.append_nil] at hper
  refine ⟨?_,h.kept,?_,?_,?_,?_⟩
  · intro other hoth
    rcases List.mem_append.mp hoth with hoth | hoth
    · exact h.staged other hoth
    · rw [List.mem_singleton.mp hoth]
      exact hsta
  · intro other hoth
    rcases List.mem_append.mp hoth with hoth | hoth
    · exact h.backed other hoth
    · rw [List.mem_singleton.mp hoth]
      exact hbac
  · rw [List.pairwise_append]
    refine ⟨h.apart,List.pairwise_singleton _ _,?_⟩
    intro other hoth new hnew
    rw [List.mem_singleton.mp hnew]
    exact hapa other hoth
  · rw [hper.nodup_iff]
    cases hcal : s.call.spent with
    | none => exact h.nodup
    | some n => exact List.nodup_cons.mpr ⟨(hspe n hcal).1,h.nodup⟩
  · intro n hn
    cases hcal : s.call.spent with
    | none =>
      rw [hper.mem_iff,hcal] at hn
      exact h.spent n hn
    | some m =>
      rw [hper.mem_iff,hcal] at hn
      rcases List.mem_cons.mp hn with rfl | hn
      · exact (hspe n hcal).2
      · exact h.spent n hn

theorem Isolated.save (h : Isolated guardian (pre++s::post) saved) (hsna : s.stage.snapshot=some snapshot) :
    Isolated guardian (pre++post) (saved++[(s.call,snapshot)]) := by
  have hcov := (h.staged s (List.mem_append_right _ List.mem_cons_self) snapshot hsna).2
  have hper : (spentNonces (pre++s::post) saved).Perm
      (spentNonces (pre++post) (saved++[(s.call,snapshot)])) := by
    refine (spentNonces_middle pre post s saved).trans ?_
    have hlas : [(s.call,snapshot)].filterMap (fun entry => entry.1.spent)=s.call.spent.toList := by
      cases h : s.call.spent <;> simp [h]
    simp only [spentNonces,List.filterMap_append,hlas]
    rw [List.append_assoc]
    exact List.perm_append_comm_assoc _ _ _
  refine ⟨h.drop.staged,?_,?_,h.drop.apart,hper.nodup_iff.mp h.nodup,?_⟩
  · intro entry hent
    rcases List.mem_append.mp hent with hent | hent
    · exact h.kept entry hent
    · rw [List.mem_singleton.mp hent]
      exact hcov
  · intro other hoth prior hpri hcle
    have hbac := h.drop.backed other hoth prior hpri hcle
    have hbel := (h.apart_of_mem hoth).2 prior hpri hcle
    refine ⟨?_,?_,hbac.breakGlass⟩
    · intro entry hent
      rcases List.mem_append.mp hent with hent | hent
      · exact hbac.covers entry hent
      · rw [List.mem_singleton.mp hent]
        exact hbel.1 snapshot hsna
    · intro entry hent n hn
      rcases List.mem_append.mp hent with hent | hent
      · exact hbac.nonces entry hent n hn
      · rw [List.mem_singleton.mp hent] at hn
        exact hbel.2 n hn
  · intro n hn
    exact h.spent n (hper.mem_iff.mpr hn)

/-- Where a call waits makes no difference, only what it writes. -/
theorem Isolated.restage (h : Isolated guardian (pre++s::post) saved) {stage : Stage FederationSyncStateSnapshot}
    (hsta : stage.snapshot=s.stage.snapshot) : Isolated guardian (pre ++ { s with stage } :: post) saved := by
  have hlef : ∀ other, Below s other → Below { s with stage } other := fun other hbel => hbel
  have hrig : ∀ other, Below other s → Below other { s with stage } := by
    intro other hbel prior hpri hcle
    obtain ⟨hcov,hnon⟩ := hbel prior hpri hcle
    refine ⟨?_,hnon⟩
    intro snapshot hsna
    exact hcov snapshot (hsta ▸ hsna)
  have hmem : ∀ other∈pre ++ { s with stage } :: post, other∈pre++post ∨ other = { s with stage } := by
    intro other hoth
    rcases List.mem_append.mp hoth with hoth | hoth
    · exact .inl (List.mem_append_left _ hoth)
    · rcases List.mem_cons.mp hoth with hoth | hoth
      · exact .inr hoth
      · exact .inl (List.mem_append_right _ hoth)
  have hsel : s∈pre++s::post := List.mem_append_right _ List.mem_cons_self
  refine ⟨?_,h.kept,?_,?_,?_,?_⟩
  · intro other hoth
    rcases hmem other hoth with hoth | rfl
    · exact h.drop.staged other hoth
    · intro snapshot hsna
      exact h.staged s hsel snapshot (hsta ▸ hsna)
  · intro other hoth
    rcases hmem other hoth with hoth | rfl
    · exact h.drop.backed other hoth
    · exact h.backed s hsel
  · obtain ⟨hpre,hpos,hcro⟩ := List.pairwise_append.mp h.apart
    obtain ⟨hhea,htai⟩ := List.pairwise_cons.mp hpos
    refine List.pairwise_append.mpr ⟨hpre,List.pairwise_cons.mpr ⟨?_,htai⟩,?_⟩
    · intro other hoth
      exact ⟨hlef other (hhea other hoth).1,hrig other (hhea other hoth).2⟩
    · intro other hoth another hano
      rcases List.mem_cons.mp hano with rfl | hano
      · have hbot := hcro other hoth s List.mem_cons_self
        exact ⟨hrig other hbot.1,hlef other hbot.2⟩
      · exact hcro other hoth another (List.mem_cons_of_mem s hano)
  · have hsam := (spentNonces_middle pre post { s with stage } saved).trans (spentNonces_middle pre post s saved).symm
    exact hsam.nodup_iff.mpr h.nodup
  · intro n hn
    have hsam := (spentNonces_middle pre post { s with stage } saved).trans (spentNonces_middle pre post s saved).symm
    exact h.spent n (hsam.mem_iff.mp hn)

structure Carried (guardian : GuardianHost) (others : List SuspendedCall) (saved : Saved) (call : DaemonCall)
    (seen : List DaemonMark) : Prop where
  backed : ∀ prior, call.prior=some prior → Clean seen → Backed guardian saved call prior
  covers : ∀ prior, call.prior=some prior → Clean seen → ∀ other∈others, ∀ snapshot,
    other.stage.snapshot=some snapshot → Covers prior snapshot
  nonces : ∀ prior, call.prior=some prior → Clean seen → ∀ other∈others, ∀ n,
    other.call.spent=some n → n ≤ prior.disableNonce
  below : ∀ other∈others, ∀ prior, other.call.prior=some prior → Clean other.seen →
    ∀ n, call.spent=some n → n ≤ prior.disableNonce
  fresh : ∀ n, call.spent=some n → n∉spentNonces others saved ∧ n ≤ guardian.disableNonce

theorem Isolated.carried (h : Isolated guardian (pre++s::post) saved) :
    Carried guardian (pre++post) saved s.call s.seen where
  backed := h.backed s (List.mem_append_right _ List.mem_cons_self)
  covers := fun prior hpri hcle other hoth => ((h.apart_of_mem hoth).1 prior hpri hcle).1
  nonces := fun prior hpri hcle other hoth => ((h.apart_of_mem hoth).1 prior hpri hcle).2
  below := fun other hoth prior hpri hcle => ((h.apart_of_mem hoth).2 prior hpri hcle).2
  fresh := by
    intro n hn
    have hper := spentNonces_middle pre post s saved
    rw [hn] at hper
    refine ⟨(List.nodup_cons.mp (hper.nodup_iff.mp h.nodup)).1,?_⟩
    exact h.spent n (hper.mem_iff.mpr List.mem_cons_self)

variable {env : FederationEnv} {daemon : Daemon} {others : List SuspendedCall} {seen : List DaemonMark}
  {turn : DaemonTurn} {call : Option DaemonCall}

theorem spent_mem_of_saved {entry : DaemonCall × FederationSyncStateSnapshot} (hent : entry∈saved) {n : Int}
    (hn : entry.1.spent=some n) : n∈spentNonces others saved :=
  List.mem_append_left _ (List.mem_filterMap.mpr ⟨entry,hent,hn⟩)

theorem spent_mem_of_suspended (hoth : other∈others) {n : Int} (hn : other.call.spent=some n) :
    n∈spentNonces others saved :=
  List.mem_append_right _ (List.mem_filterMap.mpr ⟨other,hoth,hn⟩)

theorem not_clean_see {mark : DaemonMark} (hmar : mark∈marks) (hkin : mark=.guardian ∨ mark=.handed) :
    ∀ s∈others.map (Suspended.see marks), ¬ Clean s.seen := by
  intro s hs hcle
  obtain ⟨before,_,rfl⟩ := List.mem_map.mp hs
  rcases hkin with rfl | rfl
  · exact hcle.1 (List.mem_append_right _ hmar)
  · exact hcle.2 (List.mem_append_right _ hmar)

theorem Isolated.quiet (h : Isolated daemon.guardian others saved)
    (same : SameGuardian daemon.guardian turn.memory.guardian)
    (hand : ∀ next, turn.next=.writes next → .handed∈turn.marks ∧ next.persists=true)
    (goesOn : ∀ next, turn.next.suspends=some next → next.prior=none ∧ next.spent=none ∨
      ∃ c, Carried daemon.guardian others saved c seen ∧ next.prior=c.prior ∧ next.spent=c.spent ∧
        next.ofBreakGlass=c.ofBreakGlass) :
    Isolated turn.memory.guardian
      (others.map (Suspended.see turn.marks)++World.resuspend (daemonHost env) seen turn) saved := by
  have hbas := (h.see turn.marks).congr same
  -- The call goes on with what it had to put back, or has nothing to put back.
  have hadd : ∀ next stage, turn.next.suspends=some next →
      (∀ snapshot, stage.snapshot=some snapshot → next.persists=true ∧ Covers turn.memory.guardian snapshot ∧
        .handed∈turn.marks) →
      Isolated turn.memory.guardian (others.map (Suspended.see turn.marks)++[⟨next,seen,stage⟩]) saved := by
    intro next stage hnex hsta
    refine hbas.add ?_ ?_ ?_ ?_
    · intro snapshot hsna
      exact ⟨(hsta snapshot hsna).1,(hsta snapshot hsna).2.1⟩
    · intro prior hpri hcle
      rcases goesOn next hnex with ⟨hnone,-⟩ | ⟨c,hcar,hsam,-,hkin⟩
      · exact absurd hpri (by simp [hnone])
      · have hbac := hcar.backed prior (hsam ▸ hpri) hcle
        refine ⟨hbac.covers,hbac.nonces,?_⟩
        rw [same.requirement,same.highWater]
        intro hbre
        exact hbac.breakGlass (hkin ▸ hbre)
    · intro other hoth
      refine ⟨?_,?_⟩
      · intro prior hpri hcle
        refine ⟨?_,?_⟩
        · intro snapshot hsna
          exact absurd hcle (not_clean_see (hsta snapshot hsna).2.2 (.inr rfl) other hoth)
        · intro n hn
          rcases goesOn next hnex with ⟨-,hnone⟩ | ⟨c,hcar,-,hspe,-⟩
          · exact absurd hn (by simp [hnone])
          · obtain ⟨before,hbef,rfl⟩ := List.mem_map.mp hoth
            exact hcar.below before hbef prior hpri (clean_of_append hcle) n (hspe ▸ hn)
      · intro prior hpri hcle
        rcases goesOn next hnex with ⟨hnone,-⟩ | ⟨c,hcar,hsam,-,-⟩
        · exact absurd hpri (by simp [hnone])
        · obtain ⟨before,hbef,rfl⟩ := List.mem_map.mp hoth
          exact ⟨hcar.covers prior (hsam ▸ hpri) hcle before hbef,
            hcar.nonces prior (hsam ▸ hpri) hcle before hbef⟩
    · intro n hn
      rcases goesOn next hnex with ⟨-,hnone⟩ | ⟨c,hcar,-,hspe,-⟩
      · exact absurd hn (by simp [hnone])
      · rw [spentNonces_see,same.nonce]
        exact hcar.fresh n (hspe ▸ hn)
  unfold World.resuspend
  cases hnex : turn.next with
  | returns answer =>
    rw [List.append_nil]
    exact hbas
  | waits next =>
    apply hadd next .waiting
    · rw [hnex]
      rfl
    · intro snapshot hsna
      cases hsna
  | writes next =>
    apply hadd next (.queued _)
    · rw [hnex]
      rfl
    · intro snapshot hsna
      cases hsna
      exact ⟨(hand next hnex).2,covers_snapshot turn.memory,(hand next hnex).1⟩

theorem Isolated.advance (h : Isolated daemon.guardian others saved) {next : DaemonCall}
    (waits : turn.next=.waits next) (marked : .guardian∈turn.marks) (prior : next.prior=some daemon.guardian)
    (generation : turn.memory.guardian.requirementGeneration=daemon.guardian.requirementGeneration+1)
    (nonce : daemon.guardian.disableNonce ≤ turn.memory.guardian.disableNonce)
    (highWater : daemon.guardian.loweredHighWater ≤ turn.memory.guardian.loweredHighWater)
    (spends : ∀ n, next.spent=some n →
      n=daemon.guardian.disableNonce+1 ∧ n ≤ turn.memory.guardian.disableNonce)
    (breakGlass : next.ofBreakGlass=true → turn.memory.guardian.requirement=daemon.guardian.requirement ∧
      turn.memory.guardian.loweredHighWater=daemon.guardian.loweredHighWater) :
    Isolated turn.memory.guardian
      (others.map (Suspended.see turn.marks)++World.resuspend (daemonHost env) seen turn) saved := by
  have hcov : ∀ snapshot, Covers daemon.guardian snapshot → Covers turn.memory.guardian snapshot := by
    intro snapshot hsna
    have hgen := hsna.generation
    refine ⟨by omega,?_,hsna.nonce.trans nonce,hsna.highWater.trans highWater⟩
    intro heq
    omega
  have hdir : ∀ s∈others.map (Suspended.see turn.marks), ¬ Clean s.seen := not_clean_see marked (.inl rfl)
  have hbas : Isolated turn.memory.guardian (others.map (Suspended.see turn.marks)) saved := by
    apply (h.see turn.marks).change hdir
    · intro s hs snapshot hsna
      exact hcov snapshot ((h.see turn.marks).staged s hs snapshot hsna).2
    · intro entry hent
      exact hcov entry.2 (h.kept entry hent)
    · intro n hn
      exact ((h.see turn.marks).spent n hn).trans nonce
  have hpri : ∀ p, next.prior=some p → p=daemon.guardian := by
    intro p hp
    rw [prior] at hp
    exact (Option.some.inj hp).symm
  unfold World.resuspend
  simp only [waits]
  refine hbas.add ?_ ?_ ?_ ?_
  · intro snapshot hsna
    cases hsna
  · intro p hp _
    rw [hpri p hp]
    refine ⟨h.kept,?_,breakGlass⟩
    intro entry hent n hn
    exact h.spent n (spent_mem_of_saved hent hn)
  · intro other hoth
    refine ⟨fun _ _ hcle => absurd hcle (hdir other hoth),?_⟩
    intro p hp _
    obtain ⟨before,hbef,rfl⟩ := List.mem_map.mp hoth
    rw [hpri p hp]
    refine ⟨fun snapshot hsna => (h.staged before hbef snapshot hsna).2,?_⟩
    intro n hn
    exact h.spent n (spent_mem_of_suspended hbef hn)
  · intro n hn
    obtain ⟨rfl,hle⟩ := spends n hn
    refine ⟨?_,hle⟩
    rw [spentNonces_see]
    intro hmem
    have := h.spent _ hmem
    omega

theorem Isolated.takeBack (h : Isolated daemon.guardian others saved) {c : DaemonCall} {prior : GuardianHost}
    (hcar : Carried daemon.guardian others saved c seen) (hcle : Clean seen) (had : c.prior=some prior)
    {byTick : Bool} (waits : turn.next=.waits (.throws byTick)) (marked : .guardian∈turn.marks)
    (generation : turn.memory.guardian.requirementGeneration=prior.requirementGeneration)
    (nonce : turn.memory.guardian.disableNonce=prior.disableNonce)
    (rest : turn.memory.guardian.requirement=prior.requirement ∧
        turn.memory.guardian.loweredHighWater=prior.loweredHighWater ∨
      c.ofBreakGlass=true ∧ turn.memory.guardian.requirement=daemon.guardian.requirement ∧
        turn.memory.guardian.loweredHighWater=daemon.guardian.loweredHighWater) :
    Isolated turn.memory.guardian
      (others.map (Suspended.see turn.marks)++World.resuspend (daemonHost env) seen turn) saved := by
  have hbac := hcar.backed prior had hcle
  have hsam : SameGuardian prior turn.memory.guardian := by
    rcases rest with ⟨hreq,hhig⟩ | ⟨hkin,hreq,hhig⟩
    · exact ⟨hreq,generation,nonce,hhig⟩
    · obtain ⟨hlie,hliv⟩ := hbac.breakGlass hkin
      exact ⟨hreq.trans hlie,generation,nonce,hhig.trans hliv⟩
  have hdir : ∀ s∈others.map (Suspended.see turn.marks), ¬ Clean s.seen := not_clean_see marked (.inl rfl)
  have hbas : Isolated turn.memory.guardian (others.map (Suspended.see turn.marks)) saved := by
    apply (h.see turn.marks).change hdir
    · intro s hs snapshot hsna
      obtain ⟨before,hbef,rfl⟩ := List.mem_map.mp hs
      exact (hcar.covers prior had hcle before hbef snapshot hsna).congr hsam
    · intro entry hent
      exact (hbac.covers entry hent).congr hsam
    · intro n hn
      rw [hsam.nonce]
      rw [spentNonces_see] at hn
      rcases List.mem_append.mp hn with hn | hn
      · obtain ⟨entry,hent,hspe⟩ := List.mem_filterMap.mp hn
        exact hbac.nonces entry hent n hspe
      · obtain ⟨other,hoth,hspe⟩ := List.mem_filterMap.mp hn
        exact hcar.nonces prior had hcle other hoth n hspe
  unfold World.resuspend
  simp only [waits]
  refine hbas.add ?_ ?_ ?_ ?_
  · intro snapshot hsna
    cases hsna
  · intro p hp
    cases hp
  · intro other hoth
    refine ⟨fun _ _ hc => absurd hc (hdir other hoth),?_⟩
    intro p hp
    cases hp
  · intro n hn
    cases hn

theorem Isolated.take (h : Isolated daemon.guardian others saved) (htur : GuardianTurn daemon call turn)
    (hcar : ∀ c, call=some c → c.persists=false → Carried daemon.guardian others saved c seen)
    (hbac : ∀ c prior byTick, call=some c → c.prior=some prior → turn.next=.waits (.throws byTick) →
      Carried daemon.guardian others saved c seen ∧ Clean seen) :
    Isolated turn.memory.guardian
      (others.map (Suspended.see turn.marks)++World.resuspend (daemonHost env) seen turn) saved := by
  cases htur with
  | quiet same hand goesOn =>
    refine h.quiet same hand ?_
    intro next hnex
    rcases goesOn next hnex with hnone | ⟨c,hcal,hper,hres⟩
    · exact .inl hnone
    · exact .inr ⟨c,hcar c hcal hper,hres⟩
  | advance next waits marked prior generation nonce highWater spends breakGlass =>
    exact h.advance waits marked prior generation nonce highWater spends breakGlass
  | takeBack c prior resumed had byTick waits marked generation nonce rest =>
    obtain ⟨hc,hcle⟩ := hbac c prior byTick resumed had waits
    exact h.takeBack hc hcle had waits marked generation nonce rest

end Invariant

/-- A call puts fields back only where it goes on with a failure. -/
theorem resume_throws {env : FederationEnv} {daemon : Daemon} {reply : Reply} {c : DaemonCall} {prior : GuardianHost}
    {byTick : Bool} (hpri : c.prior=some prior)
    (h : (daemon.resume env reply c).next=.waits (.throws byTick)) : reply.ok=false ∧ c.takesBack=true := by
  by_cases hok : reply.ok=true
  · cases c with
    | auditTransition =>
      simp only [Daemon.resume,hok,if_true,Daemon.transitionAudited] at h
      split_ifs at h
      cases h
    | markEstablished | persistTransition | auditInitiate | persistInitiate | auditTerminate | persistTerminate =>
      simp [Daemon.resume,hok,Daemon.returns] at h
    | throws | auditTick | persistEnabled | persistJoin | persistAppend | persistHighWater | persistOutbound =>
      cases hpri
  · refine ⟨by simpa using hok,?_⟩
    cases c with
    | auditInitiate | auditTerminate => simp [Daemon.resume,hok,Daemon.returns] at h
    | auditTransition | markEstablished | persistTransition | persistInitiate | persistTerminate => rfl
    | throws | auditTick | persistEnabled | persistJoin | persistAppend | persistHighWater | persistOutbound =>
      cases hpri

def IsolatedWorld (world : DaemonWorld) : Prop := Isolated world.memory.guardian world.suspended world.saved

theorem IsolatedWorld.start (daemon : Daemon) (record : FederationSyncStateSnapshot) :
    IsolatedWorld (World.start daemon record) := by
  refine ⟨?_,?_,?_,List.Pairwise.nil,List.nodup_nil,?_⟩
  all_goals simp [World.start,spentNonces]

theorem IsolatedWorld.resume {env : FederationEnv} {world : DaemonWorld} {pre post : List SuspendedCall}
    {s : SuspendedCall} {reply told : Reply} (h : Isolated world.memory.guardian (pre++s::post) world.saved)
    (htol : s.replyOf reply=some told) (halo : told.ok=false → s.call.takesBack=true → Clean s.seen) :
    IsolatedWorld ({ world with saved := world.saved++s.written.toList }.take (daemonHost env) (pre++post) s.seen
      (world.memory.resume env told s.call)) := by
  unfold IsolatedWorld World.take
  dsimp only
  cases hwri : s.written with
  | none =>
    rw [Option.toList_none,List.append_nil]
    apply h.drop.take (resume_turn told s.call)
    · intro c hc _
      cases hc
      exact h.carried
    · intro c prior byTick hc hpri hthr
      cases hc
      obtain ⟨hfai,htak⟩ := resume_throws hpri hthr
      exact ⟨h.carried,halo hfai htak⟩
  | some entry =>
    -- The call has written, so it was told that it did and has nothing left to do.
    have hsta : ∃ snapshot, s.stage=.settled snapshot true ∧ entry=(s.call,snapshot) := by
      unfold Suspended.written at hwri
      split at hwri
      · next snapshot hset => exact ⟨snapshot,hset,(Option.some.inj hwri).symm⟩
      · cases hwri
    obtain ⟨snapshot,hset,rfl⟩ := hsta
    have hsna : s.stage.snapshot=some snapshot := by rw [hset]; rfl
    have hok : told.ok=true := by
      simp only [Suspended.replyOf,hset,Option.some.injEq] at htol
      rw [← htol]
    rw [Option.toList_some]
    apply (h.save hsna).take (resume_turn told s.call)
    · intro c hc hper
      cases hc
      have hdoe := (h.staged s (List.mem_append_right _ List.mem_cons_self) snapshot hsna).1
      rw [hper] at hdoe
      cases hdoe
    · intro c prior byTick hc hpri hthr
      cases hc
      have hfai := (resume_throws hpri hthr).1
      rw [hok] at hfai
      cases hfai

theorem IsolatedWorld.step {env : FederationEnv} {world : DaemonWorld} (h : IsolatedWorld world) {event : DaemonEvent}
    (hliv : IsLive event) (halo : TakesBackAlone world event) : IsolatedWorld (world.step (daemonHost env) event) := by
  cases event with
  | call request =>
    have htur : GuardianTurn world.memory none (world.memory.begin env request) := begin_turn request
    refine Isolated.take h htur ?_ ?_
    · intro c hc
      cases hc
    · intro c prior byTick hc
      cases hc
  | resume i reply =>
    change IsolatedWorld (world.resume (daemonHost env) i reply)
    obtain heq | ⟨pre,s,post,told,hlis,htol,hi,heq⟩ := resume_cases (daemonHost env) world i reply
    · rw [heq]
      exact h
    · rw [heq]
      apply IsolatedWorld.resume (hlis ▸ h) htol
      exact halo s told hi htol
  | write outcome =>
    change Isolated world.memory.guardian (World.writeFirst (daemonHost env) outcome world.record world.suspended).2 _
    obtain heq | ⟨pre,s,post,snapshot,hlis,hque,heq⟩ :=
      writeFirst_cases (daemonHost env) outcome world.record world.suspended
    · rw [heq]
      exact h
    · rw [heq]
      have hbef : Isolated world.memory.guardian (pre++s::post) world.saved := hlis ▸ h
      exact hbef.restage (by rw [hque]; rfl)
  | restart => exact hliv.elim

/-- The record is not below a snapshot. -/
structure Holds (record snapshot : FederationSyncStateSnapshot) : Prop where
  generation : snapshot.guardianRevocationRequirementGeneration ≤ record.guardianRevocationRequirementGeneration
  nonce : snapshot.guardianDisableNonce ≤ record.guardianDisableNonce
  highWater : snapshot.guardianLoweredHighWater ≤ record.guardianLoweredHighWater

theorem holds_merge (base next : FederationSyncStateSnapshot) : Holds (mergeSyncStateMonotonic base next) next :=
  ⟨Nat.le_max_right _ _,Int.le_max_right _ _,Int.le_max_right _ _⟩

theorem Holds.merge {base snapshot : FederationSyncStateSnapshot} (h : Holds base snapshot)
    (next : FederationSyncStateSnapshot) : Holds (mergeSyncStateMonotonic base next) snapshot :=
  ⟨h.generation.trans (Nat.le_max_left _ _),h.nonce.trans (Int.le_max_left _ _),
    h.highWater.trans (Int.le_max_left _ _)⟩

/-- What a call that succeeded has persisted stays in the record, the live fields stay at or above it, and no disable
nonce is spent by two of them. -/
theorem guardian_transitions_isolated (env : FederationEnv) (daemon : Daemon) (record : FederationSyncStateSnapshot)
    (events : List DaemonEvent)
    (hruns : World.Runs (daemonHost env) (fun world event => IsLive event ∧ TakesBackAlone world event)
      (World.start daemon record) events) :
    let world := (World.start daemon record : DaemonWorld).run (daemonHost env) events
    (∀ entry∈world.saved, Holds world.record entry.2 ∧ Covers world.memory.guardian entry.2) ∧
      (world.saved.filterMap fun entry => entry.1.spent).Nodup := by
  intro world
  have hiso : IsolatedWorld world :=
    hruns.invariant (fun w e hw he => hw.step he.1 he.2) (IsolatedWorld.start daemon record)
  have hrec : Recorded Holds world :=
    hruns.invariant (fun w e hw _ => hw.step holds_merge (fun _ next _ h => h.merge next) e)
      (Recorded.start Holds daemon record)
  refine ⟨?_,(List.nodup_append.mp hiso.nodup).1⟩
  intro entry hent
  exact ⟨hrec.saved entry hent,hiso.kept entry hent⟩

namespace IsolationSample

def env : FederationEnv := { LiveSample.env with context := some Sample.context }

def start : DaemonWorld :=
  World.start { Daemon.fresh env false with guardian := Sample.hostOf 2 5 0 } emptyFederationSyncState

/-- The initiation is not persisted, the cancellation after it is. -/
def cancelledMeanwhile : List DaemonEvent :=
  [.call (.initiate .disable none 0 0),.resume 0 ⟨true,0⟩,.call .cancel,.resume 1 ⟨true,0⟩,.write .failed,
    .resume 0 ⟨true,0⟩,.write .done,.resume 0 ⟨true,0⟩]

end IsolationSample

open IsolationSample in
theorem failed_initiation_takes_back :
    (start.run (daemonHost env) cancelledMeanwhile).saved.map
        (fun entry => (entry.2.guardianRevocationRequirementGeneration,entry.2.guardianDisableNonce))=[(7,1)] ∧
      (start.run (daemonHost env) cancelledMeanwhile).memory.guardian.requirementGeneration=5 ∧
      (start.run (daemonHost env) cancelledMeanwhile).memory.guardian.disableNonce=0 :=
  ⟨rfl,rfl,rfl⟩

open IsolationSample in
/-- The initiation is persisted before it is cancelled, and the cancellation is not. -/
theorem guardian_transitions_isolated_cancel :
    let events : List DaemonEvent := [.call (.initiate .disable none 0 0),.resume 0 ⟨true,0⟩,.write .done,
      .resume 0 ⟨true,0⟩,.call .cancel,.resume 0 ⟨true,0⟩,.write .failed,.resume 0 ⟨true,0⟩]
    let world := start.run (daemonHost env) events
    (world.saved.map fun entry => entry.2.guardianRevocationRequirementGeneration)=[6] ∧
      ∀ entry∈world.saved, Covers world.memory.guardian entry.2 := by
  refine ⟨rfl,?_⟩
  intro entry hent
  refine ((guardian_transitions_isolated env _ _ _ ?_).1 entry hent).2
  refine ⟨⟨trivial,trivial⟩,⟨trivial,?_⟩,⟨trivial,trivial⟩,⟨trivial,?_⟩,⟨trivial,trivial⟩,⟨trivial,?_⟩,
    ⟨trivial,trivial⟩,⟨trivial,?_⟩,trivial⟩
  · intro s told hs htol hok
    cases hs
    cases htol
    cases hok
  · intro s told hs htol hok
    cases hs
    cases htol
    cases hok
  · intro s told hs htol hok
    cases hs
    cases htol
    cases hok
  · intro s told hs htol hok _
    cases hs
    exact ⟨List.not_mem_nil,List.not_mem_nil⟩

end CastleWall.Federation
