import CastleWall.Federation.Daemon

/-! # What a daemon holds never goes back

Joins, appends, high waters and reservations of outbound counters wait for one record. A reservation that fails looks
whether it was the last one. A join that fails puts back the state it found, and a high water the value it found: what
another call did meanwhile is lost unless nothing was done. -/

namespace CastleWall.Federation

open Mesh Cooperative

abbrev Pending := DaemonCall × List DaemonMark

def Daemon.waterOf (daemon : Daemon) (senderNodeId : String) : Nat := (daemon.acceptedHighWaterFor senderNodeId).getD 0

def DaemonAnswer.reservedNext : DaemonAnswer → Option Nat
  | .reserved next => some next
  | _ => none

def DaemonCall.reservesNext : DaemonCall → Option Nat
  | .persistOutbound next => some next
  | _ => none

def Undisturbed (pending : Pending) : Prop :=
  match pending.1 with
  | .persistJoin _ _ _ => .revoked∉pending.2
  | .persistHighWater senderNodeId _ _ => .recorded senderNodeId∉pending.2
  | _ => True

def FailsUndisturbed (world : DaemonWorld) : DaemonEvent → Prop
  | .resume i reply => ∀ s told, world.suspended[i]? = some s → s.replyOf reply=some told → told.ok=false →
      Undisturbed s.view
  | _ => True

def IsLive : DaemonEvent → Prop
  | .restart _ _ => False
  | _ => True

def DaemonCall.isLive : DaemonCall → Bool
  | .persistJoin _ _ _ => true
  | .persistHighWater _ _ _ => true
  | .persistOutbound _ => true
  | _ => false

def DaemonAnswer.isLive : DaemonAnswer → Bool
  | .recorded _ _ => true
  | .reserved _ => true
  | _ => false

structure Quiet (daemon : Daemon) (turn : DaemonTurn) : Prop where
  revoked : turn.memory.state.revoked=daemon.state.revoked
  waters : turn.memory.acceptedHighWater=daemon.acceptedHighWater
  outbound : turn.memory.outboundHighWater=daemon.outboundHighWater
  suspends : ∀ call, turn.next.suspends=some call → call.isLive=false
  answers : ∀ answer, turn.next=.returns answer → answer.isLive=false

section Quiet

variable {env : FederationEnv} {daemon changed : Daemon} {answer : DaemonAnswer} {call : DaemonCall}
  {marks : List DaemonMark}

theorem quiet_returns (hrev : changed.state.revoked=daemon.state.revoked)
    (hwat : changed.acceptedHighWater=daemon.acceptedHighWater)
    (hout : changed.outboundHighWater=daemon.outboundHighWater) (hans : answer.isLive=false) :
    Quiet daemon ⟨changed,.returns answer,marks⟩ := by
  refine ⟨hrev,hwat,hout,?_,?_⟩
  · intro call h
    cases h
  · intro other h
    cases h
    exact hans

theorem quiet_suspends {next : Next DaemonCall DaemonAnswer} (hrev : changed.state.revoked=daemon.state.revoked)
    (hwat : changed.acceptedHighWater=daemon.acceptedHighWater)
    (hout : changed.outboundHighWater=daemon.outboundHighWater) (hnex : next.suspends=some call)
    (hcal : call.isLive=false) : Quiet daemon ⟨changed,next,marks⟩ := by
  refine ⟨hrev,hwat,hout,?_,?_⟩
  · intro other h
    rw [hnex] at h
    cases h
    exact hcal
  · intro answer h
    simp only at h
    rw [h] at hnex
    cases hnex

theorem commit_quiet (t : GuardianRequirementTransition) :
    Quiet daemon (daemon.commitGuardianRequirementTransition env t) := by
  unfold Daemon.commitGuardianRequirementTransition
  split
  · split_ifs
    · exact quiet_suspends rfl rfl rfl rfl rfl
    · exact quiet_returns rfl rfl rfl rfl
  · exact quiet_suspends rfl rfl rfl rfl rfl

theorem initiate_quiet (intent : DisableIntent) (targetM : Option Int) (delayMs now : Int) :
    Quiet daemon (daemon.initiateFederationGuardianBreakGlass intent targetM delayMs now) := by
  unfold Daemon.initiateFederationGuardianBreakGlass
  split_ifs
  · exact quiet_returns rfl rfl rfl rfl
  · exact quiet_returns rfl rfl rfl rfl
  · exact quiet_returns rfl rfl rfl rfl
  · exact quiet_returns rfl rfl rfl rfl
  · exact quiet_suspends rfl rfl rfl rfl rfl

theorem terminate_quiet (armed : BreakGlassState) :
    Quiet daemon (daemon.terminateFederationGuardianBreakGlass armed) := quiet_suspends rfl rfl rfl rfl rfl

theorem veto_quiet (approval : Option GuardianApproval) :
    Quiet daemon (daemon.vetoFederationGuardianBreakGlass env approval) := by
  unfold Daemon.vetoFederationGuardianBreakGlass
  split
  · split
    · exact quiet_suspends rfl rfl rfl rfl rfl
    · exact terminate_quiet _
  · exact quiet_returns rfl rfl rfl rfl

theorem cancel_quiet : Quiet daemon daemon.cancelFederationGuardianBreakGlass := by
  unfold Daemon.cancelFederationGuardianBreakGlass
  split
  · exact quiet_returns rfl rfl rfl rfl
  · exact terminate_quiet _

theorem tick_quiet : Quiet daemon daemon.tickFederationGuardianBreakGlass := by
  unfold Daemon.tickFederationGuardianBreakGlass
  split_ifs
  · exact quiet_returns rfl rfl rfl rfl
  · split
    · exact quiet_returns rfl rfl rfl rfl
    · exact quiet_suspends rfl rfl rfl rfl rfl

theorem tickAudited_quiet (armed : BreakGlassState) (now : Int) : Quiet daemon (daemon.tickAudited env armed now) := by
  unfold Daemon.tickAudited
  split_ifs
  · exact quiet_returns rfl rfl rfl rfl
  · exact quiet_returns rfl rfl rfl rfl
  · split
    · exact quiet_returns rfl rfl rfl rfl
    · split_ifs
      · exact quiet_returns rfl rfl rfl rfl
      · exact commit_quiet _

theorem rollBackTransition_quiet (prior : GuardianHost) (t : GuardianRequirementTransition) :
    Quiet daemon (daemon.rollBackTransition prior t) := quiet_suspends rfl rfl rfl rfl rfl

theorem transitionAudited_quiet (prior : GuardianHost) (t : GuardianRequirementTransition)
    (effect : GuardianRequirementEffect) : Quiet daemon (daemon.transitionAudited prior t effect) := by
  unfold Daemon.transitionAudited
  split_ifs
  · exact quiet_suspends rfl rfl rfl rfl rfl
  · exact quiet_suspends rfl rfl rfl rfl rfl

/-- A call that is not one of these three goes on quietly. -/
theorem resume_quiet (reply : Reply) (hcal : call.isLive=false) : Quiet daemon (daemon.resume env reply call) := by
  cases call with
  | throws | persistAppend =>
    unfold Daemon.resume
    first
      | exact quiet_returns rfl rfl rfl rfl
      | split_ifs <;> exact quiet_returns rfl rfl rfl rfl
  | auditTransition =>
    unfold Daemon.resume
    split_ifs
    · exact transitionAudited_quiet _ _ _
    · exact rollBackTransition_quiet _ _
  | markEstablished =>
    unfold Daemon.resume
    split_ifs
    · exact quiet_suspends rfl rfl rfl rfl rfl
    · exact rollBackTransition_quiet _ _
  | persistTransition =>
    unfold Daemon.resume
    split_ifs
    · exact quiet_returns rfl rfl rfl rfl
    · exact rollBackTransition_quiet _ _
  | auditInitiate | auditTerminate =>
    unfold Daemon.resume
    split_ifs
    · exact quiet_suspends rfl rfl rfl rfl rfl
    · exact quiet_returns rfl rfl rfl rfl
  | persistInitiate | persistTerminate =>
    unfold Daemon.resume
    split_ifs
    · exact quiet_returns rfl rfl rfl rfl
    · exact quiet_suspends rfl rfl rfl rfl rfl
  | auditTick =>
    unfold Daemon.resume
    split_ifs
    · exact tickAudited_quiet _ _
    · exact quiet_returns rfl rfl rfl rfl
  | persistEnabled =>
    unfold Daemon.resume
    split_ifs
    · exact quiet_returns rfl rfl rfl rfl
    · exact quiet_returns rfl rfl rfl rfl
  | persistJoin | persistHighWater | persistOutbound => cases hcal

end Quiet

def seeAll (marks : List DaemonMark) (pending : List Pending) : List Pending :=
  pending.map fun p => (p.1,p.2++marks)

def suspendedAfter (pending : List Pending) (seen : List DaemonMark) (turn : DaemonTurn) : List Pending :=
  seeAll turn.marks pending++turn.next.suspends.toList.map fun call => (call,seen)

theorem suspendedAfter_returns {pending : List Pending} {seen : List DaemonMark} {turn : DaemonTurn}
    {answer : DaemonAnswer} (hnex : turn.next=.returns answer) :
    suspendedAfter pending seen turn=seeAll turn.marks pending := by
  simp [suspendedAfter,hnex,Next.suspends]

theorem suspendedAfter_writes {pending : List Pending} {seen : List DaemonMark} {turn : DaemonTurn}
    {call : DaemonCall} (hnex : turn.next=.writes call) :
    suspendedAfter pending seen turn=seeAll turn.marks pending++[(call,seen)] := by
  simp [suspendedAfter,hnex,Next.suspends]

theorem answered_returns {turn : DaemonTurn} {answer : DaemonAnswer} (hnex : turn.next=.returns answer) :
    World.answered turn=[answer] := by
  simp [World.answered,hnex]

theorem answered_writes {turn : DaemonTurn} {call : DaemonCall} (hnex : turn.next=.writes call) :
    World.answered turn=[] := by
  simp [World.answered,hnex]

theorem mem_answered {turn : DaemonTurn} {answer : DaemonAnswer} (h : answer∈World.answered turn) :
    turn.next=.returns answer := by
  cases hnex : turn.next with
  | returns other =>
    simp only [World.answered,hnex,List.mem_singleton] at h
    rw [h]
  | waits | writes => simp [World.answered,hnex] at h

/-- A join that has seen no revocation would put back the set that is there. -/
def JoinsKept (daemon : Daemon) (pending : List Pending) : Prop :=
  ∀ p∈pending, ∀ nodeId had prior, p.1=.persistJoin nodeId had prior → .revoked∉p.2 →
    prior.revoked=daemon.state.revoked

section Joins

variable {daemon : Daemon} {pending : List Pending} {seen : List DaemonMark} {turn : DaemonTurn}

theorem JoinsKept.take (h : JoinsKept daemon pending)
    (hmak : turn.memory.state.revoked=daemon.state.revoked ∨ .revoked∈turn.marks)
    (hnew : ∀ nodeId had prior, turn.next.suspends=some (.persistJoin nodeId had prior) →
      prior.revoked=turn.memory.state.revoked) :
    JoinsKept turn.memory (suspendedAfter pending seen turn) := by
  intro p hp nodeId had prior hcal hcle
  rcases List.mem_append.mp hp with hold | hsel
  · obtain ⟨q,hq,rfl⟩ := List.mem_map.mp hold
    rw [List.mem_append,not_or] at hcle
    have hbef := h q hq nodeId had prior hcal hcle.1
    rcases hmak with hsam | hmar
    · rw [hbef,hsam]
    · exact absurd hmar hcle.2
  · obtain ⟨call,hsus,rfl⟩ := List.mem_map.mp hsel
    have hcal' : call=.persistJoin nodeId had prior := hcal
    rw [Option.mem_toList,hcal'] at hsus
    exact hnew nodeId had prior hsus

theorem JoinsKept.quiet (h : JoinsKept daemon pending) (hqui : Quiet daemon turn) :
    JoinsKept turn.memory (suspendedAfter pending seen turn) := by
  refine h.take (.inl hqui.revoked) ?_
  intro nodeId had prior hnex
  cases hqui.suspends _ hnex

theorem JoinsKept.drop {pre post : List Pending} {p : Pending} (h : JoinsKept daemon (pre++p::post)) :
    JoinsKept daemon (pre++post) := by
  intro q hq
  exact h q (by
    rcases List.mem_append.mp hq with hq | hq
    · exact List.mem_append_left _ hq
    · exact List.mem_append_right _ (List.mem_cons_of_mem p hq))

end Joins

/-- Of two recordings of one sender, the one that has seen none since it began is the later. -/
def Apart (p q : Pending) : Prop :=
  ∀ sender prior highWater prior' highWater', p.1=.persistHighWater sender prior highWater →
    q.1=.persistHighWater sender prior' highWater' →
      (.recorded sender∉p.2 → highWater' ≤ prior) ∧ (.recorded sender∉q.2 → highWater ≤ prior')

structure WatersKept (daemon : Daemon) (pending : List Pending) (answers : List DaemonAnswer) : Prop where
  acked : ∀ sender highWater, .recorded sender highWater∈answers → highWater ≤ daemon.waterOf sender
  reached : ∀ p∈pending, ∀ sender prior highWater, p.1=.persistHighWater sender prior highWater →
    highWater ≤ daemon.waterOf sender
  ackedBefore : ∀ p∈pending, ∀ sender prior highWater, p.1=.persistHighWater sender prior highWater →
    .recorded sender∉p.2 → ∀ other, .recorded sender other∈answers → other ≤ prior
  apart : pending.Pairwise Apart

section Waters

variable {daemon changed : Daemon} {pending pre post : List Pending} {answers more : List DaemonAnswer}
  {seen marks : List DaemonMark} {turn : DaemonTurn} {p q : Pending}

theorem Apart.symm (h : Apart p q) : Apart q p := by
  intro sender prior highWater prior' highWater' hq hp
  exact (h sender prior' highWater' prior highWater hp hq).symm

theorem Apart.see (h : Apart p q) (marks : List DaemonMark) : Apart (p.1,p.2++marks) (q.1,q.2++marks) := by
  intro sender prior highWater prior' highWater' hp hq
  obtain ⟨hfir,hsec⟩ := h sender prior highWater prior' highWater' hp hq
  refine ⟨fun hcle => hfir ?_,fun hcle => hsec ?_⟩
  · exact fun hmem => hcle (List.mem_append_left _ hmem)
  · exact fun hmem => hcle (List.mem_append_left _ hmem)

theorem WatersKept.see (h : WatersKept daemon pending answers) (marks : List DaemonMark) :
    WatersKept daemon (seeAll marks pending) answers where
  acked := h.acked
  reached := by
    intro p hp
    obtain ⟨q,hq,rfl⟩ := List.mem_map.mp hp
    exact h.reached q hq
  ackedBefore := by
    intro p hp sender prior highWater hcal hcle
    obtain ⟨q,hq,rfl⟩ := List.mem_map.mp hp
    exact h.ackedBefore q hq sender prior highWater hcal fun hmem => hcle (List.mem_append_left _ hmem)
  apart := by
    rw [seeAll,List.pairwise_map]
    exact h.apart.imp fun hpq => hpq.see marks

theorem WatersKept.drop (h : WatersKept daemon (pre++p::post) answers) : WatersKept daemon (pre++post) answers := by
  have hmem : ∀ q∈pre++post, q∈pre++p::post := by
    intro q hq
    rcases List.mem_append.mp hq with hq | hq
    · exact List.mem_append_left _ hq
    · exact List.mem_append_right _ (List.mem_cons_of_mem p hq)
  exact ⟨h.acked,fun q hq => h.reached q (hmem q hq),fun q hq => h.ackedBefore q (hmem q hq),
    h.apart.sublist (List.Sublist.append_left (List.sublist_cons_self p post) pre)⟩

theorem WatersKept.congr (h : WatersKept daemon pending answers)
    (hsam : changed.acceptedHighWater=daemon.acceptedHighWater) : WatersKept changed pending answers := by
  have hwat : ∀ sender, changed.waterOf sender=daemon.waterOf sender := by
    intro sender
    simp only [Daemon.waterOf,Daemon.acceptedHighWaterFor,hsam]
  refine ⟨?_,?_,h.ackedBefore,h.apart⟩
  · intro sender highWater hmem
    rw [hwat]
    exact h.acked sender highWater hmem
  · intro p hp sender prior highWater hcal
    rw [hwat]
    exact h.reached p hp sender prior highWater hcal

theorem WatersKept.extend (h : WatersKept daemon pending answers) {calls : List DaemonCall}
    (hcal : ∀ call∈calls, ∀ sender prior highWater, call≠.persistHighWater sender prior highWater)
    (hmor : ∀ sender highWater, .recorded sender highWater∉more) :
    WatersKept daemon (pending++calls.map fun call => (call,seen)) (answers++more) := by
  have hnot : ∀ p∈calls.map (fun call => (call,seen)), ∀ sender prior highWater,
      p.1≠.persistHighWater sender prior highWater := by
    intro p hp
    obtain ⟨call,hcll,rfl⟩ := List.mem_map.mp hp
    exact hcal call hcll
  refine ⟨?_,?_,?_,?_⟩
  · intro sender highWater hmem
    rcases List.mem_append.mp hmem with hmem | hmem
    · exact h.acked sender highWater hmem
    · exact absurd hmem (hmor sender highWater)
  · intro p hp sender prior highWater hcll
    rcases List.mem_append.mp hp with hp | hp
    · exact h.reached p hp sender prior highWater hcll
    · exact absurd hcll (hnot p hp sender prior highWater)
  · intro p hp sender prior highWater hcll hcle other hmem
    rcases List.mem_append.mp hp with hp | hp
    · rcases List.mem_append.mp hmem with hmem | hmem
      · exact h.ackedBefore p hp sender prior highWater hcll hcle other hmem
      · exact absurd hmem (hmor sender other)
    · exact absurd hcll (hnot p hp sender prior highWater)
  · rw [List.pairwise_append]
    refine ⟨h.apart,?_,?_⟩
    · rw [List.pairwise_iff_forall_sublist]
      intro p q hsub sender prior highWater prior' highWater' hp
      have hmem : p∈calls.map fun call => (call,seen) := hsub.subset List.mem_cons_self
      exact absurd hp (hnot p hmem sender prior highWater)
    · intro p _ q hq sender prior highWater prior' highWater' _ hcll
      exact absurd hcll (hnot q hq sender prior' highWater')

theorem WatersKept.take (h : WatersKept daemon pending answers)
    (hsam : turn.memory.acceptedHighWater=daemon.acceptedHighWater)
    (hcal : ∀ sender prior highWater, turn.next.suspends≠some (.persistHighWater sender prior highWater))
    (hans : ∀ sender highWater, turn.next≠.returns (.recorded sender highWater)) :
    WatersKept turn.memory (suspendedAfter pending seen turn) (answers++World.answered turn) := by
  refine ((h.see turn.marks).congr hsam).extend ?_ ?_
  · intro call hcll sender prior highWater heq
    rw [Option.mem_toList,heq] at hcll
    exact hcal sender prior highWater hcll
  · intro sender highWater hmem
    exact hans sender highWater (mem_answered hmem)

theorem WatersKept.quiet (h : WatersKept daemon pending answers) (hqui : Quiet daemon turn) :
    WatersKept turn.memory (suspendedAfter pending seen turn) (answers++World.answered turn) := by
  apply h.take hqui.waters
  · intro sender prior highWater hnex
    cases hqui.suspends _ hnex
  · intro sender highWater hnex
    cases hqui.answers _ hnex

variable {sender : String} {prior highWater : Nat}

theorem waterOf_set (h : changed.acceptedHighWater=daemon.acceptedHighWater.set sender highWater) (other : String) :
    changed.waterOf other=if other=sender then highWater else daemon.waterOf other := by
  simp only [Daemon.waterOf,Daemon.acceptedHighWaterFor,h,OrderedMap.get_set]
  split_ifs
  · rfl
  · rfl

theorem WatersKept.advance (h : WatersKept daemon pending answers) (hpri : prior=daemon.waterOf sender)
    (hlt : prior < highWater) (hset : turn.memory.acceptedHighWater=daemon.acceptedHighWater.set sender highWater)
    (hnex : turn.next=.writes (.persistHighWater sender prior highWater)) (hmar : .recorded sender∈turn.marks) :
    WatersKept turn.memory (suspendedAfter pending seen turn) (answers++World.answered turn) := by
  rw [suspendedAfter_writes hnex,answered_writes hnex,List.append_nil]
  have hmon : ∀ other, daemon.waterOf other ≤ turn.memory.waterOf other := by
    intro other
    rw [waterOf_set hset]
    split_ifs with hoth
    · rw [hoth,← hpri]
      exact hlt.le
    · exact le_refl _
  have hold := h.see turn.marks
  refine ⟨?_,?_,?_,?_⟩
  · intro other value hmem
    exact (h.acked other value hmem).trans (hmon other)
  · intro p hp other prior' value hcal
    rcases List.mem_append.mp hp with hp | hp
    · exact (hold.reached p hp other prior' value hcal).trans (hmon other)
    · rw [List.mem_singleton.mp hp] at hcal
      cases hcal
      rw [waterOf_set hset,if_pos rfl]
  · intro p hp other prior' value hcal hcle answer hmem
    rcases List.mem_append.mp hp with hp | hp
    · exact hold.ackedBefore p hp other prior' value hcal hcle answer hmem
    · rw [List.mem_singleton.mp hp] at hcal
      cases hcal
      rw [hpri]
      exact h.acked _ answer hmem
  · rw [List.pairwise_append]
    refine ⟨hold.apart,List.pairwise_singleton _ _,?_⟩
    intro p hp q hq other prior' value' prior'' value'' hcal hcal'
    rw [List.mem_singleton.mp hq] at hcal'
    cases hcal'
    obtain ⟨waiting,hwai,rfl⟩ := List.mem_map.mp hp
    refine ⟨?_,?_⟩
    · intro hcle
      exact absurd (List.mem_append_right _ hmar) hcle
    · intro _
      rw [hpri]
      exact h.reached waiting hwai _ prior' value' hcal

/-- A recording that does not advance is acknowledged at once. -/
theorem WatersKept.acknowledge (h : WatersKept daemon pending answers) (hle : highWater ≤ daemon.waterOf sender)
    (hsam : turn.memory.acceptedHighWater=daemon.acceptedHighWater)
    (hnex : turn.next=.returns (.recorded sender highWater)) (hmar : .recorded sender∈turn.marks) :
    WatersKept turn.memory (suspendedAfter pending seen turn) (answers++World.answered turn) := by
  rw [suspendedAfter_returns hnex,answered_returns hnex]
  have hold := h.see turn.marks
  refine WatersKept.congr ?_ hsam
  refine ⟨?_,hold.reached,?_,hold.apart⟩
  · intro other value hmem
    rcases List.mem_append.mp hmem with hmem | hmem
    · exact h.acked other value hmem
    · cases List.mem_singleton.mp hmem
      exact hle
  · intro p hp other prior' value hcal hcle answer hmem
    rcases List.mem_append.mp hmem with hmem | hmem
    · exact hold.ackedBefore p hp other prior' value hcal hcle answer hmem
    · cases List.mem_singleton.mp hmem
      obtain ⟨q,_,rfl⟩ := List.mem_map.mp hp
      exact absurd (List.mem_append_right _ hmar) hcle

theorem WatersKept.apart_of_mem (h : WatersKept daemon (pre++p::post) answers) (hq : q∈pre++post) :
    Apart q p := by
  have happ := List.pairwise_append.mp h.apart
  rcases List.mem_append.mp hq with hq | hq
  · exact happ.2.2 q hq p List.mem_cons_self
  · exact ((List.pairwise_cons.mp happ.2.1).1 q hq).symm

theorem WatersKept.settle (h : WatersKept daemon (pre++p::post) answers)
    (hp : p.1=.persistHighWater sender prior highWater)
    (hsam : turn.memory.acceptedHighWater=daemon.acceptedHighWater)
    (hnex : turn.next=.returns (.recorded sender highWater)) :
    WatersKept turn.memory (suspendedAfter (pre++post) seen turn) (answers++World.answered turn) := by
  rw [suspendedAfter_returns hnex,answered_returns hnex]
  refine WatersKept.congr (WatersKept.see ?_ turn.marks) hsam
  refine ⟨?_,h.drop.reached,?_,h.drop.apart⟩
  · intro other value hmem
    rcases List.mem_append.mp hmem with hmem | hmem
    · exact h.acked other value hmem
    · cases List.mem_singleton.mp hmem
      exact h.reached p (List.mem_append_right _ List.mem_cons_self) _ prior _ hp
  · intro q hq other prior' value hcal hcle answer hmem
    rcases List.mem_append.mp hmem with hmem | hmem
    · exact h.drop.ackedBefore q hq other prior' value hcal hcle answer hmem
    · cases List.mem_singleton.mp hmem
      exact (h.apart_of_mem hq _ prior' value prior _ hcal hp).1 hcle

/-- A recording that saw none of its sender's is taken back to a value that covers all of them. -/
theorem WatersKept.rollBack (h : WatersKept daemon (pre++p::post) answers)
    (hp : p.1=.persistHighWater sender prior highWater) (hcle : .recorded sender∉p.2)
    (hset : turn.memory.acceptedHighWater=daemon.acceptedHighWater.set sender prior)
    (hnex : turn.next=.returns .failed) :
    WatersKept turn.memory (suspendedAfter (pre++post) seen turn) (answers++World.answered turn) := by
  have hkep : WatersKept turn.memory (pre++post) answers := ?_
  · refine WatersKept.take hkep rfl ?_ ?_
    · simp [hnex,Next.suspends]
    · simp [hnex]
  have hsel : p∈pre++p::post := List.mem_append_right _ List.mem_cons_self
  refine ⟨?_,?_,h.drop.ackedBefore,h.drop.apart⟩
  · intro other value hmem
    rw [waterOf_set hset]
    split_ifs with hoth
    · subst hoth
      exact h.ackedBefore p hsel _ prior highWater hp hcle value hmem
    · exact h.acked other value hmem
  · intro q hq other prior' value hcal
    rw [waterOf_set hset]
    split_ifs with hoth
    · subst hoth
      exact (h.apart_of_mem hq _ prior' value prior highWater hcal hp).2 hcle
    · exact h.drop.reached q hq other prior' value hcal

end Waters

def counters (pending : List Pending) (answers : List DaemonAnswer) : List Nat :=
  answers.filterMap DaemonAnswer.reservedNext++pending.filterMap fun p => p.1.reservesNext

structure CountersKept (daemon : Daemon) (pending : List Pending) (answers : List DaemonAnswer) : Prop where
  nodup : (counters pending answers).Nodup
  issued : ∀ next∈counters pending answers, next ≤ daemon.outboundHighWater

section Counters

variable {daemon changed : Daemon} {pending pre post : List Pending} {answers : List DaemonAnswer}
  {seen : List DaemonMark} {turn : DaemonTurn} {p : Pending} {next : Nat}

theorem counters_seeAll (marks : List DaemonMark) (pending : List Pending) (answers : List DaemonAnswer) :
    counters (seeAll marks pending) answers=counters pending answers := by
  simp only [counters,seeAll,List.filterMap_map]
  rfl

theorem CountersKept.see (h : CountersKept daemon pending answers) (marks : List DaemonMark) :
    CountersKept daemon (seeAll marks pending) answers := by
  refine ⟨?_,?_⟩
  · rw [counters_seeAll]
    exact h.nodup
  · rw [counters_seeAll]
    exact h.issued

theorem CountersKept.congr (h : CountersKept daemon pending answers)
    (hsam : changed.outboundHighWater=daemon.outboundHighWater) : CountersKept changed pending answers := by
  refine ⟨h.nodup,?_⟩
  rw [hsam]
  exact h.issued

theorem CountersKept.of_perm {pending' : List Pending} {answers' : List DaemonAnswer}
    (h : CountersKept daemon pending answers) (hper : (counters pending answers).Perm (counters pending' answers')) :
    CountersKept daemon pending' answers' :=
  ⟨hper.nodup_iff.mp h.nodup,fun next hnex => h.issued next (hper.mem_iff.mpr hnex)⟩

theorem CountersKept.extend (h : CountersKept daemon pending answers) {calls : List DaemonCall}
    {more : List DaemonAnswer} (hcal : ∀ call∈calls, call.reservesNext=none)
    (hmor : ∀ answer∈more, answer.reservedNext=none) :
    CountersKept daemon (pending++calls.map fun call => (call,seen)) (answers++more) := by
  have hsam : counters (pending++calls.map fun call => (call,seen)) (answers++more) =
      counters pending answers := by
    have hcal' : (calls.map fun call => (call,seen)).filterMap (fun p => p.1.reservesNext)=[] := by
      rw [List.filterMap_map,List.filterMap_eq_nil_iff]
      exact hcal
    have hmor' : more.filterMap DaemonAnswer.reservedNext=[] := List.filterMap_eq_nil_iff.mpr hmor
    rw [counters,List.filterMap_append,List.filterMap_append,hcal',hmor',List.append_nil,List.append_nil,
      counters]
  exact h.of_perm (List.Perm.of_eq hsam.symm)

theorem reservesNext_of_not_live {call : DaemonCall} (h : call.isLive=false) : call.reservesNext=none := by
  cases call <;> first | rfl | cases h

theorem reservedNext_of_not_live {answer : DaemonAnswer} (h : answer.isLive=false) : answer.reservedNext=none := by
  cases answer <;> first | rfl | cases h

theorem CountersKept.take (h : CountersKept daemon pending answers)
    (hsam : turn.memory.outboundHighWater=daemon.outboundHighWater)
    (hcal : ∀ call, turn.next.suspends=some call → call.reservesNext=none)
    (hans : ∀ answer, turn.next=.returns answer → answer.reservedNext=none) :
    CountersKept turn.memory (suspendedAfter pending seen turn) (answers++World.answered turn) := by
  refine ((h.see turn.marks).congr hsam).extend ?_ ?_
  · intro call hcll
    exact hcal call (Option.mem_toList.mp hcll)
  · intro answer hanr
    exact hans answer (mem_answered hanr)

theorem CountersKept.quiet (h : CountersKept daemon pending answers) (hqui : Quiet daemon turn) :
    CountersKept turn.memory (suspendedAfter pending seen turn) (answers++World.answered turn) := by
  apply h.take hqui.outbound
  · intro call hnex
    exact reservesNext_of_not_live (hqui.suspends call hnex)
  · intro answer hnex
    exact reservedNext_of_not_live (hqui.answers answer hnex)

theorem counters_middle (pre post : List Pending) (p : Pending) (answers : List DaemonAnswer) :
    (counters (pre++p::post) answers).Perm (p.1.reservesNext.toList++counters (pre++post) answers) := by
  have hcon : ∀ rest : List Pending, (p::rest).filterMap (fun p => p.1.reservesNext) =
      p.1.reservesNext.toList++rest.filterMap fun p => p.1.reservesNext := by
    intro rest
    cases h : p.1.reservesNext <;> simp [h]
  simp only [counters,List.filterMap_append,hcon]
  rw [← List.append_assoc]
  refine (List.perm_append_comm_assoc _ _ _).trans ?_
  rw [List.append_assoc]

theorem CountersKept.drop (h : CountersKept daemon (pre++p::post) answers) :
    CountersKept daemon (pre++post) answers := by
  have hper := counters_middle pre post p answers
  refine ⟨(List.nodup_append.mp (hper.nodup_iff.mp h.nodup)).2.1,?_⟩
  intro next hnex
  exact h.issued next (hper.mem_iff.mpr (List.mem_append_right _ hnex))

theorem CountersKept.reserve (h : CountersKept daemon pending answers)
    (hsam : turn.memory.outboundHighWater=daemon.outboundHighWater+1)
    (hnex : turn.next=.writes (.persistOutbound (daemon.outboundHighWater+1))) :
    CountersKept turn.memory (suspendedAfter pending seen turn) (answers++World.answered turn) := by
  rw [suspendedAfter_writes hnex,answered_writes hnex,List.append_nil]
  replace h := h.see turn.marks
  have hper := counters_middle (seeAll turn.marks pending) [] (.persistOutbound (daemon.outboundHighWater+1),seen) answers
  rw [List.append_nil] at hper
  have hnew : daemon.outboundHighWater+1∉counters (seeAll turn.marks pending) answers := by
    intro hmem
    have := h.issued _ hmem
    omega
  refine ⟨hper.nodup_iff.mpr (List.nodup_cons.mpr ⟨hnew,h.nodup⟩),?_⟩
  intro next hmem
  rw [hsam]
  rcases List.mem_cons.mp (hper.mem_iff.mp hmem) with rfl | hmem
  · exact le_refl _
  · exact (h.issued next hmem).trans (Nat.le_succ _)

theorem CountersKept.settle (h : CountersKept daemon (pre++p::post) answers) (hp : p.1=.persistOutbound next)
    (hsam : turn.memory.outboundHighWater=daemon.outboundHighWater)
    (hnex : turn.next=.returns (.reserved next)) :
    CountersKept turn.memory (suspendedAfter (pre++post) seen turn) (answers++World.answered turn) := by
  rw [suspendedAfter_returns hnex,answered_returns hnex]
  refine CountersKept.congr (CountersKept.see ?_ turn.marks) hsam
  have hper := counters_middle pre post p answers
  rw [hp] at hper
  refine h.of_perm (hper.trans ?_)
  simp only [counters,List.filterMap_append]
  rw [List.append_assoc]
  exact (List.perm_append_comm_assoc _ _ _)

/-- Where a reservation is undone, no other counter is as high. -/
theorem CountersKept.rollBack (h : CountersKept daemon (pre++p::post) answers) (hp : p.1=.persistOutbound next) :
    CountersKept (daemon.rollBackOutbound next) (pre++post) answers := by
  unfold Daemon.rollBackOutbound
  split_ifs with hlas
  · have hper := counters_middle pre post p answers
    rw [hp] at hper
    have hnod := List.nodup_cons.mp (hper.nodup_iff.mp h.nodup)
    refine ⟨hnod.2,?_⟩
    intro other hmem
    have hle := h.issued other (hper.mem_iff.mpr (List.mem_cons_of_mem _ hmem))
    have hne : other≠next := by
      rintro rfl
      exact hnod.1 hmem
    change other ≤ next - 1
    omega
  · exact h.drop

end Counters

structure LiveKept (daemon : Daemon) (pending : List Pending) (answers : List DaemonAnswer) : Prop where
  joins : JoinsKept daemon pending
  waters : WatersKept daemon pending answers
  counters : CountersKept daemon pending answers

abbrev LiveKept.After (pending : List Pending) (answers : List DaemonAnswer) (seen : List DaemonMark)
    (turn : DaemonTurn) : Prop :=
  LiveKept turn.memory (suspendedAfter pending seen turn) (answers++World.answered turn)

section Steps

variable {env : FederationEnv} {daemon : Daemon} {pending pre post : List Pending} {answers : List DaemonAnswer}
  {seen : List DaemonMark} {turn : DaemonTurn} {p : Pending}

theorem LiveKept.quiet (h : LiveKept daemon pending answers) (hqui : Quiet daemon turn) :
    LiveKept.After pending answers seen turn :=
  ⟨h.joins.quiet hqui,h.waters.quiet hqui,h.counters.quiet hqui⟩

theorem LiveKept.drop (h : LiveKept daemon (pre++p::post) answers) : LiveKept daemon (pre++post) answers :=
  ⟨h.joins.drop,h.waters.drop,h.counters.drop⟩

theorem LiveKept.recordJoin (h : LiveKept daemon pending answers) (nodeId nodeMode : String) :
    LiveKept.After pending answers seen (daemon.recordJoin env nodeId nodeMode) := by
  refine ⟨h.joins.take (.inl rfl) ?_,h.waters.take rfl ?_ ?_,h.counters.take rfl ?_ ?_⟩
  · intro other had prior hnex
    cases hnex
    rfl
  · intro sender prior highWater hnex
    cases hnex
  · intro sender highWater hnex
    cases hnex
  · intro call hnex
    cases hnex
    rfl
  · intro answer hnex
    cases hnex

theorem revokedMark_spec (before after : FederationDashboardState) (marks : List DaemonMark) :
    after.revoked=before.revoked ∨ .revoked∈marks++Daemon.revokedMark before after := by
  unfold Daemon.revokedMark
  split_ifs with hsam
  · exact .inl hsam
  · exact .inr (List.mem_append_right _ List.mem_cons_self)

theorem LiveKept.append (h : LiveKept daemon pending answers) (events : List FederationEvent)
    (senderNodeId : Option String) (wireVersionSupported : Bool) :
    LiveKept.After pending answers seen
      (daemon.appendFederationEvents env events senderNodeId wireVersionSupported) := by
  unfold Daemon.appendFederationEvents
  dsimp only
  split_ifs
  · exact h.quiet (quiet_returns rfl rfl rfl rfl)
  · refine ⟨h.joins.take (revokedMark_spec daemon.state _ [.handed]) ?_,h.waters.take rfl ?_ ?_,
      h.counters.take rfl ?_ ?_⟩
    · intro other had prior hnex
      cases hnex
    · intro sender prior highWater hnex
      cases hnex
    · intro sender highWater hnex
      cases hnex
    · intro call hnex
      cases hnex
      rfl
    · intro answer hnex
      cases hnex
  · refine ⟨h.joins.take (revokedMark_spec daemon.state _ []) ?_,h.waters.take rfl ?_ ?_,
      h.counters.take rfl ?_ ?_⟩
    · intro other had prior hnex
      cases hnex
    · intro sender prior highWater hnex
      cases hnex
    · intro sender highWater hnex
      cases hnex
    · intro call hnex
      cases hnex
    · intro answer hnex
      cases hnex
      rfl

theorem LiveKept.recordHighWater (h : LiveKept daemon pending answers) (sender : String) (highWater : Nat)
    (nodeMode : Option String) :
    LiveKept.After pending answers seen (daemon.recordAcceptedHighWater sender highWater nodeMode) := by
  unfold Daemon.recordAcceptedHighWater
  dsimp only
  split_ifs with hlat hadv
  · exact h.quiet (quiet_returns rfl rfl rfl rfl)
  · refine ⟨h.joins.take (.inl rfl) ?_,?_,h.counters.take rfl ?_ ?_⟩
    · intro nodeId had prior hnex
      cases hnex
    · exact h.waters.advance rfl hadv rfl rfl (List.mem_cons_of_mem _ List.mem_cons_self)
    · intro call hnex
      cases hnex
      rfl
    · intro answer hnex
      cases hnex
  · refine ⟨h.joins.take (.inl rfl) ?_,?_,h.counters.take rfl ?_ ?_⟩
    · intro nodeId had prior hnex
      cases hnex
    · exact h.waters.acknowledge (not_lt.mp hadv) rfl rfl List.mem_cons_self
    · intro call hnex
      cases hnex
    · intro answer hnex
      cases hnex
      rfl

theorem LiveKept.reserve (h : LiveKept daemon pending answers) :
    LiveKept.After pending answers seen daemon.nextOutboundHighWater := by
  unfold Daemon.nextOutboundHighWater
  split_ifs
  · exact h.quiet (quiet_returns rfl rfl rfl rfl)
  · refine ⟨h.joins.take (.inl rfl) ?_,h.waters.take rfl ?_ ?_,h.counters.reserve rfl rfl⟩
    · intro nodeId had prior hnex
      cases hnex
    · intro sender prior highWater hnex
      cases hnex
    · intro sender highWater hnex
      cases hnex

theorem LiveKept.begin (h : LiveKept daemon pending answers) (request : DaemonRequest) :
    LiveKept.After pending answers seen (daemon.begin env request) := by
  cases request with
  | setRequirement => exact h.quiet (commit_quiet _)
  | initiate => exact h.quiet (initiate_quiet _ _ _ _)
  | veto => exact h.quiet (veto_quiet _)
  | cancel => exact h.quiet cancel_quiet
  | tick => exact h.quiet tick_quiet
  | setEnabled => exact h.quiet (quiet_suspends rfl rfl rfl rfl rfl)
  | recordJoin => exact h.recordJoin _ _
  | append => exact h.append _ _ _
  | recordAcceptedHighWater => exact h.recordHighWater _ _ _
  | nextOutboundHighWater => exact h.reserve

/-- A join that was not persisted: the set it puts back is the one that is there. -/
theorem LiveKept.joinFailed {nodeId : String} {had : Bool} {prior : FederationDashboardState}
    (h : LiveKept daemon (pre++(.persistJoin nodeId had prior,seen)::post) answers) (hcle : .revoked∉seen) :
    LiveKept.After (pre++post) answers seen ((daemon.rollBackJoin nodeId had prior).returns .failed) := by
  have hpri := h.joins _ (List.mem_append_right _ List.mem_cons_self) nodeId had prior rfl hcle
  exact h.drop.quiet (quiet_returns hpri rfl rfl rfl)

theorem LiveKept.highWaterFailed {sender : String} {prior highWater : Nat}
    (h : LiveKept daemon (pre++(.persistHighWater sender prior highWater,seen)::post) answers)
    (hcle : .recorded sender∉seen) :
    LiveKept.After (pre++post) answers seen
      (Daemon.returns { daemon with acceptedHighWater := daemon.acceptedHighWater.set sender prior } .failed) := by
  refine ⟨h.joins.drop.take (.inl rfl) ?_,h.waters.rollBack rfl hcle rfl rfl,h.counters.drop.take rfl ?_ ?_⟩
  · intro nodeId had prior hnex
    cases hnex
  · intro call hnex
    cases hnex
  · intro answer hnex
    cases hnex
    rfl

theorem LiveKept.highWaterRecorded {sender : String} {prior highWater : Nat}
    (h : LiveKept daemon (pre++(.persistHighWater sender prior highWater,seen)::post) answers) :
    LiveKept.After (pre++post) answers seen (daemon.available.returns (.recorded sender highWater)) := by
  refine ⟨h.joins.drop.take (.inl rfl) ?_,h.waters.settle rfl rfl rfl,h.counters.drop.take rfl ?_ ?_⟩
  · intro nodeId had prior hnex
    cases hnex
  · intro call hnex
    cases hnex
  · intro answer hnex
    cases hnex
    rfl

theorem rollBackOutbound_state (daemon : Daemon) (next : Nat) : (daemon.rollBackOutbound next).state=daemon.state := by
  unfold Daemon.rollBackOutbound
  split_ifs
  · rfl
  · rfl

theorem rollBackOutbound_waters (daemon : Daemon) (next : Nat) :
    (daemon.rollBackOutbound next).acceptedHighWater=daemon.acceptedHighWater := by
  unfold Daemon.rollBackOutbound
  split_ifs
  · rfl
  · rfl

theorem LiveKept.outboundFailed {next : Nat}
    (h : LiveKept daemon (pre++(.persistOutbound next,seen)::post) answers) :
    LiveKept.After (pre++post) answers seen ((daemon.rollBackOutbound next).returns .failed) := by
  refine ⟨h.joins.drop.take (.inl ?_) ?_,h.waters.drop.take ?_ ?_ ?_,?_⟩
  · exact congrArg _ (rollBackOutbound_state daemon next)
  · intro nodeId had prior hnex
    cases hnex
  · exact rollBackOutbound_waters daemon next
  · intro sender prior highWater hnex
    cases hnex
  · intro sender highWater hnex
    cases hnex
  · apply (h.counters.rollBack rfl).take rfl
    · intro call hnex
      cases hnex
    · intro answer hnex
      cases hnex
      rfl

theorem LiveKept.outboundReserved {next : Nat}
    (h : LiveKept daemon (pre++(.persistOutbound next,seen)::post) answers) :
    LiveKept.After (pre++post) answers seen (daemon.available.returns (.reserved next)) := by
  refine ⟨h.joins.drop.take (.inl rfl) ?_,h.waters.drop.take rfl ?_ ?_,h.counters.settle rfl rfl rfl⟩
  · intro nodeId had prior hnex
    cases hnex
  · intro sender prior highWater hnex
    cases hnex
  · intro sender highWater hnex
    cases hnex

theorem LiveKept.resume {call : DaemonCall} (h : LiveKept daemon (pre++(call,seen)::post) answers) (reply : Reply)
    (hcle : reply.ok=false → Undisturbed (call,seen)) :
    LiveKept.After (pre++post) answers seen (daemon.resume env reply call) := by
  by_cases hliv : call.isLive=false
  · exact h.drop.quiet (resume_quiet reply hliv)
  · cases call with
    | persistJoin nodeId had prior =>
      unfold Daemon.resume
      split_ifs with hok
      · exact h.drop.quiet (quiet_returns rfl rfl rfl rfl)
      · exact h.joinFailed (hcle (by simpa using hok))
    | persistHighWater sender prior highWater =>
      unfold Daemon.resume
      split_ifs with hok
      · exact h.highWaterRecorded
      · exact h.highWaterFailed (hcle (by simpa using hok))
    | persistOutbound next =>
      unfold Daemon.resume
      split_ifs with hok
      · exact h.outboundReserved
      · exact h.outboundFailed
    | throws | auditTransition | markEstablished | persistTransition | auditInitiate | persistInitiate | auditTerminate
    | persistTerminate | auditTick | persistEnabled | persistAppend => exact absurd rfl hliv

/-- A call that begins takes back no revocation. -/
theorem begin_revoked (request : DaemonRequest) :
    daemon.state.revoked ⊆ (daemon.begin env request).memory.state.revoked := by
  cases request with
  | setRequirement => exact (commit_quiet _).revoked.symm.subset
  | initiate => exact (initiate_quiet _ _ _ _).revoked.symm.subset
  | veto => exact (veto_quiet _).revoked.symm.subset
  | cancel => exact cancel_quiet.revoked.symm.subset
  | tick => exact tick_quiet.revoked.symm.subset
  | setEnabled | recordJoin => exact Finset.Subset.refl _
  | append events senderNodeId wireVersionSupported =>
    change _ ⊆ (daemon.appendFederationEvents env events senderNodeId wireVersionSupported).memory.state.revoked
    unfold Daemon.appendFederationEvents
    dsimp only
    split_ifs
    · exact Finset.Subset.refl _
    · exact FederationDashboardState.appendFederationEvents_revoked _ _ _
    · exact FederationDashboardState.appendFederationEvents_revoked _ _ _
  | recordAcceptedHighWater sender highWater nodeMode =>
    change _ ⊆ (daemon.recordAcceptedHighWater sender highWater nodeMode).memory.state.revoked
    unfold Daemon.recordAcceptedHighWater
    dsimp only
    split_ifs
    · exact Finset.Subset.refl _
    · exact Finset.Subset.refl _
    · exact Finset.Subset.refl _
  | nextOutboundHighWater =>
    change _ ⊆ daemon.nextOutboundHighWater.memory.state.revoked
    unfold Daemon.nextOutboundHighWater
    split_ifs
    · exact Finset.Subset.refl _
    · exact Finset.Subset.refl _

theorem resume_revoked {call : DaemonCall} (h : LiveKept daemon (pre++(call,seen)::post) answers) (reply : Reply)
    (hcle : reply.ok=false → Undisturbed (call,seen)) :
    (daemon.resume env reply call).memory.state.revoked=daemon.state.revoked := by
  by_cases hliv : call.isLive=false
  · exact (resume_quiet reply hliv).revoked
  · cases call with
    | persistJoin nodeId had prior =>
      unfold Daemon.resume
      split_ifs with hok
      · rfl
      · exact h.joins _ (List.mem_append_right _ List.mem_cons_self) nodeId had prior rfl
          (hcle (by simpa using hok))
    | persistHighWater =>
      unfold Daemon.resume
      split_ifs
      · rfl
      · rfl
    | persistOutbound next =>
      unfold Daemon.resume
      split_ifs
      · rfl
      · exact congrArg _ (rollBackOutbound_state daemon next)
    | throws | auditTransition | markEstablished | persistTransition | auditInitiate | persistInitiate | auditTerminate
    | persistTerminate | auditTick | persistEnabled | persistAppend => exact absurd rfl hliv

end Steps

def WorldKept (world : DaemonWorld) : Prop :=
  LiveKept world.memory (world.suspended.map Suspended.view) world.answers

theorem WorldKept.start (daemon : Daemon) (record : FederationSyncStateSnapshot) :
    WorldKept (World.start daemon record) := by
  refine ⟨?_,⟨?_,?_,?_,?_⟩,⟨List.nodup_nil,?_⟩⟩
  all_goals simp [World.start,JoinsKept,counters]

/-- A step at which no disturbed call fails keeps it, and takes back no revocation. -/
theorem WorldKept.step {env : FederationEnv} {world : DaemonWorld} (h : WorldKept world) {event : DaemonEvent}
    (hliv : IsLive event) (halo : FailsUndisturbed world event) :
    WorldKept (world.step (daemonHost env) event) ∧
      world.memory.state.revoked ⊆ (world.step (daemonHost env) event).memory.state.revoked := by
  cases event with
  | call request =>
    refine ⟨?_,begin_revoked request⟩
    change LiveKept _ ((world.take (daemonHost env) world.suspended [] _).suspended.map Suspended.view) _
    rw [view_take]
    exact LiveKept.begin h request
  | resume i reply =>
    obtain heq | ⟨pre,s,post,told,hlis,htol,hi,heq⟩ := resume_cases (daemonHost env) world i reply
    · change WorldKept (world.resume (daemonHost env) i reply) ∧ _ ⊆ (world.resume (daemonHost env) i reply).memory.state.revoked
      rw [heq]
      exact ⟨h,Finset.Subset.refl _⟩
    · have hkep : LiveKept world.memory (pre.map Suspended.view++(s.call,s.seen)::post.map Suspended.view)
          world.answers := by
        have hvie : world.suspended.map Suspended.view =
            pre.map Suspended.view++(s.call,s.seen)::post.map Suspended.view := by
          rw [hlis,List.map_append,List.map_cons]
          rfl
        rw [← hvie]
        exact h
      have hcle : told.ok=false → Undisturbed (s.call,s.seen) := halo s told hi htol
      change WorldKept (world.resume (daemonHost env) i reply) ∧ _ ⊆ (world.resume (daemonHost env) i reply).memory.state.revoked
      rw [heq]
      refine ⟨?_,(resume_revoked hkep told hcle).symm.subset⟩
      unfold WorldKept
      rw [view_take,List.map_append]
      exact hkep.resume told hcle
  | write outcome =>
    refine ⟨?_,Finset.Subset.refl _⟩
    change LiveKept world.memory ((World.writeFirst (daemonHost env) outcome world.record world.suspended).2.map _) _
    rw [writeFirst_view]
    exact h
  | restart => exact hliv.elim

/-- Revoked nodes stay revoked, what was acknowledged of a sender stays covered, and no outbound counter is handed out
twice. -/
theorem federation_live_state_monotone (env : FederationEnv) (daemon : Daemon) (record : FederationSyncStateSnapshot)
    (first second : List DaemonEvent)
    (hruns : World.Runs (daemonHost env) (fun world event => IsLive event ∧ FailsUndisturbed world event)
      (World.start daemon record) (first++second)) :
    let before := (World.start daemon record : DaemonWorld).run (daemonHost env) first
    let after := before.run (daemonHost env) second
    before.memory.state.revoked ⊆ after.memory.state.revoked ∧
      (∀ sender highWater, .recorded sender highWater∈after.answers → highWater ≤ after.memory.waterOf sender) ∧
      (after.answers.filterMap DaemonAnswer.reservedNext).Nodup := by
  intro before after
  obtain ⟨hfir,hsec⟩ := runs_append.mp hruns
  have hbef : WorldKept before :=
    hfir.invariant (fun w e hw he => (hw.step he.1 he.2).1) (WorldKept.start daemon record)
  have haft : WorldKept after := hsec.invariant (fun w e hw he => (hw.step he.1 he.2).1) hbef
  refine ⟨?_,haft.waters.acked,?_⟩
  · exact hsec.relates (R := fun u v => u.memory.state.revoked ⊆ v.memory.state.revoked)
      (fun _ => Finset.Subset.refl _) (fun _ _ _ => Finset.Subset.trans) (fun w e hw he => hw.step he.1 he.2) hbef
  · exact (List.nodup_append.mp haft.counters.nodup).1

namespace LiveSample

def context : FederationContext := ⟨⟨"","fortress",""⟩,"fortress",rfl⟩

def env : FederationEnv where
  mesh := ⟨fun _ _ _ => false,fun _ _ => [],fun _ => [],fun _ => none,fun _ => none⟩
  context := some context
  nodeId := "local"
  nodeMode := "local"
  eventHash := fun eventId _ _ _ _ => eventId
  evictionVerified := fun _ => true
  foldPolicy := fun _ current applied => some (current,applied)
  revokedRootPubkeys := ∅
  highestRevocationSerial := 0

def eviction : FederationEvent := ⟨"e-1","operator:fortress",1,.eviction "stolen" 1,none,"e-1"⟩

def revokedMeanwhile : List DaemonEvent := [.call (.recordJoin "laptop" "local"),.call (.append [eviction] none true)]

def joinFails : List DaemonEvent := [.write .failed,.resume 0 ⟨true,0⟩,.write .done,.resume 0 ⟨true,0⟩]

/-- Two high waters of one sender are recorded, the second is persisted and the first is not. -/
def recordedMeanwhile : List DaemonEvent :=
  [.call (.recordAcceptedHighWater "peer" 5 none),.call (.recordAcceptedHighWater "peer" 7 none),.write .failed,
    .resume 0 ⟨true,0⟩,.write .done,.resume 0 ⟨true,0⟩]

def start : DaemonWorld := World.start (Daemon.fresh env false) emptyFederationSyncState

end LiveSample

open LiveSample in
theorem failed_call_takes_back :
    ((start.run (daemonHost env) revokedMeanwhile).memory.state.revoked = {"stolen"} ∧
      .appended∈((start.run (daemonHost env) revokedMeanwhile).run (daemonHost env) joinFails).answers ∧
      ((start.run (daemonHost env) revokedMeanwhile).run (daemonHost env) joinFails).memory.state.revoked = ∅) ∧
      .recorded "peer" 7∈(start.run (daemonHost env) recordedMeanwhile).answers ∧
      (start.run (daemonHost env) recordedMeanwhile).memory.waterOf "peer" = 0 := by
  decide

open LiveSample in
/-- A join that fails with nothing done meanwhile, and a high water that is persisted. -/
theorem federation_live_state_monotone_alone :
    let events : List DaemonEvent := [.call (.recordJoin "laptop" "local"),.write .failed,.resume 0 ⟨true,0⟩,
      .call (.append [eviction] none true),.call (.recordAcceptedHighWater "peer" 7 none),.write .done,.write .done,
      .resume 1 ⟨true,0⟩,.call .nextOutboundHighWater]
    let after := (start.run (daemonHost env) events).run (daemonHost env) []
    .recorded "peer" 7∈after.answers ∧ 7 ≤ after.memory.waterOf "peer" := by
  refine ⟨by decide,?_⟩
  refine (federation_live_state_monotone env _ _ _ [] ?_).2.1 "peer" 7 (by decide)
  refine ⟨⟨trivial,trivial⟩,⟨trivial,trivial⟩,⟨trivial,?_⟩,⟨trivial,trivial⟩,⟨trivial,trivial⟩,
    ⟨trivial,trivial⟩,⟨trivial,trivial⟩,⟨trivial,?_⟩,⟨trivial,trivial⟩,trivial⟩
  · intro s told hs htol hok
    cases hs
    exact List.not_mem_nil
  · intro s told hs htol hok
    cases hs
    cases htol
    cases hok

end CastleWall.Federation
