import CastleWall.Mesh.Sync

/-! # Revocation sticks

Once a node has admitted the revoke of another it takes nothing from it any more, where no event of the run is of
a kind that undoes the revocation. -/

namespace CastleWall.Mesh

open Outcome (require)

def Revoked (target : String) (node : MeshNode) : Prop := node.roster.presenceOf target=some .revoked

instance (target : String) (node : MeshNode) : Decidable (Revoked target node) :=
  inferInstanceAs (Decidable (_=_))

namespace Mark

def AcceptsFrom (target : String) : Mark → Prop
  | .accepted emitterNode _ => emitterNode=target
  | _ => False

def Revokes (target : String) : Mark → Prop
  | .admittedRevoke _ _ rev _ _ => rev.payload.nodeId=some target
  | _ => False

instance (target : String) : DecidablePred (AcceptsFrom target)
  | .accepted _ _ => inferInstanceAs (Decidable (_=_))
  | .delivered .. | .tabled .. | .admittedRevoke .. => inferInstanceAs (Decidable False)

instance (target : String) : DecidablePred (Revokes target)
  | .admittedRevoke .. => inferInstanceAs (Decidable (_=_))
  | .delivered .. | .tabled .. | .accepted .. => inferInstanceAs (Decidable False)

end Mark

/-- The checks in front of the effect of an event that is not a join. -/
def MeshNode.passes (env : MeshEnv) (nowMs : Int) (node : MeshNode) (evt : SignedEvent Payload) : Channel → Bool
  | .broadcast => (node.verifyOrThrow env nowMs evt >>= fun _ => node.enforceReceivedMonotonicSeq evt).isOk
  | .sync => node.verifies env nowMs evt

/-- The event is not of a kind that undoes a revocation: a leave that passes names a node that is not held as
revoked, a join that passes is not emitted by such a node, a table event of a response is not applied after the
revoke of its emitter, and a revoke names a node of the roster. -/
def Mark.Regular (env : MeshEnv) : Mark → Prop
  | .delivered channel nowMs before evt _ =>
    (evt.eventType = "node_leave" → before.passes env nowMs evt channel=true →
      ∀ nodeId∈evt.payload.nodeId, ¬ Revoked nodeId before) ∧
    (evt.eventType = "node_join" → (before.verifyNodeJoinBeforeRosterMutation env nowMs evt).isOk=true →
      ¬ Revoked evt.emitterNode before)
  | .tabled before evt => ¬ Revoked evt.emitterNode before
  | .admittedRevoke _ before rev _ _ =>
    ∀ nodeId∈rev.payload.nodeId, (before.roster.presenceOf nodeId).isSome=true
  | .accepted _ _ => True

instance (env : MeshEnv) : DecidablePred (Mark.Regular env)
  | .delivered .. => inferInstanceAs (Decidable (_ ∧ _))
  | .tabled .. => inferInstanceAs (Decidable (¬ _))
  | .admittedRevoke _ _ rev _ _ => inferInstanceAs (Decidable (∀ nodeId∈rev.payload.nodeId, _))
  | .accepted _ _ => inferInstanceAs (Decidable True)

/-- Between two nodes: a revoked node stays revoked and is not heard, and so does one that is revoked on the way,
from then on. -/
structure Sticks (target : String) (node : MeshNode) (marks : List Mark) (node' : MeshNode) : Prop where
  kept : Revoked target node → Revoked target node' ∧ ∀ m∈marks, ¬ m.AcceptsFrom target
  started : ∀ earlier m later, marks=earlier++m::later → m.Revokes target →
    Revoked target node' ∧ ∀ m∈later, ¬ m.AcceptsFrom target

namespace Sticks

variable {target : String} {node node' node'' : MeshNode} {marks marks' : List Mark}

/-- Where no revoke is admitted. -/
theorem of_kept (hnone : ∀ m∈marks, ¬ m.Revokes target)
    (hkep : Revoked target node → Revoked target node' ∧ ∀ m∈marks, ¬ m.AcceptsFrom target) :
    Sticks target node marks node' := by
  refine ⟨hkep,?_⟩
  intro earlier m later heq hm
  exact absurd hm (hnone m (by rw [heq]; simp))

theorem silent (h : Revoked target node → Revoked target node') : Sticks target node [] node' :=
  of_kept (by simp) fun hrev => ⟨h hrev,by simp⟩

theorem of_roster (h : Sticks target node marks node') (hros : node''.roster=node.roster) :
    Sticks target node'' marks node' := by
  refine ⟨?_,h.started⟩
  intro hrev
  apply h.kept
  rw [Revoked,← hros]
  exact hrev

theorem append (h : Sticks target node marks node') (h' : Sticks target node' marks' node'') :
    Sticks target node (marks++marks') node'' := by
  constructor
  · intro hrev
    obtain ⟨hrev',hqui⟩ := h.kept hrev
    obtain ⟨hrev'',hqui'⟩ := h'.kept hrev'
    refine ⟨hrev'',?_⟩
    intro m hm
    rcases List.mem_append.mp hm with hm | hm
    · exact hqui m hm
    · exact hqui' m hm
  · intro earlier m later heq hm
    rcases List.append_eq_append_iff.mp heq with ⟨gap,hgap,hres⟩ | ⟨gap,hgap,hres⟩
    · -- the revoke is among the later marks
      exact h'.started gap m later hres hm
    · cases gap with
      | nil =>
        rw [List.nil_append] at hres
        exact h'.started [] m later hres.symm hm
      | cons first gap =>
        obtain ⟨rfl,rfl⟩ := List.cons.inj hres
        obtain ⟨hrev',hqui⟩ := h.started earlier m gap hgap hm
        obtain ⟨hrev'',hqui'⟩ := h'.kept hrev'
        refine ⟨hrev'',?_⟩
        intro m' hm'
        rcases List.mem_append.mp hm' with hm' | hm'
        · exact hqui m' hm'
        · exact hqui' m' hm'

/-- A mark in front that is no revoke. -/
theorem cons {m : Mark} (hm : ¬ m.Revokes target) (hacc : Revoked target node → ¬ m.AcceptsFrom target)
    (h : Sticks target node marks node') : Sticks target node (m::marks) node' := by
  have hfir : Sticks target node [m] node := by
    apply of_kept
    · simpa using hm
    · intro hrev
      exact ⟨hrev,by simpa using hacc hrev⟩
  exact hfir.append h

end Sticks

section Roster

variable {target : String} {node : MeshNode}

theorem Revoked.add {certificate : NodeIdentityCertificate} {nowMs : Int} {roster : NodeRoster}
    (hadd : node.roster.add certificate nowMs=.ok roster) (h : Revoked target node) :
    roster.presenceOf target=some .revoked := by
  rw [NodeRoster.presenceOf_add hadd,h]
  simp

theorem Revoked.modify {key : String} {f : RosterEntry → RosterEntry} (h : Revoked target node) (hne : target≠key) :
    (node.roster.modify key f).presenceOf target=some .revoked := by
  rw [NodeRoster.presenceOf_modify,if_neg hne]
  exact h

/-- A node that verifies an envelope does not hold its emitter as revoked. -/
theorem not_revoked_of_verifyOrThrow {π : Type} [WirePayload π] {env : MeshEnv} {nowMs : Int} {evt r : SignedEvent π}
    (h : node.verifyOrThrow env nowMs evt=.ok r) : ¬ Revoked evt.emitterNode node := by
  obtain ⟨result,hres,-⟩ := Outcome.map_ok h
  obtain ⟨-,⟨cert,hcer⟩,-⟩ := verifySignedEvent_ok hres
  intro hrev
  change node.roster.lookupActiveNodeCert evt.emitterNode=some cert at hcer
  rw [NodeRoster.lookupActiveNodeCert_of_revoked hrev] at hcer
  cases hcer

theorem emitter_ne_of_verifyOrThrow {π : Type} [WirePayload π] {env : MeshEnv} {nowMs : Int} {evt r : SignedEvent π}
    (h : node.verifyOrThrow env nowMs evt=.ok r) (hrev : Revoked target node) : evt.emitterNode≠target := by
  intro heq
  exact not_revoked_of_verifyOrThrow h (heq ▸ hrev)

end Roster

section Steps

variable {env : MeshEnv} {nowMs : Int} {node : MeshNode} {evt : SignedEvent Payload} {target : String}

theorem presenceOf_markRevoked (roster : NodeRoster) (nodeId : String) (nowMs : Int) (other : String) :
    (roster.markRevoked (some nodeId) nowMs).presenceOf other =
      if other=nodeId then (roster.presenceOf other).map fun _ => .revoked else roster.presenceOf other := by
  rw [NodeRoster.markRevoked,NodeRoster.modifyIf,NodeRoster.presenceOf_modify]
  unfold NodeRoster.presenceOf
  rw [Option.map_map]
  rfl

theorem Revoked.markRevoked (h : Revoked target node) (nodeId : Option String) (nowMs : Int) :
    (node.roster.markRevoked nodeId nowMs).presenceOf target=some .revoked := by
  cases nodeId with
  | none => exact h
  | some nodeId =>
    rw [presenceOf_markRevoked,h]
    simp

theorem admitRevoke_sticks {freshness : FreshnessMode} {via : Option Channel} {result : MeshNode × List Mark}
    (h : node.admitRevoke env nowMs evt freshness via=.ok result)
    (hreg : ∀ m∈result.2, m.Regular env) : Sticks target node result.2 result.1 := by
  unfold MeshNode.admitRevoke at h
  obtain ⟨-,-,h⟩ := Outcome.bind_ok h
  obtain ⟨authKey,-,h⟩ := Outcome.bind_ok h
  split at h
  · -- a replay of the standing revocation
    simp only [Outcome.require_bind_eq_ok] at h
    cases h.2
    exact Sticks.silent id
  · cases h
    constructor
    · intro hrev
      exact ⟨hrev.markRevoked _ _,by simp [Mark.AcceptsFrom]⟩
    · intro earlier m later heq hm
      cases earlier with
      | cons first earlier => simp at heq
      | nil =>
        simp only [List.nil_append,List.cons.injEq] at heq
        obtain ⟨rfl,rfl⟩ := heq
        refine ⟨?_,by simp⟩
        have htar : evt.payload.nodeId=some target := hm
        have hhel := hreg _ List.mem_cons_self target htar
        obtain ⟨presence,hpre⟩ := Option.isSome_iff_exists.mp hhel
        change (node.roster.markRevoked evt.payload.nodeId nowMs).presenceOf target=_
        rw [htar,presenceOf_markRevoked,hpre]
        simp

/-- A handler keeps a revocation where the event is neither of the node nor a leave that names it. -/
theorem dispatch_sticks (hreg : ∀ m∈(node.dispatch env nowMs evt).2, m.Regular env)
    (hemi : Revoked target node → evt.emitterNode≠target)
    (hlea : evt.eventType = "node_leave" → Revoked target node → evt.payload.nodeId≠some target) :
    Sticks target node (node.dispatch env nowMs evt).2 (node.dispatch env nowMs evt).1 := by
  unfold MeshNode.dispatch at hreg ⊢
  split
  · -- a heartbeat changes the entry of its emitter
    apply Sticks.silent
    intro hrev
    exact hrev.modify (hemi hrev).symm
  · exact Sticks.silent id
  · exact Sticks.silent id
  · split
    · rename_i roster hadd
      apply Sticks.silent
      intro hrev
      obtain ⟨join,-,hadd⟩ := Option.map_eq_some_iff.mp hadd
      exact hrev.add hadd
    · exact Sticks.silent id
  · rename_i htyp
    apply Sticks.silent
    intro hrev
    have hne := hlea htyp hrev
    unfold MeshNode.appendLifecycle NodeRoster.markLeft NodeRoster.modifyIf
    cases hnod : evt.payload.nodeId with
    | none => exact hrev
    | some nodeId =>
      apply hrev.modify
      intro heq
      exact hne (by rw [hnod,heq])
  · rename_i htyp
    simp only [htyp] at hreg
    cases hadm : node.admitRevoke env nowMs evt (.strict nowMs) (some .broadcast) with
    | error refusal => exact Sticks.silent id
    | ok result =>
      simp only [hadm] at hreg
      exact admitRevoke_sticks hadm hreg
  · exact Sticks.silent id
  · exact Sticks.silent id
  · exact Sticks.silent id
  · exact Sticks.silent id

theorem receiveVerified_sticks (hreg : ∀ m∈(node.receiveVerified env nowMs evt).2, m.Regular env)
    (hlea : evt.eventType = "node_leave" → node.passes env nowMs evt .broadcast=true →
      ∀ nodeId∈evt.payload.nodeId, ¬ Revoked nodeId node) :
    Sticks target node (node.receiveVerified env nowMs evt).2 (node.receiveVerified env nowMs evt).1 := by
  unfold MeshNode.receiveVerified at hreg ⊢
  cases hche : node.verifyOrThrow env nowMs evt >>= fun _ => node.enforceReceivedMonotonicSeq evt with
  | error refusal => exact Sticks.silent id
  | ok checked =>
    have hpas : node.passes env nowMs evt .broadcast=true := by
      rw [MeshNode.passes,hche]
      rfl
    obtain ⟨verified,hver,hseq⟩ := Outcome.bind_ok hche
    have hros : (checked.recordReceived nowMs evt).roster=node.roster := by
      simp only [MeshNode.enforceReceivedMonotonicSeq,Outcome.require_bind_eq_ok] at hseq
      cases hseq.2
      rfl
    have hbac : Revoked target (checked.recordReceived nowMs evt) → Revoked target node := by
      intro hrev
      rw [Revoked,← hros]
      exact hrev
    simp only [hche] at hreg ⊢
    apply Sticks.cons
    · simp [SignedEvent.acceptedMark,Mark.Revokes]
    · intro hrev
      exact emitter_ne_of_verifyOrThrow hver hrev
    · refine Sticks.of_roster (dispatch_sticks ?_ ?_ ?_) hros.symm
      · intro m hm
        exact hreg m (List.mem_cons_of_mem _ hm)
      · exact fun hrev => emitter_ne_of_verifyOrThrow hver (hbac hrev)
      · intro htyp hrev hnod
        exact hlea htyp hpas target hnod (hbac hrev)

theorem not_revokes_accepted (evt : SignedEvent Payload) : ¬ evt.acceptedMark.Revokes target := by
  simp [SignedEvent.acceptedMark,Mark.Revokes]

/-- A join keeps the presence of every node, and one that passes is not of a revoked node. -/
theorem admitJoin_sticks {joined : MeshNode × List Mark} (h : node.admitJoin env nowMs evt=.ok joined)
    (hjoi : evt.eventType = "node_join" → (node.verifyNodeJoinBeforeRosterMutation env nowMs evt).isOk=true →
      ¬ Revoked evt.emitterNode node) : Sticks target node joined.2 joined.1 := by
  unfold MeshNode.admitJoin at h
  split at h
  · rename_i htyp
    obtain ⟨join,hver,h⟩ := Outcome.bind_ok h
    obtain ⟨roster,hadd,h⟩ := Outcome.bind_ok h
    cases h
    apply Sticks.of_kept
    · simpa using not_revokes_accepted evt
    · intro hrev
      refine ⟨hrev.add hadd,?_⟩
      have hpas : (node.verifyNodeJoinBeforeRosterMutation env nowMs evt).isOk=true := by
        rw [hver]
        rfl
      intro m hm
      rw [List.mem_singleton] at hm
      subst hm
      intro heq
      have hemi : evt.emitterNode=target := heq
      exact hjoi htyp hpas (hemi ▸ hrev)
  · cases h
    exact Sticks.silent id

theorem handleIncomingBroadcast_sticks
    (hreg : ∀ m∈(node.handleIncomingBroadcast env nowMs evt).2, m.Regular env) :
    Sticks target node (node.handleIncomingBroadcast env nowMs evt).2
      (node.handleIncomingBroadcast env nowMs evt).1 := by
  unfold MeshNode.handleIncomingBroadcast at hreg ⊢
  cases hjoi : node.admitJoin env nowMs evt with
  | error refusal => exact Sticks.cons (by simp [Mark.Revokes]) (by simp [Mark.AcceptsFrom]) (Sticks.silent id)
  | ok joined =>
    simp only [hjoi] at hreg ⊢
    obtain ⟨hlea,hjon⟩ := hreg _ List.mem_cons_self
    apply Sticks.cons (by simp [Mark.Revokes]) (by simp [Mark.AcceptsFrom])
    apply (admitJoin_sticks hjoi hjon).append
    apply receiveVerified_sticks
    · intro m hm
      exact hreg m (List.mem_cons_of_mem _ (List.mem_append_right _ hm))
    · intro htyp
      -- a leave is no join, so the node in front of the checks is the node itself
      have hsam : joined.1=node := by
        unfold MeshNode.admitJoin at hjoi
        rw [if_neg (by rw [htyp]; decide)] at hjoi
        cases hjoi
        rfl
      rw [hsam]
      exact hlea htyp

theorem admitSyncEvent_sticks {result : MeshNode × List Mark} (h : node.admitSyncEvent env nowMs evt=.ok result)
    (hreg : ∀ m∈result.2, m.Regular env)
    (hlea : evt.eventType = "node_leave" → node.passes env nowMs evt .sync=true →
      ∀ nodeId∈evt.payload.nodeId, ¬ Revoked nodeId node)
    (hjoi : evt.eventType = "node_join" → (node.verifyNodeJoinBeforeRosterMutation env nowMs evt).isOk=true →
      ¬ Revoked evt.emitterNode node) : Sticks target node result.2 result.1 := by
  unfold MeshNode.admitSyncEvent at h
  split at h
  · rename_i htyp
    obtain ⟨join,hver,h⟩ := Outcome.bind_ok h
    obtain ⟨-,-,h⟩ := Outcome.bind_ok h
    obtain ⟨roster,hadd,h⟩ := Outcome.bind_ok h
    cases h
    have hpas : (node.verifyNodeJoinBeforeRosterMutation env nowMs evt).isOk=true := by
      rw [hver]
      rfl
    apply Sticks.cons (not_revokes_accepted evt)
    · intro hrev heq
      have hemi : evt.emitterNode=target := heq
      exact hjoi htyp hpas (hemi ▸ hrev)
    · exact Sticks.silent fun hrev => hrev.add hadd
  · obtain ⟨verified,hver,h⟩ := Outcome.bind_ok h
    obtain ⟨-,-,h⟩ := Outcome.bind_ok h
    have hunh : Revoked target node → ¬ evt.acceptedMark.AcceptsFrom target :=
      fun hrev => emitter_ne_of_verifyOrThrow hver hrev
    split at h
    · obtain ⟨admitted,hadm,h⟩ := Outcome.bind_ok h
      cases h
      apply Sticks.cons (not_revokes_accepted evt) hunh
      apply admitRevoke_sticks hadm
      intro m hm
      exact hreg m (List.mem_cons_of_mem _ hm)
    · split at h
      · rename_i htyp
        cases h
        apply Sticks.cons (not_revokes_accepted evt) hunh
        apply Sticks.silent
        intro hrev
        have hpas : node.passes env nowMs evt .sync=true := by
          rw [MeshNode.passes,MeshNode.verifies,hver]
          rfl
        unfold MeshNode.appendLifecycle NodeRoster.markLeft NodeRoster.modifyIf
        cases hnod : evt.payload.nodeId with
        | none => exact hrev
        | some nodeId =>
          apply hrev.modify
          intro heq
          exact hlea htyp hpas nodeId hnod (heq ▸ hrev)
      · cases h
        exact Sticks.cons (not_revokes_accepted evt) hunh (Sticks.silent id)

theorem applySyncEvent_sticks (hreg : ∀ m∈(node.applySyncEvent env nowMs evt).2, m.Regular env) :
    Sticks target node (node.applySyncEvent env nowMs evt).2 (node.applySyncEvent env nowMs evt).1 := by
  unfold MeshNode.applySyncEvent at hreg ⊢
  cases hadm : node.admitSyncEvent env nowMs evt with
  | error refusal => exact Sticks.cons (by simp [Mark.Revokes]) (by simp [Mark.AcceptsFrom]) (Sticks.silent id)
  | ok result =>
    simp only [hadm] at hreg ⊢
    obtain ⟨hlea,hjoi⟩ := hreg _ List.mem_cons_self
    apply Sticks.cons (by simp [Mark.Revokes]) (by simp [Mark.AcceptsFrom])
    exact admitSyncEvent_sticks hadm (fun m hm => hreg m (List.mem_cons_of_mem _ hm)) hlea hjoi

theorem applySyncEvents_sticks {evts : List (SignedEvent Payload)}
    (hreg : ∀ m∈(node.applySyncEvents env nowMs evts).2, m.Regular env) :
    Sticks target node (node.applySyncEvents env nowMs evts).2 (node.applySyncEvents env nowMs evts).1 := by
  induction evts generalizing node with
  | nil => exact Sticks.silent id
  | cons evt evts ih =>
    simp only [MeshNode.applySyncEvents] at hreg ⊢
    apply (applySyncEvent_sticks fun m hm => hreg m (List.mem_append_left _ hm)).append
    exact ih fun m hm => hreg m (List.mem_append_right _ hm)

/-- A table does not touch the roster, and no event of it is of a node that was revoked by then. -/
theorem applyTable_sticks {apply : MeshNode → SignedEvent Payload → MeshNode} (hros : ∀ n e, (apply n e).roster=n.roster)
    {evts : List (SignedEvent Payload)} (hreg : ∀ m∈(MeshNode.applyTable apply node evts).2, m.Regular env) :
    Sticks target node (MeshNode.applyTable apply node evts).2 (MeshNode.applyTable apply node evts).1 := by
  induction evts generalizing node with
  | nil => exact Sticks.silent id
  | cons evt evts ih =>
    simp only [MeshNode.applyTable] at hreg ⊢
    have htab : ¬ Revoked evt.emitterNode node := hreg _ List.mem_cons_self
    apply Sticks.cons (by simp [Mark.Revokes]) (by simp [Mark.AcceptsFrom])
    apply Sticks.cons (not_revokes_accepted evt)
    · intro hrev heq
      have hemi : evt.emitterNode=target := heq
      exact htab (hemi ▸ hrev)
    · have hres := ih fun m hm => hreg m (List.mem_cons_of_mem _ (List.mem_cons_of_mem _ hm))
      exact hres.of_roster (hros node evt).symm

theorem applySync_sticks {payload : SyncResponsePayload}
    (hreg : ∀ m∈(node.applySync env nowMs payload).2, m.Regular env) :
    Sticks target node (node.applySync env nowMs payload).2 (node.applySync env nowMs payload).1 := by
  simp only [MeshNode.applySync] at hreg ⊢
  apply (applySyncEvents_sticks fun m hm => hreg m (List.mem_append_left _ hm)).append
  have hpol : ∀ (n : MeshNode) e, (n.applyPolicy env nowMs e).roster=n.roster := fun _ _ => rfl
  have hloc : ∀ (n : MeshNode) e, (n.applyLocator e).roster=n.roster := fun _ _ => rfl
  apply (applyTable_sticks hpol fun m hm =>
    hreg m (List.mem_append_right _ (List.mem_append_left _ hm))).append
  exact applyTable_sticks hloc fun m hm =>
    hreg m (List.mem_append_right _ (List.mem_append_right _ hm))

theorem handleSyncResponse_sticks {evt : SignedEvent SyncResponsePayload}
    (hreg : ∀ m∈(node.handleSyncResponse env nowMs evt).2, m.Regular env) :
    Sticks target node (node.handleSyncResponse env nowMs evt).2 (node.handleSyncResponse env nowMs evt).1 := by
  have hcon : (node.consumeOutstandingSyncRequest nowMs evt.payload.requestId).1.roster=node.roster := by
    unfold MeshNode.consumeOutstandingSyncRequest
    split
    · rfl
    · split
      · rfl
      · rfl
  unfold MeshNode.handleSyncResponse at hreg ⊢
  cases hver : node.verifyOrThrow env nowMs evt with
  | error refusal => exact Sticks.silent id
  | ok verified =>
    simp only [hver] at hreg ⊢
    split
    · rename_i hcor
      rw [if_pos hcor] at hreg
      apply Sticks.cons (by simp [SignedEvent.acceptedMark,Mark.Revokes])
      · exact fun hrev => emitter_ne_of_verifyOrThrow hver hrev
      · have happ : Sticks target _ _ _ := applySync_sticks fun m hm => hreg m (List.mem_cons_of_mem _ hm)
        exact happ.of_roster hcon.symm
    · apply Sticks.silent
      intro hrev
      rw [Revoked,hcon]
      exact hrev

theorem handleSyncRequest_sticks :
    Sticks target node (node.handleSyncRequest env nowMs evt).2 (node.handleSyncRequest env nowMs evt).1 := by
  unfold MeshNode.handleSyncRequest
  cases hver : node.verifyOrThrow env nowMs evt with
  | error refusal => exact Sticks.silent id
  | ok verified =>
    apply Sticks.cons (not_revokes_accepted evt)
    · exact fun hrev => emitter_ne_of_verifyOrThrow hver hrev
    · exact Sticks.silent id

theorem Revoked.addToRoster (h : Revoked target node) (certificate : NodeIdentityCertificate) (nowMs : Int) :
    Revoked target (node.addToRoster nowMs certificate) := by
  unfold MeshNode.addToRoster
  cases hadd : node.roster.add certificate nowMs with
  | error refusal => exact h
  | ok roster => exact h.add hadd

theorem Revoked.acceptApprovedJoin (h : Revoked target node) (stamp : MeshNode.Stamp)
    (certificate : NodeIdentityCertificate) (nonce : String) :
    Revoked target (node.acceptApprovedJoin env nowMs stamp certificate nonce) := by
  unfold MeshNode.acceptApprovedJoin
  cases hadd : node.roster.add certificate nowMs with
  | error refusal => exact h
  | ok roster =>
    have hros := h.add hadd
    simp only
    split
    · exact hros
    · exact hros

theorem Revoked.installMasterRotation (h : Revoked target node) (nowMs : Int) (newMaster : FortressMasterPublicKey)
    (reIssuedSelfCert : NodeIdentityCertificate) (newRootPrincipalCert : PrincipalCertificate) :
    Revoked target (node.installMasterRotation nowMs newMaster reIssuedSelfCert newRootPrincipalCert) := by
  unfold MeshNode.installMasterRotation
  split_ifs
  · exact h
  · exact h
  · exact h
  · apply Revoked.addToRoster
    exact h

theorem revokePeer_sticks {stamp : MeshNode.Stamp} {params : MeshNode.RevokeParams}
    (hreg : ∀ m∈(node.revokePeer env nowMs stamp params).2, m.Regular env) :
    Sticks target node (node.revokePeer env nowMs stamp params).2 (node.revokePeer env nowMs stamp params).1 := by
  simp only [MeshNode.revokePeer] at hreg ⊢
  split
  · exact Sticks.silent id
  · rename_i hmay
    simp only [hmay] at hreg
    split
    · exact Sticks.silent id
    · rename_i result hres
      simp only [hres] at hreg
      obtain ⟨evt,-,hadm⟩ := Outcome.bind_ok hres
      exact (admitRevoke_sticks hadm hreg).of_roster rfl

theorem step_sticks {input : MeshNode.Input} (hreg : ∀ m∈(node.step env input).2, m.Regular env) :
    Sticks target node (node.step env input).2 (node.step env input).1 := by
  cases input with
  | broadcast nowMs evt => exact handleIncomingBroadcast_sticks hreg
  | syncResponse nowMs evt => exact handleSyncResponse_sticks hreg
  | syncRequest nowMs evt => exact handleSyncRequest_sticks
  | requestSyncFromPeer nowMs requestId =>
    apply Sticks.silent
    intro hrev
    change Revoked target (node.requestSyncFromPeer nowMs requestId)
    unfold MeshNode.requestSyncFromPeer
    split_ifs
    · exact hrev
    · exact hrev
  | checkDropouts nowMs => exact Sticks.silent fun hrev => NodeRoster.presenceOf_checkDropouts hrev
  | acceptApprovedJoin nowMs stamp certificate nonce =>
    exact Sticks.silent fun hrev => hrev.acceptApprovedJoin stamp certificate nonce
  | revokePeer nowMs stamp params => exact revokePeer_sticks hreg
  | registerPrincipal principal => exact Sticks.silent id
  | admitPeerCertificate nowMs certificate issuer =>
    apply Sticks.silent
    intro hrev
    change Revoked target (node.admitPeerCertificate env nowMs certificate issuer)
    unfold MeshNode.admitPeerCertificate
    split
    · exact hrev
    · apply Revoked.addToRoster
      exact hrev
  | registerGuardianRoster roster =>
    apply Sticks.silent
    intro hrev
    change Revoked target (node.registerGuardianRoster env roster)
    unfold MeshNode.registerGuardianRoster
    split
    · exact hrev
    · exact hrev
  | installMasterRotation nowMs newMaster reIssuedSelfCert newRootPrincipalCert =>
    exact Sticks.silent fun hrev =>
      hrev.installMasterRotation nowMs newMaster reIssuedSelfCert newRootPrincipalCert

theorem run_sticks {inputs : List MeshNode.Input} (hreg : ∀ m∈(node.run env inputs).2, m.Regular env) :
    Sticks target node (node.run env inputs).2 (node.run env inputs).1 := by
  induction inputs generalizing node with
  | nil => exact Sticks.silent id
  | cons input inputs ih =>
    simp only [MeshNode.run] at hreg ⊢
    apply (step_sticks fun m hm => hreg m (List.mem_append_left _ hm)).append
    exact ih fun m hm => hreg m (List.mem_append_right _ hm)

end Steps

/-- In a run whose events are regular, nothing of a node is accepted after a revoke of it was admitted; a join
ceremony does not lift the revocation either. -/
theorem revocation_sticks (env : MeshEnv) (node : MeshNode) (inputs : List MeshNode.Input) (target : String)
    (hregular : ∀ m∈(node.run env inputs).2, m.Regular env) {earlier later : List Mark} {m : Mark}
    (htrace : (node.run env inputs).2=earlier++m::later) (hrevokes : m.Revokes target) :
    ∀ m'∈later, ¬ m'.AcceptsFrom target := by
  have hsti : Sticks target node _ _ := run_sticks hregular
  exact (hsti.started earlier m later htrace hrevokes).2

namespace Sample

def env : MeshEnv where
  verify signature _ publicKey := decide (signature=publicKey)
  sign _ privateKey := privateKey
  sha256 _ := []
  dateParse _ := none
  decodePolicyBlob _ := none

def master : FortressMasterPublicKey := ⟨"AA","f-1","2026-01-01T00:00:00.000Z"⟩

def root : PrincipalCertificate where
  principalId := "root"
  principalPubkey := "AQ"
  role := .root
  fortressId := "f-1"
  issuedAt := "2026-01-01T00:00:00.000Z"
  expiresAt := none
  masterSignature := master.publicKey

def certificate (nodeId nodePubkey : String) : NodeIdentityCertificate where
  certificateVersion := none
  nodeId
  nodePubkey
  nodeMode := .local
  fortressId := "f-1"
  joinedAt := "2026-01-01T00:00:00.000Z"
  expiresAt := none
  capabilities := 1
  parentChain := ⟨master.publicKey,root.principalId,root.principalPubkey⟩
  teeAttestationHash := none
  principalSignature := root.principalPubkey
  masterSignature := none
  delegatedGrants := some []
  attestationLineageChain := some []

def entry (nodeId nodePubkey : String) : RosterEntry where
  certificate := certificate nodeId nodePubkey
  presence := .active
  lastHeartbeatAt := 0
  lastPolicyVersions := some []
  lastAuditSeq := some 0
  endedAt := none

def node : MeshNode where
  nodeId := "self"
  fortressId := "f-1"
  systemPrincipalId := some "root"
  pinnedMaster := master
  nodePrivateKey := some (Custody.decodeBase64url "Ag")
  certificate := some (certificate "self" "Ag")
  envelopeMonotonicSeq := 0
  roster :=
    { entries := ⟨[("self",entry "self" "Ag"),("peer",entry "peer" "Aw"),("lost",entry "lost" "BA")],
        by decide⟩ }
  policyBundle := ⟨.empty⟩
  locatorTable := ⟨.empty,0⟩
  lifecycleLog := ⟨[]⟩
  principalRoster := ⟨[("root",root)],by decide⟩
  lastReceivedMonotonicSeq := .empty
  guardianRoster := none
  outstandingSyncRequests := .empty
  receivedLog := []

def event (emitterNode nodePubkey eventType : String) (monotonicSeq : Int) (payload : Payload) :
    SignedEvent Payload where
  protocolVersion := "0.1"
  eventType
  eventId := "01"
  emitterNode
  emitterPrincipal := "root"
  fortressId := "f-1"
  causalParents := []
  payload
  payloadHash := ""
  emittedAt := "2026-01-01T00:00:00.000Z"
  monotonicSeq
  extensionEnvelope := []
  nodeSignature := nodePubkey
  principalSignature := none

def revokeLost : MeshNode.Input :=
  .revokePeer 1 ⟨"02","2026-01-01T00:00:00.000Z",true⟩
    ⟨"lost","stolen",some (Custody.decodeBase64url "AQ"),some "root",none,none⟩

def heartbeatOfLost : MeshNode.Input :=
  .broadcast 3 (event "lost" "BA" "heartbeat" 1 (.heartbeat ⟨.active,[],0,0,0⟩))

def leaveOfLost : MeshNode.Input :=
  .broadcast 2 (event "peer" "Aw" "node_leave" 1 (.nodeLeave ⟨"lost",.graceful,none⟩))

theorem run_of_lost :
    ((∀ m∈(node.run env [revokeLost,heartbeatOfLost]).2, m.Regular env) ∧
      (∃ m∈(node.run env [revokeLost,heartbeatOfLost]).2.head?, m.Revokes "lost") ∧
      (node.run env [revokeLost,heartbeatOfLost]).2.tail.length=1) ∧
    (∃ m∈(node.run env [revokeLost,leaveOfLost,heartbeatOfLost]).2.head?, m.Revokes "lost") ∧
    ∃ m∈(node.run env [revokeLost,leaveOfLost,heartbeatOfLost]).2.tail, m.AcceptsFrom "lost" := by
  decide +kernel

end Sample

/-- A node that is revoked by its operator is not heard again. -/
theorem revocation_sticks_lost :
    ∃ earlier m later, (Sample.node.run Sample.env [Sample.revokeLost,Sample.heartbeatOfLost]).2=earlier++m::later ∧
      m.Revokes "lost" ∧ later≠[] ∧ ∀ m'∈later, ¬ m'.AcceptsFrom "lost" := by
  obtain ⟨⟨hrun,⟨m,hm,hrev⟩,htai⟩,-⟩ := Sample.run_of_lost
  have htra : (Sample.node.run Sample.env [Sample.revokeLost,Sample.heartbeatOfLost]).2=[]++m::_ :=
    (List.cons_head?_tail hm).symm
  refine ⟨[],m,_,htra,hrev,?_,?_⟩
  · intro hnil
    rw [hnil] at htai
    cases htai
  · exact revocation_sticks Sample.env Sample.node _ "lost" hrun htra hrev

theorem revoked_node_heard_after_leave :
    ¬ ∀ earlier m later,
      (Sample.node.run Sample.env [Sample.revokeLost,Sample.leaveOfLost,Sample.heartbeatOfLost]).2 =
        earlier++m::later → m.Revokes "lost" → ∀ m'∈later, ¬ m'.AcceptsFrom "lost" := by
  intro h
  obtain ⟨-,⟨m,hm,hrev⟩,m',hm',hacc⟩ := Sample.run_of_lost
  exact h [] m _ (List.cons_head?_tail hm).symm hrev m' hm' hacc

end CastleWall.Mesh
