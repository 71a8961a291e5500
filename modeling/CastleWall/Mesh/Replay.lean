import CastleWall.Mesh.Revocation

/-! # Joins delivered again

A join that was accepted and is delivered again puts its certificate back into the roster exactly where it still
passes the checks in front of the roster, whatever its sequence number. -/

namespace CastleWall.Mesh

open Outcome (require)

/-- The checks in front of `roster.add`. -/
def MeshNode.joinPasses (env : MeshEnv) (nowMs : Int) (node : MeshNode) (evt : SignedEvent Payload) : Channel → Bool
  | .broadcast => (node.verifyNodeJoinBeforeRosterMutation env nowMs evt).isOk
  | .sync => (node.verifyNodeJoinBeforeRosterMutation env nowMs evt).isOk && !isReservedNodeId evt.emitterNode

def MeshNode.acceptsJoin (env : MeshEnv) (nowMs : Int) (node : MeshNode) (evt : SignedEvent Payload) (join : NodeJoinPayload)
    (channel : Channel) : Prop :=
  node.joinPasses env nowMs evt channel=true ∧ (node.roster.add join.certificate nowMs).isOk=true

section Delivery

variable {env : MeshEnv} {nowMs : Int} {node : MeshNode} {evt : SignedEvent Payload} {join : NodeJoinPayload}

/-- Which certificates a roster takes does not depend on the roster. -/
theorem add_isOk (roster : NodeRoster) (certificate : NodeIdentityCertificate) (nowMs : Int) :
    (roster.add certificate nowMs).isOk=true ↔
      hasReservedCapabilityBits certificate.capabilities=false ∧ isReservedNodeId certificate.nodeId=false := by
  constructor
  · intro h
    cases hadd : roster.add certificate nowMs with
    | error refusal =>
      rw [hadd] at h
      cases h
    | ok roster' =>
      simp only [NodeRoster.add,Outcome.require_bind_eq_ok] at hadd
      exact ⟨hadd.1,hadd.2.1⟩
  · intro h
    unfold NodeRoster.add
    rw [require,if_pos h.1,require,if_pos h.2]
    cases roster.entries.get certificate.nodeId with
    | some existing => rfl
    | none => rfl

theorem asJoin_of_verifyNodeJoin {j : NodeJoinPayload}
    (h : node.verifyNodeJoinBeforeRosterMutation env nowMs evt=.ok j) : evt.payload.asJoin=some j := by
  unfold MeshNode.verifyNodeJoinBeforeRosterMutation at h
  obtain ⟨join,hjoi,h⟩ := Outcome.bind_ok h
  obtain ⟨issuer,-,h⟩ := Outcome.bind_ok h
  obtain ⟨-,-,h⟩ := Outcome.bind_ok h
  obtain ⟨-,-,h⟩ := Outcome.bind_ok h
  cases h
  exact orRefuse_eq_ok.mp hjoi

theorem isOk_iff {α : Type} {x : Except MeshRefusal α} : x.isOk=true ↔ ∃ a, x=.ok a := by
  cases x with
  | error refusal => simp [Except.isOk,Except.toBool]
  | ok a => simp [Except.isOk,Except.toBool]

theorem ok_or_error {α : Type} (x : Except MeshRefusal α) : (∃ a, x=.ok a) ∨ ∃ refusal, x=.error refusal := by
  cases x with
  | error refusal => exact .inr ⟨refusal,rfl⟩
  | ok a => exact .inl ⟨a,rfl⟩

/-- The handlers of a join leave the certificates of a roster that already has its certificate. -/
theorem lookup_receiveVerified (htyp : evt.eventType = "node_join") (hpay : evt.payload=.nodeJoin join)
    (hads : (node.roster.add join.certificate nowMs).isOk=true)
    (hhel : node.roster.lookupNodeCert join.certificate.nodeId=some join.certificate) (nodeId : String) :
    (node.receiveVerified env nowMs evt).1.roster.lookupNodeCert nodeId=node.roster.lookupNodeCert nodeId := by
  unfold MeshNode.receiveVerified
  cases hche : node.verifyOrThrow env nowMs evt >>= fun _ => node.enforceReceivedMonotonicSeq evt with
  | error refusal => rfl
  | ok checked =>
    obtain ⟨-,-,hseq⟩ := Outcome.bind_ok hche
    have hros : (checked.recordReceived nowMs evt).roster=node.roster := by
      simp only [MeshNode.enforceReceivedMonotonicSeq,Outcome.require_bind_eq_ok] at hseq
      cases hseq.2
      rfl
    obtain ⟨roster,hadd⟩ := isOk_iff.mp hads
    have hadd' : (checked.recordReceived nowMs evt).roster.add join.certificate nowMs=.ok roster := by
      rw [hros]
      exact hadd
    have hdis : ((checked.recordReceived nowMs evt).dispatch env nowMs evt).1.roster=roster := by
      unfold MeshNode.dispatch
      rw [htyp,hpay]
      simp only [Payload.asJoin,Option.map_some,hadd']
      rfl
    change ((checked.recordReceived nowMs evt).dispatch env nowMs evt).1.roster.lookupNodeCert nodeId=_
    rw [hdis,NodeRoster.lookupNodeCert_add hadd]
    by_cases hnod : nodeId=join.certificate.nodeId
    · rw [if_pos hnod,hnod,hhel]
    · rw [if_neg hnod]

theorem lookup_deliver (htyp : evt.eventType = "node_join") (hpay : evt.payload=.nodeJoin join)
    (hads : (node.roster.add join.certificate nowMs).isOk=true) (channel : Channel) (nodeId : String) :
    (node.deliver env nowMs evt channel).roster.lookupNodeCert nodeId =
      if node.joinPasses env nowMs evt channel=true ∧ nodeId=join.certificate.nodeId then some join.certificate
      else node.roster.lookupNodeCert nodeId := by
  obtain ⟨roster,hadd⟩ := isOk_iff.mp hads
  have hcar : ∀ {j}, node.verifyNodeJoinBeforeRosterMutation env nowMs evt=.ok j → j=join := by
    intro j hj
    have hjoi := asJoin_of_verifyNodeJoin hj
    rw [hpay] at hjoi
    exact (Option.some.inj hjoi).symm
  rcases ok_or_error (node.verifyNodeJoinBeforeRosterMutation env nowMs evt) with ⟨j,hver⟩ | ⟨refusal,hver⟩
  · cases hcar hver
    cases channel with
    | broadcast =>
      have hadm : node.admitJoin env nowMs evt=.ok ({ node with roster },[evt.acceptedMark]) := by
        rw [MeshNode.admitJoin,if_pos htyp,hver]
        simp only [bind,Except.bind,hadd,pure,Except.pure]
      have hhel : roster.lookupNodeCert join.certificate.nodeId=some join.certificate := by
        rw [NodeRoster.lookupNodeCert_add hadd,if_pos rfl]
      have haga : (roster.add join.certificate nowMs).isOk=true :=
        (add_isOk roster join.certificate nowMs).mpr ((add_isOk node.roster join.certificate nowMs).mp hads)
      have hpas : node.joinPasses env nowMs evt .broadcast=true := isOk_of_eq_ok hver
      simp only [MeshNode.deliver,MeshNode.handleIncomingBroadcast,hadm]
      rw [lookup_receiveVerified htyp hpay haga hhel nodeId,NodeRoster.lookupNodeCert_add hadd,hpas]
      simp
    | sync =>
      by_cases hres : isReservedNodeId evt.emitterNode=true
      · have hadm : node.admitSyncEvent env nowMs evt=.error .reservedNodeId := by
          rw [MeshNode.admitSyncEvent,if_pos htyp,hver]
          simp [bind,Except.bind,MeshNode.authenticatedPeer,require,hres]
        have hpas : node.joinPasses env nowMs evt .sync=false := by
          simp [MeshNode.joinPasses,hres]
        simp [MeshNode.deliver,MeshNode.applySyncEvent,hadm,hpas]
      · rw [Bool.not_eq_true] at hres
        have hadm : node.admitSyncEvent env nowMs evt =
            .ok (MeshNode.appendLifecycle { node with roster } evt,[evt.acceptedMark]) := by
          rw [MeshNode.admitSyncEvent,if_pos htyp,hver]
          simp [bind,Except.bind,MeshNode.authenticatedPeer,require,hres,hadd,pure,Except.pure]
        have hpas : node.joinPasses env nowMs evt .sync=true := by
          simp [MeshNode.joinPasses,hres,isOk_of_eq_ok hver]
        simp only [MeshNode.deliver,MeshNode.applySyncEvent,hadm]
        change roster.lookupNodeCert nodeId=_
        rw [NodeRoster.lookupNodeCert_add hadd,hpas]
        simp
  · cases channel with
    | broadcast =>
      have hadm : node.admitJoin env nowMs evt=.error refusal := by
        rw [MeshNode.admitJoin,if_pos htyp,hver]
        rfl
      have hpas : node.joinPasses env nowMs evt .broadcast=false := by
        rw [MeshNode.joinPasses,hver]
        rfl
      simp [MeshNode.deliver,MeshNode.handleIncomingBroadcast,hadm,hpas]
    | sync =>
      have hadm : node.admitSyncEvent env nowMs evt=.error refusal := by
        rw [MeshNode.admitSyncEvent,if_pos htyp,hver]
        rfl
      have hpas : node.joinPasses env nowMs evt .sync=false := by
        rw [MeshNode.joinPasses,hver]
        rfl
      simp [MeshNode.deliver,MeshNode.applySyncEvent,hadm,hpas]

theorem trace_broadcast (env : MeshEnv) (nowMs : Int) (node : MeshNode) (evt : SignedEvent Payload) :
    ∃ rest, (node.handleIncomingBroadcast env nowMs evt).2 =
      .delivered .broadcast nowMs node evt (node.deliver env nowMs evt .broadcast)::rest := by
  have hdel : node.deliver env nowMs evt .broadcast=(node.handleIncomingBroadcast env nowMs evt).1 := rfl
  rw [hdel]
  unfold MeshNode.handleIncomingBroadcast
  split
  · exact ⟨_,rfl⟩
  · exact ⟨_,rfl⟩

theorem trace_run_broadcast (env : MeshEnv) (nowMs : Int) (node : MeshNode) (evt : SignedEvent Payload)
    (inputs : List MeshNode.Input) : ∃ rest, (node.run env (.broadcast nowMs evt::inputs)).2 =
      .delivered .broadcast nowMs node evt (node.deliver env nowMs evt .broadcast)::rest ++
        ((node.deliver env nowMs evt .broadcast).run env inputs).2 := by
  obtain ⟨rest,hres⟩ := trace_broadcast env nowMs node evt
  have hrun : (node.run env (.broadcast nowMs evt::inputs)).2=(node.handleIncomingBroadcast env nowMs evt).2 ++
      ((node.deliver env nowMs evt .broadcast).run env inputs).2 := rfl
  exact ⟨rest,by rw [hrun,hres]⟩

end Delivery

/-- In a run, a join that was accepted is delivered again, by either channel, to a node whose roster holds another
key: the roster then does not hold an earlier certificate of the node, unless the join carries it and still
passes. -/
theorem replayed_join_kept_out_iff (env : MeshEnv) (node : MeshNode) (inputs : List MeshNode.Input)
    {earlier between later : List Mark} {first again : Channel} {firstMs againMs : Int}
    {before before' after after' : MeshNode} {evt : SignedEvent Payload} {join : NodeJoinPayload}
    (htrace : (node.run env inputs).2 =
      earlier++.delivered first firstMs before evt after::between++.delivered again againMs before' evt after'::later)
    (htype : evt.eventType = "node_join") (hpayload : evt.payload=.nodeJoin join)
    (haccepted : before.acceptsJoin env firstMs evt join first) {nodeId : String}
    {current replaced : NodeIdentityCertificate} (hcurrent : before'.roster.lookupNodeCert nodeId=some current)
    (hkey : current.nodePubkey≠replaced.nodePubkey) :
    after'.roster.lookupNodeCert nodeId≠some replaced ↔
      ¬ (join.certificate=replaced ∧ replaced.nodeId=nodeId ∧ before'.joinPasses env againMs evt again=true) := by
  have haft : Mark.Sound env (.delivered again againMs before' evt after') := by
    apply run_sound
    rw [htrace]
    simp
  change after'=before'.deliver env againMs evt again at haft
  have hadd : (before'.roster.add join.certificate againMs).isOk=true :=
    (add_isOk _ _ _).mpr ((add_isOk _ _ _).mp haccepted.2)
  rw [haft,lookup_deliver htype hpayload hadd,hcurrent,not_iff_not]
  constructor
  · intro h
    split at h
    · rename_i hpas
      have heq : join.certificate=replaced := Option.some.inj h
      exact ⟨heq,by rw [← heq,hpas.2],hpas.1⟩
    · exact absurd (congrArg NodeIdentityCertificate.nodePubkey (Option.some.inj h)) hkey
  · rintro ⟨rfl,rfl,hpas⟩
    rw [if_pos ⟨hpas,rfl⟩]

namespace Sample

def join (nodePubkey : String) : NodeJoinPayload := ⟨certificate "late" nodePubkey,"n-1"⟩

def joinOfLate (nodePubkey : String) (monotonicSeq : Int) : SignedEvent Payload :=
  event "late" nodePubkey "node_join" monotonicSeq (.nodeJoin (join nodePubkey))

def joined : MeshNode := node.deliver env 1 (joinOfLate "BQ" 1) .broadcast

def rotated : MeshNode := joined.deliver env 2 (joinOfLate "Bg" 2) .broadcast

def repeated : MeshNode := rotated.deliver env 3 (joinOfLate "Bg" 2) .broadcast

def inputs (last : SignedEvent Payload) : List MeshNode.Input :=
  [.broadcast 1 (joinOfLate "BQ" 1),.broadcast 2 (joinOfLate "Bg" 2),.broadcast 3 last]

theorem trace_inputs (last : SignedEvent Payload) : ∃ first second third, (node.run env (inputs last)).2 =
    .delivered .broadcast 1 node (joinOfLate "BQ" 1) joined::first ++
      (.delivered .broadcast 2 joined (joinOfLate "Bg" 2) rotated::second ++
        .delivered .broadcast 3 rotated last (rotated.deliver env 3 last .broadcast)::third) := by
  obtain ⟨first,hfir⟩ := trace_run_broadcast env 1 node (joinOfLate "BQ" 1)
    [.broadcast 2 (joinOfLate "Bg" 2),.broadcast 3 last]
  obtain ⟨second,hsec⟩ := trace_run_broadcast env 2 joined (joinOfLate "Bg" 2) [.broadcast 3 last]
  obtain ⟨third,hthi⟩ := trace_run_broadcast env 3 rotated last []
  rw [← joined,hsec,← rotated,hthi,MeshNode.run,List.append_nil] at hfir
  exact ⟨first,second,third,hfir⟩

theorem joins_pass :
    (node.joinPasses env 1 (joinOfLate "BQ" 1) .broadcast=true ∧
      (node.roster.add (join "BQ").certificate 1).isOk=true) ∧
    joined.joinPasses env 2 (joinOfLate "Bg" 2) .broadcast=true ∧
    rotated.joinPasses env 3 (joinOfLate "BQ" 1) .broadcast=true := by
  decide +kernel

theorem acceptsJoin_first : node.acceptsJoin env 1 (joinOfLate "BQ" 1) (join "BQ") .broadcast := joins_pass.1

theorem acceptsJoin_second : joined.acceptsJoin env 2 (joinOfLate "Bg" 2) (join "Bg") .broadcast :=
  ⟨joins_pass.2.1,(add_isOk _ _ _).mpr (by decide)⟩

theorem lookup_rotated : rotated.roster.lookupNodeCert "late" = some (certificate "late" "Bg") := by
  rw [rotated,lookup_deliver rfl rfl acceptsJoin_second.2,if_pos ⟨acceptsJoin_second.1,rfl⟩]
  rfl

end Sample

/-- The join with the new key does not bring the first one back. -/
theorem replayed_join_kept_out_rotated :
    Sample.repeated.roster.lookupNodeCert "late" ≠ some (Sample.certificate "late" "BQ") := by
  obtain ⟨first,second,third,htra⟩ := Sample.trace_inputs (Sample.joinOfLate "Bg" 2)
  rw [← List.append_assoc] at htra
  refine (replayed_join_kept_out_iff Sample.env Sample.node _ htra rfl rfl Sample.acceptsJoin_second
    Sample.lookup_rotated (by decide)).mpr ?_
  rintro ⟨hcar,-⟩
  exact absurd (congrArg NodeIdentityCertificate.nodePubkey hcar) (by decide)

theorem rotated_key_lost_to_replay :
    ¬ ∀ (earlier between later : List Mark) (first again : Channel) (firstMs againMs : Int)
      (before before' after after' : MeshNode) (evt : SignedEvent Payload) (join : NodeJoinPayload)
      (nodeId : String) (current replaced : NodeIdentityCertificate),
      (Sample.node.run Sample.env (Sample.inputs (Sample.joinOfLate "BQ" 1))).2=earlier++.delivered first firstMs before evt after::between ++
          .delivered again againMs before' evt after'::later →
        evt.eventType = "node_join" → evt.payload=.nodeJoin join → before.acceptsJoin Sample.env firstMs evt join first →
        after.roster.lookupNodeCert nodeId=some replaced → before'.roster.lookupNodeCert nodeId=some current →
        current.nodePubkey≠replaced.nodePubkey → after'.roster.lookupNodeCert nodeId≠some replaced := by
  intro h
  obtain ⟨first,second,third,htra⟩ := Sample.trace_inputs (Sample.joinOfLate "BQ" 1)
  rw [← List.append_assoc] at htra
  have hadd : (Sample.node.roster.add (Sample.join "BQ").certificate 1).isOk=true := Sample.acceptsJoin_first.2
  have hadd' : (Sample.rotated.roster.add (Sample.join "BQ").certificate 3).isOk=true :=
    (add_isOk _ _ _).mpr ((add_isOk _ _ _).mp hadd)
  have hpas := Sample.joins_pass.2.2
  refine h [] _ third _ _ _ _ _ _ _ _ _ (Sample.join "BQ") "late" _ (Sample.certificate "late" "BQ") htra rfl rfl
    Sample.acceptsJoin_first ?_ Sample.lookup_rotated (by decide) ?_
  · rw [Sample.joined,lookup_deliver rfl rfl hadd,if_pos ⟨Sample.acceptsJoin_first.1,rfl⟩]
    rfl
  · rw [lookup_deliver rfl rfl hadd',if_pos ⟨hpas,rfl⟩]
    rfl

end CastleWall.Mesh
