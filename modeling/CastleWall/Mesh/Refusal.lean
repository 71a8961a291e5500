import CastleWall.Mesh.Replay

/-! # Refused broadcasts

A broadcast that the envelope check or the sequence check refuses leaves the tables of a node alone, unless it is a
join whose certificate was put into the roster before. What is dispatched is dispatched once. -/

namespace CastleWall.Mesh

open Outcome (require)

namespace MeshNode

variable (env : MeshEnv) (nowMs : Int) (node : MeshNode) (evt : SignedEvent Payload)

def refuses : Bool :=
  match node.admitJoin env nowMs evt with
  | .error _ => true
  | .ok joined => !(joined.1.verifyOrThrow env nowMs evt >>= fun _ => joined.1.enforceReceivedMonotonicSeq evt).isOk

/-- The sequence number is not above the last one received from the emitter. -/
def stale : Prop := ∃ last, node.lastReceivedMonotonicSeq.get evt.emitterNode=some last ∧ evt.monotonicSeq ≤ last

/-- A revoked or an expired node is not looked up. -/
def ended (nodeId : String) : Prop :=
  node.roster.presenceOf nodeId=some .revoked ∨ node.roster.presenceOf nodeId=some .expired

/-- A join that is refused after its certificate has replaced what the roster held of its node. -/
def RefusedAfterAdd : Prop :=
  evt.eventType = "node_join" ∧ ∃ join, node.verifyNodeJoinBeforeRosterMutation env nowMs evt=.ok join ∧
    (node.roster.add join.certificate nowMs).isOk=true ∧
    node.roster.lookupNodeCert join.certificate.nodeId≠some join.certificate ∧
    (evt.emitterNode=join.certificate.nodeId ∧ node.ended evt.emitterNode ∨ node.stale evt)

end MeshNode

/-- The tables that a refused broadcast should not touch. -/
structure SameTables (before after : MeshNode) : Prop where
  roster : after.roster=before.roster
  policyBundle : after.policyBundle=before.policyBundle
  locatorTable : after.locatorTable=before.locatorTable
  lifecycleLog : after.lifecycleLog=before.lifecycleLog

section Refusal

variable {env : MeshEnv} {nowMs : Int} {node : MeshNode} {evt : SignedEvent Payload}

/-- Of the node certificates only that of the emitter is looked up. -/
theorem verifySignedEvent_congr {π : Type} [WirePayload π] {evt : SignedEvent π} {ctx ctx' : VerifyContext}
    (hmas : ctx.pinnedMasterPubkey=ctx'.pinnedMasterPubkey)
    (hpri : ctx.lookupPrincipalCert=ctx'.lookupPrincipalCert)
    (hmat : ctx.requireMatchingFortress=ctx'.requireMatchingFortress)
    (hnod : ctx.lookupNodeCert evt.emitterNode=ctx'.lookupNodeCert evt.emitterNode) :
    verifySignedEvent env nowMs evt ctx=verifySignedEvent env nowMs evt ctx' := by
  unfold verifySignedEvent
  rw [hmas,hpri,hmat,hnod]

variable {roster : NodeRoster}

theorem lookupActiveNodeCert_add {roster' : NodeRoster} {certificate : NodeIdentityCertificate}
    (h : roster.add certificate nowMs=.ok roster') (nodeId : String) :
    roster'.lookupActiveNodeCert nodeId =
      if nodeId=certificate.nodeId then
        if roster.presenceOf nodeId=some .revoked ∨ roster.presenceOf nodeId=some .expired then none
        else some certificate
      else roster.lookupActiveNodeCert nodeId := by
  simp only [NodeRoster.add,Outcome.require_bind_eq_ok] at h
  obtain ⟨-,-,h⟩ := h
  unfold NodeRoster.lookupActiveNodeCert NodeRoster.presenceOf
  cases hent : roster.entries.get certificate.nodeId with
  | none =>
    rw [hent] at h
    cases h
    rw [OrderedMap.get_set]
    by_cases hk : nodeId=certificate.nodeId
    · simp [hk,hent]
    · simp [hk]
  | some e =>
    rw [hent] at h
    cases h
    rw [OrderedMap.get_set]
    by_cases hk : nodeId=certificate.nodeId
    · simp [hk,hent]
    · simp [hk]

theorem add_of_held {roster' : NodeRoster} {certificate : NodeIdentityCertificate}
    (h : roster.add certificate nowMs=.ok roster')
    (hhel : roster.lookupNodeCert certificate.nodeId=some certificate) : roster'=roster := by
  simp only [NodeRoster.add,Outcome.require_bind_eq_ok] at h
  obtain ⟨-,-,h⟩ := h
  unfold NodeRoster.lookupNodeCert at hhel
  cases hent : roster.entries.get certificate.nodeId with
  | none =>
    rw [hent] at hhel
    cases hhel
  | some e =>
    rw [hent] at h hhel
    cases h
    have hsam : { e with certificate } = e := by
      cases e
      cases hhel
      rfl
    rw [hsam,OrderedMap.set_of_get hent]

/-- The envelope of a join that passed in front of the roster is refused behind it only where its node has ended. -/
theorem verifyOrThrow_joined {join : NodeJoinPayload}
    (hjoi : node.verifyNodeJoinBeforeRosterMutation env nowMs evt=.ok join)
    (hadd : node.roster.add join.certificate nowMs=.ok roster) :
    (({ node with roster } : MeshNode).verifyOrThrow env nowMs evt).isOk=true ↔
      ¬ (evt.emitterNode=join.certificate.nodeId ∧ node.ended evt.emitterNode) := by
  have hpay := asJoin_of_verifyNodeJoin hjoi
  unfold MeshNode.verifyNodeJoinBeforeRosterMutation at hjoi
  obtain ⟨join',hjoi',hjoi⟩ := Outcome.bind_ok hjoi
  obtain ⟨issuer,-,hjoi⟩ := Outcome.bind_ok hjoi
  obtain ⟨_,-,hjoi⟩ := Outcome.bind_ok hjoi
  obtain ⟨result,hver,hjoi⟩ := Outcome.bind_ok hjoi
  cases hjoi
  constructor
  · intro hok hend
    obtain ⟨verified,hver'⟩ := isOk_iff.mp hok
    unfold MeshNode.verifyOrThrow at hver'
    cases hres : verifySignedEvent env nowMs evt
        { pinnedMasterPubkey := node.pinnedMaster
          lookupNodeCert := roster.lookupActiveNodeCert
          lookupPrincipalCert := node.principalRoster.get } with
    | error refusal =>
      rw [hres] at hver'
      cases hver'
    | ok result' =>
      obtain ⟨cert,hcer⟩ := (verifySignedEvent_ok hres).2.1
      change roster.lookupActiveNodeCert evt.emitterNode=some cert at hcer
      have hpre : node.roster.presenceOf evt.emitterNode=some .revoked ∨
          node.roster.presenceOf evt.emitterNode=some .expired := hend.2
      rw [lookupActiveNodeCert_add hadd,if_pos hend.1,if_pos hpre] at hcer
      cases hcer
  · intro hliv
    have hloo : roster.lookupActiveNodeCert evt.emitterNode =
        if evt.emitterNode=join.certificate.nodeId then some join.certificate
        else node.roster.lookupActiveNodeCert evt.emitterNode := by
      rw [lookupActiveNodeCert_add hadd]
      by_cases hemi : evt.emitterNode=join.certificate.nodeId
      · have hpre : ¬ (node.roster.presenceOf evt.emitterNode=some .revoked ∨
            node.roster.presenceOf evt.emitterNode=some .expired) := fun hend => hliv ⟨hemi,hend⟩
        rw [if_pos hemi,if_pos hemi,if_neg hpre]
      · rw [if_neg hemi,if_neg hemi]
    have hsam : verifySignedEvent env nowMs evt
        { pinnedMasterPubkey := node.pinnedMaster
          lookupNodeCert := roster.lookupActiveNodeCert
          lookupPrincipalCert := node.principalRoster.get } = .ok result := by
      rw [← hver]
      exact verifySignedEvent_congr rfl rfl rfl hloo
    unfold MeshNode.verifyOrThrow
    rw [hsam]
    rfl

theorem enforceReceivedMonotonicSeq_isOk (node : MeshNode) (evt : SignedEvent Payload) :
    (node.enforceReceivedMonotonicSeq evt).isOk=true ↔ ¬ node.stale evt := by
  rw [isOk_iff]
  simp only [MeshNode.enforceReceivedMonotonicSeq,Outcome.require_bind_eq_ok,MeshNode.stale]
  cases hlas : node.lastReceivedMonotonicSeq.get evt.emitterNode with
  | none => simp [pure,Except.pure]
  | some last => simp [pure,Except.pure]

theorem isOk_bind {α β : Type} {x : Except MeshRefusal α} {f : α → Except MeshRefusal β} :
    (x >>= f).isOk=true ↔ ∃ a, x=.ok a ∧ (f a).isOk=true := by
  cases x with
  | error refusal => simp [isOk_iff,bind,Except.bind]
  | ok a => simp [bind,Except.bind]

variable {joined : MeshNode × List Mark}

/-- Where a broadcast is refused, the node it leaves is the one whose roster has the certificate of the join. -/
theorem handle_of_refuses (hjoi : node.admitJoin env nowMs evt=.ok joined)
    (h : node.refuses env nowMs evt=true) : (node.handleIncomingBroadcast env nowMs evt).1=joined.1 := by
  rw [MeshNode.refuses,hjoi] at h
  dsimp only at h
  rw [MeshNode.handleIncomingBroadcast,hjoi]
  dsimp only
  rw [MeshNode.receiveVerified]
  cases hche : joined.1.verifyOrThrow env nowMs evt >>= fun _ => joined.1.enforceReceivedMonotonicSeq evt with
  | error refusal => rfl
  | ok checked =>
    rw [hche] at h
    cases h

theorem handle_of_join_error {refusal : MeshRefusal} (hjoi : node.admitJoin env nowMs evt=.error refusal) :
    (node.handleIncomingBroadcast env nowMs evt).1=node := by
  rw [MeshNode.handleIncomingBroadcast,hjoi]

/-- What a broadcast that is no join is refused with leaves the node as it is. -/
theorem admitJoin_of_ne (h : evt.eventType ≠ "node_join") : node.admitJoin env nowMs evt=.ok (node,[]) := by
  rw [MeshNode.admitJoin,if_neg h]

theorem admitJoin_eq_ok (h : evt.eventType = "node_join")
    (hjoi : node.admitJoin env nowMs evt=.ok joined) :
    ∃ join roster, node.verifyNodeJoinBeforeRosterMutation env nowMs evt=.ok join ∧
      node.roster.add join.certificate nowMs=.ok roster ∧ joined.1 = { node with roster } := by
  rw [MeshNode.admitJoin,if_pos h] at hjoi
  obtain ⟨join,hver,hjoi⟩ := Outcome.bind_ok hjoi
  obtain ⟨roster,hadd,hjoi⟩ := Outcome.bind_ok hjoi
  cases hjoi
  exact ⟨join,roster,hver,hadd,rfl⟩

/-- A join that the roster took is refused where its node has ended or its sequence number is stale. -/
theorem refuses_iff_of_admitJoin {join : NodeJoinPayload}
    (hjoi : node.admitJoin env nowMs evt=.ok joined)
    (hver : node.verifyNodeJoinBeforeRosterMutation env nowMs evt=.ok join)
    (hadd : node.roster.add join.certificate nowMs=.ok roster) (hnod : joined.1 = { node with roster }) :
    node.refuses env nowMs evt=true ↔
      (evt.emitterNode=join.certificate.nodeId ∧ node.ended evt.emitterNode ∨ node.stale evt) := by
  rw [MeshNode.refuses,hjoi]
  dsimp only
  rw [Bool.not_eq_true',← Bool.not_eq_true,isOk_bind,hnod,← not_iff_not,not_not,not_or]
  constructor
  · intro ⟨verified,hok,hseq⟩
    have hfre := (enforceReceivedMonotonicSeq_isOk { node with roster } evt).mp hseq
    exact ⟨(verifyOrThrow_joined hver hadd).mp (isOk_of_eq_ok hok),hfre⟩
  · intro ⟨hliv,hfre⟩
    obtain ⟨verified,hok⟩ := isOk_iff.mp ((verifyOrThrow_joined hver hadd).mpr hliv)
    exact ⟨verified,hok,(enforceReceivedMonotonicSeq_isOk { node with roster } evt).mpr hfre⟩

theorem refusal_keeps_tables_iff :
    (node.refuses env nowMs evt=true → SameTables node (node.handleIncomingBroadcast env nowMs evt).1) ↔
      ¬ node.RefusedAfterAdd env nowMs evt := by
  by_cases htyp : evt.eventType = "node_join"
  · rcases ok_or_error (node.admitJoin env nowMs evt) with ⟨joined,hjoi⟩ | ⟨refusal,hjoi⟩
    · obtain ⟨join,roster,hver,hadd,hnod⟩ := admitJoin_eq_ok htyp hjoi
      have href := refuses_iff_of_admitJoin hjoi hver hadd hnod
      constructor
      · intro hsam ⟨_,join',hver',hads,hoth,hlat⟩
        rw [hver] at hver'
        cases hver'
        have hred := href.mpr hlat
        have hros := (hsam hred).roster
        rw [handle_of_refuses hjoi hred,hnod] at hros
        apply hoth
        rw [← hros,NodeRoster.lookupNodeCert_add hadd,if_pos rfl]
      · intro hcon hred
        have hhel : node.roster.lookupNodeCert join.certificate.nodeId=some join.certificate := by
          by_contra hoth
          exact hcon ⟨htyp,join,hver,isOk_of_eq_ok hadd,hoth,href.mp hred⟩
        rw [handle_of_refuses hjoi hred,hnod,add_of_held hadd hhel]
        exact ⟨rfl,rfl,rfl,rfl⟩
    · refine iff_of_true (fun _ => ?_) fun hcon => ?_
      · rw [handle_of_join_error hjoi]
        exact ⟨rfl,rfl,rfl,rfl⟩
      · obtain ⟨_,join,hver,hads,_⟩ := hcon
        obtain ⟨roster,hadd⟩ := isOk_iff.mp hads
        rw [MeshNode.admitJoin,if_pos htyp,hver] at hjoi
        simp only [bind,Except.bind,hadd,pure,Except.pure] at hjoi
        cases hjoi
  · refine iff_of_true (fun hred => ?_) fun hcon => htyp hcon.1
    rw [handle_of_refuses (admitJoin_of_ne htyp) hred]
    exact ⟨rfl,rfl,rfl,rfl⟩

end Refusal

def SameReceived (before after : MeshNode) : Prop :=
  after.receivedLog=before.receivedLog ∧ after.lastReceivedMonotonicSeq=before.lastReceivedMonotonicSeq

theorem SameReceived.refl (node : MeshNode) : SameReceived node node := ⟨rfl,rfl⟩

theorem SameReceived.trans {a b c : MeshNode} (hab : SameReceived a b) (hbc : SameReceived b c) : SameReceived a c :=
  ⟨hbc.1.trans hab.1,hbc.2.trans hab.2⟩

section Received

variable {env : MeshEnv} {nowMs : Int} {node : MeshNode} {evt : SignedEvent Payload}

theorem sameReceived_admitRevoke {freshness : FreshnessMode} {via : Option Channel} {result : MeshNode × List Mark}
    (h : node.admitRevoke env nowMs evt freshness via=.ok result) : SameReceived node result.1 := by
  unfold MeshNode.admitRevoke at h
  obtain ⟨_,_,h⟩ := Outcome.bind_ok h
  obtain ⟨authKey,_,h⟩ := Outcome.bind_ok h
  split at h
  · simp only [Outcome.require_bind_eq_ok] at h
    cases h.2
    exact SameReceived.refl node
  · cases h
    exact ⟨rfl,rfl⟩

theorem sameReceived_dispatch : SameReceived node (node.dispatch env nowMs evt).1 := by
  unfold MeshNode.dispatch
  split
  case h_4 =>
    split
    · exact ⟨rfl,rfl⟩
    · exact SameReceived.refl node
  case h_6 =>
    cases hadm : node.admitRevoke env nowMs evt (.strict nowMs) (some .broadcast) with
    | error refusal => exact SameReceived.refl node
    | ok result => exact sameReceived_admitRevoke hadm
  all_goals exact ⟨rfl,rfl⟩

theorem sameReceived_applySyncEvent : SameReceived node (node.applySyncEvent env nowMs evt).1 := by
  unfold MeshNode.applySyncEvent
  cases hadm : node.admitSyncEvent env nowMs evt with
  | error refusal => exact SameReceived.refl node
  | ok result =>
    unfold MeshNode.admitSyncEvent at hadm
    split at hadm
    · obtain ⟨join,_,hadm⟩ := Outcome.bind_ok hadm
      obtain ⟨_,_,hadm⟩ := Outcome.bind_ok hadm
      obtain ⟨roster,_,hadm⟩ := Outcome.bind_ok hadm
      cases hadm
      exact ⟨rfl,rfl⟩
    · obtain ⟨verified,_,hadm⟩ := Outcome.bind_ok hadm
      obtain ⟨_,_,hadm⟩ := Outcome.bind_ok hadm
      split at hadm
      · obtain ⟨admitted,hrev,hadm⟩ := Outcome.bind_ok hadm
        have hsam := sameReceived_admitRevoke hrev
        cases hadm
        exact hsam
      · split at hadm
        · cases hadm
          exact ⟨rfl,rfl⟩
        · cases hadm
          exact ⟨rfl,rfl⟩

theorem sameReceived_applySyncEvents {evts : List (SignedEvent Payload)} :
    SameReceived node (node.applySyncEvents env nowMs evts).1 := by
  induction evts generalizing node with
  | nil => exact SameReceived.refl node
  | cons evt evts ih => exact sameReceived_applySyncEvent.trans ih

theorem sameReceived_applyTable {apply : MeshNode → SignedEvent Payload → MeshNode}
    (happ : ∀ node evt, SameReceived node (apply node evt)) {evts : List (SignedEvent Payload)} :
    SameReceived node (MeshNode.applyTable apply node evts).1 := by
  induction evts generalizing node with
  | nil => exact SameReceived.refl node
  | cons evt evts ih => exact (happ node evt).trans ih

theorem sameReceived_applySync {payload : SyncResponsePayload} :
    SameReceived node (node.applySync env nowMs payload).1 := by
  unfold MeshNode.applySync
  refine sameReceived_applySyncEvents.trans (SameReceived.trans (sameReceived_applyTable ?_) (sameReceived_applyTable ?_))
  · exact fun _ _ => ⟨rfl,rfl⟩
  · exact fun _ _ => ⟨rfl,rfl⟩

theorem sameReceived_handleSyncResponse {evt : SignedEvent SyncResponsePayload} :
    SameReceived node (node.handleSyncResponse env nowMs evt).1 := by
  have hcon : SameReceived node (node.consumeOutstandingSyncRequest nowMs evt.payload.requestId).1 := by
    unfold MeshNode.consumeOutstandingSyncRequest
    split
    · exact SameReceived.refl node
    · split
      · exact SameReceived.refl node
      · exact ⟨rfl,rfl⟩
  unfold MeshNode.handleSyncResponse
  split
  · exact SameReceived.refl node
  · dsimp only
    split
    · exact hcon.trans sameReceived_applySync
    · exact hcon

theorem sameReceived_revokePeer {stamp : MeshNode.Stamp} {params : MeshNode.RevokeParams} :
    SameReceived node (node.revokePeer env nowMs stamp params).1 := by
  simp only [MeshNode.revokePeer]
  split
  · exact SameReceived.refl node
  · split
    · exact ⟨rfl,rfl⟩
    · rename_i result hres
      obtain ⟨evt,_,hadm⟩ := Outcome.bind_ok hres
      have hsam := sameReceived_admitRevoke hadm
      exact ⟨hsam.1,hsam.2⟩

theorem sameReceived_addToRoster {certificate : NodeIdentityCertificate} :
    SameReceived node (node.addToRoster nowMs certificate) := by
  unfold MeshNode.addToRoster
  split
  · exact SameReceived.refl node
  · exact ⟨rfl,rfl⟩

/-- Every event that was dispatched has a record of its own: under its emitter the sequence numbers only go up, and
none is above the last one. -/
structure ReceivedInOrder (node : MeshNode) : Prop where
  ordered : node.receivedLog.Pairwise fun a b => a.emitterNode=b.emitterNode → a.monotonicSeq < b.monotonicSeq
  last : ∀ r∈node.receivedLog, ∃ last, node.lastReceivedMonotonicSeq.get r.emitterNode=some last ∧
    r.monotonicSeq ≤ last

theorem ReceivedInOrder.of_same {before after : MeshNode} (h : ReceivedInOrder before)
    (hsam : SameReceived before after) : ReceivedInOrder after := by
  constructor
  · rw [hsam.1]
    exact h.ordered
  · rw [hsam.1,hsam.2]
    exact h.last

/-- The record of an event that passed the sequence check comes after those of its emitter. -/
theorem ReceivedInOrder.record (h : ReceivedInOrder node) {checked : MeshNode}
    (hche : node.enforceReceivedMonotonicSeq evt=.ok checked) :
    ReceivedInOrder (checked.recordReceived nowMs evt) := by
  simp only [MeshNode.enforceReceivedMonotonicSeq,Outcome.require_bind_eq_ok] at hche
  obtain ⟨hfre,hche⟩ := hche
  cases hche
  have hbel : ∀ r∈node.receivedLog, r.emitterNode=evt.emitterNode → r.monotonicSeq < evt.monotonicSeq := by
    intro r hr hemi
    obtain ⟨last,hlas,hle⟩ := h.last r hr
    rw [hemi] at hlas
    rw [hlas] at hfre
    exact lt_of_le_of_lt hle (by simpa using hfre)
  constructor
  · change (node.receivedLog++[_]).Pairwise _
    rw [List.pairwise_append]
    refine ⟨h.ordered,List.pairwise_singleton _ _,fun r hr r' hr' hemi => ?_⟩
    rw [List.mem_singleton.mp hr'] at hemi ⊢
    exact hbel r hr hemi
  · intro r hr
    change ∃ last, (node.lastReceivedMonotonicSeq.set evt.emitterNode evt.monotonicSeq).get r.emitterNode=some last ∧ _
    change r∈node.receivedLog++[_] at hr
    rw [OrderedMap.get_set]
    by_cases hemi : r.emitterNode=evt.emitterNode
    · rw [if_pos hemi]
      refine ⟨evt.monotonicSeq,rfl,?_⟩
      rcases List.mem_append.mp hr with hr | hr
      · exact le_of_lt (hbel r hr hemi)
      · rw [List.mem_singleton.mp hr]
    · rw [if_neg hemi]
      rcases List.mem_append.mp hr with hr | hr
      · exact h.last r hr
      · rw [List.mem_singleton.mp hr] at hemi
        exact absurd rfl hemi

theorem ReceivedInOrder.broadcast (h : ReceivedInOrder node) :
    ReceivedInOrder (node.handleIncomingBroadcast env nowMs evt).1 := by
  unfold MeshNode.handleIncomingBroadcast
  cases hjoi : node.admitJoin env nowMs evt with
  | error refusal => exact h
  | ok joined =>
    have hsam : SameReceived node joined.1 := by
      by_cases htyp : evt.eventType = "node_join"
      · obtain ⟨_,roster,_,_,hnod⟩ := admitJoin_eq_ok htyp hjoi
        rw [hnod]
        exact ⟨rfl,rfl⟩
      · rw [admitJoin_of_ne htyp] at hjoi
        cases hjoi
        exact SameReceived.refl node
    change ReceivedInOrder (joined.1.receiveVerified env nowMs evt).1
    unfold MeshNode.receiveVerified
    cases hche : joined.1.verifyOrThrow env nowMs evt >>= fun _ => joined.1.enforceReceivedMonotonicSeq evt with
    | error refusal => exact h.of_same hsam
    | ok checked =>
      obtain ⟨_,_,hseq⟩ := Outcome.bind_ok hche
      exact ((h.of_same hsam).record hseq).of_same sameReceived_dispatch

theorem ReceivedInOrder.step (h : ReceivedInOrder node) (input : MeshNode.Input) :
    ReceivedInOrder (node.step env input).1 := by
  cases input with
  | broadcast nowMs evt => exact h.broadcast
  | syncResponse nowMs evt => exact h.of_same sameReceived_handleSyncResponse
  | syncRequest nowMs evt =>
    refine h.of_same ?_
    simp only [MeshNode.step,MeshNode.handleSyncRequest]
    split
    · exact SameReceived.refl node
    · exact ⟨rfl,rfl⟩
  | requestSyncFromPeer nowMs requestId =>
    refine h.of_same ?_
    simp only [MeshNode.step,MeshNode.requestSyncFromPeer]
    split
    · exact ⟨rfl,rfl⟩
    · exact SameReceived.refl node
  | checkDropouts nowMs => exact h.of_same ⟨rfl,rfl⟩
  | acceptApprovedJoin nowMs stamp certificate nonce =>
    refine h.of_same ?_
    simp only [MeshNode.step,MeshNode.acceptApprovedJoin]
    split
    · exact SameReceived.refl node
    · split
      · exact ⟨rfl,rfl⟩
      · exact ⟨rfl,rfl⟩
  | revokePeer nowMs stamp params => exact h.of_same sameReceived_revokePeer
  | registerPrincipal principal => exact h.of_same ⟨rfl,rfl⟩
  | admitPeerCertificate nowMs certificate issuer =>
    refine h.of_same ?_
    simp only [MeshNode.step,MeshNode.admitPeerCertificate]
    split
    · exact SameReceived.refl node
    · exact SameReceived.trans ⟨rfl,rfl⟩ sameReceived_addToRoster
  | registerGuardianRoster roster =>
    refine h.of_same ?_
    simp only [MeshNode.step,MeshNode.registerGuardianRoster]
    split
    · exact SameReceived.refl node
    · exact ⟨rfl,rfl⟩
  | installMasterRotation nowMs newMaster reIssuedSelfCert newRootPrincipalCert =>
    refine h.of_same ?_
    simp only [MeshNode.step,MeshNode.installMasterRotation]
    split_ifs
    · exact SameReceived.refl node
    · exact SameReceived.refl node
    · exact SameReceived.refl node
    · exact SameReceived.trans ⟨rfl,rfl⟩ sameReceived_addToRoster

theorem ReceivedInOrder.run (h : ReceivedInOrder node) (inputs : List MeshNode.Input) :
    ReceivedInOrder (node.run env inputs).1 := by
  induction inputs generalizing node with
  | nil => exact h
  | cons input inputs ih => exact ih (h.step input)

/-- No event is dispatched twice: its emitter and its sequence number are recorded once. -/
theorem ReceivedInOrder.nodup (h : ReceivedInOrder node) :
    (node.receivedLog.map fun r => (r.emitterNode,r.monotonicSeq)).Nodup := by
  rw [List.Nodup,List.pairwise_map]
  refine h.ordered.imp fun {a b} hlt heq => ?_
  have hseq : a.monotonicSeq=b.monotonicSeq := congrArg Prod.snd heq
  exact absurd (hlt (congrArg Prod.fst heq)) (by rw [hseq]; exact lt_irrefl _)

end Received

theorem deliver_broadcast (env : MeshEnv) (nowMs : Int) (node : MeshNode) (evt : SignedEvent Payload) :
    node.deliver env nowMs evt .broadcast=(node.handleIncomingBroadcast env nowMs evt).1 := rfl

/-- In every state a fresh node can reach, what was dispatched was dispatched once, and a broadcast that is refused
leaves the tables as they were exactly where it is no join that is refused after the roster took its certificate. -/
theorem refused_broadcast_has_no_effect_iff (env : MeshEnv) {node : MeshNode} (hlog : node.receivedLog=[])
    (inputs : List MeshNode.Input) (nowMs : Int) (evt : SignedEvent Payload) :
    let reached := (node.run env inputs).1
    let after := (reached.handleIncomingBroadcast env nowMs evt).1
    ((reached.refuses env nowMs evt=true → SameTables reached after) ∧
        (after.receivedLog.map fun r => (r.emitterNode,r.monotonicSeq)).Nodup) ↔
      ¬ reached.RefusedAfterAdd env nowMs evt := by
  have hfre : ReceivedInOrder node := by
    constructor
    · rw [hlog]
      exact List.Pairwise.nil
    · rw [hlog]
      nofun
  have hrea : ReceivedInOrder (node.run env inputs).1 := hfre.run inputs
  exact (and_iff_left hrea.broadcast.nodup).trans refusal_keeps_tables_iff

namespace Sample

def heartbeat : SignedEvent Payload := event "lost" "BA" "heartbeat" 1 (.heartbeat ⟨.active,[],0,0,0⟩)

def joinedLate : MeshNode := node.deliver env 1 (joinOfLate "Bg" 2) .broadcast

/-- The second join comes first and passes; the first one passes too, and both it and a second heartbeat are refused. -/
theorem late_passes :
    node.joinPasses env 1 (joinOfLate "Bg" 2) .broadcast=true ∧
    joinedLate.joinPasses env 3 (joinOfLate "BQ" 1) .broadcast=true ∧
    joinedLate.refuses env 3 (joinOfLate "BQ" 1)=true ∧
    (node.run env [.broadcast 3 heartbeat]).1.refuses env 3 heartbeat=true := by
  decide +kernel

theorem acceptsJoin_late : node.acceptsJoin env 1 (joinOfLate "Bg" 2) (join "Bg") .broadcast :=
  ⟨late_passes.1,(add_isOk _ _ _).mpr (by decide)⟩

theorem lookup_joinedLate : joinedLate.roster.lookupNodeCert "late" = some (certificate "late" "Bg") := by
  rw [joinedLate,lookup_deliver rfl rfl acceptsJoin_late.2,if_pos ⟨acceptsJoin_late.1,rfl⟩]
  rfl

end Sample

theorem refused_broadcast_has_no_effect_heartbeat :
    ∃ reached, reached=(Sample.node.run Sample.env [.broadcast 3 Sample.heartbeat]).1 ∧
      reached.refuses Sample.env 3 Sample.heartbeat=true ∧
      SameTables reached (reached.handleIncomingBroadcast Sample.env 3 Sample.heartbeat).1 := by
  have href := Sample.late_passes.2.2.2
  refine ⟨_,rfl,href,((refused_broadcast_has_no_effect_iff Sample.env rfl [.broadcast 3 Sample.heartbeat] 3
    Sample.heartbeat).mpr fun hcon => ?_).1 href⟩
  exact absurd hcon.1 (by decide)

/-- A join that comes late is refused for its sequence number, and still puts its certificate into the roster. -/
theorem refused_join_changes_roster :
    ∃ reached, (∃ inputs, (Sample.node.run Sample.env inputs).1=reached) ∧
      reached.refuses Sample.env 3 (Sample.joinOfLate "BQ" 1)=true ∧
      ¬ SameTables reached (reached.handleIncomingBroadcast Sample.env 3 (Sample.joinOfLate "BQ" 1)).1 := by
  have hadd : (Sample.joinedLate.roster.add (Sample.join "BQ").certificate 3).isOk=true :=
    (add_isOk _ _ _).mpr (by decide)
  have hpas := Sample.late_passes.2.1
  refine ⟨Sample.joinedLate,⟨[.broadcast 1 (Sample.joinOfLate "Bg" 2)],rfl⟩,Sample.late_passes.2.2.1,fun hsam => ?_⟩
  have hros := congrArg (·.lookupNodeCert "late") hsam.roster
  rw [← deliver_broadcast] at hros
  rw [lookup_deliver rfl rfl hadd,if_pos ⟨hpas,rfl⟩,Sample.lookup_joinedLate] at hros
  exact absurd (congrArg (Option.map NodeIdentityCertificate.nodePubkey) hros) (by decide)

end CastleWall.Mesh
