import CastleWall.Mesh.AuditContinuity

/-! # Whom the canonical audit log names

Runs of the canonical audit node: batches come in between everything else the node does. -/

namespace CastleWall.Mesh

open Cognitive.StateStore Custody

structure CanonicalNode where
  node : MeshNode
  log : CanonicalAuditLog

inductive CanonicalInput where
  | mesh (input : MeshNode.Input)
  | ingest (nowMs : Int) (message : AuditMessage)

structure Acceptance where
  node : MeshNode
  nowMs : Int
  batch : AuditBatch

namespace CanonicalNode

variable (env : AuditEnv)

def step (state : CanonicalNode) : CanonicalInput → CanonicalNode × List Acceptance
  | .mesh input => ({ state with node := (state.node.step env.toMeshEnv input).1 },[])
  | .ingest nowMs message =>
    match state.node.ingestAuditBatch env nowMs (some state.log) message with
    | .error _ => (state,[])
    | .ok log => ({ state with log },[⟨state.node,nowMs,message.batch⟩])

def run (state : CanonicalNode) : List CanonicalInput → CanonicalNode × List Acceptance
  | [] => (state,[])
  | input::inputs =>
    let first := state.step env input
    let rest := run first.1 inputs
    (rest.1,first.2++rest.2)

end CanonicalNode

structure BatchesChained (env : AuditEnv) (batches : List AuditBatch) : Prop where
  numbered : ∀ (i : Nat) (batch : AuditBatch), batches[i]? = some batch → batch.batchSeq=i
  first : ∀ batch, batches.head? = some batch → batch.prevBatchHash = ""
  linked : batches.IsChain fun a b => hashBatch env a=.ok b.prevBatchHash

def batchesOf (emitterNode : String) (batches : List AuditBatch) : List AuditBatch :=
  batches.filter fun batch => batch.emitterNode=emitterNode

/-- The batches of every emitter are chained, and the last of them is the one the next is held against. -/
structure CanonicalAuditLog.Chained (log : CanonicalAuditLog) (env : AuditEnv) : Prop where
  chained : ∀ emitterNode, BatchesChained env (batchesOf emitterNode log.appendOrder)
  last : ∀ emitterNode, log.lookupPreviousBatch emitterNode=(batchesOf emitterNode log.appendOrder).getLast?

section Chains

variable {env : AuditEnv}

theorem BatchesChained.append {batches : List AuditBatch} {batch : AuditBatch} (h : BatchesChained env batches)
    (hfol : verifyContinuity env batch batches.getLast? = .ok ()) : BatchesChained env (batches++[batch]) := by
  obtain ⟨hfir,hnex⟩ := verifyContinuity_eq_ok.mp hfol
  have hseq : batch.batchSeq=batches.length := by
    cases hlas : batches.getLast? with
    | none =>
      rw [List.getLast?_eq_none_iff] at hlas
      rw [(hfir (by rw [hlas]; rfl)).1,hlas]
      rfl
    | some last =>
      have hpos : 0 < batches.length := List.length_pos_of_mem (List.mem_of_getLast? hlas)
      rw [List.getLast?_eq_getElem?] at hlas
      have hnum := h.numbered _ last hlas
      rw [← List.getLast?_eq_getElem?] at hlas
      rw [(hnex last hlas).1,hnum]
      omega
  constructor
  · intro i other hoth
    rw [List.getElem?_append] at hoth
    by_cases hi : i < batches.length
    · rw [if_pos hi] at hoth
      exact h.numbered i other hoth
    · rw [if_neg hi,List.getElem?_singleton] at hoth
      split at hoth
      · cases hoth
        rw [hseq]
        omega
      · cases hoth
  · intro other hoth
    cases batches with
    | nil =>
      cases hoth
      exact (hfir rfl).2
    | cons head rest => exact h.first other hoth
  · rw [List.isChain_append]
    refine ⟨h.linked,List.isChain_singleton batch,fun last hlas other hoth => ?_⟩
    cases hoth
    exact (hnex last hlas).2

theorem CanonicalAuditLog.Chained.append {log : CanonicalAuditLog} {batch : AuditBatch} (h : log.Chained env)
    (hfol : verifyContinuity env batch (log.lookupPreviousBatch batch.emitterNode)=.ok ()) :
    (log.append batch).Chained env := by
  have hbat : ∀ emitterNode, batchesOf emitterNode (log.append batch).appendOrder =
      if batch.emitterNode=emitterNode then batchesOf emitterNode log.appendOrder++[batch]
      else batchesOf emitterNode log.appendOrder := by
    intro emitterNode
    rw [batchesOf,CanonicalAuditLog.append,List.filter_append,List.filter_singleton]
    by_cases hnod : batch.emitterNode=emitterNode
    · simp [hnod,batchesOf]
    · simp [hnod,batchesOf]
  constructor
  · intro emitterNode
    rw [hbat]
    by_cases hnod : batch.emitterNode=emitterNode
    · rw [if_pos hnod]
      subst hnod
      rw [h.last] at hfol
      exact (h.chained _).append hfol
    · rw [if_neg hnod]
      exact h.chained emitterNode
  · intro emitterNode
    rw [hbat,CanonicalAuditLog.lookupPreviousBatch,CanonicalAuditLog.append,OrderedMap.get_set]
    by_cases hnod : batch.emitterNode=emitterNode
    · rw [if_pos hnod,if_pos hnod.symm,List.getLast?_concat]
    · rw [if_neg hnod,if_neg (Ne.symm hnod)]
      exact h.last emitterNode

end Chains

def MeshNode.PrincipalsKeyed (node : MeshNode) : Prop :=
  ∀ principalId cert, node.principalRoster.get principalId=some cert → cert.principalId=principalId

section Principals

variable {env : MeshEnv} {nowMs : Int} {node : MeshNode}

theorem admitRevoke_principalRoster {evt : SignedEvent Payload} {freshness : FreshnessMode} {via : Option Channel}
    {result : MeshNode × List Mark} (h : node.admitRevoke env nowMs evt freshness via=.ok result) :
    result.1.principalRoster=node.principalRoster := by
  unfold MeshNode.admitRevoke at h
  obtain ⟨_,-,h⟩ := Outcome.bind_ok h
  obtain ⟨authKey,-,h⟩ := Outcome.bind_ok h
  split at h
  · rw [Outcome.require_bind_eq_ok] at h
    cases h.2
    rfl
  · cases h
    rfl

variable (evt : SignedEvent Payload)

theorem dispatch_principalRoster :
    (node.dispatch env nowMs evt).1.principalRoster=node.principalRoster := by
  unfold MeshNode.dispatch
  split <;> try rfl
  · split <;> rfl
  · split
    · exact admitRevoke_principalRoster ‹_›
    · rfl

theorem handleIncomingBroadcast_principalRoster :
    (node.handleIncomingBroadcast env nowMs evt).1.principalRoster=node.principalRoster := by
  have hrec : ∀ node : MeshNode, (node.receiveVerified env nowMs evt).1.principalRoster=node.principalRoster := by
    intro node
    unfold MeshNode.receiveVerified
    split
    · rfl
    · rename_i checked hche
      obtain ⟨_,-,hseq⟩ := Outcome.bind_ok hche
      simp only [MeshNode.enforceReceivedMonotonicSeq,Outcome.require_bind_eq_ok] at hseq
      cases hseq.2
      exact dispatch_principalRoster evt
  unfold MeshNode.handleIncomingBroadcast
  cases hjoi : node.admitJoin env nowMs evt with
  | error refusal => rfl
  | ok joined =>
    refine (hrec joined.1).trans ?_
    unfold MeshNode.admitJoin at hjoi
    split at hjoi
    · obtain ⟨join,-,hjoi⟩ := Outcome.bind_ok hjoi
      obtain ⟨roster,-,hjoi⟩ := Outcome.bind_ok hjoi
      cases hjoi
      rfl
    · cases hjoi
      rfl

theorem applySyncEvent_principalRoster :
    (node.applySyncEvent env nowMs evt).1.principalRoster=node.principalRoster := by
  unfold MeshNode.applySyncEvent
  cases hadm : node.admitSyncEvent env nowMs evt with
  | error refusal => rfl
  | ok result =>
    unfold MeshNode.admitSyncEvent at hadm
    split at hadm
    · obtain ⟨join,-,hadm⟩ := Outcome.bind_ok hadm
      obtain ⟨_,-,hadm⟩ := Outcome.bind_ok hadm
      obtain ⟨roster,-,hadm⟩ := Outcome.bind_ok hadm
      cases hadm
      rfl
    · obtain ⟨_,-,hadm⟩ := Outcome.bind_ok hadm
      obtain ⟨_,-,hadm⟩ := Outcome.bind_ok hadm
      split at hadm
      · obtain ⟨admitted,hrev,hadm⟩ := Outcome.bind_ok hadm
        have hsam := admitRevoke_principalRoster hrev
        cases hadm
        exact hsam
      · split at hadm <;> cases hadm <;> rfl

theorem applySyncEvents_principalRoster (evts : List (SignedEvent Payload)) :
    (node.applySyncEvents env nowMs evts).1.principalRoster=node.principalRoster := by
  induction evts generalizing node with
  | nil => rfl
  | cons evt evts ih => exact ih.trans (applySyncEvent_principalRoster evt)

theorem applyTable_principalRoster {apply : MeshNode → SignedEvent Payload → MeshNode}
    (happ : ∀ node evt, (apply node evt).principalRoster=node.principalRoster) (evts : List (SignedEvent Payload)) :
    (MeshNode.applyTable apply node evts).1.principalRoster=node.principalRoster := by
  induction evts generalizing node with
  | nil => rfl
  | cons evt evts ih => exact ih.trans (happ node evt)

theorem handleSyncResponse_principalRoster (evt : SignedEvent SyncResponsePayload) :
    (node.handleSyncResponse env nowMs evt).1.principalRoster=node.principalRoster := by
  have hcon : (node.consumeOutstandingSyncRequest nowMs evt.payload.requestId).1.principalRoster =
      node.principalRoster := by
    unfold MeshNode.consumeOutstandingSyncRequest
    split
    · rfl
    · split <;> rfl
  unfold MeshNode.handleSyncResponse
  split
  · rfl
  · simp only
    split
    · refine ((applyTable_principalRoster fun _ _ => ?_) _).trans
        (((applyTable_principalRoster fun _ _ => ?_) _).trans ((applySyncEvents_principalRoster _).trans hcon))
      · rfl
      · rfl
    · exact hcon

theorem step_principalRoster (env : MeshEnv) (node : MeshNode) (input : MeshNode.Input) :
    (node.step env input).1.principalRoster=node.principalRoster ∨
      ∃ principal : PrincipalCertificate,
        (node.step env input).1.principalRoster=node.principalRoster.set principal.principalId principal := by
  have hadd : ∀ (node : MeshNode) (nowMs : Int) (certificate : NodeIdentityCertificate),
      (node.addToRoster nowMs certificate).principalRoster=node.principalRoster := by
    intro node nowMs certificate
    unfold MeshNode.addToRoster
    split <;> rfl
  cases input with
  | broadcast nowMs evt => exact .inl (handleIncomingBroadcast_principalRoster evt)
  | syncResponse nowMs evt => exact .inl (handleSyncResponse_principalRoster evt)
  | syncRequest nowMs evt =>
    simp only [MeshNode.step,MeshNode.handleSyncRequest]
    split <;> exact .inl rfl
  | requestSyncFromPeer nowMs requestId =>
    simp only [MeshNode.step,MeshNode.requestSyncFromPeer,MeshNode.registerOutstandingSyncRequest]
    split <;> exact .inl rfl
  | checkDropouts nowMs => exact .inl rfl
  | acceptApprovedJoin nowMs stamp certificate nonce =>
    simp only [MeshNode.step,MeshNode.acceptApprovedJoin]
    split
    · exact .inl rfl
    · split <;> exact .inl rfl
  | revokePeer nowMs stamp params =>
    simp only [MeshNode.step,MeshNode.revokePeer]
    split
    · exact .inl rfl
    · split
      · exact .inl rfl
      · rename_i result hres
        obtain ⟨evt,-,hadm⟩ := Outcome.bind_ok hres
        exact .inl ((admitRevoke_principalRoster hadm).trans rfl)
  | registerPrincipal principal => exact .inr ⟨principal,rfl⟩
  | admitPeerCertificate nowMs certificate issuer =>
    simp only [MeshNode.step,MeshNode.admitPeerCertificate]
    split
    · exact .inl rfl
    · exact .inr ⟨issuer,hadd _ _ _⟩
  | registerGuardianRoster roster =>
    simp only [MeshNode.step,MeshNode.registerGuardianRoster]
    split <;> exact .inl rfl
  | installMasterRotation nowMs newMaster reIssuedSelfCert newRootPrincipalCert =>
    simp only [MeshNode.step,MeshNode.installMasterRotation]
    split
    · exact .inl rfl
    · split
      · exact .inl rfl
      · split
        · exact .inl rfl
        · exact .inr ⟨newRootPrincipalCert,hadd _ _ _⟩

theorem MeshNode.PrincipalsKeyed.step (hkey : node.PrincipalsKeyed) (input : MeshNode.Input) :
    (node.step env input).1.PrincipalsKeyed := by
  intro principalId cert hget
  rcases step_principalRoster env node input with hsam | ⟨principal,hset⟩
  · rw [hsam] at hget
    exact hkey principalId cert hget
  · rw [hset,OrderedMap.get_set] at hget
    by_cases hid : principalId=principal.principalId
    · rw [if_pos hid] at hget
      cases hget
      exact hid.symm
    · rw [if_neg hid] at hget
      exact hkey principalId cert hget

end Principals

/-- Every entry of the batch names its emitter, is signed under the emitter's certificate, which chains to the pinned
master, and names the system or the principal that issued the certificate. -/
def Acceptance.Attributed (env : AuditEnv) (accepted : Acceptance) : Prop :=
  ∀ entry∈accepted.batch.entries, entry.emitterNode=accepted.batch.emitterNode ∧
    ∃ cert principalCert bytes, accepted.node.roster.lookupActiveNodeCert accepted.batch.emitterNode=some cert ∧
      verifyCertChain env.toMeshEnv accepted.nowMs cert principalCert accepted.node.pinnedMaster=.ok () ∧
      bytesOf entry.body=.ok bytes ∧ env.signed entry.signature bytes cert.nodePubkey=true ∧
      (entry.emitterPrincipal = "system" ∨ entry.emitterPrincipal=cert.parentChain.principalId)

/-- Every entry names the emitter of its batch, and where it names the system the certificate the node holds of the
emitter chains to the pinned master. -/
def AuditBatch.Attributable (batch : AuditBatch) (env : AuditEnv) (nowMs : Int) (node : MeshNode) : Prop :=
  ∀ entry∈batch.entries, entry.emitterNode=batch.emitterNode ∧
    (entry.emitterPrincipal = "system" → ∀ cert, node.roster.lookupActiveNodeCert batch.emitterNode=some cert →
      ∃ principalCert, verifyCertChain env.toMeshEnv nowMs cert principalCert node.pinnedMaster=.ok ())

def CanonicalNode.AttributableRun (env : AuditEnv) (state : CanonicalNode) : List CanonicalInput → Prop
  | [] => True
  | input::inputs =>
    (match input with
      | .mesh _ => True
      | .ingest nowMs message => message.batch.Attributable env nowMs state.node) ∧
      AttributableRun env (state.step env input).1 inputs

section Attribution

variable {env : AuditEnv}

theorem verifyCertChain_principalId {nowMs : Int} {cert : NodeIdentityCertificate} {principalCert : PrincipalCertificate}
    {pinned : FortressMasterPublicKey} (h : verifyCertChain env.toMeshEnv nowMs cert principalCert pinned=.ok ()) :
    cert.parentChain.principalId=principalCert.principalId := by
  unfold verifyCertChain at h
  simp only [Outcome.require_bind_eq_ok] at h
  exact h.2.2.2.1

theorem Attributed.of_accepted {nowMs : Int} {node : MeshNode} {log : CanonicalAuditLog} {batch : AuditBatch}
    {cert : NodeIdentityCertificate} (hacc : BatchAccepted env nowMs batch (node.batchContext env log) cert)
    (hkey : node.PrincipalsKeyed) (hatt : batch.Attributable env nowMs node) :
    Acceptance.Attributed env ⟨node,nowMs,batch⟩ := by
  intro entry hent
  obtain ⟨-,⟨bytes,hbyt,hsig⟩,hpri⟩ := verifyAuditEntry_eq_ok.mp (hacc.entries entry hent)
  obtain ⟨hnod,hsys⟩ := hatt entry hent
  refine ⟨hnod,?_⟩
  by_cases hnam : entry.emitterPrincipal = "system"
  · obtain ⟨principalCert,hcha⟩ := hsys hnam cert hacc.held
    exact ⟨cert,principalCert,bytes,hacc.held,hcha,hbyt,hsig,.inl hnam⟩
  · obtain ⟨principalCert,hloo,hcha⟩ := hpri hnam
    refine ⟨cert,principalCert,bytes,hacc.held,hcha,hbyt,hsig,.inr ?_⟩
    rw [verifyCertChain_principalId hcha]
    exact (hkey _ _ hloo).symm

structure CanonicalNode.Inv (env : AuditEnv) (state : CanonicalNode) : Prop where
  keyed : state.node.PrincipalsKeyed
  chained : state.log.Chained env

/-- A step keeps the chains, what it accepts is appended, and attributed where it can be. -/
theorem CanonicalNode.Inv.step {state : CanonicalNode} (hinv : state.Inv env) (input : CanonicalInput) :
    (state.step env input).1.Inv env ∧
      (state.step env input).1.log.appendOrder =
        state.log.appendOrder++(state.step env input).2.map (·.batch) ∧
      (state.AttributableRun env [input] → ∀ accepted∈(state.step env input).2, accepted.Attributed env) := by
  cases input with
  | mesh input => exact ⟨⟨hinv.keyed.step input,hinv.chained⟩,by simp [CanonicalNode.step],by simp [CanonicalNode.step]⟩
  | ingest nowMs message =>
    cases hing : state.node.ingestAuditBatch env nowMs (some state.log) message with
    | error refusal =>
      have hste : state.step env (.ingest nowMs message)=(state,[]) := by
        simp only [CanonicalNode.step,hing]
      rw [hste]
      exact ⟨hinv,by simp,by simp⟩
    | ok log =>
      have hste : state.step env (.ingest nowMs message) =
          ({ state with log },[⟨state.node,nowMs,message.batch⟩]) := by
        simp only [CanonicalNode.step,hing]
      rw [hste]
      obtain ⟨-,hver,rfl⟩ := ingestAuditBatch_eq_ok.mp hing
      obtain ⟨cert,hacc⟩ := verifyAuditBatch_eq_ok.mp hver
      refine ⟨⟨hinv.keyed,hinv.chained.append hacc.follows⟩,rfl,fun hatt accepted hmem => ?_⟩
      cases List.mem_singleton.mp hmem
      exact Attributed.of_accepted hacc hinv.keyed hatt.1

theorem CanonicalNode.Inv.run {state : CanonicalNode} (hinv : state.Inv env) (inputs : List CanonicalInput) :
    (state.run env inputs).1.Inv env ∧
      (state.run env inputs).1.log.appendOrder=state.log.appendOrder++(state.run env inputs).2.map (·.batch) ∧
      (state.AttributableRun env inputs → ∀ accepted∈(state.run env inputs).2, accepted.Attributed env) := by
  induction inputs generalizing state with
  | nil => exact ⟨hinv,by simp [CanonicalNode.run],by simp [CanonicalNode.run]⟩
  | cons input inputs ih =>
    obtain ⟨hste,happ,hatt⟩ := hinv.step input
    obtain ⟨hres,happ',hatt'⟩ := ih hste
    refine ⟨hres,?_,fun hrun => ?_⟩
    · rw [CanonicalNode.run,happ',happ,List.map_append,List.append_assoc]
    · simp only [CanonicalNode.run,List.forall_mem_append]
      exact ⟨hatt ⟨hrun.1,trivial⟩,hatt' hrun.2⟩

end Attribution

/-- The batches that are accepted of an emitter are numbered from 0 and linked by their hashes, and where every batch
that comes in can be attributed, what is accepted is. -/
theorem canonical_audit_attributed (env : AuditEnv) {node : MeshNode} (hkeyed : node.PrincipalsKeyed)
    (inputs : List CanonicalInput) (hattributable : CanonicalNode.AttributableRun env ⟨node,.empty⟩ inputs) :
    (∀ emitterNode, BatchesChained env
        (batchesOf emitterNode (((CanonicalNode.mk node .empty).run env inputs).2.map (·.batch)))) ∧
      ∀ accepted∈((CanonicalNode.mk node .empty).run env inputs).2, accepted.Attributed env := by
  have hinv : (CanonicalNode.mk node .empty).Inv env := by
    refine ⟨hkeyed,?_,?_⟩
    · intro emitterNode
      refine ⟨?_,?_,.nil⟩
      · intro i batch hbat
        cases hbat
      · intro batch hbat
        cases hbat
    · intro emitterNode
      rfl
  obtain ⟨hrea,happ,hatt⟩ := hinv.run inputs
  refine ⟨fun emitterNode => ?_,hatt hattributable⟩
  have hcha := hrea.chained.chained emitterNode
  rw [happ] at hcha
  exact hcha

namespace Sample

/-- An entry the key of `peer` has signed. -/
def entryNaming (emitterNode : String) : AuditEntry where
  entryId := "e-1"
  emitterNode
  emitterAgent := "agent"
  emitterPrincipal := "system"
  policyVersion := 0
  attestationState := "ok"
  signatureScheme := "ed25519-v1"
  payload := none
  emittedAt := "2026-01-01T00:00:00.000Z"
  signature := "Aw"

def batchNaming (emitterNode : String) : AuditBatch where
  batchId := "b-1"
  emitterNode := "peer"
  batchSeq := 0
  prevBatchHash := ""
  entries := [entryNaming emitterNode]
  hkdfChainProof := ""
  sealedAt := "2026-01-01T00:00:00.000Z"
  signature := "Aw"

theorem node_principalsKeyed : node.PrincipalsKeyed := by
  intro principalId cert hget
  have hmem := OrderedMap.mem_of_get hget
  cases List.mem_singleton.mp hmem
  rfl

theorem accepted_batchNaming {emitterNode : String}
    (h : (verifyAuditBatch auditEnv 0 (batchNaming emitterNode) (node.batchContext auditEnv .empty)).isOk=true) :
    ((CanonicalNode.mk node .empty).run auditEnv [.ingest 0 ⟨"audit_batch",batchNaming emitterNode⟩]).2 =
      [⟨node,0,batchNaming emitterNode⟩] := by
  cases hver : verifyAuditBatch auditEnv 0 (batchNaming emitterNode) (node.batchContext auditEnv .empty) with
  | error refusal =>
    rw [hver] at h
    cases h
  | ok _ =>
    have hing : node.ingestAuditBatch auditEnv 0 (some .empty) ⟨"audit_batch",batchNaming emitterNode⟩=.ok _ :=
      ingestAuditBatch_eq_ok.mpr ⟨rfl,hver,rfl⟩
    simp only [CanonicalNode.run,CanonicalNode.step,hing,List.append_nil]

end Sample

theorem canonical_audit_attributed_own_entry :
    Acceptance.Attributed Sample.auditEnv ⟨Sample.node,0,Sample.batchNaming "peer"⟩ := by
  refine (canonical_audit_attributed Sample.auditEnv Sample.node_principalsKeyed
    [.ingest 0 ⟨"audit_batch",Sample.batchNaming "peer"⟩] ⟨?_,trivial⟩).2 _ ?_
  · intro entry hent
    cases List.mem_singleton.mp hent
    refine ⟨rfl,fun _ cert hcer => ?_⟩
    cases hcer
    exact ⟨Sample.root,by decide +kernel⟩
  · rw [Sample.accepted_batchNaming (by decide +kernel)]
    exact List.mem_singleton_self _

theorem canonical_audit_takes_foreign_entry :
    ∃ inputs accepted, accepted∈((CanonicalNode.mk Sample.node .empty).run Sample.auditEnv inputs).2 ∧
      ¬ accepted.Attributed Sample.auditEnv := by
  refine ⟨[.ingest 0 ⟨"audit_batch",Sample.batchNaming "lost"⟩],⟨Sample.node,0,Sample.batchNaming "lost"⟩,?_,?_⟩
  · rw [Sample.accepted_batchNaming (by decide +kernel)]
    exact List.mem_singleton_self _
  · intro hatt
    exact absurd (hatt (Sample.entryNaming "lost") (List.mem_singleton_self _)).1 (by decide)

end CastleWall.Mesh
