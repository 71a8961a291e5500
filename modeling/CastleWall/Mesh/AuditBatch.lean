import CastleWall.Mesh.Sync

/-! # Audit batches

`mesh/audit-batch.ts` and `mesh/lifecycle/canonical-audit.ts`: a node seals its audit entries into batches, each
carrying the hash of the one before it, and sends them to the canonical audit node, which holds every batch against
the last one it took of that emitter. -/

namespace CastleWall.Mesh

open Text Cognitive.StateStore Custody
open Outcome (require)

structure AuditEnv extends MeshEnv where
  /-- HMAC-SHA256 of a key and a message. -/
  hmac : List UInt8 → List UInt8 → List UInt8
  /-- `deriveNodeAuditChainKey` of the fortress master's secret and a node id. -/
  nodeAuditChainKey : String → List UInt8

inductive AuditRefusal where
  | mesh (refusal : MeshRefusal)
  | invalidBatchSeq
  | previousBatchEmitter
  | batchSeqGap
  | firstBatchSeq
  | counterCeiling
  | counterWrite
  | sealFailed
  | sendFailed
  | notCanonical
  | unknownKind
  | emitterNotInRoster
  | batchSignature
  | noAuditChainKey
  | chainProof
  | rollback
  | chainDiscontinuity
  | unknownScheme
  | entrySignature
  | principalNotInRoster

def bytesOf (value : Json) : Except AuditRefusal (List UInt8) := (canonicalizeToBytes value).mapError .mesh

structure AuditEntry where
  (entryId emitterNode emitterAgent emitterPrincipal : String)
  policyVersion : Int
  (attestationState signatureScheme : String)
  payload : Option Json
  (emittedAt signature : String)

variable (entry : AuditEntry)

def AuditEntry.fields : List (String × Option Json) :=
  [("entry_id",some (.str entry.entryId)),("emitter_node",some (.str entry.emitterNode)),
    ("emitter_agent",some (.str entry.emitterAgent)),("emitter_principal",some (.str entry.emitterPrincipal)),
    ("policy_version",some (.num entry.policyVersion)),("attestation_state",some (.str entry.attestationState)),
    ("signature_scheme",some (.str entry.signatureScheme)),("payload",entry.payload),
    ("emitted_at",some (.str entry.emittedAt))]

def AuditEntry.body : Json := objectOf entry.fields

def AuditEntry.value : Json :=
  objectOf (entry.fields++[("signature",some (.str entry.signature))])

structure AuditBatch where
  (batchId emitterNode : String)
  batchSeq : Int
  prevBatchHash : String
  entries : List AuditEntry
  (hkdfChainProof sealedAt signature : String)

variable (batch : AuditBatch)

def AuditBatch.fields : List (String × Option Json) :=
  [("batch_id",some (.str batch.batchId)),("emitter_node",some (.str batch.emitterNode)),
    ("batch_seq",some (.num batch.batchSeq)),("prev_batch_hash",some (.str batch.prevBatchHash)),
    ("entries",some (.arr (batch.entries.map (·.value)))),("hkdf_chain_proof",some (.str batch.hkdfChainProof)),
    ("sealed_at",some (.str batch.sealedAt))]

def AuditBatch.body : Json := objectOf batch.fields

def AuditBatch.value : Json :=
  objectOf (batch.fields++[("signature",some (.str batch.signature))])

def chainProofInput (batchId : String) (batchSeq : Int) (prevBatchHash : String) : Json :=
  objectOf [("batch_id",some (.str batchId)),("batch_seq",some (.num batchSeq)),
    ("prev_batch_hash",some (.str prevBatchHash))]

section Sealing

variable (env : AuditEnv)

def hashBatch (batch : AuditBatch) : Except AuditRefusal String :=
  (bytesOf batch.value).map fun bytes => toBase64url (env.sha256 bytes)

structure EntryParams where
  (emitterAgent emitterPrincipal : String)
  policyVersion : Int
  attestationState : String
  payload : Option Json

def sealAuditEntry (entryId emittedAt emitterNode : String) (nodePrivateKey : List UInt8) (params : EntryParams) :
    Except AuditRefusal AuditEntry := do
  let unsigned : AuditEntry :=
    { entryId, emitterNode, emitterAgent := params.emitterAgent, emitterPrincipal := params.emitterPrincipal
      policyVersion := params.policyVersion, attestationState := params.attestationState
      signatureScheme := signatureSchemeV1, payload := params.payload, emittedAt, signature := "" }
  let bytes ← bytesOf unsigned.body
  return { unsigned with signature := toBase64url (env.sign bytes nodePrivateKey) }

structure SealParams where
  emitterNode : String
  batchSeq : Int
  entries : List AuditEntry
  previousBatch : Option AuditBatch
  (nodeAuditChainKey nodePrivateKey : List UInt8)

def checkSequence (params : SealParams) : Except AuditRefusal Unit :=
  match params.previousBatch with
  | some previous => do
    require (previous.emitterNode=params.emitterNode) .previousBatchEmitter
    require (previous.batchSeq+1=params.batchSeq) .batchSeqGap
  | none => require (params.batchSeq=0) .firstBatchSeq

def prevBatchHashOf (previous : Option AuditBatch) : Except AuditRefusal String :=
  match previous with
  | some previous => hashBatch env previous
  | none => .ok ""

def SealParams.unsigned (params : SealParams) (batchId sealedAt prevBatchHash : String) (proofBytes : List UInt8) :
    AuditBatch where
  batchId
  emitterNode := params.emitterNode
  batchSeq := params.batchSeq
  prevBatchHash
  entries := params.entries
  hkdfChainProof := toBase64url (env.hmac params.nodeAuditChainKey proofBytes)
  sealedAt
  signature := ""

def sealAuditBatch (batchId sealedAt : String) (params : SealParams) : Except AuditRefusal AuditBatch := do
  require (0 ≤ params.batchSeq) .invalidBatchSeq
  checkSequence params
  let prevBatchHash ← prevBatchHashOf env params.previousBatch
  let proofBytes ← bytesOf (chainProofInput batchId params.batchSeq prevBatchHash)
  let unsigned := params.unsigned env batchId sealedAt prevBatchHash proofBytes
  let bytes ← bytesOf unsigned.body
  return { unsigned with signature := toBase64url (env.sign bytes params.nodePrivateKey) }

end Sealing

structure VerifyBatchContext where
  pinnedMasterPubkey : FortressMasterPublicKey
  lookupNodeCert : String → Option NodeIdentityCertificate
  lookupPrincipalCert : String → Option PrincipalCertificate
  lookupAuditChainKey : String → Option (List UInt8)
  lookupPreviousBatch : String → Option AuditBatch

section Verification

variable (env : AuditEnv) (nowMs : Int)

/-- The chain of the certificate is walked only for an entry of a principal. -/
def verifyAuditEntry (entry : AuditEntry) (emitterNodeCert : NodeIdentityCertificate) (ctx : VerifyBatchContext) :
    Except AuditRefusal Unit := do
  require (entry.signatureScheme=signatureSchemeV1) .unknownScheme
  let bytes ← bytesOf entry.body
  require (env.signed entry.signature bytes emitterNodeCert.nodePubkey=true) .entrySignature
  if entry.emitterPrincipal = "system" then return ()
  else
    match ctx.lookupPrincipalCert entry.emitterPrincipal with
    | none => .error .principalNotInRoster
    | some principalCert =>
      (verifyCertChain env.toMeshEnv nowMs emitterNodeCert principalCert ctx.pinnedMasterPubkey).mapError .mesh

def verifyContinuity (batch : AuditBatch) (previous : Option AuditBatch) : Except AuditRefusal Unit :=
  match previous with
  | none => do
    require (batch.batchSeq=0) .rollback
    require (batch.prevBatchHash = "") .chainDiscontinuity
  | some previous => do
    require (previous.batchSeq < batch.batchSeq) .rollback
    require (batch.batchSeq=previous.batchSeq+1) .chainDiscontinuity
    let expectedPrevHash ← hashBatch env previous
    require (batch.prevBatchHash=expectedPrevHash) .chainDiscontinuity

def verifyAuditEntries (cert : NodeIdentityCertificate) (ctx : VerifyBatchContext) :
    List AuditEntry → Except AuditRefusal Unit
  | [] => .ok ()
  | entry::entries => do
    verifyAuditEntry env nowMs entry cert ctx
    verifyAuditEntries cert ctx entries

def orRefuseBatch {α : Type} (value : Option α) (refusal : AuditRefusal) : Except AuditRefusal α :=
  match value with
  | some a => .ok a
  | none => .error refusal

def verifyAuditBatch (batch : AuditBatch) (ctx : VerifyBatchContext) : Except AuditRefusal Unit := do
  let cert ← orRefuseBatch (ctx.lookupNodeCert batch.emitterNode) .emitterNotInRoster
  let bytes ← bytesOf batch.body
  require (env.signed batch.signature bytes cert.nodePubkey=true) .batchSignature
  let auditChainKey ← orRefuseBatch (ctx.lookupAuditChainKey batch.emitterNode) .noAuditChainKey
  let proofBytes ← bytesOf (chainProofInput batch.batchId batch.batchSeq batch.prevBatchHash)
  require (toBase64url (env.hmac auditChainKey proofBytes)=batch.hkdfChainProof) .chainProof
  verifyContinuity env batch (ctx.lookupPreviousBatch batch.emitterNode)
  verifyAuditEntries env nowMs cert ctx batch.entries

end Verification

structure CanonicalAuditLog where
  previousByEmitter : OrderedMap String AuditBatch
  appendOrder : List AuditBatch

namespace CanonicalAuditLog

def empty : CanonicalAuditLog := ⟨.empty,[]⟩

def append (log : CanonicalAuditLog) (batch : AuditBatch) : CanonicalAuditLog where
  previousByEmitter := log.previousByEmitter.set batch.emitterNode batch
  appendOrder := log.appendOrder++[batch]

def lookupPreviousBatch (log : CanonicalAuditLog) (nodeId : String) : Option AuditBatch :=
  log.previousByEmitter.get nodeId

end CanonicalAuditLog

structure AuditMessage where
  kind : String
  batch : AuditBatch

def MeshNode.batchContext (node : MeshNode) (env : AuditEnv) (log : CanonicalAuditLog) : VerifyBatchContext where
  pinnedMasterPubkey := node.pinnedMaster
  lookupNodeCert := node.roster.lookupActiveNodeCert
  lookupPrincipalCert := node.principalRoster.get
  lookupAuditChainKey := fun nodeId => some (env.nodeAuditChainKey nodeId)
  lookupPreviousBatch := log.lookupPreviousBatch

/-- A node without a log is not the canonical one. -/
def MeshNode.ingestAuditBatch (node : MeshNode) (env : AuditEnv) (nowMs : Int) (canonicalAudit : Option CanonicalAuditLog)
    (message : AuditMessage) : Except AuditRefusal CanonicalAuditLog := do
  let log ← orRefuseBatch canonicalAudit .notCanonical
  require (message.kind = "audit_batch") .unknownKind
  verifyAuditBatch env nowMs message.batch (node.batchContext env log)
  return log.append message.batch

section Safe

theorem bytesOf_eq_ok {value : Json} {bytes : List UInt8} :
    bytesOf value=.ok bytes ↔ numbersSafe value=true ∧ utf8Bytes value.canonicalText=bytes := by
  rw [bytesOf,Outcome.mapError_eq_ok,canonicalizeToBytes]
  by_cases hsaf : numbersSafe value=true
  · rw [if_pos hsaf,Except.ok.injEq]
    simp [hsaf]
  · rw [if_neg hsaf]
    simp [hsaf]

theorem bytesOf_of_safe {value : Json} (h : numbersSafe value=true) :
    bytesOf value=.ok (utf8Bytes value.canonicalText) := bytesOf_eq_ok.mpr ⟨h,rfl⟩

theorem AuditEntry.value_safe {entry : AuditEntry} (h : numbersSafe entry.body=true) :
    numbersSafe entry.value=true := by
  rw [AuditEntry.body,numbersSafe_objectOf (by simp [AuditEntry.fields])] at h
  rw [AuditEntry.value,numbersSafe_objectOf (by simp [AuditEntry.fields])]
  intro key value hmem
  rcases List.mem_append.mp hmem with hfie | hsig
  · exact h key value hfie
  · cases List.mem_singleton.mp hsig
    rfl

/-- A batch of entries that can be serialized can be too, where its number is in range. -/
theorem AuditBatch.value_safe {batch : AuditBatch} (hseq : batch.batchSeq.natAbs ≤ 2 ^ 53 - 1)
    (hent : ∀ entry∈batch.entries, numbersSafe entry.body=true) :
    numbersSafe batch.body=true ∧ numbersSafe batch.value=true := by
  have hfie : ∀ key value, (key,some value)∈batch.fields → numbersSafe value=true := by
    intro key value hmem
    simp only [AuditBatch.fields,List.mem_cons,Prod.mk.injEq,Option.some.injEq,List.not_mem_nil,or_false] at hmem
    have hite : numbersSafe (.arr (batch.entries.map (·.value)))=true := by
      rw [numbersSafe,itemsSafe_iff]
      intro item hitm
      obtain ⟨entry,heny,rfl⟩ := List.mem_map.mp hitm
      exact entry.value_safe (hent entry heny)
    rcases hmem with ⟨-,rfl⟩ | ⟨-,rfl⟩ | ⟨-,rfl⟩ | ⟨-,rfl⟩ | ⟨-,rfl⟩ | ⟨-,rfl⟩ | ⟨-,rfl⟩
    · rfl
    · rfl
    · exact decide_eq_true hseq
    · rfl
    · exact hite
    · rfl
    · rfl
  constructor
  · rw [AuditBatch.body,numbersSafe_objectOf (by simp [AuditBatch.fields])]
    exact hfie
  · rw [AuditBatch.value,numbersSafe_objectOf (by simp [AuditBatch.fields])]
    intro key value hmem
    rcases List.mem_append.mp hmem with hfid | hsig
    · exact hfie key value hfid
    · cases List.mem_singleton.mp hsig
      rfl

theorem chainProofInput_safe {batchSeq : Int} (h : batchSeq.natAbs ≤ 2 ^ 53 - 1) (batchId prevBatchHash : String) :
    numbersSafe (chainProofInput batchId batchSeq prevBatchHash)=true := by
  rw [chainProofInput,numbersSafe_objectOf (by simp)]
  intro key value hmem
  simp only [List.mem_cons,Prod.mk.injEq,Option.some.injEq,List.not_mem_nil,or_false] at hmem
  rcases hmem with ⟨-,rfl⟩ | ⟨-,rfl⟩ | ⟨-,rfl⟩
  · rfl
  · exact decide_eq_true h
  · rfl

end Safe

section Spec

variable {env : AuditEnv} {nowMs : Int}

theorem sealAuditBatch_eq {batchId sealedAt prevBatchHash : String} {params : SealParams} {proofBytes bytes : List UInt8}
    (hseq : 0 ≤ params.batchSeq) (hche : checkSequence params=.ok ())
    (hhas : prevBatchHashOf env params.previousBatch=.ok prevBatchHash)
    (hpro : bytesOf (chainProofInput batchId params.batchSeq prevBatchHash)=.ok proofBytes)
    (hbyt : bytesOf (params.unsigned env batchId sealedAt prevBatchHash proofBytes).body=.ok bytes) :
    sealAuditBatch env batchId sealedAt params =
      .ok { params.unsigned env batchId sealedAt prevBatchHash proofBytes with
        signature := toBase64url (env.sign bytes params.nodePrivateKey) } := by
  unfold sealAuditBatch
  rw [Outcome.require_bind_eq_ok,hche,hhas]
  refine ⟨hseq,?_⟩
  change (bytesOf _ >>= fun _ => _)=_
  rw [hpro]
  change (bytesOf _ >>= fun _ => _)=_
  rw [hbyt]
  rfl

theorem orRefuseBatch_eq_ok {α : Type} {value : Option α} {refusal : AuditRefusal} {a : α} :
    orRefuseBatch value refusal=.ok a ↔ value=some a := by
  cases value with
  | none => simp [orRefuseBatch]
  | some b => simp [orRefuseBatch]

variable {ctx : VerifyBatchContext}

/-- An entry is signed under the key of the certificate, and where it names a principal that is the one the
certificate chains to. -/
theorem verifyAuditEntry_eq_ok {entry : AuditEntry} {cert : NodeIdentityCertificate} :
    verifyAuditEntry env nowMs entry cert ctx=.ok () ↔
      entry.signatureScheme=signatureSchemeV1 ∧
      (∃ bytes, bytesOf entry.body=.ok bytes ∧ env.signed entry.signature bytes cert.nodePubkey=true) ∧
      (entry.emitterPrincipal ≠ "system" → ∃ principalCert,
        ctx.lookupPrincipalCert entry.emitterPrincipal=some principalCert ∧
          verifyCertChain env.toMeshEnv nowMs cert principalCert ctx.pinnedMasterPubkey=.ok ()) := by
  unfold verifyAuditEntry
  rw [Outcome.require_bind_eq_ok]
  refine and_congr_right fun _ => ?_
  cases hbyt : bytesOf entry.body with
  | error refusal => simp [bind,Except.bind]
  | ok bytes =>
    change (require (env.signed entry.signature bytes cert.nodePubkey=true) AuditRefusal.entrySignature >>= _)=_ ↔ _
    rw [Outcome.require_bind_eq_ok]
    simp only [Except.ok.injEq,exists_eq_left']
    refine and_congr_right fun _ => ?_
    by_cases hsys : entry.emitterPrincipal = "system"
    · simp [hsys,pure,Except.pure]
    · rw [if_neg hsys]
      cases hcer : ctx.lookupPrincipalCert entry.emitterPrincipal with
      | none => simp [hsys]
      | some principalCert => simp [hsys,Outcome.mapError_eq_ok]

theorem verifyAuditEntries_eq_ok {cert : NodeIdentityCertificate} {entries : List AuditEntry} :
    verifyAuditEntries env nowMs cert ctx entries=.ok () ↔
      ∀ entry∈entries, verifyAuditEntry env nowMs entry cert ctx=.ok () := by
  induction entries with
  | nil => simp [verifyAuditEntries]
  | cons entry entries ih =>
    rw [List.forall_mem_cons,← ih,verifyAuditEntries]
    cases verifyAuditEntry env nowMs entry cert ctx with
    | error refusal => simp [bind,Except.bind]
    | ok _ => simp [bind,Except.bind]

theorem verifyContinuity_eq_ok {batch : AuditBatch} {previous : Option AuditBatch} :
    verifyContinuity env batch previous=.ok () ↔
      (previous=none → batch.batchSeq=0 ∧ batch.prevBatchHash = "") ∧
      ∀ last, previous=some last → batch.batchSeq=last.batchSeq+1 ∧
        hashBatch env last=.ok batch.prevBatchHash := by
  cases previous with
  | none => simp [verifyContinuity]
  | some last =>
    simp only [verifyContinuity,Outcome.require_bind_eq_ok,reduceCtorEq,false_imp_iff,true_and,
      Option.some.injEq,forall_eq']
    cases hhas : hashBatch env last with
    | error refusal => simp [bind,Except.bind]
    | ok hash =>
      change _ ∧ _ ∧ require (batch.prevBatchHash=hash) AuditRefusal.chainDiscontinuity=.ok () ↔ _
      rw [Outcome.require_eq_ok,Except.ok.injEq]
      constructor
      · exact fun h => ⟨h.2.1,h.2.2.symm⟩
      · exact fun h => ⟨by omega,h.1,h.2.symm⟩

/-- What `verifyAuditBatch` asks of a batch. -/
structure BatchAccepted (env : AuditEnv) (nowMs : Int) (batch : AuditBatch) (ctx : VerifyBatchContext)
    (cert : NodeIdentityCertificate) : Prop where
  held : ctx.lookupNodeCert batch.emitterNode=some cert
  signed : ∃ bytes, bytesOf batch.body=.ok bytes ∧ env.signed batch.signature bytes cert.nodePubkey=true
  proof : ∃ auditChainKey proofBytes, ctx.lookupAuditChainKey batch.emitterNode=some auditChainKey ∧
    bytesOf (chainProofInput batch.batchId batch.batchSeq batch.prevBatchHash)=.ok proofBytes ∧
    toBase64url (env.hmac auditChainKey proofBytes)=batch.hkdfChainProof
  follows : verifyContinuity env batch (ctx.lookupPreviousBatch batch.emitterNode)=.ok ()
  entries : ∀ entry∈batch.entries, verifyAuditEntry env nowMs entry cert ctx=.ok ()

theorem verifyAuditBatch_eq_ok {batch : AuditBatch} :
    verifyAuditBatch env nowMs batch ctx=.ok () ↔ ∃ cert, BatchAccepted env nowMs batch ctx cert := by
  unfold verifyAuditBatch
  constructor
  · intro h
    obtain ⟨cert,hcer,h⟩ := Outcome.bind_ok h
    obtain ⟨bytes,hbyt,h⟩ := Outcome.bind_ok h
    rw [Outcome.require_bind_eq_ok] at h
    obtain ⟨hsig,h⟩ := h
    obtain ⟨auditChainKey,hkey,h⟩ := Outcome.bind_ok h
    obtain ⟨proofBytes,hpro,h⟩ := Outcome.bind_ok h
    rw [Outcome.require_bind_eq_ok] at h
    obtain ⟨hhma,h⟩ := h
    obtain ⟨_,hfol,h⟩ := Outcome.bind_ok h
    exact ⟨cert,orRefuseBatch_eq_ok.mp hcer,⟨bytes,hbyt,hsig⟩,
      ⟨auditChainKey,proofBytes,orRefuseBatch_eq_ok.mp hkey,hpro,hhma⟩,hfol,verifyAuditEntries_eq_ok.mp h⟩
  · rintro ⟨cert,hcer,⟨bytes,hbyt,hsig⟩,⟨auditChainKey,proofBytes,hkey,hpro,hhma⟩,hfol,hent⟩
    rw [orRefuseBatch_eq_ok.mpr hcer,hbyt,orRefuseBatch_eq_ok.mpr hkey,hpro,hfol]
    change (require _ _ >>= fun _ => require _ _ >>= fun _ => _)=_
    rw [Outcome.require_bind_eq_ok,Outcome.require_bind_eq_ok]
    exact ⟨hsig,hhma,verifyAuditEntries_eq_ok.mpr hent⟩

theorem ingestAuditBatch_eq_ok {node : MeshNode} {log log' : CanonicalAuditLog} {message : AuditMessage} :
    node.ingestAuditBatch env nowMs (some log) message=.ok log' ↔
      message.kind = "audit_batch" ∧ verifyAuditBatch env nowMs message.batch (node.batchContext env log)=.ok () ∧
        log'=log.append message.batch := by
  change (require _ _ >>= fun _ => verifyAuditBatch _ _ _ _ >>= fun _ => _)=_ ↔ _
  rw [Outcome.require_bind_eq_ok]
  refine and_congr_right fun _ => ?_
  cases verifyAuditBatch env nowMs message.batch (node.batchContext env log) with
  | error refusal => simp [bind,Except.bind]
  | ok _ => simp [bind,Except.bind,pure,Except.pure,eq_comm]

end Spec

end CastleWall.Mesh
