import CastleWall.Mesh.AuditBatch
import CastleWall.Mesh.Revocation

/-! # Pushing and flushing audit entries

The audit buffer of `mesh/lifecycle/canonical-audit.ts`, the counters of `mesh/lifecycle/file-stores.ts` and
`flushAuditBuffer` of `mesh/lifecycle/mesh-node.ts`, with what can go wrong in a flush: the counter's write, the seal
and the send. -/

namespace CastleWall.Mesh

open Text Cognitive.StateStore Custody
open Outcome (require)

inductive CounterWrite where
  | written
  | failed (landed : Bool)

/-- `audit_batch_seq`: the value in memory and the one in the file, 0 where there is none. -/
structure FileCounterStore where
  (value persisted : Int)

def maxSafeInteger : Int := 2 ^ 53 - 1

namespace FileCounterStore

def next (counters : FileCounterStore) (write : CounterWrite) : FileCounterStore × Except AuditRefusal Int :=
  if maxSafeInteger ≤ counters.value then (counters,.error .counterCeiling)
  else
    let nextValue := counters.value+1
    match write with
    | .written => (⟨nextValue,nextValue⟩,.ok counters.value)
    | .failed landed => (⟨nextValue,if landed then nextValue else counters.persisted⟩,.error .counterWrite)

def init (counters : FileCounterStore) : FileCounterStore := ⟨counters.persisted,counters.persisted⟩

end FileCounterStore

structure AuditBuffer where
  pending : List AuditEntry
  previousBatch : Option AuditBatch

/-- One attempt to flush: the id and the time the batch is sealed with, and what goes wrong. -/
structure FlushAttempt where
  (batchId sealedAt : String)
  write : CounterWrite
  (sealFails sent : Bool)

structure AuditEmitter where
  nodeId : String
  nodePrivateKey : List UInt8
  certificate : NodeIdentityCertificate
  counters : FileCounterStore
  auditBuffer : AuditBuffer

structure FlushResult where
  emitter : AuditEmitter
  outcome : Except AuditRefusal Unit
  message : Option AuditMessage

namespace AuditEmitter

variable (env : AuditEnv) (emitter : AuditEmitter)

def pushAuditEntry (entryId emittedAt : String) (params : EntryParams) : AuditEmitter :=
  match sealAuditEntry env entryId emittedAt emitter.nodeId emitter.nodePrivateKey params with
  | .error _ => emitter
  | .ok entry =>
    { emitter with auditBuffer := { emitter.auditBuffer with pending := emitter.auditBuffer.pending++[entry] } }

def flush (attempt : FlushAttempt) : AuditEmitter × Except AuditRefusal (Option AuditBatch) :=
  if emitter.auditBuffer.pending.isEmpty then (emitter,.ok none)
  else
    let counted := emitter.counters.next attempt.write
    let sealing : Except AuditRefusal AuditBatch := do
      let batchSeq ← counted.2
      require (attempt.sealFails=false) .sealFailed
      sealAuditBatch env attempt.batchId attempt.sealedAt
        { emitterNode := emitter.nodeId, batchSeq, entries := emitter.auditBuffer.pending
          previousBatch := emitter.auditBuffer.previousBatch
          nodeAuditChainKey := env.nodeAuditChainKey emitter.nodeId, nodePrivateKey := emitter.nodePrivateKey }
    match sealing with
    | .error refusal => ({ emitter with counters := counted.1 },.error refusal)
    | .ok batch => ({ emitter with counters := counted.1, auditBuffer := ⟨[],some batch⟩ },.ok (some batch))

def flushAuditBuffer (attempt : FlushAttempt) : FlushResult :=
  let flushed := emitter.flush env attempt
  match flushed.2 with
  | .error refusal => ⟨flushed.1,.error refusal,none⟩
  | .ok none => ⟨flushed.1,.ok (),none⟩
  | .ok (some batch) =>
    if attempt.sent then ⟨flushed.1,.ok (),some ⟨"audit_batch",batch⟩⟩ else ⟨flushed.1,.error .sendFailed,none⟩

def restart : AuditEmitter := { emitter with counters := emitter.counters.init, auditBuffer := ⟨[],none⟩ }

end AuditEmitter

/-- The emitter, the log of the canonical node, and the entries pushed since the emitter started. -/
structure AuditWorld where
  emitter : AuditEmitter
  log : CanonicalAuditLog
  pushed : List AuditEntry

/-- A flush comes with the canonical node as it is when the message arrives. A crash inside a flush is a flush that
does not send, and a restart. -/
inductive AuditInput where
  | push (entryId emittedAt : String) (params : EntryParams)
  | flush (attempt : FlushAttempt) (canonical : MeshNode) (nowMs : Int)
  | restart

namespace AuditWorld

variable (env : AuditEnv)

def deliver (canonical : MeshNode) (nowMs : Int) (log : CanonicalAuditLog) : Option AuditMessage → CanonicalAuditLog
  | none => log
  | some message =>
    match canonical.ingestAuditBatch env nowMs (some log) message with
    | .ok log => log
    | .error _ => log

def step (world : AuditWorld) : AuditInput → AuditWorld
  | .push entryId emittedAt params =>
    let emitter := world.emitter.pushAuditEntry env entryId emittedAt params
    { world with
      emitter
      pushed := world.pushed++emitter.auditBuffer.pending.drop world.emitter.auditBuffer.pending.length }
  | .flush attempt canonical nowMs =>
    let result := world.emitter.flushAuditBuffer env attempt
    { world with emitter := result.emitter, log := deliver env canonical nowMs world.log result.message }
  | .restart => { world with emitter := world.emitter.restart, pushed := [] }

def run (world : AuditWorld) : List AuditInput → AuditWorld
  | [] => world
  | input::inputs => run (world.step env input) inputs

end AuditWorld

/-- The canonical node holds the emitter's certificate as active, with the key the emitter signs with, and it chains
to the pinned master. -/
structure MeshNode.Enrolled (canonical : MeshNode) (env : AuditEnv) (nowMs : Int) (emitter : AuditEmitter) : Prop where
  held : canonical.roster.lookupActiveNodeCert emitter.nodeId=some emitter.certificate
  signs : ∀ bytes, env.verify (env.sign bytes emitter.nodePrivateKey) bytes
    (decodeBase64url emitter.certificate.nodePubkey)=true
  issuer : ∃ issuer, canonical.principalRoster.get emitter.certificate.parentChain.principalId=some issuer ∧
    verifyCertChain env.toMeshEnv nowMs emitter.certificate issuer canonical.pinnedMaster=.ok ()

structure FlushAttempt.Clean (attempt : FlushAttempt) : Prop where
  write : attempt.write=.written
  sealFails : attempt.sealFails=false
  sent : attempt.sent=true

def AuditWorld.Continuous (env : AuditEnv) (world : AuditWorld) : Prop :=
  ∀ (attempt : FlushAttempt) (canonical : MeshNode) (nowMs : Int), attempt.Clean →
    canonical.Enrolled env nowMs world.emitter → world.emitter.auditBuffer.pending≠[] →
    (world.emitter.flushAuditBuffer env attempt).outcome=.ok () ∧
      ∃ message log, (world.emitter.flushAuditBuffer env attempt).message=some message ∧
        canonical.ingestAuditBatch env nowMs (some world.log) message=.ok log

def AuditWorld.ingested (world : AuditWorld) : List AuditEntry :=
  (world.log.appendOrder.filter fun batch => batch.emitterNode=world.emitter.nodeId).flatMap (·.entries)

/-- Every entry that was pushed is with the canonical node or still pending, in order. -/
def AuditWorld.Accounted (world : AuditWorld) : Prop :=
  world.ingested++world.emitter.auditBuffer.pending=world.pushed

/-- A step after which the chain goes on: an entry names the system or the principal that issued the emitter's
certificate, a flush of entries does not fail and is to a node the emitter is enrolled with, and a restart comes
before the first flush. -/
def AuditWorld.Steady (env : AuditEnv) (world : AuditWorld) : AuditInput → Prop
  | .push _ _ params =>
    params.emitterPrincipal = "system" ∨
      params.emitterPrincipal=world.emitter.certificate.parentChain.principalId
  | .flush attempt canonical nowMs =>
    world.emitter.auditBuffer.pending=[] ∨ attempt.Clean ∧ canonical.Enrolled env nowMs world.emitter
  | .restart => world.emitter.counters.persisted=0

def AuditWorld.SteadyRun (env : AuditEnv) (world : AuditWorld) : List AuditInput → Prop
  | [] => True
  | input::inputs => world.Steady env input ∧ SteadyRun env (world.step env input) inputs

/-- A node that has not flushed. -/
structure AuditWorld.Fresh (world : AuditWorld) : Prop where
  counters : world.emitter.counters=⟨0,0⟩
  buffer : world.emitter.auditBuffer=⟨[],none⟩
  previous : world.log.lookupPreviousBatch world.emitter.nodeId=none
  ingested : world.ingested=[]
  pushed : world.pushed=[]

structure AuditEmitter.Sealed (emitter : AuditEmitter) (env : AuditEnv) (entry : AuditEntry) : Prop where
  scheme : entry.signatureScheme=signatureSchemeV1
  safe : numbersSafe entry.body=true
  signature : entry.signature =
    toBase64url (env.sign (utf8Bytes entry.body.canonicalText) emitter.nodePrivateKey)
  principal : entry.emitterPrincipal = "system" ∨
    entry.emitterPrincipal=emitter.certificate.parentChain.principalId

/-- The counter in memory and in the file, the last batch of the buffer and the last batch of the log agree. -/
structure AuditWorld.Inv (env : AuditEnv) (world : AuditWorld) (steps : Nat) : Prop where
  persisted : world.emitter.counters.persisted=world.emitter.counters.value
  nonneg : 0 ≤ world.emitter.counters.value
  bounded : world.emitter.counters.value ≤ steps
  previous : world.log.lookupPreviousBatch world.emitter.nodeId=world.emitter.auditBuffer.previousBatch
  first : world.emitter.auditBuffer.previousBatch=none ↔ world.emitter.counters.value=0
  last : ∀ batch, world.emitter.auditBuffer.previousBatch=some batch →
    batch.emitterNode=world.emitter.nodeId ∧ batch.batchSeq+1=world.emitter.counters.value ∧
      numbersSafe batch.value=true
  pending : ∀ entry∈world.emitter.auditBuffer.pending, world.emitter.Sealed env entry
  accounted : world.Accounted
  unsent : world.emitter.counters.value=0 → world.ingested=[]

section Invariant

variable {env : AuditEnv} {world : AuditWorld} {steps : Nat}

theorem AuditWorld.Fresh.inv (h : world.Fresh) : world.Inv env 0 := by
  constructor
  · rw [h.counters]
  · rw [h.counters]
  · rw [h.counters]
    exact le_rfl
  · rw [h.previous,h.buffer]
  · rw [h.counters,h.buffer]
    exact iff_of_true rfl rfl
  · rw [h.buffer]
    intro batch hbat
    cases hbat
  · rw [h.buffer]
    intro entry hent
    cases hent
  · rw [AuditWorld.Accounted,h.ingested,h.buffer,h.pushed]
    rfl
  · exact fun _ => h.ingested

structure AuditEmitter.Seals (emitter : AuditEmitter) (env : AuditEnv) (batch : AuditBatch) : Prop where
  emitterNode : batch.emitterNode=emitter.nodeId
  batchSeq : batch.batchSeq=emitter.counters.value
  entries : batch.entries=emitter.auditBuffer.pending
  prevBatchHash : prevBatchHashOf env emitter.auditBuffer.previousBatch=.ok batch.prevBatchHash
  proof : batch.hkdfChainProof=toBase64url (env.hmac (env.nodeAuditChainKey emitter.nodeId)
    (utf8Bytes (chainProofInput batch.batchId batch.batchSeq batch.prevBatchHash).canonicalText))
  signature : batch.signature =
    toBase64url (env.sign (utf8Bytes batch.body.canonicalText) emitter.nodePrivateKey)

theorem AuditWorld.Inv.natAbs_le (hinv : world.Inv env steps) (hroo : world.emitter.counters.value < maxSafeInteger) :
    world.emitter.counters.value.natAbs ≤ 2 ^ 53 - 1 := by
  have hnon := hinv.nonneg
  unfold maxSafeInteger at hroo
  omega

theorem AuditWorld.Inv.sealAuditBatch_ok (hinv : world.Inv env steps)
    (hroo : world.emitter.counters.value < maxSafeInteger) (batchId sealedAt : String) :
    ∃ batch, sealAuditBatch env batchId sealedAt
        { emitterNode := world.emitter.nodeId, batchSeq := world.emitter.counters.value
          entries := world.emitter.auditBuffer.pending, previousBatch := world.emitter.auditBuffer.previousBatch
          nodeAuditChainKey := env.nodeAuditChainKey world.emitter.nodeId
          nodePrivateKey := world.emitter.nodePrivateKey } = .ok batch ∧ world.emitter.Seals env batch := by
  have hseq := hinv.natAbs_le hroo
  have hche : checkSequence
      { emitterNode := world.emitter.nodeId, batchSeq := world.emitter.counters.value
        entries := world.emitter.auditBuffer.pending, previousBatch := world.emitter.auditBuffer.previousBatch
        nodeAuditChainKey := env.nodeAuditChainKey world.emitter.nodeId
        nodePrivateKey := world.emitter.nodePrivateKey } = .ok () := by
    unfold checkSequence
    cases hpre : world.emitter.auditBuffer.previousBatch with
    | none => exact Outcome.require_eq_ok.mpr (hinv.first.mp hpre)
    | some previous =>
      obtain ⟨hnod,hnex,-⟩ := hinv.last previous hpre
      exact Outcome.require_bind_eq_ok.mpr ⟨hnod,Outcome.require_eq_ok.mpr hnex⟩
  obtain ⟨prevBatchHash,hhas⟩ : ∃ hash, prevBatchHashOf env world.emitter.auditBuffer.previousBatch=.ok hash := by
    cases hpre : world.emitter.auditBuffer.previousBatch with
    | none => exact ⟨"",rfl⟩
    | some previous =>
      obtain ⟨-,-,hsaf⟩ := hinv.last previous hpre
      rw [prevBatchHashOf,hashBatch,bytesOf_of_safe hsaf]
      exact ⟨_,rfl⟩
  have hpro := bytesOf_of_safe (chainProofInput_safe hseq batchId prevBatchHash)
  refine ⟨_,sealAuditBatch_eq hinv.nonneg hche hhas hpro (bytesOf_of_safe ?_),?_⟩
  · exact (AuditBatch.value_safe hseq fun entry hent => (hinv.pending entry hent).safe).1
  · exact ⟨rfl,rfl,rfl,hhas,rfl,rfl⟩

theorem AuditWorld.Inv.flush (hinv : world.Inv env steps) (hroo : world.emitter.counters.value < maxSafeInteger)
    {attempt : FlushAttempt} (hcle : attempt.Clean) (hpen : world.emitter.auditBuffer.pending≠[]) :
    ∃ batch, world.emitter.Seals env batch ∧ world.emitter.flushAuditBuffer env attempt =
      ⟨{ world.emitter with
          counters := ⟨world.emitter.counters.value+1,world.emitter.counters.value+1⟩
          auditBuffer := ⟨[],some batch⟩ },.ok (),some ⟨"audit_batch",batch⟩⟩ := by
  obtain ⟨batch,hsea,hses⟩ := hinv.sealAuditBatch_ok hroo attempt.batchId attempt.sealedAt
  refine ⟨batch,hses,?_⟩
  have hemp : world.emitter.auditBuffer.pending.isEmpty=false := by simpa using hpen
  have hnex : world.emitter.counters.next attempt.write =
      (⟨world.emitter.counters.value+1,world.emitter.counters.value+1⟩,.ok world.emitter.counters.value) := by
    rw [FileCounterStore.next,if_neg (not_le.mpr hroo),hcle.write]
  have hflu : world.emitter.flush env attempt =
      ({ world.emitter with
          counters := ⟨world.emitter.counters.value+1,world.emitter.counters.value+1⟩
          auditBuffer := ⟨[],some batch⟩ },.ok (some batch)) := by
    unfold AuditEmitter.flush
    simp only [hemp,hnex,hcle.sealFails]
    simp only [Bool.false_eq_true,if_false,bind,Except.bind,require,if_true,hsea]
  unfold AuditEmitter.flushAuditBuffer
  rw [hflu]
  simp only [hcle.sent,if_true]

theorem AuditWorld.Inv.follows (hinv : world.Inv env steps) {batch : AuditBatch} (hsea : world.emitter.Seals env batch) :
    verifyContinuity env batch (world.log.lookupPreviousBatch world.emitter.nodeId)=.ok () := by
  rw [verifyContinuity_eq_ok,hinv.previous]
  have hhas := hsea.prevBatchHash
  constructor
  · intro hnone
    rw [hnone] at hhas
    exact ⟨hsea.batchSeq.trans (hinv.first.mp hnone),(Except.ok.inj hhas).symm⟩
  · intro last hlas
    rw [hlas] at hhas
    exact ⟨hsea.batchSeq.trans (hinv.last last hlas).2.1.symm,hhas⟩

variable {canonical : MeshNode} {nowMs : Int}

theorem AuditEmitter.Sealed.verifies {emitter : AuditEmitter} {entry : AuditEntry} (hsea : emitter.Sealed env entry) (henr : canonical.Enrolled env nowMs emitter) (log : CanonicalAuditLog) :
    verifyAuditEntry env nowMs entry emitter.certificate (canonical.batchContext env log)=.ok () := by
  rw [verifyAuditEntry_eq_ok]
  refine ⟨hsea.scheme,⟨_,bytesOf_of_safe hsea.safe,?_⟩,fun hpri => ?_⟩
  · rw [MeshEnv.signed,hsea.signature,decodeBase64url_toBase64url]
    exact henr.signs _
  · rw [hsea.principal.resolve_left hpri]
    exact henr.issuer

theorem AuditWorld.Inv.ingests (hinv : world.Inv env steps) (hroo : world.emitter.counters.value < maxSafeInteger)
    {batch : AuditBatch} (hsea : world.emitter.Seals env batch)
    (henr : canonical.Enrolled env nowMs world.emitter) :
    canonical.ingestAuditBatch env nowMs (some world.log) ⟨"audit_batch",batch⟩=.ok (world.log.append batch) := by
  have hseq : batch.batchSeq.natAbs ≤ 2 ^ 53 - 1 := hsea.batchSeq ▸ hinv.natAbs_le hroo
  have hsaf := AuditBatch.value_safe hseq fun entry hent =>
    (hinv.pending entry (hsea.entries ▸ hent)).safe
  have hacc : BatchAccepted env nowMs batch (canonical.batchContext env world.log) world.emitter.certificate := by
    constructor
    · rw [hsea.emitterNode]
      exact henr.held
    · refine ⟨_,bytesOf_of_safe hsaf.1,?_⟩
      rw [MeshEnv.signed,hsea.signature,decodeBase64url_toBase64url]
      exact henr.signs _
    · refine ⟨_,_,rfl,bytesOf_of_safe (chainProofInput_safe hseq _ _),?_⟩
      rw [hsea.proof,hsea.emitterNode]
    · rw [hsea.emitterNode]
      exact hinv.follows hsea
    · intro entry hent
      exact (hinv.pending entry (hsea.entries ▸ hent)).verifies henr world.log
  exact ingestAuditBatch_eq_ok.mpr ⟨rfl,verifyAuditBatch_eq_ok.mpr ⟨_,hacc⟩,rfl⟩

theorem AuditWorld.Inv.continuous (hinv : world.Inv env steps)
    (hroo : world.emitter.counters.value < maxSafeInteger) : world.Continuous env := by
  intro attempt canonical nowMs hcle henr hpen
  obtain ⟨batch,hsea,hflu⟩ := hinv.flush hroo hcle hpen
  rw [hflu]
  exact ⟨rfl,_,_,rfl,hinv.ingests hroo hsea henr⟩

theorem pushAuditEntry_cases (env : AuditEnv) (emitter : AuditEmitter) (entryId emittedAt : String) (params : EntryParams) :
    emitter.pushAuditEntry env entryId emittedAt params=emitter ∨
      ∃ entry : AuditEntry, emitter.pushAuditEntry env entryId emittedAt params =
          { emitter with
            auditBuffer := { emitter.auditBuffer with pending := emitter.auditBuffer.pending++[entry] } } ∧
        entry.signatureScheme=signatureSchemeV1 ∧ numbersSafe entry.body=true ∧
        entry.signature=toBase64url (env.sign (utf8Bytes entry.body.canonicalText) emitter.nodePrivateKey) ∧
        entry.emitterPrincipal=params.emitterPrincipal := by
  unfold AuditEmitter.pushAuditEntry
  cases hsea : sealAuditEntry env entryId emittedAt emitter.nodeId emitter.nodePrivateKey params with
  | error refusal => exact .inl rfl
  | ok entry =>
    obtain ⟨bytes,hbyt,hent⟩ := Outcome.bind_ok hsea
    obtain ⟨hsaf,rfl⟩ := bytesOf_eq_ok.mp hbyt
    cases hent
    exact .inr ⟨_,rfl,rfl,hsaf,rfl,rfl⟩

theorem AuditWorld.Inv.weaken (hinv : world.Inv env steps) : world.Inv env (steps+1) :=
  { hinv with bounded := hinv.bounded.trans (by omega) }

theorem AuditEmitter.Sealed.of_eq {emitter emitter' : AuditEmitter} {entry : AuditEntry}
    (h : emitter.Sealed env entry) (hkey : emitter'.nodePrivateKey=emitter.nodePrivateKey)
    (hcer : emitter'.certificate=emitter.certificate) : emitter'.Sealed env entry :=
  ⟨h.scheme,h.safe,hkey ▸ h.signature,hcer ▸ h.principal⟩

theorem AuditWorld.Inv.push (hinv : world.Inv env steps) {entryId emittedAt : String} {params : EntryParams}
    (hste : world.Steady env (.push entryId emittedAt params)) :
    (world.step env (.push entryId emittedAt params)).Inv env (steps+1) := by
  rcases pushAuditEntry_cases env world.emitter entryId emittedAt params with
    hsam | ⟨entry,hpus,hsch,hsaf,hsig,hpri⟩
  · have hwor : world.step env (.push entryId emittedAt params)=world := by
      simp only [AuditWorld.step,hsam,List.drop_length,List.append_nil]
    rw [hwor]
    exact hinv.weaken
  · have hwor : world.step env (.push entryId emittedAt params) =
        { world with
          emitter := { world.emitter with
            auditBuffer := { world.emitter.auditBuffer with
              pending := world.emitter.auditBuffer.pending++[entry] } }
          pushed := world.pushed++[entry] } := by
      simp only [AuditWorld.step,hpus,List.drop_left]
    rw [hwor]
    refine { hinv.weaken with pending := ?_, accounted := ?_ }
    · rw [List.forall_mem_append,List.forall_mem_singleton]
      refine ⟨fun old hold => (hinv.pending old hold).of_eq rfl rfl,hsch,hsaf,hsig,?_⟩
      rw [hpri]
      exact hste
    · change world.ingested++(world.emitter.auditBuffer.pending++[entry])=world.pushed++[entry]
      rw [← List.append_assoc,hinv.accounted]

theorem flushAuditBuffer_of_empty {emitter : AuditEmitter} (h : emitter.auditBuffer.pending=[])
    (attempt : FlushAttempt) : emitter.flushAuditBuffer env attempt=⟨emitter,.ok (),none⟩ := by
  simp only [AuditEmitter.flushAuditBuffer,AuditEmitter.flush,h,List.isEmpty_nil,if_true]

theorem AuditWorld.Inv.flushed (hinv : world.Inv env steps) (hroo : world.emitter.counters.value < maxSafeInteger)
    {attempt : FlushAttempt}
    (hste : world.Steady env (.flush attempt canonical nowMs)) :
    (world.step env (.flush attempt canonical nowMs)).Inv env (steps+1) := by
  by_cases hpen : world.emitter.auditBuffer.pending=[]
  · have hwor : world.step env (.flush attempt canonical nowMs)=world := by
      simp only [AuditWorld.step,flushAuditBuffer_of_empty hpen,AuditWorld.deliver]
    rw [hwor]
    exact hinv.weaken
  · obtain ⟨hcle,henr⟩ := hste.resolve_left hpen
    obtain ⟨batch,hsea,hflu⟩ := hinv.flush hroo hcle hpen
    have hwor : world.step env (.flush attempt canonical nowMs) =
        { world with
          emitter := { world.emitter with
            counters := ⟨world.emitter.counters.value+1,world.emitter.counters.value+1⟩
            auditBuffer := ⟨[],some batch⟩ }
          log := world.log.append batch } := by
      simp only [AuditWorld.step,hflu,AuditWorld.deliver,hinv.ingests hroo hsea henr]
    have hnon := hinv.nonneg
    have hbou := hinv.bounded
    rw [hwor]
    constructor
    · rfl
    · change 0 ≤ world.emitter.counters.value+1
      omega
    · change world.emitter.counters.value+1 ≤ ((steps+1 : Nat) : Int)
      omega
    · change (world.log.previousByEmitter.set batch.emitterNode batch).get world.emitter.nodeId=some batch
      rw [hsea.emitterNode,OrderedMap.get_set_self]
    · change some batch=none ↔ world.emitter.counters.value+1=0
      exact iff_of_false (by simp) (by omega)
    · intro last hlas
      cases hlas
      refine ⟨hsea.emitterNode,congrArg (· + 1) hsea.batchSeq,?_⟩
      refine (AuditBatch.value_safe (hsea.batchSeq ▸ hinv.natAbs_le hroo) fun entry hent => ?_).2
      exact (hinv.pending entry (hsea.entries ▸ hent)).safe
    · intro entry hent
      cases hent
    · change ((world.log.appendOrder++[batch]).filter _).flatMap _++[]=world.pushed
      rw [List.filter_append,List.flatMap_append,List.append_nil,← hinv.accounted,
        List.filter_cons_of_pos (by simpa using hsea.emitterNode),List.filter_nil,List.flatMap_singleton,
        hsea.entries]
      rfl
    · intro h
      change world.emitter.counters.value+1=0 at h
      omega

theorem AuditWorld.Inv.restarted (hinv : world.Inv env steps) (hste : world.Steady env .restart) :
    (world.step env .restart).Inv env (steps+1) := by
  have hval : world.emitter.counters.value=0 := hinv.persisted ▸ hste
  have hcou : world.emitter.counters.persisted=0 := hste
  constructor
  · rfl
  · exact hcou.ge
  · change world.emitter.counters.persisted ≤ _
    omega
  · exact hinv.previous.trans (hinv.first.mpr hval)
  · exact iff_of_true rfl hcou
  · intro batch hbat
    cases hbat
  · intro entry hent
    cases hent
  · change world.ingested++[]=[]
    rw [hinv.unsent hval]
    rfl
  · exact fun _ => hinv.unsent hval

theorem AuditWorld.Inv.run {inputs : List AuditInput} (hinv : world.Inv env steps)
    (hste : world.SteadyRun env inputs) (hroo : (steps+inputs.length : Nat) < maxSafeInteger) :
    (world.run env inputs).Inv env (steps+inputs.length) := by
  induction inputs generalizing world steps with
  | nil => exact hinv
  | cons input inputs ih =>
    have hval : world.emitter.counters.value < maxSafeInteger := by
      have hbou := hinv.bounded
      rw [List.length_cons] at hroo
      omega
    have hstp : (world.step env input).Inv env (steps+1) := by
      cases input with
      | push entryId emittedAt params => exact hinv.push hste.1
      | flush attempt canonical nowMs => exact hinv.flushed hval hste.1
      | restart => exact hinv.restarted hste.1
    rw [List.length_cons,← Nat.add_assoc,Nat.add_right_comm] at hroo ⊢
    exact ih hstp hste.2 hroo

end Invariant

/-- In a run of steady steps a flush always goes through and its batch is taken, and no entry is lost. -/
theorem audit_flush_continues (env : AuditEnv) {world : AuditWorld} (hfresh : world.Fresh) {inputs : List AuditInput}
    (hsteady : world.SteadyRun env inputs) (hshort : (inputs.length : Int) < maxSafeInteger) :
    (world.run env inputs).Continuous env ∧ (world.run env inputs).Accounted := by
  have hinv := (AuditWorld.Fresh.inv hfresh).run hsteady (by simpa using hshort)
  rw [Nat.zero_add] at hinv
  exact ⟨hinv.continuous (lt_of_le_of_lt hinv.bounded hshort),hinv.accounted⟩

namespace Sample

def auditEnv : AuditEnv where
  toMeshEnv := env
  hmac _ _ := []
  nodeAuditChainKey _ := []

/-- A node that has not pushed anything. -/
def auditWorld : AuditWorld where
  emitter :=
    { nodeId := "peer", nodePrivateKey := decodeBase64url "Aw", certificate := certificate "peer" "Aw"
      counters := ⟨0,0⟩, auditBuffer := ⟨[],none⟩ }
  log := .empty
  pushed := []

def pushSystem : AuditInput := .push "e-1" "2026-01-01T00:00:00.000Z" ⟨"agent","system",0,"ok",none⟩

def cleanAttempt : FlushAttempt := ⟨"b-1","2026-01-01T00:00:00.000Z",.written,false,true⟩

def flushClean : AuditInput := .flush cleanAttempt node 0

theorem cleanAttempt_clean : cleanAttempt.Clean := ⟨rfl,rfl,rfl⟩

theorem auditWorld_fresh : auditWorld.Fresh := ⟨rfl,rfl,rfl,rfl,rfl⟩

theorem node_enrolled {emitter : AuditEmitter} (hnod : emitter.nodeId = "peer")
    (hkey : emitter.nodePrivateKey=decodeBase64url "Aw") (hcer : emitter.certificate=certificate "peer" "Aw") :
    node.Enrolled auditEnv 0 emitter := by
  constructor
  · rw [hnod,hcer]
    rfl
  · intro bytes
    rw [hkey,hcer]
    rfl
  · rw [hcer]
    exact ⟨root,rfl,by decide +kernel⟩

end Sample

theorem audit_flush_continues_twice :
    (Sample.auditWorld.run Sample.auditEnv [Sample.pushSystem, Sample.flushClean,Sample.pushSystem]).Continuous
        Sample.auditEnv ∧
      (Sample.auditWorld.run Sample.auditEnv [Sample.pushSystem, Sample.flushClean,Sample.pushSystem]).Accounted :=
  audit_flush_continues Sample.auditEnv Sample.auditWorld_fresh
    ⟨.inl rfl,.inr ⟨Sample.cleanAttempt_clean,Sample.node_enrolled rfl rfl rfl⟩,.inl rfl,trivial⟩ (by decide)

/-- After a flush and a restart the next flush fails: the counter is at 1 and there is no previous batch. -/
theorem audit_flush_fails_after_restart :
    ∃ inputs, ¬ (Sample.auditWorld.run Sample.auditEnv inputs).Continuous Sample.auditEnv := by
  refine ⟨[Sample.pushSystem, Sample.flushClean,.restart,Sample.pushSystem],fun hcon => ?_⟩
  have hflu := (hcon Sample.cleanAttempt Sample.node 0 Sample.cleanAttempt_clean
    (Sample.node_enrolled rfl rfl rfl) (by decide +kernel)).1
  have hfai : ((Sample.auditWorld.run Sample.auditEnv
      [Sample.pushSystem, Sample.flushClean,.restart,Sample.pushSystem]).emitter.flushAuditBuffer Sample.auditEnv
      Sample.cleanAttempt).outcome.isOk=false := by
    decide +kernel
  rw [hflu] at hfai
  cases hfai

end CastleWall.Mesh
