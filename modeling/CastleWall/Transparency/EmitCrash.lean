import CastleWall.Transparency.Emitter

/-! # Emission and crashes

The record and the floor are two writes. A crash between them leaves the floor one behind, which the next
emission accepts, except at the first record, where it leaves no floor at all. -/

namespace CastleWall.Transparency

open Text

/-- What happens to a fortress: the audit log grows and is pruned, a checkpoint is emitted, or an
emission stops with some of its two writes made. -/
inductive EmitEvent where
  | appended (entryHash operation : String) (ruleId : Option String)
  | pruned (count : Nat)
  | emitted (call : EmitCall)
  | crashed (call : EmitCall) (writes : Nat)

section Run

variable (cfg : EmitConfig)

def EmitStore.step (store : EmitStore) : EmitEvent → EmitStore
  | .appended entryHash operation ruleId =>
    { store with log := store.log++[⟨highestSequence store.log+1,entryHash,operation,ruleId⟩] }
  -- rotation keeps the newest entry
  | .pruned count =>
    if count < store.log.length then { store with log := store.log.drop count } else store
  | .emitted call => ((emitEnforcementCheckpoint cfg call).run store).2
  | .crashed call writes => (emitEnforcementCheckpoint cfg call).written writes store

def EmitStore.run (store : EmitStore) : List EmitEvent → EmitStore
  | [] => store
  | event::events => (store.step cfg event).run events

def EmitStore.fresh : EmitStore := ⟨[],[],none⟩

def EmitCall.Sized (call : EmitCall) : Prop :=
  ∀ rules, call.rules=some rules → rules.length ≤ JsValue.maxSafeInteger

/-- No emission stops between its two writes while there is no floor. -/
def EmitEvent.Spares (store : EmitStore) : EmitEvent → Prop
  | .emitted call => call.Sized
  | .crashed call writes => call.Sized ∧ (store.floor=none → writes≠1)
  | _ => True

def EmitStore.Spared (store : EmitStore) : List EmitEvent → Prop
  | [] => True
  | event::events => event.Spares store ∧ (store.step cfg event).Spared events

end Run

section Prepare

variable {cfg : EmitConfig} {call : EmitCall} {store : EmitStore}

structure Prepared (cfg : EmitConfig) (call : EmitCall) (store : EmitStore) (payload : CheckpointPayload)
    (signature : List UInt8) : Prop where
  source : ∃ rules binary previous, call.rules=some rules ∧
    readPersistedCheckpoints store.checkpoints=some previous ∧
    crossCheckFloor (readCounterFloor cfg store.floor) previous.getLast? = none ∧
    payload=nextPayload cfg call store rules binary previous.getLast?
  length : signature.length=64
  verifies : signatureVerifies cfg payload signature=true

variable {counter : Nat}

theorem signRecord_ok {payload : CheckpointPayload} {value : JsValue}
    (h : signRecord cfg call payload=.ok (counter,value)) : ∃ signature : List UInt8,
      signature.length=64 ∧ signatureVerifies cfg payload signature=true ∧
        counter=payload.counter ∧ value=recordValue cfg payload signature := by
  rw [signRecord] at h
  split at h
  · exact absurd h nofun
  · rename_i signature hsig
    split_ifs at h with hlen hver
    cases h
    exact ⟨signature,not_not.mp hlen,hver,rfl,rfl⟩

theorem prepareCheckpoint_ok {value : JsValue}
    (h : prepareCheckpoint cfg call store=.ok (counter,value)) : ∃ payload signature,
      Prepared cfg call store payload signature ∧ counter=payload.counter ∧
        value=recordValue cfg payload signature := by
  rw [prepareCheckpoint] at h
  split at h
  · exact absurd h nofun
  rename_i rules hrul
  split at h
  · exact absurd h nofun
  rename_i binary hbin
  split at h
  · exact absurd h nofun
  rename_i previous hpre
  split at h
  · exact absurd h nofun
  rename_i hflo
  obtain ⟨signature,hlen,hver,hcou,hval⟩ := signRecord_ok h
  exact ⟨_,signature,⟨⟨rules,binary,previous,hrul,hpre,hflo,rfl⟩,hlen,hver⟩,
    hcou,hval⟩

variable {refusal : EmitRefusal}

/-- Signing is never refused as a rollback. -/
theorem signRecord_rollback {payload : CheckpointPayload}
    (h : signRecord cfg call payload=.error refusal) : refusal.rollback=false := by
  rw [signRecord] at h
  split at h
  · cases h
    rfl
  · split_ifs at h
    · cases h
      rfl
    · cases h
      rfl

theorem prepareCheckpoint_rollback
    (h : prepareCheckpoint cfg call store=.error refusal) (hrol : refusal.rollback=true) :
    ∃ previous, readPersistedCheckpoints store.checkpoints=some previous ∧
      crossCheckFloor (readCounterFloor cfg store.floor) previous.getLast? = some refusal := by
  rw [prepareCheckpoint] at h
  split at h
  · cases h
    exact absurd hrol (by decide)
  split at h
  · cases h
    exact absurd hrol (by decide)
  split at h
  · cases h
    exact absurd hrol (by decide)
  rename_i previous hpre
  split at h
  · rename_i found hfou
    cases h
    exact ⟨previous,hpre,hfou⟩
  · rw [signRecord_rollback h] at hrol
    exact absurd hrol (by decide)

theorem emit_of_error (h : prepareCheckpoint cfg call store=.error refusal) :
    (emitEnforcementCheckpoint cfg call).run store=(.error refusal,store) ∧
      ∀ writes, (emitEnforcementCheckpoint cfg call).written writes store=store := by
  constructor
  · rw [emitEnforcementCheckpoint,Process.run_observe_bind,h]
    rfl
  · intro writes
    rw [emitEnforcementCheckpoint,Process.written_observe_bind,h]
    exact Process.written_fail writes refusal store

def EmitStore.putRecord (store : EmitStore) (counter : Nat) (record : JsValue) : EmitStore :=
  { store with checkpoints := checkpointFile counter record store.checkpoints }

def EmitStore.putFloor (store : EmitStore) (cfg : EmitConfig) (counter : Nat) : EmitStore :=
  { store with floor := some (floorEnvelope cfg counter) }

theorem emit_of_ok {record : JsValue}
    (h : prepareCheckpoint cfg call store=.ok (counter,record)) :
    (emitEnforcementCheckpoint cfg call).run store =
        (.ok record,(store.putRecord counter record).putFloor cfg counter) ∧
      (emitEnforcementCheckpoint cfg call).written 0 store=store ∧
      (emitEnforcementCheckpoint cfg call).written 1 store=store.putRecord counter record ∧
      ∀ writes, (emitEnforcementCheckpoint cfg call).written (writes+2) store =
        (store.putRecord counter record).putFloor cfg counter := by
  refine ⟨?_,?_,?_,?_⟩
  · rw [emitEnforcementCheckpoint,Process.run_observe_bind,h]
    rfl
  · rw [emitEnforcementCheckpoint,Process.written_observe_bind,h]
    rfl
  · rw [emitEnforcementCheckpoint,Process.written_observe_bind,h]
    rfl
  · intro writes
    rw [emitEnforcementCheckpoint,Process.written_observe_bind,h]
    cases writes <;> rfl

end Prepare

section Sound

variable {cfg : EmitConfig}

/-- The checkpoints on disk are the records of a chain under the signer's key, the log is at least as far as each
of them says, and the floor authenticates at most the last of them. -/
structure EmitSound (cfg : EmitConfig) (bound : Nat) (store : EmitStore) (records : List CheckpointRecord) :
    Prop where
  log : ∀ item∈store.log, item.sequence ≤ bound
  logLength : store.log.length ≤ bound
  files : store.checkpoints.map Prod.fst=List.range' 1 records.length
  read : (store.checkpoints.map Prod.snd).mapM readVerifierCheckpointRecord=some records
  count : records.length ≤ bound
  chain : records≠[] → GenesisChain cfg.env.toVerifyEnv (toBase64url cfg.publicKey) records
  later : ∀ record∈records.tail, record.previousCheckpointHash≠checkpointGenesis
  keys : ∀ record∈records, record.publicKey=toBase64url cfg.publicKey
  fortress : ∀ record∈records, record.fortressId=cfg.fortressId
  audit : ∀ record∈records, record.highestSequence ≤ highestSequence store.log
  key : records≠[] → cfg.publicKey≠[]
  floor : (records=[] ∧ store.floor=none) ∨
    ∃ k, store.floor=some (floorEnvelope cfg k) ∧ 0 < k ∧ k ≤ records.length

theorem emitSound_fresh : EmitSound cfg 0 .fresh [] where
  log := by simp [EmitStore.fresh]
  logLength := le_refl _
  files := rfl
  read := rfl
  count := le_refl _
  chain h := absurd rfl h
  later := by simp
  keys := by simp
  fortress := by simp
  audit := by simp
  key h := absurd rfl h
  floor := Or.inl ⟨rfl,rfl⟩

namespace EmitSound

variable {bound : Nat} {store : EmitStore} {records : List CheckpointRecord}

theorem mono (h : EmitSound cfg bound store records) {bound' : Nat} (hle : bound ≤ bound') :
    EmitSound cfg bound' store records :=
  { h with
    log := fun item hite => (h.log item hite).trans hle
    logLength := h.logLength.trans hle
    count := h.count.trans hle }

theorem highestSequence_le (h : EmitSound cfg bound store records) : highestSequence store.log ≤ bound := by
  rw [highestSequence]
  cases hlas : store.log.getLast? with
  | none => exact Nat.zero_le _
  | some item => exact h.log item (List.mem_of_getLast? hlas)

theorem lowestSequence_le (h : EmitSound cfg bound store records) : lowestSequence store.log ≤ bound := by
  rw [lowestSequence]
  cases hhea : store.log.head? with
  | none => exact Nat.zero_le _
  | some item => exact h.log item (List.mem_of_head? hhea)

theorem appended (h : EmitSound cfg bound store records) (entryHash operation : String)
    (ruleId : Option String) :
    EmitSound cfg (bound+1) (store.step cfg (.appended entryHash operation ruleId)) records := by
  have hhig := h.highestSequence_le
  have hlog : highestSequence (store.step cfg (.appended entryHash operation ruleId)).log =
      highestSequence store.log+1 := by
    simp [EmitStore.step,highestSequence]
  refine { h.mono (Nat.le_succ bound) with log := ?_, logLength := ?_, audit := ?_ }
  · intro item hite
    rcases List.mem_append.mp hite with hold | hnew
    · exact (h.log item hold).trans (Nat.le_succ bound)
    · rw [List.mem_singleton.mp hnew]
      exact Nat.succ_le_succ hhig
  · have hlen := h.logLength
    simp only [EmitStore.step,List.length_append,List.length_singleton]
    omega
  · intro record hrec
    rw [hlog]
    exact (h.audit record hrec).trans (Nat.le_succ _)

theorem pruned (h : EmitSound cfg bound store records) (count : Nat) :
    EmitSound cfg bound (store.step cfg (.pruned count)) records := by
  rw [EmitStore.step]
  split_ifs with hcou
  · have hlog : highestSequence (store.log.drop count)=highestSequence store.log := by
      rw [highestSequence,highestSequence,List.getLast?_drop,if_neg (by omega)]
    refine { h with log := ?_, logLength := ?_, audit := ?_ }
    · intro item hite
      exact h.log item (List.mem_of_mem_drop hite)
    · have hlen := h.logLength
      simp only [List.length_drop]
      omega
    · intro record hrec
      rw [hlog]
      exact h.audit record hrec
  · exact h

theorem mapM_readVerifier {files : List (Nat × JsValue)} {read : List CheckpointRecord}
    (h : (files.mapM fun file => readEnforcementCheckpointRecord file.2)=some read) :
    (files.map Prod.snd).mapM readVerifierCheckpointRecord=some read := by
  induction files generalizing read with
  | nil => exact h
  | cons file files ih =>
    rw [List.mapM_cons] at h
    rw [List.map_cons,List.mapM_cons]
    cases hfil : readEnforcementCheckpointRecord file.2 with
    | none => simp [hfil] at h
    | some record =>
      cases hres : files.mapM fun file => readEnforcementCheckpointRecord file.2 with
      | none => simp [hfil,hres] at h
      | some rest =>
        have hver : readVerifierCheckpointRecord file.2=some record := by
          rw [readEnforcementCheckpointRecord] at hfil
          cases hrea : readVerifierCheckpointRecord file.2 with
          | none => simp [hrea] at hfil
          | some found =>
            by_cases hkid : found.signerKid = ""
            · simp [hrea,hkid] at hfil
            · simpa [hrea,hkid] using hfil
        rw [hver,ih hres]
        simpa [hfil,hres] using h

theorem counterOrder_records (h : EmitSound cfg bound store records) : counterOrder records=records := by
  cases records with
  | nil => rfl
  | cons first rest => exact counterOrder_of_counters (h.chain (List.cons_ne_nil first rest)).counters

theorem previous_eq (h : EmitSound cfg bound store records) {previous : List CheckpointRecord}
    (hpre : readPersistedCheckpoints store.checkpoints=some previous) : previous=records := by
  rw [readPersistedCheckpoints,Option.map_eq_some_iff] at hpre
  obtain ⟨read,hrea,rfl⟩ := hpre
  obtain rfl : read=records := Option.some.inj ((mapM_readVerifier hrea).symm.trans h.read)
  exact h.counterOrder_records

theorem counter_getLast (h : EmitSound cfg bound store records) {last : CheckpointRecord}
    (hlas : records.getLast? = some last) : last.counter=records.length := by
  have hne : records≠[] := by
    rintro rfl
    simp at hlas
  have hpos := List.length_pos_of_ne_nil hne
  rw [List.getLast?_eq_getElem?] at hlas
  have hcou := (h.chain hne).counter_getElem hlas
  omega

theorem nextPayload_counter (h : EmitSound cfg bound store records) (call : EmitCall)
    (rules : List (String × List UInt8)) (binary : List UInt8) :
    (nextPayload cfg call store rules binary records.getLast?).counter=records.length+1 := by
  rw [nextPayload]
  cases hlas : records.getLast? with
  | none =>
    rw [List.getLast?_eq_none_iff.mp hlas]
    rfl
  | some last =>
    rw [Option.map_some,Option.getD_some,h.counter_getLast hlas]

theorem readCounterFloor_floorEnvelope (laws : EmitLaws cfg.env) {k : Nat} (hpos : 0 < k)
    (hsaf : k ≤ JsValue.maxSafeInteger) :
    readCounterFloor cfg (some (floorEnvelope cfg k))=.valid k := by
  have hmar : (floorEnvelope cfg k).get floorMarker=some (.bool true) := rfl
  have hdat : ((floorEnvelope cfg k).get "data").bind (fun data =>
      (data.get "highest_counter").bind JsValue.asNonNegativeInt)=(JsValue.number k).asNonNegativeInt := rfl
  have hmac : ((floorEnvelope cfg k).get "mac").bind JsValue.asString =
      some (toBase64url (cfg.env.floorMac k)) := rfl
  simp only [readCounterFloor,hmar,hdat,hmac,JsValue.asNonNegativeInt_natCast hsaf]
  rw [if_pos ⟨hpos,laws.decodeBase64url_toBase64url _⟩]

/-- The floor never contradicts the records. -/
theorem crossCheckFloor_eq_none (h : EmitSound cfg bound store records) (laws : EmitLaws cfg.env)
    (hbound : bound ≤ JsValue.maxSafeInteger) :
    crossCheckFloor (readCounterFloor cfg store.floor) records.getLast? = none := by
  rcases h.floor with ⟨hemp,hflo⟩ | ⟨k,hflo,hpos,hle⟩
  · rw [hemp,hflo]
    rfl
  · have hcou := h.count
    rw [hflo,readCounterFloor_floorEnvelope laws hpos (by omega),crossCheckFloor]
    cases hlas : records.getLast? with
    | none =>
      rw [List.getLast?_eq_none_iff.mp hlas] at hle
      exact absurd hle (Nat.not_le.mpr hpos)
    | some last =>
      rw [Option.any_some,h.counter_getLast hlas,if_pos (decide_eq_true hle)]

theorem checkpointFile_eq (h : EmitSound cfg bound store records) (value : JsValue) :
    checkpointFile (records.length+1) value store.checkpoints =
      store.checkpoints++[(records.length+1,value)] := by
  rw [checkpointFile,List.filter_eq_self.mpr]
  intro file hfil
  have hmem : file.1∈List.range' 1 records.length := h.files ▸ List.mem_map_of_mem hfil
  have hran := List.mem_range'_1.mp hmem
  simp only [ne_eq,decide_eq_true_eq]
  omega

theorem verifyRecordSignature_emitted (laws : EmitLaws cfg.env) {payload : CheckpointPayload}
    {highest : Nat} {signature : List UInt8} (hlen : signature.length=64)
    (hver : signatureVerifies cfg payload signature=true) (hpre) :
    verifyRecordSignature cfg.env.toVerifyEnv (emittedRecord cfg payload highest signature hpre)
      (toBase64url cfg.publicKey)=true := by
  rw [signatureVerifies,Bool.and_eq_true,decide_eq_true_eq,laws.decodeBase64url_toBase64url] at hver
  have hved := laws.verify_of_strict _ _ _ hver.2
  simp only [verifyRecordSignature,laws.fromBase64url_toBase64url,hver.1,ne_eq,not_true_eq_false,
    if_false,emittedRecord,hlen]
  exact hved

theorem nextPayload_previous (laws : EmitLaws cfg.env) (call : EmitCall) (store : EmitStore)
    (rules : List (String × List UInt8)) (binary : List UInt8) (last : Option CheckpointRecord) :
    (last=none ∧ (nextPayload cfg call store rules binary last).previousCheckpointHash =
      checkpointGenesis) ∨
    hex64 (nextPayload cfg call store rules binary last).previousCheckpointHash=true := by
  cases last with
  | none => exact Or.inl ⟨rfl,rfl⟩
  | some record => exact Or.inr (laws.sha256Hex_hex _)

theorem putRecord (h : EmitSound cfg bound store records) (laws : EmitLaws cfg.env)
    (hbound : bound+1 ≤ JsValue.maxSafeInteger) {call : EmitCall} (hsiz : call.Sized)
    {payload : CheckpointPayload} {signature : List UInt8}
    (hpre : Prepared cfg call store payload signature) :
    payload.counter=records.length+1 ∧ ∃ record, ∀ floor,
      ((∃ k, floor=some (floorEnvelope cfg k) ∧ 0 < k ∧ k ≤ records.length+1) →
        EmitSound cfg (bound+1)
          ⟨store.log,checkpointFile payload.counter (recordValue cfg payload signature) store.checkpoints,
            floor⟩ (records++[record])) := by
  obtain ⟨rules,binary,previous,hrul,hprs,-,hpay⟩ := hpre.source
  obtain rfl : previous=records := h.previous_eq hprs
  have hcou : payload.counter=previous.length+1 := by
    rw [hpay]
    exact h.nextPayload_counter call rules binary
  have hlin := nextPayload_previous laws call store rules binary previous.getLast?
  rw [← hpay] at hlin
  have hsha : payload.previousCheckpointHash=checkpointGenesis ∨
      hex64 payload.previousCheckpointHash=true := hlin.imp_left And.right
  have hcot := h.count
  have hhig := h.highestSequence_le
  have hlow := h.lowestSequence_le
  have hlen := h.logLength
  have hkey : cfg.publicKey≠[] := by
    have hver := hpre.verifies
    rw [signatureVerifies,Bool.and_eq_true,decide_eq_true_eq] at hver
    exact List.ne_nil_of_length_pos (by omega)
  have hsig : signature≠[] := List.ne_nil_of_length_pos (by rw [hpre.length]; decide)
  have hrea : readVerifierCheckpointRecord (recordValue cfg payload signature) =
      some (emittedRecord cfg payload (highestSequence store.log) signature hsha) := by
    apply readVerifierCheckpointRecord_recordValue (by omega) (by omega) hsha
    · rw [hpay]
      exact readAuditWindow_auditWindow laws (by omega) (by omega) (by omega)
    · rw [hpay]
      exact isPolicy_readPolicyPosture laws _ (hsiz rules hrul)
    · rw [hpay]
      exact isDaemon_readBinaryIdentity laws _ _
    · rw [hpay]
      exact isEnforcement_countEnforcement laws (by omega)
    · exact hsig
    · exact hkey
  have hfor : payload.fortressId=cfg.fortressId := by rw [hpay]; rfl
  refine ⟨hcou,emittedRecord cfg payload (highestSequence store.log) signature hsha,?_⟩
  intro floor hflo
  rw [hcou,h.checkpointFile_eq]
  have hmem : ∀ {p : CheckpointRecord → Prop}, (∀ record∈previous, p record) →
      p (emittedRecord cfg payload (highestSequence store.log) signature hsha) →
      ∀ record∈previous++[emittedRecord cfg payload (highestSequence store.log) signature hsha],
        p record := by
    intro p hold hnew record hrec
    rcases List.mem_append.mp hrec with hprv | hlat
    · exact hold record hprv
    · rw [List.mem_singleton.mp hlat]
      exact hnew
  constructor
  · intro item hite
    exact (h.log item hite).trans (Nat.le_succ bound)
  · exact hlen.trans (Nat.le_succ bound)
  · rw [List.map_append,h.files,List.map_singleton,List.length_append,List.length_singleton,
      List.range'_1_concat,Nat.add_comm 1]
  · rw [List.map_append,List.mapM_append,h.read,List.map_singleton]
    simp [hrea]
  · rw [List.length_append,List.length_singleton]
    omega
  · intro _
    apply genesisChain_concat h.chain hcou
      (verifyRecordSignature_emitted laws hpre.length hpre.verifies hsha)
    · intro hemp
      subst hemp
      change payload.previousCheckpointHash=checkpointGenesis
      rw [hpay]
      rfl
    · intro last hlat
      have hlas := List.mem_of_getLast? hlat
      refine ⟨?_,h.audit last hlas,?_⟩
      · change payload.previousCheckpointHash=_
        rw [hpay,hlat]
        rfl
      · exact hfor.trans (h.fortress last hlas).symm
  · intro record hrec
    by_cases hemp : previous=[]
    · subst hemp
      simp at hrec
    · rw [List.tail_append_of_ne_nil hemp] at hrec
      rcases List.mem_append.mp hrec with hprv | hlat
      · exact h.later record hprv
      · rw [List.mem_singleton.mp hlat]
        rcases hlin with ⟨hnone,-⟩ | hhex
        · exact absurd (List.getLast?_eq_none_iff.mp hnone) hemp
        · intro hgen
          change payload.previousCheckpointHash=checkpointGenesis at hgen
          rw [hgen] at hhex
          exact absurd hhex (by decide)
  · exact hmem h.keys rfl
  · exact hmem h.fortress hfor
  · exact hmem h.audit (le_refl _)
  · intro _
    exact hkey
  · right
    rwa [List.length_append,List.length_singleton]

theorem written (h : EmitSound cfg bound store records) (laws : EmitLaws cfg.env)
    (hbound : bound+1 ≤ JsValue.maxSafeInteger) {call : EmitCall} (hsiz : call.Sized) {writes : Nat}
    (hspa : store.floor=none → writes≠1) :
    ∃ records', EmitSound cfg (bound+1) ((emitEnforcementCheckpoint cfg call).written writes store)
      records' := by
  cases hpre : prepareCheckpoint cfg call store with
  | error refusal =>
    rw [(emit_of_error hpre).2]
    exact ⟨records,h.mono (Nat.le_succ bound)⟩
  | ok prepared =>
    obtain ⟨counter,value⟩ := prepared
    obtain ⟨payload,signature,hprd,rfl,rfl⟩ := prepareCheckpoint_ok hpre
    obtain ⟨-,hzer,hone,htwo⟩ := emit_of_ok hpre
    obtain ⟨hcou,record,hgro⟩ := h.putRecord laws hbound hsiz hprd
    match writes with
    | 0 =>
      rw [hzer]
      exact ⟨records,h.mono (Nat.le_succ bound)⟩
    | 1 =>
      -- the floor that stands is at most the number of records before
      rw [hone]
      refine ⟨records++[record],hgro store.floor ?_⟩
      rcases h.floor with ⟨-,hnone⟩ | ⟨k,hflo,hpos,hle⟩
      · exact absurd rfl (hspa hnone)
      · exact ⟨k,hflo,hpos,Nat.le_succ_of_le hle⟩
    | writes+2 =>
      rw [htwo]
      exact ⟨records++[record],hgro _ ⟨payload.counter,rfl,by omega,by omega⟩⟩

theorem emitted (h : EmitSound cfg bound store records) (laws : EmitLaws cfg.env)
    (hbound : bound+1 ≤ JsValue.maxSafeInteger) {call : EmitCall} (hsiz : call.Sized) :
    ∃ records', EmitSound cfg (bound+1) ((emitEnforcementCheckpoint cfg call).run store).2 records' := by
  have hrun : ((emitEnforcementCheckpoint cfg call).run store).2 =
      (emitEnforcementCheckpoint cfg call).written 2 store := by
    cases hpre : prepareCheckpoint cfg call store with
    | error refusal => rw [(emit_of_error hpre).1,(emit_of_error hpre).2]
    | ok prepared => rw [(emit_of_ok hpre).1,(emit_of_ok hpre).2.2.2 0]
  rw [hrun]
  exact h.written laws hbound hsiz fun _ => by decide

theorem step (h : EmitSound cfg bound store records) (laws : EmitLaws cfg.env)
    (hbound : bound+1 ≤ JsValue.maxSafeInteger) {event : EmitEvent} (hspa : event.Spares store) :
    ∃ records', EmitSound cfg (bound+1) (store.step cfg event) records' := by
  cases event with
  | appended entryHash operation ruleId => exact ⟨records,h.appended entryHash operation ruleId⟩
  | pruned count => exact ⟨records,(h.pruned count).mono (Nat.le_succ bound)⟩
  | emitted call => exact h.emitted laws hbound hspa
  | crashed call writes => exact h.written laws hbound hspa.1 hspa.2

theorem run (h : EmitSound cfg bound store records) (laws : EmitLaws cfg.env) {events : List EmitEvent}
    (hspa : store.Spared cfg events) (hbound : bound+events.length ≤ JsValue.maxSafeInteger) :
    ∃ records', EmitSound cfg (bound+events.length) (store.run cfg events) records' := by
  induction events generalizing bound store records with
  | nil => exact ⟨records,h⟩
  | cons event events ih =>
    rw [List.length_cons] at hbound
    obtain ⟨records',hste⟩ := h.step laws (by omega) hspa.1
    obtain ⟨records'',hrun⟩ := ih hste hspa.2 (by omega)
    rw [List.length_cons,Nat.add_comm events.length,← Nat.add_assoc]
    exact ⟨records'',hrun⟩

theorem passes (h : EmitSound cfg bound store records) (hne : records≠[]) :
    (verifyTransparencyCheckpoints cfg.env.toVerifyEnv (.array (store.checkpoints.map Prod.snd))
      ⟨some (toBase64url cfg.publicKey),false,false⟩).verdict=.pass := by
  apply (h.chain hne).passes h.later ?_ (toBase64url_ne_empty (h.key hne)) h.read
  apply List.Pairwise.isChain
  rw [List.pairwise_iff_forall_sublist]
  intro a b hab
  rw [h.keys b (hab.subset (by simp)),h.keys a (hab.subset (by simp))]

end EmitSound

end Sound

def refusedAsRollback : Except EmitRefusal JsValue → Bool
  | .error refusal => refusal.rollback
  | .ok _ => false

theorem emissions_survive_crashes (cfg : EmitConfig) (laws : EmitLaws cfg.env) (events : List EmitEvent)
    (hspared : EmitStore.fresh.Spared cfg events) (hlength : events.length ≤ JsValue.maxSafeInteger) :
    (∀ call, refusedAsRollback
      ((emitEnforcementCheckpoint cfg call).run (EmitStore.fresh.run cfg events)).1=false) ∧
    (∃ records, ((EmitStore.fresh.run cfg events).checkpoints.map Prod.snd).mapM
        readVerifierCheckpointRecord=some records ∧
      records.map CheckpointRecord.counter=List.range' 1 records.length ∧
      (EmitStore.fresh.run cfg events).checkpoints.map Prod.fst=List.range' 1 records.length) ∧
    ((EmitStore.fresh.run cfg events).checkpoints≠[] →
      (verifyTransparencyCheckpoints cfg.env.toVerifyEnv
        (.array ((EmitStore.fresh.run cfg events).checkpoints.map Prod.snd))
        ⟨some (toBase64url cfg.publicKey),false,false⟩).verdict=.pass) := by
  obtain ⟨records,hsou⟩ := emitSound_fresh.run laws hspared (by omega)
  rw [Nat.zero_add] at hsou
  refine ⟨?_,⟨records,hsou.read,?_,hsou.files⟩,?_⟩
  · intro call
    cases hpre : prepareCheckpoint cfg call (EmitStore.fresh.run cfg events) with
    | ok prepared =>
      rw [(emit_of_ok hpre).1]
      rfl
    | error refusal =>
      rw [(emit_of_error hpre).1,refusedAsRollback,Bool.eq_false_iff]
      intro hrol
      obtain ⟨previous,hprs,hflo⟩ := prepareCheckpoint_rollback hpre hrol
      rw [hsou.previous_eq hprs,hsou.crossCheckFloor_eq_none laws hlength] at hflo
      exact absurd hflo nofun
  · by_cases hemp : records=[]
    · rw [hemp]
      rfl
    · exact (hsou.chain hemp).counters
  · intro hne
    apply hsou.passes
    rintro rfl
    exact hne (List.map_eq_nil_iff.mp hsou.files)

def sampleEmitEnv : EmitEnv where
  shortest _ := ""
  sha256Hex _ := zeroHash
  fromBase64url text := Base64.decodeUrl text.toList
  ed25519Verify _ _ _ := true
  sha256File _ := zeroHash
  floorMac counter := [UInt8.ofNat counter]
  decodeBase64url text := (Base64.decodeUrl text.toList).getD []
  identityVerify _ _ _ := true

theorem hex64_zeroHash : hex64 zeroHash=true := by decide

theorem sampleEmitEnv_laws : EmitLaws sampleEmitEnv where
  sha256Hex_hex _ := hex64_zeroHash
  sha256File_hex _ := hex64_zeroHash
  fromBase64url_toBase64url bytes := by
    simp [sampleEmitEnv,toBase64url,Base64.decodeUrl_encodeUrl]
  decodeBase64url_toBase64url bytes := by
    simp [sampleEmitEnv,toBase64url,Base64.decodeUrl_encodeUrl]
  verify_of_strict _ _ _ h := h

def sampleEmitConfig : EmitConfig := ⟨sampleEmitEnv,"f","k",List.replicate 32 7⟩

def sampleEmitCall : EmitCall where
  issuedAt := "t"
  rules := some []
  manifest := none
  version := "1"
  binary := some []
  sign _ := some (List.replicate 64 9)

/-- A crash before the first write, an emission, and a crash between the writes of the next one. -/
def sampleEmitRun : List EmitEvent :=
  [.crashed sampleEmitCall 0,.emitted sampleEmitCall,.crashed sampleEmitCall 1]

theorem sampleEmitCall_sized : sampleEmitCall.Sized := by
  intro rules hrul
  obtain rfl : []=rules := Option.some.inj hrul
  exact Nat.zero_le _

theorem sampleEmitRun_spared : EmitStore.fresh.Spared sampleEmitConfig sampleEmitRun := by
  refine ⟨⟨sampleEmitCall_sized,fun _ => by decide⟩,sampleEmitCall_sized,
    ⟨sampleEmitCall_sized,fun hnone => ?_⟩,trivial⟩
  have hflo : (((EmitStore.fresh.step sampleEmitConfig (.crashed sampleEmitCall 0)).step sampleEmitConfig
      (.emitted sampleEmitCall)).floor).isSome=true := by
    decide +kernel
  rw [hnone] at hflo
  exact absurd hflo (by decide)

theorem emissions_survive_sampleEmitRun :
    refusedAsRollback ((emitEnforcementCheckpoint sampleEmitConfig sampleEmitCall).run
      (EmitStore.fresh.run sampleEmitConfig sampleEmitRun)).1=false ∧
    ∃ records, ((EmitStore.fresh.run sampleEmitConfig sampleEmitRun).checkpoints.map Prod.snd).mapM
        readVerifierCheckpointRecord=some records ∧
      records.map CheckpointRecord.counter=List.range' 1 records.length := by
  have hsur := emissions_survive_crashes sampleEmitConfig sampleEmitEnv_laws sampleEmitRun
    sampleEmitRun_spared (by decide)
  obtain ⟨records,hrea,hcou,-⟩ := hsur.2.1
  exact ⟨hsur.1 sampleEmitCall,records,hrea,hcou⟩

theorem first_emission_crash_wedges : refusedAsRollback
    ((emitEnforcementCheckpoint sampleEmitConfig sampleEmitCall).run
      (EmitStore.fresh.run sampleEmitConfig [.crashed sampleEmitCall 1])).1=true := by
  decide +kernel

end CastleWall.Transparency
