import CastleWall.Transparency.Verify
import CastleWall.Support.Base64
import CastleWall.Support.Process

/-! # Checkpoint emission

`emitEnforcementCheckpoint` of `transparency/emitter.ts` over the checkpoint store and the counter floor, two
records that are written one after the other. Calls are serialized by the emit lock. -/

namespace CastleWall.Transparency

open Text Json

/-- An entry of the verified audit chain, as far as a checkpoint covers it. `ruleId` is
`details.rule_id` when that is a string. -/
structure ChainItem where
  sequence : Nat
  (entryHash operation : String)
  ruleId : Option String

/-- What is on disk: the surviving audit chain, one checkpoint file for each counter, and the floor. -/
structure EmitStore where
  log : List ChainItem
  checkpoints : List (Nat × JsValue)
  floor : Option JsValue

def checkpointFile (counter : Nat) (record : JsValue) (files : List (Nat × JsValue)) : List (Nat × JsValue) :=
  files.filter (fun file => file.1≠counter)++[(counter,record)]

/-- The primitives of the emitter beside those of the verifier. `identityVerify` is the strict
verification of `core/identity.ts`, `decodeBase64url` the lenient decoder of `core/encoding.ts`. -/
structure EmitEnv extends VerifyEnv where
  sha256File : List UInt8 → String
  floorMac : Nat → List UInt8
  decodeBase64url : String → List UInt8
  identityVerify : List UInt8 → List UInt8 → List UInt8 → Bool

structure EmitConfig where
  env : EmitEnv
  (fortressId signerKid : String)
  publicKey : List UInt8

/-- What one emission finds: its clock, the policy files (sorted by name), the binary and the signer's
answer. A read or a signature that fails is `none`. -/
structure EmitCall where
  issuedAt : String
  rules : Option (List (String × List UInt8))
  manifest : Option (List UInt8)
  version : String
  binary : Option (List UInt8)
  sign : List UInt8 → Option (List UInt8)

inductive EmitRefusal where
  | policyUnreadable
  | binaryUnreadable
  | checkpointMalformed
  | floorInvalid
  | storeRollback
  | floorMissing
  | signingFailed
  | signatureLength
  | signatureUnverified

def EmitRefusal.rollback : EmitRefusal → Bool
  | floorInvalid => true
  | storeRollback => true
  | floorMissing => true
  | _ => false

def toBase64url (bytes : List UInt8) : String := String.ofList (Base64.encodeUrl bytes)

section Emit

variable (cfg : EmitConfig)

def transparencyRuleLabel (ruleId : String) : String :=
  cfg.env.sha256Hex ("sanctuary.transparency.rule-label.v1\n" ++ cfg.fortressId ++ "\n" ++ ruleId)

structure EnforcementAccumulator where
  (totalAllowed totalBlocked : Nat)
  byLabel : List (String × (Nat × Nat))

def bumpLabel (label : String) (allowed : Bool) : List (String × (Nat × Nat)) → List (String × (Nat × Nat))
  | [] => [(label,if allowed then (1,0) else (0,1))]
  | bucket::buckets =>
    if bucket.1=label then
      (label,if allowed then (bucket.2.1+1,bucket.2.2) else (bucket.2.1,bucket.2.2+1))::buckets
    else bucket::bumpLabel label allowed buckets

def accumulateEnforcement (acc : EnforcementAccumulator) (item : ChainItem) : EnforcementAccumulator :=
  if item.operation = "egress_allowed" ∨ item.operation = "egress_blocked" then
    let allowed : Bool := item.operation = "egress_allowed"
    let byLabel :=
      match item.ruleId with
      | none => acc.byLabel
      | some ruleId =>
        if ruleId = "" then acc.byLabel
        else bumpLabel (transparencyRuleLabel cfg ruleId) allowed acc.byLabel
    ⟨if allowed then acc.totalAllowed+1 else acc.totalAllowed,
      if allowed then acc.totalBlocked else acc.totalBlocked+1,byLabel⟩
  else acc

def ruleCounter (bucket : String × (Nat × Nat)) : JsValue :=
  .object [("rule_label",.string bucket.1),("allowed",.number bucket.2.1),("blocked",.number bucket.2.2)]

/-- Labels are lowercase hex, which `localeCompare` orders as code units. -/
def finalizeEnforcement (acc : EnforcementAccumulator) : JsValue :=
  .object [("total_allowed",.number acc.totalAllowed),("total_blocked",.number acc.totalBlocked),
    ("rules",.array ((acc.byLabel.insertionSort fun a b => utf16Le a.1 b.1).map ruleCounter))]

def countEnforcement (log : List ChainItem) : JsValue :=
  finalizeEnforcement (log.foldl (accumulateEnforcement cfg) ⟨0,0,[]⟩)

def computeAuditRoot (entryHashes : List String) : String :=
  cfg.env.sha256Hex (String.ofList (JsValue.canonicalJson cfg.env.shortest
    (.object [("leaf_hashes",.array (entryHashes.map .string))])))

def lowestSequence (log : List ChainItem) : Nat := (log.head?.map ChainItem.sequence).getD 0

def highestSequence (log : List ChainItem) : Nat := (log.getLast?.map ChainItem.sequence).getD 0

def auditWindow (log : List ChainItem) : JsValue :=
  .object [("merkle_root",.string (computeAuditRoot cfg (log.map ChainItem.entryHash))),
    ("lowest_sequence",.number (lowestSequence log)),
    ("highest_sequence",.number (highestSequence log)),
    ("head_hash",.string ((log.getLast?.map ChainItem.entryHash).getD "GENESIS")),
    ("entry_count",.number log.length)]

def readPolicyPosture (rules : List (String × List UInt8)) (manifest : Option (List UInt8)) : JsValue :=
  let fileHashes := rules.map fun file =>
    JsValue.object [("name",.string file.1),("sha256",.string (cfg.env.sha256File file.2))]
  .object [("rules_sha256",.string (cfg.env.sha256Hex ("sanctuary.transparency.policy-rules.v1\n" ++
      String.ofList (JsValue.canonicalJson cfg.env.shortest (.array fileHashes))))),
    ("rules_count",.number fileHashes.length),
    ("manifest_sha256",(manifest.map fun bytes => JsValue.string (cfg.env.sha256File bytes)).getD .null)]

def readBinaryIdentity (version : String) (binary : List UInt8) : JsValue :=
  .object [("version",.string version),("binary_sha256",.string (cfg.env.sha256File binary))]

structure CheckpointPayload where
  counter : Nat
  (previousCheckpointHash issuedAt fortressId : String)
  (audit policy daemon enforcement : JsValue)

def CheckpointPayload.fields (payload : CheckpointPayload) : List (String × JsValue) :=
  [("checkpoint_kind",.string "enforcement-checkpoint"),
    ("schema_version",.number 1),
    ("counter",.number payload.counter),
    ("previous_checkpoint_hash",.string payload.previousCheckpointHash),
    ("issued_at",.string payload.issuedAt),
    ("fortress_id",.string payload.fortressId),
    ("audit",payload.audit),
    ("policy",payload.policy),
    ("daemon",payload.daemon),
    ("enforcement",payload.enforcement)]

/-- `checkpointSigningBytes`, before the encoding. -/
def CheckpointPayload.signingText (shortest : ℚ → String) (payload : CheckpointPayload) : String :=
  checkpointDomainPrefix++String.ofList (JsValue.canonicalJson shortest (.object payload.fields))

def recordValue (payload : CheckpointPayload) (signature : List UInt8) : JsValue :=
  .object (payload.fields ++
    [("signer_kid",.string cfg.signerKid),
      ("signature",.string (toBase64url signature)),
      ("signature_algorithm",.string "Ed25519"),
      ("payload_encoding",.string "domain-separated-canonical-json-v1"),
      ("public_key",.string (toBase64url cfg.publicKey))])

/-- `isEnforcementCheckpointRecord`: the verifier's schema, and a signer id that is not empty. -/
def readEnforcementCheckpointRecord (value : JsValue) : Option CheckpointRecord := do
  let record ← readVerifierCheckpointRecord value
  guard (record.signerKid ≠ "")
  return record

def readPersistedCheckpoints (files : List (Nat × JsValue)) : Option (List CheckpointRecord) :=
  (files.mapM fun file => readEnforcementCheckpointRecord file.2).map counterOrder

inductive CounterFloorState where
  | valid (highestCounter : Nat)
  | absent
  | invalid

def floorMarker : String := "__sanctuary_transparency_counter_floor_v1"

def floorEnvelope (highestCounter : Nat) : JsValue :=
  .object [(floorMarker,.bool true),("data",.object [("highest_counter",.number highestCounter)]),
    ("mac",.string (toBase64url (cfg.env.floorMac highestCounter)))]

def readCounterFloor (raw : Option JsValue) : CounterFloorState :=
  match raw with
  | none => .absent
  | some parsed =>
    match parsed.get floorMarker, (parsed.get "data").bind fun data => (data.get "highest_counter").bind
        JsValue.asNonNegativeInt, (parsed.get "mac").bind JsValue.asString with
    | some (.bool true), some highestCounter, some mac =>
      if 0 < highestCounter ∧ cfg.env.decodeBase64url mac=cfg.env.floorMac highestCounter then
        .valid highestCounter
      else .invalid
    | _, _, _ => .invalid

def crossCheckFloor (floor : CounterFloorState) (last : Option CheckpointRecord) : Option EmitRefusal :=
  match floor with
  | .invalid => some .floorInvalid
  | .valid highestCounter =>
    if last.any fun record => highestCounter ≤ record.counter then none else some .storeRollback
  | .absent => if last.isSome then some .floorMissing else none

def nextPayload (call : EmitCall) (store : EmitStore) (rules : List (String × List UInt8))
    (binary : List UInt8) (last : Option CheckpointRecord) : CheckpointPayload where
  counter := (last.map CheckpointRecord.counter).getD 0+1
  previousCheckpointHash := (last.map (checkpointPayloadHash cfg.env.toVerifyEnv)).getD checkpointGenesis
  issuedAt := call.issuedAt
  fortressId := cfg.fortressId
  audit := auditWindow cfg store.log
  policy := readPolicyPosture cfg rules call.manifest
  daemon := readBinaryIdentity cfg call.version binary
  enforcement := countEnforcement cfg store.log

/-- `verifyEnforcementCheckpointSignature` of the record just built. -/
def signatureVerifies (payload : CheckpointPayload) (signature : List UInt8) : Bool :=
  decide (cfg.publicKey.length=32) &&
    cfg.env.identityVerify (utf8Bytes (payload.signingText cfg.env.shortest))
      (cfg.env.decodeBase64url (toBase64url signature)) cfg.publicKey

def signRecord (call : EmitCall) (payload : CheckpointPayload) : Except EmitRefusal (Nat × JsValue) :=
  match call.sign (utf8Bytes (payload.signingText cfg.env.shortest)) with
  | none => .error .signingFailed
  | some signature =>
    if signature.length≠64 then .error .signatureLength
    else if ¬signatureVerifies cfg payload signature then .error .signatureUnverified
    else .ok (payload.counter,recordValue cfg payload signature)

def prepareCheckpoint (call : EmitCall) (store : EmitStore) : Except EmitRefusal (Nat × JsValue) :=
  match call.rules with
  | none => .error .policyUnreadable
  | some rules =>
    match call.binary with
    | none => .error .binaryUnreadable
    | some binary =>
      match readPersistedCheckpoints store.checkpoints with
      | none => .error .checkpointMalformed
      | some previous =>
        match crossCheckFloor (readCounterFloor cfg store.floor) previous.getLast? with
        | some refusal => .error refusal
        | none => signRecord cfg call (nextPayload cfg call store rules binary previous.getLast?)

def emitEnforcementCheckpoint (call : EmitCall) : Process EmitStore EmitRefusal JsValue := do
  match ← Process.observe (prepareCheckpoint cfg call) with
  | .error refusal => Process.fail refusal
  | .ok (counter,record) =>
    Process.modify fun store => { store with checkpoints := checkpointFile counter record store.checkpoints }
    Process.modify fun store => { store with floor := some (floorEnvelope cfg counter) }
    return record

end Emit

/-- What the emitter and the verifier rely on: digests are 64 hex digits, base64url is read back, and a
signature that verifies strictly verifies. -/
structure EmitLaws (env : EmitEnv) : Prop where
  sha256Hex_hex : ∀ text, hex64 (env.sha256Hex text)=true
  sha256File_hex : ∀ bytes, hex64 (env.sha256File bytes)=true
  fromBase64url_toBase64url : ∀ bytes, env.fromBase64url (toBase64url bytes)=some bytes
  decodeBase64url_toBase64url : ∀ bytes, env.decodeBase64url (toBase64url bytes)=bytes
  verify_of_strict : ∀ message sig key, env.identityVerify message sig key=true →
    env.ed25519Verify sig message key=true

theorem toBase64url_ne_empty {bytes : List UInt8} (h : bytes≠[]) : toBase64url bytes ≠ "" := by
  intro hemp
  have hlen := congrArg (fun text => text.toList.length) hemp
  have hpos := List.length_pos_of_ne_nil h
  simp only [toBase64url,String.toList_ofList,Base64.length_encodeUrl] at hlen
  have hzer : ("".toList.length : Nat)=0 := rfl
  omega

def emittedRecord (cfg : EmitConfig) (payload : CheckpointPayload) (highest : Nat) (signature : List UInt8)
    (hprevious : payload.previousCheckpointHash=checkpointGenesis ∨
      hex64 payload.previousCheckpointHash=true) : CheckpointRecord where
  counter := payload.counter
  previousCheckpointHash := payload.previousCheckpointHash
  issuedAt := payload.issuedAt
  fortressId := payload.fortressId
  audit := payload.audit
  highestSequence := highest
  policy := payload.policy
  daemon := payload.daemon
  enforcement := payload.enforcement
  signerKid := cfg.signerKid
  signature := toBase64url signature
  publicKey := toBase64url cfg.publicKey
  previousShape := hprevious

theorem readVerifierCheckpointRecord_recordValue {cfg : EmitConfig} {payload : CheckpointPayload}
    {highest : Nat} {signature : List UInt8}
    (hcou : 0 < payload.counter) (hsaf : payload.counter ≤ JsValue.maxSafeInteger)
    (hpre : payload.previousCheckpointHash=checkpointGenesis ∨
      hex64 payload.previousCheckpointHash=true)
    (haud : readAuditWindow payload.audit=some highest) (hpol : isPolicy payload.policy=true)
    (hdae : isDaemon payload.daemon=true) (henf : isEnforcement payload.enforcement=true)
    (hsie : signature≠[]) (hkey : cfg.publicKey≠[]) :
    readVerifierCheckpointRecord (recordValue cfg payload signature) =
      some (emittedRecord cfg payload highest signature hpre) := by
  have hone : (JsValue.number 1).asNonNegativeInt=some 1 := rfl
  have hsig := toBase64url_ne_empty hsie
  have hpk := toBase64url_ne_empty hkey
  generalize hval : recordValue cfg payload signature=value
  have getKind : value.get "checkpoint_kind" = some (.string "enforcement-checkpoint") := hval ▸ rfl
  have getSchema : value.get "schema_version" = some (.number 1) := hval ▸ rfl
  have getCounter : value.get "counter" = some (.number payload.counter) := hval ▸ rfl
  have getPrevious : value.get "previous_checkpoint_hash" = some (.string payload.previousCheckpointHash) := hval ▸ rfl
  have getIssued : value.get "issued_at" = some (.string payload.issuedAt) := hval ▸ rfl
  have getFortress : value.get "fortress_id" = some (.string payload.fortressId) := hval ▸ rfl
  have getAudit : value.get "audit" = some payload.audit := hval ▸ rfl
  have getPolicy : value.get "policy" = some payload.policy := hval ▸ rfl
  have getDaemon : value.get "daemon" = some payload.daemon := hval ▸ rfl
  have getEnforcement : value.get "enforcement" = some payload.enforcement := hval ▸ rfl
  have getKid : value.get "signer_kid" = some (.string cfg.signerKid) := hval ▸ rfl
  have getSignature : value.get "signature" = some (.string (toBase64url signature)) := hval ▸ rfl
  have getAlgorithm : value.get "signature_algorithm" = some (.string "Ed25519") := hval ▸ rfl
  have getEncoding : value.get "payload_encoding" = some (.string "domain-separated-canonical-json-v1") := hval ▸ rfl
  have getKey : value.get "public_key" = some (.string (toBase64url cfg.publicKey)) := hval ▸ rfl
  simp only [readVerifierCheckpointRecord,getKind,getSchema,getCounter,getPrevious,getIssued,
    getFortress,getAudit,getPolicy,getDaemon,getEnforcement,getKid,getSignature,getAlgorithm,
    getEncoding,getKey,Option.bind_some,JsValue.asString,hone,JsValue.asNonNegativeInt_natCast hsaf,
    guard]
  simp [emittedRecord,hcou,haud,hpol,hdae,henf,hsig,hpk,hpre]

theorem readAuditWindow_auditWindow {cfg : EmitConfig} (laws : EmitLaws cfg.env) {log : List ChainItem}
    (hlow : lowestSequence log ≤ JsValue.maxSafeInteger) (hhig : highestSequence log ≤ JsValue.maxSafeInteger)
    (hlen : log.length ≤ JsValue.maxSafeInteger) :
    readAuditWindow (auditWindow cfg log)=some (highestSequence log) := by
  have hroo : hex64 (computeAuditRoot cfg (log.map ChainItem.entryHash))=true := laws.sha256Hex_hex _
  generalize hval : auditWindow cfg log=value
  have getRoot : value.get "merkle_root" =
      some (.string (computeAuditRoot cfg (log.map ChainItem.entryHash))) := hval ▸ rfl
  have getLow : value.get "lowest_sequence" = some (.number (lowestSequence log)) := hval ▸ rfl
  have getHigh : value.get "highest_sequence" = some (.number (highestSequence log)) := hval ▸ rfl
  have getHead : value.get "head_hash" =
      some (.string ((log.getLast?.map ChainItem.entryHash).getD "GENESIS")) := hval ▸ rfl
  have getCount : value.get "entry_count" = some (.number log.length) := hval ▸ rfl
  simp only [readAuditWindow,getRoot,getLow,getHigh,getHead,getCount,Option.bind_some,
    JsValue.asString,JsValue.asNonNegativeInt_natCast hlow,JsValue.asNonNegativeInt_natCast hhig,
    JsValue.asNonNegativeInt_natCast hlen,guard]
  simp [hroo]

theorem isManifestHash_sha256File {cfg : EmitConfig} (laws : EmitLaws cfg.env)
    (manifest : Option (List UInt8)) : isManifestHash
      (some ((manifest.map fun bytes => JsValue.string (cfg.env.sha256File bytes)).getD .null))=true := by
  cases manifest with
  | none => rfl
  | some bytes => exact laws.sha256File_hex bytes

theorem isPolicy_readPolicyPosture {cfg : EmitConfig} (laws : EmitLaws cfg.env)
    {rules : List (String × List UInt8)} (manifest : Option (List UInt8))
    (h : rules.length ≤ JsValue.maxSafeInteger) : isPolicy (readPolicyPosture cfg rules manifest)=true := by
  obtain ⟨text,hhas⟩ : ∃ text, (readPolicyPosture cfg rules manifest).get "rules_sha256" =
      some (.string (cfg.env.sha256Hex text)) := ⟨_,rfl⟩
  obtain ⟨n,hcou,hn⟩ : ∃ n : Nat, (readPolicyPosture cfg rules manifest).get "rules_count" =
      some (.number n) ∧ n=rules.length := ⟨_,rfl,List.length_map _⟩
  have hman : (readPolicyPosture cfg rules manifest).get "manifest_sha256" =
      some ((manifest.map fun bytes => JsValue.string (cfg.env.sha256File bytes)).getD .null) := rfl
  rw [isPolicy,hhas,hcou,hman,isManifestHash_sha256File laws]
  simp [JsValue.asString,laws.sha256Hex_hex,JsValue.asNonNegativeInt_natCast (hn ▸ h)]

theorem isDaemon_readBinaryIdentity {cfg : EmitConfig} (laws : EmitLaws cfg.env) (version : String)
    (binary : List UInt8) : isDaemon (readBinaryIdentity cfg version binary)=true := by
  have hbin : ((readBinaryIdentity cfg version binary).get "binary_sha256").bind JsValue.asString =
      some (cfg.env.sha256File binary) := rfl
  have hver : ((readBinaryIdentity cfg version binary).get "version").bind JsValue.asString =
      some version := rfl
  rw [isDaemon,hbin,hver,Option.any_some,laws.sha256File_hex]
  rfl

/-- Counts of an accumulator that has seen `n` entries. -/
structure Counted (n : Nat) (acc : EnforcementAccumulator) : Prop where
  allowed : acc.totalAllowed ≤ n
  blocked : acc.totalBlocked ≤ n
  labels : ∀ bucket∈acc.byLabel, hex64 bucket.1=true ∧ bucket.2.1 ≤ n ∧ bucket.2.2 ≤ n

theorem mem_bumpLabel {label : String} {allowed : Bool} {buckets : List (String × (Nat × Nat))} {n : Nat}
    (hlab : hex64 label=true)
    (h : ∀ bucket∈buckets, hex64 bucket.1=true ∧ bucket.2.1 ≤ n ∧ bucket.2.2 ≤ n) :
    ∀ bucket∈bumpLabel label allowed buckets,
      hex64 bucket.1=true ∧ bucket.2.1 ≤ n+1 ∧ bucket.2.2 ≤ n+1 := by
  induction buckets with
  | nil =>
    intro bucket hbuc
    rw [bumpLabel,List.mem_singleton] at hbuc
    subst hbuc
    cases allowed <;> simp [hlab]
  | cons first buckets ih =>
    have hfir := h first List.mem_cons_self
    have hres : ∀ bucket∈buckets, hex64 bucket.1=true ∧ bucket.2.1 ≤ n ∧ bucket.2.2 ≤ n :=
      fun bucket hbuc => h bucket (List.mem_cons_of_mem _ hbuc)
    intro bucket hbuc
    rw [bumpLabel] at hbuc
    split_ifs at hbuc with hsam hall
    · rcases List.mem_cons.mp hbuc with rfl | hmem
      · exact ⟨hlab,by dsimp only; omega,by dsimp only; omega⟩
      · have hold := hres bucket hmem
        exact ⟨hold.1,by omega,by omega⟩
    · rcases List.mem_cons.mp hbuc with rfl | hmem
      · exact ⟨hlab,by dsimp only; omega,by dsimp only; omega⟩
      · have hold := hres bucket hmem
        exact ⟨hold.1,by omega,by omega⟩
    · rcases List.mem_cons.mp hbuc with rfl | hmem
      · exact ⟨hfir.1,by omega,by omega⟩
      · exact ih hres bucket hmem

theorem Counted.accumulate {cfg : EmitConfig} (laws : EmitLaws cfg.env) {n : Nat}
    {acc : EnforcementAccumulator} (h : Counted n acc) (item : ChainItem) :
    Counted (n+1) (accumulateEnforcement cfg acc item) := by
  have hlab : ∀ bucket∈acc.byLabel, hex64 bucket.1=true ∧ bucket.2.1 ≤ n+1 ∧ bucket.2.2 ≤ n+1 := by
    intro bucket hbuc
    have hold := h.labels bucket hbuc
    exact ⟨hold.1,by omega,by omega⟩
  have hall := h.allowed
  have hblo := h.blocked
  rw [accumulateEnforcement]
  by_cases hkin : item.operation = "egress_allowed" ∨ item.operation = "egress_blocked"
  · rw [if_pos hkin]
    refine ⟨?_,?_,?_⟩
    · dsimp only
      split_ifs <;> omega
    · dsimp only
      split_ifs <;> omega
    · dsimp only
      cases item.ruleId with
      | none => exact hlab
      | some ruleId =>
        dsimp only
        split_ifs
        · exact hlab
        · exact mem_bumpLabel (laws.sha256Hex_hex _) h.labels
  · rw [if_neg hkin]
    exact ⟨by omega,by omega,hlab⟩

theorem counted_foldl {cfg : EmitConfig} (laws : EmitLaws cfg.env) (log : List ChainItem) :
    Counted log.length (log.foldl (accumulateEnforcement cfg) ⟨0,0,[]⟩) := by
  induction log using List.reverseRecOn with
  | nil => exact ⟨le_refl _,le_refl _,by simp⟩
  | append_singleton log item ih =>
    rw [List.foldl_append,List.length_append,List.length_singleton]
    exact ih.accumulate laws item

theorem isEnforcement_countEnforcement {cfg : EmitConfig} (laws : EmitLaws cfg.env) {log : List ChainItem}
    (h : log.length ≤ JsValue.maxSafeInteger) : isEnforcement (countEnforcement cfg log)=true := by
  have hcou := counted_foldl laws log
  rw [countEnforcement]
  generalize log.foldl (accumulateEnforcement cfg) ⟨0,0,[]⟩=acc at hcou
  have hall := hcou.allowed.trans h
  have hblo := hcou.blocked.trans h
  have hrul : ∀ bucket∈acc.byLabel, isRuleCounter (ruleCounter bucket)=true := by
    intro bucket hbuc
    obtain ⟨hhex,ha,hb⟩ := hcou.labels bucket hbuc
    have hlab : ((ruleCounter bucket).get "rule_label").bind JsValue.asString=some bucket.1 := rfl
    have halw : (ruleCounter bucket).get "allowed" = some (.number bucket.2.1) := rfl
    have hblk : (ruleCounter bucket).get "blocked" = some (.number bucket.2.2) := rfl
    rw [isRuleCounter,hlab,halw,hblk,Option.any_some,Option.bind_some,Option.bind_some,hhex,
      JsValue.asNonNegativeInt_natCast (ha.trans h),JsValue.asNonNegativeInt_natCast (hb.trans h)]
    rfl
  have hsor : ∀ bucket∈acc.byLabel.insertionSort (fun a b => utf16Le a.1 b.1),
      isRuleCounter (ruleCounter bucket)=true := by
    intro bucket hbuc
    exact hrul bucket ((List.perm_insertionSort _ _).mem_iff.mp hbuc)
  have getAllowed : (finalizeEnforcement acc).get "total_allowed" = some (.number acc.totalAllowed) := rfl
  have getBlocked : (finalizeEnforcement acc).get "total_blocked" = some (.number acc.totalBlocked) := rfl
  have getRules : ((finalizeEnforcement acc).get "rules").bind JsValue.asArray =
      some ((acc.byLabel.insertionSort fun a b => utf16Le a.1 b.1).map ruleCounter) := rfl
  rw [isEnforcement,getAllowed,getBlocked,getRules,Option.bind_some,Option.bind_some,Option.any_some,
    JsValue.asNonNegativeInt_natCast hall,JsValue.asNonNegativeInt_natCast hblo,List.all_map]
  exact List.all_eq_true.mpr hsor

end CastleWall.Transparency
