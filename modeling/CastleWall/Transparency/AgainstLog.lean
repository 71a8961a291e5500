import CastleWall.Operational.SealedRegion
import CastleWall.Support.Outcome
import CastleWall.Transparency.Emitter

/-! # Checkpoints against the log

`verifyAgainstLog` of `transparency/against-log.ts`: the latest checkpoint is held against the files of the audit
directory. Its root is recomputed from the hashes the files carry; whether a file carries the hash of its own
content is left to the audit log, which only a caller with the key can ask. -/

namespace CastleWall.Transparency.AgainstLog

open Operational (AuditDirectory StoredFile EntryHashInput computeAuditEntryHash)

structure AuditWindow where
  merkleRoot : String
  (lowestSequence highestSequence : Nat)
  headHash : String
  entryCount : Nat

structure RuleCounter where
  ruleLabel : String
  (allowed blocked : Nat)

structure Enforcement where
  (totalAllowed totalBlocked : Nat)
  rules : List RuleCounter

structure VerifierCheckpointRecord where
  counter : Nat
  fortressId : String
  audit : AuditWindow
  enforcement : Enforcement

inductive TransparencyFinding where
  | emptyInput
  | logUnavailable
  | logHeadBehindCheckpoint (actual : Nat)
  | rotationFloorUnauthenticated (actual : Nat)
  | logEntryMissing (actual : Nat)
  | merkleRootMismatch (actual : String)
  | headHashMismatch (actual : String)
  | countersMismatch

structure AgainstLogResult where
  checkedCounter : Option Nat
  (merkleRootRecomputed countersRecomputed : Bool)
  findings : List TransparencyFinding

structure SurvivingEnvelope where
  sequence : Nat
  entryHash : String

def isEntryKey (key : String) : Bool := "entry-".toList.isPrefixOf key.toList

def readSurvivingEnvelope (value : JsValue) : Option SurvivingEnvelope := do
  let schemaVersion ← (value.get "schema_version").bind JsValue.asNonNegativeInt
  guard (schemaVersion=2)
  let sequence ← (value.get "sequence").bind JsValue.asNonNegativeInt
  guard (0 < sequence)
  let entryHash ← (value.get "entry_hash").bind JsValue.asString
  return ⟨sequence,entryHash⟩

/-- A file that cannot be read ends the check; one that is no envelope counts for nothing. -/
def readSurvivingEnvelopes : AuditDirectory → Option (List SurvivingEnvelope)
  | [] => some []
  | file::files =>
    if isEntryKey file.1 then
      match file.2 with
      | .unreadable => none
      | .parsed value => (readSurvivingEnvelopes files).map ((readSurvivingEnvelope value).toList ++ ·)
      | _ => readSurvivingEnvelopes files
    else readSurvivingEnvelopes files

/-- `bySequence.get`: the hash read last under a number. -/
def hashAt (envelopes : List SurvivingEnvelope) (sequence : Nat) : Option String :=
  (envelopes.reverse.find? fun envelope => envelope.sequence=sequence).map (·.entryHash)

def liveHighest (envelopes : List SurvivingEnvelope) : Nat := (envelopes.map (·.sequence)).max?.getD 0

def liveLowest (envelopes : List SurvivingEnvelope) : Nat := (envelopes.map (·.sequence)).min?.getD 0

inductive RotationFloor where
  | absent
  | invalid
  | valid (baseSequence : Nat)

/-- What a decrypting audit log answers. An answer it throws on is `none`. -/
structure AuditLogReads where
  authenticatedRotationFloor : Option RotationFloor
  verifiedChain : Option (List ChainItem)

def authenticateRotationFloor (auditLog : Option AuditLogReads) (liveLowest : Nat) : Bool :=
  match auditLog.bind (·.authenticatedRotationFloor) with
  | some (.valid baseSequence) => decide (baseSequence=liveLowest)
  | _ => false

section Check

variable (sha256Hex : String → String)

def recountLabel (fortressId ruleId : String) : String :=
  sha256Hex ("sanctuary.transparency.rule-label.v1\n" ++ fortressId ++ "\n" ++ ruleId)

def accumulateRecount (fortressId : String) (acc : EnforcementAccumulator) (item : ChainItem) : EnforcementAccumulator :=
  if item.operation = "egress_allowed" ∨ item.operation = "egress_blocked" then
    let allowed : Bool := item.operation = "egress_allowed"
    let byLabel :=
      match item.ruleId.filter (· ≠ "") with
      | none => acc.byLabel
      | some ruleId => bumpLabel (recountLabel sha256Hex fortressId ruleId) allowed acc.byLabel
    ⟨if allowed then acc.totalAllowed+1 else acc.totalAllowed,
      if allowed then acc.totalBlocked else acc.totalBlocked+1,byLabel⟩
  else acc

def diffEnforcement (recount : EnforcementAccumulator) (signed : Enforcement) : Bool :=
  recount.totalAllowed≠signed.totalAllowed || recount.totalBlocked≠signed.totalBlocked ||
    recount.byLabel.length≠signed.rules.length ||
    signed.rules.any fun rule => recount.byLabel.lookup rule.ruleLabel≠some (rule.allowed,rule.blocked)

def recountCounters (checkpoint : VerifierCheckpointRecord) (auditLog : Option AuditLogReads) :
    Bool × List TransparencyFinding :=
  match auditLog with
  | none => (false,[])
  | some reads =>
    match reads.verifiedChain with
    | none => (false,[.logUnavailable])
    | some chain =>
      let covered := chain.filter fun item =>
        checkpoint.audit.lowestSequence ≤ item.sequence ∧ item.sequence ≤ checkpoint.audit.highestSequence
      if covered.length≠checkpoint.audit.entryCount ∧ 0 < checkpoint.audit.entryCount then (false,[])
      else if diffEnforcement (covered.foldl (accumulateRecount sha256Hex checkpoint.fortressId) ⟨0,0,[]⟩)
          checkpoint.enforcement then (false,[.countersMismatch])
      else (true,[])

def coveredHashes (envelopes : List SurvivingEnvelope) (audit : AuditWindow) : Except Nat (List String) :=
  (List.range' audit.lowestSequence (audit.highestSequence+1 - audit.lowestSequence)).mapM fun sequence =>
    match (hashAt envelopes sequence).filter (· ≠ "") with
    | some hash => .ok hash
    | none => .error sequence

def checkHead (envelopes : List SurvivingEnvelope) (audit : AuditWindow) : List TransparencyFinding :=
  match (hashAt envelopes audit.highestSequence).filter (· ≠ "") with
  | some liveHead => if liveHead≠audit.headHash then [.headHashMismatch liveHead] else []
  | none => []

def checkRoot (envelopes : List SurvivingEnvelope) (audit : AuditWindow) (auditLog : Option AuditLogReads) :
    Bool × List TransparencyFinding :=
  if audit.entryCount=0 then (false,[])
  else if audit.lowestSequence < max audit.lowestSequence (liveLowest envelopes) then
    if authenticateRotationFloor auditLog (liveLowest envelopes) then (false,[])
    else (false,[.rotationFloorUnauthenticated (liveLowest envelopes)])
  else
    match coveredHashes envelopes audit with
    | .error missing => (false,[.logEntryMissing missing])
    | .ok hashes =>
      let recomputedRoot := Operational.computeAuditRoot sha256Hex hashes
      if recomputedRoot≠audit.merkleRoot then
        (false,.merkleRootMismatch recomputedRoot::checkHead envelopes audit)
      else (true,checkHead envelopes audit)

def latest (records : List VerifierCheckpointRecord) : Option VerifierCheckpointRecord :=
  (records.mergeSort fun a b => a.counter ≤ b.counter).getLast?

/-- A listing that fails is `none`. -/
def verifyAgainstLog (records : List VerifierCheckpointRecord) (listing : Option AuditDirectory)
    (auditLog : Option AuditLogReads) : AgainstLogResult :=
  match latest records with
  | none => ⟨none,false,false,[.emptyInput]⟩
  | some checkpoint =>
    match listing.bind readSurvivingEnvelopes with
    | none => ⟨some checkpoint.counter,false,false,[.logUnavailable]⟩
    | some envelopes =>
      let behind := if liveHighest envelopes < checkpoint.audit.highestSequence then
        [.logHeadBehindCheckpoint (liveHighest envelopes)] else []
      let root := checkRoot sha256Hex envelopes checkpoint.audit auditLog
      let recount := recountCounters sha256Hex checkpoint auditLog
      ⟨some checkpoint.counter,root.1,recount.1,behind++root.2++recount.2⟩

def AgainstLogResult.accepted (result : AgainstLogResult) : Bool :=
  result.merkleRootRecomputed && result.findings.isEmpty

end Check

def onDisk (files : AuditDirectory) (sequence : Nat) : List JsValue :=
  files.filterMap fun file =>
    match file.2 with
    | .parsed value =>
      if isEntryKey file.1 ∧ (readSurvivingEnvelope value).any (fun envelope => envelope.sequence=sequence) then some value
      else none
    | _ => none

def contentOf (value : JsValue) : Option EntryHashInput := do
  let sequence ← (value.get "sequence").bind JsValue.asNonNegativeInt
  let prevHash ← (value.get "prev_hash").bind JsValue.asString
  let timestamp ← (value.get "timestamp").bind JsValue.asString
  let encryptedPayloadBytes ← (value.get "encrypted_payload_bytes").bind JsValue.asString
  return ⟨sequence,prevHash,timestamp,encryptedPayloadBytes⟩

structure Commits (sha256Hex : String → String) (audit : AuditWindow) (original : List EntryHashInput) : Prop where
  sequences : original.map (·.sequence)=List.range' audit.lowestSequence audit.entryCount
  highest : 0 < audit.entryCount → audit.highestSequence+1=audit.lowestSequence+audit.entryCount
  root : audit.merkleRoot=Operational.computeAuditRoot sha256Hex (original.map (computeAuditEntryHash sha256Hex))

def Intact (files : AuditDirectory) (original : List EntryHashInput) : Prop :=
  ∀ input∈original, ∃ value, onDisk files input.sequence=[value] ∧ contentOf value=some input

/-- No number of the window has two envelopes, and each carries the hash of its own content. -/
def SelfHashed (sha256Hex : String → String) (files : AuditDirectory) (audit : AuditWindow) : Prop :=
  ∀ sequence, audit.lowestSequence ≤ sequence → sequence ≤ audit.highestSequence →
    (onDisk files sequence).length ≤ 1 ∧ ∀ value∈onDisk files sequence, ∃ content, contentOf value=some content ∧
      (value.get "entry_hash").bind JsValue.asString=some (computeAuditEntryHash sha256Hex content)

section Content

variable {sha256Hex : String → String} {files : AuditDirectory} {envelopes : List SurvivingEnvelope}
  {audit : AuditWindow} {original : List EntryHashInput}

theorem readSurvivingEnvelope_some {value : JsValue} {envelope : SurvivingEnvelope}
    (h : readSurvivingEnvelope value=some envelope) :
    (value.get "entry_hash").bind JsValue.asString=some envelope.entryHash ∧
      (value.get "sequence").bind JsValue.asNonNegativeInt=some envelope.sequence := by
  unfold readSurvivingEnvelope at h
  obtain ⟨schemaVersion,-,h⟩ := Option.bind_eq_some_iff.mp h
  obtain ⟨_,-,h⟩ := Option.bind_eq_some_iff.mp h
  obtain ⟨sequence,hseq,h⟩ := Option.bind_eq_some_iff.mp h
  obtain ⟨_,-,h⟩ := Option.bind_eq_some_iff.mp h
  obtain ⟨entryHash,hent,h⟩ := Option.bind_eq_some_iff.mp h
  cases h
  exact ⟨hent,hseq⟩

/-- The envelopes under a number are those that were read, in the order of the files. -/
theorem map_entryHash_onDisk (h : readSurvivingEnvelopes files=some envelopes) (sequence : Nat) :
    (onDisk files sequence).map (fun value => (value.get "entry_hash").bind JsValue.asString) =
      (envelopes.filter fun envelope => envelope.sequence=sequence).map fun envelope => some envelope.entryHash := by
  induction files generalizing envelopes with
  | nil =>
    cases h
    rfl
  | cons file files ih =>
    obtain ⟨key,content⟩ := file
    by_cases hkey : isEntryKey key=true
    · simp only [readSurvivingEnvelopes,hkey,if_true] at h
      cases content with
      | unreadable => cases h
      | absent => simpa [onDisk] using ih h
      | unparseable => simpa [onDisk] using ih h
      | parsed value =>
        obtain ⟨rest,hres,rfl⟩ := Option.map_eq_some_iff.mp h
        cases hrea : readSurvivingEnvelope value with
        | none => simpa [onDisk,hrea] using ih hres
        | some envelope =>
          by_cases hseq : envelope.sequence=sequence
          · have hhas := (readSurvivingEnvelope_some hrea).1
            simpa [onDisk,hrea,hkey,hseq,hhas] using ih hres
          · simpa [onDisk,hrea,hkey,hseq] using ih hres
    · simp only [readSurvivingEnvelopes,hkey] at h
      have hski : onDisk ((key,content)::files) sequence=onDisk files sequence := by
        cases content <;> simp [onDisk,hkey]
      rw [hski]
      exact ih h

theorem hashAt_eq_getLast (sequence : Nat) :
    hashAt envelopes sequence =
      (envelopes.filter fun envelope => envelope.sequence=sequence).getLast?.map (·.entryHash) := by
  rw [hashAt,← List.head?_reverse,← List.filter_reverse,List.head?_filter]

theorem getLast?_onDisk (h : readSurvivingEnvelopes files=some envelopes) {sequence : Nat} {hash : String}
    (hhas : hashAt envelopes sequence=some hash) :
    ∃ value∈(onDisk files sequence).getLast?, (value.get "entry_hash").bind JsValue.asString=some hash := by
  rw [hashAt_eq_getLast] at hhas
  have hlas := congrArg List.getLast? (map_entryHash_onDisk h sequence)
  obtain ⟨envelope,henv,rfl⟩ := Option.map_eq_some_iff.mp hhas
  rw [List.getLast?_map,List.getLast?_map,henv,Option.map_some] at hlas
  obtain ⟨value,hval,hrea⟩ := Option.map_eq_some_iff.mp hlas
  exact ⟨value,hval,hrea⟩

theorem eq_singleton_of_length_le_one {α : Type} {as : List α} {a : α} (h : as.length ≤ 1) (ha : a∈as) : as=[a] := by
  cases as with
  | nil => cases ha
  | cons b as =>
    have hnil : as=[] := List.length_eq_zero_iff.mp (by simpa using h)
    rw [hnil] at ha ⊢
    rw [List.mem_singleton.mp ha]

theorem hashAt_of_recomputed (hsha : Function.Injective sha256Hex) (hcom : Commits sha256Hex audit original)
    {auditLog : Option AuditLogReads} (h : (checkRoot sha256Hex envelopes audit auditLog).1=true) :
    0 < audit.entryCount ∧
      ∀ input∈original, hashAt envelopes input.sequence=some (computeAuditEntryHash sha256Hex input) := by
  unfold checkRoot at h
  split_ifs at h with hemp hpru hflo
  have hpos : 0 < audit.entryCount := Nat.pos_of_ne_zero hemp
  refine ⟨hpos,?_⟩
  cases hcov : coveredHashes envelopes audit with
  | error missing =>
    rw [hcov] at h
    cases h
  | ok hashes =>
    rw [hcov] at h
    simp only at h
    split_ifs at h with hroo
    have hhas : hashes=original.map (computeAuditEntryHash sha256Hex) := by
      apply Operational.rootText_injective
      apply hsha
      exact (not_not.mp hroo).trans hcom.root
    have hlen : audit.highestSequence+1 - audit.lowestSequence=audit.entryCount := by
      have := hcom.highest hpos
      omega
    rw [coveredHashes,hlen,← hcom.sequences,hhas] at hcov
    intro input hinp
    have hrea := Outcome.step_of_mapM_map hcov input hinp
    split at hrea
    · rename_i hash hhah
      rw [Option.filter_eq_some_iff] at hhah
      rw [hhah.1,Except.ok.inj hrea]
    · cases hrea

theorem Commits.mem_window (h : Commits sha256Hex audit original) (hpos : 0 < audit.entryCount) (sequence : Nat) :
    audit.lowestSequence ≤ sequence ∧ sequence ≤ audit.highestSequence ↔ ∃ input∈original, input.sequence=sequence := by
  have hhig := h.highest hpos
  rw [← List.mem_map,h.sequences,List.mem_range'_1]
  omega

end Content

/-- A directory the check accepts holds exactly what was signed if no number has two envelopes and every envelope
carries the hash of its own content, and only then. -/
theorem accepted_directory_intact_iff {sha256Hex : String → String} (hsha : Function.Injective sha256Hex)
    {records : List VerifierCheckpointRecord} {checkpoint : VerifierCheckpointRecord}
    (hlatest : latest records=some checkpoint) {original : List EntryHashInput}
    (hcommits : Commits sha256Hex checkpoint.audit original) (files : AuditDirectory) (auditLog : Option AuditLogReads)
    (haccepted : (verifyAgainstLog sha256Hex records (some files) auditLog).accepted=true) :
    Intact files original ↔ SelfHashed sha256Hex files checkpoint.audit := by
  simp only [verifyAgainstLog,hlatest,Option.bind_some] at haccepted
  cases hrea : readSurvivingEnvelopes files with
  | none =>
    rw [hrea] at haccepted
    cases haccepted
  | some envelopes =>
    rw [hrea] at haccepted
    rw [AgainstLogResult.accepted,Bool.and_eq_true] at haccepted
    obtain ⟨hpos,hhas⟩ := hashAt_of_recomputed hsha hcommits haccepted.1
    constructor
    · intro hinta sequence hlow hhig
      obtain ⟨input,hinp,rfl⟩ := (hcommits.mem_window hpos sequence).mp ⟨hlow,hhig⟩
      obtain ⟨value,honD,hcon⟩ := hinta input hinp
      obtain ⟨last,hlas,hhah⟩ := getLast?_onDisk hrea (hhas input hinp)
      rw [honD] at hlas ⊢
      cases hlas
      refine ⟨le_rfl,?_⟩
      intro other hoth
      cases List.mem_singleton.mp hoth
      exact ⟨input,hcon,hhah⟩
    · intro hsel input hinp
      obtain ⟨hlow,hhig⟩ := (hcommits.mem_window hpos input.sequence).mpr ⟨input,hinp,rfl⟩
      obtain ⟨hone,hhad⟩ := hsel input.sequence hlow hhig
      obtain ⟨last,hlas,hhah⟩ := getLast?_onDisk hrea (hhas input hinp)
      obtain ⟨content,hcon,hown⟩ := hhad last (List.mem_of_getLast? hlas)
      -- the hash it carries is that of the entry and of its own content
      have heq : content=input := by
        apply Operational.hashInputText_injective
        apply hsha
        exact Option.some.inj (hown.symm.trans hhah)
      refine ⟨last,?_,heq ▸ hcon⟩
      exact eq_singleton_of_length_le_one hone (List.mem_of_getLast? hlas)

def sampleInput : EntryHashInput := ⟨1,"GENESIS","t","p"⟩

def sampleAudit : AuditWindow :=
  ⟨Operational.computeAuditRoot id [computeAuditEntryHash id sampleInput],1,1,computeAuditEntryHash id sampleInput,1⟩

def sampleRecord : VerifierCheckpointRecord := ⟨1,"f-1",sampleAudit,⟨0,0,[]⟩⟩

def sampleFile (payload : String) : String × StoredFile :=
  ("entry-00000000000000000001-1700000000000-0",
    .parsed (Operational.envelopeValue ⟨{ sampleInput with encryptedPayloadBytes := payload },
      computeAuditEntryHash id sampleInput⟩))

theorem sampleCommits : Commits id sampleAudit [sampleInput] := ⟨rfl,fun _ => rfl,rfl⟩

theorem latest_sampleRecord : latest [sampleRecord]=some sampleRecord := by
  simp [latest]

/-- The check reads no more of the entry than its number and the hash beside it. -/
theorem accepted_sampleFile (payload : String) :
    (verifyAgainstLog id [sampleRecord] (some [sampleFile payload]) none).accepted=true := by
  have hent : isEntryKey "entry-00000000000000000001-1700000000000-0" = true := by
    decide +kernel
  have hnon : computeAuditEntryHash id sampleInput ≠ "" := by
    decide +kernel
  have hrea : readSurvivingEnvelopes [sampleFile payload]=some [⟨1,computeAuditEntryHash id sampleInput⟩] := by
    rw [readSurvivingEnvelopes,sampleFile,if_pos hent]
    rfl
  have hhas : (hashAt [⟨1,computeAuditEntryHash id sampleInput⟩] 1).filter (· ≠ "") =
      some (computeAuditEntryHash id sampleInput) := by
    simp [hashAt,hnon]
  have hcov : coveredHashes [⟨1,computeAuditEntryHash id sampleInput⟩] sampleAudit =
      .ok [computeAuditEntryHash id sampleInput] := by
    change [1].mapM _=_
    rw [List.mapM_cons,hhas]
    rfl
  have hhea : checkHead [⟨1,computeAuditEntryHash id sampleInput⟩] sampleAudit=[] := by
    rw [checkHead,show sampleAudit.highestSequence=1 from rfl,hhas]
    exact if_neg (not_not.mpr rfl)
  have hroo : checkRoot id [⟨1,computeAuditEntryHash id sampleInput⟩] sampleAudit none=(true,[]) := by
    rw [checkRoot,if_neg (by decide),if_neg (by decide),hcov]
    simp only
    have hsam : Operational.computeAuditRoot id [computeAuditEntryHash id sampleInput]=sampleAudit.merkleRoot := rfl
    rw [if_neg (not_not.mpr hsam),hhea]
  simp only [verifyAgainstLog,latest_sampleRecord,Option.bind_some,hrea]
  rw [show sampleRecord.audit=sampleAudit from rfl,hroo]
  rfl

theorem accepted_directory_intact_iff_sample :
    Intact [sampleFile "p"] [sampleInput] ↔ SelfHashed id [sampleFile "p"] sampleAudit := by
  apply accepted_directory_intact_iff (fun _ _ h => h) latest_sampleRecord sampleCommits [sampleFile "p"] none
  exact accepted_sampleFile "p"

theorem replaced_payload_accepted :
    Commits id sampleAudit [sampleInput] ∧
      (verifyAgainstLog id [sampleRecord] (some [sampleFile "q"]) none).accepted=true ∧
      ¬ Intact [sampleFile "q"] [sampleInput] := by
  refine ⟨sampleCommits,accepted_sampleFile "q",?_⟩
  intro hinta
  obtain ⟨value,honD,hcon⟩ := hinta sampleInput List.mem_cons_self
  have hrep : (onDisk [sampleFile "q"] 1).map contentOf=[some ⟨1,"GENESIS","t","q"⟩] := by
    decide +kernel
  rw [show sampleInput.sequence=1 from rfl] at honD
  rw [honD,List.map_singleton,hcon] at hrep
  exact absurd hrep (by decide)

end CastleWall.Transparency.AgainstLog
