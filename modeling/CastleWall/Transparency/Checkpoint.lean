import CastleWall.Support.JsValue

/-! # Enforcement checkpoints

The checkpoint record of `transparency/checkpoint.ts` and `transparency/verify.ts`: its schema, the payload the
signature covers and the hash that the next record carries. -/

namespace CastleWall.Transparency

open Json

def checkpointDomainPrefix : String := "sanctuary.enforcement-checkpoint.v1\n"

def checkpointGenesis : String := "GENESIS"

def bundleFormat : String := "SANCTUARY_TRANSPARENCY_BUNDLE_V1"

/-- A record that passed the schema. The parts stay as they were read, with members the schema does not
name; `highestSequence` is `audit.highest_sequence`. -/
structure CheckpointRecord where
  counter : Nat
  (previousCheckpointHash issuedAt fortressId : String)
  audit : JsValue
  highestSequence : Nat
  (policy daemon enforcement : JsValue)
  (signerKid signature publicKey : String)
  previousShape : previousCheckpointHash=checkpointGenesis ∨ hex64 previousCheckpointHash=true

/-- The audit window, for its `highest_sequence`. -/
def readAuditWindow (audit : JsValue) : Option Nat := do
  let merkleRoot ← (audit.get "merkle_root").bind JsValue.asString
  guard (hex64 merkleRoot)
  let _ ← (audit.get "lowest_sequence").bind JsValue.asNonNegativeInt
  let highestSequence ← (audit.get "highest_sequence").bind JsValue.asNonNegativeInt
  let _ ← (audit.get "head_hash").bind JsValue.asString
  let _ ← (audit.get "entry_count").bind JsValue.asNonNegativeInt
  return highestSequence

def isManifestHash : Option JsValue → Bool
  | some .null => true
  | some (.string s) => hex64 s
  | _ => false

def isPolicy (policy : JsValue) : Bool :=
  ((policy.get "rules_sha256").bind JsValue.asString).any hex64 &&
    ((policy.get "rules_count").bind JsValue.asNonNegativeInt).isSome &&
    isManifestHash (policy.get "manifest_sha256")

def isDaemon (daemon : JsValue) : Bool :=
  ((daemon.get "version").bind JsValue.asString).isSome &&
    ((daemon.get "binary_sha256").bind JsValue.asString).any hex64

def isRuleCounter (rule : JsValue) : Bool :=
  ((rule.get "rule_label").bind JsValue.asString).any hex64 &&
    ((rule.get "allowed").bind JsValue.asNonNegativeInt).isSome &&
    ((rule.get "blocked").bind JsValue.asNonNegativeInt).isSome

def isEnforcement (enforcement : JsValue) : Bool :=
  ((enforcement.get "total_allowed").bind JsValue.asNonNegativeInt).isSome &&
    ((enforcement.get "total_blocked").bind JsValue.asNonNegativeInt).isSome &&
    ((enforcement.get "rules").bind JsValue.asArray).any fun rules => rules.all isRuleCounter

/-- `isVerifierCheckpointRecord`, with what it checked. -/
def readVerifierCheckpointRecord (value : JsValue) : Option CheckpointRecord := do
  let kind ← (value.get "checkpoint_kind").bind JsValue.asString
  guard (kind = "enforcement-checkpoint")
  let schemaVersion ← (value.get "schema_version").bind JsValue.asNonNegativeInt
  guard (schemaVersion=1)
  let counter ← (value.get "counter").bind JsValue.asNonNegativeInt
  guard (0 < counter)
  let previousCheckpointHash ← (value.get "previous_checkpoint_hash").bind JsValue.asString
  let issuedAt ← (value.get "issued_at").bind JsValue.asString
  let fortressId ← (value.get "fortress_id").bind JsValue.asString
  let audit ← value.get "audit"
  let highestSequence ← readAuditWindow audit
  let policy ← value.get "policy"
  guard (isPolicy policy)
  let daemon ← value.get "daemon"
  guard (isDaemon daemon)
  let enforcement ← value.get "enforcement"
  guard (isEnforcement enforcement)
  let signerKid ← (value.get "signer_kid").bind JsValue.asString
  let signature ← (value.get "signature").bind JsValue.asString
  guard (signature ≠ "")
  let algorithm ← (value.get "signature_algorithm").bind JsValue.asString
  guard (algorithm = "Ed25519")
  let encoding ← (value.get "payload_encoding").bind JsValue.asString
  guard (encoding = "domain-separated-canonical-json-v1")
  let publicKey ← (value.get "public_key").bind JsValue.asString
  guard (publicKey ≠ "")
  if previousShape : previousCheckpointHash=checkpointGenesis ∨ hex64 previousCheckpointHash=true then
    return CheckpointRecord.mk counter previousCheckpointHash issuedAt fortressId audit highestSequence
      policy daemon enforcement signerKid signature publicKey previousShape
  else none

namespace CheckpointRecord

def signedPayloadOf (record : CheckpointRecord) : List (String × JsValue) :=
  [("checkpoint_kind",.string "enforcement-checkpoint"),
    ("schema_version",.number 1),
    ("counter",.number record.counter),
    ("previous_checkpoint_hash",.string record.previousCheckpointHash),
    ("issued_at",.string record.issuedAt),
    ("fortress_id",.string record.fortressId),
    ("audit",record.audit),
    ("policy",record.policy),
    ("daemon",record.daemon),
    ("enforcement",record.enforcement)]

def signedText (shortest : ℚ → String) (record : CheckpointRecord) : String :=
  checkpointDomainPrefix++String.ofList (JsValue.canonicalJson shortest (.object record.signedPayloadOf))

theorem sortFields_payload (audit kind counter daemon enforcement fortress issued policy previous
    schema : List Char) :
    sortFields [("checkpoint_kind",kind),("schema_version",schema),("counter",counter),
        ("previous_checkpoint_hash",previous),("issued_at",issued),("fortress_id",fortress),
        ("audit",audit),("policy",policy),("daemon",daemon),("enforcement",enforcement)] =
      [("audit",audit),("checkpoint_kind",kind),("counter",counter),("daemon",daemon),
        ("enforcement",enforcement),("fortress_id",fortress),("issued_at",issued),
        ("policy",policy)]++[("previous_checkpoint_hash",previous)] ++
        [("schema_version",schema)] := by
  have hkey : sortFields [("checkpoint_kind",0),("schema_version",1),("counter",2),
      ("previous_checkpoint_hash",3),("issued_at",4),("fortress_id",5),("audit",6),("policy",7),
      ("daemon",8),("enforcement",9)] =
      [("audit",6),("checkpoint_kind",0),("counter",2),("daemon",8),("enforcement",9),
        ("fortress_id",5),("issued_at",4),("policy",7),("previous_checkpoint_hash",3),
        ("schema_version",1)] := by
    decide +kernel
  have hmap := sortFields_map
    (fun i => [kind,schema,counter,previous,issued,fortress,audit,policy,daemon,
      enforcement].getD i []) [("checkpoint_kind",0),("schema_version",1),("counter",2),
      ("previous_checkpoint_hash",3),("issued_at",4),("fortress_id",5),("audit",6),("policy",7),
      ("daemon",8),("enforcement",9)]
  rw [hkey] at hmap
  exact hmap

theorem plain_previous (record : CheckpointRecord) :
    ∀ c∈record.previousCheckpointHash.toList, escapeChar c=[c] ∧ c ≠ '"' := by
  have hall : (checkpointGenesis.toList ++ "0123456789abcdef".toList).all
      (fun c => decide (escapeChar c=[c] ∧ c ≠ '"'))=true := by decide +kernel
  rw [List.all_eq_true] at hall
  intro c hc
  rcases record.previousShape with hgen | hhex
  · rw [hgen] at hc
    exact of_decide_eq_true (hall c (List.mem_append_left _ hc))
  · rw [hex64,Bool.and_eq_true,List.all_eq_true] at hhex
    exact of_decide_eq_true (hall c (List.mem_append_right _ (of_decide_eq_true (hhex.2 c hc))))

theorem flatMap_escapeChar {cs : List Char} (h : ∀ c∈cs, escapeChar c=[c]) :
    cs.flatMap escapeChar=cs := by
  induction cs with
  | nil => rfl
  | cons c cs ih =>
    rw [List.flatMap_cons,h c List.mem_cons_self,ih fun c hc => h c (List.mem_cons_of_mem _ hc)]
    rfl

theorem eq_of_append_cons {a b u v : List Char} {c : Char} (hu : c∉u) (hv : c∉v)
    (h : a++c::u=b++c::v) : u=v := by
  rcases List.append_eq_append_iff.mp h with ⟨mid,-,hmid⟩ | ⟨mid,-,hmid⟩
  · cases mid with
    | nil => exact (List.cons.inj hmid).2
    | cons x mid =>
      rw [List.cons_append,List.cons.injEq] at hmid
      exact absurd (hmid.2 ▸ List.mem_append_right mid List.mem_cons_self) hu
  · cases mid with
    | nil => exact (List.cons.inj hmid).2.symm
    | cons x mid =>
      rw [List.cons_append,List.cons.injEq] at hmid
      exact absurd (hmid.2 ▸ List.mem_append_right mid List.mem_cons_self) hv

def payloadEnd : List Char := '"' :: ',' :: (fieldText ("schema_version",['1'])++['}'])

/-- The text of a payload up to the quote before the previous hash, the hash, and the rest. -/
theorem canonicalJson_payload (shortest : ℚ → String) (record : CheckpointRecord) :
    ∃ front, JsValue.canonicalJson shortest (.object record.signedPayloadOf) =
      front ++ '"' :: (record.previousCheckpointHash.toList++payloadEnd) := by
  have hescape := flatMap_escapeChar fun c hc => (record.plain_previous c hc).1
  have hone : JsValue.numberText shortest 1=['1'] := by rfl
  have hprevious : fieldText ("previous_checkpoint_hash",quote record.previousCheckpointHash) =
      quote "previous_checkpoint_hash" ++ ':' :: '"' :: (record.previousCheckpointHash.toList++['"']) := by
    rw [fieldText,quote,quote,hescape]
  simp only [signedPayloadOf,JsValue.canonicalJson,JsValue.canonicalFields]
  rw [sortFields_payload,JsValue.membersText_concat (by simp),List.map_append,List.map_singleton,
    joinComma_concat (by simp),hprevious,hone,payloadEnd]
  generalize joinComma (List.map fieldText _)=body
  refine ⟨'{' :: (body ++ ',' :: (quote "previous_checkpoint_hash" ++ [':'])),?_⟩
  simp only [List.append_assoc,List.cons_append,List.nil_append]

theorem previous_of_signedText {shortest : ℚ → String} {a b : CheckpointRecord}
    (h : a.signedText shortest=b.signedText shortest) :
    a.previousCheckpointHash=b.previousCheckpointHash := by
  have htex := congrArg String.toList h
  simp only [signedText,String.toList_append,String.toList_ofList] at htex
  have hpay := List.append_cancel_left htex
  obtain ⟨front,hfro⟩ := canonicalJson_payload shortest a
  obtain ⟨front',hfro'⟩ := canonicalJson_payload shortest b
  rw [hfro,hfro',← List.cons_append,← List.cons_append,← List.append_assoc,
    ← List.append_assoc] at hpay
  apply String.toList_inj.mp
  apply eq_of_append_cons (fun hc => (a.plain_previous '"' hc).2 rfl)
    (fun hc => (b.plain_previous '"' hc).2 rfl)
  exact List.append_cancel_right hpay

end CheckpointRecord

end CastleWall.Transparency
