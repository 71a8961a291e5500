import CastleWall.Audit.Row

/-! # Events the consumer is given

The event and its transport envelope (`audit-consumer.ts`), the shape check, the canonical hash
(`canonical-json.ts`) and the subjects an identity is read from (`subject-binding.ts`). Fields are held at
their declared types, so the checks of a field's type pass. -/

namespace CastleWall.Consumer

open Text

structure ConsumerEnv where
  /-- `JSON.parse`; `none` when it throws. -/
  jsonParse : String → Option Json
  sha256 : List UInt8 → Vector UInt8 32
  /-- The strict Ed25519 check of a message, a signature and a key. -/
  verifyStrictEd25519 : List UInt8 → List UInt8 → List UInt8 → Bool
  /-- The message of the error `atob` throws. -/
  atobError : String
  /-- The text of an integer that has no exact number. -/
  unsafeIntegerText : Int → String

structure CastleWallAuditEvent where
  schemaVersion : Int
  (layer timestamp fortressId eventType : String)
  (agent destination decision ruleId : Json)
  details : List (String × Json)

structure ProducerSignatureInput where
  eventCanonicalJson : String
  (capturedAtUnixMs seq : Int)
  (signatureB64url keyId : Option String)

inductive ProducerDelivery where
  | live
  | durableWal
deriving DecidableEq

inductive ProducerSubjectBinding where
  | macosAuditToken (fortressId : String)
  | signedIdentityId

structure CriticalEventEnvelope where
  event : CastleWallAuditEvent
  producer : Option ProducerSignatureInput
  producerDelivery : Option ProducerDelivery
  producerSubjectBinding : Option ProducerSubjectBinding

def auditLayer : String := "l1"

def seqKey : String := "seq"

def priorKey : String := "prior_sha256_hex"

def acceptedEventTypes : List String :=
  ["egress_blocked","egress_allowed","operator_decision","policy_loaded","policy_validation_failed",
    "filter_started","filter_stopped","filter_crashed","provider_unbound","queue_saturated",
    "no_wall_engaged","no_wall_expired","wal_overflow","external_firewall_clobber",
    "egress_metric_batch","egress_verdict_superseded"]

def enforcementEvidenceEventTypes : List String := ["egress_blocked","egress_allowed","operator_decision"]

def walOperationToEventType : String → Option String
  | "egress_approved" => some "egress_allowed"
  | "egress_blocked" => some "egress_blocked"
  | "egress_pending" => some "operator_decision"
  | "egress_verdict_superseded" => some "egress_verdict_superseded"
  | _ => none

def validateEvent (event : CastleWallAuditEvent) : Option String :=
  if event.layer≠auditLayer then some ("unexpected layer: " ++ event.layer)
  else if event.eventType∉acceptedEventTypes then some ("unknown event_type: " ++ event.eventType)
  else if event.fortressId.isEmpty then some "missing fortress_id"
  else if event.timestamp.isEmpty then some "missing timestamp"
  else none

def isSafeInteger (n : Int) : Bool := decide (-(2 ^ 53) < n ∧ n < 2 ^ 53)

mutual

def firstUnsafe : Json → Option Int
  | .num n => if isSafeInteger n then none else some n
  | .arr items => firstUnsafeItem items
  | .obj fields => (Json.sortFields (unsafeValues fields)).findSome? Prod.snd
  | _ => none

def firstUnsafeItem : List Json → Option Int
  | [] => none
  | item::items => (firstUnsafe item).or (firstUnsafeItem items)

def unsafeValues : List (String × Json) → List (String × Option Int)
  | [] => []
  | field::fields => (field.1, firstUnsafe field.2)::unsafeValues fields

end

theorem unsafeValues_eq (fields : List (String × Json)) :
    unsafeValues fields=fields.map fun f => (f.1, firstUnsafe f.2) := by
  induction fields with
  | nil => rfl
  | cons field fields ih => rw [unsafeValues,ih,List.map_cons]

theorem firstUnsafe_obj {fields : List (String × Json)} :
    firstUnsafe (.obj fields)=none ↔ ∀ f∈fields, firstUnsafe f.2=none := by
  rw [firstUnsafe,List.findSome?_eq_none_iff,unsafeValues_eq]
  simp only [(Json.sortFields_perm _).mem_iff,List.mem_map,forall_exists_index,and_imp,
    forall_apply_eq_imp_iff₂]

theorem firstUnsafe_ofFields {fields : List (String × Json)} (h : ∀ f∈fields, firstUnsafe f.2=none) :
    firstUnsafe (.obj (Json.ofFields fields))=none :=
  firstUnsafe_obj.mpr fun f hf => h f (Json.mem_ofFields hf)

section Hashes

variable (env : ConsumerEnv)

def canonicalize (value : Json) : Except String String :=
  match firstUnsafe value with
  | some n =>
    .error ("canonicalize(): unsafe integer (" ++ env.unsafeIntegerText n ++
      ") cannot be represented exactly as a JS number and would silently diverge from Swift's Int64 " ++
      "canonicalization. Use a string for integers outside JavaScript's safe range.")
  | none => .ok value.canonicalText

def sha256Hex (text : String) : String :=
  String.ofList ((env.sha256 (utf8Bytes text)).toList.flatMap Audit.hexByte)

def eventJson (event : CastleWallAuditEvent) : Json :=
  .obj (Json.ofFields
    [("schema_version",.num event.schemaVersion),("layer",.str event.layer),
      ("timestamp",.str event.timestamp),("fortress_id",.str event.fortressId),
      ("event_type",.str event.eventType),("agent",event.agent),("destination",event.destination),
      ("decision",event.decision),("rule_id",event.ruleId),("details",.obj event.details)])

def computeCanonicalHash (event : CastleWallAuditEvent) : Except String String :=
  (canonicalize env (eventJson event)).map (sha256Hex env)

def computeSignedBodyHash (eventCanonicalJson : String) : String := sha256Hex env eventCanonicalJson

def safeCanonicalizeForDiagnostic (value : Json) : String :=
  match canonicalize env value with
  | .ok text => text
  | .error err => "<uncanonicalizable: " ++ err ++ ">"

end Hashes

def protectionSubjectForUid (fortressId : String) (uid : Nat) : Option String :=
  if fortressId.isEmpty || uid < 1 || uid > 0xffffffff then none
  else some (fortressId ++ "/uid-" ++ toString uid)

def isLegacyMacOSAuditTokenHex (value : String) : Bool :=
  value.toList.length == 64 && value.toList.all fun c => (toDigit 16 c).isSome

def tokenByte (cs : List Char) (index : Nat) : Nat :=
  ofDigits 16 (((cs.drop index).take 2).filterMap (toDigit 16))

def ruidFromMacOSAuditTokenHex (agentId : String) : Option Nat :=
  if isLegacyMacOSAuditTokenHex agentId then
    let cs := agentId.toList
    some (tokenByte cs 24+tokenByte cs 26 * 2 ^ 8+tokenByte cs 28 * 2 ^ 16+tokenByte cs 30 * 2 ^ 24)
  else none

def protectionSubjectFromMacOSAuditToken (fortressId agentId : String) : Option String :=
  (ruidFromMacOSAuditTokenHex agentId).bind (protectionSubjectForUid fortressId)

end CastleWall.Consumer
