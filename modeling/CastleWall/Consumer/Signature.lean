import CastleWall.Consumer.Envelope
import CastleWall.Support.Base64
import Mathlib.Data.List.DropRight

/-! # Producer signatures

The check of a producer signature (`producer-signature.ts`) and what the consumer reads from a signed body
once the check has passed: the chain basis, the persisted identity and the persisted details. -/

namespace CastleWall.Consumer

open Text

def producerSigDomainPrefix : String := "sanctuary.castle-wall.audit-producer.v1\n"

def producerSigKeyIdV1 : String := "cw-audit-producer-v1"

def producerSigningBytes (eventCanonicalJson : String) (capturedAtUnixMs seq : Int) : List UInt8 :=
  utf8Bytes producerSigDomainPrefix++utf8Bytes eventCanonicalJson++[10] ++
    utf8Bytes (toString capturedAtUnixMs)++[10]++utf8Bytes (toString seq)

def replaceChar (old new : Char) (cs : List Char) : List Char :=
  cs.map fun c => if c=old then new else c

def stripTrailingPadding (cs : List Char) : List Char := cs.rdropWhile (· == '=')

def fromBase64url (s : String) : Option (List UInt8) :=
  let normalized := stripTrailingPadding (replaceChar '/' '_' (replaceChar '+' '-' s.toList))
  let pad := (4 - normalized.length % 4) % 4
  Base64.atob (replaceChar '_' '/' (replaceChar '-' '+' (normalized++List.replicate pad '=')))

theorem replaceChar_of_forall {old new : Char} {cs : List Char} (h : ∀ c∈cs, c≠old) :
    replaceChar old new cs=cs := by
  have hid : ∀ c∈cs, (if c=old then new else c)=id c := fun c hc => if_neg (h c hc)
  rw [replaceChar,List.map_congr_left hid,List.map_id]

theorem fromBase64url_encodeUrl (bytes : List UInt8) :
    fromBase64url (String.ofList (Base64.encodeUrl bytes))=some bytes := by
  have hpla : ∀ c∈Base64.encodeUrl bytes, c ≠ '+' ∧ c ≠ '/' ∧ c ≠ '=' := by
    apply Base64.forall_encodeUrl
    decide
  have hstr : stripTrailingPadding (Base64.encodeUrl bytes)=Base64.encodeUrl bytes := by
    unfold stripTrailingPadding
    rw [List.rdropWhile_eq_self_iff]
    intro hne
    simpa using (hpla _ (List.getLast_mem hne)).2.2
  have hrep : ∀ pad, replaceChar '_' '/' (replaceChar '-' '+'
      (Base64.encodeUrl bytes++List.replicate pad '=')) =
      (Base64.encodeUrl bytes).map Base64.standardOfUrl++List.replicate pad '=' := by
    intro pad
    unfold replaceChar
    rw [List.map_map,List.map_append,List.map_replicate]
    congr 1
    apply List.map_congr_left
    apply Base64.forall_encodeUrl
    decide
  unfold fromBase64url
  rw [String.toList_ofList,replaceChar_of_forall fun c hc => (hpla c hc).1,
    replaceChar_of_forall fun c hc => (hpla c hc).2.1,hstr]
  simp only
  rw [hrep]
  exact Base64.atob_encodeUrl bytes rfl

section Verify

variable (env : ConsumerEnv)

def verifyProducerSignature (input : ProducerSignatureInput) (pinnedProducerKeyB64url : String) :
    Except String Unit :=
  match input.signatureB64url with
  | none => .error "producer_signature_missing"
  | some signature =>
    if signature.isEmpty then .error "producer_signature_missing"
    else if 128 < (utf16Units signature).length then .error "producer_signature_wrong_length"
    else if input.keyId≠some producerSigKeyIdV1 then
      .error ("producer_key_id_mismatch: " ++ input.keyId.getD "null")
    else if !isSafeInteger input.seq || !isSafeInteger input.capturedAtUnixMs then
      .error "producer_signature_bad_binding_fields"
    else
      let thrown : Except String Unit := .error ("producer_signature_verify_error: " ++ env.atobError)
      match fromBase64url pinnedProducerKeyB64url with
      | none => thrown
      | some key =>
        if key.length≠32 then .error "pinned_producer_key_wrong_length"
        else
          match fromBase64url signature with
          | none => thrown
          | some sig =>
            if sig.length≠64 then .error "producer_signature_wrong_length"
            else
              let message :=
                producerSigningBytes input.eventCanonicalJson input.capturedAtUnixMs input.seq
              if !env.verifyStrictEd25519 message sig key then
                .error "producer_signature_verification_failed"
              else .ok ()

theorem length_utf16Units_encodeUrl (bytes : List UInt8) :
    (utf16Units (String.ofList (Base64.encodeUrl bytes))).length=(Base64.encodeUrl bytes).length := by
  have huni : ∀ c∈Base64.encodeUrl bytes, (utf16Char c).length=1 := by
    apply Base64.forall_encodeUrl
    decide
  rw [utf16Units,String.toList_ofList,List.length_flatMap,List.map_congr_left huni]
  simp

variable {env} in
theorem verifyProducerSignature_genuine {eventCanonicalJson : String} {capturedAtUnixMs seq : Int}
    {signature : Vector UInt8 64} {key : Vector UInt8 32} (hseq : isSafeInteger seq=true)
    (hcap : isSafeInteger capturedAtUnixMs=true)
    (hver : env.verifyStrictEd25519 (producerSigningBytes eventCanonicalJson capturedAtUnixMs seq)
      signature.toList key.toList=true) :
    verifyProducerSignature env
      { eventCanonicalJson, capturedAtUnixMs, seq, keyId := some producerSigKeyIdV1
        signatureB64url := some (String.ofList (Base64.encodeUrl signature.toList)) }
      (String.ofList (Base64.encodeUrl key.toList))=.ok () := by
  have hlen : (Base64.encodeUrl signature.toList).length=86 := by
    rw [Base64.length_encodeUrl,Vector.length_toList]
  have hnon : (String.ofList (Base64.encodeUrl signature.toList)).isEmpty=false := by
    cases hcs : Base64.encodeUrl signature.toList with
    | nil => simp [hcs] at hlen
    | cons c cs => simp
  have hbound : ¬ 128 < (utf16Units (String.ofList (Base64.encodeUrl signature.toList))).length := by
    rw [length_utf16Units_encodeUrl,hlen]
    decide
  simp only [verifyProducerSignature,hnon,hbound,hseq,hcap,fromBase64url_encodeUrl,
    Vector.length_toList,hver]
  simp

structure SignedBody where
  body : List (String × Json)
  operation : String

def parseSignedBody (signedCanonicalJson : String) : Except String SignedBody :=
  match env.jsonParse signedCanonicalJson with
  | some (.obj body) =>
    match body.lookup "layer" with
    | some (.str layer) =>
      if layer≠auditLayer then .error "producer_signed_body_layer_mismatch"
      else
        match body.lookup "operation" with
        | some (.str operation) => .ok { body, operation }
        | _ => .error "producer_signed_body_missing_operation"
    | _ => .error "producer_signed_body_layer_mismatch"
  | _ => .error "producer_signed_body_unparseable"

def signedDetailsFromBody (body : List (String × Json)) : List (String × Json) :=
  match body.lookup "details" with
  | some (.obj details) => details
  | _ => []

/-- `===` on two fields: arrays and objects of two documents are never the same. -/
def strictEq : Option Json → Option Json → Bool
  | none, none => true
  | some .null, some .null => true
  | some (.bool a), some (.bool b) => a == b
  | some (.num a), some (.num b) => a == b
  | some (.str a), some (.str b) => a == b
  | _, _ => false

structure VerifiedSignature where
  (signatureB64url keyId : String)
  signedBody : List (String × Json)
  seq : Int
  eventCanonicalJson : String
  capturedAtUnixMs : Int

inductive SignatureOutcome where
  | verified (signature : VerifiedSignature)
  | unsigned
  | rejected (reason : String)

namespace SignatureOutcome

def isVerified : SignatureOutcome → Bool
  | verified _ => true
  | _ => false

end SignatureOutcome

structure FreshnessWindows where
  (producerSigMaxAgeMs producerWalRetentionMs producerSigMaxSkewMs : Int)

namespace FreshnessWindows

def default : FreshnessWindows where
  producerSigMaxAgeMs := 5 * 60 * 1000
  producerWalRetentionMs := 24 * 60 * 60 * 1000
  producerSigMaxSkewMs := 60 * 1000

def maxAgeMs (windows : FreshnessWindows) : Option ProducerDelivery → Int
  | some .durableWal => windows.producerWalRetentionMs
  | _ => windows.producerSigMaxAgeMs

def refusal (windows : FreshnessWindows) (delivery : Option ProducerDelivery) (ageMs : Int) :
    Option String :=
  let maxAgeMs := windows.maxAgeMs delivery
  if 0 < maxAgeMs ∧ maxAgeMs < ageMs then some "producer_signature_stale"
  else if ageMs < -windows.producerSigMaxSkewMs then some "producer_signature_future_dated"
  else none

end FreshnessWindows

def checkSignedFields (event : CastleWallAuditEvent) (producer : ProducerSignatureInput)
    (signedDetails : List (String × Json)) : Option String :=
  let eventSeqDiffers :=
    match event.details.lookup seqKey with
    | some (.num seq) => seq != producer.seq
    | _ => false
  if eventSeqDiffers then some "producer_signature_seq_mismatch"
  else if (signedDetails.lookup seqKey).isSome ∧
      !strictEq (signedDetails.lookup seqKey) (some (.num producer.seq)) then
    some "producer_signed_body_seq_mismatch"
  else if (signedDetails.lookup priorKey).isSome ∧
      !strictEq (signedDetails.lookup priorKey) (event.details.lookup priorKey) then
    some "producer_signed_body_prior_hash_mismatch"
  else none

def evaluateSigned (windows : FreshnessWindows) (pinnedProducerKeyB64url : String)
    (envelope : CriticalEventEnvelope) (producer : ProducerSignatureInput) (now : Int) :
    SignatureOutcome :=
  match parseSignedBody env producer.eventCanonicalJson with
  | .error reason => .rejected reason
  | .ok parsed =>
    -- The signed operation decides the slot the entry is filed under.
    if walOperationToEventType parsed.operation≠some envelope.event.eventType then
      .rejected "producer_signed_body_operation_event_type_mismatch"
    else
      match verifyProducerSignature env producer pinnedProducerKeyB64url with
      | .error reason => .rejected reason
      | .ok () =>
        match checkSignedFields envelope.event producer (signedDetailsFromBody parsed.body) with
        | some reason => .rejected reason
        | none =>
          match windows.refusal envelope.producerDelivery (now - producer.capturedAtUnixMs) with
          | some reason => .rejected reason
          | none =>
            .verified
              { signatureB64url := producer.signatureB64url.getD ""
                keyId := producer.keyId.getD ""
                signedBody := parsed.body
                seq := producer.seq
                eventCanonicalJson := producer.eventCanonicalJson
                capturedAtUnixMs := producer.capturedAtUnixMs }

def evaluateProducerSignature (windows : FreshnessWindows) (pinnedProducerKeyB64url : Option String)
    (envelope : CriticalEventEnvelope) (now : Int) : SignatureOutcome :=
  match pinnedProducerKeyB64url, envelope.producer with
  | none, _ => .unsigned
  | some _, none =>
    if envelope.event.eventType∈enforcementEvidenceEventTypes then
      .rejected "producer_signature_absent"
    else .unsigned
  | some key, some producer => evaluateSigned env windows key envelope producer now

/-- A genuine body of the right type, in its window and in agreement with the envelope, is verified. -/
theorem evaluateSigned_verified {windows : FreshnessWindows} {key : String}
    {envelope : CriticalEventEnvelope} {producer : ProducerSignatureInput} {now : Int} {parsed : SignedBody}
    (hpar : parseSignedBody env producer.eventCanonicalJson=.ok parsed)
    (htyp : walOperationToEventType parsed.operation=some envelope.event.eventType)
    (hver : verifyProducerSignature env producer key=.ok ())
    (hfie : checkSignedFields envelope.event producer (signedDetailsFromBody parsed.body)=none)
    (hfre : windows.refusal envelope.producerDelivery (now - producer.capturedAtUnixMs)=none) :
    evaluateSigned env windows key envelope producer now =
      .verified
        { signatureB64url := producer.signatureB64url.getD "", keyId := producer.keyId.getD ""
          signedBody := parsed.body, seq := producer.seq
          eventCanonicalJson := producer.eventCanonicalJson
          capturedAtUnixMs := producer.capturedAtUnixMs } := by
  simp only [evaluateSigned,hpar,htyp,hver,hfie,hfre,ne_eq,not_true_eq_false,if_false]

end Verify

inductive ChainBasis where
  | producerSignedBody
  | eventCanonical

namespace ChainBasis

def text : ChainBasis → String
  | producerSignedBody => "producer_signed_body"
  | eventCanonical => "event_canonical"

end ChainBasis

/-- A verified event chains on the hash of its signed body, any other on its own canonical hash. -/
def chainBasisFor (env : ConsumerEnv) (canonicalHash : String) : SignatureOutcome → String × ChainBasis
  | .verified signature =>
    (computeSignedBodyHash env signature.eventCanonicalJson,.producerSignedBody)
  | _ => (canonicalHash,.eventCanonical)

variable (envelope : CriticalEventEnvelope)

def persistedIdentityForEvent :
    SignatureOutcome → Except String String
  | .verified signature =>
    match envelope.producerSubjectBinding with
    | none => .error "producer_signed_without_subject_binding"
    | some (.macosAuditToken fortressId) =>
      match (signedDetailsFromBody signature.signedBody).lookup "agent_id" with
      | some (.str agentId) =>
        match protectionSubjectFromMacOSAuditToken fortressId agentId with
        | none => .error "producer_signed_body_agent_subject_unresolvable"
        | some subject => .ok subject
      | _ => .error "producer_signed_body_missing_agent_id"
    | some .signedIdentityId =>
      match signature.signedBody.lookup "identity_id" with
      | some (.str identityId) =>
        if identityId.isEmpty then .error "producer_signed_body_missing_identity_id" else .ok identityId
      | _ => .error "producer_signed_body_missing_identity_id"
  | _ => .ok envelope.event.fortressId

def setField (key : String) (value : Option Json) (fields : List (String × Json)) :
    List (String × Json) :=
  match value with
  | none => fields
  | some value => Json.insertField key value fields

def setText (key text : String) (fields : List (String × Json)) : List (String × Json) :=
  Json.insertField key (.str text) fields

def deleteField (key : String) (fields : List (String × Json)) : List (String × Json) :=
  fields.filter (·.1≠key)

def provenanceKey : String := "cw_source"

def provenanceValue : String := "castle_wall_audit_consumer"

def signedCanonicalKey : String := "cw_producer_signed_canonical"

def capturedAtKey : String := "cw_producer_captured_at_ms"

def signatureKey : String := "cw_producer_sig"

def keyIdKey : String := "cw_producer_kid"

def subjectBindingKey : String := "cw_producer_subject_binding"

def evidenceBasisKey : String := "cw_evidence_basis"

def chainBasisKey : String := "cw_chain_basis"

def bindingText : ProducerSubjectBinding → String
  | .macosAuditToken _ => "macos_audit_token"
  | .signedIdentityId => "signed_identity_id"

def signedDetails (signature : VerifiedSignature) (basis : ChainBasis)
    (chainPriorUnconsumed : Bool) : List (String × Json) :=
  let out := signedDetailsFromBody signature.signedBody
  let out := setField seqKey (envelope.event.details.lookup seqKey) out
  let out := setField priorKey (envelope.event.details.lookup priorKey) out
  let out := setText signatureKey signature.signatureB64url out
  let out := setText keyIdKey signature.keyId out
  let out := setText signedCanonicalKey signature.eventCanonicalJson out
  let out := Json.insertField capturedAtKey (.num signature.capturedAtUnixMs) out
  let out := setField subjectBindingKey (envelope.producerSubjectBinding.map fun b => .str (bindingText b)) out
  let out := setText evidenceBasisKey "producer_signed" out
  let out := setText chainBasisKey basis.text out
  let out := if chainPriorUnconsumed then
    Json.insertField "cw_chain_prior_unconsumed" (.bool true) out else out
  setText provenanceKey provenanceValue out

/-- A field of the event that is not null. -/
def presentField : Json → Option Json
  | .null => none
  | value => some value

def unsignedDetails (event : CastleWallAuditEvent) (basis : ChainBasis) : List (String × Json) :=
  let out := event.details
  let out := setField "agent" (presentField event.agent) out
  let out := setField "destination" (presentField event.destination) out
  let out := setField "decision" (presentField event.decision) out
  let out := setField "rule_id" (presentField event.ruleId) out
  let out := [signatureKey,keyIdKey,signedCanonicalKey,capturedAtKey,subjectBindingKey].foldl
    (fun fields key => deleteField key fields) out
  let out := setText evidenceBasisKey "channel_authenticated_unsigned" out
  let out := setText chainBasisKey basis.text out
  setText provenanceKey provenanceValue out

def buildDetailsForEvent (outcome : SignatureOutcome)
    (basis : ChainBasis) (chainPriorUnconsumed : Bool) : List (String × Json) :=
  match outcome with
  | .verified signature => signedDetails envelope signature basis chainPriorUnconsumed
  | _ => unsignedDetails envelope.event basis

inductive AuditResult where
  | success
  | failure

def resultForSignatureOutcome : SignatureOutcome → AuditResult
  | .verified signature =>
    match signature.signedBody.lookup "result" with
    | some (.str result) => if result = "failure" ∨ result = "blocked" then .failure else .success
    | _ => .success
  | _ => .success

end CastleWall.Consumer
