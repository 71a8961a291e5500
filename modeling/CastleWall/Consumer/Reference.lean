import CastleWall.Consumer.Settle

/-! # A producer's key and its signed events

Reference inputs for the consumer: bodies with their SHA-256 digests and Ed25519 signatures, and what the
consumer does with them from any state that can take them. -/

namespace CastleWall.Consumer

open Text

def digestA : Vector UInt8 32 :=
  #v[0xa3,0x6c,0x5d,0xed,0x09,0x13,0xe9,0x26,0x1e,0x43,0x0f,0x91,0xf2,0xc4,0x64,0x92,
    0x64,0x16,0xa3,0xba,0x98,0x13,0x6c,0x44,0xe1,0x25,0xdc,0xe0,0x8b,0x4f,0xaa,0x0e]

def digestB : Vector UInt8 32 :=
  #v[0xb1,0xb0,0x63,0xa8,0xa6,0xdd,0x5c,0xde,0x0f,0x66,0xa1,0x43,0x6c,0xb3,0xcf,0xd0,
    0x4e,0xb8,0x85,0x59,0x83,0xef,0x48,0x6e,0xf1,0x67,0x12,0xb3,0x43,0x64,0x48,0xdf]

def digestC : Vector UInt8 32 :=
  #v[0x23,0x09,0x4a,0xbf,0x26,0xe7,0xe5,0x7f,0xcd,0x68,0x5f,0x4b,0x30,0xf3,0x07,0xb9,
    0x97,0xb2,0xd0,0x54,0x69,0xa7,0xc3,0xc5,0xb8,0x93,0x44,0x05,0xbe,0x52,0x2f,0xff]

def signatureA : Vector UInt8 64 :=
  #v[0x98,0x00,0x10,0xba,0x9b,0xe0,0xbb,0x30,0x06,0x8f,0x31,0xfe,0xc1,0x4e,0x0c,0xde,
    0x07,0xf1,0xaf,0xe3,0xfc,0x03,0x90,0xcd,0xa6,0x27,0x35,0x8a,0x24,0xe8,0x41,0xa5,
    0xad,0xe4,0xba,0x20,0x1d,0xa5,0x9d,0x34,0x90,0xf9,0xf9,0x20,0xe1,0x47,0xde,0xea,
    0x0a,0xab,0xc9,0xfc,0xc6,0x41,0x50,0x80,0x25,0x13,0xda,0xe8,0x3c,0x9b,0x6e,0x07]

def signatureB : Vector UInt8 64 :=
  #v[0x97,0xbf,0x3e,0x23,0x74,0xef,0xbd,0x80,0xb5,0x75,0x2b,0x03,0xb3,0xf1,0x1e,0xd3,
    0x29,0xc3,0x77,0x1a,0xde,0xc1,0xb4,0x69,0x1b,0xa4,0x2b,0xd4,0x21,0x00,0x00,0x54,
    0x82,0x11,0x19,0xdc,0x15,0xbe,0xe0,0x2d,0x32,0xa2,0x9b,0x9b,0x7b,0x02,0x1a,0xe8,
    0xbb,0x26,0xbd,0x72,0x0d,0xa0,0x7e,0x6d,0xb2,0xf2,0xe5,0x58,0xb2,0xa5,0x3c,0x03]

def signatureC : Vector UInt8 64 :=
  #v[0x52,0x3a,0xea,0x92,0x92,0x2b,0xec,0x78,0xf6,0xf6,0xd3,0xd9,0x8a,0xea,0x24,0x8e,
    0x16,0xc8,0x7f,0xe0,0xc2,0x5c,0xba,0x51,0x9a,0x39,0x24,0xef,0x9f,0x0d,0xfc,0x91,
    0x2d,0x31,0x56,0xec,0xb0,0x06,0x6c,0x75,0x5e,0xb8,0x3a,0xb4,0x93,0x40,0xeb,0xc7,
    0xf7,0x40,0x9c,0x9c,0x61,0xde,0x7c,0xef,0xde,0xd4,0x59,0xe6,0xa8,0xb7,0x4f,0x06]

def producerKey : Vector UInt8 32 :=
  #v[0x03,0xa1,0x07,0xbf,0xf3,0xce,0x10,0xbe,0x1d,0x70,0xdd,0x18,0xe7,0x4b,0xc0,0x99,
    0x67,0xe4,0xd6,0x30,0x9b,0xa5,0x0d,0x5f,0x1d,0xdc,0x86,0x64,0x12,0x55,0x31,0xb8]

def signedBody (identityId : String) : List (String × Json) :=
  [("identity_id",.str identityId),("layer",.str auditLayer),("operation",.str "egress_blocked")]

def signedText (identityId : String) : String := (Json.obj (signedBody identityId)).canonicalText

/-- SHA-256 on the three bodies, and an Ed25519 check that meets only genuine signatures. -/
def referenceEnv : ConsumerEnv where
  jsonParse := Json.fromText
  sha256 := fun bytes =>
    if bytes=utf8Bytes (signedText "a") then digestA
    else if bytes=utf8Bytes (signedText "b") then digestB
    else digestC
  verifyStrictEd25519 := fun _ _ _ => true
  atobError := "The string to be decoded is not correctly encoded."
  unsafeIntegerText := fun n => toString n

def hashA : String := String.ofList (digestA.toList.flatMap Audit.hexByte)

def hashB : String := String.ofList (digestB.toList.flatMap Audit.hexByte)

def referenceConfig (continuity : ChainContinuity) : ConsumerConfig where
  pinnedProducerKeyB64url := some (String.ofList (Base64.encodeUrl producerKey.toList))
  windows := .default
  inboxBridge := false
  chainAnchorSource := false
  chainContinuity := continuity

def signedEvent (seq : Int) (prior : Option String) : CastleWallAuditEvent where
  schemaVersion := 1
  layer := auditLayer
  timestamp := "2026-08-01T00:00:00Z"
  fortressId := "ab12cd34"
  eventType := "egress_blocked"
  agent := .null
  destination := .null
  decision := .null
  ruleId := .null
  details := [(priorKey,Audit.priorField prior),(seqKey,.num seq)]

def producerInput (identityId : String) (signature : Vector UInt8 64) (seq : Int) :
    ProducerSignatureInput where
  eventCanonicalJson := signedText identityId
  capturedAtUnixMs := 1785542400000
  seq := seq
  signatureB64url := some (String.ofList (Base64.encodeUrl signature.toList))
  keyId := some producerSigKeyIdV1

def signedEnvelope (identityId : String) (signature : Vector UInt8 64) (seq : Int) (prior : Option String) :
    CriticalEventEnvelope where
  event := signedEvent seq prior
  producer := some (producerInput identityId signature seq)
  producerDelivery := some .live
  producerSubjectBinding := some .signedIdentityId

def referenceCall : IngestCall := .clean 1785542401000

def eventLink (identityId : String) (seq : Int) (prior : Option String) : ChainLink :=
  { seq, prior, hash := computeSignedBodyHash referenceEnv (signedText identityId) }

theorem hash_signedText_a : computeSignedBodyHash referenceEnv (signedText "a")=hashA := by
  simp only [computeSignedBodyHash,sha256Hex,referenceEnv,if_true,hashA]

theorem parseSignedBody_signedText (identityId : String) :
    parseSignedBody referenceEnv (signedText identityId) =
      .ok { body := signedBody identityId, operation := "egress_blocked" } := by
  have hwf : (Json.obj (signedBody identityId)).wellFormed=true := by
    rw [Json.wellFormed_obj,Json.keysSorted_iff_keys]
    refine ⟨?_,by simp [signedBody,Json.wellFormed]⟩
    change (["identity_id","layer","operation"] : List String).Pairwise fun a b => a.toList < b.toList
    decide +kernel
  have hpar : referenceEnv.jsonParse (signedText identityId)=some (.obj (signedBody identityId)) := by
    rw [show referenceEnv.jsonParse=Json.fromText from rfl,signedText]
    exact Json.fromText_canonicalText hwf
  simp [parseSignedBody,hpar,signedBody,List.lookup_cons,auditLayer]

section Reference

variable {st : ConsumerState} {continuity : ChainContinuity} {identityId : String}
  {signature : Vector UInt8 64} {seq : Int} {prior : Option String}

def verifiedSignature (identityId : String) (signature : Vector UInt8 64) (seq : Int) : VerifiedSignature where
  signatureB64url := String.ofList (Base64.encodeUrl signature.toList)
  keyId := producerSigKeyIdV1
  signedBody := signedBody identityId
  seq := seq
  eventCanonicalJson := signedText identityId
  capturedAtUnixMs := 1785542400000

theorem evaluate_signedEnvelope (hseq : isSafeInteger seq=true) :
    evaluateProducerSignature referenceEnv (referenceConfig continuity).windows
      (referenceConfig continuity).pinnedProducerKeyB64url
      (signedEnvelope identityId signature seq prior) 1785542401000 =
    .verified (verifiedSignature identityId signature seq) := by
  have hpar : parseSignedBody referenceEnv (producerInput identityId signature seq).eventCanonicalJson =
      .ok { body := signedBody identityId, operation := "egress_blocked" } :=
    parseSignedBody_signedText identityId
  have hver : verifyProducerSignature referenceEnv (producerInput identityId signature seq)
      (String.ofList (Base64.encodeUrl producerKey.toList))=.ok () :=
    verifyProducerSignature_genuine hseq (by decide) rfl
  have hloo : (signedEvent seq prior).details.lookup seqKey=some (.num seq) := by
    simp [signedEvent,List.lookup_cons,seqKey,priorKey]
  have hfie : checkSignedFields (signedEnvelope identityId signature seq prior).event
      (producerInput identityId signature seq) (signedDetailsFromBody (signedBody identityId))=none := by
    have hdet : signedDetailsFromBody (signedBody identityId)=[] := by
      simp [signedDetailsFromBody,signedBody,List.lookup_cons]
    rw [hdet]
    simp [checkSignedFields,signedEnvelope,hloo,producerInput,List.lookup_cons]
  have hfre : FreshnessWindows.default.refusal
      (signedEnvelope identityId signature seq prior).producerDelivery
      (1785542401000 - (producerInput identityId signature seq).capturedAtUnixMs)=none := by
    change FreshnessWindows.default.refusal (some .live) (1785542401000 - 1785542400000)=none
    decide
  have htyp : walOperationToEventType "egress_blocked" =
      some (signedEnvelope identityId signature seq prior).event.eventType := by
    simp [walOperationToEventType,signedEnvelope,signedEvent]
  have hved := @evaluateSigned_verified referenceEnv .default
    (String.ofList (Base64.encodeUrl producerKey.toList)) (signedEnvelope identityId signature seq prior)
    (producerInput identityId signature seq) 1785542401000 _ hpar htyp hver hfie hfre
  simp only [evaluateProducerSignature,referenceConfig]
  exact hved

theorem chainFields_signedEvent (hseq : isSafeInteger seq=true) :
    chainFields (signedEvent seq prior)=some (seq,prior) := by
  cases prior <;> simp [chainFields,signedEvent,List.lookup_cons,seqKey,priorKey,Audit.priorField,hseq]

theorem validateEvent_signedEvent : validateEvent (signedEvent seq prior)=none := by
  simp [validateEvent,signedEvent,acceptedEventTypes]

theorem firstUnsafe_signedEvent (hseq : isSafeInteger seq=true) :
    firstUnsafe (eventJson (signedEvent seq prior))=none := by
  have hpri : firstUnsafe (Audit.priorField prior)=none := by
    cases prior <;> simp [Audit.priorField, firstUnsafe]
  have hdet : firstUnsafe (.obj (signedEvent seq prior).details)=none := by
    rw [firstUnsafe_obj]
    simp [signedEvent,hpri, firstUnsafe,hseq]
  apply firstUnsafe_ofFields
  simp only [List.forall_mem_cons]
  exact ⟨rfl,rfl,rfl,rfl,rfl,rfl,rfl,rfl,rfl,hdet,List.forall_mem_nil _⟩

theorem examine_signedEnvelope (hseq : isSafeInteger seq=true) (hide : identityId ≠ "")
    (hcha : checkWalChain (referenceConfig continuity) st (eventLink identityId seq prior) true=.ok ∨
      checkWalChain (referenceConfig continuity) st (eventLink identityId seq prior) true=.okGap) :
    ∃ admission, examine referenceEnv (referenceConfig continuity) st
        (signedEnvelope identityId signature seq prior) 1785542401000=.admitted admission ∧
      admission.link=eventLink identityId seq prior := by
  have hsaf : firstUnsafe (eventJson (signedEnvelope identityId signature seq prior).event)=none :=
    firstUnsafe_signedEvent hseq
  have hsub : persistedIdentityForEvent (signedEnvelope identityId signature seq prior)
      (.verified (verifiedSignature identityId signature seq))=.ok identityId := by
    simp [persistedIdentityForEvent,signedEnvelope,verifiedSignature,signedBody,String.isEmpty_iff,
      hide]
  obtain ⟨admission,hexa,hlin,-⟩ := @examine_verified referenceEnv (referenceConfig continuity) st
    (signedEnvelope identityId signature seq prior) 1785542401000 seq prior _ identityId
    validateEvent_signedEvent hsaf (evaluate_signedEnvelope hseq) (chainFields_signedEvent hseq) hcha hsub
  exact ⟨admission,hexa,hlin⟩

def Fits (continuity : ChainContinuity) (st : ConsumerState) (identityId : String) (seq : Int)
    (prior : Option String) : Prop :=
  checkWalChain (referenceConfig continuity) { st with restoreSettled := true }
      (eventLink identityId seq prior) true=.ok ∨
    checkWalChain (referenceConfig continuity) { st with restoreSettled := true }
      (eventLink identityId seq prior) true=.okGap

theorem fits_of_follows {last : Int} (hlas : st.lastAckedSeq=some last) (hles : last < seq)
    (hdeb : st.pendingUnpersistedSeq=none) : Fits continuity st identityId seq st.lastEventChainHash := by
  left
  have hnot : ¬ seq ≤ last := Int.not_le.mpr hles
  simp [checkWalChain,eventLink,hlas,hdeb,hnot]

theorem fits_of_gap {coalescer : Bool} {last : Int} {hash priorHash : String}
    (hlas : st.lastAckedSeq=some last) (hles : last < seq) (hhas : st.lastEventChainHash=some hash)
    (hne : priorHash≠hash) : Fits (.producerSubset coalescer) st identityId seq (some priorHash) := by
  right
  have hnot : ¬ seq ≤ last := Int.not_le.mpr hles
  simp [checkWalChain,eventLink,hlas,hnot,hhas,hne,referenceConfig]

theorem fits_of_fresh (hlas : st.lastAckedSeq=none) (hhas : st.lastEventChainHash=none)
    (hdeb : ∀ owed, st.pendingUnpersistedSeq=some owed → seq ≤ owed) :
    Fits continuity st identityId seq none := by
  left
  cases howe : st.pendingUnpersistedSeq with
  | none => simp [checkWalChain,eventLink,hlas,hhas]
  | some owed =>
    have hnot : ¬ owed < seq := Int.not_lt.mpr (hdeb owed howe)
    simp [checkWalChain,eventLink,hlas,hhas,hnot]
/-- Such an event is persisted, accepted and acknowledged, or owed when the sink fails. -/
theorem ingest_signedEnvelope (continuity : ChainContinuity) (st : ConsumerState) (identityId : String)
    (signature : Vector UInt8 64) (seq : Int) (prior : Option String) (call : IngestCall)
    (hrea : st.chainMigrationUnavailableReason=none) (hseq : isSafeInteger seq=true)
    (hide : identityId ≠ "") (hfit : Fits continuity st identityId seq prior)
    (hnow : call.now=referenceCall.now) (hack : call.ack=none) :
    ∃ admission, admission.link=eventLink identityId seq prior ∧
      let persisted := persist (referenceConfig continuity) (signedEnvelope identityId signature seq prior)
        admission call
      let r := ingestOrderedCritical referenceEnv (referenceConfig continuity) st
        (signedEnvelope identityId signature seq prior) call
      (persisted.2=none →
        r.state = { st.anchoredAt (eventLink identityId seq prior) with
          restoreSettled := true, pendingUnpersistedSeq := none } ∧
        r.effects=persisted.1 ++
          [.accepted (eventLink identityId seq prior),.ack (some (eventLink identityId seq prior))]) ∧
      (∀ err, persisted.2=some err →
        r.state = { st with restoreSettled := true, pendingUnpersistedSeq := some seq } ∧
        (∃ notes, r.effects=persisted.1++notes ∧ Quiet notes) ∧
        failsToPersist referenceEnv (referenceConfig continuity) st
          ⟨signedEnvelope identityId signature seq prior,call⟩=some seq) := by
  obtain ⟨admission,hexa,hlin⟩ := @examine_signedEnvelope { st with restoreSettled := true }
    continuity identityId signature seq prior hseq hide hfit
  have hcoa : isCoalesced (referenceConfig continuity) { st with restoreSettled := true }
      (signedEnvelope identityId signature seq prior) admission call=false := by
    have hnot : isCoalescible (signedEnvelope identityId signature seq prior) admission=false := by
      cases hout : admission.outcome <;> simp [isCoalescible,signedEnvelope,hout]
    simp [isCoalesced,hnot]
  rw [← show call.now=1785542401000 from hnow] at hexa
  have hres := ensureChainAnchorRestored_unanchored referenceEnv
    (show (referenceConfig continuity).chainAnchorSource=false from rfl) st call
  obtain ⟨hing,hfai⟩ := ingest_admitted hres hrea hexa hcoa
  refine ⟨admission,hlin,?_⟩
  simp only
  rw [hing,hfai,acceptAdmitted,if_neg (by rw [hcoa]; decide),hlin]
  cases hper : persist (referenceConfig continuity) (signedEnvelope identityId signature seq prior)
      admission call with
  | mk effects failed =>
    cases failed with
    | none =>
      refine ⟨fun _ => ⟨rfl,?_⟩,fun err herr => absurd herr (by simp)⟩
      simp [tryAck,hack]
    | some err =>
      exact ⟨fun hnone => absurd hnone (by simp),fun err' _ => ⟨rfl,⟨_,rfl,quiet_record _ _ _⟩,rfl⟩⟩

end Reference

end CastleWall.Consumer
