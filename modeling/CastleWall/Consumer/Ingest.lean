import CastleWall.Consumer.Signature

/-! # The audit consumer

One delivery through `ingestOrderedCritical`: the anchor restore, the checks of the envelope in their order,
and the appends, flushes and acknowledgement that follow. Deliveries come one after another. A failed sink
call leaves no row, and an acknowledgement counts as sent when the callback is invoked. -/

namespace CastleWall.Consumer

structure AuditRow where
  (operation identityId : String)
  details : List (String × Json)
  result : AuditResult

structure ChainLink where
  seq : Int
  prior : Option String
  hash : String

inductive Effect where
  /-- An append that completed; with its link when the row is the event itself. -/
  | append (row : AuditRow) (event : Option ChainLink)
  | flush
  /-- The anchor is taken from local history. -/
  | restored (anchor : ChainLink)
  /-- The anchor moves to the event. -/
  | accepted (event : ChainLink)
  /-- The acknowledgement is sent; without a link for a refused event. -/
  | ack (event : Option ChainLink)

/-- How much of the producer's chain arrives; only the subset composition may coalesce live flows. -/
inductive ChainContinuity where
  | complete
  | producerSubset (liveFlowCoalescer : Bool)
deriving DecidableEq

structure ConsumerConfig where
  pinnedProducerKeyB64url : Option String
  windows : FreshnessWindows
  (inboxBridge chainAnchorSource : Bool)
  chainContinuity : ChainContinuity

structure ConsumerState where
  lastAckedSeq : Option Int
  lastEventChainHash : Option String
  restoreSettled : Bool
  chainMigrationUnavailableReason : Option String
  pendingUnpersistedSeq : Option Int

namespace ConsumerState

def fresh : ConsumerState :=
  { lastAckedSeq := none, lastEventChainHash := none, restoreSettled := false,
    chainMigrationUnavailableReason := none, pendingUnpersistedSeq := none }

def anchoredAt (st : ConsumerState) (link : ChainLink) : ConsumerState :=
  { st with lastAckedSeq := some link.seq, lastEventChainHash := some link.hash }

end ConsumerState

structure PersistedAnchor where
  seq : Int
  (signedCanonicalJson signatureB64url keyId : Option String)
  capturedAtUnixMs : Option Int
  chainBasis : Option String
  identityId : String

inductive PersistedChainAnchor where
  | persisted (anchor : PersistedAnchor)
  | unavailable (reason : String)

/-- What one delivery meets: the clock, what local history answers, the coalescer's window for its flow,
and the error of each call that fails. -/
structure IngestCall where
  now : Int
  source : Except String (Option PersistedChainAnchor)
  (restoreAppend restoreFlush : Option String)
  windowOpen : Bool
  (append marker flush failureAppend failureFlush ack ackAppend ackFlush : Option String)

namespace IngestCall

def clean (now : Int) : IngestCall where
  now := now
  source := .ok none
  restoreAppend := none
  restoreFlush := none
  windowOpen := false
  append := none
  marker := none
  flush := none
  failureAppend := none
  failureFlush := none
  ack := none
  ackAppend := none
  ackFlush := none

end IngestCall

def note (operation identityId : String) (details : List (String × Json)) (result : AuditResult) :
    AuditRow :=
  { operation, identityId, details := Json.ofFields details, result }

def optionalField (key : String) (value : Option Json) : List (String × Json) :=
  (value.map fun v => (key,v)).toList

def seqAndType (event : CastleWallAuditEvent) : List (String × Json) :=
  optionalField "seq" (event.details.lookup seqKey)++[("event_type",.str event.eventType)]

section Rows

variable (env : ConsumerEnv) (event : CastleWallAuditEvent) (reason : String)

def eventRejectedRow : AuditRow :=
  note "audit_event_rejected" event.fortressId
    [("reason",.str reason),("event_canonical",.str (safeCanonicalizeForDiagnostic env (eventJson event)))]
    .failure

def canonicalizationFailedRow (detail : String) : AuditRow :=
  note "audit_event_rejected" event.fortressId
    ([("reason",.str "canonicalization_failed"),("detail",.str detail)]++seqAndType event) .failure

def producerSignatureRejectedRow : AuditRow :=
  note "producer_signature_rejected" event.fortressId ([("reason",.str reason)]++seqAndType event) .failure

def duplicateDroppedRow : AuditRow :=
  note "critical_event_duplicate_dropped" event.fortressId (seqAndType event) .success

def verificationFailureRow : AuditRow :=
  note "wal_chain_verification_failed" event.fortressId
    [("reason",.str reason),("event_canonical",.str (safeCanonicalizeForDiagnostic env (eventJson event)))]
    .failure

def persistenceFailureRow : AuditRow :=
  note "critical_event_persistence_failed" event.fortressId (seqAndType event++[("reason",.str reason)])
    .failure

def ackFailedRow (operationContext reason : String) : AuditRow :=
  note "critical_event_ack_failed" event.fortressId
    (seqAndType event++[("ack_for",.str operationContext),("reason",.str reason)]) .failure

def blockedEgressMarkerRow (identityId : String) : AuditRow :=
  note "castle_wall_blocked_egress" identityId (seqAndType event++[("projection_status",.str "pending")])
    .success

end Rows

def record (row : AuditRow) (append flush : Option String) : List Effect × Option String :=
  match append, flush with
  | some err, _ => ([],some err)
  | none, some err => ([.append row none],some err)
  | none, none => ([.append row none,.flush],none)

section Consumer

variable (env : ConsumerEnv) (cfg : ConsumerConfig)

inductive ResolvedProducerCursorAnchor where
  | ok (seq nextSeq : Int) (priorSha256Hex : String) (chainBasis : Option String) (identityId : String)
  | unavailable (identityId reason : String)

/-- The signature over the persisted bytes is checked again before they anchor anything. -/
def resolveProducerCursorFromPersistedChainAnchor (pinnedProducerKeyB64url : String) :
    PersistedChainAnchor → ResolvedProducerCursorAnchor
  | .unavailable reason => .unavailable "unknown" reason
  | .persisted anchor =>
    if !isSafeInteger anchor.seq || decide (anchor.seq < 0) then
      .unavailable anchor.identityId "persisted_anchor_seq_invalid"
    else if 2 ^ 53 - 1 ≤ anchor.seq then
      .unavailable anchor.identityId "persisted_anchor_next_seq_unsafe"
    else
      match anchor.signedCanonicalJson with
      | none => .unavailable anchor.identityId "last_accepted_entry_unsigned"
      | some signed =>
        match anchor.signatureB64url, anchor.keyId, anchor.capturedAtUnixMs with
        | some signatureB64url, some keyId, some capturedAtUnixMs =>
          match verifyProducerSignature env
              { eventCanonicalJson := signed, capturedAtUnixMs, seq := anchor.seq,
                signatureB64url := some signatureB64url, keyId := some keyId } pinnedProducerKeyB64url with
          | .error reason =>
            .unavailable anchor.identityId ("persisted_anchor_signature_invalid:" ++ reason)
          | .ok () =>
            match parseSignedBody env signed with
            | .error reason =>
              .unavailable anchor.identityId ("persisted_anchor_body_unparseable:" ++ reason)
            | .ok parsed =>
              let signedSeq := (signedDetailsFromBody parsed.body).lookup seqKey
              if signedSeq.isSome ∧ !strictEq signedSeq (some (.num anchor.seq)) then
                .unavailable anchor.identityId "persisted_anchor_seq_not_signature_bound"
              else
                .ok anchor.seq (anchor.seq+1) (computeSignedBodyHash env signed) anchor.chainBasis
                  anchor.identityId
        | _, _, _ => .unavailable anchor.identityId "persisted_anchor_signature_material_missing"

def chainBasisMigratedRow (seq : Int) (hash : String) (chainBasis : Option String) (identityId : String) :
    AuditRow :=
  note "chain_basis_migrated" identityId
    [("previous_basis",.str (chainBasis.getD ChainBasis.eventCanonical.text)),
      ("new_basis",.str ChainBasis.producerSignedBody.text),("anchor_seq",.num seq),
      ("anchor_sha256_hex",.str hash),("anchor_source",.str "persisted_signed_canonical_body")] .success

variable (st : ConsumerState)

/-- The anchor a resolved local row gives, after the one-time basis migration is on record. -/
def adoptAnchor (call : IngestCall) :
    ResolvedProducerCursorAnchor → ConsumerState × List Effect × Option String
  | .unavailable identityId reason =>
    let recorded := record
      (note "chain_migration_unavailable" identityId [("reason",.str reason)] .failure)
      call.restoreAppend call.restoreFlush
    ({ st with chainMigrationUnavailableReason := some reason },recorded)
  | .ok seq _ hash chainBasis identityId =>
    let anchor : ChainLink := { seq, prior := none, hash }
    if chainBasis=some ChainBasis.producerSignedBody.text then
      (st.anchoredAt anchor,[.restored anchor],none)
    else
      match record (chainBasisMigratedRow seq hash chainBasis identityId)
          call.restoreAppend call.restoreFlush with
      | (effects,some err) => (st,effects,some err)
      | (effects,none) => (st.anchoredAt anchor,effects++[.restored anchor],none)

def restoreChainAnchorOnce (call : IngestCall) :
    ConsumerState × List Effect × Option String :=
  match cfg.chainAnchorSource, cfg.pinnedProducerKeyB64url with
  | true, some key =>
    match call.source with
    | .error err => (st,[],some err)
    | .ok none => (st,[],none)
    | .ok (some anchor) =>
      adoptAnchor st call (resolveProducerCursorFromPersistedChainAnchor env key anchor)
  | _, _ => (st,[],none)

def ensureChainAnchorRestored (call : IngestCall) :
    ConsumerState × List Effect × Option String :=
  if st.restoreSettled then (st,[],none)
  else
    match restoreChainAnchorOnce env cfg st call with
    | (st,effects,none) => ({ st with restoreSettled := true },effects,none)
    | (st,effects,some err) => (st,effects,some err)

inductive ChainOutcome where
  | ok
  | okGap
  | duplicateReplay
  | error (reason : String)
deriving DecidableEq

def chainFields (event : CastleWallAuditEvent) : Option (Int × Option String) :=
  match event.details.lookup seqKey, event.details.lookup priorKey with
  | some (.num seq), some (.str prior) => if isSafeInteger seq then some (seq,some prior) else none
  | some (.num seq), some .null => if isSafeInteger seq then some (seq,none) else none
  | _, _ => none

/-- The place of an event with these chain fields against the anchor and the owed sequence number. -/
def checkWalChain (link : ChainLink) (signatureVerified : Bool) : ChainOutcome :=
  if st.lastAckedSeq.any (link.seq ≤ ·) then
    if st.lastAckedSeq=some link.seq ∧ st.lastEventChainHash=some link.hash then .duplicateReplay
    else .error "seq_regression"
  else if st.lastEventChainHash.isSome ∧ link.prior≠st.lastEventChainHash then
    if cfg.chainContinuity≠.complete ∧ signatureVerified ∧ link.prior.isSome then .okGap
    else .error "wal_chain_verification_failed"
  else if st.pendingUnpersistedSeq.any (· < link.seq) then
    .error "wal_chain_bootstrap_after_unpersisted_event"
  else .ok

structure Admission where
  link : ChainLink
  row : AuditRow
  outcome : SignatureOutcome
  identityId : String

inductive Verdict where
  | invalid (reason : String)
  | uncanonical (detail : String)
  | refused (reason : String)
  | duplicate (link : ChainLink)
  | broken (reason : String)
  | admitted (admission : Admission)

/-- The chain check and what follows it, for an envelope whose signature was not refused. -/
def examineSigned (envelope : CriticalEventEnvelope) (canonicalHash : String)
    (outcome : SignatureOutcome) : Verdict :=
  let basis := chainBasisFor env canonicalHash outcome
  match chainFields envelope.event with
  | none => .broken "chain_fields_missing"
  | some (seq,prior) =>
    let link : ChainLink := { seq, prior, hash := basis.1 }
    let chain := checkWalChain cfg st link outcome.isVerified
    match chain with
    | .duplicateReplay => .duplicate link
    | .error reason => .broken reason
    | _ =>
      match persistedIdentityForEvent envelope outcome with
      | .error reason => .refused reason
      | .ok identityId =>
        .admitted
          { link, outcome, identityId
            row := { operation := envelope.event.eventType, identityId
                     details := buildDetailsForEvent envelope outcome basis.2 (chain == .okGap)
                     result := resultForSignatureOutcome outcome } }

def examine (envelope : CriticalEventEnvelope) (now : Int) : Verdict :=
  match validateEvent envelope.event with
  | some reason => .invalid reason
  | none =>
    match computeCanonicalHash env envelope.event with
    | .error detail => .uncanonical detail
    | .ok canonicalHash =>
      match evaluateProducerSignature env cfg.windows cfg.pinnedProducerKeyB64url envelope now with
      | .rejected reason => .refused reason
      | outcome => examineSigned env cfg st envelope canonicalHash outcome

def isText : Option Json → Bool
  | some (.str _) => true
  | _ => false

def hasFlowCoalescingMetadata (subject : String) (fields : List (String × Json)) : Bool :=
  let within (bound : Nat) (value : Option Json) : Bool :=
    match value with
    | some (.str s) => decide ((Text.utf16Units s).length ≤ bound)
    | _ => true
  let port :=
    match fields.lookup "dest_port" with
    | some (.num n) => decide (0 ≤ n ∧ n ≤ 65535)
    | _ => false
  let protocol :=
    match fields.lookup "dest_protocol" with
    | some (.str s) => s == "tcp" || s == "udp"
    | _ => false
  let decision :=
    match fields.lookup "decision" with
    | some (.str s) => s == "allow" || s == "drop"
    | _ => false
  let host :=
    match fields.lookup "dest_host" with
    | none | some .null | some (.str _) => true
    | _ => false
  isText (fields.lookup "dest_ip") && port && protocol && decision && host &&
    within 512 (some (.str subject)) && within 512 (fields.lookup "dest_ip") &&
    within 1024 (fields.lookup "dest_host")

variable (envelope : CriticalEventEnvelope)

def isCoalescible (admission : Admission) : Bool :=
  match admission.outcome, envelope.producerDelivery, envelope.producerSubjectBinding with
  | .verified signature, some .live, some (.macosAuditToken _) =>
    let fields := signedDetailsFromBody signature.signedBody
    let decided (eventType decision : String) : Bool :=
      envelope.event.eventType == eventType &&
        strictEq (fields.lookup "decision") (some (.str decision))
    (decided "egress_allowed" "allow" || decided "egress_blocked" "drop") &&
      hasFlowCoalescingMetadata admission.identityId fields
  | _, _, _ => false

def isCoalesced (envelope : CriticalEventEnvelope) (admission : Admission)
    (call : IngestCall) : Bool :=
  decide (cfg.chainContinuity=.producerSubset true) && st.pendingUnpersistedSeq.isNone &&
    isCoalescible envelope admission && call.windowOpen

structure Ingest where
  state : ConsumerState
  effects : List Effect
  thrown : Option String

/-- A failed acknowledgement is noted and not rethrown. -/
def tryAck (operationContext : String) (link : Option ChainLink)
    (call : IngestCall) : List Effect × Option String :=
  match call.ack with
  | none => ([.ack link],none)
  | some err =>
    let recorded := record (ackFailedRow envelope.event operationContext err) call.ackAppend call.ackFlush
    (.ack link::recorded.1,recorded.2)

def recordThenAck (row : AuditRow) (operationContext : String)
    (link : Option ChainLink) (call : IngestCall) : List Effect × Option String :=
  match record row call.append call.flush with
  | (effects,some err) => (effects,some err)
  | (effects,none) =>
    let acked := tryAck envelope operationContext link call
    (effects++acked.1,acked.2)

/-- A refused live frame is acknowledged; a refused row of a durable log is not. -/
def refuse (reason : String) (call : IngestCall) :
    List Effect × Option String :=
  match record (producerSignatureRejectedRow envelope.event reason) call.append call.flush with
  | (effects,some err) => (effects,some err)
  | (effects,none) =>
    if envelope.producerDelivery=some .durableWal then (effects,some reason)
    else
      let acked := tryAck envelope "producer_signature_rejected" none call
      (effects++acked.1,some (acked.2.getD reason))

def persist (admission : Admission) (call : IngestCall) :
    List Effect × Option String :=
  let flushed (effects : List Effect) : List Effect × Option String :=
    match call.flush with
    | some err => (effects,some err)
    | none => (effects++[.flush],none)
  let row : Effect := .append admission.row (some admission.link)
  match call.append with
  | some err => ([],some err)
  | none =>
    if cfg.inboxBridge ∧ envelope.event.eventType = "egress_blocked" then
      match call.marker with
      | some err => ([row],some err)
      | none => flushed [row,.append (blockedEgressMarkerRow envelope.event admission.identityId) none]
    else flushed [row]

/-- An admitted event: coalesced, or persisted before the anchor moves and the acknowledgement goes out. -/
def acceptAdmitted (envelope : CriticalEventEnvelope) (admission : Admission)
    (call : IngestCall) : Ingest :=
  let link := admission.link
  if isCoalesced cfg st envelope admission call then
    let acked := tryAck envelope envelope.event.eventType (some link) call
    { state := st.anchoredAt link, effects := .accepted link::acked.1, thrown := acked.2 }
  else
    match persist cfg envelope admission call with
    | (effects,some err) =>
      -- The owed number is remembered; neither the anchor nor the acknowledgement moves.
      let recorded := record (persistenceFailureRow envelope.event err) call.failureAppend call.failureFlush
      { state := { st with pendingUnpersistedSeq := some link.seq }
        effects := effects++recorded.1
        thrown := some err }
    | (effects,none) =>
      let acked := tryAck envelope envelope.event.eventType (some link) call
      { state := { st.anchoredAt link with pendingUnpersistedSeq := none }
        effects := effects++.accepted link::acked.1
        thrown := acked.2 }

def settle (envelope : CriticalEventEnvelope) (call : IngestCall) :
    Verdict → Ingest
  | .invalid reason =>
    let r := recordThenAck envelope (eventRejectedRow env envelope.event reason) "audit_event_rejected" none call
    { state := st, effects := r.1, thrown := r.2 }
  | .uncanonical detail =>
    let r := recordThenAck envelope (canonicalizationFailedRow envelope.event detail) "audit_event_rejected"
      none call
    { state := st, effects := r.1, thrown := r.2 }
  | .refused reason =>
    let r := refuse envelope reason call
    { state := st, effects := r.1, thrown := r.2 }
  | .duplicate link =>
    let r := recordThenAck envelope (duplicateDroppedRow envelope.event) "critical_event_duplicate_dropped"
      (some link) call
    { state := st, effects := r.1, thrown := r.2 }
  | .broken reason =>
    let r := record (verificationFailureRow env envelope.event reason) call.append call.flush
    { state := st, effects := r.1, thrown := some (r.2.getD reason) }
  | .admitted admission => acceptAdmitted cfg st envelope admission call

def ingestOrderedCritical (envelope : CriticalEventEnvelope) (call : IngestCall) :
    Ingest :=
  match ensureChainAnchorRestored env cfg st call with
  | (st,effects,some err) => { state := st, effects, thrown := some err }
  | (st,effects,none) =>
    match st.chainMigrationUnavailableReason with
    | some _ => { state := st, effects, thrown := some "chain_migration_unavailable" }
    | none =>
      let r := settle env cfg st envelope call (examine env cfg st envelope call.now)
      { r with effects := effects++r.effects }

structure Delivery where
  envelope : CriticalEventEnvelope
  call : IngestCall

def consume : ConsumerState → List Delivery → ConsumerState × List Effect
  | st, [] => (st,[])
  | st, d::ds =>
    let r := ingestOrderedCritical env cfg st d.envelope d.call
    let rest := consume r.state ds
    (rest.1,r.effects++rest.2)

end Consumer

end CastleWall.Consumer
