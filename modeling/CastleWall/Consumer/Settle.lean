import CastleWall.Consumer.Ingest

/-! # What one delivery can do

The ways a delivery ends, read off the consumer once: every result about runs of deliveries starts here. -/

namespace CastleWall.Consumer

/-- The effect neither stores an event, moves the anchor nor acknowledges an accepted event. -/
def Effect.Quiet : Effect → Prop
  | .append _ event => event=none
  | .flush => True
  | .restored _ => False
  | .accepted _ => False
  | .ack event => event=none

def Quiet (effects : List Effect) : Prop := ∀ e∈effects, e.Quiet

theorem quiet_append {xs ys : List Effect} : Quiet (xs++ys) ↔ Quiet xs ∧ Quiet ys := by
  simp only [Quiet,List.mem_append]
  constructor
  · intro h
    exact ⟨fun e he => h e (Or.inl he),fun e he => h e (Or.inr he)⟩
  · rintro ⟨hx,hy⟩ e (he | he)
    · exact hx e he
    · exact hy e he

theorem quiet_cons {x : Effect} {ys : List Effect} : Quiet (x::ys) ↔ x.Quiet ∧ Quiet ys := by
  simp [Quiet]

theorem quiet_nil : Quiet [] := by
  intro e he
  exact absurd he List.not_mem_nil

theorem quiet_record (row : AuditRow) (append flush : Option String) :
    Quiet (record row append flush).1 := by
  cases append <;> cases flush <;> simp [record,Quiet,Effect.Quiet]

theorem tryAck_eq (envelope : CriticalEventEnvelope) (operationContext : String) (link : Option ChainLink)
    (call : IngestCall) :
    ∃ notes, (tryAck envelope operationContext link call).1=.ack link::notes ∧ Quiet notes := by
  cases hack : call.ack with
  | none => exact ⟨[],by simp [tryAck,hack],quiet_nil⟩
  | some err =>
    refine ⟨(record (ackFailedRow envelope.event operationContext err) call.ackAppend call.ackFlush).1,?_,
      quiet_record _ _ _⟩
    simp [tryAck,hack]

theorem quiet_tryAck_none (envelope : CriticalEventEnvelope) (operationContext : String)
    (call : IngestCall) : Quiet (tryAck envelope operationContext none call).1 := by
  obtain ⟨notes,heq,hnot⟩ := tryAck_eq envelope operationContext none call
  rw [heq,quiet_cons]
  exact ⟨rfl,hnot⟩

theorem recordThenAck_eq (envelope : CriticalEventEnvelope) (row : AuditRow) (operationContext : String)
    (link : Option ChainLink) (call : IngestCall) :
    Quiet (recordThenAck envelope row operationContext link call).1 ∨
      ∃ pre notes, (recordThenAck envelope row operationContext link call).1=pre++.ack link::notes ∧
        Quiet pre ∧ Quiet notes := by
  have hqui := quiet_record row call.append call.flush
  cases hrec : record row call.append call.flush with
  | mk effects thrown =>
    rw [hrec] at hqui
    cases thrown with
    | some err =>
      left
      rw [recordThenAck,hrec]
      exact hqui
    | none =>
      right
      obtain ⟨notes,heq,hnot⟩ := tryAck_eq envelope operationContext link call
      refine ⟨effects,notes,?_,hqui,hnot⟩
      rw [recordThenAck,hrec]
      simp only
      rw [heq]

theorem quiet_recordThenAck_none (envelope : CriticalEventEnvelope) (row : AuditRow)
    (operationContext : String) (call : IngestCall) :
    Quiet (recordThenAck envelope row operationContext none call).1 := by
  rcases recordThenAck_eq envelope row operationContext none call with h | ⟨pre,notes,heq,hpre,hnot⟩
  · exact h
  · rw [heq,quiet_append,quiet_cons]
    exact ⟨hpre,rfl,hnot⟩

theorem quiet_refuse (envelope : CriticalEventEnvelope) (reason : String) (call : IngestCall) :
    Quiet (refuse envelope reason call).1 := by
  have hqui := quiet_record (producerSignatureRejectedRow envelope.event reason) call.append call.flush
  unfold refuse
  cases hrec : record (producerSignatureRejectedRow envelope.event reason) call.append call.flush with
  | mk effects thrown =>
    rw [hrec] at hqui
    cases thrown with
    | some err => exact hqui
    | none =>
      simp only
      split_ifs with hdur
      · exact hqui
      · exact quiet_append.mpr ⟨hqui,quiet_tryAck_none _ _ _⟩

namespace IngestCall

/-- Once the event's row is appended, neither the inbox marker nor the flush fails. -/
def Whole (call : IngestCall) : Prop := call.append=none → call.marker=none ∧ call.flush=none

instance (call : IngestCall) : Decidable call.Whole :=
  inferInstanceAs (Decidable (call.append=none → call.marker=none ∧ call.flush=none))

end IngestCall

section Persist

variable (cfg : ConsumerConfig) (envelope : CriticalEventEnvelope) (admission : Admission) (call : IngestCall)

theorem persist_ok {effects : List Effect} (h : persist cfg envelope admission call=(effects,none)) :
    ∃ notes, effects=.append admission.row (some admission.link)::(notes++[.flush]) ∧ Quiet notes := by
  unfold persist at h
  cases happ : call.append <;> cases hmar : call.marker <;> cases hflu : call.flush <;>
    simp only [happ,hmar,hflu] at h <;> (try split_ifs at h) <;> cases h
  · exact ⟨[.append (blockedEgressMarkerRow envelope.event admission.identityId) none],rfl,
      by simp [Quiet,Effect.Quiet]⟩
  · exact ⟨[],rfl,quiet_nil⟩
  · exact ⟨[],rfl,quiet_nil⟩

/-- A persist that fails stores the event at most once, and not at all in a whole call. -/
theorem persist_failed {effects : List Effect} {err : String}
    (h : persist cfg envelope admission call=(effects,some err)) :
    effects=[] ∨ ¬ call.Whole ∧
      ∃ notes, effects=.append admission.row (some admission.link)::notes ∧ Quiet notes := by
  unfold persist at h
  unfold IngestCall.Whole
  cases happ : call.append <;> cases hmar : call.marker <;> cases hflu : call.flush <;>
    simp only [happ,hmar,hflu] at h <;> (try split_ifs at h) <;> cases h <;>
    first
    | exact Or.inl rfl
    | exact Or.inr ⟨by simp,[],rfl,quiet_nil⟩
    | exact Or.inr ⟨by simp,[.append (blockedEgressMarkerRow envelope.event admission.identityId) none],rfl,
        by simp [Quiet,Effect.Quiet]⟩

end Persist

/-- The event continues the anchor, or (in the subset composition) a part of the chain that was not
received. -/
structure Continues (cfg : ConsumerConfig) (st : ConsumerState) (link : ChainLink) : Prop where
  above : ∀ seq, st.lastAckedSeq=some seq → seq < link.seq
  linked : cfg.chainContinuity=.complete → ∀ hash, st.lastEventChainHash=some hash →
    link.prior=some hash
  owed : (st.lastEventChainHash.isSome → link.prior=st.lastEventChainHash) →
    ∀ seq, st.pendingUnpersistedSeq=some seq → link.seq ≤ seq

theorem checkWalChain_continues {cfg : ConsumerConfig} {st : ConsumerState} {link : ChainLink}
    {verified : Bool} (h : checkWalChain cfg st link verified=.ok ∨
      checkWalChain cfg st link verified=.okGap) : Continues cfg st link := by
  unfold checkWalChain at h
  by_cases hseq : st.lastAckedSeq.any (link.seq ≤ ·)=true
  · rw [if_pos hseq] at h
    split_ifs at h <;> simp at h
  rw [if_neg hseq] at h
  have habo : ∀ seq, st.lastAckedSeq=some seq → seq < link.seq := by
    intro seq hlas
    rw [hlas] at hseq
    simpa using hseq
  split_ifs at h with hpri hgap howe
  · -- Across a gap: only the sequence number is checked.
    refine ⟨habo,fun hcom => absurd hcom hgap.1,fun hadj => ?_⟩
    exact absurd (hadj hpri.1) hpri.2
  · simp at h
  · simp at h
  · refine ⟨habo,fun _ hash hhas => ?_,fun _ seq hpen => ?_⟩
    · rw [hhas] at hpri
      simpa using hpri
    · rw [hpen] at howe
      simpa using howe

theorem checkWalChain_duplicate {cfg : ConsumerConfig} {st : ConsumerState} {link : ChainLink}
    {verified : Bool} (h : checkWalChain cfg st link verified=.duplicateReplay) :
    st.lastAckedSeq=some link.seq ∧ st.lastEventChainHash=some link.hash := by
  unfold checkWalChain at h
  split_ifs at h with hseq hdup
  exact hdup

section Examine

variable {env : ConsumerEnv} {cfg : ConsumerConfig} {st : ConsumerState} {envelope : CriticalEventEnvelope}

theorem examineSigned_admitted {canonicalHash : String} {outcome : SignatureOutcome}
    {admission : Admission} (h : examineSigned env cfg st envelope canonicalHash outcome=.admitted admission) :
    Continues cfg st admission.link ∧
      chainFields envelope.event=some (admission.link.seq,admission.link.prior) := by
  unfold examineSigned at h
  cases hfie : chainFields envelope.event with
  | none =>
    rw [hfie] at h
    cases h
  | some fields =>
    obtain ⟨seq,prior⟩ := fields
    rw [hfie] at h
    simp only at h
    cases hcha : checkWalChain cfg st
        { seq, prior, hash := (chainBasisFor env canonicalHash outcome).1 } outcome.isVerified with
    | duplicateReplay =>
      rw [hcha] at h
      cases h
    | error reason =>
      rw [hcha] at h
      cases h
    | ok =>
      rw [hcha] at h
      cases hide : persistedIdentityForEvent envelope outcome with
      | error reason =>
        rw [hide] at h
        cases h
      | ok identityId =>
        rw [hide] at h
        cases h
        exact ⟨checkWalChain_continues (Or.inl hcha),rfl⟩
    | okGap =>
      rw [hcha] at h
      cases hide : persistedIdentityForEvent envelope outcome with
      | error reason =>
        rw [hide] at h
        cases h
      | ok identityId =>
        rw [hide] at h
        cases h
        exact ⟨checkWalChain_continues (Or.inr hcha),rfl⟩

theorem examineSigned_duplicate {canonicalHash : String} {outcome : SignatureOutcome} {link : ChainLink}
    (h : examineSigned env cfg st envelope canonicalHash outcome=.duplicate link) :
    st.lastAckedSeq=some link.seq ∧ st.lastEventChainHash=some link.hash := by
  unfold examineSigned at h
  cases hfie : chainFields envelope.event with
  | none =>
    rw [hfie] at h
    cases h
  | some fields =>
    obtain ⟨seq,prior⟩ := fields
    rw [hfie] at h
    simp only at h
    cases hcha : checkWalChain cfg st
        { seq, prior, hash := (chainBasisFor env canonicalHash outcome).1 } outcome.isVerified with
    | duplicateReplay =>
      rw [hcha] at h
      cases h
      exact checkWalChain_duplicate hcha
    | error reason =>
      rw [hcha] at h
      cases h
    | ok | okGap =>
      rw [hcha] at h
      cases hide : persistedIdentityForEvent envelope outcome with
      | error reason =>
        rw [hide] at h
        cases h
      | ok identityId =>
        rw [hide] at h
        cases h

variable {now : Int}

theorem examine_signed {verdict : Verdict} (h : examine env cfg st envelope now=verdict)
    (hver : (∃ a, verdict=.admitted a) ∨ ∃ l, verdict=.duplicate l) :
    ∃ canonicalHash outcome, examineSigned env cfg st envelope canonicalHash outcome=verdict := by
  unfold examine at h
  cases hval : validateEvent envelope.event with
  | some reason =>
    rw [hval] at h
    rcases hver with ⟨a,rfl⟩ | ⟨l,rfl⟩ <;> cases h
  | none =>
    cases hhas : computeCanonicalHash env envelope.event with
    | error detail =>
      rw [hval,hhas] at h
      rcases hver with ⟨a,rfl⟩ | ⟨l,rfl⟩ <;> cases h
    | ok canonicalHash =>
      rw [hval,hhas] at h
      simp only at h
      split at h
      · rcases hver with ⟨a,rfl⟩ | ⟨l,rfl⟩ <;> cases h
      · exact ⟨canonicalHash,_,h⟩

theorem examine_admitted {admission : Admission}
    (h : examine env cfg st envelope now=.admitted admission) :
    Continues cfg st admission.link ∧
      chainFields envelope.event=some (admission.link.seq,admission.link.prior) := by
  obtain ⟨canonicalHash,outcome,hsig⟩ := examine_signed h (Or.inl ⟨admission,rfl⟩)
  exact examineSigned_admitted hsig

theorem examine_duplicate {link : ChainLink}
    (h : examine env cfg st envelope now=.duplicate link) :
    st.lastAckedSeq=some link.seq ∧ st.lastEventChainHash=some link.hash := by
  obtain ⟨canonicalHash,outcome,hsig⟩ := examine_signed h (Or.inr ⟨link,rfl⟩)
  exact examineSigned_duplicate hsig

end Examine

theorem examine_verified {env : ConsumerEnv} {cfg : ConsumerConfig} {st : ConsumerState}
    {envelope : CriticalEventEnvelope} {now seq : Int} {prior : Option String}
    {signature : VerifiedSignature} {identityId : String} (hval : validateEvent envelope.event=none)
    (hsaf : firstUnsafe (eventJson envelope.event)=none)
    (hsig : evaluateProducerSignature env cfg.windows cfg.pinnedProducerKeyB64url envelope now =
      .verified signature)
    (hfie : chainFields envelope.event=some (seq,prior))
    (hcha : checkWalChain cfg st
        { seq, prior, hash := computeSignedBodyHash env signature.eventCanonicalJson } true=.ok ∨
      checkWalChain cfg st
        { seq, prior, hash := computeSignedBodyHash env signature.eventCanonicalJson } true=.okGap)
    (hide : persistedIdentityForEvent envelope (.verified signature)=.ok identityId) :
    ∃ admission, examine env cfg st envelope now=.admitted admission ∧ admission.link =
        { seq, prior, hash := computeSignedBodyHash env signature.eventCanonicalJson } ∧
      admission.outcome=.verified signature := by
  have hhas : computeCanonicalHash env envelope.event =
      .ok (sha256Hex env (eventJson envelope.event).canonicalText) := by
    simp only [computeCanonicalHash,canonicalize,hsaf]
    rfl
  simp only [examine,hval,hhas,hsig,examineSigned,hfie,chainBasisFor,
    SignatureOutcome.isVerified]
  rcases hcha with hcha | hcha
  · simp only [hcha,hide]
    exact ⟨_,rfl,rfl,rfl⟩
  · simp only [hcha,hide]
    exact ⟨_,rfl,rfl,rfl⟩

inductive Settled (cfg : ConsumerConfig) (st : ConsumerState) (envelope : CriticalEventEnvelope)
    (call : IngestCall) : Ingest → Prop where
  /-- Refused, broken, or failed before anything counted. -/
  | quiet {effects : List Effect} {thrown : Option String} (heffects : Quiet effects) :
    Settled cfg st envelope call { state := st, effects, thrown }
  | duplicate {pre notes : List Effect} {thrown : Option String} (link : ChainLink)
    (hseq : st.lastAckedSeq=some link.seq) (hhash : st.lastEventChainHash=some link.hash)
    (hpre : Quiet pre) (hnotes : Quiet notes) :
    Settled cfg st envelope call { state := st, effects := pre++.ack (some link)::notes, thrown }
  /-- Admitted, and not persisted: the event's row may be left behind unless the call was whole. -/
  | owed {rows notes : List Effect} {err : String} (admission : Admission)
    (hcontinues : Continues cfg st admission.link)
    (hfields : chainFields envelope.event=some (admission.link.seq,admission.link.prior))
    (hrows : rows=[] ∨ ¬ call.Whole ∧
      rows=[.append admission.row (some admission.link)]) (hnotes : Quiet notes) :
    Settled cfg st envelope call
      { state := { st with pendingUnpersistedSeq := some admission.link.seq }
        effects := rows++notes
        thrown := some err }
  | accepted {rows notes : List Effect} {thrown : Option String} (admission : Admission)
    (hcontinues : Continues cfg st admission.link)
    (hfields : chainFields envelope.event=some (admission.link.seq,admission.link.prior))
    (hrows : Quiet rows) (hnotes : Quiet notes) :
    Settled cfg st envelope call
      { state := { st.anchoredAt admission.link with pendingUnpersistedSeq := none }
        effects := .append admission.row (some admission.link)::(rows++[.flush]) ++
          .accepted admission.link::.ack (some admission.link)::notes
        thrown }
  | coalesced {notes : List Effect} {thrown : Option String} (admission : Admission)
    (hcontinues : Continues cfg st admission.link)
    (hsubset : cfg.chainContinuity=.producerSubset true) (hdebt : st.pendingUnpersistedSeq=none)
    (hnotes : Quiet notes) :
    Settled cfg st envelope call
      { state := st.anchoredAt admission.link
        effects := .accepted admission.link::.ack (some admission.link)::notes
        thrown }

section Deliveries

variable {env : ConsumerEnv} {cfg : ConsumerConfig} {st : ConsumerState} {envelope : CriticalEventEnvelope}
  {call : IngestCall}

theorem isCoalesced_iff {admission : Admission} (h : isCoalesced cfg st envelope admission call=true) :
    cfg.chainContinuity=.producerSubset true ∧ st.pendingUnpersistedSeq=none := by
  simp only [isCoalesced,Bool.and_eq_true,decide_eq_true_eq,Option.isNone_iff_eq_none] at h
  exact ⟨h.1.1.1,h.1.1.2⟩

theorem acceptAdmitted_settled {admission : Admission} (hcon : Continues cfg st admission.link)
    (hfie : chainFields envelope.event=some (admission.link.seq,admission.link.prior)) :
    Settled cfg st envelope call (acceptAdmitted cfg st envelope admission call) := by
  unfold acceptAdmitted
  obtain ⟨notes,hack,hnot⟩ := tryAck_eq envelope envelope.event.eventType (some admission.link) call
  by_cases hcoa : isCoalesced cfg st envelope admission call=true
  · obtain ⟨hsub,hdeb⟩ := isCoalesced_iff hcoa
    rw [if_pos hcoa]
    simp only
    rw [hack]
    exact .coalesced admission hcon hsub hdeb hnot
  · rw [if_neg hcoa]
    cases hper : persist cfg envelope admission call with
    | mk effects thrown =>
      cases thrown with
      | none =>
        obtain ⟨rows,hrow,hqui⟩ := persist_ok cfg envelope admission call hper
        simp only
        rw [hack,hrow]
        exact .accepted admission hcon hfie hqui hnot
      | some err =>
        have hrec := quiet_record (persistenceFailureRow envelope.event err) call.failureAppend
          call.failureFlush
        simp only
        rcases persist_failed cfg envelope admission call hper with hnil | ⟨hwho,rows,hrow,hqui⟩
        · rw [hnil]
          exact @Settled.owed cfg st envelope call [] _ err admission hcon hfie (Or.inl rfl) hrec
        · rw [hrow,List.cons_append]
          exact @Settled.owed cfg st envelope call [_] _ err admission hcon hfie
            (Or.inr ⟨hwho,rfl⟩) (quiet_append.mpr ⟨hqui,hrec⟩)

theorem settle_settled :
    Settled cfg st envelope call (settle env cfg st envelope call (examine env cfg st envelope call.now)) := by
  cases hver : examine env cfg st envelope call.now with
  | invalid reason => exact .quiet (quiet_recordThenAck_none _ _ _ _)
  | uncanonical detail => exact .quiet (quiet_recordThenAck_none _ _ _ _)
  | refused reason => exact .quiet (quiet_refuse _ _ _)
  | broken reason => exact .quiet (quiet_record _ _ _)
  | duplicate link =>
    obtain ⟨hseq,hhas⟩ := examine_duplicate hver
    unfold settle
    rcases recordThenAck_eq envelope (duplicateDroppedRow envelope.event)
        "critical_event_duplicate_dropped" (some link) call with h | ⟨pre,notes,heq,hpre,hnot⟩
    · exact .quiet h
    · simp only
      rw [heq]
      exact .duplicate link hseq hhas hpre hnot
  | admitted admission =>
    obtain ⟨hcon,hfie⟩ := examine_admitted hver
    exact acceptAdmitted_settled hcon hfie

/-- What a restore leaves: the anchor as it was, or the one found in local history. -/
inductive Restored (settled : Bool) (st : ConsumerState) :
    ConsumerState × List Effect × Option String → Prop where
  | kept {st' : ConsumerState} {effects : List Effect} {thrown : Option String}
    (hseq : st'.lastAckedSeq=st.lastAckedSeq) (hhash : st'.lastEventChainHash=st.lastEventChainHash)
    (hpending : st'.pendingUnpersistedSeq=st.pendingUnpersistedSeq)
    (hsettled : st.restoreSettled=true → st'.restoreSettled=true) (heffects : Quiet effects) :
    Restored settled st (st',effects,thrown)
  | anchored {effects : List Effect} (anchor : ChainLink) (hopen : st.restoreSettled=false)
    (heffects : Quiet effects) :
    Restored settled st
      ({ st.anchoredAt anchor with restoreSettled := settled },effects++[.restored anchor],none)

theorem adoptAnchor_restored (hope : st.restoreSettled=false) (resolved : ResolvedProducerCursorAnchor) :
    Restored st.restoreSettled st (adoptAnchor st call resolved) := by
  cases resolved with
  | unavailable identityId reason => exact .kept rfl rfl rfl id (quiet_record _ _ _)
  | ok seq nextSeq hash chainBasis identityId =>
    have hqui := quiet_record (chainBasisMigratedRow seq hash chainBasis identityId) call.restoreAppend
      call.restoreFlush
    simp only [adoptAnchor]
    by_cases hbas : chainBasis=some ChainBasis.producerSignedBody.text
    · rw [if_pos hbas]
      exact @Restored.anchored st.restoreSettled st [] { seq, prior := none, hash } hope quiet_nil
    · rw [if_neg hbas]
      cases hrec : record (chainBasisMigratedRow seq hash chainBasis identityId) call.restoreAppend
          call.restoreFlush with
      | mk effects thrown =>
        rw [hrec] at hqui
        cases thrown with
        | some err => exact .kept rfl rfl rfl id hqui
        | none => exact .anchored { seq, prior := none, hash } hope hqui

theorem restoreChainAnchorOnce_restored (env : ConsumerEnv) (cfg : ConsumerConfig) (call : IngestCall)
    (hope : st.restoreSettled=false) :
    Restored st.restoreSettled st (restoreChainAnchorOnce env cfg st call) := by
  unfold restoreChainAnchorOnce
  split
  · split
    · exact .kept rfl rfl rfl id quiet_nil
    · exact .kept rfl rfl rfl id quiet_nil
    · exact adoptAnchor_restored hope _
  · exact .kept rfl rfl rfl id quiet_nil

theorem ensureChainAnchorRestored_restored {st' : ConsumerState} {effects : List Effect}
    {thrown : Option String} (h : ensureChainAnchorRestored env cfg st call=(st',effects,thrown)) :
    Restored true st (st',effects,thrown) ∧ (thrown=none → st'.restoreSettled=true) := by
  unfold ensureChainAnchorRestored at h
  by_cases hset : st.restoreSettled=true
  · rw [if_pos hset] at h
    cases h
    exact ⟨.kept rfl rfl rfl id quiet_nil,fun _ => hset⟩
  rw [if_neg hset] at h
  have hres := restoreChainAnchorOnce_restored env cfg call (by simpa using hset)
  generalize restoreChainAnchorOnce env cfg st call=result at h hres
  cases hres with
  | anchored anchor hope heff =>
    cases h
    exact ⟨.anchored anchor hope heff,fun _ => rfl⟩
  | @kept _ _ thrown₁ hseq hhas hpen hsta heff =>
    cases thrown₁ with
    | none =>
      cases h
      exact ⟨.kept hseq hhas hpen (fun _ => rfl) heff,fun _ => rfl⟩
    | some err =>
      cases h
      exact ⟨.kept hseq hhas hpen hsta heff,fun hnone => absurd hnone (by simp)⟩

theorem ensureChainAnchorRestored_unanchored (env : ConsumerEnv) {cfg : ConsumerConfig}
    (hsou : cfg.chainAnchorSource=false) (st : ConsumerState) (call : IngestCall) :
    ensureChainAnchorRestored env cfg st call=({ st with restoreSettled := true },[],none) := by
  unfold ensureChainAnchorRestored
  by_cases hset : st.restoreSettled=true
  · rw [if_pos hset,← hset]
  · simp only [if_neg hset,restoreChainAnchorOnce,hsou]

theorem ingest_cases (env : ConsumerEnv) (cfg : ConsumerConfig) (st : ConsumerState)
    (envelope : CriticalEventEnvelope) (call : IngestCall) :
    ∃ st' effects failed, Restored true st (st',effects,failed) ∧
      ((∃ thrown, ingestOrderedCritical env cfg st envelope call = { state := st', effects, thrown }) ∨
        st'.restoreSettled=true ∧ ∃ r, Settled cfg st' envelope call r ∧
          ingestOrderedCritical env cfg st envelope call = { r with effects := effects++r.effects }) := by
  cases hres : ensureChainAnchorRestored env cfg st call with
  | mk st' rest =>
    obtain ⟨effects,failed⟩ := rest
    obtain ⟨hred,hset⟩ := ensureChainAnchorRestored_restored hres
    refine ⟨st',effects,failed,hred,?_⟩
    unfold ingestOrderedCritical
    rw [hres]
    cases failed with
    | some err => exact Or.inl ⟨some err,rfl⟩
    | none =>
      simp only
      cases hrea : st'.chainMigrationUnavailableReason with
      | some reason => exact Or.inl ⟨some "chain_migration_unavailable",rfl⟩
      | none => exact Or.inr ⟨hset rfl,_,settle_settled,rfl⟩

end Deliveries

/-- The number of the delivered event, when it passes every check and is then not persisted. -/
def failsToPersist (env : ConsumerEnv) (cfg : ConsumerConfig) (st : ConsumerState) (d : Delivery) :
    Option Int :=
  match ensureChainAnchorRestored env cfg st d.call with
  | (st,_,none) =>
    match st.chainMigrationUnavailableReason, examine env cfg st d.envelope d.call.now with
    | none, .admitted admission =>
      if isCoalesced cfg st d.envelope admission d.call then none
      else (persist cfg d.envelope admission d.call).2.map fun _ => admission.link.seq
    | _, _ => none
  | _ => none

section Restored

variable {env : ConsumerEnv} {cfg : ConsumerConfig} {st st' : ConsumerState}
  {envelope : CriticalEventEnvelope} {call : IngestCall}

theorem ingest_settle {verdict : Verdict} (hres : ensureChainAnchorRestored env cfg st call=(st',[],none))
    (hrea : st'.chainMigrationUnavailableReason=none)
    (hexa : examine env cfg st' envelope call.now=verdict) :
    ingestOrderedCritical env cfg st envelope call=settle env cfg st' envelope call verdict := by
  simp only [ingestOrderedCritical,hres,hrea,hexa,List.nil_append]

/-- An admitted event goes to the sink, unless it is coalesced. -/
theorem ingest_admitted {admission : Admission}
    (hres : ensureChainAnchorRestored env cfg st call=(st',[],none))
    (hrea : st'.chainMigrationUnavailableReason=none)
    (hexa : examine env cfg st' envelope call.now=.admitted admission)
    (hcoa : isCoalesced cfg st' envelope admission call=false) :
    ingestOrderedCritical env cfg st envelope call=acceptAdmitted cfg st' envelope admission call ∧
      failsToPersist env cfg st ⟨envelope,call⟩ =
        (persist cfg envelope admission call).2.map fun _ => admission.link.seq := by
  refine ⟨ingest_settle hres hrea hexa,?_⟩
  simp only [failsToPersist,hres,hrea,hexa,hcoa,Bool.false_eq_true,if_false]

end Restored

end CastleWall.Consumer
