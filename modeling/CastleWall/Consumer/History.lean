import CastleWall.Consumer.Reference
import CastleWall.Support.Trace
import Mathlib.Data.List.Chain

/-! # Runs of deliveries

What holds over every sequence of deliveries to one consumer: when an acknowledgement of an accepted event
goes out, how the accepted events chain, how often one is stored, and what an owed sequence number
blocks. -/

namespace CastleWall.Consumer

open Trace

namespace Effect

def anchor : Effect → Option ChainLink
  | restored anchor => some anchor
  | accepted event => some event
  | _ => none

/-- The event a row of the log stands for: one found there at the restore, or one appended. -/
def stored : Effect → Option ChainLink
  | restored anchor => some anchor
  | append _ event => event
  | _ => none

end Effect

def anchors (effects : List Effect) : List ChainLink := effects.filterMap Effect.anchor

def storedEvents (effects : List Effect) : List ChainLink := effects.filterMap Effect.stored

def Follows (earlier later : ChainLink) : Prop :=
  earlier.seq < later.seq ∧ later.prior=some earlier.hash

/-- The event was appended and then flushed, or its row was found in local history. -/
def Kept (past : List Effect) (link : ChainLink) : Prop :=
  ∃ kept : ChainLink, kept.seq=link.seq ∧ kept.hash=link.hash ∧
    (Effect.restored kept∈past ∨ ∃ row, [Effect.append row (some kept),.flush].Sublist past)

def AckHeld (past : List Effect) (e : Effect) : Prop := ∀ link, e=.ack (some link) → Kept past link

section Lists

variable {effects past more : List Effect}

theorem anchors_append : anchors (past++more)=anchors past++anchors more := List.filterMap_append

theorem storedEvents_append : storedEvents (past++more)=storedEvents past++storedEvents more :=
  List.filterMap_append

theorem Quiet.anchors (h : Quiet effects) : anchors effects=[] := by
  apply List.filterMap_eq_nil_iff.mpr
  intro e he
  have hqui := h e he
  cases e <;> first | rfl | exact absurd hqui id

theorem Quiet.storedEvents (h : Quiet effects) : storedEvents effects=[] := by
  apply List.filterMap_eq_nil_iff.mpr
  intro e he
  have hqui := h e he
  cases e <;> first | rfl | exact hqui | exact absurd hqui id

theorem Quiet.acksHeld (h : Quiet effects) (past : List Effect) : JustifiedFrom AckHeld past effects := by
  apply justifiedFrom_of_forall
  intro e he past link heq
  have hqui := h e he
  rw [heq] at hqui
  exact absurd hqui (by simp [Effect.Quiet])

theorem Kept.append {link : ChainLink} (h : Kept past link) (more : List Effect) :
    Kept (past++more) link := by
  obtain ⟨kept,hseq,hhas,hres | ⟨row,hsub⟩⟩ := h
  · exact ⟨kept,hseq,hhas,Or.inl (List.mem_append_left more hres)⟩
  · exact ⟨kept,hseq,hhas,Or.inr ⟨row,hsub.trans (List.sublist_append_left past more)⟩⟩

theorem kept_of_flushed (row : AuditRow) (link : ChainLink) (rows : List Effect) :
    Kept (past++.append row (some link)::(rows++[.flush])) link := by
  refine ⟨link,rfl,rfl,Or.inr ⟨row,?_⟩⟩
  have hrow : [Effect.append row (some link),.flush].Sublist (.append row (some link)::(rows++[.flush])) := by
    rw [List.cons_sublist_cons]
    exact List.sublist_append_right rows [.flush]
  exact hrow.trans (List.sublist_append_right past _)

end Lists

structure Consistent (st : ConsumerState) (past : List Effect) : Prop where
  unrestored : st.restoreSettled=false → anchors past=[]
  seq : (anchors past).getLast?.map ChainLink.seq=st.lastAckedSeq
  hash : (anchors past).getLast?.map ChainLink.hash=st.lastEventChainHash
  chained : (anchors past).IsChain Follows
  kept : ∀ a∈anchors past, Kept past a
  acks : JustifiedFrom AckHeld [] past

theorem consistent_fresh : Consistent .fresh [] where
  unrestored _ := rfl
  seq := rfl
  hash := rfl
  chained := List.IsChain.nil
  kept _ ha := absurd ha List.not_mem_nil
  acks := trivial

section Step

variable {cfg : ConsumerConfig} {st st' : ConsumerState} {past effects : List Effect}

/-- Effects that move no anchor, with every acknowledgement in them held. -/
theorem Consistent.still (h : Consistent st past) (hseq : st'.lastAckedSeq=st.lastAckedSeq)
    (hhas : st'.lastEventChainHash=st.lastEventChainHash)
    (hset : st.restoreSettled=true → st'.restoreSettled=true) (hanc : anchors effects=[])
    (hack : JustifiedFrom AckHeld past effects) : Consistent st' (past++effects) where
  unrestored hope := by
    rw [anchors_append,hanc,List.append_nil]
    apply h.unrestored
    cases hst : st.restoreSettled with
    | false => rfl
    | true => exact absurd (hset hst) (by simp [hope])
  seq := by rw [anchors_append,hanc,List.append_nil,h.seq,hseq]
  hash := by rw [anchors_append,hanc,List.append_nil,h.hash,hhas]
  chained := by
    rw [anchors_append,hanc,List.append_nil]
    exact h.chained
  kept a ha := by
    rw [anchors_append,hanc,List.append_nil] at ha
    exact (h.kept a ha).append effects
  acks := justifiedFrom_append.mpr ⟨h.acks,by simpa using hack⟩

theorem Consistent.moved (h : Consistent st past) {link : ChainLink} (hanc : anchors effects=[link])
    (hfol : ∀ a, (anchors past).getLast? = some a → Follows a link) (hkep : Kept (past++effects) link)
    (hseq : st'.lastAckedSeq=some link.seq) (hhas : st'.lastEventChainHash=some link.hash)
    (hset : st'.restoreSettled=true)
    (hack : JustifiedFrom AckHeld past effects) : Consistent st' (past++effects) where
  unrestored hope := absurd hset (by simp [hope])
  seq := by rw [anchors_append,hanc,List.getLast?_concat,hseq,Option.map_some]
  hash := by rw [anchors_append,hanc,List.getLast?_concat,hhas,Option.map_some]
  chained := by
    rw [anchors_append,hanc,List.isChain_append]
    refine ⟨h.chained,List.isChain_singleton link,fun a ha b hb => ?_⟩
    rw [List.head?_cons,Option.mem_some_iff] at hb
    rw [← hb]
    exact hfol a ha
  kept a ha := by
    rw [anchors_append,hanc] at ha
    rcases List.mem_append.mp ha with ha | ha
    · exact (h.kept a ha).append effects
    · rw [List.mem_singleton.mp ha]
      exact hkep
  acks := justifiedFrom_append.mpr ⟨h.acks,by simpa using hack⟩

theorem Consistent.kept_anchor (h : Consistent st past) {link : ChainLink}
    (hseq : st.lastAckedSeq=some link.seq) (hhas : st.lastEventChainHash=some link.hash) :
    Kept past link := by
  have hlat := h.seq.trans hseq
  have hlas := h.hash.trans hhas
  cases ha : (anchors past).getLast? with
  | none =>
    rw [ha] at hlat
    cases hlat
  | some a =>
    rw [ha,Option.map_some,Option.some.injEq] at hlat hlas
    obtain ⟨kept,hkse,hkha,hkep⟩ := h.kept a (List.mem_of_getLast? ha)
    exact ⟨kept,hkse.trans hlat,hkha.trans hlas,hkep⟩

theorem consistent_restored {failed : Option String} (h : Consistent st past)
    (hres : Restored true st (st',effects,failed)) : Consistent st' (past++effects) := by
  cases hres with
  | kept hseq hhas _ hsta heff =>
    exact h.still hseq hhas hsta heff.anchors (heff.acksHeld past)
  | @anchored effects anchor hope heff =>
    have hnone := h.unrestored hope
    have hanc : anchors (effects++[.restored anchor])=[anchor] := by
      rw [anchors_append,heff.anchors]
      rfl
    refine h.moved hanc ?_ ⟨anchor,rfl,rfl,Or.inl (by simp)⟩ rfl rfl rfl ?_
    · intro a ha
      rw [hnone] at ha
      cases ha
    · refine justifiedFrom_append.mpr ⟨heff.acksHeld past,?_,trivial⟩
      intro link heq
      cases heq

/-- The event is kept by the time the anchor moves to it and its acknowledgement goes out. -/
theorem acksHeld_accepted (row : AuditRow) (link : ChainLink) {rows notes : List Effect} (hrow : Quiet rows)
    (hnot : Quiet notes) (past : List Effect) :
    JustifiedFrom AckHeld past (.append row (some link)::(rows++[.flush]) ++
      .accepted link::.ack (some link)::notes) := by
  have hkep : Kept (past++.append row (some link)::(rows++[.flush])) link :=
    kept_of_flushed row link rows
  have hoth : ∀ past e, (∀ l, e≠Effect.ack (some l)) → AckHeld past e :=
    fun past e hne l heq => absurd heq (hne l)
  refine justifiedFrom_append.mpr ⟨⟨hoth _ _ (by simp),?_⟩,hoth _ _ (by simp),?_,?_⟩
  · exact justifiedFrom_append.mpr ⟨hrow.acksHeld _,hoth _ _ (by simp),trivial⟩
  · intro l heq
    obtain rfl := Option.some.inj (Effect.ack.inj heq)
    exact hkep.append _
  · exact hnot.acksHeld _

theorem consistent_settled {envelope : CriticalEventEnvelope} {call : IngestCall} {r : Ingest}
    (hcom : cfg.chainContinuity=.complete) (h : Consistent st past)
    (hset : st.restoreSettled=true) (hr : Settled cfg st envelope call r) :
    Consistent r.state (past++r.effects) := by
  cases hr with
  | quiet heff => exact h.still rfl rfl id heff.anchors (heff.acksHeld past)
  | @duplicate pre notes thrown link hseq hhas hpre hnot =>
    have hanc : anchors (pre++.ack (some link)::notes)=[] := by
      rw [anchors_append,hpre.anchors,List.nil_append,anchors,List.filterMap_cons]
      exact hnot.anchors
    refine h.still rfl rfl id hanc (justifiedFrom_append.mpr ⟨hpre.acksHeld past,?_,?_⟩)
    · intro l heq
      obtain rfl := Option.some.inj (Effect.ack.inj heq)
      exact (h.kept_anchor hseq hhas).append pre
    · exact hnot.acksHeld _
  | @owed rows notes err admission hcon hfie hrow hnot =>
    have hsti : anchors rows=[] ∧ ∀ past, JustifiedFrom AckHeld past rows := by
      rcases hrow with rfl | ⟨-,rfl⟩
      · exact ⟨rfl,fun _ => trivial⟩
      · exact ⟨rfl,fun _ => ⟨fun l heq => (by cases heq),trivial⟩⟩
    refine h.still rfl rfl id ?_ (justifiedFrom_append.mpr ⟨hsti.2 past,hnot.acksHeld _⟩)
    rw [anchors_append,hsti.1,hnot.anchors,List.append_nil]
  | @accepted rows notes thrown admission hcon hfie hrow hnot =>
    have hanc : anchors (.append admission.row (some admission.link)::(rows++[.flush]) ++
        .accepted admission.link::.ack (some admission.link)::notes)=[admission.link] := by
      have hfro : anchors (.append admission.row (some admission.link)::(rows++[.flush]))=[] := by
        rw [anchors,List.filterMap_cons]
        change anchors (rows++[.flush])=[]
        rw [anchors_append,hrow.anchors]
        rfl
      rw [anchors_append,hfro,List.nil_append]
      change admission.link::anchors notes=[admission.link]
      rw [hnot.anchors]
    refine h.moved hanc ?_ ?_ rfl rfl hset (acksHeld_accepted _ _ hrow hnot past)
    · intro a ha
      have hseq := h.seq
      have hhas := h.hash
      rw [ha,Option.map_some] at hseq hhas
      exact ⟨hcon.above _ hseq.symm,hcon.linked hcom _ hhas.symm⟩
    · rw [← List.append_assoc]
      exact (kept_of_flushed admission.row admission.link rows).append _
  | coalesced _ _ hsub _ _ =>
    rw [hcom] at hsub
    cases hsub

theorem consistent_ingest (env : ConsumerEnv) (hcom : cfg.chainContinuity=.complete) (h : Consistent st past)
    (d : Delivery) :
    Consistent (ingestOrderedCritical env cfg st d.envelope d.call).state
      (past++(ingestOrderedCritical env cfg st d.envelope d.call).effects) := by
  obtain ⟨st',effects,failed,hres,⟨thrown,heq⟩ | ⟨hset,r,hr,heq⟩⟩ :=
    ingest_cases env cfg st d.envelope d.call
  · rw [heq]
    exact consistent_restored h hres
  · rw [heq]
    change Consistent r.state (past++(effects++r.effects))
    rw [← List.append_assoc]
    exact consistent_settled hcom (consistent_restored h hres) hset hr

theorem consistent_consume (env : ConsumerEnv) (hcom : cfg.chainContinuity=.complete)
    (deliveries : List Delivery) :
    ∀ (st : ConsumerState) (past : List Effect), Consistent st past →
      Consistent (consume env cfg st deliveries).1 (past++(consume env cfg st deliveries).2) := by
  induction deliveries with
  | nil =>
    intro st past h
    rw [consume,List.append_nil]
    exact h
  | cons d ds ih =>
    intro st past h
    have hnex := ih _ _ (consistent_ingest env hcom h d)
    rw [List.append_assoc] at hnex
    exact hnex

theorem storedEvents_ingest (env : ConsumerEnv) (hcom : cfg.chainContinuity=.complete)
    (st : ConsumerState) (d : Delivery) (hwho : d.call.Whole) :
    storedEvents (ingestOrderedCritical env cfg st d.envelope d.call).effects =
      anchors (ingestOrderedCritical env cfg st d.envelope d.call).effects := by
  have hres : ∀ {st' : ConsumerState} {effects : List Effect} {failed : Option String},
      Restored true st (st',effects,failed) → storedEvents effects=anchors effects := by
    intro st' effects failed hred
    cases hred with
    | kept _ _ _ _ heff => rw [heff.storedEvents,heff.anchors]
    | anchored anchor _ heff =>
      rw [storedEvents_append,anchors_append,heff.storedEvents,heff.anchors]
      rfl
  obtain ⟨st',effects,failed,hred,⟨thrown,heq⟩ | ⟨hset,r,hr,heq⟩⟩ :=
    ingest_cases env cfg st d.envelope d.call
  · rw [heq]
    exact hres hred
  · rw [heq]
    change storedEvents (effects++r.effects)=anchors (effects++r.effects)
    rw [storedEvents_append,anchors_append,hres hred]
    congr 1
    cases hr with
    | quiet heff => rw [heff.storedEvents,heff.anchors]
    | @duplicate pre notes thrown link _ _ hpre hnot =>
      rw [storedEvents_append,anchors_append,hpre.storedEvents,hpre.anchors]
      change storedEvents notes=anchors notes
      rw [hnot.storedEvents,hnot.anchors]
    | owed admission _ _ hrow hnot =>
      rcases hrow with rfl | ⟨hbro,-⟩
      · rw [List.nil_append,hnot.storedEvents,hnot.anchors]
      · exact absurd hwho hbro
    | @accepted rows notes thrown admission _ _ hrow hnot =>
      rw [storedEvents_append,anchors_append]
      change (admission.link::storedEvents (rows++[.flush]))++storedEvents notes =
        anchors (rows++[.flush])++admission.link::anchors notes
      rw [storedEvents_append,anchors_append,hrow.storedEvents,hrow.anchors,hnot.storedEvents,
        hnot.anchors]
      rfl
    | coalesced _ _ hsub _ _ =>
      rw [hcom] at hsub
      cases hsub

theorem storedEvents_consume (env : ConsumerEnv) (hcom : cfg.chainContinuity=.complete)
    (deliveries : List Delivery) (hwho : ∀ d∈deliveries, d.call.Whole) (st : ConsumerState) :
    storedEvents (consume env cfg st deliveries).2=anchors (consume env cfg st deliveries).2 := by
  induction deliveries generalizing st with
  | nil => rfl
  | cons d ds ih =>
    rw [consume,storedEvents_append,anchors_append,
      storedEvents_ingest env hcom st d (hwho d List.mem_cons_self),
      ih fun d' hd' => hwho d' (List.mem_cons_of_mem d hd')]

end Step

/-- In every run of a complete consumer an accepted event is acknowledged only once it was appended and
flushed, the accepted events form one chain with increasing numbers, and none has a second row as long as
no flush or marker fails behind an event's own append. -/
theorem accepted_events_kept_chained_once (env : ConsumerEnv) (cfg : ConsumerConfig)
    (hcomplete : cfg.chainContinuity=.complete) (deliveries : List Delivery) :
    (∀ pre link post, (consume env cfg .fresh deliveries).2=pre++.ack (some link)::post →
        Kept pre link) ∧
      (anchors (consume env cfg .fresh deliveries).2).IsChain Follows ∧
      (∀ link∈anchors (consume env cfg .fresh deliveries).2,
        Kept (consume env cfg .fresh deliveries).2 link) ∧
      ((∀ d∈deliveries, d.call.Whole) →
        ((storedEvents (consume env cfg .fresh deliveries).2).map ChainLink.seq).Nodup) := by
  have h := consistent_consume env hcomplete deliveries .fresh [] consistent_fresh
  rw [List.nil_append] at h
  refine ⟨fun pre link post heq => h.acks.needs_of_eq heq link rfl,h.chained,h.kept,fun hwho => ?_⟩
  rw [storedEvents_consume env hcomplete deliveries hwho]
  have hsor : ((anchors (consume env cfg .fresh deliveries).2).map ChainLink.seq).IsChain (· < ·) := by
    rw [List.isChain_map ChainLink.seq]
    exact h.chained.imp fun a b hab => hab.1
  exact (List.isChain_iff_pairwise.mp hsor).imp fun hlt => ne_of_lt hlt

theorem first_event_kept_once :
    (anchors (consume referenceEnv (referenceConfig .complete) .fresh
      [⟨signedEnvelope "a" signatureA 3 none,referenceCall⟩]).2).map ChainLink.seq=[3] ∧
    ((storedEvents (consume referenceEnv (referenceConfig .complete) .fresh
      [⟨signedEnvelope "a" signatureA 3 none,referenceCall⟩]).2).map ChainLink.seq).Nodup := by
  have h := accepted_events_kept_chained_once referenceEnv (referenceConfig .complete) rfl
    [⟨signedEnvelope "a" signatureA 3 none,referenceCall⟩]
  refine ⟨?_,h.2.2.2 (by simp [IngestCall.Whole,referenceCall, IngestCall.clean])⟩
  obtain ⟨admission,-,hper,-⟩ := ingest_signedEnvelope .complete .fresh "a" signatureA 3 none
    referenceCall rfl rfl (by decide) (Or.inl rfl) rfl rfl
  obtain ⟨-,heff⟩ := hper rfl
  rw [consume,consume,heff]
  rfl

/-- A flush that fails behind the event's append leaves the row, and the event delivered again is stored a
second time. -/
theorem event_stored_twice :
    (storedEvents (consume referenceEnv (referenceConfig .complete) .fresh
      [⟨signedEnvelope "a" signatureA 3 none,{ referenceCall with flush := some "EIO" }⟩,
        ⟨signedEnvelope "a" signatureA 3 none,referenceCall⟩]).2) =
      [eventLink "a" 3 none,eventLink "a" 3 none] := by
  obtain ⟨first,hfir,-,hfai⟩ := ingest_signedEnvelope .complete .fresh "a" signatureA 3 none
    { referenceCall with flush := some "EIO" } rfl rfl (by decide) (Or.inl rfl) rfl rfl
  obtain ⟨hsta,⟨notes,heff,hnot⟩,-⟩ := hfai "EIO" rfl
  have hfit : Fits .complete
      { ConsumerState.fresh with restoreSettled := true, pendingUnpersistedSeq := some 3 } "a" 3 none :=
    Or.inl rfl
  obtain ⟨second,hsec,hper,-⟩ := ingest_signedEnvelope .complete _ "a" signatureA 3 none
    referenceCall rfl rfl (by decide) hfit rfl rfl
  obtain ⟨-,haga⟩ := hper rfl
  rw [consume,consume,consume,hsta,heff,haga,storedEvents_append,storedEvents_append,
    hnot.storedEvents]
  change [first.link,second.link]=_
  rw [hfir,hsec]

namespace Effect

def event : Effect → Option ChainLink
  | append _ event => event
  | accepted event => some event
  | ack event => event
  | _ => none

end Effect

/-- The event names the hash of the anchor, when there is one; only the subset composition takes others. -/
def Adjacent (cfg : ConsumerConfig) (st : ConsumerState) (envelope : CriticalEventEnvelope) : Prop :=
  cfg.chainContinuity=.complete ∨ ∀ hash seq prior, st.lastEventChainHash=some hash →
    chainFields envelope.event=some (seq,prior) → prior=some hash

/-- The consumer owes a number up to `n` above its anchor. -/
structure Owing (n : Int) (anchorHash : Option String) (st : ConsumerState) : Prop where
  settled : st.restoreSettled=true
  hash : st.lastEventChainHash=anchorHash
  above : ∀ seq, st.lastAckedSeq=some seq → seq < n
  owed : ∃ m ≤ n, st.pendingUnpersistedSeq=some m

section Owed

variable {env : ConsumerEnv} {cfg : ConsumerConfig} {st st' : ConsumerState} {n : Int}

theorem Quiet.event {effects : List Effect} (h : Quiet effects) : ∀ e∈effects, e.event=none := by
  intro e he
  have hqui := h e he
  cases e <;> first | rfl | exact hqui | exact absurd hqui id

/-- A settled restore is not done again. -/
theorem Restored.of_settled {effects : List Effect} {failed : Option String}
    (h : Restored true st (st',effects,failed)) (hset : st.restoreSettled=true) :
    st'.lastAckedSeq=st.lastAckedSeq ∧ st'.lastEventChainHash=st.lastEventChainHash ∧
      st'.pendingUnpersistedSeq=st.pendingUnpersistedSeq ∧ st'.restoreSettled=true ∧ Quiet effects := by
  cases h with
  | kept hseq hhas hpen hsta heff => exact ⟨hseq,hhas,hpen,hsta hset,heff⟩
  | anchored _ hope _ => exact absurd hset (by simp [hope])

theorem ingest_of_failsToPersist {d : Delivery} (h : failsToPersist env cfg st d=some n) :
    ∃ st' link, st'.restoreSettled=true ∧ Continues cfg st' link ∧ link.seq=n ∧
      (ingestOrderedCritical env cfg st d.envelope d.call).state =
        { st' with pendingUnpersistedSeq := some n } := by
  unfold failsToPersist at h
  cases hres : ensureChainAnchorRestored env cfg st d.call with
  | mk st' rest =>
    obtain ⟨effects,failed⟩ := rest
    rw [hres] at h
    cases failed with
    | some err => cases h
    | none =>
      have hset := (ensureChainAnchorRestored_restored hres).2 rfl
      cases hrea : st'.chainMigrationUnavailableReason with
      | some reason => simp [hrea] at h
      | none =>
        cases hexa : examine env cfg st' d.envelope d.call.now with
        | admitted admission =>
          simp only [hrea,hexa] at h
          by_cases hcoa : isCoalesced cfg st' d.envelope admission d.call=true
          · simp [hcoa] at h
          · rw [if_neg hcoa] at h
            cases hper : persist cfg d.envelope admission d.call with
            | mk rows failed =>
              rw [hper] at h
              cases failed with
              | none => cases h
              | some err =>
                have hseq : admission.link.seq=n := Option.some.inj h
                refine ⟨st',admission.link,hset,(examine_admitted hexa).1,hseq,?_⟩
                rw [← hseq]
                simp only [ingestOrderedCritical,hres,hrea,hexa,settle,acceptAdmitted,
                  if_neg hcoa,hper]
        | invalid reason => simp [hrea,hexa] at h
        | uncanonical detail => simp [hrea,hexa] at h
        | refused reason => simp [hrea,hexa] at h
        | duplicate link => simp [hrea,hexa] at h
        | broken reason => simp [hrea,hexa] at h

theorem owing_of_failsToPersist {d : Delivery} (h : failsToPersist env cfg st d=some n) :
    Owing n (ingestOrderedCritical env cfg st d.envelope d.call).state.lastEventChainHash
      (ingestOrderedCritical env cfg st d.envelope d.call).state := by
  obtain ⟨st',link,hset,hcon,hseq,hsta⟩ := ingest_of_failsToPersist h
  rw [hsta]
  refine ⟨hset,rfl,fun seq hlas => ?_,n,le_refl n,rfl⟩
  rw [← hseq]
  exact hcon.above seq hlas

variable {anchorHash : Option String}

/-- While a number is owed, an adjacent delivery stores, accepts and acknowledges nothing above it; and it
is owed still unless the delivery is accepted. -/
theorem owing_settled {envelope : CriticalEventEnvelope} {call : IngestCall}
    {r : Ingest} (h : Owing n anchorHash st) (hadj : Adjacent cfg st envelope)
    (hr : Settled cfg st envelope call r) :
    (∀ e∈r.effects, ∀ link, e.event=some link → link.seq ≤ n) ∧
      ((∀ link, Effect.accepted link∉r.effects) → Owing n anchorHash r.state) := by
  obtain ⟨m,hm,hpen⟩ := h.owed
  have hbound : ∀ link : ChainLink, Continues cfg st link →
      chainFields envelope.event=some (link.seq,link.prior) → link.seq ≤ n := by
    intro link hcon hfie
    refine le_trans (hcon.owed (fun hsom => ?_) m hpen) hm
    obtain ⟨hash,hhas⟩ := Option.isSome_iff_exists.mp hsom
    rw [hhas]
    rcases hadj with hcom | hpri
    · exact hcon.linked hcom hash hhas
    · exact hpri hash link.seq link.prior hhas hfie
  have hqui : ∀ effects : List Effect, Quiet effects →
      ∀ e∈effects, ∀ link, e.event=some link → link.seq ≤ n := by
    intro effects hqut e he link heq
    rw [hqut.event e he] at heq
    cases heq
  cases hr with
  | quiet heff => exact ⟨hqui _ heff,fun _ => h⟩
  | @duplicate pre notes thrown link hseq hhas hpre hnot =>
    refine ⟨fun e he l heq => ?_,fun _ => h⟩
    simp only [List.mem_append,List.mem_cons] at he
    rcases he with he | rfl | he
    · exact hqui pre hpre e he l heq
    · obtain rfl := Option.some.inj heq
      exact le_of_lt (h.above _ hseq)
    · exact hqui notes hnot e he l heq
  | @owed rows notes err admission hcon hfie hrow hnot =>
    have hlin := hbound admission.link hcon hfie
    refine ⟨fun e he l heq => ?_,fun _ => ⟨h.settled,h.hash,h.above,_,hlin,rfl⟩⟩
    rcases List.mem_append.mp he with he | he
    · rcases hrow with rfl | ⟨-,rfl⟩
      · cases he
      · rw [List.mem_singleton.mp he] at heq
        obtain rfl := Option.some.inj heq
        exact hlin
    · exact hqui notes hnot e he l heq
  | @accepted rows notes thrown admission hcon hfie hrow hnot =>
    have hlin := hbound admission.link hcon hfie
    refine ⟨fun e he l heq => ?_,fun hnone => absurd ?_ (hnone admission.link)⟩
    · simp only [List.cons_append,List.append_assoc,List.mem_cons,List.mem_append] at he
      rcases he with rfl | he | rfl | he | rfl | rfl | he
      · obtain rfl := Option.some.inj heq
        exact hlin
      · exact hqui rows hrow e he l heq
      · cases heq
      · cases he
      · obtain rfl := Option.some.inj heq
        exact hlin
      · obtain rfl := Option.some.inj heq
        exact hlin
      · exact hqui notes hnot e he l heq
    · simp
  | coalesced _ _ _ hdeb _ =>
    rw [hpen] at hdeb
    cases hdeb

theorem owing_ingest (h : Owing n anchorHash st) (d : Delivery)
    (hadj : Adjacent cfg st d.envelope) :
    (∀ e∈(ingestOrderedCritical env cfg st d.envelope d.call).effects, ∀ link, e.event=some link →
        link.seq ≤ n) ∧
      ((∀ link, Effect.accepted link∉(ingestOrderedCritical env cfg st d.envelope d.call).effects) →
        Owing n anchorHash (ingestOrderedCritical env cfg st d.envelope d.call).state) := by
  obtain ⟨st',effects,failed,hres,hend⟩ := ingest_cases env cfg st d.envelope d.call
  obtain ⟨hseq,hhas,hpen,hset,hqui⟩ := hres.of_settled h.settled
  have howi : Owing n anchorHash st' :=
    ⟨hset,hhas.trans h.hash,hseq ▸ h.above,by
      rw [hpen]
      exact h.owed⟩
  have hadj' : Adjacent cfg st' d.envelope := by
    rw [Adjacent,hhas]
    exact hadj
  have hree : ∀ e∈effects, ∀ link, e.event=some link → link.seq ≤ n := by
    intro e he link heq
    rw [hqui.event e he] at heq
    cases heq
  rcases hend with ⟨thrown,heq⟩ | ⟨-,r,hr,heq⟩
  · rw [heq]
    exact ⟨hree,fun _ => howi⟩
  · obtain ⟨hbound,hsti⟩ := owing_settled howi hadj' hr
    rw [heq]
    refine ⟨fun e he link hlin => ?_,fun hnone => hsti fun link hmem => ?_⟩
    · rcases List.mem_append.mp he with he | he
      · exact hree e he link hlin
      · exact hbound e he link hlin
    · exact hnone link (List.mem_append_right effects hmem)

theorem owing_consume (ds : List Delivery) :
    ∀ st : ConsumerState, Owing n anchorHash st →
      (∀ d∈ds, ∀ st : ConsumerState, st.lastEventChainHash=anchorHash → Adjacent cfg st d.envelope) →
      (∀ link, Effect.accepted link∉(consume env cfg st ds).2) →
      Owing n anchorHash (consume env cfg st ds).1 := by
  induction ds with
  | nil =>
    intro st h _ _
    exact h
  | cons d ds ih =>
    intro st h hadj hnone
    have hhea := (owing_ingest h d (hadj d List.mem_cons_self st h.hash)).2
      fun link hmem => hnone link (List.mem_append_left _ hmem)
    exact ih _ hhea (fun d' hd' => hadj d' (List.mem_cons_of_mem d hd'))
      fun link hmem => hnone link (List.mem_append_right _ hmem)

end Owed

def lostCall : IngestCall := { referenceCall with append := some "EIO" }

variable {continuity : ChainContinuity}

/-- An event of a type the consumer does not know. -/
def unknownEnvelope : CriticalEventEnvelope :=
  { signedEnvelope "c" signatureC 7 none with event := { signedEvent 7 none with eventType := "daemon_started" } }

private def anchoredA (owed : Option Int) : ConsumerState where
  lastAckedSeq := some 3
  lastEventChainHash := some hashA
  restoreSettled := true
  chainMigrationUnavailableReason := none
  pendingUnpersistedSeq := owed

end CastleWall.Consumer
