import CastleWall.Operational.AuditSigning

/-! # Crashes of the audit writers

Wherever an append, a checkpoint, a rotation or a load stops, the store it leaves is consistent. -/

namespace CastleWall.Operational

open AuditStore Process

variable {crypto : AuditCrypto}

namespace Consistent

variable {signing : Bool} {s : AuditStore}

theorem putEntry (h : Consistent crypto signing s) {e : PersistedAuditEnvelope}
    (he : EntryFits crypto s.history e) : Consistent crypto signing (s.putEntry e) where
  chain := by
    obtain ⟨pruned,hcha⟩ := h.chain
    exact ⟨pruned,hcha.append he⟩
  fresh hnil := absurd hnil (List.append_ne_nil_of_right_ne_nil _ (List.cons_ne_nil _ _))
  checkpoints := h.checkpoints.grow e
  control := h.control

theorem putHeadAnchor (h : Consistent crypto signing s) {i : Nat} {e : PersistedAuditEnvelope}
    (hi : s.history[i]? = some e) :
    Consistent crypto signing (s.putHeadAnchor (sealRecord crypto.headAnchorMac ⟨i+1,e.entryHash⟩)) where
  chain := by
    obtain ⟨pruned,hcha⟩ := h.chain
    exact ⟨pruned,hcha.anchorHead hi⟩
  fresh hnil := by
    change s.history=[] at hnil
    rw [hnil] at hi
    cases hi
  checkpoints := h.checkpoints
  control := h.control

theorem putEstablished (h : Consistent crypto signing s) (hne : s.history≠[]) :
    Consistent crypto signing s.putEstablished :=
  ⟨h.chain,fun hnil => absurd hnil hne,h.checkpoints,h.control⟩

theorem putSigningHead (h : Consistent crypto true s) (hne : s.history≠[]) {head : SigningHead}
    (hfit : SigningHeadFits (signedSequences s.checkpoints) head) :
    Consistent crypto true (s.putSigningHead (sealRecord crypto.signingHeadMac head)) :=
  ⟨h.chain,fun hnil => absurd hnil hne,h.checkpoints,h.control.putHead hfit⟩

theorem putSigningLatch (h : Consistent crypto true s) (hne : s.history≠[]) (hhea : s.signingHead≠none)
    {latch : SigningLatch} (hpos : 0 < latch.armedAtSequence)
    (hlat : ∀ c∈s.checkpoints, c.signed=none → c.checkpointSequence < latch.armedAtSequence) :
    Consistent crypto true (s.putSigningLatch (sealRecord crypto.signingLatchMac latch)) :=
  ⟨h.chain,fun hnil => absurd hnil hne,h.checkpoints,h.control.putLatch hhea hpos hlat⟩

theorem putCheckpoint (h : Consistent crypto signing s) {record : AuditCheckpointRecord}
    (hfit : CheckpointFits crypto s.history record)
    (hlas : ∀ c∈s.checkpoints, c.checkpointSequence < record.checkpointSequence)
    (hpre : 0 < record.previousCheckpointSequence →
      record.previousCheckpointSequence∈s.checkpoints.map (·.checkpointSequence))
    (hcon : SigningFits crypto signing (s.checkpoints++[record]) s.signingLatch s.signingHead) :
    Consistent crypto signing (s.putCheckpoint record) where
  chain := h.chain
  fresh hnil := by
    have hle := hfit.le_length
    have hfro := hfit.from_le
    have hpos := hfit.from_pos
    rw [show s.history=[] from hnil,List.length_nil] at hle
    omega
  checkpoints := by
    rw [putCheckpoint_checkpoints hlas]
    exact h.checkpoints.concat hfit hlas hpre
  control := by
    rw [putCheckpoint_checkpoints hlas]
    exact hcon

theorem history_ne_nil (h : Consistent crypto signing s) (hsig : signedSequences s.checkpoints≠[]) :
    s.history≠[] := by
  intro hnil
  rw [h.fresh hnil] at hsig
  exact hsig rfl

theorem sequence_pos (h : Consistent crypto signing s) {n : Nat} (hn : n∈signedSequences s.checkpoints) :
    0 < n := by
  obtain ⟨record,hrec,rfl⟩ := List.mem_map.mp hn
  have hfit := h.checkpoints.fits record (List.mem_of_mem_filter hrec)
  exact Nat.lt_of_lt_of_le hfit.from_pos hfit.from_le

end Consistent

structure Grows (s s' : AuditStore) : Prop where
  history : s.history <+: s'.history
  head : s.signingHead≠none → s'.signingHead≠none

theorem Grows.refl (s : AuditStore) : Grows s s := ⟨List.prefix_refl _,id⟩

/-- The memory of a process does not run ahead of the store. -/
structure Writer.Fits (s : AuditStore) (w : Writer) : Prop where
  pos : 0 < w.nextSequence
  next_le : w.nextSequence ≤ s.history.length+1
  known_le : w.knownHighWater ≤ s.history.length
  own_le : w.ownHighestPersistedSequence ≤ s.history.length
  fresh : s.history=[] → w.lastEntryHash=auditChainGenesis
  evidence : w.signingEvidenceSeen=true → s.signingHead≠none

theorem Writer.fits_new (s : AuditStore) : Writer.Fits s {} :=
  ⟨Nat.one_pos,Nat.le_add_left 1 _,Nat.zero_le _,Nat.zero_le _,fun _ => rfl,nofun⟩

theorem Writer.Fits.grow {s s' : AuditStore} {w : Writer} (h : w.Fits s) (hgro : Grows s s') : w.Fits s' := by
  have hlen := hgro.history.length_le
  refine ⟨h.pos,by have := h.next_le; omega,h.known_le.trans hlen,h.own_le.trans hlen,fun hnil => ?_,
    fun hsee => hgro.head (h.evidence hsee)⟩
  have hpre := hgro.history
  rw [hnil] at hpre
  exact h.fresh (List.prefix_nil.mp hpre)

/-- No operation is under way: the head anchor is written, the announced cut is made, the signing head is armed. -/
structure Settled (s : AuditStore) : Prop where
  anchored : ¬ FirstUnanchored s
  cut : ¬ CutUnmade s
  armed : s.signingHead≠none → s.signingLatch≠none

def Kept (crypto : AuditCrypto) (signing : Bool) (s s' : AuditStore) : Prop :=
  Consistent crypto signing s' ∧ Grows s s'

def Ended (s : AuditStore) (result : Except AuditRefusal Writer) (s' : AuditStore) : Prop :=
  (∀ w, result=.ok w → w.Fits s') ∧ (Settled s → Settled s')

section Discovery

variable {signing : Bool} {s : AuditStore} {pruned : Nat}

theorem ChainFits.binding_eq_none (h : ChainFits crypto pruned s.history s.entries s.headAnchor s.rotationAnchor) :
    assertWriterHeadAnchorBinding crypto s=none := by
  rw [assertWriterHeadAnchorBinding]
  cases hanc : s.headAnchor with
  | none =>
    have hrea : loadHeadAnchor crypto s=.absent := by
      rw [loadHeadAnchor,hanc]
      rfl
    rw [hrea]
  | some record =>
    obtain ⟨i,e,hi,hrea⟩ := h.loadHeadAnchor_eq hanc
    rw [hrea]
    dsimp only
    rw [h.entries_eq,h.chained.find_drop,Nat.add_sub_cancel,hi]
    by_cases hlt : pruned < i+1
    · rw [if_pos hlt]
      dsimp only
      rw [(h.chained.fits hi).entryHash]
      simp
    · -- The named entry is deleted, so a cut was made, and it is the entry before the cut or an earlier one.
      rw [if_neg hlt]
      dsimp only
      cases hrot : s.rotationAnchor with
      | none =>
        have hzer := h.uncut hrot
        omega
      | some record =>
        obtain ⟨j,e',hj,hget,hsea⟩ := h.cut record hrot
        rw [loadRotationAnchor,hrot,hsea,readSealed_sealRecord]
        dsimp only
        by_cases hnam : i+1+1=j+1
        · have hji : j=i+1 := by omega
          rw [hji] at hget
          rw [if_pos hnam,h.chained.prevHash hget hi]
          simp
        · rw [if_neg hnam,if_neg (by omega)]

theorem ChainFits.readLatest_found (h : ChainFits crypto pruned s.history s.entries s.headAnchor s.rotationAnchor)
    (hne : s.history≠[]) (w : Writer) :
    readLatestPersistedChainState crypto s w=.ok (.found s.history.length (tipHash s.history)) := by
  rw [readLatestPersistedChainState,h.getLast_eq]
  cases hlas : s.history.getLast? with
  | none => exact absurd (List.getLast?_eq_none_iff.mp hlas) hne
  | some e =>
    have hseq := h.sequence_getLast hlas
    have hhas : tipHash s.history=e.entryHash := by
      rw [tipHash,hlas]
      rfl
    dsimp only
    rw [hhas,hseq,h.binding_eq_none]
    cases hanc : s.headAnchor with
    | none =>
      have hrea : loadHeadAnchor crypto s=.absent := by
        rw [loadHeadAnchor,hanc]
        rfl
      rw [hrea]
    | some record =>
      obtain ⟨i,e',hi,hrea⟩ := h.loadHeadAnchor_eq hanc
      have hlt := (List.getElem?_eq_some_iff.mp hi).1
      rw [hrea]
      dsimp only
      rw [if_neg (by omega)]

theorem readLatest_eq (h : Consistent crypto signing s) {w : Writer} (hw : w.Fits s) :
    readLatestPersistedChainState crypto s w =
      .ok (if s.history=[] then .baseline else .found s.history.length (tipHash s.history)) := by
  obtain ⟨pruned,hcha⟩ := h.chain
  by_cases hnil : s.history=[]
  · have hlas : s.history.getLast? = none := by
      rw [hnil]
      rfl
    have hs := h.fresh hnil
    have hhea : loadHeadAnchor crypto s=.absent := by
      rw [hs]
      rfl
    have hnex : w.nextSequence - 1=0 := by
      have hle := hw.next_le
      rw [hnil,List.length_nil] at hle
      omega
    have hkno : w.knownHighWater=0 := by
      have hle := hw.known_le
      rw [hnil,List.length_nil] at hle
      omega
    have hest : isEstablishedAuditStore s false=false := by
      rw [hs]
      rfl
    rw [readLatestPersistedChainState,hcha.getLast_eq,hlas]
    simp [hhea,hnex,hkno,hest,hw.fresh hnil,hnil]
  · rw [if_neg hnil]
    exact hcha.readLatest_found hnil w

structure Fresh (s : AuditStore) (w : Writer) : Prop extends w.Fits s where
  next_eq : w.nextSequence=s.history.length+1
  last_eq : w.lastEntryHash=tipHash s.history

theorem safely_freshen (h : Consistent crypto signing s) {w : Writer} (hw : w.Fits s) {I : AuditStore → Prop}
    (hI : I s) :
    (freshenChainStateFromDisk crypto w).Safely I
      (fun r s' => ∃ w', r=.ok w' ∧ s'=s ∧ Fresh s w' ∧ w'.signingEvidenceSeen=w.signingEvidenceSeen) s := by
  unfold freshenChainStateFromDisk
  refine Safely.observe ?_
  rw [readLatest_eq h hw]
  by_cases hnil : s.history=[]
  · rw [if_pos hnil]
    refine ⟨hI,w,rfl,rfl,⟨hw,?_,?_⟩,rfl⟩
    · have hle := hw.next_le
      have hpos := hw.pos
      rw [hnil,List.length_nil] at hle ⊢
      omega
    · rw [hw.fresh hnil,hnil]
      rfl
  · rw [if_neg hnil]
    dsimp only
    rw [if_pos hw.next_le]
    refine ⟨hI,_,rfl,rfl,⟨⟨Nat.succ_pos _,Nat.le_refl _,?_,hw.own_le,fun hnil' => absurd hnil' hnil,
      hw.evidence⟩,rfl,rfl⟩,rfl⟩
    exact Nat.max_le.mpr ⟨hw.known_le,Nat.le_refl _⟩

end Discovery

section Append

variable {signing : Bool} {s : AuditStore}

theorem entryFits_envelopeOf (entry : AuditEntry) (nonce : Nat) (history : List PersistedAuditEnvelope) :
    EntryFits crypto history (envelopeOf crypto entry nonce (history.length+1) (tipHash history)) where
  sequence := rfl
  prevHash := rfl
  entryHash := rfl
  decrypts := by
    change (crypto.decrypt (crypto.encrypt entry nonce)).isSome
    rw [crypto.decrypt_encrypt]
    rfl

theorem Grows.putEntry (s : AuditStore) (e : PersistedAuditEnvelope) : Grows s (s.putEntry e) :=
  ⟨List.prefix_append _ _,id⟩

theorem cutUnmade_putEntry {pruned : Nat}
    (hcha : ChainFits crypto pruned s.history s.entries s.headAnchor s.rotationAnchor)
    {e : PersistedAuditEnvelope} (he : EntryFits crypto s.history e) (hcut : CutUnmade (s.putEntry e)) :
    CutUnmade s := by
  obtain ⟨first,rest,record,hent,hlow,hrot,hbas⟩ := hcut
  have hlt : ∀ b∈s.entries, b.sequence < e.sequence := by
    intro b hb
    have hle := hcha.sequence_le hb
    rw [he.sequence]
    omega
  change s.entries.orderedInsert _ e=first::rest at hent
  rw [orderedInsert_eq_concat hlt] at hent
  cases hs : s.entries with
  | nil =>
    have hlas := hcha.getLast_eq
    rw [hs] at hlas
    rw [hs,List.nil_append] at hent
    rw [← (List.cons.inj hent).1,he.sequence,List.getLast?_eq_none_iff.mp hlas.symm] at hlow
    exact absurd hlow (Nat.lt_irrefl _)
  | cons first' rest' =>
    rw [hs] at hent
    cases hent
    exact ⟨first,rest',record,hs,hlow,hrot,hbas⟩

theorem safely_persistChainedEntry (h : Consistent crypto signing s) {w : Writer} (hw : w.Fits s)
    (entry : AuditEntry) (nonce : Nat) :
    (persistChainedEntry crypto entry nonce w).Safely (Kept crypto signing s) (Ended s) s := by
  have hsta : Kept crypto signing s s := ⟨h,Grows.refl s⟩
  refine Safely.require (fun _ => ?_) fun _ => ⟨hsta,nofun,id⟩
  refine Safely.bind_ok (safely_freshen h hw hsta) fun w' s' _ hfre => ?_
  obtain ⟨rfl,hfrh,_⟩ := hfre
  have he : EntryFits crypto s'.history (envelopeOf crypto entry nonce w'.nextSequence w'.lastEntryHash) := by
    rw [hfrh.next_eq,hfrh.last_eq]
    exact entryFits_envelopeOf entry nonce s'.history
  generalize envelopeOf crypto entry nonce w'.nextSequence w'.lastEntryHash=e at he
  obtain ⟨pruned,hcha⟩ := h.chain
  have hlen : (s'.putEntry e).history.length=s'.history.length+1 := List.length_append
  have hgro := Grows.putEntry s' e
  have hput := h.putEntry he
  have hanc := hput.putHeadAnchor (i := s'.history.length) List.getElem?_concat_length
  rw [← he.sequence] at hanc
  have hest := hanc.putEstablished (List.append_ne_nil_of_right_ne_nil _ (List.cons_ne_nil _ _))
  dsimp only
  refine ⟨hsta,⟨hput,hgro⟩,⟨hanc,hgro.history,hgro.head⟩,
    ⟨hest,hgro.history,hgro.head⟩,?_,fun hset => ?_⟩
  · intro w'' hw''
    rw [← Except.ok.inj hw'']
    have hfit := hfrh.toFits.grow hgro
    have hle : e.sequence ≤ (s'.putEntry e).history.length := by rw [hlen,he.sequence]
    refine ⟨Nat.succ_pos _,Nat.succ_le_succ hle,Nat.max_le.mpr ⟨hfit.known_le,hle⟩,
      Nat.max_le.mpr ⟨hfit.own_le,hle⟩,fun hnil => ?_,hfit.evidence⟩
    exact absurd hnil (List.append_ne_nil_of_right_ne_nil _ (List.cons_ne_nil _ _))
  · refine ⟨fun hfir => ?_,fun hcut => hset.cut (cutUnmade_putEntry hcha he hcut),hset.armed⟩
    cases hfir.2

end Append

section Control

variable {s₀ s : AuditStore}

theorem safely_writeSigningHead (h : Kept crypto true s₀ s) (hne : s.history≠[]) {intent : SigningHeadIntent}
    (hine : IntentFits (signedSequences s.checkpoints) intent)
    (hpre : s.signingHead≠none ∨ intent.ensure=true) :
    (writeSigningHead crypto intent).Safely (Kept crypto true s₀)
      (fun r s' => ∃ written, r=.ok written ∧ ∃ record, s'=s.putSigningHead record) s := by
  have hput : ∀ head, SigningHeadFits (signedSequences s.checkpoints) head →
      Kept crypto true s₀ (s.putSigningHead (sealRecord crypto.signingHeadMac (mergeSigningHead head intent))) := by
    intro head hfit
    exact ⟨h.1.putSigningHead hne (hfit.merge hine),h.2.history,fun _ => nofun⟩
  unfold writeSigningHead
  refine Safely.observe ?_
  rcases h.1.head_cases with ⟨hnone,hrea⟩ | ⟨head,_,hrea,hfit⟩
  · have hens : intent.ensure=true := by
      rcases hpre with hsom | hens
      · exact absurd hnone hsom
      · exact hens
    rw [hrea]
    dsimp only
    rw [if_pos hens]
    exact ⟨h,hput _ (SigningHeadFits.zero _),true,rfl,_,rfl⟩
  · rw [hrea]
    exact ⟨h,hput head hfit,true,rfl,_,rfl⟩

theorem safely_writeSigningLatch (h : Kept crypto true s₀ s) (hne : s.history≠[]) (hhea : s.signingHead≠none)
    {latch : SigningLatch} (hpos : 0 < latch.armedAtSequence)
    (hlat : ∀ c∈s.checkpoints, c.signed=none → c.checkpointSequence < latch.armedAtSequence) :
    (writeSigningLatch crypto latch).Safely (Kept crypto true s₀)
      (fun r s' => ∃ written, r=.ok written ∧ (s.signingLatch=none → written=true) ∧
        ∃ record, s' = { s with signingLatch := some record }) s := by
  unfold writeSigningLatch
  refine Safely.observe ?_
  cases hrec : s.signingLatch with
  | none =>
    rw [readSigningLatch_none hrec]
    exact ⟨h,⟨h.1.putSigningLatch hne hhea hpos hlat,h.2.history,h.2.head⟩,true,rfl,fun _ => rfl,_,rfl⟩
  | some record =>
    obtain ⟨latch',hrea,_⟩ := h.1.latch_eq hrec
    rw [hrea]
    refine ⟨h,false,rfl,nofun,record,?_⟩
    rw [← hrec]

end Control

section Checkpoint

variable {signing : Bool} {s : AuditStore}

theorem rotationBase_eq {pruned : Nat}
    (hcha : ChainFits crypto pruned s.history s.entries s.headAnchor s.rotationAnchor) :
    pruned < max 1 (rotationBase crypto s) := by
  rw [rotationBase]
  cases hrot : s.rotationAnchor with
  | none =>
    rw [hcha.uncut hrot]
    exact Nat.lt_of_lt_of_le Nat.one_pos (Nat.le_max_left _ _)
  | some record =>
    obtain ⟨i,e,hi,_,hsea⟩ := hcha.cut record hrot
    rw [loadRotationAnchor,hrot,hsea,readSealed_sealRecord]
    dsimp only
    omega

theorem collect_eq {pruned : Nat}
    (hcha : ChainFits crypto pruned s.history s.entries s.headAnchor s.rotationAnchor) {fromSequence : Nat}
    (hfro : pruned < fromSequence) :
    collectPersistedEntryHashes s fromSequence s.history.length =
      some (rangeHashes s.history fromSequence s.history.length) := by
  have huni : ((List.range' fromSequence (s.history.length+1 - fromSequence)).any fun n =>
      decide (1 < (s.entries.map (·.sequence)).count n))=false := by
    rw [List.any_eq_false]
    intro n _
    rw [decide_eq_true_iff,Nat.not_lt,hcha.entries_eq]
    exact List.nodup_iff_count_le_one.mp (hcha.chained.nodup_drop pruned) n
  rw [collectPersistedEntryHashes,huni]
  exact mapM_eq_of_map (hcha.range_hashes hfro (Nat.le_refl _))

theorem le_readHighest {c : AuditCheckpointRecord} (hc : c∈s.checkpoints) :
    c.checkpointSequence ≤ readHighestAuditCheckpointSequence s :=
  List.le_max?_getD_of_mem (List.mem_map_of_mem hc)

theorem readHighest_mem (hpos : 0 < readHighestAuditCheckpointSequence s) :
    readHighestAuditCheckpointSequence s∈s.checkpoints.map (·.checkpointSequence) := by
  rw [readHighestAuditCheckpointSequence] at hpos ⊢
  cases hmax : (s.checkpoints.map (·.checkpointSequence)).max? with
  | none =>
    rw [hmax] at hpos
    exact absurd hpos (Nat.lt_irrefl 0)
  | some n => exact List.max?_mem hmax

variable {w : Writer} {payload : CheckpointPayload}

/-- A checkpoint taken by a process that knows the tip covers what was written since the last one. -/
theorem checkpointPayload_fits (h : Consistent crypto signing s) (hw : Fresh s w) {signedAt : String} (hpay : checkpointPayloadOf crypto s signedAt w=some payload)
    (signed : Option CheckpointSignature)
    (hsig : ∀ signature, signed=some signature → crypto.verify payload signature=true) :
    CheckpointFits crypto s.history ⟨payload,signed⟩ ∧
      (∀ c∈s.checkpoints, c.checkpointSequence < payload.checkpointSequence) ∧
      (0 < payload.previousCheckpointSequence →
        payload.previousCheckpointSequence∈s.checkpoints.map (·.checkpointSequence)) := by
  obtain ⟨pruned,hcha⟩ := h.chain
  have htip : max (w.nextSequence - 1) w.ownHighestPersistedSequence=s.history.length := by
    rw [hw.next_eq,Nat.add_sub_cancel]
    exact Nat.max_eq_left hw.own_le
  have hfro : pruned < max (readHighestAuditCheckpointSequence s+1) (rotationBase crypto s) := by
    have hbas := rotationBase_eq hcha
    omega
  have hpre : readHighestAuditCheckpointSequence s <
      max (readHighestAuditCheckpointSequence s+1) (rotationBase crypto s) := by omega
  rw [checkpointPayloadOf,htip] at hpay
  generalize max (readHighestAuditCheckpointSequence s+1) (rotationBase crypto s)=fromSequence at *
  rw [collect_eq hcha hfro] at hpay
  dsimp only at hpay
  split_ifs at hpay with hran
  cases hpay
  refine ⟨⟨Nat.lt_of_le_of_lt (Nat.zero_le _) hfro,Nat.le_of_not_lt hran,Nat.le_refl _,rfl,hsig⟩,
    fun c hc => ?_,readHighest_mem⟩
  have hle := le_readHighest hc
  dsimp only
  omega

def ControlOnly (s s' : AuditStore) : Prop :=
  ∃ latch head, s' = { s with signingLatch := latch, signingHead := head }

/-- After the arm sequence there is a signing head, and a latch if a settled store came before. -/
theorem safely_armSigning {s₀ : AuditStore} (h : Kept crypto true s₀ s) (hne : s.history≠[])
    (hw : Fresh s w) (hpos : 0 < payload.checkpointSequence)
    (hlas : ∀ c∈s.checkpoints, c.checkpointSequence < payload.checkpointSequence) :
    (armSigning crypto payload w).Safely (Kept crypto true s₀)
      (fun r s' => ∃ result, r=.ok result ∧ Fresh s' result.1 ∧ s'.signingHead≠none ∧
        ((s.signingHead≠none → s.signingLatch≠none) → s'.signingLatch≠none) ∧ ControlOnly s s') s := by
  change Safely _ _ (if readSigningLatch crypto s=.absent ∧ w.signingEvidenceSeen=false then _ else _) s
  by_cases harm : readSigningLatch crypto s=.absent ∧ w.signingEvidenceSeen=false
  · rw [if_pos harm]
    have hine : IntentFits (signedSequences s.checkpoints) { ensure := true } := ⟨rfl,nofun,nofun,nofun⟩
    refine Safely.bind_ok (safely_writeSigningHead h hne hine (.inr rfl)) fun _ s₁ h₁ hs₁ => ?_
    obtain ⟨head,rfl⟩ := hs₁
    refine Safely.bind_ok (safely_writeSigningLatch h₁ hne nofun hpos fun c hc _ => hlas c hc)
      fun armed s₂ h₂ hs₂ => ?_
    obtain ⟨_,latch,rfl⟩ := hs₂
    refine ⟨h₂,_,rfl,⟨⟨hw.pos,hw.next_le,hw.known_le,hw.own_le,hw.fresh,fun _ => nofun⟩,hw.next_eq,
      hw.last_eq⟩,nofun,fun _ => nofun,_,_,rfl⟩
  · rw [if_neg harm]
    have hhea : s.signingHead≠none := by
      rcases h.1.latch_cases with ⟨_,hrea⟩ | ⟨latch,hsom,_⟩
      · apply hw.evidence
        rw [← Bool.not_eq_false]
        exact fun huns => harm ⟨hrea,huns⟩
      · exact h.1.control.headed (.inl hsom)
    exact ⟨h,_,rfl,hw,hhea,fun hare => hare hhea,s.signingLatch,s.signingHead,rfl⟩

theorem safely_writeCheckpointRecord (h : Consistent crypto signing s) (hw : Fresh s w) {signedAt : String}
    (hpay : checkpointPayloadOf crypto s signedAt w=some payload) {signer : SignerOutcome}
    (hsig : signer=.signs ∧ signing=true ∨ signer=.noIdentity ∧ signing=false) :
    (writeCheckpointRecord crypto payload signer w).Safely (Kept crypto signing s) (Ended s) s := by
  have hsta : Kept crypto signing s s := ⟨h,Grows.refl s⟩
  rcases hsig with ⟨rfl,rfl⟩ | ⟨rfl,rfl⟩
  · have hpay' := checkpointPayload_fits h hw hpay (some (crypto.sign payload)) fun signature hsie => by
      rw [← Option.some.inj hsie]
      exact crypto.verify_sign payload
    obtain ⟨hfit,hlas,hpre⟩ := hpay'
    have hpos : 0 < payload.checkpointSequence := Nat.lt_of_lt_of_le hfit.from_pos hfit.from_le
    have hne : s.history≠[] := List.length_pos_iff.mp (Nat.lt_of_lt_of_le hpos hfit.le_length)
    refine Safely.bind_ok (safely_armSigning hsta hne hw hpos hlas) fun armed s₁ h₁ hs₁ => ?_
    obtain ⟨hw₁,hhea,hlat,latch,head,rfl⟩ := hs₁
    have hcon : SigningFits crypto true (s.checkpoints++[⟨payload,some (crypto.sign payload)⟩]) latch head :=
      h₁.1.control.concat_signed hhea rfl hlas
    have hput := h₁.1.putCheckpoint hfit hlas hpre hcon
    refine Safely.modify h₁ (Safely.bind_ok
      (safely_writeSigningHead ⟨hput,h₁.2.history,h₁.2.head⟩ hne ?_ (.inl hhea)) fun _ s₂ h₂ hs₂ => ?_)
    · have hmem : payload.checkpointSequence ∈
          signedSequences (s.checkpoints++[⟨payload,some (crypto.sign payload)⟩]) := by
        rw [signedSequences_concat]
        exact List.mem_append_right _ (List.mem_singleton_self _)
      rw [putCheckpoint_checkpoints hlas]
      refine ⟨rfl,nofun,fun n hn => ?_,fun n hn => ?_⟩
      · rw [← Option.some.inj hn]
        exact hmem
      · dsimp only at hn
        split_ifs at hn
        rw [← Option.some.inj hn]
        exact hmem
    · obtain ⟨head',rfl⟩ := hs₂
      refine ⟨h₂,fun w' hw' => ?_,fun hset => ⟨hset.anchored,hset.cut,fun _ => ?_⟩⟩
      · rw [← Except.ok.inj hw']
        exact ⟨hw₁.pos,hw₁.next_le,hw₁.known_le,hw₁.own_le,hw₁.fresh,fun _ => nofun⟩
      · exact hlat hset.armed
  · obtain ⟨hfit,hlas,hpre⟩ := checkpointPayload_fits h hw hpay none nofun
    have hput := h.putCheckpoint hfit hlas hpre (h.control.concat_unsigned rfl)
    refine ⟨hsta,⟨hput,List.prefix_refl _,id⟩,fun w' hw' => ?_,fun hset => ?_⟩
    · rw [← Except.ok.inj hw']
      exact ⟨hw.pos,hw.next_le,hw.known_le,hw.own_le,hw.fresh,hw.evidence⟩
    · exact ⟨hset.anchored,hset.cut,hset.armed⟩

theorem safely_writeCheckpoint (h : Consistent crypto signing s) (hw : w.Fits s) (signedAt : String)
    {signer : SignerOutcome} (hsig : signer=.signs ∧ signing=true ∨ signer=.noIdentity ∧ signing=false) :
    (writeCheckpoint crypto signer signedAt w).Safely (Kept crypto signing s) (Ended s) s := by
  have hsta : Kept crypto signing s s := ⟨h,Grows.refl s⟩
  refine Safely.bind_ok (safely_freshen h hw hsta) fun w' s' _ hfre => ?_
  obtain ⟨rfl,hfrh,_⟩ := hfre
  refine Safely.observe ?_
  cases hpay : checkpointPayloadOf crypto s' signedAt w' with
  | some payload => exact safely_writeCheckpointRecord h hfrh hpay hsig
  | none =>
    refine ⟨hsta,fun w'' hw'' => ?_,id⟩
    rw [← Except.ok.inj hw'']
    exact hfrh.toFits

end Checkpoint

section Rotation

variable {signing : Bool} {s₀ : AuditStore}

theorem safely_pruneSteps (n : Nat) (entries : List PersistedAuditEnvelope) {s : AuditStore}
    (h : Kept crypto signing s₀ s) (hent : s.entries=entries) :
    (pruneSteps crypto n entries).Safely (Kept crypto signing s₀)
      (fun r s' => ∃ u, r=.ok u ∧ (Settled s → Settled s') ∧ Grows s s') s := by
  induction n generalizing entries s with
  | zero => exact ⟨h,(),rfl,id,Grows.refl s⟩
  | succ n ih =>
    match entries, hent with
    | [], _ => exact ⟨h,(),rfl,id,Grows.refl s⟩
    | [_], _ => exact ⟨h,(),rfl,id,Grows.refl s⟩
    | oldest::base::rest, hent =>
      obtain ⟨pruned,hcha⟩ := h.1.chain
      have hget := hcha.getElem_base hent
      have hne : s.history≠[] := by
        intro hnil
        rw [hnil] at hget
        cases hget
      have hann := hcha.announceCut hget
      rw [hent] at hann
      have hcut := deleteEntry_oldest (s.putRotationAnchor
        (sealRecord crypto.rotationAnchorMac ⟨base.sequence,base.prevHash⟩)) hent
      refine Safely.modify h (Safely.modify ⟨?_,h.2.history,h.2.head⟩ (Safely.mono (ih (base::rest) ?_ hcut) ?_))
      · exact ⟨⟨pruned,hcha.announceCut hget⟩,fun hnil => absurd hnil hne,h.1.checkpoints,h.1.control⟩
      · refine ⟨⟨⟨pruned+1,?_⟩,fun hnil => absurd hnil hne,h.1.checkpoints,h.1.control⟩,h.2.history,h.2.head⟩
        rw [hcut]
        exact hann.makeCut
      · intro r s' _ hr
        obtain ⟨u,hok,hset,hgro⟩ := hr
        refine ⟨u,hok,fun hsed => hset ⟨?_,?_,hsed.armed⟩,hgro.history,hgro.head⟩
        · intro hfir
          refine hsed.anchored ⟨?_,hfir.2⟩
          rw [hent]
          nofun
        · intro ⟨e,rest',record,he,_,hrot,hbas⟩
          rw [hcut] at he
          cases he
          cases hrot
          exact hbas rfl

theorem safely_maybeRotate {s : AuditStore} (h : Consistent crypto signing s) {w : Writer} (hw : w.Fits s)
    (limits : RetentionLimits) (size : PersistedAuditEnvelope → Nat) (budget : Nat) :
    (maybeRotate crypto limits size budget w).Safely (Kept crypto signing s) (Ended s) s := by
  apply Safely.observe
  refine Safely.bind_ok (safely_pruneSteps _ s.entries ⟨h,Grows.refl s⟩ rfl) fun _ s' hs' hpru => ?_
  refine ⟨hs',fun w' hw' => ?_,hpru.1⟩
  rw [← Except.ok.inj hw']
  exact hw.grow hpru.2

end Rotation

section Load

variable {s : AuditStore}

theorem observedFloor_mem {signing : Bool} (h : Consistent crypto signing s)
    (hsig : signedSequences s.checkpoints≠[]) :
    ∃ floor, ((signingView crypto s).earliestVerified.toList++(signingView crypto s).headFloor.toList).min? =
      some floor ∧ floor∈signedSequences s.checkpoints := by
  have hsom : ((signingView crypto s).earliestVerified.toList++(signingView crypto s).headFloor.toList).min? ≠
      none := by
    rw [Ne,List.min?_eq_none_iff,List.append_eq_nil_iff,Option.toList_eq_nil_iff,SigningView.earliestVerified,
      h.verified_eq,List.min?_eq_none_iff]
    exact fun hnone => hsig hnone.1
  obtain ⟨floor,hflo⟩ := Option.ne_none_iff_exists'.mp hsom
  refine ⟨floor,hflo,?_⟩
  rcases List.mem_append.mp (List.min?_mem hflo) with hmem | hmem
  · rw [SigningView.earliestVerified,h.verified_eq,Option.mem_toList] at hmem
    exact List.min?_mem hmem
  · rw [Option.mem_toList] at hmem
    rcases h.head_cases with ⟨_,hrea⟩ | ⟨head,_,hrea,hfit⟩
    · simp [SigningView.headFloor,hrea] at hmem
    · rw [SigningView.headFloor,signingView_head,hrea] at hmem
      exact hfit.floor floor hmem

theorem highestVerified_mem {signing : Bool} (h : Consistent crypto signing s)
    (hsig : signedSequences s.checkpoints≠[]) :
    (signingView crypto s).highestVerified∈signedSequences s.checkpoints := by
  rw [SigningView.highestVerified,h.verified_eq]
  cases hmax : (signedSequences s.checkpoints).max? with
  | none => exact absurd (List.max?_eq_none_iff.mp hmax) hsig
  | some n => exact List.max?_mem hmax

theorem recoveryMarkers_eq {signing : Bool} (h : Consistent crypto signing s)
    (findings : List AuditIntegrityFinding) :
    ∀ m∈recoveryMarkers (signingView crypto s) findings, m.markerKind≠.downgradeLatched := by
  intro m hm
  rw [recoveryMarkers,h.coverageVeto_eq,h.headRecoveryDue_eq] at hm
  simp only [Bool.false_eq_true,if_false,List.append_nil] at hm
  split_ifs at hm
  · rw [List.mem_singleton.mp hm]
    nofun
  · cases hm

/-- What a load writes: the head, and a latch where there is none, over signed checkpoints. -/
theorem safely_performSigningRecoveryWrites {s₀ : AuditStore} (h : Kept crypto true s₀ s)
    (hsig : signedSequences s.checkpoints≠[]) (findings : List AuditIntegrityFinding) (now : String) :
    (performSigningRecoveryWrites crypto (signingView crypto s) findings now).Safely (Kept crypto true s₀)
      (fun r s' => ∃ u, r=.ok u ∧ s'.signingHead≠none ∧ s'.signingLatch≠none ∧ ControlOnly s s') s := by
  have hne := h.1.history_ne_nil hsig
  have hhea : s.signingHead≠none := h.1.control.headed (.inr hsig)
  obtain ⟨floor,hflo,hmem⟩ := observedFloor_mem h.1 hsig
  have hhig := highestVerified_mem h.1 hsig
  rw [performSigningRecoveryWrites,h.1.coverageVeto_eq,hflo]
  dsimp only
  rw [if_pos (.inr rfl)]
  refine Safely.bind_ok (safely_writeSigningHead h hne ⟨rfl,recoveryMarkers_eq h.1 findings,?_,?_⟩ (.inl hhea))
    fun _ s₁ h₁ hs₁ => ?_
  · intro n hn
    dsimp only at hn
    split_ifs at hn
    rw [← Option.some.inj hn]
    exact hhig
  · intro n hn
    dsimp only at hn
    split_ifs at hn
    rw [← Option.some.inj hn]
    exact hmem
  · obtain ⟨head,rfl⟩ := hs₁
    by_cases hdue : (signingView crypto s).latchRecoveryDue=true
    · rw [if_pos ⟨hdue,rfl⟩]
      refine Safely.bind_ok (safely_writeSigningLatch h₁ hne nofun (h.1.sequence_pos hmem) fun c hc huns => ?_)
        fun _ s₂ h₂ hs₂ => ?_
      · exact h.1.control.boundary c hc huns floor hmem
      · obtain ⟨_,latch,rfl⟩ := hs₂
        exact ⟨h₂,(),rfl,nofun,nofun,_,_,rfl⟩
    · rw [if_neg fun hbot => hdue hbot.1]
      refine ⟨h₁,(),rfl,nofun,fun hnone => ?_,s.signingLatch,_,rfl⟩
      exact hdue (h.1.latchRecoveryDue_iff.mpr ⟨hnone,hsig⟩)

structure Passed (crypto : AuditCrypto) (s : AuditStore) (w w' : Writer) (s' : AuditStore) : Prop where
  fits : w'.Fits s'
  settles : Settled s → Settled s'
  control : ControlOnly s s'
  findings : w'.integrityFindings=loadFindings crypto s w.signingRecoveryThisLoad
  recovery : ¬ SignedUnlatched s → w'.signingRecoveryThisLoad=w.signingRecoveryThisLoad
  latch : s.signingLatch≠none → s'.signingLatch≠none

theorem signed_of_due {signing : Bool} (h : Consistent crypto signing s)
    (hdue : (signingView crypto s).latchRecoveryDue ∨ (signingView crypto s).headRecoveryDue ∨
      (signingView crypto s).selfHealDue) : signedSequences s.checkpoints≠[] := by
  rcases hdue with hlat | hhea | hhel
  · exact (h.latchRecoveryDue_iff.mp hlat).2
  · rw [h.headRecoveryDue_eq] at hhea
    cases hhea
  · rw [SigningView.selfHealDue,signingView_head,h.verified_eq] at hhel
    rcases h.head_cases with ⟨_,hrea⟩ | ⟨head,_,hrea,_⟩
    · rw [hrea] at hhel
      cases hhel
    · rw [hrea] at hhel
      exact (decide_eq_true_iff.mp hhel).2.1

theorem head_of_evidenceSeen {signing : Bool} (h : Consistent crypto signing s)
    (hsee : (signingView crypto s).evidenceSeen=true) : s.signingHead≠none := by
  rw [SigningView.evidenceSeen,decide_eq_true_iff] at hsee
  rcases hsee with hlat | hhea | hver
  · apply h.control.headed
    left
    intro hnone
    exact hlat (readSigningLatch_none hnone)
  · intro hnone
    exact hhea (readSigningHead_none hnone)
  · apply h.control.headed
    right
    rwa [signingView_resolverVerified,h.checkpoints.resolverVerified_eq] at hver

theorem safely_loadPersistedEntries {signing : Bool} {s₀ : AuditStore} (h : Kept crypto signing s₀ s) {w : Writer}
    (hw : w.Fits s) (mayMutate : Bool) (now : String) :
    (loadPersistedEntries crypto mayMutate now w).Safely (Kept crypto signing s₀)
      (fun r s' => ∃ w', r=.ok w' ∧ Passed crypto s w w' s') s := by
  obtain ⟨pruned,hcha⟩ := h.1.chain
  -- The memory after the pass, in any store that differs in its control records.
  have hmem : ∀ s', ControlOnly s s' → (s.signingHead≠none → s'.signingHead≠none) →
      Writer.Fits s' { w with
        integrityFindings := loadFindings crypto s w.signingRecoveryThisLoad
        nextSequence := ((highestObserved s.entries).map (·.sequence)).getD 0+1
        lastEntryHash := ((highestObserved s.entries).map (·.entryHash)).getD auditChainGenesis
        knownHighWater := max w.knownHighWater (((highestObserved s.entries).map (·.sequence)).getD 0)
        signingEvidenceSeen := w.signingEvidenceSeen || (signingView crypto s).evidenceSeen
        signingRecoveryThisLoad := w.signingRecoveryThisLoad || (signingView crypto s).latchRecoveryDue ||
          (signingView crypto s).headRecoveryDue } := by
    intro s' hcon hhea
    obtain ⟨latch,head,rfl⟩ := hcon
    rw [hcha.highestSequence_eq,hcha.highestHash_eq]
    refine ⟨Nat.succ_pos _,Nat.le_refl _,Nat.max_le.mpr ⟨hw.known_le,Nat.le_refl _⟩,hw.own_le,fun hnil => ?_,
      fun hsee => hhea ?_⟩
    · change s.history=[] at hnil
      dsimp only
      rw [hnil,tipHash_nil]
    · rcases Bool.or_eq_true_iff.mp hsee with hsee | hsee
      · exact hw.evidence hsee
      · exact head_of_evidenceSeen h.1 hsee
  have hrec : ¬ SignedUnlatched s → (w.signingRecoveryThisLoad || (signingView crypto s).latchRecoveryDue ||
      (signingView crypto s).headRecoveryDue)=w.signingRecoveryThisLoad := by
    intro hlat
    have hdue : (signingView crypto s).latchRecoveryDue=false := by
      rw [← Bool.not_eq_true,h.1.latchRecoveryDue_iff]
      exact hlat
    rw [hdue,h.1.headRecoveryDue_eq,Bool.or_false,Bool.or_false]
  apply Safely.observe
  dsimp only [id]
  by_cases hdue : ((signingView crypto s).latchRecoveryDue ∨ (signingView crypto s).headRecoveryDue ∨
      (signingView crypto s).selfHealDue) ∧ mayMutate
  · have hsig := signed_of_due h.1 hdue.1
    have hsin : signing=true := by
      rw [← Bool.not_eq_false]
      exact fun hfal => hsig (h.1.control.unsigned hfal).2.2
    subst hsin
    rw [if_pos hdue]
    refine Safely.bind_ok (safely_performSigningRecoveryWrites h hsig _ now) fun _ s' hs' hwri => ?_
    obtain ⟨hhea,hlah,latch,head,rfl⟩ := hwri
    refine ⟨hs',_,rfl,hmem _ ⟨latch,head,rfl⟩ fun _ => hhea,?_,⟨latch,head,rfl⟩,rfl,hrec,
      fun _ => hlah⟩
    exact fun hset => ⟨hset.anchored,hset.cut,fun _ => hlah⟩
  · rw [if_neg hdue]
    have hsam : ControlOnly s s := ⟨s.signingLatch,s.signingHead,rfl⟩
    exact ⟨h,_,rfl,hmem s hsam id,id,hsam,rfl,hrec,id⟩

def Loaded (s : AuditStore) (w' : Writer) (s' : AuditStore) : Prop :=
  w'.Fits s' ∧ (Settled s → Settled s') ∧
    (¬ SignedUnlatched s → (w'.hasHardFinding=true ↔ FirstUnanchored s ∨ CutUnmade s))

theorem safely_readConsistency {signing : Bool} (h : Consistent crypto signing s) {w : Writer} (hw : w.Fits s)
    (mayMutate : Bool) (now : String) :
    (loadPersistedEntriesWithReadConsistency crypto mayMutate now w).Safely (Kept crypto signing s)
      (fun r s' => ∃ w', r=.ok w' ∧ Loaded s w' s') s := by
  have hsta : Kept crypto signing s s := ⟨h,Grows.refl s⟩
  have hw₀ : Writer.Fits s { w with signingRecoveryThisLoad := false } :=
    ⟨hw.pos,hw.next_le,hw.known_le,hw.own_le,hw.fresh,hw.evidence⟩
  refine Safely.bind_ok (safely_loadPersistedEntries hsta hw₀ mayMutate now) fun w₁ s₁ h₁ hpass₁ => ?_
  have hver : ¬ SignedUnlatched s → (w₁.hasHardFinding=true ↔ FirstUnanchored s ∨ CutUnmade s) := by
    intro hlat
    rw [Writer.hasHardFinding,hpass₁.findings]
    exact h.loadFindings_hard_iff hlat
  by_cases hhar : w₁.hasHardFinding=true
  · rw [if_pos hhar]
    refine Safely.mono (safely_loadPersistedEntries h₁ hpass₁.fits mayMutate now) fun r s₂ _ hr => ?_
    obtain ⟨w₂,hok,hpass₂⟩ := hr
    refine ⟨w₂,hok,hpass₂.fits,fun hset => hpass₂.settles (hpass₁.settles hset),fun hlat => ?_⟩
    -- The first pass may have moved the control records, and nothing the second pass fails closed at.
    obtain ⟨latch,head,rfl⟩ := hpass₁.control
    have hlatched₁ : ¬ SignedUnlatched { s with signingLatch := latch, signingHead := head } := by
      intro hunl
      refine hlat ⟨?_,hunl.2⟩
      by_contra hsom
      exact hpass₁.latch hsom hunl.1
    rw [Writer.hasHardFinding,hpass₂.findings,hpass₁.recovery hlat]
    exact h₁.1.loadFindings_hard_iff hlatched₁
  · rw [if_neg hhar]
    exact ⟨h₁,w₁,rfl,hpass₁.fits,hpass₁.settles,hver⟩

theorem safely_reload {signing : Bool} (h : Consistent crypto signing s) {w : Writer} (hw : w.Fits s)
    (mayMutate : Bool) (now : String) :
    (reloadPersistedEntries crypto mayMutate now w).Safely (Kept crypto signing s)
      (fun r s' => ∃ w', r=.ok w' ∧ Loaded s w' s') s := by
  refine Safely.bind_ok (safely_readConsistency h hw mayMutate now) fun w' s' hs' hloa => ?_
  exact ⟨hs',_,rfl,⟨hloa.1.pos,hloa.1.next_le,hloa.1.known_le,hloa.1.own_le,hloa.1.fresh,
    hloa.1.evidence⟩,hloa.2⟩

theorem strictLoadFindings_hard_iff {signing : Bool} (h : Consistent crypto signing s)
    (hlat : ¬ SignedUnlatched s) (mayMutate : Bool) (now : String) :
    (strictLoadFindings crypto mayMutate now s).any isHardIntegrityFinding=true ↔
      FirstUnanchored s ∨ CutUnmade s := by
  obtain ⟨w',hok,hloa⟩ := (safely_reload h (Writer.fits_new s) mayMutate now).run.2
  rw [strictLoadFindings]
  rcases hrun : (reloadPersistedEntries crypto mayMutate now {}).run s with ⟨r,s'⟩
  rw [hrun] at hok
  dsimp only at hok
  rw [hok]
  exact hloa.2.2 hlat

end Load

def AuditAction.signer? : AuditAction → Option SignerOutcome
  | .checkpoint signer _ => some signer
  | _ => none

/-- No signer fails, and none finds no identity once one has signed. -/
def SignerSteady (events : List AuditEvent) : Prop :=
  (∀ event∈events, ∀ reason, event.action.signer? ≠ some (.fails reason)) ∧
    events.Pairwise fun a b => a.action.signer? = some .signs → b.action.signer? ≠ some .noIdentity

def CrashesSettled (crypto : AuditCrypto) : World → List AuditEvent → Prop
  | _, [] => True
  | world, event::events =>
    (event.crashAfter.isSome → Settled (world.step crypto event).store) ∧
      CrashesSettled crypto (world.step crypto event) events

/-- The store is consistent, and no process runs ahead of it. -/
structure World.Sound (crypto : AuditCrypto) (signing : Bool) (world : World) : Prop where
  store : Consistent crypto signing world.store
  writers : ∀ process, (world.writers process).Fits world.store

theorem World.sound_empty (crypto : AuditCrypto) (signing : Bool) : World.Sound crypto signing {} :=
  ⟨Consistent.empty signing,fun _ => Writer.fits_new _⟩

def signingAfter (signing : Bool) (action : AuditAction) : Bool :=
  signing || decide (action.signer? = some .signs)

theorem Consistent.signingAfter {signing : Bool} {s : AuditStore} (h : Consistent crypto signing s)
    (action : AuditAction) : Consistent crypto (signingAfter signing action) s := by
  rw [Operational.signingAfter]
  by_cases hsig : action.signer? = some .signs
  · rw [decide_eq_true hsig,Bool.or_true]
    exact ⟨h.chain,h.fresh,h.checkpoints,h.control.identity⟩
  · rw [decide_eq_false hsig,Bool.or_false]
    exact h

theorem AuditAction.safely {signing : Bool} {s : AuditStore} (h : Consistent crypto signing s) {w : Writer}
    (hw : w.Fits s) {action : AuditAction} (hfai : ∀ reason, action.signer? ≠ some (.fails reason))
    (hide : signing=true → action.signer? ≠ some .noIdentity) :
    (action.program crypto w).Safely (Kept crypto (signingAfter signing action) s) (Ended s) s := by
  have h' := h.signingAfter action
  cases action with
  | load mayMutate now =>
    refine (safely_reload h' hw mayMutate now).mono fun r s' _ hr => ?_
    obtain ⟨w',hok,hloa⟩ := hr
    refine ⟨fun w'' hw'' => ?_,hloa.2.1⟩
    rw [hok] at hw''
    rw [← Except.ok.inj hw'']
    exact hloa.1
  | append entry nonce => exact safely_persistChainedEntry h' hw entry nonce
  | checkpoint signer signedAt =>
    refine safely_writeCheckpoint h' hw signedAt ?_
    cases signer with
    | noIdentity =>
      right
      refine ⟨rfl,?_⟩
      rw [Operational.signingAfter]
      cases signing with
      | false => rfl
      | true => exact absurd rfl (hide rfl)
    | signs =>
      left
      refine ⟨rfl,?_⟩
      rw [Operational.signingAfter]
      exact Bool.or_true _
    | fails reason => exact absurd rfl (hfai reason)
  | rotate limits size budget => exact safely_maybeRotate h' hw limits size budget

theorem World.Sound.step {signing : Bool} {world : World} (h : World.Sound crypto signing world) {event : AuditEvent}
    (hfai : ∀ reason, event.action.signer? ≠ some (.fails reason))
    (hide : signing=true → event.action.signer? ≠ some .noIdentity) :
    World.Sound crypto (signingAfter signing event.action) (world.step crypto event) ∧
      (event.crashAfter=none → Settled world.store → Settled (world.step crypto event).store) := by
  have hsaf := AuditAction.safely h.store (h.writers event.process) hfai hide
  have hoth : ∀ s' w', Grows world.store s' → w'.Fits s' → ∀ process,
      (Function.update world.writers event.process w' process).Fits s' := by
    intro s' w' hgro hw' process
    by_cases hp : process=event.process
    · rw [hp,Function.update_self]
      exact hw'
    · rw [Function.update_of_ne hp]
      exact (h.writers process).grow hgro
  unfold World.step
  cases hcra : event.crashAfter with
  | some n =>
    have hkep := hsaf.after n
    exact ⟨⟨hkep.1,hoth _ _ hkep.2 (Writer.fits_new _)⟩,nofun⟩
  | none =>
    have hrun := hsaf.run
    dsimp only
    rcases hres : (event.action.program crypto (world.writers event.process)).run world.store with ⟨r,s'⟩
    rw [hres] at hrun
    cases r with
    | ok w' => exact ⟨⟨hrun.1.1,hoth s' w' hrun.1.2 (hrun.2.1 w' rfl)⟩,fun _ => hrun.2.2⟩
    | error refusal => exact ⟨⟨hrun.1.1,fun process => (h.writers process).grow hrun.1.2⟩,fun _ => hrun.2.2⟩

theorem World.Sound.run {signing : Bool} {world : World} (h : World.Sound crypto signing world)
    {events : List AuditEvent} (hste : SignerSteady events)
    (hide : signing=true → ∀ event∈events, event.action.signer? ≠ some .noIdentity) :
    (∃ signing', World.Sound crypto signing' (world.run crypto events)) ∧
      (Settled world.store → CrashesSettled crypto world events → Settled (world.run crypto events).store) := by
  induction events generalizing signing world with
  | nil => exact ⟨⟨signing,h⟩,fun hset _ => hset⟩
  | cons event events ih =>
    have hstp := h.step (hste.1 event List.mem_cons_self)
      fun hsig => hide hsig event List.mem_cons_self
    obtain ⟨hhea,htai⟩ := List.pairwise_cons.mp hste.2
    have hres := ih hstp.1 ⟨fun e he => hste.1 e (List.mem_cons_of_mem _ he),htai⟩ ?_
    · refine ⟨hres.1,fun hset hcra => hres.2 ?_ hcra.2⟩
      cases hcrh : event.crashAfter with
      | none => exact hstp.2 hcrh hset
      | some n => exact hcra.1 (by rw [hcrh]; rfl)
    · intro hsig e he
      rcases Bool.or_eq_true_iff.mp hsig with hbef | hnow
      · exact hide hbef e (List.mem_cons_of_mem _ he)
      · exact hhea e he (of_decide_eq_true hnow)

/-- The survivors carry consecutive numbers and end at the last entry that was written. -/
def Contiguous (s : AuditStore) : Prop :=
  (∃ base, s.entries.map (·.sequence)=List.range' base s.entries.length) ∧
    s.entries.getLast? = s.history.getLast? ∧
    s.history.map (·.sequence)=List.range' 1 s.history.length

theorem Consistent.contiguous {signing : Bool} {s : AuditStore} (h : Consistent crypto signing s) : Contiguous s := by
  obtain ⟨pruned,hcha⟩ := h.chain
  refine ⟨⟨pruned+1,?_⟩,hcha.getLast_eq,hcha.chained.sequences_drop 0⟩
  rw [hcha.entries_eq,hcha.chained.sequences_drop,List.length_drop]

theorem Settled.not_signedUnlatched {signing : Bool} {s : AuditStore} (hset : Settled s)
    (h : Consistent crypto signing s) : ¬ SignedUnlatched s :=
  fun hunl => hset.armed (h.control.headed (.inr hunl.2)) hunl.1

theorem settled_empty : Settled {} :=
  ⟨fun hfir => hfir.1 rfl,fun ⟨_,_,_,hent,_⟩ => (nomatch hent),fun hhea => absurd rfl hhea⟩

/-- In every run, whatever crashes in it, the survivors are consecutive and end at the last durable append. A
strict load then fails closed exactly at entries without a head anchor and at an announced cut above genesis,
which only a crash inside the first append or inside a step of a prune leaves. -/
theorem strict_load_after_crashes (crypto : AuditCrypto) {events : List AuditEvent} (hsteady : SignerSteady events)
    (mayMutate : Bool) (now : String) :
    let s := (World.run crypto {} events).store
    Contiguous s ∧
      (¬ SignedUnlatched s → ((strictLoadFindings crypto mayMutate now s).any isHardIntegrityFinding=true ↔
        FirstUnanchored s ∨ CutUnmade s)) ∧
      (CrashesSettled crypto {} events →
        (strictLoadFindings crypto mayMutate now s).any isHardIntegrityFinding=false) := by
  obtain ⟨⟨signing,hsou⟩,hset⟩ := (World.sound_empty crypto false).run hsteady nofun
  refine ⟨hsou.store.contiguous,fun hlat => strictLoadFindings_hard_iff hsou.store hlat mayMutate now,
    fun hcra => ?_⟩
  have hsed := hset settled_empty hcra
  have hlat := hsed.not_signedUnlatched hsou.store
  rw [← Bool.not_eq_true,strictLoadFindings_hard_iff hsou.store hlat mayMutate now]
  exact fun huns => huns.elim hsed.anchored hsed.cut

def sampleRun : List AuditEvent :=
  [⟨0,.load true "t0",none⟩,⟨0,.append ⟨"t1","a"⟩ 1,none⟩,⟨0,.append ⟨"t2","b"⟩ 2,some 2⟩,
    ⟨0,.load true "t2",none⟩,⟨0,.append ⟨"t3","c"⟩ 3,none⟩,⟨0,.checkpoint .signs "t3",none⟩,
    ⟨0,.rotate ⟨1,1000,0,1⟩ (fun _ => 1) 5,none⟩]

theorem strict_load_after_sampleRun :
    SignerSteady sampleRun ∧ Contiguous (World.run textCrypto {} sampleRun).store := by
  have hste : SignerSteady sampleRun := by
    simp [SignerSteady,sampleRun,AuditAction.signer?]
  exact ⟨hste,(strict_load_after_crashes textCrypto hste true "t4").1⟩

def stampCrypto : AuditCrypto :=
  { textCrypto with
    computeAuditEntryHash := (·.timestamp)
    headAnchorMac := (·.headHash)
    rotationAnchorMac := (·.basePrevHash) }

/-- A crash between the first entry and its head anchor, and one between the anchor of a second prune step and its
delete: the load after either fails closed. -/
theorem crash_inside_append_or_prune_fails_closed :
    (∃ s, s=(World.run stampCrypto {} [⟨0,.load true "t0",none⟩,⟨0,.append ⟨"t1","a"⟩ 1,some 2⟩]).store ∧
      s.entries.map (·.sequence)=[1] ∧
      (strictLoadFindings stampCrypto true "t2" s).any isHardIntegrityFinding=true) ∧
    ∃ s, s=(World.run stampCrypto {} [⟨0,.load true "t0",none⟩,⟨0,.append ⟨"t1","a"⟩ 1,none⟩,
        ⟨0,.append ⟨"t2","b"⟩ 2,none⟩,⟨0,.append ⟨"t3","c"⟩ 3,none⟩,
        ⟨0,.rotate ⟨1,1000,0,1⟩ (fun _ => 1) 5,some 4⟩]).store ∧
      s.entries.map (·.sequence)=[2,3] ∧
      (strictLoadFindings stampCrypto true "t4" s).any isHardIntegrityFinding=true := by
  refine ⟨⟨_,rfl,?_,?_⟩,_,rfl,?_,?_⟩ <;> decide +kernel

end CastleWall.Operational
