import CastleWall.Operational.AuditVerdict
import Mathlib.Data.List.Dedup

/-! # What a load says of the signing records

On a consistent store the detection pass warns of recoveries made before. It finds a hard fault only with a
signed checkpoint in a store without a latch. -/

namespace CastleWall.Operational

open AuditStore

variable {crypto : AuditCrypto}

def SignedUnlatched (s : AuditStore) : Prop := s.signingLatch=none ∧ signedSequences s.checkpoints≠[]

section View

variable {s : AuditStore} {signing : Bool}

theorem CheckpointsFit.nodup {history : List PersistedAuditEnvelope} {checkpoints : List AuditCheckpointRecord}
    (h : CheckpointsFit crypto history checkpoints) : (checkpoints.map (·.checkpointSequence)).Nodup := by
  rw [List.Nodup,List.pairwise_map]
  exact h.ordered.imp Nat.ne_of_lt

theorem CheckpointsFit.resolverVerified_eq {history : List PersistedAuditEnvelope}
    {checkpoints : List AuditCheckpointRecord} (h : CheckpointsFit crypto history checkpoints) :
    resolverVerifiedSequences crypto checkpoints=signedSequences checkpoints := by
  rw [resolverVerifiedSequences,signedSequences]
  congr 1
  exact List.filter_congr fun record hrec => (h.fits record hrec).verify_eq

variable (h : Consistent crypto signing s)

include h

theorem Consistent.duplicateSequences_eq : (signingView crypto s).duplicateSequences=[] := by
  have hnod := h.checkpoints.nodup
  have hnone : ((signingView crypto s).sequences.filter fun n =>
      decide (1 < (signingView crypto s).sequences.count n))=[] := by
    rw [List.filter_eq_nil_iff]
    intro n _
    rw [decide_eq_true_iff,Nat.not_lt]
    exact List.nodup_iff_count_le_one.mp hnod n
  rw [SigningView.duplicateSequences,hnone,List.dedup_nil]

theorem Consistent.verified_eq : (signingView crypto s).verified=signedSequences s.checkpoints := by
  rw [SigningView.verified,h.duplicateSequences_eq]
  simpa using h.checkpoints.resolverVerified_eq

theorem Consistent.boundSequences_eq :
    (signingView crypto s).boundSequences=s.checkpoints.map (·.checkpointSequence) := by
  rw [SigningView.boundSequences,h.duplicateSequences_eq]
  simp [SigningView.sequences]

theorem Consistent.latch_eq {record : Sealed SigningLatch} (hrec : s.signingLatch=some record) :
    ∃ latch, readSigningLatch crypto s=.valid latch ∧
      ∀ c∈s.checkpoints, c.signed=none → c.checkpointSequence < latch.armedAtSequence := by
  obtain ⟨latch,hsea,hpos,hlat⟩ := h.control.latch record hrec
  refine ⟨latch,?_,hlat⟩
  rw [readSigningLatch,hrec,hsea,readSealed_sealRecord]
  exact if_neg (Nat.ne_of_gt hpos)

theorem Consistent.head_eq {record : Sealed SigningHead} (hrec : s.signingHead=some record) :
    ∃ head, readSigningHead crypto s=.valid head ∧ SigningHeadFits (signedSequences s.checkpoints) head := by
  obtain ⟨head,hsea,hfit⟩ := h.control.head record hrec
  refine ⟨head,?_,hfit⟩
  rw [readSigningHead,hrec,hsea,readSealed_sealRecord]
  exact if_neg fun hbad => Nat.ne_of_gt hbad.1 (hfit.floorless hbad.2)

end View

theorem readSigningLatch_none {s : AuditStore} (h : s.signingLatch=none) : readSigningLatch crypto s=.absent := by
  rw [readSigningLatch,h]
  rfl

theorem readSigningHead_none {s : AuditStore} (h : s.signingHead=none) : readSigningHead crypto s=.absent := by
  rw [readSigningHead,h]
  rfl

section Findings

variable {s : AuditStore} {signing : Bool} (h : Consistent crypto signing s)

include h

theorem Consistent.latch_cases : (s.signingLatch=none ∧ readSigningLatch crypto s=.absent) ∨
    ∃ latch, s.signingLatch≠none ∧ readSigningLatch crypto s=.valid latch ∧
      ∀ c∈s.checkpoints, c.signed=none → c.checkpointSequence < latch.armedAtSequence := by
  cases hrec : s.signingLatch with
  | none => exact .inl ⟨rfl,readSigningLatch_none hrec⟩
  | some record =>
    obtain ⟨latch,hrea,hlat⟩ := h.latch_eq hrec
    exact .inr ⟨latch,nofun,hrea,hlat⟩

theorem Consistent.head_cases : (s.signingHead=none ∧ readSigningHead crypto s=.absent) ∨
    ∃ head, s.signingHead≠none ∧ readSigningHead crypto s=.valid head ∧
      SigningHeadFits (signedSequences s.checkpoints) head := by
  cases hrec : s.signingHead with
  | none => exact .inl ⟨rfl,readSigningHead_none hrec⟩
  | some record =>
    obtain ⟨head,hrea,hfit⟩ := h.head_eq hrec
    exact .inr ⟨head,nofun,hrea,hfit⟩

theorem Consistent.tamperFindings_eq_nil : (signingView crypto s).tamperFindings=[] := by
  have hlat : readSigningLatch crypto s≠.invalid := by
    rcases h.latch_cases with ⟨_,hrea⟩ | ⟨latch,_,hrea,_⟩ <;> rw [hrea] <;> nofun
  have hhea : readSigningHead crypto s≠.invalid := by
    rcases h.head_cases with ⟨_,hrea⟩ | ⟨head,_,hrea,_⟩ <;> rw [hrea] <;> nofun
  simp [SigningView.tamperFindings,hlat,hhea]

/-- The earliest signed checkpoint, the floor of the head and the latch are all above the unsigned ones. -/
theorem Consistent.below_verdictFloor {record : AuditCheckpointRecord} (hrec : record∈s.checkpoints)
    (huns : record.signed=none) {floor : Nat} (hflo : (signingView crypto s).verdictFloor=some floor) :
    record.checkpointSequence < floor := by
  have hmem := List.min?_mem hflo
  rw [List.mem_append,List.mem_append,Option.mem_toList,Option.mem_toList,Option.mem_toList] at hmem
  rcases hmem with (hlat | hhea) | hear
  · rcases h.latch_cases with ⟨_,hrea⟩ | ⟨latch,_,hrea,hbel⟩
    · simp [SigningView.latchFloor,hrea] at hlat
    · have hflo' : latch.armedAtSequence=floor := by
        simpa [SigningView.latchFloor,hrea] using hlat
      rw [← hflo']
      exact hbel record hrec huns
  · rcases h.head_cases with ⟨_,hrea⟩ | ⟨head,_,hrea,hfit⟩
    · simp [SigningView.headFloor,hrea] at hhea
    · have hflo' : head.lowestSignedCheckpointSequence=some floor := by
        simpa [SigningView.headFloor,hrea] using hhea
      exact h.control.boundary record hrec huns floor (hfit.floor floor hflo')
  · rw [SigningView.earliestVerified,h.verified_eq] at hear
    exact h.control.boundary record hrec huns floor (List.min?_mem hear)

theorem Consistent.incidentRing_eq_nil : (signingView crypto s).incidentRing=[] := by
  rw [SigningView.incidentRing]
  rcases h.head_cases with ⟨_,hrea⟩ | ⟨head,_,hrea,hfit⟩
  · simp [hrea]
  · simp [hrea,hfit.recent]

theorem Consistent.unsignedFindings_eq_nil : (signingView crypto s).unsignedFindings=[] := by
  rw [SigningView.unsignedFindings,List.filterMap_eq_nil_iff]
  intro record hrec
  rw [h.incidentRing_eq_nil]
  cases hsig : record.signed with
  | some signature => rfl
  | none =>
    have hflo : ((signingView crypto s).verdictFloor.any fun n => decide (n ≤ record.checkpointSequence)) =
        false := by
      cases hmin : (signingView crypto s).verdictFloor with
      | none => rfl
      | some floor => simpa using h.below_verdictFloor hrec hsig hmin
    simp [hflo]

theorem Consistent.coverageFindings_eq_nil : (signingView crypto s).coverageFindings=[] := by
  have hpre : (s.checkpoints.filterMap fun record : AuditCheckpointRecord =>
      if record.checkpointSequence∈(signingView crypto s).verified ∧ 0 < record.previousCheckpointSequence ∧
          record.previousCheckpointSequence∉(signingView crypto s).boundSequences then
        some (⟨.checkpointSigningDowngrade,some record.previousCheckpointSequence,some .deletedPredecessor,
          false⟩ : AuditIntegrityFinding) else none)=[] := by
    rw [List.filterMap_eq_nil_iff]
    intro record hrec
    rw [h.boundSequences_eq]
    exact if_neg fun hmis => hmis.2.2 (h.checkpoints.previous record hrec hmis.2.1)
  rw [SigningView.coverageFindings]
  change _++s.checkpoints.filterMap _=[]
  rw [hpre,List.append_nil,signingView_head]
  rcases h.head_cases with ⟨_,hrea⟩ | ⟨head,_,hrea,hfit⟩
  · rw [hrea]
  · rw [hrea]
    dsimp only
    have htip : ¬ (signingView crypto s).highestVerified < head.highestSignedCheckpointSequence := by
      rw [SigningView.highestVerified,h.verified_eq,Nat.not_lt]
      rcases hfit.tip with hzer | hmem
      · rw [hzer]
        exact Nat.zero_le _
      · exact List.le_max?_getD_of_mem hmem
    rw [if_neg htip,List.nil_append]
    cases hlow : head.lowestSignedCheckpointSequence with
    | none => rfl
    | some lowest =>
      have hmem := hfit.floor lowest hlow
      have hear : ((signingView crypto s).earliestVerified.any fun n => decide (lowest < n))=false := by
        cases hmin : (signingView crypto s).earliestVerified with
        | none => rfl
        | some earliest =>
          rw [SigningView.earliestVerified,h.verified_eq] at hmin
          simpa using (List.min?_eq_some_iff.mp hmin).2 lowest hmem
      dsimp only
      rw [hear,h.verified_eq]
      simp [hmem]

theorem Consistent.coverageVeto_eq : (signingView crypto s).coverageVeto=false := by
  rw [SigningView.coverageVeto,h.duplicateSequences_eq,h.coverageFindings_eq_nil]
  rfl

theorem Consistent.headRecoveryDue_eq : (signingView crypto s).headRecoveryDue=false := by
  rw [SigningView.headRecoveryDue,decide_eq_false_iff_not]
  intro ⟨habs,hevi⟩
  have hnone : s.signingHead=none := by
    rcases h.head_cases with ⟨hnone,_⟩ | ⟨head,_,hrea,_⟩
    · exact hnone
    · rw [signingView_head,hrea] at habs
      cases habs
  refine h.control.headed ?_ hnone
  rcases hevi with hlat | hver
  · rcases h.latch_cases with ⟨_,hrea⟩ | ⟨latch,hsom,_⟩
    · simp [SigningView.latchFloor,hrea] at hlat
    · exact .inl hsom
  · rw [h.verified_eq] at hver
    exact .inr hver

theorem Consistent.latchRecoveryDue_iff : (signingView crypto s).latchRecoveryDue=true ↔ SignedUnlatched s := by
  rw [SigningView.latchRecoveryDue,decide_eq_true_iff,h.verified_eq,SignedUnlatched]
  refine and_congr_left fun _ => ?_
  rcases h.latch_cases with ⟨hnone,hrea⟩ | ⟨latch,hsom,hrea,_⟩
  · simp [hrea,hnone]
  · simp [hrea,hsom]

theorem Consistent.latchedFindings_warn {f : AuditIntegrityFinding}
    (hf : f∈(signingView crypto s).latchedFindings false) : isHardIntegrityFinding f=false := by
  rw [SigningView.latchedFindings,signingView_head] at hf
  rcases h.head_cases with ⟨_,hrea⟩ | ⟨head,_,hrea,hfit⟩
  · rw [hrea] at hf
    cases hf
  · have hrec : ¬ ((head.latched.any fun m => decide (m.markerKind=.downgradeLatched))=true ∨
        head.hardDowngradeEverLatched=true) := by
      rw [hfit.undowngraded,List.any_eq_true]
      intro hbad
      rcases hbad with ⟨m,hm,hkin⟩ | heve
      · exact hfit.recovered m hm (by simpa using hkin)
      · cases heve
    rw [hrea] at hf
    dsimp only at hf
    rw [if_neg hrec,List.nil_append,List.mem_append] at hf
    rcases hf with hf | hf
    · obtain ⟨m,_,rfl⟩ := List.mem_map.mp hf
      rfl
    · split_ifs at hf
      · rw [List.mem_singleton.mp hf]
        rfl
      · cases hf

/-- Where the latch is armed before anything is signed, the detection pass warns at most. -/
theorem Consistent.signingFindings_warn (hlat : ¬ SignedUnlatched s) {f : AuditIntegrityFinding}
    (hf : f∈(signingView crypto s).findings false) : isHardIntegrityFinding f=false := by
  have hlah : (signingView crypto s).latchRecoveryDue=false := by
    rw [← Bool.not_eq_true,h.latchRecoveryDue_iff]
    exact hlat
  rw [SigningView.findings,h.duplicateSequences_eq,h.tamperFindings_eq_nil,h.coverageFindings_eq_nil,
    h.unsignedFindings_eq_nil,SigningView.recoveryFindings,hlah,h.headRecoveryDue_eq] at hf
  simp only [List.map_nil,List.nil_append,List.append_nil,Bool.false_eq_true,if_false] at hf
  exact h.latchedFindings_warn hf

end Findings

/-- A load of a consistent store fails closed at an unanchored first entry and at a cut that was not made, and
nowhere else as long as the latch was armed before anything was signed. -/
theorem Consistent.loadFindings_hard_iff {s : AuditStore} {signing : Bool} (h : Consistent crypto signing s)
    (hlat : ¬ SignedUnlatched s) :
    (loadFindings crypto s false).any isHardIntegrityFinding=true ↔ FirstUnanchored s ∨ CutUnmade s := by
  obtain ⟨pruned,hcha⟩ := h.chain
  rw [List.any_eq_true]
  constructor
  · intro ⟨f,hf,hhar⟩
    by_contra hsou
    rw [not_or] at hsou
    have hle := hcha.pruned_le
    have hche : s.checkpoints.flatMap (checkpointFindings crypto s.entries)=[] := by
      rw [List.flatMap_eq_nil_iff]
      exact fun record hrec => checkpointFindings_eq_nil hcha (h.checkpoints.fits record hrec)
    rw [loadFindings,hcha.chainedEntries_eq,hcha.resolveChainSeed_eq h.fresh hsou.2,
      hcha.highestSequence_eq,hcha.entryFindings_eq_nil] at hf
    dsimp only at hf
    rw [hcha.verifyChained_eq_nil hle,hche,hcha.verifyHeadAnchor_eq_nil h.fresh hsou.1,
      List.append_nil,List.nil_append,List.nil_append,List.nil_append] at hf
    rw [h.signingFindings_warn hlat hf] at hhar
    cases hhar
  · intro huns
    rw [loadFindings,hcha.chainedEntries_eq]
    rcases huns with hfir | hcut
    · refine ⟨⟨.tailAnchorMissing,none,none,false⟩,?_,rfl⟩
      rw [verifyHeadAnchor_of_firstUnanchored hfir]
      exact List.mem_append_right _ (List.mem_singleton_self _)
    · obtain ⟨f,hf,hhar⟩ := hcha.seed_hard_of_cutUnmade hcut
      refine ⟨f,?_,hhar⟩
      simp only [List.mem_append]
      exact .inl (.inl (.inl (.inl (.inr hf))))

end CastleWall.Operational
