import CastleWall.Operational.AuditFiles
import CastleWall.Operational.EntryHash
import CastleWall.Support.HashChain

/-! # Edited entry files

A load of files that were edited, deleted, added or renamed while the anchors stayed as they were. -/

namespace CastleWall.Operational

open AuditStore

variable {crypto : AuditCrypto}

/-- Both hashes of the chain are one digest of canonical JSON, and it has no collisions. -/
structure HashedBy (sha256Hex : String → String) (crypto : AuditCrypto) : Prop where
  injective : Function.Injective sha256Hex
  entry : crypto.computeAuditEntryHash=computeAuditEntryHash sha256Hex
  root : crypto.computeAuditRoot=computeAuditRoot sha256Hex

namespace HashedBy

variable {sha256Hex : String → String}

theorem entry_injective (h : HashedBy sha256Hex crypto) : Function.Injective crypto.computeAuditEntryHash := by
  intro a b hab
  rw [h.entry] at hab
  exact hashInputText_injective (h.injective hab)

theorem entry_ne_root (h : HashedBy sha256Hex crypto) (input : EntryHashInput) (hashes : List String) :
    crypto.computeAuditEntryHash input≠crypto.computeAuditRoot hashes := by
  intro heq
  rw [h.entry,h.root] at heq
  have hjso := Json.canonicalText_inj (ordered_hashInputJson input) (ordered_rootJson hashes) (h.injective heq)
  simp [hashInputJson,rootJson] at hjso

end HashedBy

theorem eq_nil_of_not_hard {findings : List AuditIntegrityFinding} (hhar : ∀ f∈findings, f.warn=false)
    (h : findings.any isHardIntegrityFinding=false) : findings=[] := by
  cases findings with
  | nil => rfl
  | cons f rest =>
    rw [List.any_cons,isHardIntegrityFinding,hhar f List.mem_cons_self] at h
    cases h

theorem hard_of_mem_ite {p : Prop} [Decidable p] {f g : AuditIntegrityFinding} (hg : g.warn=false)
    (hf : f∈if p then [g] else []) : f.warn=false := by
  split_ifs at hf
  · rw [List.mem_singleton.mp hf]
    exact hg
  · cases hf

theorem verifyChainedEntries_hard (expectedSequence : Nat) (expectedPrevHash : String)
    (entries : List PersistedAuditEnvelope) :
    ∀ f∈verifyChainedEntries expectedSequence expectedPrevHash entries, f.warn=false := by
  induction entries generalizing expectedSequence expectedPrevHash with
  | nil => nofun
  | cons e entries ih =>
    intro f hf
    rw [verifyChainedEntries,List.mem_append,List.mem_append] at hf
    rcases hf with (hf | hf) | hf
    · exact hard_of_mem_ite rfl hf
    · exact hard_of_mem_ite rfl hf
    · exact ih _ _ f hf

theorem AuditFile.findings_hard (file : AuditFile) : ∀ f∈file.findings crypto, f.warn=false := by
  intro f hf
  cases file with
  | chained envelope positive =>
    rcases List.mem_append.mp hf with hf | hf
    · exact hard_of_mem_ite rfl hf
    · exact hard_of_mem_ite rfl hf
  | legacy entry => exact hard_of_mem_ite rfl hf
  | malformed => rw [List.mem_singleton.mp hf]
  | unreadable => rw [List.mem_singleton.mp hf]

theorem LegacyRegion.resolveChainSeed_hard (region : LegacyRegion) (rotation : ControlRead RotationAnchor)
    (chained : List PersistedAuditEnvelope) :
    ∀ f∈(region.resolveChainSeed rotation chained).2, f.warn=false := by
  intro f hf
  cases chained with
  | nil =>
    rw [resolveChainSeed] at hf
    dsimp only at hf
    split_ifs at hf
    · cases hf
    · rw [List.mem_singleton.mp hf]
  | cons head rest =>
    rw [resolveChainSeed] at hf
    split_ifs at hf with hlow
    · cases hf
    cases rotation with
    | valid anchor =>
      dsimp only at hf
      split_ifs at hf
      · cases hf
      · rw [List.mem_singleton.mp hf]
    | invalid => rw [List.mem_singleton.mp hf]
    | absent => rw [List.mem_singleton.mp hf]

/-- Without a finding the walk starts after the legacy entries or at the authenticated base. -/
theorem LegacyRegion.resolveChainSeed_cases {region : LegacyRegion} {rotation : ControlRead RotationAnchor}
    {chained : List PersistedAuditEnvelope} (h : (region.resolveChainSeed rotation chained).2=[]) :
    (region.resolveChainSeed rotation chained).1=region.defaultSeed ∨
      ∃ anchor, rotation=.valid anchor ∧
        (region.resolveChainSeed rotation chained).1=⟨anchor.baseSequence,anchor.basePrevHash,true⟩ ∧
        region.legacyCount+1 < anchor.baseSequence := by
  cases chained with
  | nil => exact .inl rfl
  | cons head rest =>
    rw [resolveChainSeed] at h ⊢
    by_cases hlow : head.sequence ≤ region.legacyCount+1
    · rw [if_pos hlow]
      exact .inl rfl
    rw [if_neg hlow] at h ⊢
    cases rotation with
    | absent => cases h
    | invalid => cases h
    | valid anchor =>
      dsimp only at h ⊢
      by_cases hbas : anchor.baseSequence=head.sequence
      · rw [if_pos hbas]
        exact .inr ⟨anchor,rfl,rfl,by omega⟩
      · rw [if_neg hbas] at h
        cases h

/-- The walk began where it was seeded, and every entry continues the one before it. -/
structure Walked (start : Nat) (prevHash : String) (chained : List PersistedAuditEnvelope) : Prop where
  sequences : chained.map (·.sequence)=List.range' start chained.length
  linked : HashChain.Linked (·.entryHash) (fun e => some e.prevHash) chained
  first : ∀ e, chained.head? = some e → e.prevHash=prevHash

theorem walked_of_verifyChainedEntries {start : Nat} {prevHash : String} {chained : List PersistedAuditEnvelope}
    (h : verifyChainedEntries start prevHash chained=[]) : Walked start prevHash chained := by
  induction chained generalizing start prevHash with
  | nil => exact ⟨rfl,.nil,nofun⟩
  | cons e rest ih =>
    rw [verifyChainedEntries,List.append_eq_nil_iff,List.append_eq_nil_iff] at h
    obtain ⟨⟨hsee,hpre⟩,hres⟩ := h
    have hseq : e.sequence=start := by
      by_contra hne
      simp [hne] at hsee
    have hfir : e.prevHash=prevHash := by
      by_contra hne
      simp [hne] at hpre
    have hwal := ih hres
    refine ⟨?_,?_,fun e' he' => ?_⟩
    · rw [List.map_cons,hwal.sequences,List.length_cons,List.range'_succ,hseq]
    · cases rest with
      | nil => exact .singleton e
      | cons e' rest => exact .cons_cons (congrArg some (hwal.first e' rfl)) hwal.linked
    · rw [← Option.some.inj he']
      exact hfir

namespace Walked

variable {start : Nat} {prevHash : String} {chained : List PersistedAuditEnvelope}

theorem sequence_mem (h : Walked start prevHash chained) {e : PersistedAuditEnvelope} (he : e∈chained) :
    start ≤ e.sequence ∧ e.sequence < start+chained.length := by
  have hmem : e.sequence∈List.range' start chained.length := by
    rw [← h.sequences]
    exact List.mem_map_of_mem he
  exact List.mem_range'_1.mp hmem

theorem sequence_getElem (h : Walked start prevHash chained) {i : Nat} {e : PersistedAuditEnvelope}
    (hi : chained[i]? = some e) : e.sequence=start+i := by
  have hlt := (List.getElem?_eq_some_iff.mp hi).1
  have hmap := congrArg (·[i]?) h.sequences
  simp only [List.getElem?_map,hi,Option.map_some] at hmap
  rw [List.getElem?_range' hlt,Nat.one_mul] at hmap
  exact Option.some.inj hmap

end Walked

section Pass

variable (crypto) (legacyHash : Nat → LegacyEntry → String) (d : AuditFiles)

def AuditFiles.chainSeed : ChainSeed × List AuditIntegrityFinding :=
  (d.legacyRegion crypto legacyHash).resolveChainSeed (loadRotationAnchor crypto d.records) (d.verifiedChain crypto)

/-- What no hard finding means for the entries of the chain. -/
structure CleanPass : Prop where
  hashed : ∀ e∈d.verifiedChain crypto, crypto.computeAuditEntryHash e.toEntryHashInput=e.entryHash
  decrypted : d.verifiedChain crypto=d.envelopes
  seeded : (d.chainSeed crypto legacyHash).2=[]
  walked : Walked (d.chainSeed crypto legacyHash).1.expectedSequence (d.chainSeed crypto legacyHash).1.expectedPrevHash
    (d.verifiedChain crypto)
  floor : ∀ anchor, loadHeadAnchor crypto d.records=.valid anchor →
    anchor.highestSequence ≤ d.highestChainedSeq crypto legacyHash
  named : ∀ anchor, loadHeadAnchor crypto d.records=.valid anchor → ∀ hash,
    (d.legacyRegion crypto legacyHash).anchorEntryHash (d.verifiedChain crypto) (d.chainSeed crypto legacyHash).1
      anchor=some hash → hash=anchor.headHash

end Pass

theorem entryFindings_eq_nil_iff {e : PersistedAuditEnvelope} (h : entryFindings crypto e=[]) :
    crypto.computeAuditEntryHash e.toEntryHashInput=e.entryHash ∧ (crypto.decrypt e.encryptedPayloadBytes).isSome := by
  rw [entryFindings,List.append_eq_nil_iff] at h
  refine ⟨?_,?_⟩
  · by_contra hne
    simp [hne] at h
  · by_contra hnone
    simp [Option.not_isSome_iff_eq_none.mp hnone] at h

section

variable {legacyHash : Nat → LegacyEntry → String} {d : AuditFiles}

theorem entries_of_files_clean (h : ∀ file∈d.files, file.findings crypto=[]) {e : PersistedAuditEnvelope}
    (he : e∈d.envelopes) :
    crypto.computeAuditEntryHash e.toEntryHashInput=e.entryHash ∧ (crypto.decrypt e.encryptedPayloadBytes).isSome := by
  obtain ⟨file,hmem,hfil⟩ := List.mem_filterMap.mp he
  have hcle := h file hmem
  cases file with
  | chained envelope positive =>
    cases hfil
    exact entryFindings_eq_nil_iff hcle
  | legacy entry => cases hfil
  | malformed => cases hfil
  | unreadable => cases hfil

theorem cleanPass_of_loadFindings {signingRecoveryThisLoad : Bool}
    (h : (d.loadFindings crypto legacyHash signingRecoveryThisLoad).any isHardIntegrityFinding=false) :
    CleanPass crypto legacyHash d := by
  rw [AuditFiles.loadFindings,List.any_flatten] at h
  simp only [List.any_cons,List.any_nil,Bool.or_false,Bool.or_eq_false_iff] at h
  obtain ⟨hfil,_,hsee,hwal,_,_,hhea⟩ := h
  have hcle : ∀ file∈d.files, file.findings crypto=[] := by
    intro file hfie
    apply eq_nil_of_not_hard file.findings_hard
    rw [List.any_flatMap,List.any_eq_false] at hfil
    exact Bool.eq_false_of_not_eq_true (hfil file hfie)
  have hdec : d.verifiedChain crypto=d.envelopes := by
    rw [AuditFiles.verifiedChain,chainedEntries,List.filter_eq_self]
    exact fun e he => (entries_of_files_clean hcle he).2
  refine ⟨fun e he => ?_,hdec,?_,?_,fun anchor hanc => ?_,fun anchor hanc hash hhas => ?_⟩
  · rw [hdec] at he
    exact (entries_of_files_clean hcle he).1
  · exact eq_nil_of_not_hard (LegacyRegion.resolveChainSeed_hard _ _ _) hsee
  · exact walked_of_verifyChainedEntries (eq_nil_of_not_hard (verifyChainedEntries_hard _ _ _) hwal)
  · rw [hanc,LegacyRegion.verifyHeadAnchor,LegacyRegion.headAnchorDue] at hhea
    by_contra hlt
    simp [Operational.verifyHeadAnchor,Nat.lt_of_not_le hlt,isHardIntegrityFinding] at hhea
  · rw [hanc,LegacyRegion.verifyHeadAnchor,LegacyRegion.headAnchorDue] at hhea
    by_contra hne
    change (d.legacyRegion crypto legacyHash).anchorEntryHash _ _ _=some hash at hhas
    rw [AuditFiles.chainSeed] at hhas
    simp only [Operational.verifyHeadAnchor,hhas] at hhea
    split_ifs at hhea <;> simp_all [isHardIntegrityFinding]

end

theorem filter_le_of_consecutive {entries : List PersistedAuditEnvelope} {start : Nat}
    (h : entries.map (·.sequence)=List.range' start entries.length) (stop : Nat) :
    (entries.filter fun e => e.sequence ≤ stop)=entries.take (stop+1 - start) := by
  induction entries generalizing start with
  | nil => rw [List.take_nil,List.filter_nil]
  | cons e entries ih =>
    rw [List.map_cons,List.length_cons,List.range'_succ,List.cons.injEq] at h
    have hres := ih h.2
    by_cases hle : e.sequence ≤ stop
    · have hsuc : stop+1 - start=stop+1 - (start+1)+1 := by omega
      rw [List.filter_cons_of_pos (by simpa using hle),hres,hsuc,List.take_succ_cons]
    · have hzer : stop+1 - start=0 := by omega
      have hzer' : stop+1 - (start+1)=0 := by omega
      rw [List.filter_cons_of_neg (by simpa using hle),hres,hzer,hzer',List.take_zero,List.take_zero]

theorem filter_ge_of_consecutive {entries : List PersistedAuditEnvelope} {first : Nat}
    (h : entries.map (·.sequence)=List.range' first entries.length) (start : Nat) :
    (entries.filter fun e => start ≤ e.sequence)=entries.drop (start - first) := by
  induction entries generalizing first with
  | nil => rw [List.drop_nil,List.filter_nil]
  | cons e entries ih =>
    rw [List.map_cons,List.length_cons,List.range'_succ,List.cons.injEq] at h
    have hres := ih h.2
    by_cases hle : start ≤ e.sequence
    · have hzer : start - first=0 := by omega
      have hzer' : start - (first+1)=0 := by omega
      rw [hzer',List.drop_zero] at hres
      rw [List.filter_cons_of_pos (by simpa using hle),hres,hzer,List.drop_zero]
    · have hsuc : start - first=start - (first+1)+1 := by omega
      rw [List.filter_cons_of_neg (by simpa using hle),hres,hsuc,List.drop_succ_cons]

namespace Chained

variable {history : List PersistedAuditEnvelope}

theorem linked (h : Chained crypto history) :
    HashChain.Linked (·.entryHash) (fun e => some e.prevHash) history := by
  rw [HashChain.Linked,List.isChain_iff_getElem]
  intro i hi
  exact congrArg some (h.prevHash (List.getElem?_eq_getElem hi) (List.getElem?_eq_getElem (Nat.lt_of_succ_lt hi)))

theorem hashed (h : Chained crypto history) {e : PersistedAuditEnvelope} (he : e∈history) :
    crypto.computeAuditEntryHash e.toEntryHashInput=e.entryHash := by
  obtain ⟨i,hi⟩ := List.mem_iff_getElem?.mp he
  exact (h.fits hi).entryHash

theorem filter_between (h : Chained crypto history) {start : Nat} (hsta : 0 < start) (stop : Nat) :
    (history.filter fun e => start ≤ e.sequence ∧ e.sequence ≤ stop) =
      (history.drop (start - 1)).take (stop+1 - start) := by
  have hseq := h.sequences_drop (start - 1)
  rw [Nat.sub_add_cancel hsta,← List.length_drop] at hseq
  have hall : history.map (·.sequence)=List.range' 1 history.length := h.sequences_drop 0
  rw [← filter_le_of_consecutive hseq,← filter_ge_of_consecutive hall,List.filter_filter]
  apply List.filter_congr
  intro e _
  rw [Bool.decide_and,Bool.and_comm]

end Chained

theorem PersistedAuditEnvelope.eq_of_hash (hinj : Function.Injective crypto.computeAuditEntryHash)
    {a b : PersistedAuditEnvelope} (ha : crypto.computeAuditEntryHash a.toEntryHashInput=a.entryHash)
    (hb : crypto.computeAuditEntryHash b.toEntryHashInput=b.entryHash) (h : a.entryHash=b.entryHash) : a=b := by
  have hinp : a.toEntryHashInput=b.toEntryHashInput := hinj (ha.trans (h.trans hb.symm))
  cases a
  cases b
  cases hinp
  cases h
  rfl

/-- A walk that reaches an entry that was written holds what was written before it. -/
theorem Walked.take_eq {start : Nat} {prevHash : String} {chained history : List PersistedAuditEnvelope}
    (hwal : Walked start prevHash chained) (hinj : Function.Injective crypto.computeAuditEntryHash)
    (hhas : ∀ e∈chained, crypto.computeAuditEntryHash e.toEntryHashInput=e.entryHash)
    (hcha : Chained crypto history) (hsta : 0 < start) {i : Nat} {e x : PersistedAuditEnvelope}
    (hi : history[i]? = some e) (hx : x∈chained) (hseq : x.sequence=i+1)
    (hhah : x.entryHash=e.entryHash) :
    chained.take (i+1+1 - start)=(history.drop (start - 1)).take (i+1+1 - start) := by
  obtain ⟨j,hj⟩ := List.mem_iff_getElem?.mp hx
  have hpla := hwal.sequence_getElem hj
  have hjlt := (List.getElem?_eq_some_iff.mp hj).1
  have hilt := (List.getElem?_eq_some_iff.mp hi).1
  have hcou : i+1+1 - start=j+1 := by omega
  have hdro : (history.drop (start - 1))[j]? = some e := by
    rw [List.getElem?_drop,show start - 1+j=i by omega]
    exact hi
  rw [hcou,← List.map_id (chained.take (j+1)),← List.map_id ((history.drop (start - 1)).take (j+1))]
  apply HashChain.map_key_of_last PersistedAuditEnvelope.entryHash
    (fun e : PersistedAuditEnvelope => some e.prevHash) id
  · intro a ha b hb hab
    exact PersistedAuditEnvelope.eq_of_hash hinj (hhas a (List.mem_of_mem_take ha))
      (hcha.hashed (List.mem_of_mem_drop (List.mem_of_mem_take hb))) hab
  · intro a _ b _ hab
    exact congrArg (fun e : PersistedAuditEnvelope => some e.prevHash) hab
  · exact hwal.linked.take _
  · exact (hcha.linked.drop _).take _
  · rw [List.getLast?_take,List.getLast?_take,if_neg (Nat.succ_ne_zero j),if_neg (Nat.succ_ne_zero j),
      Nat.add_sub_cancel,hj,hdro]
    exact congrArg some hhah
  · rw [List.length_take,List.length_take,List.length_drop]
    omega

namespace CleanPass

variable {legacyHash : Nat → LegacyEntry → String} {d : AuditFiles} {sha256Hex : String → String}

/-- A walk that starts no later than the anchored head reaches it, and ends up at the hash it names. -/
theorem reaches (h : CleanPass crypto legacyHash d) {anchor : HeadAnchor}
    (hanc : loadHeadAnchor crypto d.records=.valid anchor)
    (hleg : (d.legacyRegion crypto legacyHash).legacyCount < anchor.highestSequence)
    (hsta : (d.chainSeed crypto legacyHash).1.expectedSequence ≤ anchor.highestSequence) :
    ∃ x∈d.verifiedChain crypto, x.sequence=anchor.highestSequence ∧ x.entryHash=anchor.headHash := by
  have hflo := h.floor anchor hanc
  rw [AuditFiles.highestChainedSeq] at hflo
  cases hobs : highestObserved d.envelopes with
  | none =>
    rw [hobs] at hflo
    exact absurd hflo (Nat.not_le.mpr hleg)
  | some highest =>
    rw [hobs,Option.map_some,Option.getD_some] at hflo
    have hmem := mem_of_highestObserved hobs
    rw [← h.decrypted] at hmem
    have hlt := (h.walked.sequence_mem hmem).2
    have hind : anchor.highestSequence - (d.chainSeed crypto legacyHash).1.expectedSequence <
        (d.verifiedChain crypto).length := by omega
    have hget := List.getElem?_eq_getElem hind
    have hseq := h.walked.sequence_getElem hget
    rw [Nat.add_sub_cancel' hsta] at hseq
    cases hfind : (d.verifiedChain crypto).find? fun e => e.sequence=anchor.highestSequence with
    | none => simpa [hseq] using List.find?_eq_none.mp hfind _ (List.mem_of_getElem? hget)
    | some x =>
      refine ⟨x,List.mem_of_find?_eq_some hfind,by simpa using List.find?_some hfind,?_⟩
      apply h.named anchor hanc
      rw [LegacyRegion.anchorEntryHash,Operational.anchorEntryHash,hfind]

theorem legacyAnchorHash_ne (hhas : HashedBy sha256Hex crypto) {history : List PersistedAuditEnvelope}
    (hcha : Chained crypto history) {e : PersistedAuditEnvelope} (he : e∈history)
    (hleg : 0 < (d.legacyRegion crypto legacyHash).legacyCount) :
    (d.legacyRegion crypto legacyHash).legacyAnchorHash≠e.entryHash := by
  have hne : d.legacyEntries crypto≠[] := List.length_pos_iff.mp hleg
  rw [AuditFiles.legacyRegion,if_neg hne,← hcha.hashed he]
  exact (hhas.entry_ne_root _ _).symm

/-- A walk from after the legacy entries starts no later than the anchored head, where the legacy entries are no
more than it counts. -/
theorem legacyCount_lt (h : CleanPass crypto legacyHash d) (hhas : HashedBy sha256Hex crypto)
    (hsee : (d.chainSeed crypto legacyHash).1=(d.legacyRegion crypto legacyHash).defaultSeed)
    {history : List PersistedAuditEnvelope} (hcha : Chained crypto history) {e : PersistedAuditEnvelope}
    (he : e∈history) {anchor : HeadAnchor} (hanc : loadHeadAnchor crypto d.records=.valid anchor)
    (hnam : anchor.headHash=e.entryHash)
    (hle : (d.legacyRegion crypto legacyHash).legacyCount ≤ anchor.highestSequence) :
    (d.legacyRegion crypto legacyHash).legacyCount < anchor.highestSequence := by
  refine Nat.lt_of_le_of_ne hle fun heq => ?_
  have hpos : 0 < (d.legacyRegion crypto legacyHash).legacyCount := heq ▸ loadHeadAnchor_pos hanc
  apply legacyAnchorHash_ne hhas hcha he hpos
  rw [← hnam]
  apply h.named anchor hanc
  have hnone : ((d.verifiedChain crypto).find? fun e => e.sequence=anchor.highestSequence)=none := by
    rw [List.find?_eq_none]
    intro x hx
    have hlow := (h.walked.sequence_mem hx).1
    rw [hsee] at hlow
    change (d.legacyRegion crypto legacyHash).legacyCount+1 ≤ x.sequence at hlow
    simp only [decide_eq_true_eq]
    omega
  rw [LegacyRegion.anchorEntryHash,Operational.anchorEntryHash,hnone,hsee,LegacyRegion.defaultSeed]
  dsimp only
  rw [if_pos ⟨rfl,by rw [heq]⟩,if_pos hpos]

variable {history : List PersistedAuditEnvelope} {i : Nat} {e : PersistedAuditEnvelope}

theorem take_eq (h : CleanPass crypto legacyHash d) (hhas : HashedBy sha256Hex crypto)
    (hcha : Chained crypto history) (hi : history[i]? = some e)
    (hanc : loadHeadAnchor crypto d.records=.valid ⟨i+1,e.entryHash⟩)
    (hleg : (d.legacyRegion crypto legacyHash).legacyCount < i+1)
    (hpos : 0 < (d.chainSeed crypto legacyHash).1.expectedSequence)
    (hsta : (d.chainSeed crypto legacyHash).1.expectedSequence ≤ i+1) :
    (d.verifiedChain crypto).take (i+1+1 - (d.chainSeed crypto legacyHash).1.expectedSequence) =
      (history.drop ((d.chainSeed crypto legacyHash).1.expectedSequence - 1)).take
        (i+1+1 - (d.chainSeed crypto legacyHash).1.expectedSequence) := by
  obtain ⟨x,hx,hseq,hhea⟩ := h.reaches hanc hleg hsta
  exact h.walked.take_eq hhas.entry_injective h.hashed hcha hpos hi hx hseq hhea

/-- A walk from after legacy entries does not continue a chain that has none. -/
theorem legacyCount_eq_zero (h : CleanPass crypto legacyHash d) (hhas : HashedBy sha256Hex crypto)
    (hcha : Chained crypto history) (hi : history[i]? = some e)
    (hanc : loadHeadAnchor crypto d.records=.valid ⟨i+1,e.entryHash⟩)
    (hleg : (d.legacyRegion crypto legacyHash).legacyCount < i+1)
    (hsee : (d.chainSeed crypto legacyHash).1=(d.legacyRegion crypto legacyHash).defaultSeed) :
    (d.legacyRegion crypto legacyHash).legacyCount=0 := by
  by_contra hne
  have hexp : (d.chainSeed crypto legacyHash).1.expectedSequence =
      (d.legacyRegion crypto legacyHash).legacyCount+1 := by rw [hsee]; rfl
  have hpre : (d.chainSeed crypto legacyHash).1.expectedPrevHash =
      (d.legacyRegion crypto legacyHash).legacyAnchorHash := by
    rw [hsee]
    exact if_pos (Nat.pos_of_ne_zero hne)
  have htak := h.take_eq hhas hcha hi hanc hleg (by rw [hexp]; exact Nat.succ_pos _)
    (by rw [hexp]; exact hleg)
  rw [hexp,Nat.add_sub_cancel,Nat.add_sub_add_right] at htak
  have hilt := (List.getElem?_eq_some_iff.mp hi).1
  have hget := List.getElem?_eq_getElem (Nat.lt_of_lt_of_le hleg hilt)
  -- The first entry of the walk is the entry that was written under its number.
  have hfir := congrArg (·[0]?) htak
  simp only [List.getElem?_take,List.getElem?_drop,Nat.add_zero,hget] at hfir
  rw [if_pos (by omega),if_pos (by omega),← List.head?_eq_getElem?] at hfir
  have hbef : (d.legacyRegion crypto legacyHash).legacyCount - 1 < history.length := by omega
  have hlin := hcha.prevHash (i := (d.legacyRegion crypto legacyHash).legacyCount - 1)
    (by rw [Nat.sub_add_cancel (Nat.pos_of_ne_zero hne)]; exact hget) (List.getElem?_eq_getElem hbef)
  rw [h.walked.first _ hfir,hpre] at hlin
  exact legacyAnchorHash_ne hhas hcha (List.getElem_mem hbef) (Nat.pos_of_ne_zero hne) hlin

theorem legacyCount_lt_start (h : CleanPass crypto legacyHash d) :
    (d.legacyRegion crypto legacyHash).legacyCount < (d.chainSeed crypto legacyHash).1.expectedSequence := by
  unfold AuditFiles.chainSeed
  rcases LegacyRegion.resolveChainSeed_cases h.seeded with hsee | ⟨rotation,_,hsee,hbas⟩
  · rw [hsee]
    exact Nat.lt_succ_self _
  · rw [hsee]
    exact Nat.lt_of_succ_lt hbas

/-- What the files still hold of the chain: from its first entry or from the authenticated base, what was written up
to the anchored head. -/
theorem originals (h : CleanPass crypto legacyHash d) (hhas : HashedBy sha256Hex crypto)
    (hcha : Chained crypto history) (hi : history[i]? = some e)
    (hanc : loadHeadAnchor crypto d.records=.valid ⟨i+1,e.entryHash⟩)
    (hleg : (d.legacyRegion crypto legacyHash).legacyCount ≤ i+1) :
    ∃ start, (start=1 ∨ ∃ rotation, loadRotationAnchor crypto d.records=.valid rotation ∧
        start=rotation.baseSequence) ∧
      (d.verifiedChain crypto).map (·.sequence)=List.range' start (d.verifiedChain crypto).length ∧
      ((d.verifiedChain crypto).filter fun x => x.sequence ≤ i+1) =
        history.filter fun x => start ≤ x.sequence ∧ x.sequence ≤ i+1 := by
  refine ⟨(d.chainSeed crypto legacyHash).1.expectedSequence,?_,h.walked.sequences,?_⟩
  · rcases LegacyRegion.resolveChainSeed_cases h.seeded with hsee | ⟨rotation,hrot,hsee,_⟩
    · have hlt := h.legacyCount_lt hhas hsee hcha (List.mem_of_getElem? hi) hanc rfl hleg
      have hzer := h.legacyCount_eq_zero hhas hcha hi hanc hlt hsee
      left
      change (LegacyRegion.resolveChainSeed _ _ _).1.expectedSequence=1
      rw [hsee,LegacyRegion.defaultSeed,hzer]
    · right
      refine ⟨rotation,hrot,?_⟩
      change (LegacyRegion.resolveChainSeed _ _ _).1.expectedSequence=_
      rw [hsee]
  · have hbeh := h.legacyCount_lt_start
    have hpos := Nat.zero_lt_of_lt hbeh
    rw [hcha.filter_between hpos,filter_le_of_consecutive h.walked.sequences]
    by_cases hsta : (d.chainSeed crypto legacyHash).1.expectedSequence ≤ i+1
    · exact h.take_eq hhas hcha hi hanc (Nat.lt_of_lt_of_le hbeh hsta) hpos hsta
    · have hzer : i+1+1 - (d.chainSeed crypto legacyHash).1.expectedSequence=0 := by omega
      rw [hzer,List.take_zero,List.take_zero]

end CleanPass

/-- The pass that decides a load reads the files and the anchors the load began with. -/
theorem cleanPass_of_strictLoad {legacyHash : Nat → LegacyEntry → String} {d : AuditFiles} {anchor : HeadAnchor}
    (hanc : loadHeadAnchor crypto d.records=.valid anchor) {mayMutate : Bool} {signer : SignerOutcome}
    {now : String}
    (h : (d.strictLoadFindings crypto legacyHash mayMutate signer now).any isHardIntegrityFinding=false) :
    ∃ records legacyAnchor, CleanPass crypto legacyHash ⟨d.files,records,legacyAnchor⟩ ∧
      records.headAnchor=d.records.headAnchor ∧ records.rotationAnchor=d.records.rotationAnchor := by
  rw [AuditFiles.strictLoadFindings] at h
  by_cases hfir : (d.loadFindings crypto legacyHash false).any isHardIntegrityFinding=true
  · rw [if_pos hfir] at h
    have hkee : Beside fun s => s.headAnchor=d.records.headAnchor ∧ s.rotationAnchor=d.records.rotationAnchor :=
      ⟨fun _ _ h => h,fun _ _ h => h,fun _ _ h => h⟩
    refine ⟨_,_,cleanPass_of_loadFindings h,?_⟩
    rw [AuditFiles.anchoredRecords,hanc,if_neg (by simp [LegacyRegion.headAnchorDue])]
    exact AuditFiles.recoveredRecords_keeps hkee ⟨rfl,rfl⟩ mayMutate now false
  · rw [if_neg hfir] at h
    exact ⟨d.records,d.legacyAnchor,cleanPass_of_loadFindings h,rfl,rfl⟩

/-- Whatever is done to the entry files of a log, a load that reports no hard finding yields a chain without gaps from
the first entry or the authenticated base, and up to the anchored head it holds what was written, as long as there
are no more legacy entries than the anchored head counts. -/
theorem tampered_load_yields_originals {sha256Hex : String → String} (hhash : HashedBy sha256Hex crypto)
    (legacyHash : Nat → LegacyEntry → String) (events : List AuditEvent) {d : AuditFiles}
    (hhead : d.records.headAnchor=(World.run crypto {} events).store.headAnchor)
    (hrotation : d.records.rotationAnchor=(World.run crypto {} events).store.rotationAnchor) {anchor : HeadAnchor}
    (hanchor : loadHeadAnchor crypto d.records=.valid anchor)
    (hlegacy : (d.legacyEntries crypto).length ≤ anchor.highestSequence) (mayMutate : Bool) (signer : SignerOutcome)
    (now : String)
    (hclean : (d.strictLoadFindings crypto legacyHash mayMutate signer now).any isHardIntegrityFinding=false) :
    ∃ start, (start=1 ∨ ∃ rotation, loadRotationAnchor crypto (World.run crypto {} events).store=.valid rotation ∧
        start=rotation.baseSequence) ∧
      (d.verifiedChain crypto).map (·.sequence)=List.range' start (d.verifiedChain crypto).length ∧
      ((d.verifiedChain crypto).filter fun e => e.sequence ≤ anchor.highestSequence) =
        (World.run crypto {} events).store.history.filter fun e =>
          start ≤ e.sequence ∧ e.sequence ≤ anchor.highestSequence := by
  obtain ⟨pruned,hcha⟩ := ((World.chainSound_empty crypto).run events).store
  obtain ⟨records,legacyAnchor,hpas,hhea',hrot'⟩ := cleanPass_of_strictLoad hanchor hclean
  -- The anchor names an entry that was written.
  have hrea : ∀ s s' : AuditStore, s.headAnchor=s'.headAnchor → loadHeadAnchor crypto s=loadHeadAnchor crypto s' := by
    intro s s' hsam
    rw [loadHeadAnchor,loadHeadAnchor,hsam]
  rw [hrea _ _ hhead] at hanchor
  cases hrec : (World.run crypto {} events).store.headAnchor with
  | none =>
    rw [loadHeadAnchor,hrec] at hanchor
    cases hanchor
  | some record =>
    obtain ⟨i,e,hi,hval⟩ := hcha.loadHeadAnchor_eq hrec
    rw [hval] at hanchor
    cases hanchor
    have hrot : loadRotationAnchor crypto (World.run crypto {} events).store=loadRotationAnchor crypto records := by
      rw [loadRotationAnchor,loadRotationAnchor,hrot',hrotation]
    rw [hrot]
    exact hpas.originals hhash hcha.chained hi ((hrea _ _ (hhea'.trans hhead)).trans hval) hlegacy

/-! ## Payloads that are repeated

Anyone can hash a payload that was stored into an entry of their own, or store it once more as it is. -/

section Replay

variable (crypto) (entry : AuditEntry) (nonce : Nat)

def writtenEntry : PersistedAuditEnvelope := envelopeOf crypto entry nonce 1 auditChainGenesis

def replayedEntry : PersistedAuditEnvelope :=
  let first := writtenEntry crypto entry nonce
  let input : EntryHashInput := ⟨2,first.entryHash,first.timestamp,first.encryptedPayloadBytes⟩
  ⟨input,crypto.computeAuditEntryHash input⟩

def oneEntryStore : AuditStore :=
  { entries := [writtenEntry crypto entry nonce]
    headAnchor := some (sealRecord crypto.headAnchorMac ⟨1,(writtenEntry crypto entry nonce).entryHash⟩)
    established := true
    history := [writtenEntry crypto entry nonce] }

def replayedFiles : AuditFiles :=
  ⟨[.chained (writtenEntry crypto entry nonce) Nat.one_pos,.chained (replayedEntry crypto entry nonce) Nat.two_pos],
    oneEntryStore crypto entry nonce,none⟩

def legacyFiles : AuditFiles :=
  ⟨[.legacy ⟨"entry-1",(writtenEntry crypto entry nonce).encryptedPayloadBytes⟩,
      .legacy ⟨"entry-2",(writtenEntry crypto entry nonce).encryptedPayloadBytes⟩],
    oneEntryStore crypto entry nonce,none⟩

theorem decrypt_writtenEntry :
    crypto.decrypt (writtenEntry crypto entry nonce).encryptedPayloadBytes=some entry :=
  crypto.decrypt_encrypt entry nonce

theorem loadHeadAnchor_oneEntryStore :
    loadHeadAnchor crypto (oneEntryStore crypto entry nonce) =
      .valid ⟨1,(writtenEntry crypto entry nonce).entryHash⟩ := by
  have hrea : readSealed crypto.headAnchorMac (oneEntryStore crypto entry nonce).headAnchor =
      .valid ⟨1,(writtenEntry crypto entry nonce).entryHash⟩ := readSealed_sealRecord _ _
  rw [loadHeadAnchor,hrea]
  rfl

theorem signingFindings_oneEntryStore :
    (signingView crypto (oneEntryStore crypto entry nonce)).findings false=[] := rfl

theorem verifiedChain_replayedFiles :
    (replayedFiles crypto entry nonce).verifiedChain crypto =
      [writtenEntry crypto entry nonce,replayedEntry crypto entry nonce] := by
  have hfil : (replayedFiles crypto entry nonce).envelopes =
      [writtenEntry crypto entry nonce,replayedEntry crypto entry nonce] := rfl
  rw [AuditFiles.verifiedChain,hfil,chainedEntries,List.filter_eq_self]
  intro e he
  rcases List.mem_pair.mp he with rfl | rfl
  · rw [decrypt_writtenEntry]
    rfl
  · change (crypto.decrypt (writtenEntry crypto entry nonce).encryptedPayloadBytes).isSome
    rw [decrypt_writtenEntry]
    rfl

theorem strictLoad_replayedFiles (legacyHash : Nat → LegacyEntry → String) (mayMutate : Bool) (signer : SignerOutcome)
    (now : String) :
    (replayedFiles crypto entry nonce).strictLoadFindings crypto legacyHash mayMutate signer now=[] := by
  have hfil : (replayedFiles crypto entry nonce).files.flatMap (AuditFile.findings crypto)=[] := by
    change entryFindings crypto (writtenEntry crypto entry nonce) ++
      (entryFindings crypto (replayedEntry crypto entry nonce)++[])=[]
    simp [entryFindings,writtenEntry,replayedEntry,envelopeOf,crypto.decrypt_encrypt]
  have hfin : (replayedFiles crypto entry nonce).loadFindings crypto legacyHash false=[] := by
    have hreg : (replayedFiles crypto entry nonce).legacyRegion crypto legacyHash=.empty := rfl
    have hhig : (replayedFiles crypto entry nonce).highestChainedSeq crypto legacyHash=2 := rfl
    have hanc : loadHeadAnchor crypto (replayedFiles crypto entry nonce).records=_ :=
      loadHeadAnchor_oneEntryStore crypto entry nonce
    have hsig : (signingView crypto (replayedFiles crypto entry nonce).records).findings false=[] :=
      signingFindings_oneEntryStore crypto entry nonce
    rw [AuditFiles.loadFindings,hreg,hhig,hfil,hsig,hanc,verifiedChain_replayedFiles,
      LegacyRegion.verifyLegacyAnchor_empty,LegacyRegion.resolveChainSeed_empty]
    simp [resolveChainSeed,verifyChainedEntries,writtenEntry,replayedEntry,envelopeOf,
      LegacyRegion.verifyHeadAnchor,LegacyRegion.headAnchorDue,verifyHeadAnchor,LegacyRegion.anchorEntryHash,
      anchorEntryHash,replayedFiles,oneEntryStore]
  rw [AuditFiles.strictLoadFindings,hfin]
  rfl

theorem strictLoad_legacyFiles (legacyHash : Nat → LegacyEntry → String) (mayMutate : Bool) (signer : SignerOutcome)
    (now : String) :
    (legacyFiles crypto entry nonce).strictLoadFindings crypto legacyHash mayMutate signer now=[] := by
  have hleg : (legacyFiles crypto entry nonce).legacyEntries crypto =
      [⟨"entry-1",(writtenEntry crypto entry nonce).encryptedPayloadBytes⟩,
        ⟨"entry-2",(writtenEntry crypto entry nonce).encryptedPayloadBytes⟩] := by
    simp [AuditFiles.legacyEntries,legacyFiles,AuditFile.legacyEntry?,decrypt_writtenEntry]
  have hcou : ((legacyFiles crypto entry nonce).legacyRegion crypto legacyHash).legacyCount=2 := by
    rw [AuditFiles.legacyRegion,hleg]
    rfl
  have hfil : (legacyFiles crypto entry nonce).files.flatMap (AuditFile.findings crypto)=[] := by
    simp [legacyFiles,AuditFile.findings,decrypt_writtenEntry]
  have hfin : (legacyFiles crypto entry nonce).loadFindings crypto legacyHash false=[] := by
    have hcha : (legacyFiles crypto entry nonce).verifiedChain crypto=[] := rfl
    have hhig : (legacyFiles crypto entry nonce).highestChainedSeq crypto legacyHash=2 := hcou
    have hanc : loadHeadAnchor crypto (legacyFiles crypto entry nonce).records=_ :=
      loadHeadAnchor_oneEntryStore crypto entry nonce
    have hsig : (signingView crypto (legacyFiles crypto entry nonce).records).findings false=[] :=
      signingFindings_oneEntryStore crypto entry nonce
    have hrot : loadRotationAnchor crypto (legacyFiles crypto entry nonce).records=.absent := rfl
    have hfir : (legacyFiles crypto entry nonce).legacyAnchor=none := rfl
    have hche : (legacyFiles crypto entry nonce).records.checkpoints=[] := rfl
    rw [AuditFiles.loadFindings,hhig,hfil,hsig,hanc,hcha,hrot,hfir,hche]
    simp [LegacyRegion.resolveChainSeed,LegacyRegion.verifyLegacyAnchor,verifyChainedEntries,
      LegacyRegion.verifyHeadAnchor,LegacyRegion.headAnchorDue,verifyHeadAnchor,LegacyRegion.anchorEntryHash,
      anchorEntryHash,LegacyRegion.defaultSeed,hcou]
  rw [AuditFiles.strictLoadFindings,hfin]
  rfl

end Replay

/-- A digest that is the text itself has no collisions. -/
def jsonCrypto : AuditCrypto :=
  { textCrypto with
    computeAuditEntryHash := computeAuditEntryHash id
    computeAuditRoot := computeAuditRoot id
    headAnchorMac := (·.headHash) }

theorem hashedBy_jsonCrypto : HashedBy id jsonCrypto := ⟨Function.injective_id,rfl,rfl⟩

def oneEntryRun : List AuditEvent := [⟨0,.load true "t0",none⟩,⟨0,.append ⟨"t1","a"⟩ 1,none⟩]

theorem run_oneEntryRun :
    (World.run jsonCrypto {} oneEntryRun).store=oneEntryStore jsonCrypto ⟨"t1","a"⟩ 1 := by
  decide +kernel

theorem tampered_load_at_replayedFiles :
    let d := replayedFiles jsonCrypto ⟨"t1","a"⟩ 1
    let s := (World.run jsonCrypto {} oneEntryRun).store
    d.strictLoadFindings jsonCrypto (fun _ entry => entry.key) true .signs "t2" = [] ∧
      ∃ start, (start=1 ∨ ∃ rotation, loadRotationAnchor jsonCrypto s=.valid rotation ∧
          start=rotation.baseSequence) ∧
        (d.verifiedChain jsonCrypto).map (·.sequence)=List.range' start (d.verifiedChain jsonCrypto).length ∧
        ((d.verifiedChain jsonCrypto).filter fun e => e.sequence ≤ 1) =
          s.history.filter fun e => start ≤ e.sequence ∧ e.sequence ≤ 1 := by
  have hcle := strictLoad_replayedFiles jsonCrypto ⟨"t1","a"⟩ 1 (fun _ entry => entry.key) true .signs "t2"
  have hhar : ((replayedFiles jsonCrypto ⟨"t1","a"⟩ 1).strictLoadFindings jsonCrypto (fun _ entry => entry.key) true
      .signs "t2").any isHardIntegrityFinding=false := by
    rw [hcle]
    rfl
  have hyie := tampered_load_yields_originals hashedBy_jsonCrypto (fun _ entry => entry.key) oneEntryRun
    (d := replayedFiles jsonCrypto ⟨"t1","a"⟩ 1) (congrArg AuditStore.headAnchor run_oneEntryRun.symm)
    (congrArg AuditStore.rotationAnchor run_oneEntryRun.symm) (loadHeadAnchor_oneEntryStore jsonCrypto ⟨"t1","a"⟩ 1)
    (Nat.zero_le _) true .signs "t2" hhar
  exact ⟨hcle,hyie⟩

/-- An attacker without the key repeats a payload. Hashed into a next entry it is yielded above the anchored head;
stored twice as it is, it takes the place of the whole chain. Neither load reports anything. -/
theorem replayed_payload_loads_clean :
    let s := (World.run jsonCrypto {} oneEntryRun).store
    let replayed := replayedFiles jsonCrypto ⟨"t1","a"⟩ 1
    let legacy := legacyFiles jsonCrypto ⟨"t1","a"⟩ 1
    HashedBy id jsonCrypto ∧ s.history=[writtenEntry jsonCrypto ⟨"t1","a"⟩ 1] ∧
      (replayed.records=s ∧
        replayed.strictLoadFindings jsonCrypto (fun _ entry => entry.key) true .signs "t2" = [] ∧
        (replayed.verifiedChain jsonCrypto).length=2 ∧ ∀ e∈replayed.verifiedChain jsonCrypto,
          e.encryptedPayloadBytes∈s.history.map (·.encryptedPayloadBytes)) ∧
      legacy.records=s ∧
        legacy.strictLoadFindings jsonCrypto (fun _ entry => entry.key) true .signs "t2" = [] ∧
        legacy.verifiedChain jsonCrypto=[] := by
  refine ⟨hashedBy_jsonCrypto,congrArg AuditStore.history run_oneEntryRun,⟨run_oneEntryRun.symm,?_,?_,?_⟩,
    run_oneEntryRun.symm,?_,rfl⟩
  · exact strictLoad_replayedFiles jsonCrypto ⟨"t1","a"⟩ 1 _ true .signs "t2"
  · rw [verifiedChain_replayedFiles]
    rfl
  · rw [verifiedChain_replayedFiles,run_oneEntryRun]
    intro e he
    apply List.mem_singleton.mpr
    rcases List.mem_pair.mp he with rfl | rfl
    · rfl
    · rfl
  · exact strictLoad_legacyFiles jsonCrypto ⟨"t1","a"⟩ 1 _ true .signs "t2"

end CastleWall.Operational
