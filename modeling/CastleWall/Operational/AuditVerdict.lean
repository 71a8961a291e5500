import CastleWall.Operational.AuditConsistent

/-! # What a load says of a consistent store

Of the chain, the anchors and the checkpoints a load finds fault only with an entry no head anchor was yet
written for, and with a cut that was announced above genesis and not made. -/

namespace CastleWall.Operational

open AuditStore

variable {crypto : AuditCrypto}

private theorem highestObserved_append_singleton (entries : List PersistedAuditEnvelope) (last : PersistedAuditEnvelope) :
    highestObserved (entries++[last])=match highestObserved entries with
      | none => some last
      | some b => if b.sequence ≤ last.sequence then some last else some b := by
  rw [highestObserved,List.foldl_append,List.foldl_cons,List.foldl_nil]
  rfl

theorem mem_of_highestObserved {entries : List PersistedAuditEnvelope} {e : PersistedAuditEnvelope}
    (h : highestObserved entries=some e) : e∈entries := by
  induction entries using List.reverseRecOn generalizing e with
  | nil => cases h
  | append_singleton entries last ih =>
    rw [highestObserved_append_singleton] at h
    rw [List.mem_append,List.mem_singleton]
    cases hbes : highestObserved entries with
    | none =>
      rw [hbes] at h
      exact .inr (Option.some.inj h).symm
    | some b =>
      rw [hbes] at h
      dsimp only at h
      split_ifs at h
      · exact .inr (Option.some.inj h).symm
      · exact .inl (Option.some.inj h ▸ ih hbes)

theorem highestObserved_concat {entries : List PersistedAuditEnvelope} {last : PersistedAuditEnvelope}
    (h : ∀ e∈entries, e.sequence ≤ last.sequence) : highestObserved (entries++[last])=some last := by
  rw [highestObserved_append_singleton]
  cases hbes : highestObserved entries with
  | none => rfl
  | some b => exact if_pos (h b (mem_of_highestObserved hbes))

theorem verifyChainedEntries_eq_nil {before entries : List PersistedAuditEnvelope}
    (h : Chained crypto (before++entries)) :
    verifyChainedEntries (before.length+1) (tipHash before) entries=[] := by
  induction entries generalizing before with
  | nil => rfl
  | cons e entries ih =>
    have hfit := h before e entries rfl
    rw [verifyChainedEntries,hfit.sequence,hfit.prevHash]
    rw [List.append_cons] at h
    have hres := ih h
    rw [List.length_append,List.length_singleton,tipHash_concat] at hres
    simp [hres]

section Chain

variable {pruned : Nat} {history entries : List PersistedAuditEnvelope} {headAnchor : Option (Sealed HeadAnchor)}
  {rotationAnchor : Option (Sealed RotationAnchor)}

namespace ChainFits

variable (h : ChainFits crypto pruned history entries headAnchor rotationAnchor)

include h

variable {e : PersistedAuditEnvelope}

theorem fits_of_mem (he : e∈entries) : ∃ before, EntryFits crypto before e := by
  rw [h.entries_eq] at he
  exact ⟨_,h.chained.fits (h.chained.mem_drop he).2⟩

theorem entryFindings_eq_nil : entries.flatMap (entryFindings crypto)=[] := by
  rw [List.flatMap_eq_nil_iff]
  intro e he
  obtain ⟨before,hfit⟩ := h.fits_of_mem he
  simp [entryFindings,hfit.entryHash,Option.isSome_iff_ne_none.mp hfit.decrypts]

theorem chainedEntries_eq : chainedEntries crypto entries=entries := by
  rw [chainedEntries,List.filter_eq_self]
  intro e he
  obtain ⟨before,hfit⟩ := h.fits_of_mem he
  exact hfit.decrypts

theorem getLast_eq : entries.getLast? = history.getLast? := by
  rw [h.entries_eq,List.getLast?_drop]
  by_cases hnil : history=[]
  · rw [hnil,List.getLast?_nil,ite_self]
  · rw [if_neg (Nat.not_le.mpr (h.survives hnil))]

theorem sequence_getLast (he : history.getLast? = some e) :
    e.sequence=history.length := by
  rw [List.getLast?_eq_getElem?] at he
  have hlt := (List.getElem?_eq_some_iff.mp he).1
  rw [h.chained.sequence he]
  omega

theorem highestObserved_eq : highestObserved entries=history.getLast? := by
  have hlas := h.getLast_eq
  cases hent : entries using List.reverseRecOn with
  | nil =>
    rw [← hlas,hent]
    rfl
  | append_singleton front last =>
    rw [hent,List.getLast?_concat] at hlas
    rw [← hlas]
    apply highestObserved_concat
    intro e he
    rw [h.sequence_getLast hlas.symm]
    apply h.sequence_le
    rw [hent]
    exact List.mem_append_left _ he

theorem highestSequence_eq : ((highestObserved entries).map (·.sequence)).getD 0=history.length := by
  rw [h.highestObserved_eq]
  cases hlas : history.getLast? with
  | none =>
    rw [List.getLast?_eq_none_iff.mp hlas]
    rfl
  | some e => exact h.sequence_getLast hlas

theorem highestHash_eq : ((highestObserved entries).map (·.entryHash)).getD auditChainGenesis=tipHash history := by
  rw [h.highestObserved_eq]
  rfl

/-- The lowest survivor is the first entry that was not deleted. -/
theorem head_eq {rest : List PersistedAuditEnvelope} (he : entries=e::rest) :
    history[pruned]? = some e := by
  have hget : (history.drop pruned)[0]? = some e := by
    rw [← h.entries_eq,he]
    rfl
  rwa [List.getElem?_drop,Nat.add_zero] at hget

theorem tipHash_take (he : history[pruned]? = some e) :
    tipHash (history.take pruned)=e.prevHash := (h.chained.fits he).prevHash.symm

end ChainFits

end Chain

/-- Entries stand in a store whose head anchor was never written. -/
def FirstUnanchored (s : AuditStore) : Prop := s.entries≠[] ∧ s.headAnchor=none

/-- The rotation anchor does not name the lowest survivor, which is not the first entry. -/
def CutUnmade (s : AuditStore) : Prop :=
  ∃ e rest record, s.entries=e::rest ∧ 1 < e.sequence ∧ s.rotationAnchor=some record ∧
    record.data.baseSequence≠e.sequence

section Anchors

variable {s : AuditStore} {pruned : Nat}
  (h : ChainFits crypto pruned s.history s.entries s.headAnchor s.rotationAnchor)

include h

theorem ChainFits.resolveChainSeed_eq (hfre : s.history=[] → s = {}) (hcut : ¬ CutUnmade s) :
    resolveChainSeed (loadRotationAnchor crypto s) s.entries =
      (⟨pruned+1,tipHash (s.history.take pruned),true⟩,[]) := by
  cases hent : s.entries with
  | nil =>
    have hnil : s.history=[] := by
      have hlas := h.getLast_eq
      rw [hent] at hlas
      exact List.getLast?_eq_none_iff.mp hlas.symm
    have hs := hfre hnil
    have hrot : s.rotationAnchor=none := by rw [hs]
    rw [h.uncut hrot,loadRotationAnchor,hrot]
    rfl
  | cons e rest =>
    have he := h.head_eq hent
    have hseq := h.chained.sequence he
    rw [resolveChainSeed]
    by_cases hgen : e.sequence ≤ 1
    · have hzer : pruned=0 := by omega
      rw [if_pos hgen,hzer]
      rfl
    · rw [if_neg hgen]
      cases hrot : s.rotationAnchor with
      | none =>
        have hzer := h.uncut hrot
        omega
      | some record =>
        obtain ⟨i,e',hi,hget,hrec⟩ := h.cut record hrot
        have hbas : record.data.baseSequence=e.sequence := by
          by_contra hne
          exact hcut ⟨e,rest,record,hent,Nat.lt_of_not_le hgen,hrot,hne⟩
        have hi' : i=pruned := by
          rw [hrec] at hbas
          change i+1=e.sequence at hbas
          omega
        rw [hi',he] at hget
        rw [loadRotationAnchor,hrot,hrec,readSealed_sealRecord,hi',← Option.some.inj hget]
        dsimp only
        rw [if_pos hseq.symm,h.tipHash_take he]

theorem ChainFits.seed_hard_of_cutUnmade (hcut : CutUnmade s) :
    ∃ f∈(resolveChainSeed (loadRotationAnchor crypto s) s.entries).2, isHardIntegrityFinding f=true := by
  obtain ⟨e,rest,record,hent,hgen,hrot,hne⟩ := hcut
  refine ⟨⟨.rotationAnchorInvalid,some e.sequence,none,false⟩,?_,rfl⟩
  obtain ⟨i,e',hi,hget,hrec⟩ := h.cut record hrot
  rw [hent,resolveChainSeed,if_neg (Nat.not_le.mpr hgen),loadRotationAnchor,hrot]
  have hbas : ¬ i+1=e.sequence := by
    rw [hrec] at hne
    exact hne
  rw [hrec,readSealed_sealRecord]
  dsimp only
  rw [if_neg hbas]
  exact List.mem_singleton_self _

theorem ChainFits.verifyChained_eq_nil (hle : pruned ≤ s.history.length) :
    verifyChainedEntries (pruned+1) (tipHash (s.history.take pruned)) s.entries=[] := by
  have hcha := h.chained
  rw [← List.take_append_drop pruned s.history,← h.entries_eq] at hcha
  have hver := verifyChainedEntries_eq_nil hcha
  rwa [List.length_take,Nat.min_eq_left hle] at hver

theorem ChainFits.anchorEntryHash_eq {i : Nat} {e : PersistedAuditEnvelope} (hi : s.history[i]? = some e)
    {hash : String} (hhas : anchorEntryHash s.entries ⟨pruned+1,tipHash (s.history.take pruned),true⟩
      ⟨i+1,e.entryHash⟩=some hash) : hash=e.entryHash := by
  rw [anchorEntryHash,h.entries_eq,h.chained.find_drop] at hhas
  dsimp only at hhas
  rw [Nat.add_sub_cancel,hi] at hhas
  by_cases hlt : pruned < i+1
  · rw [if_pos hlt] at hhas
    exact (Option.some.inj hhas).symm
  · rw [if_neg hlt] at hhas
    dsimp only at hhas
    split_ifs at hhas with hnam
    have hpru : pruned=i+1 := by omega
    rw [hpru,List.take_add_one,hi] at hhas
    exact (Option.some.inj hhas).symm.trans (tipHash_concat _ _)

theorem ChainFits.loadHeadAnchor_eq {record : Sealed HeadAnchor} (hrec : s.headAnchor=some record) :
    ∃ i e, s.history[i]? = some e ∧ loadHeadAnchor crypto s=.valid ⟨i+1,e.entryHash⟩ := by
  obtain ⟨i,e,hi,hsea⟩ := h.head record hrec
  refine ⟨i,e,hi,?_⟩
  rw [loadHeadAnchor,hrec,hsea,readSealed_sealRecord]
  rfl

theorem ChainFits.verifyHeadAnchor_eq_nil (hfre : s.history=[] → s = {}) (hfir : ¬ FirstUnanchored s) :
    verifyHeadAnchor s (loadHeadAnchor crypto s) s.history.length
      (anchorEntryHash s.entries ⟨pruned+1,tipHash (s.history.take pruned),true⟩) (!s.entries.isEmpty)=[] := by
  cases hanc : s.headAnchor with
  | none =>
    have hemp : s.entries=[] := by
      by_contra hne
      exact hfir ⟨hne,hanc⟩
    have hnil : s.history=[] := by
      have hlas := h.getLast_eq
      rw [hemp] at hlas
      exact List.getLast?_eq_none_iff.mp hlas.symm
    rw [hfre hnil]
    rfl
  | some record =>
    obtain ⟨i,e,hi,hrea⟩ := h.loadHeadAnchor_eq hanc
    have hlt := (List.getElem?_eq_some_iff.mp hi).1
    rw [hrea,verifyHeadAnchor]
    dsimp only
    rw [if_neg (by omega)]
    cases hhas : anchorEntryHash s.entries ⟨pruned+1,tipHash (s.history.take pruned),true⟩
        ⟨i+1,e.entryHash⟩ with
    | none => rfl
    | some hash =>
      dsimp only
      rw [h.anchorEntryHash_eq hi hhas,if_neg (not_not.mpr rfl)]

end Anchors

theorem verifyHeadAnchor_of_firstUnanchored {s : AuditStore} (hfir : FirstUnanchored s) (highestChainedSeq : Nat)
    (namedHash : HeadAnchor → Option String) :
    verifyHeadAnchor s (loadHeadAnchor crypto s) highestChainedSeq namedHash (!s.entries.isEmpty) =
      [⟨.tailAnchorMissing,none,none,false⟩] := by
  have hrea : loadHeadAnchor crypto s=.absent := by
    rw [loadHeadAnchor,hfir.2]
    rfl
  simp [hrea,verifyHeadAnchor,isEstablishedAuditStore,hfir.1]

section

variable {α β : Type} {f : α → Option β} {items : List α} {results : List β}

theorem filterMap_eq_of_map (h : items.map f=results.map some) : items.filterMap f=results := by
  have hid := congrArg (List.filterMap id) h
  simpa [List.filterMap_map] using hid

theorem mapM_eq_of_map (h : items.map f=results.map some) : items.mapM f=some results := by
  induction items generalizing results with
  | nil =>
    rw [List.map_nil,eq_comm,List.map_eq_nil_iff] at h
    rw [h]
    rfl
  | cons a items ih =>
    cases results with
    | nil => cases h
    | cons b results =>
      obtain ⟨ha,hres⟩ := List.cons.inj h
      rw [List.mapM_cons,ha,ih hres]
      rfl

theorem isSome_of_map (h : items.map f=results.map some) {a : α} (ha : a∈items) : (f a).isSome := by
  have hmem : f a∈results.map some := by
    rw [← h]
    exact List.mem_map_of_mem ha
  obtain ⟨b,_,hb⟩ := List.mem_map.mp hmem
  rw [← hb]
  rfl

end

/-- The survivors have the entries of a range that begins at or above the lowest of them. -/
theorem ChainFits.range_hashes {pruned : Nat} {history entries : List PersistedAuditEnvelope}
    {headAnchor : Option (Sealed HeadAnchor)} {rotationAnchor : Option (Sealed RotationAnchor)}
    (h : ChainFits crypto pruned history entries headAnchor rotationAnchor) {fromSequence toSequence : Nat}
    (hfro : pruned < fromSequence) (hto : toSequence ≤ history.length) :
    (List.range' fromSequence (toSequence+1 - fromSequence)).map
        (fun n => (bySequence entries n).map (·.entryHash)) =
      (rangeHashes history fromSequence toSequence).map some := by
  apply List.ext_getElem?
  intro i
  rw [List.getElem?_map,List.getElem?_map,rangeHashes,List.getElem?_map]
  by_cases hi : i < toSequence+1 - fromSequence
  · have hlt : fromSequence - 1+i < history.length := by omega
    rw [List.getElem?_range' hi,List.getElem?_take_of_lt hi,List.getElem?_drop,
      List.getElem?_eq_getElem hlt,Option.map_some,h.entries_eq,h.chained.bySequence_drop,
      if_pos (by omega)]
    have hind : fromSequence+1 * i - 1=fromSequence - 1+i := by omega
    rw [hind,List.getElem?_eq_getElem hlt]
    rfl
  · rw [List.getElem?_eq_none (by rw [List.length_range']; omega),
      List.getElem?_eq_none (by rw [List.length_take]; omega)]
    rfl

theorem ChainFits.rotationFloor_le {pruned : Nat} {history entries : List PersistedAuditEnvelope}
    {headAnchor : Option (Sealed HeadAnchor)} {rotationAnchor : Option (Sealed RotationAnchor)}
    (h : ChainFits crypto pruned history entries headAnchor rotationAnchor) (hne : history≠[]) :
    (entries.head?.map (·.sequence)).getD 1=pruned+1 := by
  have hlt := h.survives hne
  have hget : history[pruned]? = some history[pruned] := List.getElem?_eq_getElem hlt
  rw [h.entries_eq,List.head?_drop,hget]
  exact h.chained.sequence hget

theorem CheckpointFits.verify_eq {history : List PersistedAuditEnvelope} {record : AuditCheckpointRecord}
    (h : CheckpointFits crypto history record) :
    verifyCheckpointRecordSignature crypto record=record.signed.isSome := by
  rw [verifyCheckpointRecordSignature]
  cases hsig : record.signed with
  | none => rfl
  | some signature => exact h.verifies signature hsig

theorem checkpointFindings_eq_nil {pruned : Nat} {history entries : List PersistedAuditEnvelope}
    {headAnchor : Option (Sealed HeadAnchor)} {rotationAnchor : Option (Sealed RotationAnchor)}
    (h : ChainFits crypto pruned history entries headAnchor rotationAnchor) {record : AuditCheckpointRecord}
    (hfit : CheckpointFits crypto history record) : checkpointFindings crypto entries record=[] := by
  have hne : history≠[] := by
    intro hnil
    have hle := hfit.le_length
    have hfro := hfit.from_le
    have hpos := hfit.from_pos
    rw [hnil,List.length_nil] at hle
    omega
  have hsig : ¬ (record.signed.isSome ∧ verifyCheckpointRecordSignature crypto record=false) := by
    intro ⟨hsom,hbad⟩
    rw [hfit.verify_eq,hsom] at hbad
    cases hbad
  rw [checkpointFindings,h.rotationFloor_le hne,if_neg hsig,List.append_nil]
  by_cases hspa : spansRotatedEntries (pruned+1) record=true
  · rw [if_pos hspa]
  · have hfro : pruned < record.fromSequence := by
      have hpos := hfit.from_pos
      simp only [spansRotatedEntries,decide_eq_true_eq,not_and,not_lt] at hspa
      have hle := hspa hpos
      omega
    have hmap := h.range_hashes hfro hfit.le_length
    have hroo : (checkpointRange record).filterMap (fun n => (bySequence entries n).map (·.entryHash)) =
        rangeHashes history record.fromSequence record.checkpointSequence := filterMap_eq_of_map hmap
    rw [if_neg hspa,checkpointRootFindings,hroo,if_neg (not_not.mpr hfit.root),List.append_nil,
      List.filterMap_eq_nil_iff]
    intro n hn
    have hsom := isSome_of_map hmap hn
    rw [Option.isSome_map] at hsom
    simp [Option.isSome_iff_ne_none.mp hsom]

end CastleWall.Operational
