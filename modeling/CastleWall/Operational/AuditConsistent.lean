import CastleWall.Operational.AuditLog
import Mathlib.Data.List.Induction

/-! # The stores that runs leave

The chain, the anchors and the checkpoints of a store, compared with the entries that were ever written. Each
storage operation of a writer keeps a store consistent, so a crash may follow any of them. -/

namespace CastleWall.Operational

open AuditStore

/-- Among items with keys of their own, a search by key finds the one item under it. -/
theorem find_eq_some_iff {α κ : Type} [DecidableEq κ] {key : α → κ} {items : List α}
    (hnod : (items.map key).Nodup) {k : κ} {a : α} :
    (items.find? fun x => key x=k)=some a ↔ a∈items ∧ key a=k := by
  constructor
  · intro h
    exact ⟨List.mem_of_find?_eq_some h,by simpa using List.find?_some h⟩
  · intro ⟨ha,hk⟩
    cases hfind : items.find? fun x => key x=k with
    | none => simpa [hk] using List.find?_eq_none.mp hfind a ha
    | some b =>
      have hb : key b=k := by simpa using List.find?_some hfind
      rw [List.inj_on_of_nodup_map hnod (List.mem_of_find?_eq_some hfind) ha (hb.trans hk.symm)]

def tipHash (entries : List PersistedAuditEnvelope) : String :=
  (entries.getLast?.map (·.entryHash)).getD auditChainGenesis

@[simp] theorem tipHash_nil : tipHash []=auditChainGenesis := rfl

@[simp] theorem tipHash_concat (entries : List PersistedAuditEnvelope) (e : PersistedAuditEnvelope) :
    tipHash (entries++[e])=e.entryHash := by
  simp [tipHash]

section

variable (crypto : AuditCrypto)

structure EntryFits (before : List PersistedAuditEnvelope) (e : PersistedAuditEnvelope) : Prop where
  sequence : e.sequence=before.length+1
  prevHash : e.prevHash=tipHash before
  entryHash : crypto.computeAuditEntryHash e.toEntryHashInput=e.entryHash
  decrypts : (crypto.decrypt e.encryptedPayloadBytes).isSome

def Chained (history : List PersistedAuditEnvelope) : Prop :=
  ∀ before e after, history=before++e::after → EntryFits crypto before e

end

variable {crypto : AuditCrypto}

namespace Chained

variable {history : List PersistedAuditEnvelope}

theorem nil : Chained crypto [] := by
  intro before e after h
  cases before <;> cases h

variable {e : PersistedAuditEnvelope}

theorem concat (h : Chained crypto history) (he : EntryFits crypto history e) :
    Chained crypto (history++[e]) := by
  intro before e' after hspl
  cases after using List.reverseRecOn with
  | nil =>
    obtain ⟨rfl,htai⟩ := List.append_inj' hspl rfl
    cases htai
    exact he
  | append_singleton after last =>
    rw [← List.cons_append,← List.append_assoc] at hspl
    exact h before e' after (List.append_inj' hspl rfl).1

variable {i : Nat}

theorem fits (h : Chained crypto history) (hi : history[i]? = some e) :
    EntryFits crypto (history.take i) e := by
  obtain ⟨hlt,rfl⟩ := List.getElem?_eq_some_iff.mp hi
  exact h (history.take i) _ (history.drop (i+1)) (by simp)

theorem sequence (h : Chained crypto history) (hi : history[i]? = some e) :
    e.sequence=i+1 := by
  rw [(h.fits hi).sequence,List.length_take,Nat.min_eq_left]
  exact Nat.le_of_lt (List.getElem?_eq_some_iff.mp hi).1

theorem prevHash (h : Chained crypto history) {before : PersistedAuditEnvelope}
    (hi : history[i+1]? = some e) (hbef : history[i]? = some before) : e.prevHash=before.entryHash := by
  rw [(h.fits hi).prevHash,List.take_add_one,hbef]
  exact tipHash_concat _ _

theorem mem_drop (h : Chained crypto history) {pruned : Nat}
    (he : e∈history.drop pruned) : pruned < e.sequence ∧ history[e.sequence - 1]? = some e := by
  obtain ⟨i,hi⟩ := List.mem_iff_getElem?.mp he
  rw [List.getElem?_drop] at hi
  have hseq := h.sequence hi
  rw [hseq,Nat.add_sub_cancel]
  exact ⟨by omega,hi⟩

theorem mem_drop_iff (h : Chained crypto history) {pruned : Nat} :
    e∈history.drop pruned ↔ pruned < e.sequence ∧ history[e.sequence - 1]? = some e := by
  refine ⟨h.mem_drop,fun ⟨hlt,he⟩ => ?_⟩
  refine List.mem_iff_getElem?.mpr ⟨e.sequence - 1 - pruned,?_⟩
  rw [List.getElem?_drop,Nat.add_sub_cancel' (Nat.le_sub_one_of_lt hlt)]
  exact he

theorem sequences_drop (h : Chained crypto history) (pruned : Nat) :
    (history.drop pruned).map (·.sequence)=List.range' (pruned+1) (history.length - pruned) := by
  apply List.ext_getElem?
  intro i
  rw [List.getElem?_map,List.getElem?_drop]
  cases he : history[pruned+i]? with
  | none =>
    have hlen := List.getElem?_eq_none_iff.mp he
    symm
    rw [Option.map_none,List.getElem?_eq_none_iff,List.length_range']
    omega
  | some e =>
    have hlen := (List.getElem?_eq_some_iff.mp he).1
    rw [Option.map_some,h.sequence he,List.getElem?_range' (by omega)]
    congr 1
    omega

theorem nodup_drop (h : Chained crypto history) (pruned : Nat) :
    ((history.drop pruned).map (·.sequence)).Nodup := by
  rw [h.sequences_drop]
  exact List.nodup_range'

theorem drop_at (h : Chained crypto history) {pruned sequence : Nat} :
    (e∈history.drop pruned ∧ e.sequence=sequence) ↔
      (if pruned < sequence then history[sequence - 1]? else none)=some e := by
  rw [h.mem_drop_iff]
  constructor
  · intro ⟨⟨hlt,he⟩,hseq⟩
    rw [hseq] at hlt he
    rw [if_pos hlt,he]
  · intro he
    by_cases hlt : pruned < sequence
    · rw [if_pos hlt] at he
      have hseq : e.sequence=sequence := by
        rw [h.sequence he]
        omega
      rw [hseq]
      exact ⟨⟨hlt,he⟩,rfl⟩
    · rw [if_neg hlt] at he
      cases he

theorem find_drop (h : Chained crypto history) (pruned sequence : Nat) :
    ((history.drop pruned).find? fun e => e.sequence=sequence) =
      if pruned < sequence then history[sequence - 1]? else none := by
  apply Option.ext
  intro e
  rw [← h.drop_at]
  exact find_eq_some_iff (h.nodup_drop pruned)

theorem bySequence_drop (h : Chained crypto history) (pruned sequence : Nat) :
    bySequence (history.drop pruned) sequence=if pruned < sequence then history[sequence - 1]? else none := by
  apply Option.ext
  intro e
  have hnod : ((history.drop pruned).reverse.map (·.sequence)).Nodup := by
    rw [List.map_reverse,List.nodup_reverse]
    exact h.nodup_drop pruned
  rw [← h.drop_at,bySequence,find_eq_some_iff hnod,List.mem_reverse]

end Chained

def rangeHashes (history : List PersistedAuditEnvelope) (fromSequence toSequence : Nat) : List String :=
  ((history.drop (fromSequence - 1)).take (toSequence+1 - fromSequence)).map (·.entryHash)

def signedSequences (checkpoints : List AuditCheckpointRecord) : List Nat :=
  (checkpoints.filter fun c => c.signed.isSome).map (·.checkpointSequence)

section

variable (crypto : AuditCrypto)

/-- Entries and anchors agree with what was written, of which the first `pruned` entries are deleted. A cut is
announced before it is made. -/
structure ChainFits (pruned : Nat) (history entries : List PersistedAuditEnvelope)
    (headAnchor : Option (Sealed HeadAnchor)) (rotationAnchor : Option (Sealed RotationAnchor)) : Prop where
  chained : Chained crypto history
  entries_eq : entries=history.drop pruned
  survives : history≠[] → pruned < history.length
  head : ∀ record, headAnchor=some record → ∃ i e, history[i]? = some e ∧
    record=sealRecord crypto.headAnchorMac ⟨i+1,e.entryHash⟩
  uncut : rotationAnchor=none → pruned=0
  cut : ∀ record, rotationAnchor=some record → ∃ i e, (i=pruned ∧ 0 < pruned ∨ i=pruned+1) ∧
    history[i]? = some e ∧ record=sealRecord crypto.rotationAnchorMac ⟨i+1,e.prevHash⟩

structure CheckpointFits (history : List PersistedAuditEnvelope) (record : AuditCheckpointRecord) : Prop where
  from_pos : 0 < record.fromSequence
  from_le : record.fromSequence ≤ record.checkpointSequence
  le_length : record.checkpointSequence ≤ history.length
  root : record.rootHash =
    crypto.computeAuditRoot (rangeHashes history record.fromSequence record.checkpointSequence)
  verifies : ∀ signature, record.signed=some signature →
    crypto.verify record.toCheckpointPayload signature=true

structure CheckpointsFit (history : List PersistedAuditEnvelope) (checkpoints : List AuditCheckpointRecord) :
    Prop where
  ordered : checkpoints.Pairwise fun a b => a.checkpointSequence < b.checkpointSequence
  fits : ∀ record∈checkpoints, CheckpointFits crypto history record
  previous : ∀ record∈checkpoints, 0 < record.previousCheckpointSequence →
    record.previousCheckpointSequence∈checkpoints.map (·.checkpointSequence)

/-- The head witnesses signed checkpoints only, and no incident. -/
structure SigningHeadFits (signed : List Nat) (head : SigningHead) : Prop where
  recent : head.recent=[]
  undowngraded : head.hardDowngradeEverLatched=false
  recovered : ∀ m∈head.latched, m.markerKind≠.downgradeLatched
  tip : head.highestSignedCheckpointSequence=0 ∨ head.highestSignedCheckpointSequence∈signed
  floorless : head.lowestSignedCheckpointSequence=none → head.highestSignedCheckpointSequence=0
  floor : ∀ lowest, head.lowestSignedCheckpointSequence=some lowest → lowest∈signed

/-- The control records agree with the checkpoints. `signing` tells whether any process has had an identity. -/
structure SigningFits (signing : Bool) (checkpoints : List AuditCheckpointRecord)
    (signingLatch : Option (Sealed SigningLatch)) (signingHead : Option (Sealed SigningHead)) : Prop where
  unsigned : signing=false → signingLatch=none ∧ signingHead=none ∧ signedSequences checkpoints=[]
  boundary : ∀ c∈checkpoints, c.signed=none → ∀ n∈signedSequences checkpoints, c.checkpointSequence < n
  latch : ∀ record, signingLatch=some record → ∃ latch, record=sealRecord crypto.signingLatchMac latch ∧
    0 < latch.armedAtSequence ∧
      ∀ c∈checkpoints, c.signed=none → c.checkpointSequence < latch.armedAtSequence
  head : ∀ record, signingHead=some record → ∃ head, record=sealRecord crypto.signingHeadMac head ∧
    SigningHeadFits (signedSequences checkpoints) head
  headed : signingLatch≠none ∨ signedSequences checkpoints≠[] → signingHead≠none

structure Consistent (signing : Bool) (s : AuditStore) : Prop where
  chain : ∃ pruned, ChainFits crypto pruned s.history s.entries s.headAnchor s.rotationAnchor
  /-- Nothing stands in a store before its first entry. -/
  fresh : s.history=[] → s = {}
  checkpoints : CheckpointsFit crypto s.history s.checkpoints
  control : SigningFits crypto signing s.checkpoints s.signingLatch s.signingHead

end

theorem Consistent.empty (signing : Bool) : Consistent crypto signing {} where
  chain := ⟨0,⟨Chained.nil,rfl,fun h => absurd rfl h,nofun,fun _ => rfl,nofun⟩⟩
  fresh _ := rfl
  checkpoints := ⟨List.Pairwise.nil,nofun,nofun⟩
  control := ⟨fun _ => ⟨rfl,rfl,rfl⟩,nofun,nofun,nofun,by simp [signedSequences]⟩

theorem rangeHashes_append {history : List PersistedAuditEnvelope} {toSequence : Nat}
    (h : toSequence ≤ history.length) {fromSequence : Nat} (hfro : 0 < fromSequence)
    (more : List PersistedAuditEnvelope) :
    rangeHashes (history++more) fromSequence toSequence=rangeHashes history fromSequence toSequence := by
  unfold rangeHashes
  by_cases hle : fromSequence ≤ toSequence
  · rw [List.drop_append_of_le_length (by omega),List.take_append_of_le_length]
    rw [List.length_drop]
    omega
  · have hzer : toSequence+1 - fromSequence=0 := by omega
    rw [hzer,List.take_zero,List.take_zero]

theorem orderedInsert_eq_concat {α : Type} {key : α → Nat} {items : List α} {a : α}
    (h : ∀ b∈items, key b < key a) :
    items.orderedInsert (fun x y => key x ≤ key y) a=items++[a] := by
  induction items with
  | nil => rfl
  | cons b items ih =>
    have hb : ¬ key a ≤ key b := Nat.not_le.mpr (h b List.mem_cons_self)
    rw [List.orderedInsert,if_neg hb,ih fun c hc => h c (List.mem_cons_of_mem _ hc),List.cons_append]

namespace ChainFits

variable {pruned : Nat} {history entries : List PersistedAuditEnvelope} {headAnchor : Option (Sealed HeadAnchor)}
  {rotationAnchor : Option (Sealed RotationAnchor)} {e : PersistedAuditEnvelope}

theorem sequence_le (h : ChainFits crypto pruned history entries headAnchor rotationAnchor) (he : e∈entries) : e.sequence ≤ history.length := by
  rw [h.entries_eq] at he
  have hget := (h.chained.mem_drop he).2
  have hlt := (List.getElem?_eq_some_iff.mp hget).1
  have hpos := (h.chained.mem_drop he).1
  omega

theorem pruned_eq_zero (h : ChainFits crypto pruned history entries headAnchor rotationAnchor)
    (hnil : history=[]) : pruned=0 := by
  cases hrot : rotationAnchor with
  | none => exact h.uncut hrot
  | some record =>
    obtain ⟨i,e,_,hi,_⟩ := h.cut record hrot
    rw [hnil] at hi
    cases hi

theorem getElem_base (h : ChainFits crypto pruned history entries headAnchor rotationAnchor)
    {oldest base : PersistedAuditEnvelope} {rest : List PersistedAuditEnvelope}
    (hent : entries=oldest::base::rest) : history[pruned+1]? = some base := by
  rw [← List.getElem?_drop,← h.entries_eq,hent]
  rfl

theorem pruned_le (h : ChainFits crypto pruned history entries headAnchor rotationAnchor) :
    pruned ≤ history.length := by
  by_cases hnil : history=[]
  · rw [h.pruned_eq_zero hnil]
    exact Nat.zero_le _
  · exact Nat.le_of_lt (h.survives hnil)

theorem append (h : ChainFits crypto pruned history entries headAnchor rotationAnchor)
    (he : EntryFits crypto history e) :
    ChainFits crypto pruned (history++[e])
      (entries.orderedInsert (fun a b => a.sequence ≤ b.sequence) e) headAnchor rotationAnchor where
  chained := h.chained.concat he
  entries_eq := by
    have hlt : ∀ b∈entries, b.sequence < e.sequence := by
      intro b hb
      have hle := h.sequence_le hb
      rw [he.sequence]
      omega
    rw [orderedInsert_eq_concat hlt,h.entries_eq,List.drop_append_of_le_length h.pruned_le]
  survives _ := by
    rw [List.length_append,List.length_singleton]
    exact Nat.lt_succ_of_le h.pruned_le
  head record hrec := by
    obtain ⟨i,e',hi,hsea⟩ := h.head record hrec
    exact ⟨i,e',List.getElem?_append_left (List.getElem?_eq_some_iff.mp hi).1 ▸ hi,hsea⟩
  uncut := h.uncut
  cut record hrec := by
    obtain ⟨i,e',hcut,hi,hsea⟩ := h.cut record hrec
    exact ⟨i,e',hcut,List.getElem?_append_left (List.getElem?_eq_some_iff.mp hi).1 ▸ hi,hsea⟩

theorem anchorHead (h : ChainFits crypto pruned history entries headAnchor rotationAnchor) {i : Nat} (hi : history[i]? = some e) :
    ChainFits crypto pruned history entries (some (sealRecord crypto.headAnchorMac ⟨i+1,e.entryHash⟩))
      rotationAnchor where
  chained := h.chained
  entries_eq := h.entries_eq
  survives := h.survives
  head _ hrec := ⟨i,e,hi,(Option.some.inj hrec).symm⟩
  uncut := h.uncut
  cut := h.cut

theorem announceCut (h : ChainFits crypto pruned history entries headAnchor rotationAnchor) (hi : history[pruned+1]? = some e) :
    ChainFits crypto pruned history entries headAnchor
      (some (sealRecord crypto.rotationAnchorMac ⟨e.sequence,e.prevHash⟩)) where
  chained := h.chained
  entries_eq := h.entries_eq
  survives := h.survives
  head := h.head
  uncut := nofun
  cut record hrec := by
    refine ⟨pruned+1,e,.inr rfl,hi,?_⟩
    rw [← Option.some.inj hrec,h.chained.sequence hi]

theorem makeCut {oldest : PersistedAuditEnvelope} {rest : List PersistedAuditEnvelope}
    (h : ChainFits crypto pruned history (oldest::e::rest) headAnchor
      (some (sealRecord crypto.rotationAnchorMac ⟨e.sequence,e.prevHash⟩))) :
    ChainFits crypto (pruned+1) history (e::rest) headAnchor
      (some (sealRecord crypto.rotationAnchorMac ⟨e.sequence,e.prevHash⟩)) where
  chained := h.chained
  entries_eq := by
    rw [← List.tail_drop,← h.entries_eq]
    rfl
  survives _ := by
    have hlen := congrArg List.length h.entries_eq
    rw [List.length_drop,List.length_cons,List.length_cons] at hlen
    omega
  head := h.head
  uncut := nofun
  cut record hrec := by
    have hi : history[pruned+1]? = some e := by
      rw [← List.getElem?_drop,← h.entries_eq]
      rfl
    refine ⟨pruned+1,e,.inl ⟨rfl,Nat.succ_pos _⟩,hi,?_⟩
    rw [← Option.some.inj hrec,h.chained.sequence hi]

end ChainFits

theorem deleteEntry_oldest (s : AuditStore) {oldest : PersistedAuditEnvelope} {rest : List PersistedAuditEnvelope}
    (hent : s.entries=oldest::rest) : (s.deleteEntry oldest.sequence).entries=rest := by
  change s.entries.eraseP _=_
  rw [hent,List.eraseP_cons_of_pos (by simp)]

theorem CheckpointsFit.grow {history : List PersistedAuditEnvelope} {checkpoints : List AuditCheckpointRecord}
    (h : CheckpointsFit crypto history checkpoints) (e : PersistedAuditEnvelope) :
    CheckpointsFit crypto (history++[e]) checkpoints where
  ordered := h.ordered
  fits record hrec := by
    have hfit := h.fits record hrec
    refine ⟨hfit.from_pos,hfit.from_le,?_,?_,hfit.verifies⟩
    · rw [List.length_append]
      exact Nat.le_add_right_of_le hfit.le_length
    · rw [hfit.root,rangeHashes_append hfit.le_length hfit.from_pos]
  previous := h.previous

theorem CheckpointsFit.concat {history : List PersistedAuditEnvelope} {checkpoints : List AuditCheckpointRecord}
    (h : CheckpointsFit crypto history checkpoints) {record : AuditCheckpointRecord}
    (hfit : CheckpointFits crypto history record)
    (hlas : ∀ c∈checkpoints, c.checkpointSequence < record.checkpointSequence)
    (hpre : 0 < record.previousCheckpointSequence →
      record.previousCheckpointSequence∈checkpoints.map (·.checkpointSequence)) :
    CheckpointsFit crypto history (checkpoints++[record]) where
  ordered := by
    rw [List.pairwise_append]
    refine ⟨h.ordered,List.pairwise_singleton _ _,fun a ha b hb => ?_⟩
    rw [List.mem_singleton.mp hb]
    exact hlas a ha
  fits c hc := by
    rcases List.mem_append.mp hc with hc | hc
    · exact h.fits c hc
    · rw [List.mem_singleton.mp hc]
      exact hfit
  previous c hc hpos := by
    rw [List.map_append,List.mem_append]
    rcases List.mem_append.mp hc with hc | hc
    · exact .inl (h.previous c hc hpos)
    · rw [List.mem_singleton.mp hc] at hpos ⊢
      exact .inl (hpre hpos)

theorem putCheckpoint_checkpoints {s : AuditStore} {record : AuditCheckpointRecord}
    (hlas : ∀ c∈s.checkpoints, c.checkpointSequence < record.checkpointSequence) :
    (s.putCheckpoint record).checkpoints=s.checkpoints++[record] := by
  have hfil : (s.checkpoints.filter fun c => c.checkpointSequence≠record.checkpointSequence) =
      s.checkpoints := by
    rw [List.filter_eq_self]
    intro c hc
    simpa using Nat.ne_of_lt (hlas c hc)
  rw [AuditStore.putCheckpoint,hfil]
  exact orderedInsert_eq_concat hlas

theorem signedSequences_concat (checkpoints : List AuditCheckpointRecord) (record : AuditCheckpointRecord) :
    signedSequences (checkpoints++[record]) =
      signedSequences checkpoints++if record.signed.isSome then [record.checkpointSequence] else [] := by
  rw [signedSequences,signedSequences,List.filter_append,List.map_append]
  by_cases h : record.signed.isSome <;> simp [h]

namespace SigningHeadFits

variable {signed : List Nat} {head : SigningHead}

theorem zero (signed : List Nat) : SigningHeadFits signed zeroSigningHead :=
  ⟨rfl,rfl,nofun,.inl rfl,fun _ => rfl,nofun⟩

theorem more (h : SigningHeadFits signed head) {signed' : List Nat} (hsub : ∀ n∈signed, n∈signed') :
    SigningHeadFits signed' head where
  recent := h.recent
  undowngraded := h.undowngraded
  recovered := h.recovered
  tip := h.tip.imp_right (hsub _)
  floorless := h.floorless
  floor lowest hlow := hsub _ (h.floor lowest hlow)

end SigningHeadFits

theorem mem_unionInto {α : Type} [DecidableEq α] {base added : List α} {a : α} (h : a∈unionInto base added) :
    a∈base ∨ a∈added := by
  unfold unionInto at h
  induction added generalizing base with
  | nil => exact .inl h
  | cons b added ih =>
    rw [List.foldl_cons] at h
    rcases ih h with hbas | hadd
    · split_ifs at hbas with hb
      · exact .inl hbas
      · rcases List.mem_append.mp hbas with hbas | hb
        · exact .inl hbas
        · exact .inr (List.mem_singleton.mp hb ▸ List.mem_cons_self)
    · exact .inr (List.mem_cons_of_mem _ hadd)

/-- An intent that adds no incident and no downgrade, and names signed checkpoints. -/
structure IntentFits (signed : List Nat) (intent : SigningHeadIntent) : Prop where
  incidents : intent.addIncidents=[]
  markers : ∀ m∈intent.addMarkers, m.markerKind≠.downgradeLatched
  tip : ∀ n, intent.tipCandidate=some n → n∈signed
  floor : ∀ n, intent.floorCandidate=some n → n∈signed

theorem SigningHeadFits.merge {signed : List Nat} {head : SigningHead} (h : SigningHeadFits signed head)
    {intent : SigningHeadIntent} (hine : IntentFits signed intent) :
    SigningHeadFits signed (mergeSigningHead head intent) := by
  have hmar : ∀ m∈unionInto head.latched (intent.addMarkers.map clampMarker),
      m.markerKind≠.downgradeLatched := by
    intro m hm
    rcases mem_unionInto hm with hm | hm
    · exact h.recovered m hm
    · obtain ⟨m',hm',rfl⟩ := List.mem_map.mp hm
      exact hine.markers m' hm'
  have htip : max head.highestSignedCheckpointSequence (intent.tipCandidate.getD 0)=0 ∨
      max head.highestSignedCheckpointSequence (intent.tipCandidate.getD 0)∈signed := by
    rcases Nat.le_total (intent.tipCandidate.getD 0) head.highestSignedCheckpointSequence with hle | hle
    · rw [Nat.max_eq_left hle]
      exact h.tip
    · rw [Nat.max_eq_right hle]
      cases hn : intent.tipCandidate with
      | none => exact .inl rfl
      | some n => exact .inr (hine.tip n hn)
  have hlow : ∀ lowest,
      (head.lowestSignedCheckpointSequence.toList++intent.floorCandidate.toList).min? = some lowest →
        lowest∈signed := by
    intro lowest hmin
    rcases List.mem_append.mp (List.min?_mem hmin) with hmem | hmem
    · exact h.floor lowest (Option.mem_toList.mp hmem)
    · exact hine.floor lowest (Option.mem_toList.mp hmem)
  refine ⟨?_,?_,fun m hm => hmar m (List.mem_of_mem_drop hm),htip,?_,?_⟩
  · simp [mergeSigningHead,hine.incidents,h.recent,unionInto]
  · rw [mergeSigningHead,h.undowngraded,Bool.false_or,List.any_eq_false]
    intro m hm
    simpa using hmar m hm
  · intro hnone
    dsimp only [mergeSigningHead] at hnone ⊢
    by_cases hflo : 0 < max head.highestSignedCheckpointSequence (intent.tipCandidate.getD 0) ∧
        (head.lowestSignedCheckpointSequence.toList++intent.floorCandidate.toList).min? = none
    · -- No tip is new, and a head without a floor has none.
      rw [if_pos hflo] at hnone
      have hemp := List.min?_eq_none_iff.mp hflo.2
      have hflr : head.lowestSignedCheckpointSequence=none := by
        rw [← Option.toList_eq_nil_iff]
        exact (List.append_eq_nil_iff.mp hemp).1
      rw [hnone,h.floorless hflr]
      rfl
    · rw [if_neg hflo] at hnone
      exact Nat.eq_zero_of_not_pos fun hpos => hflo ⟨hpos,hnone⟩
  · intro lowest hsom
    dsimp only [mergeSigningHead] at hsom
    split_ifs at hsom with hflo
    · exact hine.tip lowest hsom
    · exact hlow lowest hsom

namespace SigningFits

variable {signing : Bool} {checkpoints : List AuditCheckpointRecord} {signingLatch : Option (Sealed SigningLatch)}
  {signingHead : Option (Sealed SigningHead)}

theorem putHead (h : SigningFits crypto true checkpoints signingLatch signingHead) {head : SigningHead}
    (hhea : SigningHeadFits (signedSequences checkpoints) head) :
    SigningFits crypto true checkpoints signingLatch (some (sealRecord crypto.signingHeadMac head)) where
  unsigned := nofun
  boundary := h.boundary
  latch := h.latch
  head _ hrec := ⟨head,(Option.some.inj hrec).symm,hhea⟩
  headed _ := nofun

theorem putLatch (h : SigningFits crypto true checkpoints signingLatch signingHead) (hhea : signingHead≠none)
    {latch : SigningLatch} (hpos : 0 < latch.armedAtSequence)
    (hlat : ∀ c∈checkpoints, c.signed=none → c.checkpointSequence < latch.armedAtSequence) :
    SigningFits crypto true checkpoints (some (sealRecord crypto.signingLatchMac latch)) signingHead where
  unsigned := nofun
  boundary := h.boundary
  latch _ hrec := ⟨latch,(Option.some.inj hrec).symm,hpos,hlat⟩
  head := h.head
  headed _ := hhea

theorem concat_signed (h : SigningFits crypto true checkpoints signingLatch signingHead)
    (hhea : signingHead≠none) {record : AuditCheckpointRecord} (hsig : record.signed.isSome)
    (hlas : ∀ c∈checkpoints, c.checkpointSequence < record.checkpointSequence) :
    SigningFits crypto true (checkpoints++[record]) signingLatch signingHead := by
  have huns : ∀ c∈checkpoints++[record], c.signed=none → c∈checkpoints := by
    intro c hc hnone
    rcases List.mem_append.mp hc with hc | hc
    · exact hc
    · rw [List.mem_singleton.mp hc] at hnone
      rw [hnone] at hsig
      cases hsig
  refine ⟨nofun,fun c hc hnone n hn => ?_,fun r hr => ?_,fun r hr => ?_,fun _ => hhea⟩
  · rw [signedSequences_concat,if_pos hsig] at hn
    rcases List.mem_append.mp hn with hn | hn
    · exact h.boundary c (huns c hc hnone) hnone n hn
    · rw [List.mem_singleton.mp hn]
      exact hlas c (huns c hc hnone)
  · obtain ⟨latch,hsea,hpos,hlat⟩ := h.latch r hr
    exact ⟨latch,hsea,hpos,fun c hc hnone => hlat c (huns c hc hnone) hnone⟩
  · obtain ⟨head,hsea,hfit⟩ := h.head r hr
    refine ⟨head,hsea,hfit.more fun n hn => ?_⟩
    rw [signedSequences_concat]
    exact List.mem_append_left _ hn

theorem concat_unsigned (h : SigningFits crypto false checkpoints signingLatch signingHead)
    {record : AuditCheckpointRecord} (huns : record.signed=none) :
    SigningFits crypto false (checkpoints++[record]) signingLatch signingHead := by
  obtain ⟨hlat,hhea,hnone⟩ := h.unsigned rfl
  have hsig : signedSequences (checkpoints++[record])=[] := by
    rw [signedSequences_concat,hnone,huns]
    rfl
  refine ⟨fun _ => ⟨hlat,hhea,hsig⟩,fun c hc hc' n hn => ?_,fun r hr => ?_,fun r hr => ?_,?_⟩
  · rw [hsig] at hn
    cases hn
  · rw [hlat] at hr
    cases hr
  · rw [hhea] at hr
    cases hr
  · intro hsom
    rw [hlat,hsig] at hsom
    exact absurd hsom (by simp)

theorem identity (h : SigningFits crypto signing checkpoints signingLatch signingHead) :
    SigningFits crypto true checkpoints signingLatch signingHead where
  unsigned := nofun
  boundary := h.boundary
  latch := h.latch
  head := h.head
  headed := h.headed

end SigningFits

end CastleWall.Operational
