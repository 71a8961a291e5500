import CastleWall.Operational.EntryHash
import CastleWall.Support.HashChain
import CastleWall.Support.JsValue

/-! # The sealed region

`verifySealedRegionAt` of `operational/audit-log.ts`: the entries below the split boundary are read by their file
names, indexed by the sequence inside them, and walked up to the authenticated tip. -/

namespace CastleWall.Operational

inductive StoredFile where
  | absent
  | unreadable
  | unparseable
  | parsed (value : JsValue)

/-- The name and the content of every file of `_audit`, in listing order. -/
abbrev AuditDirectory := List (String × StoredFile)

/-- A name that starts with `entry-`, twenty digits and a dash, for its digits read as a safe integer. -/
def parseEntryKeySequence (key : String) : Option Nat :=
  match key.toList with
  | 'e' :: 'n' :: 't' :: 'r' :: 'y' :: '-' :: rest =>
    let digits := rest.take 20
    if digits.length=20 ∧ digits.all Char.isDigit ∧ rest[20]? = some '-' then
      let sequence := digits.foldl (fun n c => 10 * n+(c.toNat - '0'.toNat)) 0
      if sequence ≤ JsValue.maxSafeInteger then some sequence else none
    else none
  | _ => none

/-- `isSealedEnvelopeV2`, with what it checked. -/
def readSealedEnvelope (value : JsValue) : Option PersistedAuditEnvelope := do
  let schemaVersion ← (value.get "schema_version").bind JsValue.asNonNegativeInt
  guard (schemaVersion=2)
  let sequence ← (value.get "sequence").bind JsValue.asNonNegativeInt
  guard (0 < sequence)
  let prevHash ← (value.get "prev_hash").bind JsValue.asString
  let entryHash ← (value.get "entry_hash").bind JsValue.asString
  guard (hex64 entryHash)
  let timestamp ← (value.get "timestamp").bind JsValue.asString
  let encryptedPayloadBytes ← (value.get "encrypted_payload_bytes").bind JsValue.asString
  return ⟨⟨sequence,prevHash,timestamp,encryptedPayloadBytes⟩,entryHash⟩

structure SplitBoundary where
  (sealedTipSequence sealedBaseSequence : Nat)
  sealedTipEntryHash : String
  base_le : sealedBaseSequence ≤ sealedTipSequence
  base_pos : 0 < sealedTipSequence → 0 < sealedBaseSequence

inductive SealedRegionVerdict where
  | notPresent
  | empty
  | verified (entriesVerified sealedTipSequence : Nat)
  | unreadable
  | incomplete (expectedTip highestPresent : Nat)
  | hashMismatch (sequence : Nat) (expected actual : String)
deriving DecidableEq

/-- `bySeq.set`. The index is sorted before it is used, so its order does not matter. -/
def setEnvelope (envelopes : List PersistedAuditEnvelope) (envelope : PersistedAuditEnvelope) :
    List PersistedAuditEnvelope :=
  envelopes.filter (fun other => other.sequence≠envelope.sequence)++[envelope]

def indexSealed (tip : Nat) (envelopes : List PersistedAuditEnvelope) :
    AuditDirectory → Except SealedRegionVerdict (List PersistedAuditEnvelope)
  | [] => .ok envelopes
  | file::files =>
    match parseEntryKeySequence file.1 with
    | none => indexSealed tip envelopes files
    | some seq =>
      if tip < seq then indexSealed tip envelopes files
      else
        match file.2 with
        | .unreadable => .error .unreadable
        | .absent => indexSealed tip envelopes files
        | .unparseable => .error (.hashMismatch seq "<valid V2 envelope>" "<unparseable>")
        | .parsed value =>
          match readSealedEnvelope value with
          | none => .error (.hashMismatch seq "<valid V2 envelope>" "<malformed envelope>")
          | some envelope => indexSealed tip (setEnvelope envelopes envelope) files

def presentEnvelopes (envelopes : List PersistedAuditEnvelope) : List PersistedAuditEnvelope :=
  envelopes.insertionSort fun a b => a.sequence ≤ b.sequence

section Walk

variable (sha256Hex : String → String)

def walkSealed (prevHash : Option String) : List PersistedAuditEnvelope → Option SealedRegionVerdict
  | [] => none
  | envelope::envelopes =>
    let recomputed := computeAuditEntryHash sha256Hex envelope.toEntryHashInput
    if recomputed≠envelope.entryHash then
      some (.hashMismatch envelope.sequence envelope.entryHash recomputed)
    else if prevHash.any fun expected => envelope.prevHash≠expected then
      some (.hashMismatch envelope.sequence (prevHash.getD "") envelope.prevHash)
    else walkSealed (some envelope.entryHash) envelopes

def gapFree : List PersistedAuditEnvelope → Bool
  | a::b::envelopes => b.sequence=a.sequence+1 && gapFree (b::envelopes)
  | _ => true

def verifySealedRegionAt (boundary : Option SplitBoundary) (listing : Option AuditDirectory) :
    SealedRegionVerdict :=
  match boundary with
  | none => .notPresent
  | some boundary =>
    let tip := boundary.sealedTipSequence
    if tip=0 then .empty
    else
      match listing with
      | none => .unreadable
      | some files =>
        match indexSealed tip [] files with
        | .error verdict => verdict
        | .ok envelopes =>
          let present := presentEnvelopes envelopes
          match present.head?, present.getLast? with
          | some lowest, some highest =>
            if highest.sequence≠tip ∨
                (0 < boundary.sealedBaseSequence ∧ lowest.sequence≠boundary.sealedBaseSequence) then
              .incomplete tip highest.sequence
            else if ¬gapFree present then .incomplete tip highest.sequence
            else
              match walkSealed sha256Hex none present with
              | some verdict => verdict
              | none =>
                if highest.entryHash≠boundary.sealedTipEntryHash then
                  .hashMismatch tip boundary.sealedTipEntryHash highest.entryHash
                else .verified present.length tip
          | _, _ => .incomplete tip 0

end Walk

structure SealedChain (sha256Hex : String → String) (boundary : SplitBoundary)
    (originals : List PersistedAuditEnvelope) : Prop where
  sequences : originals.map (fun e => e.sequence)=List.range' boundary.sealedBaseSequence
    (boundary.sealedTipSequence+1 - boundary.sealedBaseSequence)
  hashed : ∀ e∈originals, e.entryHash=computeAuditEntryHash sha256Hex e.toEntryHashInput
  linked : originals.IsChain fun a b => b.prevHash=a.entryHash
  tip : originals.getLast?.map (fun e => e.entryHash)=some boundary.sealedTipEntryHash

section Verified

variable {sha256Hex : String → String} {envelopes : List PersistedAuditEnvelope}

theorem gapFree_iff :
    gapFree envelopes=true ↔ envelopes.IsChain fun a b => b.sequence=a.sequence+1 := by
  induction envelopes with
  | nil => simp [gapFree]
  | cons a envelopes ih =>
    cases envelopes with
    | nil => simp [gapFree]
    | cons b envelopes => rw [gapFree,Bool.and_eq_true,decide_eq_true_eq,ih,List.isChain_cons_cons]

theorem walkSealed_eq_none {prevHash : Option String}
    (h : walkSealed sha256Hex prevHash envelopes=none) :
    (∀ e∈envelopes, e.entryHash=computeAuditEntryHash sha256Hex e.toEntryHashInput) ∧
      envelopes.IsChain fun a b => b.prevHash=a.entryHash := by
  induction envelopes generalizing prevHash with
  | nil => exact ⟨by simp,.nil⟩
  | cons envelope envelopes ih =>
    rw [walkSealed] at h
    split_ifs at h with hhah hpre
    obtain ⟨hhas,hlin⟩ := ih h
    refine ⟨List.forall_mem_cons.mpr ⟨(not_not.mp hhah).symm,hhas⟩,?_⟩
    cases envelopes with
    | nil => exact .singleton envelope
    | cons next envelopes =>
      refine .cons_cons ?_ hlin
      rw [walkSealed] at h
      split_ifs at h with _ hnex
      simpa using hnex

variable {entries tip : Nat}

/-- The walk never ends in a verdict of its own that verifies. -/
theorem walkSealed_not_verified {prevHash : Option String} : walkSealed sha256Hex prevHash envelopes≠some (.verified entries tip) := by
  induction envelopes generalizing prevHash with
  | nil => simp [walkSealed]
  | cons envelope envelopes ih =>
    rw [walkSealed]
    split_ifs
    · simp
    · simp
    · exact ih

variable {files : AuditDirectory}

theorem indexSealed_not_verified {limit : Nat} :
    indexSealed limit envelopes files≠.error (.verified entries tip) := by
  induction files generalizing envelopes with
  | nil => simp [indexSealed]
  | cons file files ih =>
    rw [indexSealed]
    split
    · exact ih
    · split_ifs
      · exact ih
      · split
        · simp
        · exact ih
        · simp
        · split
          · simp
          · exact ih

theorem sequences_of_gapFree {lowest highest : PersistedAuditEnvelope}
    (hgap : envelopes.IsChain fun a b => b.sequence=a.sequence+1) (hhea : envelopes.head? = some lowest)
    (hlas : envelopes.getLast? = some highest) :
    envelopes.map (fun e => e.sequence) =
      List.range' lowest.sequence (highest.sequence+1 - lowest.sequence) := by
  induction envelopes generalizing lowest with
  | nil => simp at hhea
  | cons a envelopes ih =>
    obtain rfl : a=lowest := Option.some.inj hhea
    cases envelopes with
    | nil =>
      obtain rfl : a=highest := Option.some.inj hlas
      rw [Nat.add_sub_cancel_left]
      rfl
    | cons b envelopes =>
      obtain ⟨hste,hres⟩ := List.isChain_cons_cons.mp hgap
      have htai := ih hres rfl (by rwa [List.getLast?_cons_cons] at hlas)
      have hle : b.sequence ≤ highest.sequence := by
        have hmem : highest.sequence∈List.range' b.sequence (highest.sequence+1 - b.sequence) := by
          rw [← htai]
          exact List.mem_map_of_mem (List.mem_of_getLast? (by rwa [List.getLast?_cons_cons] at hlas))
        exact (List.mem_range'_1.mp hmem).1
      rw [List.map_cons,htai,hste,show highest.sequence+1 - a.sequence =
        (highest.sequence+1 - (a.sequence+1))+1 by omega,List.range'_succ]

theorem SealedChain.inputs_eq {boundary : SplitBoundary} {as bs : List PersistedAuditEnvelope}
    (ha : SealedChain sha256Hex boundary as) (hb : SealedChain sha256Hex boundary bs)
    (hinj : ∀ a∈as, ∀ b∈bs, computeAuditEntryHash sha256Hex a.toEntryHashInput =
      computeAuditEntryHash sha256Hex b.toEntryHashInput →
      (hashInputJson a.toEntryHashInput).canonicalText=(hashInputJson b.toEntryHashInput).canonicalText) :
    as.map (fun e => e.toEntryHashInput)=bs.map (fun e => e.toEntryHashInput) := by
  apply HashChain.map_key_of_last PersistedAuditEnvelope.entryHash
    (fun e : PersistedAuditEnvelope => some e.prevHash) PersistedAuditEnvelope.toEntryHashInput
  · intro a hame b hbme hhas
    apply hashInputText_injective
    apply hinj a hame b hbme
    rwa [← ha.hashed a hame,← hb.hashed b hbme]
  · intro a _ b _ hinp
    exact congrArg (fun input : EntryHashInput => some input.prevHash) hinp
  · exact ha.linked.imp fun _ _ hlin => congrArg some hlin
  · exact hb.linked.imp fun _ _ hlin => congrArg some hlin
  · exact ha.tip.trans hb.tip.symm
  · have hlen := congrArg List.length (ha.sequences.trans hb.sequences.symm)
    rwa [List.length_map,List.length_map] at hlen

structure Verified (sha256Hex : String → String) (boundary : SplitBoundary) (files : AuditDirectory)
    (present : List PersistedAuditEnvelope) : Prop where
  indexed : ∃ envelopes, indexSealed boundary.sealedTipSequence [] files=.ok envelopes ∧
    present=presentEnvelopes envelopes
  chain : SealedChain sha256Hex boundary present

theorem verified_of_verdict {boundary : SplitBoundary}
    (h : verifySealedRegionAt sha256Hex (some boundary) (some files)=.verified entries tip) :
    ∃ present, Verified sha256Hex boundary files present := by
  simp only [verifySealedRegionAt] at h
  by_cases hemp : boundary.sealedTipSequence=0
  · simp [hemp] at h
  rw [if_neg hemp] at h
  have hbas := boundary.base_pos (Nat.pos_of_ne_zero hemp)
  cases hind : indexSealed boundary.sealedTipSequence [] files with
  | error verdict =>
    simp only [hind] at h
    rw [h] at hind
    exact absurd hind indexSealed_not_verified
  | ok envelopes =>
    simp only [hind] at h
    split at h
    · rename_i lowest highest hhea hlas
      cases hwal : walkSealed sha256Hex none (presentEnvelopes envelopes) with
      | some verdict =>
        simp only [hwal] at h
        split_ifs at h
        rw [h] at hwal
        exact absurd hwal walkSealed_not_verified
      | none =>
        simp only [hwal] at h
        split_ifs at h with hend hgap htip
        obtain ⟨hhas,hlin⟩ := walkSealed_eq_none hwal
        rw [not_or,not_and,not_not,not_not] at hend
        have hseq := sequences_of_gapFree (gapFree_iff.mp hgap) hhea hlas
        rw [hend.1,hend.2 hbas] at hseq
        refine ⟨presentEnvelopes envelopes,⟨envelopes,hind,rfl⟩,hseq,hhas,hlin,?_⟩
        rw [hlas,Option.map_some,not_not.mp htip]
    · simp at h

def regionSequence (tip : Nat) (file : String × StoredFile) : Option Nat :=
  (parseEntryKeySequence file.1).filter fun seq => seq ≤ tip

/-- One file for each sequence from the base to the tip, with the entry that was written there. -/
structure ExactRegion (boundary : SplitBoundary) (originals : List PersistedAuditEnvelope)
    (files : AuditDirectory) : Prop where
  names : (files.filterMap (regionSequence boundary.sealedTipSequence)).Perm
    (List.range' boundary.sealedBaseSequence (boundary.sealedTipSequence+1 - boundary.sealedBaseSequence))
  holds : ∀ file∈files, ∀ seq, regionSequence boundary.sealedTipSequence file=some seq →
    ∃ value envelope original, file.2=.parsed value ∧ readSealedEnvelope value=some envelope ∧
      original∈originals ∧ original.sequence=seq ∧
      envelope.toEntryHashInput=original.toEntryHashInput

/-- No two files of the region share the sequence in their names, none of them is gone when it is read,
and each holds an envelope with the sequence of its name. -/
structure NamesAgree (tip : Nat) (files : AuditDirectory) : Prop where
  nodup : (files.filterMap (regionSequence tip)).Nodup
  present : ∀ file∈files, (regionSequence tip file).isSome → file.2≠.absent
  agree : ∀ file∈files, ∀ seq value envelope, regionSequence tip file=some seq →
    file.2=.parsed value → readSealedEnvelope value=some envelope → envelope.sequence=seq

theorem regionSequence_eq_some {seq : Nat} {file : String × StoredFile}
    (h : parseEntryKeySequence file.1=some seq) (hle : ¬tip < seq) : regionSequence tip file=some seq := by
  rw [regionSequence,h,Option.filter_some,if_pos (decide_eq_true (Nat.not_lt.mp hle))]

/-- With names and contents that agree the index loses no file. -/
theorem indexSealed_of_namesAgree
    {seen : List PersistedAuditEnvelope} (h : NamesAgree tip files)
    (hsee : ∀ e∈seen, e.sequence∉files.filterMap (regionSequence tip))
    (hind : indexSealed tip seen files=.ok envelopes) : ∃ found, envelopes=seen++found ∧
      found.map (fun e => e.sequence)=files.filterMap (regionSequence tip) ∧
      (∀ file∈files, (regionSequence tip file).isSome → ∃ value envelope, file.2=.parsed value ∧
        readSealedEnvelope value=some envelope ∧ envelope∈found) ∧
      ∀ e∈found, ∃ file∈files, ∃ value, file.2=.parsed value ∧ readSealedEnvelope value=some e := by
  induction files generalizing seen with
  | nil =>
    obtain rfl : seen=envelopes := Except.ok.inj hind
    exact ⟨[],(List.append_nil seen).symm,rfl,by simp,by simp⟩
  | cons file files ih =>
    have hres : (files.filterMap (regionSequence tip)).Nodup → NamesAgree tip files := fun hnod =>
      ⟨hnod,fun other hoth => h.present other (List.mem_cons_of_mem _ hoth),
        fun other hoth => h.agree other (List.mem_cons_of_mem _ hoth)⟩
    have hnod := h.nodup
    rw [indexSealed] at hind
    cases hreg : regionSequence tip file with
    | none =>
      rw [List.filterMap_cons_none hreg] at hsee hnod ⊢
      have hski : indexSealed tip seen files=.ok envelopes := by
        split at hind
        · exact hind
        · rename_i seq hpar
          split_ifs at hind with hlt
          · exact hind
          · rw [regionSequence_eq_some hpar hlt] at hreg
            exact absurd hreg nofun
      obtain ⟨found,hfou,hses,hfil,hori⟩ := ih (hres hnod) hsee hski
      refine ⟨found,hfou,hses,?_,?_⟩
      · intro other hoth hsom
        rcases List.mem_cons.mp hoth with rfl | hmem
        · rw [hreg] at hsom
          exact absurd hsom (by decide)
        · exact hfil other hmem hsom
      · intro e he
        obtain ⟨other,hoth,hval⟩ := hori e he
        exact ⟨other,List.mem_cons_of_mem _ hoth,hval⟩
    | some seq =>
      rw [List.filterMap_cons_some hreg] at hsee hnod ⊢
      obtain ⟨hfre,htai⟩ := List.nodup_cons.mp hnod
      obtain ⟨hpar,hle⟩ := Option.filter_eq_some_iff.mp hreg
      have hnlt : ¬tip < seq := Nat.not_lt.mpr (of_decide_eq_true hle)
      simp only [hpar,if_neg hnlt] at hind
      cases hcon : file.2 with
      | absent =>
        exact absurd hcon (h.present file List.mem_cons_self (by rw [hreg]; rfl))
      | unreadable => simp [hcon] at hind
      | unparseable => simp [hcon] at hind
      | parsed value =>
        cases hrea : readSealedEnvelope value with
        | none => simp [hcon,hrea] at hind
        | some envelope =>
          simp only [hcon,hrea] at hind
          have hseq := h.agree file List.mem_cons_self seq value envelope hreg hcon hrea
          -- no earlier envelope has this sequence, so none is dropped
          have hset : setEnvelope seen envelope=seen++[envelope] := by
            rw [setEnvelope,List.filter_eq_self.mpr]
            intro other hoth
            have hoth := hsee other hoth
            rw [hseq,decide_eq_true_eq]
            exact fun heq => hoth (heq ▸ List.mem_cons_self)
          rw [hset] at hind
          have hsee' : ∀ e∈seen++[envelope], e.sequence∉files.filterMap (regionSequence tip) := by
            intro e he
            rcases List.mem_append.mp he with hold | hnew
            · exact fun hmem => hsee e hold (List.mem_cons_of_mem _ hmem)
            · rw [List.mem_singleton.mp hnew,hseq]
              exact hfre
          obtain ⟨found,hfou,hses,hfil,hori⟩ := ih (hres htai) hsee' hind
          refine ⟨envelope::found,?_,?_,?_,?_⟩
          · rw [hfou,List.append_assoc]
            rfl
          · rw [List.map_cons,hses,hseq]
          · intro other hoth hsom
            rcases List.mem_cons.mp hoth with rfl | hmem
            · exact ⟨value,envelope,hcon,hrea,List.mem_cons_self⟩
            · obtain ⟨value',envelope',hcon',hrea',hmem'⟩ := hfil other hmem hsom
              exact ⟨value',envelope',hcon',hrea',List.mem_cons_of_mem _ hmem'⟩
          · intro e he
            rcases List.mem_cons.mp he with rfl | hmem
            · exact ⟨file,List.mem_cons_self,value,hcon,hrea⟩
            · obtain ⟨other,hoth,hval⟩ := hori e hmem
              exact ⟨other,List.mem_cons_of_mem _ hoth,hval⟩

/-- A verified region is the one that was sealed exactly when names and contents agree. -/
theorem verified_region_exact_iff (sha256Hex : String → String) (boundary : SplitBoundary)
    (files : AuditDirectory) (originals : List PersistedAuditEnvelope)
    (horiginals : SealedChain sha256Hex boundary originals)
    (hinj : ∀ a∈originals, ∀ file∈files, ∀ value b, file.2=.parsed value →
      readSealedEnvelope value=some b →
      computeAuditEntryHash sha256Hex a.toEntryHashInput=computeAuditEntryHash sha256Hex b.toEntryHashInput →
      (hashInputJson a.toEntryHashInput).canonicalText=(hashInputJson b.toEntryHashInput).canonicalText)
    (hverified : verifySealedRegionAt sha256Hex (some boundary) (some files)=.verified entries tip) :
    ExactRegion boundary originals files ↔ NamesAgree boundary.sealedTipSequence files := by
  constructor
  · intro hexa
    refine ⟨hexa.names.nodup_iff.mpr List.nodup_range',?_,?_⟩
    · intro file hfil hsom habs
      obtain ⟨seq,hseq⟩ := Option.isSome_iff_exists.mp hsom
      obtain ⟨value,envelope,original,hcon,-⟩ := hexa.holds file hfil seq hseq
      rw [habs] at hcon
      exact absurd hcon nofun
    · intro file hfil seq value envelope hseq hcon hrea
      obtain ⟨value',envelope',original,hcon',hrea',-,hsee,hinp⟩ :=
        hexa.holds file hfil seq hseq
      obtain rfl : value=value' := by
        rw [hcon] at hcon'
        exact StoredFile.parsed.inj hcon'
      obtain rfl : envelope=envelope' := Option.some.inj (hrea.symm.trans hrea')
      rw [hinp,hsee]
  · intro hagr
    obtain ⟨present,⟨envelopes,hind,hpre⟩,hcha⟩ := verified_of_verdict hverified
    obtain ⟨found,hfou,hses,hfis,hori⟩ :=
      indexSealed_of_namesAgree hagr (fun e he => absurd he (List.not_mem_nil)) hind
    rw [List.nil_append] at hfou
    subst hfou
    have hper : present.Perm envelopes := hpre ▸ List.perm_insertionSort _ envelopes
    have hsam := horiginals.inputs_eq hcha fun a ha b hb => by
      obtain ⟨file,hfil,value,hcon,hrea⟩ := hori b (hper.mem_iff.mp hb)
      exact hinj a ha file hfil value b hcon hrea
    refine ⟨?_,?_⟩
    · rw [← hses,← hcha.sequences]
      exact (hper.map _).symm
    · intro file hfil seq hseq
      obtain ⟨value,envelope,hcon,hrea,hmem⟩ := hfis file hfil (by rw [hseq]; rfl)
      have hinp : envelope.toEntryHashInput∈originals.map (fun e => e.toEntryHashInput) := by
        rw [hsam]
        exact List.mem_map_of_mem (hper.mem_iff.mpr hmem)
      obtain ⟨original,horl,heq⟩ := List.mem_map.mp hinp
      refine ⟨value,envelope,original,hcon,hrea,horl,?_,heq.symm⟩
      rw [heq]
      exact hagr.agree file hfil seq value envelope hseq hcon hrea

end Verified

def zeroDigest : String := String.ofList (List.replicate 64 '0')

def oneDigest : String := String.ofList (List.replicate 64 '1')

def sampleEntry : PersistedAuditEnvelope := ⟨⟨1,"GENESIS","t","p"⟩,zeroDigest⟩

def alteredEntry : PersistedAuditEnvelope := ⟨⟨1,"GENESIS","t","q"⟩,zeroDigest⟩

def sampleSha (text : String) : String :=
  if text=(hashInputJson sampleEntry.toEntryHashInput).canonicalText then zeroDigest else oneDigest

def sampleBoundary : SplitBoundary := ⟨1,1,zeroDigest,by decide,by decide⟩

def envelopeValue (envelope : PersistedAuditEnvelope) : JsValue :=
  .object [("schema_version",.number 2),("sequence",.number envelope.sequence),
    ("prev_hash",.string envelope.prevHash),("entry_hash",.string envelope.entryHash),
    ("timestamp",.string envelope.timestamp),
    ("encrypted_payload_bytes",.string envelope.encryptedPayloadBytes)]

def genuineFile : String × StoredFile :=
  ("entry-00000000000000000001-1700000000000-0",.parsed (envelopeValue sampleEntry))

def alteredFile : String × StoredFile :=
  ("entry-00000000000000000001-1600000000000-0",.parsed (envelopeValue alteredEntry))

theorem readSealedEnvelope_samples : readSealedEnvelope (envelopeValue sampleEntry)=some sampleEntry ∧
    readSealedEnvelope (envelopeValue alteredEntry)=some alteredEntry := by
  decide +kernel

theorem sampleChain : SealedChain sampleSha sampleBoundary [sampleEntry] where
  sequences := by decide
  hashed := by
    intro e he
    rw [List.mem_singleton.mp he,computeAuditEntryHash,sampleSha,if_pos rfl]
    rfl
  linked := .singleton sampleEntry
  tip := rfl

/-- The stand-in has no collision between what was written and what is stored. -/
theorem sampleSha_separates : ∀ a∈[sampleEntry], ∀ file∈[alteredFile,genuineFile], ∀ value b,
    file.2=.parsed value → readSealedEnvelope value=some b →
    computeAuditEntryHash sampleSha a.toEntryHashInput=computeAuditEntryHash sampleSha b.toEntryHashInput →
    (hashInputJson a.toEntryHashInput).canonicalText=(hashInputJson b.toEntryHashInput).canonicalText := by
  intro a ha file hfil value b hcon hrea hhas
  obtain rfl := List.mem_singleton.mp ha
  by_contra hne
  rw [computeAuditEntryHash,computeAuditEntryHash,sampleSha,sampleSha,if_pos rfl,
    if_neg (Ne.symm hne)] at hhas
  exact absurd hhas (by decide)

theorem verified_region_exact_iff_genuine :
    ExactRegion sampleBoundary [sampleEntry] [genuineFile] ↔ NamesAgree 1 [genuineFile] := by
  apply verified_region_exact_iff sampleSha sampleBoundary [genuineFile] [sampleEntry] sampleChain
  · intro a ha file hfil
    exact sampleSha_separates a ha file (List.mem_cons_of_mem _ hfil)
  · show verifySealedRegionAt sampleSha (some sampleBoundary) (some [genuineFile])=.verified 1 1
    decide +kernel

theorem altered_entry_passes : SealedChain sampleSha sampleBoundary [sampleEntry] ∧
    verifySealedRegionAt sampleSha (some sampleBoundary) (some [alteredFile,genuineFile])=.verified 1 1 ∧
    ¬ExactRegion sampleBoundary [sampleEntry] [alteredFile,genuineFile] := by
  refine ⟨sampleChain,by decide +kernel,?_⟩
  intro hexa
  have hseq : regionSequence 1 alteredFile=some 1 := by decide
  obtain ⟨value,envelope,original,hcon,hrea,hori,-,hinp⟩ :=
    hexa.holds alteredFile List.mem_cons_self 1 hseq
  obtain rfl : envelopeValue alteredEntry=value := StoredFile.parsed.inj hcon
  obtain rfl : alteredEntry=envelope := Option.some.inj (readSealedEnvelope_samples.2.symm.trans hrea)
  rw [List.mem_singleton.mp hori] at hinp
  exact absurd hinp (by decide)

end CastleWall.Operational
