import CastleWall.Transparency.Checkpoint
import CastleWall.Support.HashChain
import CastleWall.Support.Lines

/-! # The offline verifier

`verifyTransparencyCheckpoints` and `compareTransparencyChains` of `transparency/verify.ts`. A chain that passes is
the numbered, linked and signed sequence from the genesis on, and the payload hash at one counter fixes
every payload below it. -/

namespace CastleWall.Transparency

open Text

/-- The primitives of the verifier; `fromBase64url` is `none` where `atob` throws. -/
structure VerifyEnv where
  shortest : ℚ → String
  sha256Hex : String → String
  fromBase64url : String → Option (List UInt8)
  ed25519Verify : List UInt8 → List UInt8 → List UInt8 → Bool

section Verify

variable (env : VerifyEnv) (record : CheckpointRecord)

def payloadText : String := record.signedText env.shortest

def checkpointPayloadHash : String := env.sha256Hex (payloadText env record)

def verifyRecordSignature (publicKeyB64 : String) : Bool :=
  match env.fromBase64url publicKeyB64 with
  | none => false
  | some key =>
    if key.length≠32 then false
    else
      match env.fromBase64url record.signature with
      | none => false
      | some sig =>
        if sig.length≠64 then false
        else env.ed25519Verify sig (utf8Bytes (payloadText env record)) key

inductive TransparencyFindingKind where
  | emptyInput
  | malformedInput
  | schemaError
  | noPublicKey
  | signatureInvalid
  | counterDuplicate
  | counterGap
  | counterRollback
  | previousHashMismatch
  | fortressIdMismatch
  | signingKeyMismatch
  | counterPrefixMissing
  | genesisSentinelMismatch
  | genesisSentinelMisplaced
  | forkDetected
  | compareNoOverlap

structure TransparencyFinding where
  kind : TransparencyFindingKind
  counter : Option Nat
  (expected actual : Option JsValue)

/-- A finding with a kind and a counter only. -/
def findingAt (kind : TransparencyFindingKind) (counter : Nat) : TransparencyFinding :=
  ⟨kind,some counter,none,none⟩

/-- `PARTIAL` is `fragment`. -/
inductive Verdict where
  | pass
  | fragment
  | fail
deriving DecidableEq

inductive SignatureBasis where
  | pinned
  | embedded

structure TransparencyVerifyReport where
  verdict : Verdict
  checkpointsVerified : Nat
  counterRange : Option (Nat × Nat)
  signatureBasis : SignatureBasis
  findings : List TransparencyFinding

def failReport (findings : List TransparencyFinding) (verified : Nat) : TransparencyVerifyReport :=
  ⟨.fail,verified,none,.embedded,findings⟩

structure VerifyTransparencyOptions where
  publicKey : Option String
  (trustEmbedded allowPartial : Bool)

def inputCandidates (input : JsValue) : Option (List JsValue) :=
  match input with
  | .object _ =>
    if (input.get "format").bind JsValue.asString=some bundleFormat then
      some (((input.get "checkpoints").bind JsValue.asArray).getD [])
    else some [input]
  | .array items => some items
  | _ => none

def counterOrder (records : List CheckpointRecord) : List CheckpointRecord :=
  records.insertionSort fun a b => a.counter ≤ b.counter

def schemaFindings (candidates : List JsValue) : List TransparencyFinding :=
  candidates.filterMap fun candidate =>
    if (readVerifierCheckpointRecord candidate).isSome then none
    else some ⟨.schemaError,none,none,none⟩

def signatureFindings (publicKey : Option String) (records : List CheckpointRecord) :
    List TransparencyFinding :=
  records.filterMap fun record =>
    if verifyRecordSignature env record (publicKey.getD record.publicKey) then none
    else some (findingAt .signatureInvalid record.counter)

def linkFindings (prev curr : CheckpointRecord) : List TransparencyFinding :=
  if curr.counter≠prev.counter+1 then
    [⟨.counterGap,some curr.counter,some (.number (prev.counter+1 : Nat)),
      some (.number curr.counter)⟩]
  else if curr.previousCheckpointHash≠checkpointPayloadHash env prev then
    [⟨.previousHashMismatch,some curr.counter,some (.string (checkpointPayloadHash env prev)),
      some (.string curr.previousCheckpointHash)⟩]
  else []

def stepFindings (prev curr : CheckpointRecord) : List TransparencyFinding :=
  if curr.counter=prev.counter then [findingAt .counterDuplicate curr.counter]
  else
    linkFindings env prev curr ++
      (if curr.highestSequence < prev.highestSequence then
        [⟨.counterRollback,some curr.counter,
          some (.string ("audit highest_sequence >= " ++ toString prev.highestSequence)),
          some (.number curr.highestSequence)⟩]
      else []) ++
      (if curr.fortressId≠prev.fortressId then
        [⟨.fortressIdMismatch,some curr.counter,some (.string prev.fortressId),
          some (.string curr.fortressId)⟩]
      else []) ++
      (if curr.publicKey≠prev.publicKey then [findingAt .signingKeyMismatch curr.counter] else [])

def continuityFindings : List CheckpointRecord → List TransparencyFinding
  | prev::curr::records => stepFindings env prev curr++continuityFindings (curr::records)
  | _ => []

def genesisFindings (allowPartial : Bool) : List CheckpointRecord → List TransparencyFinding × Bool
  | [] => ([],false)
  | earliest::_ =>
    if earliest.counter=1 then
      if earliest.previousCheckpointHash≠checkpointGenesis then
        ([⟨.genesisSentinelMismatch,some 1,some (.string checkpointGenesis),
          some (.string earliest.previousCheckpointHash)⟩],false)
      else ([],false)
    else if allowPartial then ([],true)
    else ([⟨.counterPrefixMissing,some earliest.counter,some (.number 1),
      some (.number earliest.counter)⟩],false)

def misplacedFindings (records : List CheckpointRecord) : List TransparencyFinding :=
  records.tail.filterMap fun record =>
    if record.previousCheckpointHash=checkpointGenesis then
      some (findingAt .genesisSentinelMisplaced record.counter)
    else none

/-- The key basis, if there is one: a pinned key, or the embedded keys by explicit choice. -/
def signatureBasis (opts : VerifyTransparencyOptions) : Option SignatureBasis :=
  if opts.publicKey.any fun key => key ≠ "" then some .pinned
  else if opts.trustEmbedded then some .embedded
  else none

def verifyTransparencyCheckpoints (input : JsValue) (opts : VerifyTransparencyOptions) :
    TransparencyVerifyReport :=
  match inputCandidates input with
  | none => failReport [⟨.malformedInput,none,none,none⟩] 0
  | some [] => failReport [⟨.emptyInput,none,none,none⟩] 0
  | some candidates =>
    let read := candidates.filterMap readVerifierCheckpointRecord
    match signatureBasis opts with
    | none =>
      failReport (schemaFindings candidates++[⟨.noPublicKey,none,none,none⟩]) read.length
    | some basis =>
      let records := counterOrder read
      let genesis := genesisFindings opts.allowPartial records
      let findings := schemaFindings candidates++signatureFindings env opts.publicKey records ++
        continuityFindings env records++genesis.1++misplacedFindings records
      { verdict := if findings≠[] then .fail else if genesis.2 then .fragment else .pass
        checkpointsVerified := records.length
        counterRange := do
          let first ← records.head?
          let last ← records.getLast?
          return (first.counter,last.counter)
        signatureBasis := basis
        findings }

inductive ChainRelation where
  | identical
  | consistent
  | fork
  | noOverlap

structure CompareChainsResult where
  relation : ChainRelation
  divergentCounter : Option Nat
  overlap : Option (Nat × Nat)
  findings : List TransparencyFinding

def byCounter (records : List CheckpointRecord) (counter : Nat) : Option CheckpointRecord :=
  records.reverse.find? fun record => record.counter=counter

structure CompareState where
  overlap : Option (Nat × Nat)
  divergentCounter : Option Nat
  findings : List TransparencyFinding

def compareStep (other : List CheckpointRecord) (state : CompareState) (record : CheckpointRecord) :
    CompareState :=
  match byCounter other record.counter with
  | none => state
  | some peer =>
    let overlap := some ((state.overlap.map Prod.fst).getD record.counter,record.counter)
    let ours := checkpointPayloadHash env record
    let theirs := checkpointPayloadHash env peer
    if ours≠theirs ∧ state.divergentCounter=none then
      { overlap
        divergentCounter := some record.counter
        findings := state.findings ++
          [⟨.forkDetected,some record.counter,some (.string ours),some (.string theirs)⟩] }
    else { state with overlap }

def fortressFindings (primary other : List CheckpointRecord) : List TransparencyFinding :=
  match primary.head?, other.head? with
  | some a, some b =>
    if a.fortressId≠b.fortressId then
      [⟨.fortressIdMismatch,none,some (.string a.fortressId),some (.string b.fortressId)⟩]
    else []
  | _, _ => []

def compareTransparencyChains (primary other : List CheckpointRecord) : CompareChainsResult :=
  let primarySorted := counterOrder primary
  let otherSorted := counterOrder other
  let walked := primarySorted.foldl (compareStep env otherSorted)
    ⟨none,none,fortressFindings primarySorted otherSorted⟩
  match walked.overlap with
  | none =>
    ⟨.noOverlap,none,none,walked.findings++[⟨.compareNoOverlap,none,none,none⟩]⟩
  | some overlap =>
    match walked.divergentCounter with
    | some counter => ⟨.fork,some counter,some overlap,walked.findings⟩
    | none =>
      let sameTop := primarySorted.getLast?.map CheckpointRecord.counter =
        otherSorted.getLast?.map CheckpointRecord.counter
      let sameBottom := primarySorted.head?.map CheckpointRecord.counter =
        otherSorted.head?.map CheckpointRecord.counter
      ⟨if sameTop ∧ sameBottom ∧ primarySorted.length=otherSorted.length then .identical
        else .consistent,none,some overlap,walked.findings⟩

end Verify

structure GenesisChain (env : VerifyEnv) (key : String) (records : List CheckpointRecord) : Prop where
  counters : records.map CheckpointRecord.counter=List.range' 1 records.length
  signed : ∀ record∈records, verifyRecordSignature env record key=true
  genesis : records.head?.map CheckpointRecord.previousCheckpointHash=some checkpointGenesis
  linked : records.IsChain fun a b => b.previousCheckpointHash=checkpointPayloadHash env a
  audit : records.IsChain fun a b => a.highestSequence ≤ b.highestSequence
  fortress : records.IsChain fun a b => b.fortressId=a.fortressId

section Pass

variable {env : VerifyEnv}

theorem stepFindings_eq_nil {prev curr : CheckpointRecord} (h : stepFindings env prev curr=[]) :
    curr.counter=prev.counter+1 ∧ curr.previousCheckpointHash=checkpointPayloadHash env prev ∧
      prev.highestSequence ≤ curr.highestSequence ∧ curr.fortressId=prev.fortressId := by
  rw [stepFindings] at h
  by_cases hsam : curr.counter=prev.counter
  · rw [if_pos hsam] at h
    exact absurd h (List.cons_ne_nil _ _)
  rw [if_neg hsam] at h
  simp only [List.append_eq_nil_iff,linkFindings,ite_eq_right_iff,List.cons_ne_nil,imp_false] at h
  obtain ⟨⟨⟨hlin,hhea⟩,hfor⟩,-⟩ := h
  by_cases hste : curr.counter=prev.counter+1
  · rw [if_neg (not_not.mpr hste)] at hlin
    by_cases hhas : curr.previousCheckpointHash=checkpointPayloadHash env prev
    · exact ⟨hste,hhas,by omega,not_not.mp hfor⟩
    · rw [if_pos hhas] at hlin
      exact absurd hlin (List.cons_ne_nil _ _)
  · rw [if_pos hste] at hlin
    exact absurd hlin (List.cons_ne_nil _ _)

theorem continuityFindings_eq_nil {records : List CheckpointRecord}
    (h : continuityFindings env records=[]) : records.IsChain fun prev curr =>
      curr.counter=prev.counter+1 ∧ curr.previousCheckpointHash=checkpointPayloadHash env prev ∧
        prev.highestSequence ≤ curr.highestSequence ∧ curr.fortressId=prev.fortressId := by
  induction records with
  | nil => exact .nil
  | cons prev records ih =>
    cases records with
    | nil => exact .singleton prev
    | cons curr records =>
      rw [continuityFindings,List.append_eq_nil_iff] at h
      exact .cons_cons (stepFindings_eq_nil h.1) (ih h.2)

theorem counters_of_chain {first : CheckpointRecord} {records : List CheckpointRecord}
    (h : (first::records).IsChain fun prev curr => curr.counter=prev.counter+1) :
    (first::records).map CheckpointRecord.counter =
      List.range' first.counter (first::records).length := by
  induction records generalizing first with
  | nil => rfl
  | cons next records ih =>
    obtain ⟨hste,hres⟩ := List.isChain_cons_cons.mp h
    rw [List.map_cons,ih hres,hste]
    rfl

theorem schemaFindings_eq_nil {candidates : List JsValue} (h : schemaFindings candidates=[]) :
    ∀ candidate∈candidates, ∃ record, readVerifierCheckpointRecord candidate=some record := by
  rw [schemaFindings,List.filterMap_eq_nil_iff] at h
  intro candidate hcan
  cases hrea : readVerifierCheckpointRecord candidate with
  | none => simpa [hrea] using h candidate hcan
  | some record => exact ⟨record,rfl⟩

theorem mapM_readRecord {candidates : List JsValue}
    (h : ∀ candidate∈candidates, ∃ record, readVerifierCheckpointRecord candidate=some record) :
    candidates.mapM readVerifierCheckpointRecord =
      some (candidates.filterMap readVerifierCheckpointRecord) := by
  induction candidates with
  | nil => rfl
  | cons candidate candidates ih =>
    obtain ⟨record,hrea⟩ := h candidate List.mem_cons_self
    rw [List.mapM_cons,hrea,ih fun c hc => h c (List.mem_cons_of_mem _ hc),
      List.filterMap_cons_some hrea]
    rfl

theorem signatureFindings_eq_nil {key : String} {records : List CheckpointRecord}
    (h : signatureFindings env (some key) records=[]) :
    ∀ record∈records, verifyRecordSignature env record key=true := by
  rw [signatureFindings,List.filterMap_eq_nil_iff] at h
  intro record hrec
  by_contra hsig
  have hnone := h record hrec
  rw [Option.getD_some,if_neg hsig] at hnone
  exact absurd hnone nofun

theorem genesisFindings_eq_nil {allowPartial : Bool} {records : List CheckpointRecord}
    (h : genesisFindings allowPartial records=([],false)) (hne : records≠[]) :
    ∃ first rest, records=first::rest ∧ first.counter=1 ∧
      first.previousCheckpointHash=checkpointGenesis := by
  cases records with
  | nil => exact absurd rfl hne
  | cons first rest =>
    refine ⟨first,rest,rfl,?_⟩
    rw [genesisFindings] at h
    split_ifs at h with hone hgen hpar
    · simp at h
    · exact ⟨hone,not_not.mp hgen⟩
    · simp at h
    · simp at h

def inputRecords (input : JsValue) : Option (List CheckpointRecord) :=
  (inputCandidates input).bind fun candidates => candidates.mapM readVerifierCheckpointRecord

def Passes (env : VerifyEnv) (key : String) (input : JsValue) : Prop :=
  ∃ opts, opts.publicKey=some key ∧ key ≠ "" ∧
    (verifyTransparencyCheckpoints env input opts).verdict=.pass

theorem continuityFindings_of_chain {records : List CheckpointRecord}
    (h : records.IsChain fun prev curr =>
      (curr.counter=prev.counter+1 ∧ curr.previousCheckpointHash=checkpointPayloadHash env prev ∧
        prev.highestSequence ≤ curr.highestSequence ∧ curr.fortressId=prev.fortressId) ∧
      curr.publicKey=prev.publicKey) : continuityFindings env records=[] := by
  induction records with
  | nil => rfl
  | cons prev records ih =>
    cases records with
    | nil => rfl
    | cons curr records =>
      obtain ⟨⟨⟨hcou,hhas,haud,hfor⟩,hkey⟩,hres⟩ := List.isChain_cons_cons.mp h
      rw [continuityFindings,ih hres,stepFindings,linkFindings,if_neg (by omega),
        if_neg (not_not.mpr hcou),if_neg (not_not.mpr hhas),if_neg (by omega),
        if_neg (not_not.mpr hfor),if_neg (not_not.mpr hkey)]
      rfl

theorem counterOrder_perm (records : List CheckpointRecord) : (counterOrder records).Perm records :=
  List.perm_insertionSort _ records

theorem genesisChain_of_passes {key : String} {input : JsValue} (h : Passes env key input) :
    ∃ records, inputRecords input=some records ∧ GenesisChain env key (counterOrder records) := by
  obtain ⟨opts,hkey,hne,hpas⟩ := h
  have hbas : signatureBasis opts=some .pinned := by simp [signatureBasis,hkey,hne]
  rw [verifyTransparencyCheckpoints] at hpas
  cases hcan : inputCandidates input with
  | none => simp [hcan,failReport] at hpas
  | some candidates =>
    cases candidates with
    | nil => simp [hcan,failReport] at hpas
    | cons candidate candidates =>
      rw [hcan] at hpas
      simp only [hbas] at hpas
      generalize hrea : List.filterMap readVerifierCheckpointRecord (candidate::candidates) =
        records at hpas
      split_ifs at hpas with hfin hpar
      simp only [ne_eq,not_not,List.append_eq_nil_iff] at hfin
      obtain ⟨⟨⟨⟨hsch,hsig⟩,hcon⟩,hgen⟩,-⟩ := hfin
      have hall := schemaFindings_eq_nil hsch
      have hnon : counterOrder records≠[] := by
        obtain ⟨record,hrec⟩ := hall candidate List.mem_cons_self
        have hmem : record∈records := by
          rw [← hrea,List.filterMap_cons_some hrec]
          exact List.mem_cons_self
        exact List.ne_nil_of_mem ((counterOrder_perm records).mem_iff.mpr hmem)
      have hcha := continuityFindings_eq_nil hcon
      obtain ⟨first,rest,hres,hone,hsen⟩ :=
        genesisFindings_eq_nil (Prod.ext hgen (Bool.eq_false_iff.mpr hpar)) hnon
      refine ⟨records,?_,?_⟩
      · rw [inputRecords,hcan,Option.bind_some,mapM_readRecord hall,hrea]
      · refine ⟨?_,signatureFindings_eq_nil (hkey ▸ hsig),?_,hcha.imp fun _ _ h => h.2.1,
          hcha.imp fun _ _ h => h.2.2.1,hcha.imp fun _ _ h => h.2.2.2⟩
        · have hcou := hcha.imp fun _ _ h => h.1
          rw [hres] at hcou ⊢
          rw [counters_of_chain hcou,hone]
        · rw [hres,List.head?_cons,Option.map_some,hsen]

end Pass

section Passing

variable {env : VerifyEnv} {key : String} {records : List CheckpointRecord}

theorem read_of_mapM {candidates : List JsValue}
    (h : candidates.mapM readVerifierCheckpointRecord=some records) :
    schemaFindings candidates=[] ∧ candidates.filterMap readVerifierCheckpointRecord=records := by
  induction candidates generalizing records with
  | nil =>
    obtain rfl : []=records := Option.some.inj h
    exact ⟨rfl,rfl⟩
  | cons candidate candidates ih =>
    rw [List.mapM_cons] at h
    cases hrea : readVerifierCheckpointRecord candidate with
    | none => simp [hrea] at h
    | some record =>
      cases hres : candidates.mapM readVerifierCheckpointRecord with
      | none => simp [hrea,hres] at h
      | some rest =>
        obtain rfl : record::rest=records := by simpa [hrea,hres] using h
        obtain ⟨hsch,hfil⟩ := ih hres
        rw [schemaFindings,List.filterMap_cons_none (by rw [hrea]; rfl),
          List.filterMap_cons_some hrea,hfil]
        exact ⟨hsch,rfl⟩

theorem counterOrder_of_counters {n : Nat}
    (h : records.map CheckpointRecord.counter=List.range' 1 n) : counterOrder records=records := by
  apply List.Pairwise.insertionSort_eq
  have hsor : (records.map CheckpointRecord.counter).Pairwise fun a b => a ≤ b := by
    rw [h]
    exact List.Pairwise.imp Nat.le_of_lt List.pairwise_lt_range'
  exact List.pairwise_map.mp hsor

theorem genesisChain_concat (h : records≠[] → GenesisChain env key records) {record : CheckpointRecord}
    (hcou : record.counter=records.length+1)
    (hsig : verifyRecordSignature env record key=true)
    (hgen : records=[] → record.previousCheckpointHash=checkpointGenesis)
    (hlas : ∀ last, records.getLast? = some last →
      record.previousCheckpointHash=checkpointPayloadHash env last ∧
        last.highestSequence ≤ record.highestSequence ∧ record.fortressId=last.fortressId) :
    GenesisChain env key (records++[record]) := by
  have hjoi : ∀ {R : CheckpointRecord → CheckpointRecord → Prop}, records.IsChain R →
      (∀ last, records.getLast? = some last → R last record) → (records++[record]).IsChain R := by
    intro R hcha hste
    apply List.isChain_append.mpr
    refine ⟨hcha,.singleton record,?_⟩
    intro last hmem next hnex
    obtain rfl : record=next := Option.some.inj hnex
    exact hste last hmem
  by_cases hne : records=[]
  · subst hne
    refine ⟨?_,?_,?_,.singleton record,.singleton record,.singleton record⟩
    · rw [List.nil_append,List.map_singleton,hcou]
      rfl
    · intro other hoth
      rw [List.mem_singleton.mp hoth]
      exact hsig
    · rw [List.nil_append,List.head?_singleton,Option.map_some,hgen rfl]
  · have hcha := h hne
    refine ⟨?_,?_,?_,hjoi hcha.linked fun last hmem => (hlas last hmem).1,
      hjoi hcha.audit fun last hmem => (hlas last hmem).2.1,
      hjoi hcha.fortress fun last hmem => (hlas last hmem).2.2⟩
    · rw [List.map_append,hcha.counters,List.map_singleton,hcou,List.length_append,
        List.length_singleton,List.range'_1_concat,Nat.add_comm 1]
    · intro other hoth
      rcases List.mem_append.mp hoth with hold | hnew
      · exact hcha.signed other hold
      · rw [List.mem_singleton.mp hnew]
        exact hsig
    · rw [List.head?_append_of_ne_nil _ hne]
      exact hcha.genesis

theorem GenesisChain.passes (h : GenesisChain env key records)
    (hlat : ∀ record∈records.tail, record.previousCheckpointHash≠checkpointGenesis)
    (hkes : records.IsChain fun prev curr => curr.publicKey=prev.publicKey) (hkey : key ≠ "")
    {candidates : List JsValue} (hrea : candidates.mapM readVerifierCheckpointRecord=some records) :
    (verifyTransparencyCheckpoints env (.array candidates) ⟨some key,false,false⟩).verdict=.pass := by
  obtain ⟨hsch,hfil⟩ := read_of_mapM hrea
  have hord := counterOrder_of_counters h.counters
  have hsig : signatureFindings env (some key) records=[] := by
    rw [signatureFindings,List.filterMap_eq_nil_iff]
    intro record hrec
    rw [Option.getD_some,if_pos (h.signed record hrec)]
  have hcou : records.IsChain fun prev curr => curr.counter=prev.counter+1 := by
    have hran : (records.map CheckpointRecord.counter).IsChain fun a b => b=a+1 := by
      rw [h.counters]
      exact List.isChain_range' _ _ _
    exact (List.isChain_map _).mp hran
  have hcon : continuityFindings env records=[] := by
    apply continuityFindings_of_chain
    exact HashChain.isChain_and (HashChain.isChain_and hcou (HashChain.isChain_and h.linked
      (HashChain.isChain_and h.audit h.fortress))) hkes
  have hmis : misplacedFindings records=[] := by
    rw [misplacedFindings,List.filterMap_eq_nil_iff]
    intro record hrec
    rw [if_neg (hlat record hrec)]
  cases records with
  | nil => exact absurd h.genesis (by simp)
  | cons first rest =>
    have hone : first.counter=1 := (List.cons.inj h.counters).1
    have hsen : first.previousCheckpointHash=checkpointGenesis := Option.some.inj h.genesis
    have hgen : genesisFindings false (first::rest)=([],false) := by
      rw [genesisFindings,if_pos hone,if_neg (not_not.mpr hsen)]
    cases candidates with
    | nil => exact absurd (Option.some.inj hrea) (by simp)
    | cons candidate candidates =>
      have hbas : signatureBasis ⟨some key,false,false⟩=some .pinned := by
        simp [signatureBasis,hkey]
      simp only [verifyTransparencyCheckpoints,inputCandidates,hbas,hsch,hfil,hord,
        hsig,hcon,hmis,hgen]
      rfl

end Passing

section Fork

variable {env : VerifyEnv}

def differs (env : VerifyEnv) (other : List CheckpointRecord) (record : CheckpointRecord) : Bool :=
  (byCounter other record.counter).any fun peer =>
    checkpointPayloadHash env record≠checkpointPayloadHash env peer

theorem divergentCounter_foldl (env : VerifyEnv) (other primary : List CheckpointRecord) (state : CompareState) :
    (primary.foldl (compareStep env other) state).divergentCounter =
      state.divergentCounter.or ((primary.find? (differs env other)).map CheckpointRecord.counter) := by
  induction primary generalizing state with
  | nil => simp
  | cons record primary ih =>
    rw [List.foldl_cons,ih,compareStep,List.find?_cons,differs]
    cases hpee : byCounter other record.counter with
    | none => simp
    | some peer =>
      by_cases hhas : checkpointPayloadHash env record=checkpointPayloadHash env peer
      · simp [hhas]
      · cases hdiv : state.divergentCounter with
        | none => simp [hhas]
        | some counter => simp

theorem overlap_foldl (env : VerifyEnv) (other primary : List CheckpointRecord) (state : CompareState) :
    (primary.foldl (compareStep env other) state).overlap.isSome =
      (state.overlap.isSome || primary.any fun record => (byCounter other record.counter).isSome) := by
  induction primary generalizing state with
  | nil => simp
  | cons record primary ih =>
    rw [List.foldl_cons,ih,compareStep,List.any_cons]
    cases hpee : byCounter other record.counter with
    | none => simp
    | some peer =>
      dsimp only
      split_ifs <;> simp

/-- The comparison answers fork at the first counter of both chains where the hashes differ. -/
theorem compare_eq_fork (env : VerifyEnv) (primary other : List CheckpointRecord) :
    ((compareTransparencyChains env primary other).relation=.fork ↔
      ((counterOrder primary).find? (differs env (counterOrder other))).isSome) ∧
    (compareTransparencyChains env primary other).divergentCounter =
      ((counterOrder primary).find? (differs env (counterOrder other))).map
        CheckpointRecord.counter := by
  have hdiv := divergentCounter_foldl env (counterOrder other) (counterOrder primary)
    ⟨none,none,fortressFindings (counterOrder primary) (counterOrder other)⟩
  have hovr := overlap_foldl env (counterOrder other) (counterOrder primary)
    ⟨none,none,fortressFindings (counterOrder primary) (counterOrder other)⟩
  rw [compareTransparencyChains]
  generalize List.foldl (compareStep env (counterOrder other)) _ _=walked at hdiv hovr
  rw [Option.none_or] at hdiv
  dsimp only
  cases hove : walked.overlap with
  | none =>
    have hnone : (counterOrder primary).find? (differs env (counterOrder other))=none := by
      rw [List.find?_eq_none]
      intro record hrec
      rw [hove] at hovr
      have hpee := (List.any_eq_false.mp hovr.symm) record hrec
      rw [Bool.not_eq_true,Option.isSome_eq_false_iff,Option.isNone_iff_eq_none] at hpee
      simp [differs,hpee]
    simp [hnone]
  | some overlap =>
    cases hfind : (counterOrder primary).find? (differs env (counterOrder other)) with
    | none =>
      rw [hfind] at hdiv
      rw [hdiv]
      dsimp only [Option.map_none]
      split_ifs <;> simp
    | some record =>
      rw [hfind] at hdiv
      rw [hdiv]
      simp

namespace GenesisChain

variable {key : String} {chain : List CheckpointRecord}

theorem counter_getElem (h : GenesisChain env key chain) {i : Nat} {record : CheckpointRecord}
    (hi : chain[i]? = some record) : record.counter=i+1 := by
  have hlt : i < chain.length := (List.getElem?_eq_some_iff.mp hi).1
  have hmap := congrArg (fun counters => counters[i]?) h.counters
  simp only [List.getElem?_map,hi,Option.map_some] at hmap
  rw [List.getElem?_range' (by simpa using hlt)] at hmap
  have hcou := Option.some.inj hmap
  omega

theorem byCounter_eq (h : GenesisChain env key chain) (i : Nat) : byCounter chain (i+1)=chain[i]? := by
  cases hfind : byCounter chain (i+1) with
  | none =>
    rw [byCounter,List.find?_eq_none] at hfind
    cases hi : chain[i]? with
    | none => rfl
    | some record =>
      have hmem := List.mem_reverse.mpr (List.mem_of_getElem? hi)
      exact absurd (h.counter_getElem hi) (by simpa using hfind record hmem)
  | some record =>
    have hmem := List.mem_reverse.mp (List.mem_of_find?_eq_some hfind)
    have hcou : record.counter=i+1 := by simpa using List.find?_some hfind
    obtain ⟨j,hj⟩ := List.mem_iff_getElem?.mp hmem
    have hpla := h.counter_getElem hj
    rw [show i=j by omega,hj]

/-- Chains whose payload hashes agree at one place have the same payloads up to it. -/
theorem take_payloads_eq {key' : String} {chain' : List CheckpointRecord} (h : GenesisChain env key chain)
    (h' : GenesisChain env key' chain')
    (hinj : ∀ a∈chain, ∀ b∈chain', checkpointPayloadHash env a=checkpointPayloadHash env b →
      payloadText env a=payloadText env b)
    {i : Nat} {a b : CheckpointRecord} (ha : chain[i]? = some a) (hb : chain'[i]? = some b)
    (hhas : checkpointPayloadHash env a=checkpointPayloadHash env b) :
    (chain.map (payloadText env)).take (i+1)=(chain'.map (payloadText env)).take (i+1) := by
  have hlen := (List.getElem?_eq_some_iff.mp ha).1
  have hlen' := (List.getElem?_eq_some_iff.mp hb).1
  have hlas : ∀ (l : List CheckpointRecord) (c : CheckpointRecord), l[i]? = some c →
      (l.take (i+1)).getLast? = some c := by
    intro l c hc
    have hlt := (List.getElem?_eq_some_iff.mp hc).1
    rw [List.getLast?_eq_getElem?,List.length_take,show min (i+1) l.length - 1=i by omega,
      List.getElem?_take_of_lt (Nat.lt_succ_self i),hc]
  rw [← List.map_take,← List.map_take]
  apply HashChain.map_key_of_last (checkpointPayloadHash env)
    (fun record => some record.previousCheckpointHash) (payloadText env)
  · intro a ha b hb
    exact hinj a (List.mem_of_mem_take ha) b (List.mem_of_mem_take hb)
  · intro a _ b _ htex
    exact congrArg some (CheckpointRecord.previous_of_signedText htex)
  · exact (h.linked.take (i+1)).imp fun _ _ hlin => congrArg some hlin
  · exact (h'.linked.take (i+1)).imp fun _ _ hlin => congrArg some hlin
  · rw [hlas chain a ha,hlas chain' b hb,Option.map_some,Option.map_some,hhas]
  · rw [List.length_take,List.length_take]
    omega

end GenesisChain

theorem prefix_or_prefix_of_agree {α : Type} {as bs : List α}
    (h : ∀ (i : Nat) a b, as[i]? = some a → bs[i]? = some b → a=b) : as <+: bs ∨ bs <+: as := by
  induction as generalizing bs with
  | nil => exact Or.inl (List.nil_prefix)
  | cons a as ih =>
    cases bs with
    | nil => exact Or.inr (List.nil_prefix)
    | cons b bs =>
      obtain rfl : a=b := h 0 a b rfl rfl
      have htai : ∀ (i : Nat) x y, as[i]? = some x → bs[i]? = some y → x=y :=
        fun i x y hx hy => h (i+1) x y hx hy
      rcases ih htai with hpre | hpre
      · exact Or.inl (List.cons_prefix_cons.mpr ⟨rfl,hpre⟩)
      · exact Or.inr (List.cons_prefix_cons.mpr ⟨rfl,hpre⟩)

theorem getElem?_agree {α : Type} {as bs : List α} (h : as <+: bs) {i : Nat} {a b : α}
    (ha : as[i]? = some a) (hb : bs[i]? = some b) : a=b := by
  obtain ⟨rest,rfl⟩ := h
  rw [List.getElem?_append_left (List.getElem?_eq_some_iff.mp ha).1,ha] at hb
  exact Option.some.inj hb

theorem differs_iff {key key' : String} {chain chain' : List CheckpointRecord}
    (h : GenesisChain env key chain) (h' : GenesisChain env key' chain') {i : Nat}
    {record : CheckpointRecord} (hi : chain[i]? = some record) : differs env chain' record=true ↔
      ∃ peer, chain'[i]? = some peer ∧
        checkpointPayloadHash env record≠checkpointPayloadHash env peer := by
  rw [differs,h.counter_getElem hi,h'.byCounter_eq i,Option.any_eq_true]
  simp

section Chains

variable {key key' : String} {chain chain' : List CheckpointRecord} (h : GenesisChain env key chain)
  (h' : GenesisChain env key' chain')
  (hinj : ∀ a∈chain, ∀ b∈chain', checkpointPayloadHash env a=checkpointPayloadHash env b →
    payloadText env a=payloadText env b)

include h h' hinj

theorem found_iff_neither_extends :
    (chain.find? (differs env chain')).isSome ↔
      ¬chain.map (payloadText env) <+: chain'.map (payloadText env) ∧
        ¬chain'.map (payloadText env) <+: chain.map (payloadText env) := by
  constructor
  · intro hfou
    obtain ⟨record,hfind⟩ := Option.isSome_iff_exists.mp hfou
    obtain ⟨hdif,i,hi,hrec,-⟩ := List.find?_eq_some_iff_getElem.mp hfind
    have hget : chain[i]? = some record := by rw [List.getElem?_eq_getElem hi,hrec]
    obtain ⟨peer,hpee,hhas⟩ := (differs_iff h h' hget).mp hdif
    have htex : (chain.map (payloadText env))[i]? = some (payloadText env record) := by
      rw [List.getElem?_map,hget,Option.map_some]
    have htex' : (chain'.map (payloadText env))[i]? = some (payloadText env peer) := by
      rw [List.getElem?_map,hpee,Option.map_some]
    constructor
    · intro hpre
      exact hhas (congrArg env.sha256Hex (getElem?_agree hpre htex htex'))
    · intro hpre
      exact hhas (congrArg env.sha256Hex (getElem?_agree hpre htex' htex).symm)
  · intro hnei
    by_contra hnone
    rw [Option.not_isSome_iff_eq_none,List.find?_eq_none] at hnone
    have hagr : ∀ (i : Nat) a b, (chain.map (payloadText env))[i]? = some a →
        (chain'.map (payloadText env))[i]? = some b → a=b := by
      intro i a b ha hb
      rw [List.getElem?_map,Option.map_eq_some_iff] at ha hb
      obtain ⟨record,hrec,rfl⟩ := ha
      obtain ⟨peer,hpee,rfl⟩ := hb
      by_contra hne
      apply hnone record (List.mem_of_getElem? hrec)
      refine (differs_iff h h' hrec).mpr ⟨peer,hpee,fun hhas => hne ?_⟩
      exact hinj record (List.mem_of_getElem? hrec) peer (List.mem_of_getElem? hpee) hhas
    rcases prefix_or_prefix_of_agree hagr with hpre | hpre
    · exact hnei.1 hpre
    · exact hnei.2 hpre

/-- The counter found is one past the longest common prefix, and no later payload is shared. -/
theorem found_place
    {record : CheckpointRecord} (hfind : chain.find? (differs env chain')=some record) :
    ∃ n, record.counter=n+1 ∧ n < chain.length ∧ n < chain'.length ∧
      (chain.map (payloadText env)).take n=(chain'.map (payloadText env)).take n ∧
      ∀ m a b, n ≤ m → (chain.map (payloadText env))[m]? = some a →
        (chain'.map (payloadText env))[m]? = some b → a≠b := by
  obtain ⟨hdif,n,hn,hrec,hfir⟩ := List.find?_eq_some_iff_getElem.mp hfind
  have hget : chain[n]? = some record := by rw [List.getElem?_eq_getElem hn,hrec]
  obtain ⟨peer,hpee,hhas⟩ := (differs_iff h h' hget).mp hdif
  have hn' : n < chain'.length := (List.getElem?_eq_some_iff.mp hpee).1
  refine ⟨n,h.counter_getElem hget,hn,hn',?_,?_⟩
  · -- below the place found no hashes differ, so the payloads at the place before it agree
    cases n with
    | zero => rfl
    | succ n =>
      have hbef : chain[n]? = some (chain[n]) := List.getElem?_eq_getElem (by omega)
      have hbef' : chain'[n]? = some (chain'[n]) := List.getElem?_eq_getElem (by omega)
      apply h.take_payloads_eq h' hinj hbef hbef'
      by_contra hne
      have hfou := (differs_iff h h' hbef).mpr ⟨chain'[n],hbef',hne⟩
      exact absurd hfou (by simpa using hfir n (Nat.lt_succ_self n))
  · intro m a b hm ha hb heq
    rw [List.getElem?_map,Option.map_eq_some_iff] at ha hb
    obtain ⟨later,hlat,rfl⟩ := ha
    obtain ⟨later',hlat',rfl⟩ := hb
    have htak := h.take_payloads_eq h' hinj hlat hlat' (congrArg env.sha256Hex heq)
    have hpla := congrArg (fun texts => texts[n]?) htak
    simp only [List.getElem?_take_of_lt (Nat.lt_succ_of_le hm),List.getElem?_map,hget,hpee,
      Option.map_some,Option.some.injEq] at hpla
    exact hhas (congrArg env.sha256Hex hpla)

end Chains

end Fork

/-- What a pass under a pinned key means, and when the comparison of two chains that pass answers
fork. -/
theorem verified_chains_and_split_views (env : VerifyEnv) :
    (∀ key input, Passes env key input → ∃ records chain, inputRecords input=some records ∧
      chain.Perm records ∧ GenesisChain env key chain) ∧
    ∀ key key' input input' records records', Passes env key input → Passes env key' input' →
      inputRecords input=some records → inputRecords input'=some records' →
      (∀ a∈records, ∀ b∈records', env.sha256Hex (payloadText env a)=env.sha256Hex (payloadText env b) →
        payloadText env a=payloadText env b) →
      ((compareTransparencyChains env records records').relation=.fork ↔
        ¬(counterOrder records).map (payloadText env) <+: (counterOrder records').map (payloadText env) ∧
        ¬(counterOrder records').map (payloadText env) <+: (counterOrder records).map (payloadText env)) ∧
      ((compareTransparencyChains env records records').relation=.fork →
        ∃ n, (compareTransparencyChains env records records').divergentCounter=some (n+1) ∧
          n < records.length ∧ n < records'.length ∧
          ((counterOrder records).map (payloadText env)).take n =
            ((counterOrder records').map (payloadText env)).take n ∧
          ∀ m a b, n ≤ m → ((counterOrder records).map (payloadText env))[m]? = some a →
            ((counterOrder records').map (payloadText env))[m]? = some b → a≠b) := by
  refine ⟨?_,?_⟩
  · intro key input hpas
    obtain ⟨records,hrec,hcha⟩ := genesisChain_of_passes hpas
    exact ⟨records,counterOrder records,hrec,counterOrder_perm records,hcha⟩
  · intro key key' input input' records records' hpas hpas' hrec hrec' hinj
    obtain ⟨read,hrea,hcha⟩ := genesisChain_of_passes hpas
    obtain ⟨read',hrea',hcha'⟩ := genesisChain_of_passes hpas'
    obtain rfl : read=records := Option.some.inj (hrea.symm.trans hrec)
    obtain rfl : read'=records' := Option.some.inj (hrea'.symm.trans hrec')
    have hper := counterOrder_perm read
    have hper' := counterOrder_perm read'
    have hinn : ∀ a∈counterOrder read, ∀ b∈counterOrder read',
        checkpointPayloadHash env a=checkpointPayloadHash env b →
          payloadText env a=payloadText env b :=
      fun a ha b hb => hinj a (hper.mem_iff.mp ha) b (hper'.mem_iff.mp hb)
    obtain ⟨hrel,hdiv⟩ := compare_eq_fork env read read'
    refine ⟨hrel.trans (found_iff_neither_extends hcha hcha' hinn),?_⟩
    intro hfor
    obtain ⟨record,hfind⟩ := Option.isSome_iff_exists.mp (hrel.mp hfor)
    obtain ⟨n,hcou,hn,hn',htak,hlat⟩ := found_place hcha hcha' hinn hfind
    rw [hper.length_eq] at hn
    rw [hper'.length_eq] at hn'
    refine ⟨n,?_,hn,hn',htak,hlat⟩
    rw [hdiv,hfind,Option.map_some,hcou]

/-- Stand-ins that tell any two texts apart, with keys and signatures spelled as their bytes. -/
def plainEnv : VerifyEnv where
  shortest _ := ""
  sha256Hex text := text
  fromBase64url text := some (utf8Bytes text)
  ed25519Verify sig _ key := sig == key++key

def sampleKey : String := "abcdefghijklmnopqrstuvwxyz012345"

def zeroHash : String := "0000000000000000000000000000000000000000000000000000000000000000"

def sampleCheckpoint (issuedAt : String) : JsValue :=
  .object [("checkpoint_kind",.string "enforcement-checkpoint"),("schema_version",.number 1),
    ("counter",.number 1),("previous_checkpoint_hash",.string checkpointGenesis),
    ("issued_at",.string issuedAt),("fortress_id",.string "f"),
    ("audit",.object [("merkle_root",.string zeroHash),("lowest_sequence",.number 1),
      ("highest_sequence",.number 1),("head_hash",.string "h"),("entry_count",.number 1)]),
    ("policy",.object [("rules_sha256",.string zeroHash),("rules_count",.number 0),
      ("manifest_sha256",.null)]),
    ("daemon",.object [("version",.string "1"),("binary_sha256",.string zeroHash)]),
    ("enforcement",.object [("total_allowed",.number 0),("total_blocked",.number 0),
      ("rules",.array [])]),
    ("signer_kid",.string "k"),("signature",.string (sampleKey++sampleKey)),
    ("signature_algorithm",.string "Ed25519"),
    ("payload_encoding",.string "domain-separated-canonical-json-v1"),
    ("public_key",.string sampleKey)]

theorem sampleCheckpoint_passes : Passes plainEnv sampleKey (sampleCheckpoint "t") ∧
    Passes plainEnv sampleKey (sampleCheckpoint "u") := by
  constructor
  · exact ⟨⟨some sampleKey,false,false⟩,rfl,by decide,by decide +kernel⟩
  · exact ⟨⟨some sampleKey,false,false⟩,rfl,by decide,by decide +kernel⟩

theorem split_view_of_first_checkpoints : ∃ records records',
    inputRecords (sampleCheckpoint "t")=some records ∧
    inputRecords (sampleCheckpoint "u")=some records' ∧
    GenesisChain plainEnv sampleKey (counterOrder records) ∧
    ((compareTransparencyChains plainEnv records records').relation=.fork ↔
      ¬(counterOrder records).map (payloadText plainEnv) <+:
          (counterOrder records').map (payloadText plainEnv) ∧
        ¬(counterOrder records').map (payloadText plainEnv) <+:
          (counterOrder records).map (payloadText plainEnv)) := by
  obtain ⟨hpas,hpas'⟩ := sampleCheckpoint_passes
  obtain ⟨records,hrec,hcha⟩ := genesisChain_of_passes hpas
  obtain ⟨records',hrec',-⟩ := genesisChain_of_passes hpas'
  have hlaw := (verified_chains_and_split_views plainEnv).2 sampleKey sampleKey _ _ records records' hpas
    hpas' hrec hrec' fun _ _ _ _ htex => htex
  exact ⟨records,records',hrec,hrec',hcha,hlaw.1⟩

end CastleWall.Transparency
