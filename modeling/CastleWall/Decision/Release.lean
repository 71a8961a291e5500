import CastleWall.Audit.Invariant
import CastleWall.Decision.Engine

/-! # No packet without its evidence

A packet is released only when the row that records its allow verdict is already in the log. -/

namespace CastleWall.Decision

open Text Policy Manifest Audit

/-- The logged event is the record of this verdict for this request under this subject. -/
def Records (env : WalEnv) (event : String) (verdict : Verdict) (request : EvaluationRequest)
    (subject : ProtectionSubject) : Prop :=
  ∃ entry, env.valueFromStr event=.ok (.obj entry) ∧ EntryRecord verdict request subject entry

/-- A release: the snapshot that allowed the request, the subject it was recorded under and the row that
records it. -/
structure Release (env : WalEnv) (engine engine' : DecisionEngine) (request : EvaluationRequest)
    (attempt : Attempt) (snapshot : PolicySnapshot) (subject : ProtectionSubject) (row : WalEntry) :
    Prop where
  live : ∃ store, engine.manifestStore=some store ∧ store.currentSnapshot=some snapshot
  storeLock : attempt.storeLock=.acquired
  walLock : attempt.walLock=.acquired
  confined : snapshot.confinedAgentUid=some subject.uid
  agent : parseConfinedAgentId request.agentId=some subject.uid
  identity : subject.asStr=snapshot.fortressId ++ "/uid-" ++ toString subject.uid.toNat
  /-- The row is the one that the log gained, whole and synced. -/
  durable : ∃ wal wal' event, engine.walWriter=some wal ∧ engine'.walWriter=some wal' ∧
    append env wal event .critical attempt.sinceEpochMs attempt.fate=(wal',.ok row.seq) ∧
    wal'.file.bytes=wal.file.bytes++walRowBytes row.text ∧ attempt.fate=.clean
  allowed : ∃ ruleId, snapshot.evaluate request=.allow ruleId ∧
    Records env row.eventCanonicalJson (.allow ruleId) request subject

section Release

variable {env : WalEnv}

theorem failClosed_not_released (engine : DecisionEngine) (request : EvaluationRequest)
    (subject : ProtectionSubject) (attempt : Attempt) :
    released (failClosed engine request subject attempt).2=false := by
  unfold failClosed
  split <;> rfl

theorem pushIfLocked_wal (engine : DecisionEngine) (event : String) (attempt : Attempt) (critical : Bool) :
    (pushIfLocked engine event attempt critical).walWriter=engine.walWriter := by
  unfold pushIfLocked
  split_ifs <;> rfl

variable {request : EvaluationRequest}

/-- Recording releases only an allow verdict whose event was appended. -/
theorem recordVerdict_released {engine : DecisionEngine} {wal : WalWriter} {verdict : Verdict} {subject : ProtectionSubject} {attempt : Attempt}
    (h : released (recordVerdict env engine wal verdict request subject attempt).2=true) :
    attempt.walLock=.acquired ∧ (∃ ruleId, verdict=.allow ruleId) ∧ ∃ event wal' seq,
      buildAuditEventCanonicalJson verdict request subject attempt.timestamp=.ok event ∧
      append env wal event .critical attempt.sinceEpochMs attempt.fate=(wal',.ok seq) ∧
      (recordVerdict env engine wal verdict request subject attempt).1.walWriter=some wal' := by
  unfold recordVerdict at h ⊢
  split at h
  · exact absurd h (by simp [released])
  · rename_i event heve
    split at h
    · rename_i hloc
      split at h
      · rename_i wal' seq happ
        cases verdict with
        | allow ruleId =>
          exact ⟨hloc,⟨ruleId,rfl⟩,event,wal',seq,heve,happ,pushIfLocked_wal _ _ _ _⟩
        | promptRequired ruleId => exact absurd h (by simp [released,EvaluationOutcome.releases])
        | deny reason => exact absurd h (by simp [released,EvaluationOutcome.releases])
      · exact absurd (h.symm.trans (failClosed_not_released _ _ _ _)) (by simp)
    · exact absurd h (by simp [released])
    · exact absurd (h.symm.trans (failClosed_not_released _ _ _ _)) (by simp)

theorem EntryRecord.chained {verdict : Verdict} {subject : ProtectionSubject}
    {entry : List (String × Json)} (h : EntryRecord verdict request subject entry) (seq : Nat)
    (prior : Option String) : EntryRecord verdict request subject (withChainFields seq prior entry) := by
  obtain ⟨details,hdet,hrec⟩ := h.details
  obtain ⟨chained,hcha,hsam⟩ := details_withChainFields seq prior hdet
  have hloo : ∀ key, key ≠ "details" →
      (withChainFields seq prior entry).lookup key=entry.lookup key :=
    fun key hne => lookup_withChainFields hne seq prior entry
  refine ⟨?_,?_,?_,?_,chained,hcha,?_⟩
  · rw [hloo _ (by decide),h.operation]
  · rw [hloo _ (by decide),h.result]
  · rw [hloo _ (by decide),h.identityId]
  · rw [hloo _ (by decide),h.fortressId]
  · constructor
    · rw [hsam _ (by decide) (by decide),hrec.agentId]
    · rw [hsam _ (by decide) (by decide),hrec.agentTemplate]
    · rw [hsam _ (by decide) (by decide),hrec.destHost]
    · rw [hsam _ (by decide) (by decide),hrec.destIp]
    · rw [hsam _ (by decide) (by decide),hrec.destPort]
    · rw [hsam _ (by decide) (by decide),hrec.destProtocol]
    · rw [hsam _ (by decide) (by decide),hrec.opaqueDest]
    · rw [hsam _ (by decide) (by decide),hrec.provenance]
    · rw [hsam _ (by decide) (by decide),hrec.ruleId]

theorem nextEntry_reads (hlaw : env.Lawful) {w : WalWriter} {event : String} {kind : AppendKind}
    {sinceEpochMs : Option Nat} {e : WalEntry} (h : nextEntry env w event kind sinceEpochMs=.ok e) :
    ∃ entry, env.valueFromStr event=.ok (.obj entry) ∧
      env.valueFromStr e.eventCanonicalJson =
        .ok (.obj (withChainFields e.seq e.priorSha256Hex entry)) := by
  unfold nextEntry at h
  split at h
  · exact absurd h (by simp)
  · rename_i n hnex
    have hseq : w.nextSeq < 2 ^ 64 := by
      unfold checkedAdd at hnex
      split_ifs at hnex with hlt
      exact Nat.lt_of_succ_lt hlt
    split at h
    · exact absurd h (by simp)
    · rename_i out hout
      obtain rfl := Except.ok.inj h
      obtain ⟨entry,hent,-,hrea⟩ := addWalChainFields_reads hlaw hseq hout
      exact ⟨entry,hent,hrea⟩

theorem release_of_released (hlaw : env.Lawful) {engine : DecisionEngine}
    {attempt : Attempt} (h : released (evaluateAttempt env engine request attempt).2=true) :
    ∃ snapshot subject row, Release env engine (evaluateAttempt env engine request attempt).1 request
      attempt snapshot subject row := by
  unfold evaluateAttempt at h ⊢
  split at h
  · exact absurd h (by simp [released])
  · exact absurd h (by simp [released])
  · rename_i store wal hsto hwal
    split at h
    · exact absurd h (by simp [released])
    · rename_i verdict identity hdec
      split at h
      · exact absurd h (by simp [released,unattributedOutcome,EvaluationOutcome.releases])
      · rename_i subject hsub
        obtain ⟨hwak,⟨ruleId,rfl⟩,event,wal',seq,heve,happ,hwal'⟩ :=
          recordVerdict_released h
        -- Only the locked store with a snapshot answers with an allow.
        have hliv : attempt.storeLock=.acquired ∧ ∃ snapshot, store.currentSnapshot=some snapshot ∧
            snapshot.evaluate request=.allow ruleId ∧
            identity=(AdmittedIdentity.fromSnapshot snapshot).toOption := by
          unfold decideUnderStore at hdec
          split at hdec
          · rename_i hloc
            split at hdec
            · rename_i snapshot hsna
              obtain ⟨hver,hide⟩ := Prod.mk.inj (Except.ok.inj hdec)
              exact ⟨hloc,snapshot,hsna,hver,hide.symm⟩
            · exact absurd (Prod.mk.inj (Except.ok.inj hdec)).1 (by simp)
          · exact absurd hdec (by simp)
          · exact absurd (Prod.mk.inj (Except.ok.inj hdec)).1 (by simp)
        obtain ⟨hstk,snapshot,hsna,hver,hide⟩ := hliv
        cases hfro : AdmittedIdentity.fromSnapshot snapshot with
        | error defect =>
          rw [hide,hfro] at hsub
          exact absurd hsub (by simp [resolveAuditSubject,Except.toOption])
        | ok admitted =>
          rw [hide,hfro] at hsub
          obtain ⟨hfor,hage,ceiling,gateUid,hcon⟩ := resolveAuditSubject_some hsub
          obtain ⟨huid,hsam⟩ := AdmittedIdentity.fromSnapshot_confined hfro hcon
          obtain ⟨row,hrow,hseq,hfil,hwri,hsyn⟩ := append_ok happ
          obtain ⟨entry,hent,hwf,hdep,hrec⟩ := buildAuditEventCanonicalJson_ok heve
          obtain ⟨entry',hred,hrea⟩ := nextEntry_reads hlaw hrow
          obtain rfl : entry=entry' := by
            rw [hent,hlaw.value_of_canonicalText _ hwf hdep] at hred
            exact Json.obj.inj (Except.ok.inj hred)
          refine ⟨snapshot,subject,row,
            { live := ⟨store,hsto,hsna⟩
              storeLock := hstk
              walLock := hwak
              confined := huid
              agent := hage
              identity := ?_
              durable := ⟨wal,wal',event,hwal,hwal',?_,?_,?_⟩
              allowed := ⟨ruleId,hver,_,hrea,EntryRecord.chained hrec _ _⟩ }⟩
          · rw [ProtectionSubject.asStr,hfor,hsam]
          · rw [hseq]
            exact happ
          · rw [hfil]
            rfl
          · have hcle := hsyn rfl
            cases hfat : attempt.fate with
            | mk write sync =>
              rw [hfat] at hwri hcle
              simp only at hwri hcle
              rw [hwri,hcle]
              rfl

/-- A released packet has its allow verdict on disk, recorded for exactly that request under the confined
uid of the live snapshot. A failed append, a lock that was not had, a missing snapshot and an agent that is
not the confined one never release. -/
theorem release_sound (env : WalEnv) (hlaw : env.Lawful) (engine : DecisionEngine)
    (request : EvaluationRequest) (attempt : Attempt) :
    (released (evaluateAttempt env engine request attempt).2=true →
      ∃ snapshot subject row, Release env engine (evaluateAttempt env engine request attempt).1 request
        attempt snapshot subject row) ∧
    ((∀ wal, engine.walWriter=some wal → ∀ event seq,
        (append env wal event .critical attempt.sinceEpochMs attempt.fate).2≠.ok seq) ∨
      attempt.storeLock≠.acquired ∨ attempt.walLock≠.acquired ∨
      (∀ store, engine.manifestStore=some store → store.currentSnapshot=none) ∨
      (∀ store snapshot uid, engine.manifestStore=some store → store.currentSnapshot=some snapshot →
        parseConfinedAgentId request.agentId=some uid → snapshot.confinedAgentUid≠some uid) →
      released (evaluateAttempt env engine request attempt).2=false) := by
  refine ⟨release_of_released hlaw,fun hcau => ?_⟩
  by_contra hne
  obtain ⟨snapshot,subject,row,h⟩ := release_of_released hlaw (Bool.not_eq_false _ ▸ hne)
  obtain ⟨store,hsto,hsna⟩ := h.live
  obtain ⟨wal,wal',event,hwal,-,happ,-,-⟩ := h.durable
  rcases hcau with hfai | hloc | hloc | hnone | hoth
  · exact hfai wal hwal event row.seq (by rw [happ])
  · exact hloc h.storeLock
  · exact hloc h.walLock
  · exact absurd (hsna.symm.trans (hnone store hsto)) (by simp)
  · exact hoth store snapshot subject.uid hsto hsna h.agent h.confined

end Release

def apiSnapshot : PolicySnapshot where
  rules := [{ id := "allow_api"
              schemaVersion := 1
              createdAt := "2026-05-05T00:00:00Z"
              matchClause := { ip := some ["203.0.113.7"] }
              scope := { agentIds := ["uid-60123"] }
              disposition := .allow }]
  manifestSignatureB64url := some "sig"
  fortressId := "fortress"
  confinedAgentUid := some 60123
  confinedAgentUidCeiling := some 1000
  confinedGateUid := none

def apiRequest : EvaluationRequest where
  agentId := "uid-60123"
  agentTemplate := ""
  destHost := none
  destIp := some "203.0.113.7"
  destPort := 443
  destProtocol := "tcp"
  opaqueDest := true

def quietAttempt : Attempt where
  storeLock := .acquired
  walLock := .acquired
  bufferLock := .acquired
  timestamp := "2026-05-05T00:00:00.000Z"
  sinceEpochMs := some 1777939200000
  fate := .clean

private def apiSubject : ProtectionSubject where
  fortressId := "fortress"
  uid := 60123
  fortressId_ne := by decide
  uid_ne := by decide

private def apiDetails : List (String × Json) :=
  [("agent_id",.str "uid-60123"),("agent_template",.str ""),("dest_ip",.str "203.0.113.7"),
    ("dest_port",.num 443),("dest_protocol",.str "tcp"),("opaque",.bool true),
    ("decision_provenance",.str "static_rule"),("rule_id_matched",.str "allow_api")]

private theorem apiDetails_eq : verdictDetails (.allow "allow_api") apiRequest=.ok apiDetails := by
  have htex : ∀ text∈["uid-60123","","203.0.113.7","tcp","allow_api"],
      text.toList.contains (Char.ofNat 0)=false := by decide +kernel
  have hpla : ∀ text∈["uid-60123","","203.0.113.7","tcp","allow_api"],
      auditText text=.ok (.str text) := by
    intro text hmem
    exact if_neg (by simp only [htex text hmem,Bool.false_eq_true,not_false_eq_true])
  simp only [verdictDetails,apiRequest,optionalText,matchedRuleId,hpla "uid-60123" (by simp),
    hpla "" (by simp),hpla "203.0.113.7" (by simp),hpla "tcp" (by simp),
    hpla "allow_api" (by simp)]
  rfl

private theorem apiDetails_length : Json.fieldsLength apiDetails ≤ 2000 := by
  decide +kernel

private def apiEvent : List (String × Json) :=
  Json.ofFields (eventFields "2026-05-05T00:00:00.000Z" operationEgressApproved "success" apiSubject apiDetails)

private theorem apiEvent_length : Json.fieldsLength apiEvent +
    Json.fieldsLength (((apiEvent.lookup "details").bind asObject).getD []) ≤ 20000 := by
  have hdet : apiEvent.lookup "details" = some (.obj (Json.ofFields apiDetails)) := by
    rw [apiEvent,Json.lookup_ofFields (by simp [eventFields])]
    simp [eventFields,List.lookup_cons]
  have hlen := Json.fieldsLength_ofFields_le apiDetails
  have hbound := apiDetails_length
  have hent : Json.fieldsLength apiEvent ≤ _ := Json.fieldsLength_ofFields_le _
  have hobj := Json.length_write_obj_le (Json.ofFields apiDetails)
  rw [← Json.fieldsLength] at hobj
  have hkey : (Json.quote "timestamp").length ≤ 50 ∧ (Json.quote "layer").length ≤ 50 ∧
      (Json.quote "operation").length ≤ 50 ∧ (Json.quote "identity_id").length ≤ 50 ∧
      (Json.quote "fortress_id").length ≤ 50 ∧ (Json.quote "result").length ≤ 50 ∧
      (Json.quote "details").length ≤ 50 := by decide +kernel
  have hval : (Json.quote "2026-05-05T00:00:00.000Z").length ≤ 100 ∧
      (Json.quote auditLayer).length ≤ 100 ∧ (Json.quote operationEgressApproved).length ≤ 100 ∧
      (Json.quote apiSubject.asStr).length ≤ 100 ∧ (Json.quote apiSubject.fortressId).length ≤ 100 ∧
      (Json.quote "success").length ≤ 100 := by decide +kernel
  have hstr : ∀ text, Json.write (.str text)=Json.quote text := fun _ => rfl
  simp only [eventFields,Json.fieldsLength,List.map_cons,List.map_nil,List.sum_cons,List.sum_nil,
    hstr] at hent
  rw [hdet]
  simp only [Option.bind_some,asObject,Option.getD_some]
  rw [← Json.fieldsLength] at hent
  omega

private theorem apiEvent_built : buildAuditEventCanonicalJson (.allow "allow_api") apiRequest apiSubject
    "2026-05-05T00:00:00.000Z" = .ok (Json.obj apiEvent).canonicalText := by
  rw [buildAuditEventCanonicalJson,apiDetails_eq]
  rfl

theorem release_sound_api : ∃ engine,
    released (evaluateAttempt twoEventEnv engine apiRequest quietAttempt).2=true ∧
      ∃ snapshot subject row, Release twoEventEnv engine
        (evaluateAttempt twoEventEnv engine apiRequest quietAttempt).1 apiRequest quietAttempt snapshot
        subject row := by
  have hlaw := twoEventEnv_lawful
  have hsiz : 16777216 < 2 ^ 64 := by decide
  obtain ⟨w,-,hw,hcap,-,-⟩ := openWithCap_none twoEventEnv hsiz
  have hent : apiEvent=Json.ofFields (eventFields "2026-05-05T00:00:00.000Z"
      (operationForVerdict (.allow "allow_api")) (resultForVerdict (.allow "allow_api")) apiSubject
      apiDetails) := rfl
  obtain ⟨hwf,hdep,-⟩ := eventFields_record apiDetails_eq apiSubject "2026-05-05T00:00:00.000Z" hent
  obtain ⟨row,-,hok,-⟩ := append_first hlaw hw (by omega) hwf hdep apiEvent_length .critical
    (some 1777939200000)
  generalize happ : append twoEventEnv w (Json.obj apiEvent).canonicalText .critical (some 1777939200000)
    .clean=result at hok
  obtain ⟨w',reply⟩ := result
  simp only at hok
  subst hok
  let engine : DecisionEngine :=
    { fortressId := "fortress"
      manifestStore := some { ManifestStore.new (Vector.replicate 32 0) "fortress" with
        currentSnapshot := some apiSnapshot }
      walWriter := some w
      auditBuffer := AuditRingBuffer.new 1048576 60000
      armedIdentity := none
      unattributedAttempts := 0
      unattributedLogLines := 0 }
  have hdec : apiSnapshot.evaluate apiRequest=.allow "allow_api" := by decide +kernel
  have hsub : resolveAuditSubject (AdmittedIdentity.fromSnapshot apiSnapshot).toOption
      apiRequest.agentId=some apiSubject := by
    have hage : parseConfinedAgentId "uid-60123" = some 60123 := by decide +kernel
    simp only [resolveAuditSubject,AdmittedIdentity.fromSnapshot,apiSnapshot,apiRequest,Except.toOption,
      Option.bind_eq_bind,Option.bind_some,hage,ne_eq,not_true,if_false]
    rfl
  have hrel : released (evaluateAttempt twoEventEnv engine apiRequest quietAttempt).2=true := by
    simp only [evaluateAttempt,engine,decideUnderStore,quietAttempt,hdec,hsub,recordVerdict,
      apiEvent_built,happ]
    rfl
  exact ⟨engine,hrel,(release_sound twoEventEnv hlaw engine apiRequest quietAttempt).1 hrel⟩

end CastleWall.Decision
