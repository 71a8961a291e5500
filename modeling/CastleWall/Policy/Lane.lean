import CastleWall.Policy.Snapshot

/-! # The distress lane stays open

Every admitted snapshot allows the distress emitter to reach loopback at the reserved port: a
rule the evaluator would apply to that attempt is one the static gate saw covering the lane. -/

namespace CastleWall.Policy

open Text Manifest Habeas

/-- An attempt on the reserved lane, in any textual spelling of the loopback address. -/
structure DistressAttempt (request : EvaluationRequest) : Prop where
  agent : request.agentId=habeasEmitterAgentId
  destination : ∃ text addr, request.destIp=some text ∧ IpAddr.parse text=some addr ∧
    (addr=IpAddr.loopback4 ∨ addr=IpAddr.loopback6)
  port : request.destPort=habeasDistressPort
  protocol : eqIgnoreAsciiCase request.destProtocol "tcp" = true

variable {addr : IpAddr}

private theorem ipLiteral_of_parse {destHost : Option String} {text : String}
    (h : IpAddr.parse text=some addr) :
    RuleMatch.ipLiteral destHost (some text)=some addr := by
  have hne : text ≠ "" := by
    intro he
    rw [he,IpAddr.parse_empty] at h
    exact Option.some_ne_none _ h.symm
  simp [RuleMatch.ipLiteral,Option.filter,hne,h]

private theorem loopback_literal
    (h : addr=IpAddr.loopback4 ∨ addr=IpAddr.loopback6) :
    ∃ loopback∈habeasLoopbackHosts, loopback ≠ "localhost" ∧
      IpAddr.parse loopback=some addr := by
  rcases h with rfl | rfl
  · exact ⟨"127.0.0.1",by decide,by decide,IpAddr.parse_loopback4⟩
  · exact ⟨"::1",by decide,by decide,IpAddr.parse_loopback6⟩

variable {rule : AllowlistRule}

/-- On an admitted rule the runtime destination test can only succeed through the ip and cidr
axes. -/
private theorem axis_of_matchesDestination (hrul : AdmittedRule rule)
    {destHost : Option String} {text : String}
    (hpar : IpAddr.parse text=some addr)
    (h : rule.matchClause.matchesDestination destHost (some text)=true) :
    ipAxisMatches rule.matchClause.ip addr=true ∨
      cidrAxisMatches rule.matchClause.cidr addr=true := by
  have hdes : ¬ (!RuleMatch.present rule.matchClause.host && !rule.matchClause.patternPresent &&
      !RuleMatch.present rule.matchClause.ip && !RuleMatch.present rule.matchClause.cidr)=true := by
    rcases hrul.destination with hip | hcid
    · simp [hip]
    · simp [hcid]
  rw [RuleMatch.matchesDestination,if_neg hdes,hrul.matchesHost_eq,Bool.false_or,RuleMatch.matchesIp,
    ipLiteral_of_parse hpar] at h
  simp only [Bool.or_eq_true,Bool.and_eq_true] at h
  exact h.imp And.right And.right

/-- The static gate sees every admitted rule that would match an attempt on the lane. -/
theorem coversLoopbackLane_of_covers (hrul : AdmittedRule rule)
    {request : EvaluationRequest} (hatt : DistressAttempt request)
    (hcov : rule.covers request=true) :
    ruleCoversLoopbackLane rule.matchClause=true := by
  obtain ⟨text,addr,hip,hpar,hloo⟩ := hatt.destination
  simp only [AllowlistRule.covers,RuleMatch.matches,Bool.and_eq_true] at hcov
  obtain ⟨-,⟨hdes,hpor⟩,-⟩ := hcov
  rw [hatt.port,matchesPort_eq] at hpor
  rw [hip] at hdes
  obtain ⟨loopback,hmem,hne,hlit⟩ := loopback_literal hloo
  have haxi : ipAxisCovers rule.matchClause.ip loopback=true ∨
      cidrAxisCovers rule.matchClause.cidr loopback=true :=
    (axis_of_matchesDestination hrul hpar hdes).imp
      (ipAxisCovers_of_matches hlit) (cidrAxisCovers_of_matches hlit)
  rw [ruleCoversLoopbackLane,if_neg (by simp [hpor])]
  split
  · rfl
  · rw [List.any_eq_true]
    refine ⟨loopback,hmem,?_⟩
    simpa [hne] using Or.inr haxi

private theorem local_rule_covers (hid : rule.id=habeasLocalRuleId)
    (hder : isDerivedHabeasRule rule=true) {request : EvaluationRequest}
    (hatt : DistressAttempt request) : rule.covers request=true := by
  obtain ⟨-,hsco,hips,hpor,protocol,hpro,htcp⟩ := local_rule_shape hid hder
  obtain ⟨text,addr,hip,hpar,hloo⟩ := hatt.destination
  have happ : rule.scope.appliesTo request.agentId request.agentTemplate=true := by
    simp [RuleScope.appliesTo,hsco,hatt.agent]
  have hpre : RuleMatch.present rule.matchClause.ip=true := by
    simp [RuleMatch.present,hips]
  have hmat : ipAxisMatches rule.matchClause.ip addr=true := by
    rw [hips]
    rcases hloo with rfl | rfl <;> decide
  have hdes : rule.matchClause.matchesDestination request.destHost request.destIp=true := by
    have hipa : rule.matchClause.matchesIp request.destHost request.destIp=true := by
      rw [hip,RuleMatch.matchesIp,ipLiteral_of_parse hpar]
      simp [hpre,hmat]
    rw [RuleMatch.matchesDestination,if_neg (by simp [hpre]),hipa,Bool.or_true]
  have hprt : RuleMatch.matchesProtocol protocol request.destProtocol=true := by
    unfold RuleMatch.matchesProtocol
    split
    · rw [hatt.protocol,Bool.true_or]
    · refine eqIgnoreAsciiCase_trans htcp ?_
      rw [eqIgnoreAsciiCase_comm]
      exact hatt.protocol
  simp [AllowlistRule.covers,RuleMatch.matches,RuleMatch.matchesPort,happ,hdes,hpor,
    hpro,hprt,hatt.port]

/-- In every snapshot admission builds, an attempt on the distress lane is allowed: no rule placed
ahead of the derived lane rule denies it. -/
theorem distress_attempt_allowed (env : AdmissionEnv) (loaded : LoadedManifest)
    (snapshot : PolicySnapshot) (hbuilt : fromLoadedManifest env loaded=.ok snapshot)
    (request : EvaluationRequest) (hattempt : DistressAttempt request) :
    ∃ ruleId, snapshot.evaluate request=.allow ruleId := by
  obtain ⟨hrul, hcle⟩ := fromLoadedManifest_ok hbuilt
  obtain ⟨lane,hlan,hid,hder⟩ := exists_local_of_no_conflicts hcle
  have hfou : (snapshot.rules.find? (·.covers request)).isSome=true := by
    rw [List.find?_isSome]
    exact ⟨lane,hlan,local_rule_covers hid hder hattempt⟩
  obtain ⟨rule,hrue⟩ := Option.isSome_iff_exists.mp hfou
  have hmem : rule∈snapshot.rules := List.mem_of_find?_eq_some hrue
  have hcov : rule.covers request=true := by simpa using List.find?_some hrue
  rw [PolicySnapshot.evaluate,hrue]
  cases hdis : rule.disposition with
  | allow => exact ⟨rule.id,by simp [verdictOf,hdis]⟩
  | prompt => exact absurd hdis (hrul rule hmem).noPrompt
  | deny =>
    have hope : isDerivedHabeasRule rule=false := by
      by_contra hgen
      have hall := derived_allows (by simpa using hgen)
      exact absurd (hdis.symm.trans hall) (by decide)
    have hopn := not_covers_loopback_of_no_conflicts hcle hmem hope hdis
    have hshu := coversLoopbackLane_of_covers (hrul rule hmem) hattempt hcov
    exact absurd (hshu.symm.trans hopn) (by decide)

/-! A manifest with a deny rule ahead of the lane rule, and loopback spelt in full. -/

private def laneRule : AllowlistRule where
  id := "reserved_habeas_distress_local"
  schemaVersion := 1
  createdAt := "2026-05-05T00:00:00Z"
  matchClause := { ip := some ["127.0.0.1","::1"], port := some [8741], protocol := some "tcp" }
  scope := { agentIds := ["sanctuary:habeas-distress-emitter"] }
  disposition := .allow
  derived := some true

private def laneRuleBody : List UInt8 :=
  utf8Bytes "\x7b\"id\":\"reserved_habeas_" ++ utf8Bytes "distress_local\"," ++
    utf8Bytes "\"schema_version\":1," ++ utf8Bytes "\"created_at\":" ++
    utf8Bytes "\"2026-05-05T00:00:00Z\"," ++ utf8Bytes "\"match\":\x7b\"ip\":[" ++
    utf8Bytes "\"127.0.0.1\",\"::1\"]," ++ utf8Bytes "\"port\":[8741]," ++
    utf8Bytes "\"protocol\":\"tcp\"\x7d," ++ utf8Bytes "\"scope\":\x7b\"agent_ids\":[" ++
    utf8Bytes "\"sanctuary:habeas-" ++ utf8Bytes "distress-emitter\"]\x7d," ++
    utf8Bytes "\"disposition\":\"allow\"," ++ utf8Bytes "\"derived\":true\x7d"

private def denyRule : AllowlistRule where
  id := "deny_ten"
  schemaVersion := 1
  createdAt := "2026-05-05T00:00:00Z"
  matchClause := { cidr := some ["10.0.0.0/8"] }
  disposition := .deny

private def denyRuleBody : List UInt8 :=
  utf8Bytes "\x7b\"id\":\"deny_ten\"," ++ utf8Bytes "\"schema_version\":1," ++
    utf8Bytes "\"created_at\":" ++ utf8Bytes "\"2026-05-05T00:00:00Z\"," ++
    utf8Bytes "\"match\":\x7b\"cidr\":[" ++ utf8Bytes "\"10.0.0.0/8\"]\x7d," ++
    utf8Bytes "\"disposition\":\"deny\"\x7d"

def laneEnv : AdmissionEnv where
  ruleFromSlice bytes :=
    if bytes=laneRuleBody then .ok laneRule
    else if bytes=denyRuleBody then .ok denyRule
    else .error "expected value at line 1 column 1"
  sha256Hex _ := ""
  hashSetOrder ids := ids
  overflowUidFile := .ok "65534\n"
  overflowUidRequired := true

def laneManifest : LoadedManifest where
  signed := {
    manifest := {
      schemaVersion := 1
      fortressId := "fortress"
      issuedAt := "2026-05-05T00:00:00Z"
      agentOrigin := some { mode := "uid", agentUid := some 60123, systemUidAllowCeiling := 1000 }
      rules := [⟨"deny_ten","deny.json",""⟩,⟨"reserved_habeas_distress_local","lane.json",""⟩] }
    signature := ⟨"ed25519","key","sig"⟩ }
  ruleFiles := [("deny.json",denyRuleBody),("lane.json",laneRuleBody)]
  manifestSignatureB64url := "sig"
  ruleCount := 2

def laneSnapshot : PolicySnapshot where
  rules := [denyRule,laneRule]
  manifestSignatureB64url := some "sig"
  fortressId := "fortress"
  confinedAgentUid := some 60123
  confinedAgentUidCeiling := some 1000
  confinedGateUid := none

def laneRequest : EvaluationRequest where
  agentId := "sanctuary:habeas-distress-emitter"
  agentTemplate := ""
  destHost := none
  destIp := some "0:0:0:0:0:0:0:1"
  destPort := 8741
  destProtocol := "tcp"
  opaqueDest := true

private theorem laneBody_ne_denyBody : denyRuleBody≠laneRuleBody := by
  intro h
  exact absurd (congrArg (·.take 8) h) (by decide)

private theorem laneManifest_rules :
    laneManifest.signed.manifest.rules.mapM (loadRule laneEnv laneManifest) =
      .ok [denyRule,laneRule] := by
  have hden : laneEnv.ruleFromSlice denyRuleBody=.ok denyRule := by
    simp only [laneEnv,if_neg laneBody_ne_denyBody,if_true]
  have hlan : laneEnv.ruleFromSlice laneRuleBody=.ok laneRule := by
    simp only [laneEnv,if_true]
  have hfil : laneManifest.ruleFiles.lookup "deny.json" = some denyRuleBody := rfl
  have hfil' : laneManifest.ruleFiles.lookup "lane.json" = some laneRuleBody := rfl
  have hloa : loadRule laneEnv laneManifest ⟨"deny_ten","deny.json",""⟩=.ok denyRule := by
    simp only [loadRule,hfil,hden]
    decide
  have hloe : loadRule laneEnv laneManifest
      ⟨"reserved_habeas_distress_local","lane.json",""⟩=.ok laneRule := by
    simp only [loadRule,hfil',hlan]
    decide
  change List.mapM _ [_,_]=_
  rw [List.mapM_cons,List.mapM_cons,hloa,hloe]
  rfl

theorem laneSnapshot_admitted :
    fromLoadedManifest laneEnv laneManifest=.ok laneSnapshot := by
  rw [fromLoadedManifest,laneManifest_rules]
  decide

theorem distress_attempt_allowed_behind_deny :
    ∃ ruleId, laneSnapshot.evaluate laneRequest=.allow ruleId :=
  distress_attempt_allowed laneEnv laneManifest laneSnapshot laneSnapshot_admitted laneRequest
    ⟨rfl,⟨"0:0:0:0:0:0:0:1",IpAddr.loopback6,rfl,by decide,Or.inr rfl⟩,rfl,by decide⟩

end CastleWall.Policy
