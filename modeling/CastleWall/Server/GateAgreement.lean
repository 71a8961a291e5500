import CastleWall.Support.Outcome
import CastleWall.Server.GateParity

/-! # Where the two gates agree

The gates over whole rule lists. Their answers coincide exactly on the lists `GatesMeet` describes;
on a composed list the daemon agrees with the composer's self-check exactly when no blocking operator
rule reaches a protected destination in a way only the daemon reads. -/

namespace CastleWall.Server

open Text Policy

variable {node : NodeRuntime} {rules : List AllowlistRule} {reads : List Policy.AllowlistRule}

private theorem find_decoded (h : DecodedList node rules reads) :
    (rules.find? (fun r => r.id == habeasWebhookRuleId && isGenuineDerivedHabeasRule node r)=none ∧
      reads.find? (fun r =>
        r.id == Habeas.habeasWebhookRuleId && Habeas.isDerivedHabeasRule r)=none) ∨
    ∃ rule read, Decoded rule read ∧ isGenuineDerivedHabeasRule node rule=true ∧
      rule.id=habeasWebhookRuleId ∧
      rules.find? (fun r => r.id == habeasWebhookRuleId && isGenuineDerivedHabeasRule node r) =
        some rule ∧
      reads.find? (fun r => r.id == Habeas.habeasWebhookRuleId && Habeas.isDerivedHabeasRule r) =
        some read := by
  induction h with
  | nil => exact Or.inl ⟨rfl,rfl⟩
  | @cons rule read rules reads hrul _ ih =>
    have hsam : (read.id == Habeas.habeasWebhookRuleId && Habeas.isDerivedHabeasRule read) =
        (rule.id == habeasWebhookRuleId && isGenuineDerivedHabeasRule node rule) := by
      rw [genuine_decoded hrul.1 hrul.2,hrul.2.id]
      rfl
    rw [List.find?_cons,List.find?_cons,hsam]
    cases hfou : rule.id == habeasWebhookRuleId && isGenuineDerivedHabeasRule node rule with
    | false => exact ih
    | true =>
      rw [Bool.and_eq_true,beq_iff_eq] at hfou
      exact Or.inr ⟨rule,read,hrul.2,hfou.2,hfou.1,rfl,rfl⟩

variable {rule : AllowlistRule}

private theorem webhook_rule_shape
    (hid : rule.id=habeasWebhookRuleId) (h : isGenuineDerivedHabeasRule node rule=true) :
    (∃ host, rule.matchClause.host.map OneOrMany.toArray=some [host]) ∧
      ∃ port, rule.matchClause.port.map OneOrMany.toArray=some [port] := by
  have hne : ¬ rule.id=habeasLocalRuleId := by
    rw [hid]
    decide
  unfold isGenuineDerivedHabeasRule at h
  dsimp only at h
  rw [if_neg hne,if_pos hid] at h
  split_ifs at h
  simp only [Bool.and_eq_true] at h
  obtain ⟨⟨⟨⟨⟨hhos,hpor⟩,-⟩,-⟩,-⟩,-⟩ := h
  have hone {α : Type} {axis : Option (OneOrMany α)}
      (h : (axis.map fun v => v.toArray.length == 1).getD false=true) :
      ∃ v, axis.map OneOrMany.toArray=some [v] := by
    cases axis with
    | none => exact absurd h (by simp)
    | some v =>
      simp only [Option.map_some,Option.getD_some,beq_iff_eq] at h
      obtain ⟨x,hx⟩ := List.length_eq_one_iff.mp h
      exact ⟨x,congrArg some hx⟩
  exact ⟨hone hhos,hone hpor⟩

theorem webhookTarget_decoded (h : DecodedList node rules reads) :
    TargetDecoded (webhookTarget node rules) (Habeas.deriveWebhookTargetFromRules reads) := by
  rcases find_decoded h with ⟨hnone,hnone'⟩ | ⟨rule,read,hrea,hgen,hid,hfind,hfind'⟩
  · simp only [webhookTarget,Habeas.deriveWebhookTargetFromRules,hnone,hnone']
    trivial
  · obtain ⟨⟨host,hhos⟩,value,hval⟩ := webhook_rule_shape hid hgen
    obtain ⟨port,hpor,hmat⟩ := hrea.matchClause
    obtain ⟨p,hp,hdec⟩ : ∃ p, port=some [p] ∧ decodePort value=some p := by
      unfold decodePorts at hpor
      cases hm : rule.matchClause.port with
      | none => simp [hm] at hval
      | some values =>
        rw [hm,Option.map_some,Option.some.injEq] at hval
        simp only [hm,hval,List.mapM_cons,List.mapM_nil] at hpor
        cases hd : decodePort value with
        | none => simp [hd] at hpor
        | some p => exact ⟨p,by simpa [hd] using hpor.symm,rfl⟩
    have hser : webhookTarget node rules=some ⟨host,value⟩ := by
      simp [webhookTarget,hfind,hhos,hval]
    have hdae : Habeas.deriveWebhookTargetFromRules reads=some ⟨host,p⟩ := by
      simp [Habeas.deriveWebhookTargetFromRules,hfind',hmat,decodeMatch,hhos,hp]
    rw [hser,hdae]
    exact ⟨rfl,hdec⟩

def NoneReaches (reach : RuleMatch → Bool) (rules : List AllowlistRule) : Prop :=
  ∀ rule∈rules, blocking rule=true → reach rule.matchClause=false

theorem server_gate_iff
    (hwf : ∀ rule∈rules, AxesWellFormed node rule.matchClause) :
    findHabeasConflictsInComposed node rules=[] ↔
      structuralIssues node rules=[] ∧
        NoneReaches (sharedReach node (webhookTarget node rules)) rules ∧
        NoneReaches (serverOnlyReach node (webhookTarget node rules)) rules := by
  unfold findHabeasConflictsInComposed
  by_cases hcle : structuralIssues node rules=[]
  · rw [if_neg (by simp [hcle])]
    dsimp only
    rw [findHabeasConflicts,List.filterMap_eq_nil_iff]
    have hcon : ∀ rule∈rules,
        ((!isGenuineDerivedHabeasRule node rule)=true →
          ruleConflict node (webhookTarget node rules) rule=none) ↔
        (blocking rule=true →
          sharedReach node (webhookTarget node rules) rule.matchClause=false ∧
            serverOnlyReach node (webhookTarget node rules) rule.matchClause=false) := by
      intro rule hrue
      by_cases hgen : isGenuineDerivedHabeasRule node rule=true
      · simp [hgen,genuine_not_blocking hgen]
      · have hid : startsWith rule.id habeasRuleIdPrefix=false := by
          by_contra hres
          exact hgen (genuine_of_reserved hcle hrue (by simpa using hres))
        rw [← server_conflict_iff (hwf rule hrue) hid]
        simp [hgen]
    constructor
    · intro h
      have hrul := fun rule hrue => (hcon rule hrue).mp
        fun hope => h rule (List.mem_filter.mpr ⟨hrue,hope⟩)
      exact ⟨hcle,fun rule hrue hb => (hrul rule hrue hb).1,
        fun rule hrue hb => (hrul rule hrue hb).2⟩
    · rintro ⟨-,hsha,hser⟩ rule hrue
      rw [List.mem_filter] at hrue
      exact (hcon rule hrue.1).mpr
        (fun hb => ⟨hsha rule hrue.1 hb,hser rule hrue.1 hb⟩) hrue.2
  · rw [if_pos hcle]
    simp [hcle]

variable {webhook : Option HabeasWebhookTarget}

private theorem daemon_rule_iff
    {read : Policy.AllowlistRule} (hm : AxesWellFormed node rule.matchClause)
    (hrea : Decoded rule read)
    (hres : startsWith rule.id habeasRuleIdPrefix=true →
      isGenuineDerivedHabeasRule node rule=true) {target : Option Habeas.HabeasWebhookTarget}
    (htar : TargetDecoded webhook target) :
    ((!Habeas.isDerivedHabeasRule read)=true → Habeas.ruleConflict target read=none) ↔
      (blocking rule=true → sharedReach node webhook rule.matchClause=false ∧
        daemonOnlyReach node webhook rule.matchClause=false) := by
  rw [genuine_decoded hm hrea]
  by_cases hgen : isGenuineDerivedHabeasRule node rule=true
  · simp [hgen,genuine_not_blocking hgen]
  · have hid : startsWith rule.id habeasRuleIdPrefix=false := by
      by_contra h
      exact hgen (hres (by simpa using h))
    rw [← daemon_conflict_iff hm hrea hid htar]
    simp [hgen]

private theorem forall_decoded_iff (h : DecodedList node rules reads)
    {p : AllowlistRule → Prop} {q : Policy.AllowlistRule → Prop}
    (hpq : ∀ rule∈rules, ∀ read, AxesWellFormed node rule.matchClause → Decoded rule read →
      (q read ↔ p rule)) :
    (∀ read∈reads, q read) ↔ ∀ rule∈rules, p rule := by
  induction h with
  | nil => simp
  | @cons rule read rules reads hrul _ ih =>
    rw [List.forall_mem_cons,List.forall_mem_cons,
      hpq rule List.mem_cons_self read hrul.1 hrul.2,
      ih fun r hr => hpq r (List.mem_cons_of_mem _ hr)]

theorem daemon_gate_iff (h : DecodedList node rules reads) :
    Habeas.findHabeasConflictsInComposed reads=[] ↔
      structuralIssues node rules=[] ∧
        NoneReaches (sharedReach node (webhookTarget node rules)) rules ∧
        NoneReaches (daemonOnlyReach node (webhookTarget node rules)) rules := by
  unfold Habeas.findHabeasConflictsInComposed
  rw [structuralIssues_decoded h]
  by_cases hcle : structuralIssues node rules=[]
  · rw [if_neg (by simp [hcle])]
    dsimp only
    rw [Habeas.findHabeasConflicts,List.filterMap_eq_nil_iff]
    have hrul := forall_decoded_iff h (fun rule hrue read hm hrea =>
      daemon_rule_iff hm hrea (genuine_of_reserved hcle hrue) (webhookTarget_decoded h))
    simp only [List.mem_filter,and_imp]
    rw [hrul]
    constructor
    · intro hall
      exact ⟨hcle,fun rule hrue hb => (hall rule hrue hb).1,
        fun rule hrue hb => (hall rule hrue hb).2⟩
    · rintro ⟨-,hsha,hdae⟩ rule hrue hb
      exact ⟨hsha rule hrue hb,hdae rule hrue hb⟩
  · rw [if_pos hcle]
    simp [hcle]

structure Added (node : NodeRuntime) (rule : AllowlistRule) : Prop where
  notBlocking : blocking rule=false
  axes : AxesWellFormed node rule.matchClause

private theorem added_local (node : NodeRuntime) (createdAt : String) :
    Added node (localDistressRule createdAt) := by
  refine ⟨rfl,⟨by simp [localDistressRule],by simp [localDistressRule],?_,
    by simp [localDistressRule],by simp [localDistressRule],by simp [localDistressRule]⟩⟩
  rintro v ⟨⟩
  exact List.cons_ne_nil _ _

private theorem added_webhook (node : NodeRuntime) (webhook : HabeasWebhookTarget)
    (createdAt : String) : Added node (webhookDistressRule webhook createdAt) := by
  refine ⟨rfl,⟨?_,by simp [webhookDistressRule],by simp [webhookDistressRule],
    by simp [webhookDistressRule],by simp [webhookDistressRule],by simp [webhookDistressRule]⟩⟩
  rintro v ⟨⟩
  exact List.cons_ne_nil _ _

theorem added_dns
    {resolvers : List (Option String)} {createdAt : String}
    (h : deriveDnsRuleForHostnameRules node rules resolvers createdAt=some rule) :
    Added node rule ∧ rule.id=derivedDnsRuleId := by
  unfold deriveDnsRuleForHostnameRules at h
  dsimp only at h
  split_ifs at h with _ _ hadd
  cases h
  refine ⟨⟨rfl,⟨by simp,by simp,?_,by simp,by simp,by simp⟩⟩,rfl⟩
  rintro v ⟨⟩
  simpa [OneOrMany.toArray] using hadd

private theorem isValidCidr_gate (node : NodeRuntime) : isValidCidr node gateLoopbackCidr=true := by
  have hspl : splitOnce gateLoopbackCidr '/' = some ("127.0.0.1","32") := by decide
  have hadd : node.parseIp "127.0.0.1" = some IpAddr.loopback4 :=
    node.parseIp_std _ _ IpAddr.parse_loopback4
  simp only [isValidCidr,parseCidr,hspl,hadd]
  decide

variable {input : ComposeEffectiveRulesInput}

theorem added_gate (node : NodeRuntime)
    {added : List AllowlistRule} (h : deriveGateAllowRule input=.ok added) :
    ∀ rule∈added, Added node rule ∧ rule.id=derivedGateRuleId := by
  unfold deriveGateAllowRule at h
  split at h
  · cases h
    simp
  · split_ifs at h
    cases h
    simp only [List.mem_singleton,forall_eq]
    refine ⟨⟨rfl,⟨by simp [gateAllowRule],by simp [gateAllowRule],by simp [gateAllowRule],?_,?_,
      by simp [gateAllowRule]⟩⟩,rfl⟩
    · rintro v ⟨⟩
      exact List.cons_ne_nil _ _
    · rintro v ⟨⟩ e he
      rw [OneOrMany.toArray,List.mem_singleton] at he
      rw [he]
      exact isValidCidr_gate node

theorem compose_ok (h : composeEffectiveRules node input=.ok rules) :
    findHabeasConflicts node input.operatorRules input.distressWebhook=[] ∧
      findHabeasConflictsInComposed node rules=[] ∧
      ∃ dns gate, rules=input.operatorRules ++
          deriveHabeasDistressRules input.distressWebhook input.createdAt++dns++gate ∧
        (∀ rule∈dns, Added node rule ∧ rule.id=derivedDnsRuleId) ∧
        ∀ rule∈gate, Added node rule ∧ rule.id=derivedGateRuleId := by
  unfold composeEffectiveRules at h
  split at h
  · obtain ⟨_,hthr,_⟩ := Outcome.bind_ok h
    cases hthr
  dsimp only at h
  split at h
  · obtain ⟨_,hthr,_⟩ := Outcome.bind_ok h
    cases hthr
  rename_i hiss
  obtain ⟨gate,hgat,h⟩ := Outcome.bind_ok h
  split at h
  · obtain ⟨_,hthr,_⟩ := Outcome.bind_ok h
    cases hthr
  rename_i hcom
  cases h
  refine ⟨by simpa using hiss,by simpa using hcom,_,gate,rfl,?_,added_gate node hgat⟩
  intro rule hrul
  rw [Option.mem_toList] at hrul
  exact added_dns hrul

private theorem added_distress (node : NodeRuntime) (webhook : Option HabeasWebhookTarget)
    (createdAt : String) :
    ∀ rule∈deriveHabeasDistressRules webhook createdAt, Added node rule := by
  unfold deriveHabeasDistressRules
  cases webhook with
  | none => simpa using added_local node createdAt
  | some webhook => simpa using ⟨added_local node createdAt,added_webhook node webhook createdAt⟩

private theorem find_none_of_id_ne
    (h : ∀ rule∈rules, rule.id≠habeasWebhookRuleId) :
    rules.find? (fun r => r.id == habeasWebhookRuleId && isGenuineDerivedHabeasRule node r) =
      none := by
  rw [List.find?_eq_none]
  intro rule hrul
  simp [h rule hrul]

theorem operator_id_ne_webhook (h : findHabeasConflicts node rules webhook=[]) :
    ∀ rule∈rules, rule.id≠habeasWebhookRuleId := by
  intro rule hrul hid
  rw [findHabeasConflicts,List.filterMap_eq_nil_iff] at h
  have hnone := h rule hrul
  unfold ruleConflict at hnone
  rw [if_pos (by rw [hid]; decide)] at hnone
  exact Option.some_ne_none _ hnone

theorem webhookDistressRule_genuine (node : NodeRuntime) (webhook : HabeasWebhookTarget)
    (createdAt : String) :
    isGenuineDerivedHabeasRule node (webhookDistressRule webhook createdAt)=true := by
  have htcp : node.toLowerCase "tcp" = "tcp" := by
    rw [node.toLowerCase_ascii "tcp" (by simp)]
    decide
  have hne : ¬ habeasWebhookRuleId=habeasLocalRuleId := by decide
  simp [isGenuineDerivedHabeasRule,webhookDistressRule,habeasEmitterScope,emitterScoped,htcp,
    hne,OneOrMany.toArray]

theorem webhookTarget_composed {operator dns gate : List AllowlistRule} {createdAt : String}
    (hope : ∀ rule∈operator, rule.id≠habeasWebhookRuleId)
    (hdns : ∀ rule∈dns, rule.id=derivedDnsRuleId)
    (hgat : ∀ rule∈gate, rule.id=derivedGateRuleId) :
    webhookTarget node
      (operator++deriveHabeasDistressRules webhook createdAt++dns++gate)=webhook := by
  have hdns' : ∀ rule∈dns, rule.id≠habeasWebhookRuleId := by
    intro rule hrul
    rw [hdns rule hrul]
    decide
  have hgat' : ∀ rule∈gate, rule.id≠habeasWebhookRuleId := by
    intro rule hrul
    rw [hgat rule hrul]
    decide
  have hloc : ((localDistressRule createdAt).id == habeasWebhookRuleId)=false := by
    change (habeasLocalRuleId == habeasWebhookRuleId)=false
    decide
  unfold webhookTarget
  simp only [List.find?_append,find_none_of_id_ne hope,find_none_of_id_ne hdns',
    find_none_of_id_ne hgat',Option.none_or,Option.or_none,deriveHabeasDistressRules,
    List.find?_cons,hloc,Bool.false_and]
  cases webhook with
  | none => rfl
  | some webhook =>
    have hid : ((webhookDistressRule webhook createdAt).id == habeasWebhookRuleId)=true := by
      simp [webhookDistressRule]
    simp only [Option.map_some,Option.toList_some,List.find?_cons,hid,
      webhookDistressRule_genuine,Bool.and_self]
    rfl

private theorem not_noneReaches_iff {reach : RuleMatch → Bool} :
    ¬ NoneReaches reach rules ↔
      ∃ rule∈rules, blocking rule=true ∧ reach rule.matchClause=true := by
  simp [NoneReaches]

private theorem gates_agree_iff_meet
    (hwf : ∀ rule∈rules, AxesWellFormed node rule.matchClause)
    (hrea : rules.mapM decodeRule=some reads) :
    (findHabeasConflictsInComposed node rules=[] ↔
      Habeas.findHabeasConflictsInComposed reads=[]) ↔ GatesMeet node rules := by
  rw [server_gate_iff hwf,daemon_gate_iff (decodedList_of_mapM rules reads hwf hrea)]
  unfold GatesMeet
  rw [← not_noneReaches_iff,← not_noneReaches_iff,← not_noneReaches_iff]
  tauto

private theorem composed_daemon_iff
    (hval : ∀ rule∈input.operatorRules, validateRule node rule=[])
    (hrul : composeEffectiveRules node input=.ok rules)
    (hrea : rules.mapM decodeRule=some reads) :
    Habeas.findHabeasConflictsInComposed reads=[] ↔
      NoneReaches (daemonOnlyReach node input.distressWebhook) input.operatorRules := by
  obtain ⟨hope,hcle,dns,gate,rfl,hdns,hgat⟩ := compose_ok hrul
  have hadd : ∀ rule∈deriveHabeasDistressRules input.distressWebhook input.createdAt++dns ++
      gate, Added node rule := by
    intro rule hrue
    rcases List.mem_append.mp hrue with hrue | hrue
    · rcases List.mem_append.mp hrue with hrue | hrue
      · exact added_distress node _ _ rule hrue
      · exact (hdns rule hrue).1
    · exact (hgat rule hrue).1
  simp only [List.append_assoc] at hadd hrea hcle ⊢
  have hwf : ∀ rule∈input.operatorRules++(deriveHabeasDistressRules input.distressWebhook
      input.createdAt++(dns++gate)), AxesWellFormed node rule.matchClause := by
    intro rule hrue
    rcases List.mem_append.mp hrue with hrue | hrue
    · exact axesWellFormed_of_validateRule (hval rule hrue)
    · exact (hadd rule hrue).axes
  have htar : webhookTarget node (input.operatorRules++(deriveHabeasDistressRules
      input.distressWebhook input.createdAt++(dns++gate)))=input.distressWebhook := by
    rw [← List.append_assoc,← List.append_assoc]
    exact webhookTarget_composed (operator_id_ne_webhook hope) (fun rule hrue => (hdns rule hrue).2)
      fun rule hrue => (hgat rule hrue).2
  have hser := (server_gate_iff hwf).mp hcle
  rw [daemon_gate_iff (decodedList_of_mapM _ reads hwf hrea),htar]
  rw [htar] at hser
  constructor
  · rintro ⟨-,-,hdae⟩ rule hrue
    exact hdae rule (List.mem_append_left _ hrue)
  · intro hdae
    refine ⟨hser.1,hser.2.1,?_⟩
    intro rule hrue hb
    rcases List.mem_append.mp hrue with hrue | hrue
    · exact hdae rule hrue hb
    · exact absurd ((hadd rule hrue).notBlocking.symm.trans hb) (by decide)

/-- The two gates answer alike on a schema-valid list exactly when `GatesMeet` holds of it, and a list
the composer returns passes the daemon's gate exactly when no blocking operator rule reaches the lane
or the webhook in a way only the daemon reads. -/
theorem habeas_gates_agree_iff (node : NodeRuntime) :
    (∀ (rules : List AllowlistRule) (reads : List Policy.AllowlistRule),
      (∀ rule∈rules, validateRule node rule=[]) → rules.mapM decodeRule=some reads →
      ((findHabeasConflictsInComposed node rules=[] ↔
        Habeas.findHabeasConflictsInComposed reads=[]) ↔ GatesMeet node rules)) ∧
    (∀ (input : ComposeEffectiveRulesInput) (rules : List AllowlistRule)
      (reads : List Policy.AllowlistRule),
      (∀ rule∈input.operatorRules, validateRule node rule=[]) →
      composeEffectiveRules node input=.ok rules → rules.mapM decodeRule=some reads →
      (Habeas.findHabeasConflictsInComposed reads=[] ↔
        NoneReaches (daemonOnlyReach node input.distressWebhook) input.operatorRules)) := by
  refine ⟨?_,fun input rules reads => composed_daemon_iff⟩
  intro rules reads hval hrea
  exact gates_agree_iff_meet (fun rule hrul => axesWellFormed_of_validateRule (hval rule hrul))
    hrea

/-! A deny rule for `localhost` at the distress port passes the server's gate and the composer, and
the daemon refuses the composed list. -/

def mapped : IpAddr → BitVec 128
  | .v4 bits => 0xffff00000000#128 ||| bits.setWidth 128
  | .v6 bits => bits

def mappedWidth : IpAddr → Nat → Nat
  | .v4 _, width => 96+width
  | .v6 _, width => width

def asciiNode : NodeRuntime where
  toLowerCase := toAsciiLowercase
  parseIp := IpAddr.parse
  addressMatches a b := mapped a == mapped b
  subnetMatches base width addr := IpAddr.prefixMatches base width addr ||
    IpAddr.prefixMatches (.v6 (mapped base)) (mappedWidth base width) (.v6 (mapped addr))
  toLowerCase_ascii _ _ := rfl
  toLowerCase_folded s := by
    have hchars : s.toList.map (Char.toLower ∘ Char.toLower)=s.toList.map Char.toLower := by
      apply List.map_congr_left
      intro c _
      unfold Function.comp Char.toLower
      grind
    simp [toAsciiLowercase,hchars]
  parseIp_std _ _ h := h
  addressMatches_self _ := beq_self_eq_true _
  subnetMatches_prefix _ _ _ h := by rw [h,Bool.true_or]

private def denyLocalhost : AllowlistRule where
  id := "deny_localhost"
  schemaVersion := 1
  createdAt := "2026-05-05T00:00:00Z"
  matchClause := { host := some (.many ["localhost"]), port := some (.many [8741]) }
  scope := {}
  disposition := .deny

private def localhostInput : ComposeEffectiveRulesInput where
  operatorRules := [denyLocalhost]
  resolvers := []
  createdAt := "2026-05-05T00:00:00Z"

private def localhostRules : List AllowlistRule :=
  [denyLocalhost,localDistressRule "2026-05-05T00:00:00Z"]

private def localhostReads : List Policy.AllowlistRule :=
  localhostRules.filterMap decodeRule

private theorem localhostRules_valid :
    ∀ rule∈localhostRules, validateRule asciiNode rule=[] := by
  decide

private theorem localhostRules_composed :
    composeEffectiveRules asciiNode localhostInput=.ok localhostRules := by
  rfl

private theorem localhostRules_decoded : localhostRules.mapM decodeRule=some localhostReads := by
  rfl

theorem localhost_deny_splits_gates :
    (∀ rule∈localhostRules, validateRule asciiNode rule=[]) ∧
      composeEffectiveRules asciiNode localhostInput=.ok localhostRules ∧
      localhostRules.mapM decodeRule=some localhostReads ∧
      findHabeasConflictsInComposed asciiNode localhostRules=[] ∧
      Habeas.findHabeasConflictsInComposed localhostReads≠[] := by
  refine ⟨localhostRules_valid,localhostRules_composed,localhostRules_decoded,?_,?_⟩
  · decide
  · decide

theorem habeas_gates_agree_iff_at_localhost :
    ((findHabeasConflictsInComposed asciiNode localhostRules=[] ↔
        Habeas.findHabeasConflictsInComposed localhostReads=[]) ↔
      GatesMeet asciiNode localhostRules) ∧
    (Habeas.findHabeasConflictsInComposed localhostReads=[] ↔
      NoneReaches (daemonOnlyReach asciiNode none) [denyLocalhost]) :=
  ⟨(habeas_gates_agree_iff asciiNode).1 localhostRules localhostReads localhostRules_valid
      localhostRules_decoded,
    (habeas_gates_agree_iff asciiNode).2 localhostInput localhostRules localhostReads
      (fun rule hrul => localhostRules_valid rule
        (List.mem_cons.mpr (Or.inl (List.mem_singleton.mp hrul))))
      localhostRules_composed localhostRules_decoded⟩

end CastleWall.Server
