import CastleWall.Server.GateAgreement

/-! # What the composer returns

The composer checks the operator rules, adds the derived ones and checks its own result with the stricter
gate. The first check is enough for the second: whatever the composer adds is a genuine reserved rule or an
allow rule under another id. -/

namespace CastleWall.Server

open Text

/-- An id that only a derived rule may carry. -/
def isReservedId (id : String) : Bool := startsWith id habeasRuleIdPrefix || id == derivedGateRuleId

def rulesWithLane (input : ComposeEffectiveRulesInput) : List AllowlistRule :=
  input.operatorRules++deriveHabeasDistressRules input.distressWebhook input.createdAt

def derivedDns (node : NodeRuntime) (input : ComposeEffectiveRulesInput) : Option AllowlistRule :=
  deriveDnsRuleForHostnameRules node (rulesWithLane input) input.resolvers input.createdAt

def derivedGate (input : ComposeEffectiveRulesInput) : Option AllowlistRule :=
  input.exclusiveEgressGate.map fun policy =>
    gateAllowRule policy input.createdAt input.gateRuleScopeToAgentUid

def idCount (id : String) (rules : List AllowlistRule) : Nat := rules.countP (·.id == id)

/-- The operator rules in their order, followed by the derived rules; a reserved id is carried once at most,
and the id of the DNS rule twice only if the operator rules carry it twice. -/
structure Composition (node : NodeRuntime) (input : ComposeEffectiveRulesInput)
    (rules : List AllowlistRule) : Prop where
  parts : rules=input.operatorRules++localDistressRule input.createdAt ::
    ((input.distressWebhook.map fun target => webhookDistressRule target input.createdAt).toList ++
      (derivedDns node input).toList++(derivedGate input).toList)
  oneLocal : idCount habeasLocalRuleId rules=1
  reserved : ∀ id, isReservedId id=true → idCount id rules ≤ 1
  dns : idCount derivedDnsRuleId rules ≤ max 1 (idCount derivedDnsRuleId input.operatorRules)

section Ids

variable {node : NodeRuntime} {input : ComposeEffectiveRulesInput}

theorem operator_id_unreserved {rules : List AllowlistRule} {webhook : Option HabeasWebhookTarget}
    (h : findHabeasConflicts node rules webhook=[]) :
    ∀ rule∈rules, startsWith rule.id habeasRuleIdPrefix=false := by
  intro rule hrul
  by_contra hid
  rw [findHabeasConflicts,List.filterMap_eq_nil_iff] at h
  have hnone := h rule hrul
  unfold ruleConflict at hnone
  rw [if_pos (by simpa using hid)] at hnone
  exact Option.some_ne_none _ hnone

theorem derivedDns_id {rule : AllowlistRule} (h : derivedDns node input=some rule) :
    rule.id=derivedDnsRuleId ∧ blocking rule=false ∧ idCount derivedDnsRuleId input.operatorRules=0 := by
  obtain ⟨hadd,hid⟩ := added_dns h
  refine ⟨hid,hadd.notBlocking,?_⟩
  rw [derivedDns,deriveDnsRuleForHostnameRules] at h
  split_ifs at h with hany
  rw [idCount,List.countP_eq_zero]
  intro operator hope hid
  refine hany (List.any_eq_true.mpr ⟨operator,?_,hid⟩)
  exact List.mem_append_left _ hope

theorem derivedGate_id {rule : AllowlistRule} (h : derivedGate input=some rule) :
    rule.id=derivedGateRuleId ∧ blocking rule=false := by
  obtain ⟨policy,-,rfl⟩ := Option.map_eq_some_iff.mp h
  exact ⟨rfl,rfl⟩

theorem idCount_append (id : String) (xs ys : List AllowlistRule) :
    idCount id (xs++ys)=idCount id xs+idCount id ys :=
  List.countP_append

theorem idCount_toList_le (id : String) (rule : Option AllowlistRule) : idCount id rule.toList ≤ 1 := by
  cases rule with
  | none => simp [idCount]
  | some rule => exact List.countP_le_length

theorem idCount_toList_ne {id : String} {rule : Option AllowlistRule}
    (h : ∀ r, rule=some r → r.id≠id) : idCount id rule.toList=0 := by
  cases rule with
  | none => rfl
  | some r => simp [idCount,h r rfl]

end Ids

section SelfCheck

variable {node : NodeRuntime}

theorem localDistressRule_genuine (node : NodeRuntime) (createdAt : String) :
    isGenuineDerivedHabeasRule node (localDistressRule createdAt)=true := by
  have htcp : node.toLowerCase "tcp" = "tcp" := by
    rw [node.toLowerCase_ascii "tcp" (by simp)]
    decide
  simp [isGenuineDerivedHabeasRule,localDistressRule,habeasEmitterScope,emitterScoped,htcp,
    OneOrMany.toArray]

theorem scan_unreserved {rules : List AllowlistRule}
    (h : ∀ rule∈rules, startsWith rule.id habeasRuleIdPrefix=false) (acc : Policy.Habeas.ReservedScan) :
    rules.foldl (scanReservedRule node) acc=acc := by
  induction rules with
  | nil => rfl
  | cons rule rules ih =>
    have hste : scanReservedRule node acc rule=acc := by
      rw [scanReservedRule,if_pos (by simp [h rule List.mem_cons_self])]
    rw [List.foldl_cons,hste]
    exact ih fun r hr => h r (List.mem_cons_of_mem rule hr)

theorem structuralIssues_composed {operator added : List AllowlistRule} {webhook : Option HabeasWebhookTarget}
    {createdAt : String} (hope : ∀ rule∈operator, startsWith rule.id habeasRuleIdPrefix=false)
    (hadd : ∀ rule∈added, startsWith rule.id habeasRuleIdPrefix=false) :
    structuralIssues node (operator++deriveHabeasDistressRules webhook createdAt++added)=[] := by
  have hloc : scanReservedRule node {} (localDistressRule createdAt) = { localCount := 1 } := by
    have hid : startsWith (localDistressRule createdAt).id habeasRuleIdPrefix=true := by
      change startsWith habeasLocalRuleId habeasRuleIdPrefix=true
      decide
    rw [scanReservedRule,if_neg (by simp [hid]),if_neg (by simp [localDistressRule_genuine])]
    rfl
  have hweb : ∀ target, scanReservedRule node { localCount := 1 } (webhookDistressRule target createdAt) =
      { localCount := 1, webhookCount := 1 } := by
    intro target
    have hid : startsWith (webhookDistressRule target createdAt).id habeasRuleIdPrefix=true := by
      change startsWith habeasWebhookRuleId habeasRuleIdPrefix=true
      decide
    rw [scanReservedRule,if_neg (by simp [hid]),if_neg (by simp [webhookDistressRule_genuine])]
    rfl
  unfold structuralIssues
  simp only [List.foldl_append,scan_unreserved hope,scan_unreserved hadd]
  cases webhook with
  | none =>
    simp only [deriveHabeasDistressRules,Option.map_none,Option.toList_none,List.foldl_cons,
      List.foldl_nil,hloc]
    rfl
  | some target =>
    simp only [deriveHabeasDistressRules,Option.map_some,Option.toList_some,List.foldl_cons,
      List.foldl_nil,hloc,hweb]
    rfl

theorem ruleConflict_of_allow {webhook : Option HabeasWebhookTarget} {rule : AllowlistRule}
    (hid : startsWith rule.id habeasRuleIdPrefix=false) (h : blocking rule=false) :
    ruleConflict node webhook rule=none := by
  have hdis : rule.disposition≠.deny ∧ rule.disposition≠.prompt := by
    simpa [blocking] using h
  unfold ruleConflict
  rw [if_neg (by simp [hid]),if_pos hdis]

/-- What the composer adds behind the lane carries no reserved habeas id and blocks nothing. -/
theorem added_behind_lane {input : ComposeEffectiveRulesInput} :
    ∀ rule∈(derivedDns node input).toList++(derivedGate input).toList,
      startsWith rule.id habeasRuleIdPrefix=false ∧ blocking rule=false := by
  intro rule hrul
  rcases List.mem_append.mp hrul with hrul | hrul
  · obtain ⟨hid,hall,-⟩ := derivedDns_id (Option.mem_toList.mp hrul)
    refine ⟨?_,hall⟩
    rw [hid]
    decide
  · obtain ⟨hid,hall⟩ := derivedGate_id (Option.mem_toList.mp hrul)
    refine ⟨?_,hall⟩
    rw [hid]
    decide

/-- The gate over composed rules finds nothing when the gate over the operator rules found nothing. -/
theorem selfCheck_clean {input : ComposeEffectiveRulesInput}
    (hcle : findHabeasConflicts node input.operatorRules input.distressWebhook=[]) :
    findHabeasConflictsInComposed node
      (rulesWithLane input++((derivedDns node input).toList++(derivedGate input).toList))=[] := by
  have hunr := operator_id_unreserved hcle
  have hadd := @added_behind_lane node input
  have hstr := @structuralIssues_composed node input.operatorRules _ input.distressWebhook
    input.createdAt hunr fun rule hrul => (hadd rule hrul).1
  have htar : webhookTarget node (rulesWithLane input++((derivedDns node input).toList ++
      (derivedGate input).toList))=input.distressWebhook := by
    rw [← List.append_assoc]
    apply webhookTarget_composed (operator_id_ne_webhook hcle)
    · intro rule hrul
      exact (derivedDns_id (Option.mem_toList.mp hrul)).1
    · intro rule hrul
      exact (derivedGate_id (Option.mem_toList.mp hrul)).1
  unfold findHabeasConflictsInComposed
  rw [if_neg (by simpa [rulesWithLane] using hstr),htar]
  dsimp only
  rw [findHabeasConflicts,List.filterMap_eq_nil_iff] at hcle ⊢
  intro rule hrul
  obtain ⟨hmem,hfor⟩ := List.mem_filter.mp hrul
  rcases List.mem_append.mp hmem with hlan | hbeh
  · rcases List.mem_append.mp hlan with hope | hder
    · exact hcle rule hope
    · -- The lane's own rules are genuine, so the filter took them out.
      have hgen : isGenuineDerivedHabeasRule node rule=true := by
        rcases List.mem_cons.mp hder with rfl | hweb
        · exact localDistressRule_genuine node input.createdAt
        · obtain ⟨target,-,rfl⟩ := Option.map_eq_some_iff.mp (Option.mem_toList.mp hweb)
          exact webhookDistressRule_genuine node target input.createdAt
      simp [hgen] at hfor
  · exact ruleConflict_of_allow (hadd rule hbeh).1 (hadd rule hbeh).2

end SelfCheck

theorem composeEffectiveRules_eq {node : NodeRuntime} {input : ComposeEffectiveRulesInput}
    (hgat : ∀ rule∈input.operatorRules, rule.id≠derivedGateRuleId)
    (hcle : findHabeasConflicts node input.operatorRules input.distressWebhook=[])
    (hpol : ∀ policy, input.exclusiveEgressGate=some policy → validGatePolicy policy=true) :
    composeEffectiveRules node input =
      .ok (rulesWithLane input++((derivedDns node input).toList++(derivedGate input).toList)) := by
  have hany : (input.operatorRules.any fun rule => rule.id == derivedGateRuleId)=false := by
    rw [List.any_eq_false]
    intro rule hrul
    simpa using hgat rule hrul
  have hgae : deriveGateAllowRule input=.ok (derivedGate input).toList := by
    unfold deriveGateAllowRule derivedGate
    cases hcas : input.exclusiveEgressGate with
    | none => rfl
    | some policy => simp [hpol policy hcas]
  have hsel := @selfCheck_clean node input hcle
  rw [← List.append_assoc] at hsel ⊢
  unfold composeEffectiveRules
  simp only [hany,hcle,hgae]
  change (if findHabeasConflictsInComposed node (rulesWithLane input++(derivedDns node input).toList ++
      (derivedGate input).toList)≠[] then _ else _)=_
  rw [if_neg (by simpa using hsel)]
  rfl

section Counts

variable {node : NodeRuntime} {input : ComposeEffectiveRulesInput}

theorem idCount_composed (id : String) :
    idCount id (rulesWithLane input++((derivedDns node input).toList++(derivedGate input).toList)) =
      idCount id input.operatorRules+idCount id [localDistressRule input.createdAt] +
        idCount id (input.distressWebhook.map fun target =>
          webhookDistressRule target input.createdAt).toList +
        idCount id (derivedDns node input).toList+idCount id (derivedGate input).toList := by
  rw [rulesWithLane,deriveHabeasDistressRules,← List.singleton_append,idCount_append,idCount_append,
    idCount_append,idCount_append]
  omega

theorem idCount_local (id createdAt : String) :
    idCount id [localDistressRule createdAt]=if habeasLocalRuleId=id then 1 else 0 := by
  by_cases h : habeasLocalRuleId=id
  · simp [idCount,localDistressRule,h]
  · simp [idCount,localDistressRule,h]

variable {id : String}

theorem idCount_webhook_ne (h : habeasWebhookRuleId≠id) :
    idCount id (input.distressWebhook.map fun target =>
      webhookDistressRule target input.createdAt).toList=0 := by
  apply idCount_toList_ne
  intro rule hrul
  obtain ⟨target,-,rfl⟩ := Option.map_eq_some_iff.mp hrul
  exact h

theorem idCount_dns_ne (h : derivedDnsRuleId≠id) : idCount id (derivedDns node input).toList=0 := by
  apply idCount_toList_ne
  intro rule hrul
  rw [(derivedDns_id hrul).1]
  exact h

theorem idCount_gate_ne (h : derivedGateRuleId≠id) : idCount id (derivedGate input).toList=0 := by
  apply idCount_toList_ne
  intro rule hrul
  rw [(derivedGate_id hrul).1]
  exact h

/-- Operator rules that passed the checks carry no reserved id. -/
theorem idCount_operator_reserved (hgat : ∀ rule∈input.operatorRules, rule.id≠derivedGateRuleId)
    (hcle : findHabeasConflicts node input.operatorRules input.distressWebhook=[])
    (hid : isReservedId id=true) : idCount id input.operatorRules=0 := by
  rw [idCount,List.countP_eq_zero]
  intro rule hrul heq
  rw [← beq_iff_eq.mp heq,isReservedId,operator_id_unreserved hcle rule hrul,Bool.false_or,
    beq_iff_eq] at hid
  exact hgat rule hrul hid

theorem idCount_reserved_le (hgat : ∀ rule∈input.operatorRules, rule.id≠derivedGateRuleId)
    (hcle : findHabeasConflicts node input.operatorRules input.distressWebhook=[])
    (hid : isReservedId id=true) :
    idCount id (rulesWithLane input++((derivedDns node input).toList++(derivedGate input).toList)) ≤ 1 := by
  have hdns : derivedDnsRuleId≠id := by
    rintro rfl
    exact absurd hid (by decide)
  rw [idCount_composed,idCount_operator_reserved hgat hcle hid,idCount_dns_ne hdns,idCount_local]
  -- At most one of the three reserved ids is this one.
  by_cases hloc : habeasLocalRuleId=id
  · subst hloc
    rw [if_pos rfl,idCount_webhook_ne (by decide),idCount_gate_ne (by decide)]
  · rw [if_neg hloc]
    by_cases hweb : habeasWebhookRuleId=id
    · subst hweb
      rw [idCount_gate_ne (by decide)]
      have hle := idCount_toList_le habeasWebhookRuleId
        (input.distressWebhook.map fun target => webhookDistressRule target input.createdAt)
      omega
    · rw [idCount_webhook_ne hweb]
      have hle := idCount_toList_le id (derivedGate input)
      omega

end Counts

/-- For operator rules that pass the checks made before composition, the check of the result never fires, and
the result is the operator rules in order, the local lane rule and at most one webhook, DNS and gate rule
each; a reserved id is carried once at most, and the DNS id more than once only by operator rules. -/
theorem composition_passes_own_check (node : NodeRuntime) (input : ComposeEffectiveRulesInput)
    (hgateId : ∀ rule∈input.operatorRules, rule.id≠derivedGateRuleId)
    (hclean : findHabeasConflicts node input.operatorRules input.distressWebhook=[])
    (hpolicy : ∀ policy, input.exclusiveEgressGate=some policy → validGatePolicy policy=true) :
    ∃ rules, composeEffectiveRules node input=.ok rules ∧ Composition node input rules := by
  refine ⟨_,composeEffectiveRules_eq hgateId hclean hpolicy,?_,?_,?_,?_⟩
  · simp only [rulesWithLane,deriveHabeasDistressRules,List.append_assoc,List.cons_append]
  · have hle := idCount_reserved_le hgateId hclean (show isReservedId habeasLocalRuleId=true by decide)
    have hloc := idCount_local habeasLocalRuleId input.createdAt
    rw [if_pos rfl] at hloc
    have hsum := @idCount_composed node input habeasLocalRuleId
    omega
  · intro id hid
    exact idCount_reserved_le hgateId hclean hid
  · rw [idCount_composed,idCount_local,if_neg (by decide),idCount_webhook_ne (by decide),
      idCount_gate_ne (by decide)]
    cases hdns : derivedDns node input with
    | none => simp [idCount]
    | some rule =>
      have hnone := (derivedDns_id hdns).2.2
      have hle := idCount_toList_le derivedDnsRuleId (some rule)
      omega

def operatorDnsRule (resolver : String) : AllowlistRule where
  id := derivedDnsRuleId
  schemaVersion := 1
  createdAt := "2026-05-05T00:00:00Z"
  matchClause := { ip := some (.one resolver), port := some (.one 53) }
  scope := {}
  disposition := .allow

def twoResolverInput : ComposeEffectiveRulesInput where
  operatorRules := [operatorDnsRule "127.0.0.1",operatorDnsRule "::1"]
  resolvers := []
  createdAt := "2026-05-05T00:00:00Z"

theorem composition_passes_own_check_two_resolvers :
    ∃ rules, composeEffectiveRules asciiNode twoResolverInput=.ok rules ∧
      Composition asciiNode twoResolverInput rules := by
  apply composition_passes_own_check
  · decide
  · decide
  · intro policy hpol
    cases hpol

/-- Two operator rules may share the id of the derived DNS rule, and the result then carries it twice. -/
theorem dns_id_carried_twice :
    (∀ rule∈twoResolverInput.operatorRules, validateRule asciiNode rule=[]) ∧
      findHabeasConflicts asciiNode twoResolverInput.operatorRules twoResolverInput.distressWebhook=[] ∧
      composeEffectiveRules asciiNode twoResolverInput =
        .ok [operatorDnsRule "127.0.0.1",operatorDnsRule "::1",localDistressRule "2026-05-05T00:00:00Z"] ∧
      (operatorDnsRule "127.0.0.1").id=derivedDnsRuleId ∧ (operatorDnsRule "::1").id=derivedDnsRuleId := by
  refine ⟨by decide,by decide,rfl,rfl,rfl⟩

section DnsScope

/-- The agent of a row, which carries no uid: a scope by uids alone covers no agent here. -/
def ruleScopeCoversAgent (scope : RuleScope) (agentId agentTemplate : String) : Bool :=
  if scopeIsAll scope then true
  else if (scope.agentIds.getD []).contains agentId then true
  else (scope.templateIds.getD []).contains agentTemplate

def scopeMatches (scope : RuleScope) (agentId templateId : String) (sourceRuid : Int) : Bool :=
  if scopeIsAll scope then true
  else if (scope.agentIds.getD []).contains agentId then true
  else if (scope.templateIds.getD []).contains templateId then true
  else (scope.uids.getD []).contains sourceRuid

def isHostnameAllow (rule : AllowlistRule) : Bool :=
  rule.disposition == .allow && (rule.matchClause.host.isSome || rule.matchClause.hostPattern.isSome)

theorem mem_nonEmptySet {α : Type} (values : List α) (x : α) : x∈(nonEmptySet values).getD [] ↔ x∈values := by
  cases values with
  | nil => simp [nonEmptySet]
  | cons value rest => simp [nonEmptySet]

variable {scopes : List RuleScope} {scope : RuleScope}

theorem scopeIsAll_iff : scopeIsAll scope=true ↔ (∀ id,id∉scope.agentIds.getD []) ∧
    (∀ id,id∉scope.templateIds.getD []) ∧ ∀ uid,uid∉scope.uids.getD [] := by
  simp [scopeIsAll,and_assoc,List.eq_nil_iff_forall_not_mem]

/-- Where no scope is of every agent, each axis of the union is the union of the axes. -/
theorem mem_unionScope (h : scopes.any scopeIsAll=false) :
    (∀ id,id∈(unionScope scopes).agentIds.getD [] ↔ ∃ scope∈scopes,id∈scope.agentIds.getD []) ∧
      (∀ id,id∈(unionScope scopes).templateIds.getD [] ↔ ∃ scope∈scopes,id∈scope.templateIds.getD []) ∧
      ∀ uid,uid∈(unionScope scopes).uids.getD [] ↔ ∃ scope∈scopes,uid∈scope.uids.getD [] := by
  rw [unionScope,if_neg (by simp [h])]
  simp only [mem_nonEmptySet,List.mem_mergeSort,List.mem_dedup,List.mem_flatMap,implies_true,and_self]

/-- The union is of every agent only because one of its scopes is. -/
theorem scopeIsAll_unionScope (hne : scopes≠[]) : scopeIsAll (unionScope scopes)=scopes.any scopeIsAll := by
  cases h : scopes.any scopeIsAll with
  | true => simp [unionScope,h,scopeIsAll]
  | false =>
    obtain ⟨hids,htem,huid⟩ := mem_unionScope h
    obtain ⟨scope,hmem⟩ := List.exists_mem_of_ne_nil scopes hne
    rw [Bool.eq_false_iff]
    intro hall
    rw [scopeIsAll_iff] at hall
    have hnot : scopeIsAll scope=false := by simpa using List.any_eq_false.mp h scope hmem
    rw [Bool.eq_false_iff,Ne,scopeIsAll_iff] at hnot
    refine hnot ⟨fun id hid => ?_,fun id hid => ?_,fun uid hid => ?_⟩
    · exact hall.1 id ((hids id).mpr ⟨scope,hmem,hid⟩)
    · exact hall.2.1 id ((htem id).mpr ⟨scope,hmem,hid⟩)
    · exact hall.2.2 uid ((huid uid).mpr ⟨scope,hmem,hid⟩)

theorem scopeMatches_iff (agentId templateId : String) (uid : Int) :
    scopeMatches scope agentId templateId uid=true ↔ scopeIsAll scope=true ∨
      agentId∈scope.agentIds.getD [] ∨ templateId∈scope.templateIds.getD [] ∨ uid∈scope.uids.getD [] := by
  rw [scopeMatches]
  split_ifs with hall hid htem <;> simp_all

theorem ruleScopeCoversAgent_iff (agentId agentTemplate : String) :
    ruleScopeCoversAgent scope agentId agentTemplate=true ↔ scopeIsAll scope=true ∨
      agentId∈scope.agentIds.getD [] ∨ agentTemplate∈scope.templateIds.getD [] := by
  rw [ruleScopeCoversAgent]
  split_ifs with hall hid <;> simp_all

theorem unionScope_covers (hne : scopes≠[]) (agentId templateId : String) (uid : Int) :
    (scopeMatches (unionScope scopes) agentId templateId uid=true ↔
        ∃ scope∈scopes,scopeMatches scope agentId templateId uid=true) ∧
      (ruleScopeCoversAgent (unionScope scopes) agentId templateId=true ↔
        ∃ scope∈scopes,ruleScopeCoversAgent scope agentId templateId=true) := by
  simp only [scopeMatches_iff,ruleScopeCoversAgent_iff,scopeIsAll_unionScope hne,and_or_left,exists_or]
  cases h : scopes.any scopeIsAll with
  | true =>
    have hall : ∃ scope∈scopes,scopeIsAll scope=true := by simpa using h
    simp [hall]
  | false =>
    obtain ⟨hids,htem,huid⟩ := mem_unionScope h
    have hnone : ¬∃ scope∈scopes,scopeIsAll scope=true := by simpa using h
    simp only [hids,htem,huid,hnone,Bool.false_eq_true,false_or,and_self]

variable (node : NodeRuntime)

/-- The resolvers come out empty exactly when no entry is an address. -/
private theorem foldl_resolvers_eq_nil (servers : List (Option String)) (out : List String) :
    servers.foldl (fun out raw =>
      match raw with
      | none => out
      | some raw =>
        let addr := normalizeResolver raw
        if isValidIp node addr && !out.contains addr then out++[addr] else out) out=[] ↔
      out=[] ∧ ¬∃ raw,some raw∈servers ∧ isValidIp node (normalizeResolver raw)=true := by
  induction servers generalizing out with
  | nil => simp
  | cons entry servers ih =>
    rw [List.foldl_cons,ih]
    cases entry with
    | none => simp
    | some raw =>
      cases hip : isValidIp node (normalizeResolver raw) with
      | false => grind
      | true =>
        have hone : ∃ one,some one∈some raw::servers ∧ isValidIp node (normalizeResolver one)=true :=
          ⟨raw,List.mem_cons_self,hip⟩
        simp only [hone,not_true_eq_false,and_false,iff_false,not_and]
        intro hout
        split_ifs at hout with hnew
        · simp at hout
        · simp [hout,hip] at hnew

theorem normalizeResolvers_eq_nil (servers : List (Option String)) : normalizeResolvers node servers=[] ↔
    ¬∃ raw,some raw∈servers ∧ isValidIp node (normalizeResolver raw)=true :=
  (foldl_resolvers_eq_nil node servers []).trans (and_iff_right rfl)

/-- No DNS rule is derived without a hostname allow rule or without a resolver (or over an operator's own
rule of that id); a derived one is for exactly the agents of the hostname allow rules. -/
theorem derived_dns_scope (rules : List AllowlistRule) (resolvers : List (Option String)) (createdAt : String) :
    (deriveDnsRuleForHostnameRules node rules resolvers createdAt=none ↔
      (∃ rule∈rules,rule.id=derivedDnsRuleId) ∨ (¬∃ rule∈rules,isHostnameAllow rule=true) ∨
        ¬∃ raw,some raw∈resolvers ∧ isValidIp node (normalizeResolver raw)=true) ∧
    ∀ derived,deriveDnsRuleForHostnameRules node rules resolvers createdAt=some derived →
      ∀ agentId templateId uid,
        (scopeMatches derived.scope agentId templateId uid=true ↔
          ∃ rule∈rules,isHostnameAllow rule=true ∧
            scopeMatches rule.scope agentId templateId uid=true) ∧
        (ruleScopeCoversAgent derived.scope agentId templateId=true ↔
          ∃ rule∈rules,isHostnameAllow rule=true ∧
            ruleScopeCoversAgent rule.scope agentId templateId=true) := by
  have hemp : (rules.filter isHostnameAllow).isEmpty=true ↔ ¬∃ rule∈rules,isHostnameAllow rule=true := by
    simp
  rw [← normalizeResolvers_eq_nil,← hemp]
  change (ite _ none (ite ((rules.filter isHostnameAllow).isEmpty=true) _ _)=none ↔ _) ∧
    ∀ derived,ite _ none (ite ((rules.filter isHostnameAllow).isEmpty=true) _ _)=some derived → _
  constructor
  · split_ifs with hid hnone hres
    · simpa using Or.inl (by simpa using hid)
    · simp [hnone]
    · simpa using Or.inr (Or.inr hres)
    · simp_all
  · intro derived h agentId templateId uid
    split_ifs at h with hid hnone hres
    cases h
    have hne : (rules.filter isHostnameAllow).map (·.scope)≠[] := by simpa using hnone
    obtain ⟨hflo,hrow⟩ := unionScope_covers hne agentId templateId uid
    simp only [List.mem_map,exists_exists_and_eq_and] at hflo hrow
    simp only [List.mem_filter,and_assoc] at hflo hrow
    exact ⟨hflo,hrow⟩

end DnsScope

end CastleWall.Server
