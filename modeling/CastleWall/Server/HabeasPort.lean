import CastleWall.Server.Schema

/-! # The server's habeas gate and rule composition

`habeas-port.ts` with the two derivations it calls (`dns-derivation.ts`, `gate-derivation.ts`): the
conflict gate over operator and composed rules, and the composition of the rule list that is signed
into a manifest. -/

namespace CastleWall.Server

open Text Policy

def habeasRuleIdPrefix : String := "reserved_habeas_distress"

def habeasLocalRuleId : String := "reserved_habeas_distress_local"

def habeasWebhookRuleId : String := "reserved_habeas_distress_webhook"

def habeasDistressPort : Int := 8741

def habeasLoopbackIps : List String := ["127.0.0.1","::1"]

def habeasEmitterAgentId : String := "sanctuary:habeas-distress-emitter"

structure HabeasWebhookTarget where
  host : String
  port : Int

def portsCover (spec : Option (OneOrMany Int)) (port : Int) : Bool :=
  match spec with
  | none => true
  | some spec => spec.toArray.contains port

variable (node : NodeRuntime)

def hostEquals (a b : String) : Bool :=
  node.toLowerCase a == node.toLowerCase b

def hostPatternCovers (pattern host : String) : Bool :=
  let lower := node.toLowerCase host
  match stripPrefix pattern "*." with
  | some rest =>
    let suffix := node.toLowerCase rest
    endsWith lower ("." ++ suffix) && lower != suffix
  | none =>
    if startsWith pattern "." then
      let patternLower := node.toLowerCase pattern
      endsWith lower patternLower &&
        (utf16Units lower).length > (utf16Units patternLower).length
    else hostEquals node pattern host

def anyDestination (m : RuleMatch) : Bool :=
  m.host.isNone && m.hostPattern.isNone && m.ip.isNone && m.cidr.isNone

def hostAxisCovers (m : RuleMatch) (host : String) : Bool :=
  match m.host with
  | none => false
  | some hosts => hosts.toArray.any fun h => hostEquals node h host

def hostPatternAxisCovers (m : RuleMatch) (host : String) : Bool :=
  match m.hostPattern with
  | none => false
  | some pattern => hostPatternCovers node pattern host

def ipAxisCovers (m : RuleMatch) (host : String) : Bool :=
  match m.ip with
  | none => false
  | some spec => ipMatches node spec host

def cidrAxisCovers (m : RuleMatch) (host : String) : Bool :=
  match m.cidr with
  | none => false
  | some spec => cidrMatches node spec host

def ruleCoversHostTarget (m : RuleMatch) (host : String) (port : Int) : Bool :=
  if !portsCover m.port port then false
  else if anyDestination m then true
  else hostAxisCovers node m host || hostPatternAxisCovers node m host || ipAxisCovers node m host ||
    cidrAxisCovers node m host

/-- The loopback branch tries the ip, cidr and host axes against the two loopback literals only. -/
def ruleCoversLoopbackLane (m : RuleMatch) : Bool :=
  if !portsCover m.port habeasDistressPort then false
  else if anyDestination m then true
  else habeasLoopbackIps.any fun loopback =>
    ipAxisCovers node m loopback || cidrAxisCovers node m loopback || hostAxisCovers node m loopback

def dispositionText : RuleDisposition → String
  | .allow => "allow"
  | .prompt => "prompt"
  | .deny => "deny"

variable (id : String)

def reservedIdIssue : String :=
  "rule \"" ++ id ++ "\" claims the reserved habeas distress id prefix \"" ++ habeasRuleIdPrefix ++
    "\"; reserved rules are derived, never authored"

def loopbackIssue (d : RuleDisposition) : String :=
  "rule \"" ++ id ++ "\" (" ++ dispositionText d ++ ") could shadow the reserved habeas distress " ++
    "lane (loopback port " ++ toString habeasDistressPort ++
    "); scope it to exclude loopback or the habeas port"

def webhookIssue (d : RuleDisposition) (webhook : HabeasWebhookTarget) : String :=
  "rule \"" ++ id ++ "\" (" ++ dispositionText d ++ ") could shadow the configured distress " ++
    "webhook lane (" ++ webhook.host ++ ":" ++ toString webhook.port ++
    "); scope it to exclude the distress webhook destination"

def ruleConflict (webhook : Option HabeasWebhookTarget)
    (rule : AllowlistRule) : Option String :=
  if startsWith rule.id habeasRuleIdPrefix then some (reservedIdIssue rule.id)
  else if rule.disposition≠.deny ∧ rule.disposition≠.prompt then none
  else if ruleCoversLoopbackLane node rule.matchClause then
    some (loopbackIssue rule.id rule.disposition)
  else match webhook with
    | none => none
    | some webhook =>
      if ruleCoversHostTarget node rule.matchClause webhook.host webhook.port then
        some (webhookIssue rule.id rule.disposition webhook)
      else none

def findHabeasConflicts (rules : List AllowlistRule)
    (webhook : Option HabeasWebhookTarget) : List String :=
  rules.filterMap (ruleConflict node webhook)

def emitterScoped (scope : RuleScope) : Bool :=
  scope.agentIds == some [habeasEmitterAgentId] && (scope.templateIds.getD []).isEmpty &&
    (scope.uids.getD []).isEmpty

def isGenuineDerivedHabeasRule (rule : AllowlistRule) : Bool :=
  let m := rule.matchClause
  let protocolIsTcp := (m.protocol.map fun p => node.toLowerCase p == "tcp").getD false
  if rule.disposition≠.allow then false
  else if rule.timeWindow.isSome then false
  else if !emitterScoped rule.scope then false
  else if rule.id=habeasLocalRuleId then
    ((m.ip.map OneOrMany.toArray).getD []) == habeasLoopbackIps &&
      ((m.port.map OneOrMany.toArray).getD []) == [habeasDistressPort] && protocolIsTcp &&
      m.host.isNone && m.hostPattern.isNone && m.cidr.isNone
  else if rule.id=habeasWebhookRuleId then
    (m.host.map fun h => h.toArray.length == 1).getD false &&
      (m.port.map fun p => p.toArray.length == 1).getD false && protocolIsTcp &&
      m.hostPattern.isNone && m.ip.isNone && m.cidr.isNone
  else false

def forgedReservedIssue : String :=
  "rule \"" ++ id ++ "\" claims the reserved habeas distress id prefix \"" ++ habeasRuleIdPrefix ++
    "\" but is not a genuine derived reserved rule; reserved rules are derived, never authored"

def localCountIssue (count : Nat) : String :=
  "manifest has " ++ toString count ++ " genuine \"" ++ habeasLocalRuleId ++ "\" rules; exactly one " ++
    "must be present in every composed manifest (the local distress lane is always-on: the " ++
    "composer always injects it, and a manifest without it cannot be put into force)"

def duplicateWebhookIssue : String :=
  "more than one \"" ++ habeasWebhookRuleId ++ "\" rule in the manifest; the reserved distress " ++
    "webhook rule must be unique"

def scanReservedRule (acc : Habeas.ReservedScan) (rule : AllowlistRule) :
    Habeas.ReservedScan :=
  if !startsWith rule.id habeasRuleIdPrefix then acc
  else if !isGenuineDerivedHabeasRule node rule then
    { acc with issues := acc.issues++[forgedReservedIssue rule.id] }
  else if rule.id=habeasLocalRuleId then { acc with localCount := acc.localCount+1 }
  else if rule.id=habeasWebhookRuleId then { acc with webhookCount := acc.webhookCount+1 }
  else acc

def structuralIssues (rules : List AllowlistRule) : List String :=
  let scan := rules.foldl (scanReservedRule node) {}
  scan.issues ++
    (if scan.localCount≠1 then [localCountIssue scan.localCount] else []) ++
    (if scan.webhookCount > 1 then [duplicateWebhookIssue] else [])

def webhookTarget (rules : List AllowlistRule) :
    Option HabeasWebhookTarget := do
  let rule ← rules.find? fun r =>
    r.id == habeasWebhookRuleId && isGenuineDerivedHabeasRule node r
  let host ← ((rule.matchClause.host.map OneOrMany.toArray).getD []).head?
  let port ← ((rule.matchClause.port.map OneOrMany.toArray).getD []).head?
  some { host, port }

def findHabeasConflictsInComposed (rules : List AllowlistRule) : List String :=
  if structuralIssues node rules≠[] then structuralIssues node rules
  else
    let operator := rules.filter fun r => !isGenuineDerivedHabeasRule node r
    findHabeasConflicts node operator (webhookTarget node rules)

def habeasEmitterScope : RuleScope := { agentIds := some [habeasEmitterAgentId] }

def localDistressRule (createdAt : String) : AllowlistRule where
  id := habeasLocalRuleId
  schemaVersion := 1
  createdAt := createdAt
  description := some ("HABEAS PORT (reserved): guaranteed local distress lane. Loopback " ++
    "TCP to port " ++ toString habeasDistressPort ++ " only. Always present; operator " ++
    "policy cannot remove or shadow it. Carries bounded distress " ++
    "signals, never state content.")
  matchClause := {
    ip := some (.many habeasLoopbackIps)
    port := some (.many [habeasDistressPort])
    protocol := some "tcp" }
  scope := habeasEmitterScope
  disposition := .allow
  derived := some true

def webhookDistressRule (webhook : HabeasWebhookTarget) (createdAt : String) : AllowlistRule where
  id := habeasWebhookRuleId
  schemaVersion := 1
  createdAt := createdAt
  description := some ("HABEAS PORT (reserved): operator-configured distress webhook lane. " ++
    "TCP to " ++ webhook.host ++ ":" ++ toString webhook.port ++ " only. Carries " ++
    "HMAC-signed bounded distress signals, never state content.")
  matchClause := {
    host := some (.many [webhook.host])
    port := some (.many [webhook.port])
    protocol := some "tcp" }
  scope := habeasEmitterScope
  disposition := .allow
  derived := some true

def deriveHabeasDistressRules (webhook : Option HabeasWebhookTarget) (createdAt : String) :
    List AllowlistRule :=
  localDistressRule createdAt ::
    (webhook.map fun target => webhookDistressRule target createdAt).toList

def derivedDnsRuleId : String := "derived_dns_for_hostname_rules"

/-- ECMAScript white space, as `String.prototype.trim` strips it. -/
def isJsWhitespace (c : Char) : Bool :=
  (isWhitespace c && c.toNat != 0x85) || c.toNat == 0xfeff

def jsTrim (cs : List Char) : List Char :=
  ((cs.dropWhile isJsWhitespace).reverse.dropWhile isJsWhitespace).reverse

def normalizeResolver (raw : String) : String :=
  let addr := jsTrim raw.toList
  let addr :=
    if addr.head? = some '[' then
      match splitOnceChars ']' addr with
      | some (inner,_) => inner.drop 1
      | none => addr
    else if addr.count ':' = 1 then addr.takeWhile (· ≠ ':')
    else addr
  String.ofList (addr.takeWhile (· ≠ '%'))

/-- The distinct valid resolver addresses in order of first appearance; an entry that is not a
string is `none`. -/
def normalizeResolvers (servers : List (Option String)) : List String :=
  servers.foldl (fun out raw =>
    match raw with
    | none => out
    | some raw =>
      let addr := normalizeResolver raw
      if isValidIp node addr && !out.contains addr then out++[addr] else out) []

def scopeIsAll (scope : RuleScope) : Bool :=
  (scope.agentIds.getD []).isEmpty && (scope.templateIds.getD []).isEmpty &&
    (scope.uids.getD []).isEmpty

def nonEmptySet {α : Type} (values : List α) : Option (List α) :=
  if values.isEmpty then none else some values

def unionScope (scopes : List RuleScope) : RuleScope :=
  if scopes.any scopeIsAll then {}
  else {
    agentIds := nonEmptySet
      (((scopes.flatMap fun s => s.agentIds.getD []).dedup).mergeSort utf16Le)
    templateIds := nonEmptySet
      (((scopes.flatMap fun s => s.templateIds.getD []).dedup).mergeSort utf16Le)
    uids := nonEmptySet (((scopes.flatMap fun s => s.uids.getD []).dedup).mergeSort (· ≤ ·)) }

def deriveDnsRuleForHostnameRules (rules : List AllowlistRule)
    (resolvers : List (Option String)) (createdAt : String) : Option AllowlistRule :=
  let hostnameRules := rules.filter fun rule =>
    rule.disposition == .allow &&
      (rule.matchClause.host.isSome || rule.matchClause.hostPattern.isSome)
  let addresses := normalizeResolvers node resolvers
  if rules.any fun rule => rule.id == derivedDnsRuleId then none
  else if hostnameRules.isEmpty then none
  else if addresses.isEmpty then none
  else some {
    id := derivedDnsRuleId
    schemaVersion := 1
    createdAt := createdAt
    description := some ("Auto-derived scoped DNS allow (#380): port 53, system resolvers only " ++
      "(tcp+udp). Lets agents holding a hostname allow-rule resolve names " ++
      "without an any-resolver port-53 grant. Scoped to the resolver set; a " ++
      "port-53 flow to a non-resolver IP does not match.")
    matchClause := {
      ip := some (.many addresses)
      port := some (.many [53])
      protocol := some "tcp+udp" }
    scope := unionScope (hostnameRules.map (·.scope))
    disposition := .allow
    derived := some true }

def derivedGateRuleId : String := "derived_exclusive_egress_gate"

def gateLoopbackCidr : String := "127.0.0.1/32"

structure ExclusiveEgressGatePolicy where
  (agentUid gatePort : Int)

def validGatePolicy (policy : ExclusiveEgressGatePolicy) : Bool :=
  decide (0 < policy.agentUid) && isValidPortNumber policy.gatePort

def gateAllowRule (policy : ExclusiveEgressGatePolicy) (createdAt : String)
    (scopeToAgentUid : Bool) : AllowlistRule where
  id := derivedGateRuleId
  schemaVersion := 1
  createdAt := createdAt
  description := some ("Exclusive-egress gate channel: agent loopback TCP to the local policy " ++
    "gate (127.0.0.1:" ++ toString policy.gatePort ++ "). Auto-derived from the gate policy; " ++
    "the per-uid pf anchor is generated from the same source.")
  matchClause := {
    cidr := some (.one gateLoopbackCidr)
    port := some (.many [policy.gatePort])
    protocol := some "tcp" }
  scope := if scopeToAgentUid then { uids := some [policy.agentUid] } else {}
  disposition := .allow
  derived := some true

inductive ComposeError where
  | reservedGateId
  | habeasConflict (issues : List String)
  | malformedGatePolicy

structure ComposeEffectiveRulesInput where
  operatorRules : List AllowlistRule
  resolvers : List (Option String)
  distressWebhook : Option HabeasWebhookTarget := none
  exclusiveEgressGate : Option ExclusiveEgressGatePolicy := none
  gateRuleScopeToAgentUid : Bool := false
  createdAt : String

def deriveGateAllowRule (input : ComposeEffectiveRulesInput) :
    Except ComposeError (List AllowlistRule) :=
  match input.exclusiveEgressGate with
  | none => .ok []
  | some policy =>
    if validGatePolicy policy then
      .ok [gateAllowRule policy input.createdAt input.gateRuleScopeToAgentUid]
    else .error .malformedGatePolicy

/-- The operator rules, the distress lane, the scoped DNS rule and the gate rule, in this order; the
result must pass the composed-manifest gate. -/
def composeEffectiveRules (input : ComposeEffectiveRulesInput) :
    Except ComposeError (List AllowlistRule) := do
  if input.operatorRules.any fun rule => rule.id == derivedGateRuleId then
    throw .reservedGateId
  let issues := findHabeasConflicts node input.operatorRules input.distressWebhook
  if issues≠[] then throw (.habeasConflict issues)
  let rules := input.operatorRules ++
    deriveHabeasDistressRules input.distressWebhook input.createdAt
  let derivedDns := deriveDnsRuleForHostnameRules node rules input.resolvers input.createdAt
  let gateRule ← deriveGateAllowRule input
  let composed := rules++derivedDns.toList++gateRule
  let composedIssues := findHabeasConflictsInComposed node composed
  if composedIssues≠[] then throw (.habeasConflict composedIssues)
  return composed

end CastleWall.Server
