import CastleWall.Policy.Rule

/-! # The habeas distress-lane conflict gate

The static gate of `habeas.rs` over a composed manifest: which rules are the genuine derived
distress rules, which operator rules could shadow the lane, and the list of issues the gate
reports. -/

namespace CastleWall.Policy.Habeas

open Text

def habeasRuleIdPrefix : String := "reserved_habeas_distress"

def habeasLocalRuleId : String := "reserved_habeas_distress_local"

def habeasWebhookRuleId : String := "reserved_habeas_distress_webhook"

def habeasEmitterAgentId : String := "sanctuary:habeas-distress-emitter"

def habeasDistressPort : UInt16 := 8741

def habeasLoopbackHosts : List String := ["127.0.0.1","::1","localhost"]

structure HabeasWebhookTarget where
  host : String
  port : UInt16

def hostEquals (a b : String) : Bool := eqIgnoreAsciiCase a b

/-- Both suffix spellings cover the strict subdomains; a bare pattern is an exact host. -/
def hostPatternCovers (pattern host : String) : Bool :=
  let hostLower := toAsciiLowercase host
  match stripPrefix pattern "*." with
  | some suffix =>
    let suffixLower := toAsciiLowercase suffix
    endsWith hostLower ("." ++ suffixLower) && hostLower != suffixLower
  | none =>
    if startsWith pattern "." then
      let patternLower := toAsciiLowercase pattern
      endsWith hostLower patternLower && hostLower.utf8ByteSize > patternLower.utf8ByteSize
    else hostEquals pattern host

def portsCover (spec : Option (List UInt16)) (port : UInt16) : Bool :=
  match spec with
  | none => true
  | some ports => ports.contains port

def ipAxisCovers (spec : Option (List String)) (address : String) : Bool :=
  match spec with
  | none => false
  | some ips =>
    match IpAddr.parse address with
    | none => false
    | some target => ips.any fun candidate => ((IpAddr.parse candidate).map (· == target)).getD false

/-- True iff `cidr` contains `target`: the gate's own copy of the evaluator's test. -/
def cidrContains (cidr : String) (target : IpAddr) : Bool :=
  match splitOnce cidr '/' with
  | none => false
  | some (baseStr,prefixStr) =>
    match parseUnsigned (2 ^ 32) prefixStr with
    | none => false
    | some width =>
      match IpAddr.parse baseStr with
      | none => false
      | some base => IpAddr.prefixMatches base width target

def cidrAxisCovers (spec : Option (List String)) (address : String) : Bool :=
  match spec with
  | none => false
  | some cidrs =>
    match IpAddr.parse address with
    | none => false
    | some target => cidrs.any fun candidate => cidrContains candidate target

def hasAxis {α : Type} (spec : Option (List α)) : Bool :=
  (spec.map fun v => !v.isEmpty).getD false

variable (m : RuleMatch)

def hasHostPattern : Bool :=
  (m.hostPattern.map fun p => p != "").getD false

def anyDestination : Bool :=
  !hasAxis m.host && !hasHostPattern m && !hasAxis m.ip && !hasAxis m.cidr

def hostAxisCovers (host : String) : Bool :=
  (match m.host with
    | some hosts => hosts.any fun h => hostEquals h host
    | none => false) ||
  (match m.hostPattern with
    | some pattern => hostPatternCovers pattern host
    | none => false)

def ruleCoversHostTarget (host : String) (port : UInt16) : Bool :=
  if !portsCover m.port port then false
  else if anyDestination m then true
  else hostAxisCovers m host || ipAxisCovers m.ip host || cidrAxisCovers m.cidr host

/-- The alias `localhost` is tried on the host axes only. -/
def ruleCoversLoopbackLane : Bool :=
  if !portsCover m.port habeasDistressPort then false
  else if anyDestination m then true
  else habeasLoopbackHosts.any fun loopback =>
    hostAxisCovers m loopback ||
      (loopback != "localhost" && (ipAxisCovers m.ip loopback || cidrAxisCovers m.cidr loopback))

def dispositionStr : RuleDisposition → String
  | .allow => "allow"
  | .prompt => "prompt"
  | .deny => "deny"

variable (id : String)

def reservedIdIssue : String :=
  "rule \"" ++ id ++ "\" claims the reserved habeas distress id prefix \"" ++ habeasRuleIdPrefix ++
    "\"; reserved rules are derived, never authored"

def loopbackIssue (d : RuleDisposition) : String :=
  "rule \"" ++ id ++ "\" (" ++ dispositionStr d ++ ") could shadow the reserved habeas distress " ++
    "lane (loopback port " ++ toString habeasDistressPort.toNat ++
    "); scope it to exclude loopback or the habeas port"

def webhookIssue (d : RuleDisposition) (webhook : HabeasWebhookTarget) : String :=
  "rule \"" ++ id ++ "\" (" ++ dispositionStr d ++ ") could shadow the configured distress " ++
    "webhook lane (" ++ webhook.host ++ ":" ++ toString webhook.port.toNat ++
    "); scope it to exclude the distress webhook destination"

/-- The issue one operator rule raises, at most one: the checks after the first are skipped. -/
def ruleConflict (webhook : Option HabeasWebhookTarget) (rule : AllowlistRule) : Option String :=
  if startsWith rule.id habeasRuleIdPrefix then some (reservedIdIssue rule.id)
  else if rule.disposition≠.deny ∧ rule.disposition≠.prompt then none
  else if ruleCoversLoopbackLane rule.matchClause then
    some (loopbackIssue rule.id rule.disposition)
  else match webhook with
    | none => none
    | some webhook =>
      if ruleCoversHostTarget rule.matchClause webhook.host webhook.port then
        some (webhookIssue rule.id rule.disposition webhook)
      else none

variable (rules : List AllowlistRule)

def findHabeasConflicts (webhook : Option HabeasWebhookTarget) :
    List String :=
  rules.filterMap (ruleConflict webhook)

def isDerivedHabeasRule (rule : AllowlistRule) : Bool :=
  let m := rule.matchClause
  let emitterScoped := rule.scope.templateIds.isEmpty && rule.scope.agentIds == [habeasEmitterAgentId]
  let protocolIsTcp := (m.protocol.map fun p => eqIgnoreAsciiCase p "tcp").getD false
  if rule.disposition≠.allow then false
  else if rule.timeWindow.isSome then false
  else if !emitterScoped then false
  else if rule.id=habeasLocalRuleId then
    m.ip == some ["127.0.0.1","::1"] && m.port == some [habeasDistressPort] && protocolIsTcp &&
      m.host.isNone && m.hostPattern.isNone && m.cidr.isNone
  else if rule.id=habeasWebhookRuleId then
    (m.host.map fun h => h.length == 1).getD false &&
      (m.port.map fun p => p.length == 1).getD false && protocolIsTcp &&
      m.hostPattern.isNone && m.ip.isNone && m.cidr.isNone
  else false

def forgedReservedIssue : String :=
  "rule \"" ++ id ++ "\" claims the reserved habeas distress id prefix \"" ++ habeasRuleIdPrefix ++
    "\" but is not a genuine derived reserved rule; reserved rules are derived, never authored"

def localCountIssue (count : Nat) : String :=
  "manifest has " ++ toString count ++ " genuine \"" ++ habeasLocalRuleId ++ "\" rules; exactly one " ++
    "must be present in every composed manifest (the local distress lane is always-on: the " ++
    "composer always injects it, and a manifest without it cannot be put into force)"

def duplicateWebhookIssue : String :=
  "more than one \"" ++ habeasWebhookRuleId ++ "\" rule in the manifest; the reserved distress " ++
    "webhook rule must be unique"

/-- What the structural pass accumulates: its issues and the two counts of genuine rules. -/
structure ReservedScan where
  issues : List String := []
  localCount : Nat := 0
  webhookCount : Nat := 0

def scanReservedRule (acc : ReservedScan) (rule : AllowlistRule) : ReservedScan :=
  if !startsWith rule.id habeasRuleIdPrefix then acc
  else if !isDerivedHabeasRule rule then
    { acc with issues := acc.issues++[forgedReservedIssue rule.id] }
  else if rule.id=habeasLocalRuleId then { acc with localCount := acc.localCount+1 }
  else if rule.id=habeasWebhookRuleId then { acc with webhookCount := acc.webhookCount+1 }
  else acc

def scanReserved : ReservedScan :=
  rules.foldl scanReservedRule {}

def structuralIssues : List String :=
  let scan := scanReserved rules
  scan.issues ++
    (if scan.localCount≠1 then [localCountIssue scan.localCount] else []) ++
    (if scan.webhookCount > 1 then [duplicateWebhookIssue] else [])

def deriveWebhookTargetFromRules : Option HabeasWebhookTarget := do
  let rule ← rules.find? fun r => r.id == habeasWebhookRuleId && isDerivedHabeasRule r
  let host ← (← rule.matchClause.host).head?
  let port ← (← rule.matchClause.port).head?
  some { host, port }

/-- The gate over an already composed manifest; the empty list is a clean manifest. -/
def findHabeasConflictsInComposed : List String :=
  if structuralIssues rules≠[] then structuralIssues rules
  else
    let operator := rules.filter fun r => !isDerivedHabeasRule r
    findHabeasConflicts operator (deriveWebhookTargetFromRules rules)

private theorem scanReservedRule_localCount (acc : ReservedScan) (rule : AllowlistRule) :
    (scanReservedRule acc rule).localCount=acc.localCount ∨
      (rule.id=habeasLocalRuleId ∧ isDerivedHabeasRule rule=true ∧
        (scanReservedRule acc rule).localCount=acc.localCount+1) := by
  unfold scanReservedRule
  split
  · exact Or.inl rfl
  · split
    · exact Or.inl rfl
    · rename_i hder
      split
      · rename_i hid
        exact Or.inr ⟨hid,by simpa using hder,rfl⟩
      · split <;> exact Or.inl rfl

/-- A positive count of genuine local rules is witnessed by one of the rules scanned. -/
private theorem exists_local_of_scan :
    ∀ acc : ReservedScan, acc.localCount < (rules.foldl scanReservedRule acc).localCount →
      ∃ rule∈rules, rule.id=habeasLocalRuleId ∧ isDerivedHabeasRule rule=true := by
  induction rules with
  | nil =>
    intro acc h
    exact absurd h (Nat.lt_irrefl _)
  | cons rule rules ih =>
    intro acc h
    rw [List.foldl_cons] at h
    rcases scanReservedRule_localCount acc rule with hsam | ⟨hid,hder,-⟩
    · rw [← hsam] at h
      obtain ⟨r,hr,hid,hder⟩ := ih _ h
      exact ⟨r,List.mem_cons_of_mem _ hr,hid,hder⟩
    · exact ⟨rule,List.mem_cons_self,hid,hder⟩

theorem exists_local_of_no_conflicts {rules : List AllowlistRule}
    (h : findHabeasConflictsInComposed rules=[]) :
    ∃ rule∈rules, rule.id=habeasLocalRuleId ∧ isDerivedHabeasRule rule=true := by
  have hstr : structuralIssues rules=[] := by
    by_contra hne
    rw [findHabeasConflictsInComposed,if_pos hne] at h
    exact hne h
  have hcou : (scanReserved rules).localCount=1 := by
    by_contra hne
    rw [structuralIssues] at hstr
    simp [hne] at hstr
  apply exists_local_of_scan rules {}
  change 0 < (scanReserved rules).localCount
  omega

variable {rule : AllowlistRule}

/-- In a clean composed manifest no blocking operator rule covers the loopback lane. -/
theorem not_covers_loopback_of_no_conflicts {rules : List AllowlistRule}
    (h : findHabeasConflictsInComposed rules=[]) (hmem : rule∈rules)
    (hope : isDerivedHabeasRule rule=false) (hden : rule.disposition=.deny) :
    ruleCoversLoopbackLane rule.matchClause=false := by
  have hstr : structuralIssues rules=[] := by
    by_contra hne
    rw [findHabeasConflictsInComposed,if_pos hne] at h
    exact hne h
  rw [findHabeasConflictsInComposed,if_neg (by simp [hstr]),findHabeasConflicts,
    List.filterMap_eq_nil_iff] at h
  have hnone := h rule (List.mem_filter.mpr ⟨hmem,by simp [hope]⟩)
  by_contra hcov
  rw [Bool.not_eq_false] at hcov
  unfold ruleConflict at hnone
  rw [if_neg (by simp [hden] : ¬ (rule.disposition≠.deny ∧ rule.disposition≠.prompt)),
    if_pos hcov] at hnone
  split at hnone <;> exact Option.some_ne_none _ hnone

theorem local_rule_shape (hid : rule.id=habeasLocalRuleId)
    (hder : isDerivedHabeasRule rule=true) :
    rule.disposition=.allow ∧ rule.scope.agentIds=[habeasEmitterAgentId] ∧
      rule.matchClause.ip=some ["127.0.0.1","::1"] ∧
      rule.matchClause.port=some [habeasDistressPort] ∧
      ∃ protocol, rule.matchClause.protocol=some protocol ∧
        eqIgnoreAsciiCase protocol "tcp" = true := by
  simp only [isDerivedHabeasRule,if_pos hid] at hder
  split at hder
  · exact absurd hder (by decide)
  rename_i hall
  split at hder
  · exact absurd hder (by decide)
  split at hder
  · exact absurd hder (by decide)
  rename_i hsco
  simp only [Bool.not_eq_true',Bool.not_eq_false,Bool.and_eq_true,beq_iff_eq] at hsco hder
  obtain ⟨⟨⟨⟨⟨hip,hpor⟩,hpro⟩,-⟩,-⟩,-⟩ := hder
  refine ⟨by simpa using hall,hsco.2,hip,hpor,?_⟩
  cases hp : rule.matchClause.protocol with
  | none => rw [hp] at hpro; exact absurd hpro (by decide)
  | some protocol => rw [hp] at hpro; exact ⟨protocol,rfl,hpro⟩

theorem derived_allows (hder : isDerivedHabeasRule rule=true) :
    rule.disposition=.allow := by
  unfold isDerivedHabeasRule at hder
  by_contra hne
  rw [if_pos hne] at hder
  exact absurd hder (by decide)

theorem cidrContains_eq (cidr : String) (target : IpAddr) :
    cidrContains cidr target=Policy.cidrContains cidr target := rfl

theorem ipAxisCovers_of_matches {spec : Option (List String)} {address : String} {addr : IpAddr}
    (hadd : IpAddr.parse address=some addr) (h : ipAxisMatches spec addr=true) :
    ipAxisCovers spec address=true := by
  cases spec with
  | none => exact absurd h (by simp [ipAxisMatches])
  | some ips => simpa only [ipAxisCovers,hadd,ipAxisMatches] using h

theorem cidrAxisCovers_of_matches {spec : Option (List String)} {address : String} {addr : IpAddr}
    (hadd : IpAddr.parse address=some addr) (h : cidrAxisMatches spec addr=true) :
    cidrAxisCovers spec address=true := by
  cases spec with
  | none => exact absurd h (by simp [cidrAxisMatches])
  | some cidrs => simpa only [cidrAxisCovers,hadd,cidrAxisMatches,cidrContains_eq] using h

theorem matchesPort_eq (port : UInt16) :
    m.matchesPort port=portsCover m.port port := rfl

end CastleWall.Policy.Habeas
