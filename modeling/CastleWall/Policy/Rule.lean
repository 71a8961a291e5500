import CastleWall.Support.IpAddr

/-! # Allowlist rules and the runtime matcher

The rule data model of `policy.rs` with `RuleMatch::matches` and `RuleScope::applies_to`, the
two tests that decide at evaluation time whether a rule covers an attempt. -/

namespace CastleWall.Policy

open Text

inductive RuleDisposition where
  | allow
  | prompt
  | deny
  deriving DecidableEq

structure RuleMatch where
  host : Option (List String) := none
  hostPattern : Option String := none
  ip : Option (List String) := none
  cidr : Option (List String) := none
  port : Option (List UInt16) := none
  protocol : Option String := none
  deriving DecidableEq

structure RuleScope where
  agentIds : List String := []
  templateIds : List String := []
  deriving DecidableEq

structure RuleTimeWindow where
  start : String
  «end» : String
  deriving DecidableEq

structure AllowlistRule where
  id : String
  schemaVersion : UInt32
  createdAt : String
  description : Option String := none
  matchClause : RuleMatch
  scope : RuleScope := {}
  disposition : RuleDisposition
  timeWindow : Option RuleTimeWindow := none
  derived : Option Bool := none
  deriving DecidableEq

structure EvaluationRequest where
  (agentId agentTemplate : String)
  (destHost destIp : Option String)
  destPort : UInt16
  destProtocol : String
  opaqueDest : Bool

inductive DeniedReason where
  | defaultDeny
  | explicitRule (ruleId : String)
  | auditWalAppendFailed
  deriving DecidableEq

inductive Verdict where
  | allow (ruleId : String)
  | promptRequired (ruleId : String)
  | deny (reason : DeniedReason)
  deriving DecidableEq

/-- True iff `cidr` (`addr/prefix`) contains `target`; malformed input contains nothing. -/
def cidrContains (cidr : String) (target : IpAddr) : Bool :=
  match splitOnce cidr '/' with
  | none => false
  | some (baseStr,prefixStr) =>
    match parseUnsigned (2 ^ 32) prefixStr with
    | none => false
    | some width =>
      match IpAddr.parse baseStr with
      | none => false
      | some base => IpAddr.prefixMatches base width target

def ipAxisMatches (spec : Option (List String)) (addr : IpAddr) : Bool :=
  match spec with
  | none => false
  | some ips => ips.any fun candidate => ((IpAddr.parse candidate).map (· == addr)).getD false

def cidrAxisMatches (spec : Option (List String)) (addr : IpAddr) : Bool :=
  match spec with
  | none => false
  | some cidrs => cidrs.any fun cidr => cidrContains cidr addr

def matchesSuffixPattern (pattern hostLower : String) : Bool :=
  let patternLower := toAsciiLowercase pattern
  if !startsWith patternLower "." then false
  else endsWith hostLower patternLower && hostLower.utf8ByteSize > patternLower.utf8ByteSize

namespace RuleMatch

def present {α : Type} (axis : Option (List α)) : Bool :=
  (axis.map fun v => !v.isEmpty).getD false

variable (m : RuleMatch)

def patternPresent : Bool :=
  (m.hostPattern.map fun p => p != "").getD false

/-- The host axes, tried only against a non-empty hostname. -/
def matchesHost (destHost : Option String) : Bool :=
  match destHost.filter (· ≠ "") with
  | none => false
  | some host =>
    let hostLower := toAsciiLowercase host
    (present m.host &&
      (m.host.getD []).any fun h => toAsciiLowercase h == hostLower) ||
    (m.patternPresent && matchesSuffixPattern (m.hostPattern.getD "") hostLower)

/-- The raw-IP destination; an absent or empty `dest_ip` falls back to the hostname. -/
def ipLiteral (destHost destIp : Option String) : Option IpAddr :=
  ((destIp.filter (· ≠ "")).or destHost).bind IpAddr.parse

def matchesIp (destHost destIp : Option String) : Bool :=
  match ipLiteral destHost destIp with
  | none => false
  | some addr =>
    (present m.ip && ipAxisMatches m.ip addr) || (present m.cidr && cidrAxisMatches m.cidr addr)

/-- The destination axes compose as an OR; with none of them the rule matches any destination. -/
def matchesDestination (destHost destIp : Option String) : Bool :=
  if !present m.host && !m.patternPresent && !present m.ip && !present m.cidr then true
  else m.matchesHost destHost || m.matchesIp destHost destIp

def matchesPort (destPort : UInt16) : Bool :=
  match m.port with
  | none => true
  | some ports => ports.contains destPort

def matchesProtocol (protocol destProtocol : String) : Bool :=
  if eqIgnoreAsciiCase protocol "tcp+udp" then
    eqIgnoreAsciiCase destProtocol "tcp" || eqIgnoreAsciiCase destProtocol "udp"
  else eqIgnoreAsciiCase protocol destProtocol

def «matches» (destHost destIp : Option String) (destPort : UInt16)
    (destProtocol : String) : Bool :=
  m.matchesDestination destHost destIp && m.matchesPort destPort &&
    (match m.protocol with
      | none => true
      | some protocol => matchesProtocol protocol destProtocol)

end RuleMatch

/-- An empty scope applies to every agent; otherwise one of the two axes must name it. -/
def RuleScope.appliesTo (s : RuleScope) (agentId agentTemplate : String) : Bool :=
  let scopedByAgent := !s.agentIds.isEmpty
  let scopedByTemplate := !s.templateIds.isEmpty
  if !scopedByAgent && !scopedByTemplate then true
  else (scopedByAgent && s.agentIds.contains agentId) ||
    (scopedByTemplate && s.templateIds.contains agentTemplate)

def AllowlistRule.covers (rule : AllowlistRule) (request : EvaluationRequest) : Bool :=
  rule.scope.appliesTo request.agentId request.agentTemplate &&
    rule.matchClause.matches request.destHost request.destIp request.destPort
      request.destProtocol

end CastleWall.Policy
