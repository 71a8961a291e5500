import CastleWall.Policy.Habeas

/-! # The server's rule schema

The rule type, the validator and the ip/cidr tests of the TypeScript server (`schema.ts`,
`ip-cidr.ts`), and how the daemon's decoder reads a rule document the server signed. A value whose
fields do not have the schema's types fails validation there, so only typed rules are modelled. -/

namespace CastleWall.Server

open Text Policy

inductive OneOrMany (α : Type) where
  | one (value : α)
  | many (values : List α)

def OneOrMany.toArray {α : Type} : OneOrMany α → List α
  | .one value => [value]
  | .many values => values

structure RuleMatch where
  host : Option (OneOrMany String) := none
  hostPattern : Option String := none
  ip : Option (OneOrMany String) := none
  cidr : Option (OneOrMany String) := none
  port : Option (OneOrMany Int) := none
  protocol : Option String := none

structure RuleScope where
  agentIds : Option (List String) := none
  templateIds : Option (List String) := none
  uids : Option (List Int) := none

structure AllowlistRule where
  id : String
  schemaVersion : Int
  createdAt : String
  description : Option String := none
  matchClause : RuleMatch
  scope : RuleScope
  disposition : RuleDisposition
  timeWindow : Option RuleTimeWindow := none
  derived : Option Bool := none

/-- What the server takes from Node: Unicode lower-casing, the address a literal names
(`net.isIP` is non-zero exactly when there is one), and one entry of a `net.BlockList` checked
against an address. The laws are the documented ones; how a block list treats an address of the
other family is left to the instance. -/
structure NodeRuntime where
  toLowerCase : String → String
  parseIp : String → Option IpAddr
  addressMatches : IpAddr → IpAddr → Bool
  subnetMatches : IpAddr → Nat → IpAddr → Bool
  toLowerCase_ascii : ∀ s, (∀ c∈s.toList, c.toNat < 128) → toLowerCase s=toAsciiLowercase s
  toLowerCase_folded : ∀ s, toLowerCase (toAsciiLowercase s)=toLowerCase s
  parseIp_std : ∀ s addr, IpAddr.parse s=some addr → parseIp s=some addr
  addressMatches_self : ∀ addr, addressMatches addr addr=true
  subnetMatches_prefix : ∀ base width addr, IpAddr.prefixMatches base width addr=true →
    subnetMatches base width addr=true

variable (node : NodeRuntime)

def isValidIp (value : String) : Bool := (node.parseIp value).isSome

structure ParsedCidr where
  address : IpAddr
  width : Nat

def parseCidr (value : String) : Option ParsedCidr :=
  match splitOnce value '/' with
  | none => none
  | some (address,prefixText) =>
    match node.parseIp address with
    | none => none
    | some addr =>
      if prefixText = "" ∨ ¬ prefixText.toList.all isAsciiDigit then none
      else
        let width := ofDigits 10 (spanDigits 10 prefixText.toList).1
        let max := match addr with
          | .v4 _ => 32
          | .v6 _ => 128
        if width > max then none else some ⟨addr,width⟩

def isValidCidr (value : String) : Bool := (parseCidr node value).isSome

/-- A block list of addresses holds `address` when one of its entries matches it; malformed
entries are skipped. -/
def ipMatches (spec : OneOrMany String) (address : String) : Bool :=
  match node.parseIp address with
  | none => false
  | some addr => spec.toArray.any fun candidate =>
    ((node.parseIp candidate).map fun c => node.addressMatches c addr).getD false

def cidrMatches (spec : OneOrMany String) (address : String) : Bool :=
  match node.parseIp address with
  | none => false
  | some addr => spec.toArray.any fun candidate =>
    ((parseCidr node candidate).map fun c => node.subnetMatches c.address c.width addr).getD false

def ruleIdPattern : String := "^[A-Za-z0-9][A-Za-z0-9._:-]\x7b0,119\x7d$"

def isAlphanumeric (c : Char) : Bool :=
  ('A' ≤ c && c ≤ 'Z') || ('a' ≤ c && c ≤ 'z') || isAsciiDigit c

def matchesRuleIdPattern (id : String) : Bool :=
  match id.toList with
  | [] => false
  | c::cs => isAlphanumeric c && decide (cs.length ≤ 119) &&
    cs.all fun c => isAlphanumeric c || c == '.' || c == '_' || c == ':' || c == '-'

def validateRuleId (id : String) : Option String :=
  if matchesRuleIdPattern id then none
  else some ("rule id must match " ++ ruleIdPattern ++ " and be at most 120 ASCII characters")

def validateAxisValues {α : Type} (axis expected : String) (render : α → String)
    (isValid : α → Bool) (value : OneOrMany α) : List String :=
  match value with
  | .many [] => [axis ++ " must not be an empty array (omit the axis instead)"]
  | value => (value.toArray.filter fun entry => !isValid entry).map fun entry =>
    axis ++ " contains invalid entry (expected " ++ expected ++ "): " ++ render entry

def isValidPortNumber (value : Int) : Bool := decide (1 ≤ value ∧ value ≤ 65535)

def isPositiveUid (value : Int) : Bool := decide (1 ≤ value ∧ value ≤ 0xffffffff)

def axisIssues {α : Type} (axis : Option α) (issues : α → List String) : List String :=
  match axis with
  | none => []
  | some value => issues value

def issueIf (condition : Bool) (issue : String) : List String :=
  if condition then [issue] else []

def validateMatch (m : RuleMatch) : List String :=
  issueIf (m.host.isNone && m.hostPattern.isNone && m.ip.isNone && m.cidr.isNone && m.port.isNone)
      "rule.match must specify at least one of host, host_pattern, ip, cidr, or port" ++
    axisIssues m.host
      (validateAxisValues "rule.match.host" "non-empty string" id fun v => v != "") ++
    axisIssues m.hostPattern (fun p =>
      issueIf (p == "") "rule.match.host_pattern must be a non-empty string") ++
    axisIssues m.ip (validateAxisValues "rule.match.ip" "IP literal" id (isValidIp node)) ++
    axisIssues m.cidr (validateAxisValues "rule.match.cidr" "CIDR" id (isValidCidr node)) ++
    axisIssues m.port
      (validateAxisValues "rule.match.port" "integer in [1, 65535]" toString isValidPortNumber) ++
    axisIssues m.protocol (fun p => issueIf (p != "tcp" && p != "udp" && p != "tcp+udp")
      ("rule.match.protocol must be tcp, udp, or tcp+udp (got " ++ p ++ ")"))

def validateScope (scope : RuleScope) : List String :=
  axisIssues scope.agentIds (fun ids => issueIf (ids.any fun id => id == "")
      "rule.scope.agent_ids must be an array of non-empty strings when present") ++
    axisIssues scope.templateIds (fun ids => issueIf (ids.any fun id => id == "")
      "rule.scope.template_ids must be an array of non-empty strings when present") ++
    axisIssues scope.uids (fun uids => issueIf (uids.any fun uid => !isPositiveUid uid)
      "rule.scope.uids must be an array of positive integers when present")

def validateRule (rule : AllowlistRule) : List String :=
  (validateRuleId rule.id).toList ++
    issueIf (rule.schemaVersion != 1)
      ("rule.schema_version unsupported (expected 1, got " ++ toString rule.schemaVersion ++ ")") ++
    issueIf (rule.createdAt == "") "rule.created_at missing or not a string" ++
    axisIssues rule.timeWindow (fun tw => issueIf (tw.start == "" || tw.end == "")
      "rule.time_window.start/end must be non-empty strings") ++
    validateMatch node rule.matchClause++validateScope rule.scope

def decodePort (value : Int) : Option UInt16 :=
  if 1 ≤ value ∧ value ≤ 65535 then some (UInt16.ofNat value.toNat) else none

/-- `deny_unknown_fields` on the daemon's scope refuses a document that carries `uids`. -/
def decodeScope (scope : RuleScope) : Option Policy.RuleScope :=
  if scope.uids.isSome then none
  else some { agentIds := scope.agentIds.getD [], templateIds := scope.templateIds.getD [] }

def decodePorts (port : Option (OneOrMany Int)) : Option (Option (List UInt16)) :=
  match port with
  | none => some none
  | some port => (port.toArray.mapM decodePort).map some

def decodeMatch (m : RuleMatch) (port : Option (List UInt16)) : Policy.RuleMatch where
  host := m.host.map OneOrMany.toArray
  hostPattern := m.hostPattern
  ip := m.ip.map OneOrMany.toArray
  cidr := m.cidr.map OneOrMany.toArray
  port := port
  protocol := m.protocol

def decodeRule (rule : AllowlistRule) : Option Policy.AllowlistRule := do
  let scope ← decodeScope rule.scope
  let port ← decodePorts rule.matchClause.port
  if 0 ≤ rule.schemaVersion ∧ rule.schemaVersion < 2 ^ 32 then
    some {
      id := rule.id
      schemaVersion := UInt32.ofNat rule.schemaVersion.toNat
      createdAt := rule.createdAt
      description := rule.description
      matchClause := decodeMatch rule.matchClause port
      scope := scope
      disposition := rule.disposition
      timeWindow := rule.timeWindow
      derived := rule.derived }
  else none

end CastleWall.Server
