import CastleWall.Support.Outcome
import CastleWall.Manifest.Types
import CastleWall.Policy.Identity

/-! # Policy snapshots

Admission of a loaded manifest into a `PolicySnapshot` and first-match-wins evaluation over it
(`policy.rs`). -/

namespace CastleWall.Policy

open Text Manifest Outcome

def schemaVersionV1 : UInt32 := 1

/-- Why a `uid`-mode binding is refused. -/
inductive AgentOriginDefect where
  | noAgentUid
  | belowCeiling (field : String) (uid ceiling : UInt32)
  | gateCollides (gateUid : UInt32)
  | notAttestable (field : String) (uid : UInt32) (error : SafetyNetUidError)
  | overflowUidUnavailable (error : SafetyNetUidError)
  deriving DecidableEq

inductive PolicySnapshotError where
  | ruleFileMissing (file : String)
  | ruleParse (file sourceMessage : String)
  | ruleIdMismatch (file fileRuleId manifestRuleId : String)
  | unsupportedSchemaVersion (ruleId : String) (found expected : UInt32)
  | invalidMatchAxis (ruleId axis value message : String)
  | unenforceableRuleAxis (ruleId axis : String)
  | unsupportedDisposition (ruleId : String)
  | agentIdentityCollision (resourceKind resourceName leftAgentId rightAgentId : String)
  | habeasConflict (issues : List String)
  | agentOriginUnusable (detail : AgentOriginDefect)
  | confinedAgentScope (error : ConfinedAgentScopeError)
  deriving DecidableEq

structure PolicySnapshot where
  rules : List AllowlistRule
  manifestSignatureB64url : Option String
  fortressId : String
  (confinedAgentUid confinedAgentUidCeiling confinedGateUid : Option UInt32)
  deriving DecidableEq

/-- What admission takes from outside this crate: the JSON decoder of a rule file, SHA-256, the
iteration order of a hash set, and the overflow-uid sysctl of the host. -/
structure AdmissionEnv where
  ruleFromSlice : List UInt8 → Except String AllowlistRule
  sha256Hex : List UInt8 → String
  hashSetOrder : List String → List String
  overflowUidFile : Except String String
  overflowUidRequired : Bool

def validateCidrLiteral (cidr : String) : Except String Unit :=
  match splitOnce cidr '/' with
  | none => .error "missing '/prefix'"
  | some (baseStr,prefixStr) =>
    match IpAddr.parse baseStr with
    | none => .error "base address is not a valid IPv4/IPv6 literal"
    | some base =>
      if prefixStr = "" ∨ ¬ prefixStr.toList.all isAsciiDigit then
        .error "prefix is not a non-negative integer"
      else match parseUnsigned (2 ^ 32) prefixStr with
        | none => .error "prefix is not a non-negative integer"
        | some width =>
          let max := match base with
            | .v4 _ => 32
            | .v6 _ => 128
          if width > max then .error "prefix exceeds the address family's maximum" else .ok ()

def validateEnforceable (rule : AllowlistRule) : Except PolicySnapshotError Unit :=
  if rule.timeWindow.isSome then .error (.unenforceableRuleAxis rule.id "time_window")
  else if rule.disposition=.prompt then .error (.unsupportedDisposition rule.id)
  else if rule.matchClause.host.isSome then
    .error (.unenforceableRuleAxis rule.id
      "match.host (authenticated DNS/SNI binding unavailable)")
  else if rule.matchClause.hostPattern.isSome then
    .error (.unenforceableRuleAxis rule.id
      "match.host_pattern (authenticated DNS/SNI binding unavailable)")
  else if !rule.scope.templateIds.isEmpty then
    .error (.unenforceableRuleAxis rule.id
      "scope.template_ids (template attestation unavailable)")
  else .ok ()

def emptyArray : String := "empty arrays are not valid constraints"

def validateIpAxis (rule : AllowlistRule) : Except PolicySnapshotError Unit :=
  match rule.matchClause.ip with
  | none => .ok ()
  | some [] => .error (.invalidMatchAxis rule.id "match.ip" "[]" emptyArray)
  | some ips =>
    match ips.find? fun entry => (IpAddr.parse entry).isNone with
    | some entry =>
      .error (.invalidMatchAxis rule.id "match.ip" entry "not a valid IPv4/IPv6 literal")
    | none => .ok ()

def validateCidrs (rule : AllowlistRule) : List String → Except PolicySnapshotError Unit
  | [] => .ok ()
  | entry::entries =>
    match validateCidrLiteral entry with
    | .error message => .error (.invalidMatchAxis rule.id "match.cidr" entry message)
    | .ok () => validateCidrs rule entries

def validateCidrAxis (rule : AllowlistRule) : Except PolicySnapshotError Unit :=
  match rule.matchClause.cidr with
  | none => .ok ()
  | some [] => .error (.invalidMatchAxis rule.id "match.cidr" "[]" emptyArray)
  | some cidrs => validateCidrs rule cidrs

def validateDestination (rule : AllowlistRule) : Except PolicySnapshotError Unit :=
  if !RuleMatch.present rule.matchClause.ip && !RuleMatch.present rule.matchClause.cidr then
    .error (.invalidMatchAxis rule.id "match" "<missing destination>"
      "Linux L2 requires a non-empty ip or cidr destination axis")
  else .ok ()

def validateProtocol (rule : AllowlistRule) : Except PolicySnapshotError Unit :=
  match rule.matchClause.protocol with
  | none => .ok ()
  | some protocol =>
    if protocol = "tcp" ∨ protocol = "udp" ∨ protocol = "tcp+udp" then .ok ()
    else .error (.invalidMatchAxis rule.id "match.protocol" protocol
      "expected exactly tcp, udp, or tcp+udp")

def validateScopeIds (rule : AllowlistRule) (axis : String) (values : List String) :
    Except PolicySnapshotError Unit :=
  if values.any fun value => value == "" then
    .error (.invalidMatchAxis rule.id axis "<empty string>" "scope identifiers must be non-empty")
  else .ok ()

def validateRuleAxes (rule : AllowlistRule) : Except PolicySnapshotError Unit := do
  validateEnforceable rule
  validateDestination rule
  validateProtocol rule
  if rule.matchClause.port=some [] then
    throw (.invalidMatchAxis rule.id "match.port" "[]" emptyArray)
  validateScopeIds rule "scope.agent_ids" rule.scope.agentIds
  validateScopeIds rule "scope.template_ids" rule.scope.templateIds
  validateIpAxis rule
  validateCidrAxis rule

/-- `HashMap::insert`: the new map and the value the key held before. -/
def insertSeen (seen : List (String × String)) (key value : String) :
    List (String × String) × Option String :=
  ((key,value)::seen.filter (·.1 != key),seen.lookup key)

def rejectIdentityCollision (seen : List (String × String))
    (resourceKind resourceName agentId : String) :
    Except PolicySnapshotError (List (String × String)) :=
  match insertSeen seen resourceName agentId with
  | (seen',some existing) =>
    if existing≠agentId then
      .error (.agentIdentityCollision resourceKind resourceName existing agentId)
    else .ok seen'
  | (seen',none) => .ok seen'

def checkIdentities (env : AdmissionEnv) :
    List String → List (String × String) → List (String × String) →
      Except PolicySnapshotError Unit
  | [], _, _ => .ok ()
  | agentId::rest, systemdUnits, nftChains => do
    let systemdUnits ← rejectIdentityCollision systemdUnits "systemd unit"
      (scopeUnitName env.sha256Hex agentId) agentId
    let nftChains ← rejectIdentityCollision nftChains "nft chain"
      (agentChainName env.sha256Hex agentId) agentId
    checkIdentities env rest systemdUnits nftChains

variable (env : AdmissionEnv)

def validateAgentIdentityCollisions (rules : List AllowlistRule) :
    Except PolicySnapshotError Unit :=
  let agentIds := (rules.flatMap fun rule => rule.scope.agentIds).dedup
  checkIdentities env (env.hashSetOrder agentIds) [] []

structure AdmittedAgentUid where
  (agentUid systemUidAllowCeiling : UInt32)
  gateUid : Option UInt32

def checkGateUid (origin : AgentOrigin) (agentUid : UInt32) :
    Except PolicySnapshotError Unit :=
  match origin.gateUid with
  | none => .ok ()
  | some gateUid =>
    if gateUid < 1 ∨ gateUid < origin.systemUidAllowCeiling then
      .error (.agentOriginUnusable
        (.belowCeiling "gate_uid" gateUid origin.systemUidAllowCeiling))
    else if gateUid=agentUid then .error (.agentOriginUnusable (.gateCollides gateUid))
    else .ok ()

def checkAttestable (overflow : UInt32) (field : String) (uid : Option UInt32) :
    Except PolicySnapshotError Unit :=
  match uid with
  | none => .ok ()
  | some uid =>
    match validateSafetyNetUid uid overflow with
    | .error error => .error (.agentOriginUnusable (.notAttestable field uid error))
    | .ok _ => .ok ()

def checkOverflowUid (origin : AgentOrigin) (agentUid : UInt32) :
    Except PolicySnapshotError Unit :=
  match hostOverflowUid env.overflowUidFile with
  | .ok overflow => do
    checkAttestable overflow "agent_uid" (some agentUid)
    checkAttestable overflow "gate_uid" origin.gateUid
  | .error error =>
    if env.overflowUidRequired then .error (.agentOriginUnusable (.overflowUidUnavailable error))
    else .ok ()

/-- No descriptor or another mode admits without confining; a `uid`-mode descriptor whose binding
is unusable is refused. -/
def confinedAgentUidFromLoadedManifest (loaded : LoadedManifest) :
    Except PolicySnapshotError (Option AdmittedAgentUid) :=
  match loaded.signed.manifest.agentOrigin with
  | none => .ok none
  | some origin =>
    if origin.mode ≠ "uid" then .ok none
    else match origin.agentUid with
      | none => .error (.agentOriginUnusable .noAgentUid)
      | some agentUid =>
        if agentUid < 1 ∨ agentUid < origin.systemUidAllowCeiling then
          .error (.agentOriginUnusable
            (.belowCeiling "agent_uid" agentUid origin.systemUidAllowCeiling))
        else do
          checkGateUid origin agentUid
          checkOverflowUid env origin agentUid
          return some {
            agentUid := agentUid
            systemUidAllowCeiling := origin.systemUidAllowCeiling
            gateUid := origin.gateUid }

/-- One manifest entry: its file is present, parses, declares the entry's id and a supported
version, and passes the axis checks. -/
def loadRule (loaded : LoadedManifest) (entry : ManifestRuleEntry) :
    Except PolicySnapshotError AllowlistRule :=
  match loaded.ruleFiles.lookup entry.file with
  | none => .error (.ruleFileMissing entry.file)
  | some bytes =>
    match env.ruleFromSlice bytes with
    | .error message => .error (.ruleParse entry.file message)
    | .ok rule =>
      if rule.id≠entry.ruleId then
        .error (.ruleIdMismatch entry.file rule.id entry.ruleId)
      else if rule.schemaVersion≠schemaVersionV1 then
        .error (.unsupportedSchemaVersion rule.id rule.schemaVersion schemaVersionV1)
      else do
        validateRuleAxes rule
        return rule

def fromLoadedManifest (loaded : LoadedManifest) :
    Except PolicySnapshotError PolicySnapshot := do
  let rules ← loaded.signed.manifest.rules.mapM (loadRule env loaded)
  validateAgentIdentityCollisions env rules
  let habeasIssues := Habeas.findHabeasConflictsInComposed rules
  if habeasIssues≠[] then throw (.habeasConflict habeasIssues)
  let confinedAgentUid ← confinedAgentUidFromLoadedManifest env loaded
  return {
    rules := rules
    manifestSignatureB64url := some loaded.manifestSignatureB64url
    fortressId := loaded.signed.manifest.fortressId
    confinedAgentUid := confinedAgentUid.map (·.agentUid)
    confinedGateUid := confinedAgentUid.bind (·.gateUid)
    confinedAgentUidCeiling := confinedAgentUid.map (·.systemUidAllowCeiling) }

def verdictOf (rule : AllowlistRule) : Verdict :=
  match rule.disposition with
  | .allow => .allow rule.id
  | .prompt => .promptRequired rule.id
  | .deny => .deny (.explicitRule rule.id)

/-- First match wins; no match denies. -/
def PolicySnapshot.evaluate (snapshot : PolicySnapshot) (request : EvaluationRequest) : Verdict :=
  match snapshot.rules.find? (·.covers request) with
  | some rule => verdictOf rule
  | none => .deny .defaultDeny

structure AdmittedRule (rule : AllowlistRule) : Prop where
  noPrompt : rule.disposition≠.prompt
  noHost : rule.matchClause.host=none
  noHostPattern : rule.matchClause.hostPattern=none
  noTemplate : rule.scope.templateIds=[]
  destination : RuleMatch.present rule.matchClause.ip=true ∨
    RuleMatch.present rule.matchClause.cidr=true

variable {rule : AllowlistRule}

theorem AdmittedRule.matchesHost_eq (h : AdmittedRule rule)
    (destHost : Option String) : rule.matchClause.matchesHost destHost=false := by
  unfold RuleMatch.matchesHost
  split
  · rfl
  · simp [RuleMatch.present,RuleMatch.patternPresent,h.noHost,h.noHostPattern]

private theorem enforceable_of_ok
    (h : validateEnforceable rule=.ok ()) :
    rule.disposition≠.prompt ∧ rule.matchClause.host=none ∧
      rule.matchClause.hostPattern=none ∧ rule.scope.templateIds=[] := by
  unfold validateEnforceable at h
  split_ifs at h with htim hpro hhos hpat htem
  simp only [Option.not_isSome_iff_eq_none,Bool.not_eq_true',Bool.not_eq_false,
    List.isEmpty_iff] at hhos hpat htem
  exact ⟨hpro,hhos,hpat,htem⟩

theorem admittedRule_of_validateRuleAxes
    (h : validateRuleAxes rule=.ok ()) : AdmittedRule rule := by
  obtain ⟨_,henf,h⟩ := bind_ok h
  obtain ⟨_,hdes,_⟩ := bind_ok h
  obtain ⟨hpro,hhos,hpat,htem⟩ := enforceable_of_ok henf
  refine ⟨hpro,hhos,hpat,htem,?_⟩
  unfold validateDestination at hdes
  split_ifs at hdes with hdet
  simpa only [Bool.and_eq_true,Bool.not_eq_true',not_and_or,Bool.not_eq_false] using hdet

private theorem admittedRule_of_loadRule {env : AdmissionEnv} {loaded : LoadedManifest}
    {entry : ManifestRuleEntry}
    (h : loadRule env loaded entry=.ok rule) : AdmittedRule rule := by
  unfold loadRule at h
  split at h
  · cases h
  split at h
  · cases h
  split_ifs at h
  obtain ⟨_,haxe,hrul⟩ := bind_ok h
  cases hrul
  exact admittedRule_of_validateRuleAxes haxe

/-- Every rule of an admitted snapshot passed the axis checks, and the rule list passed the
distress-lane gate. -/
theorem fromLoadedManifest_ok {env : AdmissionEnv} {loaded : LoadedManifest}
    {snapshot : PolicySnapshot} (h : fromLoadedManifest env loaded=.ok snapshot) :
    (∀ rule∈snapshot.rules, AdmittedRule rule) ∧
      Habeas.findHabeasConflictsInComposed snapshot.rules=[] := by
  obtain ⟨rules,hrul,h⟩ := bind_ok h
  obtain ⟨_,_,h⟩ := bind_ok h
  dsimp only at h
  split at h
  · obtain ⟨_,hthr,_⟩ := bind_ok h
    cases hthr
  rename_i hcle
  obtain ⟨_,_,h⟩ := bind_ok h
  cases h
  exact ⟨forall_of_mapM_ok (fun _ _ => admittedRule_of_loadRule) _ rules hrul,
    by simpa using hcle⟩

end CastleWall.Policy
