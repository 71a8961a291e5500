import Mathlib.Data.List.Basic

/-! # The security posture of a configuration

`config.ts`: the security-relevant projection of a configuration and the comparison that finds where one is weaker
than another. -/

namespace CastleWall.Custody

inductive KeyProtection where
  | none
  | passphrase
  | hardwareKey
deriving DecidableEq

inductive PrivacyFilterMode where
  | «local»
  | opf
  | off
deriving DecidableEq

inductive PrivacyFailMode where
  | closed
  | fallback
deriving DecidableEq

inductive DisclosureDefaultPolicy where
  | minimumNecessary
  | withholdAll
deriving DecidableEq

structure DashboardTls where
  (certPath keyPath : String)

structure SanctuaryConfig where
  version : String
  keyProtection : KeyProtection
  attestation : Bool
  tls : Option DashboardTls
  authToken : Option String
  allowPlaintextRemote : Option Bool
  webhookEnabled : Bool
  privacyFilterMode : PrivacyFilterMode
  privacyFilterFailMode : PrivacyFailMode
  privacyFilterCommand : String
  defaultPolicy : DisclosureDefaultPolicy
  (autoPublishToVerascore autoPublishHandshakes registryConfirmationEnabled : Bool)

structure ConfigSecurityPosture where
  configVersion : String
  stateKeyProtection : KeyProtection
  (executionAttestation dashboardTlsConfigured dashboardAuthConfigured dashboardAllowPlaintextRemote : Bool)
  webhookEnabled : Bool
  privacyFilterMode : PrivacyFilterMode
  privacyFilterFailMode : PrivacyFailMode
  privacyFilterCommand : String
  disclosureDefaultPolicy : DisclosureDefaultPolicy
  (verascoreAutoPublish erc8004ConfirmationEnabled : Bool)
deriving DecidableEq

/-- What `trim` takes off. -/
def isJsWhitespace (c : Char) : Bool :=
  let n := c.toNat
  (9 ≤ n && n ≤ 13) || n=0x20 || n=0xA0 || n=0x1680 || (0x2000 ≤ n && n ≤ 0x200A) || n=0x2028 || n=0x2029 ||
    n=0x202F || n=0x205F || n=0x3000 || n=0xFEFF

/-- Something is left of the text after `trim`. -/
def isConfigured (s : String) : Bool := !s.toList.all isJsWhitespace

variable (config : SanctuaryConfig)

def hasDashboardTls : Bool :=
  config.tls.any fun tls => isConfigured tls.certPath && isConfigured tls.keyPath

def hasDashboardAuth : Bool := config.authToken.any isConfigured

def verascoreAutoPublishEnabled : Bool :=
  config.autoPublishToVerascore || config.autoPublishHandshakes

def securityPostureFromConfig : ConfigSecurityPosture where
  configVersion := config.version
  stateKeyProtection := config.keyProtection
  executionAttestation := config.attestation
  dashboardTlsConfigured := hasDashboardTls config
  dashboardAuthConfigured := hasDashboardAuth config
  dashboardAllowPlaintextRemote := config.allowPlaintextRemote=some true
  webhookEnabled := config.webhookEnabled
  privacyFilterMode := config.privacyFilterMode
  privacyFilterFailMode := config.privacyFilterFailMode
  privacyFilterCommand := config.privacyFilterCommand
  disclosureDefaultPolicy := config.defaultPolicy
  verascoreAutoPublish := verascoreAutoPublishEnabled config
  erc8004ConfirmationEnabled := config.registryConfirmationEnabled

def configFromSecurityPosture (posture : ConfigSecurityPosture) : SanctuaryConfig where
  version := posture.configVersion
  keyProtection := posture.stateKeyProtection
  attestation := posture.executionAttestation
  tls := if posture.dashboardTlsConfigured then some ⟨"configured","configured"⟩ else none
  authToken := if posture.dashboardAuthConfigured then some "configured" else none
  allowPlaintextRemote := some posture.dashboardAllowPlaintextRemote
  webhookEnabled := posture.webhookEnabled
  privacyFilterMode := posture.privacyFilterMode
  privacyFilterFailMode := posture.privacyFilterFailMode
  privacyFilterCommand := posture.privacyFilterCommand
  defaultPolicy := posture.disclosureDefaultPolicy
  autoPublishToVerascore := posture.verascoreAutoPublish
  autoPublishHandshakes := false
  registryConfirmationEnabled := posture.erc8004ConfirmationEnabled

@[simp] theorem securityPosture_configFromSecurityPosture (posture : ConfigSecurityPosture) :
    securityPostureFromConfig (configFromSecurityPosture posture)=posture := by
  have hcon : isConfigured "configured" = true := by
    decide +kernel
  obtain ⟨version,key,attestation,tls,auth,plaintext,webhook,mode,failMode,command,policy,verascore,erc⟩ :=
    posture
  cases tls <;> cases auth <;> cases plaintext <;>
    simp [securityPostureFromConfig,configFromSecurityPosture,hasDashboardTls,hasDashboardAuth,
      verascoreAutoPublishEnabled,hcon]

def readNumber (digits : List Char) : Nat := digits.foldl (fun n c => 10 * n+(c.toNat - '0'.toNat)) 0

def takeNumber (cs : List Char) : Option (Nat × List Char) :=
  let digits := cs.takeWhile Char.isDigit
  if digits=[] then none else some (readNumber digits,cs.dropWhile Char.isDigit)

def isVersionSuffix : List Char → Bool
  | [] => true
  | c::cs => (c = '-' || c = '+') && cs≠[] && cs.all fun d => d.isAlphanum || d = '.' || d = '-'

/-- Three numbers with dots between them, and a suffix that does not count. -/
def parseVersion (version : String) : Option (Nat × Nat × Nat) :=
  match takeNumber version.toList with
  | some (major,'.' :: afterMajor) =>
    match takeNumber afterMajor with
    | some (minor,'.' :: afterMinor) =>
      match takeNumber afterMinor with
      | some (patch,rest) => if isVersionSuffix rest then some (major,minor,patch) else none
      | none => none
    | _ => none
  | _ => none

/-- The first difference that is not zero. -/
def compareParsedVersions (left right : Nat × Nat × Nat) : Int :=
  if (left.1 : Int) - right.1≠0 then left.1 - right.1
  else if (left.2.1 : Int) - right.2.1≠0 then left.2.1 - right.2.1
  else left.2.2 - right.2.2

def keyProtectionRank : KeyProtection → Nat
  | .none => 0
  | .passphrase => 1
  | .hardwareKey => 2

def disclosureDefaultPolicyRank : DisclosureDefaultPolicy → Nat
  | .minimumNecessary => 0
  | .withholdAll => 1

inductive ConfigDowngrade where
  | configVersionInvalid
  | configVersionRollback
  | stateKeyProtectionDowngrade
  | executionAttestationDisabled
  | dashboardTlsDisabled
  | dashboardPlaintextRemoteEnabled
  | dashboardAuthDisabled
  | webhookGateDisabled
  | privacyFilterDisabled
  | privacyFailModeDowngrade
  | privacyFilterCommandChanged
  | disclosureDefaultPolicyLoosened
  | verascoreAutopublishEnabled
  | erc8004ConfirmationEnabled

def versionDowngrades (previous next : SanctuaryConfig) : List ConfigDowngrade :=
  match parseVersion previous.version, parseVersion next.version with
  | some previousVersion, some nextVersion =>
    if compareParsedVersions nextVersion previousVersion < 0 then [.configVersionRollback] else []
  | _, _ => [.configVersionInvalid]

def downgradeIf (weaker : Prop) [Decidable weaker] (reason : ConfigDowngrade) : List ConfigDowngrade :=
  if weaker then [reason] else []

/-- Every field in which `next` is weaker. -/
def detectConfigDowngrades (previous next : SanctuaryConfig) : List ConfigDowngrade :=
  List.flatten [
    versionDowngrades previous next,
    downgradeIf (keyProtectionRank next.keyProtection < keyProtectionRank previous.keyProtection)
      .stateKeyProtectionDowngrade,
    downgradeIf (previous.attestation=true ∧ next.attestation=false) .executionAttestationDisabled,
    downgradeIf (hasDashboardTls previous=true ∧ hasDashboardTls next=false) .dashboardTlsDisabled,
    downgradeIf (previous.allowPlaintextRemote≠some true ∧ next.allowPlaintextRemote=some true)
      .dashboardPlaintextRemoteEnabled,
    downgradeIf (hasDashboardAuth previous=true ∧ hasDashboardAuth next=false) .dashboardAuthDisabled,
    downgradeIf (previous.webhookEnabled=true ∧ next.webhookEnabled=false) .webhookGateDisabled,
    downgradeIf (previous.privacyFilterMode≠.off ∧ next.privacyFilterMode=.off) .privacyFilterDisabled,
    downgradeIf (previous.privacyFilterFailMode=.closed ∧ next.privacyFilterFailMode=.fallback)
      .privacyFailModeDowngrade,
    downgradeIf (previous.privacyFilterMode≠.off ∧ previous.privacyFilterCommand≠next.privacyFilterCommand)
      .privacyFilterCommandChanged,
    downgradeIf (disclosureDefaultPolicyRank next.defaultPolicy < disclosureDefaultPolicyRank previous.defaultPolicy)
      .disclosureDefaultPolicyLoosened,
    downgradeIf (verascoreAutoPublishEnabled previous=false ∧ verascoreAutoPublishEnabled next=true)
      .verascoreAutopublishEnabled,
    downgradeIf (previous.registryConfirmationEnabled=false ∧ next.registryConfirmationEnabled=true)
      .erc8004ConfirmationEnabled]

/-- Both versions are versions, and the second is not before the first. -/
def VersionBelow (a b : String) : Prop :=
  ∃ v w, parseVersion a=some v ∧ parseVersion b=some w ∧ ¬ compareParsedVersions w v < 0

/-- The second posture is in no respect weaker than the first. -/
@[mk_iff]
structure ConfigSecurityPosture.Below (p q : ConfigSecurityPosture) : Prop where
  version : VersionBelow p.configVersion q.configVersion
  keyProtection : keyProtectionRank p.stateKeyProtection ≤ keyProtectionRank q.stateKeyProtection
  attestation : p.executionAttestation=true → q.executionAttestation=true
  tls : p.dashboardTlsConfigured=true → q.dashboardTlsConfigured=true
  plaintext : p.dashboardAllowPlaintextRemote=false → q.dashboardAllowPlaintextRemote=false
  auth : p.dashboardAuthConfigured=true → q.dashboardAuthConfigured=true
  webhook : p.webhookEnabled=true → q.webhookEnabled=true
  filter : p.privacyFilterMode≠.off → q.privacyFilterMode≠.off
  failMode : p.privacyFilterFailMode=.closed → q.privacyFilterFailMode≠.fallback
  command : p.privacyFilterMode≠.off → p.privacyFilterCommand=q.privacyFilterCommand
  disclosure : disclosureDefaultPolicyRank p.disclosureDefaultPolicy ≤ disclosureDefaultPolicyRank q.disclosureDefaultPolicy
  verascore : p.verascoreAutoPublish=false → q.verascoreAutoPublish=false
  erc8004 : p.erc8004ConfirmationEnabled=false → q.erc8004ConfirmationEnabled=false

theorem compareParsedVersions_neg {left right : Nat × Nat × Nat} :
    compareParsedVersions left right < 0 ↔ left.1 < right.1 ∨
      left.1=right.1 ∧ (left.2.1 < right.2.1 ∨ left.2.1=right.2.1 ∧ left.2.2 < right.2.2) := by
  unfold compareParsedVersions
  split_ifs <;> omega

theorem VersionBelow.trans {a b c : String} (hab : VersionBelow a b) (hbc : VersionBelow b c) : VersionBelow a c := by
  obtain ⟨u,v,hu,hv,huv⟩ := hab
  obtain ⟨v',w,hv',hw,hvw⟩ := hbc
  cases Option.some.inj (hv.symm.trans hv')
  refine ⟨u,w,hu,hw,?_⟩
  rw [compareParsedVersions_neg] at huv hvw ⊢
  omega

theorem PrivacyFailMode.eq_closed {mode : PrivacyFailMode} (h : mode≠.fallback) : mode=.closed := by
  cases mode with
  | closed => rfl
  | fallback => exact absurd rfl h

theorem ConfigSecurityPosture.Below.trans {p q r : ConfigSecurityPosture} (hpq : p.Below q) (hqr : q.Below r) :
    p.Below r where
  version := hpq.version.trans hqr.version
  keyProtection := Nat.le_trans hpq.keyProtection hqr.keyProtection
  attestation := hqr.attestation ∘ hpq.attestation
  tls := hqr.tls ∘ hpq.tls
  plaintext := hqr.plaintext ∘ hpq.plaintext
  auth := hqr.auth ∘ hpq.auth
  webhook := hqr.webhook ∘ hpq.webhook
  filter := hqr.filter ∘ hpq.filter
  failMode := fun hclo => hqr.failMode (PrivacyFailMode.eq_closed (hpq.failMode hclo))
  command := fun hmod => (hpq.command hmod).trans (hqr.command (hpq.filter hmod))
  disclosure := Nat.le_trans hpq.disclosure hqr.disclosure
  verascore := hqr.verascore ∘ hpq.verascore
  erc8004 := hqr.erc8004 ∘ hpq.erc8004

theorem versionDowngrades_eq_nil (previous next : SanctuaryConfig) :
    versionDowngrades previous next=[] ↔ VersionBelow previous.version next.version := by
  unfold versionDowngrades VersionBelow
  cases hpre : parseVersion previous.version with
  | none => simp
  | some v =>
    cases hnex : parseVersion next.version with
    | none => simp
    | some w =>
      by_cases hles : compareParsedVersions w v < 0
      · simp [hles]
      · simpa [hles] using Int.not_lt.mp hles

theorem downgradeIf_eq_nil {weaker : Prop} [Decidable weaker] {reason : ConfigDowngrade} :
    downgradeIf weaker reason=[] ↔ ¬ weaker := by
  unfold downgradeIf
  by_cases hwea : weaker
  · simp [hwea]
  · simp [hwea]

/-- The comparison finds nothing exactly where the posture is not weaker. -/
theorem detectConfigDowngrades_eq_nil (previous next : SanctuaryConfig) :
    detectConfigDowngrades previous next=[] ↔
      (securityPostureFromConfig previous).Below (securityPostureFromConfig next) := by
  simp only [detectConfigDowngrades,List.flatten_eq_nil_iff,List.forall_mem_cons,List.not_mem_nil,false_imp_iff,
    implies_true,and_true,versionDowngrades_eq_nil,downgradeIf_eq_nil,ConfigSecurityPosture.below_iff,securityPostureFromConfig,not_and,Nat.not_lt,not_not,Bool.not_eq_false,
    Bool.not_eq_true,decide_eq_false_iff_not,ne_eq]

/-- No sequence of configurations, each free of downgrades against the one before it, ends weaker than it began in any
field, nor weaker than any configuration on the way. -/
theorem no_stepwise_downgrade (configs : List SanctuaryConfig) :
    configs.IsChain (fun previous next => detectConfigDowngrades previous next=[]) ↔
      configs.Pairwise fun previous next => detectConfigDowngrades previous next=[] := by
  have : IsTrans SanctuaryConfig fun previous next => detectConfigDowngrades previous next=[] := by
    constructor
    intro a b c hab hbc
    rw [detectConfigDowngrades_eq_nil] at hab hbc ⊢
    exact hab.trans hbc
  exact List.isChain_iff_pairwise

end CastleWall.Custody
