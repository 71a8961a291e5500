import CastleWall.Custody.Rollback
import CastleWall.Custody.ConfigPosture

/-! # The configuration baseline

`core/config-baseline.ts`: the posture of the configuration that booted last, sealed under the master, and the check
of the next boot against it. The epoch witness keeps that a baseline was sealed and under which schema; it does not
keep which one. -/

namespace CastleWall.Custody

open Text Cognitive Cognitive.StateStore

def KeyProtection.text : KeyProtection → String
  | .none => "none"
  | .passphrase => "passphrase"
  | .hardwareKey => "hardware-key"

variable (s : String)

def KeyProtection.ofText : Option KeyProtection :=
  if s = "none" then some .none
  else if s = "passphrase" then some .passphrase
  else if s = "hardware-key" then some .hardwareKey
  else Option.none

def PrivacyFilterMode.text : PrivacyFilterMode → String
  | .local => "local"
  | .opf => "opf"
  | .off => "off"

def PrivacyFilterMode.ofText : Option PrivacyFilterMode :=
  if s = "local" then some .local else if s = "opf" then some .opf else if s = "off" then some .off else none

def PrivacyFailMode.text : PrivacyFailMode → String
  | .closed => "closed"
  | .fallback => "fallback"

def PrivacyFailMode.ofText : Option PrivacyFailMode :=
  if s = "closed" then some .closed else if s = "fallback" then some .fallback else none

def DisclosureDefaultPolicy.text : DisclosureDefaultPolicy → String
  | .minimumNecessary => "minimum-necessary"
  | .withholdAll => "withhold-all"

def DisclosureDefaultPolicy.ofText : Option DisclosureDefaultPolicy :=
  if s = "minimum-necessary" then some .minimumNecessary
  else if s = "withhold-all" then some .withholdAll
  else none

@[simp] theorem KeyProtection.ofText_text (v : KeyProtection) : KeyProtection.ofText v.text=some v := by
  cases v <;> decide

@[simp] theorem PrivacyFilterMode.ofText_text (v : PrivacyFilterMode) : PrivacyFilterMode.ofText v.text=some v := by
  cases v <;> decide

@[simp] theorem PrivacyFailMode.ofText_text (v : PrivacyFailMode) : PrivacyFailMode.ofText v.text=some v := by
  cases v <;> decide

@[simp] theorem DisclosureDefaultPolicy.ofText_text (v : DisclosureDefaultPolicy) :
    DisclosureDefaultPolicy.ofText v.text=some v := by
  cases v <;> decide

variable (p : ConfigSecurityPosture)

def postureFields : List (String × Option Json) :=
  [("config_version",some (.str p.configVersion)),("state_key_protection",some (.str p.stateKeyProtection.text)),
    ("execution_attestation",some (.bool p.executionAttestation)),
    ("dashboard_tls_configured",some (.bool p.dashboardTlsConfigured)),
    ("dashboard_auth_configured",some (.bool p.dashboardAuthConfigured)),
    ("dashboard_allow_plaintext_remote",some (.bool p.dashboardAllowPlaintextRemote)),
    ("webhook_enabled",some (.bool p.webhookEnabled)),("privacy_filter_mode",some (.str p.privacyFilterMode.text)),
    ("privacy_filter_fail_mode",some (.str p.privacyFilterFailMode.text)),
    ("privacy_filter_command",some (.str p.privacyFilterCommand)),
    ("disclosure_default_policy",some (.str p.disclosureDefaultPolicy.text)),
    ("verascore_auto_publish",some (.bool p.verascoreAutoPublish)),
    ("erc8004_confirmation_enabled",some (.bool p.erc8004ConfirmationEnabled))]

def encodePosture : Json := objectOf (postureFields p)

def parsePosture (value : Json) : Option ConfigSecurityPosture := do
  let configVersion ← (field value "config_version").bind stringOf
  let stateKeyProtection ← ((field value "state_key_protection").bind stringOf).bind KeyProtection.ofText
  let executionAttestation ← (field value "execution_attestation").bind booleanOf
  let dashboardTlsConfigured ← (field value "dashboard_tls_configured").bind booleanOf
  let dashboardAuthConfigured ← (field value "dashboard_auth_configured").bind booleanOf
  let dashboardAllowPlaintextRemote ← (field value "dashboard_allow_plaintext_remote").bind booleanOf
  let webhookEnabled ← (field value "webhook_enabled").bind booleanOf
  let privacyFilterMode ← ((field value "privacy_filter_mode").bind stringOf).bind PrivacyFilterMode.ofText
  let privacyFilterFailMode ← ((field value "privacy_filter_fail_mode").bind stringOf).bind PrivacyFailMode.ofText
  let privacyFilterCommand ← (field value "privacy_filter_command").bind stringOf
  let disclosureDefaultPolicy ←
    ((field value "disclosure_default_policy").bind stringOf).bind DisclosureDefaultPolicy.ofText
  let verascoreAutoPublish ← (field value "verascore_auto_publish").bind booleanOf
  let erc8004ConfirmationEnabled ← (field value "erc8004_confirmation_enabled").bind booleanOf
  return { configVersion, stateKeyProtection, executionAttestation, dashboardTlsConfigured, dashboardAuthConfigured,
           dashboardAllowPlaintextRemote, webhookEnabled, privacyFilterMode, privacyFilterFailMode,
           privacyFilterCommand, disclosureDefaultPolicy, verascoreAutoPublish, erc8004ConfirmationEnabled }

theorem field_encodePosture (key : String) :
    field (encodePosture p) key=((postureFields p).lookup key).join :=
  field_objectOf (by simp [postureFields]) key

theorem parsePosture_encode : parsePosture (encodePosture p)=some p := by
  simp [parsePosture,field_encodePosture,postureFields,List.lookup_cons,stringOf,booleanOf]

structure ConfigBaselineRecord where
  observedAt : String
  posture : ConfigSecurityPosture

def encodeBaseline (r : ConfigBaselineRecord) : Json :=
  objectOf [("schema_version",some (.num configBaselineSchemaVersion)),("observed_at",some (.str r.observedAt)),
    ("posture",some (encodePosture r.posture))]

def decodeBaseline (data : Json) : Option ConfigBaselineRecord := do
  let observedAt ← (field data "observed_at").bind stringOf
  let schema ← (field data "schema_version").bind safeNat
  guard (schema=configBaselineSchemaVersion)
  let posture ← (field data "posture").bind parsePosture
  return ⟨observedAt,posture⟩

theorem decodeBaseline_encode (r : ConfigBaselineRecord) : decodeBaseline (encodeBaseline r)=some r := by
  have hfie : ∀ key, field (encodeBaseline r) key=([("schema_version",some (.num configBaselineSchemaVersion)),
      ("observed_at",some (.str r.observedAt)),("posture",some (encodePosture r.posture))].lookup key).join :=
    field_objectOf (by simp)
  have hsch : safeNat (.num 3)=some 3 := by
    decide
  simp [decodeBaseline,hfie,List.lookup_cons,stringOf,parsePosture_encode,hsch,configBaselineSchemaVersion,guard]

def configBaselineKind : RecordKind ConfigBaselineRecord where
  marker := "__sanctuary_config_security_baseline_v1"
  purpose := .configSecurityBaseline
  domain := "sanctuary.config-security-baseline.v1\nconfig-security-baseline-v1\n"
  encode := encodeBaseline
  decode := decodeBaseline

inductive BaselineLoad where
  | absent
  | reseed (recognizedSchema : Nat)
  | authenticated (posture : ConfigSecurityPosture)
  /-- The load throws. -/
  | refused

def recognizedSchema (parsed : Json) : Option Nat := do
  guard (isTrue (field parsed configBaselineKind.marker))
  let data ← field parsed "data"
  let _ ← (field parsed "mac").bind stringOf
  let _ ← (field data "observed_at").bind stringOf
  let schema ← (field data "schema_version").bind safeNat
  guard (1 ≤ schema ∧ schema < configBaselineSchemaVersion)
  return schema

section Baseline

variable (mac : MasterMac)

def loadAuthenticatedBaseline : MetaFile → BaselineLoad
  | none => .absent
  | some none => .refused
  | some (some parsed) =>
    match recognizedSchema parsed with
    | some schema => .reseed schema
    | none =>
      match configBaselineKind.read mac (some (some parsed)) with
      | .valid r => .authenticated r.posture
      | _ => .refused

def BaselineLoad.against (config : SanctuaryConfig) : BaselineLoad → LoadedBaseline
  | .absent => .absent
  | .reseed schema => .reseed schema
  | .authenticated posture =>
    .authenticated (decide (detectConfigDowngrades (configFromSecurityPosture posture) config≠[]))
  | .refused => .refused

/-- The fortress and the baseline beside it. `lastSealed` is not stored: it is what was sealed last. -/
structure BaselineWorld where
  fortress : Fortress
  baseline : MetaFile
  lastSealed : Option ConfigBaselineRecord

/-- `writeAuthenticatedConfigBaseline`. -/
def BaselineWorld.writeBaseline (w : BaselineWorld) (config : SanctuaryConfig) (observedAt : String) : BaselineWorld :=
  let r : ConfigBaselineRecord := ⟨observedAt,securityPostureFromConfig config⟩
  { w with baseline := some (some (configBaselineKind.record mac r)), lastSealed := some r }

/-- Boot step 5rc. The baseline is written before the latch is raised; the raise does not fail. -/
def BaselineWorld.boot (w : BaselineWorld) (config : SanctuaryConfig) (observedAt now : String) :
    Except CustodyError ConfigBaselineCrossCheck × BaselineWorld :=
  let checked := (crossCheckConfigBaseline mac ((loadAuthenticatedBaseline mac w.baseline).against config) now).run w.fortress
  match checked.1 with
  | .ok outcome => (.ok outcome,{ w with fortress := checked.2 }.writeBaseline mac config observedAt)
  | .error err => (.error err,{ w with fortress := checked.2 })

inductive BaselineInput where
  | boot (config : SanctuaryConfig) (observedAt now : String)
  /-- A seal outside a boot. -/
  | writeBaseline (config : SanctuaryConfig) (observedAt : String)
  /-- The stored baseline is replaced, or deleted. -/
  | tamper (file : MetaFile)
  /-- Everything but the baseline may change. -/
  | custody (fortress : Fortress)

def BaselineWorld.step (w : BaselineWorld) : BaselineInput → BaselineWorld
  | .boot config observedAt now => (w.boot mac config observedAt now).2
  | .writeBaseline config observedAt => w.writeBaseline mac config observedAt
  | .tamper file => { w with baseline := file }
  | .custody fortress => { w with fortress }

def BaselineWorld.runInputs (w : BaselineWorld) (inputs : List BaselineInput) : BaselineWorld :=
  inputs.foldl (BaselineWorld.step mac) w

theorem BaselineWorld.runInputs_concat (w : BaselineWorld) (inputs : List BaselineInput) (input : BaselineInput) :
    w.runInputs mac (inputs++[input])=(w.runInputs mac inputs).step mac input := by
  rw [BaselineWorld.runInputs,List.foldl_append,List.foldl_cons,List.foldl_nil]
  rfl

def BaselineWorld.untouched (w : BaselineWorld) : Prop :=
  w.baseline=w.lastSealed.map fun r => some (configBaselineKind.record mac r)

/-- The stored baseline does not hold a posture weaker than the one that was sealed last. -/
def BaselineWorld.notReplayed (w : BaselineWorld) : Prop :=
  ∀ posture, loadAuthenticatedBaseline mac w.baseline=.authenticated posture → ∀ r, w.lastSealed=some r →
    detectConfigDowngrades (configFromSecurityPosture r.posture) (configFromSecurityPosture posture)=[]

/-- The witness is left intact, no earlier and weaker baseline is put back before a boot, and a seal outside a boot
finds the latch raised. -/
def BaselineWorld.Admits (w : BaselineWorld) : BaselineInput → Prop
  | .boot _ _ _ => w.untouched mac ∨ w.notReplayed mac
  | .writeBaseline _ _ => baselineRaised configBaselineSchemaVersion (readEpochWitness mac w.fortress.witness)=true
  | .tamper _ => True
  | .custody fortress => Rises mac w.fortress.witness fortress.witness

end Baseline

section Latch

variable {mac : MasterMac}

theorem recognizedSchema_some {parsed : Json} {schema : Nat} (h : recognizedSchema parsed=some schema) :
    ∃ data, field parsed "data" = some data ∧ (field data "schema_version").bind safeNat=some schema ∧
      schema < configBaselineSchemaVersion := by
  unfold recognizedSchema at h
  obtain ⟨_,-,h⟩ := Option.bind_eq_some_iff.mp h
  obtain ⟨data,hdat,h⟩ := Option.bind_eq_some_iff.mp h
  obtain ⟨_,-,h⟩ := Option.bind_eq_some_iff.mp h
  obtain ⟨_,-,h⟩ := Option.bind_eq_some_iff.mp h
  obtain ⟨schema',hsch,h⟩ := Option.bind_eq_some_iff.mp h
  obtain ⟨_,hgua,h⟩ := Option.bind_eq_some_iff.mp h
  cases h
  refine ⟨data,hdat,hsch,?_⟩
  by_contra hnot
  rw [guard,if_neg fun hbot => hnot hbot.2] at hgua
  cases hgua

variable (r : ConfigBaselineRecord)

theorem field_record_data :
    field (configBaselineKind.record mac r) "data" = some (encodeBaseline r) := by
  rw [RecordKind.record,field_objectOf (by simp [configBaselineKind])]
  simp [configBaselineKind,List.lookup_cons]

theorem field_encodeBaseline_schema :
    (field (encodeBaseline r) "schema_version").bind safeNat=some configBaselineSchemaVersion := by
  rw [encodeBaseline,field_objectOf (by simp)]
  simp only [List.lookup_cons_self,Option.join_some,Option.bind_some]
  exact safeNat_num (by decide)

theorem load_record :
    loadAuthenticatedBaseline mac (some (some (configBaselineKind.record mac r)))=.authenticated r.posture := by
  have hrea : configBaselineKind.read mac (some (some (configBaselineKind.record mac r)))=.valid r :=
    configBaselineKind.read_record mac (decodeBaseline_encode r) (by decide +kernel) (by decide +kernel)
  have hcur : recognizedSchema (configBaselineKind.record mac r)=none := by
    by_contra hsom
    obtain ⟨schema,hsch⟩ := Option.ne_none_iff_exists'.mp hsom
    obtain ⟨data,hdat,hrec,hlt⟩ := recognizedSchema_some hsch
    rw [field_record_data] at hdat
    cases hdat
    rw [field_encodeBaseline_schema] at hrec
    cases hrec
    exact absurd hlt (lt_irrefl _)
  rw [loadAuthenticatedBaseline,hcur,hrea]

theorem load_reseed_lt {file : MetaFile} {schema : Nat} (h : loadAuthenticatedBaseline mac file=.reseed schema) :
    schema < configBaselineSchemaVersion := by
  unfold loadAuthenticatedBaseline at h
  split at h
  · cases h
  · cases h
  · split at h
    · rename_i hsch
      cases h
      obtain ⟨data,-,-,hlt⟩ := recognizedSchema_some hsch
      exact hlt
    · split at h <;> cases h

theorem baselineRaised_iff {n : Nat} {status : RecordStatus EpochWitness} :
    baselineRaised n status=true ↔
      ∃ w, status=.valid w ∧ w.baselineEstablished=some true ∧ NumberBelow (some n) w.baselineSchema := by
  cases status with
  | absent => simp [baselineRaised]
  | invalid => simp [baselineRaised]
  | valid w =>
    simp only [baselineRaised,Bool.and_eq_true,decide_eq_true_eq,RecordStatus.valid.injEq,exists_eq_left']
    rw [and_congr_right_iff]
    intro hest
    cases hsch : w.baselineSchema with
    | none => simp [NumberBelow]
    | some m => simp [NumberBelow]

theorem baselineRaised_of_rises {n : Nat} {a b : MetaFile} (h : Rises mac a b)
    (hrai : baselineRaised n (readEpochWitness mac a)=true) : baselineRaised n (readEpochWitness mac b)=true := by
  rw [baselineRaised_iff] at hrai ⊢
  obtain ⟨w,hrea,hest,hsch⟩ := hrai
  obtain ⟨w',hrea',hbel⟩ := h w hrea
  exact ⟨w',hrea',hbel.baselineEstablished hest,hsch.trans hbel.baselineSchema⟩

theorem numberBelow_carryNumber_right (prior proposed : Option Nat) :
    NumberBelow proposed (carryNumber prior proposed) := by
  rintro n rfl
  cases prior with
  | none => exact ⟨n,rfl,le_refl n⟩
  | some m =>
    by_cases hlt : n < m
    · exact ⟨m,if_pos hlt,hlt.le⟩
    · exact ⟨n,if_neg hlt,le_refl n⟩

variable {f : Fortress}

theorem Raised.rises {g : Fortress} (h : Raised mac f g) : Rises mac f.witness g.witness := by
  intro c hrea
  cases h with
  | kept => exact ⟨c,hrea,.refl c⟩
  | written hsaf hbel => exact ⟨_,read_putWitness mac hsaf f,(hbel c hrea).1⟩

theorem baselineRaised_run_raise {sealedSchema : Nat} (h : sealedSchema < 2 ^ 53) (now : String) (f : Fortress) :
    baselineRaised sealedSchema
      (readEpochWitness mac ((raiseBaselineEstablishedLatch mac sealedSchema now).run f).2.witness)=true := by
  rw [raiseBaselineEstablishedLatch,Process.run_bind,Effect.bind_apply_ok (Process.run_observe _ f)]
  split_ifs with hrai
  · exact hrai
  · have hsaf : (raisedBaseline (latchBase (readEpochWitness mac f.witness) now) sealedSchema now).Safe :=
      safe_raisedBaseline (safe_latchBase f.witness now) h now
    have hdat : NumberBelow (some sealedSchema)
        (raisedBaseline (latchBase (readEpochWitness mac f.witness) now) sealedSchema now).baselineSchema := by
      rintro n ⟨⟩
      exact ⟨_,rfl,le_raisedNumber _ _⟩
    rw [run_writeEpochWitness,baselineRaised_iff]
    cases hrea : readEpochWitness mac f.witness with
    | valid current =>
      rw [hrea] at hsaf hdat
      have hlow : ¬ (raisedBaseline (latchBase (.valid current) now) sealedSchema now).epoch < current.epoch :=
        lt_irrefl current.epoch
      simp only [hlow,if_false]
      refine ⟨_,read_putWitness mac (safe_carryLatches (safe_of_valid hrea) hsaf) f,?_,?_⟩
      · rw [carryLatches,if_neg fun hbot => hbot.2 rfl]
        rfl
      · exact hdat.trans (numberBelow_carryNumber_right _ _)
    | absent =>
      rw [hrea] at hsaf hdat
      exact ⟨_,read_putWitness mac hsaf f,rfl,hdat⟩
    | invalid =>
      rw [hrea] at hsaf hdat
      exact ⟨_,read_putWitness mac hsaf f,rfl,hdat⟩

def LoadedBaseline.Passes (latch : BaselineLatch) : LoadedBaseline → Prop
  | .absent => latch.established=false
  | .reseed schema => ¬ (latch.established=true ∧ latch.sealedSchema.any (schema < ·)=true)
  | .authenticated downgraded => downgraded=false
  | .refused => False

theorem run_require_raise_ok {p : Prop} [Decidable p] {err : CustodyError} {result outcome : ConfigBaselineCrossCheck}
    {now : String} (h : (((do
      Process.require p err
      raiseBaselineEstablishedLatch mac configBaselineSchemaVersion now
      return result) : CustodyM ConfigBaselineCrossCheck).run f).1=.ok outcome) :
    p ∧ (((do
      Process.require p err
      raiseBaselineEstablishedLatch mac configBaselineSchemaVersion now
      return result) : CustodyM ConfigBaselineCrossCheck).run f).2 =
        ((raiseBaselineEstablishedLatch mac configBaselineSchemaVersion now).run f).2 := by
  rw [Process.run_bind,Process.run_require] at h ⊢
  by_cases hp : p
  · obtain ⟨g,hrun,-⟩ := run_raiseBaselineEstablishedLatch mac
      (show configBaselineSchemaVersion < 2 ^ 53 by decide) now f
    refine ⟨hp,?_⟩
    rw [Effect.bind_apply_ok (Effect.require_apply hp _ f),Process.run_bind,Effect.bind_apply_ok hrun,hrun]
    rfl
  · rw [Effect.bind_apply_error (Effect.require_fails hp _ f)] at h
    cases h

theorem crossCheck_ok {loaded : LoadedBaseline} {now : String} {outcome : ConfigBaselineCrossCheck}
    (h : ((crossCheckConfigBaseline mac loaded now).run f).1=.ok outcome) :
    loaded.Passes (baselineLatchOf (readEpochWitness mac f.witness)) ∧
      ((crossCheckConfigBaseline mac loaded now).run f).2 =
        ((raiseBaselineEstablishedLatch mac configBaselineSchemaVersion now).run f).2 := by
  cases loaded with
  | refused => cases h
  | absent =>
    obtain ⟨hp,hsta⟩ := run_require_raise_ok h
    exact ⟨Bool.eq_false_iff.mpr hp,hsta⟩
  | reseed schema =>
    obtain ⟨hp,hsta⟩ := run_require_raise_ok h
    exact ⟨hp,hsta⟩
  | authenticated downgraded =>
    obtain ⟨hp,hsta⟩ := run_require_raise_ok h
    exact ⟨Bool.eq_false_iff.mpr hp,hsta⟩

theorem passes_of_raised {loaded : LoadedBaseline}
    (hrai : baselineRaised configBaselineSchemaVersion (readEpochWitness mac f.witness)=true)
    (h : loaded.Passes (baselineLatchOf (readEpochWitness mac f.witness)))
    (hsch : ∀ schema, loaded=.reseed schema → schema < configBaselineSchemaVersion) :
    loaded=.authenticated false := by
  obtain ⟨w,hrea,hest,hflo⟩ := baselineRaised_iff.mp hrai
  obtain ⟨floor,hflo,hle⟩ := hflo _ rfl
  have hlat : baselineLatchOf (readEpochWitness mac f.witness)=⟨true,some floor,false⟩ := by
    rw [hrea,baselineLatchOf,if_pos hest,hflo]
  rw [hlat] at h
  cases loaded with
  | refused => exact h.elim
  | absent => cases h
  | reseed schema =>
    refine absurd ⟨rfl,?_⟩ h
    exact decide_eq_true (lt_of_lt_of_le (hsch schema rfl) hle)
  | authenticated downgraded => rw [show downgraded=false from h]

end Latch

section Runs

variable {mac : MasterMac} {w : BaselineWorld} {config : SanctuaryConfig} {observedAt now : String}

def BaselineWorld.Latched (mac : MasterMac) (w : BaselineWorld) : Prop :=
  w.lastSealed.isSome=true →
    baselineRaised configBaselineSchemaVersion (readEpochWitness mac w.fortress.witness)=true

theorem Latched.boot (h : w.Latched mac) : (w.boot mac config observedAt now).2.Latched mac := by
  unfold BaselineWorld.boot
  simp only
  split
  · rename_i outcome hok
    intro hsea
    change baselineRaised _ (readEpochWitness mac (((crossCheckConfigBaseline mac _ now).run w.fortress).2).witness)=true
    rw [(crossCheck_ok hok).2]
    exact baselineRaised_run_raise (by decide) now w.fortress
  · intro hsea
    exact baselineRaised_of_rises (run_crossCheckConfigBaseline mac _ now w.fortress).rises (h hsea)

theorem Latched.step (h : w.Latched mac) {input : BaselineInput} (hadm : w.Admits mac input) :
    (w.step mac input).Latched mac := by
  cases input with
  | boot config observedAt now => exact Latched.boot h
  | writeBaseline config observedAt => exact fun _ => hadm
  | tamper file => exact h
  | custody fortress => exact fun hsea => baselineRaised_of_rises hadm (h hsea)

/-- A boot that succeeds is given a configuration not weaker than what was sealed last. -/
theorem not_weaker_of_boot (h : w.Latched mac) (hadm : w.untouched mac ∨ w.notReplayed mac)
    {outcome : ConfigBaselineCrossCheck} (hok : (w.boot mac config observedAt now).1=.ok outcome)
    {r : ConfigBaselineRecord} (hsea : w.lastSealed=some r) :
    detectConfigDowngrades (configFromSecurityPosture r.posture) config=[] := by
  have hche : ((crossCheckConfigBaseline mac ((loadAuthenticatedBaseline mac w.baseline).against config) now).run
      w.fortress).1=.ok outcome := by
    unfold BaselineWorld.boot at hok
    simp only at hok
    split at hok
    · rename_i result hres
      rw [hres]
      exact hok
    · cases hok
  have hrai := h (by rw [hsea]; rfl)
  have hloa := passes_of_raised hrai (crossCheck_ok hche).1
  cases hlod : loadAuthenticatedBaseline mac w.baseline with
  | absent =>
    rw [hlod] at hloa
    exact absurd (hloa nofun) nofun
  | refused =>
    rw [hlod] at hloa
    exact absurd (hloa nofun) nofun
  | reseed schema =>
    rw [hlod] at hloa
    refine absurd (hloa ?_) nofun
    rintro schema ⟨⟩
    exact load_reseed_lt hlod
  | authenticated posture =>
    rw [hlod] at hloa
    have hpas := LoadedBaseline.authenticated.inj (hloa nofun)
    rw [decide_eq_false_iff_not,not_not] at hpas
    cases hadm with
    | inl hunt =>
      rw [hunt,hsea,Option.map_some,load_record] at hlod
      cases hlod
      exact hpas
    | inr hnot =>
      have hsto := hnot posture hlod r hsea
      rw [detectConfigDowngrades_eq_nil,securityPosture_configFromSecurityPosture] at hpas hsto ⊢
      rw [securityPosture_configFromSecurityPosture] at hsto
      exact hsto.trans hpas

end Runs

/-- In a run that starts with nothing sealed, leaves the witness intact and puts no earlier and weaker baseline back,
no boot succeeds with a configuration weaker than what was sealed last. -/
theorem boot_not_weaker_than_sealed (mac : MasterMac) (start : BaselineWorld) (hstart : start.lastSealed=none)
    (inputs : List BaselineInput)
    (hadmits : ∀ earlier input later, inputs=earlier++input::later →
      (start.runInputs mac earlier).Admits mac input)
    (earlier later : List BaselineInput) (config : SanctuaryConfig) (observedAt now : String)
    (hboot : inputs=earlier++.boot config observedAt now::later) {outcome : ConfigBaselineCrossCheck}
    (hok : ((start.runInputs mac earlier).boot mac config observedAt now).1=.ok outcome) {r : ConfigBaselineRecord}
    (hsealed : (start.runInputs mac earlier).lastSealed=some r) :
    detectConfigDowngrades (configFromSecurityPosture r.posture) config=[] := by
  have hlat : ∀ done rest, inputs=done++rest → (start.runInputs mac done).Latched mac := by
    intro done
    induction done using List.reverseRecOn with
    | nil =>
      intro rest hres hsom
      rw [BaselineWorld.runInputs,List.foldl_nil,hstart] at hsom
      cases hsom
    | append_singleton done input ih =>
      intro rest hres
      rw [List.append_assoc,List.singleton_append] at hres
      rw [BaselineWorld.runInputs_concat]
      exact Latched.step (ih _ hres) (hadmits done input rest hres)
  exact not_weaker_of_boot (hlat earlier _ hboot) (hadmits earlier _ later hboot) hok hsealed

section Boots

variable {mac : MasterMac} {w : BaselineWorld} {config : SanctuaryConfig} {observedAt now : String}

def BaselineWorld.booted (mac : MasterMac) (w : BaselineWorld) (config : SanctuaryConfig) (observedAt now : String) :
    BaselineWorld :=
  { w with fortress := ((raiseBaselineEstablishedLatch mac configBaselineSchemaVersion now).run w.fortress).2 }.writeBaseline
    mac config observedAt

theorem baseline_booted : (w.booted mac config observedAt now).baseline =
    some (some (configBaselineKind.record mac ⟨observedAt,securityPostureFromConfig config⟩)) := rfl

theorem run_require_raise_of {p : Prop} [Decidable p] {err : CustodyError} {result : ConfigBaselineCrossCheck}
    {f : Fortress} (hp : p) :
    ((do
      Process.require p err
      raiseBaselineEstablishedLatch mac configBaselineSchemaVersion now
      return result) : CustodyM ConfigBaselineCrossCheck).run f =
        (.ok result,((raiseBaselineEstablishedLatch mac configBaselineSchemaVersion now).run f).2) := by
  obtain ⟨g,hrun,-⟩ := run_raiseBaselineEstablishedLatch mac
    (show configBaselineSchemaVersion < 2 ^ 53 by decide) now f
  rw [Process.run_bind,Process.run_require,Effect.bind_apply_ok (Effect.require_apply hp _ f),Process.run_bind,
    Effect.bind_apply_ok hrun,hrun]
  rfl

theorem boot_absent (hbas : w.baseline=none) (hwit : w.fortress.witness=none) :
    w.boot mac config observedAt now=(.ok .seeded,w.booted mac config observedAt now) := by
  have hlat : ¬ (baselineLatchOf (readEpochWitness mac w.fortress.witness)).established=true := by
    rw [hwit]
    exact Bool.false_ne_true
  have hche : (crossCheckConfigBaseline mac .absent now).run w.fortress =
      (.ok .seeded,((raiseBaselineEstablishedLatch mac configBaselineSchemaVersion now).run w.fortress).2) :=
    run_require_raise_of hlat
  rw [BaselineWorld.boot,hbas]
  simp only [loadAuthenticatedBaseline,BaselineLoad.against,hche]
  rfl

theorem boot_authenticated {r : ConfigBaselineRecord}
    (hbas : w.baseline=some (some (configBaselineKind.record mac r)))
    (hpos : detectConfigDowngrades (configFromSecurityPosture r.posture) config=[]) :
    w.boot mac config observedAt now=(.ok .advanced,w.booted mac config observedAt now) := by
  have hche : (crossCheckConfigBaseline mac (.authenticated false) now).run w.fortress =
      (.ok .advanced,((raiseBaselineEstablishedLatch mac configBaselineSchemaVersion now).run w.fortress).2) :=
    run_require_raise_of Bool.false_ne_true
  rw [BaselineWorld.boot,hbas,load_record]
  simp only [BaselineLoad.against,hpos,ne_eq,not_true_eq_false,decide_false,hche]
  rfl

end Boots

def sampleMac : MasterMac := fun _ bytes => bytes

variable (webhookEnabled : Bool)

def sampleConfig : SanctuaryConfig where
  version := "1.0.0"
  keyProtection := .passphrase
  attestation := true
  tls := none
  authToken := none
  allowPlaintextRemote := some false
  webhookEnabled
  privacyFilterMode := .local
  privacyFilterFailMode := .closed
  privacyFilterCommand := ""
  defaultPolicy := .minimumNecessary
  autoPublishToVerascore := false
  autoPublishHandshakes := false
  registryConfirmationEnabled := false

def sampleRecord : ConfigBaselineRecord :=
  ⟨"t",securityPostureFromConfig (sampleConfig webhookEnabled)⟩

def newFortress : BaselineWorld where
  fortress :=
    { witness := none, freeze := none, revocationList := none, revocationAnchor := none, pushLock := false
      rotation := .absent, headAnchor := .absent, envelopeEpoch := 0, stage2 := .notApplicable }
  baseline := none
  lastSealed := none

def sampleBoot : BaselineInput := .boot (sampleConfig webhookEnabled) "t" "t"

theorem step_sampleBoot (w : BaselineWorld) (webhookEnabled : Bool) : w.step sampleMac (sampleBoot webhookEnabled) =
    (w.boot sampleMac (sampleConfig webhookEnabled) "t" "t").2 := rfl

theorem run_sampleBoot : newFortress.runInputs sampleMac [sampleBoot false] =
    newFortress.booted sampleMac (sampleConfig false) "t" "t" := by
  change (newFortress.boot sampleMac (sampleConfig false) "t" "t").2=_
  rw [boot_absent rfl rfl]

theorem strengthened_passes :
    detectConfigDowngrades (configFromSecurityPosture (sampleRecord false).posture) (sampleConfig true)=[] := by
  decide +kernel

theorem sampleBoot_advanced :
    (newFortress.runInputs sampleMac [sampleBoot false]).boot sampleMac (sampleConfig true) "t" "t" =
      (.ok .advanced,(newFortress.booted sampleMac (sampleConfig false) "t" "t").booted sampleMac (sampleConfig true) "t" "t") := by
  rw [run_sampleBoot]
  exact boot_authenticated rfl strengthened_passes

theorem boot_not_weaker_than_sealed_strengthened :
    ((newFortress.runInputs sampleMac [sampleBoot false]).boot sampleMac (sampleConfig true) "t" "t").1=.ok .advanced ∧
      detectConfigDowngrades (configFromSecurityPosture (sampleRecord false).posture) (sampleConfig true)=[] := by
  have hok := congrArg Prod.fst sampleBoot_advanced
  refine ⟨hok,boot_not_weaker_than_sealed sampleMac newFortress rfl [sampleBoot false,sampleBoot true] ?_
    [sampleBoot false] [] (sampleConfig true) "t" "t" rfl hok ?_⟩
  · intro earlier input later hinp
    -- both boots find the baseline as it was left
    match earlier, hinp with
    | [], hinp =>
      cases hinp
      exact .inl rfl
    | [_], hinp =>
      cases hinp
      refine .inl ?_
      rw [run_sampleBoot]
      rfl
    | _::_::_, hinp => simp at hinp
  · rw [run_sampleBoot]
    rfl

def replayInputs : List BaselineInput :=
  [sampleBoot false,sampleBoot true,.tamper (newFortress.runInputs sampleMac [sampleBoot false]).baseline,sampleBoot false]

theorem weaker_posture_boots_after_replay :
    ¬ ∀ (earlier later : List BaselineInput) (config : SanctuaryConfig) (observedAt now : String)
      (outcome : ConfigBaselineCrossCheck) (r : ConfigBaselineRecord),
      replayInputs=earlier++.boot config observedAt now::later →
        ((newFortress.runInputs sampleMac earlier).boot sampleMac config observedAt now).1=.ok outcome →
        (newFortress.runInputs sampleMac earlier).lastSealed=some r →
        detectConfigDowngrades (configFromSecurityPosture r.posture) config=[] := by
  intro h
  have hwor : newFortress.runInputs sampleMac
      [sampleBoot false,sampleBoot true,.tamper (newFortress.runInputs sampleMac [sampleBoot false]).baseline] =
      { (newFortress.booted sampleMac (sampleConfig false) "t" "t").booted sampleMac (sampleConfig true) "t" "t" with
        baseline := some (some (configBaselineKind.record sampleMac (sampleRecord false))) } := by
    have hadv : (newFortress.runInputs sampleMac [sampleBoot false]).step sampleMac (sampleBoot true) =
        (newFortress.booted sampleMac (sampleConfig false) "t" "t").booted sampleMac (sampleConfig true) "t" "t" := by
      rw [step_sampleBoot,sampleBoot_advanced]
    have hfil : (newFortress.runInputs sampleMac [sampleBoot false]).baseline =
        some (some (configBaselineKind.record sampleMac (sampleRecord false))) := by
      rw [run_sampleBoot,baseline_booted]
      rfl
    have hspl : ∀ input, newFortress.runInputs sampleMac [sampleBoot false,sampleBoot true,input] =
        ((newFortress.runInputs sampleMac [sampleBoot false]).step sampleMac (sampleBoot true)).step sampleMac input := by
      intro input
      rw [← BaselineWorld.runInputs_concat,← BaselineWorld.runInputs_concat]
      rfl
    rw [hfil,hspl,hadv]
    rfl
  have hwea := h [sampleBoot false,sampleBoot true,
    .tamper (newFortress.runInputs sampleMac [sampleBoot false]).baseline] [] (sampleConfig false) "t" "t" .advanced
    (sampleRecord true) rfl ?_ ?_
  · exact absurd hwea (by decide +kernel)
  · rw [hwor]
    refine congrArg Prod.fst (boot_authenticated rfl ?_)
    decide +kernel
  · rw [hwor]
    rfl

end CastleWall.Custody
