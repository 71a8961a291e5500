import CastleWall.Cognitive.ReadAuthenticity
import CastleWall.Federation.NoWeakening

/-! # Succession of guardian rosters

The operator alone may put another roster in the place of the one in force, as long as the threshold does not go down
and the master has signed the roster. Which of two signed rosters is the newer one is not asked. -/

namespace CastleWall.Federation

open Mesh Custody Text Cognitive.StateStore

inductive QuorumOf (env : MeshEnv) (live : GuardianRevocationRequirement) (ids : List String) : Prop
  | kill (fortressId nodeId : String) (approvals : Option (List GuardianApproval))
      (h : evaluateGuardianRevocationSignOff env live fortressId nodeId approvals=.ok ids)
  | disable (fortressId : String) (disableNonce : Int) (intent : DisableIntent) (targetM : Option Int)
      (approvals : Option (List GuardianApproval))
      (h : evaluateGuardianDisableSignOff env live fortressId disableNonce intent targetM approvals=.ok ids)

def Counts (env : MeshEnv) (host : GuardianHost) (key : String) : Prop :=
  ∃ live ids guardian, host.requirement=some live ∧ QuorumOf env live ids ∧ guardian.guardianId∈ids ∧
    live.roster.byId guardian.guardianId=some guardian ∧ guardian.publicKey=key

def OnSignedRoster (env : MeshEnv) (host : GuardianHost) (version : Int) (key : String) : Prop :=
  ∃ context roster guardian, host.context=some context ∧
    (verifyGuardianRoster env roster context.pinnedMaster).isOk=true ∧ version ≤ roster.version ∧
    guardian∈roster.guardians ∧ guardian.publicKey=key

structure SuccessionWorld where
  host : GuardianHost
  /-- The rosters that were in force. -/
  installed : List GuardianRoster

def SuccessionWorld.step (env : MeshEnv) (world : SuccessionWorld) (input : GuardianInput) : SuccessionWorld where
  host := world.host.step env input
  installed := world.installed++((world.host.step env input).requirement.map (·.roster)).toList

/-- No guardian, no master key and no countdown had a part in it. -/
def OperatorAlone (env : MeshEnv) (host : GuardianHost) (input : GuardianInput) : Prop :=
  ∀ t effect, Commits host input t → host.state.authorizeGuardianRequirementTransition env t=.ok effect →
    effect.authMethod=some .operator ∨ effect.authMethod=none

/-- Where the operator alone has a key count that did not, the key is on a roster no older than any that was in
force. -/
def KeepsSuccession (env : MeshEnv) (world : SuccessionWorld) (input : GuardianInput) : Prop :=
  OperatorAlone env world.host input → ∀ roster∈world.installed, ∀ key,
    Counts env (world.host.step env input) key → ¬ Counts env world.host key →
      OnSignedRoster env world.host roster.version key

def SuccessionHolds (env : MeshEnv) (world : SuccessionWorld) : List GuardianInput → Prop
  | [] => True
  | input::rest => KeepsSuccession env world input ∧ SuccessionHolds env (world.step env input) rest

/-- A roster that comes without a decrease is no older than any that was in force. -/
def NoOlderRoster (world : SuccessionWorld) : GuardianInput → Prop
  | .operatorSet (some next) _ _ _ =>
    world.host.state.classify (some next)≠.decrease → ∀ roster∈world.installed, roster.version ≤ next.roster.version
  | _ => True

def NoOlderRun (env : MeshEnv) (world : SuccessionWorld) : List GuardianInput → Prop
  | [] => True
  | input::rest => NoOlderRoster world input ∧ NoOlderRun env (world.step env input) rest

section Steps

variable {env : MeshEnv} {world : SuccessionWorld} {host : GuardianHost}

theorem Counts.onRoster {key : String} (h : Counts env host key) :
    ∃ live guardian, host.requirement=some live ∧ guardian∈live.roster.guardians ∧ guardian.publicKey=key := by
  obtain ⟨live,ids,guardian,hliv,-,-,hbyI,hkey⟩ := h
  exact ⟨live,guardian,hliv,List.mem_reverse.mp (List.mem_of_find?_eq_some hbyI),hkey⟩

theorem decreaseAuthMethod_cases {state : GuardianRequirementState} {next : Option GuardianRevocationRequirement}
    {auth : Option GuardianDisableAuthorization} {method : AuthMethod}
    (h : state.decreaseAuthMethod env next auth=some method) : method=.master ∨ method=.quorum := by
  unfold GuardianRequirementState.decreaseAuthMethod at h
  split at h
  · cases h
  split at h
  · split at h
    · rw [Option.ite_none_right_eq_some] at h
      exact .inl (Option.some.inj h.2).symm
    · cases h
  · split at h
    · rw [Option.ite_none_right_eq_some] at h
      exact .inr (Option.some.inj h.2).symm
    · cases h

theorem classify_ne_decrease {state : GuardianRequirementState} {next : GuardianRevocationRequirement}
    (h : ∀ live, state.requirement=some live → live.effectiveThresholdM ≤ next.effectiveThresholdM) :
    state.classify (some next)≠.decrease := by
  rw [GuardianRequirementState.classify]
  cases hliv : state.requirement with
  | none => exact Classification.noConfusion
  | some live =>
    have hkee := h live hliv
    simp only [if_neg (not_lt.mpr hkee)]
    split <;> exact Classification.noConfusion

/-- One step: what the operator alone can install is a roster that the master has signed. -/
theorem keepsSuccession_of_noOlderRoster {input : GuardianInput} (h : NoOlderRoster world input) :
    KeepsSuccession env world input := by
  intro halo roster hros key haft hbef
  rcases step_cases input with hkep | ⟨t,effect,hcom,haut,hste⟩
  · refine absurd ?_ hbef
    rwa [Counts,hkep.requirement] at haft
  have hreq : (world.host.step env input).requirement=effect.requirement := by rw [hste]; rfl
  obtain ⟨live,guardian,hliv,hgua,hkey⟩ := haft.onRoster
  rw [hreq] at hliv
  obtain ⟨hcod,hspe⟩ := authorize_ok haut
  obtain ⟨pinnedMaster,hpin,hver⟩ := (hspe.installed live hliv).roster
  obtain ⟨context,hcon,rfl⟩ := Option.map_eq_some_iff.mp hpin
  refine ⟨context,live.roster,guardian,hcon,hver,?_,hgua,hkey⟩
  cases hcod with
  | decrease method hmet hauh =>
    have hmes := halo _ _ hcom haut
    rw [hauh] at hmes
    rcases decreaseAuthMethod_cases hmet with rfl | rfl <;> simp at hmes
  | install hins hkee =>
    cases hcom
    rw [hins] at hliv
    cases hliv
    exact h (classify_ne_decrease hkee) roster hros
  | nothing hnone hins => cases hins.symm.trans hliv
  | breakGlass hins hauh => cases hins.symm.trans hliv

end Steps

/-- In a run where the operator installs no roster that is older than one that was in force, no key counts by the
operator alone that is not on a roster at least as new as all of these. -/
theorem guardian_succession (env : MeshEnv) (world : SuccessionWorld) (inputs : List GuardianInput)
    (h : NoOlderRun env world inputs) : SuccessionHolds env world inputs := by
  induction inputs generalizing world with
  | nil => trivial
  | cons input inputs ih => exact ⟨keepsSuccession_of_noOlderRoster h.1,ih (world.step env input) h.2⟩

theorem authorize_install {env : MeshEnv} {state : GuardianRequirementState} {next : GuardianRevocationRequirement}
    (auth : Option GuardianDisableAuthorization) (loweredThreshold : Option LoweredThresholdAuthorization)
    (hkee : ∀ live, state.requirement=some live → live.effectiveThresholdM ≤ next.effectiveThresholdM)
    (hros : state.verifyNextRoster env next=.ok ())
    (hlow : state.requireLoweredThresholdForNext env next next.loweredThreshold=.ok ()) :
    ∃ effect, state.authorizeGuardianRequirementTransition env (.operatorSet (some next) auth loweredThreshold) =
        .ok effect ∧ effect.requirement=some next ∧ effect.authMethod=some .operator := by
  have hcla := classify_ne_decrease hkee
  simp only [GuardianRequirementState.authorizeGuardianRequirementTransition]
  cases hcly : state.classify (some next) with
  | decrease => exact absurd hcly hcla
  | increase =>
    simp only [GuardianRequirementState.authorizeInstall,hros,hlow]
    exact ⟨_,rfl,rfl,rfl⟩
  | noop =>
    simp only [GuardianRequirementState.authorizeInstall,hros,hlow]
    exact ⟨_,rfl,rfl,rfl⟩

theorem body_injective {a b : GuardianRoster} (h : a.body.canonicalText=b.body.canonicalText) :
    a.version=b.version ∧ a.guardians.map (·.publicKey)=b.guardians.map (·.publicKey) := by
  have hgua : ∀ g : GuardianIdentity, g.value.Ordered := by
    intro g
    apply ordered_objectOf
    simp only [OrderedMembers,List.map_cons,List.map_nil,List.mem_cons,List.not_mem_nil,or_false]
    rintro value (rfl | rfl | rfl | rfl) v hv <;> cases hv <;> exact .str _
  have hord : ∀ roster : GuardianRoster, roster.body.Ordered := by
    intro roster
    apply ordered_objectOf
    simp only [OrderedMembers,List.map_cons,List.map_nil,List.mem_cons,List.not_mem_nil,or_false]
    rintro value (rfl | rfl | rfl | rfl | rfl | rfl | rfl) v hv <;> cases hv
    · exact .num _
    · exact .num _
    · refine .arr fun item hite => ?_
      obtain ⟨g,-,rfl⟩ := List.mem_map.mp hite
      exact hgua g
    · exact .str _
    · exact .num _
    · exact .str _
    · exact .str _
  have hbod := Json.canonicalText_inj (hord a) (hord b) h
  have hver : ∀ roster : GuardianRoster, field roster.body "version" = some (.num roster.version) := by
    intro roster
    rw [GuardianRoster.body,field_objectOf (by simp)]
    rfl
  have hgus : ∀ roster : GuardianRoster,
      field roster.body "guardians" = some (.arr (roster.guardians.map (·.value))) := by
    intro roster
    rw [GuardianRoster.body,field_objectOf (by simp)]
    rfl
  have hkey : ∀ g : GuardianIdentity, field g.value "public_key" = some (.str g.publicKey) := by
    intro g
    rw [GuardianIdentity.value,field_objectOf (by simp)]
    rfl
  refine ⟨?_,?_⟩
  · have hfie := (hver a).symm.trans ((congrArg (field · "version") hbod).trans (hver b))
    exact Json.num.inj (Option.some.inj hfie)
  · have hfie := (hgus a).symm.trans ((congrArg (field · "guardians") hbod).trans (hgus b))
    have hval := congrArg (List.map (field · "public_key")) (Json.arr.inj (Option.some.inj hfie))
    simp only [List.map_map,Function.comp_def,hkey] at hval
    have hine : Function.Injective fun key : String => some (Json.str key) := by
      intro x y hxy
      exact Json.str.inj (Option.some.inj hxy)
    apply hine.list_map
    simpa only [List.map_map,Function.comp_def] using hval

namespace Sample

def current : GuardianRoster := rosterOf 2 (guardian "g-1" 1) (guardian "g-2" 2)

def former : GuardianRoster := rosterOf 1 (guardian "g-1" 1) (guardian "g-3" 3)

/-- The master has signed these messages and nothing else; guardians sign what they are asked to. -/
def issuerOf (messages : List (List UInt8)) : MeshEnv :=
  { env with verify _ message key := decide (key.length=32 ∨ message∈messages) }

theorem signed_issuerOf {messages : List (List UInt8)} {signature publicKey : String} {message : List UInt8} :
    (issuerOf messages).signed signature message publicKey=true ↔
      (decodeBase64url publicKey).length=32 ∨ message∈messages := decide_eq_true_iff

def messageOf (roster : GuardianRoster) : List UInt8 := utf8Bytes roster.body.canonicalText

def issuer : MeshEnv := issuerOf [messageOf current,messageOf former]

theorem verify_current : (verifyGuardianRoster issuer current context.pinnedMaster).isOk=true := by
  refine verify_rosterOf (by decide) (by decide) (by decide) (by decide) ?_
  rw [issuer,signed_issuerOf]
  exact .inr List.mem_cons_self

theorem verify_former : (verifyGuardianRoster issuer former context.pinnedMaster).isOk=true := by
  refine verify_rosterOf (by decide) (by decide) (by decide) (by decide) ?_
  rw [issuer,signed_issuerOf]
  exact .inr (List.mem_cons_of_mem _ List.mem_cons_self)

/-- The key of the guardian who left is on no roster that is as new as the current one. -/
theorem not_onSignedRoster {host : GuardianHost} (hcon : host.context=some context) :
    ¬ OnSignedRoster issuer host 2 (keyOf 3) := by
  rintro ⟨context',roster,guardian',hcon',hver,hven,hgua,hkey⟩
  cases hcon.symm.trans hcon'
  obtain ⟨-,bytes,hbyt,hsig⟩ := verifyGuardianRoster_isOk hver
  have hmes : bytes=messageOf roster := by
    rw [canonicalizeToBytes] at hbyt
    split at hbyt
    · exact (Except.ok.inj hbyt).symm
    · cases hbyt
  rw [issuer,signed_issuerOf,hmes,List.mem_cons,List.mem_singleton] at hsig
  have hmem : keyOf 3∈roster.guardians.map (·.publicKey) := hkey ▸ List.mem_map_of_mem hgua
  rcases hsig with hlen | hcur | hfor
  · exact absurd hlen (by decide)
  · rw [(body_injective (utf8Bytes_injective hcur)).2] at hmem
    simp only [current,rosterOf,guardian,List.map_cons,List.map_nil,List.mem_cons,List.not_mem_nil,
      or_false] at hmem
    rcases hmem with h | h <;> exact absurd (keyOf_injective h) (by decide)
  · rw [(body_injective (utf8Bytes_injective hfor)).1] at hven
    exact absurd hven (by decide)

def approvalOf (guardianId : String) : GuardianApproval :=
  ⟨guardianId,guardianSignOffAction,revocationCascadeId "f-1" "n-1","AA",signatureSchemeV1⟩

theorem tally_approvalOf {roster : GuardianRoster} {signedBytes : List UInt8} {version : Int} {tally : Tally}
    {guardianId : String} {b : UInt8} (hbyI : roster.byId guardianId=some (guardian guardianId b))
    (hid : guardianId∉tally.seen) (hkey : keyOf b∉tally.seenKeys) :
    tallyApproval issuer roster ⟨revocationCascadeId "f-1" "n-1",guardianSignOffAction,"f-1",version⟩ signedBytes
      tally (approvalOf guardianId) =
      ⟨guardianId::tally.seen,keyOf b::tally.seenKeys,tally.validIds++[guardianId],tally.invalidIds⟩ := by
  have hsig : issuer.signed "AA" signedBytes (keyOf b)=true := by
    rw [issuer,signed_issuerOf,keyOf,decodeBase64url_toBase64url,List.length_replicate]
    exact .inl rfl
  have hcan := canonicalGuardianKey_keyOf b
  have hpub : (guardian guardianId b).publicKey=keyOf b := rfl
  simp [tallyApproval,approvalOf,approvalDeclaresSameTarget,hid,hbyI,hcan,hkey,hpub,hsig,
    Tally.accept]

theorem former_quorum :
    evaluateGuardianRevocationSignOff issuer ⟨former,none,none⟩ "f-1" "n-1"
      (some [approvalOf "g-1",approvalOf "g-3"])=.ok ["g-1","g-3"] := by
  have hsha : isValidRosterShape former=true := by
    have hval : validateRosterShape former=.ok () := shape_rosterOf (by decide) (by decide)
    rw [isValidRosterShape,hval]
    rfl
  have hkey : keyOf 3∉[keyOf 1] := by
    rw [List.mem_singleton]
    exact fun h => absurd (keyOf_injective h) (by decide)
  have hbyt : ∃ bytes, canonicalizeToBytes
      (revocationSigningInput ⟨former,none,none⟩ "f-1" "n-1").value=.ok bytes :=
    ⟨_,canonicalizeToBytes_of_safe (by decide)⟩
  obtain ⟨bytes,hbyt⟩ := hbyt
  have hfir : former.byId "g-1" = some (guardian "g-1" 1) := rfl
  have hsec : former.byId "g-3" = some (guardian "g-3" 3) := rfl
  have htal : [approvalOf "g-1",approvalOf "g-3"].foldl
      (tallyApproval issuer former (revocationSigningInput ⟨former,none,none⟩ "f-1" "n-1") bytes)
      ⟨[],[],[],[]⟩=⟨["g-3","g-1"],[keyOf 3,keyOf 1],["g-1","g-3"],[]⟩ := by
    rw [List.foldl_cons,List.foldl_cons,List.foldl_nil]
    rw [show revocationSigningInput ⟨former,none,none⟩ "f-1" "n-1" =
      ⟨revocationCascadeId "f-1" "n-1",guardianSignOffAction,"f-1",1⟩ from rfl]
    rw [tally_approvalOf hfir (by simp) (by simp),tally_approvalOf hsec (by simp) hkey]
    rfl
  have heva : evaluateThreshold issuer former (revocationSigningInput ⟨former,none,none⟩ "f-1" "n-1")
      [approvalOf "g-1",approvalOf "g-3"] (some 2)=.ok ⟨true,2,2,2,["g-1","g-3"],[]⟩ := by
    have hver : ¬ (revocationSigningInput ⟨former,none,none⟩ "f-1" "n-1").rosterVersion≠former.version :=
      not_not.mpr rfl
    rw [evaluateThreshold,hsha,if_neg (by decide),if_neg hver,hbyt]
    simp only [htal]
    rfl
  have henf : enforceThreshold issuer former (revocationSigningInput ⟨former,none,none⟩ "f-1" "n-1")
      [approvalOf "g-1",approvalOf "g-3"] (some 1) (some 2)=.ok ⟨true,2,2,2,["g-1","g-3"],[]⟩ := by
    rw [enforceThreshold,heva]
    rfl
  have hreq : (⟨former,none,none⟩ : GuardianRevocationRequirement).expectedVersion=1 ∧
      (⟨former,none,none⟩ : GuardianRevocationRequirement).effectiveThresholdM=2 := ⟨rfl,rfl⟩
  simp only [evaluateGuardianRevocationSignOff,evaluateSignOff,hreq,henf]

def pinInput (roster : GuardianRoster) : GuardianInput := .operatorSet (some ⟨roster,none,none⟩) none none true

theorem pinInput_step {host : GuardianHost} {roster : GuardianRoster} (hcon : host.context=some context)
    (hver : (verifyGuardianRoster issuer roster context.pinnedMaster).isOk=true)
    (hkee : ∀ live, host.requirement=some live → live.effectiveThresholdM ≤ roster.m) :
    (host.step issuer (pinInput roster)).requirement=some ⟨roster,none,none⟩ ∧
      (host.step issuer (pinInput roster)).context=some context ∧ OperatorAlone issuer host (pinInput roster) := by
  have hros : host.state.verifyNextRoster issuer ⟨roster,none,none⟩=.ok () := by
    simp only [GuardianRequirementState.verifyNextRoster,GuardianHost.state,hcon,Option.map_some]
    exact if_pos hver
  obtain ⟨effect,haut,hreq,hmet⟩ := authorize_install none none hkee hros rfl
  have hste : host.step issuer (pinInput roster)=host.applyEffect effect false := by
    simp only [GuardianHost.step,pinInput,GuardianHost.commitGuardianRequirementTransition,haut]
    rfl
  refine ⟨?_,?_,?_⟩
  · rw [hste]
    exact hreq
  · rw [hste]
    exact hcon
  · intro t effect' hcom haut'
    cases hcom
    cases haut.symm.trans haut'
    exact .inl hmet

end Sample

theorem not_keepsSuccession {env : MeshEnv} {host : GuardianHost} {installed : List GuardianRoster}
    {input : GuardianInput} {roster : GuardianRoster} {key : String} (halo : OperatorAlone env host input)
    (hros : roster∈installed) (haft : Counts env (host.step env input) key) (hbef : ¬ Counts env host key)
    (huns : ¬ OnSignedRoster env host roster.version key) : ¬ KeepsSuccession env ⟨host,installed⟩ input := by
  intro hkee
  exact huns (hkee halo roster hros key haft hbef)

open Sample in
/-- The operator pins the second roster, then the first one again, and the guardian who left it counts. -/
theorem former_guardian_counts : ¬ SuccessionHolds issuer ⟨fresh,[]⟩ [pinInput current,pinInput former] := by
  intro h
  obtain ⟨hcur,hcon,-⟩ := @pinInput_step fresh current rfl verify_current (fun live hliv => nomatch hliv)
  obtain ⟨hfor,-,halo⟩ := @pinInput_step (fresh.step issuer (pinInput current)) former hcon verify_former (by
    intro live hliv
    cases hcur.symm.trans hliv
    decide)
  have hins : current∈[]++((fresh.step issuer (pinInput current)).requirement.map (·.roster)).toList := by
    rw [hcur]
    exact List.mem_cons_self
  have haft : Counts issuer ((fresh.step issuer (pinInput current)).step issuer (pinInput former)) (keyOf 3) :=
    ⟨_,_,guardian "g-3" 3,hfor,.kill "f-1" "n-1" _ former_quorum,by decide,rfl,rfl⟩
  have hbef : ¬ Counts issuer (fresh.step issuer (pinInput current)) (keyOf 3) := by
    intro hcou
    obtain ⟨live,counted,hliv,hcod,hkey⟩ := hcou.onRoster
    cases hcur.symm.trans hliv
    simp only [current,rosterOf,List.mem_cons,List.not_mem_nil,or_false] at hcod
    rcases hcod with rfl | rfl <;> exact absurd (keyOf_injective hkey) (by decide)
  exact not_keepsSuccession halo hins haft hbef (not_onSignedRoster hcon) h.2.1

open Sample in
theorem guardian_succession_renewed : SuccessionHolds issuer ⟨fresh,[]⟩ [pinInput former,pinInput current] := by
  refine guardian_succession issuer ⟨fresh,[]⟩ [pinInput former,pinInput current] ⟨?_,?_,trivial⟩
  · intro _ roster hros
    cases hros
  · intro _ roster hros
    obtain ⟨hfor,-,-⟩ := @pinInput_step fresh former rfl verify_former (fun live hliv => nomatch hliv)
    change roster∈[]++((fresh.step issuer (pinInput former)).requirement.map (·.roster)).toList at hros
    rw [hfor,List.nil_append] at hros
    cases List.mem_singleton.mp hros
    decide

end CastleWall.Federation
