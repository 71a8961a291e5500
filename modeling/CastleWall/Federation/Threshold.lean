import CastleWall.Mesh.Guardian

/-! # Thresholds of guardian approvals

`recovery/threshold-evaluator.ts`: guardians approve an action by signing what it is, and an evaluation counts the
approvals of distinct guardians with distinct keys. -/

namespace CastleWall.Federation

open Mesh Custody Cognitive.StateStore
open Outcome (require)

structure GuardianApproval where
  (guardianId recoveryAction cascadeId signature signatureScheme : String)

structure ApprovalSigningInput where
  (cascadeId recoveryAction fortressId : String)
  rosterVersion : Int

def ApprovalSigningInput.value (input : ApprovalSigningInput) : Json :=
  objectOf [("cascade_id",some (.str input.cascadeId)),("recovery_action",some (.str input.recoveryAction)),
    ("fortress_id",some (.str input.fortressId)),("roster_version",some (.num input.rosterVersion))]

inductive ThresholdRefusal where
  | rosterStale
  | thresholdNotMet
  /-- What is signed cannot be serialized. -/
  | invalid

structure ThresholdEvaluationResult where
  thresholdMet : Bool
  validCount : Nat
  (thresholdM totalN : Int)
  (validGuardianIds invalidGuardianIds : List String)

structure Tally where
  (seen seenKeys validIds invalidIds : List String)

def Tally.reject (tally : Tally) (guardianId : String) : Tally :=
  { tally with invalidIds := tally.invalidIds++[guardianId] }

def Tally.accept (tally : Tally) (guardianId : String) : Tally :=
  { tally with validIds := tally.validIds++[guardianId] }

def isValidRosterShape (roster : GuardianRoster) : Bool := (validateRosterShape roster).isOk

/-- The fields of an approval that its signature does not cover agree with what it is checked against. -/
def approvalDeclaresSameTarget (approval : GuardianApproval) (input : ApprovalSigningInput) : Bool :=
  approval.cascadeId=input.cascadeId && approval.recoveryAction=input.recoveryAction

section Evaluation

variable (env : MeshEnv) (roster : GuardianRoster) (input : ApprovalSigningInput) (signedBytes : List UInt8)

/-- A key is seen with the first approval that names it, whether the signature verifies or not. -/
def tallyApproval (tally : Tally) (approval : GuardianApproval) : Tally :=
  if approval.guardianId∈tally.seen then tally.reject approval.guardianId
  else
    let tally := { tally with seen := approval.guardianId::tally.seen }
    if approval.signatureScheme≠signatureSchemeV1 then tally.reject approval.guardianId
    else if approvalDeclaresSameTarget approval input=false then tally.reject approval.guardianId
    else
      match roster.byId approval.guardianId with
      | none => tally.reject approval.guardianId
      | some guardian =>
        match canonicalGuardianKey guardian.publicKey with
        | .error _ => tally.reject approval.guardianId
        | .ok canonicalKey =>
          if canonicalKey∈tally.seenKeys then tally.reject approval.guardianId
          else
            let tally := { tally with seenKeys := canonicalKey::tally.seenKeys }
            if env.signed approval.signature signedBytes guardian.publicKey=true then tally.accept approval.guardianId
            else tally.reject approval.guardianId

/-- A threshold that is given is never above the roster's own. -/
def thresholdOf (effectiveM : Option Int) : Int :=
  match effectiveM with
  | some m => min m roster.m
  | none => roster.m

def evaluateThreshold (approvals : List GuardianApproval) (effectiveM : Option Int) :
    Except ThresholdRefusal ThresholdEvaluationResult :=
  let refused : ThresholdEvaluationResult :=
    { thresholdMet := false, validCount := 0, thresholdM := thresholdOf roster effectiveM, totalN := roster.n
      validGuardianIds := [], invalidGuardianIds := approvals.map (·.guardianId) }
  if isValidRosterShape roster=false then .ok refused
  else if input.rosterVersion≠roster.version then .ok refused
  else
    match canonicalizeToBytes input.value with
    | .error _ => .error .invalid
    | .ok signedBytes =>
      let tally := approvals.foldl (tallyApproval env roster input signedBytes) ⟨[],[],[],[]⟩
      .ok
        { thresholdMet := decide (thresholdOf roster effectiveM ≤ tally.validIds.length)
          validCount := tally.validIds.length
          thresholdM := thresholdOf roster effectiveM
          totalN := roster.n
          validGuardianIds := tally.validIds
          invalidGuardianIds := tally.invalidIds }

def enforceThreshold (approvals : List GuardianApproval) (expectedRosterVersion effectiveM : Option Int) :
    Except ThresholdRefusal ThresholdEvaluationResult := do
  require (∀ version∈expectedRosterVersion, roster.version=version) .rosterStale
  require (roster.version=input.rosterVersion) .rosterStale
  let result ← evaluateThreshold env roster input approvals effectiveM
  require (result.thresholdMet=true) .thresholdNotMet
  return result

end Evaluation

def GuardianApproval.toSignature (approval : GuardianApproval) : GuardianSignature :=
  ⟨approval.guardianId,approval.signature⟩

structure Tallied (env : MeshEnv) (roster : GuardianRoster) (signedBytes : List UInt8)
    (approvals : List GuardianApproval) (tally : Tally) (signers : List GuardianIdentity) : Prop where
  signedBy : SignedBy env roster signedBytes (approvals.map GuardianApproval.toSignature) signers
  ids : tally.validIds=signers.map GuardianIdentity.guardianId
  keys : ∀ g∈signers, g.publicKey∈tally.seenKeys

section Tallies

variable {env : MeshEnv} {roster : GuardianRoster} {input : ApprovalSigningInput} {signedBytes : List UInt8}
  {approvals : List GuardianApproval} {tally : Tally} {signers : List GuardianIdentity}

/-- One more approval, which is not counted. -/
theorem Tallied.reject (h : Tallied env roster signedBytes approvals tally signers) (approval : GuardianApproval)
    {tally' : Tally} (hids : tally'.validIds=tally.validIds) (hkey : ∀ key∈tally.seenKeys, key∈tally'.seenKeys) :
    Tallied env roster signedBytes (approvals++[approval]) tally' signers where
  signedBy :=
    { h.signedBy with
      signed := by
        intro g hg
        obtain ⟨sig,hsig,hby⟩ := h.signedBy.signed g hg
        rw [List.map_append]
        exact ⟨sig,List.mem_append_left _ hsig,hby⟩ }
  ids := hids.trans h.ids
  keys := fun g hg => hkey g.publicKey (h.keys g hg)

/-- A guardian whose key has not been seen has another key than the signers. -/
theorem Tallied.accept (h : Tallied env roster signedBytes approvals tally signers) {approval : GuardianApproval}
    {guardian : GuardianIdentity} (hgua : roster.byId approval.guardianId=some guardian)
    (hcan : toBase64url (decodeBase64url guardian.publicKey)=guardian.publicKey)
    (hfre : guardian.publicKey∉tally.seenKeys)
    (hsid : env.signed approval.signature signedBytes guardian.publicKey=true) {tally' : Tally}
    (hids : tally'.validIds=tally.validIds++[approval.guardianId])
    (hkey : tally'.seenKeys=guardian.publicKey::tally.seenKeys) :
    Tallied env roster signedBytes (approvals++[approval]) tally' (signers++[guardian]) where
  signedBy :=
    { inRoster := by
        rw [List.forall_mem_append]
        exact ⟨h.signedBy.inRoster,List.forall_mem_singleton.mpr (mem_of_byId hgua).1⟩
      canonical := by
        rw [List.forall_mem_append]
        exact ⟨h.signedBy.canonical,List.forall_mem_singleton.mpr hcan⟩
      distinct := by
        rw [List.map_append,List.map_singleton,List.nodup_append]
        refine ⟨h.signedBy.distinct,List.nodup_singleton _,?_⟩
        intro bytes hbyt other hoth heq
        obtain ⟨g,hg,rfl⟩ := List.mem_map.mp hbyt
        rw [List.mem_singleton.mp hoth] at heq
        -- equal bytes have one canonical spelling
        have hspe : g.publicKey=guardian.publicKey := by
          rw [← h.signedBy.canonical g hg,heq,GuardianIdentity.keyBytes,hcan]
        exact hfre (hspe ▸ h.keys g hg)
      signed := by
        rw [List.map_append,List.forall_mem_append]
        constructor
        · intro g hg
          obtain ⟨sig,hsig,hby⟩ := h.signedBy.signed g hg
          exact ⟨sig,List.mem_append_left _ hsig,hby⟩
        · refine List.forall_mem_singleton.mpr ⟨approval.toSignature,?_,hgua,hsid⟩
          exact List.mem_append_right _ (List.mem_singleton_self _) }
  ids := by
    rw [hids,h.ids,List.map_append,List.map_singleton,(mem_of_byId hgua).2]
  keys := by
    rw [hkey,List.forall_mem_append]
    exact ⟨fun g hg => List.mem_cons_of_mem _ (h.keys g hg),List.forall_mem_singleton.mpr List.mem_cons_self⟩

theorem Tallied.step (h : Tallied env roster signedBytes approvals tally signers) (approval : GuardianApproval) :
    ∃ signers', Tallied env roster signedBytes (approvals++[approval])
      (tallyApproval env roster input signedBytes tally approval) signers' := by
  have hrej : ∀ {tally' : Tally}, tally'.validIds=tally.validIds → tally'.seenKeys=tally.seenKeys →
      ∃ signers', Tallied env roster signedBytes (approvals++[approval]) tally' signers' := by
    intro tally' hids hkes
    exact ⟨signers,h.reject approval hids fun key hkey => hkes ▸ hkey⟩
  rw [tallyApproval]
  by_cases hsee : approval.guardianId∈tally.seen
  · rw [if_pos hsee]
    exact hrej rfl rfl
  rw [if_neg hsee]
  by_cases hsch : approval.signatureScheme≠signatureSchemeV1
  · rw [if_pos hsch]
    exact hrej rfl rfl
  rw [if_neg hsch]
  by_cases htar : approvalDeclaresSameTarget approval input=false
  · rw [if_pos htar]
    exact hrej rfl rfl
  rw [if_neg htar]
  cases hgua : roster.byId approval.guardianId with
  | none => exact hrej rfl rfl
  | some guardian =>
    cases hkey : canonicalGuardianKey guardian.publicKey with
    | error refusal =>
      simp only [hkey]
      exact hrej rfl rfl
    | ok key =>
      obtain ⟨rfl,hcan⟩ := canonicalGuardianKey_ok hkey
      simp only [hkey]
      by_cases hfre : guardian.publicKey∈tally.seenKeys
      · rw [if_pos hfre]
        exact hrej rfl rfl
      rw [if_neg hfre]
      by_cases hsig : env.signed approval.signature signedBytes guardian.publicKey=true
      · rw [if_pos hsig]
        exact ⟨signers++[guardian],h.accept hgua hcan hfre hsig rfl rfl⟩
      · rw [if_neg hsig]
        exact ⟨signers,h.reject approval rfl fun key hkey => List.mem_cons_of_mem _ hkey⟩

theorem Tallied.foldl (rest : List GuardianApproval) (h : Tallied env roster signedBytes approvals tally signers) :
    ∃ signers', Tallied env roster signedBytes (approvals++rest)
      (rest.foldl (tallyApproval env roster input signedBytes) tally) signers' := by
  induction rest generalizing approvals tally signers with
  | nil => exact ⟨signers,by rwa [List.append_nil]⟩
  | cons approval rest ih =>
    obtain ⟨signers',hste⟩ := h.step approval
    obtain ⟨signers'',hres⟩ := ih hste
    exact ⟨signers'',by rwa [List.append_assoc,List.singleton_append] at hres⟩

theorem evaluateThreshold_ok {effectiveM : Option Int} {result : ThresholdEvaluationResult}
    (h : evaluateThreshold env roster input approvals effectiveM=.ok result) :
    (result.validGuardianIds=[] ∧ result.thresholdMet=false) ∨
    ∃ bytes signers, validateRosterShape roster=.ok () ∧ input.rosterVersion=roster.version ∧
      canonicalizeToBytes input.value=.ok bytes ∧
      SignedBy env roster bytes (approvals.map GuardianApproval.toSignature) signers ∧
      result.validGuardianIds=signers.map GuardianIdentity.guardianId ∧
      (result.thresholdMet=true → thresholdOf roster effectiveM ≤ signers.length) := by
  rw [evaluateThreshold] at h
  by_cases hsha : isValidRosterShape roster=false
  · rw [if_pos hsha] at h
    cases h
    exact .inl ⟨rfl,rfl⟩
  rw [if_neg hsha] at h
  by_cases hver : input.rosterVersion≠roster.version
  · rw [if_pos hver] at h
    cases h
    exact .inl ⟨rfl,rfl⟩
  rw [if_neg hver] at h
  cases hbyt : canonicalizeToBytes input.value with
  | error refusal =>
    rw [hbyt] at h
    cases h
  | ok bytes =>
    simp only [hbyt] at h
    cases h
    have hsta : Tallied env roster bytes [] ⟨[],[],[],[]⟩ [] :=
      ⟨⟨by simp,by simp,by simp,by simp⟩,rfl,by simp⟩
    obtain ⟨signers,htal⟩ := hsta.foldl approvals
    have hval : validateRosterShape roster=.ok () := by
      cases hres : validateRosterShape roster with
      | error refusal => simp [isValidRosterShape,hres,Except.isOk,Except.toBool] at hsha
      | ok u => rfl
    refine .inr ⟨bytes,signers,hval,not_not.mp hver,rfl,htal.signedBy,htal.ids,fun hmet => ?_⟩
    rw [htal.ids,List.length_map] at hmet
    exact of_decide_eq_true hmet

/-- An enforced threshold is met by guardians of the roster with distinct keys, who signed the input. -/
theorem enforceThreshold_ok {expectedRosterVersion effectiveM : Option Int} {result : ThresholdEvaluationResult}
    (h : enforceThreshold env roster input approvals expectedRosterVersion effectiveM=.ok result) :
    ∃ bytes signers, validateRosterShape roster=.ok () ∧ input.rosterVersion=roster.version ∧
      canonicalizeToBytes input.value=.ok bytes ∧
      SignedBy env roster bytes (approvals.map GuardianApproval.toSignature) signers ∧
      result.validGuardianIds=signers.map GuardianIdentity.guardianId ∧
      thresholdOf roster effectiveM ≤ signers.length := by
  rw [enforceThreshold,Outcome.require_bind_eq_ok,Outcome.require_bind_eq_ok] at h
  obtain ⟨-,-,h⟩ := h
  obtain ⟨evaluated,heva,h⟩ := Outcome.bind_ok h
  rw [Outcome.require_bind_eq_ok] at h
  obtain ⟨hmet,h⟩ := h
  cases h
  rcases evaluateThreshold_ok heva with ⟨-,hnot⟩ | ⟨bytes,signers,hsha,hver,hbyt,hsig,hids,hcou⟩
  · rw [hmet] at hnot
    cases hnot
  · exact ⟨bytes,signers,hsha,hver,hbyt,hsig,hids,hcou hmet⟩

end Tallies

end CastleWall.Federation
