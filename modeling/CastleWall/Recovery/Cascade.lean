import CastleWall.Federation.NoWeakening

/-! # Recovery cascades

`recovery/cascade.ts` and `recovery/recovery-service.ts`: approvals are stored as they come, one for each guardian id, and
their signatures are checked when the cascade is evaluated. An execution reads the stored cascade, starts its executor,
and stores what became of it when the executor is done. -/

namespace CastleWall.Recovery

open Mesh Federation
open Outcome (require)

inductive CascadeStateCode where
  | idle | triggered | awaitingThreshold | thresholdMet | executing | completed | failed
deriving DecidableEq

structure CascadeState where
  cascadeId : String
  state : CascadeStateCode
  (action fortressId : String)
  (rosterVersion thresholdM thresholdN : Int)
  approvals : List GuardianApproval

inductive CascadeError where
  | notFound | notAwaiting | cascadeMismatch | actionMismatch | duplicateGuardian | invalidTransition
  | thresholdNotMet | unserializable

def validTransitions : CascadeStateCode → List CascadeStateCode
  | .idle => [.triggered]
  | .triggered => [.awaitingThreshold]
  | .awaitingThreshold => [.thresholdMet,.failed]
  | .thresholdMet => [.executing]
  | .executing => [.completed,.failed]
  | .completed => []
  | .failed => []

def assertTransition (current next : CascadeStateCode) : Except CascadeError Unit :=
  require (next∈validTransitions current) .invalidTransition

structure RecoveryStore where
  cascades : OrderedMap String CascadeState
  keyed : ∀ cascadeId cascade, cascades.get cascadeId=some cascade → cascade.cascadeId=cascadeId

def RecoveryStore.get (store : RecoveryStore) (cascadeId : String) : Option CascadeState :=
  store.cascades.get cascadeId

def RecoveryStore.set (store : RecoveryStore) (cascade : CascadeState) : RecoveryStore where
  cascades := store.cascades.set cascade.cascadeId cascade
  keyed := by
    intro cascadeId other hget
    rw [OrderedMap.get_set] at hget
    split_ifs at hget with hid
    · cases hget
      exact hid.symm
    · exact store.keyed cascadeId other hget

theorem RecoveryStore.get_set (store : RecoveryStore) (cascade : CascadeState) (cascadeId : String) :
    (store.set cascade).get cascadeId=if cascadeId=cascade.cascadeId then some cascade else store.get cascadeId :=
  OrderedMap.get_set _ _ _ _

def initiateCascade (cascadeId action fortressId : String) (roster : GuardianRoster) : CascadeState :=
  ⟨cascadeId,.triggered,action,fortressId,roster.version,roster.m,roster.n,[]⟩

def beginAwaitingThreshold (cascade : CascadeState) : Except CascadeError CascadeState := do
  assertTransition cascade.state .awaitingThreshold
  return { cascade with state := .awaitingThreshold }

def initRecovery (store : RecoveryStore) (cascadeId action fortressId : String) (roster : GuardianRoster) :
    Except CascadeError RecoveryStore := do
  let cascade ← beginAwaitingThreshold (initiateCascade cascadeId action fortressId roster)
  return store.set cascade

def registerApproval (cascade : CascadeState) (approval : GuardianApproval) : Except CascadeError CascadeState := do
  require (cascade.state=.awaitingThreshold) .notAwaiting
  require (approval.cascadeId=cascade.cascadeId) .cascadeMismatch
  require (approval.recoveryAction=cascade.action) .actionMismatch
  require (approval.guardianId∉cascade.approvals.map (·.guardianId)) .duplicateGuardian
  return { cascade with approvals := cascade.approvals++[approval] }

def CascadeState.signingInput (cascade : CascadeState) : ApprovalSigningInput :=
  ⟨cascade.cascadeId,cascade.action,cascade.fortressId,cascade.rosterVersion⟩

section Service

variable (env : MeshEnv) (roster : GuardianRoster)

def evaluateCascade (cascade : CascadeState) : Except CascadeError CascadeState :=
  if cascade.state≠.awaitingThreshold then .ok cascade
  else
    match evaluateThreshold env roster cascade.signingInput cascade.approvals none with
    | .error _ => .error .unserializable
    | .ok result => .ok (if result.thresholdMet then { cascade with state := .thresholdMet } else cascade)

def approve (cascade : CascadeState) (approval : GuardianApproval) : Except CascadeError CascadeState := do
  let registered ← registerApproval cascade approval
  evaluateCascade env roster registered

def registerGuardianApproval (store : RecoveryStore) (cascadeId : String) (approval : GuardianApproval) :
    Except CascadeError RecoveryStore :=
  match store.get cascadeId with
  | none => .error .notFound
  | some cascade => do
    let evaluated ← approve env roster cascade approval
    return store.set evaluated

def registerAll (cascadeId : String) (store : RecoveryStore) (approvals : List GuardianApproval) : RecoveryStore :=
  approvals.foldl
    (fun store approval => (registerGuardianApproval env roster store cascadeId approval).toOption.getD store) store

def tallied (input : ApprovalSigningInput) (approvals : List GuardianApproval) :
    Except ThresholdRefusal (Bool × List String) :=
  (evaluateThreshold env roster input approvals none).map fun result => (result.thresholdMet,result.validGuardianIds)

def counted (cascade : CascadeState) : List String :=
  match evaluateThreshold env roster cascade.signingInput cascade.approvals none with
  | .error _ => []
  | .ok result => result.validGuardianIds

def verifies (input : ApprovalSigningInput) (approval : GuardianApproval) : Bool :=
  match canonicalizeToBytes input.value,roster.byId approval.guardianId with
  | .ok signedBytes,some guardian => env.signed approval.signature signedBytes guardian.publicKey
  | _,_ => false

end Service

section Tally

variable {env : MeshEnv} {roster : GuardianRoster} {input : ApprovalSigningInput} {signedBytes : List UInt8}

theorem validateGuardians_keys {guardians : List GuardianIdentity} {seen seenKeys : List String} {u : Unit}
    (h : validateGuardians seen seenKeys guardians=.ok u) :
    (guardians.map GuardianIdentity.publicKey).Nodup ∧
      ∀ g∈guardians, canonicalGuardianKey g.publicKey=.ok g.publicKey ∧ g.publicKey∉seenKeys := by
  induction guardians generalizing seen seenKeys with
  | nil => simp
  | cons g guardians ih =>
    simp only [validateGuardians,Outcome.require_bind_eq_ok] at h
    obtain ⟨key,hkey,h⟩ := Outcome.bind_ok h.2
    obtain ⟨rfl,-⟩ := canonicalGuardianKey_ok hkey
    rw [Outcome.require_bind_eq_ok] at h
    obtain ⟨hnod,hres⟩ := ih h.2
    constructor
    · rw [List.map_cons,List.nodup_cons]
      refine ⟨?_,hnod⟩
      intro hmem
      obtain ⟨other,hoth,hsam⟩ := List.mem_map.mp hmem
      exact (hres other hoth).2 (hsam ▸ List.mem_cons_self)
    · rw [List.forall_mem_cons]
      refine ⟨⟨hkey,h.1⟩,fun other hoth => ⟨(hres other hoth).1,fun hmem => ?_⟩⟩
      exact (hres other hoth).2 (List.mem_cons_of_mem _ hmem)

/-- In a roster of the right shape a key is canonical and belongs to one guardian id. -/
theorem keys_of_shape (hsha : validateRosterShape roster=.ok ()) {g other : GuardianIdentity}
    (hg : g∈roster.guardians) (hoth : other∈roster.guardians) :
    canonicalGuardianKey g.publicKey=.ok g.publicKey ∧ (g.publicKey=other.publicKey → g=other) := by
  simp only [validateRosterShape,Outcome.require_bind_eq_ok] at hsha
  obtain ⟨hnod,hkey⟩ := validateGuardians_keys hsha.2.2
  exact ⟨(hkey g hg).1,List.inj_on_of_nodup_map hnod hg hoth⟩

def counts (env : MeshEnv) (roster : GuardianRoster) (input : ApprovalSigningInput) (signedBytes : List UInt8)
    (approval : GuardianApproval) : Bool :=
  approval.signatureScheme=signatureSchemeV1 && approvalDeclaresSameTarget approval input &&
    (roster.byId approval.guardianId).any fun guardian => env.signed approval.signature signedBytes guardian.publicKey

/-- The ids that have been seen are apart from those to come, and the keys are those of guardians that were seen. -/
structure Apart (roster : GuardianRoster) (tally : Tally) (approvals : List GuardianApproval) : Prop where
  nodup : (approvals.map (·.guardianId)).Nodup
  fresh : ∀ approval∈approvals, approval.guardianId∉tally.seen
  keys : ∀ key∈tally.seenKeys, ∃ g, roster.byId g.guardianId=some g ∧ g.guardianId∈tally.seen ∧ g.publicKey=key

theorem Apart.step {tally : Tally} {approval : GuardianApproval} {rest : List GuardianApproval}
    (hsha : validateRosterShape roster=.ok ()) (h : Apart roster tally (approval::rest)) (env : MeshEnv)
    (input : ApprovalSigningInput) (signedBytes : List UInt8) :
    Apart roster (tallyApproval env roster input signedBytes tally approval) rest ∧
      (tallyApproval env roster input signedBytes tally approval).validIds =
        tally.validIds++([approval].filter (counts env roster input signedBytes)).map (·.guardianId) := by
  obtain ⟨hnod,hfre,hkes⟩ := h
  rw [List.map_cons,List.nodup_cons] at hnod
  rw [List.forall_mem_cons] at hfre
  have hres : ∀ other∈rest, other.guardianId∉approval.guardianId::tally.seen := by
    intro other hoth hmem
    rcases List.mem_cons.mp hmem with hsam | hsee
    · exact hnod.1 (hsam ▸ List.mem_map_of_mem hoth)
    · exact hfre.2 other hoth hsee
  have hold : ∀ key∈tally.seenKeys,∃ g, roster.byId g.guardianId=some g ∧
      g.guardianId∈approval.guardianId::tally.seen ∧ g.publicKey=key := by
    intro key hkey
    obtain ⟨g,hg,hsee,hpub⟩ := hkes key hkey
    exact ⟨g,hg,List.mem_cons_of_mem _ hsee,hpub⟩
  rw [tallyApproval,if_neg hfre.1]
  by_cases hsch : approval.signatureScheme≠signatureSchemeV1
  · rw [if_pos hsch]
    exact ⟨⟨hnod.2,hres,hold⟩,by simp [Tally.reject,counts,hsch]⟩
  rw [if_neg hsch]
  by_cases htar : approvalDeclaresSameTarget approval input=false
  · rw [if_pos htar]
    exact ⟨⟨hnod.2,hres,hold⟩,by simp [Tally.reject,counts,htar]⟩
  rw [if_neg htar]
  cases hgua : roster.byId approval.guardianId with
  | none => exact ⟨⟨hnod.2,hres,hold⟩,by simp [Tally.reject,counts,hgua]⟩
  | some guardian =>
    obtain ⟨hmem,hid⟩ := mem_of_byId hgua
    have hkey := (keys_of_shape hsha hmem hmem).1
    -- a key that was seen belongs to a guardian that was seen
    have hnew : guardian.publicKey∉tally.seenKeys := by
      intro hsee
      obtain ⟨g,hg,hgse,hpub⟩ := hkes _ hsee
      have hsam := (keys_of_shape hsha (mem_of_byId hg).1 hmem).2 hpub
      rw [hsam,hid] at hgse
      exact hfre.1 hgse
    have hsel : ∀ key∈guardian.publicKey::tally.seenKeys, ∃ g, roster.byId g.guardianId=some g ∧
        g.guardianId∈approval.guardianId::tally.seen ∧ g.publicKey=key := by
      rw [List.forall_mem_cons]
      exact ⟨⟨guardian,hid ▸ hgua,hid ▸ List.mem_cons_self,rfl⟩,hold⟩
    have hcou : counts env roster input signedBytes approval =
        env.signed approval.signature signedBytes guardian.publicKey := by
      rw [counts,hgua,not_not.mp hsch,Bool.not_eq_false _ |>.mp htar]
      simp
    simp only [hkey,if_neg hnew]
    by_cases hsig : env.signed approval.signature signedBytes guardian.publicKey=true
    · rw [if_pos hsig]
      exact ⟨⟨hnod.2,hres,hsel⟩,by simp [Tally.accept,hcou,hsig]⟩
    · rw [if_neg hsig]
      exact ⟨⟨hnod.2,hres,hsel⟩,by simp [Tally.reject,hcou,hsig]⟩

theorem Apart.foldl {tally : Tally} {approvals : List GuardianApproval} (hsha : validateRosterShape roster=.ok ())
    (h : Apart roster tally approvals) :
    (approvals.foldl (tallyApproval env roster input signedBytes) tally).validIds =
      tally.validIds++(approvals.filter (counts env roster input signedBytes)).map (·.guardianId) := by
  induction approvals generalizing tally with
  | nil => simp
  | cons approval rest ih =>
    obtain ⟨hste,hids⟩ := h.step hsha env input signedBytes
    rw [List.foldl_cons,ih hste,hids,List.append_assoc,← List.map_append,← List.filter_append,List.singleton_append]

theorem verifies_of_counts (hbyt : canonicalizeToBytes input.value=.ok signedBytes) {approval : GuardianApproval}
    (h : counts env roster input signedBytes approval=true) : verifies env roster input approval=true := by
  rw [counts,Bool.and_eq_true] at h
  rw [verifies,hbyt]
  cases hgua : roster.byId approval.guardianId with
  | none => simp [hgua] at h
  | some guardian => simpa [hgua] using h.2

/-- An evaluation is settled before it looks at the approvals, or counts each that `counts`, where no two have the same
guardian. -/
theorem tallied_cases (env : MeshEnv) (roster : GuardianRoster) (input : ApprovalSigningInput) :
    (∃ answer, ∀ approvals, tallied env roster input approvals=answer) ∨
    ∃ bytes, canonicalizeToBytes input.value=.ok bytes ∧
      ∀ approvals : List GuardianApproval, (approvals.map (·.guardianId)).Nodup →
        let ids := (approvals.filter (counts env roster input bytes)).map (·.guardianId)
        tallied env roster input approvals=.ok (decide (thresholdOf roster none ≤ ids.length),ids) := by
  simp only [tallied,evaluateThreshold]
  by_cases hinv : isValidRosterShape roster=false
  · exact .inl ⟨.ok (false,[]),fun _ => by rw [if_pos hinv]; rfl⟩
  by_cases hver : input.rosterVersion≠roster.version
  · exact .inl ⟨.ok (false,[]),fun _ => by rw [if_neg hinv,if_pos hver]; rfl⟩
  simp only [if_neg hinv,if_neg hver]
  cases hbyt : canonicalizeToBytes input.value with
  | error refusal => exact .inl ⟨_,fun _ => rfl⟩
  | ok bytes =>
    have hsha : validateRosterShape roster=.ok () := by
      cases hres : validateRosterShape roster with
      | error refusal => simp [isValidRosterShape,hres,Except.isOk,Except.toBool] at hinv
      | ok u => rfl
    refine .inr ⟨bytes,rfl,fun approvals hnod => ?_⟩
    have hapa : Apart roster ⟨[],[],[],[]⟩ approvals := ⟨hnod,by simp,by simp⟩
    simp only [Except.map,hapa.foldl hsha,List.nil_append]

variable {approvals others : List GuardianApproval}

/-- Only approvals whose signatures verify have a part in an evaluation, where no two have the same guardian. -/
theorem tallied_congr (hnod : (approvals.map (·.guardianId)).Nodup) (hoth : (others.map (·.guardianId)).Nodup)
    (h : approvals.filter (verifies env roster input)=others.filter (verifies env roster input)) :
    tallied env roster input approvals=tallied env roster input others := by
  rcases tallied_cases env roster input with ⟨answer,hans⟩ | ⟨bytes,hbyt,heva⟩
  · rw [hans,hans]
  · have hcou : ∀ list : List GuardianApproval, list.filter (counts env roster input bytes) =
        (list.filter (verifies env roster input)).filter (counts env roster input bytes) := by
      intro list
      rw [List.filter_filter]
      refine List.filter_congr fun approval _ => ?_
      cases hcou : counts env roster input bytes approval with
      | false => rfl
      | true => rw [verifies_of_counts hbyt hcou,Bool.and_self]
    rw [heva approvals hnod,heva others hoth,hcou approvals,hcou others,h]

theorem guardians_nodup (hsub : approvals.Subperm others) (hoth : (others.map (·.guardianId)).Nodup) :
    (approvals.map (·.guardianId)).Nodup := by
  obtain ⟨list,hper,hlis⟩ := hsub
  exact (hper.map _).nodup_iff.mp (hoth.sublist (hlis.map _))

/-- A threshold that is met stays met with more approvals, in whatever order they stand. -/
theorem tallied_mono (hsub : approvals.Subperm others) (hoth : (others.map (·.guardianId)).Nodup) {ids : List String}
    (h : tallied env roster input approvals=.ok (true,ids)) :
    ∃ more, tallied env roster input others=.ok (true,more) := by
  rcases tallied_cases env roster input with ⟨answer,hans⟩ | ⟨bytes,-,heva⟩
  · exact ⟨ids,by rw [hans,← h,hans]⟩
  · rw [heva approvals (guardians_nodup hsub hoth)] at h
    have hmet := of_decide_eq_true (Prod.mk.inj (Except.ok.inj h)).1
    have hlen := (hsub.filter (counts env roster input bytes)).length_le
    rw [heva others hoth]
    simp only [List.length_map] at hmet ⊢
    simp only [Except.ok.injEq,Prod.mk.injEq,decide_eq_true_eq,exists_and_left,exists_eq',and_true]
    omega

end Tally

section Mirror

variable {env : MeshEnv} {roster : GuardianRoster} {input : ApprovalSigningInput}
  {cascade next honest mixed : CascadeState} {approval : GuardianApproval}

def Admits (cascade : CascadeState) (approval : GuardianApproval) : Prop :=
  cascade.state=.awaitingThreshold ∧ approval.cascadeId=cascade.cascadeId ∧
    approval.recoveryAction=cascade.action ∧ approval.guardianId∉cascade.approvals.map (·.guardianId)

theorem approve_eq_ok : approve env roster cascade approval=.ok next ↔ Admits cascade approval ∧
    ∃ met ids, tallied env roster cascade.signingInput (cascade.approvals++[approval])=.ok (met,ids) ∧
      next = { cascade with
        state := if met then .thresholdMet else cascade.state
        approvals := cascade.approvals++[approval] } := by
  rw [approve,registerApproval]
  by_cases hadm : Admits cascade approval
  · obtain ⟨hsta,hid,hact,hnew⟩ := hadm
    simp only [require,if_pos hsta,if_pos hid,if_pos hact,if_pos hnew,bind,Except.bind,pure,Except.pure,
      evaluateCascade,if_neg (not_not.mpr hsta),CascadeState.signingInput,Admits,tallied]
    cases evaluateThreshold env roster _ _ none with
    | error refusal => simp [Except.map]
    | ok result =>
      constructor
      · intro h
        cases h
        refine ⟨⟨hsta,hid,hact,hnew⟩,result.thresholdMet,result.validGuardianIds,rfl,?_⟩
        split_ifs
        · rfl
        · rfl
      · rintro ⟨-,met,ids,heq,rfl⟩
        cases heq
        dsimp only
        split_ifs
        · rfl
        · rfl
  · refine iff_of_false (fun h => ?_) fun h => hadm h.1
    obtain ⟨registered,hreg,-⟩ := Outcome.bind_ok h
    simp only [Outcome.require_bind_eq_ok] at hreg
    exact hadm ⟨hreg.1,hreg.2.1,hreg.2.2.1,hreg.2.2.2.1⟩

def approveOrKeep (env : MeshEnv) (roster : GuardianRoster) (cascade : CascadeState) (approval : GuardianApproval) :
    CascadeState := (approve env roster cascade approval).toOption.getD cascade

theorem approveOrKeep_cases (env : MeshEnv) (roster : GuardianRoster) (cascade : CascadeState)
    (approval : GuardianApproval) :
    (Admits cascade approval ∧ ∃ met ids,
      tallied env roster cascade.signingInput (cascade.approvals++[approval])=.ok (met,ids) ∧
      approveOrKeep env roster cascade approval = { cascade with
        state := if met then .thresholdMet else cascade.state
        approvals := cascade.approvals++[approval] }) ∨
    approveOrKeep env roster cascade approval=cascade ∧ (Admits cascade approval → ∀ answer,
      tallied env roster cascade.signingInput (cascade.approvals++[approval])≠.ok answer) := by
  rw [approveOrKeep]
  cases happ : approve env roster cascade approval with
  | error refusal =>
    refine .inr ⟨rfl,fun hadm answer hans => ?_⟩
    cases happ.symm.trans (approve_eq_ok.mpr ⟨hadm,answer.1,answer.2,hans,rfl⟩)
  | ok next =>
    obtain ⟨hadm,met,ids,htal,hnex⟩ := approve_eq_ok.mp happ
    exact .inl ⟨hadm,met,ids,htal,hnex⟩

/-- Two cascades that differ in approvals whose signatures do not verify, and do not have enough of the others. -/
structure Mirrors (env : MeshEnv) (roster : GuardianRoster) (input : ApprovalSigningInput)
    (honest mixed : CascadeState) : Prop where
  input_eq : honest.signingInput=input
  same : mixed = { honest with approvals := mixed.approvals }
  kept : honest.approvals=mixed.approvals.filter (verifies env roster input)
  nodup : (mixed.approvals.map (·.guardianId)).Nodup
  unmet : honest.state=.awaitingThreshold → ∀ ids, tallied env roster input honest.approvals≠.ok (true,ids)

theorem Mirrors.honest_nodup (h : Mirrors env roster input honest mixed) :
    (honest.approvals.map (·.guardianId)).Nodup := by
  rw [h.kept]
  exact (List.filter_sublist.map _).nodup h.nodup

theorem Mirrors.signingInput (h : Mirrors env roster input honest mixed) : mixed.signingInput=input := by
  rw [h.same,← h.input_eq]
  rfl

theorem Mirrors.state (h : Mirrors env roster input honest mixed) : mixed.state=honest.state := by
  rw [h.same]

theorem Mirrors.honest_kept (h : Mirrors env roster input honest mixed) :
    honest.approvals.filter (verifies env roster input)=honest.approvals := by
  rw [h.kept,List.filter_filter]
  simp only [Bool.and_self]

theorem nodup_of_admits (h : (cascade.approvals.map (·.guardianId)).Nodup) (hadm : Admits cascade approval) :
    ((cascade.approvals++[approval]).map (·.guardianId)).Nodup := by
  rw [List.map_append,List.map_singleton,← List.concat_eq_append,List.nodup_concat]
  exact ⟨hadm.2.2.2,h⟩

theorem Mirrors.forged (h : Mirrors env roster input honest mixed) (hfor : verifies env roster input approval=false) :
    Mirrors env roster input honest (approveOrKeep env roster mixed approval) := by
  rcases approveOrKeep_cases env roster mixed approval with ⟨hadm,met,ids,htal,htak⟩ | ⟨hkep,-⟩
  · have hnod := nodup_of_admits h.nodup hadm
    have hfil : (mixed.approvals++[approval]).filter (verifies env roster input)=honest.approvals := by
      rw [List.filter_append,List.filter_cons_of_neg (by simp [hfor]),List.filter_nil,List.append_nil,h.kept]
    rw [h.signingInput,tallied_congr hnod h.honest_nodup (hfil.trans h.honest_kept.symm)] at htal
    have hunm : met≠true := by
      rintro rfl
      exact h.unmet (h.state ▸ hadm.1) ids htal
    rw [htak]
    refine ⟨h.input_eq,?_,hfil.symm,hnod,h.unmet⟩
    rw [if_neg hunm,h.same]
  · rw [hkep]
    exact h

/-- A valid approval is taken by both or by neither, where no forged one stands under its id. -/
theorem Mirrors.valid (h : Mirrors env roster input honest mixed) (hval : verifies env roster input approval=true)
    (hcle : ∀ other∈mixed.approvals, verifies env roster input other=false →
      other.guardianId≠approval.guardianId) :
    Mirrors env roster input (approveOrKeep env roster honest approval) (approveOrKeep env roster mixed approval) := by
  have hids : approval.guardianId∈mixed.approvals.map (·.guardianId) ↔
      approval.guardianId∈honest.approvals.map (·.guardianId) := by
    rw [h.kept,List.mem_map,List.mem_map]
    constructor
    · rintro ⟨other,hoth,hid⟩
      refine ⟨other,List.mem_filter.mpr ⟨hoth,?_⟩,hid⟩
      by_contra hfor
      exact hcle other hoth (Bool.not_eq_true _ ▸ hfor) hid
    · rintro ⟨other,hoth,hid⟩
      exact ⟨other,(List.mem_filter.mp hoth).1,hid⟩
  have hadm : Admits mixed approval ↔ Admits honest approval := by
    rw [Admits,Admits,hids,h.same]
  have hkep : (mixed.approvals++[approval]).filter (verifies env roster input)=honest.approvals++[approval] := by
    rw [List.filter_append,List.filter_cons_of_pos hval,List.filter_nil,h.kept]
  have hcon : Admits honest approval → tallied env roster honest.signingInput (honest.approvals++[approval]) =
      tallied env roster mixed.signingInput (mixed.approvals++[approval]) := by
    intro hhon
    rw [h.input_eq,h.signingInput]
    refine tallied_congr (nodup_of_admits h.honest_nodup hhon) (nodup_of_admits h.nodup (hadm.mpr hhon)) ?_
    rw [hkep,List.filter_append,h.honest_kept,List.filter_cons_of_pos hval,List.filter_nil]
  rcases approveOrKeep_cases env roster honest approval with ⟨hhon,met,ids,htal,htak⟩ | ⟨hsam,href⟩
  · rcases approveOrKeep_cases env roster mixed approval with ⟨hmix,met',ids',htal',htak'⟩ | ⟨-,href⟩
    · cases htal'.symm.trans ((hcon hhon).symm.trans htal)
      rw [htak,htak']
      refine ⟨h.input_eq,?_,hkep.symm,nodup_of_admits h.nodup hmix,?_⟩
      · rw [h.same]
      · intro hawa others hote
        rw [h.input_eq] at htal
        cases htal.symm.trans hote
        cases hawa
    · exact absurd ((hcon hhon).symm.trans htal) (href (hadm.mpr hhon) _)
  · rcases approveOrKeep_cases env roster mixed approval with ⟨hmix,met,ids,htal,-⟩ | ⟨hsam',-⟩
    · have hhon := hadm.mp hmix
      exact absurd ((hcon hhon).trans htal) (href hhon _)
    · rw [hsam,hsam']
      exact h

/-- No forged approval that the cascade would take stands before a valid one under the same guardian id. -/
def ForgedBehind (env : MeshEnv) (roster : GuardianRoster) (input : ApprovalSigningInput)
    (approvals : List GuardianApproval) : Prop :=
  approvals.Pairwise fun forged valid => approvalDeclaresSameTarget forged input=true →
    verifies env roster input forged=false → verifies env roster input valid=true →
      forged.guardianId≠valid.guardianId

theorem approvals_approveOrKeep (h : cascade.signingInput=input) :
    (approveOrKeep env roster cascade approval).signingInput=input ∧
      ∀ stored∈(approveOrKeep env roster cascade approval).approvals, stored∈cascade.approvals ∨
        stored=approval ∧ approvalDeclaresSameTarget approval input=true := by
  rcases approveOrKeep_cases env roster cascade approval with ⟨hadm,met,ids,-,htak⟩ | ⟨hkep,-⟩
  · rw [htak]
    refine ⟨h,fun stored hsto => (List.mem_append.mp hsto).imp id fun hlas => ?_⟩
    subst h
    exact ⟨List.mem_singleton.mp hlas,by
      simp [approvalDeclaresSameTarget,CascadeState.signingInput,hadm.2.1,hadm.2.2.1]⟩
  · rw [hkep]
    exact ⟨h,fun stored => .inl⟩

theorem Mirrors.run {approvals : List GuardianApproval} (h : Mirrors env roster input honest mixed)
    (hbeh : ForgedBehind env roster input approvals)
    (hcle : ∀ forged∈mixed.approvals, verifies env roster input forged=false → ∀ valid∈approvals,
      verifies env roster input valid=true → forged.guardianId≠valid.guardianId) :
    Mirrors env roster input
      ((approvals.filter (verifies env roster input)).foldl (approveOrKeep env roster) honest)
      (approvals.foldl (approveOrKeep env roster) mixed) := by
  induction approvals generalizing honest mixed with
  | nil => exact h
  | cons approval rest ih =>
    rw [ForgedBehind,List.pairwise_cons] at hbeh
    have hnex : ∀ forged∈(approveOrKeep env roster mixed approval).approvals,
        verifies env roster input forged=false → ∀ valid∈rest, verifies env roster input valid=true →
          forged.guardianId≠valid.guardianId := by
      intro forged hsto hfor valid hval hver
      rcases (approvals_approveOrKeep h.signingInput).2 forged hsto with hold | ⟨rfl,htar⟩
      · exact hcle forged hold hfor valid (List.mem_cons_of_mem _ hval) hver
      · exact hbeh.1 valid hval htar hfor hver
    rw [List.foldl_cons]
    cases hver : verifies env roster input approval with
    | true =>
      rw [List.filter_cons_of_pos hver,List.foldl_cons]
      refine ih (h.valid hver fun forged hsto hfor => ?_) hbeh.2 hnex
      exact hcle forged hsto hfor approval List.mem_cons_self hver
    | false =>
      rw [List.filter_cons_of_neg (by simp [hver])]
      exact ih (h.forged hver) hbeh.2 hnex

theorem get_registerAll {store : RecoveryStore} {cascadeId : String} (approvals : List GuardianApproval)
    (hget : store.get cascadeId=some cascade) :
    (registerAll env roster cascadeId store approvals).get cascadeId =
      some (approvals.foldl (approveOrKeep env roster) cascade) := by
  induction approvals generalizing store cascade with
  | nil => exact hget
  | cons approval rest ih =>
    rw [registerAll,List.foldl_cons]
    refine ih ?_
    have hid := store.keyed cascadeId cascade hget
    rw [registerGuardianApproval,hget]
    cases happ : approve env roster cascade approval with
    | error refusal => simp [approveOrKeep,happ,bind,Except.bind,Except.toOption,hget]
    | ok next =>
      have hnex : next.cascadeId=cascadeId := by
        obtain ⟨-,met,ids,-,rfl⟩ := approve_eq_ok.mp happ
        exact hid
      simp [approveOrKeep,happ,bind,Except.bind,pure,Except.pure,Except.toOption,RecoveryStore.get_set,hnex]

/-- A cascade that awaits its threshold meets it with all the approvals for it, or still awaits it. -/
theorem state_foldl_approveOrKeep {approvals : List GuardianApproval} (hsta : cascade.state=.awaitingThreshold)
    (hinp : cascade.signingInput=input) (hnod : ((cascade.approvals++approvals).map (·.guardianId)).Nodup)
    (hunm : ∀ ids, tallied env roster input cascade.approvals≠.ok (true,ids)) :
    let meets := ∃ ids, tallied env roster input (cascade.approvals ++
      approvals.filter fun approval => approvalDeclaresSameTarget approval input)=.ok (true,ids)
    meets ∧ (approvals.foldl (approveOrKeep env roster) cascade).state=.thresholdMet ∨
      ¬ meets ∧ (approvals.foldl (approveOrKeep env roster) cascade).state=.awaitingThreshold := by
  induction approvals generalizing cascade with
  | nil =>
    refine .inr ⟨?_,hsta⟩
    rw [List.filter_nil,List.append_nil]
    exact fun ⟨ids,h⟩ => hunm ids h
  | cons approval rest ih =>
    rw [List.append_cons] at hnod
    have hone := hnod.sublist ((List.sublist_append_left _ rest).map _)
    rw [List.foldl_cons]
    rcases approveOrKeep_cases env roster cascade approval with ⟨hadm,met,ids,htal,htak⟩ | ⟨hkep,hfai⟩
    · have htar : approvalDeclaresSameTarget approval input=true := by
        subst hinp
        simp [approvalDeclaresSameTarget,CascadeState.signingInput,hadm.2.1,hadm.2.2.1]
      rw [hinp] at htal
      rw [List.filter_cons,if_pos htar,List.append_cons,htak]
      cases met with
      | false => exact @ih { cascade with approvals := cascade.approvals++[approval] } hsta hinp hnod (by simp [htal])
      | true =>
        -- nothing more is taken, and the approvals to come undo nothing
        refine .inl ⟨tallied_mono (List.sublist_append_left _ _).subperm ?_ htal,?_⟩
        · exact hnod.sublist ((List.filter_sublist.append_left _).map _)
        · rw [if_pos rfl,List.foldl_fixed' fun other => ?_]
          exact (approveOrKeep_cases env roster _ other).elim (fun h => by cases h.1.1) And.left
    · have hres := ih hsta hinp (hnod.sublist (((List.sublist_append_left _ _).append_right _).map _)) hunm
      rw [hkep]
      rcases tallied_cases env roster input with ⟨answer,hans⟩ | ⟨bytes,-,heva⟩
      · simpa only [hans] using hres
      · rw [List.filter_cons_of_neg]
        · exact hres
        · intro htar
          subst hinp
          simp only [approvalDeclaresSameTarget,Bool.and_eq_true,decide_eq_true_eq] at htar
          have hnew := hone
          rw [List.map_append,List.nodup_append] at hnew
          exact hfai ⟨hsta,htar.1,htar.2,fun hmem => hnew.2.2 _ hmem _ List.mem_cons_self rfl⟩ _ (heva _ hone)

def awaiting (cascadeId action fortressId : String) (issued : GuardianRoster) : CascadeState :=
  { initiateCascade cascadeId action fortressId issued with state := .awaitingThreshold }

theorem counted_eq (cascade : CascadeState) : counted env roster cascade =
    match tallied env roster cascade.signingInput cascade.approvals with
    | .error _ => []
    | .ok answer => answer.2 := by
  rw [counted,tallied]
  cases evaluateThreshold env roster cascade.signingInput cascade.approvals none with
  | error refusal => rfl
  | ok result => rfl

theorem mirrors_awaiting (env : MeshEnv) (roster issued : GuardianRoster) (cascadeId action fortressId : String) :
    Mirrors env roster ⟨cascadeId,action,fortressId,issued.version⟩ (awaiting cascadeId action fortressId issued)
      (awaiting cascadeId action fortressId issued) := by
  refine ⟨rfl,rfl,rfl,List.nodup_nil,?_⟩
  intro _ ids htal
  obtain ⟨result,hres,heq⟩ := Outcome.map_ok htal
  rcases evaluateThreshold_ok hres with ⟨-,hunm⟩ | ⟨bytes,signers,hsha,-,-,hsid,-,hcou⟩
  · rw [hunm] at heq
    cases heq
  -- nobody has signed, and the threshold of a roster of the right shape is positive
  · have hcou := hcou (Prod.mk.inj heq).1
    have hnone : signers=[] := by
      refine List.eq_nil_iff_forall_not_mem.mpr fun g hg => ?_
      obtain ⟨sig,hsig,-⟩ := hsid.signed g hg
      exact absurd hsig (by simp [awaiting,initiateCascade])
    simp only [validateRosterShape,Outcome.require_bind_eq_ok] at hsha
    rw [hnone,thresholdOf,List.length_nil] at hcou
    have := hsha.1.1
    omega

theorem state_of_awaiting (env : MeshEnv) (roster issued : GuardianRoster) (cascadeId action fortressId : String)
    {approvals : List GuardianApproval} (hnod : (approvals.map (·.guardianId)).Nodup) :
    let run := approvals.foldl (approveOrKeep env roster) (awaiting cascadeId action fortressId issued)
    let input : ApprovalSigningInput := ⟨cascadeId,action,fortressId,issued.version⟩
    let meets := ∃ ids, tallied env roster input
      (approvals.filter fun approval => approvalDeclaresSameTarget approval input)=.ok (true,ids)
    meets ∧ run.state=.thresholdMet ∨ ¬ meets ∧ run.state=.awaitingThreshold :=
  @state_foldl_approveOrKeep _ _ _ (awaiting cascadeId action fortressId issued) _ rfl rfl hnod
    ((mirrors_awaiting env roster issued cascadeId action fortressId).unmet rfl)

end Mirror

section Execution

variable (env : MeshEnv)

def startExecution (roster : GuardianRoster) (cascade : CascadeState) : Except CascadeError CascadeState := do
  assertTransition cascade.state .executing
  match evaluateThreshold env roster cascade.signingInput cascade.approvals none with
  | .error _ => .error .unserializable
  | .ok result => do
    require (result.thresholdMet=true) .thresholdNotMet
    return { cascade with state := .executing }

/-- How an execution ends; where its event cannot be signed it throws, and nothing is stored. -/
inductive ExecutionEnd where
  | completed
  | failed
  | unsigned
deriving DecidableEq

structure RecoveryWorld where
  store : RecoveryStore
  /-- Executions whose executors run. -/
  running : List CascadeState
  /-- What executors were started with, and the roster of the call. -/
  started : List (GuardianRoster × CascadeState)

inductive RecoveryStep where
  | registerGuardianApproval (roster : GuardianRoster) (cascadeId : String) (approval : GuardianApproval)
  | executeRecovery (roster : GuardianRoster) (cascadeId : String)
  | executorDone (i : Nat) (ending : ExecutionEnd)

def ExecutionEnd.store (store : RecoveryStore) (cascade : CascadeState) : ExecutionEnd → RecoveryStore
  | .completed => store.set { cascade with state := .completed }
  | .failed => store.set { cascade with state := .failed }
  | .unsigned => store

def RecoveryWorld.step (world : RecoveryWorld) : RecoveryStep → RecoveryWorld
  | .registerGuardianApproval roster cascadeId approval =>
    match Recovery.registerGuardianApproval env roster world.store cascadeId approval with
    | .error _ => world
    | .ok store => { world with store }
  | .executeRecovery roster cascadeId =>
    match (world.store.get cascadeId).bind fun cascade => (startExecution env roster cascade).toOption with
    | none => world
    | some cascade =>
      { world with running := world.running++[cascade], started := world.started++[(roster,cascade)] }
  | .executorDone i ending =>
    match world.running[i]? with
    | none => world
    | some cascade =>
      { world with store := ending.store world.store cascade, running := world.running.eraseIdx i }

/-- No execution of a cascade begins while another one's executor runs, and every one that ends is stored. -/
def RecoveryStep.Alone (world : RecoveryWorld) : RecoveryStep → Prop
  | .registerGuardianApproval _ _ _ => True
  | .executeRecovery _ cascadeId => ∀ cascade∈world.running, cascade.cascadeId≠cascadeId
  | .executorDone _ ending => ending≠.unsigned

def RecoveryWorld.AllAlone (world : RecoveryWorld) : List RecoveryStep → Prop
  | [] => True
  | step::steps => step.Alone world ∧ (world.step env step).AllAlone steps

/-- At least `m` guardians of the roster, with distinct keys, have signed this cascade's id, action, fortress and roster
version. -/
def Quorum (roster : GuardianRoster) (cascade : CascadeState) : Prop :=
  ∃ bytes signers, canonicalizeToBytes cascade.signingInput.value=.ok bytes ∧
    cascade.rosterVersion=roster.version ∧
    SignedBy env roster bytes (cascade.approvals.map GuardianApproval.toSignature) signers ∧ roster.m ≤ signers.length

variable {env} {roster : GuardianRoster} {cascade next : CascadeState} {world : RecoveryWorld}

theorem startExecution_eq_ok : startExecution env roster cascade=.ok next ↔ cascade.state=.thresholdMet ∧
    (∃ ids, tallied env roster cascade.signingInput cascade.approvals=.ok (true,ids)) ∧
      next = { cascade with state := .executing } := by
  have htra : .executing∈validTransitions cascade.state ↔ cascade.state=.thresholdMet := by
    cases cascade.state <;> decide
  rw [startExecution,assertTransition,Outcome.require_bind_eq_ok,htra,tallied]
  refine and_congr_right fun _ => ?_
  cases evaluateThreshold env roster cascade.signingInput cascade.approvals none with
  | error refusal => simp [Except.map]
  | ok result =>
    rw [Outcome.require_bind_eq_ok]
    simp only [Except.map,Except.ok.injEq,Prod.mk.injEq,pure,Except.pure,exists_and_left,exists_eq',and_true]
    exact and_congr_right fun _ => eq_comm

theorem quorum_of_tallied {ids : List String}
    (h : tallied env roster cascade.signingInput cascade.approvals=.ok (true,ids)) : Quorum env roster cascade := by
  obtain ⟨result,hres,heq⟩ := Outcome.map_ok h
  have hmet : result.thresholdMet=true := (Prod.mk.inj heq).1
  rcases evaluateThreshold_ok hres with ⟨-,hunm⟩ | ⟨bytes,signers,-,hver,hbyt,hsig,-,hcou⟩
  · cases hunm.symm.trans hmet
  · exact ⟨bytes,signers,hbyt,hver,hsig,hcou hmet⟩

theorem quorum_step (h : ∀ start∈world.started, Quorum env start.1 start.2) (step : RecoveryStep) :
    ∀ start∈(world.step env step).started, Quorum env start.1 start.2 := by
  cases step with
  | registerGuardianApproval roster cascadeId approval =>
    rw [RecoveryWorld.step]
    split
    · exact h
    · exact h
  | executeRecovery roster cascadeId =>
    rw [RecoveryWorld.step]
    split
    · exact h
    · rename_i cascade hcas
      obtain ⟨stored,-,hsta⟩ := Option.bind_eq_some_iff.mp hcas
      obtain ⟨-,⟨ids,htal⟩,rfl⟩ := startExecution_eq_ok.mp (Outcome.toOption_eq_some.mp hsta)
      rw [List.forall_mem_append]
      refine ⟨h,List.forall_mem_singleton.mpr ?_⟩
      exact quorum_of_tallied (show tallied env roster { stored with state := .executing }.signingInput _=_ from htal)
  | executorDone i ending =>
    rw [RecoveryWorld.step]
    split
    · exact h
    · exact h

structure Once (world : RecoveryWorld) : Prop where
  nodup : (world.started.map fun start => start.2.cascadeId).Nodup
  accounted : ∀ start∈world.started, (∃ cascade∈world.running, cascade.cascadeId=start.2.cascadeId) ∨
    ∃ cascade, world.store.get start.2.cascadeId=some cascade ∧ (cascade.state=.completed ∨ cascade.state=.failed)

theorem Once.step {step : RecoveryStep} (h : Once world) (halo : step.Alone world) : Once (world.step env step) := by
  cases step with
  | registerGuardianApproval roster cascadeId approval =>
    rw [RecoveryWorld.step]
    split
    · exact h
    · rename_i store hsto
      refine ⟨h.nodup,fun start hsta => (h.accounted start hsta).imp_right ?_⟩
      rintro ⟨cascade,hget,hdon⟩
      refine ⟨cascade,?_,hdon⟩
      rw [Recovery.registerGuardianApproval] at hsto
      split at hsto
      · cases hsto
      · rename_i stored hstd
        obtain ⟨next,happ,heq⟩ := Outcome.bind_ok hsto
        cases heq
        obtain ⟨hadm,met,ids,-,rfl⟩ := approve_eq_ok.mp happ
        rw [RecoveryStore.get_set]
        refine (if_neg fun hid => ?_).trans hget
        -- a cascade that is done takes no approval
        rw [hid,world.store.keyed cascadeId stored hstd] at hget
        cases hget.symm.trans hstd
        rcases hdon with hdon | hdon <;> cases hdon.symm.trans hadm.1
  | executeRecovery roster cascadeId =>
    rw [RecoveryWorld.step]
    split
    · exact h
    · rename_i cascade hcas
      obtain ⟨stored,hstd,hsta⟩ := Option.bind_eq_some_iff.mp hcas
      obtain ⟨hmet,-,rfl⟩ := startExecution_eq_ok.mp (Outcome.toOption_eq_some.mp hsta)
      have hid := world.store.keyed cascadeId stored hstd
      have hnew : stored.cascadeId∉world.started.map fun start => start.2.cascadeId := by
        intro hmem
        obtain ⟨start,hmem,hsam⟩ := List.mem_map.mp hmem
        rcases h.accounted start hmem with ⟨running,hrun,heq⟩ | ⟨done,hget,hdon⟩
        · exact halo running hrun (heq.trans (hsam.trans hid))
        · rw [hsam,hid,hstd] at hget
          cases hget
          rcases hdon with hdon | hdon <;> cases hdon.symm.trans hmet
      constructor
      · rw [List.map_append,List.map_singleton,← List.concat_eq_append,List.nodup_concat]
        exact ⟨hnew,h.nodup⟩
      · rw [List.forall_mem_append]
        refine ⟨fun start hmem => (h.accounted start hmem).imp_left ?_,List.forall_mem_singleton.mpr (.inl ?_)⟩
        · rintro ⟨running,hrun,heq⟩
          exact ⟨running,List.mem_append_left _ hrun,heq⟩
        · exact ⟨_,List.mem_append_right _ (List.mem_singleton_self _),rfl⟩
  | executorDone i ending =>
    rw [RecoveryWorld.step]
    split
    · exact h
    · rename_i cascade hcas
      refine ⟨h.nodup,fun start hmem => ?_⟩
      have hsto : ∃ state, (state=.completed ∨ state=.failed) ∧
          ending.store world.store cascade=world.store.set { cascade with state } := by
        cases ending with
        | completed => exact ⟨_,.inl rfl,rfl⟩
        | failed => exact ⟨_,.inr rfl,rfl⟩
        | unsigned => exact absurd rfl halo
      obtain ⟨state,hste,hset⟩ := hsto
      simp only [hset,RecoveryStore.get_set]
      by_cases hid : start.2.cascadeId=cascade.cascadeId
      · exact .inr ⟨_,if_pos hid,hste⟩
      · rw [if_neg hid]
        refine (h.accounted start hmem).imp_left ?_
        rintro ⟨running,hrun,heq⟩
        refine ⟨running,?_,heq⟩
        obtain ⟨j,hj,rfl⟩ := List.mem_iff_getElem.mp hrun
        refine List.mem_eraseIdx_iff_getElem.mpr ⟨j,hj,?_,rfl⟩
        rintro rfl
        rw [List.getElem?_eq_getElem hj,Option.some.injEq] at hcas
        exact hid (hcas ▸ heq.symm)

end Execution

section Results

variable {env : MeshEnv} {roster issued : GuardianRoster} {cascadeId action fortressId : String}
  {store start : RecoveryStore} {approvals others : List GuardianApproval}

/-- Approvals whose signatures do not verify, whatever they are and wherever they stand among the valid ones, change
neither who is counted nor the state of a cascade, unless one stands before the valid approval of its guardian id. -/
theorem forged_approvals_uncounted (hinit : initRecovery store cascadeId action fortressId issued=.ok start)
    (hbeh : ForgedBehind env roster ⟨cascadeId,action,fortressId,issued.version⟩ approvals) :
    ∃ honest mixed,
      (registerAll env roster cascadeId start (approvals.filter
        (verifies env roster ⟨cascadeId,action,fortressId,issued.version⟩))).get cascadeId=some honest ∧
      (registerAll env roster cascadeId start approvals).get cascadeId=some mixed ∧
      counted env roster mixed=counted env roster honest ∧ mixed.state=honest.state := by
  cases hinit
  have hget : (store.set (awaiting cascadeId action fortressId issued)).get cascadeId =
      some (awaiting cascadeId action fortressId issued) := by
    rw [RecoveryStore.get_set]
    exact if_pos rfl
  have h := (mirrors_awaiting env roster issued cascadeId action fortressId).run hbeh
    (by simp [awaiting,initiateCascade])
  refine ⟨_,_,get_registerAll _ hget,get_registerAll _ hget,?_,h.state⟩
  rw [counted_eq,counted_eq,h.signingInput,h.input_eq,
    tallied_congr h.nodup h.honest_nodup (h.kept.symm.trans h.honest_kept.symm)]

/-- Executors are started with a quorum of the roster at hand, in every run; and for each cascade at most once, where no
execution of it begins while another one's executor runs or after one that could not be stored. -/
theorem recovery_runs_once (env : MeshEnv) (store : RecoveryStore) (steps : List RecoveryStep) :
    (∀ start∈(steps.foldl (RecoveryWorld.step env) ⟨store,[],[]⟩).started, Quorum env start.1 start.2) ∧
    ((⟨store,[],[]⟩ : RecoveryWorld).AllAlone env steps →
      ((steps.foldl (RecoveryWorld.step env) ⟨store,[],[]⟩).started.map fun start => start.2.cascadeId).Nodup) := by
  have hrun : ∀ world : RecoveryWorld, (∀ start∈world.started, Quorum env start.1 start.2) →
      (∀ start∈(steps.foldl (RecoveryWorld.step env) world).started, Quorum env start.1 start.2) ∧
      (Once world → world.AllAlone env steps → Once (steps.foldl (RecoveryWorld.step env) world)) := by
    induction steps with
    | nil => exact fun world hquo => ⟨hquo,fun honc _ => honc⟩
    | cons step steps ih =>
      intro world hquo
      obtain ⟨hqus,honc⟩ := ih (world.step env step) (quorum_step hquo step)
      exact ⟨hqus,fun h halo => honc (h.step halo.1) halo.2⟩
  obtain ⟨hquo,honc⟩ := hrun ⟨store,[],[]⟩ (by simp)
  exact ⟨hquo,fun halo => (honc ⟨List.nodup_nil,by simp⟩ halo).nodup⟩

end Results

namespace Sample

open Custody Cognitive.StateStore

def rosterOf (b : UInt8) : GuardianRoster where
  m := 1
  n := 1
  guardians := [Federation.Sample.guardian "g-1" b]
  signatureScheme := signatureSchemeV1
  version := 1
  createdAt := "2026-01-01T00:00:00.000Z"
  fortressId := "f-1"
  masterSignature := "AA"

def roster : GuardianRoster := rosterOf 1

/-- Signatures verify that are not empty. -/
def env : MeshEnv := { Federation.Sample.env with verify signature _ _ := !signature.isEmpty }

def cascadeApproval (guardianId signature : String) : GuardianApproval :=
  ⟨guardianId,"rotate_master","c-1",signature,signatureSchemeV1⟩

def store : RecoveryStore := ⟨.empty,fun _ _ h => by cases h⟩

def start : RecoveryStore := store.set (awaiting "c-1" "rotate_master" "f-1" roster)

theorem evaluated (b : UInt8) (signature : String) :
    verifies env (rosterOf b) ⟨"c-1","rotate_master","f-1",1⟩ (cascadeApproval "g-1" signature) =
      !(decodeBase64url signature).isEmpty ∧
    ∃ ids, tallied env (rosterOf b) ⟨"c-1","rotate_master","f-1",1⟩ [cascadeApproval "g-1" signature] =
      .ok (!(decodeBase64url signature).isEmpty,ids) := by
  have hbyt := canonicalizeToBytes_of_safe
    (show numbersSafe (ApprovalSigningInput.value ⟨"c-1","rotate_master","f-1",1⟩)=true by decide)
  have hsha : isValidRosterShape (rosterOf b)=true := by
    have hval : validateRosterShape (rosterOf b)=.ok () := by
      simp [validateRosterShape,rosterOf,validateGuardians,Federation.Sample.guardian,
        Federation.Sample.canonicalGuardianKey_keyOf,require,bind,Except.bind]
    rw [isValidRosterShape,hval]
    rfl
  have hgua : (rosterOf b).byId "g-1" = some (Federation.Sample.guardian "g-1" b) := rfl
  have hsig : ∀ bytes key, env.signed signature bytes key = !(decodeBase64url signature).isEmpty := fun _ _ => rfl
  refine ⟨?_,?_⟩
  · rw [verifies,hbyt]
    simp only [cascadeApproval,hgua,hsig]
  · rw [tallied,evaluateThreshold,hsha,if_neg (by decide),
      if_neg (show ¬ (1 : Int)≠(rosterOf b).version from not_not.mpr rfl),hbyt]
    have hkey := Federation.Sample.canonicalGuardianKey_keyOf b
    have hm : (rosterOf b).m=1 := rfl
    have hpub : (Federation.Sample.guardian "g-1" b).publicKey=Federation.Sample.keyOf b := rfl
    cases hemp : (decodeBase64url signature).isEmpty <;>
      simp [tallyApproval,cascadeApproval,approvalDeclaresSameTarget,hgua,hkey,hpub,hsig,hemp,Tally.accept,
        Tally.reject,Except.map,thresholdOf,hm]

end Sample

open Sample Custody Cognitive.StateStore

theorem forged_approvals_uncounted_sample : initRecovery store "c-1" "rotate_master" "f-1" roster=.ok start ∧
    ∃ honest mixed,
      (registerAll Sample.env roster "c-1" start ([cascadeApproval "g-1" "AA",cascadeApproval "g-2" ""].filter
        (verifies Sample.env roster ⟨"c-1","rotate_master","f-1",roster.version⟩))).get "c-1" = some honest ∧
      (registerAll Sample.env roster "c-1" start [cascadeApproval "g-1" "AA",cascadeApproval "g-2" ""]).get "c-1" = some mixed ∧
      counted Sample.env roster mixed=counted Sample.env roster honest ∧ mixed.state=honest.state := by
  have hini : initRecovery store "c-1" "rotate_master" "f-1" roster=.ok start := rfl
  exact ⟨hini,forged_approvals_uncounted hini (by simp [ForgedBehind,cascadeApproval])⟩

theorem get_start : start.get "c-1" = some (awaiting "c-1" "rotate_master" "f-1" roster) := by
  rw [start,RecoveryStore.get_set]
  exact if_pos rfl

theorem forged_approval_in_the_way :
    verifies Sample.env roster ⟨"c-1","rotate_master","f-1",1⟩ (cascadeApproval "g-1" "")=false ∧
    verifies Sample.env roster ⟨"c-1","rotate_master","f-1",1⟩ (cascadeApproval "g-1" "AA")=true ∧
    ∃ honest mixed,
      (registerAll Sample.env roster "c-1" start [cascadeApproval "g-1" "AA"]).get "c-1" = some honest ∧
      (registerAll Sample.env roster "c-1" start [cascadeApproval "g-1" "",cascadeApproval "g-1" "AA"]).get "c-1" = some mixed ∧
      honest.state=.thresholdMet ∧ mixed.state=.awaitingThreshold := by
  have hemp : (decodeBase64url "").isEmpty=true := by decide
  have hsom : (decodeBase64url "AA").isEmpty=false := by decide
  obtain ⟨hfor,ids,hunm⟩ := evaluated 1 ""
  obtain ⟨hval,others,hmet⟩ := evaluated 1 "AA"
  rw [hemp] at hfor hunm
  rw [hsom] at hval hmet
  refine ⟨hfor,hval,_,_,get_registerAll _ get_start,get_registerAll _ get_start,?_,?_⟩
  · rw [List.foldl_cons,List.foldl_nil,approveOrKeep,approve_eq_ok.mpr ⟨⟨rfl,rfl,rfl,List.not_mem_nil⟩,true,others,hmet,rfl⟩]
    rfl
  · have hpar : approveOrKeep Sample.env roster (awaiting "c-1" "rotate_master" "f-1" roster) (cascadeApproval "g-1" "") =
        { awaiting "c-1" "rotate_master" "f-1" roster with approvals := [cascadeApproval "g-1" ""] } := by
      rw [approveOrKeep,approve_eq_ok.mpr ⟨⟨rfl,rfl,rfl,List.not_mem_nil⟩,false,ids,hunm,rfl⟩]
      rfl
    rw [List.foldl_cons,hpar]
    rfl

theorem started_twice {env : MeshEnv} {roster : GuardianRoster} {store : RecoveryStore} {cascade met next : CascadeState}
    {approval : GuardianApproval} (hget : store.get met.cascadeId=some cascade)
    (happ : approve env roster cascade approval=.ok met) (hsta : startExecution env roster met=.ok next) :
    (([.registerGuardianApproval roster met.cascadeId approval,.executeRecovery roster met.cascadeId,
      .executeRecovery roster met.cascadeId] : List RecoveryStep).foldl (RecoveryWorld.step env)
        ⟨store,[],[]⟩).started=[(roster,next),(roster,next)] := by
  have hsto : (store.set met).get met.cascadeId=some met := by
    rw [RecoveryStore.get_set]
    exact if_pos rfl
  simp [RecoveryWorld.step,Recovery.registerGuardianApproval,hget,happ,bind,Except.bind,pure,Except.pure,hsto,
    hsta,Except.toOption]

theorem executor_started_twice :
    (([.registerGuardianApproval roster "c-1" (cascadeApproval "g-1" "AA"),.executeRecovery roster "c-1",
      .executeRecovery roster "c-1"] : List RecoveryStep).foldl (RecoveryWorld.step Sample.env)
        ⟨start,[],[]⟩).started.map (fun start => start.2.cascadeId)=["c-1","c-1"] := by
  obtain ⟨-,ids,hmet⟩ := evaluated 1 "AA"
  have hsom : (decodeBase64url "AA").isEmpty=false := by decide
  rw [hsom] at hmet
  let met : CascadeState := ⟨"c-1",.thresholdMet,"rotate_master","f-1",1,1,1,[cascadeApproval "g-1" "AA"]⟩
  have happ : approve Sample.env roster (awaiting "c-1" "rotate_master" "f-1" roster) (cascadeApproval "g-1" "AA") =
      .ok met := approve_eq_ok.mpr ⟨⟨rfl,rfl,rfl,List.not_mem_nil⟩,true,ids,hmet,rfl⟩
  have hsta : startExecution Sample.env roster met=.ok { met with state := .executing } :=
    startExecution_eq_ok.mpr ⟨rfl,⟨ids,hmet⟩,rfl⟩
  exact congrArg (List.map fun start => start.2.cascadeId) (started_twice get_start happ hsta)

end CastleWall.Recovery
