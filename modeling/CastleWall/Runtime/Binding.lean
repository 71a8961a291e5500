import CastleWall.Runtime.SafetyNet

/-! # Binding the admitted uid

What an acquisition does with the admitted uid, and the scope of the net a refusal installs
(`runtime_providers.rs`). -/

namespace CastleWall.Runtime

open Policy

/-- `history_uids`. -/
def historyUids : ConfinedHistory → Option (List UInt32)
  | .known entries => some (entries.map (·.uid))
  | .unknown => none

inductive LiveBindingSet where
  | verified (bindingCount : Nat)
  | mismatch (bindingCount : Nat) (detail : String)
  | unreadable (detail : String)

def LiveBindingSet.mayHoldABinding : LiveBindingSet → Bool
  | verified bindingCount => 0 < bindingCount
  | mismatch bindingCount _ => 0 < bindingCount
  | unreadable _ => true

def netRequiredOnRefusal (history : ConfinedHistory) (live : LiveBindingSet) : Bool :=
  (match historyUids history with
    | none => true
    | some uids => !uids.isEmpty) || live.mayHoldABinding

inductive BindPlan where
  | adopt (agentUid : UInt32)
  | install (agentUid ceiling : UInt32)
  | nothingToBind
  | refuseWithNet (reason : String) (uncoveredUids : List UInt32)
  | refuseWithoutNet (reason : String)

def refuseByPredicate (history : ConfinedHistory) (live : LiveBindingSet) (reason : String)
    (uncoveredUids : List UInt32) : BindPlan :=
  if netRequiredOnRefusal history live then .refuseWithNet reason uncoveredUids
  else .refuseWithoutNet reason

/-- `{:?}` of a list of uids. -/
def debugUids (uids : List UInt32) : String :=
  "[" ++ ", ".intercalate (uids.map fun uid => toString uid.toNat) ++ "]"

/-- The uids of the history that the binding does not cover. -/
def uncovered (subject : AdmittedSubject) (uids : List UInt32) : List UInt32 :=
  uids.filter fun uid =>
    match subject with
    | .confined agentUid _ _ => uid != agentUid
    | .unconfined => true

def stageBinding (subject : AdmittedSubject) (live : LiveBindingSet) : Except String BindPlan :=
  match subject, live with
  | .confined agentUid _ _, .verified _ => .ok (.adopt agentUid)
  | .confined agentUid ceiling _, .mismatch 0 _ => .ok (.install agentUid ceiling)
  | .unconfined, .verified _ => .ok .nothingToBind
  | _, .mismatch _ detail =>
    .error (detail ++ "; refusing readiness. Repair order: stop the wall, --disarm, start.")
  | _, .unreadable detail =>
    .error ("the owned table's per-agent binding set could not be read (" ++ detail ++
      "), so the wall cannot prove which uid the kernel routes; refusing readiness.")

def reconcileDetail (uncoveredUids : List UInt32) : String :=
  if uncoveredUids.isEmpty then
    "this boot's confined history cannot say which uids were bound, so the binding about to be " ++
      "established cannot be proven to cover them"
  else
    "this boot's confined history names uid(s) " ++ debugUids uncoveredUids ++
      " that the binding about to be established does not cover, so a previously confined process " ++
      "may still be live with no wall in front of it"

def planAdmittedBinding (identity : Option AdmittedIdentity) (live : LiveBindingSet)
    (history : ConfinedHistory) : BindPlan :=
  match identity with
  | none =>
    refuseByPredicate history live
      ("the admitted identity was never frozen at boot, so the wall cannot prove which uid it is " ++
        "supposed to bind; refusing readiness.") []
  | some identity =>
    match stageBinding identity.subject live with
    | .error reason => refuseByPredicate history live reason []
    | .ok staged =>
      -- The new protection covers one uid; a historical uid beside it may still be live.
      let uncoveredUids := ((historyUids history).map (uncovered identity.subject)).getD []
      if (historyUids history).isNone || !uncoveredUids.isEmpty then
        refuseByPredicate history live
          (reconcileDetail uncoveredUids ++ "; refusing readiness with reason=HistoricalUidUncovered. " ++
            "Repair order: stop the wall, --disarm, start.") uncoveredUids
      else staged

def netScopeForRefusal (resolution : SafetyNetResolution) (uncoveredUids liveBindingUids : List UInt32) :
    SafetyNetScope :=
  match resolution.scope with
  | .hostWide => .hostWide
  | .identity set =>
    if (resolution.killSet++resolution.denyUnion++uncoveredUids++liveBindingUids).all
        fun uid => set.uids.contains uid
    then .identity set else .hostWide

/-- `admitted_identity`: the frozen agent and gate uids. -/
def admittedIdentity (identity : Option AdmittedIdentity) : Option (UInt32 × Option UInt32) :=
  identity.bind fun identity =>
    match identity.subject with
    | .confined agentUid _ gateUid => some (agentUid,gateUid)
    | .unconfined => none

def BindPlan.binds : BindPlan → Option (Option UInt32)
  | adopt agentUid => some (some agentUid)
  | install agentUid _ => some (some agentUid)
  | nothingToBind => some none
  | refuseWithNet _ _ => none
  | refuseWithoutNet _ => none

structure Evidence where
  history : ConfinedHistory
  identity : Option AdmittedIdentity
  overflow : Option UInt32
  readLive : UInt32 → LiveTableBindings
  (uncoveredUids liveBindingUids : List UInt32)

namespace Evidence

def resolution (e : Evidence) : SafetyNetResolution :=
  resolveNetScopeAtSite e.history (admittedIdentity e.identity) e.overflow e.readLive

def scope (e : Evidence) : SafetyNetScope :=
  netScopeForRefusal e.resolution e.uncoveredUids e.liveBindingUids

def liveUids (e : Evidence) : List UInt32 :=
  (e.overflow.map fun overflow => (e.readLive overflow).uids).getD []++e.liveBindingUids

def uids (e : Evidence) : List UInt32 :=
  e.history.names++admittedUids (admittedIdentity e.identity)++e.liveUids++e.uncoveredUids

end Evidence

theorem refuseByPredicate_binds (history : ConfinedHistory) (live : LiveBindingSet) (reason : String)
    (uncoveredUids : List UInt32) : (refuseByPredicate history live reason uncoveredUids).binds=none := by
  unfold refuseByPredicate
  split_ifs <;> rfl

variable {history : ConfinedHistory} {live : LiveBindingSet}

theorem netRequiredOnRefusal_false
    (h : netRequiredOnRefusal history live=false) :
    history=.known [] ∧ (live=.verified 0 ∨ ∃ detail, live=.mismatch 0 detail) := by
  rw [netRequiredOnRefusal,Bool.or_eq_false_iff] at h
  constructor
  · cases history with
    | unknown => exact absurd h.1 (by simp [historyUids])
    | known entries =>
      cases entries with
      | nil => rfl
      | cons e es => exact absurd h.1 (by simp [historyUids])
  · cases live with
    | verified n => exact .inl (by simpa [LiveBindingSet.mayHoldABinding] using h.2)
    | mismatch n detail =>
      have hn : n=0 := by simpa [LiveBindingSet.mayHoldABinding] using h.2
      exact .inr ⟨detail,by rw [hn]⟩
    | unreadable detail => exact absurd h.2 (by simp [LiveBindingSet.mayHoldABinding])

theorem refuseByPredicate_withoutNet
    {reason reason' : String} {uncoveredUids : List UInt32}
    (h : refuseByPredicate history live reason uncoveredUids=.refuseWithoutNet reason') :
    history=.known [] ∧ (live=.verified 0 ∨ ∃ detail, live=.mismatch 0 detail) := by
  unfold refuseByPredicate at h
  split_ifs at h with hnet
  exact netRequiredOnRefusal_false (Bool.eq_false_of_not_eq_true hnet)

theorem stageBinding_ok {subject : AdmittedSubject} {staged : BindPlan}
    (h : stageBinding subject live=.ok staged) :
    (∃ agentUid ceiling gateUid, subject=.confined agentUid ceiling gateUid ∧
      staged.binds=some (some agentUid)) ∨ (subject=.unconfined ∧ staged.binds=some none) := by
  unfold stageBinding at h
  split at h
  · rw [← Except.ok.inj h]
    exact .inl ⟨_,_,_,rfl,rfl⟩
  · rw [← Except.ok.inj h]
    exact .inl ⟨_,_,_,rfl,rfl⟩
  · rw [← Except.ok.inj h]
    exact .inr ⟨rfl,rfl⟩
  · exact absurd h (by simp)
  · exact absurd h (by simp)

private theorem mem_of_uncovered_nil {subject : AdmittedSubject} {uids : List UInt32}
    (h : uncovered subject uids=[]) :
    ∀ uid∈uids, ∃ agentUid ceiling gateUid, subject=.confined agentUid ceiling gateUid ∧
      uid=agentUid := by
  intro uid huid
  have hnot := (List.filter_eq_nil_iff.mp h) uid huid
  cases subject with
  | unconfined => exact absurd rfl hnot
  | confined agentUid ceiling gateUid =>
    refine ⟨agentUid,ceiling,gateUid,rfl,?_⟩
    simpa using hnot

theorem planAdmittedBinding_binds {identity : Option AdmittedIdentity} {bound : Option UInt32}
    (h : (planAdmittedBinding identity live history).binds=some bound) :
    ∃ entries, history=.known entries ∧ ∀ entry∈entries, bound=some entry.uid := by
  unfold planAdmittedBinding at h
  cases identity with
  | none =>
    rw [refuseByPredicate_binds] at h
    exact absurd h (by simp)
  | some identity =>
    cases hsta : stageBinding identity.subject live with
    | error reason =>
      simp only [hsta,refuseByPredicate_binds] at h
      exact absurd h (by simp)
    | ok staged =>
      simp only [hsta] at h
      split_ifs at h with href
      · rw [refuseByPredicate_binds] at h
        exact absurd h (by simp)
      · cases history with
        | unknown => exact absurd rfl href
        | known entries =>
          refine ⟨entries,rfl,fun entry hent => ?_⟩
          have hnil : uncovered identity.subject (entries.map (·.uid))=[] := by
            simpa [historyUids] using href
          obtain ⟨agentUid,ceiling,gateUid,hsub,huid⟩ :=
            mem_of_uncovered_nil hnil entry.uid (List.mem_map_of_mem hent)
          rcases stageBinding_ok hsta with ⟨agentUid',_,_,hsub',hbin⟩ | ⟨hunc,-⟩
          · rw [hsub,AdmittedSubject.confined.injEq] at hsub'
            rw [huid,hsub'.1]
            exact Option.some.inj (h.symm.trans hbin)
          · rw [hsub] at hunc
            exact absurd hunc (by simp)

theorem planAdmittedBinding_withoutNet {identity : Option AdmittedIdentity} {reason : String}
    (h : planAdmittedBinding identity live history=.refuseWithoutNet reason) :
    history=.known [] ∧ (live=.verified 0 ∨ ∃ detail, live=.mismatch 0 detail) := by
  unfold planAdmittedBinding at h
  cases identity with
  | none => exact refuseByPredicate_withoutNet h
  | some identity =>
    cases hsta : stageBinding identity.subject live with
    | error reason' =>
      simp only [hsta] at h
      exact refuseByPredicate_withoutNet h
    | ok staged =>
      simp only [hsta] at h
      split_ifs at h with href
      · exact refuseByPredicate_withoutNet h
      · rw [h] at hsta
        rcases stageBinding_ok hsta with ⟨_,_,_,-,hbin⟩ | ⟨-,hbin⟩
        · exact absurd hbin (by simp [BindPlan.binds])
        · exact absurd hbin (by simp [BindPlan.binds])

theorem netScopeForRefusal_denies {resolution : SafetyNetResolution} {uncoveredUids live : List UInt32}
    {uid : UInt32}
    (h : uid∈resolution.killSet++resolution.denyUnion++uncoveredUids++live) :
    (netScopeForRefusal resolution uncoveredUids live).Denies uid := by
  unfold netScopeForRefusal
  split
  · exact SafetyNetScope.denies_hostWide uid
  · split_ifs with hall
    · rw [List.all_eq_true] at hall
      exact SafetyNetScope.denies_identity.mpr (List.contains_iff_mem.mp (hall uid h))
    · exact SafetyNetScope.denies_hostWide uid

namespace Evidence

variable {e : Evidence}

theorem mem_denyUnion {uid : UInt32}
    (h : uid∈e.history.names++admittedUids (admittedIdentity e.identity) ++
      (e.overflow.map fun overflow => (e.readLive overflow).uids).getD []) :
    uid∈e.resolution.denyUnion := by
  cases hove : e.overflow with
  | none =>
    rw [hove,Option.map_none,Option.getD_none,List.append_nil] at h
    rw [resolution,hove,resolveNetScopeAtSite]
    exact mem_sortDedup.mpr h
  | some overflow =>
    rw [hove,Option.map_some,Option.getD_some] at h
    rw [resolution,hove,resolveNetScopeAtSite,resolveSafetyNetScope_denyUnion]
    exact mem_sortDedup.mpr h

theorem scope_denies {uid : UInt32} (h : uid∈e.uids) : e.scope.Denies uid := by
  apply netScopeForRefusal_denies
  simp only [uids,liveUids,List.mem_append] at h
  simp only [List.mem_append]
  rcases h with ((hhis | hide) | hliv | hbin) | hunc
  · exact .inl (.inl (.inr (mem_denyUnion (by simp [hhis]))))
  · exact .inl (.inl (.inr (mem_denyUnion (by simp [hide]))))
  · exact .inl (.inl (.inr (mem_denyUnion (List.mem_append_right _ hliv))))
  · exact .inr hbin
  · exact .inl (.inr hunc)

theorem scope_unknown (h : e.history=.unknown) : e.scope=.hostWide := by
  have hsco : e.resolution.scope=.hostWide := by
    rw [resolution,h]
    cases e.overflow with
    | none => rfl
    | some overflow => rfl
  rw [scope,netScopeForRefusal,hsco]

end Evidence

/-- A continuing plan covers the history, a refusal without a net leaves no uid that may be live, and
the net of a refusal denies every uid the evidence names. -/
theorem refusal_coverage (identity : Option AdmittedIdentity) (live : LiveBindingSet)
    (history : ConfinedHistory) :
    (∀ bound, (planAdmittedBinding identity live history).binds=some bound →
      ∃ entries, history=.known entries ∧ ∀ entry∈entries, bound=some entry.uid) ∧
    (∀ reason, planAdmittedBinding identity live history=.refuseWithoutNet reason →
      history=.known [] ∧ (live=.verified 0 ∨ ∃ detail, live=.mismatch 0 detail)) ∧
    (∀ overflow readLive uncoveredUids liveBindingUids,
      let evidence : Evidence :=
        { history, identity, overflow, readLive, uncoveredUids, liveBindingUids }
      (∀ uid∈evidence.uids, evidence.scope.Denies uid) ∧
        (history=.unknown → evidence.scope=.hostWide)) :=
  ⟨fun _ h => planAdmittedBinding_binds h,fun _ h => planAdmittedBinding_withoutNet h,
    fun _ _ _ _ => ⟨fun _ h => Evidence.scope_denies h,fun h => Evidence.scope_unknown h⟩⟩

end CastleWall.Runtime
