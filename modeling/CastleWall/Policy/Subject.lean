import CastleWall.Policy.Snapshot

/-! # Whom a snapshot confines

The identity a snapshot admits (`admitted_identity.rs`), the subject an audit row names
(`protection_subject.rs`), and the check that ties the agent id of an attempt to both. -/

namespace CastleWall.Policy

structure ProtectionSubject where
  fortressId : String
  uid : UInt32
  fortressId_ne : fortressId ≠ ""
  uid_ne : uid≠0

namespace ProtectionSubject

def new (fortressId : String) (uid : UInt32) : Option ProtectionSubject :=
  if h : fortressId ≠ "" ∧ uid≠0 then some { fortressId, uid, fortressId_ne := h.1, uid_ne := h.2 }
  else none

def asStr (subject : ProtectionSubject) : String :=
  subject.fortressId ++ "/uid-" ++ toString subject.uid.toNat

theorem new_eq_some {fortressId : String} {uid : UInt32} {subject : ProtectionSubject}
    (h : new fortressId uid=some subject) : subject.fortressId=fortressId ∧ subject.uid=uid := by
  unfold new at h
  split_ifs at h with hval
  rw [← Option.some.inj h]
  exact ⟨rfl,rfl⟩

end ProtectionSubject

inductive AdmittedSubject where
  | unconfined
  | confined (agentUid ceiling : UInt32) (gateUid : Option UInt32)
  deriving DecidableEq

structure AdmittedIdentity where
  fortressId : String
  subject : AdmittedSubject

/-- A uid and its admission ceiling come together or not at all. -/
inductive IdentityDefect where
  | uidWithoutCeiling (agentUid : UInt32)
  | ceilingWithoutUid (ceiling : UInt32)

namespace AdmittedIdentity

def fromSnapshot (snapshot : PolicySnapshot) : Except IdentityDefect AdmittedIdentity :=
  match snapshot.confinedAgentUid, snapshot.confinedAgentUidCeiling with
  | none, none => .ok { fortressId := snapshot.fortressId, subject := .unconfined }
  | some agentUid, some ceiling =>
    .ok { fortressId := snapshot.fortressId
          subject := .confined agentUid ceiling snapshot.confinedGateUid }
  | some agentUid, none => .error (.uidWithoutCeiling agentUid)
  | none, some ceiling => .error (.ceilingWithoutUid ceiling)

theorem fromSnapshot_confined {snapshot : PolicySnapshot} {identity : AdmittedIdentity}
    {agentUid ceiling : UInt32} {gateUid : Option UInt32} (h : fromSnapshot snapshot=.ok identity)
    (hsub : identity.subject=.confined agentUid ceiling gateUid) :
    snapshot.confinedAgentUid=some agentUid ∧ identity.fortressId=snapshot.fortressId := by
  unfold fromSnapshot at h
  split at h
  · rw [← Except.ok.inj h] at hsub
    exact absurd hsub (by simp)
  · rename_i huid _
    rw [← Except.ok.inj h] at hsub ⊢
    obtain ⟨rfl,-,-⟩ := AdmittedSubject.confined.inj hsub
    exact ⟨huid,rfl⟩
  · exact absurd h (by simp)
  · exact absurd h (by simp)

theorem fromSnapshot_admitted {env : AdmissionEnv} {loaded : Manifest.LoadedManifest}
    {snapshot : PolicySnapshot} (h : fromLoadedManifest env loaded=.ok snapshot) :
    ∃ identity, fromSnapshot snapshot=.ok identity := by
  obtain ⟨_,_,h⟩ := Outcome.bind_ok h
  obtain ⟨_,_,h⟩ := Outcome.bind_ok h
  dsimp only at h
  split at h
  · obtain ⟨_,hthr,_⟩ := Outcome.bind_ok h
    cases hthr
  obtain ⟨admitted,_,h⟩ := Outcome.bind_ok h
  cases h
  cases admitted with
  | none => exact ⟨_,rfl⟩
  | some uid => exact ⟨_,rfl⟩

end AdmittedIdentity

/-- The subject of an audit row: the agent id is the `uid-<uid>` form of the confined uid. -/
def resolveAuditSubject (identity : Option AdmittedIdentity) (agentId : String) :
    Option ProtectionSubject := do
  let identity ← identity
  match identity.subject with
  | .unconfined => none
  | .confined agentUid _ _ =>
    let parsedUid ← parseConfinedAgentId agentId
    if parsedUid≠agentUid then none else ProtectionSubject.new identity.fortressId parsedUid

theorem resolveAuditSubject_some {identity : AdmittedIdentity} {agentId : String}
    {subject : ProtectionSubject} (h : resolveAuditSubject (some identity) agentId=some subject) :
    subject.fortressId=identity.fortressId ∧ parseConfinedAgentId agentId=some subject.uid ∧
      ∃ ceiling gateUid, identity.subject=.confined subject.uid ceiling gateUid := by
  simp only [resolveAuditSubject,Option.bind_eq_bind,Option.bind_some] at h
  split at h
  · exact absurd h (by simp)
  · rename_i agentUid ceiling gateUid hsub
    obtain ⟨parsedUid,hpar,h⟩ := Option.bind_eq_some_iff.mp h
    split_ifs at h with hne
    obtain ⟨hfor,huid⟩ := ProtectionSubject.new_eq_some h
    rw [huid]
    exact ⟨hfor,hpar,ceiling,gateUid,by rw [hsub,not_not.mp hne]⟩

end CastleWall.Policy
