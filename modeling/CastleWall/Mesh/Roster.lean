import CastleWall.Mesh.Envelope

/-! # The roster of nodes

`mesh/lifecycle/node-roster.ts`: the certificate and the presence of every node that was ever admitted. A
certificate is looked up for verifying events, unless its node is revoked or expired. -/

namespace CastleWall.Mesh

open Outcome (require)

inductive NodePresenceState where
  | joining
  | active
  | draining
  | unreachable
  | left
  | revoked
  | expired
deriving DecidableEq

structure RosterEntry where
  certificate : NodeIdentityCertificate
  presence : NodePresenceState
  lastHeartbeatAt : Int
  /-- `none` after a heartbeat that had no such field. -/
  lastPolicyVersions : Option (List (String × Int))
  (lastAuditSeq endedAt : Option Int)

inductive DropoutReason where
  | missedHeartbeats
  | expiredOfflineWindow

structure DropoutEvent where
  nodeId : String
  detectedAt : Int
  reason : DropoutReason
  lastSeenAt : Int

structure NodeRoster where
  entries : OrderedMap String RosterEntry
  heartbeatIntervalMs : Int := 30000
  missedThreshold : Int := 3
  maxOfflineWindowMs : Int := 30 * 24 * 60 * 60 * 1000

def noAuthenticatedPeer : String := "unknown-relaying-peer"

def isReservedNodeId (nodeId : String) : Bool := nodeId = "" || nodeId=noAuthenticatedPeer

namespace NodeRoster

variable (roster : NodeRoster)

def add (certificate : NodeIdentityCertificate) (nowMs : Int) : Except MeshRefusal NodeRoster := do
  require (hasReservedCapabilityBits certificate.capabilities=false) .reservedCapabilityBits
  require (isReservedNodeId certificate.nodeId=false) .reservedNodeId
  match roster.entries.get certificate.nodeId with
  | some existing =>
    return { roster with entries := roster.entries.set certificate.nodeId { existing with certificate } }
  | none =>
    return { roster with
      entries := roster.entries.set certificate.nodeId
        { certificate, presence := .joining, lastHeartbeatAt := nowMs, lastPolicyVersions := some []
          lastAuditSeq := some 0, endedAt := none } }

def modify (nodeId : String) (f : RosterEntry → RosterEntry) : NodeRoster :=
  { roster with entries := roster.entries.modify nodeId f }

/-- No node has the id `undefined` stands for. -/
def modifyIf (nodeId : Option String) (f : RosterEntry → RosterEntry) : NodeRoster :=
  match nodeId with
  | some nodeId => roster.modify nodeId f
  | none => roster

def markLeft (nodeId : Option String) (nowMs : Int) : NodeRoster :=
  roster.modifyIf nodeId fun e => { e with presence := .left, endedAt := some nowMs }

def markRevoked (nodeId : Option String) (nowMs : Int) : NodeRoster :=
  roster.modifyIf nodeId fun e => { e with presence := .revoked, endedAt := some nowMs }

def presenceAfter (presence : NodePresenceState) (advertised : Option AdvertisedState) : NodePresenceState :=
  if presence=.joining ∧ advertised=some .active then .active
  else if presence=.unreachable ∧ advertised=some .active then .active
  else if advertised=some .draining then .draining
  else presence

def recordHeartbeat (nodeId : String) (atMs : Int) (payload : Option HeartbeatPayload) : NodeRoster :=
  roster.modify nodeId fun e =>
    { e with
      lastHeartbeatAt := atMs
      lastPolicyVersions := payload.map (·.policyVersionVector)
      lastAuditSeq := payload.map (·.auditSeq)
      presence := presenceAfter e.presence (payload.map (·.nodeState)) }

def sweepEntry (nodeId : String) (nowMs : Int) (e : RosterEntry) : RosterEntry × List DropoutEvent :=
  if e.presence=.left ∨ e.presence=.revoked ∨ e.presence=.expired then (e,[])
  else
    let sinceHeartbeat := nowMs - e.lastHeartbeatAt
    let dropped :=
      if e.presence≠.unreachable ∧ roster.heartbeatIntervalMs * roster.missedThreshold ≤ sinceHeartbeat then
        ({ e with presence := .unreachable },[⟨nodeId,nowMs,.missedHeartbeats,e.lastHeartbeatAt⟩])
      else (e,[])
    if dropped.1.presence=.unreachable ∧ roster.maxOfflineWindowMs ≤ sinceHeartbeat then
      ({ dropped.1 with presence := .expired, endedAt := some nowMs },
        dropped.2++[⟨nodeId,nowMs,.expiredOfflineWindow,e.lastHeartbeatAt⟩])
    else dropped

def checkDropouts (nowMs : Int) : NodeRoster × List DropoutEvent :=
  ({ roster with entries := roster.entries.mapValues fun nodeId e => (roster.sweepEntry nodeId nowMs e).1 },
    roster.entries.entries.flatMap fun entry => (roster.sweepEntry entry.1 nowMs entry.2).2)

def lookupNodeCert (nodeId : String) : Option NodeIdentityCertificate :=
  (roster.entries.get nodeId).map (·.certificate)

def lookupActiveNodeCert (nodeId : String) : Option NodeIdentityCertificate :=
  match roster.entries.get nodeId with
  | none => none
  | some e => if e.presence=.revoked ∨ e.presence=.expired then none else some e.certificate

def presenceOf (nodeId : String) : Option NodePresenceState := (roster.entries.get nodeId).map (·.presence)

variable {roster} {nodeId : String}

theorem lookupActiveNodeCert_of_revoked (h : roster.presenceOf nodeId=some .revoked) :
    roster.lookupActiveNodeCert nodeId=none := by
  unfold presenceOf at h
  unfold lookupActiveNodeCert
  cases hent : roster.entries.get nodeId with
  | none => rfl
  | some e =>
    rw [hent] at h
    have hrev : e.presence=.revoked := Option.some.inj h
    simp [hrev]

theorem presenceOf_modify (roster : NodeRoster) (key : String) (f : RosterEntry → RosterEntry) (nodeId : String) :
    (roster.modify key f).presenceOf nodeId =
      if nodeId=key then (roster.entries.get nodeId).map fun e => (f e).presence else roster.presenceOf nodeId := by
  unfold presenceOf modify
  rw [OrderedMap.get_modify]
  by_cases h : nodeId=key
  · simp only [h,if_true,Option.map_map]
    rfl
  · simp only [h,if_false]

variable {nowMs : Int}

theorem presenceOf_add {certificate : NodeIdentityCertificate} {roster' : NodeRoster}
    (h : roster.add certificate nowMs=.ok roster') (nodeId : String) :
    roster'.presenceOf nodeId =
      if nodeId=certificate.nodeId then some ((roster.presenceOf nodeId).getD .joining)
      else roster.presenceOf nodeId := by
  simp only [add,Outcome.require_bind_eq_ok] at h
  obtain ⟨-,-,h⟩ := h
  unfold presenceOf
  cases hent : roster.entries.get certificate.nodeId with
  | none =>
    rw [hent] at h
    cases h
    by_cases hk : nodeId=certificate.nodeId
    · subst hk
      simp [hent]
    · simp [OrderedMap.get_set_ne,hk]
  | some e =>
    rw [hent] at h
    cases h
    by_cases hk : nodeId=certificate.nodeId
    · subst hk
      simp [hent]
    · simp [OrderedMap.get_set_ne,hk]

theorem lookupNodeCert_add {certificate : NodeIdentityCertificate} {roster' : NodeRoster}
    (h : roster.add certificate nowMs=.ok roster') (nodeId : String) :
    roster'.lookupNodeCert nodeId =
      if nodeId=certificate.nodeId then some certificate else roster.lookupNodeCert nodeId := by
  simp only [add,Outcome.require_bind_eq_ok] at h
  obtain ⟨-,-,h⟩ := h
  unfold lookupNodeCert
  cases hent : roster.entries.get certificate.nodeId with
  | none =>
    rw [hent] at h
    cases h
    rw [OrderedMap.get_set]
    by_cases hk : nodeId=certificate.nodeId
    · simp [hk]
    · simp [hk]
  | some e =>
    rw [hent] at h
    cases h
    rw [OrderedMap.get_set]
    by_cases hk : nodeId=certificate.nodeId
    · simp [hk]
    · simp [hk]

theorem sweepEntry_of_revoked {e : RosterEntry} (h : e.presence=.revoked) :
    (roster.sweepEntry nodeId nowMs e).1=e := by
  simp [sweepEntry,h]

theorem presenceOf_checkDropouts (h : roster.presenceOf nodeId=some .revoked) :
    (roster.checkDropouts nowMs).1.presenceOf nodeId=some .revoked := by
  unfold presenceOf at h ⊢
  unfold checkDropouts
  rw [OrderedMap.get_mapValues]
  cases hent : roster.entries.get nodeId with
  | none =>
    rw [hent] at h
    cases h
  | some e =>
    rw [hent] at h
    have hrev : e.presence=.revoked := Option.some.inj h
    simp [sweepEntry_of_revoked hrev,hrev]

end NodeRoster

end CastleWall.Mesh
