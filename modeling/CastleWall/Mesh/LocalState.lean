import CastleWall.Mesh.Envelope

/-! # The replicated tables of a node

`mesh/lifecycle/local-state.ts`: the newest policy and locator event of each agent, and the log of lifecycle
events that later nodes are served. -/

namespace CastleWall.Mesh

open Text

inductive PolicyBundleUpsertResult where
  | applied
  | payloadMalformed
  | versionReplay
  | validityMissing
  | validityInvalid
  | notYetValid
  | expired
deriving DecidableEq

structure PolicyBundleStore where
  byAgent : OrderedMap String (SignedEvent Payload)

/-- White space of the language: that of Unicode, without U+0085 and with the byte order mark. -/
def isEcmaWhitespace (c : Char) : Bool := (isWhitespace c && c.toNat≠0x85) || c.toNat=0xfeff

def isSafeNonNegativeInteger (n : Int) : Bool := decide (0 ≤ n ∧ n ≤ 2 ^ 53 - 1)

def Payload.asPolicyUpdate : Payload → Option PolicyUpdatePayload
  | .policyUpdate p => some p
  | _ => none

def validatePolicyUpdateEvent (env : MeshEnv) (nowMs : Int) (evt : SignedEvent Payload) (p : PolicyUpdatePayload) :
    PolicyBundleUpsertResult :=
  if p.agentId.toList.all isEcmaWhitespace || !isSafeNonNegativeInteger p.policyVersion ||
      !p.parentVersion.all isSafeNonNegativeInteger then .payloadMalformed
  else if p.validFrom = "" ∨ p.validUntil = "" then .validityMissing
  else
    match env.dateParse p.validFrom, env.dateParse p.validUntil with
    | some validFromMs, some validUntilMs =>
      if validUntilMs ≤ validFromMs then .validityInvalid
      else if nowMs < validFromMs then .notYetValid
      else if validUntilMs ≤ nowMs then .expired
      else if env.decodePolicyBlob p.policyBlob =
          some ⟨p.agentId,p.policyVersion,p.parentVersion,evt.fortressId⟩ then .applied
      else .payloadMalformed
    | _, _ => .validityInvalid

variable (payload : Payload)

def Payload.policyVersion : Option Int := payload.asPolicyUpdate.map (·.policyVersion)

def PolicyBundleStore.upsert (store : PolicyBundleStore) (env : MeshEnv) (nowMs : Int) (evt : SignedEvent Payload) :
    PolicyBundleStore × PolicyBundleUpsertResult :=
  match evt.payload.asPolicyUpdate with
  | none => (store,.payloadMalformed)
  | some p =>
    match validatePolicyUpdateEvent env nowMs evt p with
    | .applied =>
      match (store.byAgent.get p.agentId).bind (·.payload.policyVersion) with
      | some held =>
        if p.policyVersion ≤ held then (store,.versionReplay)
        else (⟨store.byAgent.set p.agentId evt⟩,.applied)
      | none => (⟨store.byAgent.set p.agentId evt⟩,.applied)
    | refused => (store,refused)

inductive LocatorUpsertResult where
  | applied
  | older
  | conflict

structure LocatorTableStore where
  byAgent : OrderedMap (Option String) (SignedEvent Payload)
  highestVersion : Int

/-- `payload.agent_id` where the payload has one. -/
def Payload.agentId : Payload → Option String
  | .policyUpdate p => some p.agentId
  | .locatorUpdate p => some p.agentId
  | _ => none

def Payload.asLocatorUpdate : Payload → Option LocatorUpdatePayload
  | .locatorUpdate p => some p
  | _ => none

def Payload.locatorVersion : Option Int := payload.asLocatorUpdate.map (·.locatorVersion)

def Payload.canonicalNode : Option String := payload.asLocatorUpdate.map (·.canonicalNode)

/-- `>=`, which is false of `undefined`. -/
def atLeast : Option Int → Option Int → Bool
  | some a, some b => decide (b ≤ a)
  | _, _ => false

/-- The payload is not validated. -/
def LocatorTableStore.upsert (store : LocatorTableStore) (evt : SignedEvent Payload) :
    LocatorTableStore × LocatorUpsertResult :=
  let agentId := evt.payload.agentId
  let applied : LocatorTableStore :=
    { byAgent := store.byAgent.set agentId evt
      highestVersion := evt.payload.locatorVersion.elim store.highestVersion (max store.highestVersion) }
  match store.byAgent.get agentId with
  | some existing =>
    if existing.payload.locatorVersion=evt.payload.locatorVersion ∧
        existing.payload.canonicalNode≠evt.payload.canonicalNode then (store,.conflict)
    else if atLeast existing.payload.locatorVersion evt.payload.locatorVersion then (store,.older)
    else (applied,.applied)
  | none => (applied,.applied)

def nodeLifecycleLogMaxEvents : Nat := 10000

def maxRetainedRevokeAuthorizationsPerTarget : Nat := 8

def maxRetainedNonRevokeEventsPerEmitter : Nat := nodeLifecycleLogMaxEvents / 16

/-- An event of the log; a revoke is kept with its target and its authorization. The indices of the source over
the list of events are read off the list. -/
structure LogEntry where
  event : SignedEvent Payload
  revoke : Option (Option String × String)

structure NodeLifecycleEventLog where
  entries : List LogEntry

namespace NodeLifecycleEventLog

variable (log : NodeLifecycleEventLog)

/-- The oldest of `matching` are evicted until fewer than `limit` are left. -/
def evictOldest (matching : LogEntry → Bool) (limit : Nat) (entries : List LogEntry) : List LogEntry :=
  Nat.repeat (List.eraseP matching) ((entries.filter matching).length+1 - limit) entries

/-- The oldest event that is not a revoke goes first. -/
def evictOne (entries : List LogEntry) : List LogEntry :=
  if entries.any (·.revoke.isNone) then entries.eraseP (·.revoke.isNone) else entries.drop 1

def enforceCap (entries : List LogEntry) : List LogEntry :=
  Nat.repeat evictOne (entries.length - nodeLifecycleLogMaxEvents) entries

/-- An event of the same emitter and id is not kept again. -/
def append (evt : SignedEvent Payload) : NodeLifecycleEventLog :=
  let ofEmitter := fun e : LogEntry => e.revoke.isNone && e.event.emitterNode=evt.emitterNode
  if log.entries.any fun e => ofEmitter e && e.event.eventId=evt.eventId then log
  else ⟨enforceCap (evictOldest ofEmitter maxRetainedNonRevokeEventsPerEmitter log.entries++[⟨evt,none⟩])⟩

def hasRetainedRevokeAuthorization (authKey : String) : Bool :=
  log.entries.any fun e => e.revoke.any fun r => r.2=authKey

def appendRevoke (evt : SignedEvent Payload) (target : Option String) (authKey : String) : NodeLifecycleEventLog :=
  if log.hasRetainedRevokeAuthorization authKey then log
  else
    let ofTarget := fun e : LogEntry => e.revoke.any fun r => r.1=target
    ⟨enforceCap (evictOldest ofTarget maxRetainedRevokeAuthorizationsPerTarget log.entries ++
      [⟨evt,some (target,authKey)⟩])⟩

end NodeLifecycleEventLog

end CastleWall.Mesh
