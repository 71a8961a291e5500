import CastleWall.Egress.PfAnchor
import CastleWall.Support.Faulty
import CastleWall.Support.JsValue
import CastleWall.Support.Ecma
import CastleWall.Server.HabeasPort

/-! # The registry of confined uids

`anchor-registry.ts`: one persisted entry for each confined uid, and the mutations that load the union of the
entries into the shared pf anchor. A mutation journals the set it wants, applies it, commits it, and rolls
back to the set before it when a call fails. -/

namespace CastleWall.Egress

open Faulty JsValue

def hasGenerationHeadroom (n : Nat) : Bool := decide (1 ≤ n ∧ n+1 ≤ maxSafeInteger)

abbrev Generation : Type := { n : Nat // hasGenerationHeadroom n=true }

def Generation.ofNat? (n : Nat) : Option Generation :=
  if h : hasGenerationHeadroom n=true then some ⟨n,h⟩ else none

def raiseFloor (floor : Option Generation) (g : Generation) : Option Generation := some (floor.elim g (max g))

structure PfAnchorRegistryEntry where
  (agentUid gatePort : Nat)
  fortressPath : String
  generationId : Option Generation
  tombstone : Bool
  confined : 0 < agentUid
  reachable : 1 ≤ gatePort ∧ gatePort ≤ 65535
  homed : fortressPath ≠ ""

/-- The members of an object a registry entry is read from; a value that is no object has none of them. -/
structure RawEntry where
  (agentUid gatePort fortressPath generationId tombstone : Option JsValue)

/-- `Number.isInteger`. -/
def asInteger : JsValue → Option Int
  | .number x => if x.den=1 then some x.num else none
  | _ => none

def asNonNegativeInteger (v : JsValue) : Option Nat :=
  (asInteger v).bind fun n => if 0 ≤ n then some n.toNat else none

def asGeneration (v : JsValue) : Option Generation := (asNonNegativeInteger v).bind Generation.ofNat?

/-- A member that may be missing, but not malformed. -/
def optionalMember {α : Type} (parse : JsValue → Option α) : Option JsValue → Option (Option α)
  | none => some none
  | some v => (parse v).map some

def asBool : JsValue → Option Bool
  | .bool b => some b
  | _ => none

def validateEntry (c : RawEntry) : Option PfAnchorRegistryEntry := do
  let uid ← c.agentUid.bind asNonNegativeInteger
  let port ← c.gatePort.bind asNonNegativeInteger
  let fortress ← c.fortressPath.bind asString
  let generation ← optionalMember asGeneration c.generationId
  let tombstone ← optionalMember asBool c.tombstone
  if h : 0 < uid ∧ (1 ≤ port ∧ port ≤ 65535) ∧ fortress ≠ "" then
    some ⟨uid,port,fortress,generation,tombstone.getD false,h.1,h.2.1,h.2.2⟩
  else none

namespace PfAnchorRegistryEntry

variable (e : PfAnchorRegistryEntry)

def raw : RawEntry where
  agentUid := some (.number e.agentUid)
  gatePort := some (.number e.gatePort)
  fortressPath := some (.string e.fortressPath)
  generationId := e.generationId.map fun g => .number g.val
  tombstone := if e.tombstone then some (.bool true) else none

def toUnionEntry : PfAnchorUnionEntry := ⟨e.agentUid,e.gatePort,e.tombstone⟩

@[simp] theorem toUnionEntry_agentUid : e.toUnionEntry.agentUid=e.agentUid := rfl

theorem isPolicy_toUnionEntry : e.toUnionEntry.isPolicy=true := decide_eq_true ⟨e.confined,e.reachable⟩

end PfAnchorRegistryEntry

structure ConfinedUnion where
  entries : List PfAnchorRegistryEntry
  distinct : (entries.map (·.agentUid)).Nodup

namespace ConfinedUnion

def empty : ConfinedUnion := ⟨[],List.nodup_nil⟩

variable (u : ConfinedUnion)

def uids : List Nat := u.entries.map (·.agentUid)

def find (uid : Nat) : Option PfAnchorRegistryEntry := u.entries.find? fun e => e.agentUid=uid

def push (e : PfAnchorRegistryEntry) (h : e.agentUid∉u.uids) : ConfinedUnion where
  entries := u.entries++[e]
  distinct := by
    rw [List.map_append,List.map_singleton]
    exact List.nodup_append.mpr ⟨u.distinct,List.nodup_singleton _,by
      intro a ha b hb
      rw [List.mem_singleton.mp hb]
      exact fun hab => h (hab ▸ ha)⟩

def unionEntries : List PfAnchorUnionEntry := u.entries.map (·.toUnionEntry)

def rules : List PfRule := unionLines u.unionEntries

end ConfinedUnion

structure PfEnableReference where
  token : String
  bootSessionUuid : Option String

structure PfAnchorRegistryState where
  committed : ConfinedUnion
  reference : Option PfEnableReference
  pending : Option ConfinedUnion
  dirty : Bool
  generationFloor : Option Generation
  generationFloorRaw : Option JsValue

/-- The members of the parsed registry file. `committed` is `none` when it is no array; `pending` is
`some none` when it is present and no array. -/
structure RawState where
  version : Option JsValue
  committed : Option (List RawEntry)
  (enableToken enableTokenBootSession : Option JsValue)
  pending : Option (Option (List RawEntry))
  (dirty generationFloor generationFloorRaw : Option JsValue)

/-- `unreadable` is text that is not JSON, or not an object. -/
inductive RegistryFile where
  | absent
  | unreadable
  | object (raw : RawState)

inductive Call where
  | loadRegistry
  | saveRegistry
  | loadRegistryBytes
  | saveForensics
  | probe
  | loadRules
  | installHook
  | ensureReference
  | settle
  | flush
  | releaseReference
  | loadStaging
  | saveStaging
  | deleteStaging
  | bind
  | verifyOwner
  | publishManifest
  | releasePort
  deriving DecidableEq

inductive GateError where
  | lost (call : Call)
  | unreadable
  | unknownVersion
  | committedNotArray
  | malformedEntry
  | duplicateUid (uid : Nat)
  | refusedEntry
  | noFallback (uid : Nat)
  | malformedFallback (uid : Nat)
  | render (err : RenderError)
  | notSettled
  | malformedToken
  | couldNotFlush
  | couldNotReassert
  | dirty (cause repair : GateError)
  | badRequest
  | stagingPresent
  | foreignStaging
  | noHeadroom
  | notOwner
  | portTaken
  deriving DecidableEq

def digitsOnly (s : String) : Bool := decide (s.toList≠[]) && s.toList.all Char.isDigit

/-- Trimmed text, unless nothing is left of it. -/
def nonBlank (s : String) : Option String :=
  let trimmed := String.ofList (Server.jsTrim s.toList)
  if trimmed = "" then none else some trimmed

def parseGenerationFloorRaw (raw : JsValue) : Option Generation := do
  let n ←
    match raw with
    | .number x => some x
    | .string s => (nonBlank s).bind fun t => Ecma.number t.toList
    | _ => none
  if 1 ≤ n then Generation.ofNat? ⌈n⌉.toNat else none

structure FloorInfo where
  validFloor : Option Generation
  raw : Option JsValue
  rawParsed : Option Generation

variable (loaded : RawState)

def malformedFloors : List JsValue :=
  (loaded.generationFloor.filter fun v => (asGeneration v).isNone).toList++loaded.generationFloorRaw.toList

def classifyGenerationFloor : FloorInfo where
  validFloor := loaded.generationFloor.bind asGeneration
  raw := (malformedFloors loaded).head?
  rawParsed := (malformedFloors loaded).foldl
    (fun parsed v =>
      match parseGenerationFloorRaw v with
      | some g => raiseFloor parsed g
      | none => parsed) none

def joinFloors (a b : Option Generation) : Option Generation :=
  match b with
  | some g => raiseFloor a g
  | none => a

variable (state : PfAnchorRegistryState)

def clearDirtyUnlessFloorRepairOwed : PfAnchorRegistryState :=
  { state with dirty := state.generationFloorRaw.isSome }

def readEnableReference : Option PfEnableReference :=
  state.reference.map fun r => ⟨r.token,r.bootSessionUuid.bind nonBlank⟩

def readEnableReferenceFromRaw : Option PfEnableReference :=
  (loaded.enableToken.bind asString).bind fun token =>
    if digitsOnly token then some ⟨token,(loaded.enableTokenBootSession.bind asString).bind nonBlank⟩ else none

def readCommitted (u : ConfinedUnion) : List RawEntry → Except GateError ConfinedUnion
  | [] => .ok u
  | raw::raws =>
    match validateEntry raw with
    | none => .error .malformedEntry
    | some e => if h : e.agentUid∈u.uids then .error (.duplicateUid e.agentUid) else readCommitted (u.push e h) raws

def readPending : Option (List RawEntry) → Option ConfinedUnion
  | none => none
  | some raws => (readCommitted .empty raws).toOption

def isStateVersion : Option JsValue → Bool
  | some (.number x) => decide (x=1)
  | _ => false

/-- The loaded state around its committed entries, with what the rest of the file gives for dirty. -/
def normalizedWith (committed : ConfinedUnion) : PfAnchorRegistryState where
  committed := committed
  reference := readEnableReferenceFromRaw loaded
  pending := loaded.pending.bind readPending
  dirty := decide (loaded.pending.isSome ∧ (loaded.pending.bind readPending).isNone) ||
    (loaded.dirty.bind asBool).getD false || (classifyGenerationFloor loaded).raw.isSome ||
    decide (committed.entries≠[] ∧ (readEnableReferenceFromRaw loaded).isNone)
  generationFloor := joinFloors (classifyGenerationFloor loaded).validFloor (classifyGenerationFloor loaded).rawParsed
  generationFloorRaw := (classifyGenerationFloor loaded).raw

def normalizeState : Option RawState → Except GateError PfAnchorRegistryState
  | none => .ok ⟨.empty,none,none,false,none,none⟩
  | some loaded =>
    if !isStateVersion loaded.version then .error .unknownVersion
    else
      match loaded.committed with
      | none => .error .committedNotArray
      | some raws => (readCommitted .empty raws).map (normalizedWith loaded)

def PfAnchorRegistryState.raw : RawState where
  version := some (.number 1)
  committed := some (state.committed.entries.map (·.raw))
  enableToken := state.reference.map fun r => .string r.token
  enableTokenBootSession := (state.reference.bind (·.bootSessionUuid)).map .string
  pending := state.pending.map fun p => some (p.entries.map (·.raw))
  dirty := if state.dirty then some (.bool true) else none
  generationFloor := state.generationFloor.map fun g => .number g.val
  generationFloorRaw := state.generationFloorRaw

structure RegistryListing where
  entries : List PfAnchorRegistryEntry
  dirty : Bool
  generationFloor : Option Generation

structure Host (ρ : Type) where
  registry : RegistryFile
  anchor : List PfRule
  rest : ρ

def RegistryFile.load : RegistryFile → Except GateError (Option RawState)
  | .absent => .ok none
  | .unreadable => .error .unreadable
  | .object raw => .ok (some raw)

variable (file : RegistryFile)

def RegistryFile.normalized : Except GateError PfAnchorRegistryState :=
  file.load.bind normalizeState

/-- `list()`. A journaled set counts as dirty. -/
def RegistryFile.list : Except GateError RegistryListing :=
  file.normalized.map fun state =>
    ⟨state.committed.entries,state.dirty || state.pending.isSome,state.generationFloor⟩

structure Quarantined where
  index : Nat
  duplicate : Bool
  raw : RawEntry

def classifyFrom (u : ConfinedUnion) (quarantined : List Quarantined) (index : Nat) :
    List RawEntry → ConfinedUnion × List Quarantined
  | [] => (u,quarantined)
  | raw::raws =>
    match validateEntry raw with
    | none => classifyFrom u (quarantined++[⟨index,false,raw⟩]) (index+1) raws
    | some e =>
      if h : e.agentUid∈u.uids then classifyFrom u (quarantined++[⟨index,true,raw⟩]) (index+1) raws
      else classifyFrom (u.push e h) quarantined (index+1) raws

def classifyCommitted : Except GateError (ConfinedUnion × List Quarantined) :=
  if !isStateVersion loaded.version then .error .unknownVersion
  else
    match loaded.committed with
    | none => .error .committedNotArray
    | some raws => .ok (classifyFrom .empty [] 0 raws)

structure QuarantineListing where
  entries : List PfAnchorRegistryEntry
  dirty : Bool
  quarantined : List Nat
  floorMalformed : Bool

/-- `listQuarantined()`. -/
def RegistryFile.listQuarantined : Except GateError QuarantineListing :=
  file.load.bind fun
    | none => .ok ⟨[],false,[],false⟩
    | some loaded =>
      (classifyCommitted loaded).map fun (u,quarantined) =>
        let floorMalformed := (classifyGenerationFloor loaded).raw.isSome
        { entries := u.entries
          dirty := (loaded.dirty.bind asBool).getD false || loaded.pending.isSome || decide (quarantined≠[]) ||
            floorMalformed || decide (u.entries≠[] ∧ (readEnableReferenceFromRaw loaded).isNone)
          quarantined := quarantined.map (·.index)
          floorMalformed }

/-- What pf answers a process: whether loaded rules take effect, and the enable reference an arm ends with. -/
structure Pf where
  effective : Bool
  ensure : Option PfEnableReference → Option PfEnableReference

section Programs

variable {ρ : Type} (pf : Pf)

def plainCall (call : Call) : Prog Call (Host ρ) GateError Unit := Prog.read call (.lost call) fun _ => .ok ()

def loadState : Prog Call (Host ρ) GateError (Option RawState) :=
  Prog.read .loadRegistry (.lost .loadRegistry) fun h => h.registry.load

variable (state : PfAnchorRegistryState)

def saveState : Prog Call (Host ρ) GateError Unit :=
  Prog.write .saveRegistry (.lost .saveRegistry) fun h => .ok { h with registry := .object state.raw }

def armPfAnchorUnion (entries : List PfAnchorUnionEntry) (existing : Option PfEnableReference) :
    Prog Call (Host ρ) GateError (Option PfEnableReference) := do
  let rules ← Prog.ofExcept ((renderPfAnchorRulesForUids entries).mapError .render)
  Prog.write .loadRules (.lost .loadRules) fun h => .ok { h with anchor := rules }
  plainCall .installHook
  plainCall .ensureReference
  Prog.read .settle .notSettled fun h =>
    if checkPfAnchorUnionLiveness pf.effective h.anchor entries then .ok () else .error .notSettled
  pure (pf.ensure existing)

def disarmPfAnchor (enableToken : Option String) : Prog Call (Host ρ) GateError Unit := do
  Prog.write .flush (.lost .flush) fun h => .ok { h with anchor := [] }
  match enableToken with
  | none => pure ()
  | some token => if digitsOnly token then plainCall .releaseReference else Prog.fail .malformedToken

/-- Whether the enable reference was released, and the state with the reference it now holds. -/
def applyUnion (desired : ConfinedUnion) :
    Prog Call (Host ρ) GateError (Bool × PfAnchorRegistryState) :=
  if desired.entries=[] then do
    disarmPfAnchor (state.reference.map (·.token))
    pure (state.reference.isSome,{ state with reference := none })
  else do
    let reference ← armPfAnchorUnion pf desired.unionEntries (readEnableReference state)
    pure (false,{ state with reference := reference.or state.reference })

/-- The repair failed: mark the registry, as well as it can be marked, and report both failures. -/
def stranded {α : Type} (cause repair : GateError) :
    Prog Call (Host ρ) GateError α := do
  let _ ← (saveState { state with dirty := true }).attempt
  Prog.fail (.dirty cause repair)

/-- Load a union again and record it as the committed one, without a journal. The state is what the source's
`catch` finds: what was assigned before the call that failed. -/
def reassert (union : ConfinedUnion) (cause : GateError) :
    Prog Call (Host ρ) GateError PfAnchorRegistryState := do
  match ← (applyUnion pf state union).attempt with
  | .error err => stranded state cause err
  | .ok (_,applied) =>
    let settled := clearDirtyUnlessFloorRepairOwed { applied with committed := union, pending := none }
    match ← (saveState settled).attempt with
    | .error err => stranded settled cause err
    | .ok () => pure settled

def reconcile : Prog Call (Host ρ) GateError PfAnchorRegistryState :=
  if state.committed.entries=[] then
    if state.dirty || state.pending.isSome then reassert pf state .empty .couldNotFlush else pure state
  else do
    let live ← Prog.read .probe (.lost .probe) fun h =>
      .ok (checkPfAnchorUnionLiveness pf.effective h.anchor state.committed.unionEntries)
    if live && !state.dirty && state.pending.isNone then pure state
    else reassert pf state state.committed .couldNotReassert

/-- A flush that released the reference is undone with a fresh one; a failed arm with the reference before it. -/
def rollback (previousCommitted : ConfinedUnion)
    (previousReference : Option PfEnableReference) (forwardReleased : Bool) (cause : GateError) :
    Prog Call (Host ρ) GateError PfAnchorRegistryState :=
  if previousCommitted.entries=[] then reassert pf state .empty cause
  else if forwardReleased then reassert pf { state with reference := none } previousCommitted cause
  else reassert pf { state with reference := previousReference } previousCommitted cause

def foldRemoved (desired : List PfAnchorRegistryEntry) (floor : Option Generation) :
    List PfAnchorRegistryEntry → Option Generation
  | [] => floor
  | prev::prevs =>
    match prev.generationId with
    | none => foldRemoved desired floor prevs
    | some g =>
      if desired.any fun e => e.agentUid=prev.agentUid then foldRemoved desired floor prevs
      else foldRemoved desired (raiseFloor floor g) prevs

def assertNoDuplicateUids (u : ConfinedUnion) : List PfAnchorRegistryEntry → Except GateError ConfinedUnion
  | [] => .ok u
  | e::es =>
    if h : e.agentUid∈u.uids then .error (.duplicateUid e.agentUid) else assertNoDuplicateUids (u.push e h) es

/-- The last uid leaving is not held up by the union it flushes. -/
def reconcileBefore (desired : ConfinedUnion) (state : PfAnchorRegistryState) :
    Prog Call (Host ρ) GateError PfAnchorRegistryState :=
  if desired.entries=[] then pure state else reconcile pf state

/-- Save the journal, apply the desired set and commit it; a failure is rolled back. -/
def applyJournaled (journaled : PfAnchorRegistryState) (desired previousCommitted : ConfinedUnion)
    (previousReference : Option PfEnableReference) : Prog Call (Host ρ) GateError PfAnchorRegistryState := do
  saveState journaled
  match ← (applyUnion pf journaled desired).attempt with
  | .error err => do
    let _ ← rollback pf journaled previousCommitted previousReference false err
    Prog.fail err
  | .ok (forwardReleased,applied) =>
    let committed := clearDirtyUnlessFloorRepairOwed { applied with committed := desired, pending := none }
    match ← (saveState committed).attempt with
    | .error err => do
      let _ ← rollback pf committed previousCommitted previousReference forwardReleased err
      Prog.fail err
    | .ok () => pure committed

def mutate (apply : List PfAnchorRegistryEntry → Except GateError (List PfAnchorRegistryEntry)) :
    Prog Call (Host ρ) GateError PfAnchorRegistryState := do
  let loaded ← loadState
  let state ← Prog.ofExcept (normalizeState loaded)
  let entries ← Prog.ofExcept (apply state.committed.entries)
  let desired ← Prog.ofExcept (assertNoDuplicateUids .empty entries)
  let state ← reconcileBefore pf desired state
  let journaled :=
    { state with
      generationFloor := foldRemoved desired.entries state.generationFloor state.committed.entries
      pending := some desired }
  applyJournaled pf journaled desired state.committed (readEnableReference state)

def addOrUpdate (entry : RawEntry) : Prog Call (Host ρ) GateError PfAnchorRegistryState :=
  match validateEntry entry with
  | none => Prog.fail .refusedEntry
  | some validated => mutate pf fun committed =>
      .ok (committed.filter (fun e => e.agentUid≠validated.agentUid)++[validated])

def remove (uid : Nat) : Prog Call (Host ρ) GateError PfAnchorRegistryState :=
  mutate pf fun committed => .ok (committed.filter fun e => e.agentUid≠uid)

structure TombstoneFallback where
  gatePort : Nat
  fortressPath : String
  generationId : Option Nat

/-- The block-only entry for a uid that is not confined yet. -/
def TombstoneFallback.entry (fallback : TombstoneFallback) (uid : Nat) : Option PfAnchorRegistryEntry :=
  validateEntry
    { agentUid := some (.number uid)
      gatePort := some (.number fallback.gatePort)
      fortressPath := some (.string fallback.fortressPath)
      generationId := fallback.generationId.map fun (g : Nat) => .number g
      tombstone := some (.bool true) }

def tombstoned (uid : Nat) (fallback : Option TombstoneFallback) (committed : List PfAnchorRegistryEntry) :
    Except GateError (List PfAnchorRegistryEntry) :=
  if committed.any fun e => e.agentUid=uid then
    .ok (committed.map fun e => if e.agentUid=uid then { e with tombstone := true } else e)
  else
    match fallback with
    | none => .error (.noFallback uid)
    | some fallback =>
      match fallback.entry uid with
      | none => .error (.malformedFallback uid)
      | some added => .ok (committed++[added])

def tombstone (uid : Nat) (fallback : Option TombstoneFallback) :
    Prog Call (Host ρ) GateError PfAnchorRegistryState :=
  mutate pf (tombstoned uid fallback)

structure QuarantineFinding where
  index : Nat
  duplicate : Bool
  agentUid : Option Int
  tombstoned : Bool
  keptAndRemoved : Option (Option Generation × Option Generation)

structure FloorRepair where
  raw : JsValue
  (parsed resolvedFloor : Option Generation)

structure QuarantineRepair where
  findings : List QuarantineFinding
  remaining : List PfAnchorRegistryEntry
  floorRepair : Option FloorRepair

/-- A quarantined entry as a block-only tombstone, when what it says still allows one. -/
def RawEntry.salvage (raw : RawEntry) : Option PfAnchorRegistryEntry :=
  validateEntry
    { raw with
      generationId := (raw.generationId.bind asGeneration).map fun g => .number g.val
      tombstone := some (.bool true) }

structure Salvage where
  next : ConfinedUnion
  removedGenerationMax : Option Generation
  findings : List QuarantineFinding

/-- A uid that is not confined yet is kept; everything else is removed, and its generation remembered. -/
def Salvage.step (s : Salvage) (q : Quarantined) : Salvage :=
  let uid := q.raw.agentUid.bind asInteger
  let generation := q.raw.generationId.bind asGeneration
  let removed : Salvage :=
    { s with
      removedGenerationMax := joinFloors s.removedGenerationMax generation
      findings := s.findings++[⟨q.index,q.duplicate,uid,false,
        if uid.isSome && (validateEntry q.raw).isSome then
          some ((uid.bind fun n => s.next.find n.toNat).bind (·.generationId),generation)
        else none⟩] }
  match q.raw.salvage with
  | none => removed
  | some e =>
    if h : e.agentUid∈s.next.uids then removed
    else { s with next := s.next.push e h, findings := s.findings++[⟨q.index,q.duplicate,uid,true,none⟩] }

def observedGeneration (entries : List PfAnchorRegistryEntry) : Option Generation :=
  entries.foldl (fun highest e => joinFloors highest e.generationId) none

def repairedFloor (info : FloorInfo) (salvage : Salvage) : Option Generation :=
  let carried := joinFloors info.validFloor salvage.removedGenerationMax
  match info.raw with
  | none => carried
  | some _ =>
    match info.rawParsed with
    | some g => raiseFloor carried g
    | none => joinFloors carried (observedGeneration salvage.next.entries)

def repairQuarantined : Prog Call (Host ρ) GateError (Option QuarantineRepair) := do
  match ← loadState with
  | none => pure none
  | some loaded =>
    let (valid,quarantined) ← Prog.ofExcept (classifyCommitted loaded)
    let info := classifyGenerationFloor loaded
    if quarantined.isEmpty && info.raw.isNone then pure none
    else do
      plainCall .loadRegistryBytes
      plainCall .saveForensics
      let salvage := quarantined.foldl Salvage.step ⟨valid,none,[]⟩
      let floor := repairedFloor info salvage
      let state : PfAnchorRegistryState := ⟨salvage.next,readEnableReferenceFromRaw loaded,none,false,floor,none⟩
      let (_,state) ← applyUnion pf state salvage.next
      saveState state
      pure (some ⟨salvage.findings,salvage.next.entries,
        info.raw.map fun raw => ⟨raw,info.rawParsed,floor⟩⟩)

end Programs

end CastleWall.Egress
