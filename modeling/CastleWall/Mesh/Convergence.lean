import CastleWall.Mesh.Revocation
import CastleWall.Support.VersionedMap
import Mathlib.Data.Int.ConditionallyCompleteOrder

/-! # What a sync brings over

The version vectors of `mesh/lifecycle/local-state.ts` and `buildSyncResponse` of `mesh/lifecycle/sync.ts`: a node
tells a peer the versions it holds, and the peer answers with the events above them. -/

namespace CastleWall.Mesh

open VersionedMap

/-- An object without a prototype: its own properties only. -/
abbrev VersionVector := OrderedMap String (Option Int)

def newVersionVector : VersionVector := .empty

/-- 0 for an agent that is not there, and for a value that is not a number. -/
def baselineVersionFor (vector : VersionVector) (agentId : String) : Int := (vector.get agentId).join.getD 0

/-- `>`, which is false of `undefined`. -/
def above (version : Option Int) (baseline : Int) : Bool := version.any fun v => baseline < v

/-- How a table of events by agent is keyed and versioned, and the property a key becomes in a vector. -/
structure TableShape (κ : Type) where
  keyOf : Payload → κ
  nameOf : κ → String
  versionOf : Payload → Option Int
  named : ∀ {a b : Payload}, (versionOf a).isSome=true → (versionOf b).isSome=true →
    nameOf (keyOf a)=nameOf (keyOf b) → keyOf a=keyOf b

section Shape

variable {κ : Type} [DecidableEq κ] (shape : TableShape κ) (table : OrderedMap κ (SignedEvent Payload))

def TableShape.versionVector : VersionVector :=
  table.entries.foldl (fun out entry => out.set (shape.nameOf entry.1) (shape.versionOf entry.2.payload))
    newVersionVector

def TableShape.delta (since : VersionVector) : List (SignedEvent Payload) :=
  (table.entries.filter fun entry =>
    above (shape.versionOf entry.2.payload) (baselineVersionFor since (shape.nameOf entry.1))).map Prod.snd

end Shape

def policyShape : TableShape String where
  keyOf payload := (payload.asPolicyUpdate.map (·.agentId)).getD ""
  nameOf := id
  versionOf := Payload.policyVersion
  named := fun _ _ h => h

def locatorShape : TableShape (Option String) where
  keyOf := Payload.agentId
  nameOf key := key.getD "undefined"
  versionOf := Payload.locatorVersion
  named := by
    intro a b ha hb h
    cases a <;> simp [Payload.locatorVersion,Payload.asLocatorUpdate] at ha
    cases b <;> simp [Payload.locatorVersion,Payload.asLocatorUpdate] at hb
    exact congrArg some h

def PolicyBundleStore.versionVector (store : PolicyBundleStore) : VersionVector :=
  policyShape.versionVector store.byAgent

def PolicyBundleStore.delta (store : PolicyBundleStore) (sincePolicyVersions : VersionVector) :
    List (SignedEvent Payload) :=
  policyShape.delta store.byAgent sincePolicyVersions

def LocatorTableStore.versionVector (store : LocatorTableStore) : VersionVector :=
  locatorShape.versionVector store.byAgent

def LocatorTableStore.deltaByAgent (store : LocatorTableStore) (sinceLocatorVersions : VersionVector) :
    List (SignedEvent Payload) :=
  locatorShape.delta store.byAgent sinceLocatorVersions

def LocatorTableStore.delta (store : LocatorTableStore) (sinceLocatorVersion : Int) : List (SignedEvent Payload) :=
  (store.byAgent.entries.map Prod.snd).filter fun evt => above evt.payload.locatorVersion sinceLocatorVersion

/-- `since_audit_seqs` is always sent empty. -/
structure SyncRequestPayload where
  kind : SyncKind
  requestId : Option String
  (sincePolicyVersions sinceLocatorVersions : Option VersionVector)
  sinceLocatorVersion : Option Int

namespace MeshNode

/-- The payload `requestSyncFromPeer` sends. -/
def syncRequestPayload (node : MeshNode) (kind : SyncKind) (requestId : String) : SyncRequestPayload where
  kind
  requestId := some requestId
  sincePolicyVersions := some node.policyBundle.versionVector
  sinceLocatorVersions := some node.locatorTable.versionVector
  sinceLocatorVersion := some node.locatorTable.highestVersion

/-- An agent-state transfer brings no tables. -/
def buildSyncResponse (node : MeshNode) (request : SyncRequestPayload) : SyncResponsePayload :=
  match request.kind with
  | .agentStateTransfer => ⟨.agentStateTransfer,request.requestId,none,none,none,[]⟩
  | kind =>
    { kind
      requestId := request.requestId
      policyUpdates := some (node.policyBundle.delta (request.sincePolicyVersions.getD newVersionVector))
      locatorUpdates := some (match request.sinceLocatorVersions with
        | some vector => node.locatorTable.deltaByAgent vector
        | none => node.locatorTable.delta (request.sinceLocatorVersion.getD 0))
      nodeLifecycleEvents := some (if kind=.initialSync then node.lifecycleLog.entries.map (·.event) else [])
      rest := [("audit_batches",.arr [])] }

end MeshNode

section Versions

variable {κ : Type} [DecidableEq κ] {shape : TableShape κ} {table : OrderedMap κ (SignedEvent Payload)}

def TableShape.versionIn (shape : TableShape κ) (table : OrderedMap κ (SignedEvent Payload)) (key : κ) : Option Int :=
  (table.get key).bind fun evt => shape.versionOf evt.payload

def TableShape.Typed (shape : TableShape κ) (table : OrderedMap κ (SignedEvent Payload)) : Prop :=
  ∀ key evt, table.get key=some evt → shape.keyOf evt.payload=key ∧ (shape.versionOf evt.payload).isSome=true

def TableShape.Covers (shape : TableShape κ) (upper lower : OrderedMap κ (SignedEvent Payload)) : Prop :=
  ∀ key version, shape.versionIn lower key=some version →
    ∃ held, shape.versionIn upper key=some held ∧ version ≤ held

def TableShape.eventKey (shape : TableShape κ) (evt : SignedEvent Payload) : κ := shape.keyOf evt.payload

def TableShape.eventVersion (shape : TableShape κ) (evt : SignedEvent Payload) : Int :=
  (shape.versionOf evt.payload).getD 0

variable {key : κ} {version : Int}

theorem TableShape.versionIn_eq_some (h : shape.versionIn table key=some version) :
    ∃ evt, table.get key=some evt ∧ shape.versionOf evt.payload=some version := Option.bind_eq_some_iff.mp h

theorem TableShape.Typed.versionIn_of_get (htyp : shape.Typed table) {evt : SignedEvent Payload}
    (h : table.get key=some evt) : shape.versionIn table key=some (shape.eventVersion evt) := by
  obtain ⟨version,hver⟩ := Option.isSome_iff_exists.mp (htyp key evt h).2
  rw [TableShape.versionIn,h,TableShape.eventVersion,Option.bind_some,hver]
  rfl

theorem TableShape.rank_of_versionIn (h : shape.versionIn table key=some version) :
    rank shape.eventVersion table key=version := by
  obtain ⟨evt,hget,hver⟩ := TableShape.versionIn_eq_some h
  rw [rank_of_get hget,TableShape.eventVersion,hver]
  rfl

theorem TableShape.Typed.exists_of_le_rank (htyp : shape.Typed table)
    (h : (version : WithBot Int) ≤ rank shape.eventVersion table key) :
    ∃ held, shape.versionIn table key=some held ∧ version ≤ held := by
  cases hget : table.get key with
  | none =>
    rw [rank,hget] at h
    exact absurd (le_bot_iff.mp h) WithBot.coe_ne_bot
  | some evt =>
    rw [rank_of_get hget] at h
    exact ⟨shape.eventVersion evt,htyp.versionIn_of_get hget,WithBot.coe_le_coe.mp h⟩

end Versions

section Vector

variable {κ : Type} [DecidableEq κ] {shape : TableShape κ} {table : OrderedMap κ (SignedEvent Payload)}

theorem get_foldl_set_of_forall_ne {ε ν : Type} {nameOf : ε → String} {valueOf : ε → ν} {entries : List ε}
    {out : OrderedMap String ν} {name : String} (h : ∀ entry∈entries, nameOf entry≠name) :
    (entries.foldl (fun out entry => out.set (nameOf entry) (valueOf entry)) out).get name=out.get name := by
  induction entries generalizing out with
  | nil => rfl
  | cons first rest ih =>
    rw [List.forall_mem_cons] at h
    rw [List.foldl_cons,ih h.2]
    exact OrderedMap.get_set_ne out (valueOf first) (Ne.symm h.1)

theorem get_foldl_set_of_mem {ε ν : Type} (nameOf : ε → String) {valueOf : ε → ν} {entries : List ε} {entry : ε}
    (hmem : entry∈entries) (hone : ∀ other∈entries, nameOf other=nameOf entry → other=entry)
    (out : OrderedMap String ν) :
    (entries.foldl (fun out entry => out.set (nameOf entry) (valueOf entry)) out).get (nameOf entry) =
      some (valueOf entry) := by
  induction entries generalizing out with
  | nil => cases hmem
  | cons first rest ih =>
    rw [List.forall_mem_cons] at hone
    rw [List.foldl_cons]
    by_cases hres : entry∈rest
    · exact ih hres hone.2 _
    · rcases List.mem_cons.mp hmem with rfl | hmem
      · rw [get_foldl_set_of_forall_ne]
        · exact OrderedMap.get_set_self out _ _
        · intro other hoth hnam
          exact hres (hone.2 other hoth hnam ▸ hoth)
      · exact absurd hmem hres

theorem TableShape.Typed.of_mem (htyp : shape.Typed table) {entry : κ × SignedEvent Payload}
    (h : entry∈table.entries) :
    shape.keyOf entry.2.payload=entry.1 ∧ (shape.versionOf entry.2.payload).isSome=true :=
  htyp entry.1 entry.2 (OrderedMap.get_of_mem h)

/-- The vector of a table has the version of every agent, and none of an agent that is not there. -/
theorem TableShape.Typed.baselineVersionFor_eq (htyp : shape.Typed table) {payload : Payload}
    (hpay : (shape.versionOf payload).isSome=true) :
    baselineVersionFor (shape.versionVector table) (shape.nameOf (shape.keyOf payload)) =
      (shape.versionIn table (shape.keyOf payload)).getD 0 := by
  have hnam : ∀ entry∈table.entries, shape.nameOf entry.1=shape.nameOf (shape.keyOf payload) →
      entry.1=shape.keyOf payload := by
    intro entry hent hnae
    rw [← (htyp.of_mem hent).1] at hnae ⊢
    exact shape.named (htyp.of_mem hent).2 hpay hnae
  unfold baselineVersionFor TableShape.versionVector
  cases hget : table.get (shape.keyOf payload) with
  | none =>
    rw [get_foldl_set_of_forall_ne,TableShape.versionIn,hget]
    · rfl
    · intro entry hent hnae
      have hsom := OrderedMap.get_of_mem hent
      rw [hnam entry hent hnae,hget] at hsom
      cases hsom
  | some evt =>
    have hmem : (shape.keyOf payload,evt)∈table.entries := OrderedMap.mem_of_get hget
    have hone : ∀ other∈table.entries,
        shape.nameOf other.1=shape.nameOf (shape.keyOf payload) → other=(shape.keyOf payload,evt) := by
      intro other hoth hnae
      have hkey := hnam other hoth hnae
      have hsom := OrderedMap.get_of_mem hoth
      rw [hkey,hget] at hsom
      exact Prod.ext hkey (Option.some.inj hsom).symm
    rw [get_foldl_set_of_mem (fun entry => shape.nameOf entry.1) hmem hone,TableShape.versionIn,hget]
    rfl

theorem above_iff {version : Option Int} {baseline : Int} (h : version.isSome=true) :
    above version baseline=true ↔ baseline < version.getD 0 := by
  obtain ⟨v,rfl⟩ := Option.isSome_iff_exists.mp h
  simp [above]

theorem TableShape.Typed.mem_delta (htyp : shape.Typed table) {since : VersionVector} {evt : SignedEvent Payload} :
    evt∈shape.delta table since ↔
      table.get (shape.eventKey evt)=some evt ∧
        baselineVersionFor since (shape.nameOf (shape.eventKey evt)) < shape.eventVersion evt := by
  rw [TableShape.delta,List.mem_map]
  constructor
  · rintro ⟨⟨key,_⟩,hmem,rfl⟩
    rw [List.mem_filter] at hmem
    obtain ⟨hkey,hver⟩ := htyp.of_mem hmem.1
    change shape.keyOf _=key at hkey
    rw [above_iff hver] at hmem
    rw [TableShape.eventKey,hkey]
    exact ⟨OrderedMap.get_of_mem hmem.1,hmem.2⟩
  · intro ⟨hget,hbel⟩
    refine ⟨(shape.eventKey evt,evt),List.mem_filter.mpr ⟨OrderedMap.mem_of_get hget,?_⟩,rfl⟩
    rw [above_iff (htyp _ _ hget).2]
    exact hbel

end Vector

section Table

variable {κ : Type} [DecidableEq κ] {shape : TableShape κ} {requester responder : OrderedMap κ (SignedEvent Payload)}

def TableShape.keep (shape : TableShape κ) (table : OrderedMap κ (SignedEvent Payload)) (evt : SignedEvent Payload) :
    OrderedMap κ (SignedEvent Payload) := keepNewer shape.eventKey shape.eventVersion table evt

theorem TableShape.Typed.keep {table : OrderedMap κ (SignedEvent Payload)} (htyp : shape.Typed table)
    {evt : SignedEvent Payload} (hevt : (shape.versionOf evt.payload).isSome=true) :
    shape.Typed (shape.keep table evt) := by
  intro key other hget
  by_cases hkey : key=shape.eventKey evt
  · subst hkey
    rcases get_keepNewer_self shape.eventKey shape.eventVersion table evt with ⟨hsel,-⟩ | ⟨-,-,-,hsam⟩
    · cases hsel.symm.trans hget
      exact ⟨rfl,hevt⟩
    · rw [TableShape.keep,hsam] at hget
      exact htyp _ _ hget
  · rw [TableShape.keep,get_keepNewer_ne hkey] at hget
    exact htyp _ _ hget

variable {evts : List (SignedEvent Payload)}

theorem TableShape.Typed.foldl_keep {table : OrderedMap κ (SignedEvent Payload)} (htyp : shape.Typed table) (hevt : ∀ evt∈evts, (shape.versionOf evt.payload).isSome=true) :
    shape.Typed (evts.foldl shape.keep table) := by
  induction evts generalizing table with
  | nil => exact htyp
  | cons evt evts ih =>
    rw [List.forall_mem_cons] at hevt
    exact ih (htyp.keep hevt.1) hevt.2

theorem TableShape.Typed.covers_foldl_keep {table : OrderedMap κ (SignedEvent Payload)} (htyp : shape.Typed table) (hevt : ∀ evt∈evts, (shape.versionOf evt.payload).isSome=true) :
    shape.Covers (evts.foldl shape.keep table) table := by
  intro key version hver
  apply (htyp.foldl_keep hevt).exists_of_le_rank
  rw [← TableShape.rank_of_versionIn hver]
  exact rank_le_foldl key

/-- Where the answer to a request leaves no agent behind: an event at version 0 or below is not above the baseline
of an agent the requester has nothing of. -/
def TableShape.Answerable (shape : TableShape κ) (requester responder : OrderedMap κ (SignedEvent Payload)) : Prop :=
  ∀ key version, shape.versionIn responder key=some version → version ≤ 0 →
    (shape.versionIn requester key).isSome=true

theorem TableShape.Typed.delta_versioned (hres : shape.Typed responder) (since : VersionVector) :
    ∀ evt∈shape.delta responder since, (shape.versionOf evt.payload).isSome=true :=
  fun evt hevt => (hres _ evt (hres.mem_delta.mp hevt).1).2

theorem TableShape.covers_delta_iff (hreq : shape.Typed requester) (hres : shape.Typed responder) :
    shape.Covers ((shape.delta responder (shape.versionVector requester)).foldl shape.keep requester) responder ↔
      shape.Answerable requester responder := by
  have htyp := hreq.foldl_keep (hres.delta_versioned (shape.versionVector requester))
  have hbas : ∀ evt, responder.get (shape.eventKey evt)=some evt →
      baselineVersionFor (shape.versionVector requester) (shape.nameOf (shape.eventKey evt)) =
        (shape.versionIn requester (shape.eventKey evt)).getD 0 :=
    fun evt hget => hreq.baselineVersionFor_eq (hres _ evt hget).2
  constructor
  · intro hcov key version hver hlow
    obtain ⟨held,hhel,-⟩ := hcov key version hver
    obtain ⟨evt,hget,-⟩ := TableShape.versionIn_eq_some hhel
    rcases (newest_of_get_foldl hget).among with hsom | ⟨hser,hkey⟩
    · rw [hreq.versionIn_of_get hsom]
      rfl
    · -- the event was served, so its version is above the baseline
      subst hkey
      obtain ⟨hevt,hbel⟩ := hres.mem_delta.mp hser
      rw [hbas evt hevt] at hbel
      cases hnone : shape.versionIn requester (shape.eventKey evt) with
      | some _ => rfl
      | none =>
        rw [hres.versionIn_of_get hevt,Option.some.injEq] at hver
        rw [hnone,hver] at hbel
        exact absurd hbel (not_lt.mpr hlow)
  · intro hans key version hver
    obtain ⟨evt,hget,hevt⟩ := TableShape.versionIn_eq_some hver
    have hkey : shape.eventKey evt=key := (hres key evt hget).1
    subst hkey
    have heq : shape.eventVersion evt=version := by
      rw [TableShape.eventVersion,hevt]
      rfl
    apply htyp.exists_of_le_rank
    by_cases hser : evt∈shape.delta responder (shape.versionVector requester)
    · rw [← heq]
      exact version_le_rank_foldl hser
    · -- the requester holds a version that is no lower
      rw [hres.mem_delta,not_and,not_lt,hbas evt hget,heq] at hser
      refine le_trans ?_ (rank_le_foldl (shape.eventKey evt))
      cases hhel : shape.versionIn requester (shape.eventKey evt) with
      | some held =>
        rw [TableShape.rank_of_versionIn hhel]
        rw [hhel] at hser
        exact WithBot.coe_le_coe.mpr (hser hget)
      | none =>
        rw [hhel] at hser
        have hsom := hans _ version hver (hser hget)
        rw [hhel] at hsom
        cases hsom

def TableShape.Distinct (shape : TableShape κ) (evts : List (SignedEvent Payload)) : Prop :=
  ∀ a∈evts, ∀ b∈evts, ∀ version, shape.versionOf a.payload=some version → shape.versionOf b.payload=some version →
    shape.keyOf a.payload=shape.keyOf b.payload → a=b

theorem TableShape.get_foldl_keep_congr {table : OrderedMap κ (SignedEvent Payload)}
    {evts' : List (SignedEvent Payload)} (hsam : ∀ evt, evt∈evts ↔ evt∈evts')
    (hver : ∀ evt∈evts, (shape.versionOf evt.payload).isSome=true) (hdis : shape.Distinct evts) (key : κ) :
    (evts.foldl shape.keep table).get key=(evts'.foldl shape.keep table).get key := by
  refine get_foldl_congr hsam (fun a ha b hb hkey hven => ?_) key
  obtain ⟨v,hv⟩ := Option.isSome_iff_exists.mp (hver a ha)
  obtain ⟨w,hw⟩ := Option.isSome_iff_exists.mp (hver b hb)
  rw [TableShape.eventVersion,TableShape.eventVersion,hv,hw] at hven
  cases hven
  exact hdis a ha b hb v hv hw hkey

end Table

section Stores

variable {env : MeshEnv} {nowMs : Int}

def isCurrentPolicy (env : MeshEnv) (nowMs : Int) (evt : SignedEvent Payload) : Bool :=
  evt.payload.asPolicyUpdate.any fun p => decide (validatePolicyUpdateEvent env nowMs evt p=.applied)

def isLocatorUpdate (evt : SignedEvent Payload) : Bool := evt.payload.asLocatorUpdate.isSome

/-- Every event is a locator update under its own agent, and none is above the highest version. -/
structure LocatorTableStore.Coherent (store : LocatorTableStore) : Prop where
  typed : locatorShape.Typed store.byAgent
  highest : ∀ key, rank locatorShape.eventVersion store.byAgent key ≤ (store.highestVersion : WithBot Int)

variable {evt : SignedEvent Payload}

theorem isCurrentPolicy_versioned (h : isCurrentPolicy env nowMs evt=true) :
    (policyShape.versionOf evt.payload).isSome=true := by
  cases hp : evt.payload.asPolicyUpdate with
  | none => simp [isCurrentPolicy,hp] at h
  | some p => simp [policyShape,Payload.policyVersion,hp]

/-- An event that is refused leaves the table, and any other is kept where it is newer. -/
theorem PolicyBundleStore.upsert_byAgent (env : MeshEnv) (nowMs : Int) {store : PolicyBundleStore}
    (htyp : policyShape.Typed store.byAgent) (evt : SignedEvent Payload) :
    (store.upsert env nowMs evt).1.byAgent =
      if isCurrentPolicy env nowMs evt then policyShape.keep store.byAgent evt else store.byAgent := by
  unfold PolicyBundleStore.upsert isCurrentPolicy
  cases hp : evt.payload.asPolicyUpdate with
  | none => simp
  | some p =>
    by_cases hval : validatePolicyUpdateEvent env nowMs evt p=.applied
    · have hkey : policyShape.eventKey evt=p.agentId := by simp [TableShape.eventKey,policyShape,hp]
      have hver : policyShape.eventVersion evt=p.policyVersion := by
        simp [TableShape.eventVersion,policyShape,Payload.policyVersion,hp]
      simp only [hval,Option.any_some,decide_true,if_true,TableShape.keep,keepNewer,hkey,hver]
      cases hget : store.byAgent.get p.agentId with
      | none => rfl
      | some held =>
        have hhel : held.payload.policyVersion=some (policyShape.eventVersion held) := by
          have h := htyp.versionIn_of_get hget
          rwa [TableShape.versionIn,hget] at h
        simp only [Option.bind_some,hhel]
        by_cases hle : p.policyVersion ≤ policyShape.eventVersion held
        · rw [if_pos hle,if_pos hle]
        · rw [if_neg hle,if_neg hle]
    · simp only [Option.any_some,hval,decide_false,Bool.false_eq_true,if_false]

theorem PolicyBundleStore.foldl_upsert_byAgent {store : PolicyBundleStore} (htyp : policyShape.Typed store.byAgent)
    (evts : List (SignedEvent Payload)) :
    (evts.foldl (fun store evt => (store.upsert env nowMs evt).1) store).byAgent =
      (evts.filter (isCurrentPolicy env nowMs)).foldl policyShape.keep store.byAgent := by
  induction evts generalizing store with
  | nil => rfl
  | cons evt evts ih =>
    have hfir := upsert_byAgent env nowMs htyp evt
    by_cases hcur : isCurrentPolicy env nowMs evt=true
    · rw [if_pos hcur] at hfir
      rw [List.foldl_cons,ih (hfir ▸ htyp.keep (isCurrentPolicy_versioned hcur)),hfir,
        List.filter_cons_of_pos hcur,List.foldl_cons]
    · rw [if_neg hcur] at hfir
      rw [List.foldl_cons,ih (hfir ▸ htyp),hfir,List.filter_cons_of_neg hcur]

theorem isLocatorUpdate_versioned (h : isLocatorUpdate evt=true) :
    (locatorShape.versionOf evt.payload).isSome=true := by
  simpa [locatorShape,Payload.locatorVersion,isLocatorUpdate] using h

variable {store : LocatorTableStore}

/-- An update is kept where it is newer, and the highest version is that of all that came. -/
theorem LocatorTableStore.Coherent.upsert_eq (hcoh : store.Coherent) (hevt : isLocatorUpdate evt=true) :
    (store.upsert evt).1 =
      ⟨locatorShape.keep store.byAgent evt,max store.highestVersion (locatorShape.eventVersion evt)⟩ := by
  have hver : evt.payload.locatorVersion=some (locatorShape.eventVersion evt) := by
    obtain ⟨version,h⟩ := Option.isSome_iff_exists.mp (isLocatorUpdate_versioned hevt)
    rw [TableShape.eventVersion,h]
    exact h
  unfold LocatorTableStore.upsert
  simp only [TableShape.keep,keepNewer,show locatorShape.eventKey evt=evt.payload.agentId from rfl,hver,
    Option.elim_some]
  cases hget : store.byAgent.get evt.payload.agentId with
  | none => rfl
  | some held =>
    have hin := hcoh.typed.versionIn_of_get hget
    have hhel : held.payload.locatorVersion=some (locatorShape.eventVersion held) := by
      rwa [TableShape.versionIn,hget] at hin
    simp only [hhel,atLeast,decide_eq_true_eq,Option.some.injEq]
    by_cases hle : locatorShape.eventVersion evt ≤ locatorShape.eventVersion held
    · have hhig := hcoh.highest evt.payload.agentId
      rw [TableShape.rank_of_versionIn hin,WithBot.coe_le_coe] at hhig
      rw [if_pos hle,if_pos hle,max_eq_left (hle.trans hhig)]
      split <;> rfl
    · rw [if_neg hle,if_neg hle,if_neg fun h => hle h.1.ge]

theorem LocatorTableStore.Coherent.upsert (hcoh : store.Coherent) (hevt : isLocatorUpdate evt=true) : (store.upsert evt).1.Coherent := by
  rw [hcoh.upsert_eq hevt]
  refine ⟨hcoh.typed.keep (isLocatorUpdate_versioned hevt),fun key => ?_⟩
  rw [TableShape.keep,rank_keepNewer,WithBot.coe_max]
  by_cases hkey : key=locatorShape.eventKey evt
  · rw [if_pos hkey]
    exact max_le_max_right _ (hcoh.highest key)
  · rw [if_neg hkey]
    exact (hcoh.highest key).trans (le_max_left _ _)

theorem LocatorTableStore.Coherent.foldl_upsert (hcoh : store.Coherent)
    {evts : List (SignedEvent Payload)} (hevt : ∀ evt∈evts, isLocatorUpdate evt=true) :
    evts.foldl (fun store evt => (store.upsert evt).1) store =
      ⟨evts.foldl locatorShape.keep store.byAgent,
        evts.foldl (fun highest evt => max highest (locatorShape.eventVersion evt)) store.highestVersion⟩ := by
  induction evts generalizing store with
  | nil => rfl
  | cons evt evts ih =>
    rw [List.forall_mem_cons] at hevt
    rw [List.foldl_cons,ih (hcoh.upsert hevt.1) hevt.2,hcoh.upsert_eq hevt.1]
    rfl

theorem foldl_max_le_iff (evts : List (SignedEvent Payload)) (highest bound : Int) :
    evts.foldl (fun highest evt => max highest (locatorShape.eventVersion evt)) highest ≤ bound ↔
      highest ≤ bound ∧ ∀ evt∈evts, locatorShape.eventVersion evt ≤ bound := by
  induction evts generalizing highest with
  | nil => simp
  | cons evt evts ih => rw [List.foldl_cons,ih,max_le_iff,List.forall_mem_cons,and_assoc]

end Stores

section Apply

variable {env : MeshEnv} {nowMs : Int} {node : MeshNode}

structure SameStores (before after : MeshNode) : Prop where
  policyBundle : after.policyBundle=before.policyBundle
  locatorTable : after.locatorTable=before.locatorTable

theorem admitRevoke_sameStores {evt : SignedEvent Payload} {freshness : FreshnessMode} {via : Option Channel}
    {result : MeshNode × List Mark} (h : node.admitRevoke env nowMs evt freshness via=.ok result) :
    SameStores node result.1 := by
  unfold MeshNode.admitRevoke at h
  obtain ⟨_,-,h⟩ := Outcome.bind_ok h
  obtain ⟨authKey,-,h⟩ := Outcome.bind_ok h
  split at h
  · rw [Outcome.require_bind_eq_ok] at h
    cases h.2
    exact ⟨rfl,rfl⟩
  · cases h
    exact ⟨rfl,rfl⟩

theorem applySyncEvent_sameStores (env : MeshEnv) (nowMs : Int) (node : MeshNode) (evt : SignedEvent Payload) :
    SameStores node (node.applySyncEvent env nowMs evt).1 := by
  unfold MeshNode.applySyncEvent
  cases hadm : node.admitSyncEvent env nowMs evt with
  | error refusal => exact ⟨rfl,rfl⟩
  | ok result =>
    unfold MeshNode.admitSyncEvent at hadm
    split at hadm
    · obtain ⟨join,-,hadm⟩ := Outcome.bind_ok hadm
      obtain ⟨_,-,hadm⟩ := Outcome.bind_ok hadm
      obtain ⟨roster,-,hadm⟩ := Outcome.bind_ok hadm
      cases hadm
      exact ⟨rfl,rfl⟩
    · obtain ⟨_,-,hadm⟩ := Outcome.bind_ok hadm
      obtain ⟨_,-,hadm⟩ := Outcome.bind_ok hadm
      split at hadm
      · obtain ⟨admitted,hrev,hadm⟩ := Outcome.bind_ok hadm
        have hsam := admitRevoke_sameStores hrev
        cases hadm
        exact ⟨hsam.policyBundle,hsam.locatorTable⟩
      · split at hadm <;> cases hadm <;> exact ⟨rfl,rfl⟩

theorem applySyncEvents_sameStores (env : MeshEnv) (nowMs : Int) (node : MeshNode) (evts : List (SignedEvent Payload)) :
    SameStores node (node.applySyncEvents env nowMs evts).1 := by
  induction evts generalizing node with
  | nil => exact ⟨rfl,rfl⟩
  | cons evt evts ih =>
    have hfir := applySyncEvent_sameStores env nowMs node evt
    have hres := ih (node.applySyncEvent env nowMs evt).1
    exact ⟨hres.policyBundle.trans hfir.policyBundle,hres.locatorTable.trans hfir.locatorTable⟩

theorem applyTable_policy (evts : List (SignedEvent Payload)) :
    (MeshNode.applyTable (fun node evt => node.applyPolicy env nowMs evt) node evts).1 =
      { node with
        policyBundle := evts.foldl (fun store evt => (store.upsert env nowMs evt).1) node.policyBundle } := by
  induction evts generalizing node with
  | nil => rfl
  | cons evt evts ih =>
    rw [MeshNode.applyTable,ih]
    rfl

theorem applyTable_locator (evts : List (SignedEvent Payload)) :
    (MeshNode.applyTable (fun node evt => node.applyLocator evt) node evts).1 =
      { node with
        locatorTable := evts.foldl (fun store evt => (store.upsert evt).1) node.locatorTable } := by
  induction evts generalizing node with
  | nil => rfl
  | cons evt evts ih =>
    rw [MeshNode.applyTable,ih]
    rfl

def MeshNode.verified (env : MeshEnv) (nowMs : Int) (node : MeshNode) (evts : Option (List (SignedEvent Payload))) :
    List (SignedEvent Payload) := (evts.getD []).filter (node.verifies env nowMs)

theorem applySync_policyBundle (payload : SyncResponsePayload) :
    (node.applySync env nowMs payload).1.policyBundle =
      (node.verified env nowMs payload.policyUpdates).foldl (fun store evt => (store.upsert env nowMs evt).1)
        node.policyBundle := by
  rw [MeshNode.applySync,applyTable_locator,applyTable_policy,(applySyncEvents_sameStores env nowMs node _).policyBundle]
  rfl

theorem applySync_locatorTable (payload : SyncResponsePayload) :
    (node.applySync env nowMs payload).1.locatorTable =
      (node.verified env nowMs payload.locatorUpdates).foldl (fun store evt => (store.upsert evt).1)
        node.locatorTable := by
  rw [MeshNode.applySync,applyTable_locator,applyTable_policy,(applySyncEvents_sameStores env nowMs node _).locatorTable]
  rfl

end Apply

structure MeshNode.TablesTyped (node : MeshNode) : Prop where
  policies : policyShape.Typed node.policyBundle.byAgent
  locators : node.locatorTable.Coherent

/-- Every event the responder holds verifies at the requester, and its policies are valid there now. -/
structure MeshNode.AcceptsTablesOf (requester : MeshNode) (env : MeshEnv) (nowMs : Int) (responder : MeshNode) :
    Prop where
  policies : ∀ agentId evt, responder.policyBundle.byAgent.get agentId=some evt →
    requester.verifies env nowMs evt=true ∧ isCurrentPolicy env nowMs evt=true
  locators : ∀ agentId evt, responder.locatorTable.byAgent.get agentId=some evt →
    requester.verifies env nowMs evt=true

def MeshNode.Covers (upper lower : MeshNode) : Prop :=
  policyShape.Covers upper.policyBundle.byAgent lower.policyBundle.byAgent ∧
    locatorShape.Covers upper.locatorTable.byAgent lower.locatorTable.byAgent

def MeshNode.syncedFrom (requester : MeshNode) (env : MeshEnv) (nowMs : Int) (responder : MeshNode) (kind : SyncKind)
    (requestId : String) : MeshNode :=
  (requester.applySync env nowMs (responder.buildSyncResponse (requester.syncRequestPayload kind requestId))).1

/-- No agent of the responder is left behind: a request for tables does not bring an event at version 0 or below of
an agent the requester has nothing of, and a state transfer brings none. -/
def MeshNode.AnswerableBy (requester responder : MeshNode) (kind : SyncKind) : Prop :=
  match kind with
  | .agentStateTransfer => requester.Covers responder
  | _ => policyShape.Answerable requester.policyBundle.byAgent responder.policyBundle.byAgent ∧
      locatorShape.Answerable requester.locatorTable.byAgent responder.locatorTable.byAgent

structure SameEntries (a b : MeshNode) : Prop where
  policies : ∀ agentId, a.policyBundle.byAgent.get agentId=b.policyBundle.byAgent.get agentId
  locators : ∀ agentId, a.locatorTable.byAgent.get agentId=b.locatorTable.byAgent.get agentId
  highest : a.locatorTable.highestVersion=b.locatorTable.highestVersion

def SameEvents (evts evts' : Option (List (SignedEvent Payload))) : Prop :=
  ∀ evt, evt∈evts.getD [] ↔ evt∈evts'.getD []

def MeshNode.OrderFree (env : MeshEnv) (nowMs : Int) : Prop :=
  ∀ node : MeshNode, node.TablesTyped → ∀ response response' : SyncResponsePayload,
    SameEvents response.policyUpdates response'.policyUpdates →
    SameEvents response.locatorUpdates response'.locatorUpdates →
    policyShape.Distinct (response.policyUpdates.getD []) → locatorShape.Distinct (response.locatorUpdates.getD []) →
    (∀ evt∈response.locatorUpdates.getD [], isLocatorUpdate evt=true) →
    SameEntries (node.applySync env nowMs response).1 (node.applySync env nowMs response').1

section Convergence

variable {env : MeshEnv} {nowMs : Int} {node requester responder : MeshNode}

theorem mem_verified {evts : Option (List (SignedEvent Payload))} {evt : SignedEvent Payload} :
    evt∈node.verified env nowMs evts ↔ evt∈evts.getD [] ∧ node.verifies env nowMs evt=true := List.mem_filter

theorem SameEvents.verified {evts evts' : Option (List (SignedEvent Payload))} (h : SameEvents evts evts')
    (evt : SignedEvent Payload) : evt∈node.verified env nowMs evts ↔ evt∈node.verified env nowMs evts' := by
  rw [mem_verified,mem_verified,h evt]

theorem TableShape.Distinct.of_subset {κ : Type} {shape : TableShape κ} {evts evts' : List (SignedEvent Payload)}
    (h : shape.Distinct evts) (hsub : ∀ evt∈evts', evt∈evts) : shape.Distinct evts' :=
  fun a ha b hb => h a (hsub a ha) b (hsub b hb)

theorem applySync_policies (htyp : node.TablesTyped) (response : SyncResponsePayload) :
    (node.applySync env nowMs response).1.policyBundle.byAgent =
      ((node.verified env nowMs response.policyUpdates).filter (isCurrentPolicy env nowMs)).foldl policyShape.keep
        node.policyBundle.byAgent := by
  rw [applySync_policyBundle,PolicyBundleStore.foldl_upsert_byAgent htyp.policies]

theorem orderFree : MeshNode.OrderFree env nowMs := by
  intro node htyp response response' hpol hloc hdis hdis' hupd
  have hupd' : ∀ evt∈node.verified env nowMs response.locatorUpdates, isLocatorUpdate evt=true :=
    fun evt hevt => hupd evt (mem_verified.mp hevt).1
  have hupd'' : ∀ evt∈node.verified env nowMs response'.locatorUpdates, isLocatorUpdate evt=true :=
    fun evt hevt => hupd' evt ((hloc.verified evt).mpr hevt)
  constructor
  · intro agentId
    rw [applySync_policies htyp,applySync_policies htyp]
    apply TableShape.get_foldl_keep_congr
    · intro evt
      rw [List.mem_filter,List.mem_filter,hpol.verified evt]
    · intro evt hevt
      exact isCurrentPolicy_versioned (List.mem_filter.mp hevt).2
    · exact hdis.of_subset fun evt hevt => (mem_verified.mp (List.mem_filter.mp hevt).1).1
  · intro agentId
    rw [applySync_locatorTable,applySync_locatorTable,htyp.locators.foldl_upsert hupd',
      htyp.locators.foldl_upsert hupd'']
    apply TableShape.get_foldl_keep_congr hloc.verified
    · intro evt hevt
      exact isLocatorUpdate_versioned (hupd' evt hevt)
    · exact hdis'.of_subset fun evt hevt => (mem_verified.mp hevt).1
  · rw [applySync_locatorTable,applySync_locatorTable,htyp.locators.foldl_upsert hupd',
      htyp.locators.foldl_upsert hupd'']
    apply eq_of_forall_ge_iff
    intro bound
    rw [foldl_max_le_iff,foldl_max_le_iff]
    exact and_congr_right fun _ => forall_congr' fun evt => imp_congr_left (hloc.verified evt)

theorem applySync_served (env : MeshEnv) (nowMs : Int) (htyp : node.TablesTyped) (response : SyncResponsePayload)
    (hpol : ∀ evt∈response.policyUpdates.getD [],
      node.verifies env nowMs evt=true ∧ isCurrentPolicy env nowMs evt=true)
    (hloc : ∀ evt∈response.locatorUpdates.getD [],
      node.verifies env nowMs evt=true ∧ isLocatorUpdate evt=true) :
    (node.applySync env nowMs response).1.policyBundle.byAgent =
        (response.policyUpdates.getD []).foldl policyShape.keep node.policyBundle.byAgent ∧
      (node.applySync env nowMs response).1.locatorTable.byAgent =
        (response.locatorUpdates.getD []).foldl locatorShape.keep node.locatorTable.byAgent := by
  have hver : ∀ {evts : Option (List (SignedEvent Payload))},
      (∀ evt∈evts.getD [], node.verifies env nowMs evt=true) → node.verified env nowMs evts=evts.getD [] :=
    fun h => List.filter_eq_self.mpr h
  constructor
  · rw [applySync_policies htyp,hver fun evt hevt => (hpol evt hevt).1,
      List.filter_eq_self.mpr fun evt hevt => (hpol evt hevt).2]
  · rw [applySync_locatorTable,hver fun evt hevt => (hloc evt hevt).1,
      htyp.locators.foldl_upsert fun evt hevt => (hloc evt hevt).2]

/-- What a request for tables brings: the events above the versions of the requester. -/
theorem syncedFrom_tables (hreq : requester.TablesTyped) (hres : responder.TablesTyped)
    (hacc : requester.AcceptsTablesOf env nowMs responder) {kind : SyncKind} (hkin : kind≠.agentStateTransfer)
    (requestId : String) :
    (requester.syncedFrom env nowMs responder kind requestId).policyBundle.byAgent =
        (policyShape.delta responder.policyBundle.byAgent
          (policyShape.versionVector requester.policyBundle.byAgent)).foldl policyShape.keep
          requester.policyBundle.byAgent ∧
      (requester.syncedFrom env nowMs responder kind requestId).locatorTable.byAgent =
        (locatorShape.delta responder.locatorTable.byAgent
          (locatorShape.versionVector requester.locatorTable.byAgent)).foldl locatorShape.keep
          requester.locatorTable.byAgent := by
  have hpol : (responder.buildSyncResponse (requester.syncRequestPayload kind requestId)).policyUpdates =
      some (policyShape.delta responder.policyBundle.byAgent
        (policyShape.versionVector requester.policyBundle.byAgent)) := by
    cases kind <;> first | rfl | exact absurd rfl hkin
  have hloc : (responder.buildSyncResponse (requester.syncRequestPayload kind requestId)).locatorUpdates =
      some (locatorShape.delta responder.locatorTable.byAgent
        (locatorShape.versionVector requester.locatorTable.byAgent)) := by
    cases kind <;> first | rfl | exact absurd rfl hkin
  have hser := applySync_served env nowMs hreq
    (responder.buildSyncResponse (requester.syncRequestPayload kind requestId))
  rw [hpol,hloc] at hser
  apply hser
  · intro evt hevt
    exact hacc.policies _ evt (hres.policies.mem_delta.mp hevt).1
  · intro evt hevt
    have hget := (hres.locators.typed.mem_delta.mp hevt).1
    refine ⟨hacc.locators _ evt hget,?_⟩
    simpa [isLocatorUpdate,locatorShape,Payload.locatorVersion] using (hres.locators.typed _ evt hget).2

theorem TableShape.Covers.refl {κ : Type} [DecidableEq κ] {shape : TableShape κ}
    (table : OrderedMap κ (SignedEvent Payload)) : shape.Covers table table :=
  fun _ version hver => ⟨version,hver,le_rfl⟩

theorem syncedFrom_transfer (env : MeshEnv) (nowMs : Int) (responder : MeshNode) (hreq : requester.TablesTyped)
    (requestId : String) :
    (requester.syncedFrom env nowMs responder .agentStateTransfer requestId).policyBundle.byAgent =
        requester.policyBundle.byAgent ∧
      (requester.syncedFrom env nowMs responder .agentStateTransfer requestId).locatorTable.byAgent =
        requester.locatorTable.byAgent := by
  apply applySync_served env nowMs hreq
    (responder.buildSyncResponse (requester.syncRequestPayload .agentStateTransfer requestId))
  · intro evt hevt
    cases hevt
  · intro evt hevt
    cases hevt

/-- A sync never takes the requester back. -/
theorem syncedFrom_covers (hreq : requester.TablesTyped) (hres : responder.TablesTyped)
    (hacc : requester.AcceptsTablesOf env nowMs responder) (kind : SyncKind) (requestId : String) :
    (requester.syncedFrom env nowMs responder kind requestId).Covers requester := by
  unfold MeshNode.Covers
  by_cases hkin : kind=.agentStateTransfer
  · subst hkin
    obtain ⟨hpol,hloc⟩ := syncedFrom_transfer env nowMs responder hreq requestId
    rw [hpol,hloc]
    exact ⟨TableShape.Covers.refl _,TableShape.Covers.refl _⟩
  · obtain ⟨hpol,hloc⟩ := syncedFrom_tables hreq hres hacc hkin requestId
    rw [hpol,hloc]
    exact ⟨hreq.policies.covers_foldl_keep (hres.policies.delta_versioned _),
      hreq.locators.typed.covers_foldl_keep (hres.locators.typed.delta_versioned _)⟩

/-- After one sync the requester holds every agent of the responder at the responder's version or above, none of
its own entries is older than before, and the order of events does not show; the first holds exactly where no event
of the responder at version 0 or below is of an agent the requester has nothing of. -/
theorem sync_converges_iff (env : MeshEnv) (nowMs : Int) {requester responder : MeshNode}
    (hrequester : requester.TablesTyped) (hresponder : responder.TablesTyped)
    (haccepts : requester.AcceptsTablesOf env nowMs responder) (kind : SyncKind) (requestId : String) :
    ((requester.syncedFrom env nowMs responder kind requestId).Covers responder ∧
        (requester.syncedFrom env nowMs responder kind requestId).Covers requester ∧ MeshNode.OrderFree env nowMs) ↔
      requester.AnswerableBy responder kind := by
  have hres : (requester.syncedFrom env nowMs responder kind requestId).Covers requester ∧
      MeshNode.OrderFree env nowMs := ⟨syncedFrom_covers hrequester hresponder haccepts kind requestId,orderFree⟩
  rw [and_iff_left hres]
  by_cases hkin : kind=.agentStateTransfer
  · subst hkin
    obtain ⟨hpol,hloc⟩ := syncedFrom_transfer env nowMs responder hrequester requestId
    rw [MeshNode.Covers,hpol,hloc]
    rfl
  · obtain ⟨hpol,hloc⟩ := syncedFrom_tables hrequester hresponder haccepts hkin requestId
    rw [MeshNode.Covers,hpol,hloc,TableShape.covers_delta_iff hrequester.policies hresponder.policies,
      TableShape.covers_delta_iff hrequester.locators.typed hresponder.locators.typed]
    cases kind <;> first | rfl | exact absurd rfl hkin

end Convergence

namespace Sample

/-- Windows are open and a blob is of agent `a` at the version it spells. -/
def policyEnv : MeshEnv :=
  { env with
    dateParse := fun s => some (if s = "from" then 0 else 10)
    decodePolicyBlob := fun s => some ⟨"a",if s = "0" then 0 else 1,none,"f-1"⟩ }

def policyEvent (version : Int) (blob : String) : SignedEvent Payload :=
  event "peer" "Aw" "policy_update" 1 (.policyUpdate ⟨"a",version,"from","until",blob,none⟩)

def holding (evt : SignedEvent Payload) : MeshNode := { node with policyBundle := ⟨⟨[("a",evt)],by simp⟩⟩ }

theorem node_tablesTyped : node.TablesTyped := by
  refine ⟨?_,?_,?_⟩
  · intro _ _ h
    cases h
  · intro _ _ h
    cases h
  · intro _
    exact bot_le

theorem holding_get {evt other : SignedEvent Payload} {agentId : String}
    (h : (holding evt).policyBundle.byAgent.get agentId=some other) : agentId = "a" ∧ other=evt := by
  have hmem := OrderedMap.mem_of_get h
  rw [show (holding evt).policyBundle.byAgent.entries=[("a",evt)] from rfl,List.mem_singleton] at hmem
  cases hmem
  exact ⟨rfl,rfl⟩

theorem holding_tablesTyped (version : Int) (blob : String) : (holding (policyEvent version blob)).TablesTyped := by
  refine ⟨fun key evt h => ?_,node_tablesTyped.locators⟩
  obtain ⟨rfl,rfl⟩ := holding_get h
  exact ⟨rfl,rfl⟩

theorem node_acceptsTablesOf {evt : SignedEvent Payload} (hver : node.verifies policyEnv 5 evt=true)
    (hcur : isCurrentPolicy policyEnv 5 evt=true) : node.AcceptsTablesOf policyEnv 5 (holding evt) := by
  constructor
  · intro agentId other h
    obtain ⟨-,rfl⟩ := holding_get h
    exact ⟨hver,hcur⟩
  · intro _ _ h
    cases h

end Sample

theorem sync_converges_first_version :
    (Sample.node.syncedFrom Sample.policyEnv 5 (Sample.holding (Sample.policyEvent 1 "1")) .deltaSync "01").Covers
      (Sample.holding (Sample.policyEvent 1 "1")) := by
  refine ((sync_converges_iff Sample.policyEnv 5 Sample.node_tablesTyped (Sample.holding_tablesTyped 1 "1")
    (Sample.node_acceptsTablesOf (by decide +kernel) (by decide +kernel)) .deltaSync "01").mpr ?_).1
  constructor
  · intro key version hver hlow
    obtain ⟨evt,hget,hevt⟩ := TableShape.versionIn_eq_some hver
    obtain ⟨-,rfl⟩ := Sample.holding_get hget
    cases hevt
    exact absurd hlow (by decide)
  · intro _ _ hver
    cases hver

/-- A policy at version 0 of an agent the requester has never seen does not come over. -/
theorem sync_leaves_version_zero_behind :
    ∃ requester responder : MeshNode, requester.TablesTyped ∧ responder.TablesTyped ∧
      requester.AcceptsTablesOf Sample.policyEnv 5 responder ∧
      ¬ (requester.syncedFrom Sample.policyEnv 5 responder .deltaSync "01").Covers responder := by
  refine ⟨Sample.node,Sample.holding (Sample.policyEvent 0 "0"),Sample.node_tablesTyped,
    Sample.holding_tablesTyped 0 "0",Sample.node_acceptsTablesOf (by decide +kernel) (by decide +kernel),?_⟩
  intro hcov
  obtain ⟨held,hhel,-⟩ := hcov.1 "a" 0 (by decide +kernel)
  have hnone : policyShape.versionIn (Sample.node.syncedFrom Sample.policyEnv 5
      (Sample.holding (Sample.policyEvent 0 "0")) .deltaSync "01").policyBundle.byAgent "a" = none := by
    decide +kernel
  rw [hnone] at hhel
  cases hhel

end CastleWall.Mesh
