import CastleWall.Policy.Subject

/-! # The safety net

The uids a net may name (`safety_net_uid.rs`), what the net does with a packet (`nftables.rs`), and
how its scope is resolved from the three sources (`runtime_providers.rs`). -/

namespace CastleWall.Runtime

def invalidUidSentinel : UInt32 := 4294967295

structure ValidatedSafetyNetUid where
  value : UInt32
  ne_root : value≠0
  ne_sentinel : value≠invalidUidSentinel

inductive SafetyNetUidError where
  | root
  | hostOverflowUid (uid : UInt32)
  | invalidSentinel
  | emptySet

def validateSafetyNetUid (uid overflow : UInt32) : Except SafetyNetUidError ValidatedSafetyNetUid :=
  if hroot : uid=0 then .error .root
  else if hsentinel : uid=invalidUidSentinel then .error .invalidSentinel
  else if uid=overflow then .error (.hostOverflowUid uid)
  else .ok ⟨uid,hroot,hsentinel⟩

/-- `sort_unstable` and `dedup`. -/
def sortDedup (uids : List UInt32) : List UInt32 := (uids.insertionSort (· ≤ ·)).dedup

theorem mem_sortDedup {uids : List UInt32} {uid : UInt32} : uid∈sortDedup uids ↔ uid∈uids := by
  rw [sortDedup,List.mem_dedup,List.mem_insertionSort]

instance instTotalLe : Std.Total (fun a b : UInt32 => a ≤ b) := ⟨UInt32.le_total⟩

instance instIsTransLe : IsTrans UInt32 (fun a b => a ≤ b) := ⟨fun _ _ _ => UInt32.le_trans⟩

theorem sortDedup_ascending (uids : List UInt32) : (sortDedup uids).Pairwise (· < ·) := by
  have hle : (sortDedup uids).Pairwise (· ≤ ·) :=
    (List.pairwise_insertionSort (· ≤ ·) uids).sublist (List.dedup_sublist _)
  have hne : (sortDedup uids).Pairwise (· ≠ ·) := List.nodup_dedup _
  apply (hle.and hne).imp
  intro a b hab
  exact UInt32.lt_of_le_of_ne hab.1 hab.2

/-- The set the net's first rule denies: not empty, ascending, and of uids that name a principal. -/
structure ConfinedUidSet where
  uids : List UInt32
  ne_nil : uids≠[]
  ascending : uids.Pairwise (· < ·)
  attested : ∀ uid∈uids, uid≠0 ∧ uid≠invalidUidSentinel

def ConfinedUidSet.fromValidated (validated : List ValidatedSafetyNetUid) :
    Except SafetyNetUidError ConfinedUidSet :=
  if h : sortDedup (validated.map (·.value))=[] then .error .emptySet
  else
    .ok { uids := sortDedup (validated.map (·.value))
          ne_nil := h
          ascending := sortDedup_ascending _
          attested := by
            intro uid huid
            rw [mem_sortDedup,List.mem_map] at huid
            obtain ⟨v,-,rfl⟩ := huid
            exact ⟨v.ne_root,v.ne_sentinel⟩ }

inductive SafetyNetScope where
  | identity (set : ConfinedUidSet)
  | hostWide

/-- What the net reads of a packet: the uid of its socket, if the kernel knows one, and its ICMPv6
type, if it has one. -/
structure Packet where
  skuid : Option UInt32
  icmpv6Type : Option String

inductive Verdict where
  | accept
  | drop

def kernelNdIcmpv6Types : List String :=
  ["nd-neighbor-solicit","nd-neighbor-advert","nd-router-solicit"]

/-- The rules of the net's output chain. A packet without a uid matches no test of it. -/
inductive NetRule where
  | skuidDrop (uids : List UInt32)
  | icmpv6Accept (types : List String)
  | otherSkuidAccept (uids : List UInt32)

def NetRule.apply (packet : Packet) : NetRule → Option Verdict
  | skuidDrop uids => if packet.skuid.any fun uid => uids.contains uid then some .drop else none
  | icmpv6Accept types =>
    if packet.icmpv6Type.any fun type => types.contains type then some .accept else none
  | otherSkuidAccept uids =>
    if packet.skuid.any fun uid => !uids.contains uid then some .accept else none

namespace SafetyNetScope

/-- `build_deny_all_safety_net_script`: the rules of the chain, under `policy drop`. -/
def rules : SafetyNetScope → List NetRule
  | identity set => [.skuidDrop set.uids,.icmpv6Accept kernelNdIcmpv6Types,.otherSkuidAccept set.uids]
  | hostWide => []

def verdict (scope : SafetyNetScope) (packet : Packet) : Verdict :=
  (scope.rules.findSome? (·.apply packet)).getD .drop

def Denies (scope : SafetyNetScope) (uid : UInt32) : Prop :=
  ∀ packet : Packet, packet.skuid=some uid → scope.verdict packet=.drop

theorem denies_hostWide (uid : UInt32) : hostWide.Denies uid := fun _ _ => rfl

theorem denies_identity {set : ConfinedUidSet} {uid : UInt32} :
    (identity set).Denies uid ↔ uid∈set.uids := by
  constructor
  · intro h
    by_contra hnot
    have hver := h ⟨some uid,none⟩ rfl
    simp [verdict,rules,NetRule.apply,hnot] at hver
  · intro hmem packet hpac
    simp [verdict,rules,NetRule.apply,hpac,hmem]

end SafetyNetScope

inductive ConfinedRole where
  | agent
  | gate
  deriving DecidableEq

structure ConfinedIdentity where
  uid : UInt32
  role : ConfinedRole
  deriving DecidableEq

/-- This boot's history; `unknown` is the absent key of an `Owned` record. -/
inductive ConfinedHistory where
  | known (entries : List ConfinedIdentity)
  | unknown
  deriving DecidableEq

def ConfinedHistory.names : ConfinedHistory → List UInt32
  | known entries => entries.map (·.uid)
  | unknown => []

/-- The uids the live table binds, if the table is this daemon's and could be read. -/
inductive LiveTableBindings where
  | bindings (uids : List UInt32)
  | notOurTable (detail : String)
  | unreadable (detail : String)

def LiveTableBindings.uids : LiveTableBindings → List UInt32
  | bindings uids => uids
  | _ => []

def admittedUids (admitted : Option (UInt32 × Option UInt32)) : List UInt32 :=
  match admitted with
  | none => []
  | some (agentUid,gateUid) => agentUid::gateUid.toList

def denySetMax : Nat := 256

inductive SafetyNetReason where
  | identity
  | emptyDenySet
  | unknownHistory
  | denySetOverCapacity (count cap : Nat)

structure SafetyNetSources where
  (journal manifest liveTable : Bool)

structure SafetyNetResolution where
  scope : SafetyNetScope
  reason : SafetyNetReason
  killSet : List UInt32
  sources : SafetyNetSources
  denyUnion : List UInt32

variable (history : ConfinedHistory)

def resolveSafetyNetScope (admitted : Option (UInt32 × Option UInt32))
    (liveBindings : LiveTableBindings) (overflow : UInt32) : SafetyNetResolution :=
  let journalUids := history.names
  let manifestUids := admittedUids admitted
  let liveUids := liveBindings.uids
  let sources : SafetyNetSources :=
    { journal := !journalUids.isEmpty, manifest := !manifestUids.isEmpty, liveTable := !liveUids.isEmpty }
  let killSet := sortDedup (journalUids++manifestUids)
  let denyUnion := sortDedup (journalUids++manifestUids++liveUids)
  let hostWide (reason : SafetyNetReason) : SafetyNetResolution :=
    { scope := .hostWide, reason, killSet, sources, denyUnion }
  if history=.unknown then hostWide .unknownHistory
  else if denySetMax < denyUnion.length then
    hostWide (.denySetOverCapacity denyUnion.length denySetMax)
  else
    -- A refused member leaves the set; the others are still denied.
    match ConfinedUidSet.fromValidated
      (denyUnion.filterMap fun uid => (validateSafetyNetUid uid overflow).toOption) with
    | .ok set => { scope := .identity set, reason := .identity, killSet, sources, denyUnion }
    | .error _ => hostWide .emptyDenySet

/-- The resolution at a site of the daemon: without the host's overflow uid no member can be
validated, and the live table is not read. -/
def resolveNetScopeAtSite (admitted : Option (UInt32 × Option UInt32))
    (overflow : Option UInt32) (readLive : UInt32 → LiveTableBindings) : SafetyNetResolution :=
  match overflow with
  | none =>
    let killSet := sortDedup (history.names++admittedUids admitted)
    { scope := .hostWide
      reason := .emptyDenySet
      killSet
      sources := { journal := !history.names.isEmpty, manifest := admitted.isSome, liveTable := false }
      denyUnion := killSet }
  | some overflow => resolveSafetyNetScope history admitted (readLive overflow) overflow

theorem resolveSafetyNetScope_denyUnion
    (admitted : Option (UInt32 × Option UInt32)) (live : LiveTableBindings) (overflow : UInt32) :
    (resolveSafetyNetScope history admitted live overflow).denyUnion =
      sortDedup (history.names++admittedUids admitted++live.uids) := by
  unfold resolveSafetyNetScope
  dsimp only
  split_ifs with hunk hcap
  · rfl
  · rfl
  · split
    · rfl
    · rfl

end CastleWall.Runtime
