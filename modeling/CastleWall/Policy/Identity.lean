import CastleWall.Policy.Habeas

/-! # Agent identities

The encoders that turn an agent id into a systemd unit and an nftables chain name
(`identity.rs`), the `uid-<uid>` form of a confined agent id (`nftables.rs`), the refusals a
confined uid must pass (`safety_net_uid.rs`), and the scope check of an admitted generation. -/

namespace CastleWall.Policy

open Text

def hashPrefix : String := "-h"

def hashHexLen : Nat := 64

def hexDigit (n : Nat) : Char := "0123456789abcdef".toList.getD n '0'

def isSafeByte (b : UInt8) : Bool :=
  (0x41 ≤ b && b ≤ 0x5a) || (0x61 ≤ b && b ≤ 0x7a) || (0x30 ≤ b && b ≤ 0x39) ||
    b == 0x5f || b == 0x2d || b == 0x2e

/-- A safe byte stands for itself; any other is escaped as `_xHH_`. -/
def encodeByte (b : UInt8) : List Char :=
  if isSafeByte b then [Char.ofNat b.toNat]
  else ['_','x',hexDigit (b.toNat / 16),hexDigit (b.toNat % 16),'_']

def encodeAgentIdBytes (agentId : String) : String :=
  if agentId = "" then "_x00_"
  else String.ofList ((utf8Bytes agentId).flatMap encodeByte)

def takeWithinBudget (budget : Nat) : Nat → List Char → List Char
  | _, [] => []
  | used, c::cs =>
    if used+c.utf8Size > budget then []
    else c::takeWithinBudget budget (used+c.utf8Size) cs

variable (sha256Hex : List UInt8 → String)

def encodeAgentComponent (agentId : String) (maxLen : Nat) :
    String :=
  let encoded := encodeAgentIdBytes agentId
  if encoded.utf8ByteSize ≤ maxLen then encoded
  else
    let hash := sha256Hex (utf8Bytes agentId)
    let suffixLen := hashPrefix.utf8ByteSize+hashHexLen
    if maxLen ≤ suffixLen then String.ofList (hash.toList.take maxLen)
    else
      String.ofList (takeWithinBudget (maxLen - suffixLen) 0 encoded.toList)++hashPrefix++hash

def systemdUnitMaxLen : Nat := 256

def scopeUnitPrefix : String := "sanctuary-agent-"

def scopeUnitSuffix : String := ".service"

def scopeUnitName (agentId : String) : String :=
  let maxComponentLen :=
    systemdUnitMaxLen - scopeUnitPrefix.utf8ByteSize - scopeUnitSuffix.utf8ByteSize
  scopeUnitPrefix++encodeAgentComponent sha256Hex agentId maxComponentLen++scopeUnitSuffix

def nftChainMaxLen : Nat := 256

def agentChainPrefix : String := "agent_"

def agentChainName (agentId : String) : String :=
  let maxComponentLen := nftChainMaxLen - agentChainPrefix.utf8ByteSize
  agentChainPrefix++encodeAgentComponent sha256Hex agentId maxComponentLen

def confinedAgentIdPrefix : String := "uid-"

def confinedAgentIdForm : String := "uid-<decimal uid>"

def confinedAgentId (agentUid : UInt32) : String :=
  confinedAgentIdPrefix++toString agentUid.toNat

/-- The canonical spelling only: no empty, zero-led or non-decimal uid. -/
def parseConfinedAgentId (agentId : String) : Option UInt32 := do
  let rawUid ← stripPrefix agentId confinedAgentIdPrefix
  if rawUid = "" then none
  else if rawUid.utf8ByteSize > 1 ∧ startsWith rawUid "0" then none
  else if ¬ rawUid.toList.all isAsciiDigit then none
  else
    let uid ← parseUnsigned (2 ^ 32) rawUid
    if confinedAgentId (UInt32.ofNat uid)=agentId then some (UInt32.ofNat uid) else none

inductive ConfinedAgentScopeError where
  | malformedAgentScope (ruleId agentId expectedForm : String)
  | agentScopeOutsideAdmission (ruleId agentId : String) (admittedUid : UInt32)
  deriving DecidableEq

def agentScopeError (admittedUid : UInt32) (ruleId agentId : String) :
    Option ConfinedAgentScopeError :=
  match parseConfinedAgentId agentId with
  | none => some (.malformedAgentScope ruleId agentId confinedAgentIdForm)
  | some uid =>
    if uid≠admittedUid then some (.agentScopeOutsideAdmission ruleId agentId admittedUid)
    else none

/-- The reserved distress lane is exempt; every other agent scope must name the admitted uid. -/
def collectConfinedAgentScopeErrors (rules : List AllowlistRule) (admittedUid : UInt32) :
    List ConfinedAgentScopeError :=
  rules.flatMap fun rule =>
    if Habeas.isDerivedHabeasRule rule then []
    else rule.scope.agentIds.filterMap (agentScopeError admittedUid rule.id)

def invalidUidSentinel : UInt32 := 0xffffffff

def maxOverflowUidFileBytes : Nat := 12

/-- Why `kernel.overflowuid` could not be used. -/
inductive OverflowUidDefect where
  | readFailed (message : String)
  | tooLong (bytes : Nat)
  | empty
  | notU32 (trimmed : String)
  deriving DecidableEq

inductive SafetyNetUidError where
  | root
  | hostOverflowUid (uid : UInt32)
  | invalidSentinel
  | overflowUidUnreadable (reason : OverflowUidDefect)
  deriving DecidableEq

def hostOverflowUid (file : Except String String) : Except SafetyNetUidError UInt32 :=
  match file with
  | .error message => .error (.overflowUidUnreadable (.readFailed message))
  | .ok raw =>
    if raw.utf8ByteSize > maxOverflowUidFileBytes then
      .error (.overflowUidUnreadable (.tooLong raw.utf8ByteSize))
    else
      let trimmed := trim raw
      if trimmed = "" then .error (.overflowUidUnreadable .empty)
      else match parseUnsigned (2 ^ 32) trimmed with
        | none => .error (.overflowUidUnreadable (.notU32 trimmed))
        | some value => .ok (UInt32.ofNat value)

def validateSafetyNetUid (uid overflow : UInt32) : Except SafetyNetUidError UInt32 :=
  if uid=0 then .error .root
  else if uid=invalidUidSentinel then .error .invalidSentinel
  else if uid=overflow then .error (.hostOverflowUid uid)
  else .ok uid

end CastleWall.Policy
