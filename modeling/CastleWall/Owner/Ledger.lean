import CastleWall.Owner.Receipt
import CastleWall.Support.OrderedMap

/-! # The owner ledger

`protected_agent/ledger.rs`: an append-only file of rows, one transition function for the rows that are replayed and
the rows that are appended, and room kept back for the rows that settle a generation. -/

namespace CastleWall.Owner

open Text
open Outcome (require)

def acceptanceMax : Nat := 63 * 1024 * 1024

def totalMax : Nat := 64 * 1024 * 1024

def rowMax : Nat := 16 * 1024

def settlementSlot : Nat := rowMax

def maxAttempts : Nat := 64

def maxReceiptBytes : Nat := 16 * 1024

inductive Row where
  | prepared (g : Generation)
  | managerIdentity (unitName : String) (identity : ManagerIdentity)
  | attempt (unitName attemptId commandHash : String) (releaseHash : Option String)
  | releaseCopy (unitName : String) (receipt : SignedReceipt)
  | outcome (unitName : String) (receipt : SignedReceipt)

namespace Row

def acceptance : Row → Bool
  | .prepared _ => true
  | .managerIdentity _ _ => true
  | .attempt _ _ _ _ => true
  | _ => false

def unitName : Row → String
  | .prepared g => g.unitName
  | .managerIdentity unitName _ => unitName
  | .attempt unitName _ _ _ => unitName
  | .releaseCopy unitName _ => unitName
  | .outcome unitName _ => unitName

def text (row : Row) : List Char :=
  let tagged := fun (tag : String) (value : List Char) => recordText [("class",Json.quote tag),("value",value)]
  match row with
  | .prepared g => tagged "prepared" g.text
  | .managerIdentity unitName identity =>
    tagged "manager_identity" (recordText [("unit_name",Json.quote unitName),("identity",identity.text)])
  | .attempt unitName attemptId commandHash releaseHash =>
    tagged "attempt" (recordText [("unit_name",Json.quote unitName),("attempt_id",Json.quote attemptId),
      ("command_hash",Json.quote commandHash),("release_hash",optionText Json.quote releaseHash)])
  | .releaseCopy unitName receipt =>
    tagged "release_copy" (recordText [("unit_name",Json.quote unitName),("receipt",receipt.text)])
  | .outcome unitName receipt =>
    tagged "outcome" (recordText [("unit_name",Json.quote unitName),("receipt",receipt.text)])

/-- `serde_json::to_vec`. -/
def encode (row : Row) : List UInt8 := utf8Bytes (String.ofList row.text)

def line (row : Row) : List UInt8 := row.encode++[10]

end Row

structure OwnerEnv where
  sha256 : List UInt8 → List UInt8
  /-- `serde_json::from_slice` of a line without its end. -/
  decodeRow : List UInt8 → Option Row

inductive LedgerError where
  | ledgerOverflow
  | classCeiling
  | settlementOverflow
  | settlementSlots
  | invalidGeneration
  | multipleOpenOrReused
  | identityOutsideCreate
  | managerWithoutPrepared
  | duplicateManager
  | invalidManager
  | attemptWithoutPrepared
  | invalidAttempt
  | attemptReleaseMismatch
  | releaseWithoutPrepared
  | releaseMismatch
  | outcomeWithoutPrepared
  | outcomeMismatch
  | outcomeScope
  | receiptOversized
  | exceedsTotal
  | tornOrOversized
  | invalidRow
  | noncanonicalRow
  | lengthChanged
  | uncertain
  | rowTooLarge
  | changedExternally
  | io
  | noContinuationCapacity
  | noPreparedAnchor
  | preparedMismatch
  | noOwnedGeneration
  | conflictingAttempt
  | attemptLimit
  | conflictingRelease
  | conflictingOutcome

/-- A handle that has replayed a row may not continue the transaction that wrote it. -/
inductive CreateTransaction where
  | sealed
  | open (unitName : String)
deriving DecidableEq

structure GenerationState where
  prepared : Option Generation
  manager : Option ManagerIdentity
  attempts : OrderedMap String (String × Option String)
  (release outcome : Option SignedReceipt)

def GenerationState.isOpen (entry : GenerationState) : Bool := entry.prepared.isSome && entry.outcome.isNone

structure LedgerState where
  generations : OrderedMap String GenerationState
  bytes : Nat
  createTransaction : CreateTransaction

namespace LedgerState

def default : LedgerState := ⟨.empty,0,.sealed⟩

def anyGeneration (state : LedgerState) (p : GenerationState → Bool) : Bool :=
  state.generations.entries.any fun entry => p entry.2

end LedgerState

def checkedAdd (a b : Nat) (error : LedgerError) : Except LedgerError Nat :=
  if a+b < 2 ^ 64 then .ok (a+b) else .error error

def classCeiling (acceptance : Bool) : Nat := if acceptance then acceptanceMax else totalMax

def checkedCapacity (current rowBytes : Nat) (acceptance : Bool) (owedSlots : Nat) : Except LedgerError Nat := do
  let after ← checkedAdd current rowBytes .ledgerOverflow
  require (after ≤ classCeiling acceptance) .classCeiling
  let reserved ← checkedAdd after owedSlots .settlementOverflow
  require (reserved ≤ totalMax) .settlementSlots
  return after

section Apply

variable (env : OwnerEnv)

def receiptHash (receipt : SignedReceipt) : Except LedgerError String := do
  let bytes := utf8Bytes (String.ofList receipt.text)
  require (bytes.length ≤ maxReceiptBytes) .receiptOversized
  return hexEncode (env.sha256 bytes)

def releaseHashOf : Option SignedReceipt → Except LedgerError (Option String)
  | none => .ok none
  | some receipt => (receiptHash env receipt).map some

def isHexDigit (c : Char) : Bool := isLowerHex c || ('A' ≤ c && c ≤ 'F')

def orError {α : Type} (value : Option α) (error : LedgerError) : Except LedgerError α :=
  match value with
  | some a => .ok a
  | none => .error error

variable (state : LedgerState)

def applyPrepared (g : Generation) : Except LedgerError LedgerState := do
  require (g.valid env.sha256=true) .invalidGeneration
  require (state.anyGeneration GenerationState.isOpen=false ∧ state.generations.get g.unitName=none)
    .multipleOpenOrReused
  return { state with
    generations := state.generations.set g.unitName ⟨some g,none,.empty,none,none⟩
    createTransaction := .open g.unitName }

def applyManager (unit : String) (identity : ManagerIdentity) : Except LedgerError LedgerState := do
  require (state.createTransaction=.open unit) .identityOutsideCreate
  let entry ← orError (state.generations.get unit) .managerWithoutPrepared
  let prepared ← orError entry.prepared .managerWithoutPrepared
  require (entry.isOpen=true ∧ entry.manager=none) .duplicateManager
  require (identity.valid prepared=true) .invalidManager
  return { state with
    generations := state.generations.set unit { entry with manager := some identity }
    createTransaction := .sealed }

def applyAttempt (unit attemptId commandHash : String) (releaseHash : Option String) :
    Except LedgerError LedgerState := do
  let entry ← orError (state.generations.get unit) .attemptWithoutPrepared
  require (entry.isOpen=true ∧ entry.manager.isSome=true ∧ entry.attempts.entries.length < maxAttempts ∧
    entry.attempts.get attemptId=none ∧ attemptId ≠ "" ∧ byteLength commandHash=64 ∧
    commandHash.toList.all isHexDigit=true) .invalidAttempt
  let held ← releaseHashOf env entry.release
  require (held=releaseHash) .attemptReleaseMismatch
  return { state with
    generations := state.generations.set unit
      { entry with attempts := entry.attempts.set attemptId (commandHash,releaseHash) } }

def applyReleaseCopy (unit : String) (receipt : SignedReceipt) :
    Except LedgerError LedgerState := do
  let entry ← orError (state.generations.get unit) .releaseWithoutPrepared
  let prepared ← orError entry.prepared .releaseWithoutPrepared
  require (entry.isOpen=true ∧ entry.manager.isSome=true ∧ entry.release=none ∧
    (entry.attempts.entries.any fun attempt => attempt.2.2.isNone)=false ∧
    receipt.domain=.releasedUnresolvedV1 ∧ receipt.body.generation=prepared ∧
    receipt.body.manager=entry.manager) .releaseMismatch
  return { state with generations := state.generations.set unit { entry with release := some receipt } }

def outcomeScope (entry : GenerationState) (receipt : SignedReceipt) : Except LedgerError Unit := do
  let expected : Domain := if entry.release.isSome then .stopCompletionV1 else .preparedExtinctionV1
  require (receipt.domain=expected) .outcomeScope
  if expected=.stopCompletionV1 then
    let held ← releaseHashOf env entry.release
    require (receipt.body.oldReleaseHash=held) .outcomeScope

def applyOutcome (unit : String) (receipt : SignedReceipt) : Except LedgerError LedgerState := do
  let entry ← orError (state.generations.get unit) .outcomeWithoutPrepared
  let prepared ← orError entry.prepared .outcomeWithoutPrepared
  require (entry.isOpen=true ∧ entry.manager.isSome=true ∧ entry.outcome=none ∧
    receipt.body.positiveExtinction=some true ∧ receipt.body.generation=prepared ∧
    receipt.body.manager=entry.manager) .outcomeMismatch
  outcomeScope env entry receipt
  return { state with generations := state.generations.set unit { entry with outcome := some receipt } }

def apply : Row → Except LedgerError LedgerState
  | .prepared g => applyPrepared env state g
  | .managerIdentity unit identity => applyManager state unit identity
  | .attempt unit attemptId commandHash releaseHash => applyAttempt env state unit attemptId commandHash releaseHash
  | .releaseCopy unit receipt => applyReleaseCopy state unit receipt
  | .outcome unit receipt => applyOutcome env state unit receipt

/-- A row of the file, with the ceiling of its class but no room kept back. -/
def replayRow (row : Row) : Except LedgerError LedgerState := do
  let after ← checkedAdd state.bytes row.line.length .ledgerOverflow
  require (after ≤ classCeiling row.acceptance) .classCeiling
  let applied ← apply env state row
  return { applied with bytes := after }

def replayLine (line : List UInt8) : Except LedgerError LedgerState := do
  require (line.length ≤ rowMax) .tornOrOversized
  let row ← orError (env.decodeRow line.dropLast) .invalidRow
  require (row.encode=line.dropLast) .noncanonicalRow
  replayRow env state row

/-- `acc` is the line so far; one that has no end is torn. -/
def replayFrom (state : LedgerState) (acc : List UInt8) : List UInt8 → Except LedgerError LedgerState
  | [] => if acc=[] then .ok state else .error .tornOrOversized
  | b::rest =>
    if b=10 then do
      let next ← replayLine env state (acc++[b])
      replayFrom next [] rest
    else replayFrom state (acc++[b]) rest

def replay (content : List UInt8) : Except LedgerError LedgerState := do
  require (content.length ≤ totalMax) .exceedsTotal
  let state ← replayFrom env .default [] content
  require (state.bytes=content.length) .lengthChanged
  return { state with createTransaction := .sealed }

end Apply

/-- The content of the file: what is on disk, and what was written after it and has not been synced. -/
structure LedgerFile where
  (synced unsynced : List UInt8)
deriving DecidableEq

def LedgerFile.content (file : LedgerFile) : List UInt8 := file.synced++file.unsynced

structure Ledger where
  state : LedgerState
  uncertain : Bool

/-- What becomes of a write: `metadata` fails, `write_all` fails after some bytes, `sync_data` fails, or all is
well. -/
inductive WriteOutcome where
  | metadataFailed
  | writeFailed (written : Nat)
  | syncFailed
  | durable
deriving DecidableEq

structure LedgerResult where
  file : LedgerFile
  ledger : Ledger
  result : Except LedgerError Unit

namespace Ledger

variable (env : OwnerEnv) (file : LedgerFile) (ledger : Ledger)

def owedSlots (row : Row) (candidate : LedgerState) : Nat :=
  if row.acceptance && candidate.anyGeneration GenerationState.isOpen then
    if candidate.anyGeneration fun s => s.isOpen && s.release.isSome then settlementSlot else 2 * settlementSlot
  else 0

def admitRow (row : Row) : Except LedgerError LedgerState := do
  require (ledger.uncertain=false) .uncertain
  require (row.line.length ≤ rowMax) .rowTooLarge
  let candidate ← apply env ledger.state row
  let after ← checkedCapacity ledger.state.bytes row.line.length row.acceptance (owedSlots row candidate)
  return { candidate with bytes := after }

def append (row : Row) (outcome : WriteOutcome) : LedgerResult :=
  match admitRow env ledger row with
  | .error error => ⟨file,ledger,.error error⟩
  | .ok candidate =>
    if outcome=.metadataFailed then ⟨file,ledger,.error .io⟩
    else if file.content.length≠ledger.state.bytes then ⟨file,ledger,.error .changedExternally⟩
    else
      match outcome with
      | .durable => ⟨⟨file.content++row.line,[]⟩,⟨candidate,false⟩,.ok ()⟩
      | .writeFailed written =>
        ⟨{ file with unsynced := file.unsynced++row.line.take written },{ ledger with uncertain := true },.error .io⟩
      | _ => ⟨{ file with unsynced := file.unsynced++row.line },{ ledger with uncertain := true },.error .io⟩

def prepareFixture (g : Generation) (outcome : WriteOutcome) : LedgerResult :=
  if totalMax < ledger.state.bytes+4 * settlementSlot ∨ acceptanceMax < ledger.state.bytes+2 * settlementSlot then
    ⟨file,ledger,.error .noContinuationCapacity⟩
  else append env file ledger (.prepared g) outcome

def managerCreatedFixture (unitName : String) (identity : ManagerIdentity) (outcome : WriteOutcome) : LedgerResult :=
  append env file ledger (.managerIdentity unitName identity) outcome

def preparedAck (g : Generation) (m : ManagerIdentity) : Except LedgerError Unit := do
  require (ledger.uncertain=false) .uncertain
  require (file.content.length=ledger.state.bytes) .changedExternally
  let entry ← orError (ledger.state.generations.get g.unitName) .noPreparedAnchor
  require (entry.isOpen=true ∧ entry.prepared=some g ∧ entry.manager=some m ∧
    ledger.state.bytes+2 * settlementSlot ≤ totalMax) .preparedMismatch

/-- An attempt that is there is not written again. -/
def acceptAttempt (unit id hash : String) (releaseHash : Option String) (outcome : WriteOutcome) : LedgerResult :=
  match ledger.state.generations.get unit with
  | none => ⟨file,ledger,.error .noOwnedGeneration⟩
  | some entry =>
    match entry.attempts.get id with
    | some held =>
      if held=(hash,releaseHash) then ⟨file,ledger,.ok ()⟩ else ⟨file,ledger,.error .conflictingAttempt⟩
    | none =>
      if maxAttempts ≤ entry.attempts.entries.length then ⟨file,ledger,.error .attemptLimit⟩
      else append env file ledger (.attempt unit id hash releaseHash) outcome

/-- A receipt that is there is not written again, and another one is refused. -/
def settleOnce (held : GenerationState → Option SignedReceipt) (conflict : LedgerError) (row : Row)
    (receipt : SignedReceipt) (outcome : WriteOutcome) : LedgerResult :=
  match (ledger.state.generations.get receipt.body.generation.unitName).bind held with
  | some old => if old=receipt then ⟨file,ledger,.ok ()⟩ else ⟨file,ledger,.error conflict⟩
  | none => append env file ledger row outcome

def acceptReleaseCopy (receipt : SignedReceipt) (outcome : WriteOutcome) : LedgerResult :=
  settleOnce env file ledger (·.release) .conflictingRelease
    (.releaseCopy receipt.body.generation.unitName receipt) receipt outcome

def recordOutcome (receipt : SignedReceipt) (outcome : WriteOutcome) : LedgerResult :=
  settleOnce env file ledger (·.outcome) .conflictingOutcome
    (.outcome receipt.body.generation.unitName receipt) receipt outcome

end Ledger

end CastleWall.Owner
