import CastleWall.Support.JsonText
import CastleWall.Support.Lines
import CastleWall.Support.Outcome

/-! # Rows of the audit log

One row holds one audit event with its sequence number and the hash of the event before it. This module
has the row's exact encoding and the check a row passes before it is drained or acknowledged. -/

namespace CastleWall.Audit

open Text Outcome

inductive WalPath where
  | wal
  | tmp
  | auditEvent

inductive WalOperation where
  | snapshot
  | truncate

inductive WalError where
  | io (path : WalPath) (sourceMessage : String)
  | parse (line : Nat) (sourceMessage : String)
  | chainBroken (seq : Nat) (expected found : Option String)
  | malformedPriorHash (seq : Nat) (found : String)
  | renameFailed (sourceMessage : String)
  | cancelled
  | operationInProgress (operation : WalOperation) (processedBytes : Nat)
  | capacityExceeded (capBytes currentBytes attemptedBytes : Nat)
  | poisoned (reason : String)

structure WalEntry where
  (seq capturedAtUnixMs : Nat)
  priorSha256Hex : Option String
  eventCanonicalJson : String
  (critical ackedAnchor : Bool)
deriving DecidableEq

def priorField : Option String → Json
  | none => .null
  | some hash => .str hash

namespace WalEntry

/-- Both counters are `u64`. -/
def InRange (e : WalEntry) : Prop := e.seq < 2 ^ 64 ∧ e.capturedAtUnixMs < 2 ^ 64

instance (e : WalEntry) : Decidable e.InRange :=
  inferInstanceAs (Decidable (e.seq < 2 ^ 64 ∧ e.capturedAtUnixMs < 2 ^ 64))

/-- The fields in the order they are declared; `acked_anchor` is written only when set. -/
def fields (e : WalEntry) : List (String × Json) :=
  [("seq",.num e.seq),
    ("captured_at_unix_ms",.num e.capturedAtUnixMs),
    ("prior_sha256_hex",priorField e.priorSha256Hex),
    ("event_canonical_json",.str e.eventCanonicalJson),
    ("critical",.bool e.critical)] ++
  if e.ackedAnchor then [("acked_anchor",.bool true)] else []

/-- `serde_json::to_string` of the entry. -/
def text (e : WalEntry) : String := String.ofList (Json.objectText e.fields)

end WalEntry

/-- The third-party code the log calls: the readers of `serde_json` and the SHA-256 digest. -/
structure WalEnv where
  valueFromStr : String → Except String Json
  entryFromStr : String → Except String WalEntry
  sha256 : List UInt8 → Vector UInt8 32

/-- What the log relies on in the JSON reader: it reads back what was written, within its nesting limit
of 127, and returns maps and 64-bit integers. -/
structure WalEnv.Lawful (env : WalEnv) : Prop where
  value_bounds : ∀ s v, env.valueFromStr s=.ok v → v.wellFormed=true ∧ v.depth ≤ 127
  value_of_canonicalText : ∀ v : Json, v.wellFormed=true → v.depth ≤ 127 →
    env.valueFromStr v.canonicalText=.ok v
  entry_inRange : ∀ s e, env.entryFromStr s=.ok e → e.InRange
  entry_of_text : ∀ e : WalEntry, e.InRange → env.entryFromStr e.text=.ok e

section Rows

variable (env : WalEnv)

def hexByte (b : UInt8) : List Char := [Json.hexChar (b.toNat / 16),Json.hexChar (b.toNat % 16)]

def sha256Hex (bytes : List UInt8) : String :=
  String.ofList ((env.sha256 bytes).toList.flatMap hexByte)

def chainHash (e : WalEntry) : String := sha256Hex env (utf8Bytes e.eventCanonicalJson)

def isLowercaseHex (c : Char) : Bool := ('0' ≤ c && c ≤ '9') || ('a' ≤ c && c ≤ 'f')

def isCanonicalLowercaseSha256Hex (s : String) : Bool :=
  (utf8Bytes s).length == 64 && s.toList.all isLowercaseHex

def checkedAdd (a b : Nat) : Option Nat := if a+b < 2 ^ 64 then some (a+b) else none

def asU64 : Json → Option Nat
  | .num n => if 0 ≤ n then some n.toNat else none
  | _ => none

def asObject : Json → Option (List (String × Json))
  | .obj fields => some fields
  | _ => none

def walRowBytes (serialized : String) : List UInt8 := utf8Bytes serialized++[10]

structure WalValidationState where
  previousSeq : Option Nat
  nextSeq : Nat
  lastChainHash : Option String
  bytes : Nat

namespace WalValidationState

def default : WalValidationState :=
  { previousSeq := none, nextSeq := 0, lastChainHash := none, bytes := 0 }

end WalValidationState

variable (lineNum : Nat)

/-- The row as `serde_json` reads it, when it is its own exact encoding. -/
def parseRow (line : String) : Except WalError WalEntry :=
  if line.isEmpty then .error (.parse lineNum "empty interior WAL row")
  else
    match env.entryFromStr line with
    | .error err => .error (.parse lineNum err)
    | .ok entry =>
      if entry.text≠line then
        .error (.parse lineNum ("WAL row is not the exact canonical writer encoding " ++
          "(duplicate, unknown, reordered, or decorated fields)"))
      else .ok entry

def checkPriorHash (entry : WalEntry) : Except WalError Unit :=
  match entry.priorSha256Hex with
  | none => .ok ()
  | some prior =>
    if isCanonicalLowercaseSha256Hex prior then .ok ()
    else .error (.malformedPriorHash entry.seq prior)

def checkLink (state : WalValidationState) (lineNum : Nat) (entry : WalEntry) :
    Except WalError Unit :=
  match state.previousSeq with
  | none =>
    match entry.seq, entry.priorSha256Hex, entry.ackedAnchor with
    | 0, none, _ => .ok ()
    | 0, some _, _ => .error (.chainBroken entry.seq none entry.priorSha256Hex)
    | _, none, _ =>
      .error (.parse lineNum "post-truncation first row must retain its non-null predecessor anchor")
    | _, some _, true => .ok ()
    | _, some _, false =>
      .error (.parse lineNum "post-truncation first row must be the retained ACK anchor")
  | some previous =>
    if entry.ackedAnchor then
      .error (.parse lineNum "ACK anchor may appear only as the first WAL row")
    else
      match checkedAdd previous 1 with
      | none => .error (.parse lineNum "WAL sequence space exhausted")
      | some expectedSeq =>
        if entry.seq≠expectedSeq then
          .error (.parse lineNum ("WAL sequence must increase by exactly one: expected " ++
            toString expectedSeq ++ ", found " ++ toString entry.seq))
        else if entry.priorSha256Hex≠state.lastChainHash then
          .error (.chainBroken entry.seq state.lastChainHash entry.priorSha256Hex)
        else .ok ()

/-- The `details` of the row's event, when the event is a canonical object. -/
def eventDetails (event : String) : Except WalError (List (String × Json)) :=
  match env.valueFromStr event with
  | .error err => .error (.parse lineNum ("event_canonical_json is invalid JSON: " ++ err))
  | .ok value =>
    match asObject value with
    | none => .error (.parse lineNum "event_canonical_json must be a JSON object")
    | some object =>
      if value.canonicalText≠event then
        .error (.parse lineNum "event_canonical_json is not canonical")
      else
        match (object.lookup "details").bind asObject with
        | none =>
          .error (.parse lineNum "event details must be an object containing WAL chain fields")
        | some details => .ok details

def checkChainFields (entry : WalEntry) (details : List (String × Json)) :
    Except WalError Unit :=
  match (details.lookup "seq").bind asU64 with
  | none => .error (.parse lineNum "event details.seq must be a u64")
  | some innerSeq =>
    if innerSeq≠entry.seq then
      .error (.parse lineNum ("event details.seq does not match outer seq: inner " ++
        toString innerSeq ++ ", outer " ++ toString entry.seq))
    else
      let mismatch : Except WalError Unit :=
        .error (.parse lineNum
          "event details.prior_sha256_hex does not match outer predecessor anchor")
      match details.lookup "prior_sha256_hex" with
      | some .null => if entry.priorSha256Hex≠none then mismatch else .ok ()
      | some (.str value) => if entry.priorSha256Hex≠some value then mismatch else .ok ()
      | _ => .error (.parse lineNum "event details.prior_sha256_hex must be null or a string")

def advance (state : WalValidationState) (lineNum : Nat) (line : String) (entry : WalEntry) :
    Except WalError WalValidationState :=
  match checkedAdd entry.seq 1 with
  | none => .error (.parse lineNum "WAL sequence space exhausted")
  | some nextSeq =>
    match (checkedAdd state.bytes (utf8Bytes line).length).bind (checkedAdd · 1) with
    | none => .error (.parse lineNum "WAL byte count overflow")
    | some bytes =>
      .ok { previousSeq := some entry.seq, nextSeq := nextSeq,
            lastChainHash := some (chainHash env entry), bytes := bytes }

def validateWalLine (line : String) (lineNum : Nat) (state : WalValidationState) :
    Except WalError (WalEntry × WalValidationState) := do
  let entry ← parseRow env lineNum line
  checkPriorHash entry
  checkLink state lineNum entry
  let details ← eventDetails env lineNum entry.eventCanonicalJson
  checkChainFields lineNum entry details
  let state ← advance env state lineNum line entry
  .ok (entry,state)

def replayLines : Nat → WalValidationState → List String → Except WalError WalValidationState
  | _, state, [] => .ok state
  | index, state, line::lines =>
    match validateWalLine env line (index+1) state with
    | .error err => .error err
    | .ok (_,state) => replayLines (index+1) state lines

def replayExisting (contents : String) : Except WalError (Nat × Option String × Nat) :=
  match replayLines env 0 .default (lines contents) with
  | .error err => .error err
  | .ok state => .ok (state.nextSeq,state.lastChainHash,state.bytes)

def readEntry (line : String) : Option WalEntry := (env.entryFromStr line).toOption

/-- The rows of a file that read as entries, checked or not. -/
def storedRows (contents : String) : List WalEntry := (lines contents).filterMap (readEntry env)

end Rows

end CastleWall.Audit
