import CastleWall.Audit.Row
import CastleWall.Support.BufReader

/-! # The disk-backed writer

The writer's state, its appends, the snapshot and the truncation that run in one call, and the opening of
a file left behind. The open file has one cursor, shared with every reader cloned from it. -/

namespace CastleWall.Audit

open Text

def walControlHeadroomMaxBytes : Nat := 64 * 1024

def readBlock : Nat := 8192

def newline : UInt8 := 10

structure SnapshotProgress where
  afterSeq : Option Nat
  maxEntries : Nat
  buffer : List UInt8
  validation : WalValidationState
  lineNum : Nat
  out : List WalEntry

structure TruncateProgress where
  lastAckedSeq : Nat
  (buffer tmp : List UInt8)
  validation : WalValidationState
  lineNum : Nat
  lastAcked : Option WalEntry
  anchorWritten : Bool
  (newlyDropped newBytes : Nat)
  newChainHash : Option String

structure WalWriter where
  file : OpenFile UInt8
  nextSeq : Nat
  lastChainHashHex : Option String
  (bytesWritten sizeCapBytes : Nat)
  poisonedReason : Option String
  pendingSnapshot : Option SnapshotProgress
  pendingTruncate : Option TruncateProgress
  /-- What a rename put at the path when the file was not opened again. -/
  renamedOver : Option (List UInt8)

namespace WalWriter

def onDisk (w : WalWriter) : List UInt8 := w.renamedOver.getD w.file.bytes

def poison (w : WalWriter) (reason : String) : WalWriter × WalError :=
  let kept := w.poisonedReason.getD reason
  ({ w with poisonedReason := some kept },.poisoned kept)

end WalWriter

/-- What happens to one `write_all`: it completes, or fails with at least one byte unwritten. -/
inductive WriteFate where
  | completes
  | fails (written : Nat) (err : String)

/-- `write_all` at the end of a file. -/
def writeAll (file : OpenFile UInt8) (bytes : List UInt8) : WriteFate → OpenFile UInt8 × Option String
  | .fails written err => (file.append (bytes.dropLast.take written),some err)
  | .completes => (file.append bytes,none)

inductive AppendKind where
  | critical
  | control
  | metric

namespace AppendKind

def isCritical : AppendKind → Bool
  | .metric => false
  | _ => true

def fsync : AppendKind → Bool
  | .metric => false
  | _ => true

def useControlHeadroom : AppendKind → Bool
  | .control => true
  | _ => false

end AppendKind

structure AppendFate where
  write : WriteFate
  sync : Option String

namespace AppendFate

def clean : AppendFate := { write := .completes, sync := none }

end AppendFate

/-- Milliseconds since the epoch as a `u64`; a clock before the epoch reads zero. -/
def capturedAt (sinceEpochMs : Option Nat) : Nat := min (sinceEpochMs.getD 0) (2 ^ 64 - 1)

section Operations

variable (env : WalEnv)

def addWalChainFields (event : String) (seq : Nat) (prior : Option String) : Except WalError String :=
  match env.valueFromStr event with
  | .error err => .error (.io .auditEvent err)
  | .ok (.obj entry) =>
    let details := ((entry.lookup "details").bind asObject).getD []
    let details := Json.insertField "seq" (.num seq) details
    let details := Json.insertField "prior_sha256_hex" (priorField prior) details
    .ok (Json.obj (Json.insertField "details" (.obj details) entry)).canonicalText
  | .ok _ => .error (.io .auditEvent "audit event must be a JSON object")

variable (w : WalWriter)

def nextEntry (event : String) (kind : AppendKind) (sinceEpochMs : Option Nat) :
    Except WalError WalEntry :=
  match checkedAdd w.nextSeq 1 with
  | none => .error (.io .wal "WAL sequence space exhausted before append")
  | some _ =>
    match addWalChainFields env event w.nextSeq w.lastChainHashHex with
    | .error err => .error err
    | .ok eventCanonicalJson =>
      .ok { seq := w.nextSeq, capturedAtUnixMs := capturedAt sinceEpochMs,
            priorSha256Hex := w.lastChainHashHex, eventCanonicalJson := eventCanonicalJson,
            critical := kind.isCritical, ackedAnchor := false }

def effectiveCap (kind : AppendKind) : Nat :=
  if kind.useControlHeadroom then w.sizeCapBytes
  else w.sizeCapBytes - min walControlHeadroomMaxBytes (w.sizeCapBytes / 8)

/-- The row goes to the file in one buffer; only then does the state advance. -/
def writeEntry (kind : AppendKind) (entry : WalEntry) (fate : AppendFate) :
    WalWriter × Except WalError Nat :=
  match writeAll w.file (walRowBytes entry.text) fate.write with
  | (file,some err) =>
    let p := { w with file := file }.poison ("append row write became indeterminate: " ++ err)
    (p.1,.error p.2)
  | (file,none) =>
    match if kind.fsync then fate.sync else none with
    | some err =>
      let p := { w with file := file }.poison ("append fsync became indeterminate: " ++ err)
      (p.1,.error p.2)
    | none =>
      ({ w with file := file, bytesWritten := w.bytesWritten+((utf8Bytes entry.text).length+1),
                lastChainHashHex := some (chainHash env entry), nextSeq := entry.seq+1 },
        .ok entry.seq)

def append (event : String) (kind : AppendKind) (sinceEpochMs : Option Nat)
    (fate : AppendFate) : WalWriter × Except WalError Nat :=
  match w.poisonedReason with
  | some reason => (w,.error (.poisoned reason))
  | none =>
    match nextEntry env w event kind sinceEpochMs with
    | .error err => (w,.error err)
    | .ok entry =>
      let attemptedBytes := (utf8Bytes entry.text).length+1
      let fits := (checkedAdd w.bytesWritten attemptedBytes).any (· ≤ effectiveCap w kind)
      if !fits then
        (w,.error (.capacityExceeded w.sizeCapBytes w.bytesWritten attemptedBytes))
      else writeEntry env w kind entry fate

/-- `BufRead::lines`: the newline is dropped, and a carriage return right before it. -/
def linesRow (line : String) : String :=
  if line.toList.getLast? = some '\n' then String.ofList (stripCr line.toList.dropLast) else line

inductive RowStep (σ : Type) where
  | next (s : σ)
  | stop (s : σ)
  | fail (err : WalError)

/-- A loop over the rows of the open file, each one checked before the body sees it. -/
def forEachRow {σ : Type} (body : Nat → WalEntry → σ → RowStep σ) :
    Nat → BufReader UInt8 → Nat → WalValidationState → σ → OpenFile UInt8 × Except WalError σ
  | 0, reader, _, _, s => (reader.file,.ok s)
  | fuel+1, reader, index, state, s =>
    match reader.readLine readBlock newline with
    | ([],reader) => (reader.file,.ok s)
    | (bytes,reader) =>
      match decodeUtf8 bytes with
      | none => (reader.file,.error (.io .wal "stream did not contain valid UTF-8"))
      | some line =>
        match validateWalLine env (linesRow line) (index+1) state with
        | .error err => (reader.file,.error err)
        | .ok (entry,state) =>
          match body (index+1) entry s with
          | .next s => forEachRow body fuel reader (index+1) state s
          | .stop s => (reader.file,.ok s)
          | .fail err => (reader.file,.error err)

def scanFile {σ : Type} (body : Nat → WalEntry → σ → RowStep σ) (file : OpenFile UInt8) (s : σ) :
    OpenFile UInt8 × Except WalError σ :=
  forEachRow env body (file.bytes.length+1) { file := file.seekStart, buffer := [] } 0 .default s

def isAfter (afterSeq : Option Nat) (entry : WalEntry) : Bool :=
  !entry.ackedAnchor && afterSeq.all (· < entry.seq)

def snapshotBody (afterSeq : Option Nat) (maxEntries : Nat) (_ : Nat) (entry : WalEntry)
    (out : List WalEntry) : RowStep (List WalEntry) :=
  if isAfter afterSeq entry && decide (out.length < maxEntries) then
    if out.length+1=maxEntries then .stop (out++[entry]) else .next (out++[entry])
  else .next out

def snapshotAfter (afterSeq : Option Nat) (maxEntries : Nat) :
    WalWriter × Except WalError (List WalEntry) :=
  match w.poisonedReason with
  | some reason => (w,.error (.poisoned reason))
  | none =>
    match scanFile env (snapshotBody afterSeq maxEntries) w.file [] with
    | (file,.error err) => ({ w with file := file },.error err)
    | (file,.ok out) => ({ w with file := file.seekEnd },.ok out)

structure Acked where
  newlyDropped : Nat
  lastAcked : Option WalEntry

def ackedBody (lastAckedSeq lineNum : Nat) (entry : WalEntry) (acked : Acked) : RowStep Acked :=
  if entry.seq ≤ lastAckedSeq then
    if !entry.ackedAnchor then
      match checkedAdd acked.newlyDropped 1 with
      | none => .fail (.parse lineNum "WAL acknowledged-entry count overflow")
      | some n => .next { newlyDropped := n, lastAcked := some entry }
    else .next { acked with lastAcked := some entry }
  else .next acked

structure Rewrite where
  tmp : List UInt8
  newBytes : Nat
  newChainHash : Option String

def Rewrite.entry (r : Rewrite) (entry : WalEntry) : Rewrite :=
  { tmp := r.tmp++walRowBytes entry.text
    newBytes := r.newBytes+(walRowBytes entry.text).length
    newChainHash := some (chainHash env entry) }

def keptBody (lastAckedSeq : Nat) (_ : Nat) (entry : WalEntry) (r : Rewrite) : RowStep Rewrite :=
  if lastAckedSeq < entry.seq then .next (r.entry env entry) else .next r

def startRewrite (lastAcked : Option WalEntry) : Rewrite :=
  let empty : Rewrite := { tmp := [], newBytes := 0, newChainHash := none }
  match lastAcked with
  | none => empty
  | some entry => empty.entry env { entry with ackedAnchor := true }

def truncateThroughSeq (lastAckedSeq : Nat) : WalWriter × Except WalError Nat :=
  match w.poisonedReason with
  | some reason => (w,.error (.poisoned reason))
  | none =>
    match scanFile env (ackedBody lastAckedSeq) w.file { newlyDropped := 0, lastAcked := none } with
    | (file,.error err) => ({ w with file := file },.error err)
    | (file,.ok acked) =>
      match scanFile env (keptBody env lastAckedSeq) file (startRewrite env acked.lastAcked) with
      | (file,.error err) => ({ w with file := file },.error err)
      | (_,.ok r) =>
        ({ w with file := { bytes := r.tmp, cursor := 0 }, bytesWritten := r.newBytes,
                  lastChainHashHex := r.newChainHash },
          .ok acked.newlyDropped)

def openWithCap (disk : Option (List UInt8)) (sizeCapBytes : Nat) : Except WalError WalWriter :=
  let fresh (bytes : List UInt8) (replay : Nat × Option String × Nat) : Except WalError WalWriter :=
    if bytes.length≠replay.2.2 then
      .error (.io .wal "WAL changed while startup replay was in progress")
    else if sizeCapBytes < replay.2.2 then
      .error (.capacityExceeded sizeCapBytes replay.2.2 0)
    else
      .ok { file := { bytes := bytes, cursor := 0 }, nextSeq := replay.1,
            lastChainHashHex := replay.2.1, bytesWritten := replay.2.2,
            sizeCapBytes := sizeCapBytes, poisonedReason := none, pendingSnapshot := none,
            pendingTruncate := none, renamedOver := none }
  match disk with
  | none => fresh [] (0,none,0)
  | some bytes =>
    if sizeCapBytes < bytes.length then .error (.capacityExceeded sizeCapBytes bytes.length 0)
    else
      match decodeUtf8 bytes with
      | none => .error (.io .wal "stream did not contain valid UTF-8")
      | some contents =>
        match replayExisting env contents with
        | .error err => .error err
        | .ok replay => fresh bytes replay

end Operations

end CastleWall.Audit
