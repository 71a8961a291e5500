import CastleWall.Audit.Writer

/-! # Snapshots and truncations that stop between rows

The control path reads the log under a deadline. When the deadline passes between two rows the operation
keeps its progress in the writer and a later call goes on from there, with the reader it has already
filled and the cursor wherever it then stands. -/

namespace CastleWall.Audit

open Text

/-- What one round of a loop meets: the shutdown flag, the deadline and the fates of its two writes. -/
structure Round where
  (shutdown expired : Bool)
  (anchorWrite entryWrite : WriteFate)

namespace Round

def quiet : Round :=
  { shutdown := false, expired := false, anchorWrite := .completes, entryWrite := .completes }

end Round

structure SnapshotCall where
  shutdown : Bool
  start : Option String
  round : Nat → Round

structure TruncateCall where
  shutdown : Bool
  /-- Creating the replacement file, or cloning and rewinding the log, fails. -/
  start : Option (WalPath × String)
  round : Nat → Round
  sync : Option String
  stopping : Bool
  (rename parentSync reopen : Option String)

namespace TruncateCall

/-- A call that meets no fault and passes its deadline in the given round, if any. -/
def pausedAt (deadline : Option Nat) : TruncateCall where
  shutdown := false
  start := none
  round := fun i => { Round.quiet with expired := deadline.any (· ≤ i) }
  sync := none
  stopping := false
  rename := none
  parentSync := none
  reopen := none

end TruncateCall

/-- The row of a line: one newline and one carriage return are dropped from its end. -/
def boundedRow (line : String) : String :=
  let row := if line.toList.getLast? = some '\n' then line.toList.dropLast else line.toList
  String.ofList (stripCr row)

inductive Stop (π : Type) where
  | complete (progress : π)
  /-- The progress stays pending. -/
  | held (progress : π) (err : WalError)
  /-- The progress is dropped. -/
  | abandoned (err : WalError)

section Operations

variable (env : WalEnv)

def snapshotLoop (call : SnapshotCall) :
    Nat → Nat → OpenFile UInt8 → SnapshotProgress → OpenFile UInt8 × Stop SnapshotProgress
  | 0, _, file, p => (file,.held p (.operationInProgress .snapshot p.validation.bytes))
  | fuel+1, i, file, p =>
    if (call.round i).shutdown then (file,.abandoned .cancelled)
    else if (call.round i).expired then
      (file,.held p (.operationInProgress .snapshot p.validation.bytes))
    else
      match BufReader.readLine readBlock newline { file := file, buffer := p.buffer } with
      | ([],reader) => (reader.file,.complete { p with buffer := reader.buffer })
      | (bytes,reader) =>
        let p := { p with buffer := reader.buffer }
        match decodeUtf8 bytes with
        | none => (reader.file,.held p (.io .wal "stream did not contain valid UTF-8"))
        | some line =>
          let p := { p with lineNum := p.lineNum+1 }
          match validateWalLine env (boundedRow line) p.lineNum p.validation with
          | .error err => (reader.file,.abandoned err)
          | .ok (entry,validation) =>
            let p := { p with validation := validation }
            if isAfter p.afterSeq entry then
              let p := { p with out := p.out++[entry] }
              if p.out.length=p.maxEntries then (reader.file,.complete p)
              else snapshotLoop call fuel (i+1) reader.file p
            else snapshotLoop call fuel (i+1) reader.file p

variable (w : WalWriter)

/-- The pending snapshot with this cursor and limit, or a new one over the rewound file. -/
def resumeSnapshot (afterSeq : Option Nat) (maxEntries : Nat) (call : SnapshotCall) :
    Except WalError (OpenFile UInt8 × SnapshotProgress) :=
  match w.pendingSnapshot with
  | some p =>
    if p.afterSeq≠afterSeq ∨ p.maxEntries≠maxEntries then
      .error (.operationInProgress .snapshot p.validation.bytes)
    else .ok (w.file,p)
  | none =>
    match call.start with
    | some err => .error (.io .wal err)
    | none =>
      .ok (w.file.seekStart,
        { afterSeq := afterSeq, maxEntries := maxEntries, buffer := [], validation := .default,
          lineNum := 0, out := [] })

def snapshotAfterBounded (afterSeq : Option Nat) (maxEntries : Nat)
    (call : SnapshotCall) : WalWriter × Except WalError (List WalEntry) :=
  match w.poisonedReason, w.pendingTruncate with
  | some reason, _ => (w,.error (.poisoned reason))
  | none, some p => (w,.error (.operationInProgress .truncate p.validation.bytes))
  | none, none =>
    if call.shutdown then ({ w with pendingSnapshot := none },.error .cancelled)
    else
      match resumeSnapshot w afterSeq maxEntries call with
      | .error err => (w,.error err)
      | .ok (file,p) =>
        match snapshotLoop env call (file.bytes.length+p.buffer.length+1) 0 file p with
        | (file,.complete p) => ({ w with file := file, pendingSnapshot := none },.ok p.out)
        | (file,.held p err) => ({ w with file := file, pendingSnapshot := some p },.error err)
        | (file,.abandoned err) => ({ w with file := file, pendingSnapshot := none },.error err)

variable (p : TruncateProgress)

def writeProgressEntry (entry : WalEntry) :
    WriteFate → TruncateProgress × Option WalError
  | .fails written err =>
    ({ p with tmp := p.tmp++(walRowBytes entry.text).dropLast.take written },some (.io .tmp err))
  | .completes =>
    ({ p with tmp := p.tmp++walRowBytes entry.text
              newBytes := min (p.newBytes+(walRowBytes entry.text).length) (2 ^ 64 - 1)
              newChainHash := some (chainHash env entry) },none)

def writeProgressAnchor (fate : WriteFate) :
    TruncateProgress × Option WalError :=
  match p.lastAcked with
  | none => ({ p with anchorWritten := true },none)
  | some anchor =>
    match writeProgressEntry env { p with lastAcked := none } { anchor with ackedAnchor := true } fate with
    | (p,some err) => (p,some err)
    | (p,none) => ({ p with anchorWritten := true },none)

/-- The anchor, unless the replacement file has it. -/
def ensureAnchor (fate : WriteFate) : TruncateProgress × Option WalError :=
  if p.anchorWritten then (p,none) else writeProgressAnchor env p fate

def truncateRow (lastAckedSeq : Nat) (round : Round) (p : TruncateProgress) (entry : WalEntry) :
    TruncateProgress × Option WalError :=
  if entry.seq ≤ lastAckedSeq then
    if entry.ackedAnchor then ({ p with lastAcked := some entry },none)
    else
      match checkedAdd p.newlyDropped 1 with
      | none => (p,some (.parse p.lineNum "WAL acknowledged-entry count overflow"))
      | some n => ({ p with newlyDropped := n, lastAcked := some entry },none)
  else
    match ensureAnchor env p round.anchorWrite with
    | (p,some err) => (p,some err)
    | (p,none) => writeProgressEntry env p entry round.entryWrite

def truncateLoop (lastAckedSeq : Nat) (call : TruncateCall) :
    Nat → Nat → OpenFile UInt8 → TruncateProgress → OpenFile UInt8 × Stop TruncateProgress
  | 0, _, file, p => (file,.held p (.operationInProgress .truncate p.validation.bytes))
  | fuel+1, i, file, p =>
    if (call.round i).shutdown then (file,.abandoned .cancelled)
    else if (call.round i).expired then
      (file,.held p (.operationInProgress .truncate p.validation.bytes))
    else
      match BufReader.readLine readBlock newline { file := file, buffer := p.buffer } with
      | ([],reader) =>
        match ensureAnchor env { p with buffer := reader.buffer } (call.round i).anchorWrite with
        | (p,some err) => (reader.file,.held p err)
        | (p,none) => (reader.file,.complete p)
      | (bytes,reader) =>
        let p := { p with buffer := reader.buffer }
        match decodeUtf8 bytes with
        | none => (reader.file,.held p (.io .wal "stream did not contain valid UTF-8"))
        | some line =>
          let p := { p with lineNum := p.lineNum+1 }
          match validateWalLine env (boundedRow line) p.lineNum p.validation with
          | .error err => (reader.file,.abandoned err)
          | .ok (entry,validation) =>
            match truncateRow env lastAckedSeq (call.round i) { p with validation := validation } entry with
            | (p,some err) => (reader.file,.held p err)
            | (p,none) => truncateLoop lastAckedSeq call fuel (i+1) reader.file p

def commitTruncate (p : TruncateProgress) (call : TruncateCall) :
    WalWriter × Except WalError Nat :=
  match call.sync with
  | some err => (w,.error (.io .tmp err))
  | none =>
    if call.stopping then (w,.error .cancelled)
    else
      match call.rename, call.parentSync, call.reopen with
      | some err, _, _ => (w,.error (.renameFailed err))
      | none, some err, _ =>
        let q := { w with renamedOver := some p.tmp }.poison
          ("parent-directory fsync after WAL rename failed: " ++ err)
        (q.1,.error q.2)
      | none, none, some err =>
        let q := { w with renamedOver := some p.tmp }.poison ("WAL reopen after rename failed: " ++ err)
        (q.1,.error q.2)
      | none, none, none =>
        ({ w with file := { bytes := p.tmp, cursor := 0 }, bytesWritten := p.newBytes,
                  lastChainHashHex := p.newChainHash },
          .ok p.newlyDropped)

def startProgress (lastAckedSeq : Nat) : TruncateProgress where
  lastAckedSeq := lastAckedSeq
  buffer := []
  tmp := []
  validation := .default
  lineNum := 0
  lastAcked := none
  anchorWritten := false
  newlyDropped := 0
  newBytes := 0
  newChainHash := none

def resumeTruncate (lastAckedSeq : Nat) (call : TruncateCall) :
    Except WalError (OpenFile UInt8 × TruncateProgress) :=
  match w.pendingTruncate with
  | some p =>
    if p.lastAckedSeq≠lastAckedSeq then
      .error (.operationInProgress .truncate p.validation.bytes)
    else .ok (w.file,p)
  | none =>
    match call.start with
    | some (path,err) => .error (.io path err)
    | none => .ok (w.file.seekStart,startProgress lastAckedSeq)

def truncateThroughSeqBounded (lastAckedSeq : Nat) (call : TruncateCall) :
    WalWriter × Except WalError Nat :=
  match w.poisonedReason, w.pendingSnapshot with
  | some reason, _ => (w,.error (.poisoned reason))
  | none, some p => (w,.error (.operationInProgress .snapshot p.validation.bytes))
  | none, none =>
    if call.shutdown then ({ w with pendingTruncate := none },.error .cancelled)
    else
      match resumeTruncate w lastAckedSeq call with
      | .error err => (w,.error err)
      | .ok (file,p) =>
        match truncateLoop env lastAckedSeq call (file.bytes.length+p.buffer.length+1) 0 file p with
        | (file,.complete p) => commitTruncate { w with file := file, pendingTruncate := none } p call
        | (file,.held p err) => ({ w with file := file, pendingTruncate := some p },.error err)
        | (file,.abandoned err) => ({ w with file := file, pendingTruncate := none },.error err)

end Operations

end CastleWall.Audit
