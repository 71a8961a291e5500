import CastleWall.Owner.LedgerRun

/-! # Runs of the owner ledger

A ledger is opened, appended to and closed, writes and syncs fail, and the machine crashes. An open replays what it
reads and syncs only the directory: a row whose sync failed is taken over without being synced again. -/

namespace CastleWall.Owner

open Outcome (require)

inductive LedgerOp where
  | prepare (g : Generation)
  | managerCreated (unitName : String) (identity : ManagerIdentity)
  | acceptAttempt (unit id hash : String) (releaseHash : Option String)
  | acceptReleaseCopy (receipt : SignedReceipt)
  | recordOutcome (receipt : SignedReceipt)

namespace LedgerOp

def row : LedgerOp → Row
  | .prepare g => .prepared g
  | .managerCreated unitName identity => .managerIdentity unitName identity
  | .acceptAttempt unit id hash releaseHash => .attempt unit id hash releaseHash
  | .acceptReleaseCopy receipt => .releaseCopy receipt.body.generation.unitName receipt
  | .recordOutcome receipt => .outcome receipt.body.generation.unitName receipt

def run (env : OwnerEnv) (file : LedgerFile) (ledger : Ledger) (outcome : WriteOutcome) : LedgerOp → LedgerResult
  | .prepare g => ledger.prepareFixture env file g outcome
  | .managerCreated unitName identity => ledger.managerCreatedFixture env file unitName identity outcome
  | .acceptAttempt unit id hash releaseHash => ledger.acceptAttempt env file unit id hash releaseHash outcome
  | .acceptReleaseCopy receipt => ledger.acceptReleaseCopy env file receipt outcome
  | .recordOutcome receipt => ledger.recordOutcome env file receipt outcome

def retried : LedgerOp → Bool
  | .prepare _ => false
  | .managerCreated _ _ => false
  | _ => true

end LedgerOp

/-- What a row decides, and no other row of the ledger does. -/
inductive RowSlot where
  | prepared (unitName : String)
  | manager (unitName : String)
  | attempt (unitName attemptId : String)
  | release (unitName : String)
  | outcome (unitName : String)

def Row.slot : Row → RowSlot
  | .prepared g => .prepared g.unitName
  | .managerIdentity unitName _ => .manager unitName
  | .attempt unitName attemptId _ _ => .attempt unitName attemptId
  | .releaseCopy unitName _ => .release unitName
  | .outcome unitName _ => .outcome unitName

/-- The refusals of `checked_capacity`. -/
def LedgerError.ofSpace : LedgerError → Bool
  | .ledgerOverflow => true
  | .classCeiling => true
  | .settlementOverflow => true
  | .settlementSlots => true
  | _ => false

structure LedgerWorld where
  file : LedgerFile
  ledger : Option Ledger
  /-- The rows the last open replayed, and those written since. -/
  accepted : List Row
  /-- The rows of this handle. -/
  wrote : List Row
  /-- The rows whose operation has returned. -/
  returned : List Row

def LedgerWorld.empty : LedgerWorld := ⟨⟨[],[]⟩,none,[],[],[]⟩

inductive LedgerInput where
  | open
  | close
  /-- Of what was not synced, some bytes are kept. -/
  | crash (kept : Nat)
  | operation (op : LedgerOp) (outcome : WriteOutcome)

section Runs

variable (env : OwnerEnv)

def rowsFrom (acc : List UInt8) : List UInt8 → List Row
  | [] => []
  | b::rest => if b=10 then (env.decodeRow acc).toList++rowsFrom [] rest else rowsFrom (acc++[b]) rest

namespace LedgerWorld

def openLedger (world : LedgerWorld) : LedgerWorld :=
  match world.ledger with
  | some _ => world
  | none =>
    match replay env world.file.content with
    | .error _ => world
    | .ok state =>
      { world with ledger := some ⟨state,false⟩, accepted := rowsFrom env [] world.file.content, wrote := [] }

def operate (world : LedgerWorld) (op : LedgerOp) (outcome : WriteOutcome) : LedgerWorld :=
  match world.ledger with
  | none => world
  | some ledger =>
    let after := op.run env world.file ledger outcome
    let returned := if after.result.isOk then [op.row] else []
    let written := if after.file=world.file then [] else returned
    { file := after.file
      ledger := some after.ledger
      accepted := world.accepted++written
      wrote := world.wrote++written
      returned := world.returned++returned }

def step (world : LedgerWorld) : LedgerInput → LedgerWorld
  | .open => world.openLedger env
  | .close => { world with ledger := none, wrote := [] }
  | .crash kept =>
    { world with file := ⟨world.file.synced++world.file.unsynced.take kept,[]⟩, ledger := none, wrote := [] }
  | .operation op outcome => world.operate env op outcome

def run (inputs : List LedgerInput) : LedgerWorld := inputs.foldl (step env) .empty

end LedgerWorld

def LedgerInput.settled (world : LedgerWorld) : LedgerInput → Prop
  | .open => world.ledger=none → world.file.unsynced.getLast? ≠ some 10
  | _ => True

def SettledRun (world : LedgerWorld) : List LedgerInput → Prop
  | [] => True
  | input::rest => input.settled world ∧ SettledRun (world.step env input) rest

def LedgerInput.readBack : LedgerInput → Prop
  | .operation op _ => env.decodeRow op.row.encode=some op.row
  | _ => True

structure SoundLedger (world : LedgerWorld) : Prop where
  /-- An open yields the rows that were acknowledged and at most one more. -/
  opens : ∀ state, replay env world.file.content=.ok state →
    ∃ extra replayed, extra.length ≤ 1 ∧ replayRows env .default (world.accepted++extra)=.ok replayed ∧
      state = { replayed with createTransaction := .sealed } ∧ OneOpen state.generations
  returned : ∀ row∈world.returned, row∈world.accepted
  oneOpen : ∀ ledger, world.ledger=some ledger → OneOpen ledger.state.generations
  manager : ∀ ledger unit identity outcome, world.ledger=some ledger →
    (ledger.managerCreatedFixture env world.file unit identity outcome).file≠world.file →
      ∃ g, .prepared g∈world.wrote ∧ g.unitName=unit
  retry : ∀ ledger (op : LedgerOp) outcome row, world.ledger=some ledger → row∈world.accepted →
    op.row.slot=row.slot →
      (op.run env world.file ledger outcome).file=world.file ∧
      (op.run env world.file ledger outcome).ledger=ledger ∧
      (op.row≠row → ∃ error, (op.run env world.file ledger outcome).result=.error error) ∧
      (op.row=row → op.retried=true → (op.run env world.file ledger outcome).result=.ok ())
  settles : ∀ ledger (op : LedgerOp) outcome, world.ledger=some ledger → op.row.acceptance=false →
    (∀ error, (op.run env world.file ledger outcome).result=.error error → error.ofSpace=false) ∧
    ((∃ candidate, apply env ledger.state op.row=.ok candidate) → op.row.line.length ≤ rowMax →
      ledger.uncertain=false → outcome=.durable → (op.run env world.file ledger outcome).result=.ok ())

end Runs

section Operations

variable {env : OwnerEnv} {file : LedgerFile} {ledger : Ledger} {outcome : WriteOutcome} {row : Row}

theorem append_refused (h : ∀ state', ledger.admitRow env row≠.ok state') :
    ∃ error, ledger.append env file row outcome=⟨file,ledger,.error error⟩ := by
  cases hadm : ledger.admitRow env row with
  | ok state' => exact absurd hadm (h state')
  | error error => exact ⟨error,by rw [Ledger.append,hadm]⟩

theorem append_cases (row : Row) :
    (∃ error, ledger.append env file row outcome=⟨file,ledger,.error error⟩) ∨
    ∃ state', ledger.admitRow env row=.ok state' ∧ file.content.length=ledger.state.bytes ∧
      (ledger.append env file row outcome=⟨⟨file.content++row.line,[]⟩,⟨state',false⟩,.ok ()⟩ ∨
        ∃ k, ledger.append env file row outcome =
          ⟨{ file with unsynced := file.unsynced++row.line.take k },{ ledger with uncertain := true },.error .io⟩) := by
  cases hadm : ledger.admitRow env row with
  | error error => exact .inl ⟨error,by rw [Ledger.append,hadm]⟩
  | ok state' =>
    by_cases hmet : outcome=.metadataFailed
    · exact .inl ⟨.io,by simp only [Ledger.append,hadm,if_pos hmet]⟩
    by_cases hlen : file.content.length=ledger.state.bytes
    · refine .inr ⟨state',rfl,hlen,?_⟩
      have hne : ¬file.content.length≠ledger.state.bytes := not_not_intro hlen
      simp only [Ledger.append,hadm,if_neg hmet,if_neg hne]
      cases outcome with
      | metadataFailed => exact absurd rfl hmet
      | writeFailed written => exact .inr ⟨written,rfl⟩
      | syncFailed => exact .inr ⟨row.line.length,by rw [List.take_length]⟩
      | durable => exact .inl rfl
    · exact .inl ⟨.changedExternally,by simp only [Ledger.append,hadm,if_neg hmet,if_pos hlen]⟩

theorem settleOnce_cases {held : GenerationState → Option SignedReceipt} {conflict : LedgerError} {row : Row}
    {receipt : SignedReceipt} (hspa : conflict.ofSpace=false) :
    (ledger.settleOnce env file held conflict row receipt outcome=⟨file,ledger,.ok ()⟩ ∧ ∃ entry,
      ledger.state.generations.get receipt.body.generation.unitName=some entry ∧ held entry=some receipt) ∨
    (∃ error, ledger.settleOnce env file held conflict row receipt outcome=⟨file,ledger,.error error⟩ ∧
      error.ofSpace=false) ∨
    ledger.settleOnce env file held conflict row receipt outcome=ledger.append env file row outcome := by
  unfold Ledger.settleOnce
  cases hhel : (ledger.state.generations.get receipt.body.generation.unitName).bind held with
  | none => exact .inr (.inr rfl)
  | some old =>
    by_cases heq : old=receipt
    · obtain ⟨entry,hent,hrec⟩ := Option.bind_eq_some_iff.mp hhel
      exact .inl ⟨if_pos heq,entry,hent,heq ▸ hrec⟩
    · exact .inr (.inl ⟨_,if_neg heq,hspa⟩)

theorem run_cases (op : LedgerOp) :
    (op.run env file ledger outcome=⟨file,ledger,.ok ()⟩ ∧ Recorded ledger.state.generations op.row) ∨
    (∃ error, op.run env file ledger outcome=⟨file,ledger,.error error⟩ ∧ error.ofSpace=false) ∨
    op.run env file ledger outcome=ledger.append env file op.row outcome := by
  cases op with
  | prepare g =>
    simp only [LedgerOp.run,Ledger.prepareFixture]
    split
    · exact .inr (.inl ⟨_,rfl,rfl⟩)
    · exact .inr (.inr rfl)
  | managerCreated unitName identity => exact .inr (.inr rfl)
  | acceptAttempt unit id hash releaseHash =>
    simp only [LedgerOp.run,Ledger.acceptAttempt]
    cases hent : ledger.state.generations.get unit with
    | none => exact .inr (.inl ⟨_,rfl,rfl⟩)
    | some entry =>
      cases hhel : entry.attempts.get id with
      | none =>
        simp only [hhel]
        by_cases hlim : maxAttempts ≤ entry.attempts.entries.length
        · exact .inr (.inl ⟨_,if_pos hlim,rfl⟩)
        · exact .inr (.inr (if_neg hlim))
      | some held =>
        simp only [hhel]
        by_cases heq : held=(hash,releaseHash)
        · subst heq
          exact .inl ⟨if_pos rfl,entry,hent,hhel⟩
        · exact .inr (.inl ⟨_,if_neg heq,rfl⟩)
  | acceptReleaseCopy receipt => exact settleOnce_cases rfl
  | recordOutcome receipt => exact settleOnce_cases rfl

def Retries (env : OwnerEnv) (file : LedgerFile) (ledger : Ledger) (outcome : WriteOutcome) (op : LedgerOp)
    (row : Row) : Prop :=
  (op.run env file ledger outcome).file=file ∧ (op.run env file ledger outcome).ledger=ledger ∧
    (op.row≠row → ∃ error, (op.run env file ledger outcome).result=.error error) ∧
    (op.row=row → op.retried=true → (op.run env file ledger outcome).result=.ok ())

variable {op : LedgerOp}

theorem retries_of_refused {error : LedgerError}
    (h : op.run env file ledger outcome=⟨file,ledger,.error error⟩) (hne : op.row=row → op.retried=false) :
    Retries env file ledger outcome op row := by
  rw [Retries,h]
  refine ⟨rfl,rfl,fun _ => ⟨error,rfl⟩,fun heq hret => ?_⟩
  rw [hne heq] at hret
  cases hret

theorem retries_of_found (h : op.run env file ledger outcome=⟨file,ledger,.ok ()⟩)
    (heq : op.row=row) : Retries env file ledger outcome op row := by
  rw [Retries,h]
  exact ⟨rfl,rfl,fun hne => absurd heq hne,fun _ _ => rfl⟩

theorem settleOnce_retry {held : GenerationState → Option SignedReceipt} {conflict : LedgerError}
    {receipt old : SignedReceipt} {entry : GenerationState}
    (hent : ledger.state.generations.get receipt.body.generation.unitName=some entry)
    (hhel : held entry=some old) :
    ledger.settleOnce env file held conflict row receipt outcome =
      if old=receipt then ⟨file,ledger,.ok ()⟩ else ⟨file,ledger,.error conflict⟩ := by
  rw [Ledger.settleOnce,hent,Option.bind_some,hhel]

theorem retries_of_recorded (hrow : Recorded ledger.state.generations row)
    (hslo : op.row.slot=row.slot) : Retries env file ledger outcome op row := by
  cases op with
  | prepare g =>
    have href : ∃ error, (LedgerOp.prepare g).run env file ledger outcome=⟨file,ledger,.error error⟩ := by
      simp only [LedgerOp.run,Ledger.prepareFixture]
      split
      · exact ⟨_,rfl⟩
      · apply append_refused
        intro state' hadm
        have hste := (admitted_of_admitRow hadm).2.step
        cases row with
        | prepared g' =>
          obtain ⟨entry,hent,-⟩ := hrow
          rw [Row.unitName] at hent
          generalize state'.generations=generations' at hste
          cases hste with
          | prepared _ hclo hfre =>
            rw [RowSlot.prepared.inj hslo,hent] at hfre
            cases hfre
        | _ => cases hslo
    obtain ⟨error,herr⟩ := href
    exact retries_of_refused herr fun _ => rfl
  | managerCreated unit identity =>
    have href : ∃ error, ledger.append env file (.managerIdentity unit identity) outcome =
        ⟨file,ledger,.error error⟩ := by
      apply append_refused
      intro state' hadm
      have hste := (admitted_of_admitRow hadm).2.step
      cases row with
      | managerIdentity unit' identity' =>
        obtain ⟨entry,hent,hhel⟩ := hrow
        rw [Row.unitName] at hent
        rw [GenerationState.holds] at hhel
        generalize state'.generations=generations' at hste
        cases hste with
        | managerIdentity _ _ entry' hent' hope hman =>
          rw [RowSlot.manager.inj hslo,hent,Option.some.injEq] at hent'
          rw [← hent',hhel] at hman
          cases hman
      | _ => cases hslo
    obtain ⟨error,herr⟩ := href
    exact retries_of_refused herr fun _ => rfl
  | acceptAttempt unit id hash releaseHash =>
    cases row with
    | attempt unit' id' hash' releaseHash' =>
      obtain ⟨entry,hent,hhel⟩ := hrow
      rw [Row.unitName] at hent
      rw [GenerationState.holds] at hhel
      obtain ⟨rfl,rfl⟩ := RowSlot.attempt.inj hslo
      have hrun : (LedgerOp.acceptAttempt unit id hash releaseHash).run env file ledger outcome =
          if (hash',releaseHash')=(hash,releaseHash) then ⟨file,ledger,.ok ()⟩
          else ⟨file,ledger,.error .conflictingAttempt⟩ := by
        simp only [LedgerOp.run,Ledger.acceptAttempt,hent,hhel]
      by_cases heq : (hash',releaseHash')=(hash,releaseHash)
      · cases heq
        exact retries_of_found (hrun.trans (if_pos rfl)) rfl
      · refine retries_of_refused (hrun.trans (if_neg heq)) fun hrow => ?_
        cases hrow
        exact absurd rfl heq
    | _ => cases hslo
  | acceptReleaseCopy receipt =>
    cases row with
    | releaseCopy unit old =>
      obtain ⟨entry,hent,hhel⟩ := hrow
      rw [Row.unitName,← RowSlot.release.inj hslo] at hent
      have hrun : (LedgerOp.acceptReleaseCopy receipt).run env file ledger outcome=_ := settleOnce_retry hent hhel
      by_cases heq : old=receipt
      · refine retries_of_found (hrun.trans (if_pos heq)) ?_
        rw [← RowSlot.release.inj hslo,heq]
        rfl
      · refine retries_of_refused (hrun.trans (if_neg heq)) fun hrow => ?_
        cases hrow
        exact absurd rfl heq
    | _ => cases hslo
  | recordOutcome receipt =>
    cases row with
    | outcome unit old =>
      obtain ⟨entry,hent,hhel⟩ := hrow
      rw [Row.unitName,← RowSlot.outcome.inj hslo] at hent
      have hrun : (LedgerOp.recordOutcome receipt).run env file ledger outcome=_ := settleOnce_retry hent hhel
      by_cases heq : old=receipt
      · refine retries_of_found (hrun.trans (if_pos heq)) ?_
        rw [← RowSlot.outcome.inj hslo,heq]
        rfl
      · refine retries_of_refused (hrun.trans (if_neg heq)) fun hrow => ?_
        cases hrow
        exact absurd rfl heq
    | _ => cases hslo

end Operations

section Invariant

variable {env : OwnerEnv}

/-- A row that was admitted behind the rows of the replay; some of its bytes are in the file. -/
structure Landing (env : OwnerEnv) (replayed : LedgerState) (row : Row) (handle handle' : LedgerState)
    (tail : List UInt8) : Prop where
  bytes : ∃ written, tail=row.line.take written
  readable : Readable env row
  agrees : Agrees handle replayed
  admitted : Admitted env handle row handle'

structure LedgerInv (env : OwnerEnv) (world : LedgerWorld) (replayed : LedgerState) (tail : List UInt8) : Prop where
  readable : ∀ row∈world.accepted, Readable env row
  replays : replayRows env .default world.accepted=.ok replayed
  oneOpen : OneOpen replayed.generations
  reserved : Reserved replayed
  bytes : replayed.bytes ≤ totalMax
  recorded : ∀ row, Recorded replayed.generations row ↔ row∈world.accepted
  content : world.file.content=lines world.accepted++tail
  landing : tail=[] ∨ ∃ row handle handle', Landing env replayed row handle handle' tail
  unsynced : world.file.unsynced=[] ∨ world.file.unsynced=tail
  agrees : ∀ ledger, world.ledger=some ledger → Agrees ledger.state replayed
  certain : ∀ ledger, world.ledger=some ledger → ledger.uncertain=false → tail=[]
  transaction : ∀ ledger unit, world.ledger=some ledger → ledger.state.createTransaction=.open unit →
    ∃ g, .prepared g∈world.wrote ∧ g.unitName=unit
  returned : ∀ row∈world.returned, row∈world.accepted

variable {handle' replayed : LedgerState} {row : Row} {handle : LedgerState}

theorem replayRow_generations {replayed' : LedgerState}
    (h : Agrees handle' replayed') (hste : RowStep handle.generations row handle'.generations)
    (hagr : Agrees handle replayed) : RowStep replayed.generations row replayed'.generations := by
  rw [← h.generations,← hagr.generations]
  exact hste

structure Extended (env : OwnerEnv) (rows : List Row) (replayed handle' replayed' : LedgerState) : Prop where
  replays : replayRows env .default rows=.ok replayed'
  agrees : Agrees handle' replayed'
  oneOpen : OneOpen replayed'.generations
  reserved : Reserved replayed'
  bytes : replayed'.bytes ≤ totalMax
  recorded : ∀ row, Recorded replayed'.generations row ↔ row∈rows

variable {world : LedgerWorld} {tail : List UInt8}

theorem LedgerInv.extend
    (h : LedgerInv env world replayed tail) (hagr : Agrees handle replayed)
    (hadm : Admitted env handle row handle') :
    ∃ replayed', Extended env (world.accepted++[row]) replayed handle' replayed' := by
  obtain ⟨replayed',hrow,hagr'⟩ := hadm.replayRow hagr
  have hste := replayRow_generations hagr' hadm.step hagr
  have hone : OneOpen handle.generations := hagr.generations ▸ h.oneOpen
  have hroo : Reserved handle := by
    intro unit entry hent hope
    rw [hagr.bytes]
    exact h.reserved unit entry (hagr.generations ▸ hent) hope
  refine ⟨replayed',replayRows_concat h.replays hrow,hagr',hste.oneOpen h.oneOpen,?_,?_,?_⟩
  · intro unit entry hent hope
    rw [← hagr'.bytes]
    exact hadm.reserved hone hroo unit entry (hagr'.generations ▸ hent) hope
  · rw [← hagr'.bytes]
    exact (Nat.le_add_right _ _).trans hadm.slots
  · intro earlier
    rw [hste.recorded_iff,h.recorded,List.mem_append,List.mem_singleton]

theorem Landing.tail_cases
    (h : Landing env replayed row handle handle' tail) :
    tail=[] ∨ (tail≠[] ∧ (10 : UInt8)∉tail) ∨ tail=row.line := by
  obtain ⟨written,htai⟩ := h.bytes
  by_cases hwho : row.line.length ≤ written
  · exact .inr (.inr (htai.trans (List.take_of_length_le hwho)))
  · have hsho : written ≤ row.encode.length := by
      rw [Row.line,List.length_append,List.length_singleton] at hwho
      omega
    rw [Row.line,List.take_append_of_le_length hsho] at htai
    by_cases hemp : tail=[]
    · exact .inl hemp
    · refine .inr (.inl ⟨hemp,fun hmem => newline_not_mem_encode row ?_⟩)
      rw [htai] at hmem
      exact List.mem_of_mem_take hmem

theorem LedgerInv.opens {state : LedgerState}
    (h : LedgerInv env world replayed tail) (hope : replay env world.file.content=.ok state) :
    (tail=[] ∧ state = { replayed with createTransaction := .sealed }) ∨
    ∃ row handle' replayed', tail=row.line ∧ Readable env row ∧
      Extended env (world.accepted++[row]) replayed handle' replayed' ∧
      state = { replayed' with createTransaction := .sealed } := by
  have hemp : tail=[] → state = { replayed with createTransaction := .sealed } := by
    rintro rfl
    rw [h.content,List.append_nil,replay_lines h.readable h.replays h.bytes] at hope
    exact (Except.ok.inj hope).symm
  rcases h.landing with hnone | ⟨row,handle,handle',landing⟩
  · exact .inl ⟨hnone,hemp hnone⟩
  rcases landing.tail_cases with hnone | ⟨hne,htor⟩ | hwho
  · exact .inl ⟨hnone,hemp hnone⟩
  · rw [h.content] at hope
    exact absurd hope (replay_torn h.readable htor hne state)
  · obtain ⟨replayed',hext⟩ := h.extend landing.agrees landing.admitted
    refine .inr ⟨row,handle',replayed',hwho,landing.readable,hext,?_⟩
    have hrea := List.forall_mem_append.mpr ⟨h.readable,List.forall_mem_singleton.mpr landing.readable⟩
    have hlin : world.file.content=lines (world.accepted++[row]) := by
      rw [h.content,hwho]
      simp [lines]
    rw [hlin,replay_lines hrea hext.replays hext.bytes] at hope
    exact (Except.ok.inj hope).symm

theorem rowsFrom_line (hrow : env.decodeRow row.encode=some row) (rest : List UInt8) :
    rowsFrom env [] (row.line++rest)=row::rowsFrom env [] rest := by
  have hbod : ∀ (body acc : List UInt8), (10 : UInt8)∉body →
      rowsFrom env acc (body++10::rest)=(env.decodeRow (acc++body)).toList++rowsFrom env [] rest := by
    intro body
    induction body with
    | nil =>
      intro acc _
      rw [List.nil_append,rowsFrom,if_pos rfl,List.append_nil]
    | cons b body ih =>
      intro acc hnot
      rw [List.mem_cons,not_or] at hnot
      rw [List.cons_append,rowsFrom,if_neg (Ne.symm hnot.1),ih _ hnot.2,List.append_assoc]
      rfl
  rw [Row.line,List.append_assoc,List.singleton_append,hbod _ _ (newline_not_mem_encode row),List.nil_append,hrow]
  rfl

variable {rows : List Row}

theorem rowsFrom_lines (hros : ∀ row∈rows, Readable env row) :
    rowsFrom env [] (lines rows)=rows := by
  induction rows with
  | nil => rfl
  | cons row rows ih =>
    obtain ⟨hrow,hres⟩ := List.forall_mem_cons.mp hros
    change rowsFrom env [] (row.line++lines rows)=_
    rw [rowsFrom_line hrow.decode,ih hres]

theorem inv_empty : LedgerInv env .empty .default [] where
  readable := by simp [LedgerWorld.empty]
  replays := rfl
  oneOpen := by
    intro unit entry unit' entry' hent
    cases hent
  reserved := by
    intro unit entry hent
    cases hent
  bytes := Nat.zero_le _
  recorded := by
    intro row
    simp [LedgerWorld.empty,Recorded,LedgerState.default,OrderedMap.get,OrderedMap.empty]
  content := rfl
  landing := .inl rfl
  unsynced := .inl rfl
  agrees := by simp [LedgerWorld.empty]
  certain := by simp [LedgerWorld.empty]
  transaction := by simp [LedgerWorld.empty]
  returned := by simp [LedgerWorld.empty]

theorem agrees_sealed (replayed : LedgerState) : Agrees { replayed with createTransaction := .sealed } replayed :=
  ⟨rfl,rfl,.inl rfl⟩

/-- The handle has replayed exactly the rows of the file, and all of them are on disk. -/
theorem LedgerInv.reopened {replayed' : LedgerState} (h : LedgerInv env world replayed tail) (hrea : ∀ row∈rows, Readable env row)
    (hext : Extended env rows replayed handle' replayed') (hcon : world.file.content=lines rows)
    (huns : world.file.unsynced=[]) (hgro : ∀ row∈world.accepted, row∈rows) :
    LedgerInv env
      { world with
        ledger := some ⟨{ replayed' with createTransaction := .sealed },false⟩
        accepted := rows
        wrote := [] } replayed' [] where
  readable := hrea
  replays := hext.replays
  oneOpen := hext.oneOpen
  reserved := hext.reserved
  bytes := hext.bytes
  recorded := hext.recorded
  content := hcon.trans (List.append_nil _).symm
  landing := .inl rfl
  unsynced := .inl huns
  agrees := by
    intro ledger hled
    cases hled
    exact agrees_sealed replayed'
  certain := fun _ _ _ => rfl
  transaction := by
    intro ledger unit hled htra
    cases hled
    cases htra
  returned := fun row hrow => hgro row (h.returned row hrow)

theorem LedgerInv.openLedger
    (h : LedgerInv env world replayed tail) (hset : LedgerInput.settled world .open) :
    ∃ replayed' tail', LedgerInv env (world.openLedger env) replayed' tail' := by
  cases hled : world.ledger with
  | some ledger => exact ⟨replayed,tail,by rwa [LedgerWorld.openLedger,hled]⟩
  | none =>
    have hlas := hset hled
    cases hrep : replay env world.file.content with
    | error error => exact ⟨replayed,tail,by simpa only [LedgerWorld.openLedger,hled,hrep] using h⟩
    | ok state =>
      simp only [LedgerWorld.openLedger,hled,hrep]
      rcases h.opens hrep with ⟨rfl,rfl⟩ | ⟨row,handle',replayed',htai,hrow,hext,rfl⟩
      · have hcon : world.file.content=lines world.accepted := h.content.trans (List.append_nil _)
        have huns : world.file.unsynced=[] := h.unsynced.elim id id
        rw [hcon,rowsFrom_lines h.readable]
        exact ⟨replayed,[],h.reopened h.readable
          ⟨h.replays,agrees_sealed replayed,h.oneOpen,h.reserved,h.bytes,h.recorded⟩ hcon huns
          fun _ hmem => hmem⟩
      · -- the whole row is there: it was synced, or it would end what is not
        have huns : world.file.unsynced=[] := by
          rcases h.unsynced with huns | huns
          · exact huns
          · rw [huns,htai,Row.line,List.getLast?_concat] at hlas
            exact absurd rfl hlas
        have hcon : world.file.content=lines (world.accepted++[row]) := by
          rw [h.content,htai]
          simp [lines]
        have hrea := List.forall_mem_append.mpr ⟨h.readable,List.forall_mem_singleton.mpr hrow⟩
        rw [hcon,rowsFrom_lines hrea]
        exact ⟨replayed',[],h.reopened hrea hext hcon huns
          fun _ hmem => List.mem_append_left _ hmem⟩

theorem LedgerInv.closed
    (h : LedgerInv env world replayed tail) : LedgerInv env { world with ledger := none, wrote := [] } replayed tail :=
  { h with
    agrees := fun _ hled => nomatch hled
    certain := fun _ hled => nomatch hled
    transaction := fun _ _ hled => nomatch hled }

theorem LedgerInv.crashed
    (h : LedgerInv env world replayed tail) (kept : Nat) :
    ∃ tail', LedgerInv env (world.step env (.crash kept)) replayed tail' := by
  rcases h.unsynced with huns | huns
  · refine ⟨tail,{ h.closed with content := ?_, unsynced := .inl rfl }⟩
    have hcon := h.content
    rw [LedgerFile.content,huns] at hcon
    change (world.file.synced++world.file.unsynced.take kept)++[]=_
    rw [huns,List.take_nil,List.append_nil]
    exact hcon
  · refine ⟨tail.take kept,{ h.closed with content := ?_, landing := ?_, unsynced := .inl rfl, certain := ?_ }⟩
    · have hcon := h.content
      rw [LedgerFile.content,huns] at hcon
      change (world.file.synced++world.file.unsynced.take kept)++[]=_
      rw [huns,List.append_cancel_right hcon,List.append_nil]
      rfl
    · rcases h.landing with hnone | ⟨row,handle,handle',landing⟩
      · exact .inl (by rw [hnone,List.take_nil])
      · obtain ⟨written,hwri⟩ := landing.bytes
        exact .inr ⟨row,handle,handle',
          { landing with bytes := ⟨min kept written,by rw [hwri,List.take_take]⟩ }⟩
    · intro ledger hled
      cases hled

theorem LedgerInv.unchanged {ledger : Ledger} (h : LedgerInv env world replayed tail) (hled : world.ledger=some ledger)
    (hrow : ∀ row∈rows, row∈world.accepted) :
    LedgerInv env ⟨world.file,some ledger,world.accepted++[],world.wrote++[],world.returned++rows⟩
      replayed tail := by
  rw [List.append_nil,List.append_nil,← hled]
  exact { h with returned := List.forall_mem_append.mpr ⟨h.returned,hrow⟩ }

theorem line_ne_nil (row : Row) : row.line≠[] := by simp [Row.line]

theorem LedgerInv.durable {state' : LedgerState} {ledger : Ledger}
    (h : LedgerInv env world replayed []) (hled : world.ledger=some ledger)
    (hrea : env.decodeRow row.encode=some row) (hadm : Admitted env ledger.state row state') :
    ∃ replayed', LedgerInv env ⟨⟨world.file.content++row.line,[]⟩,some ⟨state',false⟩,world.accepted++[row],
      world.wrote++[row],world.returned++[row]⟩ replayed' [] := by
  obtain ⟨replayed',hext⟩ := h.extend (h.agrees ledger hled) hadm
  refine ⟨replayed',
    { readable := List.forall_mem_append.mpr ⟨h.readable,List.forall_mem_singleton.mpr ⟨hadm.size,hrea⟩⟩
      replays := hext.replays
      oneOpen := hext.oneOpen
      reserved := hext.reserved
      bytes := hext.bytes
      recorded := hext.recorded
      content := ?_
      landing := .inl rfl
      unsynced := .inl rfl
      agrees := ?_
      certain := fun _ _ _ => rfl
      transaction := ?_
      returned := ?_ }⟩
  · rw [h.content]
    simp [LedgerFile.content,lines]
  · intro ledger' hled'
    cases hled'
    exact hext.agrees
  · intro ledger' unit hled' htra
    cases hled'
    rw [hadm.transaction] at htra
    have hear : ledger.state.createTransaction=.open unit →
        ∃ g, Row.prepared g∈world.wrote++[row] ∧ g.unitName=unit := by
      intro hope
      obtain ⟨g,hg,huni⟩ := h.transaction ledger unit hled hope
      exact ⟨g,List.mem_append_left _ hg,huni⟩
    cases row with
    | prepared g => exact ⟨g,List.mem_append_right _ (List.mem_singleton_self _),CreateTransaction.open.inj htra⟩
    | managerIdentity unit' identity => cases htra
    | _ => exact hear htra
  · refine List.forall_mem_append.mpr ⟨fun row' hrow' => List.mem_append_left _ (h.returned row' hrow'),?_⟩
    exact List.forall_mem_singleton.mpr (List.mem_append_right _ (List.mem_singleton_self _))

theorem LedgerInv.failed {state' : LedgerState} {ledger : Ledger}
    (h : LedgerInv env world replayed []) (hled : world.ledger=some ledger)
    (hrea : env.decodeRow row.encode=some row) (hadm : Admitted env ledger.state row state') (k : Nat) :
    LedgerInv env ⟨{ world.file with unsynced := world.file.unsynced++row.line.take k },
      some { ledger with uncertain := true },world.accepted++[],world.wrote++[],world.returned++[]⟩
      replayed (row.line.take k) := by
  have huns : world.file.unsynced=[] := h.unsynced.elim id id
  rw [List.append_nil,List.append_nil,List.append_nil]
  refine { h with content := ?_, landing := ?_, unsynced := ?_, agrees := ?_, certain := ?_, transaction := ?_ }
  · have hcon := h.content
    rw [LedgerFile.content,huns,List.append_nil,List.append_nil] at hcon
    rw [LedgerFile.content,huns,hcon,List.nil_append]
  · exact .inr ⟨row,ledger.state,state',⟨k,rfl⟩,⟨hadm.size,hrea⟩,h.agrees ledger hled,hadm⟩
  · rw [huns,List.nil_append]
    exact .inr rfl
  · intro ledger' hled'
    cases hled'
    exact h.agrees ledger hled
  · intro ledger' hled' hunc
    cases hled'
    cases hunc
  · intro ledger' unit hled' htra
    cases hled'
    exact h.transaction ledger unit hled htra

variable {op : LedgerOp}

theorem LedgerInv.operate
    (h : LedgerInv env world replayed tail) {outcome : WriteOutcome}
    (hrea : env.decodeRow op.row.encode=some op.row) :
    ∃ replayed' tail', LedgerInv env (world.operate env op outcome) replayed' tail' := by
  cases hled : world.ledger with
  | none => exact ⟨replayed,tail,by rwa [LedgerWorld.operate,hled]⟩
  | some ledger =>
    have href : ∀ {error}, op.run env world.file ledger outcome=⟨world.file,ledger,.error error⟩ →
        LedgerInv env (world.operate env op outcome) replayed tail := by
      intro error hrun
      simp only [LedgerWorld.operate,hled,hrun,if_pos]
      exact h.unchanged hled (List.forall_mem_nil _)
    rcases @run_cases env world.file ledger outcome op with ⟨hrun,hrec⟩ | ⟨error,hrun,-⟩ | hrun
    · rw [(h.agrees ledger hled).generations,h.recorded] at hrec
      simp only [LedgerWorld.operate,hled,hrun,if_pos]
      exact ⟨replayed,tail,h.unchanged hled (List.forall_mem_singleton.mpr hrec)⟩
    · exact ⟨replayed,tail,href hrun⟩
    · rcases @append_cases env world.file ledger outcome op.row with ⟨error,happ⟩ | ⟨state',hadm,hlen,happ⟩
      · exact ⟨replayed,tail,href (hrun.trans happ)⟩
      · obtain ⟨hcer,hadd⟩ := admitted_of_admitRow hadm
        have htai := h.certain ledger hled hcer
        subst htai
        have huns : world.file.unsynced=[] := h.unsynced.elim id id
        rcases happ with happ | ⟨k,happ⟩
        · have hne : (⟨world.file.content++op.row.line,[]⟩ : LedgerFile)≠world.file := by
            intro heq
            have := congrArg (fun file => file.content.length) heq
            have hpos := List.length_pos_iff.mpr (line_ne_nil op.row)
            simp only [LedgerFile.content,List.length_append,List.length_nil] at this
            omega
          obtain ⟨replayed',hdur⟩ := h.durable hled hrea hadd
          refine ⟨replayed',[],?_⟩
          simp only [LedgerWorld.operate,hled,hrun,happ,if_neg hne]
          exact hdur
        · refine ⟨replayed,op.row.line.take k,?_⟩
          simp only [LedgerWorld.operate,hled,hrun,happ]
          have hwri : ∀ p : Prop, [Decidable p] → (if p then ([] : List Row) else [])=[] := by
            intro p _
            split <;> rfl
          simp only [Except.isOk,Except.toBool,Bool.false_eq_true,if_false,hwri]
          exact h.failed hled hrea hadd k

theorem LedgerInv.step
    (h : LedgerInv env world replayed tail) {input : LedgerInput} (hrea : input.readBack env)
    (hset : input.settled world) : ∃ replayed' tail', LedgerInv env (world.step env input) replayed' tail' := by
  cases input with
  | «open» => exact h.openLedger hset
  | close => exact ⟨replayed,tail,h.closed⟩
  | crash kept => exact ⟨replayed,h.crashed kept⟩
  | operation op outcome => exact h.operate hrea

theorem LedgerInv.run {inputs : List LedgerInput}
    (h : LedgerInv env world replayed tail) (hrea : ∀ input∈inputs, input.readBack env)
    (hset : SettledRun env world inputs) :
    ∃ replayed' tail', LedgerInv env (inputs.foldl (LedgerWorld.step env) world) replayed' tail' := by
  induction inputs generalizing world replayed tail with
  | nil => exact ⟨replayed,tail,h⟩
  | cons input inputs ih =>
    obtain ⟨hinp,hres⟩ := List.forall_mem_cons.mp hrea
    obtain ⟨replayed',tail',hste⟩ := h.step hinp hset.1
    exact ih hste hres hset.2

/-- The computation does not run out of space. -/
def NotOfSpace {α : Type} (x : Except LedgerError α) : Prop := ∀ error, x=.error error → error.ofSpace=false

theorem notOfSpace_ok {α : Type} (a : α) : NotOfSpace (.ok a) := by
  intro error herr
  cases herr

theorem notOfSpace_bind {α β : Type} {x : Except LedgerError α} {f : α → Except LedgerError β} (hx : NotOfSpace x)
    (hf : ∀ a, NotOfSpace (f a)) : NotOfSpace (x >>= f) := by
  cases x with
  | error e =>
    intro error herr
    cases herr
    exact hx e rfl
  | ok a => exact hf a

theorem notOfSpace_require {p : Prop} [Decidable p] {e : LedgerError} (he : e.ofSpace=false) :
    NotOfSpace (require p e) := by
  intro error herr
  rw [require] at herr
  split at herr
  · cases herr
  · cases herr
    exact he

theorem notOfSpace_orError {α : Type} {value : Option α} {e : LedgerError} (he : e.ofSpace=false) :
    NotOfSpace (orError value e) := by
  cases value with
  | some a => exact notOfSpace_ok a
  | none =>
    intro error herr
    cases herr
    exact he

theorem notOfSpace_releaseHashOf (release : Option SignedReceipt) : NotOfSpace (releaseHashOf env release) := by
  cases release with
  | none => exact notOfSpace_ok none
  | some receipt =>
    intro error herr
    rw [releaseHashOf,receiptHash,require] at herr
    split at herr
    · cases herr
    · cases herr
      rfl

theorem notOfSpace_apply (state : LedgerState) (row : Row) : NotOfSpace (apply env state row) := by
  cases row with
  | prepared g =>
    refine notOfSpace_bind (notOfSpace_require rfl) fun _ => notOfSpace_bind (notOfSpace_require rfl) fun _ => ?_
    exact notOfSpace_ok _
  | managerIdentity unit identity =>
    refine notOfSpace_bind (notOfSpace_require rfl) fun _ => notOfSpace_bind (notOfSpace_orError rfl) fun _ => ?_
    refine notOfSpace_bind (notOfSpace_orError rfl) fun _ => notOfSpace_bind (notOfSpace_require rfl) fun _ => ?_
    exact notOfSpace_bind (notOfSpace_require rfl) fun _ => notOfSpace_ok _
  | attempt unit attemptId commandHash releaseHash =>
    refine notOfSpace_bind (notOfSpace_orError rfl) fun _ => notOfSpace_bind (notOfSpace_require rfl) fun _ => ?_
    refine notOfSpace_bind (notOfSpace_releaseHashOf _) fun _ => notOfSpace_bind (notOfSpace_require rfl) fun _ => ?_
    exact notOfSpace_ok _
  | releaseCopy unit receipt =>
    refine notOfSpace_bind (notOfSpace_orError rfl) fun _ => notOfSpace_bind (notOfSpace_orError rfl) fun _ => ?_
    exact notOfSpace_bind (notOfSpace_require rfl) fun _ => notOfSpace_ok _
  | outcome unit receipt =>
    refine notOfSpace_bind (notOfSpace_orError rfl) fun entry => notOfSpace_bind (notOfSpace_orError rfl) fun _ => ?_
    refine notOfSpace_bind (notOfSpace_require rfl) fun _ => notOfSpace_bind ?_ fun _ => notOfSpace_ok _
    refine notOfSpace_bind (notOfSpace_require rfl) fun _ => ?_
    split
    · exact notOfSpace_bind (notOfSpace_releaseHashOf _) fun _ => notOfSpace_require rfl
    · exact notOfSpace_ok _

theorem notOfSpace_admitRow {ledger : Ledger} (hres : Reserved ledger.state)
    (hrow : row.acceptance=false) : NotOfSpace (ledger.admitRow env row) := by
  refine notOfSpace_bind (notOfSpace_require rfl) fun _ => ?_
  by_cases hsiz : row.line.length ≤ rowMax
  · refine notOfSpace_bind (notOfSpace_require rfl) fun _ => ?_
    cases happ : apply env ledger.state row with
    | error error =>
      intro error' herr
      cases herr
      exact notOfSpace_apply ledger.state row error happ
    | ok candidate =>
      obtain ⟨after,haft⟩ := settlement_fits hres hrow hsiz happ
      simp only [bind,Except.bind,haft]
      exact notOfSpace_ok _
  · intro error herr
    rw [require,if_neg hsiz] at herr
    cases herr
    rfl

theorem admitRow_settlement {ledger : Ledger} {candidate : LedgerState} (hres : Reserved ledger.state)
    (hrow : row.acceptance=false) (hcer : ledger.uncertain=false) (hsiz : row.line.length ≤ rowMax)
    (happ : apply env ledger.state row=.ok candidate) : ∃ state', ledger.admitRow env row=.ok state' := by
  obtain ⟨after,haft⟩ := settlement_fits hres hrow hsiz happ
  refine ⟨{ candidate with bytes := after },?_⟩
  rw [Ledger.admitRow,Outcome.require_bind_eq_ok,Outcome.require_bind_eq_ok,happ]
  refine ⟨hcer,hsiz,?_⟩
  simp only [bind,Except.bind,haft]
  rfl

/-- A settlement row that applies has no row of its slot before it. -/
theorem run_settlement {file : LedgerFile} {ledger : Ledger} {outcome : WriteOutcome}
    {candidate : LedgerState} (hrow : op.row.acceptance=false)
    (happ : apply env ledger.state op.row=.ok candidate) :
    op.run env file ledger outcome=ledger.append env file op.row outcome := by
  obtain ⟨generations',hste,-,-,-⟩ := apply_ok happ
  cases op with
  | acceptReleaseCopy receipt =>
    cases hste with
    | releaseCopy _ _ entry hent hope hrel =>
      simp only [LedgerOp.run,Ledger.acceptReleaseCopy,Ledger.settleOnce,hent,Option.bind_some,hrel]
      rfl
  | recordOutcome receipt =>
    cases hste with
    | outcome _ _ entry hent hope =>
      have hnone : entry.outcome=none := by
        rw [GenerationState.isOpen,Bool.and_eq_true,Option.isNone_iff_eq_none] at hope
        exact hope.2
      simp only [LedgerOp.run,Ledger.recordOutcome,Ledger.settleOnce,hent,Option.bind_some,hnone]
      rfl
  | _ => cases hrow

theorem LedgerInv.settles {ledger : Ledger} {outcome : WriteOutcome} (h : LedgerInv env world replayed tail)
    (hled : world.ledger=some ledger) (hrow : op.row.acceptance=false) :
    (∀ error, (op.run env world.file ledger outcome).result=.error error → error.ofSpace=false) ∧
    ((∃ candidate, apply env ledger.state op.row=.ok candidate) → op.row.line.length ≤ rowMax →
      ledger.uncertain=false → outcome=.durable → (op.run env world.file ledger outcome).result=.ok ()) := by
  have hagr := h.agrees ledger hled
  have hres : Reserved ledger.state := by
    intro unit entry hent hope
    rw [hagr.bytes]
    exact h.reserved unit entry (hagr.generations ▸ hent) hope
  constructor
  · intro error herr
    rcases @run_cases env world.file ledger outcome op with ⟨hrun,-⟩ | ⟨error',hrun,hspa⟩ | hrun
    · rw [hrun] at herr
      cases herr
    · rw [hrun] at herr
      cases herr
      exact hspa
    · rw [hrun,Ledger.append] at herr
      cases hadm : ledger.admitRow env op.row with
      | error error' =>
        rw [hadm] at herr
        cases herr
        exact notOfSpace_admitRow hres hrow error hadm
      | ok state' =>
        simp only [hadm] at herr
        split at herr
        · cases herr
          rfl
        · split at herr
          · cases herr
            rfl
          · cases outcome with
            | durable => cases herr
            | _ =>
              cases herr
              rfl
  · rintro ⟨candidate,happ⟩ hsiz hcer rfl
    obtain ⟨state',hadm⟩ := admitRow_settlement hres hrow hcer hsiz happ
    have htai := h.certain ledger hled hcer
    have hlen : world.file.content.length=ledger.state.bytes := by
      rw [h.content,htai,List.append_nil,hagr.bytes,replayRows_bytes h.replays]
      exact (Nat.zero_add _).symm
    have hne : ¬world.file.content.length≠ledger.state.bytes := not_not_intro hlen
    rw [run_settlement hrow happ,Ledger.append,hadm]
    simp only [reduceCtorEq,if_false,if_neg hne]

theorem LedgerInv.sound
    (h : LedgerInv env world replayed tail) : SoundLedger env world where
  opens := by
    intro state hope
    rcases h.opens hope with ⟨-,rfl⟩ | ⟨row,handle',replayed',-,-,hext,rfl⟩
    · exact ⟨[],replayed,Nat.zero_le 1,by rw [List.append_nil,h.replays],rfl,h.oneOpen⟩
    · exact ⟨[row],replayed',Nat.le_refl 1,hext.replays,rfl,hext.oneOpen⟩
  returned := h.returned
  oneOpen := by
    intro ledger hled
    rw [(h.agrees ledger hled).generations]
    exact h.oneOpen
  manager := by
    intro ledger unit identity outcome hled hfil
    rcases @append_cases env world.file ledger outcome (.managerIdentity unit identity) with
      ⟨error,happ⟩ | ⟨state',hadm,-,-⟩
    · rw [Ledger.managerCreatedFixture,happ] at hfil
      exact absurd rfl hfil
    · exact h.transaction ledger unit hled (admitted_of_admitRow hadm).2.inTransaction
  retry := by
    intro ledger op outcome row hled hrow hslo
    have hrec := (h.recorded row).mpr hrow
    rw [← (h.agrees ledger hled).generations] at hrec
    exact retries_of_recorded hrec hslo
  settles := fun ledger op outcome hled hrow => h.settles hled hrow

end Invariant

/-! ## A row that is lost

Whatever the handle, a row of a shipped operation whose sync failed is taken over by the next open, acknowledged when
it is retried, and gone after a crash. -/

section Lost

variable {env : OwnerEnv} {op : LedgerOp} {state' : LedgerState}

theorem operate_durable {world : LedgerWorld} {ledger : Ledger}
    (hled : world.ledger=some ledger)
    (hrun : op.run env world.file ledger .durable=ledger.append env world.file op.row .durable)
    (hadm : ledger.admitRow env op.row=.ok state') (hlen : world.file.content.length=ledger.state.bytes) :
    world.operate env op .durable=⟨⟨world.file.content++op.row.line,[]⟩,some ⟨state',false⟩,
      world.accepted++[op.row],world.wrote++[op.row],world.returned++[op.row]⟩ := by
  have hne : (⟨world.file.content++op.row.line,[]⟩ : LedgerFile)≠world.file := by
    intro heq
    have hcon := congrArg (fun file => file.content.length) heq
    have hpos := List.length_pos_iff.mpr (line_ne_nil op.row)
    simp only [LedgerFile.content,List.length_append,List.length_nil] at hcon
    omega
  have happ : ledger.append env world.file op.row .durable =
      ⟨⟨world.file.content++op.row.line,[]⟩,⟨state',false⟩,.ok ()⟩ := by
    simp only [Ledger.append,hadm,reduceCtorEq,if_false,if_neg (not_not_intro hlen)]
  simp only [LedgerWorld.operate,hled,hrun,happ,if_neg hne]
  rfl

def retriedAfterReopen (op : LedgerOp) : List LedgerInput :=
  [.operation op .syncFailed,.close,.open,.operation op .durable,.crash 0]

theorem not_sound_retriedAfterReopen {world : LedgerWorld} {replayed : LedgerState} {ledger : Ledger} (h : LedgerInv env world replayed []) (hled : world.ledger=some ledger)
    (hret : op.retried=true) (hrad : env.decodeRow op.row.encode=some op.row)
    (hrun : op.run env world.file ledger .syncFailed=ledger.append env world.file op.row .syncFailed)
    (hadm : ledger.admitRow env op.row=.ok state') :
    op.row∈((retriedAfterReopen op).foldl (LedgerWorld.step env) world).returned ∧
      ¬SoundLedger env ((retriedAfterReopen op).foldl (LedgerWorld.step env) world) := by
  have hagr := h.agrees ledger hled
  have huns : world.file.unsynced=[] := h.unsynced.elim id id
  have hsyn : world.file.synced=lines world.accepted := by
    have hcon := h.content
    rwa [LedgerFile.content,huns,List.append_nil,List.append_nil] at hcon
  have hfil : world.file=⟨lines world.accepted,[]⟩ := by rw [← hsyn,← huns]
  have hlen : world.file.content.length=ledger.state.bytes := by
    rw [h.content,List.append_nil,hagr.bytes,replayRows_bytes h.replays]
    exact (Nat.zero_add _).symm
  obtain ⟨-,hadd⟩ := admitted_of_admitRow hadm
  obtain ⟨replayed',hext⟩ := h.extend hagr hadd
  have hrea := List.forall_mem_append.mpr
    ⟨h.readable,List.forall_mem_singleton.mpr (⟨hadd.size,hrad⟩ : Readable env op.row)⟩
  have hlin : lines world.accepted++op.row.line=lines (world.accepted++[op.row]) := by simp [lines]
  -- the row is in the file, and only the handle knows that it may not be on disk
  have hfai : world.step env (.operation op .syncFailed) =
      ⟨⟨lines world.accepted,op.row.line⟩,some { ledger with uncertain := true },world.accepted,world.wrote,
        world.returned⟩ := by
    have happ : ledger.append env world.file op.row .syncFailed =
        ⟨⟨lines world.accepted,op.row.line⟩,{ ledger with uncertain := true },.error .io⟩ := by
      simp only [Ledger.append,hadm,reduceCtorEq,if_false,if_neg (not_not_intro hlen)]
      rw [hfil,List.nil_append]
    have hnil : ∀ p : Prop, [Decidable p] → (if p then ([] : List Row) else [])=[] := by
      intro p _
      split <;> rfl
    simp only [LedgerWorld.step,LedgerWorld.operate,hled,hrun,happ,Except.isOk,Except.toBool,
      Bool.false_eq_true,if_false,hnil,List.append_nil]
  have hope : replay env (lines world.accepted++op.row.line) =
      .ok { replayed' with createTransaction := .sealed } := by
    rw [hlin]
    exact replay_lines hrea hext.replays hext.bytes
  have hrow : rowsFrom env [] (lines world.accepted++op.row.line)=world.accepted++[op.row] := by
    rw [hlin]
    exact rowsFrom_lines hrea
  have hrey : op.run env ⟨lines world.accepted,op.row.line⟩ ⟨{ replayed' with createTransaction := .sealed },false⟩
      .durable=⟨⟨lines world.accepted,op.row.line⟩,⟨{ replayed' with createTransaction := .sealed },false⟩,
        .ok ()⟩ := by
    have hrec := (hext.recorded op.row).mpr (List.mem_append_right _ (List.mem_singleton_self _))
    have hres : Retries env ⟨lines world.accepted,op.row.line⟩
        ⟨{ replayed' with createTransaction := .sealed },false⟩ .durable op op.row := retries_of_recorded hrec rfl
    obtain ⟨hsam,hlee,-,hok⟩ := hres
    have hreu := hok rfl hret
    generalize op.run env ⟨lines world.accepted,op.row.line⟩
      ⟨{ replayed' with createTransaction := .sealed },false⟩ .durable=after at hsam hlee hreu ⊢
    cases after
    cases hsam
    cases hlee
    cases hreu
    rfl
  have hwor : (retriedAfterReopen op).foldl (LedgerWorld.step env) world =
      ⟨⟨lines world.accepted,[]⟩,none,world.accepted++[op.row],[],world.returned++[op.row]⟩ := by
    rw [retriedAfterReopen,List.foldl_cons,hfai]
    simp only [List.foldl_cons,List.foldl_nil,LedgerWorld.step,LedgerWorld.openLedger,LedgerFile.content,hope,
      hrow,LedgerWorld.operate,hrey,if_pos,List.take_zero,List.append_nil]
    rfl
  rw [hwor]
  refine ⟨List.mem_append_right _ (List.mem_singleton_self _),fun hsou => ?_⟩
  have hrep : replay env (LedgerFile.content ⟨lines world.accepted,[]⟩) =
      .ok { replayed with createTransaction := .sealed } := by
    rw [LedgerFile.content,List.append_nil]
    exact replay_lines h.readable h.replays h.bytes
  obtain ⟨extra,replayed'',-,hred,hsta,-⟩ := hsou.opens _ hrep
  -- the bytes of what is left are fewer than those of what was acknowledged
  have hbyt := congrArg LedgerState.bytes hsta
  change replayed.bytes=replayed''.bytes at hbyt
  rw [replayRows_bytes h.replays,replayRows_bytes hred] at hbyt
  have hpos := List.length_pos_iff.mpr (line_ne_nil op.row)
  simp only [lines,List.flatMap_append,List.length_append,List.flatMap_cons,List.flatMap_nil,
    List.length_nil] at hbyt
  omega

/-! A generation, its manager and an attempt. -/

variable (cs : List Char)

theorem length_utf8Bytes_le : (Text.utf8Bytes (String.ofList cs)).length ≤ 4 * cs.length := by
  rw [Text.utf8Bytes_ofList]
  induction cs with
  | nil => exact Nat.le_refl 0
  | cons c cs ih =>
    have hc := Char.utf8Size_le_four c
    simp only [List.flatMap_cons,List.length_append,String.length_utf8EncodeChar,List.length_cons]
    omega

theorem length_toList_ofList : (String.ofList cs).toList.length=cs.length :=
  congrArg List.length String.toList_ofList

def sampleHash : String := String.ofList (List.replicate 64 '1')

/-- The SHA-256 of the fields that the unit of the sample generation is named after. -/
def sampleDigest : List UInt8 :=
  [214,101,12,155,64,38,187,80,58,50,19,217,209,250,67,74,153,91,203,59,208,73,24,243,99,106,
    48,205,115,139,115,140]

def sampleUnit : String := "sanctuary-agent-v1-" ++ hexEncode sampleDigest ++ ".service"

def sampleGeneration : Generation :=
  ⟨"b","d","0000000f","m","o",sampleHash,sampleHash,"a",1001,1001,"agent-v1",sampleHash,sampleHash,sampleUnit⟩

def sampleManager : ManagerIdentity := ⟨sampleUnit,"system.slice/" ++ sampleUnit,1,1,1,1⟩

def samplePrepare : LedgerOp := .prepare sampleGeneration

def sampleManagerCreated : LedgerOp := .managerCreated sampleUnit sampleManager

def sampleAttempt : LedgerOp := .acceptAttempt sampleUnit "a1" sampleHash none

def sampleEnv : OwnerEnv where
  sha256 := fun _ => sampleDigest
  decodeRow := fun bytes => [samplePrepare.row,sampleManagerCreated.row,sampleAttempt.row].find? fun row =>
    row.encode=bytes

theorem sampleUnit_toList : sampleUnit.toList =
    "sanctuary-agent-v1-".toList++(sampleDigest.flatMap fun b => [Json.hexChar (b.toNat / 16),
      Json.hexChar (b.toNat % 16)]) ++ ".service".toList := by
  have hhex : (hexEncode sampleDigest).toList=sampleDigest.flatMap fun b => [Json.hexChar (b.toNat / 16),
      Json.hexChar (b.toNat % 16)] := String.toList_ofList
  have hfro : ("sanctuary-agent-v1-" ++ hexEncode sampleDigest).toList =
      "sanctuary-agent-v1-".toList++(hexEncode sampleDigest).toList := String.toList_append ..
  have hall : sampleUnit.toList=("sanctuary-agent-v1-" ++ hexEncode sampleDigest).toList ++ ".service".toList :=
    String.toList_append ..
  exact hall.trans (congrArg (· ++ ".service".toList) (hfro.trans (congrArg ("sanctuary-agent-v1-".toList ++ ·) hhex)))

theorem sampleHash_toList : sampleHash.toList=List.replicate 64 '1' := String.toList_ofList

theorem byteLength_sampleHash : byteLength sampleHash=64 := by
  rw [byteLength,Text.utf8Bytes,sampleHash_toList]
  decide

theorem owedSlots_le (row : Row) (candidate : LedgerState) : Ledger.owedSlots row candidate ≤ 2 * settlementSlot := by
  rw [Ledger.owedSlots]
  split
  · split <;> decide
  · exact Nat.zero_le _

def samplePrepared : GenerationState := ⟨some sampleGeneration,none,.empty,none,none⟩

def sampleManaged : GenerationState := { samplePrepared with manager := some sampleManager }

def sampleAttempted : GenerationState :=
  { sampleManaged with attempts := sampleManaged.attempts.set "a1" (sampleHash,none) }

def sampleInputs : List LedgerInput :=
  [.open,.operation samplePrepare .durable,.operation sampleManagerCreated .durable]

def sampleState (bytes : Nat) : LedgerState :=
  ⟨(OrderedMap.empty.set sampleUnit samplePrepared).set sampleUnit sampleManaged,bytes,.sealed⟩

end Lost

end CastleWall.Owner
