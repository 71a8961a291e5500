import CastleWall.Custody.EpochWitness

/-! # The custody pair

`core/master-custody.ts`: the envelope of the master key and its sentinel are two files that are written one after the
other. A record prepared before them holds both, so that a writer or a recovery that finds the record completes the
pair. There is a live pair and a staged one, each with a record of its own. -/

namespace CastleWall.Custody

open Process Cognitive.StateStore

inductive CustodySlot where
  | live
  | staged
deriving DecidableEq

def CustodySlot.envelopeKey : CustodySlot → String
  | .live => "custody-envelope"
  | .staged => "custody-envelope-next"

def CustodySlot.sentinelKey : CustodySlot → String
  | .live => "custody-sentinel"
  | .staged => "custody-sentinel-next"

structure CustodyPair where
  (envelopeBytes sentinelBytes : List UInt8)

structure CustodyEnvelopeCommitJournal where
  (envelopeKey sentinelKey envelopeBytes sentinelBytes envelopeSha256 sentinelSha256 : String)
deriving DecidableEq

inductive JournalRecord where
  | malformed (raw : List UInt8)
  | record (journal : CustodyEnvelopeCommitJournal)
deriving DecidableEq

structure SlotFiles where
  (envelope sentinel : Option (List UInt8))
  journal : Option JournalRecord
  /-- Records that were set aside, by the number at the end of their names. -/
  quarantine : List (Int × JournalRecord)

structure MetaStore where
  files : CustodySlot → SlotFiles
  /-- The pairs that writers have prepared. -/
  prepared : List (CustodySlot × CustodyPair)

def MetaStore.update (slot : CustodySlot) (f : SlotFiles → SlotFiles) (store : MetaStore) : MetaStore :=
  { store with files := Function.update store.files slot (f (store.files slot)) }

@[simp] theorem MetaStore.update_files_self (slot : CustodySlot) (f : SlotFiles → SlotFiles) (store : MetaStore) :
    (store.update slot f).files slot=f (store.files slot) := Function.update_self _ _ _

theorem MetaStore.update_files_ne {slot other : CustodySlot} (h : other≠slot) (f : SlotFiles → SlotFiles)
    (store : MetaStore) : (store.update slot f).files other=store.files other := Function.update_of_ne h _ _

@[simp] theorem MetaStore.update_prepared (slot : CustodySlot) (f : SlotFiles → SlotFiles) (store : MetaStore) :
    (store.update slot f).prepared=store.prepared := rfl

/-- An envelope without its code, a master, and what they are sealed to and opened with. -/
structure CustodyPairEnv (ε : Type) where
  hashToString : List UInt8 → String
  /-- The bytes of the envelope with its code under the master. -/
  stamp : ε → (master : List UInt8) → List UInt8
  /-- The bytes of a sentinel under the master; every one is encrypted anew. -/
  sealSentinel : (master : List UInt8) → Nat → List UInt8
  /-- The bytes are an envelope, and its code verifies under the master. -/
  envelopeOpens : (bytes master : List UInt8) → Bool
  sentinelOpens : (bytes master : List UInt8) → Bool
  /-- What a restore checks of the bytes before it writes them. -/
  restorable : (bytes master : List UInt8) → Bool

variable {ε : Type}

section Checks

variable (env : CustodyPairEnv ε)

def verifyCustodyPairAuthenticates (files : SlotFiles) (master : List UInt8) : Bool :=
  match files.envelope, files.sentinel with
  | some envelope, some sentinel => env.envelopeOpens envelope master && env.sentinelOpens sentinel master
  | _, _ => false

/-- What a slot asks for before a record that cannot be used is set aside. A staged pair that is gone was promoted. -/
def CustodySlot.consistent (slot : CustodySlot) (store : MetaStore) (master : List UInt8) : Bool :=
  match slot with
  | .live => verifyCustodyPairAuthenticates env (store.files .live) master
  | .staged =>
    verifyCustodyPairAuthenticates env (store.files .staged) master ||
      ((store.files .staged).envelope.isNone && (store.files .staged).sentinel.isNone &&
        verifyCustodyPairAuthenticates env (store.files .live) master)

inductive ConsistencyCheck where
  | ofSlot
  | livePair

def ConsistencyCheck.holds (check : ConsistencyCheck) (slot : CustodySlot) (store : MetaStore) (master : List UInt8) :
    Bool :=
  match check with
  | .ofSlot => slot.consistent env store master
  | .livePair => verifyCustodyPairAuthenticates env (store.files .live) master

def custodyEnvelopeCommitJournal (slot : CustodySlot) (pair : CustodyPair) : CustodyEnvelopeCommitJournal where
  envelopeKey := slot.envelopeKey
  sentinelKey := slot.sentinelKey
  envelopeBytes := toBase64url pair.envelopeBytes
  sentinelBytes := toBase64url pair.sentinelBytes
  envelopeSha256 := env.hashToString pair.envelopeBytes
  sentinelSha256 := env.hashToString pair.sentinelBytes

def decodeAndVerifyCustodyEnvelopeCommitJournalBytes (journal : CustodyEnvelopeCommitJournal) : Option CustodyPair :=
  let envelopeBytes := decodeBase64url journal.envelopeBytes
  let sentinelBytes := decodeBase64url journal.sentinelBytes
  if env.hashToString envelopeBytes=journal.envelopeSha256 ∧ env.hashToString sentinelBytes=journal.sentinelSha256
  then some ⟨envelopeBytes,sentinelBytes⟩ else none

/-- `none` when the record is not usable. -/
def parseCustodyEnvelopeCommitJournal : JournalRecord → Option (CustodyEnvelopeCommitJournal × CustodyPair)
  | .malformed _ => none
  | .record journal => (decodeAndVerifyCustodyEnvelopeCommitJournalBytes env journal).map fun pair => (journal,pair)

end Checks

inductive CustodyPairError where
  | journalUnusable
  | journalMismatched
  | snapshotChanged
  | envelopeIntegrity

/-- What differs from one call to the next: the clock and the bytes a file is overwritten with. -/
structure CallNoise where
  now : Int
  overwrite : List UInt8

structure CustodyPairRecoveryResult where
  (changedPair quarantinedJournal : Bool)
  recoveredPair : Option CustodyPair

abbrev CustodyProgram := Process MetaStore CustodyPairError

def deleteJournal (slot : CustodySlot) (noise : CallNoise) : CustodyProgram Unit := do
  modify (MetaStore.update slot fun files => { files with journal := some (.malformed noise.overwrite) })
  modify (MetaStore.update slot fun files => { files with journal := none })

def completeCustodyPair (slot : CustodySlot) (pair : CustodyPair) : CustodyProgram Unit := do
  modify (MetaStore.update slot fun files => { files with envelope := some pair.envelopeBytes })
  modify (MetaStore.update slot fun files => { files with sentinel := some pair.sentinelBytes })

/-- The first number from the clock on that no record has. -/
def freshSuffix (taken : List (Int × JournalRecord)) (now : Int) : Nat → Int
  | 0 => now
  | fuel+1 => if taken.any fun entry => entry.1=now then freshSuffix taken (now+1) fuel else now

def quarantineRetained : Nat := 2

def excessQuarantine (files : SlotFiles) : List (Int × JournalRecord) :=
  let oldestFirst := files.quarantine.mergeSort fun a b => decide (a.1 ≤ b.1)
  oldestFirst.take (files.quarantine.length - quarantineRetained)

def dropQuarantine (slot : CustodySlot) : List (Int × JournalRecord) → CustodyProgram Unit
  | [] => pure ()
  | entry::entries => do
    modify (MetaStore.update slot fun files => { files with quarantine := files.quarantine.erase entry })
    dropQuarantine slot entries

def quarantineCustodyEnvelopeCommitJournal (slot : CustodySlot) (raw : JournalRecord) (noise : CallNoise) :
    CustodyProgram Unit := do
  modify (MetaStore.update slot fun files => { files with
    quarantine := (freshSuffix files.quarantine noise.now files.quarantine.length,raw)::files.quarantine })
  let excess ← observe fun store => excessQuarantine (store.files slot)
  dropQuarantine slot excess
  deleteJournal slot noise

section Recovery

variable (env : CustodyPairEnv ε)

structure RecoverInput where
  slot : CustodySlot
  master : Option (List UInt8)
  check : ConsistencyCheck
  noise : CallNoise

/-- A record that cannot be replayed stays, unless the pair is shown to need none. -/
def setAside (input : RecoverInput) (raw : JournalRecord) (err : CustodyPairError) :
    CustodyProgram CustodyPairRecoveryResult :=
  match input.master with
  | none => fail err
  | some master => do
    let consistent ← observe fun store => input.check.holds env input.slot store master
    require (consistent=true) err
    quarantineCustodyEnvelopeCommitJournal input.slot raw input.noise
    return ⟨false,true,none⟩

def recoverCustodyEnvelopeCommit (input : RecoverInput) : CustodyProgram CustodyPairRecoveryResult := do
  let raw ← observe fun store => (store.files input.slot).journal
  match raw with
  | none => return ⟨false,false,none⟩
  | some raw =>
    match parseCustodyEnvelopeCommitJournal env raw with
    | none => setAside env input raw .journalUnusable
    | some (journal,pair) =>
      if journal.envelopeKey≠input.slot.envelopeKey ∨ journal.sentinelKey≠input.slot.sentinelKey then
        setAside env input raw .journalMismatched
      else do
        let changedPair ← observe fun store =>
          decide ((store.files input.slot).envelope≠some pair.envelopeBytes ∨
            (store.files input.slot).sentinel≠some pair.sentinelBytes)
        completeCustodyPair input.slot pair
        deleteJournal input.slot input.noise
        return ⟨changedPair,false,some pair⟩

/-- A writer goes on over a replay that changed the pair only with the bytes that were replayed. -/
def recoveredCustodyPairAllowsPublish (recovery : CustodyPairRecoveryResult) (slot : CustodySlot)
    (envelopeBytes master : List UInt8) (store : MetaStore) : Bool :=
  if recovery.changedPair=false then true
  else
    match recovery.recoveredPair with
    | none => false
    | some pair =>
      pair.envelopeBytes=envelopeBytes && verifyCustodyPairAuthenticates env (store.files slot) master

structure PublishInput where
  slot : CustodySlot
  pair : CustodyPair
  master : List UInt8
  noise : CallNoise

variable (input : PublishInput)

def PublishInput.recovery : RecoverInput := ⟨input.slot,some input.master,.ofSlot,input.noise⟩

def PublishInput.prepare (store : MetaStore) : MetaStore :=
  { store.update input.slot fun files =>
      { files with journal := some (.record (custodyEnvelopeCommitJournal env input.slot input.pair)) } with
    prepared := store.prepared++[(input.slot,input.pair)] }

def publishPrepared : CustodyProgram Unit := do
  modify (input.prepare env)
  completeCustodyPair input.slot input.pair
  deleteJournal input.slot input.noise

/-- What a write and a restore have in common: a record that is there is recovered first. -/
def publishCustodyPair : CustodyProgram Unit := do
  let pending ← observe fun store => (store.files input.slot).journal
  match pending with
  | none => publishPrepared env input
  | some _ =>
    let recovery ← recoverCustodyEnvelopeCommit env input.recovery
    let allowed ← observe
      (recoveredCustodyPairAllowsPublish env recovery input.slot input.pair.envelopeBytes input.master)
    require (allowed=true) .snapshotChanged
    publishPrepared env input

def writeCustodyEnvelope (slot : CustodySlot) (envelope : ε) (master : List UInt8) (nonce : Nat) (noise : CallNoise) :
    CustodyProgram Unit :=
  publishCustodyPair env ⟨slot,⟨env.stamp envelope master,env.sealSentinel master nonce⟩,master,noise⟩

def writeCustodyEnvelopeBytes (envelopeBytes master : List UInt8) (nonce : Nat) (noise : CallNoise) :
    CustodyProgram Unit := do
  require (env.restorable envelopeBytes master=true) .envelopeIntegrity
  publishCustodyPair env ⟨.live,⟨envelopeBytes,env.sealSentinel master nonce⟩,master,noise⟩

end Recovery

inductive CustodyCall (ε : Type) where
  | write (slot : CustodySlot) (envelope : ε) (master : List UInt8) (nonce : Nat) (noise : CallNoise)
  | restore (envelopeBytes master : List UInt8) (nonce : Nat) (noise : CallNoise)
  | recover (input : RecoverInput)

def CustodyCall.program (env : CustodyPairEnv ε) : CustodyCall ε → CustodyProgram Unit
  | .write slot envelope master nonce noise => writeCustodyEnvelope env slot envelope master nonce noise
  | .restore envelopeBytes master nonce noise => writeCustodyEnvelopeBytes env envelopeBytes master nonce noise
  | .recover input => do
    let _ ← recoverCustodyEnvelopeCommit env input

def CustodyCall.master : CustodyCall ε → Option (List UInt8)
  | .write _ _ master _ _ => some master
  | .restore _ master _ _ => some master
  | .recover input => input.master

def CustodyCall.slot : CustodyCall ε → CustodySlot
  | .write slot _ _ _ _ => slot
  | .restore _ _ _ _ => .live
  | .recover input => input.slot

def CustodyCall.check : CustodyCall ε → ConsistencyCheck
  | .recover input => input.check
  | _ => .ofSlot

structure CustodyStep (ε : Type) where
  call : CustodyCall ε
  cutAfter : Option Nat

def CustodyStep.apply (env : CustodyPairEnv ε) (store : MetaStore) (step : CustodyStep ε) : MetaStore :=
  match step.cutAfter with
  | none => ((step.call.program env).run store).2
  | some n => (step.call.program env).after n store

def runCustody (env : CustodyPairEnv ε) (store : MetaStore) (steps : List (CustodyStep ε)) : MetaStore :=
  steps.foldl (CustodyStep.apply env) store

end CastleWall.Custody
