import CastleWall.Custody.CustodyPair

/-! # The custody pair is one writer's

Between a record that can be replayed and the pair it holds there is always the same writer; without such a record the
pair is whole. A record that cannot be replayed is set aside only where a pair was shown to authenticate. -/

namespace CastleWall.Custody

open Process Cognitive.StateStore

section Atomicity

variable {ε : Type} {env : CustodyPairEnv ε} {slot : CustodySlot} {store : MetaStore}

def replayable (env : CustodyPairEnv ε) (slot : CustodySlot) (files : SlotFiles) : Option CustodyPair :=
  match files.journal with
  | none => none
  | some raw =>
    match parseCustodyEnvelopeCommitJournal env raw with
    | none => none
    | some (journal,pair) =>
      if journal.envelopeKey=slot.envelopeKey ∧ journal.sentinelKey=slot.sentinelKey then some pair else none

def Whole (store : MetaStore) (slot : CustodySlot) : Prop :=
  ((store.files slot).envelope=none ∧ (store.files slot).sentinel=none) ∨
  ∃ pair, (slot,pair)∈store.prepared ∧ (store.files slot).envelope=some pair.envelopeBytes ∧
    (store.files slot).sentinel=some pair.sentinelBytes

def SlotSettled (env : CustodyPairEnv ε) (store : MetaStore) (slot : CustodySlot) : Prop :=
  match replayable env slot (store.files slot) with
  | some pair => (slot,pair)∈store.prepared
  | none => Whole store slot

def Settled (env : CustodyPairEnv ε) (store : MetaStore) : Prop := ∀ slot, SlotSettled env store slot

theorem parse_custodyEnvelopeCommitJournal (slot : CustodySlot) (pair : CustodyPair) :
    parseCustodyEnvelopeCommitJournal env (.record (custodyEnvelopeCommitJournal env slot pair)) =
      some (custodyEnvelopeCommitJournal env slot pair,pair) := by
  simp [parseCustodyEnvelopeCommitJournal,decodeAndVerifyCustodyEnvelopeCommitJournalBytes,
    custodyEnvelopeCommitJournal,decodeBase64url_toBase64url]

variable {pair : CustodyPair} {files : SlotFiles}

theorem replayable_prepared
    (h : files.journal=some (.record (custodyEnvelopeCommitJournal env slot pair))) :
    replayable env slot files=some pair := by
  simp only [replayable,h,parse_custodyEnvelopeCommitJournal]
  exact if_pos ⟨rfl,rfl⟩

theorem replayable_malformed {raw : List UInt8} (h : files.journal=some (.malformed raw)) :
    replayable env slot files=none := by
  simp only [replayable,h,parseCustodyEnvelopeCommitJournal]

theorem replayable_none (h : files.journal=none) : replayable env slot files=none := by
  simp only [replayable,h]

theorem Settled.change (h : Settled env store) {store' : MetaStore} {slot : CustodySlot}
    (hfil : ∀ other, other≠slot → store'.files other=store.files other)
    (hpre : ∀ entry∈store.prepared, entry∈store'.prepared) (hslo : SlotSettled env store' slot) :
    Settled env store' := by
  intro other
  by_cases hoth : other=slot
  · exact hoth ▸ hslo
  · have hbef := h other
    rw [SlotSettled] at hbef ⊢
    rw [hfil other hoth]
    split at hbef
    · exact hpre _ hbef
    · rcases hbef with hnone | ⟨pair,hmem,henv,hsen⟩
      · left
        rwa [hfil other hoth]
      · right
        refine ⟨pair,hpre _ hmem,?_,?_⟩
        · rwa [hfil other hoth]
        · rwa [hfil other hoth]

structure Completing (env : CustodyPairEnv ε) (store : MetaStore) (slot : CustodySlot) (pair : CustodyPair) : Prop where
  settled : Settled env store
  replay : replayable env slot (store.files slot)=some pair

theorem Completing.mem (h : Completing env store slot pair) : (slot,pair)∈store.prepared := by
  have hslo := h.settled slot
  rwa [SlotSettled,h.replay] at hslo

theorem Completing.update (h : Completing env store slot pair) {f : SlotFiles → SlotFiles}
    (hjournal : ∀ files, (f files).journal=files.journal) : Completing env (store.update slot f) slot pair := by
  have hrep : replayable env slot ((store.update slot f).files slot)=some pair := by
    rw [MetaStore.update_files_self,← h.replay]
    simp only [replayable,hjournal]
  refine ⟨h.settled.change (fun other hoth => MetaStore.update_files_ne hoth f store) (fun _ hent => hent) ?_,
    hrep⟩
  rw [SlotSettled,hrep]
  exact h.mem

theorem completeCustodyPair_safely (h : Completing env store slot pair) :
    (completeCustodyPair slot pair).Safely (Settled env) (fun r store' => ∃ u, r=.ok u ∧
      Completing env store' slot pair ∧ (store'.files slot).envelope=some pair.envelopeBytes ∧
      (store'.files slot).sentinel=some pair.sentinelBytes ∧ store'.prepared=store.prepared) store := by
  have hfir := h.update (f := fun files => { files with envelope := some pair.envelopeBytes }) fun _ => rfl
  have hsec := hfir.update (f := fun files => { files with sentinel := some pair.sentinelBytes }) fun _ => rfl
  refine Safely.modify h.settled ⟨hfir.settled,hsec.settled,(),rfl,hsec,?_,?_,rfl⟩
  · simp
  · simp

structure Resting (env : CustodyPairEnv ε) (store : MetaStore) (slot : CustodySlot) : Prop where
  settled : Settled env store
  whole : Whole store slot

theorem Resting.update (h : Resting env store slot) {f : SlotFiles → SlotFiles}
    (hpai : ∀ files, (f files).envelope=files.envelope ∧ (f files).sentinel=files.sentinel)
    (hnone : replayable env slot (f (store.files slot))=none) : Resting env (store.update slot f) slot := by
  have hwho : Whole (store.update slot f) slot := by
    simpa [Whole,hpai] using h.whole
  refine ⟨h.settled.change (fun other hoth => MetaStore.update_files_ne hoth f store) (fun _ hent => hent) ?_,
    hwho⟩
  rw [SlotSettled,MetaStore.update_files_self,hnone]
  exact hwho

theorem deleteJournal_safely {noise : CallNoise} (h : Resting env store slot) :
    (deleteJournal slot noise).Safely (Settled env) (fun r store' => ∃ u, r=.ok u ∧ Resting env store' slot ∧
      (store'.files slot).journal=none ∧ store'.prepared=store.prepared) store := by
  have hfir := h.update (f := fun files => { files with journal := some (.malformed noise.overwrite) })
    (fun _ => ⟨rfl,rfl⟩) (replayable_malformed rfl)
  have hsec := hfir.update (f := fun files => { files with journal := none })
    (fun _ => ⟨rfl,rfl⟩) (replayable_none rfl)
  refine Safely.modify h.settled ⟨hfir.settled,hsec.settled,(),rfl,hsec,?_,rfl⟩
  simp

theorem dropQuarantine_safely {entries : List (Int × JournalRecord)} (h : Resting env store slot)
    (hnone : replayable env slot (store.files slot)=none) :
    (dropQuarantine slot entries).Safely (Settled env) (fun r store' => ∃ u, r=.ok u ∧ Resting env store' slot ∧
      replayable env slot (store'.files slot)=none ∧ store'.prepared=store.prepared) store := by
  induction entries generalizing store with
  | nil => exact ⟨h.settled,(),rfl,h,hnone,rfl⟩
  | cons entry entries ih =>
    have hnone' : replayable env slot ((store.update slot fun files =>
        { files with quarantine := files.quarantine.erase entry }).files slot)=none := by
      rw [MetaStore.update_files_self]
      exact hnone
    have hnex := h.update (f := fun files => { files with quarantine := files.quarantine.erase entry })
      (fun _ => ⟨rfl,rfl⟩) hnone
    exact Safely.modify h.settled (ih hnex hnone')

theorem quarantine_safely {raw : JournalRecord} {noise : CallNoise} (h : Resting env store slot)
    (hnone : replayable env slot (store.files slot)=none) :
    (quarantineCustodyEnvelopeCommitJournal slot raw noise).Safely (Settled env) (fun r store' => ∃ u, r=.ok u ∧
      Resting env store' slot ∧ (store'.files slot).journal=none ∧ store'.prepared=store.prepared) store := by
  have hnex := h.update (f := fun files => { files with
    quarantine := (freshSuffix files.quarantine noise.now files.quarantine.length,raw)::files.quarantine })
    (fun _ => ⟨rfl,rfl⟩) hnone
  refine Safely.modify h.settled (Safely.observe ((dropQuarantine_safely hnex ?_).bind_ok ?_))
  · rw [MetaStore.update_files_self]
    exact hnone
  · intro u store' _ hdro
    refine (deleteJournal_safely hdro.1).mono fun r store'' _ hr => ?_
    obtain ⟨v,hok,hres,hjournal,hpre⟩ := hr
    exact ⟨v,hok,hres,hjournal,hpre.trans hdro.2.2⟩

theorem Settled.resting (h : Settled env store) (hnone : replayable env slot (store.files slot)=none) :
    Resting env store slot := by
  refine ⟨h,?_⟩
  have hslo := h slot
  rwa [SlotSettled,hnone] at hslo

/-- How a recovery ends: the record is gone and the pair is whole, or nothing was changed. -/
def Recovered (env : CustodyPairEnv ε) (store : MetaStore) (slot : CustodySlot)
    (r : Except CustodyPairError CustodyPairRecoveryResult) (store' : MetaStore) : Prop :=
  match r with
  | .ok _ => Resting env store' slot ∧ (store'.files slot).journal=none ∧ store'.prepared=store.prepared
  | .error _ => store'=store

theorem setAside_safely {input : RecoverInput} {raw : JournalRecord} {err : CustodyPairError} (h : Settled env store)
    (hnone : replayable env input.slot (store.files input.slot)=none) :
    (setAside env input raw err).Safely (Settled env) (Recovered env store input.slot) store := by
  rw [setAside]
  cases input.master with
  | none => exact ⟨h,rfl⟩
  | some master =>
    refine Safely.observe (Safely.require (fun _ => ?_) fun _ => ⟨h,rfl⟩)
    refine (quarantine_safely (h.resting hnone) hnone).bind_ok fun u store' hset hr => ?_
    exact ⟨hset,hr⟩

theorem recover_safely (input : RecoverInput) (h : Settled env store) :
    (recoverCustodyEnvelopeCommit env input).Safely (Settled env) (Recovered env store input.slot) store := by
  rw [recoverCustodyEnvelopeCommit]
  apply Safely.observe
  cases hjournal : (store.files input.slot).journal with
  | none => exact ⟨h,h.resting (replayable_none hjournal),hjournal,rfl⟩
  | some raw =>
    cases hpar : parseCustodyEnvelopeCommitJournal env raw with
    | none =>
      simp only [hpar]
      exact setAside_safely h (by simp only [replayable,hjournal,hpar])
    | some parsed =>
      obtain ⟨journal,pair⟩ := parsed
      simp only [hpar]
      by_cases hkey : journal.envelopeKey≠input.slot.envelopeKey ∨ journal.sentinelKey≠input.slot.sentinelKey
      · rw [if_pos hkey]
        refine setAside_safely h ?_
        simp only [replayable,hjournal,hpar]
        exact if_neg fun hsam => hkey.elim (fun hne => hne hsam.1) fun hne => hne hsam.2
      · rw [if_neg hkey]
        rw [not_or,not_not,not_not] at hkey
        have hrep : replayable env input.slot (store.files input.slot)=some pair := by
          simp only [replayable,hjournal,hpar]
          exact if_pos hkey
        apply Safely.observe
        refine (completeCustodyPair_safely ⟨h,hrep⟩).bind_ok fun u store' _ hcom => ?_
        obtain ⟨hcog,henv,hsen,hpre⟩ := hcom
        have hres : Resting env store' input.slot :=
          ⟨hcog.settled,.inr ⟨pair,hcog.mem,henv,hsen⟩⟩
        refine (deleteJournal_safely hres).bind_ok fun v store'' hset hdel => ?_
        obtain ⟨hret,hgon,hpre'⟩ := hdel
        exact ⟨hset,hret,hgon,hpre'.trans hpre⟩

def Elsewhere (slot : CustodySlot) (store store' : MetaStore) : Prop :=
  ∀ other, other≠slot → store'.files other=store.files other

instance (slot : CustodySlot) : Std.Refl (Elsewhere slot) := ⟨fun _ _ _ => rfl⟩

instance (slot : CustodySlot) : IsTrans MetaStore (Elsewhere slot) :=
  ⟨fun _ _ _ hfirst hsecond other hother => (hsecond other hother).trans (hfirst other hother)⟩

theorem elsewhere_update (slot : CustodySlot) (f : SlotFiles → SlotFiles) (store : MetaStore) :
    Elsewhere slot store (store.update slot f) := fun _ hoth => MetaStore.update_files_ne hoth f store

variable {input : PublishInput}

theorem elsewhere_prepare (store : MetaStore) :
    Elsewhere input.slot store (input.prepare env store) := by
  intro other hoth
  simp only [PublishInput.prepare]
  exact MetaStore.update_files_ne hoth _ store

theorem publishPrepared_safely (h : Settled env store) :
    (publishPrepared env input).Safely (Settled env) (fun _ _ => True) store := by
  have hrep : replayable env input.slot ((input.prepare env store).files input.slot)=some input.pair := by
    refine replayable_prepared ?_
    simp [PublishInput.prepare]
  have hcom : Completing env (input.prepare env store) input.slot input.pair := by
    have hslo : SlotSettled env (input.prepare env store) input.slot := by
      rw [SlotSettled,hrep]
      exact List.mem_append_right _ List.mem_cons_self
    exact ⟨h.change (elsewhere_prepare store) (fun entry hent => List.mem_append_left _ hent) hslo,hrep⟩
  refine Safely.modify h ((completeCustodyPair_safely hcom).bind_ok fun u store' _ hcod => ?_)
  obtain ⟨hcom',henv,hsen,-⟩ := hcod
  have hres : Resting env store' input.slot :=
    ⟨hcom'.settled,.inr ⟨input.pair,hcom'.mem,henv,hsen⟩⟩
  exact (deleteJournal_safely hres).mono fun _ _ _ _ => trivial

theorem publishCustodyPair_safely (h : Settled env store) :
    (publishCustodyPair env input).Safely (Settled env) (fun _ _ => True) store := by
  rw [publishCustodyPair]
  apply Safely.observe
  cases (store.files input.slot).journal with
  | none => exact publishPrepared_safely h
  | some raw =>
    refine (recover_safely input.recovery h).bind (fun recovery store' hset _ => ?_) fun _ _ _ _ => trivial
    exact Safely.observe (Safely.require (fun _ => publishPrepared_safely hset) fun _ => ⟨hset,trivial⟩)

theorem program_safely {call : CustodyCall ε} (h : Settled env store) :
    (call.program env).Safely (Settled env) (fun _ _ => True) store := by
  cases call with
  | write slot envelope master nonce noise => exact publishCustodyPair_safely h
  | restore envelopeBytes master nonce noise =>
    exact Safely.require (fun _ => publishCustodyPair_safely h) fun _ => ⟨h,trivial⟩
  | recover input =>
    exact (recover_safely input h).bind (fun recovery store' hset _ => ⟨hset,trivial⟩) fun _ _ _ _ => trivial

theorem Settled.step (h : Settled env store) (step : CustodyStep ε) : Settled env (step.apply env store) := by
  rw [CustodyStep.apply]
  cases step.cutAfter with
  | none => exact (program_safely h).run.1
  | some n => exact (program_safely h).after n

theorem Settled.run (h : Settled env store) (steps : List (CustodyStep ε)) : Settled env (runCustody env store steps) := by
  induction steps generalizing store with
  | nil => exact h
  | cons step steps ih => exact ih (h.step step)

theorem dropQuarantine_elsewhere (entries : List (Int × JournalRecord)) (store : MetaStore) :
    (dropQuarantine slot entries).Follows (Elsewhere slot) store := by
  induction entries generalizing store with
  | nil => trivial
  | cons entry entries ih => exact ⟨elsewhere_update _ _ _,ih _⟩

theorem deleteJournal_elsewhere (noise : CallNoise) (store : MetaStore) :
    (deleteJournal slot noise).Follows (Elsewhere slot) store :=
  ⟨elsewhere_update _ _ _,elsewhere_update _ _ _,trivial⟩

theorem completeCustodyPair_elsewhere (pair : CustodyPair) (store : MetaStore) :
    (completeCustodyPair slot pair).Follows (Elsewhere slot) store :=
  ⟨elsewhere_update _ _ _,elsewhere_update _ _ _,trivial⟩

theorem setAside_elsewhere (input : RecoverInput) (raw : JournalRecord) (err : CustodyPairError) (store : MetaStore) :
    (setAside env input raw err).Follows (Elsewhere input.slot) store := by
  rw [setAside]
  cases input.master with
  | none => trivial
  | some master =>
    refine Follows.observe (Follows.require fun _ => Follows.bind ?_ fun _ _ _ => trivial)
    refine Follows.modify (elsewhere_update _ _ _) (Follows.observe ?_)
    exact Follows.bind (dropQuarantine_elsewhere _ _) fun _ store' _ => deleteJournal_elsewhere input.noise store'

theorem recover_elsewhere (input : RecoverInput) (store : MetaStore) :
    (recoverCustodyEnvelopeCommit env input).Follows (Elsewhere input.slot) store := by
  rw [recoverCustodyEnvelopeCommit]
  apply Follows.observe
  cases (store.files input.slot).journal with
  | none => trivial
  | some raw =>
    cases hpar : parseCustodyEnvelopeCommitJournal env raw with
    | none =>
      simp only [hpar]
      exact setAside_elsewhere input raw _ store
    | some parsed =>
      simp only [hpar]
      split
      · exact setAside_elsewhere input raw _ store
      · refine Follows.observe (Follows.bind (completeCustodyPair_elsewhere _ _) fun _ store' _ => ?_)
        exact Follows.bind (deleteJournal_elsewhere _ _) fun _ _ _ => trivial

theorem publishPrepared_elsewhere (input : PublishInput) (store : MetaStore) :
    (publishPrepared env input).Follows (Elsewhere input.slot) store := by
  refine Follows.modify (elsewhere_prepare store) ?_
  exact Follows.bind (completeCustodyPair_elsewhere _ _) fun _ store' _ => deleteJournal_elsewhere input.noise store'

theorem publishCustodyPair_elsewhere (input : PublishInput) (store : MetaStore) :
    (publishCustodyPair env input).Follows (Elsewhere input.slot) store := by
  rw [publishCustodyPair]
  apply Follows.observe
  cases (store.files input.slot).journal with
  | none => exact publishPrepared_elsewhere input store
  | some raw =>
    refine Follows.bind (recover_elsewhere input.recovery store) fun recovery store' _ => ?_
    exact Follows.observe (Follows.require fun _ => publishPrepared_elsewhere input store')

namespace CustodyCall

theorem program_elsewhere (env : CustodyPairEnv ε) (call : CustodyCall ε) (store : MetaStore) :
    (call.program env).Follows (Elsewhere call.slot) store := by
  cases call with
  | write slot envelope master nonce noise =>
    exact publishCustodyPair_elsewhere
      ⟨slot,⟨env.stamp envelope master,env.sealSentinel master nonce⟩,master,noise⟩ store
  | restore envelopeBytes master nonce noise =>
    refine Follows.require fun _ => ?_
    exact publishCustodyPair_elsewhere ⟨.live,⟨envelopeBytes,env.sealSentinel master nonce⟩,master,noise⟩ store
  | recover input => exact Follows.bind (recover_elsewhere input store) fun _ _ _ => trivial

end CustodyCall

/-- The pair of the slot authenticates under the master; or the live pair does, and the staged one is gone or the caller
asked for the live pair. -/
def SetAsideAllowed (env : CustodyPairEnv ε) (check : ConsistencyCheck) (slot : CustodySlot) (store : MetaStore)
    (master : List UInt8) : Prop :=
  verifyCustodyPairAuthenticates env (store.files slot) master=true ∨
  (verifyCustodyPairAuthenticates env (store.files .live) master=true ∧
    (((store.files slot).envelope=none ∧ (store.files slot).sentinel=none) ∨ check=.livePair))

theorem setAsideAllowed_of_holds {check : ConsistencyCheck} {master : List UInt8}
    (h : check.holds env slot store master=true) : SetAsideAllowed env check slot store master := by
  cases check with
  | livePair => exact .inr ⟨h,.inr rfl⟩
  | ofSlot =>
    cases slot with
    | live => exact .inl h
    | staged =>
      simp only [ConsistencyCheck.holds,CustodySlot.consistent,Bool.or_eq_true,Bool.and_eq_true,
        Option.isNone_iff_eq_none] at h
      rcases h with h | ⟨⟨henv,hsen⟩,hliv⟩
      · exact .inl h
      · exact .inr ⟨hliv,.inl ⟨henv,hsen⟩⟩

section Kept

variable {raw : JournalRecord} (hjournal : (store.files slot).journal=some raw)
  (hnone : replayable env slot (store.files slot)=none)

include hjournal hnone

/-- A record that cannot be replayed, where the check does not hold, is all a recovery finds. -/
theorem recover_refuses (input : RecoverInput) (hslo : input.slot=slot)
    (hche : ∀ master, input.master=some master → input.check.holds env slot store master=false) :
    (recoverCustodyEnvelopeCommit env input).Safely (· = store) (fun r _ => ∃ err, r=.error err) store := by
  subst hslo
  have hasi : ∀ err, (setAside env input raw err).Safely (· = store) (fun r _ => ∃ err, r=.error err) store := by
    intro err
    rw [setAside]
    cases hmas : input.master with
    | none => exact ⟨rfl,err,rfl⟩
    | some master =>
      refine Safely.observe (Safely.require (fun hhol => ?_) fun _ => ⟨rfl,err,rfl⟩)
      rw [hche master hmas] at hhol
      cases hhol
  rw [recoverCustodyEnvelopeCommit]
  apply Safely.observe
  rw [hjournal]
  cases hpar : parseCustodyEnvelopeCommitJournal env raw with
  | none =>
    simp only [hpar]
    exact hasi _
  | some parsed =>
    simp only [hpar]
    simp only [replayable,hjournal,hpar] at hnone
    have hkey := (ite_eq_right_iff.mp hnone)
    by_cases hsam : parsed.1.envelopeKey=input.slot.envelopeKey ∧ parsed.1.sentinelKey=input.slot.sentinelKey
    · cases hkey hsam
    · rw [if_pos (not_and_or.mp hsam)]
      exact hasi _

theorem publish_refuses {input : PublishInput} (hslo : input.slot=slot)
    (hche : ConsistencyCheck.ofSlot.holds env slot store input.master=false) :
    (publishCustodyPair env input).Safely (· = store) (fun _ _ => True) store := by
  have hrec := recover_refuses hjournal hnone input.recovery hslo (by
    intro master hmas
    cases hmas
    exact hche)
  subst hslo
  rw [publishCustodyPair]
  apply Safely.observe
  rw [hjournal]
  refine hrec.bind (fun recovery store' _ hr => ?_) fun _ _ _ _ => trivial
  obtain ⟨err,herr⟩ := hr
  cases herr

/-- Whatever the call, a record that cannot be replayed changes only where the check of the call holds. -/
theorem setAside_checked {call : CustodyCall ε} {n : Nat}
    (hcha : ((((call.program env).after n store).files slot).journal≠some raw)) :
    ∃ master, call.master=some master ∧ SetAsideAllowed env call.check slot store master := by
  by_contra hnot
  have hche : ∀ master, call.master=some master → call.check.holds env slot store master=false := by
    intro master hmas
    by_contra hhol
    exact hnot ⟨master,hmas,setAsideAllowed_of_holds (Bool.not_eq_false _ ▸ hhol)⟩
  by_cases hslo : call.slot=slot
  · have hsam : (call.program env).after n store=store := by
      cases call with
      | write slot' envelope master nonce noise =>
        have hsaf : (writeCustodyEnvelope env slot' envelope master nonce noise).Safely (· = store)
            (fun _ _ => True) store := publish_refuses hjournal hnone hslo (hche master rfl)
        exact hsaf.after n
      | restore envelopeBytes master nonce noise =>
        have hsaf : (writeCustodyEnvelopeBytes env envelopeBytes master nonce noise).Safely (· = store)
            (fun _ _ => True) store :=
          Safely.require (fun _ => publish_refuses hjournal hnone hslo (hche master rfl)) fun _ => ⟨rfl,trivial⟩
        exact hsaf.after n
      | recover input =>
        have hsaf : (CustodyCall.program env (.recover input)).Safely (· = store) (fun _ _ => True) store :=
          (recover_refuses hjournal hnone input hslo hche).bind (fun _ _ hsto _ => ⟨hsto,trivial⟩)
            fun _ _ _ _ => trivial
        exact hsaf.after n
    rw [hsam] at hcha
    exact hcha hjournal
  · have hels := (call.program_elsewhere env store).after n
    rw [hels slot (Ne.symm hslo)] at hcha
    exact hcha hjournal

end Kept

/-- The pair a slot holds is not the one that is replayed. -/
def Replaces (files : SlotFiles) (pair : CustodyPair) : Prop :=
  files.envelope≠some pair.envelopeBytes ∨ files.sentinel≠some pair.sentinelBytes

def CustodyCall.published (env : CustodyPairEnv ε) : CustodyCall ε → Option (List UInt8)
  | .write _ envelope master _ _ => some (env.stamp envelope master)
  | .restore envelopeBytes _ _ _ => some envelopeBytes
  | .recover _ => none

theorem recover_replays (input : RecoverInput) {pair : CustodyPair}
    (hrep : replayable env input.slot (store.files input.slot)=some pair)
    (hcha : Replaces (store.files input.slot) pair) :
    (recoverCustodyEnvelopeCommit env input).Safely (fun store' => store'.prepared=store.prepared)
      (fun r _ => r=.ok ⟨true,false,some pair⟩) store := by
  rw [recoverCustodyEnvelopeCommit]
  apply Safely.observe
  cases hjournal : (store.files input.slot).journal with
  | none => simp [replayable,hjournal] at hrep
  | some raw =>
    cases hpar : parseCustodyEnvelopeCommitJournal env raw with
    | none => simp [replayable,hjournal,hpar] at hrep
    | some parsed =>
      simp only [replayable,hjournal,hpar,Option.ite_none_right_eq_some] at hrep
      obtain ⟨hkey,hpai⟩ := hrep
      have hsam : ¬ (parsed.1.envelopeKey≠input.slot.envelopeKey ∨ parsed.1.sentinelKey≠input.slot.sentinelKey) := by
        rw [not_or,not_not,not_not]
        exact hkey
      cases hpai
      simp only [hpar,if_neg hsam]
      have hdec : decide ((store.files input.slot).envelope≠some parsed.2.envelopeBytes ∨
          (store.files input.slot).sentinel≠some parsed.2.sentinelBytes)=true := decide_eq_true hcha
      refine Safely.observe ?_
      rw [hdec]
      exact ⟨rfl,rfl,rfl,rfl,rfl,rfl⟩

theorem publish_refuses_replaced {input : PublishInput} {pair : CustodyPair}
    (hrep : replayable env input.slot (store.files input.slot)=some pair)
    (hcha : Replaces (store.files input.slot) pair) (hsta : pair.envelopeBytes≠input.pair.envelopeBytes) :
    (publishCustodyPair env input).Safely (fun store' => store'.prepared=store.prepared)
      (fun r _ => r=.error .snapshotChanged) store := by
  have hrec := recover_replays input.recovery hrep hcha
  rw [publishCustodyPair]
  apply Safely.observe
  cases hjournal : (store.files input.slot).journal with
  | none => simp [replayable,hjournal] at hrep
  | some raw =>
    refine hrec.bind (fun recovery store' hpre hr => ?_) fun _ _ _ herr => ?_
    · cases hr
      refine Safely.observe (Safely.require (fun hall => ?_) fun _ => ⟨hpre,rfl⟩)
      simp [recoveredCustodyPairAllowsPublish,hsta] at hall
    · cases herr

/-- A writer whose recovery changed the pair publishes nothing, unless its envelope is the one that was replayed. -/
theorem stale_writer_refused {call : CustodyCall ε} {pair : CustodyPair} {bytes : List UInt8}
    (hrep : replayable env call.slot (store.files call.slot)=some pair)
    (hcha : Replaces (store.files call.slot) pair) (hpub : call.published env=some bytes)
    (hsta : pair.envelopeBytes≠bytes) (n : Nat) :
    ((call.program env).after n store).prepared=store.prepared := by
  cases call with
  | write slot envelope master nonce noise =>
    cases hpub
    have hsaf : (writeCustodyEnvelope env slot envelope master nonce noise).Safely
        (fun store' => store'.prepared=store.prepared) (fun r _ => r=.error .snapshotChanged) store :=
      publish_refuses_replaced hrep hcha hsta
    exact hsaf.after n
  | restore envelopeBytes master nonce noise =>
    rw [← Option.some.inj hpub] at hsta
    have hsaf : (writeCustodyEnvelopeBytes env envelopeBytes master nonce noise).Safely
        (fun store' => store'.prepared=store.prepared) (fun _ _ => True) store := by
      refine Safely.require (fun _ => ?_) fun _ => ⟨rfl,trivial⟩
      exact (publish_refuses_replaced hrep hcha hsta).mono fun _ _ _ _ => trivial
    exact hsaf.after n
  | recover input => cases hpub

/-- After any calls, each whole or cut off, a recovery that succeeds leaves a pair that one writer prepared. A record
that cannot be replayed is touched only where its pair, or the live pair in place of a staged one, authenticates under the
master of the call. A writer over whose slot a record replays another envelope prepares no pair. -/
theorem custody_pair_atomic (env : CustodyPairEnv ε) (store : MetaStore) (steps : List (CustodyStep ε))
    (hstart : Settled env store) :
    (∀ input result store', (recoverCustodyEnvelopeCommit env input).run (runCustody env store steps) =
      (.ok result,store') → Whole store' input.slot) ∧
    (∀ slot raw (call : CustodyCall ε) n, ((runCustody env store steps).files slot).journal=some raw →
      replayable env slot ((runCustody env store steps).files slot)=none →
      (((call.program env).after n (runCustody env store steps)).files slot).journal≠some raw →
      ∃ master, call.master=some master ∧
        SetAsideAllowed env call.check slot (runCustody env store steps) master) ∧
    ∀ (call : CustodyCall ε) pair bytes n,
      replayable env call.slot ((runCustody env store steps).files call.slot)=some pair →
      Replaces ((runCustody env store steps).files call.slot) pair → call.published env=some bytes →
      pair.envelopeBytes≠bytes →
      ((call.program env).after n (runCustody env store steps)).prepared=(runCustody env store steps).prepared := by
  have hset := hstart.run steps
  refine ⟨?_,?_,?_⟩
  · intro input result store' hrun
    have hrec := (recover_safely input hset).run.2
    rw [hrun] at hrec
    exact hrec.1.whole
  · intro slot raw call n hjournal hnone hcha
    exact setAside_checked hjournal hnone hcha
  · intro call pair bytes n hrep hcha hpub hsta
    exact stale_writer_refused hrep hcha hpub hsta n

end Atomicity

namespace PairSample

def env : CustodyPairEnv Unit :=
  ⟨fun _ => "",fun _ master => master,fun master _ => master,fun bytes master => bytes=master,
    fun bytes master => bytes=master,fun bytes master => bytes=master⟩

def noise : CallNoise := ⟨0,[]⟩

def fresh : MetaStore := ⟨fun _ => ⟨none,none,none,[]⟩,[]⟩

/-- A live pair under one master, and a staged pair under the next, whose record is overwritten and not yet gone. -/
def stagedTwice : List (CustodyStep Unit) :=
  [⟨.write .live () [1] 0 noise,none⟩,⟨.write .staged () [2] 0 noise,some 5⟩]

def recovery : RecoverInput := ⟨.staged,some [2],.ofSlot,noise⟩

theorem fresh_settled : Settled env fresh := by
  intro slot
  exact .inl ⟨rfl,rfl⟩

end PairSample

open PairSample in
/-- The record of a staged pair is removed under the new master, under which the live pair does not authenticate. -/
theorem staged_record_removed :
    ((runCustody env fresh stagedTwice).files .staged).journal=some (.malformed []) ∧
      ((((CustodyCall.recover recovery).program env).after 12 (runCustody env fresh stagedTwice)).files .staged).journal=none ∧
      (CustodyCall.recover recovery : CustodyCall Unit).master=some [2] ∧
      verifyCustodyPairAuthenticates env ((runCustody env fresh stagedTwice).files .live) [2]=false :=
  ⟨rfl,rfl,rfl,rfl⟩

open PairSample in
theorem custody_pair_atomic_staged :
    ∃ store', (recoverCustodyEnvelopeCommit env recovery).run (runCustody env fresh stagedTwice) =
        (.ok ⟨false,true,none⟩,store') ∧ Whole store' .staged := by
  refine ⟨_,rfl,?_⟩
  exact (custody_pair_atomic env fresh stagedTwice fresh_settled).1 recovery ⟨false,true,none⟩ _ rfl

end CastleWall.Custody
