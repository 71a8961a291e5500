import CastleWall.Operational.AuditCrash

/-! # The chain of a run

How its checkpoints are signed has no part in the entries and the anchors of a store: in every run of appends,
rotations, checkpoints and loads they agree with what was written. -/

namespace CastleWall.Operational

open AuditStore Process

variable {crypto : AuditCrypto}

/-- What holds of a store whatever its checkpoints and its signing control records are. -/
structure Beside (I : AuditStore → Prop) : Prop where
  head : ∀ s record, I s → I (s.putSigningHead record)
  latch : ∀ s record, I s → I (s.putSigningLatch record)
  checkpoint : ∀ s record, I s → I (s.putCheckpoint record)

namespace Beside

variable {I : AuditStore → Prop} {s : AuditStore}

theorem writeSigningHead (h : Beside I) (hs : I s) (intent : SigningHeadIntent) :
    (writeSigningHead crypto intent).Safely I (fun r _ => ∃ written, r=.ok written ∧ True) s := by
  unfold Operational.writeSigningHead
  refine Safely.observe ?_
  cases readSigningHead crypto s with
  | invalid => exact ⟨hs,false,rfl,trivial⟩
  | valid head => exact ⟨hs,h.head s _ hs,true,rfl,trivial⟩
  | absent =>
    dsimp only
    by_cases hens : intent.ensure=true
    · rw [if_pos hens]
      exact ⟨hs,h.head s _ hs,true,rfl,trivial⟩
    · rw [if_neg hens]
      exact ⟨hs,false,rfl,trivial⟩

theorem writeSigningLatch (h : Beside I) (hs : I s) (latch : SigningLatch) :
    (writeSigningLatch crypto latch).Safely I (fun r _ => ∃ written, r=.ok written ∧ True) s := by
  unfold Operational.writeSigningLatch
  refine Safely.observe ?_
  cases readSigningLatch crypto s with
  | absent => exact ⟨hs,h.latch s _ hs,true,rfl,trivial⟩
  | valid data => exact ⟨hs,false,rfl,trivial⟩
  | invalid => exact ⟨hs,false,rfl,trivial⟩

theorem performSigningRecoveryWrites (h : Beside I) (hs : I s) (v : SigningView)
    (findings : List AuditIntegrityFinding) (now : String) :
    (performSigningRecoveryWrites crypto v findings now).Safely I (fun r _ => ∃ u, r=.ok u ∧ True) s := by
  rw [Operational.performSigningRecoveryWrites]
  by_cases hdue : recoveryMarkers v findings≠[] ∨ (!v.coverageVeto)=true
  · rw [if_pos hdue]
    refine Safely.bind_ok (h.writeSigningHead hs _) fun _ s₁ hs₁ _ => ?_
    cases (v.earliestVerified.toList++v.headFloor.toList).min? with
    | none => exact ⟨hs₁,(),rfl,trivial⟩
    | some floor =>
      dsimp only
      by_cases hlat : v.latchRecoveryDue=true ∧ (!v.coverageVeto)=true
      · rw [if_pos hlat]
        exact Safely.bind_ok (h.writeSigningLatch hs₁ _) fun _ s₂ hs₂ _ => ⟨hs₂,(),rfl,trivial⟩
      · rw [if_neg hlat]
        exact ⟨hs₁,(),rfl,trivial⟩
  · rw [if_neg hdue]
    exact ⟨hs,(),rfl,trivial⟩

theorem writeCheckpointRecord (h : Beside I) (hs : I s) (payload : CheckpointPayload) (signer : SignerOutcome)
    (w : Writer) :
    (writeCheckpointRecord crypto payload signer w).Safely I
      (fun r _ => ∃ w', r=.ok w' ∧ w'.nextSequence=w.nextSequence) s := by
  cases signer with
  | noIdentity => exact ⟨hs,h.checkpoint s _ hs,w,rfl,rfl⟩
  | fails reason =>
    refine Safely.bind_ok (R := fun w' _ => w'.nextSequence=w.nextSequence) ?_ fun w' s₁ hs₁ hw' => ?_
    · exact Safely.observe (Safely.bind_ok (h.writeSigningHead hs _) fun _ s₁ hs₁ _ => ⟨hs₁,_,rfl,rfl⟩)
    · exact ⟨hs₁,h.checkpoint s₁ _ hs₁,w',rfl,hw'⟩
  | signs =>
    refine Safely.bind_ok (R := fun armed _ => armed.1.nextSequence=w.nextSequence) ?_ fun armed s₁ hs₁ hare => ?_
    · refine Safely.observe ?_
      split_ifs with harm
      · exact Safely.bind_ok (h.writeSigningHead hs _) fun _ s₁ hs₁ _ =>
          Safely.bind_ok (h.writeSigningLatch hs₁ _) fun _ s₂ hs₂ _ => ⟨hs₂,_,rfl,rfl⟩
      · exact ⟨hs,_,rfl,rfl⟩
    · exact Safely.modify hs₁ (Safely.bind_ok (h.writeSigningHead (h.checkpoint s₁ _ hs₁) _) fun _ s₂ hs₂ _ =>
        ⟨hs₂,_,rfl,hare⟩)

end Beside

def ChainConsistent (crypto : AuditCrypto) (s : AuditStore) : Prop :=
  ∃ pruned, ChainFits crypto pruned s.history s.entries s.headAnchor s.rotationAnchor

/-- The next number of a process is not beyond the entries that were written. -/
structure Writer.Placed (s : AuditStore) (w : Writer) : Prop where
  pos : 0 < w.nextSequence
  le : w.nextSequence ≤ s.history.length+1

def ChainKept (crypto : AuditCrypto) (s s' : AuditStore) : Prop :=
  ChainConsistent crypto s' ∧ s.history.length ≤ s'.history.length

def ChainEnded (result : Except AuditRefusal Writer) (s' : AuditStore) : Prop :=
  ∀ w, result=.ok w → w.Placed s'

theorem beside_chainKept (s : AuditStore) : Beside (ChainKept crypto s) :=
  ⟨fun _ _ h => h,fun _ _ h => h,fun _ _ h => h⟩

section Steps

variable {s : AuditStore} {w : Writer}

theorem Writer.Placed.mono {s' : AuditStore} (h : w.Placed s) (hle : s.history.length ≤ s'.history.length) :
    w.Placed s' :=
  ⟨h.pos,h.le.trans (Nat.succ_le_succ hle)⟩

theorem ChainConsistent.freshen (h : ChainConsistent crypto s) (hw : w.Placed s) {I : AuditStore → Prop} (hI : I s) :
    (freshenChainStateFromDisk crypto w).Safely I (fun r s' => s'=s ∧ ∀ w', r=.ok w' →
      w'.nextSequence=s.history.length+1 ∧ w'.lastEntryHash=tipHash s.history) s := by
  obtain ⟨pruned,hcha⟩ := h
  unfold freshenChainStateFromDisk
  refine Safely.observe ?_
  by_cases hnil : s.history=[]
  · have hlas : s.entries.getLast? = none := by
      rw [hcha.getLast_eq,hnil]
      rfl
    have hnex : w.nextSequence=s.history.length+1 := by
      have hpos := hw.pos
      have hle := hw.le
      rw [hnil,List.length_nil] at hle ⊢
      omega
    rw [readLatestPersistedChainState,hlas]
    dsimp only
    split_ifs with hbey hbas
    · refine ⟨hI,rfl,?_⟩
      rintro w' ⟨⟩
    · refine ⟨hI,rfl,fun w' hw' => ?_⟩
      rw [← Except.ok.inj hw',hnil,tipHash_nil]
      exact ⟨by rw [← hnil]; exact hnex,hbas.2.2⟩
    · refine ⟨hI,rfl,?_⟩
      rintro w' ⟨⟩
  · rw [hcha.readLatest_found hnil]
    dsimp only
    rw [if_pos hw.le]
    refine ⟨hI,rfl,fun w' hw' => ?_⟩
    rw [← Except.ok.inj hw']
    exact ⟨rfl,rfl⟩

theorem ChainConsistent.persist (h : ChainConsistent crypto s) (hw : w.Placed s) (entry : AuditEntry) (nonce : Nat) :
    (persistChainedEntry crypto entry nonce w).Safely (ChainKept crypto s) ChainEnded s := by
  have hsta : ChainKept crypto s s := ⟨h,Nat.le_refl _⟩
  refine Safely.require (fun _ => ?_) fun _ => ⟨hsta,nofun⟩
  refine Safely.bind (h.freshen hw hsta) (fun w' s' _ hfre => ?_) fun err s' _ _ => nofun
  obtain ⟨rfl,hfre⟩ := hfre
  obtain ⟨hnex,hlas⟩ := hfre w' rfl
  obtain ⟨pruned,hcha⟩ := h
  have he : EntryFits crypto s'.history (envelopeOf crypto entry nonce w'.nextSequence w'.lastEntryHash) := by
    rw [hnex,hlas]
    exact entryFits_envelopeOf entry nonce s'.history
  have hput := hcha.append he
  have hanc := hput.anchorHead (i := s'.history.length) List.getElem?_concat_length
  have hlen : s'.history.length ≤ (s'.history ++
      [envelopeOf crypto entry nonce w'.nextSequence w'.lastEntryHash]).length := by
    rw [List.length_append]
    exact Nat.le_add_right _ _
  rw [← he.sequence] at hanc
  refine ⟨hsta,⟨⟨pruned,hput⟩,hlen⟩,⟨⟨pruned,hanc⟩,hlen⟩,⟨⟨pruned,hanc⟩,hlen⟩,?_⟩
  intro w'' hw''
  rw [← Except.ok.inj hw'']
  refine ⟨Nat.succ_pos _,Nat.succ_le_succ ?_⟩
  change _ ≤ (s'.history++[_]).length
  rw [he.sequence,List.length_append,List.length_singleton]

theorem ChainConsistent.writeCheckpoint (h : ChainConsistent crypto s) (hw : w.Placed s) (signer : SignerOutcome)
    (signedAt : String) : (writeCheckpoint crypto signer signedAt w).Safely (ChainKept crypto s) ChainEnded s := by
  have hsta : ChainKept crypto s s := ⟨h,Nat.le_refl _⟩
  refine Safely.bind (h.freshen hw hsta) (fun w' s' _ hfre => ?_) fun err s' _ _ => nofun
  obtain ⟨rfl,hfre⟩ := hfre
  have hnex := (hfre w' rfl).1
  have hpla : ∀ (s'' : AuditStore) (w'' : Writer), ChainKept crypto s' s'' → w''.nextSequence=w'.nextSequence → w''.Placed s'' := by
    intro s'' w'' hkep hsam
    rw [hnex] at hsam
    refine ⟨?_,?_⟩
    · rw [hsam]
      exact Nat.succ_pos _
    · rw [hsam]
      exact Nat.succ_le_succ hkep.2
  apply Safely.observe
  cases checkpointPayloadOf crypto s' signedAt w' with
  | none =>
    refine ⟨hsta,fun w'' hw'' => ?_⟩
    exact hpla s' w'' hsta (by rw [← Except.ok.inj hw''])
  | some payload =>
    refine ((beside_chainKept s').writeCheckpointRecord hsta payload signer w').mono fun r s'' hkep hr => ?_
    obtain ⟨w₁,hok,hsam⟩ := hr
    intro w'' hw''
    rw [hok] at hw''
    rw [← Except.ok.inj hw'']
    exact hpla s'' w₁ hkep hsam

theorem ChainConsistent.pruneSteps {s₀ : AuditStore} (n : Nat) (entries : List PersistedAuditEnvelope)
    {s : AuditStore} (h : ChainKept crypto s₀ s) (hent : s.entries=entries) :
    (pruneSteps crypto n entries).Safely (ChainKept crypto s₀) (fun r _ => ∃ u, r=.ok u ∧ True) s := by
  induction n generalizing entries s with
  | zero => exact ⟨h,(),rfl,trivial⟩
  | succ n ih =>
    match entries, hent with
    | [], _ => exact ⟨h,(),rfl,trivial⟩
    | [_], _ => exact ⟨h,(),rfl,trivial⟩
    | oldest::base::rest, hent =>
      obtain ⟨pruned,hcha⟩ := h.1
      have hann := hcha.announceCut (hcha.getElem_base hent)
      have hcut := deleteEntry_oldest (s.putRotationAnchor
        (sealRecord crypto.rotationAnchorMac ⟨base.sequence,base.prevHash⟩)) hent
      refine Safely.modify h (Safely.modify ⟨⟨pruned,hann⟩,h.2⟩ (ih (base::rest) ⟨⟨pruned+1,?_⟩,h.2⟩ hcut))
      rw [hcut]
      rw [hent] at hann
      exact hann.makeCut

theorem ChainConsistent.maybeRotate (h : ChainConsistent crypto s) (hw : w.Placed s) (limits : RetentionLimits)
    (size : PersistedAuditEnvelope → Nat) (budget : Nat) :
    (maybeRotate crypto limits size budget w).Safely (ChainKept crypto s) ChainEnded s := by
  apply Safely.observe
  refine Safely.bind_ok (ChainConsistent.pruneSteps _ s.entries ⟨h,Nat.le_refl _⟩ rfl) fun _ s' hs' _ => ?_
  refine ⟨hs',fun w' hw' => ?_⟩
  rw [← Except.ok.inj hw']
  exact hw.mono hs'.2

theorem ChainKept.loadPersistedEntries {s₀ : AuditStore} (h : ChainKept crypto s₀ s) (mayMutate : Bool)
    (now : String) (w : Writer) :
    (loadPersistedEntries crypto mayMutate now w).Safely (ChainKept crypto s₀)
      (fun r s' => ∃ w', r=.ok w' ∧ ChainKept crypto s s' ∧ w'.Placed s') s := by
  obtain ⟨pruned,hcha⟩ := h.1
  have hsta : ChainKept crypto s s := ⟨h.1,Nat.le_refl _⟩
  have hpla : ∀ s', ChainKept crypto s s' → ∀ w' : Writer,
      w'.nextSequence=((highestObserved s.entries).map (·.sequence)).getD 0+1 → w'.Placed s' := by
    intro s' hkep w' hnex
    rw [hcha.highestSequence_eq] at hnex
    refine ⟨?_,?_⟩
    · rw [hnex]
      exact Nat.succ_pos _
    · rw [hnex]
      exact Nat.succ_le_succ hkep.2
  -- Both bounds hold of a store that differs in its control records.
  have hbot : Beside fun s' => ChainKept crypto s₀ s' ∧ ChainKept crypto s s' :=
    ⟨fun _ _ h => h,fun _ _ h => h,fun _ _ h => h⟩
  apply Safely.observe
  dsimp only [id]
  split_ifs with hdue
  · refine Safely.weaken (Safely.bind_ok (hbot.performSigningRecoveryWrites ⟨h,hsta⟩ (signingView crypto s)
      ((signingView crypto s).findings w.signingRecoveryThisLoad) now) fun _ s' hs' _ => ?_) fun s' hs' => hs'.1
    exact ⟨hs',_,rfl,hs'.2,hpla s' hs'.2 _ rfl⟩
  · exact ⟨h,_,rfl,hsta,hpla s hsta _ rfl⟩

theorem ChainConsistent.reload (h : ChainConsistent crypto s) (mayMutate : Bool) (now : String) (w : Writer) :
    (reloadPersistedEntries crypto mayMutate now w).Safely (ChainKept crypto s) ChainEnded s := by
  have hsta : ChainKept crypto s s := ⟨h,Nat.le_refl _⟩
  have hloa : (loadPersistedEntriesWithReadConsistency crypto mayMutate now w).Safely (ChainKept crypto s)
      (fun r s' => ∃ w', r=.ok w' ∧ w'.Placed s') s := by
    refine Safely.bind_ok (hsta.loadPersistedEntries mayMutate now _) fun w₁ s₁ hs₁ hpass₁ => ?_
    split_ifs with hhar
    · refine (hs₁.loadPersistedEntries mayMutate now w₁).mono fun r s' _ hr => ?_
      obtain ⟨w',hok,_,hpla⟩ := hr
      exact ⟨w',hok,hpla⟩
    · exact ⟨hs₁,w₁,rfl,hpass₁.2⟩
  refine Safely.bind_ok hloa fun w' s' hs' hpla => ⟨hs',fun w'' hw'' => ?_⟩
  rw [← Except.ok.inj hw'']
  exact ⟨hpla.pos,hpla.le⟩

end Steps

structure World.ChainSound (crypto : AuditCrypto) (world : World) : Prop where
  store : ChainConsistent crypto world.store
  writers : ∀ process, (world.writers process).Placed world.store

theorem World.chainSound_empty (crypto : AuditCrypto) : World.ChainSound crypto {} :=
  ⟨(Consistent.empty false).chain,fun _ => ⟨Nat.one_pos,Nat.le_add_left 1 _⟩⟩

theorem AuditAction.chainSafely {s : AuditStore} (h : ChainConsistent crypto s) {w : Writer} (hw : w.Placed s)
    (action : AuditAction) : (action.program crypto w).Safely (ChainKept crypto s) ChainEnded s := by
  cases action with
  | load mayMutate now => exact h.reload mayMutate now w
  | append entry nonce => exact h.persist hw entry nonce
  | checkpoint signer signedAt => exact h.writeCheckpoint hw signer signedAt
  | rotate limits size budget => exact h.maybeRotate hw limits size budget

theorem World.ChainSound.step {world : World} (h : World.ChainSound crypto world) (event : AuditEvent) :
    World.ChainSound crypto (world.step crypto event) := by
  have hsaf := event.action.chainSafely h.store (h.writers event.process)
  have hoth : ∀ s' w', ChainKept crypto world.store s' → w'.Placed s' → ∀ process,
      (Function.update world.writers event.process w' process).Placed s' := by
    intro s' w' hkep hw' process
    by_cases hp : process=event.process
    · rw [hp,Function.update_self]
      exact hw'
    · rw [Function.update_of_ne hp]
      exact (h.writers process).mono hkep.2
  unfold World.step
  cases event.crashAfter with
  | some n =>
    have hkep := hsaf.after n
    exact ⟨hkep.1,hoth _ _ hkep ⟨Nat.one_pos,Nat.le_add_left 1 _⟩⟩
  | none =>
    have hrun := hsaf.run
    dsimp only
    rcases hres : (event.action.program crypto (world.writers event.process)).run world.store with ⟨r,s'⟩
    rw [hres] at hrun
    cases r with
    | ok w' => exact ⟨hrun.1.1,hoth s' w' hrun.1 (hrun.2 w' rfl)⟩
    | error refusal => exact ⟨hrun.1.1,fun process => (h.writers process).mono hrun.1.2⟩

/-- Whoever signs its checkpoints and wherever it crashes, a run leaves a chain that agrees with what was
written. -/
theorem World.ChainSound.run {world : World} (h : World.ChainSound crypto world) (events : List AuditEvent) :
    World.ChainSound crypto (world.run crypto events) := by
  induction events generalizing world with
  | nil => exact h
  | cons event events ih => exact ih (h.step event)

end CastleWall.Operational
