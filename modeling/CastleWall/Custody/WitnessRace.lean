import CastleWall.Custody.Rollback

/-! # Concurrent witness updates

A boot, a cross-check of the configuration baseline and a revocation push each read the epoch witness, raise it
and write it back, under different locks or none. -/

namespace CastleWall.Custody

open Process (Sound)

inductive WitnessUpdate where
  | bootAdvance (now : String)
  | raiseBaseline (sealedSchema : Fin (2 ^ 53)) (now : String)
  | raiseRevocation (version : Nat) (now : String)

def WitnessUpdate.program (mac : MasterMac) : WitnessUpdate → CustodyM Unit
  | .bootAdvance now => do
    let _ ← bootCheck mac now
    return ()
  | .raiseBaseline sealedSchema now => raiseBaselineEstablishedLatch mac sealedSchema now
  | .raiseRevocation version now => raiseRevocationFloorLatch mac version now

/-- The witness, beside the envelope epoch that no update changes. -/
def witnessView (f : Fortress) : MetaFile × Nat := (f.witness,f.envelopeEpoch)

section Updates

variable (mac : MasterMac) (P : Nat → Prop)

def EnvelopeView (v : MetaFile × Nat) : Prop := P v.2

def Advances (v v' : MetaFile × Nat) : Prop := Rises mac v.1 v'.1

instance : Std.Refl (Advances mac) where
  refl v := Std.Refl.refl (r := Rises mac) v.1

instance : IsTrans (MetaFile × Nat) (Advances mac) where
  trans a b c := IsTrans.trans (r := Rises mac) a.1 b.1 c.1

variable {mac P}

theorem sound_writeEpochWitness {data : EpochWitness} (hdat : data.Safe) (seen : Option Fortress) :
    Sound witnessView (EnvelopeView P) (Advances mac) seen (writeEpochWitness mac data false) := by
  have hsto : ∀ (w : EpochWitness) (f : Fortress), w.Safe →
      (∀ c, readEpochWitness mac f.witness=.valid c → c.Below w) →
        Sound witnessView (EnvelopeView P) (Advances mac) (some f) (storeWitness mac w) := by
    intro w f hsaf hbel
    refine ⟨fun s hs hval => ⟨hval,fun c hc => ⟨w,read_putWitness mac hsaf s,hbel c ?_⟩⟩,trivial⟩
    have hwit : s.witness=f.witness := congrArg Prod.fst hs
    rw [← hwit]
    exact hc
  rw [writeEpochWitness_false]
  intro f hf
  beta_reduce
  cases hrea : readEpochWitness mac f.witness with
  | valid current =>
    by_cases hlow : data.epoch < current.epoch
    · dsimp only
      rw [Process.require,if_neg (not_not.mpr hlow)]
      exact Sound.done _
    · dsimp only
      rw [Process.require,if_pos hlow]
      refine hsto _ f (safe_carryLatches (safe_of_valid hrea) hdat) fun c hc => ?_
      rw [hrea] at hc
      cases hc
      exact below_carryLatches hlow
  | absent =>
    refine hsto _ f hdat fun c hc => ?_
    rw [hrea] at hc
    cases hc
  | invalid =>
    refine hsto _ f hdat fun c hc => ?_
    rw [hrea] at hc
    cases hc

theorem safe_unlatched {epoch : Nat} (h : epoch < 2 ^ 53) (epochId now : String) :
    (⟨epoch,epochId,now,none,none,none⟩ : EpochWitness).Safe := ⟨h,nofun,nofun⟩

private theorem sound_evaluateAndEnforceRollback {envelopeEpoch : Nat} (h : envelopeEpoch < 2 ^ 53)
    (o : WitnessObservation) (now : String) (seen : Option Fortress) :
    Sound witnessView (EnvelopeView (· < 2 ^ 53)) (Advances mac) seen
      (evaluateAndEnforceRollback mac envelopeEpoch o now) := by
  unfold evaluateAndEnforceRollback
  refine Sound.bind (fun _ _ => Sound.done _) fun _ _ => ?_
  cases evaluateRollback envelopeEpoch o with
  | ok epoch =>
    exact Sound.bind (sound_writeEpochWitness (safe_unlatched h _ now) _) fun _ _ => Sound.done _
  | rollbackSuspected observedEpoch witnessedEpoch witnessSource notes =>
    refine Sound.bind ?_ fun _ _ => Sound.done _
    rw [freezeUnlessKnown]
    split_ifs
    · exact Sound.done _
    · exact Sound.keeps (fun _ => rfl) (Sound.done _)

theorem sound_bootCheck (now : String) (seen : Option Fortress) :
    Sound witnessView (EnvelopeView (· < 2 ^ 53)) (Advances mac) seen (bootCheck mac now) := by
  -- The rotation record, the audit head, the witness and the envelope are read one after another.
  intro f₁ _ f₂ _ f₃ _ f₄ hf₄
  exact sound_evaluateAndEnforceRollback hf₄ _ now _

theorem sound_raiseBaselineEstablishedLatch {sealedSchema : Nat} (h : sealedSchema < 2 ^ 53) (now : String)
    (seen : Option Fortress) :
    Sound witnessView (EnvelopeView P) (Advances mac) seen
      (raiseBaselineEstablishedLatch mac sealedSchema now) := by
  intro f _
  change Sound _ _ _ _ (if baselineRaised sealedSchema (readEpochWitness mac f.witness) then _ else _)
  split_ifs
  · exact Sound.done _
  · exact sound_writeEpochWitness (safe_raisedBaseline (safe_latchBase f.witness now) h now) _

theorem sound_raiseRevocationFloorLatch (version : Nat) (now : String) (seen : Option Fortress) :
    Sound witnessView (EnvelopeView P) (Advances mac) seen (raiseRevocationFloorLatch mac version now) := by
  refine Sound.require fun hver => ?_
  intro f _
  change Sound _ _ _ _ (if floorRaised version (readEpochWitness mac f.witness) then _ else _)
  split_ifs
  · exact Sound.done _
  · exact sound_writeEpochWitness (safe_raisedFloor (safe_latchBase f.witness now) hver now) _

theorem sound_program (update : WitnessUpdate) :
    Sound witnessView (EnvelopeView (· < 2 ^ 53)) (Advances mac) none (update.program mac) := by
  cases update with
  | bootAdvance now => exact Sound.bind (sound_bootCheck now none) fun _ _ => Sound.done _
  | raiseBaseline sealedSchema now => exact sound_raiseBaselineEstablishedLatch sealedSchema.isLt now none
  | raiseRevocation version now => exact sound_raiseRevocationFloorLatch version now none

variable (mac)

def updatesFrom (f : Fortress) (updates : List WitnessUpdate) : Process.Config Fortress CustodyError Unit :=
  .start f (updates.map fun update => update.program mac)

/-- While every update overwrites the witness it read last, no part of the stored witness is lowered between any
two points of the schedule. -/
theorem stored_witness_monotone {f : Fortress} {w : EpochWitness}
    (hw : readEpochWitness mac f.witness=.valid w) (hepoch : f.envelopeEpoch < 2 ^ 53)
    (updates : List WitnessUpdate) {earlier later : List Nat}
    (hundisturbed : (updatesFrom mac f updates).AllUndisturbed witnessView (earlier++later)) :
    ∃ w₁ w₂, readEpochWitness mac ((updatesFrom mac f updates).runSchedule earlier).store.witness=.valid w₁ ∧
      readEpochWitness mac ((updatesFrom mac f updates).runSchedule (earlier++later)).store.witness=.valid w₂ ∧
      w₁.Below w₂ := by
  rw [Process.Config.allUndisturbed_append] at hundisturbed
  have hsta : (updatesFrom mac f updates).Safe witnessView (EnvelopeView (· < 2 ^ 53)) (Advances mac) := by
    have hvie : EnvelopeView (· < 2 ^ 53) (witnessView f) := hepoch
    refine Process.Config.safe_start hvie fun m hm => ?_
    obtain ⟨update,-,rfl⟩ := List.mem_map.mp hm
    exact sound_program update
  have hear := hsta.runSchedule hundisturbed.1
  have hlat := hear.1.runSchedule hundisturbed.2
  obtain ⟨w₁,hw₁,-⟩ := hear.2 w hw
  obtain ⟨w₂,hw₂,hbel⟩ := hlat.2 w₁ hw₁
  rw [Process.Config.runSchedule_append]
  exact ⟨w₁,w₂,hw₁,hw₂,hbel⟩

end Updates

def witnessedFortress : Fortress :=
  putWitness (fun _ _ => []) ⟨0,"epoch-0-creation","2026-01-01",none,none,none⟩
    ⟨none,none,none,none,false,.absent,.valid,0,.notApplicable⟩

theorem read_witnessedFortress : readEpochWitness (fun _ _ => []) witnessedFortress.witness =
    .valid ⟨0,"epoch-0-creation","2026-01-01",none,none,none⟩ :=
  read_putWitness _ (safe_unlatched (Nat.two_pow_pos 53) _ _) _

def pushAndCrossCheck : Process.Config Fortress CustodyError Unit :=
  updatesFrom (fun _ _ => []) witnessedFortress [.raiseRevocation 7 "2026-01-02",.raiseBaseline 3 "2026-01-02"]

theorem push_alone_monotone : ∃ w₁ w₂,
    readEpochWitness (fun _ _ => []) (pushAndCrossCheck.runSchedule [0,0]).store.witness=.valid w₁ ∧
      readEpochWitness (fun _ _ => []) (pushAndCrossCheck.runSchedule ([0,0]++[0])).store.witness=.valid w₂ ∧
      w₁.Below w₂ := by
  refine stored_witness_monotone _ read_witnessedFortress (Nat.two_pow_pos 53) _ ?_
  exact Process.Config.allUndisturbed_replicate (c := pushAndCrossCheck) (i := 0) rfl (sound_program _)
    (show 0 < 2 ^ 53 from Nat.two_pow_pos 53) (.inl rfl) 3

/-- The push is over before the cross-check writes what it read: the floor is gone from the witness. -/
theorem interleaved_raises_lose_floor :
    revocationFloorOf (readEpochWitness (fun _ _ => [])
      (pushAndCrossCheck.runSchedule [1,1,0,0,0]).store.witness)=(7,false) ∧
    revocationFloorOf (readEpochWitness (fun _ _ => [])
      (pushAndCrossCheck.runSchedule ([1,1,0,0,0]++[1])).store.witness)=(0,false) := by
  decide +kernel

end CastleWall.Custody
