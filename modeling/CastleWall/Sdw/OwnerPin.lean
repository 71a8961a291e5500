import Mathlib.Data.List.Basic

/-! # The owner of a memory scope

Every process checks the owner record before it touches the memory, and the first to find none creates it. Each
call is a chain of storage operations and any of them may come between two of another call. -/

namespace CastleWall.Sdw

structure OwnerScope where
  (fortressId ownerRef : String)
deriving DecidableEq

structure SdwOwnerPinData where
  scope : OwnerScope
  (agentId pinnedAt : String)
deriving DecidableEq

/-- The record's bytes under the master key: those of some data, unless the data are refused, and the data that
verified bytes hold. -/
structure PinCodec (ρ : Type) where
  prepareSdwOwnerPinWrite : SdwOwnerPinData → Option ρ
  verifySdwOwnerPinEnvelope : ρ → Option SdwOwnerPinData

inductive IsolationRefusalReason where
  | ownerIdentityMissing
  | ownerPinMissingAfterEstablishment
  | ownerPinBackendUnsupported
  | ownerPinInvalid
  | ownerScopeConflict
  | ownerPinIoError

inductive OwnerCall where
  | guard (scope : OwnerScope) (agentId : String)
  | claim (scope : OwnerScope) (agentId : String)
  | transfer (scope : OwnerScope) (expectedAgentId newAgentId : String)

inductive OwnerResult where
  | allowed
  | refused (reason : IsolationRefusalReason)
  | claimed
  | alreadyClaimed (agentId : String)
  | claimLost
  | transferred
  | absent
  | ownerMismatch (agentId : String)
  | changed
  | invalid
  | unsupported
  | thrown

inductive OwnerStage (ρ : Type) where
  | read
  | established
  | create
  | replace (expectedRaw : ρ)
  | reread

/-- What the host answers to one operation: whether it throws, and then whether a write was made all the same;
whether the backend has the atomic write; whether the store is in use; and the time. -/
structure HostAnswer where
  throws : Bool := false
  effect : Bool := true
  supported : Bool := true
  storeEstablished : Bool := false
  now : String := ""

inductive OwnerNext (ρ : Type) where
  | go (stage : OwnerStage ρ)
  | done (result : OwnerResult)

open OwnerCall

variable {ρ : Type} (codec : PinCodec ρ)

inductive PinStatus (ρ : Type) where
  | absent
  | valid (data : SdwOwnerPinData) (raw : ρ)
  | invalid

def readSdwOwnerPin (stored : Option ρ) : PinStatus ρ :=
  match stored with
  | none => .absent
  | some raw =>
    match codec.verifySdwOwnerPinEnvelope raw with
    | some data => .valid data raw
    | none => .invalid

def OwnerCall.conclude (call : OwnerCall) (pin : PinStatus ρ) : OwnerResult :=
  match call,pin with
  | .guard scope agentId,.valid data _ =>
    if data.scope≠scope then .refused .ownerPinInvalid
    else if data.agentId=agentId then .allowed else .refused .ownerScopeConflict
  | .guard _ _,_ => .refused .ownerPinInvalid
  | .claim scope agentId,.valid data _ => if data.scope=scope ∧ data.agentId=agentId then .claimed else .claimLost
  | .claim _ _,_ => .claimLost
  | .transfer scope _ newAgentId,.valid data _ =>
    if data.scope=scope ∧ data.agentId=newAgentId then .transferred else .changed
  | .transfer _ _ _,_ => .changed

theorem OwnerCall.conclude_eq_allowed {call : OwnerCall} {pin : PinStatus ρ} (h : call.conclude pin=.allowed) :
    ∃ scope agentId data raw,call=.guard scope agentId ∧ pin=.valid data raw ∧ data.scope=scope ∧
      data.agentId=agentId := by
  cases pin with
  | valid data raw =>
    cases call with
    | guard scope agentId => exact ⟨scope,agentId,data,raw,rfl,rfl,by grind [conclude]⟩
    | _ => grind [conclude]
  | _ => cases call <;> simp [conclude] at h

theorem readSdwOwnerPin_valid {codec : PinCodec ρ} {stored : Option ρ} {data : SdwOwnerPinData} {raw : ρ}
    (h : readSdwOwnerPin codec stored=.valid data raw) :
    stored=some raw ∧ codec.verifySdwOwnerPinEnvelope raw=some data := by
  cases stored with
  | none => simp [readSdwOwnerPin] at h
  | some bytes =>
    cases hver : codec.verifySdwOwnerPinEnvelope bytes with
    | none => simp [readSdwOwnerPin,hver] at h
    | some found =>
      simp only [readSdwOwnerPin,hver,PinStatus.valid.injEq] at h
      obtain ⟨rfl,rfl⟩ := h
      exact ⟨rfl,hver⟩

def OwnerCall.begin (call : OwnerCall) (pin : PinStatus ρ) : OwnerNext ρ :=
  match call,pin with
  | .guard _ _,.absent => .go .established
  | .guard scope agentId,pin => .done ((OwnerCall.guard scope agentId).conclude pin)
  | .claim _ _,.absent => .go .create
  | .claim _ _,.invalid => .done .invalid
  | .claim _ _,.valid data _ => .done (.alreadyClaimed data.agentId)
  | .transfer _ _ _,.absent => .done .absent
  | .transfer _ _ _,.invalid => .done .invalid
  | .transfer scope expectedAgentId _,.valid data raw =>
    if data.scope≠scope then .done .invalid
    else if data.agentId≠expectedAgentId then .done (.ownerMismatch data.agentId)
    else .go (.replace raw)

def OwnerCall.pinBytes (call : OwnerCall) (now : String) : Option ρ :=
  match call with
  | .guard scope agentId => codec.prepareSdwOwnerPinWrite ⟨scope,agentId,now⟩
  | .claim scope agentId => codec.prepareSdwOwnerPinWrite ⟨scope,agentId,now⟩
  | .transfer scope _ newAgentId => codec.prepareSdwOwnerPinWrite ⟨scope,newAgentId,now⟩

def OwnerCall.unsupported : OwnerCall → OwnerResult
  | .guard _ _ => .refused .ownerPinBackendUnsupported
  | _ => .unsupported

def OwnerCall.threw : OwnerCall → OwnerResult
  | .guard _ _ => .refused .ownerPinIoError
  | _ => .thrown

def OwnerCall.perform (call : OwnerCall) (stored : Option ρ) (answer : HostAnswer) (attempt : ρ → Option ρ × OwnerNext ρ) :
    Option ρ × OwnerNext ρ :=
  if answer.supported then
    match call.pinBytes codec answer.now with
    | none => (stored,.done call.threw)
    | some raw =>
      if answer.throws then (if answer.effect then (attempt raw).1 else stored,.done call.threw) else attempt raw
  else (stored,.done call.unsupported)

/-- A call under way; `began` counts the effective transfers before it, and `replaced` is what the store held when
the call's own transfer took effect. -/
structure OwnerFlight (ρ : Type) where
  call : OwnerCall
  stage : OwnerStage ρ
  began : Nat
  replaced : Option ρ

structure OwnerFinished (ρ : Type) where
  call : OwnerCall
  (began ended : Nat)
  replaced : Option ρ
  result : OwnerResult

structure OwnerWorld (ρ : Type) where
  stored : Option ρ
  transfers : Nat := 0
  flights : Nat → Option (OwnerFlight ρ) := fun _ => none
  finished : List (OwnerFinished ρ) := []

def Names (scope : OwnerScope) (agentId : String) (raw : ρ) : Prop :=
  ∃ data,codec.verifySdwOwnerPinEnvelope raw=some data ∧ data.scope=scope ∧ data.agentId=agentId

/-- Only a transfer replaces, and only bytes that name the owner the operator gave. -/
def OwnerFlight.Sound (flight : OwnerFlight ρ) : Prop :=
  match flight.call,flight.stage with
  | .transfer _ _ _,.read => True
  | .transfer scope expected _,.replace raw => Names codec scope expected raw
  | .transfer scope expected _,.reread => ∃ raw,flight.replaced=some raw ∧ Names codec scope expected raw
  | .transfer _ _ _,_ => False
  | _,.replace _ => False
  | _,_ => True

section Periods

/-- A guard of the agent was allowed, with no effective transfer while it ran. -/
def OwnerFinished.AllowedTo (f : OwnerFinished ρ) (agentId : String) : Prop :=
  f.began=f.ended ∧ f.result=.allowed ∧ ∃ scope,f.call=.guard scope agentId

structure OwnerWorld.Owned (codec : PinCodec ρ) (world : OwnerWorld ρ) : Prop where
  sound : ∀ pid flight,world.flights pid=some flight → flight.Sound codec
  past : ∀ f∈world.finished,f.ended ≤ world.transfers
  owner : ∀ f∈world.finished,∀ agentId,f.AllowedTo agentId → f.ended=world.transfers →
    ∃ raw scope,world.stored=some raw ∧ Names codec scope agentId raw
  same : ∀ f∈world.finished,∀ g∈world.finished,∀ a b,f.AllowedTo a → g.AllowedTo b → f.ended=g.ended → a=b
  named : ∀ f∈world.finished,∀ scope expected new,f.call=.transfer scope expected new → f.result=.transferred →
    ∃ raw,f.replaced=some raw ∧ Names codec scope expected raw

variable {codec} {world : OwnerWorld ρ} {flights : Nat → Option (OwnerFlight ρ)} {stored : Option ρ}

theorem Names.agent {scope scope' : OwnerScope} {a b : String} {raw : ρ} (h : Names codec scope a raw)
    (h' : Names codec scope' b raw) : a=b := by
  obtain ⟨data,hver,-,rfl⟩ := h
  obtain ⟨_,hver',-,rfl⟩ := h'
  cases hver.symm.trans hver'
  rfl

/-- The store after an operation: a transfer begins the next period, and within one an owner stays. -/
theorem OwnerWorld.Owned.store (h : world.Owned codec) (hnew : world.stored=none ∨ stored=world.stored)
    (hfl : ∀ pid flight,flights pid=some flight → flight.Sound codec) :
    { world with stored,flights }.Owned codec := by
  refine ⟨hfl,h.past,fun f hf agentId hall hend => ?_,h.same,h.named⟩
  obtain ⟨raw,scope,hraw,hname⟩ := h.owner f hf agentId hall hend
  obtain hnone | rfl := hnew
  · simp [hnone] at hraw
  · exact ⟨raw,scope,hraw,hname⟩

theorem OwnerWorld.Owned.transfer (h : world.Owned codec)
    (hfl : ∀ pid flight,flights pid=some flight → flight.Sound codec) :
    { world with stored,flights,transfers := world.transfers+1 }.Owned codec := by
  refine ⟨hfl,fun f hf => Nat.le_succ_of_le (h.past f hf),fun f hf agentId _ hend => ?_,h.same,h.named⟩
  exact absurd (hend ▸ h.past f hf) (Nat.not_succ_le_self _)

theorem OwnerWorld.Owned.finish {f : OwnerFinished ρ} (h : world.Owned codec) (hend : f.ended=world.transfers)
    (hall : ∀ agentId,f.AllowedTo agentId → ∃ raw scope,world.stored=some raw ∧ Names codec scope agentId raw)
    (hnam : ∀ scope expected new,f.call=.transfer scope expected new → f.result=.transferred →
      ∃ raw,f.replaced=some raw ∧ Names codec scope expected raw) :
    { world with finished := f::world.finished }.Owned codec := by
  have hagree : ∀ g∈world.finished,∀ a b,f.AllowedTo a → g.AllowedTo b → f.ended=g.ended → a=b := by
    intro g hg a b ha hb heq
    obtain ⟨raw,_,hraw,hname⟩ := hall a ha
    obtain ⟨raw',_,hraw',hname'⟩ := h.owner g hg b hb (heq ▸ hend)
    cases hraw.symm.trans hraw'
    exact hname.agent hname'
  refine ⟨h.sound,?_,?_,?_,?_⟩
  · exact List.forall_mem_cons.mpr ⟨Nat.le_of_eq hend,h.past⟩
  · exact List.forall_mem_cons.mpr ⟨fun agentId ha _ => hall agentId ha,h.owner⟩
  · refine List.forall_mem_cons.mpr ⟨List.forall_mem_cons.mpr ⟨?_,hagree⟩,fun g hg => List.forall_mem_cons.mpr ⟨?_,h.same g hg⟩⟩
    · rintro a b ⟨-,-,_,ha⟩ ⟨-,-,_,hb⟩ -
      cases ha.symm.trans hb
      rfl
    · exact fun a b ha hb heq => (hagree g hg b a hb ha heq.symm).symm
  · exact List.forall_mem_cons.mpr ⟨hnam,h.named⟩

theorem sound_update (pid : Nat) (next : Option (OwnerFlight ρ))
    (h : ∀ pid flight,flights pid=some flight → flight.Sound codec)
    (hnext : ∀ flight,next=some flight → flight.Sound codec) :
    ∀ other flight,Function.update flights pid next other=some flight → flight.Sound codec := by
  intro other flight hfl
  by_cases heq : other=pid
  · rw [heq,Function.update_self] at hfl
    exact hnext flight hfl
  · rw [Function.update_of_ne heq] at hfl
    exact h other flight hfl

end Periods

variable [DecidableEq ρ]

def OwnerCall.turn (call : OwnerCall) (stage : OwnerStage ρ) (stored : Option ρ) (answer : HostAnswer) :
    Option ρ × OwnerNext ρ :=
  match stage with
  | .create => call.perform codec stored answer fun raw => (stored.or (some raw),.go .reread)
  | .replace expectedRaw => call.perform codec stored answer fun raw =>
      if stored=some expectedRaw then (some raw,.go .reread) else (stored,.done .changed)
  | stage =>
    if answer.throws then (stored,.done call.threw)
    else match stage with
      | .established =>
        (stored,if answer.storeEstablished then .done (.refused .ownerPinMissingAfterEstablishment) else .go .create)
      | .reread => (stored,.done (call.conclude (readSdwOwnerPin codec stored)))
      | _ => (stored,call.begin (readSdwOwnerPin codec stored))

def OwnerCall.replaces (call : OwnerCall) (stage : OwnerStage ρ) (stored : Option ρ) (answer : HostAnswer) : Bool :=
  match stage with
  | .replace expectedRaw =>
    answer.supported && (!answer.throws || answer.effect) && (call.pinBytes codec answer.now).isSome &&
      stored=some expectedRaw
  | _ => false

inductive OwnerEvent where
  | start (pid : Nat) (call : OwnerCall)
  | act (pid : Nat) (answer : HostAnswer)

def OwnerCall.identityMissing : OwnerCall → Bool
  | .guard _ agentId => agentId.isEmpty
  | _ => false

def OwnerWorld.step (world : OwnerWorld ρ) : OwnerEvent → OwnerWorld ρ
  | .start pid call =>
    if call.identityMissing then
      let ended := ⟨call,world.transfers,world.transfers,none,.refused .ownerIdentityMissing⟩
      { world with finished := ended::world.finished }
    else { world with flights := Function.update world.flights pid (some ⟨call,.read,world.transfers,none⟩) }
  | .act pid answer =>
    match world.flights pid with
    | none => world
    | some flight =>
      let turn := flight.call.turn codec flight.stage world.stored answer
      let replaces := flight.call.replaces codec flight.stage world.stored answer
      let replaced := if replaces then world.stored else flight.replaced
      let transfers := if replaces then world.transfers+1 else world.transfers
      match turn.2 with
      | .go stage =>
        let flights := Function.update world.flights pid (some { flight with stage,replaced })
        { world with stored := turn.1,transfers,flights }
      | .done result =>
        let ended := ⟨flight.call,flight.began,transfers,replaced,result⟩
        let flights := Function.update world.flights pid none
        { stored := turn.1,transfers,flights,finished := ended::world.finished }

def OwnerWorld.run (stored : Option ρ) (events : List OwnerEvent) : OwnerWorld ρ :=
  events.foldl (OwnerWorld.step codec) { stored }

variable {codec} {world : OwnerWorld ρ} {call : OwnerCall} {stage : OwnerStage ρ} {stored : Option ρ} {answer : HostAnswer}

theorem OwnerCall.replaces_stage (h : call.replaces codec stage stored answer=true) :
    ∃ raw,stage=.replace raw ∧ stored=some raw := by
  cases stage with
  | replace raw =>
    simp only [replaces,Bool.and_eq_true,decide_eq_true_eq] at h
    exact ⟨raw,rfl,h.2⟩
  | _ => simp [replaces] at h

theorem OwnerCall.turn_stored (h : call.replaces codec stage stored answer=false) :
    (call.turn codec stage stored answer).1=stored ∨ stored=none := by
  cases stage with
  | create =>
    cases stored with
    | none => exact .inr rfl
    | some old => grind [turn,perform]
  | replace raw => grind [turn,perform,replaces]
  | _ => grind [turn]

theorem OwnerCall.turn_allowed {scope : OwnerScope} {agentId : String}
    (h : ((OwnerCall.guard scope agentId).turn codec stage stored answer).2=.done .allowed) :
    ((OwnerCall.guard scope agentId).turn codec stage stored answer).1=stored ∧
      ∃ raw,stored=some raw ∧ Names codec scope agentId raw := by
  have hread : ((OwnerCall.guard scope agentId).turn codec stage stored answer).1=stored ∧
      (OwnerCall.guard scope agentId).conclude (readSdwOwnerPin codec stored)=.allowed := by
    cases stage with
    | create => grind [turn,perform,threw,unsupported]
    | replace raw => grind [turn,perform,threw,unsupported]
    | read => cases hpin : readSdwOwnerPin codec stored <;> grind [turn,begin,threw]
    | _ => grind [turn,threw]
  obtain ⟨_,_,data,raw,heq,hpin,hdat,hage⟩ := conclude_eq_allowed hread.2
  cases heq
  obtain ⟨hraw,hver⟩ := readSdwOwnerPin_valid hpin
  exact ⟨hread.1,raw,hraw,data,hver,hdat,hage⟩

variable {flight : OwnerFlight ρ}

theorem OwnerFlight.Sound.go (h : flight.Sound codec)
    (hgo : (flight.call.turn codec flight.stage stored answer).2=.go stage) :
    { flight with
      stage
      replaced := if flight.call.replaces codec flight.stage stored answer then stored else flight.replaced
    }.Sound codec := by
  obtain ⟨call,now,began,replaced⟩ := flight
  cases call with
  | transfer scope expected new =>
    cases now with
    | read =>
      cases hpin : readSdwOwnerPin codec stored with
      | valid data raw =>
        obtain ⟨-,hver⟩ := readSdwOwnerPin_valid hpin
        grind [turn,begin,Sound,Names]
      | _ => grind [turn,begin]
    | replace raw => grind [turn,perform,replaces,Sound]
    | reread => grind [turn]
    | _ => exact h.elim
  | _ =>
    cases now with
    | replace raw => exact h.elim
    | read => cases hpin : readSdwOwnerPin codec stored <;> grind [turn,begin,Sound]
    | _ => grind [turn,perform,Sound]

theorem OwnerFlight.Sound.transferred (h : flight.Sound codec)
    (hdone : (flight.call.turn codec flight.stage stored answer).2=.done .transferred)
    {scope : OwnerScope} {expected new : String} (hcall : flight.call=.transfer scope expected new) :
    flight.call.replaces codec flight.stage stored answer=false ∧
      ∃ raw,flight.replaced=some raw ∧ Names codec scope expected raw := by
  obtain ⟨call,now,began,replaced⟩ := flight
  cases hcall
  cases now with
  | reread => exact ⟨rfl,h⟩
  | read => cases hpin : readSdwOwnerPin codec stored <;> grind [turn,begin,threw]
  | replace raw => grind [turn,perform,threw,unsupported]
  | _ => exact h.elim

theorem OwnerWorld.Owned.step (h : world.Owned codec) (event : OwnerEvent) : (world.step codec event).Owned codec := by
  cases event with
  | start pid call =>
    rw [OwnerWorld.step]
    split_ifs
    · exact h.finish rfl (fun _ ⟨_,hres,_⟩ => by cases hres) (fun _ _ _ _ hres => by cases hres)
    · refine h.store (.inr rfl) (sound_update pid _ h.sound ?_)
      rintro flight ⟨⟩
      cases call <;> trivial
  | act pid answer =>
    rw [OwnerWorld.step]
    cases hfl : world.flights pid with
    | none => exact h
    | some flight =>
      dsimp only
      have hsound := h.sound pid flight hfl
      have hstore : ∀ {flights},(∀ pid flight,flights pid=some flight → flight.Sound codec) →
          { world with
            stored := (flight.call.turn codec flight.stage world.stored answer).1
            flights
            transfers := if flight.call.replaces codec flight.stage world.stored answer then world.transfers+1
              else world.transfers }.Owned codec := by
        intro flights hfls
        cases hrep : flight.call.replaces codec flight.stage world.stored answer with
        | true => exact h.transfer hfls
        | false => exact h.store (turn_stored hrep).symm hfls
      cases hgo : (flight.call.turn codec flight.stage world.stored answer).2 with
      | go stage => exact hstore (sound_update pid _ h.sound fun _ hsome => Option.some.inj hsome ▸ hsound.go hgo)
      | done result =>
        refine (hstore (sound_update pid none h.sound (by simp))).finish rfl ?_ ?_
        · rintro agentId ⟨-,rfl,scope,hcall⟩
          dsimp only at hcall
          rw [hcall] at hgo ⊢
          obtain ⟨hsto,raw,hraw,hname⟩ := turn_allowed hgo
          exact ⟨raw,scope,hsto.trans hraw,hname⟩
        · rintro scope expected new hcall rfl
          obtain ⟨hrep,hnamed⟩ := hsound.transferred hgo hcall
          simpa [hrep] using hnamed

theorem OwnerWorld.Owned.run (codec : PinCodec ρ) (stored : Option ρ) (events : List OwnerEvent) :
    (OwnerWorld.run codec stored events).Owned codec := by
  unfold OwnerWorld.run
  generalize hw : ({ stored } : OwnerWorld ρ)=world
  have h : world.Owned codec := by
    subst hw
    exact ⟨by simp,by simp,by simp,by simp,by simp⟩
  clear hw
  induction events generalizing world with
  | nil => exact h
  | cons event events ih => exact ih _ (h.step event)

/-- Whatever the store held and however the calls interleave: the guards allowed within one period between
effective transfers are of one agent, a claim leaves an owner that is there, and a transfer reported as made
replaced the owner it was to replace. -/
theorem one_owner_per_scope (codec : PinCodec ρ) (stored : Option ρ) (events : List OwnerEvent) :
    let world := OwnerWorld.run codec stored events
    (∀ f∈world.finished,∀ g∈world.finished,∀ a b,f.AllowedTo a → g.AllowedTo b → f.ended=g.ended → a=b) ∧
      (∀ pid flight scope agentId,world.flights pid=some flight → flight.call=.claim scope agentId →
        ∀ answer,world.stored≠none → (world.step codec (.act pid answer)).stored=world.stored) ∧
      ∀ f∈world.finished,∀ scope expected new,f.call=.transfer scope expected new → f.result=.transferred →
        ∃ raw,f.replaced=some raw ∧ Names codec scope expected raw := by
  intro world
  have h : world.Owned codec := OwnerWorld.Owned.run codec stored events
  refine ⟨h.same,fun pid flight scope agentId hfl hcal answer hsom => ?_,h.named⟩
  have hrep : flight.call.replaces codec flight.stage world.stored answer=false := by
    rw [Bool.eq_false_iff]
    intro hrep
    obtain ⟨raw,hsta,-⟩ := replaces_stage hrep
    have hsou := h.sound pid flight hfl
    rw [OwnerFlight.Sound,hcal,hsta] at hsou
    exact hsou
  have hkep := (turn_stored hrep).resolve_right hsom
  rw [OwnerWorld.step,hfl]
  dsimp only
  split <;> exact hkep

end CastleWall.Sdw
