import Mathlib.Data.List.Nodup

/-! # Calls that take turns

Calls of one process share a memory. A call runs without interruption until it waits, for something outside or for the
record to be written; what is written is the memory as it is when the call begins to wait. Writes are made one after
another in that order, each merged into the record, and a call goes on some time after its own write has ended. A
process that starts again has the record only. -/

namespace CastleWall.Cooperative

inductive Next (κ ω : Type) where
  | returns (answer : ω)
  | waits (call : κ)
  | writes (call : κ)

variable {ρ β σ δ κ μ ω : Type}

def Next.suspends : Next κ ω → Option κ
  | .returns _ => none
  | .waits call => some call
  | .writes call => some call

/-- What a call does between two waits. The marks are what it leaves for the calls that are suspended meanwhile. -/
structure Turn (σ κ μ ω : Type) where
  memory : σ
  next : Next κ ω
  marks : List μ

structure Reply where
  ok : Bool
  now : Int

structure Host (ρ β σ δ κ μ ω : Type) where
  begin : ρ → σ → Turn σ κ μ ω
  resume : κ → Reply → σ → Turn σ κ μ ω
  snapshot : σ → δ
  merge : δ → δ → δ
  boot : β → δ → σ

inductive Outcome where
  | done
  | failed
  | failedAfter
deriving DecidableEq

inductive Stage (δ : Type) where
  | waiting
  | queued (snapshot : δ)
  | settled (snapshot : δ) (ok : Bool)

def Stage.snapshot : Stage δ → Option δ
  | .waiting => none
  | .queued snapshot => some snapshot
  | .settled snapshot _ => some snapshot

structure Suspended (δ κ μ : Type) where
  call : κ
  /-- The marks of the other calls since this one began. -/
  seen : List μ
  stage : Stage δ

structure World (σ δ κ μ ω : Type) where
  memory : σ
  record : δ
  /-- In the order in which they began to wait. -/
  suspended : List (Suspended δ κ μ)
  answers : List ω
  /-- The calls that went on after a write that was done, with what they wrote. -/
  saved : List (κ × δ)

inductive Event (ρ β : Type) where
  | call (request : ρ)
  | resume (i : Nat) (reply : Reply)
  | write (outcome : Outcome)
  | restart (boot : β) (took : Bool)

namespace Suspended

def see (marks : List μ) (s : Suspended δ κ μ) : Suspended δ κ μ := { s with seen := s.seen++marks }

@[simp]
theorem see_call (marks : List μ) (s : Suspended δ κ μ) : (s.see marks).call=s.call := rfl

@[simp]
theorem see_stage (marks : List μ) (s : Suspended δ κ μ) : (s.see marks).stage=s.stage := rfl

@[simp]
theorem see_seen (marks : List μ) (s : Suspended δ κ μ) : (s.see marks).seen=s.seen++marks := rfl

variable (s : Suspended δ κ μ)

def view : κ × List μ := (s.call,s.seen)

/-- The reply a suspended call goes on with: that of its write, where it waits for one. -/
def replyOf (reply : Reply) : Option Reply :=
  match s.stage with
  | .waiting => some reply
  | .queued _ => none
  | .settled _ ok => some { reply with ok }

def written : Option (κ × δ) :=
  match s.stage with
  | .settled snapshot true => some (s.call,snapshot)
  | _ => none

end Suspended

namespace World

variable (host : Host ρ β σ δ κ μ ω)

def start (memory : σ) (record : δ) : World σ δ κ μ ω := ⟨memory,record,[],[],[]⟩

def resuspend (seen : List μ) (turn : Turn σ κ μ ω) : List (Suspended δ κ μ) :=
  match turn.next with
  | .returns _ => []
  | .waits call => [⟨call,seen,.waiting⟩]
  | .writes call => [⟨call,seen,.queued (host.snapshot turn.memory)⟩]

def answered (turn : Turn σ κ μ ω) : List ω :=
  match turn.next with
  | .returns answer => [answer]
  | _ => []

def take (world : World σ δ κ μ ω) (others : List (Suspended δ κ μ)) (seen : List μ) (turn : Turn σ κ μ ω) :
    World σ δ κ μ ω where
  memory := turn.memory
  record := world.record
  suspended := others.map (Suspended.see turn.marks)++resuspend host seen turn
  answers := world.answers++answered turn
  saved := world.saved

def call (world : World σ δ κ μ ω) (request : ρ) : World σ δ κ μ ω :=
  world.take host world.suspended [] (host.begin request world.memory)

def resume (world : World σ δ κ μ ω) (i : Nat) (reply : Reply) : World σ δ κ μ ω :=
  match world.suspended[i]? with
  | none => world
  | some s =>
    match s.replyOf reply with
    | none => world
    | some reply =>
      { world with saved := world.saved++s.written.toList }.take host (world.suspended.eraseIdx i) s.seen
        (host.resume s.call reply world.memory)

def writeFirst (outcome : Outcome) (record : δ) : List (Suspended δ κ μ) → δ × List (Suspended δ κ μ)
  | [] => (record,[])
  | s::rest =>
    match s.stage with
    | .queued snapshot =>
      (if outcome=.failed then record else host.merge record snapshot,
        { s with stage := .settled snapshot (outcome=.done) } :: rest)
    | _ => ((writeFirst outcome record rest).1,s::(writeFirst outcome record rest).2)

def write (world : World σ δ κ μ ω) (outcome : Outcome) : World σ δ κ μ ω :=
  { world with
    record := (writeFirst host outcome world.record world.suspended).1
    suspended := (writeFirst host outcome world.record world.suspended).2 }

def restart (world : World σ δ κ μ ω) (boot : β) (took : Bool) : World σ δ κ μ ω :=
  let record := (writeFirst host (if took then .failedAfter else .failed) world.record world.suspended).1
  { world with memory := host.boot boot record, record, suspended := [] }

def step (world : World σ δ κ μ ω) : Event ρ β → World σ δ κ μ ω
  | .call request => world.call host request
  | .resume i reply => world.resume host i reply
  | .write outcome => world.write host outcome
  | .restart boot took => world.restart host boot took

def run (world : World σ δ κ μ ω) (events : List (Event ρ β)) : World σ δ κ μ ω := events.foldl (step host) world

def Runs (allowed : World σ δ κ μ ω → Event ρ β → Prop) : World σ δ κ μ ω → List (Event ρ β) → Prop
  | _, [] => True
  | world, event::events => allowed world event ∧ Runs allowed (world.step host event) events

end World

section Runs

open World

variable {host : Host ρ β σ δ κ μ ω} {world : World σ δ κ μ ω} {allowed : World σ δ κ μ ω → Event ρ β → Prop}

theorem run_cons (event : Event ρ β) (events : List (Event ρ β)) :
    world.run host (event::events)=(world.step host event).run host events := rfl

theorem runs_append {first second : List (Event ρ β)} :
    Runs host allowed world (first++second) ↔
      Runs host allowed world first ∧ Runs host allowed (world.run host first) second := by
  induction first generalizing world with
  | nil => simp [Runs,World.run]
  | cons event rest ih =>
    simp only [List.cons_append,Runs,run_cons]
    rw [ih,and_assoc]

theorem World.Runs.invariant {Inv : World σ δ κ μ ω → Prop}
    (hste : ∀ w e, Inv w → allowed w e → Inv (w.step host e)) {events : List (Event ρ β)}
    (hrun : Runs host allowed world events) (hsta : Inv world) : Inv (world.run host events) := by
  induction events generalizing world with
  | nil => exact hsta
  | cons event rest ih => exact ih hrun.2 (hste world event hsta hrun.1)

theorem World.Runs.relates {Inv : World σ δ κ μ ω → Prop} {R : World σ δ κ μ ω → World σ δ κ μ ω → Prop}
    (href : ∀ w, R w w) (htra : ∀ u v w, R u v → R v w → R u w)
    (hste : ∀ w e, Inv w → allowed w e → Inv (w.step host e) ∧ R w (w.step host e)) {events : List (Event ρ β)}
    (hrun : Runs host allowed world events) (hsta : Inv world) : R world (world.run host events) := by
  induction events generalizing world with
  | nil => exact href world
  | cons event rest ih =>
    have hfir := hste world event hsta hrun.1
    exact htra _ _ _ hfir.2 (ih hrun.2 hfir.1)

theorem writeFirst_cases (host : Host ρ β σ δ κ μ ω) (outcome : Outcome) (record : δ)
    (suspended : List (Suspended δ κ μ)) :
    writeFirst host outcome record suspended=(record,suspended) ∨
      ∃ pre s post snapshot, suspended=pre++s::post ∧ s.stage=.queued snapshot ∧
        writeFirst host outcome record suspended =
          (if outcome=.failed then record else host.merge record snapshot,
            pre ++ { s with stage := .settled snapshot (outcome=.done) } :: post) := by
  induction suspended with
  | nil => exact .inl rfl
  | cons s rest ih =>
    cases hsta : s.stage with
    | queued snapshot => exact .inr ⟨[],s,rest,snapshot,rfl,hsta,by simp [writeFirst,hsta]⟩
    | waiting | settled =>
      have hres : writeFirst host outcome record (s::rest) =
          ((writeFirst host outcome record rest).1,s::(writeFirst host outcome record rest).2) := by
        simp [writeFirst,hsta]
      obtain h | ⟨pre,s',post,snapshot,hlis,hque,h⟩ := ih
      · exact .inl (by rw [hres,h])
      · exact .inr ⟨s::pre,s',post,snapshot,by rw [hlis,List.cons_append],hque,by rw [hres,h]; rfl⟩

theorem writeFirst_view (host : Host ρ β σ δ κ μ ω) (outcome : Outcome) (record : δ)
    (suspended : List (Suspended δ κ μ)) :
    (writeFirst host outcome record suspended).2.map Suspended.view=suspended.map Suspended.view := by
  obtain h | ⟨pre,s,post,snapshot,hlis,hque,h⟩ := writeFirst_cases host outcome record suspended
  · rw [h]
  · rw [h,hlis]
    simp [Suspended.view]

/-- What is suspended after a turn: the others, and the call itself where it is not done. -/
theorem view_take (host : Host ρ β σ δ κ μ ω) (world : World σ δ κ μ ω) (others : List (Suspended δ κ μ))
    (seen : List μ) (turn : Turn σ κ μ ω) :
    (world.take host others seen turn).suspended.map Suspended.view =
      (others.map Suspended.view).map (fun p => (p.1,p.2++turn.marks)) ++
        turn.next.suspends.toList.map fun call => (call,seen) := by
  simp only [World.take,List.map_append,List.map_map]
  congr 1
  cases hnex : turn.next <;> simp [World.resuspend,Next.suspends,Suspended.view,hnex]

theorem resume_cases (host : Host ρ β σ δ κ μ ω) (world : World σ δ κ μ ω) (i : Nat) (reply : Reply) :
    world.resume host i reply=world ∨
      ∃ pre s post told, world.suspended=pre++s::post ∧ s.replyOf reply=some told ∧
        world.suspended[i]? = some s ∧
        world.resume host i reply =
          { world with saved := world.saved++s.written.toList }.take host (pre++post) s.seen
            (host.resume s.call told world.memory) := by
  cases hs : world.suspended[i]? with
  | none => exact .inl (by simp [World.resume,hs])
  | some s =>
    cases htol : s.replyOf reply with
    | none => exact .inl (by simp [World.resume,hs,htol])
    | some told =>
      obtain ⟨hi,hget⟩ := List.getElem?_eq_some_iff.mp hs
      refine .inr ⟨world.suspended.take i,s,world.suspended.drop (i+1),told,?_,htol,rfl,?_⟩
      · rw [← hget]
        exact (List.take_append_drop i _).symm.trans (by rw [List.drop_eq_getElem_cons hi])
      · simp [World.resume,hs,htol,List.eraseIdx_eq_take_drop_succ]

structure Recorded (R : δ → δ → Prop) (world : World σ δ κ μ ω) : Prop where
  saved : ∀ entry∈world.saved, R world.record entry.2
  settled : ∀ s∈world.suspended, ∀ snapshot, s.stage=.settled snapshot true → R world.record snapshot

theorem Recorded.start (R : δ → δ → Prop) (memory : σ) (record : δ) :
    Recorded R (World.start memory record : World σ δ κ μ ω) :=
  ⟨fun _ h => absurd h List.not_mem_nil,fun _ h => absurd h List.not_mem_nil⟩

/-- After a turn only those that were suspended are settled. -/
theorem settled_take {others : List (Suspended δ κ μ)} {seen : List μ} {turn : Turn σ κ μ ω} {s : Suspended δ κ μ}
    {snapshot : δ} (hs : s∈(world.take host others seen turn).suspended) (hsta : s.stage=.settled snapshot true) :
    ∃ before∈others, before.stage=.settled snapshot true := by
  rcases List.mem_append.mp hs with hs | hs
  · obtain ⟨before,hbef,rfl⟩ := List.mem_map.mp hs
    exact ⟨before,hbef,hsta⟩
  · unfold World.resuspend at hs
    split at hs
    · cases hs
    · cases List.mem_singleton.mp hs
      cases hsta
    · cases List.mem_singleton.mp hs
      cases hsta

theorem Recorded.step {R : δ → δ → Prop} (hnew : ∀ base next, R (host.merge base next) next)
    (hold : ∀ base next snapshot, R base snapshot → R (host.merge base next) snapshot) (h : Recorded R world)
    (event : Event ρ β) : Recorded R (world.step host event) := by
  have hwri : ∀ outcome snapshot, R world.record snapshot →
      R (writeFirst host outcome world.record world.suspended).1 snapshot := by
    intro outcome snapshot hsna
    obtain heq | ⟨pre,s,post,next,-,-,heq⟩ := writeFirst_cases host outcome world.record world.suspended
    · rw [heq]
      exact hsna
    · rw [heq]
      dsimp only
      split_ifs
      · exact hsna
      · exact hold _ _ _ hsna
  cases event with
  | call request =>
    refine ⟨h.saved,?_⟩
    intro s hs snapshot hsta
    obtain ⟨before,hbef,hset⟩ := settled_take hs hsta
    exact h.settled before hbef snapshot hset
  | resume i reply =>
    obtain heq | ⟨pre,s,post,told,hlis,htol,-,heq⟩ := resume_cases host world i reply
    · change Recorded R (world.resume host i reply)
      rw [heq]
      exact h
    · change Recorded R (world.resume host i reply)
      rw [heq]
      refine ⟨?_,?_⟩
      · intro entry hent
        rcases List.mem_append.mp hent with hent | hent
        · exact h.saved entry hent
        · unfold Suspended.written at hent
          split at hent
          · next snapshot hsta =>
            cases List.mem_singleton.mp hent
            exact h.settled s (hlis ▸ List.mem_append_right _ List.mem_cons_self) snapshot hsta
          · cases hent
      · intro other hoth snapshot hsta
        obtain ⟨before,hbef,hset⟩ := settled_take hoth hsta
        refine h.settled before ?_ snapshot hset
        rw [hlis]
        rcases List.mem_append.mp hbef with hbef | hbef
        · exact List.mem_append_left _ hbef
        · exact List.mem_append_right _ (List.mem_cons_of_mem s hbef)
  | write outcome =>
    refine ⟨fun entry hent => hwri outcome entry.2 (h.saved entry hent),?_⟩
    intro other hoth snapshot hsta
    obtain heq | ⟨pre,s,post,next,hlis,hque,heq⟩ := writeFirst_cases host outcome world.record world.suspended
    · change other∈(writeFirst host outcome world.record world.suspended).2 at hoth
      rw [heq] at hoth
      exact hwri outcome snapshot (h.settled other hoth snapshot hsta)
    · change other∈(writeFirst host outcome world.record world.suspended).2 at hoth
      rw [heq] at hoth
      have hres : other∈pre++post → R (writeFirst host outcome world.record world.suspended).1 snapshot := by
        intro hmem
        refine hwri outcome snapshot (h.settled other ?_ snapshot hsta)
        rw [hlis]
        rcases List.mem_append.mp hmem with hmem | hmem
        · exact List.mem_append_left _ hmem
        · exact List.mem_append_right _ (List.mem_cons_of_mem s hmem)
      rcases List.mem_append.mp hoth with hoth | hoth
      · exact hres (List.mem_append_left _ hoth)
      · rcases List.mem_cons.mp hoth with rfl | hoth
        · -- The write that has just ended, and was done.
          simp only [Stage.settled.injEq,decide_eq_true_eq] at hsta
          obtain ⟨rfl,rfl⟩ := hsta
          change R (writeFirst host .done world.record world.suspended).1 _
          rw [heq]
          exact hnew _ _
        · exact hres (List.mem_append_right _ hoth)
  | restart boot took =>
    refine ⟨fun entry hent => hwri _ entry.2 (h.saved entry hent),?_⟩
    intro s hs
    cases hs

end Runs

end CastleWall.Cooperative
