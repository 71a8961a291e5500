import Mathlib.Data.List.Nodup
import Mathlib.Data.List.Perm.Basic
import Mathlib.Data.Int.Order.Basic
import Mathlib.Order.Basic

/-! # Gates that let each slot through once

Requests of one process share a set in memory. A request changes the set at once, then has the whole set written, and
is let through when the write is reported; a write that failed is taken back. Writes are made one after another, each
of the set as it is when the write begins, and a process that starts again reads the set back. -/

namespace CastleWall.SingleUse

structure Gate (ρ σ τ : Type) where
  empty : σ
  /-- The clock when the request was made. -/
  time : ρ → Int
  /-- What a request does before its write; the number is that of the requests before it. -/
  enter : Nat → ρ → σ → σ × Option τ
  /-- A write that failed is taken back. -/
  undo : τ → σ → σ
  /-- What a process keeps of the record it reads. -/
  load : Int → σ → σ

inductive Phase where
  | idle
  | loading (now : Int)
  | ready
  | failed
deriving DecidableEq

inductive Outcome where
  | done
  | failed
  | failedAfter
deriving DecidableEq

structure World (ρ σ τ : Type) where
  record : σ
  phase : Phase
  memory : σ
  /-- Requests that wait for the record to be read, in the order they were made. -/
  waiting : List ρ
  pending : List τ
  /-- The write that is under way, with what is written. -/
  writing : Option (τ × σ)
  /-- Writes that have ended, whose requests have not gone on. -/
  settled : List (τ × Bool)
  passed : List τ
  clock : Int
  arrived : List ρ
  entered : Nat
  /-- The last time at which anything was dropped from the set. -/
  swept : Int

inductive Event (ρ : Type) where
  | arrive (request : ρ)
  | read (ok : Bool)
  | resume
  | begin
  | finish (outcome : Outcome)
  | settle (i : Nat)
  | restart (took : Bool)

variable {ρ σ τ κ : Type}

namespace World

def start (gate : Gate ρ σ τ) (clock : Int) : World ρ σ τ :=
  ⟨gate.empty,.idle,gate.empty,[],[],none,[],[],clock,[],0,clock⟩

def arrive (gate : Gate ρ σ τ) (world : World ρ σ τ) (request : ρ) : World ρ σ τ :=
  { world with
    phase := if world.phase=.idle then .loading (gate.time request) else world.phase
    waiting := world.waiting++[request]
    clock := gate.time request
    arrived := world.arrived++[request] }

def read (gate : Gate ρ σ τ) (world : World ρ σ τ) (ok : Bool) : World ρ σ τ :=
  match world.phase with
  | .loading now =>
    if ok then { world with phase := .ready, memory := gate.load now world.record, swept := now }
    else { world with phase := .failed }
  | _ => world

def resume (gate : Gate ρ σ τ) (world : World ρ σ τ) : World ρ σ τ :=
  match world.waiting with
  | [] => world
  | request::rest =>
    match world.phase with
    | .ready =>
      { world with
        memory := (gate.enter world.entered request world.memory).1
        waiting := rest
        pending := world.pending++(gate.enter world.entered request world.memory).2.toList
        entered := world.entered+1
        swept := gate.time request }
    | .failed => { world with waiting := rest }
    | _ => world

def begin (world : World ρ σ τ) : World ρ σ τ :=
  match world.writing, world.pending with
  | none, ticket::rest => { world with pending := rest, writing := some (ticket,world.memory) }
  | _, _ => world

def finish (world : World ρ σ τ) (outcome : Outcome) : World ρ σ τ :=
  match world.writing with
  | none => world
  | some (ticket,written) =>
    { world with
      record := if outcome=.failed then world.record else written
      writing := none
      settled := world.settled++[(ticket,decide (outcome=Outcome.done))] }

def settle (gate : Gate ρ σ τ) (world : World ρ σ τ) (i : Nat) : World ρ σ τ :=
  match world.settled[i]? with
  | none => world
  | some (ticket,ok) =>
    if ok then { world with settled := world.settled.eraseIdx i, passed := world.passed++[ticket] }
    else { world with settled := world.settled.eraseIdx i, memory := gate.undo ticket world.memory }

/-- The process is gone, and with it all but the record; a write that was under way may have taken effect. -/
def restart (gate : Gate ρ σ τ) (world : World ρ σ τ) (took : Bool) : World ρ σ τ :=
  { world with
    record := match world.writing with
      | some (_,written) => if took then written else world.record
      | none => world.record
    phase := .idle
    memory := gate.empty
    waiting := []
    pending := []
    writing := none
    settled := [] }

def step (gate : Gate ρ σ τ) (world : World ρ σ τ) : Event ρ → World ρ σ τ
  | .arrive request => world.arrive gate request
  | .read ok => world.read gate ok
  | .resume => world.resume gate
  | .begin => world.begin
  | .finish outcome => world.finish outcome
  | .settle i => world.settle gate i
  | .restart took => world.restart gate took

def run (gate : Gate ρ σ τ) (world : World ρ σ τ) (events : List (Event ρ)) : World ρ σ τ :=
  events.foldl (step gate) world

end World

/-- A ticket's slot is held in the set until it is over, and while it is held no other ticket has it. -/
structure Sound (gate : Gate ρ σ τ) (slot : τ → Option κ) (source : τ → ρ) (Held : τ → σ → Prop) (Over : τ → Int → Prop)
    (Good : Nat → σ → Prop) (Old : Nat → τ → Prop) (Fits : ρ → ρ → Prop) : Prop where
  over_mono : ∀ {t n m}, Over t n → n ≤ m → Over t m
  good_empty : ∀ n, Good n gate.empty
  good_succ : ∀ {n s}, Good n s → Good (n+1) s
  old_succ : ∀ {n t}, Old n t → Old (n+1) t
  enter_good : ∀ {n r s}, Good n s → Good (n+1) (gate.enter n r s).1
  undo_good : ∀ {n t s}, Good n s → Good n (gate.undo t s)
  load_good : ∀ {n now s}, Good n s → Good n (gate.load now s)
  enter_source : ∀ {n r s t}, (gate.enter n r s).2=some t → source t=r
  enter_old : ∀ {n r s t}, Good n s → (gate.enter n r s).2=some t → Old (n+1) t
  enter_held : ∀ {n r s t}, Good n s → (gate.enter n r s).2=some t → Held t (gate.enter n r s).1
  enter_keeps : ∀ {n r s t}, Old n t → Held t s → Held t (gate.enter n r s).1 ∨ Over t (gate.time r)
  enter_once : ∀ {n r s t t' k}, (gate.enter n r s).2=some t' → slot t=some k → slot t'=some k → Held t s →
    Over t (gate.time r)
  fits : ∀ {n r s t t' k}, (gate.enter n r s).2=some t' → slot t=some k → slot t'=some k → Fits (source t) r →
    ¬ Over t (gate.time r)
  undo_keeps : ∀ {t t' s}, (∀ k, slot t'=some k → slot t≠some k) → Held t s → Held t (gate.undo t' s)
  load_keeps : ∀ {now t s}, Held t s → Held t (gate.load now s) ∨ Over t now

/-- The clock does not go back, and a request fits those before it. -/
def Admissible (gate : Gate ρ σ τ) (Fits : ρ → ρ → Prop) (world : World ρ σ τ) : Event ρ → Prop
  | .arrive request => world.clock ≤ gate.time request ∧ ∀ earlier∈world.arrived, Fits earlier request
  | _ => True

def AdmissibleRun (gate : Gate ρ σ τ) (Fits : ρ → ρ → Prop) (world : World ρ σ τ) : List (Event ρ) → Prop
  | [] => True
  | event::events => Admissible gate Fits world event ∧ AdmissibleRun gate Fits (world.step gate event) events

namespace World

variable (world : World ρ σ τ)

def active : List τ := world.pending++(world.writing.map Prod.fst).toList++world.settled.map Prod.fst

def tickets : List τ := world.active++world.passed

def committed : List τ := (world.settled.filter (·.2)).map Prod.fst++world.passed

end World

section Invariant

variable {gate : Gate ρ σ τ} {slot : τ → Option κ} {source : τ → ρ} {Held : τ → σ → Prop} {Over : τ → Int → Prop}
  {Good : Nat → σ → Prop} {Old : Nat → τ → Prop} {Fits : ρ → ρ → Prop}

structure Holding (Held : τ → σ → Prop) (Over : τ → Int → Prop) (Good : Nat → σ → Prop) (entered : Nat) (swept : Int)
    (s : σ) (ts : List τ) : Prop where
  good : Good entered s
  closed : ∀ t∈ts, Held t s ∨ Over t swept

structure InOrder (gate : Gate ρ σ τ) (Fits : ρ → ρ → Prop) (world : World ρ σ τ) : Prop where
  times : world.waiting.Pairwise fun r r' => gate.time r ≤ gate.time r'
  fits : world.waiting.Pairwise Fits
  swept : ∀ r∈world.waiting, world.swept ≤ gate.time r
  clock : ∀ r∈world.waiting, gate.time r ≤ world.clock
  arrived : ∀ r∈world.waiting, r∈world.arrived
  swept_clock : world.swept ≤ world.clock
  idle : world.phase=.idle → world.waiting=[]
  loading : ∀ now, world.phase=.loading now → world.swept ≤ now ∧ now ≤ world.clock ∧
    ∀ r∈world.waiting, now ≤ gate.time r

structure Inv (gate : Gate ρ σ τ) (slot : τ → Option κ) (source : τ → ρ) (Held : τ → σ → Prop) (Over : τ → Int → Prop)
    (Good : Nat → σ → Prop) (Old : Nat → τ → Prop) (Fits : ρ → ρ → Prop) (world : World ρ σ τ) : Prop where
  nodup : (world.tickets.filterMap slot).Nodup
  quiet : world.phase≠.ready → world.active=[]
  order : InOrder gate Fits world
  source : ∀ t∈world.tickets, source t∈world.arrived ∧ Old world.entered t ∧ ∀ r∈world.waiting, Fits (source t) r
  memory : world.phase=.ready → Holding Held Over Good world.entered world.swept world.memory world.tickets
  record : Holding Held Over Good world.entered world.swept world.record world.committed
  written : ∀ ticket written, world.writing=some (ticket,written) →
    Holding Held Over Good world.entered world.swept written (ticket::world.committed)

variable {entered : Nat} {swept : Int} {s : σ} {ts : List τ}

theorem Holding.subset {ts' : List τ}
    (h : Holding Held Over Good entered swept s ts) (hsub : ∀ t∈ts', t∈ts) :
    Holding Held Over Good entered swept s ts' :=
  ⟨h.good,fun t ht => h.closed t (hsub t ht)⟩

theorem committed_subset (world : World ρ σ τ) : ∀ t∈world.committed, t∈world.tickets := by
  intro t ht
  rcases List.mem_append.mp ht with ht | ht
  · obtain ⟨entry,hent,rfl⟩ := List.mem_map.mp ht
    exact List.mem_append_left _ (List.mem_append_right _ (List.mem_map_of_mem (List.mem_of_mem_filter hent)))
  · exact List.mem_append_right _ ht

theorem Holding.sweep (sound : Sound gate slot source Held Over Good Old Fits) {swept' : Int} (h : Holding Held Over Good entered swept s ts) (hle : swept ≤ swept') :
    Holding Held Over Good entered swept' s ts :=
  ⟨h.good,fun t ht => (h.closed t ht).imp_right fun hove => sound.over_mono hove hle⟩

theorem Holding.load (sound : Sound gate slot source Held Over Good Old Fits) {now : Int} (h : Holding Held Over Good entered swept s ts) (hle : swept ≤ now) :
    Holding Held Over Good entered now (gate.load now s) ts := by
  refine ⟨sound.load_good h.good,fun t ht => ?_⟩
  rcases h.closed t ht with hhel | hove
  · exact sound.load_keeps hhel
  · exact .inr (sound.over_mono hove hle)

theorem inv_start (sound : Sound gate slot source Held Over Good Old Fits) (clock : Int) :
    Inv gate slot source Held Over Good Old Fits (World.start gate clock) where
  nodup := List.nodup_nil
  quiet := fun _ => rfl
  order := ⟨.nil,.nil,by simp [World.start],by simp [World.start],by simp [World.start],le_refl _,fun _ => rfl,by
    intro now hnow
    cases hnow⟩
  source := by simp [World.tickets,World.active,World.start]
  memory := by
    intro hrea
    cases hrea
  record := ⟨sound.good_empty _,by simp [World.committed,World.start]⟩
  written := by
    intro ticket written hwri
    cases hwri

variable {world : World ρ σ τ}

theorem Inv.arrive (h : Inv gate slot source Held Over Good Old Fits world) {request : ρ}
    (hclo : world.clock ≤ gate.time request) (hfit : ∀ earlier∈world.arrived, Fits earlier request) :
    Inv gate slot source Held Over Good Old Fits (world.arrive gate request) := by
  have hrea : (world.arrive gate request).phase=.ready → world.phase=.ready := by
    intro hpha
    by_cases hidl : world.phase=.idle
    · rw [World.arrive,if_pos hidl] at hpha
      cases hpha
    · rwa [World.arrive,if_neg hidl] at hpha
  refine ⟨h.nodup,?_,?_,?_,fun hpha => h.memory (hrea hpha),h.record,h.written⟩
  · intro hpha
    apply h.quiet
    intro hwas
    exact hpha (by simp [World.arrive,hwas])
  · refine ⟨?_,?_,?_,?_,?_,h.order.swept_clock.trans hclo,?_,?_⟩
    · refine List.pairwise_append.mpr ⟨h.order.times,List.pairwise_singleton _ _,?_⟩
      intro r hr r' hr'
      rw [List.mem_singleton.mp hr']
      exact (h.order.clock r hr).trans hclo
    · refine List.pairwise_append.mpr ⟨h.order.fits,List.pairwise_singleton _ _,?_⟩
      intro r hr r' hr'
      rw [List.mem_singleton.mp hr']
      exact hfit r (h.order.arrived r hr)
    · refine List.forall_mem_append.mpr ⟨h.order.swept,fun r hr => ?_⟩
      rw [List.mem_singleton.mp hr]
      exact h.order.swept_clock.trans hclo
    · refine List.forall_mem_append.mpr ⟨fun r hr => (h.order.clock r hr).trans hclo,?_⟩
      simp [World.arrive]
    · refine List.forall_mem_append.mpr ⟨fun r hr => List.mem_append_left _ (h.order.arrived r hr),?_⟩
      simp [World.arrive]
    · intro hpha
      by_cases hidl : world.phase=.idle
      · rw [World.arrive,if_pos hidl] at hpha
        cases hpha
      · rw [World.arrive,if_neg hidl] at hpha
        exact absurd hpha hidl
    · intro now hnow
      by_cases hidl : world.phase=.idle
      · rw [World.arrive,if_pos hidl] at hnow
        cases hnow
        refine ⟨h.order.swept_clock.trans hclo,le_refl _,?_⟩
        simp [World.arrive,h.order.idle hidl]
      · rw [World.arrive,if_neg hidl] at hnow
        obtain ⟨hswe,hbef,hwai⟩ := h.order.loading now hnow
        refine ⟨hswe,hbef.trans hclo,List.forall_mem_append.mpr ⟨hwai,?_⟩⟩
        simpa using hbef.trans hclo
  · intro t ht
    obtain ⟨hsou,hold,hwai⟩ := h.source t ht
    refine ⟨List.mem_append_left _ hsou,hold,List.forall_mem_append.mpr ⟨hwai,?_⟩⟩
    simpa using hfit _ hsou

theorem Inv.read (sound : Sound gate slot source Held Over Good Old Fits)
    (h : Inv gate slot source Held Over Good Old Fits world) (ok : Bool) :
    Inv gate slot source Held Over Good Old Fits (world.read gate ok) := by
  rw [World.read]
  split
  case h_2 => exact h
  case h_1 now hpha =>
    have hqui : world.active=[] := h.quiet (by simp [hpha])
    have hcom : world.tickets=world.passed := by rw [World.tickets,hqui,List.nil_append]
    obtain ⟨hswe,hclo,hwai⟩ := h.order.loading now hpha
    have hrec := h.record.sweep sound hswe
    cases ok with
    | false =>
      refine ⟨h.nodup,fun _ => hqui,?_,h.source,fun hrea => (nomatch hrea),h.record,h.written⟩
      exact ⟨h.order.times,h.order.fits,h.order.swept,h.order.clock,h.order.arrived,h.order.swept_clock,
        fun hidl => (nomatch hidl),fun _ hloa => (nomatch hloa)⟩
    | true =>
      refine ⟨h.nodup,fun hnot => absurd rfl hnot,?_,h.source,fun _ => ?_,hrec,?_⟩
      · exact ⟨h.order.times,h.order.fits,hwai,h.order.clock,h.order.arrived,hclo,
          fun hidl => (nomatch hidl),fun _ hloa => (nomatch hloa)⟩
      · refine (h.record.load sound hswe).subset fun t ht => ?_
        have hpas : t∈world.passed := hcom ▸ ht
        exact List.mem_append_right _ hpas
      · intro ticket written hwri
        exact (h.written ticket written hwri).sweep sound hswe

/-- A request that leaves a ticket takes a slot that no other ticket has. -/
theorem Inv.slot_fresh (sound : Sound gate slot source Held Over Good Old Fits)
    (h : Inv gate slot source Held Over Good Old Fits world) {request : ρ} {rest : List ρ}
    (hwai : world.waiting=request::rest) (hrea : world.phase=.ready) {ticket : τ} {k : κ}
    (htic : (gate.enter world.entered request world.memory).2=some ticket) (hslo : slot ticket=some k) :
    ∀ t∈world.tickets, slot t≠some k := by
  intro t ht hsam
  have hmem : request∈world.waiting := hwai ▸ List.mem_cons_self
  obtain ⟨-,-,hfit⟩ := h.source t ht
  apply sound.fits htic hsam hslo (hfit request hmem)
  rcases (h.memory hrea).closed t ht with hhel | hove
  · exact sound.enter_once htic hsam hslo hhel
  · exact sound.over_mono hove (h.order.swept request hmem)

theorem InOrder.resume (h : InOrder gate Fits world) {request : ρ} {rest : List ρ}
    (hwai : world.waiting=request::rest) (hrea : world.phase=.ready) :
    InOrder gate Fits (world.resume gate) := by
  have hmem : request∈world.waiting := hwai ▸ List.mem_cons_self
  have hres : ∀ r∈rest, r∈world.waiting := fun r hr => hwai ▸ List.mem_cons_of_mem _ hr
  have htim := h.times
  have hfit := h.fits
  rw [hwai,List.pairwise_cons] at htim hfit
  simp only [World.resume,hwai,hrea]
  exact ⟨htim.2,hfit.2,htim.1,fun r hr => h.clock r (hres r hr),fun r hr => h.arrived r (hres r hr),
    h.clock request hmem,fun hidl => (nomatch hidl),fun _ hloa => (nomatch hloa)⟩

theorem Inv.resume (sound : Sound gate slot source Held Over Good Old Fits)
    (h : Inv gate slot source Held Over Good Old Fits world) :
    Inv gate slot source Held Over Good Old Fits (world.resume gate) := by
  cases hwai : world.waiting with
  | nil =>
    simp only [World.resume,hwai]
    exact h
  | cons request rest =>
    have hmem : request∈world.waiting := hwai ▸ List.mem_cons_self
    have hres : ∀ r∈rest, r∈world.waiting := fun r hr => hwai ▸ List.mem_cons_of_mem _ hr
    cases hpha : world.phase with
    | idle =>
      simp only [World.resume,hwai,hpha]
      exact h
    | loading now =>
      simp only [World.resume,hwai,hpha]
      exact h
    | failed =>
      have htim := h.order.times
      have hfit := h.order.fits
      rw [hwai,List.pairwise_cons] at htim hfit
      simp only [World.resume,hwai,hpha]
      refine ⟨h.nodup,fun _ => h.quiet (by simp [hpha]),?_,?_,fun hrea => ?_,h.record,h.written⟩
      · exact ⟨htim.2,hfit.2,fun r hr => h.order.swept r (hres r hr),fun r hr => h.order.clock r (hres r hr),
          fun r hr => h.order.arrived r (hres r hr),h.order.swept_clock,
          fun hidl => (nomatch hidl),fun _ hloa => (nomatch hloa)⟩
      · intro t ht
        obtain ⟨hsou,hold,hwat⟩ := h.source t ht
        exact ⟨hsou,hold,fun r hr => hwat r (hres r hr)⟩
      · cases hrea
    | ready =>
      have hmey := h.memory hpha
      have hswe : world.swept ≤ gate.time request := h.order.swept request hmem
      have hfit := h.order.fits
      rw [hwai,List.pairwise_cons] at hfit
      have hper : (world.resume gate).tickets.Perm
          ((gate.enter world.entered request world.memory).2.toList++world.tickets) := by
        simp only [World.resume,hwai,hpha,World.tickets,World.active,List.append_assoc]
        rw [← List.append_assoc world.pending,← List.append_assoc _ world.pending]
        exact List.perm_append_comm.append_right _
      have hord := h.order.resume hwai hpha
      have hcas : ∀ t∈(world.resume gate).tickets,
          (gate.enter world.entered request world.memory).2=some t ∨ t∈world.tickets := by
        intro t ht
        exact (List.mem_append.mp (hper.mem_iff.mp ht)).imp_left Option.mem_toList.mp
      have hswp : ∀ {s : σ} {ts : List τ}, Holding Held Over Good world.entered world.swept s ts →
          Holding Held Over Good (world.entered+1) (gate.time request) s ts := by
        intro s ts hhol
        exact ⟨sound.good_succ hhol.good,(hhol.sweep sound hswe).closed⟩
      refine ⟨?_,?_,hord,?_,fun _ => ?_,?_,?_⟩
      · rw [(hper.filterMap slot).nodup_iff,List.filterMap_append]
        cases htic : (gate.enter world.entered request world.memory).2 with
        | none => exact h.nodup
        | some ticket =>
          cases hslo : slot ticket with
          | none => simpa [hslo] using h.nodup
          | some k =>
            have hfre := h.slot_fresh sound hwai hpha htic hslo
            simpa [hslo] using ⟨fun t ht hsam => hfre t ht hsam,h.nodup⟩
      · intro hnot
        simp [World.resume,hwai,hpha] at hnot
      · intro t ht
        have hwor : (world.resume gate).arrived=world.arrived ∧ (world.resume gate).entered=world.entered+1 ∧
            (world.resume gate).waiting=rest := by simp [World.resume,hwai,hpha]
        rw [hwor.1,hwor.2.1,hwor.2.2]
        rcases hcas t ht with htic | hbef
        · rw [sound.enter_source htic]
          exact ⟨h.order.arrived request hmem,sound.enter_old hmey.good htic,hfit.1⟩
        · obtain ⟨hsou,hold,hwat⟩ := h.source t hbef
          exact ⟨hsou,sound.old_succ hold,fun r hr => hwat r (hres r hr)⟩
      · have hwor : (world.resume gate).memory=(gate.enter world.entered request world.memory).1 ∧
            (world.resume gate).entered=world.entered+1 ∧ (world.resume gate).swept=gate.time request := by
          simp [World.resume,hwai,hpha]
        rw [hwor.1,hwor.2.1,hwor.2.2]
        refine ⟨sound.enter_good hmey.good,fun t ht => ?_⟩
        rcases hcas t ht with htic | hbef
        · exact .inl (sound.enter_held hmey.good htic)
        · rcases hmey.closed t hbef with hhel | hove
          · exact sound.enter_keeps (h.source t hbef).2.1 hhel
          · exact .inr (sound.over_mono hove hswe)
      · simp only [World.resume,hwai,hpha]
        exact hswp h.record
      · intro ticket written hwri
        simp only [World.resume,hwai,hpha] at hwri ⊢
        exact hswp (h.written ticket written hwri)

/-- A step of the writes: requests wait as they did, and no ticket is new. -/
theorem Inv.writes (h : Inv gate slot source Held Over Good Old Fits world) {record memory : σ} {pending passed : List τ}
    {writing : Option (τ × σ)} {settled : List (τ × Bool)}
    (hnod : ((pending++(writing.map Prod.fst).toList++settled.map Prod.fst++passed).filterMap slot).Nodup)
    (hsub : ∀ t∈pending++(writing.map Prod.fst).toList++settled.map Prod.fst++passed, t∈world.tickets)
    (hqui : world.active=[] → pending++(writing.map Prod.fst).toList++settled.map Prod.fst=[])
    (hmem : world.phase=.ready → Holding Held Over Good world.entered world.swept memory
      (pending++(writing.map Prod.fst).toList++settled.map Prod.fst++passed))
    (hrec : Holding Held Over Good world.entered world.swept record
      ((settled.filter (·.2)).map Prod.fst++passed))
    (hwri : ∀ ticket written, writing=some (ticket,written) →
      Holding Held Over Good world.entered world.swept written
        (ticket::((settled.filter (·.2)).map Prod.fst++passed))) :
    Inv gate slot source Held Over Good Old Fits
      { world with record, memory, pending, writing, settled, passed } where
  nodup := hnod
  quiet := fun hrea => hqui (h.quiet hrea)
  order := ⟨h.order.times,h.order.fits,h.order.swept,h.order.clock,h.order.arrived,h.order.swept_clock,
    h.order.idle,h.order.loading⟩
  source := fun t ht => h.source t (hsub t ht)
  memory := hmem
  record := hrec
  written := hwri

theorem Inv.begin (h : Inv gate slot source Held Over Good Old Fits world) :
    Inv gate slot source Held Over Good Old Fits world.begin := by
  rw [World.begin]
  split
  case h_2 => exact h
  case h_1 ticket rest hwri hpen =>
    have hrea : world.phase=.ready := by
      by_contra hnot
      have hqui := h.quiet hnot
      simp [World.active,hpen] at hqui
    have hper : (rest++[ticket]++world.settled.map Prod.fst++world.passed).Perm world.tickets := by
      rw [World.tickets,World.active,hpen,hwri]
      simp only [Option.map_none,Option.toList_none,List.append_nil]
      exact (List.perm_append_singleton ticket rest).append_right _ |>.append_right _
    have hmem := h.memory hrea
    apply h.writes
    · exact ((hper.filterMap slot).nodup_iff).mpr h.nodup
    · exact fun t ht => hper.mem_iff.mp ht
    · intro hnone
      simp [World.active,hpen] at hnone
    · exact fun _ => hmem.subset fun t ht => hper.mem_iff.mp ht
    · exact h.record
    · intro ticket' written' hnow
      cases hnow
      refine hmem.subset fun t ht => ?_
      rcases List.mem_cons.mp ht with rfl | ht
      · simp [World.tickets,World.active,hpen]
      · exact committed_subset world t ht

theorem Inv.finish (h : Inv gate slot source Held Over Good Old Fits world) (outcome : Outcome) :
    Inv gate slot source Held Over Good Old Fits (world.finish outcome) := by
  rw [World.finish]
  split
  case h_1 => exact h
  case h_2 ticket written hwri =>
    have hper : (world.pending++[]++(world.settled++[(ticket,decide (outcome=Outcome.done))]).map Prod.fst ++
        world.passed).Perm world.tickets := by
      rw [World.tickets,World.active,hwri]
      simp only [Option.map_some,Option.toList_some,List.append_nil,List.map_append,List.map_cons,List.map_nil,
        List.append_assoc]
      refine List.Perm.append_left _ ?_
      rw [← List.append_assoc,← List.append_assoc [ticket]]
      exact List.perm_append_comm.append_right _
    have hwrn := h.written ticket written hwri
    have hcom : ∀ t∈((world.settled++[(ticket,decide (outcome=Outcome.done))]).filter (·.2)).map Prod.fst ++
        world.passed, t∈world.committed ∨ (t=ticket ∧ outcome=.done) := by
      intro t ht
      simp only [World.committed,List.filter_append,List.map_append,List.mem_append] at ht ⊢
      rcases ht with (ht | ht) | ht
      · exact .inl (.inl ht)
      · by_cases hdon : outcome=.done
        · simp [hdon] at ht
          exact .inr ⟨ht,hdon⟩
        · simp [hdon] at ht
      · exact .inl (.inr ht)
    apply h.writes
    · exact ((hper.filterMap slot).nodup_iff).mpr h.nodup
    · exact fun t ht => hper.mem_iff.mp ht
    · intro hnone
      simp [World.active,hwri] at hnone
    · exact fun hrea => (h.memory hrea).subset fun t ht => hper.mem_iff.mp ht
    · by_cases hfai : outcome=.failed
      · rw [if_pos hfai]
        refine h.record.subset fun t ht => ?_
        rcases hcom t ht with hbef | ⟨-,hdon⟩
        · exact hbef
        · cases hfai.symm.trans hdon
      · rw [if_neg hfai]
        refine hwrn.subset fun t ht => ?_
        rcases hcom t ht with hbef | ⟨rfl,-⟩
        · exact List.mem_cons_of_mem _ hbef
        · exact List.mem_cons_self
    · intro ticket' written' hnow
      cases hnow

theorem Inv.settle (sound : Sound gate slot source Held Over Good Old Fits)
    (h : Inv gate slot source Held Over Good Old Fits world) (i : Nat) :
    Inv gate slot source Held Over Good Old Fits (world.settle gate i) := by
  rw [World.settle]
  split
  case h_1 => exact h
  case h_2 ticket ok hset =>
    obtain ⟨hi,hget⟩ := List.getElem?_eq_some_iff.mp hset
    have hmov : ((ticket,ok)::world.settled.eraseIdx i).Perm world.settled := by
      rw [← hget]
      exact List.getElem_cons_eraseIdx_perm hi
    have hact : world.active≠[] := by
      intro hnone
      have hemp : world.settled=[] := by simpa using (List.append_eq_nil_iff.mp hnone).2
      rw [hemp] at hi
      cases hi
    have hrea : world.phase=.ready := by
      by_contra hnot
      exact hact (h.quiet hnot)
    -- the tickets without this one
    have hper : (ticket::(world.pending++(world.writing.map Prod.fst).toList ++
        (world.settled.eraseIdx i).map Prod.fst++world.passed)).Perm world.tickets := by
      rw [World.tickets,World.active]
      refine List.Perm.trans ?_ (((hmov.map Prod.fst).append_left _).append_right _)
      rw [List.map_cons,List.append_assoc,List.append_assoc _ (ticket::_),List.cons_append]
      exact List.perm_middle.symm
    have hsub : ∀ t∈world.pending++(world.writing.map Prod.fst).toList++(world.settled.eraseIdx i).map Prod.fst ++
        world.passed, t∈world.tickets := fun t ht => hper.mem_iff.mp (List.mem_cons_of_mem _ ht)
    have hcom : ∀ t∈((world.settled.eraseIdx i).filter (·.2)).map Prod.fst++world.passed,
        t∈world.committed := by
      intro t ht
      refine List.mem_append.mpr ((List.mem_append.mp ht).imp_left fun hbef => ?_)
      obtain ⟨entry,hent,rfl⟩ := List.mem_map.mp hbef
      have hmem : entry∈world.settled := (List.eraseIdx_sublist _ _).subset (List.mem_of_mem_filter hent)
      exact List.mem_map_of_mem (List.mem_filter.mpr ⟨hmem,(List.mem_filter.mp hent).2⟩)
    have hnod := ((hper.filterMap slot).nodup_iff).mpr h.nodup
    have hmey := h.memory hrea
    cases ok with
    | true =>
      have hpas : (world.pending++(world.writing.map Prod.fst).toList++(world.settled.eraseIdx i).map Prod.fst ++
          (world.passed++[ticket])).Perm world.tickets := by
        rw [← List.append_assoc]
        exact (List.perm_append_singleton ticket _).trans hper
      have hcom' : ∀ t∈((world.settled.eraseIdx i).filter (·.2)).map Prod.fst++(world.passed++[ticket]),
          t∈world.committed := by
        rw [← List.append_assoc]
        refine List.forall_mem_append.mpr ⟨hcom,fun t ht => ?_⟩
        rw [List.mem_singleton.mp ht]
        refine List.mem_append_left _ (List.mem_map.mpr ⟨(ticket,true),List.mem_filter.mpr ⟨?_,rfl⟩,rfl⟩)
        exact hget ▸ List.getElem_mem hi
      simp only [if_true]
      apply h.writes
      · exact ((hpas.filterMap slot).nodup_iff).mpr h.nodup
      · exact fun t ht => hpas.mem_iff.mp ht
      · exact fun hnone => absurd hnone hact
      · exact fun _ => hmey.subset fun t ht => hpas.mem_iff.mp ht
      · exact h.record.subset hcom'
      · intro ticket' written' hwri
        refine (h.written ticket' written' hwri).subset fun t ht => ?_
        rcases List.mem_cons.mp ht with rfl | ht
        · exact List.mem_cons_self
        · exact List.mem_cons_of_mem _ (hcom' t ht)
    | false =>
      simp only [Bool.false_eq_true,if_false]
      apply h.writes
      · exact (hnod.sublist ((List.sublist_cons_self _ _).filterMap slot))
      · exact hsub
      · exact fun hnone => absurd hnone hact
      · intro _
        refine ⟨sound.undo_good hmey.good,fun t ht => ?_⟩
        rcases hmey.closed t (hsub t ht) with hhel | hove
        · refine .inl (sound.undo_keeps (fun k hslo hsam => ?_) hhel)
          rw [List.filterMap_cons,hslo] at hnod
          exact (List.nodup_cons.mp hnod).1 (List.mem_filterMap.mpr ⟨t,ht,hsam⟩)
        · exact .inr hove
      · exact h.record.subset hcom
      · intro ticket' written' hwri
        refine (h.written ticket' written' hwri).subset fun t ht => ?_
        rcases List.mem_cons.mp ht with rfl | ht
        · exact List.mem_cons_self
        · exact List.mem_cons_of_mem _ (hcom t ht)

theorem Inv.restart (h : Inv gate slot source Held Over Good Old Fits world) (took : Bool) :
    Inv gate slot source Held Over Good Old Fits (world.restart gate took) := by
  have hpas : ∀ t∈world.passed, t∈world.committed := fun t ht => List.mem_append_right _ ht
  refine ⟨?_,fun _ => rfl,?_,?_,fun hrea => (nomatch hrea),?_,fun _ _ hwri => (nomatch hwri)⟩
  · exact h.nodup.sublist ((List.sublist_append_right _ _).filterMap slot)
  · exact ⟨.nil,.nil,by simp [World.restart],by simp [World.restart],by simp [World.restart],h.order.swept_clock,
      fun _ => rfl,fun _ hloa => (nomatch hloa)⟩
  · intro t ht
    obtain ⟨hsou,hold,-⟩ := h.source t (List.mem_append_right _ ht)
    exact ⟨hsou,hold,fun r hr => (nomatch hr)⟩
  · simp only [World.restart]
    split
    case h_1 ticket written hwri =>
      cases took with
      | true => exact (h.written ticket written hwri).subset fun t ht => List.mem_cons_of_mem _ (hpas t ht)
      | false => exact h.record.subset hpas
    case h_2 => exact h.record.subset hpas

theorem Inv.step (sound : Sound gate slot source Held Over Good Old Fits)
    (h : Inv gate slot source Held Over Good Old Fits world) {event : Event ρ} (hadm : Admissible gate Fits world event) :
    Inv gate slot source Held Over Good Old Fits (world.step gate event) := by
  cases event with
  | arrive request => exact h.arrive hadm.1 hadm.2
  | read ok => exact h.read sound ok
  | resume => exact h.resume sound
  | begin => exact h.begin
  | finish outcome => exact h.finish outcome
  | settle i => exact h.settle sound i
  | restart took => exact h.restart took

variable {events : List (Event ρ)}

theorem Inv.run (sound : Sound gate slot source Held Over Good Old Fits)
    (h : Inv gate slot source Held Over Good Old Fits world) (hadm : AdmissibleRun gate Fits world events) :
    Inv gate slot source Held Over Good Old Fits (world.run gate events) := by
  induction events generalizing world with
  | nil => exact h
  | cons event events ih => exact ih (h.step sound hadm.1) hadm.2

def Event.request : Event ρ → Option ρ
  | .arrive request => some request
  | _ => none

theorem World.step_of_not_request {event : Event ρ} (h : event.request=none) :
    (world.step gate event).clock=world.clock ∧ (world.step gate event).arrived=world.arrived := by
  cases event with
  | arrive request => cases h
  | read ok =>
    simp only [World.step,World.read]
    split
    · split <;> exact ⟨rfl,rfl⟩
    · exact ⟨rfl,rfl⟩
  | resume =>
    simp only [World.step,World.resume]
    split
    · exact ⟨rfl,rfl⟩
    · split <;> exact ⟨rfl,rfl⟩
  | begin =>
    simp only [World.step,World.begin]
    split <;> exact ⟨rfl,rfl⟩
  | finish outcome =>
    simp only [World.step,World.finish]
    split <;> exact ⟨rfl,rfl⟩
  | settle i =>
    simp only [World.step,World.settle]
    split
    · exact ⟨rfl,rfl⟩
    · split <;> exact ⟨rfl,rfl⟩
  | restart took => exact ⟨rfl,rfl⟩

theorem admissibleRun_of_pairwise
    (hclo : ∀ r∈events.filterMap Event.request, world.clock ≤ gate.time r)
    (htim : (events.filterMap Event.request).Pairwise fun r r' => gate.time r ≤ gate.time r')
    (hbef : ∀ earlier∈world.arrived, ∀ r∈events.filterMap Event.request, Fits earlier r)
    (hfit : (events.filterMap Event.request).Pairwise Fits) : AdmissibleRun gate Fits world events := by
  induction events generalizing world with
  | nil => trivial
  | cons event events ih =>
    cases hreq : event.request with
    | some request =>
      rw [List.filterMap_cons_some hreq] at hclo htim hbef hfit
      rw [List.pairwise_cons] at htim hfit
      cases event <;> cases hreq
      refine ⟨⟨hclo request List.mem_cons_self,fun earlier hear =>
        hbef earlier hear request List.mem_cons_self⟩,ih htim.1 htim.2 ?_ hfit.2⟩
      intro earlier hear r hr
      rcases List.mem_append.mp hear with hear | hear
      · exact hbef earlier hear r (List.mem_cons_of_mem _ hr)
      · rw [List.mem_singleton.mp hear]
        exact hfit.1 r hr
    | none =>
      rw [List.filterMap_cons_none hreq] at hclo htim hbef hfit
      obtain ⟨hsam,harr⟩ := @World.step_of_not_request ρ σ τ gate world event hreq
      refine ⟨?_,ih (by rwa [hsam]) htim (by rwa [harr]) hfit⟩
      cases event with
      | arrive request => cases hreq
      | _ => trivial

/-- Whatever the order of the steps, which writes fail and where the process starts again, no slot is let through
twice. -/
theorem passed_once (sound : Sound gate slot source Held Over Good Old Fits) (clock : Int)
    (hclo : ∀ r∈events.filterMap Event.request, clock ≤ gate.time r)
    (htim : (events.filterMap Event.request).Pairwise fun r r' => gate.time r ≤ gate.time r')
    (hfit : (events.filterMap Event.request).Pairwise Fits) :
    (((World.start gate clock).run gate events).passed.filterMap slot).Nodup := by
  have hadm : AdmissibleRun gate Fits (World.start gate clock) events :=
    admissibleRun_of_pairwise hclo htim (fun earlier hear => (nomatch hear)) hfit
  exact ((inv_start sound clock).run sound hadm).nodup.sublist ((List.sublist_append_right _ _).filterMap slot)

end Invariant

end CastleWall.SingleUse
