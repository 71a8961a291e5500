import CastleWall.Support.Text
import Mathlib.Algebra.GroupWithZero.Nat

/-! # The ring of events not yet drained

Kept in memory beside the log. When it is full the oldest event that is not critical makes room, and only
a ring of critical events gives up one of those. -/

namespace CastleWall.Audit

open Text

structure PendingAuditEvent where
  eventCanonicalJson : String
  /-- Milliseconds of the clock at capture. -/
  capturedAt : Nat
  critical : Bool

structure AuditRingBuffer where
  buffer : List PendingAuditEvent
  maxBytes : Nat
  /-- Milliseconds an event stays. -/
  (ttl currentBytes overflowCount criticalDropCount : Nat)

namespace AuditRingBuffer

def new (maxBytes ttl : Nat) : AuditRingBuffer where
  buffer := []
  maxBytes := maxBytes
  ttl := ttl
  currentBytes := 0
  overflowCount := 0
  criticalDropCount := 0

def saturatingSucc (n : Nat) : Nat := min (n+1) (2 ^ 64 - 1)

def eventBytes (event : PendingAuditEvent) : Nat := (utf8Bytes event.eventCanonicalJson).length

/-- The oldest event that is not critical leaves, or else the oldest of all. -/
def dropOldest (ring : AuditRingBuffer) : AuditRingBuffer :=
  match ring.buffer.findIdx? (fun pending => !pending.critical) with
  | some index =>
    match ring.buffer[index]? with
    | some dropped =>
      { ring with
        buffer := ring.buffer.eraseIdx index
        currentBytes := ring.currentBytes - eventBytes dropped
        overflowCount := saturatingSucc ring.overflowCount }
    | none => ring
  | none =>
    match ring.buffer with
    | dropped::rest =>
      { ring with
        buffer := rest
        currentBytes := ring.currentBytes - eventBytes dropped
        overflowCount := saturatingSucc ring.overflowCount
        criticalDropCount := saturatingSucc ring.criticalDropCount }
    | [] => ring

/-- Events leave until the new one fits or none is left; at most as many leave as there are. -/
def makeRoom (size : Nat) : Nat → AuditRingBuffer → AuditRingBuffer
  | 0, ring => ring
  | fuel+1, ring =>
    if ring.currentBytes+size > ring.maxBytes ∧ ring.buffer≠[] then makeRoom size fuel (dropOldest ring)
    else ring

def append (ring : AuditRingBuffer) (event : PendingAuditEvent) : AuditRingBuffer :=
  let ring := makeRoom (eventBytes event) ring.buffer.length ring
  { ring with
    currentBytes := ring.currentBytes+eventBytes event
    buffer := ring.buffer++[event] }

def popFront (ring : AuditRingBuffer) : AuditRingBuffer :=
  match ring.buffer with
  | [] => ring
  | evicted::rest => { ring with buffer := rest, currentBytes := ring.currentBytes - eventBytes evicted }

/-- Events leave from the front while they are older than the time to live; also returned is how many. -/
def evictExpired (now : Nat) : Nat → AuditRingBuffer → AuditRingBuffer × Nat
  | 0, ring => (ring,0)
  | fuel+1, ring =>
    match ring.buffer with
    | [] => (ring,0)
    | front::_ =>
      if now - front.capturedAt ≤ ring.ttl then (ring,0)
      else
        let (left,dropped) := evictExpired now fuel
          { popFront ring with overflowCount := saturatingSucc ring.overflowCount }
        (left,dropped+1)

def truncateThrough (ring : AuditRingBuffer) (indexInclusive : Nat) : AuditRingBuffer :=
  Nat.repeat popFront (min ((indexInclusive+1) % 2 ^ 64) ring.buffer.length) ring

end AuditRingBuffer

namespace AuditRingBuffer

variable {ring : AuditRingBuffer} {size fuel : Nat}

/-- What `dropOldest` takes from a buffer, and what it leaves. -/
def victim (buffer : List PendingAuditEvent) : Option (PendingAuditEvent × List PendingAuditEvent) :=
  match buffer.findIdx? (fun pending => !pending.critical) with
  | some index => buffer[index]?.map fun dropped => (dropped,buffer.eraseIdx index)
  | none => buffer.head?.map fun dropped => (dropped,buffer.tail)

theorem dropOldest_eq (ring : AuditRingBuffer) : ∃ criticalDropCount, ring.dropOldest =
    match victim ring.buffer with
    | none => ring
    | some (dropped,rest) => { ring with
        buffer := rest
        currentBytes := ring.currentBytes - eventBytes dropped
        overflowCount := saturatingSucc ring.overflowCount
        criticalDropCount } := by
  rw [dropOldest,victim]
  cases ring.buffer.findIdx? fun pending => !pending.critical with
  | some index =>
    dsimp only
    cases ring.buffer[index]? with
    | none => exact ⟨0,rfl⟩
    | some dropped => exact ⟨_,rfl⟩
  | none =>
    dsimp only
    cases ring.buffer with
    | nil => exact ⟨0,rfl⟩
    | cons dropped rest => exact ⟨_,rfl⟩

theorem victim_spec {buffer rest : List PendingAuditEvent} {dropped : PendingAuditEvent}
    (h : victim buffer=some (dropped,rest)) :
    (∃ before after, buffer=before++dropped::after ∧ rest=before++after) ∧
      (dropped.critical=true → ∀ pending∈rest, pending.critical=true) := by
  rw [victim] at h
  split at h
  · rename_i index hfind
    obtain ⟨found,hget,heq⟩ := Option.map_eq_some_iff.mp h
    cases heq
    rw [List.findIdx?_eq_some_iff_getElem] at hfind
    obtain ⟨hlt,hpla,-⟩ := hfind
    rw [List.getElem?_eq_getElem hlt,Option.some.injEq] at hget
    subst hget
    refine ⟨⟨buffer.take index,buffer.drop (index+1),?_,List.eraseIdx_eq_take_drop_succ _ _⟩,fun hcri => ?_⟩
    · rw [List.getElem_cons_drop,List.take_append_drop]
    · simp [hcri] at hpla
  · rename_i hfind
    obtain ⟨found,hhea,heq⟩ := Option.map_eq_some_iff.mp h
    cases heq
    obtain ⟨tail,rfl⟩ := List.head?_eq_some_iff.mp hhea
    refine ⟨⟨[],tail,rfl,rfl⟩,fun _ pending hpen => ?_⟩
    rw [List.findIdx?_eq_none_iff] at hfind
    simpa using hfind pending (List.mem_cons_of_mem _ hpen)

theorem victim_isSome {buffer : List PendingAuditEvent} (h : buffer≠[]) : (victim buffer).isSome=true := by
  rw [victim]
  split
  · rename_i index hfind
    rw [List.findIdx?_eq_some_iff_getElem] at hfind
    obtain ⟨hlt,-⟩ := hfind
    simp [hlt]
  · cases buffer with
    | nil => exact absurd rfl h
    | cons pending rest => rfl

/-- The evictions of `makeRoom`, each with what it leaves. -/
def evictions (size : Nat) : Nat → AuditRingBuffer → List (PendingAuditEvent × List PendingAuditEvent)
  | 0, _ => []
  | fuel+1, ring =>
    if ring.currentBytes+size > ring.maxBytes ∧ ring.buffer≠[] then
      (victim ring.buffer).toList++evictions size fuel (dropOldest ring)
    else []

end AuditRingBuffer

open AuditRingBuffer

inductive RingStep where
  | append (event : PendingAuditEvent)
  | evictExpired (now : Nat)
  | truncateThrough (indexInclusive : Nat)

structure RingRun where
  ring : AuditRingBuffer
  (appended acknowledged lost : List PendingAuditEvent)
  /-- The events that made room, each with those that stayed. -/
  evicted : List (PendingAuditEvent × List PendingAuditEvent)

def RingRun.step (run : RingRun) : RingStep → RingRun
  | .append event =>
    let evicted := evictions (eventBytes event) run.ring.buffer.length run.ring
    { run with
      ring := run.ring.append event
      appended := run.appended++[event]
      lost := run.lost++evicted.map Prod.fst
      evicted := run.evicted++evicted }
  | .evictExpired now =>
    let (ring,dropped) := run.ring.evictExpired now run.ring.buffer.length
    { run with ring, lost := run.lost++run.ring.buffer.take dropped }
  | .truncateThrough indexInclusive =>
    { run with
      ring := run.ring.truncateThrough indexInclusive
      acknowledged := run.acknowledged ++
        run.ring.buffer.take (min ((indexInclusive+1) % 2 ^ 64) run.ring.buffer.length) }

/-- The bytes are those of the events that are kept, in order and within the cap; every event that came is kept,
acknowledged or lost, and the lost ones are counted. -/
structure Accounted (ring : AuditRingBuffer) (appended acknowledged lost : List PendingAuditEvent) : Prop where
  bytes : ring.currentBytes=(ring.buffer.map eventBytes).sum
  order : ring.buffer.Sublist appended
  whole : appended.Perm (ring.buffer++(acknowledged++lost))
  counted : ring.overflowCount=min lost.length (2 ^ 64 - 1)
  cap : ring.currentBytes ≤ ring.maxBytes ∨ ∃ event, ring.buffer=[event] ∧ ring.maxBytes < eventBytes event

section Runs

variable {ring : AuditRingBuffer} {appended acknowledged lost : List PendingAuditEvent}

theorem Accounted.remove {before after acknowledged' lost' : List PendingAuditEvent} {gone : PendingAuditEvent}
    {overflowCount criticalDropCount : Nat} (h : Accounted ring appended acknowledged lost)
    (hbuf : ring.buffer=before++gone::after)
    (hgon : (gone::(acknowledged++lost)).Perm (acknowledged'++lost'))
    (hcou : overflowCount=min lost'.length (2 ^ 64 - 1)) :
    Accounted { ring with
      buffer := before++after
      currentBytes := ring.currentBytes - eventBytes gone
      overflowCount
      criticalDropCount } appended acknowledged' lost' := by
  obtain ⟨hbyt,hord,hwho,-,hcap⟩ := h
  rw [hbuf] at hord hwho hbyt
  have hsum : ring.currentBytes=((before++after).map eventBytes).sum+eventBytes gone := by
    rw [hbyt]
    simp only [List.map_append,List.map_cons,List.sum_append,List.sum_cons]
    omega
  refine ⟨by dsimp only; omega,?_,?_,hcou,.inl ?_⟩
  · exact ((List.sublist_cons_self gone after).append_left before).trans hord
  · refine hwho.trans ?_
    rw [List.append_assoc,List.cons_append]
    refine (List.perm_middle.trans ?_)
    refine List.Perm.trans ?_ (List.Perm.append_left (before++after) hgon)
    rw [← List.append_assoc]
    exact List.perm_middle.symm
  · dsimp only
    rcases hcap with hcap | ⟨event,hone,-⟩
    · omega
    · rw [hbuf] at hone
      have hemp : before++after=[] := by
        have := congrArg List.length hone
        simp only [List.length_append,List.length_cons,List.length_nil] at this
        exact List.eq_nil_of_length_eq_zero (by rw [List.length_append]; omega)
      rw [hemp] at hsum
      simp only [List.map_nil,List.sum_nil] at hsum
      omega

theorem saturatingSucc_min (n : Nat) : saturatingSucc (min n (2 ^ 64 - 1))=min (n+1) (2 ^ 64 - 1) := by
  rw [saturatingSucc]
  omega

theorem Accounted.makeRoom (size fuel : Nat) (h : Accounted ring appended acknowledged lost) :
    Accounted (makeRoom size fuel ring) appended acknowledged (lost++(evictions size fuel ring).map Prod.fst) := by
  induction fuel generalizing ring lost with
  | zero => simpa [AuditRingBuffer.makeRoom,evictions] using h
  | succ fuel ih =>
    rw [AuditRingBuffer.makeRoom,evictions]
    split_ifs with hful
    · obtain ⟨criticalDropCount,hdro⟩ := dropOldest_eq ring
      obtain ⟨⟨dropped,rest⟩,hvic⟩ := Option.isSome_iff_exists.mp (victim_isSome hful.2)
      obtain ⟨⟨before,after,hbuf,rfl⟩,-⟩ := victim_spec hvic
      rw [hvic] at hdro ⊢
      rw [hdro,Option.toList_some,List.singleton_append,List.map_cons,List.append_cons]
      refine ih (h.remove hbuf ?_ ?_)
      · rw [← List.append_assoc]
        exact (List.perm_append_singleton _ _).symm
      · rw [h.counted,saturatingSucc_min,List.length_append,List.length_singleton]
    · simpa using h

theorem makeRoom_done (size : Nat) {fuel : Nat} (hfue : ring.buffer.length ≤ fuel) :
    let room := makeRoom size fuel ring
    room.maxBytes=ring.maxBytes ∧ (room.currentBytes+size ≤ room.maxBytes ∨ room.buffer=[]) := by
  induction fuel generalizing ring with
  | zero => exact ⟨rfl,.inr (List.eq_nil_of_length_eq_zero (Nat.le_zero.mp hfue))⟩
  | succ fuel ih =>
    rw [AuditRingBuffer.makeRoom]
    split_ifs with hful
    · obtain ⟨criticalDropCount,hdro⟩ := dropOldest_eq ring
      obtain ⟨⟨dropped,rest⟩,hvic⟩ := Option.isSome_iff_exists.mp (victim_isSome hful.2)
      obtain ⟨⟨before,after,hbuf,rfl⟩,-⟩ := victim_spec hvic
      rw [hvic] at hdro
      have hlen : ring.dropOldest.buffer.length ≤ fuel := by
        rw [hbuf,List.length_append,List.length_cons] at hfue
        rw [hdro,List.length_append]
        omega
      have hmax : ring.dropOldest.maxBytes=ring.maxBytes := by rw [hdro]
      obtain ⟨hsam,hroo⟩ := ih hlen
      exact ⟨hsam.trans hmax,hroo⟩
    · refine ⟨rfl,?_⟩
      by_cases hemp : ring.buffer=[]
      · exact .inr hemp
      · exact .inl (not_lt.mp fun hove => hful ⟨hove,hemp⟩)

theorem Accounted.append (h : Accounted ring appended acknowledged lost) (event : PendingAuditEvent) :
    Accounted (ring.append event) (appended++[event]) acknowledged
      (lost++(evictions (eventBytes event) ring.buffer.length ring).map Prod.fst) := by
  obtain ⟨hbyt,hord,hwho,hcou,-⟩ := h.makeRoom (eventBytes event) ring.buffer.length
  obtain ⟨-,hroo⟩ := makeRoom_done (eventBytes event) (le_refl ring.buffer.length)
  refine ⟨?_,hord.append (List.Sublist.refl _),?_,hcou,?_⟩
  · simp [AuditRingBuffer.append,hbyt]
  · refine (hwho.append_right [event]).trans ((List.Perm.of_eq (List.append_assoc _ _ _)).trans ?_)
    refine (List.Perm.append_left _ List.perm_append_comm).trans (List.Perm.of_eq ?_)
    exact (List.append_assoc _ _ _).symm
  · rw [AuditRingBuffer.append]
    dsimp only
    rcases hroo with hroo | hemp
    · exact .inl hroo
    · rw [hemp] at hbyt ⊢
      by_cases hfit : eventBytes event ≤ (AuditRingBuffer.makeRoom (eventBytes event) ring.buffer.length ring).maxBytes
      · refine .inl ?_
        simp only [List.map_nil,List.sum_nil] at hbyt
        omega
      · exact .inr ⟨event,rfl,not_le.mp hfit⟩

theorem Accounted.evictExpired (now fuel : Nat) (h : Accounted ring appended acknowledged lost) :
    Accounted (ring.evictExpired now fuel).1 appended acknowledged
      (lost++ring.buffer.take (ring.evictExpired now fuel).2) := by
  induction fuel generalizing ring lost with
  | zero => simpa [AuditRingBuffer.evictExpired] using h
  | succ fuel ih =>
    rw [AuditRingBuffer.evictExpired]
    split
    · simpa using h
    · rename_i front rest hbuf
      split_ifs with hyou
      · simpa using h
      · have hpop : Accounted { popFront ring with overflowCount := saturatingSucc ring.overflowCount } appended
            acknowledged (lost++[front]) := by
          rw [popFront,hbuf]
          refine h.remove (show ring.buffer=[]++front::rest from hbuf) ?_ ?_
          · rw [← List.append_assoc]
            exact (List.perm_append_singleton _ _).symm
          · rw [h.counted,saturatingSucc_min,List.length_append,List.length_singleton]
        have hnex := ih hpop
        rw [show (popFront ring).buffer=rest by rw [popFront,hbuf]] at hnex
        rw [hbuf,List.take_succ_cons,List.append_cons]
        exact hnex

theorem Accounted.popFront (count : Nat) (hcou : count ≤ ring.buffer.length)
    (h : Accounted ring appended acknowledged lost) :
    Accounted (Nat.repeat popFront count ring) appended (acknowledged++ring.buffer.take count) lost ∧
      (Nat.repeat AuditRingBuffer.popFront count ring).buffer=ring.buffer.drop count := by
  induction count with
  | zero => simpa [Nat.repeat] using h
  | succ count ih =>
    obtain ⟨hkep,hbuf⟩ := ih (Nat.le_of_succ_le hcou)
    rw [List.drop_eq_getElem_cons hcou] at hbuf
    rw [Nat.repeat,AuditRingBuffer.popFront,hbuf]
    refine ⟨?_,rfl⟩
    refine hkep.remove (show _=[]++_::_ from hbuf) ?_ hkep.counted
    rw [List.take_succ_eq_append_getElem hcou,← List.append_assoc,← List.cons_append]
    exact List.Perm.append_right _ (List.perm_append_singleton _ _).symm

theorem evictions_priority (size fuel : Nat) (ring : AuditRingBuffer) :
    ∀ eviction∈evictions size fuel ring, eviction.1.critical=true →
      ∀ pending∈eviction.2, pending.critical=true := by
  induction fuel generalizing ring with
  | zero => simp [evictions]
  | succ fuel ih =>
    rw [evictions]
    split_ifs
    · rw [List.forall_mem_append]
      refine ⟨fun eviction hmem => ?_,ih _⟩
      exact (victim_spec (Option.mem_toList.mp hmem)).2
    · simp

theorem Accounted.step {run : RingRun} (h : Accounted run.ring run.appended run.acknowledged run.lost)
    (step : RingStep) : Accounted (run.step step).ring (run.step step).appended (run.step step).acknowledged
      (run.step step).lost := by
  cases step with
  | append event => exact h.append event
  | evictExpired now => exact h.evictExpired now _
  | truncateThrough indexInclusive => exact (h.popFront _ (Nat.min_le_right _ _)).1

/-- Whatever the appends, expirations and acknowledgements: the byte count is that of the events kept, which are in
order; each event that came is kept, acknowledged, or lost and counted; the cap is kept to unless one event larger than it
is alone; and a critical event makes room only where no other is left. -/
theorem ring_accounts_for_events (maxBytes ttl : Nat) (steps : List RingStep) :
    let run := steps.foldl RingRun.step ⟨.new maxBytes ttl,[],[],[],[]⟩
    Accounted run.ring run.appended run.acknowledged run.lost ∧
      ∀ eviction∈run.evicted, eviction.1.critical=true → ∀ pending∈eviction.2, pending.critical=true := by
  have hrun : ∀ run : RingRun, Accounted run.ring run.appended run.acknowledged run.lost →
      (∀ eviction∈run.evicted, eviction.1.critical=true → ∀ pending∈eviction.2, pending.critical=true) →
      let final := steps.foldl RingRun.step run
      Accounted final.ring final.appended final.acknowledged final.lost ∧
        ∀ eviction∈final.evicted, eviction.1.critical=true → ∀ pending∈eviction.2, pending.critical=true := by
    induction steps with
    | nil => exact fun run h hpri => ⟨h,hpri⟩
    | cons step steps ih =>
      intro run h hpri
      refine ih (run.step step) (h.step step) ?_
      cases step with
      | append event =>
        rw [RingRun.step,List.forall_mem_append]
        exact ⟨hpri,evictions_priority _ _ _⟩
      | evictExpired now => exact hpri
      | truncateThrough indexInclusive => exact hpri
  exact hrun _ ⟨rfl,List.Sublist.refl _,List.Perm.refl _,rfl,.inl (Nat.zero_le _)⟩ (by simp)

end Runs

end CastleWall.Audit
