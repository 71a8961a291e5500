import CastleWall.Support.OrderedMap
import Mathlib.Data.List.Induction

/-! # Bounded maps

`core/bounded-map.ts`: a map with a cap and a quota per origin. A new key waits for its admission, one at a time; an
eviction waits for its audit entry. Updates, `delete` and `sweep` do not wait for either. -/

namespace CastleWall.Core

variable {K V : Type}

inductive EvictionDecision (K : Type) where
  | evict (key : K)
  | refuse

inductive BoundedMapRefuseReason where
  | originQuota
  | capacity
  | auditUnavailable
  | admissionBusy

inductive BoundedMapSetResult where
  | ok
  | refused (reason : BoundedMapRefuseReason)

/-- The policy may look at the clock. `isUndefined` tells the values that `get` cannot tell from a missing key. -/
structure BoundedMapOptions (K V : Type) where
  maxSize : Nat
  maxPerOrigin : Option Nat
  maxPendingAdmissionWaiters : Nat
  selectEviction : Nat → OrderedMap K V → K → V → EvictionDecision K
  isUndefined : V → Bool

structure Admission (K V : Type) where
  key : K
  value : V
  origin : Option String
deriving DecidableEq

structure Eviction (K V : Type) where
  admission : Admission K V
  evict : K
  evictedValue : V
deriving DecidableEq

structure BoundedMap (K V : Type) where
  map : OrderedMap K V
  origins : OrderedMap K String
  /-- The admissions chained onto `admissionQueue` that have not begun. -/
  admissionQueue : List (Admission K V)
  evicting : Option (Eviction K V)
  pendingAdmissionWaiters : Nat
  /-- The admissions that ended and whose `finally` has not run. -/
  ended : Nat

namespace BoundedMap

def empty : BoundedMap K V := ⟨.empty,.empty,[],none,0,0⟩

def size (m : BoundedMap K V) : Nat := m.map.entries.length

def originSize (m : BoundedMap K V) (origin : String) : Nat :=
  (m.origins.entries.filter fun entry => entry.2=origin).length

variable [DecidableEq K]

def has (m : BoundedMap K V) (key : K) : Bool := (m.map.get key).isSome

def answer (m : BoundedMap K V) (result : BoundedMapSetResult) : BoundedMap K V × Option BoundedMapSetResult :=
  ({ m with evicting := none, ended := m.ended+1 },some result)

def update (m : BoundedMap K V) (key : K) (value : V) : BoundedMap K V := { m with map := m.map.set key value }

def insert (m : BoundedMap K V) (a : Admission K V) : BoundedMap K V :=
  { m with
    map := m.map.set a.key a.value
    origins := a.origin.elim m.origins (m.origins.set a.key) }

def delete (m : BoundedMap K V) (key : K) : BoundedMap K V :=
  { m with
    map := m.map.erase key
    origins := m.origins.erase key }

def sweep (m : BoundedMap K V) (predicate : V → K → Bool) : BoundedMap K V :=
  { m with
    map := m.map.filter fun key value => !predicate value key
    origins := m.origins.filter fun key _ => !(m.map.get key).any fun value => predicate value key }

variable (opts : BoundedMapOptions K V)

/-- `set`, up to its first wait: an update is made at once, a new key is queued. -/
def set (m : BoundedMap K V) (key : K) (value : V) (origin : Option String) :
    BoundedMap K V × Option BoundedMapSetResult :=
  if m.has key then (m.update key value,some .ok)
  else if opts.maxPendingAdmissionWaiters ≤ m.pendingAdmissionWaiters then (m,some (.refused .admissionBusy))
  else
    ({ m with
        pendingAdmissionWaiters := m.pendingAdmissionWaiters+1
        admissionQueue := m.admissionQueue++[⟨key,value,origin⟩] },none)

def atQuota (m : BoundedMap K V) (origin : Option String) : Bool :=
  match origin, opts.maxPerOrigin with
  | some origin, some limit => decide (limit ≤ m.originSize origin)
  | _, _ => false

/-- `admitNewKey`, up to the wait for the audit entry. -/
def admitNewKey (m : BoundedMap K V) (now : Nat) (a : Admission K V) :
    BoundedMap K V × Option BoundedMapSetResult :=
  if m.has a.key then (m.update a.key a.value).answer .ok
  else if m.atQuota opts a.origin then m.answer (.refused .originQuota)
  else if opts.maxSize ≤ m.size then
    match opts.selectEviction now m.map a.key a.value with
    | .refuse => m.answer (.refused .capacity)
    | .evict evict =>
      match (m.map.get evict).filter fun value => !opts.isUndefined value with
      | some evictedValue => ({ m with evicting := some ⟨a,evict,evictedValue⟩ },none)
      | none => ((m.delete evict).insert a).answer .ok
  else (m.insert a).answer .ok

variable [DecidableEq V]

/-- The rest of `admitNewKey`: an entry that failed or timed out, or a value that is not the one audited, ends the
eviction. -/
def resume (m : BoundedMap K V) (e : Eviction K V) (audited : Bool) : BoundedMap K V × Option BoundedMapSetResult :=
  if !audited then m.answer (.refused .auditUnavailable)
  else if m.map.get e.evict≠some e.evictedValue then m.answer (.refused .capacity)
  else ((m.delete e.evict).insert e.admission).answer .ok

end BoundedMap

inductive Turn (K V : Type) where
  | set (key : K) (value : V) (origin : Option String)
  | delete (key : K)
  | sweep (predicate : V → K → Bool)
  /-- The next admission begins, once the one before has ended. -/
  | admitNext (now : Nat)
  /-- The audit entry is written, or fails or times out. -/
  | audited (ok : Bool)
  /-- The `finally` of a call whose admission ended. -/
  | released

section Runs

variable [DecidableEq K] [DecidableEq V] (opts : BoundedMapOptions K V)

/-- A turn that is not due changes nothing. -/
def BoundedMap.step (m : BoundedMap K V) (turn : Turn K V) : BoundedMap K V × Option BoundedMapSetResult :=
  match turn with
  | .set key value origin => m.set opts key value origin
  | .delete key => (m.delete key,none)
  | .sweep predicate => (m.sweep predicate,none)
  | .admitNext now =>
    match m.evicting, m.admissionQueue with
    | none, a::rest => BoundedMap.admitNewKey opts { m with admissionQueue := rest } now a
    | _, _ => (m,none)
  | .audited ok =>
    match m.evicting with
    | some e => m.resume e ok
    | none => (m,none)
  | .released =>
    if 0 < m.ended then
      ({ m with
          ended := m.ended - 1
          pendingAdmissionWaiters := m.pendingAdmissionWaiters - 1 },none)
    else (m,none)

def boundedMapRun (turns : List (Turn K V)) : BoundedMap K V :=
  turns.foldl (fun m turn => (m.step opts turn).1) .empty

end Runs

namespace BoundedMap

variable [DecidableEq K] (opts : BoundedMapOptions K V)

/-- The cap and the quotas hold, and only keys of the map have an origin. -/
structure Within (m : BoundedMap K V) : Prop where
  size_le : m.size ≤ opts.maxSize
  originSize_le : ∀ limit∈opts.maxPerOrigin, ∀ origin, m.originSize origin ≤ limit
  covered : ∀ key, m.map.get key=none → m.origins.get key=none

/-- The key that an eviction makes room for is still new, and its origin still below its quota. -/
structure Admissible (m : BoundedMap K V) (a : Admission K V) : Prop where
  absent : m.map.get a.key=none
  belowQuota : m.atQuota opts a.origin=false

variable {m m' : BoundedMap K V} {key : K}

theorem has_eq_false (h : ¬ m.has key=true) : m.map.get key=none := by
  cases hget : m.map.get key with
  | none => rfl
  | some value => exact absurd (by simp [has,hget]) h

omit [DecidableEq K] in
theorem originSize_le_of_sublist (h : m'.origins.entries.Sublist m.origins.entries)
    (origin : String) : m'.originSize origin ≤ m.originSize origin :=
  (h.filter _).length_le

variable {a : Admission K V}

theorem Admissible.of_sublist {opts : BoundedMapOptions K V}
    (h : m.Admissible opts a) (hsub : m'.origins.entries.Sublist m.origins.entries)
    (habs : m'.map.get a.key=none) : m'.Admissible opts a := by
  refine ⟨habs,?_⟩
  have hquo := h.belowQuota
  unfold atQuota at hquo ⊢
  cases ho : a.origin with
  | none => rfl
  | some origin =>
    cases hl : opts.maxPerOrigin with
    | none => rfl
    | some limit =>
      rw [ho,hl] at hquo
      have hlt := of_decide_eq_false hquo
      have hle := originSize_le_of_sublist hsub origin
      exact decide_eq_false (by omega)

theorem delete_origins_sublist (m : BoundedMap K V) (key : K) :
    (m.delete key).origins.entries.Sublist m.origins.entries := List.filter_sublist

theorem sweep_origins_sublist (m : BoundedMap K V) (predicate : V → K → Bool) :
    (m.sweep predicate).origins.entries.Sublist m.origins.entries := List.filter_sublist

theorem sweep_get (m : BoundedMap K V) (predicate : V → K → Bool) (key : K) :
    (m.sweep predicate).map.get key=(m.map.get key).filter fun value => !predicate value key := by
  apply Option.ext
  intro value
  rw [Option.filter_eq_some_iff]
  exact OrderedMap.get_filter_eq_some

variable {opts} {old : V}

theorem Within.update (h : m.Within opts) (hkey : m.map.get key=some old)
    (value : V) : (m.update key value).Within opts := by
  refine ⟨?_,h.originSize_le,?_⟩
  · rw [size,BoundedMap.update,OrderedMap.length_set_of_some hkey]
    exact h.size_le
  · intro other hoth
    apply h.covered
    rw [BoundedMap.update,OrderedMap.get_set] at hoth
    split at hoth
    · cases hoth
    · exact hoth

theorem Within.delete (h : m.Within opts) (key : K) : (m.delete key).Within opts := by
  refine ⟨?_,?_,?_⟩
  · exact Nat.le_trans (List.length_filter_le _ _) h.size_le
  · intro limit hlim origin
    exact Nat.le_trans (originSize_le_of_sublist (m.delete_origins_sublist key) origin)
      (h.originSize_le limit hlim origin)
  · intro other hoth
    rw [BoundedMap.delete,OrderedMap.get_erase] at hoth ⊢
    split
    · rfl
    case isFalse hne =>
      rw [if_neg hne] at hoth
      exact h.covered other hoth

theorem Within.sweep (h : m.Within opts) (predicate : V → K → Bool) :
    (m.sweep predicate).Within opts := by
  refine ⟨?_,?_,?_⟩
  · exact Nat.le_trans (List.length_filter_le _ _) h.size_le
  · intro limit hlim origin
    exact Nat.le_trans (originSize_le_of_sublist (m.sweep_origins_sublist predicate) origin)
      (h.originSize_le limit hlim origin)
  · intro key hkey
    rw [sweep_get] at hkey
    by_contra hne
    obtain ⟨origin,hori⟩ := Option.ne_none_iff_exists'.mp hne
    obtain ⟨hget,hkee⟩ := OrderedMap.get_filter_eq_some.mp hori
    cases hval : m.map.get key with
    | none =>
      rw [h.covered key hval] at hget
      cases hget
    | some value =>
      rw [hval] at hkey hkee
      simp only [Option.any_some] at hkee
      simp [Option.filter_some,hkee] at hkey

theorem Within.insert (h : m.Within opts) (ha : m.Admissible opts a)
    (hsiz : m.size < opts.maxSize) : (m.insert a).Within opts := by
  have hnew := h.covered a.key ha.absent
  refine ⟨?_,?_,?_⟩
  · rw [size,BoundedMap.insert,OrderedMap.entries_set_of_none ha.absent,List.length_append]
    exact hsiz
  · intro limit hlim origin
    have hle := h.originSize_le limit hlim origin
    have hquo := ha.belowQuota
    unfold originSize BoundedMap.insert at *
    cases hori : a.origin with
    | none => exact hle
    | some own =>
      unfold atQuota at hquo
      rw [hori,Option.mem_def.mp hlim] at hquo
      have hlt := of_decide_eq_false hquo
      unfold originSize at hlt
      rw [Option.elim_some,OrderedMap.entries_set_of_none hnew,List.filter_append,List.length_append]
      by_cases hown : own=origin
      · subst hown
        simp only [List.filter_singleton]
        simp
        omega
      · simpa [List.filter_singleton,hown] using hle
  · intro key hkey
    rw [BoundedMap.insert,OrderedMap.get_set] at hkey
    split at hkey
    · cases hkey
    case isFalse hne =>
      have hold := h.covered key hkey
      unfold BoundedMap.insert
      cases a.origin with
      | none => exact hold
      | some own => exact (OrderedMap.get_set_ne _ _ hne).trans hold

theorem Admissible.delete (h : m.Admissible opts a) (key : K) :
    (m.delete key).Admissible opts a := by
  refine h.of_sublist (m.delete_origins_sublist key) ?_
  rw [BoundedMap.delete,OrderedMap.get_erase]
  split
  · rfl
  · exact h.absent

theorem Admissible.sweep (h : m.Admissible opts a)
    (predicate : V → K → Bool) : (m.sweep predicate).Admissible opts a := by
  refine h.of_sublist (m.sweep_origins_sublist predicate) ?_
  rw [sweep_get,h.absent]
  rfl

theorem Admissible.update (h : m.Admissible opts a)
    (hkey : m.map.get key=some old) (value : V) : (m.update key value).Admissible opts a := by
  refine h.of_sublist (.refl _) ?_
  have hne : a.key≠key := by
    intro heq
    rw [← heq,h.absent] at hkey
    cases hkey
  exact (OrderedMap.get_set_ne _ _ hne).trans h.absent

/-- The admission that the next `admitNext` or `audited` is about. -/
def Due (m : BoundedMap K V) (a : Admission K V) : Prop :=
  m.evicting.map Eviction.admission=some a ∨ m.evicting=none ∧ m.admissionQueue.head? = some a

inductive Turned (opts : BoundedMapOptions K V) (m : BoundedMap K V) :
    OrderedMap K V → OrderedMap K String → Option BoundedMapSetResult → Prop
  | keeps (result : Option BoundedMapSetResult) (h : result≠some .ok) : Turned opts m m.map m.origins result
  | updates (key : K) (old value : V) (h : m.map.get key=some old) :
    Turned opts m (m.update key value).map m.origins (some .ok)
  | inserts (a : Admission K V) (hdue : m.Due a) (h : m.Admissible opts a) (hsize : m.size < opts.maxSize) :
    Turned opts m (m.insert a).map (m.insert a).origins (some .ok)
  | evicts (a : Admission K V) (victim : K) (old : V) (hdue : m.Due a) (h : m.Admissible opts a)
      (hvictim : m.map.get victim=some old) :
    Turned opts m ((m.delete victim).insert a).map ((m.delete victim).insert a).origins (some .ok)

def NamesPresent (opts : BoundedMapOptions K V) : Prop :=
  ∀ now map key value victim, opts.selectEviction now map key value=.evict victim → (map.get victim).isSome=true

theorem set_turned (m : BoundedMap K V) (key : K) (value : V) (origin : Option String) :
    Turned opts m (m.set opts key value origin).1.map (m.set opts key value origin).1.origins
      (m.set opts key value origin).2 := by
  unfold BoundedMap.set
  split
  case isTrue hhas =>
    obtain ⟨old,hold⟩ := Option.isSome_iff_exists.mp hhas
    exact .updates key old value hold
  case isFalse =>
    split
    · exact .keeps _ (nofun)
    · exact .keeps _ (nofun)

theorem admitNewKey_turned (hpol : NamesPresent opts)
    {rest : List (Admission K V)} (hevi : m.evicting=none) (hque : m.admissionQueue=a::rest) (now : Nat) :
    let r := admitNewKey opts { m with admissionQueue := rest } now a
    Turned opts m r.1.map r.1.origins r.2 ∧ ∀ e∈r.1.evicting, r.1.Admissible opts e.admission := by
  have hdue : m.Due a := .inr ⟨hevi,by rw [hque]; rfl⟩
  have hend : ∀ m' : BoundedMap K V, m'.evicting=none → ∀ e∈m'.evicting, m'.Admissible opts e.admission := by
    intro m' hnone e he
    rw [hnone] at he
    cases he
  dsimp only
  unfold admitNewKey
  split
  case isTrue hhas =>
    obtain ⟨old,hold⟩ := Option.isSome_iff_exists.mp hhas
    exact ⟨.updates a.key old a.value hold,hend _ rfl⟩
  case isFalse hhas =>
    split
    · exact ⟨.keeps _ (by simp [answer]),hend _ rfl⟩
    case isFalse hquo =>
      have hadm : m.Admissible opts a := ⟨has_eq_false hhas,Bool.not_eq_true _ ▸ hquo⟩
      split
      case isTrue hful =>
        split
        · exact ⟨.keeps _ (by simp [answer]),hend _ rfl⟩
        case h_2 victim hsel =>
          split
          case h_1 evictedValue hfil =>
            refine ⟨.keeps _ (by simp [answer]),?_⟩
            intro e he
            cases he
            exact hadm.of_sublist (.refl _) hadm.absent
          case h_2 =>
            obtain ⟨old,hold⟩ := Option.isSome_iff_exists.mp (hpol _ _ _ _ _ hsel)
            exact ⟨.evicts a victim old hdue hadm hold,hend _ rfl⟩
      case isFalse hroo => exact ⟨.inserts a hdue hadm (Nat.not_le.mp hroo),hend _ rfl⟩

variable [DecidableEq V] {e : Eviction K V}

theorem resume_turned (hevi : m.evicting=some e)
    (hadm : m.Admissible opts e.admission) (audited : Bool) :
    Turned opts m (m.resume e audited).1.map (m.resume e audited).1.origins (m.resume e audited).2 := by
  have hdue : m.Due e.admission := .inl (by rw [hevi]; rfl)
  unfold resume
  split
  · exact .keeps _ (by simp [answer])
  · split
    · exact .keeps _ (by simp [answer])
    case isFalse hsam => exact .evicts e.admission e.evict e.evictedValue hdue hadm (not_not.mp hsam)

theorem resume_evicting (m : BoundedMap K V) (e : Eviction K V) (audited : Bool) :
    (m.resume e audited).1.evicting=none := by
  unfold resume
  split
  · rfl
  · split
    · rfl
    · rfl

structure Sound (opts : BoundedMapOptions K V) (m : BoundedMap K V) : Prop where
  within : m.Within opts
  waiting : ∀ e∈m.evicting, m.Admissible opts e.admission

omit [DecidableEq V] in
theorem Turned.within {result : Option BoundedMapSetResult} (h : m.Within opts)
    (htur : Turned opts m m'.map m'.origins result) : m'.Within opts := by
  have htra : ∀ n : BoundedMap K V, n.map=m'.map → n.origins=m'.origins → n.Within opts → m'.Within opts := by
    intro n hmap hori hn
    refine ⟨?_,?_,?_⟩
    · rw [size,← hmap]
      exact hn.size_le
    · unfold originSize
      rw [← hori]
      exact hn.originSize_le
    · rw [← hmap,← hori]
      exact hn.covered
  generalize hmap : m'.map=map at htur
  generalize hori : m'.origins=origins at htur
  rw [hmap,hori] at htra
  cases htur with
  | keeps result hres => exact htra m rfl rfl h
  | updates key old value hkey => exact htra _ rfl rfl (h.update hkey value)
  | inserts a hdue hadm hsiz => exact htra _ rfl rfl (h.insert hadm hsiz)
  | evicts a victim old hdue hadm hvic =>
    have hlt := OrderedMap.length_erase_lt hvic
    have hle := h.size_le
    unfold size at hle
    exact htra _ rfl rfl ((h.delete victim).insert (hadm.delete victim) (Nat.lt_of_lt_of_le hlt hle))

theorem Sound.step (hpol : NamesPresent opts) (h : m.Sound opts) (turn : Turn K V) :
    (m.step opts turn).1.Sound opts := by
  unfold BoundedMap.step
  split
  case h_1 key value origin =>
    refine ⟨(set_turned m key value origin).within h.within,?_⟩
    unfold BoundedMap.set
    split
    case isTrue hhas =>
      obtain ⟨old,hold⟩ := Option.isSome_iff_exists.mp hhas
      intro e he
      exact (h.waiting e he).update hold value
    case isFalse =>
      split
      · exact h.waiting
      · intro e he
        exact (h.waiting e he).of_sublist (.refl _) (h.waiting e he).absent
  case h_2 key => exact ⟨h.within.delete key,fun e he => (h.waiting e he).delete key⟩
  case h_3 predicate => exact ⟨h.within.sweep predicate,fun e he => (h.waiting e he).sweep predicate⟩
  case h_4 now =>
    split
    case h_1 a rest hevi hque =>
      have hadm := admitNewKey_turned hpol hevi hque now
      exact ⟨hadm.1.within h.within,hadm.2⟩
    case h_2 => exact h
  case h_5 ok =>
    split
    case h_1 e hevi =>
      refine ⟨(resume_turned hevi (h.waiting e hevi) ok).within h.within,?_⟩
      intro e' he'
      rw [resume_evicting] at he'
      cases he'
    case h_2 => exact h
  case h_6 =>
    split
    · refine ⟨⟨h.within.size_le,h.within.originSize_le,h.within.covered⟩,?_⟩
      intro e he
      exact (h.waiting e he).of_sublist (.refl _) (h.waiting e he).absent
    · exact h

theorem sound_run (hpol : NamesPresent opts) (turns : List (Turn K V)) : (boundedMapRun opts turns).Sound opts := by
  induction turns using List.reverseRecOn with
  | nil => exact ⟨⟨Nat.zero_le _,fun _ _ _ => Nat.zero_le _,fun _ _ => rfl⟩,fun _ he => nomatch he⟩
  | append_singleton turns turn ih =>
    rw [boundedMapRun,List.foldl_append]
    exact ih.step hpol turn

variable {turn : Turn K V}

theorem step_turned (hpol : NamesPresent opts) (h : m.Sound opts)
    (hdel : ∀ key, turn≠.delete key) (hswe : ∀ predicate, turn≠.sweep predicate) :
    Turned opts m (m.step opts turn).1.map (m.step opts turn).1.origins (m.step opts turn).2 := by
  unfold BoundedMap.step
  split
  case h_1 key value origin => exact set_turned m key value origin
  case h_2 key => exact absurd rfl (hdel key)
  case h_3 predicate => exact absurd rfl (hswe predicate)
  case h_4 now =>
    split
    case h_1 a rest hevi hque => exact (admitNewKey_turned hpol hevi hque now).1
    case h_2 => exact .keeps _ (nofun)
  case h_5 ok =>
    split
    case h_1 e hevi => exact resume_turned hevi (h.waiting e hevi) ok
    case h_2 => exact .keeps _ (nofun)
  case h_6 =>
    split
    · exact .keeps _ (nofun)
    · exact .keeps _ (nofun)

omit [DecidableEq V] in
theorem insert_origin (hnew : m.origins.get a.key=none) :
    (m.insert a).origins.get a.key=a.origin := by
  unfold BoundedMap.insert
  cases a.origin with
  | none => exact hnew
  | some own => exact OrderedMap.get_set_self _ _ _

omit [DecidableEq V] in
theorem insert_origin_ne (m : BoundedMap K V) (hne : key≠a.key) :
    (m.insert a).origins.get key=m.origins.get key := by
  unfold BoundedMap.insert
  cases a.origin with
  | none => rfl
  | some own => exact OrderedMap.get_set_ne _ _ hne

omit [DecidableEq V] in
theorem insert_get_ne (m : BoundedMap K V) (hne : key≠a.key) :
    (m.insert a).map.get key=m.map.get key := OrderedMap.get_set_ne _ _ hne

theorem step_origin (hpol : NamesPresent opts) (h : m.Sound opts) (turn : Turn K V)
    {new : V} (hbef : m.map.get key=some old) (haft : (m.step opts turn).1.map.get key=some new) :
    (m.step opts turn).1.origins.get key=m.origins.get key := by
  by_cases hdel : ∃ other, turn=.delete other
  · obtain ⟨other,rfl⟩ := hdel
    simp only [BoundedMap.step,BoundedMap.delete,OrderedMap.get_erase] at haft ⊢
    split at haft
    · cases haft
    case isFalse hne => rw [if_neg hne]
  · by_cases hswe : ∃ predicate, turn=.sweep predicate
    · obtain ⟨predicate,rfl⟩ := hswe
      obtain ⟨hold,hkee⟩ := OrderedMap.get_filter_eq_some.mp haft
      apply Option.ext
      intro origin
      simp only [BoundedMap.step,BoundedMap.sweep,OrderedMap.get_filter_eq_some,hold,Option.any_some,hkee,
        and_true]
    · have htur := step_turned hpol h (fun other heq => hdel ⟨other,heq⟩)
        (fun predicate heq => hswe ⟨predicate,heq⟩)
      generalize (m.step opts turn).1.map=map at htur haft
      generalize (m.step opts turn).1.origins=origins at htur ⊢
      generalize (m.step opts turn).2=result at htur
      cases htur with
      | keeps result hres => rfl
      | updates other oldValue value hoth => rfl
      | inserts a hdue hadm hsiz =>
        apply insert_origin_ne
        rintro rfl
        rw [hadm.absent] at hbef
        cases hbef
      | evicts a victim oldValue hdue hadm hvic =>
        have hne : key≠a.key := by
          rintro rfl
          rw [hadm.absent] at hbef
          cases hbef
        rw [insert_get_ne _ hne,BoundedMap.delete,OrderedMap.get_erase] at haft
        rw [insert_origin_ne _ hne,BoundedMap.delete,OrderedMap.get_erase]
        split at haft
        · cases haft
        case isFalse hkep => rw [if_neg hkep]

theorem step_inserted (hpol : NamesPresent opts) (h : m.Sound opts) (turn : Turn K V)
    {new : V} (hbef : m.map.get key=none) (haft : (m.step opts turn).1.map.get key=some new) :
    ∃ a, m.Due a ∧ a.key=key ∧ a.value=new ∧ (m.step opts turn).1.origins.get key=a.origin := by
  have hnew := h.within.covered key hbef
  by_cases hdel : ∃ other, turn=.delete other
  · obtain ⟨other,rfl⟩ := hdel
    simp [BoundedMap.step,BoundedMap.delete,OrderedMap.get_erase,hbef] at haft
  · by_cases hswe : ∃ predicate, turn=.sweep predicate
    · obtain ⟨predicate,rfl⟩ := hswe
      rw [BoundedMap.step,sweep_get,hbef] at haft
      cases haft
    · have htur := step_turned hpol h (fun other heq => hdel ⟨other,heq⟩)
        (fun predicate heq => hswe ⟨predicate,heq⟩)
      generalize (m.step opts turn).1.map=map at htur haft
      generalize (m.step opts turn).1.origins=origins at htur ⊢
      generalize (m.step opts turn).2=result at htur
      cases htur with
      | keeps result hres =>
        rw [hbef] at haft
        cases haft
      | updates other oldValue value hoth =>
        have hne : key≠other := by
          rintro rfl
          rw [hbef] at hoth
          cases hoth
        rw [BoundedMap.update,OrderedMap.get_set_ne _ _ hne,hbef] at haft
        cases haft
      | inserts a hdue hadm hsiz =>
        by_cases hkey : key=a.key
        · subst hkey
          rw [BoundedMap.insert,OrderedMap.get_set_self] at haft
          exact ⟨a,hdue,rfl,Option.some.inj haft,insert_origin hnew⟩
        · rw [insert_get_ne _ hkey,hbef] at haft
          cases haft
      | evicts a victim oldValue hdue hadm hvic =>
        have hgon : (m.delete victim).map.get key=none ∧ (m.delete victim).origins.get key=none := by
          simp only [BoundedMap.delete,OrderedMap.get_erase,hbef,hnew,ite_self,and_self]
        by_cases hkey : key=a.key
        · subst hkey
          rw [BoundedMap.insert,OrderedMap.get_set_self] at haft
          exact ⟨a,hdue,rfl,Option.some.inj haft,insert_origin hgon.2⟩
        · rw [insert_get_ne _ hkey,hgon.1] at haft
          cases haft

/-- The values passed to `set`. -/
def valuesOf (turns : List (Turn K V)) : List V :=
  turns.filterMap fun
    | .set _ value _ => some value
    | _ => none

omit [DecidableEq K] [DecidableEq V] in
theorem valuesOf_append (turns more : List (Turn K V)) : valuesOf (turns++more)=valuesOf turns++valuesOf more :=
  List.filterMap_append

/-- Every value in the map, in the queue or under eviction has been passed to `set`. -/
structure Passed (values : List V) (m : BoundedMap K V) : Prop where
  stored : ∀ key value, m.map.get key=some value → value∈values
  queued : ∀ a∈m.admissionQueue, a.value∈values
  evicting : ∀ e∈m.evicting, e.admission.value∈values ∧ e.evictedValue∈values

omit [DecidableEq V] in
theorem get_update (m : BoundedMap K V) (key other : K) (value : V) :
    (m.update key value).map.get other=if other=key then some value else m.map.get other :=
  OrderedMap.get_set m.map key value other

omit [DecidableEq V] in
theorem get_insert_delete {victim : K} {value : V}
    (h : ((m.delete victim).insert a).map.get key=some value) : value=a.value ∨ m.map.get key=some value := by
  by_cases hkey : key=a.key
  · subst hkey
    rw [BoundedMap.insert,OrderedMap.get_set_self] at h
    exact .inl (Option.some.inj h).symm
  · rw [insert_get_ne _ hkey,BoundedMap.delete,OrderedMap.get_erase] at h
    split at h
    · cases h
    · exact .inr h

variable {values : List V}

omit [DecidableEq V] in
theorem Passed.update (h : m.Passed values) {value : V}
    (hval : value∈values) : (m.update key value).Passed values := by
  refine ⟨?_,h.queued,h.evicting⟩
  intro other otherValue hoth
  rw [get_update] at hoth
  split at hoth
  · cases hoth
    exact hval
  · exact h.stored other otherValue hoth

omit [DecidableEq V] in
theorem Passed.ends (h : m.Passed values) (hque : m'.admissionQueue=m.admissionQueue)
    (hevi : m'.evicting=none) (hsto : ∀ key value, m'.map.get key=some value → value∈values) :
    m'.Passed values := by
  refine ⟨hsto,hque ▸ h.queued,?_⟩
  rw [hevi]
  intro e he
  cases he

omit [DecidableEq V] in
theorem Passed.admitNewKey (h : m.Passed values)
    (ha : a.value∈values) (now : Nat) : (admitNewKey opts m now a).1.Passed values := by
  have hins : ∀ key value, (m.insert a).map.get key=some value → value∈values := by
    intro key value hget
    rw [BoundedMap.insert,OrderedMap.get_set] at hget
    split at hget
    · cases hget
      exact ha
    · exact h.stored key value hget
  unfold BoundedMap.admitNewKey
  split
  · exact h.ends rfl rfl (h.update ha).stored
  · split
    · exact h.ends rfl rfl h.stored
    · split
      · split
        · exact h.ends rfl rfl h.stored
        case h_2 victim hsel =>
          split
          case h_1 evictedValue hfil =>
            refine ⟨h.stored,h.queued,?_⟩
            intro e he
            cases he
            exact ⟨ha,h.stored victim evictedValue (Option.filter_eq_some_iff.mp hfil).1⟩
          case h_2 =>
            refine h.ends rfl rfl ?_
            intro key value hget
            rcases get_insert_delete hget with rfl | hold
            · exact ha
            · exact h.stored key value hold
      · exact h.ends rfl rfl hins

theorem Passed.step (h : m.Passed values)
    (hval : ∀ key value origin, turn=.set key value origin → value∈values) :
    (m.step opts turn).1.Passed values := by
  unfold BoundedMap.step
  split
  case h_1 key value origin =>
    have hvae := hval key value origin rfl
    unfold BoundedMap.set
    split
    · exact h.update hvae
    · split
      · exact h
      · refine ⟨h.stored,?_,h.evicting⟩
        intro a ha
        rcases List.mem_append.mp ha with ha | ha
        · exact h.queued a ha
        · rw [List.mem_singleton.mp ha]
          exact hvae
  case h_2 key =>
    refine ⟨?_,h.queued,h.evicting⟩
    intro other value hget
    simp only [BoundedMap.delete,OrderedMap.get_erase] at hget
    split at hget
    · cases hget
    · exact h.stored other value hget
  case h_3 predicate =>
    refine ⟨?_,h.queued,h.evicting⟩
    intro other value hget
    exact h.stored other value (OrderedMap.get_filter_eq_some.mp hget).1
  case h_4 now =>
    split
    case h_1 a rest hevi hque =>
      apply Passed.admitNewKey
      · refine ⟨h.stored,?_,h.evicting⟩
        intro b hb
        exact h.queued b (hque ▸ List.mem_cons_of_mem a hb)
      · exact h.queued a (hque ▸ List.mem_cons_self)
    case h_2 => exact h
  case h_5 ok =>
    split
    case h_1 e hevi =>
      unfold resume
      split
      · exact h.ends rfl rfl h.stored
      · split
        · exact h.ends rfl rfl h.stored
        · refine h.ends rfl rfl ?_
          intro key value hget
          rcases get_insert_delete hget with rfl | hold
          · exact (h.evicting e hevi).1
          · exact h.stored key value hold
    case h_2 => exact h
  case h_6 =>
    split
    · exact ⟨h.stored,h.queued,h.evicting⟩
    · exact h

omit [DecidableEq V] in
theorem Passed.mono {more : List V} (h : m.Passed values) :
    m.Passed (values++more) where
  stored key value hget := List.mem_append_left more (h.stored key value hget)
  queued a ha := List.mem_append_left more (h.queued a ha)
  evicting e he := ⟨List.mem_append_left more (h.evicting e he).1,List.mem_append_left more (h.evicting e he).2⟩

theorem passed_run (turns : List (Turn K V)) : (boundedMapRun opts turns).Passed (valuesOf turns) := by
  induction turns using List.reverseRecOn with
  | nil => exact ⟨nofun,nofun,nofun⟩
  | append_singleton turns turn ih =>
    rw [boundedMapRun,List.foldl_append,valuesOf_append]
    apply ih.mono.step
    rintro key value origin rfl
    exact List.mem_append_right _ List.mem_cons_self

/-- The eviction stays, and the value under its key is the one it found or one passed since. -/
structure Waits (e : Eviction K V) (turns : List (Turn K V)) (m : BoundedMap K V) : Prop where
  evicting : m.evicting=some e
  replaced : ∀ value origin, Turn.set e.evict value origin∈turns →
    ∀ now, m.map.get e.evict=some now → now∈valuesOf turns

theorem Waits.step {turns : List (Turn K V)} (h : m.Waits e turns) (haud : ∀ ok, turn≠.audited ok) : (m.step opts turn).1.Waits e (turns++[turn]) := by
  have hold : ∀ m' : BoundedMap K V, (∀ now, m'.map.get e.evict=some now → m.map.get e.evict=some now) →
      (∀ value origin, turn≠.set e.evict value origin) →
      ∀ value origin, Turn.set e.evict value origin∈turns++[turn] →
        ∀ now, m'.map.get e.evict=some now → now∈valuesOf (turns++[turn]) := by
    intro m' hget hoth value origin hmem now hnow
    rw [valuesOf_append]
    apply List.mem_append_left
    rcases List.mem_append.mp hmem with hmem | hmem
    · exact h.replaced value origin hmem now (hget now hnow)
    · exact absurd (List.mem_singleton.mp hmem).symm (hoth value origin)
  cases turn with
  | set key value origin =>
    by_cases hkey : key=e.evict
    · subst hkey
      refine ⟨?_,?_⟩
      · simp only [BoundedMap.step,BoundedMap.set]
        split
        · exact h.evicting
        · split
          · exact h.evicting
          · exact h.evicting
      · intro _ _ _ now hnow
        rw [valuesOf_append]
        apply List.mem_append_right
        simp only [BoundedMap.step,BoundedMap.set] at hnow
        split at hnow
        · rw [get_update,if_pos rfl] at hnow
          cases hnow
          exact List.mem_cons_self
        case isFalse hhas =>
          have hnone := has_eq_false hhas
          split at hnow
          · rw [hnone] at hnow
            cases hnow
          · rw [hnone] at hnow
            cases hnow
    · refine ⟨?_,hold _ ?_ ?_⟩
      · simp only [BoundedMap.step,BoundedMap.set]
        split
        · exact h.evicting
        · split
          · exact h.evicting
          · exact h.evicting
      · intro now hnow
        simp only [BoundedMap.step,BoundedMap.set] at hnow
        split at hnow
        · rwa [get_update,if_neg (Ne.symm hkey)] at hnow
        · split at hnow
          · exact hnow
          · exact hnow
      · rintro _ _ ⟨⟩
        exact hkey rfl
  | delete key =>
    refine ⟨h.evicting,hold _ ?_ (by simp)⟩
    intro now hnow
    simp only [BoundedMap.step,BoundedMap.delete,OrderedMap.get_erase] at hnow
    split at hnow
    · cases hnow
    · exact hnow
  | sweep predicate =>
    exact ⟨h.evicting,hold _ (fun now hnow => (OrderedMap.get_filter_eq_some.mp hnow).1) (by simp)⟩
  | admitNext now =>
    have hsam : (m.step opts (.admitNext now)).1=m := by
      simp only [BoundedMap.step,h.evicting]
    rw [hsam]
    exact ⟨h.evicting,hold m (fun _ hnow => hnow) (by simp)⟩
  | audited ok => exact absurd rfl (haud ok)
  | released =>
    simp only [BoundedMap.step]
    split
    · exact ⟨h.evicting,hold _ (fun _ hnow => hnow) (by simp)⟩
    · exact ⟨h.evicting,hold _ (fun _ hnow => hnow) (by simp)⟩

theorem waits_run {before during : List (Turn K V)}
    (hevi : (boundedMapRun opts before).evicting=some e)
    (haud : ∀ turn∈during, ∀ ok, turn≠.audited ok) :
    (boundedMapRun opts (before++during)).Waits e during := by
  induction during using List.reverseRecOn with
  | nil =>
    rw [List.append_nil]
    exact ⟨hevi,nofun⟩
  | append_singleton during turn ih =>
    rw [← List.append_assoc,boundedMapRun,List.foldl_append]
    apply (ih fun t ht => haud t (List.mem_append_left _ ht)).step
    exact haud turn (List.mem_append_right _ List.mem_cons_self)

theorem resume_replaced (h : m.map.get e.evict≠some e.evictedValue)
    (ok : Bool) : (m.resume e ok).1.map=m.map ∧ (m.resume e ok).1.origins=m.origins := by
  unfold resume
  split
  · exact ⟨rfl,rfl⟩
  · exact ⟨rfl,rfl⟩

end BoundedMap

def sampleOptions : BoundedMapOptions Nat Nat where
  maxSize := 2
  maxPerOrigin := some 1
  maxPendingAdmissionWaiters := 4
  selectEviction := fun _ map _ _ => (map.entries.head?).elim .refuse fun entry => .evict entry.1
  isUndefined := fun _ => false

/-- Three keys are set; while the third waits for its eviction of the first, the first is set again. -/
def sampleTurns : List (Turn Nat Nat) :=
  [.set 1 10 (some "a"),.admitNext 0,.set 2 20 (some "b"),.admitNext 0,.set 3 30 (some "c"),.admitNext 0,.set 1 11 none]

end CastleWall.Core
