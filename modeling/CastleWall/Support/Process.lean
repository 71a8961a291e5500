import CastleWall.Support.Effect

/-! # Programs in atomic steps

A program reads the shared state or updates it, one step at a time. It can be run alone, stopped after any
number of steps, or interleaved with others. -/

namespace CastleWall

inductive Process (σ ε α : Type) where
  | done (result : Except ε α)
  | read (next : σ → Process σ ε α)
  | write (update : σ → σ) (next : Process σ ε α)

namespace Process

variable {σ ε α β : Type}

def bind (m : Process σ ε α) (f : α → Process σ ε β) : Process σ ε β :=
  match m with
  | .done (.ok a) => f a
  | .done (.error err) => .done (.error err)
  | .read next => .read fun s => (next s).bind f
  | .write update next => .write update (next.bind f)

instance : Monad (Process σ ε) where
  pure a := .done (.ok a)
  bind := bind

def fail (err : ε) : Process σ ε α := .done (.error err)

def observe (f : σ → α) : Process σ ε α := .read fun s => .done (.ok (f s))

variable (update : σ → σ)

def modify : Process σ ε Unit := .write update (.done (.ok ()))

/-- The program fails unless the condition holds. -/
def require (p : Prop) [Decidable p] (err : ε) : Process σ ε Unit := if p then pure () else fail err

def ensure (m : Process σ ε α) (cleanup : σ → σ) : Process σ ε α :=
  match m with
  | .done result => .write cleanup (.done result)
  | .read next => .read fun s => (next s).ensure cleanup
  | .write update next => .write update (next.ensure cleanup)

def run (m : Process σ ε α) : Effect σ ε α := fun s =>
  match m with
  | .done result => (result,s)
  | .read next => (next s).run s
  | .write update next => next.run (update s)

@[simp] theorem run_pure (a : α) : (pure a : Process σ ε α).run=pure a := rfl

@[simp] theorem run_fail (err : ε) : (fail err : Process σ ε α).run=Effect.fail err := rfl

@[simp] theorem run_observe (f : σ → α) (s : σ) : (observe f : Process σ ε α).run s=(.ok (f s),s) := rfl

@[simp] theorem run_modify (s : σ) :
    (modify update : Process σ ε Unit).run s=(.ok (),update s) := rfl

theorem run_require (p : Prop) [Decidable p] (err : ε) :
    (require p err : Process σ ε Unit).run=Effect.require p err := by
  rw [require,Effect.require]
  split_ifs <;> rfl

theorem run_bind (m : Process σ ε α) (f : α → Process σ ε β) :
    (m >>= f).run=m.run >>= fun a => (f a).run := by
  funext s
  change (m.bind f).run s=_
  induction m generalizing s with
  | done result =>
    cases result with
    | ok a => rfl
    | error err => rfl
  | read next ih =>
    rw [bind,run,ih]
    rfl
  | write update next ih =>
    rw [bind,run,ih]
    rfl

@[simp] theorem run_observe_bind (f : σ → α) (k : α → Process σ ε β) (s : σ) :
    (observe f >>= k).run s=(k (f s)).run s := rfl

@[simp] theorem run_modify_bind (k : Unit → Process σ ε β) (s : σ) :
    (modify update >>= k).run s=(k ()).run (update s) := rfl

variable {s' : σ}

theorem run_require_bind_eq_ok {p : Prop} [Decidable p] {err : ε} {k : Unit → Process σ ε β} {s : σ} {b : β}
    (h : (require p err >>= k).run s=(.ok b,s')) : p ∧ (k ()).run s=(.ok b,s') := by
  rw [run_bind,run_require] at h
  obtain ⟨u,s₁,hreq,hk⟩ := Effect.bind_eq_ok h
  obtain ⟨hp,rfl⟩ := Effect.require_eq_ok hreq
  exact ⟨hp,hk⟩

theorem run_ensure (m : Process σ ε α) (cleanup : σ → σ) (s : σ) :
    (m.ensure cleanup).run s=((m.run s).1,cleanup (m.run s).2) := by
  induction m generalizing s with
  | done result => rfl
  | read next ih => exact ih s s
  | write update next ih => exact ih (update s)

def after : Nat → Process σ ε α → σ → σ
  | 0, _, s => s
  | _+1, .done _, s => s
  | n+1, .read next, s => after n (next s) s
  | n+1, .write update next, s => after n next (update s)

def written : Nat → Process σ ε α → σ → σ
  | _, .done _, s => s
  | n, .read next, s => written n (next s) s
  | 0, .write _ _, s => s
  | n+1, .write update next, s => written n next (update s)

@[simp] theorem written_fail (n : Nat) (err : ε) (s : σ) : (fail err : Process σ ε α).written n s=s := by
  cases n <;> rfl

@[simp] theorem written_pure (n : Nat) (a : α) (s : σ) : (pure a : Process σ ε α).written n s=s := by
  cases n <;> rfl

@[simp] theorem written_observe_bind (n : Nat) (f : σ → α) (k : α → Process σ ε β) (s : σ) :
    (observe f >>= k).written n s=(k (f s)).written n s := by
  cases n <;> rfl

@[simp] theorem written_zero_modify_bind (k : Unit → Process σ ε β) (s : σ) :
    (modify update >>= k).written 0 s=s := rfl

@[simp] theorem written_succ_modify_bind (n : Nat) (update : σ → σ) (k : Unit → Process σ ε β) (s : σ) :
    (modify update >>= k).written (n+1) s=(k ()).written n (update s) := rfl

def steps : Process σ ε α → σ → Nat
  | .done _, _ => 0
  | .read next, s => (next s).steps s+1
  | .write update next, s => next.steps (update s)+1

variable {a : α}

theorem after_bind_add {m : Process σ ε α} {k : α → Process σ ε β} {s : σ}
    (h : m.run s=(.ok a,s')) (n : Nat) : (m >>= k).after (m.steps s+n) s=(k a).after n s' := by
  change (m.bind k).after (m.steps s+n) s=(k a).after n s'
  induction m generalizing s with
  | done result =>
    cases h
    rw [steps,Nat.zero_add]
    rfl
  | read next ih =>
    rw [steps,Nat.add_right_comm]
    exact ih s h
  | write update next ih =>
    rw [steps,Nat.add_right_comm]
    exact ih h

theorem after_ensure_bind_add {m : Process σ ε α} {k : α → Process σ ε β} {cleanup : σ → σ} {s : σ}
    (h : m.run s=(.ok a,s')) (n : Nat) :
    ((m >>= k).ensure cleanup).after (m.steps s+n) s=((k a).ensure cleanup).after n s' := by
  change ((m.bind k).ensure cleanup).after (m.steps s+n) s=((k a).ensure cleanup).after n s'
  induction m generalizing s with
  | done result =>
    cases h
    rw [steps,Nat.zero_add]
    rfl
  | read next ih =>
    rw [steps,Nat.add_right_comm]
    exact ih s h
  | write update next ih =>
    rw [steps,Nat.add_right_comm]
    exact ih h

theorem steps_bind {m : Process σ ε α} {k : α → Process σ ε β} {s : σ}
    (h : m.run s=(.ok a,s')) : (m >>= k).steps s=m.steps s+(k a).steps s' := by
  change (m.bind k).steps s=m.steps s+(k a).steps s'
  induction m generalizing s with
  | done result =>
    cases h
    rw [steps,Nat.zero_add]
    rfl
  | read next ih =>
    rw [bind,steps,steps,ih s h,Nat.add_right_comm]
  | write update next ih =>
    rw [bind,steps,steps,ih h,Nat.add_right_comm]

def Follows (R : σ → σ → Prop) : Process σ ε α → σ → Prop
  | .done _, _ => True
  | .read next, s => Follows R (next s) s
  | .write update next, s => R s (update s) ∧ Follows R next (update s)

namespace Follows

variable {R : σ → σ → Prop} {m : Process σ ε α} {f : α → Process σ ε β} {s : σ}

theorem bind (hm : m.Follows R s) (hf : ∀ a s', m.run s=(.ok a,s') → (f a).Follows R s') :
    (m >>= f).Follows R s := by
  change (m.bind f).Follows R s
  induction m generalizing s with
  | done result =>
    cases result with
    | ok a => exact hf a s rfl
    | error err => trivial
  | read next ih => exact ih s hm hf
  | write update next ih => exact ⟨hm.1,ih hm.2 hf⟩

theorem observe {f : σ → α} {k : α → Process σ ε β} (hk : (k (f s)).Follows R s) :
    (observe f >>= k).Follows R s := hk

theorem modify {update : σ → σ} {k : Unit → Process σ ε β} (h : R s (update s)) (hk : (k ()).Follows R (update s)) :
    (modify update >>= k).Follows R s := ⟨h,hk⟩

theorem require {p : Prop} [Decidable p] {err : ε} {k : Unit → Process σ ε β} (hk : p → (k ()).Follows R s) :
    (require p err >>= k).Follows R s := by
  by_cases hp : p
  · rw [Process.require,if_pos hp]
    exact hk hp
  · rw [Process.require,if_neg hp]
    trivial

theorem mono {R' : σ → σ → Prop} (h : m.Follows R s) (hR : ∀ a b, R a b → R' a b) : m.Follows R' s := by
  induction m generalizing s with
  | done result => trivial
  | read next ih => exact ih s h
  | write update next ih => exact ⟨hR _ _ h.1,ih h.2⟩

theorem ensure {cleanup : σ → σ} (h : m.Follows R s) (hcle : ∀ s, R s (cleanup s)) :
    (m.ensure cleanup).Follows R s := by
  induction m generalizing s with
  | done result => exact ⟨hcle s,trivial⟩
  | read next ih => exact ih s h
  | write update next ih => exact ⟨h.1,ih h.2⟩

theorem after [Std.Refl R] [IsTrans σ R] (h : m.Follows R s) (n : Nat) : R s (m.after n s) := by
  induction m generalizing n s with
  | done result => cases n <;> exact refl s
  | read next ih =>
    cases n with
    | zero => exact refl s
    | succ n => exact ih s h n
  | write update next ih =>
    cases n with
    | zero => exact refl s
    | succ n => exact IsTrans.trans _ _ _ h.1 (ih h.2 n)

end Follows

/-- Wherever the program stops, alone, `I` holds; where it ends `Q` does. -/
def Safely (I : σ → Prop) (Q : Except ε α → σ → Prop) : Process σ ε α → σ → Prop
  | .done result, s => I s ∧ Q result s
  | .read next, s => Safely I Q (next s) s
  | .write update next, s => I s ∧ Safely I Q next (update s)

namespace Safely

variable {I : σ → Prop} {Q : Except ε α → σ → Prop} {m : Process σ ε α} {s : σ}

theorem start (h : m.Safely I Q s) : I s := by
  induction m generalizing s with
  | done result => exact h.1
  | read next ih => exact ih s h
  | write update next ih => exact h.1

theorem after (h : m.Safely I Q s) (n : Nat) : I (m.after n s) := by
  induction m generalizing n s with
  | done result => cases n <;> exact h.1
  | read next ih =>
    cases n with
    | zero => exact h.start
    | succ n => exact ih s h n
  | write update next ih =>
    cases n with
    | zero => exact h.1
    | succ n => exact ih h.2 n

theorem run (h : m.Safely I Q s) : I (m.run s).2 ∧ Q (m.run s).1 (m.run s).2 := by
  induction m generalizing s with
  | done result => exact h
  | read next ih => exact ih s h
  | write update next ih => exact ih h.2

theorem mono {Q' : Except ε α → σ → Prop} (h : m.Safely I Q s) (hQ : ∀ r s', I s' → Q r s' → Q' r s') :
    m.Safely I Q' s := by
  induction m generalizing s with
  | done result => exact ⟨h.1,hQ _ _ h.1 h.2⟩
  | read next ih => exact ih s h
  | write update next ih => exact ⟨h.1,ih h.2⟩

theorem weaken {J : σ → Prop} (h : m.Safely I Q s) (hIJ : ∀ s', I s' → J s') : m.Safely J Q s := by
  induction m generalizing s with
  | done result => exact ⟨hIJ s h.1,h.2⟩
  | read next ih => exact ih s h
  | write update next ih => exact ⟨hIJ s h.1,ih h.2⟩

theorem bind {R : Except ε α → σ → Prop} {Q : Except ε β → σ → Prop} {k : α → Process σ ε β}
    (hm : m.Safely I R s) (hk : ∀ a s', I s' → R (.ok a) s' → (k a).Safely I Q s')
    (herr : ∀ err s', I s' → R (.error err) s' → Q (.error err) s') : (m >>= k).Safely I Q s := by
  change (m.bind k).Safely I Q s
  induction m generalizing s with
  | done result =>
    cases result with
    | ok a => exact hk a s hm.1 hm.2
    | error err => exact ⟨hm.1,herr err s hm.1 hm.2⟩
  | read next ih => exact ih s hm
  | write update next ih => exact ⟨hm.1,ih hm.2⟩

theorem bind_ok {R : α → σ → Prop} {Q : Except ε β → σ → Prop} {k : α → Process σ ε β}
    (hm : m.Safely I (fun r s' => ∃ a, r=.ok a ∧ R a s') s)
    (hk : ∀ a s', I s' → R a s' → (k a).Safely I Q s') : (m >>= k).Safely I Q s := by
  refine hm.bind (fun a s' hs' hr => ?_) fun err s' hs' hr => ?_
  · obtain ⟨a',ha',hR⟩ := hr
    cases ha'
    exact hk a s' hs' hR
  · obtain ⟨a',ha',hR⟩ := hr
    cases ha'

theorem observe {f : σ → α} {Q : Except ε β → σ → Prop} {k : α → Process σ ε β} (hk : (k (f s)).Safely I Q s) :
    (observe f >>= k).Safely I Q s := hk

theorem modify {update : σ → σ} {Q : Except ε β → σ → Prop} {k : Unit → Process σ ε β} (h : I s)
    (hk : (k ()).Safely I Q (update s)) : (modify update >>= k).Safely I Q s := ⟨h,hk⟩

theorem require {p : Prop} [Decidable p] {err : ε} {Q : Except ε β → σ → Prop} {k : Unit → Process σ ε β}
    (hk : p → (k ()).Safely I Q s) (herr : ¬ p → I s ∧ Q (.error err) s) :
    (require p err >>= k).Safely I Q s := by
  by_cases hp : p
  · rw [Process.require,if_pos hp]
    exact hk hp
  · rw [Process.require,if_neg hp]
    exact herr hp

end Safely

structure Thread (σ ε α : Type) where
  seen : Option σ
  rest : Process σ ε α

structure Config (σ ε α : Type) where
  store : σ
  threads : List (Thread σ ε α)

/-- Programs that have not started. -/
def Config.start (s : σ) (programs : List (Process σ ε α)) : Config σ ε α :=
  ⟨s,programs.map fun m => ⟨none,m⟩⟩

namespace Config

variable (c : Config σ ε α)

def step (i : Nat) : Config σ ε α :=
  match c.threads[i]? with
  | some ⟨_,.read next⟩ => ⟨c.store,c.threads.set i ⟨some c.store,next c.store⟩⟩
  | some ⟨_,.write update next⟩ => ⟨update c.store,c.threads.set i ⟨none,next⟩⟩
  | _ => c

def runSchedule (c : Config σ ε α) : List Nat → Config σ ε α
  | [] => c
  | i::schedule => runSchedule (c.step i) schedule

theorem runSchedule_append (c : Config σ ε α) (first second : List Nat) :
    c.runSchedule (first++second)=(c.runSchedule first).runSchedule second := by
  induction first generalizing c with
  | nil => rfl
  | cons i first ih => exact ih (c.step i)

section View

variable {τ : Type} (view : σ → τ)

/-- If the step changes what the view shows, then the program that moves last read what the view shows now. -/
def Undisturbed (i : Nat) : Prop :=
  ∀ seen update next, c.threads[i]? = some ⟨seen,.write update next⟩ → view (update c.store)≠view c.store →
    seen.map view=some (view c.store)

def AllUndisturbed (c : Config σ ε α) : List Nat → Prop
  | [] => True
  | i::schedule => c.Undisturbed view i ∧ AllUndisturbed (c.step i) schedule

theorem allUndisturbed_append (c : Config σ ε α) (first second : List Nat) :
    c.AllUndisturbed view (first++second) ↔
      c.AllUndisturbed view first ∧ (c.runSchedule first).AllUndisturbed view second := by
  induction first generalizing c with
  | nil => exact (and_iff_right trivial).symm
  | cons i first ih =>
    rw [List.cons_append,AllUndisturbed,AllUndisturbed,ih (c.step i),and_assoc]
    exact Iff.rfl

end View

end Config

/-- What a program writes over a view it read is valid, and related to it; other writes leave the view alone. -/
def Sound {τ : Type} (view : σ → τ) (V : τ → Prop) (R : τ → τ → Prop) : Option σ → Process σ ε α → Prop
  | _, .done _ => True
  | _, .read next => ∀ s, V (view s) → Sound view V R (some s) (next s)
  | none, .write update next => (∀ s, view (update s)=view s) ∧ Sound view V R none next
  | some seen, .write update next =>
    (∀ s, view s=view seen → V (view s) → V (view (update s)) ∧ R (view s) (view (update s))) ∧
      Sound view V R none next

namespace Sound

variable {τ : Type} {view : σ → τ} {V : τ → Prop} {R : τ → τ → Prop} {seen : Option σ}

theorem bind {m : Process σ ε α} {k : α → Process σ ε β} (hm : Sound view V R seen m)
    (hk : ∀ a seen, Sound view V R seen (k a)) : Sound view V R seen (m >>= k) := by
  change Sound view V R seen (m.bind k)
  induction m generalizing seen with
  | done result =>
    cases result with
    | ok a => exact hk a seen
    | error err =>
      cases seen with
      | none => trivial
      | some s => trivial
  | read next ih => exact fun s hs => ih s (hm s hs)
  | write update next ih =>
    cases seen with
    | none => exact ⟨hm.1,ih hm.2⟩
    | some s => exact ⟨hm.1,ih hm.2⟩

theorem done (result : Except ε α) : Sound view V R seen (.done result : Process σ ε α) := by
  cases seen with
  | none => trivial
  | some s => trivial

variable {next : Process σ ε α}

theorem keeps [Std.Refl R] {update : σ → σ} (h : ∀ s, view (update s)=view s)
    (hnex : Sound view V R none next) : Sound view V R seen (.write update next) := by
  cases seen with
  | none => exact ⟨h,hnex⟩
  | some seen =>
    refine ⟨fun s _ hs => ?_,hnex⟩
    rw [h s]
    exact ⟨hs,refl _⟩

theorem require {p : Prop} [Decidable p] {err : ε} {k : Unit → Process σ ε β}
    (hk : p → Sound view V R seen (k ())) : Sound view V R seen (require p err >>= k) := by
  by_cases hp : p
  · rw [Process.require,if_pos hp]
    exact hk hp
  · rw [Process.require,if_neg hp]
    exact done _

theorem ensure {m : Process σ ε α} (hm : Sound view V R seen m) {cleanup : σ → σ}
    (hcle : ∀ s, view (cleanup s)=view s) [Std.Refl R] : Sound view V R seen (m.ensure cleanup) := by
  induction m generalizing seen with
  | done result => exact keeps hcle (done result)
  | read next ih => exact fun s hs => ih s (hm s hs)
  | write update next ih =>
    cases seen with
    | none => exact ⟨hm.1,ih hm.2⟩
    | some s => exact ⟨hm.1,ih hm.2⟩

theorem write_next {update : σ → σ}
    (h : Sound view V R seen (.write update next)) : Sound view V R none next := by
  cases seen with
  | none => exact h.2
  | some s => exact h.2

theorem write [Std.Refl R] {update : σ → σ} {s : σ}
    (h : Sound view V R seen (.write update next)) (hs : V (view s))
    (hsee : view (update s)≠view s → seen.map view=some (view s)) :
    V (view (update s)) ∧ R (view s) (view (update s)) := by
  by_cases hsam : view (update s)=view s
  · rw [hsam]
    exact ⟨hs,refl _⟩
  cases seen with
  | none => exact absurd (h.1 s) hsam
  | some seen => exact h.1 s (Option.some.inj (hsee hsam)).symm hs

/-- Alone, the program makes related updates only. -/
theorem follows [Std.Refl R] {m : Process σ ε α} {s : σ} (h : Sound view V R seen m) (hs : V (view s))
    (hsee : seen=none ∨ seen=some s) : m.Follows (fun a b => R (view a) (view b)) s := by
  induction m generalizing seen s with
  | done result => trivial
  | read next ih => exact ih s (h s hs) hs (.inr rfl)
  | write update next ih =>
    have hwri := h.write hs fun hcha => by
      rcases hsee with rfl | rfl
      · exact absurd (h.1 s) hcha
      · rfl
    exact ⟨hwri.2,ih h.write_next hwri.1 (.inl rfl)⟩

theorem after [Std.Refl R] [IsTrans τ R] {m : Process σ ε α} {s : σ} (h : Sound view V R none m) (hs : V (view s))
    (n : Nat) : R (view s) (view (m.after n s)) := by
  have : Std.Refl fun a b : σ => R (view a) (view b) := ⟨fun a => refl (view a)⟩
  have : IsTrans σ fun a b : σ => R (view a) (view b) := ⟨fun a b c => IsTrans.trans (view a) (view b) (view c)⟩
  exact (h.follows hs (.inl rfl)).after n

end Sound

namespace Config

variable {τ : Type} {view : σ → τ} {V : τ → Prop} {R : τ → τ → Prop} {c : Config σ ε α}

def Safe (view : σ → τ) (V : τ → Prop) (R : τ → τ → Prop) (c : Config σ ε α) : Prop :=
  V (view c.store) ∧ ∀ t∈c.threads, Sound view V R t.seen t.rest

theorem safe_start {s : σ} (hs : V (view s)) {programs : List (Process σ ε α)}
    (h : ∀ m∈programs, Sound view V R none m) : Safe view V R (start s programs) := by
  refine ⟨hs,fun t ht => ?_⟩
  obtain ⟨m,hm,rfl⟩ := List.mem_map.mp ht
  exact h m hm

theorem Safe.step [Std.Refl R] (h : Safe view V R c) {i : Nat} (hi : c.Undisturbed view i) :
    Safe view V R (c.step i) ∧ R (view c.store) (view (c.step i).store) := by
  unfold Config.step
  split
  · rename_i seen next hget
    have hthr := h.2 _ (List.mem_of_getElem? hget)
    refine ⟨⟨h.1,fun t ht => ?_⟩,refl _⟩
    rcases List.mem_or_eq_of_mem_set ht with ht | rfl
    · exact h.2 t ht
    · exact hthr c.store h.1
  · rename_i seen update next hget
    have hthr := h.2 _ (List.mem_of_getElem? hget)
    have hwri := Sound.write hthr h.1 (hi seen update next hget)
    refine ⟨⟨hwri.1,fun t ht => ?_⟩,hwri.2⟩
    rcases List.mem_or_eq_of_mem_set ht with ht | rfl
    · exact h.2 t ht
    · exact Sound.write_next hthr
  · exact ⟨h,refl _⟩

/-- A schedule without disturbed writes keeps the view valid, and related to what it was. -/
theorem Safe.runSchedule [Std.Refl R] [IsTrans τ R] (h : Safe view V R c) {schedule : List Nat}
    (hund : c.AllUndisturbed view schedule) :
    Safe view V R (c.runSchedule schedule) ∧ R (view c.store) (view (c.runSchedule schedule).store) := by
  induction schedule generalizing c with
  | nil => exact ⟨h,refl _⟩
  | cons i schedule ih =>
    have hste := h.step hund.1
    have hres := ih hste.1 hund.2
    exact ⟨hres.1,IsTrans.trans _ _ _ hste.2 hres.2⟩

theorem allUndisturbed_replicate [Std.Refl R] {i : Nat} {seen : Option σ} {rest : Process σ ε α}
    (hget : c.threads[i]? = some ⟨seen,rest⟩) (hsou : Sound view V R seen rest) (hval : V (view c.store))
    (hsee : seen=none ∨ seen=some c.store) (n : Nat) : c.AllUndisturbed view (List.replicate n i) := by
  have hi : i < c.threads.length := (List.getElem?_eq_some_iff.mp hget).1
  induction n generalizing c seen rest with
  | zero => trivial
  | succ n ih =>
    cases rest with
    | done result =>
      refine ⟨fun seen' update next hget' => ?_,?_⟩
      · rw [hget] at hget'
        cases hget'
      · have hste : c.step i=c := by
          rw [step,hget]
        rw [hste]
        exact ih hget hsou hval hsee hi
    | read next =>
      refine ⟨fun seen' update next' hget' => ?_,?_⟩
      · rw [hget] at hget'
        cases hget'
      · have hste : c.step i=⟨c.store,c.threads.set i ⟨some c.store,next c.store⟩⟩ := by
          rw [step,hget]
        rw [hste]
        refine ih (List.getElem?_set_self hi) (hsou c.store hval) hval (.inr rfl) ?_
        rw [List.length_set]
        exact hi
    | write update next =>
      have hcur : view (update c.store)≠view c.store → seen.map view=some (view c.store) := by
        intro hcha
        rcases hsee with rfl | rfl
        · exact absurd (hsou.1 c.store) hcha
        · rfl
      refine ⟨fun seen' update' next' hget' => ?_,?_⟩
      · rw [hget] at hget'
        cases hget'
        exact hcur
      · have hste : c.step i=⟨update c.store,c.threads.set i ⟨none,next⟩⟩ := by
          rw [step,hget]
        rw [hste]
        refine ih (List.getElem?_set_self hi) hsou.write_next ?_ (.inl rfl) ?_
        · exact (hsou.write hval hcur).1
        · rw [List.length_set]
          exact hi

end Config

end Process

end CastleWall
