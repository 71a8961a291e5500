import Mathlib.Data.List.Basic

/-! # Programs whose calls fail

A process reads and changes one durable state through calls. Each call may fail without effect, fail
after its effect, or never return because the process is gone. The world records every state passed
through, so that a property of a run speaks of the states between two calls as well. -/

namespace CastleWall.Faulty

inductive Fault where
  | none
  | failed
  | late
  | crash
  deriving DecidableEq

/-- How a program ended: with a value, with an error it reports, or not at all. -/
inductive Ended (ε α : Type) where
  | ok (value : α)
  | error (err : ε)
  | crashed
  deriving DecidableEq

/-- The durable state, the states before it, newest first, and what each call of the running process
will meet. -/
structure World (κ σ : Type) where
  fault : Nat → κ → Fault
  calls : Nat
  state : σ
  earlier : List σ

variable {κ σ ε ι α β : Type}

namespace World

variable (w : World κ σ)

def history : List σ := w.state::w.earlier

def next : World κ σ := { w with calls := w.calls+1 }

def set (s : σ) : World κ σ := { w with state := s, earlier := w.history }

def restart (fault : Nat → κ → Fault) : World κ σ := { w with fault, calls := 0 }

def initial (s : σ) : World κ σ := ⟨fun _ _ => .none,0,s,[]⟩

end World

def Prog (κ σ ε α : Type) : Type := World κ σ → Ended ε α × World κ σ

namespace Prog

instance : Monad (Prog κ σ ε) where
  pure a := fun w => (.ok a,w)
  bind m f := fun w =>
    match m w with
    | (.ok a,w') => f a w'
    | (.error err,w') => (.error err,w')
    | (.crashed,w') => (.crashed,w')

def fail (err : ε) : Prog κ σ ε α := fun w => (.error err,w)

/-- A step that makes no call. -/
def ofExcept : Except ε α → Prog κ σ ε α
  | .ok a => pure a
  | .error err => fail err

/-- A call that only looks at the state. -/
def read (call : κ) (lost : ε) (f : σ → Except ε α) : Prog κ σ ε α := fun w =>
  match w.fault w.calls call with
  | .crash => (.crashed,w.next)
  | .failed => (.error lost,w.next)
  | .late => (.error lost,w.next)
  | .none =>
    match f w.state with
    | .ok a => (.ok a,w.next)
    | .error err => (.error err,w.next)

def write (call : κ) (lost : ε) (f : σ → Except ε σ) : Prog κ σ ε Unit := fun w =>
  match w.fault w.calls call with
  | .crash => (.crashed,w.next)
  | .failed => (.error lost,w.next)
  | .late =>
    match f w.state with
    | .ok s => (.error lost,w.next.set s)
    | .error err => (.error err,w.next)
  | .none =>
    match f w.state with
    | .ok s => (.ok (),w.next.set s)
    | .error err => (.error err,w.next)

/-- The program goes on after an error, but not after a crash. -/
def attempt (m : Prog κ σ ε α) : Prog κ σ ε (Except ε α) := fun w =>
  match m w with
  | (.ok a,w') => (.ok (.ok a),w')
  | (.error err,w') => (.ok (.error err),w')
  | (.crashed,w') => (.crashed,w')

end Prog

def runs (m : ι → Prog κ σ ε α) (fault : ι → Nat → κ → Fault) : List ι → World κ σ → World κ σ
  | [], w => w
  | i::is, w => runs m fault is (m i (w.restart (fault i))).2

def Along (m : ι → Prog κ σ ε α) (fault : ι → Nat → κ → Fault) (C : World κ σ → ι → Prop) :
    List ι → World κ σ → Prop
  | [], _ => True
  | i::is, w => C (w.restart (fault i)) i ∧ Along m fault C is (m i (w.restart (fault i))).2

theorem runs_append (m : ι → Prog κ σ ε α) (fault : ι → Nat → κ → Fault) (first second : List ι) (w : World κ σ) :
    runs m fault (first++second) w=runs m fault second (runs m fault first w) := by
  induction first generalizing w with
  | nil => rfl
  | cons i first ih => exact ih _

/-- From a history that satisfies `I` and a state that satisfies `P`, under faults in `F`, every history
passed through satisfies `I`; a returned value satisfies `Q`, and `E` holds where the program fails or is gone. -/
def Keeps (I : List σ → Prop) (F : (Nat → κ → Fault) → Prop) (P : σ → Prop) (m : Prog κ σ ε α)
    (Q : α → σ → Prop) (E : σ → Prop) : Prop :=
  ∀ w, F w.fault → I w.history → P w.state →
    (m w).2.fault=w.fault ∧ I (m w).2.history ∧
      match (m w).1 with
      | .ok a => Q a (m w).2.state
      | .error _ => E (m w).2.state
      | .crashed => E (m w).2.state

def Unfailing (F : (Nat → κ → Fault) → Prop) (m : Prog κ σ ε α) : Prop :=
  ∀ w, F w.fault → ∀ err, (m w).1≠.error err

namespace Unfailing

variable {F : (Nat → κ → Fault) → Prop}

theorem pure (a : α) : Unfailing F (Pure.pure a : Prog κ σ ε α) := fun _ _ _ h => nomatch h

/-- What is tried and forgotten does not fail. -/
theorem attempt_pure (m : Prog κ σ ε β) (a : α) : Unfailing F (m.attempt >>= fun _ => Pure.pure a) := by
  intro w _ err h
  simp only [Bind.bind,Prog.attempt] at h
  generalize m w=r at h
  obtain ⟨ended,w'⟩ := r
  cases ended with
  | ok b => cases h
  | error err' => cases h
  | crashed => cases h

theorem bind {m : Prog κ σ ε β} {f : β → Prog κ σ ε α} (hm : Unfailing F m)
    (hkee : ∀ w, (m w).2.fault=w.fault) (hf : ∀ b, Unfailing F (f b)) : Unfailing F (m >>= f) := by
  intro w hfau err h
  have hfre := hm w hfau
  have hsam := hkee w
  simp only [Bind.bind] at h
  generalize m w=r at h hfre hsam
  obtain ⟨ended,w'⟩ := r
  cases ended with
  | error err' => exact hfre err' rfl
  | crashed => cases h
  | ok b => exact hf b w' (by rw [show w'.fault=w.fault from hsam]; exact hfau) err h

theorem read {call : κ} {lost : ε} {f : σ → Except ε α}
    (hF : ∀ fault n, F fault → fault n call=.none ∨ fault n call=.crash) (hf : ∀ s, ∃ a, f s=.ok a) : Unfailing F (Prog.read call lost f) := by
  intro w hfau err h
  obtain ⟨a,ha⟩ := hf w.state
  unfold Prog.read at h
  rcases hF w.fault w.calls hfau with hcal | hcal
  · rw [hcal,ha] at h
    cases h
  · rw [hcal] at h
    cases h

theorem write {call : κ} {lost : ε} {f : σ → Except ε σ}
    (hF : ∀ fault n, F fault → fault n call=.none ∨ fault n call=.crash) (hf : ∀ s, ∃ s', f s=.ok s') : Unfailing F (Prog.write call lost f) := by
  intro w hfau err h
  obtain ⟨s',hs'⟩ := hf w.state
  unfold Prog.write at h
  rcases hF w.fault w.calls hfau with hcal | hcal
  · rw [hcal,hs'] at h
    cases h
  · rw [hcal] at h
    cases h

end Unfailing

theorem Prog.read_fault (call : κ) (lost : ε) (f : σ → Except ε α) (w : World κ σ) :
    (Prog.read call lost f w).2.fault=w.fault := by
  unfold Prog.read
  split
  · rfl
  · rfl
  · rfl
  · split <;> rfl

theorem Prog.write_fault (call : κ) (lost : ε) (f : σ → Except ε σ) (w : World κ σ) :
    (Prog.write call lost f w).2.fault=w.fault := by
  unfold Prog.write
  split
  · rfl
  · rfl
  · split <;> rfl
  · split <;> rfl

namespace Keeps

variable {I J : List σ → Prop} {F : (Nat → κ → Fault) → Prop} {P P' : σ → Prop} {Q Q' : α → σ → Prop}
  {R : β → σ → Prop} {E G : σ → Prop} {m : Prog κ σ ε α}

theorem weaken (h : Keeps I F P m Q E) (hpre : ∀ s, P' s → P s)
    (hpos : ∀ a s, Q a s → Q' a s) (herr : ∀ s, E s → G s) : Keeps I F P' m Q' G := by
  intro w hfau hI hP
  obtain ⟨hkee,hI',hend⟩ := h w hfau hI (hpre _ hP)
  refine ⟨hkee,hI',?_⟩
  cases hm : (m w).1 with
  | ok a =>
    rw [hm] at hend
    exact hpos a _ hend
  | error err =>
    rw [hm] at hend
    exact herr _ hend
  | crashed =>
    rw [hm] at hend
    exact herr _ hend

theorem strengthen (h : Keeps J F P m Q E)
    (hsta : ∀ s before, I (s::before) → P s → J (s::before)) (hI : ∀ history, J history → I history) :
    Keeps I F P m Q E := by
  intro w hfau hI' hP
  obtain ⟨hkee,hlas,hend⟩ := h w hfau (hsta _ _ hI' hP) hP
  exact ⟨hkee,hI _ hlas,hend⟩

theorem of_each (h : ∀ s, P s → Keeps I F (fun s' => s'=s) m Q E) : Keeps I F P m Q E :=
  fun w hfau hI hP => h w.state hP w hfau hI rfl

theorem of_exists {δ : Type} {P : δ → σ → Prop} (h : ∀ d, Keeps I F (P d) m Q E) :
    Keeps I F (fun s => ∃ d, P d s) m Q E :=
  fun w hfau hI ⟨d,hP⟩ => h d w hfau hI hP

theorem of_or (h : Keeps I F P m Q E) (h' : Keeps I F P' m Q E) :
    Keeps I F (fun s => P s ∨ P' s) m Q E :=
  fun w hfau hI hP => hP.elim (h w hfau hI) (h' w hfau hI)

theorem of_last (hlas : ∀ s before, I (s::before) → P' s)
    (h : Keeps I F (fun s => P s ∧ P' s) m Q E) : Keeps I F P m Q E :=
  fun w hfau hI hP => h w hfau hI ⟨hP,hlas _ _ hI⟩

/-- A fact that does not depend on the state. -/
theorem of_fact {φ : Prop} (h : φ → Keeps I F P m Q E) : Keeps I F (fun s => P s ∧ φ) m Q E :=
  fun w hfau hI hP => h hP.2 w hfau hI hP.1

theorem of_fixed {γ : Type} {g : List σ → γ}
    (h : ∀ c, Keeps (fun history => I history ∧ g history=c) F P m Q E) : Keeps I F P m Q E := by
  intro w hfau hI hP
  obtain ⟨hkee,hI',hend⟩ := h (g w.history) w hfau ⟨hI,rfl⟩ hP
  exact ⟨hkee,hI'.1,hend⟩

theorem pure {a : α} (h : ∀ s, P s → Q a s) : Keeps I F P (Pure.pure a : Prog κ σ ε α) Q E :=
  fun _ _ hI hP => ⟨rfl,hI,h _ hP⟩

theorem fail {err : ε} (h : ∀ s, P s → E s) : Keeps I F P (Prog.fail err : Prog κ σ ε α) Q E :=
  fun _ _ hI hP => ⟨rfl,hI,h _ hP⟩

theorem ofExcept {r : Except ε α} (hok : ∀ a s, r=.ok a → P s → Q a s) (herr : ∀ s, P s → E s) :
    Keeps I F P (Prog.ofExcept r : Prog κ σ ε α) Q E := by
  cases r with
  | ok a => exact pure fun s hs => hok a s rfl hs
  | error err => exact fail herr

theorem bind {m : Prog κ σ ε β} {f : β → Prog κ σ ε α} (hm : Keeps I F P m R E)
    (hf : ∀ b, Keeps I F (R b) (f b) Q E) : Keeps I F P (m >>= f) Q E := by
  intro w hfau hI hP
  obtain ⟨hkee,hI',hend⟩ := hm w hfau hI hP
  simp only [Bind.bind]
  generalize m w=r at hkee hI' hend
  obtain ⟨ended,w'⟩ := r
  cases ended with
  | ok b =>
    have hkee' : w'.fault=w.fault := hkee
    obtain ⟨hlas,hres⟩ := hf b w' (hkee' ▸ hfau) hI' hend
    exact ⟨hlas.trans hkee',hres⟩
  | error err => exact ⟨hkee,hI',hend⟩
  | crashed => exact ⟨hkee,hI',hend⟩

theorem read {call : κ} {lost : ε} {f : σ → Except ε α} (h : ∀ s a, P s → f s=.ok a → Q a s)
    (herr : ∀ s, P s → E s) : Keeps I F P (Prog.read call lost f) Q E := by
  intro w _ hI hP
  unfold Prog.read
  split
  · exact ⟨rfl,hI,herr _ hP⟩
  · exact ⟨rfl,hI,herr _ hP⟩
  · exact ⟨rfl,hI,herr _ hP⟩
  · split
    · rename_i a hf
      exact ⟨rfl,hI,h _ a hP hf⟩
    · exact ⟨rfl,hI,herr _ hP⟩

theorem write {call : κ} {lost : ε} {f : σ → Except ε σ} {Q : Unit → σ → Prop}
    (h : ∀ s before s', I (s::before) → P s → f s=.ok s' → I (s'::s::before) ∧ Q () s')
    (hlat : ∀ fault n, F fault → fault n call=.late → ∀ s s', P s → f s=.ok s' → E s')
    (herr : ∀ s, P s → E s) : Keeps I F P (Prog.write call lost f) Q E := by
  intro w hfau hI hP
  unfold Prog.write
  split
  · exact ⟨rfl,hI,herr _ hP⟩
  · exact ⟨rfl,hI,herr _ hP⟩
  · rename_i hcal
    split
    · rename_i s' hf
      exact ⟨rfl,(h _ _ s' hI hP hf).1,hlat w.fault w.calls hfau hcal _ s' hP hf⟩
    · exact ⟨rfl,hI,herr _ hP⟩
  · split
    · rename_i s' hf
      exact ⟨rfl,h _ _ s' hI hP hf⟩
    · exact ⟨rfl,hI,herr _ hP⟩

theorem attempt (h : Keeps I F P m Q E) (hgon : ∀ s, E s → G s) :
    Keeps I F P m.attempt (fun r s => (∀ a, r=.ok a → Q a s) ∧ ∀ err, r=.error err → E s) G := by
  intro w hfau hI hP
  obtain ⟨hkee,hI',hend⟩ := h w hfau hI hP
  unfold Prog.attempt
  generalize m w=r at hkee hI' hend
  obtain ⟨ended,w'⟩ := r
  cases ended with
  | ok a =>
    refine ⟨hkee,hI',fun b hb => ?_,fun err herr => nomatch herr⟩
    cases hb
    exact hend
  | error err => exact ⟨hkee,hI',fun b hb => (nomatch hb),fun _ _ => hend⟩
  | crashed => exact ⟨hkee,hI',hgon _ hend⟩

theorem attempt_bind {m : Prog κ σ ε β} {f : Except ε β → Prog κ σ ε α} (hm : Keeps I F P m R G)
    (hgon : ∀ s, G s → E s) (hok : ∀ b, Keeps I F (R b) (f (.ok b)) Q E)
    (herr : ∀ err, Keeps I F G (f (.error err)) Q E) : Keeps I F P (m.attempt >>= f) Q E := by
  refine bind (hm.attempt hgon) fun r => ?_
  cases r with
  | ok b => exact (hok b).weaken (fun s hs => hs.1 b rfl) (fun _ _ h => h) fun _ h => h
  | error err => exact (herr err).weaken (fun s hs => hs.2 err rfl) (fun _ _ h => h) fun _ h => h

/-- What the program does when its first part fails, and its second part only ever returns or is gone. -/
theorem attempt_bind_unfailing {γ : Type} {S : γ → σ → Prop} {m : Prog κ σ ε β} {n : β → Prog κ σ ε γ}
    {f : Except ε γ → Prog κ σ ε α} (hm : Keeps I F P m R G) (hgon : ∀ s, G s → E s)
    (hn : ∀ b, Keeps I F (R b) (n b) S E) (hunf : ∀ b, Unfailing F (n b))
    (hok : ∀ c, Keeps I F (S c) (f (.ok c)) Q E) (herr : ∀ err, Keeps I F G (f (.error err)) Q E) :
    Keeps I F P ((m >>= n).attempt >>= f) Q E := by
  intro w hfau hI hP
  obtain ⟨hkee,hI',hend⟩ := hm w hfau hI hP
  simp only [Bind.bind,Prog.attempt]
  generalize m w=r at hkee hI' hend
  obtain ⟨ended,w'⟩ := r
  cases ended with
  | error err =>
    have hfau' : F w'.fault := by rw [show w'.fault=w.fault from hkee]; exact hfau
    obtain ⟨hlas,hres⟩ := herr err w' hfau' hI' hend
    exact ⟨hlas.trans hkee,hres⟩
  | crashed => exact ⟨hkee,hI',hgon _ hend⟩
  | ok b =>
    have hfau' : F w'.fault := by rw [show w'.fault=w.fault from hkee]; exact hfau
    obtain ⟨hkeep₂,hI₂,hend₂⟩ := hn b w' hfau' hI' hend
    have hfre := hunf b w' hfau'
    dsimp only
    generalize n b w'=r₂ at hkeep₂ hI₂ hend₂ hfre
    obtain ⟨ended₂,w₂⟩ := r₂
    cases ended₂ with
    | error err => exact absurd rfl (hfre err)
    | crashed => exact ⟨hkeep₂.trans hkee,hI₂,hend₂⟩
    | ok c =>
      have hfault₂ : F w₂.fault := by rw [show w₂.fault=w'.fault from hkeep₂]; exact hfau'
      obtain ⟨hlas,hres⟩ := hok c w₂ hfault₂ hI₂ hend₂
      exact ⟨hlas.trans (hkeep₂.trans hkee),hres⟩

end Keeps

/-- Processes that each keep the history from the world they find keep it together. -/
theorem runs_keep {I : List σ → Prop} {m : ι → Prog κ σ ε α} {fault : ι → Nat → κ → Fault}
    {C : World κ σ → ι → Prop}
    (h : ∀ i w, C w i → I w.history → w.fault=fault i → w.calls=0 → I (m i w).2.history) (is : List ι) :
    ∀ w : World κ σ, Along m fault C is w → I w.history → I (runs m fault is w).history := by
  induction is with
  | nil => exact fun w _ hI => hI
  | cons i is ih =>
    intro w halo hI
    exact ih _ halo.2 (h i _ halo.1 hI rfl rfl)

end CastleWall.Faulty
