import Mathlib.Data.List.Basic

/-! # Programs over a state that may fail

A failed program keeps what it has already done to the state. -/

namespace CastleWall

def Effect (σ ε α : Type) : Type := σ → Except ε α × σ

namespace Effect

variable {σ ε α β γ : Type}

instance : Monad (Effect σ ε) where
  pure a := fun s => (.ok a,s)
  bind m f := fun s =>
    match m s with
    | (.ok a,s') => f a s'
    | (.error err,s') => (.error err,s')

def fail (err : ε) : Effect σ ε α := fun s => (.error err,s)

def get : Effect σ ε σ := fun s => (.ok s,s)

def modify (f : σ → σ) : Effect σ ε Unit := fun s => (.ok (),f s)

def ofExcept (x : Except ε α) : Effect σ ε α := fun s => (x,s)

/-- The program fails unless the condition holds. -/
def require (p : Prop) [Decidable p] (err : ε) : Effect σ ε Unit := if p then pure () else fail err

def forEach (f : α → Effect σ ε Unit) : List α → Effect σ ε Unit
  | [] => pure ()
  | a::as => do
    f a
    forEach f as

@[simp] theorem pure_apply (a : α) (s : σ) : (pure a : Effect σ ε α) s=(.ok a,s) := rfl

@[simp] theorem fail_apply (err : ε) (s : σ) : (fail err : Effect σ ε α) s=(.error err,s) := rfl

@[simp] theorem get_apply (s : σ) : (get : Effect σ ε σ) s=(.ok s,s) := rfl

@[simp] theorem modify_apply (f : σ → σ) (s : σ) : (modify f : Effect σ ε Unit) s=(.ok (),f s) := rfl

@[simp] theorem ofExcept_apply (x : Except ε α) (s : σ) : (ofExcept x : Effect σ ε α) s=(x,s) := rfl

theorem require_apply {p : Prop} [Decidable p] (h : p) (err : ε) (s : σ) :
    (require p err : Effect σ ε Unit) s=(.ok (),s) := by
  rw [require,if_pos h]
  rfl

theorem require_fails {p : Prop} [Decidable p] (h : ¬ p) (err : ε) (s : σ) :
    (require p err : Effect σ ε Unit) s=(.error err,s) := by
  rw [require,if_neg h]
  rfl

variable {s s' : σ} {m : Effect σ ε α}

theorem bind_apply_ok {f : α → Effect σ ε β} {a : α}
    (h : m s=(.ok a,s')) : (m >>= f) s=f a s' := by
  change (match m s with
    | (.ok a,s') => f a s'
    | (.error err,s') => (.error err,s'))=_
  rw [h]

theorem bind_apply_error {f : α → Effect σ ε β} {err : ε}
    (h : m s=(.error err,s')) : (m >>= f) s=(.error err,s') := by
  change (match m s with
    | (.ok a,s') => f a s'
    | (.error err,s') => (.error err,s'))=_
  rw [h]

theorem bind_pure_state (m : Effect σ ε α) (f : α → β) (s : σ) :
    ((m >>= fun a => pure (f a)) s).2=(m s).2 := by
  rcases hm : m s with ⟨err | a,s'⟩
  · rw [bind_apply_error hm]
  · rw [bind_apply_ok hm,pure_apply]

theorem pure_bind (a : α) (f : α → Effect σ ε β) : (pure a >>= f)=f a := rfl

theorem bind_eq_ok {f : α → Effect σ ε β} {b : β}
    (h : (m >>= f) s=(.ok b,s')) : ∃ a s₁, m s=(.ok a,s₁) ∧ f a s₁=(.ok b,s') := by
  cases hm : m s with
  | mk r s₁ =>
    cases r with
    | ok a =>
      rw [bind_apply_ok hm] at h
      exact ⟨a,s₁,rfl,h⟩
    | error err =>
      rw [bind_apply_error hm] at h
      cases h

theorem require_eq_ok {p : Prop} [Decidable p] {err : ε} {u : Unit}
    (h : (require p err : Effect σ ε Unit) s=(.ok u,s')) : p ∧ s'=s := by
  by_cases hp : p
  · rw [require_apply hp] at h
    cases h
    exact ⟨hp,rfl⟩
  · rw [require_fails hp] at h
    cases h

/-- The program leads from the states with the property to such states, however it ends. -/
def Preserves (P : σ → Prop) (m : Effect σ ε α) : Prop := ∀ s, P s → P (m s).2

namespace Preserves

variable {P : σ → Prop}

theorem pure (a : α) : Preserves P (Pure.pure a : Effect σ ε α) := fun _ h => h

theorem fail (err : ε) : Preserves P (Effect.fail err : Effect σ ε α) := fun _ h => h

theorem get : Preserves P (Effect.get : Effect σ ε σ) := fun _ h => h

theorem ofExcept (x : Except ε α) : Preserves P (Effect.ofExcept x : Effect σ ε α) := fun _ h => h

theorem require (p : Prop) [Decidable p] (err : ε) :
    Preserves P (Effect.require p err : Effect σ ε Unit) := by
  rw [Effect.require]
  split_ifs
  · exact pure ()
  · exact fail err

theorem modify {f : σ → σ} (h : ∀ s, P s → P (f s)) : Preserves P (Effect.modify f : Effect σ ε Unit) := h

theorem bind {m : Effect σ ε α} {f : α → Effect σ ε β} (hm : Preserves P m) (hf : ∀ a, Preserves P (f a)) :
    Preserves P (m >>= f) := by
  intro s hs
  have hs' := hm s hs
  cases hrun : m s with
  | mk r s' =>
    rw [hrun] at hs'
    cases r with
    | ok a =>
      rw [bind_apply_ok hrun]
      exact hf a s' hs'
    | error err =>
      rw [bind_apply_error hrun]
      exact hs'

theorem forEach {f : α → Effect σ ε Unit} (hf : ∀ a, Preserves P (f a)) (as : List α) :
    Preserves P (Effect.forEach f as) := by
  induction as with
  | nil => exact pure ()
  | cons a as ih => exact (hf a).bind fun _ => ih

end Preserves

end Effect

end CastleWall
