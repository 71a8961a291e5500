import Mathlib.Data.List.Basic

/-! # Reading back a successful computation

A fallible computation that succeeded ran every step before its result; these lemmas peel the
steps off one at a time. -/

namespace CastleWall.Outcome

variable {ε α β : Type} {x : Except ε α} {b : β}

theorem bind_ok {f : α → Except ε β} (h : (x >>= f)=.ok b) :
    ∃ a, x=.ok a ∧ f a=.ok b := by
  cases x with
  | error e => exact absurd h (by intro h; cases h)
  | ok a => exact ⟨a,rfl,h⟩

theorem map_ok {f : α → β} (h : x.map f=.ok b) :
    ∃ a, x=.ok a ∧ f a=b := by
  cases x with
  | error e => exact absurd h (by intro h; cases h)
  | ok a => exact ⟨a,rfl,Except.ok.inj h⟩

theorem mapError_eq_ok {ε' : Type} {f : ε → ε'} {a : α} : x.mapError f=.ok a ↔ x=.ok a := by
  cases x with
  | error e => simp [Except.mapError]
  | ok b => simp [Except.mapError]

/-- The computation goes on only where `p` holds. -/
def require (p : Prop) [Decidable p] (e : ε) : Except ε Unit := if p then .ok () else .error e

@[simp] theorem require_eq_ok {p : Prop} [Decidable p] {e : ε} {u : Unit} : require p e=.ok u ↔ p := by
  by_cases h : p
  · simp [require,h]
  · simp [require,h]

@[simp] theorem require_bind_eq_ok {p : Prop} [Decidable p] {e : ε} {f : Unit → Except ε β} :
    (require p e >>= f)=.ok b ↔ p ∧ f ()=.ok b := by
  by_cases h : p
  · simp [require,h,bind,Except.bind]
  · simp [require,h,bind,Except.bind]

/-- Computations with the same first step agree if they agree after it has succeeded. -/
theorem bind_congr {f g : α → Except ε β} (h : ∀ a, x=.ok a → f a=g a) :
    (x >>= f)=(x >>= g) := by
  cases x with
  | error e => rfl
  | ok a => exact h a rfl

@[simp] theorem toOption_ok (a : α) : (Except.ok a : Except ε α).toOption=some a := rfl

@[simp] theorem toOption_error (e : ε) : (Except.error e : Except ε α).toOption=none := rfl

theorem toOption_bind (x : Except ε α) (f : α → Except ε β) :
    (x >>= f).toOption=x.toOption.bind fun a => (f a).toOption := by
  cases x <;> rfl

theorem toOption_map (x : Except ε α) (f : α → β) : (x.map f).toOption=x.toOption.map f := by
  cases x <;> rfl

theorem toOption_eq_some {a : α} : x.toOption=some a ↔ x=.ok a := by
  cases x with
  | error e => simp
  | ok b => simp

theorem mem_of_mapM_ok {f : α → Except ε β} {as : List α} {bs : List β} (h : as.mapM f=.ok bs)
    (hb : b∈bs) : ∃ a∈as, f a=.ok b := by
  induction as generalizing bs with
  | nil =>
    cases h
    cases hb
  | cons a as ih =>
    rw [List.mapM_cons] at h
    obtain ⟨b',hb',h⟩ := bind_ok h
    obtain ⟨bs',hbs',h⟩ := bind_ok h
    cases h
    cases hb with
    | head => exact ⟨a,List.mem_cons_self,hb'⟩
    | tail _ hmem =>
      obtain ⟨a',ha',hste⟩ := ih hbs' hmem
      exact ⟨a',List.mem_cons_of_mem a ha',hste⟩

theorem forall_of_mapM_ok {f : α → Except ε β} {p : β → Prop} (hf : ∀ a b, f a=.ok b → p b)
    (as : List α) : ∀ bs : List β, as.mapM f=.ok bs → ∀ b∈bs, p b := by
  intro bs h b hb
  obtain ⟨a,-,hste⟩ := mem_of_mapM_ok h hb
  exact hf a b hste

theorem step_of_mapM_map {γ : Type} {f : β → Except ε γ} {s : α → β} {g : α → γ} {as : List α}
    (h : (as.map s).mapM f=.ok (as.map g)) : ∀ a∈as, f (s a)=.ok (g a) := by
  induction as with
  | nil => simp
  | cons a as ih =>
    rw [List.map_cons,List.map_cons,List.mapM_cons] at h
    obtain ⟨b,hb,h⟩ := bind_ok h
    obtain ⟨bs,hbs,h⟩ := bind_ok h
    obtain ⟨rfl,rfl⟩ := List.cons.inj (Except.ok.inj h)
    rw [List.forall_mem_cons]
    exact ⟨hb,ih hbs⟩

end CastleWall.Outcome
