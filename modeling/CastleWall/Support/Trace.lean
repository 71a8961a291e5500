import Mathlib.Data.List.Basic

/-! # Traces whose actions are justified by what came before

An action may need something of the part of the trace before it. -/

namespace CastleWall.Trace

variable {α : Type} {needs : List α → α → Prop}

/-- Every action has what it needs in the past and the part of the trace before it. -/
def JustifiedFrom (needs : List α → α → Prop) : List α → List α → Prop
  | _, [] => True
  | past, a::as => needs past a ∧ JustifiedFrom needs (past++[a]) as

theorem justifiedFrom_append {past as bs : List α} :
    JustifiedFrom needs past (as++bs) ↔
      JustifiedFrom needs past as ∧ JustifiedFrom needs (past++as) bs := by
  induction as generalizing past with
  | nil => simp [JustifiedFrom]
  | cons a as ih =>
    simp only [List.cons_append,JustifiedFrom]
    rw [ih,List.append_assoc,List.singleton_append,and_assoc]

theorem justifiedFrom_of_forall {as : List α} (h : ∀ a∈as, ∀ past, needs past a) (past : List α) :
    JustifiedFrom needs past as := by
  induction as generalizing past with
  | nil => trivial
  | cons a as ih =>
    exact ⟨h a List.mem_cons_self past,ih (fun b hb => h b (List.mem_cons_of_mem a hb)) _⟩

theorem JustifiedFrom.needs_of_eq {trace pre post : List α} {a : α} (h : JustifiedFrom needs [] trace)
    (heq : trace=pre++a::post) : needs pre a := by
  rw [heq] at h
  exact (justifiedFrom_append.mp h).2.1

end CastleWall.Trace
