import Mathlib.Data.List.Lex
import Mathlib.Tactic.Ring

/-! # Digits, most significant first

The number that a list of digits stands for. Between lists of one length the order of the numbers is the
lexicographic order of the digits. -/

namespace CastleWall.Radix

def value (base : Nat) (digits : List Nat) : Nat := digits.foldl (fun n d => n * base+d) 0

variable {base : Nat}

@[simp] theorem value_nil : value base []=0 := rfl

variable (digits : List Nat)

theorem value_append_singleton (d : Nat) :
    value base (digits++[d])=value base digits * base+d := by
  simp only [value,List.foldl_append,List.foldl_cons,List.foldl_nil]

theorem foldl_eq (n : Nat) :
    digits.foldl (fun n d => n * base+d) n=n * base ^ digits.length+value base digits := by
  induction digits generalizing n with
  | nil => simp [value]
  | cons d digits ih =>
    rw [value,List.foldl_cons,List.foldl_cons,ih,ih (0 * base+d),List.length_cons,pow_succ]
    ring

theorem value_cons (d : Nat) (digits : List Nat) :
    value base (d::digits)=d * base ^ digits.length+value base digits := by
  rw [value,List.foldl_cons,foldl_eq,Nat.zero_mul,Nat.zero_add]

theorem value_append (first second : List Nat) :
    value base (first++second)=value base first * base ^ second.length+value base second := by
  unfold value
  rw [List.foldl_append,foldl_eq]
  rfl

theorem value_lt {digits : List Nat} (hdig : ∀ d∈digits, d < base) : value base digits < base ^ digits.length := by
  induction digits with
  | nil => exact Nat.one_pos
  | cons d digits ih =>
    obtain ⟨hd,hres⟩ := List.forall_mem_cons.mp hdig
    rw [value_cons,List.length_cons,pow_succ]
    calc d * base ^ digits.length+value base digits
        < d * base ^ digits.length+base ^ digits.length := Nat.add_lt_add_left (ih hres) _
      _=(d+1) * base ^ digits.length := by ring
      _ ≤ base * base ^ digits.length := Nat.mul_le_mul_right _ hd
      _=base ^ digits.length * base := Nat.mul_comm _ _

variable {ds es : List Nat}

/-- The first digit decides, unless it is the same. -/
theorem value_cons_lt_value_cons {d e : Nat} (hlen : ds.length=es.length)
    (hds : ∀ d∈ds, d < base) (hes : ∀ e∈es, e < base) :
    value base (d::ds) < value base (e::es) ↔ d < e ∨ d=e ∧ value base ds < value base es := by
  have hd := value_lt hds
  have he := value_lt hes
  rw [value_cons,value_cons,hlen]
  rw [hlen] at hd
  generalize base ^ es.length=w at hd he
  generalize value base ds=x at hd
  generalize value base es=y at he
  have hste : ∀ {a b : Nat}, a < b → a * w+w ≤ b * w := by
    intro a b hab
    calc a * w+w=(a+1) * w := by ring
      _ ≤ b * w := Nat.mul_le_mul_right w hab
  rcases Nat.lt_trichotomy d e with hlt | rfl | hgt
  · have := hste hlt
    simp only [hlt,true_or,iff_true]
    omega
  · simp
  · have := hste hgt
    have hne : ¬ d < e ∧ d≠e := ⟨by omega,by omega⟩
    simp only [hne.1,hne.2,false_and,or_self,iff_false]
    omega

theorem value_lt_value_iff (hlen : ds.length=es.length) (hds : ∀ d∈ds, d < base)
    (hes : ∀ e∈es, e < base) : value base ds < value base es ↔ ds < es := by
  induction ds generalizing es with
  | nil =>
    cases es with
    | nil => simp
    | cons e es => cases hlen
  | cons d ds ih =>
    cases es with
    | nil => cases hlen
    | cons e es =>
      have hlen' : ds.length=es.length := Nat.succ.inj hlen
      have hds' := List.forall_mem_cons.mp hds
      have hes' := List.forall_mem_cons.mp hes
      rw [value_cons_lt_value_cons hlen' hds'.2 hes'.2,List.cons_lt_cons_iff,ih hlen' hds'.2 hes'.2]

theorem value_injective (hlen : ds.length=es.length) (hds : ∀ d∈ds, d < base)
    (hes : ∀ e∈es, e < base) (h : value base ds=value base es) : ds=es := by
  rcases lt_trichotomy ds es with hlt | heq | hgt
  · have hval := (value_lt_value_iff hlen hds hes).mpr hlt
    omega
  · exact heq
  · have hval := (value_lt_value_iff hlen.symm hes hds).mpr hgt
    omega

/-- Another digit at index `i`. -/
theorem value_set {i : Nat} (hi : i < digits.length) (d : Nat) :
    value base (digits.set i d)+digits[i] * base ^ (digits.length - (i+1)) =
      value base digits+d * base ^ (digits.length - (i+1)) := by
  induction digits generalizing i with
  | nil => cases hi
  | cons e digits ih =>
    cases i with
    | zero =>
      simp only [List.set_cons_zero,List.getElem_cons_zero,value_cons,List.length_cons,Nat.add_sub_add_right,
        Nat.sub_zero]
      omega
    | succ i =>
      have hi' : i < digits.length := Nat.lt_of_succ_lt_succ hi
      simp only [List.set_cons_succ,List.getElem_cons_succ,value_cons,List.length_cons,List.length_set,
        Nat.add_sub_add_right]
      have hres := ih hi'
      omega

theorem map_lt_map_iff {α : Type} [LT α] {f : Nat → α}
    (hf : ∀ d e, d < base → e < base → (f d < f e ↔ d < e)) (hinj : ∀ d e, d < base → e < base → f d=f e → d=e)
    (hds : ∀ d∈ds, d < base) (hes : ∀ e∈es, e < base) : ds.map f < es.map f ↔ ds < es := by
  induction ds generalizing es with
  | nil =>
    cases es with
    | nil => simp
    | cons e es => simp
  | cons d ds ih =>
    cases es with
    | nil => simp
    | cons e es =>
      obtain ⟨hd,hds'⟩ := List.forall_mem_cons.mp hds
      obtain ⟨he,hes'⟩ := List.forall_mem_cons.mp hes
      rw [List.map_cons,List.map_cons,List.cons_lt_cons_iff,List.cons_lt_cons_iff,hf d e hd he,ih hds' hes']
      have heq : f d=f e ↔ d=e := ⟨hinj d e hd he,congrArg f⟩
      rw [heq]

end CastleWall.Radix
