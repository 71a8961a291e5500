import Mathlib.Data.Int.Log
import Mathlib.Data.Rat.Floor
import Mathlib.Tactic.Positivity

/-! # Binary64 rounding

The finite binary64 numbers as rationals, and rounding of an exact rational to the nearest of them
with ties to even. Both zeros are `0`. -/

namespace CastleWall.Binary64

def roundHalfEven (x : ℚ) : ℤ :=
  let k := ⌊x⌋
  if x - k < 1 / 2 then k else if 1 / 2 < x - k then k+1 else k+k % 2

/-- The exponent of the unit in the last place at the magnitude of `x`. -/
def unitExponent (x : ℚ) : ℤ := max (Int.log 2 |x| - 52) (-1074)

def unit (x : ℚ) : ℚ := 2 ^ unitExponent x

/-- The nearest binary64 number, or `none` when `x` rounds to an infinity. -/
def nearest (x : ℚ) : Option ℚ :=
  let y := roundHalfEven (x / unit x) * unit x
  if |y| < 2 ^ 1024 then some y else none

@[simp] theorem roundHalfEven_intCast (k : ℤ) : roundHalfEven k=k := by
  simp [roundHalfEven]

theorem abs_roundHalfEven_sub_le (x : ℚ) : |(roundHalfEven x : ℚ) - x| ≤ 1 / 2 := by
  have hlow := Int.floor_le x
  have hhig := Int.lt_floor_add_one x
  have hpar : (⌊x⌋ % 2 : ℤ)=0 ∨ (⌊x⌋ % 2 : ℤ)=1 := Int.emod_two_eq_zero_or_one _
  rw [roundHalfEven,abs_le]
  by_cases hbel : x - ⌊x⌋ < 1 / 2
  · rw [if_pos hbel]
    constructor <;> linarith
  · rw [if_neg hbel]
    by_cases habo : 1 / 2 < x - ⌊x⌋
    · rw [if_pos habo]
      push_cast
      constructor <;> linarith
    · rw [if_neg habo]
      rcases hpar with h | h <;>
      · rw [h]
        push_cast
        constructor <;> linarith

theorem roundHalfEven_neg (x : ℚ) : roundHalfEven (-x) = -roundHalfEven x := by
  by_cases hint : (⌊x⌋ : ℚ)=x
  · rw [← hint,roundHalfEven_intCast]
    exact_mod_cast roundHalfEven_intCast (-⌊x⌋)
  · have hlow : (⌊x⌋ : ℚ) < x := lt_of_le_of_ne (Int.floor_le x) hint
    have hflo : ⌊-x⌋ = -⌊x⌋ - 1 := by
      rw [Int.floor_eq_iff]
      have hhig := Int.lt_floor_add_one x
      push_cast
      constructor <;> linarith
    rw [roundHalfEven,roundHalfEven,hflo]
    push_cast
    rcases lt_trichotomy (x - ⌊x⌋) (1 / 2) with h | h | h
    · rw [if_neg (by linarith),if_pos (by linarith),if_pos h]
      omega
    · rw [if_neg (by linarith),if_neg (by linarith),if_neg (by linarith),if_neg (by linarith)]
      omega
    · rw [if_pos (by linarith),if_neg (by linarith),if_pos h]
      omega

theorem unit_neg (x : ℚ) : unit (-x)=unit x := by
  rw [unit,unit,unitExponent,unitExponent,abs_neg]

theorem nearest_neg (x : ℚ) : nearest (-x)=(nearest x).map fun y => -y := by
  rw [nearest,nearest,unit_neg,neg_div,roundHalfEven_neg]
  push_cast
  simp only [neg_mul,abs_neg]
  by_cases h : |(roundHalfEven (x / unit x) : ℚ) * unit x| < 2 ^ 1024
  · simp only [if_pos h,Option.map_some]
  · simp only [if_neg h,Option.map_none]

theorem unit_pos (x : ℚ) : 0 < unit x := zpow_pos (by norm_num) _

theorem unit_le (x : ℚ) : unit x ≤ |x| + 1 := by
  rcases eq_or_ne x 0 with rfl | hx
  · have hexp : unitExponent 0 ≤ 0 := by simp [unitExponent]
    have hle : unit 0 ≤ 2 ^ (0 : ℤ) := zpow_le_zpow_right₀ (by norm_num) hexp
    simpa using hle
  · have hpos : 0 < |x| := abs_pos.mpr hx
    rw [unit,unitExponent]
    rcases le_total (Int.log 2 |x| - 52) (-1074) with h | h
    · rw [max_eq_right h]
      have hle : (2 : ℚ) ^ (-1074 : ℤ) ≤ 2 ^ (0 : ℤ) := zpow_le_zpow_right₀ (by norm_num) (by norm_num)
      rw [zpow_zero] at hle
      linarith
    · rw [max_eq_left h]
      have hlog : ((2 : ℕ) : ℚ) ^ Int.log 2 |x| ≤ |x| := Int.zpow_log_le_self (by norm_num) hpos
      have hle : (2 : ℚ) ^ (Int.log 2 |x| - 52) ≤ 2 ^ Int.log 2 |x| :=
        zpow_le_zpow_right₀ (by norm_num) (by omega)
      push_cast at hlog
      linarith

/-- Moderate numbers do not round to an infinity. -/
theorem nearest_isSome {x : ℚ} (h : |x| ≤ 2 ^ 64) : (nearest x).isSome := by
  have huni := unit_pos x
  have herr := abs_roundHalfEven_sub_le (x / unit x)
  have hrou : |(roundHalfEven (x / unit x) : ℚ) * unit x| ≤ |x| + 1 / 2 * unit x := by
    have hspl : (roundHalfEven (x / unit x) : ℚ) * unit x =
        x+(roundHalfEven (x / unit x) - x / unit x) * unit x := by
      field_simp
      ring
    rw [hspl]
    refine (abs_add_le _ _).trans ?_
    rw [abs_mul,abs_of_pos huni]
    exact add_le_add_right (mul_le_mul_of_nonneg_right herr huni.le) _
  have hle := unit_le x
  have hbound : |(roundHalfEven (x / unit x) : ℚ) * unit x| < 2 ^ 1024 := by
    have hlar : (2 : ℚ) ^ 66 ≤ 2 ^ 1024 := pow_le_pow_right₀ (by norm_num) (by norm_num)
    refine lt_of_lt_of_le ?_ hlar
    linarith
  rw [nearest]
  simp only [if_pos hbound]
  rfl

theorem nearest_of_multiple {x : ℚ} (k : ℤ) (hk : x=k * unit x) (hx : |x| < 2 ^ 1024) :
    nearest x=some x := by
  have huni : unit x≠0 := zpow_ne_zero _ (by norm_num)
  have hdiv : x / unit x=k := by
    rw [div_eq_iff huni]
    exact hk
  rw [nearest]
  simp only [hdiv,roundHalfEven_intCast,← hk]
  rw [if_pos hx]

variable {n q : ℤ}

private theorem log_le_of_lt (h : |n| < 2 ^ 53) : Int.log 2 |(n : ℚ)| ≤ 52 := by
  rcases eq_or_ne n 0 with rfl | hn
  · simp
  · have hpos : (0 : ℚ) < |(n : ℚ)| := abs_pos.mpr (by exact_mod_cast hn)
    have hlt : |(n : ℚ)| < (2 : ℕ) ^ (53 : ℤ) := by
      have hcas : (|n| : ℚ) < 2 ^ 53 := by exact_mod_cast h
      norm_num at hcas ⊢
      exact hcas
    have := (Int.lt_zpow_iff_log_lt (by norm_num) hpos).mp hlt
    omega

/-- Integers below `2 ^ 53` are binary64 numbers. -/
theorem nearest_intCast (h : |n| < 2 ^ 53) : nearest (n : ℚ)=some (n : ℚ) := by
  have hlog := log_le_of_lt h
  have hexp : unitExponent (n : ℚ) ≤ 0 := by
    rw [unitExponent]
    omega
  obtain ⟨m,hm⟩ : ∃ m : ℕ, unitExponent (n : ℚ) = -(m : ℤ) := Int.exists_eq_neg_ofNat hexp
  apply nearest_of_multiple (n * 2 ^ m)
  · rw [unit,hm,zpow_neg,zpow_natCast]
    push_cast
    field_simp
  · have hcas : |(n : ℚ)| < 2 ^ 53 := by exact_mod_cast h
    apply lt_of_lt_of_le hcas
    exact pow_le_pow_right₀ (by norm_num) (by norm_num)

variable {y : ℚ}

/-- Integers from `2 ^ 53` on are rounded to integers from `2 ^ 53` on. -/
theorem nearest_large (h : 2 ^ 53 ≤ |n|) (hy : nearest (n : ℚ)=some y) :
    ∃ m : ℤ, y=m ∧ 2 ^ 53 ≤ |m| := by
  have hcas : (2 : ℚ) ^ 53 ≤ |(n : ℚ)| := by exact_mod_cast h
  have hpos : (0 : ℚ) < |(n : ℚ)| := lt_of_lt_of_le (by norm_num) hcas
  have hlog : 53 ≤ Int.log 2 |(n : ℚ)| := by
    rw [← Int.zpow_le_iff_le_log (by norm_num) hpos]
    exact_mod_cast hcas
  obtain ⟨k,hk⟩ : ∃ k : ℕ, Int.log 2 |(n : ℚ)| - 52=k+1 :=
    ⟨(Int.log 2 |(n : ℚ)| - 53).toNat,by omega⟩
  have huni : unit (n : ℚ)=2 ^ (k+1) := by
    rw [unit,unitExponent,max_eq_left (by omega),hk]
    exact_mod_cast zpow_natCast (2 : ℚ) (k+1)
  have hsca : (2 : ℚ) ^ 52 ≤ |(n : ℚ) / unit n| := by
    have hsel : ((2 : ℕ) : ℚ) ^ Int.log 2 |(n : ℚ)| ≤ |(n : ℚ)| :=
      Int.zpow_log_le_self (by norm_num) hpos
    rw [show Int.log 2 |(n : ℚ)| = ((52+(k+1) : ℕ) : ℤ) by push_cast; omega,zpow_natCast,
      pow_add] at hsel
    rw [abs_div,abs_of_pos (unit_pos _),le_div_iff₀ (unit_pos _),huni]
    exact_mod_cast hsel
  have herr := abs_roundHalfEven_sub_le ((n : ℚ) / unit n)
  have hrou : 2 ^ 52 ≤ |roundHalfEven ((n : ℚ) / unit n)| := by
    have htri := abs_sub_abs_le_abs_sub ((n : ℚ) / unit n) (roundHalfEven ((n : ℚ) / unit n))
    rw [abs_sub_comm] at herr
    have hrea : (2 : ℚ) ^ 52 - 1 < |(roundHalfEven ((n : ℚ) / unit n) : ℚ)| := by linarith
    have hint : (2 : ℤ) ^ 52 - 1 < |roundHalfEven ((n : ℚ) / unit n)| := by exact_mod_cast hrea
    omega
  rw [nearest] at hy
  split_ifs at hy
  refine ⟨roundHalfEven ((n : ℚ) / unit n) * 2 ^ (k+1),?_,?_⟩
  · rw [← Option.some.inj hy,huni]
    push_cast
    rfl
  · rw [abs_mul,abs_of_pos (show (0 : ℤ) < 2 ^ (k+1) by positivity)]
    calc (2 : ℤ) ^ 53=2 ^ 52 * 2 := by norm_num
      _ ≤ |roundHalfEven ((n : ℚ) / unit n)| * 2 ^ (k+1) := by
        apply mul_le_mul hrou _ (by norm_num) (abs_nonneg _)
        exact le_self_pow₀ (by norm_num) (by omega)

theorem nearest_natCast {n : ℕ} (h : n < 2 ^ 53) : nearest (n : ℚ)=some (n : ℚ) := by
  have hint := @nearest_intCast (n : ℤ) (by rw [Nat.abs_cast]; exact_mod_cast h)
  exact_mod_cast hint

/-! ## Order

Rounding keeps the order of positive numbers, so the numbers that round to one value form an
interval around it; its upper half is at least as wide as its lower half. -/

def rounded (x : ℚ) : ℚ := roundHalfEven (x / unit x) * unit x

theorem nearest_eq (x : ℚ) : nearest x=if |rounded x| < 2 ^ 1024 then some (rounded x) else none :=
  rfl

theorem rounded_of_nearest {x : ℚ} (h : nearest x=some y) : rounded x=y := by
  rw [nearest_eq] at h
  split_ifs at h
  exact Option.some.inj h

theorem roundHalfEven_mono {x : ℚ} (h : x ≤ y) : roundHalfEven x ≤ roundHalfEven y := by
  by_contra hlt
  have hx := abs_le.mp (abs_roundHalfEven_sub_le x)
  have hy := abs_le.mp (abs_roundHalfEven_sub_le y)
  have hste : (roundHalfEven y : ℚ)+1 ≤ roundHalfEven x := by exact_mod_cast not_le.mp hlt
  have heq : x=y := by linarith
  rw [heq] at hlt
  exact hlt le_rfl

theorem log_bounds {x : ℚ} (h : 0 < x) : (2 : ℚ) ^ Int.log 2 x ≤ x ∧ x < 2 ^ (Int.log 2 x+1) := by
  have hlow := Int.zpow_log_le_self (b := 2) (by norm_num) h
  have hhig := Int.lt_zpow_succ_log_self (b := 2) (by norm_num) x
  push_cast at hlow hhig
  exact ⟨hlow,hhig⟩

theorem unitExponent_of_pos {x : ℚ} (h : 0 < x) :
    unitExponent x=max (Int.log 2 x - 52) (-1074) := by
  rw [unitExponent,abs_of_pos h]

theorem unitExponent_mono {x : ℚ} (hx : 0 < x) (h : x ≤ y) : unitExponent x ≤ unitExponent y := by
  rw [unitExponent_of_pos hx,unitExponent_of_pos (hx.trans_le h)]
  exact max_le_max (sub_le_sub_right (Int.log_mono_right hx h) _) le_rfl

private theorem div_unit (x : ℚ) (h : unitExponent x ≤ q) :
    ∃ k : ℕ, (2 : ℚ) ^ q / unit x=2 ^ k := by
  obtain ⟨k,hk⟩ := Int.eq_ofNat_of_zero_le (show 0 ≤ q - unitExponent x by omega)
  refine ⟨k,?_⟩
  rw [unit,← zpow_sub₀ (by norm_num),hk]
  exact zpow_natCast _ _

/-- A power of two with at least the unit of `x` bounds the rounding of `x` as it bounds `x`. -/
theorem rounded_le_pow {x : ℚ} (hq : unitExponent x ≤ q) (h : x ≤ 2 ^ q) :
    rounded x ≤ 2 ^ q := by
  obtain ⟨k,hk⟩ := div_unit x hq
  have hdiv : x / unit x ≤ ((2 ^ k : ℤ) : ℚ) := by
    push_cast
    rw [← hk]
    exact div_le_div_of_nonneg_right h (unit_pos x).le
  have hrou := roundHalfEven_mono hdiv
  rw [roundHalfEven_intCast] at hrou
  rw [rounded,← le_div_iff₀ (unit_pos x),hk]
  exact_mod_cast hrou

theorem pow_le_rounded {x : ℚ} (hq : unitExponent x ≤ q) (h : 2 ^ q ≤ x) :
    2 ^ q ≤ rounded x := by
  obtain ⟨k,hk⟩ := div_unit x hq
  have hdiv : ((2 ^ k : ℤ) : ℚ) ≤ x / unit x := by
    push_cast
    rw [← hk]
    exact div_le_div_of_nonneg_right h (unit_pos x).le
  have hrou := roundHalfEven_mono hdiv
  rw [roundHalfEven_intCast] at hrou
  rw [rounded,← div_le_iff₀ (unit_pos x),hk]
  exact_mod_cast hrou

variable {m : ℤ}

private theorem abs_le_of_close {k : ℕ} (hy : |y| < 2 ^ k)
    (hm : |(m : ℚ) - y| ≤ 1 / 2) : |m| ≤ 2 ^ k := by
  have htri := abs_sub_abs_le_abs_sub (m : ℚ) y
  have hlt : |(m : ℚ)| < 2 ^ k+1 := by linarith
  exact Int.lt_add_one_iff.mp (by exact_mod_cast hlt)

private theorem rounded_carry {q : ℚ} (hx : rounded q≠0)
    (hexp : unitExponent q < unitExponent (rounded q)) :
    |rounded q| = 2 ^ Int.log 2 |rounded q| ∧
      unitExponent (rounded q)=Int.log 2 |rounded q| - 52 := by
  have hu := unit_pos q
  have huni : unitExponent (rounded q)=Int.log 2 |rounded q| - 52 := by
    rw [unitExponent] at hexp ⊢
    rw [unitExponent] at hexp
    omega
  refine ⟨?_,huni⟩
  have hlow := (log_bounds (abs_pos.mpr hx)).1
  apply le_antisymm _ hlow
  have hrou := abs_roundHalfEven_sub_le (q / unit q)
  have hq : |q| < 2 ^ Int.log 2 |rounded q| := by
    rcases eq_or_ne q 0 with rfl | hq
    · rw [abs_zero]
      exact zpow_pos (by norm_num) _
    · apply lt_of_lt_of_le (log_bounds (abs_pos.mpr hq)).2
      apply zpow_le_zpow_right₀ (by norm_num)
      rw [unitExponent] at hexp
      omega
  obtain ⟨k,hk⟩ := div_unit q (q := Int.log 2 |rounded q|) (by omega)
  have hsca : |q / unit q| < 2 ^ k := by
    rw [abs_div,abs_of_pos hu,← hk]
    exact div_lt_div_of_pos_right hq hu
  have hm := abs_le_of_close hsca hrou
  have hm' : |(roundHalfEven (q / unit q) : ℚ)| ≤ 2 ^ k := by exact_mod_cast hm
  rw [div_eq_iff hu.ne'] at hk
  calc |rounded q| = |(roundHalfEven (q / unit q) : ℚ)| * unit q := by
        rw [rounded,abs_mul,abs_of_pos hu]
    _ ≤ 2 ^ k * unit q := mul_le_mul_of_nonneg_right hm' hu.le
    _=2 ^ Int.log 2 |rounded q| := hk.symm

theorem nearest_of_nearest {q x : ℚ} (h : nearest q=some x) : nearest x=some x := by
  have hxq := rounded_of_nearest h
  have hfin : |x| < 2 ^ 1024 := by
    rw [nearest_eq] at h
    split_ifs at h with hlar
    rwa [hxq] at hlar
  rcases eq_or_ne x 0 with rfl | hx
  · exact nearest_of_multiple 0 (by simp) hfin
  rcases le_or_gt (unitExponent x) (unitExponent q) with hexp | hexp
  · obtain ⟨k,hk⟩ := div_unit x hexp
    apply nearest_of_multiple (roundHalfEven (q / unit q) * 2 ^ k) _ hfin
    rw [div_eq_iff (unit_pos x).ne'] at hk
    push_cast
    rw [mul_assoc,← hk]
    exact hxq.symm
  · rw [← hxq] at hx hexp
    obtain ⟨hpow,huni⟩ := rounded_carry hx hexp
    rw [hxq] at hpow huni
    have hmul : (2 : ℚ) ^ Int.log 2 |x| = 2 ^ 52 * unit x := by
      rw [unit,huni,← zpow_natCast (2 : ℚ) 52,← zpow_add₀ (by norm_num)]
      congr 1
      push_cast
      ring
    rcases abs_choice x with hsig | hsig
    · apply nearest_of_multiple (2 ^ 52) _ hfin
      push_cast
      linarith
    · apply nearest_of_multiple (-2 ^ 52) _ hfin
      push_cast
      linarith

private theorem unit_split {x : ℚ} (hx : 0 < x) (h : x ≤ y)
    (huni : unitExponent x < unitExponent y) :
    unitExponent y=Int.log 2 y - 52 ∧ x < 2 ^ Int.log 2 y := by
  have hy := hx.trans_le h
  rw [unitExponent_of_pos hx,unitExponent_of_pos hy] at huni
  have hexp : unitExponent y=Int.log 2 y - 52 := by
    rw [unitExponent_of_pos hy]
    omega
  refine ⟨hexp,lt_of_lt_of_le (log_bounds hx).2 ?_⟩
  exact zpow_le_zpow_right₀ (by norm_num) (by omega)

theorem rounded_mono {x : ℚ} (hx : 0 < x) (h : x ≤ y) : rounded x ≤ rounded y := by
  rcases (unitExponent_mono hx h).eq_or_lt with huni | huni
  · have hsam : unit x=unit y := by rw [unit,unit,huni]
    rw [rounded,rounded,hsam]
    apply mul_le_mul_of_nonneg_right _ (unit_pos y).le
    exact_mod_cast roundHalfEven_mono (div_le_div_of_nonneg_right h (unit_pos y).le)
  · obtain ⟨hexp,hlt⟩ := unit_split hx h huni
    have hlow := rounded_le_pow (q := Int.log 2 y) (by omega) hlt.le
    have hhig := pow_le_rounded (q := Int.log 2 y) (by omega) (log_bounds (hx.trans_le h)).1
    exact hlow.trans hhig

variable {e : ℚ}

/-- What lies between two numbers that round to `x` rounds to `x`. -/
theorem rounded_between {x c d : ℚ} (hc : 0 < c) (hcd : c ≤ d) (hde : d ≤ e) (hlow : rounded c=x)
    (hhig : rounded e=x) : rounded d=x := by
  apply le_antisymm
  · rw [← hhig]
    exact rounded_mono (hc.trans_le hcd) hde
  · nth_rewrite 1 [← hlow]
    exact rounded_mono hc hcd

private theorem roundHalfEven_add (hlow : 0 ≤ e) (hhal : e ≤ 1 / 2)
    (htie : e=1 / 2 → m % 2=0) : roundHalfEven (m+e)=m := by
  have hflo : ⌊(m : ℚ)+e⌋ = m := by
    rw [Int.floor_eq_iff]
    constructor <;> linarith
  rw [roundHalfEven,hflo,add_sub_cancel_left]
  rcases hhal.lt_or_eq with h | h
  · rw [if_pos h]
  · rw [if_neg (by linarith),if_neg (by linarith),htie h,add_zero]

private theorem roundHalfEven_sub (hlow : 0 ≤ e) (hhal : e < 1 / 2) :
    roundHalfEven (m - e)=m := by
  rcases hlow.eq_or_lt with rfl | hpos
  · rw [sub_zero,roundHalfEven_intCast]
  · have hflo : ⌊(m : ℚ) - e⌋ = m - 1 := by
      rw [Int.floor_eq_iff]
      push_cast
      constructor <;> linarith
    rw [roundHalfEven,hflo]
    push_cast
    rw [if_neg (by linarith),if_pos (by linarith)]
    omega

private theorem even_of_roundHalfEven (h : roundHalfEven (m - 1 / 2)=m) : m % 2=0 := by
  have hflo : ⌊(m : ℚ) - 1 / 2⌋ = m - 1 := by
    rw [Int.floor_eq_iff]
    push_cast
    constructor <;> linarith
  rw [roundHalfEven,hflo] at h
  push_cast at h
  rw [if_neg (by linarith),if_neg (by linarith)] at h
  omega

section Fixed

variable {x : ℚ} (hx : 0 < x) (hfix : rounded x=x)

def significand (x : ℚ) : ℤ := roundHalfEven (x / unit x)

include hfix in
theorem eq_significand_mul : x=significand x * unit x := hfix.symm

include hx hfix

variable {d : ℚ}

theorem rounded_above (hd : x ≤ d) (hhal : d - x ≤ unit x / 2)
    (htie : d - x=unit x / 2 → significand x % 2=0) : rounded d=x := by
  have hu := unit_pos x
  have hsig := eq_significand_mul hfix
  rcases (unitExponent_mono hx hd).eq_or_lt with huni | huni
  · have hsam : unit d=unit x := by rw [unit,unit,huni]
    have hspl : d / unit x=significand x+(d - x) / unit x := by
      rw [sub_div,show x / unit x=significand x by rw [div_eq_iff hu.ne']; exact hsig]
      ring
    rw [rounded,hsam,hspl,roundHalfEven_add (div_nonneg (by linarith) hu.le),← hsig]
    · rw [div_le_iff₀ hu]
      linarith
    · intro h
      rw [div_eq_iff hu.ne'] at h
      exact htie (by linarith)
  · -- a number of larger unit lies a whole unit above
    exfalso
    obtain ⟨hexp,hlt⟩ := unit_split hx hd huni
    obtain ⟨k,hk⟩ := div_unit x (q := Int.log 2 d) (by omega)
    rw [div_eq_iff hu.ne'] at hk
    have hbel : significand x < 2 ^ k := by
      have hmul : (significand x : ℚ) * unit x < 2 ^ k * unit x := by rw [← hk,← hsig]; exact hlt
      exact_mod_cast lt_of_mul_lt_mul_right hmul hu.le
    have hgap : (significand x : ℚ)+1 ≤ 2 ^ k := by exact_mod_cast hbel
    have hmul := mul_le_mul_of_nonneg_right hgap hu.le
    rw [← hk,add_mul,one_mul,← hsig] at hmul
    have hpow := (log_bounds (hx.trans_le hd)).1
    linarith

theorem half_of_rounded_below (hd : 0 < d) (hle : d ≤ x) (hrou : rounded d=x) :
    x - d ≤ unit x / 2 ∧ (x - d=unit x / 2 → significand x % 2=0) := by
  have hu := unit_pos x
  have hsig := eq_significand_mul hfix
  rcases (unitExponent_mono hd hle).eq_or_lt with hunt | hunt
  · have hsam : unit d=unit x := by rw [unit,unit,hunt]
    have hspl : d / unit x=significand x - (x - d) / unit x := by
      rw [sub_div,show x / unit x=significand x by rw [div_eq_iff hu.ne']; exact hsig]
      ring
    rw [rounded,hsam] at hrou
    have hm : roundHalfEven (d / unit x)=significand x := by
      have hmul := hrou.trans hsig
      exact_mod_cast mul_right_cancel₀ hu.ne' hmul
    have herr := abs_le.mp (abs_roundHalfEven_sub_le (d / unit x))
    rw [hm,hspl] at herr
    constructor
    · have := herr.2
      rw [sub_sub_cancel,div_le_iff₀ hu] at this
      linarith
    · intro htie
      have hsca : d / unit x=significand x - 1 / 2 := by
        rw [hspl,htie]
        field_simp
      rw [hsca] at hm
      exact even_of_roundHalfEven hm
  · obtain ⟨hexp,hlt⟩ := unit_split hd hle hunt
    -- then `x` is the power of two between them, and the unit of `d` is smaller
    have hpow : x=2 ^ Int.log 2 x := by
      have hle' := rounded_le_pow (q := Int.log 2 x) (by omega) hlt.le
      rw [hrou] at hle'
      exact le_antisymm hle' (log_bounds hx).1
    have huni : unit d ≤ unit x / 2 := by
      rw [unit,unit,le_div_iff₀ (by norm_num),← zpow_add_one₀ (by norm_num)]
      exact zpow_le_zpow_right₀ (by norm_num) (by omega)
    have herr := abs_le.mp (abs_roundHalfEven_sub_le (d / unit d))
    have hdis : x - d ≤ unit d / 2 := by
      have := mul_le_mul_of_nonneg_right herr.2 (unit_pos d).le
      rw [sub_mul,div_mul_cancel₀ _ (unit_pos d).ne'] at this
      change rounded d - d ≤ _ at this
      rw [hrou] at this
      linarith
    constructor
    · linarith
    · intro htie
      linarith

/-- The upper half of the interval around a binary64 number is as wide as the lower. -/
theorem rounded_reflect {low high : ℚ} (hlow : 0 < low) (hle : low ≤ x) (hrou : rounded low=x)
    (hx' : x ≤ high) (hdis : high - x ≤ x - low) : rounded high=x := by
  obtain ⟨hhal,htie⟩ := half_of_rounded_below hx hfix hlow hle hrou
  apply rounded_above hx hfix hx' (by linarith)
  intro h
  exact htie (by linarith)

omit hfix in
theorem lt_unit : x / 2 ^ 54 < unit x / 2 := by
  have hlog := (log_bounds hx).2
  have hle : (2 : ℚ) ^ (Int.log 2 x - 52) ≤ unit x := by
    rw [unit,unitExponent_of_pos hx]
    exact zpow_le_zpow_right₀ (by norm_num) (le_max_left _ _)
  have hspl : (2 : ℚ) ^ (Int.log 2 x+1)=2 ^ (Int.log 2 x - 52) * 2 ^ 53 := by
    rw [← zpow_natCast (2 : ℚ) 53,← zpow_add₀ (by norm_num)]
    congr 1
    push_cast
    ring
  rw [hspl] at hlog
  rw [div_lt_iff₀ (by norm_num)]
  linarith

private theorem rounded_close_below (hle : d ≤ x) (hpos : 0 < d)
    (hexp : unitExponent d < unitExponent x) (hclo : x - d < x / 2 ^ 54) : rounded d=x := by
  have hu := unit_pos x
  have huni : x / 2 ^ 54 < unit x / 2 := lt_unit hx
  have hsig := eq_significand_mul hfix
  obtain ⟨hnor,hlt⟩ := unit_split hpos hle hexp
  have hlow := (log_bounds hx).1
  have hsca : (2 : ℚ) ^ Int.log 2 x=2 ^ 52 * unit x := by
    rw [unit,hnor,← zpow_natCast (2 : ℚ) 52,← zpow_add₀ (by norm_num)]
    congr 1
    push_cast
    ring
  have hpow : x=2 ^ 52 * unit x := by
    apply le_antisymm _ (hsca ▸ hlow)
    by_contra hgt
    have hmul : (2 : ℚ) ^ 52 * unit x < significand x * unit x := by
      rw [← hsig]
      exact not_le.mp hgt
    have hgap : (2 : ℤ) ^ 52+1 ≤ significand x := by
      exact_mod_cast lt_of_mul_lt_mul_right hmul hu.le
    have hgap' : (2 : ℚ) ^ 52+1 ≤ significand x := by exact_mod_cast hgap
    have hfar := mul_le_mul_of_nonneg_right hgap' hu.le
    rw [add_mul,one_mul,← hsig] at hfar
    linarith
  have hqua : x - d < unit x / 4 := by
    have hsha : x / 2 ^ 54=unit x / 4 := by
      rw [div_eq_iff (by norm_num)]
      linarith
    rwa [hsha] at hclo
  have hlog : Int.log 2 d=Int.log 2 x - 1 := by
    have hupp : Int.log 2 d < Int.log 2 x := by
      rw [← Int.lt_zpow_iff_log_lt (by norm_num) hpos]
      exact_mod_cast hlt
    have hlor : Int.log 2 x - 1 ≤ Int.log 2 d := by
      rw [← Int.zpow_le_iff_le_log (by norm_num) hpos]
      push_cast
      rw [zpow_sub_one₀ (by norm_num),hsca]
      linarith
    omega
  have hhal : unit d=unit x / 2 := by
    have hdEx := unitExponent_of_pos hpos
    rw [unit,unit,show unitExponent d=unitExponent x - 1 by omega,zpow_sub_one₀ (by norm_num),
      div_eq_mul_inv]
  have hspl : d / unit d=((2 ^ 53 : ℤ) : ℚ) - (x - d) / (unit x / 2) := by
    rw [hhal,sub_div]
    nth_rewrite 2 [hpow]
    push_cast
    field_simp
    ring
  rw [rounded,hspl,roundHalfEven_sub]
  · rw [hhal]
    nth_rewrite 2 [hpow]
    push_cast
    ring
  · exact div_nonneg (by linarith) (by linarith)
  · rw [div_lt_iff₀ (by linarith)]
    linarith

theorem rounded_close (hclo : |d - x| < x / 2 ^ 54) : rounded d=x := by
  have hu := unit_pos x
  have huni : x / 2 ^ 54 < unit x / 2 := lt_unit hx
  have hsig := eq_significand_mul hfix
  rcases le_total x d with hle | hle
  · rw [abs_of_nonneg (by linarith)] at hclo
    apply rounded_above hx hfix hle (by linarith)
    intro h
    linarith
  · rw [abs_of_nonpos (by linarith),neg_sub] at hclo
    have hpos : 0 < d := by
      have : x / 2 ^ 54 < x := div_lt_self hx (by norm_num)
      linarith
    rcases (unitExponent_mono hpos hle).eq_or_lt with hexp | hexp
    · have hsam : unit d=unit x := by rw [unit,unit,hexp]
      have hspl : d / unit x=significand x - (x - d) / unit x := by
        rw [sub_div,show x / unit x=significand x by rw [div_eq_iff hu.ne']; exact hsig]
        ring
      rw [rounded,hsam,hspl,roundHalfEven_sub (div_nonneg (by linarith) hu.le),← hsig]
      rw [div_lt_iff₀ hu]
      linarith
    · exact rounded_close_below hx hfix hle hpos hexp hclo

end Fixed

end CastleWall.Binary64
