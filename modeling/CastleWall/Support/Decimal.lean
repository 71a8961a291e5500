import CastleWall.Support.Ecma
import CastleWall.Support.JsonText

/-! # Decimal literals of binary64 numbers

Literals with an optional fraction and exponent, the digits that read back as a binary64 number, and
the layout of `Number::toString`. -/

namespace CastleWall.Decimal

open Binary64 Ecma

/-- An unsigned JSON number: its digits before and after the point and its exponent. -/
structure Literal where
  (whole fraction : List Char)
  exponent : Option ℤ

namespace Literal

variable (l : Literal)

def fractionText : List Char := if l.fraction=[] then [] else '.' :: l.fraction

def exponentText : List Char :=
  match l.exponent with
  | none => []
  | some (.ofNat e) => 'e' :: '+' :: Json.decimal e
  | some (.negSucc e) => 'e' :: '-' :: Json.decimal (e+1)

def text : List Char := l.whole++l.fractionText++l.exponentText

/-- The digits are digits, and the whole part has no leading zero it could do without. -/
structure WellFormed (l : Literal) : Prop where
  nonempty : l.whole≠[]
  whole : ∀ c∈l.whole, c.isDigit=true
  leading : l.whole=['0'] ∨ l.whole.head? ≠ some '0'
  fraction : ∀ c∈l.fraction, c.isDigit=true

def value : ℚ :=
  Nat.ofDigitChars 10 (l.whole++l.fraction) 0 / 10 ^ l.fraction.length *
    10 ^ l.exponent.getD 0

end Literal

theorem takeWhile_digits {cs rest : List Char} (h : ∀ c∈cs, c.isDigit=true)
    (hres : ∀ c, rest.head? = some c → c.isDigit=false) :
    (cs++rest).takeWhile Char.isDigit=cs ∧ (cs++rest).dropWhile Char.isDigit=rest := by
  rw [List.takeWhile_append_of_pos h,List.dropWhile_append_of_pos h]
  cases rest with
  | nil => simp
  | cons c rest =>
    have hc := hres c rfl
    simp [hc]

theorem decimal_digits (n : Nat) : Json.decimal n≠[] ∧ ∀ c∈Json.decimal n, c.isDigit=true :=
  ⟨Nat.toDigits_ne_nil,fun _ hc => Nat.isDigit_of_mem_toDigits (by decide) (by decide) hc⟩

private theorem exponentDigits_decimal (n : Nat) : exponentDigits (Json.decimal n)=some n := by
  obtain ⟨hne,hdig⟩ := decimal_digits n
  rw [exponentDigits,if_pos ⟨hne,List.all_eq_true.mpr hdig⟩]
  exact congrArg some Nat.ofDigitChars_ten_toDigits

private theorem scaleBy_exponentText (l : Literal) (m : ℚ) :
    scaleBy m l.exponentText=some (m * 10 ^ l.exponent.getD 0) := by
  rw [Literal.exponentText]
  cases l.exponent with
  | none => simp [scaleBy]
  | some e =>
    cases e with
    | ofNat e =>
      rw [scaleBy,if_pos (Or.inl rfl)]
      simp only [exponentDigits_decimal,Option.map_some,Option.getD_some]
      rw [Int.ofNat_eq_natCast,zpow_natCast]
    | negSucc e =>
      rw [scaleBy,if_pos (Or.inl rfl)]
      simp only [exponentDigits_decimal,Option.map_some,Option.getD_some]
      rw [zpow_negSucc,div_eq_mul_inv]

theorem exponentText_head (l : Literal) :
    ∀ c, l.exponentText.head? = some c → c = 'e' := by
  intro c hc
  rw [Literal.exponentText] at hc
  split at hc
  · simp at hc
  · exact (Option.some.inj hc).symm
  · exact (Option.some.inj hc).symm

theorem decimalLiteral_text {l : Literal} (h : l.WellFormed) :
    decimalLiteral l.text=some l.value := by
  have hexp : ∀ c, l.exponentText.head? = some c → c.isDigit=false := by
    intro c hc
    rw [exponentText_head l c hc]
    decide
  by_cases hfra : l.fraction=[]
  · have hdig := takeWhile_digits h.whole hexp
    have htex : l.text=l.whole++l.exponentText := by
      simp [Literal.text,Literal.fractionText,hfra]
    rw [decimalLiteral,htex]
    simp only [hdig.1,hdig.2]
    split
    · rename_i heq
      exact absurd (exponentText_head l '.' (by rw [heq]; rfl)) (by decide)
    · rw [if_neg h.nonempty,scaleBy_exponentText,Literal.value,hfra]
      simp
  · have htex : l.text=l.whole++('.' :: (l.fraction++l.exponentText)) := by
      simp [Literal.text,Literal.fractionText,hfra]
    have hdig := @takeWhile_digits _ ('.' :: (l.fraction++l.exponentText)) h.whole
      (by intro c hc; rw [← Option.some.inj hc]; decide)
    have hres := takeWhile_digits h.fraction hexp
    rw [decimalLiteral,htex]
    simp only [hdig.1,hdig.2,hres.1,hres.2]
    rw [if_neg (by simp [hfra]),scaleBy_exponentText,Literal.value]

/-- Trailing zeros are dropped, all but the last character. -/
def popZeros (digits : List Char) : List Char :=
  match (digits.reverse.dropWhile (· = '0')).reverse with
  | [] => digits.take 1
  | trimmed => trimmed

/-- `Number::toString` for the digits `s` and the exponent `n` of the number `0.s × 10 ^ n`. -/
def layout (digits : List Char) (n : ℤ) : Literal :=
  if digits.length ≤ n ∧ n ≤ 21 then
    ⟨digits++List.replicate (n - digits.length).toNat '0',[],none⟩
  else if 0 < n ∧ n ≤ 21 then ⟨digits.take n.toNat,digits.drop n.toNat,none⟩
  else if -6 < n ∧ n ≤ 0 then ⟨['0'],List.replicate (-n).toNat '0' ++ digits,none⟩
  else ⟨digits.take 1,digits.drop 1,some (n - 1)⟩

/-- The literal of the number `c × 10 ^ scale`. -/
def literal (c : Nat) (scale : ℤ) : Literal :=
  layout (popZeros (Json.decimal c)) ((Json.decimal c).length+scale)

structure Leading (digits : List Char) : Prop where
  isDigit : ∀ c∈digits, c.isDigit=true
  head : ∃ c cs, digits=c::cs ∧ c ≠ '0'

private theorem ofDigitChars_append_zeros (digits : List Char) (k : Nat) :
    Nat.ofDigitChars 10 (digits++List.replicate k '0') 0=Nat.ofDigitChars 10 digits 0 * 10 ^ k := by
  rw [Nat.ofDigitChars_append,Nat.ofDigitChars_replicate_zero,Nat.mul_comm]

private theorem replicate_isDigit (k : Nat) : ∀ c∈List.replicate k '0', c.isDigit=true := by
  intro c hc
  rw [List.eq_of_mem_replicate hc]
  decide

variable {digits : List Char}

theorem layout_wellFormed (h : Leading digits) (n : ℤ) :
    (layout digits n).WellFormed := by
  obtain ⟨hdig,c,cs,rfl,hc⟩ := h
  unfold layout
  split_ifs with h1 h2 h3
  · refine ⟨by simp,?_,Or.inr (by simpa using hc),by simp⟩
    intro d hd
    rcases List.mem_append.mp hd with hd | hd
    · exact hdig d hd
    · exact replicate_isDigit _ d hd
  · obtain ⟨m,hm⟩ : ∃ m, n.toNat=m+1 := ⟨n.toNat - 1,by omega⟩
    rw [hm,List.take_succ_cons,List.drop_succ_cons]
    refine ⟨by simp,?_,Or.inr (by simpa using hc),?_⟩
    · intro d hd
      apply hdig d
      rcases List.mem_cons.mp hd with rfl | hd
      · exact List.mem_cons_self
      · exact List.mem_cons_of_mem _ (List.mem_of_mem_take hd)
    · intro d hd
      exact hdig d (List.mem_cons_of_mem _ (List.mem_of_mem_drop hd))
  · refine ⟨by simp,by simp,Or.inl rfl,?_⟩
    intro d hd
    rcases List.mem_append.mp hd with hd | hd
    · exact replicate_isDigit _ d hd
    · exact hdig d hd
  · refine ⟨by simp,?_,Or.inr (by simpa using hc),?_⟩
    · intro d hd
      exact hdig d (List.mem_of_mem_take hd)
    · intro d hd
      exact hdig d (List.mem_of_mem_drop hd)

theorem layout_value (hne : digits≠[]) (n : ℤ) :
    (layout digits n).value=Nat.ofDigitChars 10 digits 0 * 10 ^ (n - digits.length) := by
  have hten : (10 : ℚ)≠0 := by norm_num
  have hlen : 1 ≤ digits.length := List.length_pos_iff.mpr hne
  unfold layout
  split_ifs with h1 h2 h3
  · obtain ⟨k,hk⟩ := Int.eq_ofNat_of_zero_le (show 0 ≤ n - digits.length by omega)
    simp only [Literal.value,hk,List.append_nil,ofDigitChars_append_zeros,List.length_nil,
      pow_zero,div_one,Option.getD_none,zpow_zero,mul_one,Int.toNat_natCast,zpow_natCast]
    push_cast
    rfl
  · simp only [Literal.value,List.take_append_drop,List.length_drop,Option.getD_none,zpow_zero,
      mul_one,div_eq_mul_inv]
    rw [show n - digits.length = -((digits.length - n.toNat : ℕ) : ℤ) by omega,zpow_neg,
      zpow_natCast]
  · have hzer : Nat.ofDigitChars 10 (['0']++(List.replicate (-n).toNat '0' ++ digits)) 0 =
        Nat.ofDigitChars 10 digits 0 := by
      rw [← List.append_assoc,Nat.ofDigitChars_append,
        show ['0']++List.replicate (-n).toNat '0' = List.replicate ((-n).toNat+1) '0' by
          rw [List.replicate_succ]; rfl,
        Nat.ofDigitChars_replicate_zero,Nat.mul_zero]
    simp only [Literal.value,hzer,List.length_append,List.length_replicate,Option.getD_none,
      zpow_zero,mul_one,div_eq_mul_inv]
    rw [show n - digits.length = -(((-n).toNat+digits.length : ℕ) : ℤ) by omega,zpow_neg,
      zpow_natCast]
  · simp only [Literal.value,List.take_append_drop,List.length_drop,Option.getD_some,
      div_eq_mul_inv,mul_assoc]
    rw [show n - digits.length = -((digits.length - 1 : ℕ) : ℤ)+(n - 1) by omega,
      zpow_add₀ hten,zpow_neg,zpow_natCast]

theorem popZeros_append (hne : digits≠[]) :
    ∃ k, digits=popZeros digits++List.replicate k '0' := by
  have hzer : ∀ c∈digits.reverse.takeWhile (· = '0'), c = '0' := by
    intro c hc
    simpa using List.mem_takeWhile_imp hc
  have hspl : digits=(digits.reverse.dropWhile (· = '0')).reverse ++
      List.replicate (digits.reverse.takeWhile (· = '0')).length '0' := by
    apply List.reverse_injective
    rw [List.reverse_append,List.reverse_reverse,List.reverse_replicate,
      ← List.eq_replicate_of_mem hzer,List.takeWhile_append_dropWhile]
  rw [popZeros]
  split
  · rename_i hall
    rw [hall,List.nil_append] at hspl
    obtain ⟨k,hk⟩ : ∃ k, (digits.reverse.takeWhile (· = '0')).length=k+1 := by
      apply Nat.exists_eq_succ_of_ne_zero
      intro hzeo
      rw [hzeo] at hspl
      exact hne hspl
    refine ⟨k,?_⟩
    rw [hk] at hspl
    rw [hspl,List.replicate_succ]
    rfl
  · exact ⟨_,hspl⟩

theorem popZeros_concat (hne : digits≠[]) :
    popZeros (digits++['0'])=popZeros digits := by
  have hrev : (digits++['0']).reverse.dropWhile (· = '0')=digits.reverse.dropWhile (· = '0') := by
    rw [List.reverse_append,List.reverse_singleton,List.singleton_append]
    simp
  rw [popZeros,popZeros,hrev,List.take_append_of_le_length (List.length_pos_iff.mpr hne)]

variable {c : Nat}

theorem decimal_mul_ten (hc : 0 < c) : Json.decimal (10 * c)=Json.decimal c++['0'] := by
  rw [Json.decimal,Json.decimal,Nat.toDigits_of_base_le (by norm_num) (by omega),
    Nat.mul_div_cancel_left c (by norm_num),Nat.mul_mod_right]
  rfl

theorem literal_mul_ten (hc : 0 < c) (scale : ℤ) : literal (10 * c) scale=literal c (scale+1) := by
  rw [literal,literal,decimal_mul_ten hc,popZeros_concat (decimal_digits c).1,List.length_append]
  congr 1
  rw [List.length_singleton]
  push_cast
  ring

private theorem decimal_head (c : Nat) (hc : 0 < c) :
    ∃ d cs, Json.decimal c=d::cs ∧ d ≠ '0' := by
  induction c using Nat.strong_induction_on with
  | _ c ih =>
    by_cases hlt : c < 10
    · have hdig : ∀ d : Fin 10, 0 < d.val → d.val.digitChar ≠ '0' := by decide
      exact ⟨c.digitChar,[],Nat.toDigits_of_lt_base hlt,hdig ⟨c,hlt⟩ hc⟩
    · obtain ⟨d,cs,hcs,hd⟩ := ih (c / 10) (by omega) (by omega)
      rw [Json.decimal] at hcs ⊢
      rw [Nat.toDigits_of_base_le (by norm_num) (by omega),hcs]
      exact ⟨d,_,rfl,hd⟩

theorem leading_popZeros (hc : 0 < c) : Leading (popZeros (Json.decimal c)) := by
  obtain ⟨k,hk⟩ := popZeros_append (decimal_digits c).1
  obtain ⟨d,cs,hcs,hd⟩ := decimal_head c hc
  constructor
  · intro e he
    apply (decimal_digits c).2 e
    rw [hk]
    exact List.mem_append_left _ he
  · cases hpop : popZeros (Json.decimal c) with
    | nil =>
      rw [hpop,List.nil_append,hcs] at hk
      have hzer := List.eq_of_mem_replicate (hk ▸ List.mem_cons_self : d∈List.replicate k '0')
      exact absurd hzer hd
    | cons e es =>
      rw [hpop,hcs,List.cons_append,List.cons.injEq] at hk
      exact ⟨e,es,rfl,hk.1 ▸ hd⟩

theorem literal_wellFormed (hc : 0 < c) (scale : ℤ) : (literal c scale).WellFormed :=
  layout_wellFormed (leading_popZeros hc) _

theorem literal_value (hc : 0 < c) (scale : ℤ) : (literal c scale).value=c * 10 ^ scale := by
  obtain ⟨k,hk⟩ := popZeros_append (decimal_digits c).1
  obtain ⟨-,d,ds,hd,-⟩ := leading_popZeros hc
  have hval : Nat.ofDigitChars 10 (popZeros (Json.decimal c)) 0 * 10 ^ k=c := by
    rw [← ofDigitChars_append_zeros,← hk]
    exact Nat.ofDigitChars_ten_toDigits
  have hlen : ((Json.decimal c).length : ℤ)=(popZeros (Json.decimal c)).length+k := by
    have := congrArg List.length hk
    rw [List.length_append,List.length_replicate] at this
    exact_mod_cast this
  rw [literal,layout_value (by rw [hd]; simp),hlen,
    show ((popZeros (Json.decimal c)).length : ℤ)+k+scale - (popZeros (Json.decimal c)).length =
      k+scale by ring,zpow_add₀ (by norm_num),zpow_natCast,← mul_assoc]
  nth_rewrite 2 [← hval]
  push_cast
  rfl

/-! ## Shortest digits

A number between two neighbouring decimals of a given precision. The digits that stand for it are
those of the first precision at which one of them rounds back to it. -/

abbrev Scaled := Nat × ℤ

def Scaled.value (d : Scaled) : ℚ := d.1 * 10 ^ d.2

def readsBack (x : ℚ) (d : Scaled) : Bool := decide (nearest d.value=some x)

/-- The first precision with a candidate that reads back, and that candidate. A binary64 number has
one with at most seventeen digits. -/
def shortest (candidates : Nat → ℚ → List Scaled) (x : ℚ) : Option Scaled :=
  (List.range' 1 17).findSome? fun precision => (candidates precision x).find? (readsBack x)

variable (precision : Nat)

/-- The scale at which `x` has `precision` digits before the point. -/
def scaleAt (x : ℚ) : ℤ := Int.log 10 x+1 - precision

def floorAt (x : ℚ) : Nat := ⌊x / 10 ^ scaleAt precision x⌋.toNat

def nearestAt (x : ℚ) : Nat :=
  (roundHalfEven (x / 10 ^ scaleAt precision x)).toNat

/-- The two neighbours of `x`, the closer one first; of two equally close ones the even one. -/
def neighbours (x : ℚ) : List Scaled :=
  let below := floorAt precision x
  let scale := scaleAt precision x
  if nearestAt precision x=below then [(below,scale),(below+1,scale)]
  else [(below+1,scale),(below,scale)]

section Neighbours

variable {x : ℚ} (hx : 0 < x)

theorem scale_pos (s : ℤ) : (0 : ℚ) < 10 ^ s := zpow_pos (by norm_num) s

include hx

private theorem log_ten : (10 : ℚ) ^ Int.log 10 x ≤ x ∧ x < 10 ^ (Int.log 10 x+1) := by
  have hlow := Int.zpow_log_le_self (b := 10) (by norm_num) hx
  have hhig := Int.lt_zpow_succ_log_self (b := 10) (by norm_num) x
  push_cast at hlow hhig
  exact ⟨hlow,hhig⟩

variable (p : Nat)

private theorem floorAt_cast : (floorAt p x : ℤ) = ⌊x / 10 ^ scaleAt p x⌋ :=
  Int.toNat_of_nonneg (Int.floor_nonneg.mpr (div_nonneg hx.le (scale_pos _).le))

theorem floorAt_bounds :
    (floorAt p x : ℚ) * 10 ^ scaleAt p x ≤ x ∧ x < (floorAt p x+1) * 10 ^ scaleAt p x := by
  have hcas : ((floorAt p x : ℤ) : ℚ)=floorAt p x := by push_cast; rfl
  have hlow := Int.floor_le (x / 10 ^ scaleAt p x)
  have hhig := Int.lt_floor_add_one (x / 10 ^ scaleAt p x)
  rw [← floorAt_cast hx,hcas] at hlow hhig
  rw [le_div_iff₀ (scale_pos _)] at hlow
  rw [div_lt_iff₀ (scale_pos _)] at hhig
  exact ⟨hlow,hhig⟩

theorem floorAt_digits : 10 ^ p ≤ floorAt (p+1) x ∧ floorAt (p+1) x < 10 ^ (p+1) := by
  obtain ⟨hlow,hhig⟩ := log_ten hx
  obtain ⟨hflo,hcei⟩ := floorAt_bounds hx (p+1)
  have hsca : (10 : ℚ) ^ Int.log 10 x=10 ^ p * 10 ^ scaleAt (p+1) x := by
    rw [scaleAt,← zpow_natCast (10 : ℚ) p,← zpow_add₀ (by norm_num)]
    congr 1
    push_cast
    ring
  rw [hsca] at hlow
  rw [zpow_add_one₀ (by norm_num),hsca] at hhig
  constructor
  · have hlt := lt_of_mul_lt_mul_right (hlow.trans_lt hcei) (scale_pos _).le
    exact Nat.lt_succ_iff.mp (by exact_mod_cast hlt)
  · have hlt : (floorAt (p+1) x : ℚ) * 10 ^ scaleAt (p+1) x <
        10 ^ (p+1) * 10 ^ scaleAt (p+1) x := by
      rw [pow_succ]
      linarith
    exact_mod_cast lt_of_mul_lt_mul_right hlt (scale_pos _).le

/-- The nearest coefficient is one of the two neighbours, on the side the remainder says. -/
theorem nearestAt_cases :
    (nearestAt p x=floorAt p x) ∨
      (nearestAt p x=floorAt p x+1 ∧
        (floorAt p x+1 : ℚ) * 10 ^ scaleAt p x - x ≤ x - floorAt p x * 10 ^ scaleAt p x) := by
  have hu := scale_pos (scaleAt p x)
  have hflo := floorAt_cast hx p
  have hcas : ((⌊x / 10 ^ scaleAt p x⌋ : ℤ) : ℚ)=floorAt p x := by
    rw [← hflo]
    push_cast
    rfl
  have hup : 1 / 2 ≤ x / 10 ^ scaleAt p x - floorAt p x →
      (floorAt p x+1 : ℚ) * 10 ^ scaleAt p x - x ≤ x - floorAt p x * 10 ^ scaleAt p x := by
    intro h
    rw [le_sub_iff_add_le,le_div_iff₀ hu] at h
    linarith
  rw [nearestAt,roundHalfEven,hcas,← hflo]
  by_cases hbel : x / 10 ^ scaleAt p x - floorAt p x < 1 / 2
  · rw [if_pos hbel]
    exact Or.inl (Int.toNat_natCast _)
  · rw [if_neg hbel]
    by_cases habo : 1 / 2 < x / 10 ^ scaleAt p x - floorAt p x
    · rw [if_pos habo]
      exact Or.inr ⟨by omega,hup habo.le⟩
    · rw [if_neg habo]
      rcases Nat.mod_two_eq_zero_or_one (floorAt p x) with hpar | hpar
      · exact Or.inl (by omega)
      · exact Or.inr ⟨by omega,hup (not_lt.mp hbel)⟩

theorem nearestAt_close :
    |(nearestAt p x : ℚ) * 10 ^ scaleAt p x - x| ≤ 10 ^ scaleAt p x / 2 := by
  have hu := scale_pos (scaleAt p x)
  have hrou := abs_roundHalfEven_sub_le (x / 10 ^ scaleAt p x)
  have hnon : 0 ≤ roundHalfEven (x / 10 ^ scaleAt p x) := by
    have hmon := roundHalfEven_mono (div_nonneg hx.le hu.le)
    rwa [show (0 : ℚ)=((0 : ℤ) : ℚ) by norm_num,roundHalfEven_intCast] at hmon
  have hcas : (nearestAt p x : ℚ)=roundHalfEven (x / 10 ^ scaleAt p x) := by
    have : ((nearestAt p x : ℤ))=roundHalfEven (x / 10 ^ scaleAt p x) := Int.toNat_of_nonneg hnon
    exact_mod_cast this
  have hmul := mul_le_mul_of_nonneg_right hrou hu.le
  rw [← hcas] at hmul
  rw [← abs_of_pos hu,← abs_mul,sub_mul,abs_of_pos hu,div_mul_cancel₀ _ hu.ne'] at hmul
  linarith

end Neighbours

section ReadsBack

variable {x : ℚ} (hx : 0 < x) (hfix : nearest x=some x)

include hfix

theorem readsBack_iff (d : Scaled) : readsBack x d=true ↔ rounded d.value=x := by
  have hfin : |rounded x| < 2 ^ 1024 := by
    rw [nearest_eq] at hfix
    by_contra hlar
    rw [if_neg hlar] at hfix
    exact absurd hfix (by simp)
  rw [rounded_of_nearest hfix] at hfin
  rw [readsBack,decide_eq_true_iff]
  constructor
  · exact rounded_of_nearest
  · intro h
    rw [nearest_eq,h,if_pos hfin]

/-- A decimal below `x` reads back only if every closer one does. -/
theorem readsBack_below {c d : Scaled} (hc : 0 < c.value) (hcd : c.value ≤ d.value) (hd : d.value ≤ x)
    (h : readsBack x c=true) : readsBack x d=true := by
  rw [readsBack_iff hfix] at h ⊢
  exact rounded_between hc hcd hd h (rounded_of_nearest hfix)

theorem readsBack_above {c d : Scaled} (hx : 0 < x) (hd : x ≤ d.value) (hdc : d.value ≤ c.value)
    (h : readsBack x c=true) : readsBack x d=true := by
  rw [readsBack_iff hfix] at h ⊢
  exact rounded_between hx hd hdc (rounded_of_nearest hfix) h

/-- When the neighbour above is the closer one, it reads back if the one below does. -/
theorem readsBack_ceil (hx : 0 < x) {p : Nat}
    (hdis : (floorAt (p+1) x+1 : ℚ) * 10 ^ scaleAt (p+1) x - x ≤
      x - floorAt (p+1) x * 10 ^ scaleAt (p+1) x)
    (h : readsBack x (floorAt (p+1) x,scaleAt (p+1) x)=true) :
    readsBack x (floorAt (p+1) x+1,scaleAt (p+1) x)=true := by
  obtain ⟨hlow,hhig⟩ := floorAt_bounds hx (p+1)
  have hpos : 0 < floorAt (p+1) x := (pow_pos (by norm_num) p).trans_le (floorAt_digits hx p).1
  rw [readsBack_iff hfix] at h ⊢
  rw [Scaled.value] at h ⊢
  push_cast
  apply rounded_reflect hx (rounded_of_nearest hfix) _ hlow h hhig.le hdis
  exact mul_pos (Nat.cast_pos.mpr hpos) (scale_pos _)

theorem readsBack_seventeen (hx : 0 < x) :
    readsBack x (nearestAt 17 x,scaleAt 17 x)=true := by
  rw [readsBack_iff hfix]
  apply rounded_close hx (rounded_of_nearest hfix)
  refine (nearestAt_close hx 17).trans_lt ?_
  have hsca : (10 : ℚ) ^ scaleAt 17 x * 10 ^ 16=10 ^ Int.log 10 x := by
    rw [scaleAt,← zpow_natCast (10 : ℚ) 16,← zpow_add₀ (by norm_num)]
    congr 1
    push_cast
    ring
  have hlow := (log_ten hx).1
  have hu := scale_pos (scaleAt 17 x)
  rw [← hsca] at hlow
  rw [div_lt_div_iff₀ (by norm_num) (by norm_num)]
  linarith

end ReadsBack

def Agrees (candidates : Nat → ℚ → List Scaled) (x : ℚ) : Prop :=
  ∀ precision, ((candidates (precision+1) x).find? (readsBack x)).map (fun d => literal d.1 d.2) =
    ((neighbours (precision+1) x).find? (readsBack x)).map fun d => literal d.1 d.2

theorem shortest_of_agrees {candidates : Nat → ℚ → List Scaled} {x : ℚ} (h : Agrees candidates x) :
    (shortest candidates x).map (fun d => literal d.1 d.2) =
      (shortest neighbours x).map fun d => literal d.1 d.2 := by
  have hpos : ∀ p∈List.range' 1 17, ∃ q, p=q+1 := by
    intro p hp
    have := (List.mem_range'_1.mp hp).1
    exact ⟨p - 1,by omega⟩
  rw [shortest,shortest]
  generalize List.range' 1 17=precisions at hpos
  induction precisions with
  | nil => rfl
  | cons p ps ih =>
    obtain ⟨q,rfl⟩ := hpos p List.mem_cons_self
    have hq := h q
    rw [List.findSome?_cons,List.findSome?_cons]
    cases hlef : (candidates (q+1) x).find? (readsBack x) with
    | none =>
      rw [hlef,Option.map_none,eq_comm,Option.map_eq_none_iff] at hq
      rw [hq]
      exact ih fun p hp => hpos p (List.mem_cons_of_mem _ hp)
    | some d =>
      rw [hlef] at hq
      cases hrig : (neighbours (q+1) x).find? (readsBack x) with
      | none => simp [hrig] at hq
      | some e =>
        rw [hrig] at hq
        exact hq

theorem pos_of_readsBack {x : ℚ} (hx : 0 < x) {d : Scaled} (h : readsBack x d=true) : 0 < d.1 := by
  apply Nat.pos_of_ne_zero
  intro hzer
  have hnea := of_decide_eq_true h
  rw [Scaled.value,hzer,Nat.cast_zero,zero_mul,show (0 : ℚ)=((0 : ℤ) : ℚ) by norm_num,
    nearest_intCast (by norm_num),Int.cast_zero] at hnea
  exact hx.ne (Option.some.inj hnea)

theorem readsBack_of_shortest {candidates : Nat → ℚ → List Scaled} {x : ℚ} {d : Scaled}
    (h : shortest candidates x=some d) : readsBack x d=true := by
  rw [shortest] at h
  obtain ⟨p,-,hp⟩ := List.exists_of_findSome?_eq_some h
  exact List.find?_some hp

theorem shortest_neighbours_isSome {x : ℚ} (hx : 0 < x) (hfix : nearest x=some x) :
    (shortest neighbours x).isSome := by
  rw [shortest,List.findSome?_isSome_iff]
  refine ⟨17,by decide,?_⟩
  rw [List.find?_isSome]
  refine ⟨_,?_,readsBack_seventeen hfix hx⟩
  rw [neighbours]
  rcases nearestAt_cases hx 17 with h | ⟨h,-⟩
  · simp [h]
  · simp [h]

/-- `Number::toString` of a binary64 number. -/
def numberToString (x : ℚ) : List Char :=
  if x=0 then ['0']
  else (if x < 0 then ['-'] else []) ++
    (((shortest neighbours |x|).map fun d => literal d.1 d.2).map Literal.text).getD []

theorem nearest_abs {x : ℚ} (h : nearest x=some x) : nearest |x| = some |x| := by
  rcases abs_choice x with hx | hx
  · rw [hx,h]
  · rw [hx,nearest_neg,h]
    rfl

/-- The text of a number other than zero is the literal of its magnitude after its sign. -/
theorem numberToString_literal {x : ℚ} (h : nearest x=some x) (hx : x≠0) :
    ∃ l : Literal, l.WellFormed ∧ nearest l.value=some |x| ∧
      (shortest neighbours |x|).map (fun d => literal d.1 d.2)=some l ∧
      numberToString x=(if x < 0 then ['-'] else [])++l.text := by
  have hpos : 0 < |x| := abs_pos.mpr hx
  obtain ⟨d,hd⟩ := Option.isSome_iff_exists.mp (shortest_neighbours_isSome hpos (nearest_abs h))
  have hbac := readsBack_of_shortest hd
  have hc := pos_of_readsBack hpos hbac
  refine ⟨literal d.1 d.2,literal_wellFormed hc d.2,?_,by rw [hd]; rfl,?_⟩
  · rw [literal_value hc]
    exact of_decide_eq_true hbac
  · rw [numberToString,if_neg hx,hd]
    rfl

end CastleWall.Decimal
