import Mathlib.Data.List.Lex
import Mathlib.Data.List.TakeWhile

/-! # Text operations

ASCII case folding, prefix and suffix tests, splitting and decimal reading, over strings
read as lists of Unicode scalar values. UTF-8 is self-synchronising, so a test on bytes for
a valid string agrees with the test on its characters. -/

namespace CastleWall.Text

variable (s : String)

def toAsciiLowercase : String := String.ofList (s.toList.map Char.toLower)

def eqIgnoreAsciiCase (a b : String) : Bool :=
  decide (a.toList.map Char.toLower=b.toList.map Char.toLower)

def startsWith (s pre : String) : Bool := pre.toList.isPrefixOf s.toList

def endsWith (s suf : String) : Bool := suf.toList.isSuffixOf s.toList

def stripPrefix (s pre : String) : Option String :=
  (s.toList.dropPrefix? pre.toList).map String.ofList

/-- The two sides of the first occurrence of `sep`. -/
def splitOnceChars (sep : Char) : List Char → Option (List Char × List Char)
  | [] => none
  | c::cs =>
    if c=sep then some ([],cs)
    else (splitOnceChars sep cs).map fun p => (c::p.1,p.2)

def splitOnce (sep : Char) : Option (String × String) :=
  (splitOnceChars sep s.toList).map fun p => (String.ofList p.1,String.ofList p.2)

def utf8Bytes : List UInt8 := s.toList.flatMap String.utf8EncodeChar

/-- The Unicode `White_Space` property. -/
def isWhitespace (c : Char) : Bool :=
  let n := c.toNat
  (0x9 ≤ n && n ≤ 0xd) || n == 0x20 || n == 0x85 || n == 0xa0 || n == 0x1680 ||
    (0x2000 ≤ n && n ≤ 0x200a) || n == 0x2028 || n == 0x2029 || n == 0x202f || n == 0x205f ||
    n == 0x3000

def trim : String :=
  String.ofList (((s.toList.dropWhile isWhitespace).reverse.dropWhile isWhitespace).reverse)

/-- The text between the outer characters that satisfy `p`. -/
def stripBy (p : Char → Bool) (cs : List Char) : List Char :=
  ((cs.dropWhile p).reverse.dropWhile p).reverse

theorem stripBy_split (p : Char → Bool) (cs : List Char) :
    ∃ front back, cs=front++stripBy p cs++back ∧ (∀ c∈front, p c=true) ∧
      ∀ c∈back, p c=true := by
  refine ⟨cs.takeWhile p,((cs.dropWhile p).reverse.takeWhile p).reverse,?_,?_,?_⟩
  · have hbac := congrArg List.reverse
      (List.takeWhile_append_dropWhile (p := p) (l := (cs.dropWhile p).reverse))
    rw [List.reverse_append,List.reverse_reverse] at hbac
    rw [stripBy,List.append_assoc,hbac,List.takeWhile_append_dropWhile]
  · intro c hc
    exact List.mem_takeWhile_imp hc
  · intro c hc
    exact List.mem_takeWhile_imp (List.mem_reverse.mp hc)

private theorem dropWhile_around {p : Char → Bool} {core : List Char} (hne : core≠[])
    (hcor : ∀ c∈core, p c=false) (front back : List Char) :
    (front++core++back).dropWhile p=front.dropWhile p++core++back := by
  induction front with
  | nil =>
    cases core with
    | nil => exact absurd rfl hne
    | cons c core => simp [hcor c List.mem_cons_self]
  | cons c front ih =>
    by_cases hc : p c=true
    · simpa [hc] using ih
    · simp [hc]

theorem stripBy_around {p : Char → Bool} {core : List Char} (hne : core≠[])
    (hcor : ∀ c∈core, p c=false) (front back : List Char) :
    ∃ left right, stripBy p (front++core++back)=left++core++right ∧
      (∀ c∈left, c∈front) ∧ ∀ c∈right, c∈back := by
  refine ⟨front.dropWhile p,(back.reverse.dropWhile p).reverse,?_,?_,?_⟩
  · have hrev : (front.dropWhile p++core++back).reverse =
        back.reverse++core.reverse++(front.dropWhile p).reverse := by simp
    rw [stripBy,dropWhile_around hne hcor,hrev,
      dropWhile_around (by simpa using hne) (by simpa using hcor)]
    simp
  · intro c hc
    exact List.dropWhile_subset p hc
  · intro c hc
    exact List.mem_reverse.mp (List.dropWhile_subset p (List.mem_reverse.mp hc))

/-- The value of a digit in a radix of at most sixteen, as `char::to_digit` reads it. -/
def toDigit (radix : Nat) (c : Char) : Option Nat :=
  let v :=
    if '0' ≤ c ∧ c ≤ '9' then some (c.toNat - '0'.toNat)
    else if 'a' ≤ c ∧ c ≤ 'f' then some (c.toNat - 'a'.toNat+10)
    else if 'A' ≤ c ∧ c ≤ 'F' then some (c.toNat - 'A'.toNat+10)
    else none
  v.filter (· < radix)

def spanDigits (radix : Nat) : List Char → List Nat × List Char
  | [] => ([],[])
  | c::cs =>
    match toDigit radix c with
    | none => ([],c::cs)
    | some d => let p := spanDigits radix cs; (d::p.1,p.2)

def ofDigits (radix : Nat) (ds : List Nat) : Nat := ds.foldl (fun acc d => acc * radix+d) 0

def isAsciiDigit (c : Char) : Bool := '0' ≤ c && c ≤ '9'

def stripPlus : List Char → List Char
  | '+' :: cs => cs
  | cs => cs

/-- `str::parse` for an unsigned integer below `bound`: an optional `+`, then at least one
decimal digit and nothing else. -/
def parseUnsigned (bound : Nat) (s : String) : Option Nat :=
  match spanDigits 10 (stripPlus s.toList) with
  | ([],_) => none
  | (ds,[]) => if ofDigits 10 ds < bound then some (ofDigits 10 ds) else none
  | _ => none

private theorem toDigit_isDigit {c : Char} (h : c.isDigit=true) :
    toDigit 10 c=some (c.toNat - '0'.toNat) := by
  have hran : '0' ≤ c ∧ c ≤ '9' := by
    simp only [Char.isDigit,Bool.and_eq_true,decide_eq_true_eq] at h
    exact h
  have hten : c.toNat - '0'.toNat < 10 := by
    have h9 : c.toNat ≤ '9'.toNat := UInt32.le_iff_toNat_le.mp hran.2
    simp only [Char.reduceToNat] at h9 ⊢
    omega
  simp only [toDigit,if_pos hran,Option.filter_some,hten,decide_true,if_true]

variable {cs : List Char}

theorem spanDigits_digits (h : ∀ c∈cs, c.isDigit=true) :
    spanDigits 10 cs=(cs.map fun c => c.toNat - '0'.toNat,[]) := by
  induction cs with
  | nil => rfl
  | cons c cs ih =>
    simp only [spanDigits,toDigit_isDigit (h c List.mem_cons_self),List.map_cons,
      ih fun d hd => h d (List.mem_cons_of_mem _ hd)]

theorem ofDigits_digits (cs : List Char) :
    ofDigits 10 (cs.map fun c => c.toNat - '0'.toNat)=Nat.ofDigitChars 10 cs 0 := by
  rw [ofDigits,Nat.ofDigitChars_eq_foldl,List.foldl_map]
  simp only [Nat.mul_comm]

variable {bound : Nat}

theorem parseUnsigned_digitChars (hne : cs≠[])
    (h : ∀ c∈cs, c.isDigit=true) :
    parseUnsigned bound (String.ofList cs) =
      if Nat.ofDigitChars 10 cs 0 < bound then some (Nat.ofDigitChars 10 cs 0) else none := by
  have hplu : stripPlus cs=cs := by
    cases cs with
    | nil => rfl
    | cons c cs =>
      unfold stripPlus
      split
      · rename_i heq
        have hc := h c List.mem_cons_self
        rw [(List.cons.inj heq).1] at hc
        exact absurd hc (by decide)
      · rfl
  cases cs with
  | nil => exact absurd rfl hne
  | cons c cs =>
    rw [parseUnsigned,String.toList_ofList,hplu,spanDigits_digits h,← ofDigits_digits]
    rfl

private theorem isDigit_of_toDigit {c : Char} {d : Nat} (h : toDigit 10 c=some d) :
    c.isDigit=true := by
  by_contra hc
  have hran : ¬ ('0' ≤ c ∧ c ≤ '9') := by
    intro hran
    exact hc (by simp only [Char.isDigit,Bool.and_eq_true,decide_eq_true_eq]; exact hran)
  simp only [toDigit,if_neg hran] at h
  split_ifs at h <;> simp [Option.filter_some] at h <;> omega

private theorem isDigit_of_spanDigits {ds : List Nat}
    (h : spanDigits 10 cs=(ds,[])) : ∀ c∈cs, c.isDigit=true := by
  induction cs generalizing ds with
  | nil => simp
  | cons c cs ih =>
    cases hc : toDigit 10 c with
    | none => simp [spanDigits,hc] at h
    | some d =>
      simp only [spanDigits,hc,Prod.mk.injEq] at h
      intro x hx
      rcases List.mem_cons.mp hx with rfl | hx
      · exact isDigit_of_toDigit hc
      · exact ih (Prod.ext rfl h.2) x hx

theorem digits_of_parseUnsigned {n : Nat} {s : String} (h : parseUnsigned bound s=some n) :
    stripPlus s.toList≠[] ∧ (∀ c∈stripPlus s.toList, c.isDigit=true) ∧
      Nat.ofDigitChars 10 (stripPlus s.toList) 0=n ∧ n < bound := by
  rw [parseUnsigned] at h
  split at h
  · exact absurd h (by simp)
  · rename_i ds hds hspa
    have hdig := isDigit_of_spanDigits hspa
    have hne : stripPlus s.toList≠[] := by
      intro hnil
      rw [hnil] at hspa
      exact hds (Prod.mk.inj hspa).1.symm
    rw [spanDigits_digits hdig] at hspa
    rw [← (Prod.mk.inj hspa).1,ofDigits_digits] at h
    split_ifs at h with hlt
    have hn := Option.some.inj h
    exact ⟨hne,hdig,hn,hn ▸ hlt⟩
  · exact absurd h (by simp)

theorem parseUnsigned_toDigits {n : Nat} (h : n < bound) :
    parseUnsigned bound (String.ofList (Nat.toDigits 10 n))=some n := by
  rw [parseUnsigned_digitChars Nat.toDigits_ne_nil
    fun _ hc => Nat.isDigit_of_mem_toDigits (by decide) (by decide) hc,
    Nat.ofDigitChars_ten_toDigits,if_pos h]

def utf16Char (c : Char) : List Nat :=
  if c.toNat < 0x10000 then [c.toNat]
  else [0xd800+(c.toNat - 0x10000) / 0x400,0xdc00+(c.toNat - 0x10000) % 0x400]

def utf16Units : List Nat := s.toList.flatMap utf16Char

def utf16Le (a b : String) : Bool := decide (utf16Units a ≤ utf16Units b)

theorem utf16Le_trans (a b c : String) (hab : utf16Le a b=true) (hbc : utf16Le b c=true) :
    utf16Le a c=true := by
  simp only [utf16Le,decide_eq_true_eq] at hab hbc ⊢
  exact le_trans hab hbc

theorem utf16Le_total (a b : String) : utf16Le a b=true ∨ utf16Le b a=true := by
  simp only [utf16Le,decide_eq_true_eq]
  exact le_total _ _

theorem eqIgnoreAsciiCase_iff (a b : String) :
    eqIgnoreAsciiCase a b=true ↔ toAsciiLowercase a=toAsciiLowercase b := by
  unfold eqIgnoreAsciiCase toAsciiLowercase
  rw [decide_eq_true_iff]
  constructor
  · intro h
    rw [h]
  · intro h
    simpa using congrArg String.toList h

theorem eqIgnoreAsciiCase_comm (a b : String) :
    eqIgnoreAsciiCase a b=eqIgnoreAsciiCase b a := by
  rw [Bool.eq_iff_iff,eqIgnoreAsciiCase_iff,eqIgnoreAsciiCase_iff]
  exact eq_comm

theorem eqIgnoreAsciiCase_trans {a b c : String} (hab : eqIgnoreAsciiCase a b=true)
    (hbc : eqIgnoreAsciiCase b c=true) : eqIgnoreAsciiCase a c=true := by
  rw [eqIgnoreAsciiCase_iff] at hab hbc ⊢
  exact hab.trans hbc

end CastleWall.Text
