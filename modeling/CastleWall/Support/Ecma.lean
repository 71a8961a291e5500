import CastleWall.Support.Binary64
import CastleWall.Support.Lines

/-! # ECMAScript text

The lossy UTF-8 decoding of `TextDecoder` and the reading of numeric strings by `Number`. -/

namespace CastleWall.Ecma

open Text

/-- A sequence in progress: the bits read so far, the bytes still wanted, and the range of the
next one. -/
structure Pending where
  (codePoint needed lower upper : Nat)

def replacement : Char := '\uFFFD'

/-- A byte read outside any sequence: the characters it settles and the sequence it opens. -/
def leadByte (b : Nat) : List Char × Option Pending :=
  if b < 0x80 then ([Char.ofNat b],none)
  else if b < 0xc2 then ([replacement],none)
  else if b < 0xe0 then ([],some ⟨b - 0xc0,1,0x80,0xbf⟩)
  else if b < 0xf0 then
    ([],some ⟨b - 0xe0,2,if b=0xe0 then 0xa0 else 0x80,if b=0xed then 0x9f else 0xbf⟩)
  else if b < 0xf5 then
    ([],some ⟨b - 0xf0,3,if b=0xf0 then 0x90 else 0x80,if b=0xf4 then 0x8f else 0xbf⟩)
  else ([replacement],none)

/-- The decoder: a byte that does not continue the sequence in progress ends it with a replacement
character and is read again as the first of its own. -/
def decodeFrom (pending : Option Pending) : List UInt8 → List Char
  | [] => if pending.isSome then [replacement] else []
  | b::bs =>
    match pending with
    | none => (leadByte b.toNat).1++decodeFrom (leadByte b.toNat).2 bs
    | some p =>
      if p.lower ≤ b.toNat ∧ b.toNat ≤ p.upper then
        let codePoint := p.codePoint * 64+b.toNat % 64
        if p.needed=1 then Char.ofNat codePoint::decodeFrom none bs
        else decodeFrom (some ⟨codePoint,p.needed - 1,0x80,0xbf⟩) bs
      else replacement::((leadByte b.toNat).1++decodeFrom (leadByte b.toNat).2 bs)

def byteOrderMark : Char := '\uFEFF'

def byteOrderMarkBytes : List UInt8 := [0xef,0xbb,0xbf]

/-- `TextDecoder.decode`: a byte order mark in front is dropped. -/
def textDecode (bytes : List UInt8) : String :=
  String.ofList (decodeFrom none
    (if byteOrderMarkBytes.isPrefixOf bytes then bytes.drop 3 else bytes))

private theorem ofNat_val (c : Char) : Char.ofNat c.val.toNat=c := Char.ofNat_toNat c

variable {n : Nat}

private theorem toNat_ofNat (h : n < 256) : (UInt8.ofNat n).toNat=n := by
  rw [UInt8.toNat_ofNat',Nat.mod_eq_of_lt h]

private theorem decodeFrom_lead (h : n < 256) (bs : List UInt8) :
    decodeFrom none (UInt8.ofNat n::bs)=(leadByte n).1++decodeFrom (leadByte n).2 bs := by
  rw [decodeFrom,toNat_ofNat h]

private theorem decodeFrom_last {cp lower upper : Nat} (hn : n < 256) (hlow : lower ≤ n)
    (hupp : n ≤ upper) (bs : List UInt8) :
    decodeFrom (some ⟨cp,1,lower,upper⟩) (UInt8.ofNat n::bs) =
      Char.ofNat (cp * 64+n % 64)::decodeFrom none bs := by
  rw [decodeFrom,toNat_ofNat hn]
  simp [hlow,hupp]

private theorem decodeFrom_next {cp needed lower upper : Nat} (hnee : needed≠1) (hn : n < 256)
    (hlow : lower ≤ n) (hupp : n ≤ upper) (bs : List UInt8) :
    decodeFrom (some ⟨cp,needed,lower,upper⟩) (UInt8.ofNat n::bs) =
      decodeFrom (some ⟨cp * 64+n % 64,needed - 1,0x80,0xbf⟩) bs := by
  rw [decodeFrom,toNat_ofNat hn]
  simp [hlow,hupp,hnee]

theorem decodeFrom_utf8EncodeChar (c : Char) (bs : List UInt8) :
    decodeFrom none (String.utf8EncodeChar c++bs)=c::decodeFrom none bs := by
  have hval := c.valid
  have hsca : c.val.toNat < 0xd800 ∨ 0xdfff < c.val.toNat ∧ c.val.toNat < 0x110000 := hval
  unfold String.utf8EncodeChar
  simp only
  generalize hv : c.val.toNat=v at *
  split_ifs with h1 h2 h3
  · rw [List.singleton_append,decodeFrom_lead (by omega),leadByte,if_pos (by omega),
      List.singleton_append,← hv,ofNat_val]
  · simp only [List.cons_append,List.nil_append]
    rw [decodeFrom_lead (by omega),leadByte,if_neg (by omega),if_neg (by omega),
      if_pos (by omega),List.nil_append,
      decodeFrom_last (by omega) (by omega) (by omega),
      show (v / 64 % 32+192 - 192) * 64+(v % 64+128) % 64=v by omega,← hv,ofNat_val]
  · simp only [List.cons_append,List.nil_append]
    rw [decodeFrom_lead (by omega),leadByte,if_neg (by omega),if_neg (by omega),
      if_neg (by omega),if_pos (by omega),List.nil_append]
    rw [decodeFrom_next (by omega) (by omega) (by split_ifs <;> omega) (by split_ifs <;> omega),
      decodeFrom_last (by omega) (by omega) (by omega),
      show ((v / 4096 % 16+224 - 224) * 64+(v / 64 % 64+128) % 64) * 64 +
        (v % 64+128) % 64=v by omega,← hv,ofNat_val]
  · simp only [List.cons_append,List.nil_append]
    rw [decodeFrom_lead (by omega),leadByte,if_neg (by omega),if_neg (by omega),
      if_neg (by omega),if_neg (by omega),if_pos (by omega),List.nil_append]
    rw [decodeFrom_next (by omega) (by omega) (by split_ifs <;> omega) (by split_ifs <;> omega),
      decodeFrom_next (by omega) (by omega) (by omega) (by omega),
      decodeFrom_last (by omega) (by omega) (by omega),
      show (((v / 262144 % 8+240 - 240) * 64+(v / 4096 % 64+128) % 64) * 64 +
        (v / 64 % 64+128) % 64) * 64+(v % 64+128) % 64=v by omega,← hv,ofNat_val]

theorem decodeFrom_utf8Bytes (s : String) : decodeFrom none (utf8Bytes s)=s.toList := by
  rw [utf8Bytes]
  induction s.toList with
  | nil => rfl
  | cons c cs ih => rw [List.flatMap_cons,decodeFrom_utf8EncodeChar,ih]

private theorem decodeFrom_byteOrderMark (bs : List UInt8) :
    decodeFrom none (byteOrderMarkBytes++bs)=byteOrderMark::decodeFrom none bs := by
  have hbyt : String.utf8EncodeChar byteOrderMark=byteOrderMarkBytes := by decide
  rw [← hbyt,decodeFrom_utf8EncodeChar]

variable {s : String}

theorem textDecode_utf8Bytes (h : s.toList.head? ≠ some byteOrderMark) :
    textDecode (utf8Bytes s)=s := by
  rw [textDecode,if_neg,decodeFrom_utf8Bytes,String.ofList_toList]
  intro hmar
  obtain ⟨rest,hres⟩ := List.isPrefixOf_iff_prefix.mp hmar
  have hcha := decodeFrom_utf8Bytes s
  rw [← hres,decodeFrom_byteOrderMark] at hcha
  rw [← hcha] at h
  exact h rfl

variable {cs : List Char}

theorem textDecode_byteOrderMark (h : s.toList=byteOrderMark::cs) :
    textDecode (utf8Bytes s)=String.ofList cs := by
  have hbyt : utf8Bytes s=byteOrderMarkBytes++cs.flatMap String.utf8EncodeChar := by
    rw [utf8Bytes,h,List.flatMap_cons]
    rfl
  have hcs := decodeFrom_utf8Bytes (String.ofList cs)
  rw [utf8Bytes_ofList,String.toList_ofList] at hcs
  rw [textDecode,hbyt,if_pos (List.isPrefixOf_iff_prefix.mpr (List.prefix_append _ _)),
    show 3=byteOrderMarkBytes.length from rfl,List.drop_left,hcs]

def exponentDigits (cs : List Char) : Option Nat :=
  if cs≠[] ∧ cs.all Char.isDigit then some (Nat.ofDigitChars 10 cs 0) else none

def scaleBy (m : ℚ) : List Char → Option ℚ
  | [] => some m
  | c::cs =>
    if c = 'e' ∨ c = 'E' then
      match cs with
      | '+' :: ds => (exponentDigits ds).map fun e => m * 10 ^ e
      | '-' :: ds => (exponentDigits ds).map fun e => m / 10 ^ e
      | ds => (exponentDigits ds).map fun e => m * 10 ^ e
    else none

/-- An unsigned decimal literal: digits with at most one point, then an optional exponent. -/
def decimalLiteral (cs : List Char) : Option ℚ :=
  let whole := cs.takeWhile Char.isDigit
  match cs.dropWhile Char.isDigit with
  | '.' :: rest =>
    let fraction := rest.takeWhile Char.isDigit
    if whole=[] ∧ fraction=[] then none
    else scaleBy (Nat.ofDigitChars 10 (whole++fraction) 0 / 10 ^ fraction.length)
      (rest.dropWhile Char.isDigit)
  | rest => if whole=[] then none else scaleBy (Nat.ofDigitChars 10 whole 0) rest

def radixLiteral (radix : Nat) (cs : List Char) : Option ℚ :=
  match spanDigits radix cs with
  | ([],_) => none
  | (ds,[]) => some (ofDigits radix ds)
  | _ => none

/-- The exact value of a numeric string whose outer white space is stripped; `none` stands for
`NaN` and the infinities. -/
def numericLiteral : List Char → Option ℚ
  | [] => some 0
  | '0' :: 'x' :: cs => radixLiteral 16 cs
  | '0' :: 'X' :: cs => radixLiteral 16 cs
  | '0' :: 'o' :: cs => radixLiteral 8 cs
  | '0' :: 'O' :: cs => radixLiteral 8 cs
  | '0' :: 'b' :: cs => radixLiteral 2 cs
  | '0' :: 'B' :: cs => radixLiteral 2 cs
  | '+' :: cs => decimalLiteral cs
  | '-' :: cs => (decimalLiteral cs).map fun x => -x
  | cs => decimalLiteral cs

/-- `Number(text)` for stripped text, when it is finite. -/
def number (cs : List Char) : Option ℚ := (numericLiteral cs).bind Binary64.nearest

def Numeric (c : Char) : Prop := 0x2b ≤ c.toNat ∧ c.toNat ≤ 0x7a

variable {c : Char}

private theorem numeric_of_isDigit (h : c.isDigit=true) : Numeric c := by
  simp only [Char.isDigit,Bool.and_eq_true,decide_eq_true_eq] at h
  have h0 : 48 ≤ c.toNat := UInt32.le_iff_toNat_le.mp h.1
  have h9 : c.toNat ≤ 57 := UInt32.le_iff_toNat_le.mp h.2
  exact ⟨by omega,by omega⟩

private theorem numeric_exponentDigits {e : Nat}
    (h : exponentDigits cs=some e) : ∀ c∈cs, Numeric c := by
  rw [exponentDigits] at h
  split_ifs at h with hdig
  intro c hc
  exact numeric_of_isDigit (List.all_eq_true.mp hdig.2 c hc)

variable {x : ℚ}

private theorem numeric_scaleBy {m : ℚ} (h : scaleBy m cs=some x) :
    ∀ c∈cs, Numeric c := by
  cases cs with
  | nil => simp
  | cons c cs =>
    unfold scaleBy at h
    simp only at h
    split_ifs at h with he
    have hc : Numeric c := by
      rcases he with rfl | rfl
      · exact ⟨by decide,by decide⟩
      · exact ⟨by decide,by decide⟩
    have hcs : ∀ d∈cs, Numeric d := by
      split at h
      · obtain ⟨e,hdig,-⟩ := Option.map_eq_some_iff.mp h
        exact List.forall_mem_cons.mpr ⟨⟨by decide,by decide⟩,numeric_exponentDigits hdig⟩
      · obtain ⟨e,hdig,-⟩ := Option.map_eq_some_iff.mp h
        exact List.forall_mem_cons.mpr ⟨⟨by decide,by decide⟩,numeric_exponentDigits hdig⟩
      · obtain ⟨e,hdig,-⟩ := Option.map_eq_some_iff.mp h
        exact numeric_exponentDigits hdig
    exact List.forall_mem_cons.mpr ⟨hc,hcs⟩

private theorem numeric_of_dropWhile
    (h : ∀ c∈cs.dropWhile Char.isDigit, Numeric c) : ∀ c∈cs, Numeric c := by
  intro c hc
  rw [← List.takeWhile_append_dropWhile (p := Char.isDigit) (l := cs),List.mem_append] at hc
  rcases hc with hc | hc
  · exact numeric_of_isDigit (List.mem_takeWhile_imp hc)
  · exact h c hc

private theorem numeric_decimalLiteral (h : decimalLiteral cs=some x) :
    ∀ c∈cs, Numeric c := by
  rw [decimalLiteral] at h
  apply numeric_of_dropWhile
  split at h
  · rename_i rest hres
    simp only at h
    split_ifs at h
    rw [hres]
    exact List.forall_mem_cons.mpr
      ⟨⟨by decide,by decide⟩,numeric_of_dropWhile (numeric_scaleBy h)⟩
  · split_ifs at h
    exact numeric_scaleBy h

variable {radix : Nat}

private theorem numeric_toDigit {d : Nat} (h : toDigit radix c=some d) :
    Numeric c := by
  rw [toDigit] at h
  obtain ⟨hv,-⟩ := Option.filter_eq_some_iff.mp h
  split_ifs at hv with h1 h2 h3
  · have hlow : 48 ≤ c.toNat := UInt32.le_iff_toNat_le.mp h1.1
    have hhig : c.toNat ≤ 57 := UInt32.le_iff_toNat_le.mp h1.2
    exact ⟨by omega,by omega⟩
  · have hlow : 97 ≤ c.toNat := UInt32.le_iff_toNat_le.mp h2.1
    have hhig : c.toNat ≤ 102 := UInt32.le_iff_toNat_le.mp h2.2
    exact ⟨by omega,by omega⟩
  · have hlow : 65 ≤ c.toNat := UInt32.le_iff_toNat_le.mp h3.1
    have hhig : c.toNat ≤ 70 := UInt32.le_iff_toNat_le.mp h3.2
    exact ⟨by omega,by omega⟩

private theorem numeric_spanDigits {ds : List Nat}
    (h : spanDigits radix cs=(ds,[])) : ∀ c∈cs, Numeric c := by
  induction cs generalizing ds with
  | nil => simp
  | cons c cs ih =>
    cases hc : toDigit radix c with
    | none => simp [spanDigits,hc] at h
    | some d =>
      simp only [spanDigits,hc,Prod.mk.injEq] at h
      exact List.forall_mem_cons.mpr ⟨numeric_toDigit hc,ih (Prod.ext rfl h.2)⟩

private theorem numeric_radixLiteral
    (h : radixLiteral radix cs=some x) : ∀ c∈cs, Numeric c := by
  rw [radixLiteral] at h
  split at h
  · exact absurd h (by simp)
  · rename_i hspa
    exact numeric_spanDigits hspa
  · exact absurd h (by simp)

/-- A text that is read as a number holds nothing but the characters of numerals. -/
theorem numeric_of_number (h : number cs=some x) :
    ∀ c∈cs, Numeric c := by
  obtain ⟨y,hy,-⟩ := Option.bind_eq_some_iff.mp h
  have hsig : ∀ {c : Char} {ds : List Char}, Numeric c → (∀ d∈ds, Numeric d) →
      ∀ d∈c::ds, Numeric d := fun hc hds => List.forall_mem_cons.mpr ⟨hc,hds⟩
  unfold numericLiteral at hy
  split at hy
  · simp
  iterate 6
    · exact hsig ⟨by decide,by decide⟩ (hsig ⟨by decide,by decide⟩ (numeric_radixLiteral hy))
  · exact hsig ⟨by decide,by decide⟩ (numeric_decimalLiteral hy)
  · obtain ⟨z,hz,-⟩ := Option.map_eq_some_iff.mp hy
    exact hsig ⟨by decide,by decide⟩ (numeric_decimalLiteral hz)
  · exact numeric_decimalLiteral hy

theorem isWhitespace_of_numeric (h : Numeric c) : isWhitespace c=false := by
  obtain ⟨hlow,hhig⟩ := h
  simp only [isWhitespace,Bool.or_eq_false_iff,Bool.and_eq_false_iff,decide_eq_false_iff_not,
    beq_eq_false_iff_ne]
  omega

private theorem decimalLiteral_digits (hne : cs≠[])
    (h : ∀ c∈cs, c.isDigit=true) :
    decimalLiteral cs=some (Nat.ofDigitChars 10 cs 0 : ℚ) := by
  have htak : cs.takeWhile Char.isDigit=cs := by
    rw [← List.append_nil cs,List.takeWhile_append_of_pos h]
    rfl
  have hdro : cs.dropWhile Char.isDigit=[] := by
    rw [← List.append_nil cs,List.dropWhile_append_of_pos h]
    rfl
  simp only [decimalLiteral,htak,hdro,if_neg hne,scaleBy]

/-- A run of decimal digits is not taken for another radix or a sign. -/
private theorem numericLiteral_digits (hne : cs≠[])
    (h : ∀ c∈cs, c.isDigit=true) : numericLiteral cs=decimalLiteral cs := by
  unfold numericLiteral
  split
  · exact absurd rfl hne
  all_goals first
    | rfl
    | exact absurd (h _ (List.mem_cons_of_mem _ List.mem_cons_self)) (by decide)
    | exact absurd (h _ List.mem_cons_self) (by decide)

/-- An unsigned numeral below `2 ^ 53` is read as the number it writes. -/
theorem number_of_parseUnsigned {bound : Nat} (h : parseUnsigned bound s=some n)
    (hn : n < 2 ^ 53) : number s.toList=some (n : ℚ) := by
  obtain ⟨hne,hdig,hval,-⟩ := digits_of_parseUnsigned h
  have hlit : numericLiteral s.toList=decimalLiteral (stripPlus s.toList) := by
    revert hne hdig
    unfold stripPlus
    split
    · rename_i hplu
      intro _ _
      rw [hplu]
      rfl
    · exact numericLiteral_digits
  rw [number,hlit,decimalLiteral_digits hne hdig,hval,Option.bind_some,
    Binary64.nearest_natCast hn]

end CastleWall.Ecma
