import CastleWall.Support.Radix
import CastleWall.Support.OrderedMap
import CastleWall.Support.Outcome
import Mathlib.Data.List.Induction
import Mathlib.Data.String.Basic

/-! # Event ids

`mesh/envelope.ts`: an event id is a ULID, 48 bits of time and 80 bits of randomness in 26 letters. A second id in one
millisecond, or under a clock that went back, takes the last one's time and its random value plus one. -/

namespace CastleWall.Mesh

open Radix

def ulidAlphabet : List Char := "0123456789ABCDEFGHJKMNPQRSTVWXYZ".toList

def ulidBitsPerChar : Nat := 5

def ulidRadix : Nat := 2 ^ ulidBitsPerChar

def ulidTimeChars : Nat := 10

def ulidRandomBytes : Nat := 10

def ulidMaxTimestampMs : Int := 2 ^ 48 - 1

def bitsPerByte : Nat := 8

inductive UlidError where
  | timestampOutOfRange
  | randomExhausted

def ulidDigit (digit : Nat) : Char := ulidAlphabet.getD digit '0'

variable (word : BitVec 32)

def ulidChar : Char := ulidDigit (word &&& BitVec.ofNat 32 (ulidRadix - 1)).toNat

/-- The time, its least significant letter first; `&` takes the low 32 bits of the number. -/
def timeChars (time : Nat) : Nat → List Char → List Char
  | 0, chars => chars
  | i+1, chars => timeChars (time / ulidRadix) i (ulidChar (BitVec.ofNat 32 time)::chars)

/-- The bytes shifted in, the bits not yet written, and the letters written. -/
structure Packing where
  bitBuffer : BitVec 32
  bitCount : Nat
  chars : List Char

/-- `while (bitCount >= 5)`, with the arithmetic shift of `>>`. -/
def Packing.drain (p : Packing) : Packing :=
  if ulidBitsPerChar ≤ p.bitCount then
    Packing.drain { p with
      bitCount := p.bitCount - ulidBitsPerChar
      chars := p.chars++[ulidChar (p.bitBuffer.sshiftRight (p.bitCount - ulidBitsPerChar))] }
  else p
termination_by p.bitCount
decreasing_by
  have hpos : 0 < ulidBitsPerChar := by decide
  omega

def Packing.pushByte (p : Packing) (byte : UInt8) : Packing :=
  Packing.drain { p with
    bitBuffer := p.bitBuffer <<< bitsPerByte ||| BitVec.ofNat 32 byte.toNat
    bitCount := p.bitCount+bitsPerByte }

def randomChars (random : List UInt8) : List Char :=
  let p := random.foldl Packing.pushByte ⟨0,0,[]⟩
  if 0 < p.bitCount then p.chars++[ulidChar (p.bitBuffer <<< (ulidBitsPerChar - p.bitCount))] else p.chars

def encodeUlid (timestampMs : Int) (random : List UInt8) : Except UlidError String :=
  if timestampMs < 0 ∨ ulidMaxTimestampMs < timestampMs then .error .timestampOutOfRange
  else .ok (String.ofList (timeChars timestampMs.toNat ulidTimeChars []++randomChars random))

/-- The bytes from the index before `i` down to the first. -/
def incrementFrom (next : List UInt8) : Nat → Except UlidError (List UInt8)
  | 0 => .error .randomExhausted
  | i+1 =>
    if next.getD i 0+1≠0 then .ok (next.set i (next.getD i 0+1))
    else incrementFrom (next.set i 0) i

def incrementUlidRandom (previous : List UInt8) : Except UlidError (List UInt8) := incrementFrom previous previous.length

structure LastUlid where
  timestampMs : Int
  random : List UInt8

abbrev LastUlids : Type := OrderedMap String LastUlid

abbrev UlidDraw : Type := { bytes : List UInt8 // bytes.length=ulidRandomBytes }

/-- One call: the emitter, what `Date.parse` and the clock say, and the bytes drawn if any are. -/
structure EventIdCall where
  emitterNode : String
  parsedMs : Option Int
  dateNow : Int
  draw : UlidDraw

def EventIdCall.nowMs (call : EventIdCall) : Int := call.parsedMs.getD call.dateNow

def nextUlid (previous : Option LastUlid) (nowMs : Int) (draw : UlidDraw) : Except UlidError LastUlid :=
  match previous with
  | none => .ok ⟨nowMs,draw.val⟩
  | some last =>
    if nowMs ≤ last.timestampMs then do
      let random ← incrementUlidRandom last.random
      return ⟨last.timestampMs,random⟩
    else .ok ⟨nowMs,draw.val⟩

def generateEventId (last : LastUlids) (call : EventIdCall) : Except UlidError String × LastUlids :=
  match nextUlid (last.get call.emitterNode) call.nowMs call.draw with
  | .error err => (.error err,last)
  | .ok next => (encodeUlid next.timestampMs next.random,last.set call.emitterNode next)

structure EventIdRun where
  last : LastUlids
  /-- The emitters and ids returned, in order. -/
  ids : List (String × String)

variable (run : EventIdRun)

def EventIdRun.step (call : EventIdCall) : EventIdRun where
  last := (generateEventId run.last call).2
  ids := run.ids ++
    match (generateEventId run.last call).1 with
    | .ok id => [(call.emitterNode,id)]
    | .error _ => []

def eventIdRun (calls : List EventIdCall) : EventIdRun := calls.foldl EventIdRun.step ⟨.empty,[]⟩

def EventIdRun.idsOf (emitterNode : String) : List String :=
  (run.ids.filter fun id => id.1=emitterNode).map Prod.snd

/-- `chars` are the base 32 letters of `number`, padded to `length`. -/
def Spells (chars : List Char) (length number : Nat) : Prop :=
  ∃ digits : List Nat, (∀ d∈digits, d < ulidRadix) ∧ digits.length=length ∧ value ulidRadix digits=number ∧
    chars=digits.map ulidDigit

theorem Spells.nil : Spells [] 0 0 := ⟨[],by simp,rfl,rfl,rfl⟩

variable {chars : List Char} {length number : Nat}

theorem Spells.append {rest : List Char} {restLength restNumber : Nat}
    (h : Spells chars length number) (hres : Spells rest restLength restNumber) :
    Spells (chars++rest) (length+restLength) (number * ulidRadix ^ restLength+restNumber) := by
  obtain ⟨ds,hds,rfl,rfl,rfl⟩ := h
  obtain ⟨es,hes,rfl,rfl,rfl⟩ := hres
  refine ⟨ds++es,?_,List.length_append,value_append ds es,(List.map_append).symm⟩
  intro d hd
  exact (List.mem_append.mp hd).elim (hds d) (hes d)

theorem Spells.digit {d : Nat} (hd : d < ulidRadix) : Spells [ulidDigit d] 1 d := by
  refine ⟨[d],?_,rfl,?_,rfl⟩
  · intro e he
    rw [List.mem_singleton.mp he]
    exact hd
  · rw [value_cons,List.length_nil,pow_zero,Nat.mul_one,value_nil,Nat.add_zero]

theorem Spells.push {d : Nat} (h : Spells chars length number) (hd : d < ulidRadix) :
    Spells (chars++[ulidDigit d]) (length+1) (number * ulidRadix+d) := by
  have happ := h.append (Spells.digit hd)
  rwa [pow_one] at happ

theorem Spells.length_eq (h : Spells chars length number) :
    chars.length=length := by
  obtain ⟨ds,-,rfl,-,rfl⟩ := h
  exact List.length_map _

theorem ulidDigit_lt_iff (d e : Nat) (hd : d < ulidRadix) (he : e < ulidRadix) :
    ulidDigit d < ulidDigit e ↔ d < e := by
  have hall : ∀ d e : Fin 32, ulidDigit d < ulidDigit e ↔ (d : Nat) < e := by decide +kernel
  exact hall ⟨d,hd⟩ ⟨e,he⟩

theorem ulidDigit_injective (d e : Nat) (hd : d < ulidRadix) (he : e < ulidRadix) (h : ulidDigit d=ulidDigit e) :
    d=e := by
  rcases Nat.lt_trichotomy d e with hlt | heq | hgt
  · have hcha := (ulidDigit_lt_iff d e hd he).mpr hlt
    rw [h] at hcha
    exact absurd hcha (lt_irrefl _)
  · exact heq
  · have hcha := (ulidDigit_lt_iff e d he hd).mpr hgt
    rw [h] at hcha
    exact absurd hcha (lt_irrefl _)

theorem Spells.lt_iff {other : List Char} {otherNumber : Nat} (h : Spells chars length number)
    (hoth : Spells other length otherNumber) : chars < other ↔ number < otherNumber := by
  obtain ⟨ds,hds,rfl,rfl,rfl⟩ := h
  obtain ⟨es,hes,hlen,rfl,rfl⟩ := hoth
  rw [map_lt_map_iff ulidDigit_lt_iff ulidDigit_injective hds hes,value_lt_value_iff hlen.symm hds hes]

theorem Spells.number_eq {otherNumber : Nat} (h : Spells chars length number)
    (hoth : Spells chars length otherNumber) : number=otherNumber := by
  have hlt : ¬ number < otherNumber := fun hlt => lt_irrefl chars ((h.lt_iff hoth).mpr hlt)
  have hgt : ¬ otherNumber < number := fun hgt => lt_irrefl chars ((hoth.lt_iff h).mpr hgt)
  omega

theorem ulidChar_eq : ulidChar word=ulidDigit (word.toNat % ulidRadix) := by
  have hmas : (BitVec.ofNat 32 (ulidRadix - 1)).toNat=2 ^ 5 - 1 := by decide
  unfold ulidChar
  rw [BitVec.toNat_and,hmas,Nat.and_two_pow_sub_one_eq_mod]
  rfl

theorem timeChars_spells (time n : Nat) (chars : List Char) :
    ∃ written, timeChars time n chars=written++chars ∧ Spells written n (time % ulidRadix ^ n) := by
  induction n generalizing time chars with
  | zero => exact ⟨[],rfl,by simpa [Nat.mod_one] using Spells.nil⟩
  | succ n ih =>
    obtain ⟨written,heq,hspe⟩ := ih (time / ulidRadix) (ulidChar (BitVec.ofNat 32 time)::chars)
    have hlow : time % 2 ^ 32 % ulidRadix=time % ulidRadix := Nat.mod_mod_of_dvd time (by decide)
    have hcha : ulidChar (BitVec.ofNat 32 time)=ulidDigit (time % ulidRadix) := by
      rw [ulidChar_eq,BitVec.toNat_ofNat,hlow]
    have hnum : time % ulidRadix ^ (n+1)=time / ulidRadix % ulidRadix ^ n * ulidRadix+time % ulidRadix := by
      rw [pow_succ',Nat.mod_mul,Nat.mul_comm,Nat.add_comm]
    refine ⟨written++[ulidChar (BitVec.ofNat 32 time)],?_,?_⟩
    · rw [timeChars,heq,List.append_assoc,List.singleton_append]
    · rw [hnum,hcha]
      exact hspe.push (Nat.mod_lt time (by decide))

def randomValue (random : List UInt8) : Nat := value (2 ^ bitsPerByte) (random.map UInt8.toNat)

/-- The letters written and the low `bitCount` bits of the buffer are the `length` bytes of `number`. -/
def Packs (p : Packing) (length number : Nat) : Prop :=
  ∃ written high, Spells p.chars written high ∧
    high * 2 ^ p.bitCount+p.bitBuffer.toNat % 2 ^ p.bitCount=number ∧
    written * ulidBitsPerChar+p.bitCount=length * bitsPerByte

/-- The sign that `>>` shifts in stays above the five bits taken. -/
theorem toNat_sshiftRight_mod {k : Nat} (hk : k+5 ≤ 32) :
    (word.sshiftRight k).toNat % 2 ^ 5=word.toNat / 2 ^ k % 2 ^ 5 := by
  apply Nat.eq_of_testBit_eq
  intro i
  rw [Nat.testBit_mod_two_pow,Nat.testBit_mod_two_pow,Nat.testBit_div_two_pow,BitVec.testBit_toNat,
    BitVec.testBit_toNat,BitVec.getLsbD_sshiftRight]
  by_cases hi : i < 5
  · have hin : ¬ 32 ≤ i := by omega
    have hbel : k+i < 32 := by omega
    rw [if_pos hbel,Nat.add_comm k i]
    simp [hi,hin]
  · simp [hi]

theorem Packs.drain {p : Packing} (h : Packs p length number) (hcou : p.bitCount ≤ 32) :
    Packs p.drain length number ∧ p.drain.bitCount < ulidBitsPerChar := by
  fun_induction Packing.drain p with
  | case1 p hle ih =>
    apply ih
    · obtain ⟨written,high,hspe,hnum,hlen⟩ := h
      have hspl : p.bitCount=(p.bitCount - ulidBitsPerChar)+5 := (Nat.sub_add_cancel hle).symm
      set k := p.bitCount - ulidBitsPerChar
      have hmod : ∀ word : Nat, word % 2 ^ p.bitCount=word / 2 ^ k % 2 ^ 5 * 2 ^ k+word % 2 ^ k := by
        intro word
        rw [hspl,pow_add,Nat.mod_mul,Nat.mul_comm,Nat.add_comm]
      refine ⟨written+1,high * ulidRadix+p.bitBuffer.toNat / 2 ^ k % 2 ^ 5,?_,?_,?_⟩
      · have hcha : ulidChar (p.bitBuffer.sshiftRight k)=ulidDigit (p.bitBuffer.toNat / 2 ^ k % 2 ^ 5) := by
          rw [ulidChar_eq]
          exact congrArg ulidDigit (toNat_sshiftRight_mod p.bitBuffer (by omega))
        simp only [hcha]
        exact hspe.push (Nat.mod_lt _ (by decide))
      · rw [← hnum,hmod,hspl,pow_add]
        simp only [ulidRadix,ulidBitsPerChar]
        ring
      · simp only [ulidBitsPerChar] at hlen ⊢
        omega
    · exact Nat.le_trans (Nat.sub_le _ _) hcou
  | case2 p hlt => exact ⟨h,Nat.not_le.mp hlt⟩

theorem toNat_push_mod (byte : UInt8) {k : Nat} (hk : k+bitsPerByte ≤ 32) :
    (word <<< bitsPerByte ||| BitVec.ofNat 32 byte.toNat).toNat % 2 ^ (k+bitsPerByte) =
      word.toNat % 2 ^ k * 2 ^ bitsPerByte+byte.toNat := by
  have hbyt : byte.toNat < 2 ^ bitsPerByte := byte.toNat_lt
  have hdvd : 2 ^ (k+bitsPerByte) ∣ 2 ^ 32 := Nat.pow_dvd_pow 2 hk
  rw [BitVec.toNat_or,BitVec.toNat_shiftLeft,BitVec.toNat_ofNat,Nat.or_mod_two_pow,Nat.mod_mod_of_dvd _ hdvd,
    Nat.mod_mod_of_dvd _ hdvd,← Nat.or_mod_two_pow,← Nat.shiftLeft_add_eq_or_of_lt hbyt,Nat.shiftLeft_eq,
    Nat.add_comm k,pow_add,Nat.mod_mul,Nat.mul_comm word.toNat,Nat.mul_add_mod,Nat.mod_eq_of_lt hbyt,
    Nat.mul_add_div (Nat.two_pow_pos _),Nat.div_eq_of_lt hbyt,Nat.add_zero,Nat.add_comm,Nat.mul_comm]

theorem Packs.pushByte {p : Packing} (h : Packs p length number)
    (hcou : p.bitCount < ulidBitsPerChar) (byte : UInt8) :
    Packs (p.pushByte byte) (length+1) (number * 2 ^ bitsPerByte+byte.toNat) ∧
      (p.pushByte byte).bitCount < ulidBitsPerChar := by
  simp only [ulidBitsPerChar] at hcou
  have hroo : p.bitCount+bitsPerByte ≤ 32 := by
    simp only [bitsPerByte]
    omega
  apply Packs.drain
  · obtain ⟨written,high,hspe,hnum,hlen⟩ := h
    refine ⟨written,high,hspe,?_,?_⟩
    · dsimp only
      rw [toNat_push_mod p.bitBuffer byte hroo,← hnum,pow_add]
      ring
    · dsimp only
      rw [← Nat.add_assoc,hlen,Nat.succ_mul]
  · exact hroo

theorem packs_foldl (random : List UInt8) :
    Packs (random.foldl Packing.pushByte ⟨0,0,[]⟩) random.length (randomValue random) ∧
      (random.foldl Packing.pushByte ⟨0,0,[]⟩).bitCount < ulidBitsPerChar := by
  induction random using List.reverseRecOn with
  | nil => exact ⟨⟨0,0,Spells.nil,rfl,rfl⟩,by decide⟩
  | append_singleton random byte ih =>
    have hpus := ih.1.pushByte ih.2 byte
    have hval : randomValue (random++[byte])=randomValue random * 2 ^ bitsPerByte+byte.toNat := by
      rw [randomValue,List.map_append,List.map_singleton,value_append_singleton]
      rfl
    rw [List.foldl_append,List.length_append,hval]
    exact hpus

/-- Eighty bits leave no rest. -/
theorem randomChars_spells (draw : UlidDraw) : Spells (randomChars draw.val) 16 (randomValue draw.val) := by
  obtain ⟨⟨written,high,hspe,hnum,hlen⟩,hcou⟩ := packs_foldl draw.val
  rw [draw.property] at hlen
  simp only [ulidRandomBytes,bitsPerByte,ulidBitsPerChar] at hlen hcou
  have hzer : (draw.val.foldl Packing.pushByte ⟨0,0,[]⟩).bitCount=0 := by omega
  have hwri : written=16 := by omega
  rw [hzer,pow_zero,Nat.mul_one,Nat.mod_one,Nat.add_zero] at hnum
  have hcha : randomChars draw.val=(draw.val.foldl Packing.pushByte ⟨0,0,[]⟩).chars := by
    unfold randomChars
    rw [if_neg (by omega)]
  rw [hcha,← hwri,← hnum]
  exact hspe

theorem map_toNat_lt (random : List UInt8) : ∀ d∈random.map UInt8.toNat, d < 2 ^ bitsPerByte := by
  intro d hd
  obtain ⟨byte,-,rfl⟩ := List.mem_map.mp hd
  exact byte.toNat_lt

theorem randomValue_lt (draw : UlidDraw) : randomValue draw.val < ulidRadix ^ 16 := by
  have hlt := value_lt (map_toNat_lt draw.val)
  rw [List.length_map,draw.property] at hlt
  exact hlt

theorem randomValue_injective (draw other : UlidDraw) (h : randomValue draw.val=randomValue other.val) :
    draw=other := by
  have hlen : (draw.val.map UInt8.toNat).length=(other.val.map UInt8.toNat).length := by
    rw [List.length_map,List.length_map,draw.property,other.property]
  have hmap := value_injective hlen (map_toNat_lt draw.val) (map_toNat_lt other.val) h
  exact Subtype.ext (List.map_injective_iff.mpr (fun _ _ => UInt8.toNat_inj.mp) hmap)

def ulidMaxTime : Nat := 2 ^ 48

def idNumber (time random : Nat) : Nat := time * ulidRadix ^ 16+random

theorem idNumber_lt_iff {time random otherTime otherRandom : Nat} (hran : random < ulidRadix ^ 16)
    (hoth : otherRandom < ulidRadix ^ 16) :
    idNumber time random < idNumber otherTime otherRandom ↔ time < otherTime ∨ time=otherTime ∧ random < otherRandom := by
  unfold idNumber
  simp only [ulidRadix,ulidBitsPerChar] at hran hoth ⊢
  omega

theorem encodeUlid_eq (time : Fin ulidMaxTime) (draw : UlidDraw) :
    ∃ id : String, encodeUlid time draw.val=.ok id ∧ Spells id.toList 26 (idNumber time (randomValue draw.val)) := by
  obtain ⟨written,heq,hspe⟩ := timeChars_spells time ulidTimeChars []
  have hlt : (time : Nat) < 2 ^ 48 := time.isLt
  have hin : ¬ ((time : Int) < 0 ∨ ulidMaxTimestampMs < (time : Int)) := by
    simp only [ulidMaxTimestampMs]
    omega
  have hmod : (time : Nat) % ulidRadix ^ ulidTimeChars=time := by
    apply Nat.mod_eq_of_lt
    simp only [ulidRadix,ulidBitsPerChar,ulidTimeChars]
    omega
  rw [List.append_nil] at heq
  rw [hmod] at hspe
  refine ⟨String.ofList (written++randomChars draw.val),?_,?_⟩
  · unfold encodeUlid
    rw [if_neg hin,Int.toNat_natCast,heq]
  · rw [String.toList_ofList]
    exact hspe.append (randomChars_spells draw)

variable {id : String} {random : List UInt8}

theorem encodeUlid_ok {timestampMs : Int}
    (h : encodeUlid timestampMs random=.ok id) : ∃ time : Fin ulidMaxTime, timestampMs=(time : Nat) := by
  unfold encodeUlid at h
  split at h
  · cases h
  case isFalse hin =>
    simp only [ulidMaxTimestampMs,not_or,not_lt] at hin
    refine ⟨⟨timestampMs.toNat,?_⟩,?_⟩
    · simp only [ulidMaxTime]
      omega
    · exact (Int.toNat_of_nonneg hin.1).symm

theorem incrementFrom_eq {next : List UInt8} {i : Nat} (hi : i ≤ next.length)
    (h : incrementFrom next i=.ok random) :
    random.length=next.length ∧
      randomValue random=randomValue next+(2 ^ bitsPerByte) ^ (next.length - i) := by
  induction i generalizing next with
  | zero => cases h
  | succ i ih =>
    have hset : ∀ byte : UInt8, randomValue (next.set i byte) +
        (next.getD i 0).toNat * (2 ^ bitsPerByte) ^ (next.length - (i+1)) =
          randomValue next+byte.toNat * (2 ^ bitsPerByte) ^ (next.length - (i+1)) := by
      intro byte
      have hind : i < (next.map UInt8.toNat).length := by
        rw [List.length_map]
        exact hi
      have hval := @value_set (2 ^ bitsPerByte) (next.map UInt8.toNat) i hind byte.toNat
      rw [← List.map_set,List.length_map,List.getElem_map] at hval
      rwa [List.getD_eq_getElem?_getD,List.getElem?_eq_getElem hi,Option.getD_some]
    have hste : next.length - i=next.length - (i+1)+1 := by omega
    unfold incrementFrom at h
    by_cases hcar : next.getD i 0+1≠0
    · rw [if_pos hcar] at h
      cases h
      have hbyt : (next.getD i 0+1).toNat=(next.getD i 0).toNat+1 := by
        have hlt := (next.getD i 0).toNat_lt
        have hne : (next.getD i 0+1).toNat≠0 := fun h0 => hcar (UInt8.toNat_inj.mp h0)
        rw [UInt8.toNat_add] at hne ⊢
        simp only [UInt8.toNat_one] at hne ⊢
        omega
      have hval := hset (next.getD i 0+1)
      rw [hbyt,Nat.succ_mul] at hval
      exact ⟨List.length_set,by omega⟩
    · rw [if_neg hcar] at h
      have hzer : (next.getD i 0).toNat=2 ^ bitsPerByte - 1 := by
        have h0 := congrArg UInt8.toNat (not_not.mp hcar)
        rw [UInt8.toNat_add] at h0
        simp only [UInt8.toNat_one,UInt8.toNat_zero] at h0
        simp only [bitsPerByte]
        have hlt := (next.getD i 0).toNat_lt
        omega
      have hres := ih (by rw [List.length_set]; omega) h
      rw [List.length_set] at hres
      have hval := hset 0
      rw [hzer,UInt8.toNat_zero,Nat.zero_mul] at hval
      refine ⟨hres.1,?_⟩
      rw [hres.2,hste,pow_succ]
      generalize (2 ^ bitsPerByte) ^ (next.length - (i+1))=weight at hval ⊢
      simp only [bitsPerByte] at hval ⊢
      omega

theorem incrementUlidRandom_eq {previous : List UInt8} (h : incrementUlidRandom previous=.ok random) :
    random.length=previous.length ∧ randomValue random=randomValue previous+1 := by
  have heq := incrementFrom_eq (Nat.le_refl previous.length) h
  rwa [Nat.sub_self,pow_zero] at heq

def LastUlid.Later (last next : LastUlid) : Prop :=
  last.timestampMs < next.timestampMs ∨
    last.timestampMs=next.timestampMs ∧ randomValue last.random < randomValue next.random

variable {next last : LastUlid}

theorem nextUlid_length {previous : Option LastUlid} {nowMs : Int} {draw : UlidDraw}
    (hpre : ∀ last∈previous, last.random.length=ulidRandomBytes)
    (h : nextUlid previous nowMs draw=.ok next) : next.random.length=ulidRandomBytes := by
  unfold nextUlid at h
  split at h
  · cases h
    exact draw.property
  case h_2 last =>
    split at h
    · cases hran : incrementUlidRandom last.random with
      | error err =>
        rw [hran] at h
        cases h
      | ok random =>
        rw [hran] at h
        cases h
        exact (incrementUlidRandom_eq hran).1.trans (hpre last rfl)
    · cases h
      exact draw.property

theorem nextUlid_later {nowMs : Int} {draw : UlidDraw}
    (h : nextUlid (some last) nowMs draw=.ok next) : last.Later next := by
  unfold nextUlid at h
  dsimp only at h
  by_cases hle : nowMs ≤ last.timestampMs
  · rw [if_pos hle] at h
    cases hran : incrementUlidRandom last.random with
    | error err =>
      rw [hran] at h
      cases h
    | ok random =>
      rw [hran] at h
      cases h
      have hval := (incrementUlidRandom_eq hran).2
      refine .inr ⟨rfl,?_⟩
      dsimp only
      omega
  · rw [if_neg hle] at h
    cases h
    exact .inl (not_le.mp hle)

def UpTo (id : String) (last : LastUlid) : Prop :=
  ∃ (time : Fin ulidMaxTime) (draw : UlidDraw), Spells id.toList 26 (idNumber time (randomValue draw.val)) ∧
    (((time : Nat) : Int) < last.timestampMs ∨
      ((time : Nat) : Int)=last.timestampMs ∧ randomValue draw.val ≤ randomValue last.random)

theorem UpTo.length_eq (h : UpTo id last) : id.length=26 := by
  obtain ⟨time,draw,hspe,-⟩ := h
  rw [← String.length_toList]
  exact hspe.length_eq

theorem UpTo.later (h : UpTo id last) (hlat : last.Later next) :
    UpTo id next := by
  obtain ⟨time,draw,hspe,hle⟩ := h
  refine ⟨time,draw,hspe,?_⟩
  unfold LastUlid.Later at hlat
  omega

theorem upTo_self (hlen : next.random.length=ulidRandomBytes)
    (h : encodeUlid next.timestampMs next.random=.ok id) : UpTo id next := by
  obtain ⟨time,htim⟩ := encodeUlid_ok h
  obtain ⟨id',heq,hspe⟩ := encodeUlid_eq time ⟨next.random,hlen⟩
  rw [htim,heq] at h
  cases h
  exact ⟨time,⟨next.random,hlen⟩,hspe,.inr ⟨htim.symm,Nat.le_refl _⟩⟩

theorem UpTo.lt {newer : String} (h : UpTo id last) (hlat : last.Later next)
    (hlen : next.random.length=ulidRandomBytes) (hnew : encodeUlid next.timestampMs next.random=.ok newer) :
    id < newer := by
  obtain ⟨time,draw,hspe,hle⟩ := h
  obtain ⟨newTime,hnee⟩ := encodeUlid_ok hnew
  obtain ⟨id',heq,hnes⟩ := encodeUlid_eq newTime ⟨next.random,hlen⟩
  rw [hnee,heq] at hnew
  cases hnew
  unfold LastUlid.Later at hlat
  rw [String.lt_iff_toList_lt,hspe.lt_iff hnes,
    idNumber_lt_iff (randomValue_lt draw) (randomValue_lt ⟨next.random,hlen⟩)]
  dsimp only
  omega

theorem idsOf_step (call : EventIdCall) (emitterNode : String) :
    (run.step call).idsOf emitterNode=run.idsOf emitterNode ++
      match (generateEventId run.last call).1 with
      | .ok id => if call.emitterNode=emitterNode then [id] else []
      | .error _ => [] := by
  simp only [EventIdRun.step,EventIdRun.idsOf,List.filter_append,List.map_append]
  congr 1
  cases (generateEventId run.last call).1 with
  | error err => rfl
  | ok id => by_cases h : call.emitterNode=emitterNode <;> simp [h]

structure InOrder (last : Option LastUlid) (ids : List String) : Prop where
  length_eq : ∀ l∈last, l.random.length=ulidRandomBytes
  upTo : ∀ id∈ids, ∃ l∈last, UpTo id l
  pairwise : ids.Pairwise (· < ·)

theorem inOrder_step {run : EventIdRun} {call : EventIdCall} {emitterNode : String}
    (h : InOrder (run.last.get emitterNode) (run.idsOf emitterNode)) :
    InOrder ((run.step call).last.get emitterNode) ((run.step call).idsOf emitterNode) := by
  rw [idsOf_step]
  simp only [EventIdRun.step,generateEventId]
  cases hnex : nextUlid (run.last.get call.emitterNode) call.nowMs call.draw with
  | error err =>
    rw [List.append_nil]
    exact h
  | ok next =>
    dsimp only
    rw [OrderedMap.get_set]
    by_cases hemi : emitterNode=call.emitterNode
    · subst hemi
      have hlen := nextUlid_length h.length_eq hnex
      -- every id so far is up to the pair before this one
      have hbef : ∀ id∈run.idsOf call.emitterNode, ∃ l, UpTo id l ∧ l.Later next := by
        intro id hid
        obtain ⟨l,hl,hupT⟩ := h.upTo id hid
        rw [Option.mem_def.mp hl] at hnex
        exact ⟨l,hupT,nextUlid_later hnex⟩
      have hold : ∀ id∈run.idsOf call.emitterNode, ∃ l∈some next, UpTo id l := by
        intro id hid
        obtain ⟨l,hupT,hlat⟩ := hbef id hid
        exact ⟨next,rfl,hupT.later hlat⟩
      have hlas : ∀ l∈some next, l.random.length=ulidRandomBytes := by
        intro l hl
        cases hl
        exact hlen
      rw [if_pos rfl]
      cases henc : encodeUlid next.timestampMs next.random with
      | error err =>
        simp only [List.append_nil]
        exact ⟨hlas,hold,h.pairwise⟩
      | ok id =>
        simp only [if_true]
        refine ⟨hlas,?_,?_⟩
        · intro other hoth
          rcases List.mem_append.mp hoth with hoth | hoth
          · exact hold other hoth
          · rw [List.mem_singleton.mp hoth]
            exact ⟨next,rfl,upTo_self hlen henc⟩
        · rw [List.pairwise_append]
          refine ⟨h.pairwise,List.pairwise_singleton _ _,?_⟩
          intro other hoth newer hnew
          rw [List.mem_singleton.mp hnew]
          obtain ⟨l,hupT,hlat⟩ := hbef other hoth
          exact hupT.lt hlat hlen henc
    · rw [if_neg hemi]
      have hids : (match encodeUlid next.timestampMs next.random with
          | .ok id => if call.emitterNode=emitterNode then [id] else []
          | .error _ => [])=[] := by
        cases encodeUlid next.timestampMs next.random with
        | error err => rfl
        | ok id => exact if_neg fun heq => hemi heq.symm
      rw [hids,List.append_nil]
      exact h

theorem inOrder_run (calls : List EventIdCall) (emitterNode : String) :
    InOrder ((eventIdRun calls).last.get emitterNode) ((eventIdRun calls).idsOf emitterNode) := by
  induction calls using List.reverseRecOn with
  | nil => exact ⟨by simp [eventIdRun,OrderedMap.get,OrderedMap.empty],by simp [eventIdRun,EventIdRun.idsOf],.nil⟩
  | append_singleton calls call ih =>
    rw [eventIdRun,List.foldl_append]
    exact inOrder_step ih

/-- Whatever the clock says and whatever is drawn, the ids returned for one emitter are 26 letters long and strictly
increasing; and over 48-bit times and 80-bit values an id determines its pair and sorts as the pair does. -/
theorem event_ids_increase :
    (∀ (calls : List EventIdCall) (emitterNode : String),
      ((eventIdRun calls).idsOf emitterNode).Pairwise (· < ·) ∧
        ∀ id∈(eventIdRun calls).idsOf emitterNode, id.length=26) ∧
      ∀ (time otherTime : Fin ulidMaxTime) (draw otherDraw : UlidDraw), ∃ id other : String,
        encodeUlid time draw.val=.ok id ∧ encodeUlid otherTime otherDraw.val=.ok other ∧
          (id=other ↔ time=otherTime ∧ draw=otherDraw) ∧
          (id < other ↔ time < otherTime ∨ time=otherTime ∧ randomValue draw.val < randomValue otherDraw.val) := by
  refine ⟨?_,?_⟩
  · intro calls emitterNode
    have hrun := inOrder_run calls emitterNode
    refine ⟨hrun.pairwise,?_⟩
    intro id hid
    obtain ⟨l,-,hupT⟩ := hrun.upTo id hid
    exact hupT.length_eq
  · intro time otherTime draw otherDraw
    obtain ⟨id,heq,hspe⟩ := encodeUlid_eq time draw
    obtain ⟨other,hoth,hothe⟩ := encodeUlid_eq otherTime otherDraw
    have hlt := randomValue_lt draw
    have hott := randomValue_lt otherDraw
    refine ⟨id,other,heq,hoth,⟨?_,?_⟩,?_⟩
    · intro h
      rw [h] at hspe
      have hnum := hspe.number_eq hothe
      have hfor := @idNumber_lt_iff time _ otherTime _ hlt hott
      have hbac := @idNumber_lt_iff otherTime _ time _ hott hlt
      have htim : (time : Nat)=otherTime := by omega
      have hran : randomValue draw.val=randomValue otherDraw.val := by omega
      exact ⟨Fin.ext htim,randomValue_injective draw otherDraw hran⟩
    · rintro ⟨rfl,rfl⟩
      rw [heq] at hoth
      exact Except.ok.inj hoth
    · rw [String.lt_iff_toList_lt,hspe.lt_iff hothe,idNumber_lt_iff hlt hott,Fin.lt_def,Fin.ext_iff]

end CastleWall.Mesh
