import CastleWall.Support.JsonText
import CastleWall.Support.Lines

/-! # Names derived from agent ids

`encode_agent_component` of the daemon's `identity.rs`. A byte that a unit or chain name may not hold is written as
`_xHH_`, and an id that already reads so is kept as it is: the two meet in one name. -/

namespace CastleWall.Policy.AgentComponent

open Text

def isComponentByte (b : UInt8) : Bool :=
  (65 ≤ b && b ≤ 90) || (97 ≤ b && b ≤ 122) || (48 ≤ b && b ≤ 57) || b == 95 || b == 45 || b == 46

def hexByte (b : UInt8) : List Char := [Json.hexChar (b.toNat / 16),Json.hexChar (b.toNat % 16)]

def encodeByte (b : UInt8) : List Char :=
  if isComponentByte b then [Char.ofNat b.toNat] else ['_','x']++hexByte b++['_']

def encodeAgentIdBytes (agentId : String) : List Char :=
  if utf8Bytes agentId=[] then ['_','x','0','0','_'] else (utf8Bytes agentId).flatMap encodeByte

/-- The bytes of a text, as `len` counts them. -/
def len (text : List Char) : Nat := (text.map Char.utf8Size).sum

def pushWithin (budget : Nat) (pushed : List Char) : List Char → List Char
  | [] => pushed
  | ch::rest => if budget < len pushed+ch.utf8Size then pushed else pushWithin budget (pushed++[ch]) rest

def hashMark : List Char := ['-','h']

def hashHexLen : Nat := 64

def suffixLen : Nat := len hashMark+hashHexLen

section Component

variable (sha256 : List UInt8 → Vector UInt8 32)

def sha256Hex (bytes : List UInt8) : List Char := (sha256 bytes).toList.flatMap hexByte

/-- `none` where the slice of the hash panics. -/
def encodeAgentComponent (agentId : String) (maxLen : Nat) : Option (List Char) :=
  let encoded := encodeAgentIdBytes agentId
  if len encoded ≤ maxLen then some encoded
  else
    let hash := sha256Hex sha256 (utf8Bytes agentId)
    if maxLen ≤ suffixLen then
      if maxLen ≤ len hash then some (hash.take maxLen) else none
    else some (pushWithin (maxLen - suffixLen) [] encoded++hashMark++hash)

def IsComponentChar (c : Char) : Prop := c.isAlphanum=true ∨ c = '_' ∨ c = '-' ∨ c = '.'

def NamesApart (maxLen : Nat) (agentId agentId' : String) : Prop :=
  ∃ name name', encodeAgentComponent sha256 agentId maxLen=some name ∧
    encodeAgentComponent sha256 agentId' maxLen=some name' ∧ name≠name' ∧
    (len name ≤ maxLen ∧ ∀ c∈name, IsComponentChar c) ∧ len name' ≤ maxLen ∧ ∀ c∈name', IsComponentChar c

end Component

def idBytes (agentId : String) : List UInt8 := if utf8Bytes agentId=[] then [0] else utf8Bytes agentId

/-- A byte that no name may hold takes five characters. -/
def spelledLength (agentId : String) : Nat := ((idBytes agentId).map fun b => if isComponentByte b then 1 else 5).sum

def asBytes (text : List Char) : List UInt8 := text.map fun c => UInt8.ofNat c.toNat

/-- One byte that no name may hold is replaced by its escape. -/
def Escaped (bytes bytes' : List UInt8) : Prop :=
  ∃ before b after, isComponentByte b=false ∧ bytes=before++b::after ∧
    bytes'=before++asBytes (encodeByte b)++after

def Respelled : List UInt8 → List UInt8 → Prop := Relation.EqvGen Escaped

def markedText (sha256 : List UInt8 → Vector UInt8 32) (maxLen : Nat) (agentId : String) : List Char :=
  ((idBytes agentId).flatMap encodeByte).take (maxLen - suffixLen)++hashMark++sha256Hex sha256 (utf8Bytes agentId)

/-- An id that fits reads as the cut text of one that does not, the mark and the hash of that one. -/
def Impersonates (sha256 : List UInt8 → Vector UInt8 32) (maxLen : Nat) (agentId long : String) : Prop :=
  spelledLength agentId ≤ maxLen ∧ maxLen < spelledLength long ∧
    Respelled (idBytes agentId) (asBytes (markedText sha256 maxLen long))

def Confusable (sha256 : List UInt8 → Vector UInt8 32) (maxLen : Nat) (agentId agentId' : String) : Prop :=
  (spelledLength agentId ≤ maxLen ∧ spelledLength agentId' ≤ maxLen ∧ Respelled (idBytes agentId) (idBytes agentId')) ∨
    Impersonates sha256 maxLen agentId agentId' ∨ Impersonates sha256 maxLen agentId' agentId

theorem forall_byte {p : UInt8 → Prop} (h : ∀ n : Fin 256, p (UInt8.ofNat n)) (b : UInt8) : p b := by
  have hb := h ⟨b.toNat,b.toNat_lt⟩
  rwa [UInt8.ofNat_toNat] at hb

def isComponentChar (c : Char) : Bool := c.isAlphanum || c == '_' || c == '-' || c == '.'

variable {c : Char}

theorem isComponentChar_iff : isComponentChar c=true ↔ IsComponentChar c := by
  simp [isComponentChar,IsComponentChar,or_assoc]

theorem encodeByte_facts (b : UInt8) :
    (encodeByte b).all isComponentChar=true ∧ (hexByte b).all isComponentChar=true ∧
      (encodeByte b).length=(if isComponentByte b then 1 else 5) ∧
      (asBytes (encodeByte b)).flatMap encodeByte=encodeByte b ∧
      (isComponentByte b=true → asBytes (encodeByte b)=[b]) := by
  revert b
  apply forall_byte
  decide +kernel

theorem ascii_of_component (h : isComponentChar c=true) : c.toNat < 128 := by
  rcases isComponentChar_iff.mp h with h | rfl | rfl | rfl
  · delta Char.isAlphanum Char.isAlpha Char.isUpper Char.isLower Char.isDigit at h
    simp only [Bool.or_eq_true,Bool.and_eq_true,decide_eq_true_eq,ge_iff_le,UInt32.le_iff_toNat_le] at h
    have hz : 'Z'.val.toNat=90 := rfl
    have hz' : 'z'.val.toNat=122 := rfl
    have hnin : '9'.val.toNat=57 := rfl
    have hval : c.toNat=c.val.toNat := rfl
    omega
  · decide
  · decide
  · decide

theorem component_facts (h : isComponentChar c=true) :
    c.utf8Size=1 ∧ encodeByte (UInt8.ofNat c.toNat)=[c] := by
  have hall : ∀ n : Fin 128, isComponentChar (Char.ofNat n)=true →
      (Char.ofNat n).utf8Size=1 ∧ encodeByte (UInt8.ofNat n)=[Char.ofNat n] := by
    decide +kernel
  have hc := hall ⟨c.toNat,ascii_of_component h⟩
  simp only [Char.ofNat_toNat] at hc
  exact hc h

section Text

variable {text : List Char}

theorem len_of_component (h : text.all isComponentChar=true) : len text=text.length := by
  have hsiz : ∀ c∈text, c.utf8Size=1 := fun c hc => (component_facts (List.all_eq_true.mp h c hc)).1
  rw [len,List.map_congr_left hsiz,List.map_const',List.sum_replicate_nat,mul_one]

theorem spell_asBytes (h : text.all isComponentChar=true) : (asBytes text).flatMap encodeByte=text := by
  induction text with
  | nil => rfl
  | cons c text ih =>
    rw [List.all_cons,Bool.and_eq_true] at h
    change encodeByte (UInt8.ofNat c.toNat)++(asBytes text).flatMap encodeByte=_
    rw [(component_facts h.1).2,ih h.2]
    rfl

theorem pushWithin_eq {budget : Nat} (htex : text.all isComponentChar=true) {pushed : List Char}
    (hpus : pushed.all isComponentChar=true) (h : pushed.length ≤ budget) :
    pushWithin budget pushed text=pushed++text.take (budget - pushed.length) := by
  induction text generalizing pushed with
  | nil => rw [pushWithin,List.take_nil,List.append_nil]
  | cons c text ih =>
    rw [List.all_cons,Bool.and_eq_true] at htex
    rw [pushWithin,len_of_component hpus,(component_facts htex.1).1]
    split_ifs with hful
    · rw [show budget - pushed.length=0 by omega,List.take_zero,List.append_nil]
    · have hnex : (pushed++[c]).all isComponentChar=true := by
        rw [List.all_append,hpus,List.all_cons,htex.1,List.all_nil]
        rfl
      have hlen : (pushed++[c]).length=pushed.length+1 := by simp
      rw [ih htex.2 hnex (by omega),hlen,List.append_assoc,
        show budget - pushed.length=(budget - (pushed.length+1))+1 by omega,List.take_succ_cons]
      rfl

end Text

theorem component_spell (bytes : List UInt8) : (bytes.flatMap encodeByte).all isComponentChar=true := by
  rw [List.all_flatMap,List.all_eq_true]
  exact fun b _ => (encodeByte_facts b).1

theorem encodeAgentIdBytes_eq (agentId : String) : encodeAgentIdBytes agentId=(idBytes agentId).flatMap encodeByte := by
  rw [encodeAgentIdBytes,idBytes]
  split_ifs
  · decide
  · rfl

theorem length_encodeAgentIdBytes (agentId : String) : (encodeAgentIdBytes agentId).length=spelledLength agentId := by
  rw [encodeAgentIdBytes_eq,List.length_flatMap,spelledLength]
  exact congrArg List.sum (List.map_congr_left fun b _ => (encodeByte_facts b).2.2.1)

theorem component_sha256Hex (sha256 : List UInt8 → Vector UInt8 32) (bytes : List UInt8) :
    (sha256Hex sha256 bytes).all isComponentChar=true ∧ (sha256Hex sha256 bytes).length=64 := by
  constructor
  · rw [sha256Hex,List.all_flatMap,List.all_eq_true]
    exact fun b _ => (encodeByte_facts b).2.1
  · rw [sha256Hex,List.length_flatMap]
    change ((sha256 bytes).toList.map fun _ => 2).sum=64
    rw [List.map_const',Vector.length_toList]
    rfl

variable {bytes bytes' : List UInt8}

theorem Escaped.append_left (h : Escaped bytes bytes') (front : List UInt8) :
    Escaped (front++bytes) (front++bytes') := by
  obtain ⟨before,b,after,hb,rfl,rfl⟩ := h
  exact ⟨front++before,b,after,hb,by simp only [List.append_assoc],by simp only [List.append_assoc]⟩

theorem Respelled.append_left (h : Respelled bytes bytes') (front : List UInt8) :
    Respelled (front++bytes) (front++bytes') := by
  induction h with
  | rel _ _ hste => exact .rel _ _ (hste.append_left front)
  | refl _ => exact .refl _
  | symm _ _ _ ih => exact .symm _ _ ih
  | trans _ _ _ _ _ ih ih' => exact .trans _ _ _ ih ih'

theorem respelled_spell (bytes : List UInt8) : Respelled bytes (asBytes (bytes.flatMap encodeByte)) := by
  induction bytes with
  | nil => exact .refl _
  | cons b bytes ih =>
    rw [List.flatMap_cons,asBytes,List.map_append]
    refine .trans _ (asBytes (encodeByte b)++bytes) _ ?_ (ih.append_left _)
    cases hb : isComponentByte b with
    | true =>
      rw [(encodeByte_facts b).2.2.2.2 hb]
      exact .refl _
    | false => exact .rel _ _ ⟨[],b,bytes,hb,rfl,rfl⟩

theorem respelled_iff :
    Respelled bytes bytes' ↔ bytes.flatMap encodeByte=bytes'.flatMap encodeByte := by
  constructor
  · intro h
    induction h with
    | rel _ _ hste =>
      obtain ⟨before,b,after,-,rfl,rfl⟩ := hste
      simp only [List.flatMap_append,List.flatMap_cons,(encodeByte_facts b).2.2.2.1,List.append_assoc]
    | refl _ => rfl
    | symm _ _ _ ih => exact ih.symm
    | trans _ _ _ _ _ ih ih' => exact ih.trans ih'
  · intro h
    exact .trans _ _ _ (respelled_spell bytes) (h ▸ (respelled_spell bytes').symm)

section Names

variable {sha256 : List UInt8 → Vector UInt8 32} {maxLen : Nat} {agentId agentId' : String}

theorem len_encodeAgentIdBytes (agentId : String) : len (encodeAgentIdBytes agentId)=spelledLength agentId := by
  rw [len_of_component (by rw [encodeAgentIdBytes_eq]; exact component_spell _),length_encodeAgentIdBytes]

theorem encodeAgentComponent_of_fits (h : spelledLength agentId ≤ maxLen) :
    encodeAgentComponent sha256 agentId maxLen=some ((idBytes agentId).flatMap encodeByte) := by
  rw [encodeAgentComponent,len_encodeAgentIdBytes,if_pos h,encodeAgentIdBytes_eq]

theorem encodeAgentComponent_of_long (h : maxLen < spelledLength agentId) (hmax : 66 < maxLen) :
    encodeAgentComponent sha256 agentId maxLen=some (markedText sha256 maxLen agentId) := by
  have hsuf : ¬maxLen ≤ suffixLen := Nat.not_le_of_lt hmax
  rw [encodeAgentComponent,len_encodeAgentIdBytes,if_neg (by omega)]
  simp only [if_neg hsuf]
  rw [encodeAgentIdBytes_eq,pushWithin_eq (component_spell _) rfl (Nat.zero_le _)]
  rfl

theorem encodeAgentComponent_panics (h : 66 < spelledLength agentId) :
    encodeAgentComponent sha256 agentId 66=none := by
  obtain ⟨hcom,hlen⟩ := component_sha256Hex sha256 (utf8Bytes agentId)
  have hsli : ¬66 ≤ len (sha256Hex sha256 (utf8Bytes agentId)) := by
    rw [len_of_component hcom,hlen]
    omega
  rw [encodeAgentComponent,len_encodeAgentIdBytes,if_neg (by omega)]
  simp only [if_pos (show 66 ≤ suffixLen by decide),if_neg hsli]

theorem component_markedText : (markedText sha256 maxLen agentId).all isComponentChar=true := by
  have hcut : (((idBytes agentId).flatMap encodeByte).take (maxLen - suffixLen)).all isComponentChar=true := by
    rw [List.all_eq_true]
    exact fun c hc => List.all_eq_true.mp (component_spell _) c (List.mem_of_mem_take hc)
  rw [markedText,List.all_append,List.all_append,hcut,(component_sha256Hex _ _).1]
  rfl

theorem length_markedText (h : maxLen < spelledLength agentId) (hmax : 66 < maxLen) :
    (markedText sha256 maxLen agentId).length=maxLen := by
  have hsuf : suffixLen=66 := rfl
  have hmar : hashMark.length=2 := rfl
  have hspe := length_encodeAgentIdBytes agentId
  rw [encodeAgentIdBytes_eq] at hspe
  rw [markedText,List.length_append,List.length_append,List.length_take,hspe,(component_sha256Hex _ _).2]
  omega

theorem encodeAgentComponent_fits (hmax : 66 ≤ maxLen) (hnam : maxLen=66 → spelledLength agentId ≤ 66) :
    ∃ name, encodeAgentComponent sha256 agentId maxLen=some name ∧ len name ≤ maxLen ∧
      ∀ c∈name, IsComponentChar c := by
  have hcha : ∀ {name : List Char}, name.all isComponentChar=true → ∀ c∈name, IsComponentChar c :=
    fun h c hc => isComponentChar_iff.mp (List.all_eq_true.mp h c hc)
  by_cases hfit : spelledLength agentId ≤ maxLen
  · refine ⟨_,encodeAgentComponent_of_fits hfit,?_,hcha (component_spell _)⟩
    rwa [← encodeAgentIdBytes_eq,len_encodeAgentIdBytes]
  · have hlon : 66 < maxLen := by
      rcases Nat.lt_or_eq_of_le hmax with h | h
      · exact h
      · have := hnam h.symm
        omega
    refine ⟨_,encodeAgentComponent_of_long (by omega) hlon,?_,hcha component_markedText⟩
    rw [len_of_component component_markedText,length_markedText (by omega) hlon]

theorem sha256_of_markedText (h : markedText sha256 maxLen agentId=markedText sha256 maxLen agentId') :
    sha256 (utf8Bytes agentId)=sha256 (utf8Bytes agentId') := by
  have hhex := (List.append_inj' h (by rw [(component_sha256Hex _ _).2,(component_sha256Hex _ _).2])).2
  exact Vector.toList_inj.mp (Json.hexPairs_injective hhex)

/-- Of two ids that fit, the names differ unless one respells the other. -/
theorem spell_ne_iff : (idBytes agentId).flatMap encodeByte≠(idBytes agentId').flatMap encodeByte ↔
    ¬Respelled (idBytes agentId) (idBytes agentId') := not_congr respelled_iff.symm

theorem spell_ne_markedText_iff : (idBytes agentId).flatMap encodeByte≠markedText sha256 maxLen agentId' ↔
    ¬Respelled (idBytes agentId) (asBytes (markedText sha256 maxLen agentId')) := by
  rw [respelled_iff,spell_asBytes component_markedText]

/-- Two different ids have different names that fit, exactly when neither is too long for a bound that only a hash
would fill, neither respells the other, and neither reads as the marked text of the other. -/
theorem agent_component_names_apart_iff (sha256 : List UInt8 → Vector UInt8 32) (maxLen : Nat)
    (agentId agentId' : String) (hmax : 66 ≤ maxLen) (hne : agentId≠agentId')
    (hfree : sha256 (utf8Bytes agentId)=sha256 (utf8Bytes agentId') → agentId=agentId') :
    NamesApart sha256 maxLen agentId agentId' ↔
      (maxLen=66 → spelledLength agentId ≤ 66 ∧ spelledLength agentId' ≤ 66) ∧
        ¬Confusable sha256 maxLen agentId agentId' := by
  by_cases hroo : maxLen=66 → spelledLength agentId ≤ 66 ∧ spelledLength agentId' ≤ 66
  · obtain ⟨name,hnam,hfis⟩ := @encodeAgentComponent_fits sha256 _ _ hmax fun h => (hroo h).1
    obtain ⟨name',hnam',hfis'⟩ := @encodeAgentComponent_fits sha256 _ _ hmax fun h => (hroo h).2
    have hapa : NamesApart sha256 maxLen agentId agentId' ↔ name≠name' := by
      constructor
      · rintro ⟨x,y,hx,hy,hxy,-⟩
        rw [hnam,Option.some.injEq] at hx
        rw [hnam',Option.some.injEq] at hy
        rwa [hx,hy]
      · exact fun h => ⟨name,name',hnam,hnam',h,hfis,hfis'⟩
    have hlon : maxLen < spelledLength agentId ∨ maxLen < spelledLength agentId' → 66 < maxLen := by
      intro h
      rcases Nat.lt_or_eq_of_le hmax with hlt | heq
      · exact hlt
      · have := hroo heq.symm
        omega
    rw [hapa,and_iff_right hroo]
    by_cases hfit : spelledLength agentId ≤ maxLen <;> by_cases hfit' : spelledLength agentId' ≤ maxLen
    · rw [encodeAgentComponent_of_fits hfit,Option.some.injEq] at hnam
      rw [encodeAgentComponent_of_fits hfit',Option.some.injEq] at hnam'
      rw [← hnam,← hnam',spell_ne_iff,Confusable,Impersonates,Impersonates]
      simp only [hfit,hfit',true_and,Nat.not_lt.mpr hfit,Nat.not_lt.mpr hfit',false_and,or_false]
    · have hove : maxLen < spelledLength agentId' := by omega
      rw [encodeAgentComponent_of_fits hfit,Option.some.injEq] at hnam
      rw [encodeAgentComponent_of_long hove (hlon (.inr hove)),Option.some.injEq] at hnam'
      rw [← hnam,← hnam',spell_ne_markedText_iff,Confusable,Impersonates,Impersonates]
      simp only [hfit,hfit',hove,true_and,false_and,and_false,or_false,false_or]
    · have hove : maxLen < spelledLength agentId := by omega
      rw [encodeAgentComponent_of_long hove (hlon (.inl hove)),Option.some.injEq] at hnam
      rw [encodeAgentComponent_of_fits hfit',Option.some.injEq] at hnam'
      rw [← hnam,← hnam',ne_comm,spell_ne_markedText_iff,Confusable,Impersonates,Impersonates]
      simp only [hfit,hfit',hove,true_and,false_and,false_or]
    · have hove : maxLen < spelledLength agentId := by omega
      have hove' : maxLen < spelledLength agentId' := by omega
      rw [encodeAgentComponent_of_long hove (hlon (.inl hove)),Option.some.injEq] at hnam
      rw [encodeAgentComponent_of_long hove' (hlon (.inr hove')),Option.some.injEq] at hnam'
      refine iff_of_true (fun heq => ?_) ?_
      · rw [← hnam,← hnam'] at heq
        exact hne (hfree (sha256_of_markedText heq))
      · rw [Confusable,Impersonates,Impersonates]
        simp only [hfit,hfit',false_and,or_self,not_false_eq_true]
  · refine iff_of_false ?_ fun h => hroo h.1
    rintro ⟨x,y,hx,hy,-⟩
    refine hroo fun hma6 => ?_
    subst hma6
    constructor
    · by_contra hove
      rw [encodeAgentComponent_panics (by omega)] at hx
      cases hx
    · by_contra hove
      rw [encodeAgentComponent_panics (by omega)] at hy
      cases hy

end Names

def sampleSha (bytes : List UInt8) : Vector UInt8 32 := Vector.replicate 32 (bytes.headD 0)

theorem agent_component_names_apart_letters : NamesApart sampleSha 250 "a" "b" := by
  refine (agent_component_names_apart_iff sampleSha 250 "a" "b" (by decide) (by decide)
    fun h => absurd h (by decide)).mpr ⟨nofun,?_⟩
  rintro (⟨-,-,h⟩ | ⟨-,h,-⟩ | ⟨-,h,-⟩)
  · exact absurd (respelled_iff.mp h) (by decide)
  · exact absurd h (by decide)
  · exact absurd h (by decide)

theorem space_and_its_escape_meet :
    (" " ≠ "_x20_" ∧ sampleSha (utf8Bytes " ")≠sampleSha (utf8Bytes "_x20_")) ∧
      ¬NamesApart sampleSha 250 " " "_x20_" := by
  refine ⟨by decide,?_⟩
  rintro ⟨x,y,hx,hy,hne,-⟩
  rw [encodeAgentComponent_of_fits (by decide),Option.some.injEq] at hx hy
  rw [← hx,← hy] at hne
  exact hne (by decide)

end CastleWall.Policy.AgentComponent
