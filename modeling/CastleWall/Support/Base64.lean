import Mathlib.Data.List.Basic

/-! # Base64

The unpadded URL-safe encoding, the padded standard one, and the forgiving decoder browsers and Node
call `atob`. -/

namespace CastleWall.Base64

def standardAlphabet : List Char :=
  "ABCDEFGHIJKLMNOPQRSTUVWXYZabcdefghijklmnopqrstuvwxyz0123456789+/".toList

def urlAlphabet : List Char :=
  "ABCDEFGHIJKLMNOPQRSTUVWXYZabcdefghijklmnopqrstuvwxyz0123456789-_".toList

def urlChar (n : Nat) : Char := urlAlphabet.getD n 'A'

variable (c : Char)

def sextet : Option Nat := standardAlphabet.findIdx? (· == c)

def encodeUrl : List UInt8 → List Char
  | [] => []
  | [a] => [urlChar (a.toNat / 4),urlChar (a.toNat % 4 * 16)]
  | [a,b] =>
    [urlChar (a.toNat / 4),urlChar (a.toNat % 4 * 16+b.toNat / 16),urlChar (b.toNat % 16 * 4)]
  | a::b::c::rest =>
    urlChar (a.toNat / 4)::urlChar (a.toNat % 4 * 16+b.toNat / 16) ::
      urlChar (b.toNat % 16 * 4+c.toNat / 64)::urlChar (c.toNat % 64)::encodeUrl rest

/-- Four sextets make three bytes; the spare bits of a shorter last group are dropped. -/
def decodeSextets : List Nat → List UInt8
  | a::b::c::d::rest =>
    UInt8.ofNat (a * 4+b / 16)::UInt8.ofNat (b % 16 * 16+c / 4) ::
      UInt8.ofNat (c % 4 * 64+d)::decodeSextets rest
  | [a,b,c] => [UInt8.ofNat (a * 4+b / 16),UInt8.ofNat (b % 16 * 16+c / 4)]
  | [a,b] => [UInt8.ofNat (a * 4+b / 16)]
  | _ => []

def isAsciiWhitespace : Bool :=
  c.toNat == 9 || c.toNat == 10 || c.toNat == 12 || c.toNat == 13 || c.toNat == 32

variable (cs : List Char)

def dropPadding : List Char :=
  match cs.reverse with
  | '=' :: '=' :: rest => rest.reverse
  | '=' :: rest => rest.reverse
  | _ => cs

/-- `none` when the decoder throws. -/
def atob : Option (List UInt8) :=
  let data := cs.filter fun c => !isAsciiWhitespace c
  let data := if data.length % 4=0 then dropPadding data else data
  if data.length % 4=1 then none else (data.mapM sextet).map decodeSextets

def standardOfUrl : Char := if c = '-' then '+' else if c = '_' then '/' else c

variable (bytes : List UInt8)

def encodeStandard : List Char :=
  (encodeUrl bytes).map standardOfUrl++List.replicate ((4 - (encodeUrl bytes).length % 4) % 4) '='

def urlChars : List Char :=
  ['A','B','C','D','E','F','G','H','I','J','K','L','M','N','O','P','Q','R','S','T','U','V','W',
    'X','Y','Z','a','b','c','d','e','f','g','h','i','j','k','l','m','n','o','p','q','r','s',
    't','u','v','w','x','y','z','0','1','2','3','4','5','6','7','8','9','-','_']

def standardChars : List Char :=
  ['A','B','C','D','E','F','G','H','I','J','K','L','M','N','O','P','Q','R','S','T','U','V','W',
    'X','Y','Z','a','b','c','d','e','f','g','h','i','j','k','l','m','n','o','p','q','r','s',
    't','u','v','w','x','y','z','0','1','2','3','4','5','6','7','8','9','+','/']

theorem urlAlphabet_eq : urlAlphabet=urlChars := String.toList_ofList

theorem standardAlphabet_eq : standardAlphabet=standardChars := String.toList_ofList

theorem sextet_eq : sextet c=standardChars.findIdx? (· == c) := by rw [sextet,standardAlphabet_eq]

variable {n : Nat}

theorem sextet_urlChar (h : n < 64) : sextet (standardOfUrl (urlChar n))=some n := by
  have hall : ∀ i : Fin 64, sextet (standardOfUrl (urlChar i.val))=some i.val := by
    simp only [urlChar,urlAlphabet_eq,sextet_eq]
    decide +kernel
  exact hall ⟨n,h⟩

theorem forall_urlChar {p : Char → Prop} [DecidablePred p] (h : urlChars.all (fun c => p c)=true)
    (hn : n < 64) : p (urlChar n) := by
  apply of_decide_eq_true
  apply List.all_eq_true.mp h
  have hlen : n < urlChars.length := hn
  rw [urlChar,urlAlphabet_eq,List.getD_eq_getElem?_getD,List.getElem?_eq_getElem hlen]
  exact List.getElem_mem hlen

theorem forall_encodeUrl {p : Char → Prop} [DecidablePred p] (h : urlChars.all (fun c => p c)=true) (bytes : List UInt8) :
    ∀ c∈encodeUrl bytes, p c := by
  induction bytes using encodeUrl.induct with
  | case1 => simp [encodeUrl]
  | case2 a =>
    have ha := a.toNat_lt
    simp only [encodeUrl,List.mem_cons,List.not_mem_nil,or_false]
    rintro c (rfl | rfl)
    · exact forall_urlChar h (by omega)
    · exact forall_urlChar h (by omega)
  | case3 a b =>
    have ha := a.toNat_lt
    have hb := b.toNat_lt
    simp only [encodeUrl,List.mem_cons,List.not_mem_nil,or_false]
    rintro c (rfl | rfl | rfl)
    · exact forall_urlChar h (by omega)
    · exact forall_urlChar h (by omega)
    · exact forall_urlChar h (by omega)
  | case4 a b c rest ih =>
    have ha := a.toNat_lt
    have hb := b.toNat_lt
    have hc := c.toNat_lt
    simp only [encodeUrl,List.mem_cons]
    rintro x (rfl | rfl | rfl | rfl | hx)
    · exact forall_urlChar h (by omega)
    · exact forall_urlChar h (by omega)
    · exact forall_urlChar h (by omega)
    · exact forall_urlChar h (by omega)
    · exact ih x hx

private theorem ofNat_of_eq {b : UInt8} (h : n=b.toNat) : UInt8.ofNat n=b := by
  rw [h]
  exact UInt8.ofNat_toNat

theorem mapM_sextet_encodeUrl :
    ∃ sextets, ((encodeUrl bytes).map standardOfUrl).mapM sextet=some sextets ∧
      decodeSextets sextets=bytes := by
  induction bytes using encodeUrl.induct with
  | case1 => exact ⟨[],rfl,rfl⟩
  | case2 a =>
    have ha := a.toNat_lt
    refine ⟨[a.toNat / 4,a.toNat % 4 * 16],?_,?_⟩
    · simp [encodeUrl,sextet_urlChar (show a.toNat / 4 < 64 by omega),
        sextet_urlChar (show a.toNat % 4 * 16 < 64 by omega)]
    · simp only [decodeSextets]
      rw [ofNat_of_eq (show a.toNat / 4 * 4+a.toNat % 4 * 16 / 16=a.toNat by omega)]
  | case3 a b =>
    have ha := a.toNat_lt
    have hb := b.toNat_lt
    refine ⟨[a.toNat / 4,a.toNat % 4 * 16+b.toNat / 16,b.toNat % 16 * 4],?_,?_⟩
    · simp [encodeUrl,sextet_urlChar (show a.toNat / 4 < 64 by omega),
        sextet_urlChar (show a.toNat % 4 * 16+b.toNat / 16 < 64 by omega),
        sextet_urlChar (show b.toNat % 16 * 4 < 64 by omega)]
    · simp only [decodeSextets]
      rw [ofNat_of_eq (show a.toNat / 4 * 4+(a.toNat % 4 * 16+b.toNat / 16) / 16=a.toNat by omega),
        ofNat_of_eq (show (a.toNat % 4 * 16+b.toNat / 16) % 16 * 16+b.toNat % 16 * 4 / 4=b.toNat by
          omega)]
  | case4 a b c rest ih =>
    have ha := a.toNat_lt
    have hb := b.toNat_lt
    have hc := c.toNat_lt
    obtain ⟨sextets,hmap,hjoi⟩ := ih
    refine ⟨a.toNat / 4::(a.toNat % 4 * 16+b.toNat / 16)::(b.toNat % 16 * 4+c.toNat / 64) ::
      (c.toNat % 64)::sextets,?_,?_⟩
    · simp [encodeUrl,sextet_urlChar (show a.toNat / 4 < 64 by omega),
        sextet_urlChar (show a.toNat % 4 * 16+b.toNat / 16 < 64 by omega),
        sextet_urlChar (show b.toNat % 16 * 4+c.toNat / 64 < 64 by omega),
        sextet_urlChar (show c.toNat % 64 < 64 by omega),hmap]
    · simp only [decodeSextets,hjoi]
      rw [ofNat_of_eq (show a.toNat / 4 * 4+(a.toNat % 4 * 16+b.toNat / 16) / 16=a.toNat by omega),
        ofNat_of_eq (show (a.toNat % 4 * 16+b.toNat / 16) % 16 * 16 +
          (b.toNat % 16 * 4+c.toNat / 64) / 4=b.toNat by omega),
        ofNat_of_eq (show (b.toNat % 16 * 4+c.toNat / 64) % 4 * 64+c.toNat % 64=c.toNat by omega)]

/-- The length of an encoding leaves no remainder of one. -/
theorem length_encodeUrl : (encodeUrl bytes).length=(4 * bytes.length+2) / 3 := by
  induction bytes using encodeUrl.induct with
  | case1 => rfl
  | case2 a => simp [encodeUrl]
  | case3 a b => simp [encodeUrl]
  | case4 a b c rest ih =>
    simp only [encodeUrl,List.length_cons,ih]
    omega

theorem dropPadding_append {pad : Nat} (hpad : pad ≤ 2)
    (h : ∀ c∈cs, c ≠ '=') : dropPadding (cs++List.replicate pad '=')=cs := by
  have hlas : ∀ d ds, cs.reverse=d::ds → d ≠ '=' := by
    intro d ds heq
    exact h d (List.mem_reverse.mp (heq ▸ List.mem_cons_self))
  unfold dropPadding
  rw [List.reverse_append,List.reverse_replicate]
  obtain rfl | rfl | rfl : pad=0 ∨ pad=1 ∨ pad=2 := by omega
  · cases hrev : cs.reverse with
    | nil => simp
    | cons d ds =>
      have hne := hlas d ds hrev
      simp [hne]
  · cases hrev : cs.reverse with
    | nil =>
      have hnil : cs=[] := List.reverse_eq_nil_iff.mp hrev
      simp [hnil]
    | cons d ds =>
      have hne := hlas d ds hrev
      have hcs : cs=(d::ds).reverse := by rw [← hrev,List.reverse_reverse]
      simp [List.replicate,hne,hcs]
  · simp [List.replicate]

theorem atob_encodeUrl {pad : Nat}
    (hpad : pad=(4 - (encodeUrl bytes).length % 4) % 4) :
    atob ((encodeUrl bytes).map standardOfUrl++List.replicate pad '=')=some bytes := by
  have hpla : ∀ c∈(encodeUrl bytes).map standardOfUrl, isAsciiWhitespace c=false ∧ c ≠ '=' := by
    have henc : ∀ c∈encodeUrl bytes,
        isAsciiWhitespace (standardOfUrl c)=false ∧ standardOfUrl c ≠ '=' := by
      apply forall_encodeUrl
      decide
    intro c hc
    obtain ⟨d,hd,rfl⟩ := List.mem_map.mp hc
    exact henc d hd
  have hlen := length_encodeUrl bytes
  have hkep : ((encodeUrl bytes).map standardOfUrl++List.replicate pad '=').filter
      (fun c => !isAsciiWhitespace c)=(encodeUrl bytes).map standardOfUrl++List.replicate pad '=' := by
    rw [List.filter_eq_self]
    intro c hc
    rcases List.mem_append.mp hc with hc | hc
    · simp [(hpla c hc).1]
    · rw [List.eq_of_mem_replicate hc]
      decide
  obtain ⟨sextets,hmap,hjoi⟩ := mapM_sextet_encodeUrl bytes
  have htot : ((encodeUrl bytes).map standardOfUrl++List.replicate pad '=').length % 4=0 := by
    rw [List.length_append,List.length_map,List.length_replicate]
    omega
  simp only [atob,hkep,htot,if_true]
  rw [dropPadding_append _ (by omega) fun c hc => (hpla c hc).2,if_neg (by rw [List.length_map]; omega),
    hmap,Option.map_some,hjoi]

theorem atob_encodeStandard : atob (encodeStandard bytes)=some bytes :=
  atob_encodeUrl bytes rfl

def decodeUrl : Option (List UInt8) :=
  (cs.mapM fun c => sextet (standardOfUrl c)).map decodeSextets

theorem decodeUrl_encodeUrl : decodeUrl (encodeUrl bytes)=some bytes := by
  obtain ⟨sextets,hmap,hjoi⟩ := mapM_sextet_encodeUrl bytes
  rw [List.mapM_map] at hmap
  have hdec : decodeUrl (encodeUrl bytes)=some (decodeSextets sextets) :=
    congrArg (Option.map decodeSextets) hmap
  rw [hdec,hjoi]

end CastleWall.Base64
