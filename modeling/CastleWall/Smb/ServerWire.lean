import CastleWall.Smb.Wire
import CastleWall.Smb.ServerStrictJson

/-! # The server's schema interpreter

`matches` and `validate` of `smb/wire.ts`, and their agreement with the daemon's. -/

namespace CastleWall.Smb

open Json Text

/-- `Buffer.from` with the two base64 encodings, which decodes any text. -/
structure Runtime where
  (base64 base64url : List Char → List UInt8)

/-- Decoding undoes `Buffer.toString`. -/
structure Runtime.Lawful (r : Runtime) : Prop where
  base64 : ∀ bytes, r.base64 (Base64.encodeStandard bytes)=bytes
  base64url : ∀ bytes, r.base64url (Base64.encodeUrl bytes)=bytes

namespace ServerWire

/-- `/^(0|[1-9][0-9]{0,19})$/`. -/
def decimalPattern : List Char → Bool
  | [] => false
  | c::cs =>
    (c == '0' && cs.isEmpty) ||
      (c.isDigit && c != '0' && decide (cs.length ≤ 19) && cs.all Char.isDigit)

def decimalMatches (min max : UInt64) (text : String) : Bool :=
  decimalPattern text.toList && decide (Nat.ofDigitChars 10 text.toList 0 ≤ max.toNat) &&
    decide (min.toNat ≤ Nat.ofDigitChars 10 text.toList 0)

def isSafeInteger (n : Number) : Bool :=
  n.asF64.any fun x => x.den == 1 && decide (|x| ≤ (maxSafe : ℚ))

def stringMatches (min max : Nat) (chars : Option CharSet) (text : String) : Bool :=
  let size := (utf8Bytes text).length
  decide (min ≤ size) && decide (size ≤ max) &&
    match chars with
    | none => true
    | some chars => text.toList.all fun c => chars.1.toList.contains c

def base64Matches (decode : List Char → List UInt8) (encode : List UInt8 → List Char) (max : Nat)
    (encodedMax : Option Nat) (text : String) : Bool :=
  if encodedMax.any (fun bound => bound < (utf16Units text).length) then false
  else decide ((decode text.toList).length ≤ max) && encode (decode text.toList) == text.toList

mutual

def matchesSpec (r : Runtime) (schema : Schema) (value : Value) (depth : Nat) : Bool :=
  if jsonMaxDepth+1 < depth then false
  else
    match schema with
    | .const literal => literal.isValue value
    | .enum values => value.asStr.any fun s => values.contains s
    | .oneOf alternatives => matchCount r alternatives value depth == 1
    | .object fields =>
      value.asObject.any fun values =>
        values.length == fields.length && matchFields r fields values (depth+1)
    | .array items max =>
      value.asArray.any fun values =>
        decide (values.length ≤ max) && values.all fun v => matchesSpec r items v (depth+1)
    | .decimal min max => value.asStr.any fun text => decimalMatches min max text
    | .integer => value.asNumber.any isSafeInteger
    | .string min max chars => value.asStr.any fun text => stringMatches min max chars text
    | .prefixed constant suffix =>
      value.asStr.any fun text =>
        startsWith text constant &&
          matchesSpec r suffix (.string (String.ofList (text.toList.drop constant.toList.length)))
            (depth+1)
    | .base64 max encodedMax =>
      value.asStr.any fun text => base64Matches r.base64 Base64.encodeStandard max encodedMax text
    | .base64url max encodedMax =>
      value.asStr.any fun text => base64Matches r.base64url Base64.encodeUrl max encodedMax text
    | .json => true

def matchCount (r : Runtime) (schemas : List Schema) (value : Value) (depth : Nat) : Nat :=
  match schemas with
  | [] => 0
  | schema::schemas =>
    (if matchesSpec r schema value depth then 1 else 0)+matchCount r schemas value depth

def matchFields (r : Runtime) (fields : List (String × Schema)) (values : List (String × Value))
    (depth : Nat) : Bool :=
  match fields with
  | [] => true
  | field::fields =>
    (values.lookup field.1).any (fun v => matchesSpec r field.2 v depth) &&
      matchFields r fields values depth

end

def validate (r : Runtime) (schema : String) (value : Value) : Bool :=
  match ServerJcs.jcs 0 value with
  | .error _ => false
  | .ok text =>
    match ServerStrictJson.parseStrict (utf8Bytes (String.ofList text)) taskStoreBytes with
    | some (.ok _) => (Schema.registry.lookup schema).any fun spec => matchesSpec r spec value 0
    | _ => false

private theorem pow_le_ofDigitChars {c : Char} {cs : List Char} (hc : c.isDigit=true)
    (hzer : c ≠ '0') : 10 ^ cs.length ≤ Nat.ofDigitChars 10 (c::cs) 0 := by
  have hdig : 1 ≤ c.toNat - '0'.toNat := by
    have hle : '0' ≤ c := by
      simp only [Char.isDigit,Bool.and_eq_true,decide_eq_true_eq] at hc
      exact hc.1
    have hlt : '0'.toNat < c.toNat := by
      refine lt_of_le_of_ne (UInt32.le_iff_toNat_le.mp hle) fun heq => hzer ?_
      exact (Char.toNat_inj.mp heq).symm
    omega
  rw [Nat.ofDigitChars_cons,Nat.ofDigitChars_eq_ofDigitChars_zero]
  calc 10 ^ cs.length ≤ 10 ^ cs.length * (10 * 0+(c.toNat - '0'.toNat)) := by
        rw [Nat.mul_zero,Nat.zero_add]
        exact Nat.le_mul_of_pos_right _ hdig
    _ ≤ _ := Nat.le_add_right _ _

private theorem decimalPattern_iff (c : Char) (cs : List Char) :
    decimalPattern (c::cs)=true ↔
      (cs=[] ∨ c ≠ '0') ∧ (∀ d∈c::cs, d.isDigit=true) ∧ cs.length ≤ 19 := by
  simp only [decimalPattern,Bool.or_eq_true,Bool.and_eq_true,beq_iff_eq,List.isEmpty_iff,
    bne_iff_ne,decide_eq_true_eq,List.all_eq_true,List.forall_mem_cons]
  constructor
  · rintro (⟨rfl,rfl⟩ | ⟨⟨⟨hc,hne⟩,hlen⟩,hcs⟩)
    · exact ⟨.inl rfl,⟨by decide,by simp⟩,by simp⟩
    · exact ⟨.inr hne,⟨hc,hcs⟩,hlen⟩
  · rintro ⟨hsha,⟨hc,hcs⟩,hlen⟩
    by_cases hzer : c = '0'
    · exact .inl ⟨hzer,hsha.resolve_right (not_not_intro hzer)⟩
    · exact .inr ⟨⟨⟨hc,hzer⟩,hlen⟩,hcs⟩

private theorem canonical_iff (c : Char) (cs : List Char) :
    (String.ofList (c::cs) == "0" || !startsWith (String.ofList (c::cs)) "0")=true ↔
      cs=[] ∨ c ≠ '0' := by
  have hzer : String.ofList (c::cs) = "0" ↔ c = '0' ∧ cs=[] := by
    rw [← String.toList_inj,String.toList_ofList,← List.cons.injEq]
    rfl
  have hsta : startsWith (String.ofList (c::cs)) "0" = ('0' == c) := by
    have hpat : "0".toList=['0'] := rfl
    rw [startsWith,hpat,String.toList_ofList,List.isPrefixOf,List.isPrefixOf_nil_left,
      Bool.and_true]
  rw [Bool.or_eq_true,beq_iff_eq,hzer,hsta,Bool.not_eq_true',beq_eq_false_iff_ne,ne_comm]
  by_cases hc : c = '0'
  · simp [hc]
  · simp [hc]

/-- The two readings of a decimal agree: a bound below `2 ^ 64` has at most twenty digits. -/
theorem decimalMatches_eq (min max : UInt64) (text : String) :
    decimalMatches min max text=Wire.decimalMatches min max text := by
  obtain ⟨cs,rfl⟩ : ∃ cs, text=String.ofList cs := ⟨text.toList,String.ofList_toList.symm⟩
  cases cs with
  | nil => rfl
  | cons c cs =>
    have hne : String.ofList (c::cs) ≠ "" := by
      rw [Ne,← String.toList_inj,String.toList_ofList]
      exact List.cons_ne_nil c cs
    rw [Bool.eq_iff_iff,decimalMatches,Wire.decimalMatches,String.toList_ofList,Bool.and_eq_true,
      Bool.and_eq_true,decimalPattern_iff,Bool.and_eq_true,Bool.and_eq_true,Bool.and_eq_true,
      canonical_iff,bne_iff_ne,List.all_eq_true,decide_eq_true_iff,decide_eq_true_iff]
    constructor
    · rintro ⟨⟨⟨hsha,hdig,-⟩,hmax⟩,hmin⟩
      have hlt : Nat.ofDigitChars 10 (c::cs) 0 < 2 ^ 64 := lt_of_le_of_lt hmax max.toNat_lt
      refine ⟨⟨⟨hne,hsha⟩,hdig⟩,?_⟩
      rw [parseUnsigned_digitChars (List.cons_ne_nil c cs) hdig,if_pos hlt]
      simp only [hmax,hmin,decide_true,Bool.and_true]
    · rintro ⟨⟨⟨-,hsha⟩,hdig⟩,hpar⟩
      rw [parseUnsigned_digitChars (List.cons_ne_nil c cs) hdig] at hpar
      by_cases hlt : Nat.ofDigitChars 10 (c::cs) 0 < 2 ^ 64
      · rw [if_pos hlt] at hpar
        simp only [Bool.and_eq_true,decide_eq_true_eq] at hpar
        refine ⟨⟨⟨hsha,hdig,?_⟩,hpar.1⟩,hpar.2⟩
        rcases hsha with rfl | hzer
        · exact Nat.zero_le _
        · have hpow : 10 ^ cs.length ≤ Nat.ofDigitChars 10 (c::cs) 0 :=
            pow_le_ofDigitChars (hdig c List.mem_cons_self) hzer
          by_contra hlen
          have htwe : 10 ^ 20 ≤ 10 ^ cs.length := Nat.pow_le_pow_right (by norm_num) (by omega)
          omega
      · rw [if_neg hlt] at hpar
        exact absurd hpar Bool.false_ne_true

private theorem length_utf16Units_ascii {cs : List Char} (h : ∀ c∈cs, c.toNat < 128) :
    (utf16Units (String.ofList cs)).length=(utf8Bytes (String.ofList cs)).length := by
  rw [utf16Units,utf8Bytes,String.toList_ofList]
  induction cs with
  | nil => rfl
  | cons c cs ih =>
    have hc := h c List.mem_cons_self
    have huni : (utf16Char c).length=1 := by
      rw [utf16Char,if_pos (by omega)]
      rfl
    have hbyt : (String.utf8EncodeChar c).length=1 := by
      rw [String.length_utf8EncodeChar]
      exact Char.utf8Size_eq_one_iff.mpr (UInt32.le_iff_toNat_le.mpr (Nat.le_of_lt_succ hc))
    rw [List.flatMap_cons,List.flatMap_cons,List.length_append,List.length_append,huni,hbyt,
      ih fun d hd => h d (List.mem_cons_of_mem _ hd)]

private theorem encodeUrl_ascii (bytes : List UInt8) :
    ∀ c∈Base64.encodeUrl bytes, c.toNat < 128 :=
  Base64.forall_encodeUrl (by decide) bytes

private theorem encodeStandard_ascii (bytes : List UInt8) :
    ∀ c∈Base64.encodeStandard bytes, c.toNat < 128 := by
  have hmap : ∀ c∈Base64.encodeUrl bytes, (Base64.standardOfUrl c).toNat < 128 :=
    Base64.forall_encodeUrl (by decide) bytes
  intro c hc
  rw [Base64.encodeStandard,List.mem_append,List.mem_map] at hc
  rcases hc with ⟨d,hd,rfl⟩ | hc
  · exact hmap d hd
  · rw [List.eq_of_mem_replicate hc]
    decide

theorem base64Matches_eq {decode : List Char → Option (List UInt8)} {buffer : List Char → List UInt8}
    {encode : List UInt8 → List Char} (hdec : ∀ bytes, decode (encode bytes)=some bytes)
    (hbuf : ∀ bytes, buffer (encode bytes)=bytes)
    (hasc : ∀ bytes, ∀ c∈encode bytes, c.toNat < 128) (max : Nat) (encodedMax : Option Nat)
    (text : String) :
    base64Matches buffer encode max encodedMax text =
      Wire.base64Matches decode encode max encodedMax text := by
  by_cases henc : ∃ bytes, encode bytes=text.toList
  · obtain ⟨bytes,hbyt⟩ := henc
    have huni : (utf16Units text).length=(utf8Bytes text).length := by
      have hlen := length_utf16Units_ascii (hasc bytes)
      rwa [hbyt,String.ofList_toList] at hlen
    simp only [base64Matches,Wire.base64Matches,huni,← hbyt,hdec,hbuf]
  · have hser : (encode (buffer text.toList) == text.toList)=false :=
      beq_eq_false_iff_ne.mpr fun heq => henc ⟨_,heq⟩
    have hdae : ∀ bytes, (encode bytes == text.toList)=false := fun bytes =>
      beq_eq_false_iff_ne.mpr fun heq => henc ⟨_,heq⟩
    rw [base64Matches,Wire.base64Matches,hser,Bool.and_false,ite_self]
    cases decode text.toList with
    | none => rw [ite_self]
    | some bytes => simp only [hdae,Bool.and_false,ite_self]

theorem isSafeInteger_eq {n : Number} {text : List Char} (h : Jcs.numberAt n=.ok text) :
    isSafeInteger n=Wire.isInteger n := by
  obtain ⟨x,hx,hsaf,-,-⟩ := StrictJson.numberAt_ok h
  rw [isSafeInteger,Wire.isInteger,hx,Option.any_some,Option.any_some,decide_eq_true hsaf,
    Bool.and_true]

private theorem any_stripPrefix (text constant : String) (p : String → Bool) :
    (stripPrefix text constant).any p =
      (startsWith text constant && p (String.ofList (text.toList.drop constant.toList.length))) := by
  rw [stripPrefix,startsWith]
  by_cases hprx : constant.toList.isPrefixOf text.toList=true
  · obtain ⟨rest,hres⟩ := List.isPrefixOf_iff_prefix.mp hprx
    have hstr : text.toList.dropPrefix? constant.toList=some rest := by
      rw [List.dropPrefix?_eq_some_iff]
      exact ⟨_,hres.symm,beq_self_eq_true _⟩
    rw [hstr,hprx,← hres,List.drop_left,Option.map_some,Option.any_some,Bool.true_and]
  · have hstr : text.toList.dropPrefix? constant.toList=none := by
      rw [Option.eq_none_iff_forall_not_mem]
      intro rest hres
      obtain ⟨pre,htex,hpre⟩ := List.dropPrefix?_eq_some_iff.mp hres
      rw [eq_of_beq hpre] at htex
      exact hprx (List.isPrefixOf_iff_prefix.mpr ⟨rest,htex.symm⟩)
    rw [hstr,Bool.eq_false_of_not_eq_true hprx,Option.map_none,Option.any_none,Bool.false_and]

/-- The strict parse of a text only checks its size here, too. -/
private theorem parseStrict_text {v : Value} {text : List Char} (htex : Jcs.encode v=.ok text)
    (hdis : v.distinct=true)
    (hsiz : (utf8Bytes (String.ofList text)).length ≤ taskStoreBytes) :
    ∃ w, ServerStrictJson.parseStrict (utf8Bytes (String.ofList text)) taskStoreBytes =
      some (.ok w) := by
  have hpar := ServerStrictJson.parseStrictJson_eq (fun _ => rfl)
    (utf8Bytes (String.ofList text)) taskStoreBytes hsiz
  rw [StrictJson.parse_encode ServerStrictJson.jsonString_quote htex hdis hsiz,
    Except.toOption] at hpar
  rw [ServerStrictJson.parseStrict,if_neg (not_lt.mpr hsiz)]
  exact ⟨v.strict,congrArg some (Outcome.toOption_eq_some.mp hpar)⟩

section Parity

variable {c : Crates} {r : Runtime} (hc : c.Lawful) (hr : r.Lawful)

include hc hr

theorem matchesSpec_eq (schema : Schema) (v : Value) (depth : Nat) {level : Nat} {text : List Char}
    (htex : Jcs.encodeAt level v=.ok text) (hdis : v.distinct=true) :
    matchesSpec r schema v depth=Wire.matchesSpec c schema v depth := by
  induction schema using Schema.induct generalizing v depth level text with
  | const literal => rw [matchesSpec,Wire.matchesSpec]
  | enum values => rw [matchesSpec,Wire.matchesSpec]
  | oneOf alternatives ih =>
    have hcou : matchCount r alternatives v depth=Wire.matchCount c alternatives v depth := by
      induction alternatives with
      | nil => rfl
      | cons s ss ihs =>
        rw [matchCount,Wire.matchCount,ih s List.mem_cons_self v depth htex hdis,
          ihs fun s hs => ih s (List.mem_cons_of_mem _ hs)]
    rw [matchesSpec,Wire.matchesSpec,hcou]
  | object fields ih =>
    rw [matchesSpec,Wire.matchesSpec]
    cases v with
    | object values =>
      obtain ⟨hnod,hval⟩ := Value.distinct_object.mp hdis
      have hfie : matchFields r fields values (depth+1) =
          Wire.matchFields c fields values (depth+1) := by
        induction fields with
        | nil => rfl
        | cons field fields ihs =>
          rw [matchFields,Wire.matchFields,ihs fun f hf => ih f (List.mem_cons_of_mem _ hf)]
          cases hloo : values.lookup field.1 with
          | none => rfl
          | some w =>
            have hmem := (Wire.lookup_eq_some hnod).mp hloo
            obtain ⟨t,ht⟩ := StrictJson.encodeAt_fields htex _ hmem
            rw [Option.any_some,Option.any_some,
              ih field List.mem_cons_self w (depth+1) ht (hval _ hmem)]
      rw [Value.asObject,Option.any_some,Option.any_some,hfie]
    | null => rfl
    | bool b => rfl
    | number n => rfl
    | string s => rfl
    | array items => rfl
  | array items max ih =>
    rw [matchesSpec,Wire.matchesSpec]
    cases v with
    | array values =>
      have hval := Value.distinct_array.mp hdis
      have hall : (values.all fun v => matchesSpec r items v (depth+1)) =
          values.all fun v => Wire.matchesSpec c items v (depth+1) := by
        rw [Bool.eq_iff_iff,List.all_eq_true,List.all_eq_true]
        apply forall₂_congr
        intro v hv
        obtain ⟨t,ht⟩ := StrictJson.encodeAt_items htex v hv
        rw [ih v (depth+1) ht (hval v hv)]
      rw [Value.asArray,Option.any_some,Option.any_some,hall]
    | null => rfl
    | bool b => rfl
    | number n => rfl
    | string s => rfl
    | object fields => rfl
  | decimal min max => simp only [matchesSpec,Wire.matchesSpec,decimalMatches_eq]
  | integer =>
    rw [matchesSpec,Wire.matchesSpec]
    cases v with
    | number n =>
      rw [Jcs.encodeAt] at htex
      rw [Value.asNumber,Option.any_some,Option.any_some,isSafeInteger_eq htex]
    | null => rfl
    | bool b => rfl
    | string s => rfl
    | array items => rfl
    | object fields => rfl
  | string min max chars => rw [matchesSpec,Wire.matchesSpec]; rfl
  | prefixed constant suffix ih =>
    have hsuf : ∀ s, matchesSpec r suffix (.string s) (depth+1) =
        Wire.matchesSpec c suffix (.string s) (depth+1) := by
      intro s
      have hquo : Jcs.encodeAt 0 (.string s)=.ok (quote s) := rfl
      exact ih (.string s) (depth+1) hquo rfl
    simp only [matchesSpec,Wire.matchesSpec, any_stripPrefix,hsuf]
  | base64 max encodedMax =>
    simp only [matchesSpec,Wire.matchesSpec,
      base64Matches_eq hc.standard hr.base64 encodeStandard_ascii]
  | base64url max encodedMax =>
    simp only [matchesSpec,Wire.matchesSpec,
      base64Matches_eq hc.urlSafeNoPad hr.base64url encodeUrl_ascii]
  | json => rw [matchesSpec,Wire.matchesSpec]

theorem validate_eq_daemon (schema : String) {v : Value} (hdis : v.distinct=true) :
    validate r schema v=Wire.validate c schema v := by
  rw [Wire.validate_eq hc.fromStr schema hdis,validate,ServerJcs.jcs_eq_encodeAt,← Jcs.encode]
  cases htex : Jcs.encode v with
  | error e => rfl
  | ok text =>
    simp only
    by_cases hsiz : (utf8Bytes (String.ofList text)).length ≤ taskStoreBytes
    · obtain ⟨w,hw⟩ := parseStrict_text htex hdis hsiz
      rw [hw,decide_eq_true hsiz,Bool.true_and]
      cases Schema.registry.lookup schema with
      | none => rfl
      | some spec => exact matchesSpec_eq hc hr spec v 0 htex hdis
    · rw [ServerStrictJson.parseStrict,if_pos (not_le.mp hsiz),decide_eq_false hsiz,
        Bool.false_and]

end Parity

theorem validate_parity (c : Crates) (r : Runtime) (hc : c.Lawful) (hr : r.Lawful) (schema : String)
    (v : Value) (hdistinct : v.distinct=true) : validate r schema v=Wire.validate c schema v :=
  validate_eq_daemon hc hr schema hdistinct

end ServerWire

def Runtime.reference : Runtime where
  base64 cs := (Base64.atob cs).getD []
  base64url cs := (Base64.decodeUrl cs).getD []

theorem Runtime.reference_lawful : Runtime.reference.Lawful where
  base64 bytes := by
    simp only [reference,Base64.atob_encodeStandard,Option.getD_some]
  base64url bytes := by
    simp only [reference,Base64.decodeUrl_encodeUrl,Option.getD_some]

theorem validate_parity_result :
    ∃ v : Value, v.distinct=true ∧ Wire.validate .reference "fifo_result" v=true ∧
      ServerWire.validate .reference "fifo_result" v=true := by
  let v : Value := .object [("type",.string "result"),("data_b64",.string "aGk=")]
  have hdae : Wire.validate .reference "fifo_result" v=true := by
    rw [Wire.validate_eq Crates.reference_lawful.fromStr "fifo_result" (by decide)]
    decide
  refine ⟨v,by decide,hdae,?_⟩
  rw [ServerWire.validate_parity .reference .reference Crates.reference_lawful
    Runtime.reference_lawful "fifo_result" v (by decide)]
  exact hdae

end CastleWall.Smb
