import CastleWall.Smb.Wire

/-! # Frames

`smb/frame.rs`: a four-byte big-endian length before the canonical text of a schema-checked value. -/

namespace CastleWall.Smb

open Json Text

namespace Frame

/-- `u32::to_be_bytes`. -/
def toBeBytes (n : Nat) : List UInt8 :=
  [UInt8.ofNat (n / 2 ^ 24),UInt8.ofNat (n / 2 ^ 16),UInt8.ofNat (n / 2 ^ 8),UInt8.ofNat n]

/-- `u32::from_be_bytes`. -/
def fromBeBytes (bytes : List UInt8) : Nat := bytes.foldl (fun n b => n * 256+b.toNat) 0

variable (c : Crates)

def encode (value : Value) (schema : String) (maximum : Nat) : Except String (List UInt8) :=
  if Wire.validate c schema value then do
    let body ← Jcs.encode value
    let bytes := utf8Bytes (String.ofList body)
    if maximum < bytes.length then .error "SMB frame length"
    else if 2 ^ 32 ≤ bytes.length then .error "SMB frame length"
    else .ok (toBeBytes bytes.length++bytes)
  else .error "SMB schema"

def readPayload (bytes : List UInt8) (schema : String) (maximum : Nat) :
    Except String (Value × List UInt8) :=
  if bytes.length < frameHeader then .error "SMB short header"
  else
    let length := fromBeBytes (bytes.take frameHeader)
    let rest := bytes.drop frameHeader
    if maximum < length then .error "SMB frame length"
    else if rest.length < length then .error "SMB short body"
    else (Wire.validateBytes c schema (rest.take length) maximum).map fun v => (v,rest.drop length)

def decode (bytes : List UInt8) (schema : String) (maximum : Nat) : Except String Value := do
  let (value,rest) ← readPayload c bytes schema maximum
  if rest=[] then .ok value else .error "SMB trailing frame"

variable {c}

theorem fromBeBytes_toBeBytes {n : Nat} (h : n < 2 ^ 32) : fromBeBytes (toBeBytes n)=n := by
  simp only [fromBeBytes,toBeBytes,List.foldl_cons,List.foldl_nil,UInt8.toNat_ofNat']
  omega

theorem encode_ok {v : Value} {schema : String} {maximum : Nat} {frame : List UInt8}
    (h : encode c v schema maximum=.ok frame) :
    Wire.validate c schema v=true ∧ ∃ text, Jcs.encode v=.ok text ∧
      (utf8Bytes (String.ofList text)).length ≤ maximum ∧
      (utf8Bytes (String.ofList text)).length < 2 ^ 32 ∧
      frame=toBeBytes (utf8Bytes (String.ofList text)).length++utf8Bytes (String.ofList text) := by
  rw [encode] at h
  split_ifs at h with hval
  refine ⟨hval,?_⟩
  obtain ⟨text,htex,h⟩ := Outcome.bind_ok h
  simp only at h
  split_ifs at h with hlar hwid
  exact ⟨text,htex,not_lt.mp hlar,not_le.mp hwid,(Except.ok.inj h).symm⟩

theorem encode_of_valid {v : Value} {schema : String} {maximum : Nat} {text : List Char}
    (hval : Wire.validate c schema v=true) (htex : Jcs.encode v=.ok text) :
    encode c v schema maximum =
      if maximum < (utf8Bytes (String.ofList text)).length then .error "SMB frame length"
      else .ok (toBeBytes (utf8Bytes (String.ofList text)).length++utf8Bytes (String.ofList text)) := by
  obtain ⟨text',htex',hsto⟩ := Wire.validate_ok hval
  obtain rfl := Except.ok.inj (htex.symm.trans htex')
  have hwid : ¬ 2 ^ 32 ≤ (utf8Bytes (String.ofList text)).length := by
    rw [taskStoreBytes] at hsto
    omega
  rw [encode,if_pos hval,htex]
  simp only [bind,Except.bind,if_neg hwid]

theorem decode_ok {bytes : List UInt8} {schema : String} {maximum : Nat} {v : Value}
    (h : decode c bytes schema maximum=.ok v) :
    v.distinct=true ∧ Wire.validate c schema v=true := by
  obtain ⟨⟨w,rest⟩,hw,h⟩ := Outcome.bind_ok h
  simp only at h
  split_ifs at h
  obtain rfl := Except.ok.inj h
  rw [readPayload] at hw
  simp only at hw
  split_ifs at hw
  obtain ⟨u,hu,heq⟩ := Outcome.map_ok hw
  obtain ⟨rfl,-⟩ := Prod.mk.inj heq
  obtain ⟨x,hx,hu⟩ := Outcome.bind_ok hu
  split_ifs at hu with hval
  obtain rfl := Except.ok.inj hu
  exact ⟨(StrictJson.within_of_parse hx).1,hval⟩

theorem decode_body {body : List UInt8} {schema : String} {maximum : Nat} {v : Value}
    (hwid : body.length < 2 ^ 32) (hsiz : body.length ≤ maximum)
    (h : Wire.validateBytes c schema body maximum=.ok v) :
    decode c (toBeBytes body.length++body) schema maximum=.ok v := by
  have htak : (toBeBytes body.length++body).take frameHeader=toBeBytes body.length := rfl
  have hdro : (toBeBytes body.length++body).drop frameHeader=body := rfl
  have hhea : ¬ (toBeBytes body.length++body).length < frameHeader := by
    rw [List.length_append]
    exact not_lt.mpr (Nat.le_add_right 4 _)
  rw [decode,readPayload,if_neg hhea]
  simp only [htak,hdro,fromBeBytes_toBeBytes hwid,if_neg (not_lt.mpr hsiz),lt_irrefl,if_false,
    List.take_length,List.drop_length,h]
  rfl

theorem decode_frame (hfromStr : ∀ s, c.fromStr (quote s)=some s) {v : Value} {schema : String}
    {maximum : Nat} {frame : List UInt8} (hdis : v.distinct=true)
    (h : encode c v schema maximum=.ok frame) :
    decode c frame schema maximum=.ok v.strict := by
  obtain ⟨hval,text,htex,hsiz,hwid,rfl⟩ := encode_ok h
  apply decode_body hwid hsiz
  rw [Wire.validateBytes,StrictJson.parse_encode hfromStr htex hdis hsiz]
  simp only [bind,Except.bind]
  rw [if_pos]
  rwa [Wire.validate_strict schema v hdis]

end Frame

open Frame

/-- What the encoder accepts decodes to an equal value; what the decoder accepts is encoded again,
to a frame that decodes to an equal value, unless its canonical text is longer than the bound; and
the strict parser accepts only distinct names and bounded nesting. -/
theorem smb_round_trip (c : Crates) (hfromStr : ∀ s, c.fromStr (quote s)=some s) :
    (∀ (v : Value) (schema : String) (maximum : Nat) (frame : List UInt8), v.distinct=true →
      encode c v schema maximum=.ok frame →
        ∃ w, decode c frame schema maximum=.ok w ∧ w.meaning=v.meaning) ∧
    (∀ (bytes : List UInt8) (schema : String) (maximum : Nat) (v : Value),
      decode c bytes schema maximum=.ok v → ∃ text, Jcs.encode v=.ok text ∧
        ((utf8Bytes (String.ofList text)).length ≤ maximum → ∃ frame w,
          encode c v schema maximum=.ok frame ∧ decode c frame schema maximum=.ok w ∧
            w.meaning=v.meaning) ∧
        (maximum < (utf8Bytes (String.ofList text)).length →
          encode c v schema maximum=.error "SMB frame length")) ∧
    ∀ (bytes : List UInt8) (maximum : Nat) (v : Value),
      StrictJson.parse c.fromStr bytes maximum=.ok v →
        v.distinct=true ∧ v.nesting ≤ jsonMaxDepth+1 := by
  have hbac : ∀ (v : Value) (schema : String) (maximum : Nat) (frame : List UInt8),
      v.distinct=true → encode c v schema maximum=.ok frame →
        ∃ w, decode c frame schema maximum=.ok w ∧ w.meaning=v.meaning := by
    intro v schema maximum frame hdis h
    obtain ⟨-,text,htex,-⟩ := encode_ok h
    exact ⟨v.strict,decode_frame hfromStr hdis h,StrictJson.meaning_strict v htex hdis⟩
  refine ⟨hbac,?_,?_⟩
  · intro bytes schema maximum v h
    obtain ⟨hdis,hval⟩ := decode_ok h
    obtain ⟨text,htex,-⟩ := Wire.validate_ok hval
    have henc := @encode_of_valid c v schema maximum text hval htex
    refine ⟨text,htex,?_,?_⟩
    · intro hsiz
      rw [if_neg (not_lt.mpr hsiz)] at henc
      obtain ⟨w,hw,hmea⟩ := hbac v schema maximum _ hdis henc
      exact ⟨_,w,henc,hw,hmea⟩
    · intro hlar
      rw [henc,if_pos hlar]
  · intro bytes maximum v h
    exact StrictJson.within_of_parse h

theorem smb_round_trip_decimal :
    ∃ frame w, encode .reference (.string "7") "decimal" 16=.ok frame ∧
      decode .reference frame "decimal" 16=.ok w ∧ w.meaning=.string "7" := by
  have hval : Wire.validate .reference "decimal" (.string "7")=true := by
    rw [Wire.validate_eq Crates.reference_lawful.fromStr "decimal" rfl]
    decide
  have henc := @encode_of_valid _ _ _ 16 (quote "7") hval rfl
  rw [if_neg (by decide)] at henc
  obtain ⟨w,hw,hmea⟩ := (smb_round_trip .reference Crates.reference_lawful.fromStr).1
    (.string "7") "decimal" 16 _ rfl henc
  exact ⟨_,w,henc,hw,hmea⟩

section Grows

open Binary64 Decimal

private theorem thousand_finite : nearest 1000=some 1000 := by
  exact_mod_cast nearest_natCast (n := 1000) (by norm_num)

private theorem thousand_text : numberToString 1000=['1','0','0','0'] := by
  have hlog : Int.log 10 (1000 : ℚ)=3 := by
    have h : Int.log 10 (((10 : ℕ) : ℚ) ^ (3 : ℤ))=3 := Int.log_zpow (by norm_num) 3
    have hpow : ((10 : ℕ) : ℚ) ^ (3 : ℤ)=1000 := by norm_num
    rwa [hpow] at h
  have hsca : scaleAt 1 (1000 : ℚ)=3 := by
    rw [scaleAt,hlog]
    rfl
  have hflo : floorAt 1 (1000 : ℚ)=1 := by
    rw [floorAt,hsca]
    norm_num
  have hnea : nearestAt 1 (1000 : ℚ)=1 := by
    rw [nearestAt,hsca,show (1000 : ℚ) / 10 ^ (3 : ℤ)=((1 : ℤ) : ℚ) by norm_num,
      roundHalfEven_intCast]
    rfl
  have hbac : readsBack 1000 (1,3)=true := by
    rw [readsBack,Scaled.value]
    norm_num [thousand_finite]
  have hfir : (neighbours 1 1000).find? (readsBack 1000)=some (1,3) := by
    rw [neighbours]
    simp only [hflo,hnea,hsca,if_true]
    rw [List.find?_cons_of_pos hbac]
  have hsho : shortest neighbours 1000=some (1,3) := by
    rw [shortest,show List.range' 1 17=1::List.range' 2 16 from rfl,List.findSome?_cons,hfir]
  rw [numberToString,if_neg (by norm_num),abs_of_pos (by norm_num),hsho,if_neg (by norm_num)]
  decide

private def thousand : Value := .number (.float ⟨1000,thousand_finite⟩)

private theorem thousand_encode : Jcs.encode thousand=.ok ['1','0','0','0'] := by
  have hasF : (Number.float ⟨1000,thousand_finite⟩).asF64=some 1000 := thousand_finite
  rw [Jcs.encode,thousand,Jcs.encodeAt]
  unfold Jcs.numberAt
  simp only [hasF,Jcs.number_eq thousand_finite,thousand_text]
  rw [if_neg]
  rw [maxSafe]
  norm_num

private theorem thousand_number : StrictJson.number ['1','e','3']=.ok (thousand,[]) := by
  have hlex : Lexer.number "SMB number syntax" ['1','e','3']=.ok (['1','e','3'],[]) := by decide
  have hlit : StrictJson.parseF64 ['1','e','3']=some 1000 := by
    simp [StrictJson.parseF64,Ecma.decimalLiteral,Ecma.scaleBy,Ecma.exponentDigits,
      Nat.ofDigitChars_cons]
    norm_num
  rw [StrictJson.number,hlex]
  simp only [bind,Except.bind,hlit]
  unfold StrictJson.safeNumber
  rw [(Finite.round_eq_some (x := ⟨1000,thousand_finite⟩)).mpr thousand_finite]
  simp only [thousand]
  rw [if_neg (by rw [maxSafe]; norm_num)]
  rfl

private theorem thousand_parse :
    StrictJson.parse Crates.reference.fromStr (utf8Bytes "1e3") 3=.ok thousand := by
  rw [StrictJson.parse,if_neg (by decide),decodeUtf8_utf8Bytes]
  have hval : StrictJson.value Crates.reference.fromStr (2 * "1e3".toList.length+1) 0 "1e3".toList =
      .ok (thousand,[]) := by
    rw [show "1e3".toList=['1','e','3'] from rfl,StrictJson.value]
    exact thousand_number
  simp only [hval]
  rfl

theorem short_exponent_not_encoded :
    ∃ v, decode .reference (toBeBytes 3++utf8Bytes "1e3") "json" 3=.ok v ∧
      ∀ frame, encode .reference v "json" 3≠.ok frame := by
  have hval : Wire.validate .reference "json" thousand=true := by
    rw [Wire.validate_eq Crates.reference_lawful.fromStr "json" rfl,thousand_encode]
    decide
  have hbyt : Wire.validateBytes .reference "json" (utf8Bytes "1e3") 3=.ok thousand := by
    rw [Wire.validateBytes,thousand_parse]
    simp only [bind,Except.bind]
    rw [if_pos hval]
  refine ⟨thousand,?_,?_⟩
  · exact @decode_body _ (utf8Bytes "1e3") "json" 3 thousand (by decide) (by decide) hbyt
  · intro frame h
    rw [encode_of_valid hval thousand_encode,if_pos (by decide)] at h
    exact absurd h (by simp)

end Grows

end CastleWall.Smb
