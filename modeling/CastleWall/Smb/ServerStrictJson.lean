import CastleWall.Smb.RoundTrip
import Mathlib.Data.List.DropRight

/-! # The server's strict JSON parser

`parseStrict` of `server/src/smb/parse-strict.ts` and the parser of
`hermes-memory-bridge/strict-json.ts` it calls. It accepts what the daemon's parser accepts, with the
same value. -/

namespace CastleWall.Smb

open Binary64 Json Text

namespace ServerStrictJson

inductive StrictJsonErrorCode where
  | invalidJson
  | invalidUtf8
  | duplicateKey
  | depthExceeded
  | unsafeNumber

def StrictJsonErrorCode.text : StrictJsonErrorCode → String
  | .invalidJson => "invalid_json"
  | .invalidUtf8 => "invalid_utf8"
  | .duplicateKey => "duplicate_key"
  | .depthExceeded => "depth_exceeded"
  | .unsafeNumber => "unsafe_number"

structure StrictJsonError where
  code : StrictJsonErrorCode
  message : String := code.text

def invalidJson : StrictJsonError := { code := .invalidJson }

def loneSurrogate : StrictJsonError := { code := .invalidJson, message := "lone surrogate" }

def isWhitespace (c : Char) : Bool := c == '\t' || c == '\n' || c == '\r' || c == ' '

def skipWhitespace (cs : List Char) : List Char := cs.dropWhile isWhitespace

def consume (expected : Char) : List Char → Except StrictJsonError (List Char)
  | [] => .error invalidJson
  | c::rest => if c=expected then .ok rest else .error invalidJson

def hexDigit (c : Char) : Except StrictJsonError Nat :=
  match toDigit 16 c with
  | none => .error invalidJson
  | some d => .ok d

def readHexCodeUnit : List Char → Except StrictJsonError (Nat × List Char)
  | a::b::c::d::rest => do
    let a ← hexDigit a
    let b ← hexDigit b
    let c ← hexDigit c
    let d ← hexDigit d
    return (((a * 16+b) * 16+c) * 16+d,rest)
  | _ => .error invalidJson

/-- The code point of a `\u` escape, whose second half may be another one. -/
def parseEscapedCodePoint (cs : List Char) : Except StrictJsonError (Char × List Char) := do
  let (high,cs) ← readHexCodeUnit cs
  if 0xd800 ≤ high ∧ high ≤ 0xdbff then
    match cs with
    | '\\' :: 'u' :: cs =>
      let (low,cs) ← readHexCodeUnit cs
      if low < 0xdc00 ∨ 0xdfff < low then .error loneSurrogate
      else return (Char.ofNat (0x10000+(high - 0xd800) * 0x400+(low - 0xdc00)),cs)
    | _ => .error loneSurrogate
  else if 0xdc00 ≤ high ∧ high ≤ 0xdfff then .error loneSurrogate
  else return (Char.ofNat high,cs)

def parseEscape : List Char → Except StrictJsonError (Char × List Char)
  | [] => .error invalidJson
  | esc::cs =>
    if esc = '"' ∨ esc = '\\' ∨ esc = '/' then .ok (esc,cs)
    else if esc = 'b' then .ok (Char.ofNat 8,cs)
    else if esc = 'f' then .ok (Char.ofNat 12,cs)
    else if esc = 'n' then .ok (Char.ofNat 10,cs)
    else if esc = 'r' then .ok (Char.ofNat 13,cs)
    else if esc = 't' then .ok (Char.ofNat 9,cs)
    else if esc = 'u' then parseEscapedCodePoint cs
    else .error invalidJson

/-- The loop of `parseString` after the opening quote; every turn takes a character. -/
def stringBody (fuel : Nat) (out : List Char) (cs : List Char) :
    Except StrictJsonError (List Char × List Char) :=
  match fuel, cs with
  | 0, _ => .error invalidJson
  | _+1, [] => .error invalidJson
  | fuel+1, c::cs =>
    if c = '"' then .ok (out,cs)
    else if c < ' ' then .error invalidJson
    else if c ≠ '\\' then stringBody fuel (out++[c]) cs
    else do
      let (decoded,cs) ← parseEscape cs
      stringBody fuel (out++[decoded]) cs

def parseString (cs : List Char) : Except StrictJsonError (String × List Char) := do
  let cs ← consume '"' cs
  let (out,rest) ← stringBody (cs.length+1) [] cs
  return (String.ofList out,rest)

def parseNumber (cs : List Char) : Except StrictJsonError (Value × List Char) := do
  let (text,rest) ← Lexer.number invalidJson cs
  match (Ecma.numericLiteral text).bind Finite.round with
  | none => .error { code := .unsafeNumber, message := "number outside safe range" }
  | some x =>
    if maxSafe < |x.1| then .error { code := .unsafeNumber, message := "number outside safe range" }
    else return (.number (.float x),rest)

def consumeLiteral (literal : List Char) (value : Value) (cs : List Char) :
    Except StrictJsonError (Value × List Char) :=
  if cs.take literal.length=literal then .ok (value,cs.drop literal.length) else .error invalidJson

def depthExceeded : StrictJsonError :=
  { code := .depthExceeded, message := "JSON nesting exceeds bound" }

def duplicateKey : StrictJsonError := { code := .duplicateKey, message := "duplicate object key" }

mutual

def parseValue (maxDepth fuel depth : Nat) (cs : List Char) :
    Except StrictJsonError (Value × List Char) :=
  match fuel, cs with
  | 0, _ => .error invalidJson
  | _+1, [] => .error invalidJson
  | fuel+1, c::rest =>
    if c = '{' then
      if maxDepth+1 < depth then .error depthExceeded
      else if (skipWhitespace rest).head? = some '}' then .ok (.object [],(skipWhitespace rest).tail)
      else (parseMembers maxDepth fuel depth [] (skipWhitespace rest)).map fun p => (.object p.1,p.2)
    else if c = '[' then
      if maxDepth+1 < depth then .error depthExceeded
      else if (skipWhitespace rest).head? = some ']' then .ok (.array [],(skipWhitespace rest).tail)
      else (parseElements maxDepth fuel depth [] (skipWhitespace rest)).map fun p => (.array p.1,p.2)
    else if c = '"' then (parseString (c::rest)).map fun p => (.string p.1,p.2)
    else if c = 't' then consumeLiteral ['t','r','u','e'] (.bool true) (c::rest)
    else if c = 'f' then consumeLiteral ['f','a','l','s','e'] (.bool false) (c::rest)
    else if c = 'n' then consumeLiteral ['n','u','l','l'] .null (c::rest)
    else if c = '-' || c.isDigit then parseNumber (c::rest)
    else .error invalidJson

/-- The loop of `parseObject`. -/
def parseMembers (maxDepth fuel depth : Nat) (done : List (String × Value)) (cs : List Char) :
    Except StrictJsonError (List (String × Value) × List Char) :=
  match fuel with
  | 0 => .error invalidJson
  | fuel+1 => do
    let (key,cs) ← parseString (skipWhitespace cs)
    if key∈done.map Prod.fst then .error duplicateKey
    else
      let cs ← consume ':' (skipWhitespace cs)
      let (value,cs) ← parseValue maxDepth fuel (depth+1) (skipWhitespace cs)
      if (skipWhitespace cs).head? = some '}' then .ok (done++[(key,value)],(skipWhitespace cs).tail)
      else
        let cs ← consume ',' (skipWhitespace cs)
        parseMembers maxDepth fuel depth (done++[(key,value)]) cs

/-- The loop of `parseArray`. -/
def parseElements (maxDepth fuel depth : Nat) (done : List Value) (cs : List Char) :
    Except StrictJsonError (List Value × List Char) :=
  match fuel with
  | 0 => .error invalidJson
  | fuel+1 => do
    let (value,cs) ← parseValue maxDepth fuel (depth+1) cs
    if (skipWhitespace cs).head? = some ']' then .ok (done++[value],(skipWhitespace cs).tail)
    else
      let cs ← consume ',' (skipWhitespace cs)
      parseElements maxDepth fuel depth (done++[value]) (skipWhitespace cs)

end

def parseStrictJson (bytes : List UInt8) (maxDepth : Nat) : Except StrictJsonError Value :=
  match decodeUtf8 bytes with
  | none => .error { code := .invalidUtf8 }
  | some text => do
    let (value,rest) ← parseValue maxDepth (2 * text.toList.length+1) 1 (skipWhitespace text.toList)
    if skipWhitespace rest=[] then .ok value else .error invalidJson

/-- `none` when the size is refused. -/
def parseStrict (bytes : List UInt8) (maximum : Nat) : Option (Except StrictJsonError Value) :=
  if maximum < bytes.length then none else some (parseStrictJson bytes jsonMaxDepth)

/-! ## Parity

Both parsers take the same steps on the same text; only what they say of a refusal differs. -/

open StrictJson (space value fields items)

theorem skipWhitespace_eq (cs : List Char) : skipWhitespace cs=space cs := by
  have hpred : isWhitespace=StrictJson.isSpace := by
    funext c
    rw [isWhitespace,StrictJson.isSpace]
    cases c == '\t' <;> cases c == '\n' <;> cases c == '\r' <;> cases c == ' ' <;> rfl
  rw [skipWhitespace,space,hpred]

theorem space_space (cs : List Char) : space (space cs)=space cs := List.dropWhile_idempotent _ cs

private theorem consume_eq (expected : Char) (cs : List Char) :
    (consume expected cs).toOption=(StrictJson.consume expected cs).toOption := by
  cases cs with
  | nil => rfl
  | cons c cs =>
    rw [consume,StrictJson.consume]
    split_ifs <;> rfl

private theorem literal_eq (word : List Char) (v : Value) (cs : List Char) :
    (consumeLiteral word v cs).toOption=(StrictJson.literal word v cs).toOption := by
  have hiff : cs.take word.length=word ↔ word.isPrefixOf cs=true := by
    rw [List.isPrefixOf_iff_prefix,List.prefix_iff_eq_take,eq_comm]
  rw [consumeLiteral,StrictJson.literal]
  by_cases h : word.isPrefixOf cs=true
  · rw [if_pos (hiff.mpr h),if_pos h]
    rfl
  · rw [if_neg (fun h' => h (hiff.mp h')),if_neg h]
    rfl

end ServerStrictJson

namespace Lexer

def IsNumeric (c : Char) : Prop :=
  c.isDigit=true ∨ c = '-' ∨ c = '+' ∨ c = '.' ∨ c = 'e' ∨ c = 'E'

variable {ε δ : Type} (error : ε)

private theorem digits_eq (other : δ) (nonzero : Bool) (cs : List Char) :
    (digits error nonzero cs).toOption=(digits other nonzero cs).toOption := by
  cases cs with
  | nil => rfl
  | cons c cs =>
    rw [digits,digits]
    split_ifs <;> rfl

private theorem whole_eq (other : δ) (cs : List Char) :
    (whole error cs).toOption=(whole other cs).toOption := by
  unfold whole
  split
  · rfl
  · exact digits_eq error other true cs

private theorem fraction_eq (other : δ) (cs : List Char) :
    (fraction error cs).toOption=(fraction other cs).toOption := by
  unfold fraction
  split
  · rw [Outcome.toOption_map,Outcome.toOption_map,digits_eq error other]
  · rfl

private theorem exponent_eq (other : δ) (cs : List Char) :
    (exponent error cs).toOption=(exponent other cs).toOption := by
  cases cs with
  | nil => rfl
  | cons c cs =>
    rw [exponent,exponent]
    split_ifs
    · simp only [Outcome.toOption_map]
      rw [digits_eq error other]
    · rfl

theorem number_eq (other : δ) (cs : List Char) :
    (number error cs).toOption=(number other cs).toOption := by
  rw [number,number]
  simp only [Outcome.toOption_bind]
  rw [whole_eq error other]
  apply Option.bind_congr
  rintro ⟨w,r1⟩ -
  simp only
  rw [fraction_eq error other]
  apply Option.bind_congr
  rintro ⟨f,r2⟩ -
  simp only
  rw [exponent_eq error other]
  apply Option.bind_congr
  rintro ⟨e,r3⟩ -
  rfl

private theorem numeric_digits {error : ε} {nonzero : Bool} {cs taken rest : List Char}
    (h : digits error nonzero cs=.ok (taken,rest)) : ∀ c∈taken, IsNumeric c := by
  intro c hc
  cases cs with
  | nil => exact absurd h (by simp [digits])
  | cons d cs =>
    rw [digits] at h
    split_ifs at h
    obtain ⟨rfl,rfl⟩ := Prod.mk.inj (Except.ok.inj h)
    exact Or.inl (List.mem_takeWhile_imp hc)

/-- A number's text is made of its characters only. -/
theorem numeric_number {error : ε} {cs taken rest : List Char} (h : number error cs=.ok (taken,rest)) :
    ∀ c∈taken, IsNumeric c := by
  obtain ⟨⟨w,r1⟩,hw,h⟩ := Outcome.bind_ok h
  obtain ⟨⟨f,r2⟩,hf,h⟩ := Outcome.bind_ok h
  obtain ⟨⟨e,r3⟩,he,h⟩ := Outcome.bind_ok h
  obtain ⟨rfl,rfl⟩ := Prod.mk.inj (Except.ok.inj h)
  have hsign : ∀ c∈(sign cs).1, IsNumeric c := by
    unfold sign
    split
    · simp [IsNumeric]
    · simp
  have hwho : ∀ c∈w, IsNumeric c := by
    unfold whole at hw
    split at hw
    · obtain ⟨rfl,rfl⟩ := Prod.mk.inj (Except.ok.inj hw)
      simp [IsNumeric]
    · exact numeric_digits hw
  have hfra : ∀ c∈f, IsNumeric c := by
    unfold fraction at hf
    split at hf
    · obtain ⟨⟨ds,r⟩,hds,heq⟩ := Outcome.map_ok hf
      obtain ⟨rfl,rfl⟩ := Prod.mk.inj heq
      exact List.forall_mem_cons.mpr ⟨by simp [IsNumeric],numeric_digits hds⟩
    · obtain ⟨rfl,rfl⟩ := Prod.mk.inj (Except.ok.inj hf)
      simp
  have hexp : ∀ c∈e, IsNumeric c := by
    cases r2 with
    | nil =>
      obtain ⟨rfl,rfl⟩ := Prod.mk.inj (Except.ok.inj he)
      simp
    | cons c r2 =>
      rw [exponent] at he
      split_ifs at he with hc
      · obtain ⟨⟨ds,r⟩,hds,heq⟩ := Outcome.map_ok he
        obtain ⟨rfl,rfl⟩ := Prod.mk.inj heq
        refine List.forall_mem_cons.mpr ⟨?_,?_⟩
        · rcases hc with rfl | rfl <;> simp [IsNumeric]
        · intro d hd
          rcases List.mem_append.mp hd with hd | hd
          · unfold exponentSign at hd
            split at hd <;> simp at hd <;> simp [IsNumeric,hd]
          · exact numeric_digits hds d hd
      · obtain ⟨rfl,rfl⟩ := Prod.mk.inj (Except.ok.inj he)
        simp
  intro c hc
  simp only [List.mem_append] at hc
  rcases hc with ((hc | hc) | hc) | hc
  · exact hsign c hc
  · exact hwho c hc
  · exact hfra c hc
  · exact hexp c hc

end Lexer

namespace ServerStrictJson

open StrictJson (space value fields items scanString)

variable {cs rest taken : List Char}

/-- On a number's text `Number` and `str::parse` read the same literal. -/
private theorem numericLiteral_eq {ε : Type} {error : ε} {text : List Char}
    (h : Lexer.number error cs=.ok (text,rest)) :
    Ecma.numericLiteral text=StrictJson.parseF64 text := by
  have hnum := Lexer.numeric_number h
  obtain ⟨-,digits,more,htext,hne,hdig⟩ := Lexer.number_ok h
  have hhead : ∃ c tail, text=c::tail ∧ (c = '-' ∨ c.isDigit=true) := by
    cases hd : digits with
    | nil => exact absurd hd hne
    | cons d ds =>
      have hdit := hdig d (by rw [hd]; exact List.mem_cons_self)
      rw [htext,hd]
      unfold Lexer.sign
      split
      · exact ⟨'-',_,rfl,Or.inl rfl⟩
      · exact ⟨d,_,rfl,Or.inr hdit⟩
  obtain ⟨c,tail,rfl,hc⟩ := hhead
  have hnot : ∀ d, ¬ Lexer.IsNumeric d → d∉tail := fun d hd hmem =>
    hd (hnum d (List.mem_cons_of_mem _ hmem))
  unfold Ecma.numericLiteral
  split
  · rename_i heq
    exact absurd heq (by simp)
  all_goals try
    rename_i heq
    refine absurd ((List.cons.inj heq).2 ▸ List.mem_cons_self) (hnot _ ?_)
    simp [Lexer.IsNumeric]
  · rename_i heq
    rw [(List.cons.inj heq).1] at hc
    exact absurd hc (by simp)
  · rename_i heq
    rw [heq]
    rfl
  · rename_i hmin
    unfold StrictJson.parseF64
    split
    · rename_i heq
      exact absurd heq (hmin _)
    · rfl

private theorem parseNumber_eq (cs : List Char) :
    (parseNumber cs).toOption=(StrictJson.number cs).toOption := by
  rw [parseNumber,StrictJson.number,Outcome.toOption_bind,Outcome.toOption_bind,
    Lexer.number_eq invalidJson "SMB number syntax"]
  apply Option.bind_congr
  rintro ⟨text,rest⟩ htext
  have hlit := numericLiteral_eq (Outcome.toOption_eq_some.mp htext)
  simp only [hlit]
  cases StrictJson.parseF64 text with
  | none => rfl
  | some q =>
    simp only [Option.bind_some]
    unfold StrictJson.safeNumber
    cases Finite.round q with
    | none => rfl
    | some x =>
      simp only
      split_ifs <;> rfl

/-- `serde_json::from_str::<String>` of a whole literal, by the grammar of strings. -/
def jsonString (cs : List Char) : Option String :=
  match parseString cs with
  | .ok (text,[]) => some text
  | _ => none

/-- What stands after a backslash for one character: it is decoded the same whatever follows, and the
scan for the closing quote steps over it. -/
private structure Escape (taken : List Char) (decoded : Char) : Prop where
  parse : ∀ more, parseEscape (taken++more)=.ok (decoded,more)
  scan : ∀ more, scanString false ('\\' :: (taken++more)) =
    (scanString false more).map fun p => ('\\' :: (taken++p.1),p.2)

/-- The body of a string literal with its closing quote, and the characters it stands for. -/
private inductive Body : List Char → List Char → Prop where
  | close : Body ['"'] []
  | plain {c : Char} {taken out : List Char} (hquote : c ≠ '"') (hcontrol : ¬ c < ' ')
      (hslash : c ≠ '\\') (h : Body taken out) : Body (c::taken) (c::out)
  | escape {e taken out : List Char} {c : Char} (he : Escape e c) (h : Body taken out) :
      Body ('\\' :: (e++taken)) (c::out)

variable {c : Char}

private theorem hexDigit_plain {d : Nat} (h : hexDigit c=.ok d) : c ≠ '"' ∧ c ≠ '\\' := by
  constructor
  · rintro rfl
    exact absurd h (by simp [hexDigit,toDigit])
  · rintro rfl
    exact absurd h (by simp [hexDigit,toDigit])

variable {n : Nat}

private theorem readHexCodeUnit_ok
    (h : readHexCodeUnit cs=.ok (n,rest)) :
    ∃ taken, cs=taken++rest ∧ (∀ more, readHexCodeUnit (taken++more)=.ok (n,more)) ∧
      ∀ more, scanString false (taken++more) =
        (scanString false more).map fun p => (taken++p.1,p.2) := by
  unfold readHexCodeUnit at h
  split at h
  · rename_i a b c d rest'
    obtain ⟨a',ha,h⟩ := Outcome.bind_ok h
    obtain ⟨b',hb,h⟩ := Outcome.bind_ok h
    obtain ⟨c',hc,h⟩ := Outcome.bind_ok h
    obtain ⟨d',hd,h⟩ := Outcome.bind_ok h
    obtain ⟨rfl,rfl⟩ := Prod.mk.inj (Except.ok.inj h)
    refine ⟨[a,b,c,d],rfl,?_,?_⟩
    · intro more
      simp only [List.cons_append,List.nil_append,readHexCodeUnit,ha,hb,hc,hd]
      rfl
    · intro more
      simp only [List.cons_append,List.nil_append]
      rw [StrictJson.scanString_plain (hexDigit_plain ha).1 (hexDigit_plain ha).2,
        StrictJson.scanString_plain (hexDigit_plain hb).1 (hexDigit_plain hb).2,
        StrictJson.scanString_plain (hexDigit_plain hc).1 (hexDigit_plain hc).2,
        StrictJson.scanString_plain (hexDigit_plain hd).1 (hexDigit_plain hd).2]
      simp only [Option.map_map,Function.comp_def]
  · exact absurd h (by simp)

private theorem parseEscapedCodePoint_ok
    (h : parseEscapedCodePoint cs=.ok (c,rest)) :
    ∃ taken, cs=taken++rest ∧ (∀ more, parseEscapedCodePoint (taken++more)=.ok (c,more)) ∧
      ∀ more, scanString false (taken++more) =
        (scanString false more).map fun p => (taken++p.1,p.2) := by
  obtain ⟨⟨high,cs1⟩,hhigh,hnext⟩ := Outcome.bind_ok h
  clear h
  obtain ⟨first,rfl,hread,hscan⟩ := readHexCodeUnit_ok hhigh
  simp only at hnext
  by_cases hlead : 0xd800 ≤ high ∧ high ≤ 0xdbff
  · rw [if_pos hlead] at hnext
    split at hnext
    · rename_i cs2
      obtain ⟨⟨low,cs3⟩,hlow,hlast⟩ := Outcome.bind_ok hnext
      clear hnext
      obtain ⟨second,rfl,hread',hscan'⟩ := readHexCodeUnit_ok hlow
      simp only at hlast
      by_cases hbad : low < 0xdc00 ∨ 0xdfff < low
      · rw [if_pos hbad] at hlast
        exact absurd hlast (by simp)
      · rw [if_neg hbad] at hlast
        obtain ⟨rfl,rfl⟩ := Prod.mk.inj (Except.ok.inj hlast)
        refine ⟨first ++ '\\' :: 'u' :: second,by simp,?_,?_⟩
        · intro more
          rw [List.append_assoc,List.cons_append,List.cons_append,parseEscapedCodePoint,hread]
          simp only [bind,Except.bind,if_pos hlead,hread',if_neg hbad]
          rfl
        · intro more
          rw [List.append_assoc,List.cons_append,List.cons_append,hscan,
            StrictJson.scanString_slash,hscan']
          simp only [Option.map_map,Function.comp_def,List.append_assoc,List.cons_append]
    · exact absurd hnext (by simp)
  · rw [if_neg hlead] at hnext
    by_cases hbad : 0xdc00 ≤ high ∧ high ≤ 0xdfff
    · rw [if_pos hbad] at hnext
      exact absurd hnext (by simp)
    · rw [if_neg hbad] at hnext
      obtain ⟨rfl,rfl⟩ := Prod.mk.inj (Except.ok.inj hnext)
      refine ⟨first,rfl,?_,hscan⟩
      intro more
      rw [parseEscapedCodePoint,hread]
      simp only [bind,Except.bind,if_neg hlead,if_neg hbad]
      rfl

private theorem escape_single {e d : Char} (h : ∀ more, parseEscape (e::more)=.ok (d,more)) :
    Escape [e] d := by
  constructor
  · exact h
  · intro more
    exact StrictJson.scanString_slash e more

private theorem parseEscape_ok (h : parseEscape cs=.ok (c,rest)) :
    ∃ taken, cs=taken++rest ∧ Escape taken c := by
  cases cs with
  | nil => exact absurd h (by simp [parseEscape])
  | cons e cs =>
    have hsin : ∀ d, (∀ more, parseEscape (e::more)=.ok (d,more)) →
        ∃ taken, e::cs=taken++rest ∧ Escape taken c := by
      intro d hd
      rw [hd] at h
      obtain ⟨rfl,rfl⟩ := Prod.mk.inj (Except.ok.inj h)
      exact ⟨[e],rfl,escape_single hd⟩
    by_cases h1 : e = '"' ∨ e = '\\' ∨ e = '/'
    · exact hsin e fun more => by rw [parseEscape,if_pos h1]
    by_cases h2 : e = 'b'
    · exact hsin _ fun more => by rw [parseEscape,if_neg h1,if_pos h2]
    by_cases h3 : e = 'f'
    · exact hsin _ fun more => by rw [parseEscape,if_neg h1,if_neg h2,if_pos h3]
    by_cases h4 : e = 'n'
    · exact hsin _ fun more => by rw [parseEscape,if_neg h1,if_neg h2,if_neg h3,if_pos h4]
    by_cases h5 : e = 'r'
    · exact hsin _ fun more => by
        rw [parseEscape,if_neg h1,if_neg h2,if_neg h3,if_neg h4,if_pos h5]
    by_cases h6 : e = 't'
    · exact hsin _ fun more => by
        rw [parseEscape,if_neg h1,if_neg h2,if_neg h3,if_neg h4,if_neg h5,if_pos h6]
    have hrest : ∀ more, parseEscape (e::more) =
        if e = 'u' then parseEscapedCodePoint more else .error invalidJson := by
      intro more
      rw [parseEscape,if_neg h1,if_neg h2,if_neg h3,if_neg h4,if_neg h5,if_neg h6]
    rw [hrest] at h
    split_ifs at h with h7
    obtain ⟨taken,rfl,hpar,hscan⟩ := parseEscapedCodePoint_ok h
    refine ⟨e::taken,rfl,?_,?_⟩
    · intro more
      rw [List.cons_append,hrest,if_pos h7,hpar]
    · intro more
      rw [List.cons_append,StrictJson.scanString_slash,hscan]
      simp only [Option.map_map,Function.comp_def,List.cons_append]

variable {o : List Char}

private theorem stringBody_of_body (h : Body taken o) (rest out : List Char)
    (fuel : Nat) (hfuel : taken.length ≤ fuel) :
    stringBody fuel out (taken++rest)=.ok (out++o,rest) := by
  induction h generalizing out fuel with
  | close =>
    obtain ⟨fuel,rfl⟩ : ∃ n, fuel=n+1 := ⟨fuel - 1,by simp at hfuel; omega⟩
    simp [stringBody]
  | @plain c taken o hquo hcon hsla _ ih =>
    rw [List.length_cons] at hfuel
    obtain ⟨fuel,rfl⟩ : ∃ n, fuel=n+1 := ⟨fuel - 1,by omega⟩
    rw [List.cons_append,stringBody,if_neg hquo,if_neg hcon,if_pos hsla,
      ih (out++[c]) fuel (by omega),List.append_assoc]
    rfl
  | @escape e taken o c he _ ih =>
    rw [List.length_cons,List.length_append] at hfuel
    obtain ⟨fuel,rfl⟩ : ∃ n, fuel=n+1 := ⟨fuel - 1,by omega⟩
    rw [List.cons_append,List.append_assoc,stringBody,if_neg (by decide),if_neg (by decide),
      if_neg (by simp),he.parse]
    simp only [bind,Except.bind]
    rw [ih (out++[c]) fuel (by omega),List.append_assoc]
    rfl

private theorem body_of_stringBody {fuel : Nat} {out out' : List Char}
    (h : stringBody fuel out cs=.ok (out',rest)) :
    ∃ taken o, cs=taken++rest ∧ Body taken o ∧ out'=out++o := by
  induction fuel generalizing cs out with
  | zero => exact absurd h (by simp [stringBody])
  | succ fuel ih =>
    cases cs with
    | nil => exact absurd h (by simp [stringBody])
    | cons c cs =>
      rw [stringBody] at h
      split_ifs at h with hquo hcon hsla
      · obtain ⟨rfl,rfl⟩ := Prod.mk.inj (Except.ok.inj h)
        exact ⟨['"'],[],by rw [hquo]; rfl,.close,by simp⟩
      · obtain ⟨taken,o,rfl,hbody,rfl⟩ := ih h
        exact ⟨c::taken,c::o,rfl,.plain hquo hcon hsla hbody,by simp⟩
      · obtain ⟨⟨d,cs1⟩,hd,h⟩ := Outcome.bind_ok h
        obtain ⟨taken,o,rfl,hbody,rfl⟩ := ih h
        obtain ⟨e,rfl,he⟩ := parseEscape_ok hd
        rw [not_not] at hsla
        exact ⟨'\\' :: (e++taken),d::o,by rw [hsla]; simp,.escape he hbody,by simp⟩

private theorem scanString_body (h : Body taken o) (rest : List Char) :
    scanString false (taken++rest)=some (taken,rest) := by
  induction h with
  | close => simp [scanString]
  | plain hquo _ hsla _ ih =>
    rw [List.cons_append,StrictJson.scanString_plain hquo hsla,ih]
    rfl
  | escape he _ ih =>
    rw [List.cons_append,List.append_assoc,he.scan,ih]
    rfl

variable {text : String}

private theorem parseString_eq_ok :
    parseString cs=.ok (text,rest) ↔
      ∃ taken o, cs = '"' :: (taken++rest) ∧ Body taken o ∧ text=String.ofList o := by
  constructor
  · intro h
    obtain ⟨body,hbody,h⟩ := Outcome.bind_ok h
    obtain ⟨⟨out,r⟩,hout,h⟩ := Outcome.bind_ok h
    obtain ⟨rfl,rfl⟩ := Prod.mk.inj (Except.ok.inj h)
    obtain ⟨taken,o,rfl,hb,ho⟩ := body_of_stringBody hout
    have hcs : cs = '"' :: (taken++r) := by
      cases cs with
      | nil => exact absurd hbody (by simp [consume])
      | cons c cs =>
        rw [consume] at hbody
        split_ifs at hbody with hc
        rw [hc,Except.ok.inj hbody]
    exact ⟨taken,o,hcs,hb,by rw [ho,List.nil_append]⟩
  · rintro ⟨taken,o,rfl,hb,rfl⟩
    have hbody := stringBody_of_body hb rest [] ((taken++rest).length+1) (by
      rw [List.length_append]
      omega)
    rw [parseString,consume,if_pos rfl]
    simp only [bind,Except.bind,hbody]
    rfl

private theorem jsonString_eq_some :
    jsonString ('"' :: taken)=some text ↔ ∃ o, Body taken o ∧ text=String.ofList o := by
  have hpar : jsonString ('"' :: taken)=some text ↔ parseString ('"' :: taken)=.ok (text,[]) := by
    rw [jsonString]
    split
    · rename_i t heq
      rw [heq]
      simp
    · rename_i hoth
      constructor
      · intro h
        exact absurd h (by simp)
      · intro h
        exact absurd h (hoth text)
  rw [hpar,parseString_eq_ok]
  simp

/-! ### The grammar of strings

RFC 8259, section 7, apart from either parser. -/

def HexUnit (cs : List Char) (n : Nat) : Prop :=
  ∃ a b c d a' b' c' d', cs=[a,b,c,d] ∧ toDigit 16 a=some a' ∧ toDigit 16 b=some b' ∧
    toDigit 16 c=some c' ∧ toDigit 16 d=some d' ∧ n=((a' * 16+b') * 16+c') * 16+d'

/-- What stands after a backslash and the character it means; a surrogate needs its other half. -/
inductive Escaped : List Char → Char → Prop where
  | quote : Escaped ['"'] '"'
  | backslash : Escaped ['\\'] '\\'
  | slash : Escaped ['/'] '/'
  | backspace : Escaped ['b'] (Char.ofNat 8)
  | formFeed : Escaped ['f'] (Char.ofNat 12)
  | lineFeed : Escaped ['n'] (Char.ofNat 10)
  | carriageReturn : Escaped ['r'] (Char.ofNat 13)
  | tab : Escaped ['t'] (Char.ofNat 9)
  | unit {h : List Char} {n : Nat} (hex : HexUnit h n) (plain : ¬ (0xd800 ≤ n ∧ n ≤ 0xdfff)) :
      Escaped ('u' :: h) (Char.ofNat n)
  | pair {h l : List Char} {high low : Nat} (hex : HexUnit h high) (hex' : HexUnit l low)
      (first : 0xd800 ≤ high ∧ high ≤ 0xdbff) (second : 0xdc00 ≤ low ∧ low ≤ 0xdfff) :
      Escaped ('u' :: (h ++ '\\' :: 'u' :: l))
        (Char.ofNat (0x10000+(high - 0xd800) * 0x400+(low - 0xdc00)))

inductive StringBody : List Char → List Char → Prop where
  | nil : StringBody [] []
  | unescaped {c : Char} {body out : List Char} (quote : c ≠ '"') (backslash : c ≠ '\\')
      (control : ¬ c < ' ') (rest : StringBody body out) : StringBody (c::body) (c::out)
  | escaped {e body out : List Char} {c : Char} (escape : Escaped e c) (rest : StringBody body out) :
      StringBody ('\\' :: (e++body)) (c::out)

private theorem readHexCodeUnit_hexUnit {h : List Char} (hex : HexUnit h n)
    (more : List Char) : readHexCodeUnit (h++more)=.ok (n,more) := by
  obtain ⟨a,b,c,d,a',b',c',d',rfl,ha,hb,hc,hd,rfl⟩ := hex
  simp only [List.cons_append,List.nil_append,readHexCodeUnit,hexDigit,ha,hb,hc,hd]
  rfl

private theorem toDigit_of_hexDigit {d : Nat} (h : hexDigit c=.ok d) :
    toDigit 16 c=some d := by
  rw [hexDigit] at h
  cases hd : toDigit 16 c with
  | none =>
    rw [hd] at h
    cases h
  | some d' =>
    rw [hd] at h
    rw [Except.ok.inj h]

private theorem hexUnit_of_readHexCodeUnit
    (h : readHexCodeUnit cs=.ok (n,rest)) : ∃ taken, cs=taken++rest ∧ HexUnit taken n := by
  unfold readHexCodeUnit at h
  split at h
  · rename_i a b c d rest'
    obtain ⟨a',ha,h⟩ := Outcome.bind_ok h
    obtain ⟨b',hb,h⟩ := Outcome.bind_ok h
    obtain ⟨c',hc,h⟩ := Outcome.bind_ok h
    obtain ⟨d',hd,h⟩ := Outcome.bind_ok h
    obtain ⟨rfl,rfl⟩ := Prod.mk.inj (Except.ok.inj h)
    exact ⟨[a,b,c,d],rfl,a,b,c,d,a',b',c',d',rfl,toDigit_of_hexDigit ha,
      toDigit_of_hexDigit hb,toDigit_of_hexDigit hc,toDigit_of_hexDigit hd,rfl⟩
  · exact absurd h (by simp)

private theorem parseEscape_escaped {e : List Char} (h : Escaped e c) (more : List Char) :
    parseEscape (e++more)=.ok (c,more) := by
  cases h with
  | unit hex plain =>
    rw [List.cons_append,parseEscape]
    rw [if_neg (by decide),if_neg (by decide),if_neg (by decide),if_neg (by decide),
      if_neg (by decide),if_neg (by decide),if_pos rfl,parseEscapedCodePoint,
      readHexCodeUnit_hexUnit hex]
    simp only [bind,Except.bind]
    rw [if_neg (by omega),if_neg (by omega)]
    rfl
  | pair hex hex' first second =>
    rw [List.cons_append,parseEscape]
    rw [if_neg (by decide),if_neg (by decide),if_neg (by decide),if_neg (by decide),
      if_neg (by decide),if_neg (by decide),if_pos rfl,parseEscapedCodePoint,List.append_assoc,
      readHexCodeUnit_hexUnit hex]
    simp only [bind,Except.bind,List.cons_append]
    rw [if_pos first]
    simp only [readHexCodeUnit_hexUnit hex']
    rw [if_neg (by omega)]
    rfl
  | _ => rfl

private theorem escaped_of_parseEscapedCodePoint
    (h : parseEscapedCodePoint cs=.ok (c,rest)) :
    ∃ taken, cs=taken++rest ∧ Escaped ('u' :: taken) c := by
  obtain ⟨⟨high,cs1⟩,hhigh,hnext⟩ := Outcome.bind_ok h
  obtain ⟨first,rfl,hex⟩ := hexUnit_of_readHexCodeUnit hhigh
  simp only at hnext
  split_ifs at hnext with hlead hbad
  · split at hnext
    · obtain ⟨⟨low,cs2⟩,hlow,hlast⟩ := Outcome.bind_ok hnext
      obtain ⟨second,rfl,hex'⟩ := hexUnit_of_readHexCodeUnit hlow
      simp only at hlast
      split_ifs at hlast with hout
      obtain ⟨rfl,rfl⟩ := Prod.mk.inj (Except.ok.inj hlast)
      exact ⟨first ++ '\\' :: 'u' :: second,by simp,.pair hex hex' hlead (by omega)⟩
    · exact absurd hnext (by simp)
  · obtain ⟨rfl,rfl⟩ := Prod.mk.inj (Except.ok.inj hnext)
    exact ⟨first,rfl,.unit hex (by omega)⟩

private theorem escaped_of_parseEscape
    (h : parseEscape cs=.ok (c,rest)) : ∃ taken, cs=taken++rest ∧ Escaped taken c := by
  cases cs with
  | nil => exact absurd h (by simp [parseEscape])
  | cons e cs =>
    rw [parseEscape] at h
    split_ifs at h with h1 h2 h3 h4 h5 h6 h7
    · obtain ⟨rfl,rfl⟩ := Prod.mk.inj (Except.ok.inj h)
      rcases h1 with rfl | rfl | rfl
      · exact ⟨_,rfl,.quote⟩
      · exact ⟨_,rfl,.backslash⟩
      · exact ⟨_,rfl,.slash⟩
    · obtain ⟨rfl,rfl⟩ := Prod.mk.inj (Except.ok.inj h)
      exact ⟨[e],rfl,by rw [h2]; exact .backspace⟩
    · obtain ⟨rfl,rfl⟩ := Prod.mk.inj (Except.ok.inj h)
      exact ⟨[e],rfl,by rw [h3]; exact .formFeed⟩
    · obtain ⟨rfl,rfl⟩ := Prod.mk.inj (Except.ok.inj h)
      exact ⟨[e],rfl,by rw [h4]; exact .lineFeed⟩
    · obtain ⟨rfl,rfl⟩ := Prod.mk.inj (Except.ok.inj h)
      exact ⟨[e],rfl,by rw [h5]; exact .carriageReturn⟩
    · obtain ⟨rfl,rfl⟩ := Prod.mk.inj (Except.ok.inj h)
      exact ⟨[e],rfl,by rw [h6]; exact .tab⟩
    · obtain ⟨taken,rfl,hesc⟩ := escaped_of_parseEscapedCodePoint h
      exact ⟨e::taken,rfl,by rw [h7]; exact hesc⟩

private theorem escape_iff {e : List Char} : Escape e c ↔ Escaped e c := by
  constructor
  · intro h
    obtain ⟨taken,htak,hesc⟩ := escaped_of_parseEscape (h.parse [])
    rw [List.append_nil,List.append_nil] at htak
    rw [htak]
    exact hesc
  · intro h
    obtain ⟨taken,htak,hese⟩ := parseEscape_ok (parseEscape_escaped h [])
    rw [List.append_nil,List.append_nil] at htak
    rw [htak]
    exact hese

private theorem body_iff :
    Body taken o ↔ ∃ body, taken=body++['"'] ∧ StringBody body o := by
  constructor
  · intro h
    induction h with
    | close => exact ⟨[],rfl,.nil⟩
    | plain hquo hcon hsla _ ih =>
      obtain ⟨body,rfl,hbody⟩ := ih
      exact ⟨_::body,rfl,.unescaped hquo hsla hcon hbody⟩
    | escape he _ ih =>
      obtain ⟨body,rfl,hbody⟩ := ih
      exact ⟨_,by rw [← List.append_assoc]; rfl,.escaped (escape_iff.mp he) hbody⟩
  · rintro ⟨body,rfl,h⟩
    induction h with
    | nil => exact .close
    | unescaped hquo hsla hcon _ ih => exact .plain hquo hcon hsla ih
    | escaped he _ ih =>
      rw [List.cons_append,List.append_assoc]
      exact .escape (escape_iff.mpr he) ih

theorem jsonString_eq_some_iff {body : List Char} :
    jsonString ('"' :: (body++['"']))=some text ↔ StringBody body text.toList := by
  rw [jsonString_eq_some]
  constructor
  · rintro ⟨o,hb,rfl⟩
    obtain ⟨body',hbody,hstr⟩ := body_iff.mp hb
    rw [List.append_cancel_right hbody,String.toList_ofList]
    exact hstr
  · intro h
    exact ⟨text.toList,body_iff.mpr ⟨body,rfl,h⟩,String.ofList_toList.symm⟩

private theorem scanString_quoted {escaped : Bool}
    (h : StrictJson.scanString escaped cs=some (taken,rest)) : ∃ body, taken=body++['"'] := by
  induction cs generalizing escaped taken with
  | nil => exact absurd h (by simp [StrictJson.scanString])
  | cons c cs ih =>
    rw [StrictJson.scanString] at h
    split_ifs at h
    · obtain ⟨rfl,rfl⟩ := Prod.mk.inj (Option.some.inj h)
      exact ⟨[],rfl⟩
    · obtain ⟨⟨t,r⟩,ht,heq⟩ := Option.map_eq_some_iff.mp h
      obtain ⟨rfl,rfl⟩ := Prod.mk.inj heq
      obtain ⟨body,rfl⟩ := ih ht
      exact ⟨c::body,rfl⟩

theorem parseString_eq {fromStr : List Char → Option String}
    (hserde : ∀ body, fromStr ('"' :: (body++['"']))=jsonString ('"' :: (body++['"'])))
    (cs : List Char) : (parseString cs).toOption=(StrictJson.string fromStr cs).toOption := by
  apply Option.ext
  rintro ⟨text,rest⟩
  rw [Outcome.toOption_eq_some,Outcome.toOption_eq_some,parseString_eq_ok]
  constructor
  · rintro ⟨taken,o,rfl,hb,rfl⟩
    have hread : fromStr ('"' :: taken)=some (String.ofList o) := by
      obtain ⟨body,rfl,-⟩ := body_iff.mp hb
      rw [hserde]
      exact jsonString_eq_some.mpr ⟨o,hb,rfl⟩
    rw [StrictJson.string,StrictJson.consume,if_pos rfl]
    simp only [bind,Except.bind,scanString_body hb,hread]
    rfl
  · intro h
    obtain ⟨taken,rfl,hscan,hread⟩ := StrictJson.string_ok h
    obtain ⟨body,rfl⟩ := scanString_quoted hscan
    rw [hserde] at hread
    obtain ⟨o,hb,rfl⟩ := jsonString_eq_some.mp hread
    exact ⟨_,o,rfl,hb,rfl⟩

private theorem hexDigit_hexChar (h : n < 16) : hexDigit (hexChar n)=.ok n := by
  have hall : ∀ i : Fin 16, toDigit 16 (hexChar i.val)=some i.val := by decide
  rw [hexDigit,hall ⟨n,h⟩]

private theorem escape_control (h : c.toNat < 32) :
    Escape ['u','0','0',hexChar (c.toNat / 16),hexChar (c.toNat % 16)] c := by
  have hhi := @hexDigit_hexChar (c.toNat / 16) (by omega)
  have hlo := @hexDigit_hexChar (c.toNat % 16) (by omega)
  have hzero : hexDigit '0' = .ok 0 := rfl
  have hread : ∀ more, readHexCodeUnit ('0' :: '0' :: hexChar (c.toNat / 16)::hexChar (c.toNat % 16) ::
      more)=.ok (c.toNat,more) := by
    intro more
    simp only [readHexCodeUnit,hzero,hhi,hlo,bind,Except.bind]
    rw [show ((0 * 16+0) * 16+c.toNat / 16) * 16+c.toNat % 16=c.toNat by omega]
    rfl
  have hpar : ∀ more, parseEscapedCodePoint ('0' :: '0' :: hexChar (c.toNat / 16) ::
      hexChar (c.toNat % 16)::more)=.ok (c,more) := by
    intro more
    rw [parseEscapedCodePoint,hread]
    simp only [bind,Except.bind]
    rw [if_neg (by omega),if_neg (by omega),Char.ofNat_toNat]
    rfl
  constructor
  · intro more
    exact hpar more
  · intro more
    simp only [List.cons_append,List.nil_append]
    rw [StrictJson.scanString_slash,StrictJson.scanString_plain (by decide) (by decide),
      StrictJson.scanString_plain (by decide) (by decide),
      StrictJson.scanString_plain (hexDigit_plain hhi).1 (hexDigit_plain hhi).2,
      StrictJson.scanString_plain (hexDigit_plain hlo).1 (hexDigit_plain hlo).2]
    simp only [Option.map_map,Function.comp_def]

private theorem escapeChar_cases (c : Char) :
    (escapeChar c=[c] ∧ c ≠ '"' ∧ ¬ c < ' ' ∧ c ≠ '\\') ∨
      ∃ e, escapeChar c = '\\' :: e ∧ Escape e c := by
  refine escapeChar_elim (P := fun c t => (t=[c] ∧ c ≠ '"' ∧ ¬ c < ' ' ∧ c ≠ '\\') ∨ ∃ e, t = '\\' :: e ∧ Escape e c) c
    (Or.inr ⟨_,rfl,escape_single fun _ => rfl⟩) (Or.inr ⟨_,rfl,escape_single fun _ => rfl⟩)
    (Or.inr ⟨_,rfl,escape_single fun _ => rfl⟩) (Or.inr ⟨_,rfl,escape_single fun _ => rfl⟩)
    (Or.inr ⟨_,rfl,escape_single fun _ => rfl⟩) (Or.inr ⟨_,rfl,escape_single fun _ => rfl⟩)
    (Or.inr ⟨_,rfl,escape_single fun _ => rfl⟩) (fun hlow => Or.inr ⟨_,rfl,escape_control hlow⟩) ?_
  intro hquo hbac hlow
  refine Or.inl ⟨rfl,hquo,?_,hbac⟩
  intro hlt
  have hnat : c.toNat < 32 := hlt
  exact hlow hnat

private theorem body_quote (cs : List Char) : Body (cs.flatMap escapeChar++['"']) cs := by
  induction cs with
  | nil => exact .close
  | cons c cs ih =>
    rw [List.flatMap_cons,List.append_assoc]
    rcases escapeChar_cases c with ⟨hself,hquo,hcon,hsla⟩ | ⟨e,he,hesc⟩
    · rw [hself]
      exact .plain hquo hcon hsla ih
    · rw [he]
      exact .escape hesc ih

theorem jsonString_quote (s : String) : jsonString (quote s)=some s := by
  rw [quote]
  exact jsonString_eq_some.mpr ⟨s.toList,body_quote s.toList,String.ofList_toList.symm⟩

section Parity

variable {fromStr : List Char → Option String}
  (hserde : ∀ body, fromStr ('"' :: (body++['"']))=jsonString ('"' :: (body++['"'])))

include hserde

private theorem parity (fuel : Nat) :
    (∀ depth cs, (parseValue jsonMaxDepth fuel (depth+1) (space cs)).toOption =
      (value fromStr fuel depth cs).toOption) ∧
    (∀ depth done cs, (parseMembers jsonMaxDepth fuel (depth+1) done cs).toOption =
      (fields fromStr fuel depth done cs).toOption) ∧
    (∀ depth done cs, (parseElements jsonMaxDepth fuel (depth+1) done (space cs)).toOption =
      (items fromStr fuel depth done cs).toOption) := by
  induction fuel with
  | zero =>
    refine ⟨?_,?_,?_⟩
    · intro depth cs
      rw [parseValue,value]
      rfl
    · intro depth done cs
      rw [parseMembers,fields]
      rfl
    · intro depth done cs
      rw [parseElements,items]
      rfl
  | succ fuel ih =>
    obtain ⟨ihvalue,ihmembers,ihelements⟩ := ih
    refine ⟨?_,?_,?_⟩
    · intro depth cs
      rw [value]
      cases hcs : space cs with
      | nil => rfl
      | cons c rest =>
        have hdep : (jsonMaxDepth+1 < depth+1)=(jsonMaxDepth < depth) :=
          propext Nat.add_lt_add_iff_right
        have hmem := ihmembers depth [] (space rest)
        have hele := ihelements depth [] (space rest)
        rw [space_space] at hele
        rw [parseValue]
        simp only [skipWhitespace_eq,hdep]
        by_cases hbra : c = '{'
        · rw [if_pos hbra,if_pos hbra]
          split_ifs
          · rfl
          · rfl
          · rw [Outcome.toOption_map,Outcome.toOption_map,hmem]
        rw [if_neg hbra,if_neg hbra]
        by_cases hbrt : c = '['
        · rw [if_pos hbrt,if_pos hbrt]
          split_ifs
          · rfl
          · rfl
          · rw [Outcome.toOption_map,Outcome.toOption_map,hele]
        rw [if_neg hbrt,if_neg hbrt]
        by_cases hquo : c = '"'
        · rw [if_pos hquo,if_pos hquo,Outcome.toOption_map,Outcome.toOption_map,
            parseString_eq hserde]
        rw [if_neg hquo,if_neg hquo]
        by_cases hnum : (c = '-' || c.isDigit)=true
        · have hlet : c ≠ 't' ∧ c ≠ 'f' ∧ c ≠ 'n' := by
            refine ⟨?_,?_,?_⟩
            all_goals
              rintro rfl
              exact absurd hnum (by decide)
          rw [if_neg hlet.1,if_neg hlet.2.1,if_neg hlet.2.2,if_pos hnum,if_pos hnum,
            parseNumber_eq]
        rw [if_neg hnum,if_neg hnum]
        split_ifs
        · exact literal_eq _ _ _
        · exact literal_eq _ _ _
        · exact literal_eq _ _ _
        · rfl
    · intro depth done cs
      rw [parseMembers,fields,Outcome.toOption_bind,Outcome.toOption_bind,skipWhitespace_eq,
        parseString_eq hserde]
      apply Option.bind_congr
      rintro ⟨name,cs1⟩ -
      simp only [skipWhitespace_eq]
      by_cases hdup : name∈done.map Prod.fst
      · rw [if_pos hdup,Outcome.toOption_bind]
        simp [hdup]
      · simp only [if_neg hdup]
        rw [Outcome.toOption_bind,Outcome.toOption_bind,consume_eq]
        apply Option.bind_congr
        intro cs2 _
        rw [Outcome.toOption_bind,Outcome.toOption_bind,ihvalue (depth+1) cs2]
        apply Option.bind_congr
        rintro ⟨v,cs3⟩ -
        simp only
        split_ifs
        · rfl
        · rw [Outcome.toOption_bind,Outcome.toOption_bind,consume_eq]
          apply Option.bind_congr
          intro cs4 _
          exact ihmembers depth _ cs4
    · intro depth done cs
      rw [parseElements,items,Outcome.toOption_bind,Outcome.toOption_bind,ihvalue (depth+1) cs]
      apply Option.bind_congr
      rintro ⟨v,cs1⟩ -
      simp only [skipWhitespace_eq]
      split_ifs
      · rfl
      · rw [Outcome.toOption_bind,Outcome.toOption_bind,consume_eq]
        apply Option.bind_congr
        intro cs2 _
        exact ihelements depth _ cs2

/-- The server's parser and the daemon's accept the same bytes, with the same value. -/
theorem parseStrictJson_eq (bytes : List UInt8) (maximum : Nat) (h : bytes.length ≤ maximum) :
    (parseStrictJson bytes jsonMaxDepth).toOption=(StrictJson.parse fromStr bytes maximum).toOption := by
  rw [parseStrictJson,StrictJson.parse,if_neg (not_lt.mpr h)]
  cases decodeUtf8 bytes with
  | none => rfl
  | some text =>
    simp only
    rw [Outcome.toOption_bind,Outcome.toOption_bind,skipWhitespace_eq,(parity hserde _).1 0]
    apply Option.bind_congr
    rintro ⟨v,rest⟩ -
    simp only [skipWhitespace_eq]
    split_ifs <;> rfl

end Parity

/-- For every byte string and size limit both parsers refuse, or both accept with one value, if the
crate's string reader follows the grammar of strings. -/
theorem strict_json_parity (fromStr : List Char → Option String)
    (hserde : ∀ body text, fromStr ('"' :: (body++['"']))=some text ↔ StringBody body text.toList)
    (bytes : List UInt8) (maximum : Nat) :
    (parseStrict bytes maximum).bind Except.toOption =
      (StrictJson.parse fromStr bytes maximum).toOption := by
  have hread : ∀ body, fromStr ('"' :: (body++['"']))=jsonString ('"' :: (body++['"'])) := by
    intro body
    apply Option.ext
    intro text
    rw [hserde,jsonString_eq_some_iff]
  by_cases hsize : maximum < bytes.length
  · rw [parseStrict,StrictJson.parse,if_pos hsize,if_pos hsize]
    rfl
  · rw [parseStrict,if_neg hsize]
    exact parseStrictJson_eq hread bytes maximum (not_lt.mp hsize)

theorem strict_json_parity_escape :
    (parseStrict [91,34,92,117,48,48,52,49,34,93] 64).bind Except.toOption =
      (StrictJson.parse jsonString [91,34,92,117,48,48,52,49,34,93] 64).toOption :=
  strict_json_parity jsonString (fun _ _ => jsonString_eq_some_iff) _ 64

end ServerStrictJson

end CastleWall.Smb
