import CastleWall.Smb.Jcs

/-! # The daemon's strict JSON parser

`smb/strict_json.rs` over the characters of a text. Every byte the source tests is ASCII, so its
positions lie between characters. `serde_json`'s reader of a string literal is a parameter. -/

namespace CastleWall.Smb

open Binary64 Json Text

namespace Lexer

variable {ε : Type}

/-- A run of digits, of at least one; `nonzero` excludes a leading zero. -/
def digits (error : ε) (nonzero : Bool) (cs : List Char) : Except ε (List Char × List Char) :=
  match cs with
  | [] => .error error
  | c::_ =>
    if !c.isDigit || (nonzero && c == '0') then .error error
    else .ok (cs.takeWhile Char.isDigit,cs.dropWhile Char.isDigit)

def sign : List Char → List Char × List Char
  | '-' :: rest => (['-'],rest)
  | cs => ([],cs)

def whole (error : ε) : List Char → Except ε (List Char × List Char)
  | '0' :: rest => .ok (['0'],rest)
  | cs => digits error true cs

def fraction (error : ε) : List Char → Except ε (List Char × List Char)
  | '.' :: rest => (digits error false rest).map fun p => ('.' :: p.1,p.2)
  | cs => .ok ([],cs)

def exponentSign : List Char → List Char × List Char
  | '+' :: rest => (['+'],rest)
  | '-' :: rest => (['-'],rest)
  | cs => ([],cs)

def exponent (error : ε) : List Char → Except ε (List Char × List Char)
  | [] => .ok ([],[])
  | c::rest =>
    if c = 'e' ∨ c = 'E' then
      let signed := exponentSign rest
      (digits error false signed.2).map fun p => (c::(signed.1++p.1),p.2)
    else .ok ([],c::rest)

def number (error : ε) (cs : List Char) : Except ε (List Char × List Char) := do
  let signed := sign cs
  let (whole,cs) ← whole error signed.2
  let (fraction,cs) ← fraction error cs
  let (exponent,cs) ← exponent error cs
  return (signed.1++whole++fraction++exponent,cs)

variable {error : ε} {cs taken rest : List Char}

private theorem digits_ok {nonzero : Bool}
    (h : digits error nonzero cs=.ok (taken,rest)) :
    cs=taken++rest ∧ taken≠[] ∧ ∀ c∈taken, c.isDigit=true := by
  cases cs with
  | nil => exact absurd h (by simp [digits])
  | cons c cs =>
    rw [digits] at h
    split_ifs at h with href
    obtain ⟨rfl,rfl⟩ := Prod.mk.inj (Except.ok.inj h)
    refine ⟨(List.takeWhile_append_dropWhile).symm,?_,?_⟩
    · have hdig : c.isDigit=true := by
        by_contra hc
        exact href (by simp [hc])
      rw [List.takeWhile_cons_of_pos hdig]
      exact List.cons_ne_nil _ _
    · intro d hd
      exact List.mem_takeWhile_imp hd

private theorem sign_split (cs : List Char) : cs=(sign cs).1++(sign cs).2 := by
  unfold sign
  split <;> rfl

private theorem exponentSign_split (cs : List Char) : cs=(exponentSign cs).1++(exponentSign cs).2 := by
  unfold exponentSign
  split <;> rfl

private theorem whole_ok
    (h : whole error cs=.ok (taken,rest)) :
    cs=taken++rest ∧ taken≠[] ∧ ∀ c∈taken, c.isDigit=true := by
  unfold whole at h
  split at h
  · obtain ⟨rfl,rfl⟩ := Prod.mk.inj (Except.ok.inj h)
    exact ⟨rfl,by simp,by simp⟩
  · exact digits_ok h

private theorem fraction_ok
    (h : fraction error cs=.ok (taken,rest)) : cs=taken++rest := by
  unfold fraction at h
  split at h
  · obtain ⟨⟨ds,r⟩,hds,heq⟩ := Outcome.map_ok h
    obtain ⟨rfl,rfl⟩ := Prod.mk.inj heq
    rw [List.cons_append,← (digits_ok hds).1]
  · obtain ⟨rfl,rfl⟩ := Prod.mk.inj (Except.ok.inj h)
    rfl

private theorem exponent_ok
    (h : exponent error cs=.ok (taken,rest)) : cs=taken++rest := by
  cases cs with
  | nil =>
    obtain ⟨rfl,rfl⟩ := Prod.mk.inj (Except.ok.inj h)
    rfl
  | cons c cs =>
    rw [exponent] at h
    split_ifs at h with hc
    · obtain ⟨⟨ds,r⟩,hds,heq⟩ := Outcome.map_ok h
      obtain ⟨rfl,rfl⟩ := Prod.mk.inj heq
      rw [List.cons_append,List.append_assoc,← (digits_ok hds).1,← exponentSign_split]
    · obtain ⟨rfl,rfl⟩ := Prod.mk.inj (Except.ok.inj h)
      rfl

theorem number_ok
    (h : number error cs=.ok (taken,rest)) :
    cs=taken++rest ∧ ∃ digits more : List Char, taken=(sign cs).1++digits++more ∧
      digits≠[] ∧ ∀ c∈digits, c.isDigit=true := by
  obtain ⟨⟨w,r1⟩,hw,h⟩ := Outcome.bind_ok h
  obtain ⟨⟨f,r2⟩,hf,h⟩ := Outcome.bind_ok h
  obtain ⟨⟨e,r3⟩,he,h⟩ := Outcome.bind_ok h
  obtain ⟨rfl,rfl⟩ := Prod.mk.inj (Except.ok.inj h)
  obtain ⟨hspl,hne,hdig⟩ := whole_ok hw
  refine ⟨?_,w,f++e,by simp,hne,hdig⟩
  rw [List.append_assoc,← exponent_ok he,List.append_assoc,← fraction_ok hf,List.append_assoc,
    ← hspl]
  exact sign_split cs

end Lexer

namespace StrictJson

def isSpace (c : Char) : Bool := c == ' ' || c == '\n' || c == '\r' || c == '\t'

def space (cs : List Char) : List Char := cs.dropWhile isSpace

def consume (expected : Char) : List Char → Except String (List Char)
  | [] => .error "SMB JSON syntax"
  | c::rest => if c=expected then .ok rest else .error "SMB JSON syntax"

/-- What the source steps over after an opening quote: up to the first quote with no escape before
it, and what follows. -/
def scanString (escaped : Bool) : List Char → Option (List Char × List Char)
  | [] => none
  | c::rest =>
    if c = '"' ∧ escaped=false then some (['"'],rest)
    else (scanString (c == '\\' && !escaped) rest).map fun p => (c::p.1,p.2)

def string (fromStr : List Char → Option String) (cs : List Char) :
    Except String (String × List Char) := do
  let body ← consume '"' cs
  match scanString false body with
  | none => .error "SMB incomplete string"
  | some (taken,rest) =>
    match fromStr ('"' :: taken) with
    | none => .error "SMB string"
    | some text => return (text,rest)

/-- `str::parse::<f64>` of a number's text, exactly. -/
def parseF64 : List Char → Option ℚ
  | '-' :: cs => (Ecma.decimalLiteral cs).map fun x => -x
  | cs => Ecma.decimalLiteral cs

def safeNumber (x : ℚ) : Except String Value :=
  match Finite.round x with
  | none => .error "SMB numeric domain"
  | some x => if maxSafe < |x.1| then .error "SMB numeric domain" else .ok (.number (.float x))

def number (cs : List Char) : Except String (Value × List Char) := do
  let (text,rest) ← Lexer.number "SMB number syntax" cs
  match parseF64 text with
  | none => .error "SMB number syntax"
  | some x => (safeNumber x).map fun v => (v,rest)

def literal (word : List Char) (value : Value) (cs : List Char) : Except String (Value × List Char) :=
  if word.isPrefixOf cs then .ok (value,cs.drop word.length) else .error "SMB JSON literal"

mutual

/-- One value at the front of the text; `fuel` bounds the nesting of calls, and twice the length of
the text is more than enough. -/
def value (fromStr : List Char → Option String) (fuel depth : Nat) (cs : List Char) :
    Except String (Value × List Char) :=
  match fuel with
  | 0 => .error "SMB JSON syntax"
  | fuel+1 =>
    match space cs with
    | [] => .error "SMB JSON syntax"
    | c::rest =>
      if c = '{' then
        if jsonMaxDepth < depth then .error "SMB JSON depth"
        else if (space rest).head? = some '}' then .ok (.object [],(space rest).tail)
        else (fields fromStr fuel depth [] (space rest)).map fun p => (.object p.1,p.2)
      else if c = '[' then
        if jsonMaxDepth < depth then .error "SMB JSON depth"
        else if (space rest).head? = some ']' then .ok (.array [],(space rest).tail)
        else (items fromStr fuel depth [] (space rest)).map fun p => (.array p.1,p.2)
      else if c = '"' then (string fromStr (c::rest)).map fun p => (.string p.1,p.2)
      else if c = '-' || c.isDigit then number (c::rest)
      else if c = 't' then literal ['t','r','u','e'] (.bool true) (c::rest)
      else if c = 'f' then literal ['f','a','l','s','e'] (.bool false) (c::rest)
      else if c = 'n' then literal ['n','u','l','l'] .null (c::rest)
      else .error "SMB JSON syntax"

def fields (fromStr : List Char → Option String) (fuel depth : Nat) (done : List (String × Value))
    (cs : List Char) : Except String (List (String × Value) × List Char) :=
  match fuel with
  | 0 => .error "SMB JSON syntax"
  | fuel+1 => do
    let (name,cs) ← string fromStr (space cs)
    let cs ← consume ':' (space cs)
    if name∈done.map Prod.fst then .error "SMB duplicate key"
    else
      let (field,cs) ← value fromStr fuel (depth+1) cs
      if (space cs).head? = some '}' then .ok (done++[(name,field)],(space cs).tail)
      else
        let cs ← consume ',' (space cs)
        fields fromStr fuel depth (done++[(name,field)]) cs

def items (fromStr : List Char → Option String) (fuel depth : Nat) (done : List Value)
    (cs : List Char) : Except String (List Value × List Char) :=
  match fuel with
  | 0 => .error "SMB JSON syntax"
  | fuel+1 => do
    let (item,cs) ← value fromStr fuel (depth+1) cs
    if (space cs).head? = some ']' then .ok (done++[item],(space cs).tail)
    else
      let cs ← consume ',' (space cs)
      items fromStr fuel depth (done++[item]) cs

end

def parse (fromStr : List Char → Option String) (bytes : List UInt8) (maximum : Nat) :
    Except String Value :=
  if maximum < bytes.length then .error "SMB JSON size"
  else
    match decodeUtf8 bytes with
    | none => .error "SMB UTF-8"
    | some text => do
      let (value,rest) ← value fromStr (2 * text.toList.length+1) 0 text.toList
      if space rest=[] then .ok value else .error "SMB trailing bytes"

theorem length_space_le (cs : List Char) : (space cs).length ≤ cs.length :=
  (List.dropWhile_suffix _).length_le

variable {cs rest : List Char}

theorem consume_ok {expected : Char} (h : consume expected cs=.ok rest) :
    cs=expected::rest := by
  cases cs with
  | nil => exact absurd h (by simp [consume])
  | cons c cs =>
    rw [consume] at h
    split_ifs at h with hc
    rw [hc,Except.ok.inj h]

theorem scanString_ok {escaped : Bool} {taken : List Char}
    (h : scanString escaped cs=some (taken,rest)) : cs=taken++rest := by
  induction cs generalizing escaped taken with
  | nil => exact absurd h (by simp [scanString])
  | cons c cs ih =>
    rw [scanString] at h
    split_ifs at h with hc
    · obtain ⟨rfl,rfl⟩ := Prod.mk.inj (Option.some.inj h)
      rw [hc.1]
      rfl
    · obtain ⟨⟨t,r⟩,ht,heq⟩ := Option.map_eq_some_iff.mp h
      obtain ⟨rfl,rfl⟩ := Prod.mk.inj heq
      rw [ih ht]
      rfl

variable {fromStr : List Char → Option String}

theorem string_ok {text : String} (h : string fromStr cs=.ok (text,rest)) :
    ∃ taken, cs = '"' :: (taken++rest) ∧ scanString false (taken++rest)=some (taken,rest) ∧
      fromStr ('"' :: taken)=some text := by
  obtain ⟨body,hbod,h⟩ := Outcome.bind_ok h
  cases hsca : scanString false body with
  | none => simp [hsca] at h
  | some p =>
    obtain ⟨taken,r⟩ := p
    simp only [hsca] at h
    cases hrea : fromStr ('"' :: taken) with
    | none => simp [hrea] at h
    | some s =>
      simp only [hrea] at h
      obtain ⟨rfl,rfl⟩ := Prod.mk.inj (Except.ok.inj h)
      have hspl := scanString_ok hsca
      rw [hspl] at hsca
      exact ⟨taken,by rw [consume_ok hbod,hspl],hsca,hrea⟩

theorem length_string {text : String}
    (h : string fromStr cs=.ok (text,rest)) : rest.length < cs.length := by
  obtain ⟨taken,rfl,-,-⟩ := string_ok h
  rw [List.length_cons,List.length_append]
  omega

variable {v : Value}

theorem number_ok (h : number cs=.ok (v,rest)) :
    ∃ (text : List Char) (q : ℚ) (x : Finite),
      Lexer.number "SMB number syntax" cs=.ok (text,rest) ∧ parseF64 text=some q ∧
      nearest q=some x.1 ∧ |x.1| ≤ (maxSafe : ℚ) ∧ v=.number (.float x) := by
  obtain ⟨⟨text,r⟩,htex,h⟩ := Outcome.bind_ok h
  cases hq : parseF64 text with
  | none => simp [hq] at h
  | some q =>
    simp only [hq] at h
    obtain ⟨w,hw,heq⟩ := Outcome.map_ok h
    obtain ⟨rfl,rfl⟩ := Prod.mk.inj heq
    unfold safeNumber at hw
    cases hx : Finite.round q with
    | none => simp [hx] at hw
    | some x =>
      simp only [hx] at hw
      split_ifs at hw with hlar
      exact ⟨text,q,x,htex,hq,Finite.round_eq_some.mp hx,not_lt.mp hlar,
        (Except.ok.inj hw).symm⟩

theorem length_number (h : number cs=.ok (v,rest)) :
    rest.length < cs.length := by
  obtain ⟨text,q,x,htex,-⟩ := number_ok h
  obtain ⟨hspl,digits,more,htak,hne,-⟩ := Lexer.number_ok htex
  have hpos : 0 < digits.length := List.length_pos_iff.mpr hne
  have hlen := congrArg List.length hspl
  rw [htak] at hlen
  simp only [List.length_append] at hlen
  omega

theorem literal_ok {word : List Char} {value : Value} (h : literal word value cs=.ok (v,rest)) :
    v=value ∧ cs=word++rest := by
  rw [literal] at h
  split_ifs at h with hwor
  obtain ⟨rfl,rfl⟩ := Prod.mk.inj (Except.ok.inj h)
  obtain ⟨t,rfl⟩ := List.isPrefixOf_iff_prefix.mp hwor
  rw [List.drop_left]
  exact ⟨rfl,rfl⟩

private theorem head_tail {c : Char} (h : cs.head? = some c) (hres : cs.tail=rest) :
    cs=c::rest := by
  cases cs with
  | nil => exact absurd h (by simp)
  | cons d ds =>
    rw [← hres,Option.some.inj h]
    rfl

variable {fuel depth : Nat}

theorem fields_ok {done fs : List (String × Value)}
    (h : fields fromStr (fuel+1) depth done cs=.ok (fs,rest)) :
    ∃ name cs1 cs2 v cs3, string fromStr (space cs)=.ok (name,cs1) ∧ space cs1 = ':' :: cs2 ∧
      name∉done.map Prod.fst ∧ value fromStr fuel (depth+1) cs2=.ok (v,cs3) ∧
      ((space cs3 = '}' :: rest ∧ fs=done++[(name,v)]) ∨
        ∃ cs4, space cs3 = ',' :: cs4 ∧
          fields fromStr fuel depth (done++[(name,v)]) cs4=.ok (fs,rest)) := by
  rw [fields] at h
  obtain ⟨⟨name,cs1⟩,hnam,h⟩ := Outcome.bind_ok h
  obtain ⟨cs2,hcol,h⟩ := Outcome.bind_ok h
  by_cases hdup : name∈done.map Prod.fst
  · simp only [hdup,if_true] at h
    exact absurd h (by simp)
  · simp only [hdup,if_false] at h
    obtain ⟨⟨v,cs3⟩,hv,h⟩ := Outcome.bind_ok h
    refine ⟨name,cs1,cs2,v,cs3,hnam,consume_ok hcol,hdup,hv,?_⟩
    by_cases hclo : (space cs3).head? = some '}'
    · simp only [hclo,if_true] at h
      obtain ⟨hfs,hres⟩ := Prod.mk.inj (Except.ok.inj h)
      exact Or.inl ⟨head_tail hclo hres,hfs.symm⟩
    · simp only [hclo,if_false] at h
      obtain ⟨cs4,hcom,h⟩ := Outcome.bind_ok h
      exact Or.inr ⟨cs4,consume_ok hcom,h⟩

theorem items_ok {done vs : List Value}
    (h : items fromStr (fuel+1) depth done cs=.ok (vs,rest)) :
    ∃ v cs1, value fromStr fuel (depth+1) cs=.ok (v,cs1) ∧
      ((space cs1 = ']' :: rest ∧ vs=done++[v]) ∨
        ∃ cs2, space cs1 = ',' :: cs2 ∧ items fromStr fuel depth (done++[v]) cs2=.ok (vs,rest)) := by
  rw [items] at h
  obtain ⟨⟨v,cs1⟩,hv,h⟩ := Outcome.bind_ok h
  refine ⟨v,cs1,hv,?_⟩
  by_cases hclo : (space cs1).head? = some ']'
  · simp only [hclo,if_true] at h
    obtain ⟨hvs,hres⟩ := Prod.mk.inj (Except.ok.inj h)
    exact Or.inl ⟨head_tail hclo hres,hvs.symm⟩
  · simp only [hclo,if_false] at h
    obtain ⟨cs2,hcom,h⟩ := Outcome.bind_ok h
    exact Or.inr ⟨cs2,consume_ok hcom,h⟩

/-- Everything a value can be: an object or an array within the depth, or a scalar. -/
theorem value_ok
    (h : value fromStr (fuel+1) depth cs=.ok (v,rest)) :
    (∃ inner fs, space cs = '{' :: inner ∧ depth ≤ jsonMaxDepth ∧ v=.object fs ∧
      ((space inner = '}' :: rest ∧ fs=[]) ∨
        fields fromStr fuel depth [] (space inner)=.ok (fs,rest))) ∨
    (∃ inner vs, space cs = '[' :: inner ∧ depth ≤ jsonMaxDepth ∧ v=.array vs ∧
      ((space inner = ']' :: rest ∧ vs=[]) ∨
        items fromStr fuel depth [] (space inner)=.ok (vs,rest))) ∨
    (v.nesting=0 ∧ rest.length < cs.length) := by
  have hspa := length_space_le cs
  rw [value] at h
  cases hcs : space cs with
  | nil => simp [hcs] at h
  | cons c inner =>
    rw [hcs] at hspa
    simp only [hcs] at h
    split_ifs at h with h1 h2 h3 h4 h5 h6 h7 h8 h9 h10 h11
    · obtain ⟨hv,hres⟩ := Prod.mk.inj (Except.ok.inj h)
      exact Or.inl ⟨inner,[],by rw [h1],not_lt.mp h2,hv.symm,Or.inl ⟨head_tail h3 hres,rfl⟩⟩
    · obtain ⟨⟨fs,r⟩,hfs,heq⟩ := Outcome.map_ok h
      obtain ⟨rfl,rfl⟩ := Prod.mk.inj heq
      exact Or.inl ⟨inner,fs,by rw [h1],not_lt.mp h2,rfl,Or.inr hfs⟩
    · obtain ⟨hv,hres⟩ := Prod.mk.inj (Except.ok.inj h)
      exact Or.inr (Or.inl ⟨inner,[],by rw [h4],not_lt.mp h5,hv.symm,
        Or.inl ⟨head_tail h6 hres,rfl⟩⟩)
    · obtain ⟨⟨vs,r⟩,hvs,heq⟩ := Outcome.map_ok h
      obtain ⟨rfl,rfl⟩ := Prod.mk.inj heq
      exact Or.inr (Or.inl ⟨inner,vs,by rw [h4],not_lt.mp h5,rfl,Or.inr hvs⟩)
    · obtain ⟨⟨text,r⟩,htex,heq⟩ := Outcome.map_ok h
      obtain ⟨rfl,rfl⟩ := Prod.mk.inj heq
      exact Or.inr (Or.inr ⟨rfl,(length_string htex).trans_le hspa⟩)
    · obtain ⟨text,q,x,-,-,-,-,rfl⟩ := number_ok h
      exact Or.inr (Or.inr ⟨rfl,(length_number h).trans_le hspa⟩)
    all_goals
      obtain ⟨rfl,hwor⟩ := literal_ok h
      rw [hwor,List.length_append] at hspa
      refine Or.inr (Or.inr ⟨rfl,lt_of_lt_of_le ?_ hspa⟩)
      exact Nat.lt_add_of_pos_left (by decide)

private theorem length_of_space {c : Char} (h : space cs=c::rest) :
    rest.length < cs.length := by
  have hle := length_space_le cs
  rw [h,List.length_cons] at hle
  omega

private theorem progress (fuel : Nat) :
    (∀ depth cs v rest, value fromStr fuel depth cs=.ok (v,rest) → rest.length < cs.length) ∧
    (∀ depth done cs fs rest, fields fromStr fuel depth done cs=.ok (fs,rest) →
      rest.length < cs.length) ∧
    (∀ depth done cs vs rest, items fromStr fuel depth done cs=.ok (vs,rest) →
      rest.length < cs.length) := by
  induction fuel with
  | zero =>
    refine ⟨?_,?_,?_⟩
    · intro depth cs v rest h
      exact absurd h (by simp [value])
    · intro depth done cs fs rest h
      exact absurd h (by simp [fields])
    · intro depth done cs vs rest h
      exact absurd h (by simp [items])
  | succ fuel ih =>
    obtain ⟨ihvalue,ihfields,ihitems⟩ := ih
    refine ⟨?_,?_,?_⟩
    · intro depth cs v rest h
      rcases value_ok h with ⟨inner,fs,hope,-,-,hbod⟩ | ⟨inner,vs,hope,-,-,hbod⟩ | h
      · have hinn := length_of_space hope
        rcases hbod with ⟨hclo,-⟩ | hbod
        · exact (length_of_space hclo).trans hinn
        · exact (ihfields _ _ _ _ _ hbod).trans_le ((length_space_le inner).trans hinn.le)
      · have hinn := length_of_space hope
        rcases hbod with ⟨hclo,-⟩ | hbod
        · exact (length_of_space hclo).trans hinn
        · exact (ihitems _ _ _ _ _ hbod).trans_le ((length_space_le inner).trans hinn.le)
      · exact h.2
    · intro depth done cs fs rest h
      obtain ⟨name,cs1,cs2,v,cs3,hnam,hcol,-,hv,hnex⟩ := fields_ok h
      have h1 := (length_string hnam).trans_le (length_space_le cs)
      have h2 := length_of_space hcol
      have h3 := ihvalue _ _ _ _ hv
      rcases hnex with ⟨hclo,-⟩ | ⟨cs4,hcom,hres⟩
      · have h4 := length_of_space hclo
        omega
      · have h4 := length_of_space hcom
        have h5 := ihfields _ _ _ _ _ hres
        omega
    · intro depth done cs vs rest h
      obtain ⟨v,cs1,hv,hnex⟩ := items_ok h
      have h1 := ihvalue _ _ _ _ hv
      rcases hnex with ⟨hclo,-⟩ | ⟨cs2,hcom,hres⟩
      · have h2 := length_of_space hclo
        omega
      · have h2 := length_of_space hcom
        have h3 := ihitems _ _ _ _ _ hres
        omega

private theorem length_value
    (h : value fromStr fuel depth cs=.ok (v,rest)) : rest.length < cs.length :=
  (progress fuel).1 depth cs v rest h

private theorem enough (fuel : Nat) :
    (∀ depth cs, 2 * cs.length < fuel →
      value fromStr (fuel+1) depth cs=value fromStr fuel depth cs) ∧
    (∀ depth done cs, 2 * cs.length+1 < fuel →
      fields fromStr (fuel+1) depth done cs=fields fromStr fuel depth done cs) ∧
    (∀ depth done cs, 2 * cs.length+1 < fuel →
      items fromStr (fuel+1) depth done cs=items fromStr fuel depth done cs) := by
  induction fuel with
  | zero =>
    refine ⟨?_,?_,?_⟩
    · intro depth cs h
      exact absurd h (Nat.not_lt_zero _)
    · intro depth done cs h
      exact absurd h (Nat.not_lt_zero _)
    · intro depth done cs h
      exact absurd h (Nat.not_lt_zero _)
  | succ fuel ih =>
    obtain ⟨ihvalue,ihfields,ihitems⟩ := ih
    refine ⟨?_,?_,?_⟩
    · intro depth cs h
      rw [value,value]
      cases hcs : space cs with
      | nil => rfl
      | cons c inner =>
        have hinn := (length_space_le inner).trans_lt (length_of_space hcs)
        simp only [ihfields depth [] (space inner) (by omega),ihitems depth [] (space inner) (by omega)]
    · intro depth done cs h
      rw [fields,fields]
      apply Outcome.bind_congr
      rintro ⟨name,cs1⟩ hnam
      apply Outcome.bind_congr
      intro cs2 hcol
      have h1 := (length_string hnam).trans_le (length_space_le cs)
      have h2 := length_of_space (consume_ok hcol)
      simp only [ihvalue (depth+1) cs2 (by omega)]
      split_ifs
      · rfl
      · apply Outcome.bind_congr
        rintro ⟨v,cs3⟩ hv
        have h3 := length_value hv
        simp only
        split_ifs
        · rfl
        · apply Outcome.bind_congr
          intro cs4 hcom
          have h4 := length_of_space (consume_ok hcom)
          exact ihfields depth _ cs4 (by omega)
    · intro depth done cs h
      rw [items,items,ihvalue (depth+1) cs (by omega)]
      apply Outcome.bind_congr
      rintro ⟨v,cs1⟩ hv
      have h1 := length_value hv
      simp only
      split_ifs
      · rfl
      · apply Outcome.bind_congr
        intro cs2 hcom
        have h2 := length_of_space (consume_ok hcom)
        exact ihitems depth _ cs2 (by omega)

/-- The fuel of `parse` is enough: more gives the same result. -/
theorem value_fuel (k : Nat) :
    value fromStr (2 * cs.length+1+k) depth cs=value fromStr (2 * cs.length+1) depth cs := by
  induction k with
  | zero => rfl
  | succ k ih =>
    rw [← ih]
    exact (enough (2 * cs.length+1+k)).1 depth cs (by omega)

/-- Distinct names, and no deeper than the budget that is left at `depth`. -/
def Within (depth : Nat) (v : Value) : Prop :=
  v.distinct=true ∧ v.nesting ≤ jsonMaxDepth+1 - depth

private theorem within_scalar (h : v.nesting=0) : Within depth v := by
  constructor
  · cases v with
    | array items => simp [Value.nesting] at h
    | object fields => simp [Value.nesting] at h
    | null => rfl
    | bool b => rfl
    | number n => rfl
    | string s => rfl
  · rw [h]
    exact Nat.zero_le _

private theorem within_array {vs : List Value} (hdep : depth ≤ jsonMaxDepth)
    (h : ∀ v∈vs, Within (depth+1) v) : Within depth (.array vs) := by
  constructor
  · exact Value.distinct_array.mpr fun v hv => (h v hv).1
  · rw [show jsonMaxDepth+1 - depth=(jsonMaxDepth - depth)+1 by omega,Value.nesting_array_le]
    intro v hv
    exact (h v hv).2.trans (by omega)

private theorem within_object {fs : List (String × Value)} (hdep : depth ≤ jsonMaxDepth)
    (hnod : (fs.map Prod.fst).Nodup) (h : ∀ f∈fs, Within (depth+1) f.2) :
    Within depth (.object fs) := by
  constructor
  · exact Value.distinct_object.mpr ⟨hnod,fun f hf => (h f hf).1⟩
  · rw [show jsonMaxDepth+1 - depth=(jsonMaxDepth - depth)+1 by omega,Value.nesting_object_le]
    intro f hf
    exact (h f hf).2.trans (by omega)

private theorem nodup_concat {done : List (String × Value)} {name : String}
    (h : (done.map Prod.fst).Nodup) (hnam : name∉done.map Prod.fst) :
    ((done++[(name,v)]).map Prod.fst).Nodup := by
  rw [List.map_append,List.map_singleton]
  exact List.Nodup.append h (List.nodup_singleton _) (List.disjoint_singleton.mpr hnam)

/-- What the parser accepts at a depth has distinct names and keeps to the depth bound. -/
private theorem accepted (fuel : Nat) :
    (∀ depth cs v rest, value fromStr fuel depth cs=.ok (v,rest) → Within depth v) ∧
    (∀ depth done cs fs rest, fields fromStr fuel depth done cs=.ok (fs,rest) →
      (done.map Prod.fst).Nodup → (∀ f∈done, Within (depth+1) f.2) →
        (fs.map Prod.fst).Nodup ∧ ∀ f∈fs, Within (depth+1) f.2) ∧
    (∀ depth done cs vs rest, items fromStr fuel depth done cs=.ok (vs,rest) →
      (∀ v∈done, Within (depth+1) v) → ∀ v∈vs, Within (depth+1) v) := by
  induction fuel with
  | zero =>
    refine ⟨?_,?_,?_⟩
    · intro depth cs v rest h
      exact absurd h (by simp [value])
    · intro depth done cs fs rest h
      exact absurd h (by simp [fields])
    · intro depth done cs vs rest h
      exact absurd h (by simp [items])
  | succ fuel ih =>
    obtain ⟨ihvalue,ihfields,ihitems⟩ := ih
    refine ⟨?_,?_,?_⟩
    · intro depth cs v rest h
      rcases value_ok h with ⟨inner,fs,-,hdep,rfl,hbod⟩ | ⟨inner,vs,-,hdep,rfl,hbod⟩ | h
      · rcases hbod with ⟨-,rfl⟩ | hbod
        · exact within_object hdep (by simp) (by simp)
        · obtain ⟨hnod,hfs⟩ := ihfields _ _ _ _ _ hbod (by simp) (by simp)
          exact within_object hdep hnod hfs
      · rcases hbod with ⟨-,rfl⟩ | hbod
        · exact within_array hdep (by simp)
        · exact within_array hdep (ihitems _ _ _ _ _ hbod (by simp))
      · exact within_scalar h.1
    · intro depth done cs fs rest h hnod hdon
      obtain ⟨name,cs1,cs2,v,cs3,-,-,hnam,hv,hnex⟩ := fields_ok h
      have hnod' : ((done++[(name,v)]).map Prod.fst).Nodup := nodup_concat hnod hnam
      have hdon' : ∀ f∈done++[(name,v)], Within (depth+1) f.2 := by
        intro f hf
        rcases List.mem_append.mp hf with hf | hf
        · exact hdon f hf
        · rw [List.mem_singleton.mp hf]
          exact ihvalue _ _ _ _ hv
      rcases hnex with ⟨-,rfl⟩ | ⟨cs4,-,hres⟩
      · exact ⟨hnod',hdon'⟩
      · exact ihfields _ _ _ _ _ hres hnod' hdon'
    · intro depth done cs vs rest h hdon
      obtain ⟨v,cs1,hv,hnex⟩ := items_ok h
      have hdon' : ∀ w∈done++[v], Within (depth+1) w := by
        intro w hw
        rcases List.mem_append.mp hw with hw | hw
        · exact hdon w hw
        · rw [List.mem_singleton.mp hw]
          exact ihvalue _ _ _ _ hv
      rcases hnex with ⟨-,rfl⟩ | ⟨cs2,-,hres⟩
      · exact hdon'
      · exact ihitems _ _ _ _ _ hres hdon'

theorem parse_ok {bytes : List UInt8} {maximum : Nat}
    (h : parse fromStr bytes maximum=.ok v) :
    bytes.length ≤ maximum ∧ ∃ text rest, decodeUtf8 bytes=some text ∧
      value fromStr (2 * text.toList.length+1) 0 text.toList=.ok (v,rest) ∧ space rest=[] := by
  rw [parse] at h
  split_ifs at h with hlen
  refine ⟨not_lt.mp hlen,?_⟩
  cases htex : decodeUtf8 bytes with
  | none => simp [htex] at h
  | some text =>
    simp only [htex] at h
    obtain ⟨⟨w,rest⟩,hw,h⟩ := Outcome.bind_ok h
    by_cases hres : space rest=[]
    · simp only [hres,if_true] at h
      rw [← Except.ok.inj h]
      exact ⟨text,rest,rfl,hw,hres⟩
    · simp only [hres,if_false] at h
      exact absurd h (by simp)

/-- Accepted documents have distinct names in every object and keep to the depth bound. -/
theorem within_of_parse {bytes : List UInt8} {maximum : Nat}
    (h : parse fromStr bytes maximum=.ok v) : v.distinct=true ∧ v.nesting ≤ jsonMaxDepth+1 := by
  obtain ⟨-,text,rest,-,hv,-⟩ := parse_ok h
  exact (accepted _).1 0 _ _ _ hv

end StrictJson

end CastleWall.Smb
