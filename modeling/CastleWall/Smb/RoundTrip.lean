import CastleWall.Smb.StrictJson

/-! # Canonical texts are accepted

The strict parser reads the text of a value back: as the same value, with its numbers in binary64
and its fields in the order of the text. -/

namespace CastleWall

namespace Number

def strict (n : Number) : Number := ((Binary64.Finite.round n.exact).map .float).getD n

end Number

namespace Value

mutual

def strict : Value → Value
  | .null => .null
  | .bool b => .bool b
  | .number n => .number n.strict
  | .string s => .string s
  | .array items => .array (strictItems items)
  | .object fields => .object (Json.sortFields (strictFields fields))

def strictItems : List Value → List Value
  | [] => []
  | item::items => item.strict::strictItems items

def strictFields : List (String × Value) → List (String × Value)
  | [] => []
  | field::fields => (field.1,field.2.strict)::strictFields fields

end

theorem strictItems_eq (items : List Value) : strictItems items=items.map strict := by
  induction items with
  | nil => rfl
  | cons item items ih => rw [strictItems,ih,List.map_cons]

theorem strictFields_eq (fields : List (String × Value)) :
    strictFields fields=fields.map fun f => (f.1,f.2.strict) := by
  induction fields with
  | nil => rfl
  | cons field fields ih => rw [strictFields,ih,List.map_cons]

end Value

namespace Smb

open Binary64 Decimal Json Text

def Ends (rest : List Char) : Prop :=
  ∀ c, rest.head? = some c → c.isDigit=false ∧ c ≠ '.' ∧ c ≠ 'e' ∧ c ≠ 'E'

theorem ends_nil : Ends [] := by
  intro c hc
  exact absurd hc (by simp)

private theorem ends_of_mem {c : Char} (hc : c = ',' ∨ c = ']' ∨ c = '}') (rest : List Char) :
    Ends (c::rest) := by
  intro d hd
  rw [← Option.some.inj hd]
  rcases hc with rfl | rfl | rfl <;> decide

namespace Lexer

variable {ε : Type} (error : ε)

theorem digits_append {ds rest : List Char} {nonzero : Bool} (hne : ds≠[])
    (h : ∀ c∈ds, c.isDigit=true) (hres : ∀ c, rest.head? = some c → c.isDigit=false)
    (hzer : nonzero=true → ds.head? ≠ some '0') :
    digits error nonzero (ds++rest)=.ok (ds,rest) := by
  obtain ⟨htak,hdro⟩ := takeWhile_digits h hres
  cases ds with
  | nil => exact absurd rfl hne
  | cons d ds =>
    have hd : d.isDigit=true := h d List.mem_cons_self
    rw [List.cons_append] at htak hdro ⊢
    rw [digits,if_neg,htak,hdro]
    rw [hd,Bool.not_true,Bool.false_or,Bool.and_eq_true,beq_iff_eq]
    rintro ⟨hn,rfl⟩
    exact hzer hn rfl

private theorem whole_append {l : Literal} (h : l.WellFormed) {rest : List Char}
    (hres : ∀ c, rest.head? = some c → c.isDigit=false) :
    whole error (l.whole++rest)=.ok (l.whole,rest) := by
  rcases h.leading with hzer | hlea
  · rw [hzer]
    rfl
  · have hdig := digits_append error h.nonempty h.whole hres fun _ : true=true => hlea
    unfold whole
    split
    · rename_i cs heq
      cases hw : l.whole with
      | nil => exact absurd hw h.nonempty
      | cons d ds =>
        rw [hw,List.cons_append,List.cons.injEq] at heq
        rw [hw,heq.1] at hlea
        exact absurd rfl hlea
    · exact hdig

private theorem exponent_append (l : Literal) {rest : List Char} (h : Ends rest) :
    exponent error (l.exponentText++rest)=.ok (l.exponentText,rest) := by
  have hres : ∀ c, rest.head? = some c → c.isDigit=false := fun c hc => (h c hc).1
  have hdig : ∀ n, digits error false (Json.decimal n++rest)=.ok (Json.decimal n,rest) := by
    intro n
    exact digits_append error (decimal_digits n).1 (decimal_digits n).2 hres (by simp)
  rw [Literal.exponentText]
  split
  · cases rest with
    | nil => rfl
    | cons c rest =>
      have hc := h c rfl
      rw [List.nil_append,exponent,if_neg (by simp [hc.2.2])]
  · rw [List.cons_append,List.cons_append,exponent,if_pos (Or.inl rfl)]
    simp only [exponentSign,hdig]
    rfl
  · rw [List.cons_append,List.cons_append,exponent,if_pos (Or.inl rfl)]
    simp only [exponentSign,hdig]
    rfl

private theorem head_append {l : Literal} {rest : List Char} {c : Char}
    (h : (l.exponentText++rest).head? = some c) : c = 'e' ∨ rest.head? = some c := by
  cases htex : l.exponentText with
  | nil =>
    rw [htex,List.nil_append] at h
    exact Or.inr h
  | cons d ds =>
    rw [htex,List.cons_append] at h
    exact Or.inl (exponentText_head l c (by rw [htex]; exact h))

private theorem fraction_append {l : Literal} (hl : l.WellFormed) {rest : List Char} (h : Ends rest) :
    fraction error (l.fractionText++(l.exponentText++rest)) =
      .ok (l.fractionText,l.exponentText++rest) := by
  rw [Literal.fractionText]
  split_ifs with hemp
  · rw [List.nil_append]
    unfold fraction
    split
    · rename_i cs heq
      rcases @head_append l rest '.' (by rw [heq]; rfl) with hdot | hdot
      · exact absurd hdot (by decide)
      · exact absurd rfl (h '.' hdot).2.1
    · rfl
  · have hdig := @digits_append _ error _ (l.exponentText++rest) false hemp hl.fraction
      (by
        intro c hc
        rcases head_append hc with rfl | hc
        · decide
        · exact (h c hc).1)
      (by simp)
    rw [List.cons_append,fraction,hdig]
    rfl

theorem number_text {l : Literal} (hl : l.WellFormed) {rest : List Char} (h : Ends rest)
    (negative : Bool) :
    number error ((if negative then ['-'] else [])++l.text++rest) =
      .ok ((if negative then ['-'] else [])++l.text,rest) := by
  have hsig : sign ((if negative then ['-'] else [])++l.text++rest) =
      (if negative then ['-'] else [],l.text++rest) := by
    cases negative with
    | true => rfl
    | false =>
      cases hw : l.whole with
      | nil => exact absurd hw hl.nonempty
      | cons d ds =>
        have hd : d.isDigit=true := hl.whole d (by rw [hw]; exact List.mem_cons_self)
        have hne : d ≠ '-' := by
          rintro rfl
          exact absurd hd (by decide)
        simp only [Bool.false_eq_true,if_false,Literal.text,hw,List.nil_append,List.cons_append]
        unfold sign
        split
        · rename_i heq
          exact absurd (List.cons.inj heq).1 hne
        · rfl
  have hwho := @whole_append _ error l hl (l.fractionText++(l.exponentText++rest)) (by
    intro c hc
    rw [Literal.fractionText] at hc
    split_ifs at hc with hemp
    · rw [List.nil_append] at hc
      rcases head_append hc with rfl | hc
      · decide
      · exact (h c hc).1
    · rw [← Option.some.inj hc]
      decide)
  rw [number,hsig]
  simp only [Literal.text,List.append_assoc] at hwho ⊢
  rw [hwho]
  simp only [bind,Except.bind,fraction_append error hl h,exponent_append error l h]
  rfl

end Lexer

namespace StrictJson

private theorem parseF64_text {l : Literal} (hl : l.WellFormed) (negative : Bool) :
    parseF64 ((if negative then ['-'] else [])++l.text) =
      some (if negative then -l.value else l.value) := by
  cases negative with
  | true =>
    simp only [if_true,List.singleton_append,parseF64,decimalLiteral_text hl,Option.map_some]
  | false =>
    simp only [Bool.false_eq_true,if_false,List.nil_append]
    cases hw : l.whole with
    | nil => exact absurd hw hl.nonempty
    | cons d ds =>
      have hd : d.isDigit=true := hl.whole d (by rw [hw]; exact List.mem_cons_self)
      have htex : l.text=d::(ds++l.fractionText++l.exponentText) := by
        rw [Literal.text,hw]
        rfl
      unfold parseF64
      split
      · rename_i heq
        rw [htex] at heq
        rw [(List.cons.inj heq).1] at hd
        exact absurd hd (by decide)
      · exact decimalLiteral_text hl

private theorem zero_wellFormed : (⟨['0'],[],none⟩ : Literal).WellFormed :=
  ⟨by simp,by simp,Or.inl rfl,by simp⟩

private theorem numberToString_signed (x : Finite) :
    ∃ (l : Literal) (negative : Bool), l.WellFormed ∧
      numberToString x.1=(if negative then ['-'] else [])++l.text ∧
      nearest (if negative then -l.value else l.value)=some x.1 := by
  by_cases hx : x.1=0
  · refine ⟨⟨['0'],[],none⟩,false,zero_wellFormed,?_,?_⟩
    · rw [numberToString,if_pos hx]
      rfl
    · have hval : (⟨['0'],[],none⟩ : Literal).value=0 := by
        simp [Literal.value,Nat.ofDigitChars_cons]
      rw [if_neg (by simp),hval,hx]
      exact_mod_cast nearest_intCast (n := 0) (by norm_num)
  · obtain ⟨l,hl,hnea,-,htex⟩ := numberToString_literal x.2 hx
    refine ⟨l,decide (x.1 < 0),hl,?_,?_⟩
    · rw [htex]
      by_cases hneg : x.1 < 0
      · simp [hneg]
      · simp [hneg]
    · by_cases hneg : x.1 < 0
      · rw [if_pos (decide_eq_true hneg),nearest_neg,hnea,abs_of_neg hneg]
        simp
      · rw [if_neg (by simp [hneg]),hnea,abs_of_nonneg (not_lt.mp hneg)]

theorem number_numberToString {x : Finite} (hsaf : |x.1| ≤ (maxSafe : ℚ)) {rest : List Char}
    (h : Ends rest) :
    number (numberToString x.1++rest)=.ok (.number (.float x),rest) := by
  obtain ⟨l,negative,hl,htex,hnea⟩ := numberToString_signed x
  rw [number,htex,Lexer.number_text _ hl h]
  simp only [bind,Except.bind,parseF64_text hl]
  unfold safeNumber
  rw [Finite.round_eq_some.mpr hnea]
  simp only [if_neg (not_lt.mpr hsaf)]
  rfl

private theorem hexChar_plain {n : Nat} (h : n < 16) : hexChar n ≠ '"' ∧ hexChar n ≠ '\\' := by
  have hall : ∀ i : Fin 16, hexChar i.val ≠ '"' ∧ hexChar i.val ≠ '\\' := by decide
  exact hall ⟨n,h⟩

theorem scanString_plain {c : Char} (hquo : c ≠ '"') (hsla : c ≠ '\\') (more : List Char) :
    scanString false (c::more)=(scanString false more).map fun p => (c::p.1,p.2) := by
  have hbeq : (c == '\\')=false := beq_eq_false_iff_ne.mpr hsla
  rw [scanString,if_neg (fun h => hquo h.1),hbeq,Bool.false_and]

theorem scanString_slash (c : Char) (more : List Char) :
    scanString false ('\\' :: c::more)=(scanString false more).map fun p => ('\\' :: c::p.1,p.2) := by
  simp [scanString,Option.map_map,Function.comp_def]

private theorem scanString_escape (c : Char) (more : List Char) :
    scanString false (escapeChar c++more) =
      (scanString false more).map fun p => (escapeChar c++p.1,p.2) := by
  refine escapeChar_elim (P := fun _ e => scanString false (e++more) =
    (scanString false more).map fun p => (e++p.1,p.2)) c (scanString_slash _ _) (scanString_slash _ _)
    (scanString_slash _ _) (scanString_slash _ _) (scanString_slash _ _) (scanString_slash _ _) (scanString_slash _ _)
    ?_ (fun hquo hbac _ => scanString_plain hquo hbac more)
  intro hlow
  have hhi := hexChar_plain (n := c.toNat / 16) (by omega)
  have hlo := hexChar_plain (n := c.toNat % 16) (by omega)
  simp only [List.cons_append,List.nil_append]
  rw [scanString_slash,scanString_plain (by decide) (by decide),
    scanString_plain (by decide) (by decide),scanString_plain hhi.1 hhi.2,
    scanString_plain hlo.1 hlo.2]
  simp only [Option.map_map,Function.comp_def]

private theorem scanString_quote (cs rest : List Char) :
    scanString false (cs.flatMap escapeChar++('"' :: rest)) =
      some (cs.flatMap escapeChar++['"'],rest) := by
  induction cs with
  | nil => simp [scanString]
  | cons c cs ih =>
    rw [List.flatMap_cons,List.append_assoc,scanString_escape,ih]
    simp

variable {fromStr : List Char → Option String} (hfromStr : ∀ s, fromStr (quote s)=some s)

include hfromStr

theorem string_quote (s : String) (rest : List Char) :
    string fromStr (quote s++rest)=.ok (s,rest) := by
  have hquo := hfromStr s
  rw [quote] at hquo ⊢
  rw [string,List.cons_append,consume,if_pos rfl,List.append_assoc,List.singleton_append]
  simp only [bind,Except.bind,scanString_quote,hquo]
  rfl

omit hfromStr

private def Opens (text : List Char) : Prop :=
  ∃ c cs, text=c::cs ∧ isSpace c=false ∧ c ≠ ']'

private theorem space_of_opens {text : List Char} (h : Opens text) (rest : List Char) :
    space (text++rest)=text++rest := by
  obtain ⟨c,cs,rfl,hc,-⟩ := h
  rw [space,List.cons_append,List.dropWhile_cons_of_neg (by simp [hc])]

/-- The text is read at `depth` as `v`, whatever follows it. -/
private def ReadsBack (fromStr : List Char → Option String) (depth : Nat) (v : Value)
    (text : List Char) : Prop :=
  Opens text ∧ ∀ rest fuel, Ends rest → 2 * text.length ≤ fuel →
    value fromStr fuel depth (text++rest)=.ok (v,rest)

private theorem space_cons {c : Char} (h : isSpace c=false) (rest : List Char) :
    space (c::rest)=c::rest := by
  rw [space,List.dropWhile_cons_of_neg (by simp [h])]

private theorem opens_joinComma {t : List Char} (h : Opens t) (ts : List (List Char)) :
    Opens (joinComma (t::ts)) := by
  obtain ⟨c,cs,rfl,hc,hne⟩ := h
  cases ts with
  | nil => exact ⟨c,cs,rfl,hc,hne⟩
  | cons u us => exact ⟨c,_,rfl,hc,hne⟩

private theorem items_joined {depth : Nat} {vs : List Value} {parts : List (List Char)}
    (h : List.Forall₂ (ReadsBack fromStr (depth+1)) vs parts) (hne : vs≠[]) (done : List Value)
    (rest : List Char) (fuel : Nat) (hfue : 2 * (joinComma parts).length+2 ≤ fuel) :
    items fromStr fuel depth done (joinComma parts ++ ']' :: rest)=.ok (done++vs,rest) := by
  induction h generalizing done fuel with
  | nil => exact absurd rfl hne
  | @cons v t vs parts hv hvs ih =>
    obtain ⟨fuel,rfl⟩ : ∃ n, fuel=n+1 := ⟨fuel - 1,by omega⟩
    cases hvs with
    | nil =>
      rw [joinComma] at hfue ⊢
      rw [items,hv.2 (']' :: rest) fuel (ends_of_mem (by simp) rest) (by omega)]
      simp only [bind,Except.bind,space_cons (show isSpace ']' = false by decide),List.head?_cons,
        if_true,List.tail_cons]
    | @cons w u ws us hw hws =>
      have hjoi : joinComma (t::u::us)=t ++ ',' :: joinComma (u::us) := rfl
      rw [hjoi,List.length_append,List.length_cons] at hfue
      rw [hjoi,List.append_assoc,List.cons_append,items,
        hv.2 _ fuel (ends_of_mem (by simp) _) (by omega)]
      simp only [bind,Except.bind,space_cons (show isSpace ',' = false by decide),List.head?_cons,
        Option.some.injEq,show ¬ (',' : Char) = ']' by decide,if_false,consume,if_true]
      rw [ih (by simp) (done++[v]) fuel (by omega),List.append_assoc]
      rfl

include hfromStr

private theorem fields_joined {depth : Nat} {fs : List (String × Value)} {parts : List (List Char)}
    (h : List.Forall₂ (fun f t => ∃ text, t=quote f.1 ++ ':' :: text ∧
      ReadsBack fromStr (depth+1) f.2 text) fs parts) (hne : fs≠[])
    (done : List (String × Value)) (hnod : ((done++fs).map Prod.fst).Nodup) (rest : List Char)
    (fuel : Nat) (hfue : 2 * (joinComma parts).length+2 ≤ fuel) :
    fields fromStr fuel depth done (joinComma parts ++ '}' :: rest)=.ok (done++fs,rest) := by
  induction h generalizing done fuel with
  | nil => exact absurd rfl hne
  | @cons f t fs parts hf hfs ih =>
    obtain ⟨fuel,rfl⟩ : ∃ n, fuel=n+1 := ⟨fuel - 1,by omega⟩
    obtain ⟨text,rfl,hope,hrea⟩ := hf
    have hnam : f.1∉done.map Prod.fst := by
      rw [List.map_append,List.map_cons] at hnod
      intro hmem
      exact (List.disjoint_of_nodup_append hnod) hmem List.mem_cons_self
    have hquo : ∀ cs, space (quote f.1++cs)=quote f.1++cs := fun cs =>
      space_cons (show isSpace '"' = false by decide) _
    cases hfs with
    | nil =>
      rw [joinComma,List.length_append,List.length_cons] at hfue
      rw [joinComma,List.append_assoc,List.cons_append,fields,hquo,string_quote hfromStr]
      simp only [bind,Except.bind,space_cons (show isSpace ':' = false by decide),consume,if_true,
        if_neg hnam]
      rw [hrea ('}' :: rest) fuel (ends_of_mem (by simp) rest) (by omega)]
      simp only [space_cons (show isSpace '}' = false by decide),List.head?_cons,if_true,
        List.tail_cons]
    | @cons g u gs us hg hgs =>
      have hjoi : joinComma ((quote f.1 ++ ':' :: text)::u::us) =
          (quote f.1 ++ ':' :: text) ++ ',' :: joinComma (u::us) := rfl
      rw [hjoi,List.length_append,List.length_append,List.length_cons,List.length_cons] at hfue
      rw [hjoi,List.append_assoc,List.append_assoc,List.cons_append,List.cons_append,fields,
        hquo,string_quote hfromStr]
      simp only [bind,Except.bind,space_cons (show isSpace ':' = false by decide),consume,if_true,
        if_neg hnam]
      rw [hrea _ fuel (ends_of_mem (by simp) _) (by omega)]
      simp only [space_cons (show isSpace ',' = false by decide),List.head?_cons,
        Option.some.injEq,show ¬ (',' : Char) = '}' by decide,if_false,if_true]
      rw [ih (by simp) (done++[(f.1,f.2)]) (by rwa [List.append_assoc]) fuel (by omega),
        List.append_assoc]
      rfl

omit hfromStr

private theorem numberToString_opens (x : Finite) :
    ∃ c cs, numberToString x.1=c::cs ∧ (c = '-' ∨ c.isDigit=true) := by
  obtain ⟨l,negative,hl,htex,-⟩ := numberToString_signed x
  cases negative with
  | true => exact ⟨'-',l.text,by rw [htex]; rfl,Or.inl rfl⟩
  | false =>
    cases hw : l.whole with
    | nil => exact absurd hw hl.nonempty
    | cons d ds =>
      refine ⟨d,ds++l.fractionText++l.exponentText,?_,Or.inr ?_⟩
      · rw [htex,Literal.text,hw]
        rfl
      · exact hl.whole d (by rw [hw]; exact List.mem_cons_self)

private theorem plain_of_numeric {c : Char} (h : c = '-' ∨ c.isDigit=true) :
    isSpace c=false ∧ c ≠ ']' ∧ c ≠ '{' ∧ c ≠ '[' ∧ c ≠ '"' := by
  rcases h with rfl | h
  · decide
  · refine ⟨?_,?_,?_,?_,?_⟩
    · by_contra hspa
      rw [Bool.not_eq_false,isSpace] at hspa
      simp only [Bool.or_eq_true,beq_iff_eq] at hspa
      rcases hspa with ((rfl | rfl) | rfl) | rfl <;> exact absurd h (by decide)
    all_goals
      rintro rfl
      exact absurd h (by decide)

private theorem readsBack_number (x : Finite) (hsaf : |x.1| ≤ (maxSafe : ℚ)) (depth : Nat) :
    ReadsBack fromStr depth (.number (.float x)) (numberToString x.1) := by
  obtain ⟨c,cs,htex,hc⟩ := numberToString_opens x
  obtain ⟨hspa,hclo,hbra,hbrt,hquo⟩ := plain_of_numeric hc
  refine ⟨⟨c,cs,htex,hspa,hclo⟩,?_⟩
  intro rest fuel hres hfue
  obtain ⟨fuel,rfl⟩ : ∃ n, fuel=n+1 := ⟨fuel - 1,by rw [htex] at hfue; simp at hfue; omega⟩
  have hnum := number_numberToString hsaf hres
  rw [htex,List.cons_append] at hnum ⊢
  rw [value,space_cons hspa]
  simp only [if_neg hbra,if_neg hbrt,if_neg hquo,hnum]
  rcases hc with rfl | hc
  · rfl
  · simp [hc]

private theorem fuel_succ {text : List Char} {fuel : Nat} (h : Opens text) (hfue : 2 * text.length ≤ fuel) :
    ∃ n, fuel=n+1 := by
  obtain ⟨c,cs,rfl,-⟩ := h
  rw [List.length_cons] at hfue
  exact ⟨fuel - 1,by omega⟩

variable (depth : Nat)

private theorem readsBack_null :
    ReadsBack fromStr depth .null ['n','u','l','l'] := by
  have hope : Opens ['n','u','l','l'] := ⟨'n',_,rfl,by decide,by decide⟩
  refine ⟨hope,?_⟩
  intro rest fuel _ hfue
  obtain ⟨fuel,rfl⟩ := fuel_succ hope hfue
  rw [value,space_of_opens hope]
  rfl

private theorem readsBack_true :
    ReadsBack fromStr depth (.bool true) ['t','r','u','e'] := by
  have hope : Opens ['t','r','u','e'] := ⟨'t',_,rfl,by decide,by decide⟩
  refine ⟨hope,?_⟩
  intro rest fuel _ hfue
  obtain ⟨fuel,rfl⟩ := fuel_succ hope hfue
  rw [value,space_of_opens hope]
  rfl

private theorem readsBack_false :
    ReadsBack fromStr depth (.bool false) ['f','a','l','s','e'] := by
  have hope : Opens ['f','a','l','s','e'] := ⟨'f',_,rfl,by decide,by decide⟩
  refine ⟨hope,?_⟩
  intro rest fuel _ hfue
  obtain ⟨fuel,rfl⟩ := fuel_succ hope hfue
  rw [value,space_of_opens hope]
  rfl

include hfromStr in
private theorem readsBack_string (s : String) :
    ReadsBack fromStr depth (.string s) (quote s) := by
  have hope : Opens (quote s) := ⟨'"',_,rfl,by decide,by decide⟩
  refine ⟨hope,?_⟩
  intro rest fuel _ hfuel
  obtain ⟨fuel,rfl⟩ := fuel_succ hope hfuel
  have hstr := string_quote hfromStr s rest
  rw [value,space_of_opens hope]
  rw [quote,List.cons_append] at hstr ⊢
  simp only [show ¬ ('"' : Char) = '{' by decide,show ¬ ('"' : Char) = '[' by decide,if_false,
    if_true,hstr]
  rfl

private theorem readsBack_array {depth : Nat} (hdep : depth ≤ jsonMaxDepth) {vs : List Value}
    {parts : List (List Char)} (h : List.Forall₂ (ReadsBack fromStr (depth+1)) vs parts) :
    ReadsBack fromStr depth (.array vs) ('[' :: (joinComma parts++[']'])) := by
  have hope : Opens ('[' :: (joinComma parts++[']'])) := ⟨'[',_,rfl,by decide,by decide⟩
  refine ⟨hope,?_⟩
  intro rest fuel _ hfue
  obtain ⟨fuel,rfl⟩ := fuel_succ hope hfue
  rw [value,space_of_opens hope,List.cons_append,List.append_assoc,List.singleton_append]
  simp only [show ¬ ('[' : Char) = '{' by decide,if_false,if_true,if_neg (not_lt.mpr hdep)]
  cases h with
  | nil =>
    simp [joinComma,space_cons (show isSpace ']' = false by decide)]
  | @cons v t vs parts hv hvs =>
    have hjoi := items_joined (List.Forall₂.cons hv hvs) (by simp) [] rest fuel (by
      simp only [List.length_cons,List.length_append,List.length_nil] at hfue
      omega)
    have hfir := opens_joinComma hv.1 parts
    rw [space_of_opens hfir,hjoi]
    obtain ⟨c,cs,hc,-,hclo⟩ := hfir
    rw [hc,List.cons_append,List.head?_cons,if_neg (fun h => hclo (Option.some.inj h))]
    rfl

include hfromStr in
private theorem readsBack_object {depth : Nat} (hdep : depth ≤ jsonMaxDepth)
    {fs : List (String × Value)} {parts : List (List Char)}
    (h : List.Forall₂ (fun f t => ∃ text, t=quote f.1 ++ ':' :: text ∧
      ReadsBack fromStr (depth+1) f.2 text) fs parts) (hnod : (fs.map Prod.fst).Nodup) :
    ReadsBack fromStr depth (.object fs) ('{' :: (joinComma parts++['}'])) := by
  have hope : Opens ('{' :: (joinComma parts++['}'])) := ⟨'{',_,rfl,by decide,by decide⟩
  refine ⟨hope,?_⟩
  intro rest fuel _ hfue
  obtain ⟨fuel,rfl⟩ := fuel_succ hope hfue
  rw [value,space_of_opens hope,List.cons_append,List.append_assoc,List.singleton_append]
  simp only [if_true,if_neg (not_lt.mpr hdep)]
  cases h with
  | nil =>
    simp [joinComma,space_cons (show isSpace '}' = false by decide)]
  | @cons f t fs parts hf hfs =>
    have hjoi := fields_joined hfromStr (List.Forall₂.cons hf hfs) (by simp) [] hnod rest fuel (by
      simp only [List.length_cons,List.length_append,List.length_nil] at hfue
      omega)
    obtain ⟨text,rfl,-⟩ := hf
    have hquo : ∃ cs, joinComma ((quote f.1 ++ ':' :: text)::parts) ++ '}' :: rest = '"' :: cs := by
      cases parts with
      | nil => exact ⟨_,rfl⟩
      | cons u us => exact ⟨_,rfl⟩
    obtain ⟨cs,hcs⟩ := hquo
    rw [hcs] at hjoi ⊢
    rw [space_cons (show isSpace '"' = false by decide),List.head?_cons,if_neg (by simp),hjoi]
    rfl

private theorem forall₂_imp_mem {α β : Type} {r q : α → β → Prop} {as : List α} {bs : List β}
    (h : List.Forall₂ r as bs) (himp : ∀ a∈as, ∀ b, r a b → q a b) : List.Forall₂ q as bs := by
  induction h with
  | nil => exact .nil
  | cons hab _ ih =>
    exact .cons (himp _ List.mem_cons_self _ hab)
      (ih fun a ha => himp a (List.mem_cons_of_mem _ ha))

/-- A number is written when its magnitude is safe, and is then held exactly as binary64. -/
theorem numberAt_ok {n : Number} {text : List Char} (h : Jcs.numberAt n=.ok text) :
    ∃ x : Finite, n.asF64=some x.1 ∧ |x.1| ≤ (maxSafe : ℚ) ∧ text=numberToString x.1 ∧
      n.strict=.float x := by
  obtain ⟨x,hx⟩ := Option.isSome_iff_exists.mp (Manifest.CanonicalJson.asF64_isSome n)
  have hfin := nearest_of_nearest hx
  unfold Jcs.numberAt at h
  simp only [hx,Jcs.number_eq hfin] at h
  split_ifs at h with hlar
  refine ⟨⟨x,hfin⟩,hx,not_lt.mp hlar,(Except.ok.inj h).symm,?_⟩
  rw [Number.strict,(Finite.round_eq_some (x := ⟨x,hfin⟩)).mpr hx]
  rfl

private theorem entry_ok {name : String} {attempt : Except String (List Char)} {t : List Char}
    (h : Jcs.entry (name,attempt)=.ok t) :
    ∃ text, attempt=.ok text ∧ t=quote name ++ ':' :: text := by
  rw [Jcs.entry] at h
  obtain ⟨text,htex,rfl⟩ := Outcome.map_ok h
  exact ⟨text,htex,rfl⟩

include hfromStr in
private theorem readsBack_encodeAt (v : Value) {depth : Nat} {text : List Char}
    (h : Jcs.encodeAt depth v=.ok text) (hdis : v.distinct=true) :
    ReadsBack fromStr depth v.strict text := by
  induction v using Value.induct generalizing depth text with
  | null =>
    rw [← Except.ok.inj h]
    exact readsBack_null depth
  | bool b =>
    cases b with
    | true =>
      rw [← Except.ok.inj h]
      exact readsBack_true depth
    | false =>
      rw [← Except.ok.inj h]
      exact readsBack_false depth
  | number n =>
    obtain ⟨x,-,hsaf,rfl,hstr⟩ := numberAt_ok h
    rw [Value.strict,hstr]
    exact readsBack_number x hsaf depth
  | string s =>
    rw [← Except.ok.inj h]
    exact readsBack_string hfromStr depth s
  | array items ih =>
    rw [Jcs.encodeAt,Jcs.encodeItems_eq] at h
    split_ifs at h with hdep
    obtain ⟨parts,hpar,rfl⟩ := Outcome.map_ok h
    have hite := Value.distinct_array.mp hdis
    rw [Value.strict,Value.strictItems_eq]
    apply readsBack_array (not_lt.mp hdep)
    rw [List.forall₂_map_left_iff]
    apply forall₂_imp_mem (List.forall₂_map_left_iff.mp (forall₂_of_sequence hpar))
    intro v hv t ht
    exact ih v hv ht (hite v hv)
  | object fields ih =>
    obtain ⟨hnod,hfie⟩ := Value.distinct_object.mp hdis
    rw [Jcs.encodeAt,Jcs.encodeFields_eq,sortFields_map,List.map_map] at h
    split_ifs at h with hdep
    obtain ⟨parts,hpar,rfl⟩ := Outcome.map_ok h
    rw [Value.strict,Value.strictFields_eq,sortFields_map]
    apply readsBack_object hfromStr (not_lt.mp hdep)
    · rw [List.forall₂_map_left_iff]
      apply forall₂_imp_mem (List.forall₂_map_left_iff.mp (forall₂_of_sequence hpar))
      intro f hf t ht
      obtain ⟨text,htex,rfl⟩ := entry_ok ht
      have hmem := (sortFields_perm fields).mem_iff.mp hf
      exact ⟨text,rfl,ih f hmem htex (hfie f hmem)⟩
    · rw [List.map_map]
      exact ((sortFields_perm fields).map Prod.fst).nodup_iff.mpr hnod

theorem parse_encode (hfromStr : ∀ s, fromStr (quote s)=some s) {v : Value} {text : List Char}
    {maximum : Nat} (h : Jcs.encode v=.ok text) (hdis : v.distinct=true)
    (hsiz : (utf8Bytes (String.ofList text)).length ≤ maximum) :
    parse fromStr (utf8Bytes (String.ofList text)) maximum=.ok v.strict := by
  have hrea := (readsBack_encodeAt hfromStr v h hdis).2 [] (2 * text.length+1) ends_nil
    (by omega)
  rw [List.append_nil] at hrea
  rw [parse,if_neg (not_lt.mpr hsiz),decodeUtf8_utf8Bytes]
  simp only [String.toList_ofList,hrea]
  rfl

private theorem eq_of_safe {k : ℤ} {x : ℚ} (h : nearest (k : ℚ)=some x) (hsaf : |x| ≤ (maxSafe : ℚ)) :
    x=k := by
  by_cases hsma : |k| < 2 ^ 53
  · rw [nearest_intCast hsma] at h
    exact (Option.some.inj h).symm
  · exfalso
    obtain ⟨m,rfl,hm⟩ := nearest_large (not_lt.mp hsma) h
    have hle : |m| ≤ (maxSafe : ℤ) := by exact_mod_cast hsaf
    rw [maxSafe] at hle
    omega

private theorem exact_strict {n : Number} {text : List Char} (h : Jcs.numberAt n=.ok text) :
    n.strict.exact=n.exact := by
  obtain ⟨x,hx,hsaf,-,hstr⟩ := numberAt_ok h
  rw [hstr,Number.exact]
  cases n with
  | float y =>
    rw [Number.asF64,Number.exact,y.2,Option.some.injEq] at hx
    exact hx.symm
  | posInt k fits =>
    have hcas : (Number.posInt k fits).exact=((k : ℤ) : ℚ) := by simp [Number.exact]
    rw [Number.asF64,hcas] at hx
    rw [hcas]
    exact eq_of_safe hx hsaf
  | negInt k fits =>
    have hcas : (Number.negInt k fits).exact=((-k : ℤ) : ℚ) := by simp [Number.exact]
    rw [Number.asF64,hcas] at hx
    rw [hcas]
    exact eq_of_safe hx hsaf

private theorem sortFields_idem {α : Type} {fields : List (String × α)}
    (h : (fields.map Prod.fst).Nodup) : sortFields (sortFields fields)=sortFields fields :=
  sortFields_of_perm (sortFields_perm fields) h

private theorem keys_map {α β : Type} (f : α → β) (fields : List (String × α)) :
    (fields.map fun g => (g.1,f g.2)).map Prod.fst=fields.map Prod.fst := by
  rw [List.map_map]
  rfl

private theorem exists_of_forall₂ {α β : Type} {r : α → β → Prop} {as : List α} {bs : List β}
    (h : List.Forall₂ r as bs) : ∀ a∈as, ∃ b, r a b := by
  induction h with
  | nil => simp
  | cons hab _ ih => exact List.forall_mem_cons.mpr ⟨⟨_,hab⟩,ih⟩

theorem encodeAt_items {depth : Nat} {items : List Value} {text : List Char}
    (h : Jcs.encodeAt depth (.array items)=.ok text) :
    ∀ v∈items, ∃ t, Jcs.encodeAt (depth+1) v=.ok t := by
  rw [Jcs.encodeAt,Jcs.encodeItems_eq] at h
  split_ifs at h
  obtain ⟨parts,hpar,-⟩ := Outcome.map_ok h
  exact exists_of_forall₂ (List.forall₂_map_left_iff.mp (forall₂_of_sequence hpar))

theorem encodeAt_fields {depth : Nat} {fields : List (String × Value)} {text : List Char}
    (h : Jcs.encodeAt depth (.object fields)=.ok text) :
    ∀ f∈fields, ∃ t, Jcs.encodeAt (depth+1) f.2=.ok t := by
  rw [Jcs.encodeAt,Jcs.encodeFields_eq,sortFields_map,List.map_map] at h
  split_ifs at h
  obtain ⟨parts,hpar,-⟩ := Outcome.map_ok h
  intro f hf
  obtain ⟨t,ht⟩ := exists_of_forall₂ (List.forall₂_map_left_iff.mp (forall₂_of_sequence hpar)) f
    ((sortFields_perm fields).mem_iff.mpr hf)
  obtain ⟨text,htex,-⟩ := entry_ok ht
  exact ⟨text,htex⟩

theorem meaning_strict (v : Value) {depth : Nat} {text : List Char}
    (h : Jcs.encodeAt depth v=.ok text) (hdis : v.distinct=true) :
    v.strict.meaning=v.meaning := by
  induction v using Value.induct generalizing depth text with
  | null => rfl
  | bool b => rfl
  | number n => exact congrArg Meaning.number (exact_strict h)
  | string s => rfl
  | array items ih =>
    have hite := Value.distinct_array.mp hdis
    rw [Value.strict,Value.strictItems_eq,Value.meaning,Value.meaning,Value.meaningItems_eq,
      Value.meaningItems_eq,List.map_map]
    refine congrArg Meaning.array (List.map_congr_left ?_)
    intro v hv
    obtain ⟨t,ht⟩ := encodeAt_items h v hv
    exact ih v hv ht (hite v hv)
  | object fields ih =>
    obtain ⟨hnod,hfie⟩ := Value.distinct_object.mp hdis
    have hmea : ∀ f∈fields, f.2.strict.meaning=f.2.meaning := by
      intro f hf
      obtain ⟨t,ht⟩ := encodeAt_fields h f hf
      exact ih f hf ht (hfie f hf)
    have hmap : (fields.map fun f => (f.1,f.2.strict.meaning))=fields.map fun f => (f.1,f.2.meaning) :=
      List.map_congr_left fun f hf => by rw [hmea f hf]
    rw [Value.strict,Value.meaning,Value.meaning,Value.meaningFields_eq,Value.meaningFields_eq,
      sortFields_map Value.meaning,Value.strictFields_eq,sortFields_idem (by rwa [keys_map]),
      ← sortFields_map Value.meaning,List.map_map]
    exact congrArg (fun fs => Meaning.object (sortFields fs)) hmap

theorem asF64_strict (n : Number) : n.strict.asF64=n.asF64 := by
  obtain ⟨x,hx⟩ := Option.isSome_iff_exists.mp (Manifest.CanonicalJson.asF64_isSome n)
  have hfin := nearest_of_nearest hx
  rw [Number.strict,(Finite.round_eq_some (x := ⟨x,hfin⟩)).mpr hx,hx]
  exact hfin

theorem encodeAt_strict (v : Value) (depth : Nat) (hdis : v.distinct=true) :
    Jcs.encodeAt depth v.strict=Jcs.encodeAt depth v := by
  induction v using Value.induct generalizing depth with
  | null => rfl
  | bool b => rfl
  | number n =>
    rw [Value.strict,Jcs.encodeAt,Jcs.encodeAt]
    unfold Jcs.numberAt
    rw [asF64_strict]
  | string s => rfl
  | array items ih =>
    have hite := Value.distinct_array.mp hdis
    have hmap : items.map (fun v => Jcs.encodeAt (depth+1) v.strict) =
        items.map (Jcs.encodeAt (depth+1)) :=
      List.map_congr_left fun v hv => ih v hv (depth+1) (hite v hv)
    rw [Value.strict,Jcs.encodeAt,Jcs.encodeAt,Jcs.encodeItems_eq,Jcs.encodeItems_eq,
      Value.strictItems_eq,List.map_map,← hmap]
    rfl
  | object fields ih =>
    obtain ⟨hnod,hfie⟩ := Value.distinct_object.mp hdis
    have hmap : (fields.map fun f => (f.1,Jcs.encodeAt (depth+1) f.2.strict)) =
        fields.map fun f => (f.1,Jcs.encodeAt (depth+1) f.2) :=
      List.map_congr_left fun f hf => by rw [ih f hf (depth+1) (hfie f hf)]
    rw [Value.strict,Jcs.encodeAt,Jcs.encodeAt,Jcs.encodeFields_eq,Jcs.encodeFields_eq,
      sortFields_map (Jcs.encodeAt (depth+1)),Value.strictFields_eq,
      sortFields_idem (by rwa [keys_map]),← sortFields_map (Jcs.encodeAt (depth+1)),List.map_map,
      ← hmap]
    rfl

end StrictJson

end Smb

end CastleWall
