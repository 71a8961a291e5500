import CastleWall.Support.Json

/-! # The canonical text of a JSON value and its reading

The canonical text is compact and lists an object's fields in UTF-16 order of their keys. A reader of
that text returns the value it was written from. -/

namespace CastleWall

namespace Json

open Text

def hexChar (n : Nat) : Char := "0123456789abcdef".toList.getD n '0'

def escapeChar (c : Char) : List Char :=
  if c = '"' then ['\\','"']
  else if c = '\\' then ['\\','\\']
  else if c.toNat=8 then ['\\','b']
  else if c.toNat=12 then ['\\','f']
  else if c.toNat=10 then ['\\','n']
  else if c.toNat=13 then ['\\','r']
  else if c.toNat=9 then ['\\','t']
  else if c.toNat < 32 then ['\\','u','0','0',hexChar (c.toNat / 16),hexChar (c.toNat % 16)]
  else [c]

def quote (s : String) : List Char := '"' :: (s.toList.flatMap escapeChar++['"'])

def decimal (n : Nat) : List Char := Nat.toDigits 10 n

def writeInt : Int → List Char
  | .ofNat n => decimal n
  | .negSucc n => '-' :: decimal (n+1)

def joinComma : List (List Char) → List Char
  | [] => []
  | [t] => t
  | t::ts => t ++ ',' :: joinComma ts

def sortFields {α : Type} (fields : List (String × α)) : List (String × α) :=
  fields.insertionSort fun a b => utf16Le a.1 b.1

def fieldText (field : String × List Char) : List Char := quote field.1 ++ ':' :: field.2

mutual

def write : Json → List Char
  | .null => ['n','u','l','l']
  | .bool true => ['t','r','u','e']
  | .bool false => ['f','a','l','s','e']
  | .num n => writeInt n
  | .str s => quote s
  | .arr items => '[' :: (joinComma (itemTexts items)++[']'])
  | .obj fields => '{' :: (joinComma ((sortFields (valueTexts fields)).map fieldText)++['}'])

def itemTexts : List Json → List (List Char)
  | [] => []
  | item::items => write item::itemTexts items

def valueTexts : List (String × Json) → List (String × List Char)
  | [] => []
  | field::fields => (field.1,write field.2)::valueTexts fields

end

def canonicalText (v : Json) : String := String.ofList v.write

def unescape : Char → Option Char
  | '"' => some '"'
  | '\\' => some '\\'
  | 'b' => some (Char.ofNat 8)
  | 'f' => some (Char.ofNat 12)
  | 'n' => some (Char.ofNat 10)
  | 'r' => some (Char.ofNat 13)
  | 't' => some (Char.ofNat 9)
  | _ => none

def readChars : List Char → Option (List Char × List Char)
  | [] => none
  | '"' :: rest => some ([],rest)
  | '\\' :: 'u' :: '0' :: '0' :: hi::lo::rest =>
    match toDigit 16 hi, toDigit 16 lo with
    | some hi, some lo => (readChars rest).map fun p => (Char.ofNat (hi * 16+lo)::p.1,p.2)
    | _, _ => none
  | '\\' :: e::rest =>
    match unescape e with
    | some c => (readChars rest).map fun p => (c::p.1,p.2)
    | none => none
  | c::rest => if c.toNat < 32 then none else (readChars rest).map fun p => (c::p.1,p.2)

def readNat (cs : List Char) : Option (Nat × List Char) :=
  match cs.takeWhile Char.isDigit with
  | [] => none
  | digits => some (Nat.ofDigitChars 10 digits 0,cs.dropWhile Char.isDigit)

def readInt : List Char → Option (Int × List Char)
  | '-' :: rest => (readNat rest).map fun p => (-(p.1 : Int),p.2)
  | cs => (readNat cs).map fun p => ((p.1 : Int),p.2)

mutual

/-- One value at the front of the text; `fuel` bounds the length of the text it may span. -/
def readValue : Nat → List Char → Option (Json × List Char)
  | 0, _ => none
  | fuel+1, cs =>
    match cs with
    | 'n' :: 'u' :: 'l' :: 'l' :: rest => some (.null,rest)
    | 't' :: 'r' :: 'u' :: 'e' :: rest => some (.bool true,rest)
    | 'f' :: 'a' :: 'l' :: 's' :: 'e' :: rest => some (.bool false,rest)
    | '"' :: rest => (readChars rest).map fun p => (.str (String.ofList p.1),p.2)
    | '[' :: ']' :: rest => some (.arr [],rest)
    | '[' :: rest => (readItems fuel rest).map fun p => (.arr p.1,p.2)
    | '{' :: '}' :: rest => some (.obj [],rest)
    | '{' :: rest => (readFields fuel rest).map fun p => (.obj (ofFields p.1),p.2)
    | cs => (readInt cs).map fun p => (.num p.1,p.2)

def readItems : Nat → List Char → Option (List Json × List Char)
  | 0, _ => none
  | fuel+1, cs =>
    match readValue fuel cs with
    | some (item,',' :: rest) => (readItems fuel rest).map fun p => (item::p.1,p.2)
    | some (item,']' :: rest) => some ([item],rest)
    | _ => none

def readFields : Nat → List Char → Option (List (String × Json) × List Char)
  | 0, _ => none
  | fuel+1, cs =>
    match cs with
    | '"' :: rest =>
      match readChars rest with
      | some (key,':' :: rest) =>
        match readValue fuel rest with
        | some (value,',' :: rest) =>
          (readFields fuel rest).map fun p => ((String.ofList key,value)::p.1,p.2)
        | some (value,'}' :: rest) => some ([(String.ofList key,value)],rest)
        | _ => none
      | _ => none
    | _ => none

end

variable (items : List Json)

theorem itemTexts_eq : itemTexts items=items.map write := by
  induction items with
  | nil => rfl
  | cons item items ih => rw [itemTexts,ih,List.map_cons]

theorem valueTexts_eq (fields : List (String × Json)) :
    valueTexts fields=fields.map fun f => (f.1,write f.2) := by
  induction fields with
  | nil => rfl
  | cons field fields ih => rw [valueTexts,ih,List.map_cons]

def objectText (fields : List (String × Json)) : List Char :=
  '{' :: (joinComma (fields.map fun f => fieldText (f.1,write f.2))++['}'])

theorem sortFields_map {α β : Type} (f : α → β) (fields : List (String × α)) :
    sortFields (fields.map fun field => (field.1,f field.2)) =
      (sortFields fields).map fun field => (field.1,f field.2) := by
  have hmap := List.map_insertionSort (fun a b : String × α => utf16Le a.1 b.1=true)
    (fun a b : String × β => utf16Le a.1 b.1=true) (fun field => (field.1,f field.2)) fields (by simp)
  rw [sortFields,sortFields,hmap]

theorem write_obj (fields : List (String × Json)) :
    write (.obj fields)=objectText (sortFields fields) := by
  rw [write,valueTexts_eq,sortFields_map,List.map_map]
  rfl

theorem sortFields_perm {α : Type} (fields : List (String × α)) :
    (sortFields fields).Perm fields :=
  List.perm_insertionSort _ fields

theorem hexPairs_injective {as bs : List UInt8}
    (h : as.flatMap (fun b => [hexChar (b.toNat / 16),hexChar (b.toNat % 16)]) =
      bs.flatMap fun b => [hexChar (b.toNat / 16),hexChar (b.toNat % 16)]) : as=bs := by
  have hdig : ∀ n < 16, ∀ m < 16, hexChar n=hexChar m → n=m := by decide
  induction as generalizing bs with
  | nil =>
    cases bs with
    | nil => rfl
    | cons b bs => cases h
  | cons a as ih =>
    cases bs with
    | nil => cases h
    | cons b bs =>
      simp only [List.flatMap_cons,List.cons_append,List.nil_append,List.cons.injEq] at h
      have ha := a.toNat_lt
      have hb := b.toNat_lt
      have hdiv := hdig (a.toNat / 16) (by omega) (b.toNat / 16) (by omega) h.1
      have hmod := hdig (a.toNat % 16) (by omega) (b.toNat % 16) (by omega) h.2.1
      have hhea : a=b := UInt8.toNat_inj.mp (by omega)
      rw [hhea,ih h.2.2]

private theorem toDigit_hexChar {n : Nat} (h : n < 16) : toDigit 16 (hexChar n)=some n := by
  have hall : ∀ n < 16, toDigit 16 (hexChar n)=some n := by decide
  exact hall n h

private theorem ofNat_toNat_div_mod (c : Char) : Char.ofNat (c.toNat / 16 * 16+c.toNat % 16)=c := by
  rw [Nat.div_add_mod']
  exact Char.ofNat_toNat c

theorem escapeChar_elim {P : Char → List Char → Prop} (c : Char) (hquo : P '"' ['\\','"']) (hbac : P '\\' ['\\','\\'])
    (h8 : P (Char.ofNat 8) ['\\','b']) (h12 : P (Char.ofNat 12) ['\\','f']) (h10 : P (Char.ofNat 10) ['\\','n'])
    (h13 : P (Char.ofNat 13) ['\\','r']) (h9 : P (Char.ofNat 9) ['\\','t'])
    (hlow : c.toNat < 32 → P c ['\\','u','0','0',hexChar (c.toNat / 16),hexChar (c.toNat % 16)])
    (hpla : c ≠ '"' → c ≠ '\\' → ¬ c.toNat < 32 → P c [c]) : P c (escapeChar c) := by
  have hof : ∀ n, c.toNat=n → Char.ofNat n=c := by
    rintro n rfl
    exact Char.ofNat_toNat c
  rw [escapeChar]
  by_cases hc : c = '"'
  · rw [if_pos hc,hc]
    exact hquo
  rw [if_neg hc]
  by_cases hs : c = '\\'
  · rw [if_pos hs,hs]
    exact hbac
  rw [if_neg hs]
  by_cases hc8 : c.toNat=8
  · rw [if_pos hc8,← hof 8 hc8]
    exact h8
  rw [if_neg hc8]
  by_cases hc12 : c.toNat=12
  · rw [if_pos hc12,← hof 12 hc12]
    exact h12
  rw [if_neg hc12]
  by_cases hc10 : c.toNat=10
  · rw [if_pos hc10,← hof 10 hc10]
    exact h10
  rw [if_neg hc10]
  by_cases hc13 : c.toNat=13
  · rw [if_pos hc13,← hof 13 hc13]
    exact h13
  rw [if_neg hc13]
  by_cases hc9 : c.toNat=9
  · rw [if_pos hc9,← hof 9 hc9]
    exact h9
  rw [if_neg hc9]
  by_cases hc32 : c.toNat < 32
  · rw [if_pos hc32]
    exact hlow hc32
  · rw [if_neg hc32]
    exact hpla hc hs hc32

private theorem readChars_escape (c : Char) (rest : List Char) :
    readChars (escapeChar c++rest)=(readChars rest).map fun p => (c::p.1,p.2) := by
  refine escapeChar_elim (P := fun c e => readChars (e++rest)=(readChars rest).map fun p => (c::p.1,p.2)) c
    rfl rfl rfl rfl rfl rfl rfl ?_ ?_
  · intro hlow
    have hhi : toDigit 16 (hexChar (c.toNat / 16))=some (c.toNat / 16) :=
      toDigit_hexChar (by omega)
    have hlo : toDigit 16 (hexChar (c.toNat % 16))=some (c.toNat % 16) :=
      toDigit_hexChar (by omega)
    simp only [List.cons_append,List.nil_append,readChars,hhi,hlo,ofNat_toNat_div_mod]
  · intro hquo hbac hlow
    rw [List.singleton_append,readChars,if_neg hlow]
    · exact hquo
    · intro _ _ _ hc _
      exact absurd hc hbac
    · intro _ _ hc _
      exact absurd hc hbac

theorem readChars_escaped (s rest : List Char) :
    readChars (s.flatMap escapeChar ++ '"' :: rest)=some (s,rest) := by
  induction s with
  | nil => rfl
  | cons c s ih =>
    rw [List.flatMap_cons,List.append_assoc,readChars_escape,ih]
    rfl

/-- The text does not go on with a digit. -/
def NoDigit (rest : List Char) : Prop := ∀ c, rest.head? = some c → c.isDigit=false

private theorem decimal_isDigit (n : Nat) : ∀ c∈decimal n, c.isDigit=true :=
  fun _ hc => Nat.isDigit_of_mem_toDigits (by decide) (by decide) hc

variable {rest : List Char}

private theorem dropWhile_noDigit (h : NoDigit rest) :
    rest.takeWhile Char.isDigit=[] ∧ rest.dropWhile Char.isDigit=rest := by
  cases rest with
  | nil => exact ⟨rfl,rfl⟩
  | cons c rest =>
    have hc := h c rfl
    simp [hc]

theorem readNat_decimal (n : Nat) (h : NoDigit rest) :
    readNat (decimal n++rest)=some (n,rest) := by
  have htak : (decimal n++rest).takeWhile Char.isDigit=decimal n := by
    rw [List.takeWhile_append_of_pos (decimal_isDigit n),(dropWhile_noDigit h).1,
      List.append_nil]
  have hdro : (decimal n++rest).dropWhile Char.isDigit=rest := by
    rw [List.dropWhile_append_of_pos (decimal_isDigit n),(dropWhile_noDigit h).2]
  unfold readNat
  rw [htak,hdro]
  split
  · rename_i hnil
    exact absurd hnil Nat.toDigits_ne_nil
  · exact congrArg some (Prod.ext Nat.ofDigitChars_ten_toDigits rfl)

private theorem decimal_cons (n : Nat) : ∃ c cs, decimal n=c::cs ∧ c.isDigit=true := by
  cases h : decimal n with
  | nil => exact absurd h Nat.toDigits_ne_nil
  | cons c cs => exact ⟨c,cs,rfl,decimal_isDigit n c (h ▸ List.mem_cons_self)⟩

theorem readInt_writeInt (n : Int) (h : NoDigit rest) :
    readInt (writeInt n++rest)=some (n,rest) := by
  cases n with
  | ofNat n =>
    obtain ⟨c,cs,hcs,hc⟩ := decimal_cons n
    have hrea := readNat_decimal n h
    change readInt (decimal n++rest)=_
    rw [hcs,List.cons_append] at hrea ⊢
    rw [readInt,hrea]
    · rfl
    · rintro rest' ⟨⟩
      exact absurd hc (by decide)
  | negSucc n =>
    rw [writeInt,List.cons_append,readInt,readNat_decimal (n+1) h]
    rfl

variable {c : Char}

private theorem readValue_number {fuel : Nat} (rest : List Char)
    (hc : c.isDigit=true ∨ c = '-') :
    readValue (fuel+1) (c::rest)=(readInt (c::rest)).map fun p => (.num p.1,p.2) := by
  have hne : ∀ d : Char, d.isDigit=false → d ≠ '-' → c≠d := by
    rintro d hd hd' rfl
    rcases hc with hc | hc
    · exact absurd (hc.symm.trans hd) (by decide)
    · exact hd' hc
  rw [readValue]
  all_goals
    intros
    rename_i heq
    exact absurd (List.cons.inj heq).1 (hne _ (by decide) (by decide))

private theorem noDigit_cons (hc : c.isDigit=false) (rest : List Char) :
    NoDigit (c::rest) := by
  intro d hd
  rw [← Option.some.inj hd]
  exact hc

private def ReadsBack (v : Json) : Prop :=
  ∀ fuel rest, (write v).length ≤ fuel → NoDigit rest →
    readValue fuel (write v++rest)=some (v,rest)

private theorem write_cons (v : Json) : ∃ c cs, write v=c::cs ∧ c ≠ ']' := by
  cases v with
  | null => exact ⟨_,_,by rw [write],by decide⟩
  | bool b => cases b <;> exact ⟨_,_,by rw [write],by decide⟩
  | num n =>
    cases n with
    | ofNat n =>
      obtain ⟨c,cs,hcs,hc⟩ := decimal_cons n
      refine ⟨c,cs,by rw [write,writeInt,hcs],?_⟩
      intro h
      rw [h] at hc
      exact absurd hc (by decide)
    | negSucc n => exact ⟨_,_,by rw [write,writeInt],by decide⟩
  | str s => exact ⟨_,_,by rw [write,quote],by decide⟩
  | arr items => exact ⟨_,_,by rw [write],by decide⟩
  | obj fields => exact ⟨_,_,by rw [write],by decide⟩

private theorem joinComma_cons_cons (t u : List Char) (ts : List (List Char)) :
    joinComma (t::u::ts)=t ++ ',' :: joinComma (u::ts) := rfl

theorem joinComma_concat {ts : List (List Char)} (h : ts≠[]) (t : List Char) :
    joinComma (ts++[t])=joinComma ts ++ ',' :: t := by
  induction ts with
  | nil => exact absurd rfl h
  | cons u ts ih =>
    cases ts with
    | nil => rfl
    | cons v ts =>
      rw [List.cons_append,List.cons_append,joinComma_cons_cons,joinComma_cons_cons,
        ← List.cons_append,ih (List.cons_ne_nil _ _),List.append_assoc,List.cons_append]

private theorem readItems_joined (hrea : ∀ v∈items, ReadsBack v) :
    items≠[] → ∀ fuel rest, (joinComma (items.map write)).length+1 ≤ fuel →
      readItems fuel (joinComma (items.map write) ++ ']' :: rest)=some (items,rest) := by
  induction items with
  | nil => exact fun h => absurd rfl h
  | cons item items ih =>
    intro _ fuel rest hfue
    have hite := hrea item List.mem_cons_self
    obtain ⟨fuel,rfl⟩ : ∃ n, fuel=n+1 := ⟨fuel - 1,by omega⟩
    cases items with
    | nil =>
      simp only [List.map_cons,List.map_nil,joinComma] at hfue ⊢
      have hlas := hite fuel (']' :: rest) (by omega) (noDigit_cons (by decide) rest)
      simp only [readItems,hlas]
    | cons next items =>
      simp only [List.map_cons,joinComma,List.length_append,List.length_cons,
        List.append_assoc,List.cons_append] at hfue ⊢
      have htai := ih (fun v hv => hrea v (List.mem_cons_of_mem _ hv)) (List.cons_ne_nil _ _)
        fuel rest (by simp only [List.map_cons]; omega)
      simp only [List.map_cons] at htai
      have hhea := hite fuel (',' :: (joinComma (write next::items.map write) ++ ']' :: rest))
        (by omega) (noDigit_cons (by decide) _)
      simp only [readItems,hhea,htai,Option.map_some]

private theorem readFields_joined (fields : List (String × Json))
    (hrea : ∀ f∈fields, ReadsBack f.2) :
    fields≠[] → ∀ fuel rest,
      (joinComma (fields.map fun f => fieldText (f.1,write f.2))).length+1 ≤ fuel →
      readFields fuel (joinComma (fields.map fun f => fieldText (f.1,write f.2)) ++ '}' :: rest) =
        some (fields,rest) := by
  induction fields with
  | nil => exact fun h => absurd rfl h
  | cons field fields ih =>
    intro _ fuel rest hfue
    have hfie := hrea field List.mem_cons_self
    obtain ⟨fuel,rfl⟩ : ∃ n, fuel=n+1 := ⟨fuel - 1,by omega⟩
    have hkey : ∀ tail, readChars (field.1.toList.flatMap escapeChar ++ '"' :: (':' :: tail)) =
        some (field.1.toList,':' :: tail) := fun tail => readChars_escaped _ _
    cases fields with
    | nil =>
      simp only [List.map_cons,List.map_nil,joinComma,fieldText,quote,List.cons_append,
        List.append_assoc,List.nil_append,List.length_cons,List.length_append] at hfue ⊢
      have hlas := hfie fuel ('}' :: rest) (by omega) (noDigit_cons (by decide) rest)
      simp only [readFields,hkey,hlas,String.ofList_toList]
    | cons next fields =>
      have htai := ih (fun f hf => hrea f (List.mem_cons_of_mem _ hf)) (List.cons_ne_nil _ _)
        fuel rest (by
          simp only [List.map_cons,joinComma,List.length_append,List.length_cons] at hfue ⊢
          omega)
      simp only [List.map_cons] at htai hfue ⊢
      rw [joinComma_cons_cons] at hfue ⊢
      generalize joinComma (fieldText (next.1,write next.2) ::
        fields.map fun f => fieldText (f.1,write f.2))=tail at htai hfue ⊢
      simp only [fieldText,quote,List.cons_append,List.append_assoc,List.nil_append,
        List.length_cons,List.length_append] at hfue ⊢
      have hhea := hfie fuel (',' :: (tail ++ '}' :: rest)) (by omega)
        (noDigit_cons (by decide) _)
      simp only [readFields,hkey,hhea,htai,String.ofList_toList,Option.map_some]

private theorem joinComma_cons {t : List Char} {cs : List Char} (h : t=c::cs)
    (ts : List (List Char)) : ∃ rest, joinComma (t::ts)=c::rest := by
  cases ts with
  | nil => exact ⟨cs,h⟩
  | cons u ts => exact ⟨cs ++ ',' :: joinComma (u::ts),by rw [joinComma_cons_cons,h]; rfl⟩

private theorem readsBack_arr (hrea : ∀ v∈items, ReadsBack v) :
    ReadsBack (.arr items) := by
  intro fuel rest hfue _
  rw [write,itemTexts_eq] at hfue ⊢
  simp only [List.length_cons,List.length_append,List.length_nil] at hfue
  simp only [List.cons_append,List.append_assoc,List.nil_append]
  obtain ⟨fuel,rfl⟩ : ∃ n, fuel=n+1 := ⟨fuel - 1,by omega⟩
  cases items with
  | nil => rfl
  | cons item items =>
    have hite := readItems_joined (item::items) hrea (List.cons_ne_nil _ _) fuel rest (by omega)
    obtain ⟨c,cs,hcs,hc⟩ := write_cons item
    -- The first item does not start with the closing bracket.
    obtain ⟨tail,htai⟩ := joinComma_cons hcs (items.map write)
    rw [List.map_cons,htai,List.cons_append] at hite ⊢
    rw [readValue,hite]
    · rfl
    · intro _ h
      exact hc (List.cons.inj h).1

variable {fields : List (String × Json)}

private theorem readValue_objectText
    (hrea : ∀ f∈fields, ReadsBack f.2) (fuel : Nat) (rest : List Char)
    (hfue : (objectText fields).length ≤ fuel) :
    readValue fuel (objectText fields++rest)=some (.obj (ofFields fields),rest) := by
  unfold objectText at hfue ⊢
  simp only [List.length_cons,List.length_append,List.length_nil] at hfue
  simp only [List.cons_append,List.append_assoc,List.nil_append]
  obtain ⟨fuel,rfl⟩ : ∃ n, fuel=n+1 := ⟨fuel - 1,by omega⟩
  cases fields with
  | nil => rfl
  | cons field fields =>
    have hfie := readFields_joined (field::fields) hrea (List.cons_ne_nil _ _) fuel rest
      (by omega)
    obtain ⟨tail,htai⟩ := joinComma_cons (t := fieldText (field.1,write field.2)) rfl
      (fields.map fun f => fieldText (f.1,write f.2))
    rw [List.map_cons,htai,List.cons_append] at hfie ⊢
    rw [readValue,hfie]
    · rfl
    · intro _ h
      exact absurd (List.cons.inj h).1 (by decide)

private theorem readsBack_obj (fields : List (String × Json)) (hsor : KeysSorted fields)
    (hrea : ∀ f∈fields, ReadsBack f.2) : ReadsBack (.obj fields) := by
  intro fuel rest hfue _
  have hper := sortFields_perm fields
  rw [write_obj] at hfue ⊢
  rw [readValue_objectText (fun f hf => hrea f (hper.mem_iff.mp hf)) fuel rest hfue,
    ofFields_of_perm hsor hper]

private theorem readsBack_num (n : Int) : ReadsBack (.num n) := by
  intro fuel rest hfue hres
  obtain ⟨c,cs,hcs,hc⟩ : ∃ c cs, writeInt n=c::cs ∧ (c.isDigit=true ∨ c = '-') := by
    cases n with
    | ofNat n =>
      obtain ⟨c,cs,hcs,hc⟩ := decimal_cons n
      exact ⟨c,cs,hcs,Or.inl hc⟩
    | negSucc n => exact ⟨_,_,rfl,Or.inr rfl⟩
  have hint := readInt_writeInt n hres
  rw [write] at hfue ⊢
  rw [hcs,List.length_cons] at hfue
  obtain ⟨fuel,rfl⟩ : ∃ n, fuel=n+1 := ⟨fuel - 1,by omega⟩
  rw [hcs,List.cons_append] at hint ⊢
  rw [readValue_number _ hc,hint]
  rfl

theorem readValue_write (v : Json) (h : v.Ordered) : ReadsBack v := by
  induction h with
  | null =>
    intro fuel rest hfue _
    obtain ⟨fuel,rfl⟩ : ∃ n, fuel=n+1 := ⟨fuel - 1,by simp [write] at hfue; omega⟩
    rfl
  | bool b =>
    intro fuel rest hfue _
    cases b <;>
    · obtain ⟨fuel,rfl⟩ : ∃ n, fuel=n+1 := ⟨fuel - 1,by simp [write] at hfue; omega⟩
      rfl
  | num n => exact readsBack_num n
  | str s =>
    intro fuel rest hfue _
    obtain ⟨fuel,rfl⟩ : ∃ n, fuel=n+1 := ⟨fuel - 1,by simp [write,quote] at hfue; omega⟩
    simp only [write,quote,List.cons_append,List.append_assoc,List.nil_append,readValue,
      readChars_escaped,Option.map_some,String.ofList_toList]
  | arr _ ih => exact readsBack_arr _ ih
  | obj hsor _ ih => exact readsBack_obj _ hsor ih

def fromText (s : String) : Option Json :=
  match readValue (s.toList.length+1) s.toList with
  | some (v,[]) => some v
  | _ => none

theorem fromText_objectText
    (h : ∀ f∈fields, f.2.wellFormed=true) :
    fromText (String.ofList (objectText fields))=some (.obj (ofFields fields)) := by
  have hrea := readValue_objectText
    (fun f hf => readValue_write f.2 (ordered_of_wellFormed (h f hf)))
    ((objectText fields).length+1) [] (by omega)
  rw [List.append_nil] at hrea
  rw [fromText,String.toList_ofList,hrea]

variable {v : Json}

theorem fromText_canonicalText_of_ordered (h : v.Ordered) :
    fromText (canonicalText v)=some v := by
  have hrea := readValue_write v h (v.write.length+1) [] (by omega) (by intro c hc; cases hc)
  rw [List.append_nil] at hrea
  rw [fromText,canonicalText,String.toList_ofList,hrea]

theorem fromText_canonicalText (h : v.wellFormed=true) :
    fromText (canonicalText v)=some v :=
  fromText_canonicalText_of_ordered (ordered_of_wellFormed h)

theorem canonicalText_inj {w : Json} (hv : v.Ordered) (hw : w.Ordered)
    (h : v.canonicalText=w.canonicalText) : v=w := by
  have hrea := fromText_canonicalText_of_ordered hv
  rw [h,fromText_canonicalText_of_ordered hw] at hrea
  exact (Option.some.inj hrea).symm

/-- No control character, hence no line break. -/
def Printable (cs : List Char) : Prop := ∀ c∈cs, 32 ≤ c.toNat

instance (cs : List Char) : Decidable (Printable cs) :=
  List.decidableBAll (fun c : Char => 32 ≤ c.toNat) cs

private theorem Printable.cons {cs : List Char} (hc : 32 ≤ c.toNat) (h : Printable cs) :
    Printable (c::cs) :=
  List.forall_mem_cons.mpr ⟨hc,h⟩

private theorem Printable.append {as bs : List Char} (ha : Printable as) (hb : Printable bs) :
    Printable (as++bs) :=
  List.forall_mem_append.mpr ⟨ha,hb⟩

private theorem printable_escapeChar (c : Char) : Printable (escapeChar c) := by
  have hhex : ∀ n < 16, 32 ≤ (hexChar n).toNat := by decide
  refine escapeChar_elim (P := fun _ e => Printable e) c (by decide) (by decide) (by decide) (by decide) (by decide)
    (by decide) (by decide) ?_ ?_
  · intro hlow
    have hhi := hhex (c.toNat / 16) (by omega)
    have hlo := hhex (c.toNat % 16) (Nat.mod_lt _ (by decide))
    simp only [Printable,List.forall_mem_cons,List.not_mem_nil,false_imp_iff,implies_true,and_true]
    exact ⟨by decide,by decide,by decide,by decide,hhi,hlo⟩
  · intro _ _ hlow
    simp only [Printable,List.mem_singleton,forall_eq]
    omega

theorem printable_quote (s : String) : Printable (quote s) := by
  refine Printable.cons (by decide) (Printable.append ?_ (by simp [Printable]))
  intro c hc
  obtain ⟨d,-,hd⟩ := List.mem_flatMap.mp hc
  exact printable_escapeChar d c hd

private theorem printable_decimal (n : Nat) : Printable (decimal n) := by
  intro c hc
  have hdig := decimal_isDigit n c hc
  rw [Char.isDigit,Bool.and_eq_true,decide_eq_true_iff,decide_eq_true_iff] at hdig
  have hlow : 48 ≤ c.toNat := hdig.1
  omega

private theorem printable_joinComma {ts : List (List Char)} (h : ∀ t∈ts, Printable t) :
    Printable (joinComma ts) := by
  induction ts with
  | nil => simp [joinComma,Printable]
  | cons t ts ih =>
    obtain ⟨ht,hts⟩ := List.forall_mem_cons.mp h
    cases ts with
    | nil => exact ht
    | cons u ts => exact ht.append (Printable.cons (by decide) (ih hts))

theorem printable_objectText
    (h : ∀ f∈fields, Printable (write f.2)) : Printable (objectText fields) := by
  refine Printable.cons (by decide) (Printable.append (printable_joinComma ?_) (by simp [Printable]))
  intro t ht
  obtain ⟨f,hf,rfl⟩ := List.mem_map.mp ht
  exact (printable_quote f.1).append (Printable.cons (by decide) (h f hf))

theorem printable_write (v : Json) : Printable (write v) := by
  induction v using induct with
  | null => exact (by decide : Printable ['n','u','l','l'])
  | bool b =>
    cases b with
    | false => exact (by decide : Printable ['f','a','l','s','e'])
    | true => exact (by decide : Printable ['t','r','u','e'])
  | num n =>
    cases n with
    | ofNat n => exact printable_decimal n
    | negSucc n => exact Printable.cons (by decide) (printable_decimal _)
  | str s => exact printable_quote s
  | arr items ih =>
    rw [write,itemTexts_eq]
    refine Printable.cons (by decide) (Printable.append (printable_joinComma ?_) (by simp [Printable]))
    intro t ht
    obtain ⟨v,hv,rfl⟩ := List.mem_map.mp ht
    exact ih v hv
  | obj fields ih =>
    rw [write_obj]
    exact printable_objectText fun f hf => ih f ((sortFields_perm fields).mem_iff.mp hf)

theorem length_quote_le (s : String) : (quote s).length ≤ 6 * s.toList.length+2 := by
  have hesc : ∀ c, (escapeChar c).length ≤ 6 := by
    intro c
    exact escapeChar_elim (P := fun _ e => e.length ≤ 6) c (by decide) (by decide) (by decide) (by decide) (by decide)
      (by decide) (by decide) (fun _ => Nat.le_refl 6) (fun _ _ _ => by simp)
  have hfla : ∀ cs : List Char, (cs.flatMap escapeChar).length ≤ 6 * cs.length := by
    intro cs
    induction cs with
    | nil => simp
    | cons c cs ih =>
      have hc := hesc c
      rw [List.flatMap_cons,List.length_append,List.length_cons]
      omega
  have hs := hfla s.toList
  simp only [quote,List.length_cons,List.length_append,List.length_nil]
  omega

theorem length_objectText_le (fields : List (String × Json)) :
    (objectText fields).length ≤
      2+(fields.map fun f => (quote f.1).length+(write f.2).length+2).sum := by
  have hjoi : ∀ fs : List (String × Json),
      (joinComma (fs.map fun f => fieldText (f.1,write f.2))).length ≤
        (fs.map fun f => (quote f.1).length+(write f.2).length+2).sum := by
    intro fs
    induction fs with
    | nil => simp [joinComma]
    | cons f fs ih =>
      cases fs with
      | nil =>
        simp only [List.map_cons,List.map_nil,joinComma,fieldText,List.length_append,
          List.length_cons,List.sum_cons,List.sum_nil]
        omega
      | cons f' fs =>
        simp only [List.map_cons,joinComma,List.length_append,List.length_cons,fieldText,
          List.sum_cons] at ih ⊢
        omega
  have hfie := hjoi fields
  simp only [objectText,List.length_cons,List.length_append,List.length_nil]
  omega

theorem length_write_obj_le (fields : List (String × Json)) :
    (write (.obj fields)).length ≤
      2+(fields.map fun f => (quote f.1).length+(write f.2).length+2).sum := by
  have hper := (sortFields_perm fields).map fun f => (quote f.1).length+(write f.2).length+2
  rw [write_obj,← hper.sum_nat]
  exact length_objectText_le _

def fieldsLength (fields : List (String × Json)) : Nat :=
  (fields.map fun f => (quote f.1).length+(write f.2).length+2).sum

theorem length_canonicalText_obj_le (fields : List (String × Json)) :
    (canonicalText (.obj fields)).toList.length ≤ 2+fieldsLength fields := by
  rw [canonicalText,String.toList_ofList]
  exact length_write_obj_le fields

theorem fieldsLength_insertField_le (key : String) (value : Json) (fields : List (String × Json)) :
    fieldsLength (insertField key value fields) ≤
      fieldsLength fields+((quote key).length+(write value).length+2) := by
  induction fields with
  | nil => simp [insertField,fieldsLength]
  | cons field fields ih =>
    unfold fieldsLength at ih ⊢
    rw [insertField]
    split_ifs with heq hlt
    · simp only [List.map_cons,List.sum_cons]
      omega
    · simp only [List.map_cons,List.sum_cons]
      omega
    · simp only [List.map_cons,List.sum_cons] at ih ⊢
      omega

theorem fieldsLength_ofFields_le (fields : List (String × Json)) :
    fieldsLength (ofFields fields) ≤ fieldsLength fields := by
  have hfol : ∀ fields acc : List (String × Json),
      fieldsLength (fields.foldl (fun acc field => insertField field.1 field.2 acc) acc) ≤
        fieldsLength acc+fieldsLength fields := by
    intro fields
    induction fields with
    | nil => exact fun acc => Nat.le_add_right _ _
    | cons field fields ih =>
      intro acc
      have hins := fieldsLength_insertField_le field.1 field.2 acc
      have hres := ih (insertField field.1 field.2 acc)
      have hcon : fieldsLength (field::fields) =
          ((quote field.1).length+(write field.2).length+2)+fieldsLength fields := rfl
      rw [List.foldl_cons]
      omega
  have hall := hfol fields []
  rw [ofFields]
  simpa [fieldsLength] using hall

end Json

end CastleWall
