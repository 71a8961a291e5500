import CastleWall.Support.Binary64
import CastleWall.Support.JsonText

/-! # Value trees

JSON values as the two runtimes hold them: numbers are 64-bit integers or binary64, and an object
keeps its fields in the order they were inserted. -/

namespace CastleWall

def Binary64.Finite : Type := { x : ℚ // Binary64.nearest x=some x }

instance : DecidableEq Binary64.Finite := inferInstanceAs (DecidableEq (Subtype _))

def Binary64.Finite.round (q : ℚ) : Option Binary64.Finite :=
  match h : Binary64.nearest q with
  | none => none
  | some x => some ⟨x,Binary64.nearest_of_nearest h⟩

theorem Binary64.Finite.round_eq_some {q : ℚ} {x : Binary64.Finite} :
    round q=some x ↔ Binary64.nearest q=some x.1 := by
  unfold round
  split
  · rename_i h
    simp [h]
  · rename_i y h
    constructor
    · intro heq
      rw [← Option.some.inj heq]
      exact h
    · intro heq
      have hy : y=x.1 := Option.some.inj (h.symm.trans heq)
      exact congrArg some (Subtype.ext hy)

/-- The numbers of a `serde_json::Value`. -/
inductive Number where
  | posInt (n : Nat) (fits : n < 2 ^ 64)
  | negInt (n : Nat) (fits : 0 < n ∧ n ≤ 2 ^ 63)
  | float (x : Binary64.Finite)

namespace Number

/-- The number itself; `negInt n` holds `-n`. -/
def exact : Number → ℚ
  | posInt n _ => n
  | negInt n _ => -n
  | float x => x.1

/-- The binary64 number nearest to it, which is what a program that has no other numbers holds. -/
def asF64 (n : Number) : Option ℚ := Binary64.nearest n.exact

end Number

inductive Value where
  | null
  | bool (b : Bool)
  | number (n : Number)
  | string (s : String)
  | array (items : List Value)
  | object (fields : List (String × Value))

namespace Value

def asStr : Value → Option String
  | .string s => some s
  | _ => none

def asNumber : Value → Option Number
  | .number n => some n
  | _ => none

def asArray : Value → Option (List Value)
  | .array items => some items
  | _ => none

def asObject : Value → Option (List (String × Value))
  | .object fields => some fields
  | _ => none

def get (v : Value) (key : String) : Option Value := v.asObject.bind fun fields => fields.lookup key

theorem induct {p : Value → Prop} (null : p .null) (bool : ∀ b, p (.bool b))
    (number : ∀ n, p (.number n)) (string : ∀ s, p (.string s))
    (array : ∀ items, (∀ v∈items, p v) → p (.array items))
    (object : ∀ fields, (∀ f∈fields, p f.2) → p (.object fields)) : ∀ v, p v := by
  intro v
  refine @Value.rec p (fun items => ∀ v∈items, p v) (fun fields => ∀ f∈fields, p f.2)
    (fun f => p f.2) null bool number string array object (by simp) ?_ (by simp) ?_
    (fun _ _ h => h) v
  · intro item items hitm hite
    exact List.forall_mem_cons.mpr ⟨hitm,hite⟩
  · intro field fields hfie hfis
    exact List.forall_mem_cons.mpr ⟨hfie,hfis⟩

mutual

/-- The JSON value a tree without binary64 numbers stands for: an object is a map, whatever the
order of its fields. -/
def toJson : Value → Option Json
  | .null => some .null
  | .bool b => some (.bool b)
  | .number (.posInt n _) => some (.num n)
  | .number (.negInt n _) => some (.num (-n))
  | .number (.float _) => none
  | .string s => some (.str s)
  | .array items => (toJsonItems items).map .arr
  | .object fields =>
    if (fields.map Prod.fst).Nodup then (toJsonFields fields).map fun fs => .obj (Json.ofFields fs)
    else none

def toJsonItems : List Value → Option (List Json)
  | [] => some []
  | item::items =>
    (toJson item).bind fun j => (toJsonItems items).map fun js => j::js

def toJsonFields : List (String × Value) → Option (List (String × Json))
  | [] => some []
  | field::fields =>
    (toJson field.2).bind fun j => (toJsonFields fields).map fun js => (field.1,j)::js

end

theorem toJsonItems_eq_some {items : List Value} {js : List Json} :
    toJsonItems items=some js ↔ List.Forall₂ (fun v j => v.toJson=some j) items js := by
  induction items generalizing js with
  | nil => simp [toJsonItems,List.forall₂_nil_left_iff,eq_comm]
  | cons item items ih =>
    rw [toJsonItems,List.forall₂_cons_left_iff]
    simp only [Option.bind_eq_some_iff,Option.map_eq_some_iff,ih]
    constructor
    · rintro ⟨j,hj,rest,hres,rfl⟩
      exact ⟨j,rest,hj,hres,rfl⟩
    · rintro ⟨j,rest,hj,hres,rfl⟩
      exact ⟨j,hj,rest,hres,rfl⟩

variable {fields : List (String × Value)}

theorem toJsonFields_eq_some {js : List (String × Json)} :
    toJsonFields fields=some js ↔
      List.Forall₂ (fun f g => f.1=g.1 ∧ f.2.toJson=some g.2) fields js := by
  induction fields generalizing js with
  | nil => simp [toJsonFields,List.forall₂_nil_left_iff,eq_comm]
  | cons field fields ih =>
    rw [toJsonFields,List.forall₂_cons_left_iff]
    simp only [Option.bind_eq_some_iff,Option.map_eq_some_iff,ih]
    constructor
    · rintro ⟨j,hj,rest,hres,rfl⟩
      exact ⟨(field.1,j),rest,⟨rfl,hj⟩,hres,rfl⟩
    · rintro ⟨⟨key,j⟩,rest,⟨rfl,hj⟩,hres,rfl⟩
      exact ⟨j,hj,rest,hres,rfl⟩

variable {j : Json}

theorem toJson_object :
    (Value.object fields).toJson=some j ↔ (fields.map Prod.fst).Nodup ∧
      ∃ js, List.Forall₂ (fun f g => f.1=g.1 ∧ f.2.toJson=some g.2) fields js ∧
        .obj (Json.ofFields js)=j := by
  rw [toJson]
  by_cases hnod : (fields.map Prod.fst).Nodup
  · rw [if_pos hnod]
    simp only [Option.map_eq_some_iff,toJsonFields_eq_some,hnod,true_and]
  · simp [hnod]

theorem toJson_array {items : List Value} :
    (Value.array items).toJson=some j ↔
      ∃ js, List.Forall₂ (fun v j => v.toJson=some j) items js ∧ .arr js=j := by
  rw [toJson]
  simp only [Option.map_eq_some_iff,toJsonItems_eq_some]

theorem keys_of_forall₂ {js : List (String × Json)}
    (h : List.Forall₂ (fun f g => f.1=g.1 ∧ f.2.toJson=some g.2) fields js) :
    fields.map Prod.fst=js.map Prod.fst := by
  induction h with
  | nil => rfl
  | cons hfie _ ih => rw [List.map_cons,List.map_cons,hfie.1,ih]

theorem wellFormed_of_toJson {v : Value} (h : v.toJson=some j) :
    j.wellFormed=true := by
  induction v using induct generalizing j with
  | null => simp [← Option.some.inj h,Json.wellFormed]
  | bool b => simp [← Option.some.inj h,Json.wellFormed]
  | number n =>
    cases n with
    | posInt n fits =>
      rw [← Option.some.inj h,Json.wellFormed]
      exact decide_eq_true (by omega)
    | negInt n fits =>
      rw [← Option.some.inj h,Json.wellFormed]
      exact decide_eq_true (by omega)
    | float x => exact absurd h (by simp [toJson])
  | string s => simp [← Option.some.inj h,Json.wellFormed]
  | array items ih =>
    obtain ⟨js,hjs,rfl⟩ := toJson_array.mp h
    rw [Json.wellFormed]
    clear h
    induction hjs with
    | nil => rfl
    | @cons item j items js hite _ ihs =>
      rw [Json.wellFormedItems,Bool.and_eq_true]
      exact ⟨ih item List.mem_cons_self hite,
        ihs fun v hv => ih v (List.mem_cons_of_mem _ hv)⟩
  | object fields ih =>
    obtain ⟨-,js,hjs,rfl⟩ := toJson_object.mp h
    apply Json.wellFormed_ofFields
    clear h
    induction hjs with
    | nil => simp
    | @cons field g fields js hfie _ ihs =>
      exact List.forall_mem_cons.mpr ⟨ih field List.mem_cons_self hfie.2,
        ihs fun f hf => ih f (List.mem_cons_of_mem _ hf)⟩

mutual

def distinct : Value → Bool
  | .array items => distinctItems items
  | .object fields => decide (fields.map Prod.fst).Nodup && distinctFields fields
  | _ => true

def distinctItems : List Value → Bool
  | [] => true
  | item::items => item.distinct && distinctItems items

def distinctFields : List (String × Value) → Bool
  | [] => true
  | field::fields => field.2.distinct && distinctFields fields

end

mutual

def nesting : Value → Nat
  | .array items => nestingItems items+1
  | .object fields => nestingFields fields+1
  | _ => 0

def nestingItems : List Value → Nat
  | [] => 0
  | item::items => max item.nesting (nestingItems items)

def nestingFields : List (String × Value) → Nat
  | [] => 0
  | field::fields => max field.2.nesting (nestingFields fields)

end

theorem distinct_array {items : List Value} :
    (Value.array items).distinct=true ↔ ∀ v∈items, v.distinct=true := by
  rw [distinct]
  induction items with
  | nil => simp [distinctItems]
  | cons item items ih => rw [distinctItems,Bool.and_eq_true,ih,List.forall_mem_cons]

theorem distinct_object {fields : List (String × Value)} :
    (Value.object fields).distinct=true ↔
      (fields.map Prod.fst).Nodup ∧ ∀ f∈fields, f.2.distinct=true := by
  have hfie : distinctFields fields=true ↔ ∀ f∈fields, f.2.distinct=true := by
    induction fields with
    | nil => simp [distinctFields]
    | cons field fields ih => rw [distinctFields,Bool.and_eq_true,ih,List.forall_mem_cons]
  rw [distinct,Bool.and_eq_true,decide_eq_true_iff,hfie]

theorem nesting_array_le {items : List Value} {d : Nat} :
    (Value.array items).nesting ≤ d+1 ↔ ∀ v∈items, v.nesting ≤ d := by
  rw [nesting,Nat.add_le_add_iff_right]
  induction items with
  | nil => simp [nestingItems]
  | cons item items ih => rw [nestingItems,Nat.max_le,ih,List.forall_mem_cons]

theorem nesting_object_le {fields : List (String × Value)} {d : Nat} :
    (Value.object fields).nesting ≤ d+1 ↔ ∀ f∈fields, f.2.nesting ≤ d := by
  rw [nesting,Nat.add_le_add_iff_right]
  induction fields with
  | nil => simp [nestingFields]
  | cons field fields ih => rw [nestingFields,Nat.max_le,ih,List.forall_mem_cons]

end Value

/-! ## Meaning

What a tree says, apart from how it holds it: a number is a rational and an object a map, here the
list of its fields in one order. -/

inductive Meaning where
  | null
  | bool (b : Bool)
  | number (q : ℚ)
  | string (s : String)
  | array (items : List Meaning)
  | object (fields : List (String × Meaning))

namespace Value

mutual

def meaning : Value → Meaning
  | .null => .null
  | .bool b => .bool b
  | .number n => .number n.exact
  | .string s => .string s
  | .array items => .array (meaningItems items)
  | .object fields => .object (Json.sortFields (meaningFields fields))

def meaningItems : List Value → List Meaning
  | [] => []
  | item::items => item.meaning::meaningItems items

def meaningFields : List (String × Value) → List (String × Meaning)
  | [] => []
  | field::fields => (field.1,field.2.meaning)::meaningFields fields

end

theorem meaningItems_eq (items : List Value) : meaningItems items=items.map meaning := by
  induction items with
  | nil => rfl
  | cons item items ih => rw [meaningItems,ih,List.map_cons]

theorem meaningFields_eq (fields : List (String × Value)) :
    meaningFields fields=fields.map fun f => (f.1,f.2.meaning) := by
  induction fields with
  | nil => rfl
  | cons field fields ih => rw [meaningFields,ih,List.map_cons]

end Value

end CastleWall
