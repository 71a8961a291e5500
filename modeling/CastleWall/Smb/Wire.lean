import CastleWall.Smb.Schema
import CastleWall.Smb.RoundTrip
import CastleWall.Support.Base64

/-! # The daemon's schema interpreter

`matches`, `validate` and `validate_bytes` of `smb/wire.rs`. -/

namespace CastleWall.Smb

open Json Text

/-- What the daemon takes from its crates: `serde_json`'s reader of a string literal and the two
decoders of `base64`. -/
structure Crates where
  fromStr : List Char → Option String
  (standard urlSafeNoPad : List Char → Option (List UInt8))

structure Crates.Lawful (c : Crates) : Prop where
  fromStr : ∀ s, c.fromStr (quote s)=some s
  standard : ∀ bytes, c.standard (Base64.encodeStandard bytes)=some bytes
  urlSafeNoPad : ∀ bytes, c.urlSafeNoPad (Base64.encodeUrl bytes)=some bytes

namespace Constant

/-- `value == literal`. -/
def isValue : Constant → Value → Bool
  | .null, .null => true
  | .bool b, .bool c => b == c
  | .string s, .string t => s == t
  | _, _ => false

end Constant

namespace Wire

def decimalMatches (min max : UInt64) (text : String) : Bool :=
  text != "" && (text == "0" || !startsWith text "0") && text.toList.all Char.isDigit &&
    match parseUnsigned (2 ^ 64) text with
    | none => false
    | some n => decide (n ≤ max.toNat) && decide (min.toNat ≤ n)

def stringMatches (min max : Nat) (chars : Option CharSet) (text : String) : Bool :=
  decide (min ≤ (utf8Bytes text).length) && decide ((utf8Bytes text).length ≤ max) &&
    match chars with
    | none => true
    | some chars => text.toList.all fun c => chars.1.toList.contains c

def base64Matches (decode : List Char → Option (List UInt8)) (encode : List UInt8 → List Char)
    (max : Nat) (encodedMax : Option Nat) (text : String) : Bool :=
  if encodedMax.any (fun bound => bound < (utf8Bytes text).length) then false
  else
    match decode text.toList with
    | none => false
    | some bytes => decide (bytes.length ≤ max) && encode bytes == text.toList

def isInteger (n : Number) : Bool := n.asF64.any fun x => x.den == 1

mutual

/-- `matches`, by the operation of the schema. -/
def matchesSpec (c : Crates) (schema : Schema) (value : Value) (depth : Nat) : Bool :=
  if jsonMaxDepth+1 < depth then false
  else
    match schema with
    | .const literal => literal.isValue value
    | .enum values => value.asStr.any fun s => values.contains s
    | .oneOf alternatives => matchCount c alternatives value depth == 1
    | .object fields =>
      value.asObject.any fun values =>
        values.length == fields.length && matchFields c fields values (depth+1)
    | .array items max =>
      value.asArray.any fun values =>
        decide (values.length ≤ max) && values.all fun v => matchesSpec c items v (depth+1)
    | .decimal min max => value.asStr.any fun text => decimalMatches min max text
    | .integer => value.asNumber.any isInteger
    | .string min max chars => value.asStr.any fun text => stringMatches min max chars text
    | .prefixed constant suffix =>
      value.asStr.any fun text =>
        (stripPrefix text constant).any fun rest => matchesSpec c suffix (.string rest) (depth+1)
    | .base64 max encodedMax =>
      value.asStr.any fun text =>
        base64Matches c.standard Base64.encodeStandard max encodedMax text
    | .base64url max encodedMax =>
      value.asStr.any fun text =>
        base64Matches c.urlSafeNoPad Base64.encodeUrl max encodedMax text
    | .json => true

def matchCount (c : Crates) (schemas : List Schema) (value : Value) (depth : Nat) : Nat :=
  match schemas with
  | [] => 0
  | schema::schemas =>
    (if matchesSpec c schema value depth then 1 else 0)+matchCount c schemas value depth

def matchFields (c : Crates) (fields : List (String × Schema)) (values : List (String × Value))
    (depth : Nat) : Bool :=
  match fields with
  | [] => true
  | field::fields =>
    (values.lookup field.1).any (fun v => matchesSpec c field.2 v depth) &&
      matchFields c fields values depth

end

def validate (c : Crates) (schema : String) (value : Value) : Bool :=
  (match Jcs.encode value with
    | .error _ => false
    | .ok text =>
      (StrictJson.parse c.fromStr (utf8Bytes (String.ofList text)) taskStoreBytes).isOk) &&
    (Schema.registry.lookup schema).any fun spec => matchesSpec c spec value 0

def validateBytes (c : Crates) (schema : String) (bytes : List UInt8) (maximum : Nat) :
    Except String Value := do
  let value ← StrictJson.parse c.fromStr bytes maximum
  if validate c schema value then .ok value else .error "SMB schema"

theorem lookup_eq_some {α : Type} {fields : List (String × α)} (h : (fields.map Prod.fst).Nodup)
    {key : String} {value : α} : fields.lookup key=some value ↔ (key,value)∈fields := by
  induction fields with
  | nil => simp
  | cons field fields ih =>
    obtain ⟨name,first⟩ := field
    rw [List.map_cons,List.nodup_cons] at h
    rw [List.lookup_cons,List.mem_cons,Prod.mk.injEq]
    by_cases hkey : key=name
    · have hnot : (name,value)∉fields := by
        intro hmem
        exact h.1 (List.mem_map.mpr ⟨_,hmem,rfl⟩)
      simp [hkey,hnot,eq_comm]
    · have hbeq : (key == name)=false := beq_eq_false_iff_ne.mpr hkey
      simp only [hbeq,hkey,false_and,false_or]
      exact ih h.2

theorem lookup_of_perm {α : Type} {fields written : List (String × α)} (hper : written.Perm fields)
    (h : (fields.map Prod.fst).Nodup) (key : String) : written.lookup key=fields.lookup key := by
  have hwri : (written.map Prod.fst).Nodup := (hper.map Prod.fst).nodup_iff.mpr h
  apply Option.ext
  intro value
  rw [lookup_eq_some h,lookup_eq_some hwri,hper.mem_iff]

theorem lookup_map {α β : Type} (f : α → β) (fields : List (String × α)) (key : String) :
    (fields.map fun g => (g.1,f g.2)).lookup key=(fields.lookup key).map f := by
  induction fields with
  | nil => rfl
  | cons field fields ih =>
    rw [List.map_cons,List.lookup_cons,List.lookup_cons]
    cases key == field.1 with
    | true => rfl
    | false => exact ih

private theorem lookup_strict {fields : List (String × Value)} (h : (fields.map Prod.fst).Nodup)
    (key : String) :
    (sortFields (fields.map fun f => (f.1,f.2.strict))).lookup key =
      (fields.lookup key).map Value.strict := by
  rw [lookup_of_perm (sortFields_perm _) (by rw [List.map_map]; exact h),lookup_map]

variable {c : Crates}

private theorem asStr_strict (v : Value) : v.strict.asStr=v.asStr := by
  cases v <;> rfl

private theorem isValue_strict (literal : Constant) (v : Value) :
    literal.isValue v.strict=literal.isValue v := by
  cases literal <;> cases v <;> rfl

theorem matchesSpec_strict (schema : Schema) (v : Value) (depth : Nat) (hdis : v.distinct=true) :
    matchesSpec c schema v.strict depth=matchesSpec c schema v depth := by
  induction schema using Schema.induct generalizing v depth with
  | const literal => rw [matchesSpec,matchesSpec,isValue_strict]
  | enum values => rw [matchesSpec,matchesSpec,asStr_strict]
  | oneOf alternatives ih =>
    have hcou : matchCount c alternatives v.strict depth=matchCount c alternatives v depth := by
      induction alternatives with
      | nil => rfl
      | cons s ss ihs =>
        rw [matchCount,matchCount,ih s List.mem_cons_self v depth hdis,
          ihs fun s hs => ih s (List.mem_cons_of_mem _ hs)]
    rw [matchesSpec,matchesSpec,hcou]
  | object fields ih =>
    rw [matchesSpec,matchesSpec]
    cases v with
    | object values =>
      obtain ⟨hnod,hval⟩ := Value.distinct_object.mp hdis
      have hlen : (sortFields (values.map fun f => (f.1,f.2.strict))).length=values.length := by
        rw [(sortFields_perm _).length_eq,List.length_map]
      have hfie : matchFields c fields (sortFields (values.map fun f => (f.1,f.2.strict))) (depth+1) =
          matchFields c fields values (depth+1) := by
        clear hlen
        induction fields with
        | nil => rfl
        | cons field fields ihs =>
          rw [matchFields,matchFields,lookup_strict hnod,
            ihs fun f hf => ih f (List.mem_cons_of_mem _ hf)]
          cases hloo : values.lookup field.1 with
          | none => rfl
          | some w =>
            have hmem := (lookup_eq_some hnod).mp hloo
            rw [Option.map_some,Option.any_some,Option.any_some,
              ih field List.mem_cons_self w (depth+1) (hval _ hmem)]
      rw [Value.strict,Value.strictFields_eq,Value.asObject,Value.asObject,Option.any_some,
        Option.any_some,hlen,hfie]
    | null => rfl
    | bool b => rfl
    | number n => rfl
    | string s => rfl
    | array items => rfl
  | array items max ih =>
    rw [matchesSpec,matchesSpec]
    cases v with
    | array values =>
      have hval := Value.distinct_array.mp hdis
      have hall : (values.map Value.strict).all (fun v => matchesSpec c items v (depth+1)) =
          values.all fun v => matchesSpec c items v (depth+1) := by
        rw [List.all_map,Bool.eq_iff_iff,List.all_eq_true,List.all_eq_true]
        apply forall₂_congr
        intro v hv
        rw [Function.comp_apply,ih v (depth+1) (hval v hv)]
      rw [Value.strict,Value.strictItems_eq,Value.asArray,Value.asArray,Option.any_some,
        Option.any_some,List.length_map,hall]
    | null => rfl
    | bool b => rfl
    | number n => rfl
    | string s => rfl
    | object fields => rfl
  | decimal min max => rw [matchesSpec,matchesSpec,asStr_strict]
  | integer =>
    rw [matchesSpec,matchesSpec]
    cases v with
    | number n =>
      rw [Value.strict,Value.asNumber,Value.asNumber,Option.any_some,Option.any_some,isInteger,
        isInteger,StrictJson.asF64_strict]
    | null => rfl
    | bool b => rfl
    | string s => rfl
    | array items => rfl
    | object fields => rfl
  | string min max chars => rw [matchesSpec,matchesSpec,asStr_strict]
  | prefixed constant suffix ih => rw [matchesSpec,matchesSpec,asStr_strict]
  | base64 max encodedMax => rw [matchesSpec,matchesSpec,asStr_strict]
  | base64url max encodedMax => rw [matchesSpec,matchesSpec,asStr_strict]
  | json => rw [matchesSpec,matchesSpec]

theorem validate_strict (schema : String) (v : Value) (hdis : v.distinct=true) :
    validate c schema v.strict=validate c schema v := by
  rw [validate,validate,Jcs.encode,Jcs.encode,StrictJson.encodeAt_strict v 0 hdis]
  cases Schema.registry.lookup schema with
  | none => rfl
  | some spec => rw [Option.any_some,Option.any_some,matchesSpec_strict spec v 0 hdis]

theorem validate_ok {schema : String} {v : Value} (h : validate c schema v=true) :
    ∃ text, Jcs.encode v=.ok text ∧
      (utf8Bytes (String.ofList text)).length ≤ taskStoreBytes := by
  rw [validate,Bool.and_eq_true] at h
  cases htex : Jcs.encode v with
  | error e => simp [htex] at h
  | ok text =>
    simp only [htex] at h
    refine ⟨text,rfl,?_⟩
    cases hpar : StrictJson.parse c.fromStr (utf8Bytes (String.ofList text)) taskStoreBytes with
    | error e => simp [hpar,Except.isOk,Except.toBool] at h
    | ok w => exact (StrictJson.parse_ok hpar).1

/-- The strict parse of the text only checks its size. -/
theorem validate_eq (hfromStr : ∀ s, c.fromStr (quote s)=some s) (schema : String) {v : Value}
    (hdis : v.distinct=true) :
    validate c schema v =
      ((match Jcs.encode v with
        | .error _ => false
        | .ok text => decide ((utf8Bytes (String.ofList text)).length ≤ taskStoreBytes)) &&
      (Schema.registry.lookup schema).any fun spec => matchesSpec c spec v 0) := by
  rw [validate]
  cases htex : Jcs.encode v with
  | error e => rfl
  | ok text =>
    by_cases hsiz : (utf8Bytes (String.ofList text)).length ≤ taskStoreBytes
    · simp only [StrictJson.parse_encode hfromStr htex hdis hsiz,decide_eq_true hsiz]
      rfl
    · simp only [StrictJson.parse,if_pos (not_le.mp hsiz),decide_eq_false hsiz]
      rfl

end Wire

def Crates.reference : Crates where
  fromStr
    | '"' :: cs => (readChars cs).bind fun p => if p.2=[] then some (String.ofList p.1) else none
    | _ => none
  standard := Base64.atob
  urlSafeNoPad := Base64.decodeUrl

theorem Crates.reference_lawful : Crates.reference.Lawful where
  fromStr s := by
    have hrea := readChars_escaped s.toList []
    simp only [reference,quote,hrea,Option.bind_some,if_true,String.ofList_toList]
  standard := Base64.atob_encodeStandard
  urlSafeNoPad := Base64.decodeUrl_encodeUrl

end CastleWall.Smb
