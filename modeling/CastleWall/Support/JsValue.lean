import CastleWall.Support.JsonText
import Mathlib.Data.Rat.Defs

/-! # Values of `JSON.parse`

Every number is one of ECMAScript's, a literal out of range being an infinity; an object keeps its
members in the order they were inserted. -/

namespace CastleWall

def hex64 (s : String) : Bool :=
  decide (s.toList.length=64) && s.toList.all fun c => c ∈ "0123456789abcdef".toList

inductive JsValue where
  | null
  | bool (b : Bool)
  | number (x : ℚ)
  | infinity (negative : Bool)
  | string (s : String)
  | array (items : List JsValue)
  | object (fields : List (String × JsValue))

namespace JsValue

def isObject : JsValue → Bool
  | .object _ => true
  | _ => false

def get : JsValue → String → Option JsValue
  | .object fields, key => fields.lookup key
  | _, _ => none

def asString : JsValue → Option String
  | .string s => some s
  | _ => none

def asArray : JsValue → Option (List JsValue)
  | .array items => some items
  | _ => none

def maxSafeInteger : Nat := 2 ^ 53 - 1

/-- A safe integer that is not negative. -/
def asNonNegativeInt : JsValue → Option Nat
  | .number x => if x.den=1 ∧ 0 ≤ x.num ∧ x.num.toNat ≤ maxSafeInteger then some x.num.toNat else none
  | _ => none

theorem asNonNegativeInt_natCast {n : Nat} (h : n ≤ maxSafeInteger) :
    (JsValue.number n).asNonNegativeInt=some n := by
  simp [asNonNegativeInt,h]

section Text

open Json

/-- `JSON.stringify` of a number: an integer below `10 ^ 21` is its digits, `shortest` renders the
rest. -/
def numberText (shortest : ℚ → String) (x : ℚ) : List Char :=
  if x.den=1 ∧ x.num.natAbs < 10 ^ 21 then writeInt x.num else (shortest x).toList

def membersText (fields : List (String × List Char)) : List Char :=
  '{' :: (joinComma (fields.map fieldText)++['}'])

mutual

def canonicalJson (shortest : ℚ → String) : JsValue → List Char
  | .null => "null".toList
  | .bool true => "true".toList
  | .bool false => "false".toList
  | .number x => numberText shortest x
  | .infinity _ => "null".toList
  | .string s => quote s
  | .array items => '[' :: (joinComma (canonicalItems shortest items)++[']'])
  | .object fields => membersText (sortFields (canonicalFields shortest fields))

def canonicalItems (shortest : ℚ → String) : List JsValue → List (List Char)
  | [] => []
  | item::items => canonicalJson shortest item::canonicalItems shortest items

def canonicalFields (shortest : ℚ → String) : List (String × JsValue) → List (String × List Char)
  | [] => []
  | field::fields => (field.1,canonicalJson shortest field.2)::canonicalFields shortest fields

end

theorem membersText_concat {fields : List (String × List Char)} (h : fields≠[])
    (last : String × List Char) :
    membersText (fields++[last]) =
      ('{' :: joinComma (fields.map fieldText)) ++ ',' :: (fieldText last++['}']) := by
  have hne : fields.map fieldText≠[] := fun hnil => h (List.map_eq_nil_iff.mp hnil)
  rw [membersText,List.map_append,List.map_singleton,joinComma_concat hne]
  simp

end Text

end JsValue

end CastleWall
