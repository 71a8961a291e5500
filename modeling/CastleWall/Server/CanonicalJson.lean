import CastleWall.Manifest.CanonicalJson
import CastleWall.Consumer.Envelope
import Mathlib

/-! # Canonical JSON on the two sides

The encoder of `server/src/mesh/canonical-json.ts` over value trees, and how it compares with the
daemon's. -/

namespace CastleWall

namespace Server.CanonicalJson

open Json Text

inductive MeshCanonicalJsonError where
  | nonFinite
  | unsafeInteger (value : ℚ)

/-- The escape of one code point inside `JSON.stringify`'s string literal. -/
def stringifyChar (c : Char) : List Char :=
  if c.toNat=0x08 then ['\\','b']
  else if c.toNat=0x09 then ['\\','t']
  else if c.toNat=0x0a then ['\\','n']
  else if c.toNat=0x0c then ['\\','f']
  else if c.toNat=0x0d then ['\\','r']
  else if c.toNat=0x22 then ['\\','"']
  else if c.toNat=0x5c then ['\\','\\']
  else if c.toNat < 0x20 then
    ['\\','u','0','0',hexChar (c.toNat / 16),hexChar (c.toNat % 16)]
  else [c]

def stringifyString (s : String) : List Char := '"' :: (s.toList.flatMap stringifyChar++['"'])

/-- `JSON.stringify` of a number: an integer is its decimal digits, `shortest` renders the rest. -/
def stringifyNumber (shortest : ℚ → String) (x : ℚ) : List Char :=
  if x.den=1 then writeInt x.num else (shortest x).toList

def maxSafeInteger : Nat := 2 ^ 53 - 1

def isUnsafeInteger (x : ℚ) : Bool := decide (x.den=1 ∧ maxSafeInteger < x.num.natAbs)

def encodeNumber (shortest : ℚ → String) (n : Number) : Except MeshCanonicalJsonError (List Char) :=
  match n.asF64 with
  | none => .error .nonFinite
  | some value =>
    if isUnsafeInteger value then .error (.unsafeInteger value)
    else .ok (stringifyNumber shortest value)

mutual

def encode (shortest : ℚ → String) : Value → Except MeshCanonicalJsonError (List Char)
  | .null => .ok ['n','u','l','l']
  | .bool b => .ok (if b then ['t','r','u','e'] else ['f','a','l','s','e'])
  | .number n => encodeNumber shortest n
  | .string s => .ok (stringifyString s)
  | .array items =>
    (Json.sequence (encodeArray shortest items)).map fun parts => '[' :: (joinComma parts++[']'])
  | .object fields =>
    (Json.sequence ((sortFields (encodeObject shortest fields)).map fun field =>
      field.2.map fun text => stringifyString field.1 ++ ':' :: text)).map fun parts =>
        '{' :: (joinComma parts++['}'])

def encodeArray (shortest : ℚ → String) :
    List Value → List (Except MeshCanonicalJsonError (List Char))
  | [] => []
  | item::items => encode shortest item::encodeArray shortest items

def encodeObject (shortest : ℚ → String) :
    List (String × Value) → List (String × Except MeshCanonicalJsonError (List Char))
  | [] => []
  | field::fields => (field.1,encode shortest field.2)::encodeObject shortest fields

end

def canonicalizeToBytes (shortest : ℚ → String) (v : Value) :
    Except MeshCanonicalJsonError (List UInt8) :=
  (encode shortest v).map fun text => utf8Bytes (String.ofList text)

theorem stringifyChar_eq (c : Char) : stringifyChar c=escapeChar c := by
  have hquo : c = '"' ↔ c.toNat=0x22 :=
    ⟨fun h => h ▸ rfl,fun h => Char.ext (UInt32.toNat_inj.mp h)⟩
  have hsla : c = '\\' ↔ c.toNat=0x5c :=
    ⟨fun h => h ▸ rfl,fun h => Char.ext (UInt32.toNat_inj.mp h)⟩
  unfold stringifyChar escapeChar
  simp only [hquo,hsla]
  grind

theorem stringifyString_eq (s : String) : stringifyString s=quote s := by
  have hcha : stringifyChar=escapeChar := funext stringifyChar_eq
  rw [stringifyString,hcha,quote]

variable (shortest : ℚ → String)

theorem encodeArray_eq (items : List Value) :
    encodeArray shortest items=items.map (encode shortest) := by
  induction items with
  | nil => rfl
  | cons item items ih => rw [encodeArray,ih,List.map_cons]

theorem encodeObject_eq (fields : List (String × Value)) :
    encodeObject shortest fields=fields.map fun f => (f.1,encode shortest f.2) := by
  induction fields with
  | nil => rfl
  | cons field fields ih => rw [encodeObject,ih,List.map_cons]

private theorem encodeNumber_integer {n : Number} {k : Int} (hn : n.exact=k)
    (hk : Consumer.isSafeInteger k=true) : encodeNumber shortest n=.ok (writeInt k) := by
  have hsaf := of_decide_eq_true hk
  have habs : |k| < 2 ^ 53 := abs_lt.mpr hsaf
  have hf64 : n.asF64=some (k : ℚ) := by
    rw [Number.asF64,hn,Binary64.nearest_intCast habs]
  have hins : isUnsafeInteger (k : ℚ)=false := by
    apply decide_eq_false
    rintro ⟨-,hlar⟩
    rw [Rat.num_intCast,maxSafeInteger] at hlar
    omega
  unfold encodeNumber
  simp only [hf64,hins,Bool.false_eq_true,if_false,stringifyNumber,Rat.den_intCast,if_true,
    Rat.num_intCast]

/-- The server writes the canonical text of a JSON value whose integers are all safe. -/
theorem encode_of_toJson {v : Value} {j : Json} (h : v.toJson=some j)
    (hsaf : Consumer.firstUnsafe j=none) : encode shortest v=.ok j.write := by
  induction v using Value.induct generalizing j with
  | null =>
    rw [← Option.some.inj h]
    rfl
  | bool b =>
    rw [← Option.some.inj h]
    cases b <;> rfl
  | number n =>
    rw [encode]
    cases n with
    | posInt n fits =>
      obtain rfl := Option.some.inj h
      rw [write]
      apply encodeNumber_integer shortest (by simp [Number.exact])
      by_contra huns
      simp [Consumer.firstUnsafe,huns] at hsaf
    | negInt n fits =>
      obtain rfl := Option.some.inj h
      rw [write]
      apply encodeNumber_integer shortest (by simp [Number.exact])
      by_contra huns
      simp [Consumer.firstUnsafe,huns] at hsaf
    | float x => exact absurd h (by simp [Value.toJson])
  | string s =>
    rw [← Option.some.inj h,encode,stringifyString_eq]
    rfl
  | array items ih =>
    obtain ⟨js,hjs,rfl⟩ := Value.toJson_array.mp h
    have hite : items.map (encode shortest)=js.map fun j => .ok (write j) := by
      clear h
      induction hjs with
      | nil => rfl
      | @cons item j items js hitm _ ihs =>
        rw [Consumer.firstUnsafe,Consumer.firstUnsafeItem,Option.or_eq_none_iff] at hsaf
        rw [List.map_cons,List.map_cons,ih item List.mem_cons_self hitm hsaf.1,
          ihs (fun v hv => ih v (List.mem_cons_of_mem _ hv)) hsaf.2]
    rw [encode,encodeArray_eq,hite,sequence_map_ok,write,itemTexts_eq]
    rfl
  | object fields ih =>
    obtain ⟨hnod,js,hjs,rfl⟩ := Value.toJson_object.mp h
    rw [Value.keys_of_forall₂ hjs] at hnod
    have hsaf' : ∀ g∈js, Consumer.firstUnsafe g.2=none := fun g hg =>
      Consumer.firstUnsafe_obj.mp hsaf g ((ofFields_perm hnod).mem_iff.mpr hg)
    have hfie : (fields.map fun f => (f.1,encode shortest f.2)) =
        js.map fun g => (g.1,.ok (write g.2)) := by
      clear h hnod hsaf
      induction hjs with
      | nil => rfl
      | @cons field g fields js hfid _ ihs =>
        obtain ⟨hg,hres⟩ := List.forall_mem_cons.mp hsaf'
        rw [List.map_cons,List.map_cons,hfid.1,ih field List.mem_cons_self hfid.2 hg,
          ihs (fun f hf => ih f (List.mem_cons_of_mem _ hf)) hres]
    rw [encode,encodeObject_eq,hfie]
    simp only [stringifyString_eq]
    exact sequence_fields hnod

def UnsafeInteger (n : Number) : Prop := n.exact.den=1 ∧ maxSafeInteger < n.exact.num.natAbs

private theorem isUnsafeInteger_intCast {k : Int} {x : ℚ} (hx : Binary64.nearest (k : ℚ)=some x) :
    isUnsafeInteger x=true ↔ maxSafeInteger < k.natAbs := by
  rw [isUnsafeInteger,decide_eq_true_iff]
  by_cases hsma : |k| < 2 ^ 53
  · rw [Binary64.nearest_intCast hsma,Option.some.injEq] at hx
    simp [← hx]
  · obtain ⟨m,rfl,hm⟩ := Binary64.nearest_large (not_lt.mp hsma) hx
    rw [Int.abs_eq_natAbs] at hm hsma
    simp only [Rat.den_intCast,Rat.num_intCast,true_and,maxSafeInteger]
    constructor
    · intro _
      omega
    · intro _
      omega

/-- The server refuses the unsafe integers and no other number. -/
theorem encodeNumber_isOk (n : Number) :
    (encodeNumber shortest n).isOk=true ↔ ¬ UnsafeInteger n := by
  obtain ⟨x,hx⟩ := Option.isSome_iff_exists.mp (Manifest.CanonicalJson.asF64_isSome n)
  have huns : isUnsafeInteger x=true ↔ UnsafeInteger n := by
    rw [UnsafeInteger]
    cases n with
    | posInt k fits =>
      have hexa : (Number.posInt k fits).exact=((k : ℤ) : ℚ) := by simp [Number.exact]
      rw [Number.asF64,hexa] at hx
      rw [hexa,isUnsafeInteger_intCast hx,Rat.den_intCast,Rat.num_intCast]
      exact (and_iff_right rfl).symm
    | negInt k fits =>
      have hexa : (Number.negInt k fits).exact=((-k : ℤ) : ℚ) := by simp [Number.exact]
      rw [Number.asF64,hexa] at hx
      rw [hexa,isUnsafeInteger_intCast hx,Rat.den_intCast,Rat.num_intCast]
      exact (and_iff_right rfl).symm
    | float y =>
      rw [Number.asF64,Number.exact,y.2,Option.some.injEq] at hx
      rw [← hx,isUnsafeInteger,decide_eq_true_iff,Number.exact]
  unfold encodeNumber
  rw [hx,← huns]
  by_cases h : isUnsafeInteger x=true
  · simp [h,Except.isOk,Except.toBool]
  · simp [h,Except.isOk,Except.toBool]

end Server.CanonicalJson

/-- On JSON values of safe integers both encoders write the same bytes, equal for equal values and
different for different ones; and both refuse a number, or neither does, exactly when it is not an
integer beyond the safe range. -/
theorem canonical_json_parity (ryu : Binary64.Finite → String) (shortest : ℚ → String) :
    (∀ (v : Value) (j : Json), v.toJson=some j → Consumer.firstUnsafe j=none →
      ∃ bytes, Manifest.CanonicalJson.canonicalizeToBytes ryu v=.ok bytes ∧
        Server.CanonicalJson.canonicalizeToBytes shortest v=.ok bytes) ∧
    (∀ (v w : Value) (j k : Json), v.toJson=some j → w.toJson=some k →
      Consumer.firstUnsafe j=none → Consumer.firstUnsafe k=none →
        (Manifest.CanonicalJson.canonicalizeToBytes ryu v =
            Manifest.CanonicalJson.canonicalizeToBytes ryu w ↔ j=k) ∧
        (Server.CanonicalJson.canonicalizeToBytes shortest v =
            Server.CanonicalJson.canonicalizeToBytes shortest w ↔ j=k)) ∧
    ∀ n : Number,
      ((Manifest.CanonicalJson.canonicalizeToBytes ryu (.number n)).isOk=true ↔
          (Server.CanonicalJson.canonicalizeToBytes shortest (.number n)).isOk=true) ↔
        ¬ Server.CanonicalJson.UnsafeInteger n := by
  have hdae : ∀ (v : Value) (j : Json), v.toJson=some j →
      Manifest.CanonicalJson.canonicalizeToBytes ryu v=.ok (Text.utf8Bytes j.canonicalText) := by
    intro v j h
    rw [Manifest.CanonicalJson.canonicalizeToBytes,Manifest.CanonicalJson.encode_of_toJson ryu h]
    rfl
  have hser : ∀ (v : Value) (j : Json), v.toJson=some j → Consumer.firstUnsafe j=none →
      Server.CanonicalJson.canonicalizeToBytes shortest v =
        .ok (Text.utf8Bytes j.canonicalText) := by
    intro v j h hsaf
    rw [Server.CanonicalJson.canonicalizeToBytes,
      Server.CanonicalJson.encode_of_toJson shortest h hsaf]
    rfl
  have hine : ∀ (v w : Value) (j k : Json), v.toJson=some j → w.toJson=some k →
      Text.utf8Bytes j.canonicalText=Text.utf8Bytes k.canonicalText → j=k := by
    intro v w j k hv hw hbyt
    have htex := Text.utf8Bytes_injective hbyt
    have hrea := Json.fromText_canonicalText (Value.wellFormed_of_toJson hv)
    rw [htex,Json.fromText_canonicalText (Value.wellFormed_of_toJson hw)] at hrea
    exact (Option.some.inj hrea).symm
  refine ⟨?_,?_,?_⟩
  · intro v j h hsaf
    exact ⟨_,hdae v j h,hser v j h hsaf⟩
  · intro v w j k hv hw hj hk
    rw [hdae v j hv,hdae w k hw,hser v j hv hj,hser w k hw hk]
    simp only [Except.ok.injEq]
    have hiff : Text.utf8Bytes j.canonicalText=Text.utf8Bytes k.canonicalText ↔ j=k :=
      ⟨hine v w j k hv hw,fun h => by rw [h]⟩
    exact ⟨hiff,hiff⟩
  · intro n
    rw [← Server.CanonicalJson.encodeNumber_isOk shortest n]
    have hok : (Manifest.CanonicalJson.canonicalizeToBytes ryu (.number n)).isOk=true := by
      rw [Manifest.CanonicalJson.canonicalizeToBytes,Manifest.CanonicalJson.encode_number]
      rfl
    have hsam : (Server.CanonicalJson.canonicalizeToBytes shortest (.number n)).isOk =
        (Server.CanonicalJson.encodeNumber shortest n).isOk := by
      rw [Server.CanonicalJson.canonicalizeToBytes,Server.CanonicalJson.encode]
      cases Server.CanonicalJson.encodeNumber shortest n <;> rfl
    rw [hsam]
    simp [hok]

/-- Two orders of one object's fields are written alike, and apart from another object. -/
theorem canonical_json_parity_two_orders :
    (∃ bytes, Manifest.CanonicalJson.canonicalizeToBytes (fun _ => "")
        (.object [("b",.number (.posInt 1 (by norm_num))),("a",.null)])=.ok bytes ∧
      Server.CanonicalJson.canonicalizeToBytes (fun _ => "")
        (.object [("b",.number (.posInt 1 (by norm_num))),("a",.null)])=.ok bytes) ∧
    Manifest.CanonicalJson.canonicalizeToBytes (fun _ => "")
        (.object [("b",.number (.posInt 1 (by norm_num))),("a",.null)]) =
      Manifest.CanonicalJson.canonicalizeToBytes (fun _ => "")
        (.object [("a",.null),("b",.number (.posInt 1 (by norm_num)))]) := by
  constructor
  · exact (canonical_json_parity (fun _ => "") (fun _ => "")).1 _
      (.obj [("a",.null),("b",.num 1)]) rfl (by decide)
  · exact ((canonical_json_parity (fun _ => "") (fun _ => "")).2.1 _ _
      (.obj [("a",.null),("b",.num 1)]) (.obj [("a",.null),("b",.num 1)])
      rfl rfl (by decide) (by decide)).1.mpr rfl

theorem unsafe_integer_written_by_one_side :
    (Manifest.CanonicalJson.canonicalizeToBytes (fun _ => "")
      (.number (.posInt (2 ^ 53) (by norm_num)))).isOk=true ∧
    (Server.CanonicalJson.canonicalizeToBytes (fun _ => "")
      (.number (.posInt (2 ^ 53) (by norm_num)))).isOk=false := by
  constructor
  · rw [Manifest.CanonicalJson.canonicalizeToBytes,Manifest.CanonicalJson.encode_number]
    rfl
  · have href := Server.CanonicalJson.encodeNumber_isOk (fun _ => "")
      (.posInt (2 ^ 53) (by norm_num))
    have huns : Server.CanonicalJson.UnsafeInteger (.posInt (2 ^ 53) (by norm_num)) := by
      constructor
      · simp [Number.exact]
      · simp [Number.exact,Server.CanonicalJson.maxSafeInteger]
    rw [Server.CanonicalJson.canonicalizeToBytes,Server.CanonicalJson.encode]
    cases hnum : Server.CanonicalJson.encodeNumber (fun _ => "") (.posInt (2 ^ 53) (by norm_num)) with
    | error e => rfl
    | ok text =>
      rw [hnum] at href
      exact absurd huns (href.mp rfl)


end CastleWall
