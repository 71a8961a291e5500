import CastleWall.Support.Value

/-! # The daemon's canonical JSON

`manifest/canonical_json.rs` over value trees. On trees that stand for a JSON value it writes the
canonical text of that value. -/

namespace CastleWall

namespace Json

open Text

def sequence {α ε : Type} : List (Except ε α) → Except ε (List α)
  | [] => .ok []
  | .error e::_ => .error e
  | .ok a::rest => (sequence rest).map fun as => a::as

theorem sequence_map_ok {α β ε : Type} (f : α → β) (xs : List α) :
    sequence (xs.map fun x => (.ok (f x) : Except ε β))=.ok (xs.map f) := by
  induction xs with
  | nil => rfl
  | cons x xs ih => rw [List.map_cons,sequence,ih,List.map_cons]; rfl

theorem forall₂_of_sequence {α ε : Type} {xs : List (Except ε α)} {ys : List α}
    (h : sequence xs=.ok ys) : List.Forall₂ (fun x y => x=.ok y) xs ys := by
  induction xs generalizing ys with
  | nil =>
    rw [← Except.ok.inj h]
    exact .nil
  | cons x xs ih =>
    cases x with
    | error e => exact absurd h (by simp [sequence])
    | ok a =>
      rw [sequence] at h
      cases hres : sequence xs with
      | error e => exact absurd h (by simp [hres,Except.map])
      | ok as =>
        rw [hres] at h
        rw [← Except.ok.inj h]
        exact .cons rfl (ih hres)

private theorem utf16Char_append {a b : Char} {x y : List Nat}
    (h : utf16Char a++x=utf16Char b++y) : a=b ∧ x=y := by
  have ha : a.toNat < 0xd800 ∨ 0xdfff < a.toNat ∧ a.toNat < 0x110000 := a.valid
  have hb : b.toNat < 0xd800 ∨ 0xdfff < b.toNat ∧ b.toNat < 0x110000 := b.valid
  have heq : a.toNat=b.toNat → a=b := fun h => Char.ext (UInt32.toNat_inj.mp h)
  unfold utf16Char at h
  split_ifs at h with h1 h2 h2
  · simp only [List.singleton_append,List.cons.injEq] at h
    exact ⟨heq h.1,h.2⟩
  · simp only [List.cons_append,List.nil_append,List.cons.injEq] at h
    omega
  · simp only [List.cons_append,List.nil_append,List.cons.injEq] at h
    omega
  · simp only [List.cons_append,List.nil_append,List.cons.injEq] at h
    exact ⟨heq (by omega),h.2.2⟩

private theorem utf16Char_ne_nil (c : Char) : utf16Char c≠[] := by
  unfold utf16Char
  split_ifs <;> simp

theorem utf16Units_injective {s t : String} (h : utf16Units s=utf16Units t) : s=t := by
  have hlis : ∀ as bs : List Char, as.flatMap utf16Char=bs.flatMap utf16Char → as=bs := by
    intro as
    induction as with
    | nil =>
      intro bs hbs
      cases bs with
      | nil => rfl
      | cons b bs =>
        rw [List.flatMap_nil,List.flatMap_cons] at hbs
        exact absurd (List.append_eq_nil_iff.mp hbs.symm).1 (utf16Char_ne_nil b)
    | cons a as ih =>
      intro bs hbs
      cases bs with
      | nil =>
        rw [List.flatMap_nil,List.flatMap_cons] at hbs
        exact absurd (List.append_eq_nil_iff.mp hbs).1 (utf16Char_ne_nil a)
      | cons b bs =>
        rw [List.flatMap_cons,List.flatMap_cons] at hbs
        obtain ⟨hab,hres⟩ := utf16Char_append hbs
        rw [hab,ih bs hres]
  exact String.toList_injective (hlis _ _ h)

/-- Fields with distinct keys are written in one order, in whatever order they come. -/
theorem sortFields_of_perm {α : Type} {fields written : List (String × α)}
    (hper : written.Perm fields) (hnod : (fields.map Prod.fst).Nodup) :
    sortFields written=sortFields fields := by
  have htot : ∀ a b : String × α, utf16Le a.1 b.1=true ∨ utf16Le b.1 a.1=true :=
    fun a b => utf16Le_total a.1 b.1
  have htra : ∀ a b c : String × α, utf16Le a.1 b.1=true → utf16Le b.1 c.1=true →
      utf16Le a.1 c.1=true := fun a b c => utf16Le_trans a.1 b.1 c.1
  have hall : (sortFields written).Perm (sortFields fields) :=
    ((sortFields_perm written).trans hper).trans (sortFields_perm fields).symm
  have := Std.Total.mk htot
  have := IsTrans.mk htra
  refine List.Perm.eq_of_pairwise ?_ (List.pairwise_insertionSort _ _)
    (List.pairwise_insertionSort _ _) hall
  intro a b ha hb hab hba
  have hkey : a.1=b.1 := by
    simp only [utf16Le,decide_eq_true_eq] at hab hba
    exact utf16Units_injective (le_antisymm hab hba)
  have ha' : a∈fields := ((sortFields_perm written).trans hper).mem_iff.mp ha
  have hb' : b∈fields := (sortFields_perm fields).mem_iff.mp hb
  exact List.inj_on_of_nodup_map hnod ha' hb' hkey

/-- Fields whose values are written are joined to the text of the object they make. -/
theorem sequence_fields {ε : Type} {js : List (String × Json)} (hnod : (js.map Prod.fst).Nodup) :
    (Json.sequence ((sortFields (js.map fun g => (g.1,(.ok (write g.2) : Except ε (List Char))))).map
      fun field => field.2.map fun text => quote field.1 ++ ':' :: text)).map
        (fun parts => '{' :: (joinComma parts++['}']))=.ok (write (.obj (ofFields js))) := by
  rw [sortFields_map (fun j => (.ok (write j) : Except ε (List Char))),List.map_map,
    write_obj,sortFields_of_perm (ofFields_perm hnod) hnod,objectText]
  exact congrArg (Except.map _)
    (sequence_map_ok (fun g : String × Json => fieldText (g.1,write g.2)) (sortFields js))

end Json

namespace Manifest.CanonicalJson

open Json Text

inductive CanonicalJsonError where
  | nonFiniteNumber

/-- `Number::to_string`; `ryu` renders binary64 numbers. -/
def numberText (ryu : Binary64.Finite → String) : Number → List Char
  | .posInt n _ => decimal n
  | .negInt n _ => '-' :: decimal n
  | .float x => (ryu x).toList

def fieldResult (field : String × Except CanonicalJsonError (List Char)) :
    Except CanonicalJsonError (List Char) :=
  field.2.map fun text => quote field.1 ++ ':' :: text

mutual

def encode (ryu : Binary64.Finite → String) : Value → Except CanonicalJsonError (List Char)
  | .null => .ok ['n','u','l','l']
  | .bool true => .ok ['t','r','u','e']
  | .bool false => .ok ['f','a','l','s','e']
  | .number n => if n.asF64.isNone then .error .nonFiniteNumber else .ok (numberText ryu n)
  | .string s => .ok (quote s)
  | .array items =>
    (Json.sequence (encodeItems ryu items)).map fun parts => '[' :: (joinComma parts++[']'])
  | .object fields =>
    (Json.sequence ((sortFields (encodeFields ryu fields)).map fieldResult)).map fun parts =>
      '{' :: (joinComma parts++['}'])

def encodeItems (ryu : Binary64.Finite → String) :
    List Value → List (Except CanonicalJsonError (List Char))
  | [] => []
  | item::items => encode ryu item::encodeItems ryu items

def encodeFields (ryu : Binary64.Finite → String) :
    List (String × Value) → List (String × Except CanonicalJsonError (List Char))
  | [] => []
  | field::fields => (field.1,encode ryu field.2)::encodeFields ryu fields

end

def canonicalizeToBytes (ryu : Binary64.Finite → String) (v : Value) :
    Except CanonicalJsonError (List UInt8) :=
  (encode ryu v).map fun text => utf8Bytes (String.ofList text)

variable (ryu : Binary64.Finite → String)

theorem encodeItems_eq (items : List Value) : encodeItems ryu items=items.map (encode ryu) := by
  induction items with
  | nil => rfl
  | cons item items ih => rw [encodeItems,ih,List.map_cons]

theorem encodeFields_eq (fields : List (String × Value)) :
    encodeFields ryu fields=fields.map fun f => (f.1,encode ryu f.2) := by
  induction fields with
  | nil => rfl
  | cons field fields ih => rw [encodeFields,ih,List.map_cons]

theorem asF64_isSome (n : Number) : n.asF64.isSome := by
  cases n with
  | posInt n fits =>
    apply Binary64.nearest_isSome
    rw [Number.exact,abs_of_nonneg (Nat.cast_nonneg n)]
    exact_mod_cast fits.le
  | negInt n fits =>
    apply Binary64.nearest_isSome
    rw [Number.exact,abs_neg,abs_of_nonneg (Nat.cast_nonneg n)]
    exact_mod_cast fits.2.trans (by norm_num)
  | float x =>
    rw [Number.asF64,Number.exact,x.2]
    rfl

theorem encode_number (n : Number) : encode ryu (.number n)=.ok (numberText ryu n) := by
  rw [encode,if_neg]
  rw [Option.isNone_iff_eq_none,← Option.not_isSome_iff_eq_none,asF64_isSome]
  exact not_not.mpr rfl

theorem encode_of_toJson {v : Value} {j : Json} (h : v.toJson=some j) :
    encode ryu v=.ok j.write := by
  induction v using Value.induct generalizing j with
  | null =>
    rw [← Option.some.inj h]
    rfl
  | bool b =>
    rw [← Option.some.inj h]
    cases b <;> rfl
  | number n =>
    rw [encode_number]
    cases n with
    | posInt n _ =>
      rw [← Option.some.inj h]
      rfl
    | negInt n fits =>
      rw [← Option.some.inj h,numberText,write]
      obtain ⟨m,rfl⟩ : ∃ m, n=m+1 := ⟨n - 1,by omega⟩
      rfl
    | float x => exact absurd h (by simp [Value.toJson])
  | string s =>
    rw [← Option.some.inj h]
    rfl
  | array items ih =>
    obtain ⟨js,hjs,rfl⟩ := Value.toJson_array.mp h
    have hite : items.map (encode ryu)=js.map fun j => .ok (write j) := by
      clear h
      induction hjs with
      | nil => rfl
      | @cons item j items js hitm _ ihs =>
        rw [List.map_cons,List.map_cons,ih item List.mem_cons_self hitm,
          ihs fun v hv => ih v (List.mem_cons_of_mem _ hv)]
    rw [encode,encodeItems_eq,hite,sequence_map_ok,write,itemTexts_eq]
    rfl
  | object fields ih =>
    obtain ⟨hnod,js,hjs,rfl⟩ := Value.toJson_object.mp h
    rw [Value.keys_of_forall₂ hjs] at hnod
    have hfie : (fields.map fun f => (f.1,encode ryu f.2)) =
        js.map fun g => (g.1,.ok (write g.2)) := by
      clear h hnod
      induction hjs with
      | nil => rfl
      | @cons field g fields js hfid _ ihs =>
        rw [List.map_cons,List.map_cons,hfid.1,ih field List.mem_cons_self hfid.2,
          ihs fun f hf => ih f (List.mem_cons_of_mem _ hf)]
    rw [encode,encodeFields_eq,hfie]
    exact sequence_fields hnod

end Manifest.CanonicalJson

end CastleWall
