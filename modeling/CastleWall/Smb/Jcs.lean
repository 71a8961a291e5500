import CastleWall.Support.Decimal
import CastleWall.Server.CanonicalJson

/-! # RFC 8785 texts

`smb/jcs.rs` and `smb/jcs.ts` over value trees. Both write a number with its shortest digits, the
daemon by trying the coefficient its formatter returns and the two beside it. -/

namespace CastleWall.Smb

open Binary64 Decimal Json Text

def jsonMaxDepth : Nat := 64

def maxSafe : Nat := 2 ^ 53 - 1

namespace Jcs

/-- The coefficient and scale of `format!("{:.*e}", precision - 1, magnitude)`, which writes a
coefficient of one digit more as the next power of ten. -/
def formatExp (precision : Nat) (magnitude : ℚ) : Scaled :=
  let coefficient := nearestAt precision magnitude
  let scale := scaleAt precision magnitude
  if coefficient=10 ^ precision then (10 ^ (precision - 1),scale+1) else (coefficient,scale)

/-- What the daemon tries at one precision: the formatted coefficient, then its neighbours. -/
def candidates (precision : Nat) (magnitude : ℚ) : List Scaled :=
  let (coefficient,scale) := formatExp precision magnitude
  [(coefficient,scale),(coefficient+1,scale),(coefficient - 1,scale)].filter (·.1≠0)

def number (value : ℚ) : Except String (List Char) :=
  if value=0 then .ok ['0']
  else
    match shortest candidates |value| with
    | none => .error "SMB number"
    | some d => .ok ((if value < 0 then ['-'] else [])++(literal d.1 d.2).text)

def numberAt (n : Number) : Except String (List Char) :=
  match n.asF64 with
  | none => .error "SMB number"
  | some x => if maxSafe < |x| then .error "SMB numeric domain" else number x

def entry (field : String × Except String (List Char)) : Except String (List Char) :=
  field.2.map fun text => quote field.1 ++ ':' :: text

mutual

def encodeAt (depth : Nat) : Value → Except String (List Char)
  | .null => .ok ['n','u','l','l']
  | .bool true => .ok ['t','r','u','e']
  | .bool false => .ok ['f','a','l','s','e']
  | .number n => numberAt n
  | .string s => .ok (quote s)
  | .array items =>
    if jsonMaxDepth < depth then .error "SMB JSON depth"
    else (Json.sequence (encodeItems (depth+1) items)).map fun parts => '[' :: (joinComma parts++[']'])
  | .object fields =>
    if jsonMaxDepth < depth then .error "SMB JSON depth"
    else (Json.sequence ((sortFields (encodeFields (depth+1) fields)).map entry)).map fun parts =>
      '{' :: (joinComma parts++['}'])

def encodeItems (depth : Nat) : List Value → List (Except String (List Char))
  | [] => []
  | item::items => encodeAt depth item::encodeItems depth items

def encodeFields (depth : Nat) : List (String × Value) → List (String × Except String (List Char))
  | [] => []
  | field::fields => (field.1,encodeAt depth field.2)::encodeFields depth fields

end

def encode (value : Value) : Except String (List Char) := encodeAt 0 value

theorem encodeItems_eq (depth : Nat) (items : List Value) :
    encodeItems depth items=items.map (encodeAt depth) := by
  induction items with
  | nil => rfl
  | cons item items ih => rw [encodeItems,ih,List.map_cons]

theorem encodeFields_eq (depth : Nat) (fields : List (String × Value)) :
    encodeFields depth fields=fields.map fun f => (f.1,encodeAt depth f.2) := by
  induction fields with
  | nil => rfl
  | cons field fields ih => rw [encodeFields,ih,List.map_cons]

private theorem value_pos {d : Scaled} (h : 0 < d.1) : 0 < d.value :=
  mul_pos (Nat.cast_pos.mpr h) (scale_pos d.2)

private theorem value_le {c d : Nat} (h : c ≤ d) (s : ℤ) : Scaled.value (c,s) ≤ Scaled.value (d,s) :=
  mul_le_mul_of_nonneg_right (Nat.cast_le.mpr h) (scale_pos s).le

private theorem value_mul_ten (c : Nat) (s : ℤ) : Scaled.value (c,s+1)=Scaled.value (10 * c,s) := by
  rw [Scaled.value,Scaled.value,zpow_add_one₀ (by norm_num)]
  push_cast
  ring

private theorem find_pair {x : ℚ} {a b : Scaled} (h : readsBack x b=true → readsBack x a=true) :
    [a,b].find? (readsBack x)=[a].find? (readsBack x) := by
  by_cases ha : readsBack x a=true
  · simp [ha]
  · have hb : readsBack x b≠true := fun hb => ha (h hb)
    simp [ha,hb]

/-- The coefficient below the formatted one never decides. -/
private theorem find_candidates {x : ℚ} {c : Nat} {s : ℤ} (hc : 0 < c)
    (h : 0 < c - 1 → readsBack x (c - 1,s)=true →
      readsBack x (c,s)=true ∨ readsBack x (c+1,s)=true) :
    ([(c,s),(c+1,s),(c - 1,s)].filter (·.1≠0)).find? (readsBack x) =
      [(c,s),(c+1,s)].find? (readsBack x) := by
  have hfil : [(c,s),(c+1,s),(c - 1,s)].filter (·.1≠0) =
      [(c,s),(c+1,s)]++[(c - 1,s)].filter (·.1≠0) := by
    simp [hc.ne']
  rw [hfil,List.find?_append]
  by_cases hlas : 0 < c - 1 ∧ readsBack x (c - 1,s)=true
  · have hsom : ([(c,s),(c+1,s)].find? (readsBack x)).isSome := by
      rw [List.find?_isSome]
      rcases h hlas.1 hlas.2 with hbac | hbac
      · exact ⟨_,List.mem_cons_self,hbac⟩
      · exact ⟨_,List.mem_cons_of_mem _ List.mem_cons_self,hbac⟩
    obtain ⟨d,hd⟩ := Option.isSome_iff_exists.mp hsom
    rw [hd]
    rfl
  · have hnone : ([(c - 1,s)].filter (·.1≠0)).find? (readsBack x)=none := by
      rw [List.find?_eq_none]
      intro d hd hbac
      rw [List.mem_filter,List.mem_singleton,decide_eq_true_iff] at hd
      obtain ⟨rfl,hne⟩ := hd
      exact hlas ⟨Nat.pos_of_ne_zero hne,hbac⟩
    rw [hnone,Option.or_none]

section Candidates

variable {x : ℚ} (hx : 0 < x) (hfix : nearest x=some x) (p : Nat)

include hx

private theorem floor_le : Scaled.value (floorAt p x,scaleAt p x) ≤ x := (floorAt_bounds hx p).1

private theorem lt_ceil : x < Scaled.value (floorAt p x+1,scaleAt p x) := by
  rw [Scaled.value]
  push_cast
  exact (floorAt_bounds hx p).2

include hfix

private theorem agrees_below (h : nearestAt (p+1) x=floorAt (p+1) x) :
    (candidates (p+1) x).find? (readsBack x)=(neighbours (p+1) x).find? (readsBack x) := by
  obtain ⟨hlow,hhig⟩ := floorAt_digits hx p
  have hpos : 0 < floorAt (p+1) x := (pow_pos (by norm_num) p).trans_le hlow
  rw [candidates,formatExp,h,if_neg hhig.ne,neighbours,if_pos h]
  apply find_candidates hpos
  intro hpre hbac
  left
  exact readsBack_below hfix (value_pos hpre) (value_le (Nat.sub_le _ 1) _) (floor_le hx _) hbac

private theorem agrees_above (h : nearestAt (p+1) x=floorAt (p+1) x+1)
    (hdis : (floorAt (p+1) x+1 : ℚ) * 10 ^ scaleAt (p+1) x - x ≤
      x - floorAt (p+1) x * 10 ^ scaleAt (p+1) x) (hdig : floorAt (p+1) x+1≠10 ^ (p+1)) :
    (candidates (p+1) x).find? (readsBack x)=(neighbours (p+1) x).find? (readsBack x) := by
  rw [candidates,formatExp,h,if_neg hdig,neighbours,if_neg (by rw [h]; omega),
    find_pair (readsBack_ceil hfix hx hdis)]
  refine (find_candidates (Nat.succ_pos _) ?_).trans (find_pair ?_)
  · intro _ hbac
    left
    exact readsBack_ceil hfix hx hdis hbac
  · exact readsBack_above hfix hx (lt_ceil hx _).le (value_le (Nat.le_succ _) _)

/-- The formatted coefficient is the next power of ten, and is written with a zero less. -/
private theorem agrees_carry (h : nearestAt (p+1) x=floorAt (p+1) x+1)
    (hdis : (floorAt (p+1) x+1 : ℚ) * 10 ^ scaleAt (p+1) x - x ≤
      x - floorAt (p+1) x * 10 ^ scaleAt (p+1) x) (hdig : floorAt (p+1) x+1=10 ^ (p+1)) :
    ((candidates (p+1) x).find? (readsBack x)).map (fun d => literal d.1 d.2) =
      ((neighbours (p+1) x).find? (readsBack x)).map fun d => literal d.1 d.2 := by
  have hten : (0 : Nat) < 10 ^ p := pow_pos (by norm_num) p
  have hval : Scaled.value (10 ^ p,scaleAt (p+1) x+1) =
      Scaled.value (floorAt (p+1) x+1,scaleAt (p+1) x) := by
    rw [value_mul_ten,hdig,pow_succ']
  have hbac : readsBack x (10 ^ p,scaleAt (p+1) x+1) =
      readsBack x (floorAt (p+1) x+1,scaleAt (p+1) x) := by
    rw [readsBack,readsBack,hval]
  have hcan : (candidates (p+1) x).find? (readsBack x) =
      [(10 ^ p,scaleAt (p+1) x+1)].find? (readsBack x) := by
    rw [candidates,formatExp,h,if_pos hdig,Nat.add_sub_cancel]
    refine (find_candidates hten ?_).trans (find_pair ?_)
    · intro hpre hbel
      left
      rw [hbac]
      apply readsBack_ceil hfix hx hdis
      apply readsBack_below hfix (value_pos hpre) _ (floor_le hx _) hbel
      rw [value_mul_ten]
      apply value_le
      rw [pow_succ] at hdig
      omega
    · intro habo
      rw [hbac]
      apply readsBack_above hfix hx (lt_ceil hx _).le _ habo
      rw [← hval]
      exact value_le (Nat.le_succ _) _
  rw [hcan,neighbours,if_neg (by rw [h]; omega),find_pair (readsBack_ceil hfix hx hdis)]
  by_cases hok : readsBack x (floorAt (p+1) x+1,scaleAt (p+1) x)=true
  · rw [List.find?_singleton,List.find?_singleton,hbac,if_pos hok,if_pos hok,Option.map_some,
      Option.map_some,← literal_mul_ten hten,hdig,pow_succ']
  · rw [List.find?_singleton,List.find?_singleton,hbac,if_neg hok,if_neg hok]

omit p in
theorem agrees_candidates : Agrees candidates x := by
  intro p
  rcases nearestAt_cases hx (p+1) with h | ⟨h,hdis⟩
  · rw [agrees_below hx hfix p h]
  · by_cases hdig : floorAt (p+1) x+1=10 ^ (p+1)
    · exact agrees_carry hx hfix p h hdis hdig
    · rw [agrees_above hx hfix p h hdis hdig]

end Candidates

theorem number_eq {x : ℚ} (h : nearest x=some x) : number x=.ok (numberToString x) := by
  by_cases hx : x=0
  · rw [number,numberToString,if_pos hx,if_pos hx]
  · obtain ⟨l,-,-,hl,htex⟩ := numberToString_literal h hx
    have hagr := shortest_of_agrees (agrees_candidates (abs_pos.mpr hx) (nearest_abs h))
    rw [hl] at hagr
    cases hsho : shortest candidates |x| with
    | none => simp [hsho] at hagr
    | some d =>
      rw [hsho,Option.map_some,Option.some.injEq] at hagr
      rw [number,if_neg hx,hsho,htex,← hagr]

end Jcs

namespace ServerJcs

open Server.CanonicalJson

def numberAt (n : Number) : Except String (List Char) :=
  match n.asF64 with
  | none => .error "SMB numeric domain"
  | some x => if maxSafe < |x| then .error "SMB numeric domain" else .ok (numberToString x)

def entry (field : String × Except String (List Char)) : Except String (List Char) :=
  field.2.map fun text => stringifyString field.1 ++ ':' :: text

mutual

def jcs (depth : Nat) : Value → Except String (List Char)
  | .null => .ok ['n','u','l','l']
  | .bool b => .ok (if b then ['t','r','u','e'] else ['f','a','l','s','e'])
  | .string s => .ok (stringifyString s)
  | .number n => numberAt n
  | .array items =>
    if jsonMaxDepth < depth then .error "SMB JSON depth"
    else (Json.sequence (jcsItems (depth+1) items)).map fun parts => '[' :: (joinComma parts++[']'])
  | .object fields =>
    if jsonMaxDepth < depth then .error "SMB JSON depth"
    else (Json.sequence ((sortFields (jcsFields (depth+1) fields)).map entry)).map fun parts =>
      '{' :: (joinComma parts++['}'])

def jcsItems (depth : Nat) : List Value → List (Except String (List Char))
  | [] => []
  | item::items => jcs depth item::jcsItems depth items

def jcsFields (depth : Nat) : List (String × Value) → List (String × Except String (List Char))
  | [] => []
  | field::fields => (field.1,jcs depth field.2)::jcsFields depth fields

end

theorem numberAt_eq (n : Number) : numberAt n=Jcs.numberAt n := by
  obtain ⟨x,hx⟩ := Option.isSome_iff_exists.mp (Manifest.CanonicalJson.asF64_isSome n)
  unfold numberAt Jcs.numberAt
  simp only [hx,Jcs.number_eq (nearest_of_nearest hx)]

theorem entry_eq : entry=Jcs.entry := by
  funext field
  rw [entry,Jcs.entry]
  simp only [stringifyString_eq]

theorem jcs_eq_encodeAt (v : Value) (depth : Nat) : jcs depth v=Jcs.encodeAt depth v := by
  induction v using Value.induct generalizing depth with
  | null => rfl
  | bool b => cases b <;> rfl
  | number n => exact numberAt_eq n
  | string s => exact congrArg Except.ok (stringifyString_eq s)
  | array items ih =>
    have hite : jcsItems (depth+1) items=Jcs.encodeItems (depth+1) items := by
      induction items with
      | nil => rfl
      | cons item items ihs =>
        rw [jcsItems,Jcs.encodeItems,ih item List.mem_cons_self,
          ihs fun v hv => ih v (List.mem_cons_of_mem _ hv)]
    rw [jcs,Jcs.encodeAt,hite]
  | object fields ih =>
    have hfie : jcsFields (depth+1) fields=Jcs.encodeFields (depth+1) fields := by
      induction fields with
      | nil => rfl
      | cons field fields ihs =>
        rw [jcsFields,Jcs.encodeFields,ih field List.mem_cons_self,
          ihs fun f hf => ih f (List.mem_cons_of_mem _ hf)]
    rw [jcs,Jcs.encodeAt,hfie,entry_eq]

end ServerJcs

end CastleWall.Smb
