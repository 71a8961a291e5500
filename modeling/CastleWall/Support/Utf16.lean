import CastleWall.Support.Lines
import CastleWall.Support.Base64

/-! # ECMAScript strings

Sequences of UTF-16 code units, which need not be text, and `TextEncoder`, which writes a lone
surrogate as the replacement character. -/

namespace CastleWall.Utf16

def isHigh (u : UInt16) : Bool := 0xd800 ≤ u.toNat && u.toNat ≤ 0xdbff

def isLow (u : UInt16) : Bool := 0xdc00 ≤ u.toNat && u.toNat ≤ 0xdfff

def replacement : Char := '\uFFFD'

def scalar (u : UInt16) : Char := if isHigh u || isLow u then replacement else Char.ofNat u.toNat

def scalars : List UInt16 → List Char
  | [] => []
  | [u] => [scalar u]
  | u::v::rest =>
    if isHigh u && isLow v then
      Char.ofNat (0x10000+(u.toNat - 0xd800) * 0x400+(v.toNat - 0xdc00))::scalars rest
    else scalar u::scalars (v::rest)

/-- `TextEncoder.encode`. -/
def encode (us : List UInt16) : List UInt8 := (scalars us).flatMap String.utf8EncodeChar

def ofAscii (cs : List Char) : List UInt16 := cs.map fun c => UInt16.ofNat c.toNat

theorem isHigh_of_lt {u : UInt16} (h : u.toNat < 128) : isHigh u=false := by
  simp only [isHigh,Bool.and_eq_false_iff,decide_eq_false_iff_not]
  omega

theorem isLow_of_lt {u : UInt16} (h : u.toNat < 128) : isLow u=false := by
  simp only [isLow,Bool.and_eq_false_iff,decide_eq_false_iff_not]
  omega

theorem toNat_ofNat_ascii {n : Nat} (h : n < 128) : (Char.ofNat n).toNat=n := by
  rw [Char.ofNat,dif_pos (Or.inl (by omega))]
  rfl

variable {us : List UInt16}

theorem scalars_ascii (h : ∀ u∈us, u.toNat < 128) :
    scalars us=us.map fun u => Char.ofNat u.toNat := by
  induction us with
  | nil => rfl
  | cons u us ih =>
    have hu := h u (List.mem_cons_self ..)
    have hsca : scalar u=Char.ofNat u.toNat := by
      rw [scalar,isHigh_of_lt hu,isLow_of_lt hu]
      rfl
    cases us with
    | nil => rw [scalars,hsca,List.map_singleton]
    | cons v us =>
      rw [scalars,isHigh_of_lt hu,Bool.false_and,if_neg Bool.false_ne_true,hsca,
        ih fun w hw => h w (List.mem_cons_of_mem _ hw)]
      rfl

theorem encode_ascii (h : ∀ u∈us, u.toNat < 128) :
    encode us=us.map fun u => UInt8.ofNat u.toNat := by
  rw [encode,scalars_ascii h,List.flatMap_map]
  induction us with
  | nil => rfl
  | cons u us ih =>
    have hu := h u (List.mem_cons_self ..)
    have hval : (Char.ofNat u.toNat).val.toNat=u.toNat := toNat_ofNat_ascii hu
    have hcha : String.utf8EncodeChar (Char.ofNat u.toNat)=[UInt8.ofNat u.toNat] := by
      simp only [String.utf8EncodeChar,hval,if_pos (show u.toNat ≤ 0x7f by omega)]
    rw [List.flatMap_cons,hcha,ih fun w hw => h w (List.mem_cons_of_mem _ hw),List.map_cons]
    rfl

theorem encode_ascii_injective {vs : List UInt16} (hu : ∀ u∈us, u.toNat < 128)
    (hv : ∀ v∈vs, v.toNat < 128) (h : encode us=encode vs) : us=vs := by
  have hbac : ∀ {ws : List UInt16}, (∀ w∈ws, w.toNat < 128) →
      (encode ws).map (fun b => UInt16.ofNat b.toNat)=ws := by
    intro ws hw
    rw [encode_ascii hw,List.map_map]
    refine (List.map_congr_left fun w hmem => ?_).trans (List.map_id ws)
    apply UInt16.toNat_inj.mp
    have hlt := hw w hmem
    simp only [Function.comp_apply,id_eq,UInt16.toNat_ofNat',UInt8.toNat_ofNat']
    omega
  rw [← hbac hu,← hbac hv,h]

theorem ofAscii_injective {cs ds : List Char} (hc : ∀ c∈cs, c.toNat < 128)
    (hd : ∀ d∈ds, d.toNat < 128) (h : ofAscii cs=ofAscii ds) : cs=ds := by
  have hbac : ∀ {es : List Char}, (∀ e∈es, e.toNat < 128) →
      (ofAscii es).map (fun u => Char.ofNat u.toNat)=es := by
    intro es he
    rw [ofAscii,List.map_map]
    refine (List.map_congr_left fun e hmem => ?_).trans (List.map_id es)
    have hlt := he e hmem
    simp only [Function.comp_apply,id_eq,UInt16.toNat_ofNat']
    rw [Nat.mod_eq_of_lt (by omega),Char.ofNat_toNat]
  rw [← hbac hc,← hbac hd,h]

end CastleWall.Utf16
