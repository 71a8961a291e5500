import Mathlib.Data.List.Chain
import Mathlib.Data.List.DropRight

/-! # Hash chains

Records that carry the digest of the record before them. The digest of the last record commits to
every record that both of two chains hold. -/

namespace CastleWall.HashChain

variable {α κ η : Type} {digest : α → η} {prior : α → Option η} {key : α → κ}

def Linked (digest : α → η) (prior : α → Option η) (rows : List α) : Prop :=
  rows.IsChain fun a b => prior b=some (digest a)

variable {as bs : List α}

/-- Read from its last record back, a chain is determined by the digest it ends in. -/
private theorem take_map_key_of_head
    (hdig : ∀ a∈as, ∀ b∈bs, digest a=digest b → key a=key b)
    (hpri : ∀ a∈as, ∀ b∈bs, key a=key b → prior a=prior b)
    (ha : as.IsChain fun b a => prior b=some (digest a))
    (hb : bs.IsChain fun b a => prior b=some (digest a))
    (hhea : as.head?.map digest=bs.head?.map digest) (n : Nat)
    (hna : n ≤ as.length) (hnb : n ≤ bs.length) :
    (as.take n).map key=(bs.take n).map key := by
  induction n generalizing as bs with
  | zero => rfl
  | succ n ih =>
    cases as with
    | nil => exact absurd hna (Nat.not_succ_le_zero n)
    | cons a as =>
      cases bs with
      | nil => exact absurd hnb (Nat.not_succ_le_zero n)
      | cons b bs =>
        have hab : digest a=digest b := Option.some.inj hhea
        have hkey : key a=key b :=
          hdig a List.mem_cons_self b List.mem_cons_self hab
        have hpre : prior a=prior b :=
          hpri a List.mem_cons_self b List.mem_cons_self hkey
        simp only [List.take_succ_cons,List.map_cons,hkey,List.cons.injEq,true_and]
        cases as with
        | nil =>
          have hn : n=0 := Nat.le_zero.mp (Nat.le_of_succ_le_succ hna)
          rw [hn,List.take_zero,List.take_zero]
        | cons a' as =>
          cases bs with
          | nil =>
            have hn : n=0 := Nat.le_zero.mp (Nat.le_of_succ_le_succ hnb)
            rw [hn,List.take_zero,List.take_zero]
          | cons b' bs =>
            obtain ⟨ha',hach⟩ := List.isChain_cons_cons.mp ha
            obtain ⟨hb',hbch⟩ := List.isChain_cons_cons.mp hb
            refine ih (fun a ha b hb => hdig a (List.mem_cons_of_mem _ ha) b
              (List.mem_cons_of_mem _ hb)) (fun a ha b hb => hpri a (List.mem_cons_of_mem _ ha) b
              (List.mem_cons_of_mem _ hb)) hach hbch ?_ (Nat.le_of_succ_le_succ hna)
              (Nat.le_of_succ_le_succ hnb)
            rw [ha',hb'] at hpre
            exact hpre

/-- Two chains that end in one digest agree on the records both hold, counted from the end. -/
theorem rtake_map_key_of_last
    (hdig : ∀ a∈as, ∀ b∈bs, digest a=digest b → key a=key b)
    (hpri : ∀ a∈as, ∀ b∈bs, key a=key b → prior a=prior b)
    (ha : Linked digest prior as) (hb : Linked digest prior bs)
    (hlas : as.getLast?.map digest=bs.getLast?.map digest) {n : Nat}
    (hna : n ≤ as.length) (hnb : n ≤ bs.length) :
    (as.rtake n).map key=(bs.rtake n).map key := by
  rw [List.rtake_eq_reverse_take_reverse,List.rtake_eq_reverse_take_reverse,List.map_reverse,
    List.map_reverse]
  congr 1
  refine take_map_key_of_head (fun a ha b hb => hdig a (List.mem_reverse.mp ha) b
    (List.mem_reverse.mp hb)) (fun a ha b hb => hpri a (List.mem_reverse.mp ha) b
    (List.mem_reverse.mp hb)) (List.isChain_reverse.mpr ha) (List.isChain_reverse.mpr hb) ?_ n
    (by rwa [List.length_reverse]) (by rwa [List.length_reverse])
  rw [List.head?_reverse,List.head?_reverse]
  exact hlas

theorem map_key_of_last (digest : α → η) (prior : α → Option η) (key : α → κ)
    (hdig : ∀ a∈as, ∀ b∈bs, digest a=digest b → key a=key b)
    (hpri : ∀ a∈as, ∀ b∈bs, key a=key b → prior a=prior b)
    (ha : Linked digest prior as) (hb : Linked digest prior bs)
    (hlas : as.getLast?.map digest=bs.getLast?.map digest) (hlen : as.length=bs.length) :
    as.map key=bs.map key := by
  have hagr := rtake_map_key_of_last hdig hpri ha hb hlas (le_refl as.length)
    (Nat.le_of_eq hlen)
  have hbs : bs.rtake as.length=bs := by rw [hlen,List.rtake,Nat.sub_self,List.drop_zero]
  rwa [hbs,List.rtake,Nat.sub_self,List.drop_zero] at hagr

theorem isChain_and {R S : α → α → Prop} {rows : List α} (h : rows.IsChain R) (h' : rows.IsChain S) :
    rows.IsChain fun a b => R a b ∧ S a b := by
  induction rows with
  | nil => exact .nil
  | cons a rows ih =>
    cases rows with
    | nil => exact .singleton a
    | cons b rows =>
      obtain ⟨hab,hres⟩ := List.isChain_cons_cons.mp h
      obtain ⟨hab',hres'⟩ := List.isChain_cons_cons.mp h'
      exact .cons_cons ⟨hab,hab'⟩ (ih hres hres')

/-- Consecutive numbers along a chain: the last is the first plus the number of steps. -/
theorem getLast_of_consecutive {f : α → Nat} {a : α} {rows : List α}
    (h : (a::rows).IsChain fun x y => f y=f x+1) :
    ∀ b, (a::rows).getLast? = some b → f b=f a+rows.length := by
  induction rows generalizing a with
  | nil =>
    intro b hb
    rw [← Option.some.inj hb]
    rfl
  | cons a' rows ih =>
    intro b hb
    obtain ⟨hste,htai⟩ := List.isChain_cons_cons.mp h
    have hlas := ih htai b (by rwa [List.getLast?_cons_cons] at hb)
    rw [hlas,hste,List.length_cons]
    omega

end CastleWall.HashChain
