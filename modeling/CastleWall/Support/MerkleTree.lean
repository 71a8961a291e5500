import Mathlib.Data.Nat.Log
import Mathlib.Data.List.Basic
import Mathlib.Algebra.GroupWithZero.Nat

/-! # Merkle trees split at powers of two

A list of `n` leaves is split after the largest power of two below `n`. An audit path holds the
siblings met on the way from a leaf to the root. -/

namespace CastleWall.MerkleTree

variable {α H : Type}

structure Scheme (α H : Type) where
  empty : H
  leaf : α → H
  node : H → H → H

/-- The largest power of two below `n`. -/
def split (n : Nat) : Nat := 2 ^ Nat.log 2 (n - 1)

theorem split_pos (n : Nat) : 0 < split n := Nat.two_pow_pos _

theorem split_lt {n : Nat} (h : 2 ≤ n) : split n < n := by
  have hle : split n ≤ n - 1 := Nat.pow_log_le_self 2 (by omega)
  omega

theorem split_half {m : Nat} (h : 2 ≤ m) : split (m+1)=2 * split (m / 2+1) := by
  have hlog : Nat.log 2 m=Nat.log 2 (m / 2)+1 := Nat.log_of_one_lt_of_le (by decide) h
  rw [split,split,Nat.add_sub_cancel,Nat.add_sub_cancel,hlog,Nat.pow_succ,Nat.mul_comm]

theorem length_take_split_lt {leaves : List α} (h : 2 ≤ leaves.length) :
    (leaves.take (split leaves.length)).length < leaves.length := by
  have hlt := split_lt h
  rw [List.length_take]
  omega

theorem length_drop_split_lt {leaves : List α} (h : 2 ≤ leaves.length) :
    (leaves.drop (split leaves.length)).length < leaves.length := by
  have hpos := split_pos leaves.length
  rw [List.length_drop]
  omega

namespace Scheme

variable (scheme : Scheme α H)

def treeHash (leaves : List α) : H :=
  match leaves with
  | [] => scheme.empty
  | [a] => scheme.leaf a
  | a::b::rest =>
    let k := split (a::b::rest).length
    scheme.node (treeHash ((a::b::rest).take k)) (treeHash ((a::b::rest).drop k))
termination_by leaves.length
decreasing_by
  · exact length_take_split_lt (by simp)
  · exact length_drop_split_lt (by simp)

def pairs (leaves : List α) : List (H × H) :=
  match leaves with
  | [] => []
  | [_] => []
  | a::b::rest =>
    let k := split (a::b::rest).length
    (scheme.treeHash ((a::b::rest).take k),scheme.treeHash ((a::b::rest).drop k)) ::
      (pairs ((a::b::rest).take k)++pairs ((a::b::rest).drop k))
termination_by leaves.length
decreasing_by
  · exact length_take_split_lt (by simp)
  · exact length_drop_split_lt (by simp)

/-- The siblings on the way from the leaf at `index` up to the root. -/
def auditPath (leaves : List α) (index : Nat) : List H :=
  match leaves with
  | [] => []
  | [_] => []
  | a::b::rest =>
    let k := split (a::b::rest).length
    if index < k then
      auditPath ((a::b::rest).take k) index++[scheme.treeHash ((a::b::rest).drop k)]
    else
      auditPath ((a::b::rest).drop k) (index - k)++[scheme.treeHash ((a::b::rest).take k)]
termination_by leaves.length
decreasing_by
  · exact length_take_split_lt (by simp)
  · exact length_drop_split_lt (by simp)

variable {leaves : List α}

theorem treeHash_of_two_le (h : 2 ≤ leaves.length) :
    scheme.treeHash leaves=scheme.node (scheme.treeHash (leaves.take (split leaves.length)))
      (scheme.treeHash (leaves.drop (split leaves.length))) := by
  match leaves, h with
  | a::b::rest, _ => rw [treeHash]

theorem pairs_of_two_le (h : 2 ≤ leaves.length) :
    scheme.pairs leaves=(scheme.treeHash (leaves.take (split leaves.length)),
      scheme.treeHash (leaves.drop (split leaves.length))) ::
        (scheme.pairs (leaves.take (split leaves.length)) ++
          scheme.pairs (leaves.drop (split leaves.length))) := by
  match leaves, h with
  | a::b::rest, _ => rw [pairs]

theorem auditPath_of_lt {index : Nat} (h : 2 ≤ leaves.length)
    (hi : index < split leaves.length) : scheme.auditPath leaves index =
      scheme.auditPath (leaves.take (split leaves.length)) index ++
        [scheme.treeHash (leaves.drop (split leaves.length))] := by
  match leaves, h with
  | a::b::rest, _ => rw [auditPath,if_pos hi]

theorem auditPath_of_le {index : Nat} (h : 2 ≤ leaves.length)
    (hi : split leaves.length ≤ index) : scheme.auditPath leaves index =
      scheme.auditPath (leaves.drop (split leaves.length)) (index - split leaves.length) ++
        [scheme.treeHash (leaves.take (split leaves.length))] := by
  match leaves, h with
  | a::b::rest, _ => rw [auditPath,if_neg (Nat.not_lt.mpr hi)]

end Scheme

inductive Side where
  | left
  | right

def Side.join (node : H → H → H) (side : Side) (sibling r : H) : H :=
  match side with
  | left => node sibling r
  | right => node r sibling

def climb (node : H → H → H) : List Side → H → List H → Option H
  | [], r, [] => some r
  | side::sides, r, hash::hashes => climb node sides (side.join node hash r) hashes
  | _, _, _ => none

/-- The sides of the siblings of the leaf at `index` in a tree of `size` leaves, from the leaf up. -/
def turns (index size : Nat) : List Side :=
  if h : size < 2 then []
  else if index < split size then turns index (split size)++[.right]
  else turns (index - split size) (size - split size)++[.left]
termination_by size
decreasing_by
  · exact split_lt (Nat.not_lt.mp h)
  · have hpos := split_pos size
    omega

variable {index size : Nat}

theorem turns_of_lt (h : 2 ≤ size) (hi : index < split size) :
    turns index size=turns index (split size)++[.right] := by
  rw [turns,dif_neg (Nat.not_lt.mpr h),if_pos hi]

theorem turns_of_le (h : 2 ≤ size) (hi : split size ≤ index) :
    turns index size=turns (index - split size) (size - split size)++[.left] := by
  rw [turns,dif_neg (Nat.not_lt.mpr h),if_neg (Nat.not_lt.mpr hi)]

theorem turns_of_lt_two (h : size < 2) : turns index size=[] := by
  rw [turns,dif_pos h]

theorem turns_ne_nil (h : 2 ≤ size) : turns index size≠[] := by
  by_cases hi : index < split size
  · rw [turns_of_lt h hi]
    simp
  · rw [turns_of_le h (Nat.not_lt.mp hi)]
    simp

/-! ### The sides from the leaf on

An index at an odd place has its sibling on the left; at an even place on the right, unless it is the
last, and then the range is halved with no step. -/

def neighbour (index : Nat) : Side := if index % 2=1 then .left else .right

theorem turns_step {last : Nat} (hle : index ≤ last) (h : index % 2=1 ∨ index < last) :
    turns index (last+1)=neighbour index::turns (index / 2) (last / 2+1) := by
  induction last using Nat.strong_induction_on generalizing index with
  | _ last ih =>
    by_cases hone : last=1
    · subst hone
      have hspl : split (1+1)=1 := by decide
      by_cases hzer : index=0
      · subst hzer
        rw [turns_of_lt (by decide) (by decide),hspl,turns_of_lt_two (by decide)]
        rfl
      · obtain rfl : index=1 := by omega
        rw [turns_of_le (by decide) (by decide),hspl,turns_of_lt_two (by decide)]
        rfl
    · have htwo : 2 ≤ last := by omega
      have hk := split_half htwo
      have hpos := split_pos (last / 2+1)
      have hlt := split_lt (n := last+1) (by omega)
      by_cases hsid : index < split (last+1)
      · -- the left half: its last place is odd, so an even index has a neighbour there too
        have hpre : split (last+1)=(split (last+1) - 1)+1 := by omega
        have hhal : (split (last+1) - 1) / 2+1=split (last / 2+1) := by omega
        have hrig : turns (index / 2) (last / 2+1) =
            turns (index / 2) (split (last / 2+1))++[.right] := turns_of_lt (by omega) (by omega)
        rw [turns_of_lt (by omega) hsid,hrig,hpre,
          ih (split (last+1) - 1) (by omega) (by omega) (by omega),hhal]
        rfl
      · have hsub : last+1 - split (last+1)=(last - split (last+1))+1 := by omega
        have hind : (index - split (last+1)) / 2=index / 2 - split (last / 2+1) := by omega
        have hlas : (last - split (last+1)) / 2+1=last / 2+1 - split (last / 2+1) := by omega
        have hpar : neighbour (index - split (last+1))=neighbour index := by
          rw [neighbour,neighbour,show (index - split (last+1)) % 2=index % 2 by omega]
        have hlef : turns (index / 2) (last / 2+1) =
            turns (index / 2 - split (last / 2+1)) (last / 2+1 - split (last / 2+1))++[.left] :=
          turns_of_le (by omega) (by omega)
        rw [turns_of_le (by omega) (Nat.not_lt.mp hsid),hlef,hsub,
          ih (last - split (last+1)) (by omega) (by omega) (by omega),hind,hlas,hpar]
        rfl

theorem turns_last_double {m : Nat} (h : 0 < m) : turns (2 * m) (2 * m+1)=turns m (m+1) := by
  induction m using Nat.strong_induction_on with
  | _ m ih =>
    have hk : split (2 * m+1)=2 * split (m+1) := by
      have hhal := split_half (m := 2 * m) (by omega)
      rwa [Nat.mul_div_cancel_left m (by decide)] at hhal
    have hlt := split_lt (n := m+1) (by omega)
    have hpos := split_pos (m+1)
    have hind : 2 * m - split (2 * m+1)=2 * (m - split (m+1)) := by omega
    have hsiz : 2 * m+1 - split (2 * m+1)=2 * (m - split (m+1))+1 := by omega
    have hsiz' : m+1 - split (m+1)=m - split (m+1)+1 := by omega
    have hhal : turns m (m+1)=turns (m - split (m+1)) (m+1 - split (m+1))++[.left] :=
      turns_of_le (by omega) (by omega)
    rw [turns_of_le (by omega) (by omega),hhal,hind,hsiz,hsiz']
    by_cases hzer : m - split (m+1)=0
    · rw [hzer]
    · rw [ih (m - split (m+1)) (by omega) (by omega)]

section Climb

variable {node : H → H → H}

theorem climb_concat (sides : List Side) (side : Side) (r : H) (hashes : List H) (hash : H) :
    climb node (sides++[side]) r (hashes++[hash]) =
      (climb node sides r hashes).map (side.join node hash) := by
  induction sides generalizing r hashes with
  | nil =>
    cases hashes with
    | nil => rfl
    | cons first rest =>
      cases rest with
      | nil => rfl
      | cons second rest => rfl
  | cons first sides ih =>
    cases hashes with
    | nil =>
      cases sides with
      | nil => rfl
      | cons second sides => rfl
    | cons sibling hashes =>
      simp only [List.cons_append,climb]
      exact ih _ hashes

def Side.pair (side : Side) (sibling r : H) : H × H :=
  match side with
  | left => (sibling,r)
  | right => (r,sibling)

def joined (node : H → H → H) : List Side → H → List H → List (H × H)
  | side::sides, r, hash::hashes =>
    side.pair hash r::joined node sides (side.join node hash r) hashes
  | _, _, _ => []

theorem joined_concat {sides : List Side} {side : Side} {r reached : H} {hashes : List H} {hash : H}
    (h : climb node sides r hashes=some reached) :
    joined node (sides++[side]) r (hashes++[hash]) =
      joined node sides r hashes++[side.pair hash reached] := by
  induction sides generalizing r hashes with
  | nil =>
    match hashes, h with
    | [], h =>
      obtain rfl : r=reached := Option.some.inj h
      rfl
  | cons first sides ih =>
    match hashes, h with
    | sibling::hashes, h =>
      simp only [List.cons_append,joined]
      rw [ih h]

theorem climb_auditPath (scheme : Scheme α H) (leaves : List α) {index : Nat} {a : α}
    (h : leaves[index]? = some a) :
    climb scheme.node (turns index leaves.length) (scheme.leaf a) (scheme.auditPath leaves index) =
        some (scheme.treeHash leaves) ∧
      joined scheme.node (turns index leaves.length) (scheme.leaf a) (scheme.auditPath leaves index) ⊆
        scheme.pairs leaves := by
  -- along the split: the sibling on the last step is the half the leaf is not in
  induction hn : leaves.length using Nat.strong_induction_on generalizing leaves index with
  | _ n ih =>
    subst hn
    have hi : index < leaves.length := (List.getElem?_eq_some_iff.mp h).1
    by_cases htwo : 2 ≤ leaves.length
    · have hlt := split_lt htwo
      have hpos := split_pos leaves.length
      rw [scheme.treeHash_of_two_le htwo,scheme.pairs_of_two_le htwo]
      by_cases hsid : index < split leaves.length
      · have hlen : (leaves.take (split leaves.length)).length=split leaves.length := by
          rw [List.length_take]
          omega
        have hlea : (leaves.take (split leaves.length))[index]? = some a := by
          rw [List.getElem?_take_of_lt hsid,h]
        obtain ⟨hcli,hjoi⟩ := ih _ (by omega) _ hlea rfl
        rw [hlen] at hcli hjoi
        rw [turns_of_lt htwo hsid,scheme.auditPath_of_lt htwo hsid]
        refine ⟨?_,?_⟩
        · rw [climb_concat,hcli]
          rfl
        · rw [joined_concat hcli]
          apply List.append_subset.mpr
          refine ⟨fun p hp => ?_,?_⟩
          · exact List.mem_cons_of_mem _ (List.mem_append_left _ (hjoi hp))
          · exact List.cons_subset.mpr ⟨List.mem_cons_self,List.nil_subset _⟩
      · have hle := Nat.not_lt.mp hsid
        have hlen : (leaves.drop (split leaves.length)).length =
            leaves.length - split leaves.length := List.length_drop
        have hlea : (leaves.drop (split leaves.length))[index - split leaves.length]? = some a := by
          rw [List.getElem?_drop,Nat.add_sub_cancel' hle,h]
        obtain ⟨hcli,hjoi⟩ := ih _ (by omega) _ hlea rfl
        rw [hlen] at hcli hjoi
        rw [turns_of_le htwo hle,scheme.auditPath_of_le htwo hle]
        refine ⟨?_,?_⟩
        · rw [climb_concat,hcli]
          rfl
        · rw [joined_concat hcli]
          apply List.append_subset.mpr
          refine ⟨fun p hp => ?_,?_⟩
          · exact List.mem_cons_of_mem _ (List.mem_append_right _ (hjoi hp))
          · exact List.cons_subset.mpr ⟨List.mem_cons_self,List.nil_subset _⟩
    · match leaves, hi with
      | [b], hi =>
        obtain rfl : index=0 := Nat.lt_one_iff.mp hi
        obtain rfl : b=a := Option.some.inj h
        rw [turns_of_lt_two (by simp),Scheme.auditPath,Scheme.treeHash]
        exact ⟨rfl,List.nil_subset _⟩
      | _::_::_, _ => simp at htwo

/-- Two climbs of the same sides that meet started at one place with one path. `Sized` holds of what a
node hash gives, and of the two places started from. -/
theorem climb_injective (Sized : H → Prop) (hsiz : ∀ x y, Sized (node x y)) {sides : List Side}
    {r r' : H} {hashes hashes' : List H} {root : H}
    (hinj : ∀ p∈joined node sides r hashes, ∀ q∈joined node sides r' hashes',
      (Sized p.1 ∧ Sized q.1 ∨ Sized p.2 ∧ Sized q.2) → node p.1 p.2=node q.1 q.2 → p=q)
    (hr : Sized r) (hr' : Sized r') (h : climb node sides r hashes=some root)
    (h' : climb node sides r' hashes'=some root) : r=r' ∧ hashes=hashes' := by
  induction sides generalizing r r' hashes hashes' with
  | nil =>
    match hashes, hashes' with
    | [], [] => exact ⟨Option.some.inj (h.trans h'.symm),rfl⟩
  | cons side sides ih =>
    match hashes, hashes' with
    | hash::hashes, hash'::hashes' =>
      have hres := ih (fun p hp q hq => hinj p (List.mem_cons_of_mem _ hp) q (List.mem_cons_of_mem _ hq))
        (by cases side <;> exact hsiz _ _) (by cases side <;> exact hsiz _ _) h h'
      have hhea := hinj _ List.mem_cons_self _ List.mem_cons_self
      cases side with
      | left =>
        have hpai := Prod.mk.inj (hhea (Or.inr ⟨hr,hr'⟩) hres.1)
        rw [hpai.1,hpai.2,hres.2]
        exact ⟨rfl,rfl⟩
      | right =>
        have hpai := Prod.mk.inj (hhea (Or.inl ⟨hr,hr'⟩) hres.1)
        rw [hpai.1,hpai.2,hres.2]
        exact ⟨rfl,rfl⟩

end Climb

end CastleWall.MerkleTree
