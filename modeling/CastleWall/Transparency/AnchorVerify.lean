import CastleWall.Cognitive.Merkle
import CastleWall.Support.MerkleTree
import Mathlib.Algebra.GroupWithZero.Nat

/-! # Inclusion proofs of the transparency log

The RFC 6962 Merkle math of `transparency/anchor-verify.ts`. The verifier halves the index and the last
index of the tree in step; RFC 6962 defines tree hash and audit path by a split at a power of two. -/

namespace CastleWall.Transparency

open MerkleTree

/-- `Number.isSafeInteger`, of a number without a fraction. -/
def isSafeInteger (n : Int) : Prop := n.natAbs ≤ 2 ^ 53 - 1

instance (n : Int) : Decidable (isSafeInteger n) :=
  inferInstanceAs (Decidable (n.natAbs ≤ 2 ^ 53 - 1))

def skipEven (fn sn : Nat) : Nat × Nat :=
  if fn % 2=0 ∧ fn≠0 then skipEven (fn / 2) (sn / 2) else (fn,sn)
termination_by fn
decreasing_by omega

section Hash

variable (sha256 : List UInt8 → Cognitive.Digest)

def rfc6962LeafHash (body : List UInt8) : List UInt8 := (sha256 ([0x00]++body)).bytes

def rfc6962NodeHash (left right : List UInt8) : List UInt8 := (sha256 ([0x01]++left++right)).bytes

def inclusionLoop (fn sn : Nat) (r : List UInt8) : List (List UInt8) → Option (List UInt8)
  | [] => if sn≠0 then none else some r
  | hash::proofHashes =>
    if sn=0 then none
    else if fn % 2=1 ∨ fn=sn then
      let skipped := if fn % 2=0 then skipEven fn sn else (fn,sn)
      inclusionLoop (skipped.1 / 2) (skipped.2 / 2) (rfc6962NodeHash sha256 hash r) proofHashes
    else inclusionLoop (fn / 2) (sn / 2) (rfc6962NodeHash sha256 r hash) proofHashes

/-- A number with a fraction fails `isSafeInteger` like one out of range. -/
def rootFromInclusionProof (leafHash : List UInt8) (leafIndex treeSize : Int)
    (proofHashes : List (List UInt8)) : Option (List UInt8) :=
  if ¬isSafeInteger leafIndex ∨ ¬isSafeInteger treeSize ∨ leafIndex < 0 ∨ treeSize ≤ 0 ∨
      treeSize ≤ leafIndex then none
  else inclusionLoop sha256 leafIndex.toNat (treeSize - 1).toNat leafHash proofHashes

def rfc6962 : Scheme (List UInt8) (List UInt8) where
  empty := (sha256 []).bytes
  leaf := rfc6962LeafHash sha256
  node := rfc6962NodeHash sha256

/-- From the last place of a range the inner loop comes to an odd last place with the same way up. -/
theorem skipEven_last (m : Nat) (h : 0 < m) : ∃ odd, skipEven m m=(odd,odd) ∧ odd % 2=1 ∧
    turns m (m+1)=turns odd (odd+1) := by
  induction m using Nat.strong_induction_on with
  | _ m ih =>
    by_cases heve : m % 2=0
    · obtain ⟨odd,hski,hodd,htur⟩ := ih (m / 2) (by omega) (by omega)
      refine ⟨odd,?_,hodd,?_⟩
      · rw [skipEven,if_pos ⟨heve,by omega⟩,hski]
      · have hdou := turns_last_double (m := m / 2) (by omega)
        rw [show 2 * (m / 2)=m by omega] at hdou
        rw [hdou,htur]
    · refine ⟨m,?_,by omega,rfl⟩
      rw [skipEven,if_neg (fun h => heve h.1)]

theorem inclusionLoop_eq_climb {fn sn : Nat} (h : fn ≤ sn) (r : List UInt8)
    (proofHashes : List (List UInt8)) : inclusionLoop sha256 fn sn r proofHashes =
      climb (rfc6962NodeHash sha256) (turns fn (sn+1)) r proofHashes := by
  induction proofHashes generalizing fn sn r with
  | nil =>
    by_cases hzer : sn=0
    · rw [hzer,turns_of_lt_two (by decide)]
      rfl
    · rw [inclusionLoop,if_pos hzer]
      cases htur : turns fn (sn+1) with
      | nil => exact absurd htur (turns_ne_nil (by omega))
      | cons side sides => rfl
  | cons hash proofHashes ih =>
    rw [inclusionLoop]
    by_cases hzer : sn=0
    · rw [hzer,if_pos rfl,turns_of_lt_two (by decide)]
      rfl
    rw [if_neg hzer]
    by_cases hodd : fn % 2=1
    · have hste := turns_step h (Or.inl hodd)
      rw [neighbour,if_pos hodd] at hste
      simp only [hodd,true_or,if_true,Nat.one_ne_zero,if_false]
      rw [ih (by omega),hste]
      rfl
    · have heve : fn % 2=0 := by omega
      by_cases hlas : fn=sn
      · -- the last place: the levels where it has no sibling are skipped
        subst hlas
        obtain ⟨odd,hski,hode,htur⟩ := skipEven_last fn (by omega)
        have hste := turns_step (le_refl odd) (Or.inl hode)
        rw [neighbour,if_pos hode] at hste
        simp only [heve,or_true,if_true,hski]
        rw [ih (le_refl _),htur,hste]
        rfl
      · have hste := turns_step h (Or.inr (by omega))
        rw [neighbour,if_neg hodd] at hste
        rw [if_neg (by omega),ih (by omega),hste]
        rfl

def treeStrings (leaves : List (List UInt8)) : List (List UInt8) :=
  ((rfc6962 sha256).pairs leaves).map fun pair => [0x01]++pair.1++pair.2

def proofStrings (leafHash : List UInt8) (leafIndex treeSize : Nat) (proofHashes : List (List UInt8)) :
    List (List UInt8) :=
  (joined (rfc6962NodeHash sha256) (turns leafIndex treeSize) leafHash proofHashes).map fun pair =>
    [0x01]++pair.1++pair.2

variable {sha256}

theorem length_rfc6962NodeHash (left right : List UInt8) :
    (rfc6962NodeHash sha256 left right).length=32 :=
  (sha256 ([0x01]++left++right)).length_eq

theorem length_rfc6962LeafHash (body : List UInt8) : (rfc6962LeafHash sha256 body).length=32 :=
  (sha256 ([0x00]++body)).length_eq

theorem rootFromInclusionProof_eq_climb {leafIndex size : Nat} (hsiz : isSafeInteger size)
    (h : leafIndex < size) (leafHash : List UInt8) (proofHashes : List (List UInt8)) :
    rootFromInclusionProof sha256 leafHash leafIndex size proofHashes =
      climb (rfc6962NodeHash sha256) (turns leafIndex size) leafHash proofHashes := by
  have hgua : ¬(¬isSafeInteger leafIndex ∨ ¬isSafeInteger size ∨ (leafIndex : Int) < 0 ∨
      (size : Int) ≤ 0 ∨ (size : Int) ≤ leafIndex) := by
    simp only [isSafeInteger] at hsiz ⊢
    omega
  rw [rootFromInclusionProof,if_neg hgua,Int.toNat_natCast,
    show ((size : Int) - 1).toNat=size - 1 by omega,inclusionLoop_eq_climb sha256 (by omega),
    show size - 1+1=size by omega]

theorem index_of_rootFromInclusionProof {leafHash root : List UInt8} {leafIndex treeSize : Int}
    {proofHashes : List (List UInt8)}
    (h : rootFromInclusionProof sha256 leafHash leafIndex treeSize proofHashes=some root) :
    0 ≤ leafIndex ∧ leafIndex < treeSize := by
  rw [rootFromInclusionProof] at h
  split at h
  · exact absurd h nofun
  · omega

/-- Digests of 32 bytes: a string that joins two of them splits in one way when one part has the length
of a digest. -/
theorem pair_eq_of_append {p q : List UInt8 × List UInt8}
    (hlen : p.1.length=32 ∧ q.1.length=32 ∨ p.2.length=32 ∧ q.2.length=32)
    (h : [0x01]++p.1++p.2=[0x01]++q.1++q.2) : p=q := by
  rw [List.append_assoc,List.append_assoc] at h
  have htai := List.append_cancel_left h
  rcases hlen with hfir | hsec
  · obtain ⟨hlef,hrig⟩ := List.append_inj htai (hfir.1.trans hfir.2.symm)
    exact Prod.ext hlef hrig
  · obtain ⟨hlef,hrig⟩ := List.append_inj' htai (hsec.1.trans hsec.2.symm)
    exact Prod.ext hlef hrig

/-- The verifier computes the tree hash from a leaf and its audit path, and from nothing else. -/
theorem inclusion_proof_binds (sha256 : List UInt8 → Cognitive.Digest) (leaves : List (List UInt8))
    (hsize : isSafeInteger leaves.length) :
    (∀ (index : Nat) leaf, leaves[index]? = some leaf →
      rootFromInclusionProof sha256 (rfc6962LeafHash sha256 leaf) index leaves.length
        ((rfc6962 sha256).auditPath leaves index)=some ((rfc6962 sha256).treeHash leaves)) ∧
    ∀ leafHash leafIndex proofHashes, leafHash.length=32 →
      (∀ x∈treeStrings sha256 leaves,
        ∀ y∈proofStrings sha256 leafHash leafIndex.toNat leaves.length proofHashes,
          sha256 x=sha256 y → x=y) →
      rootFromInclusionProof sha256 leafHash leafIndex leaves.length proofHashes =
        some ((rfc6962 sha256).treeHash leaves) →
      ∃ index leaf, leafIndex=Int.ofNat index ∧ leaves[index]? = some leaf ∧
        leafHash=rfc6962LeafHash sha256 leaf ∧
        proofHashes=(rfc6962 sha256).auditPath leaves index := by
  refine ⟨?_,?_⟩
  · intro index leaf hlea
    have hind : index < leaves.length := (List.getElem?_eq_some_iff.mp hlea).1
    rw [rootFromInclusionProof_eq_climb hsize hind]
    exact (climb_auditPath (rfc6962 sha256) leaves hlea).1
  · intro leafHash leafIndex proofHashes hlen hinj hroo
    obtain ⟨hnon,hlt⟩ := index_of_rootFromInclusionProof hroo
    obtain ⟨index,rfl⟩ := Int.eq_ofNat_of_zero_le hnon
    have hind : index < leaves.length := by omega
    have hlea : leaves[index]? = some leaves[index] := List.getElem?_eq_getElem hind
    rw [rootFromInclusionProof_eq_climb hsize hind] at hroo
    obtain ⟨hcli,hjoi⟩ := climb_auditPath (rfc6962 sha256) leaves hlea
    -- the given proof and the leaf's own path climb the same sides to one root
    have hsta := climb_injective (fun x : List UInt8 => x.length=32)
      length_rfc6962NodeHash ?_ (length_rfc6962LeafHash leaves[index]) hlen hcli hroo
    · exact ⟨index,leaves[index],rfl,hlea,hsta.1.symm,hsta.2.symm⟩
    · intro p hp q hq hsiz hnod
      have hdig : sha256 ([0x01]++p.1++p.2)=sha256 ([0x01]++q.1++q.2) :=
        Cognitive.Digest.ext hnod
      apply pair_eq_of_append hsiz
      exact hinj _ (List.mem_map.mpr ⟨p,hjoi hp,rfl⟩) _ (List.mem_map.mpr ⟨q,hq,rfl⟩) hdig

end Hash

theorem inclusion_proof_binds_two :
    rootFromInclusionProof Cognitive.frontDigest (rfc6962LeafHash Cognitive.frontDigest [7]) 0 2
        [rfc6962LeafHash Cognitive.frontDigest [8]] =
      some ((rfc6962 Cognitive.frontDigest).treeHash [[7],[8]]) ∧
    ∃ index leaf, (0 : Int)=Int.ofNat index ∧ [[7],[8]][index]? = some leaf ∧
      rfc6962LeafHash Cognitive.frontDigest [7]=rfc6962LeafHash Cognitive.frontDigest leaf ∧
      [rfc6962LeafHash Cognitive.frontDigest [8]] =
        (rfc6962 Cognitive.frontDigest).auditPath [[7],[8]] index := by
  have hspl : split 2=1 := by decide
  have hpat : (rfc6962 Cognitive.frontDigest).auditPath [[7],[8]] 0 =
      [rfc6962LeafHash Cognitive.frontDigest [8]] := by
    simp [Scheme.auditPath,Scheme.treeHash,hspl,rfc6962]
  have hbin := inclusion_proof_binds Cognitive.frontDigest [[7],[8]] (by decide)
  have hroo := hbin.1 0 [7] rfl
  rw [hpat] at hroo
  refine ⟨hroo,hbin.2 _ 0 _ (length_rfc6962LeafHash [7]) ?_ hroo⟩
  intro x hx y hy _
  have htre : treeStrings Cognitive.frontDigest [[7],[8]] =
      [[0x01]++rfc6962LeafHash Cognitive.frontDigest [7] ++
        rfc6962LeafHash Cognitive.frontDigest [8]] := by
    simp [treeStrings,Scheme.pairs,Scheme.treeHash,hspl,rfc6962]
  have hpro : proofStrings Cognitive.frontDigest (rfc6962LeafHash Cognitive.frontDigest [7]) 0 2
      [rfc6962LeafHash Cognitive.frontDigest [8]] =
      [[0x01]++rfc6962LeafHash Cognitive.frontDigest [7] ++
        rfc6962LeafHash Cognitive.frontDigest [8]] := by
    simp [proofStrings,turns,hspl,joined,Side.pair]
  rw [htre] at hx
  rw [List.mem_singleton.mp hx]
  exact (List.mem_singleton.mp (hpro ▸ hy)).symm

/-- The guard turns away a tree of `2 ^ 53` leaves. -/
theorem unsafe_size_refused : ∃ leaves leaf, leaves[0]? = some leaf ∧
    rootFromInclusionProof Cognitive.frontDigest (rfc6962LeafHash Cognitive.frontDigest leaf) 0
      (leaves.length : Nat) ((rfc6962 Cognitive.frontDigest).auditPath leaves 0) ≠
        some ((rfc6962 Cognitive.frontDigest).treeHash leaves) := by
  refine ⟨List.replicate (2 ^ 53) [],[],?_,?_⟩
  · rw [List.getElem?_replicate,if_pos (by decide)]
  · rw [List.length_replicate,rootFromInclusionProof,if_pos (Or.inr (Or.inl (by decide)))]
    nofun

end CastleWall.Transparency
