import CastleWall.Cognitive.Merkle
import Mathlib.Data.List.Induction

/-! # Merkle proofs

The proof walk goes up the levels of hashes beside the builder of the tree, and records the sibling of its index. -/

namespace CastleWall.Cognitive

inductive Position where
  | left
  | right
deriving DecidableEq

structure ProofStep where
  hash : List UInt16
  position : Position

structure MerkleProof where
  leaf : List UInt16
  path : List ProofStep
  root : List UInt16

section Proof

variable (sha256 : List UInt8 → Digest)

def parentHash (left right : List UInt16) : List UInt16 :=
  (hashToString sha256 (Utf16.encode left++Utf16.encode right)).text

/-- The pass over one level, from its index `i` on: the sibling of the index that is followed, and the next level. -/
def levelPass (currentIndex i : Nat) : List (List UInt16) → List ProofStep × List (List UInt16)
  | left::right::rest =>
    let recorded : List ProofStep :=
      if i=currentIndex ∨ i+1=currentIndex then
        if currentIndex=i then [⟨right,.right⟩] else [⟨left,.left⟩]
      else []
    let later := levelPass currentIndex (i+2) rest
    (recorded++later.1,parentHash sha256 left right::later.2)
  | level => ([],level)

theorem length_levelPass_le (currentIndex i : Nat) (level : List (List UInt16)) :
    (levelPass sha256 currentIndex i level).2.length ≤ level.length := by
  induction level using List.twoStepInduction generalizing i with
  | nil => exact Nat.le_refl _
  | singleton left => exact Nat.le_refl _
  | cons_cons left right rest ih _ =>
    have hres := ih (i+2)
    rw [levelPass,List.length_cons,List.length_cons,List.length_cons]
    omega

def proofPath (currentIndex : Nat) (currentLevel : List (List UInt16)) : List ProofStep :=
  match currentLevel with
  | left::right::rest =>
    let pass := levelPass sha256 currentIndex 0 (left::right::rest)
    pass.1++proofPath (currentIndex / 2) pass.2
  | _ => []
termination_by currentLevel.length
decreasing_by
  have hle := length_levelPass_le sha256 currentIndex (0+2) rest
  rw [levelPass,List.length_cons,List.length_cons,List.length_cons]
  omega

namespace HashMap

def leafHashes (m : HashMap) : List (List UInt16) :=
  m.sortedEntries.map fun entry => (hashToString sha256 (Utf16.encode entry.1++entry.2.bytes)).text

def sortedKeys (m : HashMap) : List (List UInt16) := m.sortedEntries.map Prod.fst

def generateMerkleProof (m : HashMap) (targetKey : List UInt16) : Option MerkleProof :=
  if targetKey∈m.sortedKeys then
    let targetIndex := m.sortedKeys.idxOf targetKey
    (m.leafHashes sha256)[targetIndex]?.map fun leaf =>
      ⟨leaf,proofPath sha256 targetIndex (m.leafHashes sha256),m.computeMerkleRoot sha256⟩
  else none

end HashMap

def ProofStep.join (currentHash : List UInt16) (step : ProofStep) : List UInt16 :=
  parentHash sha256 (if step.position=.left then step.hash else currentHash)
    (if step.position=.right then step.hash else currentHash)

def verifyMerkleProof (proof : MerkleProof) : Bool :=
  proof.path.foldl (ProofStep.join sha256) proof.leaf=proof.root

theorem levelPass_before {currentIndex i : Nat} (h : currentIndex < i) (level : List (List UInt16)) :
    (levelPass sha256 currentIndex i level).1=[] := by
  induction level using List.twoStepInduction generalizing i with
  | nil => rfl
  | singleton left => rfl
  | cons_cons left right rest ih _ =>
    have hne : ¬(i=currentIndex ∨ i+1=currentIndex) := by omega
    rw [levelPass,if_neg hne,List.nil_append]
    exact ih (by omega)

/-- One level: the sibling takes the hash that is followed to its parent, and a promoted hash stays what it is. -/
theorem levelPass_follows {level : List (List UInt16)} {i j : Nat} {hash : List UInt16} (h : level[j]? = some hash) :
    (levelPass sha256 (i+j) i level).2[j / 2]? =
      some ((levelPass sha256 (i+j) i level).1.foldl (ProofStep.join sha256) hash) := by
  induction level using List.twoStepInduction generalizing i j with
  | nil => cases h
  | singleton left =>
    cases j with
    | zero => exact h
    | succ j => cases h
  | cons_cons left right rest ih _ =>
    rw [levelPass]
    match j with
    | 0 =>
      cases h
      rw [Nat.add_zero,if_pos (Or.inl rfl),if_pos rfl,levelPass_before sha256 (by omega)]
      rfl
    | 1 =>
      cases h
      rw [if_pos (Or.inr rfl),if_neg (by omega),levelPass_before sha256 (by omega)]
      rfl
    | j+2 =>
      have hne : ¬(i=i+(j+2) ∨ i+1=i+(j+2)) := by omega
      have hhal : (j+2) / 2=j / 2+1 := by omega
      have hind : i+(j+2)=i+2+j := by omega
      rw [if_neg hne,hhal,hind]
      exact ih (i := i+2) h

theorem nextLevel_hashes (currentIndex i : Nat) (nodes : List MerkleNode) :
    (levelPass sha256 currentIndex i (nodes.map fun node => (node.hash sha256).text)).2 =
      (nextLevel nodes).map fun node => (node.hash sha256).text := by
  induction nodes using List.twoStepInduction generalizing i with
  | nil => rfl
  | singleton node => rfl
  | cons_cons left right rest ih _ =>
    rw [nextLevel,List.map_cons,List.map_cons,levelPass,List.map_cons,ih]
    rfl

/-- All levels: the path takes each hash of a level to the root that the builder finds. -/
theorem proofPath_follows {nodes : List MerkleNode} {tree node : MerkleNode} {index : Nat}
    (htre : buildLevels nodes=some tree) (hnod : nodes[index]? = some node) :
    (proofPath sha256 index (nodes.map fun node => (node.hash sha256).text)).foldl (ProofStep.join sha256)
      (node.hash sha256).text=(tree.hash sha256).text := by
  induction nodes using buildLevels.induct generalizing node index with
  | case1 => cases hnod
  | case2 only =>
    rw [buildLevels,Option.some.injEq] at htre
    cases index with
    | zero =>
      rw [List.getElem?_cons_zero,Option.some.injEq] at hnod
      rw [← htre,← hnod,List.map_singleton,proofPath]
      · rfl
      · rintro _ _ _ ⟨⟩
    | succ index => cases hnod
  | case3 left right rest ih =>
    rw [buildLevels] at htre
    have hhas : ((left::right::rest).map fun node => (node.hash sha256).text)[index]? =
        some (node.hash sha256).text := by rw [List.getElem?_map,hnod,Option.map_some]
    have hpas := levelPass_follows sha256 (i := 0) hhas
    rw [Nat.zero_add,nextLevel_hashes,List.getElem?_map,Option.map_eq_some_iff] at hpas
    obtain ⟨parent,hpar,hjoi⟩ := hpas
    have hlev := nextLevel_hashes sha256 index 0 (left::right::rest)
    rw [List.map_cons,List.map_cons] at hjoi hlev
    rw [List.map_cons,List.map_cons,proofPath,List.foldl_append,← hjoi,hlev]
    exact ih htre hpar

namespace HashMap

theorem computeMerkleRoot_of_tree {m : HashMap} {tree : MerkleNode} (h : m.buildMerkleTree=some tree) :
    m.computeMerkleRoot sha256=(tree.hash sha256).text := by
  rw [computeMerkleRoot,h]

/-- Every key of a map has a proof of the map's root, from the hash of the key and of what the map holds under it. -/
theorem generateMerkleProof_verifies (m : HashMap) {key : List UInt16} {contentHash : HashText}
    (h : (key,contentHash)∈m.entries) :
    ∃ proof, m.generateMerkleProof sha256 key=some proof ∧ verifyMerkleProof sha256 proof=true ∧
      proof.root=m.computeMerkleRoot sha256 ∧
      proof.leaf=(hashToString sha256 (Utf16.encode key++contentHash.bytes)).text := by
  have hper : m.sortedEntries.Perm m.entries := List.perm_insertionSort keyLe m.entries
  have hmem : (key,contentHash)∈m.sortedEntries := hper.mem_iff.mpr h
  have hnod : m.sortedKeys.Nodup := (hper.map Prod.fst).nodup_iff.mpr m.nodup
  obtain ⟨index,hind⟩ := List.getElem?_of_mem hmem
  obtain ⟨hlt,hget⟩ := List.getElem?_eq_some_iff.mp hind
  have hhas : key∈m.sortedKeys := List.mem_map_of_mem hmem
  have hkey : m.sortedKeys.idxOf key=index := by
    have hlt' : index < m.sortedKeys.length := by rwa [sortedKeys,List.length_map]
    have hidx := List.Nodup.idxOf_getElem hnod index hlt'
    simpa only [sortedKeys,List.getElem_map,hget] using hidx
  have hlea : (m.leafHashes sha256)[index]? =
      some (hashToString sha256 (Utf16.encode key++contentHash.bytes)).text := by
    rw [leafHashes,List.getElem?_map,hind,Option.map_some]
  refine ⟨⟨_,proofPath sha256 index (m.leafHashes sha256),m.computeMerkleRoot sha256⟩,?_,?_,rfl,rfl⟩
  · rw [generateMerkleProof,if_pos hhas,hkey]
    dsimp only
    rw [hlea,Option.map_some]
  · cases htre : m.buildMerkleTree with
    | none =>
      rw [entries_of_buildMerkleTree_none htre] at h
      cases h
    | some tree =>
      have hnoe : (m.sortedEntries.map fun entry => MerkleNode.leaf entry.1 entry.2)[index]? =
          some (.leaf key contentHash) := by rw [List.getElem?_map,hind,Option.map_some]
      have hpat := proofPath_follows sha256 htre hnoe
      rw [List.map_map] at hpat
      rw [verifyMerkleProof,decide_eq_true_eq,computeMerkleRoot_of_tree sha256 htre]
      exact hpat

end HashMap

end Proof

theorem generateMerkleProof_verifies_pairMap :
    ([97],zeroText)∈pairMap.entries ∧
      ∃ proof, pairMap.generateMerkleProof frontDigest [97]=some proof ∧
        verifyMerkleProof frontDigest proof=true ∧ proof.root=pairMap.computeMerkleRoot frontDigest ∧
        proof.leaf=(hashToString frontDigest (Utf16.encode [97]++zeroText.bytes)).text :=
  ⟨List.mem_cons_self,pairMap.generateMerkleProof_verifies frontDigest List.mem_cons_self⟩

end CastleWall.Cognitive
