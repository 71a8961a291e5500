import CastleWall.Support.Utf16
import Mathlib.Data.List.Sort

/-! # The namespace Merkle tree

`buildMerkleTree` and `computeMerkleRoot` of `core/hashing.ts`. Leaves and inner nodes are hashed from
plain concatenations, so a leaf whose key is spelled as a digest stands for a pair of children. -/

namespace CastleWall.Cognitive

@[ext]
structure Digest where
  bytes : List UInt8
  length_eq : bytes.length=32

@[ext]
structure HashText where
  text : List UInt16
  length_eq : text.length=43
  url : ∀ u∈text, ∃ c∈Base64.urlAlphabet, u.toNat=c.toNat

theorem ascii_urlAlphabet {c : Char} (h : c∈Base64.urlAlphabet) : c.toNat < 128 := by
  have hall : Base64.urlChars.all (fun c => c.toNat < 128)=true := by decide
  rw [Base64.urlAlphabet_eq] at h
  exact of_decide_eq_true (List.all_eq_true.mp hall c h)

namespace HashText

/-- `stringToBytes`. -/
def bytes (h : HashText) : List UInt8 := Utf16.encode h.text

theorem ascii (h : HashText) : ∀ u∈h.text, u.toNat < 128 := by
  intro u hu
  obtain ⟨c,hc,heq⟩ := h.url u hu
  rw [heq]
  exact ascii_urlAlphabet hc

theorem length_bytes (h : HashText) : h.bytes.length=43 := by
  rw [bytes,Utf16.encode_ascii h.ascii,List.length_map,h.length_eq]

theorem bytes_injective {a b : HashText} (h : a.bytes=b.bytes) : a=b := by
  apply HashText.ext
  exact Utf16.encode_ascii_injective a.ascii b.ascii h

end HashText

theorem ascii_encodeUrl (bytes : List UInt8) :
    ∀ c∈Base64.encodeUrl bytes, c∈Base64.urlAlphabet ∧ c.toNat < 128 := by
  refine Base64.forall_encodeUrl (List.all_eq_true.mpr fun c hc => decide_eq_true ?_) bytes
  rw [← Base64.urlAlphabet_eq] at hc
  exact ⟨hc,ascii_urlAlphabet hc⟩

theorem toNat_ofAscii {c : Char} (h : c.toNat < 128) : (UInt16.ofNat c.toNat).toNat=c.toNat := by
  rw [UInt16.toNat_ofNat']
  omega

def toBase64url (d : Digest) : HashText where
  text := Utf16.ofAscii (Base64.encodeUrl d.bytes)
  length_eq := by rw [Utf16.ofAscii,List.length_map,Base64.length_encodeUrl,d.length_eq]
  url := by
    intro u hu
    obtain ⟨c,hc,rfl⟩ := List.mem_map.mp hu
    obtain ⟨hmem,hlt⟩ := ascii_encodeUrl d.bytes c hc
    exact ⟨c,hmem,toNat_ofAscii hlt⟩

theorem toBase64url_injective {a b : Digest} (h : toBase64url a=toBase64url b) : a=b := by
  have htex : Utf16.ofAscii (Base64.encodeUrl a.bytes)=Utf16.ofAscii (Base64.encodeUrl b.bytes) :=
    congrArg HashText.text h
  have hurl := Utf16.ofAscii_injective (fun c hc => (ascii_encodeUrl _ c hc).2)
    (fun c hc => (ascii_encodeUrl _ c hc).2) htex
  have hbyt := congrArg Base64.decodeUrl hurl
  rw [Base64.decodeUrl_encodeUrl,Base64.decodeUrl_encodeUrl] at hbyt
  cases a
  cases b
  cases hbyt
  rfl

structure HashMap where
  entries : List (List UInt16 × HashText)
  nodup : (entries.map Prod.fst).Nodup

/-- The order `sort` gives strings. -/
def keyLe (a b : List UInt16 × HashText) : Prop := a.1.map UInt16.toNat ≤ b.1.map UInt16.toNat

instance : DecidableRel keyLe := fun a b =>
  inferInstanceAs (Decidable (a.1.map UInt16.toNat ≤ b.1.map UInt16.toNat))

instance : Std.Total keyLe := ⟨fun _ _ => le_total _ _⟩

instance : IsTrans (List UInt16 × HashText) keyLe := ⟨fun _ _ _ => le_trans⟩

theorem key_eq_of_keyLe {a b : List UInt16 × HashText} (hab : keyLe a b) (hba : keyLe b a) :
    a.1=b.1 := by
  apply List.map_injective_iff.mpr (fun _ _ => UInt16.toNat_inj.mp)
  exact le_antisymm hab hba

inductive MerkleNode where
  | leaf (key : List UInt16) (contentHash : HashText)
  | parent (left right : MerkleNode)

def nextLevel : List MerkleNode → List MerkleNode
  | left::right::rest => .parent left right::nextLevel rest
  | nodes => nodes

theorem length_nextLevel_le (nodes : List MerkleNode) : (nextLevel nodes).length ≤ nodes.length := by
  induction nodes using nextLevel.induct with
  | case1 left right rest ih =>
    rw [nextLevel,List.length_cons,List.length_cons,List.length_cons]
    omega
  | case2 nodes hnod => rw [nextLevel.eq_2 nodes hnod]

def buildLevels (nodes : List MerkleNode) : Option MerkleNode :=
  match nodes with
  | [] => none
  | [node] => some node
  | left::right::rest => buildLevels (nextLevel (left::right::rest))
termination_by nodes.length
decreasing_by
  have hle := length_nextLevel_le rest
  rw [nextLevel,List.length_cons,List.length_cons,List.length_cons]
  omega

namespace HashMap

def sortedEntries (m : HashMap) : List (List UInt16 × HashText) := m.entries.insertionSort keyLe

def buildMerkleTree (m : HashMap) : Option MerkleNode :=
  buildLevels (m.sortedEntries.map fun entry => .leaf entry.1 entry.2)

def Same (m m' : HashMap) : Prop := m.entries.Perm m'.entries

end HashMap

section Hash

variable (sha256 : List UInt8 → Digest)

def hashToString (data : List UInt8) : HashText := toBase64url (sha256 data)

namespace MerkleNode

def hash : MerkleNode → HashText
  | leaf key contentHash => hashToString sha256 (Utf16.encode key++contentHash.bytes)
  | parent left right => hashToString sha256 (left.hash.bytes++right.hash.bytes)

def hashed : MerkleNode → List (List UInt8)
  | leaf key contentHash => [Utf16.encode key++contentHash.bytes]
  | parent left right =>
    ((left.hash sha256).bytes++(right.hash sha256).bytes)::(left.hashed++right.hashed)

end MerkleNode

/-- `""` for the empty map. -/
def HashMap.computeMerkleRoot (m : HashMap) : List UInt16 :=
  match m.buildMerkleTree with
  | none => []
  | some tree => (tree.hash sha256).text

def HashMap.hashed (m : HashMap) : List (List UInt8) :=
  match m.buildMerkleTree with
  | none => []
  | some tree => tree.hashed sha256

namespace MerkleNode

def leaves : MerkleNode → List (List UInt16 × HashText)
  | leaf key contentHash => [(key,contentHash)]
  | parent left right => left.leaves++right.leaves

/-- The trees agree, where a leaf agrees with a pair of children whose digests its key and its content
hash spell. -/
inductive Agree : MerkleNode → MerkleNode → Prop where
  | leaf {key key' : List UInt16} {contentHash : HashText}
      (h : Utf16.encode key=Utf16.encode key') : Agree (leaf key contentHash) (leaf key' contentHash)
  | parent {left right left' right' : MerkleNode} (hleft : Agree left left')
      (hright : Agree right right') : Agree (parent left right) (parent left' right')
  | leafForPair {key : List UInt16} {left right : MerkleNode}
      (h : Utf16.encode key=(left.hash sha256).bytes) :
      Agree (leaf key (right.hash sha256)) (parent left right)
  | pairForLeaf {key : List UInt16} {left right : MerkleNode}
      (h : Utf16.encode key=(left.hash sha256).bytes) :
      Agree (parent left right) (leaf key (right.hash sha256))

/-- The trees agree, and somewhere a leaf stands for a pair of children, or a key for another one with
the same bytes. -/
inductive Spliced : MerkleNode → MerkleNode → Prop where
  | respelled {key key' : List UInt16} {contentHash : HashText} (hne : key≠key')
      (h : Utf16.encode key=Utf16.encode key') : Spliced (leaf key contentHash) (leaf key' contentHash)
  | leafForPair {key : List UInt16} {left right : MerkleNode}
      (h : Utf16.encode key=(left.hash sha256).bytes) :
      Spliced (leaf key (right.hash sha256)) (parent left right)
  | pairForLeaf {key : List UInt16} {left right : MerkleNode}
      (h : Utf16.encode key=(left.hash sha256).bytes) :
      Spliced (parent left right) (leaf key (right.hash sha256))
  | left {left right left' right' : MerkleNode} (hleft : Spliced left left')
      (hright : Agree sha256 right right') : Spliced (parent left right) (parent left' right')
  | right {left right left' right' : MerkleNode} (hleft : Agree sha256 left left')
      (hright : Spliced right right') : Spliced (parent left right) (parent left' right')

variable {sha256} {t t' : MerkleNode}

theorem Agree.hash_eq (h : Agree sha256 t t') : t.hash sha256=t'.hash sha256 := by
  induction h with
  | leaf h => rw [hash,hash,h]
  | parent _ _ ihleft ihright => rw [hash,hash,ihleft,ihright]
  | leafForPair h => rw [hash,hash,h]
  | pairForLeaf h => rw [hash,hash,h]

theorem Spliced.agree (h : Spliced sha256 t t') : Agree sha256 t t' := by
  induction h with
  | respelled _ h => exact .leaf h
  | leafForPair h => exact .leafForPair h
  | pairForLeaf h => exact .pairForLeaf h
  | left _ hrig ih => exact .parent ih hrig
  | right hlef _ ih => exact .parent hlef ih

theorem Spliced.ne (h : Spliced sha256 t t') : t≠t' := by
  induction h with
  | respelled hne _ =>
    intro heq
    exact hne (leaf.inj heq).1
  | leafForPair _ => nofun
  | pairForLeaf _ => nofun
  | left _ _ ih =>
    intro heq
    exact ih (parent.inj heq).1
  | right _ _ ih =>
    intro heq
    exact ih (parent.inj heq).2

theorem Agree.spliced (h : Agree sha256 t t') (hne : t≠t') :
    Spliced sha256 t t' := by
  induction h with
  | @leaf key key' contentHash h =>
    refine .respelled (fun hkey => hne ?_) h
    rw [hkey]
  | @parent left right left' right' hlef hrig ihleft ihright =>
    by_cases heq : left=left'
    · refine .right hlef (ihright fun hrig' => hne ?_)
      rw [heq,hrig']
    · exact .left (ihleft heq) hrig
  | leafForPair h => exact .leafForPair h
  | pairForLeaf h => exact .pairForLeaf h

private theorem append_hashText {a b : List UInt8} {x y : HashText}
    (h : a++x.bytes=b++y.bytes) : a=b ∧ x=y := by
  obtain ⟨hfro,hbac⟩ := List.append_inj' h (by rw [x.length_bytes,y.length_bytes])
  exact ⟨hfro,HashText.bytes_injective hbac⟩

private theorem hashToString_injOn {strings : List (List UInt8)}
    (hinj : ∀ x∈strings, ∀ y∈strings, sha256 x=sha256 y → x=y) {x y : List UInt8}
    (hx : x∈strings) (hy : y∈strings) (h : hashToString sha256 x=hashToString sha256 y) : x=y :=
  hinj x hx y hy (toBase64url_injective h)

theorem agree_of_hash_eq {strings : List (List UInt8)}
    (hinj : ∀ x∈strings, ∀ y∈strings, sha256 x=sha256 y → x=y)
    (ht : t.hashed sha256 ⊆ strings) (ht' : t'.hashed sha256 ⊆ strings)
    (h : t.hash sha256=t'.hash sha256) : Agree sha256 t t' := by
  induction t generalizing t' with
  | leaf key contentHash =>
    cases t' with
    | leaf key' contentHash' =>
      have hdat := hashToString_injOn hinj (ht (List.mem_cons_self ..)) (ht' (List.mem_cons_self ..)) h
      obtain ⟨hkey,rfl⟩ := append_hashText hdat
      exact .leaf hkey
    | parent left right =>
      have hdat := hashToString_injOn hinj (ht (List.mem_cons_self ..)) (ht' (List.mem_cons_self ..)) h
      obtain ⟨hkey,rfl⟩ := append_hashText hdat
      exact .leafForPair hkey
  | parent left right ihleft ihright =>
    cases t' with
    | leaf key contentHash =>
      have hdat := hashToString_injOn hinj (ht (List.mem_cons_self ..)) (ht' (List.mem_cons_self ..)) h
      obtain ⟨hkey,rfl⟩ := append_hashText hdat
      exact .pairForLeaf hkey.symm
    | parent left' right' =>
      have hdat := hashToString_injOn hinj (ht (List.mem_cons_self ..)) (ht' (List.mem_cons_self ..)) h
      obtain ⟨hlef,hrig⟩ := append_hashText hdat
      rw [hashed,List.cons_subset,List.append_subset] at ht ht'
      exact .parent (ihleft ht.2.1 ht'.2.1 (HashText.bytes_injective hlef))
        (ihright ht.2.2 ht'.2.2 hrig)

end MerkleNode

theorem leaves_nextLevel (nodes : List MerkleNode) :
    (nextLevel nodes).flatMap MerkleNode.leaves=nodes.flatMap MerkleNode.leaves := by
  induction nodes using nextLevel.induct with
  | case1 left right rest ih =>
    rw [nextLevel,List.flatMap_cons,ih,List.flatMap_cons,List.flatMap_cons,MerkleNode.leaves,
      List.append_assoc]
  | case2 nodes hnod => rw [nextLevel.eq_2 nodes hnod]

theorem leaves_buildLevels {nodes : List MerkleNode} {tree : MerkleNode}
    (h : buildLevels nodes=some tree) : tree.leaves=nodes.flatMap MerkleNode.leaves := by
  induction nodes using buildLevels.induct with
  | case1 => exact absurd h (by simp [buildLevels])
  | case2 node =>
    rw [buildLevels] at h
    rw [← Option.some.inj h,List.flatMap_singleton]
  | case3 left right rest ih =>
    rw [buildLevels] at h
    rw [ih h,leaves_nextLevel]

theorem buildLevels_eq_none {nodes : List MerkleNode} (h : buildLevels nodes=none) : nodes=[] := by
  induction nodes using buildLevels.induct with
  | case1 => rfl
  | case2 node => exact absurd h (by simp [buildLevels])
  | case3 left right rest ih =>
    rw [buildLevels] at h
    exact absurd (ih h) (by simp [nextLevel])

namespace HashMap

variable {m : HashMap}

theorem leaves_buildMerkleTree {tree : MerkleNode} (h : m.buildMerkleTree=some tree) :
    tree.leaves=m.sortedEntries := by
  rw [leaves_buildLevels h,List.flatMap_map]
  exact List.flatMap_singleton' m.sortedEntries

theorem entries_of_buildMerkleTree_none (h : m.buildMerkleTree=none) :
    m.entries=[] := by
  have hsor := List.map_eq_nil_iff.mp (buildLevels_eq_none h)
  have hper : m.sortedEntries.Perm m.entries := List.perm_insertionSort _ _
  rw [hsor] at hper
  exact hper.symm.eq_nil

theorem same_iff_sortedEntries {m' : HashMap} : m.Same m' ↔ m.sortedEntries=m'.sortedEntries := by
  have hper : ∀ m : HashMap, m.sortedEntries.Perm m.entries := fun m => List.perm_insertionSort _ _
  constructor
  · intro h
    refine List.Perm.eq_of_pairwise ?_ (List.pairwise_insertionSort _ _)
      (List.pairwise_insertionSort _ _) (((hper m).trans h).trans (hper m').symm)
    intro a b ha hb hab hba
    have ha' : a∈m'.entries := ((hper m).trans h).mem_iff.mp ha
    have hb' : b∈m'.entries := (hper m').mem_iff.mp hb
    exact List.inj_on_of_nodup_map m'.nodup ha' hb' (key_eq_of_keyLe hab hba)
  · intro h
    have hm := (hper m).symm
    rw [h] at hm
    exact hm.trans (hper m')

/-- The trees of two maps agree, and one has a leaf where the other has a pair, or a key that is
another one in the same bytes. -/
def Spliced (m m' : HashMap) : Prop :=
  ∃ tree tree', m.buildMerkleTree=some tree ∧ m'.buildMerkleTree=some tree' ∧
    MerkleNode.Spliced sha256 tree tree'

theorem same_iff_tree {m' : HashMap} {tree tree' : MerkleNode} (h : m.buildMerkleTree=some tree)
    (h' : m'.buildMerkleTree=some tree') : m.Same m' ↔ tree=tree' := by
  rw [same_iff_sortedEntries]
  constructor
  · intro hsor
    rw [buildMerkleTree,hsor] at h
    exact Option.some.inj (h.symm.trans h')
  · intro htre
    rw [← leaves_buildMerkleTree h,htre,leaves_buildMerkleTree h']

end HashMap

namespace MerkleNode

variable {sha256}

end MerkleNode

end Hash

def frontDigest (data : List UInt8) : Digest :=
  ⟨(data++List.replicate 32 0).take 32,by simp⟩

def zeroText : HashText := toBase64url (frontDigest [])

def pairMap : HashMap := ⟨[([97],zeroText),([98],zeroText)],by decide⟩

def oneMap (u : UInt16) : HashMap := ⟨[([u],zeroText)],List.nodup_singleton _⟩

/-- One entry, from the digest of the first leaf of `pairMap` to that of the second. -/
def digestMap : HashMap :=
  ⟨[(((MerkleNode.leaf [97] zeroText).hash frontDigest).text,
    (MerkleNode.leaf [98] zeroText).hash frontDigest)],List.nodup_singleton _⟩

end CastleWall.Cognitive
