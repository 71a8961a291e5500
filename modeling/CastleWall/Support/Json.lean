import CastleWall.Support.Text
import Mathlib.Data.List.Sort
import Mathlib.Data.String.Basic
import Mathlib.Algebra.GroupWithZero.Nat
import Mathlib.Algebra.Group.Int.Defs

/-! # JSON values

Values with integer numbers; objects are maps held as fields in key order. -/

namespace CastleWall

inductive Json where
  | null
  | bool (b : Bool)
  | num (n : Int)
  | str (s : String)
  | arr (items : List Json)
  | obj (fields : List (String × Json))

namespace Json

section Fields

variable {α : Type}

def insertField (key : String) (value : α) : List (String × α) → List (String × α)
  | [] => [(key,value)]
  | field::fields =>
    if key=field.1 then (key,value)::fields
    else if key.toList < field.1.toList then (key,value)::field::fields
    else field::insertField key value fields

def ofFields (fields : List (String × α)) : List (String × α) :=
  fields.foldl (fun acc field => insertField field.1 field.2 acc) []

def KeysSorted (fields : List (String × α)) : Prop :=
  fields.Pairwise fun a b => a.1.toList < b.1.toList

instance (fields : List (String × α)) : Decidable (KeysSorted fields) :=
  inferInstanceAs (Decidable (fields.Pairwise fun a b => a.1.toList < b.1.toList))

variable {fields : List (String × α)}

theorem keysSorted_iff_keys :
    KeysSorted fields ↔ (fields.map Prod.fst).Pairwise fun a b => a.toList < b.toList := by
  rw [KeysSorted,List.pairwise_map]

theorem mem_keys_insertField {key k : String} {value : α}
    (h : k∈(insertField key value fields).map Prod.fst) :
    k=key ∨ k∈fields.map Prod.fst := by
  induction fields with
  | nil => simpa [insertField] using h
  | cons field fields ih =>
    unfold insertField at h
    split_ifs at h with heq hlt
    · simp only [List.map_cons,List.mem_cons] at h ⊢
      tauto
    · simpa using h
    · simp only [List.map_cons,List.mem_cons] at h ⊢
      rcases h with h | h
      · exact Or.inr (Or.inl h)
      · rcases ih h with h | h
        · exact Or.inl h
        · exact Or.inr (Or.inr h)

theorem keysSorted_insertField (key : String) (value : α)
    (h : KeysSorted fields) : KeysSorted (insertField key value fields) := by
  induction fields with
  | nil => exact List.pairwise_singleton _ _
  | cons field fields ih =>
    obtain ⟨hhea,htai⟩ := List.pairwise_cons.mp h
    unfold insertField
    split_ifs with heq hlt
    · refine List.pairwise_cons.mpr ⟨fun b hb => ?_,htai⟩
      rw [heq]
      exact hhea b hb
    · refine List.pairwise_cons.mpr ⟨fun b hb => ?_,h⟩
      rcases List.mem_cons.mp hb with rfl | hb
      · exact hlt
      · exact lt_trans hlt (hhea b hb)
    · refine List.pairwise_cons.mpr ⟨fun b hb => ?_,ih htai⟩
      rcases mem_keys_insertField (List.mem_map_of_mem hb) with hk | hk
      · rw [hk]
        exact lt_of_le_of_ne (not_lt.mp hlt) fun h => heq (String.toList_inj.mp h.symm)
      · obtain ⟨b',hb',hk⟩ := List.mem_map.mp hk
        rw [← hk]
        exact hhea b' hb'

theorem insertField_perm (key : String) (value : α)
    (h : key∉fields.map Prod.fst) : (insertField key value fields).Perm ((key,value)::fields) := by
  induction fields with
  | nil => exact List.Perm.refl _
  | cons field fields ih =>
    simp only [List.map_cons,List.mem_cons,not_or] at h
    unfold insertField
    rw [if_neg h.1]
    split_ifs with hlt
    · exact List.Perm.refl _
    · exact ((ih h.2).cons field).trans (List.Perm.swap _ _ _)

private theorem foldl_insertField (fields : List (String × α)) :
    ∀ acc : List (String × α), KeysSorted acc →
      ((acc++fields).map Prod.fst).Nodup →
      KeysSorted (fields.foldl (fun acc field => insertField field.1 field.2 acc) acc) ∧
        (fields.foldl (fun acc field => insertField field.1 field.2 acc) acc).Perm
          (acc++fields) := by
  induction fields with
  | nil =>
    intro acc hacc _
    rw [List.append_nil]
    exact ⟨hacc,List.Perm.refl acc⟩
  | cons field fields ih =>
    intro acc hacc hnod
    have hfre : field.1∉acc.map Prod.fst := by
      rw [List.map_append,List.map_cons,List.nodup_append] at hnod
      intro hmem
      exact hnod.2.2 _ hmem _ List.mem_cons_self rfl
    have hper : (insertField field.1 field.2 acc++fields).Perm (acc++field::fields) :=
      ((insertField_perm field.1 field.2 hfre).append_right fields).trans
        List.perm_middle.symm
    obtain ⟨hsor,hfin⟩ := ih _ (keysSorted_insertField field.1 field.2 hacc)
      ((hper.map Prod.fst).nodup_iff.mpr hnod)
    exact ⟨hsor,hfin.trans hper⟩

theorem KeysSorted.nodup (h : KeysSorted fields) :
    (fields.map Prod.fst).Nodup := by
  rw [List.Nodup,List.pairwise_map]
  exact h.imp fun hlt heq => ne_of_lt hlt (congrArg String.toList heq)

theorem ofFields_perm (h : (fields.map Prod.fst).Nodup) :
    (ofFields fields).Perm fields :=
  (foldl_insertField fields [] List.Pairwise.nil h).2

theorem ofFields_of_perm {written : List (String × α)} (h : KeysSorted fields)
    (hper : written.Perm fields) : ofFields written=fields := by
  have hnod : ((([] : List (String × α))++written).map Prod.fst).Nodup :=
    (hper.map Prod.fst).nodup_iff.mpr h.nodup
  obtain ⟨hsor,hfin⟩ := foldl_insertField written [] List.Pairwise.nil hnod
  refine List.Perm.eq_of_pairwise ?_ hsor h (hfin.trans hper)
  intro a b _ _ hab hba
  exact absurd (lt_trans hab hba) (lt_irrefl _)

theorem lookup_insertField_self (key : String) (value : α) (fields : List (String × α)) :
    (insertField key value fields).lookup key=some value := by
  induction fields with
  | nil => simp [insertField]
  | cons field fields ih =>
    unfold insertField
    split_ifs with heq hlt
    · simp [List.lookup_cons]
    · simp [List.lookup_cons]
    · have hbeq : (key == field.1)=false := by simpa using heq
      rw [List.lookup_cons,hbeq]
      exact ih

theorem lookup_insertField_ne {key k : String} (hne : k≠key) (value : α)
    (fields : List (String × α)) :
    (insertField key value fields).lookup k=fields.lookup k := by
  have hbeq : (k == key)=false := by simpa using hne
  induction fields with
  | nil => simp [insertField,List.lookup_cons,hbeq]
  | cons field fields ih =>
    unfold insertField
    split_ifs with heq hlt
    · rw [List.lookup_cons,List.lookup_cons,← heq,hbeq]
    · rw [List.lookup_cons,hbeq]
    · rw [List.lookup_cons,List.lookup_cons,ih]

theorem lookup_ofFields (h : (fields.map Prod.fst).Nodup) (key : String) :
    (ofFields fields).lookup key=fields.lookup key := by
  have hfol : ∀ (fields acc : List (String × α)), (fields.map Prod.fst).Nodup →
      (fields.foldl (fun acc field => insertField field.1 field.2 acc) acc).lookup key =
        (fields.lookup key).or (acc.lookup key) := by
    intro fields
    induction fields with
    | nil => exact fun acc _ => rfl
    | cons field fields ih =>
      intro acc hnod
      obtain ⟨hfre,htai⟩ := List.nodup_cons.mp hnod
      rw [List.foldl_cons,ih _ htai,List.lookup_cons]
      by_cases hkey : key=field.1
      · subst hkey
        have hnone : fields.lookup field.1=none := by
          rw [List.lookup_eq_none_iff]
          intro f hf
          simpa using fun heq : field.1=f.1 => hfre (heq ▸ List.mem_map_of_mem hf)
        simp only [hnone,lookup_insertField_self,Option.none_or,beq_self_eq_true,
          Option.some_or]
      · have hbeq : (key == field.1)=false := by simpa using hkey
        rw [lookup_insertField_ne hkey,hbeq]
  rw [ofFields,hfol fields [] h]
  exact Option.or_none

end Fields

theorem induct {p : Json → Prop} (null : p .null) (bool : ∀ b, p (.bool b)) (num : ∀ n, p (.num n))
    (str : ∀ s, p (.str s)) (arr : ∀ items, (∀ v∈items, p v) → p (.arr items))
    (obj : ∀ fields, (∀ f∈fields, p f.2) → p (.obj fields)) : ∀ v, p v := by
  intro v
  refine @Json.rec p (fun items => ∀ v∈items, p v) (fun fields => ∀ f∈fields, p f.2)
    (fun f => p f.2) null bool num str arr obj (by simp) ?_ (by simp) ?_ (fun _ _ h => h) v
  · intro item items hitm hite
    exact List.forall_mem_cons.mpr ⟨hitm,hite⟩
  · intro field fields hfie hfis
    exact List.forall_mem_cons.mpr ⟨hfie,hfis⟩

mutual

def depth : Json → Nat
  | .arr items => depthItems items+1
  | .obj fields => depthFields fields+1
  | _ => 0

def depthItems : List Json → Nat
  | [] => 0
  | item::items => max item.depth (depthItems items)

def depthFields : List (String × Json) → Nat
  | [] => 0
  | field::fields => max field.2.depth (depthFields fields)

end

mutual

def wellFormed : Json → Bool
  | .num n => decide (-(2 ^ 63) ≤ n ∧ n < 2 ^ 64)
  | .arr items => wellFormedItems items
  | .obj fields => decide (KeysSorted fields) && wellFormedFields fields
  | _ => true

def wellFormedItems : List Json → Bool
  | [] => true
  | item::items => item.wellFormed && wellFormedItems items

def wellFormedFields : List (String × Json) → Bool
  | [] => true
  | field::fields => field.2.wellFormed && wellFormedFields fields

end

theorem wellFormed_arr {items : List Json} (h : wellFormed (.arr items)=true) :
    ∀ v∈items, v.wellFormed=true := by
  unfold wellFormed at h
  induction items with
  | nil => simp
  | cons item items ih =>
    rw [wellFormedItems,Bool.and_eq_true] at h
    exact List.forall_mem_cons.mpr ⟨h.1,ih h.2⟩

variable {fields : List (String × Json)}

theorem wellFormedFields_iff :
    wellFormedFields fields=true ↔ ∀ f∈fields, f.2.wellFormed=true := by
  induction fields with
  | nil => simp [wellFormedFields]
  | cons field fields ih => rw [wellFormedFields,Bool.and_eq_true,ih,List.forall_mem_cons]

theorem wellFormed_obj :
    wellFormed (.obj fields)=true ↔
      KeysSorted fields ∧ ∀ f∈fields, f.2.wellFormed=true := by
  rw [wellFormed,Bool.and_eq_true,decide_eq_true_iff,wellFormedFields_iff]

inductive Ordered : Json → Prop
  | null : Ordered .null
  | bool (b : Bool) : Ordered (.bool b)
  | num (n : Int) : Ordered (.num n)
  | str (s : String) : Ordered (.str s)
  | arr {items : List Json} (hitems : ∀ v∈items, Ordered v) : Ordered (.arr items)
  | obj {fields : List (String × Json)} (hsorted : KeysSorted fields)
    (hfields : ∀ f∈fields, Ordered f.2) : Ordered (.obj fields)

theorem ordered_of_wellFormed {v : Json} (h : v.wellFormed=true) : Ordered v := by
  induction v using induct with
  | null => exact .null
  | bool b => exact .bool b
  | num n => exact .num n
  | str s => exact .str s
  | arr items ih => exact .arr fun v hv => ih v hv (wellFormed_arr h v hv)
  | obj fields ih =>
    obtain ⟨hsor,hfie⟩ := wellFormed_obj.mp h
    exact .obj hsor fun f hf => ih f hf (hfie f hf)

variable {d : Nat}

theorem depthFields_le_iff :
    depthFields fields ≤ d ↔ ∀ f∈fields, f.2.depth ≤ d := by
  induction fields with
  | nil => simp [depthFields]
  | cons field fields ih => rw [depthFields,max_le_iff,ih,List.forall_mem_cons]

theorem mem_insertField {α : Type} {key : String} {value : α} {fields : List (String × α)}
    {f : String × α} (h : f∈insertField key value fields) : f=(key,value) ∨ f∈fields := by
  induction fields with
  | nil => simpa [insertField] using h
  | cons field fields ih =>
    unfold insertField at h
    split_ifs at h with heq hlt
    · rcases List.mem_cons.mp h with h | h
      · exact Or.inl h
      · exact Or.inr (List.mem_cons_of_mem _ h)
    · exact (List.mem_cons.mp h).imp_right id
    · rcases List.mem_cons.mp h with h | h
      · exact Or.inr (h ▸ List.mem_cons_self)
      · exact (ih h).imp_right (List.mem_cons_of_mem _)

theorem wellFormed_insertField (key : String) {value : Json}
    (hfie : wellFormed (.obj fields)=true) (hval : value.wellFormed=true) :
    wellFormed (.obj (insertField key value fields))=true := by
  rw [wellFormed_obj] at hfie ⊢
  refine ⟨keysSorted_insertField key value hfie.1,?_⟩
  intro f hf
  rcases mem_insertField hf with rfl | hf
  · exact hval
  · exact hfie.2 f hf

theorem depth_insertField (key : String) {value : Json}
    (hfie : depthFields fields ≤ d) (hval : value.depth ≤ d) :
    depthFields (insertField key value fields) ≤ d := by
  rw [depthFields_le_iff] at hfie ⊢
  intro f hf
  rcases mem_insertField hf with rfl | hf
  · exact hval
  · exact hfie f hf

theorem mem_ofFields {α : Type} {fields : List (String × α)} {f : String × α} (h : f∈ofFields fields) :
    f∈fields := by
  have hfol : ∀ fields acc : List (String × α),
      f∈fields.foldl (fun acc field => insertField field.1 field.2 acc) acc → f∈acc ∨ f∈fields := by
    intro fields
    induction fields with
    | nil => exact fun acc hmem => Or.inl hmem
    | cons field fields ih =>
      intro acc hmem
      rcases ih _ hmem with hacc | htai
      · rcases mem_insertField hacc with rfl | hacc
        · exact Or.inr List.mem_cons_self
        · exact Or.inl hacc
      · exact Or.inr (List.mem_cons_of_mem field htai)
  exact (hfol fields [] h).resolve_left List.not_mem_nil

theorem keysSorted_ofFields {α : Type} (fields : List (String × α)) : KeysSorted (ofFields fields) := by
  have hfol : ∀ fields acc : List (String × α), KeysSorted acc →
      KeysSorted (fields.foldl (fun acc field => insertField field.1 field.2 acc) acc) := by
    intro fields
    induction fields with
    | nil => exact fun acc hacc => hacc
    | cons field fields ih => exact fun acc hacc => ih _ (keysSorted_insertField field.1 field.2 hacc)
  exact hfol fields [] List.Pairwise.nil

theorem wellFormed_ofFields (h : ∀ f∈fields, f.2.wellFormed=true) :
    wellFormed (.obj (ofFields fields))=true :=
  wellFormed_obj.mpr ⟨keysSorted_ofFields fields,fun f hf => h f (mem_ofFields hf)⟩

theorem depth_ofFields (h : ∀ f∈fields, f.2.depth ≤ d) :
    depthFields (ofFields fields) ≤ d :=
  depthFields_le_iff.mpr fun f hf => h f (mem_ofFields hf)

end Json

end CastleWall
