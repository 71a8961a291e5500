import Mathlib.Data.List.Nodup

/-! # Maps in order of insertion

A map from keys to values that is iterated in the order its keys were first written, as a `Map` of the language
is: writing a key that is there keeps its place. -/

namespace CastleWall

structure OrderedMap (κ ν : Type) where
  entries : List (κ × ν)
  nodup : (entries.map Prod.fst).Nodup

namespace OrderedMap

variable {κ ν : Type}

def empty : OrderedMap κ ν := ⟨[],List.nodup_nil⟩

def mapValues (m : OrderedMap κ ν) (f : κ → ν → ν) : OrderedMap κ ν where
  entries := m.entries.map fun entry => (entry.1,f entry.1 entry.2)
  nodup := by
    rw [List.map_map]
    exact m.nodup

def filter (m : OrderedMap κ ν) (keep : κ → ν → Bool) : OrderedMap κ ν where
  entries := m.entries.filter fun entry => keep entry.1 entry.2
  nodup := (List.filter_sublist.map Prod.fst).nodup m.nodup

/-- Without the `count` oldest entries. -/
def drop (m : OrderedMap κ ν) (count : Nat) : OrderedMap κ ν where
  entries := m.entries.drop count
  nodup := ((List.drop_sublist count m.entries).map Prod.fst).nodup m.nodup

theorem ext_entries {a b : OrderedMap κ ν} (h : a.entries=b.entries) : a=b := by
  cases a
  cases b
  cases h
  rfl

variable [DecidableEq κ]

def get (m : OrderedMap κ ν) (key : κ) : Option ν := m.entries.lookup key

/-- The value under a key is replaced; a key that is not there is left out. -/
def modify (m : OrderedMap κ ν) (key : κ) (f : ν → ν) : OrderedMap κ ν :=
  m.mapValues fun k v => if k=key then f v else v

def set (m : OrderedMap κ ν) (key : κ) (value : ν) : OrderedMap κ ν :=
  if h : key∈m.entries.map Prod.fst then m.modify key fun _ => value
  else
    { entries := m.entries++[(key,value)]
      nodup := by
        rw [List.map_append,List.nodup_append]
        refine ⟨m.nodup,List.nodup_singleton key,?_⟩
        intro a ha b hb hab
        rw [List.map_singleton,List.mem_singleton] at hb
        subst hb hab
        exact h ha }

def erase (m : OrderedMap κ ν) (key : κ) : OrderedMap κ ν := m.filter fun k _ => decide (k≠key)

theorem lookup_map_value (entries : List (κ × ν)) (f : κ → ν → ν) (key : κ) :
    (entries.map fun entry => (entry.1,f entry.1 entry.2)).lookup key=(entries.lookup key).map (f key) := by
  induction entries with
  | nil => rfl
  | cons entry rest ih =>
    obtain ⟨k,v⟩ := entry
    by_cases hk : key=k
    · subst hk
      simp
    · have hne : (key == k)=false := by simpa using hk
      simpa [List.lookup_cons,hne] using ih

theorem get_mapValues (m : OrderedMap κ ν) (f : κ → ν → ν) (key : κ) :
    (m.mapValues f).get key=(m.get key).map (f key) := lookup_map_value m.entries f key

theorem get_modify (m : OrderedMap κ ν) (key : κ) (f : ν → ν) (other : κ) :
    (m.modify key f).get other=if other=key then (m.get other).map f else m.get other := by
  rw [modify,get_mapValues]
  by_cases h : other=key
  · simp [h]
  · simp [h]

theorem get_eq_none_iff (m : OrderedMap κ ν) (key : κ) :
    m.get key=none ↔ key∉m.entries.map Prod.fst := by
  rw [get,List.lookup_eq_none_iff,List.mem_map,not_exists]
  refine forall_congr' fun entry => ?_
  rw [not_and,bne_iff_ne]
  refine imp_congr_right fun _ => ?_
  exact not_congr eq_comm

theorem get_set (m : OrderedMap κ ν) (key : κ) (value : ν) (other : κ) :
    (m.set key value).get other=if other=key then some value else m.get other := by
  unfold set
  split
  case isTrue h =>
    rw [get_modify]
    by_cases hk : other=key
    · subst hk
      rw [if_pos rfl,if_pos rfl]
      cases hv : m.get other with
      | none => exact absurd h ((get_eq_none_iff m other).mp hv)
      | some v => rfl
    · rw [if_neg hk,if_neg hk]
  case isFalse h =>
    have hnone := (get_eq_none_iff m key).mpr h
    simp only [get,List.lookup_append] at hnone ⊢
    by_cases hk : other=key
    · subst hk
      rw [hnone,if_pos rfl]
      simp
    · have hne : (other == key)=false := by simpa using hk
      rw [if_neg hk,List.lookup_cons,hne]
      simp

@[simp] theorem get_set_self (m : OrderedMap κ ν) (key : κ) (value : ν) :
    (m.set key value).get key=some value := by
  rw [get_set,if_pos rfl]

variable {key : κ}

theorem get_set_ne (m : OrderedMap κ ν) {other : κ} (value : ν) (h : other≠key) :
    (m.set key value).get other=m.get other := by
  rw [get_set,if_neg h]

variable {m : OrderedMap κ ν}

theorem get_of_mem {entry : κ × ν} (h : entry∈m.entries) : m.get entry.1=some entry.2 := by
  obtain ⟨entries,nodup⟩ := m
  change entries.lookup entry.1=some entry.2
  induction entries with
  | nil => cases h
  | cons first rest ih =>
    rw [List.map_cons,List.nodup_cons] at nodup
    rcases List.mem_cons.mp h with rfl | hres
    · rw [List.lookup_cons,beq_self_eq_true]
    · have hne : (entry.1 == first.1)=false :=
        beq_eq_false_iff_ne.mpr fun heq => nodup.1 (heq ▸ List.mem_map_of_mem hres)
      rw [List.lookup_cons,hne]
      exact ih nodup.2 hres

variable {value : ν}

theorem mem_of_get (h : m.get key=some value) :
    (key,value)∈m.entries := by
  obtain ⟨before,after,hent,-⟩ := List.lookup_eq_some_iff.mp h
  rw [hent]
  exact List.mem_append_right _ List.mem_cons_self

theorem get_filter_eq_some {keep : κ → ν → Bool} :
    (m.filter keep).get key=some value ↔ m.get key=some value ∧ keep key value=true := by
  constructor
  · intro h
    have hmem := List.mem_filter.mp (mem_of_get h)
    exact ⟨get_of_mem hmem.1,hmem.2⟩
  · rintro ⟨h,hkee⟩
    exact @get_of_mem κ ν _ (m.filter keep) (key,value) (List.mem_filter.mpr ⟨mem_of_get h,hkee⟩)

theorem get_erase (m : OrderedMap κ ν) (key other : κ) :
    (m.erase key).get other=if other=key then none else m.get other := by
  apply Option.ext
  intro value
  rw [erase,get_filter_eq_some]
  by_cases h : other=key
  · simp [h]
  · simp [h]

theorem entries_set_of_none (h : m.get key=none) (value : ν) :
    (m.set key value).entries=m.entries++[(key,value)] := by
  rw [set,dif_neg ((get_eq_none_iff m key).mp h)]

theorem length_set_of_some {old : ν} (h : m.get key=some old) (value : ν) :
    (m.set key value).entries.length=m.entries.length := by
  have hkey : key∈m.entries.map Prod.fst := List.mem_map_of_mem (mem_of_get h)
  rw [set,dif_pos hkey]
  exact List.length_map _

theorem length_erase_lt {old : ν} (h : m.get key=some old) :
    (m.erase key).entries.length < m.entries.length := by
  apply List.length_filter_lt_length_iff_exists.mpr
  exact ⟨(key,old),mem_of_get h,by simp⟩

theorem set_of_get (h : m.get key=some value) : m.set key value=m := by
  have hkey : key∈m.entries.map Prod.fst := by
    by_contra hnone
    rw [(get_eq_none_iff m key).mpr hnone] at h
    cases h
  rw [set,dif_pos hkey]
  apply ext_entries
  change (m.entries.map fun entry => (entry.1,if entry.1=key then value else entry.2))=m.entries
  conv_rhs => rw [← List.map_id m.entries]
  apply List.map_congr_left
  intro entry hent
  by_cases hent' : entry.1=key
  · have hget := get_of_mem hent
    rw [hent',h] at hget
    rw [if_pos hent',Option.some.inj hget]
    rfl
  · rw [if_neg hent']
    rfl

/-- The entries of `next` are written over those of `base`, each combined with what is there. -/
def mergeOver (base : OrderedMap κ ν) (combine : Option ν → ν → ν) (next : OrderedMap κ ν) : OrderedMap κ ν :=
  next.entries.foldl (fun m entry => m.set entry.1 (combine (m.get entry.1) entry.2)) base

end OrderedMap

end CastleWall
