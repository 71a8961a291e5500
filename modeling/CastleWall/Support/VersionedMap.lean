import CastleWall.Support.OrderedMap
import Mathlib.Order.WithBot

/-! # Maps that keep the newest entry of each key

Entries know their key and their version, and an entry is written where its version is above the one held. The
version held under a key is then the join of all that were offered, and where a version names one entry the order
in which entries are offered does not show. -/

namespace CastleWall.VersionedMap

variable {κ ν ω : Type} [DecidableEq κ] [LinearOrder ω] (keyOf : ν → κ) (version : ν → ω)

def keepNewer (m : OrderedMap κ ν) (entry : ν) : OrderedMap κ ν :=
  match m.get (keyOf entry) with
  | some held => if version entry ≤ version held then m else m.set (keyOf entry) entry
  | none => m.set (keyOf entry) entry

def rank (m : OrderedMap κ ν) (key : κ) : WithBot ω := (m.get key).elim ⊥ fun held => ↑(version held)

/-- The entry under a key among what was held and what is offered: none is newer, and what was held stays among
equals. -/
structure Newest (m : OrderedMap κ ν) (offered : List ν) (key : κ) (entry : ν) : Prop where
  among : m.get key=some entry ∨ entry∈offered ∧ keyOf entry=key
  held : ∀ old, m.get key=some old → version old ≤ version entry ∧ (version old=version entry → old=entry)
  offered : ∀ other∈offered, keyOf other=key → version other ≤ version entry

section Single

variable {keyOf version} {m : OrderedMap κ ν} {entry : ν}

omit [LinearOrder ω] in
theorem rank_of_get {key : κ} {held : ν} (h : m.get key=some held) : rank version m key=version held := by
  rw [rank,h]
  rfl

theorem get_keepNewer_ne {key : κ} (h : key≠keyOf entry) : (keepNewer keyOf version m entry).get key=m.get key := by
  unfold keepNewer
  cases hhel : m.get (keyOf entry) with
  | none => exact OrderedMap.get_set_ne m entry h
  | some held =>
    by_cases hle : version entry ≤ version held
    · simp only [if_pos hle]
    · simp only [if_neg hle]
      exact OrderedMap.get_set_ne m entry h

/-- The entry is written, or one that is no older was held and stays. -/
theorem get_keepNewer_self (keyOf : ν → κ) (version : ν → ω) (m : OrderedMap κ ν) (entry : ν) :
    ((keepNewer keyOf version m entry).get (keyOf entry)=some entry ∧
        ∀ held, m.get (keyOf entry)=some held → version held < version entry) ∨
      ∃ held, m.get (keyOf entry)=some held ∧ version entry ≤ version held ∧
        keepNewer keyOf version m entry=m := by
  unfold keepNewer
  cases hhel : m.get (keyOf entry) with
  | none => exact .inl ⟨OrderedMap.get_set_self m _ entry,by simp⟩
  | some held =>
    by_cases hle : version entry ≤ version held
    · exact .inr ⟨held,rfl,hle,if_pos hle⟩
    · simp only [if_neg hle]
      refine .inl ⟨OrderedMap.get_set_self m _ entry,fun old hold => ?_⟩
      cases hold
      exact lt_of_not_ge hle

theorem rank_keepNewer (key : κ) :
    rank version (keepNewer keyOf version m entry) key =
      if key=keyOf entry then max (rank version m key) (version entry) else rank version m key := by
  by_cases hkey : key=keyOf entry
  · subst hkey
    rw [if_pos rfl]
    rcases get_keepNewer_self keyOf version m entry with
      ⟨hget,hbel⟩ | ⟨held,hhel,hle,hsam⟩
    · rw [rank_of_get hget]
      refine (max_eq_right ?_).symm
      cases hhel : m.get (keyOf entry) with
      | none => simp [rank,hhel]
      | some held =>
        rw [rank_of_get hhel]
        exact WithBot.coe_le_coe.mpr (hbel held hhel).le
    · rw [hsam,rank_of_get hhel]
      exact (max_eq_left (WithBot.coe_le_coe.mpr hle)).symm
  · rw [if_neg hkey,rank,rank,get_keepNewer_ne hkey]

theorem rank_le_keepNewer (key : κ) : rank version m key ≤ rank version (keepNewer keyOf version m entry) key := by
  rw [rank_keepNewer]
  by_cases hkey : key=keyOf entry
  · rw [if_pos hkey]
    exact le_max_left _ _
  · rw [if_neg hkey]

end Single

section Fold

variable {keyOf version} {m : OrderedMap κ ν} {offered : List ν}

theorem rank_le_foldl (key : κ) : rank version m key ≤ rank version (offered.foldl (keepNewer keyOf version) m) key := by
  induction offered generalizing m with
  | nil => exact le_rfl
  | cons entry rest ih => exact (rank_le_keepNewer key).trans ih

theorem version_le_rank_foldl {entry : ν} (h : entry∈offered) :
    (version entry : WithBot ω) ≤ rank version (offered.foldl (keepNewer keyOf version) m) (keyOf entry) := by
  induction offered generalizing m with
  | nil => cases h
  | cons first rest ih =>
    rcases List.mem_cons.mp h with rfl | hres
    · have hfir : (version entry : WithBot ω) ≤ rank version (keepNewer keyOf version m entry) (keyOf entry) := by
        rw [rank_keepNewer,if_pos rfl]
        exact le_max_right _ _
      exact hfir.trans (rank_le_foldl (keyOf entry))
    · exact ih hres

variable {key : κ}

/-- Nothing is under a key only where nothing was held and nothing offered has it. -/
theorem get_foldl_eq_none (h : (offered.foldl (keepNewer keyOf version) m).get key=none) :
    m.get key=none ∧ ∀ entry∈offered, keyOf entry≠key := by
  have hbot : rank version (offered.foldl (keepNewer keyOf version) m) key = ⊥ := by
    rw [rank,h]
    rfl
  constructor
  · cases hhel : m.get key with
    | none => rfl
    | some held =>
      have hle : rank version m key ≤ ⊥ := hbot ▸ rank_le_foldl key
      rw [rank_of_get hhel,le_bot_iff] at hle
      exact absurd hle WithBot.coe_ne_bot
  · intro entry hmem hkey
    have hle : (version entry : WithBot ω) ≤ ⊥ := hbot ▸ hkey ▸ version_le_rank_foldl hmem
    exact WithBot.coe_ne_bot (le_bot_iff.mp hle)

theorem newest_of_get_foldl {entry : ν}
    (h : (offered.foldl (keepNewer keyOf version) m).get key=some entry) :
    Newest keyOf version m offered key entry := by
  induction offered generalizing m with
  | nil =>
    refine ⟨.inl h,fun old hold => ?_,by simp⟩
    cases hold.symm.trans h
    exact ⟨le_rfl,fun _ => rfl⟩
  | cons first rest ih =>
    have hres := ih h
    by_cases hkey : key=keyOf first
    · subst hkey
      rcases get_keepNewer_self keyOf version m first with
        ⟨hget,hbel⟩ | ⟨held,hhel,hle,hsam⟩
      · -- `first` was written, so it is what the rest was held against
        have hfir := hres.held first hget
        refine ⟨.inr ?_,fun old hold => ?_,?_⟩
        · rcases hres.among with hsom | ⟨hmem,hkef⟩
          · cases hget.symm.trans hsom
            exact ⟨List.mem_cons_self,rfl⟩
          · exact ⟨List.mem_cons_of_mem _ hmem,hkef⟩
        · have hlt := lt_of_lt_of_le (hbel old hold) hfir.1
          exact ⟨hlt.le,fun heq => absurd heq hlt.ne⟩
        · rw [List.forall_mem_cons]
          exact ⟨fun _ => hfir.1,hres.offered⟩
      · rw [hsam] at hres
        refine ⟨hres.among.imp_right fun hmem => ⟨List.mem_cons_of_mem _ hmem.1,hmem.2⟩,hres.held,?_⟩
        rw [List.forall_mem_cons]
        exact ⟨fun _ => hle.trans (hres.held held hhel).1,hres.offered⟩
    · have hget : (keepNewer keyOf version m first).get key=m.get key := get_keepNewer_ne hkey
      refine ⟨?_,fun old hold => hres.held old (hget.trans hold),?_⟩
      · rw [← hget]
        exact hres.among.imp_right fun hmem => ⟨List.mem_cons_of_mem _ hmem.1,hmem.2⟩
      · rw [List.forall_mem_cons]
        exact ⟨fun hfir => absurd hfir.symm hkey,hres.offered⟩

/-- The newest entry is one only, where a version names one entry. -/
theorem Newest.unique {offered' : List ν} {a b : ν} (ha : Newest keyOf version m offered key a)
    (hb : Newest keyOf version m offered' key b) (hsam : ∀ entry, entry∈offered ↔ entry∈offered')
    (hnam : ∀ x∈offered, ∀ y∈offered, keyOf x=keyOf y → version x=version y → x=y) : a=b := by
  rcases ha.among with hhel | ⟨hmem,hkey⟩
  · rcases hb.among with hhel' | ⟨hmem',hkey'⟩
    · exact Option.some.inj (hhel.symm.trans hhel')
    · have hle := ha.offered b ((hsam b).mpr hmem') hkey'
      exact (hb.held a hhel).2 (le_antisymm (hb.held a hhel).1 hle)
  · rcases hb.among with hhel' | ⟨hmem',hkey'⟩
    · have hle := hb.offered a ((hsam a).mp hmem) hkey
      exact ((ha.held b hhel').2 (le_antisymm (ha.held b hhel').1 hle)).symm
    · have hle := ha.offered b ((hsam b).mpr hmem') hkey'
      have hge := hb.offered a ((hsam a).mp hmem) hkey
      exact hnam a hmem b ((hsam b).mpr hmem') (hkey.trans hkey'.symm) (le_antisymm hge hle)

/-- The order of the entries and how often each is offered do not show. -/
theorem get_foldl_congr {offered' : List ν} (hsam : ∀ entry, entry∈offered ↔ entry∈offered')
    (hnam : ∀ x∈offered, ∀ y∈offered, keyOf x=keyOf y → version x=version y → x=y) (key : κ) :
    (offered.foldl (keepNewer keyOf version) m).get key=(offered'.foldl (keepNewer keyOf version) m).get key := by
  cases hlef : (offered.foldl (keepNewer keyOf version) m).get key with
  | none =>
    obtain ⟨hhel,hnone⟩ := get_foldl_eq_none hlef
    cases hrig : (offered'.foldl (keepNewer keyOf version) m).get key with
    | none => rfl
    | some b =>
      rcases (newest_of_get_foldl hrig).among with hsom | ⟨hmem,hkey⟩
      · cases hhel.symm.trans hsom
      · exact absurd hkey (hnone b ((hsam b).mpr hmem))
  | some a =>
    have hnew := newest_of_get_foldl hlef
    cases hrig : (offered'.foldl (keepNewer keyOf version) m).get key with
    | none =>
      obtain ⟨hhel,hnone⟩ := get_foldl_eq_none hrig
      rcases hnew.among with hsom | ⟨hmem,hkey⟩
      · cases hhel.symm.trans hsom
      · exact absurd hkey (hnone a ((hsam a).mp hmem))
    | some b => rw [hnew.unique (newest_of_get_foldl hrig) hsam hnam]

end Fold

end CastleWall.VersionedMap
