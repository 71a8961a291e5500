import CastleWall.Support.Trace
import Mathlib.Data.List.Nodup
import Mathlib.Data.List.Range

/-! # Requests and replies on one connection

A desk numbers the requests it accepts, keeps what each outstanding one expects, and closes at the
first call it refuses. -/

namespace CastleWall.Correlation

inductive Event (ι κ ρ : Type) where
  | issue (id : ι) (expects : κ)
  | settle (id : ι) (reply : ρ)
  | refuse

structure Desk (ι κ : Type) where
  issued : Nat
  pending : List (ι × κ)

section Pending

variable {ι κ : Type}

def remove [DecidableEq ι] (id : ι) (pending : List (ι × κ)) : List (ι × κ) := pending.filter fun p => p.1≠id

def insert [DecidableEq ι] (id : ι) (expects : κ) (pending : List (ι × κ)) : List (ι × κ) :=
  (id,expects)::remove id pending

theorem mem_remove [DecidableEq ι] {id : ι} {pending : List (ι × κ)} {p : ι × κ} :
    p∈remove id pending ↔ p∈pending ∧ p.1≠id := by
  rw [remove,List.mem_filter,decide_eq_true_iff]

theorem length_remove_le [DecidableEq ι] (id : ι) (pending : List (ι × κ)) :
    (remove id pending).length ≤ pending.length := List.length_filter_le _ _

theorem mem_of_lookup [BEq ι] [LawfulBEq ι] {id : ι} {expects : κ} {pending : List (ι × κ)}
    (h : pending.lookup id=some expects) : (id,expects)∈pending := by
  obtain ⟨before,after,hpen,-⟩ := List.lookup_eq_some_iff.mp h
  rw [hpen]
  exact List.mem_append_right _ List.mem_cons_self

end Pending

variable {ι κ ρ : Type} {name : Nat → ι} {answers : κ → ρ → Prop}

def Event.issued : Event ι κ ρ → Option ι
  | issue id _ => some id
  | _ => none

/-- What a call needs of the calls before it: no refusal, and for a reply exactly one request with
its id, which no reply has answered and which it answers. -/
def Needs (answers : κ → ρ → Prop) (past : List (Event ι κ ρ)) : Event ι κ ρ → Prop
  | .issue _ _ => .refuse∉past
  | .settle id reply =>
    .refuse∉past ∧ (∀ other, .settle id other∉past) ∧
      ∃ (i : Nat) (expects : κ), (∀ j e, past[j]? = some (.issue id e) ↔ j=i ∧ e=expects) ∧
        answers expects reply
  | .refuse => True

structure Orderly (name : Nat → ι) (answers : κ → ρ → Prop) (log : List (Event ι κ ρ)) : Prop where
  ids : ∃ n, log.filterMap Event.issued=(List.range n).map name
  calls : Trace.JustifiedFrom (Needs answers) [] log

/-- An open desk has exactly the requests that were issued and not settled. -/
structure Open (name : Nat → ι) (capacity : Nat) (log : List (Event ι κ ρ)) (desk : Desk ι κ) :
    Prop where
  unrefused : .refuse∉log
  ids : log.filterMap Event.issued=(List.range desk.issued).map name
  pending : ∀ id expects, (id,expects)∈desk.pending ↔
    .issue id expects∈log ∧ ∀ reply, .settle id reply∉log
  settled : ∀ id reply, .settle id reply∈log → ∃ expects, .issue id expects∈log
  capacity : desk.pending.length ≤ capacity

def Holds (name : Nat → ι) (answers : κ → ρ → Prop) (capacity : Nat) (log : List (Event ι κ ρ)) :
    Option (Desk ι κ) → Prop
  | none => Orderly name answers log ∧ .refuse∈log
  | some desk => Orderly name answers log ∧ Open name capacity log desk

variable {capacity : Nat} {log : List (Event ι κ ρ)} {desk : Desk ι κ}

theorem issued_of_mem {id : ι} {expects : κ} (h : .issue id expects∈log) :
    id∈log.filterMap Event.issued := List.mem_filterMap.mpr ⟨_,h,rfl⟩

theorem Orderly.append {event : Event ι κ ρ} (h : Orderly name answers log)
    (hids : ∃ n, (log++[event]).filterMap Event.issued=(List.range n).map name)
    (hnee : Needs answers log event) : Orderly name answers (log++[event]) :=
  ⟨hids,Trace.justifiedFrom_append.mpr ⟨h.calls,hnee,trivial⟩⟩

theorem Orderly.refuse (h : Orderly name answers log) : Orderly name answers (log++[.refuse]) := by
  obtain ⟨n,hn⟩ := h.ids
  refine h.append ⟨n,?_⟩ trivial
  rw [List.filterMap_append,hn]
  exact List.append_nil _

namespace Open

theorem issue_unique (hope : Open name capacity log desk) (hnam : Function.Injective name) {id : ι}
    {i j : Nat} {e e' : κ} (hi : log[i]? = some (.issue id e)) (hj : log[j]? = some (.issue id e')) :
    i=j := by
  have hnod : (log.filterMap Event.issued).Nodup := by
    rw [hope.ids]
    exact List.nodup_range.map hnam
  rw [List.Nodup,List.pairwise_filterMap,List.pairwise_iff_getElem] at hnod
  obtain ⟨hi',hget⟩ := List.getElem?_eq_some_iff.mp hi
  obtain ⟨hj',hgej⟩ := List.getElem?_eq_some_iff.mp hj
  rcases lt_trichotomy i j with hlt | heq | hgt
  · refine absurd rfl (hnod i j hi' hj' hlt id ?_ id ?_)
    · rw [hget,Event.issued]
    · rw [hgej,Event.issued]
  · exact heq
  · refine absurd rfl (hnod j i hj' hi' hgt id ?_ id ?_)
    · rw [hgej,Event.issued]
    · rw [hget,Event.issued]

theorem fresh (hope : Open name capacity log desk) (hnam : Function.Injective name) (e : κ) :
    .issue (name desk.issued) e∉log := by
  intro hmem
  have hid := issued_of_mem hmem
  rw [hope.ids,List.mem_map] at hid
  obtain ⟨n,hn,heq⟩ := hid
  exact (List.mem_range.mp hn).ne (hnam heq)

theorem fresh_settle (hope : Open name capacity log desk) (hnam : Function.Injective name)
    (reply : ρ) : .settle (name desk.issued) reply∉log := by
  intro hmem
  obtain ⟨e,he⟩ := hope.settled _ _ hmem
  exact hope.fresh hnam e he

theorem needs_settle (hope : Open name capacity log desk) (hnam : Function.Injective name) {id : ι}
    {expects : κ} {reply : ρ} (h : (id,expects)∈desk.pending) (hrep : answers expects reply) :
    Needs answers log (.settle id reply) := by
  obtain ⟨hiss,hset⟩ := (hope.pending id expects).mp h
  obtain ⟨i,hi⟩ := List.mem_iff_getElem?.mp hiss
  refine ⟨hope.unrefused,hset,i,expects,fun j e => ⟨fun hj => ?_,?_⟩,hrep⟩
  · have hij := hope.issue_unique hnam hj hi
    subst hij
    exact ⟨rfl,(Event.issue.inj (Option.some.inj (hj.symm.trans hi))).2⟩
  · rintro ⟨rfl,rfl⟩
    exact hi

end Open

section Run

variable [DecidableEq ι]

/-- A closed desk is `none`. -/
inductive Step (name : Nat → ι) (answers : κ → ρ → Prop) (capacity : Nat) :
    Option (Desk ι κ) → Event ι κ ρ → Option (Desk ι κ) → Prop where
  | issue {desk : Desk ι κ} (expects : κ) (h : desk.pending.length < capacity) :
      Step name answers capacity (some desk) (.issue (name desk.issued) expects)
        (some ⟨desk.issued+1,insert (name desk.issued) expects desk.pending⟩)
  | settle {desk : Desk ι κ} {id : ι} {expects : κ} {reply : ρ} (h : (id,expects)∈desk.pending)
      (hreply : answers expects reply) :
      Step name answers capacity (some desk) (.settle id reply)
        (some { desk with pending := remove id desk.pending })
  | refuse {state : Option (Desk ι κ)} : Step name answers capacity state .refuse none

inductive Run (name : Nat → ι) (answers : κ → ρ → Prop) (capacity : Nat) :
    List (Event ι κ ρ) → Option (Desk ι κ) → Prop where
  | start : Run name answers capacity [] (some ⟨0,[]⟩)
  | call {log : List (Event ι κ ρ)} {state next : Option (Desk ι κ)} {event : Event ι κ ρ}
      (h : Run name answers capacity log state) (hstep : Step name answers capacity state event next) :
      Run name answers capacity (log++[event]) next

namespace Open

theorem issue (hope : Open name capacity log desk) (hnam : Function.Injective name) (expects : κ)
    (h : desk.pending.length < capacity) :
    Open name capacity (log++[.issue (name desk.issued) expects])
      ⟨desk.issued+1,insert (name desk.issued) expects desk.pending⟩ where
  unrefused := by simp [hope.unrefused]
  ids := by
    rw [List.filterMap_append,hope.ids,List.range_succ,List.map_append]
    rfl
  pending id e := by
    have hset : (∀ reply, .settle id reply∉log++[.issue (name desk.issued) expects]) ↔
        ∀ reply, .settle id reply∉log := by simp
    rw [hset,insert,List.mem_cons,mem_remove,hope.pending,List.mem_append,
      List.mem_singleton,Prod.mk.injEq,Event.issue.injEq]
    by_cases hid : id=name desk.issued
    · subst hid
      simp [hope.fresh hnam e,hope.fresh_settle hnam]
    · simp [hid]
  settled id reply hmem := by
    rw [List.mem_append] at hmem
    obtain ⟨e,he⟩ := hope.settled id reply (hmem.resolve_right (by simp))
    exact ⟨e,List.mem_append_left _ he⟩
  capacity := by
    have hlen := length_remove_le (name desk.issued) desk.pending
    rw [insert,List.length_cons]
    omega

theorem settle (hope : Open name capacity log desk) {id : ι} {expects : κ}
    (h : (id,expects)∈desk.pending) (reply : ρ) :
    Open name capacity (log++[.settle id reply])
      { desk with pending := remove id desk.pending } where
  unrefused := by simp [hope.unrefused]
  ids := by
    rw [List.filterMap_append,hope.ids]
    exact List.append_nil _
  pending other e := by
    simp only [mem_remove,hope.pending,List.mem_append,List.mem_singleton,reduceCtorEq,or_false,
      Event.settle.injEq,not_or,not_and,forall_and]
    constructor
    · rintro ⟨⟨hiss,hset⟩,hne⟩
      exact ⟨hiss,hset,fun _ heq => absurd heq hne⟩
    · rintro ⟨hiss,hset,hne⟩
      exact ⟨⟨hiss,hset⟩,fun heq => hne reply heq rfl⟩
  settled other r hmem := by
    rw [List.mem_append,List.mem_singleton,Event.settle.injEq] at hmem
    rcases hmem with hmem | ⟨rfl,-⟩
    · obtain ⟨e,he⟩ := hope.settled other r hmem
      exact ⟨e,List.mem_append_left _ he⟩
    · exact ⟨expects,List.mem_append_left _ ((hope.pending _ _).mp h).1⟩
  capacity := (length_remove_le id desk.pending).trans hope.capacity

end Open

theorem Step.holds (hnam : Function.Injective name) {state next : Option (Desk ι κ)}
    {event : Event ι κ ρ} (h : Step name answers capacity state event next)
    (hhol : Holds name answers capacity log state) :
    Holds name answers capacity (log++[event]) next := by
  cases h with
  | issue expects hcap =>
    have hope := hhol.2.issue hnam expects hcap
    exact ⟨hhol.1.append ⟨_,hope.ids⟩ hhol.2.unrefused,hope⟩
  | settle hmem hrep =>
    rename_i desk id expects reply
    have hope := hhol.2.settle hmem reply
    exact ⟨hhol.1.append ⟨_,hope.ids⟩ (hhol.2.needs_settle hnam hmem hrep),hope⟩
  | refuse =>
    have hord : Orderly name answers log := by
      cases state with
      | none => exact hhol.1
      | some desk => exact hhol.1
    exact ⟨hord.refuse,List.mem_append_right _ List.mem_cons_self⟩

theorem Run.holds (hnam : Function.Injective name) {state : Option (Desk ι κ)}
    (h : Run name answers capacity log state) : Holds name answers capacity log state := by
  induction h with
  | start =>
    refine ⟨⟨⟨0,rfl⟩,trivial⟩,⟨by simp,rfl,by simp,by simp,Nat.zero_le _⟩⟩
  | call _ hste ih => exact hste.holds hnam ih

end Run

end CastleWall.Correlation
