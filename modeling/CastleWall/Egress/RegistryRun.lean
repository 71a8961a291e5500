import CastleWall.Egress.AnchorRegistry

/-! # What a registry mutation can do

Every state a mutation passes through is listed by one predicate, from which the invariants of the registry
are read off. -/

namespace CastleWall.Egress

open Faulty JsValue

@[simp] theorem asNonNegativeInteger_natCast (n : Nat) : asNonNegativeInteger (.number n)=some n := by
  simp [asNonNegativeInteger,asInteger]

@[simp] theorem asGeneration_val (g : Generation) : asGeneration (.number g.val)=some g := by
  rw [asGeneration,asNonNegativeInteger_natCast,Option.bind_some,Generation.ofNat?,dif_pos g.2]

@[simp] theorem optionalMember_generation (g : Option Generation) :
    optionalMember asGeneration (g.map fun g => .number g.val)=some g := by
  cases g with
  | none => rfl
  | some g => simp [optionalMember]

@[simp] theorem optionalMember_tombstone (b : Bool) :
    (optionalMember asBool (if b then some (.bool true) else none)).map (·.getD false)=some b := by
  cases b <;> rfl

theorem validateEntry_raw (e : PfAnchorRegistryEntry) : validateEntry e.raw=some e := by
  obtain ⟨uid,port,fortress,generation,tombstone,hcon,hrea,hhom⟩ := e
  have hval : 0 < uid ∧ (1 ≤ port ∧ port ≤ 65535) ∧ fortress ≠ "" := ⟨hcon,hrea,hhom⟩
  cases generation <;> cases tombstone <;>
    simp [validateEntry,PfAnchorRegistryEntry.raw,asString,optionalMember,asBool,hval]

variable {u : ConfinedUnion}

theorem ConfinedUnion.ext {v : ConfinedUnion} (h : u.entries=v.entries) : u=v := by
  cases u
  cases v
  cases h
  rfl

theorem ConfinedUnion.eq_empty (h : u.entries=[]) : u=.empty := ConfinedUnion.ext h

@[simp] theorem ConfinedUnion.rules_empty : ConfinedUnion.empty.rules=[] := unionLines_nil

theorem ConfinedUnion.mem_uids_push {e : PfAnchorRegistryEntry} {h : e.agentUid∉u.uids} {uid : Nat} :
    uid∈(u.push e h).uids ↔ uid∈u.uids ∨ uid=e.agentUid := by
  simp [ConfinedUnion.uids,ConfinedUnion.push]

theorem readCommitted_raw (entries : List PfAnchorRegistryEntry) (u v : ConfinedUnion)
    (h : v.entries=u.entries++entries) : readCommitted u (entries.map (·.raw))=.ok v := by
  induction entries generalizing u with
  | nil =>
    rw [List.map_nil,readCommitted,ConfinedUnion.ext (h.trans (List.append_nil _))]
  | cons e entries ih =>
    have hdis := v.distinct
    rw [h,List.map_append,List.map_cons,List.nodup_append] at hdis
    have hfre : e.agentUid∉u.uids := fun hmem =>
      hdis.2.2 _ hmem _ (List.mem_cons_self ..) rfl
    rw [List.map_cons,readCommitted,validateEntry_raw]
    simp only [dif_neg hfre]
    exact ih _ (by rw [h]; simp [ConfinedUnion.push])

theorem readCommitted_entries (u : ConfinedUnion) : readCommitted .empty (u.entries.map (·.raw))=.ok u :=
  readCommitted_raw u.entries .empty u rfl

theorem normalizeState_raw (st : PfAnchorRegistryState) :
    ∃ loaded, normalizeState (some st.raw)=.ok loaded ∧ loaded.committed=st.committed ∧
      loaded.pending=st.pending ∧ (st.dirty=true → loaded.dirty=true) ∧
      loaded.generationFloorRaw=st.generationFloorRaw ∧
      ∃ parsed, loaded.generationFloor=joinFloors st.generationFloor parsed := by
  have hpen : (st.pending.map fun p => some (p.entries.map (·.raw))).bind readPending=st.pending := by
    cases st.pending with
    | none => rfl
    | some p =>
      rw [Option.map_some,Option.bind_some,readPending,readCommitted_entries]
      rfl
  have hflo : (st.generationFloor.map fun g => JsValue.number g.val).bind asGeneration=st.generationFloor := by
    cases st.generationFloor with
    | none => rfl
    | some g => simp
  have hmal : malformedFloors st.raw=st.generationFloorRaw.toList := by
    rw [malformedFloors]
    cases hf : st.generationFloor with
    | none => simp [PfAnchorRegistryState.raw,hf]
    | some g => simp [PfAnchorRegistryState.raw,hf]
  have hraw : (classifyGenerationFloor st.raw).raw=st.generationFloorRaw := by
    rw [classifyGenerationFloor,hmal]
    cases st.generationFloorRaw <;> rfl
  have hver : isStateVersion st.raw.version=true := by
    simp [PfAnchorRegistryState.raw,isStateVersion]
  refine ⟨normalizedWith st.raw st.committed,?_,rfl,hpen,?_,hraw,_,congrArg (joinFloors · _) hflo⟩
  · simp only [normalizeState,hver,Bool.not_true,Bool.false_eq_true,if_false,
      show st.raw.committed=some (st.committed.entries.map (·.raw)) from rfl,readCommitted_entries,Except.map]
  · intro hdir
    simp [normalizedWith,PfAnchorRegistryState.raw,hdir,asBool]

section Spec

variable {ρ : Type}

namespace Host

variable (h : Host ρ)

def withAnchor (rules : List PfRule) : Host ρ := { h with anchor := rules }

def withRegistry (st : PfAnchorRegistryState) : Host ρ := { h with registry := .object st.raw }

/-- When the registry lists itself as not dirty the anchor holds exactly the listed union. -/
def Exact : Prop :=
  ∀ listing, h.registry.list=.ok listing → listing.dirty=false →
    h.anchor=unionLines (listing.entries.map (·.toUnionEntry))

/-- The registry never lists itself as clean. -/
def Marked : Prop := ∀ listing, h.registry.list=.ok listing → listing.dirty=true

variable {h}

theorem Marked.exact (hmar : h.Marked) : h.Exact := by
  intro listing hlis hcle
  rw [hmar listing hlis] at hcle
  cases hcle

variable {st : PfAnchorRegistryState}

theorem list_withRegistry {listing : RegistryListing}
    (hlis : (h.withRegistry st).registry.list=.ok listing) :
    listing.entries=st.committed.entries ∧ (listing.dirty=false → st.dirty=false ∧ st.pending=none) := by
  obtain ⟨loaded,hloa,hcom,hpen,hdir,-,-⟩ := normalizeState_raw st
  have hlis' : (normalizeState (some st.raw)).map
      (fun state => RegistryListing.mk state.committed.entries (state.dirty || state.pending.isSome)
        state.generationFloor)=.ok listing := hlis
  rw [hloa] at hlis'
  cases hlis'
  refine ⟨congrArg ConfinedUnion.entries hcom,fun hcle => ?_⟩
  obtain ⟨hnot,hnop⟩ := Bool.or_eq_false_iff.mp hcle
  constructor
  · cases hst : st.dirty with
    | false => rfl
    | true => exact absurd (hdir hst) (by rw [hnot]; exact Bool.false_ne_true)
  · rw [← hpen]
    exact Option.isNone_iff_eq_none.mp (by rw [← Option.not_isSome,hnop]; rfl)

theorem exact_withRegistry (hanc : h.anchor=st.committed.rules) :
    (h.withRegistry st).Exact := by
  intro listing hlis _
  rw [(list_withRegistry hlis).1]
  exact hanc

theorem marked_withRegistry (hst : st.dirty=true ∨ st.pending.isSome=true) :
    (h.withRegistry st).Marked := by
  intro listing hlis
  by_contra hcle
  obtain ⟨hdir,hpen⟩ := (list_withRegistry hlis).2 (Bool.eq_false_iff.mpr hcle)
  rcases hst with hst | hst
  · rw [hdir] at hst
    cases hst
  · rw [hpen] at hst
    cases hst

end Host

variable {pf : Pf} {I : List (Host ρ) → Prop} {F : (Nat → Call → Fault) → Prop} {P : Host ρ → Prop}

theorem plainCall_keeps {call : Call} : Keeps I F P (plainCall call) (fun _ => P) P :=
  Keeps.read (fun _ _ hs _ => hs) fun _ hs => hs

theorem arm_keeps {entries : List PfAnchorUnionEntry} {existing : Option PfEnableReference}
    (hI : ∀ h before, I (h::before) → P h → I (h.withAnchor (unionLines entries)::h::before))
    (hP : ∀ h, P h → P (h.withAnchor (unionLines entries))) :
    Keeps I F P (armPfAnchorUnion pf entries existing) (fun _ h => P h ∧ h.anchor=unionLines entries) P := by
  have hloa : ∀ call, Keeps I F (fun h : Host ρ => P h ∧ h.anchor=unionLines entries) (plainCall call)
      (fun _ h => P h ∧ h.anchor=unionLines entries) P := fun call =>
    plainCall_keeps.weaken (fun _ hs => hs) (fun _ _ hs => hs) fun _ hs => hs.1
  unfold armPfAnchorUnion
  refine Keeps.bind (R := fun rules h => P h ∧ rules=unionLines entries) (Keeps.ofExcept ?_ fun _ hs => hs)
    fun rules => Keeps.bind (R := fun _ h => P h ∧ h.anchor=unionLines entries) (Keeps.write ?_ ?_ ?_)
      fun _ => Keeps.bind (hloa _) fun _ => Keeps.bind (hloa _) fun _ =>
        Keeps.bind (R := fun _ h => P h ∧ h.anchor=unionLines entries) (Keeps.read ?_ ?_)
          fun _ => Keeps.pure fun _ hs => hs
  · intro rules h hren hP'
    cases hr : renderPfAnchorRulesForUids entries with
    | error err =>
      rw [hr] at hren
      cases hren
    | ok rules' =>
      rw [hr] at hren
      cases hren
      exact ⟨hP',render_eq_ok hr⟩
  · rintro h before h' hI' ⟨hP',rfl⟩ hwri
    cases hwri
    exact ⟨hI h before hI' hP',hP h hP',rfl⟩
  · rintro fault n - - h h' ⟨hP',rfl⟩ hwri
    cases hwri
    exact hP h hP'
  · exact fun _ hs => hs.1
  · exact fun _ _ hs _ => hs
  · exact fun _ hs => hs.1

theorem disarm_keeps {token : Option String} (hI : ∀ h before, I (h::before) → P h → I (h.withAnchor []::h::before))
    (hP : ∀ h, P h → P (h.withAnchor [])) :
    Keeps I F P (disarmPfAnchor token) (fun _ h => P h ∧ h.anchor=[]) P := by
  unfold disarmPfAnchor
  refine Keeps.bind (R := fun _ h => P h ∧ h.anchor=[]) (Keeps.write ?_ ?_ fun _ hs => hs) fun _ => ?_
  · intro h before h' hI' hP' hwri
    cases hwri
    exact ⟨hI h before hI' hP',hP h hP',rfl⟩
  · intro fault n _ _ h h' hP' hwri
    cases hwri
    exact hP h hP'
  · cases token with
    | none => exact Keeps.pure fun _ hs => hs
    | some token =>
      dsimp only
      split_ifs
      · exact plainCall_keeps.weaken (fun _ hs => hs) (fun _ _ hs => hs) fun _ hs => hs.1
      · exact Keeps.fail fun _ hs => hs.1

variable {st : PfAnchorRegistryState}

/-- Applying a union loads its rules, and changes nothing of the state but the reference. -/
theorem applyUnion_keeps {union : ConfinedUnion}
    (hI : ∀ h before, I (h::before) → P h → I (h.withAnchor union.rules::h::before))
    (hP : ∀ h, P h → P (h.withAnchor union.rules)) :
    Keeps I F P (applyUnion pf st union)
      (fun r h => P h ∧ h.anchor=union.rules ∧ ∃ reference, r.2 = { st with reference := reference }) P := by
  unfold applyUnion
  by_cases hemp : union.entries=[]
  · rw [if_pos hemp]
    have hrul : union.rules=[] := by
      rw [ConfinedUnion.eq_empty hemp,ConfinedUnion.rules_empty]
    rw [hrul] at hI hP ⊢
    refine Keeps.bind (disarm_keeps hI hP) fun _ => Keeps.pure ?_
    exact fun h hs => ⟨hs.1,hs.2,_,rfl⟩
  · rw [if_neg hemp]
    refine Keeps.bind (arm_keeps hI hP) fun reference => Keeps.pure ?_
    exact fun h hs => ⟨hs.1,hs.2,_,rfl⟩

theorem saveState_keeps {Q E : Host ρ → Prop}
    (hsav : ∀ h before, I (h::before) → P h → I (h.withRegistry st::h::before) ∧ Q (h.withRegistry st))
    (hlat : ∀ fault n, F fault → fault n Call.saveRegistry=.late → ∀ h, P h → E (h.withRegistry st))
    (herr : ∀ h, P h → E h) : Keeps I F P (saveState st) (fun _ => Q) E := by
  refine Keeps.write ?_ ?_ herr
  · intro h before h' hI hP hwri
    cases hwri
    exact hsav h before hI hP
  · intro fault n hF hfau h h' hP hwri
    cases hwri
    exact hlat fault n hF hfau h hP

def PfAnchorRegistryState.settled (st : PfAnchorRegistryState) (union : ConfinedUnion)
    (reference : Option PfEnableReference) : PfAnchorRegistryState :=
  clearDirtyUnlessFloorRepairOwed { st with committed := union, pending := none, reference := reference }

/-- `reassert` from states of `P`, when everything it may write satisfies `V`. -/
theorem reassert_keeps {union : ConfinedUnion} {cause : GateError} {V : Host ρ → Prop}
    (hI : ∀ h before h', I (h::before) → V h → V h' → I (h'::h::before)) (hPV : ∀ h, P h → V h)
    (hloa : ∀ h, P h → P (h.withAnchor union.rules))
    (hset : ∀ h reference, P h → h.anchor=union.rules → V (h.withRegistry (st.settled union reference)))
    (hfai : ∀ h, P h → V (h.withRegistry { st with dirty := true }))
    (huns : ∀ h reference, P h → V (h.withRegistry { st.settled union reference with dirty := true })) :
    Keeps I F P (reassert pf st union cause)
      (fun st' h => V h ∧ ∃ reference, st'=st.settled union reference) V := by
  have hstr : ∀ (state : PfAnchorRegistryState) (err : GateError) (A : Host ρ → Prop), (∀ h, A h → V h) →
      (∀ h, A h → V (h.withRegistry { state with dirty := true })) →
      Keeps I F A (stranded state cause err : Prog Call (Host ρ) GateError PfAnchorRegistryState)
        (fun st' h => V h ∧ ∃ reference, st'=st.settled union reference) V := by
    intro state err A hAV hdir
    refine Keeps.bind (R := fun _ => V) (Keeps.weaken (Keeps.attempt (G := V) (saveState_keeps (Q := V) (E := V) ?_ ?_ hAV) fun _ hs => hs)
      (fun _ hs => hs) ?_ fun _ hs => hs) fun _ => Keeps.fail fun _ hs => hs
    · exact fun h before hI' hA => ⟨hI h before _ hI' (hAV h hA) (hdir h hA),hdir h hA⟩
    · exact fun _ _ _ _ h hA => hdir h hA
    · intro r h hr
      cases r with
      | ok u => exact hr.1 u rfl
      | error err => exact hr.2 err rfl
  unfold reassert
  refine Keeps.attempt_bind (applyUnion_keeps (fun h before hI' hP => hI h before _ hI' (hPV h hP)
    (hPV _ (hloa h hP))) hloa) hPV (fun r => ?_) fun err => hstr st err P hPV hfai
  obtain ⟨released,applied⟩ := r
  refine Keeps.of_each fun h₀ => ?_
  rintro ⟨hP,hanc,reference,rfl⟩
  have hsav : V (h₀.withRegistry (st.settled union reference)) := hset h₀ reference hP hanc
  have hdir : V (h₀.withRegistry { st.settled union reference with dirty := true }) := huns h₀ reference hP
  refine Keeps.attempt_bind (R := fun _ => V)
    (G := fun h => V h ∧ V (h.withRegistry { st.settled union reference with dirty := true }))
    (saveState_keeps ?_ ?_ ?_) (fun _ hs => hs.1) (fun _ => Keeps.pure fun h hs => ⟨hs,reference,rfl⟩)
    fun err => hstr _ err _ (fun _ hs => hs.1) fun _ hs => hs.2
  · rintro h before hI' rfl
    exact ⟨hI h before _ hI' (hPV h hP) hsav,hsav⟩
  · rintro fault n - - h rfl
    exact ⟨hsav,hdir⟩
  · rintro h rfl
    exact ⟨hPV h hP,hdir⟩

def foldedFloor (s₀ : PfAnchorRegistryState) (desired : ConfinedUnion) : Option Generation :=
  foldRemoved desired.entries s₀.generationFloor s₀.committed.entries

/-- A state that a mutation from `s₀` to `desired` may save. -/
structure Records (s₀ : PfAnchorRegistryState) (desired : ConfinedUnion) (st : PfAnchorRegistryState) : Prop where
  raw : st.generationFloorRaw=s₀.generationFloorRaw
  union : (st.committed=s₀.committed ∧
      (st.generationFloor=s₀.generationFloor ∨ st.generationFloor=foldedFloor s₀ desired)) ∨
    (st.committed=desired ∧ st.generationFloor=foldedFloor s₀ desired)

/-- A state that a mutation from `s₀` to `desired`, begun on `base`, may pass through. That clean listings are
exact is asked of it when `strict` holds. -/
structure Visits (strict : Prop) (base : Host ρ) (s₀ : PfAnchorRegistryState) (desired : ConfinedUnion)
    (h : Host ρ) : Prop where
  rest : h.rest=base.rest
  anchor : h.anchor=base.anchor ∨ h.anchor=s₀.committed.rules ∨ h.anchor=desired.rules
  registry : h.registry=base.registry ∨ ∃ st, h.registry=.object st.raw ∧ Records s₀ desired st
  exact : strict → base.Exact → h.Exact

structure Committed (base : Host ρ) (s₀ : PfAnchorRegistryState) (desired : ConfinedUnion)
    (st : PfAnchorRegistryState) (h : Host ρ) : Prop where
  rest : h.rest=base.rest
  anchor : h.anchor=desired.rules
  registry : h.registry=.object st.raw
  committed : st.committed=desired
  floor : st.generationFloor=foldedFloor s₀ desired
  raw : st.generationFloorRaw=s₀.generationFloorRaw

section Mutation

variable {strict : Prop} {base : Host ρ} {s₀ : PfAnchorRegistryState} {desired : ConfinedUnion} {h : Host ρ}

theorem Visits.start : Visits strict base s₀ desired base := ⟨rfl,.inl rfl,.inl rfl,fun _ hexa => hexa⟩

variable {st : PfAnchorRegistryState}

theorem Visits.save (hvis : Visits strict base s₀ desired h)
    (hrec : Records s₀ desired st)
    (hcle : h.anchor=st.committed.rules ∨ st.dirty=true ∨ st.pending.isSome=true) :
    Visits strict base s₀ desired (h.withRegistry st) := by
  refine ⟨hvis.rest,hvis.anchor,.inr ⟨st,rfl,hrec⟩,fun _ _ => ?_⟩
  rcases hcle with hanc | hmar
  · exact Host.exact_withRegistry hanc
  · exact (Host.marked_withRegistry hmar).exact

theorem Visits.load (hvis : Visits strict base s₀ desired h) (hmar : strict → h.Marked) {union : ConfinedUnion}
    (huni : union=s₀.committed ∨ union=desired) :
    Visits strict base s₀ desired (h.withAnchor union.rules) := by
  refine ⟨hvis.rest,?_,hvis.registry,fun hstr _ => Host.Marked.exact (hmar hstr)⟩
  rcases huni with rfl | rfl
  · exact .inr (.inl rfl)
  · exact .inr (.inr rfl)

def Midway (strict : Prop) (base : Host ρ) (s₀ : PfAnchorRegistryState) (desired : ConfinedUnion) (h : Host ρ) : Prop :=
  Visits strict base s₀ desired h ∧ (strict → h.Marked)

theorem Midway.load (h₀ : Midway strict base s₀ desired h) {union : ConfinedUnion}
    (huni : union=s₀.committed ∨ union=desired) : Midway strict base s₀ desired (h.withAnchor union.rules) :=
  ⟨h₀.1.load h₀.2 huni,h₀.2⟩

variable (hI : ∀ h before h', I (h::before) → Visits strict base s₀ desired h → Visits strict base s₀ desired h' →
  I (h'::h::before))

include hI

theorem rollback_keeps {reference : Option PfEnableReference} {released : Bool}
    {cause : GateError} (hrec : Records s₀ desired st) (hflo : st.generationFloor=foldedFloor s₀ desired) :
    Keeps I F (Midway strict base s₀ desired) (rollback pf st s₀.committed reference released cause)
      (fun _ => Visits strict base s₀ desired) (Visits strict base s₀ desired) := by
  have hrea : ∀ r : Option PfEnableReference, Keeps I F (Midway strict base s₀ desired)
      (reassert pf { st with reference := r } s₀.committed cause) (fun _ => Visits strict base s₀ desired)
      (Visits strict base s₀ desired) := by
    intro r
    have hbac : ∀ r', Records s₀ desired (PfAnchorRegistryState.settled { st with reference := r } s₀.committed r') :=
      fun r' => ⟨hrec.raw,.inl ⟨rfl,.inr hflo⟩⟩
    refine Keeps.weaken (reassert_keeps hI (fun h hs => hs.1) (fun h hs => hs.load (.inl rfl)) ?_ ?_ ?_)
      (fun _ hs => hs) (fun _ _ hs => hs.1) fun _ hs => hs
    · exact fun h r' hs hanc => hs.1.save (hbac r') (.inl hanc)
    · exact fun h hs => hs.1.save ⟨hrec.raw,hrec.union⟩ (.inr (.inl rfl))
    · exact fun h r' hs => hs.1.save ⟨(hbac r').raw,(hbac r').union⟩ (.inr (.inl rfl))
  unfold rollback
  by_cases hemp : s₀.committed.entries=[]
  · rw [if_pos hemp,← ConfinedUnion.eq_empty hemp]
    exact hrea st.reference
  · rw [if_neg hemp]
    split_ifs
    · exact hrea none
    · exact hrea reference

theorem reconcile_keeps (hloa : base.registry.normalized=.ok s₀) :
    Keeps I F (fun h => h=base) (reconcile pf s₀)
      (fun st h => Visits strict base s₀ desired h ∧ st.committed=s₀.committed ∧
        st.generationFloor=s₀.generationFloor ∧ st.generationFloorRaw=s₀.generationFloorRaw)
      (Visits strict base s₀ desired) := by
  have hlis : ∀ listing, base.registry.list=.ok listing → listing.entries=s₀.committed.entries := by
    intro listing hlit
    rw [RegistryFile.list,hloa] at hlit
    cases hlit
    rfl
  -- Until the state is saved, only the committed rules are loaded.
  have hvis : ∀ h : Host ρ, h=base ∨ h=base.withAnchor s₀.committed.rules → Visits strict base s₀ desired h := by
    rintro h (rfl | rfl)
    · exact Visits.start
    · refine ⟨rfl,.inr (.inl rfl),.inl rfl,fun _ _ listing hlit _ => ?_⟩
      rw [hlis listing hlit]
      rfl
  have hrec : ∀ r, Records s₀ desired (s₀.settled s₀.committed r) := fun r => ⟨rfl,.inl ⟨rfl,.inl rfl⟩⟩
  have hrea : ∀ cause, Keeps I F (fun h => h=base) (reassert pf s₀ s₀.committed cause)
      (fun st h => Visits strict base s₀ desired h ∧ st.committed=s₀.committed ∧
        st.generationFloor=s₀.generationFloor ∧ st.generationFloorRaw=s₀.generationFloorRaw)
      (Visits strict base s₀ desired) := by
    intro cause
    refine Keeps.weaken (reassert_keeps (P := fun h => h=base ∨ h=base.withAnchor s₀.committed.rules) hI hvis
      ?_ ?_ ?_ ?_) (fun _ hs => .inl hs) ?_ fun _ hs => hs
    · rintro h (rfl | rfl)
      · exact .inr rfl
      · exact .inr rfl
    · exact fun h r hs hanc => (hvis h hs).save (hrec r) (.inl hanc)
    · exact fun h hs => (hvis h hs).save ⟨rfl,.inl ⟨rfl,.inl rfl⟩⟩ (.inr (.inl rfl))
    · exact fun h r hs => (hvis h hs).save ⟨rfl,.inl ⟨rfl,.inl rfl⟩⟩ (.inr (.inl rfl))
    · rintro st h ⟨hV,r,rfl⟩
      exact ⟨hV,rfl,rfl,rfl⟩
  have hqui : ∀ h, h=base → Visits strict base s₀ desired h ∧ s₀.committed=s₀.committed ∧
      s₀.generationFloor=s₀.generationFloor ∧ s₀.generationFloorRaw=s₀.generationFloorRaw :=
    fun h hs => ⟨hvis h (.inl hs),rfl,rfl,rfl⟩
  unfold reconcile
  by_cases hemp : s₀.committed.entries=[]
  · rw [if_pos hemp,← ConfinedUnion.eq_empty hemp]
    split_ifs
    · exact hrea _
    · exact Keeps.pure hqui
  · rw [if_neg hemp]
    refine Keeps.bind (R := fun _ h => h=base) (Keeps.read (fun _ _ hs _ => hs) fun h hs => hvis h (.inl hs))
      fun live => ?_
    split_ifs
    · exact Keeps.pure hqui
    · exact hrea _

theorem applyJournaled_keeps (hF : strict → ∀ fault, F fault → ∀ n, fault n Call.saveRegistry≠.late) {reference : Option PfEnableReference} (hst : st.pending=some desired)
    (hcom : st.committed=s₀.committed) (hflo : st.generationFloor=foldedFloor s₀ desired)
    (hraw : st.generationFloorRaw=s₀.generationFloorRaw) :
    Keeps I F (Visits strict base s₀ desired) (applyJournaled pf st desired s₀.committed reference)
      (Committed base s₀ desired) (Visits strict base s₀ desired) := by
  have hmar : ∀ h : Host ρ, (h.withRegistry st).Marked := fun h =>
    Host.marked_withRegistry (.inr (by rw [hst]; rfl))
  have hrec : Records s₀ desired st := ⟨hraw,.inl ⟨hcom,.inr hflo⟩⟩
  have hjournal : ∀ h, Visits strict base s₀ desired h → Visits strict base s₀ desired (h.withRegistry st) :=
    fun h hs => hs.save hrec (.inr (.inr (by rw [hst]; rfl)))
  unfold applyJournaled
  refine Keeps.bind (R := fun _ => Midway strict base s₀ desired) (saveState_keeps ?_ ?_ fun _ hs => hs) fun _ => ?_
  · exact fun h before hI' hs => ⟨hI h before _ hI' hs (hjournal h hs),hjournal h hs,fun _ => hmar h⟩
  · exact fun _ _ _ _ h hs => hjournal h hs
  refine Keeps.attempt_bind (applyUnion_keeps (P := Midway strict base s₀ desired)
    (fun h before hI' hs => hI h before _ hI' hs.1 (hs.load (.inr rfl)).1) fun h hs => hs.load (.inr rfl))
    (fun _ hs => hs.1) (fun r => ?_) fun err => Keeps.bind (rollback_keeps hI hrec hflo) fun _ => Keeps.fail fun _ hs => hs
  obtain ⟨released,applied⟩ := r
  refine Keeps.of_each fun h₀ => ?_
  rintro ⟨hmid,hanc,r,rfl⟩
  have hdon : Records s₀ desired (st.settled desired r) := ⟨hraw,.inr ⟨rfl,hflo⟩⟩
  have hsav : Visits strict base s₀ desired (h₀.withRegistry (st.settled desired r)) :=
    hmid.1.save hdon (.inl hanc)
  refine Keeps.attempt_bind (R := fun _ h => h=h₀.withRegistry (st.settled desired r))
    (G := Midway strict base s₀ desired) (saveState_keeps ?_ ?_ ?_) (fun _ hs => hs.1)
    (fun _ => Keeps.pure ?_) fun err =>
      Keeps.bind (rollback_keeps hI hdon hflo) fun _ => Keeps.fail fun _ hs => hs
  · rintro h before hI' rfl
    exact ⟨hI h before _ hI' hmid.1 hsav,rfl⟩
  · rintro fault n hfau hlat h rfl
    exact ⟨hsav,fun hstr => absurd hlat (hF hstr fault hfau n)⟩
  · rintro h rfl
    exact hmid
  · rintro h rfl
    exact ⟨hmid.1.rest,hanc,rfl,rfl,hflo,hraw⟩

end Mutation

structure Plan (base : Host ρ) (apply : List PfAnchorRegistryEntry → Except GateError (List PfAnchorRegistryEntry))
    (s₀ : PfAnchorRegistryState) (desired : ConfinedUnion) : Prop where
  load : base.registry.normalized=.ok s₀
  desired : (apply s₀.committed.entries).bind (assertNoDuplicateUids .empty)=.ok desired

/-- What a mutation can do: pass through states of its plan, and commit the plan, or fail in one of them. -/
theorem mutate_keeps (strict : Prop) {base : Host ρ}
    {apply : List PfAnchorRegistryEntry → Except GateError (List PfAnchorRegistryEntry)}
    (hF : strict → ∀ fault, F fault → ∀ n, fault n Call.saveRegistry≠.late)
    (hI : ∀ s₀ desired, Plan base apply s₀ desired → ∀ h before h', I (h::before) →
      Visits strict base s₀ desired h → Visits strict base s₀ desired h' → I (h'::h::before)) :
    Keeps I F (fun h => h=base) (mutate pf apply)
      (fun st h => ∃ s₀ desired, Plan base apply s₀ desired ∧ Committed base s₀ desired st h)
      (fun h => h=base ∨ ∃ s₀ desired, Plan base apply s₀ desired ∧ Visits strict base s₀ desired h) := by
  unfold mutate
  refine Keeps.bind (R := fun loaded h => h=base ∧ base.registry.load=.ok loaded) (Keeps.read ?_ ?_) fun loaded => ?_
  · rintro h loaded rfl hloa
    exact ⟨rfl,hloa⟩
  · exact fun _ hs => .inl hs
  refine Keeps.bind (R := fun s₀ h => h=base ∧ base.registry.normalized=.ok s₀) (Keeps.ofExcept ?_ ?_) fun s₀ => ?_
  · rintro s₀ h hnor ⟨rfl,hloa⟩
    exact ⟨rfl,by rw [RegistryFile.normalized,hloa]; exact hnor⟩
  · exact fun _ hs => .inl hs.1
  refine Keeps.bind (R := fun entries h => h=base ∧ base.registry.normalized=.ok s₀ ∧
    apply s₀.committed.entries=.ok entries) (Keeps.ofExcept ?_ ?_) fun entries => ?_
  · exact fun entries h happ hs => ⟨hs.1,hs.2,happ⟩
  · exact fun _ hs => .inl hs.1
  refine Keeps.bind (R := fun desired h => h=base ∧ Plan base apply s₀ desired) (Keeps.ofExcept ?_ ?_)
    fun desired => ?_
  · exact fun desired h hass hs => ⟨hs.1,hs.2.1,by rw [hs.2.2]; exact hass⟩
  · exact fun _ hs => .inl hs.1
  refine Keeps.of_each fun h₀ => ?_
  rintro ⟨rfl,hpla⟩
  have hvis : ∀ h, Visits strict h₀ s₀ desired h →
      h=h₀ ∨ ∃ s₀ desired, Plan h₀ apply s₀ desired ∧ Visits strict h₀ s₀ desired h :=
    fun h hs => .inr ⟨s₀,desired,hpla,hs⟩
  refine Keeps.weaken (Keeps.bind (R := fun (st : PfAnchorRegistryState) h => Visits strict h₀ s₀ desired h ∧ st.committed=s₀.committed ∧
    st.generationFloor=s₀.generationFloor ∧ st.generationFloorRaw=s₀.generationFloorRaw)
    (E := Visits strict h₀ s₀ desired) (Q := Committed h₀ s₀ desired) ?_ fun st => ?_)
    (fun _ hs => hs) (fun st h hs => ⟨s₀,desired,hpla,hs⟩) hvis
  · unfold reconcileBefore
    split_ifs
    · exact Keeps.pure fun h hs => ⟨hs ▸ Visits.start,rfl,rfl,rfl⟩
    · exact reconcile_keeps (hI s₀ desired hpla) hpla.load
  · refine Keeps.of_each fun h ⟨hs,hcom,hflo,hraw⟩ => ?_
    refine Keeps.weaken ?_ (fun h' (heq : h'=h) => heq ▸ hs) (fun _ _ h => h) fun _ h => h
    rw [hcom]
    exact applyJournaled_keeps (hI s₀ desired hpla) hF rfl rfl (by rw [hflo]; rfl) hraw

theorem classifyFrom_of_readCommitted {u v : ConfinedUnion} {raws : List RawEntry} (h : readCommitted u raws=.ok v)
    (quarantined : List Quarantined) (index : Nat) : classifyFrom u quarantined index raws=(v,quarantined) := by
  induction raws generalizing u index with
  | nil =>
    cases h
    rfl
  | cons raw raws ih =>
    unfold readCommitted at h
    unfold classifyFrom
    split at h
    · cases h
    · split_ifs at h ⊢ with hmem
      exact ih h (index+1)

structure RepairPlan (base : Host ρ) (loaded : RawState) (valid : ConfinedUnion) (quarantined : List Quarantined) :
    Prop where
  load : base.registry.load=.ok (some loaded)
  classify : classifyCommitted loaded=.ok (valid,quarantined)
  owed : quarantined≠[] ∨ (classifyGenerationFloor loaded).raw.isSome=true

def salvaged (valid : ConfinedUnion) (quarantined : List Quarantined) : Salvage :=
  quarantined.foldl Salvage.step ⟨valid,none,[]⟩

def repairedState (loaded : RawState) (valid : ConfinedUnion) (quarantined : List Quarantined)
    (reference : Option PfEnableReference) : PfAnchorRegistryState :=
  ⟨(salvaged valid quarantined).next,reference,none,false,
    repairedFloor (classifyGenerationFloor loaded) (salvaged valid quarantined),none⟩

structure Repairs (base : Host ρ) (loaded : RawState) (valid : ConfinedUnion) (quarantined : List Quarantined)
    (h : Host ρ) : Prop where
  rest : h.rest=base.rest
  anchor : h.anchor=base.anchor ∨ h.anchor=(salvaged valid quarantined).next.rules
  registry : h.registry=base.registry ∨
    ∃ reference, h.registry=.object (repairedState loaded valid quarantined reference).raw
  exact : h.Exact

/-- A registry that owes a repair never lists itself as clean. -/
theorem RepairPlan.marked {base : Host ρ} {loaded : RawState} {valid : ConfinedUnion} {quarantined : List Quarantined}
    (hpla : RepairPlan base loaded valid quarantined) : base.Marked := by
  intro listing hlis
  rw [RegistryFile.list,RegistryFile.normalized,hpla.load] at hlis
  simp only [Except.bind,normalizeState] at hlis
  by_cases hver : (!isStateVersion loaded.version)=true
  · rw [if_pos hver] at hlis
    cases hlis
  rw [if_neg hver] at hlis
  split at hlis
  · cases hlis
  · rename_i raws hras
    cases hrea : readCommitted .empty raws with
    | error err =>
      rw [hrea] at hlis
      cases hlis
    | ok v =>
      rw [hrea] at hlis
      cases hlis
      have hcla := hpla.classify
      rw [classifyCommitted,if_neg hver,hras] at hcla
      dsimp only at hcla
      rw [classifyFrom_of_readCommitted hrea] at hcla
      cases hcla
      rcases hpla.owed with hne | hraw
      · exact absurd rfl hne
      · simp [normalizedWith,hraw]

theorem repair_keeps {base : Host ρ}
    (hI : ∀ loaded valid quarantined, RepairPlan base loaded valid quarantined → ∀ h before h', I (h::before) →
      Repairs base loaded valid quarantined h → Repairs base loaded valid quarantined h' → I (h'::h::before)) :
    Keeps I F (fun h => h=base) (repairQuarantined pf)
      (fun _ h => h=base ∨ ∃ loaded valid quarantined, RepairPlan base loaded valid quarantined ∧
        Repairs base loaded valid quarantined h)
      (fun h => h=base ∨ ∃ loaded valid quarantined, RepairPlan base loaded valid quarantined ∧
        Repairs base loaded valid quarantined h) := by
  unfold repairQuarantined
  refine Keeps.bind (R := fun loaded h => h=base ∧ base.registry.load=.ok loaded) (Keeps.read ?_ ?_) fun loaded => ?_
  · rintro h loaded rfl hloa
    exact ⟨rfl,hloa⟩
  · exact fun _ hs => .inl hs
  cases loaded with
  | none => exact Keeps.pure fun _ hs => .inl hs.1
  | some loaded =>
    dsimp only
    refine Keeps.bind (R := fun r h => h=base ∧ base.registry.load=.ok (some loaded) ∧
      classifyCommitted loaded=.ok r) (Keeps.ofExcept ?_ ?_) fun r => ?_
    · exact fun r h hcla hs => ⟨hs.1,hs.2,hcla⟩
    · exact fun _ hs => .inl hs.1
    obtain ⟨valid,quarantined⟩ := r
    dsimp only
    by_cases howe : (quarantined.isEmpty && (classifyGenerationFloor loaded).raw.isNone)=true
    · rw [if_pos howe]
      exact Keeps.pure fun _ hs => .inl hs.1
    rw [if_neg howe]
    refine Keeps.of_each fun h₀ => ?_
    rintro ⟨rfl,hloa,hcla⟩
    have hpln : RepairPlan h₀ loaded valid quarantined := by
      refine ⟨hloa,hcla,?_⟩
      by_contra hnot
      rw [not_or,not_not,Bool.not_eq_true,Option.isSome_eq_false_iff] at hnot
      rw [hnot.1,hnot.2] at howe
      exact howe rfl
    have hsta : Repairs h₀ loaded valid quarantined h₀ := ⟨rfl,.inl rfl,.inl rfl,hpln.marked.exact⟩
    let mid : Host ρ → Prop := fun h => h=h₀ ∨ h=h₀.withAnchor (salvaged valid quarantined).next.rules
    have hmid : ∀ h, mid h → Repairs h₀ loaded valid quarantined h := by
      rintro h (rfl | rfl)
      · exact hsta
      · exact ⟨rfl,.inr rfl,.inl rfl,Host.Marked.exact hpln.marked⟩
    have hsav : ∀ h reference, mid h → h.anchor=(salvaged valid quarantined).next.rules →
        Repairs h₀ loaded valid quarantined (h.withRegistry (repairedState loaded valid quarantined reference)) :=
      fun h reference hs hanc =>
        ⟨(hmid h hs).rest,.inr hanc,.inr ⟨reference,rfl⟩,Host.exact_withRegistry hanc⟩
    refine Keeps.weaken (P := mid) (Q := fun _ => Repairs h₀ loaded valid quarantined)
      (E := Repairs h₀ loaded valid quarantined) ?_ (fun _ hs => .inl hs)
      (fun _ _ hs => .inr ⟨_,_,_,hpln,hs⟩) fun _ hs => .inr ⟨_,_,_,hpln,hs⟩
    have hpla : ∀ call, Keeps I F mid (plainCall call) (fun _ => mid) (Repairs h₀ loaded valid quarantined) :=
      fun call => plainCall_keeps.weaken (fun _ hs => hs) (fun _ _ hs => hs) hmid
    refine Keeps.bind (hpla _) fun _ => Keeps.bind (hpla _) fun _ => Keeps.bind
      (Keeps.weaken (applyUnion_keeps (P := mid) ?_ ?_) (fun _ hs => hs) (fun _ _ hs => hs) hmid) fun r => ?_
    · intro h before hI' hs
      refine hI _ _ _ hpln h before _ hI' (hmid h hs) (hmid _ ?_)
      rcases hs with rfl | rfl
      · exact .inr rfl
      · exact .inr rfl
    · rintro h (rfl | rfl)
      · exact .inr rfl
      · exact .inr rfl
    · obtain ⟨released,state⟩ := r
      refine Keeps.of_each fun h ⟨hs,hanc,reference,hste⟩ => ?_
      dsimp only at hste ⊢
      subst hste
      refine Keeps.bind (R := fun _ => Repairs h₀ loaded valid quarantined) (saveState_keeps ?_ ?_ ?_)
        fun _ => Keeps.pure fun _ hs => hs
      · rintro h' before hI' rfl
        exact ⟨hI _ _ _ hpln h' before _ hI' (hmid h' hs) (hsav h' reference hs hanc),
          hsav h' reference hs hanc⟩
      · rintro fault n - - h' rfl
        exact hsav h' reference hs hanc
      · rintro h' rfl
        exact hmid h' hs

end Spec

end CastleWall.Egress
