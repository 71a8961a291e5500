import CastleWall.Egress.Generation
import CastleWall.Egress.Confinement

/-! # Fresh generation ids

An id that was staged or committed for a uid is kept by the staging record, by the registry entry or by the
floor. The next bring-up allocates above the entry and the floor, so an id is fresh as long as no recovery
deletes a record that nothing else remembers. -/

namespace CastleWall.Egress

open Faulty JsValue

def AtLeast (floor : Option Generation) (n : Nat) : Prop := ∃ g, floor=some g ∧ n ≤ g.val

theorem atLeast_raiseFloor_iff {floor : Option Generation} {g : Generation} {n : Nat} :
    AtLeast (raiseFloor floor g) n ↔ AtLeast floor n ∨ n ≤ g.val := by
  cases floor with
  | none =>
    constructor
    · rintro ⟨g',h,hle⟩
      cases h
      exact .inr hle
    · rintro (⟨g',h,-⟩ | hle)
      · cases h
      · exact ⟨g,rfl,hle⟩
  | some f =>
    have hmax : (max g f).val=max g.val f.val := (Subtype.mono_coe _).map_max
    constructor
    · rintro ⟨g',h,hle⟩
      cases h
      change n ≤ (max g f).val at hle
      rw [hmax,le_max_iff] at hle
      rcases hle with hle | hle
      · exact .inr hle
      · exact .inl ⟨f,rfl,hle⟩
    · intro h
      refine ⟨max g f,rfl,?_⟩
      rw [hmax,le_max_iff]
      rcases h with ⟨f',hf,hle⟩ | hle
      · cases hf
        exact .inr hle
      · exact .inl hle

theorem atLeast_joinFloors_iff {a b : Option Generation} {n : Nat} :
    AtLeast (joinFloors a b) n ↔ AtLeast a n ∨ AtLeast b n := by
  cases b with
  | none =>
    refine ⟨.inl,?_⟩
    rintro (h | ⟨g,h,-⟩)
    · exact h
    · cases h
  | some g =>
    rw [joinFloors,atLeast_raiseFloor_iff]
    constructor
    · rintro (h | h)
      · exact .inl h
      · exact .inr ⟨g,rfl,h⟩
    · rintro (h | ⟨g',h,hle⟩)
      · exact .inl h
      · cases h
        exact .inr hle

def RawEntry.Names (raw : RawEntry) (uid : Nat) (g : Generation) : Prop :=
  raw.agentUid.bind asNonNegativeInteger=some uid ∧ raw.generationId.bind asGeneration=some g

namespace RegistryFile

def rawEntries : RegistryFile → List RawEntry
  | .object raw => raw.committed.getD []
  | _ => []

def floor : RegistryFile → Option Generation
  | .object raw => joinFloors (classifyGenerationFloor raw).validFloor (classifyGenerationFloor raw).rawParsed
  | _ => none

def Retains (file : RegistryFile) (uid n : Nat) : Prop :=
  (∃ raw∈file.rawEntries, ∃ g, raw.Names uid g ∧ n ≤ g.val) ∨ AtLeast file.floor n

theorem Retains.mono {file : RegistryFile} {uid m n : Nat} (h : file.Retains uid n) (hle : m ≤ n) :
    file.Retains uid m := by
  rcases h with ⟨raw,hraw,g,hnam,hn⟩ | ⟨g,hflo,hn⟩
  · exact .inl ⟨raw,hraw,g,hnam,hle.trans hn⟩
  · exact .inr ⟨g,hflo,hle.trans hn⟩

end RegistryFile

theorem validateEntry_names {raw : RawEntry} {e : PfAnchorRegistryEntry} (h : validateEntry raw=some e) :
    raw.agentUid.bind asNonNegativeInteger=some e.agentUid ∧ raw.generationId.bind asGeneration=e.generationId := by
  unfold validateEntry at h
  simp only [Option.bind_eq_bind,Option.bind_eq_some_iff] at h
  obtain ⟨uid,huid,port,hpor,fortress,hfor,generation,hgen,tombstone,htom,h⟩ := h
  split_ifs at h
  cases h
  refine ⟨Option.bind_eq_some_iff.mpr huid,?_⟩
  cases hg : raw.generationId with
  | none =>
    rw [hg] at hgen
    cases hgen
    rfl
  | some v =>
    rw [hg] at hgen
    obtain ⟨g,hg',rfl⟩ := Option.map_eq_some_iff.mp hgen
    exact hg'

theorem names_raw_iff {e : PfAnchorRegistryEntry} {uid : Nat} {g : Generation} :
    e.raw.Names uid g ↔ e.agentUid=uid ∧ e.generationId=some g := by
  obtain ⟨huid,hgen⟩ := validateEntry_names (validateEntry_raw e)
  rw [RawEntry.Names,huid,hgen,Option.some_inj]

theorem readCommitted_iff {u v : ConfinedUnion} {raws : List RawEntry} (h : readCommitted u raws=.ok v) :
    (∀ raw∈raws, ∃ e∈v.entries, validateEntry raw=some e) ∧ (∀ e∈u.entries, e∈v.entries) ∧
      ∀ e∈v.entries, e∈u.entries ∨ ∃ raw∈raws, validateEntry raw=some e := by
  induction raws generalizing u with
  | nil =>
    cases h
    exact ⟨fun raw hraw => (nomatch hraw),fun _ he => he,fun _ he => .inl he⟩
  | cons raw raws ih =>
    unfold readCommitted at h
    split at h
    · cases h
    · rename_i e hval
      split_ifs at h with hmem
      obtain ⟨hall,hkep,honl⟩ := ih h
      have hpus : e∈v.entries := hkep e (List.mem_append_right _ (List.mem_singleton_self e))
      refine ⟨?_,fun e' he' => hkep e' (List.mem_append_left _ he'),fun e' he' => ?_⟩
      · exact List.forall_mem_cons.mpr ⟨⟨e,hpus,hval⟩,hall⟩
      · rcases honl e' he' with hold | ⟨raw',hraw',hval'⟩
        · rcases List.mem_append.mp hold with hold | hold
          · exact .inl hold
          · rw [List.mem_singleton.mp hold]
            exact .inr ⟨raw,List.mem_cons_self ..,hval⟩
        · exact .inr ⟨raw',List.mem_cons_of_mem _ hraw',hval'⟩

theorem normalized_reads {file : RegistryFile} {s₀ : PfAnchorRegistryState} (h : file.normalized=.ok s₀) :
    (∀ raw∈file.rawEntries, ∃ e∈s₀.committed.entries, validateEntry raw=some e) ∧
      (∀ e∈s₀.committed.entries, ∃ raw∈file.rawEntries, validateEntry raw=some e) ∧
      s₀.generationFloor=file.floor := by
  cases file with
  | absent =>
    cases h
    exact ⟨List.forall_mem_nil _,List.forall_mem_nil _,rfl⟩
  | unreadable => cases h
  | object raw =>
    simp only [RegistryFile.normalized,RegistryFile.load,Except.bind,normalizeState] at h
    split_ifs at h
    split at h
    · cases h
    · rename_i raws hras
      cases hrea : readCommitted .empty raws with
      | error err =>
        rw [hrea] at h
        cases h
      | ok committed =>
        rw [hrea] at h
        cases h
        obtain ⟨hall,-,honl⟩ := readCommitted_iff hrea
        refine ⟨?_,fun e he => ?_,rfl⟩
        · rw [RegistryFile.rawEntries,hras]
          exact hall
        · rw [RegistryFile.rawEntries,hras]
          exact (honl e he).resolve_left List.not_mem_nil

theorem retains_object_iff {st : PfAnchorRegistryState} {uid n : Nat} :
    (RegistryFile.object st.raw).Retains uid n ↔
      (∃ e∈st.committed.entries, ∃ g, e.agentUid=uid ∧ e.generationId=some g ∧ n ≤ g.val) ∨
        AtLeast (RegistryFile.object st.raw).floor n := by
  have hraw : (RegistryFile.object st.raw).rawEntries=st.committed.entries.map (·.raw) := rfl
  rw [RegistryFile.Retains,hraw]
  simp only [List.mem_map,exists_exists_and_eq_and,names_raw_iff,and_assoc]

theorem atLeast_floor_object {st : PfAnchorRegistryState} {n : Nat} (h : AtLeast st.generationFloor n) :
    AtLeast (RegistryFile.object st.raw).floor n := by
  obtain ⟨loaded,hloa,-,-,-,-,parsed,hflo⟩ := normalizeState_raw st
  rw [← (normalized_reads (show (RegistryFile.object st.raw).normalized=.ok loaded from hloa)).2.2,hflo,atLeast_joinFloors_iff]
  exact .inl h

/-- The generations of dropped entries stay under the floor, and the floor never falls. -/
theorem atLeast_foldRemoved {desired prevs : List PfAnchorRegistryEntry} {floor : Option Generation} {n : Nat}
    (h : AtLeast floor n ∨ ∃ e∈prevs, ∃ g, e.generationId=some g ∧ n ≤ g.val ∧
      ∀ e'∈desired, e'.agentUid≠e.agentUid) : AtLeast (foldRemoved desired floor prevs) n := by
  induction prevs generalizing floor with
  | nil =>
    rcases h with h | ⟨e,he,-⟩
    · exact h
    · cases he
  | cons prev prevs ih =>
    unfold foldRemoved
    cases hg : prev.generationId with
    | none =>
      apply ih
      rcases h with h | ⟨e,he,g,hgen,hres⟩
      · exact .inl h
      · rcases List.mem_cons.mp he with rfl | he
        · rw [hg] at hgen
          cases hgen
        · exact .inr ⟨e,he,g,hgen,hres⟩
    | some g =>
      dsimp only
      split_ifs with hany
      · apply ih
        rcases h with h | ⟨e,he,g',hgen,hn,hnone⟩
        · exact .inl h
        · rcases List.mem_cons.mp he with rfl | he
          · obtain ⟨e',he',hsam⟩ := List.any_eq_true.mp hany
            exact absurd (of_decide_eq_true hsam) (hnone e' he')
          · exact .inr ⟨e,he,g',hgen,hn,hnone⟩
      · apply ih
        rcases h with h | ⟨e,he,g',hgen,hn,hnone⟩
        · exact .inl (atLeast_raiseFloor_iff.mpr (.inl h))
        · rcases List.mem_cons.mp he with rfl | he
          · rw [hg] at hgen
            cases hgen
            exact .inl (atLeast_raiseFloor_iff.mpr (.inr hn))
          · exact .inr ⟨e,he,g',hgen,hn,hnone⟩

def Host.Uses (h : GateHost) (uid n : Nat) : Prop :=
  (∃ record, h.rest.staging uid=some record ∧ record.generationId=n) ∨
    ∃ raw∈h.registry.rawEntries, ∃ g, raw.Names uid g ∧ g.val=n

def GateFiles.Stages (files : GateFiles) (uid n : Nat) : Prop :=
  ∃ record, files.staging uid=some record ∧ n ≤ record.generationId

def Host.stagedId (h : GateHost) (uid : Nat) : Option Nat := (h.rest.staging uid).map (·.generationId)

/-- Newest first: an id that appears in a staging record is above all that the uid used before. -/
def AllocatesAbove : List GateHost → Prop
  | h::h'::before =>
    (∀ uid n, h.stagedId uid=some n → h'.stagedId uid≠some n →
      ∀ m, (∃ s∈h'::before, s.Uses uid m) → m < n) ∧ AllocatesAbove (h'::before)
  | _ => True

def Covers (file : RegistryFile) (files : GateFiles) (history : List GateHost) : Prop :=
  ∀ uid n, (∃ h∈history, h.Uses uid n) → file.Retains uid n ∨ files.Stages uid n

def Tracked : List GateHost → Prop
  | [] => True
  | h::before => AllocatesAbove (h::before) ∧ Covers h.registry h.rest (h::before)

theorem covers_cons {file : RegistryFile} {files : GateFiles} {h : GateHost} {history : List GateHost}
    (hhea : ∀ uid n, h.Uses uid n → file.Retains uid n ∨ files.Stages uid n) (htai : Covers file files history) :
    Covers file files (h::history) := by
  rintro uid n ⟨s,hs,huse⟩
  rcases List.mem_cons.mp hs with rfl | hs
  · exact hhea uid n huse
  · exact htai uid n ⟨s,hs,huse⟩

theorem Host.Uses.covered {h : GateHost} {uid n : Nat} (huse : h.Uses uid n) :
    h.registry.Retains uid n ∨ h.rest.Stages uid n := by
  rcases huse with ⟨record,hrec,rfl⟩ | ⟨raw,hraw,g,hnam,rfl⟩
  · exact .inr ⟨record,hrec,le_rfl⟩
  · exact .inl (.inl ⟨raw,hraw,g,hnam,le_rfl⟩)

theorem tracked_initial (h : GateHost) : Tracked [h] :=
  ⟨trivial,covers_cons (fun _ _ huse => huse.covered) fun _ _ ⟨_,hs,_⟩ => nomatch hs⟩

/-- A step that stages no new id. -/
theorem Tracked.cons {h h' : GateHost} {before : List GateHost} (htra : Tracked (h::before))
    (hsta : ∀ uid n, h'.stagedId uid=some n → h.stagedId uid=some n)
    (hcov : ∀ uid n, h.registry.Retains uid n ∨ h.rest.Stages uid n →
      h'.registry.Retains uid n ∨ h'.rest.Stages uid n) :
    Tracked (h'::h::before) := by
  refine ⟨⟨fun uid n hn hnot => absurd (hsta uid n hn) hnot,htra.1⟩,covers_cons (fun _ _ huse => huse.covered) ?_⟩
  exact fun uid n husd => hcov uid n (htra.2 uid n husd)

structure SoundPlan (base : GateHost) (s₀ : PfAnchorRegistryState) (desired : ConfinedUnion) : Prop where
  raises : ∀ e∈s₀.committed.entries, ∀ g, e.generationId=some g → ∀ e'∈desired.entries,
    e'.agentUid=e.agentUid → ∃ g', e'.generationId=some g' ∧ g ≤ g'
  known : ∀ e∈desired.entries, ∀ g, e.generationId=some g →
    base.registry.Retains e.agentUid g.val ∨ base.rest.Stages e.agentUid g.val

section Mutation

variable {strict : Prop} {base h : GateHost} {s₀ : PfAnchorRegistryState} {desired : ConfinedUnion} {uid n : Nat}

theorem Visits.retains (hvis : Visits strict base s₀ desired h) (hloa : base.registry.normalized=.ok s₀)
    (hsou : SoundPlan base s₀ desired) (hret : base.registry.Retains uid n) : h.registry.Retains uid n := by
  obtain ⟨hrea,-,hflo⟩ := normalized_reads hloa
  rcases hvis.registry with heq | ⟨st,heq,hrec⟩
  · rw [heq]
    exact hret
  rw [heq,retains_object_iff]
  rcases hret with ⟨raw,hraw,g,hnam,hn⟩ | hn
  · -- An entry of the uid stays, or its generation is folded into the floor.
    obtain ⟨e,he,hval⟩ := hrea raw hraw
    obtain ⟨huid,hgen⟩ := validateEntry_names hval
    have heui : e.agentUid=uid := Option.some_inj.mp (huid.symm.trans hnam.1)
    have hege : e.generationId=some g := hgen.symm.trans hnam.2
    rcases hrec.union with ⟨hcom,-⟩ | ⟨hcom,hfol⟩
    · exact .inl ⟨e,hcom ▸ he,g,heui,hege,hn⟩
    · by_cases hkep : ∃ e'∈desired.entries, e'.agentUid=e.agentUid
      · obtain ⟨e',he',hsam⟩ := hkep
        obtain ⟨g',hg',hle⟩ := hsou.raises e he g hege e' he' hsam
        exact .inl ⟨e',hcom ▸ he',g',hsam.trans heui,hg',hn.trans hle⟩
      · refine .inr (atLeast_floor_object ?_)
        rw [hfol]
        exact atLeast_foldRemoved (.inr ⟨e,he,g,hege,hn,fun e' he' hsam => hkep ⟨e',he',hsam⟩⟩)
  · rw [← hflo] at hn
    refine .inr (atLeast_floor_object ?_)
    rcases hrec.union with ⟨-,hsam | hfol⟩ | ⟨-,hfol⟩
    · rw [hsam]
      exact hn
    · rw [hfol]
      exact atLeast_foldRemoved (.inl hn)
    · rw [hfol]
      exact atLeast_foldRemoved (.inl hn)

theorem Visits.uses (hvis : Visits strict base s₀ desired h) (hloa : base.registry.normalized=.ok s₀)
    (hsou : SoundPlan base s₀ desired) (huse : h.Uses uid n) :
    base.registry.Retains uid n ∨ base.rest.Stages uid n := by
  obtain ⟨-,hrea,-⟩ := normalized_reads hloa
  rcases huse with ⟨record,hrec,hn⟩ | ⟨raw,hraw,g,hnam,hn⟩
  · rw [hvis.rest] at hrec
    exact .inr ⟨record,hrec,hn.ge⟩
  rcases hvis.registry with heq | ⟨st,heq,hres⟩
  · rw [heq] at hraw
    exact .inl (.inl ⟨raw,hraw,g,hnam,hn.ge⟩)
  rw [heq] at hraw
  obtain ⟨e,he,rfl⟩ := List.mem_map.mp (show raw∈st.committed.entries.map (·.raw) from hraw)
  obtain ⟨rfl,hgen⟩ := names_raw_iff.mp hnam
  rcases hres.union with ⟨hcom,-⟩ | ⟨hcom,-⟩
  · rw [hcom] at he
    obtain ⟨raw',hraw',hval⟩ := hrea e he
    obtain ⟨huid,hgee⟩ := validateEntry_names hval
    exact .inl (.inl ⟨raw',hraw',g,⟨huid,hgee.trans hgen⟩,hn.ge⟩)
  · rw [hcom] at he
    rw [← hn]
    exact hsou.known e he g hgen

end Mutation

theorem mutate_tracked {F : (Nat → Call → Fault) → Prop} {pf : Pf} {base : GateHost}
    {apply : List PfAnchorRegistryEntry → Except GateError (List PfAnchorRegistryEntry)}
    (hsou : ∀ s₀ desired, Plan base apply s₀ desired → SoundPlan base s₀ desired) :
    Keeps Tracked F (fun h => h=base) (mutate pf apply)
      (fun st h => ∃ s₀ desired, Plan base apply s₀ desired ∧ Committed base s₀ desired st h) fun _ => True := by
  refine Keeps.weaken (Keeps.strengthen (J := fun history => Tracked history ∧ Covers base.registry base.rest history)
    (mutate_keeps False (fun hfal => hfal.elim) ?_) ?_ fun _ hbot => hbot.1) (fun _ hs => hs)
    (fun _ _ hs => hs) fun _ _ => trivial
  · rintro s₀ desired hpla h before h' ⟨htra,hcov⟩ hvis hvis'
    have hcov' : Covers base.registry base.rest (h'::h::before) :=
      covers_cons (fun _ _ huse => hvis'.uses hpla.load (hsou s₀ desired hpla) huse) hcov
    refine ⟨⟨⟨fun uid n hn hnot => ?_,htra.1⟩,fun uid n husd => ?_⟩,hcov'⟩
    · rw [Host.stagedId,hvis'.rest,← hvis.rest] at hn
      exact absurd hn hnot
    · rcases hcov' uid n husd with hret | hsta
      · exact .inl (hvis'.retains hpla.load (hsou s₀ desired hpla) hret)
      · rw [hvis'.rest]
        exact .inr hsta
  · rintro h before htra rfl
    exact ⟨htra,htra.2⟩

theorem SoundPlan.of_kept {base : GateHost} {s₀ : PfAnchorRegistryState} {desired : ConfinedUnion}
    (hloa : base.registry.normalized=.ok s₀)
    (hkep : ∀ e∈desired.entries, (∃ e₀∈s₀.committed.entries, e₀.agentUid=e.agentUid ∧
        e₀.generationId=e.generationId) ∨
      ((∀ e₀∈s₀.committed.entries, ∀ g, e₀.generationId=some g → e₀.agentUid=e.agentUid →
          ∃ g', e.generationId=some g' ∧ g ≤ g') ∧
        ∀ g, e.generationId=some g → base.rest.Stages e.agentUid g.val)) : SoundPlan base s₀ desired := by
  obtain ⟨-,hrea,-⟩ := normalized_reads hloa
  constructor
  · intro e he g hg e' he' hsam
    rcases hkep e' he' with ⟨e₀,he₀,huid,hgen⟩ | ⟨hrai,-⟩
    · -- One entry for a uid, so this is the one that was there.
      have heq : e₀=e := List.inj_on_of_nodup_map s₀.committed.distinct he₀ he (huid.trans hsam)
      rw [← hgen,heq]
      exact ⟨g,hg,le_rfl⟩
    · exact hrai e he g hg hsam.symm
  · intro e he g hg
    rcases hkep e he with ⟨e₀,he₀,huid,hgen⟩ | ⟨-,hsta⟩
    · obtain ⟨raw,hraw,hval⟩ := hrea e₀ he₀
      obtain ⟨hrad,hran⟩ := validateEntry_names hval
      exact .inl (.inl ⟨raw,hraw,g,⟨huid ▸ hrad,hran.trans (hgen.trans hg)⟩,le_rfl⟩)
    · exact .inr (hsta g hg)

theorem soundPlan_remove {base : GateHost} {uid : Nat} {s₀ : PfAnchorRegistryState} {desired : ConfinedUnion}
    (hpla : Plan base (Mutation.remove uid).apply s₀ desired) : SoundPlan base s₀ desired := by
  have hdes := Except.ok.inj hpla.desired_entries
  refine SoundPlan.of_kept hpla.load fun e he => .inl ⟨e,?_,rfl,rfl⟩
  rw [← hdes] at he
  exact List.mem_of_mem_filter he

variable {e : PfAnchorRegistryEntry}

theorem fallback_entry {fallback : TombstoneFallback} {uid : Nat}
    (h : fallback.entry uid=some e) : e.agentUid=uid ∧ e.generationId.map (·.val)=fallback.generationId := by
  obtain ⟨huid,hgen⟩ := validateEntry_names h
  constructor
  · rw [Option.bind_some,asNonNegativeInteger_natCast] at huid
    exact (Option.some_inj.mp huid).symm
  · rw [← hgen]
    cases hg : fallback.generationId with
    | none => rfl
    | some n =>
      -- The entry was accepted, so the id has headroom.
      unfold TombstoneFallback.entry validateEntry at h
      simp only [hg,Option.bind_eq_bind,Option.bind_eq_some_iff] at h
      obtain ⟨-,-,-,-,-,-,generation,hmem,-⟩ := h
      obtain ⟨g,hg',-⟩ := Option.map_eq_some_iff.mp hmem
      have hval : g.val=n := by
        rw [asGeneration,asNonNegativeInteger_natCast,Option.bind_some,Generation.ofNat?] at hg'
        split_ifs at hg'
        exact congrArg Subtype.val (Option.some_inj.mp hg').symm
      simp only [Option.map_some,Option.bind_some,hg',hval]

theorem soundPlan_tombstone {base : GateHost} {uid port : Nat} {fortress : String} {record : GenerationStagingRecord}
    (hrec : base.rest.staging uid=some record) {s₀ : PfAnchorRegistryState} {desired : ConfinedUnion}
    (hpla : Plan base (tombstoned uid (some ⟨port,fortress,some record.generationId⟩)) s₀ desired) :
    SoundPlan base s₀ desired ∧ (uid∉s₀.committed.uids →
      ∃ e∈desired.entries, ∃ g, e.agentUid=uid ∧ e.generationId=some g ∧ g.val=record.generationId) := by
  have hdes := hpla.desired_entries
  unfold tombstoned at hdes
  split_ifs at hdes with hany
  · refine ⟨SoundPlan.of_kept hpla.load fun e he => .inl ?_,fun hnot => ?_⟩
    · rw [← Except.ok.inj hdes] at he
      obtain ⟨e₀,he₀,rfl⟩ := List.mem_map.mp he
      refine ⟨e₀,he₀,?_⟩
      split_ifs
      · exact ⟨rfl,rfl⟩
      · exact ⟨rfl,rfl⟩
    · obtain ⟨e,he,hsam⟩ := List.any_eq_true.mp hany
      exact absurd (List.mem_map.mpr ⟨e,he,of_decide_eq_true hsam⟩) hnot
  · dsimp only at hdes
    split at hdes
    · cases hdes
    · rename_i added hadd
      have hent := Except.ok.inj hdes
      obtain ⟨hade,hadn⟩ := fallback_entry hadd
      obtain ⟨g,hg,hval⟩ := Option.map_eq_some_iff.mp hadn
      refine ⟨SoundPlan.of_kept hpla.load fun e he => ?_,fun _ => ⟨added,?_,g,hade,hg,hval⟩⟩
      · rw [← hent] at he
        rcases List.mem_append.mp he with he | he
        · exact .inl ⟨e,he,rfl,rfl⟩
        · rw [List.mem_singleton.mp he]
          refine .inr ⟨fun e₀ he₀ _ _ hsam => ?_,fun g' hg' => ⟨record,hade ▸ hrec,?_⟩⟩
          · exact absurd (List.any_eq_true.mpr ⟨e₀,he₀,decide_eq_true (hsam.trans hade)⟩) hany
          · rw [hg] at hg'
            cases hg'
            exact hval.le
      · rw [← hent]
        exact List.mem_append_right _ (List.mem_singleton_self _)

/-- Arming commits the id that is staged, which is above everything the registry retains. -/
theorem soundPlan_add {base : GateHost} {entry : RawEntry} {validated : PfAnchorRegistryEntry}
    (hval : validateEntry entry=some validated) {g : Generation} (hg : validated.generationId=some g)
    (hsta : base.rest.Stages validated.agentUid g.val)
    (habo : ∀ n, base.registry.Retains validated.agentUid n → n ≤ g.val)
    {s₀ : PfAnchorRegistryState} {desired : ConfinedUnion}
    (hpla : Plan base (Mutation.addOrUpdate entry).apply s₀ desired) :
    SoundPlan base s₀ desired ∧ validated∈desired.entries := by
  have hdes := hpla.desired_entries
  rw [Mutation.apply,hval] at hdes
  have hent := Except.ok.inj hdes
  obtain ⟨-,hrea,-⟩ := normalized_reads hpla.load
  refine ⟨SoundPlan.of_kept hpla.load fun e he => ?_,?_⟩
  · rw [← hent] at he
    rcases List.mem_append.mp he with he | he
    · exact .inl ⟨e,List.mem_of_mem_filter he,rfl,rfl⟩
    · rw [List.mem_singleton.mp he]
      refine .inr ⟨fun e₀ he₀ g₀ hg₀ hsam => ⟨g,hg,?_⟩,fun g' hg' => ?_⟩
      · obtain ⟨raw,hraw,hvalid₀⟩ := hrea e₀ he₀
        obtain ⟨hrad,hran⟩ := validateEntry_names hvalid₀
        exact habo g₀.val (.inl ⟨raw,hraw,g₀,⟨hsam ▸ hrad,hran.trans hg₀⟩,le_rfl⟩)
      · rw [hg] at hg'
        cases hg'
        exact hsta
  · rw [← hent]
    exact List.mem_append_right _ (List.mem_singleton_self _)

theorem classifyFrom_covers {raws : List RawEntry} {u v : ConfinedUnion} {quarantined result : List Quarantined}
    {index : Nat} (h : classifyFrom u quarantined index raws=(v,result)) :
    (∀ raw∈raws, (∃ e∈v.entries, validateEntry raw=some e) ∨ ∃ q∈result, q.raw=raw) ∧
      (∀ e∈u.entries, e∈v.entries) ∧ (∀ q∈quarantined, q∈result) ∧
      (∀ e∈v.entries, e∈u.entries ∨ ∃ raw∈raws, validateEntry raw=some e) ∧
      ∀ q∈result, q∈quarantined ∨ q.raw∈raws := by
  induction raws generalizing u quarantined index with
  | nil =>
    cases h
    exact ⟨fun raw hraw => (nomatch hraw),fun _ he => he,fun _ hq => hq,fun _ he => .inl he,fun _ hq => .inl hq⟩
  | cons raw raws ih =>
    -- The entry is set aside, or taken.
    have hset : ∀ q : Quarantined, q.raw=raw → classifyFrom u (quarantined++[q]) (index+1) raws=(v,result) →
        (∀ raw'∈raw::raws, (∃ e∈v.entries, validateEntry raw'=some e) ∨ ∃ q∈result, q.raw=raw') ∧
          (∀ e∈u.entries, e∈v.entries) ∧ (∀ q∈quarantined, q∈result) ∧
          (∀ e∈v.entries, e∈u.entries ∨ ∃ raw'∈raw::raws, validateEntry raw'=some e) ∧
          ∀ q∈result, q∈quarantined ∨ q.raw∈raw::raws := by
      intro q hq hret
      obtain ⟨hall,hkep,hqua,honl,hres⟩ := ih hret
      refine ⟨List.forall_mem_cons.mpr ⟨.inr ⟨q,hqua q (by simp),hq⟩,hall⟩,hkep,
        fun q' hq' => hqua q' (List.mem_append_left _ hq'),fun e he => ?_,fun q' hq' => ?_⟩
      · rcases honl e he with hold | ⟨raw',hraw',hval⟩
        · exact .inl hold
        · exact .inr ⟨raw',List.mem_cons_of_mem _ hraw',hval⟩
      · rcases hres q' hq' with hold | hmem
        · rcases List.mem_append.mp hold with hold | hold
          · exact .inl hold
          · rw [List.mem_singleton.mp hold,hq]
            exact .inr (List.mem_cons_self ..)
        · exact .inr (List.mem_cons_of_mem _ hmem)
    unfold classifyFrom at h
    split at h
    · exact hset _ rfl h
    · rename_i e hval
      split_ifs at h with hmem
      · exact hset _ rfl h
      · obtain ⟨hall,hkep,hqua,honl,hres⟩ := ih h
        have hpus : e∈v.entries := hkep e (List.mem_append_right _ (List.mem_singleton_self e))
        refine ⟨List.forall_mem_cons.mpr ⟨.inl ⟨e,hpus,hval⟩,hall⟩,
          fun e' he' => hkep e' (List.mem_append_left _ he'),hqua,fun e' he' => ?_,fun q hq => ?_⟩
        · rcases honl e' he' with hold | ⟨raw',hraw',hval'⟩
          · rcases List.mem_append.mp hold with hold | hold
            · exact .inl hold
            · rw [List.mem_singleton.mp hold]
              exact .inr ⟨raw,List.mem_cons_self ..,hval⟩
          · exact .inr ⟨raw',List.mem_cons_of_mem _ hraw',hval'⟩
        · rcases hres q hq with hold | hmem'
          · exact .inl hold
          · exact .inr (List.mem_cons_of_mem _ hmem')

theorem salvage_names {raw : RawEntry} (h : raw.salvage=some e) :
    raw.agentUid.bind asNonNegativeInteger=some e.agentUid ∧ raw.generationId.bind asGeneration=e.generationId := by
  obtain ⟨huid,hgen⟩ := validateEntry_names h
  refine ⟨huid,?_⟩
  rw [← hgen]
  cases raw.generationId.bind asGeneration with
  | none => rfl
  | some g => simp

/-- A salvage remembers a generation of a uid in an entry or among those it removed. -/
def Salvage.Remembers (s : Salvage) (uid n : Nat) : Prop :=
  (∃ e∈s.next.entries, ∃ g, e.agentUid=uid ∧ e.generationId=some g ∧ n ≤ g.val) ∨
    AtLeast s.removedGenerationMax n

variable {s : Salvage}

theorem Salvage.step_remembers {q : Quarantined} {uid n : Nat}
    (h : s.Remembers uid n ∨ ∃ g, q.raw.Names uid g ∧ n ≤ g.val) : (s.step q).Remembers uid n := by
  unfold Salvage.step
  dsimp only
  have hrem : ∀ findings, Salvage.Remembers
      { s with removedGenerationMax := joinFloors s.removedGenerationMax (q.raw.generationId.bind asGeneration),
               findings := findings } uid n := by
    intro findings
    rcases h with (hkep | hflo) | ⟨g,hnam,hn⟩
    · exact .inl hkep
    · exact .inr (atLeast_joinFloors_iff.mpr (.inl hflo))
    · exact .inr (atLeast_joinFloors_iff.mpr (.inr ⟨g,hnam.2,hn⟩))
  split
  · exact hrem _
  · rename_i e hsal
    by_cases hmem : e.agentUid∈s.next.uids
    · rw [dif_pos hmem]
      exact hrem _
    · rw [dif_neg hmem]
      rcases h with (⟨e',he',hres⟩ | hflo) | ⟨g,hnam,hn⟩
      · exact .inl ⟨e',List.mem_append_left _ he',hres⟩
      · exact .inr hflo
      · obtain ⟨huid,hgen⟩ := salvage_names hsal
        refine .inl ⟨e,List.mem_append_right _ (List.mem_singleton_self e),g,?_,?_,hn⟩
        · exact Option.some_inj.mp (huid.symm.trans hnam.1)
        · exact hgen.symm.trans hnam.2

theorem foldl_salvage_remembers {quarantined : List Quarantined} {uid n : Nat}
    (h : s.Remembers uid n ∨ ∃ q∈quarantined, ∃ g, q.raw.Names uid g ∧ n ≤ g.val) :
    (quarantined.foldl Salvage.step s).Remembers uid n := by
  induction quarantined generalizing s with
  | nil =>
    rcases h with h | ⟨q,hq,-⟩
    · exact h
    · cases hq
  | cons q quarantined ih =>
    apply ih
    rcases h with h | ⟨q',hq',hnam⟩
    · exact .inl (Salvage.step_remembers (.inl h))
    · rcases List.mem_cons.mp hq' with rfl | hq'
      · exact .inl (Salvage.step_remembers (.inr hnam))
      · exact .inr ⟨q',hq',hnam⟩

theorem foldl_salvage_next {quarantined : List Quarantined}
    (h : e∈(quarantined.foldl Salvage.step s).next.entries) :
    e∈s.next.entries ∨ ∃ q∈quarantined, q.raw.salvage=some e := by
  induction quarantined generalizing s with
  | nil => exact .inl h
  | cons q quarantined ih =>
    rcases ih h with hste | ⟨q',hq',hsal⟩
    · unfold Salvage.step at hste
      dsimp only at hste
      split at hste
      · exact .inl hste
      · rename_i e' hsal
        by_cases hmem : e'.agentUid∈s.next.uids
        · rw [dif_pos hmem] at hste
          exact .inl hste
        · rw [dif_neg hmem] at hste
          rcases List.mem_append.mp hste with hold | hnew
          · exact .inl hold
          · rw [List.mem_singleton.mp hnew]
            exact .inr ⟨q,List.mem_cons_self ..,hsal⟩
    · exact .inr ⟨q',List.mem_cons_of_mem _ hq',hsal⟩

section Repair

variable {base h : GateHost} {loaded : RawState} {valid : ConfinedUnion} {quarantined : List Quarantined} {uid n : Nat}

theorem RepairPlan.registry (hpla : RepairPlan base loaded valid quarantined) : base.registry=.object loaded := by
  have hloa := hpla.load
  unfold RegistryFile.load at hloa
  split at hloa
  · cases hloa
  · cases hloa
  · cases hloa
    assumption

theorem RepairPlan.classifyFrom (hpla : RepairPlan base loaded valid quarantined) :
    ∃ raws, base.registry.rawEntries=raws ∧ classifyFrom .empty [] 0 raws=(valid,quarantined) := by
  refine ⟨_,rfl,?_⟩
  have hcla := hpla.classify
  rw [hpla.registry,RegistryFile.rawEntries]
  unfold classifyCommitted at hcla
  split_ifs at hcla
  split at hcla
  · cases hcla
  · rename_i raws hraw
    rw [hraw]
    exact Except.ok.inj hcla

theorem atLeast_repairedFloor {info : FloorInfo} {salvage : Salvage} (hraw : info.raw=none → info.rawParsed=none)
    (h : AtLeast (joinFloors info.validFloor info.rawParsed) n ∨ AtLeast salvage.removedGenerationMax n) :
    AtLeast (repairedFloor info salvage) n := by
  have hcar : AtLeast info.validFloor n ∨ AtLeast salvage.removedGenerationMax n →
      AtLeast (joinFloors info.validFloor salvage.removedGenerationMax) n := atLeast_joinFloors_iff.mpr
  unfold repairedFloor
  cases hr : info.raw with
  | none =>
    rw [hraw hr] at h
    exact hcar h
  | some raw =>
    cases hp : info.rawParsed with
    | none =>
      rw [hp] at h
      exact atLeast_joinFloors_iff.mpr (.inl (hcar h))
    | some g =>
      rw [hp] at h
      refine atLeast_raiseFloor_iff.mpr ?_
      rcases h with h | h
      · rcases atLeast_joinFloors_iff.mp h with h | ⟨g',hg',hn⟩
        · exact .inl (hcar (.inl h))
        · cases hg'
          exact .inr hn
      · exact .inl (hcar (.inr h))

theorem rawParsed_of_raw_none (loaded : RawState) (h : (classifyGenerationFloor loaded).raw=none) :
    (classifyGenerationFloor loaded).rawParsed=none := by
  rw [classifyGenerationFloor] at h ⊢
  rw [List.head?_eq_none_iff] at h
  rw [h]
  rfl

theorem Repairs.retains (hrep : Repairs base loaded valid quarantined h)
    (hpla : RepairPlan base loaded valid quarantined) (hret : base.registry.Retains uid n) :
    h.registry.Retains uid n := by
  rcases hrep.registry with heq | ⟨reference,heq⟩
  · rw [heq]
    exact hret
  rw [heq,retains_object_iff]
  have hflo : ∀ m, AtLeast (joinFloors (classifyGenerationFloor loaded).validFloor
        (classifyGenerationFloor loaded).rawParsed) m ∨ AtLeast (salvaged valid quarantined).removedGenerationMax m →
      AtLeast (RegistryFile.object (repairedState loaded valid quarantined reference).raw).floor m := fun m hm =>
    atLeast_floor_object (atLeast_repairedFloor (rawParsed_of_raw_none loaded) hm)
  obtain ⟨raws,hras,hcla⟩ := hpla.classifyFrom
  obtain ⟨hall,-⟩ := classifyFrom_covers hcla
  rcases hret with ⟨raw,hraw,g,hnam,hn⟩ | hn
  · have hrem : (salvaged valid quarantined).Remembers uid n := by
      apply foldl_salvage_remembers
      rcases hall raw (hras ▸ hraw) with ⟨e,he,hval⟩ | ⟨q,hq,rfl⟩
      · obtain ⟨huid,hgen⟩ := validateEntry_names hval
        exact .inl (.inl ⟨e,he,g,Option.some_inj.mp (huid.symm.trans hnam.1),hgen.symm.trans hnam.2,hn⟩)
      · exact .inr ⟨q,hq,g,hnam,hn⟩
    rcases hrem with hkep | hred
    · exact .inl hkep
    · exact .inr (hflo n (.inr hred))
  · rw [hpla.registry] at hn
    exact .inr (hflo n (.inl hn))

theorem Repairs.uses (hrep : Repairs base loaded valid quarantined h)
    (hpla : RepairPlan base loaded valid quarantined) (huse : h.Uses uid n) :
    base.registry.Retains uid n ∨ base.rest.Stages uid n := by
  rcases huse with ⟨record,hrec,hn⟩ | ⟨raw,hraw,g,hnam,hn⟩
  · rw [hrep.rest] at hrec
    exact .inr ⟨record,hrec,hn.ge⟩
  rcases hrep.registry with heq | ⟨reference,heq⟩
  · rw [heq] at hraw
    exact .inl (.inl ⟨raw,hraw,g,hnam,hn.ge⟩)
  rw [heq] at hraw
  obtain ⟨e,he,rfl⟩ := List.mem_map.mp
    (show raw∈(salvaged valid quarantined).next.entries.map (·.raw) from hraw)
  obtain ⟨rfl,hgen⟩ := names_raw_iff.mp hnam
  obtain ⟨raws,hras,hcla⟩ := hpla.classifyFrom
  obtain ⟨-,-,-,honl,hres⟩ := classifyFrom_covers hcla
  rcases foldl_salvage_next he with hval | ⟨q,hq,hsal⟩
  · rcases honl e hval with hnil | ⟨raw,hraw',hval'⟩
    · cases hnil
    · obtain ⟨huid,hgee⟩ := validateEntry_names hval'
      exact .inl (.inl ⟨raw,hras ▸ hraw',g,⟨huid,hgee.trans hgen⟩,hn.ge⟩)
  · obtain ⟨huid,hgee⟩ := salvage_names hsal
    rcases hres q hq with hnil | hmem
    · cases hnil
    · exact .inl (.inl ⟨q.raw,hras ▸ hmem,g,⟨huid,hgee.trans hgen⟩,hn.ge⟩)

end Repair

theorem repair_tracked {F : (Nat → Call → Fault) → Prop} {pf : Pf} {base : GateHost} :
    Keeps Tracked F (fun h => h=base) (repairQuarantined pf) (fun _ _ => True) fun _ => True := by
  refine Keeps.weaken (Keeps.strengthen (J := fun history => Tracked history ∧ Covers base.registry base.rest history)
    (repair_keeps ?_) ?_ fun _ hbot => hbot.1) (fun _ hs => hs) (fun _ _ _ => trivial) fun _ _ => trivial
  · rintro loaded valid quarantined hpla h before h' ⟨htra,hcov⟩ hrep hrep'
    have hcov' : Covers base.registry base.rest (h'::h::before) :=
      covers_cons (fun _ _ huse => hrep'.uses hpla huse) hcov
    refine ⟨⟨⟨fun uid n hn hnot => ?_,htra.1⟩,fun uid n husd => ?_⟩,hcov'⟩
    · rw [Host.stagedId,hrep'.rest,← hrep.rest] at hn
      exact absurd hn hnot
    · rcases hcov' uid n husd with hret | hsta
      · exact .inl (hrep'.retains hpla hret)
      · rw [hrep'.rest]
        exact .inr hsta
  · rintro h before htra rfl
    exact ⟨htra,htra.2⟩

section Staging

variable {F : (Nat → Call → Fault) → Prop} {h : GateHost} {before : List GateHost} {uid n : Nat}

theorem stagedId_stage (record : Option GenerationStagingRecord) (uid' : Nat) :
    Host.stagedId { h with rest := h.rest.stage uid record } uid' =
      if uid'=uid then record.map (·.generationId) else h.stagedId uid' := by
  unfold Host.stagedId
  by_cases hsam : uid'=uid
  · rw [if_pos hsam,hsam,GateFiles.staging_stage_self]
  · rw [if_neg hsam,GateFiles.staging_stage_of_ne _ _ hsam]

theorem stages_stage_of_ne {files : GateFiles} {record : Option GenerationStagingRecord} {uid' : Nat}
    (hne : uid'≠uid) : (files.stage uid record).Stages uid' n ↔ files.Stages uid' n := by
  rw [GateFiles.Stages,GateFiles.staging_stage_of_ne _ _ hne,GateFiles.Stages]

variable {record : GenerationStagingRecord}

theorem Tracked.stage_new (htra : Tracked (h::before))
    (hnone : h.rest.staging uid=none) (habo : ∀ n, h.registry.Retains uid n → n < record.generationId) :
    Tracked ({ h with rest := h.rest.stage uid (some record) } :: h::before) := by
  have hsta : (h.rest.stage uid (some record)).Stages uid record.generationId :=
    ⟨record,Function.update_self ..,le_rfl⟩
  -- So far nothing is staged for the uid, so what it used is retained.
  have huse : ∀ m, (∃ s∈h::before, s.Uses uid m) → m < record.generationId := by
    intro m hm
    rcases htra.2 uid m hm with hret | ⟨r,hr,-⟩
    · exact habo m hret
    · rw [hnone] at hr
      cases hr
  refine ⟨⟨fun uid' n hn hnot m hm => ?_,htra.1⟩,covers_cons (fun _ _ huss => huss.covered) ?_⟩
  · rw [stagedId_stage] at hn
    split_ifs at hn with hsam
    · cases hn
      rw [hsam] at hm
      exact huse m hm
    · exact absurd hn hnot
  · intro uid' m hm
    by_cases hsam : uid'=uid
    · rw [hsam] at hm ⊢
      exact .inr ⟨record,Function.update_self ..,(huse m hm).le⟩
    · rcases htra.2 uid' m hm with hret | hstd
      · exact .inl hret
      · exact .inr ((stages_stage_of_ne hsam).mpr hstd)

theorem Tracked.stage_same (htra : Tracked (h::before))
    (hsam : h.stagedId uid=some record.generationId) :
    Tracked ({ h with rest := h.rest.stage uid (some record) } :: h::before) := by
  apply htra.cons
  · intro uid' n hn
    rw [stagedId_stage] at hn
    split_ifs at hn with huid
    · cases hn
      rw [huid]
      exact hsam
    · exact hn
  · intro uid' m hm
    rcases hm with hret | hsta
    · exact .inl hret
    · by_cases huid : uid'=uid
      · rw [huid] at hsta ⊢
        obtain ⟨r,hr,hm⟩ := hsta
        rw [Host.stagedId,hr] at hsam
        exact .inr ⟨record,Function.update_self ..,hm.trans (Option.some_inj.mp hsam).le⟩
      · exact .inr ((stages_stage_of_ne huid).mpr hsta)

theorem Tracked.unstage (htra : Tracked (h::before))
    (hret : ∀ n, h.stagedId uid=some n → h.registry.Retains uid n) :
    Tracked ({ h with rest := h.rest.stage uid none } :: h::before) := by
  apply htra.cons
  · intro uid' n hn
    rw [stagedId_stage] at hn
    split_ifs at hn
    · cases hn
    · exact hn
  · intro uid' m hm
    rcases hm with hred | hsta
    · exact .inl hred
    · by_cases huid : uid'=uid
      · rw [huid] at hsta ⊢
        obtain ⟨r,hr,hm⟩ := hsta
        exact .inl ((hret r.generationId (by rw [Host.stagedId,hr]; rfl)).mono hm)
      · exact .inr ((stages_stage_of_ne huid).mpr hsta)

theorem Tracked.same (htra : Tracked (h::before)) {h' : GateHost} (hreg : h'.registry=h.registry)
    (hsta : h'.rest.staging=h.rest.staging) : Tracked (h'::h::before) := by
  apply htra.cons
  · intro uid n hn
    rw [Host.stagedId,hsta] at hn
    exact hn
  · intro uid n hn
    rw [hreg,GateFiles.Stages,hsta]
    exact hn

theorem saveStaging_tracked {P Q : GateHost → Prop}
    (hsav : ∀ h before, Tracked (h::before) → P h →
      Tracked ({ h with rest := h.rest.stage record.agentUid (some record) } :: h::before) ∧
        Q { h with rest := h.rest.stage record.agentUid (some record) }) :
    Keeps Tracked F P (saveStaging record) (fun _ => Q) fun _ => True := by
  refine Keeps.write ?_ (fun _ _ _ _ _ _ _ _ => trivial) fun _ _ => trivial
  intro h before h' htra hP hwri
  cases hwri
  exact hsav h before htra hP

theorem deleteStaging_tracked {P : GateHost → Prop}
    (hP : ∀ h : GateHost, P h → ∀ n, h.stagedId uid=some n → h.registry.Retains uid n) :
    Keeps Tracked F P (deleteStaging uid) (fun _ _ => True) fun _ => True := by
  refine Keeps.write ?_ (fun _ _ _ _ _ _ _ _ => trivial) fun _ _ => trivial
  intro h before h' htra hP' hwri
  cases hwri
  exact ⟨htra.unstage (hP h hP'),trivial⟩

end Staging

/-- Recovery does not lose the id of the record it deletes: the registry retains it, or the record is past the
owner check and the registry has no entry of the uid, so that the tombstone takes the id over. -/
def Host.Recoverable (h : GateHost) (uid : Nat) : Prop :=
  ∀ record, h.rest.staging uid=some record → h.registry.Retains uid record.generationId ∨
    (record.phase≠.ownerChecked ∧
      ∀ listing, h.registry.list=.ok listing → uid∉listing.entries.map (·.agentUid))

theorem Committed.visits {ρ : Type} {base h : Host ρ} {s₀ st : PfAnchorRegistryState} {desired : ConfinedUnion}
    (hcom : Committed base s₀ desired st h) : Visits False base s₀ desired h :=
  ⟨hcom.rest,.inr (.inr hcom.anchor),
    .inr ⟨st,hcom.registry,hcom.raw,.inr ⟨hcom.committed,hcom.floor⟩⟩,
    fun hfal => hfal.elim⟩

theorem recoverLocked_tracked {env : GateEnv} {F : (Nat → Call → Fault) → Prop} {uid : Nat} {base : GateHost}
    (hrec : base.Recoverable uid) :
    Keeps Tracked F (fun h => h=base) (recoverLocked env uid) (fun _ _ => True) fun _ => True := by
  unfold recoverLocked
  refine Keeps.bind (R := fun record h => h=base ∧ base.rest.staging uid=record) (Keeps.read ?_ fun _ _ => trivial)
    fun record => ?_
  · rintro h record rfl hloa
    refine ⟨rfl,?_⟩
    split at hloa
    · cases hloa
      assumption
    · split_ifs at hloa
      cases hloa
      assumption
  cases record with
  | none => exact Keeps.pure fun _ _ => trivial
  | some record =>
    refine Keeps.of_each fun h₀ => ?_
    rintro ⟨rfl,hred⟩
    have hsta : ∀ n, Host.stagedId h₀ uid=some n → n=record.generationId := by
      intro n hn
      rw [Host.stagedId,hred] at hn
      exact (Option.some_inj.mp hn).symm
    refine Keeps.bind (R := fun _ h => h=h₀)
      (Keeps.weaken (Keeps.attempt (G := fun _ => True) (Keeps.read (Q := fun _ h => h=h₀) (E := fun h => h=h₀)
        (fun _ _ hs _ => hs) fun _ hs => hs) fun _ _ => trivial) (fun _ hs => hs) ?_ fun _ _ => trivial)
      fun checked => ?_
    · intro r h hr
      cases r with
      | ok b => exact hr.1 b rfl
      | error err => exact hr.2 err rfl
    -- A pass that may have been armed is dropped before its record.
    have htom : record.phase≠.ownerChecked → Keeps Tracked F (fun h => h=h₀) (do
        let _ ← tombstone env.pf uid (some ⟨record.gatePort,record.fortressPath,some record.generationId⟩)
        deleteStaging uid
        pure (⟨.tombstoned,some record.generationId,some (checked.toOption.getD false)⟩ :
          GenerationRecoveryOutcome)) (fun _ _ => True) fun _ => True := by
      intro hpha
      refine Keeps.bind (mutate_tracked fun s₀ desired hpla => (soundPlan_tombstone hred hpla).1) fun st =>
        Keeps.bind (R := fun _ _ => True) (deleteStaging_tracked ?_) fun _ => Keeps.pure fun _ _ => trivial
      rintro h ⟨s₀,desired,hpla,hcom⟩ n hn
      rw [Host.stagedId,hcom.rest] at hn
      rw [hsta n hn]
      obtain ⟨hsou,hadd⟩ := soundPlan_tombstone hred hpla
      rcases hrec record hred with hret | ⟨-,habs⟩
      · exact hcom.visits.retains hpla.load hsou hret
      · have hnot : uid∉s₀.committed.uids := habs ⟨_,_,_⟩ (by rw [RegistryFile.list,hpla.load]; rfl)
        obtain ⟨e,he,g,huid,hgen,hval⟩ := hadd hnot
        rw [hcom.registry,retains_object_iff,hcom.committed]
        exact .inl ⟨e,he,g,huid,hgen,hval.ge⟩
    cases hpha : record.phase with
    | ownerChecked =>
      refine Keeps.bind (R := fun _ _ => True) (deleteStaging_tracked ?_) fun _ => Keeps.pure fun _ _ => trivial
      rintro h rfl n hn
      rw [hsta n hn]
      rcases hrec record hred with hret | ⟨hnot,-⟩
      · exact hret
      · exact absurd hpha hnot
    | pfLoaded => exact htom (by rw [hpha]; decide)
    | manifestReloaded => exact htom (by rw [hpha]; decide)

theorem computeNextGenerationId_above {file : RegistryFile} {listing : RegistryListing} (hlis : file.list=.ok listing)
    {uid : Nat} {g : Generation} (hnex : computeNextGenerationId
      ((listing.entries.find? fun e => e.agentUid=uid).bind (·.generationId)) none listing.generationFloor=.ok g) :
    ∀ n, file.Retains uid n → n < g.val := by
  have hnor : ∃ s₀, file.normalized=.ok s₀ ∧ listing.entries=s₀.committed.entries ∧
      listing.generationFloor=s₀.generationFloor := by
    rw [RegistryFile.list] at hlis
    cases hs : file.normalized with
    | error err =>
      rw [hs] at hlis
      cases hlis
    | ok s₀ =>
      rw [hs] at hlis
      cases hlis
      exact ⟨s₀,rfl,rfl,rfl⟩
  obtain ⟨s₀,hloa,hent,hflo⟩ := hnor
  obtain ⟨hrea,-,hfil⟩ := normalized_reads hloa
  have hval : g.val=max (max ((((listing.entries.find? fun e => e.agentUid=uid).bind
      (·.generationId)).map (·.val)).getD 0) 0) ((listing.generationFloor.map (·.val)).getD 0)+1 := by
    unfold computeNextGenerationId Generation.ofNat? at hnex
    dsimp only at hnex
    split_ifs at hnex
    exact congrArg Subtype.val (Except.ok.inj hnex).symm
  rintro n (⟨raw,hraw,g',hnam,hn⟩ | ⟨g',hg',hn⟩)
  · obtain ⟨e,he,hvad⟩ := hrea raw hraw
    obtain ⟨huid,hgee⟩ := validateEntry_names hvad
    have heui : e.agentUid=uid := Option.some_inj.mp (huid.symm.trans hnam.1)
    -- One entry for a uid, so it is the one the lookup finds.
    have hfind : (listing.entries.find? fun e => e.agentUid=uid)=some e := by
      rw [hent]
      cases hf : s₀.committed.entries.find? fun e => e.agentUid=uid with
      | none => exact absurd (decide_eq_true heui) (List.find?_eq_none.mp hf e he)
      | some e' =>
        have he'uid : e'.agentUid=uid := by simpa using List.find?_some hf
        rw [List.inj_on_of_nodup_map s₀.committed.distinct (List.mem_of_find?_eq_some hf) he (he'uid.trans heui.symm)]
    have hgen : e.generationId=some g' := hgee.symm.trans hnam.2
    rw [hfind,Option.bind_some,hgen,Option.map_some,Option.getD_some] at hval
    omega
  · rw [← hfil,← hflo] at hg'
    rw [hg',Option.map_some,Option.getD_some] at hval
    omega

theorem armAndPublish_tracked {env : GateEnv} {F : (Nat → Call → Fault) → Prop} {base : CommittedGeneration}
    {g : Generation} (hg : base.generationId=g.val) :
    Keeps Tracked F (fun h => h.rest.staging base.agentUid=none ∧
        ∀ n, h.registry.Retains base.agentUid n → n < base.generationId)
      (armAndPublish env base) (fun _ _ => True) fun _ => True := by
  -- From the first save on the record is there, with the id that everything retained is below.
  let staged : GateHost → Prop := fun h => h.stagedId base.agentUid=some base.generationId ∧
    ∀ n, h.registry.Retains base.agentUid n → n ≤ base.generationId
  let armed : GateHost → Prop := fun h => h.stagedId base.agentUid=some base.generationId ∧
    h.registry.Retains base.agentUid base.generationId
  have hsam : ∀ (phase : GenerationPhase) (P : GateHost → Prop),
      (∀ h, P h → h.stagedId base.agentUid=some base.generationId) →
      (∀ h, P h → P { h with rest := h.rest.stage base.agentUid (some { base with phase := phase }) }) →
      Keeps Tracked F P (saveStaging { base with phase := phase }) (fun _ => P) fun _ => True := by
    intro phase P hid hP
    exact saveStaging_tracked fun h before htra hs => ⟨htra.stage_same (hid h hs),hP h hs⟩
  have hnew : ∀ (phase : GenerationPhase) (h : GateHost),
      Host.stagedId { h with rest := h.rest.stage base.agentUid (some { base with phase := phase }) } base.agentUid =
        some base.generationId := by
    intro phase h
    rw [stagedId_stage,if_pos rfl]
    rfl
  unfold armAndPublish
  refine Keeps.bind (R := fun _ => staged) (saveStaging_tracked ?_) fun _ =>
    Keeps.bind (R := fun _ => staged) (hsam _ _ (fun _ hs => hs.1) fun h hs => ⟨hnew _ h,hs.2⟩) fun _ =>
      Keeps.bind (R := fun _ => armed) ?_ fun _ =>
        Keeps.bind (R := fun _ => armed) (hsam _ _ (fun _ hs => hs.1) fun h hs => ⟨hnew _ h,hs.2⟩) fun _ =>
          Keeps.bind (R := fun _ => armed) (Keeps.write ?_ (fun _ _ _ _ _ _ _ _ => trivial) fun _ _ => trivial) fun _ =>
            Keeps.bind (R := fun _ _ => True) (deleteStaging_tracked ?_) fun _ => Keeps.pure fun _ _ => trivial
  · intro h before htra hs
    exact ⟨htra.stage_new hs.1 hs.2,hnew _ h,fun n hn => (hs.2 n hn).le⟩
  · refine Keeps.of_each fun h₀ hs => ?_
    unfold armEntry addOrUpdate
    refine Keeps.bind (R := fun _ => armed) ?_ fun _ => Keeps.pure fun _ hs => hs
    split
    · exact Keeps.fail fun _ _ => trivial
    · rename_i validated hval
      obtain ⟨huid,hgen⟩ := validateEntry_names hval
      have hvui : validated.agentUid=base.agentUid := by
        rw [Option.bind_some,asNonNegativeInteger_natCast] at huid
        exact (Option.some_inj.mp huid).symm
      have hvge : validated.generationId=some g := by
        rw [← hgen,Option.bind_some,hg,asGeneration_val]
      have hsta : h₀.rest.Stages validated.agentUid g.val := by
        obtain ⟨record,hrec,hid⟩ := Option.map_eq_some_iff.mp hs.1
        exact ⟨record,hvui ▸ hrec,(hid.trans hg).ge⟩
      have hpla : ∀ s₀ desired, Plan h₀ (fun committed =>
          .ok (committed.filter (fun e => e.agentUid≠validated.agentUid)++[validated])) s₀ desired →
          SoundPlan h₀ s₀ desired ∧ validated∈desired.entries := by
        intro s₀ desired hpln
        refine soundPlan_add hval hvge hsta (fun n hn => hg ▸ hs.2 n (hvui ▸ hn)) ⟨hpln.load,?_⟩
        rw [Mutation.apply,hval]
        exact hpln.desired
      refine Keeps.weaken (mutate_tracked fun s₀ desired hpln => (hpla s₀ desired hpln).1) (fun _ hs => hs) ?_
        fun _ hs => hs
      rintro st h ⟨s₀,desired,hpln,hcom⟩
      refine ⟨?_,?_⟩
      · rw [Host.stagedId,hcom.rest]
        exact hs.1
      · rw [hcom.registry,retains_object_iff,hcom.committed]
        exact .inl ⟨validated,(hpla s₀ desired hpln).2,g,hvui,hvge,hg.le⟩
  · intro h before h' htra hs hwri
    cases hwri
    exact ⟨htra.same rfl rfl,hs⟩
  · intro h hs n hn
    rw [hs.1] at hn
    rw [← Option.some_inj.mp hn]
    exact hs.2

theorem attemptBringUp_tracked {F : (Nat → Call → Fault) → Prop} (env : GateEnv) (uid : Nat) (fortress : String)
    {base : GateHost} :
    Keeps Tracked F (fun h => h=base) (attemptBringUp env uid fortress) (fun _ _ => True) fun _ => True := by
  unfold attemptBringUp
  refine Keeps.bind (R := fun record h => h.rest.staging uid=record) (Keeps.read ?_ fun _ _ => trivial)
    fun record => ?_
  · rintro h record - hloa
    split at hloa
    · cases hloa
      assumption
    · split_ifs at hloa
      cases hloa
      assumption
  cases record with
  | some record => exact Keeps.fail fun _ _ => trivial
  | none =>
    refine Keeps.bind (R := fun _ h => h.rest.staging uid=none)
      (Keeps.write ?_ (fun _ _ _ _ _ _ _ _ => trivial) fun _ _ => trivial) fun _ => ?_
    · intro h before h' htra hs hwri
      split_ifs at hwri
      cases hwri
      exact ⟨htra.same rfl rfl,hs⟩
    refine Keeps.weaken (Keeps.attempt (G := fun _ => True) (Keeps.of_each (Q := fun _ _ => True) (E := fun _ => True)
      fun h₀ hnone => ?_) fun _ _ => trivial) (fun _ hs => hs) (fun _ _ _ => trivial) fun _ _ => trivial
    unfold bringUpSteps readEntry readGenerationFloor
    refine Keeps.bind (R := fun committed h => h=h₀ ∧ ∃ listing, h₀.registry.list=.ok listing ∧
      committed=listing.entries.find? fun e => e.agentUid=uid) ?_ fun committed => ?_
    · refine Keeps.bind (R := fun listing h => h=h₀ ∧ h₀.registry.list=.ok listing) (Keeps.read ?_ fun _ _ => trivial)
        fun listing => Keeps.pure fun h hs => ⟨hs.1,listing,hs.2,rfl⟩
      rintro h listing rfl hlis
      exact ⟨rfl,hlis⟩
    refine Keeps.bind (R := fun floor h => h=h₀ ∧ ∃ listing, h₀.registry.list=.ok listing ∧
      committed=(listing.entries.find? fun e => e.agentUid=uid) ∧ floor=listing.generationFloor) ?_ fun floor => ?_
    · refine Keeps.bind (R := fun listing h => h=h₀ ∧ h₀.registry.list=.ok listing ∧
        committed=listing.entries.find? fun e => e.agentUid=uid) (Keeps.read ?_ fun _ _ => trivial)
        fun listing => Keeps.pure fun h hs => ⟨hs.1,listing,hs.2.1,hs.2.2,rfl⟩
      rintro h listing ⟨rfl,listing',hlis',hcom⟩ hlis
      rw [hlis] at hlis'
      cases hlis'
      exact ⟨rfl,hlis,hcom⟩
    refine Keeps.bind (R := fun g h => h=h₀ ∧ ∀ n, h₀.registry.Retains uid n → n < g.val) (Keeps.ofExcept ?_ ?_)
      fun g => ?_
    · rintro g h hnex ⟨rfl,listing,hlis,rfl,rfl⟩
      exact ⟨rfl,computeNextGenerationId_above hlis hnex⟩
    · exact fun _ _ => trivial
    refine Keeps.bind (R := fun _ h => h=h₀ ∧ ∀ n, h₀.registry.Retains uid n → n < g.val)
      (Keeps.read (fun _ _ hs _ => hs) fun _ _ => trivial) fun owned => ?_
    split_ifs
    · refine (armAndPublish_tracked (g := g) rfl).weaken ?_ (fun _ _ hs => hs) fun _ hs => hs
      rintro h ⟨rfl,habo⟩
      exact ⟨hnone,habo⟩
    · exact Keeps.fail fun _ _ => trivial

theorem recoverAndRelease_tracked {env : GateEnv} {F : (Nat → Call → Fault) → Prop} {uid : Nat} {err : GateError}
    {base : GateHost} (hrec : base.Recoverable uid) :
    Keeps Tracked F (fun h => h=base) (recoverAndRelease env uid err) (fun _ _ => True) fun _ => True := by
  unfold recoverAndRelease
  refine Keeps.attempt_bind (recoverLocked_tracked hrec) (fun _ hs => hs) (fun _ => ?_)
    fun _ => Keeps.fail fun _ hs => hs
  refine Keeps.bind (R := fun _ _ => True) (Keeps.weaken (Keeps.attempt (Q := fun _ _ => True) (E := fun _ => True)
    (G := fun _ => True) (Keeps.write ?_ (fun _ _ _ _ _ _ _ _ => trivial) fun _ _ => trivial) fun _ hs => hs)
    (fun _ hs => hs) (fun _ _ _ => trivial) fun _ hs => hs) fun _ => Keeps.fail fun _ hs => hs
  intro h before h' htra _ hwri
  cases hwri
  exact ⟨htra.same rfl rfl,trivial⟩

inductive GateAct where
  | bringUp (env : GateEnv) (request : GenerationBringUpRequest)
  | recover (env : GateEnv) (uid : Nat)
  | remove (pf : Pf) (uid : Nat)
  | repairQuarantined (pf : Pf)
  | gateExits (port : Nat)

/-- One call of the coordinator or the registry, or the exit of a listener, and what its calls meet. -/
structure GateProcess where
  act : GateAct
  fault : Nat → Call → Fault

def gateExit (port : Nat) : GateProg Unit := fun w =>
  (.ok (),w.set { w.state with
    rest := { w.state.rest with held := w.state.rest.held.filter (· ≠ port) } })

def GateProcess.run (p : GateProcess) : GateProg Unit :=
  match p.act with
  | .bringUp env request => do let _ ← bringUp env request; pure ()
  | .recover env uid => do let _ ← recoverLocked env uid; pure ()
  | .remove pf uid => do let _ ← remove pf uid; pure ()
  | .repairQuarantined pf => do let _ ← repairQuarantined pf; pure ()
  | .gateExits port => gateExit port

def runGate (ps : List GateProcess) (w : World Call GateHost) : World Call GateHost :=
  runs GateProcess.run GateProcess.fault ps w

/-- Every recovery the process comes to, also the one a bring-up makes after a failure, finds a host on which it
loses no id. -/
def RecoversSafely (w : World Call GateHost) (p : GateProcess) : Prop :=
  match p.act with
  | .bringUp env request =>
    ∀ err w', attemptBringUp env request.agentUid request.fortressPath w=(.ok (.error err),w') →
      w'.state.Recoverable request.agentUid
  | .recover _ uid => w.state.Recoverable uid
  | _ => True

theorem bringUpLocked_tracked {env : GateEnv} {uid : Nat} {fortress : String} {w : World Call GateHost}
    (hrec : ∀ err w', attemptBringUp env uid fortress w=(.ok (.error err),w') → w'.state.Recoverable uid)
    (htra : Tracked w.history) : Tracked (bringUpLocked env uid fortress w).2.history := by
  have hatt := attemptBringUp_tracked (F := fun _ => True) env uid fortress w trivial htra rfl
  unfold bringUpLocked
  simp only [Bind.bind]
  generalize hr : attemptBringUp env uid fortress w=r at hatt
  obtain ⟨ended,w'⟩ := r
  cases ended with
  | ok result =>
    cases result with
    | ok committed => exact hatt.2.1
    | error err =>
      exact ((recoverAndRelease_tracked (F := fun _ => True) (hrec err w' hr)) w' trivial hatt.2.1 rfl).2.1
  | error err => exact hatt.2.1
  | crashed => exact hatt.2.1

theorem GateProcess.run_tracked {p : GateProcess} {w : World Call GateHost} (hrec : RecoversSafely w p)
    (htra : Tracked w.history) : Tracked (p.run w).2.history := by
  have hdis : ∀ {α : Type} (m : GateProg α), Tracked (m w).2.history →
      Tracked ((do let _ ← m; pure () : GateProg Unit) w).2.history := by
    intro α m hm
    simp only [Bind.bind]
    generalize m w=r at hm
    obtain ⟨ended,w'⟩ := r
    cases ended <;> exact hm
  unfold GateProcess.run
  unfold RecoversSafely at hrec
  cases hact : p.act with
  | bringUp env request =>
    rw [hact] at hrec
    apply hdis
    unfold bringUp
    split_ifs
    · exact htra
    · exact bringUpLocked_tracked hrec htra
  | recover env uid =>
    rw [hact] at hrec
    exact hdis _ ((recoverLocked_tracked (F := fun _ => True) hrec) w trivial htra rfl).2.1
  | remove pf uid =>
    exact hdis _ ((mutate_tracked (F := fun _ => True) fun s₀ desired hpla => soundPlan_remove hpla) w trivial
      htra rfl).2.1
  | repairQuarantined pf => exact hdis _ ((repair_tracked (F := fun _ => True)) w trivial htra rfl).2.1
  | gateExits port => exact htra.same rfl rfl

/-- In a run whose recoveries lose no id, each id that is staged is above every id staged or committed for the
uid before. -/
theorem generation_ids_fresh (start : GateHost) (ps : List GateProcess)
    (hrecovers : Along GateProcess.run GateProcess.fault RecoversSafely ps (World.initial start)) :
    AllocatesAbove (runGate ps (World.initial start)).history := by
  have htra : Tracked (runGate ps (World.initial start)).history :=
    runs_keep (fun p w hsaf htra _ _ => p.run_tracked hsaf htra) ps (World.initial start) hrecovers
      (tracked_initial start)
  exact htra.1

def stagedFresh : List (Option Nat) → Bool
  | a::b::rest =>
    (match a with
      | none => true
      | some n => decide (b=some n) || (b::rest).all fun m => m.all (· < n)) && stagedFresh (b::rest)
  | _ => true

theorem AllocatesAbove.stagedFresh {history : List GateHost} (h : AllocatesAbove history) (uid : Nat) :
    stagedFresh (history.map (·.stagedId uid))=true := by
  induction history with
  | nil => rfl
  | cons s history ih =>
    cases history with
    | nil => rfl
    | cons s' before =>
      simp only [List.map_cons,Egress.stagedFresh,Bool.and_eq_true]
      refine ⟨?_,ih h.2⟩
      cases hn : Host.stagedId s uid with
      | none => rfl
      | some n =>
        dsimp only
        by_cases hsam : s'.stagedId uid=some n
        · rw [decide_eq_true hsam,Bool.true_or]
        · rw [Bool.or_eq_true,List.all_eq_true]
          refine .inr fun m hm => ?_
          obtain ⟨s'',hs'',rfl⟩ := List.mem_map.mp
            (show m∈(s'::before).map (·.stagedId uid) from hm)
          cases hm' : s''.stagedId uid with
          | none => rfl
          | some m =>
            obtain ⟨record,hrec,hid⟩ := Option.map_eq_some_iff.mp hm'
            exact decide_eq_true (h.1 uid n hn hsam m ⟨s'',hs'',.inl ⟨record,hrec,hid⟩⟩)

namespace FreshnessSample

def fresh : GateHost := ⟨.absent,[],⟨fun _ => none,fun _ => none,[]⟩⟩

def env (port : Nat) : GateEnv := ⟨⟨true,fun _ => some ⟨"7",none⟩⟩,⟨port,77,"start"⟩,fun _ _ _ => true⟩

def bringUpAt (port : Nat) (fault : Nat → Call → Fault) : GateProcess :=
  ⟨.bringUp (env port) ⟨501,"/fortress"⟩,fault⟩

def first : GateProcess := bringUpAt 40001 fun _ _ => .none

def second : GateProcess := bringUpAt 40002 fun n call => if n=10 ∧ call=.loadRules then .failed else .none

def third : GateProcess := bringUpAt 40003 fun _ _ => .none

def commits (w : World Call GateHost) (port : Nat) : Bool :=
  match (attemptBringUp (env port) 501 "/fortress" w).1 with
  | .ok (.ok _) => true
  | _ => false

theorem recoversSafely_of_commits {w : World Call GateHost} {port : Nat} {fault : Nat → Call → Fault}
    (h : commits w port=true) : RecoversSafely w (bringUpAt port fault) := by
  intro err w' hatt
  unfold commits at h
  rw [show attemptBringUp (env port) 501 "/fortress" w=(.ok (.error err),w') from hatt] at h
  cases h

end FreshnessSample

open FreshnessSample in
/-- The second bring-up stages id 2 and fails; its recovery tombstones the entry of generation 1, and the third
stages id 2 again. -/
theorem staged_id_reused :
    ¬ ∀ (start : GateHost) (ps : List GateProcess), AllocatesAbove (runGate ps (World.initial start)).history := by
  intro hall
  have hfre := (hall fresh [first,second,third]).stagedFresh 501
  revert hfre
  decide +kernel

open FreshnessSample in
theorem generation_ids_fresh_twice : AllocatesAbove (runGate [first,third] (World.initial fresh)).history :=
  generation_ids_fresh fresh [first,third]
    ⟨recoversSafely_of_commits (by decide +kernel),recoversSafely_of_commits (by decide +kernel),trivial⟩

end CastleWall.Egress
