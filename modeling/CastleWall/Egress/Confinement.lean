import CastleWall.Egress.RegistryRun

/-! # The anchor under registry mutations

Mutations and repairs follow one another; each of their calls may fail, and the process may be gone between
two of them. -/

namespace CastleWall.Egress

open Faulty JsValue

inductive Mutation where
  | addOrUpdate (entry : RawEntry)
  | remove (uid : Nat)
  | tombstone (uid : Nat) (fallback : Option TombstoneFallback)

inductive RegistryAct where
  | mutate (mutation : Mutation)
  | repairQuarantined

structure RegistryProcess where
  act : RegistryAct
  pf : Pf
  fault : Nat → Call → Fault

variable {ρ : Type}

namespace Mutation

def run (pf : Pf) : Mutation → Prog Call (Host ρ) GateError PfAnchorRegistryState
  | .addOrUpdate entry => Egress.addOrUpdate pf entry
  | .remove uid => Egress.remove pf uid
  | .tombstone uid fallback => Egress.tombstone pf uid fallback

def apply : Mutation → List PfAnchorRegistryEntry → Except GateError (List PfAnchorRegistryEntry)
  | .addOrUpdate entry, committed =>
    match validateEntry entry with
    | none => .error .refusedEntry
    | some validated => .ok (committed.filter (fun e => e.agentUid≠validated.agentUid)++[validated])
  | .remove uid, committed => .ok (committed.filter fun e => e.agentUid≠uid)
  | .tombstone uid fallback, committed => tombstoned uid fallback committed

theorem run_eq (pf : Pf) (m : Mutation) :
    (∃ err, (m.run pf : Prog Call (Host ρ) GateError PfAnchorRegistryState)=Prog.fail err) ∨
      (m.run pf : Prog Call (Host ρ) GateError PfAnchorRegistryState)=Egress.mutate pf m.apply := by
  cases m with
  | addOrUpdate entry =>
    cases hval : validateEntry entry with
    | none =>
      refine .inl ⟨.refusedEntry,?_⟩
      rw [run,Egress.addOrUpdate,hval]
    | some validated =>
      refine .inr ?_
      rw [run,Egress.addOrUpdate,hval]
      refine congrArg (Egress.mutate pf) (funext fun committed => ?_)
      rw [apply,hval]
  | remove uid => exact .inr rfl
  | tombstone uid fallback => exact .inr rfl

end Mutation

namespace RegistryProcess

variable (p : RegistryProcess)

def run : Prog Call (Host ρ) GateError Unit :=
  match p.act with
  | .mutate mutation => do let _ ← mutation.run p.pf; pure ()
  | .repairQuarantined => do let _ ← repairQuarantined p.pf; pure ()

def SavesAtomically : Prop := ∀ n, p.fault n .saveRegistry≠.late

def worldFrom (h : Host ρ) : World Call (Host ρ) := (p.run ((World.initial h).restart p.fault)).2

def states (h : Host ρ) : List (Host ρ) := (p.worldFrom h).history

end RegistryProcess

def runRegistry (ps : List RegistryProcess) (w : World Call (Host ρ)) : World Call (Host ρ) :=
  runs RegistryProcess.run RegistryProcess.fault ps w

namespace Host

variable (h : Host ρ)

def Blocks (uid : Nat) : Prop := ∀ family proto, PfRule.blockDrop family proto uid∈h.anchor

/-- Four block-drops for each uid, a pass at its port when it is not tombstoned, and nothing else. -/
def HoldsExactly (entries : List PfAnchorRegistryEntry) : Prop :=
  ∀ rule, rule∈h.anchor ↔ ∃ e∈entries, (∃ family proto, rule=.blockDrop family proto e.agentUid) ∨
    (e.tombstone=false ∧ rule=.pass e.gatePort e.agentUid)

def Confines (uid : Nat) : Prop :=
  ∃ listing, h.registry.listQuarantined=.ok listing ∧ uid∈listing.entries.map (·.agentUid)

instance (uid : Nat) : Decidable (h.Blocks uid) :=
  decidable_of_iff ((∀ rule∈renderUidBlockOnlyLines uid, rule∈h.anchor)) <| by
    constructor
    · intro hall family proto
      apply hall
      cases family <;> cases proto <;> simp [renderUidBlockOnlyLines]
    · intro hblocks rule hrule
      simp only [renderUidBlockOnlyLines,List.mem_cons,List.not_mem_nil,or_false] at hrule
      rcases hrule with rfl | rfl | rfl | rfl <;> exact hblocks _ _

instance (uid : Nat) : Decidable (h.Confines uid) :=
  match hlisting : h.registry.listQuarantined with
  | .ok listing => decidable_of_iff (uid∈listing.entries.map (·.agentUid)) <| by
      constructor
      · exact fun huid => ⟨listing,hlisting,huid⟩
      · rintro ⟨listing',hlisting',huid⟩
        rw [hlisting] at hlisting'
        cases hlisting'
        exact huid
  | .error err => isFalse <| by
      rintro ⟨listing',hlisting',-⟩
      rw [hlisting] at hlisting'
      cases hlisting'

end Host

theorem mem_lines_toUnionEntry {e : PfAnchorRegistryEntry} {rule : PfRule} :
    rule∈e.toUnionEntry.lines ↔ (∃ family proto, rule=.blockDrop family proto e.agentUid) ∨
      (e.tombstone=false ∧ rule=.pass e.gatePort e.agentUid) := by
  cases rule with
  | pass port uid =>
    rw [pass_mem_lines]
    constructor
    · rintro ⟨hliv,rfl,rfl⟩
      exact .inr ⟨hliv,rfl⟩
    · rintro (⟨family,proto,h⟩ | ⟨hliv,h⟩)
      · cases h
      · cases h
        exact ⟨hliv,rfl,rfl⟩
  | blockDrop family proto uid =>
    rw [blockDrop_mem_lines]
    constructor
    · rintro rfl
      exact .inl ⟨family,proto,rfl⟩
    · rintro (⟨family',proto',h⟩ | ⟨-,h⟩)
      · cases h
        rfl
      · cases h

theorem holdsExactly_of_eq {h : Host ρ} {entries : List PfAnchorRegistryEntry}
    (hanc : h.anchor=unionLines (entries.map (·.toUnionEntry))) : h.HoldsExactly entries := by
  intro rule
  rw [hanc,mem_unionLines]
  simp only [List.mem_map,exists_exists_and_eq_and,mem_lines_toUnionEntry]

variable {u : ConfinedUnion} {uid : Nat}

theorem blockDrop_mem_rules (huid : uid∈u.uids) (family : Family) (proto : Proto) :
    PfRule.blockDrop family proto uid∈u.rules := by
  obtain ⟨e,he,rfl⟩ := List.mem_map.mp huid
  exact mem_unionLines.mpr ⟨e.toUnionEntry,List.mem_map_of_mem he,blockDrop_mem_lines.mpr rfl⟩

theorem run_keeps (strict : Prop) {p : RegistryProcess} {I : List (Host ρ) → Prop} (base : Host ρ)
    (hsav : strict → p.SavesAtomically)
    (hmut : ∀ m, p.act=.mutate m → ∀ s₀ desired, Plan base m.apply s₀ desired → ∀ h before h', I (h::before) →
      Visits strict base s₀ desired h → Visits strict base s₀ desired h' → I (h'::h::before))
    (hrep : ∀ loaded valid quarantined, RepairPlan base loaded valid quarantined → ∀ h before h', I (h::before) →
      Repairs base loaded valid quarantined h → Repairs base loaded valid quarantined h' → I (h'::h::before)) :
    Keeps I (fun fault => fault=p.fault) (fun h => h=base) p.run (fun _ _ => True) (fun _ => True) := by
  unfold RegistryProcess.run
  cases hact : p.act with
  | mutate m =>
    refine Keeps.bind (R := fun _ _ => True) ?_ fun _ => Keeps.pure fun _ _ => trivial
    rcases m.run_eq p.pf (ρ := ρ) with ⟨err,hrun⟩ | hrun
    · rw [hrun]
      exact Keeps.fail fun _ _ => trivial
    · rw [hrun]
      refine Keeps.weaken (mutate_keeps strict ?_ (hmut m hact)) (fun _ hs => hs)
        (fun _ _ _ => trivial) fun _ _ => trivial
      rintro hstr fault rfl
      exact hsav hstr
  | repairQuarantined =>
    refine Keeps.bind (R := fun _ _ => True) ?_ fun _ => Keeps.pure fun _ _ => trivial
    exact Keeps.weaken (repair_keeps hrep) (fun _ hs => hs) (fun _ _ _ => trivial) fun _ _ => trivial

theorem exact_of_run {p : RegistryProcess} (hsav : p.SavesAtomically) {w : World Call (Host ρ)}
    (hfau : w.fault=p.fault) (h : ∀ s∈w.history, s.Exact) : ∀ s∈(p.run w).2.history, s.Exact := by
  have hbas : w.state.Exact := h w.state (List.mem_cons_self ..)
  have hkee := run_keeps True w.state (p := p) (I := fun history => ∀ s∈history, Host.Exact s)
    (fun _ => hsav) ?_ ?_
  · exact (hkee w hfau h rfl).2.1
  · intro m _ s₀ desired _ s before s' hhis _ hvis
    exact List.forall_mem_cons.mpr ⟨hvis.exact trivial hbas,hhis⟩
  · intro loaded valid quarantined _ s before s' hhis _ hrep
    exact List.forall_mem_cons.mpr ⟨hrep.exact,hhis⟩

theorem assertNoDuplicateUids_entries {v : ConfinedUnion} {entries : List PfAnchorRegistryEntry}
    (h : assertNoDuplicateUids u entries=.ok v) : v.entries=u.entries++entries := by
  induction entries generalizing u with
  | nil =>
    cases h
    exact (List.append_nil _).symm
  | cons e es ih =>
    unfold assertNoDuplicateUids at h
    split_ifs at h
    rw [ih h,ConfinedUnion.push,List.append_assoc,List.singleton_append]

variable {s₀ : PfAnchorRegistryState}

theorem Plan.desired_entries {base : Host ρ}
    {apply : List PfAnchorRegistryEntry → Except GateError (List PfAnchorRegistryEntry)} {desired : ConfinedUnion} (hpla : Plan base apply s₀ desired) :
    apply s₀.committed.entries=.ok desired.entries := by
  have hdes := hpla.desired
  cases happ : apply s₀.committed.entries with
  | error err =>
    rw [happ] at hdes
    cases hdes
  | ok entries =>
    rw [happ] at hdes
    rw [assertNoDuplicateUids_entries hdes]
    rfl

theorem Mutation.apply_keeps {m : Mutation} (hm : m≠.remove uid)
    {committed desired : List PfAnchorRegistryEntry} (happ : m.apply committed=.ok desired)
    (huid : uid∈committed.map (·.agentUid)) : uid∈desired.map (·.agentUid) := by
  obtain ⟨e,he,rfl⟩ := List.mem_map.mp huid
  cases m with
  | addOrUpdate entry =>
    rw [Mutation.apply] at happ
    split at happ
    · cases happ
    · rename_i validated hval
      cases happ
      by_cases hsam : e.agentUid=validated.agentUid
      · rw [hsam]
        exact List.mem_map_of_mem (List.mem_append_right _ (List.mem_singleton_self _))
      · exact List.mem_map_of_mem (List.mem_append_left _ (List.mem_filter.mpr ⟨he,decide_eq_true hsam⟩))
  | remove uid' =>
    cases happ
    have hoth : e.agentUid≠uid' := fun hsam => hm (by rw [hsam])
    exact List.mem_map_of_mem (List.mem_filter.mpr ⟨he,decide_eq_true hoth⟩)
  | tombstone uid' fallback =>
    rw [Mutation.apply] at happ
    unfold tombstoned at happ
    split_ifs at happ with hany
    · cases happ
      rw [List.map_map]
      refine List.mem_map.mpr ⟨e,he,?_⟩
      by_cases hsam : e.agentUid=uid'
      · simp [hsam]
      · simp [hsam]
    · split at happ
      · cases happ
      · split at happ
        · cases happ
        · cases happ
          exact List.mem_map_of_mem (List.mem_append_left _ he)

theorem Salvage.step_keeps {s : Salvage} {q : Quarantined} (h : uid∈s.next.uids) :
    uid∈(s.step q).next.uids := by
  unfold Salvage.step
  dsimp only
  split
  · exact h
  · rename_i e hsal
    by_cases hmem : e.agentUid∈s.next.uids
    · rw [dif_pos hmem]
      exact h
    · rw [dif_neg hmem]
      exact (ConfinedUnion.mem_uids_push (h := hmem)).mpr (.inl h)

variable {quarantined : List Quarantined}

theorem salvaged_keeps {valid : ConfinedUnion} (h : uid∈valid.uids) :
    uid∈(salvaged valid quarantined).next.uids := by
  unfold salvaged
  generalize hs : (⟨valid,none,[]⟩ : Salvage)=s
  have hmem : uid∈s.next.uids := hs ▸ h
  clear hs
  induction quarantined generalizing s with
  | nil => exact hmem
  | cons q quarantined ih => exact ih (s.step q) (Salvage.step_keeps hmem)

theorem listQuarantined_of_normalized {file : RegistryFile}
    (hloa : file.normalized=.ok s₀) :
    ∃ listing, file.listQuarantined=.ok listing ∧ listing.entries=s₀.committed.entries := by
  rw [RegistryFile.normalized] at hloa
  rw [RegistryFile.listQuarantined]
  cases hfil : file.load with
  | error err =>
    rw [hfil] at hloa
    cases hloa
  | ok loaded =>
    rw [hfil] at hloa
    cases loaded with
    | none =>
      cases hloa
      exact ⟨_,rfl,rfl⟩
    | some loaded =>
      simp only [Except.bind,normalizeState,classifyCommitted] at hloa ⊢
      by_cases hver : (!isStateVersion loaded.version)=true
      · rw [if_pos hver] at hloa
        cases hloa
      rw [if_neg hver] at hloa ⊢
      cases hraw : loaded.committed with
      | none =>
        rw [hraw] at hloa
        cases hloa
      | some raws =>
        rw [hraw] at hloa
        dsimp only at hloa ⊢
        cases hrea : readCommitted .empty raws with
        | error err =>
          rw [hrea] at hloa
          cases hloa
        | ok committed =>
          rw [hrea] at hloa
          rw [classifyFrom_of_readCommitted hrea]
          cases hloa
          exact ⟨_,rfl,rfl⟩

theorem Host.Confines.of_normalized {h : Host ρ} (hcon : h.Confines uid)
    (hloa : h.registry.normalized=.ok s₀) : uid∈s₀.committed.uids := by
  obtain ⟨listing,hlis,huid⟩ := hcon
  obtain ⟨listing',hlis',hent⟩ := listQuarantined_of_normalized hloa
  rw [hlis] at hlis'
  cases hlis'
  rw [hent] at huid
  exact huid

theorem Host.Confines.of_repair {h : Host ρ} (hcon : h.Confines uid) {loaded : RawState}
    {valid : ConfinedUnion} (hpla : RepairPlan h loaded valid quarantined) :
    uid∈valid.uids := by
  obtain ⟨listing,hlis,huid⟩ := hcon
  rw [RegistryFile.listQuarantined,hpla.load] at hlis
  simp only [Except.bind,hpla.classify,Except.map] at hlis
  cases hlis
  exact huid

theorem classifyFrom_ne_nil {raws : List RawEntry} (hne : quarantined≠[]) {index : Nat} : (classifyFrom u quarantined index raws).2≠[] := by
  induction raws generalizing u quarantined index with
  | nil => exact hne
  | cons raw raws ih =>
    unfold classifyFrom
    split
    · exact ih (List.append_ne_nil_of_left_ne_nil hne _)
    · split_ifs
      · exact ih (List.append_ne_nil_of_left_ne_nil hne _)
      · exact ih hne

theorem readCommitted_of_classifyFrom {v : ConfinedUnion} {raws : List RawEntry} {index : Nat}
    (h : classifyFrom u [] index raws=(v,[])) : readCommitted u raws=.ok v := by
  induction raws generalizing u index with
  | nil =>
    cases h
    rfl
  | cons raw raws ih =>
    unfold classifyFrom at h
    unfold readCommitted
    cases hval : validateEntry raw with
    | none =>
      rw [hval] at h
      exact absurd (congrArg Prod.snd h) (classifyFrom_ne_nil (List.append_ne_nil_of_right_ne_nil _ (by simp)))
    | some e =>
      rw [hval] at h
      dsimp only at h ⊢
      split_ifs at h ⊢ with hmem
      · exact absurd (congrArg Prod.snd h) (classifyFrom_ne_nil (List.append_ne_nil_of_right_ne_nil _ (by simp)))
      · exact ih h

theorem list_of_listQuarantined {file : RegistryFile} {listing : QuarantineListing}
    (hlis : file.listQuarantined=.ok listing) (hcle : listing.dirty=false) :
    ∃ listing', file.list=.ok listing' ∧ listing'.entries=listing.entries ∧ listing'.dirty=false := by
  rw [RegistryFile.listQuarantined] at hlis
  rw [RegistryFile.list,RegistryFile.normalized]
  cases hfil : file.load with
  | error err =>
    rw [hfil] at hlis
    cases hlis
  | ok loaded =>
    rw [hfil] at hlis
    cases loaded with
    | none =>
      cases hlis
      exact ⟨_,rfl,rfl,rfl⟩
    | some loaded =>
      simp only [Except.bind,normalizeState,classifyCommitted] at hlis ⊢
      by_cases hver : (!isStateVersion loaded.version)=true
      · rw [if_pos hver] at hlis
        cases hlis
      rw [if_neg hver] at hlis ⊢
      cases hraw : loaded.committed with
      | none =>
        rw [hraw] at hlis
        cases hlis
      | some raws =>
        rw [hraw] at hlis
        dsimp only at hlis ⊢
        generalize hcla : classifyFrom .empty [] 0 raws=r at hlis
        obtain ⟨valid,quarantined⟩ := r
        cases hlis
        simp only [Bool.or_eq_false_iff,decide_eq_false_iff_not,not_not] at hcle
        obtain ⟨⟨⟨⟨hdir,hpen⟩,hqua⟩,hflo⟩,htok⟩ := hcle
        rw [hqua] at hcla
        rw [readCommitted_of_classifyFrom hcla]
        rw [Option.isSome_eq_false_iff,Option.isNone_iff_eq_none] at hpen
        refine ⟨_,rfl,rfl,?_⟩
        simp [normalizedWith,hdir,hflo,hpen]
        exact fun hne hnone => htok ⟨hne,Option.isNone_iff_eq_none.mpr hnone⟩

theorem blocks_of_run {p : RegistryProcess} (hact : p.act≠.mutate (.remove uid)) {h : Host ρ}
    (hcon : h.Confines uid) (hblo : h.Blocks uid) : ∀ s∈p.states h, s.Blocks uid := by
  have hkee := run_keeps False h (p := p) (I := fun history => ∀ s∈history, Host.Blocks s uid)
    (fun hfal => hfal.elim) ?_ ?_
  · refine (hkee ((World.initial h).restart p.fault) rfl ?_ rfl).2.1
    exact List.forall_mem_singleton.mpr hblo
  · intro m hm s₀ desired hpla s before s' hhis _ hvis
    have hcom := hcon.of_normalized hpla.load
    have hrem : m≠.remove uid := fun hree => hact (by rw [hm,hree])
    have hdes : uid∈desired.uids := m.apply_keeps hrem hpla.desired_entries hcom
    refine List.forall_mem_cons.mpr ⟨fun family proto => ?_,hhis⟩
    rcases hvis.anchor with heq | heq | heq
    · rw [heq]
      exact hblo family proto
    · rw [heq]
      exact blockDrop_mem_rules hcom family proto
    · rw [heq]
      exact blockDrop_mem_rules hdes family proto
  · intro loaded valid quarantined hpla s before s' hhis _ hrep
    refine List.forall_mem_cons.mpr ⟨fun family proto => ?_,hhis⟩
    rcases hrep.anchor with heq | heq
    · rw [heq]
      exact hblo family proto
    · rw [heq]
      exact blockDrop_mem_rules (salvaged_keeps (hcon.of_repair hpla)) family proto

/-- Whatever fails or ends a registry process, a confined uid it does not remove keeps its four block-drops in
every state; and wherever processes end, a registry that lists itself as clean stands beside an anchor with
exactly its union. -/
theorem anchor_confinement (start : Host ρ) (hstart : start.Exact) (ps : List RegistryProcess)
    (hsaves : ∀ p∈ps, p.SavesAtomically) :
    (∀ h∈(runRegistry ps (World.initial start)).history, ∀ (p : RegistryProcess) (uid : Nat),
      p.act≠.mutate (.remove uid) → h.Confines uid → h.Blocks uid → ∀ s∈p.states h, s.Blocks uid) ∧
    ∀ h∈(runRegistry ps (World.initial start)).history,
      (∀ listing, h.registry.list=.ok listing → listing.dirty=false → h.HoldsExactly listing.entries) ∧
      ∀ listing, h.registry.listQuarantined=.ok listing → listing.dirty=false → h.HoldsExactly listing.entries := by
  refine ⟨fun h _ p uid hact hcon hblo => blocks_of_run hact hcon hblo,?_⟩
  have halo : ∀ w : World Call (Host ρ),
      Along RegistryProcess.run RegistryProcess.fault (fun _ p => p.SavesAtomically) ps w := by
    induction ps with
    | nil => exact fun _ => trivial
    | cons p ps ih =>
      rw [List.forall_mem_cons] at hsaves
      exact fun w => ⟨hsaves.1,ih hsaves.2 _⟩
  have hexa : ∀ h∈(runRegistry ps (World.initial start)).history, h.Exact :=
    runs_keep (I := fun history => ∀ h∈history, Host.Exact h) (m := RegistryProcess.run)
      (C := fun _ p => p.SavesAtomically) (fun p w hp hhis hfau _ => exact_of_run hp hfau hhis) ps (World.initial start)
      (halo _) (List.forall_mem_singleton.mpr hstart)
  have hlis : ∀ h∈(runRegistry ps (World.initial start)).history, ∀ listing, h.registry.list=.ok listing →
      listing.dirty=false → h.HoldsExactly listing.entries :=
    fun h hh listing hlit hcle => holdsExactly_of_eq (hexa h hh listing hlit hcle)
  refine fun h hh => ⟨hlis h hh,fun listing hlig hcle => ?_⟩
  obtain ⟨listing',hlit,hent,hcle'⟩ := list_of_listQuarantined hlig hcle
  rw [← hent]
  exact hlis h hh listing' hlit hcle'

namespace ConfinementSample

def fresh : Host Unit := ⟨.absent,[],()⟩

def agent : PfAnchorRegistryEntry := ⟨501,40001,"/fortress",none,false,by decide,by decide,by decide⟩

def pf : Pf := ⟨true,fun _ => some ⟨"7",none⟩⟩

def addition : RegistryProcess := ⟨.mutate (.addOrUpdate agent.raw),pf,fun _ _ => .none⟩

def host : Host Unit := addition.worldFrom fresh |>.state

/-- The agent's removal. The save that commits it fails, and the union is loaded again. -/
def removal : RegistryProcess where
  act := .mutate (.remove 501)
  pf := pf
  fault := fun n call => if n=4 ∧ call=.saveRegistry then .failed else .none

theorem addition_saves : addition.SavesAtomically := by
  intro n h
  cases h

theorem removal_saves : removal.SavesAtomically := by
  intro n
  unfold removal
  dsimp only
  split_ifs <;> decide

theorem fresh_exact : fresh.Exact := by
  intro listing hlis _
  cases hlis
  exact unionLines_nil.symm

end ConfinementSample

open ConfinementSample in
/-- A uid is confined before and after its removal fails; in between its rules were gone. -/
theorem failed_removal_unblocks :
    ¬ ∀ (start : Host Unit), start.Exact → ∀ ps : List RegistryProcess, (∀ p∈ps, p.SavesAtomically) →
      ∀ h∈(runRegistry ps (World.initial start)).history, ∀ p : RegistryProcess, p.SavesAtomically → ∀ uid : Nat,
        h.Confines uid → (p.worldFrom h).state.Confines uid → h.Blocks uid → ∀ s∈p.states h, s.Blocks uid := by
  intro hall
  have hblo : ∀ s∈removal.states host, s.Blocks 501 :=
    hall fresh fresh_exact [addition] (List.forall_mem_singleton.mpr addition_saves) host (List.mem_cons_self ..)
      removal removal_saves 501 (by decide +kernel) (by decide +kernel) (by decide +kernel)
  revert hblo
  decide +kernel

open ConfinementSample in
theorem anchor_confinement_addition :
    (∀ h∈(runRegistry [addition] (World.initial fresh)).history, ∀ (p : RegistryProcess) (uid : Nat),
      p.act≠.mutate (.remove uid) → h.Confines uid → h.Blocks uid → ∀ s∈p.states h, s.Blocks uid) ∧
    ∀ h∈(runRegistry [addition] (World.initial fresh)).history,
      (∀ listing, h.registry.list=.ok listing → listing.dirty=false → h.HoldsExactly listing.entries) ∧
      ∀ listing, h.registry.listQuarantined=.ok listing → listing.dirty=false → h.HoldsExactly listing.entries :=
  anchor_confinement fresh fresh_exact [addition] (List.forall_mem_singleton.mpr addition_saves)

end CastleWall.Egress
