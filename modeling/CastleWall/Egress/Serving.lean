import CastleWall.Egress.Freshness

/-! # What a gate serves

A gate may serve when the registry entry, the dirty flag, the staging record, the pass in the anchor and the
published manifest agree. In a run of bring-ups and recoveries they do so only for a generation that a bring-up
committed and that none after it replaced. -/

namespace CastleWall.Egress

open Faulty

def passPort (anchor : List PfRule) (uid : Nat) : Option Nat :=
  anchor.findSome? fun
    | .pass port uid' => if uid'=uid then some port else none
    | .blockDrop _ _ _ => none

namespace Host

variable (h : GateHost)

def resolved (uid : Nat) : Except GateError ResolvedGeneration :=
  h.registry.list.map fun listing =>
    resolveCommittedGeneration (listing.entries.find? fun e => e.agentUid=uid) (h.rest.staging uid).isSome listing.dirty

def gateMatch (uid : Nat) : Except GateError GenerationMatch :=
  (h.resolved uid).map fun resolved =>
    evaluateGenerationMatch
      { committedGenerationId := resolved.committedGenerationId
        committedPort := resolved.committedPort
        pfPassPort := passPort h.anchor uid
        manifestPort := (h.rest.manifest uid).map (·.gatePort)
        manifestGenerationId := (h.rest.manifest uid).map (·.generationId) }

/-- No staging record, or one whose pass was never armed. -/
def Settled (uid : Nat) : Prop := ∀ record, h.rest.staging uid=some record → record.phase=.ownerChecked

/-- The registry has this entry for the uid, and it is not tombstoned. -/
def Live (uid : Nat) (e : PfAnchorRegistryEntry) : Prop :=
  ∃ s₀, h.registry.normalized=.ok s₀ ∧ e∈s₀.committed.entries ∧ e.agentUid=uid ∧ e.tombstone=false

def Inherits (base h : GateHost) (uid : Nat) : Prop :=
  h.Settled uid → ∀ e, h.Live uid e →
    base.Settled uid ∧ base.Live uid e ∧ h.rest.manifest uid=base.rest.manifest uid

end Host

theorem evaluateGenerationMatch_serve {input : GenerationMatchInput} (h : (evaluateGenerationMatch input).serve=true) :
    ∃ g port, input.committedGenerationId=some g ∧ input.committedPort=some port ∧
      input.pfPassPort=some port ∧ input.manifestPort=some port ∧ input.manifestGenerationId=some g := by
  unfold evaluateGenerationMatch at h
  simp only [List.isEmpty_iff,List.append_eq_nil_iff] at h
  obtain ⟨⟨hnone,hpor⟩,hgen⟩ := h
  cases hp : input.committedPort with
  | none =>
    rw [hp] at hpor
    cases hpor
  | some port =>
    cases hg : input.committedGenerationId with
    | none =>
      rw [hg] at hnone
      cases hnone
    | some g =>
      rw [hp] at hpor
      rw [hg] at hgen
      simp only [List.append_eq_nil_iff,ite_eq_right_iff,List.cons_ne_nil,imp_false,not_not] at hpor hgen
      exact ⟨g,port,rfl,rfl,hpor.1,hpor.2,hgen⟩

theorem serve_inv {h : GateHost} {uid : Nat} {m : GenerationMatch} (hmat : h.gateMatch uid=.ok m)
    (hser : m.serve=true) :
    ∃ e g, h.Live uid e ∧ h.rest.staging uid=none ∧ e.generationId=some g ∧
      h.resolved uid=.ok ⟨some g.val,some e.gatePort⟩ ∧ passPort h.anchor uid=some e.gatePort ∧ h.rest.manifest uid=some ⟨e.gatePort,g.val⟩ := by
  unfold Host.gateMatch Host.resolved RegistryFile.list at hmat
  cases hloa : h.registry.normalized with
  | error err =>
    rw [hloa] at hmat
    cases hmat
  | ok s₀ =>
    rw [hloa] at hmat
    cases hmat
    obtain ⟨g,port,hg,hpor,hpas,hmpo,hmge⟩ := evaluateGenerationMatch_serve hser
    dsimp only at hg hpor hpas hmpo hmge
    unfold resolveCommittedGeneration at hg hpor
    cases hfind : s₀.committed.entries.find? fun e => e.agentUid=uid with
    | none =>
      rw [hfind] at hg
      cases hg
    | some e =>
      rw [hfind] at hg hpor
      dsimp only at hg hpor
      split_ifs at hg hpor with hblo
      cases hgen : e.generationId with
      | none =>
        rw [hgen] at hg
        cases hg
      | some g' =>
        rw [hgen] at hg hpor
        cases hg
        cases hpor
        rw [Bool.or_eq_true,Bool.or_eq_true,not_or,not_or,Bool.not_eq_true,Bool.not_eq_true] at hblo
        have huid : e.agentUid=uid := by simpa using List.find?_some hfind
        refine ⟨e,g',⟨s₀,hloa,List.mem_of_find?_eq_some hfind,huid,hblo.1.2⟩,?_,hgen,?_,hpas,?_⟩
        · exact Option.not_isSome_iff_eq_none.mp (by rw [hblo.1.1]; exact Bool.false_ne_true)
        · unfold Host.resolved RegistryFile.list
          rw [hloa]
          simp only [Except.map,hfind,resolveCommittedGeneration,hblo.1.1,hblo.1.2,hblo.2,hgen,
            Bool.or_self,Bool.false_eq_true,if_false]
        · obtain ⟨manifest,hman,hp⟩ := Option.map_eq_some_iff.mp hmpo
          rw [hman,Option.map_some] at hmge
          obtain ⟨mport,mgen⟩ := manifest
          cases hp
          cases hmge
          exact hman

section Inherits

variable {base h h' : GateHost} {uid : Nat}

theorem Host.Inherits.refl : Host.Inherits h h uid := fun hset _ hliv => ⟨hset,hliv,rfl⟩

theorem Host.Inherits.trans (hfir : Host.Inherits base h uid) (hsec : Host.Inherits h h' uid) :
    Host.Inherits base h' uid := by
  intro hset e hliv
  obtain ⟨hset',hliv',hman'⟩ := hsec hset e hliv
  obtain ⟨hset'',hliv'',hman''⟩ := hfir hset' e hliv'
  exact ⟨hset'',hliv'',hman'.trans hman''⟩

theorem Host.Inherits.of_same (hreg : h'.registry=h.registry)
    (hsta : h'.rest.staging uid=h.rest.staging uid) (hman : h'.rest.manifest uid=h.rest.manifest uid) :
    Host.Inherits h h' uid := by
  intro hset e hliv
  refine ⟨fun record hrec => hset record (hsta.trans hrec),?_,hman⟩
  unfold Host.Live at hliv ⊢
  rwa [hreg] at hliv

def Spares (s₀ : PfAnchorRegistryState) (desired : ConfinedUnion) (uid : Nat) : Prop :=
  ∀ e∈desired.entries, e.agentUid≠uid → e∈s₀.committed.entries

theorem Visits.committed {strict : Prop} {s₀ s₁ : PfAnchorRegistryState} {desired : ConfinedUnion}
    (hvis : Visits strict base s₀ desired h) (hlod : base.registry.normalized=.ok s₀)
    (hloa : h.registry.normalized=.ok s₁) : s₁.committed=s₀.committed ∨ s₁.committed=desired := by
  rcases hvis.registry with heq | ⟨st,heq,hrec⟩
  · rw [heq,hlod] at hloa
    cases hloa
    exact .inl rfl
  · obtain ⟨loaded,hst,hcom,-⟩ := normalizeState_raw st
    have hsam : s₁=loaded := by
      rw [heq] at hloa
      exact Except.ok.inj (hloa.symm.trans hst)
    rw [hsam,hcom]
    rcases hrec.union with ⟨h,-⟩ | ⟨h,-⟩
    · exact .inl h
    · exact .inr h

theorem Visits.inherits {strict : Prop} {s₀ : PfAnchorRegistryState} {desired : ConfinedUnion}
    (hvis : Visits strict base s₀ desired h) (hloa : base.registry.normalized=.ok s₀) {other : Nat}
    (hspa : Spares s₀ desired other) (hne : uid≠other) : Host.Inherits base h uid := by
  rintro hset e ⟨s₁,hs₁,he,huid,hliv⟩
  refine ⟨fun record hrec => hset record (by rw [hvis.rest]; exact hrec),⟨s₀,hloa,?_,huid,hliv⟩,
    by rw [hvis.rest]⟩
  rcases hvis.committed hloa hs₁ with hsam | hsam
  · exact hsam ▸ he
  · exact hspa e (hsam ▸ he) (huid ▸ hne)

end Inherits

/-- Newest first: where the port is freed, a pass of the uid leads to it only if `stood` holds. -/
def Frees (uid port : Nat) (stood : Prop) : List GateHost → Prop
  | h::h'::before =>
    (port∈h'.rest.held → port∉h.rest.held → PfRule.pass port uid∈h.anchor → stood) ∧
      Frees uid port stood (h'::before)
  | _ => True

/-- Since `base` the port was not freed under a pass of the uid, other than one that stood there at `base`. -/
def FreesSafely (uid port : Nat) (base : GateHost) (before history : List GateHost) : Prop :=
  ∃ added, history=added++base::before ∧
    Frees uid port (PfRule.pass port uid∈base.anchor) (added++[base])

theorem FreesSafely.step {uid port : Nat} {base h h' : GateHost} {before older : List GateHost}
    (hfre : FreesSafely uid port base before (h::older))
    (hste : port∈h.rest.held → port∉h'.rest.held → PfRule.pass port uid∈h'.anchor →
      PfRule.pass port uid∈base.anchor) :
    FreesSafely uid port base before (h'::h::older) := by
  obtain ⟨added,hadd,hfre⟩ := hfre
  refine ⟨h'::added,by rw [hadd]; rfl,?_⟩
  cases added with
  | nil =>
    cases hadd
    exact ⟨hste,hfre⟩
  | cons a added =>
    cases hadd
    exact ⟨hste,hfre⟩

theorem FreesSafely.cons {uid port : Nat} {base h h' : GateHost} {before older : List GateHost}
    (hfre : FreesSafely uid port base before (h::older)) (hhel : port∈h.rest.held → port∈h'.rest.held) :
    FreesSafely uid port base before (h'::h::older) :=
  hfre.step fun hpor hfrd => absurd (hhel hpor) hfrd

/-- A staging, registry, bind or publish operation that reports an error changed nothing. -/
def Sharp (fault : Nat → Call → Fault) : Prop :=
  ∀ n, ∀ call∈[Call.saveStaging,.deleteStaging,.saveRegistry,.bind,.publishManifest], fault n call≠.late

/-- A bring-up or a recovery of `uid` is under way: for the uid nothing but the staging changed, or its record
says that the pass may be armed. -/
structure Underway (base : GateHost) (uid : Nat) (h : GateHost) : Prop where
  others : ∀ other, other≠uid → Host.Inherits base h other
  own : (h.registry=base.registry ∧ h.anchor=base.anchor ∧ h.rest.manifest uid=base.rest.manifest uid ∧
      base.Settled uid ∧ h.Settled uid) ∨ ∃ record, h.rest.staging uid=some record ∧ record.phase≠.ownerChecked

theorem Underway.inherits {base h : GateHost} {uid : Nat} (hund : Underway base uid h) (other : Nat) :
    Host.Inherits base h other := by
  by_cases hsam : other=uid
  · subst hsam
    intro hset e hliv
    rcases hund.own with ⟨hreg,-,hman,hbas,-⟩ | ⟨record,hrec,hpha⟩
    · unfold Host.Live at hliv ⊢
      rw [hreg] at hliv
      exact ⟨hbas,hliv,hman⟩
    · exact absurd (hset record hrec) hpha
  · exact hund.others other hsam

theorem Underway.start (base : GateHost) (uid : Nat) : Underway base uid base := by
  refine ⟨fun _ _ => Host.Inherits.refl,?_⟩
  by_cases hset : base.Settled uid
  · exact .inl ⟨rfl,rfl,rfl,hset,hset⟩
  · unfold Host.Settled at hset
    push Not at hset
    exact .inr hset

theorem validateEntry_pass {raw : RawEntry} {e : PfAnchorRegistryEntry} (h : validateEntry raw=some e) :
    raw.gatePort.bind asNonNegativeInteger=some e.gatePort ∧
      (optionalMember asBool raw.tombstone).map (·.getD false)=some e.tombstone := by
  unfold validateEntry at h
  simp only [Option.bind_eq_bind,Option.bind_eq_some_iff] at h
  obtain ⟨uid,huid,port,hpor,fortress,hfor,generation,hgen,tombstone,htom,h⟩ := h
  split_ifs at h
  cases h
  exact ⟨Option.bind_eq_some_iff.mpr hpor,by rw [htom]; rfl⟩

theorem spares_tombstoned {base : GateHost} {uid : Nat} {fallback : Option TombstoneFallback}
    {s₀ : PfAnchorRegistryState} {desired : ConfinedUnion} (hpla : Plan base (tombstoned uid fallback) s₀ desired) :
    Spares s₀ desired uid ∧ ∀ e∈desired.entries, e.agentUid=uid → e.tombstone=true := by
  have hdes := hpla.desired_entries
  unfold tombstoned at hdes
  split_ifs at hdes with hany
  · have hent := Except.ok.inj hdes
    constructor
    · intro e he hne
      rw [← hent] at he
      obtain ⟨e₀,he₀,rfl⟩ := List.mem_map.mp he
      split_ifs at hne ⊢ with hsam
      · exact absurd hsam hne
      · exact he₀
    · intro e he huid
      rw [← hent] at he
      obtain ⟨e₀,he₀,rfl⟩ := List.mem_map.mp he
      split_ifs at huid ⊢ with hsam
      · rfl
      · exact absurd huid hsam
  · cases fallback with
    | none => cases hdes
    | some fallback =>
      dsimp only at hdes
      cases hadd : fallback.entry uid with
      | none =>
        rw [hadd] at hdes
        cases hdes
      | some added =>
        rw [hadd] at hdes
        have hent := Except.ok.inj hdes
        have hblo : added.tombstone=true := (Option.some_inj.mp (validateEntry_pass hadd).2).symm
        constructor
        · intro e he hne
          rw [← hent] at he
          rcases List.mem_append.mp he with he | he
          · exact he
          · rw [List.mem_singleton.mp he] at hne
            exact absurd (fallback_entry hadd).1 hne
        · intro e he huid
          rw [← hent] at he
          rcases List.mem_append.mp he with he | he
          · exact absurd (List.any_eq_true.mpr ⟨e,he,decide_eq_true huid⟩) hany
          · rw [List.mem_singleton.mp he]
            exact hblo

theorem pass_mem_rules {u : ConfinedUnion} {port uid : Nat} :
    PfRule.pass port uid∈u.rules ↔ ∃ e∈u.entries, e.tombstone=false ∧ port=e.gatePort ∧ uid=e.agentUid := by
  rw [ConfinedUnion.rules,mem_unionLines]
  simp only [ConfinedUnion.unionEntries,List.mem_map,exists_exists_and_eq_and,pass_mem_lines]
  rfl

section Recovery

variable {env : GateEnv} {uid port : Nat} {base : GateHost} {before : List GateHost}
  {h₀ : GateHost} {E : GateHost → Prop}

theorem attempt_read_same {I : List GateHost → Prop} {F : (Nat → Call → Fault) → Prop} {α : Type} {call : Call}
    {lost : GateError} {f : GateHost → Except GateError α} (hE : E h₀) :
    Keeps I F (fun h => h=h₀) (Prog.read call lost f).attempt (fun _ h => h=h₀) E := by
  refine Keeps.weaken (Keeps.attempt (G := E) (Keeps.read (Q := fun _ h => h=h₀) (E := fun h => h=h₀)
    (fun _ _ hs _ => hs) fun _ hs => hs) (fun h hs => hs ▸ hE)) (fun _ hs => hs) ?_ fun _ hs => hs
  intro r h hr
  cases r with
  | ok a => exact hr.1 a rfl
  | error err => exact hr.2 err rfl

variable {P Q : GateHost → Prop}

/-- A call that frees no port, and that a fault does not reach halfway. -/
theorem write_spares {call : Call} {lost : GateError} {f : GateHost → Except GateError GateHost} (hcal : call∈[Call.saveStaging,.deleteStaging,.saveRegistry,.bind,.publishManifest])
    (hhel : ∀ h h', f h=.ok h' → port∈h.rest.held → port∈h'.rest.held)
    (hQ : ∀ h h', P h → f h=.ok h' → Q h') (hE : ∀ h, P h → E h) :
    Keeps (FreesSafely uid port base before) Sharp P (Prog.write call lost f) (fun _ => Q) E := by
  refine Keeps.write ?_ (fun fault n hsha hlat => absurd hlat (hsha n call hcal)) hE
  intro h older h' hfre hP hwri
  exact ⟨hfre.cons (hhel h h' hwri),hQ h h' hP hwri⟩

theorem saveStaging_spares {record : GenerationStagingRecord}
    (hQ : ∀ h, P h → Q { h with rest := h.rest.stage record.agentUid (some record) }) (hE : ∀ h, P h → E h) :
    Keeps (FreesSafely uid port base before) Sharp P (saveStaging record) (fun _ => Q) E := by
  refine write_spares (by decide) ?_ ?_ hE
  · intro h h' hwri hpor
    cases hwri
    exact hpor
  · intro h h' hP hwri
    cases hwri
    exact hQ h hP

theorem deleteStaging_spares {agentUid : Nat}
    (hQ : ∀ h, P h → Q { h with rest := h.rest.stage agentUid none }) (hE : ∀ h, P h → E h) :
    Keeps (FreesSafely uid port base before) Sharp P (deleteStaging agentUid) (fun _ => Q) E := by
  refine write_spares (by decide) ?_ ?_ hE
  · intro h h' hwri hpor
    cases hwri
    exact hpor
  · intro h h' hP hwri
    cases hwri
    exact hQ h hP

theorem recoverLocked_inherits (env : GateEnv) (port : Nat) (hund : Underway base uid h₀) :
    Keeps (FreesSafely uid port base before) Sharp (fun h => h=h₀) (recoverLocked env uid)
      (fun _ h => (∀ other, Host.Inherits base h other) ∧
        (PfRule.pass port uid∈h.anchor → PfRule.pass port uid∈base.anchor))
      (fun h => ∀ other, Host.Inherits base h other) := by
  unfold recoverLocked
  refine Keeps.bind (R := fun record h => h=h₀ ∧ h₀.rest.staging uid=record) (Keeps.read ?_ ?_) fun record => ?_
  · rintro h record rfl hlod
    refine ⟨rfl,?_⟩
    split at hlod
    · cases hlod
      assumption
    · split_ifs at hlod
      cases hlod
      assumption
  · rintro h rfl
    exact hund.inherits
  cases record with
  | none =>
    refine Keeps.pure ?_
    rintro h ⟨rfl,hnone⟩
    refine ⟨hund.inherits,?_⟩
    rcases hund.own with ⟨-,hanc,-⟩ | ⟨record,hrec,-⟩
    · rw [hanc]
      exact id
    · rw [hnone] at hrec
      cases hrec
  | some record =>
    refine Keeps.of_each fun h₁ => ?_
    rintro ⟨rfl,hrec⟩
    refine Keeps.bind (attempt_read_same hund.inherits) fun checked => ?_
    have htom : record.phase≠.ownerChecked → Keeps (FreesSafely uid port base before) Sharp (fun h => h=h₁) (do
        let _ ← tombstone env.pf uid (some ⟨record.gatePort,record.fortressPath,some record.generationId⟩)
        deleteStaging uid
        pure (⟨.tombstoned,some record.generationId,some (checked.toOption.getD false)⟩ :
          GenerationRecoveryOutcome))
        (fun _ h => (∀ other, Host.Inherits base h other) ∧
          (PfRule.pass port uid∈h.anchor → PfRule.pass port uid∈base.anchor))
        (fun h => ∀ other, Host.Inherits base h other) := by
      intro hpha
      -- While the record stands the uid is not settled; the others are spared.
      have hvis : ∀ s₀ desired, Plan h₁ (tombstoned uid (some ⟨record.gatePort,record.fortressPath,
          some record.generationId⟩)) s₀ desired → ∀ h, Visits False h₁ s₀ desired h → Underway base uid h := by
        intro s₀ desired hpla h hvis
        refine ⟨fun other hne => (hund.others other hne).trans
          (hvis.inherits hpla.load (spares_tombstoned hpla).1 hne),.inr ⟨record,?_,hpha⟩⟩
        rw [hvis.rest]
        exact hrec
      refine Keeps.bind (R := fun st h => ∃ s₀ desired, Plan h₁ (tombstoned uid (some ⟨record.gatePort,
        record.fortressPath,some record.generationId⟩)) s₀ desired ∧ Committed h₁ s₀ desired st h)
        (Keeps.weaken (mutate_keeps False (fun hfal => hfal.elim) ?_) (fun _ hs => hs)
          (fun _ _ hs => hs) ?_) fun st => ?_
      · intro s₀ desired hpla h older h' hfre hv hv'
        refine hfre.cons fun hpor => ?_
        rw [hv'.rest,← hv.rest]
        exact hpor
      · rintro h (rfl | ⟨s₀,desired,hpla,hv⟩)
        · exact hund.inherits
        · exact (hvis s₀ desired hpla h hv).inherits
      · refine Keeps.of_each fun h₂ => ?_
        rintro ⟨s₀,desired,hpla,hcom⟩
        have hmid := hvis s₀ desired hpla h₂ hcom.visits
        obtain ⟨-,hblo⟩ := spares_tombstoned hpla
        have hdon : ∀ other, Host.Inherits base { h₂ with rest := h₂.rest.stage uid none } other := by
          intro other
          by_cases hsam : other=uid
          · subst hsam
            rintro - e ⟨s₁,hs₁,he,huid,hliv⟩
            obtain ⟨loaded,hst,hloa,-⟩ := normalizeState_raw st
            have heq : s₁=loaded := by
              rw [show ({ h₂ with rest := h₂.rest.stage other none } : GateHost).registry=.object st.raw
                from hcom.registry] at hs₁
              exact Except.ok.inj (hs₁.symm.trans hst)
            rw [heq,hloa,hcom.committed] at he
            rw [hblo e he huid] at hliv
            cases hliv
          · exact (hmid.others other hsam).trans
              (Host.Inherits.of_same rfl (GateFiles.staging_stage_of_ne _ _ hsam) rfl)
        refine Keeps.bind (R := fun _ h => h = { h₂ with rest := h₂.rest.stage uid none })
          (deleteStaging_spares ?_ ?_) fun _ => Keeps.pure ?_
        · rintro h rfl
          rfl
        · rintro h rfl
          exact hmid.inherits
        · rintro h rfl
          refine ⟨hdon,fun hpas => ?_⟩
          rw [show ({ h₂ with rest := h₂.rest.stage uid none } : GateHost).anchor=desired.rules
            from hcom.anchor,pass_mem_rules] at hpas
          obtain ⟨e,he,hliv,-,huid⟩ := hpas
          rw [hblo e he huid.symm] at hliv
          cases hliv
    cases hpha : record.phase with
    | ownerChecked =>
      -- The pass was never armed, so only the record goes.
      rcases hund.own with ⟨hreg,hanc,hman,hbas,-⟩ | ⟨record',hrec',hpha'⟩
      · have hdon : ∀ other, Host.Inherits base { h₁ with rest := h₁.rest.stage uid none } other := by
          intro other
          by_cases hsam : other=uid
          · subst hsam
            intro _ e hliv
            unfold Host.Live at hliv ⊢
            rw [show ({ h₁ with rest := h₁.rest.stage other none } : GateHost).registry=base.registry from hreg]
              at hliv
            exact ⟨hbas,hliv,hman⟩
          · exact (hund.others other hsam).trans
              (Host.Inherits.of_same rfl (GateFiles.staging_stage_of_ne _ _ hsam) rfl)
        refine Keeps.bind (R := fun _ h => h = { h₁ with rest := h₁.rest.stage uid none })
          (deleteStaging_spares ?_ ?_) fun _ => Keeps.pure ?_
        · rintro h rfl
          rfl
        · rintro h rfl
          exact hund.inherits
        · rintro h rfl
          exact ⟨hdon,fun hpas => hanc ▸ hpas⟩
      · rw [hrec] at hrec'
        cases hrec'
        exact absurd hpha hpha'
    | pfLoaded => exact htom (by rw [hpha]; decide)
    | manifestReloaded => exact htom (by rw [hpha]; decide)

/-- The entry and the pass of a generation stand, and the other uids are as they were. -/
structure Armed (base : GateHost) (c : CommittedGeneration) (h : GateHost) : Prop where
  others : ∀ other, other≠c.agentUid → Host.Inherits base h other
  live : ∃ e g, h.Live c.agentUid e ∧ e.gatePort=c.gatePort ∧ e.generationId=some g ∧ g.val=c.generationId
  pass : PfRule.pass c.gatePort c.agentUid∈h.anchor

structure Serves (base : GateHost) (c : CommittedGeneration) (h : GateHost) : Prop extends Armed base c h where
  unstaged : h.rest.staging c.agentUid=none
  manifest : h.rest.manifest c.agentUid=some ⟨c.gatePort,c.generationId⟩

variable {c : CommittedGeneration}

/-- What does not touch the registry and the anchor leaves a pass armed. -/
theorem Armed.of_same {h h' : GateHost} (harm : Armed base c h)
    (hreg : h'.registry=h.registry) (hanc : h'.anchor=h.anchor)
    (hoth : ∀ other, other≠c.agentUid → h'.rest.staging other=h.rest.staging other ∧
      h'.rest.manifest other=h.rest.manifest other) : Armed base c h' := by
  refine ⟨fun other hne => ?_,?_,?_⟩
  · exact (harm.others other hne).trans (Host.Inherits.of_same hreg (hoth other hne).1 (hoth other hne).2)
  · obtain ⟨e,g,hliv,hres⟩ := harm.live
    refine ⟨e,g,?_,hres⟩
    unfold Host.Live at hliv ⊢
    rwa [hreg]
  · rw [hanc]
    exact harm.pass

def Host.Exposed (h : GateHost) (uid : Nat) : Prop :=
  ∃ record, h.rest.staging uid=some record ∧ record.phase≠.ownerChecked

theorem armEntry_serves {g : Generation} (hg : c.generationId=g.val)
    (hoth : ∀ other, other≠c.agentUid → Host.Inherits base h₀ other) (hexp : h₀.Exposed c.agentUid) :
    Keeps (FreesSafely uid port base before) Sharp (fun h => h=h₀) (armEntry env.pf c)
      (fun _ h => Armed base c h ∧ h.Exposed c.agentUid) (Underway base c.agentUid) := by
  unfold armEntry addOrUpdate
  refine Keeps.bind (R := fun _ h => Armed base c h ∧ h.Exposed c.agentUid) ?_ fun _ => Keeps.pure fun _ hs => hs
  split
  · refine Keeps.fail ?_
    rintro h rfl
    exact ⟨hoth,.inr hexp⟩
  · rename_i validated hval
    obtain ⟨huid,hgen⟩ := validateEntry_names hval
    obtain ⟨hpor,htom⟩ := validateEntry_pass hval
    rw [Option.bind_some,asNonNegativeInteger_natCast] at huid hpor
    rw [Option.bind_some,hg,asGeneration_val] at hgen
    have hvui : validated.agentUid=c.agentUid := (Option.some_inj.mp huid).symm
    have hspa : ∀ s₀ desired, Plan h₀ (fun committed =>
        .ok (committed.filter (fun e => e.agentUid≠validated.agentUid)++[validated])) s₀ desired →
        Spares s₀ desired c.agentUid ∧ validated∈desired.entries := by
      intro s₀ desired hpla
      have hent := Except.ok.inj hpla.desired_entries
      constructor
      · intro e he hne
        rw [← hent] at he
        rcases List.mem_append.mp he with he | he
        · exact List.mem_of_mem_filter he
        · rw [List.mem_singleton.mp he] at hne
          exact absurd hvui hne
      · rw [← hent]
        exact List.mem_append_right _ (List.mem_singleton_self _)
    have hvis : ∀ s₀ desired, Plan h₀ (fun committed =>
        .ok (committed.filter (fun e => e.agentUid≠validated.agentUid)++[validated])) s₀ desired →
        ∀ h, Visits False h₀ s₀ desired h →
          (∀ other, other≠c.agentUid → Host.Inherits base h other) ∧ h.Exposed c.agentUid := by
      intro s₀ desired hpla h hv
      refine ⟨fun other hne => (hoth other hne).trans (hv.inherits hpla.load (hspa s₀ desired hpla).1 hne),?_⟩
      obtain ⟨record,hrec,hpha⟩ := hexp
      exact ⟨record,by rw [hv.rest]; exact hrec,hpha⟩
    refine Keeps.weaken (mutate_keeps False (fun hfal => hfal.elim) ?_) (fun _ hs => hs) ?_ ?_
    · intro s₀ desired hpla h older h' hfre hv hv'
      refine hfre.cons fun hhel => ?_
      rw [hv'.rest,← hv.rest]
      exact hhel
    · rintro st h ⟨s₀,desired,hpla,hcom⟩
      obtain ⟨hoth',hexp'⟩ := hvis s₀ desired hpla h hcom.visits
      have hmem := (hspa s₀ desired hpla).2
      have hliv : validated.tombstone=false := (Option.some_inj.mp htom).symm
      refine ⟨⟨hoth',⟨validated,g,?_,(Option.some_inj.mp hpor).symm,hgen.symm,hg.symm⟩,?_⟩,hexp'⟩
      · obtain ⟨loaded,hst,hloa,-⟩ := normalizeState_raw st
        refine ⟨loaded,by rw [hcom.registry]; exact hst,?_,hvui,hliv⟩
        rw [hloa,hcom.committed]
        exact hmem
      · rw [hcom.anchor,pass_mem_rules]
        exact ⟨validated,hmem,hliv,Option.some_inj.mp hpor,hvui.symm⟩
    · rintro h (rfl | ⟨s₀,desired,hpla,hv⟩)
      · exact ⟨hoth,.inr hexp⟩
      · obtain ⟨hoth',hexp'⟩ := hvis s₀ desired hpla h hv
        exact ⟨hoth',.inr hexp'⟩

theorem armAndPublish_serves {g : Generation} (hg : c.generationId=g.val)
    (hoth : ∀ other, other≠c.agentUid → Host.Inherits base h₀ other) (hreg : h₀.registry=base.registry)
    (hanc : h₀.anchor=base.anchor) (hman : h₀.rest.manifest c.agentUid=base.rest.manifest c.agentUid)
    (hbas : base.Settled c.agentUid) (hset : h₀.Settled c.agentUid) :
    Keeps (FreesSafely uid port base before) Sharp (fun h => h=h₀) (armAndPublish env c)
      (fun c' h => c'=c ∧ Serves base c h) (Underway base c.agentUid) := by
  have hsta : ∀ (h : GateHost) (record : GenerationStagingRecord), record.agentUid=c.agentUid →
      (∀ other, other≠c.agentUid → Host.Inherits base h other) → ∀ other, other≠c.agentUid →
        Host.Inherits base { h with rest := h.rest.stage record.agentUid (some record) } other := by
    intro h record huid hinh other hne
    refine (hinh other hne).trans (Host.Inherits.of_same rfl (GateFiles.staging_stage_of_ne _ _ ?_) rfl)
    rw [huid]
    exact hne
  have hund : ∀ h : GateHost, Armed base c h ∧ h.Exposed c.agentUid → Underway base c.agentUid h :=
    fun h hs => ⟨hs.1.others,.inr hs.2⟩
  unfold armAndPublish
  let first : GateHost := { h₀ with rest := h₀.rest.stage c.agentUid (some { c with phase := .ownerChecked }) }
  let second : GateHost := { first with rest := first.rest.stage c.agentUid (some { c with phase := .pfLoaded }) }
  have hfir : ∀ other, other≠c.agentUid → Host.Inherits base first other :=
    hsta h₀ { c with phase := .ownerChecked } rfl hoth
  refine Keeps.bind (R := fun _ h => h=first) (saveStaging_spares ?_ ?_) fun _ =>
    Keeps.bind (R := fun _ h => h=second) (saveStaging_spares ?_ ?_) fun _ =>
      Keeps.bind (R := fun _ h => Armed base c h ∧ h.Exposed c.agentUid)
        (armEntry_serves hg (hsta first { c with phase := .pfLoaded } rfl hfir) ?_) fun _ =>
        Keeps.bind (R := fun _ h => Armed base c h ∧ h.Exposed c.agentUid) (saveStaging_spares ?_ hund) fun _ =>
          Keeps.bind (R := fun _ h => (Armed base c h ∧ h.Exposed c.agentUid) ∧
              h.rest.manifest c.agentUid=some ⟨c.gatePort,c.generationId⟩)
            (write_spares (by decide) ?_ ?_ hund) fun _ =>
            Keeps.bind (R := fun _ => Serves base c) (deleteStaging_spares ?_ ?_)
              fun _ => Keeps.pure fun h hs => ⟨rfl,hs⟩
  · rintro h rfl
    rfl
  · rintro h rfl
    exact ⟨hoth,.inl ⟨hreg,hanc,hman,hbas,hset⟩⟩
  · rintro h rfl
    rfl
  · rintro h rfl
    refine ⟨hfir,.inl ⟨hreg,hanc,hman,hbas,?_⟩⟩
    intro record hrec
    rw [show first.rest.staging c.agentUid=some { c with phase := .ownerChecked }
      from GateFiles.staging_stage_self ..] at hrec
    cases hrec
    rfl
  · exact ⟨{ c with phase := .pfLoaded },GateFiles.staging_stage_self ..,fun hpha => nomatch hpha⟩
  · rintro h ⟨harm,-⟩
    refine ⟨harm.of_same rfl rfl fun other hne => ⟨GateFiles.staging_stage_of_ne _ _ hne,rfl⟩,?_⟩
    exact ⟨{ c with phase := .manifestReloaded },GateFiles.staging_stage_self ..,fun hpha => nomatch hpha⟩
  · intro h h' hwri hpor
    cases hwri
    exact hpor
  · rintro h h' ⟨harm,hexp⟩ hwri
    cases hwri
    exact ⟨⟨harm.of_same rfl rfl fun other hne => ⟨rfl,Function.update_of_ne hne ..⟩,hexp⟩,
      Function.update_self ..⟩
  · rintro h ⟨⟨harm,-⟩,hpub⟩
    exact ⟨harm.of_same rfl rfl fun other hne => ⟨GateFiles.staging_stage_of_ne _ _ hne,rfl⟩,
      GateFiles.staging_stage_self ..,hpub⟩
  · exact fun h hs => hund h hs.1

/-- What a committed bring-up of the uid in `env` went through. -/
structure BroughtUp (env : GateEnv) (uid : Nat) (base : GateHost) (c : CommittedGeneration) (h : GateHost) : Prop where
  agentUid : c.agentUid=uid
  gatePort : c.gatePort=env.binding.port
  owned : env.owner c.gatePort env.binding.pid env.binding.pidStart=true
  serves : Serves base c h

theorem bringUpSteps_serves {fortress : String}
    (hoth : ∀ other, other≠uid → Host.Inherits base h₀ other) (hreg : h₀.registry=base.registry)
    (hanc : h₀.anchor=base.anchor) (hman : h₀.rest.manifest uid=base.rest.manifest uid)
    (hbas : base.Settled uid) (hset : h₀.Settled uid) :
    Keeps (FreesSafely uid port base before) Sharp (fun h => h=h₀) (bringUpSteps env uid fortress)
      (BroughtUp env uid base) (Underway base uid) := by
  have hsta : ∀ h, h=h₀ → Underway base uid h := by
    rintro h rfl
    exact ⟨hoth,.inl ⟨hreg,hanc,hman,hbas,hset⟩⟩
  have hlis : Keeps (FreesSafely uid port base before) Sharp (fun h => h=h₀) listRegistry
      (fun _ h => h=h₀) (Underway base uid) := Keeps.read (fun _ _ hs _ => hs) hsta
  unfold bringUpSteps readEntry readGenerationFloor
  refine Keeps.bind (Keeps.bind hlis fun _ => Keeps.pure fun _ hs => hs) fun committed =>
    Keeps.bind (Keeps.bind hlis fun _ => Keeps.pure fun _ hs => hs) fun floor =>
      Keeps.bind (R := fun _ h => h=h₀) (Keeps.ofExcept (fun _ _ _ hs => hs) hsta) fun g =>
        Keeps.bind (R := fun owned h => h=h₀ ∧
          env.owner env.binding.port env.binding.pid env.binding.pidStart=owned) (Keeps.read ?_ hsta) fun owned => ?_
  · rintro h owned rfl hown
    exact ⟨rfl,Except.ok.inj hown⟩
  split_ifs with hown
  · refine Keeps.of_each fun h ⟨hs,hche⟩ => ?_
    subst hs
    refine Keeps.weaken (armAndPublish_serves rfl hoth hreg hanc hman hbas hset) (fun _ hs => hs) ?_
      fun _ hs => hs
    rintro c' h' ⟨rfl,hser⟩
    exact ⟨rfl,rfl,hche.trans hown,hser⟩
  · exact Keeps.fail fun h hs => hsta h hs.1

theorem attemptBringUp_serves {fortress : String} :
    Keeps (FreesSafely uid port base before) Sharp (fun h => h=base) (attemptBringUp env uid fortress)
      (fun r h => (∀ c, r=.ok c → BroughtUp env uid base c h) ∧ ∀ err, r=.error err → Underway base uid h)
      (fun h => ∀ other, Host.Inherits base h other) := by
  have hsam : ∀ h, h=base → ∀ other, Host.Inherits base h other := by
    rintro h rfl other
    exact Host.Inherits.refl
  unfold attemptBringUp
  refine Keeps.bind (R := fun record h => h=base ∧ base.rest.staging uid=record) (Keeps.read ?_ hsam) fun record => ?_
  · rintro h record rfl hloa
    refine ⟨rfl,?_⟩
    split at hloa
    · cases hloa
      assumption
    · split_ifs at hloa
      cases hloa
      assumption
  cases record with
  | some record => exact Keeps.fail fun h hs => hsam h hs.1
  | none =>
    let bound : GateHost :=
      { base with rest := { base.rest with held := env.binding.port::base.rest.held } }
    refine Keeps.of_each fun h₀ ⟨hs,hnone⟩ => ?_
    subst hs
    have hset : h₀.Settled uid := by
      intro record hrec
      rw [hnone] at hrec
      cases hrec
    refine Keeps.bind (R := fun _ h => h=bound) (write_spares (by decide) ?_ ?_ hsam) fun _ =>
      Keeps.attempt (bringUpSteps_serves (fun _ _ => Host.Inherits.of_same rfl rfl rfl) rfl rfl rfl hset hset)
        fun h hs => hs.inherits
    · intro h h' hwri hhel
      split_ifs at hwri
      cases hwri
      exact List.mem_cons_of_mem _ hhel
    · rintro h h' rfl hwri
      split_ifs at hwri
      cases hwri
      rfl

/-- A bring-up commits its generation, or leaves nothing live that was not. -/
theorem bringUp_serves (env : GateEnv) (request : GenerationBringUpRequest) :
    Keeps (FreesSafely request.agentUid env.binding.port base before) Sharp (fun h => h=base) (bringUp env request)
      (BroughtUp env request.agentUid base) (fun h => ∀ other, Host.Inherits base h other) := by
  unfold bringUp
  split_ifs
  · refine Keeps.fail ?_
    rintro h rfl other
    exact Host.Inherits.refl
  refine Keeps.bind attemptBringUp_serves fun r => ?_
  cases r with
  | ok c => exact Keeps.pure fun h hs => hs.1 c rfl
  | error err =>
    refine Keeps.of_each fun h₀ hs => ?_
    unfold recoverAndRelease
    refine Keeps.attempt_bind (recoverLocked_inherits env env.binding.port (hs.2 err rfl)) (fun _ hs => hs) (fun _ => ?_)
      fun _ => Keeps.fail fun _ hs => hs
    refine Keeps.bind (R := fun _ h => ∀ other, Host.Inherits base h other) (Keeps.weaken (Keeps.attempt
      (Q := fun _ h => ∀ other, Host.Inherits base h other) (E := fun h => ∀ other, Host.Inherits base h other)
      (G := fun h => ∀ other, Host.Inherits base h other) (Keeps.write ?_ ?_ fun _ hs => hs.1) fun _ hs => hs)
      (fun _ hs => hs) ?_ fun _ hs => hs) fun _ => Keeps.fail fun _ hs => hs
    · rintro h older h' hfre ⟨hinh,hpas⟩ hwri
      cases hwri
      exact ⟨hfre.step fun _ _ => hpas,fun other => (hinh other).trans (Host.Inherits.of_same rfl rfl rfl)⟩
    · rintro fault n - - h h' ⟨hinh,-⟩ hwri
      cases hwri
      exact fun other => (hinh other).trans (Host.Inherits.of_same rfl rfl rfl)
    · intro r h hr
      cases r with
      | ok u => exact hr.1 u rfl
      | error err => exact hr.2 err rfl

end Recovery

def GateAct.Gating : GateAct → Prop
  | .bringUp _ _ => True
  | .recover _ _ => True
  | .gateExits _ => True
  | .remove _ _ => False
  | .repairQuarantined _ => False

/-- The process, begun in `w`, is a bring-up of the uid that ends with `c`. -/
def GateProcess.Commits (p : GateProcess) (w : World Call GateHost) (uid : Nat) (c : CommittedGeneration) : Prop :=
  ∃ env request, p.act=.bringUp env request ∧ request.agentUid=uid ∧ (bringUp env request (w.restart p.fault)).1=.ok c

/-- The states since the one whose past is `before`, newest first. -/
def statesSince (before history : List GateHost) : List GateHost := history.take (history.length - before.length)

theorem statesSince_append (added before : List GateHost) (base : GateHost) :
    statesSince before (added++base::before)=added++[base] := by
  have hlen : (added++base::before).length - before.length=(added++[base]).length := by
    simp only [List.length_append,List.length_cons,List.length_nil]
    omega
  rw [statesSince,hlen,List.append_cons added base before,List.take_left]

theorem runGate_append (first second : List GateProcess) (w : World Call GateHost) :
    runGate (first++second) w=runGate second (runGate first w) := runs_append ..

theorem bind_unit_world {α : Type} (m : GateProg α) (w : World Call GateHost) :
    ((do let _ ← m; pure () : GateProg Unit) w).2=(m w).2 := by
  simp only [Bind.bind]
  generalize m w=r
  obtain ⟨ended,w'⟩ := r
  cases ended <;> rfl

section Process

variable {p : GateProcess} {w : World Call GateHost}

theorem runGate_bringUp {env : GateEnv} {request : GenerationBringUpRequest} (hact : p.act=.bringUp env request) :
    runGate [p] w=(bringUp env request (w.restart p.fault)).2 := by
  change (p.run (w.restart p.fault)).2=_
  unfold GateProcess.run
  rw [hact]
  exact bind_unit_world ..

theorem frees_of_bringUp {env : GateEnv} {request : GenerationBringUpRequest} (hact : p.act=.bringUp env request)
    (hsha : Sharp p.fault) :
    FreesSafely request.agentUid env.binding.port w.state w.earlier (runGate [p] w).history := by
  rw [runGate_bringUp hact]
  exact (bringUp_serves env request (w.restart p.fault) hsha ⟨[],rfl,trivial⟩ rfl).2.1

theorem Serves.of_commits {uid : Nat} {c : CommittedGeneration} (hsha : Sharp p.fault) (hcom : p.Commits w uid c) :
    ∃ env, (∃ request, p.act=.bringUp env request) ∧ BroughtUp env uid w.state c (runGate [p] w).state := by
  obtain ⟨env,request,hact,huid,hok⟩ := hcom
  refine ⟨env,⟨request,hact⟩,?_⟩
  obtain ⟨-,-,hend⟩ := bringUp_serves env request (w.restart p.fault) hsha
    ⟨[],rfl,trivial⟩ rfl
  rw [hok] at hend
  rw [runGate_bringUp hact,← huid]
  exact hend

/-- A process that does not commit for the uid makes nothing live for it. -/
theorem inherits_of_process (hgat : p.act.Gating) (hsha : Sharp p.fault) {uid : Nat}
    (hcom : ∀ c, ¬ p.Commits w uid c) : Host.Inherits w.state (runGate [p] w).state uid := by
  cases hact : p.act with
  | bringUp env request =>
    obtain ⟨-,-,hend⟩ := bringUp_serves env request (w.restart p.fault) hsha
      ⟨[],rfl,trivial⟩ rfl
    rw [runGate_bringUp hact]
    cases hr : (bringUp env request (w.restart p.fault)).1 with
    | ok c =>
      rw [hr] at hend
      refine hend.serves.others uid fun hsam => hcom c ⟨env,request,hact,?_,hr⟩
      rw [hsam]
      exact hend.agentUid.symm
    | error err =>
      rw [hr] at hend
      exact hend uid
    | crashed =>
      rw [hr] at hend
      exact hend uid
  | recover env other =>
    obtain ⟨-,-,hend⟩ := recoverLocked_inherits env 0 (Underway.start w.state other)
      (w.restart p.fault) hsha ⟨[],rfl,trivial⟩ rfl
    have hrun : runGate [p] w=(recoverLocked env other (w.restart p.fault)).2 := by
      change (p.run (w.restart p.fault)).2=_
      unfold GateProcess.run
      rw [hact]
      exact bind_unit_world ..
    rw [hrun]
    cases hr : (recoverLocked env other (w.restart p.fault)).1 with
    | ok outcome =>
      rw [hr] at hend
      exact hend.1 uid
    | error err =>
      rw [hr] at hend
      exact hend uid
    | crashed =>
      rw [hr] at hend
      exact hend uid
  | gateExits port =>
    change Host.Inherits w.state (p.run (w.restart p.fault)).2.state uid
    unfold GateProcess.run
    rw [hact]
    exact Host.Inherits.of_same rfl rfl rfl
  | remove pf other =>
    rw [hact] at hgat
    exact hgat.elim
  | repairQuarantined pf =>
    rw [hact] at hgat
    exact hgat.elim

end Process

/-- A bring-up of the run passed the owner check, armed the pass, published the manifest and committed `c` for the
uid, and no process after it committed for the uid. -/
def LastCommitted (w : World Call GateHost) (ps : List GateProcess) (uid : Nat) (c : CommittedGeneration) : Prop :=
  ∃ past p since, ps=past++p::since ∧ p.Commits (runGate past w) uid c ∧
    (∃ env request, p.act=.bringUp env request ∧
      env.owner c.gatePort env.binding.pid env.binding.pidStart=true) ∧
    PfRule.pass c.gatePort uid∈(runGate (past++[p]) w).state.anchor ∧
    (runGate (past++[p]) w).state.rest.manifest uid=some ⟨c.gatePort,c.generationId⟩ ∧
    ∀ mid q rest, since=mid++q::rest → ∀ c', ¬ q.Commits (runGate (past++p::mid) w) uid c'

theorem Host.Live.unique {h : GateHost} {uid : Nat} {e e' : PfAnchorRegistryEntry} (hliv : h.Live uid e)
    (hliv' : h.Live uid e') : e=e' := by
  obtain ⟨s₀,hloa,hmem,huid,-⟩ := hliv
  obtain ⟨s₁,hloa',hmem',huid',-⟩ := hliv'
  rw [hloa] at hloa'
  cases hloa'
  exact List.inj_on_of_nodup_map s₀.committed.distinct hmem hmem' (huid.trans huid'.symm)

theorem LastCommitted.append {w : World Call GateHost} {ps : List GateProcess} {uid : Nat} {c : CommittedGeneration}
    (h : LastCommitted w ps uid c) {q : GateProcess} (hq : ∀ c', ¬ q.Commits (runGate ps w) uid c') :
    LastCommitted w (ps++[q]) uid c := by
  obtain ⟨past,p,since,rfl,hcom,hche,hpas,hman,hlas⟩ := h
  refine ⟨past,p,since++[q],by simp,hcom,hche,hpas,hman,fun mid q' rest hspl => ?_⟩
  rcases rest.eq_nil_or_concat with rfl | ⟨rest,r,rfl⟩
  · obtain ⟨rfl,hlas'⟩ := List.append_inj' hspl rfl
    cases hlas'
    exact hq
  · have hsho : since++[q]=(mid++q'::rest)++[r] := by
      rw [hspl]
      simp
    exact hlas mid q' rest (List.append_inj' hsho rfl).1

theorem live_committed {start : GateHost} (hsta : ∀ uid e, ¬ start.Live uid e) (ps : List GateProcess)
    (hps : ∀ p∈ps, p.act.Gating ∧ Sharp p.fault) (uid : Nat) (e : PfAnchorRegistryEntry)
    (hset : (runGate ps (World.initial start)).state.Settled uid)
    (hliv : (runGate ps (World.initial start)).state.Live uid e) :
    ∃ c g, LastCommitted (World.initial start) ps uid c ∧ e.gatePort=c.gatePort ∧ e.generationId=some g ∧
      g.val=c.generationId := by
  induction ps using List.reverseRecOn with
  | nil => exact absurd hliv (hsta uid e)
  | append_singleton ps q ih =>
    obtain ⟨hgat,hsha⟩ := hps q (List.mem_append_right _ (List.mem_singleton_self q))
    by_cases hcom : ∃ c, q.Commits (runGate ps (World.initial start)) uid c
    · obtain ⟨c,hcom⟩ := hcom
      obtain ⟨env,⟨request,hact⟩,hbro⟩ := Serves.of_commits hsha hcom
      obtain ⟨e',g,hliv',hpor,hgen,hval⟩ := hbro.serves.live
      rw [← runGate_append] at hbro hliv'
      rw [hbro.agentUid] at hliv'
      rw [hliv.unique hliv']
      refine ⟨c,g,⟨ps,q,[],rfl,hcom,⟨env,request,hact,hbro.owned⟩,?_,?_,?_⟩,hpor,hgen,hval⟩
      · rw [← hbro.agentUid]
        exact hbro.serves.pass
      · rw [← hbro.agentUid]
        exact hbro.serves.manifest
      · intro mid q' rest hnil
        cases mid <;> cases hnil
    · rw [not_exists] at hcom
      rw [runGate_append] at hset hliv
      obtain ⟨hset',hliv',-⟩ := inherits_of_process hgat hsha hcom hset e hliv
      obtain ⟨c,g,hlas,hres⟩ := ih (fun p hp => hps p (List.mem_append_left _ hp)) hset' hliv'
      exact ⟨c,g,hlas.append hcom,hres⟩

/-- In every run of bring-ups, recoveries and exits in which an operation takes effect and returns or fails without
effect: a state that serves serves the generation that a bring-up committed last for the uid, and a bring-up frees
its port only under a pass that stood before it. -/
theorem serves_last_committed (start : GateHost) (hstart : ∀ uid e, ¬ start.Live uid e) (ps : List GateProcess)
    (hps : ∀ p∈ps, p.act.Gating ∧ Sharp p.fault) :
    (∀ uid m, (runGate ps (World.initial start)).state.gateMatch uid=.ok m → m.serve=true →
      ∃ c, (runGate ps (World.initial start)).state.resolved uid=.ok ⟨some c.generationId,some c.gatePort⟩ ∧
        LastCommitted (World.initial start) ps uid c) ∧
    ∀ past p since env request, ps=past++p::since → p.act=.bringUp env request →
      Frees request.agentUid env.binding.port
        (PfRule.pass env.binding.port request.agentUid∈(runGate past (World.initial start)).state.anchor)
        (statesSince (runGate past (World.initial start)).earlier
          (runGate (past++[p]) (World.initial start)).history) := by
  constructor
  · intro uid m hmat hser
    obtain ⟨e,g,hliv,huns,hgen,hres,-,-⟩ := serve_inv hmat hser
    have hset : (runGate ps (World.initial start)).state.Settled uid := by
      intro record hrec
      rw [huns] at hrec
      cases hrec
    obtain ⟨c,g',hlas,hpor,hgen',hval⟩ := live_committed hstart ps hps uid e hset hliv
    rw [hgen] at hgen'
    cases hgen'
    refine ⟨c,?_,hlas⟩
    rw [hres,hval,hpor]
  · intro past p since env request hspl hact
    have hsha : Sharp p.fault := (hps p (by rw [hspl]; simp)).2
    obtain ⟨added,hadd,hfre⟩ := frees_of_bringUp (w := runGate past (World.initial start)) hact hsha
    rw [runGate_append,hadd,statesSince_append]
    exact hfre

instance Frees.decidable (uid port : Nat) (stood : Prop) [Decidable stood] :
    ∀ history, Decidable (Frees uid port stood history)
  | [] => .isTrue trivial
  | [_] => .isTrue trivial
  | h::h'::before =>
    have := Frees.decidable uid port stood (h'::before)
    inferInstanceAs (Decidable ((port∈h'.rest.held → port∉h.rest.held → PfRule.pass port uid∈h.anchor → stood) ∧
      Frees uid port stood (h'::before)))

namespace ServingSample

open FreshnessSample

def exits : GateProcess := ⟨.gateExits 40001,fun _ _ => .none⟩

def strangers : GateProcess := ⟨.bringUp { env 40001 with owner := fun _ _ _ => false } ⟨501,"/fortress"⟩,fun _ _ => .none⟩

theorem fresh_not_live (uid : Nat) (e : PfAnchorRegistryEntry) : ¬ fresh.Live uid e := by
  rintro ⟨s₀,hloa,hmem,-⟩
  cases hloa
  cases hmem

theorem sharp_none : Sharp fun _ _ => .none := fun _ _ _ hlat => nomatch hlat

end ServingSample

open FreshnessSample ServingSample in
/-- The committed generation stands while a later bring-up on its port fails, so its pass is there when the port is
freed. -/
theorem port_freed_under_standing_pass :
    ¬ ∀ (start : GateHost), (∀ uid e, ¬ start.Live uid e) → ∀ ps : List GateProcess,
      (∀ p∈ps, p.act.Gating ∧ Sharp p.fault) → ∀ past p since env request, ps=past++p::since →
        p.act=.bringUp env request → Frees request.agentUid env.binding.port False
          (statesSince (runGate past (World.initial start)).earlier
            (runGate (past++[p]) (World.initial start)).history) := by
  intro hall
  have hps : ∀ p∈[first,exits,strangers], p.act.Gating ∧ Sharp p.fault := by
    simp only [List.forall_mem_cons]
    exact ⟨⟨trivial,sharp_none⟩,⟨trivial,sharp_none⟩,⟨trivial,sharp_none⟩,fun p hp => nomatch hp⟩
  have hfre := hall fresh fresh_not_live _ hps [first,exits] strangers [] _ _ rfl rfl
  revert hfre
  decide +kernel

open FreshnessSample ServingSample in
theorem serves_last_committed_once :
    ∃ c, (runGate [first] (World.initial fresh)).state.resolved 501=.ok ⟨some c.generationId,some c.gatePort⟩ ∧
      LastCommitted (World.initial fresh) [first] 501 c := by
  have hser : ((runGate [first] (World.initial fresh)).state.gateMatch 501).map (·.serve)=.ok true := by
    decide +kernel
  cases hmat : (runGate [first] (World.initial fresh)).state.gateMatch 501 with
  | error err =>
    rw [hmat] at hser
    cases hser
  | ok m =>
    rw [hmat] at hser
    exact (serves_last_committed fresh fresh_not_live [first]
      (List.forall_mem_singleton.mpr ⟨trivial,sharp_none⟩)).1 501 m hmat (Except.ok.inj hser)

end CastleWall.Egress
