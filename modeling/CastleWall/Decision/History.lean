import CastleWall.Decision.Settle

/-! # What every history of the daemon keeps

Boot loads, reloads, publications, edits of the policy files, appends to the log and restarts, in any order
and with any faults: the armed identity, the order of the committed generations and the receipts of the
committed manifests. -/

namespace CastleWall.Decision

open Text Policy Manifest Audit

/-- No fault and no cancellation after the receipt. -/
def HostOp.Completes : HostOp → Prop
  | .boot call => call.persist = {}
  | .reload _ _ call => call.persist = {}
  | .publish _ _ _ call =>
    (call.faults.pointerWrite=none ∧ call.faults.pointerRename=none ∧ call.faults.policyDirSync=none ∧
      call.faults.persist = {}) ∧ call.cancelled=false
  | _ => True

def HostOp.isRestart : HostOp → Bool
  | .restart .. => true
  | _ => false

inductive Stepped (env : DecisionEnv) (op : HostOp) (host : Host) : Host → List Effect → Prop where
  | idle : Stepped env op host host []
  | changed {operation context host' effects result}
    (settled : Settlement env .frozen operation context (¬ op.Completes) host host' effects result) :
    Stepped env op host host' effects
  | booted {host' effects result} (unarmed : host.engine.armedIdentity=none)
    (settled : Settlement env .bootFreeze bootManifestLoadOperation bootManifestLoadContext
      (¬ op.Completes) host host' effects result) :
    Stepped env op host { host' with engine := (freezeAtBoot host'.engine result).1 } effects
  | edited (root : BundleDir) (generations : Option (List (String × BundleDir))) :
    Stepped env op host { host with disk := { host.disk with root := root, generations := generations } } []
  | logged (wal : Option WalWriter) :
    Stepped env op host { host with engine := { host.engine with walWriter := wal } } []
  | restarted {pointer highWater} (wal : Option WalWriter) (asked : op.isRestart=true)
    (found : highWater∈host.disk.highWater.survivors) :
    Stepped env op host (restartHost host pointer highWater wal) []

section Steps

variable {env : DecisionEnv}

theorem stepHost_stepped (hlaw : env.wal.Lawful) (host : Host) (op : HostOp) :
    Stepped env op host (stepHost env host op).1 (stepHost env host op).2 := by
  cases op with
  | boot call =>
    have hlat : (call.persist ≠ {} ∨ False) = ¬ (HostOp.boot call).Completes := by
      simp [HostOp.Completes]
    rcases boot_settles hlaw host call with ⟨hhos,heff⟩ | ⟨huna,host',result,hset,hhos⟩
    · simp only [stepHost,hhos,heff]
      exact .idle
    · rw [hlat] at hset
      simp only [stepHost,hhos]
      exact .booted huna hset
  | reload operation context call =>
    have hlat : (call.persist ≠ {} ∨ False) = ¬ (HostOp.reload operation context call).Completes := by
      simp [HostOp.Completes]
    have hset := reload_settles hlaw host operation context call
    rw [hlat] at hset
    exact .changed hset
  | publish context bundle name call =>
    have hlat : (call.faults.Late ∨ call.cancelled=true) =
        ¬ (HostOp.publish context bundle name call).Completes := by
      rw [HostOp.Completes,PublishFaults.Late,← Bool.not_eq_false,← not_and_or]
    have hset := publish_settles hlaw host context bundle name call
    rw [hlat] at hset
    exact .changed hset
  | edit root generations => exact .edited root generations
  | audit wal => exact .logged wal
  | restart pointer highWater wal =>
    simp only [stepHost]
    split_ifs with hfou
    · exact .restarted wal rfl hfou.2
    · exact .idle

end Steps

/-- Nothing is live before an identity is armed, and from then on only snapshots of its subject are. -/
structure Armed (host : Host) : Prop where
  empty : host.engine.armedIdentity=none → ∀ store, host.engine.manifestStore=some store →
    store.currentSnapshot=none
  same : ∀ frozen, host.engine.armedIdentity=some frozen → ∀ store snapshot,
    host.engine.manifestStore=some store → store.currentSnapshot=some snapshot →
    ∃ identity, AdmittedIdentity.fromSnapshot snapshot=.ok identity ∧ identity.subject=frozen.subject

theorem Fresh.armed {host : Host} (h : Fresh host) : Armed host where
  empty _ store hsto := (h.empty store hsto).2
  same frozen hfro := absurd (h.unarmed.symm.trans hfro) (by simp)

section Armed

variable {env : DecisionEnv} {host host' : Host} {effects : List Effect}

/-- The invariant reads only the cell and the store. -/
theorem Armed.congr (h : Armed host) (hcel : host'.engine.armedIdentity=host.engine.armedIdentity)
    (hsto : host'.engine.manifestStore=host.engine.manifestStore) : Armed host' where
  empty := by
    rw [hcel,hsto]
    exact h.empty
  same := by
    rw [hcel,hsto]
    exact h.same

theorem refuseIdentityChange_ok {admission : AdmissionEnv} {engine : DecisionEngine} {loaded : LoadedManifest}
    {snapshot : PolicySnapshot} (h : refuseIdentityChange admission engine loaded=.ok ())
    (hsna : fromLoadedManifest admission loaded=.ok snapshot) :
    ∃ frozen identity, engine.armedIdentity=some frozen ∧
      AdmittedIdentity.fromSnapshot snapshot=.ok identity ∧ identity.subject=frozen.subject := by
  unfold refuseIdentityChange at h
  split at h
  · exact absurd h (by simp)
  · rename_i frozen hfro
    rw [hsna] at h
    dsimp only at h
    split at h
    · exact absurd h (by simp)
    · rename_i identity hide
      split_ifs at h with hsub
      exact ⟨frozen,identity,hfro,hide,hsub⟩

theorem armed_of_empty (hemp : ∀ store, host.engine.manifestStore=some store → store.currentSnapshot=none) :
    Armed host where
  empty _ := hemp
  same _ _ store _ hsto hsna :=
    absurd ((hemp store hsto).symm.trans hsna) (by simp)

/-- The freeze writes nothing but the cell. -/
theorem freezeAtBoot_frame (engine : DecisionEngine) (result : Except ReloadError ManifestReloadSummary) :
    (freezeAtBoot engine result).1.manifestStore=engine.manifestStore ∧
      (freezeAtBoot engine result).1.walWriter=engine.walWriter := by
  unfold freezeAtBoot
  split
  · exact ⟨rfl,rfl⟩
  · exact ⟨rfl,rfl⟩
  · split <;> exact ⟨rfl,rfl⟩

theorem armed_step {op : HostOp} (h : Armed host) (hste : Stepped env op host host' effects) : Armed host' := by
  cases hste with
  | idle => exact h
  | edited root generations => exact h.congr rfl rfl
  | logged wal => exact h.congr rfl rfl
  | restarted wal asked found =>
    refine armed_of_empty fun store hsto => ?_
    simp only [restartHost,Option.map_eq_some_iff] at hsto
    obtain ⟨store',-,rfl⟩ := hsto
    rfl
  | changed settled =>
    cases settled with
    | refused => exact h
    | held wired frame mark receipts => exact h.congr frame.armed wired.symm
    | committed wired frame candidate admitted receipt sound mark =>
      obtain ⟨frozen,identity,hfro,hide,hsub⟩ :=
        refuseIdentityChange_ok (admitted rfl) candidate.admitted
      refine ⟨fun hnone => ?_,fun frozen' hfro' store snapshot hsto hsna => ?_⟩
      · exact absurd (hnone.symm.trans (frame.armed.trans hfro)) (by simp)
      · obtain rfl := Option.some.inj ((frame.armed.trans hfro).symm.trans hfro')
        obtain rfl := Option.some.inj hsto
        obtain rfl := Option.some.inj hsna
        exact ⟨identity,hide,hsub⟩
  | booted unarmed settled =>
    have hemp := h.empty unarmed
    cases settled with
    | refused =>
      apply armed_of_empty
      intro store hsto
      exact hemp store ((freezeAtBoot_frame _ _).1.symm.trans hsto)
    | held wired frame mark receipts =>
      apply armed_of_empty
      intro store hsto
      have hsam := (freezeAtBoot_frame _ _).1.symm.trans hsto
      exact hemp store (wired.trans hsam)
    | @committed store engine disk prepared row wired frame candidate admitted receipt sound mark =>
      -- An admitted snapshot always has an identity, so the cell is written with it.
      obtain ⟨identity,hide⟩ := AdmittedIdentity.fromSnapshot_admitted candidate.admitted
      have hboo : ∀ engine' : DecisionEngine, engine'.manifestStore=some { store with
          current := some prepared.loaded, currentSnapshot := some prepared.snapshot } →
          bootIdentity engine' (.ok
            { signatureB64url := prepared.loaded.manifestSignatureB64url
              ruleCount := prepared.loaded.ruleCount })=.ok (some identity) := by
        intro engine' hsto
        simp only [bootIdentity,hsto,Option.bind_some,hide]
      have huna : DecisionEngine.armedIdentity { engine with manifestStore := some { store with
          current := some prepared.loaded, currentSnapshot := some prepared.snapshot } } = none :=
        frame.armed.trans unarmed
      rcases freezeAtBoot_cases huna _ with ⟨identity',hcho,heng⟩ | ⟨hnone,-⟩
      · obtain rfl := Option.some.inj (Except.ok.inj ((hboo _ rfl).symm.trans hcho))
        rw [heng]
        refine ⟨fun hnone => absurd hnone (by simp),fun frozen hfro store' snapshot hsto hsna => ?_⟩
        obtain rfl := Option.some.inj hfro
        obtain rfl := Option.some.inj hsto
        obtain rfl := Option.some.inj hsna
        exact ⟨identity,hide,rfl⟩
      · exact absurd (hboo _ rfl) (hnone identity)

theorem armed_run (hlaw : env.wal.Lawful) (ops : List HostOp) :
    ∀ host : Host, Armed host → Armed (runHost env host ops).1 := by
  induction ops with
  | nil =>
    intro host h
    exact h
  | cons op ops ih =>
    intro host h
    exact ih _ (armed_step h (stepHost_stepped hlaw host op))

theorem cell_step {op : HostOp} {frozen : AdmittedIdentity} (hop : op.isRestart=false)
    (harm : host.engine.armedIdentity=some frozen) (hste : Stepped env op host host' effects) :
    host'.engine.armedIdentity=some frozen := by
  cases hste with
  | idle => exact harm
  | edited root generations => exact harm
  | logged wal => exact harm
  | restarted wal asked found => exact absurd (hop.symm.trans asked) (by simp)
  | booted unarmed settled => exact absurd (unarmed.symm.trans harm) (by simp)
  | changed settled =>
    cases settled with
    | refused => exact harm
    | held wired frame mark receipts => exact frame.armed.trans harm
    | committed wired frame candidate admitted receipt sound mark => exact frame.armed.trans harm

theorem cell_run (hlaw : env.wal.Lawful) {frozen : AdmittedIdentity} (ops : List HostOp) :
    ∀ host : Host, (∀ op∈ops, op.isRestart=false) → host.engine.armedIdentity=some frozen →
      (runHost env host ops).1.engine.armedIdentity=some frozen := by
  induction ops with
  | nil =>
    intro host _ harm
    exact harm
  | cons op ops ih =>
    intro host hops harm
    have hhea := hops op List.mem_cons_self
    have htai := fun op' hmem => hops op' (List.mem_cons_of_mem op hmem)
    exact ih _ htai (cell_step hhea harm (stepHost_stepped hlaw host op))

theorem runHost_singleton (env : DecisionEnv) (host : Host) (op : HostOp) :
    (runHost env host [op]).1=(stepHost env host op).1 ∧
      (runHost env host [op]).2=[(stepHost env host op).2] :=
  ⟨rfl,rfl⟩

theorem runHost_append (env : DecisionEnv) (ops more : List HostOp) :
    ∀ host : Host, (runHost env host (ops++more)).1=(runHost env (runHost env host ops).1 more).1 := by
  induction ops with
  | nil =>
    intro host
    rfl
  | cons op ops ih =>
    intro host
    exact ih _

/-- Once an identity is armed, it stays armed until a restart, and every snapshot that is live meanwhile
admits exactly its subject. -/
theorem armed_identity_holds (env : DecisionEnv) (hlaw : env.wal.Lawful) (host : Host) (hfresh : Fresh host)
    (ops more : List HostOp) (hmore : ∀ op∈more, op.isRestart=false) (frozen : AdmittedIdentity)
    (hfrozen : (runHost env host ops).1.engine.armedIdentity=some frozen) :
    (runHost env host (ops++more)).1.engine.armedIdentity=some frozen ∧
      ∀ store snapshot, (runHost env host (ops++more)).1.engine.manifestStore=some store →
        store.currentSnapshot=some snapshot → ∃ identity,
          AdmittedIdentity.fromSnapshot snapshot=.ok identity ∧ identity.subject=frozen.subject := by
  have hcel : (runHost env host (ops++more)).1.engine.armedIdentity=some frozen := by
    rw [runHost_append]
    exact cell_run hlaw more _ hmore hfrozen
  have harm := armed_run hlaw (ops++more) host hfresh.armed
  exact ⟨hcel,harm.same frozen hcel⟩

end Armed

def Precedes (earlier later : LoadedManifest) : Prop :=
  earlier.signed.manifest.generation ≤ later.signed.manifest.generation ∧
    (earlier.signed.manifest.generation=later.signed.manifest.generation →
      earlier.manifestSignatureB64url=later.manifestSignatureB64url)

def Covers (env : StoreEnv) (loaded : LoadedManifest) (content : Option (List UInt8)) : Prop :=
  ∃ bytes mark, content=some bytes ∧ env.highWaterFromSlice bytes=.ok mark ∧
    loaded.signed.manifest.generation ≤ mark.generation ∧
    (loaded.signed.manifest.generation=mark.generation →
      loaded.manifestSignatureB64url=mark.manifestSignatureB64url)

def commits : List Effect → List LoadedManifest
  | [] => []
  | .receipt _ _::effects => commits effects
  | .committed loaded::effects => loaded::commits effects

/-- The commits so far are in order, and every mark a restart may find is above them. -/
structure Guarded (env : StoreEnv) (past : List LoadedManifest) (host : Host) : Prop where
  ordered : past.Pairwise Precedes
  covered : ∀ loaded∈past, host.disk.highWater.Always (Covers env loaded)
  current : ∀ store loaded, host.engine.manifestStore=some store → store.current=some loaded →
    loaded∈past

section Generations

variable {env : DecisionEnv} {host host' : Host} {effects : List Effect} {past : List LoadedManifest}

theorem Fresh.guarded {host : Host} (h : Fresh host) : Guarded env.store [] host where
  ordered := List.Pairwise.nil
  covered _ hmem := absurd hmem List.not_mem_nil
  current store loaded hsto hcur :=
    absurd ((h.empty store hsto).1.symm.trans hcur) (by simp)

theorem precedes_of_covers {loaded candidate : LoadedManifest} {content : Option (List UInt8)}
    (hcov : Covers env.store loaded content) (hfol : Follows env.store content candidate) :
    Precedes loaded candidate := by
  obtain ⟨bytes,mark,hcon,hmar,hle,hsam⟩ := hcov
  obtain ⟨mark',hmar',hnex⟩ := hfol bytes hcon
  obtain rfl := Except.ok.inj (hmar.symm.trans hmar')
  rcases hnex with hlt | ⟨heq,hsig⟩
  · refine ⟨UInt64.le_of_lt (UInt64.lt_of_le_of_lt hle hlt),fun hequ => ?_⟩
    rw [hequ] at hle
    exact absurd hlt (UInt64.not_lt.mpr hle)
  · rw [Precedes,← heq,← hsig]
    exact ⟨hle,hsam⟩

theorem covers_markBytes (hlaw : env.store.Lawful) (store : ManifestStore) {loaded candidate : LoadedManifest}
    (h : Precedes loaded candidate) :
    Covers env.store loaded (some (markBytes env.store store candidate)) :=
  ⟨_,_,rfl,hlaw (highWaterOf store candidate),h⟩

theorem precedes_refl (loaded : LoadedManifest) : Precedes loaded loaded :=
  ⟨UInt64.le_refl _,fun _ => rfl⟩

theorem Guarded.candidate (h : Guarded env.store past host) {prepared : PreparedManifestReload}
    (hcan : Candidate env.store host.disk prepared) :
    ∀ loaded∈past, Precedes loaded prepared.loaded :=
  fun loaded hmem => precedes_of_covers (h.covered loaded hmem).visible hcan.follows

theorem Guarded.congr (h : Guarded env.store past host) (hmar : host.disk.highWater.Kept host'.disk.highWater)
    (hsto : host'.engine.manifestStore=host.engine.manifestStore) : Guarded env.store past host' where
  ordered := h.ordered
  covered loaded hmem := (h.covered loaded hmem).kept hmar
  current := by
    rw [hsto]
    exact h.current

theorem commits_append (xs ys : List Effect) : commits (xs++ys)=commits xs++commits ys := by
  induction xs with
  | nil => rfl
  | cons x xs ih =>
    cases x with
    | receipt row durable => exact ih
    | committed loaded => exact congrArg _ ih

theorem commits_receipts {late : Prop}
    (h : ∀ e∈effects, ∃ row durable, e=.receipt row durable ∧ (durable=true → late)) :
    commits effects=[] := by
  induction effects with
  | nil => rfl
  | cons e effects ih =>
    obtain ⟨row,durable,rfl,-⟩ := h e List.mem_cons_self
    exact ih fun e' hmem => h e' (List.mem_cons_of_mem _ hmem)

theorem settlement_guarded (hlaw : env.store.Lawful) {gate : IdentityGate} {operation context : String}
    {late : Prop} {result : Except ReloadError ManifestReloadSummary} (h : Guarded env.store past host)
    (hset : Settlement env gate operation context late host host' effects result) :
    Guarded env.store (past++commits effects) host' := by
  cases hset with
  | refused =>
    rw [commits,List.append_nil]
    exact h
  | held wired frame mark receipts =>
    rw [commits_receipts receipts,List.append_nil]
    rcases mark with hkep | ⟨file,prepared,hfil,hcan,hmar⟩
    · exact h.congr hkep wired.symm
    · refine ⟨h.ordered,fun loaded hmem => ?_,?_⟩
      · -- The older contents were covered, and so is the new one.
        rw [hmar]
        exact ((h.covered loaded hmem).kept hfil).rename
          (covers_markBytes hlaw _ (h.candidate hcan loaded hmem))
      · intro store loaded hsto hcur
        exact h.current store loaded (wired.trans hsto) hcur
  | @committed store engine disk prepared row wired frame candidate admitted receipt sound mark =>
    have hbef := h.candidate candidate
    refine ⟨?_,fun loaded hmem => ?_,?_⟩
    · refine List.pairwise_append.mpr ⟨h.ordered,List.pairwise_singleton _ _,?_⟩
      intro a ha b hb
      rw [commits,commits,commits,List.mem_singleton] at hb
      rw [hb]
      exact hbef a ha
    · have hpre : Precedes loaded prepared.loaded := by
        rcases List.mem_append.mp hmem with hmem | hmem
        · exact hbef loaded hmem
        · rw [commits,commits,commits,List.mem_singleton] at hmem
          rw [hmem]
          exact precedes_refl _
      change RenamedFile.Always _ _
      rw [mark]
      exact RenamedFile.always_found (covers_markBytes hlaw store hpre)
    · intro store' loaded hsto hcur
      obtain rfl := Option.some.inj hsto
      obtain rfl := Option.some.inj hcur
      exact List.mem_append_right _ List.mem_cons_self

theorem guarded_step (hlaw : env.store.Lawful) {op : HostOp} (h : Guarded env.store past host)
    (hste : Stepped env op host host' effects) : Guarded env.store (past++commits effects) host' := by
  cases hste with
  | idle =>
    rw [commits,List.append_nil]
    exact h
  | edited root generations =>
    rw [commits,List.append_nil]
    exact h.congr (.refl _) rfl
  | logged wal =>
    rw [commits,List.append_nil]
    exact h.congr (.refl _) rfl
  | restarted wal asked found =>
    rw [commits,List.append_nil]
    refine ⟨h.ordered,fun loaded hmem => (h.covered loaded hmem).found found,?_⟩
    intro store loaded hsto hcur
    simp only [restartHost,Option.map_eq_some_iff] at hsto
    obtain ⟨store',-,rfl⟩ := hsto
    exact absurd hcur (by simp [ManifestStore.new])
  | changed settled => exact settlement_guarded hlaw h settled
  | booted unarmed settled =>
    exact (settlement_guarded hlaw h settled).congr (.refl _) (freezeAtBoot_frame _ _).1

theorem guarded_run (hwal : env.wal.Lawful) (hlaw : env.store.Lawful) (ops : List HostOp) :
    ∀ (past : List LoadedManifest) (host : Host), Guarded env.store past host →
      Guarded env.store (past++commits (runHost env host ops).2.flatten) (runHost env host ops).1 := by
  induction ops with
  | nil =>
    intro past host h
    simp only [runHost,List.flatten_nil,commits,List.append_nil]
    exact h
  | cons op ops ih =>
    intro past host h
    have hste := guarded_step hlaw h (stepHost_stepped hwal host op)
    have hrun := ih _ _ hste
    rw [List.append_assoc,← commits_append] at hrun
    exact hrun

/-- Committed generations never go back, no generation is committed with two signatures, and whatever a
restart finds as the mark is at least the generation in memory. -/
theorem generations_never_roll_back (env : DecisionEnv) (hwal : env.wal.Lawful) (hlaw : env.store.Lawful)
    (host : Host) (hfresh : Fresh host) (ops : List HostOp) :
    (commits (runHost env host ops).2.flatten).Pairwise Precedes ∧
      ∀ store loaded, (runHost env host ops).1.engine.manifestStore=some store →
        store.current=some loaded →
        (runHost env host ops).1.disk.highWater.Always fun content => ∃ bytes mark, content=some bytes ∧
          env.store.highWaterFromSlice bytes=.ok mark ∧
          loaded.signed.manifest.generation ≤ mark.generation := by
  have hgua := guarded_run hwal hlaw ops [] host hfresh.guarded
  rw [List.nil_append] at hgua
  refine ⟨hgua.ordered,fun store loaded hsto hcur => ?_⟩
  refine (hgua.covered loaded (hgua.current store loaded hsto hcur)).imp ?_
  rintro content ⟨bytes,mark,hcon,hmar,hle,-⟩
  exact ⟨bytes,mark,hcon,hmar,hle⟩

end Generations

def Host.policy (host : Host) : Option (Option LoadedManifest × Option PolicySnapshot) :=
  host.engine.manifestStore.map fun store => (store.current,store.currentSnapshot)

structure Audited (env : DecisionEnv) (host host' : Host) (effects : List Effect) (loaded : LoadedManifest) :
    Prop where
  receipt : ∃ operation context row, effects=[.receipt row true,.committed loaded] ∧
    Receipt env.wal operation context loaded host.engine host'.engine row
  live : ∃ snapshot, fromLoadedManifest env.store.admission loaded=.ok snapshot ∧
    host'.policy=some (some loaded,some snapshot)

section Receipts

variable {env : DecisionEnv} {host host' : Host} {effects : List Effect}

theorem Receipt.congr {wal : WalEnv} {operation context : String} {loaded : LoadedManifest}
    {engine engine' engine'' : DecisionEngine} {row : WalEntry}
    (h : Receipt wal operation context loaded engine engine' row)
    (hwal : engine''.walWriter=engine'.walWriter) :
    Receipt wal operation context loaded engine engine'' row where
  names := h.names
  durable := by
    rw [hwal]
    exact h.durable

/-- A settled call holds the policy and leaves a durable receipt only when late, or audits and commits. -/
theorem Settlement.audited {gate : IdentityGate} {operation context : String} {late : Prop}
    {result : Except ReloadError ManifestReloadSummary}
    (h : Settlement env gate operation context late host host' effects result) :
    (host'.policy=host.policy ∧
      ∀ e∈effects, ∃ row durable, e=.receipt row durable ∧ (durable=true → late)) ∨
    (¬ late ∧ ∃ loaded, Audited env host host' effects loaded) := by
  cases h with
  | refused => exact .inl ⟨rfl,fun _ hmem => absurd hmem List.not_mem_nil⟩
  | held wired frame mark receipts =>
    refine .inl ⟨?_,receipts⟩
    simp only [Host.policy,wired]
  | committed wired frame candidate admitted receipt sound mark =>
    exact .inr ⟨sound,_,⟨_,_,_,rfl,receipt.congr rfl⟩,_,candidate.admitted,rfl⟩

theorem Stepped.audited {op : HostOp} (h : Stepped env op host host' effects) :
    ((host'.policy=host.policy ∨
        op.isRestart=true ∧ host'.policy=host.policy.map fun _ => (none,none)) ∧
      ∀ e∈effects, ∃ row durable, e=.receipt row durable ∧ (durable=true → ¬ op.Completes)) ∨
    (op.Completes ∧ ∃ loaded, Audited env host host' effects loaded) := by
  cases h with
  | idle => exact .inl ⟨.inl rfl,fun _ hmem => absurd hmem List.not_mem_nil⟩
  | edited root generations => exact .inl ⟨.inl rfl,fun _ hmem => absurd hmem List.not_mem_nil⟩
  | logged wal => exact .inl ⟨.inl rfl,fun _ hmem => absurd hmem List.not_mem_nil⟩
  | restarted wal asked found =>
    refine .inl ⟨.inr ⟨asked,?_⟩,fun _ hmem => absurd hmem List.not_mem_nil⟩
    simp only [Host.policy,restartHost,Option.map_map]
    rfl
  | changed settled =>
    rcases settled.audited with ⟨hpol,hrec⟩ | ⟨hcom,haud⟩
    · exact .inl ⟨.inl hpol,hrec⟩
    · exact .inr ⟨not_not.mp hcom,haud⟩
  | booted unarmed settled =>
    obtain ⟨hsto,hwal⟩ := freezeAtBoot_frame _ _
    rcases settled.audited with ⟨hpol,hrec⟩ | ⟨hcom,loaded,haud⟩
    · refine .inl ⟨.inl ?_,hrec⟩
      rw [← hpol]
      exact congrArg (Option.map _) hsto
    · refine .inr ⟨not_not.mp hcom,loaded,?_,?_⟩
      · obtain ⟨operation,context,row,heff,hret⟩ := haud.receipt
        exact ⟨operation,context,row,heff,hret.congr hwal⟩
      · obtain ⟨snapshot,hsna,hliv⟩ := haud.live
        refine ⟨snapshot,hsna,?_⟩
        rw [← hliv]
        exact congrArg (Option.map _) hsto

/-- The policy in memory changes only in a call that has put a durable row with the manifest's signature and
rule count in the log, and only to that manifest. -/
theorem no_unaudited_policy (env : DecisionEnv) (hlaw : env.wal.Lawful) (host : Host) (ops : List HostOp)
    (op : HostOp) :
    (∀ loaded, .committed loaded∈(stepHost env (runHost env host ops).1 op).2 →
      Audited env (runHost env host ops).1 (stepHost env (runHost env host ops).1 op).1
        (stepHost env (runHost env host ops).1 op).2 loaded) ∧
    ((stepHost env (runHost env host ops).1 op).1.policy≠(runHost env host ops).1.policy →
      (∃ loaded, .committed loaded∈(stepHost env (runHost env host ops).1 op).2) ∨
      op.isRestart=true ∧ (stepHost env (runHost env host ops).1 op).1.policy=some (none,none)) := by
  rcases (stepHost_stepped hlaw (runHost env host ops).1 op).audited with
    ⟨hpol,hrec⟩ | ⟨-,loaded,haud⟩
  · constructor
    · intro loaded hmem
      obtain ⟨row,durable,heq,-⟩ := hrec _ hmem
      exact absurd heq (by simp)
    · intro hne
      rcases hpol with hsam | ⟨hres,hemp⟩
      · exact absurd hsam hne
      · refine .inr ⟨hres,?_⟩
        cases hwir : (runHost env host ops).1.policy with
        | none =>
          rw [hwir] at hemp hne
          exact absurd hemp hne
        | some policy =>
          rw [hemp,hwir]
          rfl
  · obtain ⟨operation,context,row,heff,-⟩ := haud.receipt
    have hmem : .committed loaded∈(stepHost env (runHost env host ops).1 op).2 := by
      rw [heff]
      exact List.mem_cons_of_mem _ List.mem_cons_self
    refine ⟨fun loaded' hmem' => ?_,fun _ => .inl ⟨loaded,hmem⟩⟩
    rw [heff] at hmem'
    simp only [List.mem_cons,List.not_mem_nil,or_false,reduceCtorEq,false_or,
      Effect.committed.injEq] at hmem'
    rw [hmem']
    exact haud

/-- In a run whose calls meet no fault and no cancellation after their receipts, every durable receipt is
followed in its call by the commit of the manifest it names. A call that meets one commits nothing. -/
theorem receipts_followed_by_commit (env : DecisionEnv) (hlaw : env.wal.Lawful) (host : Host)
    (ops : List HostOp) :
    ((∀ op∈ops, op.Completes) → ∀ before op after, ops=before++op::after → ∀ row,
      .receipt row true∈(stepHost env (runHost env host before).1 op).2 → ∃ loaded operation context,
        (stepHost env (runHost env host before).1 op).2=[.receipt row true,.committed loaded] ∧
        Names env.wal operation context loaded row ∧ ∃ snapshot,
          (stepHost env (runHost env host before).1 op).1.policy=some (some loaded,some snapshot)) ∧
    (∀ before op after, ops=before++op::after → ¬ op.Completes → ∀ loaded,
      .committed loaded∉(stepHost env (runHost env host before).1 op).2) := by
  constructor
  · intro hops before op after hspl row hmem
    have hcom : op.Completes := hops op (by rw [hspl]; simp)
    rcases (stepHost_stepped hlaw (runHost env host before).1 op).audited with
      ⟨-,hrec⟩ | ⟨-,loaded,haud⟩
    · obtain ⟨row',durable,heq,hlat⟩ := hrec _ hmem
      obtain ⟨-,rfl⟩ := Effect.receipt.inj heq
      exact absurd hcom (hlat rfl)
    · obtain ⟨operation,context,row',heff,hret⟩ := haud.receipt
      obtain ⟨snapshot,-,hliv⟩ := haud.live
      rw [heff] at hmem
      simp only [List.mem_cons,List.not_mem_nil,or_false,reduceCtorEq,Effect.receipt.injEq,
        and_true] at hmem
      rw [hmem]
      exact ⟨loaded,operation,context,heff,hret.names,snapshot,hliv⟩
  · intro before op after hspl hfau loaded hmem
    rcases (stepHost_stepped hlaw (runHost env host before).1 op).audited with
      ⟨-,hrec⟩ | ⟨hcom,-⟩
    · obtain ⟨row,durable,heq,-⟩ := hrec _ hmem
      exact absurd heq (by simp)
    · exact hfau hcom

end Receipts

def laneDecisionEnv : DecisionEnv where
  wal := twoEventEnv
  store := laneStoreEnv

def laneHost (w : WalWriter) : Host where
  engine :=
    { fortressId := "fortress"
      manifestStore := some laneStore
      walWriter := some w
      auditBuffer := AuditRingBuffer.new 1048576 60000
      armedIdentity := none
      unattributedAttempts := 0
      unattributedLogLines := 0 }
  disk := laneDisk

def quietAuthorize : AuthorizeCall where
  shutdown := false
  append :=
    { bufferLock := .acquired
      walLock := .acquired
      shutdown := false
      sinceEpochMs := some 1777939200000
      fate := .clean }

def bootCall (persist : PersistFaults) : ReloadCall where
  storeLock := .acquired
  load := {}
  authorize := quietAuthorize
  persist := persist

theorem laneHost_fresh (w : WalWriter) : Fresh (laneHost w) where
  unarmed := rfl
  empty store hsto := by
    obtain rfl := Option.some.inj hsto
    exact ⟨rfl,rfl⟩

private def laneDetail : String := receiptDetail bootManifestLoadContext "sig" 2

private theorem laneControl_length : Json.fieldsLength (Json.ofFields (controlEventFields "fortress"
    bootManifestLoadOperation laneDetail))+Json.fieldsLength ((((Json.ofFields (controlEventFields "fortress"
      bootManifestLoadOperation laneDetail)).lookup "details").bind asObject).getD []) ≤ 20000 := by
  have hraw : Json.fieldsLength (controlEventFields "fortress" bootManifestLoadOperation laneDetail) ≤ 2000 := by
    decide +kernel
  have hent := Json.fieldsLength_ofFields_le (controlEventFields "fortress" bootManifestLoadOperation
    laneDetail)
  have hdet : (controlEventFields "fortress" bootManifestLoadOperation laneDetail).lookup "details" = none := by
    simp [controlEventFields,List.lookup_cons]
  rw [lookup_controlEventFields,hdet]
  have hnil : Json.fieldsLength ((((none : Option Json)).bind asObject).getD [])=0 := rfl
  omega

private theorem appendReceipt_granted {env : WalEnv} {operation context : String} {call : ControlAppend}
    {loaded : LoadedManifest} {caller : Caller} {wal wal' : WalWriter} {seq : Nat}
    (hwal : caller.engine.walWriter=some wal) (hbuf : call.bufferLock=.acquired)
    (hloc : call.walLock=.acquired) (hshu : call.shutdown=false)
    (happ : append env wal (controlEvent caller.engine.fortressId operation
      (receiptDetail context loaded.manifestSignatureB64url loaded.ruleCount)) .control call.sinceEpochMs
      call.fate=(wal',.ok seq)) :
    ∃ caller', appendReceipt env operation context call loaded caller=(caller',.ok ()) := by
  simp only [appendReceipt,appendControlAuditCancellable,hwal,hbuf,hloc,lockControl,hshu,
    Bool.false_eq_true,if_false,happ]
  exact ⟨_,rfl⟩

private theorem lane_granted : ∃ w caller, authorizeLoaded laneDecisionEnv .bootFreeze
    bootManifestLoadOperation bootManifestLoadContext quietAuthorize laneManifest
    (beginChange (laneHost w) laneStore).caller=(caller,.ok ()) := by
  have hsiz : 16777216 < 2 ^ 64 := by decide
  obtain ⟨w,-,hw,hcap,-,-⟩ := openWithCap_none twoEventEnv hsiz
  obtain ⟨hwf,hdep⟩ := controlEventFields_bounds "fortress" bootManifestLoadOperation laneDetail
  obtain ⟨row,-,hok,-⟩ := append_first twoEventEnv_lawful hw (by omega) hwf hdep laneControl_length
    .control (some 1777939200000)
  generalize happ : append twoEventEnv w (Json.obj (Json.ofFields (controlEventFields "fortress"
    bootManifestLoadOperation laneDetail))).canonicalText .control (some 1777939200000) .clean=result at hok
  obtain ⟨w',reply⟩ := result
  simp only at hok
  subst hok
  obtain ⟨caller,hcal⟩ : ∃ caller, appendReceipt twoEventEnv bootManifestLoadOperation
      bootManifestLoadContext quietAuthorize.append laneManifest
      (beginChange (laneHost w) laneStore).caller=(caller,.ok ()) :=
    appendReceipt_granted rfl rfl rfl rfl happ
  exact ⟨w,caller,hcal⟩

private theorem boot_effects (env : DecisionEnv) (host : Host) (store : ManifestStore) (persist : PersistFaults)
    (harm : host.engine.armedIdentity=none) (hsto : host.engine.manifestStore=some store)
    {s : Stored Caller} {outcome : Except (AuthorizedReloadError ControlAuditError) LoadedManifest}
    (hloa : reloadInMode env.store .warnOnlyCommittedGeneration (beginChange host store) {} persist
      (authorizeLoaded env .bootFreeze bootManifestLoadOperation bootManifestLoadContext quietAuthorize) =
        (s,outcome)) :
    (stepHost env host (.boot (bootCall persist))).2=s.caller.effects++committedEffect outcome := by
  simp only [stepHost,reloadManifestAuthorizedAtBoot,harm,withStore,hsto,bootCall,lockStore,
    reloadActiveAtBootWithAuthorization,hloa]

private theorem reloadInMode_granted {env : StoreEnv} {σ ε : Type} {mode : ScopeAdmissionMode} {s : Stored σ}
    {load : LoadFaults} {authorize : Authorize σ ε} {prepared : PreparedManifestReload} {caller : σ}
    (hpre : prepareReload env s.store s.disk mode load=.ok prepared)
    (hans : authorize prepared.loaded s.caller=(caller,.ok ())) :
    (∃ s', reloadInMode env mode s load {} authorize=(s',.ok prepared.loaded) ∧ s'.caller=caller) ∧
    ∀ err, reloadInMode env mode s load { create := some err } authorize =
      ({ s with caller := caller },.error (.verify (.highWaterIo .highWaterTmp err))) := by
  constructor
  · simp only [reloadInMode,hpre,hans]
    exact ⟨_,rfl,rfl⟩
  · intro err
    simp only [reloadInMode,hpre,hans]
    rfl

/-- The first boot logs its receipt; it commits without faults and not when the mark cannot be created. -/
private theorem lane_boots : ∃ w row, Names twoEventEnv bootManifestLoadOperation bootManifestLoadContext
    laneManifest row ∧
    (stepHost laneDecisionEnv (laneHost w) (.boot (bootCall {}))).2 =
      [.receipt row true,.committed laneManifest] ∧
    ∀ err, (stepHost laneDecisionEnv (laneHost w) (.boot (bootCall { create := some err }))).2 =
      [.receipt row true] := by
  obtain ⟨w,caller,hgra⟩ := lane_granted
  have hlaw : laneDecisionEnv.wal.Lawful := twoEventEnv_lawful
  obtain ⟨-,-,-,row,heff,hrec⟩ := (authorizeLoaded_authorizes hlaw .bootFreeze
    bootManifestLoadOperation bootManifestLoadContext quietAuthorize).grants _ _ _ hgra
  have hpre : prepareReload laneDecisionEnv.store (beginChange (laneHost w) laneStore).store
      (beginChange (laneHost w) laneStore).disk .warnOnlyCommittedGeneration {} =
      .ok { loaded := laneManifest, snapshot := laneSnapshot } := laneManifest_prepares _
  obtain ⟨⟨s',hcle,hcal⟩,hfau⟩ := reloadInMode_granted hpre hgra
  refine ⟨w,row,hrec.names,?_,fun err => ?_⟩
  · rw [boot_effects laneDecisionEnv (laneHost w) laneStore {} rfl rfl hcle,hcal,heff]
    rfl
  · rw [boot_effects laneDecisionEnv (laneHost w) laneStore _ rfl rfl (hfau err)]
    change caller.effects++[]=_
    rw [heff]
    rfl

private theorem lane_armed {w : WalWriter} {row : WalEntry}
    (h : (stepHost laneDecisionEnv (laneHost w) (.boot (bootCall {}))).2 =
      [.receipt row true,.committed laneManifest]) :
    ∃ frozen, (stepHost laneDecisionEnv (laneHost w) (.boot (bootCall {}))).1.engine.armedIdentity =
      some frozen := by
  have hlaw : laneDecisionEnv.wal.Lawful := twoEventEnv_lawful
  have hste := stepHost_stepped hlaw (laneHost w) (.boot (bootCall {}))
  have harm := armed_step (laneHost_fresh w).armed hste
  rcases hste.audited with ⟨-,hrec⟩ | ⟨-,loaded,haud⟩
  · obtain ⟨row',durable,heq,-⟩ := hrec (.committed laneManifest) (by rw [h]; simp)
    exact absurd heq (by simp)
  · obtain ⟨snapshot,-,hliv⟩ := haud.live
    simp only [Host.policy,Option.map_eq_some_iff] at hliv
    obtain ⟨store,hsto,hpai⟩ := hliv
    cases hcel : (stepHost laneDecisionEnv (laneHost w) (.boot (bootCall {}))).1.engine.armedIdentity with
    | some frozen => exact ⟨frozen,rfl⟩
    | none =>
      have hemp := harm.empty hcel store hsto
      exact absurd ((Prod.mk.inj hpai).2.symm.trans hemp) (by simp)

theorem armed_identity_holds_after_boot : ∃ w frozen,
    (runHost laneDecisionEnv (laneHost w) [.boot (bootCall {})]).1.engine.armedIdentity=some frozen ∧
    (runHost laneDecisionEnv (laneHost w) ([.boot (bootCall {})]++[.boot (bootCall {})])).1.engine.armedIdentity =
      some frozen := by
  obtain ⟨w,row,-,heff,-⟩ := lane_boots
  obtain ⟨frozen,hfro⟩ := lane_armed heff
  have hlaw : laneDecisionEnv.wal.Lawful := twoEventEnv_lawful
  have hrun : (runHost laneDecisionEnv (laneHost w) [.boot (bootCall {})]).1.engine.armedIdentity =
      some frozen := by
    rw [(runHost_singleton _ _ _).1,hfro]
  refine ⟨w,frozen,hrun,?_⟩
  exact (armed_identity_holds laneDecisionEnv hlaw (laneHost w) (laneHost_fresh w) [.boot (bootCall {})]
    [.boot (bootCall {})] (by simp [HostOp.isRestart]) frozen hrun).1

theorem generations_never_roll_back_at_boot : ∃ w,
    commits (runHost laneDecisionEnv (laneHost w) [.boot (bootCall {})]).2.flatten=[laneManifest] ∧
    (commits (runHost laneDecisionEnv (laneHost w) [.boot (bootCall {})]).2.flatten).Pairwise Precedes := by
  obtain ⟨w,row,-,heff,-⟩ := lane_boots
  have hlaw : laneDecisionEnv.wal.Lawful := twoEventEnv_lawful
  refine ⟨w,?_,(generations_never_roll_back laneDecisionEnv hlaw laneStoreEnv_lawful (laneHost w)
    (laneHost_fresh w) [.boot (bootCall {})]).1⟩
  rw [(runHost_singleton _ _ _).2,heff]
  rfl

theorem no_unaudited_policy_at_boot : ∃ w effects host', .committed laneManifest∈effects ∧
    Audited laneDecisionEnv (laneHost w) host' effects laneManifest := by
  obtain ⟨w,row,-,heff,-⟩ := lane_boots
  have hlaw : laneDecisionEnv.wal.Lawful := twoEventEnv_lawful
  have hmem : .committed laneManifest ∈
      (stepHost laneDecisionEnv (laneHost w) (.boot (bootCall {}))).2 := by
    rw [heff]
    exact List.mem_cons_of_mem _ List.mem_cons_self
  exact ⟨w,_,_,hmem,(no_unaudited_policy laneDecisionEnv hlaw (laneHost w) [] (.boot (bootCall {}))).1
    laneManifest hmem⟩

theorem receipts_followed_by_commit_at_boot : ∃ w row loaded,
    (stepHost laneDecisionEnv (laneHost w) (.boot (bootCall {}))).2=[.receipt row true,.committed loaded] := by
  obtain ⟨w,row,-,heff,-⟩ := lane_boots
  have hlaw : laneDecisionEnv.wal.Lawful := twoEventEnv_lawful
  have hcom : ∀ op∈[HostOp.boot (bootCall {})], op.Completes := by
    intro op hmem
    rw [List.mem_singleton.mp hmem]
    rfl
  have hmem : .receipt row true∈(stepHost laneDecisionEnv (laneHost w) (.boot (bootCall {}))).2 := by
    rw [heff]
    exact List.mem_cons_self
  obtain ⟨loaded,-,-,hcod,-⟩ := (receipts_followed_by_commit laneDecisionEnv hlaw (laneHost w)
    [.boot (bootCall {})]).1 hcom [] (.boot (bootCall {})) [] rfl row hmem
  exact ⟨w,row,loaded,hcod⟩

/-- A boot whose mark cannot be created has its receipt in the log and commits nothing. -/
theorem receipt_without_commit : ∃ w row, Fresh (laneHost w) ∧
    .receipt row true∈(stepHost laneDecisionEnv (laneHost w)
      (.boot (bootCall { create := some "No space left on device" }))).2 ∧
    Names twoEventEnv bootManifestLoadOperation bootManifestLoadContext laneManifest row ∧
    ∀ loaded, .committed loaded∉(stepHost laneDecisionEnv (laneHost w)
      (.boot (bootCall { create := some "No space left on device" }))).2 := by
  obtain ⟨w,row,hnam,-,hfau⟩ := lane_boots
  refine ⟨w,row,laneHost_fresh w,?_,hnam,?_⟩
  · rw [hfau]
    exact List.mem_cons_self
  · intro loaded hmem
    rw [hfau] at hmem
    exact absurd (List.mem_singleton.mp hmem) (by simp)

end CastleWall.Decision
