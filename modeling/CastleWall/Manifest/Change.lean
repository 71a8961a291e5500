import CastleWall.Manifest.Authorize
import CastleWall.Policy.Lane
import CastleWall.Support.JsonText

/-! # What a change of the live policy can do

Every reload, boot load and publication is refused, is not authorized, stops before anything durable
changed, stops between two durable steps, or commits the candidate it had authorized. -/

namespace CastleWall.Manifest

open Text Policy

structure PolicyDisk.Kept (disk disk' : PolicyDisk) : Prop where
  pointer : RenamedFile.Kept disk.pointer disk'.pointer
  highWater : RenamedFile.Kept disk.highWater disk'.highWater

namespace PolicyDisk

theorem Kept.refl (disk : PolicyDisk) : Kept disk disk := ⟨.refl _,.refl _⟩

theorem Kept.trans {disk disk' disk'' : PolicyDisk} (h : Kept disk disk') (h' : Kept disk' disk'') :
    Kept disk disk'' :=
  ⟨h.pointer.trans h'.pointer,h.highWater.trans h'.highWater⟩

/-- Bundles do not live in the small files. -/
theorem kept_withGeneration (disk : PolicyDisk) (name : String) (bundle : Option BundleDir) :
    Kept disk (withGeneration disk name bundle) :=
  ⟨.refl _,.refl _⟩

end PolicyDisk

def Follows (env : StoreEnv) (content : Option (List UInt8)) (loaded : LoadedManifest) : Prop :=
  ∀ bytes, content=some bytes → ∃ mark, env.highWaterFromSlice bytes=.ok mark ∧
    (mark.generation < loaded.signed.manifest.generation ∨
      mark.generation=loaded.signed.manifest.generation ∧
        mark.manifestSignatureB64url=loaded.manifestSignatureB64url)

structure Candidate (env : StoreEnv) (disk : PolicyDisk) (prepared : PreparedManifestReload) : Prop where
  admitted : fromLoadedManifest env.admission prepared.loaded=.ok prepared.snapshot
  follows : Follows env disk.highWater.visible prepared.loaded

section Prepare

variable {env : StoreEnv} {store : ManifestStore} {disk : PolicyDisk} {prepared : PreparedManifestReload}

theorem Candidate.kept {disk' : PolicyDisk}
    (h : Candidate env disk' prepared) (hkep : disk.Kept disk') : Candidate env disk prepared := by
  refine ⟨h.admitted,?_⟩
  rw [← hkep.highWater.visible]
  exact h.follows

theorem readHighWater_ok {fault : Option String} {file : RenamedFile (List UInt8)}
    {mark : Option ManifestHighWater} (h : readHighWater env fault file=.ok mark) :
    (file.visible=none ∧ mark=none) ∨
      ∃ bytes m, file.visible=some bytes ∧ env.highWaterFromSlice bytes=.ok m ∧ mark=some m := by
  unfold readHighWater readBoundedRegularNoFollow at h
  cases fault with
  | some err => exact absurd h (by simp)
  | none =>
    cases hvis : file.visible with
    | none =>
      rw [hvis] at h
      exact .inl ⟨rfl,(Except.ok.inj h).symm⟩
    | some bytes =>
      rw [hvis] at h
      by_cases hlen : bytes.length > 4096
      · simp only [hlen,if_true] at h
        exact absurd h (by simp)
      · simp only [hlen,if_false] at h
        cases hrea : env.highWaterFromSlice bytes with
        | error err =>
          rw [hrea] at h
          exact absurd h (by simp)
        | ok m =>
          rw [hrea] at h
          exact .inr ⟨bytes,m,rfl,hrea,(Except.ok.inj h).symm⟩

theorem checkHighWater_ok {expectedFortressId : String} {loaded : LoadedManifest} {allow same : Bool}
    {mark : ManifestHighWater}
    (h : checkHighWater expectedFortressId loaded allow (some mark)=.ok same) :
    mark.generation < loaded.signed.manifest.generation ∨
      mark.generation=loaded.signed.manifest.generation ∧
        mark.manifestSignatureB64url=loaded.manifestSignatureB64url := by
  simp only [checkHighWater] at h
  split_ifs at h with hfor hsta
  by_cases hle : loaded.signed.manifest.generation ≤ mark.generation
  · -- Only the exact reclaim passes at or below the mark.
    have hsam := not_not.mp fun hno => hsta ⟨hle,hno⟩
    simp only [Bool.and_eq_true,beq_iff_eq] at hsam
    exact .inr ⟨hsam.2.1.symm,hsam.2.2.symm⟩
  · exact .inl (UInt64.not_le.mp hle)

theorem prepareLoaded_candidate {loaded : LoadedManifest} {allow : Bool} {mode : ScopeAdmissionMode}
    {faults : LoadFaults}
    (h : prepareLoaded env store disk loaded allow mode faults=.ok prepared) :
    Candidate env disk prepared := by
  unfold prepareLoaded at h
  split_ifs at h
  obtain ⟨mark,hmar,h⟩ := Outcome.bind_ok h
  obtain ⟨same,hsam,h⟩ := Outcome.bind_ok h
  split at h
  · exact absurd h (by simp)
  · rename_i snapshot hsna
    obtain ⟨-,-,h⟩ := Outcome.bind_ok h
    obtain rfl := Except.ok.inj h
    refine ⟨hsna,?_⟩
    intro bytes hbyt
    rcases readHighWater_ok hmar with ⟨hnone,-⟩ | ⟨bytes',m,hvis,hrea,rfl⟩
    · exact absurd (hbyt.symm.trans hnone) (by simp)
    · obtain rfl := Option.some.inj (hbyt.symm.trans hvis)
      exact ⟨m,hrea,checkHighWater_ok hsam⟩

theorem prepareReload_candidate {mode : ScopeAdmissionMode} {faults : LoadFaults} (h : prepareReload env store disk mode faults=.ok prepared) :
    Candidate env disk prepared := by
  obtain ⟨loaded,-,h⟩ := Outcome.bind_ok h
  exact prepareLoaded_candidate h

theorem prepareStaged_candidate {bundle : Bundle} {name : String} {faults : PublishFaults}
    {staged : BundleDir}
    (h : prepareStaged env store disk bundle name faults=.ok (staged,prepared)) :
    Candidate env disk prepared := by
  obtain ⟨staged',-,h⟩ := Outcome.bind_ok h
  obtain ⟨loaded,-,h⟩ := Outcome.bind_ok h
  dsimp only at h
  split_ifs at h
  · obtain ⟨prepared',hpre,h⟩ := Outcome.bind_ok h
    obtain ⟨-,rfl⟩ := Prod.mk.inj (Except.ok.inj h)
    exact prepareLoaded_candidate hpre
  · obtain ⟨_,hthr,_⟩ := Outcome.bind_ok h
    cases hthr

end Prepare

def markBytes (env : StoreEnv) (store : ManifestStore) (loaded : LoadedManifest) : List UInt8 :=
  env.highWaterToVec (highWaterOf store loaded)

/-- How a change ends. `late` is a fault after the authorization; `flagged` says whether the error of a
change that stopped between two durable steps admits that it did. -/
inductive Change {σ ε : Type} (env : StoreEnv) (authorize : Authorize σ ε) (late : Prop) (flagged : Bool)
    (s : Stored σ) : Stored σ → Except (AuthorizedReloadError ε) LoadedManifest → Prop where
  | refused {disk err} (kept : s.disk.Kept disk) :
    Change env authorize late flagged s { s with disk := disk } (.error (.verify err))
  | unauthorized {prepared disk caller err} (candidate : Candidate env s.disk prepared)
    (answer : authorize prepared.loaded s.caller=(caller,.error err)) (kept : s.disk.Kept disk) :
    Change env authorize late flagged s { s with disk := disk, caller := caller }
      (.error (.authorization err))
  | stopped {prepared disk caller err} (candidate : Candidate env s.disk prepared)
    (answer : authorize prepared.loaded s.caller=(caller,.ok ())) (fault : late)
    (kept : s.disk.Kept disk) :
    Change env authorize late flagged s { s with disk := disk, caller := caller } (.error (.verify err))
  | torn {prepared disk caller err} (candidate : Candidate env s.disk prepared)
    (answer : authorize prepared.loaded s.caller=(caller,.ok ())) (fault : late)
    (flag : err.isIndeterminate=flagged)
    (mark : s.disk.highWater.Kept disk.highWater ∨ ∃ file, s.disk.highWater.Kept file ∧
      disk.highWater=file.rename (markBytes env s.store prepared.loaded)) :
    Change env authorize late flagged s { s with disk := disk, caller := caller } (.error (.verify err))
  | committed {prepared disk caller} (candidate : Candidate env s.disk prepared)
    (answer : authorize prepared.loaded s.caller=(caller,.ok ())) (sound : ¬ late)
    (mark : disk.highWater=.found (some (markBytes env s.store prepared.loaded))) :
    Change env authorize late flagged s
      { store := { s.store with current := some prepared.loaded, currentSnapshot := some prepared.snapshot }
        disk := disk
        caller := caller }
      (.ok prepared.loaded)

section Outcomes

variable (env : StoreEnv) {σ ε : Type}

theorem persistHighWater_cases (disk : PolicyDisk) (mark : ManifestHighWater) (faults : PersistFaults) :
    (faults = {} ∧ persistHighWater env disk mark faults =
      ({ disk with highWater := disk.highWater.rename (env.highWaterToVec mark) }.syncPolicyDir,.ok ())) ∨
    (∃ err, faults ≠ {} ∧ ¬ (faults.create=none ∧ faults.write=none ∧ faults.rename=none) ∧
      persistHighWater env disk mark faults=(disk,.error err)) ∨
    (∃ err, faults = { parentSync := some err } ∧ persistHighWater env disk mark faults =
      ({ disk with highWater := disk.highWater.rename (env.highWaterToVec mark) },
        .error (.highWaterIo .policyDir err))) := by
  obtain ⟨create,write,rename,parentSync⟩ := faults
  cases create with
  | some err => exact .inr (.inl ⟨_,by simp,by simp,rfl⟩)
  | none =>
    cases write with
    | some err => exact .inr (.inl ⟨_,by simp,by simp,rfl⟩)
    | none =>
      cases rename with
      | some err => exact .inr (.inl ⟨_,by simp,by simp,rfl⟩)
      | none =>
        cases parentSync with
        | some err => exact .inr (.inr ⟨err,rfl,rfl⟩)
        | none => exact .inl ⟨rfl,rfl⟩

theorem commitAuthorized_cases (s : Stored σ) (prepared : PreparedManifestReload) (faults : PersistFaults) :
    (faults = {} ∧ ∃ disk, disk.pointer=s.disk.pointer.sync ∧
      disk.highWater=.found (some (markBytes env s.store prepared.loaded)) ∧
      commitAuthorized env s prepared faults =
        ({ s with
            store := { s.store with
              current := some prepared.loaded, currentSnapshot := some prepared.snapshot }
            disk := disk },.ok prepared.loaded)) ∨
    (∃ err, faults ≠ {} ∧ ¬ (faults.create=none ∧ faults.write=none ∧ faults.rename=none) ∧
      commitAuthorized env s prepared faults=(s,.error err)) ∨
    (∃ err, faults = { parentSync := some err } ∧ commitAuthorized env s prepared faults =
      ({ s with disk := { s.disk with
          highWater := s.disk.highWater.rename (markBytes env s.store prepared.loaded) } },
        .error (.highWaterIo .policyDir err))) := by
  unfold commitAuthorized commitPreparedReload
  rcases persistHighWater_cases env s.disk (highWaterOf s.store prepared.loaded) faults with
    ⟨hcle,h⟩ | ⟨err,hfau,hear,h⟩ | ⟨err,hsyn,h⟩
  · rw [h]
    exact .inl ⟨hcle,_,rfl,rfl,rfl⟩
  · rw [h]
    exact .inr (.inl ⟨err,hfau,hear,rfl⟩)
  · rw [h]
    exact .inr (.inr ⟨err,hsyn,rfl⟩)

variable (s : Stored σ) (authorize : Authorize σ ε)

theorem reloadInMode_change (mode : ScopeAdmissionMode) (load : LoadFaults) (persist : PersistFaults) :
    Change env authorize (persist ≠ {}) false s (reloadInMode env mode s load persist authorize).1
      (reloadInMode env mode s load persist authorize).2 := by
  unfold reloadInMode
  cases hpre : prepareReload env s.store s.disk mode load with
  | error err => exact .refused (.refl _)
  | ok prepared =>
    have hcan := prepareReload_candidate hpre
    dsimp only
    generalize hans : authorize prepared.loaded s.caller=answer
    obtain ⟨caller,result⟩ := answer
    cases result with
    | error err => exact .unauthorized hcan hans (.refl _)
    | ok =>
      dsimp only
      rcases commitAuthorized_cases env { s with caller := caller } prepared persist with
        ⟨hcle,disk,-,hmar,h⟩ | ⟨err,hfau,-,h⟩ | ⟨err,hsyn,h⟩
      · rw [h]
        exact .committed hcan hans (not_not.mpr hcle) hmar
      · rw [h]
        exact .stopped hcan hans hfau (.refl _)
      · rw [h]
        exact .torn hcan hans (by rw [hsyn]; simp) rfl (.inr ⟨_,.refl _,rfl⟩)

def PublishFaults.Late (faults : PublishFaults) : Prop :=
  ¬ (faults.pointerWrite=none ∧ faults.pointerRename=none ∧ faults.policyDirSync=none ∧
    faults.persist = {})

theorem ensureSecureDirectory_kept (disk : PolicyDisk) (faults : PublishFaults) :
    disk.Kept (ensureSecureDirectory disk faults).1 := by
  unfold ensureSecureDirectory
  split
  · exact .refl _
  · split
    · exact ⟨.refl _,.refl _⟩
    · exact ⟨RenamedFile.kept_sync _,RenamedFile.kept_sync _⟩

/-- From the authorization on, a publication stops before the pointer is renamed, stops and says so, or
commits. -/
theorem activateGeneration_change {name : String} {staged : BundleDir} {prepared : PreparedManifestReload}
    {faults : PublishFaults} {disk : PolicyDisk} {caller : σ} {s' : Stored σ}
    {result : Except ManifestStoreError LoadedManifest} (hkep : s.disk.Kept disk)
    (hcan : Candidate env s.disk prepared)
    (hans : authorize prepared.loaded s.caller=(caller,.ok ()))
    (h : activateGeneration env { s with disk := disk, caller := caller } name staged prepared faults =
      (s',result)) :
    Change env authorize faults.Late true s s' (result.mapError .verify) := by
  unfold activateGeneration at h
  dsimp only at h
  cases hwri : faults.pointerWrite with
  | some err =>
    rw [hwri] at h
    obtain ⟨rfl,rfl⟩ := Prod.mk.inj h
    exact .stopped hcan hans (by simp [PublishFaults.Late,hwri])
      (hkep.trans (PolicyDisk.kept_withGeneration _ _ _))
  | none =>
    cases hren : faults.pointerRename with
    | some err =>
      rw [hwri,hren] at h
      obtain ⟨rfl,rfl⟩ := Prod.mk.inj h
      refine .stopped hcan hans (by simp [PublishFaults.Late,hren]) (hkep.trans ?_)
      cases faults.cleanupSync with
      | none => exact ⟨RenamedFile.kept_sync _,RenamedFile.kept_sync _⟩
      | some err => exact PolicyDisk.kept_withGeneration _ _ _
    | none =>
      rw [hwri,hren] at h
      dsimp only at h
      cases hsyn : faults.policyDirSync with
      | some err =>
        rw [hsyn] at h
        obtain ⟨rfl,rfl⟩ := Prod.mk.inj h
        exact .torn hcan hans (by simp [PublishFaults.Late,hsyn]) rfl (.inl hkep.highWater)
      | none =>
        rw [hsyn] at h
        dsimp only at h
        have hmar : s.disk.highWater.Kept disk.highWater.sync :=
          hkep.highWater.trans (RenamedFile.kept_sync _)
        rcases commitAuthorized_cases env _ prepared faults.persist with
          ⟨hcle,disk',-,hmak,hcom⟩ | ⟨err,hfau,-,hcom⟩ | ⟨err,hpar,hcom⟩
        · rw [hcom] at h
          obtain ⟨rfl,rfl⟩ := Prod.mk.inj h
          exact .committed hcan hans
            (not_not.mpr ⟨hwri,hren,hsyn,hcle⟩) hmak
        · rw [hcom] at h
          obtain ⟨rfl,rfl⟩ := Prod.mk.inj h
          exact .torn hcan hans (fun hall => hfau hall.2.2.2) rfl (.inl hmar)
        · rw [hcom] at h
          obtain ⟨rfl,rfl⟩ := Prod.mk.inj h
          refine .torn hcan hans (fun hall => ?_) rfl (.inr ⟨_,hmar,rfl⟩)
          exact absurd (hpar.symm.trans hall.2.2.2) (by simp)

theorem publishBundleWithAuthorization_change (bundle : Bundle) (name : String) (faults : PublishFaults) :
    Change env authorize faults.Late true s
      (publishBundleWithAuthorization env s bundle name faults authorize).1
      (publishBundleWithAuthorization env s bundle name faults authorize).2 := by
  unfold publishBundleWithAuthorization
  split_ifs
  · exact .refused (.refl _)
  have hkep := ensureSecureDirectory_kept s.disk faults
  generalize ensureSecureDirectory s.disk faults=ensured at hkep
  obtain ⟨disk,result⟩ := ensured
  cases result with
  | error err => exact .refused hkep
  | ok =>
    dsimp only at hkep ⊢
    cases createStaged disk name faults with
    | error err => exact .refused hkep
    | ok =>
      dsimp only
      cases hpre : prepareStaged env s.store disk bundle name faults with
      | error err => exact .refused (hkep.trans (PolicyDisk.kept_withGeneration _ _ _))
      | ok made =>
        obtain ⟨staged,prepared⟩ := made
        have hcan := (prepareStaged_candidate hpre).kept hkep
        dsimp only
        generalize hans : authorize prepared.loaded s.caller=answer
        obtain ⟨caller,result⟩ := answer
        cases result with
        | error err =>
          exact .unauthorized hcan hans (hkep.trans (PolicyDisk.kept_withGeneration _ _ _))
        | ok =>
          dsimp only
          generalize hact : activateGeneration env { s with disk := disk, caller := caller } name staged
            prepared faults=activated
          obtain ⟨s',outcome⟩ := activated
          have hcha := activateGeneration_change env s authorize hkep hcan hans hact
          cases outcome with
          | error err => exact hcha
          | ok loaded => exact hcha

end Outcomes

inductive StoreCall where
  | reload (load : LoadFaults) (persist : PersistFaults)
  | boot (load : LoadFaults) (persist : PersistFaults)
  | publish (bundle : Bundle) (name : String) (faults : PublishFaults)

def AuthorizedReloadError.isIndeterminate {ε : Type} : AuthorizedReloadError ε → Bool
  | .verify err => err.isIndeterminate
  | .authorization _ => false

structure Untouched {σ : Type} (s s' : Stored σ) : Prop where
  store : s'.store=s.store
  disk : s.disk.Kept s'.disk

section Errors

variable (env : StoreEnv) {σ ε : Type} (s : Stored σ) (authorize : Authorize σ ε)

def StoreCall.run : StoreCall → Stored σ × Except (AuthorizedReloadError ε) LoadedManifest
  | .reload load persist => reloadWithAuthorization env s load persist authorize
  | .boot load persist => reloadActiveAtBootWithAuthorization env s load persist authorize
  | .publish bundle name faults => publishBundleWithAuthorization env s bundle name faults authorize

/-- An authorized candidate whose mark takes the place of another one and whose directory does not sync. -/
def UnsyncedMark (mode : ScopeAdmissionMode) (load : LoadFaults) (persist : PersistFaults) : Prop :=
  ∃ prepared, prepareReload env s.store s.disk mode load=.ok prepared ∧
    (authorize prepared.loaded s.caller).2=.ok () ∧
    s.disk.highWater.visible≠some (markBytes env s.store prepared.loaded) ∧
    ∃ err, persist = { parentSync := some err }

def StoreCall.UnsyncedMark : StoreCall → Prop
  | .reload load persist => Manifest.UnsyncedMark env s authorize .enforceNewGeneration load persist
  | .boot load persist => Manifest.UnsyncedMark env s authorize .warnOnlyCommittedGeneration load persist
  | .publish _ _ _ => False

def Atomic (outcome : Stored σ × Except (AuthorizedReloadError ε) LoadedManifest) : Prop :=
  ∀ err, outcome.2=.error err → err.isIndeterminate=false → Untouched s outcome.1

theorem reloadInMode_atomic_iff (mode : ScopeAdmissionMode) (load : LoadFaults) (persist : PersistFaults) :
    Atomic s (reloadInMode env mode s load persist authorize) ↔
      ¬ UnsyncedMark env s authorize mode load persist := by
  unfold reloadInMode UnsyncedMark
  cases hpre : prepareReload env s.store s.disk mode load with
  | error err => exact ⟨fun _ ⟨_,hok,_⟩ => absurd hok (by simp),fun _ _ _ _ => ⟨rfl,.refl _⟩⟩
  | ok prepared =>
    dsimp only
    generalize hans : authorize prepared.loaded s.caller=answer
    obtain ⟨caller,result⟩ := answer
    cases result with
    | error err =>
      refine ⟨fun _ ⟨prepared',hok,haut,_⟩ => ?_,fun _ _ _ _ => ⟨rfl,.refl _⟩⟩
      obtain rfl := Except.ok.inj hok
      rw [hans] at haut
      exact absurd haut (by simp)
    | ok =>
      dsimp only
      rcases commitAuthorized_cases env { s with caller := caller } prepared persist with
        ⟨hcle,disk,-,-,h⟩ | ⟨err,-,hear,h⟩ | ⟨err,hsyn,h⟩
      · rw [h]
        refine ⟨fun _ ⟨_,_,_,_,err,hfau⟩ => ?_,fun _ err herr => absurd herr (by simp)⟩
        exact absurd (hcle.symm.trans hfau) (by simp)
      · rw [h]
        refine ⟨fun _ ⟨_,_,_,_,err,hfau⟩ => ?_,fun _ _ _ _ => ⟨rfl,.refl _⟩⟩
        exact hear (by rw [hfau]; exact ⟨rfl,rfl,rfl⟩)
      · rw [h]
        constructor
        · intro hato
          rintro ⟨prepared',hok,-,hoth,-⟩
          obtain rfl := Except.ok.inj hok
          exact hoth ((RenamedFile.kept_rename_iff _ _).mp (hato _ rfl rfl).disk.highWater)
        · intro hsam err' herr hdet
          -- The renamed mark is the one that was already there.
          have hvis : s.disk.highWater.visible=some (markBytes env s.store prepared.loaded) :=
            not_not.mp fun hoth => hsam ⟨prepared,rfl,by rw [hans],hoth,err,hsyn⟩
          exact ⟨rfl,.refl _,(RenamedFile.kept_rename_iff _ _).mpr hvis⟩

theorem publish_atomic (bundle : Bundle) (name : String) (faults : PublishFaults) :
    Atomic s (publishBundleWithAuthorization env s bundle name faults authorize) := by
  intro err herr hdet
  have hcha := publishBundleWithAuthorization_change env s authorize bundle name faults
  rw [herr] at hcha
  generalize (publishBundleWithAuthorization env s bundle name faults authorize).1=s' at hcha ⊢
  cases hcha with
  | refused kept => exact ⟨rfl,kept⟩
  | unauthorized _ _ kept => exact ⟨rfl,kept⟩
  | stopped _ _ _ kept => exact ⟨rfl,kept⟩
  | torn _ _ _ flag _ => exact absurd (flag.symm.trans hdet) (by simp)

/-- A change leaves everything untouched on every determinate error, unless it is a reload or boot load
whose directory sync fails once the new mark is in place. -/
theorem determinate_error_atomic_iff (call : StoreCall) :
    Atomic s (call.run env s authorize) ↔ ¬ call.UnsyncedMark env s authorize := by
  cases call with
  | reload load persist => exact reloadInMode_atomic_iff env s authorize .enforceNewGeneration load persist
  | boot load persist =>
    exact reloadInMode_atomic_iff env s authorize .warnOnlyCommittedGeneration load persist
  | publish bundle name faults =>
    exact ⟨fun _ hfal => hfal,fun _ => publish_atomic env s authorize bundle name faults⟩

end Errors

/-! ## A policy directory

The manifest of the distress lane as a first generation, with the mark in its JSON form. -/

def markJson (mark : ManifestHighWater) : Json :=
  .obj [("fortress_id",.str mark.fortressId),("generation",.num mark.generation.toNat),
    ("manifest_signature_b64url",.str mark.manifestSignatureB64url)]

def markOfJson : Json → Option ManifestHighWater
  | .obj [("fortress_id",.str fortressId),("generation",.num generation),
      ("manifest_signature_b64url",.str signature)] =>
    some { fortressId := fortressId, generation := UInt64.ofNat generation.toNat
           manifestSignatureB64url := signature }
  | _ => none

def lanePieces : List String :=
  ["\x7b\"manifest\":\x7b\"schema_version\":1,","\"fortress_id\":\"fortress\",",
    "\"issued_at\":","\"2026-05-05T00:00:00Z\",","\"agent_origin\":\x7b\"mode\":\"uid\",",
    "\"agent_uid\":60123,","\"system_uid_allow_ceiling\":1000\x7d,","\"rules\":[",
    "\x7b\"rule_id\":\"deny_ten\",","\"file\":\"deny.json\",","\"sha256\":\"\"\x7d,",
    "\x7b\"rule_id\":","\"reserved_habeas_distress_local\",","\"file\":\"lane.json\",",
    "\"sha256\":\"\"\x7d]\x7d,","\"signature\":\x7b","\"signature_scheme\":\"ed25519\",",
    "\"signing_key_id\":\"key\",","\"signature_b64url\":\"sig\"\x7d\x7d"]

def laneText : String := lanePieces.foldr (· ++ ·) ""

private theorem utf8Bytes_laneText : utf8Bytes laneText=lanePieces.flatMap utf8Bytes := by
  have hpie : ∀ pieces : List String,
      utf8Bytes (pieces.foldr (· ++ ·) "")=pieces.flatMap utf8Bytes := by
    intro pieces
    induction pieces with
    | nil => rfl
    | cons piece pieces ih => rw [List.foldr_cons,utf8Bytes_append,ih,List.flatMap_cons]
  exact hpie lanePieces

def laneStoreEnv : StoreEnv where
  admission := laneEnv
  signedManifestFromStr raw :=
    if raw=laneText then .ok laneManifest.signed else .error "expected value at line 1 column 1"
  verifyManifestSignature _ _ := .ok ()
  preflightManifestRuleEntries _ := []
  highWaterToVec mark := utf8Bytes (markJson mark).canonicalText
  highWaterFromSlice bytes :=
    match ((decodeUtf8 bytes).bind Json.fromText).bind markOfJson with
    | some mark => .ok mark
    | none => .error "expected value at line 1 column 1"

private theorem wellFormed_markJson (mark : ManifestHighWater) : (markJson mark).wellFormed=true := by
  have hkey : ["fortress_id","generation","manifest_signature_b64url"].Pairwise
      fun a b => a.toList < b.toList := by decide +kernel
  have hgen : (mark.generation.toNat : Int) < 2 ^ 64 := by
    have hlt := mark.generation.toNat_lt
    omega
  refine Json.wellFormed_obj.mpr ⟨Json.keysSorted_iff_keys.mpr hkey,?_⟩
  simpa [Json.wellFormed] using hgen

theorem laneStoreEnv_lawful : laneStoreEnv.Lawful := by
  intro mark
  have hrea : markOfJson (markJson mark)=some mark := by
    simp [markOfJson,markJson]
  simp only [laneStoreEnv,decodeUtf8_utf8Bytes,Option.bind_some,
    Json.fromText_canonicalText (wellFormed_markJson mark),hrea]

def laneDisk : PolicyDisk where
  root := { manifest := some (utf8Bytes laneText), rules := some laneManifest.ruleFiles }
  generations := none
  pointer := .found none
  highWater := .found none

def laneStore : ManifestStore := .new (Vector.replicate 32 0) "fortress"

/-- A directory without faults loads when its manifest and rule files pass every check. -/
private theorem loadSignedManifestFromExactDir_eq {env : StoreEnv} {pinnedKey : Vector UInt8 32}
    {dir : Option String} {raw : String} {signed : SignedManifest} {rules files : List (String × List UInt8)}
    (hlen : (utf8Bytes raw).length ≤ maxManifestBytes) (hpar : env.signedManifestFromStr raw=.ok signed)
    (hsch : signed.manifest.schemaVersion=schemaVersionV1)
    (hver : env.verifyManifestSignature signed pinnedKey=.ok ())
    (hpre : env.preflightManifestRuleEntries signed.manifest.rules=[])
    (hrea : readRules {} rules signed.manifest.rules=.ok files)
    (hdig : signed.manifest.rules.filterMap (ruleDigestIssue env.admission files)=[]) :
    loadSignedManifestFromExactDir env pinnedKey dir
      { manifest := some (utf8Bytes raw), rules := some rules } {} =
      .ok { signed := signed, ruleFiles := files
            manifestSignatureB64url := signed.signature.signatureB64url
            ruleCount := signed.manifest.rules.length % 2 ^ 32 } := by
  have hfit : ¬ (utf8Bytes raw).length > maxManifestBytes := by omega
  simp only [loadSignedManifestFromExactDir,readBoundedRegularNoFollow,if_neg hfit,decodeUtf8_utf8Bytes,
    hpar,ne_eq,hsch,not_true,if_false,hver,hpre,hrea,hdig]

private theorem loadSignedManifestFromDisk_eq {env : StoreEnv} {pinnedKey : Vector UInt8 32}
    {disk : PolicyDisk} {faults : LoadFaults} {dir : Option String} {bundle : BundleDir}
    (hres : resolveActivePolicyDir disk faults=.ok (dir,bundle)) :
    loadSignedManifestFromDisk env pinnedKey disk faults =
      loadSignedManifestFromExactDir env pinnedKey dir bundle faults := by
  rw [loadSignedManifestFromDisk,hres]
  rfl

/-- A first manifest of the right fortress is prepared when admission and scope accept it. -/
private theorem prepareReload_eq {env : StoreEnv} {store : ManifestStore} {disk : PolicyDisk}
    {mode : ScopeAdmissionMode} {faults : LoadFaults} {loaded : LoadedManifest} {snapshot : PolicySnapshot}
    (hloa : loadSignedManifestFromDisk env store.pinnedKey disk faults=.ok loaded)
    (hfor : loaded.signed.manifest.fortressId=store.expectedFortressId)
    (hmar : readHighWater env faults.highWater disk.highWater=.ok none)
    (hsna : fromLoadedManifest env.admission loaded=.ok snapshot)
    (hsco : applyConfinedScopeAdmission snapshot mode false=.ok ()) :
    prepareReload env store disk mode faults=.ok { loaded := loaded, snapshot := snapshot } := by
  simp only [prepareReload,hloa,prepareLoaded,hfor,ne_eq,not_true,if_false,hmar,checkHighWater,
    hsna,hsco,bind,Except.bind,pure,Except.pure]

theorem laneManifest_loads :
    loadSignedManifestFromDisk laneStoreEnv laneStore.pinnedKey laneDisk {} = .ok laneManifest := by
  have hfil : ∀ file∈laneManifest.ruleFiles, ¬ file.2.length > maxRuleBytes := by decide +kernel
  have hpar : laneStoreEnv.signedManifestFromStr laneText=.ok laneManifest.signed := by
    simp only [laneStoreEnv,if_true]
  have hden : laneManifest.ruleFiles.lookup "deny.json" = some (laneManifest.ruleFiles.get ⟨0,by decide⟩).2 :=
    rfl
  have hlan : laneManifest.ruleFiles.lookup "lane.json" = some (laneManifest.ruleFiles.get ⟨1,by decide⟩).2 :=
    rfl
  have hrea : readRules {} laneManifest.ruleFiles laneManifest.signed.manifest.rules =
      .ok laneManifest.ruleFiles := by
    change readRules {} laneManifest.ruleFiles [_,_]=_
    simp only [readRules,readBoundedRegularNoFollow,hden,hlan,if_neg (hfil _ (List.get_mem _ _))]
    rfl
  have hlen : (utf8Bytes laneText).length ≤ maxManifestBytes := by
    rw [utf8Bytes_laneText]
    decide +kernel
  have hbun : resolveActivePolicyDir laneDisk {} =
      .ok (none,{ manifest := some (utf8Bytes laneText), rules := some laneManifest.ruleFiles }) := rfl
  have hdig : laneManifest.signed.manifest.rules.filterMap
      (ruleDigestIssue laneEnv laneManifest.ruleFiles)=[] := rfl
  have hcou : laneManifest.signed.manifest.rules.length % 2 ^ 32=2 := by decide
  rw [loadSignedManifestFromDisk_eq hbun,
    loadSignedManifestFromExactDir_eq hlen hpar rfl rfl rfl hrea hdig,hcou]
  rfl

theorem laneManifest_prepares (mode : ScopeAdmissionMode) :
    prepareReload laneStoreEnv laneStore laneDisk mode {} =
      .ok { loaded := laneManifest, snapshot := laneSnapshot } := by
  have hsco : collectConfinedAgentScopeErrors laneSnapshot.rules 60123=[] := by decide +kernel
  have hadm : applyConfinedScopeAdmission laneSnapshot mode false=.ok () := by
    simp only [applyConfinedScopeAdmission,show laneSnapshot.confinedAgentUid=some 60123 from rfl,hsco]
  exact prepareReload_eq laneManifest_loads rfl rfl laneSnapshot_admitted hadm

/-- An authorized reload whose directory does not sync ends in an ordinary error. -/
private theorem reloadInMode_unsynced {env : StoreEnv} {σ ε : Type} {mode : ScopeAdmissionMode} {s : Stored σ}
    {load : LoadFaults} {authorize : Authorize σ ε} {prepared : PreparedManifestReload} {caller : σ}
    (hpre : prepareReload env s.store s.disk mode load=.ok prepared)
    (hans : authorize prepared.loaded s.caller=(caller,.ok ())) (err : String) :
    (reloadInMode env mode s load { parentSync := some err } authorize).2 =
      .error (.verify (.highWaterIo .policyDir err)) := by
  simp only [reloadInMode,hpre,hans]
  rfl

/-- A reload that everything allows and whose directory sync fails: the error is an ordinary one and the
mark is already the new one. -/
theorem unsynced_reload_replaces_mark :
    ∃ s : Stored Unit, ∃ authorize : Authorize Unit Unit,
      (StoreCall.run laneStoreEnv s authorize (.reload {} { parentSync := some "Input/output error" })).2 =
        .error (.verify (.highWaterIo .policyDir "Input/output error")) ∧
      ¬ Atomic s
        (StoreCall.run laneStoreEnv s authorize (.reload {} { parentSync := some "Input/output error" })) := by
  let s : Stored Unit := { store := laneStore, disk := laneDisk, caller := () }
  let authorize : Authorize Unit Unit := fun _ _ => ((),.ok ())
  have hpre : prepareReload laneStoreEnv s.store s.disk .enforceNewGeneration {} =
      .ok { loaded := laneManifest, snapshot := laneSnapshot } := laneManifest_prepares _
  have hans : authorize laneManifest s.caller=((),.ok ()) := rfl
  refine ⟨s,authorize,?_,?_⟩
  · rw [StoreCall.run,reloadWithAuthorization]
    exact reloadInMode_unsynced hpre hans _
  · rw [StoreCall.run,reloadWithAuthorization,reloadInMode_atomic_iff,not_not]
    refine ⟨_,hpre,?_,?_,_,rfl⟩
    · rw [hans]
    · simp [s,laneDisk,RenamedFile.found]

end CastleWall.Manifest
