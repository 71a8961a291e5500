import CastleWall.Decision.Release
import CastleWall.Decision.Reload
import CastleWall.Manifest.Change

/-! # How a call settles

A boot load, a reload or a publication is refused before it starts, ends without a commit, or commits the
manifest that its receipt names. -/

namespace CastleWall.Decision

open Text Policy Manifest Audit

/-- The row's event names the operation, and in its detail the manifest's signature and rule count. -/
def Names (env : WalEnv) (operation context : String) (loaded : LoadedManifest) (row : WalEntry) : Prop :=
  ∃ entry, env.valueFromStr row.eventCanonicalJson=.ok (.obj entry) ∧
    entry.lookup "operation" = some (.str operation) ∧
    entry.lookup "detail" =
      some (.str (receiptDetail context loaded.manifestSignatureB64url loaded.ruleCount))

structure Receipt (env : WalEnv) (operation context : String) (loaded : LoadedManifest)
    (engine engine' : DecisionEngine) (row : WalEntry) : Prop where
  names : Names env operation context loaded row
  durable : ∃ wal wal' event sinceEpochMs, engine.walWriter=some wal ∧ engine'.walWriter=some wal' ∧
    append env wal event .control sinceEpochMs .clean=(wal',.ok row.seq) ∧
    wal'.file.bytes=wal.file.bytes++walRowBytes row.text

/-- Nothing but the log and the ring changed. -/
structure Frame (engine engine' : DecisionEngine) : Prop where
  armed : engine'.armedIdentity=engine.armedIdentity
  fortress : engine'.fortressId=engine.fortressId

theorem Frame.refl (engine : DecisionEngine) : Frame engine engine := ⟨rfl,rfl⟩

section Authorize

variable {env : WalEnv}

theorem controlEventFields_bounds (fortressId operation detail : String) :
    (Json.obj (Json.ofFields (controlEventFields fortressId operation detail))).wellFormed=true ∧
      (Json.obj (Json.ofFields (controlEventFields fortressId operation detail))).depth ≤ 127 := by
  have hbou : ∀ f∈controlEventFields fortressId operation detail,
      f.2.wellFormed=true ∧ f.2.depth ≤ 0 := by
    simp [controlEventFields,Json.wellFormed,Json.depth,schemaVersionV1]
  refine ⟨Json.wellFormed_ofFields fun f hf => (hbou f hf).1,?_⟩
  rw [Json.depth]
  have hfie := Json.depth_ofFields fun f hf => (hbou f hf).2
  omega

theorem lookup_controlEventFields (fortressId operation detail key : String) :
    (Json.ofFields (controlEventFields fortressId operation detail)).lookup key =
      (controlEventFields fortressId operation detail).lookup key :=
  Json.lookup_ofFields (by simp [controlEventFields]) key

theorem controlEvent_reads (hlaw : env.Lawful) (fortressId operation detail : String) :
    ∃ entry, env.valueFromStr (controlEvent fortressId operation detail)=.ok (.obj entry) ∧
      entry.lookup "operation" = some (.str operation) ∧ entry.lookup "detail" = some (.str detail) := by
  obtain ⟨hwf,hdep⟩ := controlEventFields_bounds fortressId operation detail
  refine ⟨_,hlaw.value_of_canonicalText _ hwf hdep,?_,?_⟩
  · rw [lookup_controlEventFields]
    simp [controlEventFields,List.lookup_cons]
  · rw [lookup_controlEventFields]
    simp [controlEventFields,List.lookup_cons]

theorem appendControlAuditCancellable_cases (env : WalEnv) (engine : DecisionEngine) (operation detail : String)
    (call : ControlAppend) :
    (∃ wal wal' seq, engine.walWriter=some wal ∧
      append env wal (controlEvent engine.fortressId operation detail) .control call.sinceEpochMs call.fate =
        (wal',.ok seq) ∧
      appendControlAuditCancellable env engine operation detail call =
        (pushEvent { engine with walWriter := some wal' } (controlEvent engine.fortressId operation detail)
          call.sinceEpochMs true,.ok seq)) ∨
    (∃ engine' err, Frame engine engine' ∧
      appendControlAuditCancellable env engine operation detail call=(engine',.error err)) := by
  unfold appendControlAuditCancellable
  split
  · exact .inr ⟨_,_,.refl _,rfl⟩
  · rename_i wal hwal
    split
    · exact .inr ⟨_,_,.refl _,rfl⟩
    · exact .inr ⟨_,_,.refl _,rfl⟩
    · split_ifs
      · exact .inr ⟨_,_,.refl _,rfl⟩
      · dsimp only
        split
        · rename_i wal' err happ
          exact .inr ⟨{ engine with walWriter := some wal' },_,⟨rfl,rfl⟩,rfl⟩
        · rename_i wal' seq happ
          exact .inl ⟨wal,wal',seq,hwal,happ,rfl⟩

/-- An append that succeeds leaves a receipt; one that fails leaves at most a row that is not durable. -/
theorem appendReceipt_cases (hlaw : env.Lawful) (operation context : String) (call : ControlAppend)
    (loaded : LoadedManifest) (caller : Caller) :
    (∃ caller' row, appendReceipt env operation context call loaded caller=(caller',.ok ()) ∧
      Frame caller.engine caller'.engine ∧ caller'.effects=caller.effects++[.receipt row true] ∧
      Receipt env operation context loaded caller.engine caller'.engine row) ∨
    (∃ caller' err effects, appendReceipt env operation context call loaded caller=(caller',.error err) ∧
      Frame caller.engine caller'.engine ∧ caller'.effects=caller.effects++effects ∧
      ∀ e∈effects, ∃ row, e=.receipt row false) := by
  unfold appendReceipt
  dsimp only
  rcases appendControlAuditCancellable_cases env caller.engine operation
      (receiptDetail context loaded.manifestSignatureB64url loaded.ruleCount) call with
    ⟨wal,wal',seq,hwal,happ,h⟩ | ⟨engine',err,hfra,h⟩
  · refine .inl ?_
    obtain ⟨row,hrow,hseq,hfil,hwri,hsyn⟩ := append_ok happ
    have hbyt : wal'.file.bytes=wal.file.bytes++walRowBytes row.text := by
      rw [hfil]
      rfl
    have hcle : call.fate=.clean := by
      have hnone := hsyn rfl
      cases hfat : call.fate with
      | mk write sync =>
        rw [hfat] at hwri hnone
        simp only at hwri hnone
        rw [hwri,hnone]
        rfl
    have hwrn : writtenRow env (some wal) (some wal') (controlEvent caller.engine.fortressId operation
        (receiptDetail context loaded.manifestSignatureB64url loaded.ruleCount)) call.sinceEpochMs =
        some row := by
      simp only [writtenRow,hrow,Except.toOption,Option.bind_eq_bind,Option.bind_some,hbyt,if_true]
    obtain ⟨entry,hent,hope,hdet⟩ := controlEvent_reads hlaw caller.engine.fortressId operation
      (receiptDetail context loaded.manifestSignatureB64url loaded.ruleCount)
    obtain ⟨entry',hred,hrea⟩ := nextEntry_reads hlaw hrow
    obtain rfl : entry=entry' := Json.obj.inj (Except.ok.inj (hent.symm.trans hred))
    rw [h]
    refine ⟨_,row,rfl,⟨rfl,rfl⟩,?_,⟨_,hrea,?_,?_⟩,wal,wal',
      controlEvent caller.engine.fortressId operation
        (receiptDetail context loaded.manifestSignatureB64url loaded.ruleCount),
      call.sinceEpochMs,hwal,rfl,?_,hbyt⟩
    · simp only [pushEvent,hwal,hwrn,Option.map_some,Option.toList_some,Except.isOk,Except.toBool]
    · rw [lookup_withChainFields (by decide),hope]
    · rw [lookup_withChainFields (by decide),hdet]
    · rw [hseq,← hcle]
      exact happ
  · refine .inr ?_
    rw [h]
    refine ⟨_,err,_,rfl,hfra,rfl,?_⟩
    intro e he
    simp only [Option.mem_toList,Option.map_eq_some_iff] at he
    obtain ⟨row,-,rfl⟩ := he
    exact ⟨row,rfl⟩

end Authorize

/-- What a call may rely on in its authorization. `late` says that it may fail after a durable receipt. -/
structure Authorizes (env : DecisionEnv) (gate : IdentityGate) (operation context : String) (late : Prop)
    (authorize : Authorize Caller ControlAuditError) : Prop where
  grants : ∀ loaded caller caller', authorize loaded caller=(caller',.ok ()) →
    ¬ late ∧ Frame caller.engine caller'.engine ∧
    (gate=.frozen → refuseIdentityChange env.store.admission caller.engine loaded=.ok ()) ∧
    ∃ row, caller'.effects=caller.effects++[.receipt row true] ∧
      Receipt env.wal operation context loaded caller.engine caller'.engine row
  refuses : ∀ loaded caller caller' err, authorize loaded caller=(caller',.error err) →
    Frame caller.engine caller'.engine ∧ ∃ effects, caller'.effects=caller.effects++effects ∧
      ∀ e∈effects, ∃ row durable, e=.receipt row durable ∧ (durable=true → late)

section Calls

variable {env : DecisionEnv}

theorem authorizeLoaded_authorizes (hlaw : env.wal.Lawful) (gate : IdentityGate) (operation context : String)
    (call : AuthorizeCall) :
    Authorizes env gate operation context False (authorizeLoaded env gate operation context call) := by
  -- Past the shutdown flag and the identity gate, the answer is that of the append.
  have hcas : ∀ loaded caller,
      (∃ err, authorizeLoaded env gate operation context call loaded caller=(caller,.error err)) ∨
      ((gate=.frozen → refuseIdentityChange env.store.admission caller.engine loaded=.ok ()) ∧
        authorizeLoaded env gate operation context call loaded caller =
          appendReceipt env.wal operation context call.append loaded caller) := by
    intro loaded caller
    unfold authorizeLoaded
    split_ifs
    · exact .inl ⟨_,rfl⟩
    · cases gate with
      | bootFreeze => exact .inr ⟨fun h => absurd h (by simp),rfl⟩
      | frozen =>
        dsimp only
        cases hide : refuseIdentityChange env.store.admission caller.engine loaded with
        | error err => exact .inl ⟨err,rfl⟩
        | ok => exact .inr ⟨fun _ => rfl,rfl⟩
  constructor
  · intro loaded caller caller' h
    rcases hcas loaded caller with ⟨err,href⟩ | ⟨hgat,happ⟩
    · exact absurd (href.symm.trans h) (by simp)
    · rcases appendReceipt_cases hlaw operation context call.append loaded caller with
        ⟨caller'',row,hok,hfra,heff,hrec⟩ | ⟨caller'',err,_,hfai,_⟩
      · obtain ⟨rfl,-⟩ := Prod.mk.inj ((hok.symm.trans happ.symm).trans h)
        exact ⟨not_false,hfra,hgat,row,heff,hrec⟩
      · exact absurd ((hfai.symm.trans happ.symm).trans h) (by simp)
  · intro loaded caller caller' err h
    rcases hcas loaded caller with ⟨err',href⟩ | ⟨-,happ⟩
    · obtain ⟨rfl,-⟩ := Prod.mk.inj (href.symm.trans h)
      exact ⟨.refl _,[],by simp,by simp⟩
    · rcases appendReceipt_cases hlaw operation context call.append loaded caller with
        ⟨caller'',row,hok,_⟩ | ⟨caller'',err',effects,hfai,hfra,heff,hall⟩
      · exact absurd ((hok.symm.trans happ.symm).trans h) (by simp)
      · obtain ⟨rfl,-⟩ := Prod.mk.inj ((hfai.symm.trans happ.symm).trans h)
        refine ⟨hfra,effects,heff,fun e he => ?_⟩
        obtain ⟨row,rfl⟩ := hall e he
        exact ⟨row,false,rfl,by simp⟩

theorem authorizePublication_authorizes (hlaw : env.wal.Lawful) (context : String) (call : AuthorizeCall)
    (cancelled : Bool) :
    Authorizes env .frozen publishOperation context (cancelled=true)
      (authorizePublication env context call cancelled) := by
  have hspe := authorizeLoaded_authorizes hlaw .frozen publishOperation context call
  constructor
  · intro loaded caller caller' h
    unfold authorizePublication at h
    split at h
    · exact absurd h (by simp)
    · rename_i caller'' hok
      obtain ⟨-,hfra,hgat,hrec⟩ := hspe.grants loaded caller caller'' hok
      split_ifs at h with hcan
      · exact absurd h (by simp)
      · obtain ⟨rfl,-⟩ := Prod.mk.inj h
        exact ⟨hcan,hfra,hgat,hrec⟩
  · intro loaded caller caller' err h
    unfold authorizePublication at h
    split at h
    · rename_i caller'' err' hfai
      obtain ⟨rfl,-⟩ := Prod.mk.inj h
      obtain ⟨hfra,effects,heff,hall⟩ := hspe.refuses loaded caller caller'' err' hfai
      refine ⟨hfra,effects,heff,fun e he => ?_⟩
      obtain ⟨row,durable,rfl,hdur⟩ := hall e he
      exact ⟨row,durable,rfl,fun htru => (hdur htru).elim⟩
    · rename_i caller'' hok
      split_ifs at h with hcan
      · -- The receipt is durable and the publication is cancelled all the same.
        obtain ⟨rfl,-⟩ := Prod.mk.inj h
        obtain ⟨-,hfra,-,row,heff,-⟩ := hspe.grants loaded caller caller'' hok
        refine ⟨hfra,_,heff,fun e he => ?_⟩
        rw [List.mem_singleton] at he
        exact ⟨row,true,he,fun _ => hcan⟩
      · exact absurd h (by simp)

end Calls

def MarkMoves (env : StoreEnv) (store : ManifestStore) (disk disk' : PolicyDisk) : Prop :=
  disk.highWater.Kept disk'.highWater ∨ ∃ file prepared, disk.highWater.Kept file ∧
    Candidate env disk prepared ∧ disk'.highWater=file.rename (markBytes env store prepared.loaded)

inductive Settlement (env : DecisionEnv) (gate : IdentityGate) (operation context : String) (late : Prop)
    (host : Host) : Host → List Effect → Except ReloadError ManifestReloadSummary → Prop where
  | refused {err} : Settlement env gate operation context late host host [] (.error err)
  | held {store engine disk effects err} (wired : host.engine.manifestStore=some store)
    (frame : Frame host.engine engine) (mark : MarkMoves env.store store host.disk disk)
    (receipts : ∀ e∈effects, ∃ row durable, e=.receipt row durable ∧ (durable=true → late)) :
    Settlement env gate operation context late host
      { engine := { engine with manifestStore := some store }, disk := disk } effects (.error err)
  | committed {store engine disk prepared row} (wired : host.engine.manifestStore=some store)
    (frame : Frame host.engine engine) (candidate : Candidate env.store host.disk prepared)
    (admitted : gate=.frozen →
      refuseIdentityChange env.store.admission host.engine prepared.loaded=.ok ())
    (receipt : Receipt env.wal operation context prepared.loaded host.engine engine row) (sound : ¬ late)
    (mark : disk.highWater=.found (some (markBytes env.store store prepared.loaded))) :
    Settlement env gate operation context late host
      { engine := { engine with
          manifestStore := some { store with
            current := some prepared.loaded, currentSnapshot := some prepared.snapshot } }
        disk := disk }
      [.receipt row true,.committed prepared.loaded]
      (.ok { signatureB64url := prepared.loaded.manifestSignatureB64url
             ruleCount := prepared.loaded.ruleCount })

section Settle

variable {env : DecisionEnv}

theorem settles_of_change {gate : IdentityGate} {operation context : String} {late lateChange : Prop}
    {flagged : Bool} {authorize : Authorize Caller ControlAuditError} {host : Host} {store : ManifestStore}
    {s' : Stored Caller} {outcome : Except (AuthorizedReloadError ControlAuditError) LoadedManifest}
    (hwir : host.engine.manifestStore=some store)
    (hspe : Authorizes env gate operation context late authorize)
    (hcha : Change env.store authorize lateChange flagged (beginChange host store) s' outcome) :
    Settlement env gate operation context (lateChange ∨ late) host (settle s')
      (s'.caller.effects++committedEffect outcome) (summarize outcome) := by
  have hkep : ∀ {disk : PolicyDisk}, host.disk.Kept disk → MarkMoves env.store store host.disk disk :=
    fun hkep => .inl hkep.highWater
  -- After a grant the only effect so far is the durable receipt.
  have hone : ∀ {lateChange : Prop} {row : WalEntry}, lateChange →
      ∀ e∈([]++[Effect.receipt row true])++[], ∃ row durable, e=.receipt row durable ∧
        (durable=true → lateChange ∨ late) := by
    intro lateChange row hlat e he
    simp only [List.nil_append,List.append_nil,List.mem_singleton] at he
    exact ⟨row,true,he,fun _ => .inl hlat⟩
  cases hcha with
  | refused kept => exact .held hwir (.refl _) (hkep kept) (by simp [committedEffect,beginChange])
  | unauthorized candidate answer kept =>
    obtain ⟨hfra,effects,heff,hall⟩ := hspe.refuses _ _ _ _ answer
    refine .held hwir hfra (hkep kept) fun e he => ?_
    rw [heff] at he
    simp only [beginChange,committedEffect,List.nil_append,List.append_nil] at he
    obtain ⟨row,durable,heq,hdur⟩ := hall e he
    exact ⟨row,durable,heq,fun htru => .inr (hdur htru)⟩
  | stopped candidate answer fault kept =>
    obtain ⟨-,hfra,-,row,heff,-⟩ := hspe.grants _ _ _ answer
    refine .held hwir hfra (hkep kept) ?_
    rw [heff]
    exact hone fault
  | torn candidate answer fault flag mark =>
    obtain ⟨-,hfra,-,row,heff,-⟩ := hspe.grants _ _ _ answer
    refine .held hwir hfra ?_ ?_
    · rcases mark with hmar | ⟨file,hfil,hmar⟩
      · exact .inl hmar
      · exact .inr ⟨file,_,hfil,candidate,hmar⟩
    · rw [heff]
      exact hone fault
  | committed candidate answer sound mark =>
    obtain ⟨hlat,hfra,hgat,row,heff,hrec⟩ := hspe.grants _ _ _ answer
    rw [heff]
    exact .committed hwir hfra candidate hgat hrec (not_or.mpr ⟨sound,hlat⟩) mark

theorem withStore_settles {gate : IdentityGate} {operation context : String} {late lateChange : Prop}
    {flagged : Bool} {authorize : Authorize Caller ControlAuditError} (host : Host) (lock : LockOutcome)
    {change : Stored Caller → Stored Caller × Except (AuthorizedReloadError ControlAuditError) LoadedManifest}
    (hspe : Authorizes env gate operation context late authorize)
    (hcha : ∀ s, Change env.store authorize lateChange flagged s (change s).1 (change s).2) :
    Settlement env gate operation context (lateChange ∨ late) host (withStore host lock change).1
      (withStore host lock change).2.1 (withStore host lock change).2.2 := by
  unfold withStore
  cases hwir : host.engine.manifestStore with
  | none => exact .refused
  | some store =>
    dsimp only
    cases lockStore lock with
    | error err => exact .refused
    | ok => exact settles_of_change hwir hspe (hcha _)

theorem reload_settles (hlaw : env.wal.Lawful) (host : Host) (operation context : String) (call : ReloadCall) :
    Settlement env .frozen operation context (call.persist ≠ {} ∨ False) host
      (reloadManifestAuthorized env host operation context call).1
      (reloadManifestAuthorized env host operation context call).2.1
      (reloadManifestAuthorized env host operation context call).2.2 :=
  withStore_settles host call.storeLock (authorizeLoaded_authorizes hlaw .frozen operation context _)
    fun s => reloadInMode_change env.store s _ _ _ _

theorem publish_settles (hlaw : env.wal.Lawful) (host : Host) (context : String) (bundle : Bundle)
    (name : String) (call : PublishCall) :
    Settlement env .frozen publishOperation context (call.faults.Late ∨ call.cancelled=true) host
      (publishManifestBundleAuthorized env host context bundle name call).1
      (publishManifestBundleAuthorized env host context bundle name call).2.1
      (publishManifestBundleAuthorized env host context bundle name call).2.2 :=
  withStore_settles host call.storeLock (authorizePublication_authorizes hlaw context _ _)
    fun s => publishBundleWithAuthorization_change env.store s _ _ _ _

theorem freezeAtBoot_cases {engine : DecisionEngine} (huna : engine.armedIdentity=none)
    (result : Except ReloadError ManifestReloadSummary) :
    (∃ identity, bootIdentity engine result=.ok (some identity) ∧
      (freezeAtBoot engine result).1 = { engine with armedIdentity := some identity }) ∨
    ((∀ identity, bootIdentity engine result≠.ok (some identity)) ∧
      (freezeAtBoot engine result).1=engine) := by
  unfold freezeAtBoot
  cases hide : bootIdentity engine result with
  | error defect => exact .inr ⟨fun _ => by simp,rfl⟩
  | ok identity =>
    cases identity with
    | none => exact .inr ⟨fun _ => by simp,rfl⟩
    | some identity =>
      rw [huna]
      exact .inl ⟨identity,rfl,rfl⟩

theorem boot_settles (hlaw : env.wal.Lawful) (host : Host) (call : ReloadCall) :
    ((reloadManifestAuthorizedAtBoot env host call).1=host ∧
      (reloadManifestAuthorizedAtBoot env host call).2.1=[]) ∨
    (host.engine.armedIdentity=none ∧ ∃ host' result,
      Settlement env .bootFreeze bootManifestLoadOperation bootManifestLoadContext
        (call.persist ≠ {} ∨ False) host host' (reloadManifestAuthorizedAtBoot env host call).2.1 result ∧
      (reloadManifestAuthorizedAtBoot env host call).1 =
        { host' with engine := (freezeAtBoot host'.engine result).1 }) := by
  unfold reloadManifestAuthorizedAtBoot
  cases huna : host.engine.armedIdentity with
  | some armed => exact .inl ⟨rfl,rfl⟩
  | none =>
    have hset := withStore_settles host call.storeLock (authorizeLoaded_authorizes hlaw .bootFreeze
        bootManifestLoadOperation bootManifestLoadContext call.authorize)
      fun s => reloadInMode_change env.store s _ .warnOnlyCommittedGeneration call.load call.persist
    dsimp only
    cases hwir : host.engine.manifestStore with
    | none =>
      refine .inl ?_
      simp only [withStore,hwir,and_self]
    | some store =>
      cases hloc : lockStore call.storeLock with
      | error err =>
        refine .inl ?_
        simp only [withStore,hwir,hloc,and_self]
      | ok => exact .inr ⟨rfl,_,_,hset,rfl⟩

end Settle

end CastleWall.Decision
