import CastleWall.Cognitive.StateStore

/-! # Isolation of state keys

The store against a register for each address: writes are numbered from one, and a read returns what was
last written. The versions of all addresses share one map, keyed by the namespace and the key joined with
a slash, and an absent file is looked for under an older spelling; two addresses can meet in either. -/

namespace CastleWall.Cognitive.StateStore

open Text

section Operations

variable {env : StateEnv} {s : Store} {p : Address}

theorem checkAddress_apply (h : p.accepted=true) (s : Store) : checkAddress p s=(.ok (),s) := by
  rw [Address.accepted,Bool.and_eq_true] at h
  rw [checkAddress,Effect.bind_apply_ok (Effect.require_apply h.1 _ s),Effect.require_apply h.2]

theorem storageRead_apply (h : p.accepted=true) (s : Store) :
    storageRead p s=(.ok (fileAt s.files p),s) := by
  rw [storageRead,Effect.bind_apply_ok (checkAddress_apply h s),
    Effect.bind_apply_ok (Effect.get_apply s),Effect.pure_apply]

def withFiles (s : Store) (changed : AList fun _ : Path => Option Json) : Store :=
  { s with files := changed }

theorem storageWrite_apply {authorized : Address → Bool} (h : p.accepted=true)
    (haut : authorized p=true) (contents : Json) (s : Store) :
    storageWrite p authorized contents s =
      (.ok (),withFiles s (s.files.insert p.entryPath (some contents))) := by
  rw [storageWrite,Effect.bind_apply_ok (checkAddress_apply h s),
    Effect.bind_apply_ok (Effect.require_apply haut _ s),Effect.modify_apply,withFiles]

theorem plain_meta : Plain "_meta" := plain_of_toList String.toList_ofList (by decide)

theorem dot_notMem_meta : '.' ∉ "_meta".toList := by
  rw [show "_meta".toList=_ from String.toList_ofList]
  decide

theorem plain_versionAnchors : Plain versionAnchorsAddress.key := plain_of_toList String.toList_ofList (by decide)

theorem plain_publicKeys : Plain publicKeysAddress.key := plain_of_toList String.toList_ofList (by decide)

theorem accepted_versionAnchorsAddress : versionAnchorsAddress.accepted=true :=
  Address.accepted_of_plain plain_meta (by decide) plain_versionAnchors

theorem accepted_publicKeysAddress : publicKeysAddress.accepted=true :=
  Address.accepted_of_plain plain_meta (by decide) plain_publicKeys

theorem legacy_versionAnchorsAddress : versionAnchorsAddress.legacyEntryPath=versionAnchorsAddress.entryPath :=
  Address.legacyEntryPath_of_plain plain_meta dot_notMem_meta plain_versionAnchors

theorem legacy_publicKeysAddress : publicKeysAddress.legacyEntryPath=publicKeysAddress.entryPath :=
  Address.legacyEntryPath_of_plain plain_meta dot_notMem_meta plain_publicKeys

theorem fileAt_of_legacy_eq (h : p.legacyEntryPath=p.entryPath) (s : Store) :
    fileAt s.files p=s.files.lookup p.entryPath := by
  rw [fileAt,if_pos h]
  cases s.files.lookup p.entryPath <;> rfl

theorem loadVersionAnchors_apply {anchors : List (String × Json)}
    (h : anchorsOf env (s.files.lookup versionAnchorsAddress.entryPath)=.ok anchors) :
    loadVersionAnchors env s=(.ok anchors,s) := by
  rw [loadVersionAnchors,Effect.bind_apply_ok (storageRead_apply accepted_versionAnchorsAddress s),
    fileAt_of_legacy_eq legacy_versionAnchorsAddress,h,Effect.ofExcept_apply]

theorem loadJsonRecord_apply {registry : List (String × Json)}
    (h : recordOf publicKeysAddress (s.files.lookup publicKeysAddress.entryPath)=.ok registry) :
    loadJsonRecord publicKeysAddress s=(.ok registry,s) := by
  rw [loadJsonRecord,Effect.bind_apply_ok (storageRead_apply accepted_publicKeysAddress s),
    fileAt_of_legacy_eq legacy_publicKeysAddress,h,Effect.ofExcept_apply]

theorem getAnchoredVersion_apply {anchors : List (String × Json)}
    (h : anchorsOf env (s.files.lookup versionAnchorsAddress.entryPath)=.ok anchors) :
    getAnchoredVersion env p s=(.ok (anchoredVersion anchors p),s) := by
  rw [getAnchoredVersion,Effect.bind_apply_ok (loadVersionAnchors_apply h),Effect.pure_apply]

theorem hasInterruptedExitImport_apply
    (h : ∀ path∈s.files, path.dir≠exitImportJournalNamespace) :
    hasInterruptedExitImport s=(.ok false,s) := by
  have hpla : Plain exitImportJournalNamespace := plain_of_toList String.toList_ofList (by decide)
  have hnam := hpla.encode
  have hcom := hpla.component (by decide)
  have hnone : (s.files.keys.filter fun path =>
      path.dir=encodeFilesystemStorageName exitImportJournalNamespace)=[] := by
    rw [List.filter_eq_nil_iff]
    intro path hpat
    rw [hnam,decide_eq_true_iff]
    exact h path hpat
  have hlis : storageList exitImportJournalNamespace s=(.ok [],s) := by
    rw [storageList,Effect.bind_apply_ok (Effect.require_apply hcom _ s),
      Effect.bind_apply_ok (Effect.get_apply s),hnone,Effect.ofExcept_apply]
    rfl
  rw [hasInterruptedExitImport,Effect.bind_apply_ok hlis,Effect.pure_apply]
  rfl

end Operations

def ownDirectories : List String := ["_meta","_identities",exitImportJournalNamespace]

/-- Addresses that meet neither in the version map nor on disk, nor a record of the store itself. -/
structure Apart (P : Address → Prop) : Prop where
  accepted : ∀ p, P p → p.accepted=true
  joined : ∀ p q, P p → P q → versionKey p=versionKey q → p=q
  legacy : ∀ p q, P p → P q → p.legacyEntryPath=q.entryPath → p=q
  own : ∀ p, P p → p.entryPath.dir∉ownDirectories ∧ p.legacyEntryPath.dir∉ownDirectories

structure Lawful (env : StateEnv) : Prop where
  base64 : ∀ bytes, fromBase64url env (toBase64url bytes)=bytes
  opened : ∀ namespaceName iv plaintext,
    env.gcmOpen namespaceName iv (env.gcmSeal namespaceName iv plaintext)=some plaintext
  tagged : ∀ namespaceName iv plaintext, 16 ≤ (env.gcmSeal namespaceName iv plaintext).length
  ownWrites : env.rawWriteAuthorized versionAnchorsAddress=true ∧
    env.rawWriteAuthorized publicKeysAddress=true

/-- A write by a resident identity, with its own key, of a value that no byte order mark leads. -/
structure Honest (env : StateEnv) (files : AList fun _ : Path => Option Json) (w : WriteInput) : Prop where
  identity : (identityAddress w.identityId).accepted=true
  resident : ∃ record resident, files.lookup (identityAddress w.identityId).entryPath=some (some record) ∧
    env.identityOf record=some resident ∧
    ∃ key∈resident.writerKeys, ∀ message, env.verify message (w.signer.sign message) key=true
  signature : ∀ message, (w.signer.sign message).length=64
  stamped : ∀ version, ∃ stamp,
    env.mintStamp w.address w.identityId w.now version w.provenance=some stamp
  authorized : env.rawWriteAuthorized w.address=true
  unmarked : w.value.toList.head? ≠ some Ecma.byteOrderMark

structure Register where
  writes : Nat
  value : Option String

abbrev Registers : Type := Address → Register

def writtenEnvelope (env : StateEnv) (w : WriteInput) (version stamp : Json) : Except StateError Json :=
  buildSignedEnvelope env w.address (some version) (some (.str w.identityId)) 3 (some w.metadata)
    (some stamp) (some (.str (w.integrityHash env))) (some (w.payload env))

structure Written (env : StateEnv) (files : AList fun _ : Path => Option Json) (p : Address)
    (version : Nat) (value : String) (contents : Json) : Prop where
  entry : ∃ w stamp envelope, Honest env files w ∧ w.address=p ∧ w.value=value ∧
    writtenEnvelope env w (.num version) stamp=.ok envelope ∧
    contents=stateEntry env w (.num version) stamp envelope

/-- The store holds the registers; `floor` is what the anchors say. -/
structure Holds (env : StateEnv) (P : Address → Prop) (files : AList fun _ : Path => Option Json)
    (registers : Registers) (floor : Address → Nat) (s : Store) : Prop where
  identities : ∀ path : Path, path.dir = "_identities" → s.files.lookup path=files.lookup path
  journal : ∀ path∈s.files, path.dir≠exitImportJournalNamespace
  anchors : ∃ anchors, anchorsOf env (s.files.lookup versionAnchorsAddress.entryPath)=.ok anchors ∧
    ∀ p, P p → anchoredVersion anchors p=floor p
  registry : ∃ registry,
    recordOf publicKeysAddress (s.files.lookup publicKeysAddress.entryPath)=.ok registry
  present : ∀ p value, P p → (registers p).value=some value →
    ∃ contents, s.files.lookup p.entryPath=some (some contents) ∧
      Written env files p (registers p).writes value contents
  absent : ∀ p, P p → (registers p).value=none → s.files.lookup p.entryPath=none
  located : ∀ path∈s.files, path.dir∈ownDirectories ∨ ∃ p, P p ∧ path=p.entryPath
  cached : ∀ p version, P p → s.versionCache (versionKey p)=some version →
    ∃ n : Nat, version=.num n ∧ n ≤ (registers p).writes

section Entry

variable (env : StateEnv) (w : WriteInput) (version stamp envelope : Json)

theorem field_stateEntry (key : String) :
    field (stateEntry env w version stamp envelope) key =
      ((stateEntryFields env w version stamp envelope).lookup key).join :=
  field_objectOf (by simp [stateEntryFields]) key

theorem field_payload (key : String) :
    field (w.payload env) key=((w.payloadFields env).lookup key).join :=
  field_objectOf (by simp [WriteInput.payloadFields]) key

theorem member_objectOf (fields : List (String × Option Json)) (key : String) :
    member (some (objectOf fields)) key=.ok (field (objectOf fields) key) := rfl

end Entry

section Listing

variable {env : StateEnv} {P : Address → Prop} {files : AList fun _ : Path => Option Json}
  {registers : Registers} {floor : Address → Nat} {s : Store} {p : Address}

theorem Holds.fileAt_eq (h : Holds env P files registers floor s) (hapa : Apart P) (hp : P p) :
    fileAt s.files p=s.files.lookup p.entryPath := by
  rw [fileAt]
  cases hfil : s.files.lookup p.entryPath with
  | some contents => rfl
  | none =>
    split_ifs with hleg
    · rfl
    · apply AList.lookup_eq_none.mpr
      intro hmem
      rcases h.located _ hmem with hown | ⟨q,hq,hpat⟩
      · exact (hapa.own p hp).2 hown
      · have hpq := hapa.legacy p q hp hq hpat
        rw [← hpq] at hpat
        exact hleg hpat

theorem Holds.storageRead_apply (h : Holds env P files registers floor s) (hapa : Apart P) (hp : P p) :
    storageRead p s=(.ok (s.files.lookup p.entryPath),s) := by
  rw [StateStore.storageRead_apply (hapa.accepted p hp),h.fileAt_eq hapa hp]

theorem Holds.setVersion (h : Holds env P files registers floor s) (hapa : Apart P) (hp : P p)
    {version : Option Json}
    (hver : ∀ v, version=some v → ∃ n : Nat, v=.num n ∧ n ≤ (registers p).writes) :
    Holds env P files registers floor (StateStore.setVersion p version s) :=
  { h with
    cached := by
      intro q v hq hv
      by_cases hkey : versionKey q=versionKey p
      · rw [hapa.joined q p hq hp hkey] at hv ⊢
        rw [setVersion_self] at hv
        exact hver v hv
      · rw [setVersion_of_ne hkey] at hv
        exact h.cached q v hq hv }

variable {namespaceName : String}

theorem Holds.seedVersion (h : Holds env P files registers floor s) (hapa : Apart P)
    {key : String} (hp : P ⟨namespaceName,key⟩) :
    ∃ s', StateStore.seedVersion namespaceName key s=(.ok (),s') ∧
      Holds env P files registers floor s' ∧ s'.files=s.files := by
  rw [StateStore.seedVersion,Effect.bind_apply_ok (h.storageRead_apply hapa hp)]
  cases hval : (registers ⟨namespaceName,key⟩).value with
  | none =>
    rw [h.absent _ hp hval]
    exact ⟨s,rfl,h,rfl⟩
  | some value =>
    obtain ⟨contents,hfil,⟨w,stamp,envelope,-,-,-,-,rfl⟩⟩ := h.present _ value hp hval
    rw [hfil]
    refine ⟨_,rfl,h.setVersion hapa hp ?_,rfl⟩
    intro v hv
    rw [field_stateEntry] at hv
    refine ⟨(registers ⟨namespaceName,key⟩).writes,?_,le_refl _⟩
    simpa [stateEntryFields,List.lookup_cons] using hv.symm

theorem Holds.seedVersions (hapa : Apart P) {keys : List String}
    (hkey : ∀ key∈keys, P ⟨namespaceName,key⟩) :
    ∀ {s : Store}, Holds env P files registers floor s →
      ∃ s', Effect.forEach (StateStore.seedVersion namespaceName) keys s=(.ok (),s') ∧
        Holds env P files registers floor s' ∧ s'.files=s.files := by
  induction keys with
  | nil =>
    intro s h
    exact ⟨s,rfl,h,rfl⟩
  | cons key keys ih =>
    intro s h
    obtain ⟨s₁,hfir,h₁,hfiles₁⟩ := h.seedVersion hapa (hkey key List.mem_cons_self)
    obtain ⟨s₂,hres,h₂,hfiles₂⟩ := ih (fun k hk => hkey k (List.mem_cons_of_mem key hk)) h₁
    refine ⟨s₂,?_,h₂,hfiles₂.trans hfiles₁⟩
    rw [Effect.forEach,Effect.bind_apply_ok hfir,hres]

theorem decodeListed {paths : List Path}
    (hpat : ∀ path∈paths, ∃ key, P ⟨namespaceName,key⟩ ∧
      filesystemStorageNameRoundTrips key=true ∧ path.name=encodeFilesystemStorageName key) :
    ∃ keys, paths.mapM (fun path => decodeRawFilesystemStorageName path.name) =
        (.ok keys : Except StateError (List String)) ∧ ∀ key∈keys, P ⟨namespaceName,key⟩ := by
  induction paths with
  | nil => exact ⟨[],rfl,nofun⟩
  | cons path paths ih =>
    obtain ⟨keys,hkey,hin⟩ := ih fun q hq => hpat q (List.mem_cons_of_mem path hq)
    obtain ⟨key,hp,htri,hnam⟩ := hpat path List.mem_cons_self
    rw [filesystemStorageNameRoundTrips,beq_iff_eq] at htri
    have hdec : decodeRawFilesystemStorageName path.name=.ok key := by
      rw [hnam,decodeRawFilesystemStorageName,htri,if_pos rfl]
    refine ⟨key::keys,?_,?_⟩
    · rw [List.mapM_cons,hdec,hkey]
      rfl
    · intro k hk
      rcases List.mem_cons.mp hk with rfl | hk
      · exact hp
      · exact hin k hk

theorem Holds.storageList_apply (h : Holds env P files registers floor s) (hapa : Apart P) (hp : P p) :
    ∃ keys, storageList p.namespaceName s=(.ok keys,s) ∧ ∀ key∈keys, P ⟨p.namespaceName,key⟩ := by
  have hacc := hapa.accepted p hp
  rw [Address.accepted,Bool.and_eq_true] at hacc
  have hlis : ∀ path∈s.files.keys.filter (fun path =>
      path.dir=encodeFilesystemStorageName p.namespaceName), ∃ key, P ⟨p.namespaceName,key⟩ ∧
        filesystemStorageNameRoundTrips key=true ∧ path.name=encodeFilesystemStorageName key := by
    intro path hpat
    obtain ⟨hmem,hdir⟩ := List.mem_filter.mp hpat
    rw [decide_eq_true_iff] at hdir
    rcases h.located path hmem with hown | ⟨q,hq,rfl⟩
    · rw [hdir] at hown
      exact absurd hown (hapa.own p hp).1
    · have hqac := hapa.accepted q hq
      rw [Address.accepted,Bool.and_eq_true] at hqac
      have hnam : q.namespaceName=p.namespaceName :=
        encode_injective (roundTrips_of_component hqac.1) (roundTrips_of_component hacc.1) hdir
      refine ⟨q.key,?_,hqac.2,rfl⟩
      rw [← hnam]
      exact hq
  obtain ⟨keys,hkey,hin⟩ := decodeListed hlis
  refine ⟨keys,?_,hin⟩
  rw [storageList,Effect.bind_apply_ok (Effect.require_apply hacc.1 _ s),
    Effect.bind_apply_ok (Effect.get_apply s),hkey,Effect.ofExcept_apply]

theorem Holds.getNamespaceHashes (h : Holds env P files registers floor s) (hapa : Apart P) (hp : P p) :
    ∃ s', StateStore.getNamespaceHashes p.namespaceName s=(.ok (),s') ∧
      Holds env P files registers floor s' ∧ s'.files=s.files ∧ p.namespaceName∈s'.hashedNamespaces := by
  rw [StateStore.getNamespaceHashes,Effect.bind_apply_ok (Effect.get_apply s)]
  split_ifs with hmem
  · exact ⟨s,rfl,h,rfl,hmem⟩
  · obtain ⟨keys,hkey,hin⟩ := h.storageList_apply hapa hp
    obtain ⟨s₁,hsee,h₁,hfil⟩ := Holds.seedVersions hapa hin h
    refine ⟨{ s₁ with hashedNamespaces := p.namespaceName::s₁.hashedNamespaces },?_,?_,hfil,
      List.mem_cons_self⟩
    · rw [Effect.bind_apply_ok hkey,Effect.bind_apply_ok hsee,Effect.modify_apply]
    · exact { h₁ with }

theorem getNamespaceHashes_memo (h : namespaceName∈s.hashedNamespaces) :
    StateStore.getNamespaceHashes namespaceName s=(.ok (),s) := by
  rw [StateStore.getNamespaceHashes,Effect.bind_apply_ok (Effect.get_apply s),if_pos h,Effect.pure_apply]

end Listing

section Files

variable {env : StateEnv} {P : Address → Prop} {files : AList fun _ : Path => Option Json}
  {registers : Registers} {floor : Address → Nat} {s : Store} {p : Address} {path : Path}

theorem Apart.ne_own (hapa : Apart P) (hp : P p) (h : path.dir∈ownDirectories) :
    path≠p.entryPath := by
  rintro rfl
  exact (hapa.own p hp).1 h

theorem Apart.entryPath_ne (hapa : Apart P) (hp : P p) {q : Address} (hq : P q) (h : q≠p) :
    q.entryPath≠p.entryPath :=
  fun hpat => h (Address.entryPath_injective (hapa.accepted q hq) (hapa.accepted p hp) hpat)

theorem dir_versionAnchors : versionAnchorsAddress.entryPath.dir = "_meta" := plain_meta.encode

theorem dir_publicKeys : publicKeysAddress.entryPath.dir = "_meta" := plain_meta.encode

theorem publicKeys_ne_versionAnchors : publicKeysAddress.entryPath≠versionAnchorsAddress.entryPath := by
  rw [Address.entryPath_of_plain plain_meta plain_publicKeys,Address.entryPath_of_plain plain_meta plain_versionAnchors]
  decide

theorem mem_ownDirectories_meta (h : path.dir = "_meta") : path.dir∈ownDirectories := by
  rw [h]
  decide

theorem mem_ownDirectories_identities (h : path.dir = "_identities") :
    path.dir∈ownDirectories := by
  rw [h]
  decide

def put (registers : Registers) (p : Address) (register : Register) : Registers :=
  Function.update registers p register

theorem put_self (registers : Registers) (p : Address) (register : Register) :
    put registers p register p=register := by
  simp [put]

theorem put_of_ne {q : Address} (h : q≠p) (registers : Registers) (register : Register) :
    put registers p register q=registers q := by
  simp [put,h]

theorem Holds.storeEntry (h : Holds env P files registers floor s) (hapa : Apart P) (hp : P p)
    {value : String} {contents : Json}
    (hwri : Written env files p ((registers p).writes+1) value contents) :
    Holds env P files (put registers p ⟨(registers p).writes+1,some value⟩) floor
      (withFiles s (s.files.insert p.entryPath (some contents))) where
  identities := by
    intro path hpat
    have hne := hapa.ne_own hp (mem_ownDirectories_identities hpat)
    rw [withFiles,AList.lookup_insert_ne hne]
    exact h.identities path hpat
  journal := by
    intro path hpat
    rcases (AList.mem_insert s.files).mp hpat with rfl | hpat
    · intro hdir
      apply (hapa.own p hp).1
      rw [hdir]
      decide
    · exact h.journal path hpat
  anchors := by
    have hne := hapa.ne_own hp (mem_ownDirectories_meta dir_versionAnchors)
    rw [withFiles,AList.lookup_insert_ne hne]
    exact h.anchors
  registry := by
    have hne := hapa.ne_own hp (mem_ownDirectories_meta dir_publicKeys)
    rw [withFiles,AList.lookup_insert_ne hne]
    exact h.registry
  present := by
    intro q v hq hv
    by_cases hqp : q=p
    · subst hqp
      rw [put_self] at hv ⊢
      cases hv
      exact ⟨contents,AList.lookup_insert s.files,hwri⟩
    · rw [put_of_ne hqp] at hv ⊢
      rw [withFiles,AList.lookup_insert_ne (hapa.entryPath_ne hp hq hqp)]
      exact h.present q v hq hv
  absent := by
    intro q hq hv
    by_cases hqp : q=p
    · subst hqp
      rw [put_self] at hv
      cases hv
    · rw [put_of_ne hqp] at hv
      rw [withFiles,AList.lookup_insert_ne (hapa.entryPath_ne hp hq hqp)]
      exact h.absent q hq hv
  located := by
    intro path hpat
    rcases (AList.mem_insert s.files).mp hpat with rfl | hpat
    · exact .inr ⟨p,hp,rfl⟩
    · exact h.located path hpat
  cached := by
    intro q v hq hv
    obtain ⟨n,rfl,hn⟩ := h.cached q v hq hv
    refine ⟨n,rfl,?_⟩
    by_cases hqp : q=p
    · subst hqp
      rw [put_self]
      exact Nat.le_succ_of_le hn
    · rw [put_of_ne hqp]
      exact hn

theorem Holds.storeOwn (h : Holds env P files registers floor s) (hapa : Apart P)
    (hdir : path.dir = "_meta") {floor' : Address → Nat} {contents : Json}
    (hanc : ∃ anchors, anchorsOf env ((s.files.insert path (some contents)).lookup
        versionAnchorsAddress.entryPath)=.ok anchors ∧ ∀ p, P p → anchoredVersion anchors p=floor' p)
    (hreg : ∃ registry, recordOf publicKeysAddress ((s.files.insert path (some contents)).lookup
        publicKeysAddress.entryPath)=.ok registry) :
    Holds env P files registers floor' (withFiles s (s.files.insert path (some contents))) where
  identities := by
    intro q hq
    have hne : q≠path := by
      rintro rfl
      rw [hdir] at hq
      exact absurd hq (by decide)
    rw [withFiles,AList.lookup_insert_ne hne]
    exact h.identities q hq
  journal := by
    intro q hq
    rcases (AList.mem_insert s.files).mp hq with rfl | hq
    · rw [hdir]
      decide
    · exact h.journal q hq
  anchors := hanc
  registry := hreg
  present := by
    intro q v hq hv
    have hne := (hapa.ne_own hq (mem_ownDirectories_meta hdir)).symm
    rw [withFiles,AList.lookup_insert_ne hne]
    exact h.present q v hq hv
  absent := by
    intro q hq hv
    have hne := (hapa.ne_own hq (mem_ownDirectories_meta hdir)).symm
    rw [withFiles,AList.lookup_insert_ne hne]
    exact h.absent q hq hv
  located := by
    intro q hq
    rcases (AList.mem_insert s.files).mp hq with rfl | hq
    · exact .inl (mem_ownDirectories_meta hdir)
    · exact h.located q hq
  cached := h.cached

theorem Holds.eraseEntry (h : Holds env P files registers floor s) (hapa : Apart P) (hp : P p) :
    Holds env P files (put registers p ⟨(registers p).writes,none⟩) floor
      (withFiles s (s.files.erase p.entryPath)) where
  identities := by
    intro path hpat
    have hne := hapa.ne_own hp (mem_ownDirectories_identities hpat)
    rw [withFiles,AList.lookup_erase_ne hne]
    exact h.identities path hpat
  journal := fun path hpat => h.journal path (AList.mem_erase.mp hpat).2
  anchors := by
    have hne := hapa.ne_own hp (mem_ownDirectories_meta dir_versionAnchors)
    rw [withFiles,AList.lookup_erase_ne hne]
    exact h.anchors
  registry := by
    have hne := hapa.ne_own hp (mem_ownDirectories_meta dir_publicKeys)
    rw [withFiles,AList.lookup_erase_ne hne]
    exact h.registry
  present := by
    intro q v hq hv
    by_cases hqp : q=p
    · subst hqp
      rw [put_self] at hv
      cases hv
    · rw [put_of_ne hqp] at hv ⊢
      rw [withFiles,AList.lookup_erase_ne (hapa.entryPath_ne hp hq hqp)]
      exact h.present q v hq hv
  absent := by
    intro q hq hv
    by_cases hqp : q=p
    · subst hqp
      exact AList.lookup_erase q.entryPath s.files
    · rw [put_of_ne hqp] at hv
      rw [withFiles,AList.lookup_erase_ne (hapa.entryPath_ne hp hq hqp)]
      exact h.absent q hq hv
  located := fun path hpat => h.located path (AList.mem_erase.mp hpat).2
  cached := by
    intro q v hq hv
    obtain ⟨n,rfl,hn⟩ := h.cached q v hq hv
    refine ⟨n,rfl,?_⟩
    by_cases hqp : q=p
    · subst hqp
      rwa [put_self]
    · rwa [put_of_ne hqp]

end Files

section Records

variable {env : StateEnv} {P : Address → Prop} {files : AList fun _ : Path => Option Json}
  {registers : Registers} {floor : Address → Nat} {s : Store} {p : Address}

theorem Holds.rememberWriterPublicKey (h : Holds env P files registers floor s) (hapa : Apart P)
    (hlaw : Lawful env) (kid : String) (publicKey : List UInt8) :
    ∃ s', StateStore.rememberWriterPublicKey env kid publicKey s=(.ok (),s') ∧
      Holds env P files registers floor s' ∧ s'.hashedNamespaces=s.hashedNamespaces := by
  obtain ⟨registry,hreg⟩ := h.registry
  rw [StateStore.rememberWriterPublicKey,Effect.bind_apply_ok (loadJsonRecord_apply hreg)]
  split_ifs
  · exact ⟨s,rfl,h,rfl⟩
  · refine ⟨_,storageWrite_apply accepted_publicKeysAddress hlaw.ownWrites.2 _ s,?_,rfl⟩
    apply h.storeOwn hapa dir_publicKeys
    · rw [AList.lookup_insert_ne publicKeys_ne_versionAnchors.symm]
      exact h.anchors
    · rw [AList.lookup_insert]
      exact ⟨_,rfl⟩

theorem anchorsOf_saved (hlaw : Lawful env) (record : List (String × Json)) :
    anchorsOf env (some (some (.obj [(metaMacMarker,.bool true),("data",.obj record),
      ("mac",.str (toBase64url (metaRecordMacBytes env record)))])))=.ok record := by
  have hmar : isTrue (List.lookup metaMacMarker [(metaMacMarker,Json.bool true),("data",.obj record),
      ("mac",.str (toBase64url (metaRecordMacBytes env record)))])=true := by
    rw [List.lookup_cons_self]
    rfl
  rw [anchorsOf,if_pos hmar]
  simp [metaMacMarker,List.lookup_cons,hlaw.base64]

variable {n : Nat}

theorem anchoredVersion_insert (hn : n < 2 ^ 53) (anchors : List (String × Json)) :
    anchoredVersion (Json.insertField (versionKey p) (.num n) anchors) p=n := by
  have hsaf : isSafeInteger n=true := by
    rw [isSafeInteger,decide_eq_true_iff]
    omega
  rw [anchoredVersion,Json.lookup_insertField_self]
  simp only [hsaf,if_true]

theorem anchoredVersion_insert_ne {q : Address} (h : versionKey q≠versionKey p) (v : Json)
    (anchors : List (String × Json)) :
    anchoredVersion (Json.insertField (versionKey p) v anchors) q=anchoredVersion anchors q := by
  rw [anchoredVersion,Json.lookup_insertField_ne h,anchoredVersion]

theorem less_num (env : StateEnv) (a b : Int) :
    less env (some (.num a)) (some (.num b))=decide (a < b) := rfl

theorem Holds.assertNotBelowVersionFloor (h : Holds env P files registers floor s) (hp : P p)
    (hn : floor p ≤ n) :
    ∃ anchors, StateStore.assertNotBelowVersionFloor env p (some (.num n)) s =
        (.ok (anchors,(floor p : Int)),s) ∧
      ∀ q, P q → anchoredVersion anchors q=floor q := by
  obtain ⟨anchors,hloa,hflo⟩ := h.anchors
  refine ⟨anchors,?_,hflo⟩
  have hnot : ¬ less env (some (.num n)) (some (.num (anchoredVersion anchors p)))=true := by
    rw [hflo p hp,less_num,decide_eq_true_iff]
    omega
  rw [StateStore.assertNotBelowVersionFloor,Effect.bind_apply_ok (loadVersionAnchors_apply hloa),
    Effect.bind_apply_ok (Effect.require_apply hnot _ s),Effect.pure_apply,hflo p hp]

def raise (floor : Address → Nat) (p : Address) (n : Nat) : Address → Nat := Function.update floor p n

theorem Holds.observeVersion (h : Holds env P files registers floor s) (hapa : Apart P) (hlaw : Lawful env)
    (hp : P p) (hn : floor p ≤ n) (hsaf : n < 2 ^ 53) :
    ∃ s', StateStore.observeVersion env p (some (.num n)) s=(.ok (),s') ∧
      Holds env P files registers (raise floor p n) s' ∧ s'.hashedNamespaces=s.hashedNamespaces := by
  obtain ⟨anchors,hass,hflo⟩ := h.assertNotBelowVersionFloor hp hn
  rw [StateStore.observeVersion,Effect.bind_apply_ok hass]
  dsimp only
  rw [less_num]
  by_cases hlt : (floor p : Int) < n
  · rw [if_pos (decide_eq_true hlt)]
    refine ⟨_,storageWrite_apply accepted_versionAnchorsAddress hlaw.ownWrites.1 _ s,?_,rfl⟩
    apply h.storeOwn hapa dir_versionAnchors
    · rw [AList.lookup_insert]
      refine ⟨_,anchorsOf_saved hlaw _,?_⟩
      intro q hq
      by_cases hqp : q=p
      · subst hqp
        rw [Option.getD_some,anchoredVersion_insert hsaf,raise,Function.update_self]
      · have hkey : versionKey q≠versionKey p := fun hkey => hqp (hapa.joined q p hq hp hkey)
        rw [anchoredVersion_insert_ne hkey,hflo q hq,raise,Function.update_of_ne hqp]
    · rw [AList.lookup_insert_ne publicKeys_ne_versionAnchors]
      exact h.registry
  · have hsam : raise floor p n=floor := by
      rw [raise,show n=floor p by omega,Function.update_eq_self]
    rw [if_neg (by simpa using hlt),hsam]
    exact ⟨s,rfl,h,rfl⟩

end Records

section Writing

variable {env : StateEnv} {P : Address → Prop} {files : AList fun _ : Path => Option Json}
  {registers : Registers} {floor : Address → Nat} {s : Store} {w : WriteInput}

theorem payloadAuthTag_payload (hlaw : Lawful env) (w : WriteInput) :
    ∃ tag, payloadAuthTag env (some (w.payload env))=.ok tag := by
  have hct : member (some (w.payload env)) "ct" = .ok (some (.str (toBase64url (w.ciphertext env)))) := by
    rw [WriteInput.payload,member_objectOf,← WriteInput.payload,field_payload]
    simp [WriteInput.payloadFields,List.lookup_cons]
  have hlon : ¬ (fromBase64url env (toBase64url (w.ciphertext env))).length < 16 := by
    rw [hlaw.base64,not_lt]
    exact hlaw.tagged _ _ _
  refine ⟨toBase64url ((fromBase64url env (toBase64url (w.ciphertext env))).drop
    ((fromBase64url env (toBase64url (w.ciphertext env))).length - 16)),?_⟩
  rw [payloadAuthTag,hct]
  exact if_neg hlon

theorem writtenEnvelope_ok (hlaw : Lawful env) (w : WriteInput) (version stamp : Json) :
    ∃ fields, writtenEnvelope env w version stamp=.ok (objectOf fields) := by
  obtain ⟨tag,htag⟩ := payloadAuthTag_payload hlaw w
  rw [writtenEnvelope,buildSignedEnvelope,htag]
  exact ⟨_,rfl⟩

theorem Holds.nextVersion_eq (h : Holds env P files registers floor s) (hp : P w.address)
    (hflo : floor w.address=(registers w.address).writes) :
    nextVersion env (s.versionCache (versionKey w.address)) (floor w.address) =
      .num ((registers w.address).writes+1 : Nat) := by
  cases hcac : s.versionCache (versionKey w.address) with
  | none =>
    rw [nextVersion,hflo]
    congr 1
  | some version =>
    obtain ⟨n,rfl,hn⟩ := h.cached _ version hp hcac
    rw [nextVersion,hflo]
    congr 1
    omega

theorem Holds.write (h : Holds env P files registers floor s) (hapa : Apart P) (hlaw : Lawful env)
    (hw : Honest env files w) (hp : P w.address)
    (hflo : floor w.address=(registers w.address).writes)
    (hsaf : (registers w.address).writes+1 < 2 ^ 53) :
    ∃ s', StateStore.write env w s =
        (.ok ⟨.num ((registers w.address).writes+1 : Nat),w.now,w.integrityHash env⟩,s') ∧
      Holds env P files (put registers w.address ⟨(registers w.address).writes+1,some w.value⟩)
        (raise floor w.address ((registers w.address).writes+1)) s' := by
  have hacc := hapa.accepted _ hp
  have hcom := hacc
  rw [Address.accepted,Bool.and_eq_true] at hcom
  obtain ⟨s₁,hhas,h₁,-,hmem⟩ := h.getNamespaceHashes hapa hp
  obtain ⟨anchors,hloa,hanc⟩ := h₁.anchors
  have hver := h₁.nextVersion_eq hp hflo
  obtain ⟨stamp,hsta⟩ := hw.stamped (.num ((registers w.address).writes+1 : Nat))
  obtain ⟨fields,henv⟩ := writtenEnvelope_ok hlaw w (.num ((registers w.address).writes+1 : Nat)) stamp
  have hmin : StateStore.mintStamp env w (.num ((registers w.address).writes+1 : Nat)) s₁ =
      (.ok stamp,s₁) := by
    rw [StateStore.mintStamp,hsta]
    rfl
  have h₂ := h₁.storeEntry hapa hp
    ⟨w,stamp,objectOf fields,hw,rfl,rfl,henv,rfl⟩
  obtain ⟨s₃,hrem,h₃,hhashed₃⟩ :=
    h₂.rememberWriterPublicKey hapa hlaw w.identityId w.signer.publicKey
  obtain ⟨s₄,hobs,h₄,hhashed₄⟩ :=
    h₃.observeVersion hapa hlaw hp (by rw [hflo]; exact Nat.le_succ _) hsaf
  have h₅ : Holds env P files (put registers w.address ⟨(registers w.address).writes+1,some w.value⟩)
      (raise floor w.address ((registers w.address).writes+1))
      (StateStore.setVersion w.address (some (.num ((registers w.address).writes+1 : Nat))) s₄) := by
    apply h₄.setVersion hapa hp
    intro v hv
    cases hv
    refine ⟨_,rfl,?_⟩
    rw [put_self]
  have hmemo₅ : w.address.namespaceName ∈
      (StateStore.setVersion w.address (some (.num ((registers w.address).writes+1 : Nat))) s₄).hashedNamespaces := by
    rw [StateStore.setVersion,hhashed₄,hhashed₃]
    exact hmem
  refine ⟨_,?_,h₅⟩
  rw [StateStore.write,Effect.bind_apply_ok (hasInterruptedExitImport_apply h.journal),
    Effect.bind_apply_ok (Effect.require_apply Bool.false_ne_true _ s),
    Effect.bind_apply_ok (Effect.require_apply hcom.1 _ s),Effect.bind_apply_ok hhas,
    Effect.bind_apply_ok (Effect.get_apply s₁),Effect.bind_apply_ok (getAnchoredVersion_apply hloa)]
  rw [hanc _ hp,hver,Effect.bind_apply_ok hmin]
  rw [writtenEnvelope] at henv
  rw [henv,Effect.bind_apply_ok (Effect.ofExcept_apply _ s₁),
    Effect.bind_apply_ok (storageWrite_apply hacc hw.authorized _ s₁)]
  rw [Effect.bind_apply_ok hrem,Effect.bind_apply_ok hobs,
    Effect.bind_apply_ok (Effect.modify_apply _ s₄),Effect.bind_apply_ok (getNamespaceHashes_memo hmemo₅),
    Effect.pure_apply]

end Writing

section Reading

variable {env : StateEnv} {P : Address → Prop} {files : AList fun _ : Path => Option Json}
  {registers : Registers} {floor : Address → Nat} {s : Store} {w : WriteInput} {version stamp : Json}
  {fields : List (String × Option Json)}

theorem isLegacyEntry_stateEntry (env : StateEnv) (w : WriteInput) (version stamp envelope : Json) :
    isLegacyEntry (stateEntry env w version stamp envelope)=false := by
  rw [isLegacyEntry,field_stateEntry]
  simp [stateEntryFields,isNum]

theorem validateSignedEnvelope_written
    (henv : writtenEnvelope env w version stamp=.ok (objectOf fields)) :
    validateSignedEnvelope env w.address (stateEntry env w version stamp (objectOf fields)) =
      .ok (3,objectOf fields) := by
  rw [writtenEnvelope] at henv
  rw [validateSignedEnvelope]
  simp only [field_stateEntry,stateEntryFields,List.lookup_cons,String.reduceBEq,Option.join_some]
  rw [henv]
  simp [objectOf,isTruthy,bind,Except.bind,pure,Except.pure]

theorem ciphertextOf_written (hlaw : Lawful env) (envelope : Json) :
    ciphertextOf env (stateEntry env w version stamp envelope)=.ok (w.ciphertext env) := by
  have hpay : field (stateEntry env w version stamp envelope) "payload" = some (w.payload env) := by
    rw [field_stateEntry]
    simp [stateEntryFields,List.lookup_cons]
  have hct : member (some (w.payload env)) "ct" = .ok (some (.str (toBase64url (w.ciphertext env)))) := by
    rw [WriteInput.payload,member_objectOf,← WriteInput.payload,field_payload]
    simp [WriteInput.payloadFields,List.lookup_cons]
  rw [ciphertextOf,hpay,hct]
  exact congrArg Except.ok (hlaw.base64 _)

theorem verifyEnvelopeSignature_written (hlaw : Lawful env)
    (henv : writtenEnvelope env w version stamp=.ok (objectOf fields))
    (hlen : ∀ message, (w.signer.sign message).length=64) {publicKeys : List (List UInt8)}
    (hkes : ∃ key∈publicKeys, ∀ message, env.verify message (w.signer.sign message) key=true) :
    verifyEnvelopeSignature env w.address (stateEntry env w version stamp (objectOf fields)) publicKeys =
      .ok true := by
  obtain ⟨key,hkey,hver⟩ := hkes
  have hne : publicKeys≠[] := List.ne_nil_of_mem hkey
  have hsig : verifyStateEntrySignatures env publicKeys
      (some (stateEnvelopeSigningBytes 3 (objectOf fields),
        w.signer.sign (stateEnvelopeSigningBytes 3 (objectOf fields))))
      (w.ciphertext env) (w.signer.sign (w.ciphertext env))=true := by
    rw [verifyStateEntrySignatures,List.any_eq_true]
    refine ⟨key,hkey,?_⟩
    simp [hver]
  rw [verifyEnvelopeSignature,if_neg hne,validateSignedEnvelope_written henv,
    ciphertextOf_written hlaw]
  simp only [field_stateEntry,stateEntryFields,List.lookup_cons,String.reduceBEq,Option.join_some,hlaw.base64,
    bind,Except.bind,textOf,hsig]
  have htru : isTruthy (some (.str (toBase64url
      (w.signer.sign (stateEnvelopeSigningBytes 3 (objectOf fields))))))=true := by
    rw [isTruthy,bne_iff_ne,toBase64url,ne_eq,String.ofList_eq_empty_iff,← List.length_eq_zero_iff,
      Base64.length_encodeUrl,hlen]
    decide
  simp [htru,pure,Except.pure]

theorem decrypt_written (hlaw : Lawful env) (w : WriteInput) :
    decrypt env w.address.namespaceName (some (w.payload env))=.ok w.plaintext := by
  have hmem : ∀ key, member (some (w.payload env)) key =
      .ok ((w.payloadFields env).lookup key).join := by
    intro key
    rw [WriteInput.payload,member_objectOf,← WriteInput.payload,field_payload]
  rw [decrypt]
  simp only [hmem,WriteInput.payloadFields,List.lookup_cons,String.reduceBEq,Option.join_some,bind,
    Except.bind,textOf,hlaw.base64]
  rw [WriteInput.ciphertext,hlaw.opened]
  simp [isNum,isStr,pure,Except.pure]

theorem dir_identityAddress (kid : String) : (identityAddress kid).entryPath.dir = "_identities" := by
  have hpla : Plain "_identities" := plain_of_toList String.toList_ofList (by decide)
  exact hpla.encode

theorem Holds.resolveWriterPublicKeys (h : Holds env P files registers floor s) {kid : String}
    (hacc : (identityAddress kid).accepted=true) {record : Json} {resident : ResidentIdentity}
    (hrec : files.lookup (identityAddress kid).entryPath=some (some record))
    (hres : env.identityOf record=some resident) :
    StateStore.resolveWriterPublicKeys env (some (.str kid)) s=(.ok resident.writerKeys,s) := by
  obtain ⟨registry,hreg⟩ := h.registry
  have hfil : fileAt s.files (identityAddress kid)=some (some record) := by
    rw [fileAt,h.identities _ (dir_identityAddress kid),hrec]
  have hsto : resolveStoredIdentity env (some (.str kid)) s=(.ok (some resident),s) := by
    have hrea := StateStore.storageRead_apply hacc s
    rw [hfil] at hrea
    unfold resolveStoredIdentity
    simp only [hrea,hres]
  rw [StateStore.resolveWriterPublicKeys,Effect.bind_apply_ok hsto,
    Effect.bind_apply_ok (loadJsonRecord_apply hreg),Effect.pure_apply]
  rfl

theorem Holds.verifyEntrySignature (h : Holds env P files registers floor s) (hlaw : Lawful env)
    (hw : Honest env files w) (henv : writtenEnvelope env w version stamp=.ok (objectOf fields)) :
    StateStore.verifyEntrySignature env w.address (stateEntry env w version stamp (objectOf fields)) none s =
      (.ok true,s) := by
  obtain ⟨record,resident,hrec,hres,hkey⟩ := hw.resident
  have hkid : field (stateEntry env w version stamp (objectOf fields)) "kid" = some (.str w.identityId) := by
    rw [field_stateEntry]
    simp [stateEntryFields,List.lookup_cons]
  have hv : isNum 3 (field (stateEntry env w version stamp (objectOf fields)) "v")=true := by
    rw [field_stateEntry]
    simp [stateEntryFields,isNum]
  have hred := h.resolveWriterPublicKeys hw.identity hrec hres
  rw [← hkid] at hred
  have hver : verifyEntryWithKeys env w.address (stateEntry env w version stamp (objectOf fields))
      resident.writerKeys=.ok true := by
    rw [verifyEntryWithKeys,isLegacyEntry_stateEntry,hv,Bool.or_true,if_neg Bool.false_ne_true,if_pos rfl,
      verifyEnvelopeSignature_written hlaw henv hw.signature hkey]
  rw [StateStore.verifyEntrySignature,candidateKeys,Effect.bind_apply_ok hred,hver,
    Effect.ofExcept_apply]

theorem journalMaybePending_apply (h : ∀ path∈s.files, path.dir≠exitImportJournalNamespace) :
    journalMaybePending s=(.ok false,s) := by
  rw [journalMaybePending,hasInterruptedExitImport_apply h]

theorem Holds.checkRollback (h : Holds env P files registers floor s) {p : Address} (hp : P p)
    (envelope : Json) :
    StateStore.checkRollback env p
      (stateEntry env w (.num (registers p).writes) stamp envelope) s=(.ok (),s) := by
  have hver : field (stateEntry env w (.num (registers p).writes) stamp envelope) "ver" =
      some (.num (registers p).writes) := by
    rw [field_stateEntry]
    simp [stateEntryFields,List.lookup_cons]
  have hnot : ¬ ((s.versionCache (versionKey p)).isSome=true ∧
      less env (field (stateEntry env w (.num (registers p).writes) stamp envelope) "ver")
        (s.versionCache (versionKey p))=true) := by
    rintro ⟨hsom,hles⟩
    cases hcac : s.versionCache (versionKey p) with
    | none =>
      rw [hcac] at hsom
      cases hsom
    | some v =>
      obtain ⟨n,rfl,hn⟩ := h.cached p v hp hcac
      rw [hver,hcac,less_num,decide_eq_true_iff] at hles
      omega
  rw [StateStore.checkRollback,Effect.bind_apply_ok (Effect.get_apply s),
    Effect.bind_apply_ok (Effect.require_apply hnot _ s),assertLegacyEntryVersionCeiling,
    isLegacyEntry_stateEntry,if_neg Bool.false_ne_true,Effect.pure_apply]

theorem field_stateEntry_ver (env : StateEnv) (w : WriteInput) (version stamp envelope : Json) :
    field (stateEntry env w version stamp envelope) "ver" = some version := by
  rw [field_stateEntry]
  simp [stateEntryFields,List.lookup_cons]

theorem Holds.settleRead (h : Holds env P files registers floor s) (hapa : Apart P) (hlaw : Lawful env)
    {p : Address} (hp : P p) (hflo : floor p=(registers p).writes)
    (hsaf : (registers p).writes < 2 ^ 53) (w : WriteInput) (stamp envelope : Json) (value : String) :
    ∃ result s', StateStore.settleRead env p (stateEntry env w (.num (registers p).writes) stamp envelope)
        true true false value s=(.ok result,s') ∧
      result.value=value ∧ result.version=some (.num (registers p).writes) ∧
      Holds env P files registers floor s' := by
  have hver := field_stateEntry_ver env w (.num (registers p).writes) stamp envelope
  have hmig : migrateIfPermitted env p (stateEntry env w (.num (registers p).writes) stamp envelope) true s =
      (.ok (stateEntry env w (.num (registers p).writes) stamp envelope),s) := by
    rw [migrateIfPermitted,isLegacyEntry_stateEntry,Bool.and_false,if_neg Bool.false_ne_true,
      Effect.pure_apply]
  obtain ⟨s₁,hhas,h₁,-,-⟩ := h.getNamespaceHashes hapa hp
  obtain ⟨s₂,hobs,h₂,-⟩ := h₁.observeVersion hapa hlaw hp (Nat.le_of_eq hflo) hsaf
  have hsam : raise floor p (registers p).writes=floor := by
    rw [raise,← hflo,Function.update_eq_self]
  rw [hsam] at h₂
  have h₃ : Holds env P files registers floor
      (StateStore.setVersion p (some (.num (registers p).writes)) s₂) := by
    apply h₂.setVersion hapa hp
    intro v hv
    cases hv
    exact ⟨_,rfl,le_refl _⟩
  have hmet : member (field (stateEntry env w (.num (registers p).writes) stamp envelope) "metadata")
      "written_at" = .ok (field w.metadata "written_at") := by
    rw [field_stateEntry]
    simp only [stateEntryFields,List.lookup_cons,String.reduceBEq,Option.join_some]
    rfl
  refine ⟨⟨value,some (.num (registers p).writes),true,field w.metadata "written_at",
    field (stateEntry env w (.num (registers p).writes) stamp envelope) "kid",false⟩,_,?_,rfl,rfl,h₃⟩
  rw [StateStore.settleRead,Effect.bind_apply_ok hmig,Effect.bind_apply_ok hhas,hver,
    checkVersionFloor,if_pos rfl,Effect.bind_apply_ok hobs,
    Effect.bind_apply_ok (Effect.require_apply rfl _ s₂),Effect.bind_apply_ok (Effect.modify_apply _ s₂),
    hmet,Effect.bind_apply_ok (Effect.ofExcept_apply _ _),Effect.pure_apply]

theorem Holds.readEntry (h : Holds env P files registers floor s) (hapa : Apart P) (hlaw : Lawful env)
    {p : Address} (hp : P p) (hflo : floor p=(registers p).writes)
    (hsaf : (registers p).writes < 2 ^ 53) {value : String} {contents : Json}
    (hwri : Written env files p (registers p).writes value contents) :
    ∃ result s', StateStore.readEntry env p none contents s=(.ok result,s') ∧
      result.value=value ∧ result.version=some (.num (registers p).writes) ∧
      Holds env P files registers floor s' := by
  obtain ⟨w,stamp,envelope,hw,rfl,rfl,henv,rfl⟩ := hwri
  obtain ⟨fields,hfie⟩ := writtenEnvelope_ok hlaw w (.num (registers w.address).writes) stamp
  cases henv.symm.trans hfie
  have hacc := hapa.accepted _ hp
  rw [Address.accepted,Bool.and_eq_true] at hacc
  have hpay : field (stateEntry env w (.num (registers w.address).writes) stamp (objectOf fields))
      "payload" = some (w.payload env) := by
    rw [field_stateEntry]
    simp [stateEntryFields,List.lookup_cons]
  have hhas : isStr (env.hashToString w.plaintext)
      (field (stateEntry env w (.num (registers w.address).writes) stamp (objectOf fields))
        "integrity_hash")=true := by
    rw [field_stateEntry]
    simp [stateEntryFields,List.lookup_cons,isStr,WriteInput.integrityHash]
  obtain ⟨result,s',hset,hval,hver,h'⟩ :=
    h.settleRead hapa hlaw hp hflo hsaf w stamp (objectOf fields) w.value
  refine ⟨result,s',?_,hval,hver,h'⟩
  rw [StateStore.readEntry,Effect.bind_apply_ok (h.checkRollback hp _),
    Effect.bind_apply_ok (h.verifyEntrySignature hlaw hw hfie),
    Effect.bind_apply_ok (journalMaybePending_apply h.journal),
    Effect.bind_apply_ok (Effect.require_apply hacc.1 _ s),hpay,decrypt_written hlaw,
    Effect.bind_apply_ok (Effect.ofExcept_apply _ s),checkIntegrityHash,
    Effect.bind_apply_ok (Effect.require_apply hhas _ s),isLegacyEntry_stateEntry,WriteInput.plaintext,
    Ecma.textDecode_utf8Bytes hw.unmarked]
  exact hset

theorem Holds.read_present (h : Holds env P files registers floor s) (hapa : Apart P) (hlaw : Lawful env)
    {p : Address} (hp : P p) (hflo : floor p=(registers p).writes)
    (hsaf : (registers p).writes < 2 ^ 53) {value : String} (hval : (registers p).value=some value) :
    ∃ result s', StateStore.read env p none s=(.ok (some result),s') ∧
      result.value=value ∧ result.version=some (.num (registers p).writes) ∧
      Holds env P files registers floor s' := by
  obtain ⟨contents,hfil,hwri⟩ := h.present p value hp hval
  obtain ⟨result,s',hrea,hres⟩ := h.readEntry hapa hlaw hp hflo hsaf hwri
  refine ⟨result,s',?_,hres⟩
  obtain ⟨w,stamp,envelope,-,-,-,-,rfl⟩ := hwri
  rw [StateStore.read,Effect.bind_apply_ok (h.storageRead_apply hapa hp),hfil]
  exact Effect.bind_apply_ok hrea

theorem Holds.read_absent (h : Holds env P files registers floor s) (hapa : Apart P) {p : Address} (hp : P p)
    (hval : (registers p).value=none) : StateStore.read env p none s=(.ok none,s) := by
  rw [StateStore.read,Effect.bind_apply_ok (h.storageRead_apply hapa hp),h.absent p hp hval]
  rfl

end Reading

section Deleting

variable {env : StateEnv} {P : Address → Prop} {files : AList fun _ : Path => Option Json}
  {registers : Registers} {floor : Address → Nat} {s : Store} {p : Address}

theorem put_absent (h : (registers p).value=none) : put registers p ⟨(registers p).writes,none⟩=registers := by
  rw [put,← h,Function.update_eq_self]

theorem Holds.storageDelete (h : Holds env P files registers floor s) (hapa : Apart P) (hp : P p) :
    ∃ s', StateStore.storageDelete p s=(.ok (registers p).value.isSome,s') ∧
      Holds env P files (put registers p ⟨(registers p).writes,none⟩) floor s' := by
  rw [StateStore.storageDelete,Effect.bind_apply_ok (checkAddress_apply (hapa.accepted p hp) s),
    Effect.bind_apply_ok (Effect.get_apply s)]
  cases hval : (registers p).value with
  | some value =>
    obtain ⟨contents,hfil,-⟩ := h.present p value hp hval
    have hmem : p.entryPath∈s.files := by
      rw [← AList.lookup_isSome,hfil]
      rfl
    rw [if_pos hmem]
    exact ⟨_,rfl,h.eraseEntry hapa hp⟩
  | none =>
    have habs := h.absent p hp hval
    have hent : p.entryPath∉s.files := AList.lookup_eq_none.mp habs
    have hleg : p.legacyEntryPath∉s.files := by
      by_cases hsam : p.legacyEntryPath=p.entryPath
      · rw [hsam]
        exact hent
      · have hfil := h.fileAt_eq hapa hp
        rw [fileAt,habs,if_neg hsam] at hfil
        exact AList.lookup_eq_none.mp hfil
    rw [if_neg hent,if_neg hleg,put_absent hval]
    exact ⟨s,rfl,h⟩

theorem Holds.delete (h : Holds env P files registers floor s) (hapa : Apart P) (hp : P p) :
    ∃ s', StateStore.delete p s=(.ok (registers p).value.isSome,s') ∧
      Holds env P files (put registers p ⟨(registers p).writes,none⟩) floor s' := by
  obtain ⟨s₁,hhas,h₁,-,-⟩ := h.getNamespaceHashes hapa hp
  obtain ⟨s₂,hdel,h₂⟩ := h₁.storageDelete hapa hp
  have hfor : ∀ v, (none : Option Json)=some v →
      ∃ n : Nat, v=.num n ∧ n ≤ (put registers p ⟨(registers p).writes,none⟩ p).writes := nofun
  refine ⟨_,?_,h₂.setVersion hapa hp hfor⟩
  rw [StateStore.delete,Effect.bind_apply_ok (hasInterruptedExitImport_apply h.journal),
    Effect.bind_apply_ok (Effect.require_apply Bool.false_ne_true _ s),Effect.bind_apply_ok hhas,
    Effect.bind_apply_ok hdel,Effect.bind_apply_ok (Effect.modify_apply _ s₂),Effect.pure_apply]

theorem Holds.reopen (h : Holds env P files registers floor s) :
    Holds env P files registers floor (StateStore.reopen s) :=
  { h with cached := nofun }

end Deleting

inductive StateOp where
  | write (w : WriteInput)
  | read (p : Address)
  | delete (p : Address)
  /-- A new process. -/
  | reopen

def StateOp.address : StateOp → Option Address
  | .write w => some w.address
  | .read p => some p
  | .delete p => some p
  | .reopen => none

inductive StateOutcome where
  | wrote (version : Json)
  | read (found : Option (String × Option Json))
  | deleted (existed : Bool)
  | reopened
  | failed (err : StateError)

def perform (env : StateEnv) (op : StateOp) (s : Store) : StateOutcome × Store :=
  match op with
  | .write w =>
    match StateStore.write env w s with
    | (.ok result,s') => (.wrote result.version,s')
    | (.error err,s') => (.failed err,s')
  | .read p =>
    match StateStore.read env p none s with
    | (.ok result,s') => (.read (result.map fun r => (r.value,r.version)),s')
    | (.error err,s') => (.failed err,s')
  | .delete p =>
    match StateStore.delete p s with
    | (.ok existed,s') => (.deleted existed,s')
    | (.error err,s') => (.failed err,s')
  | .reopen => (.reopened,StateStore.reopen s)

def performAll (env : StateEnv) : List StateOp → Store → List StateOutcome
  | [], _ => []
  | op::ops, s => (perform env op s).1::performAll env ops (perform env op s).2

def Registers.perform (op : StateOp) (registers : Registers) : StateOutcome × Registers :=
  match op with
  | .write w => (.wrote (.num ((registers w.address).writes+1 : Nat)),
      put registers w.address ⟨(registers w.address).writes+1,some w.value⟩)
  | .read p => (.read ((registers p).value.map fun v => (v,some (.num (registers p).writes))),registers)
  | .delete p => (.deleted (registers p).value.isSome,put registers p ⟨(registers p).writes,none⟩)
  | .reopen => (.reopened,registers)

def Registers.performAll : List StateOp → Registers → List StateOutcome
  | [], _ => []
  | op::ops, registers =>
    (registers.perform op).1::Registers.performAll ops (registers.perform op).2

section Runs

variable {env : StateEnv} {P : Address → Prop} {files : AList fun _ : Path => Option Json}
  {registers : Registers} {s : Store}

def floors (registers : Registers) : Address → Nat := fun p => (registers p).writes

theorem floors_put (p : Address) (register : Register) :
    floors (put registers p register)=raise (floors registers) p register.writes := by
  funext q
  by_cases hqp : q=p
  · subst hqp
    rw [floors,put_self,raise,Function.update_self]
  · rw [floors,put_of_ne hqp,raise,Function.update_of_ne hqp,floors]

theorem Holds.perform (h : Holds env P files registers (floors registers) s) (hapa : Apart P)
    (hlaw : Lawful env) {op : StateOp} (hp : ∀ p, op.address=some p → P p)
    (hhon : ∀ w, op=.write w → Honest env files w) (hsaf : ∀ p, (registers p).writes+1 < 2 ^ 53) :
    (StateStore.perform env op s).1=(registers.perform op).1 ∧
      Holds env P files (registers.perform op).2 (floors (registers.perform op).2)
        (StateStore.perform env op s).2 := by
  cases op with
  | write w =>
    obtain ⟨s',hwri,h'⟩ := h.write hapa hlaw (hhon w rfl) (hp _ rfl) rfl (hsaf _)
    delta StateStore.perform
    dsimp only
    rw [hwri,Registers.perform,floors_put]
    exact ⟨rfl,h'⟩
  | read p =>
    delta StateStore.perform
    dsimp only [Registers.perform]
    cases hval : (registers p).value with
    | none =>
      rw [h.read_absent hapa (hp p rfl) hval]
      exact ⟨rfl,h⟩
    | some value =>
      obtain ⟨result,s',hrea,hres,hver,h'⟩ :=
        h.read_present hapa hlaw (hp p rfl) rfl (Nat.lt_of_succ_lt (hsaf p)) hval
      rw [hrea]
      refine ⟨?_,h'⟩
      simp only [Option.map_some,hres,hver]
  | delete p =>
    obtain ⟨s',hdel,h'⟩ := h.delete hapa (hp p rfl)
    delta StateStore.perform
    dsimp only
    rw [hdel,Registers.perform,floors_put,raise]
    refine ⟨rfl,?_⟩
    rw [show (registers p).writes=floors registers p from rfl] at h' ⊢
    rwa [Function.update_eq_self]
  | reopen => exact ⟨rfl,h.reopen⟩

theorem writes_perform_le (op : StateOp) (registers : Registers) (p : Address) :
    ((registers.perform op).2 p).writes ≤ (registers p).writes+1 := by
  cases op with
  | write w =>
    by_cases hp : p=w.address
    · subst hp
      simp only [Registers.perform,put_self,le_refl]
    · simp only [Registers.perform,put_of_ne hp]
      exact Nat.le_succ _
  | read q => exact Nat.le_succ _
  | delete q =>
    by_cases hp : p=q
    · subst hp
      simp only [Registers.perform,put_self]
      exact Nat.le_succ _
    · simp only [Registers.perform,put_of_ne hp]
      exact Nat.le_succ _
  | reopen => exact Nat.le_succ _

theorem Holds.performAll (hapa : Apart P) (hlaw : Lawful env) {ops : List StateOp}
    (hp : ∀ op∈ops, ∀ p, op.address=some p → P p)
    (hhon : ∀ op∈ops, ∀ w, op=.write w → Honest env files w) :
    ∀ {registers : Registers} {s : Store}, Holds env P files registers (floors registers) s →
      (∀ p, (registers p).writes+ops.length < 2 ^ 53) →
      StateStore.performAll env ops s=Registers.performAll ops registers := by
  induction ops with
  | nil =>
    intro registers s _ _
    rfl
  | cons op ops ih =>
    intro registers s h hsaf
    have hnex : ∀ p, (registers p).writes+1 < 2 ^ 53 := by
      intro p
      have hlen := hsaf p
      rw [List.length_cons] at hlen
      omega
    obtain ⟨hout,h'⟩ := h.perform hapa hlaw (hp op List.mem_cons_self)
      (hhon op List.mem_cons_self) hnex
    have hres := ih (fun op' hop => hp op' (List.mem_cons_of_mem op hop))
      (fun op' hop => hhon op' (List.mem_cons_of_mem op hop)) h' (by
        intro p
        have hlen := hsaf p
        have hle := writes_perform_le op registers p
        rw [List.length_cons] at hlen
        omega)
    rw [StateStore.performAll,Registers.performAll,hout,hres]

end Runs

section Frame

def StateOp.concerns (p : Address) (op : StateOp) : Bool := op.address.all fun q => q=p

def outcomesAt (p : Address) : List StateOp → List StateOutcome → List StateOutcome
  | op::ops, outcome::outcomes =>
    if op.concerns p then outcome::outcomesAt p ops outcomes else outcomesAt p ops outcomes
  | _, _ => []

theorem perform_at {p : Address} {op : StateOp} (h : op.concerns p=true) {a b : Registers}
    (hab : a p=b p) :
    (a.perform op).1=(b.perform op).1 ∧ (a.perform op).2 p=(b.perform op).2 p := by
  cases op with
  | write w =>
    have hw : w.address=p := by simpa [StateOp.concerns,StateOp.address] using h
    simp only [Registers.perform,hw,put_self,hab,and_self]
  | read q =>
    have hq : q=p := by simpa [StateOp.concerns,StateOp.address] using h
    simp only [Registers.perform,hq,hab,and_self]
  | delete q =>
    have hq : q=p := by simpa [StateOp.concerns,StateOp.address] using h
    simp only [Registers.perform,hq,put_self,hab,and_self]
  | reopen => exact ⟨rfl,hab⟩

theorem perform_elsewhere {p : Address} {op : StateOp} (h : op.concerns p=false) (registers : Registers) :
    (registers.perform op).2 p=registers p := by
  cases op with
  | write w =>
    have hw : w.address≠p := by simpa [StateOp.concerns,StateOp.address] using h
    exact put_of_ne hw.symm _ _
  | read q => rfl
  | delete q =>
    have hq : q≠p := by simpa [StateOp.concerns,StateOp.address] using h
    exact put_of_ne hq.symm _ _
  | reopen => rfl

/-- A register answers as if the operations on other addresses had not been. -/
theorem registers_outcomesAt (p : Address) (ops : List StateOp) :
    ∀ {a b : Registers}, a p=b p →
      outcomesAt p ops (Registers.performAll ops a) =
        Registers.performAll (ops.filter (StateOp.concerns p)) b := by
  induction ops with
  | nil =>
    intro a b _
    rfl
  | cons op ops ih =>
    intro a b hab
    rw [Registers.performAll,outcomesAt]
    cases hop : op.concerns p with
    | true =>
      obtain ⟨hout,hnex⟩ := perform_at hop hab
      rw [if_pos rfl,List.filter_cons_of_pos hop,Registers.performAll,hout,ih hnex]
    | false =>
      have hno : ¬ op.concerns p=true := by
        rw [hop]
        exact Bool.false_ne_true
      rw [if_neg Bool.false_ne_true,List.filter_cons_of_neg hno]
      exact ih ((perform_elsewhere hop a).trans hab)

end Frame

/-- A store that holds nothing but identities. -/
structure Fresh (s : Store) : Prop where
  files : ∀ path∈s.files, path.dir = "_identities"
  cache : s.versionCache=fun _ => none

theorem holds_fresh {env : StateEnv} (P : Address → Prop) {s : Store} (h : Fresh s) (hapa : Apart P) :
    Holds env P s.files (fun _ => ⟨0,none⟩) (floors fun _ => ⟨0,none⟩) s := by
  have hmet : ∀ path : Path, path.dir = "_meta" → s.files.lookup path=none := by
    intro path hdir
    apply AList.lookup_eq_none.mpr
    intro hmem
    have hoth := h.files path hmem
    rw [hdir] at hoth
    exact absurd hoth (by decide)
  refine ⟨fun _ _ => rfl,?_,?_,?_,nofun,?_,?_,?_⟩
  · intro path hmem
    rw [h.files path hmem]
    decide
  · refine ⟨[],?_,fun _ _ => rfl⟩
    rw [hmet _ dir_versionAnchors]
    rfl
  · refine ⟨[],?_⟩
    rw [hmet _ dir_publicKeys]
    rfl
  · intro p hp _
    apply AList.lookup_eq_none.mpr
    intro hmem
    exact (hapa.own p hp).1 (mem_ownDirectories_identities (h.files _ hmem))
  · intro path hmem
    exact .inl (mem_ownDirectories_identities (h.files path hmem))
  · intro p version _ hcac
    rw [h.cache] at hcac
    cases hcac

/-- In a run over addresses that are apart, every write of an address gets the number of its writes, every
read returns what was last written there, and the operations on other addresses make no difference. -/
theorem state_key_isolation {env : StateEnv} (hlaw : Lawful env) {s : Store} (hfresh : Fresh s)
    {ops : List StateOp} (hhonest : ∀ w, StateOp.write w∈ops → Honest env s.files w)
    (hlength : ops.length < 2 ^ 53) (hapart : Apart fun p => ∃ op∈ops, op.address=some p) :
    performAll env ops s=Registers.performAll ops (fun _ => ⟨0,none⟩) ∧
      ∀ p, outcomesAt p ops (performAll env ops s)=performAll env (ops.filter (StateOp.concerns p)) s := by
  have hrun : ∀ some : List StateOp, some.Sublist ops →
      performAll env some s=Registers.performAll some (fun _ => ⟨0,none⟩) := by
    intro some hsub
    apply Holds.performAll hapart hlaw
    · intro op hop p hp
      exact ⟨op,hsub.subset hop,hp⟩
    · rintro op hop w rfl
      exact hhonest w (hsub.subset hop)
    · exact holds_fresh _ hfresh hapart
    · intro p
      have hle := hsub.length_le
      dsimp only
      omega
  refine ⟨hrun ops (List.Sublist.refl ops),?_⟩
  intro p
  rw [hrun ops (List.Sublist.refl ops),hrun _ List.filter_sublist,registers_outcomesAt p ops rfl]

def plainEnv : StateEnv where
  bufferFrom := nodeBase64
  hashToString := toBase64url
  gcmSeal := fun _ _ plaintext => plaintext++List.replicate 16 0
  gcmOpen := fun _ _ ciphertext => some (ciphertext.take (ciphertext.length - 16))
  verify := fun _ signature _ => signature.length == 64
  metaMac := fun _ => []
  identityOf := fun _ => some ⟨[[]],[],fun _ => List.replicate 64 0⟩
  mintStamp := fun _ _ _ _ _ => some (.obj [])
  rawWriteAuthorized := fun _ => true
  describeUntrusted := fun _ => "untrusted value"
  lessCoerced := fun _ _ => false
  bumpCoerced := fun v _ => v

theorem lawful_plainEnv : Lawful plainEnv where
  base64 := by
    intro bytes
    rw [fromBase64url,restoreBase64,toBase64url,String.toList_ofList]
    exact nodeBase64_encodeUrl bytes _
  opened := by
    intro namespaceName iv plaintext
    simp [plainEnv]
  tagged := by
    intro namespaceName iv plaintext
    simp [plainEnv]
  ownWrites := ⟨rfl,rfl⟩

def plainWrite (p : Address) (value : String) : WriteInput where
  address := p
  value := value
  identityId := "id"
  signer := ⟨[],fun _ => List.replicate 64 0⟩
  contentType := none
  ttlSeconds := none
  tags := none
  provenance := .null
  iv := []
  encryptedAt := "t"
  now := "t"

def plainStore : Store where
  files := AList.insert (identityAddress "id").entryPath (some .null) ∅
  versionCache := fun _ => none
  hashedNamespaces := []

theorem fresh_plainStore : Fresh plainStore where
  files := by
    intro path hpat
    rcases (AList.mem_insert _).mp hpat with rfl | hpat
    · exact dir_identityAddress "id"
    · exact absurd hpat (AList.notMem_empty path)
  cache := rfl

theorem honest_plainWrite (p : Address) {value : String} (h : value.toList.head? ≠ some Ecma.byteOrderMark) :
    Honest plainEnv plainStore.files (plainWrite p value) where
  identity := by
    have hacc : (identityAddress "id").accepted=true :=
      Address.accepted_of_plain (plain_of_toList String.toList_ofList (by decide)) (by decide)
        (plain_of_toList String.toList_ofList (by decide))
    exact hacc
  resident := by
    refine ⟨.null,_,?_,rfl,[],List.mem_singleton.mpr rfl,?_⟩
    · exact AList.lookup_insert _
    · intro message
      rfl
  signature := fun message => List.length_replicate
  stamped := fun version => ⟨_,rfl⟩
  authorized := rfl
  unmarked := h

theorem state_key_isolation_single :
    performAll plainEnv [.write (plainWrite ⟨"a","k"⟩ "v"),.read ⟨"a","k"⟩] plainStore =
      [.wrote (.num 1),.read (some ("v",some (.num 1)))] := by
  have hwri : ∀ w, StateOp.write w∈[.write (plainWrite ⟨"a","k"⟩ "v"),.read ⟨"a","k"⟩] →
      Honest plainEnv plainStore.files w := by
    intro w hw
    have hw' : w=plainWrite ⟨"a","k"⟩ "v" := by simpa using hw
    rw [hw']
    exact honest_plainWrite _ (by decide)
  have hone : ∀ p, (∃ op∈[StateOp.write (plainWrite ⟨"a","k"⟩ "v"),.read ⟨"a","k"⟩],
      op.address=some p) → p=⟨"a","k"⟩ := by
    rintro p ⟨op,hop,hp⟩
    rcases List.mem_pair.mp hop with rfl | rfl <;> exact (Option.some.inj hp).symm
  have hapa : Apart fun p => ∃ op∈[StateOp.write (plainWrite ⟨"a","k"⟩ "v"),.read ⟨"a","k"⟩],
      op.address=some p := by
    refine ⟨?_,?_,?_,?_⟩
    · intro p hp
      rw [hone p hp]
      decide +kernel
    · intro p q hp hq _
      rw [hone p hp,hone q hq]
    · intro p q hp hq _
      rw [hone p hp,hone q hq]
    · intro p hp
      rw [hone p hp]
      decide +kernel
  rw [(state_key_isolation lawful_plainEnv fresh_plainStore hwri (by decide) hapa).1]
  rfl

/-- `a/b` with `c` and `a` with `b/c` share a version: the second address starts at two, and the first
can no longer be read. -/
theorem joined_addresses_meet :
    ∃ err, performAll plainEnv [.write (plainWrite ⟨"a/b","c"⟩ "x"),.write (plainWrite ⟨"a","b/c"⟩ "y"),
        .read ⟨"a/b","c"⟩] plainStore =
      [.wrote (.num 1),.wrote (.num 2),.failed err] :=
  ⟨_,rfl⟩

end CastleWall.Cognitive.StateStore
