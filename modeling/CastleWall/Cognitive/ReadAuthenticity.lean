import CastleWall.Cognitive.KeyIsolation

/-! # Authenticity of reads

Honest writes, then any change to the files by somebody without a key. An entry of the third schema is bound
to its address by the signature of its envelope; an entry of the first is bound to its namespace only, by
the key that seals it, since the signature it carries covers the ciphertext alone. -/

namespace CastleWall.Cognitive.StateStore

open Text

structure StoredEntry where
  input : WriteInput
  (version stamp envelope : Json)

section Runs

variable (env : StateEnv)

def storeEntry (w : WriteInput) : StateM StoredEntry := do
  let pending ← hasInterruptedExitImport
  Effect.require (¬ pending=true)
    (.interruptedExitImportPending s!"state_write:{versionKey w.address}")
  Effect.require (isStorageNamespacePathComponent w.address.namespaceName=true)
    (.invalidStorageNamespace w.address.namespaceName)
  getNamespaceHashes w.address.namespaceName
  let s ← Effect.get
  let anchored ← getAnchoredVersion env w.address
  let version := nextVersion env (s.versionCache (versionKey w.address)) anchored
  let stamp ← mintStamp env w version
  let envelope ← Effect.ofExcept (writtenEnvelope env w version stamp)
  storageWrite w.address env.rawWriteAuthorized (stateEntry env w version stamp envelope)
  return ⟨w,version,stamp,envelope⟩

def runWrites : List WriteInput → Store → List StoredEntry × Store
  | [], s => ([],s)
  | w::ws, s =>
    match (storeEntry env w s).1 with
    | .ok e => (e::(runWrites ws (write env w s).2).1,(runWrites ws (write env w s).2).2)
    | .error _ => runWrites ws (write env w s).2

end Runs

section Steps

variable {env : StateEnv} {s s' : Store} {p : Address}

theorem ofExcept_eq_ok {α : Type} {x : Except StateError α} {a : α}
    (h : (Effect.ofExcept x : StateM α) s=(.ok a,s')) : x=.ok a ∧ s'=s := by
  rw [Effect.ofExcept_apply] at h
  exact ⟨(Prod.mk.inj h).1,(Prod.mk.inj h).2.symm⟩

variable {u : Unit}

theorem checkAddress_eq_ok (h : checkAddress p s=(.ok u,s')) : p.accepted=true ∧ s'=s := by
  obtain ⟨u₁,s₁,hfir,hsec⟩ := Effect.bind_eq_ok h
  obtain ⟨hcom,rfl⟩ := Effect.require_eq_ok hfir
  obtain ⟨hnam,rfl⟩ := Effect.require_eq_ok hsec
  rw [Address.accepted,Bool.and_eq_true]
  exact ⟨⟨hcom,hnam⟩,rfl⟩

theorem fileAt_eq_some {files : AList fun _ : Path => Option Json} {contents : Option Json}
    (h : fileAt files p=some contents) : ∃ path, files.lookup path=some contents := by
  unfold fileAt at h
  split at h
  · cases h
    exact ⟨_,by assumption⟩
  · split_ifs at h
    exact ⟨_,h⟩

theorem storageRead_eq_ok {raw : Option (Option Json)} (h : storageRead p s=(.ok raw,s')) :
    raw=fileAt s.files p ∧ s'=s := by
  obtain ⟨u₁,s₁,hadd,hrea⟩ := Effect.bind_eq_ok h
  obtain ⟨hacc,rfl⟩ := checkAddress_eq_ok hadd
  rw [storageRead_apply hacc] at h
  cases h
  exact ⟨rfl,rfl⟩

theorem storageRead_state (p : Address) (s : Store) : (storageRead p s).2=s := by
  have hkep : Effect.Preserves (fun s' => s'=s) (storageRead p) :=
    ((Effect.Preserves.require _ _).bind fun _ => .require _ _).bind fun _ => .bind .get fun _ => .pure _
  exact hkep s rfl

theorem loadVersionAnchors_eq_ok {anchors : List (String × Json)}
    (h : loadVersionAnchors env s=(.ok anchors,s')) :
    anchorsOf env (s.files.lookup versionAnchorsAddress.entryPath)=.ok anchors ∧ s'=s := by
  obtain ⟨raw,s₁,hrea,hloa⟩ := Effect.bind_eq_ok h
  obtain ⟨rfl,rfl⟩ := storageRead_eq_ok hrea
  rw [fileAt_of_legacy_eq legacy_versionAnchorsAddress] at hloa
  exact ofExcept_eq_ok hloa

theorem loadJsonRecord_eq_ok {registry : List (String × Json)}
    (h : loadJsonRecord p s=(.ok registry,s')) : s'=s := by
  obtain ⟨raw,s₁,hrea,hloa⟩ := Effect.bind_eq_ok h
  obtain ⟨rfl,rfl⟩ := storageRead_eq_ok hrea
  exact (ofExcept_eq_ok hloa).2

theorem assertLegacyEntryVersionCeiling_eq_ok {entry : Json}
    (h : assertLegacyEntryVersionCeiling env p entry s=(.ok u,s')) :
    s'=s ∧ (isLegacyEntry entry=true →
      ∃ anchors, anchorsOf env (s.files.lookup versionAnchorsAddress.entryPath)=.ok anchors ∧
        ¬ (0 < anchoredVersion anchors p ∧
          less env (some (.num (anchoredVersion anchors p))) (field entry "ver")=true)) := by
  unfold assertLegacyEntryVersionCeiling at h
  split_ifs at h with hleg
  · obtain ⟨anchored,s₁,hanc,hreq⟩ := Effect.bind_eq_ok h
    obtain ⟨anchors,s₂,hloa,hpur⟩ := Effect.bind_eq_ok hanc
    obtain ⟨hans,rfl⟩ := loadVersionAnchors_eq_ok hloa
    cases hpur
    obtain ⟨hcei,rfl⟩ := Effect.require_eq_ok hreq
    exact ⟨rfl,fun _ => ⟨anchors,hans,hcei⟩⟩
  · cases h
    exact ⟨rfl,fun hyes => absurd hyes hleg⟩

theorem checkRollback_eq_ok {entry : Json} (h : checkRollback env p entry s=(.ok u,s')) :
    assertLegacyEntryVersionCeiling env p entry s=(.ok u,s') := by
  obtain ⟨s₁,s₂,hget,hres⟩ := Effect.bind_eq_ok h
  cases hget
  obtain ⟨u₁,s₃,hcac,hcei⟩ := Effect.bind_eq_ok hres
  obtain ⟨-,rfl⟩ := Effect.require_eq_ok hcac
  exact hcei

theorem resolveStoredIdentity_eq_ok {kid : Option Json} {found : Option ResidentIdentity}
    (h : resolveStoredIdentity env kid s=(.ok found,s')) :
    s'=s ∧ ∀ resident, found=some resident →
      ∃ path record, s.files.lookup path=some (some record) ∧ env.identityOf record=some resident := by
  unfold resolveStoredIdentity at h
  split at h
  · rename_i kid
    split at h
    · rename_i record s₁ hrea
      obtain ⟨hfil,rfl⟩ := storageRead_eq_ok hrea
      cases h
      refine ⟨rfl,fun resident hres => ?_⟩
      obtain ⟨path,hpat⟩ := fileAt_eq_some hfil.symm
      exact ⟨path,record,hpat,hres⟩
    · rename_i r s₁ _ hrea
      have hsta := storageRead_state (identityAddress kid) s
      rw [hrea] at hsta
      cases h
      exact ⟨hsta,nofun⟩
  · cases h
    exact ⟨rfl,nofun⟩

theorem resolveStoredIdentity_state (kid : Option Json) (s : Store) :
    (resolveStoredIdentity env kid s).2=s := by
  unfold resolveStoredIdentity
  split
  · rename_i kid
    have hsta := storageRead_state (identityAddress kid) s
    split
    · rename_i hrea
      rwa [hrea] at hsta
    · rename_i hrea
      rwa [hrea] at hsta
  · rfl

theorem candidateKeys_eq_ok {entry : Json} {signerPublicKey : Option (List UInt8)}
    {publicKeys : List (List UInt8)} (h : candidateKeys env entry signerPublicKey s=(.ok publicKeys,s')) :
    s'=s ∧ ∀ key∈publicKeys, signerPublicKey=some key ∨
      ∃ path record resident, s.files.lookup path=some (some record) ∧
        env.identityOf record=some resident ∧ key∈resident.writerKeys := by
  unfold candidateKeys at h
  split at h
  · cases h
    refine ⟨rfl,fun key hkey => .inl ?_⟩
    rw [List.mem_singleton.mp hkey]
  · generalize field entry "kid" = kid at h
    unfold resolveWriterPublicKeys at h
    split at h
    · obtain ⟨found,s₁,hfou,hret⟩ := Effect.bind_eq_ok h
      obtain ⟨rfl,hres⟩ := resolveStoredIdentity_eq_ok hfou
      obtain ⟨registry,s₂,hloa,hpur⟩ := Effect.bind_eq_ok hret
      obtain rfl := loadJsonRecord_eq_ok hloa
      cases hpur
      refine ⟨rfl,fun key hkey => .inr ?_⟩
      cases found with
      | none => cases hkey
      | some resident =>
        obtain ⟨path,record,hfil,hide⟩ := hres resident rfl
        exact ⟨path,record,resident,hfil,hide,hkey⟩
    · cases h
      exact ⟨rfl,nofun⟩

theorem storageList_state (namespaceName : String) (s : Store) : (storageList namespaceName s).2=s := by
  have hkep : Effect.Preserves (fun s' => s'=s) (storageList namespaceName) :=
    (Effect.Preserves.require _ _).bind fun _ => .bind .get fun _ => .ofExcept _
  exact hkep s rfl

theorem journalMaybePending_state (s : Store) : (journalMaybePending s).2=s := by
  have hsta : (hasInterruptedExitImport s).2=s := by
    have hkep : Effect.Preserves (fun s' => s'=s) hasInterruptedExitImport := by
      apply Effect.Preserves.bind
      · rintro s' rfl
        exact storageList_state _ s'
      · exact fun _ => .pure _
    exact hkep s rfl
  unfold journalMaybePending
  split
  · rename_i hrun
    rwa [hrun] at hsta
  · rename_i hrun
    rwa [hrun] at hsta

theorem getNamespaceHashes_files (namespaceName : String) (s : Store) :
    (getNamespaceHashes namespaceName s).2.files=s.files := by
  have hrea : ∀ p, Effect.Preserves (fun s' => s'.files=s.files) (storageRead p) := by
    intro p s' hs'
    rwa [storageRead_state]
  have hsee : ∀ key, Effect.Preserves (fun s' => s'.files=s.files) (seedVersion namespaceName key) := by
    intro key
    refine .bind (hrea _) fun raw => ?_
    split
    · exact .pure _
    · exact .modify fun _ hs' => hs'
    · exact .pure _
  have hkep : Effect.Preserves (fun s' => s'.files=s.files) (getNamespaceHashes namespaceName) := by
    refine .bind .get fun s₀ => ?_
    split_ifs
    · exact .pure _
    · apply Effect.Preserves.bind
      · intro s' hs'
        rwa [storageList_state]
      · intro keys
        exact (Effect.Preserves.forEach hsee keys).bind fun _ => .modify fun _ hs' => hs'
  exact hkep s rfl

theorem checkVersionFloor_eq_ok {version : Option Json} {permitted : Bool}
    (h : checkVersionFloor env p version permitted s=(.ok u,s')) :
    ∃ anchors, anchorsOf env (s.files.lookup versionAnchorsAddress.entryPath)=.ok anchors ∧
      less env version (some (.num (anchoredVersion anchors p)))=false := by
  have hass : ∃ found s₁, assertNotBelowVersionFloor env p version s=(.ok found,s₁) := by
    unfold checkVersionFloor at h
    split_ifs at h
    · obtain ⟨found,s₁,hass,-⟩ := Effect.bind_eq_ok h
      exact ⟨found,s₁,hass⟩
    · obtain ⟨found,s₁,hass,-⟩ := Effect.bind_eq_ok h
      exact ⟨found,s₁,hass⟩
  obtain ⟨found,s₁,hass⟩ := hass
  obtain ⟨anchors,s₂,hloa,hres⟩ := Effect.bind_eq_ok hass
  obtain ⟨hanc,rfl⟩ := loadVersionAnchors_eq_ok hloa
  obtain ⟨u₃,s₃,hreq,-⟩ := Effect.bind_eq_ok hres
  exact ⟨anchors,hanc,Bool.eq_false_iff.mpr (Effect.require_eq_ok hreq).1⟩

/-! A migration keeps the version of the entry and the floors. -/

theorem storageWrite_elsewhere {path : Path} (h : p.entryPath≠path) (authorized : Address → Bool)
    (contents : Json) (found : Option (Option Json)) :
    Effect.Preserves (fun s' => s'.files.lookup path=found) (storageWrite p authorized contents) := by
  apply Effect.Preserves.bind
  · exact (Effect.Preserves.require _ _).bind fun _ => .require _ _
  · intro _
    refine .bind (.require _ _) fun _ => .modify ?_
    intro s' hs'
    rwa [AList.lookup_insert_ne h.symm]

theorem migrateIfPermitted_anchors (hp : p.entryPath≠versionAnchorsAddress.entryPath) (entry : Json)
    (permitted : Bool) (found : Option (Option Json)) :
    Effect.Preserves (fun s' => s'.files.lookup versionAnchorsAddress.entryPath=found)
      (migrateIfPermitted env p entry permitted) := by
  unfold migrateIfPermitted
  split_ifs
  · apply Effect.Preserves.bind
    · intro s' hs'
      rwa [resolveStoredIdentity_state]
    · intro identity
      split
      · exact .pure _
      · refine .bind (.ofExcept _) fun envelope => ?_
        refine .bind (storageWrite_elsewhere hp _ _ _) fun _ => ?_
        apply Effect.Preserves.bind
        · unfold rememberMigratedWriter
          split
          · apply Effect.Preserves.bind
            · intro s' hs'
              have hloa : (loadJsonRecord publicKeysAddress s').2=s' := by
                have hkep : Effect.Preserves (fun s'' => s''=s') (loadJsonRecord publicKeysAddress) := by
                  apply Effect.Preserves.bind
                  · rintro s'' rfl
                    exact storageRead_state _ s''
                  · exact fun _ => .ofExcept _
                exact hkep s' rfl
              rwa [hloa]
            · intro registry
              split_ifs
              · exact .pure _
              · exact storageWrite_elsewhere publicKeys_ne_versionAnchors _ _ _
          · exact .pure _
        · exact fun _ => .pure _
  · exact .pure _

theorem migrateIfPermitted_eq_ok {entry migrated : Json} {permitted : Bool}
    (h : migrateIfPermitted env p entry permitted s=(.ok migrated,s')) :
    field migrated "ver" = field entry "ver" := by
  unfold migrateIfPermitted at h
  split_ifs at h
  · obtain ⟨identity,s₁,-,hres⟩ := Effect.bind_eq_ok h
    split at hres
    · cases hres
      rfl
    · obtain ⟨envelope,s₂,-,hwri⟩ := Effect.bind_eq_ok hres
      obtain ⟨u₃,s₃,-,hrem⟩ := Effect.bind_eq_ok hwri
      obtain ⟨u₄,s₄,-,hpur⟩ := Effect.bind_eq_ok hrem
      cases hpur
      rw [field,Json.lookup_insertField_ne (by decide),Json.lookup_insertField_ne (by decide),
        Json.lookup_insertField_ne (by decide),Json.lookup_insertField_ne (by decide)]
      cases entry <;> rfl
  · cases h
    rfl

end Steps

section Envelopes

variable {env : StateEnv} {p : Address}

theorem mem_of_mem_defined {fields : List (String × Option Json)} {f : String × Json}
    (h : f∈defined fields) : (f.1,some f.2)∈fields := by
  induction fields using defined.induct with
  | case1 => cases h
  | case2 name value fields ih =>
    rw [defined,List.mem_cons] at h
    rcases h with rfl | h
    · exact List.mem_cons_self
    · exact List.mem_cons_of_mem _ (ih h)
  | case3 name fields ih => exact List.mem_cons_of_mem _ (ih h)

def OrderedMembers (values : List (Option Json)) : Prop := ∀ value∈values, ∀ v, value=some v → v.Ordered

theorem ordered_objectOf {fields : List (String × Option Json)}
    (h : OrderedMembers (fields.map Prod.snd)) : (objectOf fields).Ordered := by
  refine .obj (Json.keysSorted_ofFields _) fun f hf => ?_
  have hmem := mem_of_mem_defined (Json.mem_ofFields hf)
  exact h _ (List.mem_map_of_mem hmem) f.2 rfl

theorem ordered_field {v w : Json} {key : String} (h : v.Ordered) (hfie : field v key=some w) :
    w.Ordered := by
  cases h with
  | obj hsor hfis =>
    obtain ⟨before,after,rfl,-⟩ := List.lookup_eq_some_iff.mp hfie
    exact hfis (key,w) (List.mem_append_right before List.mem_cons_self)
  | _ => cases hfie

theorem ordered_member {v : Option Json} {w : Json} {key : String} (h : ∀ u, v=some u → u.Ordered)
    (hmem : member v key=.ok (some w)) : w.Ordered := by
  unfold member at hmem
  split at hmem
  · cases hmem
  · cases hmem
  · exact ordered_field (h _ rfl) (Except.ok.inj hmem)

structure Describes (p : Address) (version payload : Option Json) (envelope : Json) : Prop where
  namespaceName : field envelope "namespace" = some (.str p.namespaceName)
  key : field envelope "key" = some (.str p.key)
  version : field envelope "version" = version
  payload : ∃ inner, field envelope "payload" = some inner ∧ member payload "iv" = .ok (field inner "nonce") ∧
    member payload "ct" = .ok (field inner "ciphertext")

variable {payload : Option Json} {schemaVersion : Int} {envelope : Json}

theorem buildSignedEnvelope_describes {version kid metadata stamp integrityHash : Option Json}
    (h : buildSignedEnvelope env p version kid schemaVersion metadata stamp integrityHash payload =
      .ok envelope) :
    Describes p version payload envelope := by
  obtain ⟨timestamp,-,h⟩ := bind_ok h
  obtain ⟨contentType,-,h⟩ := bind_ok h
  obtain ⟨ttlSeconds,-,h⟩ := bind_ok h
  obtain ⟨tags,-,h⟩ := bind_ok h
  obtain ⟨payloadVersion,-,h⟩ := bind_ok h
  obtain ⟨algo,-,h⟩ := bind_ok h
  obtain ⟨nonce,hnon,h⟩ := bind_ok h
  obtain ⟨tag,-,h⟩ := bind_ok h
  obtain ⟨ciphertext,hcip,h⟩ := bind_ok h
  obtain ⟨encryptedAt,-,h⟩ := bind_ok h
  cases h
  refine ⟨?_,?_,?_,objectOf [("schema_version",payloadVersion),("algo",algo),("nonce",nonce),
    ("tag",some (.str tag)),("ciphertext",ciphertext),("encrypted_at",encryptedAt)],?_,?_,?_⟩
  · rw [field_objectOf (by simp)]
    simp [List.lookup_cons]
  · rw [field_objectOf (by simp)]
    simp [List.lookup_cons]
  · rw [field_objectOf (by simp)]
    simp [List.lookup_cons]
  · rw [field_objectOf (by simp)]
    simp [List.lookup_cons]
  · rw [hnon,field_objectOf (by simp)]
    simp [List.lookup_cons]
  · rw [hcip,field_objectOf (by simp)]
    simp [List.lookup_cons]

theorem buildSignedEnvelope_ordered {version kid metadata stamp integrityHash : Option Json}
    (h : buildSignedEnvelope env p version kid schemaVersion metadata stamp integrityHash payload =
      .ok envelope) (hmem : OrderedMembers [version,kid,metadata,stamp,integrityHash,payload]) :
    envelope.Ordered := by
  obtain ⟨timestamp,htim,h⟩ := bind_ok h
  obtain ⟨contentType,hcon,h⟩ := bind_ok h
  obtain ⟨ttlSeconds,httl,h⟩ := bind_ok h
  obtain ⟨tags,htag,h⟩ := bind_ok h
  obtain ⟨payloadVersion,hpay,h⟩ := bind_ok h
  obtain ⟨algo,halg,h⟩ := bind_ok h
  obtain ⟨nonce,hnon,h⟩ := bind_ok h
  obtain ⟨tag,-,h⟩ := bind_ok h
  obtain ⟨ciphertext,hcip,h⟩ := bind_ok h
  obtain ⟨encryptedAt,henc,h⟩ := bind_ok h
  cases h
  simp only [OrderedMembers,List.forall_mem_cons] at hmem
  obtain ⟨hver,hkid,hmet,hsta,hinh,hpad,-⟩ := hmem
  have hmea : (objectOf [("timestamp",timestamp),("schema_version",some (.num schemaVersion)),
      ("content_type",contentType),("ttl_seconds",ttlSeconds),("tags",tags)]).Ordered := by
    apply ordered_objectOf
    simp only [OrderedMembers,List.map_cons,List.map_nil,List.forall_mem_cons]
    refine ⟨?_,?_,?_,?_,?_,nofun⟩
    · rintro v rfl
      exact ordered_member hmet htim
    · rintro v ⟨⟩
      exact .num _
    · rintro v rfl
      exact ordered_member hmet hcon
    · rintro v rfl
      exact ordered_member hmet httl
    · rintro v rfl
      exact ordered_member hmet htag
  have hinn : (objectOf [("schema_version",payloadVersion),("algo",algo),("nonce",nonce),
      ("tag",some (.str tag)),("ciphertext",ciphertext),("encrypted_at",encryptedAt)]).Ordered := by
    apply ordered_objectOf
    simp only [OrderedMembers,List.map_cons,List.map_nil,List.forall_mem_cons]
    refine ⟨?_,?_,?_,?_,?_,?_,nofun⟩
    · rintro v rfl
      exact ordered_member hpad hpay
    · rintro v rfl
      exact ordered_member hpad halg
    · rintro v rfl
      exact ordered_member hpad hnon
    · rintro v ⟨⟩
      exact .str _
    · rintro v rfl
      exact ordered_member hpad hcip
    · rintro v rfl
      exact ordered_member hpad henc
  apply ordered_objectOf
  simp only [OrderedMembers,List.map_cons,List.map_nil,List.forall_mem_cons]
  refine ⟨?_,?_,hver,hkid,?_,hsta,hinh,?_,nofun⟩
  · rintro v ⟨⟩
    exact .str _
  · rintro v ⟨⟩
    exact .str _
  · rintro v ⟨⟩
    exact hmea
  · rintro v ⟨⟩
    exact hinn

/-! Entries that were let through. -/

theorem textOf_eq_ok {v : Option Json} {text : String} (h : textOf v=.ok text) : v=some (.str text) := by
  unfold textOf at h
  split at h
  · cases h
    rfl
  · cases h

theorem validateSignedEnvelope_eq_ok {entry : Json}
    (h : validateSignedEnvelope env p entry=.ok (schemaVersion,envelope)) :
    (schemaVersion=2 ∨ schemaVersion=3) ∧
      ∃ expected, buildSignedEnvelope env p (field entry "ver") (field entry "kid") schemaVersion
        (field entry "metadata") (field entry "provenance_stamp") (field entry "integrity_hash")
        (field entry "payload")=.ok expected ∧ envelope.canonicalText=expected.canonicalText := by
  unfold validateSignedEnvelope at h
  split at h
  · cases h
  · split_ifs at h with htru
    · cases h
    · split at h
      · split_ifs at h with hoth htwo hthr
        · cases h
        · cases h
        · cases h
        · obtain ⟨expected,hexp,h⟩ := bind_ok h
          split_ifs at h with htex
          · cases h
            exact ⟨by omega,expected,hexp,htex⟩
          · cases h
      · cases h

theorem verifyEnvelopeSignature_eq_ok {entry : Json} {publicKeys : List (List UInt8)} {verified : Bool}
    (h : verifyEnvelopeSignature env p entry publicKeys=.ok verified) :
    ∃ schemaVersion envelope text key, validateSignedEnvelope env p entry=.ok (schemaVersion,envelope) ∧
      field entry "envelope_sig" = some (.str text) ∧ key∈publicKeys ∧
      env.verify (stateEnvelopeSigningBytes schemaVersion envelope) (fromBase64url env text) key=true := by
  by_cases hkes : publicKeys=[]
  · rw [verifyEnvelopeSignature,if_pos hkes] at h
    cases h
  · rw [verifyEnvelopeSignature,if_neg hkes] at h
    obtain ⟨⟨schemaVersion,envelope⟩,hval,h⟩ := bind_ok h
    dsimp only at h
    split_ifs at h with htru
    · cases h
    · split at h
      · obtain ⟨text,htex,h⟩ := bind_ok h
        obtain ⟨legacyCiphertext,-,h⟩ := bind_ok h
        split_ifs at h with hsig
        rw [verifyStateEntrySignatures,List.any_eq_true] at hsig
        obtain ⟨key,hkey,hbot⟩ := hsig
        exact ⟨schemaVersion,envelope,text,key,hval,textOf_eq_ok htex,hkey,
          (Bool.and_eq_true_iff.mp hbot).1⟩
      · cases h

theorem decrypt_eq_ok {namespaceName : String} {plaintext : List UInt8}
    (h : decrypt env namespaceName payload=.ok plaintext) :
    ∃ iv ct, member payload "iv" = .ok (some (.str iv)) ∧ member payload "ct" = .ok (some (.str ct)) ∧
      env.gcmOpen namespaceName (fromBase64url env iv) (fromBase64url env ct)=some plaintext := by
  obtain ⟨v,-,h⟩ := bind_ok h
  obtain ⟨alg,-,h⟩ := bind_ok h
  split_ifs at h
  obtain ⟨iv,hiv,h⟩ := bind_ok h
  obtain ⟨ivText,hivT,h⟩ := bind_ok h
  obtain ⟨ct,hct,h⟩ := bind_ok h
  obtain ⟨ctText,hctT,h⟩ := bind_ok h
  rw [textOf_eq_ok hivT] at hiv
  rw [textOf_eq_ok hctT] at hct
  refine ⟨ivText,ctText,hiv,hct,?_⟩
  split at h
  · rename_i hope
    cases h
    exact hope
  · cases h

end Envelopes

section Returned

variable {env : StateEnv} {p : Address} {signerPublicKey : Option (List UInt8)} {entry : Json}
  {s s' : Store} {result : ReadResult}

/-- The version found is not below the anchor and, in an entry of the first schema, not above it either. -/
structure Anchored (env : StateEnv) (files : AList fun _ : Path => Option Json) (p : Address)
    (version : Option Json) (legacy : Bool) : Prop where
  floor : ∃ anchors, anchorsOf env (files.lookup versionAnchorsAddress.entryPath)=.ok anchors ∧
    less env version (some (.num (anchoredVersion anchors p)))=false ∧
    (legacy=true → ¬ (0 < anchoredVersion anchors p ∧
      less env (some (.num (anchoredVersion anchors p))) version=true))

structure Returned (env : StateEnv) (p : Address) (signerPublicKey : Option (List UInt8)) (entry : Json)
    (files : AList fun _ : Path => Option Json) (result : ReadResult) : Prop where
  signed : ∃ publicKeys, verifyEntryWithKeys env p entry publicKeys=.ok true ∧
    ∀ key∈publicKeys, signerPublicKey=some key ∨
      ∃ path record resident, files.lookup path=some (some record) ∧
        env.identityOf record=some resident ∧ key∈resident.writerKeys
  opened : ∃ plaintext, decrypt env p.namespaceName (field entry "payload")=.ok plaintext ∧
    result.value=Ecma.textDecode plaintext
  legacyWarning : result.legacyWarning=isLegacyEntry entry
  version : result.version=field entry "ver"
  anchored : Anchored env files p (field entry "ver") (isLegacyEntry entry)

theorem settleRead_eq_ok {verified permitted legacy : Bool} {value : String}
    (hp : p.entryPath≠versionAnchorsAddress.entryPath)
    (h : settleRead env p entry verified permitted legacy value s=(.ok result,s')) :
    verified=true ∧ result.value=value ∧ result.legacyWarning=legacy ∧
      result.version=field entry "ver" ∧
      ∃ anchors, anchorsOf env (s.files.lookup versionAnchorsAddress.entryPath)=.ok anchors ∧
        less env (field entry "ver") (some (.num (anchoredVersion anchors p)))=false := by
  obtain ⟨migrated,s₁,hmig,h⟩ := Effect.bind_eq_ok h
  have hver := migrateIfPermitted_eq_ok hmig
  have hkep : (migrateIfPermitted env p entry permitted s).2.files.lookup versionAnchorsAddress.entryPath =
      s.files.lookup versionAnchorsAddress.entryPath :=
    migrateIfPermitted_anchors hp entry permitted _ s rfl
  rw [hmig] at hkep
  obtain ⟨u₂,s₂,hhas,h⟩ := Effect.bind_eq_ok h
  have hfil := getNamespaceHashes_files p.namespaceName s₁
  rw [hhas] at hfil
  obtain ⟨u₃,s₃,hflo,h⟩ := Effect.bind_eq_ok h
  obtain ⟨anchors,hanc,hles⟩ := checkVersionFloor_eq_ok hflo
  obtain ⟨u₄,s₄,hved,h⟩ := Effect.bind_eq_ok h
  obtain ⟨u₅,s₅,-,h⟩ := Effect.bind_eq_ok h
  obtain ⟨writtenAt,s₆,-,h⟩ := Effect.bind_eq_ok h
  cases h
  dsimp only at hfil hkep
  rw [hver] at hles
  rw [hfil,hkep] at hanc
  exact ⟨(Effect.require_eq_ok hved).1,rfl,rfl,hver,anchors,hanc,hles⟩

theorem readEntry_eq_ok (hp : p.entryPath≠versionAnchorsAddress.entryPath)
    (h : readEntry env p signerPublicKey entry s=(.ok result,s')) :
    Returned env p signerPublicKey entry s.files result := by
  obtain ⟨u₁,s₁,hrol,h₁⟩ := Effect.bind_eq_ok h
  obtain ⟨rfl,hcei⟩ := assertLegacyEntryVersionCeiling_eq_ok (checkRollback_eq_ok hrol)
  obtain ⟨verified,s₂,hsig,h₂⟩ := Effect.bind_eq_ok h₁
  obtain ⟨publicKeys,s₃,hkey,hexc⟩ := Effect.bind_eq_ok hsig
  obtain ⟨rfl,htru⟩ := candidateKeys_eq_ok hkey
  obtain ⟨hver,rfl⟩ := ofExcept_eq_ok hexc
  obtain ⟨pending,s₄,hpen,h₃⟩ := Effect.bind_eq_ok h₂
  have hsta := journalMaybePending_state s₂
  rw [hpen] at hsta
  obtain rfl : s₄=s₂ := hsta
  obtain ⟨u₅,s₅,hcom,h₄⟩ := Effect.bind_eq_ok h₃
  obtain ⟨-,rfl⟩ := Effect.require_eq_ok hcom
  obtain ⟨plaintext,s₆,hope,h₅⟩ := Effect.bind_eq_ok h₄
  obtain ⟨hdec,rfl⟩ := ofExcept_eq_ok hope
  obtain ⟨u₇,s₇,hhas,h₆⟩ := Effect.bind_eq_ok h₅
  obtain ⟨-,rfl⟩ := Effect.require_eq_ok hhas
  obtain ⟨rfl,hval,hleg,hven,anchors,hanc,hles⟩ := settleRead_eq_ok hp h₆
  refine ⟨⟨publicKeys,hver,htru⟩,⟨plaintext,hdec,hval⟩,hleg,hven,
    anchors,hanc,hles,fun hyes => ?_⟩
  obtain ⟨anchors',hanc',hnot⟩ := hcei hyes
  cases hanc.symm.trans hanc'
  exact hnot

theorem read_eq_ok (hp : p.entryPath≠versionAnchorsAddress.entryPath)
    (h : read env p signerPublicKey s=(.ok (some result),s')) :
    ∃ path entry, s.files.lookup path=some (some entry) ∧
      Returned env p signerPublicKey entry s.files result := by
  obtain ⟨raw,s₁,hrea,hres⟩ := Effect.bind_eq_ok h
  obtain ⟨hfil,rfl⟩ := storageRead_eq_ok hrea
  split at hres
  · cases hres
  · cases hres
  · cases hres
  · obtain ⟨found,s₂,hent,hpur⟩ := Effect.bind_eq_ok hres
    cases hpur
    obtain ⟨path,hpat⟩ := fileAt_eq_some hfil.symm
    exact ⟨path,_,hpat,readEntry_eq_ok hp hent⟩

end Returned

section History

variable {env : StateEnv} {s : Store}

structure JsonShaped (env : StateEnv) : Prop where
  stamps : ∀ p identityId now version provenance stamp,
    env.mintStamp p identityId now version provenance=some stamp → stamp.Ordered
  bumped : ∀ v n, (env.bumpCoerced v n).Ordered

theorem ordered_nextVersion (hsha : JsonShaped env) (current : Option Json) (anchored : Int) :
    (nextVersion env current anchored).Ordered := by
  unfold nextVersion
  split
  · exact .num _
  · exact .num _
  · exact .num _
  · exact hsha.bumped _ _

/-- The envelope belongs to the write, the version and the stamp, all of them JSON. -/
structure Signed (env : StateEnv) (e : StoredEntry) : Prop where
  envelope : writtenEnvelope env e.input e.version e.stamp=.ok e.envelope
  version : e.version.Ordered
  stamp : e.stamp.Ordered

theorem mintStamp_eq_ok {w : WriteInput} {version stamp : Json} {s' : Store}
    (h : mintStamp env w version s=(.ok stamp,s')) :
    env.mintStamp w.address w.identityId w.now version w.provenance=some stamp := by
  rw [mintStamp] at h
  cases hmin : env.mintStamp w.address w.identityId w.now version w.provenance with
  | none =>
    rw [hmin] at h
    cases h
  | some minted =>
    rw [hmin] at h
    cases h
    rfl

variable {e : StoredEntry}

theorem storeEntry_signed (hsha : JsonShaped env) {w : WriteInput} {s' : Store}
    (h : storeEntry env w s=(.ok e,s')) : e.input=w ∧ Signed env e := by
  obtain ⟨pending,s₁,-,h⟩ := Effect.bind_eq_ok h
  obtain ⟨u₂,s₂,-,h⟩ := Effect.bind_eq_ok h
  obtain ⟨u₃,s₃,-,h⟩ := Effect.bind_eq_ok h
  obtain ⟨u₄,s₄,-,h⟩ := Effect.bind_eq_ok h
  obtain ⟨current,s₅,-,h⟩ := Effect.bind_eq_ok h
  obtain ⟨anchored,s₆,-,h⟩ := Effect.bind_eq_ok h
  obtain ⟨stamp,s₇,hsta,h⟩ := Effect.bind_eq_ok h
  obtain ⟨envelope,s₈,henv,h⟩ := Effect.bind_eq_ok h
  obtain ⟨u₉,s₉,-,h⟩ := Effect.bind_eq_ok h
  cases h
  exact ⟨rfl,(ofExcept_eq_ok henv).1,ordered_nextVersion hsha _ _,
    hsha.stamps _ _ _ _ _ _ (mintStamp_eq_ok hsta)⟩

theorem runWrites_signed (hsha : JsonShaped env) {ws : List WriteInput}
    (h : e∈(runWrites env ws s).1) : e.input∈ws ∧ Signed env e := by
  induction ws generalizing s with
  | nil => cases h
  | cons w ws ih =>
    cases hsto : storeEntry env w s with
    | mk r s' =>
      cases r with
      | ok first =>
        simp only [runWrites,hsto,List.mem_cons] at h
        rcases h with rfl | h
        · obtain ⟨rfl,hsig⟩ := storeEntry_signed hsha hsto
          exact ⟨List.mem_cons_self,hsig⟩
        · exact ⟨List.mem_cons_of_mem w (ih h).1,(ih h).2⟩
      | error err =>
        simp only [runWrites,hsto] at h
        exact ⟨List.mem_cons_of_mem w (ih h).1,(ih h).2⟩

theorem ordered_metadata (w : WriteInput) : w.metadata.Ordered := by
  apply ordered_objectOf
  simp only [OrderedMembers,List.map_cons,List.map_nil,List.forall_mem_cons]
  refine ⟨?_,?_,?_,?_,?_,nofun⟩
  · intro v hv
    obtain ⟨text,-,rfl⟩ := Option.map_eq_some_iff.mp hv
    exact .str text
  · intro v hv
    obtain ⟨n,-,rfl⟩ := Option.map_eq_some_iff.mp hv
    exact .num n
  · intro v hv
    obtain ⟨tags,-,rfl⟩ := Option.map_eq_some_iff.mp hv
    refine .arr fun v hv => ?_
    obtain ⟨tag,-,rfl⟩ := List.mem_map.mp hv
    exact .str tag
  · rintro v ⟨⟩
    exact .num 3
  · rintro v ⟨⟩
    exact .str _

theorem ordered_payload (w : WriteInput) : (w.payload env).Ordered := by
  apply ordered_objectOf
  simp only [WriteInput.payloadFields,OrderedMembers,List.map_cons,List.map_nil,List.forall_mem_cons]
  refine ⟨?_,?_,?_,?_,?_,List.forall_mem_nil _⟩
  · rintro v ⟨⟩
    exact .num 1
  · rintro v ⟨⟩
    exact .str _
  · rintro v ⟨⟩
    exact .str _
  · rintro v ⟨⟩
    exact .str _
  · rintro v ⟨⟩
    exact .str _

theorem Signed.ordered_envelope (h : Signed env e) : e.envelope.Ordered := by
  apply buildSignedEnvelope_ordered h.envelope
  simp only [OrderedMembers,List.forall_mem_cons]
  refine ⟨?_,?_,?_,?_,?_,?_,nofun⟩
  · rintro v ⟨⟩
    exact h.version
  · rintro v ⟨⟩
    exact .str _
  · rintro v ⟨⟩
    exact ordered_metadata e.input
  · rintro v ⟨⟩
    exact h.stamp
  · rintro v ⟨⟩
    exact .str _
  · rintro v ⟨⟩
    exact ordered_payload e.input

end History

section Authenticity

variable {env : StateEnv} {s edited : Store} {p : Address} {keys : List UInt8 → Prop}
  {history : List StoredEntry} {files : AList fun _ : Path => Option Json}

/-- The files are JSON of somebody who holds none of the `keys` and no sealing key, after the writes of the
history: a signature verifies only what a write signed, and only what a write sealed can be opened. -/
structure Powerless (env : StateEnv) (keys : List UInt8 → Prop) (history : List StoredEntry)
    (files : AList fun _ : Path => Option Json) : Prop where
  parsed : ∀ path record, files.lookup path=some (some record) → record.Ordered
  residents : ∀ path record resident, files.lookup path=some (some record) →
    env.identityOf record=some resident → ∀ key∈resident.writerKeys, keys key
  signatures : ∀ path record text, files.lookup path=some (some record) →
    field record "envelope_sig" = some (.str text) → ∀ key message, keys key →
    env.verify message (fromBase64url env text) key=true →
    ∃ e∈history, message=stateEnvelopeSigningBytes 3 e.envelope ∨ message=e.input.ciphertext env
  ciphertexts : ∀ path record iv ct namespaceName plaintext, files.lookup path=some (some record) →
    member (field record "payload") "iv" = .ok (some (.str iv)) →
    member (field record "payload") "ct" = .ok (some (.str ct)) →
    env.gcmOpen namespaceName (fromBase64url env iv) (fromBase64url env ct)=some plaintext →
    ∃ e∈history, e.input.address.namespaceName=namespaceName ∧ fromBase64url env iv=e.input.iv ∧
      fromBase64url env ct=e.input.ciphertext env
  /-- No ciphertext is spelled like the text of an envelope. -/
  separated : ∀ e∈history, ∀ schemaVersion text,
    e.input.ciphertext env≠utf8Bytes (signingDomain schemaVersion++text)

/-- The domain of the second schema does not begin a text of the third. -/
theorem signingDomain_append_ne (a b : String) : signingDomain 2++a≠signingDomain 3++b := by
  intro h
  have hcha := congrArg (fun text => text.toList[26]?) h
  simp only [String.toList_append] at hcha
  rw [List.getElem?_append_left (by decide +kernel),List.getElem?_append_left (by decide +kernel)] at hcha
  exact absurd hcha (by decide +kernel)

theorem append_inj_right {a b c : String} (h : a++b=a++c) : b=c := by
  have hcha := congrArg String.toList h
  rw [String.toList_append,String.toList_append] at hcha
  exact String.toList_inj.mp (List.append_cancel_left hcha)

variable {path : Path}

theorem Powerless.envelope (h : Powerless env keys history files) {record : Json}
    {text : String} {key : List UInt8} {schemaVersion : Int} {envelope : Json}
    (hfil : files.lookup path=some (some record))
    (hsig : field record "envelope_sig" = some (.str text)) (hkey : keys key)
    (hver : env.verify (stateEnvelopeSigningBytes schemaVersion envelope) (fromBase64url env text) key=true)
    (hsch : schemaVersion=2 ∨ schemaVersion=3) :
    ∃ e∈history, envelope.canonicalText=e.envelope.canonicalText := by
  obtain ⟨e,he,hbyt | hbyt⟩ := h.signatures path record text hfil hsig key _ hkey hver
  · refine ⟨e,he,?_⟩
    have htex := utf8Bytes_injective hbyt
    rcases hsch with rfl | rfl
    · exact absurd htex (signingDomain_append_ne _ _)
    · exact append_inj_right htex
  · exact absurd hbyt.symm (h.separated e he schemaVersion _)

/-- Two entries with one envelope are at one address, at one version, with one ciphertext. -/
theorem Describes.agree {q : Address} {version version' payload payload' : Option Json} {envelope : Json}
    (h : Describes p version payload envelope) (h' : Describes q version' payload' envelope) :
    p=q ∧ version=version' ∧ member payload "iv" = member payload' "iv" ∧
      member payload "ct" = member payload' "ct" := by
  obtain ⟨hnam,hkey,hver,inner,hinn,hiv,hct⟩ := h
  obtain ⟨hnam',hkey',hver',inner',hinn',hiv',hct'⟩ := h'
  rw [hnam] at hnam'
  rw [hkey] at hkey'
  rw [hinn] at hinn'
  cases hinn'
  refine ⟨?_,hver.symm.trans hver',hiv.trans hiv'.symm,hct.trans hct'.symm⟩
  cases p
  cases q
  cases hnam'
  cases hkey'
  rfl

theorem member_payload_iv (w : WriteInput) :
    member (some (w.payload env)) "iv" = .ok (some (.str (toBase64url w.iv))) := by
  rw [WriteInput.payload,member_objectOf,← WriteInput.payload,field_payload]
  simp [WriteInput.payloadFields,List.lookup_cons]

theorem member_payload_ct (w : WriteInput) :
    member (some (w.payload env)) "ct" = .ok (some (.str (toBase64url (w.ciphertext env)))) := by
  rw [WriteInput.payload,member_objectOf,← WriteInput.payload,field_payload]
  simp [WriteInput.payloadFields,List.lookup_cons]

theorem Returned.of_envelope {signerPublicKey : Option (List UInt8)} {entry : Json}
    {result : ReadResult} (h : Returned env p signerPublicKey entry files result) (hlaw : Lawful env)
    (hpow : Powerless env keys history files) (hhis : ∀ e∈history, Signed env e)
    (hsig : ∀ key, signerPublicKey=some key → keys key)
    (hfil : files.lookup path=some (some entry)) (hleg : isLegacyEntry entry=false) :
    ∃ e∈history, e.input.address=p ∧ result.value=Ecma.textDecode e.input.plaintext ∧
      result.version=some e.version := by
  obtain ⟨publicKeys,hver,htru⟩ := h.signed
  have henv : verifyEnvelopeSignature env p entry publicKeys=.ok true := by
    unfold verifyEntryWithKeys at hver
    rw [hleg,if_neg Bool.false_ne_true] at hver
    split_ifs at hver
    · exact hver
    · cases hver
  obtain ⟨schemaVersion,envelope,text,key,hval,htex,hkey,hsie⟩ :=
    verifyEnvelopeSignature_eq_ok henv
  obtain ⟨hsch,expected,hexp,hsam⟩ := validateSignedEnvelope_eq_ok hval
  have hhel : keys key := by
    rcases htru key hkey with hgiv | ⟨path',record,resident,hrec,hres,hmem⟩
    · exact hsig key hgiv
    · exact hpow.residents path' record resident hrec hres key hmem
  obtain ⟨e,he,hwri⟩ := hpow.envelope hfil htex hhel hsie hsch
  -- The envelope the entry is checked against is the one that was signed.
  have hpar := hpow.parsed path entry hfil
  have hord : expected.Ordered := by
    apply buildSignedEnvelope_ordered hexp
    simp only [OrderedMembers,List.forall_mem_cons]
    exact ⟨fun v hv => ordered_field hpar hv,fun v hv => ordered_field hpar hv,
      fun v hv => ordered_field hpar hv,fun v hv => ordered_field hpar hv,
      fun v hv => ordered_field hpar hv,fun v hv => ordered_field hpar hv,nofun⟩
  have hequ : expected=e.envelope :=
    Json.canonicalText_inj hord (hhis e he).ordered_envelope (hsam.symm.trans hwri)
  have hent := buildSignedEnvelope_describes hexp
  rw [hequ] at hent
  obtain ⟨hadd,hven,hiv,hct⟩ :=
    hent.agree (buildSignedEnvelope_describes (hhis e he).envelope)
  -- So the read opened what that write sealed.
  obtain ⟨plaintext,hdec,hvae⟩ := h.opened
  obtain ⟨iv,ct,hivT,hctT,hope⟩ := decrypt_eq_ok hdec
  rw [hiv,member_payload_iv] at hivT
  rw [hct,member_payload_ct] at hctT
  cases hivT
  cases hctT
  rw [hlaw.base64,hlaw.base64,hadd,WriteInput.ciphertext,hlaw.opened] at hope
  refine ⟨e,he,hadd.symm,?_,h.version.trans hven⟩
  rw [hvae,← Option.some.inj hope]

theorem Returned.of_payload {signerPublicKey : Option (List UInt8)} {entry : Json}
    {result : ReadResult} (h : Returned env p signerPublicKey entry files result) (hlaw : Lawful env)
    (hpow : Powerless env keys history files) (hfil : files.lookup path=some (some entry)) :
    ∃ e∈history, e.input.address.namespaceName=p.namespaceName ∧
      result.value=Ecma.textDecode e.input.plaintext := by
  obtain ⟨plaintext,hdec,hval⟩ := h.opened
  obtain ⟨iv,ct,hivT,hctT,hope⟩ := decrypt_eq_ok hdec
  obtain ⟨e,he,hnam,hiv,hct⟩ :=
    hpow.ciphertexts path entry iv ct _ plaintext hfil hivT hctT hope
  rw [hiv,hct,← hnam,WriteInput.ciphertext,hlaw.opened] at hope
  exact ⟨e,he,hnam,by rw [hval,← Option.some.inj hope]⟩

/-- After any writes and any change of the files that spares the anchors, by somebody without a key, a value
read without the warning is one a write stored at that very address, at the version returned; a value read
with it is one a write stored in that namespace. Neither is below the anchor. -/
theorem read_authenticity (hlaw : Lawful env) (hshaped : JsonShaped env) (ws : List WriteInput)
    (s : Store) (hpowerless : Powerless env keys (runWrites env ws s).1 edited.files)
    (hanchors : edited.files.lookup versionAnchorsAddress.entryPath =
      (runWrites env ws s).2.files.lookup versionAnchorsAddress.entryPath)
    (hp : p.entryPath≠versionAnchorsAddress.entryPath) {signerPublicKey : Option (List UInt8)}
    (hsigner : ∀ key, signerPublicKey=some key → keys key) {result : ReadResult} {s' : Store}
    (hread : read env p signerPublicKey edited=(.ok (some result),s')) :
    Anchored env (runWrites env ws s).2.files p result.version result.legacyWarning ∧
      ∃ e∈(runWrites env ws s).1, e.input∈ws ∧ e.input.address.namespaceName=p.namespaceName ∧
        result.value=Ecma.textDecode e.input.plaintext ∧
        (result.legacyWarning=false → e.input.address=p ∧ result.version=some e.version) := by
  obtain ⟨path,entry,hfil,hret⟩ := read_eq_ok hp hread
  constructor
  · obtain ⟨anchors,hloa,hflo⟩ := hret.anchored
    rw [hanchors] at hloa
    rw [hret.version,hret.legacyWarning]
    exact ⟨anchors,hloa,hflo⟩
  · cases hleg : isLegacyEntry entry with
    | true =>
      obtain ⟨e,he,hnam,hval⟩ := hret.of_payload hlaw hpowerless hfil
      refine ⟨e,he,(runWrites_signed hshaped he).1,hnam,hval,fun hno => ?_⟩
      rw [hret.legacyWarning,hleg] at hno
      cases hno
    | false =>
      obtain ⟨e,he,hadd,hval,hver⟩ := hret.of_envelope hlaw hpowerless
        (fun e he => (runWrites_signed hshaped he).2) hsigner hfil hleg
      exact ⟨e,he,(runWrites_signed hshaped he).1,by rw [hadd],hval,fun _ => ⟨hadd,hver⟩⟩

end Authenticity

def boundTag (namespaceName : String) (iv : List UInt8) : List UInt8 :=
  List.replicate 16 (if namespaceName = "n" ∧ iv=[] then 0 else 1)

/-- A message is its own signature, and a ciphertext opens under its own namespace and nonce. -/
def boundEnv : StateEnv :=
  { plainEnv with
    gcmSeal := fun namespaceName iv plaintext => plaintext++boundTag namespaceName iv
    gcmOpen := fun namespaceName iv ciphertext =>
      if ciphertext.drop (ciphertext.length - 16)=boundTag namespaceName iv then
        some (ciphertext.take (ciphertext.length - 16))
      else none
    verify := fun message signature _ => message == signature
    identityOf := fun record => if isTruthy (field record "v") then none else some ⟨[[]],[],id⟩
    bumpCoerced := fun _ _ => .null }

theorem lawful_boundEnv : Lawful boundEnv where
  base64 := lawful_plainEnv.base64
  opened := by
    intro namespaceName iv plaintext
    simp [boundEnv,boundTag]
  tagged := by
    intro namespaceName iv plaintext
    simp [boundEnv,boundTag]
  ownWrites := ⟨rfl,rfl⟩

theorem jsonShaped_boundEnv : JsonShaped boundEnv where
  stamps := by
    intro p identityId now version provenance stamp h
    cases h
    exact .obj List.Pairwise.nil nofun
  bumped := fun _ _ => .null

def boundWrite (key value : String) : WriteInput :=
  { plainWrite ⟨"n",key⟩ value with signer := ⟨[],id⟩ }

/-- The ciphertext of one entry, with the signature stored beside it, as an entry of the first schema. -/
def splicedEntry (w : WriteInput) : Json :=
  objectOf [("v",some (.num 1)),("payload",some (w.payload boundEnv)),("ver",some (.num 1)),
    ("sig",some (.str (toBase64url (w.ciphertext boundEnv)))),("kid",some (.str w.identityId)),
    ("integrity_hash",some (.str (w.integrityHash boundEnv))),("metadata",some w.metadata)]

def boundRun : List StoredEntry × Store :=
  runWrites boundEnv [boundWrite "a" "x",boundWrite "b" "y"] plainStore

/-- The first entry is gone, and the second overwritten with what the first one held. -/
def splicedStore : Store :=
  reopen (withFiles boundRun.2
    ((boundRun.2.files.erase (Address.mk "n" "a").entryPath).insert (Address.mk "n" "b").entryPath
      (some (splicedEntry (boundWrite "a" "x")))))

/-- Two addresses are written; apart from them nothing carries a payload or a signature; and the second is read with
the value of the first. -/
theorem boundRun_spliced :
    boundRun.1.map (·.input.address)=[⟨"n","a"⟩,⟨"n","b"⟩] ∧
    (∀ f∈(boundRun.2.files.erase (Address.mk "n" "a").entryPath).entries,
      f.1=(Address.mk "n" "b").entryPath ∨ (f.2.all fun record => record.wellFormed &&
        ((field record "payload").isNone && (field record "envelope_sig").isNone))=true) ∧
    ((read boundEnv ⟨"n","b"⟩ none splicedStore).1.toOption.join.map (·.value))=some "x" ∧
    (splicedEntry (boundWrite "a" "x")).wellFormed=true := by
  decide +kernel

theorem boundRun_input {e : StoredEntry} (h : e∈boundRun.1) :
    e.input=boundWrite "a" "x" ∨ e.input=boundWrite "b" "y" := by
  simpa using (runWrites_signed jsonShaped_boundEnv h).1

theorem splicedStore_files {path : Path} {record : Json}
    (h : splicedStore.files.lookup path=some (some record)) :
    record=splicedEntry (boundWrite "a" "x") ∨
      record.Ordered ∧ field record "payload" = none ∧ field record "envelope_sig" = none := by
  have hoth := boundRun_spliced.2.1
  by_cases hpat : path=(Address.mk "n" "b").entryPath
  · rw [hpat] at h
    have hloo : splicedStore.files.lookup (Address.mk "n" "b").entryPath =
      some (some (splicedEntry (boundWrite "a" "x"))) := AList.lookup_insert _
    rw [hloo] at h
    cases h
    exact .inl rfl
  · have hloo : splicedStore.files.lookup path =
      (boundRun.2.files.erase (Address.mk "n" "a").entryPath).lookup path := AList.lookup_insert_ne hpat
    rw [hloo] at h
    rcases hoth _ (AList.mem_lookup_iff.mp h) with heq | hrec
    · exact absurd heq hpat
    · rw [Option.all_some,Bool.and_eq_true,Bool.and_eq_true,Option.isNone_iff_eq_none,
        Option.isNone_iff_eq_none] at hrec
      exact .inr ⟨Json.ordered_of_wellFormed hrec.1,hrec.2⟩

theorem splicedStore_anchors : splicedStore.files.lookup versionAnchorsAddress.entryPath =
    boundRun.2.files.lookup versionAnchorsAddress.entryPath := by
  have hpla : Plain "n" := plain_of_toList String.toList_ofList (by decide)
  have hne : ∀ key, versionAnchorsAddress.entryPath≠(Address.mk "n" key).entryPath := by
    intro key h
    have hdir : "_meta" = "n" := dir_versionAnchors.symm.trans ((congrArg Path.dir h).trans hpla.encode)
    exact absurd hdir (by decide)
  exact (AList.lookup_insert_ne (hne "b")).trans (AList.lookup_erase_ne (hne "a"))

theorem head_signingDomain (schemaVersion : Int) (text : String) :
    (utf8Bytes (signingDomain schemaVersion++text)).head? = some 115 := by
  have hear : (utf8Bytes "sanctuary.state-envelope.v1\n").head? = some 115 := by
    rw [utf8Bytes,show "sanctuary.state-envelope.v1\n".toList=_ from String.toList_ofList]
    decide
  have hlat : (utf8Bytes "sanctuary.state-envelope.v").head? = some 115 := by
    rw [utf8Bytes,show "sanctuary.state-envelope.v".toList=_ from String.toList_ofList]
    decide
  unfold signingDomain
  split_ifs
  · simp [utf8Bytes_append,List.head?_append,hear]
  · simp only [utf8Bytes_append,List.append_assoc]
    rw [List.head?_append]
    exact congrArg (Option.or · _) hlat

theorem powerless_splicedStore : Powerless boundEnv (fun _ => True) boundRun.1 splicedStore.files where
  parsed := by
    intro path record h
    rcases splicedStore_files h with rfl | ⟨hord,-,-⟩
    · exact Json.ordered_of_wellFormed boundRun_spliced.2.2.2
    · exact hord
  residents := fun _ _ _ _ _ _ _ => trivial
  signatures := by
    intro path record text h hsig
    rcases splicedStore_files h with rfl | ⟨-,-,hnone⟩
    · rw [splicedEntry,field_objectOf (by simp)] at hsig
      simp [List.lookup_cons] at hsig
    · rw [hnone] at hsig
      cases hsig
  ciphertexts := by
    intro path record iv ct namespaceName plaintext h hiv hct hope
    rcases splicedStore_files h with rfl | ⟨-,hnone,-⟩
    · have hpay : field (splicedEntry (boundWrite "a" "x")) "payload" =
          some ((boundWrite "a" "x").payload boundEnv) := by
        rw [splicedEntry,field_objectOf (by simp)]
        simp [List.lookup_cons]
      rw [hpay,member_payload_iv] at hiv
      rw [hpay,member_payload_ct] at hct
      cases hiv
      cases hct
      rw [lawful_boundEnv.base64,lawful_boundEnv.base64] at hope ⊢
      obtain ⟨e,he,hadd⟩ : ∃ e∈boundRun.1, e.input.address=⟨"n","a"⟩ := by
        rw [← List.mem_map,boundRun_spliced.1]
        exact List.mem_cons_self
      obtain hinp : e.input=boundWrite "a" "x" := by
        rcases boundRun_input he with hinp | hinp
        · exact hinp
        · rw [hinp] at hadd
          exact absurd hadd (by decide)
      refine ⟨e,he,?_,by rw [hinp],by rw [hinp]⟩
      rw [hadd]
      by_contra hne
      have hoth : ¬ namespaceName = "n" := fun h => hne h.symm
      simp [boundEnv,boundWrite,plainWrite,WriteInput.ciphertext,boundTag,hoth] at hope
    · rw [hnone] at hiv
      cases hiv
  separated := by
    intro e he schemaVersion text heq
    have hhea := head_signingDomain schemaVersion text
    rw [← heq] at hhea
    rcases boundRun_input he with hinp | hinp
    · rw [hinp] at hhea
      exact absurd hhea (by decide +kernel)
    · rw [hinp] at hhea
      exact absurd hhea (by decide +kernel)

theorem splicedStore_read : ∃ result s', read boundEnv ⟨"n","b"⟩ none splicedStore=(.ok (some result),s') ∧
    result.value = "x" := by
  have hval := boundRun_spliced.2.2.1
  cases hrea : read boundEnv ⟨"n","b"⟩ none splicedStore with
  | mk outcome s' =>
    rw [hrea] at hval
    match outcome, hval with
    | .ok (some result), hval => exact ⟨result,s',rfl,Option.some.inj hval⟩

theorem spliced_value_returned :
    Powerless boundEnv (fun _ => True) boundRun.1 splicedStore.files ∧
      splicedStore.files.lookup versionAnchorsAddress.entryPath =
        boundRun.2.files.lookup versionAnchorsAddress.entryPath ∧
      ∃ result s', read boundEnv ⟨"n","b"⟩ none splicedStore=(.ok (some result),s') ∧
        ∀ e∈boundRun.1, e.input.address=⟨"n","b"⟩ → result.value≠Ecma.textDecode e.input.plaintext := by
  obtain ⟨result,s',hrea,hval⟩ := splicedStore_read
  refine ⟨powerless_splicedStore,splicedStore_anchors,result,s',hrea,?_⟩
  intro e he hadd
  rcases boundRun_input he with hinp | hinp
  · rw [hinp] at hadd
    exact absurd hadd (by decide)
  · rw [hinp,hval]
    decide +kernel

theorem read_authenticity_spliced :
    ∃ result s', read boundEnv ⟨"n","b"⟩ none splicedStore=(.ok (some result),s') ∧
      Anchored boundEnv boundRun.2.files ⟨"n","b"⟩ result.version result.legacyWarning ∧
      ∃ e∈boundRun.1, e.input.address.namespaceName = "n" ∧
        result.value=Ecma.textDecode e.input.plaintext := by
  obtain ⟨result,s',hrea,-⟩ := splicedStore_read
  obtain ⟨hanc,e,he,-,hnam,hval,-⟩ :=
    read_authenticity lawful_boundEnv jsonShaped_boundEnv _ plainStore powerless_splicedStore
      splicedStore_anchors (by decide +kernel) (by intro key hkey; cases hkey) hrea
  exact ⟨result,s',hrea,hanc,e,he,hnam,hval⟩

end CastleWall.Cognitive.StateStore
