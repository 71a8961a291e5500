import CastleWall.Support.Effect
import CastleWall.Cognitive.RotationChain
import CastleWall.Cognitive.StorageNames
import Mathlib.Data.List.AList

/-! # The state store

`StateStore` of `cognitive/state-store.ts` over the filesystem storage: `write`, the enforcing `read` and
`delete`. A file holds a JSON value or bytes that are none. The Merkle tree kept beside the entries is read
by nothing below and left out. -/

namespace CastleWall.Cognitive.StateStore

open Text

/-- A member of a value that is not `null`; `none` is `undefined`. -/
def field (v : Json) (key : String) : Option Json :=
  match v with
  | .obj fields => fields.lookup key
  | _ => none

/-- The members that are not `undefined`. -/
def defined : List (String × Option Json) → List (String × Json)
  | [] => []
  | (key,some value)::fields => (key,value)::defined fields
  | (_,none)::fields => defined fields

/-- An object literal as `JSON.stringify` writes it. -/
def objectOf (fields : List (String × Option Json)) : Json := .obj (Json.ofFields (defined fields))

variable {fields : List (String × Option Json)}

theorem mem_keys_defined {key : String}
    (h : key∈(defined fields).map Prod.fst) : key∈fields.map Prod.fst := by
  induction fields using defined.induct with
  | case1 => exact h
  | case2 name value fields ih =>
    rw [defined,List.map_cons,List.mem_cons] at h
    rw [List.map_cons,List.mem_cons]
    exact h.imp id ih
  | case3 name fields ih =>
    rw [List.map_cons,List.mem_cons]
    exact .inr (ih h)

theorem nodup_keys_defined (h : (fields.map Prod.fst).Nodup) :
    ((defined fields).map Prod.fst).Nodup := by
  induction fields using defined.induct with
  | case1 => exact List.nodup_nil
  | case2 name value fields ih =>
    rw [List.map_cons,List.nodup_cons] at h
    rw [defined,List.map_cons,List.nodup_cons]
    exact ⟨fun hmem => h.1 (mem_keys_defined hmem),ih h.2⟩
  | case3 name fields ih =>
    rw [List.map_cons,List.nodup_cons] at h
    exact ih h.2

theorem lookup_eq_none_of_not_mem {α : Type} {key : String} {fields : List (String × α)}
    (h : key∉fields.map Prod.fst) : fields.lookup key=none := by
  rw [List.lookup_eq_none_iff]
  intro f hf
  rw [bne_iff_ne]
  rintro rfl
  exact h (List.mem_map_of_mem hf)

theorem lookup_defined (h : (fields.map Prod.fst).Nodup)
    (key : String) : (defined fields).lookup key=(fields.lookup key).join := by
  induction fields using defined.induct with
  | case1 => rfl
  | case2 name value fields ih =>
    rw [List.map_cons,List.nodup_cons] at h
    rw [defined,List.lookup_cons,List.lookup_cons,ih h.2]
    cases key == name <;> rfl
  | case3 name fields ih =>
    rw [List.map_cons,List.nodup_cons] at h
    rw [defined,ih h.2,List.lookup_cons]
    cases hkey : key == name with
    | false => rfl
    | true =>
      rw [eq_of_beq hkey,lookup_eq_none_of_not_mem h.1]
      rfl

theorem field_objectOf (h : (fields.map Prod.fst).Nodup)
    (key : String) : field (objectOf fields) key=(fields.lookup key).join := by
  rw [objectOf,field,Json.lookup_ofFields (nodup_keys_defined h),lookup_defined h]

def isTruthy : Option Json → Bool
  | none => false
  | some .null => false
  | some (.bool b) => b
  | some (.num n) => n != 0
  | some (.str s) => s != ""
  | some _ => true

/-! Comparisons with `===`. -/

def isNum (n : Int) : Option Json → Bool
  | some (.num m) => m == n
  | _ => false

def isStr (s : String) : Option Json → Bool
  | some (.str t) => t == s
  | _ => false

def isTrue : Option Json → Bool
  | some (.bool b) => b
  | _ => false

/-- The identity a record of `_identities` holds: the keys its rotation chain authenticates, its current
public key, and the signing key. -/
structure ResidentIdentity where
  writerKeys : List (List UInt8)
  publicKey : List UInt8
  sign : List UInt8 → List UInt8

/-- What the store calls in Node, in the cryptographic libraries and in its neighbours. -/
structure StateEnv where
  /-- `Buffer.from(_, "base64")`. -/
  bufferFrom : List Char → List UInt8
  hashToString : List UInt8 → String
  /-- AES-256-GCM under a namespace's key: the ciphertext, with its tag, of a nonce and a plaintext. -/
  gcmSeal : String → List UInt8 → List UInt8 → List UInt8
  gcmOpen : String → List UInt8 → List UInt8 → Option (List UInt8)
  /-- `verify` of a payload, a signature and a public key. -/
  verify : List UInt8 → List UInt8 → List UInt8 → Bool
  /-- HMAC-SHA256 under the key of the version anchors. -/
  metaMac : List UInt8 → List UInt8
  /-- The identity in a record of `_identities`; `none` when it does not decrypt or parse. -/
  identityOf : Json → Option ResidentIdentity
  /-- `mintSerializedWriteStamp`; `none` when the provenance a caller gives is refused. -/
  mintStamp : Address → String → String → Json → Json → Option Json
  /-- `assertSdwRawWriteAuthorized` lets the write through. -/
  rawWriteAuthorized : Address → Bool
  describeUntrusted : Option Json → String
  /-- `<` between two values that are not both numbers. -/
  lessCoerced : Option Json → Option Json → Bool
  /-- `Math.max(v, n) + 1` for a value that is not a number, as JSON writes the result. -/
  bumpCoerced : Json → Int → Json

inductive StateVerificationClassification where
  | signatureMismatch
  | kidUnknown
  | integrityHashMismatch
  | schemaMismatch
  | rollbackDetected
  | writerUnverified

inductive StateVerificationReason where
  | legacyVersionCeiling
  | versionBelowFloor

inductive StateError where
  | verification (classification : StateVerificationClassification) (message : String)
    (reason : Option StateVerificationReason)
  | interruptedExitImportPending (operation : String)
  | invalidStorageNamespace (namespaceName : String)
  | nameUnaddressable (name : String)
  | rawWriteForbidden
  | unsupportedPayload
  | decryptionFailed
  | provenanceRefused
  /-- A member of `undefined` or `null`, or text expected where there is none. -/
  | typeError

structure Store where
  files : AList fun _ : Path => Option Json
  /-- `versionCache`; a version that is `undefined` counts as absent. -/
  versionCache : String → Option Json
  /-- The namespaces `getNamespaceHashes` has listed. -/
  hashedNamespaces : List String

abbrev StateM : Type → Type := Effect Store StateError

def verificationError {α : Type} (classification : StateVerificationClassification) (message : String) :
    StateM α :=
  .fail (.verification classification message none)

def member (v : Option Json) (key : String) : Except StateError (Option Json) :=
  match v with
  | none => .error .typeError
  | some .null => .error .typeError
  | some v => .ok (field v key)

def textOf : Option Json → Except StateError String
  | some (.str s) => .ok s
  | _ => .error .typeError

variable (p : Address)

def checkAddress : StateM Unit := do
  Effect.require (isStorageNamespacePathComponent p.namespaceName=true)
    (.invalidStorageNamespace p.namespaceName)
  Effect.require (filesystemStorageNameRoundTrips p.key=true) (.nameUnaddressable p.key)

def fileAt (files : AList fun _ : Path => Option Json) (p : Address) : Option (Option Json) :=
  match files.lookup p.entryPath with
  | some contents => some contents
  | none => if p.legacyEntryPath=p.entryPath then none else files.lookup p.legacyEntryPath

def storageRead : StateM (Option (Option Json)) := do
  checkAddress p
  let s ← Effect.get
  return fileAt s.files p

def storageWrite (rawWriteAuthorized : Address → Bool) (contents : Json) : StateM Unit := do
  checkAddress p
  Effect.require (rawWriteAuthorized p=true) .rawWriteForbidden
  Effect.modify fun s => { s with files := s.files.insert p.entryPath (some contents) }

def storageDelete : StateM Bool := do
  checkAddress p
  let s ← Effect.get
  if p.entryPath∈s.files then
    Effect.modify fun s => { s with files := s.files.erase p.entryPath }
    return true
  else if p.legacyEntryPath∈s.files then
    Effect.modify fun s => { s with files := s.files.erase p.legacyEntryPath }
    return true
  else return false

def decodeRawFilesystemStorageName (rawName : String) : Except StateError String :=
  if encodeFilesystemStorageName (decodeFilesystemStorageName rawName)=rawName then
    .ok (decodeFilesystemStorageName rawName)
  else .error (.nameUnaddressable rawName)

def storageList (namespaceName : String) : StateM (List String) := do
  Effect.require (isStorageNamespacePathComponent namespaceName=true)
    (.invalidStorageNamespace namespaceName)
  let s ← Effect.get
  Effect.ofExcept ((s.files.keys.filter fun path =>
    path.dir=encodeFilesystemStorageName namespaceName).mapM fun path =>
      decodeRawFilesystemStorageName path.name)

def exitImportJournalNamespace : String := "_exit_import_journal"

def hasInterruptedExitImport : StateM Bool := do
  let entries ← storageList exitImportJournalNamespace
  return !entries.isEmpty

def journalMaybePending : StateM Bool := fun s =>
  match hasInterruptedExitImport s with
  | (.ok pending,s') => (.ok pending,s')
  | (.error _,s') => (.ok true,s')

def versionAnchorsAddress : Address := ⟨"_meta","state-envelope-version-anchors-v1"⟩

def publicKeysAddress : Address := ⟨"_meta","state-envelope-public-keys-v1"⟩

def identityAddress (kid : String) : Address := ⟨"_identities",kid⟩

def metaMacMarker : String := "__sanctuary_meta_mac_v1"

def metaMacDomain : String := "sanctuary.meta-record-mac.v1\n"

def corruptedRecord : String := s!"State metadata record is corrupted: _meta/{p.key}"

section Env

variable (env : StateEnv)

def fromBase64url (str : String) : List UInt8 := env.bufferFrom (restoreBase64 str)

def toBase64url (bytes : List UInt8) : String := String.ofList (Base64.encodeUrl bytes)

/-- `<`. -/
def less : Option Json → Option Json → Bool
  | some (.num a), some (.num b) => decide (a < b)
  | a, b => env.lessCoerced a b

def metaRecordMacBytes (record : List (String × Json)) : List UInt8 :=
  env.metaMac (utf8Bytes (metaMacDomain++versionAnchorsAddress.key ++ "\n" ++
    (Json.obj record).canonicalText))

/-- The authenticated floor a file holds; a record without the marker is no floor. -/
def anchorsOf : Option (Option Json) → Except StateError (List (String × Json))
  | none => .ok []
  | some (some (.obj fields)) =>
    if isTrue (fields.lookup metaMacMarker) then
      match fields.lookup "data", fields.lookup "mac" with
      | some (.obj record), some (.str mac) =>
        if fromBase64url env mac=metaRecordMacBytes env record then .ok record
        else .error (.verification .integrityHashMismatch
          s!"Version-anchor record failed authentication (tampered or wrong key): _meta/{versionAnchorsAddress.key}"
          none)
      | _, _ => .error (.verification .schemaMismatch
          s!"Version-anchor record is malformed: _meta/{versionAnchorsAddress.key}" none)
    else .ok []
  | some _ => .error (.verification .schemaMismatch (corruptedRecord versionAnchorsAddress) none)

def loadVersionAnchors : StateM (List (String × Json)) := do
  let raw ← storageRead versionAnchorsAddress
  Effect.ofExcept (anchorsOf env raw)

def saveVersionAnchors (record : List (String × Json)) : StateM Unit :=
  storageWrite versionAnchorsAddress env.rawWriteAuthorized
    (.obj [(metaMacMarker,.bool true),("data",.obj record),
      ("mac",.str (toBase64url (metaRecordMacBytes env record)))])

variable (p : Address)

def recordOf : Option (Option Json) → Except StateError (List (String × Json))
  | none => .ok []
  | some (some (.obj fields)) => .ok fields
  | some _ => .error (.verification .schemaMismatch (corruptedRecord p) none)

def loadJsonRecord : StateM (List (String × Json)) := do
  let raw ← storageRead p
  Effect.ofExcept (recordOf p raw)

def rememberWriterPublicKey (kid : String) (publicKey : List UInt8) : StateM Unit := do
  let registry ← loadJsonRecord publicKeysAddress
  if isStr (toBase64url publicKey) (registry.lookup kid) then return ()
  else
    storageWrite publicKeysAddress env.rawWriteAuthorized
      (.obj (Json.insertField kid (.str (toBase64url publicKey)) registry))

/-- Any failure is an identity that is not resident. -/
def resolveStoredIdentity (kid : Option Json) : StateM (Option ResidentIdentity) := fun s =>
  match kid with
  | some (.str kid) =>
    match storageRead (identityAddress kid) s with
    | (.ok (some (some record)),s') => (.ok (env.identityOf record),s')
    | (_,s') => (.ok none,s')
  | _ => (.ok none,s)

/-- The authenticated keys of a writer. A key found only in the plaintext registry is not one, but a
registry that does not parse fails the call. -/
def resolveWriterPublicKeys (kid : Option Json) : StateM (List (List UInt8)) :=
  match kid with
  | some (.str _) => do
    let identity ← resolveStoredIdentity env kid
    let _ ← loadJsonRecord publicKeysAddress
    return (identity.map (·.writerKeys)).getD []
  | _ => return []

def versionKey : String := p.namespaceName ++ "/" ++ p.key

def isSafeInteger (n : Int) : Bool := decide (-(2 ^ 53) < n ∧ n < 2 ^ 53)

def anchoredVersion (anchors : List (String × Json)) (p : Address) : Int :=
  match anchors.lookup (versionKey p) with
  | some (.num n) => if isSafeInteger n then n else 0
  | _ => 0

def getAnchoredVersion : StateM Int := do
  let anchors ← loadVersionAnchors env
  return anchoredVersion anchors p

def isLegacyEntry (entry : Json) : Bool := isNum 1 (field entry "v")

def legacyCeilingError (version : Option Json) (anchored : Int) : StateError :=
  .verification .rollbackDetected
    (s!"Rollback detected for {versionKey p}: a legacy (v1) entry at version " ++
      s!"{env.describeUntrusted version} cannot exceed the established anchor {anchored} " ++
      "(legitimate advances are written as signed-envelope schemas)")
    (some .legacyVersionCeiling)

def assertLegacyEntryVersionCeiling (entry : Json) : StateM Unit :=
  if isLegacyEntry entry then do
    let anchored ← getAnchoredVersion env p
    Effect.require (¬ (0 < anchored ∧ less env (some (.num anchored)) (field entry "ver")=true))
      (legacyCeilingError env p (field entry "ver") anchored)
  else return ()

def rollbackMessage (version expected : Option Json) : String :=
  s!"Rollback detected for {versionKey p}: found version {env.describeUntrusted version}, " ++
    s!"expected at least {env.describeUntrusted expected}"

def assertNotBelowVersionFloor (version : Option Json) :
    StateM (List (String × Json) × Int) := do
  let anchors ← loadVersionAnchors env
  let lastSeen := anchoredVersion anchors p
  Effect.require (¬ less env version (some (.num lastSeen))=true)
    (.verification .rollbackDetected (rollbackMessage env p version (some (.num lastSeen)))
      (some .versionBelowFloor))
  return (anchors,lastSeen)

def observeVersion (version : Option Json) : StateM Unit := do
  let (anchors,lastSeen) ← assertNotBelowVersionFloor env p version
  if less env (some (.num lastSeen)) version=true then
    saveVersionAnchors env (Json.insertField (versionKey p) (version.getD .null) anchors)
  else return ()

def setVersion (version : Option Json) (s : Store) : Store :=
  { s with versionCache := Function.update s.versionCache (versionKey p) version }

theorem setVersion_self (version : Option Json) (s : Store) :
    (setVersion p version s).versionCache (versionKey p)=version := by
  simp [setVersion]

theorem setVersion_of_ne {p : Address} {key : String} (h : key≠versionKey p) (version : Option Json)
    (s : Store) : (setVersion p version s).versionCache key=s.versionCache key := by
  simp [setVersion,h]

variable (namespaceName : String)

/-- One entry of the listing; an entry that does not parse is skipped. -/
def seedVersion (key : String) : StateM Unit := do
  let raw ← storageRead ⟨namespaceName,key⟩
  match raw with
  | some (some .null) => return ()
  | some (some entry) => Effect.modify (setVersion ⟨namespaceName,key⟩ (field entry "ver"))
  | _ => return ()

def getNamespaceHashes : StateM Unit := do
  let s ← Effect.get
  if namespaceName∈s.hashedNamespaces then return ()
  else
    let keys ← storageList namespaceName
    Effect.forEach (seedVersion namespaceName) keys
    Effect.modify fun s => { s with hashedNamespaces := namespaceName::s.hashedNamespaces }

def signingDomain (schemaVersion : Int) : String :=
  if schemaVersion ≤ 2 then "sanctuary.state-envelope.v1\n"
  else s!"sanctuary.state-envelope.v{schemaVersion}\n"

def stateEnvelopeSigningBytes (schemaVersion : Int) (envelope : Json) : List UInt8 :=
  utf8Bytes (signingDomain schemaVersion++envelope.canonicalText)

def payloadAuthTag (payload : Option Json) : Except StateError String := do
  let ct ← member payload "ct"
  let text ← textOf ct
  let ciphertextAndTag := fromBase64url env text
  if ciphertextAndTag.length < 16 then
    .error (.verification .schemaMismatch "Encrypted payload is too short to contain an authentication tag"
      none)
  else .ok (toBase64url (ciphertextAndTag.drop (ciphertextAndTag.length - 16)))

def buildSignedEnvelope (version kid : Option Json) (schemaVersion : Int)
    (metadata provenanceStamp integrityHash payload : Option Json) : Except StateError Json := do
  let timestamp ← member metadata "written_at"
  let contentType ← member metadata "content_type"
  let ttlSeconds ← member metadata "ttl_seconds"
  let tags ← member metadata "tags"
  let payloadVersion ← member payload "v"
  let algo ← member payload "alg"
  let nonce ← member payload "iv"
  let tag ← payloadAuthTag env payload
  let ciphertext ← member payload "ct"
  let encryptedAt ← member payload "ts"
  return objectOf
    [("namespace",some (.str p.namespaceName)),("key",some (.str p.key)),("version",version),
      ("kid",kid),
      ("metadata",some (objectOf [("timestamp",timestamp),("schema_version",some (.num schemaVersion)),
        ("content_type",contentType),("ttl_seconds",ttlSeconds),("tags",tags)])),
      ("provenance_stamp",provenanceStamp),("integrity_hash",integrityHash),
      ("payload",some (objectOf [("schema_version",payloadVersion),("algo",algo),("nonce",nonce),
        ("tag",some (.str tag)),("ciphertext",ciphertext),("encrypted_at",encryptedAt)]))]

def schemaMismatch {α : Type} (message : String) : Except StateError α :=
  .error (.verification .schemaMismatch message none)

/-- The schema version and the envelope of an entry whose envelope says what the entry does. -/
def validateSignedEnvelope (entry : Json) : Except StateError (Int × Json) :=
  match field entry "envelope" with
  | none => schemaMismatch s!"State envelope is missing for {versionKey p}"
  | some envelope =>
    if !isTruthy (some envelope) then schemaMismatch s!"State envelope is missing for {versionKey p}"
    else
      match field entry "v" with
      | some (.num v) =>
        if v≠2 ∧ v≠3 then
          schemaMismatch s!"Unsupported state envelope schema: {env.describeUntrusted (some (.num v))}"
        else if v=2 ∧ (field entry "provenance_stamp").isSome then
          schemaMismatch s!"Legacy state envelope schema 2 cannot carry provenance for {versionKey p}"
        else if v=3 ∧ (field entry "provenance_stamp").isNone then
          schemaMismatch s!"State envelope schema 3 is missing provenance for {versionKey p}"
        else do
          let expected ← buildSignedEnvelope env p (field entry "ver") (field entry "kid") v
            (field entry "metadata") (field entry "provenance_stamp") (field entry "integrity_hash")
            (field entry "payload")
          if envelope.canonicalText=expected.canonicalText then return (v,envelope)
          else schemaMismatch s!"State envelope metadata mismatch for {versionKey p}"
      | v => schemaMismatch s!"Unsupported state envelope schema: {env.describeUntrusted v}"

def verifyStateEntrySignatures (publicKeys : List (List UInt8))
    (envelope : Option (List UInt8 × List UInt8)) (legacyCiphertext legacySignature : List UInt8) : Bool :=
  publicKeys.any fun key =>
    (envelope.all fun signed => env.verify signed.1 signed.2 key) &&
      env.verify legacyCiphertext legacySignature key

/-- The text of `payload.ct`. -/
def ciphertextOf (entry : Json) : Except StateError (List UInt8) := do
  let ct ← member (field entry "payload") "ct"
  let text ← textOf ct
  return fromBase64url env text

def verifyLegacySignature (entry : Json) (publicKeys : List (List UInt8)) :
    Except StateError Bool :=
  if publicKeys=[] then .ok false
  else do
    let legacyCiphertext ← ciphertextOf env entry
    let legacySignature ← textOf (field entry "sig")
    if verifyStateEntrySignatures env publicKeys none legacyCiphertext (fromBase64url env legacySignature) then
      return true
    else
      .error (.verification .signatureMismatch
        s!"Legacy state signature verification failed for {versionKey p}" none)

def verifyEnvelopeSignature (entry : Json) (publicKeys : List (List UInt8)) :
    Except StateError Bool :=
  if publicKeys=[] then
    let kid := env.describeUntrusted (field entry "kid")
    .error (.verification .kidUnknown s!"Writer key not found for {kid}" none)
  else do
    let (schemaVersion,envelope) ← validateSignedEnvelope env p entry
    if !isTruthy (field entry "envelope_sig") then
      schemaMismatch s!"State envelope signature is missing for {versionKey p}"
    else
      match field entry "sig" with
      | some (.str sig) => do
        let envelopeSig ← textOf (field entry "envelope_sig")
        let legacyCiphertext ← ciphertextOf env entry
        if verifyStateEntrySignatures env publicKeys
            (some (stateEnvelopeSigningBytes schemaVersion envelope,fromBase64url env envelopeSig))
            legacyCiphertext (fromBase64url env sig) then
          return true
        else
          .error (.verification .signatureMismatch
            s!"Signature verification failed for state envelope {versionKey p}" none)
      | _ => schemaMismatch s!"State envelope legacy ciphertext signature is missing for {versionKey p}"

def candidateKeys (entry : Json) (signerPublicKey : Option (List UInt8)) : StateM (List (List UInt8)) :=
  match signerPublicKey with
  | some key => return [key]
  | none => resolveWriterPublicKeys env (field entry "kid")

def verifyEntryWithKeys (entry : Json) (publicKeys : List (List UInt8)) :
    Except StateError Bool :=
  if isLegacyEntry entry then verifyLegacySignature env p entry publicKeys
  else if isNum 2 (field entry "v") || isNum 3 (field entry "v") then
    verifyEnvelopeSignature env p entry publicKeys
  else
    let v := env.describeUntrusted (field entry "v")
    schemaMismatch s!"Unsupported state envelope schema: {v}"

def verifyEntrySignature (entry : Json) (signerPublicKey : Option (List UInt8)) :
    StateM Bool := do
  let publicKeys ← candidateKeys env entry signerPublicKey
  Effect.ofExcept (verifyEntryWithKeys env p entry publicKeys)

def decrypt (payload : Option Json) : Except StateError (List UInt8) := do
  let v ← member payload "v"
  let alg ← member payload "alg"
  if !isNum 1 v then .error .unsupportedPayload
  else if !isStr "aes-256-gcm" alg then .error .unsupportedPayload
  else do
    let iv ← member payload "iv"
    let ivText ← textOf iv
    let ct ← member payload "ct"
    let ctText ← textOf ct
    match env.gcmOpen namespaceName (fromBase64url env ivText) (fromBase64url env ctText) with
    | some plaintext => return plaintext
    | none => .error .decryptionFailed

structure Signer where
  publicKey : List UInt8
  sign : List UInt8 → List UInt8

/-- The arguments of `write`, with the nonce, the times and the key it takes from outside. -/
structure WriteInput where
  address : Address
  (value identityId : String)
  signer : Signer
  contentType : Option String
  ttlSeconds : Option Int
  tags : Option (List String)
  provenance : Json
  iv : List UInt8
  (encryptedAt now : String)

namespace WriteInput

variable (w : WriteInput)

def plaintext : List UInt8 := utf8Bytes w.value

def ciphertext : List UInt8 := env.gcmSeal w.address.namespaceName w.iv w.plaintext

def payloadFields : List (String × Option Json) :=
  [("v",some (.num 1)),("alg",some (.str "aes-256-gcm")),("iv",some (.str (toBase64url w.iv))),
    ("ct",some (.str (toBase64url (w.ciphertext env)))),("ts",some (.str w.encryptedAt))]

/-- `encrypt`. -/
def payload : Json := objectOf (w.payloadFields env)

def metadata : Json :=
  objectOf [("content_type",w.contentType.map .str),("ttl_seconds",w.ttlSeconds.map .num),
    ("tags",w.tags.map fun tags => .arr (tags.map .str)),("schema_version",some (.num 3)),
    ("written_at",some (.str w.now))]

def integrityHash : String := env.hashToString w.plaintext

end WriteInput

variable (w : WriteInput)

def stateEntryFields (version stamp envelope : Json) : List (String × Option Json) :=
  [("v",some (.num 3)),("envelope",some envelope),("provenance_stamp",some stamp),
    ("payload",some (w.payload env)),("ver",some version),
    ("sig",some (.str (toBase64url (w.signer.sign (fromBase64url env (toBase64url (w.ciphertext env))))))),
    ("envelope_sig",some (.str (toBase64url (w.signer.sign (stateEnvelopeSigningBytes 3 envelope))))),
    ("kid",some (.str w.identityId)),("integrity_hash",some (.str (w.integrityHash env))),
    ("metadata",some w.metadata)]

def stateEntry (version stamp envelope : Json) : Json :=
  objectOf (stateEntryFields env w version stamp envelope)

/-- `Math.max(currentVersion, anchoredVersion) + 1`. -/
def nextVersion (current : Option Json) (anchored : Int) : Json :=
  match current with
  | none => .num (max 0 anchored+1)
  | some .null => .num (max 0 anchored+1)
  | some (.num n) => .num (max n anchored+1)
  | some v => env.bumpCoerced v anchored

structure WriteResult where
  version : Json
  (writtenAt integrityHash : String)

def mintStamp (version : Json) : StateM Json :=
  match env.mintStamp w.address w.identityId w.now version w.provenance with
  | some stamp => return stamp
  | none => .fail .provenanceRefused

def write : StateM WriteResult := do
  let pending ← hasInterruptedExitImport
  Effect.require (¬ pending=true)
    (.interruptedExitImportPending s!"state_write:{versionKey w.address}")
  Effect.require (isStorageNamespacePathComponent w.address.namespaceName=true)
    (.invalidStorageNamespace w.address.namespaceName)
  getNamespaceHashes w.address.namespaceName
  let s ← Effect.get
  let anchored ← getAnchoredVersion env w.address
  let version := nextVersion env (s.versionCache (versionKey w.address)) anchored
  let stamp ← mintStamp env w version
  let envelope ← Effect.ofExcept (buildSignedEnvelope env w.address (some version)
    (some (.str w.identityId)) 3 (some w.metadata) (some stamp) (some (.str (w.integrityHash env)))
    (some (w.payload env)))
  storageWrite w.address env.rawWriteAuthorized (stateEntry env w version stamp envelope)
  rememberWriterPublicKey env w.identityId w.signer.publicKey
  observeVersion env w.address (some version)
  Effect.modify (setVersion w.address (some version))
  getNamespaceHashes w.address.namespaceName
  return ⟨version,w.now,w.integrityHash env⟩

structure ReadResult where
  value : String
  version : Option Json
  signatureVerified : Bool
  (writtenAt writtenBy : Option Json)
  /-- The entry is of the first schema. -/
  legacyWarning : Bool

def rememberMigratedWriter (kid : Option Json) (identity : ResidentIdentity) : StateM Unit :=
  match kid with
  | some (.str kid) => rememberWriterPublicKey env kid identity.publicKey
  | _ => return ()

variable (p : Address)

/-- An entry of the first schema is signed again, under the second, by its resident writer. -/
def migrateLegacyEntryToSchema2 (entry : Json) : StateM Json := do
  let identity ← resolveStoredIdentity env (field entry "kid")
  match identity with
  | none => return entry
  | some identity =>
    let spread := match field entry "metadata" with
      | some (.obj fields) => fields
      | _ => []
    let metadata := Json.obj (Json.insertField "schema_version" (.num 2) spread)
    let envelope ← Effect.ofExcept (buildSignedEnvelope env p (field entry "ver") (field entry "kid") 2
      (some metadata) none (field entry "integrity_hash") (field entry "payload"))
    let fields := match entry with
      | .obj fields => fields
      | _ => []
    let migrated := Json.obj (Json.insertField "v" (.num 2) (Json.insertField "envelope" envelope
      (Json.insertField "envelope_sig"
        (.str (toBase64url (identity.sign (stateEnvelopeSigningBytes 2 envelope))))
        (Json.insertField "metadata" metadata fields))))
    storageWrite p env.rawWriteAuthorized migrated
    rememberMigratedWriter env (field entry "kid") identity
    return migrated

def checkIntegrityHash (entry : Json) (plaintext : List UInt8) : StateM Unit :=
  let stored := env.describeUntrusted (field entry "integrity_hash")
  Effect.require (isStr (env.hashToString plaintext) (field entry "integrity_hash")=true)
    (.verification .integrityHashMismatch
      (s!"Integrity hash mismatch for {versionKey p}: computed {env.hashToString plaintext}, " ++
        s!"stored {stored}") none)

def checkRollback (entry : Json) : StateM Unit := do
  let s ← Effect.get
  let cached := s.versionCache (versionKey p)
  Effect.require (¬ (cached.isSome=true ∧ less env (field entry "ver") cached=true))
    (.verification .rollbackDetected (rollbackMessage env p (field entry "ver") cached) none)
  assertLegacyEntryVersionCeiling env p entry

def checkVersionFloor (version : Option Json) (permitted : Bool) : StateM Unit :=
  if permitted then observeVersion env p version
  else do
    let _ ← assertNotBelowVersionFloor env p version
    return ()

def migrateIfPermitted (entry : Json) (permitted : Bool) : StateM Json :=
  if permitted && isLegacyEntry entry then migrateLegacyEntryToSchema2 env p entry else return entry

def settleRead (entry : Json) (verified permitted legacy : Bool) (value : String) :
    StateM ReadResult := do
  let entry ← migrateIfPermitted env p entry permitted
  getNamespaceHashes p.namespaceName
  checkVersionFloor env p (field entry "ver") permitted
  Effect.require (verified=true) (.verification .writerUnverified
    (s!"Writer could not be established for {versionKey p}: the enforcing read path returns a value " ++
      "only when signature verification succeeds") none)
  Effect.modify (setVersion p (field entry "ver"))
  let writtenAt ← Effect.ofExcept (member (field entry "metadata") "written_at")
  return ⟨value,field entry "ver",verified,writtenAt,field entry "kid",legacy⟩

def readEntry (signerPublicKey : Option (List UInt8)) (entry : Json) :
    StateM ReadResult := do
  checkRollback env p entry
  let verified ← verifyEntrySignature env p entry signerPublicKey
  let pending ← journalMaybePending
  Effect.require (isStorageNamespacePathComponent p.namespaceName=true)
    (.invalidStorageNamespace p.namespaceName)
  let plaintext ← Effect.ofExcept (decrypt env p.namespaceName (field entry "payload"))
  checkIntegrityHash env p entry plaintext
  settleRead env p entry verified (verified && !pending) (isLegacyEntry entry) (Ecma.textDecode plaintext)

def read (signerPublicKey : Option (List UInt8)) : StateM (Option ReadResult) := do
  let raw ← storageRead p
  match raw with
  | none => return none
  | some none => verificationError .schemaMismatch s!"Corrupted state entry: {versionKey p}"
  | some (some .null) => .fail .typeError
  | some (some entry) =>
    let result ← readEntry env p signerPublicKey entry
    return some result

def delete : StateM Bool := do
  let pending ← hasInterruptedExitImport
  Effect.require (¬ pending=true) (.interruptedExitImportPending s!"state_delete:{versionKey p}")
  getNamespaceHashes p.namespaceName
  let deleted ← storageDelete p
  Effect.modify (setVersion p none)
  return deleted

def reopen (s : Store) : Store := ⟨s.files,fun _ => none,[]⟩

end Env

end CastleWall.Cognitive.StateStore
