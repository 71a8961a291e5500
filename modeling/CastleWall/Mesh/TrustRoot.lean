import CastleWall.Support.OrderedMap
import CastleWall.Support.Outcome
import CastleWall.Custody.EpochWitness

/-! # Certificates of the mesh

`mesh/trust-root.ts`: the fortress master signs the certificates of principals, and principals those of
nodes. Signatures are over the bytes of `mesh/canonical-json.ts`. -/

namespace CastleWall.Mesh

open Text Cognitive.StateStore Custody
open Outcome (require)

/-- The fields of a compiled policy that are compared with the payload that carries it. -/
structure PolicyHeader where
  agentId : String
  policyVersion : Int
  parentVersion : Option Int
  fortressId : String
deriving DecidableEq

structure MeshEnv where
  /-- Ed25519 `verify` of a signature, a message and a public key; `false` also where the library throws. -/
  verify : List UInt8 → List UInt8 → List UInt8 → Bool
  /-- Ed25519 `sign` of a message under a private key. -/
  sign : List UInt8 → List UInt8 → List UInt8
  sha256 : List UInt8 → List UInt8
  /-- `Date.parse`, in milliseconds; `none` is `NaN`. -/
  dateParse : String → Option Int
  /-- `none` when `decodePolicyBlob` throws. -/
  decodePolicyBlob : String → Option PolicyHeader

/-- Why a message is refused, one case for each `throw`. -/
inductive MeshRefusal where
  | unserializable
  | principalFortressMismatch
  | principalExpired
  | principalSignatureInvalid
  | certificateFortressMismatch
  | parentMasterMismatch
  | parentPrincipalIdMismatch
  | parentPrincipalKeyMismatch
  | certificateVersionUnsupported
  | certificateVersionWithoutExpiry
  | certificateExpiryWithoutVersion
  | certificateExpired
  | certificateSignatureInvalid
  | certificateMasterSignatureInvalid
  | reservedCapabilityBits
  | reservedNodeId
  | unknownProtocolVersion
  | envelopeFortressMismatch
  | payloadHashMismatch
  | unknownEmitter
  | unknownPrincipal
  | unknownIssuer
  | nodeSignatureInvalid
  | envelopePrincipalSignatureInvalid
  | reservedEventType
  | reservedExtensionKey
  | malformedPayload
  | rollbackDetected
  | orphanQuorumContext
  | missingRevokeAuthority
  | unwindowedQuorum
  | noGuardianRoster
  | malformedQuorumContext
  | quorumLifetimeTooLong
  | quorumFutureDated
  | quorumExpired
  | effectiveAtNotIso
  | effectiveAtBeforeWindow
  | effectiveAtAfterWindow
  | unknownGuardianKey
  | invalidThreshold
  | guardianCountMismatch
  | duplicateGuardianId
  | malformedGuardianKey
  | duplicateGuardianKey
  | rosterFortressMismatch
  | rosterSchemeUnknown
  | rosterVersionInvalid
  | rosterSignatureInvalid
  | quorumRosterVersionMismatch
  | quorumTooFew
  | quorumDuplicateGuardian
  | quorumUnknownGuardian
  | quorumKeyReused
  | quorumSignatureInvalid
  | revokeAfterReadmission
  | notKeyed
  | transportFailed
  | rotationWrongNode
  | rotationWrongMaster
deriving DecidableEq

mutual

def numbersSafe : Json → Bool
  | .num n => decide (n.natAbs ≤ 2 ^ 53 - 1)
  | .arr items => itemsSafe items
  | .obj fields => fieldsSafe fields
  | _ => true

def itemsSafe : List Json → Bool
  | [] => true
  | item::items => numbersSafe item && itemsSafe items

def fieldsSafe : List (String × Json) → Bool
  | [] => true
  | field::fields => numbersSafe field.2 && fieldsSafe fields

end

def canonicalizeToBytes (value : Json) : Except MeshRefusal (List UInt8) :=
  if numbersSafe value then .ok (utf8Bytes value.canonicalText) else .error .unserializable

theorem fieldsSafe_iff {fields : List (String × Json)} :
    fieldsSafe fields=true ↔ ∀ field∈fields, numbersSafe field.2=true := by
  induction fields with
  | nil => simp [fieldsSafe]
  | cons field fields ih => rw [fieldsSafe,Bool.and_eq_true,ih,List.forall_mem_cons]

theorem itemsSafe_iff {items : List Json} : itemsSafe items=true ↔ ∀ item∈items, numbersSafe item=true := by
  induction items with
  | nil => simp [itemsSafe]
  | cons item items ih => rw [itemsSafe,Bool.and_eq_true,ih,List.forall_mem_cons]

theorem mem_defined {fields : List (String × Option Json)} {field : String × Json} :
    field∈defined fields ↔ (field.1,some field.2)∈fields := by
  induction fields using defined.induct with
  | case1 => simp [defined]
  | case2 key value fields ih => simp [defined,ih,Prod.ext_iff]
  | case3 key fields ih => simp [defined,ih]

theorem numbersSafe_objectOf {fields : List (String × Option Json)} (h : (fields.map Prod.fst).Nodup) :
    numbersSafe (objectOf fields)=true ↔ ∀ key value, (key,some value)∈fields → numbersSafe value=true := by
  have hper := Json.ofFields_perm (nodup_keys_defined h)
  rw [objectOf,numbersSafe,fieldsSafe_iff]
  constructor
  · intro hsaf key value hmem
    exact hsaf (key,value) (hper.mem_iff.mpr (mem_defined.mpr hmem))
  · intro hsaf field hmem
    exact hsaf field.1 field.2 (mem_defined.mp (hper.mem_iff.mp hmem))

theorem canonicalizeToBytes_of_safe {value : Json} (h : numbersSafe value=true) :
    canonicalizeToBytes value=.ok (utf8Bytes value.canonicalText) := if_pos h

def MeshEnv.signed (env : MeshEnv) (signature : String) (message : List UInt8) (publicKey : String) : Bool :=
  env.verify (decodeBase64url signature) message (decodeBase64url publicKey)

structure FortressMasterPublicKey where
  (publicKey fortressId createdAt : String)
deriving DecidableEq

inductive PrincipalRole where
  | root
  | partner
  | associate

def PrincipalRole.text : PrincipalRole → String
  | .root => "root"
  | .partner => "partner"
  | .associate => "associate"

structure PrincipalCertificate where
  (principalId principalPubkey : String)
  role : PrincipalRole
  (fortressId issuedAt : String)
  expiresAt : Option String
  masterSignature : String

def PrincipalCertificate.body (cert : PrincipalCertificate) : Json :=
  objectOf [("principal_id",some (.str cert.principalId)),("principal_pubkey",some (.str cert.principalPubkey)),
    ("role",some (.str cert.role.text)),("fortress_id",some (.str cert.fortressId)),
    ("issued_at",some (.str cert.issuedAt)),("expires_at",cert.expiresAt.map .str)]

/-- A string that is there and not empty. -/
def truthy (s : Option String) : Option String := s.filter (· ≠ "")

section Verification

variable (env : MeshEnv) (nowMs : Int)

/-- The comparison with `NaN` is false: an expiry that does not parse does not expire. -/
def PrincipalCertificate.expired (cert : PrincipalCertificate) : Bool :=
  match (truthy cert.expiresAt).bind env.dateParse with
  | some expiresMs => decide (expiresMs < nowMs)
  | none => false

def verifyPrincipalCertificate (cert : PrincipalCertificate) (pinned : FortressMasterPublicKey) :
    Except MeshRefusal Unit := do
  require (cert.fortressId=pinned.fortressId) .principalFortressMismatch
  require (cert.expired env nowMs=false) .principalExpired
  let bytes ← canonicalizeToBytes cert.body
  require (env.signed cert.masterSignature bytes pinned.publicKey=true) .principalSignatureInvalid

end Verification

inductive NodeMode where
  | «local»
  | operatorCloud
  | sovereignTee
deriving DecidableEq

def NodeMode.text : NodeMode → String
  | .local => "local"
  | .operatorCloud => "operator_cloud"
  | .sovereignTee => "sovereign_tee"

structure ParentChain where
  (fortressMasterPubkey principalId principalPubkey : String)

structure NodeIdentityCertificate where
  certificateVersion : Option String
  (nodeId nodePubkey : String)
  nodeMode : NodeMode
  (fortressId joinedAt : String)
  expiresAt : Option String
  capabilities : Int
  parentChain : ParentChain
  teeAttestationHash : Option String
  principalSignature : String
  masterSignature : Option String
  (delegatedGrants attestationLineageChain : Option (List Json))

def ParentChain.value (chain : ParentChain) : Json :=
  objectOf [("fortress_master_pubkey",some (.str chain.fortressMasterPubkey)),
    ("principal_id",some (.str chain.principalId)),("principal_pubkey",some (.str chain.principalPubkey))]

def NodeIdentityCertificate.body (cert : NodeIdentityCertificate) : Json :=
  objectOf [("certificate_version",cert.certificateVersion.map .str),("node_id",some (.str cert.nodeId)),
    ("node_pubkey",some (.str cert.nodePubkey)),("node_mode",some (.str cert.nodeMode.text)),
    ("fortress_id",some (.str cert.fortressId)),("joined_at",some (.str cert.joinedAt)),
    ("expires_at",cert.expiresAt.map .str),("capabilities",some (.num cert.capabilities)),
    ("parent_chain",some cert.parentChain.value),("tee_attestation_hash",cert.teeAttestationHash.map .str),
    ("delegated_grants",some (.arr (cert.delegatedGrants.getD []))),
    ("attestation_lineage_chain",some (.arr (cert.attestationLineageChain.getD [])))]

/-- The bits outside the mask of the three that v0.1 allows, of the number as a 32-bit integer. -/
def hasReservedCapabilityBits (caps : Int) : Bool := decide (caps % 2 ^ 32 / 8≠0)

def nodeIdentityCertificateVersionExpiring : String := "sanctuary.v1.expiring-node-cert"

section Verification

variable (env : MeshEnv) (nowMs : Int)

def verifyNodeExpiry (cert : NodeIdentityCertificate) : Except MeshRefusal Unit := do
  if let some version := cert.certificateVersion then
    require (version=nodeIdentityCertificateVersionExpiring) .certificateVersionUnsupported
    require ((truthy cert.expiresAt).isSome) .certificateVersionWithoutExpiry
  if let some expiresAt := truthy cert.expiresAt then
    require (cert.certificateVersion=some nodeIdentityCertificateVersionExpiring) .certificateExpiryWithoutVersion
    match env.dateParse expiresAt with
    | none => .error .certificateExpired
    | some expiresMs => require (nowMs ≤ expiresMs) .certificateExpired

def verifyCertChain (cert : NodeIdentityCertificate) (principalCert : PrincipalCertificate)
    (pinned : FortressMasterPublicKey) : Except MeshRefusal Unit := do
  require (cert.fortressId=pinned.fortressId) .certificateFortressMismatch
  require (principalCert.fortressId=pinned.fortressId) .principalFortressMismatch
  require (cert.parentChain.fortressMasterPubkey=pinned.publicKey) .parentMasterMismatch
  require (cert.parentChain.principalId=principalCert.principalId) .parentPrincipalIdMismatch
  require (cert.parentChain.principalPubkey=principalCert.principalPubkey) .parentPrincipalKeyMismatch
  verifyPrincipalCertificate env nowMs principalCert pinned
  verifyNodeExpiry env nowMs cert
  let bytes ← canonicalizeToBytes cert.body
  require (env.signed cert.principalSignature bytes principalCert.principalPubkey=true)
    .certificateSignatureInvalid
  if let some masterSignature := truthy cert.masterSignature then
    require (env.signed masterSignature bytes pinned.publicKey=true) .certificateMasterSignatureInvalid

end Verification

end CastleWall.Mesh
