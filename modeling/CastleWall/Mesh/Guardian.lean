import CastleWall.Mesh.Envelope
import CastleWall.Support.IsoInstant

/-! # Guardian quorums

`mesh/guardian/guardian-roster.ts` and `mesh/guardian/revoke-quorum-input.ts`: the roster of guardians the
fortress master signs, the quorum of their signatures, and the window a quorum was collected in. -/

namespace CastleWall.Mesh

open Text Cognitive.StateStore Custody
open Outcome (require)
open IsoInstant (parseIsoInstantWithOffset)

structure GuardianIdentity where
  (guardianId publicKey kind invitedAt : String)
deriving DecidableEq

structure GuardianRoster where
  (m n : Int)
  guardians : List GuardianIdentity
  signatureScheme : String
  version : Int
  (createdAt fortressId masterSignature : String)
deriving DecidableEq

def ed25519PublicKeyBytes : Nat := 32

def canonicalGuardianKey (publicKey : String) : Except MeshRefusal String := do
  let decoded := decodeBase64url publicKey
  require (decoded.length=ed25519PublicKeyBytes) .malformedGuardianKey
  require (toBase64url decoded=publicKey) .malformedGuardianKey
  return toBase64url decoded

def validateGuardians (seen seenKeys : List String) : List GuardianIdentity → Except MeshRefusal Unit
  | [] => .ok ()
  | g::guardians => do
    require (g.guardianId∉seen) .duplicateGuardianId
    let canonicalKey ← canonicalGuardianKey g.publicKey
    require (canonicalKey∉seenKeys) .duplicateGuardianKey
    validateGuardians (g.guardianId::seen) (canonicalKey::seenKeys) guardians

def validateRosterShape (roster : GuardianRoster) : Except MeshRefusal Unit := do
  require (1 ≤ roster.m ∧ 1 ≤ roster.n ∧ roster.m ≤ roster.n) .invalidThreshold
  require ((roster.guardians.length : Int)=roster.n) .guardianCountMismatch
  validateGuardians [] [] roster.guardians

def GuardianIdentity.value (g : GuardianIdentity) : Json :=
  objectOf [("guardian_id",some (.str g.guardianId)),("public_key",some (.str g.publicKey)),
    ("kind",some (.str g.kind)),("invited_at",some (.str g.invitedAt))]

def GuardianRoster.body (roster : GuardianRoster) : Json :=
  objectOf [("m",some (.num roster.m)),("n",some (.num roster.n)),
    ("guardians",some (.arr (roster.guardians.map (·.value)))),
    ("signature_scheme",some (.str roster.signatureScheme)),("version",some (.num roster.version)),
    ("created_at",some (.str roster.createdAt)),("fortress_id",some (.str roster.fortressId))]

def signatureSchemeV1 : String := "ed25519-v1"

variable (env : MeshEnv)

def verifyGuardianRoster (roster : GuardianRoster) (pinned : FortressMasterPublicKey) :
    Except MeshRefusal Unit := do
  validateRosterShape roster
  require (roster.fortressId=pinned.fortressId) .rosterFortressMismatch
  require (roster.signatureScheme=signatureSchemeV1) .rosterSchemeUnknown
  require (1 ≤ roster.version) .rosterVersionInvalid
  let bytes ← canonicalizeToBytes roster.body
  require (env.signed roster.masterSignature bytes pinned.publicKey=true) .rosterSignatureInvalid

structure GuardianSignature where
  (guardianId signature : String)

structure GuardianQuorumProof where
  rosterVersion : Int
  signatures : List GuardianSignature

def GuardianRoster.byId (roster : GuardianRoster) (guardianId : String) : Option GuardianIdentity :=
  roster.guardians.reverse.find? fun g => g.guardianId=guardianId

/-- The number of signatures, each by a guardian of the roster whose id and key come up once. -/
def countSignatures (env : MeshEnv) (roster : GuardianRoster) (signedBytes : List UInt8) (seen seenKeys : List String)
    (validCount : Nat) : List GuardianSignature → Except MeshRefusal Nat
  | [] => .ok validCount
  | sig::signatures => do
    require (sig.guardianId∉seen) .quorumDuplicateGuardian
    let guardian ← orRefuse (roster.byId sig.guardianId) .quorumUnknownGuardian
    let quorumKey ← canonicalGuardianKey guardian.publicKey
    require (quorumKey∉seenKeys) .quorumKeyReused
    require (env.signed sig.signature signedBytes guardian.publicKey=true) .quorumSignatureInvalid
    countSignatures env roster signedBytes (sig.guardianId::seen) (quorumKey::seenKeys) (validCount+1) signatures

def verifyGuardianQuorum (input : Json) (proof : GuardianQuorumProof) (roster : GuardianRoster) :
    Except MeshRefusal Unit := do
  validateRosterShape roster
  require (proof.rosterVersion=roster.version) .quorumRosterVersionMismatch
  require (roster.m ≤ proof.signatures.length) .quorumTooFew
  let signedBytes ← canonicalizeToBytes input
  let validCount ← countSignatures env roster signedBytes [] [] 0 proof.signatures
  require (roster.m ≤ validCount) .quorumTooFew

theorem canonicalGuardianKey_ok {publicKey canonical : String} (h : canonicalGuardianKey publicKey=.ok canonical) :
    canonical=publicKey ∧ toBase64url (decodeBase64url publicKey)=publicKey := by
  simp only [canonicalGuardianKey,Outcome.require_bind_eq_ok] at h
  obtain ⟨-,hcan,h⟩ := h
  cases h
  exact ⟨hcan,hcan⟩

variable {roster : GuardianRoster}

theorem mem_of_byId {guardianId : String} {g : GuardianIdentity}
    (h : roster.byId guardianId=some g) : g∈roster.guardians ∧ g.guardianId=guardianId := by
  refine ⟨List.mem_reverse.mp (List.mem_of_find?_eq_some h),?_⟩
  simpa using List.find?_some h

def GuardianIdentity.keyBytes (g : GuardianIdentity) : List UInt8 := decodeBase64url g.publicKey

/-- Guardians of the roster, no two with the same key, each with a signature of the list over the bytes. -/
structure SignedBy (env : MeshEnv) (roster : GuardianRoster) (message : List UInt8) (signatures : List GuardianSignature)
    (signers : List GuardianIdentity) : Prop where
  inRoster : ∀ g∈signers, g∈roster.guardians
  canonical : ∀ g∈signers, toBase64url g.keyBytes=g.publicKey
  distinct : (signers.map GuardianIdentity.keyBytes).Nodup
  signed : ∀ g∈signers, ∃ sig∈signatures, roster.byId sig.guardianId=some g ∧
    env.signed sig.signature message g.publicKey=true

/-- Keys that were seen are those of earlier signers, so the signers of the rest have other keys. -/
theorem countSignatures_ok {env : MeshEnv} {message : List UInt8}
    {signatures : List GuardianSignature} {seen seenKeys : List String} {before count : Nat}
    (h : countSignatures env roster message seen seenKeys before signatures=.ok count) :
    ∃ signers, SignedBy env roster message signatures signers ∧ before+signers.length=count ∧
      ∀ g∈signers, g.publicKey∉seenKeys := by
  induction signatures generalizing seen seenKeys before with
  | nil =>
    cases h
    exact ⟨[],⟨by simp,by simp,by simp,by simp⟩,rfl,by simp⟩
  | cons sig signatures ih =>
    simp only [countSignatures,Outcome.require_bind_eq_ok] at h
    obtain ⟨-,h⟩ := h
    obtain ⟨guardian,hgua,h⟩ := Outcome.bind_ok h
    obtain ⟨key,hkey,h⟩ := Outcome.bind_ok h
    simp only [Outcome.require_bind_eq_ok] at h
    obtain ⟨hfre,hsig,h⟩ := h
    obtain ⟨rfl,hcan⟩ := canonicalGuardianKey_ok hkey
    have hbyI := orRefuse_eq_ok.mp hgua
    obtain ⟨signers,hsis,hcou,huns⟩ := ih h
    refine ⟨guardian::signers,⟨?_,?_,?_,?_⟩,?_,?_⟩
    · rw [List.forall_mem_cons]
      exact ⟨(mem_of_byId hbyI).1,hsis.inRoster⟩
    · rw [List.forall_mem_cons]
      exact ⟨hcan,hsis.canonical⟩
    · rw [List.map_cons,List.nodup_cons]
      refine ⟨?_,hsis.distinct⟩
      intro hmem
      obtain ⟨g,hg,hbyt⟩ := List.mem_map.mp hmem
      -- equal bytes have one canonical spelling
      have hspe : g.publicKey=guardian.publicKey := by
        rw [← hsis.canonical g hg,hbyt,GuardianIdentity.keyBytes,hcan]
      exact huns g hg (hspe ▸ List.mem_cons_self)
    · rw [List.forall_mem_cons]
      refine ⟨⟨sig,List.mem_cons_self,hbyI,hsig⟩,?_⟩
      intro g hg
      obtain ⟨other,hoth,hby⟩ := hsis.signed g hg
      exact ⟨other,List.mem_cons_of_mem sig hoth,hby⟩
    · rw [List.length_cons]
      omega
    · rw [List.forall_mem_cons]
      refine ⟨hfre,?_⟩
      intro g hg hmem
      exact huns g hg (List.mem_cons_of_mem _ hmem)

/-- A quorum that verifies is signed by at least `m` guardians of the roster whose keys differ. -/
theorem verifyGuardianQuorum_ok {env : MeshEnv} {input : Json} {proof : GuardianQuorumProof} {u : Unit} (h : verifyGuardianQuorum env input proof roster=.ok u) :
    ∃ bytes signers, canonicalizeToBytes input=.ok bytes ∧
      SignedBy env roster bytes proof.signatures signers ∧ roster.m ≤ signers.length := by
  unfold verifyGuardianQuorum at h
  obtain ⟨-,-,h⟩ := Outcome.bind_ok h
  simp only [Outcome.require_bind_eq_ok] at h
  obtain ⟨-,-,h⟩ := h
  obtain ⟨bytes,hbyt,h⟩ := Outcome.bind_ok h
  obtain ⟨count,hcou,h⟩ := Outcome.bind_ok h
  obtain ⟨signers,hsig,rfl,-⟩ := countSignatures_ok hcou
  have hm := Outcome.require_eq_ok.mp h
  rw [Nat.zero_add] at hm
  exact ⟨bytes,signers,hbyt,hsig,hm⟩

def guardianRevokeQuorumSchemaV2 : String := "sanctuary.guardian-revoke-quorum.v2"

def revokeQuorumMaxLifetimeMs : Int := 24 * 3600000

def revokeQuorumClockSkewMs : Int := 5 * 60 * 1000

structure ParsedQuorumContext where
  (inputSchema ceremonyId initiatedAt expiresAt : String)
  (initiatedAtMs expiresAtMs : Int)

def isCeremonyId (s : String) : Bool :=
  decide (s.toList.length=32) && s.toList.all fun c => c ∈ "0123456789abcdef".toList

def parseGuardianRevokeQuorumContext (raw : QuorumContextWire) :
    Except MeshRefusal ParsedQuorumContext := do
  require (raw.inputSchema=guardianRevokeQuorumSchemaV2) .malformedQuorumContext
  require (isCeremonyId raw.ceremonyId=true) .malformedQuorumContext
  let initiatedAtMs ← orRefuse (parseIsoInstantWithOffset env.dateParse raw.initiatedAt) .malformedQuorumContext
  let expiresAtMs ← orRefuse (parseIsoInstantWithOffset env.dateParse raw.expiresAt) .malformedQuorumContext
  require (initiatedAtMs < expiresAtMs) .malformedQuorumContext
  return { inputSchema := raw.inputSchema, ceremonyId := raw.ceremonyId, initiatedAt := raw.initiatedAt
           expiresAt := raw.expiresAt, initiatedAtMs, expiresAtMs }

inductive FreshnessMode where
  | strict (nowMs : Int)
  | syncAnchored (nowMs : Int) (effectiveAt : String)

def assertQuorumContextFresh (context : ParsedQuorumContext) (freshness : FreshnessMode) :
    Except MeshRefusal Unit := do
  require (context.expiresAtMs - context.initiatedAtMs ≤ revokeQuorumMaxLifetimeMs) .quorumLifetimeTooLong
  match freshness with
  | .strict nowMs =>
    require (context.initiatedAtMs ≤ nowMs+revokeQuorumClockSkewMs) .quorumFutureDated
    require (nowMs ≤ context.expiresAtMs) .quorumExpired
  | .syncAnchored _ effectiveAt =>
    let effectiveMs ← orRefuse (parseIsoInstantWithOffset env.dateParse effectiveAt) .effectiveAtNotIso
    require (context.initiatedAtMs - revokeQuorumClockSkewMs ≤ effectiveMs) .effectiveAtBeforeWindow
    require (effectiveMs ≤ context.expiresAtMs) .effectiveAtAfterWindow

def buildGuardianRevokeQuorumInput (context : ParsedQuorumContext) (targetNodeId reason fortressId : String) : Json :=
  objectOf [("schema",some (.str guardianRevokeQuorumSchemaV2)),("fortress_id",some (.str fortressId)),
    ("target_node_id",some (.str targetNodeId)),("reason",some (.str reason)),
    ("ceremony_id",some (.str context.ceremonyId)),("initiated_at",some (.str context.initiatedAt)),
    ("expires_at",some (.str context.expiresAt))]

def hexByte (b : UInt8) : List Char := [Json.hexChar (b.toNat / 16),Json.hexChar (b.toNat % 16)]

def quorumAuthorizationKey (targetNodeId ceremonyId : String) : String := "q:" ++ targetNodeId ++ ":" ++ ceremonyId

/-- The decoded bytes of a principal's signature stand for it, whatever their spelling. -/
def principalAuthorizationKey (targetNodeId principalSignature : String) : String :=
  "p:" ++ targetNodeId ++ ":" ++
    String.ofList ((env.sha256 (decodeBase64url principalSignature)).flatMap hexByte)

end CastleWall.Mesh
