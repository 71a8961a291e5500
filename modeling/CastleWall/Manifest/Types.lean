import Mathlib.Data.List.Basic

/-! # Signed manifests

The persisted manifest of `manifest/verify.rs` and the loaded form of `manifest/store.rs`: the
signed document together with the bytes of the rule files it names. -/

namespace CastleWall.Manifest

structure ManifestRuleEntry where
  (ruleId file sha256 : String)

/-- The agent-origin descriptor; only the fields of the `uid` mode are read by admission. -/
structure AgentOrigin where
  mode : String
  agentUid : Option UInt32 := none
  gateUid : Option UInt32 := none
  systemUidAllowCeiling : UInt32

structure AllowlistManifest where
  schemaVersion : UInt32
  (fortressId issuedAt : String)
  generation : UInt64 := 0
  agentOrigin : Option AgentOrigin := none
  rules : List ManifestRuleEntry

structure ManifestSignature where
  (signatureScheme signingKeyId signatureB64url : String)

structure SignedManifest where
  manifest : AllowlistManifest
  signature : ManifestSignature

structure LoadedManifest where
  signed : SignedManifest
  ruleFiles : List (String × List UInt8)
  manifestSignatureB64url : String
  ruleCount : Nat

end CastleWall.Manifest
