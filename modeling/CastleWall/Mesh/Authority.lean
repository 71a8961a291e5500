import CastleWall.Mesh.Revocation

/-! # The authority of a revoke

Every revoke a node admits, of its operator, from a broadcast or from a sync response, is authorized by a quorum of
its guardians, or by a principal whose certificate still stands. The last is a condition: no check of the code
asks whether the certificate of the emitting principal is current. -/

namespace CastleWall.Mesh

open Text Cognitive.StateStore Custody
open Outcome (require)
open IsoInstant (parseIsoInstantWithOffset)

/-- The certificate has not expired and is signed by the master of its fortress. -/
def PrincipalCertificate.Stands (env : MeshEnv) (nowMs : Int) (pinned : FortressMasterPublicKey)
    (cert : PrincipalCertificate) : Prop :=
  cert.fortressId=pinned.fortressId ∧ cert.expired env nowMs=false ∧
    ∃ bytes, canonicalizeToBytes cert.body=.ok bytes ∧ env.signed cert.masterSignature bytes pinned.publicKey=true

/-- The event is signed by a principal the node knows and whose certificate stands. -/
def PrincipalAuthorizes (env : MeshEnv) (nowMs : Int) (node : MeshNode) (rev : SignedEvent Payload) : Prop :=
  ∃ signature cert bytes, truthy rev.principalSignature=some signature ∧
    node.principalRoster.get rev.emitterPrincipal=some cert ∧ cert.Stands env nowMs node.pinnedMaster ∧
    canonicalizeToBytes rev.body=.ok bytes ∧ env.signed signature bytes cert.principalPubkey=true

/-- The window is at most 24 hours long; the clock of the node, or the time the revoke states, is within it, up to
five minutes before it. -/
def ParsedQuorumContext.Fresh (env : MeshEnv) (context : ParsedQuorumContext) (freshness : FreshnessMode) : Prop :=
  context.expiresAtMs - context.initiatedAtMs ≤ 24 * 60 * 60 * 1000 ∧
    match freshness with
    | .strict nowMs => context.initiatedAtMs - 5 * 60 * 1000 ≤ nowMs ∧ nowMs ≤ context.expiresAtMs
    | .syncAnchored _ effectiveAt =>
      ∃ effectiveMs, parseIsoInstantWithOffset env.dateParse effectiveAt=some effectiveMs ∧
        context.initiatedAtMs - 5 * 60 * 1000 ≤ effectiveMs ∧ effectiveMs ≤ context.expiresAtMs

/-- As many guardians as the roster asks for, no two of them with the same key, have signed this revoke of this
fortress in a window that is fresh. -/
def GuardiansAuthorize (env : MeshEnv) (node : MeshNode) (payload : NodeRevokePayload) (freshness : FreshnessMode) :
    Prop :=
  ∃ roster wire context bytes, ∃ signers : List GuardianIdentity,
    node.guardianRoster=some roster ∧ payload.quorumContext=some wire ∧
    parseGuardianRevokeQuorumContext env wire=.ok context ∧ context.Fresh env freshness ∧
    canonicalizeToBytes (buildGuardianRevokeQuorumInput context payload.nodeId payload.reason node.fortressId)=.ok bytes ∧
    (∀ g∈signers, g∈roster.guardians ∧ ∃ sig∈payload.quorumSignatures.getD [],
      sig.guardianPubkey=g.publicKey ∧ env.signed sig.signature bytes g.publicKey=true) ∧
    (signers.map GuardianIdentity.keyBytes).Nodup ∧ roster.m ≤ signers.length

def Mark.Authorized (env : MeshEnv) : Mark → Prop
  | .admittedRevoke nowMs before rev _ via =>
    PrincipalAuthorizes env nowMs before rev ∨
      ∃ payload, rev.payload.asRevoke=some payload ∧ GuardiansAuthorize env before payload (freshnessOf nowMs rev via)
  | _ => True

def SignsAs (env : MeshEnv) (privateKey : List UInt8) (publicKey : String) : Prop :=
  ∀ message, env.verify (env.sign message privateKey) message (decodeBase64url publicKey)=true

/-- The certificate the node holds of the principal that signed still passes its check, and the operator signed
with the key of that certificate. -/
def Mark.PrincipalStands (env : MeshEnv) : Mark → Prop
  | .admittedRevoke nowMs before rev _ via =>
    (truthy rev.principalSignature).isSome=true →
      ∃ cert, before.principalRoster.get rev.emitterPrincipal=some cert ∧
        verifyPrincipalCertificate env nowMs cert before.pinnedMaster=.ok () ∧
        (via=none → ∃ privateKey bytes, SignsAs env privateKey cert.principalPubkey ∧
          canonicalizeToBytes rev.body=.ok bytes ∧
          rev.principalSignature=some (toBase64url (env.sign bytes privateKey)))
  | _ => True

section Principal

variable {env : MeshEnv} {nowMs : Int} {node : MeshNode} {rev : SignedEvent Payload} {cert : PrincipalCertificate}

theorem verifyPrincipalCertificate_eq_ok {pinned : FortressMasterPublicKey} {u : Unit} :
    verifyPrincipalCertificate env nowMs cert pinned=.ok u ↔ cert.Stands env nowMs pinned := by
  simp only [verifyPrincipalCertificate,Outcome.require_bind_eq_ok,PrincipalCertificate.Stands]
  constructor
  · intro h
    obtain ⟨bytes,hbyt,hsig⟩ := Outcome.bind_ok h.2.2
    exact ⟨h.1,h.2.1,bytes,hbyt,Outcome.require_eq_ok.mp hsig⟩
  · rintro ⟨hfor,hexp,bytes,hbyt,hsig⟩
    refine ⟨hfor,hexp,?_⟩
    rw [hbyt]
    exact Outcome.require_eq_ok.mpr hsig

theorem signed_of_verifyOrThrow (h : (node.verifyOrThrow env nowMs rev).isOk=true) {signature : String}
    (hsig : truthy rev.principalSignature=some signature)
    (hcer : node.principalRoster.get rev.emitterPrincipal=some cert) :
    ∃ bytes, canonicalizeToBytes rev.body=.ok bytes ∧ env.signed signature bytes cert.principalPubkey=true := by
  unfold MeshNode.verifyOrThrow at h
  cases hver : verifySignedEvent env nowMs rev
    { pinnedMasterPubkey := node.pinnedMaster
      lookupNodeCert := node.roster.lookupActiveNodeCert
      lookupPrincipalCert := node.principalRoster.get } with
  | error refusal =>
    rw [hver] at h
    cases h
  | ok result =>
    obtain ⟨cert',bytes,hcer',hbyt,hsid⟩ := (verifySignedEvent_ok hver).2.2 signature hsig
    cases hcer.symm.trans hcer'
    exact ⟨bytes,hbyt,hsid⟩

theorem signed_of_signsAs {privateKey bytes : List UInt8} {signature : String}
    (hkey : SignsAs env privateKey cert.principalPubkey)
    (hpac : rev.principalSignature=some (toBase64url (env.sign bytes privateKey)))
    (hsig : truthy rev.principalSignature=some signature) :
    env.signed signature bytes cert.principalPubkey=true := by
  have heq : signature=toBase64url (env.sign bytes privateKey) := by
    rw [truthy,hpac,Option.filter_eq_some_iff] at hsig
    exact (Option.some.inj hsig.1).symm
  rw [heq,MeshEnv.signed,decodeBase64url_toBase64url]
  exact hkey bytes

end Principal

section Quorum

variable {env : MeshEnv} {node : MeshNode} {roster : GuardianRoster} {u : Unit}

theorem validateGuardians_nodup {guardians : List GuardianIdentity} {seen seenKeys : List String}
    (h : validateGuardians seen seenKeys guardians=.ok u) :
    (guardians.map GuardianIdentity.guardianId).Nodup ∧ ∀ g∈guardians, g.guardianId∉seen := by
  induction guardians generalizing seen seenKeys with
  | nil => simp
  | cons g guardians ih =>
    simp only [validateGuardians,Outcome.require_bind_eq_ok] at h
    obtain ⟨hfre,h⟩ := h
    obtain ⟨key,-,h⟩ := Outcome.bind_ok h
    simp only [Outcome.require_bind_eq_ok] at h
    have hres := ih h.2
    constructor
    · rw [List.map_cons,List.nodup_cons]
      refine ⟨?_,hres.1⟩
      intro hmem
      obtain ⟨other,hoth,hid⟩ := List.mem_map.mp hmem
      exact hres.2 other hoth (hid ▸ List.mem_cons_self)
    · rw [List.forall_mem_cons]
      refine ⟨hfre,?_⟩
      intro other hoth hmem
      exact hres.2 other hoth (List.mem_cons_of_mem _ hmem)

/-- Ids are distinct in a roster of the right shape: the way from a key to an id and back ends where it began. -/
theorem byId_guardianId {g other : GuardianIdentity} (hsha : validateRosterShape roster=.ok ())
    (hg : g∈roster.guardians) (hoth : roster.byId g.guardianId=some other) : other=g := by
  have hnod : (roster.guardians.map GuardianIdentity.guardianId).Nodup := by
    simp only [validateRosterShape,Outcome.require_bind_eq_ok] at hsha
    exact (validateGuardians_nodup hsha.2.2).1
  have hfou := mem_of_byId hoth
  exact List.inj_on_of_nodup_map hnod hfou.1 hg hfou.2

theorem guardianSignature_ok {sig : QuorumSignature} {signature : GuardianSignature}
    (h : MeshNode.guardianSignature roster sig=.ok signature) :
    ∃ g∈roster.guardians, g.publicKey=sig.guardianPubkey ∧ signature=⟨g.guardianId,sig.signature⟩ := by
  unfold MeshNode.guardianSignature at h
  obtain ⟨g,hg,h⟩ := Outcome.bind_ok h
  cases h
  have hfind := orRefuse_eq_ok.mp hg
  exact ⟨g,List.mem_of_find?_eq_some hfind,by simpa using List.find?_some hfind,rfl⟩

theorem assertQuorumContextFresh_ok {context : ParsedQuorumContext} {freshness : FreshnessMode}
    (h : assertQuorumContextFresh env context freshness=.ok u) : context.Fresh env freshness := by
  unfold assertQuorumContextFresh at h
  rw [Outcome.require_bind_eq_ok] at h
  refine ⟨h.1,?_⟩
  cases freshness with
  | strict nowMs =>
    have hwin := h.2
    simp only [Outcome.require_bind_eq_ok,Outcome.require_eq_ok] at hwin
    exact ⟨Int.sub_right_le_of_le_add hwin.1,hwin.2⟩
  | syncAnchored nowMs effectiveAt =>
    obtain ⟨effectiveMs,heff,hwin⟩ := Outcome.bind_ok h.2
    simp only [Outcome.require_bind_eq_ok,Outcome.require_eq_ok] at hwin
    exact ⟨effectiveMs,orRefuse_eq_ok.mp heff,hwin.1,hwin.2⟩

theorem guardiansAuthorize_of_ok {payload : NodeRevokePayload} {freshness : FreshnessMode}
    (h : node.assertNodeRevokePayloadQuorumAuthorized env payload freshness=.ok u) :
    GuardiansAuthorize env node payload freshness := by
  simp only [MeshNode.assertNodeRevokePayloadQuorumAuthorized,Outcome.require_bind_eq_ok] at h
  obtain ⟨wire,hwir,h⟩ := Outcome.bind_ok h.2
  obtain ⟨roster,hros,h⟩ := Outcome.bind_ok h
  obtain ⟨context,hcon,h⟩ := Outcome.bind_ok h
  obtain ⟨_,hfre,h⟩ := Outcome.bind_ok h
  obtain ⟨signatures,hsis,h⟩ := Outcome.bind_ok h
  have hsha : validateRosterShape roster=.ok () := by
    unfold verifyGuardianQuorum at h
    obtain ⟨_,hsha,-⟩ := Outcome.bind_ok h
    exact hsha
  obtain ⟨bytes,signers,hbyt,hsid,hm⟩ := verifyGuardianQuorum_ok h
  refine ⟨roster,wire,context,bytes,signers,orRefuse_eq_ok.mp hros,orRefuse_eq_ok.mp hwir,hcon,
    assertQuorumContextFresh_ok hfre,hbyt,?_,hsid.distinct,hm⟩
  intro g hg
  refine ⟨hsid.inRoster g hg,?_⟩
  obtain ⟨signature,hmem,hbyI,hver⟩ := hsid.signed g hg
  obtain ⟨sig,hsig,hmap⟩ := Outcome.mem_of_mapM_ok hsis hmem
  obtain ⟨holder,hhol,hkey,rfl⟩ := guardianSignature_ok hmap
  have heq : g=holder := byId_guardianId hsha hhol hbyI
  exact ⟨sig,hsig,by rw [heq,hkey],hver⟩

end Quorum

theorem assertNodeRevokeAuthorized_ok {env : MeshEnv} {node : MeshNode} {rev : SignedEvent Payload}
    {freshness : FreshnessMode} {u : Unit} (h : node.assertNodeRevokeAuthorized env rev freshness=.ok u)
    (huns : truthy rev.principalSignature=none) :
    ∃ payload, rev.payload.asRevoke=some payload ∧ GuardiansAuthorize env node payload freshness := by
  simp only [MeshNode.assertNodeRevokeAuthorized,Outcome.require_bind_eq_ok,huns,Option.isSome_none,
    Bool.false_eq_true,if_false] at h
  cases hpay : rev.payload.asRevoke with
  | none =>
    rw [hpay] at h
    cases h.2
  | some payload =>
    rw [hpay] at h
    exact ⟨payload,rfl,guardiansAuthorize_of_ok h.2⟩

variable {m : Mark}

theorem Mark.Sound.authorized {env : MeshEnv} (h : m.Sound env) (hsta : m.PrincipalStands env) :
    m.Authorized env := by
  cases m with
  | delivered => trivial
  | accepted => trivial
  | tabled => trivial
  | admittedRevoke nowMs before rev freshness via =>
    obtain ⟨haut,rfl,hver⟩ := h
    cases hsig : truthy rev.principalSignature with
    | none => exact .inr (assertNodeRevokeAuthorized_ok haut hsig)
    | some signature =>
      obtain ⟨cert,hcer,hves,hloc⟩ := hsta (by rw [hsig]; rfl)
      have hval := verifyPrincipalCertificate_eq_ok.mp hves
      cases via with
      | none =>
        obtain ⟨privateKey,bytes,hkey,hbyt,hpac⟩ := hloc rfl
        have hsid := signed_of_signsAs hkey hpac hsig
        exact .inl ⟨signature,cert,bytes,hsig,hcer,hval,hbyt,hsid⟩
      | some channel =>
        obtain ⟨bytes,hbyt,hsid⟩ := signed_of_verifyOrThrow (hver rfl) hsig hcer
        exact .inl ⟨signature,cert,bytes,hsig,hcer,hval,hbyt,hsid⟩

/-- In a run in which the principals that sign revokes stand, every revoke that is admitted is authorized. -/
theorem admitted_revokes_authorized (env : MeshEnv) (node : MeshNode) (inputs : List MeshNode.Input)
    (hstands : ∀ m∈(node.run env inputs).2, m.PrincipalStands env) :
    ∀ m∈(node.run env inputs).2, m.Authorized env := by
  intro m hm
  exact (run_sound m hm).authorized (hstands m hm)

/-- What speaks against a mark: no guardians are pinned, and the certificate of the signing principal fails. -/
def Mark.outdated (env : MeshEnv) : Mark → Bool
  | .admittedRevoke nowMs before rev _ _ =>
    before.guardianRoster.isNone && (before.principalRoster.get rev.emitterPrincipal).all fun cert =>
      !(verifyPrincipalCertificate env nowMs cert before.pinnedMaster).isOk
  | _ => false

/-- What speaks for one: it came from a peer, and the certificate of the signing principal passes. -/
def Mark.current (env : MeshEnv) : Mark → Bool
  | .admittedRevoke nowMs before rev _ via =>
    via.isSome && (before.principalRoster.get rev.emitterPrincipal).any fun cert =>
      (verifyPrincipalCertificate env nowMs cert before.pinnedMaster).isOk
  | _ => true

theorem principalStands_of_current {env : MeshEnv} (h : m.current env=true) : m.PrincipalStands env := by
  cases m with
  | delivered => trivial
  | accepted => trivial
  | tabled => trivial
  | admittedRevoke nowMs before rev freshness via =>
    simp only [Mark.current,Bool.and_eq_true,Option.any_eq_true] at h
    obtain ⟨hpee,cert,hcer,hok⟩ := h
    intro hsig
    refine ⟨cert,hcer,?_,?_⟩
    · cases hver : verifyPrincipalCertificate env nowMs cert before.pinnedMaster with
      | error refusal =>
        rw [hver] at hok
        cases hok
      | ok u => rfl
    · intro hloc
      rw [hloc] at hpee
      cases hpee

theorem not_authorized_of_outdated {env : MeshEnv} (h : m.outdated env=true) : ¬ m.Authorized env := by
  cases m with
  | delivered => cases h
  | accepted => cases h
  | tabled => cases h
  | admittedRevoke nowMs before rev freshness via =>
    simp only [Mark.outdated,Bool.and_eq_true,Option.isNone_iff_eq_none] at h
    intro haut
    cases haut with
    | inl hpri =>
      obtain ⟨signature,cert,bytes,-,hcer,hval,-⟩ := hpri
      have hver : verifyPrincipalCertificate env nowMs cert before.pinnedMaster=.ok () :=
        verifyPrincipalCertificate_eq_ok.mpr hval
      rw [hcer,Option.all_some,hver] at h
      cases h.2
    | inr hgua =>
      obtain ⟨payload,-,roster,wire,context,bytes,signers,hros,-⟩ := hgua
      rw [h.1] at hros
      cases hros

namespace Sample

def rotatedMaster : FortressMasterPublicKey := ⟨"Bw","f-1","2026-02-01T00:00:00.000Z"⟩

def rotatedRoot : PrincipalCertificate := { root with masterSignature := rotatedMaster.publicKey }

def partner : PrincipalCertificate := { root with principalId := "partner", principalPubkey := "CA", role := .partner }

def reissued (nodeId nodePubkey : String) : NodeIdentityCertificate :=
  { certificate nodeId nodePubkey with parentChain := ⟨rotatedMaster.publicKey,root.principalId,root.principalPubkey⟩ }

def revokeBy (principal : PrincipalCertificate) : SignedEvent Payload :=
  { event "peer" "Aw" "node_revoke" 1 (.nodeRevoke ⟨"lost","stolen","2026-02-01T00:00:00.000Z",none,none⟩) with
    emitterPrincipal := principal.principalId
    principalSignature := some principal.principalPubkey }

def rotation : List MeshNode.Input :=
  [.registerPrincipal partner,.installMasterRotation 1 rotatedMaster (reissued "self" "Ag") rotatedRoot,
    .admitPeerCertificate 2 (reissued "peer" "Aw") rotatedRoot,.broadcast 3 (revokeBy partner)]

theorem revokes_admitted :
    (∃ m∈(node.run env [.broadcast 1 (revokeBy root)]).2, m.Revokes "lost") ∧
    (∀ m∈(node.run env [.broadcast 1 (revokeBy root)]).2, m.current env=true) ∧
    ∃ m∈(node.run env rotation).2, m.outdated env=true := by
  decide +kernel

end Sample

theorem admitted_revokes_authorized_root :
    (∃ m∈(Sample.node.run Sample.env [.broadcast 1 (Sample.revokeBy Sample.root)]).2, m.Revokes "lost") ∧
      ∀ m∈(Sample.node.run Sample.env [.broadcast 1 (Sample.revokeBy Sample.root)]).2, m.Authorized Sample.env := by
  obtain ⟨hrev,hcur,-⟩ := Sample.revokes_admitted
  exact ⟨hrev,
    admitted_revokes_authorized Sample.env Sample.node _ fun m hm => principalStands_of_current (hcur m hm)⟩

theorem outdated_principal_revokes :
    ¬ ∀ m∈(Sample.node.run Sample.env Sample.rotation).2, m.Authorized Sample.env := by
  intro h
  obtain ⟨m,hm,hout⟩ := Sample.revokes_admitted.2.2
  exact not_authorized_of_outdated hout (h m hm)

end CastleWall.Mesh
