import CastleWall.Mesh.MasterRotation

/-! # What a rotation installs

A rotation changes a node only when both of its halves were delivered and the broadcast carries a quorum that is
fresh at that moment. -/

namespace CastleWall.Mesh

open Text Cognitive.StateStore Custody
open Outcome (require)

/-- Of a master only the key and the fortress are looked at. -/
theorem verifyCertChain_congr {env : MeshEnv} {nowMs : Int} {cert : NodeIdentityCertificate}
    {principalCert : PrincipalCertificate} {master master' : FortressMasterPublicKey}
    (hkey : master.publicKey=master'.publicKey) (hfor : master.fortressId=master'.fortressId) :
    verifyCertChain env nowMs cert principalCert master=verifyCertChain env nowMs cert principalCert master' := by
  simp only [verifyCertChain,verifyPrincipalCertificate,hkey,hfor]

theorem verifyCertChain_master {env : MeshEnv} {nowMs : Int} {cert : NodeIdentityCertificate}
    {principalCert : PrincipalCertificate} {master : FortressMasterPublicKey} {u : Unit}
    (h : verifyCertChain env nowMs cert principalCert master=.ok u) :
    cert.parentChain.fortressMasterPubkey=master.publicKey := by
  simp only [verifyCertChain,Outcome.require_bind_eq_ok] at h
  exact h.2.2.1

/-- The certificates of the bundle chain to the master it names, and its secret is that master's. -/
def MasterRotationBundlePlaintext.Coherent (bundle : MasterRotationBundlePlaintext) (env : RotationEnv) (nowMs : Int)
    (fortressId : String) : Prop :=
  (∃ master, master.publicKey=bundle.newMasterPubkey ∧ master.fortressId=fortressId ∧
    verifyCertChain env.toMeshEnv nowMs bundle.reIssuedSelfCert bundle.newRootPrincipalCert master=.ok ()) ∧
  env.publicKeyOf (decodeBase64url bundle.newMasterSecret)=decodeBase64url bundle.newMasterPubkey

structure KeyedNode.Holds (keyed : KeyedNode) (payload : MasterRotationPayload) (bundle : MasterRotationBundlePlaintext) :
    Prop where
  pinned : keyed.node.pinnedMaster=payload.newMasterPubkey
  certificate : keyed.node.certificate=some bundle.reIssuedSelfCert
  principal : keyed.node.principalRoster.get bundle.newRootPrincipalCert.principalId=some bundle.newRootPrincipalCert
  secret : keyed.fortressMasterSecret=decodeBase64url bundle.newMasterSecret
  own : bundle.reIssuedSelfCert.nodeId=keyed.node.nodeId
  named : bundle.reIssuedSelfCert.parentChain.fortressMasterPubkey=keyed.node.pinnedMaster.publicKey

theorem addToRoster_frame (node : MeshNode) (nowMs : Int) (certificate : NodeIdentityCertificate) :
    (node.addToRoster nowMs certificate).pinnedMaster=node.pinnedMaster ∧
      (node.addToRoster nowMs certificate).certificate=node.certificate ∧
      (node.addToRoster nowMs certificate).principalRoster=node.principalRoster ∧
      (node.addToRoster nowMs certificate).nodeId=node.nodeId := by
  unfold MeshNode.addToRoster
  split
  · exact ⟨rfl,rfl,rfl,rfl⟩
  · exact ⟨rfl,rfl,rfl,rfl⟩

theorem installMasterRotation_cases (keyed : KeyedNode) (nowMs : Int) (payload : MasterRotationPayload)
    (bundle : MasterRotationBundlePlaintext) :
    ((keyed.installMasterRotation nowMs payload.newMasterPubkey (decodeBase64url bundle.newMasterSecret)
        bundle.reIssuedSelfCert bundle.newRootPrincipalCert).1=keyed ∧
      ((keyed.installMasterRotation nowMs payload.newMasterPubkey (decodeBase64url bundle.newMasterSecret)
        bundle.reIssuedSelfCert bundle.newRootPrincipalCert).2=.ok () →
        keyed.node.pinnedMaster.publicKey=payload.newMasterPubkey.publicKey)) ∨
    (keyed.installMasterRotation nowMs payload.newMasterPubkey (decodeBase64url bundle.newMasterSecret)
      bundle.reIssuedSelfCert bundle.newRootPrincipalCert).1.Holds payload bundle := by
  unfold KeyedNode.installMasterRotation
  by_cases hsam : payload.newMasterPubkey.publicKey=keyed.node.pinnedMaster.publicKey
  · rw [if_pos hsam]
    exact .inl ⟨rfl,fun _ => hsam.symm⟩
  rw [if_neg hsam]
  by_cases hnod : bundle.reIssuedSelfCert.nodeId≠keyed.node.nodeId
  · rw [if_pos hnod]
    exact .inl ⟨rfl,fun hok => nomatch hok⟩
  rw [if_neg hnod]
  by_cases hmas : bundle.reIssuedSelfCert.parentChain.fortressMasterPubkey≠payload.newMasterPubkey.publicKey
  · rw [if_pos hmas]
    exact .inl ⟨rfl,fun hok => nomatch hok⟩
  rw [if_neg hmas]
  right
  -- The swapped node, before the roster is asked.
  let swapped : MeshNode := MeshNode.registerPrincipal
    { keyed.node with pinnedMaster := payload.newMasterPubkey, certificate := some bundle.reIssuedSelfCert }
    bundle.newRootPrincipalCert
  have hins : keyed.node.installMasterRotation nowMs payload.newMasterPubkey bundle.reIssuedSelfCert
      bundle.newRootPrincipalCert=swapped.addToRoster nowMs bundle.reIssuedSelfCert := by
    unfold MeshNode.installMasterRotation
    rw [if_neg hsam,if_neg hnod,if_neg hmas]
  obtain ⟨hpin,hcer,hpri,hid⟩ := addToRoster_frame swapped nowMs bundle.reIssuedSelfCert
  rw [hins]
  refine ⟨hpin,hcer,?_,rfl,?_,?_⟩
  · rw [hpri]
    exact OrderedMap.get_set_self ..
  · rw [hid]
    exact not_not.mp hnod
  · rw [hpin]
    exact not_not.mp hmas

section Run

variable {env : RotationEnv} {start : MasterRotationReceiver}

def FromUnicast (env : RotationEnv) (start : MasterRotationReceiver) (inputs : List RotationInput) (rotatedAt : String)
    (bundle : MasterRotationBundlePlaintext) : Prop :=
  ∃ context envelope, RotationInput.unicast context start.nodeId (.bundle envelope)∈inputs ∧
    envelope.rotatedAt=rotatedAt ∧
    unwrapMasterRotationBundle env envelope context.oldFortressMasterSecret start.nodeId start.nodeMode
      start.fortressId=.ok bundle

def FromBroadcast (inputs : List RotationInput) (rotatedAt : String) (payload : MasterRotationPayload) : Prop :=
  ∃ context emitterNode, RotationInput.broadcast context payload emitterNode∈inputs ∧ payload.rotatedAt=rotatedAt

structure Sourced (env : RotationEnv) (start : MasterRotationReceiver) (inputs : List RotationInput)
    (receiver : MasterRotationReceiver) : Prop where
  nodeId : receiver.nodeId=start.nodeId
  nodeMode : receiver.nodeMode=start.nodeMode
  fortressId : receiver.fortressId=start.fortressId
  bundles : ∀ rotatedAt entry, receiver.pending.get rotatedAt=some entry → ∀ bundle, entry.bundle=some bundle →
    FromUnicast env start inputs rotatedAt bundle
  broadcasts : ∀ rotatedAt entry, receiver.pending.get rotatedAt=some entry → ∀ payload emitterNode,
    entry.broadcast=some (payload,emitterNode) → FromBroadcast inputs rotatedAt payload

variable {inputs : List RotationInput} {inputs' : List RotationInput}

theorem FromUnicast.mono {rotatedAt : String}
    {bundle : MasterRotationBundlePlaintext} (h : FromUnicast env start inputs rotatedAt bundle)
    (hsub : inputs ⊆ inputs') : FromUnicast env start inputs' rotatedAt bundle := by
  obtain ⟨context,envelope,hmem,hres⟩ := h
  exact ⟨context,envelope,hsub hmem,hres⟩

theorem FromBroadcast.mono {rotatedAt : String} {payload : MasterRotationPayload}
    (h : FromBroadcast inputs rotatedAt payload) (hsub : inputs ⊆ inputs') :
    FromBroadcast inputs' rotatedAt payload := by
  obtain ⟨context,emitterNode,hmem,hres⟩ := h
  exact ⟨context,emitterNode,hsub hmem,hres⟩

variable {self : MasterRotationReceiver}

theorem Sourced.mono
    (h : Sourced env start inputs self) (hsub : inputs ⊆ inputs') : Sourced env start inputs' self :=
  ⟨h.nodeId,h.nodeMode,h.fortressId,
    fun rotatedAt entry hget bundle hbun => (h.bundles rotatedAt entry hget bundle hbun).mono hsub,
    fun rotatedAt entry hget payload emitterNode hbro =>
      (h.broadcasts rotatedAt entry hget payload emitterNode hbro).mono hsub⟩

theorem Sourced.set (h : Sourced env start inputs self)
    (rotatedAt : String) (entry : PendingRotationOnReceiver)
    (hbun : ∀ bundle, entry.bundle=some bundle → FromUnicast env start inputs rotatedAt bundle)
    (hbro : ∀ payload emitterNode, entry.broadcast=some (payload,emitterNode) →
      FromBroadcast inputs rotatedAt payload) :
    Sourced env start inputs { self with pending := self.pending.set rotatedAt entry } := by
  refine ⟨h.nodeId,h.nodeMode,h.fortressId,fun other e hget => ?_,fun other e hget => ?_⟩
  · dsimp only at hget
    by_cases hsam : other=rotatedAt
    · rw [hsam,OrderedMap.get_set_self] at hget
      cases hget
      rw [hsam]
      exact hbun
    · rw [OrderedMap.get_set_ne _ _ hsam] at hget
      exact h.bundles other e hget
  · dsimp only at hget
    by_cases hsam : other=rotatedAt
    · rw [hsam,OrderedMap.get_set_self] at hget
      cases hget
      rw [hsam]
      exact hbro
    · rw [OrderedMap.get_set_ne _ _ hsam] at hget
      exact h.broadcasts other e hget

theorem Sourced.entry (h : Sourced env start inputs self)
    (rotatedAt : String) :
    (∀ bundle, ((self.pending.get rotatedAt).getD {}).bundle=some bundle → FromUnicast env start inputs rotatedAt bundle) ∧
      ∀ payload emitterNode, ((self.pending.get rotatedAt).getD {}).broadcast=some (payload,emitterNode) →
        FromBroadcast inputs rotatedAt payload := by
  cases hget : self.pending.get rotatedAt with
  | none => exact ⟨fun bundle hnone => (nomatch hnone),fun payload emitterNode hnone => nomatch hnone⟩
  | some entry => exact ⟨h.bundles rotatedAt entry hget,h.broadcasts rotatedAt entry hget⟩

/-- A rotation took place between two states of a receiver: the node changed, or an installation was reported. -/
def Rotates (self after : MasterRotationReceiver) (notices : List RotationNotice) : Prop :=
  after.keyed≠self.keyed ∨ ∃ rotatedAt newMasterPubkey, RotationNotice.ackInstalled rotatedAt newMasterPubkey∈notices

/-- A rotation that took place has both halves, was authorized, and is what the node holds, if it did not hold the
new master before. -/
def Accounted (env : RotationEnv) (start : MasterRotationReceiver) (inputs : List RotationInput)
    (context : RotationContext) (self after : MasterRotationReceiver) : Prop :=
  ∃ rotatedAt payload bundle, FromBroadcast inputs rotatedAt payload ∧ FromUnicast env start inputs rotatedAt bundle ∧
    RotationAuthorized env.toMeshEnv context.nowMs revokeQuorumClockSkewMs payload context.pinnedOldMaster
      context.pinnedGuardianRoster ∧
    (after.keyed.Holds payload bundle ∨
      (after.keyed=self.keyed ∧ self.keyed.node.pinnedMaster.publicKey=payload.newMasterPubkey.publicKey))

theorem install_spec (h : Sourced env start inputs self)
    (context : RotationContext) (rotatedAt : String) (bundle : MasterRotationBundlePlaintext)
    (payload : MasterRotationPayload) :
    Sourced env start inputs (self.install context rotatedAt bundle payload).1 ∧
      (Rotates self (self.install context rotatedAt bundle payload).1 (self.install context rotatedAt bundle payload).2 →
        (self.install context rotatedAt bundle payload).1.keyed.Holds payload bundle ∨
          ((self.install context rotatedAt bundle payload).1.keyed=self.keyed ∧
            self.keyed.node.pinnedMaster.publicKey=payload.newMasterPubkey.publicKey)) := by
  have hcas := installMasterRotation_cases self.keyed context.nowMs payload bundle
  unfold MasterRotationReceiver.install
  dsimp only
  split_ifs with hcha
  · refine ⟨h,?_⟩
    rintro (hchd | ⟨rotatedAt',key,hack⟩)
    · exact absurd rfl hchd
    · simp at hack
  · generalize self.keyed.installMasterRotation context.nowMs payload.newMasterPubkey
      (decodeBase64url bundle.newMasterSecret) bundle.reIssuedSelfCert bundle.newRootPrincipalCert=swapped at hcas
    obtain ⟨keyed,outcome⟩ := swapped
    cases outcome with
    | error refusal =>
      refine ⟨⟨h.nodeId,h.nodeMode,h.fortressId,h.bundles,h.broadcasts⟩,?_⟩
      rintro (hchd | ⟨rotatedAt',key,hack⟩)
      · rcases hcas with ⟨hsam,-⟩ | hhol
        · exact absurd hsam hchd
        · exact .inl hhol
      · simp at hack
    | ok u =>
      refine ⟨⟨h.nodeId,h.nodeMode,h.fortressId,h.bundles,h.broadcasts⟩,fun _ => ?_⟩
      rcases hcas with ⟨hsam,hpin⟩ | hhol
      · exact .inr ⟨hsam,hpin rfl⟩
      · exact .inl hhol

theorem maybeInstall_spec (h : Sourced env start inputs self)
    (context : RotationContext) (rotatedAt : String) :
    Sourced env start inputs (self.maybeInstall env context rotatedAt).1 ∧
      (Rotates self (self.maybeInstall env context rotatedAt).1 (self.maybeInstall env context rotatedAt).2 →
        Accounted env start inputs context self (self.maybeInstall env context rotatedAt).1) := by
  have hqui : ∀ after, after.keyed=self.keyed → ∀ notices,
      (∀ rotatedAt' key, RotationNotice.ackInstalled rotatedAt' key∉notices) → ¬ Rotates self after notices := by
    rintro after hkey notices hnone (hcha | ⟨rotatedAt',key,hack⟩)
    · exact hcha hkey
    · exact hnone rotatedAt' key hack
  unfold MasterRotationReceiver.maybeInstall
  split_ifs with hins
  · exact ⟨h,fun hrot => absurd hrot (hqui self rfl [] (by simp))⟩
  · split
    · rename_i bundle payload emitterNode hget
      have hbun := h.bundles rotatedAt _ hget bundle rfl
      have hbro := h.broadcasts rotatedAt _ hget payload emitterNode rfl
      split
      · rename_i refusal hacc
        refine ⟨h.set _ _ ?_ ?_,fun hrot => absurd hrot (hqui _ rfl _ (by simp))⟩
        · intro bundle' hbun'
          cases hbun'
          exact hbun
        · rintro payload' emitterNode' ⟨⟩
      · rename_i u hacc
        obtain ⟨hsou,hhel⟩ := install_spec h context rotatedAt bundle payload
        refine ⟨hsou,fun hrot => ⟨rotatedAt,payload,bundle,hbro,hbun,
          acceptMasterRotation_ok hacc,hhel hrot⟩⟩
    · exact ⟨h,fun hrot => absurd hrot (hqui self rfl [] (by simp))⟩

theorem step_spec (h : Sourced env start inputs self)
    (input : RotationInput) :
    Sourced env start (inputs++[input]) (self.step env input).1 ∧
      (Rotates self (self.step env input).1 (self.step env input).2 →
        Accounted env start (inputs++[input]) input.context self (self.step env input).1) := by
  have hgro : Sourced env start (inputs++[input]) self := h.mono (List.subset_append_left ..)
  have hlas : input∈inputs++[input] := List.mem_append_right _ (List.mem_singleton_self input)
  have hqui : ¬ Rotates self self [] := by
    rintro (hcha | ⟨rotatedAt',key,hack⟩)
    · exact hcha rfl
    · cases hack
  cases input with
  | broadcast context payload emitterNode =>
    obtain ⟨hbun,-⟩ := hgro.entry payload.rotatedAt
    have hbro : ∀ payload' emitterNode', some (payload,emitterNode)=some (payload',emitterNode') →
        FromBroadcast (inputs++[.broadcast context payload emitterNode]) payload.rotatedAt payload' := by
      intro payload' emitterNode' hsom
      cases hsom
      exact ⟨context,emitterNode,hlas,rfl⟩
    let entry : PendingRotationOnReceiver :=
      { (self.pending.get payload.rotatedAt).getD {} with broadcast := some (payload,emitterNode) }
    exact maybeInstall_spec (hgro.set payload.rotatedAt entry hbun hbro) context payload.rotatedAt
  | unicast context recipient message =>
    simp only [MasterRotationReceiver.step,MasterRotationReceiver.handleIncomingUnicast]
    by_cases hrec : recipient≠self.nodeId
    · rw [if_pos hrec]
      exact ⟨hgro,fun hrot => absurd hrot hqui⟩
    rw [if_neg hrec]
    cases message with
    | other => exact ⟨hgro,fun hrot => absurd hrot hqui⟩
    | malformed => exact ⟨hgro,fun hrot => absurd hrot hqui⟩
    | bundle envelope =>
      dsimp only
      cases hunw : unwrapMasterRotationBundle env envelope context.oldFortressMasterSecret self.nodeId self.nodeMode
          self.fortressId with
      | error refusal => exact ⟨hgro,fun hrot => absurd hrot hqui⟩
      | ok plaintext =>
        obtain ⟨-,hbro⟩ := hgro.entry envelope.rotatedAt
        have hbun : ∀ bundle, some plaintext=some bundle → FromUnicast env start
            (inputs++[.unicast context recipient (.bundle envelope)]) envelope.rotatedAt bundle := by
          intro bundle hsom
          cases hsom
          refine ⟨context,envelope,?_,rfl,?_⟩
          · rw [← h.nodeId,← not_not.mp hrec]
            exact hlas
          · rw [← h.nodeId,← h.nodeMode,← h.fortressId]
            exact hunw
        let entry : PendingRotationOnReceiver :=
          { (self.pending.get envelope.rotatedAt).getD {} with bundle := some plaintext }
        exact maybeInstall_spec (hgro.set envelope.rotatedAt entry hbun hbro) context envelope.rotatedAt

theorem run_sourced (env : RotationEnv) (hsta : start.pending=.empty) (inputs : List RotationInput) :
    Sourced env start inputs (start.run env inputs) := by
  induction inputs using List.reverseRecOn with
  | nil =>
    refine ⟨rfl,rfl,rfl,fun rotatedAt entry hget => ?_,fun rotatedAt entry hget => ?_⟩
    · rw [MasterRotationReceiver.run,List.foldl_nil,hsta] at hget
      cases hget
    · rw [MasterRotationReceiver.run,List.foldl_nil,hsta] at hget
      cases hget
  | append_singleton inputs input ih =>
    rw [MasterRotationReceiver.run,List.foldl_append]
    exact (step_spec ih input).1

/-- Every rotation of a run is authorized by the pinned roster, and leaves the node with the key, the secret and the
certificates that were delivered for it; where these belong together they belong to the pinned master. -/
theorem rotation_installs_delivered (env : RotationEnv) (start : MasterRotationReceiver) (hstart : start.pending=.empty)
    (past : List RotationInput) (input : RotationInput) (after : MasterRotationReceiver) (notices : List RotationNotice)
    (hstep : (start.run env past).step env input=(after,notices)) (hrotates : Rotates (start.run env past) after notices) :
    ∃ rotatedAt payload bundle, FromBroadcast (past++[input]) rotatedAt payload ∧
      FromUnicast env start (past++[input]) rotatedAt bundle ∧
      RotationAuthorized env.toMeshEnv input.context.nowMs revokeQuorumClockSkewMs payload
        input.context.pinnedOldMaster input.context.pinnedGuardianRoster ∧
      (after.keyed≠(start.run env past).keyed → after.keyed.Holds payload bundle ∧
        (bundle.Coherent env input.context.nowMs input.context.pinnedOldMaster.fortressId →
          verifyCertChain env.toMeshEnv input.context.nowMs bundle.reIssuedSelfCert bundle.newRootPrincipalCert
              after.keyed.node.pinnedMaster=.ok () ∧
            env.publicKeyOf after.keyed.fortressMasterSecret =
              decodeBase64url after.keyed.node.pinnedMaster.publicKey)) := by
  have hspe := (step_spec (run_sourced env hstart past) input).2
  rw [hstep] at hspe
  obtain ⟨rotatedAt,payload,bundle,hbro,hbun,haut,hhol⟩ := hspe hrotates
  refine ⟨rotatedAt,payload,bundle,hbro,hbun,haut,fun hcha => ?_⟩
  rcases hhol with hhol | ⟨hsam,-⟩
  · refine ⟨hhol,?_⟩
    rintro ⟨⟨master,hkey,hfor,hchn⟩,hsec⟩
    have hpin : master.publicKey=after.keyed.node.pinnedMaster.publicKey :=
      (verifyCertChain_master hchn).symm.trans hhol.named
    constructor
    · rw [← verifyCertChain_congr hpin]
      · exact hchn
      · rw [hfor,hhol.pinned]
        exact haut.fortress.symm
    · rw [hhol.secret,hsec,← hkey,hpin]
  · exact absurd hsam hcha

end Run

namespace RotationSample

def oldMaster : FortressMasterPublicKey := ⟨"AA","f-1","2025-01-01T00:00:00.000Z"⟩

def newMaster : FortressMasterPublicKey := ⟨"AQ","f-1","2026-01-01T00:00:00.000Z"⟩

def root (masterSignature : String) : PrincipalCertificate where
  principalId := "root"
  principalPubkey := "Ag"
  role := .root
  fortressId := "f-1"
  issuedAt := "2026-01-01T00:00:00.000Z"
  expiresAt := none
  masterSignature

def certificate : NodeIdentityCertificate where
  certificateVersion := none
  nodeId := "self"
  nodePubkey := "Aw"
  nodeMode := .local
  fortressId := "f-1"
  joinedAt := "2026-01-01T00:00:00.000Z"
  expiresAt := none
  capabilities := 1
  parentChain := ⟨newMaster.publicKey,"root","Ag"⟩
  teeAttestationHash := none
  principalSignature := "Ag"
  masterSignature := none
  delegatedGrants := some []
  attestationLineageChain := some []

/-- A bundle with a principal that `masterSignature` stands under, and a secret. -/
def bundle (masterSignature newMasterSecret rotatedAt : String) : MasterRotationBundlePlaintext :=
  ⟨newMasterSecret,certificate,root masterSignature,rotatedAt,newMaster.publicKey⟩

def inTime : String := "2026-01-01T01:00:00.000Z"

def early : String := "2025-12-31T23:59:00.000Z"

def env : RotationEnv where
  verify signature _ publicKey := decide (signature=publicKey)
  sign _ privateKey := privateKey
  sha256 _ := []
  dateParse s :=
    if s = "2026-01-01T00:00:00.000Z" then some 1767225600000
    else if s = "2026-01-01T04:00:00.000Z" then some 1767240000000
    else if s=inTime then some 1767229200000
    else if s=early then some 1767225540000
    else none
  decodePolicyBlob _ := none
  publicKeyOf secret := secret
  deriveNodeTransportKey secret _ _ := secret
  openBundle _ _ ciphertext :=
    match ciphertext with
    | .str "issued" => some (bundle "AQ" "AQ" inTime)
    | .str "early" => some (bundle "AQ" "AQ" early)
    | .str "strange" => some (bundle "BA" "BQ" inTime)
    | _ => none

def guardianKey : String := "AAAAAAAAAAAAAAAAAAAAAAAAAAAAAAAAAAAAAAAAAAA"

def roster : GuardianRoster where
  m := 1
  n := 1
  guardians := [⟨"g-1",guardianKey,"human","2025-01-01T00:00:00.000Z"⟩]
  signatureScheme := signatureSchemeV1
  version := 1
  createdAt := "2025-01-01T00:00:00.000Z"
  fortressId := "f-1"
  masterSignature := "AA"

def context : RotationContext := ⟨1767226000000,decodeBase64url "AA",oldMaster,roster⟩

def payload (rotatedAt : String) : MasterRotationPayload where
  oldMasterPubkey := oldMaster.publicKey
  newMasterPubkey := newMaster
  quorumSignatures := [⟨guardianKey,guardianKey⟩]
  rotatedAt
  quorumContext := some ⟨guardianMasterRotationQuorumSchemaV2,"0123456789abcdef0123456789abcdef",
    "2026-01-01T00:00:00.000Z","2026-01-01T04:00:00.000Z"⟩

def node : MeshNode where
  nodeId := "self"
  fortressId := "f-1"
  systemPrincipalId := some "root"
  pinnedMaster := oldMaster
  nodePrivateKey := some (decodeBase64url "Aw")
  certificate := none
  envelopeMonotonicSeq := 0
  roster := { entries := .empty }
  policyBundle := ⟨.empty⟩
  locatorTable := ⟨.empty,0⟩
  lifecycleLog := ⟨[]⟩
  principalRoster := .empty
  lastReceivedMonotonicSeq := .empty
  guardianRoster := none
  outstandingSyncRequests := .empty
  receivedLog := []

def receiver : MasterRotationReceiver := ⟨⟨node,decodeBase64url "AA"⟩,"self",.local,"f-1",.empty,[]⟩

def unicast (ciphertext rotatedAt : String) : RotationInput :=
  .unicast context "self" (.bundle ⟨"self","f-1",.str ciphertext,rotatedAt,newMaster.publicKey⟩)

def broadcast (rotatedAt : String) : RotationInput := .broadcast context (payload rotatedAt) "peer"

def rotated (ciphertext rotatedAt : String) : MasterRotationReceiver × List RotationNotice :=
  (receiver.run env [unicast ciphertext rotatedAt]).step env (broadcast rotatedAt)

theorem pinned_changes {ciphertext rotatedAt : String}
    (h : (rotated ciphertext rotatedAt).1.keyed.node.pinnedMaster ≠
      (receiver.run env [unicast ciphertext rotatedAt]).keyed.node.pinnedMaster) :
    (rotated ciphertext rotatedAt).1.keyed≠(receiver.run env [unicast ciphertext rotatedAt]).keyed :=
  fun hsam => h (by rw [hsam])

/-- The three rotations are installed; only the one that was issued has a principal and a secret of the new master. -/
theorem rotated_installs :
    ((rotated "early" early).1.keyed.node.pinnedMaster ≠
        (receiver.run env [unicast "early" early]).keyed.node.pinnedMaster ∧
      (rotated "strange" inTime).1.keyed.node.pinnedMaster ≠
        (receiver.run env [unicast "strange" inTime]).keyed.node.pinnedMaster ∧
      (rotated "issued" inTime).1.keyed.node.pinnedMaster ≠
        (receiver.run env [unicast "issued" inTime]).keyed.node.pinnedMaster) ∧
    ((parseMasterRotationQuorumContext env.toMeshEnv ⟨guardianMasterRotationQuorumSchemaV2,
        "0123456789abcdef0123456789abcdef","2026-01-01T00:00:00.000Z","2026-01-01T04:00:00.000Z"⟩).map
        (·.initiatedAtMs)=.ok 1767225600000 ∧
      IsoInstant.parseIsoInstantWithOffset env.dateParse early=some 1767225540000) ∧
    ((rotated "strange" inTime).1.keyed.node.certificate.bind (fun cert =>
        ((rotated "strange" inTime).1.keyed.node.principalRoster.get cert.parentChain.principalId).map fun principal =>
          verifyCertChain env.toMeshEnv context.nowMs cert principal
            (rotated "strange" inTime).1.keyed.node.pinnedMaster)=some (.error .principalSignatureInvalid) ∧
      env.publicKeyOf (rotated "strange" inTime).1.keyed.fortressMasterSecret ≠
        decodeBase64url (rotated "strange" inTime).1.keyed.node.pinnedMaster.publicKey) ∧
    (rotated "issued" inTime).2=[.ackInstalled inTime newMaster.publicKey] := by
  decide +kernel

end RotationSample

/-- `P` holds of the clock, the messages so far and the node after every step of every receiver that changes it. -/
def EveryInstall (P : RotationEnv → RotationContext → List RotationInput → KeyedNode → Prop) : Prop :=
  ∀ (env : RotationEnv) (start : MasterRotationReceiver), start.pending=.empty →
    ∀ past input after notices, (start.run env past).step env input=(after,notices) →
      after.keyed≠(start.run env past).keyed → P env input.context (past++[input]) after.keyed

open RotationSample in
theorem EveryInstall.rotated {P : RotationEnv → RotationContext → List RotationInput → KeyedNode → Prop}
    (h : EveryInstall P) (ciphertext rotatedAt : String)
    (hcha : (rotated ciphertext rotatedAt).1.keyed.node.pinnedMaster ≠
      (receiver.run env [unicast ciphertext rotatedAt]).keyed.node.pinnedMaster) :
    P env context [unicast ciphertext rotatedAt,broadcast rotatedAt] (rotated ciphertext rotatedAt).1.keyed :=
  h env receiver rfl [unicast ciphertext rotatedAt] (broadcast rotatedAt) _ _ rfl (pinned_changes hcha)

open RotationSample in
/-- A rotation stamped a minute before its window is installed; and so is a principal that another master signed, with
a secret that is not the new master's. -/
theorem rotation_install_not_checked :
    ¬ EveryInstall (fun env context inputs _ => ∃ rotatedAt payload, FromBroadcast inputs rotatedAt payload ∧
      RotationAuthorized env.toMeshEnv context.nowMs 0 payload context.pinnedOldMaster context.pinnedGuardianRoster) ∧
    ¬ EveryInstall (fun env context _ keyed => ∃ cert principal, keyed.node.certificate=some cert ∧
      keyed.node.principalRoster.get cert.parentChain.principalId=some principal ∧
      verifyCertChain env.toMeshEnv context.nowMs cert principal keyed.node.pinnedMaster=.ok ()) ∧
    ¬ EveryInstall (fun env _ _ keyed =>
      env.publicKeyOf keyed.fortressMasterSecret=decodeBase64url keyed.node.pinnedMaster.publicKey) := by
  obtain ⟨⟨hear,hstr,-⟩,⟨hcon,hrot⟩,⟨hfai,hsec⟩,-⟩ := rotated_installs
  refine ⟨fun hall => ?_,fun hall => ?_,fun hall => hsec (hall.rotated "strange" inTime hstr)⟩
  · obtain ⟨rotatedAt,sent,⟨context',emitterNode,hmem,-⟩,haut⟩ := hall.rotated "early" early hear
    have hsen : sent=payload early := by
      rcases List.mem_cons.mp hmem with hmem | hmem
      · cases hmem
      · cases List.mem_singleton.mp hmem
        rfl
    subst hsen
    obtain ⟨wire,parsed,rotatedMs,-,-,-,hwir,hpar,-,-,-,hms,haft,-⟩ := haut.signed
    cases hwir
    rw [hpar] at hcon
    have hsta : parsed.initiatedAtMs=1767225600000 := Except.ok.inj hcon
    rw [show (payload early).rotatedAt=early from rfl,hrot] at hms
    cases hms
    rw [hsta] at haft
    omega
  · obtain ⟨cert,principal,hcer,hpri,hcha⟩ := hall.rotated "strange" inTime hstr
    rw [hcer,Option.bind_some,hpri,Option.map_some,hcha] at hfai
    cases hfai

open RotationSample in
theorem rotation_installs_delivered_once :
    (rotated "issued" inTime).2=[.ackInstalled inTime newMaster.publicKey] ∧
    ∃ rotatedAt payload bundle, FromBroadcast [unicast "issued" inTime,broadcast inTime] rotatedAt payload ∧
      FromUnicast env receiver [unicast "issued" inTime,broadcast inTime] rotatedAt bundle ∧
      RotationAuthorized env.toMeshEnv context.nowMs revokeQuorumClockSkewMs payload oldMaster roster ∧
      (rotated "issued" inTime).1.keyed.Holds payload bundle := by
  have hack : (rotated "issued" inTime).2=[.ackInstalled inTime newMaster.publicKey] := rotated_installs.2.2.2
  have hrot : Rotates (receiver.run env [unicast "issued" inTime]) (rotated "issued" inTime).1
      (rotated "issued" inTime).2 := .inr ⟨inTime,newMaster.publicKey,by rw [hack]; exact List.mem_singleton_self _⟩
  obtain ⟨rotatedAt,payload,bundle,hbro,hbun,haut,hhel⟩ :=
    rotation_installs_delivered env receiver rfl [unicast "issued" inTime] (broadcast inTime)
      (rotated "issued" inTime).1 (rotated "issued" inTime).2 Prod.mk.eta.symm hrot
  have hcha : (rotated "issued" inTime).1.keyed≠(receiver.run env [unicast "issued" inTime]).keyed :=
    pinned_changes rotated_installs.1.2.2
  exact ⟨hack,rotatedAt,payload,bundle,hbro,hbun,haut,(hhel hcha).1⟩

end CastleWall.Mesh
