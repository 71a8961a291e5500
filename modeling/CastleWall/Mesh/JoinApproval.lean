import CastleWall.Mesh.TrustRoot
import CastleWall.Support.SingleUse

/-! # Approvals of joins

`mesh/lifecycle/standalone-join-approver.ts` and `mesh/lifecycle/operator-cloud-join-approver.ts`: a node joins with a
bootstrap token, whose nonce is spent, or under a provision claim, which is consumed. The spent nonces and the claims
are kept in memory and in one encrypted record each. -/

namespace CastleWall.Mesh

open Cognitive.StateStore Custody SingleUse
open Outcome (require)

structure BootstrapToken where
  (fortressId intendedNodeId : String)
  intendedNodeMode : NodeMode
  (nonce expiresAt : String)

structure JoinRequest where
  bootstrapToken : BootstrapToken
  nodePubkey : String
  nodeMode : NodeMode
  hkdfSaltProof : String

inductive JoinDenial where
  | wrongNodeMode
  | missingTokenContext
  | nodeModeMismatch
  | expiryInvalid
  | pubkeyNotThirtyTwoBytes
  | pubkeyMismatch
  | joinProofMismatch

structure JoinCertificate where
  (nodeId nodePubkey : String)
  nodeMode : NodeMode
  fortressId : String

def JoinRequest.storeKey (fortressId nodeId nonce : String) : String := fortressId ++ " " ++ nodeId ++ " " ++ nonce

namespace JoinRequest

variable (request : JoinRequest)

def key : String :=
  storeKey request.bootstrapToken.fortressId request.bootstrapToken.intendedNodeId request.bootstrapToken.nonce

def triple : String × String × String :=
  (request.bootstrapToken.fortressId,request.bootstrapToken.intendedNodeId,request.bootstrapToken.nonce)

/-- `issueCertificateForApprovedJoin`, after the last check of the key. -/
def issueCertificate : Except JoinDenial JoinCertificate := do
  require ((decodeBase64url request.nodePubkey).length=32) .pubkeyNotThirtyTwoBytes
  return { nodeId := request.bootstrapToken.intendedNodeId, nodePubkey := request.nodePubkey
           nodeMode := request.nodeMode, fortressId := request.bootstrapToken.fortressId }

end JoinRequest

structure NonceRequest where
  request : JoinRequest
  (expiresAtMs nowMs : Int)

def standaloneRequest (env : MeshEnv) (request : JoinRequest) (nowMs : Int) : Except JoinDenial NonceRequest := do
  let token := request.bootstrapToken
  require (request.nodeMode≠.operatorCloud) .wrongNodeMode
  require (token.fortressId ≠ "" ∧ token.intendedNodeId ≠ "" ∧ token.nonce ≠ "" ∧ token.expiresAt ≠ "")
    .missingTokenContext
  require (request.nodeMode=token.intendedNodeMode) .nodeModeMismatch
  match env.dateParse token.expiresAt with
  | none => .error .expiryInvalid
  | some expiresAtMs => .ok ⟨request,expiresAtMs,nowMs⟩

namespace BootstrapNonceStore

def prune (spent : OrderedMap String Int) (nowMs : Int) : OrderedMap String Int :=
  spent.filter fun _ expiresAtMs => decide (nowMs ≤ expiresAtMs)

/-- The part of `consume` before its write. -/
def mark (r : NonceRequest) (spent : OrderedMap String Int) : OrderedMap String Int × Option NonceRequest :=
  let spent := prune spent r.nowMs
  match spent.get r.request.key with
  | some _ => (spent,none)
  | none => (spent.set r.request.key r.expiresAtMs,some r)

def gate : Gate NonceRequest (OrderedMap String Int) NonceRequest where
  empty := .empty
  time r := r.nowMs
  enter _ r spent := mark r spent
  undo r spent := spent.erase r.request.key
  load nowMs spent := prune spent nowMs

end BootstrapNonceStore

structure RecordProvisionClaimParams where
  (fortressId nodeId nodePubkeyHash bootstrapNonce manifestDigest scopedSecretCiphertextDigest : String)
  (scopeDigest bundleDigest expiresAt : String)

structure OperatorCloudProvisionClaim extends RecordProvisionClaimParams where
  consumed : Bool

structure RecordedClaim where
  claim : OperatorCloudProvisionClaim
  number : Nat

inductive ClaimRequest where
  | record (params : RecordProvisionClaimParams) (nowMs : Int)
  | consume (request : JoinRequest) (nowMs : Int)

inductive ClaimTicket where
  | record (key : String) (made : ClaimRequest)
  | consume (request : JoinRequest) (recorded : RecordedClaim) (made : ClaimRequest)

/-- What the approver is set up with: the digest of a node key, and the proof that binds a join to a bundle. -/
structure JoinEnv where
  dateParse : String → Option Int
  nodePubkeyHash : String → String
  operatorCloudJoinProof : (fortressId nodeId bootstrapNonce nodePubkey bundleDigest : String) → String

namespace OperatorCloudProvisionClaimStore

variable (env : JoinEnv)

def expired (claim : OperatorCloudProvisionClaim) (nowMs : Int) : Bool :=
  match env.dateParse claim.expiresAt with
  | none => false
  | some expiresAtMs => decide (expiresAtMs < nowMs)

def claimKey (params : RecordProvisionClaimParams) : String :=
  JoinRequest.storeKey params.fortressId params.nodeId params.bootstrapNonce

/-- The parts of `record` and `consume` before their writes. -/
def enter (number : Nat) (r : ClaimRequest) (claims : OrderedMap String RecordedClaim) :
    OrderedMap String RecordedClaim × Option ClaimTicket :=
  match r with
  | .record params _ =>
    (claims.set (claimKey params) ⟨{ params with consumed := false },number⟩,some (.record (claimKey params) r))
  | .consume request nowMs =>
    match claims.get request.key with
    | none => (claims,none)
    | some recorded =>
      if recorded.claim.consumed then (claims,none)
      else if expired env recorded.claim nowMs then (claims,none)
      else
        (claims.set request.key { recorded with claim := { recorded.claim with consumed := true } },
          some (.consume request recorded r))

/-- A failed `record` deletes its key, a failed `consume` resets the flag of its claim, which may have been replaced. -/
def undo (ticket : ClaimTicket) (claims : OrderedMap String RecordedClaim) : OrderedMap String RecordedClaim :=
  match ticket with
  | .record key _ => claims.erase key
  | .consume request recorded _ =>
    match claims.get request.key with
    | none => claims
    | some held =>
      if held.number=recorded.number then
        claims.set request.key { held with claim := { held.claim with consumed := false } }
      else claims

def time : ClaimRequest → Int
  | .record _ nowMs => nowMs
  | .consume _ nowMs => nowMs

def gate : Gate ClaimRequest (OrderedMap String RecordedClaim) ClaimTicket where
  empty := .empty
  time := time
  enter := enter env
  undo := undo
  load nowMs claims := claims.filter fun _ recorded => !expired env recorded.claim nowMs

end OperatorCloudProvisionClaimStore

def issueForClaim (env : JoinEnv) (request : JoinRequest) (claim : OperatorCloudProvisionClaim) :
    Except JoinDenial JoinCertificate := do
  let token := request.bootstrapToken
  require (env.nodePubkeyHash request.nodePubkey=claim.nodePubkeyHash) .pubkeyMismatch
  require (env.operatorCloudJoinProof token.fortressId token.intendedNodeId token.nonce request.nodePubkey
    claim.bundleDigest=request.hkdfSaltProof) .joinProofMismatch
  request.issueCertificate

inductive ApproverEvent (α : Type) where
  | call (made : α) (nowMs : Int)
  | read (ok : Bool)
  | resume
  | begin
  | finish (outcome : SingleUse.Outcome)
  | settle (i : Nat)
  | restart (took : Bool)

def ApproverEvent.toEvent {α ρ : Type} (arrives : α → Int → Option ρ) : ApproverEvent α → Option (Event ρ)
  | .call made nowMs => (arrives made nowMs).map .arrive
  | .read ok => some (.read ok)
  | .resume => some .resume
  | .begin => some .begin
  | .finish outcome => some (.finish outcome)
  | .settle i => some (.settle i)
  | .restart took => some (.restart took)

def arrivals {α ρ : Type} (arrives : α → Int → Option ρ) (events : List (ApproverEvent α)) : List ρ :=
  (events.filterMap (ApproverEvent.toEvent arrives)).filterMap Event.request

section Standalone

variable (env : MeshEnv) (clock : Int) (events : List (ApproverEvent JoinRequest))

def standaloneArrives (request : JoinRequest) (nowMs : Int) : Option NonceRequest :=
  (standaloneRequest env request nowMs).toOption

def standaloneRun : World NonceRequest (OrderedMap String Int) NonceRequest :=
  (World.start BootstrapNonceStore.gate clock).run BootstrapNonceStore.gate
    (events.filterMap (ApproverEvent.toEvent (standaloneArrives env)))

def standaloneIssued : List JoinRequest :=
  ((standaloneRun env clock events).passed.map (·.request)).filter fun request => request.issueCertificate.isOk

end Standalone

inductive CloudCall where
  | record (params : RecordProvisionClaimParams)
  | join (request : JoinRequest)

section Cloud

variable (env : JoinEnv) (clock : Int) (events : List (ApproverEvent CloudCall))

def cloudArrives : CloudCall → Int → Option ClaimRequest
  | .record params, nowMs => some (.record params nowMs)
  | .join request, nowMs => if request.nodeMode=.operatorCloud then some (.consume request nowMs) else none

def cloudRun : World ClaimRequest (OrderedMap String RecordedClaim) ClaimTicket :=
  (World.start (OperatorCloudProvisionClaimStore.gate env) clock).run (OperatorCloudProvisionClaimStore.gate env)
    (events.filterMap (ApproverEvent.toEvent cloudArrives))

def issuedUnder : ClaimTicket → Option Nat
  | .record _ _ => none
  | .consume request recorded _ =>
    if (issueForClaim env request recorded.claim).isOk then some recorded.number else none

def cloudIssued : List Nat := (cloudRun env clock events).passed.filterMap (issuedUnder env)

end Cloud

end CastleWall.Mesh
