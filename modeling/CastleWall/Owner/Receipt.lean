import CastleWall.Support.JsonText
import CastleWall.Support.Lines
import CastleWall.Support.Outcome

/-! # Receipts of a protected agent

`protected_agent/receipt.rs`: a generation of an agent, the identity its manager reports, and the signed receipts
about it. Records are written as JSON with their fields in the order they are declared. -/

namespace CastleWall.Owner

open Text

def recordText (fields : List (String × List Char)) : List Char :=
  '{' :: (Json.joinComma (fields.map Json.fieldText)++['}'])

def optionText {α : Type} (text : α → List Char) : Option α → List Char
  | none => ['n','u','l','l']
  | some a => text a

def arrayText (items : List (List Char)) : List Char := '[' :: (Json.joinComma items++[']'])

def boolText : Bool → List Char
  | true => ['t','r','u','e']
  | false => ['f','a','l','s','e']

structure Generation where
  (bootId daemonInvocation fortressId manifestGeneration ownershipGeneration reservationNonce : String)
  (reservationHash account : String)
  (uid gid : UInt32)
  (profileId profileHash executableSha256 unitName : String)
deriving DecidableEq

def Generation.text (g : Generation) : List Char :=
  recordText [("boot_id",Json.quote g.bootId),("daemon_invocation",Json.quote g.daemonInvocation),
    ("fortress_id",Json.quote g.fortressId),("manifest_generation",Json.quote g.manifestGeneration),
    ("ownership_generation",Json.quote g.ownershipGeneration),("reservation_nonce",Json.quote g.reservationNonce),
    ("reservation_hash",Json.quote g.reservationHash),("account",Json.quote g.account),
    ("uid",Json.decimal g.uid.toNat),("gid",Json.decimal g.gid.toNat),("profile_id",Json.quote g.profileId),
    ("profile_hash",Json.quote g.profileHash),("executable_sha256",Json.quote g.executableSha256),
    ("unit_name",Json.quote g.unitName)]

/-- `str::len`. -/
def byteLength (s : String) : Nat := (utf8Bytes s).length

def isLowerHex (c : Char) : Bool := ('0' ≤ c && c ≤ '9') || ('a' ≤ c && c ≤ 'f')

def hexEncode (bytes : List UInt8) : String :=
  String.ofList (bytes.flatMap fun b => [Json.hexChar (b.toNat / 16),Json.hexChar (b.toNat % 16)])

/-- `u64::to_be_bytes`. -/
def toBeBytes (n : Nat) : List UInt8 := (List.range 8).map fun i => UInt8.ofNat (n / 256 ^ (7 - i))

section Validation

variable (sha256 : List UInt8 → List UInt8)

def deterministicUnitName (g : Generation) : String :=
  let fields := [g.bootId,g.daemonInvocation,g.fortressId,g.manifestGeneration,
    String.ofList (Json.decimal g.uid.toNat),g.ownershipGeneration,g.reservationNonce]
  let bytes := fields.flatMap fun field => toBeBytes (byteLength field)++utf8Bytes field
  "sanctuary-agent-v1-" ++ hexEncode (sha256 bytes) ++ ".service"

def isLowerHex64 (s : String) : Bool := byteLength s == 64 && s.toList.all isLowerHex

def Generation.valid (g : Generation) : Bool :=
  g.bootId ≠ "" && g.daemonInvocation ≠ "" && g.manifestGeneration ≠ "" && g.ownershipGeneration ≠ "" &&
    g.account ≠ "" && g.profileId = "agent-v1" && g.uid≠0 && g.gid≠0 && decide (8 ≤ byteLength g.fortressId) &&
    decide (byteLength g.fortressId ≤ 64) && g.fortressId.toList.all isLowerHex &&
    [g.reservationNonce,g.reservationHash,g.profileHash,g.executableSha256].all isLowerHex64 &&
    g.unitName=deterministicUnitName sha256 g

end Validation

structure ManagerIdentity where
  (unitName cgroupPath : String)
  (cgroupDev cgroupIno : UInt64)
  mainPid : UInt32
  mainStartTime : UInt64
deriving DecidableEq

def ManagerIdentity.text (m : ManagerIdentity) : List Char :=
  recordText [("unit_name",Json.quote m.unitName),("cgroup_path",Json.quote m.cgroupPath),
    ("cgroup_dev",Json.decimal m.cgroupDev.toNat),("cgroup_ino",Json.decimal m.cgroupIno.toNat),
    ("main_pid",Json.decimal m.mainPid.toNat),("main_start_time",Json.decimal m.mainStartTime.toNat)]

def ManagerIdentity.valid (m : ManagerIdentity) (g : Generation) : Bool :=
  m.unitName=g.unitName && m.cgroupDev≠0 && m.cgroupIno≠0 && m.mainPid≠0 && m.mainStartTime≠0 &&
    !startsWith m.cgroupPath "/" && !m.cgroupPath.toList.tails.any ['.','.'].isPrefixOf &&
    startsWith m.cgroupPath "system.slice/" && endsWith m.cgroupPath g.unitName

inductive Domain where
  | createAdmissionV1
  | releaseV1
  | stopFailureV1
  | releasedUnresolvedV1
  | preparedExtinctionV1
  | stopCompletionV1
deriving DecidableEq

def Domain.text : Domain → String
  | .createAdmissionV1 => "create-admission-v1"
  | .releaseV1 => "release-v1"
  | .stopFailureV1 => "stop-failure-v1"
  | .releasedUnresolvedV1 => "released-unresolved-v1"
  | .preparedExtinctionV1 => "prepared-extinction-v1"
  | .stopCompletionV1 => "stop-completion-v1"

structure ReceiptBody where
  generation : Generation
  manager : Option ManagerIdentity
  (hook attemptId attemptedScope : Option String)
  candidateUids : List UInt32
  oldReleaseHash : Option String
  positiveExtinction : Option Bool
deriving DecidableEq

def ReceiptBody.text (body : ReceiptBody) : List Char :=
  recordText [("generation",body.generation.text),("manager",optionText ManagerIdentity.text body.manager),
    ("hook",optionText Json.quote body.hook),("attempt_id",optionText Json.quote body.attemptId),
    ("attempted_scope",optionText Json.quote body.attemptedScope),
    ("candidate_uids",arrayText (body.candidateUids.map fun uid => Json.decimal uid.toNat)),
    ("old_release_hash",optionText Json.quote body.oldReleaseHash),
    ("positive_extinction",optionText boolText body.positiveExtinction)]

structure SignedReceipt where
  domain : Domain
  keyId : String
  body : ReceiptBody
  signature : String
deriving DecidableEq

def SignedReceipt.text (receipt : SignedReceipt) : List Char :=
  recordText [("domain",Json.quote receipt.domain.text),("key_id",Json.quote receipt.keyId),
    ("body",receipt.body.text),("signature",Json.quote receipt.signature)]

section Printable

open Json (Printable)

theorem printable_cons {c : Char} {cs : List Char} (hc : 32 ≤ c.toNat) (h : Printable cs) : Printable (c::cs) :=
  List.forall_mem_cons.mpr ⟨hc,h⟩

theorem printable_append {as bs : List Char} (ha : Printable as) (hb : Printable bs) : Printable (as++bs) :=
  List.forall_mem_append.mpr ⟨ha,hb⟩

theorem printable_joinComma {texts : List (List Char)} (h : ∀ text∈texts, Printable text) :
    Printable (Json.joinComma texts) := by
  induction texts with
  | nil => simp [Json.joinComma,Printable]
  | cons text texts ih =>
    obtain ⟨htet,htex⟩ := List.forall_mem_cons.mp h
    cases texts with
    | nil => exact htet
    | cons next texts => exact printable_append htet (printable_cons (by decide) (ih htex))

theorem printable_recordText {fields : List (String × List Char)} (h : ∀ field∈fields, Printable field.2) :
    Printable (recordText fields) := by
  have hfie : ∀ text∈fields.map Json.fieldText, Printable text := by
    intro text htex
    obtain ⟨field,hfid,rfl⟩ := List.mem_map.mp htex
    exact printable_append (Json.printable_quote field.1) (printable_cons (by decide) (h field hfid))
  exact printable_cons (by decide) (printable_append (printable_joinComma hfie) (by decide))

theorem printable_decimal (n : Nat) : Printable (Json.decimal n) := Json.printable_write (.num n)

theorem printable_optionText {α : Type} {text : α → List Char} (h : ∀ a, Printable (text a)) (value : Option α) :
    Printable (optionText text value) := by
  cases value with
  | none => exact (by decide : Printable ['n','u','l','l'])
  | some a => exact h a

theorem Generation.printable_text (g : Generation) : Printable g.text := by
  apply printable_recordText
  simp only [List.forall_mem_cons,List.not_mem_nil,false_imp_iff,implies_true,Json.printable_quote,
    printable_decimal,and_self]

theorem ManagerIdentity.printable_text (m : ManagerIdentity) : Printable m.text := by
  apply printable_recordText
  simp only [List.forall_mem_cons,List.not_mem_nil,false_imp_iff,implies_true,Json.printable_quote,
    printable_decimal,and_self]

theorem ReceiptBody.printable_text (body : ReceiptBody) : Printable body.text := by
  have huid : Printable (arrayText (body.candidateUids.map fun uid => Json.decimal uid.toNat)) := by
    refine printable_cons (by decide) (printable_append (printable_joinComma ?_) (by decide))
    intro text htex
    obtain ⟨uid,-,rfl⟩ := List.mem_map.mp htex
    exact printable_decimal _
  have hboo : ∀ b, Printable (boolText b) := by decide
  apply printable_recordText
  simp only [List.forall_mem_cons,List.not_mem_nil,false_imp_iff,implies_true,body.generation.printable_text,
    printable_optionText ManagerIdentity.printable_text,printable_optionText Json.printable_quote,
    printable_optionText hboo,huid,and_self]

theorem SignedReceipt.printable_text (receipt : SignedReceipt) : Printable receipt.text := by
  apply printable_recordText
  simp only [List.forall_mem_cons,List.not_mem_nil,false_imp_iff,implies_true,Json.printable_quote,
    receipt.body.printable_text,and_self]

end Printable

end CastleWall.Owner
