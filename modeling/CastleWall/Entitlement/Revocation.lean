import CastleWall.Custody.WitnessRace

/-! # Revocation lists

`entitlement/revocation-list.ts` and `entitlement/revocation-antirollback.ts`: a list of revoked licences the
issuer signs, its record and the record of its version, and the push that raises the floor in the epoch witness,
then writes the list, then the version. -/

namespace CastleWall.Entitlement

open Text Cognitive.StateStore Custody
open Process (Sound)

structure RevocationListPayload where
  version : Nat
  revokedLicenseIds : List String
  (issuer issuedAt : String)
deriving DecidableEq

def nonEmptyString : Json → Option String
  | .str s => if s = "" then none else some s
  | _ => none

def sortIds (ids : List String) : List String := ids.dedup.mergeSort utf16Le

def canonicalizeRevokedIds : Json → Option (List String)
  | .arr items => (items.mapM nonEmptyString).map sortIds
  | _ => none

def payloadFields (p : RevocationListPayload) : List (String × Option Json) :=
  [("version",some (.num p.version)),("revokedLicenseIds",some (.arr (p.revokedLicenseIds.map .str))),
    ("issuer",some (.str p.issuer)),("issuedAt",some (.str p.issuedAt))]

def encodePayload (p : RevocationListPayload) : Json := objectOf (payloadFields p)

def decodePayload (v : Json) : Option RevocationListPayload := do
  let version ← (field v "version").bind safeNat
  let revokedLicenseIds ← (field v "revokedLicenseIds").bind canonicalizeRevokedIds
  let issuer ← (field v "issuer").bind stringOf
  let issuedAt ← (field v "issuedAt").bind stringOf
  return ⟨version,revokedLicenseIds,issuer,issuedAt⟩

def uint32Bytes (n : Nat) : List UInt8 :=
  [.ofNat (n / 2 ^ 24),.ofNat (n / 2 ^ 16),.ofNat (n / 2 ^ 8),.ofNat n]

def lengthPrefixed (field : List UInt8) : List UInt8 := uint32Bytes field.length++field

def buildOperatorSignedMessage (action : String) (payload : Json) : List UInt8 :=
  utf8Bytes "sanctuary.v1.operator-signed" ++ lengthPrefixed (utf8Bytes action) ++
    lengthPrefixed (utf8Bytes payload.canonicalText)

def buildRevocationListMessage (payload : RevocationListPayload) : List UInt8 :=
  buildOperatorSignedMessage "sanctuary.fleet.revocation-list.v1"
    (encodePayload { payload with revokedLicenseIds := sortIds payload.revokedLicenseIds })

inductive RevocationListVerifyReason where
  | malformed
  | badSignature
  | notNewer

abbrev IssuerVerify : Type := List UInt8 → List UInt8 → Bool

def signedParts (signed : Json) : Option (RevocationListPayload × String) := do
  let signature ← (field signed "signature").bind stringOf
  let payload ← (field signed "payload").bind decodePayload
  if payload.issuer = "" then none else some (payload,signature)

def verifyPushedRevocationList (verify : IssuerVerify) (signed : Json) (currentVersion : Nat) :
    Except RevocationListVerifyReason RevocationListPayload :=
  match signedParts signed with
  | none => .error .malformed
  | some (payload,signature) =>
    if payload.version ≤ currentVersion then .error .notNewer
    else if verify (buildRevocationListMessage payload) (decodeBase64url signature) then .ok payload
    else .error .badSignature

def encodeStored (p : RevocationListPayload) : Json := objectOf [("payload",some (encodePayload p))]

def decodeStored (data : Json) : Option RevocationListPayload := (field data "payload").bind decodePayload

def encodeAnchor (version : Nat) : Json := objectOf [("version",some (.num version))]

def decodeAnchor (data : Json) : Option Nat := (field data "version").bind safeNat

def revocationListKind : RecordKind RevocationListPayload where
  marker := "__sanctuary_fleet_revocation_list_v1"
  purpose := .revocationList
  domain := "sanctuary.fleet.revocation-list.record.v1\n"
  encode := encodeStored
  decode := decodeStored

def revocationVersionAnchorKind : RecordKind Nat where
  marker := "__sanctuary_fleet_revocation_version_anchor_v1"
  purpose := .revocationVersionAnchor
  domain := "sanctuary.fleet.revocation-list.version-anchor.v1\n"
  encode := encodeAnchor
  decode := decodeAnchor

section Operations

variable (mac : MasterMac)

def readRevocationList (file : MetaFile) : RecordStatus RevocationListPayload := revocationListKind.read mac file

def readRevocationVersionAnchor (file : MetaFile) : RecordStatus Nat := revocationVersionAnchorKind.read mac file

def storedPayload (payload : RevocationListPayload) : RevocationListPayload :=
  { payload with revokedLicenseIds := sortIds payload.revokedLicenseIds }

def putRevocationList (payload : RevocationListPayload) (f : Fortress) : Fortress :=
  { f with revocationList := some (some (revocationListKind.record mac (storedPayload payload))) }

def writeRevocationList (payload : RevocationListPayload) : CustodyM Unit := do
  Process.require ((∀ id∈payload.revokedLicenseIds, id ≠ "") ∧ payload.version < 2 ^ 53) .malformedRevocationList
  let current ← Process.observe fun f => readRevocationList mac f.revocationList
  match current with
  | .valid current =>
    Process.require (¬ payload.version < current.version)
      (.refusesToLowerRevocationList current.version payload.version)
    Process.modify (putRevocationList mac payload)
  | _ => Process.modify (putRevocationList mac payload)

def putRevocationAnchor (version : Nat) (f : Fortress) : Fortress :=
  { f with revocationAnchor := some (some (revocationVersionAnchorKind.record mac version)) }

def writeRevocationVersionAnchor (version : Nat) : CustodyM Unit := do
  Process.require (version < 2 ^ 53) (.revocationVersionUnsafe version)
  let current ← Process.observe fun f => readRevocationVersionAnchor mac f.revocationAnchor
  match current with
  | .valid current =>
    Process.require (¬ version < current) (.refusesToLowerRevocationAnchor current version)
    Process.modify (putRevocationAnchor mac version)
  | _ => Process.modify (putRevocationAnchor mac version)

def listVersionOf : RecordStatus RevocationListPayload → Nat
  | .valid payload => payload.version
  | _ => 0

def anchorVersionOf : RecordStatus Nat → Nat
  | .valid version => version
  | _ => 0

def effectiveRevocationVersionFloor : CustodyM Nat := do
  let list ← Process.observe fun f => readRevocationList mac f.revocationList
  let anchor ← Process.observe fun f => readRevocationVersionAnchor mac f.revocationAnchor
  let latch ← readRevocationFloorLatch mac
  return max (listVersionOf list) (max (anchorVersionOf anchor) latch.1)

/-- The floor of a push leaves the witness out, so that a push cut short can be made again. -/
def writableRevocationVersionFloor : CustodyM Nat := do
  let list ← Process.observe fun f => readRevocationList mac f.revocationList
  let anchor ← Process.observe fun f => readRevocationVersionAnchor mac f.revocationAnchor
  return max (listVersionOf list) (anchorVersionOf anchor)

inductive UnverifiableReason where
  | absentBelowFloor
  | corrupt
  | rolledBack

inductive RevocationVerifiability where
  | clean (floor listVersion : Nat)
  | unverifiable (reason : UnverifiableReason) (floor listVersion : Nat)

def revocationVerifiability : CustodyM RevocationVerifiability := do
  let floor ← effectiveRevocationVersionFloor mac
  let present ← Process.observe fun f => f.revocationList.isSome
  if present then
    let record ← Process.observe fun f => readRevocationList mac f.revocationList
    match record with
    | .valid payload =>
      if payload.version < floor then return .unverifiable .rolledBack floor payload.version
      else return .clean floor payload.version
    | _ => return .unverifiable .corrupt floor 0
  else if 0 < floor then return .unverifiable .absentBelowFloor floor 0
  else return .clean 0 0

structure PushedRevocationList where
  (version revokedCount : Nat)

/-- A plain lock file: whoever finds it fails, and nobody but its holder takes it away. -/
def acquirePushLock : CustodyM Unit := do
  let held ← Process.observe (·.pushLock)
  Process.require (¬ held=true) .lockContention
  Process.modify fun f => { f with pushLock := true }

def releasePushLock (f : Fortress) : Fortress := { f with pushLock := false }

def withPushLock {α : Type} (operation : CustodyM α) : CustodyM α := do
  acquirePushLock
  operation.ensure releasePushLock

def raiseVerified (verify : IssuerVerify) (signed : Json) (now : String) :
    CustodyM (Except RevocationListVerifyReason RevocationListPayload) := do
  let freshFloor ← writableRevocationVersionFloor mac
  match verifyPushedRevocationList verify signed freshFloor with
  | .error reason => return .error reason
  | .ok payload =>
    raiseRevocationFloorLatch mac payload.version now
    return .ok payload

def persistVerified :
    Except RevocationListVerifyReason RevocationListPayload →
      CustodyM (Except RevocationListVerifyReason PushedRevocationList)
  | .error reason => return .error reason
  | .ok payload => do
    writeRevocationList mac payload
    writeRevocationVersionAnchor mac payload.version
    return .ok ⟨payload.version,payload.revokedLicenseIds.length⟩

def persistPushedRevocationListSerialized (verify : IssuerVerify) (signed : Json) (now : String) :
    CustodyM (Except RevocationListVerifyReason PushedRevocationList) :=
  withPushLock do
    let verification ← raiseVerified mac verify signed now
    persistVerified mac verification

end Operations

theorem sortIds_idem (ids : List String) : sortIds (sortIds ids)=sortIds ids := by
  have hnod : (sortIds ids).Nodup := (List.mergeSort_perm _ _).nodup_iff.mpr ids.nodup_dedup
  have hsor : (sortIds ids).Pairwise (utf16Le · ·) :=
    List.pairwise_mergeSort utf16Le_trans (fun a b => (Bool.or_eq_true _ _).mpr (utf16Le_total a b)) _
  rw [sortIds,hnod.dedup,List.mergeSort_of_pairwise hsor]

variable {ids : List String}

theorem mem_sortIds {id : String} : id∈sortIds ids ↔ id∈ids := by
  rw [sortIds,List.mem_mergeSort,List.mem_dedup]

structure RevocationListPayload.WellFormed (p : RevocationListPayload) : Prop where
  version : p.version < 2 ^ 53
  sorted : sortIds p.revokedLicenseIds=p.revokedLicenseIds
  nonEmpty : ∀ id∈p.revokedLicenseIds, id ≠ ""

theorem mapM_nonEmptyString (h : ∀ id∈ids, id ≠ "") :
    (ids.map Json.str).mapM nonEmptyString=some ids := by
  induction ids with
  | nil => rfl
  | cons id ids ih =>
    rw [List.map_cons,List.mapM_cons,ih fun other hoth => h other (List.mem_cons_of_mem id hoth),
      nonEmptyString,if_neg (h id List.mem_cons_self)]
    rfl

theorem nonEmpty_of_mapM {items : List Json} (h : items.mapM nonEmptyString=some ids) :
    ∀ id∈ids, id ≠ "" := by
  induction items generalizing ids with
  | nil =>
    cases h
    nofun
  | cons item items ih =>
    rw [List.mapM_cons] at h
    obtain ⟨first,hfir,hbin⟩ := Option.bind_eq_some_iff.mp h
    obtain ⟨rest,hres,hids⟩ := Option.bind_eq_some_iff.mp hbin
    cases hids
    have hne : first ≠ "" := by
      unfold nonEmptyString at hfir
      split at hfir
      · split_ifs at hfir with hemp
        cases hfir
        exact hemp
      · cases hfir
    intro id hid
    rcases List.mem_cons.mp hid with rfl | hid
    · exact hne
    · exact ih hres id hid

variable {p : RevocationListPayload}

theorem canonicalizeRevokedIds_encode (h : p.WellFormed) :
    canonicalizeRevokedIds (.arr (p.revokedLicenseIds.map .str))=some p.revokedLicenseIds := by
  rw [canonicalizeRevokedIds,mapM_nonEmptyString h.nonEmpty,Option.map_some,h.sorted]

theorem canonicalizeRevokedIds_eq {v : Json} (h : canonicalizeRevokedIds v=some ids) :
    sortIds ids=ids ∧ ∀ id∈ids, id ≠ "" := by
  unfold canonicalizeRevokedIds at h
  split at h
  · obtain ⟨written,hwri,rfl⟩ := Option.map_eq_some_iff.mp h
    exact ⟨sortIds_idem written,fun id hid => nonEmpty_of_mapM hwri id (mem_sortIds.mp hid)⟩
  · cases h

theorem decodePayload_encode (h : p.WellFormed) :
    decodePayload (encodePayload p)=some p := by
  have hfie : ∀ key, field (encodePayload p) key=((payloadFields p).lookup key).join :=
    field_objectOf (by simp [payloadFields])
  have hver : field (encodePayload p) "version" = some (.num p.version) := by
    rw [hfie]
    simp [payloadFields]
  have hids : field (encodePayload p) "revokedLicenseIds" = some (.arr (p.revokedLicenseIds.map .str)) := by
    rw [hfie]
    simp [payloadFields,List.lookup_cons]
  have hiss : field (encodePayload p) "issuer" = some (.str p.issuer) := by
    rw [hfie]
    simp [payloadFields,List.lookup_cons]
  have hist : field (encodePayload p) "issuedAt" = some (.str p.issuedAt) := by
    rw [hfie]
    simp [payloadFields,List.lookup_cons]
  rw [decodePayload,hver,hids,hiss,hist,Option.bind_some,safeNat_num h.version,
    Option.bind_some,canonicalizeRevokedIds_encode h]
  rfl

theorem wellFormed_of_decodePayload {v : Json} (h : decodePayload v=some p) :
    p.WellFormed := by
  simp only [decodePayload,Option.bind_eq_bind,Option.bind_eq_some_iff,Option.pure_def,
    Option.some.injEq] at h
  obtain ⟨version,⟨u,-,hver⟩,ids,⟨u',-,hids⟩,issuer,-,issuedAt,-,rfl⟩ := h
  obtain ⟨hsor,hnon⟩ := canonicalizeRevokedIds_eq hids
  exact ⟨safeNat_lt hver,hsor,hnon⟩

theorem decodeStored_encode (h : p.WellFormed) :
    decodeStored (encodeStored p)=some p := by
  have hfie : field (encodeStored p) "payload" = some (encodePayload p) := by
    rw [encodeStored,field_objectOf (by simp)]
    simp
  rw [decodeStored,hfie,Option.bind_some,decodePayload_encode h]

theorem read_revocationListRecord (mac : MasterMac) (h : p.WellFormed) :
    readRevocationList mac (some (some (revocationListKind.record mac p)))=.valid p :=
  revocationListKind.read_record mac (decodeStored_encode h) (by decide +kernel) (by decide +kernel)

section Running

variable (mac : MasterMac) (verify : IssuerVerify) {P : Nat → Prop} {signed : Json} {payload : RevocationListPayload}

theorem verifyPushedRevocationList_eq_ok {currentVersion : Nat}
    (h : verifyPushedRevocationList verify signed currentVersion=.ok payload) :
    payload.WellFormed ∧ currentVersion < payload.version := by
  unfold verifyPushedRevocationList at h
  split at h
  · cases h
  · rename_i p signature hpar
    split_ifs at h with hver
    cases h
    simp only [signedParts,Option.bind_eq_bind,Option.bind_eq_some_iff] at hpar
    obtain ⟨text,-,decoded,⟨v,-,hdec⟩,hiss⟩ := hpar
    split_ifs at hiss
    cases hiss
    exact ⟨wellFormed_of_decodePayload hdec,not_le.mp hver⟩

theorem verifyPushedRevocationList_of_lt {currentVersion other : Nat} (h : verifyPushedRevocationList verify signed currentVersion=.ok payload)
    (hoth : other < payload.version) : verifyPushedRevocationList verify signed other=.ok payload := by
  unfold verifyPushedRevocationList at h ⊢
  split at h
  · cases h
  · rename_i p signature hpar
    split_ifs at h with hver hvey
    cases h
    rw [if_neg (not_le.mpr hoth),if_pos hvey]

def writableFloor (f : Fortress) : Nat :=
  max (listVersionOf (readRevocationList mac f.revocationList))
    (anchorVersionOf (readRevocationVersionAnchor mac f.revocationAnchor))

theorem run_writableRevocationVersionFloor (f : Fortress) :
    (writableRevocationVersionFloor mac).run f=(.ok (writableFloor mac f),f) := rfl

theorem read_putRevocationList (h : payload.WellFormed) (f : Fortress) :
    readRevocationList mac (putRevocationList mac payload f).revocationList=.valid payload := by
  have hsto : storedPayload payload=payload := by rw [storedPayload,h.sorted]
  rw [putRevocationList,hsto]
  exact read_revocationListRecord mac h

variable {f g : Fortress}

theorem run_writeRevocationList (h : payload.WellFormed)
    (hnew : listVersionOf (readRevocationList mac f.revocationList) ≤ payload.version) :
    (writeRevocationList mac payload).run f=(.ok (),putRevocationList mac payload f) := by
  rw [writeRevocationList,Process.run_bind,Process.run_require,
    Effect.bind_apply_ok (Effect.require_apply ⟨h.nonEmpty,h.version⟩ _ f),Process.run_observe_bind]
  cases hrea : readRevocationList mac f.revocationList with
  | valid current =>
    rw [hrea,listVersionOf] at hnew
    dsimp only
    rw [Process.run_bind,Process.run_require,Effect.bind_apply_ok (Effect.require_apply hnew.not_gt _ f)]
    rfl
  | absent => rfl
  | invalid => rfl

theorem run_writeRevocationVersionAnchor {version : Nat} (h : version < 2 ^ 53)
    (hnew : anchorVersionOf (readRevocationVersionAnchor mac f.revocationAnchor) ≤ version) :
    (writeRevocationVersionAnchor mac version).run f=(.ok (),putRevocationAnchor mac version f) := by
  rw [writeRevocationVersionAnchor,Process.run_bind,Process.run_require,
    Effect.bind_apply_ok (Effect.require_apply h _ f),Process.run_observe_bind]
  cases hrea : readRevocationVersionAnchor mac f.revocationAnchor with
  | valid current =>
    rw [hrea,anchorVersionOf] at hnew
    dsimp only
    rw [Process.run_bind,Process.run_require,Effect.bind_apply_ok (Effect.require_apply hnew.not_gt _ f)]
    rfl
  | absent => rfl
  | invalid => rfl

variable (now : String)

theorem run_raiseVerified
    (h : verifyPushedRevocationList verify signed (writableFloor mac f)=.ok payload) :
    ∃ g, (raiseVerified mac verify signed now).run f=(.ok (.ok payload),g) ∧ Raised mac f g ∧
      ∃ w, readEpochWitness mac g.witness=.valid w ∧ NumberBelow (some payload.version) w.revocationFloor := by
  have hver := (verifyPushedRevocationList_eq_ok verify h).1.version
  rw [raiseVerified,Process.run_bind,Effect.bind_apply_ok (run_writableRevocationVersionFloor mac f),h]
  dsimp only
  obtain ⟨g,hrun,hrai,hflo⟩ := run_raiseRevocationFloorLatch mac hver now f
  rw [Process.run_bind,Effect.bind_apply_ok hrun]
  exact ⟨g,rfl,hrai,hflo⟩

theorem run_persistVerified (h : payload.WellFormed)
    (hnew : writableFloor mac f ≤ payload.version) :
    (persistVerified mac (.ok payload)).run f =
      (.ok (.ok ⟨payload.version,payload.revokedLicenseIds.length⟩),
        putRevocationAnchor mac payload.version (putRevocationList mac payload f)) := by
  rw [writableFloor,max_le_iff] at hnew
  rw [persistVerified,Process.run_bind,Effect.bind_apply_ok (run_writeRevocationList mac h hnew.1),
    Process.run_bind,Effect.bind_apply_ok (run_writeRevocationVersionAnchor mac
      (f := putRevocationList mac payload f) h.version hnew.2)]
  rfl

theorem run_acquirePushLock (h : f.pushLock=false) :
    acquirePushLock.run f=(.ok (),{ f with pushLock := true }) := by
  rw [acquirePushLock,Process.run_observe_bind,Process.run_bind,Process.run_require,
    Effect.bind_apply_ok (Effect.require_apply (by rw [h]; exact Bool.false_ne_true) _ f)]
  rfl

theorem Raised.lists (h : Raised mac f g) :
    g.revocationList=f.revocationList ∧ g.revocationAnchor=f.revocationAnchor := by
  cases h with
  | kept => exact ⟨rfl,rfl⟩
  | written _ _ => exact ⟨rfl,rfl⟩

theorem run_persistPushedRevocationListSerialized (hlok : f.pushLock=false)
    (h : verifyPushedRevocationList verify signed (writableFloor mac f)=.ok payload) :
    ∃ g, (persistPushedRevocationListSerialized mac verify signed now).run f =
        (.ok (.ok ⟨payload.version,payload.revokedLicenseIds.length⟩),g) ∧
      readRevocationList mac g.revocationList=.valid payload ∧ g.pushLock=false := by
  obtain ⟨hwel,hnew⟩ := verifyPushedRevocationList_eq_ok verify h
  have hloc : verifyPushedRevocationList verify signed (writableFloor mac { f with pushLock := true }) =
      .ok payload := h
  obtain ⟨g,hrun,hrai,-⟩ := run_raiseVerified mac verify now hloc
  obtain ⟨hlis,hanc⟩ := Raised.lists mac hrai
  have hflo : writableFloor mac g ≤ payload.version := by
    rw [writableFloor,hlis,hanc]
    exact hnew.le
  refine ⟨releasePushLock (putRevocationAnchor mac payload.version (putRevocationList mac payload g)),?_,?_,rfl⟩
  · rw [persistPushedRevocationListSerialized,withPushLock,Process.run_bind,
      Effect.bind_apply_ok (run_acquirePushLock hlok),Process.run_ensure,Process.run_bind,
      Effect.bind_apply_ok hrun,run_persistVerified mac hwel hflo]
  · exact read_putRevocationList mac hwel g

theorem sound_writeRevocationList (payload : RevocationListPayload) (seen : Option Fortress) :
    Sound witnessView (EnvelopeView P) (Advances mac) seen (writeRevocationList mac payload) := by
  refine Sound.require fun _ => ?_
  intro f _
  change Sound _ _ _ _ (match readRevocationList mac f.revocationList with
    | .valid current => _
    | _ => _)
  cases readRevocationList mac f.revocationList with
  | valid current => exact Sound.require fun _ => Sound.keeps (fun _ => rfl) (Sound.done _)
  | absent => exact Sound.keeps (fun _ => rfl) (Sound.done _)
  | invalid => exact Sound.keeps (fun _ => rfl) (Sound.done _)

theorem sound_writeRevocationVersionAnchor (version : Nat) (seen : Option Fortress) :
    Sound witnessView (EnvelopeView P) (Advances mac) seen (writeRevocationVersionAnchor mac version) := by
  refine Sound.require fun _ => ?_
  intro f _
  change Sound _ _ _ _ (match readRevocationVersionAnchor mac f.revocationAnchor with
    | .valid current => _
    | _ => _)
  cases readRevocationVersionAnchor mac f.revocationAnchor with
  | valid current => exact Sound.require fun _ => Sound.keeps (fun _ => rfl) (Sound.done _)
  | absent => exact Sound.keeps (fun _ => rfl) (Sound.done _)
  | invalid => exact Sound.keeps (fun _ => rfl) (Sound.done _)

theorem sound_persistVerified (verification : Except RevocationListVerifyReason RevocationListPayload)
    (seen : Option Fortress) :
    Sound witnessView (EnvelopeView P) (Advances mac) seen (persistVerified mac verification) := by
  cases verification with
  | error reason => exact Sound.done _
  | ok payload =>
    refine Sound.bind (sound_writeRevocationList mac payload seen) fun _ _ => ?_
    exact Sound.bind (sound_writeRevocationVersionAnchor mac payload.version _) fun _ _ => Sound.done _

theorem sound_raiseVerified (signed : Json) (now : String) (seen : Option Fortress) :
    Sound witnessView (EnvelopeView P) (Advances mac) seen (raiseVerified mac verify signed now) := by
  intro f₁ _ f₂ _
  change Sound _ _ _ _ (match verifyPushedRevocationList verify signed
      (max (listVersionOf (readRevocationList mac f₁.revocationList))
        (anchorVersionOf (readRevocationVersionAnchor mac f₂.revocationAnchor))) with
    | .error reason => _
    | .ok payload => _)
  cases verifyPushedRevocationList verify signed
      (max (listVersionOf (readRevocationList mac f₁.revocationList))
        (anchorVersionOf (readRevocationVersionAnchor mac f₂.revocationAnchor))) with
  | error reason => exact Sound.done _
  | ok payload => exact Sound.bind (sound_raiseRevocationFloorLatch payload.version now _) fun _ _ => Sound.done _

theorem sound_push (signed : Json) (now : String) :
    Sound witnessView (EnvelopeView P) (Advances mac) none
      (persistPushedRevocationListSerialized mac verify signed now) := by
  refine Sound.bind ?_ fun _ seen => ?_
  · intro f _
    exact Sound.require fun _ => Sound.keeps (fun _ => rfl) (Sound.done _)
  · refine Sound.ensure ?_ fun _ => rfl
    exact Sound.bind (sound_raiseVerified mac verify signed now seen) fun verification _ =>
      sound_persistVerified mac verification _

/-- A push that stops after so many steps, or ends before; the operator taking a lock away; and somebody putting
other files in the place of the list and of its version. -/
inductive RevocationEvent where
  | push (signed : Json) (now : String) (steps : Nat)
  | removeLock
  | replace (list anchor : MetaFile)

def applyRevocationEvent (f : Fortress) : RevocationEvent → Fortress
  | .push signed now steps => (persistPushedRevocationListSerialized mac verify signed now).after steps f
  | .removeLock => releasePushLock f
  | .replace list anchor => { f with revocationList := list, revocationAnchor := anchor }

def runRevocationEvents (f : Fortress) (events : List RevocationEvent) : Fortress :=
  events.foldl (applyRevocationEvent mac verify) f

def lockAndRaise (signed : Json) (now : String) :
    CustodyM (Except RevocationListVerifyReason RevocationListPayload) := do
  acquirePushLock
  raiseVerified mac verify signed now

def raisedBy (f : Fortress) : RevocationEvent → List Nat
  | .push signed now steps =>
    match ((lockAndRaise mac verify signed now).run f).1 with
    | .ok (.ok payload) =>
      if (lockAndRaise mac verify signed now).steps f ≤ steps then [payload.version] else []
    | _ => []
  | _ => []

def raisedVersions (f : Fortress) : List RevocationEvent → List Nat
  | [] => []
  | event::events => raisedBy mac verify f event++raisedVersions (applyRevocationEvent mac verify f event) events

def FloorCovers (f : Fortress) (versions : List Nat) : Prop :=
  ∀ v∈versions, 0 < v ∧ ∃ w, readEpochWitness mac f.witness=.valid w ∧ NumberBelow (some v) w.revocationFloor

variable {mac verify}

theorem FloorCovers.rises {versions : List Nat} (h : FloorCovers mac f versions)
    (hris : Rises mac f.witness g.witness) : FloorCovers mac g versions := by
  intro v hv
  obtain ⟨hpos,w,hw,hflo⟩ := h v hv
  obtain ⟨w',hw',hbel⟩ := hris w hw
  exact ⟨hpos,w',hw',hflo.trans hbel.revocationFloor⟩

theorem rises_applyRevocationEvent (f : Fortress) (event : RevocationEvent) :
    Rises mac f.witness (applyRevocationEvent mac verify f event).witness := by
  cases event with
  | push signed now steps =>
    have hsou := sound_push mac verify (P := fun _ => True) signed now
    exact hsou.after (s := f) trivial steps
  | removeLock => exact refl f.witness
  | replace list anchor => exact refl f.witness

theorem run_acquirePushLock_held (h : f.pushLock=true) :
    acquirePushLock.run f=(.error .lockContention,f) := by
  rw [acquirePushLock,Process.run_observe_bind,Process.run_bind,Process.run_require,
    Effect.bind_apply_error (Effect.require_fails (not_not.mpr h) _ f)]

theorem rises_after_raise {now : String}
    (hloc : f.pushLock=false)
    (hrun : (raiseVerified mac verify signed now).run { f with pushLock := true } = (.ok (.ok payload),g))
    {steps : Nat} (hste : (lockAndRaise mac verify signed now).steps f ≤ steps) :
    Rises mac g.witness ((persistPushedRevocationListSerialized mac verify signed now).after steps f).witness := by
  have hacq := run_acquirePushLock hloc
  rw [lockAndRaise,Process.steps_bind hacq] at hste
  obtain ⟨rest,rfl⟩ := Nat.exists_eq_add_of_le hste
  rw [persistPushedRevocationListSerialized,withPushLock,Nat.add_assoc,Process.after_bind_add hacq,
    Process.after_ensure_bind_add hrun]
  have hsou : Sound witnessView (EnvelopeView fun _ => True) (Advances mac) none
      ((persistVerified mac (.ok payload)).ensure releasePushLock) :=
    Sound.ensure (sound_persistVerified mac (.ok payload) none) fun _ => rfl
  exact hsou.after (s := g) trivial rest

theorem floorCovers_raisedBy (f : Fortress) (event : RevocationEvent) :
    FloorCovers mac (applyRevocationEvent mac verify f event) (raisedBy mac verify f event) := by
  cases event with
  | removeLock => nofun
  | replace list anchor => nofun
  | push signed now steps =>
    rw [raisedBy,applyRevocationEvent]
    by_cases hloc : f.pushLock=true
    · rw [lockAndRaise,Process.run_bind,Effect.bind_apply_error (run_acquirePushLock_held hloc)]
      nofun
    rw [Bool.not_eq_true] at hloc
    cases hver : verifyPushedRevocationList verify signed (writableFloor mac { f with pushLock := true }) with
    | error reason =>
      have hrun : (lockAndRaise mac verify signed now).run f=(.ok (.error reason),{ f with pushLock := true }) := by
        rw [lockAndRaise,Process.run_bind,Effect.bind_apply_ok (run_acquirePushLock hloc),raiseVerified,
          Process.run_bind,Effect.bind_apply_ok (run_writableRevocationVersionFloor mac _),hver]
        rfl
      rw [hrun]
      nofun
    | ok payload =>
      obtain ⟨g,hrai,-,w,hw,hflo⟩ := run_raiseVerified mac verify now hver
      have hrun : (lockAndRaise mac verify signed now).run f=(.ok (.ok payload),g) := by
        rw [lockAndRaise,Process.run_bind,Effect.bind_apply_ok (run_acquirePushLock hloc),hrai]
      rw [hrun]
      dsimp only
      split_ifs with hste
      · have hcov : FloorCovers mac g [payload.version] := by
          intro v hv
          rw [List.mem_singleton.mp hv]
          exact ⟨Nat.zero_lt_of_lt (verifyPushedRevocationList_eq_ok verify hver).2,w,hw,hflo⟩
        exact hcov.rises (rises_after_raise hloc hrai hste)
      · nofun

theorem floorCovers_runRevocationEvents (f : Fortress) (events : List RevocationEvent) :
    FloorCovers mac (runRevocationEvents mac verify f events) (raisedVersions mac verify f events) := by
  have hris : ∀ (events : List RevocationEvent) (f : Fortress),
      Rises mac f.witness (runRevocationEvents mac verify f events).witness := by
    intro events
    induction events with
    | nil => exact fun f => refl f.witness
    | cons event events ih =>
      exact fun f => IsTrans.trans _ _ _ (rises_applyRevocationEvent f event) (ih _)
  induction events generalizing f with
  | nil => nofun
  | cons event events ih =>
    intro v hv
    rcases List.mem_append.mp hv with hv | hv
    · exact (floorCovers_raisedBy f event).rises (hris events _) v hv
    · exact ih _ v hv

def effectiveFloor (mac : MasterMac) (f : Fortress) : Nat :=
  max (listVersionOf (readRevocationList mac f.revocationList))
    (max (anchorVersionOf (readRevocationVersionAnchor mac f.revocationAnchor))
      (revocationFloorOf (readEpochWitness mac f.witness)).1)

theorem run_effectiveRevocationVersionFloor (f : Fortress) :
    (effectiveRevocationVersionFloor mac).run f=(.ok (effectiveFloor mac f),f) := rfl

/-- A clean verdict means a list at the floor, or no list and no floor. -/
theorem revocationVerifiability_clean {floor listVersion : Nat}
    (h : ((revocationVerifiability mac).run f).1=.ok (.clean floor listVersion)) :
    (∃ payload, readRevocationList mac f.revocationList=.valid payload ∧ effectiveFloor mac f ≤ payload.version) ∨
      (f.revocationList=none ∧ effectiveFloor mac f=0) := by
  rw [revocationVerifiability,Process.run_bind,Effect.bind_apply_ok (run_effectiveRevocationVersionFloor f),
    Process.run_observe_bind] at h
  by_cases hpre : f.revocationList.isSome=true
  · rw [if_pos hpre,Process.run_observe_bind] at h
    cases hrea : readRevocationList mac f.revocationList with
    | valid payload =>
      rw [hrea] at h
      dsimp only at h
      split_ifs at h with hlow
      · cases h
      · exact .inl ⟨payload,rfl,not_lt.mp hlow⟩
    | absent =>
      rw [hrea] at h
      cases h
    | invalid =>
      rw [hrea] at h
      cases h
  · rw [if_neg hpre] at h
    split_ifs at h with hflo
    · cases h
    · exact .inr ⟨by simpa using hpre,Nat.eq_zero_of_not_pos hflo⟩

theorem le_effectiveFloor {versions : List Nat} (h : FloorCovers mac f versions) {v : Nat}
    (hv : v∈versions) : v ≤ effectiveFloor mac f := by
  obtain ⟨-,w,hw,hflo⟩ := h v hv
  obtain ⟨m,hm,hle⟩ := hflo v rfl
  rw [effectiveFloor,hw,revocationFloorOf,hm]
  exact le_trans hle (le_trans (le_max_right _ _) (le_max_right _ _))

def ListFirst (mac : MasterMac) (payload : RevocationListPayload) (f g : Fortress) : Prop :=
  (g.revocationList=f.revocationList ∧ g.revocationAnchor=f.revocationAnchor) ∨
    readRevocationList mac g.revocationList=.valid payload

def KeepsListFirst (mac : MasterMac) (payload : RevocationListPayload) (f a b : Fortress) : Prop :=
  ListFirst mac payload f a → ListFirst mac payload f b

instance (payload : RevocationListPayload) (f : Fortress) : Std.Refl (KeepsListFirst mac payload f) where
  refl _ := id

instance (payload : RevocationListPayload) (f : Fortress) :
    IsTrans Fortress (KeepsListFirst mac payload f) where
  trans _ _ _ hab hbc h := hbc (hab h)

def listView (f : Fortress) : MetaFile × MetaFile := (f.revocationList,f.revocationAnchor)

theorem keepsListFirst_of_eq {a b : Fortress} (h : listView a=listView b) :
    KeepsListFirst mac payload f a b := by
  have hlis : a.revocationList=b.revocationList := congrArg Prod.fst h
  have hanc : a.revocationAnchor=b.revocationAnchor := congrArg Prod.snd h
  rw [KeepsListFirst,ListFirst,ListFirst,hlis,hanc]
  exact id

theorem listView_writeEpochWitness (data : EpochWitness) (seen : Option Fortress) :
    Sound listView (fun _ => True) Eq seen (writeEpochWitness mac data false) := by
  rw [writeEpochWitness_false]
  intro f _
  beta_reduce
  refine Sound.bind ?_ fun w seen => Sound.keeps (fun _ => rfl) (Sound.done _)
  cases readEpochWitness mac f.witness with
  | valid current => exact Sound.require fun _ => Sound.done _
  | absent => exact Sound.done _
  | invalid => exact Sound.done _

theorem listView_raiseVerified (signed : Json) (now : String) (seen : Option Fortress) :
    Sound listView (fun _ => True) Eq seen (raiseVerified mac verify signed now) := by
  intro f₁ _ f₂ _
  change Sound _ _ _ _ (match verifyPushedRevocationList verify signed
      (max (listVersionOf (readRevocationList mac f₁.revocationList))
        (anchorVersionOf (readRevocationVersionAnchor mac f₂.revocationAnchor))) with
    | .error reason => _
    | .ok payload => _)
  cases verifyPushedRevocationList verify signed
      (max (listVersionOf (readRevocationList mac f₁.revocationList))
        (anchorVersionOf (readRevocationVersionAnchor mac f₂.revocationAnchor))) with
  | error reason => exact Sound.done _
  | ok payload =>
    refine Sound.bind (Sound.require fun _ f₃ _ => ?_) fun _ _ => Sound.done _
    change Sound _ _ _ _ (if floorRaised payload.version (readEpochWitness mac f₃.witness) then _ else _)
    split_ifs
    · exact Sound.done _
    · exact listView_writeEpochWitness _ _

theorem follows_persistVerified (h : payload.WellFormed)
    (hnew : listVersionOf (readRevocationList mac g.revocationList) ≤ payload.version) :
    (persistVerified mac (.ok payload)).Follows (KeepsListFirst mac payload f) g := by
  have hput : KeepsListFirst mac payload f g (putRevocationList mac payload g) :=
    fun _ => .inr (read_putRevocationList mac h g)
  refine Process.Follows.bind ?_ fun _ g' hrun => ?_
  · refine Process.Follows.require fun _ => ?_
    change Process.Follows _ (match readRevocationList mac g.revocationList with
      | .valid current => _
      | _ => _) g
    cases readRevocationList mac g.revocationList with
    | valid current => exact Process.Follows.require fun _ => ⟨hput,trivial⟩
    | absent => exact ⟨hput,trivial⟩
    | invalid => exact ⟨hput,trivial⟩
  · rw [run_writeRevocationList mac h hnew] at hrun
    cases hrun
    have hanc : KeepsListFirst mac payload f (putRevocationList mac payload g)
        (putRevocationAnchor mac payload.version (putRevocationList mac payload g)) :=
      fun _ => .inr (read_putRevocationList mac h g)
    refine Process.Follows.bind (Process.Follows.require fun _ => ?_) fun _ _ _ => trivial
    change Process.Follows _ (match readRevocationVersionAnchor mac
        (putRevocationList mac payload g).revocationAnchor with
      | .valid current => _
      | _ => _) _
    cases readRevocationVersionAnchor mac (putRevocationList mac payload g).revocationAnchor with
    | valid current => exact Process.Follows.require fun _ => ⟨hanc,trivial⟩
    | absent => exact ⟨hanc,trivial⟩
    | invalid => exact ⟨hanc,trivial⟩

theorem follows_push
    (hlok : f.pushLock=false)
    (h : verifyPushedRevocationList verify signed (writableFloor mac f)=.ok payload) :
    (persistPushedRevocationListSerialized mac verify signed now).Follows (KeepsListFirst mac payload f) f := by
  obtain ⟨hwel,hnew⟩ := verifyPushedRevocationList_eq_ok verify h
  refine Process.Follows.bind ?_ fun _ f' hacq => ?_
  · exact Process.Follows.require fun _ => ⟨keepsListFirst_of_eq rfl,trivial⟩
  · rw [run_acquirePushLock hlok] at hacq
    cases hacq
    refine Process.Follows.ensure ?_ fun _ => keepsListFirst_of_eq rfl
    refine Process.Follows.bind ?_ fun verification g hrun => ?_
    · exact ((listView_raiseVerified signed now none).follows trivial (.inl rfl)).mono
        fun _ _ => keepsListFirst_of_eq
    · have hloc : verifyPushedRevocationList verify signed
          (writableFloor mac { f with pushLock := true })=.ok payload := h
      obtain ⟨g',hrai,hrad,-⟩ := run_raiseVerified mac verify now hloc
      cases hrai.symm.trans hrun
      refine follows_persistVerified hwel ?_
      rw [(Raised.lists mac hrad).1]
      exact le_trans (le_max_left _ _) hnew.le

theorem listFirst_after_push
    (hloc : f.pushLock=false)
    (h : verifyPushedRevocationList verify signed (writableFloor mac f)=.ok payload) (steps : Nat) :
    ListFirst mac payload f ((persistPushedRevocationListSerialized mac verify signed now).after steps f) :=
  (follows_push now hloc h).after steps (.inl ⟨rfl,rfl⟩)

/-- After any run of pushes that may stop anywhere, with the list and its version replaced at will, a clean
verdict needs a list at least as new as every completed raise, or no list where nothing was raised. A push that
stopped before its list was written can be made again once its lock is taken away. -/
theorem no_unrevocation (mac : MasterMac) (verify : IssuerVerify) :
    (∀ (f : Fortress) (events : List RevocationEvent) (floor listVersion : Nat),
      ((revocationVerifiability mac).run (runRevocationEvents mac verify f events)).1 =
          .ok (.clean floor listVersion) →
        (∃ payload, readRevocationList mac (runRevocationEvents mac verify f events).revocationList =
            .valid payload ∧ ∀ v∈raisedVersions mac verify f events, v ≤ payload.version) ∨
          raisedVersions mac verify f events=[] ∧
            (runRevocationEvents mac verify f events).revocationList=none) ∧
    ∀ (f g : Fortress) (signed : Json) (now later : String) (payload : RevocationListPayload) (steps : Nat)
      (list anchor : MetaFile),
      f.pushLock=false → verifyPushedRevocationList verify signed (writableFloor mac f)=.ok payload →
      g=(persistPushedRevocationListSerialized mac verify signed now).after steps f →
      listVersionOf (readRevocationList mac g.revocationList) < payload.version →
      listVersionOf (readRevocationList mac list) < payload.version →
      anchor=g.revocationAnchor ∨ anchorVersionOf (readRevocationVersionAnchor mac anchor) < payload.version →
      ∃ h, (persistPushedRevocationListSerialized mac verify signed later).run
            { g with revocationList := list, revocationAnchor := anchor, pushLock := false } =
          (.ok (.ok ⟨payload.version,payload.revokedLicenseIds.length⟩),h) ∧
        readRevocationList mac h.revocationList=.valid payload := by
  refine ⟨fun f events floor listVersion hcle => ?_,?_⟩
  · have hcov : FloorCovers mac (runRevocationEvents mac verify f events)
        (raisedVersions mac verify f events) := floorCovers_runRevocationEvents f events
    rcases revocationVerifiability_clean hcle with ⟨payload,hrea,hflo⟩ | ⟨hlis,hflo⟩
    · exact .inl ⟨payload,hrea,fun v hv => le_trans (le_effectiveFloor hcov hv) hflo⟩
    · refine .inr ⟨List.eq_nil_iff_forall_not_mem.mpr fun v hv => ?_,hlis⟩
      have hle := le_effectiveFloor hcov hv
      rw [hflo] at hle
      exact absurd (hcov v hv).1 (Nat.not_lt.mpr hle)
  · intro f g signed now later payload steps list anchor hloc hver hg hmis hlis hanc
    have hnew := (verifyPushedRevocationList_eq_ok verify hver).2
    have hunw : g.revocationAnchor=f.revocationAnchor := by
      rw [hg] at hmis ⊢
      rcases listFirst_after_push now hloc hver steps with hsam | hwri
      · exact hsam.2
      · rw [hwri] at hmis
        exact absurd hmis (lt_irrefl _)
    have hanr : anchorVersionOf (readRevocationVersionAnchor mac anchor) < payload.version := by
      rcases hanc with rfl | hbel
      · rw [hunw]
        exact lt_of_le_of_lt (le_max_right _ _) hnew
      · exact hbel
    have hflo : writableFloor mac
        { g with revocationList := list, revocationAnchor := anchor, pushLock := false } < payload.version :=
      max_lt hlis hanr
    obtain ⟨h,hrun,hrea,-⟩ := run_persistPushedRevocationListSerialized mac verify later rfl
      (verifyPushedRevocationList_of_lt verify hver hflo)
    exact ⟨h,hrun,hrea⟩

end Running

/-! The first list of a fortress, and its push cut short with the lock taken. -/

def firstList : RevocationListPayload := ⟨1,["licence-1"],"issuer","2026-01-01"⟩

def signedFirstList : Json :=
  objectOf [("payload",some (encodePayload firstList)),("signature",some (.str "c2ln"))]

def freshFortress : Fortress := ⟨none,none,none,none,false,.absent,.valid,0,.notApplicable⟩

def pushFirstList : CustodyM (Except RevocationListVerifyReason PushedRevocationList) :=
  persistPushedRevocationListSerialized (fun _ _ => []) (fun _ _ => true) signedFirstList "2026-01-02"

theorem wellFormed_firstList : firstList.WellFormed := by
  refine ⟨Nat.one_lt_two_pow (by decide),?_,by decide⟩
  simp [sortIds,firstList]

theorem verify_signedFirstList :
    verifyPushedRevocationList (fun _ _ => true) signedFirstList (writableFloor (fun _ _ => []) freshFortress) =
      .ok firstList := by
  have hpay : field signedFirstList "payload" = some (encodePayload firstList) := by
    rw [signedFirstList,field_objectOf (by simp)]
    simp
  have hsig : field signedFirstList "signature" = some (.str "c2ln") := by
    rw [signedFirstList,field_objectOf (by simp)]
    simp [List.lookup_cons]
  have hpar : signedParts signedFirstList=some (firstList,"c2ln") := by
    rw [signedParts,hsig,hpay,Option.bind_some,Option.bind_some,
      decodePayload_encode wellFormed_firstList]
    rfl
  rw [verifyPushedRevocationList,hpar]
  rfl

theorem first_push_made_again :
    listVersionOf (readRevocationList (fun _ _ => []) (pushFirstList.after 2 freshFortress).revocationList)=0 ∧
      ∃ h, pushFirstList.run { pushFirstList.after 2 freshFortress with
            revocationList := none, revocationAnchor := none, pushLock := false } = (.ok (.ok ⟨1,1⟩),h) ∧
        readRevocationList (fun _ _ => []) h.revocationList=.valid firstList :=
  ⟨rfl,(no_unrevocation (fun _ _ => []) (fun _ _ => true)).2 freshFortress (pushFirstList.after 2 freshFortress)
    signedFirstList "2026-01-02" "2026-01-02" firstList 2 none none rfl verify_signedFirstList rfl
    Nat.zero_lt_one Nat.zero_lt_one (.inl rfl)⟩

theorem first_push_wedged :
    verifyPushedRevocationList (fun _ _ => true) signedFirstList (writableFloor (fun _ _ => []) freshFortress) =
        .ok firstList ∧
      (pushFirstList.after 2 freshFortress).revocationList=none ∧
      (pushFirstList.run (pushFirstList.after 2 freshFortress)).1=.error .lockContention :=
  ⟨verify_signedFirstList,rfl,rfl⟩

end CastleWall.Entitlement
