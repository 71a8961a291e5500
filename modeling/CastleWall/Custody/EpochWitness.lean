import CastleWall.Support.Process
import CastleWall.Cognitive.StateStore

/-! # The epoch witness

`core/anti-rollback.ts`: the record `custody-epoch-witness-v1`, which carries the custody epoch and three
latches that only rise. Like every record of `_meta` below it holds its data beside a MAC under a key of the
master. -/

namespace CastleWall.Custody

open Text Cognitive Cognitive.StateStore

/-- A file of `_meta`: absent, not JSON, or JSON. -/
abbrev MetaFile : Type := Option (Option Json)

inductive RecordStatus (α : Type) where
  | valid (data : α)
  | absent
  | invalid

inductive MacPurpose where
  | epochWitness
  | rollbackFreeze
  | revocationList
  | revocationVersionAnchor
  | configSecurityBaseline

abbrev MasterMac : Type := MacPurpose → List UInt8 → List UInt8

def decodeBase64url (str : String) : List UInt8 := nodeBase64 (restoreBase64 str)

theorem decodeBase64url_toBase64url (bytes : List UInt8) : decodeBase64url (toBase64url bytes)=bytes := by
  rw [decodeBase64url,restoreBase64,toBase64url,String.toList_ofList]
  exact nodeBase64_encodeUrl bytes _

/-- What sets one kind of record apart: its marker, its key, the domain of its MAC and its data. -/
structure RecordKind (α : Type) where
  marker : String
  purpose : MacPurpose
  domain : String
  encode : α → Json
  /-- The data a value holds, of the fields the kind has. -/
  decode : Json → Option α

namespace RecordKind

variable {α : Type} (kind : RecordKind α) (mac : MasterMac)

def macBytes (data : α) : List UInt8 :=
  mac kind.purpose (utf8Bytes (kind.domain++(kind.encode data).canonicalText))

def record (data : α) : Json :=
  objectOf [(kind.marker,some (.bool true)),("data",some (kind.encode data)),
    ("mac",some (.str (toBase64url (kind.macBytes mac data))))]

def parts (parsed : Json) : Option (α × String) :=
  if isTrue (field parsed kind.marker) then
    match (field parsed "data").bind kind.decode, field parsed "mac" with
    | some data, some (.str provided) => some (data,provided)
    | _, _ => none
  else none

/-- The MAC is computed over the fields the kind has, whatever else the data holds. -/
def read : MetaFile → RecordStatus α
  | none => .absent
  | some none => .invalid
  | some (some parsed) =>
    match kind.parts parsed with
    | some (data,provided) =>
      if decodeBase64url provided=kind.macBytes mac data then .valid data else .invalid
    | none => .invalid

theorem read_record {data : α} (hdec : kind.decode (kind.encode data)=some data)
    (hdat : kind.marker ≠ "data") (hmac : kind.marker ≠ "mac") :
    kind.read mac (some (some (kind.record mac data)))=.valid data := by
  have hnod : ([(kind.marker,some (Json.bool true)),("data",some (kind.encode data)),
      ("mac",some (.str (toBase64url (kind.macBytes mac data))))].map Prod.fst).Nodup := by
    simp [hdat,hmac]
  have hpar : kind.parts (kind.record mac data) =
      some (data,toBase64url (kind.macBytes mac data)) := by
    simp [parts,record,field_objectOf hnod,List.lookup_cons,StateStore.isTrue,hdec,
      beq_eq_false_iff_ne.mpr hdat.symm,beq_eq_false_iff_ne.mpr hmac.symm]
  rw [read,hpar]
  simp only [decodeBase64url_toBase64url,if_true]

end RecordKind

def safeNat : Json → Option Nat
  | .num n => if 0 ≤ n ∧ isSafeInteger n then some n.toNat else none
  | _ => none

def stringOf : Json → Option String
  | .str s => some s
  | _ => none

def booleanOf : Json → Option Bool
  | .bool b => some b
  | _ => none

/-- A field that may be left out, but not be of another type. -/
def optional {α : Type} (decode : Json → Option α) : Option Json → Option (Option α)
  | none => some none
  | some v => (decode v).map some

theorem safeNat_num {n : Nat} (h : n < 2 ^ 53) : safeNat (.num n)=some n := by
  have hsaf : isSafeInteger n=true := by
    rw [isSafeInteger,decide_eq_true_iff]
    omega
  rw [safeNat,if_pos ⟨Int.natCast_nonneg n,hsaf⟩,Int.toNat_natCast]

theorem safeNat_lt {v : Json} {n : Nat} (h : safeNat v=some n) : n < 2 ^ 53 := by
  unfold safeNat at h
  split at h
  · split_ifs at h with hsaf
    rw [isSafeInteger,decide_eq_true_iff] at hsaf
    rw [← Option.some.inj h]
    omega
  · cases h

structure EpochWitness where
  epoch : Nat
  (epochId witnessedAt : String)
  baselineEstablished : Option Bool
  (baselineSchema revocationFloor : Option Nat)
deriving DecidableEq

def epochWitnessFields (w : EpochWitness) : List (String × Option Json) :=
  [("epoch",some (.num w.epoch)),("epoch_id",some (.str w.epochId)),
    ("witnessed_at",some (.str w.witnessedAt)),
    ("baseline_established",w.baselineEstablished.map .bool),
    ("baseline_schema",w.baselineSchema.map fun n : Nat => .num n),
    ("revocation_floor",w.revocationFloor.map fun n : Nat => .num n)]

def encodeEpochWitness (w : EpochWitness) : Json := objectOf (epochWitnessFields w)

def decodeEpochWitness (data : Json) : Option EpochWitness := do
  let epoch ← (field data "epoch").bind safeNat
  let epochId ← (field data "epoch_id").bind stringOf
  let witnessedAt ← (field data "witnessed_at").bind stringOf
  let baselineEstablished ← optional booleanOf (field data "baseline_established")
  let baselineSchema ← optional safeNat (field data "baseline_schema")
  let revocationFloor ← optional safeNat (field data "revocation_floor")
  return ⟨epoch,epochId,witnessedAt,baselineEstablished,baselineSchema,revocationFloor⟩

structure EpochWitness.Safe (w : EpochWitness) : Prop where
  epoch : w.epoch < 2 ^ 53
  baselineSchema : ∀ n, w.baselineSchema=some n → n < 2 ^ 53
  revocationFloor : ∀ n, w.revocationFloor=some n → n < 2 ^ 53

theorem optional_map {α : Type} {decode : Json → Option α} {encode : α → Json} {v : Option α}
    (h : ∀ a, v=some a → decode (encode a)=some a) : optional decode (v.map encode)=some v := by
  cases v with
  | none => rfl
  | some a => rw [Option.map_some,optional,h a rfl,Option.map_some]

theorem field_encodeEpochWitness (w : EpochWitness) (key : String) :
    field (encodeEpochWitness w) key=((epochWitnessFields w).lookup key).join :=
  field_objectOf (by simp [epochWitnessFields]) key

variable {w : EpochWitness}

theorem decodeEpochWitness_encode (h : w.Safe) :
    decodeEpochWitness (encodeEpochWitness w)=some w := by
  have hepo : field (encodeEpochWitness w) "epoch" = some (.num w.epoch) := by
    rw [field_encodeEpochWitness]
    simp [epochWitnessFields]
  have hepd : field (encodeEpochWitness w) "epoch_id" = some (.str w.epochId) := by
    rw [field_encodeEpochWitness]
    simp [epochWitnessFields,List.lookup_cons]
  have hwit : field (encodeEpochWitness w) "witnessed_at" = some (.str w.witnessedAt) := by
    rw [field_encodeEpochWitness]
    simp [epochWitnessFields,List.lookup_cons]
  have hest : field (encodeEpochWitness w) "baseline_established" =
      w.baselineEstablished.map .bool := by
    rw [field_encodeEpochWitness]
    simp [epochWitnessFields,List.lookup_cons]
  have hsch : field (encodeEpochWitness w) "baseline_schema" =
      w.baselineSchema.map fun n : Nat => .num n := by
    rw [field_encodeEpochWitness]
    simp [epochWitnessFields,List.lookup_cons]
  have hflo : field (encodeEpochWitness w) "revocation_floor" =
      w.revocationFloor.map fun n : Nat => .num n := by
    rw [field_encodeEpochWitness]
    simp [epochWitnessFields,List.lookup_cons]
  rw [decodeEpochWitness,hepo,hepd,hwit,hest,hsch,hflo,Option.bind_some,
    safeNat_num h.epoch,optional_map fun n hn => safeNat_num (h.baselineSchema n hn),
    optional_map fun n hn => safeNat_num (h.revocationFloor n hn),
    show optional booleanOf (w.baselineEstablished.map .bool)=some w.baselineEstablished from
      optional_map fun b _ => rfl]
  rfl

theorem decodeEpochWitness_safe {data : Json} (h : decodeEpochWitness data=some w) :
    w.Safe := by
  simp only [decodeEpochWitness,Option.bind_eq_bind,Option.bind_eq_some_iff,Option.pure_def,
    Option.some.injEq] at h
  obtain ⟨epoch,⟨v,-,hepo⟩,epochId,-,witnessedAt,-,established,-,schema,hsch,floor,hflo,
    rfl⟩ := h
  have hopt : ∀ {v : Option Json} {m : Option Nat}, optional safeNat v=some m →
      ∀ n, m=some n → n < 2 ^ 53 := by
    intro v m hv n hn
    cases v with
    | none =>
      cases hv
      cases hn
    | some v =>
      obtain ⟨k,hk,rfl⟩ := Option.map_eq_some_iff.mp hv
      cases hn
      exact safeNat_lt hk
  exact ⟨safeNat_lt hepo,hopt hsch,hopt hflo⟩

def epochWitnessKind : RecordKind EpochWitness where
  marker := "__sanctuary_custody_epoch_witness_v1"
  purpose := .epochWitness
  domain := "sanctuary.custody-epoch-witness.v1\n"
  encode := encodeEpochWitness
  decode := decodeEpochWitness

def readEpochWitness (mac : MasterMac) (file : MetaFile) : RecordStatus EpochWitness :=
  epochWitnessKind.read mac file

theorem read_epochWitnessRecord (mac : MasterMac) (h : w.Safe) :
    readEpochWitness mac (some (some (epochWitnessKind.record mac w)))=.valid w :=
  epochWitnessKind.read_record mac (decodeEpochWitness_encode h) (by decide +kernel) (by decide +kernel)

theorem safe_of_valid {mac : MasterMac} {file : MetaFile}
    (h : readEpochWitness mac file=.valid w) : w.Safe := by
  unfold readEpochWitness RecordKind.read at h
  split at h
  · cases h
  · cases h
  · split at h
    · rename_i parsed data provided hpar
      split_ifs at h
      cases h
      unfold RecordKind.parts at hpar
      split_ifs at hpar
      split at hpar
      · rename_i hdat _
        cases hpar
        obtain ⟨v,-,hdec⟩ := Option.bind_eq_some_iff.mp hdat
        exact decodeEpochWitness_safe hdec
      · cases hpar
    · cases h

/-- What `readCustodyEpochCount` makes of the rotation record. -/
inductive RotationRecord where
  | absent
  | present (count : Nat)
  | tampered
deriving DecidableEq

/-- What `probeAuditHeadAnchor` makes of the audit head. -/
inductive HeadAnchor where
  | absent
  | valid
  | tampered
deriving DecidableEq

inductive Stage2Verdict where
  | notApplicable
  | consistent
  | suspected (onDiskFloor highestAnchoredCounter : Nat)
  /-- A record the stage needs cannot be read. -/
  | unreadable
deriving DecidableEq

/-- The records the rollback checks and the revocation pushes go by. The rotation record, the audit head, the
custody envelope and the anchor receipts are written elsewhere. -/
structure Fortress where
  (witness freeze revocationList revocationAnchor : MetaFile)
  pushLock : Bool
  rotation : RotationRecord
  headAnchor : HeadAnchor
  envelopeEpoch : Nat
  stage2 : Stage2Verdict

inductive CustodyError where
  | refusesToLowerEpoch (witnessed proposed : Nat)
  | revocationVersionUnsafe (version : Nat)
  | configDowngrade
  | configBaselineRollback
  | configBaselineInvalid
  | attestationNotRecorded
  | leaseLost
  | lockContention
  | malformedRevocationList
  | refusesToLowerRevocationList (stored proposed : Nat)
  | refusesToLowerRevocationAnchor (stored proposed : Nat)

abbrev CustodyM : Type → Type := Process Fortress CustodyError

section Operations

variable (mac : MasterMac)

/-- A latch number that is not lowered. -/
def carryNumber (prior proposed : Option Nat) : Option Nat :=
  match prior, proposed with
  | some prior, some proposed => if proposed < prior then some prior else some proposed
  | some prior, none => some prior
  | none, proposed => proposed

def carryLatches (current data : EpochWitness) : EpochWitness :=
  { data with
    baselineEstablished :=
      if current.baselineEstablished=some true ∧ data.baselineEstablished≠some true then some true
      else data.baselineEstablished
    baselineSchema := carryNumber current.baselineSchema data.baselineSchema
    revocationFloor := carryNumber current.revocationFloor data.revocationFloor }

variable (data : EpochWitness)

/-- The witness to be written over what is stored; an epoch below the stored one is refused. -/
def guardedWitness : CustodyM EpochWitness := do
  let current ← Process.observe fun f => readEpochWitness mac f.witness
  match current with
  | .valid current =>
    Process.require (¬ data.epoch < current.epoch) (.refusesToLowerEpoch current.epoch data.epoch)
    return carryLatches current data
  | _ => return data

def putWitness (f : Fortress) : Fortress :=
  { f with witness := some (some (epochWitnessKind.record mac data)) }

def storeWitness : CustodyM Unit := Process.modify (putWitness mac data)

/-- `writeEpochWitness`, forced or not. -/
def writeEpochWitness (force : Bool) : CustodyM Unit :=
  if force then storeWitness mac data
  else do
    let toWrite ← guardedWitness mac data
    storeWitness mac toWrite

theorem writeEpochWitness_false : writeEpochWitness mac data false=.read fun f =>
    (match readEpochWitness mac f.witness with
      | .valid current => (do
        Process.require (¬ data.epoch < current.epoch) (.refusesToLowerEpoch current.epoch data.epoch)
        return carryLatches current data : CustodyM EpochWitness)
      | _ => pure data) >>= fun toWrite => storeWitness mac toWrite := rfl

structure BaselineLatch where
  established : Bool
  sealedSchema : Option Nat
  witnessUntrusted : Bool

def baselineLatchOf : RecordStatus EpochWitness → BaselineLatch
  | .valid w =>
    if w.baselineEstablished=some true then ⟨true,w.baselineSchema,false⟩ else ⟨false,none,false⟩
  | _ => ⟨false,none,true⟩

def readBaselineEstablishedLatch : CustodyM BaselineLatch :=
  Process.observe fun f => baselineLatchOf (readEpochWitness mac f.witness)

/-- The floor, and whether no witness vouches for it. -/
def revocationFloorOf : RecordStatus EpochWitness → Nat × Bool
  | .valid w => (w.revocationFloor.getD 0,false)
  | _ => (0,true)

def readRevocationFloorLatch : CustodyM (Nat × Bool) :=
  Process.observe fun f => revocationFloorOf (readEpochWitness mac f.witness)

def latchBase (witness : RecordStatus EpochWitness) (now : String) : EpochWitness :=
  match witness with
  | .valid w => w
  | _ => ⟨0,"epoch-0-creation",now,none,none,none⟩

def raisedNumber (prior : Option Nat) (n : Nat) : Nat :=
  match prior with
  | some prior => max prior n
  | none => n

def baselineRaised (sealedSchema : Nat) : RecordStatus EpochWitness → Bool
  | .valid w => decide (w.baselineEstablished=some true) && w.baselineSchema.any (sealedSchema ≤ ·)
  | _ => false

def raisedBaseline (base : EpochWitness) (sealedSchema : Nat) (now : String) : EpochWitness :=
  { base with
    baselineEstablished := some true
    baselineSchema := some (raisedNumber base.baselineSchema sealedSchema)
    witnessedAt := now }

def raiseBaselineEstablishedLatch (sealedSchema : Nat) (now : String) : CustodyM Unit := do
  let witness ← Process.observe fun f => readEpochWitness mac f.witness
  if baselineRaised sealedSchema witness then return ()
  else
    writeEpochWitness mac (raisedBaseline (latchBase witness now) sealedSchema now) false

def floorRaised (version : Nat) : RecordStatus EpochWitness → Bool
  | .valid w => w.revocationFloor.any (version ≤ ·)
  | _ => false

def raisedFloor (base : EpochWitness) (version : Nat) (now : String) : EpochWitness :=
  { base with
    revocationFloor := some (raisedNumber base.revocationFloor version)
    witnessedAt := now }

def raiseRevocationFloorLatch (version : Nat) (now : String) : CustodyM Unit := do
  Process.require (version < 2 ^ 53) (.revocationVersionUnsafe version)
  let witness ← Process.observe fun f => readEpochWitness mac f.witness
  if floorRaised version witness then return ()
  else
    writeEpochWitness mac (raisedFloor (latchBase witness now) version now) false

end Operations

/-- A number that was set stays set and is not lowered. -/
def NumberBelow (a b : Option Nat) : Prop := ∀ n, a=some n → ∃ m, b=some m ∧ n ≤ m

theorem NumberBelow.refl (a : Option Nat) : NumberBelow a a := fun n hn => ⟨n,hn,le_refl n⟩

theorem NumberBelow.trans {a b c : Option Nat} (hab : NumberBelow a b) (hbc : NumberBelow b c) :
    NumberBelow a c := by
  intro n hn
  obtain ⟨m,hm,hnm⟩ := hab n hn
  obtain ⟨k,hk,hmk⟩ := hbc m hm
  exact ⟨k,hk,le_trans hnm hmk⟩

theorem numberBelow_carryNumber (prior proposed : Option Nat) :
    NumberBelow prior (carryNumber prior proposed) := by
  rintro n rfl
  cases proposed with
  | none => exact ⟨n,rfl,le_refl n⟩
  | some m =>
    by_cases hlt : m < n
    · exact ⟨n,if_pos hlt,le_refl n⟩
    · exact ⟨m,if_neg hlt,not_lt.mp hlt⟩

structure EpochWitness.Below (a b : EpochWitness) : Prop where
  epoch : a.epoch ≤ b.epoch
  baselineEstablished : a.baselineEstablished=some true → b.baselineEstablished=some true
  baselineSchema : NumberBelow a.baselineSchema b.baselineSchema
  revocationFloor : NumberBelow a.revocationFloor b.revocationFloor

theorem EpochWitness.Below.refl (w : EpochWitness) : w.Below w := ⟨le_refl _,id,.refl _,.refl _⟩

theorem EpochWitness.Below.trans {a b c : EpochWitness} (hab : a.Below b) (hbc : b.Below c) : a.Below c where
  epoch := le_trans hab.epoch hbc.epoch
  baselineEstablished := hbc.baselineEstablished ∘ hab.baselineEstablished
  baselineSchema := hab.baselineSchema.trans hbc.baselineSchema
  revocationFloor := hab.revocationFloor.trans hbc.revocationFloor

def Rises (mac : MasterMac) (a b : MetaFile) : Prop :=
  ∀ w, readEpochWitness mac a=.valid w → ∃ w', readEpochWitness mac b=.valid w' ∧ w.Below w'

instance (mac : MasterMac) : Std.Refl (Rises mac) where
  refl _ w hw := ⟨w,hw,.refl w⟩

instance (mac : MasterMac) : IsTrans MetaFile (Rises mac) where
  trans _ _ _ hab hbc w hw := by
    obtain ⟨w',hw',hbelow⟩ := hab w hw
    obtain ⟨w'',hw'',hbelow'⟩ := hbc w' hw'
    exact ⟨w'',hw'',hbelow.trans hbelow'⟩

theorem below_carryLatches {current data : EpochWitness} (h : ¬ data.epoch < current.epoch) :
    current.Below (carryLatches current data) where
  epoch := not_lt.mp h
  baselineEstablished := by
    intro hcur
    rw [carryLatches]
    by_cases hdat : data.baselineEstablished=some true
    · rw [if_neg fun hbot => hbot.2 hdat]
      exact hdat
    · rw [if_pos ⟨hcur,hdat⟩]
  baselineSchema := numberBelow_carryNumber _ _
  revocationFloor := numberBelow_carryNumber _ _

theorem carryNumber_eq {prior proposed : Option Nat} {n : Nat} (h : carryNumber prior proposed=some n) :
    prior=some n ∨ proposed=some n := by
  unfold carryNumber at h
  split at h
  · split_ifs at h
    · exact .inl h
    · exact .inr h
  · exact .inl h
  · exact .inr h

theorem safe_carryLatches {current data : EpochWitness} (hcur : current.Safe) (hdat : data.Safe) :
    (carryLatches current data).Safe where
  epoch := hdat.epoch
  baselineSchema := fun n hn => (carryNumber_eq hn).elim (hcur.baselineSchema n) (hdat.baselineSchema n)
  revocationFloor := fun n hn => (carryNumber_eq hn).elim (hcur.revocationFloor n) (hdat.revocationFloor n)

/-! What the raisers write. -/

theorem raisedNumber_lt {prior : Option Nat} {n : Nat} (hpri : ∀ m, prior=some m → m < 2 ^ 53)
    (hn : n < 2 ^ 53) : raisedNumber prior n < 2 ^ 53 := by
  cases prior with
  | none => exact hn
  | some m => exact max_lt (hpri m rfl) hn

theorem le_raisedNumber (prior : Option Nat) (n : Nat) : n ≤ raisedNumber prior n := by
  cases prior with
  | none => exact le_refl n
  | some m => exact le_max_right m n

theorem safe_latchBase {mac : MasterMac} (file : MetaFile) (now : String) :
    (latchBase (readEpochWitness mac file) now).Safe := by
  cases hrea : readEpochWitness mac file with
  | valid w => exact safe_of_valid hrea
  | absent => exact ⟨Nat.two_pow_pos 53,nofun,nofun⟩
  | invalid => exact ⟨Nat.two_pow_pos 53,nofun,nofun⟩

theorem safe_raisedBaseline {base : EpochWitness} (hbas : base.Safe) {sealedSchema : Nat}
    (hsch : sealedSchema < 2 ^ 53) (now : String) : (raisedBaseline base sealedSchema now).Safe where
  epoch := hbas.epoch
  baselineSchema := by
    rintro n ⟨⟩
    exact raisedNumber_lt hbas.baselineSchema hsch
  revocationFloor := hbas.revocationFloor

theorem safe_raisedFloor {base : EpochWitness} (hbas : base.Safe) {version : Nat}
    (hver : version < 2 ^ 53) (now : String) : (raisedFloor base version now).Safe where
  epoch := hbas.epoch
  baselineSchema := hbas.baselineSchema
  revocationFloor := by
    rintro n ⟨⟩
    exact raisedNumber_lt hbas.revocationFloor hver

section Running

variable (mac : MasterMac)

theorem read_putWitness {w : EpochWitness} (h : w.Safe) (f : Fortress) :
    readEpochWitness mac (putWitness mac w f).witness=.valid w := read_epochWitnessRecord mac h

theorem run_guardedWitness (data : EpochWitness) (f : Fortress) :
    (guardedWitness mac data).run f =
      match readEpochWitness mac f.witness with
      | .valid current =>
        if data.epoch < current.epoch then (.error (.refusesToLowerEpoch current.epoch data.epoch),f)
        else (.ok (carryLatches current data),f)
      | _ => (.ok data,f) := by
  rw [guardedWitness,Process.run_bind,Effect.bind_apply_ok (Process.run_observe _ f)]
  cases hrea : readEpochWitness mac f.witness with
  | valid current =>
    by_cases hlow : data.epoch < current.epoch
    · dsimp only
      rw [if_pos hlow,Process.run_bind,Process.run_require,
        Effect.bind_apply_error (Effect.require_fails (not_not.mpr hlow) _ f)]
    · dsimp only
      rw [if_neg hlow,Process.run_bind,Process.run_require,
        Effect.bind_apply_ok (Effect.require_apply hlow _ f),Process.run_pure,Effect.pure_apply]
  | absent => rfl
  | invalid => rfl

theorem run_writeEpochWitness (data : EpochWitness) (f : Fortress) :
    (writeEpochWitness mac data false).run f =
      match readEpochWitness mac f.witness with
      | .valid current =>
        if data.epoch < current.epoch then (.error (.refusesToLowerEpoch current.epoch data.epoch),f)
        else (.ok (),putWitness mac (carryLatches current data) f)
      | _ => (.ok (),putWitness mac data f) := by
  rw [writeEpochWitness,if_neg Bool.false_ne_true,Process.run_bind]
  have hgua := run_guardedWitness mac data f
  cases hrea : readEpochWitness mac f.witness with
  | valid current =>
    rw [hrea] at hgua
    by_cases hlow : data.epoch < current.epoch
    · simp only [hlow,if_true] at hgua ⊢
      exact Effect.bind_apply_error hgua
    · simp only [hlow,if_false] at hgua ⊢
      exact Effect.bind_apply_ok hgua
  | absent =>
    rw [hrea] at hgua
    exact Effect.bind_apply_ok hgua
  | invalid =>
    rw [hrea] at hgua
    exact Effect.bind_apply_ok hgua

/-- A latch was raised: nothing else changed, and a valid witness kept its epoch and its latches. -/
inductive Raised (mac : MasterMac) (f : Fortress) : Fortress → Prop
  | kept : Raised mac f f
  | written {w : EpochWitness} (safe : w.Safe)
    (below : ∀ c, readEpochWitness mac f.witness=.valid c → c.Below w ∧ w.epoch=c.epoch) :
    Raised mac f (putWitness mac w f)

/-- The latches are raised on a witness of the same epoch, so the write is never refused. -/
theorem run_write_latchBase {data : EpochWitness} (f : Fortress) (now : String) (hsaf : data.Safe)
    (hepo : data.epoch=(latchBase (readEpochWitness mac f.witness) now).epoch) :
    ∃ w, (writeEpochWitness mac data false).run f=(.ok (),putWitness mac w f) ∧ w.Safe ∧
      (∀ c, readEpochWitness mac f.witness=.valid c → c.Below w ∧ w.epoch=c.epoch) ∧
      NumberBelow data.revocationFloor w.revocationFloor := by
  have hrun := run_writeEpochWitness mac data f
  cases hrea : readEpochWitness mac f.witness with
  | valid current =>
    rw [hrea] at hepo hrun
    have hlow : ¬ data.epoch < current.epoch := hepo.ge.not_gt
    simp only [hlow,if_false] at hrun
    refine ⟨carryLatches current data,hrun,safe_carryLatches (safe_of_valid hrea) hsaf,?_,?_⟩
    · rintro c ⟨⟩
      exact ⟨below_carryLatches hlow,hepo⟩
    · rintro n hn
      rw [carryLatches,hn]
      cases current.revocationFloor with
      | none => exact ⟨n,rfl,le_refl n⟩
      | some m =>
        by_cases hlt : n < m
        · exact ⟨m,if_pos hlt,hlt.le⟩
        · exact ⟨n,if_neg hlt,le_refl n⟩
  | absent =>
    rw [hrea] at hrun
    exact ⟨data,hrun,hsaf,nofun,.refl _⟩
  | invalid =>
    rw [hrea] at hrun
    exact ⟨data,hrun,hsaf,nofun,.refl _⟩

theorem run_raiseBaselineEstablishedLatch {sealedSchema : Nat} (h : sealedSchema < 2 ^ 53) (now : String)
    (f : Fortress) :
    ∃ g, (raiseBaselineEstablishedLatch mac sealedSchema now).run f=(.ok (),g) ∧ Raised mac f g := by
  rw [raiseBaselineEstablishedLatch,Process.run_bind,Effect.bind_apply_ok (Process.run_observe _ f)]
  split_ifs
  · exact ⟨f,rfl,.kept⟩
  · obtain ⟨w,hrun,hsaf,hbel,-⟩ := run_write_latchBase mac f now
      (safe_raisedBaseline (safe_latchBase f.witness now) h now) rfl
    exact ⟨_,hrun,.written hsaf hbel⟩

theorem run_raiseRevocationFloorLatch {version : Nat} (h : version < 2 ^ 53) (now : String) (f : Fortress) :
    ∃ g, (raiseRevocationFloorLatch mac version now).run f=(.ok (),g) ∧ Raised mac f g ∧
      ∃ w, readEpochWitness mac g.witness=.valid w ∧ NumberBelow (some version) w.revocationFloor := by
  rw [raiseRevocationFloorLatch,Process.run_bind,Process.run_require,
    Effect.bind_apply_ok (Effect.require_apply h _ f),Process.run_bind,
    Effect.bind_apply_ok (Process.run_observe _ f)]
  split_ifs with hrai
  · refine ⟨f,rfl,.kept,?_⟩
    unfold floorRaised at hrai
    split at hrai
    · rename_i w hrea
      refine ⟨w,hrea,?_⟩
      rintro n ⟨⟩
      cases hflo : w.revocationFloor with
      | none =>
        rw [hflo] at hrai
        cases hrai
      | some m =>
        rw [hflo] at hrai
        exact ⟨m,rfl,of_decide_eq_true hrai⟩
    · cases hrai
  · obtain ⟨w,hrun,hsaf,hbel,hflo⟩ := run_write_latchBase mac f now
      (safe_raisedFloor (safe_latchBase f.witness now) h now) rfl
    refine ⟨_,hrun,.written hsaf hbel,w,read_putWitness mac hsaf f,?_⟩
    rintro n ⟨⟩
    obtain ⟨m,hm,hle⟩ := hflo _ rfl
    exact ⟨m,hm,le_trans (le_raisedNumber _ _) hle⟩

end Running

end CastleWall.Custody
