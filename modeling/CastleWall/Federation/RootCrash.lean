import CastleWall.Federation.RootRotation
import CastleWall.Mesh.MasterRotation

/-! # Root rotations that are cut off

Every write of a rotation is one of a few steps, and a run of rotations and resumes is a chain of them, whichever calls
fail and wherever a process ends. What the chain keeps is read off the steps. -/

namespace CastleWall.Federation

open Mesh Faulty

/-- The certificates of the record have not expired. One without an expiry never does. -/
def FederationTrustRootRecord.Unexpired (env : RootEnv) (nowMs : Int) (record : FederationTrustRootRecord) : Prop :=
  record.issuingPrincipalCert.expired env.toMeshEnv nowMs=false ∧
    verifyNodeExpiry env.toMeshEnv nowMs record.localNodeCert=.ok ()

/-- The record loads whenever its certificates have not expired. -/
def FederationTrustRootRecord.Loads (env : RootEnv) (record : FederationTrustRootRecord) : Prop :=
  ∀ nowMs, record.Unexpired env nowMs → validateRecord env nowMs record=.ok ()

theorem verifyPrincipalCertificate_later {env : MeshEnv} {t nowMs : Int} {cert : PrincipalCertificate}
    {pinned : FortressMasterPublicKey} (h : verifyPrincipalCertificate env t cert pinned=.ok ())
    (hlat : cert.expired env nowMs=false) : verifyPrincipalCertificate env nowMs cert pinned=.ok () := by
  simp only [verifyPrincipalCertificate,Outcome.require_bind_eq_ok] at h ⊢
  exact ⟨h.1,hlat,h.2.2⟩

/-- Of the checks of a record, only the expiry of its certificates looks at the clock. -/
theorem loads_of_validated {env : RootEnv} {t : Int} {record : FederationTrustRootRecord}
    (h : validateRecord env t record=.ok ()) : record.Loads env := by
  intro nowMs hnow
  simp only [validateRecord,Outcome.require_bind_eq_ok] at h ⊢
  obtain ⟨hpin,hiss,hfor,hnod,h⟩ := h
  refine ⟨hpin,hiss,hfor,hnod,?_⟩
  obtain ⟨_,hpri,h⟩ := Outcome.bind_ok h
  obtain ⟨_,hcha,h⟩ := Outcome.bind_ok h
  rw [Outcome.mapError_eq_ok] at hpri hcha
  have hpri' := verifyPrincipalCertificate_later hpri hnow.1
  have hcha' : verifyCertChain env.toMeshEnv nowMs record.localNodeCert record.issuingPrincipalCert
      record.pinnedMasterPubkey=.ok () := by
    simp only [verifyCertChain,Outcome.require_bind_eq_ok] at hcha ⊢
    obtain ⟨h₁,h₂,h₃,h₄,h₅,hcha⟩ := hcha
    obtain ⟨_,-,hcha⟩ := Outcome.bind_ok hcha
    obtain ⟨_,-,hcha⟩ := Outcome.bind_ok hcha
    refine ⟨h₁,h₂,h₃,h₄,h₅,?_⟩
    rw [hpri',hnow.2]
    exact hcha
  rw [hpri',hcha']
  exact h

/-- The durable set of revoked roots and its serial never go back. -/
def SyncGrows (s s' : FederationSyncStateSnapshot) : Prop :=
  s.revokedRootPubkeys ⊆ s'.revokedRootPubkeys ∧ s.highestRevocationSerial ≤ s'.highestRevocationSerial

/-- What the journal of a rotation from `old` to `new` says when it is written. -/
structure JournalOf (h : RootHost) (old new : FederationTrustRootRecord) (journal : FederationRotationJournalData) :
    Prop where
  hybrid : old.hybrid.isSome=true → new.hybrid.isSome=true
  keys : journal.compromise=true → old.rootKeys ⊆ journal.revokedKeys
  serial : journal.compromise=true → h.sync.highestRevocationSerial < journal.revocationSerial.getD 1

def FederationRotationJournalData.Honoured (journal : FederationRotationJournalData) (s : FederationSyncStateSnapshot) :
    Prop :=
  journal.compromise=true →
    journal.revokedKeys ⊆ s.revokedRootPubkeys ∧ journal.revocationSerial.getD 1 ≤ s.highestRevocationSerial

inductive RootStep (env : RootEnv) (h : RootHost) : RootHost → Prop where
  | clean : h.journal=none → RootStep env h { h with staged := none }
  | stage (new : FederationTrustRootRecord) : h.journal=none → RootStep env h { h with staged := some new }
  | begin (old new : FederationTrustRootRecord) (journal : FederationRotationJournalData) : h.journal=none →
      h.live=some old → h.staged=some new → JournalOf h old new journal →
      RootStep env h { h with journal := some journal }
  | promoting (journal : FederationRotationJournalData) : h.journal=some journal →
      RootStep env h { h with journal := some { journal with phase := .promoting } }
  | promote (journal : FederationRotationJournalData) (new : FederationTrustRootRecord) : h.journal=some journal →
      h.staged=some new → new.Loads env → RootStep env h { h with live := some new }
  | unstage (journal : FederationRotationJournalData) (new : FederationTrustRootRecord) : h.journal=some journal →
      h.staged=some new → h.live=some new → RootStep env h { h with staged := none }
  | revoke (journal : FederationRotationJournalData) (s : FederationSyncStateSnapshot) : h.journal=some journal →
      SyncGrows h.sync s → RootStep env h { h with sync := s }
  | finish (journal : FederationRotationJournalData) : h.journal=some journal → h.staged=none →
      journal.Honoured h.sync → RootStep env h { h with journal := none }

def Steps (env : RootEnv) (start : RootHost) : List RootHost → Prop
  | [] => False
  | [h] => h=start
  | h'::h::earlier => RootStep env h h' ∧ Steps env start (h::earlier)

/-- A rotation that reached the point of no return. -/
structure BegunRotation where
  (old new : FederationTrustRootRecord)
  journal : FederationRotationJournalData

def begunRotations : List RootHost → List BegunRotation
  | h'::h::earlier =>
    match h.journal, h'.journal, h.live, h.staged with
    | none, some journal, some old, some new => ⟨old,new,journal⟩::begunRotations (h::earlier)
    | _, _, _, _ => begunRotations (h::earlier)
  | _ => []

def lastRoot (start : RootHost) : List BegunRotation → Option FederationTrustRootRecord
  | [] => start.live
  | b::_ => some b.new

def BegunRotation.InFlight (b : BegunRotation) (h : RootHost) (journal : FederationRotationJournalData) : Prop :=
  journal = { b.journal with phase := journal.phase } ∧
    (h.live=some b.old ∧ h.staged=some b.new ∨ h.live=some b.new ∧ (h.staged=some b.new ∨ h.staged=none))

structure RootSound (env : RootEnv) (start h : RootHost) (begun : List BegunRotation) : Prop where
  loads : ∃ record, h.live=some record ∧ record.Loads env
  idle : h.journal=none → h.live=lastRoot start begun
  rotating : ∀ journal, h.journal=some journal → ∃ b rest, begun=b::rest ∧ b.InFlight h journal
  hybrid : ∀ b∈begun, b.old.hybrid.isSome=true → b.new.hybrid.isSome=true
  keys : ∀ b∈begun, b.journal.compromise=true → b.old.rootKeys ⊆ b.journal.revokedKeys
  honoured : h.journal=none → ∀ b∈begun, b.journal.Honoured h.sync
  honouredBefore : h.journal.isSome=true → ∀ b∈begun.tail, b.journal.Honoured h.sync
  serials : begun.Pairwise fun later earlier => later.journal.compromise=true → earlier.journal.compromise=true →
    earlier.journal.revocationSerial.getD 1 < later.journal.revocationSerial.getD 1

theorem FederationRotationJournalData.Honoured.grows {journal : FederationRotationJournalData}
    {s s' : FederationSyncStateSnapshot} (h : journal.Honoured s) (hgro : SyncGrows s s') : journal.Honoured s' :=
  fun hcom => ⟨(h hcom).1.trans hgro.1,(h hcom).2.trans hgro.2⟩

section Chain

variable {env : RootEnv} {start h h' : RootHost} {earlier history : List RootHost} {begun : List BegunRotation}

theorem begunRotations_same (hsam : h.journal=none → h'.journal=none) :
    begunRotations (h'::h::earlier)=begunRotations (h::earlier) := by
  cases hj : h.journal with
  | none => simp only [begunRotations,hj,hsam hj]
  | some journal => simp only [begunRotations,hj]

variable {new : FederationTrustRootRecord}

theorem begunRotations_begin {old : FederationTrustRootRecord} {journal : FederationRotationJournalData}
    (hj : h.journal=none) (hj' : h'.journal=some journal) (hliv : h.live=some old) (hsta : h.staged=some new) :
    begunRotations (h'::h::earlier)=⟨old,new,journal⟩::begunRotations (h::earlier) := by
  simp only [begunRotations,hj,hj',hliv,hsta]

theorem RootSound.restage (hsou : RootSound env start h begun) (hj : h.journal=none)
    (staged : Option FederationTrustRootRecord) : RootSound env start { h with staged := staged } begun where
  loads := hsou.loads
  idle := hsou.idle
  rotating := fun journal hjournal => by
    rw [show h.journal=some journal from hjournal] at hj
    cases hj
  hybrid := hsou.hybrid
  keys := hsou.keys
  honoured := hsou.honoured
  honouredBefore := hsou.honouredBefore
  serials := hsou.serials

theorem RootSound.begin {old : FederationTrustRootRecord} {journal : FederationRotationJournalData}
    (hsou : RootSound env start h begun) (hj : h.journal=none) (hliv : h.live=some old)
    (hsta : h.staged=some new) (hof : JournalOf h old new journal) :
    RootSound env start { h with journal := some journal } (⟨old,new,journal⟩::begun) where
  loads := hsou.loads
  idle := fun hnone => nomatch hnone
  rotating := fun journal' hjournal => by
    cases hjournal
    exact ⟨_,_,rfl,rfl,.inl ⟨hliv,hsta⟩⟩
  hybrid := List.forall_mem_cons.mpr ⟨hof.hybrid,hsou.hybrid⟩
  keys := List.forall_mem_cons.mpr ⟨hof.keys,hsou.keys⟩
  honoured := fun hnone => nomatch hnone
  honouredBefore := fun _ => hsou.honoured hj
  serials := by
    refine List.pairwise_cons.mpr ⟨fun b hb hlat hear => ?_,hsou.serials⟩
    exact lt_of_le_of_lt (hsou.honoured hj b hb hear).2 (hof.serial hlat)

theorem SyncGrows.refl (s : FederationSyncStateSnapshot) : SyncGrows s s := ⟨Finset.Subset.refl _,le_rfl⟩

/-- While the journal is there, a step only has to keep what the rotation in flight says. -/
theorem RootSound.during {journal journal' : FederationRotationJournalData} (hsou : RootSound env start h begun)
    (hj : h.journal=some journal) (hj' : h'.journal=some journal')
    (hloa : ∃ record, h'.live=some record ∧ record.Loads env)
    (hfli : ∀ b : BegunRotation, b.InFlight h journal → b.InFlight h' journal') (hgro : SyncGrows h.sync h'.sync) :
    RootSound env start h' begun where
  loads := hloa
  idle := fun hnone => nomatch hj'.symm.trans hnone
  rotating := fun journal'' hjournal => by
    cases hj'.symm.trans hjournal
    obtain ⟨b,rest,hbeg,hb⟩ := hsou.rotating journal hj
    exact ⟨b,rest,hbeg,hfli b hb⟩
  hybrid := hsou.hybrid
  keys := hsou.keys
  honoured := fun hnone => nomatch hj'.symm.trans hnone
  honouredBefore := fun _ b hb => (hsou.honouredBefore (by rw [hj]; rfl) b hb).grows hgro
  serials := hsou.serials

theorem BegunRotation.InFlight.staged {b : BegunRotation} {journal : FederationRotationJournalData} (hb : b.InFlight h journal) (hsta : h.staged=some new) : new=b.new := by
  rcases hb.2 with ⟨-,hnew⟩ | ⟨-,hnew | hnew⟩
  · exact Option.some.inj (hsta.symm.trans hnew)
  · exact Option.some.inj (hsta.symm.trans hnew)
  · cases hsta.symm.trans hnew

theorem RootSound.finish {journal : FederationRotationJournalData} (hsou : RootSound env start h begun)
    (hj : h.journal=some journal) (hsta : h.staged=none) (hdon : journal.Honoured h.sync) :
    RootSound env start { h with journal := none } begun := by
  obtain ⟨b,rest,hbeg,hpha,hroo⟩ := hsou.rotating journal hj
  have hliv : h.live=some b.new := by
    rcases hroo with ⟨-,hb⟩ | ⟨hliv,-⟩
    · cases hsta.symm.trans hb
    · exact hliv
  have hbef := hsou.honouredBefore (by rw [hj]; rfl)
  refine ⟨hsou.loads,fun _ => ?_,fun _ hjournal => (nomatch hjournal),hsou.hybrid,hsou.keys,fun _ => ?_,
    fun hsom => (nomatch hsom),hsou.serials⟩
  · rw [hbeg]
    exact hliv
  · rw [hbeg] at hbef ⊢
    rw [hpha] at hdon
    exact List.forall_mem_cons.mpr ⟨hdon,hbef⟩

theorem RootSound.step (hsou : RootSound env start h (begunRotations (h::earlier))) (hste : RootStep env h h') :
    RootSound env start h' (begunRotations (h'::h::earlier)) := by
  have hsam : h'.journal=none ∨ h.journal≠none →
      begunRotations (h'::h::earlier)=begunRotations (h::earlier) :=
    fun hjournal => begunRotations_same fun hnone => hjournal.resolve_right (· hnone)
  have hfly : ∀ {journal}, h.journal=some journal → h.journal≠none :=
    fun hj hnone => nomatch hj.symm.trans hnone
  cases hste with
  | clean hj =>
    rw [hsam (.inl hj)]
    exact hsou.restage hj none
  | stage new hj =>
    rw [hsam (.inl hj)]
    exact hsou.restage hj (some new)
  | «begin» old new journal hj hliv hsta hof =>
    rw [begunRotations_begin hj rfl hliv hsta]
    exact hsou.begin hj hliv hsta hof
  | promoting journal hj =>
    rw [hsam (.inr (hfly hj))]
    refine hsou.during hj rfl hsou.loads (fun b hb => ⟨?_,hb.2⟩) (.refl _)
    rw [hb.1]
  | promote journal new hj hsta hloa =>
    rw [hsam (.inr (hfly hj))]
    refine hsou.during hj hj ⟨new,rfl,hloa⟩ (fun b hb => ⟨hb.1,.inr ?_⟩) (.refl _)
    cases hb.staged hsta
    exact ⟨rfl,.inl hsta⟩
  | unstage journal new hj hsta hliv =>
    rw [hsam (.inr (hfly hj))]
    refine hsou.during hj hj hsou.loads (fun b hb => ⟨hb.1,.inr ?_⟩) (.refl _)
    cases hb.staged hsta
    exact ⟨hliv,.inr rfl⟩
  | revoke journal s hj hgro =>
    rw [hsam (.inr (hfly hj))]
    exact hsou.during hj hj hsou.loads (fun b hb => hb) hgro
  | finish journal hj hsta hdon =>
    rw [hsam (.inl rfl)]
    exact hsou.finish hj hsta hdon

/-- Every state of a run from a root that loads and has no rotation in flight is sound. -/
theorem Steps.sound {root : FederationTrustRootRecord} (hroo : start.live=some root) (hloa : root.Loads env)
    (hidl : start.journal=none) : ∀ {h : RootHost} {earlier : List RootHost}, Steps env start (h::earlier) →
      RootSound env start h (begunRotations (h::earlier)) := by
  intro h earlier
  induction earlier generalizing h with
  | nil =>
    intro hste
    cases hste
    refine ⟨⟨root,hroo,hloa⟩,fun _ => hroo.trans ?_,fun journal hjournal => ?_,fun b hb => (nomatch hb),
      fun b hb => (nomatch hb),fun _ b hb => (nomatch hb),fun _ b hb => (nomatch hb),.nil⟩
    · exact hroo.symm
    · cases hidl.symm.trans hjournal
  | cons h₀ earlier ih =>
    intro hste
    exact (ih hste.2).step hste.1

theorem Steps.of_suffix : Steps env start history → ∀ {h : RootHost} {earlier : List RootHost},
    h::earlier <:+ history → Steps env start (h::earlier) := by
  induction history with
  | nil =>
    intro hste
    cases hste
  | cons h' history ih =>
    intro hste h earlier hsuf
    rcases List.suffix_cons_iff.mp hsuf with heq | hsuf'
    · rwa [heq]
    · cases history with
      | nil => simp at hsuf'
      | cons h₀ history => exact ih hste.2 hsuf'

def RootHost.hybrid (h : RootHost) : Prop := (h.live.bind (·.hybrid)).isSome=true

theorem RootSound.hybrid_step (hsou : RootSound env start h begun) (hste : RootStep env h h') (hhyb : h.hybrid) :
    h'.hybrid := by
  cases hste with
  | promote journal new hj hsta _ =>
    obtain ⟨b,rest,hbeg,hb⟩ := hsou.rotating journal hj
    cases hb.staged hsta
    unfold RootHost.hybrid at hhyb ⊢
    rcases hb.2 with ⟨hliv,-⟩ | ⟨hliv,-⟩
    · rw [hliv] at hhyb
      exact hsou.hybrid b (hbeg ▸ List.mem_cons_self) hhyb
    · rw [hliv] at hhyb
      exact hhyb
  | _ => exact hhyb

theorem Steps.hybrid {root : FederationTrustRootRecord} (hroo : start.live=some root) (hloa : root.Loads env)
    (hidl : start.journal=none) : Steps env start history →
      history.Pairwise fun later before => before.hybrid → later.hybrid := by
  induction history with
  | nil => exact fun _ => .nil
  | cons h' history ih =>
    intro hste
    cases history with
    | nil => exact List.pairwise_singleton _ _
    | cons h earlier =>
      have hbef := ih hste.2
      refine List.pairwise_cons.mpr ⟨fun before hmem hhyb => ?_,hbef⟩
      apply (hste.2.sound hroo hloa hidl).hybrid_step hste.1
      rcases List.mem_cons.mp hmem with rfl | hmem
      · exact hhyb
      · exact (List.pairwise_cons.mp hbef).1 before hmem hhyb

end Chain

def Fixed (env : RootEnv) (start : RootHost) (begun : List BegunRotation) (history : List RootHost) : Prop :=
  Steps env start history ∧ begunRotations history=begun

section Programs

variable {env : RootEnv} {start : RootHost} {begun : List BegunRotation} {nowMs : Int} {α : Type}
  {journal : FederationRotationJournalData} {I : List RootHost → Prop} {P E : RootHost → Prop}

def Goes (I : List RootHost → Prop) (P : RootHost → Prop) (m : RootProg α) (Q : α → RootHost → Prop) : Prop :=
  Keeps I (fun _ => True) P m Q fun _ => True

theorem plainRootCall_goes (call : RootCall) : Goes I P (plainRootCall call) fun _ => P :=
  Keeps.read (fun _ _ hs _ => hs) fun _ _ => trivial

theorem writeStep_goes {call : RootCall} {lost : RotateError} {f : RootHost → Except RotateError RootHost}
    {Q : Unit → RootHost → Prop} (h : ∀ s s', P s → f s=.ok s' → RootStep env s s' ∧ Q () s') :
    Goes (Steps env start) P (Prog.write call lost f) Q := by
  refine Keeps.write (fun s before s' hI hP hf => ?_) (fun _ _ _ _ _ _ _ _ => trivial) fun _ _ => trivial
  exact ⟨⟨(h s s' hP hf).1,hI⟩,(h s s' hP hf).2⟩

/-- A write while the journal is there begins no rotation. -/
theorem writeFixed_goes {call : RootCall} {lost : RotateError} {f : RootHost → Except RotateError RootHost}
    {Q : Unit → RootHost → Prop}
    (h : ∀ s s', P s → f s=.ok s' → s.journal≠none ∧ RootStep env s s' ∧ Q () s') :
    Goes (Fixed env start begun) P (Prog.write call lost f) Q := by
  refine Keeps.write (fun s before s' hI hP hf => ?_) (fun _ _ _ _ _ _ _ _ => trivial) fun _ _ => trivial
  obtain ⟨hsom,hste,hQ⟩ := h s s' hP hf
  refine ⟨⟨⟨hste,hI.1⟩,?_⟩,hQ⟩
  rw [begunRotations_same fun hnone => absurd hnone hsom]
  exact hI.2

theorem flying {h : RootHost} (hj : h.journal=some journal) : h.journal≠none := by
  rw [hj]
  exact Option.some_ne_none journal

theorem markPromoting_goes : Goes (Fixed env start begun) (fun h => h.journal=some journal) (markPromoting journal)
    fun _ h => h.journal=some { journal with phase := .promoting } := by
  unfold markPromoting
  by_cases hpha : journal.phase=.promoting
  · rw [if_pos hpha]
    refine Keeps.pure fun h hj => ?_
    rw [← hpha]
    exact hj
  · rw [if_neg hpha]
    refine writeFixed_goes fun h h' hj hf => ?_
    cases hf
    exact ⟨flying hj,.promoting journal hj,rfl⟩

/-- After the promotion the staged record is gone, and the journal says that it was promoted. -/
theorem promote_goes : Goes (Fixed env start begun) (fun h => h.journal=some journal) (promote env nowMs journal)
    fun _ h => h.journal=some { journal with phase := .promoting } ∧ h.staged=none := by
  unfold promote
  refine Keeps.bind markPromoting_goes fun _ => ?_
  refine Keeps.bind
    (R := fun staged h => h.journal=some { journal with phase := .promoting } ∧ h.staged=staged) ?_ fun staged => ?_
  · exact Keeps.read (fun h a hj hf => ⟨hj,Except.ok.inj hf⟩) fun _ _ => trivial
  cases staged with
  | none => exact Keeps.pure fun h hh => hh
  | some staged =>
    dsimp only
    refine Keeps.bind (Keeps.ofExcept (fun _ h _ hh => hh) fun _ _ => trivial) fun _ => ?_
    refine Keeps.bind (R := fun _ h => h.journal=some { journal with phase := .promoting } ∧ h.staged=some staged ∧
      h.live=some staged) ?_ fun _ => ?_
    · refine writeFixed_goes fun h h' hh hf => ?_
      obtain ⟨_,hval,rfl⟩ := Outcome.map_ok hf
      exact ⟨flying hh.1,.promote _ staged hh.1 hh.2 (loads_of_validated hval),hh.1,hh.2,rfl⟩
    · refine writeFixed_goes fun h h' hh hf => ?_
      cases hf
      exact ⟨flying hh.1,.unstage _ staged hh.1 hh.2.1 hh.2.2,hh.1,rfl⟩

theorem loadSync_goes : Goes I P loadSync fun snapshot h => P h ∧ h.sync=snapshot := by
  refine Keeps.read (fun h a hP hf => ⟨hP,?_⟩) fun _ _ => trivial
  split_ifs at hf
  exact Except.ok.inj hf

theorem persistRevocation_goes (keys : Finset String) (serial : Nat) :
    Goes (Fixed env start begun) (fun h => h.journal=some journal ∧ h.staged=none) (persistRevocation keys serial)
      fun _ h => h.journal=some journal ∧ h.staged=none ∧ keys ⊆ h.sync.revokedRootPubkeys ∧
        serial ≤ h.sync.highestRevocationSerial := by
  unfold persistRevocation persistSync
  refine Keeps.bind loadSync_goes fun snapshot => ?_
  refine Keeps.bind (plainRootCall_goes _) fun _ => ?_
  refine Keeps.bind loadSync_goes fun onDisk => ?_
  refine Keeps.bind (plainRootCall_goes _) fun _ => ?_
  refine writeFixed_goes fun h h' hh hf => ?_
  obtain ⟨⟨⟨hj,hsta⟩,-⟩,rfl⟩ := hh
  cases hf
  refine ⟨flying hj,.revoke journal _ hj ⟨?_,le_max_left _ _⟩,hj,hsta,?_,?_⟩
  · exact Finset.subset_union_left
  · exact Finset.subset_union_right.trans Finset.subset_union_right
  · exact (le_max_right _ _).trans (le_max_right _ _)

theorem clearRotationJournal_goes : Goes (Fixed env start begun)
    (fun h => h.journal=some journal ∧ h.staged=none ∧ journal.Honoured h.sync) clearRotationJournal
    fun _ h => h.journal=none ∧ h.staged=none := by
  refine writeFixed_goes fun h h' hh hf => ?_
  cases hf
  exact ⟨flying hh.1,.finish journal hh.1 hh.2.1 hh.2.2,rfl,hh.2.1⟩

theorem openJournal_goes (compromise : Bool) : Goes I P (openJournal compromise) fun journal h =>
    (h.journal=some journal ∧ journal.compromise=compromise) ∧ ∃ s, P s ∧ s.journal≠none := by
  unfold openJournal
  refine Keeps.bind (R := fun journal h => h.journal=journal ∧ P h) ?_ fun found => ?_
  · exact Keeps.read (fun h a hP hf => ⟨Except.ok.inj hf,hP⟩) fun _ _ => trivial
  cases found with
  | none => exact Keeps.fail fun _ _ => trivial
  | some journal =>
    dsimp only
    by_cases hkin : journal.compromise=compromise
    · rw [if_pos hkin]
      exact Keeps.pure fun h hj => ⟨⟨hj.1,hkin⟩,h,hj.2,flying hj.1⟩
    · rw [if_neg hkin]
      exact Keeps.fail fun _ _ => trivial

theorem promotedRoot_goes : Goes I P (promotedRoot env nowMs) fun _ => P := by
  unfold promotedRoot
  refine Keeps.bind (R := fun _ => P) (Keeps.read (fun _ _ hP _ => hP) fun _ _ => trivial) fun live => ?_
  cases live with
  | none => exact Keeps.fail fun _ _ => trivial
  | some live => exact Keeps.pure fun _ hP => hP

/-- A resume that returns found a journal, and leaves neither it nor a staged record. -/
theorem resumeFederationRootRotation_goes : Goes (Fixed env start begun) P (resumeFederationRootRotation env nowMs)
    fun _ h => (h.journal=none ∧ h.staged=none) ∧ ∃ s, P s ∧ s.journal≠none := by
  unfold resumeFederationRootRotation
  refine Keeps.bind (openJournal_goes false) fun journal => Keeps.of_fact fun hfou => ?_
  refine Keeps.bind (R := fun _ h => h.journal=some { journal with phase := .promoting } ∧ h.staged=none ∧
    FederationRotationJournalData.Honoured { journal with phase := .promoting } h.sync) ?_ fun _ => ?_
  · by_cases hkin : journal.compromise=false
    · refine promote_goes.weaken (fun h hh => hh.1) (fun _ h hh => ⟨hh.1,hh.2,fun hcom => ?_⟩) fun _ hh => hh
      exact absurd (hkin.symm.trans hcom) Bool.false_ne_true
    · exact fun w _ _ hP => absurd hP.2 hkin
  refine Keeps.bind promotedRoot_goes fun live => ?_
  refine Keeps.bind (Keeps.ofExcept (fun _ h _ hh => hh) fun _ _ => trivial) fun _ => ?_
  refine Keeps.bind (plainRootCall_goes _) fun _ => ?_
  refine Keeps.bind clearRotationJournal_goes fun _ => ?_
  exact Keeps.pure fun _ hh => ⟨hh,hfou⟩

theorem resumeFederationRootCompromised_goes :
    Goes (Fixed env start begun) P (resumeFederationRootCompromised env nowMs)
      fun _ h => (h.journal=none ∧ h.staged=none) ∧ ∃ s, P s ∧ s.journal≠none := by
  unfold resumeFederationRootCompromised
  refine Keeps.bind (openJournal_goes true) fun journal => Keeps.of_fact fun hfou => ?_
  refine Keeps.bind (promote_goes.weaken (fun h hh => hh.1) (fun _ _ hh => hh) fun _ hh => hh) fun _ => ?_
  refine Keeps.bind promotedRoot_goes fun live => ?_
  refine Keeps.bind (persistRevocation_goes _ _) fun _ => ?_
  refine Keeps.bind (plainRootCall_goes _) fun _ => ?_
  refine Keeps.bind (R := fun _ h => h.journal=none ∧ h.staged=none) ?_ fun _ => Keeps.pure fun _ hh => ⟨hh,hfou⟩
  exact clearRotationJournal_goes.weaken (fun h hh => ⟨hh.1,hh.2.1,fun _ => hh.2.2⟩) (fun _ _ hh => hh) fun _ hh => hh

theorem refuseWhileRotating_goes : Goes I P refuseWhileRotating fun _ h => h.journal=none := by
  unfold refuseWhileRotating
  refine Keeps.bind (R := fun _ _ => True) (Keeps.read (fun _ _ _ _ => trivial) fun _ _ => trivial) fun custody => ?_
  refine Keeps.bind (R := fun _ _ => True) (Keeps.ofExcept (fun _ _ _ _ => trivial) fun _ _ => trivial) fun _ => ?_
  refine Keeps.bind (R := fun journaled h => h.journal.isSome=journaled) ?_ fun journaled => ?_
  · exact Keeps.read (fun h a _ hf => Except.ok.inj hf) fun _ _ => trivial
  refine Keeps.ofExcept (fun _ h hnone hj => ?_) fun _ _ => trivial
  rw [Outcome.require_eq_ok] at hnone
  rw [hnone] at hj
  exact Option.not_isSome_iff_eq_none.mp (hj ▸ Bool.false_ne_true)

theorem cleanOrphan_goes : Goes (Steps env start) (fun h => h.journal=none) cleanOrphan
    fun _ h => h.journal=none := by
  unfold cleanOrphan
  refine Keeps.bind (R := fun _ h => h.journal=none) (Keeps.read (fun _ _ hj _ => hj) fun _ _ => trivial)
    fun orphan => ?_
  cases orphan with
  | false => exact Keeps.pure fun _ hj => hj
  | true =>
    rw [if_pos rfl]
    refine writeStep_goes fun h h' hj hf => ?_
    cases hf
    exact ⟨.clean hj,hj⟩

theorem loadIssuer_goes : Goes I P (loadIssuer env nowMs) fun live h => P h ∧ h.live=some live := by
  unfold loadIssuer loadLive
  refine Keeps.bind (R := fun live h => P h ∧ h.live=live) ?_ fun live => ?_
  · refine Keeps.read (fun h a hP hf => ⟨hP,?_⟩) fun _ _ => trivial
    cases hliv : h.live with
    | none =>
      rw [hliv] at hf
      exact Except.ok.inj hf
    | some record =>
      rw [hliv] at hf
      obtain ⟨_,-,hrec⟩ := Outcome.map_ok hf
      exact hrec
  cases live with
  | none => exact Keeps.fail fun _ _ => trivial
  | some live => exact Keeps.pure fun _ hh => hh

theorem auditing_goes {m : RootProg α} {Q : α → RootHost → Prop} (h : Goes I P m Q) : Goes I P (auditing m) Q := by
  unfold auditing
  refine Keeps.attempt_bind h (fun _ _ => trivial) (fun b => Keeps.pure fun _ hh => hh) fun err => ?_
  exact Keeps.bind (plainRootCall_goes _) fun _ => Keeps.fail fun _ _ => trivial

variable {live : FederationTrustRootRecord} {fresh : FreshRoot}

theorem mintRecord_hybrid {rotated : FederationTrustRootRecord} {secret : List UInt8}
    {rotation : Option (Nat × FederationRootRotationCertificate)}
    (h : mintRecord live fresh secret rotation=.ok rotated) (hhyb : live.hybrid.isSome=true) :
    rotated.hybrid.isSome=true := by
  simp only [mintRecord,Outcome.require_bind_eq_ok] at h
  obtain ⟨-,-,h⟩ := h
  cases h
  rw [Option.isSome_map]
  exact hhyb

theorem stage_goes {rotated : FederationTrustRootRecord}
    (hhyb : live.hybrid.isSome=true → rotated.hybrid.isSome=true)
    (hkey : journal.compromise=true → live.rootKeys ⊆ journal.revokedKeys)
    (hser : ∀ h, P h → journal.compromise=true → h.sync.highestRevocationSerial < journal.revocationSerial.getD 1)
    (hfra : ∀ h staged, P h → P { h with staged := staged }) {f : Unit → RootProg α} {Q : α → RootHost → Prop}
    (hres : ∀ begun, Goes (Fixed env start begun) (fun h => h.journal=some journal) (f ()) Q) :
    Goes (Steps env start) (fun h => P h ∧ h.journal=none ∧ h.live=some live)
      (saveStaged rotated >>= fun _ => writeJournal journal >>= f) Q := by
  refine Keeps.bind (R := fun _ h => P h ∧ h.journal=none ∧ h.live=some live ∧ h.staged=some rotated) ?_ fun _ => ?_
  · refine writeStep_goes fun h h' hh hf => ?_
    cases hf
    exact ⟨.stage rotated hh.2.1,hfra h _ hh.1,hh.2.1,hh.2.2,rfl⟩
  refine Keeps.bind (R := fun _ h => h.journal=some journal) ?_ fun _ => Keeps.of_fixed hres
  refine writeStep_goes fun h h' hh hf => ?_
  cases hf
  exact ⟨.begin live rotated journal hh.2.1 hh.2.2.1 hh.2.2.2 ⟨hhyb,hkey,hser h hh.1⟩,rfl⟩

theorem renewFrom_goes :
    Goes (Steps env start) (fun h => h.journal=none ∧ h.live=some live) (renewFrom env nowMs fresh live)
      fun _ _ => True := by
  unfold renewFrom
  refine Keeps.bind (R := fun rotated h => (True ∧ h.journal=none ∧ h.live=some live) ∧
    (live.hybrid.isSome=true → rotated.hybrid.isSome=true)) ?_ fun rotated => ?_
  · exact Keeps.ofExcept (fun _ h hmin hh => ⟨⟨trivial,hh⟩,mintRecord_hybrid hmin⟩) fun _ _ => trivial
  refine Keeps.of_fact fun hhyb => ?_
  have hren : ¬ (renewalJournal live rotated).compromise=true := Bool.false_ne_true
  refine stage_goes (P := fun _ => True) hhyb (fun hcom => absurd hcom hren)
    (fun _ _ hcom => absurd hcom hren) (fun _ _ hh => hh) fun begun => ?_
  refine Keeps.bind promote_goes fun _ => ?_
  refine Keeps.bind (plainRootCall_goes _) fun _ => ?_
  refine Keeps.bind (clearRotationJournal_goes.weaken
    (fun h hh => ⟨hh.1,hh.2,fun hcom => absurd hcom hren⟩) (fun _ _ hh => hh) fun _ hh => hh) fun _ => ?_
  exact Keeps.pure fun _ _ => trivial

/-- The journal of a compromise names every key that a chain to the old root may be pinned by. -/
theorem revokedKeys_compromiseJournal (live rotated : FederationTrustRootRecord) (serial : Nat) :
    (compromiseJournal live rotated serial).revokedKeys=live.rootKeys := by
  cases hhyb : live.hybrid with
  | none => simp [FederationRotationJournalData.revokedKeys,FederationTrustRootRecord.rootKeys,compromiseJournal,hhyb]
  | some hybrid =>
    simp only [FederationRotationJournalData.revokedKeys,FederationTrustRootRecord.rootKeys,compromiseJournal,hhyb,
      Option.map_some,Option.getD_some]
    rfl

theorem compromiseFrom_goes :
    Goes (Steps env start) (fun h => h.journal=none ∧ h.live=some live) (compromiseFrom env nowMs fresh live)
      fun _ _ => True := by
  unfold compromiseFrom
  refine Keeps.bind loadSync_goes fun prior => ?_
  refine Keeps.bind (R := fun rotated h => (h.sync=prior ∧ h.journal=none ∧ h.live=some live) ∧
    (live.hybrid.isSome=true → rotated.hybrid.isSome=true)) ?_ fun rotated => ?_
  · exact Keeps.ofExcept (fun _ h hmin hh => ⟨⟨hh.2,hh.1⟩,mintRecord_hybrid hmin⟩) fun _ _ => trivial
  refine Keeps.of_fact fun hhyb => ?_
  refine stage_goes (P := fun h => h.sync=prior) hhyb (fun _ => (revokedKeys_compromiseJournal _ _ _).ge)
    (fun h hh _ => ?_) (fun _ _ hh => hh) fun begun => ?_
  · rw [hh]
    exact Nat.lt_succ_self _
  refine Keeps.bind promote_goes fun _ => ?_
  refine Keeps.bind (persistRevocation_goes _ _) fun _ => ?_
  refine Keeps.bind (plainRootCall_goes _) fun _ => ?_
  refine Keeps.bind (clearRotationJournal_goes.weaken (fun h hh => ⟨hh.1,hh.2.1,fun _ => ⟨?_,hh.2.2.2⟩⟩)
    (fun _ _ hh => hh) fun _ hh => hh) fun _ => Keeps.pure fun _ _ => trivial
  exact (revokedKeys_compromiseJournal live rotated (prior.highestRevocationSerial+1)).le.trans hh.2.2.1

theorem process_goes (p : RootProcess) : Goes (Steps env start) P (p.run env) fun _ _ => True := by
  obtain ⟨act,nowMs,fault⟩ := p
  cases act with
  | renew fresh =>
    refine Keeps.bind (R := fun _ _ => True) ?_ fun _ => Keeps.pure fun _ _ => trivial
    unfold rotateFederationRootRenew
    refine Keeps.bind refuseWhileRotating_goes fun _ => ?_
    refine Keeps.bind cleanOrphan_goes fun _ => ?_
    exact Keeps.bind loadIssuer_goes fun live => auditing_goes renewFrom_goes
  | compromised fresh =>
    refine Keeps.bind (R := fun _ _ => True) ?_ fun _ => Keeps.pure fun _ _ => trivial
    unfold rotateFederationRootCompromised
    refine Keeps.bind refuseWhileRotating_goes fun _ => ?_
    refine Keeps.bind cleanOrphan_goes fun _ => ?_
    exact Keeps.bind loadIssuer_goes fun live => auditing_goes compromiseFrom_goes
  | resumeRenewal =>
    refine Keeps.bind (Keeps.of_fixed fun begun => resumeFederationRootRotation_goes) fun _ => ?_
    exact Keeps.pure fun _ _ => trivial
  | resumeCompromised =>
    refine Keeps.bind (Keeps.of_fixed fun begun => resumeFederationRootCompromised_goes) fun _ => ?_
    exact Keeps.pure fun _ _ => trivial

theorem resume_goes {p : RootProcess} (hres : p.act.Resumes) :
    Goes (Fixed env start begun) P (p.run env) fun _ h =>
      (h.journal=none ∧ h.staged=none) ∧ ∃ s, P s ∧ s.journal≠none := by
  obtain ⟨act,nowMs,fault⟩ := p
  cases act with
  | renew fresh => cases hres
  | compromised fresh => cases hres
  | resumeRenewal => exact Keeps.bind resumeFederationRootRotation_goes fun _ => Keeps.pure fun _ hh => hh
  | resumeCompromised => exact Keeps.bind resumeFederationRootCompromised_goes fun _ => Keeps.pure fun _ hh => hh

theorem runRoot_steps (ps : List RootProcess) : ∀ {w : World RootCall RootHost}, Steps env start w.history →
    Steps env start (runRoot env ps w).history := by
  induction ps with
  | nil => exact fun hste => hste
  | cons p ps ih =>
    intro w hste
    exact ih (process_goes (P := fun _ => True) p (w.restart p.fault) trivial hste trivial).2.1

end Programs

/-- Outside a rotation the live root is the one the last rotation minted; inside, it is the old one or the new one. -/
def OldOrNew (root : FederationTrustRootRecord) (h : RootHost) (live : FederationTrustRootRecord) :
    List BegunRotation → Prop
  | [] => h.journal=none ∧ live=root
  | b::_ => (h.journal=none → live=b.new) ∧ (h.journal≠none → live=b.old ∨ live=b.new)

theorem RootSound.oldOrNew {env : RootEnv} {start h : RootHost} {begun : List BegunRotation}
    {root live : FederationTrustRootRecord} (hsou : RootSound env start h begun) (hroo : start.live=some root)
    (hliv : h.live=some live) : OldOrNew root h live begun := by
  cases begun with
  | nil =>
    have hidl : h.journal=none := by
      cases hj : h.journal with
      | none => rfl
      | some journal =>
        obtain ⟨b,rest,hbeg,-⟩ := hsou.rotating journal hj
        cases hbeg
    exact ⟨hidl,Option.some.inj (hliv.symm.trans ((hsou.idle hidl).trans hroo))⟩
  | cons b rest =>
    refine ⟨fun hidl => Option.some.inj (hliv.symm.trans (hsou.idle hidl)),fun hsom => ?_⟩
    obtain ⟨journal,hj⟩ := Option.ne_none_iff_exists'.mp hsom
    obtain ⟨b',rest',hbeg,hb⟩ := hsou.rotating journal hj
    cases hbeg
    rcases hb.2 with ⟨hold,-⟩ | ⟨hnew,-⟩
    · exact .inl (Option.some.inj (hliv.symm.trans hold))
    · exact .inr (Option.some.inj (hliv.symm.trans hnew))

/-- However often rotations of either kind and resumes fail or are cut off, each state between two writes has the old
or the new root live, and it loads; a resume that returns leaves the new root and nothing else; once the journal of a
compromise is gone the keys of its old root are revoked, under serials that grow; and a hybrid root stays hybrid. -/
theorem root_rotation_survives_crashes (env : RootEnv) (start : RootHost) (root : FederationTrustRootRecord) (t : Int)
    (hroot : start.live=some root) (hvalid : validateRecord env t root=.ok ()) (hidle : start.journal=none)
    (ps : List RootProcess) :
    let w := runRoot env ps (.initial start)
    (∀ h earlier, h::earlier <:+ w.history →
      (∃ live, h.live=some live ∧ live.Loads env ∧ OldOrNew root h live (begunRotations (h::earlier))) ∧
      (h.journal=none → ∀ b∈begunRotations (h::earlier), b.journal.compromise=true →
        b.old.rootKeys ⊆ h.sync.revokedRootPubkeys ∧
          b.journal.revocationSerial.getD 1 ≤ h.sync.highestRevocationSerial)) ∧
    (∀ p : RootProcess, p.act.Resumes → ∀ after, p.run env (w.restart p.fault)=(.ok (),after) →
      ∃ b rest, begunRotations w.history=b::rest ∧ after.state.live=some b.new ∧ after.state.staged=none ∧
        after.state.journal=none) ∧
    (begunRotations w.history).Pairwise (fun later earlier => later.journal.compromise=true →
      earlier.journal.compromise=true →
      earlier.journal.revocationSerial.getD 1 < later.journal.revocationSerial.getD 1) ∧
    w.history.Pairwise fun later before => before.hybrid → later.hybrid := by
  intro w
  have hloa := loads_of_validated hvalid
  have hste : Steps env start w.history := runRoot_steps ps rfl
  refine ⟨fun h earlier hsuf => ?_,fun p hres after hrun => ?_,?_,hste.hybrid hroot hloa hidle⟩
  · have hsou := (hste.of_suffix hsuf).sound hroot hloa hidle
    obtain ⟨live,hliv,hlis⟩ := hsou.loads
    refine ⟨⟨live,hliv,hlis,hsou.oldOrNew hroot hliv⟩,fun hnone b hb hcom => ?_⟩
    have hhon := hsou.honoured hnone b hb hcom
    exact ⟨(hsou.keys b hb hcom).trans hhon.1,hhon.2⟩
  · obtain ⟨-,⟨hste',hbeg⟩,hend⟩ := resume_goes (P := fun h => h=w.state) hres (w.restart p.fault) trivial
      ⟨hste,rfl⟩ rfl
    rw [hrun] at hste' hbeg hend
    obtain ⟨⟨hnone,hsta⟩,s,rfl,hjournal⟩ := hend
    obtain ⟨journal,hj⟩ := Option.ne_none_iff_exists'.mp hjournal
    obtain ⟨b,rest,hlas,-⟩ := (hste.sound hroot hloa hidle).rotating journal hj
    have haft : begunRotations after.history=b::rest := hbeg.trans hlas
    refine ⟨b,rest,hlas,?_,hsta,hnone⟩
    have hliv := (Steps.sound hroot hloa hidle hste').idle hnone
    rw [show begunRotations (after.state::after.earlier)=b::rest from haft] at hliv
    exact hliv
  · exact (hste.sound hroot hloa hidle).serials

namespace RootSample

def env : RootEnv where
  verify := fun _ _ _ => true
  sign := fun _ _ => []
  sha256 := id
  dateParse := fun _ => none
  decodePolicyBlob := fun _ => none
  consistent := fun _ => true

def principalCert : PrincipalCertificate :=
  ⟨"principal","cHJpbmNpcGFs",.root,"fortress","2026-01-01T00:00:00Z",none,"c2ln"⟩

def nodeCert (master : String) : NodeIdentityCertificate where
  certificateVersion := none
  nodeId := "node"
  nodePubkey := "bm9kZQ"
  nodeMode := .local
  fortressId := "fortress"
  joinedAt := "2026-01-01T00:00:00Z"
  expiresAt := none
  capabilities := 0
  parentChain := ⟨master,"principal","cHJpbmNpcGFs"⟩
  teeAttestationHash := none
  principalSignature := "c2ln"
  masterSignature := none
  delegatedGrants := none
  attestationLineageChain := none

def hybridMaster (ed25519 mlDsa : String) : HybridMaster :=
  ⟨ed25519,mlDsa,List.replicate 32 0,List.replicate 4032 0⟩

def root : FederationTrustRootRecord where
  fortressId := "fortress"
  nodeId := "node"
  pinnedMasterPubkey := ⟨"b2xk","fortress","2026-01-01T00:00:00Z"⟩
  masterSecret := [1]
  masterPrivateKey := some [2]
  issuingPrincipalCert := principalCert
  issuingPrincipalPrivateKey := [3]
  localNodeCert := nodeCert "b2xk"
  localNodePrivateKey := [4]
  rotationSerial := none
  rotationCert := none
  hybrid := some (hybridMaster "b2xkLWVk" "b2xkLW1s")

def start : RootHost := ⟨false,some root,none,none,emptyFederationSyncState⟩

def fresh : FreshRoot where
  publicKey := "bmV3"
  createdAt := "2026-02-01T00:00:00Z"
  masterPrivateKey := [5]
  masterSecret := [6]
  principalCert := principalCert
  principalPrivateKey := [7]
  nodeCert := nodeCert "bmV3"
  rotatedAt := "2026-02-01T00:00:00Z"
  rotationSignature := "c2ln"
  hybrid := hybridMaster "bmV3LWVk" "bmV3LW1s"
  hybridRotation := "c2ln"

/-- A rotation after a compromise that is gone when it would delete the staged root. -/
def cutOff : RootProcess := ⟨.compromised fresh,0,fun _ call => if call=.deleteStaged then .crash else .none⟩

def resume : RootProcess := ⟨.resumeCompromised,0,fun _ _ => .none⟩

end RootSample

open RootSample in
theorem root_rotation_survives_crashes_once :
    validateRecord env 0 root=.ok () ∧
    ∃ b rest after, begunRotations (runRoot env [cutOff] (.initial start)).history=b::rest ∧
      resume.run env ((runRoot env [cutOff] (.initial start)).restart resume.fault)=(.ok (),after) ∧
      after.state.live=some b.new ∧ after.state.staged=none ∧ after.state.journal=none := by
  have hval : validateRecord env 0 root=.ok () := by decide +kernel
  have hok : (resume.run env ((runRoot env [cutOff] (.initial start)).restart resume.fault)).1=.ok () := by
    decide +kernel
  obtain ⟨-,hres,-⟩ := root_rotation_survives_crashes env start root 0 rfl hval rfl [cutOff]
  generalize hrun : resume.run env ((runRoot env [cutOff] (.initial start)).restart resume.fault)=r at hok ⊢
  obtain ⟨ended,after⟩ := r
  cases hok
  obtain ⟨b,rest,hbeg,hlef⟩ := hres resume trivial after hrun
  exact ⟨hval,b,rest,after,hbeg,rfl,hlef⟩

end CastleWall.Federation
