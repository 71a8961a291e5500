import CastleWall.Exit.ImportJournal

/-! # Imports that are cut off

An import whose journal is there is open until its import record is stamped, and closed afterwards. Recovery rolls an
open one back and keeps a closed one, so that its locations are never left half written, as long as the record it
looks at is the import's own. -/

namespace CastleWall.Exit

open Faulty

def HoldsPreImages (h : ExitHost) (record : ExitImportJournalRecord) : Prop :=
  ∀ s∈record.snapshots, h.data s.location=s.data

/-- Every declared location holds what the attempt left when it wrote its own import record. -/
def HoldsImport (h : ExitHost) (a : ExitAttempt) : Prop :=
  ∃ image, a.completed=some image ∧ ∀ s∈a.record.snapshots, h.data s.location=image s.location

def Whole (h : ExitHost) : Prop := ∀ a∈h.attempts.head?, HoldsPreImages h a.record ∨ HoldsImport h a

/-- The import record of the id does not say that the import was activated. -/
def Unstamped (env : ExitEnv) (id : String) (h : ExitHost) : Prop :=
  completionActivated env (h.data (completionLocation id))=false

/-- The one journal, whose pre-images hold no activated import record. -/
structure Journaled (env : ExitEnv) (record : ExitImportJournalRecord) (h : ExitHost) : Prop where
  alone : h.journals.entries=[(record.importId,record)]
  unstamped : ∀ s∈record.snapshots, s.location.namespaceName=exitImportNamespace →
    completionActivated env s.data=false
  functional : ∀ s∈record.snapshots, ∀ s'∈record.snapshots, s.location=s'.location → s.data=s'.data

structure Open (env : ExitEnv) (record : ExitImportJournalRecord) (h : ExitHost) : Prop
    extends Journaled env record h where
  attempt : ∃ rest, h.attempts=⟨record,none⟩::rest
  pending : Unstamped env record.importId h

structure Closed (env : ExitEnv) (record : ExitImportJournalRecord) (h : ExitHost) : Prop
    extends Journaled env record h where
  attempt : ∃ image rest, h.attempts=⟨record,some image⟩::rest ∧
    ∀ s∈record.snapshots, h.data s.location=image s.location
  stamped : ¬ Unstamped env record.importId h

structure Idle (h : ExitHost) : Prop where
  none : h.journals.entries=[]
  whole : Whole h

inductive Sound (env : ExitEnv) (h : ExitHost) : Prop where
  | idle (hidle : Idle h)
  | «open» (record : ExitImportJournalRecord) (hopen : Open env record h)
  | closed (record : ExitImportJournalRecord) (hclosed : Closed env record h)

section States

variable {env : ExitEnv} {record : ExitImportJournalRecord} {h : ExitHost}

def Harmless (env : ExitEnv) (loc : StagedLocation) (value : Option Bytes) : Prop :=
  loc.namespaceName=exitImportNamespace → completionActivated env value=false

theorem Unstamped.put {id : String} (hid : Unstamped env id h) {loc : StagedLocation} {value : Option Bytes}
    (hhar : Harmless env loc value) : Unstamped env id (h.put loc value) := by
  unfold Unstamped
  by_cases hloc : completionLocation id=loc
  · subst hloc
    rw [ExitHost.put_data_self]
    exact hhar rfl
  · rw [ExitHost.put_data_of_ne h value hloc]
    exact hid

theorem Open.put (hope : Open env record h) {loc : StagedLocation} {value : Option Bytes}
    (hhar : Harmless env loc value) : Open env record (h.put loc value) :=
  ⟨⟨hope.alone,hope.unstamped,hope.functional⟩,hope.attempt,hope.pending.put hhar⟩

theorem Open.complete (hope : Open env record h) {bytes : Bytes} (hact : env.activated bytes=true) :
    Closed env record (h.complete record.importId bytes) := by
  obtain ⟨rest,hatt⟩ := hope.attempt
  refine ⟨⟨hope.alone,hope.unstamped,hope.functional⟩,⟨_,rest,?_,fun s _ => rfl⟩,?_⟩
  · unfold ExitHost.complete
    rw [hatt]
  · have hdat : (h.complete record.importId bytes).data (completionLocation record.importId)=some bytes :=
      ExitHost.put_data_self h _ _
    unfold Unstamped
    rw [hdat]
    simp [completionActivated,hact]

theorem Closed.whole (hclo : Closed env record h) : Whole h := by
  obtain ⟨image,rest,hatt,hima⟩ := hclo.attempt
  intro a ha
  rw [hatt] at ha
  cases ha
  exact .inr ⟨image,rfl,hima⟩

theorem Open.whole (hope : Open env record h) (hhol : HoldsPreImages h record) : Whole h := by
  obtain ⟨rest,hatt⟩ := hope.attempt
  intro a ha
  rw [hatt] at ha
  cases ha
  exact .inl hhol

end States

/-- Every state passed through is sound, and these ids are not stamped now. -/
def Keep (env : ExitEnv) (ids : List String) (history : List ExitHost) : Prop :=
  (∀ h∈history, Sound env h) ∧ ∀ h∈history.head?, ∀ id∈ids, Unstamped env id h

section Programs

variable {env : ExitEnv} {ids : List String} {record : ExitImportJournalRecord} {α : Type}
  {F : (Nat → ExitCall → Fault) → Prop} {P E : ExitHost → Prop}

theorem write_keeps {call : ExitCall} {lost : ExitError} {f : ExitHost → Except ExitError ExitHost}
    {Q : Unit → ExitHost → Prop}
    (h : ∀ s s', P s → f s=.ok s' → (Sound env s' ∧ Q () s') ∧ ∀ id∈ids, Unstamped env id s → Unstamped env id s')
    (hlat : ∀ fault n, F fault → fault n call=.late → ∀ s s', P s → f s=.ok s' → E s') (herr : ∀ s, P s → E s) :
    Keeps (Keep env ids) F P (Prog.write call lost f) Q E := by
  refine Keeps.write (fun s before s' hI hP hf => ?_) hlat herr
  obtain ⟨⟨hsou,hQ⟩,hids⟩ := h s s' hP hf
  refine ⟨⟨List.forall_mem_cons.mpr ⟨hsou,hI.1⟩,fun s'' hs'' id hid => ?_⟩,hQ⟩
  cases hs''
  exact hids id hid (hI.2 s rfl id hid)

variable {loc : StagedLocation}

theorem putData_keeps {value : Option Bytes} (hhar : Harmless env loc value) :
    Keeps (Keep env ids) F (Open env record) (putData loc value) (fun _ => Open env record) (Open env record) := by
  refine write_keeps (fun s s' hs hf => ?_) (fun _ _ _ _ s s' hs hf => ?_) fun _ hs => hs
  · cases hf
    exact ⟨⟨.open record (hs.put hhar),hs.put hhar⟩,fun _ _ hid => hid.put hhar⟩
  · cases hf
    exact hs.put hhar

/-- What does not look at the post-images. -/
def Blind (P : ExitHost → Prop) : Prop := ∀ h postImages, P h → P { h with postImages := postImages }

theorem Sound.blind : Blind (Sound env) := by
  intro h postImages hsou
  cases hsou with
  | idle hidl => exact .idle ⟨hidl.none,hidl.whole⟩
  | «open» record hope => exact .open record ⟨⟨hope.alone,hope.unstamped,hope.functional⟩,hope.attempt,hope.pending⟩
  | closed record hclo =>
    exact .closed record ⟨⟨hclo.alone,hclo.unstamped,hclo.functional⟩,hclo.attempt,hclo.stamped⟩

theorem Open.blind : Blind (Open env record) := fun _ _ hope =>
  ⟨⟨hope.alone,hope.unstamped,hope.functional⟩,hope.attempt,hope.pending⟩

/-- A change of the post-images keeps what does not look at them. -/
theorem postImages_keeps {call : ExitCall} {lost : ExitError}
    (f : OrderedMap (String × StagedLocation) PostImage → OrderedMap (String × StagedLocation) PostImage)
    (hbli : Blind P) (hsou : ∀ s, P s → Sound env s) :
    Keeps (Keep env ids) F P (Prog.write call lost fun h => .ok { h with postImages := f h.postImages }) (fun _ => P) P := by
  refine write_keeps (fun s s' hs hf => ?_) (fun _ _ _ _ s s' hs hf => ?_) fun _ hs => hs
  · cases hf
    exact ⟨⟨(hsou s hs).blind _ _,hbli _ _ hs⟩,fun _ _ hid => hid⟩
  · cases hf
    exact hbli _ _ hs

theorem readData_keeps {I : List ExitHost → Prop} :
    Keeps I F P (readData loc) (fun data h => P h ∧ h.data loc=data) P :=
  Keeps.read (fun _ _ hP hf => ⟨hP,Except.ok.inj hf⟩) fun _ hP => hP

variable {importId : String}

theorem readPostImageHash_keeps {I : List ExitHost → Prop} :
    Keeps I F P (readPostImageHash importId loc) (fun _ => P) P :=
  Keeps.read (fun _ _ hP _ => hP) fun _ hP => hP

theorem plainExitCall_keeps (call : ExitCall) {I : List ExitHost → Prop} :
    Keeps I F P (plainExitCall call) (fun _ => P) P :=
  Keeps.read (fun _ _ hP _ => hP) fun _ hP => hP

theorem readRotationJournal_keeps {I : List ExitHost → Prop} : Keeps I F P readRotationJournal (fun _ => P) P := by
  unfold readRotationJournal
  refine Keeps.bind (R := fun _ => P) (Keeps.read (fun _ _ hP _ => hP) fun _ hP => hP) fun rotating => ?_
  exact Keeps.ofExcept (fun _ _ _ hP => hP) fun _ hP => hP

def Restoring (env : ExitEnv) (record : ExitImportJournalRecord) (restored : List StorageSnapshot) (h : ExitHost) : Prop :=
  Open env record h ∧ ∀ s∈restored, h.data s.location=s.data

variable {restored snapshots : List StorageSnapshot} {s : StorageSnapshot}

theorem Restoring.put {h : ExitHost}
    (hh : Restoring env record restored h) (hres : ∀ s∈restored, s∈record.snapshots) (hs : s∈record.snapshots) :
    Restoring env record (s::restored) (h.put s.location s.data) := by
  refine ⟨hh.1.put (hh.1.unstamped s hs),List.forall_mem_cons.mpr ⟨ExitHost.put_data_self _ _ _,fun s' hs' => ?_⟩⟩
  by_cases hloc : s'.location=s.location
  · rw [hloc,ExitHost.put_data_self]
    exact hh.1.functional s hs s' (hres s' hs') hloc.symm
  · rw [ExitHost.put_data_of_ne _ _ hloc]
    exact hh.2 s' hs'

theorem putSnapshot_keeps
    (hres : ∀ s∈restored, s∈record.snapshots) (hs : s∈record.snapshots) :
    Keeps (Keep env ids) F (Restoring env record restored) (putData s.location s.data)
      (fun _ => Restoring env record (s::restored)) (Restoring env record restored) := by
  have hput : ∀ h, Restoring env record restored h → Restoring env record (s::restored) (h.put s.location s.data) :=
    fun h hh => hh.put hres hs
  refine write_keeps (fun h h' hh hf => ?_) (fun _ _ _ _ h h' hh hf => ?_) fun _ hh => hh
  · cases hf
    refine ⟨⟨.open record (hput h hh).1,hput h hh⟩,fun id _ hid => hid.put (hh.1.unstamped s hs)⟩
  · cases hf
    exact ⟨(hput h hh).1,fun s' hs' => (hput h hh).2 s' (List.mem_cons_of_mem s hs')⟩

theorem restoreSnapshot_keeps (hhas : Function.Injective env.hash) (hres : ∀ s∈restored, s∈record.snapshots) (hs : s∈record.snapshots) :
    Keeps (Keep env ids) F (Restoring env record restored) (restoreSnapshot env importId s)
      (fun done => Restoring env record (if done then s::restored else restored)) (Restoring env record restored) := by
  unfold restoreSnapshot
  have hput : Keeps (Keep env ids) F (Restoring env record restored) (do putData s.location s.data; pure true)
      (fun done => Restoring env record (if done then s::restored else restored)) (Restoring env record restored) :=
    Keeps.bind (putSnapshot_keeps hres hs) fun _ => Keeps.pure fun _ hh => hh
  by_cases hche : locationNeedsPostImageDivergenceCheck s.location.namespaceName=true
  · rw [if_pos hche]
    refine Keeps.bind readData_keeps fun current => ?_
    refine Keeps.bind (readPostImageHash_keeps.weaken (fun _ hh => hh) (fun _ _ hh => hh) fun _ hh => hh.1)
      fun postImage => ?_
    cases hsaf : classifyRestoreSafety env current s.data postImage with
    | safeNoop =>
      refine Keeps.pure fun h hh => ⟨hh.1.1,List.forall_mem_cons.mpr ⟨?_,hh.1.2⟩⟩
      unfold classifyRestoreSafety at hsaf
      split_ifs at hsaf with hsam
      rw [hh.2]
      exact Option.map_injective hhas hsam
    | diverged => exact Keeps.pure fun h hh => hh.1
    | safeRestore => exact hput.weaken (fun _ hh => hh.1) (fun _ _ hh => hh) fun _ hh => hh
  · rw [if_neg hche]
    exact hput

theorem restoreStorageSnapshots_keeps (hhas : Function.Injective env.hash) (hsna : ∀ s∈snapshots, s∈record.snapshots) :
    ∀ restored : List StorageSnapshot, (∀ s∈restored, s∈record.snapshots) →
      Keeps (Keep env ids) F (Restoring env record restored) (restoreStorageSnapshots env importId snapshots)
        (fun result h => Restoring env record restored h ∧ (result.failed=[] → ∀ s∈snapshots, h.data s.location=s.data))
        (Open env record) := by
  induction snapshots with
  | nil => exact fun _ _ => Keeps.pure fun _ hh => ⟨hh,fun _ s hs => (nomatch hs)⟩
  | cons s rest ih =>
    intro restored hres
    have hs := hsna s List.mem_cons_self
    have hret := ih fun s' hs' => hsna s' (List.mem_cons_of_mem s hs')
    unfold restoreStorageSnapshots
    refine Keeps.attempt_bind (restoreSnapshot_keeps hhas hres hs) (fun _ hh => hh.1) (fun done => ?_) fun err => ?_
    · cases done with
      | false =>
        refine Keeps.bind (hret restored hres) fun result => Keeps.pure fun h hh => ⟨hh.1,fun hfai => ?_⟩
        cases hfai
      | true =>
        refine Keeps.bind (hret (s::restored) (List.forall_mem_cons.mpr ⟨hs,hres⟩)) fun result => ?_
        refine Keeps.pure fun h hh => ?_
        have hdon := List.forall_mem_cons.mp hh.1.2
        exact ⟨⟨hh.1.1,hdon.2⟩,fun hfai => List.forall_mem_cons.mpr ⟨hdon.1,hh.2 hfai⟩⟩
    · refine Keeps.bind (hret restored hres) fun result => Keeps.pure fun h hh => ⟨hh.1,fun hfai => ?_⟩
      cases hfai

theorem restore_keeps (hhas : Function.Injective env.hash) :
    Keeps (Keep env ids) F (Open env record) (restoreStorageSnapshots env importId record.snapshots)
      (fun result h => Open env record h ∧ (result.failed=[] → HoldsPreImages h record)) (Open env record) :=
  (restoreStorageSnapshots_keeps hhas (fun _ hs => hs) [] (List.forall_mem_nil _)).weaken
    (fun _ hh => ⟨hh,List.forall_mem_nil _⟩) (fun _ _ hh => ⟨hh.1.1,hh.2⟩) fun _ hh => hh

structure Clearable (env : ExitEnv) (importId : String) (h : ExitHost) : Prop where
  alone : ∃ record, h.journals.entries=[(importId,record)]
  whole : Whole h
  sound : Sound env h

theorem Clearable.blind : Blind (Clearable env importId) :=
  fun _ _ hh => ⟨hh.alone,hh.whole,hh.sound.blind _ _⟩

theorem Closed.clearable {h : ExitHost} (hclo : Closed env record h) : Clearable env record.importId h :=
  ⟨⟨record,hclo.alone⟩,hclo.whole,.closed record hclo⟩

theorem Open.clearable {h : ExitHost} (hope : Open env record h) (hhol : HoldsPreImages h record) :
    Clearable env record.importId h :=
  ⟨⟨record,hope.alone⟩,hope.whole hhol,.open record hope⟩

theorem deleteEachPostImage_keeps {clearing : Clearing} {keys : List (String × StagedLocation)} (hbli : Blind P)
    (hsou : ∀ s, P s → Sound env s) :
    Keeps (Keep env ids) F P (deleteEachPostImage clearing keys) (fun _ => P) P := by
  induction keys with
  | nil => exact Keeps.pure fun _ hP => hP
  | cons key keys ih => exact Keeps.bind (postImages_keeps (·.erase key) hbli hsou) fun _ => ih

theorem deleteImportJournal_keeps {clearing : Clearing} :
    Keeps (Keep env ids) F (Clearable env importId) (deleteImportJournal clearing importId) (fun _ => Idle) fun _ => True := by
  unfold deleteImportJournal deletePostImageRecords
  refine Keeps.bind (R := fun _ => Clearable env importId) ?_ fun _ => ?_
  · refine Keeps.bind (R := fun _ => Clearable env importId) (Keeps.read (fun _ _ hP _ => hP) fun _ _ => trivial)
      fun keys => ?_
    exact (deleteEachPostImage_keeps Clearable.blind fun _ hh => hh.sound).weaken (fun _ hh => hh) (fun _ _ hh => hh)
      fun _ _ => trivial
  · refine write_keeps (fun h h' hh hf => ?_) (fun _ _ _ _ _ _ _ _ => trivial) fun _ _ => trivial
    cases hf
    obtain ⟨record,halo⟩ := hh.alone
    have hidl : Idle { h with journals := h.journals.erase importId } :=
      ⟨by simp [OrderedMap.erase,OrderedMap.filter,halo],hh.whole⟩
    exact ⟨⟨.idle hidl,hidl⟩,fun _ _ hid => hid⟩

/-- Recovery without a failed journal leaves nothing half done; otherwise the journal stays. -/
def Reported (report : RecoveryReport) (h : ExitHost) : Prop :=
  (report.failed=[] → Idle h) ∧ (report.failed≠[] → h.journals.entries≠[])

theorem Journaled.journal_stays {h : ExitHost} (hjou : Journaled env record h) : h.journals.entries≠[] := by
  rw [hjou.alone]
  exact List.cons_ne_nil _ _

theorem clearReported_keeps {report : RecoveryReport} (hrep : report.failed=[]) :
    Keeps (Keep env ids) F (Clearable env importId) (do deleteImportJournal .recovered importId; pure report) Reported
      fun _ => True :=
  Keeps.bind deleteImportJournal_keeps fun _ => Keeps.pure fun _ hh => ⟨fun _ => hh,fun hne => absurd hrep hne⟩

theorem recoverJournal_open (hhas : Function.Injective env.hash) :
    Keeps (Keep env ids) F (Open env record) (recoverJournal env record.importId record) Reported fun _ => True := by
  unfold recoverJournal
  refine Keeps.bind (readData_keeps.weaken (fun _ hh => hh) (fun _ _ hh => hh) fun _ _ => trivial) fun found => ?_
  by_cases hsta : completionActivated env found=true
  · refine fun w _ _ hh => absurd hsta ?_
    rw [← hh.2,hh.1.pending]
    exact Bool.false_ne_true
  rw [if_neg hsta]
  refine Keeps.bind ((restore_keeps hhas).weaken (fun _ hh => hh.1) (fun _ _ hh => hh) fun _ _ => trivial) fun cleanup => ?_
  by_cases hfai : cleanup.failed=[]
  · rw [if_pos hfai]
    exact (clearReported_keeps rfl).weaken (fun _ hh => hh.1.clearable (hh.2 hfai)) (fun _ _ hh => hh) fun _ hh => hh
  · rw [if_neg hfai]
    exact Keeps.pure fun h hh => ⟨fun hnil => (nomatch hnil),fun _ => hh.1.journal_stays⟩

theorem recoverJournal_closed :
    Keeps (Keep env ids) F (Closed env record) (recoverJournal env record.importId record) Reported fun _ => True := by
  unfold recoverJournal
  refine Keeps.bind (readData_keeps.weaken (fun _ hh => hh) (fun _ _ hh => hh) fun _ _ => trivial) fun found => ?_
  by_cases hsta : completionActivated env found=true
  · rw [if_pos hsta]
    exact (clearReported_keeps rfl).weaken (fun _ hh => hh.1.clearable) (fun _ _ hh => hh) fun _ hh => hh
  · refine fun w _ _ hh => absurd ?_ hh.1.stamped
    unfold Unstamped
    rw [hh.2]
    exact Bool.not_eq_true _ ▸ hsta

theorem recoverEntry_keeps (hP : ∀ h, P h → Journaled env record h)
    (hrec : Keeps (Keep env ids) F P (recoverJournal env record.importId record) Reported fun _ => True) :
    Keeps (Keep env ids) F P (recoverEntry env record.importId) Reported fun _ => True := by
  unfold recoverEntry
  refine Keeps.bind (R := fun found h => P h ∧ found=some record) ?_ fun found => Keeps.of_fact fun hfou => ?_
  · refine Keeps.read (fun h found hh hf => ⟨hh,?_⟩) fun _ _ => trivial
    cases hf
    simp [OrderedMap.get,(hP h hh).alone]
  subst hfou
  dsimp only
  split
  · exact Keeps.pure fun h hh => ⟨fun hnil => absurd hnil (List.cons_ne_nil _ _),fun _ => (hP h hh).journal_stays⟩
  · exact hrec

theorem recoverInterruptedExitImports_keeps (hhas : Function.Injective env.hash) :
    Keeps (Keep env ids) F P (recoverInterruptedExitImports env) Reported fun _ => True := by
  unfold recoverInterruptedExitImports listJournals
  refine Keeps.of_last (fun s before hI => hI.1 s List.mem_cons_self) ?_
  refine Keeps.bind (R := fun keys h => Sound env h ∧ h.journals.entries.map Prod.fst=keys) ?_ fun keys => ?_
  · exact Keeps.read (fun h keys hh hf => ⟨hh.2,Except.ok.inj hf⟩) fun _ _ => trivial
  split
  · refine Keeps.pure fun h hh => ⟨fun _ => ?_,fun hne => absurd rfl hne⟩
    have hnil := List.map_eq_nil_iff.mp hh.2
    cases hh.1 with
    | idle hidl => exact hidl
    | «open» record hope => exact absurd hnil hope.journal_stays
    | closed record hclo => exact absurd hnil hclo.journal_stays
  · rename_i key
    refine Keeps.bind (R := Reported) ?_ fun report => ?_
    · refine Keeps.weaken (P := fun h => ∃ record : ExitImportJournalRecord,
        (Open env record h ∨ Closed env record h) ∧ record.importId=key) (Keeps.of_exists fun record =>
          Keeps.of_fact fun hkey => ?_) (fun h hh => ?_) (fun _ _ hh => hh) fun _ hh => hh
      · subst hkey
        exact Keeps.of_or (recoverEntry_keeps (fun _ hh => hh.toJournaled) (recoverJournal_open hhas))
          (recoverEntry_keeps (fun _ hh => hh.toJournaled) recoverJournal_closed)
      · cases hh.1 with
        | idle hidl =>
          rw [hidl.none] at hh
          cases hh.2
        | «open» record hope =>
          rw [hope.alone] at hh
          exact ⟨record,.inl hope,List.head_eq_of_cons_eq hh.2⟩
        | closed record hclo =>
          rw [hclo.alone] at hh
          exact ⟨record,.inr hclo,List.head_eq_of_cons_eq hh.2⟩
    · refine Keeps.bind ((plainExitCall_keeps _).weaken (fun _ hh => hh) (fun _ _ hh => hh) fun _ _ => trivial) fun _ => ?_
      exact Keeps.pure fun _ hh => hh
  · rename_i hnil _
    refine Keeps.pure fun h hh => ⟨fun hkes => absurd hkes hnil,fun _ hent => ?_⟩
    rw [hent] at hh
    exact hnil hh.2.symm

theorem snapshotEach_keeps {I : List ExitHost → Prop} (h₀ : ExitHost) (locations : List StagedLocation) :
    Keeps I F (fun h => h=h₀) (snapshotEach locations)
      (fun snapshots h => h=h₀ ∧ snapshots=locations.map fun loc => ⟨loc,h₀.data loc⟩) fun _ => True := by
  induction locations with
  | nil => exact Keeps.pure fun _ hh => ⟨hh,rfl⟩
  | cons loc rest ih =>
    unfold snapshotEach
    refine Keeps.bind (readData_keeps.weaken (fun _ hh => hh) (fun _ _ hh => hh) fun _ _ => trivial) fun data => ?_
    refine Keeps.weaken (P := fun h => h=h₀ ∧ h₀.data loc=data) ?_ (fun h hh => ⟨hh.1,hh.1 ▸ hh.2⟩)
      (fun _ _ hh => hh) fun _ hh => hh
    refine Keeps.of_fact fun hdat => Keeps.bind ih fun snapshots => Keeps.pure fun h hh => ⟨hh.1,?_⟩
    rw [hh.2,← hdat,List.map_cons]

/-- The snapshots of locations among which only the import's own record is an import record. -/
structure SnapshotsOf (importId : String) (h : ExitHost) (snapshots : List StorageSnapshot) : Prop where
  data : ∀ s∈snapshots, s.data=h.data s.location
  own : ∀ s∈snapshots, s.location.namespaceName=exitImportNamespace → s.location=completionLocation importId

theorem snapshotStorageLocations_keeps {I : List ExitHost → Prop} {locations : List StagedLocation}
    (hown : ∀ loc∈locations, loc.namespaceName=exitImportNamespace → loc=completionLocation importId) :
    Keeps I F P (snapshotStorageLocations locations)
      (fun snapshots h => P h ∧ SnapshotsOf importId h snapshots) fun _ => True := by
  refine Keeps.of_each fun h₀ hP => ?_
  refine (snapshotEach_keeps h₀ (dedupeLocations locations)).weaken (fun _ hh => hh) (fun snapshots h hh => ?_) fun _ hh => hh
  obtain ⟨rfl,rfl⟩ := hh
  refine ⟨hP,fun s hs => ?_,fun s hs hns => ?_⟩
  · obtain ⟨loc,-,rfl⟩ := List.mem_map.mp hs
    rfl
  · obtain ⟨loc,hloc,rfl⟩ := List.mem_map.mp hs
    exact hown loc (List.mem_eraseDups.mp hloc) hns

theorem writeImportJournal_keeps {identityId startedAt : String} :
    Keeps (Keep env []) F (fun h => (Idle h ∧ Unstamped env importId h) ∧ SnapshotsOf importId h snapshots)
      (writeImportJournal ⟨importId,identityId,startedAt,snapshots⟩)
      (fun _ => Open env ⟨importId,identityId,startedAt,snapshots⟩) fun _ => True := by
  refine write_keeps (fun h h' hh hf => ?_) (fun _ _ _ _ _ _ _ _ => trivial) fun _ _ => trivial
  obtain ⟨⟨hidl,huns⟩,hsna⟩ := hh
  cases hf
  have hope : Open env ⟨importId,identityId,startedAt,snapshots⟩ { h with
      journals := h.journals.set importId ⟨importId,identityId,startedAt,snapshots⟩
      attempts := ⟨⟨importId,identityId,startedAt,snapshots⟩,none⟩::h.attempts } := by
    refine ⟨⟨?_,fun s hs hns => ?_,fun s hs s' hs' hloc => ?_⟩,⟨h.attempts,rfl⟩,huns⟩
    · simp [OrderedMap.set,hidl.none]
    · rw [hsna.data s hs,hsna.own s hs hns]
      exact huns
    · rw [hsna.data s hs,hsna.data s' hs',hloc]
  exact ⟨⟨.open _ hope,hope⟩,List.forall_mem_nil _⟩

theorem hasInterruptedExitImport_keeps (hP : ∀ h, P h → ∃ env, Sound env h) {I : List ExitHost → Prop} :
    Keeps I F P hasInterruptedExitImport (fun interrupted h => P h ∧ (interrupted=false → Idle h)) fun _ => True := by
  unfold hasInterruptedExitImport listJournals
  refine Keeps.bind (R := fun keys h => P h ∧ h.journals.entries.map Prod.fst=keys) ?_ fun keys => ?_
  · exact Keeps.read (fun h keys hh hf => ⟨hh,Except.ok.inj hf⟩) fun _ _ => trivial
  refine Keeps.pure fun h hh => ⟨hh.1,fun hnone => ?_⟩
  have hent : h.journals.entries=[] := by
    rw [← hh.2] at hnone
    simpa using hnone
  obtain ⟨env,hsou⟩ := hP h hh.1
  cases hsou with
  | idle hidl => exact hidl
  | «open» record hope => exact absurd hent hope.journal_stays
  | closed record hclo => exact absurd hent hclo.journal_stays

/-- The write of the import record has its effect or fails, but not both. -/
def StampAtomic (fault : Nat → ExitCall → Fault) : Prop := ∀ n, fault n .stamp≠.late

def ClearsUnfailing (fault : Nat → ExitCall → Fault) : Prop :=
  ∀ n, ∀ call∈[ExitCall.listPostImages .completed,.deletePostImage .completed,.deleteJournal .completed],
    fault n call=.none ∨ fault n call=.crash

theorem writeCompletion_keeps (hF : ∀ fault, F fault → StampAtomic fault) {bytes : Bytes}
    (hact : env.activated bytes=true) :
    Keeps (Keep env []) F (Open env record) (writeCompletion record.importId bytes) (fun _ => Closed env record)
      (Open env record) := by
  refine write_keeps (fun h h' hh hf => ?_) (fun fault n hfau hcal => absurd hcal (hF fault hfau n)) fun _ hh => hh
  cases hf
  exact ⟨⟨.closed record (hh.complete hact),hh.complete hact⟩,fun _ hid => (nomatch hid)⟩

theorem deletePostImageRecords_fault (clearing : Clearing) (importId : String) (w : World ExitCall ExitHost) :
    (deletePostImageRecords clearing importId w).2.fault=w.fault := by
  have heac : ∀ keys, Keeps (fun _ => True) (fun _ => True) (fun _ => True) (deleteEachPostImage clearing keys)
      (fun _ _ => True) fun _ => True := by
    intro keys
    induction keys with
    | nil => exact Keeps.pure fun _ _ => trivial
    | cons key keys ih =>
      refine Keeps.bind (Keeps.write (fun _ _ _ _ _ _ => ⟨trivial,trivial⟩) (fun _ _ _ _ _ _ _ _ => trivial)
        fun _ _ => trivial) fun _ => ih
  have hall : Keeps (fun _ => True) (fun _ => True) (fun _ => True) (deletePostImageRecords clearing importId)
      (fun _ _ => True) fun _ => True :=
    Keeps.bind (R := fun _ _ => True) (Keeps.read (fun _ _ _ _ => trivial) fun _ _ => trivial) heac
  exact (hall w trivial trivial trivial).1

theorem deleteImportJournal_unfailing (importId : String) :
    Unfailing ClearsUnfailing (deleteImportJournal .completed importId) := by
  have heac : ∀ keys, Unfailing ClearsUnfailing (deleteEachPostImage .completed keys) := by
    intro keys
    induction keys with
    | nil => exact Unfailing.pure ()
    | cons key keys ih =>
      refine Unfailing.bind ?_ (Prog.write_fault _ _ _) fun _ => ih
      exact Unfailing.write (fun fault n hfau => hfau n _ (by simp)) fun s => ⟨_,rfl⟩
  unfold deleteImportJournal
  refine Unfailing.bind ?_ (deletePostImageRecords_fault _ _) fun _ => ?_
  · refine Unfailing.bind ?_ (Prog.read_fault _ _ _) heac
    exact Unfailing.read (fun fault n hfau => hfau n _ (by simp)) fun s => ⟨_,rfl⟩
  · exact Unfailing.write (fun fault n hfau => hfau n _ (by simp)) fun s => ⟨_,rfl⟩

theorem recordPostImage_keeps {bytes : Option Bytes} :
    Keeps (Keep env ids) F (Open env record) (recordPostImage env importId loc bytes) (fun _ => Open env record)
      (Open env record) :=
  postImages_keeps (fun m => m.set (importId,loc) _) Open.blind fun _ hh => .open record hh

theorem guardedSteps_keeps {declared : List StagedLocation}
    (hdec : ∀ loc∈declared, loc.namespaceName≠exitImportNamespace) (steps : List AdmissionStep) :
    Keeps (Keep env ids) F (Open env record) (guardedSteps env importId declared steps) (fun _ => Open env record)
      (Open env record) := by
  have hput : ∀ loc value, Keeps (Keep env ids) F (fun h => Open env record h ∧ loc∈declared) (putData loc value)
      (fun _ => Open env record) (Open env record) := fun loc value =>
    Keeps.of_fact fun hloc => putData_keeps fun hns => absurd hns (hdec loc hloc)
  have hass : ∀ loc, Keeps (Keep env ids) F (Open env record) (assertDeclared declared loc)
      (fun _ h => Open env record h ∧ loc∈declared) (Open env record) := fun loc =>
    Keeps.ofExcept (fun _ h hloc hh => ⟨hh,Outcome.require_eq_ok.mp hloc⟩) fun _ hh => hh
  induction steps with
  | nil => exact Keeps.pure fun _ hh => hh
  | cons step rest ih =>
    refine Keeps.bind ?_ fun _ => ih
    cases step with
    | write loc bytes =>
      refine Keeps.bind (hass loc) fun _ => ?_
      exact Keeps.bind (hput loc _) fun _ => recordPostImage_keeps
    | delete loc =>
      refine Keeps.bind (hass loc) fun _ => ?_
      refine Keeps.bind (readData_keeps.weaken (fun _ hh => hh) (fun _ _ hh => hh.1) fun _ hh => hh.1) fun current => ?_
      refine Keeps.bind (hput loc _) fun _ => ?_
      unfold recordDeleted
      split
      · exact recordPostImage_keeps
      · exact Keeps.pure fun _ hh => hh
    | throw => exact Keeps.fail fun _ hh => hh

theorem verifySnapshots_keeps {I : List ExitHost → Prop} (snapshots : List StorageSnapshot) :
    Keeps I F P (verifySnapshots env importId snapshots) (fun _ => P) P := by
  induction snapshots with
  | nil => exact Keeps.pure fun _ hh => hh
  | cons s rest ih =>
    refine Keeps.bind ?_ fun _ => ih
    unfold verifySnapshot
    split
    · refine Keeps.bind (readData_keeps.weaken (fun _ hh => hh) (fun _ _ hh => hh.1) fun _ hh => hh) fun current => ?_
      refine Keeps.bind readPostImageHash_keeps fun postImage => ?_
      exact Keeps.ofExcept (fun _ _ _ hh => hh) fun _ hh => hh
    · exact Keeps.pure fun _ hh => hh

theorem rollBackAdmission_keeps (hhas : Function.Injective env.hash) {err : ExitError} :
    Keeps (Keep env ids) F (Open env record) (rollBackAdmission env record.importId record.snapshots err)
      (fun _ _ => True) fun _ => True := by
  unfold rollBackAdmission
  refine Keeps.bind ((restore_keeps hhas).weaken (fun _ hh => hh) (fun _ _ hh => hh) fun _ _ => trivial) fun rollback => ?_
  refine Keeps.bind (R := fun _ => Clearable env record.importId) ?_ fun _ => ?_
  · exact Keeps.ofExcept (fun _ h hok hh => hh.1.clearable (hh.2 (Outcome.require_eq_ok.mp hok).1)) fun _ _ => trivial
  · exact Keeps.bind deleteImportJournal_keeps fun _ => Keeps.fail fun _ _ => trivial

theorem admit_keeps (hF : ∀ fault, F fault → StampAtomic fault) (a : MemoryAdmission env)
    (hrec : record.importId=a.importId) :
    Keeps (Keep env []) F (Open env record) (writeAdmission a snapshots) (fun _ => Closed env record) (Open env record) := by
  unfold writeAdmission
  rw [← hrec]
  refine Keeps.bind (guardedSteps_keeps a.outside _) fun _ => ?_
  exact Keeps.bind (verifySnapshots_keeps _) fun _ => writeCompletion_keeps hF a.activates

theorem MemoryAdmission.journalLocations_own (a : MemoryAdmission env) :
    ∀ loc∈a.journalLocations, loc.namespaceName=exitImportNamespace → loc=completionLocation a.importId := by
  intro loc hloc hns
  rcases List.mem_append.mp hloc with hloc | hloc
  · exact absurd hns (a.outside loc hloc)
  · exact List.mem_singleton.mp hloc

theorem runJournaledExitMemoryAdmission_keeps (hhas : Function.Injective env.hash) (a : MemoryAdmission env) :
    Keeps (Keep env []) (fun fault => StampAtomic fault ∧ ClearsUnfailing fault) (Unstamped env a.importId)
      (runJournaledExitMemoryAdmission a) (fun _ _ => True) fun _ => True := by
  unfold runJournaledExitMemoryAdmission
  refine Keeps.of_last (fun s before hI => hI.1 s List.mem_cons_self) ?_
  refine Keeps.bind (Keeps.ofExcept (fun _ _ _ hh => hh) fun _ _ => trivial) fun _ => ?_
  refine Keeps.bind (hasInterruptedExitImport_keeps fun _ hh => ⟨env,hh.2⟩) fun interrupted => ?_
  refine Keeps.bind (R := fun _ h => Idle h ∧ Unstamped env a.importId h) ?_ fun _ => ?_
  · exact Keeps.ofExcept (fun _ h hnone hh => ⟨hh.2 (Outcome.require_eq_ok.mp hnone),hh.1.1⟩) fun _ _ => trivial
  refine Keeps.bind (snapshotStorageLocations_keeps a.journalLocations_own) fun snapshots => ?_
  refine Keeps.bind writeImportJournal_keeps fun _ => ?_
  refine Keeps.attempt_bind_unfailing (S := fun _ => Idle) (admit_keeps (fun _ hF => hF.1) a rfl)
    (fun _ _ => trivial) (fun _ => ?_) (fun _ => ?_)
    (fun _ => Keeps.pure fun _ _ => trivial) fun err => rollBackAdmission_keeps hhas
  · exact deleteImportJournal_keeps.weaken (fun _ hh => hh.clearable) (fun _ _ hh => hh) fun _ hh => hh
  · exact fun w hF => deleteImportJournal_unfailing a.importId w hF.2

theorem stageEach_keeps {writes : List (StagedLocation × Bytes)}
    (hwri : ∀ write∈writes, write.1.namespaceName≠exitImportNamespace) :
    Keeps (Keep env ids) F (Open env record) (stageEach writes) (fun _ => Open env record) (Open env record) := by
  induction writes with
  | nil => exact Keeps.pure fun _ hh => hh
  | cons write rest ih =>
    have hres := List.forall_mem_cons.mp hwri
    exact Keeps.bind (putData_keeps fun hns => absurd hns hres.1) fun _ => ih hres.2

theorem activationSteps_keeps {steps : List ActivationStep}
    (hste : ∀ loc bytes, ActivationStep.write loc bytes∈steps → loc.namespaceName≠exitImportNamespace) :
    Keeps (Keep env ids) F (Open env record) (activationSteps env importId steps) (fun _ => Open env record)
      (Open env record) := by
  induction steps with
  | nil => exact Keeps.pure fun _ hh => hh
  | cons step rest ih =>
    refine Keeps.bind ?_ fun _ => ih fun loc bytes hmem => hste loc bytes (List.mem_cons_of_mem step hmem)
    cases step with
    | write loc bytes =>
      refine Keeps.bind (putData_keeps fun hns => absurd hns (hste loc bytes List.mem_cons_self)) fun _ => ?_
      exact Keeps.attempt_bind recordPostImage_keeps (fun _ hh => hh) (fun _ => Keeps.pure fun _ hh => hh)
        fun _ => Keeps.pure fun _ hh => hh
    | throw => exact Keeps.fail fun _ hh => hh

/-- The staged artifacts are not import records. -/
theorem StagedArtifacts.writes_outside (artifacts : StagedArtifacts) (importId : String) :
    ∀ write∈artifacts.writes importId, write.1.namespaceName≠exitImportNamespace := by
  intro write hwri
  have hne : ∀ namespaceName∈exitStagingNamespaces.dropLast, namespaceName≠exitImportNamespace := by decide
  simp only [StagedArtifacts.writes,List.mem_append,Option.mem_toList,Option.map_eq_some_iff] at hwri
  rcases hwri with (((⟨_,_,rfl⟩ | ⟨_,_,rfl⟩) | ⟨_,_,rfl⟩) | ⟨_,_,rfl⟩) | ⟨_,_,rfl⟩ <;>
    exact hne _ (by simp [exitStagingNamespaces])

theorem BundleImport.activationSnapshotLocations_own (b : BundleImport env) :
    ∀ loc∈b.activationSnapshotLocations, loc.namespaceName=exitImportNamespace →
      loc=completionLocation b.importId := by
  intro loc hloc hns
  rcases List.mem_append.mp hloc with hloc | hloc
  · obtain ⟨write,hwri,rfl⟩ := List.mem_map.mp hloc
    exact absurd hns (b.artifacts.writes_outside b.importId write hwri)
  · rcases List.mem_cons.mp hloc with rfl | hloc
    · rfl
    · exact absurd hns (b.outside loc hloc)

theorem activate_keeps (hF : ∀ fault, F fault → StampAtomic fault) (b : BundleImport env)
    (hrec : record.importId=b.importId) :
    Keeps (Keep env []) F (Open env record) (activate b) (fun _ => Closed env record) (Open env record) := by
  unfold activate
  rw [← hrec]
  refine Keeps.bind readRotationJournal_keeps fun _ => ?_
  refine Keeps.bind (stageEach_keeps (b.artifacts.writes_outside _)) fun _ => ?_
  refine Keeps.bind (putData_keeps fun _ => b.inProgress) fun _ => ?_
  refine Keeps.bind (plainExitCall_keeps _) fun _ => ?_
  refine Keeps.bind (activationSteps_keeps fun loc bytes hmem => b.outside loc (b.declared loc bytes hmem)) fun _ => ?_
  exact Keeps.bind (plainExitCall_keeps _) fun _ => writeCompletion_keeps hF b.activates

theorem rollBackActivation_keeps (hhas : Function.Injective env.hash) {err : ExitError} :
    Keeps (Keep env ids) F (Open env record) (rollBackActivation env record.importId record.snapshots err)
      (fun _ _ => True) fun _ => True := by
  unfold rollBackActivation
  refine Keeps.bind ((restore_keeps hhas).weaken (fun _ hh => hh) (fun _ _ hh => hh) fun _ _ => trivial) fun cleanup => ?_
  refine Keeps.bind (R := fun _ _ => True) ?_ fun _ => ?_
  · unfold clearUnlessFailed
    by_cases hfai : cleanup.failed=[]
    · rw [if_pos hfai]
      exact deleteImportJournal_keeps.weaken (fun _ hh => hh.1.clearable (hh.2 hfai)) (fun _ _ _ => trivial) fun _ hh => hh
    · rw [if_neg hfai]
      exact Keeps.pure fun _ _ => trivial
  · refine Keeps.bind ((plainExitCall_keeps _).weaken (fun _ hh => hh) (fun _ _ hh => hh) fun _ _ => trivial) fun _ => ?_
    exact Keeps.fail fun _ _ => trivial

theorem locationExists_keeps {I : List ExitHost → Prop} :
    Keeps I F P (locationExists loc) (fun _ => P) fun _ => True := by
  unfold locationExists
  refine Keeps.bind (readData_keeps.weaken (fun _ hh => hh) (fun _ _ hh => hh.1) fun _ _ => trivial) fun data => ?_
  exact Keeps.pure fun _ hh => hh

theorem refuseStagedConflicts_keeps {I : List ExitHost → Prop} (b : BundleImport env) :
    Keeps I F P (refuseStagedConflicts b) (fun _ => P) fun _ => True := by
  unfold refuseStagedConflicts
  refine Keeps.bind locationExists_keeps fun policySet => ?_
  refine Keeps.bind locationExists_keeps fun auditReceipts => ?_
  refine Keeps.bind locationExists_keeps fun commitments => ?_
  refine Keeps.bind locationExists_keeps fun importRecord => ?_
  exact Keeps.ofExcept (fun _ _ _ hh => hh) fun _ _ => trivial

/-- An import of a bundle first recovers, and recovery stamps no import record. -/
theorem recoverOrThrow_keeps (hhas : Function.Injective env.hash) (id : String) :
    Keeps (Keep env []) F (Unstamped env id) (recoverInterruptedExitImportsOrThrow env)
      (fun _ h => Idle h ∧ Unstamped env id h) fun _ => True := by
  unfold recoverInterruptedExitImportsOrThrow
  refine Keeps.strengthen (J := Keep env [id]) ?_ (fun s before hI hid => ⟨hI.1,fun h hh id' hid' => ?_⟩)
    fun history hJ => ⟨hJ.1,fun _ _ _ hid' => (nomatch hid')⟩
  · refine Keeps.bind (recoverInterruptedExitImports_keeps hhas) fun report => ?_
    refine Keeps.of_last (fun s before hJ => hJ.2 s rfl id List.mem_cons_self) ?_
    exact Keeps.ofExcept (fun _ h hok hh => ⟨hh.1.1 (Outcome.require_eq_ok.mp hok),hh.2⟩) fun _ _ => trivial
  · cases hh
    cases List.mem_singleton.mp hid'
    exact hid

theorem importExitBundle_keeps (hhas : Function.Injective env.hash) (b : BundleImport env) :
    Keeps (Keep env []) StampAtomic (Unstamped env b.importId) (importExitBundle b) (fun _ _ => True) fun _ => True := by
  unfold importExitBundle
  refine Keeps.bind (recoverOrThrow_keeps hhas b.importId) fun _ => ?_
  refine Keeps.bind (readRotationJournal_keeps.weaken (fun _ hh => hh) (fun _ _ hh => hh) fun _ _ => trivial) fun _ => ?_
  refine Keeps.bind (Keeps.ofExcept (fun _ _ _ hh => hh) fun _ _ => trivial) fun _ => ?_
  refine Keeps.bind (refuseStagedConflicts_keeps b) fun _ => ?_
  refine Keeps.bind (Keeps.ofExcept (fun _ _ _ hh => hh) fun _ _ => trivial) fun _ => ?_
  refine Keeps.bind (snapshotStorageLocations_keeps b.activationSnapshotLocations_own) fun snapshots => ?_
  refine Keeps.bind (readRotationJournal_keeps.weaken (fun _ hh => hh) (fun _ _ hh => hh) fun _ _ => trivial) fun _ => ?_
  refine Keeps.bind (hasInterruptedExitImport_keeps fun _ hh => ⟨env,.idle hh.1.1⟩) fun interrupted => ?_
  refine Keeps.bind (Keeps.ofExcept (fun _ _ _ hh => hh.1) fun _ _ => trivial) fun _ => ?_
  refine Keeps.bind writeImportJournal_keeps fun _ => ?_
  refine Keeps.attempt_bind_unfailing (S := fun _ _ => True) (activate_keeps (fun _ hF => hF) b rfl)
    (fun _ _ => trivial) (fun _ => ?_)
    (fun _ => Unfailing.attempt_pure _ ()) (fun _ => Keeps.pure fun _ _ => trivial)
    fun err => rollBackActivation_keeps hhas
  refine Keeps.attempt_bind (deleteImportJournal_keeps.weaken (fun _ hh => hh.clearable) (fun _ _ hh => hh) fun _ hh => hh)
    (fun _ _ => trivial) (fun _ => Keeps.pure fun _ _ => trivial) fun _ => Keeps.pure fun _ _ => trivial

end Programs

/-- The import finds no activated record under its own id, and nothing fails after it wrote its own. A journal that
a bundle cannot clear after its stamp is no failure of it. -/
def ExitProcess.Clean {env : ExitEnv} (p : ExitProcess env) (h : ExitHost) : Prop :=
  match p.act with
  | .admission a => Unstamped env a.importId h ∧ StampAtomic p.fault ∧ ClearsUnfailing p.fault
  | .bundle b => Unstamped env b.importId h ∧ StampAtomic p.fault
  | .recover => True

def WholeAfterRecovery (env : ExitEnv) (w : World ExitCall ExitHost) (fault : Nat → ExitCall → Fault) : Prop :=
  ∀ report after, recoverInterruptedExitImports env (w.restart fault)=(.ok report,after) →
    report.failed=[] → after.state.journals.entries=[] ∧ Whole after.state

theorem process_keeps {env : ExitEnv} (hhas : Function.Injective env.hash) (p : ExitProcess env)
    (w : World ExitCall ExitHost) (hcle : p.Clean w.state) (hkee : Keep env [] w.history) (hfau : w.fault=p.fault) :
    Keep env [] (p.run w).2.history := by
  obtain ⟨act,fault⟩ := p
  cases hfau
  cases act with
  | admission a => exact (runJournaledExitMemoryAdmission_keeps hhas a w hcle.2 hkee hcle.1).2.1
  | bundle b => exact (importExitBundle_keeps hhas b w hcle.2 hkee hcle.1).2.1
  | recover =>
    have hrec : Keeps (Keep env []) (fun _ => True) (fun _ => True)
        (do let _ ← recoverInterruptedExitImports env; pure ()) (fun _ _ => True) fun _ => True :=
      Keeps.bind (recoverInterruptedExitImports_keeps hhas) fun _ => Keeps.pure fun _ _ => trivial
    exact (hrec w trivial hkee trivial).2.1

/-- In a run of imports that each find no activated record of their own id and of which nothing fails after its stamp,
a state without a journal has every declared location at its pre-image or at what its import left, whichever calls are
cut off; and a recovery either leaves such a state or reports the journal, which stays. -/
theorem import_whole_unless_journaled (env : ExitEnv) (hhash : Function.Injective env.hash) (start : ExitHost)
    (hjournals : start.journals.entries=[]) (hattempts : start.attempts=[]) (ps : List (ExitProcess env))
    (hclean : Along ExitProcess.run ExitProcess.fault (fun w p => p.Clean w.state) ps (.initial start)) :
    let w := runExit ps (.initial start)
    (∀ h∈w.history, h.journals.entries=[] → Whole h) ∧
    ∀ fault, WholeAfterRecovery env w fault ∧
      ∀ report after, recoverInterruptedExitImports env (w.restart fault)=(.ok report,after) → report.failed≠[] →
        after.state.journals.entries≠[] := by
  intro w
  have hsta : Keep env [] (World.initial start : World ExitCall ExitHost).history := by
    refine ⟨fun h hh => ?_,fun _ _ _ hid => (nomatch hid)⟩
    cases List.mem_singleton.mp hh
    refine .idle ⟨hjournals,fun a ha => ?_⟩
    rw [show (World.initial start : World ExitCall ExitHost).state.attempts=[] from hattempts] at ha
    cases ha
  have hkee : Keep env [] w.history :=
    runs_keep (fun p w hclean hkee hfau _ => process_keeps hhash p w hclean hkee hfau) ps _ hclean hsta
  refine ⟨fun h hh hnone => ?_,fun fault => ?_⟩
  · cases hkee.1 h hh with
    | idle hidl => exact hidl.whole
    | «open» record hope => exact absurd hnone hope.journal_stays
    | closed record hclo => exact absurd hnone hclo.journal_stays
  · have hkes : Keeps (Keep env []) (fun _ => True) (fun _ => True) (recoverInterruptedExitImports env) Reported
      fun _ => True := recoverInterruptedExitImports_keeps hhash
    have hrec := (hkes (w.restart fault) trivial hkee trivial).2.2
    refine ⟨fun report after hrun hfai => ?_,fun report after hrun hfai => ?_⟩
    · rw [hrun] at hrec
      exact ⟨(hrec.1 hfai).none,(hrec.1 hfai).whole⟩
    · rw [hrun] at hrec
      exact hrec.2 hfai

namespace ImportSample

def env : ExitEnv where
  hash := fun bytes => String.ofList (bytes.map fun byte => Char.ofNat byte.toNat)
  activated := fun bytes => decide (bytes.head? = some 1)

theorem hash_injective : Function.Injective env.hash := by
  intro a b h
  have hcha : (a.map fun byte : UInt8 => Char.ofNat byte.toNat)=b.map fun byte => Char.ofNat byte.toNat := by
    have htex := congrArg String.toList h
    simpa [env] using htex
  have hval : ∀ n : Nat, n < 256 → (Char.ofNat n).toNat=n := by decide +kernel
  refine (List.map_injective_iff.mpr fun x y hxy => ?_) hcha
  have hnat := congrArg Char.toNat hxy
  rw [hval _ x.toNat_lt,hval _ y.toNat_lt] at hnat
  exact UInt8.toNat_inj.mp hnat

def first : StagedLocation := ⟨"_sdw_document_corpus","first"⟩

def second : StagedLocation := ⟨"_sdw_document_corpus","second"⟩

def admission : MemoryAdmission env where
  importId := "archive"
  identityId := "identity"
  startedAt := "2026-01-01T00:00:00Z"
  locations := [first,second]
  operation := [.write first [11],.write second [21]]
  completionBytes := [1]
  outside := by decide
  activates := rfl

def host (importRecord : Option Bytes) : ExitHost where
  data := fun loc =>
    if loc=first then some [10] else if loc=second then some [20]
    else if loc=completionLocation "archive" then importRecord else none
  journals := .empty
  postImages := .empty
  rotating := false
  attempts := []

def cutOff : ExitProcess env := ⟨.admission admission,fun n _ => if n=7 then .crash else .none⟩

/-- The journal cannot be cleared after the stamp, and the rollback is gone before the second location. -/
def cutOffRollingBack : ExitProcess env :=
  ⟨.admission admission,fun n call =>
    if call=.listPostImages .completed then .failed else if n=18 then .crash else .none⟩

def noFault : Nat → ExitCall → Fault := fun _ _ => .none

def recovered (importRecord : Option Bytes) (p : ExitProcess env) :
    Ended ExitError RecoveryReport × World ExitCall ExitHost :=
  recoverInterruptedExitImports env ((runExit [p] (.initial (host importRecord))).restart noFault)

/-- The recovery reports no failed journal, and the locations are neither as before nor as the import left them. -/
theorem not_whole {importRecord : Option Bytes} {p : ExitProcess env}
    (hfai : (match (recovered importRecord p).1 with | .ok report => report.failed | _ => ["none"])=[])
    (hpre : ((recovered importRecord p).2.state.attempts.head?.map fun a => decide (∀ s∈a.record.snapshots,
      (recovered importRecord p).2.state.data s.location=s.data))=some false)
    (hima : ((recovered importRecord p).2.state.attempts.head?.map fun a => a.completed.any fun image =>
      decide (∀ s∈a.record.snapshots, (recovered importRecord p).2.state.data s.location=image s.location))=some false) :
    ¬ WholeAfterRecovery env (runExit [p] (.initial (host importRecord))) noFault := by
  intro hwho
  unfold WholeAfterRecovery at hwho
  change ∀ report after, recovered importRecord p=(.ok report,after) → _ at hwho
  generalize recovered importRecord p=r at hfai hpre hima hwho
  obtain ⟨ended,after⟩ := r
  cases ended with
  | error err => cases hfai
  | crashed => cases hfai
  | ok report =>
    obtain ⟨a,ha,hpre'⟩ := Option.map_eq_some_iff.mp hpre
    rw [ha,Option.map_some] at hima
    rcases (hwho report after rfl hfai).2 a ha with hhol | ⟨image,hcom,hhol⟩
    · exact of_decide_eq_false hpre' hhol
    · rw [hcom] at hima
      exact of_decide_eq_false (Option.some.inj hima) hhol

end ImportSample

open ImportSample in
/-- The import record that an earlier import left is taken for the one of the import that was cut off. And an admission
whose journal cannot be cleared is rolled back under its own import record. -/
theorem import_half_written :
    ¬ WholeAfterRecovery env (runExit [cutOff] (.initial (host (some [1,0])))) noFault ∧
    ¬ WholeAfterRecovery env (runExit [cutOffRollingBack] (.initial (host none))) noFault :=
  ⟨not_whole (by decide +kernel) (by decide +kernel) (by decide +kernel),
    not_whole (by decide +kernel) (by decide +kernel) (by decide +kernel)⟩

open ImportSample in
theorem import_whole_unless_journaled_once :
    Unstamped env "archive" (host none) ∧
    ∃ report after, recovered none cutOff=(.ok report,after) ∧ report.failed=[] ∧
      after.state.journals.entries=[] ∧ Whole after.state := by
  have huns : Unstamped env "archive" (host none) := rfl
  have hcle : cutOff.Clean (host none) := by
    refine ⟨huns,fun n hlat => ?_,fun n call _ => ?_⟩
    · simp only [cutOff] at hlat
      split_ifs at hlat
    · simp only [cutOff]
      split_ifs
      · exact .inr rfl
      · exact .inl rfl
  have hfai : (match (recovered none cutOff).1 with | .ok report => report.failed | _ => ["none"])=[] := by
    decide +kernel
  have hwho := (import_whole_unless_journaled env hash_injective (host none) rfl rfl [cutOff] ⟨hcle,trivial⟩).2 noFault
  obtain ⟨hwho,-⟩ := hwho
  unfold WholeAfterRecovery at hwho
  change ∀ report after, recovered none cutOff=(.ok report,after) → _ at hwho
  generalize recovered none cutOff=r at hfai hwho ⊢
  obtain ⟨ended,after⟩ := r
  cases ended with
  | error err => cases hfai
  | crashed => cases hfai
  | ok report => exact ⟨huns,report,after,rfl,hfai,hwho report after rfl hfai⟩

end CastleWall.Exit
