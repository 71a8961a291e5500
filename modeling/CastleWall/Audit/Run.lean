import CastleWall.Audit.Invariant

/-! # Whole runs of the log

A run opens the log, appends, takes snapshots, truncates and restarts in any order. A trace of what was
written and acknowledged is the log's meaning; the file, the memory and every snapshot agree with it. -/

namespace CastleWall.Audit

open Text

inductive Wal where
  | down (disk : Option (List UInt8))
  | up (w : WalWriter)

inductive WalOp where
  | append (kind : AppendKind) (event : String) (sinceEpochMs : Option Nat)
  | snapshot (afterSeq : Option Nat) (maxEntries : Nat)
  | truncate (lastAckedSeq : Nat)
  | restart (sizeCapBytes : UInt64)

inductive LogEvent where
  | written (e : WalEntry)
  | acknowledged (a : Nat)

/-- The rows written and not acknowledged since. -/
def unacked (trace : List LogEvent) : List WalEntry :=
  trace.foldl (fun rows event =>
    match event with
    | .written e => rows++[e]
    | .acknowledged a => rows.filter fun e => a < e.seq) []

section Run

variable (env : WalEnv)

def reopen (disk : Option (List UInt8)) (sizeCapBytes : UInt64) : Wal :=
  match openWithCap env disk sizeCapBytes.toNat with
  | .ok w => .up w
  | .error _ => .down disk

def stepWal : Wal → WalOp → List LogEvent × Wal
  | .down disk, .restart cap => ([],reopen env disk cap)
  | .down disk, _ => ([],.down disk)
  | .up w, .restart cap => ([],reopen env (some w.onDisk) cap)
  | .up w, .append kind event sinceEpochMs =>
    match append env w event kind sinceEpochMs .clean, nextEntry env w event kind sinceEpochMs with
    | (w',.ok _), .ok e => ([.written e],.up w')
    | (w',_), _ => ([],.up w')
  | .up w, .snapshot afterSeq maxEntries => ([],.up (snapshotAfter env w afterSeq maxEntries).1)
  | .up w, .truncate a =>
    match truncateThroughSeq env w a with
    | (w',.ok _) => ([.acknowledged a],.up w')
    | (w',.error _) => ([],.up w')

/-- The runs from a log that does not exist yet in which every step meets a condition on the state before
it. -/
inductive WalRun (P : Wal → WalOp → Prop) : List LogEvent → Wal → Prop
  | start : WalRun P [] (.down none)
  | step {trace : List LogEvent} {wal : Wal} {op : WalOp} :
      WalRun P trace wal → P wal op →
      WalRun P (trace++(stepWal env wal op).1) (stepWal env wal op).2

def rowsOf (w : WalWriter) : List WalEntry := storedRows env ((decodeUtf8 w.file.bytes).getD "")

/-- A truncation that turns the file's first row into the anchor has room for the anchor's flag. -/
def AnchorFits (wal : Wal) (op : WalOp) : Prop :=
  match wal, op with
  | .up w, .truncate a => AnchorGrows a (rowsOf env w) → w.bytesWritten+20 ≤ w.sizeCapBytes
  | _, _ => True

structure Guarantees (trace : List LogEvent) (w : WalWriter) : Prop where
  /-- The file replays to exactly the state in memory. -/
  replays : ∃ contents, decodeUtf8 w.onDisk=some contents ∧
    replayExisting env contents=.ok (w.nextSeq,w.lastChainHashHex,w.bytesWritten)
  /-- The stored sequence numbers are contiguous. -/
  contiguous : ∃ contents, decodeUtf8 w.onDisk=some contents ∧
    (storedRows env contents).IsChain fun a b => b.seq=a.seq+1
  /-- A written row is covered by a later acknowledgement, or a snapshot from any earlier cursor returns
  it once, in sequence order. -/
  covered : ∀ before e after, trace=before++.written e::after →
    (∃ a, .acknowledged a∈after ∧ e.seq ≤ a) ∨
      ∀ afterSeq : Option Nat, afterSeq.all (· < e.seq)=true → ∀ maxEntries, trace.length ≤ maxEntries →
        ∃ out, (snapshotAfter env w afterSeq maxEntries).2=.ok out ∧ out.count e=1 ∧
          out.Pairwise fun a b => a.seq < b.seq
  /-- A snapshot returns the unacknowledged rows past its cursor, up to its limit. -/
  snapshots : ∀ afterSeq maxEntries, (snapshotAfter env w afterSeq maxEntries).2 =
    .ok (((unacked trace).filter fun e => afterSeq.all (· < e.seq)).take maxEntries)
  /-- The unacknowledged rows are in sequence order, each once. -/
  ordered : (unacked trace).Pairwise fun a b => a.seq < b.seq
  /-- The anchor is not among them. -/
  anchorHidden : ∀ e∈unacked trace, e.ackedAnchor=false
  /-- An append that is refused changes nothing. -/
  refusal : ∀ event kind sinceEpochMs err, (append env w event kind sinceEpochMs .clean).2=.error err →
    (append env w event kind sinceEpochMs .clean).1=w
  withinCap : w.onDisk.length ≤ w.sizeCapBytes

end Run

section Invariant

variable {env : WalEnv}

/-- The rows of the file are the trace's unacknowledged rows behind at most one anchor. -/
def FileMatches (env : WalEnv) (trace : List LogEvent) : Wal → Prop
  | .down none => trace=[]
  | .down (some disk) => ∃ rows, disk=fileBytes rows ∧ Readable env rows ∧
      rows.filter (fun e => !e.ackedAnchor)=unacked trace
  | .up w => ∃ rows, Consistent env w rows ∧ rows.filter (fun e => !e.ackedAnchor)=unacked trace ∧
      (fileBytes rows).length ≤ w.sizeCapBytes

theorem unacked_append_written (trace : List LogEvent) (e : WalEntry) :
    unacked (trace++[.written e])=unacked trace++[e] := by
  rw [unacked,List.foldl_append]
  rfl

theorem unacked_append_acknowledged (trace : List LogEvent) (a : Nat) :
    unacked (trace++[.acknowledged a])=(unacked trace).filter fun e => a < e.seq := by
  rw [unacked,List.foldl_append]
  rfl

variable {rows : List WalEntry}

theorem rowsOf_consistent (hlaw : env.Lawful) {w : WalWriter}
    (h : Consistent env w rows) : rowsOf env w=rows := by
  rw [rowsOf,h.bytes,← utf8Bytes_fileText,decodeUtf8_utf8Bytes]
  exact h.storedRows hlaw

private theorem truncatedRows_live (a : Nat) (rows : List WalEntry) :
    (truncatedRows a rows).filter (fun e => !e.ackedAnchor) =
      (rows.filter fun e => !e.ackedAnchor).filter fun e => a < e.seq := by
  have hanc : (((ackedRows a rows).getLast?.map anchored).toList).filter
      (fun e => !e.ackedAnchor)=[] := by
    cases (ackedRows a rows).getLast? with
    | none => rfl
    | some last => rfl
  rw [truncatedRows,List.filter_append,hanc,List.nil_append,keptRows,List.filter_filter,
    List.filter_filter]
  congr 1
  funext e
  exact Bool.and_comm _ _

variable {trace : List LogEvent}

private theorem fileMatches_reopen (hlaw : env.Lawful) (hrow : Readable env rows)
    (hliv : rows.filter (fun e => !e.ackedAnchor)=unacked trace) (cap : UInt64) :
    FileMatches env trace (reopen env (some (fileBytes rows)) cap) := by
  unfold reopen
  rcases openWithCap_readable hlaw hrow cap.toNat_lt with ⟨-,err,h⟩ | ⟨hcap,w,h,hw,hsiz,-⟩
  · rw [h]
    exact ⟨rows,rfl,hrow,hliv⟩
  · rw [h]
    exact ⟨rows,hw,hliv,hsiz ▸ hcap⟩

private theorem fileMatches_append (hlaw : env.Lawful) {w : WalWriter} (hw : Consistent env w rows)
    (hliv : rows.filter (fun e => !e.ackedAnchor)=unacked trace)
    (hcap : (fileBytes rows).length ≤ w.sizeCapBytes) (kind : AppendKind) (event : String)
    (sinceEpochMs : Option Nat) :
    FileMatches env (trace++(stepWal env (.up w) (.append kind event sinceEpochMs)).1)
      (stepWal env (.up w) (.append kind event sinceEpochMs)).2 := by
  rcases append_cases hlaw hw event kind sinceEpochMs .clean with
    ⟨err,h⟩ | ⟨hpoi,err,h⟩ | ⟨e,hent,h,happ⟩
  · simp only [stepWal,h,List.append_nil]
    exact ⟨rows,hw,hliv,hcap⟩
  · exact absurd (append_clean_unpoisoned hw.unpoisoned event kind sinceEpochMs) hpoi
  · simp only [stepWal,hent]
    generalize append env w event kind sinceEpochMs .clean=result at h happ
    obtain ⟨w',reply⟩ := result
    simp only at h happ
    subst h
    refine ⟨rows++[e],happ.consistent,?_,?_⟩
    · have hkee : [e].filter (fun e => !e.ackedAnchor)=[e] :=
        List.filter_eq_self.mpr (by simpa using happ.notAnchor)
      rw [unacked_append_written,List.filter_append,hliv,hkee]
    · rw [happ.sizeCapBytes]
      exact happ.fits.trans (effectiveCap_le w kind)

theorem fileMatches_step (hlaw : env.Lawful) {wal : Wal} {op : WalOp}
    (h : FileMatches env trace wal) (hop : AnchorFits env wal op) :
    FileMatches env (trace++(stepWal env wal op).1) (stepWal env wal op).2 := by
  cases wal with
  | down disk =>
    cases op with
    | restart cap =>
      simp only [stepWal,List.append_nil]
      cases disk with
      | none =>
        obtain ⟨w,hope,hw,-⟩ := openWithCap_none env cap.toNat_lt
        rw [reopen,hope]
        refine ⟨[],hw,?_,Nat.zero_le _⟩
        rw [show trace=[] from h]
        rfl
      | some disk =>
        obtain ⟨rows,rfl,hrow,hliv⟩ := h
        exact fileMatches_reopen hlaw hrow hliv cap
    | append kind event sinceEpochMs => simpa only [stepWal,List.append_nil] using h
    | snapshot afterSeq maxEntries => simpa only [stepWal,List.append_nil] using h
    | truncate a => simpa only [stepWal,List.append_nil] using h
  | up w =>
    obtain ⟨rows,hw,hliv,hcap⟩ := h
    cases op with
    | restart cap =>
      simp only [stepWal,List.append_nil,WalWriter.onDisk,hw.notRenamed,Option.getD_none,hw.bytes]
      exact fileMatches_reopen hlaw hw.readable hliv cap
    | append kind event sinceEpochMs =>
      exact fileMatches_append hlaw hw hliv hcap kind event sinceEpochMs
    | snapshot afterSeq maxEntries =>
      obtain ⟨file,hfil,h⟩ := snapshotAfter_eq hlaw hw afterSeq maxEntries
      simp only [stepWal,h,List.append_nil]
      exact ⟨rows,hw.moveCursor hfil,hliv,hcap⟩
    | truncate a =>
      have hrow := rowsOf_consistent hlaw hw
      have hfit : (fileBytes (truncatedRows a rows)).length ≤ w.sizeCapBytes := by
        by_cases hgro : AnchorGrows a rows
        · have hroo : w.bytesWritten+20 ≤ w.sizeCapBytes := hop (hrow ▸ hgro)
          rw [length_truncated_of_grows hgro,← hw.bytesWritten]
          exact hroo
        · exact (length_truncated_le hw.readable.chained hgro).trans hcap
      have htru := truncateThroughSeq_eq hlaw hw a
      simp only [stepWal,htru]
      refine ⟨truncatedRows a rows,?_,?_,hfit⟩
      · exact hw.truncated (lt_of_le_of_lt hfit hw.cap) rfl w.pendingTruncate
      · rw [unacked_append_acknowledged,truncatedRows_live,hliv]

theorem fileMatches_run (hlaw : env.Lawful) {wal : Wal}
    (h : WalRun env (AnchorFits env) trace wal) : FileMatches env trace wal := by
  induction h with
  | start => rfl
  | step _ hop ih => exact fileMatches_step hlaw ih hop

private theorem mem_unacked {before after : List LogEvent} {e : WalEntry}
    (h : trace=before++.written e::after)
    (hack : ∀ a, .acknowledged a∈after → a < e.seq) : e∈unacked trace := by
  subst h
  induction after using List.reverseRecOn with
  | nil =>
    rw [unacked_append_written]
    simp
  | append_singleton after event ih =>
    have hmem : e∈unacked (before++.written e::after) :=
      ih fun a ha => hack a (List.mem_append_left _ ha)
    rw [← List.cons_append,← List.append_assoc]
    cases event with
    | written e' =>
      rw [unacked_append_written]
      exact List.mem_append_left _ hmem
    | acknowledged a =>
      rw [unacked_append_acknowledged]
      have ha : a < e.seq := hack a (List.mem_append_right _ (by simp))
      exact List.mem_filter.mpr ⟨hmem,by simpa using ha⟩

private theorem length_unacked_le (trace : List LogEvent) : (unacked trace).length ≤ trace.length := by
  induction trace using List.reverseRecOn with
  | nil => exact Nat.le_refl _
  | append_singleton trace event ih =>
    cases event with
    | written e =>
      rw [unacked_append_written,List.length_append,List.length_append,List.length_singleton,
        List.length_singleton]
      omega
    | acknowledged a =>
      have hfil := List.length_filter_le (fun e : WalEntry => a < e.seq) (unacked trace)
      rw [unacked_append_acknowledged,List.length_append,List.length_singleton]
      omega

/-- Rows past a cursor, without the anchor, are unacknowledged rows past the cursor. -/
private theorem filter_isAfter (afterSeq : Option Nat) (rows : List WalEntry) :
    rows.filter (isAfter afterSeq) =
      (rows.filter fun e => !e.ackedAnchor).filter fun e => afterSeq.all (· < e.seq) := by
  rw [List.filter_filter]
  congr 1
  funext e
  exact Bool.and_comm _ _

/-- In every run in which a truncation that makes the first row the anchor has room for the flag, the file
replays to the memory, the log is contiguous, no unacknowledged row is lost or returned twice, the anchor
stays hidden, a refused append changes nothing and the file keeps within its cap. -/
theorem wal_run_guarantees (env : WalEnv) (hlaw : env.Lawful) (trace : List LogEvent) (w : WalWriter)
    (h : WalRun env (AnchorFits env) trace (.up w)) : Guarantees env trace w := by
  obtain ⟨rows,hw,hliv,hcap⟩ := fileMatches_run hlaw h
  obtain ⟨hdec,hrep⟩ := hw.replay hlaw
  have hsna : ∀ afterSeq maxEntries, (snapshotAfter env w afterSeq maxEntries).2 =
      .ok (((unacked trace).filter fun e => afterSeq.all (· < e.seq)).take maxEntries) := by
    intro afterSeq maxEntries
    obtain ⟨file,-,hsnp⟩ := snapshotAfter_eq hlaw hw afterSeq maxEntries
    rw [hsnp,filter_isAfter,hliv]
  have hord : (unacked trace).Pairwise fun a b => a.seq < b.seq := by
    rw [← hliv]
    exact hw.readable.chained.increasing.filter _
  refine
    { replays := ⟨_,hdec,hrep⟩
      contiguous := ⟨_,hdec,?_⟩
      covered := ?_
      snapshots := hsna
      ordered := hord
      anchorHidden := ?_
      refusal := ?_
      withinCap := ?_ }
  · rw [hw.storedRows hlaw]
    exact hw.readable.chained.consecutive
  · intro before e after htra
    by_cases hack : ∃ a, .acknowledged a∈after ∧ e.seq ≤ a
    · exact Or.inl hack
    · right
      intro afterSeq hcur maxEntries hmax
      have hmem : e∈unacked trace := mem_unacked htra fun a ha => by
        by_contra hle
        exact hack ⟨a,ha,not_lt.mp hle⟩
      have hfil : ((unacked trace).filter fun e => afterSeq.all (· < e.seq)).length ≤ maxEntries :=
        (List.length_filter_le _ _).trans ((length_unacked_le trace).trans hmax)
      refine ⟨_,hsna afterSeq maxEntries,?_,?_⟩
      · rw [List.take_of_length_le hfil]
        have hnod : ((unacked trace).filter fun e => afterSeq.all (· < e.seq)).Nodup :=
          (hord.filter _).imp fun hlt heq => absurd (congrArg WalEntry.seq heq) (by omega)
        exact List.count_eq_one_of_mem hnod (List.mem_filter.mpr ⟨hmem,hcur⟩)
      · exact (hord.filter _).sublist (List.take_sublist _ _)
  · intro e he
    rw [← hliv] at he
    simpa using (List.mem_filter.mp he).2
  · intro event kind sinceEpochMs err herr
    rcases append_cases hlaw hw event kind sinceEpochMs .clean with
      ⟨err',h⟩ | ⟨hpoi,-⟩ | ⟨e,-,hok,-⟩
    · rw [h]
    · exact absurd (append_clean_unpoisoned hw.unpoisoned event kind sinceEpochMs) hpoi
    · rw [hok] at herr
      exact absurd herr (by simp)
  · rw [WalWriter.onDisk,hw.notRenamed,Option.getD_none,hw.bytes]
    exact hcap

end Invariant

/-- An event with nothing but an operation takes its chain fields. -/
theorem addWalChainFields_operation {env : WalEnv} (hlaw : env.Lawful) (operation : String) (seq : Nat)
    (prior : Option String) :
    addWalChainFields env (Json.obj [("operation",.str operation)]).canonicalText seq prior =
      .ok (chainedEvent seq prior operation).canonicalText := by
  have hwf : Json.wellFormed (.obj [("operation",.str operation)])=true :=
    Json.wellFormed_obj.mpr ⟨by simp [Json.KeysSorted],by simp [Json.wellFormed]⟩
  have hdep : Json.depth (.obj [("operation",.str operation)]) ≤ 127 := by
    simp [Json.depth,Json.depthFields]
  have hkey : "prior_sha256_hex" ≠ "seq" ∧ "prior_sha256_hex".toList < "seq".toList ∧
      "details" ≠ "operation" ∧ "details".toList < "operation".toList := by decide +kernel
  have hdet : Json.insertField "prior_sha256_hex" (priorField prior)
      (Json.insertField "seq" (.num seq) []) =
        [("prior_sha256_hex",priorField prior),("seq",.num seq)] := by
    rw [Json.insertField,Json.insertField,if_neg hkey.1,if_pos hkey.2.1]
  have hobj : Json.insertField "details"
      (Json.obj [("prior_sha256_hex",priorField prior),("seq",.num seq)])
      [("operation",Json.str operation)] =
        [("details",.obj [("prior_sha256_hex",priorField prior),("seq",.num seq)]),
          ("operation",.str operation)] := by
    rw [Json.insertField,if_neg hkey.2.2.1,if_pos hkey.2.2.2]
  have hloo : ([("operation",.str operation)] : List (String × Json)).lookup "details" = none := by
    simp [List.lookup_cons]
  rw [addWalChainFields,hlaw.value_of_canonicalText _ hwf hdep]
  simp only [hloo,Option.bind_none,Option.getD_none]
  rw [hdet,hobj,chainedEvent]

private def startInput : Json := .obj [("operation",.str "daemon_started")]

private theorem nextEntry_startInput {w : WalWriter} (hw : Consistent twoEventEnv w []) :
    nextEntry twoEventEnv w startInput.canonicalText .control (some 1754000000000)=.ok startRow := by
  have hseq : w.nextSeq=0 := hw.nextSeq
  have hhas : w.lastChainHashHex=none := hw.chainHash
  have hadd : checkedAdd 0 1=some 1 := by decide
  have hcap : capturedAt (some 1754000000000)=1754000000000 := by decide
  have heve := addWalChainFields_operation twoEventEnv_lawful "daemon_started" 0 none
  rw [startInput]
  simp only [nextEntry,hseq,hhas,hadd,heve,hcap]
  rw [startRow]
  rfl

private theorem length_startFile : (fileBytes [startRow]).length ≤ 60001 := by
  have hrow := length_startRow
  rw [fileBytes_singleton,walRowBytes,List.length_append,List.length_singleton]
  omega

private theorem anchorGrows_startRow : AnchorGrows 0 [startRow] :=
  ⟨startRow,[],rfl,rfl,Nat.le_refl 0,by simp⟩

/-- A control event written under a cap and acknowledged: the file ends twenty bytes longer. -/
private theorem oneRowRun {env : WalEnv} (hlaw : env.Lawful) {event : String} {sinceEpochMs : Option Nat}
    {e : WalEntry} {a : Nat}
    (hbui : ∀ w, Consistent env w [] → nextEntry env w event .control sinceEpochMs=.ok e)
    (hgro : AnchorGrows a [e]) (P : Wal → WalOp → Prop) (cap : UInt64) {n : Nat}
    (hn : (fileBytes [e]).length=n) (hfit : n ≤ cap.toNat) (hope : P (.down none) (.restart cap))
    (hwri : ∀ w, P (.up w) (.append .control event sinceEpochMs))
    (hack : ∀ w, w.bytesWritten=n → w.sizeCapBytes=cap.toNat →
      P (.up w) (.truncate a)) :
    ∃ w, WalRun env P [.written e,.acknowledged a] (.up w) ∧
      w.onDisk.length=n+20 ∧ w.sizeCapBytes=cap.toNat := by
  obtain ⟨w₀,hw₀,hc₀,hcap₀,-⟩ := openWithCap_none env cap.toNat_lt
  have hstep₀ : stepWal env (.down none) (.restart cap)=([],.up w₀) := by
    simp only [stepWal,reopen,hw₀]
  have hent := hbui w₀ hc₀
  have heff : effectiveCap w₀ .control=cap.toNat := hcap₀
  obtain ⟨hok,happ⟩ := append_clean_fits hlaw hc₀ hent (by rwa [heff,List.nil_append,hn])
  generalize hapd : append env w₀ event .control sinceEpochMs
    .clean=result at hok happ
  obtain ⟨w₁,reply⟩ := result
  simp only at hok happ
  subst hok
  have hstep₁ : stepWal env (.up w₀)
      (.append .control event sinceEpochMs) =
        ([.written e],.up w₁) := by
    simp only [stepWal,hapd,hent]
  have hc₁ : Consistent env w₁ [e] := by
    simpa only [List.nil_append] using happ.consistent
  have htru := truncateThroughSeq_eq hlaw hc₁ a
  generalize hw₂ : ({ w₁ with
    file := { bytes := fileBytes (truncatedRows a [e]), cursor := 0 }
    bytesWritten := (fileBytes (truncatedRows a [e])).length
    lastChainHashHex := (stateAfter env (truncatedRows a [e])).lastChainHash }
      : WalWriter)=w₂ at htru
  have hstep₂ : stepWal env (.up w₁) (.truncate a)=([.acknowledged a],.up w₂) := by
    simp only [stepWal,htru]
  have hrun₀ : WalRun env P [] (.up w₀) := by
    have hrun := @WalRun.step env P _ _ _ .start hope
    rwa [hstep₀] at hrun
  have hrun₁ : WalRun env P [.written e] (.up w₁) := by
    have hrun := WalRun.step hrun₀ (hwri w₀)
    rwa [hstep₁] at hrun
  have hcap₁ : w₁.sizeCapBytes=cap.toNat := happ.sizeCapBytes.trans hcap₀
  have hrun₂ : WalRun env P [.written e,.acknowledged a] (.up w₂) := by
    have hrun := WalRun.step hrun₁ (hack w₁ (hc₁.bytesWritten.trans hn) hcap₁)
    rwa [hstep₂] at hrun
  have hdis : w₂.onDisk=fileBytes (truncatedRows a [e]) := by
    simp only [← hw₂,WalWriter.onDisk,hc₁.notRenamed,Option.getD_none]
  refine ⟨w₂,hrun₂,?_,?_⟩
  · rw [hdis,length_truncated_of_grows hgro,hn]
  · rw [← hw₂]
    exact hcap₁

theorem wal_run_guarantees_one_row : ∃ w,
    WalRun twoEventEnv (AnchorFits twoEventEnv) [.written startRow,.acknowledged 0] (.up w) ∧
      Guarantees twoEventEnv [.written startRow,.acknowledged 0] w := by
  have hlen := length_startFile
  generalize hn : (fileBytes [startRow]).length=n at hlen
  have hcap : (1048576 : UInt64).toNat=1048576 := rfl
  obtain ⟨w,hrun,-⟩ := oneRowRun twoEventEnv_lawful (fun w => nextEntry_startInput)
    anchorGrows_startRow (AnchorFits twoEventEnv) 1048576 hn (by omega) trivial
    (fun _ => trivial) (fun w hbyt hsiz _ => by omega)
  exact ⟨w,hrun,wal_run_guarantees twoEventEnv twoEventEnv_lawful _ w hrun⟩

/-- A control event that fills the log to its cap: the acknowledgement makes the file exceed the cap. -/
theorem full_log_outgrows_cap :
    ¬ ∀ trace w, WalRun twoEventEnv (fun _ _ => True) trace (.up w) → Guarantees twoEventEnv trace w := by
  intro hall
  have hlen := length_startFile
  generalize hn : (fileBytes [startRow]).length=n at hlen
  have hcap : (UInt64.ofNat n).toNat=n :=
    UInt64.toNat_ofNat_of_lt (lt_of_le_of_lt hlen (by decide))
  obtain ⟨w,hrun,hdis,hsiz⟩ := oneRowRun twoEventEnv_lawful (fun w => nextEntry_startInput)
    anchorGrows_startRow (fun _ _ => True) (UInt64.ofNat n) hn (by omega) trivial
    (fun _ => trivial) (fun _ _ _ => trivial)
  have hwit := (hall _ w hrun).withinCap
  omega

end CastleWall.Audit
