import CastleWall.Audit.Resume

/-! # Truncations called again after a failed write

The progress that a failed write leaves behind has already taken the row it was writing: the anchor out
of its field, a later row off the reader. Calling again never goes back to it. -/

namespace CastleWall.Audit

open Text

def terminatedLines (bytes : List UInt8) : List (List UInt8) := (bytes.splitOn newline).dropLast

def HasRow (bytes : List UInt8) (e : WalEntry) : Prop := utf8Bytes e.text∈terminatedLines bytes

/-- Calls with the same row, at most stopped by their deadlines, until one returns. -/
inductive Retried (env : WalEnv) (a : Nat) : WalWriter → WalWriter → Prop
  | done {w w' : WalWriter} {n : Nat} (deadline : Option Nat) :
      truncateThroughSeqBounded env w a (.pausedAt deadline)=(w',.ok n) → Retried env a w w'
  | again {w w₁ w' : WalWriter} {err : WalError} (deadline : Option Nat) :
      truncateThroughSeqBounded env w a (.pausedAt deadline)=(w₁,.error err) →
      Retried env a w₁ w' → Retried env a w w'

section Lines

theorem length_terminatedLines (bytes : List UInt8) :
    (terminatedLines bytes).length=bytes.count newline := by
  have hspl : (bytes.splitOn newline).length=bytes.count newline+1 := by
    induction bytes with
    | nil => rfl
    | cons b bytes ih =>
      rw [List.splitOn_cons_eq_if_modifyHead,List.count_cons]
      by_cases hb : (b == newline)=true
      · rw [if_pos hb,if_pos hb,List.length_cons,ih]
      · rw [if_neg hb,if_neg hb,List.length_modifyHead,ih,Nat.add_zero]
  rw [terminatedLines,List.length_dropLast,hspl,Nat.add_sub_cancel]

theorem length_le_count_newline {bytes : List UInt8} {rows : List WalEntry}
    (hne : (rows.map WalEntry.text).Nodup) (h : ∀ e∈rows, HasRow bytes e) :
    rows.length ≤ bytes.count newline := by
  have hnod : ((rows.map WalEntry.text).map utf8Bytes).Nodup :=
    hne.map fun s t hst => utf8Bytes_injective hst
  have hsub : (rows.map WalEntry.text).map utf8Bytes ⊆ terminatedLines bytes := by
    intro line hlin
    obtain ⟨text,htex,rfl⟩ := List.mem_map.mp hlin
    obtain ⟨e,he,rfl⟩ := List.mem_map.mp htex
    exact h e he
  have hle := (List.subperm_of_subset hnod hsub).length_le
  rw [List.length_map,List.length_map,length_terminatedLines] at hle
  exact hle

end Lines

section Fault

variable {env : WalEnv} {rows : List WalEntry}

theorem nodup_text_truncated (hlaw : env.Lawful) (hrow : Readable env rows)
    (a : Nat) : ((truncatedRows a rows).map WalEntry.text).Nodup := by
  have hcha := hrow.chained.truncated a
  have hran : ∀ e∈truncatedRows a rows, e.InRange := by
    intro e he
    have hseq := (hcha.accepted e he).seq_lt
    exact ⟨by omega,hrow.captured_truncated a e he⟩
  apply List.pairwise_map.mpr
  apply hcha.increasing.imp_of_mem
  intro x y hx hy hlt htex
  have hrea := hlaw.entry_of_text x (hran x hx)
  rw [htex,hlaw.entry_of_text y (hran y hy)] at hrea
  rw [Except.ok.inj hrea] at hlt
  exact lt_irrefl _ hlt

variable {a : Nat}

private theorem truncateRow_lossy (env : WalEnv) (p : TruncateProgress) {e : WalEntry}
    (round : Round) (hanc : round.anchorWrite=.completes) 
    (hent : round.entryWrite=.completes) (habo : a < e.seq) (htak : p.anchorWritten=true ∨ p.lastAcked=none) :
    ∃ q, truncateRow env a round p e=(q,none) ∧ q.lastAckedSeq=p.lastAckedSeq ∧ q.buffer=p.buffer ∧
      q.validation=p.validation ∧ q.anchorWritten=true ∧
      q.tmp.count newline=p.tmp.count newline+1 := by
  have hens : ∃ r, ensureAnchor env p .completes=(r,none) ∧ r.lastAckedSeq=p.lastAckedSeq ∧
      r.buffer=p.buffer ∧ r.validation=p.validation ∧ r.anchorWritten=true ∧ r.tmp=p.tmp := by
    unfold ensureAnchor
    by_cases hwri : p.anchorWritten=true
    · rw [if_pos hwri]
      exact ⟨p,rfl,rfl,rfl,rfl,hwri,rfl⟩
    · have hnone := htak.resolve_left hwri
      rw [if_neg hwri]
      simp only [writeProgressAnchor,hnone]
      exact ⟨_,rfl,rfl,rfl,rfl,rfl,rfl⟩
  obtain ⟨r,hr,hseq,hbuf,hval,hwri,htmp⟩ := hens
  rw [truncateRow,if_neg (not_le.mpr habo),hanc,hent,hr]
  refine ⟨_,rfl,hseq,hbuf,hval,hwri,?_⟩
  rw [← htmp,← count_newline_row e]
  exact List.count_append

private theorem truncateLoop_lossy (hlaw : env.Lawful) (deadline : Option Nat) (hrow : Readable env rows) :
    ∀ (fuel i : Nat) (file : OpenFile UInt8) (p : TruncateProgress), Lossy env a rows file p →
      (∃ file' q, truncateLoop env a (.pausedAt deadline) fuel i file p=(file',.complete q) ∧
          q.tmp.count newline < (truncatedRows a rows).length) ∨
        (∃ file' q err, truncateLoop env a (.pausedAt deadline) fuel i file p=(file',.held q err) ∧
          Lossy env a rows file' q ∧
          (deadline=none → fuel ≤ (BufReader.stream { file := file, buffer := p.buffer }).length)) := by
  intro fuel
  induction fuel with
  | zero => exact fun i file p hp => Or.inr ⟨file,p,_,rfl,hp,fun _ => Nat.zero_le _⟩
  | succ fuel ih =>
    intro i file p hp
    rw [truncateLoop,if_neg (by simp [TruncateCall.pausedAt,Round.quiet])]
    by_cases hexp : ((TruncateCall.pausedAt deadline).round i).expired=true
    · rw [if_pos hexp]
      refine Or.inr ⟨file,p,_,rfl,hp,fun hnone => ?_⟩
      rw [hnone] at hexp
      exact absurd hexp (by simp [TruncateCall.pausedAt])
    · rw [if_neg hexp]
      obtain ⟨done,rest,rfl,hstr,hval,hseq,hres,htak,hfew⟩ := hp
      cases rest with
      | nil =>
        obtain ⟨reader,hrea,-,-⟩ := BufReader.readLine_end readBlock newline hstr
        rw [hrea]
        left
        by_cases hwri : p.anchorWritten=true
        · simp only [ensureAnchor,if_pos hwri]
          exact ⟨_,_,rfl,hfew⟩
        · have hnone := htak.resolve_left hwri
          simp only [ensureAnchor,if_neg hwri,writeProgressAnchor,hnone]
          exact ⟨_,_,rfl,hfew⟩
      | cons e rest =>
        obtain ⟨reader,hrea,hstr',-⟩ := readLine_row hstr
        have hdec : decodeUtf8 (walRowBytes e.text)=some (lineText e) := by
          rw [← utf8Bytes_lineText,decodeUtf8_utf8Bytes]
        have hvad := hrow.validate hlaw (p.lineNum+1)
        rw [← hval] at hvad
        obtain ⟨b,bs,hcon⟩ := walRowBytes_cons e.text
        have hsho : (fileBytes rest).length < (fileBytes (e::rest)).length := by
          rw [fileBytes,fileBytes,List.flatMap_cons,hcon,List.length_append,List.length_cons]
          omega
        rw [hcon] at hrea hdec
        simp only [hrea,hdec,boundedRow_lineText,hvad]
        obtain ⟨habo,haft⟩ := List.forall_mem_cons.mp hres
        obtain ⟨q,hq,hseq',hbuf,hsta,hwri,hcou⟩ :=
          truncateRow_lossy env
            { p with
              buffer := reader.buffer
              lineNum := p.lineNum+1
              validation := stateAfter env (done++[e]) }
            ((TruncateCall.pausedAt deadline).round i) rfl rfl habo htak
        rw [hq]
        have hres' : BufReader.stream { file := reader.file, buffer := q.buffer } = fileBytes rest := by
          rw [hbuf]
          exact hstr'
        have hlos : Lossy env a (done++e::rest) reader.file q := by
          refine ⟨done++[e],rest,by simp,hres',hsta,hseq'.trans hseq,haft,Or.inl hwri,?_⟩
          have hgai : q.tmp.count newline=p.tmp.count newline+1 := hcou
          rw [List.length_cons] at hfew
          omega
        rcases ih (i+1) reader.file q hlos with hcom | ⟨file',r,err,hhel,hlos',hfue⟩
        · exact Or.inl hcom
        · refine Or.inr ⟨file',r,err,hhel,hlos',fun hnone => ?_⟩
          have hle := hfue hnone
          rw [hres'] at hle
          rw [hstr]
          omega

structure LossyPending (env : WalEnv) (a : Nat) (rows : List WalEntry) (w : WalWriter) : Prop where
  readable : Readable env rows
  unpoisoned : w.poisonedReason=none
  notRenamed : w.renamedOver=none
  noSnapshot : w.pendingSnapshot=none
  pending : ∃ p, w.pendingTruncate=some p ∧ Lossy env a rows w.file p

variable {w : WalWriter}

theorem LossyPending.call (hlaw : env.Lawful)
    (h : LossyPending env a rows w) (deadline : Option Nat) :
    (∃ w' n, truncateThroughSeqBounded env w a (.pausedAt deadline)=(w',.ok n) ∧
        w'.onDisk.count newline < (truncatedRows a rows).length) ∨
      (deadline≠none ∧ ∃ w' err, truncateThroughSeqBounded env w a (.pausedAt deadline) =
        (w',.error err) ∧ LossyPending env a rows w') := by
  obtain ⟨p,hpen,hlos⟩ := h.pending
  have hseq : p.lastAckedSeq=a := by
    obtain ⟨-,-,-,-,-,hseq,-⟩ := hlos
    exact hseq
  have hres : resumeTruncate w a (.pausedAt deadline)=.ok (w.file,p) := by
    simp only [resumeTruncate,hpen,hseq,ne_eq,not_true,if_false]
  have hshu : (TruncateCall.pausedAt deadline).shutdown=false := rfl
  simp only [truncateThroughSeqBounded,h.unpoisoned,h.noSnapshot,hshu,hres,
    Bool.false_eq_true,if_false]
  rcases truncateLoop_lossy hlaw deadline h.readable (w.file.bytes.length+p.buffer.length+1) 0 w.file
    p hlos with ⟨file',q,hloo,hfew⟩ | ⟨file',q,err,hloo,hlos',hfue⟩
  · left
    rw [hloo]
    refine ⟨_,_,rfl,?_⟩
    simp only [WalWriter.onDisk,h.notRenamed,Option.getD_none]
    exact hfew
  · right
    rw [hloo]
    refine ⟨fun hnone => ?_,_,err,rfl,
      ⟨h.readable,rfl,h.notRenamed,rfl,q,rfl,hlos'⟩⟩
    have hle := hfue hnone
    simp only [BufReader.stream,List.length_append,List.length_drop] at hle
    omega

theorem LossyPending.retried (hlaw : env.Lawful) {w' : WalWriter}
    (h : LossyPending env a rows w) (hret : Retried env a w w') :
    w'.onDisk.count newline < (truncatedRows a rows).length := by
  induction hret with
  | done deadline hcal =>
    rcases h.call hlaw deadline with ⟨w₁,n,hok,hfew⟩ | ⟨-,w₁,err,herr,-⟩
    · obtain ⟨rfl,-⟩ := Prod.mk.inj (hok.symm.trans hcal)
      exact hfew
    · exact absurd (Prod.mk.inj (herr.symm.trans hcal)).2 (by simp)
  | again deadline hcal _ ih =>
    rcases h.call hlaw deadline with ⟨w₁,n,hok,-⟩ | ⟨-,w₁,err,herr,hlos⟩
    · exact absurd (Prod.mk.inj (hok.symm.trans hcal)).2 (by simp)
    · obtain ⟨rfl,-⟩ := Prod.mk.inj (herr.symm.trans hcal)
      exact ih hlos

/-- A call that met no fault but a failed write leaves a loss pending. -/
theorem lossyPending_of_writeFailed (hlaw : env.Lawful) {s : Drain}
    (h : Ready env s rows) (hcle : s.spoiled=false) {call : TruncateCall}
    {err : WalError} (hsta : call.start=none) (hsyn : call.sync=none)
    (hcal : truncateThroughSeqBounded env s.writer a call=(w,.error err))
    (hwri : writeFailed err=true) : LossyPending env a rows w := by
  have hoth : ∀ {w' : WalWriter} {err' : WalError},
      (w',(.error err' : Except WalError Nat))=(w,.error err) → writeFailed err'=true := by
    intro w' err' heq
    rw [Except.error.inj (Prod.mk.inj heq).2]
    exact hwri
  unfold truncateThroughSeqBounded at hcal
  split at hcal
  · exact absurd (hoth hcal) (by simp [writeFailed])
  · exact absurd (hoth hcal) (by simp [writeFailed])
  · rename_i hunp hsna
    split_ifs at hcal with hshu
    · exact absurd (hoth hcal) (by simp [writeFailed])
    · split at hcal
      · rename_i err' hres
        have hfai := hoth hcal
        unfold resumeTruncate at hres
        split at hres
        · split_ifs at hres
          rw [← Except.error.inj hres] at hfai
          exact absurd hfai (by simp [writeFailed])
        · rw [hsta] at hres
          exact absurd hres (by simp)
      · rename_i file p hres
        obtain ⟨-,hat⟩ := resumeTruncate_atRow h hcle hres
        obtain ⟨-,hsto,-⟩ := truncateLoop_cases hlaw a call h.consistent.readable
          (file.bytes.length+p.buffer.length+1) 0 file p hat
        generalize truncateLoop env a call (file.bytes.length+p.buffer.length+1) 0 file p=result
          at hcal hsto
        obtain ⟨file',stop⟩ := result
        cases stop with
        | complete q =>
          -- With the replacement file synced, only the renaming and what comes after it can fail.
          simp only [commitTruncate,hsyn] at hcal
          split_ifs at hcal
          · exact absurd (hoth hcal) (by simp [writeFailed])
          · split at hcal
            · exact absurd (hoth hcal) (by simp [writeFailed])
            · exact absurd (hoth hcal) (by simp [writeFailed,WalWriter.poison])
            · exact absurd (hoth hcal) (by simp [writeFailed,WalWriter.poison])
            · exact absurd (Prod.mk.inj hcal).2 (by simp)
        | held q err' =>
          rw [StopsSoundly,if_pos (hoth hcal)] at hsto
          obtain ⟨rfl,-⟩ := Prod.mk.inj hcal
          exact ⟨h.consistent.readable,hunp,h.consistent.notRenamed,hsna,q,rfl,hsto⟩
        | abandoned err' => exact absurd (hsto.symm.trans (hoth hcal)) (by simp)

/-- When a write to the replacement file fails, calling the truncation again ends in a commit, and every
commit it can end in lacks the anchor or one of the later rows. -/
theorem retried_truncation_loses_row (env : WalEnv) (hlaw : env.Lawful) (s : Drain) (a : Nat)
    (call : TruncateCall) (w : WalWriter) (err : WalError) (hrun : DrainRun env (Undisturbed env) s)
    (hclean : s.spoiled=false) (hstart : call.start=none) (hsync : call.sync=none)
    (hcall : truncateThroughSeqBounded env s.writer a call=(w,.error err))
    (hwrite : writeFailed err=true) :
    (∃ w', Retried env a w w') ∧ ∀ w', Retried env a w w' →
      ¬ ∀ e∈truncatedRows a (rowsOf env s.writer), HasRow w'.onDisk e := by
  rcases drainInv_run hlaw hrun with hpoi | ⟨rows,h⟩
  · obtain ⟨reason,hrea⟩ := Option.ne_none_iff_exists'.mp hpoi
    simp only [truncateThroughSeqBounded,hrea] at hcall
    rw [← Except.error.inj (Prod.mk.inj hcall).2] at hwrite
    exact absurd hwrite (by simp [writeFailed])
  · have hlos := lossyPending_of_writeFailed hlaw h hclean hstart hsync hcall hwrite
    rw [rowsOf_consistent hlaw h.consistent]
    constructor
    · rcases hlos.call hlaw none with ⟨w',n,hok,-⟩ | ⟨hne,-⟩
      · exact ⟨w',.done none hok⟩
      · exact absurd rfl hne
    · intro w' hret hall
      have hfew := hlos.retried hlaw hret
      exact absurd (length_le_count_newline (nodup_text_truncated hlaw hlos.readable a) hall)
        (not_le.mpr hfew)

def anchorFault (err : String) : TruncateCall :=
  { TruncateCall.pausedAt none with round := fun _ => { Round.quiet with anchorWrite := .fails 0 err } }

private theorem anchorFault_error (hlaw : env.Lawful) {e : WalEntry}
    (hw : Consistent env w [e]) (hsna : w.pendingSnapshot=none) (hpen : w.pendingTruncate=none)
    (hseq : e.seq ≤ a) (hfre : e.ackedAnchor=false) (err : String) :
    ∃ w', truncateThroughSeqBounded env w a (anchorFault err)=(w',.error (.io .tmp err)) := by
  have hstr : BufReader.stream { file := w.file.seekStart, buffer := [] } = fileBytes [e] := hw.bytes
  obtain ⟨reader,hrea,hret,-⟩ := readLine_row hstr
  obtain ⟨reader',hend,-⟩ := BufReader.readLine_end readBlock newline hret
  have hdec : decodeUtf8 (walRowBytes e.text)=some (lineText e) := by
    rw [← utf8Bytes_lineText,decodeUtf8_utf8Bytes]
  have hval : validateWalLine env e.text 1 WalValidationState.default=.ok (e,stateAfter env [e]) := by
    have hrow : Readable env ([]++e::[]) := hw.readable
    exact hrow.validate hlaw 1
  obtain ⟨b,bs,hcon⟩ := walRowBytes_cons e.text
  obtain ⟨n,hfue⟩ : ∃ n, w.file.seekStart.bytes.length+(startProgress a).buffer.length+1=n+2 := by
    refine ⟨bs.length,?_⟩
    have hbyt : w.file.seekStart.bytes=b::bs := by
      rw [← hcon,← fileBytes_singleton]
      exact hw.bytes
    rw [hbyt,List.length_cons]
    rfl
  have hres : resumeTruncate w a (anchorFault err)=.ok (w.file.seekStart,startProgress a) := by
    simp only [resumeTruncate,hpen]
    rfl
  have hcou : checkedAdd 0 1=some 1 := by decide
  have hshu : (anchorFault err).shutdown=false := rfl
  have hrou : ∀ i, (anchorFault err).round i = { Round.quiet with anchorWrite := .fails 0 err } :=
    fun _ => rfl
  rw [hcon] at hrea hdec
  simp only [truncateThroughSeqBounded,hw.unpoisoned,hsna,hshu,hres,hfue,
    Bool.false_eq_true,if_false]
  rw [startProgress]
  simp only [truncateLoop,hrou,Round.quiet,Bool.false_eq_true,if_false,hrea,hdec,
    boundedRow_lineText,Nat.zero_add,hval,truncateRow,hseq,if_true,hfre,hcou,hend,
    ensureAnchor,writeProgressAnchor,writeProgressEntry]
  exact ⟨_,rfl⟩

end Fault

private theorem openedStart : ∃ w, DrainRun twoEventEnv (Undisturbed twoEventEnv)
    { writer := w, spoiled := false } ∧ Consistent twoEventEnv w [startRow] ∧
    w.pendingSnapshot=none ∧ w.pendingTruncate=none := by
  have hlaw := twoEventEnv_lawful
  rcases openWithCap_readable hlaw readable_startRow (UInt64.toNat_lt 1048576) with
    ⟨hlt,-⟩ | ⟨-,w,hope,hw,-,hsna,hpen⟩
  · exact absurd length_startRow_cap (not_le.mpr hlt)
  · refine ⟨w,.start ?_ hope,hw,hsna,hpen⟩
    intro bytes hbyt
    exact ⟨[startRow],readable_startRow,(Option.some.inj hbyt).symm⟩

/-- The anchor of the only row is lost when its first write fails. -/
theorem retried_truncation_loses_start_row : ∃ (s : Drain) (w : WalWriter) (err : WalError),
    truncateThroughSeqBounded twoEventEnv s.writer 0 (anchorFault "No space left on device") =
        (w,.error err) ∧ writeFailed err=true ∧ rowsOf twoEventEnv s.writer=[startRow] ∧
      (∃ w', Retried twoEventEnv 0 w w') ∧ ∀ w', Retried twoEventEnv 0 w w' →
        ¬ ∀ e∈truncatedRows 0 (rowsOf twoEventEnv s.writer), HasRow w'.onDisk e := by
  have hlaw := twoEventEnv_lawful
  obtain ⟨w,hrun,hw,hsna,hpen⟩ := openedStart
  obtain ⟨w',hcal⟩ := anchorFault_error hlaw hw hsna hpen (a := 0) (Nat.le_refl 0) rfl
    "No space left on device"
  have hlos := retried_truncation_loses_row twoEventEnv hlaw { writer := w, spoiled := false } 0
    (anchorFault "No space left on device") w' (.io .tmp "No space left on device") hrun rfl rfl rfl hcal rfl
  exact ⟨{ writer := w, spoiled := false },w',.io .tmp "No space left on device",hcal,rfl,
    rowsOf_consistent hlaw hw,hlos⟩

/-- A log of one row: the write of its anchor fails, the call is made again and returns, and the anchor is
not in the file. -/
theorem anchor_lost_after_retry : ¬ ∀ s a call w err w', DrainRun twoEventEnv (Undisturbed twoEventEnv) s →
    s.spoiled=false → call.start=none → call.sync=none →
    truncateThroughSeqBounded twoEventEnv s.writer a call=(w,.error err) → writeFailed err=true →
    Retried twoEventEnv a w w' → ∀ e∈truncatedRows a (rowsOf twoEventEnv s.writer), HasRow w'.onDisk e := by
  intro hall
  have hlaw := twoEventEnv_lawful
  obtain ⟨w,hrun,hw,hsna,hpen⟩ := openedStart
  obtain ⟨w₁,hcal⟩ := anchorFault_error hlaw hw hsna hpen (a := 0) (Nat.le_refl 0) rfl
    "No space left on device"
  have hrea : Ready twoEventEnv { writer := w, spoiled := false } [startRow] := by
    refine ⟨hw,fun hne => absurd hpen hne,by simp,?_⟩
    intro _ p hp
    exact absurd (hpen.symm.trans hp) (by simp)
  have hlos := lossyPending_of_writeFailed hlaw hrea rfl rfl rfl hcal rfl
  rcases hlos.call hlaw none with ⟨w',n,hok,hfew⟩ | ⟨hne,-⟩
  · have hrow := hall { writer := w, spoiled := false } 0 (anchorFault "No space left on device") w₁
      (.io .tmp "No space left on device") w' hrun rfl rfl rfl hcal rfl (.done none hok)
    rw [rowsOf_consistent hlaw hw] at hrow
    exact absurd (length_le_count_newline (nodup_text_truncated hlaw hlos.readable 0) hrow)
      (not_le.mpr hfew)
  · exact absurd rfl hne

end CastleWall.Audit
