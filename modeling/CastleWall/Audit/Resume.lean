import CastleWall.Audit.Bounded
import CastleWall.Audit.Run

/-! # Truncations that stop and go on

A truncation that stops between rows goes on where it stopped as long as nothing has moved the cursor it
shares with the writer. -/

namespace CastleWall.Audit

open Text

section Progress

variable {env : WalEnv}

theorem boundedRow_lineText (e : WalEntry) : boundedRow (lineText e)=e.text := by
  have hstr : stripCr e.text.toList=e.text.toList := by
    unfold stripCr
    rw [if_neg]
    intro hlas
    exact (text_no_break e).2 (List.mem_of_getLast? hlas)
  simp only [boundedRow,lineText,String.toList_ofList,List.getLast?_concat,if_true,
    List.dropLast_concat,hstr,String.ofList_toList]

structure Holds (env : WalEnv) (rows : List WalEntry) (p : TruncateProgress) : Prop where
  tmp : p.tmp=fileBytes rows
  newBytes : p.newBytes=min (fileBytes rows).length (2 ^ 64 - 1)
  newChainHash : p.newChainHash=(stateAfter env rows).lastChainHash

variable {rows done : List WalEntry} {p : TruncateProgress}

theorem Holds.write (h : Holds env rows p) (e : WalEntry) :
    Holds env (rows++[e]) (writeProgressEntry env p e .completes).1 where
  tmp := by
    rw [fileBytes_append,fileBytes_singleton,← h.tmp]
    rfl
  newBytes := by
    have hcou : (writeProgressEntry env p e .completes).1.newBytes =
        min (p.newBytes+(walRowBytes e.text).length) (2 ^ 64 - 1) := rfl
    rw [hcou,h.newBytes,fileBytes_append,fileBytes_singleton,List.length_append]
    omega
  newChainHash := by
    simp only [writeProgressEntry,stateAfter,List.getLast?_concat,Option.map_some]

structure Progress (env : WalEnv) (a : Nat) (done : List WalEntry) (p : TruncateProgress) : Prop where
  seq : p.lastAckedSeq=a
  dropped : p.newlyDropped=((ackedRows a done).filter fun e => !e.ackedAnchor).length
  copied : p.anchorWritten=true → keptRows a done≠[] ∧ Holds env (truncatedRows a done) p
  untouched : p.anchorWritten=false →
    keptRows a done=[] ∧ p.lastAcked=(ackedRows a done).getLast? ∧ Holds env [] p

variable {a : Nat}

/-- What a truncation has done does not depend on the state of its reader. -/
theorem Progress.reader
    (h : Progress env a done p) (buffer : List UInt8) (lineNum : Nat) (validation : WalValidationState) :
    Progress env a done { p with buffer := buffer, lineNum := lineNum, validation := validation } where
  seq := h.seq
  dropped := h.dropped
  copied := fun hwri =>
    let ⟨hkep,hhol⟩ := h.copied hwri
    ⟨hkep,⟨hhol.tmp,hhol.newBytes,hhol.newChainHash⟩⟩
  untouched := fun hwri =>
    let ⟨hkep,hlas,hhol⟩ := h.untouched hwri
    ⟨hkep,hlas,⟨hhol.tmp,hhol.newBytes,hhol.newChainHash⟩⟩

/-- Fields that only the reading of rows changes. -/
structure SameReader (p q : TruncateProgress) : Prop where
  seq : q.lastAckedSeq=p.lastAckedSeq
  buffer : q.buffer=p.buffer
  validation : q.validation=p.validation
  dropped : q.newlyDropped=p.newlyDropped

theorem SameReader.trans {q r : TruncateProgress} (h : SameReader p q) (h' : SameReader q r) :
    SameReader p r where
  seq := h'.seq.trans h.seq
  buffer := h'.buffer.trans h.buffer
  validation := h'.validation.trans h.validation
  dropped := h'.dropped.trans h.dropped

def writeFailed : WalError → Bool
  | .io .tmp _ => true
  | _ => false

theorem count_newline_row (e : WalEntry) : (walRowBytes e.text).count newline=1 := by
  have hlin : newline∉utf8Bytes e.text := newline_not_mem_utf8Bytes (text_no_break e).1
  rw [walRowBytes,List.count_append,List.count_eq_zero.mpr hlin]
  rfl

theorem count_newline_fileBytes (rows : List WalEntry) : (fileBytes rows).count newline=rows.length := by
  induction rows with
  | nil => rfl
  | cons e rows ih =>
    rw [← List.singleton_append,fileBytes_append,fileBytes_singleton,List.count_append,ih,
      count_newline_row,List.length_append,List.length_singleton]

private theorem count_newline_partial (e : WalEntry) (written : Nat) :
    ((walRowBytes e.text).dropLast.take written).count newline=0 := by
  have hlin : newline∉utf8Bytes e.text := newline_not_mem_utf8Bytes (text_no_break e).1
  rw [walRowBytes,List.dropLast_concat]
  exact List.count_eq_zero.mpr fun hmem => hlin (List.mem_of_mem_take hmem)

/-- After a failed write the replacement file misses one of the rows dealt with, and nothing is left of
it to write. -/
structure Lost (a : Nat) (done : List WalEntry) (p q : TruncateProgress) : Prop where
  reader : SameReader p q
  taken : q.anchorWritten=true ∨ q.lastAcked=none
  fewer : q.tmp.count newline < (truncatedRows a done).length

theorem writeProgressEntry_cases (h : Holds env rows p)
    (e : WalEntry) (fate : WriteFate) :
    (∃ q err, writeProgressEntry env p e fate=(q,some err) ∧ writeFailed err=true ∧
        fate≠.completes ∧ SameReader p q ∧ q.anchorWritten=p.anchorWritten ∧
        q.lastAcked=p.lastAcked ∧ q.tmp.count newline=rows.length) ∨
      ∃ q, writeProgressEntry env p e fate=(q,none) ∧ Holds env (rows++[e]) q ∧ SameReader p q ∧
        q.anchorWritten=p.anchorWritten := by
  cases fate with
  | fails written err =>
    refine Or.inl ⟨_,_,rfl,rfl,by simp,⟨rfl,rfl,rfl,rfl⟩,rfl,rfl,?_⟩
    rw [List.count_append,h.tmp,count_newline_fileBytes, count_newline_partial,Nat.add_zero]
  | completes => exact Or.inr ⟨_,rfl,h.write e,⟨rfl,rfl,rfl,rfl⟩,rfl⟩

theorem ensureAnchor_cases
    (h : Progress env a done p) (fate : WriteFate) :
    (∃ q err, ensureAnchor env p fate=(q,some err) ∧ writeFailed err=true ∧ fate≠.completes ∧
        Lost a done p q) ∨
      ∃ q, ensureAnchor env p fate=(q,none) ∧ Holds env (truncatedRows a done) q ∧
        SameReader p q ∧ q.anchorWritten=true := by
  unfold ensureAnchor
  cases hwri : p.anchorWritten with
  | true => exact Or.inr ⟨p,rfl,(h.copied hwri).2,⟨rfl,rfl,rfl,rfl⟩,hwri⟩
  | false =>
    obtain ⟨hkep,hlas,hemp⟩ := h.untouched hwri
    have hrow : truncatedRows a done=(p.lastAcked.map anchored).toList := by
      rw [truncatedRows,hkep,hlas,List.append_nil]
    rw [if_neg (by simp),hrow]
    unfold writeProgressAnchor
    cases hanc : p.lastAcked with
    | none => exact Or.inr ⟨_,rfl,⟨hemp.tmp,hemp.newBytes,hemp.newChainHash⟩,
        ⟨rfl,rfl,rfl,rfl⟩,rfl⟩
    | some anchor =>
      have htak : Holds env [] { p with lastAcked := none } :=
        ⟨hemp.tmp,hemp.newBytes,hemp.newChainHash⟩
      simp only
      rcases writeProgressEntry_cases htak { anchor with ackedAnchor := true } fate with
        ⟨q,err,hq,herr,hfat,hsam,-,hlas,hcou⟩ | ⟨q,hq,hhol,hsam,-⟩
      · rw [hq]
        refine Or.inl ⟨q,err,rfl,herr,hfat,⟨?_,Or.inr hlas,?_⟩⟩
        · exact ⟨hsam.seq,hsam.buffer,hsam.validation,hsam.dropped⟩
        · rw [hrow,hanc,hcou]
          exact Nat.zero_lt_one
      · rw [hq]
        refine Or.inr ⟨_,rfl,⟨hhol.tmp,hhol.newBytes,hhol.newChainHash⟩,?_,rfl⟩
        exact ⟨hsam.seq,hsam.buffer,hsam.validation,hsam.dropped⟩

private theorem kept_nil_of_acked {e : WalEntry}
    (h : (done++[e]).Pairwise fun x y => x.seq < y.seq) (he : e.seq ≤ a) : keptRows a done=[] := by
  apply List.filter_eq_nil_iff.mpr
  intro x hx
  have hlt := (List.pairwise_append.mp h).2.2 x hx e (by simp)
  simp only [decide_eq_true_iff]
  omega

theorem truncateRow_cases {e : WalEntry}
    (h : Progress env a done p) (hord : (done++[e]).Pairwise fun x y => x.seq < y.seq)
    (hcou : done.length+1 < 2 ^ 64) (round : Round) :
    (∃ q err, truncateRow env a round p e=(q,some err) ∧ writeFailed err=true ∧
        round≠.quiet ∧ a < e.seq ∧ Lost a (done++[e]) p q) ∨
      ∃ q, truncateRow env a round p e=(q,none) ∧ Progress env a (done++[e]) q ∧
        q.buffer=p.buffer ∧ q.validation=p.validation := by
  unfold truncateRow
  by_cases hack : e.seq ≤ a
  · right
    rw [if_pos hack]
    have hkep := kept_nil_of_acked hord hack
    have hacs : ackedRows a (done++[e])=ackedRows a done++[e] := by
      rw [ackedRows,List.filter_append,List.filter_cons_of_pos (by simpa using hack),List.filter_nil,
        ackedRows]
    have hkee : keptRows a (done++[e])=[] := by
      rw [keptRows,List.filter_append,List.filter_cons_of_neg (by simpa using hack),List.filter_nil,
        List.append_nil]
      exact hkep
    have hwri : p.anchorWritten=false := by
      cases hwri : p.anchorWritten with
      | false => rfl
      | true => exact absurd hkep (h.copied hwri).1
    obtain ⟨-,-,hemp⟩ := h.untouched hwri
    have hlas : some e=(ackedRows a (done++[e])).getLast? := by
      rw [hacs,List.getLast?_concat]
    cases hanc : e.ackedAnchor with
    | true =>
      refine ⟨_,rfl,⟨h.seq,?_,?_,?_⟩,rfl,rfl⟩
      · rw [hacs,List.filter_append,List.filter_cons_of_neg (by simp [hanc]),List.filter_nil,
          List.append_nil]
        exact h.dropped
      · intro hw
        exact absurd (hwri.symm.trans hw) (by simp)
      · exact fun _ => ⟨hkee,hlas,⟨hemp.tmp,hemp.newBytes,hemp.newChainHash⟩⟩
    | false =>
      have hle : ((ackedRows a done).filter fun e => !e.ackedAnchor).length ≤ done.length :=
        (List.length_filter_le _ _).trans (List.length_filter_le _ _)
      have hdro := h.dropped
      have hadd : checkedAdd p.newlyDropped 1=some (p.newlyDropped+1) := by
        unfold checkedAdd
        rw [if_pos (by omega)]
      simp only [hadd,Bool.false_eq_true,if_false]
      refine ⟨_,rfl,⟨h.seq,?_,?_,?_⟩,rfl,rfl⟩
      · rw [hacs,List.filter_append,List.filter_cons_of_pos (by simp [hanc]),List.filter_nil,
          List.length_append,List.length_singleton]
        exact congrArg (· + 1) hdro
      · intro hw
        exact absurd (hwri.symm.trans hw) (by simp)
      · exact fun _ => ⟨hkee,hlas,⟨hemp.tmp,hemp.newBytes,hemp.newChainHash⟩⟩
  · rw [if_neg hack]
    have hacs : ackedRows a (done++[e])=ackedRows a done := by
      rw [ackedRows,List.filter_append,List.filter_cons_of_neg (by simpa using hack),List.filter_nil,
        List.append_nil,ackedRows]
    have hkee : keptRows a (done++[e])=keptRows a done++[e] := by
      rw [keptRows,List.filter_append,List.filter_cons_of_pos (by simpa using hack),List.filter_nil,
        keptRows]
    have hrow : truncatedRows a (done++[e])=truncatedRows a done++[e] := by
      rw [truncatedRows,hacs,hkee,truncatedRows,List.append_assoc]
    rcases ensureAnchor_cases h round.anchorWrite with
      ⟨q,err,hq,herr,hfat,hlos⟩ | ⟨q,hq,hhol,hsam,hwri⟩
    · rw [hq]
      refine Or.inl ⟨q,err,rfl,herr,fun hqui => hfat (congrArg Round.anchorWrite hqui),
        not_le.mp hack,⟨hlos.reader,hlos.taken,?_⟩⟩
      rw [hrow,List.length_append]
      exact hlos.fewer.trans_le (Nat.le_add_right _ _)
    · rw [hq]
      simp only
      rcases writeProgressEntry_cases hhol e round.entryWrite with
        ⟨r,err,hr,herr,hfat,hsam',hwri',-,hcou⟩ | ⟨r,hr,hhol',hsam',hwri'⟩
      · rw [hr]
        refine Or.inl ⟨r,err,rfl,herr,fun hqui => hfat (congrArg Round.entryWrite hqui),
          not_le.mp hack,⟨hsam.trans hsam',Or.inl (hwri'.trans hwri),?_⟩⟩
        rw [hrow,hcou,List.length_append,List.length_singleton]
        exact Nat.lt_succ_self _
      · rw [hr]
        have hsam'' := hsam.trans hsam'
        refine Or.inr ⟨r,rfl,⟨?_,?_,?_,?_⟩,hsam''.buffer,hsam''.validation⟩
        · exact hsam''.seq.trans h.seq
        · rw [hacs]
          exact hsam''.dropped.trans h.dropped
        · intro _
          rw [hkee,hrow]
          exact ⟨by simp,hhol'⟩
        · intro hw
          exact absurd (hw.symm.trans (hwri'.trans hwri)) (by simp)

/-- The reader stands at a row boundary and the truncation has dealt with the rows before it. -/
def AtRow (env : WalEnv) (a : Nat) (rows : List WalEntry) (file : OpenFile UInt8)
    (p : TruncateProgress) : Prop :=
  ∃ done rest, rows=done++rest ∧ BufReader.stream { file := file, buffer := p.buffer } = fileBytes rest ∧
    p.validation=stateAfter env done ∧ Progress env a done p

/-- The reader stands at a row boundary behind the acknowledged rows, and with every row not yet read the
replacement file would still have too few. -/
def Lossy (env : WalEnv) (a : Nat) (rows : List WalEntry) (file : OpenFile UInt8)
    (p : TruncateProgress) : Prop :=
  ∃ done rest, rows=done++rest ∧ BufReader.stream { file := file, buffer := p.buffer } = fileBytes rest ∧
    p.validation=stateAfter env done ∧ p.lastAckedSeq=a ∧ (∀ e∈rest, a < e.seq) ∧
    (p.anchorWritten=true ∨ p.lastAcked=none) ∧
    p.tmp.count newline+rest.length < (truncatedRows a rows).length

private theorem truncatedRows_append_kept (done : List WalEntry) {rest : List WalEntry}
    (h : ∀ e∈rest, a < e.seq) : truncatedRows a (done++rest)=truncatedRows a done++rest := by
  have hack : ackedRows a rest=[] :=
    List.filter_eq_nil_iff.mpr fun e he => by simpa using h e he
  rw [truncatedRows,truncatedRows,ackedRows,keptRows,List.filter_append,List.filter_append,
    ← ackedRows,← keptRows,← ackedRows,← keptRows,hack,keptRows_eq_self h,List.append_nil,
    List.append_assoc]

private theorem lossy_of_lost {rest : List WalEntry} {file : OpenFile UInt8}
    {q : TruncateProgress} (h : Lost a done p q)
    (hstr : BufReader.stream { file := file, buffer := p.buffer } = fileBytes rest)
    (hval : p.validation=stateAfter env done) (hseq : p.lastAckedSeq=a)
    (hres : ∀ e∈rest, a < e.seq) : Lossy env a (done++rest) file q := by
  refine ⟨done,rest,rfl,?_,h.reader.validation.trans hval,h.reader.seq.trans hseq,hres,
    h.taken,?_⟩
  · rw [h.reader.buffer]
    exact hstr
  · rw [truncatedRows_append_kept done hres,List.length_append]
    exact Nat.add_lt_add_right h.fewer _

structure Finished (env : WalEnv) (a : Nat) (rows : List WalEntry) (p : TruncateProgress) : Prop where
  holds : Holds env (truncatedRows a rows) p
  dropped : p.newlyDropped=((ackedRows a rows).filter fun e => !e.ackedAnchor).length

def StopsSoundly (env : WalEnv) (a : Nat) (rows : List WalEntry) (file : OpenFile UInt8) :
    Stop TruncateProgress → Prop
  | .complete p => Finished env a rows p
  | .held p err => if writeFailed err then Lossy env a rows file p else AtRow env a rows file p
  | .abandoned err => writeFailed err=false

/-- The loop stops at a row boundary, after a failed write or with every row dealt with; when nothing
disturbs it, it gets to the end. -/
theorem truncateLoop_cases (hlaw : env.Lawful) (a : Nat) (call : TruncateCall)
    (hrow : Readable env rows) :
    ∀ (fuel i : Nat) (file : OpenFile UInt8) (p : TruncateProgress), AtRow env a rows file p →
      (truncateLoop env a call fuel i file p).1.bytes=file.bytes ∧
        StopsSoundly env a rows (truncateLoop env a call fuel i file p).1
          (truncateLoop env a call fuel i file p).2 ∧
        ((∀ i, call.round i=.quiet) →
          (BufReader.stream { file := file, buffer := p.buffer }).length < fuel →
          ∃ q, (truncateLoop env a call fuel i file p).2=.complete q) := by
  intro fuel
  induction fuel with
  | zero => exact fun i file p hp => ⟨rfl,hp,fun _ hfue => absurd hfue (Nat.not_lt_zero _)⟩
  | succ fuel ih =>
    intro i file p hp
    rw [truncateLoop]
    split_ifs with hshu hexp
    · refine ⟨rfl,rfl,fun hqui => ?_⟩
      rw [hqui i] at hshu
      exact absurd hshu (by decide)
    · refine ⟨rfl,hp,fun hqui => ?_⟩
      rw [hqui i] at hexp
      exact absurd hexp (by decide)
    · obtain ⟨done,rest,rfl,hstr,hval,hpro⟩ := hp
      cases rest with
      | nil =>
        obtain ⟨reader,hrea,hend,hbyt⟩ := BufReader.readLine_end readBlock newline hstr
        have hmov := hpro.reader reader.buffer p.lineNum p.validation
        rw [hrea]
        simp only
        rcases ensureAnchor_cases hmov (call.round i).anchorWrite with
          ⟨q,err,hq,herr,hfat,hlos⟩ | ⟨q,hq,hhol,hsam,-⟩
        · rw [hq]
          refine ⟨hbyt,?_,fun hqui => absurd (congrArg Round.anchorWrite (hqui i)) hfat⟩
          rw [StopsSoundly,if_pos herr]
          exact lossy_of_lost hlos hend hval hmov.seq (by simp)
        · rw [hq,List.append_nil]
          exact ⟨hbyt,⟨hhol,hsam.dropped.trans hpro.dropped⟩,fun _ _ => ⟨q,rfl⟩⟩
      | cons e rest =>
        obtain ⟨reader,hrea,hstr',hbyt⟩ := readLine_row hstr
        have hdec : decodeUtf8 (walRowBytes e.text)=some (lineText e) := by
          rw [← utf8Bytes_lineText,decodeUtf8_utf8Bytes]
        have hvad := hrow.validate hlaw (p.lineNum+1)
        rw [← hval] at hvad
        obtain ⟨b,bs,hcon⟩ := walRowBytes_cons e.text
        have hsho : (fileBytes rest).length < (fileBytes (e::rest)).length := by
          rw [fileBytes,fileBytes,List.flatMap_cons,hcon,List.length_append,List.length_cons]
          omega
        rw [hcon] at hrea hdec
        simp only [hrea,hdec,boundedRow_lineText,hvad]
        have hlen := length_le_fileBytes (done++e::rest)
        have hsiz := hrow.size
        rw [List.length_append,List.length_cons] at hlen
        have hord := hrow.chained.increasing
        rw [← List.singleton_append,← List.append_assoc] at hord
        rcases truncateRow_cases (hpro.reader reader.buffer (p.lineNum+1)
            (stateAfter env (done++[e]))) (List.pairwise_append.mp hord).1 (by omega)
            (call.round i) with ⟨q,err,hq,herr,hrou,habo,hlos⟩ | ⟨q,hq,hnex,hbuf,hsta⟩
        · rw [hq]
          refine ⟨hbyt,?_,fun hqui => absurd (hqui i) hrou⟩
          rw [StopsSoundly,if_pos herr,← List.singleton_append,← List.append_assoc]
          refine lossy_of_lost hlos hstr' rfl hpro.seq (fun x hx => ?_)
          exact habo.trans ((List.pairwise_append.mp hord).2.2 e (by simp) x hx)
        · rw [hq]
          have hres : BufReader.stream { file := reader.file, buffer := q.buffer } = fileBytes rest := by
            rw [hbuf]
            exact hstr'
          have hat : AtRow env a (done++e::rest) reader.file q :=
            ⟨done++[e],rest,by simp,hres,hsta,hnex⟩
          obtain ⟨hfil,hsto,hcom⟩ := ih (i+1) reader.file q hat
          refine ⟨hfil.trans hbyt,hsto,fun hqui hfue => hcom hqui ?_⟩
          rw [hstr] at hfue
          rw [hres]
          omega

/-- Replacing the log by the truncated rows, when it is not called off, poisons the writer or keeps the
invariant. -/
theorem commitTruncate_cases {w : WalWriter} (hw : Consistent env w rows) (hp : Finished env a rows p)
    (hsiz : (fileBytes (truncatedRows a rows)).length < 2 ^ 64) (call : TruncateCall) :
    (∃ err, commitTruncate w p call=(w,.error err)) ∨
      ((commitTruncate w p call).1.poisonedReason≠none ∧
        ∃ err, (commitTruncate w p call).2=.error err) ∨
      ((commitTruncate w p call).2=.ok p.newlyDropped ∧
        Consistent env (commitTruncate w p call).1 (truncatedRows a rows) ∧
        (commitTruncate w p call).1.pendingTruncate=w.pendingTruncate) := by
  have hcou : p.newBytes=(fileBytes (truncatedRows a rows)).length := by
    rw [hp.holds.newBytes]
    omega
  unfold commitTruncate
  split
  · exact Or.inl ⟨_,rfl⟩
  · split_ifs
    · exact Or.inl ⟨_,rfl⟩
    · split
      · exact Or.inl ⟨_,rfl⟩
      · exact Or.inr (Or.inl ⟨by simp [WalWriter.poison],_,rfl⟩)
      · exact Or.inr (Or.inl ⟨by simp [WalWriter.poison],_,rfl⟩)
      · refine Or.inr (Or.inr ⟨rfl,?_,rfl⟩)
        rw [hcou,hp.holds.tmp,hp.holds.newChainHash]
        exact hw.truncated hsiz rfl w.pendingTruncate

private theorem snapshotLoop_bytes (env : WalEnv) (call : SnapshotCall) :
    ∀ (fuel i : Nat) (file : OpenFile UInt8) (p : SnapshotProgress),
      (snapshotLoop env call fuel i file p).1.bytes=file.bytes := by
  intro fuel
  induction fuel with
  | zero => exact fun _ _ _ => rfl
  | succ fuel ih =>
    intro i file p
    have hrea := BufReader.readLine_bytes readBlock newline { file := file, buffer := p.buffer }
    rw [snapshotLoop]
    split_ifs
    · rfl
    · rfl
    · split
      · rename_i heq
        rw [heq] at hrea
        exact hrea
      · rename_i heq
        rw [heq] at hrea
        simp only
        split
        · exact hrea
        · split
          · exact hrea
          · split_ifs
            · exact hrea
            · exact (ih _ _ _).trans hrea
            · exact (ih _ _ _).trans hrea

/-- A bounded snapshot moves the cursor and its own progress, and neither while a truncation is
pending. -/
theorem snapshotAfterBounded_frame (env : WalEnv) (w : WalWriter) (afterSeq : Option Nat) (maxEntries : Nat)
    (call : SnapshotCall) :
    (snapshotAfterBounded env w afterSeq maxEntries call).1=w ∨
      (w.pendingTruncate=none ∧ ∃ file pending, file.bytes=w.file.bytes ∧
        (snapshotAfterBounded env w afterSeq maxEntries call).1 =
          { w with file := file, pendingSnapshot := pending }) := by
  unfold snapshotAfterBounded
  split
  · exact Or.inl rfl
  · exact Or.inl rfl
  · rename_i hpen
    split_ifs
    · exact Or.inr ⟨hpen,w.file,none,rfl,rfl⟩
    · split
      · exact Or.inl rfl
      · rename_i file p hres
        have hfil : file.bytes=w.file.bytes := by
          unfold resumeSnapshot at hres
          split at hres
          · split_ifs at hres
            exact (congrArg (OpenFile.bytes ∘ Prod.fst) (Except.ok.inj hres)).symm
          · split at hres
            · exact absurd hres (by simp)
            · exact (congrArg (OpenFile.bytes ∘ Prod.fst) (Except.ok.inj hres)).symm
        have hloo := snapshotLoop_bytes env call (file.bytes.length+p.buffer.length+1) 0 file p
        right
        refine ⟨hpen,?_⟩
        split
        · rename_i heq
          rw [heq] at hloo
          exact ⟨_,none,hloo.trans hfil,rfl⟩
        · rename_i heq
          rw [heq] at hloo
          exact ⟨_,_,hloo.trans hfil,rfl⟩
        · rename_i heq
          rw [heq] at hloo
          exact ⟨_,none,hloo.trans hfil,rfl⟩

end Progress

structure Drain where
  writer : WalWriter
  /-- A row was appended, or a write to the replacement file failed, since the pending truncation
  began. -/
  spoiled : Bool

inductive DrainOp where
  | append (kind : AppendKind) (event : String) (sinceEpochMs : Option Nat) (fate : AppendFate)
  | snapshot (afterSeq : Option Nat) (maxEntries : Nat) (call : SnapshotCall)
  | truncate (lastAckedSeq : Nat) (call : TruncateCall)

section Drain

variable (env : WalEnv)

def stepDrain (s : Drain) : DrainOp → Drain
  | .append kind event sinceEpochMs fate =>
    match append env s.writer event kind sinceEpochMs fate with
    | (w,.ok _) => { writer := w, spoiled := w.pendingTruncate.isSome }
    | (w,.error _) => { s with writer := w }
  | .snapshot afterSeq maxEntries call =>
    { s with writer := (snapshotAfterBounded env s.writer afterSeq maxEntries call).1 }
  | .truncate a call =>
    match truncateThroughSeqBounded env s.writer a call with
    | (w,.ok _) => { writer := w, spoiled := false }
    | (w,.error err) =>
      { writer := w, spoiled := w.pendingTruncate.isSome && (s.spoiled || writeFailed err) }

def WrittenLog (disk : Option (List UInt8)) : Prop :=
  ∀ bytes∈disk, ∃ rows, Readable env rows ∧ bytes=fileBytes rows

/-- The runs of an opened log in which every step meets a condition on the state before it. -/
inductive DrainRun (P : Drain → DrainOp → Prop) : Drain → Prop
  | start {disk : Option (List UInt8)} {sizeCapBytes : UInt64} {w : WalWriter} :
      WrittenLog env disk → openWithCap env disk sizeCapBytes.toNat=.ok w →
      DrainRun P { writer := w, spoiled := false }
  | step {s : Drain} {op : DrainOp} : DrainRun P s → P s op → DrainRun P (stepDrain env s op)

/-- The call goes on with the pending truncation and reads at least one more row of it. -/
def readsOn (w : WalWriter) (lastAckedSeq : Nat) (call : TruncateCall) : Bool :=
  w.pendingTruncate.any (fun p => p.lastAckedSeq == lastAckedSeq) && !call.shutdown &&
    !(call.round 0).shutdown && !(call.round 0).expired

/-- A spoiled truncation is not gone on with, and the size of the file with its anchor is a `u64`. -/
def Undisturbed (s : Drain) : DrainOp → Prop
  | .truncate a call =>
    (s.spoiled=true → readsOn s.writer a call=false) ∧
      (AnchorGrows a (rowsOf env s.writer) → s.writer.bytesWritten+20 < 2 ^ 64)
  | _ => True

/-- The file is the anchor of the last acknowledged row and every later row of the file before, and it
replays to the state in memory. -/
structure CommitsExactly (a : Nat) (w w' : WalWriter) : Prop where
  file : w'.onDisk=fileBytes (truncatedRows a (rowsOf env w))
  replays : ∃ contents, decodeUtf8 w'.onDisk=some contents ∧
    replayExisting env contents=.ok (w'.nextSeq,w'.lastChainHashHex,w'.bytesWritten)

end Drain

section Invariant

variable {env : WalEnv}

/-- A healthy log whose pending truncation, unless spoiled, stands at a row boundary. -/
structure Ready (env : WalEnv) (s : Drain) (rows : List WalEntry) : Prop where
  consistent : Consistent env s.writer rows
  exclusive : s.writer.pendingTruncate≠none → s.writer.pendingSnapshot=none
  pending : s.spoiled=true → s.writer.pendingTruncate≠none
  atRow : s.spoiled=false → ∀ p, s.writer.pendingTruncate=some p →
    AtRow env p.lastAckedSeq rows s.writer.file p

def DrainInv (env : WalEnv) (s : Drain) : Prop :=
  s.writer.poisonedReason≠none ∨ ∃ rows, Ready env s rows

variable {w : WalWriter} {rows : List WalEntry}

private theorem atRow_start (hw : Consistent env w rows) (a : Nat) :
    AtRow env a rows w.file.seekStart (startProgress a) := by
  refine ⟨[],rows,rfl,?_,rfl,⟨rfl,rfl,?_,?_⟩⟩
  · rw [← hw.bytes]
    rfl
  · intro hwri
    exact absurd hwri (by simp [startProgress])
  · intro _
    exact ⟨rfl,rfl,⟨rfl,rfl,rfl⟩⟩

variable {s : Drain} {a : Nat} {call : TruncateCall}

theorem resumeTruncate_atRow (h : Ready env s rows)
    (hcle : s.spoiled=false) {file : OpenFile UInt8}
    {p : TruncateProgress} (hres : resumeTruncate s.writer a call=.ok (file,p)) :
    file.bytes=s.writer.file.bytes ∧ AtRow env a rows file p := by
  unfold resumeTruncate at hres
  split at hres
  · rename_i q hq
    split_ifs at hres with hseq
    obtain ⟨rfl,rfl⟩ := Prod.mk.inj (Except.ok.inj hres)
    have hat := h.atRow hcle q hq
    rw [not_not.mp hseq] at hat
    exact ⟨rfl,hat⟩
  · split at hres
    · exact absurd hres (by simp)
    · obtain ⟨rfl,rfl⟩ := Prod.mk.inj (Except.ok.inj hres)
      exact ⟨rfl,atRow_start h.consistent a⟩

/-- What a bounded truncation does to a healthy log: poisons it, stops with the log as it was, or
commits. -/
inductive TruncateOutcome (env : WalEnv) (s : Drain) (rows : List WalEntry) (a : Nat) :
    WalWriter × Except WalError Nat → Prop
  | poisoned {w : WalWriter} {err : WalError} : w.poisonedReason≠none →
      TruncateOutcome env s rows a (w,.error err)
  | stopped {w : WalWriter} {err : WalError} :
      Ready env { writer := w, spoiled := w.pendingTruncate.isSome && (s.spoiled || writeFailed err) } rows →
      TruncateOutcome env s rows a (w,.error err)
  | committed {w : WalWriter} {n : Nat} : Consistent env w (truncatedRows a rows) →
      w.pendingTruncate=none → TruncateOutcome env s rows a (w,.ok n)

private theorem stopped_unchanged (h : Ready env s rows)
    {err : WalError} : TruncateOutcome env s rows a (s.writer,.error err) := by
  refine .stopped ⟨h.consistent,h.exclusive,?_,?_⟩
  · intro hspo
    exact Option.isSome_iff_ne_none.mp (Bool.and_eq_true_iff.mp hspo).1
  · intro hcle p hp
    have hsom : s.writer.pendingTruncate.isSome=true := Option.isSome_iff_exists.mpr ⟨p,hp⟩
    simp only [hsom,Bool.true_and,Bool.or_eq_false_iff] at hcle
    exact h.atRow hcle.1 p hp

/-- With no truncation pending the log is ready whatever its cursor. -/
private theorem stopped_cleared
    {err : WalError} (hw : Consistent env w rows) (hpen : w.pendingTruncate=none) :
    TruncateOutcome env s rows a (w,.error err) := by
  refine .stopped ⟨hw,fun hne => absurd hpen hne,?_,?_⟩
  · intro hspo
    rw [hpen] at hspo
    exact absurd hspo (by simp)
  · intro _ p hp
    rw [hpen] at hp
    exact absurd hp (by simp)

theorem size_truncated_lt (hw : Consistent env w rows)
    (hroo : AnchorGrows a rows → w.bytesWritten+20 < 2 ^ 64) :
    (fileBytes (truncatedRows a rows)).length < 2 ^ 64 := by
  by_cases hgro : AnchorGrows a rows
  · rw [length_truncated_of_grows hgro,← hw.bytesWritten]
    exact hroo hgro
  · exact lt_of_le_of_lt (length_truncated_le hw.readable.chained hgro) hw.readable.size

private theorem truncate_from_row (hlaw : env.Lawful)
    (h : Ready env s rows) (hsna : s.writer.pendingSnapshot=none) (hcle : s.spoiled=false)
    (call : TruncateCall) (hsiz : (fileBytes (truncatedRows a rows)).length < 2 ^ 64)
    {file : OpenFile UInt8} {p : TruncateProgress} (hfil : file.bytes=s.writer.file.bytes)
    (hat : AtRow env a rows file p) (fuel : Nat) :
    TruncateOutcome env s rows a
      (match truncateLoop env a call fuel 0 file p with
        | (file,.complete p) =>
          commitTruncate { s.writer with file := file, pendingTruncate := none } p call
        | (file,.held p err) =>
          ({ s.writer with file := file, pendingTruncate := some p },.error err)
        | (file,.abandoned err) =>
          ({ s.writer with file := file, pendingTruncate := none },.error err)) := by
  obtain ⟨hbyt,hsto,-⟩ := truncateLoop_cases hlaw a call h.consistent.readable fuel 0 file p hat
  generalize truncateLoop env a call fuel 0 file p=result at hbyt hsto
  obtain ⟨file',stop⟩ := result
  have hmov := h.consistent.moveCursor (hbyt.trans hfil)
  have hped : ∀ pending, Consistent env
      { s.writer with file := file', pendingTruncate := pending } rows := fun pending =>
    { hmov with }
  cases stop with
  | complete p' =>
    have hcom := commitTruncate_cases (hped none) hsto hsiz call
    simp only
    rcases hcom with ⟨err,hc⟩ | ⟨hpoi,err,hc⟩ | ⟨hc,hcon,hpen⟩
    · rw [hc]
      exact stopped_cleared (hped none) rfl
    · generalize commitTruncate _ p' call=c at hpoi hc
      obtain ⟨w,reply⟩ := c
      simp only at hc
      rw [hc]
      exact .poisoned hpoi
    · generalize commitTruncate _ p' call=c at hc hcon hpen
      obtain ⟨w,reply⟩ := c
      simp only at hc
      rw [hc]
      exact .committed hcon hpen
  | held p' err =>
    refine .stopped ⟨hped (some p'),fun _ => hsna,fun _ => by simp,?_⟩
    intro hspo q hq
    obtain rfl := Option.some.inj hq
    simp only [Option.isSome_some,Bool.true_and,hcle,Bool.false_or] at hspo
    rw [StopsSoundly,if_neg (by simp [hspo])] at hsto
    obtain ⟨done,rest,hros,hstr,hval,hpro⟩ := hsto
    have hrow : AtRow env a rows file' p' := ⟨done,rest,hros,hstr,hval,hpro⟩
    rw [← hpro.seq] at hrow
    exact hrow
  | abandoned err => exact stopped_cleared (hped none) rfl

/-- A spoiled truncation that is not gone on with stops before it reads. -/
private theorem truncate_spoiled (h : Ready env s rows)
    (hspo : s.spoiled=true)
    (hsta : readsOn s.writer a call=false) :
    TruncateOutcome env s rows a (truncateThroughSeqBounded env s.writer a call) := by
  have hne := h.pending hspo
  obtain ⟨p,hp⟩ := Option.ne_none_iff_exists'.mp hne
  unfold truncateThroughSeqBounded
  split
  · exact stopped_unchanged h
  · exact stopped_unchanged h
  · split_ifs with hshu
    · exact stopped_cleared { h.consistent with } rfl
    · by_cases hseq : p.lastAckedSeq=a
      · have hrou : (call.round 0).shutdown=true ∨ (call.round 0).expired=true := by
          simp only [readsOn,hp,Option.any_some,hseq,beq_self_eq_true,Bool.true_and,
            Bool.and_eq_false_iff,Bool.not_eq_false'] at hsta
          tauto
        have hres : resumeTruncate s.writer a call=.ok (s.writer.file,p) := by
          simp only [resumeTruncate,hp,hseq,ne_eq,not_true,if_false]
        rw [hres]
        simp only [truncateLoop]
        by_cases hsto : (call.round 0).shutdown=true
        · rw [if_pos hsto]
          exact stopped_cleared { h.consistent with } rfl
        · rw [if_neg hsto,if_pos (hrou.resolve_left hsto)]
          simp only [← hp]
          exact stopped_unchanged h
      · have hres : resumeTruncate s.writer a call =
            .error (.operationInProgress .truncate p.validation.bytes) := by
          simp only [resumeTruncate,hp,ne_eq,hseq,not_false_eq_true,if_true]
        rw [hres]
        exact stopped_unchanged h

theorem truncate_outcome (hlaw : env.Lawful) (h : Ready env s rows) (hop : Undisturbed env s (.truncate a call)) :
    TruncateOutcome env s rows a (truncateThroughSeqBounded env s.writer a call) := by
  obtain ⟨hsta,hroo⟩ := hop
  rw [rowsOf_consistent hlaw h.consistent] at hroo
  cases hspo : s.spoiled with
  | true => exact truncate_spoiled h hspo (hsta hspo)
  | false =>
    unfold truncateThroughSeqBounded
    split
    · exact stopped_unchanged h
    · exact stopped_unchanged h
    · rename_i hsna
      split_ifs
      · exact stopped_cleared { h.consistent with } rfl
      · split
        · exact stopped_unchanged h
        · rename_i file p hres
          obtain ⟨hfil,hat⟩ := resumeTruncate_atRow h hspo hres
          exact truncate_from_row hlaw h hsna hspo call
            (size_truncated_lt h.consistent hroo) hfil hat _

theorem drainInv_step (hlaw : env.Lawful) {op : DrainOp} (h : DrainInv env s)
    (hop : Undisturbed env s op) : DrainInv env (stepDrain env s op) := by
  rcases h with hpoi | ⟨rows,h⟩
  · -- A poisoned writer refuses every operation.
    obtain ⟨reason,hrea⟩ := Option.ne_none_iff_exists'.mp hpoi
    left
    cases op with
    | append kind event sinceEpochMs fate => simpa only [stepDrain,append,hrea] using hpoi
    | snapshot afterSeq maxEntries call =>
      simpa only [stepDrain,snapshotAfterBounded,hrea] using hpoi
    | truncate a call => simpa only [stepDrain,truncateThroughSeqBounded,hrea] using hpoi
  · cases op with
    | append kind event sinceEpochMs fate =>
      rcases append_cases hlaw h.consistent event kind sinceEpochMs fate with
        ⟨err,happ⟩ | ⟨hpoi,err,happ⟩ | ⟨e,-,happ,hapd⟩
      · simp only [stepDrain,happ]
        exact Or.inr ⟨rows,h⟩
      · left
        generalize hres : append env s.writer event kind sinceEpochMs fate=result at hpoi happ
        obtain ⟨w,reply⟩ := result
        simp only at happ
        simp only [stepDrain,hres,happ]
        exact hpoi
      · right
        generalize hres : append env s.writer event kind sinceEpochMs fate=result at happ hapd
        obtain ⟨w,reply⟩ := result
        simp only at happ
        simp only [stepDrain,hres,happ]
        refine ⟨rows++[e],hapd.consistent,?_,Option.isSome_iff_ne_none.mp,?_⟩
        · intro hne
          rw [hapd.pendingTruncate] at hne
          exact hapd.pendingSnapshot.trans (h.exclusive hne)
        · intro hnone p hp
          rw [hp] at hnone
          exact absurd hnone (by simp)
    | snapshot afterSeq maxEntries call =>
      right
      rcases snapshotAfterBounded_frame env s.writer afterSeq maxEntries call with
        hsam | ⟨hpen,file,pending,hfil,heq⟩
      · simp only [stepDrain,hsam]
        exact ⟨rows,h⟩
      · simp only [stepDrain,heq]
        refine ⟨rows,{ h.consistent.moveCursor hfil with },fun hne => absurd hpen hne,h.pending,?_⟩
        intro _ p hp
        exact absurd (hpen.symm.trans hp) (by simp)
    | truncate a call =>
      have hout := truncate_outcome hlaw h hop
      generalize hres : truncateThroughSeqBounded env s.writer a call=result at hout
      cases hout with
      | poisoned hpoi =>
        simp only [stepDrain,hres]
        exact Or.inl hpoi
      | stopped hrey =>
        simp only [stepDrain,hres]
        exact Or.inr ⟨rows,hrey⟩
      | committed hcon hpen =>
        simp only [stepDrain,hres]
        refine Or.inr ⟨truncatedRows a rows,hcon,fun hne => absurd hpen hne,by simp,?_⟩
        intro _ p hp
        exact absurd (hpen.symm.trans hp) (by simp)

theorem drainInv_run (hlaw : env.Lawful) (h : DrainRun env (Undisturbed env) s) :
    DrainInv env s := by
  induction h with
  | @start disk sizeCapBytes w hlog hope =>
    right
    have hrea : ∀ w rows, Consistent env w rows → w.pendingTruncate=none →
        Ready env { writer := w, spoiled := false } rows := by
      intro w rows hw hpen
      refine ⟨hw,fun hne => absurd hpen hne,by simp,?_⟩
      intro _ p hp
      exact absurd (hpen.symm.trans hp) (by simp)
    cases disk with
    | none =>
      obtain ⟨w',hope',hw,-,-,hpen⟩ := openWithCap_none env sizeCapBytes.toNat_lt
      obtain rfl := Except.ok.inj (hope'.symm.trans hope)
      exact ⟨[],hrea w' [] hw hpen⟩
    | some bytes =>
      obtain ⟨rows,hrow,rfl⟩ := hlog bytes rfl
      rcases openWithCap_readable hlaw hrow sizeCapBytes.toNat_lt with
        ⟨-,err,hope'⟩ | ⟨-,w',hope',hw,-,-,hpen⟩
      · exact absurd (hope'.symm.trans hope) (by simp)
      · obtain rfl := Except.ok.inj (hope'.symm.trans hope)
        exact ⟨rows,hrea w' rows hw hpen⟩
  | step _ hop ih => exact drainInv_step hlaw ih hop

/-- In every run in which no truncation goes on after a row was appended since it began, or after a write
to its replacement file failed, a truncation that returns has left exactly the anchor of the last
acknowledged row and every later row, and memory agrees with the replay of the file. -/
theorem bounded_truncation_commits_exactly (env : WalEnv) (hlaw : env.Lawful) (s : Drain) (a : Nat)
    (call : TruncateCall) (w : WalWriter) (n : Nat) (hrun : DrainRun env (Undisturbed env) s)
    (hop : Undisturbed env s (.truncate a call))
    (hcommit : truncateThroughSeqBounded env s.writer a call=(w,.ok n)) :
    CommitsExactly env a s.writer w := by
  rcases drainInv_run hlaw hrun with hpoi | ⟨rows,h⟩
  · obtain ⟨reason,hrea⟩ := Option.ne_none_iff_exists'.mp hpoi
    simp only [truncateThroughSeqBounded,hrea] at hcommit
    exact absurd (Prod.mk.inj hcommit).2 (by simp)
  · have hout := truncate_outcome hlaw h hop
    rw [hcommit] at hout
    cases hout with
    | committed hcon _ =>
      have hrep := hcon.replay hlaw
      refine ⟨?_,_,hrep.1,hrep.2⟩
      rw [rowsOf_consistent hlaw h.consistent,WalWriter.onDisk,hcon.notRenamed,Option.getD_none,
        hcon.bytes]

private theorem resumeTruncate_ok (hpen : ∀ p, w.pendingTruncate=some p →
    p.lastAckedSeq=a) (deadline : Option Nat) :
    ∃ file p, resumeTruncate w a (.pausedAt deadline)=.ok (file,p) := by
  unfold resumeTruncate
  split
  · rename_i p hp
    rw [if_neg (not_not.mpr (hpen p hp))]
    exact ⟨_,_,rfl⟩
  · exact ⟨_,_,rfl⟩

theorem truncate_returns (hlaw : env.Lawful) (h : Ready env s rows)
    (hcle : s.spoiled=false) (hsna : s.writer.pendingSnapshot=none)
    (hpen : ∀ p, s.writer.pendingTruncate=some p → p.lastAckedSeq=a) :
    ∃ w n, truncateThroughSeqBounded env s.writer a (.pausedAt none)=(w,.ok n) := by
  obtain ⟨file,p,hres⟩ := resumeTruncate_ok hpen none
  obtain ⟨-,hat⟩ := resumeTruncate_atRow h hcle hres
  obtain ⟨-,-,hcom⟩ := truncateLoop_cases hlaw a (.pausedAt none) h.consistent.readable
    (file.bytes.length+p.buffer.length+1) 0 file p hat
  obtain ⟨q,hq⟩ := hcom (fun _ => rfl) (by
    simp only [BufReader.stream,List.length_append,List.length_drop]
    omega)
  generalize hloo : truncateLoop env a (.pausedAt none) (file.bytes.length+p.buffer.length+1) 0 file
    p=result at hq
  obtain ⟨file',stop⟩ := result
  simp only at hq
  subst hq
  simp only [truncateThroughSeqBounded,h.consistent.unpoisoned,hsna,hres,hloo]
  exact ⟨_,_,rfl⟩

private theorem pausedRun (hlaw : env.Lawful) (hrow : Readable env rows)
    {cap : UInt64} (hcap : (fileBytes rows).length ≤ cap.toNat) {P : Drain → DrainOp → Prop}
    (hP : ∀ s, Ready env s rows → s.spoiled=false → P s (.truncate a (.pausedAt (some 0)))) :
    ∃ s, DrainRun env P s ∧ Ready env s rows ∧ s.spoiled=false ∧ s.writer.sizeCapBytes=cap.toNat ∧
      s.writer.pendingSnapshot=none ∧ s.writer.pendingTruncate=some (startProgress a) := by
  rcases openWithCap_readable hlaw hrow cap.toNat_lt with
    ⟨hlt,-⟩ | ⟨-,w,hope,hw,hsiz,hsna,hpen⟩
  · exact absurd hcap (not_le.mpr hlt)
  · have hlog : WrittenLog env (some (fileBytes rows)) := by
      intro bytes hbyt
      exact ⟨rows,hrow,(Option.some.inj hbyt).symm⟩
    have hrea : Ready env { writer := w, spoiled := false } rows := by
      refine ⟨hw,fun hne => absurd hpen hne,by simp,?_⟩
      intro _ p hp
      exact absurd (hpen.symm.trans hp) (by simp)
    have hres : resumeTruncate w a (.pausedAt (some 0)) =
        .ok (w.file.seekStart,startProgress a) := by
      simp only [resumeTruncate,hpen]
      rfl
    have hcal : truncateThroughSeqBounded env w a (.pausedAt (some 0)) =
        ({ w with file := w.file.seekStart, pendingTruncate := some (startProgress a) },
          .error (.operationInProgress .truncate 0)) := by
      simp only [truncateThroughSeqBounded,hw.unpoisoned,hsna,hres]
      rfl
    have hrun := DrainRun.step (.start hlog hope) (hP _ hrea rfl)
    have hste : stepDrain env { writer := w, spoiled := false } (.truncate a (.pausedAt (some 0))) =
        { writer := { w with file := w.file.seekStart, pendingTruncate := some (startProgress a) }
          spoiled := false } := by
      simp only [stepDrain,hcal]
      rfl
    rw [hste] at hrun
    refine ⟨_,hrun,⟨{ hw.moveCursor rfl with },fun _ => hsna,by simp,?_⟩,rfl,hsiz,hsna,
      rfl⟩
    intro _ p hp
    obtain rfl := Option.some.inj hp
    exact atRow_start hw a

/-- A truncation that goes on after an append finds no more rows and empties the log. -/
private theorem resumed_after_append (hlaw : env.Lawful)
    (h : Ready env s rows) (hsna : s.writer.pendingSnapshot=none)
    (hpen : s.writer.pendingTruncate=some (startProgress a)) {kind : AppendKind} {event : String}
    {sinceEpochMs : Option Nat} {e : WalEntry}
    (hent : nextEntry env s.writer event kind sinceEpochMs=.ok e)
    (hfit : (fileBytes (rows++[e])).length ≤ effectiveCap s.writer kind) :
    ∃ w n, Consistent env (stepDrain env s (.append kind event sinceEpochMs .clean)).writer (rows++[e]) ∧
      truncateThroughSeqBounded env (stepDrain env s (.append kind event sinceEpochMs .clean)).writer a
        (.pausedAt none)=(w,.ok n) ∧ w.onDisk=[] := by
  obtain ⟨hok,happ⟩ := append_clean_fits hlaw h.consistent hent hfit
  generalize hapd : append env s.writer event kind sinceEpochMs .clean=result at hok happ
  obtain ⟨w,reply⟩ := result
  simp only at hok happ
  subst hok
  have hw := happ.consistent
  have hste : (stepDrain env s (.append kind event sinceEpochMs .clean)).writer=w := by
    simp only [stepDrain,hapd]
  have hres : resumeTruncate w a (.pausedAt none)=.ok (w.file,startProgress a) := by
    have hpro : w.pendingTruncate=some (startProgress a) := happ.pendingTruncate.trans hpen
    simp only [resumeTruncate,hpro,startProgress,ne_eq,not_true,if_false]
  -- The append left the cursor at the end of the file, and the reader had fetched nothing.
  have hend : BufReader.stream { file := w.file, buffer := (startProgress a).buffer } = [] := by
    rw [happ.file]
    exact List.drop_length
  obtain ⟨reader,hrea,-⟩ := BufReader.readLine_end readBlock newline hend
  rw [hste]
  have hnone : w.pendingSnapshot=none := happ.pendingSnapshot.trans hsna
  simp only [truncateThroughSeqBounded,hw.unpoisoned,hnone,hres,truncateLoop,hrea]
  exact ⟨_,_,hw,rfl,congrArg (Option.getD · []) hw.notRenamed⟩

end Invariant

theorem readable_startRow : Readable twoEventEnv [startRow] where
  chained := wellChained_startRow
  captured := by decide
  size := by
    have hrow := length_startRow
    rw [fileBytes_singleton,walRowBytes,List.length_append,List.length_singleton]
    omega

theorem length_startRow_cap : (fileBytes [startRow]).length ≤ (1048576 : UInt64).toNat := by
  have hrow := length_startRow
  have hcap : (1048576 : UInt64).toNat=1048576 := rfl
  rw [fileBytes_singleton,walRowBytes,List.length_append,List.length_singleton]
  omega

/-- A truncation that stopped before the first row and goes on commits the one row as the anchor. -/
theorem bounded_truncation_commits_one_row : ∃ s w n,
    DrainRun twoEventEnv (Undisturbed twoEventEnv) s ∧ s.writer.pendingTruncate≠none ∧
      truncateThroughSeqBounded twoEventEnv s.writer 0 (.pausedAt none)=(w,.ok n) ∧
      CommitsExactly twoEventEnv 0 s.writer w := by
  have hlaw := twoEventEnv_lawful
  have hund : ∀ s deadline, Ready twoEventEnv s [startRow] → s.spoiled=false →
      Undisturbed twoEventEnv s (.truncate 0 (.pausedAt deadline)) := by
    intro s deadline hrea hcle
    refine ⟨fun hspo => absurd (hcle.symm.trans hspo) (by simp),fun _ => ?_⟩
    have hlen := length_startRow_cap
    have hcap : (1048576 : UInt64).toNat=1048576 := rfl
    rw [hrea.consistent.bytesWritten]
    omega
  obtain ⟨s,hrun,hrea, hcle,-,hsna,hpen⟩ := pausedRun hlaw readable_startRow
    length_startRow_cap (fun s => hund s (some 0))
  obtain ⟨w,n,hcom⟩ := truncate_returns hlaw hrea hcle hsna (a := 0) (by
    intro p hp
    rw [hpen] at hp
    rw [← Option.some.inj hp]
    rfl)
  refine ⟨s,w,n,hrun,by simp [hpen],hcom,?_⟩
  exact bounded_truncation_commits_exactly twoEventEnv hlaw s 0 (.pausedAt none) w n hrun
    (hund s none hrea hcle) hcom

private theorem nextEntry_blockRow {w : WalWriter} (hw : Consistent twoEventEnv w [startRow]) :
    nextEntry twoEventEnv w (Json.obj [("operation",.str "egress_blocked")]).canonicalText .critical
      (some 1754000000001)=.ok (blockRow false) := by
  have hseq : w.nextSeq=1 := hw.nextSeq
  have hhas : w.lastChainHashHex=some startHash := by
    rw [← chainHash_startRow]
    exact hw.chainHash
  have hadd : checkedAdd 1 1=some 2 := by decide
  have hcap : capturedAt (some 1754000000001)=1754000000001 := by decide
  have heve := addWalChainFields_operation twoEventEnv_lawful "egress_blocked" 1 (some startHash)
  simp only [nextEntry,hseq,hhas,hadd,heve,hcap]
  rw [blockRow,blockEvent]
  rfl

/-- A verdict is appended between two calls of one truncation: the log ends empty, with the verdict
lost. -/
theorem append_between_calls_loses_rows :
    ¬ ∀ s a call w n, DrainRun twoEventEnv (fun _ _ => True) s →
      truncateThroughSeqBounded twoEventEnv s.writer a call=(w,.ok n) →
      CommitsExactly twoEventEnv a s.writer w := by
  intro hall
  have hlaw := twoEventEnv_lawful
  obtain ⟨s,hrun,hrea,-,hcap,hsna,hpen⟩ := pausedRun hlaw readable_startRow (a := 0)
    length_startRow_cap (P := fun _ _ => True) (fun _ _ _ => trivial)
  have hent := nextEntry_blockRow hrea.consistent
  have hfit : (fileBytes ([startRow]++[blockRow false])).length ≤ effectiveCap s.writer .critical := by
    have hlen := length_startRow
    have hblo := length_blockRow false
    have hsiz : s.writer.sizeCapBytes=1048576 := hcap
    rw [length_fileBytes_concat,fileBytes_singleton,walRowBytes,List.length_append,
      List.length_singleton,effectiveCap,hsiz]
    simp only [AppendKind.useControlHeadroom,Bool.false_eq_true,if_false,walControlHeadroomMaxBytes]
    omega
  obtain ⟨w,n,hcon,hcom,hdis⟩ :=
    resumed_after_append hlaw hrea hsna hpen hent hfit
  have hfil := (hall _ 0 _ w n (.step hrun trivial) hcom).file
  rw [hdis,rowsOf_consistent hlaw hcon] at hfil
  have hkep : blockRow false∈truncatedRows 0 ([startRow]++[blockRow false]) := by
    apply List.mem_append_right
    exact List.mem_filter.mpr ⟨by simp,by decide⟩
  have hlen := length_le_fileBytes (truncatedRows 0 ([startRow]++[blockRow false]))
  rw [← hfil] at hlen
  exact absurd (List.length_pos_of_mem hkep) (not_lt.mpr hlen)

end CastleWall.Audit
