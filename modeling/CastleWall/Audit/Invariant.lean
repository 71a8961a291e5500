import CastleWall.Audit.Retain

/-! # The writer agrees with its file

The invariant of an unpoisoned writer: its file holds readable rows, and the state in memory is what the
replay of that file yields. Each operation keeps it. -/

namespace CastleWall.Audit

open Text

section Invariant

variable {env : WalEnv}

private theorem mem_of_lookup {key : String} {value : Json} {fields : List (String × Json)}
    (h : fields.lookup key=some value) : (key,value)∈fields := by
  induction fields with
  | nil => exact absurd h (by simp)
  | cons field fields ih =>
    rw [List.lookup_cons] at h
    split at h
    · rename_i hkey
      obtain rfl := Option.some.inj h
      obtain rfl := beq_iff_eq.mp hkey
      exact List.mem_cons_self
    · exact List.mem_cons_of_mem _ (ih h)

variable {entry : List (String × Json)}

/-- The object under `details`, or an empty one, within the bounds of the event around it. -/
private theorem details_bounds
    (hwf : Json.wellFormed (.obj entry)=true) (hdep : Json.depth (.obj entry) ≤ 127) :
    Json.wellFormed (.obj (((entry.lookup "details").bind asObject).getD []))=true ∧
      Json.depthFields (((entry.lookup "details").bind asObject).getD []) ≤ 125 := by
  cases hdet : (entry.lookup "details").bind asObject with
  | none => exact ⟨rfl,by decide⟩
  | some details =>
    obtain ⟨value,hval,hobt⟩ := Option.bind_eq_some_iff.mp hdet
    have hobj : value=.obj details := by
      cases value with
      | obj fields => exact congrArg Json.obj (Option.some.inj hobt)
      | _ => exact absurd hobt (by simp [asObject])
    have hmem := mem_of_lookup hval
    rw [hobj] at hmem
    have hfie : Json.depthFields entry ≤ 126 := by
      rw [Json.depth] at hdep
      omega
    have hinn := Json.depthFields_le_iff.mp hfie _ hmem
    rw [Json.depth] at hinn
    exact ⟨(Json.wellFormed_obj.mp hwf).2 _ hmem,by rw [Option.getD_some]; omega⟩

def withChainFields (seq : Nat) (prior : Option String) (entry : List (String × Json)) :
    List (String × Json) :=
  Json.insertField "details"
    (.obj (Json.insertField "prior_sha256_hex" (priorField prior)
      (Json.insertField "seq" (.num seq) (((entry.lookup "details").bind asObject).getD [])))) entry

variable {event : String} {seq : Nat}

theorem addWalChainFields_reads (hlaw : env.Lawful) {out : String}
    {prior : Option String} (hseq : seq < 2 ^ 64)
    (h : addWalChainFields env event seq prior=.ok out) :
    ∃ entry, env.valueFromStr event=.ok (.obj entry) ∧
      out=(Json.obj (withChainFields seq prior entry)).canonicalText ∧
      env.valueFromStr out=.ok (.obj (withChainFields seq prior entry)) := by
  unfold addWalChainFields at h
  split at h
  · exact absurd h (by simp)
  · rename_i entry hval
    have hout : out=(Json.obj (withChainFields seq prior entry)).canonicalText :=
      (Except.ok.inj h).symm
    obtain ⟨hwf,hdep⟩ := hlaw.value_bounds _ _ hval
    obtain ⟨hdwf,hdde⟩ := details_bounds hwf hdep
    refine ⟨entry,hval,hout,?_⟩
    rw [hout]
    unfold withChainFields
    generalize ((entry.lookup "details").bind asObject).getD []=details at hdwf hdde
    have hnum : Json.wellFormed (.num seq)=true := by
      rw [Json.wellFormed,decide_eq_true_iff]
      omega
    have hpri : Json.wellFormed (priorField prior)=true := by cases prior <;> rfl
    have hnuh : Json.depth (.num seq) ≤ 125 := by
      rw [Json.depth]
      · exact Nat.zero_le _
      all_goals simp
    have hprh : Json.depth (priorField prior) ≤ 125 := by
      cases prior with
      | none => decide
      | some hash => exact Nat.zero_le _
    have hdet := Json.wellFormed_insertField "prior_sha256_hex"
      (Json.wellFormed_insertField "seq" hdwf hnum) hpri
    have hdeh := Json.depth_insertField "prior_sha256_hex"
      (Json.depth_insertField "seq" hdde hnuh) hprh
    generalize Json.insertField "prior_sha256_hex" (priorField prior)
      (Json.insertField "seq" (.num seq) details)=chained at hdet hdeh
    have hent := Json.wellFormed_insertField "details" hwf hdet
    have henh : Json.depth (.obj (Json.insertField "details" (.obj chained) entry)) ≤ 127 := by
      have hobj : Json.depth (.obj chained) ≤ 126 := by
        rw [Json.depth]
        omega
      have hfie : Json.depthFields entry ≤ 126 := by
        rw [Json.depth] at hdep
        omega
      have hins := Json.depth_insertField "details" hfie hobj
      rw [Json.depth]
      omega
    exact hlaw.value_of_canonicalText _ hent henh
  · exact absurd h (by simp)

theorem addWalChainFields_binds (hlaw : env.Lawful) {out : String}
    {prior : Option String} (hseq : seq < 2 ^ 64)
    (h : addWalChainFields env event seq prior=.ok out) : BindsChain env out seq prior := by
  obtain ⟨entry,-,hout,hrea⟩ := addWalChainFields_reads hlaw hseq h
  refine ⟨_,_,hrea,hout.symm,Json.lookup_insertField_self _ _ _,?_,?_⟩
  · rw [Json.lookup_insertField_ne (by decide),Json.lookup_insertField_self]
    simp [asU64]
  · rw [Json.lookup_insertField_self]

theorem lookup_withChainFields {key : String} (hne : key ≠ "details") (seq : Nat) (prior : Option String)
    (entry : List (String × Json)) :
    (withChainFields seq prior entry).lookup key=entry.lookup key :=
  Json.lookup_insertField_ne hne _ _

theorem details_withChainFields (seq : Nat) (prior : Option String) {details : List (String × Json)}
    (h : entry.lookup "details" = some (.obj details)) :
    ∃ chained, (withChainFields seq prior entry).lookup "details" = some (.obj chained) ∧
      ∀ key, key ≠ "seq" → key ≠ "prior_sha256_hex" → chained.lookup key=details.lookup key := by
  refine ⟨_,Json.lookup_insertField_self _ _ _,fun key hseq hpri => ?_⟩
  rw [Json.lookup_insertField_ne hpri,Json.lookup_insertField_ne hseq,h]
  rfl

variable {w : WalWriter} {kind : AppendKind} {sinceEpochMs : Option Nat}

/-- A successful append wrote one row, whole, and synced it where the kind asks for it. -/
theorem append_ok {w' : WalWriter}
    {fate : AppendFate} (h : append env w event kind sinceEpochMs fate=(w',.ok seq)) :
    ∃ e, nextEntry env w event kind sinceEpochMs=.ok e ∧ e.seq=seq ∧
      w'.file=w.file.append (walRowBytes e.text) ∧ fate.write=.completes ∧
      (kind.fsync=true → fate.sync=none) := by
  unfold append at h
  split at h
  · exact absurd (Prod.mk.inj h).2 (by simp)
  · split at h
    · exact absurd (Prod.mk.inj h).2 (by simp)
    · rename_i e hent
      dsimp only at h
      split_ifs at h
      · exact absurd (Prod.mk.inj h).2 (by simp)
      · unfold writeEntry at h
        split at h
        · exact absurd (Prod.mk.inj h).2 (by simp)
        · rename_i file hwri
          split at h
          · exact absurd (Prod.mk.inj h).2 (by simp)
          · rename_i hsyn
            have hdon : file=w.file.append (walRowBytes e.text) ∧ fate.write=.completes := by
              cases hfat : fate.write with
              | completes =>
                rw [hfat] at hwri
                exact ⟨(Prod.mk.inj hwri).1.symm,rfl⟩
              | fails written err =>
                rw [hfat] at hwri
                exact absurd (Prod.mk.inj hwri).2 (by simp)
            obtain ⟨rfl,hseq⟩ := Prod.mk.inj h
            refine ⟨e,hent,Except.ok.inj hseq,hdon.1,hdon.2,fun hfsy => ?_⟩
            rw [if_pos hfsy] at hsyn
            exact hsyn

/-- The writer is healthy, its file holds these rows and its memory agrees with them. -/
structure Consistent (env : WalEnv) (w : WalWriter) (rows : List WalEntry) : Prop where
  readable : Readable env rows
  bytes : w.file.bytes=fileBytes rows
  nextSeq : w.nextSeq=(stateAfter env rows).nextSeq
  chainHash : w.lastChainHashHex=(stateAfter env rows).lastChainHash
  bytesWritten : w.bytesWritten=(fileBytes rows).length
  cap : w.sizeCapBytes < 2 ^ 64
  unpoisoned : w.poisonedReason=none
  notRenamed : w.renamedOver=none

variable {rows : List WalEntry}

theorem Consistent.replay (hlaw : env.Lawful)
    (h : Consistent env w rows) :
    decodeUtf8 w.onDisk=some (fileText rows) ∧
      replayExisting env (fileText rows)=.ok (w.nextSeq,w.lastChainHashHex,w.bytesWritten) := by
  constructor
  · rw [WalWriter.onDisk,h.notRenamed,Option.getD_none,h.bytes,← utf8Bytes_fileText,
      decodeUtf8_utf8Bytes]
  · rw [replayExisting_fileText hlaw h.readable.chained h.readable.captured h.readable.size,
      h.nextSeq,h.chainHash,h.bytesWritten]
    rfl

theorem Consistent.storedRows (hlaw : env.Lawful)
    (h : Consistent env w rows) : storedRows env (fileText rows)=rows := by
  apply storedRows_fileText hlaw
  intro e he
  have hseq := (h.readable.chained.accepted e he).seq_lt
  exact ⟨by omega,h.readable.captured e he⟩

private theorem capturedAt_lt (sinceEpochMs : Option Nat) : capturedAt sinceEpochMs < 2 ^ 64 := by
  unfold capturedAt
  omega

variable {e : WalEntry}

theorem nextEntry_ok (hlaw : env.Lawful)
    (hw : Consistent env w rows) (h : nextEntry env w event kind sinceEpochMs=.ok e) :
    AcceptedEntry env e ∧ Extends env rows e ∧ e.capturedAtUnixMs < 2 ^ 64 ∧ e.seq=w.nextSeq ∧
      e.ackedAnchor=false := by
  unfold nextEntry at h
  split at h
  · exact absurd h (by simp)
  · rename_i n hnet
    have hseq : w.nextSeq+1 < 2 ^ 64 := by
      unfold checkedAdd at hnet
      split_ifs at hnet with hlt
      exact hlt
    split at h
    · exact absurd h (by simp)
    · rename_i out heve
      obtain rfl := Except.ok.inj h
      refine ⟨⟨hseq,?_,addWalChainFields_binds hlaw (Nat.lt_of_succ_lt hseq) heve⟩,?_,
        capturedAt_lt sinceEpochMs,rfl,rfl⟩
      · intro prior hpri
        simp only [hw.chainHash,stateAfter,Option.mem_def,Option.map_eq_some_iff] at hpri
        obtain ⟨last,-,rfl⟩ := hpri
        exact isCanonicalLowercaseSha256Hex_sha256Hex _
      · have hnex := hw.nextSeq
        have hhas := hw.chainHash
        unfold Extends
        cases hlas : rows.getLast? with
        | none =>
          simp only [stateAfter,hlas,Option.map_none,Option.getD_none] at hnex hhas
          exact Or.inl ⟨hnex,hhas⟩
        | some last =>
          simp only [stateAfter,hlas,Option.map_some,Option.getD_some] at hnex hhas
          exact ⟨rfl,hnex,hhas⟩

/-- What a successful append does: one more row in the file, and memory that agrees. -/
structure Appended (env : WalEnv) (w w' : WalWriter) (rows : List WalEntry) (kind : AppendKind)
    (e : WalEntry) : Prop where
  consistent : Consistent env w' (rows++[e])
  seq : e.seq=w.nextSeq
  notAnchor : e.ackedAnchor=false
  file : w'.file=w.file.append (walRowBytes e.text)
  sizeCapBytes : w'.sizeCapBytes=w.sizeCapBytes
  pendingSnapshot : w'.pendingSnapshot=w.pendingSnapshot
  pendingTruncate : w'.pendingTruncate=w.pendingTruncate
  fits : (fileBytes (rows++[e])).length ≤ effectiveCap w kind

private theorem writeEntry_cases (hw : Consistent env w rows) (fate : AppendFate) (hacc : AcceptedEntry env e)
    (hext : Extends env rows e) (hcap : e.capturedAtUnixMs < 2 ^ 64)
    (hseq : e.seq=w.nextSeq) (hanc : e.ackedAnchor=false)
    (hsiz : (fileBytes (rows++[e])).length < 2 ^ 64)
    (hfit : (fileBytes (rows++[e])).length ≤ effectiveCap w kind) :
    ((writeEntry env w kind e fate).1.poisonedReason≠none ∧
        ∃ err, (writeEntry env w kind e fate).2=.error err) ∨
      ((writeEntry env w kind e fate).2=.ok e.seq ∧
        Appended env w (writeEntry env w kind e fate).1 rows kind e) := by
  unfold writeEntry
  split
  · exact Or.inl ⟨by simp [WalWriter.poison],_,rfl⟩
  · rename_i file hwri
    have hfil : file=w.file.append (walRowBytes e.text) := by
      unfold writeAll at hwri
      split at hwri
      · exact absurd hwri (by simp)
      · exact (Prod.mk.inj hwri).1.symm
    split
    · exact Or.inl ⟨by simp [WalWriter.poison],_,rfl⟩
    · refine Or.inr ⟨rfl,?_⟩
      refine
        { consistent :=
            { readable := ⟨wellChained_concat.mpr ⟨hw.readable.chained,hacc,hext⟩,?_,hsiz⟩
              bytes := ?_
              nextSeq := ?_
              chainHash := ?_
              bytesWritten := ?_
              cap := hw.cap
              unpoisoned := hw.unpoisoned
              notRenamed := hw.notRenamed }
          seq := hseq
          notAnchor := hanc
          file := hfil
          sizeCapBytes := rfl
          pendingSnapshot := rfl
          pendingTruncate := rfl
          fits := hfit }
      · rw [List.forall_mem_append]
        exact ⟨hw.readable.captured,by simpa using hcap⟩
      · rw [fileBytes_append,fileBytes_singleton,hfil,← hw.bytes]
        rfl
      · simp [stateAfter]
      · simp [stateAfter]
      · rw [length_fileBytes_concat,← hw.bytesWritten,Nat.add_assoc]

theorem append_cases (hlaw : env.Lawful)
    (hw : Consistent env w rows) (event : String) (kind : AppendKind) (sinceEpochMs : Option Nat)
    (fate : AppendFate) :
    (∃ err, append env w event kind sinceEpochMs fate=(w,.error err)) ∨
      ((append env w event kind sinceEpochMs fate).1.poisonedReason≠none ∧
        ∃ err, (append env w event kind sinceEpochMs fate).2=.error err) ∨
      ∃ e, nextEntry env w event kind sinceEpochMs=.ok e ∧
        (append env w event kind sinceEpochMs fate).2=.ok e.seq ∧
        Appended env w (append env w event kind sinceEpochMs fate).1 rows kind e := by
  unfold append
  rw [hw.unpoisoned]
  simp only
  split
  · exact Or.inl ⟨_,rfl⟩
  · rename_i e hent
    obtain ⟨hacc,hext,hcad,hseq,hanc⟩ := nextEntry_ok hlaw hw hent
    split_ifs with hful
    · exact Or.inl ⟨_,rfl⟩
    · right
      rw [Bool.not_eq_true,Bool.not_eq_false',Option.any_eq_true] at hful
      obtain ⟨total,htot,hcap⟩ := hful
      have hlen := length_fileBytes_concat rows e
      unfold checkedAdd at htot
      split_ifs at htot with hlt
      · have hsum := Option.some.inj htot
        have hcap' := of_decide_eq_true hcap
        rw [hw.bytesWritten] at hsum hlt
        rcases writeEntry_cases hw fate hacc hext hcad hseq hanc
          (by omega) (by omega : (fileBytes (rows++[e])).length ≤ effectiveCap w kind) with h | h
        · exact Or.inl h
        · exact Or.inr ⟨e,hent,h⟩

theorem effectiveCap_le (w : WalWriter) (kind : AppendKind) : effectiveCap w kind ≤ w.sizeCapBytes := by
  unfold effectiveCap
  split <;> omega

/-- Without an I/O fault an append never poisons the writer. -/
theorem append_clean_unpoisoned (h : w.poisonedReason=none) (event : String)
    (kind : AppendKind) (sinceEpochMs : Option Nat) :
    (append env w event kind sinceEpochMs .clean).1.poisonedReason=none := by
  unfold append
  rw [h]
  simp only
  split
  · exact h
  · split
    · exact h
    · simp only [writeEntry, AppendFate.clean,writeAll,ite_self]
      exact h

theorem append_clean_fits (hlaw : env.Lawful)
    (hw : Consistent env w rows) (hent : nextEntry env w event kind sinceEpochMs=.ok e)
    (hfit : (fileBytes (rows++[e])).length ≤ effectiveCap w kind) :
    (append env w event kind sinceEpochMs .clean).2=.ok e.seq ∧
      Appended env w (append env w event kind sinceEpochMs .clean).1 rows kind e := by
  have hlen := length_fileBytes_concat rows e
  have hcap := effectiveCap_le w kind
  have hmax := hw.cap
  have hadd : checkedAdd w.bytesWritten ((utf8Bytes e.text).length+1) =
      some (fileBytes (rows++[e])).length := by
    unfold checkedAdd
    rw [hw.bytesWritten,if_pos (by omega),hlen,Nat.add_assoc]
  have hok : (append env w event kind sinceEpochMs .clean).2=.ok e.seq := by
    simp only [append,hw.unpoisoned,hent,hadd,Option.any_some,hfit,decide_true,Bool.not_true,
      Bool.false_eq_true,if_false,writeEntry, AppendFate.clean,writeAll,ite_self]
  rcases append_cases hlaw hw event kind sinceEpochMs .clean with
    ⟨err,h⟩ | ⟨-,err,h⟩ | ⟨e',hent',h,happ⟩
  · rw [h] at hok
    exact absurd hok (by simp)
  · rw [h] at hok
    exact absurd hok (by simp)
  · obtain rfl := Except.ok.inj (hent.symm.trans hent')
    exact ⟨h,happ⟩

theorem Consistent.moveCursor (h : Consistent env w rows)
    {file : OpenFile UInt8} (hfil : file.bytes=w.file.bytes) :
    Consistent env { w with file := file } rows :=
  { h with bytes := hfil.trans h.bytes }

theorem snapshotAfter_eq (hlaw : env.Lawful)
    (hw : Consistent env w rows) (afterSeq : Option Nat) (maxEntries : Nat) :
    ∃ file, file.bytes=w.file.bytes ∧
      snapshotAfter env w afterSeq maxEntries =
        ({ w with file := file },.ok ((rows.filter (isAfter afterSeq)).take maxEntries)) := by
  obtain ⟨file,hsca,hbyt⟩ :=
    scanFile_eq hlaw (snapshotBody afterSeq maxEntries) hw.readable hw.bytes []
  refine ⟨file.seekEnd,hbyt,?_⟩
  rw [foldRows_snapshotBody] at hsca
  simp only [snapshotAfter,hw.unpoisoned,hsca,List.nil_append,List.length_nil,Nat.sub_zero]

private theorem rewrite_eq (a : Nat) (rows : List WalEntry) :
    ({ tmp := (startRewrite env (ackedRows a rows).getLast?).tmp++fileBytes (keptRows a rows)
       newBytes := (startRewrite env (ackedRows a rows).getLast?).newBytes +
         (fileBytes (keptRows a rows)).length
       newChainHash := ((keptRows a rows).getLast?.map (chainHash env)).or
         (startRewrite env (ackedRows a rows).getLast?).newChainHash } : Rewrite) =
      { tmp := fileBytes (truncatedRows a rows)
        newBytes := (fileBytes (truncatedRows a rows)).length
        newChainHash := (stateAfter env (truncatedRows a rows)).lastChainHash } := by
  cases hlas : (ackedRows a rows).getLast? with
  | none =>
    have hrow : truncatedRows a rows=keptRows a rows := by
      rw [truncatedRows,hlas]
      rfl
    simp only [hrow,startRewrite,stateAfter,List.nil_append,Nat.zero_add,Option.or_none]
  | some last =>
    have hrow : truncatedRows a rows=anchored last::keptRows a rows := by
      rw [truncatedRows,hlas]
      rfl
    have hbyt : fileBytes (anchored last::keptRows a rows) =
        walRowBytes (anchored last).text++fileBytes (keptRows a rows) := List.flatMap_cons
    have hhas : ((keptRows a rows).getLast?.map (chainHash env)).or
        (some (chainHash env (anchored last))) =
        (anchored last::keptRows a rows).getLast?.map (chainHash env) := by
      rw [List.getLast?_cons]
      cases (keptRows a rows).getLast? <;> rfl
    simp only [hrow,startRewrite,Rewrite.entry,stateAfter,hbyt,List.nil_append,Nat.zero_add,
      List.length_append,← hhas]
    rfl

theorem truncateThroughSeq_eq (hlaw : env.Lawful)
    (hw : Consistent env w rows) (a : Nat) :
    truncateThroughSeq env w a =
      ({ w with file := { bytes := fileBytes (truncatedRows a rows), cursor := 0 }
                bytesWritten := (fileBytes (truncatedRows a rows)).length
                lastChainHashHex := (stateAfter env (truncatedRows a rows)).lastChainHash },
        .ok ((ackedRows a rows).filter fun e => !e.ackedAnchor).length) := by
  have hcou : 0+rows.length < 2 ^ 64 := by
    have hlen := length_le_fileBytes rows
    have hsiz := hw.readable.size
    omega
  obtain ⟨file,hsca,hbyt⟩ := scanFile_eq hlaw (ackedBody a) hw.readable hw.bytes
    { newlyDropped := 0, lastAcked := none }
  rw [foldRows_ackedBody a rows 0 _ hcou] at hsca
  obtain ⟨file',hsca',-⟩ := scanFile_eq hlaw (keptBody env a) hw.readable
    (hbyt.trans hw.bytes) (startRewrite env (ackedRows a rows).getLast?)
  rw [foldRows_keptBody,rewrite_eq] at hsca'
  simp only [truncateThroughSeq,hw.unpoisoned,hsca,Option.or_none,hsca',Nat.zero_add]

theorem Consistent.truncated (h : Consistent env w rows)
    {a : Nat} (hsiz : (fileBytes (truncatedRows a rows)).length < 2 ^ 64) {file : OpenFile UInt8}
    (hfil : file.bytes=fileBytes (truncatedRows a rows)) (pending : Option TruncateProgress) :
    Consistent env
      { w with file := file
               bytesWritten := (fileBytes (truncatedRows a rows)).length
               lastChainHashHex := (stateAfter env (truncatedRows a rows)).lastChainHash
               pendingTruncate := pending } (truncatedRows a rows) where
  readable := h.readable.truncated hsiz
  bytes := hfil
  nextSeq := h.nextSeq.trans (stateAfter_truncated h.readable.chained a).1.symm
  chainHash := rfl
  bytesWritten := rfl
  cap := h.cap
  unpoisoned := h.unpoisoned
  notRenamed := h.notRenamed

theorem openWithCap_readable (hlaw : env.Lawful) (hrow : Readable env rows)
    {cap : Nat} (hcap : cap < 2 ^ 64) :
    (cap < (fileBytes rows).length ∧
        ∃ err, openWithCap env (some (fileBytes rows)) cap=.error err) ∨
      ((fileBytes rows).length ≤ cap ∧
        ∃ w, openWithCap env (some (fileBytes rows)) cap=.ok w ∧ Consistent env w rows ∧
          w.sizeCapBytes=cap ∧ w.pendingSnapshot=none ∧ w.pendingTruncate=none) := by
  have hdec : decodeUtf8 (fileBytes rows)=some (fileText rows) := by
    rw [← utf8Bytes_fileText,decodeUtf8_utf8Bytes]
  have hrep := replayExisting_fileText hlaw hrow.chained hrow.captured hrow.size
  have hcou : (stateAfter env rows).bytes=(fileBytes rows).length := rfl
  unfold openWithCap
  by_cases hlen : cap < (fileBytes rows).length
  · left
    exact ⟨hlen,.capacityExceeded cap (fileBytes rows).length 0,by simp only [if_pos hlen]⟩
  · right
    refine ⟨not_lt.mp hlen,?_⟩
    simp only [if_neg hlen,hdec,hrep,hcou,ne_eq,not_true,if_false]
    exact ⟨_,rfl,⟨hrow,rfl,rfl,rfl,rfl,hcap,rfl,rfl⟩,rfl,rfl,rfl⟩

theorem openWithCap_none (env : WalEnv) {cap : Nat} (hcap : cap < 2 ^ 64) :
    ∃ w, openWithCap env none cap=.ok w ∧ Consistent env w [] ∧ w.sizeCapBytes=cap ∧
      w.pendingSnapshot=none ∧ w.pendingTruncate=none := by
  have hrea : Readable env [] := ⟨wellChained_nil,by simp,by simp [fileBytes]⟩
  simp only [openWithCap,List.length_nil,ne_eq,not_true,if_false,Nat.not_lt_zero]
  exact ⟨_,rfl,⟨hrea,rfl,rfl,rfl,rfl,hcap,rfl,rfl⟩,rfl,rfl,rfl⟩

private theorem fieldsLength_first (entry : List (String × Json)) :
    Json.fieldsLength (withChainFields 0 none entry) ≤ Json.fieldsLength entry +
      Json.fieldsLength (((entry.lookup "details").bind asObject).getD [])+300 := by
  unfold withChainFields
  generalize ((entry.lookup "details").bind asObject).getD []=details
  have hkey : (Json.quote "details").length ≤ 50 ∧ (Json.quote "prior_sha256_hex").length ≤ 50 ∧
      (Json.quote "seq").length ≤ 50 := by decide +kernel
  have hval : (Json.write (priorField none)).length ≤ 5 ∧ (Json.write (.num ((0 : Nat) : Int))).length ≤ 5 := by
    decide
  have hseq := Json.fieldsLength_insertField_le "seq" (.num ((0 : Nat) : Int)) details
  have hpri := Json.fieldsLength_insertField_le "prior_sha256_hex" (priorField none)
    (Json.insertField "seq" (.num ((0 : Nat) : Int)) details)
  generalize Json.insertField "prior_sha256_hex" (priorField none)
    (Json.insertField "seq" (.num ((0 : Nat) : Int)) details)=chained at hpri ⊢
  have hobj := Json.length_write_obj_le chained
  have hent := Json.fieldsLength_insertField_le "details" (.obj chained) entry
  rw [← Json.fieldsLength] at hobj
  omega

theorem append_first (hlaw : env.Lawful) (hw : Consistent env w [])
    (hcap : 10000000 ≤ w.sizeCapBytes)
    (hwf : (Json.obj entry).wellFormed=true) (hdep : (Json.obj entry).depth ≤ 127)
    (hlen : Json.fieldsLength entry +
      Json.fieldsLength (((entry.lookup "details").bind asObject).getD []) ≤ 20000)
    (kind : AppendKind) (sinceEpochMs : Option Nat) :
    ∃ e, nextEntry env w (Json.obj entry).canonicalText kind sinceEpochMs=.ok e ∧
      (append env w (Json.obj entry).canonicalText kind sinceEpochMs .clean).2=.ok e.seq ∧
      Appended env w (append env w (Json.obj entry).canonicalText kind sinceEpochMs .clean).1 [] kind e := by
  have hseq : w.nextSeq=0 := hw.nextSeq
  have hhas : w.lastChainHashHex=none := hw.chainHash
  have hadd : checkedAdd 0 1=some 1 := by decide
  have hcha : addWalChainFields env (Json.obj entry).canonicalText 0 none =
      .ok (Json.obj (withChainFields 0 none entry)).canonicalText := by
    simp only [addWalChainFields,hlaw.value_of_canonicalText _ hwf hdep]
    rfl
  obtain ⟨e,he⟩ : ∃ e, nextEntry env w (Json.obj entry).canonicalText kind sinceEpochMs=.ok e := by
    simp only [nextEntry,hseq,hhas,hadd,hcha]
    exact ⟨_,rfl⟩
  refine ⟨e,he,append_clean_fits hlaw hw he ?_⟩
  have hrow : e.eventCanonicalJson=(Json.obj (withChainFields 0 none entry)).canonicalText ∧
      e.priorSha256Hex=none := by
    simp only [nextEntry,hseq,hhas,hadd,hcha,Except.ok.injEq] at he
    rw [← he]
    exact ⟨rfl,rfl⟩
  obtain ⟨hacc,-,hcad,-⟩ := nextEntry_ok hlaw hw he
  have hset := hacc.seq_lt
  have htex := length_text_le (e := e) ⟨by omega,hcad⟩ (by simp [hrow.2])
  have heve := Json.length_canonicalText_obj_le (withChainFields 0 none entry)
  have hfie := fieldsLength_first entry
  rw [hrow.1] at htex
  rw [List.nil_append,fileBytes_singleton,walRowBytes,List.length_append,List.length_singleton]
  have heff : w.sizeCapBytes - 65536 ≤ effectiveCap w kind := by
    unfold effectiveCap walControlHeadroomMaxBytes
    split_ifs
    · omega
    · omega
  omega

end Invariant

end CastleWall.Audit
