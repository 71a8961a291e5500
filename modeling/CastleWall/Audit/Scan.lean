import CastleWall.Audit.Chain
import CastleWall.Audit.Writer

/-! # Loops over the rows of a file

A loop over the open file is a fold over the rows the file holds, whatever blocks the reader fetches. -/

namespace CastleWall.Audit

open Text

section Scan

variable {env : WalEnv}

/-- A row with its line end, as `read_line` returns it. -/
def lineText (e : WalEntry) : String := String.ofList (e.text.toList++['\n'])

theorem utf8Bytes_lineText (e : WalEntry) : utf8Bytes (lineText e)=walRowBytes e.text := by
  have hnew : ['\n'].flatMap String.utf8EncodeChar=[10] := by decide
  rw [lineText,utf8Bytes_ofList,List.flatMap_append,hnew,walRowBytes,utf8Bytes]

theorem linesRow_lineText (e : WalEntry) : linesRow (lineText e)=e.text := by
  have hstr : stripCr e.text.toList=e.text.toList := by
    unfold stripCr
    rw [if_neg]
    intro hlas
    exact (text_no_break e).2 (List.mem_of_getLast? hlas)
  rw [linesRow,lineText,String.toList_ofList,List.getLast?_concat,if_pos rfl,List.dropLast_concat,
    hstr,String.ofList_toList]

theorem walRowBytes_cons (s : String) : ∃ b bs, walRowBytes s=b::bs := by
  cases h : walRowBytes s with
  | nil => exact absurd h (by simp [walRowBytes])
  | cons b bs => exact ⟨b,bs,rfl⟩

theorem readLine_row {reader : BufReader UInt8} {e : WalEntry} {rest : List WalEntry}
    (hstr : reader.stream=fileBytes (e::rest)) :
    ∃ reader', reader.readLine readBlock newline=(walRowBytes e.text,reader') ∧
      reader'.stream=fileBytes rest ∧ reader'.file.bytes=reader.file.bytes := by
  have hlin : newline∉utf8Bytes e.text := newline_not_mem_utf8Bytes (text_no_break e).1
  have hspl : reader.stream=utf8Bytes e.text++newline::fileBytes rest := by
    rw [hstr,fileBytes,List.flatMap_cons,walRowBytes,List.append_assoc,List.singleton_append]
    rfl
  exact BufReader.readLine_line (by decide) hlin hspl

def foldRows {σ : Type} (body : Nat → WalEntry → σ → RowStep σ) :
    Nat → List WalEntry → σ → Except WalError σ
  | _, [], s => .ok s
  | index, e::rows, s =>
    match body (index+1) e s with
    | .next s => foldRows body (index+1) rows s
    | .stop s => .ok s
    | .fail err => .error err

structure Readable (env : WalEnv) (rows : List WalEntry) : Prop where
  chained : WellChained env rows
  captured : ∀ e∈rows, e.capturedAtUnixMs < 2 ^ 64
  size : (fileBytes rows).length < 2 ^ 64

theorem Readable.left {as bs : List WalEntry} (h : Readable env (as++bs)) : Readable env as where
  chained := h.chained.left
  captured := fun e he => h.captured e (List.mem_append_left _ he)
  size := by
    have hsiz := h.size
    rw [fileBytes_append,List.length_append] at hsiz
    omega

theorem Readable.validate (hlaw : env.Lawful) {done rest : List WalEntry} {e : WalEntry}
    (h : Readable env (done++e::rest)) (lineNum : Nat) :
    validateWalLine env e.text lineNum (stateAfter env done) =
      .ok (e,stateAfter env (done++[e])) := by
  rw [← List.singleton_append,← List.append_assoc] at h
  have hlef := h.left
  obtain ⟨-,hacc,hext⟩ := wellChained_concat.mp hlef.chained
  exact validateWalLine_text hlaw lineNum hacc (hlef.captured e (by simp)) hext hlef.size

theorem forEachRow_eq (hlaw : env.Lawful) {σ : Type} (body : Nat → WalEntry → σ → RowStep σ)
    (rest : List WalEntry) :
    ∀ (fuel : Nat) (reader : BufReader UInt8) (index : Nat) (done : List WalEntry) (s : σ),
      reader.stream=fileBytes rest → Readable env (done++rest) → rest.length < fuel →
      ∃ file, forEachRow env body fuel reader index (stateAfter env done) s =
          (file,foldRows body index rest s) ∧ file.bytes=reader.file.bytes := by
  induction rest with
  | nil =>
    intro fuel reader index done s hstr _ hfue
    obtain ⟨fuel,rfl⟩ : ∃ n, fuel=n+1 := ⟨fuel - 1,by simp at hfue; omega⟩
    obtain ⟨reader',hrea,-,hbyt⟩ := BufReader.readLine_end readBlock newline hstr
    exact ⟨reader'.file,by rw [forEachRow,hrea]; rfl,hbyt⟩
  | cons e rest ih =>
    intro fuel reader index done s hstr hrow hfue
    obtain ⟨fuel,rfl⟩ : ∃ n, fuel=n+1 := ⟨fuel - 1,by omega⟩
    obtain ⟨reader',hrea,hstr',hbyt⟩ := readLine_row hstr
    have hdec : decodeUtf8 (walRowBytes e.text)=some (lineText e) := by
      rw [← utf8Bytes_lineText,decodeUtf8_utf8Bytes]
    have hval := hrow.validate hlaw (index+1)
    obtain ⟨b,bs,hcon⟩ := walRowBytes_cons e.text
    rw [hcon] at hrea hdec
    simp only [forEachRow,hrea,hdec,linesRow_lineText,hval,foldRows]
    cases body (index+1) e s with
    | next s =>
      rw [← List.singleton_append,← List.append_assoc] at hrow
      obtain ⟨file,hloo,hfil⟩ := ih fuel reader' (index+1) (done++[e]) s hstr' hrow
        (by rw [List.length_cons] at hfue; omega)
      exact ⟨file,hloo,hfil.trans hbyt⟩
    | stop s => exact ⟨reader'.file,rfl,hbyt⟩
    | fail err => exact ⟨reader'.file,rfl,hbyt⟩

theorem length_le_fileBytes (rows : List WalEntry) : rows.length ≤ (fileBytes rows).length := by
  induction rows with
  | nil => exact Nat.le_refl _
  | cons e rows ih =>
    obtain ⟨b,bs,hcon⟩ := walRowBytes_cons e.text
    rw [fileBytes,List.flatMap_cons,List.length_append,hcon,List.length_cons,List.length_cons]
    rw [fileBytes] at ih
    omega

/-- A scan of a readable file is the fold over its rows and leaves the bytes alone. -/
theorem scanFile_eq (hlaw : env.Lawful) {σ : Type} (body : Nat → WalEntry → σ → RowStep σ)
    {rows : List WalEntry} (hrow : Readable env rows) {file : OpenFile UInt8}
    (hfil : file.bytes=fileBytes rows) (s : σ) :
    ∃ file', scanFile env body file s=(file',foldRows body 0 rows s) ∧
      file'.bytes=file.bytes := by
  have hstr : BufReader.stream { file := file.seekStart, buffer := [] } = fileBytes rows := by
    rw [← hfil]
    rfl
  have hlen := length_le_fileBytes rows
  rw [← hfil] at hlen
  exact forEachRow_eq hlaw body rows (file.bytes.length+1) _ 0 [] s hstr hrow (by omega)

end Scan

end CastleWall.Audit
