import CastleWall.Support.Text

/-! # Lines of text

UTF-8 decoding and the division of a text into lines. -/

namespace CastleWall.Text

def decodeUtf8 (bytes : List UInt8) : Option String := String.fromUTF8? ⟨bytes.toArray⟩

private theorem toArray_utf8Bytes (s : String) :
    (⟨(utf8Bytes s).toArray⟩ : ByteArray)=s.toByteArray := by
  rw [← String.utf8Encode_toList,utf8Bytes,List.utf8Encode]
  apply ByteArray.ext
  rw [List.data_toByteArray]

theorem decodeUtf8_utf8Bytes (s : String) : decodeUtf8 (utf8Bytes s)=some s := by
  have hval := s.isValidUTF8
  rw [decodeUtf8,toArray_utf8Bytes,String.fromUTF8?,dif_pos hval]
  rfl

variable {s : String}

theorem utf8Bytes_of_decodeUtf8 {bytes : List UInt8} (h : decodeUtf8 bytes=some s) :
    utf8Bytes s=bytes := by
  rw [decodeUtf8,String.fromUTF8?] at h
  split_ifs at h
  have hbyt : s.toByteArray=⟨bytes.toArray⟩ := by
    rw [← Option.some.inj h]
    rfl
  rw [← toArray_utf8Bytes] at hbyt
  exact List.toArray_inj (congrArg ByteArray.data hbyt)

theorem utf8Bytes_injective {t : String} (h : utf8Bytes s=utf8Bytes t) : s=t := by
  have hdec := congrArg decodeUtf8 h
  rw [decodeUtf8_utf8Bytes,decodeUtf8_utf8Bytes] at hdec
  exact Option.some.inj hdec

theorem utf8Bytes_append (s t : String) : utf8Bytes (s++t)=utf8Bytes s++utf8Bytes t := by
  simp [utf8Bytes]

theorem utf8Bytes_ofList (cs : List Char) :
    utf8Bytes (String.ofList cs)=cs.flatMap String.utf8EncodeChar := by
  rw [utf8Bytes,String.toList_ofList]

/-- An ASCII byte encodes its own character and is part of no other encoding. -/
theorem ascii_not_mem_utf8EncodeChar {b : UInt8} (hb : b.toNat < 128) {c : Char}
    (h : c.toNat≠b.toNat) : b∉String.utf8EncodeChar c := by
  have hval : c.val.toNat≠b.toNat := h
  have hhig : ∀ n k : Nat, n < 64 → 128 ≤ k → n+k < 256 → b≠UInt8.ofNat (n+k) := by
    intro n k _ hk hlt heq
    have hnat : b.toNat=(n+k) % 256 := (congrArg UInt8.toNat heq).trans UInt8.toNat_ofNat'
    omega
  intro hmem
  unfold String.utf8EncodeChar at hmem
  simp only at hmem
  split_ifs at hmem with h1 h2 h3
  · rw [List.mem_singleton] at hmem
    have hnat : b.toNat=c.val.toNat % 256 := (congrArg UInt8.toNat hmem).trans UInt8.toNat_ofNat'
    omega
  · simp only [List.mem_cons,List.not_mem_nil,or_false] at hmem
    rcases hmem with hmem | hmem
    · exact hhig _ _ (by omega) (by omega) (by omega) hmem
    · exact hhig _ _ (by omega) (by omega) (by omega) hmem
  · simp only [List.mem_cons,List.not_mem_nil,or_false] at hmem
    rcases hmem with hmem | hmem | hmem
    · exact hhig _ _ (by omega) (by omega) (by omega) hmem
    · exact hhig _ _ (by omega) (by omega) (by omega) hmem
    · exact hhig _ _ (by omega) (by omega) (by omega) hmem
  · simp only [List.mem_cons,List.not_mem_nil,or_false] at hmem
    rcases hmem with hmem | hmem | hmem | hmem
    · exact hhig _ _ (by omega) (by omega) (by omega) hmem
    · exact hhig _ _ (by omega) (by omega) (by omega) hmem
    · exact hhig _ _ (by omega) (by omega) (by omega) hmem
    · exact hhig _ _ (by omega) (by omega) (by omega) hmem

theorem ascii_not_mem_utf8Bytes {b : UInt8} (hb : b.toNat < 128)
    (h : ∀ c∈s.toList, c.toNat≠b.toNat) : b∉utf8Bytes s := by
  intro hmem
  obtain ⟨c,hc,hbyt⟩ := List.mem_flatMap.mp hmem
  exact ascii_not_mem_utf8EncodeChar hb (h c hc) hbyt

theorem newline_not_mem_utf8Bytes (h : '\n' ∉ s.toList) :
    (10 : UInt8)∉utf8Bytes s := by
  apply ascii_not_mem_utf8Bytes (by decide)
  intro c hc heq
  have hnew : c = '\n' := Char.ext (UInt32.toNat_inj.mp heq)
  exact h (hnew ▸ hc)

def stripCr (line : List Char) : List Char :=
  if line.getLast? = some '\r' then line.dropLast else line

/-- The lines of a text: each ends at a newline, which is dropped with a carriage return before it;
characters after the last newline are a line of their own. -/
def linesFrom (acc : List Char) : List Char → List String
  | [] => if acc=[] then [] else [String.ofList acc]
  | c::cs =>
    if c = '\n' then String.ofList (stripCr acc)::linesFrom [] cs
    else linesFrom (acc++[c]) cs

def lines (s : String) : List String := linesFrom [] s.toList

private theorem linesFrom_line {line : List Char} (hlin : '\n' ∉ line) (acc rest : List Char) :
    linesFrom acc (line ++ '\n' :: rest) =
      String.ofList (stripCr (acc++line))::linesFrom [] rest := by
  induction line generalizing acc with
  | nil => simp [linesFrom]
  | cons c line ih =>
    have hc : c ≠ '\n' := fun h => hlin (h ▸ List.mem_cons_self)
    rw [List.cons_append,linesFrom,if_neg hc,ih (fun h => hlin (List.mem_cons_of_mem _ h)),
      List.append_assoc,List.singleton_append]

/-- Rows without line breaks come back from the text that ends each with a newline. -/
theorem lines_of_rows {rows : List String}
    (hros : ∀ row∈rows, '\n' ∉ row.toList ∧ '\r' ∉ row.toList) :
    lines (String.ofList (rows.flatMap fun row => row.toList++['\n']))=rows := by
  unfold lines
  rw [String.toList_ofList]
  induction rows with
  | nil => rfl
  | cons row rows ih =>
    obtain ⟨hrow,hres⟩ := List.forall_mem_cons.mp hros
    have hstr : stripCr row.toList=row.toList := by
      unfold stripCr
      rw [if_neg]
      intro hlas
      exact hrow.2 (List.mem_of_getLast? hlas)
    rw [List.flatMap_cons,List.append_assoc,List.singleton_append,linesFrom_line hrow.1,
      List.nil_append,hstr,String.ofList_toList,ih hres]

end CastleWall.Text
