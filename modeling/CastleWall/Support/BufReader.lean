import Mathlib.Data.List.TakeWhile

/-! # A buffered reader over a shared file cursor

An open file has one cursor for all the handles cloned from it. A buffered reader fetches blocks at
that cursor and hands out lines; what it will read is its buffer followed by the file from the cursor
on. -/

namespace CastleWall

structure OpenFile (α : Type) where
  bytes : List α
  cursor : Nat

variable {α : Type}

namespace OpenFile

variable (f : OpenFile α)

/-- A write in append mode: the bytes go to the end of the file and the cursor follows them. -/
def append (bytes : List α) : OpenFile α :=
  { bytes := f.bytes++bytes, cursor := (f.bytes++bytes).length }

def seekStart : OpenFile α := { f with cursor := 0 }

def seekEnd : OpenFile α := { f with cursor := f.bytes.length }

/-- One `read` of at most `block` bytes at the cursor. -/
def read (block : Nat) (f : OpenFile α) : List α × OpenFile α :=
  let chunk := (f.bytes.drop f.cursor).take block
  (chunk,{ f with cursor := f.cursor+chunk.length })

end OpenFile

/-- The file a reader reads and the bytes it has fetched and not handed out. -/
structure BufReader (α : Type) where
  file : OpenFile α
  buffer : List α

namespace BufReader

def stream (r : BufReader α) : List α := r.buffer++r.file.bytes.drop r.file.cursor

/-- `fill_buf`: a block is fetched only into an empty buffer. -/
def fill (block : Nat) (r : BufReader α) : BufReader α :=
  match r.buffer with
  | [] => { file := (r.file.read block).2, buffer := (r.file.read block).1 }
  | _ => r

/-- `read_until`: bytes up to and with `sep`, or to the end of the file. -/
def readUntil [DecidableEq α] (block : Nat) (sep : α) : Nat → BufReader α → List α × BufReader α
  | 0, r => ([],r)
  | fuel+1, r =>
    let r := r.fill block
    match r.buffer with
    | [] => ([],r)
    | _ =>
      match r.buffer.dropWhile (· ≠ sep) with
      | found::rest =>
        (r.buffer.takeWhile (· ≠ sep)++[found],{ r with buffer := rest })
      | [] =>
        let more := readUntil block sep fuel { r with buffer := [] }
        (r.buffer++more.1,more.2)

def readLine [DecidableEq α] (block : Nat) (sep : α) (r : BufReader α) : List α × BufReader α :=
  readUntil block sep (r.file.bytes.length+2) r

theorem fill_stream (block : Nat) (r : BufReader α) : (r.fill block).stream=r.stream := by
  unfold fill
  split
  · rename_i hbuf
    simp only [OpenFile.read,stream,hbuf,List.nil_append,List.length_take,List.length_drop]
    rw [← List.drop_drop]
    by_cases h : block ≤ r.file.bytes.length - r.file.cursor
    · rw [Nat.min_eq_left h,List.take_append_drop]
    · have hlen : (r.file.bytes.drop r.file.cursor).length ≤ block := by
        rw [List.length_drop]
        omega
      have hend : (r.file.bytes.drop r.file.cursor).length ≤
          r.file.bytes.length - r.file.cursor := by
        rw [List.length_drop]
      rw [List.take_of_length_le hlen,Nat.min_eq_right (by omega),List.drop_of_length_le hend,
        List.append_nil]
  · rfl

theorem fill_bytes (block : Nat) (r : BufReader α) :
    (r.fill block).file.bytes=r.file.bytes := by
  unfold fill
  split <;> rfl

private theorem append_cons_inj {sep : α} {a b as bs : List α} (ha : sep∉a) (hb : sep∉b)
    (h : a++sep::as=b++sep::bs) : a=b ∧ as=bs := by
  induction a generalizing b with
  | nil =>
    cases b with
    | nil => exact ⟨rfl,(List.cons.inj h).2⟩
    | cons d b => exact absurd ((List.cons.inj h).1 ▸ List.mem_cons_self) hb
  | cons c a ih =>
    cases b with
    | nil => exact absurd ((List.cons.inj h).1 ▸ List.mem_cons_self) ha
    | cons d b =>
      obtain ⟨rfl,htai⟩ := List.cons.inj h
      obtain ⟨rfl,hres⟩ := ih (fun hc => ha (List.mem_cons_of_mem _ hc))
        (fun hd => hb (List.mem_cons_of_mem _ hd)) htai
      exact ⟨rfl,hres⟩

private theorem eq_append_of_not_mem {sep : α} {a b as bs : List α} (ha : sep∉a)
    (h : a++as=b++sep::bs) : ∃ b', b=a++b' ∧ as=b'++sep::bs := by
  rcases List.append_eq_append_iff.mp h with ⟨b',hb,has⟩ | ⟨c,ha',hsep⟩
  · exact ⟨b',hb,has⟩
  · cases c with
    | nil => exact ⟨[],by simpa using ha'.symm,by simpa using hsep.symm⟩
    | cons d c =>
      obtain ⟨rfl,-⟩ := List.cons.inj hsep
      exact absurd (ha' ▸ List.mem_append_right _ List.mem_cons_self) ha

/-- Blocks left to fetch: the buffer counts as one, every unread byte as one at most. -/
private def pendingBlocks (r : BufReader α) : Nat :=
  (if r.buffer=[] then 0 else 1)+(r.file.bytes.length - r.file.cursor)

private theorem pendingBlocks_lt (r : BufReader α) :
    pendingBlocks r < r.file.bytes.length+2 := by
  unfold pendingBlocks
  split <;> omega

private theorem pendingBlocks_drop_buffer {block : Nat} (hblo : 0 < block) {r : BufReader α}
    (h : (r.fill block).buffer≠[]) :
    pendingBlocks { r.fill block with buffer := [] } < pendingBlocks r := by
  unfold pendingBlocks
  cases hbuf : r.buffer with
  | nil =>
    have hrea : r.fill block = { file := (r.file.read block).2, buffer := (r.file.read block).1 } := by
      unfold fill
      rw [hbuf]
    have hpos := List.length_pos_iff.mpr h
    rw [hrea] at hpos ⊢
    simp only [OpenFile.read,List.length_take,List.length_drop,if_true] at hpos ⊢
    omega
  | cons c cs =>
    have hkee : r.fill block=r := by
      unfold fill
      rw [hbuf]
    rw [hkee]
    simp

private theorem fill_buffer_ne_nil {block : Nat} (hblo : 0 < block) {r : BufReader α}
    (h : r.stream≠[]) : (r.fill block).buffer≠[] := by
  unfold fill
  split
  · rename_i hbuf
    rw [stream,hbuf,List.nil_append] at h
    have hpos := List.length_pos_iff.mpr h
    apply List.length_pos_iff.mp
    rw [OpenFile.read,List.length_take]
    omega
  · rename_i hbuf
    exact hbuf

section

variable [DecidableEq α] {block : Nat} {sep : α} {r : BufReader α}

private theorem readUntil_of_not_mem {fuel : Nat}
    (hsom : (r.fill block).buffer≠[]) (hmem : sep∉(r.fill block).buffer) :
    readUntil block sep (fuel+1) r =
      ((r.fill block).buffer++(readUntil block sep fuel { r.fill block with buffer := [] }).1,
        (readUntil block sep fuel { r.fill block with buffer := [] }).2) := by
  have hnone : (r.fill block).buffer.dropWhile (· ≠ sep)=[] := by
    rw [List.dropWhile_eq_nil_iff]
    intro c hc
    simpa using fun heq : c=sep => hmem (heq ▸ hc)
  simp only [readUntil,hnone]

private theorem readUntil_of_mem {fuel : Nat}
    {line rest : List α} (hlin : sep∉line)
    (hbuf : (r.fill block).buffer=line++sep::rest) :
    readUntil block sep (fuel+1) r=(line++[sep],{ r.fill block with buffer := rest }) := by
  have hall : ∀ c∈line, (decide (c≠sep))=true := by
    intro c hc
    simpa using fun heq : c=sep => hlin (heq ▸ hc)
  have htak : (line++sep::rest).takeWhile (· ≠ sep)=line := by
    rw [List.takeWhile_append_of_pos hall]
    simp
  have hdro : (line++sep::rest).dropWhile (· ≠ sep)=sep::rest := by
    rw [List.dropWhile_append_of_pos hall]
    simp
  rw [readUntil]
  simp only [hbuf,htak,hdro]
  split
  · rename_i hnil
    simp at hnil
  · rfl

private theorem readUntil_line (hblo : 0 < block) {rest : List α} :
    ∀ (fuel : Nat) (r : BufReader α) (line : List α), sep∉line →
      r.stream=line++sep::rest → pendingBlocks r < fuel →
      ∃ r', readUntil block sep fuel r=(line++[sep],r') ∧ r'.stream=rest ∧
        r'.file.bytes=r.file.bytes := by
  intro fuel
  induction fuel with
  | zero => exact fun r line _ _ hfue => absurd hfue (Nat.not_lt_zero _)
  | succ fuel ih =>
    intro r line hlin hstr hfue
    have hfil : (r.fill block).buffer ++
        (r.fill block).file.bytes.drop (r.fill block).file.cursor=line++sep::rest :=
      (fill_stream block r).trans hstr
    have hsom : (r.fill block).buffer≠[] :=
      fill_buffer_ne_nil hblo (by rw [hstr]; simp)
    by_cases hmem : sep∈(r.fill block).buffer
    · -- The separator is in the block: the line ends inside the buffer.
      obtain ⟨front,back,hspl,hfro⟩ := List.eq_append_cons_of_mem hmem
      rw [hspl,List.append_assoc,List.cons_append] at hfil
      obtain ⟨rfl,hres⟩ := append_cons_inj hfro hlin hfil
      exact ⟨_,readUntil_of_mem hlin hspl,hres,fill_bytes block r⟩
    · -- The whole buffer belongs to the line and the next block goes on with it.
      obtain ⟨line',rfl,hres⟩ := eq_append_of_not_mem hmem hfil
      have hlin' : sep∉line' := fun h => hlin (List.mem_append_right _ h)
      obtain ⟨r',hrea,hstr',hbyt⟩ :=
        ih { r.fill block with buffer := [] } line' hlin' hres
          (by have := pendingBlocks_drop_buffer hblo hsom; omega)
      refine ⟨r',?_,hstr',hbyt.trans (fill_bytes block r)⟩
      rw [readUntil_of_not_mem hsom hmem,hrea,List.append_assoc]

private theorem readUntil_bytes (block : Nat) (sep : α) :
    ∀ (fuel : Nat) (r : BufReader α), (readUntil block sep fuel r).2.file.bytes=r.file.bytes := by
  intro fuel
  induction fuel with
  | zero => exact fun _ => rfl
  | succ fuel ih =>
    intro r
    rw [readUntil]
    simp only
    split
    · exact fill_bytes block r
    · split
      · exact fill_bytes block r
      · exact (ih _).trans (fill_bytes block r)

theorem readLine_bytes (block : Nat) (sep : α) (r : BufReader α) :
    (readLine block sep r).2.file.bytes=r.file.bytes :=
  readUntil_bytes block sep _ r

theorem readLine_line (hblo : 0 < block)
    {line rest : List α} (hlin : sep∉line) (hstr : r.stream=line++sep::rest) :
    ∃ r', readLine block sep r=(line++[sep],r') ∧ r'.stream=rest ∧
      r'.file.bytes=r.file.bytes :=
  readUntil_line hblo _ r line hlin hstr (pendingBlocks_lt r)

theorem readLine_end (block : Nat) (sep : α) (hstr : r.stream=[]) :
    ∃ r', readLine block sep r=([],r') ∧ r'.stream=[] ∧ r'.file.bytes=r.file.bytes := by
  have hbuf : (r.fill block).buffer=[] := by
    have hfil := (fill_stream block r).trans hstr
    exact (List.append_eq_nil_iff.mp hfil).1
  refine ⟨r.fill block,?_,(fill_stream block r).trans hstr,fill_bytes block r⟩
  rw [readLine,readUntil]
  simp only [hbuf]

end

end BufReader

end CastleWall
