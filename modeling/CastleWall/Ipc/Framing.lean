import CastleWall.Support.Lines
import CastleWall.Support.Incremental
import Mathlib.Algebra.GroupWithZero.Nat
import Mathlib.Logic.Function.Iterate

/-! # IPC framing

The daemon's `Content-Length` framing: `ipc/framing.rs`. A frame is one header line with the length
of the body in bytes, a blank line and the UTF-8 body. -/

namespace CastleWall.Ipc

open Text Incremental

def contentLengthHeader : String := "Content-Length"

def headerLine (length : Nat) : String :=
  String.ofList (contentLengthHeader.toList ++ ": ".toList++Nat.toDigits 10 length)

/-- The bytes `\r\n\r\n`. -/
def headerEnd : List UInt8 := [13,10,13,10]

def frame (jsonBody : String) : List UInt8 :=
  let bodyBytes := utf8Bytes jsonBody
  utf8Bytes (headerLine bodyBytes.length)++headerEnd++bodyBytes

abbrev ParseStep := Step String String

def maxHeaderBytes : Nat := 8 * 1024

def maxInboundBodyBytes : Nat := 512 * 1024

def maxInboundFrameBytes : Nat := maxHeaderBytes+maxInboundBodyBytes

/-- The first position at which `needle` stands in the bytes. -/
def windowsPosition (needle : List UInt8) : List UInt8 → Option Nat
  | [] => none
  | b::bs =>
    if needle.isPrefixOf (b::bs) then some 0 else (windowsPosition needle bs).map (· + 1)

def findSubslice (haystack needle : List UInt8) : Option Nat :=
  if needle=[] ∨ haystack.length < needle.length then none else windowsPosition needle haystack

/-- The text between the occurrences of `\r\n`. -/
def splitCrLf (acc : List Char) : List Char → List (List Char)
  | [] => [acc]
  | c::cs =>
    match c, cs with
    | '\r', '\n' :: rest => acc::splitCrLf [] rest
    | c, cs => splitCrLf (acc++[c]) cs

def headerLines (headerText : String) : List String :=
  ((splitCrLf [] headerText.toList).filter (· ≠ [])).map String.ofList

def readContentLength (contentLength : Option Nat) : List String → Except String (Option Nat)
  | [] => .ok contentLength
  | line::lines =>
    match splitOnce line ':' with
    | none => .error ("malformed header line: " ++ line)
    | some (rawName,rawValue) =>
      let name := trim rawName
      let value := trim rawValue
      if eqIgnoreAsciiCase name contentLengthHeader then
        if contentLength.isSome then .error "duplicate Content-Length header"
        else
          match parseUnsigned (2 ^ 64) value with
          | some n => readContentLength (some n) lines
          | none => .error ("invalid Content-Length value: " ++ value)
      else readContentLength contentLength lines

def headerTooLong : String :=
  "frame header exceeded maximum size " ++ toString maxHeaderBytes ++ " bytes"

def parseHeader (header : List UInt8) : Except String Nat :=
  match decodeUtf8 header with
  | none => .error "header is not valid UTF-8"
  | some headerText =>
    match readContentLength none (headerLines headerText) with
    | .error reason => .error reason
    | .ok none => .error "missing Content-Length header"
    | .ok (some contentLength) =>
      if maxInboundBodyBytes < contentLength then
        .error ("Content-Length exceeds maximum body size " ++ toString maxInboundBodyBytes ++ " bytes")
      else .ok contentLength

def parseFrame (buf : List UInt8) : ParseStep :=
  match findSubslice buf headerEnd with
  | none => if buf.length ≤ maxHeaderBytes then .needMore else .error headerTooLong
  | some headerEndAt =>
    let bodyStart := headerEndAt+headerEnd.length
    if maxHeaderBytes < bodyStart then .error headerTooLong
    else
      match parseHeader (buf.take headerEndAt) with
      | .error reason => .error reason
      | .ok contentLength =>
        let totalNeeded := bodyStart+contentLength
        if maxInboundFrameBytes < totalNeeded then
          .error ("frame exceeded maximum size " ++ toString maxInboundFrameBytes ++ " bytes")
        else if buf.length < totalNeeded then .needMore
        else
          match decodeUtf8 ((buf.take totalNeeded).drop bodyStart) with
          | none => .error "body is not valid UTF-8"
          | some body => .complete body totalNeeded

variable {needle haystack : List UInt8}

private theorem windowsPosition_eq_some (hne : needle≠[])
    (haystack : List UInt8) (i : Nat) :
    windowsPosition needle haystack=some i ↔
      needle <+: haystack.drop i ∧ ∀ j < i, ¬ needle <+: haystack.drop j := by
  induction haystack generalizing i with
  | nil =>
    simp only [windowsPosition,List.drop_nil,List.prefix_nil,hne,false_and,reduceCtorEq]
  | cons b bs ih =>
    rw [windowsPosition]
    by_cases hfro : needle <+: b::bs
    · rw [if_pos (List.isPrefixOf_iff_prefix.mpr hfro)]
      cases i with
      | zero => simp [hfro]
      | succ i =>
        simp only [Option.some.injEq,reduceCtorEq,false_iff,not_and]
        intro _ h
        exact h 0 (Nat.succ_pos i) hfro
    · rw [if_neg (by rwa [List.isPrefixOf_iff_prefix])]
      cases i with
      | zero => simp [hfro]
      | succ i =>
        simp only [Option.map_eq_some_iff,Nat.add_right_cancel_iff,exists_eq_right,ih,
          List.drop_succ_cons]
        apply and_congr_right
        intro _
        constructor
        · intro h j hj
          cases j with
          | zero => exact hfro
          | succ j => exact h j (by omega)
        · intro h j hj
          exact h (j+1) (by omega)

variable {i n : Nat}

private theorem length_le_of_prefix_drop (hne : needle≠[])
    (h : needle <+: haystack.drop i) : i+needle.length ≤ haystack.length := by
  have hlen := h.length_le
  have hpos : 0 < needle.length := List.length_pos_iff.mpr hne
  rw [List.length_drop] at hlen
  omega

theorem findSubslice_eq_some (hne : needle≠[]) : findSubslice haystack needle=some i ↔
      needle <+: haystack.drop i ∧ ∀ j < i, ¬ needle <+: haystack.drop j := by
  rw [findSubslice]
  by_cases hsho : haystack.length < needle.length
  · rw [if_pos (Or.inr hsho)]
    simp only [reduceCtorEq,false_iff,not_and]
    intro h
    have := length_le_of_prefix_drop hne h
    omega
  · rw [if_neg (by simp [hne,hsho])]
    exact windowsPosition_eq_some hne haystack i

theorem findSubslice_le (hne : needle≠[])
    (h : findSubslice haystack needle=some i) : i+needle.length ≤ haystack.length :=
  length_le_of_prefix_drop hne ((findSubslice_eq_some hne).mp h).1

private theorem prefix_drop_append {j : Nat}
    (h : j+needle.length ≤ haystack.length) (more : List UInt8) :
    needle <+: (haystack++more).drop j ↔ needle <+: haystack.drop j := by
  rw [List.drop_append_of_le_length (by omega)]
  constructor
  · intro hpre
    exact List.prefix_of_prefix_length_le hpre (List.prefix_append _ _)
      (by rw [List.length_drop]; omega)
  · exact List.prefix_append_of_prefix

theorem findSubslice_append (hne : needle≠[]) (hle : i+needle.length ≤ haystack.length) (more : List UInt8) :
    findSubslice (haystack++more) needle=some i ↔ findSubslice haystack needle=some i := by
  rw [findSubslice_eq_some hne,findSubslice_eq_some hne,prefix_drop_append hle]
  apply and_congr_right
  intro _
  apply forall₂_congr
  intro j hj
  rw [prefix_drop_append (by omega)]

/-- A terminator is found behind bytes that do not hold its first byte. -/
theorem findSubslice_headerEnd {header : List UInt8} (h : (13 : UInt8)∉header)
    (rest : List UInt8) : findSubslice (header++headerEnd++rest) headerEnd=some header.length := by
  rw [findSubslice_eq_some (by decide),List.append_assoc,List.drop_left]
  refine ⟨List.prefix_append _ _,?_⟩
  intro j hj hpre
  rw [List.drop_append_of_le_length (Nat.le_of_lt hj),List.drop_eq_getElem_cons hj] at hpre
  have hfir : (13 : UInt8)=header[j] := (List.cons_prefix_cons.mp hpre).1
  exact h (hfir ▸ List.getElem_mem hj)

theorem headerEnd_ne_nil : headerEnd≠[] := by decide

/-- A complete frame takes at least its terminator and no byte that is not there. -/
theorem parseFrame_consumes {buf : List UInt8} {body : String} {consumed : Nat}
    (h : parseFrame buf=.complete body consumed) : 0 < consumed ∧ consumed ≤ buf.length := by
  rw [parseFrame] at h
  cases hfind : findSubslice buf headerEnd with
  | none =>
    simp only [hfind] at h
    split_ifs at h
  | some i =>
    simp only [hfind] at h
    split_ifs at h
    cases hhea : parseHeader (buf.take i) with
    | error reason => simp [hhea] at h
    | ok n =>
      simp only [hhea] at h
      split_ifs at h with _ hsho
      cases hbod : decodeUtf8 ((buf.take (i+headerEnd.length+n)).drop (i+headerEnd.length)) with
      | none => simp [hbod] at h
      | some text =>
        simp only [hbod,Step.complete.injEq] at h
        have hlen : headerEnd.length=4 := rfl
        rw [← h.2]
        exact ⟨by omega,by omega⟩

/-- A complete frame stays the frame it is, and an error the error it is, under later bytes. -/
theorem parseFrame_stable {buf : List UInt8} (h : parseFrame buf≠.needMore) (more : List UInt8) :
    parseFrame (buf++more)=parseFrame buf := by
  cases hfind : findSubslice buf headerEnd with
  | none =>
    have hlon : maxHeaderBytes < buf.length := by
      by_contra hle
      exact h (by simp [parseFrame,hfind,Nat.le_of_not_lt hle])
    have hbuf : parseFrame buf=.error headerTooLong := by
      simp [parseFrame,hfind,Nat.not_le_of_gt hlon]
    rw [hbuf]
    cases hmor : findSubslice (buf++more) headerEnd with
    | none =>
      simp only [parseFrame,hmor,List.length_append]
      rw [if_neg (by omega)]
    | some i =>
      -- a terminator that appears later stands behind the header bound
      have hbey : buf.length < i+headerEnd.length := by
        by_contra hle
        have := (findSubslice_append headerEnd_ne_nil (Nat.le_of_not_lt hle) more).mp hmor
        simp [hfind] at this
      simp only [parseFrame,hmor]
      rw [if_pos (by omega)]
  | some i =>
    have hle := findSubslice_le headerEnd_ne_nil hfind
    have hmor := (findSubslice_append headerEnd_ne_nil hle more).mpr hfind
    have htak : (buf++more).take i=buf.take i := List.take_append_of_le_length (by omega)
    simp only [parseFrame,hfind] at h
    simp only [parseFrame,hfind,hmor,htak]
    split_ifs at h ⊢ with hbound
    · rfl
    · cases hhea : parseHeader (buf.take i) with
      | error reason => rfl
      | ok n =>
        simp only [hhea] at h ⊢
        by_cases htot : maxInboundFrameBytes < i+headerEnd.length+n
        · rw [if_pos htot,if_pos htot]
        · rw [if_neg htot] at h
          have hall : ¬ buf.length < i+headerEnd.length+n := fun hsho => h (if_pos hsho)
          rw [if_neg htot,if_neg htot,if_neg hall,
            if_neg (by rw [List.length_append]; omega),
            List.take_append_of_le_length (Nat.le_of_not_lt hall)]

def frameReader : Reader String UInt8 String where
  step := parseFrame
  consumes := parseFrame_consumes
  stable := parseFrame_stable

theorem frameReader_step (buf : List UInt8) : frameReader.step buf=parseFrame buf := rfl

variable {cs : List Char}

private theorem splitCrLf_of_notMem (h : '\r' ∉ cs) (acc : List Char) :
    splitCrLf acc cs=[acc++cs] := by
  induction cs generalizing acc with
  | nil => simp [splitCrLf]
  | cons c cs ih =>
    have hc : c ≠ '\r' := fun heq => h (heq ▸ List.mem_cons_self)
    rw [splitCrLf,ih fun hmem => h (List.mem_cons_of_mem _ hmem),List.append_assoc,
      List.singleton_append]
    intro rest heq _
    exact hc heq

private theorem splitOnceChars_append {sep : Char} {before : List Char} (h : sep∉before)
    (after : List Char) : splitOnceChars sep (before++sep::after)=some (before,after) := by
  induction before with
  | nil => simp [splitOnceChars]
  | cons c before ih =>
    have hc : c≠sep := fun heq => h (heq ▸ List.mem_cons_self)
    rw [List.cons_append,splitOnceChars,if_neg hc,ih fun hmem => h (List.mem_cons_of_mem _ hmem)]
    rfl

private theorem dropWhile_of_forall (h : ∀ c∈cs, isWhitespace c=false) :
    cs.dropWhile isWhitespace=cs := by
  cases cs with
  | nil => rfl
  | cons c cs => simp [h c List.mem_cons_self]

private theorem trim_space (h : ∀ c∈cs, isWhitespace c=false) :
    trim (String.ofList (' ' :: cs))=String.ofList cs := by
  have hspa : isWhitespace ' ' = true := by decide
  rw [trim,String.toList_ofList,List.dropWhile_cons,if_pos hspa,dropWhile_of_forall h,
    dropWhile_of_forall fun c hc => h c (List.mem_reverse.mp hc),List.reverse_reverse]

private theorem toDigits_isDigit {c : Char} (h : c∈Nat.toDigits 10 n) :
    c.isDigit=true := Nat.isDigit_of_mem_toDigits (by decide) (by decide) h

private theorem isWhitespace_of_isDigit {c : Char} (h : c.isDigit=true) :
    isWhitespace c=false := by
  have hran : 48 ≤ c.toNat ∧ c.toNat ≤ 57 := by
    simp only [Char.isDigit,Bool.and_eq_true,decide_eq_true_eq] at h
    exact ⟨UInt32.le_iff_toNat_le.mp h.1,UInt32.le_iff_toNat_le.mp h.2⟩
  simp only [isWhitespace,Bool.or_eq_false_iff,Bool.and_eq_false_iff,decide_eq_false_iff_not,
    beq_eq_false_iff_ne]
  omega

private theorem readContentLength_headerLine (h : n < 2 ^ 64) :
    readContentLength none [headerLine n]=.ok (some n) := by
  have hcol : ':' ∉ contentLengthHeader.toList := by decide
  have hspl : splitOnce (headerLine n) ':' =
      some (contentLengthHeader,String.ofList (' ' :: Nat.toDigits 10 n)) := by
    rw [splitOnce,headerLine,String.toList_ofList,List.append_assoc,
      show ": ".toList++Nat.toDigits 10 n = ':' :: ' ' :: Nat.toDigits 10 n from rfl,
      splitOnceChars_append hcol]
    simp
  have hnam : trim contentLengthHeader=contentLengthHeader := by decide
  have hval : trim (String.ofList (' ' :: Nat.toDigits 10 n)) =
      String.ofList (Nat.toDigits 10 n) :=
    trim_space fun c hc => isWhitespace_of_isDigit (toDigits_isDigit hc)
  simp only [readContentLength,hspl,hnam,hval,parseUnsigned_toDigits h]
  simp [eqIgnoreAsciiCase]

private theorem headerLine_noCr (n : Nat) : '\r' ∉ (headerLine n).toList := by
  rw [headerLine,String.toList_ofList,List.mem_append]
  rintro (h | h)
  · exact absurd h (by decide)
  · exact absurd (toDigits_isDigit h) (by decide)

theorem parseHeader_headerLine (h : n ≤ maxInboundBodyBytes) :
    parseHeader (utf8Bytes (headerLine n))=.ok n := by
  have hbound : n < 2 ^ 64 := by
    simp only [maxInboundBodyBytes] at h
    omega
  have hlin : headerLines (headerLine n)=[headerLine n] := by
    rw [headerLines,splitCrLf_of_notMem (headerLine_noCr n),List.nil_append]
    simp [headerLine,contentLengthHeader]
  simp only [parseHeader,decodeUtf8_utf8Bytes,hlin,readContentLength_headerLine hbound]
  rw [if_neg (Nat.not_lt_of_ge h)]

theorem length_utf8Bytes_le (s : String) : (utf8Bytes s).length ≤ 4 * s.toList.length := by
  rw [utf8Bytes]
  induction s.toList with
  | nil => simp
  | cons c cs ih =>
    have hc : (String.utf8EncodeChar c).length ≤ 4 := by
      rw [String.length_utf8EncodeChar]
      exact c.utf8Size_le_four
    rw [List.flatMap_cons,List.length_append,List.length_cons]
    omega

private theorem length_headerLine_le (h : n ≤ maxInboundBodyBytes) :
    (utf8Bytes (headerLine n)).length+headerEnd.length ≤ maxHeaderBytes := by
  have hdig : (Nat.toDigits 10 n).length ≤ 6 := by
    rw [Nat.length_toDigits_le_iff (by decide) (by decide)]
    simp only [maxInboundBodyBytes] at h
    omega
  have hcha : (headerLine n).toList.length ≤ 22 := by
    simp only [headerLine,contentLengthHeader,String.toList_ofList,List.length_append]
    change 14+2+_ ≤ 22
    omega
  have hbyt := length_utf8Bytes_le (headerLine n)
  simp only [headerEnd,maxHeaderBytes,List.length_cons,List.length_nil]
  omega

/-- A frame at the front of the bytes is read back whole, and only it is consumed. -/
theorem parseFrame_frame {body : String} (h : (utf8Bytes body).length ≤ maxInboundBodyBytes)
    (rest : List UInt8) :
    parseFrame (frame body++rest)=.complete body (frame body).length := by
  have hcr : (13 : UInt8)∉utf8Bytes (headerLine (utf8Bytes body).length) := by
    apply ascii_not_mem_utf8Bytes (by decide)
    intro c hc heq
    have hr : c = '\r' := Char.ext (UInt32.toNat_inj.mp heq)
    exact headerLine_noCr _ (hr ▸ hc)
  have hhea := length_headerLine_le h
  have hfind := findSubslice_headerEnd hcr (utf8Bytes body++rest)
  have hbuf : frame body++rest =
      utf8Bytes (headerLine (utf8Bytes body).length)++headerEnd++(utf8Bytes body++rest) := by
    rw [frame,List.append_assoc]
  have hlen : (frame body).length =
      (utf8Bytes (headerLine (utf8Bytes body).length)).length+headerEnd.length +
        (utf8Bytes body).length := by
    rw [frame,List.length_append,List.length_append]
  have htak : ((frame body++rest).take (frame body).length).drop
      ((utf8Bytes (headerLine (utf8Bytes body).length)).length+headerEnd.length) =
        utf8Bytes body := by
    rw [List.take_left,frame,← List.length_append,List.drop_left]
  rw [← hbuf] at hfind
  simp only [parseFrame,hfind]
  rw [if_neg (by omega),hbuf,List.append_assoc,List.take_left,parseHeader_headerLine h]
  simp only [← List.append_assoc,← hlen]
  rw [if_neg (by rw [hlen]; simp only [maxInboundFrameBytes]; omega)]
  rw [List.append_assoc _ _ rest,← hbuf]
  rw [if_neg (by rw [List.length_append]; omega),htak,decodeUtf8_utf8Bytes]

theorem drain_frames {bodies : List String}
    (h : ∀ body∈bodies, (utf8Bytes body).length ≤ maxInboundBodyBytes) :
    frameReader.drain (bodies.flatMap frame)=⟨bodies,[],none⟩ := by
  induction bodies with
  | nil =>
    have hnil : frameReader.step []=.needMore := by decide
    exact Reader.drain_needMore hnil
  | cons body bodies ih =>
    obtain ⟨hboy,hbod⟩ := List.forall_mem_cons.mp h
    have hste : frameReader.step (frame body++bodies.flatMap frame) =
        .complete body (frame body).length := by
      rw [frameReader_step]
      exact parseFrame_frame hboy _
    rw [List.flatMap_cons,Reader.drain_complete hste,List.drop_left,ih hbod]
    rfl

/-- Frames cut at any points come back as the bodies that were framed, in order, with no error and
no byte left; and no answer but `needMore` is changed by later bytes. -/
theorem framing_round_trip :
    (∀ (bodies : List String) (chunks : List (List UInt8)),
      (∀ body∈bodies, (utf8Bytes body).length ≤ maxInboundBodyBytes) →
        chunks.flatten=bodies.flatMap frame →
          frameReader.feedAll chunks=⟨bodies,[],none⟩) ∧
    ∀ buf more : List UInt8, parseFrame buf≠.needMore → parseFrame (buf++more)=parseFrame buf := by
  constructor
  · intro bodies chunks hsiz hfla
    have hdra := drain_frames hsiz
    rw [← hfla] at hdra
    rw [Reader.feedAll_of_drain (by rw [hdra]),hdra]
  · intro buf more h
    exact parseFrame_stable h more

theorem framing_round_trip_two_bodies :
    frameReader.feedAll [(frame "").take 19,(frame "").drop 19++(frame "ok").take 22,
      (frame "ok").drop 22]=⟨["","ok"],[],none⟩ ∧
    parseFrame (headerEnd++[0])=parseFrame headerEnd := by
  constructor
  · apply framing_round_trip.1
    · decide
    · decide
  · apply framing_round_trip.2
    decide

/-- The bytes that one read of the socket fits into. -/
def chunkBytes : Nat := 4096

/-- What a pass of the read loop meets once a frame is not complete: the deadline has passed, or the
socket answers with bytes (none at its end), with nothing yet, with its timeout or with an error. -/
inductive ReadEvent where
  | late
  | data (chunk : { bytes : List UInt8 // bytes.length ≤ chunkBytes })
  | wouldBlock
  | timedOut
  | failed (err : String)

inductive ReadResult where
  | body (text : String)
  | closed
  | failed (reason : String)
  | waiting

/-- One call: its result, and the buffer and the events it leaves. It is `waiting` where the events
end before the call does. -/
def readOneFrame (buf : List UInt8) (events : List ReadEvent) : ReadResult × List UInt8 × List ReadEvent :=
  match parseFrame buf with
  | .complete body consumedBytes => (.body body,buf.drop consumedBytes,events)
  | .error reason => (.failed reason,buf,events)
  | .needMore =>
    match events with
    | [] => (.waiting,buf,[])
    | .late::events => (.failed "read deadline exceeded",buf,events)
    | .data chunk::events =>
      if chunk.1=[] then (.closed,buf,events) else readOneFrame (buf++chunk.1) events
    | .wouldBlock::events => readOneFrame buf events
    | .timedOut::events => (.failed "connection idle timeout",buf,events)
    | .failed err::events => (.failed err,buf,events)

/-- A connection: the bodies handed over, the result that ended it, its buffer, and what its socket
has still to bring. -/
structure Connection where
  bodies : List String
  ended : Option ReadResult
  buf : List UInt8
  events : List ReadEvent

/-- The handler reads again after every body, the one of the handshake included. -/
def Connection.read (c : Connection) : Connection :=
  match c.ended with
  | some _ => c
  | none =>
    match readOneFrame c.buf c.events with
    | (.body text,buf,events) => ⟨c.bodies++[text],none,buf,events⟩
    | (result,buf,events) => ⟨c.bodies,some result,buf,events⟩

def ReadEvent.bytes : ReadEvent → List UInt8
  | .data chunk => chunk.1
  | _ => []

def ReadResult.handed : ReadResult → List String
  | .body text => [text]
  | _ => []

/-- What a call may leave: a bounded buffer, and each byte either in the body handed over or still to
be read. Where it waits, nothing is left to read. -/
structure ReadSpec (bytes : List UInt8) (left : ReadResult × List UInt8 × List ReadEvent) : Prop where
  bounded : left.2.1.length < maxInboundFrameBytes+chunkBytes
  accounted : frameReader.drain bytes =
    (frameReader.drain (left.2.1++left.2.2.flatMap ReadEvent.bytes)).prepend left.1.handed
  shrinks : left.1.handed.length+left.2.1.length+(left.2.2.flatMap ReadEvent.bytes).length ≤ bytes.length
  waits : left.1=.waiting → left.2.2=[] ∧ parseFrame left.2.1=.needMore

theorem length_lt_of_needMore {buf : List UInt8} (h : parseFrame buf=.needMore) :
    buf.length < maxInboundFrameBytes := by
  rw [parseFrame] at h
  cases hfind : findSubslice buf headerEnd with
  | none =>
    simp only [hfind] at h
    split_ifs at h with hsho
    exact Nat.lt_of_le_of_lt hsho (by decide)
  | some i =>
    simp only [hfind] at h
    split_ifs at h
    cases hhea : parseHeader (buf.take i) with
    | error reason => simp [hhea] at h
    | ok n =>
      simp only [hhea] at h
      split_ifs at h with htot hsho
      · omega
      · cases hbod : decodeUtf8 ((buf.take (i+headerEnd.length+n)).drop (i+headerEnd.length)) with
        | none => simp [hbod] at h
        | some text => simp [hbod] at h

theorem ReadSpec.kept {buf : List UInt8} {result : ReadResult} (events : List ReadEvent)
    (hbuf : buf.length < maxInboundFrameBytes+chunkBytes) (hnil : result.handed=[])
    (hwai : result=.waiting → events=[] ∧ parseFrame buf=.needMore) :
    ReadSpec (buf++events.flatMap ReadEvent.bytes) (result,buf,events) where
  bounded := hbuf
  accounted := by rw [hnil,Received.prepend_nil]
  shrinks := by rw [hnil,List.length_append,List.length_nil,Nat.zero_add]
  waits := hwai

theorem readOneFrame_spec {buf : List UInt8} (events : List ReadEvent)
    (hbuf : buf.length < maxInboundFrameBytes+chunkBytes) :
    ReadSpec (buf++events.flatMap ReadEvent.bytes) (readOneFrame buf events) := by
  fun_induction readOneFrame buf events with
  | case1 events buf body consumed hste =>
    have hall : frameReader.step (buf++events.flatMap ReadEvent.bytes)=.complete body consumed := by
      rw [frameReader.stable (by simp [frameReader_step,hste]),frameReader_step,hste]
    have hcon := parseFrame_consumes hste
    refine ⟨by rw [List.length_drop]; omega,?_,?_,by simp⟩
    · rw [Reader.drain_complete hall,List.drop_append_of_le_length hcon.2]
      rfl
    · simp only [ReadResult.handed,List.length_singleton,List.length_append,List.length_drop]
      omega
  | case2 events buf reason hste => exact .kept _ hbuf rfl (by simp)
  | case3 buf hste => exact .kept _ hbuf rfl fun _ => ⟨rfl,hste⟩
  | case4 buf hste events => exact .kept events hbuf rfl (by simp)
  | case5 buf hste chunk events hend =>
    rw [List.flatMap_cons,ReadEvent.bytes,hend,List.nil_append]
    exact .kept _ hbuf rfl (by simp)
  | case6 buf hste chunk events hend ih =>
    have hsho := length_lt_of_needMore hste
    have hchu := chunk.2
    rw [List.flatMap_cons,← List.append_assoc]
    exact ih (by rw [List.length_append]; omega)
  | case7 buf hste events ih => exact ih hbuf
  | case8 buf hste events => exact .kept events hbuf rfl (by simp)
  | case9 buf hste err events => exact .kept events hbuf rfl (by simp)

/-- The invariant of a connection whose socket brings `bytes`. -/
structure Connection.Sound (bytes : List UInt8) (c : Connection) : Prop where
  bounded : c.buf.length < maxInboundFrameBytes+chunkBytes
  accounted : frameReader.drain bytes =
    (frameReader.drain (c.buf++c.events.flatMap ReadEvent.bytes)).prepend c.bodies
  shrinks : c.bodies.length+c.buf.length+(c.events.flatMap ReadEvent.bytes).length ≤ bytes.length
  waits : c.ended=some .waiting → c.events=[] ∧ parseFrame c.buf=.needMore

theorem Connection.Sound.read {bytes : List UInt8} {c : Connection} (hc : c.Sound bytes) : c.read.Sound bytes := by
  have hspe := readOneFrame_spec c.events hc.bounded
  rw [Connection.read]
  cases hend : c.ended with
  | some result => exact hc
  | none =>
    rcases hcal : readOneFrame c.buf c.events with ⟨result,buf,events⟩
    rw [hcal] at hspe
    have hacc := hc.accounted
    rw [hspe.accounted,Received.prepend_prepend] at hacc
    have hshr := hspe.shrinks.trans_eq List.length_append
    have htot := hc.shrinks
    cases result with
    | body text =>
      refine ⟨hspe.bounded,hacc,?_,by simp⟩
      simp only [ReadResult.handed,List.length_singleton] at hshr
      simp only [List.length_append,List.length_singleton]
      omega
    | _ =>
      simp only [ReadResult.handed,List.append_nil,List.length_nil] at hacc hshr
      exact ⟨hspe.bounded,hacc,by dsimp only; omega,fun heq => hspe.waits (Option.some.inj heq)⟩

theorem Connection.length_bodies {c : Connection} (h : c.bodies=[]) (n : Nat)
    (hend : (Connection.read^[n] c).ended=none) : (Connection.read^[n] c).bodies.length=n := by
  induction n with
  | zero => rw [Function.iterate_zero_apply,h,List.length_nil]
  | succ n ih =>
    rw [Function.iterate_succ_apply',Connection.read] at hend ⊢
    cases hc : (Connection.read^[n] c).ended with
    | some result => simp [hc] at hend
    | none =>
      rcases hcal : readOneFrame (Connection.read^[n] c).buf (Connection.read^[n] c).events with ⟨result,buf,events⟩
      cases result with
      | body text => simp [ih hc]
      | _ => simp [hc,hcal] at hend

/-- Whatever the socket brings and however its bytes are cut, after any number of reads the buffer is
bounded, and the bodies handed over followed by the frames in the buffer and in what is still to come
are the frames of all the bytes: none is lost, made up or read twice, across the handshake's read and
the handler's. More reads than bytes end the connection, and one that waits has handed over every
whole frame that came. -/
theorem connection_accounts_for_bytes (events : List ReadEvent) (reads : Nat) :
    let c := Connection.read^[reads] ⟨[],none,[],events⟩
    let bytes := events.flatMap ReadEvent.bytes
    c.buf.length < maxInboundFrameBytes+chunkBytes ∧
    frameReader.drain bytes=(frameReader.drain (c.buf++c.events.flatMap ReadEvent.bytes)).prepend c.bodies ∧
    (bytes.length < reads → c.ended≠none) ∧
    (c.ended=some .waiting → frameReader.drain bytes=⟨c.bodies,c.buf,none⟩) := by
  intro c bytes
  have hc : c.Sound bytes := by
    apply Function.Iterate.rec (Connection.Sound bytes)
    · exact ⟨by simp [chunkBytes],rfl,by simp [bytes],by simp⟩
    · intro c hc
      exact hc.read
  refine ⟨hc.bounded,hc.accounted,?_,?_⟩
  · intro hlt hend
    have hshr := hc.shrinks
    rw [Connection.length_bodies rfl reads hend] at hshr
    omega
  · intro hwai
    obtain ⟨hnil,hste⟩ := hc.waits hwai
    rw [hc.accounted,hnil,List.flatMap_nil,List.append_nil,Reader.drain_needMore hste]
    simp [Received.prepend]

end CastleWall.Ipc
