import CastleWall.Ipc.Framing
import CastleWall.Server.HabeasPort
import CastleWall.Support.Ecma

/-! # IPC framing on the server side

The parser of `server/src/castle-wall/ipc/framing.ts`, and where it reads a buffer as the daemon's
parser does. -/

namespace CastleWall.Ipc

open Text Incremental

namespace ServerFraming

/-- `String.prototype.toLowerCase`. The laws are those of the Unicode case mappings: ASCII text is
folded letter by letter, and of the characters beyond ASCII only the Kelvin sign, which becomes `k`,
has a lower case within ASCII. -/
structure CaseMapping where
  toLowerCase : String → String
  toLowerCase_ascii : ∀ s, (∀ c∈s.toList, c.toNat < 128) → toLowerCase s=toAsciiLowercase s
  ascii_of_toLowerCase : ∀ s, (∀ c∈(toLowerCase s).toList, c.toNat < 128 ∧ c ≠ 'k') →
    ∀ c∈s.toList, c.toNat < 128

inductive FramingError where
  | headerExceedsMaxBytes
  | malformedHeaderLine (line : String)
  | invalidContentLength (value : String)
  | missingContentLength
  | oversize (declaredLength maxAllowed : Nat)
  deriving DecidableEq

/-- The text of an error; what was received is rendered by `describeUntrusted`. -/
def FramingError.reason (describeUntrusted : String → String) : FramingError → String
  | headerExceedsMaxBytes => "frame header exceeds max bytes"
  | malformedHeaderLine line => "malformed header line: " ++ describeUntrusted line
  | invalidContentLength value => "invalid Content-Length value: " ++ describeUntrusted value
  | missingContentLength => "missing Content-Length header"
  | oversize declaredLength maxAllowed =>
    "frame exceeds max bytes: " ++ toString declaredLength ++ " > " ++ toString maxAllowed

def maxMaxFrameBytes : Nat := 1024 * 1024 * 1024

/-- The largest header `frame` writes. -/
def maxFrameHeaderBytes : Nat :=
  (utf8Bytes (headerLine maxMaxFrameBytes)).length+headerEnd.length

def findHeaderEnd (buf : List UInt8) : Option Nat := findSubslice buf headerEnd

def trim (s : String) : String := String.ofList (Server.jsTrim s.toList)

/-- `Number(value)` where it is a non-negative integer. -/
def contentLengthValue (value : String) : Option Nat :=
  match Ecma.number (Server.jsTrim value.toList) with
  | none => none
  | some parsed => if parsed.den=1 ∧ 0 ≤ parsed.num then some parsed.num.toNat else none

def readContentLength (mapping : CaseMapping) (contentLength : Option Nat) :
    List String → Except FramingError (Option Nat)
  | [] => .ok contentLength
  | line::lines =>
    match splitOnce line ':' with
    | none => .error (.malformedHeaderLine line)
    | some (rawName,rawValue) =>
      let name := trim rawName
      let value := trim rawValue
      if mapping.toLowerCase name=mapping.toLowerCase contentLengthHeader then
        match contentLengthValue value with
        | none => .error (.invalidContentLength value)
        | some parsed => readContentLength mapping (some parsed) lines
      else readContentLength mapping contentLength lines

def parseFrame (mapping : CaseMapping) (maxFrameBytes : Nat) (buf : List UInt8) :
    Step String FramingError :=
  match findHeaderEnd (buf.take maxFrameHeaderBytes) with
  | none => if maxFrameHeaderBytes ≤ buf.length then .error .headerExceedsMaxBytes else .needMore
  | some headerEndAt =>
    let headerText := Ecma.textDecode (buf.take headerEndAt)
    match readContentLength mapping none (headerLines headerText) with
    | .error reason => .error reason
    | .ok none => .error .missingContentLength
    | .ok (some contentLength) =>
      if maxFrameBytes < contentLength then .error (.oversize contentLength maxFrameBytes)
      else
        let bodyStart := headerEndAt+headerEnd.length
        let totalNeeded := bodyStart+contentLength
        if buf.length < totalNeeded then .needMore
        else .complete (Ecma.textDecode ((buf.take totalNeeded).drop bodyStart)) totalNeeded

end ServerFraming

/-- The values of the lines that carry the wanted name, when every line has a colon. -/
def namedValues (trimmed : String → String) : List String → Option (List String)
  | [] => some []
  | line::lines =>
    match splitOnce line ':' with
    | none => none
    | some (name,value) =>
      (namedValues trimmed lines).map fun values =>
        if eqIgnoreAsciiCase (trimmed name) contentLengthHeader then trimmed value::values
        else values

/-- The header is UTF-8 with one `Content-Length` line, and its value is an unsigned numeral. -/
def DaemonHeader (header : List UInt8) (n : Nat) : Prop :=
  ∃ text value, decodeUtf8 header=some text ∧
    namedValues trim (headerLines text)=some [value] ∧ parseUnsigned (2 ^ 64) value=some n

/-- The header, with what is not UTF-8 replaced, has `Content-Length` lines whose values are all
whole ECMAScript numbers; the last of them counts. -/
def ServerHeader (header : List UInt8) (n : Nat) : Prop :=
  ∃ values, namedValues ServerFraming.trim (headerLines (Ecma.textDecode header))=some values ∧
    (∀ value∈values, (ServerFraming.contentLengthValue value).isSome) ∧
    values.getLast?.bind ServerFraming.contentLengthValue=some n

/-- The bytes that follow the header hold a whole body of `n` bytes that is not UTF-8. -/
def Garbled (rest : List UInt8) (n : Nat) : Prop :=
  n ≤ rest.length ∧ decodeUtf8 (rest.take n)=none

/-- A body of `n` bytes is not there yet, or is UTF-8 without a byte order mark in front. -/
def Legible (rest : List UInt8) (n : Nat) : Prop :=
  n ≤ rest.length → ∃ text, decodeUtf8 (rest.take n)=some text ∧
    text.toList.head? ≠ some Ecma.byteOrderMark

def Alike : ParseStep → Step String ServerFraming.FramingError → Prop
  | .complete body consumed, .complete body' consumed' => body=body' ∧ consumed=consumed'
  | .needMore, .needMore => True
  | .error _, .error _ => True
  | _, _ => False

/-- Where the ends agree. Without a terminator the buffer is short of the server's header bound or
beyond the daemon's. A terminator past the daemon's bound is refused by both; one past the server's
bound alone has to end a header or a body that the daemon refuses. Within both bounds a length that
one grammar gives is given by the other, within both body bounds, and the body is legible; only a
garbled body makes up for a length the server does not take. -/
def FramedAlike (maxFrameBytes : Nat) (buf : List UInt8) : Prop :=
  match findSubslice buf headerEnd with
  | none => buf.length < ServerFraming.maxFrameHeaderBytes ∨ maxHeaderBytes < buf.length
  | some i =>
    let header := buf.take i
    let rest := buf.drop (i+headerEnd.length)
    if maxHeaderBytes < i+headerEnd.length then True
    else if ServerFraming.maxFrameHeaderBytes < i+headerEnd.length then
      ∀ n ≤ maxInboundBodyBytes, DaemonHeader header n → Garbled rest n
    else
      (∀ n ≤ maxInboundBodyBytes, DaemonHeader header n →
        ServerHeader header n ∧ n ≤ maxFrameBytes ∧ Legible rest n ∨
          Garbled rest n ∧ ∀ m ≤ maxFrameBytes, ¬ ServerHeader header m) ∧
      ∀ n ≤ maxFrameBytes, ServerHeader header n →
        DaemonHeader header n ∧ n ≤ maxInboundBodyBytes

private theorem readContentLength_some (m : Nat) (lines : List String) (r : Option Nat) :
    readContentLength (some m) lines=.ok r ↔ namedValues trim lines=some [] ∧ r=some m := by
  induction lines with
  | nil => simp [readContentLength,namedValues,eq_comm]
  | cons line lines ih =>
    rw [readContentLength,namedValues]
    cases splitOnce line ':' with
    | none => simp
    | some pair =>
      by_cases hnam : eqIgnoreAsciiCase (trim pair.1) contentLengthHeader=true
      · simp [hnam]
      · simp [hnam,ih]

private theorem readContentLength_none (lines : List String) (n : Nat) :
    readContentLength none lines=.ok (some n) ↔
      ∃ value, namedValues trim lines=some [value] ∧ parseUnsigned (2 ^ 64) value=some n := by
  induction lines with
  | nil => simp [readContentLength,namedValues]
  | cons line lines ih =>
    rw [readContentLength,namedValues]
    cases splitOnce line ':' with
    | none => simp
    | some pair =>
      by_cases hnam : eqIgnoreAsciiCase (trim pair.1) contentLengthHeader=true
      · cases hval : parseUnsigned (2 ^ 64) (trim pair.2) with
        | none => simp [hnam,hval,-Nat.reducePow]
        | some m =>
          simp only [hnam,if_true,hval,Option.isSome_none,Bool.false_eq_true,if_false,
            readContentLength_some]
          simp [hval,eq_comm,-Nat.reducePow]
      · simp [hnam,ih,-Nat.reducePow]

theorem parseHeader_eq_ok {header : List UInt8} {n : Nat} :
    parseHeader header=.ok n ↔ DaemonHeader header n ∧ n ≤ maxInboundBodyBytes := by
  rw [parseHeader,DaemonHeader]
  cases htex : decodeUtf8 header with
  | none => simp
  | some text =>
    simp only [Option.some.injEq,exists_and_left,exists_eq_left']
    rw [← readContentLength_none]
    cases readContentLength none (headerLines text) with
    | error reason => simp
    | ok found =>
      cases found with
      | none => simp
      | some m =>
        by_cases hm : maxInboundBodyBytes < m
        · simp only [if_pos hm,reduceCtorEq,Except.ok.injEq,Option.some.injEq,false_iff,not_and]
          rintro rfl
          omega
        · simp only [if_neg hm,Except.ok.injEq,Option.some.injEq]
          constructor
          · rintro rfl
            exact ⟨rfl,Nat.le_of_not_lt hm⟩
          · exact And.left

theorem DaemonHeader.unique {header : List UInt8} {n m : Nat} (hn : DaemonHeader header n)
    (hm : DaemonHeader header m) : n=m := by
  obtain ⟨text,value,htex,hval,hvae⟩ := hn
  obtain ⟨text',value',htex',hval',hvae'⟩ := hm
  rw [htex,Option.some.injEq] at htex'
  subst htex'
  rw [hval,Option.some.injEq,List.cons.injEq] at hval'
  rw [hval'.1,hvae'] at hvae
  exact (Option.some.inj hvae).symm

section Daemon

variable {buf : List UInt8} {i : Nat}

theorem daemon_refuses (hfind : findSubslice buf headerEnd=some i)
    (h : ∀ n ≤ maxInboundBodyBytes, ¬ DaemonHeader (buf.take i) n) :
    ∃ reason, parseFrame buf=.error reason := by
  rw [parseFrame,hfind]
  by_cases hbound : maxHeaderBytes < i+headerEnd.length
  · exact ⟨_,if_pos hbound⟩
  · simp only [if_neg hbound]
    cases hhea : parseHeader (buf.take i) with
    | error reason => exact ⟨reason,rfl⟩
    | ok n =>
      have hacc := parseHeader_eq_ok.mp hhea
      exact absurd hacc.1 (h n hacc.2)

theorem daemon_reads (hfind : findSubslice buf headerEnd=some i)
    (hbound : i+headerEnd.length ≤ maxHeaderBytes) {n : Nat} (hn : n ≤ maxInboundBodyBytes)
    (h : DaemonHeader (buf.take i) n) :
    parseFrame buf =
      if (buf.drop (i+headerEnd.length)).length < n then .needMore
      else
        match decodeUtf8 ((buf.drop (i+headerEnd.length)).take n) with
        | none => .error "body is not valid UTF-8"
        | some body => .complete body (i+headerEnd.length+n) := by
  have hle := findSubslice_le headerEnd_ne_nil hfind
  have hsho : buf.length < i+headerEnd.length+n ↔
      (buf.drop (i+headerEnd.length)).length < n := by
    rw [List.length_drop]
    omega
  have htot : ¬ maxInboundFrameBytes < i+headerEnd.length+n := by
    rw [maxInboundFrameBytes]
    omega
  rw [parseFrame,hfind]
  -- what is left, if anything, is the two spellings of the body's reader
  simp only [if_neg (Nat.not_lt_of_ge hbound),parseHeader_eq_ok.mpr ⟨h,hn⟩,if_neg htot,hsho,
    List.drop_take,Nat.add_sub_cancel_left] <;> rfl

end Daemon

private theorem headerName_ascii : ∀ c∈contentLengthHeader.toList, c.toNat < 128 := by
  simp [contentLengthHeader]

private theorem toLower_of_high {c : Char} (h : 128 ≤ c.toNat) : c.toLower=c := by
  delta Char.toLower
  rw [dif_neg]
  intro hupp
  have hle : c.toNat ≤ 'Z'.toNat := UInt32.le_iff_toNat_le.mp hupp.2
  simp only [Char.reduceToNat] at hle
  omega

theorem toLowerCase_eq_headerName (mapping : ServerFraming.CaseMapping) (name : String) :
    mapping.toLowerCase name=mapping.toLowerCase contentLengthHeader ↔
      eqIgnoreAsciiCase name contentLengthHeader=true := by
  rw [eqIgnoreAsciiCase_iff,mapping.toLowerCase_ascii _ headerName_ascii]
  have hlow : ∀ c∈(toAsciiLowercase contentLengthHeader).toList, c.toNat < 128 ∧ c ≠ 'k' := by
    simp [toAsciiLowercase,contentLengthHeader]
  constructor
  · intro h
    have hnam := mapping.ascii_of_toLowerCase name (h ▸ hlow)
    rw [← h,mapping.toLowerCase_ascii name hnam]
  · intro h
    have hnam : ∀ c∈name.toList, c.toNat < 128 := by
      intro c hc
      by_contra hhig
      have hmem : c∈(toAsciiLowercase contentLengthHeader).toList := by
        rw [← h,toAsciiLowercase,String.toList_ofList]
        exact List.mem_map.mpr ⟨c,hc,toLower_of_high (Nat.le_of_not_lt hhig)⟩
      exact hhig (hlow c hmem).1
    rw [mapping.toLowerCase_ascii name hnam,h]

private theorem getLast_bind_cons {value : String} {m : Nat} {values : List String}
    (hval : ServerFraming.contentLengthValue value=some m)
    (hvas : ∀ v∈values, (ServerFraming.contentLengthValue v).isSome) (acc : Option Nat) :
    ((value::values).getLast?.bind ServerFraming.contentLengthValue).or acc =
      (values.getLast?.bind ServerFraming.contentLengthValue).or (some m) := by
  cases hlas : values.getLast? with
  | none =>
    rw [List.getLast?_eq_none_iff.mp hlas,List.getLast?_singleton,Option.bind_some,hval]
    rfl
  | some last =>
    obtain ⟨k,hk⟩ := Option.isSome_iff_exists.mp (hvas last (List.mem_of_getLast? hlas))
    rw [List.getLast?_cons,hlas]
    simp [hk]

theorem readContentLength_server (mapping : ServerFraming.CaseMapping) (lines : List String)
    (acc r : Option Nat) :
    ServerFraming.readContentLength mapping acc lines=.ok r ↔
      ∃ values, namedValues ServerFraming.trim lines=some values ∧
        (∀ value∈values, (ServerFraming.contentLengthValue value).isSome) ∧
        r=(values.getLast?.bind ServerFraming.contentLengthValue).or acc := by
  induction lines generalizing acc with
  | nil =>
    simp only [ServerFraming.readContentLength,namedValues,Except.ok.injEq,Option.some.injEq,
      exists_eq_left',List.not_mem_nil,false_implies,implies_true,List.getLast?_nil,
      Option.bind_none,Option.none_or,true_and]
    exact eq_comm
  | cons line lines ih =>
    rw [ServerFraming.readContentLength,namedValues]
    cases splitOnce line ':' with
    | none => simp
    | some pair =>
      simp only [toLowerCase_eq_headerName]
      by_cases hnam : eqIgnoreAsciiCase (ServerFraming.trim pair.1) contentLengthHeader=true
      · cases hval : ServerFraming.contentLengthValue (ServerFraming.trim pair.2) with
        | none => simp [hnam,hval]
        | some m =>
          simp only [hnam,if_true,ih]
          constructor
          · rintro ⟨values,hvas,hall,rfl⟩
            refine ⟨_,by rw [hvas,Option.map_some],?_,(getLast_bind_cons hval hall acc).symm⟩
            exact List.forall_mem_cons.mpr ⟨by simp [hval],hall⟩
          · rintro ⟨values,hvas,hall,rfl⟩
            obtain ⟨rest,hres,rfl⟩ := Option.map_eq_some_iff.mp hvas
            have hall' := (List.forall_mem_cons.mp hall).2
            exact ⟨rest,hres,hall',getLast_bind_cons hval hall' acc⟩
      · simp [hnam,ih]

theorem ServerHeader.unique {header : List UInt8} {n m : Nat} (hn : ServerHeader header n)
    (hm : ServerHeader header m) : n=m := by
  obtain ⟨values,hval,-,hlas⟩ := hn
  obtain ⟨values',hval',-,hlas'⟩ := hm
  rw [hval,Option.some.injEq] at hval'
  rw [hval',hlas'] at hlas
  exact (Option.some.inj hlas).symm

theorem serverHeader_iff (mapping : ServerFraming.CaseMapping) (header : List UInt8) (n : Nat) :
    ServerFraming.readContentLength mapping none (headerLines (Ecma.textDecode header)) =
      .ok (some n) ↔ ServerHeader header n := by
  rw [readContentLength_server,ServerHeader]
  simp only [Option.or_none]
  constructor
  · rintro ⟨values,hval,hall,hlas⟩
    exact ⟨values,hval,hall,hlas.symm⟩
  · rintro ⟨values,hval,hall,hlas⟩
    exact ⟨values,hval,hall,hlas.symm⟩

theorem maxFrameHeaderBytes_eq : ServerFraming.maxFrameHeaderBytes=30 := by decide

section Server

variable {buf : List UInt8} {i : Nat} {maxFrameBytes : Nat} (mapping : ServerFraming.CaseMapping)

/-- The server finds a terminator within its header bound where the whole buffer has its first. -/
theorem findHeaderEnd_eq_some :
    ServerFraming.findHeaderEnd (buf.take ServerFraming.maxFrameHeaderBytes)=some i ↔
      findSubslice buf headerEnd=some i ∧
        i+headerEnd.length ≤ ServerFraming.maxFrameHeaderBytes := by
  rw [ServerFraming.findHeaderEnd]
  constructor
  · intro h
    have hle := findSubslice_le headerEnd_ne_nil h
    have hbuf := (findSubslice_append headerEnd_ne_nil hle
      (buf.drop ServerFraming.maxFrameHeaderBytes)).mpr h
    rw [List.take_append_drop] at hbuf
    rw [List.length_take] at hle
    exact ⟨hbuf,by omega⟩
  · rintro ⟨h,hbound⟩
    have hle := findSubslice_le headerEnd_ne_nil h
    rw [← List.take_append_drop ServerFraming.maxFrameHeaderBytes buf] at h
    exact (findSubslice_append headerEnd_ne_nil (by rw [List.length_take]; omega) _).mp h

theorem server_unterminated (h : ∀ i, findSubslice buf headerEnd=some i →
    ServerFraming.maxFrameHeaderBytes < i+headerEnd.length) :
    ServerFraming.parseFrame mapping maxFrameBytes buf =
      if ServerFraming.maxFrameHeaderBytes ≤ buf.length then .error .headerExceedsMaxBytes
      else .needMore := by
  have hnone : ServerFraming.findHeaderEnd (buf.take ServerFraming.maxFrameHeaderBytes)=none := by
    rw [Option.eq_none_iff_forall_ne_some]
    intro i hi
    obtain ⟨hfind,hbound⟩ := findHeaderEnd_eq_some.mp hi
    exact absurd (h i hfind) (Nat.not_lt_of_ge hbound)
  rw [ServerFraming.parseFrame,hnone]

variable (hfind : findSubslice buf headerEnd=some i)
  (hbound : i+headerEnd.length ≤ ServerFraming.maxFrameHeaderBytes)

include hfind hbound

theorem server_refuses (h : ∀ n ≤ maxFrameBytes, ¬ ServerHeader (buf.take i) n) :
    ∃ reason, ServerFraming.parseFrame mapping maxFrameBytes buf=.error reason := by
  rw [ServerFraming.parseFrame,findHeaderEnd_eq_some.mpr ⟨hfind,hbound⟩]
  cases hrea : ServerFraming.readContentLength mapping none
      (headerLines (Ecma.textDecode (buf.take i))) with
  | error reason =>
    simp only [hrea]
    exact ⟨reason,rfl⟩
  | ok found =>
    cases found with
    | none =>
      simp only [hrea]
      exact ⟨_,rfl⟩
    | some n =>
      simp only [hrea]
      have hhea := (serverHeader_iff mapping _ n).mp hrea
      have hlar : maxFrameBytes < n := by
        by_contra hle
        exact h n (Nat.le_of_not_lt hle) hhea
      exact ⟨_,if_pos hlar⟩

theorem server_reads {n : Nat} (hn : n ≤ maxFrameBytes) (h : ServerHeader (buf.take i) n) :
    ServerFraming.parseFrame mapping maxFrameBytes buf =
      if (buf.drop (i+headerEnd.length)).length < n then .needMore
      else .complete (Ecma.textDecode ((buf.drop (i+headerEnd.length)).take n))
        (i+headerEnd.length+n) := by
  have hle := findSubslice_le headerEnd_ne_nil hfind
  have hsho : buf.length < i+headerEnd.length+n ↔
      (buf.drop (i+headerEnd.length)).length < n := by
    rw [List.length_drop]
    omega
  rw [ServerFraming.parseFrame,findHeaderEnd_eq_some.mpr ⟨hfind,hbound⟩]
  simp only [(serverHeader_iff mapping _ n).mpr h,if_neg (Nat.not_lt_of_ge hn),hsho,
    List.drop_take,Nat.add_sub_cancel_left]

end Server

/-! ## One length within both bounds

A `Content-Length` line has fifteen characters at least, so a header the server's bound admits has
room for one. Both ends then read the same value, and whatever white space only one of them strips
is no part of a numeral. -/

private theorem splitOnceChars_eq {sep : Char} {cs before after : List Char}
    (h : splitOnceChars sep cs=some (before,after)) : cs=before++sep::after := by
  induction cs generalizing before with
  | nil => simp [splitOnceChars] at h
  | cons c cs ih =>
    rw [splitOnceChars] at h
    by_cases hc : c=sep
    · rw [if_pos hc,Option.some.injEq,Prod.mk.injEq] at h
      rw [← h.1,← h.2,hc,List.nil_append]
    · rw [if_neg hc] at h
      obtain ⟨pair,hpai,heq⟩ := Option.map_eq_some_iff.mp h
      rw [Prod.mk.injEq] at heq
      rw [ih (hpai.trans (congrArg some (Prod.ext rfl heq.2))),← heq.1,List.cons_append]

variable {name raw : String} {line : String}

private theorem splitOnce_eq (h : splitOnce line ':' = some (name,raw)) :
    line.toList=name.toList ++ ':' :: raw.toList := by
  obtain ⟨pair,hpai,heq⟩ := Option.map_eq_some_iff.mp h
  rw [Prod.mk.injEq] at heq
  rw [← heq.1,← heq.2,String.toList_ofList,String.toList_ofList]
  exact splitOnceChars_eq hpai

private theorem namedValues_mem {trimmed : String → String} {lines values : List String}
    (h : namedValues trimmed lines=some values) {value : String} (hval : value∈values) :
    ∃ line∈lines, ∃ name raw, splitOnce line ':' = some (name,raw) ∧
      eqIgnoreAsciiCase (trimmed name) contentLengthHeader=true ∧ trimmed raw=value := by
  induction lines generalizing values with
  | nil =>
    rw [namedValues,Option.some.injEq] at h
    simp [← h] at hval
  | cons line lines ih =>
    rw [namedValues] at h
    cases hspl : splitOnce line ':' with
    | none => simp [hspl] at h
    | some pair =>
      simp only [hspl] at h
      obtain ⟨rest,hres,rfl⟩ := Option.map_eq_some_iff.mp h
      by_cases hnam : eqIgnoreAsciiCase (trimmed pair.1) contentLengthHeader=true
      · rw [if_pos hnam] at hval
        rcases List.mem_cons.mp hval with rfl | hval
        · exact ⟨line,List.mem_cons_self,pair.1,pair.2,hspl,hnam,rfl⟩
        · obtain ⟨found,hfou,hlin⟩ := ih hres hval
          exact ⟨found,List.mem_cons_of_mem _ hfou,hlin⟩
      · rw [if_neg hnam] at hval
        obtain ⟨found,hfou,hlin⟩ := ih hres hval
        exact ⟨found,List.mem_cons_of_mem _ hfou,hlin⟩

private theorem length_stripBy_le (p : Char → Bool) (cs : List Char) :
    (stripBy p cs).length ≤ cs.length := by
  obtain ⟨front,back,hspl,-⟩ := stripBy_split p cs
  have hlen := congrArg List.length hspl
  rw [List.length_append,List.length_append] at hlen
  omega

private theorem length_of_named {p : Char → Bool}
    (hspl : splitOnce line ':' = some (name,raw))
    (hnam : eqIgnoreAsciiCase (String.ofList (stripBy p name.toList)) contentLengthHeader=true) :
    15 ≤ line.toList.length := by
  have hfol := of_decide_eq_true hnam
  have hlen := congrArg List.length hfol
  rw [List.length_map,List.length_map,String.toList_ofList] at hlen
  have hhea : contentLengthHeader.toList.length=14 := by decide
  have hstr := length_stripBy_le p name.toList
  rw [splitOnce_eq hspl,List.length_append,List.length_cons]
  omega

private theorem splitCrLf_length (acc cs : List Char) :
    ((splitCrLf acc cs).map fun line => line.length+2).sum=acc.length+cs.length+2 := by
  fun_induction splitCrLf acc cs with
  | case1 acc => simp
  | case2 acc rest ih =>
    rw [List.map_cons,List.sum_cons,ih]
    simp only [List.length_nil,List.length_cons]
    omega
  | case3 acc c cs _ ih =>
    rw [ih]
    simp only [List.length_append,List.length_cons,List.length_nil]
    omega

private theorem splitCrLf_prepend (c : Char) (acc cs : List Char) :
    ∃ first others, splitCrLf acc cs=first::others ∧
      splitCrLf (c::acc) cs=(c::first)::others := by
  fun_induction splitCrLf acc cs with
  | case1 acc => exact ⟨acc,[],rfl,rfl⟩
  | case2 acc rest _ => exact ⟨acc,splitCrLf [] rest,rfl,rfl⟩
  | case3 acc d ds hbre ih =>
    obtain ⟨first,others,hacc,hcon⟩ := ih
    refine ⟨first,others,hacc,?_⟩
    rw [splitCrLf]
    · exact hcon
    · exact hbre

private theorem long_line_unique {text : String} (htex : text.toList.length ≤ 26) {a b : String}
    (ha : a∈headerLines text) (hb : b∈headerLines text) (hla : 15 ≤ a.toList.length)
    (hlb : 15 ≤ b.toList.length) : a=b := by
  obtain ⟨as,has,rfl⟩ := List.mem_map.mp ha
  obtain ⟨bs,hbs,rfl⟩ := List.mem_map.mp hb
  have hasM := (List.mem_filter.mp has).1
  have hbsM := (List.mem_filter.mp hbs).1
  rw [String.toList_ofList] at hla hlb
  by_contra hne
  have hdis : bs≠as := fun heq => hne (heq ▸ rfl)
  have hsum := splitCrLf_length [] text.toList
  obtain ⟨before,after,hlin⟩ := List.append_of_mem hasM
  have hpar : ∀ part : List (List Char), bs∈part →
      bs.length+2 ≤ (part.map fun line => line.length+2).sum := fun part hmem =>
    List.single_le_sum (by simp) _ (List.mem_map.mpr ⟨bs,hmem,rfl⟩)
  rw [hlin] at hbsM hsum
  simp only [List.map_append,List.map_cons,List.sum_append,List.sum_cons,List.length_nil] at hsum
  rcases List.mem_append.mp hbsM with hmem | hmem
  · have := hpar before hmem
    omega
  · rcases List.mem_cons.mp hmem with heq | hmem
    · exact hdis heq
    · have := hpar after hmem
      omega

private theorem same_value {n m : Nat} (hn : n < 2 ^ 53)
    (hdae : parseUnsigned (2 ^ 64) (trim raw)=some n)
    (hser : ServerFraming.contentLengthValue (ServerFraming.trim raw)=some m) : n=m := by
  obtain ⟨front,back,hspl,hfro,hbac⟩ := stripBy_split isWhitespace raw.toList
  have hnum := Ecma.number_of_parseUnsigned hdae hn
  have htri : (trim raw).toList=stripBy isWhitespace raw.toList := by
    rw [trim,String.toList_ofList]
    rfl
  rw [htri] at hnum
  have hne : stripBy isWhitespace raw.toList≠[] := by
    intro hnil
    have hdig := (digits_of_parseUnsigned hdae).1
    rw [htri,hnil] at hdig
    exact hdig rfl
  have hcor : ∀ c∈stripBy isWhitespace raw.toList, Server.isJsWhitespace c=false := by
    intro c hc
    have hnuc := Ecma.numeric_of_number hnum c hc
    have hhig := hnuc.2
    have hspa := Ecma.isWhitespace_of_numeric hnuc
    simp only [Server.isJsWhitespace,hspa,Bool.false_and,Bool.false_or,beq_eq_false_iff_ne]
    omega
  generalize stripBy isWhitespace raw.toList=core at *
  obtain ⟨left,right,hstr,hlef,hrig⟩ := stripBy_around hne hcor front back
  obtain ⟨left',right',hstr',hlef',hrig'⟩ := stripBy_around hne hcor left right
  have hjs : Server.jsTrim (ServerFraming.trim raw).toList=left'++core++right' := by
    rw [ServerFraming.trim,String.toList_ofList,hspl]
    change stripBy Server.isJsWhitespace (stripBy Server.isJsWhitespace _)=_
    rw [hstr,hstr']
  rw [ServerFraming.contentLengthValue,hjs] at hser
  cases hrea : Ecma.number (left'++core++right') with
  | none =>
    rw [hrea] at hser
    exact absurd hser (by simp)
  | some x =>
    -- what is left around the core is white space, and a numeral has none
    have hpla : ∀ c∈left'++core++right', isWhitespace c=false := fun c hc =>
      Ecma.isWhitespace_of_numeric (Ecma.numeric_of_number hrea c hc)
    have hnil : left'=[] := by
      apply List.eq_nil_iff_forall_not_mem.mpr
      intro c hc
      have hspa := hfro c (hlef c (hlef' c hc))
      rw [hpla c (by simp [hc])] at hspa
      exact absurd hspa (by simp)
    have hnil' : right'=[] := by
      apply List.eq_nil_iff_forall_not_mem.mpr
      intro c hc
      have hspa := hbac c (hrig c (hrig' c hc))
      rw [hpla c (by simp [hc])] at hspa
      exact absurd hspa (by simp)
    rw [hnil,hnil',List.nil_append,List.append_nil,hnum] at hser
    simpa using hser

private theorem byteOrderMark_not_named {cs : List Char}
    (hspl : splitOnce (String.ofList (Ecma.byteOrderMark::cs)) ':' = some (name,raw)) :
    eqIgnoreAsciiCase (trim name) contentLengthHeader=false := by
  have hlin := splitOnce_eq hspl
  rw [String.toList_ofList] at hlin
  have hmar : ∀ c∈[Ecma.byteOrderMark], isWhitespace c=false := by simp [Ecma.byteOrderMark,isWhitespace]
  have hcol : Ecma.byteOrderMark ≠ ':' := by decide
  cases hnam : name.toList with
  | nil =>
    rw [hnam,List.nil_append] at hlin
    exact absurd (List.cons.inj hlin).1 hcol
  | cons c rest =>
    rw [hnam,List.cons_append] at hlin
    obtain ⟨left,right,hstr,hlef,-⟩ := stripBy_around (by simp) hmar [] rest
    have hnil : left=[] := List.eq_nil_iff_forall_not_mem.mpr fun d hd => by simpa using hlef d hd
    have htri : (trim name).toList=Ecma.byteOrderMark::right := by
      rw [trim,String.toList_ofList,hnam,← (List.cons.inj hlin).1]
      change stripBy isWhitespace ([]++[Ecma.byteOrderMark]++rest)=_
      rw [hstr,hnil]
      rfl
    rw [eqIgnoreAsciiCase,htri]
    exact decide_eq_false (by simp [contentLengthHeader,Ecma.byteOrderMark])

private theorem daemonLine_mem {text : String} (hlin : line∈headerLines text)
    (hspl : splitOnce line ':' = some (name,raw))
    (hnam : eqIgnoreAsciiCase (trim name) contentLengthHeader=true) :
    line∈headerLines (Ecma.textDecode (utf8Bytes text)) := by
  by_cases hmar : text.toList.head? = some Ecma.byteOrderMark
  · obtain ⟨cs,hcs⟩ := List.head?_eq_some_iff.mp hmar
    rw [Ecma.textDecode_byteOrderMark hcs,headerLines,String.toList_ofList]
    obtain ⟨first,others,hwit,hwih⟩ := splitCrLf_prepend Ecma.byteOrderMark [] cs
    have hall : splitCrLf [] text.toList=(Ecma.byteOrderMark::first)::others := by
      rw [hcs,splitCrLf]
      · exact hwih
      · intro _ heq
        exact absurd heq (by decide)
    rw [headerLines,hall] at hlin
    obtain ⟨chars,hcha,rfl⟩ := List.mem_map.mp hlin
    obtain ⟨hmem,hne⟩ := List.mem_filter.mp hcha
    rcases List.mem_cons.mp hmem with rfl | hmem
    · rw [byteOrderMark_not_named hspl] at hnam
      exact absurd hnam (by simp)
    · rw [hwit]
      exact List.mem_map.mpr ⟨chars,List.mem_filter.mpr ⟨List.mem_cons_of_mem _ hmem,hne⟩,rfl⟩
  · rw [Ecma.textDecode_utf8Bytes hmar]
    exact hlin

private theorem length_toList_le (s : String) : s.toList.length ≤ (utf8Bytes s).length := by
  rw [utf8Bytes]
  induction s.toList with
  | nil => simp
  | cons c cs ih =>
    have hpos : 0 < (String.utf8EncodeChar c).length := by
      rw [String.length_utf8EncodeChar]
      exact c.utf8Size_pos
    rw [List.flatMap_cons,List.length_append,List.length_cons]
    omega

private theorem length_textDecode_le (text : String) :
    (Ecma.textDecode (utf8Bytes text)).toList.length ≤ text.toList.length := by
  by_cases hmar : text.toList.head? = some Ecma.byteOrderMark
  · obtain ⟨cs,hcs⟩ := List.head?_eq_some_iff.mp hmar
    rw [Ecma.textDecode_byteOrderMark hcs,String.toList_ofList,hcs]
    simp
  · rw [Ecma.textDecode_utf8Bytes hmar]

theorem same_length {header : List UInt8} (hlen : header.length ≤ 26) {n m : Nat}
    (hn : n ≤ maxInboundBodyBytes) (hdae : DaemonHeader header n)
    (hser : ServerHeader header m) : n=m := by
  obtain ⟨text,value,htex,hval,hvae⟩ := hdae
  obtain ⟨values',hval',-,hlas⟩ := hser
  obtain ⟨value',hlas',hvae'⟩ := Option.bind_eq_some_iff.mp hlas
  have hbyt := utf8Bytes_of_decodeUtf8 htex
  obtain ⟨line,hlin,name,raw,hspl,hnam,rfl⟩ := namedValues_mem hval List.mem_cons_self
  obtain ⟨line',hlin',name',raw',hspl',hnam',rfl⟩ :=
    namedValues_mem hval' (List.mem_of_getLast? hlas')
  have hmem := daemonLine_mem hlin hspl hnam
  rw [hbyt] at hmem
  have hsho : (Ecma.textDecode header).toList.length ≤ 26 := by
    have hdec := length_textDecode_le text
    have hcha := length_toList_le text
    rw [hbyt] at hdec hcha
    omega
  have hsam : line=line' :=
    long_line_unique hsho hmem hlin' (length_of_named hspl hnam)
      (length_of_named hspl' hnam')
  rw [← hsam,hspl,Option.some.injEq,Prod.mk.injEq] at hspl'
  rw [← hspl'.2] at hvae'
  apply same_value _ hvae hvae'
  simp only [maxInboundBodyBytes] at hn
  omega

theorem body_alike (rest : List UInt8) (n consumed : Nat) :
    Alike
      (if rest.length < n then .needMore
        else
          match decodeUtf8 (rest.take n) with
          | none => .error "body is not valid UTF-8"
          | some body => .complete body consumed)
      (if rest.length < n then .needMore
        else .complete (Ecma.textDecode (rest.take n)) consumed) ↔ Legible rest n := by
  by_cases hsho : rest.length < n
  · simp only [if_pos hsho,Alike,Legible,true_iff]
    intro hle
    omega
  · have hle := Nat.le_of_not_lt hsho
    simp only [if_neg hsho,Legible,hle,true_implies]
    cases hbod : decodeUtf8 (rest.take n) with
    | none => simp [Alike]
    | some body =>
      have hbyt : rest.take n=utf8Bytes body := (utf8Bytes_of_decodeUtf8 hbod).symm
      simp only [Alike,and_true,Option.some.injEq,exists_eq_left',hbyt]
      constructor
      · intro heq hmar
        obtain ⟨cs,hcs⟩ := List.head?_eq_some_iff.mp hmar
        rw [Ecma.textDecode_byteOrderMark hcs] at heq
        have hlen := congrArg String.toList heq
        rw [String.toList_ofList,hcs] at hlen
        exact absurd (congrArg List.length hlen) (by simp)
      · intro hmar
        rw [Ecma.textDecode_utf8Bytes hmar]

section Terminated

variable {buf : List UInt8} {i maxFrameBytes : Nat} (mapping : ServerFraming.CaseMapping)
  (hfind : findSubslice buf headerEnd=some i) (hbound : i+headerEnd.length ≤ maxHeaderBytes)

include hfind hbound

/-- Where the server refuses, the daemon has to: it takes no length, or the body is garbled. -/
theorem refused_alike (reason : ServerFraming.FramingError) :
    Alike (parseFrame buf) (.error reason) ↔
      ∀ n ≤ maxInboundBodyBytes, DaemonHeader (buf.take i) n →
        Garbled (buf.drop (i+headerEnd.length)) n := by
  by_cases hsom : ∃ n ≤ maxInboundBodyBytes, DaemonHeader (buf.take i) n
  · obtain ⟨n,hn,hhea⟩ := hsom
    have hrea := daemon_reads hfind hbound hn hhea
    have hiff : Alike (parseFrame buf) (.error reason) ↔
        Garbled (buf.drop (i+headerEnd.length)) n := by
      rw [hrea,Garbled]
      by_cases hsho : (buf.drop (i+headerEnd.length)).length < n
      · simp only [if_pos hsho,Alike,false_iff]
        omega
      · rw [if_neg hsho]
        cases decodeUtf8 ((buf.drop (i+headerEnd.length)).take n) with
        | none => simpa [Alike] using Nat.le_of_not_lt hsho
        | some body => simp [Alike]
    rw [hiff]
    constructor
    · intro hgar m _ hm
      rw [DaemonHeader.unique hm hhea]
      exact hgar
    · intro h
      exact h n hn hhea
  · have hnone : ∀ n ≤ maxInboundBodyBytes, ¬ DaemonHeader (buf.take i) n :=
      fun n hn hhea => hsom ⟨n,hn,hhea⟩
    obtain ⟨found,hfou⟩ := daemon_refuses hfind hnone
    rw [hfou]
    simp only [Alike,true_iff]
    intro n hn hhea
    exact absurd hhea (hnone n hn)

theorem header_alike (hser : i+headerEnd.length ≤ ServerFraming.maxFrameHeaderBytes) :
    Alike (parseFrame buf) (ServerFraming.parseFrame mapping maxFrameBytes buf) ↔
      (∀ n ≤ maxInboundBodyBytes, DaemonHeader (buf.take i) n →
        ServerHeader (buf.take i) n ∧ n ≤ maxFrameBytes ∧
            Legible (buf.drop (i+headerEnd.length)) n ∨
          Garbled (buf.drop (i+headerEnd.length)) n ∧
            ∀ m ≤ maxFrameBytes, ¬ ServerHeader (buf.take i) m) ∧
      ∀ n ≤ maxFrameBytes, ServerHeader (buf.take i) n →
        DaemonHeader (buf.take i) n ∧ n ≤ maxInboundBodyBytes := by
  by_cases hsom : ∃ n ≤ maxFrameBytes, ServerHeader (buf.take i) n
  · obtain ⟨n,hn,hhea⟩ := hsom
    have hred := server_reads mapping hfind hser hn hhea
    rw [hred]
    by_cases hdae : DaemonHeader (buf.take i) n ∧ n ≤ maxInboundBodyBytes
    · rw [daemon_reads hfind hbound hdae.2 hdae.1,body_alike]
      constructor
      · intro hleg
        refine ⟨?_,?_⟩
        · intro m _ hm
          rw [DaemonHeader.unique hm hdae.1]
          exact Or.inl ⟨hhea,hn,hleg⟩
        · intro m _ hm
          rw [ServerHeader.unique hm hhea]
          exact hdae
      · intro h
        rcases h.1 n hdae.2 hdae.1 with h | h
        · exact h.2.2
        · exact absurd hhea (h.2 n hn)
    · constructor
      · -- a length the daemon takes would be the server's, so it takes none and refuses
        intro hali
        exfalso
        have hnone : ∀ m ≤ maxInboundBodyBytes, ¬ DaemonHeader (buf.take i) m := by
          intro m hm hoth
          have hsiz : (buf.take i).length ≤ 26 := by
            have hthi := maxFrameHeaderBytes_eq
            have hfou : headerEnd.length=4 := rfl
            rw [List.length_take]
            omega
          have heq := same_length hsiz hm hoth hhea
          exact hdae ⟨heq ▸ hoth,heq ▸ hm⟩
        obtain ⟨reason,hrea⟩ := daemon_refuses hfind hnone
        rw [hrea] at hali
        split_ifs at hali <;> exact hali
      · intro h
        exact absurd (h.2 n hn hhea) hdae
  · have hnone : ∀ n ≤ maxFrameBytes, ¬ ServerHeader (buf.take i) n :=
      fun n hn hhea => hsom ⟨n,hn,hhea⟩
    obtain ⟨reason,hrea⟩ := server_refuses mapping hfind hser hnone
    rw [hrea,refused_alike hfind hbound]
    constructor
    · intro h
      refine ⟨?_,?_⟩
      · intro n hn hhea
        exact Or.inr ⟨h n hn hhea,hnone⟩
      · intro n hn hhea
        exact absurd hhea (hnone n hn)
    · intro h n hn hhea
      rcases h.1 n hn hhea with h | h
      · exact absurd h.1 (hnone n h.2.1)
      · exact h.1

end Terminated

theorem framing_parity_iff (mapping : ServerFraming.CaseMapping) (maxFrameBytes : Nat)
    (buf : List UInt8) :
    Alike (parseFrame buf) (ServerFraming.parseFrame mapping maxFrameBytes buf) ↔
      FramedAlike maxFrameBytes buf := by
  have hthi := maxFrameHeaderBytes_eq
  rw [FramedAlike]
  cases hfind : findSubslice buf headerEnd with
  | none =>
    rw [server_unterminated mapping (by simp [hfind]),parseFrame,hfind]
    simp only [hthi]
    by_cases hlon : buf.length ≤ maxHeaderBytes
    · rw [if_pos hlon]
      by_cases hsho : buf.length < 30
      · rw [if_neg (Nat.not_le_of_gt hsho)]
        simp [Alike,hsho]
      · rw [if_pos (Nat.le_of_not_lt hsho)]
        simp [Alike,hsho,hlon]
    · have hpas : 30 ≤ buf.length := by
        simp only [maxHeaderBytes] at hlon
        omega
      rw [if_neg hlon,if_pos hpas]
      simp [Alike,Nat.lt_of_not_le hlon]
  | some i =>
    have hle := findSubslice_le headerEnd_ne_nil hfind
    simp only
    by_cases hdae : maxHeaderBytes < i+headerEnd.length
    · have hser : ServerFraming.maxFrameHeaderBytes < i+headerEnd.length := by
        simp only [maxHeaderBytes] at hdae
        omega
      rw [server_unterminated mapping (by simp [hfind,hser]),parseFrame,hfind]
      simp only [if_pos hdae,if_pos (show ServerFraming.maxFrameHeaderBytes ≤ buf.length by omega),
        Alike]
    · rw [if_neg hdae]
      have hbound := Nat.le_of_not_lt hdae
      by_cases hser : ServerFraming.maxFrameHeaderBytes < i+headerEnd.length
      · rw [if_pos hser,server_unterminated mapping (by simp [hfind,hser]),
          if_pos (show ServerFraming.maxFrameHeaderBytes ≤ buf.length by omega)]
        exact refused_alike hfind hbound _
      · rw [if_neg hser]
        exact header_alike mapping hfind hbound (Nat.le_of_not_lt hser)

private theorem toLowerCase_of_ascii (s : String) (_ : ∀ c∈s.toList, c.toNat < 128) :
    toAsciiLowercase s=toAsciiLowercase s := rfl

private theorem ascii_of_toAsciiLowercase (s : String)
    (h : ∀ c∈(toAsciiLowercase s).toList, c.toNat < 128 ∧ c ≠ 'k') : ∀ c∈s.toList, c.toNat < 128 := by
  intro c hc
  by_contra hhigh
  have hmem : c∈(toAsciiLowercase s).toList := by
    rw [toAsciiLowercase,String.toList_ofList]
    exact List.mem_map.mpr ⟨c,hc,toLower_of_high (Nat.le_of_not_lt hhigh)⟩
  exact hhigh (h c hmem).1

/-- Case mapping of texts that are ASCII; every other character is its own lower case. -/
def asciiMapping : ServerFraming.CaseMapping where
  toLowerCase := toAsciiLowercase
  toLowerCase_ascii := toLowerCase_of_ascii
  ascii_of_toLowerCase := ascii_of_toAsciiLowercase

def hexHeader : String := "Content-Length: 0x2"

def hexFrame : List UInt8 := utf8Bytes hexHeader++headerEnd++utf8Bytes "ok"

private theorem hexHeader_server : ServerHeader (utf8Bytes hexHeader) 2 := by
  have hdec : Ecma.textDecode (utf8Bytes hexHeader)=hexHeader :=
    Ecma.textDecode_utf8Bytes (by decide)
  have hval : namedValues ServerFraming.trim (headerLines hexHeader)=some ["0x2"] := by decide
  have hnum : Ecma.number (Server.jsTrim "0x2".toList)=some ((2 : ℕ) : ℚ) :=
    Binary64.nearest_natCast (by decide)
  have hvae : ServerFraming.contentLengthValue "0x2" = some 2 := by
    rw [ServerFraming.contentLengthValue,hnum]
    rfl
  refine ⟨["0x2"],by rw [hdec,hval],?_,?_⟩
  · simp [hvae]
  · exact hvae

private theorem hexHeader_daemon (n : Nat) : ¬ DaemonHeader (utf8Bytes hexHeader) n := by
  rintro ⟨text,value,htex,hval,hvae⟩
  rw [decodeUtf8_utf8Bytes,Option.some.injEq] at htex
  have hfou : namedValues trim (headerLines hexHeader)=some ["0x2"] := by decide
  rw [← htex,hfou,Option.some.injEq,List.cons.injEq] at hval
  have hnone : parseUnsigned (2 ^ 64) "0x2" = none := by decide
  rw [← hval.1,hnone] at hvae
  exact absurd hvae (by simp)

theorem hex_length_framed_apart :
    (∃ reason, parseFrame hexFrame=.error reason) ∧
    ServerFraming.parseFrame asciiMapping (16 * 1024 * 1024) hexFrame=.complete "ok" 25 ∧
    ¬ Alike (parseFrame hexFrame)
      (ServerFraming.parseFrame asciiMapping (16 * 1024 * 1024) hexFrame) := by
  have hfind : findSubslice hexFrame headerEnd=some (utf8Bytes hexHeader).length :=
    findSubslice_headerEnd (by decide) _
  have htak : hexFrame.take (utf8Bytes hexHeader).length=utf8Bytes hexHeader := by
    rw [hexFrame,List.append_assoc,List.take_left]
  have hdae := daemon_refuses hfind (by rw [htak]; exact fun n _ => hexHeader_daemon n)
  have hser := @server_reads hexFrame _ (16 * 1024 * 1024) asciiMapping hfind (by decide) 2
    (by decide) (htak.symm ▸ hexHeader_server)
  have hbod : hexFrame.drop ((utf8Bytes hexHeader).length+headerEnd.length)=utf8Bytes "ok" := by
    rw [hexFrame,← List.length_append,List.drop_left]
  have hrea : ServerFraming.parseFrame asciiMapping (16 * 1024 * 1024) hexFrame =
      .complete "ok" 25 := by
    rw [hser,hbod]
    decide
  obtain ⟨reason,hren⟩ := hdae
  refine ⟨⟨reason,hren⟩,hrea,?_⟩
  rw [hren,hrea]
  exact fun h => h

end CastleWall.Ipc
