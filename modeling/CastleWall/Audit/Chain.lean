import CastleWall.Audit.Reference
import CastleWall.Support.HashChain

/-! # The chain of rows

What the row check accepts, stated over the rows before it, and the replay of a whole file. A file's
final chain hash commits to the events it holds. -/

namespace CastleWall.Audit

open Text Outcome

section Chain

variable {env : WalEnv}

theorem sha256Hex_injective {x y : List UInt8} (h : sha256Hex env x=sha256Hex env y) :
    env.sha256 x=env.sha256 y := by
  have hcha := congrArg String.toList h
  rw [sha256Hex,sha256Hex,String.toList_ofList,String.toList_ofList] at hcha
  exact Vector.toList_inj.mp (Json.hexPairs_injective hcha)

private theorem hexChar_isLowercaseHex : ∀ n < 16,
    isLowercaseHex (Json.hexChar n)=true ∧ (String.utf8EncodeChar (Json.hexChar n)).length=1 := by
  decide

private theorem flatMap_hexByte_canonical (bytes : List UInt8) :
    (∀ c∈bytes.flatMap hexByte, isLowercaseHex c=true) ∧
      ((bytes.flatMap hexByte).flatMap String.utf8EncodeChar).length=2 * bytes.length := by
  induction bytes with
  | nil => simp
  | cons b bytes ih =>
    have hhi := hexChar_isLowercaseHex (b.toNat / 16) (by have := b.toNat_lt; omega)
    have hlo := hexChar_isLowercaseHex (b.toNat % 16) (by omega)
    constructor
    · rw [List.flatMap_cons,List.forall_mem_append]
      refine ⟨?_,ih.1⟩
      simp only [hexByte,List.forall_mem_cons]
      exact ⟨hhi.1,hlo.1,by simp⟩
    · rw [List.flatMap_cons,List.flatMap_append,List.length_append,ih.2]
      simp only [hexByte,List.flatMap_cons,List.flatMap_nil,List.length_append,List.length_nil,
        hhi.2,hlo.2,List.length_cons]
      omega

theorem isCanonicalLowercaseSha256Hex_sha256Hex (bytes : List UInt8) :
    isCanonicalLowercaseSha256Hex (sha256Hex env bytes)=true := by
  obtain ⟨hall,hlen⟩ := flatMap_hexByte_canonical (env.sha256 bytes).toList
  rw [isCanonicalLowercaseSha256Hex,sha256Hex,utf8Bytes_ofList,String.toList_ofList,
    Bool.and_eq_true,beq_iff_eq,List.all_eq_true,hlen,Vector.length_toList]
  exact ⟨rfl,hall⟩

/-- The event is a canonical object whose details repeat the chain fields of its row. -/
def BindsChain (env : WalEnv) (event : String) (seq : Nat) (prior : Option String) : Prop :=
  ∃ object details, env.valueFromStr event=.ok (.obj object) ∧
    (Json.obj object).canonicalText=event ∧ object.lookup "details" = some (.obj details) ∧
    (details.lookup "seq").bind asU64=some seq ∧
    details.lookup "prior_sha256_hex" = some (priorField prior)

theorem BindsChain.unique {event : String} {seq seq' : Nat} {prior prior' : Option String}
    (h : BindsChain env event seq prior) (h' : BindsChain env event seq' prior') :
    seq=seq' ∧ prior=prior' := by
  obtain ⟨object,details,hval,-,hdet,hseq,hpri⟩ := h
  obtain ⟨object',details',hval',-,hdet',hseq',hpri'⟩ := h'
  obtain rfl : object=object' := Json.obj.inj (Except.ok.inj (hval.symm.trans hval'))
  obtain rfl : details=details' := Json.obj.inj (Option.some.inj (hdet.symm.trans hdet'))
  refine ⟨Option.some.inj (hseq.symm.trans hseq'),?_⟩
  have hjso : priorField prior=priorField prior' := Option.some.inj (hpri.symm.trans hpri')
  cases prior with
  | none =>
    cases prior' with
    | none => rfl
    | some hash' => exact absurd hjso (by simp [priorField])
  | some hash =>
    cases prior' with
    | none => exact absurd hjso (by simp [priorField])
    | some hash' => exact congrArg some (Json.str.inj hjso)

structure AcceptedEntry (env : WalEnv) (e : WalEntry) : Prop where
  seq_lt : e.seq+1 < 2 ^ 64
  prior_hex : ∀ prior∈e.priorSha256Hex, isCanonicalLowercaseSha256Hex prior=true
  binds : BindsChain env e.eventCanonicalJson e.seq e.priorSha256Hex

def OpensFile (e : WalEntry) : Prop :=
  (e.seq=0 ∧ e.priorSha256Hex=none) ∨
    (e.seq≠0 ∧ e.priorSha256Hex.isSome=true ∧ e.ackedAnchor=true)

def Follows (env : WalEnv) (a b : WalEntry) : Prop :=
  b.ackedAnchor=false ∧ b.seq=a.seq+1 ∧ b.priorSha256Hex=some (chainHash env a)

def Extends (env : WalEnv) (rows : List WalEntry) (e : WalEntry) : Prop :=
  match rows.getLast? with
  | none => OpensFile e
  | some last => Follows env last e

def fileBytes (rows : List WalEntry) : List UInt8 := rows.flatMap fun e => walRowBytes e.text

def stateAfter (env : WalEnv) (rows : List WalEntry) : WalValidationState :=
  { previousSeq := rows.getLast?.map WalEntry.seq
    nextSeq := (rows.getLast?.map fun e => e.seq+1).getD 0
    lastChainHash := rows.getLast?.map (chainHash env)
    bytes := (fileBytes rows).length }

theorem fileBytes_append (as bs : List WalEntry) : fileBytes (as++bs)=fileBytes as++fileBytes bs :=
  List.flatMap_append

theorem fileBytes_singleton (e : WalEntry) : fileBytes [e]=walRowBytes e.text :=
  List.flatMap_singleton _ _

variable {b lineNum : Nat} {a : Nat}

private theorem checkedAdd_eq_some {n : Nat} :
    checkedAdd a b=some n ↔ a+b < 2 ^ 64 ∧ n=a+b := by
  unfold checkedAdd
  by_cases h : a+b < 2 ^ 64
  · rw [if_pos h,Option.some.injEq]
    exact ⟨fun hn => ⟨h,hn.symm⟩,fun hn => hn.2.symm⟩
  · rw [if_neg h]
    exact ⟨fun hn => absurd hn (by simp),fun hn => absurd hn.1 h⟩

private theorem checkedAdd_eq_none (h : ¬ a+b < 2 ^ 64) : checkedAdd a b=none := by
  unfold checkedAdd
  rw [if_neg h]

private theorem checkLink_first (lineNum : Nat) (e : WalEntry) :
    checkLink (stateAfter env []) lineNum e=.ok () ↔ OpensFile e := by
  obtain ⟨seq,captured,prior,event,critical,anchor⟩ := e
  cases seq with
  | zero => cases prior <;> simp [checkLink,stateAfter,OpensFile]
  | succ seq => cases prior <;> cases anchor <;> simp [checkLink,stateAfter,OpensFile]

variable {rows : List WalEntry} {e : WalEntry}

private theorem checkLink_next {last : WalEntry}
    (hlas : rows.getLast? = some last) (lineNum : Nat) (hseq : e.seq < 2 ^ 64) :
    checkLink (stateAfter env rows) lineNum e=.ok () ↔ Follows env last e := by
  simp only [checkLink,stateAfter,hlas,Option.map_some,Follows]
  cases e.ackedAnchor with
  | true => simp
  | false =>
    by_cases hfit : last.seq+1 < 2 ^ 64
    · rw [checkedAdd_eq_some.mpr ⟨hfit,rfl⟩]
      by_cases hnex : e.seq=last.seq+1
      · by_cases hpri : e.priorSha256Hex=some (chainHash env last) <;> simp [hnex,hpri]
      · simp [hnex]
    · -- The number after the last one does not fit, so no row can carry it.
      have hnone : checkedAdd last.seq 1=none := checkedAdd_eq_none hfit
      simp only [hnone,Bool.false_eq_true,if_false,reduceCtorEq,true_and,false_iff]
      intro h
      omega

theorem checkLink_iff (rows : List WalEntry) (lineNum : Nat) (hseq : e.seq < 2 ^ 64) :
    checkLink (stateAfter env rows) lineNum e=.ok () ↔ Extends env rows e := by
  unfold Extends
  cases hlas : rows.getLast? with
  | none =>
    rw [List.getLast?_eq_none_iff.mp hlas]
    exact checkLink_first lineNum e
  | some last => exact checkLink_next hlas lineNum hseq

private theorem eventDetails_ok {event : String} {details : List (String × Json)} :
    eventDetails env lineNum event=.ok details ↔
      ∃ object, env.valueFromStr event=.ok (.obj object) ∧
        (Json.obj object).canonicalText=event ∧ object.lookup "details" = some (.obj details) := by
  unfold eventDetails
  cases hval : env.valueFromStr event with
  | error err => simp
  | ok value =>
    cases value with
    | obj object =>
      simp only [asObject]
      by_cases hcan : (Json.obj object).canonicalText=event
      · rw [if_neg (not_not.mpr hcan)]
        cases hdet : object.lookup "details" with
        | none => simp [hdet]
        | some d =>
          cases d <;> simp [asObject,hcan,hdet]
      · rw [if_pos hcan]
        simp [hcan]
    | _ => simp [asObject]

private theorem checkChainFields_ok {details : List (String × Json)} :
    checkChainFields lineNum e details=.ok () ↔
      (details.lookup "seq").bind asU64=some e.seq ∧
        details.lookup "prior_sha256_hex" = some (priorField e.priorSha256Hex) := by
  unfold checkChainFields
  cases hseq : (details.lookup "seq").bind asU64 with
  | none => simp
  | some seq =>
    by_cases heq : seq=e.seq
    · subst heq
      cases hpri : details.lookup "prior_sha256_hex" with
      | none => simp
      | some d =>
        cases he : e.priorSha256Hex with
        | none => cases d <;> simp [priorField]
        | some hash => cases d <;> simp [priorField,eq_comm]
    · simp [heq]

private theorem checkPriorHash_ok :
    checkPriorHash e=.ok () ↔
      ∀ prior∈e.priorSha256Hex, isCanonicalLowercaseSha256Hex prior=true := by
  unfold checkPriorHash
  cases e.priorSha256Hex with
  | none => simp
  | some prior => by_cases h : isCanonicalLowercaseSha256Hex prior=true <;> simp [h]

private theorem checkedAdd_bind {c : Nat} (h : a+b+c < 2 ^ 64) :
    (checkedAdd a b).bind (checkedAdd · c)=some (a+b+c) := by
  rw [checkedAdd_eq_some.mpr ⟨by omega,rfl⟩]
  exact checkedAdd_eq_some.mpr ⟨h,rfl⟩

theorem length_fileBytes_concat (rows : List WalEntry) (e : WalEntry) :
    (fileBytes (rows++[e])).length=(fileBytes rows).length+(utf8Bytes e.text).length+1 := by
  rw [fileBytes_append,fileBytes_singleton,walRowBytes,List.length_append,List.length_append,
    List.length_singleton,Nat.add_assoc]

variable {state : WalValidationState}

private theorem advance_ok :
    advance env (stateAfter env rows) lineNum e.text e=.ok state ↔
      e.seq+1 < 2 ^ 64 ∧ (fileBytes (rows++[e])).length < 2 ^ 64 ∧
        state=stateAfter env (rows++[e]) := by
  have haft : stateAfter env (rows++[e]) =
      { previousSeq := some e.seq, nextSeq := e.seq+1, lastChainHash := some (chainHash env e),
        bytes := (fileBytes rows).length+(utf8Bytes e.text).length+1 } := by
    simp only [stateAfter,List.getLast?_concat,Option.map_some,Option.getD_some,
      length_fileBytes_concat]
  rw [haft,length_fileBytes_concat]
  have hcou : (stateAfter env rows).bytes=(fileBytes rows).length := rfl
  unfold advance
  rw [hcou]
  by_cases hseq : e.seq+1 < 2 ^ 64
  · rw [checkedAdd_eq_some.mpr ⟨hseq,rfl⟩]
    by_cases hbyt : (fileBytes rows).length+(utf8Bytes e.text).length+1 < 2 ^ 64
    · simp only [checkedAdd_bind hbyt,Except.ok.injEq]
      exact ⟨fun h => ⟨hseq,hbyt,h.symm⟩,fun h => h.2.2.symm⟩
    · have hnone : (checkedAdd (fileBytes rows).length (utf8Bytes e.text).length).bind
          (checkedAdd · 1)=none := by
        rw [Option.bind_eq_none_iff]
        intro n hn
        rw [(checkedAdd_eq_some.mp hn).2]
        exact checkedAdd_eq_none hbyt
      simp only [hnone,reduceCtorEq,false_iff]
      exact fun h => hbyt h.2.1
  · have hnone : checkedAdd e.seq 1=none := checkedAdd_eq_none hseq
    simp only [hnone,reduceCtorEq,false_iff]
    exact fun h => hseq h.1

private theorem parseRow_ok {line : String}
    (h : parseRow env lineNum line=.ok e) : env.entryFromStr line=.ok e ∧ e.text=line := by
  unfold parseRow at h
  split_ifs at h with hemp
  split at h
  · exact absurd h (by simp)
  · rename_i entry hrea
    split_ifs at h with htex
    obtain rfl := Except.ok.inj h
    exact ⟨hrea,not_not.mp htex⟩

theorem validateWalLine_ok {line : String}
    (h : validateWalLine env line lineNum (stateAfter env rows)=.ok (e,state)) :
    env.entryFromStr line=.ok e ∧ AcceptedEntry env e ∧ Extends env rows e ∧
      state=stateAfter env (rows++[e]) := by
  unfold validateWalLine at h
  obtain ⟨entry,hpar,h⟩ := bind_ok h
  obtain ⟨_,hhex,h⟩ := bind_ok h
  obtain ⟨_,hlin,h⟩ := bind_ok h
  obtain ⟨details,hdet,h⟩ := bind_ok h
  obtain ⟨_,hfie,h⟩ := bind_ok h
  obtain ⟨next,hnex,h⟩ := bind_ok h
  cases h
  obtain ⟨hrea,rfl⟩ := parseRow_ok hpar
  obtain ⟨hseq,-,hsta⟩ := advance_ok.mp hnex
  obtain ⟨object,hval,hcan,hobj⟩ := eventDetails_ok.mp hdet
  obtain ⟨hinn,hpri⟩ := checkChainFields_ok.mp hfie
  exact ⟨hrea,
    { seq_lt := hseq
      prior_hex := checkPriorHash_ok.mp hhex
      binds := ⟨object,details,hval,hcan,hobj,hinn,hpri⟩ },
    (checkLink_iff rows lineNum (by omega)).mp hlin,hsta⟩

private theorem parseRow_text (hlaw : env.Lawful) (lineNum : Nat) (hran : e.InRange) :
    parseRow env lineNum e.text=.ok e := by
  have hne : e.text.isEmpty=false := by
    rw [Bool.eq_false_iff,Ne,String.isEmpty_iff]
    intro hemp
    have hcha := congrArg String.toList hemp
    rw [WalEntry.text,String.toList_ofList] at hcha
    exact absurd hcha (List.cons_ne_nil _ _)
  unfold parseRow
  rw [hne,hlaw.entry_of_text e hran]
  simp

theorem validateWalLine_text (hlaw : env.Lawful) (lineNum : Nat)
    (hent : AcceptedEntry env e) (hcap : e.capturedAtUnixMs < 2 ^ 64)
    (hext : Extends env rows e) (hbyt : (fileBytes (rows++[e])).length < 2 ^ 64) :
    validateWalLine env e.text lineNum (stateAfter env rows) =
      .ok (e,stateAfter env (rows++[e])) := by
  have hseq : e.seq < 2 ^ 64 := by have := hent.seq_lt; omega
  obtain ⟨object,details,hval,hcan,hobj,hinn,hpri⟩ := hent.binds
  unfold validateWalLine
  rw [parseRow_text hlaw lineNum ⟨hseq,hcap⟩]
  simp only [bind,Except.bind,checkPriorHash_ok.mpr hent.prior_hex,
    (checkLink_iff rows lineNum hseq).mpr hext,
    eventDetails_ok.mpr ⟨object,hval,hcan,hobj⟩,
    checkChainFields_ok.mpr ⟨hinn,hpri⟩,
    advance_ok.mpr ⟨hent.seq_lt,hbyt,rfl⟩]

structure WellChained (env : WalEnv) (rows : List WalEntry) : Prop where
  accepted : ∀ e∈rows, AcceptedEntry env e
  opens : ∀ e∈rows.head?, OpensFile e
  follows : rows.IsChain (Follows env)

theorem wellChained_nil : WellChained env [] where
  accepted := by simp
  opens := by simp
  follows := List.isChain_nil

theorem wellChained_concat :
    WellChained env (rows++[e]) ↔ WellChained env rows ∧ AcceptedEntry env e ∧ Extends env rows e := by
  cases hlas : rows.getLast? with
  | none =>
    rw [List.getLast?_eq_none_iff.mp hlas]
    constructor
    · intro h
      exact ⟨wellChained_nil,h.accepted e (by simp),h.opens e (by simp)⟩
    · intro h
      exact ⟨by simpa using h.2.1,by simpa using (show OpensFile e from h.2.2),by simp⟩
  | some last =>
    have hext : Extends env rows e ↔ Follows env last e := by
      rw [Extends,hlas]
    have hne : rows≠[] := by
      intro hnil
      rw [hnil] at hlas
      exact absurd hlas (by simp)
    rw [hext]
    constructor
    · intro h
      have hcha := List.isChain_append.mp h.follows
      refine ⟨⟨fun x hx => h.accepted x (List.mem_append_left _ hx),?_,hcha.1⟩,
        h.accepted e (by simp),hcha.2.2 last hlas e (by simp)⟩
      rw [← List.head?_append_of_ne_nil _ hne]
      exact h.opens
    · intro h
      refine ⟨?_,?_,?_⟩
      · rw [List.forall_mem_append]
        exact ⟨h.1.accepted,by simpa using h.2.1⟩
      · rw [List.head?_append_of_ne_nil _ hne]
        exact h.1.opens
      · refine List.isChain_append.mpr ⟨h.1.follows,List.isChain_singleton e,?_⟩
        intro x hx y hy
        rw [hlas] at hx
        obtain rfl := Option.some.inj hx
        obtain rfl : e=y := by simpa using hy
        exact h.2.2

theorem WellChained.left {as bs : List WalEntry} (h : WellChained env (as++bs)) :
    WellChained env as where
  accepted := fun e he => h.accepted e (List.mem_append_left _ he)
  opens := by
    intro e he
    apply h.opens e
    cases as with
    | nil => exact absurd he (by simp)
    | cons a as => exact he
  follows := (List.isChain_append.mp h.follows).1

/-- A replay that succeeds has read every line as a row and found the rows well chained. -/
theorem replayLines_ok (hrow : WellChained env rows) {index : Nat}
    {lines : List String}
    (h : replayLines env index (stateAfter env rows) lines=.ok state) :
    WellChained env (rows++lines.filterMap (readEntry env)) ∧
      state=stateAfter env (rows++lines.filterMap (readEntry env)) := by
  induction lines generalizing index rows with
  | nil =>
    rw [List.filterMap_nil,List.append_nil]
    exact ⟨hrow,(Except.ok.inj h).symm⟩
  | cons line lines ih =>
    rw [replayLines] at h
    split at h
    · exact absurd h (by simp)
    · rename_i e next hlin
      obtain ⟨hrea,hacc,hext,rfl⟩ := validateWalLine_ok hlin
      have htai := ih (wellChained_concat.mpr ⟨hrow,hacc,hext⟩) h
      have hhea : readEntry env line=some e := by
        rw [readEntry,hrea]
        rfl
      rw [List.filterMap_cons_some hhea]
      rwa [List.append_assoc,List.singleton_append] at htai

theorem stateAfter_nil : stateAfter env []=WalValidationState.default := rfl

theorem replayExisting_ok {contents : String} {n : Nat} {hash : Option String}
    (h : replayExisting env contents=.ok (n,hash,b)) :
    WellChained env (storedRows env contents) ∧
      hash=(storedRows env contents).getLast?.map (chainHash env) := by
  unfold replayExisting at h
  split at h
  · exact absurd h (by simp)
  · rename_i state hsta
    obtain ⟨hrow,rfl⟩ := replayLines_ok wellChained_nil hsta
    rw [List.nil_append] at hrow h
    cases h
    exact ⟨hrow,rfl⟩

theorem replayLines_texts (hlaw : env.Lawful) (more : List WalEntry) :
    ∀ (index : Nat) (rows : List WalEntry), WellChained env (rows++more) →
      (∀ e∈more, e.capturedAtUnixMs < 2 ^ 64) → (fileBytes (rows++more)).length < 2 ^ 64 →
      replayLines env index (stateAfter env rows) (more.map WalEntry.text) =
        .ok (stateAfter env (rows++more)) := by
  induction more with
  | nil =>
    intro index rows _ _ _
    rw [List.append_nil]
    rfl
  | cons e more ih =>
    intro index rows hrow hcap hbyt
    obtain ⟨hhea,htai⟩ := List.forall_mem_cons.mp hcap
    rw [← List.singleton_append,← List.append_assoc] at hrow hbyt ⊢
    obtain ⟨-,hacc,hext⟩ := wellChained_concat.mp hrow.left
    have hfir : (fileBytes (rows++[e])).length < 2 ^ 64 := by
      rw [fileBytes_append,List.length_append] at hbyt
      omega
    rw [List.map_append,List.map_singleton,List.singleton_append,replayLines,
      validateWalLine_text hlaw _ hacc hhea hext hfir]
    exact ih (index+1) (rows++[e]) hrow htai hbyt

def fileText (rows : List WalEntry) : String :=
  String.ofList (rows.flatMap fun e => e.text.toList++['\n'])

theorem utf8Bytes_fileText (rows : List WalEntry) : utf8Bytes (fileText rows)=fileBytes rows := by
  have hnew : ['\n'].flatMap String.utf8EncodeChar=[10] := by decide
  unfold fileText fileBytes
  rw [utf8Bytes_ofList]
  induction rows with
  | nil => rfl
  | cons e rows ih =>
    rw [List.flatMap_cons,List.flatMap_append,List.flatMap_append,ih,hnew,List.flatMap_cons,
      walRowBytes,utf8Bytes]

/-- A row's text has no line break in it. -/
theorem text_no_break (e : WalEntry) : '\n' ∉ e.text.toList ∧ '\r' ∉ e.text.toList := by
  have hpri : Json.Printable e.text.toList := by
    rw [WalEntry.text,String.toList_ofList]
    exact Json.printable_objectText fun f _ => Json.printable_write f.2
  constructor
  · intro hmem
    exact absurd (hpri _ hmem) (by decide)
  · intro hmem
    exact absurd (hpri _ hmem) (by decide)

theorem lines_fileText (rows : List WalEntry) : lines (fileText rows)=rows.map WalEntry.text := by
  have hbre : ∀ row∈rows.map WalEntry.text, '\n' ∉ row.toList ∧ '\r' ∉ row.toList := by
    intro row hrow
    obtain ⟨e,-,rfl⟩ := List.mem_map.mp hrow
    exact text_no_break e
  have hlin := lines_of_rows hbre
  rwa [List.flatMap_map] at hlin

theorem storedRows_fileText (hlaw : env.Lawful)
    (hran : ∀ e∈rows, e.InRange) : storedRows env (fileText rows)=rows := by
  rw [storedRows,lines_fileText,List.filterMap_map]
  induction rows with
  | nil => rfl
  | cons e rows ih =>
    obtain ⟨he,hrow⟩ := List.forall_mem_cons.mp hran
    have hrea : (readEntry env ∘ WalEntry.text) e=some e := by
      rw [Function.comp_apply,readEntry,hlaw.entry_of_text e he]
      rfl
    rw [List.filterMap_cons_some hrea,ih hrow]

theorem replayExisting_fileText (hlaw : env.Lawful) (hrow : WellChained env rows)
    (hcap : ∀ e∈rows, e.capturedAtUnixMs < 2 ^ 64) (hbyt : (fileBytes rows).length < 2 ^ 64) :
    replayExisting env (fileText rows) =
      .ok ((stateAfter env rows).nextSeq,(stateAfter env rows).lastChainHash,
        (stateAfter env rows).bytes) := by
  have hrep := replayLines_texts hlaw rows 0 [] hrow hcap hbyt
  rw [stateAfter_nil,List.nil_append] at hrep
  rw [replayExisting,lines_fileText,hrep]

def WalEntry.chained (e : WalEntry) : Nat × Option String × String :=
  (e.seq,e.priorSha256Hex,e.eventCanonicalJson)

/-- The first row, if there is one, is the first ever written and no anchor. -/
def StartsAtZero (rows : List WalEntry) : Prop :=
  ∀ e∈rows.head?, e.seq=0 ∧ e.ackedAnchor=false

theorem WellChained.linked (h : WellChained env rows) :
    HashChain.Linked (chainHash env) WalEntry.priorSha256Hex rows :=
  h.follows.imp fun _ _ hab => hab.2.2

theorem WellChained.consecutive (h : WellChained env rows) :
    rows.IsChain fun a b => b.seq=a.seq+1 :=
  h.follows.imp fun _ _ hab => hab.2.1

/-- Equal chain hashes come from equal events, and an event fixes the chain fields of its row. -/
private theorem chained_eq_of_chainHash {a b : WalEntry} (ha : AcceptedEntry env a)
    (hb : AcceptedEntry env b)
    (hinj : env.sha256 (utf8Bytes a.eventCanonicalJson)=env.sha256 (utf8Bytes b.eventCanonicalJson) →
      utf8Bytes a.eventCanonicalJson=utf8Bytes b.eventCanonicalJson)
    (h : chainHash env a=chainHash env b) : a.chained=b.chained := by
  have heve : a.eventCanonicalJson=b.eventCanonicalJson :=
    utf8Bytes_injective (hinj (sha256Hex_injective h))
  have hbin := ha.binds
  rw [heve] at hbin
  obtain ⟨hseq,hpri⟩ := hbin.unique hb.binds
  rw [WalEntry.chained,WalEntry.chained,hseq,hpri,heve]

private theorem WellChained.length_of_startsAtZero {last : WalEntry}
    (h : WellChained env rows) (hsta : StartsAtZero rows) (hlas : rows.getLast? = some last) :
    rows.length=last.seq+1 := by
  cases rows with
  | nil => exact absurd hlas (by simp)
  | cons e rows =>
    have hfir : e.seq=0 := (hsta e rfl).1
    have hend := HashChain.getLast_of_consecutive h.consecutive last hlas
    rw [List.length_cons,hend,hfir]
    omega

/-- Two files that lead to one chain hash agree on the events that both hold, counted from the end;
when both hold the chain from its start they hold the same events. -/
theorem replay_commits_to_events (env : WalEnv) (c₁ c₂ : String) {n₁ n₂ b₁ b₂ : Nat}
    {hash : Option String} (h₁ : replayExisting env c₁=.ok (n₁,hash,b₁))
    (h₂ : replayExisting env c₂=.ok (n₂,hash,b₂))
    (hinj : Set.InjOn env.sha256 {bytes | ∃ e∈storedRows env c₁++storedRows env c₂,
      bytes=utf8Bytes e.eventCanonicalJson}) :
    (∀ k ≤ min (storedRows env c₁).length (storedRows env c₂).length,
      ((storedRows env c₁).rtake k).map WalEntry.chained =
        ((storedRows env c₂).rtake k).map WalEntry.chained) ∧
    (StartsAtZero (storedRows env c₁) → StartsAtZero (storedRows env c₂) →
      (storedRows env c₁).map WalEntry.chained=(storedRows env c₂).map WalEntry.chained) := by
  obtain ⟨hw₁,hlast₁⟩ := replayExisting_ok h₁
  obtain ⟨hw₂,hlast₂⟩ := replayExisting_ok h₂
  generalize storedRows env c₁=as at hw₁ hlast₁ hinj ⊢
  generalize storedRows env c₂=bs at hw₂ hlast₂ hinj ⊢
  have hdig : ∀ a∈as, ∀ b∈bs, chainHash env a=chainHash env b → a.chained=b.chained := by
    intro a ha b hb
    exact chained_eq_of_chainHash (hw₁.accepted a ha) (hw₂.accepted b hb)
      (hinj ⟨a,List.mem_append_left _ ha,rfl⟩ ⟨b,List.mem_append_right _ hb,rfl⟩)
  have hpri : ∀ a∈as, ∀ b∈bs, a.chained=b.chained → a.priorSha256Hex=b.priorSha256Hex :=
    fun a _ b _ h => congrArg (fun t => t.2.1) h
  have hlas := hlast₁.symm.trans hlast₂
  have hsuf : ∀ k ≤ min as.length bs.length,
      (as.rtake k).map WalEntry.chained=(bs.rtake k).map WalEntry.chained := by
    intro k hk
    exact HashChain.rtake_map_key_of_last hdig hpri hw₁.linked hw₂.linked hlas
      (hk.trans (min_le_left _ _)) (hk.trans (min_le_right _ _))
  refine ⟨hsuf,fun hs₁ hs₂ => ?_⟩
  have hlen : as.length=bs.length := by
    cases ha : as.getLast? with
    | none =>
      rw [ha,Option.map_none,eq_comm,Option.map_eq_none_iff] at hlas
      rw [List.getLast?_eq_none_iff.mp ha,List.getLast?_eq_none_iff.mp hlas]
    | some a =>
      rw [ha,Option.map_some,eq_comm,Option.map_eq_some_iff] at hlas
      obtain ⟨b,hb,hhas⟩ := hlas
      have hcha := hdig a (List.mem_of_getLast? ha) b (List.mem_of_getLast? hb) hhas.symm
      rw [hw₁.length_of_startsAtZero hs₁ ha,hw₂.length_of_startsAtZero hs₂ hb,
        show a.seq=b.seq from congrArg Prod.fst hcha]
  have hwho := hsuf as.length (le_min (le_refl _) hlen.le)
  rwa [List.rtake_eq_reverse_take_reverse,List.rtake_eq_reverse_take_reverse,
    List.take_of_length_le (by rw [List.length_reverse]),
    List.take_of_length_le (by rw [List.length_reverse]; exact hlen.ge),List.reverse_reverse,
    List.reverse_reverse] at hwho

end Chain

private theorem bindsChain_chainedEvent {env : WalEnv} (hlaw : env.Lawful) {seq : Nat}
    (hseq : seq < 2 ^ 64) (prior : Option String) (operation : String) :
    BindsChain env (chainedEvent seq prior operation).canonicalText seq prior := by
  refine ⟨_,_,hlaw.value_of_canonicalText _ (wellFormed_chainedEvent hseq prior operation) ?_,rfl,
    rfl,?_,rfl⟩
  · rw [depth_chainedEvent]
    decide
  · rfl

private theorem blockEvent_ne_startEvent :
    utf8Bytes blockEvent.canonicalText≠utf8Bytes startEvent.canonicalText := by
  intro h
  have hrea := congrArg Json.fromText (utf8Bytes_injective h)
  rw [blockEvent,startEvent,Json.fromText_canonicalText (wellFormed_chainedEvent (by decide) _ _),
    Json.fromText_canonicalText (wellFormed_chainedEvent (by decide) _ _)] at hrea
  simp [chainedEvent] at hrea

private theorem sha256_blockEvent :
    twoEventEnv.sha256 (utf8Bytes blockEvent.canonicalText)=blockDigest := by
  simp only [twoEventEnv,referenceEnv,if_neg blockEvent_ne_startEvent]

private theorem accepted_startRow : AcceptedEntry twoEventEnv startRow where
  seq_lt := by decide
  prior_hex := by simp [startRow]
  binds := bindsChain_chainedEvent twoEventEnv_lawful (by decide) _ _

private theorem accepted_blockRow (anchor : Bool) : AcceptedEntry twoEventEnv (blockRow anchor) where
  seq_lt := by
    change 1+1 < 2 ^ 64
    decide
  prior_hex := by
    intro prior hpri
    rw [← Option.some.inj hpri,← chainHash_startRow]
    exact isCanonicalLowercaseSha256Hex_sha256Hex _
  binds := bindsChain_chainedEvent twoEventEnv_lawful (by decide) _ _

theorem wellChained_startRow : WellChained twoEventEnv ([]++[startRow]) :=
  wellChained_concat.mpr ⟨wellChained_nil,accepted_startRow,Or.inl ⟨rfl,rfl⟩⟩

private theorem wellChained_twoRows : WellChained twoEventEnv ([startRow]++[blockRow false]) :=
  wellChained_concat.mpr
    ⟨wellChained_startRow,accepted_blockRow false,rfl,rfl,congrArg some chainHash_startRow.symm⟩

private theorem wellChained_anchorRow : WellChained twoEventEnv ([]++[blockRow true]) :=
  wellChained_concat.mpr ⟨wellChained_nil,accepted_blockRow true,
    Or.inr ⟨by change 1≠0; decide,rfl,rfl⟩⟩

private theorem storedRows_twoRows :
    storedRows twoEventEnv (fileText ([startRow]++[blockRow false]))=[startRow,blockRow false] :=
  storedRows_fileText twoEventEnv_lawful (by decide)

private theorem storedRows_anchorRow :
    storedRows twoEventEnv (fileText ([]++[blockRow true]))=[blockRow true] :=
  storedRows_fileText twoEventEnv_lawful (by decide)

private theorem sha256_injOn_twoEvents :
    Set.InjOn twoEventEnv.sha256
      {bytes | ∃ e∈[startRow,blockRow false]++[blockRow true],
        bytes=utf8Bytes e.eventCanonicalJson} := by
  have hne : startDigest≠blockDigest := by
    intro h
    have hbyt : startDigest[0]=blockDigest[0] := by rw [h]
    exact absurd hbyt (by decide)
  have hcas : ∀ bytes, (∃ e∈[startRow,blockRow false]++[blockRow true],
      bytes=utf8Bytes e.eventCanonicalJson) →
      bytes=utf8Bytes startEvent.canonicalText ∨ bytes=utf8Bytes blockEvent.canonicalText := by
    intro bytes h
    obtain ⟨e,he,rfl⟩ := h
    simp only [List.cons_append,List.nil_append,List.mem_cons,List.not_mem_nil,or_false] at he
    rcases he with rfl | rfl | rfl
    · exact Or.inl rfl
    · exact Or.inr rfl
    · exact Or.inr rfl
  intro x hx y hy heq
  rcases hcas x hx with hx' | hx'
  · rcases hcas y hy with hy' | hy'
    · exact hx'.trans hy'.symm
    · rw [hx',hy',sha256_startEvent,sha256_blockEvent] at heq
      exact absurd heq hne
  · rcases hcas y hy with hy' | hy'
    · rw [hx',hy',sha256_startEvent,sha256_blockEvent] at heq
      exact absurd heq.symm hne
    · exact hx'.trans hy'.symm

/-- The whole log and the copy that a truncation through its last row leaves agree on that row. -/
theorem replay_commits_to_events_after_truncation :
    ((storedRows twoEventEnv (fileText ([startRow]++[blockRow false]))).rtake 1).map
        WalEntry.chained =
      ((storedRows twoEventEnv (fileText ([]++[blockRow true]))).rtake 1).map WalEntry.chained := by
  have hlaw := twoEventEnv_lawful
  have h₁ := replayExisting_fileText hlaw wellChained_twoRows (by decide) (by
    have hsta := length_startRow
    have hblo := length_blockRow false
    rw [length_fileBytes_concat,fileBytes_singleton,walRowBytes,List.length_append,
      List.length_singleton]
    omega)
  have h₂ := replayExisting_fileText hlaw wellChained_anchorRow (by decide) (by
    have hblo := length_blockRow true
    rw [List.nil_append,fileBytes_singleton,walRowBytes,List.length_append,
      List.length_singleton]
    omega)
  have hinj := sha256_injOn_twoEvents
  rw [← storedRows_twoRows,← storedRows_anchorRow] at hinj
  refine (replay_commits_to_events twoEventEnv _ _ h₁ h₂ hinj).1 1 ?_
  rw [storedRows_twoRows,storedRows_anchorRow]
  decide

end CastleWall.Audit
