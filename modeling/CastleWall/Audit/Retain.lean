import CastleWall.Audit.Scan

/-! # The rows a truncation keeps

An acknowledgement through a sequence number keeps the later rows behind one anchor, the last row it
covers. The rows stay readable and lead to the same sequence number and chain hash. -/

namespace CastleWall.Audit

open Text

def anchored (e : WalEntry) : WalEntry := { e with ackedAnchor := true }

def ackedRows (a : Nat) (rows : List WalEntry) : List WalEntry := rows.filter fun e => e.seq ≤ a

def keptRows (a : Nat) (rows : List WalEntry) : List WalEntry := rows.filter fun e => a < e.seq

def truncatedRows (a : Nat) (rows : List WalEntry) : List WalEntry :=
  ((ackedRows a rows).getLast?.map anchored).toList++keptRows a rows

section Retain

variable {env : WalEnv}

private theorem getLast?_cons_or {α : Type} (x : α) (xs : List α) (other : Option α) :
    (x::xs).getLast?.or other=xs.getLast?.or (some x) := by
  rw [List.getLast?_cons]
  cases xs.getLast? <;> rfl

theorem foldRows_snapshotBody (afterSeq : Option Nat) (maxEntries : Nat) (rows : List WalEntry) :
    ∀ (index : Nat) (out : List WalEntry),
      foldRows (snapshotBody afterSeq maxEntries) index rows out =
        .ok (out++(rows.filter (isAfter afterSeq)).take (maxEntries - out.length)) := by
  induction rows with
  | nil =>
    intro index out
    simp [foldRows]
  | cons e rows ih =>
    intro index out
    rw [foldRows,snapshotBody]
    by_cases haft : isAfter afterSeq e=true
    · rw [List.filter_cons_of_pos haft]
      by_cases hroo : out.length < maxEntries
      · rw [if_pos (by simp [haft,hroo])]
        obtain ⟨k,hk⟩ : ∃ k, maxEntries - out.length=k+1 :=
          ⟨maxEntries - out.length - 1,by omega⟩
        by_cases hlas : out.length+1=maxEntries
        · have hzer : k=0 := by omega
          rw [if_pos hlas,hk,List.take_succ_cons,hzer,List.take_zero]
        · have hres : maxEntries - (out++[e]).length=k := by
            rw [List.length_append,List.length_singleton]
            omega
          rw [if_neg hlas]
          simp only
          rw [ih,hres,hk,List.take_succ_cons,List.append_assoc,List.singleton_append]
      · have hful : maxEntries - out.length=0 := by omega
        rw [if_neg (by simp [hroo])]
        simp only
        rw [ih,hful,List.take_zero,List.take_zero]
    · rw [if_neg (by simp [haft]),List.filter_cons_of_neg haft]
      exact ih (index+1) out

theorem foldRows_ackedBody (a : Nat) (rows : List WalEntry) :
    ∀ (index : Nat) (acked : Acked), acked.newlyDropped+rows.length < 2 ^ 64 →
      foldRows (ackedBody a) index rows acked =
        .ok { newlyDropped := acked.newlyDropped +
                ((ackedRows a rows).filter fun e => !e.ackedAnchor).length
              lastAcked := (ackedRows a rows).getLast?.or acked.lastAcked } := by
  induction rows with
  | nil =>
    intro index acked _
    simp [foldRows,ackedRows]
  | cons e rows ih =>
    intro index acked hcou
    rw [List.length_cons] at hcou
    rw [foldRows,ackedBody]
    by_cases hack : e.seq ≤ a
    · have hfil : ackedRows a (e::rows)=e::ackedRows a rows :=
        List.filter_cons_of_pos (by simpa using hack)
      rw [if_pos hack,hfil,getLast?_cons_or]
      cases hanc : e.ackedAnchor with
      | false =>
        have hadd : checkedAdd acked.newlyDropped 1=some (acked.newlyDropped+1) := by
          unfold checkedAdd
          rw [if_pos (by omega)]
        simp only [Bool.not_false,if_true,hadd]
        rw [ih (index+1) { newlyDropped := acked.newlyDropped+1, lastAcked := some e }
            (by simp only; omega),
          List.filter_cons_of_pos (by simp [hanc]),List.length_cons]
        simp only [Nat.add_assoc,Nat.add_comm 1]
      | true =>
        simp only [Bool.not_true,Bool.false_eq_true,if_false]
        rw [ih (index+1) { acked with lastAcked := some e } (by simp only; omega),
          List.filter_cons_of_neg (by simp [hanc])]
    · have hfil : ackedRows a (e::rows)=ackedRows a rows :=
        List.filter_cons_of_neg (by simpa using hack)
      rw [if_neg hack,hfil]
      exact ih (index+1) acked (by omega)

theorem foldRows_keptBody (a : Nat) (rows : List WalEntry) :
    ∀ (index : Nat) (r : Rewrite),
      foldRows (keptBody env a) index rows r =
        .ok { tmp := r.tmp++fileBytes (keptRows a rows)
              newBytes := r.newBytes+(fileBytes (keptRows a rows)).length
              newChainHash := ((keptRows a rows).getLast?.map (chainHash env)).or r.newChainHash } := by
  induction rows with
  | nil =>
    intro index r
    simp [foldRows,keptRows,fileBytes]
  | cons e rows ih =>
    intro index r
    rw [foldRows,keptBody]
    by_cases hkep : a < e.seq
    · have hfil : keptRows a (e::rows)=e::keptRows a rows :=
        List.filter_cons_of_pos (by simpa using hkep)
      have hbyt : fileBytes (e::keptRows a rows) =
          walRowBytes e.text++fileBytes (keptRows a rows) := List.flatMap_cons
      have hlas : (e::keptRows a rows).getLast?.map (chainHash env) =
          ((keptRows a rows).getLast?.map (chainHash env)).or (some (chainHash env e)) := by
        rw [List.getLast?_cons]
        cases (keptRows a rows).getLast? <;> rfl
      rw [if_pos hkep,hfil]
      simp only
      rw [ih,hbyt,hlas]
      simp only [Rewrite.entry,List.append_assoc,List.length_append,Nat.add_assoc,Option.or_assoc,
        Option.some_or]
    · have hfil : keptRows a (e::rows)=keptRows a rows :=
        List.filter_cons_of_neg (by simpa using hkep)
      rw [if_neg hkep,hfil]
      exact ih (index+1) r

variable {rows : List WalEntry}

theorem WellChained.increasing (h : WellChained env rows) :
    rows.Pairwise fun x y => x.seq < y.seq := by
  have hlt : rows.IsChain fun x y => x.seq < y.seq :=
    h.consecutive.imp fun x y hxy => by omega
  exact List.isChain_iff_pairwise.mp hlt

theorem acked_append_kept (h : rows.Pairwise fun x y => x.seq < y.seq)
    (a : Nat) : ackedRows a rows++keptRows a rows=rows := by
  induction rows with
  | nil => rfl
  | cons e rows ih =>
    obtain ⟨hhea,htai⟩ := List.pairwise_cons.mp h
    by_cases hack : e.seq ≤ a
    · have hacs : ackedRows a (e::rows)=e::ackedRows a rows :=
        List.filter_cons_of_pos (by simpa using hack)
      have hkee : keptRows a (e::rows)=keptRows a rows :=
        List.filter_cons_of_neg (by simpa using hack)
      rw [hacs,hkee,List.cons_append,ih htai]
    · have hnone : ackedRows a (e::rows)=[] := by
        apply List.filter_eq_nil_iff.mpr
        intro x hx
        rcases List.mem_cons.mp hx with rfl | hx
        · simpa using hack
        · have hlt := hhea x hx
          simp only [decide_eq_true_iff]
          omega
      have hall : keptRows a (e::rows)=e::rows := by
        apply List.filter_eq_self.mpr
        intro x hx
        rcases List.mem_cons.mp hx with rfl | hx
        · simpa using hack
        · have hlt := hhea x hx
          simp only [decide_eq_true_iff]
          omega
      rw [hnone,hall,List.nil_append]

/-- A truncation either covers no row and changes nothing, or splits the rows at the last one it
covers. -/
theorem truncatedRows_cases (h : WellChained env rows) (a : Nat) :
    truncatedRows a rows=rows ∨
      ∃ before last, rows=before++last::keptRows a rows ∧
        truncatedRows a rows=anchored last::keptRows a rows ∧ last.seq ≤ a := by
  have hspl := acked_append_kept h.increasing a
  cases hack : (ackedRows a rows).getLast? with
  | none =>
    left
    rw [List.getLast?_eq_none_iff.mp hack,List.nil_append] at hspl
    rw [truncatedRows,hack,hspl]
    rfl
  | some last =>
    right
    obtain ⟨before,hbef⟩ := List.getLast?_eq_some_iff.mp hack
    have hmem : last∈ackedRows a rows := List.mem_of_getLast? hack
    refine ⟨before,last,?_,?_,by simpa [ackedRows] using (List.mem_filter.mp hmem).2⟩
    · rw [hbef,List.append_assoc,List.singleton_append] at hspl
      exact hspl.symm
    · rw [truncatedRows,hack]
      rfl

variable {e : WalEntry}

theorem AcceptedEntry.anchored (h : AcceptedEntry env e) :
    AcceptedEntry env (anchored e) :=
  ⟨h.seq_lt,h.prior_hex,h.binds⟩

private theorem opensFile_anchored {before after : List WalEntry} {last : WalEntry}
    (h : WellChained env (before++last::after)) : OpensFile (anchored last) := by
  have hope : ∀ e, OpensFile e → OpensFile (CastleWall.Audit.anchored e) := by
    intro e he
    rcases he with ⟨hseq,hpri⟩ | ⟨hseq,hpri,-⟩
    · exact Or.inl ⟨hseq,hpri⟩
    · exact Or.inr ⟨hseq,hpri,rfl⟩
  rw [← List.singleton_append,← List.append_assoc] at h
  obtain ⟨-,-,hext⟩ := wellChained_concat.mp h.left
  unfold Extends at hext
  split at hext
  · exact hope last hext
  · obtain ⟨-,hseq,hpri⟩ := hext
    refine Or.inr ⟨?_,?_,rfl⟩
    · change last.seq≠0
      omega
    · change last.priorSha256Hex.isSome=true
      rw [hpri]
      rfl

theorem WellChained.truncated (h : WellChained env rows) (a : Nat) :
    WellChained env (truncatedRows a rows) := by
  rcases truncatedRows_cases h a with heq | ⟨before,last,hrow,heq,-⟩
  · rw [heq]
    exact h
  · rw [heq]
    generalize keptRows a rows=kept at hrow heq
    subst hrow
    have hcha := (List.isChain_append.mp h.follows).2.1
    refine ⟨?_,?_,?_⟩
    · rw [List.forall_mem_cons]
      refine ⟨(h.accepted last (by simp)).anchored,fun e he => h.accepted e ?_⟩
      exact List.mem_append_right _ (List.mem_cons_of_mem _ he)
    · intro e he
      rw [← Option.some.inj he]
      exact opensFile_anchored h
    · cases kept with
      | nil => exact List.isChain_singleton _
      | cons next kept =>
        obtain ⟨hnex,htai⟩ := List.isChain_cons_cons.mp hcha
        exact List.isChain_cons_cons.mpr ⟨hnex,htai⟩

theorem stateAfter_truncated (h : WellChained env rows) (a : Nat) :
    (stateAfter env (truncatedRows a rows)).nextSeq=(stateAfter env rows).nextSeq ∧
      (stateAfter env (truncatedRows a rows)).lastChainHash=(stateAfter env rows).lastChainHash := by
  rcases truncatedRows_cases h a with heq | ⟨before,last,hrow,heq,-⟩
  · rw [heq]
    exact ⟨rfl,rfl⟩
  · rw [heq]
    generalize keptRows a rows=kept at hrow heq
    subst hrow
    simp only [stateAfter,List.getLast?_append,List.getLast?_cons,Option.some_or]
    cases kept.getLast? with
    | none => exact ⟨rfl,rfl⟩
    | some e => exact ⟨rfl,rfl⟩

theorem length_anchored (h : e.ackedAnchor=false) :
    (walRowBytes (anchored e).text).length=(walRowBytes e.text).length+20 := by
  have hfla : ((',' :: Json.fieldText ("acked_anchor",Json.write (.bool true))).flatMap
      String.utf8EncodeChar).length=20 := by decide +kernel
  have hfie : (anchored e).fields=e.fields++[("acked_anchor",.bool true)] := by
    simp only [WalEntry.fields,anchored,h,if_true,Bool.false_eq_true,if_false,List.append_nil]
  have hne : e.fields.map (fun f => Json.fieldText (f.1,Json.write f.2))≠[] := by
    simp [WalEntry.fields]
  simp only [walRowBytes,WalEntry.text,utf8Bytes_ofList,hfie,Json.objectText,List.map_append,
    List.map_singleton,Json.joinComma_concat hne,List.flatMap_cons,List.flatMap_append,
    List.length_append] at hfla ⊢
  omega

theorem length_anchored_of_anchor (h : e.ackedAnchor=true) : anchored e=e := by
  rw [anchored,← h]

private theorem length_le_utf8 (cs : List Char) :
    cs.length ≤ (cs.flatMap String.utf8EncodeChar).length := by
  induction cs with
  | nil => exact Nat.le_refl _
  | cons c cs ih =>
    have hc := c.utf8Size_pos
    rw [List.flatMap_cons,List.length_append,String.length_utf8EncodeChar,List.length_cons]
    omega

theorem length_row_ge (e : WalEntry) : 20 ≤ (walRowBytes e.text).length := by
  have hkey : (Json.quote "captured_at_unix_ms").length=21 := by decide +kernel
  have htex := length_le_utf8 (Json.objectText e.fields)
  rw [walRowBytes,WalEntry.text,utf8Bytes_ofList,List.length_append]
  simp only [Json.objectText,WalEntry.fields,List.cons_append,List.nil_append,List.map_cons,
    Json.joinComma,Json.fieldText,List.length_append,List.length_cons,hkey] at htex ⊢
  omega

/-- The truncation turns the file's first row into the anchor and drops no row. -/
def AnchorGrows (a : Nat) (rows : List WalEntry) : Prop :=
  ∃ first rest, rows=first::rest ∧ first.ackedAnchor=false ∧ first.seq ≤ a ∧
    ∀ e∈rest, a < e.seq

variable {a : Nat}

theorem keptRows_eq_self (h : ∀ e∈rows, a < e.seq) :
    keptRows a rows=rows :=
  List.filter_eq_self.mpr fun e he => by simpa using h e he

theorem length_truncated_of_grows (h : AnchorGrows a rows) :
    (fileBytes (truncatedRows a rows)).length=(fileBytes rows).length+20 := by
  obtain ⟨first,rest,rfl,hanc,hseq,hres⟩ := h
  have hack : ackedRows a (first::rest)=[first] := by
    have hnone : ackedRows a rest=[] :=
      List.filter_eq_nil_iff.mpr fun e he => by simpa using hres e he
    rw [ackedRows,List.filter_cons_of_pos (by simpa using hseq)]
    rw [ackedRows] at hnone
    rw [hnone]
  have hkep : keptRows a (first::rest)=rest := by
    have hski : keptRows a (first::rest)=keptRows a rest :=
      List.filter_cons_of_neg (by simpa using hseq)
    rw [hski,keptRows_eq_self hres]
  have hfla := length_anchored hanc
  rw [truncatedRows,hack,hkep]
  simp only [List.getLast?_singleton,Option.map_some,Option.toList_some,List.singleton_append,
    fileBytes,List.flatMap_cons,List.length_append,hfla]
  omega

theorem length_truncated_le (hros : WellChained env rows)
    (h : ¬ AnchorGrows a rows) :
    (fileBytes (truncatedRows a rows)).length ≤ (fileBytes rows).length := by
  rcases truncatedRows_cases hros a with heq | ⟨before,last,hspl,heq,hlas⟩
  · rw [heq]
  · have hkep : ∀ e∈keptRows a rows, a < e.seq := fun e he => by
      simpa using (List.mem_filter.mp he).2
    rw [heq]
    generalize keptRows a rows=kept at hspl heq hkep
    subst hspl
    rw [fileBytes_append]
    simp only [fileBytes,List.flatMap_cons,List.length_append]
    cases hanc : last.ackedAnchor with
    | true =>
      rw [length_anchored_of_anchor hanc]
      omega
    | false =>
      have hfla := length_anchored hanc
      cases before with
      | nil => exact absurd ⟨last,kept,rfl,hanc,hlas,hkep⟩ h
      | cons e before =>
        have hrow := length_row_ge e
        simp only [List.flatMap_cons,List.length_append]
        omega

theorem Readable.captured_truncated (h : Readable env rows) (a : Nat) :
    ∀ e∈truncatedRows a rows, e.capturedAtUnixMs < 2 ^ 64 := by
  intro e he
  rcases truncatedRows_cases h.chained a with heq | ⟨before,last,hspl,heq,-⟩
  · exact h.captured e (heq ▸ he)
  · rw [heq] at he
    rcases List.mem_cons.mp he with rfl | he
    · exact h.captured last (by rw [hspl]; simp)
    · exact h.captured e (List.mem_of_mem_filter he)

theorem Readable.truncated (h : Readable env rows)
    (hsiz : (fileBytes (truncatedRows a rows)).length < 2 ^ 64) :
    Readable env (truncatedRows a rows) where
  chained := h.chained.truncated a
  captured := h.captured_truncated a
  size := hsiz

end Retain

end CastleWall.Audit
