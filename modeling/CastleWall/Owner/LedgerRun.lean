import CastleWall.Owner.Ledger

/-! # Rows of the owner ledger

What a row changes, which rows a state has recorded, the room that is left in it, and that the bytes of rows are
replayed as those rows. -/

namespace CastleWall.Owner

open Text
open Outcome (require)

section RowSteps

variable {env : OwnerEnv}

theorem orError_eq_ok {α : Type} {value : Option α} {error : LedgerError} {a : α} :
    orError value error=.ok a ↔ value=some a := by
  cases value with
  | none => simp [orError]
  | some b => simp [orError]

def CreateTransaction.after (transaction : CreateTransaction) : Row → CreateTransaction
  | .prepared g => .open g.unitName
  | .managerIdentity _ _ => .sealed
  | _ => transaction

def CreateTransaction.admits (transaction : CreateTransaction) : Row → Prop
  | .managerIdentity unit _ => transaction=.open unit
  | _ => True

inductive RowStep : OrderedMap String GenerationState → Row → OrderedMap String GenerationState → Prop
  | prepared {generations : OrderedMap String GenerationState} (g : Generation)
      (hclosed : ∀ unit entry, generations.get unit=some entry → entry.isOpen=false)
      (hfresh : generations.get g.unitName=none) :
      RowStep generations (.prepared g) (generations.set g.unitName ⟨some g,none,.empty,none,none⟩)
  | managerIdentity {generations : OrderedMap String GenerationState} (unit : String) (identity : ManagerIdentity)
      (entry : GenerationState) (hentry : generations.get unit=some entry) (hopen : entry.isOpen=true)
      (hmanager : entry.manager=none) :
      RowStep generations (.managerIdentity unit identity) (generations.set unit { entry with manager := some identity })
  | attempt {generations : OrderedMap String GenerationState} (unit attemptId commandHash : String)
      (releaseHash : Option String) (entry : GenerationState) (hentry : generations.get unit=some entry)
      (hopen : entry.isOpen=true) (hattempt : entry.attempts.get attemptId=none) :
      RowStep generations (.attempt unit attemptId commandHash releaseHash)
        (generations.set unit { entry with attempts := entry.attempts.set attemptId (commandHash,releaseHash) })
  | releaseCopy {generations : OrderedMap String GenerationState} (unit : String) (receipt : SignedReceipt)
      (entry : GenerationState) (hentry : generations.get unit=some entry) (hopen : entry.isOpen=true)
      (hrelease : entry.release=none) :
      RowStep generations (.releaseCopy unit receipt) (generations.set unit { entry with release := some receipt })
  | outcome {generations : OrderedMap String GenerationState} (unit : String) (receipt : SignedReceipt)
      (entry : GenerationState) (hentry : generations.get unit=some entry) (hopen : entry.isOpen=true) :
      RowStep generations (.outcome unit receipt) (generations.set unit { entry with outcome := some receipt })

theorem anyGeneration_eq_false {state : LedgerState} {p : GenerationState → Bool} :
    state.anyGeneration p=false ↔ ∀ unit entry, state.generations.get unit=some entry → p entry=false := by
  rw [LedgerState.anyGeneration,List.any_eq_false]
  constructor
  · intro h unit entry hget
    simpa using h (unit,entry) (OrderedMap.mem_of_get hget)
  · intro h entry hmem
    simpa using h entry.1 entry.2 (OrderedMap.get_of_mem hmem)

variable {generations : OrderedMap String GenerationState} {row : Row} {state' : LedgerState}

/-- Applying a row reads and writes the generations; the bytes are kept, and the transaction is read only for a
manager identity. -/
theorem apply_ok {bytes : Nat} {transaction : CreateTransaction} (h : apply env ⟨generations,bytes,transaction⟩ row=.ok state') :
    ∃ generations', RowStep generations row generations' ∧ transaction.admits row ∧
      state'=⟨generations',bytes,transaction.after row⟩ ∧
      ∀ (bytes' : Nat) (transaction' : CreateTransaction), transaction'.admits row →
        apply env ⟨generations,bytes',transaction'⟩ row=.ok ⟨generations',bytes',transaction'.after row⟩ := by
  cases row with
  | prepared g =>
    simp only [apply,applyPrepared,Outcome.require_bind_eq_ok] at h
    obtain ⟨hval,⟨hclo,hfre⟩,h⟩ := h
    cases h
    refine ⟨_,.prepared g (anyGeneration_eq_false.mp hclo) hfre,trivial,rfl,fun bytes' transaction' _ => ?_⟩
    simp only [apply,applyPrepared,Outcome.require_bind_eq_ok]
    exact ⟨hval,⟨hclo,hfre⟩,rfl⟩
  | managerIdentity unit identity =>
    simp only [apply,applyManager,Outcome.require_bind_eq_ok] at h
    obtain ⟨hope,h⟩ := h
    obtain ⟨entry,hent,h⟩ := Outcome.bind_ok h
    obtain ⟨prepared,hpre,h⟩ := Outcome.bind_ok h
    simp only [Outcome.require_bind_eq_ok] at h
    obtain ⟨⟨hisO,hman⟩,hval,h⟩ := h
    cases h
    refine ⟨_,.managerIdentity unit identity entry (orError_eq_ok.mp hent) hisO hman,hope,rfl,
      fun bytes' transaction' hadm => ?_⟩
    simp only [apply,applyManager,Outcome.require_bind_eq_ok]
    refine ⟨hadm,?_⟩
    rw [hent]
    change (orError _ _ >>= fun _ => _)=_
    rw [hpre]
    change (require _ _ >>= fun _ => require _ _ >>= fun _ => _)=_
    simp only [Outcome.require_bind_eq_ok]
    exact ⟨⟨hisO,hman⟩,hval,rfl⟩
  | attempt unit attemptId commandHash releaseHash =>
    simp only [apply,applyAttempt] at h
    obtain ⟨entry,hent,h⟩ := Outcome.bind_ok h
    simp only [Outcome.require_bind_eq_ok] at h
    obtain ⟨hche,h⟩ := h
    obtain ⟨held,hhel,h⟩ := Outcome.bind_ok h
    simp only [Outcome.require_bind_eq_ok] at h
    obtain ⟨hrel,h⟩ := h
    cases h
    refine ⟨_,.attempt unit attemptId commandHash releaseHash entry (orError_eq_ok.mp hent) hche.1 hche.2.2.2.1,
      trivial,rfl,fun bytes' transaction' _ => ?_⟩
    simp only [apply,applyAttempt]
    rw [hent]
    change (require _ _ >>= fun _ => _)=_
    rw [Outcome.require_bind_eq_ok,hhel]
    refine ⟨hche,?_⟩
    change (require _ _ >>= fun _ => _)=_
    rw [Outcome.require_bind_eq_ok]
    exact ⟨hrel,rfl⟩
  | releaseCopy unit receipt =>
    simp only [apply,applyReleaseCopy] at h
    obtain ⟨entry,hent,h⟩ := Outcome.bind_ok h
    obtain ⟨prepared,hpre,h⟩ := Outcome.bind_ok h
    simp only [Outcome.require_bind_eq_ok] at h
    obtain ⟨hche,h⟩ := h
    cases h
    refine ⟨_,.releaseCopy unit receipt entry (orError_eq_ok.mp hent) hche.1 hche.2.2.1,trivial,rfl,
      fun bytes' transaction' _ => ?_⟩
    simp only [apply,applyReleaseCopy]
    rw [hent]
    change (orError _ _ >>= fun _ => _)=_
    rw [hpre]
    change (require _ _ >>= fun _ => _)=_
    rw [Outcome.require_bind_eq_ok]
    exact ⟨hche,rfl⟩
  | outcome unit receipt =>
    simp only [apply,applyOutcome] at h
    obtain ⟨entry,hent,h⟩ := Outcome.bind_ok h
    obtain ⟨prepared,hpre,h⟩ := Outcome.bind_ok h
    simp only [Outcome.require_bind_eq_ok] at h
    obtain ⟨hche,h⟩ := h
    obtain ⟨_,hsco,h⟩ := Outcome.bind_ok h
    cases h
    refine ⟨_,.outcome unit receipt entry (orError_eq_ok.mp hent) hche.1,trivial,rfl,
      fun bytes' transaction' _ => ?_⟩
    simp only [apply,applyOutcome]
    rw [hent]
    change (orError _ _ >>= fun _ => _)=_
    rw [hpre]
    change (require _ _ >>= fun _ => _)=_
    rw [Outcome.require_bind_eq_ok,hsco]
    exact ⟨hche,rfl⟩

def OneOpen (generations : OrderedMap String GenerationState) : Prop :=
  ∀ unit entry unit' entry', generations.get unit=some entry → entry.isOpen=true →
    generations.get unit'=some entry' → entry'.isOpen=true → unit=unit'

variable {entry : GenerationState} {unit : String}

/-- The generation under the unit is replaced by one that is open only if it was. -/
theorem OneOpen.set {entry' : GenerationState}
    (h : OneOpen generations) (hent : generations.get unit=some entry)
    (hope : entry'.isOpen=true → entry.isOpen=true) : OneOpen (generations.set unit entry') := by
  have hbac : ∀ {u e}, (generations.set unit entry').get u=some e → e.isOpen=true →
      ∃ e₀, generations.get u=some e₀ ∧ e₀.isOpen=true := by
    intro u e hget he
    by_cases hu : u=unit
    · subst hu
      rw [OrderedMap.get_set_self,Option.some.injEq] at hget
      subst hget
      exact ⟨entry,hent,hope he⟩
    · rw [OrderedMap.get_set_ne _ _ hu] at hget
      exact ⟨e,hget,he⟩
  intro u e u' e' hget he hget' he'
  obtain ⟨e₀,h₀,ho₀⟩ := hbac hget he
  obtain ⟨e₁,h₁,ho₁⟩ := hbac hget' he'
  exact h u e₀ u' e₁ h₀ ho₀ h₁ ho₁

theorem RowStep.oneOpen {generations' : OrderedMap String GenerationState}
    (hste : RowStep generations row generations') (h : OneOpen generations) : OneOpen generations' := by
  cases hste with
  | prepared g hclo hfre =>
    intro u e u' e' hget he hget' he'
    have huni : ∀ {v f}, (generations.set g.unitName ⟨some g,none,.empty,none,none⟩).get v=some f →
        f.isOpen=true → v=g.unitName := by
      intro v f hv hf
      by_contra hne
      rw [OrderedMap.get_set_ne _ _ hne] at hv
      rw [hclo v f hv] at hf
      cases hf
    rw [huni hget he,huni hget' he']
  | managerIdentity unit identity entry hent hope hman => exact h.set hent fun _ => hope
  | attempt unit attemptId commandHash releaseHash entry hent hope hatt => exact h.set hent fun _ => hope
  | releaseCopy unit receipt entry hent hope hrel => exact h.set hent fun _ => hope
  | outcome unit receipt entry hent hope => exact h.set hent fun _ => hope

def GenerationState.holds (entry : GenerationState) : Row → Prop
  | .prepared g => entry.prepared=some g
  | .managerIdentity _ identity => entry.manager=some identity
  | .attempt _ attemptId commandHash releaseHash => entry.attempts.get attemptId=some (commandHash,releaseHash)
  | .releaseCopy _ receipt => entry.release=some receipt
  | .outcome _ receipt => entry.outcome=some receipt

def Recorded (generations : OrderedMap String GenerationState) (row : Row) : Prop :=
  ∃ entry, generations.get row.unitName=some entry ∧ entry.holds row

theorem recorded_iff_holds
    (hent : generations.get row.unitName=some entry) : Recorded generations row ↔ entry.holds row := by
  simp [Recorded,hent]

theorem recorded_set_ne (h : row.unitName≠unit) : Recorded (generations.set unit entry) row ↔ Recorded generations row := by
  simp only [Recorded,OrderedMap.get_set_ne _ _ h]

theorem recorded_set {entry' : GenerationState}
    (hent : generations.get row.unitName=some entry)
    (hhol : ∀ r : Row, r.unitName=row.unitName → (entry'.holds r ↔ entry.holds r ∨ r=row)) (r : Row) :
    Recorded (generations.set row.unitName entry') r ↔ Recorded generations r ∨ r=row := by
  by_cases huni : r.unitName=row.unitName
  · have hget : (generations.set row.unitName entry').get r.unitName=some entry' := by
      rw [huni,OrderedMap.get_set_self]
    rw [recorded_iff_holds hget,recorded_iff_holds (huni ▸ hent),hhol r huni]
  · have hne : r≠row := fun heq => huni (congrArg Row.unitName heq)
    rw [recorded_set_ne huni,or_iff_left hne]

theorem RowStep.recorded_iff {generations' : OrderedMap String GenerationState}
    (hste : RowStep generations row generations') (r : Row) :
    Recorded generations' r ↔ Recorded generations r ∨ r=row := by
  cases hste with
  | prepared g hclo hfre =>
    by_cases huni : r.unitName=g.unitName
    · have hget : (generations.set g.unitName ⟨some g,none,.empty,none,none⟩).get r.unitName =
          some ⟨some g,none,.empty,none,none⟩ := by
        rw [huni,OrderedMap.get_set_self]
      have hnone : ¬Recorded generations r := by
        rintro ⟨entry,hent,-⟩
        rw [huni,hfre] at hent
        cases hent
      rw [recorded_iff_holds hget,or_iff_right hnone]
      cases r with
      | prepared g' => simp [GenerationState.holds,eq_comm]
      | _ => simp [GenerationState.holds,OrderedMap.get,OrderedMap.empty]
    · have hne : r≠.prepared g := fun heq => huni (congrArg Row.unitName heq)
      rw [recorded_set_ne huni,or_iff_left hne]
  | managerIdentity unit identity entry hent hope hman =>
    apply @recorded_set generations (.managerIdentity unit identity) entry _ hent
    intro r huni
    cases r with
    | managerIdentity unit' identity' =>
      cases huni
      simp [GenerationState.holds,hman,eq_comm]
    | _ => simp [GenerationState.holds]
  | attempt unit attemptId commandHash releaseHash entry hent hope hatt =>
    apply @recorded_set generations (.attempt unit attemptId commandHash releaseHash) entry _ hent
    intro r huni
    cases r with
    | attempt unit' attemptId' commandHash' releaseHash' =>
      cases huni
      by_cases hid : attemptId'=attemptId
      · subst hid
        simp [GenerationState.holds,hatt,eq_comm]
      · simp [GenerationState.holds,OrderedMap.get_set_ne _ _ hid,hid]
    | _ => simp [GenerationState.holds]
  | releaseCopy unit receipt entry hent hope hrel =>
    apply @recorded_set generations (.releaseCopy unit receipt) entry _ hent
    intro r huni
    cases r with
    | releaseCopy unit' receipt' =>
      cases huni
      simp [GenerationState.holds,hrel,eq_comm]
    | _ => simp [GenerationState.holds]
  | outcome unit receipt entry hent hope =>
    have hnone : entry.outcome=none := by
      rw [GenerationState.isOpen,Bool.and_eq_true,Option.isNone_iff_eq_none] at hope
      exact hope.2
    apply @recorded_set generations (.outcome unit receipt) entry _ hent
    intro r huni
    cases r with
    | outcome unit' receipt' =>
      cases huni
      simp [GenerationState.holds,hnone,eq_comm]
    | _ => simp [GenerationState.holds]

def GenerationState.owed (entry : GenerationState) : Nat :=
  if entry.release.isSome then settlementSlot else 2 * settlementSlot

def Reserved (state : LedgerState) : Prop :=
  ∀ unit entry, state.generations.get unit=some entry → entry.isOpen=true → state.bytes+entry.owed ≤ totalMax

theorem checkedCapacity_eq_ok {current rowBytes owed after : Nat} {acceptance : Bool} :
    checkedCapacity current rowBytes acceptance owed=.ok after ↔
      after=current+rowBytes ∧ after ≤ classCeiling acceptance ∧ after+owed ≤ totalMax := by
  have htot : totalMax < 2 ^ 64 := by decide
  have hcei : classCeiling acceptance ≤ totalMax := by cases acceptance <;> decide
  constructor
  · intro h
    obtain ⟨sum,hsum,h⟩ := Outcome.bind_ok h
    rw [Outcome.require_bind_eq_ok] at h
    obtain ⟨hle,h⟩ := h
    obtain ⟨reserved,hres,h⟩ := Outcome.bind_ok h
    rw [Outcome.require_bind_eq_ok] at h
    obtain ⟨hslo,h⟩ := h
    cases h
    rw [checkedAdd] at hsum hres
    split at hsum
    · cases hsum
      split at hres
      · cases hres
        exact ⟨rfl,hle,hslo⟩
      · cases hres
    · cases hsum
  · rintro ⟨rfl,hle,hslo⟩
    have hsum : checkedAdd current rowBytes .ledgerOverflow=.ok (current+rowBytes) := if_pos (by omega)
    have hres : checkedAdd (current+rowBytes) owed .settlementOverflow=.ok (current+rowBytes+owed) :=
      if_pos (by omega)
    rw [checkedCapacity,hsum]
    change (require _ _ >>= fun _ => _)=_
    rw [Outcome.require_bind_eq_ok,hres]
    refine ⟨hle,?_⟩
    change (require _ _ >>= fun _ => _)=_
    rw [Outcome.require_bind_eq_ok]
    exact ⟨hslo,rfl⟩

theorem owed_le_owedSlots {candidate : LedgerState} (hrow : row.acceptance=true)
    (hone : OneOpen candidate.generations)
    (hent : candidate.generations.get unit=some entry) (hope : entry.isOpen=true) :
    entry.owed ≤ Ledger.owedSlots row candidate := by
  have hany : candidate.anyGeneration GenerationState.isOpen=true := by
    by_contra hnot
    have := anyGeneration_eq_false.mp (Bool.eq_false_iff.mpr hnot) unit entry hent
    rw [hope] at this
    cases this
  rw [Ledger.owedSlots,hrow,hany,Bool.and_self,if_pos rfl,GenerationState.owed]
  by_cases hrel : entry.release.isSome=true
  · rw [if_pos hrel]
    split <;> decide
  · -- no other generation is open, so none that was released
    have hnone : (candidate.anyGeneration fun s => s.isOpen && s.release.isSome)=false := by
      rw [anyGeneration_eq_false]
      intro unit' entry' hent'
      rw [Bool.and_eq_false_iff]
      by_cases hope' : entry'.isOpen=true
      · have huni := hone unit entry unit' entry' hent hope hent' hope'
        subst huni
        rw [hent,Option.some.injEq] at hent'
        subst hent'
        exact .inr (Bool.eq_false_iff.mpr hrel)
      · exact .inl (Bool.eq_false_iff.mpr hope')
    rw [if_neg hrel,hnone]
    decide

structure Admitted (env : OwnerEnv) (state : LedgerState) (row : Row) (state' : LedgerState) : Prop where
  size : row.line.length ≤ rowMax
  inTransaction : state.createTransaction.admits row
  step : RowStep state.generations row state'.generations
  bytes : state'.bytes=state.bytes+row.line.length
  transaction : state'.createTransaction=state.createTransaction.after row
  ceiling : state'.bytes ≤ classCeiling row.acceptance
  slots : state'.bytes+Ledger.owedSlots row state' ≤ totalMax
  applies : ∀ (bytes : Nat) (transaction : CreateTransaction), transaction.admits row →
    apply env ⟨state.generations,bytes,transaction⟩ row=.ok ⟨state'.generations,bytes,transaction.after row⟩

theorem admitted_of_admitRow {ledger : Ledger}
    (h : ledger.admitRow env row=.ok state') : ledger.uncertain=false ∧ Admitted env ledger.state row state' := by
  rw [Ledger.admitRow,Outcome.require_bind_eq_ok,Outcome.require_bind_eq_ok] at h
  obtain ⟨hcer,hsiz,h⟩ := h
  obtain ⟨candidate,hcan,h⟩ := Outcome.bind_ok h
  obtain ⟨after,haft,h⟩ := Outcome.bind_ok h
  cases h
  obtain ⟨generations',hste,hadm,rfl,happ⟩ := apply_ok hcan
  obtain ⟨rfl,hcei,hslo⟩ := checkedCapacity_eq_ok.mp haft
  exact ⟨hcer,hsiz,hadm,hste,rfl,rfl,hcei,hslo,happ⟩

theorem Admitted.reserved {state : LedgerState} (h : Admitted env state row state')
    (hone : OneOpen state.generations) (hres : Reserved state) : Reserved state' := by
  intro unit entry hent hope
  by_cases hrow : row.acceptance=true
  · have hslo := h.slots
    have := owed_le_owedSlots hrow (h.step.oneOpen hone) hent hope
    omega
  · have hslt : row.line.length ≤ settlementSlot := h.size
    have hbyt := h.bytes
    generalize hgen : state'.generations=generations' at hent
    have hste := h.step
    rw [hgen] at hste
    cases hste with
    | prepared g hclo hfre => exact absurd rfl hrow
    | managerIdentity u identity e he hope' hman => exact absurd rfl hrow
    | attempt u attemptId commandHash releaseHash e he hope' hatt => exact absurd rfl hrow
    | releaseCopy u receipt e he hope' hrel =>
      by_cases hu : unit=u
      · subst hu
        rw [OrderedMap.get_set_self,Option.some.injEq] at hent
        subst hent
        have hroo := hres unit e he hope'
        simp only [GenerationState.owed,hrel,Option.isSome_none,Option.isSome_some,if_true] at hroo ⊢
        rw [if_neg Bool.false_ne_true] at hroo
        omega
      · rw [OrderedMap.get_set_ne _ _ hu] at hent
        exact absurd (hone unit entry u e hent hope he hope') hu
    | outcome u receipt e he hope' =>
      by_cases hu : unit=u
      · subst hu
        rw [OrderedMap.get_set_self,Option.some.injEq] at hent
        subst hent
        simp [GenerationState.isOpen] at hope
      · rw [OrderedMap.get_set_ne _ _ hu] at hent
        exact absurd (hone unit entry u e hent hope he hope') hu

theorem settlement_fits {state candidate : LedgerState} (hres : Reserved state)
    (hrow : row.acceptance=false) (hsiz : row.line.length ≤ rowMax) (happ : apply env state row=.ok candidate) :
    ∃ after, checkedCapacity state.bytes row.line.length row.acceptance (Ledger.owedSlots row candidate)=.ok after := by
  obtain ⟨generations,bytes,transaction⟩ := state
  obtain ⟨generations',hste,-,rfl,-⟩ := apply_ok happ
  have hroo : bytes+row.line.length ≤ totalMax := by
    have hslo : row.line.length ≤ settlementSlot := hsiz
    have hope : ∀ {unit entry}, generations.get unit=some entry → entry.isOpen=true →
        bytes+settlementSlot ≤ totalMax := by
      intro unit entry hent hope
      have howe : settlementSlot ≤ entry.owed := by
        rw [GenerationState.owed]
        split <;> decide
      exact (Nat.add_le_add_left howe bytes).trans (hres unit entry hent hope)
    cases hste with
    | prepared g hclo hfre => cases hrow
    | managerIdentity u identity e he hope' hman => cases hrow
    | attempt u attemptId commandHash releaseHash e he hope' hatt => cases hrow
    | releaseCopy u receipt e he hope' hrel => exact (Nat.add_le_add_left hslo bytes).trans (hope he hope')
    | outcome u receipt e he hope' => exact (Nat.add_le_add_left hslo bytes).trans (hope he hope')
  refine ⟨bytes+row.line.length,checkedCapacity_eq_ok.mpr ⟨rfl,?_,?_⟩⟩
  · rw [hrow]
    exact hroo
  · rw [Ledger.owedSlots,hrow,Bool.false_and,if_neg Bool.false_ne_true]
    exact hroo

end RowSteps

section Replay

variable {env : OwnerEnv}

def replayRows (env : OwnerEnv) (state : LedgerState) (rows : List Row) : Except LedgerError LedgerState :=
  rows.foldlM (replayRow env) state

def lines (rows : List Row) : List UInt8 := rows.flatMap Row.line

structure Readable (env : OwnerEnv) (row : Row) : Prop where
  size : row.line.length ≤ rowMax
  decode : env.decodeRow row.encode=some row

theorem newline_not_mem_encode (row : Row) : (10 : UInt8)∉row.encode := by
  apply newline_not_mem_utf8Bytes
  rw [String.toList_ofList]
  intro hmem
  have hpri : Json.Printable row.text := by
    cases row with
    | prepared g =>
      apply printable_recordText
      simp only [List.forall_mem_cons,List.not_mem_nil,false_imp_iff,implies_true,Json.printable_quote,
        g.printable_text,and_self]
    | managerIdentity unit identity =>
      apply printable_recordText
      simp only [List.forall_mem_cons,List.not_mem_nil,false_imp_iff,implies_true,Json.printable_quote,
        identity.printable_text,printable_recordText,and_self]
    | attempt unit attemptId commandHash releaseHash =>
      apply printable_recordText
      simp only [List.forall_mem_cons,List.not_mem_nil,false_imp_iff,implies_true,Json.printable_quote,
        printable_optionText Json.printable_quote,printable_recordText,and_self]
    | releaseCopy unit receipt =>
      apply printable_recordText
      simp only [List.forall_mem_cons,List.not_mem_nil,false_imp_iff,implies_true,Json.printable_quote,
        receipt.printable_text,printable_recordText,and_self]
    | outcome unit receipt =>
      apply printable_recordText
      simp only [List.forall_mem_cons,List.not_mem_nil,false_imp_iff,implies_true,Json.printable_quote,
        receipt.printable_text,printable_recordText,and_self]
  exact absurd (hpri '\n' hmem) (by decide)

theorem replayFrom_line {body : List UInt8} (hbod : (10 : UInt8)∉body) (state : LedgerState)
    (acc rest : List UInt8) :
    replayFrom env state acc (body++10::rest) =
      replayLine env state (acc++body++[10]) >>= fun next => replayFrom env next [] rest := by
  induction body generalizing acc with
  | nil =>
    rw [List.nil_append,replayFrom,if_pos rfl,List.append_nil]
  | cons b body ih =>
    rw [List.mem_cons,not_or] at hbod
    rw [List.cons_append,replayFrom,if_neg (Ne.symm hbod.1),ih hbod.2,List.append_assoc acc [b] body]
    rfl

theorem replayFrom_torn {body : List UInt8} (hbod : (10 : UInt8)∉body) (state : LedgerState) (acc : List UInt8)
    (hne : acc++body≠[]) : replayFrom env state acc body=.error .tornOrOversized := by
  induction body generalizing acc with
  | nil =>
    rw [List.append_nil] at hne
    rw [replayFrom,if_neg hne]
  | cons b body ih =>
    rw [List.mem_cons,not_or] at hbod
    rw [replayFrom,if_neg (Ne.symm hbod.1)]
    apply ih hbod.2
    simp

variable {row : Row}

theorem replayLine_line (hrow : Readable env row) (state : LedgerState) :
    replayLine env state row.line=replayRow env state row := by
  have hsiz : (require (row.line.length ≤ rowMax) LedgerError.tornOrOversized)=pure () := if_pos hrow.size
  have hcan : (require (row.encode=row.line.dropLast) LedgerError.noncanonicalRow)=pure () :=
    if_pos (by rw [Row.line,List.dropLast_concat])
  rw [replayLine,hsiz,pure_bind]
  rw [Row.line,List.dropLast_concat,hrow.decode] at *
  change (require _ _ >>= fun _ => _)=_
  rw [hcan,pure_bind]

variable {rows : List Row}

theorem replayFrom_lines (hros : ∀ row∈rows, Readable env row) (state : LedgerState)
    (rest : List UInt8) :
    replayFrom env state [] (lines rows++rest) =
      replayRows env state rows >>= fun next => replayFrom env next [] rest := by
  induction rows generalizing state with
  | nil => rfl
  | cons row rows ih =>
    obtain ⟨hrow,hres⟩ := List.forall_mem_cons.mp hros
    have hspl : lines (row::rows)++rest=row.encode++10::(lines rows++rest) := by
      simp [lines,Row.line]
    rw [hspl,replayFrom_line (newline_not_mem_encode row),List.nil_append,← Row.line,replayLine_line hrow,
      replayRows,List.foldlM_cons]
    cases replayRow env state row with
    | error e => rfl
    | ok next => exact ih hres next

variable {state : LedgerState} {state' : LedgerState}

theorem replayRow_bytes (h : replayRow env state row=.ok state') :
    state'.bytes=state.bytes+row.line.length := by
  obtain ⟨after,haft,h⟩ := Outcome.bind_ok h
  rw [Outcome.require_bind_eq_ok] at h
  obtain ⟨-,h⟩ := h
  obtain ⟨applied,-,h⟩ := Outcome.bind_ok h
  cases h
  rw [checkedAdd] at haft
  split at haft
  · cases haft
    rfl
  · cases haft

theorem replayRows_bytes (h : replayRows env state rows=.ok state') :
    state'.bytes=state.bytes+(lines rows).length := by
  induction rows generalizing state with
  | nil =>
    cases h
    rfl
  | cons row rows ih =>
    rw [replayRows,List.foldlM_cons] at h
    obtain ⟨next,hnex,h⟩ := Outcome.bind_ok h
    rw [ih h,replayRow_bytes hnex,Nat.add_assoc,← List.length_append]
    rfl

theorem replayRows_concat
    (h : replayRows env .default rows=.ok state) (hrow : replayRow env state row=.ok state') :
    replayRows env .default (rows++[row])=.ok state' := by
  rw [replayRows,List.foldlM_append]
  change rows.foldlM (replayRow env) .default=pure state at h
  rw [h,pure_bind,List.foldlM_cons,hrow]
  rfl

theorem replay_lines (hrow : ∀ row∈rows, Readable env row)
    (h : replayRows env .default rows=.ok state) (hbyt : state.bytes ≤ totalMax) :
    replay env (lines rows)=.ok { state with createTransaction := .sealed } := by
  have hlen : state.bytes=(lines rows).length := by
    rw [replayRows_bytes h]
    exact Nat.zero_add _
  have hfro : replayFrom env .default [] (lines rows)=.ok state := by
    rw [← List.append_nil (lines rows),replayFrom_lines hrow,h]
    rfl
  rw [replay,Outcome.require_bind_eq_ok,hfro]
  refine ⟨hlen ▸ hbyt,?_⟩
  change (require _ _ >>= fun _ => _)=_
  rw [Outcome.require_bind_eq_ok]
  exact ⟨hlen,rfl⟩

theorem replay_torn {torn : List UInt8} (hrow : ∀ row∈rows, Readable env row)
    (htor : (10 : UInt8)∉torn) (hne : torn≠[]) (state : LedgerState) :
    replay env (lines rows++torn)≠.ok state := by
  intro h
  rw [replay,Outcome.require_bind_eq_ok,replayFrom_lines hrow] at h
  obtain ⟨-,h⟩ := h
  obtain ⟨next,hnex,-⟩ := Outcome.bind_ok h
  obtain ⟨reached,-,htai⟩ := Outcome.bind_ok hnex
  rw [replayFrom_torn htor reached [] hne] at htai
  cases htai

/-- A handle and the replay of what it has written: only the transaction may differ, and only once it has ended for
the handle. -/
structure Agrees (handle replayed : LedgerState) : Prop where
  generations : handle.generations=replayed.generations
  bytes : handle.bytes=replayed.bytes
  transaction : handle.createTransaction=.sealed ∨ handle.createTransaction=replayed.createTransaction

theorem Admitted.replayRow {handle handle' replayed : LedgerState}
    (h : Admitted env handle row handle') (hagr : Agrees handle replayed) :
    ∃ replayed', replayRow env replayed row=.ok replayed' ∧ Agrees handle' replayed' := by
  obtain ⟨generations,bytes,transaction⟩ := replayed
  obtain ⟨hgen,hbyt,htra⟩ := hagr
  have hadm : transaction.admits row := by
    cases row with
    | managerIdentity unit identity =>
      have hope : handle.createTransaction=.open unit := h.inTransaction
      rcases htra with hsea | heq
      · rw [hope] at hsea
        cases hsea
      · exact heq.symm.trans hope
    | _ => trivial
  refine ⟨⟨handle'.generations,handle'.bytes,transaction.after row⟩,?_,rfl,rfl,?_⟩
  · have hcei : classCeiling row.acceptance ≤ totalMax := by cases row.acceptance <;> decide
    have hlt : bytes+row.line.length < 2 ^ 64 := by
      have htot : totalMax < 2 ^ 64 := by decide
      have hle := h.ceiling
      rw [h.bytes,hbyt] at hle
      exact (hle.trans hcei).trans_lt htot
    have hadd : checkedAdd bytes row.line.length .ledgerOverflow=pure (bytes+row.line.length) := if_pos hlt
    have happ := h.applies bytes transaction hadm
    rw [hgen] at happ
    rw [CastleWall.Owner.replayRow,hadd,pure_bind,Outcome.require_bind_eq_ok,happ]
    refine ⟨?_,?_⟩
    · have := h.ceiling
      rwa [h.bytes,hbyt] at this
    · rw [h.bytes,hbyt]
      rfl
  · rw [h.transaction]
    cases row with
    | prepared g => exact .inr rfl
    | managerIdentity unit identity => exact .inr rfl
    | _ => exact htra

end Replay

end CastleWall.Owner
