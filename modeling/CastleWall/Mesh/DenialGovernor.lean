import CastleWall.Support.OrderedMap
import Mathlib.Algebra.BigOperators.Group.List.Basic
import Mathlib.Data.Finset.Card
import Mathlib.Algebra.GroupWithZero.Nat

/-! # The governor of denial audits

`mesh/lifecycle/denial-audit-governor.ts`: every denial is counted, but within one window only so many get an audit
entry of their own. The rest is reported in summaries. -/

namespace CastleWall.Mesh

structure DenialSaturationSummary where
  (suppressedCount distinctEmitterCount : Nat)

structure DenialAuditDecision where
  writeIndividual : Bool
  saturationSummary : Option DenialSaturationSummary

structure GovernorConfig where
  (perEmitterMax globalMax : Nat)
  windowMs : Int

structure DenialAuditGovernor where
  windowStartMs : Option Int
  perEmitter : OrderedMap String Nat
  (globalWritten suppressed : Nat)
  distinctSuppressed : Finset String

namespace DenialAuditGovernor

def initial : DenialAuditGovernor := ⟨none,.empty,0,0,∅⟩

variable (config : GovernorConfig) (g : DenialAuditGovernor) (emitterNode : String) (nowMs : Int)

def reset : DenialAuditGovernor := ⟨some nowMs,.empty,0,0,∅⟩

def pendingSummary : Option DenialSaturationSummary :=
  if g.suppressed=0 then none else some ⟨g.suppressed,g.distinctSuppressed.card⟩

def elapsed : Bool := g.windowStartMs.any fun start => decide (config.windowMs ≤ nowMs - start)

def rollIfElapsed : Option DenialSaturationSummary × DenialAuditGovernor :=
  if g.elapsed config nowMs then (g.pendingSummary,reset nowMs) else (none,g)

def started : DenialAuditGovernor := { g with windowStartMs := some (g.windowStartMs.getD nowMs) }

def written (emitter : String) : Nat := (g.perEmitter.get emitter).getD 0

def admits : Bool := decide (g.globalWritten < config.globalMax ∧ g.written emitterNode < config.perEmitterMax)

def count : Bool × DenialAuditGovernor :=
  if g.admits config emitterNode then
    (true,{ g with
      perEmitter := g.perEmitter.set emitterNode (g.written emitterNode+1)
      globalWritten := g.globalWritten+1 })
  else
    (false,{ g with
      suppressed := g.suppressed+1
      distinctSuppressed := insert emitterNode g.distinctSuppressed })

def consider : DenialAuditDecision × DenialAuditGovernor :=
  let (rolledSummary,rolled) := g.rollIfElapsed config nowMs
  let (writeIndividual,counted) := (rolled.started nowMs).count config emitterNode
  (⟨writeIndividual,rolledSummary⟩,counted)

def flushSaturationSummary : Option DenialSaturationSummary × DenialAuditGovernor :=
  if g.suppressed=0 then (none,g)
  else (some ⟨g.suppressed,g.distinctSuppressed.card⟩,{ g with suppressed := 0, distinctSuppressed := ∅ })

end DenialAuditGovernor

inductive GovernorCall where
  | consider (emitterNode : String) (nowMs : Int)
  | flush

inductive GovernorMark where
  | window (startMs : Int)
  | summary (s : DenialSaturationSummary)
  | written (emitterNode : String) (nowMs : Int)
  | suppressed (emitterNode : String) (nowMs : Int)

structure GovernorRun where
  governor : DenialAuditGovernor
  marks : List GovernorMark

def GovernorRun.initial : GovernorRun := ⟨.initial,[]⟩

variable (config : GovernorConfig)

/-- A window opens with the first denial and with each that finds the last one over. -/
def opens (g : DenialAuditGovernor) (nowMs : Int) : Bool := g.windowStartMs.isNone || g.elapsed config nowMs

def considerMarks (g : DenialAuditGovernor) (emitterNode : String) (nowMs : Int) : List GovernorMark :=
  let decision := (g.consider config emitterNode nowMs).1
  (decision.saturationSummary.map .summary).toList ++
    (if opens config g nowMs then [.window nowMs] else []) ++
    [if decision.writeIndividual then .written emitterNode nowMs else .suppressed emitterNode nowMs]

def GovernorRun.step (run : GovernorRun) : GovernorCall → GovernorRun
  | .consider emitterNode nowMs =>
    ⟨(run.governor.consider config emitterNode nowMs).2,
      run.marks++considerMarks config run.governor emitterNode nowMs⟩
  | .flush =>
    ⟨run.governor.flushSaturationSummary.2,
      run.marks++(run.governor.flushSaturationSummary.1.map GovernorMark.summary).toList⟩

def governorRun (calls : List GovernorCall) : GovernorRun := calls.foldl (GovernorRun.step config) .initial

def sinceSummary (marks : List GovernorMark) : List String :=
  marks.foldl (fun emitters mark =>
    match mark with
    | .summary _ => []
    | .suppressed emitter _ => emitters++[emitter]
    | _ => emitters) []

def sinceWindow (marks : List GovernorMark) : List String :=
  marks.foldl (fun emitters mark =>
    match mark with
    | .window _ => []
    | .written emitter _ => emitters++[emitter]
    | _ => emitters) []

def lastWindow (marks : List GovernorMark) : Option Int :=
  marks.foldl (fun last mark =>
    match mark with
    | .window startMs => some startMs
    | _ => last) none

def writtenMarks (marks : List GovernorMark) : List String :=
  marks.filterMap fun
    | .written emitter _ => some emitter
    | _ => none

def reportedCount (marks : List GovernorMark) : Nat :=
  (marks.map fun
    | .summary s => s.suppressedCount
    | _ => 0).sum

def consideredCount (calls : List GovernorCall) : Nat :=
  calls.countP fun
    | .consider _ _ => true
    | .flush => false

section Marks

variable (marks : List GovernorMark) (mark : GovernorMark)

@[simp] theorem sinceSummary_append : sinceSummary (marks++[mark]) =
    match mark with
    | .summary _ => []
    | .suppressed emitter _ => sinceSummary marks++[emitter]
    | _ => sinceSummary marks := by
  simp only [sinceSummary,List.foldl_append,List.foldl_cons,List.foldl_nil]

@[simp] theorem sinceWindow_append : sinceWindow (marks++[mark]) =
    match mark with
    | .window _ => []
    | .written emitter _ => sinceWindow marks++[emitter]
    | _ => sinceWindow marks := by
  simp only [sinceWindow,List.foldl_append,List.foldl_cons,List.foldl_nil]

@[simp] theorem lastWindow_append : lastWindow (marks++[mark]) =
    match mark with
    | .window startMs => some startMs
    | _ => lastWindow marks := by
  simp only [lastWindow,List.foldl_append,List.foldl_cons,List.foldl_nil]

end Marks

def InWindow (marks : List GovernorMark) (nowMs : Int) : Prop :=
  ∃ start, lastWindow marks=some start ∧ (nowMs=start ∨ nowMs - start < config.windowMs)

def MarkAllowed (marks : List GovernorMark) : GovernorMark → Prop
  | .window _ => True
  | .summary s => s=⟨(sinceSummary marks).length,(sinceSummary marks).toFinset.card⟩
  | .written emitter nowMs =>
    (sinceWindow marks).length < config.globalMax ∧ (sinceWindow marks).count emitter < config.perEmitterMax ∧
      InWindow config marks nowMs
  | .suppressed _ nowMs => InWindow config marks nowMs

inductive Allowed : List GovernorMark → Prop where
  | nil : Allowed []
  | snoc {marks : List GovernorMark} {mark : GovernorMark} (hmarks : Allowed marks)
      (hmark : MarkAllowed config marks mark) : Allowed (marks++[mark])

variable {config}

theorem Allowed.of_append {marks : List GovernorMark} {mark : GovernorMark} (h : Allowed config (marks++[mark])) :
    Allowed config marks ∧ MarkAllowed config marks mark := by
  generalize hall : marks++[mark]=all at h
  cases h with
  | nil => simp at hall
  | snoc hmar hmak =>
    obtain ⟨rfl,hlas⟩ := List.append_inj' hall rfl
    cases hlas
    exact ⟨hmar,hmak⟩

theorem Allowed.of_append_left {marks after : List GovernorMark} (h : Allowed config (marks++after)) : Allowed config marks := by
  induction after using List.reverseRecOn with
  | nil => rwa [List.append_nil] at h
  | append_singleton after mark ih =>
    rw [← List.append_assoc] at h
    exact ih h.of_append.1

def denialCount (marks : List GovernorMark) : Nat :=
  marks.countP fun
    | .written _ _ => true
    | .suppressed _ _ => true
    | _ => false

theorem Allowed.conserves {marks : List GovernorMark} (h : Allowed config marks) :
    denialCount marks=(writtenMarks marks).length+reportedCount marks+(sinceSummary marks).length := by
  induction h with
  | nil => rfl
  | @snoc marks mark _ hmar ih =>
    simp only [denialCount,writtenMarks,reportedCount] at ih
    rw [sinceSummary_append]
    simp only [denialCount,writtenMarks,reportedCount,List.countP_append,List.filterMap_append,List.length_append,
      List.map_append,List.sum_append,ih]
    cases mark with
    | window startMs => simp
    | summary s =>
      cases hmar
      simp
      omega
    | written emitter nowMs =>
      simp
      omega
    | suppressed emitter nowMs =>
      simp
      omega

/-- Within a window no ceiling is passed, and every denial falls into it. -/
theorem Allowed.bounded {marks : List GovernorMark} (h : Allowed config marks) :
    (sinceWindow marks).length ≤ config.globalMax ∧
      ∀ emitter, (sinceWindow marks).count emitter ≤ config.perEmitterMax := by
  induction h with
  | nil => exact ⟨Nat.zero_le _,fun _ => Nat.zero_le _⟩
  | @snoc marks mark _ hmar ih =>
    rw [sinceWindow_append]
    cases mark with
    | window startMs => exact ⟨Nat.zero_le _,fun _ => Nat.zero_le _⟩
    | summary s => exact ih
    | suppressed emitter nowMs => exact ih
    | written emitter nowMs =>
      obtain ⟨hglo,hper,-⟩ := hmar
      refine ⟨by simp only [List.length_append,List.length_singleton]; omega,fun other => ?_⟩
      rw [List.count_append,List.count_singleton]
      by_cases heq : emitter=other
      · subst heq
        simp
        omega
      · have hoth := ih.2 other
        simpa [heq] using hoth

theorem sinceWindow_window (before window : List GovernorMark) (startMs : Int)
    (hwin : ∀ start, GovernorMark.window start∉window) :
    sinceWindow (before++.window startMs::window)=writtenMarks window ∧
      lastWindow (before++.window startMs::window)=some startMs := by
  induction window using List.reverseRecOn with
  | nil => exact ⟨by rw [sinceWindow_append]; rfl,by rw [lastWindow_append]⟩
  | append_singleton window mark ih =>
    obtain ⟨ihwritten,ihlast⟩ := ih fun start hmem => hwin start (List.mem_append_left _ hmem)
    rw [← List.cons_append,← List.append_assoc,sinceWindow_append,lastWindow_append]
    cases mark with
    | window start => exact absurd (List.mem_append_right _ List.mem_cons_self) (hwin start)
    | summary s => simpa [writtenMarks] using ⟨ihwritten,ihlast⟩
    | suppressed emitter nowMs => simpa [writtenMarks] using ⟨ihwritten,ihlast⟩
    | written emitter nowMs => simpa [writtenMarks] using ⟨ihwritten,ihlast⟩

structure Tracks (config : GovernorConfig) (g : DenialAuditGovernor) (marks : List GovernorMark) : Prop where
  allowed : Allowed config marks
  pending : g.suppressed=(sinceSummary marks).length
  distinct : g.distinctSuppressed=(sinceSummary marks).toFinset
  globalWritten : g.globalWritten=(sinceWindow marks).length
  written : ∀ emitter, g.written emitter=(sinceWindow marks).count emitter
  window : g.windowStartMs=lastWindow marks
  unopened : lastWindow marks=none → sinceWindow marks=[]

variable {g : DenialAuditGovernor} {marks : List GovernorMark} {emitterNode : String} {nowMs : Int}

theorem Tracks.flush (h : Tracks config g marks) :
    Tracks config g.flushSaturationSummary.2
      (marks++(g.flushSaturationSummary.1.map GovernorMark.summary).toList) := by
  unfold DenialAuditGovernor.flushSaturationSummary
  by_cases hnone : g.suppressed=0
  · rw [if_pos hnone]
    simpa using h
  · rw [if_neg hnone]
    simp only [Option.map_some,Option.toList_some]
    refine ⟨h.allowed.snoc ?_,?_,?_,?_,fun emitter => ?_,?_,?_⟩
    · rw [MarkAllowed,h.pending,h.distinct]
    · rw [sinceSummary_append]
      rfl
    · rw [sinceSummary_append]
      rfl
    · rw [sinceWindow_append]
      exact h.globalWritten
    · rw [sinceWindow_append]
      exact h.written emitter
    · rw [lastWindow_append]
      exact h.window
    · rw [lastWindow_append,sinceWindow_append]
      exact h.unopened

theorem Tracks.reset (h : Tracks config g marks) (hpen : g.suppressed=0) (nowMs : Int) :
    Tracks config (DenialAuditGovernor.reset nowMs) (marks++[.window nowMs]) := by
  have hnone : sinceSummary marks=[] := List.length_eq_zero_iff.mp (h.pending.symm.trans hpen)
  refine ⟨h.allowed.snoc trivial,?_,?_,?_,fun emitter => ?_,?_,?_⟩
  · rw [sinceSummary_append,hnone]
    rfl
  · rw [sinceSummary_append,hnone]
    rfl
  · rw [sinceWindow_append]
    rfl
  · rw [sinceWindow_append]
    rfl
  · rw [lastWindow_append]
    rfl
  · rw [sinceWindow_append]
    exact fun _ => rfl

theorem flush_suppressed : g.flushSaturationSummary.2.suppressed=0 := by
  unfold DenialAuditGovernor.flushSaturationSummary
  by_cases hnone : g.suppressed=0
  · rw [if_pos hnone]
    exact hnone
  · rw [if_neg hnone]

theorem pendingSummary_eq_flush : g.pendingSummary=g.flushSaturationSummary.1 := by
  unfold DenialAuditGovernor.pendingSummary DenialAuditGovernor.flushSaturationSummary
  split <;> rfl

theorem Tracks.started (h : Tracks config g marks) (hnone : g.windowStartMs=none) :
    Tracks config (g.started nowMs) (marks++[.window nowMs]) := by
  have hwin := h.unopened (h.window.symm.trans hnone)
  refine ⟨h.allowed.snoc trivial,?_,?_,?_,fun emitter => ?_,?_,?_⟩
  · rw [sinceSummary_append]
    exact h.pending
  · rw [sinceSummary_append]
    exact h.distinct
  · rw [sinceWindow_append]
    exact h.globalWritten.trans (by rw [hwin])
  · rw [sinceWindow_append]
    exact (h.written emitter).trans (by rw [hwin])
  · rw [lastWindow_append,DenialAuditGovernor.started,hnone]
    rfl
  · rw [sinceWindow_append]
    exact fun _ => rfl

theorem Tracks.count (h : Tracks config g marks) (hwin : InWindow config marks nowMs) :
    Tracks config (g.count config emitterNode).2
      (marks++[if (g.count config emitterNode).1 then .written emitterNode nowMs else .suppressed emitterNode nowMs]) := by
  have hope : lastWindow marks≠none := by
    obtain ⟨start,hsta,-⟩ := hwin
    rw [hsta]
    exact Option.some_ne_none start
  unfold DenialAuditGovernor.count
  by_cases hadm : g.admits config emitterNode=true
  · rw [if_pos hadm]
    have hroo := of_decide_eq_true hadm
    rw [h.globalWritten,h.written] at hroo
    refine ⟨h.allowed.snoc ⟨hroo.1,hroo.2,hwin⟩,?_,?_,?_,fun emitter => ?_,?_,fun hlas => absurd hlas ?_⟩
    · exact h.pending.trans (by simp)
    · exact h.distinct.trans (by simp)
    · simp [h.globalWritten]
    · simp only [DenialAuditGovernor.written,OrderedMap.get_set]
      by_cases heq : emitter=emitterNode
      · subst heq
        have hwri := h.written emitter
        simp only [DenialAuditGovernor.written] at hwri
        simp [hwri]
      · have hwri := h.written emitter
        simp only [DenialAuditGovernor.written] at hwri
        simp [heq,Ne.symm heq,hwri]
    · exact h.window.trans (by simp)
    · simpa using hope
  · rw [if_neg hadm]
    refine ⟨h.allowed.snoc hwin,?_,?_,?_,fun emitter => ?_,?_,fun hlas => absurd hlas ?_⟩
    · simp [h.pending]
    · simp only [h.distinct]
      ext emitter
      simp
    · exact h.globalWritten.trans (by simp)
    · exact (h.written emitter).trans (by simp)
    · exact h.window.trans (by simp)
    · simpa using hope

/-- A denial rolls the window if it is over, opens one if there is none, and is counted in it. -/
theorem Tracks.consider (h : Tracks config g marks) :
    Tracks config (g.consider config emitterNode nowMs).2 (marks++considerMarks config g emitterNode nowMs) := by
  unfold considerMarks opens DenialAuditGovernor.consider DenialAuditGovernor.rollIfElapsed
  by_cases hela : g.elapsed config nowMs=true
  · have hres := h.flush.reset flush_suppressed nowMs
    have hsta : (DenialAuditGovernor.reset nowMs).started nowMs=DenialAuditGovernor.reset nowMs := rfl
    simp only [hela,if_true,Bool.or_true,pendingSummary_eq_flush,hsta,← List.append_assoc]
    refine hres.count ⟨nowMs,?_,.inl rfl⟩
    rw [lastWindow_append]
  · simp only [hela,if_false,Bool.or_false,Option.map_none,Option.toList_none,List.nil_append,
      ← List.append_assoc,Bool.false_eq_true]
    cases hstt : g.windowStartMs with
    | none =>
      simp only [Option.isNone_none,if_true]
      refine (h.started hstt).count ⟨nowMs,?_,.inl rfl⟩
      rw [lastWindow_append]
    | some start =>
      have hsta : g.started nowMs=g := by
        unfold DenialAuditGovernor.started
        rw [hstt,Option.getD_some,← hstt]
      simp only [Option.isNone_some,Bool.false_eq_true,if_false,List.append_nil,hsta]
      refine h.count ⟨start,h.window.symm.trans hstt,.inr ?_⟩
      unfold DenialAuditGovernor.elapsed at hela
      rw [hstt,Option.any_some,decide_eq_true_eq] at hela
      exact lt_of_not_ge hela

theorem tracks_initial : Tracks config .initial [] :=
  ⟨.nil,rfl,rfl,rfl,fun _ => rfl,rfl,fun _ => rfl⟩

theorem governorRun_append (calls : List GovernorCall) (call : GovernorCall) :
    governorRun config (calls++[call])=(governorRun config calls).step config call := by
  simp only [governorRun,List.foldl_append,List.foldl_cons,List.foldl_nil]

theorem governorRun_tracks (config : GovernorConfig) (calls : List GovernorCall) :
    Tracks config (governorRun config calls).governor (governorRun config calls).marks := by
  induction calls using List.reverseRecOn with
  | nil => exact tracks_initial
  | append_singleton calls call ih =>
    rw [governorRun_append]
    cases call with
    | consider emitterNode nowMs => exact ih.consider
    | flush => exact ih.flush

theorem denialCount_governorRun (config : GovernorConfig) (calls : List GovernorCall) :
    denialCount (governorRun config calls).marks=consideredCount calls := by
  have hsum : ∀ s : Option DenialSaturationSummary, denialCount (s.map GovernorMark.summary).toList=0 := by
    intro s
    cases s <;> rfl
  induction calls using List.reverseRecOn with
  | nil => rfl
  | append_singleton calls call ih =>
    rw [governorRun_append,consideredCount,List.countP_append,← consideredCount,← ih]
    cases call with
    | flush =>
      have hflu := hsum (governorRun config calls).governor.flushSaturationSummary.1
      simp only [denialCount] at hflu
      simp only [GovernorRun.step,denialCount,List.countP_append,hflu]
      rfl
    | consider emitterNode nowMs =>
      have hrol := hsum ((governorRun config calls).governor.consider config emitterNode nowMs).1.saturationSummary
      simp only [denialCount] at hrol
      simp only [GovernorRun.step,considerMarks,denialCount,List.countP_append,hrol]
      split <;> split <;> simp

end CastleWall.Mesh
