import Mathlib.Data.List.Basic

/-! # Files replaced by renaming

A reader sees the last content renamed into place. Until the directory has been synced, a crash may bring
back any content it replaced since. -/

namespace CastleWall

structure RenamedFile (α : Type) where
  visible : Option α
  /-- Replaced contents that the directory on disk may still name. -/
  older : List (Option α)

namespace RenamedFile

variable {α : Type}

def survivors (f : RenamedFile α) : List (Option α) := f.visible::f.older

def rename (f : RenamedFile α) (content : α) : RenamedFile α :=
  { visible := some content, older := f.survivors }

def sync (f : RenamedFile α) : RenamedFile α := { f with older := [] }

def found (content : Option α) : RenamedFile α := { visible := content, older := [] }

def Always (P : Option α → Prop) (f : RenamedFile α) : Prop := ∀ content∈f.survivors, P content

variable {P : Option α → Prop} {f : RenamedFile α}

theorem Always.visible (h : Always P f) : P f.visible := h _ List.mem_cons_self

theorem Always.rename (h : Always P f) {content : α} (hnew : P (some content)) :
    Always P (f.rename content) := by
  intro c hc
  rcases List.mem_cons.mp hc with rfl | hc
  · exact hnew
  · exact h c hc

theorem always_found {content : Option α} (h : P content) : Always P (RenamedFile.found content) := by
  intro c hc
  rcases List.mem_cons.mp hc with rfl | hc
  · exact h
  · exact absurd hc List.not_mem_nil

theorem Always.found (h : Always P f) {content : Option α} (hmem : content∈f.survivors) :
    Always P (RenamedFile.found content) :=
  always_found (h content hmem)

theorem Always.imp {Q : Option α → Prop} (h : Always P f) (himp : ∀ content, P content → Q content) :
    Always Q f :=
  fun content hmem => himp content (h content hmem)

/-- Readers see the same content, and a restart finds nothing it would not have found before. -/
structure Kept (f f' : RenamedFile α) : Prop where
  visible : f'.visible=f.visible
  survivors : f'.survivors ⊆ f.survivors

theorem Kept.refl (f : RenamedFile α) : Kept f f := ⟨rfl,List.Subset.refl _⟩

theorem Kept.trans {f f' f'' : RenamedFile α} (h : Kept f f') (h' : Kept f' f'') : Kept f f'' :=
  ⟨h'.visible.trans h.visible,List.Subset.trans h'.survivors h.survivors⟩

theorem kept_sync (f : RenamedFile α) : Kept f f.sync := by
  refine ⟨rfl,?_⟩
  intro c hc
  rcases List.mem_cons.mp hc with rfl | hc
  · exact List.mem_cons_self
  · exact absurd hc List.not_mem_nil

/-- A rename keeps the file only when the content was already there. -/
theorem kept_rename_iff (f : RenamedFile α) (content : α) :
    Kept f (f.rename content) ↔ f.visible=some content := by
  constructor
  · intro h
    exact h.visible.symm
  · intro h
    refine ⟨h.symm,?_⟩
    intro c hc
    rcases List.mem_cons.mp hc with rfl | hc
    · rw [rename,← h]
      exact List.mem_cons_self
    · exact hc

theorem Always.kept {f' : RenamedFile α} (h : Always P f) (hkep : Kept f f') : Always P f' :=
  fun content hmem => h content (hkep.survivors hmem)

end RenamedFile

end CastleWall
