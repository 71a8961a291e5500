import Mathlib.Data.List.Induction

/-! # Incremental readers

A reader takes one value at a time from the front of the bytes received so far. Where its answer
is settled by the bytes it has seen, the values read do not depend on how the bytes were split
into chunks. -/

namespace CastleWall.Incremental

inductive Step (α ε : Type) where
  | complete (value : α) (consumed : Nat)
  | needMore
  | error (reason : ε)
  deriving DecidableEq

/-- A reader whose answers are settled: each value takes at least one of the bytes present, and an
answer other than `needMore` is unchanged by later bytes. -/
structure Reader (α β ε : Type) where
  step : List β → Step α ε
  consumes : ∀ {bytes value consumed}, step bytes=.complete value consumed →
    0 < consumed ∧ consumed ≤ bytes.length
  stable : ∀ {bytes}, step bytes≠.needMore → ∀ more, step (bytes++more)=step bytes

/-- The values read so far, the bytes not yet consumed, and the error that ended the reading. -/
structure Received (α β ε : Type) where
  values : List α
  rest : List β
  error : Option ε

variable {α β ε : Type}

def Received.start : Received α β ε := ⟨[],[],none⟩

def Received.prepend (values : List α) (r : Received α β ε) : Received α β ε :=
  { r with values := values++r.values }

@[simp] theorem Received.prepend_nil (r : Received α β ε) : r.prepend []=r := rfl

@[simp] theorem Received.prepend_prepend (xs ys : List α) (r : Received α β ε) :
    (r.prepend ys).prepend xs=r.prepend (xs++ys) := by
  simp [Received.prepend]

@[simp] theorem Received.prepend_rest (xs : List α) (r : Received α β ε) :
    (r.prepend xs).rest=r.rest := rfl

@[simp] theorem Received.prepend_error (xs : List α) (r : Received α β ε) :
    (r.prepend xs).error=r.error := rfl

@[simp] theorem Received.prepend_values (xs : List α) (r : Received α β ε) :
    (r.prepend xs).values=xs++r.values := rfl

namespace Reader

variable (reader : Reader α β ε)

/-- The parse loop: values are taken until more bytes are needed or the bytes are malformed. -/
def drain (bytes : List β) : Received α β ε :=
  match _h : reader.step bytes with
  | .complete value consumed => (drain (bytes.drop consumed)).prepend [value]
  | .needMore => ⟨[],bytes,none⟩
  | .error reason => ⟨[],bytes,some reason⟩
termination_by bytes.length
decreasing_by
  have := reader.consumes _h
  simp only [List.length_drop]
  omega

/-- A chunk arrives: it is appended to the bytes kept back and the loop runs again. After an error
the reader is closed. -/
def feed (received : Received α β ε) (chunk : List β) : Received α β ε :=
  match received.error with
  | some _ => received
  | none => (reader.drain (received.rest++chunk)).prepend received.values

def feedAll (chunks : List (List β)) : Received α β ε :=
  chunks.foldl reader.feed Received.start

variable {reader} {bytes : List β}

theorem drain_complete {value : α} {consumed : Nat}
    (h : reader.step bytes=.complete value consumed) :
    reader.drain bytes=(reader.drain (bytes.drop consumed)).prepend [value] := by
  rw [drain]
  split
  · rename_i heq
    rw [h] at heq
    cases heq
    rfl
  · rename_i heq
    simp [h] at heq
  · rename_i heq
    simp [h] at heq

theorem drain_needMore (h : reader.step bytes=.needMore) :
    reader.drain bytes=⟨[],bytes,none⟩ := by
  rw [drain]
  split
  · rename_i heq
    simp [h] at heq
  · rfl
  · rename_i heq
    simp [h] at heq

theorem drain_error {reason : ε} (h : reader.step bytes=.error reason) :
    reader.drain bytes=⟨[],bytes,some reason⟩ := by
  rw [drain]
  split
  · rename_i heq
    simp [h] at heq
  · rename_i heq
    simp [h] at heq
  · rename_i heq
    rw [h] at heq
    cases heq
    rfl

/-- Reading `bytes` and then the rest together with `more` reads what `bytes ++ more` holds. -/
theorem drain_append (h : (reader.drain bytes).error=none) (more : List β) :
    reader.drain (bytes++more) =
      (reader.drain ((reader.drain bytes).rest++more)).prepend (reader.drain bytes).values := by
  induction hn : bytes.length using Nat.strongRecOn generalizing bytes with
  | ind n ih =>
    cases hste : reader.step bytes with
    | needMore => simp [drain_needMore hste]
    | error reason => simp [drain_error hste] at h
    | complete value consumed =>
      have hlen := reader.consumes hste
      have hmor : reader.step (bytes++more)=.complete value consumed := by
        rw [reader.stable (by simp [hste]),hste]
      rw [drain_complete hste,Received.prepend_error] at h
      rw [drain_complete hste,drain_complete hmor,List.drop_append_of_le_length hlen.2,
        ih _ (by rw [List.length_drop]; omega) h rfl]
      simp

theorem drain_append_error {reason : ε}
    (h : (reader.drain bytes).error=some reason) (more : List β) :
    (reader.drain (bytes++more)).error=some reason := by
  induction hn : bytes.length using Nat.strongRecOn generalizing bytes with
  | ind n ih =>
    cases hste : reader.step bytes with
    | needMore => simp [drain_needMore hste] at h
    | error found =>
      have hmor : reader.step (bytes++more)=.error found := by
        rw [reader.stable (by simp [hste]),hste]
      rw [drain_error hste] at h
      rw [drain_error hmor]
      exact h
    | complete value consumed =>
      have hlen := reader.consumes hste
      have hmor : reader.step (bytes++more)=.complete value consumed := by
        rw [reader.stable (by simp [hste]),hste]
      rw [drain_complete hste,Received.prepend_error] at h
      rw [drain_complete hmor,List.drop_append_of_le_length hlen.2,Received.prepend_error]
      exact ih _ (by rw [List.length_drop]; omega) h rfl

/-- Chunks that together hold bytes read without error are read to the same values and rest. -/
theorem feedAll_of_drain {chunks : List (List β)}
    (h : (reader.drain chunks.flatten).error=none) :
    reader.feedAll chunks=reader.drain chunks.flatten := by
  -- the invariant: what is fed so far is what one run of the loop reads from the same bytes
  induction chunks using List.reverseRecOn with
  | nil =>
    cases hste : reader.step ([] : List β) with
    | needMore => simp [feedAll,Received.start,drain_needMore hste]
    | error reason => simp [drain_error hste] at h
    | complete value consumed =>
      have := reader.consumes hste
      simp only [List.length_nil] at this
      omega
  | append_singleton chunks chunk ih =>
    rw [List.flatten_append,List.flatten_singleton] at h ⊢
    cases herr : (reader.drain chunks.flatten).error with
    | some reason => simp [drain_append_error herr] at h
    | none =>
      rw [feedAll,List.foldl_append,List.foldl_cons,List.foldl_nil]
      change reader.feed (reader.feedAll chunks) chunk=_
      rw [ih herr,feed,herr,drain_append herr]

end Reader

end CastleWall.Incremental
