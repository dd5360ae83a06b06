import Mathlib.Logic.Function.Basic

/-!
# Transducers

A transducer reads one symbol at a time and answers each with a list of
outputs.  `after` is its state once some input is read and `outputs` what it
has answered by then.  Whatever holds of every step holds of every run:
an output of a run is an output of one of its steps (`mem_outputs`), a
property that every step keeps is kept (`after_invariant`), and states that
stay alike answer every input alike (`alike_run`).
-/

namespace Transducer

variable {σ ι ο : Type} (step : σ → ι → σ × List ο)

/-- The state once `input` is read. -/
def after (s : σ) (input : List ι) : σ :=
  input.foldl (fun s i => (step s i).1) s

/-- Everything answered while `input` is read. -/
def outputs : σ → List ι → List ο
  | _, [] => []
  | s, i :: rest => (step s i).2 ++ outputs (step s i).1 rest

@[simp] theorem after_nil (s : σ) : after step s [] = s := rfl

@[simp] theorem after_cons (s : σ) (i : ι) (rest : List ι) :
    after step s (i :: rest) = after step (step s i).1 rest := rfl

/-- Reading in two pieces. -/
theorem after_append (s : σ) (first rest : List ι) :
    after step s (first ++ rest) = after step (after step s first) rest :=
  List.foldl_append

@[simp] theorem outputs_nil (s : σ) : outputs step s [] = [] := rfl

@[simp] theorem outputs_cons (s : σ) (i : ι) (rest : List ι) :
    outputs step s (i :: rest) = (step s i).2 ++ outputs step (step s i).1 rest := rfl

/-- The outputs of two pieces. -/
theorem outputs_append (s : σ) (first rest : List ι) :
    outputs step s (first ++ rest) =
      outputs step s first ++ outputs step (after step s first) rest := by
  induction first generalizing s with
  | nil => rfl
  | cons i tail ih =>
      rw [List.cons_append, outputs_cons, outputs_cons, after_cons, ih, List.append_assoc]

variable {step}

/-- An output of a run is an output of one of its steps. -/
theorem mem_outputs {s : σ} {input : List ι} {o : ο} (h : o ∈ outputs step s input) :
    ∃ first i rest, input = first ++ i :: rest ∧ o ∈ (step (after step s first) i).2 := by
  induction input generalizing s with
  | nil => cases h
  | cons i tail ih =>
      rcases List.mem_append.mp h with hhere | hlater
      · exact ⟨[], i, tail, rfl, hhere⟩
      · obtain ⟨first, j, rest, rfl, hj⟩ := ih hlater
        exact ⟨i :: first, j, rest, rfl, hj⟩

/-- A property kept by every step is kept by every run. -/
theorem after_invariant {inv : σ → Prop} (hstep : ∀ s i, inv s → inv (step s i).1) {s : σ}
    (hs : inv s) (input : List ι) : inv (after step s input) := by
  induction input generalizing s with
  | nil => exact hs
  | cons i rest ih => exact ih (hstep s i hs)

/-- States that stay alike answer every input alike. -/
theorem alike_run {alike : σ → σ → Prop}
    (hstep : ∀ s s' i, alike s s' → (step s i).2 = (step s' i).2 ∧ alike (step s i).1 (step s' i).1)
    {s s' : σ} (h : alike s s') (input : List ι) :
    outputs step s input = outputs step s' input ∧
      alike (after step s input) (after step s' input) := by
  induction input generalizing s s' with
  | nil => exact ⟨rfl, h⟩
  | cons i rest ih =>
      obtain ⟨hnow, halike⟩ := hstep s s' i h
      obtain ⟨hlater, hend⟩ := ih halike
      refine ⟨?_, hend⟩
      rw [outputs_cons, outputs_cons, hnow, hlater]

end Transducer
