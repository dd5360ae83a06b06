import Mathlib.Logic.Function.Basic

/-!
# What an observer sees of a machine

A view shows a part of a machine's state.  A machine that `Respects` a view changes
what is seen by what is seen only, so states that look alike go on looking alike
(`Respects.foldl`).  A machine whose steps may fail `Follows` a machine that reads
symbols when each step, seen through the view, reads the symbols that belong to it;
then a whole run reads the symbols of all its steps, whatever steps come between
(`Follows.run`).
-/

namespace Views

variable {σ ν ι κ ε : Type}

/-- What is seen after a step depends on what is seen before it. -/
def Respects (view : σ → ν) (step : σ → ι → σ) : Prop :=
  ∀ s s' i, view s = view s' → view (step s i) = view (step s' i)

theorem Respects.foldl {view : σ → ν} {step : σ → ι → σ} (h : Respects view step) {s s' : σ}
    (hsame : view s = view s') (input : List ι) :
    view (input.foldl step s) = view (input.foldl step s') := by
  induction input generalizing s s' with
  | nil => exact hsame
  | cons i rest ih => exact ih (h s s' i hsame)

/-- A step succeeds on every good state, leaves a good one, and seen through the view it
reads the symbols of the step. -/
def Follows (good : σ → Prop) (view : σ → ν) (step : σ → ι → Except ε σ) (symbols : ι → List κ)
    (reads : ν → List κ → ν) : Prop :=
  ∀ s i, good s → ∃ s', step s i = .ok s' ∧ good s' ∧ view s' = reads (view s) (symbols i)

/-- A run succeeds, and seen through the view it reads the symbols of its steps. -/
theorem Follows.run {good : σ → Prop} {view : σ → ν} {step : σ → ι → Except ε σ}
    {symbols : ι → List κ} {reads : ν → List κ → ν} (h : Follows good view step symbols reads)
    (hnil : ∀ v, reads v [] = v)
    (happend : ∀ v first rest, reads v (first ++ rest) = reads (reads v first) rest) {s : σ}
    (hs : good s) (steps : List ι) :
    ∃ s', steps.foldlM step s = .ok s' ∧ good s' ∧
      view s' = reads (view s) (steps.flatMap symbols) := by
  induction steps generalizing s with
  | nil => exact ⟨s, rfl, hs, (hnil _).symm⟩
  | cons i rest ih =>
      obtain ⟨next, hstep, hnext, hview⟩ := h s i hs
      obtain ⟨last, hrest, hlast, hend⟩ := ih hnext
      refine ⟨last, ?_, hlast, ?_⟩
      · rw [List.foldlM_cons, hstep]
        exact hrest
      · rw [hend, hview, List.flatMap_cons, happend]

end Views
