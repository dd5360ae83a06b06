import Mathlib.Logic.Basic

/-!
# Programs that come to an end

A program in `Except` can fail for want of something from outside.  It yields a result when it
does not: that says of a run what a postcondition leaves open, that there is a result at all.
-/

/-- The program ends with a result for which `P` holds. -/
def Yields {ε α : Type} (x : Except ε α) (P : α → Prop) : Prop := ∃ a, x = .ok a ∧ P a

namespace Yields

variable {ε α β : Type} {P P' : α → Prop} {Q : β → Prop} {x : Except ε α}

/-- A value yields itself. -/
theorem ok {a : α} (h : P a) : Yields (ε := ε) (.ok a) P := ⟨a, rfl, h⟩

theorem bind {f : α → Except ε β} (hx : Yields x P) (hf : ∀ a, P a → Yields (f a) Q) :
    Yields (x >>= f) Q := by
  obtain ⟨a, rfl, ha⟩ := hx
  exact hf a ha

/-- A choice, by the branch that is taken. -/
theorem ite {c : Prop} [Decidable c] {y : Except ε α} (hx : c → Yields x P)
    (hy : ¬ c → Yields y P) : Yields (if c then x else y) P := by
  split
  · next h => exact hx h
  · next h => exact hy h

/-- What yields more yields less. -/
theorem mono (h : Yields x P) (hP : ∀ a, P a → P' a) : Yields x P' := by
  obtain ⟨a, hx, ha⟩ := h
  exact ⟨a, hx, hP a ha⟩

end Yields
