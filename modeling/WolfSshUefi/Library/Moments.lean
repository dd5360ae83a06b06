import WolfSshUefi.Library.Async

/-!
# What is left of the moments

A program draws from the front of a stream of moments, so whatever is true of every moment
before it is true of every moment that it leaves.
-/

namespace Async

variable {μ σ α β : Type} {good : μ → Prop}

/-- The program leaves good moments when all moments before it are good. -/
def Leaves (good : μ → Prop) (x : Async μ σ α) : Prop :=
  ∀ s moments, (∀ i, good (moments i)) → ∀ i, good ((x (s, moments)).2.2 i)

namespace Leaves

/-- A value uses up no moments. -/
theorem pure (a : α) : Leaves (σ := σ) good (Pure.pure a) := fun _ _ h => h

/-- A draw uses up one, and the others are as good. -/
theorem draw : Leaves (σ := σ) good Async.draw := fun _ _ h i => h (i + 1)

/-- Reading uses up none. -/
theorem read (f : σ → α) : Leaves good (Async.read f) := fun _ _ h => h

theorem update (f : σ → σ) : Leaves good (Async.update f) := fun _ _ h => h

theorem bind {x : Async μ σ α} {f : α → Async μ σ β} (hx : Leaves good x)
    (hf : ∀ a, Leaves good (f a)) : Leaves good (x >>= f) :=
  fun s moments h => hf _ _ _ (hx s moments h)

/-- A choice, by its branches. -/
theorem ite {c : Prop} [Decidable c] {x y : Async μ σ α} (hx : Leaves good x)
    (hy : Leaves good y) : Leaves good (if c then x else y) := by
  split
  · exact hx
  · exact hy

end Leaves

end Async
