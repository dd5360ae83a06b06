import WolfSshUefi.Library.Async

/-!
# How much of the world a program uses up

The number of moments that a program draws, whatever they are.  A program that waits for the
world draws moments, so a bound on them is a bound on the wait.
-/

namespace Async

variable {μ σ α β : Type}

/-- The program draws at most `c` moments, and leaves the others. -/
def Draws (c : Nat) (x : Async μ σ α) : Prop :=
  ∀ s moments, ∃ k, k ≤ c ∧ (x (s, moments)).2.2 = fun i => moments (i + k)

namespace Draws

variable {a b c : Nat} {x y : Async μ σ α}

/-- A value costs nothing. -/
theorem pure (v : α) (c : Nat) : Draws c (Pure.pure v : Async μ σ α) :=
  fun _ _ => ⟨0, Nat.zero_le c, rfl⟩

/-- A draw costs one. -/
theorem draw : Draws 1 (Async.draw : Async μ σ μ) := fun _ _ => ⟨1, Nat.le_refl 1, rfl⟩

/-- Reading costs nothing. -/
theorem read (f : σ → α) : Draws 0 (Async.read f : Async μ σ α) :=
  fun _ _ => ⟨0, Nat.le_refl 0, rfl⟩

/-- An update costs nothing. -/
theorem update (f : σ → σ) : Draws 0 (Async.update f : Async μ σ Unit) :=
  fun _ _ => ⟨0, Nat.le_refl 0, rfl⟩

/-- What is within a bound is within a larger one. -/
theorem mono (h : Draws a x) (hle : a ≤ b) : Draws b x := by
  intro s moments
  obtain ⟨k, hk, hleft⟩ := h s moments
  exact ⟨k, Nat.le_trans hk hle, hleft⟩

/-- What comes after draws from what is left. -/
theorem bind {f : α → Async μ σ β} (hx : Draws a x) (hf : ∀ v, Draws b (f v)) :
    Draws (b + a) (x >>= f) := by
  intro s moments
  obtain ⟨k, hk, hleft⟩ := hx s moments
  obtain ⟨l, hl, hrest⟩ := hf (x (s, moments)).1 (x (s, moments)).2.1 (x (s, moments)).2.2
  refine ⟨l + k, by omega, ?_⟩
  have hunfold : ((x >>= f) (s, moments)).2.2 =
      (f (x (s, moments)).1 ((x (s, moments)).2.1, (x (s, moments)).2.2)).2.2 := rfl
  rw [hunfold, hrest, hleft]
  funext i
  exact congrArg moments (Nat.add_assoc i l k)

/-- A choice costs what its branches cost. -/
theorem ite {p : Prop} [Decidable p] (hx : Draws c x) (hy : Draws c y) :
    Draws c (if p then x else y) := by
  split
  · exact hx
  · exact hy

/-- Making something else of the result draws nothing. -/
theorem map (hx : Draws c x) (f : α → β) : Draws c (x >>= fun v => Pure.pure (f v)) := by
  have hboth := hx.bind fun v => Draws.pure (f v) 0
  rwa [Nat.zero_add] at hboth

/-- A step that draws one moment. -/
theorem spend {f : β → Async μ σ α} {x : Async μ σ β} (hx : Draws 1 x) (hf : ∀ v, Draws c (f v)) :
    Draws (c + 1) (x >>= f) :=
  bind hx hf

/-- A step that draws none. -/
theorem free {f : β → Async μ σ α} {x : Async μ σ β} (hx : Draws 0 x) (hf : ∀ v, Draws c (f v)) :
    Draws c (x >>= f) :=
  bind hx hf

end Draws

end Async
