import Mathlib.Logic.Function.Basic

/-!
# Loops that make progress

A `while` loop as its round: a function that ends the loop with a result, or
gives the state of the next round.  If every round keeps an invariant and lowers
a measure, the loop ends, and its result is what the last round makes of the
invariant.

A computation made of loops ends with a result when every larger number of rounds
gives that result.  Its loops are then followed round by round (`Ends.next`).
-/

namespace Rounds

variable {σ ρ : Type}

/-- The loop, with so many rounds allowed. -/
def run (round : σ → ρ ⊕ σ) : Nat → σ → Option ρ
  | 0, _ => none
  | rounds + 1, s =>
      match round s with
      | .inl r => some r
      | .inr s => run round rounds s

variable {round : σ → ρ ⊕ σ} {s s' : σ} {r : ρ}

/-- A round that ends. -/
theorem run_inl (h : round s = .inl r) (rounds : Nat) : run round (rounds + 1) s = some r := by
  simp [run, h]

/-- A round that goes on. -/
theorem run_inr (h : round s = .inr s') (rounds : Nat) :
    run round (rounds + 1) s = run round rounds s' := by
  simp [run, h]

/-- **The loop ends**, and what ends it comes from the invariant. -/
theorem run_ends {inv : σ → Prop} {post : ρ → Prop} {measure : σ → Nat}
    (hend : ∀ s r, inv s → round s = .inl r → post r)
    (hnext : ∀ s s', inv s → round s = .inr s' → inv s' ∧ measure s' < measure s)
    {rounds : Nat} (hs : inv s) (hrounds : measure s < rounds) :
    ∃ r, run round rounds s = some r ∧ post r := by
  induction rounds generalizing s with
  | zero => exact absurd hrounds (Nat.not_lt_zero _)
  | succ left ih =>
      cases hround : round s with
      | inl r => exact ⟨r, run_inl hround left, hend s r hs hround⟩
      | inr next =>
          obtain ⟨hinv, hless⟩ := hnext s next hs hround
          rw [run_inr hround]
          exact ih hinv (by omega)

/-- With enough rounds, the result is `r`. -/
def Ends (loop : Nat → Option ρ) (r : ρ) : Prop :=
  ∃ enough, ∀ rounds, enough ≤ rounds → loop rounds = some r

namespace Ends

variable {τ : Type}

/-- With a round that ends the loop ends. -/
theorem last (h : round s = .inl r) : Ends (fun rounds => run round rounds s) r := by
  refine ⟨1, fun rounds hrounds => ?_⟩
  obtain ⟨left, rfl⟩ : ∃ left, rounds = left + 1 := ⟨rounds - 1, by omega⟩
  exact run_inl h left

/-- A round more, and then it ends. -/
theorem next (h : round s = .inr s') (hrest : Ends (fun rounds => run round rounds s') r) :
    Ends (fun rounds => run round rounds s) r := by
  obtain ⟨enough, hrest⟩ := hrest
  refine ⟨enough + 1, fun rounds hrounds => ?_⟩
  obtain ⟨left, rfl⟩ : ∃ left, rounds = left + 1 := ⟨rounds - 1, by omega⟩
  calc run round (left + 1) s = run round left s' := run_inr h left
    _ = some r := hrest left (by omega)

/-- What follows a loop starts from its result. -/
theorem bind {loop : Nat → Option ρ} {rest : ρ → Nat → Option τ} {t : τ} (h : Ends loop r)
    (hrest : Ends (rest r) t) :
    Ends (fun rounds => (loop rounds).bind fun r => rest r rounds) t := by
  obtain ⟨enough, h⟩ := h
  obtain ⟨enough', hrest⟩ := hrest
  refine ⟨enough + enough', fun rounds hrounds => ?_⟩
  have hfirst := h rounds (by omega)
  have hlast := hrest rounds (by omega)
  simp only [hfirst, Option.bind_some]
  exact hlast

/-- A value is there at once. -/
theorem value (r : ρ) : Ends (fun _ => some r) r := ⟨0, fun _ _ => rfl⟩

end Ends

end Rounds
