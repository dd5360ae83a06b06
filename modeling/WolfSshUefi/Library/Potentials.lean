import WolfSshUefi.Library.Transducer

/-!
# Potentials

A transducer that saves up before it answers: when no step answers more than what it is
given and what is saved, no run answers more than it is given and what was saved at first
(`total_outputs_le`).
-/

namespace Transducer

variable {σ ι ο : Type} (step : σ → ι → σ × List ο) (cost : ο → Nat)

/-- The cost of some answers. -/
def total : List ο → Nat
  | [] => 0
  | o :: rest => cost o + total rest

theorem total_append (first rest : List ο) :
    total cost (first ++ rest) = total cost first + total cost rest := by
  induction first with
  | nil => exact (Nat.zero_add _).symm
  | cons o tail ih =>
      simp only [List.cons_append, total, ih]
      omega

theorem total_of_free {answers : List ο} (h : ∀ o ∈ answers, cost o = 0) :
    total cost answers = 0 := by
  induction answers with
  | nil => rfl
  | cons o rest ih =>
      have hrest := ih fun o' ho' => h o' (List.mem_cons_of_mem _ ho')
      simp only [total, h o List.mem_cons_self, hrest]

variable {step cost}

/-- **What a run answers has been paid for.** -/
theorem total_outputs_le {potential : σ → Nat} {price : Nat}
    (hstep : ∀ s i, total cost (step s i).2 + potential (step s i).1 ≤ potential s + price)
    (s : σ) (input : List ι) :
    total cost (outputs step s input) + potential (after step s input) ≤
      potential s + price * input.length := by
  induction input generalizing s with
  | nil => simp [total]
  | cons i rest ih =>
      have hhere := hstep s i
      have hlater := ih (step s i).1
      rw [outputs_cons, after_cons, total_append, List.length_cons, Nat.mul_succ]
      omega

end Transducer
