import Mathlib.Logic.Function.Basic

/-!
# Counted loops over a fallible step

A C loop that touches buffers is embedded as a loop whose body may fail: the
body reports the first access outside its buffer, and the loop stops there.
Two loop shapes cover the code of interest: `for (x = first; …; x++)`, with
the number of iterations known on entry, and `while (x-- > low)`.

The rule for either loop names the state after every iteration by a family
`state : Nat → σ`.  When each iteration takes one member to the next, the loop
succeeds and ends in the last member, so an in-place update is verified by
naming what the buffer holds halfway.

Unsigned subtraction is tracked: the difference carries a flag that says
whether it wrapped, and `use` refuses a wrapped difference.
-/

namespace Loops

variable {ε σ α : Type}

/-- `for (x = first; …; x++)` with `count` iterations to go. -/
def upFrom (body : Nat → σ → Except ε σ) : Nat → Nat → σ → Except ε σ
  | 0, _, s => .ok s
  | count + 1, first, s => do
      let s ← body first s
      upFrom body count (first + 1) s

/-- `while (x-- > low)`, entered with the given value of `x`. -/
def downTo (body : Nat → σ → Except ε σ) (low : Nat) : Nat → σ → Except ε σ
  | 0, s => .ok s
  | x + 1, s =>
      if low < x + 1 then do
        let s ← body x s
        downTo body low x s
      else .ok s

@[simp] theorem ok_bind (a : α) (f : α → Except ε σ) :
    (Except.ok a >>= f) = f a := rfl

@[simp] theorem pure_eq_ok (a : α) : (pure a : Except ε α) = .ok a := rfl

/-- Two decisions with equivalent conditions, the first one giving the results
of the choices of the second. -/
theorem ite_eq_of_iff {β : Type} {P Q : Prop} [Decidable P] [Decidable Q] (f : α → β)
    {r s : β} {x y : α} (hcond : P ↔ Q) (hyes : P → r = f x) (hno : ¬ P → s = f y) :
    (if P then r else s) = f (if Q then x else y) := by
  by_cases hp : P
  · rw [if_pos hp, if_pos (hcond.mp hp), hyes hp]
  · rw [if_neg hp, if_neg (fun hq => hp (hcond.mpr hq)), hno hp]

/-- **Ascending loop rule.** -/
theorem upFrom_eq (body : Nat → σ → Except ε σ) (state : Nat → σ) (count first : Nat)
    (h : ∀ j, j < count → body (first + j) (state j) = .ok (state (j + 1))) :
    upFrom body count first (state 0) = .ok (state count) := by
  induction count generalizing first state with
  | zero => rfl
  | succ n ih =>
      have hfirst : body first (state 0) = .ok (state 1) := h 0 (by omega)
      have hrest := ih (fun j => state (j + 1)) (first + 1) (fun j hj => by
        have hj' := h (j + 1) (by omega)
        rwa [show first + (j + 1) = first + 1 + j by omega] at hj')
      simpa [upFrom, hfirst] using hrest

/-- An ascending loop whose rounds keep an invariant that depends on the
counter.  The end state is not named. -/
theorem upFrom_invariant {body : Nat → σ → Except ε σ} {inv : Nat → σ → Prop} (count first : Nat)
    (h : ∀ x s, first ≤ x → x < first + count → inv x s →
      ∃ s', body x s = .ok s' ∧ inv (x + 1) s') {s : σ} (hs : inv first s) :
    ∃ s', upFrom body count first s = .ok s' ∧ inv (first + count) s' := by
  induction count generalizing first s with
  | zero => exact ⟨s, rfl, hs⟩
  | succ n ih =>
      obtain ⟨s', hbody, hs'⟩ := h first s (Nat.le_refl first) (by omega) hs
      obtain ⟨last, hrest, hlast⟩ := ih (first + 1)
        (fun x s hx hlt => h x s (by omega) (by omega)) hs'
      have hcount : first + (n + 1) = first + 1 + n := by omega
      refine ⟨last, ?_, hcount ▸ hlast⟩
      simpa [upFrom, hbody] using hrest

/-- **Descending loop rule.**  `state x` is the state in which the counter is
`x`, that is with every index from `x` upwards done. -/
theorem downTo_eq (body : Nat → σ → Except ε σ) (state : Nat → σ) (low high : Nat)
    (hle : low ≤ high)
    (h : ∀ x, low ≤ x → x < high → body x (state (x + 1)) = .ok (state x)) :
    downTo body low high (state high) = .ok (state low) := by
  induction high with
  | zero =>
      obtain rfl : low = 0 := by omega
      rfl
  | succ n ih =>
      by_cases hlow : low = n + 1
      · subst hlow
        simp [downTo]
      · have hbody : body n (state (n + 1)) = .ok (state n) := h n (by omega) (by omega)
        have hrest := ih (by omega) (fun x hx hlt => h x hx (by omega))
        simpa [downTo, hbody, show low < n + 1 by omega] using hrest

/-- A fallible step that agrees with a total one wherever an invariant holds,
and keeps it, runs like the total one over any list of inputs. -/
theorem foldlM_eq_foldl {step : σ → α → Except ε σ} {next : σ → α → σ} {inv : σ → Prop}
    (h : ∀ s a, inv s → step s a = .ok (next s a) ∧ inv (next s a)) :
    ∀ (inputs : List α) {s : σ}, inv s →
      inputs.foldlM step s = .ok (inputs.foldl next s) ∧ inv (inputs.foldl next s) := by
  intro inputs
  induction inputs with
  | nil => exact fun hs => ⟨rfl, hs⟩
  | cons a rest ih =>
      intro s hs
      obtain ⟨hstep, hnext⟩ := h s a hs
      simpa [List.foldlM_cons, hstep] using ih hnext

/-- A fallible step that cannot fail where an invariant holds, and keeps it,
runs over any list of inputs without failing. -/
theorem foldlM_invariant {step : σ → α → Except ε σ} {inv : σ → Prop}
    (h : ∀ s a, inv s → ∃ s', step s a = .ok s' ∧ inv s') :
    ∀ (inputs : List α) {s : σ}, inv s →
      ∃ s', inputs.foldlM step s = .ok s' ∧ inv s' := by
  intro inputs
  induction inputs with
  | nil => exact fun hs => ⟨_, rfl, hs⟩
  | cons a rest ih =>
      intro s hs
      obtain ⟨s', hstep, hs'⟩ := h s a hs
      simpa [List.foldlM_cons, hstep] using ih hs'

/-- The result of an unsigned subtraction, with a mark for a wrapped one. -/
structure Difference where
  value : Nat
  wrapped : Bool

/-- `a - b` in 64-bit unsigned arithmetic. -/
def difference (a b : Nat) : Difference :=
  if b ≤ a then ⟨a - b, false⟩ else ⟨a + 0x10000000000000000 - b, true⟩

/-- Take a difference as an index, a bound or a value to store. -/
def Difference.use (d : Difference) (fault : ε) : Except ε Nat :=
  if d.wrapped then .error fault else .ok d.value

/-- A difference that does not wrap. -/
theorem difference_of_le {a b : Nat} (h : b ≤ a) : difference a b = ⟨a - b, false⟩ := by
  simp [difference, h]

theorem difference_of_lt {a b : Nat} (h : a < b) :
    difference a b = ⟨a + 0x10000000000000000 - b, true⟩ := by
  simp [difference, show ¬ b ≤ a by omega]

/-- A difference that is used must not wrap. -/
theorem use_difference {a b : Nat} (h : b ≤ a) (fault : ε) :
    (difference a b).use fault = .ok (a - b) := by
  simp [difference_of_le h, Difference.use]

end Loops
