import Mathlib.Data.List.Nodup

/-!
# Ledgers

The books of a program that acquires and releases resources: what it acquired,
what it released, and what it holds.  They are balanced when nothing was acquired
twice, and everything acquired is either released, once, or held.
-/

namespace Ledger

variable {ρ : Type} [DecidableEq ρ]

/-- Of the resources in `acquired` those in `held` are not released, and the others
are, once. -/
structure Balanced (acquired released held : List ρ) : Prop where
  once : ∀ r, acquired.count r ≤ 1
  account : ∀ r, released.count r + held.count r = acquired.count r

namespace Balanced

variable {acquired released held : List ρ}

theorem nil : Balanced ([] : List ρ) [] [] where
  once := by simp
  account := by simp

/-- The order of what is held does not matter. -/
theorem perm (h : Balanced acquired released held) {held' : List ρ} (hperm : held.Perm held') :
    Balanced acquired released held' where
  once := h.once
  account := by
    intro r
    rw [← hperm.count_eq]
    exact h.account r

/-- A new resource. -/
theorem acquire (h : Balanced acquired released held) {r : ρ} (hfresh : r ∉ acquired) :
    Balanced (acquired ++ [r]) released (r :: held) := by
  have hnone : acquired.count r = 0 := List.count_eq_zero.mpr hfresh
  constructor
  · intro x
    have hx := h.once x
    rw [List.count_append]
    by_cases hsame : x = r
    · have hone : [r].count r = 1 := List.count_singleton_self
      rw [hsame]
      omega
    · have hnew : [r].count x = 0 := List.count_eq_zero.mpr (by simpa using hsame)
      rw [hnew]
      exact hx
  · intro x
    have hx := h.account x
    rw [List.count_append, List.count_cons, List.count_cons, List.count_nil]
    omega

/-- What is held can be released. -/
theorem release {r : ρ} (h : Balanced acquired released (r :: held)) :
    Balanced acquired (released ++ [r]) held where
  once := h.once
  account := by
    intro x
    have hx := h.account x
    rw [List.count_cons] at hx
    rw [List.count_append, List.count_cons, List.count_nil]
    omega

/-- Everything is released, in another order. -/
theorem of_perm {released : List ρ} (hnodup : acquired.Nodup) (hperm : released.Perm acquired) :
    Balanced acquired released [] where
  once := List.nodup_iff_count_le_one.mp hnodup
  account := by
    intro r
    rw [hperm.count_eq, List.count_nil, Nat.add_zero]

/-- Nothing is released twice. -/
theorem released_once (h : Balanced acquired released held) (r : ρ) : released.count r ≤ 1 := by
  have honce := h.once r
  have haccount := h.account r
  omega

end Balanced

end Ledger
