import Mathlib.Data.List.Basic

/-!
# Tapes

A tape is an unbounded row of cells.  Writing a list on it one cell after the
other is writing the list at once (`overwrite_concat`), and cutting off a piece
of the front commutes with writing behind that piece (`dropped_overwrite`).
-/

namespace Tape

variable {α : Type}

/-- The tape with a list written on it from position `p` on. -/
def overwrite (tape : Nat → α) (p : Nat) (xs : List α) : Nat → α := fun x =>
  if p ≤ x then xs[x - p]?.getD (tape x) else tape x

/-- The tape without its first `k` cells. -/
def dropped (tape : Nat → α) (k : Nat) : Nat → α := fun x => tape (x + k)

variable (tape : Nat → α)

@[simp] theorem overwrite_nil (p : Nat) : overwrite tape p [] = tape := by
  funext x
  simp [overwrite]

@[simp] theorem dropped_zero : dropped tape 0 = tape := rfl

/-- Dropping twice. -/
theorem dropped_dropped (k l : Nat) : dropped (dropped tape k) l = dropped tape (k + l) := by
  funext x
  show tape (x + l + k) = tape (x + (k + l))
  rw [Nat.add_assoc, Nat.add_comm l k]

theorem overwrite_singleton (p x : Nat) (a : α) :
    overwrite tape p [a] x = if x = p then a else tape x := by
  unfold overwrite
  by_cases hlt : x < p
  · rw [if_neg (by omega), if_neg (by omega)]
  by_cases heq : x = p
  · rw [if_pos (by omega), if_pos heq, heq, Nat.sub_self]
    rfl
  · rw [if_pos (by omega), if_neg heq, List.getElem?_eq_none (by simp; omega), Option.getD_none]

/-- One cell more. -/
theorem overwrite_concat (p : Nat) (xs : List α) (a : α) :
    overwrite tape p (xs ++ [a]) = overwrite (overwrite tape p xs) (p + xs.length) [a] := by
  funext x
  rw [overwrite_singleton]
  unfold overwrite
  by_cases hlast : x = p + xs.length
  · rw [if_pos (show p ≤ x by omega), if_pos hlast, hlast, Nat.add_sub_cancel_left,
      List.getElem?_concat_length]
    rfl
  rw [if_neg hlast]
  by_cases hbefore : x < p
  · rw [if_neg (by omega), if_neg (by omega)]
  rw [if_pos (by omega), if_pos (by omega)]
  by_cases hin : x - p < xs.length
  · rw [List.getElem?_append_left hin]
  · rw [List.getElem?_eq_none (by simp; omega), List.getElem?_eq_none (by omega)]

/-- Writing behind the piece that is cut off. -/
theorem dropped_overwrite {k p : Nat} (h : k ≤ p) (xs : List α) :
    dropped (overwrite tape p xs) k = overwrite (dropped tape k) (p - k) xs := by
  funext x
  have hoffset : x + k - p = x - (p - k) := by omega
  simp only [dropped, overwrite, hoffset]
  by_cases hle : p ≤ x + k
  · rw [if_pos hle, if_pos (by omega)]
  · rw [if_neg hle, if_neg (by omega)]

end Tape
