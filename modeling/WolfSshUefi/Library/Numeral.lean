import Mathlib.Data.List.Basic

/-!
# Numbers read with a cut-off

A number is read digit by digit, and a digit that arrives once the number has
reached a limit is dropped.  What is read is then no digit-wise approximation of
the number denoted, but up to the limit the two are the same
(`min_readOn_limit`).  Reading more digits leaves the number alone exactly when
it has reached the limit, or is zero and the digits are zeros
(`readOn_eq_self_iff`).
-/

namespace Numeral

variable {base limit : Nat}

/-- The number with more digits behind it. -/
def append (base n : Nat) (digits : List Nat) : Nat :=
  digits.foldl (fun n digit => n * base + digit) n

/-- The number read, with digits dropped from the limit on. -/
def readOn (base limit n : Nat) (digits : List Nat) : Nat :=
  digits.foldl (fun n digit => if n < limit then n * base + digit else n) n

@[simp] theorem append_nil (n : Nat) : append base n [] = n := rfl

@[simp] theorem append_cons (n digit : Nat) (rest : List Nat) :
    append base n (digit :: rest) = append base (n * base + digit) rest := rfl

@[simp] theorem readOn_nil (n : Nat) : readOn base limit n [] = n := rfl

/-- A digit is read below the limit only. -/
@[simp] theorem readOn_cons (n digit : Nat) (rest : List Nat) :
    readOn base limit n (digit :: rest) =
      readOn base limit (if n < limit then n * base + digit else n) rest := rfl

/-- Digits in two pieces. -/
theorem readOn_append (n : Nat) (first rest : List Nat) :
    readOn base limit n (first ++ rest) = readOn base limit (readOn base limit n first) rest :=
  List.foldl_append

/-- A number grows by a digit. -/
theorem le_shift (hbase : 0 < base) (n digit : Nat) : n ≤ n * base + digit :=
  Nat.le_trans (Nat.le_mul_of_pos_right n hbase) (Nat.le_add_right _ digit)

theorem le_append (hbase : 0 < base) (n : Nat) (digits : List Nat) :
    n ≤ append base n digits := by
  induction digits generalizing n with
  | nil => exact Nat.le_refl n
  | cons digit rest ih => exact Nat.le_trans (le_shift hbase n digit) (ih _)

/-- Once the limit is reached nothing changes. -/
theorem readOn_of_le {n : Nat} (hn : limit ≤ n) (digits : List Nat) :
    readOn base limit n digits = n := by
  induction digits with
  | nil => rfl
  | cons digit rest ih => rw [readOn_cons, if_neg (Nat.not_lt.mpr hn), ih]

/-- What is read does not get smaller. -/
theorem le_readOn (hbase : 0 < base) (n : Nat) (digits : List Nat) :
    n ≤ readOn base limit n digits := by
  induction digits generalizing n with
  | nil => exact Nat.le_refl n
  | cons digit rest ih =>
      by_cases hn : n < limit
      · rw [readOn_cons, if_pos hn]
        exact Nat.le_trans (le_shift hbase n digit) (ih _)
      · exact Nat.le_of_eq (readOn_of_le (Nat.not_lt.mp hn) _).symm

/-- **Up to the limit the number read is the number denoted.** -/
theorem min_readOn_limit (hbase : 0 < base) (n : Nat) (digits : List Nat) :
    min (readOn base limit n digits) limit = min (append base n digits) limit := by
  induction digits generalizing n with
  | nil => rfl
  | cons digit rest ih =>
      by_cases hn : n < limit
      · rw [readOn_cons, if_pos hn, ih, append_cons]
      · have hge : limit ≤ n := Nat.not_lt.mp hn
        rw [readOn_of_le hge, Nat.min_eq_right hge,
          Nat.min_eq_right (Nat.le_trans hge (le_append hbase n _))]

/-- The limit is reached exactly if the number reaches it. -/
theorem limit_le_readOn_iff (hbase : 0 < base) (n : Nat) (digits : List Nat) :
    limit ≤ readOn base limit n digits ↔ limit ≤ append base n digits := by
  have hmin : min (readOn base limit n digits) limit = min (append base n digits) limit :=
    min_readOn_limit hbase n digits
  omega

/-- Only zero is read as zero. -/
theorem readOn_eq_zero_iff (hbase : 0 < base) (hlimit : 0 < limit) (n : Nat)
    (digits : List Nat) : readOn base limit n digits = 0 ↔ append base n digits = 0 := by
  have hmin : min (readOn base limit n digits) limit = min (append base n digits) limit :=
    min_readOn_limit hbase n digits
  omega

/-- **When more digits change nothing.** -/
theorem readOn_eq_self_iff (hbase : 1 < base) (n : Nat) (digits : List Nat) :
    readOn base limit n digits = n ↔
      digits = [] ∨ limit ≤ n ∨ (n = 0 ∧ ∀ digit ∈ digits, digit = 0) := by
  induction digits generalizing n with
  | nil => simp
  | cons digit rest ih =>
      by_cases hn : limit ≤ n
      · simp [readOn_of_le hn, hn]
      rw [readOn_cons, if_pos (Nat.not_le.mp hn)]
      constructor
      · intro hsame
        -- the number never goes down, so the first digit already changes nothing
        have hstep : n * base + digit ≤ n := by
          calc n * base + digit
              ≤ readOn base limit (n * base + digit) rest := le_readOn (by omega) _ rest
            _ = n := hsame
        have hdouble : n * 2 ≤ n * base := Nat.mul_le_mul_left n hbase
        obtain ⟨rfl, rfl⟩ : n = 0 ∧ digit = 0 := by omega
        rw [Nat.zero_mul, Nat.add_zero, ih] at hsame
        refine .inr (.inr ⟨rfl, ?_⟩)
        intro later hlater
        rcases List.mem_cons.mp hlater with rfl | hrest
        · rfl
        rcases hsame with rfl | hle | ⟨-, hzero⟩
        · cases hrest
        · exact absurd hle hn
        · exact hzero later hrest
      · intro hcase
        obtain hnil | hle | ⟨rfl, hzero⟩ := hcase
        · cases hnil
        · exact absurd hle hn
        · rw [hzero digit List.mem_cons_self, Nat.zero_mul, Nat.add_zero, ih]
          exact .inr (.inr ⟨rfl, fun later hlater =>
            hzero later (List.mem_cons_of_mem digit hlater)⟩)

end Numeral
