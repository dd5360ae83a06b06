import Mathlib.Data.List.GetD
import Mathlib.Data.List.Lex
import WolfSshUefi.Library.Memory

/-!
# Terminated texts

A text without NUL lies in memory with a NUL after it.  Two texts are compared by the
first bytes that differ, where the end of a text counts as its NUL: the difference has
the sign that the lexicographic order of unsigned bytes gives it.
-/

namespace Terminated

open Memory

def NulFree (s : List UInt8) : Prop := ∀ b ∈ s, b ≠ 0

/-- The first `n` bytes at `a` are those of the text `s` and its NUL. -/
def Shows (m : Nat → UInt8) (a : Nat) (s : List UInt8) (n : Nat) : Prop :=
  ∀ i, i < n → i ≤ s.length → m (a + i) = s.getD i 0

/-- The text `s` lies at `a`, with its NUL. -/
structure StringAt (m : Nat → UInt8) (a : Nat) (s : List UInt8) : Prop where
  nulFree : NulFree s
  bytes : ∀ i, i ≤ s.length → m (a + i) = s.getD i 0

variable {m : Nat → UInt8} {a d n : Nat} {b c : UInt8} {s t : List UInt8}

/-- The rest of a string has no NUL. -/
theorem NulFree.tail (h : NulFree (b :: s)) : NulFree s := fun c hc =>
  h c (List.mem_cons_of_mem b hc)

/-- Neither is the first byte one. -/
theorem NulFree.head (h : NulFree (b :: s)) : b ≠ 0 := h b List.mem_cons_self

/-- Nor is one among the first bytes. -/
theorem NulFree.take (h : NulFree s) (n : Nat) : NulFree (s.take n) := fun c hc =>
  h c (List.mem_of_mem_take hc)

/-- Nor in two strings together. -/
theorem NulFree.append (h : NulFree s) (h' : NulFree t) : NulFree (s ++ t) := by
  intro c hc
  rcases List.mem_append.1 hc with hs | ht
  · exact h c hs
  · exact h' c ht

/-- Where the string is over there is the NUL. -/
theorem Shows.nil (h : Shows m a [] (n + 1)) : m a = 0 := h 0 (Nat.succ_pos n) (Nat.le_refl 0)

/-- Else there is its first byte. -/
theorem Shows.head (h : Shows m a (b :: s) (n + 1)) : m a = b := h 0 (Nat.succ_pos n) (Nat.zero_le _)

theorem Shows.tail (h : Shows m a (b :: s) (n + 1)) : Shows m (a + 1) s n := by
  intro i hi hs
  have hnext := h (i + 1) (by omega) (by simpa using hs)
  rw [Nat.add_assoc, Nat.add_comm 1 i, hnext, List.getD_cons_succ]

/-- A string with its NUL shows as many of its bytes as wanted. -/
theorem StringAt.shows (h : StringAt m a s) (n : Nat) : Shows m a s n := fun i _ hs => h.bytes i hs

/-- What a pointer to the text points to: its first byte, or the NUL. -/
theorem StringAt.first (h : StringAt m a s) : m a = s.headD 0 := by
  have hbyte := h.bytes 0 (Nat.zero_le _)
  cases s with
  | nil => exact hbyte
  | cons b s => exact hbyte

/-- Behind the first byte stands the rest of the string. -/
theorem StringAt.tail (h : StringAt m a (b :: s)) : StringAt m (a + 1) s where
  nulFree := h.nulFree.tail
  bytes := by
    intro i hi
    exact (h.shows (s.length + 2)).tail i (by omega) hi

/-- A copy may overlap the text if it does not start within what is still to be read. -/
theorem Shows.overwritten (h : Shows m a (b :: s) (n + 1))
    (hapart : d ≤ a ∨ a + min (n + 1) (s.length + 2) ≤ d) :
    Shows (store m d [c]) (a + 1) s n := by
  intro i hi hs
  have hother : store m d [c] (a + 1 + i) = m (a + 1 + i) := by
    apply store_onlyIn
    unfold Region.Contains
    simp only [List.length_singleton]
    omega
  rw [hother]
  exact h.tail i hi hs

/-- What is stored with a NUL after it is a text. -/
theorem stringAt_store (m : Nat → UInt8) (a : Nat) (h : NulFree s) :
    StringAt (store m a (s ++ [0])) a s where
  nulFree := h
  bytes := by
    intro i hi
    have hlt : i < (s ++ [(0 : UInt8)]).length := by simpa using Nat.lt_succ_of_le hi
    rw [store_at m a i _ hlt, List.getElem_append, List.getD_eq_getElem?_getD]
    split
    · rename_i hin
      rw [List.getElem?_eq_getElem hin, Option.getD_some]
    · rename_i hout
      rw [List.getElem?_eq_none (by omega), Option.getD_none, List.getElem_singleton]

/-- A text grows where its NUL was. -/
theorem StringAt.append (h : StringAt m a s) (ht : NulFree t) :
    StringAt (Memory.store m (a + s.length) (t ++ [0])) a (s ++ t) where
  nulFree := h.nulFree.append ht
  bytes := by
    intro i hi
    rw [List.length_append] at hi
    by_cases hin : i < s.length
    · have hother : Memory.store m (a + s.length) (t ++ [0]) (a + i) = m (a + i) := by
        apply store_onlyIn
        unfold Region.Contains
        simp only
        omega
      rw [hother, h.bytes i (by omega), List.getD_append _ _ _ _ hin]
    · have hnew := (stringAt_store m (a + s.length) ht).bytes (i - s.length) (by omega)
      have hplace : a + s.length + (i - s.length) = a + i := by omega
      rw [hplace] at hnew
      rw [hnew, List.getD_append_right _ _ _ _ (by omega)]

/-! ## The first difference -/

/-- The difference of the first bytes that differ. -/
def difference : List UInt8 → List UInt8 → Int
  | [], [] => 0
  | [], c :: _ => -(c.toNat : Int)
  | b :: _, [] => b.toNat
  | b :: s, c :: t => if b = c then difference s t else (b.toNat : Int) - c.toNat

/-- The order of bytes, taken as unsigned numbers. -/
def Below (b c : UInt8) : Prop := b.toNat < c.toNat

/-- A number whose sign tells the order of two texts. -/
structure Orders (r : Int) (s t : List UInt8) : Prop where
  neg : r < 0 ↔ List.Lex Below s t
  pos : 0 < r ↔ List.Lex Below t s
  zero : r = 0 ↔ s = t

/-- The first bytes decide, or the rest of the texts does. -/
theorem difference_step (hs : NulFree s) : difference s t =
    if s.headD 0 ≠ 0 ∧ s.headD 0 = t.headD 0 then difference s.tail t.tail
    else ((s.headD 0).toNat : Int) - (t.headD 0).toNat := by
  cases s with
  | nil =>
      cases t with
      | nil => rfl
      | cons c t => simp [difference]
  | cons b s =>
      have hb := hs.head
      cases t with
      | nil => simp [difference, hb]
      | cons c t => simp [difference, hb]

/-- So they do in what `n + 1` bytes leave of the texts. -/
theorem difference_take_succ (hs : NulFree s) (n : Nat) :
    difference (s.take (n + 1)) (t.take (n + 1)) =
      if s.headD 0 ≠ 0 ∧ s.headD 0 = t.headD 0 then
        difference (s.tail.take n) (t.tail.take n)
      else ((s.headD 0).toNat : Int) - (t.headD 0).toNat := by
  have hfirst : ∀ u : List UInt8, (u.take (n + 1)).headD 0 = u.headD 0 := by
    intro u
    cases u with
    | nil => rfl
    | cons b u => rfl
  have hrest : ∀ u : List UInt8, (u.take (n + 1)).tail = u.tail.take n := by
    intro u
    cases u with
    | nil => simp
    | cons b u => rfl
  rw [difference_step (hs.take _), hfirst, hfirst, hrest, hrest]

/-- Exchanging the strings turns the sign. -/
theorem difference_comm (s t : List UInt8) : difference t s = -difference s t := by
  induction s generalizing t with
  | nil =>
      cases t with
      | nil => rfl
      | cons c t => simp [difference]
  | cons b s ih =>
      cases t with
      | nil => rfl
      | cons c t =>
          unfold difference
          by_cases hbc : b = c
          · rw [if_pos hbc, if_pos hbc.symm, ih]
          · rw [if_neg hbc, if_neg (Ne.symm hbc)]
            omega

/-- A byte that is not NUL is positive. -/
theorem toNat_pos (hb : b ≠ 0) : 0 < b.toNat := by
  have hne : b.toNat ≠ 0 := fun h => hb (UInt8.toNat_inj.1 h)
  omega

/-- Negative means below, in the order of the bytes. -/
theorem difference_neg_iff (hs : NulFree s) (ht : NulFree t) :
    difference s t < 0 ↔ List.Lex Below s t := by
  induction s generalizing t with
  | nil =>
      cases t with
      | nil => simp [difference]
      | cons c t =>
          have hpos := toNat_pos ht.head
          have hless : List.Lex Below [] (c :: t) := .nil
          refine ⟨fun _ => hless, fun _ => ?_⟩
          unfold difference
          omega
  | cons b s ih =>
      cases t with
      | nil =>
          have hnot : ¬ List.Lex Below (b :: s) [] := List.not_lex_nil
          refine ⟨fun h => ?_, fun h => absurd h hnot⟩
          unfold difference at h
          omega
      | cons c t =>
          rw [List.cons_lex_cons_iff]
          unfold difference
          by_cases hbc : b = c
          · subst hbc
            rw [if_pos rfl, ih hs.tail ht.tail]
            simp [Below]
          · rw [if_neg hbc]
            simp only [Below, hbc, false_and, or_false]
            omega

/-- Zero means equal. -/
theorem difference_eq_zero_iff (hs : NulFree s) (ht : NulFree t) :
    difference s t = 0 ↔ s = t := by
  induction s generalizing t with
  | nil =>
      cases t with
      | nil => simp [difference]
      | cons c t =>
          have hpos := toNat_pos ht.head
          simp only [difference, reduceCtorEq, iff_false]
          omega
  | cons b s ih =>
      cases t with
      | nil =>
          have hpos := toNat_pos hs.head
          simp only [difference, reduceCtorEq, iff_false]
          omega
      | cons c t =>
          rw [List.cons.injEq]
          unfold difference
          by_cases hbc : b = c
          · rw [if_pos hbc, ih hs.tail ht.tail]
            simp [hbc]
          · have hne : b.toNat ≠ c.toNat := fun h => hbc (UInt8.toNat_inj.1 h)
            rw [if_neg hbc]
            simp only [hbc, false_and, iff_false]
            omega

/-- **The difference tells the order** of two texts. -/
theorem orders_difference (hs : NulFree s) (ht : NulFree t) : Orders (difference s t) s t where
  neg := difference_neg_iff hs ht
  pos := by
    rw [← difference_neg_iff ht hs, difference_comm s t]
    omega
  zero := difference_eq_zero_iff hs ht

/-- Of texts of one length it tells the order even where they hold NULs. -/
theorem orders_of_length (h : s.length = t.length) :
    Orders (difference s t) s t := by
  induction s generalizing t with
  | nil =>
      obtain rfl := List.eq_nil_of_length_eq_zero h.symm
      exact ⟨by simp [difference], by simp [difference], by simp [difference]⟩
  | cons b s ih =>
      cases t with
      | nil => exact absurd h (Nat.succ_ne_zero _)
      | cons c t =>
          have hrest := ih (Nat.succ.inj h)
          unfold difference
          by_cases hbc : b = c
          · subst hbc
            rw [if_pos rfl]
            refine ⟨hrest.neg.trans ?_, hrest.pos.trans ?_, hrest.zero.trans ?_⟩
            · simp [List.cons_lex_cons_iff, Below]
            · simp [List.cons_lex_cons_iff, Below]
            · simp
          · have hne : b.toNat ≠ c.toNat := fun hsame => hbc (UInt8.toNat_inj.1 hsame)
            have hcb : c ≠ b := Ne.symm hbc
            rw [if_neg hbc]
            refine ⟨?_, ?_, ?_⟩
            · simp only [List.cons_lex_cons_iff, Below, hbc, false_and, or_false]
              omega
            · simp only [List.cons_lex_cons_iff, Below, hcb, false_and, or_false]
              omega
            · simp only [List.cons.injEq, hbc, false_and, iff_false]
              omega

end Terminated
