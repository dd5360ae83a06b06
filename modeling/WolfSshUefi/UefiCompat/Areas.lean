import WolfSshUefi.UefiCompat.Strings

/-!
# The memory functions of the C library

`memcpy`, `memmove`, `memset` and `memcmp`.  The first three hand over to the firmware's
`CopyMem` and `SetMem`; `memcmp` is a loop.  It orders areas as `strcmp` orders strings, and
on a string with its NUL it is `strcmp` (`memory_functions_standard`).
-/

namespace WolfSshUefi

namespace UefiCompat

open Memory Rounds Terminated

/-- `memcpy`.  The areas may overlap, since `CopyMem` allows it. -/
def memcpy (memory : Nat → UInt8) (destination source : Nat) (length : UInt64) :
    Nat × (Nat → UInt8) :=
  (destination, store memory destination (load memory source length.toNat))

/-- `memmove` -/
def memmove (memory : Nat → UInt8) (destination source : Nat) (length : UInt64) :
    Nat × (Nat → UInt8) :=
  (destination, store memory destination (load memory source length.toNat))

/-- `memset`, with `(UINT8)Value`. -/
def memset (memory : Nat → UInt8) (buffer : Nat) (value : Int) (length : UInt64) :
    Nat × (Nat → UInt8) :=
  (buffer, store memory buffer
    (List.replicate length.toNat (UInt8.ofNat (intOfUint8 value).toNat)))

def memcmpRound (memory : Nat → UInt8) (left right : Nat) (length index : UInt64) :
    Int ⊕ UInt64 :=
  if index < length then
    if memory (left + index.toNat) ≠ memory (right + index.toNat) then
      .inl ((memory (left + index.toNat)).toNat - (memory (right + index.toNat)).toNat)
    else .inr (index + 1)
  else .inl 0

def memcmp (memory : Nat → UInt8) (left right : Nat) (length : UInt64) (rounds : Nat) :
    Option Int :=
  run (memcmpRound memory left right length) rounds 0

/-! ### The comparison -/

/-- The loop compares what is left of the areas; the induction is on its length. -/
theorem memcmp_from (memory : Nat → UInt8) (a b : Nat) (n : UInt64) {k : Nat} {index : UInt64}
    (h : index.toNat + k = n.toNat) :
    Ends (fun rounds => run (memcmpRound memory a b n) rounds index)
      (difference (load memory (a + index.toNat) k) (load memory (b + index.toNat) k)) := by
  induction k generalizing index with
  | zero =>
      apply Ends.last
      refine if_neg ?_
      rw [UInt64.lt_iff_toNat_lt]
      omega
  | succ k ih =>
      have hlt : index < n := by
        rw [UInt64.lt_iff_toNat_lt]
        omega
      have hbound := n.toNat_lt
      have hnext : (index + 1).toNat = index.toNat + 1 := by
        rw [UInt64.toNat_add]
        exact Nat.mod_eq_of_lt (by show index.toNat + 1 < _; omega)
      rw [load_succ, load_succ]
      unfold difference
      by_cases hsame : memory (a + index.toNat) = memory (b + index.toNat)
      · have hround : memcmpRound memory a b n index = .inr (index + 1) := by
          rw [memcmpRound, if_pos hlt, if_neg (not_not.2 hsame)]
        have hrest := @ih (index + 1) (by omega)
        rw [hnext] at hrest
        rw [if_pos hsame]
        exact Ends.next hround hrest
      · rw [if_neg hsame]
        apply Ends.last
        rw [memcmpRound, if_pos hlt, if_pos hsame]

/-- **`memcmp`** gives the first difference of the areas. -/
theorem memcmp_spec (memory : Nat → UInt8) (a b : Nat) (n : UInt64) :
    Ends (memcmp memory a b n)
      (difference (load memory a n.toNat) (load memory b n.toNat)) :=
  @memcmp_from memory a b n _ 0 (Nat.zero_add _)

/-! ### Strings as areas -/

section Strings

variable {memory : Nat → UInt8} {a b : Nat} {s t : List UInt8}

/-- A string with its NUL, as an area. -/
theorem load_string (h : StringAt memory a s) : load memory a (s.length + 1) = s ++ [0] := by
  induction s generalizing a with
  | nil => exact congrArg (· :: []) h.first
  | cons x s ih => rw [List.length_cons, load_succ, h.first, ih h.tail]; rfl

/-- Up to the NUL of one string, areas differ where strings do. -/
theorem difference_string (hs : StringAt memory a s) (ht : StringAt memory b t) :
    difference (load memory a (s.length + 1)) (load memory b (s.length + 1)) =
      difference s t := by
  induction s generalizing a b t with
  | nil =>
      rw [load_succ, load_succ, hs.first, ht.first]
      cases t with
      | nil => rfl
      | cons c t => simp [difference, Ne.symm ht.nulFree.head]
  | cons x s ih =>
      have hload := load_succ memory a (s.length + 1)
      have hload' := load_succ memory b (s.length + 1)
      rw [hs.first] at hload
      rw [ht.first] at hload'
      rw [difference_step hs.nulFree, List.length_cons, hload, hload']
      show (if (x :: s).headD 0 = t.headD 0 then
        difference (load memory (a + 1) (s.length + 1)) (load memory (b + 1) (s.length + 1))
        else _) = _
      by_cases hsame : (x :: s).headD 0 = t.headD 0
      · have hgoes : (x :: s).headD 0 ≠ 0 ∧ (x :: s).headD 0 = t.headD 0 :=
          ⟨hs.nulFree.head, hsame⟩
        obtain ⟨hs', ht'⟩ := rest_of_first hs ht hgoes
        rw [if_pos hsame, if_pos hgoes]
        exact ih hs' ht'
      · rw [if_neg hsame, if_neg fun hgoes => hsame hgoes.2]

end Strings

/-! ### The functions of the C standard -/

/-- A call gives back its area, which now holds `bytes`, and leaves the rest alone. -/
structure Fills (memory : Nat → UInt8) (area : Nat) (result : Nat × (Nat → UInt8))
    (bytes : List UInt8) : Prop where
  returns : result.1 = area
  holds : load result.2 area bytes.length = bytes
  only : OnlyIn memory result.2 ⟨area, bytes.length⟩

/-- A store fills its area. -/
theorem fills_store (memory : Nat → UInt8) (area : Nat) (bytes : List UInt8) :
    Fills memory area (area, store memory area bytes) bytes :=
  ⟨rfl, load_store memory area bytes, store_onlyIn memory area bytes⟩

/-- **The memory functions are those of the C standard.**  What there is to show is about the
comparisons: the loop of `memcmp` orders any two areas, with the opposite sign when they are
exchanged, and over a string with its NUL it gives what the loop of `strcmp` gives.  The copies
and `memset` are the firmware's `CopyMem` and `SetMem`, and what they hold follows from that;
`memcmp` then finds no difference between areas that are apart, and the copy of a string with
its NUL is the string. -/
theorem memory_functions_standard (char : PlainChar) (memory : Nat → UInt8) :
    (∀ a b (n : UInt64), ∃ r, Ends (memcmp memory a b n) r ∧ Ends (memcmp memory b a n) (-r) ∧
      Orders r (load memory a n.toNat) (load memory b n.toNat)) ∧
    (∀ a b s t (n : UInt64), StringAt memory a s → StringAt memory b t →
      n.toNat = s.length + 1 →
      ∃ r, Ends (memcmp memory a b n) r ∧ Ends (strcmp char memory a b) r) ∧
    (∀ d a (n : UInt64), memcpy memory d a n = memmove memory d a n ∧
      Fills memory d (memmove memory d a n) (load memory a n.toNat) ∧
      (Region.Apart ⟨d, n.toNat⟩ ⟨a, n.toNat⟩ → Ends (memcmp (memmove memory d a n).2 d a n) 0) ∧
      ∀ s, StringAt memory a s → n.toNat = s.length + 1 →
        StringAt (memmove memory d a n).2 d s) ∧
    ∀ d v (n : UInt64), ∃ byte : UInt8, (byte.toNat : Int) = v % 256 ∧
      Fills memory d (memset memory d v n) (List.replicate n.toNat byte) := by
  refine ⟨?_, ?_, ?_, ?_⟩
  · intro a b n
    have hforth := memcmp_spec memory a b n
    have hback := memcmp_spec memory b a n
    rw [difference_comm] at hback
    exact ⟨_, hforth, hback, orders_of_length (by rw [length_load, length_load])⟩
  · intro a b s t n hs ht hn
    have hareas := memcmp_spec memory a b n
    rw [hn, difference_string hs ht] at hareas
    exact ⟨_, hareas, strcmp_spec hs ht⟩
  · intro d a n
    have hfills : Fills memory d (memmove memory d a n) (load memory a n.toNat) :=
      fills_store memory d _
    refine ⟨rfl, hfills, ?_, ?_⟩
    · intro hapart
      have hholds := hfills.holds
      have honly := hfills.only
      rw [length_load] at hholds honly
      have hsame := memcmp_spec (memmove memory d a n).2 d a n
      rw [hholds, load_same (honly.same hapart.symm),
        (orders_of_length rfl).zero.2 rfl] at hsame
      exact hsame
    · intro s hs hn
      have hcopied := stringAt_store memory d hs.nulFree
      rw [← load_string hs, ← hn] at hcopied
      exact hcopied
  · intro d v n
    refine ⟨UInt8.ofNat (intOfUint8 v).toNat, ?_, ?_⟩
    · unfold intOfUint8
      rw [UInt8.toNat_ofNat']
      omega
    · have hfills := fills_store memory d
        (List.replicate n.toNat (UInt8.ofNat (intOfUint8 v).toNat))
      exact hfills

/-- The first three bytes of `twoStrings`, compared with those at 8, and copied one byte on,
over themselves. -/
theorem memory_functions_standard_overlap :
    (∃ r, Ends (memcmp twoStrings 0 8 3) r ∧ Ends (strcmp .signed twoStrings 0 8) r) ∧
      StringAt (memmove twoStrings 1 0 3).2 1 [0x61, 0xe9] := by
  have hfirst : StringAt twoStrings 0 [0x61, 0xe9] := ⟨by simp [NulFree], by decide⟩
  have hsecond : StringAt twoStrings 8 [0x61, 0x7a] := ⟨by simp [NulFree], by decide⟩
  obtain ⟨-, hstrings, hcopies, -⟩ := memory_functions_standard .signed twoStrings
  obtain ⟨-, -, -, hcopied⟩ := hcopies 1 0 3
  exact ⟨hstrings 0 8 _ _ 3 hfirst hsecond rfl, hcopied _ hfirst rfl⟩

end UefiCompat

end WolfSshUefi
