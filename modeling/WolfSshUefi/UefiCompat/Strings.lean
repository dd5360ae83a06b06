import WolfSshUefi.Library.Rounds
import WolfSshUefi.Library.Terminated

/-!
# The string functions of the C library

`strlen`, `strcmp`, `strncmp`, `strncpy` and `strncat`, which wolfSSL and wolfSSH are
linked with.  Pointers are addresses in a byte memory, and a length is a `UINTN`, which
wraps.  The loops have a bound on their rounds; each function is shown to end with its
result when the bound is large enough.
-/

namespace WolfSshUefi

namespace UefiCompat

open Memory Rounds Terminated

/-- Plain `char` is signed on one of the machines, and unsigned on the other. -/
inductive PlainChar
  | signed    -- X64
  | unsigned  -- AARCH64
  deriving DecidableEq, Repr

/-- The number that a byte is as a plain `char`. -/
def PlainChar.value (char : PlainChar) (b : UInt8) : Int :=
  match char with
  | .signed => if b.toNat < 128 then b.toNat else (b.toNat : Int) - 256
  | .unsigned => b.toNat

/-- `(int)(UINT8)`, of a plain `char`. -/
def intOfUint8 (value : Int) : Int := value % 256

section Functions

variable (char : PlainChar) (memory : Nat → UInt8)

/-- `*First` -/
def charAt (address : Nat) : Int := char.value (memory address)

/-! ## `strlen` -/

def strlenRound (end' : Nat) : Nat ⊕ Nat :=
  if charAt char memory end' ≠ 0 then .inr (end' + 1) else .inl end'

def strlen (string rounds : Nat) : Option UInt64 :=
  (run (strlenRound char memory) rounds string).bind fun end' =>
    some (UInt64.ofNat (end' - string))

/-! ## `strcmp` and `strncmp` -/

def strcmpRound : Nat × Nat → Int ⊕ (Nat × Nat)
  | (first, second) =>
      if charAt char memory first ≠ 0 ∧ charAt char memory first = charAt char memory second then
        .inr (first + 1, second + 1)
      else
        .inl (intOfUint8 (charAt char memory first) - intOfUint8 (charAt char memory second))

def strcmp (first second rounds : Nat) : Option Int :=
  run (strcmpRound char memory) rounds (first, second)

def strncmpRound : Nat × Nat × UInt64 → Int ⊕ (Nat × Nat × UInt64)
  | (first, second, length) =>
      if length ≠ 0 ∧ charAt char memory first ≠ 0 ∧
          charAt char memory first = charAt char memory second then
        .inr (first + 1, second + 1, length - 1)
      else if length = 0 then
        .inl 0
      else
        .inl (intOfUint8 (charAt char memory first) - intOfUint8 (charAt char memory second))

def strncmp (first second : Nat) (length : UInt64) (rounds : Nat) : Option Int :=
  run (strncmpRound char memory) rounds (first, second, length)

end Functions

/-! ## `strncpy` and `strncat` -/

/-- The variables of a copy, and the memory. -/
structure Copying where
  memory : Nat → UInt8
  destination : Nat
  source : Nat
  length : UInt64

/-- `*Destination++ = *Source++` -/
def Copying.copy (c : Copying) : Copying :=
  { c with
    memory := store c.memory c.destination [c.memory c.source]
    destination := c.destination + 1
    source := c.source + 1 }

/-- `*Destination++ = '\0'` -/
def Copying.terminate (c : Copying) : Copying :=
  { c with
    memory := store c.memory c.destination [0]
    destination := c.destination + 1 }

/-- `Length--` -/
def Copying.countDown (c : Copying) : Copying := { c with length := c.length - 1 }

def strncpyRound (char : PlainChar) (c : Copying) : Copying ⊕ Copying :=
  if c.length ≠ 0 ∧ charAt char c.memory c.source ≠ 0 then .inr c.copy.countDown else .inl c

/-- The round that fills up with NUL: the length counts down on leaving too. -/
def strncpyFill (c : Copying) : Copying ⊕ Copying :=
  if c.length ≠ 0 then .inr c.countDown.terminate else .inl c.countDown

def strncpy (char : PlainChar) (memory : Nat → UInt8) (destination source : Nat)
    (length : UInt64) (rounds : Nat) : Option (Nat × (Nat → UInt8)) :=
  (run (strncpyRound char) rounds ⟨memory, destination, source, length⟩).bind fun c =>
    (run strncpyFill rounds c).bind fun c => some (destination, c.memory)

/-- The length counts down whether or not a byte is copied. -/
def strncatRound (char : PlainChar) (c : Copying) : Copying ⊕ Copying :=
  if c.length ≠ 0 ∧ charAt char c.memory c.source ≠ 0 then .inr c.countDown.copy
  else .inl c.countDown

def strncat (char : PlainChar) (memory : Nat → UInt8) (destination source : Nat)
    (length : UInt64) (rounds : Nat) : Option (Nat × (Nat → UInt8)) :=
  (strlen char memory destination rounds).bind fun before =>
    (run (strncatRound char) rounds
      ⟨memory, destination + before.toNat, source, length⟩).bind fun c =>
        some (destination, c.terminate.memory)

/-! ## Bytes as plain characters -/

section Characters

variable {char : PlainChar} {b c : UInt8}

/-- Only the NUL is zero, signed or not. -/
theorem value_eq_zero_iff : char.value b = 0 ↔ b = 0 := by
  have hlt := b.toNat_lt
  have hzero : b = 0 ↔ b.toNat = 0 := by
    rw [← UInt8.toNat_inj]
    rfl
  rw [hzero]
  cases char with
  | signed =>
      unfold PlainChar.value
      split <;> omega
  | unsigned =>
      unfold PlainChar.value
      simp only
      omega

/-- Different bytes are different characters. -/
theorem value_inj : char.value b = char.value c ↔ b = c := by
  have hb := b.toNat_lt
  have hc := c.toNat_lt
  rw [← UInt8.toNat_inj]
  cases char with
  | signed =>
      unfold PlainChar.value
      simp only
      split <;> split <;> omega
  | unsigned =>
      unfold PlainChar.value
      simp only
      omega

/-- The cast gives the byte back, whatever plain `char` is. -/
theorem intOfUint8_value : intOfUint8 (char.value b) = b.toNat := by
  have hlt := b.toNat_lt
  unfold intOfUint8
  cases char with
  | signed =>
      unfold PlainChar.value
      simp only
      split <;> omega
  | unsigned =>
      unfold PlainChar.value
      simp only
      omega

end Characters

/-! ## What each function gives -/

section Results

variable {char : PlainChar} {memory : Nat → UInt8} {a b d : Nat} {n : UInt64}
variable {s t : List UInt8} {x y : UInt8}

/-- A byte that is not NUL is no NUL as a character. -/
theorem charAt_ne_zero (h : memory a = x) (hx : x ≠ 0) : charAt char memory a ≠ 0 := by
  rw [charAt, h]
  exact mt value_eq_zero_iff.1 hx

/-- A NUL is one. -/
theorem charAt_eq_zero (h : memory a = 0) : charAt char memory a = 0 := by
  rw [charAt, h]
  exact value_eq_zero_iff.2 rfl

/-- A length that is not 0 counts down. -/
theorem toNat_countDown {k : Nat} (h : n.toNat = k + 1) : n ≠ 0 ∧ (n - 1).toNat = k := by
  have hne : n ≠ 0 := by
    intro hzero
    rw [hzero] at h
    exact nomatch h
  refine ⟨hne, ?_⟩
  have hone : (1 : UInt64) ≤ n := by
    rw [UInt64.le_iff_toNat_le, h]
    exact Nat.succ_pos k
  rw [UInt64.toNat_sub_of_le n 1 hone, h]
  rfl

/-- A length of zero. -/
theorem eq_zero_of_toNat (h : n.toNat = 0) : n = 0 := UInt64.toNat_inj.1 h

/-- The loop of `strlen` stops at the NUL. -/
theorem strlen_end (h : StringAt memory a s) :
    Ends (fun rounds => run (strlenRound char memory) rounds a) (a + s.length) := by
  induction s generalizing a with
  | nil =>
      have hnul : memory a = 0 := h.bytes 0 (Nat.le_refl 0)
      apply Ends.last
      rw [strlenRound, if_neg (not_not.2 (charAt_eq_zero hnul))]
      rfl
  | cons x s ih =>
      have hbyte := (h.shows 1).head
      have hround : strlenRound char memory a = .inr (a + 1) :=
        if_pos (charAt_ne_zero hbyte h.nulFree.head)
      have hrest := ih h.tail
      rw [Nat.add_assoc, Nat.add_comm 1] at hrest
      exact Ends.next hround hrest

/-- `strlen` counts the bytes before the NUL, which has an address of 64 bits. -/
theorem strlen_spec (char : PlainChar) (h : StringAt memory a s) (haddress : a + s.length < 0x10000000000000000) :
    ∃ length, Ends (strlen char memory a) length ∧ length.toNat = s.length := by
  refine ⟨UInt64.ofNat s.length, ?_, ?_⟩
  · have hdistance : a + s.length - a = s.length := Nat.add_sub_cancel_left a s.length
    have hvalue : Ends (fun _ => some (UInt64.ofNat (a + s.length - a)))
        (UInt64.ofNat s.length) := by
      rw [hdistance]
      exact Ends.value _
    exact (strlen_end h).bind hvalue
  · rw [UInt64.toNat_ofNat']
    exact Nat.mod_eq_of_lt (by omega)

/-- What the conditions of the two comparisons ask of two characters, and what they
return of them: plain `char` makes no difference. -/
theorem charAt_compare (char : PlainChar) (hs : StringAt memory a s) (ht : StringAt memory b t) :
    (charAt char memory a ≠ 0 ∧ charAt char memory a = charAt char memory b ↔
      s.headD 0 ≠ 0 ∧ s.headD 0 = t.headD 0) ∧
    intOfUint8 (charAt char memory a) - intOfUint8 (charAt char memory b) =
      ((s.headD 0).toNat : Int) - (t.headD 0).toNat := by
  rw [charAt, charAt, hs.first, ht.first, value_inj, intOfUint8_value, intOfUint8_value]
  refine ⟨?_, rfl⟩
  rw [Ne, value_eq_zero_iff]

/-- Where the comparison goes on, both texts do. -/
theorem rest_of_first (hs : StringAt memory a s) (ht : StringAt memory b t)
    (h : s.headD 0 ≠ 0 ∧ s.headD 0 = t.headD 0) :
    StringAt memory (a + 1) s.tail ∧ StringAt memory (b + 1) t.tail := by
  obtain ⟨hne, heq⟩ := h
  cases s with
  | nil => exact absurd rfl hne
  | cons x s =>
      cases t with
      | nil => exact absurd heq hne
      | cons y t => exact ⟨hs.tail, ht.tail⟩

/-- **`strcmp`** gives the first difference. -/
theorem strcmp_spec (hs : StringAt memory a s) (ht : StringAt memory b t) :
    Ends (strcmp char memory a b) (difference s t) := by
  induction s generalizing a b t with
  | nil =>
      obtain ⟨hgoes, hvalue⟩ := charAt_compare char hs ht
      rw [difference_step hs.nulFree, if_neg (fun h => h.1 rfl), ← hvalue]
      apply Ends.last
      exact if_neg fun h => (hgoes.1 h).1 rfl
  | cons x s ih =>
      obtain ⟨hgoes, hvalue⟩ := charAt_compare char hs ht
      rw [difference_step hs.nulFree]
      by_cases hnext : (x :: s).headD 0 ≠ 0 ∧ (x :: s).headD 0 = t.headD 0
      · obtain ⟨hs', ht'⟩ := rest_of_first hs ht hnext
        rw [if_pos hnext]
        exact Ends.next (if_pos (hgoes.2 hnext)) (ih hs' ht')
      · rw [if_neg hnext, ← hvalue]
        apply Ends.last
        exact if_neg (mt hgoes.1 hnext)

/-- `strncmp` compares what `n` leaves of the texts; the induction is on `n`. -/
theorem strncmp_spec (hs : StringAt memory a s) (ht : StringAt memory b t) (n : UInt64) :
    Ends (strncmp char memory a b n) (difference (s.take n.toNat) (t.take n.toNat)) := by
  obtain ⟨k, hk⟩ : ∃ k, n.toNat = k := ⟨_, rfl⟩
  rw [hk]
  induction k generalizing a b s t n with
  | zero =>
      have hzero := eq_zero_of_toNat hk
      apply Ends.last
      rw [strncmpRound, if_neg (fun h => h.1 hzero), if_pos hzero]
      rfl
  | succ k ih =>
      obtain ⟨hne, hcount⟩ := toNat_countDown hk
      obtain ⟨hgoes, hvalue⟩ := charAt_compare char hs ht
      rw [difference_take_succ hs.nulFree]
      by_cases hnext : s.headD 0 ≠ 0 ∧ s.headD 0 = t.headD 0
      · obtain ⟨hs', ht'⟩ := rest_of_first hs ht hnext
        rw [if_pos hnext]
        exact Ends.next (if_pos ⟨hne, hgoes.2 hnext⟩) (ih hs' ht' (n - 1) hcount)
      · rw [if_neg hnext, ← hvalue]
        apply Ends.last
        rw [strncmpRound, if_neg (fun h => hnext (hgoes.1 h.2)), if_neg hne]

/-! ### Copying -/

/-- There is a byte to copy. -/
def Copying.Goes (char : PlainChar) (c : Copying) : Prop :=
  c.length ≠ 0 ∧ charAt char c.memory c.source ≠ 0

/-- The copying loops of `strncpy` and `strncat`, which differ in how they leave.  The
induction is on the text at the source, of which the copy overwrites nothing that is
still to be read. -/
theorem copying_spec (char : PlainChar) (round : Copying → Copying ⊕ Copying)
    (leave : Copying → Copying)
    (hgoes : ∀ c, c.Goes char → round c = .inr c.copy.countDown)
    (hstops : ∀ c, ¬ c.Goes char → round c = .inl (leave c))
    (hs : Terminated.Shows memory a s n.toNat) (hnul : NulFree s)
    (hapart : d ≤ a ∨ a + min n.toNat (s.length + 1) ≤ d) :
    ∃ left, left.toNat = n.toNat - s.length ∧
      Ends (fun rounds => run round rounds ⟨memory, d, a, n⟩)
        (leave ⟨store memory d (s.take n.toNat), d + (s.take n.toNat).length,
          a + (s.take n.toNat).length, left⟩) := by
  induction s generalizing memory a d n with
  | nil =>
      have hstop : ¬ Copying.Goes char ⟨memory, d, a, n⟩ := by
        intro hgo
        cases hn : n.toNat with
        | zero => exact hgo.1 (eq_zero_of_toNat hn)
        | succ m =>
            rw [hn] at hs
            exact hgo.2 (charAt_eq_zero hs.nil)
      refine ⟨n, rfl, ?_⟩
      rw [List.take_nil, store_nil]
      exact Ends.last (hstops _ hstop)
  | cons x s ih =>
      cases hn : n.toNat with
      | zero =>
          refine ⟨n, by rw [hn, Nat.zero_sub], ?_⟩
          rw [List.take_zero, store_nil]
          exact Ends.last (hstops _ fun hgo => hgo.1 (eq_zero_of_toNat hn))
      | succ m =>
          obtain ⟨hne, hcount⟩ := toNat_countDown hn
          rw [hn, List.length_cons] at hapart
          rw [hn] at hs
          have hrest := hs.overwritten hapart (c := x)
          rw [← hcount] at hrest hapart
          obtain ⟨left, hleft, hends⟩ := ih (d := d + 1) hrest hnul.tail (by omega)
          have hround : round ⟨memory, d, a, n⟩ =
              .inr ⟨store memory d [x], d + 1, a + 1, n - 1⟩ := by
            rw [hgoes _ ⟨hne, charAt_ne_zero hs.head hnul.head⟩]
            simp only [Copying.copy, Copying.countDown, hs.head]
          have hstored : store (store memory d [x]) (d + 1) (s.take m) =
              store memory d (x :: s.take m) := store_store memory d [x] (s.take m)
          refine ⟨left, by rw [List.length_cons, hleft, hcount, Nat.add_sub_add_right], ?_⟩
          rw [hcount, hstored, Nat.add_assoc, Nat.add_comm 1, Nat.add_assoc,
            Nat.add_comm 1] at hends
          exact Ends.next hround hends

/-- `strncpy` fills up with as many NULs as are left. -/
theorem strncpyFill_spec (memory : Nat → UInt8) (d a : Nat) (n : UInt64) :
    ∃ left, Ends (fun rounds => run strncpyFill rounds ⟨memory, d, a, n⟩)
      ⟨store memory d (List.replicate n.toNat 0), d + n.toNat, a, left⟩ := by
  obtain ⟨k, hk⟩ : ∃ k, n.toNat = k := ⟨_, rfl⟩
  rw [hk]
  induction k generalizing memory d n with
  | zero =>
      refine ⟨n - 1, ?_⟩
      rw [List.replicate_zero, store_nil]
      exact Ends.last (if_neg (not_not.2 (eq_zero_of_toNat hk)))
  | succ k ih =>
      obtain ⟨hne, hcount⟩ := toNat_countDown hk
      obtain ⟨left, hends⟩ := ih (store memory d [0]) (d + 1) (n - 1) hcount
      have hstored : store (store memory d [0]) (d + 1) (List.replicate k 0) =
          store memory d (0 :: List.replicate k 0) :=
        store_store memory d [0] (List.replicate k 0)
      rw [hstored, Nat.add_assoc, Nat.add_comm 1] at hends
      exact ⟨left, Ends.next (if_pos hne) hends⟩

/-- `strncpy` stores the bytes that fit and fills up to `n` bytes. -/
theorem strncpy_spec (hs : StringAt memory a s)
    (hapart : d ≤ a ∨ a + min n.toNat (s.length + 1) ≤ d) :
    Ends (strncpy char memory d a n)
      (d, store memory d (s.take n.toNat ++ List.replicate (n.toNat - s.length) 0)) := by
  obtain ⟨left, hleft, hcopied⟩ := copying_spec char (strncpyRound char) id
    (fun _ hgo => if_pos hgo) (fun _ hstop => if_neg hstop) (hs.shows n.toNat) hs.nulFree hapart
  obtain ⟨left', hfilled⟩ := strncpyFill_spec (store memory d (s.take n.toNat))
    (d + (s.take n.toNat).length) (a + (s.take n.toNat).length) left
  rw [store_store, hleft] at hfilled
  exact hcopied.bind (hfilled.bind (Ends.value _))

/-- `strncat` stores the bytes that fit, and a NUL, where the NUL was. -/
theorem strncat_spec (hs : StringAt memory d s) (ht : StringAt memory a t)
    (haddress : d + s.length < 0x10000000000000000)
    (hapart : d + s.length ≤ a ∨ a + min n.toNat (t.length + 1) ≤ d + s.length) :
    Ends (strncat char memory d a n)
      (d, store memory (d + s.length) (t.take n.toNat ++ [0])) := by
  obtain ⟨before, hbefore, hlength⟩ := strlen_spec char hs haddress
  obtain ⟨left, -, hcopied⟩ := copying_spec char (strncatRound char) Copying.countDown
    (fun _ hgo => if_pos hgo) (fun _ hstop => if_neg hstop) (ht.shows n.toNat) ht.nulFree hapart
  have hstored := store_store memory (d + s.length) (t.take n.toNat) [0]
  rw [← hstored]
  rw [← hlength] at hcopied ⊢
  unfold strncat
  refine hbefore.bind ?_
  exact hcopied.bind (Ends.value _)

/-! ## The functions of the C standard -/

/-- A NUL-terminated string of the machine, where the NUL has an address of 64 bits. -/
structure MachineString (memory : Nat → UInt8) (a : Nat) (s : List UInt8) : Prop where
  text : StringAt memory a s
  address : a + s.length < 0x10000000000000000

/-- Two calls compare two texts, one with each order of the arguments: the first tells
their order by its sign, the second has the opposite sign. -/
def Compares (forth back : Nat → Option Int) (s t : List UInt8) : Prop :=
  ∃ r r', Ends forth r ∧ Ends back r' ∧ Orders r s t ∧ r'.sign = -r.sign

/-- Two comparisons that end compare the strings. -/
theorem compares_of_ends {forth back : Nat → Option Int} (hforth : Ends forth (difference s t))
    (hback : Ends back (difference t s)) (hs : NulFree s) (ht : NulFree t) :
    Compares forth back s t := by
  refine ⟨_, _, hforth, hback, orders_difference hs ht, ?_⟩
  rw [difference_comm s t, Int.sign_neg]

/-- `strncpy` leaves a field of `n` bytes, and the rest of the memory. -/
theorem strncpy_field (hs : StringAt memory a s)
    (hapart : d ≤ a ∨ a + min n.toNat (s.length + 1) ≤ d) :
    ∃ memory', Ends (strncpy char memory d a n) (d, memory') ∧
      load memory' d n.toNat = s.take n.toNat ++ List.replicate (n.toNat - s.length) 0 ∧
      OnlyIn memory memory' ⟨d, n.toNat⟩ := by
  have hlength : (s.take n.toNat ++ List.replicate (n.toNat - s.length) 0).length = n.toNat := by
    rw [List.length_append, List.length_take, List.length_replicate]
    omega
  have hload := load_store memory d (s.take n.toNat ++ List.replicate (n.toNat - s.length) 0)
  have honly := store_onlyIn memory d (s.take n.toNat ++ List.replicate (n.toNat - s.length) 0)
  rw [hlength] at hload honly
  exact ⟨_, strncpy_spec hs hapart, hload, honly⟩

/-- `strncat` leaves the longer text, and the rest of the memory. -/
theorem strncat_text (hs : StringAt memory d s) (ht : StringAt memory a t)
    (haddress : d + s.length < 0x10000000000000000)
    (hapart : d + s.length ≤ a ∨ a + min n.toNat (t.length + 1) ≤ d + s.length) :
    ∃ memory', Ends (strncat char memory d a n) (d, memory') ∧
      StringAt memory' d (s ++ t.take n.toNat) ∧
      OnlyIn memory memory' ⟨d + s.length, min n.toNat t.length + 1⟩ := by
  have honly := store_onlyIn memory (d + s.length) (t.take n.toNat ++ [0])
  rw [List.length_append, List.length_take, List.length_singleton] at honly
  exact ⟨_, strncat_spec hs ht haddress hapart, hs.append (ht.nulFree.take _), honly⟩

end Results

/-- **The string functions are those of the C standard**, whether plain `char` is signed or
not.  A copy must not start within what it still has to read. -/
theorem string_functions_standard (char : PlainChar) (memory : Nat → UInt8) :
    (∀ a s, MachineString memory a s →
      ∃ length, Ends (strlen char memory a) length ∧ length.toNat = s.length) ∧
    (∀ a b s t, MachineString memory a s → MachineString memory b t →
      Compares (strcmp char memory a b) (strcmp char memory b a) s t ∧
      ∀ n : UInt64,
        Compares (strncmp char memory a b n) (strncmp char memory b a n)
          (s.take n.toNat) (t.take n.toNat) ∧
        ∀ memory' a' b', MachineString memory' a' (s.take n.toNat) →
          MachineString memory' b' (t.take n.toNat) →
          ∃ r r', Ends (strncmp char memory a b n) r ∧ Ends (strcmp char memory' a' b') r' ∧
            r.sign = r'.sign) ∧
    (∀ d a s (n : UInt64), MachineString memory a s →
      (d ≤ a ∨ a + min n.toNat (s.length + 1) ≤ d) →
      ∃ memory', Ends (strncpy char memory d a n) (d, memory') ∧
        load memory' d n.toNat = s.take n.toNat ++ List.replicate (n.toNat - s.length) 0 ∧
        OnlyIn memory memory' ⟨d, n.toNat⟩) ∧
    (∀ d a s t (n : UInt64), MachineString memory d s → MachineString memory a t →
      (d + s.length ≤ a ∨ a + min n.toNat (t.length + 1) ≤ d + s.length) →
      ∃ memory', Ends (strncat char memory d a n) (d, memory') ∧
        StringAt memory' d (s ++ t.take n.toNat) ∧
        OnlyIn memory memory' ⟨d + s.length, min n.toNat t.length + 1⟩) := by
  refine ⟨?_, ?_, ?_, ?_⟩
  · intro a s hs
    exact strlen_spec char hs.text hs.address
  · intro a b s t hs ht
    have hsFree := hs.text.nulFree
    have htFree := ht.text.nulFree
    constructor
    · exact compares_of_ends (strcmp_spec hs.text ht.text) (strcmp_spec ht.text hs.text)
        hsFree htFree
    · intro n
      constructor
      · exact compares_of_ends (strncmp_spec hs.text ht.text n) (strncmp_spec ht.text hs.text n)
          (hsFree.take _) (htFree.take _)
      · intro memory' a' b' hs' ht'
        exact ⟨_, _, strncmp_spec hs.text ht.text n, strcmp_spec hs'.text ht'.text, rfl⟩
  · intro d a s n hs hapart
    exact strncpy_field hs.text hapart
  · intro d a s t n hs ht hapart
    exact strncat_text hs.text ht.text hs.address hapart

/-- The memory of the two strings below: `a`, `0xe9` at 0 and `a`, `z` at 8. -/
def twoStrings (x : Nat) : UInt8 := [0x61, 0xe9, 0, 0, 0, 0, 0, 0, 0x61, 0x7a].getD x 0

/-- As signed characters, `0xe9` is negative and `z` is not; the functions take both as
unsigned. -/
theorem string_functions_standard_signed :
    (∃ length, Ends (strlen .signed twoStrings 8) length ∧ length.toNat = 2) ∧
    Compares (strcmp .signed twoStrings 0 8) (strcmp .signed twoStrings 8 0)
      [0x61, 0xe9] [0x61, 0x7a] ∧
    Compares (strncmp .signed twoStrings 0 8 1) (strncmp .signed twoStrings 8 0 1)
      [0x61] [0x61] ∧
    (∃ memory', Ends (strncpy .signed twoStrings 16 8 4) (16, memory') ∧
      load memory' 16 4 = [0x61, 0x7a, 0, 0] ∧ OnlyIn twoStrings memory' ⟨16, 4⟩) ∧
    ∃ memory', Ends (strncat .signed twoStrings 0 8 1) (0, memory') ∧
      StringAt memory' 0 [0x61, 0xe9, 0x61] ∧ OnlyIn twoStrings memory' ⟨2, 2⟩ := by
  have hfree : NulFree [0x61, 0xe9] := by simp [NulFree]
  have hfree' : NulFree [0x61, 0x7a] := by simp [NulFree]
  have hfirst : MachineString twoStrings 0 [0x61, 0xe9] := ⟨⟨hfree, by decide⟩, by decide⟩
  have hsecond : MachineString twoStrings 8 [0x61, 0x7a] := ⟨⟨hfree', by decide⟩, by decide⟩
  obtain ⟨hlen, hcmp, hcpy, hcat⟩ := string_functions_standard .signed twoStrings
  obtain ⟨horder, hncmp⟩ := hcmp 0 8 _ _ hfirst hsecond
  exact ⟨hlen 8 _ hsecond, horder, (hncmp 1).1, hcpy 16 8 _ 4 hsecond (.inr (by decide)),
    hcat 0 8 _ _ 1 hfirst hsecond (.inl (by decide))⟩

end UefiCompat

end WolfSshUefi
