import Mathlib.Data.List.Basic

/-!
# UTF-8 sequences, strict and lenient

A lenient decoder takes any lead byte with the number of continuation bytes it
announces and adds up their bits.  The sequence is well formed when it is the
encoding of a character, `String.utf8EncodeChar`.  A complete sequence whose
value is a character that needs as many bytes is the encoding of that character
(`encode_value`), and one whose value fits in fewer bytes is overlong: no well
formed sequence ends where it ends, except in its own continuation bytes
(`Overlong.not_encoded`).
-/

namespace Utf8

/-- The number of continuation bytes that a lead byte announces. -/
def announced (lead : UInt8) : Nat :=
  if lead &&& 0xe0 = 0xc0 then 1
  else if lead &&& 0xf0 = 0xe0 then 2
  else if lead &&& 0xf8 = 0xf0 then 3
  else 0

/-- The bits of the value in a lead byte. -/
def payload (lead : UInt8) : Nat :=
  if lead &&& 0xe0 = 0xc0 then (lead &&& 0x1f).toNat
  else if lead &&& 0xf0 = 0xe0 then (lead &&& 0x0f).toNat
  else (lead &&& 0x07).toNat

/-- A continuation byte. -/
def Tail (byte : UInt8) : Prop := byte &&& 0xc0 = 0x80

instance (byte : UInt8) : Decidable (Tail byte) := by
  unfold Tail; infer_instance

/-- The value of a lead byte and the continuation bytes after it. -/
def value (lead : UInt8) (tails : List UInt8) : Nat :=
  tails.foldl (fun v byte => v * 64 + (byte &&& 0x3f).toNat) (payload lead)

/-- The least value that needs so many continuation bytes. -/
def least : Nat → Nat
  | 0 => 0
  | 1 => 0x80
  | 2 => 0x800
  | _ => 0x10000

/-- A lead byte with all its continuation bytes. -/
structure Complete (lead : UInt8) (tails : List UInt8) : Prop where
  length : tails.length = announced lead
  nonempty : tails ≠ []
  follow : ∀ b ∈ tails, Tail b

/-- A complete sequence whose value fits in fewer bytes. -/
structure Overlong (lead : UInt8) (tails : List UInt8) : Prop extends Complete lead tails where
  small : value lead tails < least tails.length

/-! ### Bytes -/

/-- A property of all bytes, number by number. -/
theorem forall_uint8 {P : UInt8 → Prop} (h : ∀ n : Fin 256, P (UInt8.ofNat n)) (b : UInt8) :
    P b := by
  have hb := h ⟨b.toNat, b.toNat_lt⟩
  rwa [UInt8.ofNat_toNat] at hb

/-- A continuation byte carries six bits. -/
theorem tail_bits (b : UInt8) : Tail b →
    b.toNat = 0x80 + (b &&& 0x3f).toNat ∧ (b &&& 0x3f).toNat < 64 :=
  forall_uint8 (P := fun b => Tail b →
    b.toNat = 0x80 + (b &&& 0x3f).toNat ∧ (b &&& 0x3f).toNat < 64) (by decide +kernel) b

/-- A leading byte carries five, four or three. -/
theorem lead_bits (b : UInt8) :
    (announced b = 1 → b.toNat = 0xc0 + payload b ∧ payload b < 32) ∧
      (announced b = 2 → b.toNat = 0xe0 + payload b ∧ payload b < 16) ∧
      (announced b = 3 → b.toNat = 0xf0 + payload b ∧ payload b < 8) :=
  forall_uint8 (P := fun b =>
    (announced b = 1 → b.toNat = 0xc0 + payload b ∧ payload b < 32) ∧
      (announced b = 2 → b.toNat = 0xe0 + payload b ∧ payload b < 16) ∧
      (announced b = 3 → b.toNat = 0xf0 + payload b ∧ payload b < 8)) (by decide +kernel) b

/-- It announces at most three more. -/
theorem announced_le (b : UInt8) : announced b ≤ 3 := by
  unfold announced
  repeat' split
  all_goals omega

/-- A lead byte is no continuation byte. -/
theorem not_tail_of_announced (b : UInt8) : announced b ≠ 0 → ¬ Tail b :=
  forall_uint8 (P := fun b => announced b ≠ 0 → ¬ Tail b) (by decide +kernel) b

/-- A printable ASCII byte is no lead byte. -/
theorem announced_ascii {b : UInt8} : b ≥ 0x20 ∧ b < 0x7f → announced b = 0 :=
  forall_uint8 (P := fun b => b ≥ 0x20 ∧ b < 0x7f → announced b = 0) (by decide +kernel) b

/-! ### Values -/

/-- The value of two bytes. -/
theorem value_one (lead b : UInt8) : value lead [b] = payload lead * 64 + (b &&& 0x3f).toNat := rfl

/-- The value of three bytes. -/
theorem value_two (lead b c : UInt8) :
    value lead [b, c] = (payload lead * 64 + (b &&& 0x3f).toNat) * 64 + (c &&& 0x3f).toNat := rfl

/-- The value of four bytes. -/
theorem value_three (lead b c d : UInt8) :
    value lead [b, c, d] = ((payload lead * 64 + (b &&& 0x3f).toNat) * 64 +
      (c &&& 0x3f).toNat) * 64 + (d &&& 0x3f).toNat := rfl

/-- Each continuation byte adds its six bits. -/
theorem value_concat (lead : UInt8) (tails : List UInt8) (b : UInt8) :
    value lead (tails ++ [b]) = value lead tails * 64 + (b &&& 0x3f).toNat := by
  unfold value
  rw [List.foldl_append]
  rfl

/-- The bits of so many bytes. -/
theorem value_lt {lead : UInt8} {tails : List UInt8} (hlead : announced lead ≠ 0)
    (hlength : tails.length ≤ 3) (htails : ∀ b ∈ tails, Tail b) :
    value lead tails < 32 * 64 * 64 * 64 := by
  obtain ⟨hone, htwo, hthree⟩ := lead_bits lead
  have hle := announced_le lead
  have hpayload : payload lead < 32 := by omega
  match tails, hlength, htails with
  | [], _, _ =>
      change payload lead < _
      omega
  | [b], _, htails =>
      have hb := (tail_bits b (htails b (by simp))).2
      rw [value_one]
      omega
  | [b, c], _, htails =>
      have hb := (tail_bits b (htails b (by simp))).2
      have hc := (tail_bits c (htails c (by simp))).2
      rw [value_two]
      omega
  | [b, c, d], _, htails =>
      have hb := (tail_bits b (htails b (by simp))).2
      have hc := (tail_bits c (htails c (by simp))).2
      have hd := (tail_bits d (htails d (by simp))).2
      rw [value_three]
      omega

/-- A byte is its number. -/
theorem eq_ofNat {b : UInt8} {n : Nat} (h : b.toNat = n) : UInt8.ofNat n = b := by
  rw [← h, UInt8.ofNat_toNat]

/-- **A complete sequence that is not overlong encodes its value**, where this is
a character of the basic plane. -/
theorem encode_value {lead : UInt8} {tails : List UInt8} (h : Complete lead tails)
    (hleast : least tails.length ≤ value lead tails) {c : Char}
    (hvalue : c.toNat = value lead tails)
    (hplane : c.toNat ≤ 0xffff) : String.utf8EncodeChar c = lead :: tails := by
  obtain ⟨hlength, hnonempty, hfollow⟩ := h
  obtain ⟨hone, htwo, hthree⟩ := lead_bits lead
  have hle := announced_le lead
  have hval : c.val.toNat = value lead tails := hvalue
  unfold String.utf8EncodeChar
  simp only [hval]
  match tails, hlength, hnonempty, hfollow with
  | [b], hlength, _, hfollow =>
      obtain ⟨hb, hb'⟩ := tail_bits b (hfollow b (by simp))
      obtain ⟨hlead, hpayload⟩ := hone hlength.symm
      rw [value_one] at hleast ⊢
      simp only [List.length_singleton, least] at hleast
      rw [if_neg (by omega), if_pos (by omega)]
      rw [eq_ofNat (b := lead) (by omega), eq_ofNat (b := b) (by omega)]
  | [b, d], hlength, _, hfollow =>
      obtain ⟨hb, hb'⟩ := tail_bits b (hfollow b (by simp))
      obtain ⟨hd, hd'⟩ := tail_bits d (hfollow d (by simp))
      obtain ⟨hlead, hpayload⟩ := htwo hlength.symm
      rw [value_two] at hleast ⊢
      simp only [List.length_cons, List.length_nil, least] at hleast
      rw [if_neg (by omega), if_neg (by omega), if_pos (by omega)]
      rw [eq_ofNat (b := lead) (by omega), eq_ofNat (b := b) (by omega),
        eq_ofNat (b := d) (by omega)]
  | [b, d, e], hlength, _, hfollow =>
      -- a value of the basic plane never needs three continuation bytes
      simp only [List.length_cons, List.length_nil, least] at hleast
      omega
  | b :: d :: e :: f :: rest, hlength, _, _ =>
      simp only [List.length_cons] at hlength
      omega

/-- The bytes that an encoding is made of. -/
theorem tail_ofNat : ∀ n : Fin 64, Tail (UInt8.ofNat (n + 0x80)) ∧
    (UInt8.ofNat (n + 0x80) &&& 0x3f).toNat = n := by
  decide

/-- The leading bytes of sequences of two. -/
theorem lead_two_ofNat : ∀ n : Fin 32, announced (UInt8.ofNat (n + 0xc0)) = 1 ∧
    payload (UInt8.ofNat (n + 0xc0)) = n := by
  decide

/-- The leading bytes of sequences of three. -/
theorem lead_three_ofNat : ∀ n : Fin 16, announced (UInt8.ofNat (n + 0xe0)) = 2 ∧
    payload (UInt8.ofNat (n + 0xe0)) = n := by
  decide

/-- **A character of the basic plane beyond ASCII is encoded** by a complete sequence
with its value. -/
theorem encode_complete {c : Char} (hlow : 0x80 ≤ c.toNat) (hplane : c.toNat ≤ 0xffff) :
    ∃ lead tails, String.utf8EncodeChar c = lead :: tails ∧ Complete lead tails ∧
      value lead tails = c.toNat := by
  have hval : c.val.toNat = c.toNat := rfl
  generalize hv : c.toNat = v at hval hlow hplane ⊢
  have htail (n : Nat) := tail_ofNat ⟨n % 64, Nat.mod_lt n (by omega)⟩
  unfold String.utf8EncodeChar
  simp only [hval]
  rw [if_neg (by omega)]
  by_cases htwo : v ≤ 0x7ff
  · rw [if_pos htwo]
    obtain ⟨hannounced, hpayload⟩ := lead_two_ofNat ⟨v / 64 % 32, Nat.mod_lt _ (by omega)⟩
    refine ⟨_, _, rfl, ⟨hannounced.symm, by simp, ?_⟩, ?_⟩
    · intro b hb
      rw [List.mem_singleton] at hb
      exact hb ▸ (htail v).1
    · have hlast := (htail v).2
      dsimp only at hpayload hlast
      rw [value_one, hpayload, hlast]
      omega
  · rw [if_neg htwo, if_pos hplane]
    obtain ⟨hannounced, hpayload⟩ := lead_three_ofNat ⟨v / 4096 % 16, Nat.mod_lt _ (by omega)⟩
    refine ⟨_, _, rfl, ⟨hannounced.symm, by simp, ?_⟩, ?_⟩
    · intro b hb
      rcases List.mem_pair.mp hb with rfl | rfl
      · exact (htail (v / 64)).1
      · exact (htail v).1
    · have hmiddle := (htail (v / 64)).2
      have hlast := (htail v).2
      dsimp only at hpayload hmiddle hlast
      rw [value_two, hpayload, hmiddle, hlast]
      omega
/-- The first byte of an encoding is no continuation byte. -/
theorem encode_head {c : Char} {b : UInt8} {rest : List UInt8}
    (h : String.utf8EncodeChar c = b :: rest) : ¬ Tail b := by
  have hhead {n : Nat} (hn : n < 256) (hlow : n < 0x80 ∨ 0xc0 ≤ n) : ¬ Tail (UInt8.ofNat n) := by
    intro htail
    have hbits := tail_bits _ htail
    rw [UInt8.toNat_ofNat_of_lt' hn] at hbits
    omega
  unfold String.utf8EncodeChar at h
  simp only at h
  split at h
  · obtain ⟨rfl, -⟩ := List.cons.inj h
    exact hhead (by omega) (by omega)
  split at h
  · obtain ⟨rfl, -⟩ := List.cons.inj h
    exact hhead (by omega) (by omega)
  split at h
  · obtain ⟨rfl, -⟩ := List.cons.inj h
    exact hhead (by omega) (by omega)
  · obtain ⟨rfl, -⟩ := List.cons.inj h
    exact hhead (by omega) (by omega)

/-- The encoding of a character of the basic plane is as short as can be. -/
theorem length_encode_le {c : Char} {n : Nat} (hn : n ≤ 3) (h : c.toNat < least n) :
    (String.utf8EncodeChar c).length ≤ n := by
  have hval : c.val.toNat < least n := h
  unfold String.utf8EncodeChar
  dsimp only
  match n, hn with
  | 0, _ => exact absurd hval (Nat.not_lt_zero _)
  | 1, _ =>
      simp only [least] at hval
      rw [if_pos (by omega)]
      exact Nat.le_refl _
  | 2, _ =>
      simp only [least] at hval
      split
      · simp
      · rw [if_pos (by omega)]
        exact Nat.le_refl _
  | 3, _ =>
      simp only [least] at hval
      split
      · simp
      · split
        · simp
        · rw [if_pos (by omega)]
          exact Nat.le_refl _

/-- **No encoding of the value ends where an overlong sequence ends.** -/
theorem Overlong.not_encoded {lead : UInt8} {tails : List UInt8} (h : Overlong lead tails)
    {c : Char} (hvalue : c.toNat = value lead tails) (first start : List UInt8) :
    first ++ lead :: tails ≠ start ++ String.utf8EncodeChar c := by
  intro hsame
  have hthree : tails.length ≤ 3 := h.length ▸ announced_le lead
  have hshort : (String.utf8EncodeChar c).length ≤ tails.length :=
    length_encode_le hthree (hvalue ▸ h.small)
  -- so the encoding lies inside the continuation bytes
  have hsuffix : String.utf8EncodeChar c <:+ tails := by
    have hwhole : String.utf8EncodeChar c <:+ first ++ [lead] ++ tails :=
      ⟨start, by rw [← hsame, List.append_assoc]; rfl⟩
    exact List.suffix_of_suffix_length_le hwhole (List.suffix_append _ _) hshort
  cases hencode : String.utf8EncodeChar c with
  | nil => exact String.utf8EncodeChar_ne_nil hencode
  | cons b rest =>
      rw [hencode] at hsuffix
      exact encode_head hencode (h.follow b (hsuffix.subset List.mem_cons_self))

end Utf8
