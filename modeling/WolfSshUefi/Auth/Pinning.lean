import WolfSshUefi.Arguments.Values

/-!
# Pinned fingerprints

`ParseFingerprint` writes the digits of a fingerprint in lower case, and
`WolfSshHostKeyCallback` writes those of a digest.  Both come to the same text
exactly when the fingerprint denotes the digest, with whatever separators and in
whatever case it was given (`fingerprint_pinned`).
-/

namespace WolfSshUefi

namespace WString

/-- The value of a hex digit. -/
def digitOf (c : UInt16) : Nat :=
  if c ≤ 0x39 then c.toNat - 0x30 else if c ≤ 0x46 then c.toNat - 0x41 + 10 else c.toNat - 0x61 + 10

/-- Every byte is denoted by two digits, the high one first. -/
def DenoteBytes : List UInt16 → List UInt8 → Prop
  | [], [] => True
  | high :: low :: digits, byte :: bytes =>
      byte.toNat = 16 * digitOf high + digitOf low ∧ DenoteBytes digits bytes
  | _, _ => False

/-- The digits of the text denote the digest. -/
def Denotes (s : WString) (digest : Digest) : Prop :=
  DenoteBytes (withoutSeparators s.text) digest.toList

/-- A digit is stored as the digit of its value. -/
theorem lower_eq_hexDigits {c : UInt16} (h : HexDigit c) :
    digitOf c < 16 ∧ lower c = hexDigits.getD (digitOf c) 0 := by
  have hall : ∀ n : Fin 0x67, HexDigit (UInt16.ofNat n) → digitOf (UInt16.ofNat n) < 16 ∧
      lower (UInt16.ofNat n) = hexDigits.getD (digitOf (UInt16.ofNat n)) 0 := by
    unfold HexDigit
    decide +kernel
  have hc := hall ⟨c.toNat, Nat.lt_succ_of_le h.toNat_le⟩
  rw [UInt16.ofNat_toNat] at hc
  exact hc h

/-- A nibble has the digit that is stored exactly when it is the digit's value. -/
theorem hexDigit_eq_lower_iff {nibble : UInt8} (hnibble : nibble.toNat < 16) {c : UInt16}
    (hc : HexDigit c) : hexDigit nibble = lower c ↔ nibble.toNat = digitOf c := by
  obtain ⟨hdigit, hlower⟩ := lower_eq_hexDigits hc
  rw [hlower]
  constructor
  · intro hsame
    have hvalue : (UInt8.ofNat (digitOf c)).toNat = digitOf c :=
      UInt8.toNat_ofNat_of_lt' (show digitOf c < 256 by omega)
    have hnat : hexDigit nibble = hexDigit (UInt8.ofNat (digitOf c)) := by
      rw [hsame, hexDigit, hvalue]
    rw [hexDigit_injective hnibble (hvalue.symm ▸ hdigit) hnat, hvalue]
  · intro heq
    rw [hexDigit, heq]

/-- **Two writers meet**: the text of some bytes is that of some digits exactly when
the digits denote the bytes. -/
theorem hexText_eq_iff {digits : List UInt16} (hdigits : ∀ c ∈ digits, HexDigit c)
    (bytes : List UInt8) :
    (bytes.flatMap fun (byte : UInt8) => [hexDigit (byte >>> 4), hexDigit (byte &&& 0x0f)]) =
      digits.map lower ↔ DenoteBytes digits bytes := by
  fun_induction DenoteBytes digits bytes with
  | case1 => simp
  | case2 high low digits byte bytes ih =>
      obtain ⟨hhigh, hrest⟩ := List.forall_mem_cons.mp hdigits
      obtain ⟨hlow, hrest⟩ := List.forall_mem_cons.mp hrest
      obtain ⟨hdiv, hmod⟩ := nibbles byte
      obtain ⟨hhighLt, hlowLt⟩ := nibbles_lt byte
      have hvalue := (lower_eq_hexDigits hlow).1
      rw [List.flatMap_cons, List.map_cons, List.map_cons, List.cons_append, List.cons_append,
        List.nil_append, List.cons.injEq, List.cons.injEq, hexDigit_eq_lower_iff hhighLt hhigh,
        hexDigit_eq_lower_iff hlowLt hlow, hdiv, hmod, ih hrest, ← and_assoc]
      exact and_congr_left fun _ => by omega
  | case3 digits bytes hnil hcons =>
      refine iff_of_false ?_ not_false
      intro hsame
      cases bytes with
      | nil =>
          cases digits with
          | nil => exact hnil rfl rfl
          | cons high rest => cases hsame
      | cons byte bytes =>
          cases digits with
          | nil => cases hsame
          | cons high rest =>
              cases rest with
              | nil => simp at hsame
              | cons low rest => exact hcons high low rest byte bytes rfl rfl

end WString

open TextBuffer

/-- **Pinned fingerprints.**  A text is accepted exactly when it has 64 hex digits
and separators, and then it matches exactly the digest that its digits denote. -/
theorem fingerprint_pinned (s : WString) (fingerprint : Vector UInt8 65) :
    ((parseFingerprint s fingerprint).1 = efiSuccess ↔ s.Fingerprint) ∧
      (s.Fingerprint → ∀ digest : Digest,
        asciiStrCmp (hexText digest) (text (parseFingerprint s fingerprint).2) = 0 ↔
          s.Denotes digest) := by
  obtain ⟨haccept, hreject⟩ := parseFingerprint_spec s fingerprint
  refine ⟨⟨fun hstatus => ?_, fun hvalid => (haccept hvalid).1⟩, ?_⟩
  · by_contra hinvalid
    have herror := hreject hinvalid
    rw [hstatus] at herror
    exact not_efiError_success herror
  · intro hvalid digest
    rw [asciiStrCmp_eq_zero_iff (hexText_nul_free digest) (nul_free _), (haccept hvalid).2]
    exact WString.hexText_eq_iff hvalid.digits digest.toList

end WolfSshUefi
