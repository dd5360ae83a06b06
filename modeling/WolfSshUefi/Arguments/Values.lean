import WolfSshUefi.Arguments.Options

/-!
# The values of the options

What each kind of value has to look like and what it stands for: a short ASCII
text, a port number, a fingerprint.  Each of the functions that read a value
accepts exactly the texts of its kind, and stores what they stand for.
-/

namespace WolfSshUefi

/-- `EFI_INVALID_PARAMETER` is an error. -/
theorem efiError_invalidParameter : EfiError efiInvalidParameter := by decide

/-- `EFI_SUCCESS` is none. -/
theorem not_efiError_success : ¬ EfiError efiSuccess := by decide

namespace WString

/-- At most so many characters, all of them ASCII. -/
def Ascii (s : WString) (length : Nat) : Prop :=
  s.text.length ≤ length ∧ ∀ c ∈ s.text, c ≤ 0x7f

def ascii (s : WString) : List UInt8 := s.text.map UInt16.toUInt8

/-- The number that a string of digits denotes, after the digits of `value`. -/
def decimalAfter (value : Nat) (text : List UInt16) : Nat :=
  text.foldl (fun value c => value * 10 + (c.toNat - 0x30)) value

/-- A decimal number from 1 to 65535. -/
structure Port (s : WString) : Prop where
  nonempty : s.text ≠ []
  digits : ∀ c ∈ s.text, 0x30 ≤ c ∧ c ≤ 0x39
  pos : 1 ≤ decimalAfter 0 s.text
  le : decimalAfter 0 s.text ≤ 65535

/-- The text without the separators of a fingerprint. -/
def withoutSeparators (text : List UInt16) : List UInt16 :=
  text.filter fun c => c ≠ 0x3a ∧ c ≠ 0x2d

def HexDigit (c : UInt16) : Prop :=
  (0x30 ≤ c ∧ c ≤ 0x39) ∨ (0x41 ≤ c ∧ c ≤ 0x46) ∨ (0x61 ≤ c ∧ c ≤ 0x66)

/-- 64 hex digits, with separators anywhere. -/
structure Fingerprint (s : WString) : Prop where
  digits : ∀ c ∈ withoutSeparators s.text, HexDigit c
  length : (withoutSeparators s.text).length = 64

/-- A hex digit in lower case. -/
def lower (c : UInt16) : UInt8 :=
  if 0x41 ≤ c ∧ c ≤ 0x46 then (c + 0x20).toUInt8 else c.toUInt8

end WString

/-! ### Short texts -/

open TextBuffer

/-- ASCII that fits is copied, with its NUL. -/
theorem copyFrom_ascii {capacity : Nat} {source : List UInt16} (first : List UInt8)
    {rest : List UInt8} {destination : Vector UInt8 capacity} (hsplit : destination.toList = first ++ rest)
    (hroom : first.length + source.length < capacity) (hascii : ∀ c ∈ source, c ≤ 0x7f) :
    (copyFrom source first.length destination).1 = efiSuccess ∧
      ∃ behind, (copyFrom source first.length destination).2.toList =
        first ++ source.map UInt16.toUInt8 ++ 0 :: behind := by
  induction source generalizing first rest destination with
  | nil =>
      cases rest with
      | nil =>
          have hsize := congrArg List.length hsplit
          rw [Vector.length_toList, List.append_nil] at hsize
          simp only [List.length_nil] at hroom
          omega
      | cons old rest =>
          refine ⟨rfl, rest, ?_⟩
          rw [List.map_nil, List.append_nil]
          exact toList_set hsplit 0
  | cons c tail ih =>
      cases rest with
      | nil =>
          have hsize := congrArg List.length hsplit
          rw [Vector.length_toList, List.append_nil] at hsize
          simp only [List.length_cons] at hroom
          omega
      | cons old rest =>
          simp only [List.length_cons] at hroom
          have hkept : ¬ (first.length + 1 ≥ capacity ∨ c > 0x7f) := by
            intro hcase
            obtain hfull | hwide := hcase
            · omega
            · exact absurd (hascii c List.mem_cons_self) (UInt16.not_le.mpr hwide)
          have hnext : (destination.setIfInBounds first.length c.toUInt8).toList =
              (first ++ [c.toUInt8]) ++ rest := by
            rw [toList_set hsplit, List.append_assoc]
            rfl
          have hrest := ih _ hnext (by rw [List.length_append, List.length_singleton]; omega)
            fun c' hc' => hascii c' (List.mem_cons_of_mem c hc')
          rw [copyFrom, if_neg hkept]
          rw [List.length_append, List.length_singleton] at hrest
          obtain ⟨hstatus, behind, hbytes⟩ := hrest
          exact ⟨hstatus, behind, by simpa using hbytes⟩

/-- Anything else is refused. -/
theorem copyFrom_error {capacity : Nat} {source : List UInt16} {index : Nat}
    (destination : Vector UInt8 capacity)
    (h : ¬ (index + source.length < capacity ∧ ∀ c ∈ source, c ≤ 0x7f))
    (hindex : index < capacity) :
    EfiError (copyFrom source index destination).1 := by
  induction source generalizing index destination with
  | nil => exact absurd ⟨hindex, by simp⟩ h
  | cons c tail ih =>
      rw [copyFrom]
      split
      · exact efiError_invalidParameter
      · next hkept =>
          apply ih
          · intro hboth
            obtain ⟨hroom, hascii⟩ := hboth
            apply h
            refine ⟨by rw [List.length_cons]; omega, fun c' hc' => ?_⟩
            rcases List.mem_cons.mp hc' with rfl | htail
            · exact UInt16.not_lt.mp fun hwide => hkept (.inr hwide)
            · exact hascii c' htail
          · omega

/-- A copied string has no NUL in it. -/
theorem ascii_nul_free {s : WString} {length : Nat} (h : s.Ascii length) : 0 ∉ s.ascii := by
  intro hmem
  obtain ⟨c, hc, hzero⟩ := List.mem_map.mp hmem
  have hle : c.toNat ≤ 0x7f := h.2 c hc
  have hbyte : c.toUInt8.toNat = c.toNat := by
    rw [UInt16.toNat_toUInt8]
    omega
  rw [hzero] at hbyte
  have hnul : c = 0 := UInt16.toNat_inj.mp hbyte.symm
  exact s.nul_free (hnul ▸ hc)

/-- **`CopyUnicodeAsAscii` accepts exactly** the ASCII texts that fit. -/
theorem copyUnicodeAsAscii_spec {capacity : Nat} (s : WString)
    (destination : Vector UInt8 (capacity + 1)) :
    (s.Ascii capacity → (copyUnicodeAsAscii s destination).1 = efiSuccess ∧
        text (copyUnicodeAsAscii s destination).2 = s.ascii) ∧
      (¬ s.Ascii capacity → EfiError (copyUnicodeAsAscii s destination).1) := by
  unfold copyUnicodeAsAscii
  rw [if_neg (Nat.succ_ne_zero capacity)]
  constructor
  · intro hascii
    have hroom : ([] : List UInt8).length + s.text.length < capacity + 1 := by
      have hle := hascii.1
      rw [List.length_nil]
      omega
    have hstart : destination.toList = [] ++ destination.toList := rfl
    obtain ⟨hstatus, behind, hbytes⟩ := copyFrom_ascii [] hstart hroom hascii.2
    exact ⟨hstatus, text_of_toList hbytes (ascii_nul_free hascii)⟩
  · intro hnot
    apply copyFrom_error _ _ (Nat.succ_pos capacity)
    intro hboth
    obtain ⟨hroom, hascii⟩ := hboth
    exact hnot ⟨by omega, hascii⟩

/-! ### Port numbers -/

/-- A number grows with its digits. -/
theorem le_decimalAfter (value : Nat) (text : List UInt16) :
    value ≤ WString.decimalAfter value text := by
  induction text generalizing value with
  | nil => exact Nat.le_refl value
  | cons c tail ih =>
      have hrest := ih (value * 10 + (c.toNat - 0x30))
      exact Nat.le_trans (by omega) hrest

/-- The loop stops before the number can wrap. -/
theorem portFrom_eq_some_iff (text : List UInt16) {value : Nat} (hvalue : value ≤ 65535)
    (number : Nat) :
    portFrom text value = some number ↔
      (∀ c ∈ text, 0x30 ≤ c ∧ c ≤ 0x39) ∧ WString.decimalAfter value text ≤ 65535 ∧
        number = WString.decimalAfter value text := by
  induction text generalizing value with
  | nil =>
      simp only [portFrom, WString.decimalAfter, List.foldl_nil, Option.some.injEq]
      constructor
      · intro heq
        obtain rfl := heq
        exact ⟨by simp, hvalue, rfl⟩
      · intro hall
        obtain ⟨-, -, rfl⟩ := hall
        rfl
  | cons c tail ih =>
      rw [portFrom]
      split
      · next hother =>
          refine ⟨fun hnone => (nomatch hnone), ?_⟩
          intro hall
          obtain ⟨hdigits, -, -⟩ := hall
          obtain ⟨hlow, hhigh⟩ := hdigits c List.mem_cons_self
          rcases hother with hbelow | habove
          · exact absurd hlow (UInt16.not_le.mpr hbelow)
          · exact absurd hhigh (UInt16.not_le.mpr habove)
      · next hdigit =>
          have hlow : 0x30 ≤ c := UInt16.not_lt.mp fun hbelow => hdigit (.inl hbelow)
          have hhigh : c ≤ 0x39 := UInt16.not_lt.mp fun habove => hdigit (.inr habove)
          have hhigh' : c.toNat ≤ 0x39 := hhigh
          have hexact : (value * 10 + (c.toNat - 0x30)) % 0x10000000000000000 =
              value * 10 + (c.toNat - 0x30) := Nat.mod_eq_of_lt (by omega)
          have hmore : WString.decimalAfter value (c :: tail) =
              WString.decimalAfter (value * 10 + (c.toNat - 0x30)) tail := rfl
          simp only [hexact]
          rw [hmore]
          split
          · next hlarge =>
              have hle := le_decimalAfter (value * 10 + (c.toNat - 0x30)) tail
              refine ⟨fun hnone => (nomatch hnone), ?_⟩
              intro hall
              obtain ⟨-, hsmall, -⟩ := hall
              omega
          · next hsmall =>
              rw [ih (Nat.not_lt.mp hsmall)]
              constructor
              · intro hboth
                obtain ⟨hdigits, hrest⟩ := hboth
                exact ⟨List.forall_mem_cons.mpr ⟨⟨hlow, hhigh⟩, hdigits⟩, hrest⟩
              · intro hboth
                obtain ⟨hdigits, hrest⟩ := hboth
                exact ⟨(List.forall_mem_cons.mp hdigits).2, hrest⟩

/-- **`ParsePort` accepts exactly** the numbers of ports, of any length. -/
theorem parsePort_spec (s : WString) (port : UInt16) :
    (s.Port → parsePort s port = (efiSuccess, UInt16.ofNat (WString.decimalAfter 0 s.text))) ∧
      (¬ s.Port → EfiError (parsePort s port).1) := by
  have hloop := portFrom_eq_some_iff s.text (Nat.zero_le 65535)
  unfold parsePort
  constructor
  · intro hall
    obtain ⟨hnonempty, hdigits, hpos, hle⟩ := hall
    rw [if_neg hnonempty, (hloop _).mpr ⟨hdigits, hle, rfl⟩]
    exact if_neg (by omega)
  · intro hnot
    split
    · exact efiError_invalidParameter
    · next hnonempty =>
        cases hnumber : portFrom s.text 0 with
        | none => exact efiError_invalidParameter
        | some number =>
            obtain ⟨hdigits, hle, rfl⟩ := (hloop number).mp hnumber
            by_cases hzero : WString.decimalAfter 0 s.text = 0
            · simp only [hzero, if_true]
              exact efiError_invalidParameter
            · exact absurd ⟨hnonempty, hdigits, Nat.pos_of_ne_zero hzero, hle⟩ hnot

/-! ### Fingerprints -/

/-- Only hexadecimal digits have a value. -/
theorem hexValue_of_not_hexDigit {c : UInt16} (h : ¬ WString.HexDigit c) : hexValue c < 0 := by
  unfold hexValue
  rw [if_neg fun hdigit => h (.inl hdigit), if_neg fun hlower => h (.inr (.inr hlower)),
    if_neg fun hupper => h (.inr (.inl hupper))]
  decide

/-- They are ASCII. -/
theorem WString.HexDigit.toNat_le {c : UInt16} (h : WString.HexDigit c) : c.toNat ≤ 0x66 := by
  have hbelow {high : UInt16} (hc : c ≤ high) : c.toNat ≤ high.toNat := hc
  rcases h with ⟨-, hhigh⟩ | ⟨-, hhigh⟩ | ⟨-, hhigh⟩
  · exact Nat.le_trans (hbelow hhigh) (by decide)
  · exact Nat.le_trans (hbelow hhigh) (by decide)
  · exact hbelow hhigh

/-- A hex digit is stored in lower case. -/
theorem hexValue_of_hexDigit (c : UInt16) : WString.HexDigit c →
    ¬ hexValue c < 0 ∧ hexDigits.getD (hexValue c).toNat 0 = WString.lower c ∧
      WString.lower c ≠ 0 := by
  intro hdigit
  have hall : ∀ n : Fin 0x67, WString.HexDigit (UInt16.ofNat n) →
      ¬ hexValue (UInt16.ofNat n) < 0 ∧
        hexDigits.getD (hexValue (UInt16.ofNat n)).toNat 0 = WString.lower (UInt16.ofNat n) ∧
          WString.lower (UInt16.ofNat n) ≠ 0 := by
    unfold WString.HexDigit
    decide +kernel
  have hc := hall ⟨c.toNat, Nat.lt_succ_of_le hdigit.toNat_le⟩
  rw [UInt16.ofNat_toNat] at hc
  exact hc hdigit

/-- A separator is no digit. -/
theorem separator_iff (c : UInt16) : c = 0x3a ∨ c = 0x2d ↔ ¬ (c ≠ 0x3a ∧ c ≠ 0x2d) := by
  grind

/-- Colons and hyphens are left out. -/
theorem withoutSeparators_separator {c : UInt16} (h : c = 0x3a ∨ c = 0x2d) (tail : List UInt16) :
    WString.withoutSeparators (c :: tail) = WString.withoutSeparators tail :=
  List.filter_cons_of_neg (by simpa using (separator_iff c).mp h)

/-- What is no separator stays. -/
theorem withoutSeparators_other {c : UInt16} (h : ¬ (c = 0x3a ∨ c = 0x2d)) (tail : List UInt16) :
    WString.withoutSeparators (c :: tail) = c :: WString.withoutSeparators tail :=
  List.filter_cons_of_pos (by simpa using not_not.mp (mt (separator_iff c).mpr h))

/-- 64 digits are a fingerprint, whatever separates them. -/
theorem fingerprintFrom_ok {s : List UInt16} (first : List UInt8) {rest : List UInt8}
    {fingerprint : Vector UInt8 65} (hsplit : fingerprint.toList = first ++ rest)
    (hdigits : ∀ c ∈ WString.withoutSeparators s, WString.HexDigit c)
    (hlength : first.length + (WString.withoutSeparators s).length = 64) :
    (fingerprintFrom s first.length fingerprint).1 = efiSuccess ∧
      ∃ behind, (fingerprintFrom s first.length fingerprint).2.toList =
        first ++ (WString.withoutSeparators s).map WString.lower ++ 0 :: behind := by
  have hsize := congrArg List.length hsplit
  rw [Vector.length_toList, List.length_append] at hsize
  induction s generalizing first rest fingerprint with
  | nil =>
      have hall : first.length = 64 := hlength
      rw [fingerprintFrom, if_neg (not_not.mpr hall)]
      cases rest with
      | nil =>
          simp only [List.length_nil] at hsize
          omega
      | cons old rest =>
          refine ⟨rfl, rest, ?_⟩
          rw [WString.withoutSeparators, List.filter_nil, List.map_nil, List.append_nil]
          exact toList_set hsplit 0
  | cons c tail ih =>
      rw [fingerprintFrom]
      by_cases hseparator : c = 0x3a ∨ c = 0x2d
      · rw [if_pos hseparator]
        rw [withoutSeparators_separator hseparator] at hdigits hlength ⊢
        exact ih first hsplit hdigits hlength hsize
      · rw [withoutSeparators_other hseparator] at hdigits hlength ⊢
        rw [List.length_cons] at hlength
        obtain ⟨hvalue, hlower, -⟩ := hexValue_of_hexDigit c (hdigits c List.mem_cons_self)
        rw [if_neg hseparator, if_neg (by rintro (hneg | hfull); exacts [hvalue hneg, by omega]),
          hlower]
        cases rest with
        | nil =>
            simp only [List.length_nil] at hsize
            omega
        | cons old rest =>
            have hnext : (fingerprint.setIfInBounds first.length (WString.lower c)).toList =
                (first ++ [WString.lower c]) ++ rest := by
              rw [toList_set hsplit, List.append_assoc]
              rfl
            have hrest := ih _ hnext (fun c' hc' => hdigits c' (List.mem_cons_of_mem c hc'))
              (by rw [List.length_append, List.length_singleton]; omega)
              (by rw [List.length_append, List.length_singleton]; simp only [List.length_cons] at hsize; omega)
            rw [List.length_append, List.length_singleton] at hrest
            obtain ⟨hstatus, behind, hbytes⟩ := hrest
            exact ⟨hstatus, behind, by simpa using hbytes⟩

/-- Anything else is refused. -/
theorem fingerprintFrom_error {s : List UInt16} {outputIndex : Nat}
    (fingerprint : Vector UInt8 65) (hindex : outputIndex ≤ 64)
    (h : ¬ ((∀ c ∈ WString.withoutSeparators s, WString.HexDigit c) ∧
      outputIndex + (WString.withoutSeparators s).length = 64)) :
    EfiError (fingerprintFrom s outputIndex fingerprint).1 := by
  induction s generalizing outputIndex fingerprint with
  | nil =>
      have hother : outputIndex ≠ 64 := fun hlength => h ⟨by simp [WString.withoutSeparators], hlength⟩
      rw [fingerprintFrom, if_pos hother]
      exact efiError_invalidParameter
  | cons c tail ih =>
      rw [fingerprintFrom]
      by_cases hseparator : c = 0x3a ∨ c = 0x2d
      · rw [if_pos hseparator]
        rw [withoutSeparators_separator hseparator] at h
        exact ih fingerprint hindex h
      · rw [if_neg hseparator]
        split
        · exact efiError_invalidParameter
        · next hvalid =>
            apply ih _ (by omega)
            intro hboth
            obtain ⟨hdigits, hlength⟩ := hboth
            apply h
            rw [withoutSeparators_other hseparator]
            refine ⟨?_, by rw [List.length_cons]; omega⟩
            intro c' hc'
            rcases List.mem_cons.mp hc' with rfl | htail
            · by_contra hother
              exact hvalid (.inl (hexValue_of_not_hexDigit hother))
            · exact hdigits c' htail

/-- **`ParseFingerprint` accepts exactly** 64 hex digits with separators. -/
theorem parseFingerprint_spec (s : WString) (fingerprint : Vector UInt8 65) :
    (s.Fingerprint → (parseFingerprint s fingerprint).1 = efiSuccess ∧
        text (parseFingerprint s fingerprint).2 =
          (WString.withoutSeparators s.text).map WString.lower) ∧
      (¬ s.Fingerprint → EfiError (parseFingerprint s fingerprint).1) := by
  constructor
  · intro hboth
    obtain ⟨hdigits, hlength⟩ := hboth
    have hstart : fingerprint.toList = [] ++ fingerprint.toList := rfl
    obtain ⟨hstatus, behind, hbytes⟩ :=
      fingerprintFrom_ok [] hstart hdigits ((Nat.zero_add _).trans hlength)
    refine ⟨hstatus, text_of_toList hbytes ?_⟩
    intro hmem
    obtain ⟨c, hc, hzero⟩ := List.mem_map.mp hmem
    exact (hexValue_of_hexDigit c (hdigits c hc)).2.2 hzero
  · intro hnot
    apply fingerprintFrom_error _ (Nat.zero_le 64)
    intro hboth
    obtain ⟨hdigits, hlength⟩ := hboth
    exact hnot ⟨hdigits, by omega⟩

end WolfSshUefi
