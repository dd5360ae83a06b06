import WolfSshUefi.Efi
import WolfSshUefi.Library.Terminated

/-!
# The host key callback

wolfSSH calls `WolfSshHostKeyCallback` once in every key exchange.  The first
key that it digests is decided on, by the pinned fingerprint, by the option to
accept any key or by the user, and the decision is kept for all later calls,
whatever their keys.

SHA-256 is a parameter: a function from the bytes of a key to its digest.  What
the user types during a call is the list of the results of `ReadKeyStroke`; a
call that waits for more does not return.
-/

namespace WolfSshUefi

/-- `WC_SHA256_DIGEST_SIZE` bytes. -/
abbrev Digest := Vector UInt8 32

/-- The bytes of a NUL-terminated string, without the NUL. -/
structure CString where
  bytes : List UInt8
  nul_free : 0 ∉ bytes

/-- `AsciiStrCmp`, where the end of a string counts as its NUL. -/
def asciiStrCmp : List UInt8 → List UInt8 → Int
  | [], [] => 0
  | a :: _, [] => a.toNat
  | [], b :: _ => -b.toNat
  | a :: as, b :: bs => if a = b then asciiStrCmp as bs else (a.toNat : Int) - b.toNat

/-- The digits that `Hex` is made of. -/
def hexDigits : List UInt8 :=
  [0x30, 0x31, 0x32, 0x33, 0x34, 0x35, 0x36, 0x37, 0x38, 0x39, 0x61, 0x62, 0x63, 0x64, 0x65, 0x66]

def hexDigit (nibble : UInt8) : UInt8 := hexDigits.getD nibble.toNat 0

/-- The two digits of every byte of the digest, the high one first. -/
def hexText (digest : Digest) : List UInt8 :=
  digest.toList.flatMap fun (byte : UInt8) => [hexDigit (byte >>> 4), hexDigit (byte &&& 0x0f)]

/-- The fields of `WOLFSSH_UEFI_OPTIONS` that decide about host keys. -/
structure HostKeyOptions where
  fingerprint : CString
  haveFingerprint : Bool
  acceptAnyHostKey : Bool

/-- `WOLFSSH_UEFI_AUTH`, with `Options` NULL or pointing at the options. -/
structure Auth where
  options : Option HostKeyOptions
  hostKeyChecked : Bool
  hostKeyAccepted : Bool

/-- What the callback prints. -/
inductive HostKeyLine
  | fingerprint (hex : List UInt8)  -- "Server host-key SHA-256: %a\r\n"
  | mismatch                        -- "Host-key fingerprint mismatch; connection rejected.\r\n"
  | warning                         -- "Warning: accepting an unpinned host key for this connection.\r\n"
  | question                        -- "Accept this host key for this boot? [y/N] "
  | yes                             -- "y\r\n"
  | no                              -- "n\r\n"
  | newline                         -- "\r\n"
  deriving DecidableEq, Repr

/-- One call of the callback: the key, or NULL; the results of `wc_InitSha256`,
`wc_Sha256Update` and `wc_Sha256Final`; and what `ReadKeyStroke` gives. -/
structure Invocation where
  publicKey : Option (List UInt8)
  initSha256 : Int
  sha256Update : Int
  sha256Final : Int
  keys : List KeyRead

structure HostKeyOutcome where
  result : Int
  lines : List HostKeyLine

/-- `ReadConfirmation` -/
def readConfirmation : List KeyRead → Option (Bool × List HostKeyLine)
  | [] => none
  | read :: rest =>
      if read.status = efiNotReady then readConfirmation rest
      else if EfiError read.status then some (false, [.newline])
      else if read.key.unicodeChar = 0x79 ∨ read.key.unicodeChar = 0x59 then some (true, [.yes])
      else if read.key.unicodeChar = 0x0d ∨ read.key.unicodeChar = 0x6e ∨
          read.key.unicodeChar = 0x4e ∨ read.key.unicodeChar = 0x1b then some (false, [.no])
      else readConfirmation rest

/-- The result of hashing, 0 for a success. -/
def Invocation.shaResult (inv : Invocation) : Int :=
  if inv.initSha256 ≠ 0 then inv.initSha256
  else if inv.sha256Update ≠ 0 then inv.sha256Update
  else inv.sha256Final

/-- How `WolfSshHostKeyCallback` decides about a digest, and what it prints meanwhile. -/
def decideHostKey (options : HostKeyOptions) (hex : List UInt8) (keys : List KeyRead) :
    Option (Bool × List HostKeyLine) :=
  if options.haveFingerprint then
    let accepted := asciiStrCmp hex options.fingerprint.bytes = 0
    some (decide accepted, if accepted then [] else [.mismatch])
  else if options.acceptAnyHostKey then some (true, [.warning])
  else do
    let (accepted, lines) ← readConfirmation keys
    some (accepted, .question :: lines)

section Callback

variable (sha256 : List UInt8 → Digest)

/-- `WolfSshHostKeyCallback`; `none` if it does not return. -/
def hostKeyCallback (auth : Auth) (inv : Invocation) : Option (HostKeyOutcome × Auth) := do
  match auth.options, inv.publicKey with
  | some options, some key =>
      if key.length = 0 then some (⟨-1, []⟩, auth)
      else if auth.hostKeyChecked then
        some (⟨if auth.hostKeyAccepted then 0 else -1, []⟩, auth)
      else if inv.shaResult ≠ 0 then some (⟨-1, []⟩, auth)
      else
        let hex := hexText (sha256 key)
        let (accepted, lines) ← decideHostKey options hex inv.keys
        some (⟨if accepted then 0 else -1, .fingerprint hex :: lines⟩,
          { auth with hostKeyChecked := true, hostKeyAccepted := accepted })
  | _, _ => some (⟨-1, []⟩, auth)

/-- Calls one after the other, with what each of them returned. -/
def hostKeyRun (auth : Auth) : List Invocation → Option (List (Invocation × HostKeyOutcome))
  | [] => some []
  | inv :: rest => do
      let (outcome, auth) ← hostKeyCallback sha256 auth inv
      let steps ← hostKeyRun auth rest
      some ((inv, outcome) :: steps)

end Callback

/-- The context as `UefiMain` sets it up. -/
def Auth.initial (options : HostKeyOptions) : Auth where
  options := some options
  hostKeyChecked := false
  hostKeyAccepted := false

/-! ### Strings -/

/-- `AsciiStrCmp` gives the first difference. -/
theorem asciiStrCmp_eq_difference (a b : List UInt8) :
    asciiStrCmp a b = Terminated.difference a b := by
  induction a generalizing b with
  | nil =>
      cases b with
      | nil => rfl
      | cons d ds => rfl
  | cons c cs ih =>
      cases b with
      | nil => rfl
      | cons d ds =>
          unfold asciiStrCmp Terminated.difference
          rw [ih ds]

/-- It gives zero for equal texts only. -/
theorem asciiStrCmp_eq_zero_iff {a b : List UInt8} (ha : 0 ∉ a) (hb : 0 ∉ b) :
    asciiStrCmp a b = 0 ↔ a = b := by
  have hfree {l : List UInt8} (h : 0 ∉ l) : Terminated.NulFree l := by
    intro c hc hzero
    exact h (hzero ▸ hc)
  rw [asciiStrCmp_eq_difference]
  exact Terminated.difference_eq_zero_iff (hfree ha) (hfree hb)

/-- Different values have different digits. -/
theorem hexDigit_injective {a b : UInt8} (ha : a.toNat < 16) (hb : b.toNat < 16)
    (h : hexDigit a = hexDigit b) : a = b := by
  have hall : ∀ m n : Fin 16, hexDigits.getD m 0 = hexDigits.getD n 0 → m = n := by decide
  have hsame := hall ⟨a.toNat, ha⟩ ⟨b.toNat, hb⟩ h
  exact UInt8.toNat_inj.mp (Fin.mk.inj hsame)

theorem hexDigit_ne_zero {a : UInt8} (ha : a.toNat < 16) : hexDigit a ≠ 0 := by
  have hall : ∀ m : Fin 16, hexDigits.getD m 0 ≠ 0 := by decide
  exact hall ⟨a.toNat, ha⟩

/-- The two halves of a byte. -/
theorem nibbles (byte : UInt8) :
    (byte >>> 4).toNat = byte.toNat / 16 ∧ (byte &&& 0x0f).toNat = byte.toNat % 16 := by
  constructor
  · rw [UInt8.toNat_shiftRight]
    exact Nat.shiftRight_eq_div_pow byte.toNat 4
  · rw [UInt8.toNat_and]
    exact Nat.and_two_pow_sub_one_eq_mod byte.toNat 4

/-- Each of them has four bits. -/
theorem nibbles_lt (byte : UInt8) : (byte >>> 4).toNat < 16 ∧ (byte &&& 0x0f).toNat < 16 := by
  obtain ⟨hhigh, hlow⟩ := nibbles byte
  have hbyte := byte.toNat_lt
  omega

/-- Different digests have different texts. -/
theorem hexText_injective {d d' : Digest} (h : hexText d = hexText d') : d = d' := by
  have hbytes (l l' : List UInt8)
      (hl : (l.flatMap fun (byte : UInt8) => [hexDigit (byte >>> 4), hexDigit (byte &&& 0x0f)]) =
        l'.flatMap fun (byte : UInt8) => [hexDigit (byte >>> 4), hexDigit (byte &&& 0x0f)]) :
      l = l' := by
    induction l generalizing l' with
    | nil =>
        cases l' with
        | nil => rfl
        | cons b bs => simp at hl
    | cons a as ih =>
        cases l' with
        | nil => simp at hl
        | cons b bs =>
            simp only [List.flatMap_cons, List.cons_append, List.nil_append, List.cons.injEq] at hl
            obtain ⟨hhigh, hlow, hrest⟩ := hl
            have hhigh' := hexDigit_injective (nibbles_lt a).1 (nibbles_lt b).1 hhigh
            have hlow' := hexDigit_injective (nibbles_lt a).2 (nibbles_lt b).2 hlow
            have hdiv := congrArg UInt8.toNat hhigh'
            have hmod := congrArg UInt8.toNat hlow'
            rw [(nibbles a).1, (nibbles b).1] at hdiv
            rw [(nibbles a).2, (nibbles b).2] at hmod
            have hab : a = b := UInt8.toNat_inj.mp (by omega)
            rw [hab, ih bs hrest]
  exact Vector.toList_inj.mp (hbytes d.toList d'.toList h)

/-- A digest in digits has no NUL. -/
theorem hexText_nul_free (digest : Digest) : 0 ∉ hexText digest := by
  intro hzero
  obtain ⟨byte, -, hbyte⟩ := List.mem_flatMap.mp hzero
  rcases List.mem_cons.mp hbyte with hhigh | hlow
  · exact hexDigit_ne_zero (nibbles_lt byte).1 hhigh.symm
  · exact hexDigit_ne_zero (nibbles_lt byte).2 (List.mem_singleton.mp hlow).symm

/-! ### The user -/

/-- `ReadConfirmation` goes on reading. -/
def KeyRead.Ignored (read : KeyRead) : Prop :=
  read.status = efiNotReady ∨ (¬ EfiError read.status ∧
    read.key.unicodeChar ∉ ([0x79, 0x59, 0x0d, 0x6e, 0x4e, 0x1b] : List UInt16))

instance (read : KeyRead) : Decidable read.Ignored := by
  unfold KeyRead.Ignored; infer_instance

/-- The key `y` or `Y`. -/
def KeyRead.SaysYes (read : KeyRead) : Prop :=
  ¬ EfiError read.status ∧ read.key.unicodeChar ∈ ([0x79, 0x59] : List UInt16)

/-- The first key that counts is `y` or `Y`. -/
def AnswersYes (keys : List KeyRead) : Prop :=
  ∃ read rest, keys.dropWhile (fun read => decide read.Ignored) = read :: rest ∧ read.SaysYes

/-- Other keys are passed over. -/
theorem readConfirmation_ignored {read : KeyRead} (h : read.Ignored) (rest : List KeyRead) :
    readConfirmation (read :: rest) = readConfirmation rest := by
  rw [readConfirmation]
  rcases h with hready | ⟨herror, hother⟩
  · exact if_pos hready
  · simp only [List.mem_cons, List.not_mem_nil, or_false, not_or] at hother
    simp only [hother, herror, or_self, if_false, ite_self]

/-- Any other result is an answer, and only `y` says yes. -/
theorem readConfirmation_answer {read : KeyRead} (h : ¬ read.Ignored) (rest : List KeyRead) :
    ∃ accepted lines, readConfirmation (read :: rest) = some (accepted, lines) ∧
      (accepted = true ↔ read.SaysYes) := by
  simp only [KeyRead.Ignored, not_or, not_and, not_not] at h
  obtain ⟨hready, hanswer⟩ := h
  rw [readConfirmation, if_neg hready]
  by_cases herror : EfiError read.status
  · rw [if_pos herror]
    exact ⟨_, _, rfl, by simp [KeyRead.SaysYes, herror]⟩
  · rw [if_neg herror]
    by_cases hyes : read.key.unicodeChar = 0x79 ∨ read.key.unicodeChar = 0x59
    · rw [if_pos hyes]
      exact ⟨_, _, rfl, by simp [KeyRead.SaysYes, herror, hyes]⟩
    · have hmem := hanswer herror
      simp only [List.mem_cons, List.not_mem_nil, or_false, ← or_assoc] at hmem
      rw [if_neg hyes, if_pos (by simpa [hyes, ← or_assoc] using hmem)]
      refine ⟨_, _, rfl, ?_⟩
      simp only [KeyRead.SaysYes, List.mem_cons, List.not_mem_nil, or_false, hyes, and_false,
        Bool.false_eq_true]

/-- `ReadConfirmation` returns what the user answers. -/
theorem readConfirmation_answers {keys : List KeyRead} {accepted : Bool}
    {lines : List HostKeyLine} (h : readConfirmation keys = some (accepted, lines)) :
    accepted = true ↔ AnswersYes keys := by
  induction keys with
  | nil => cases h
  | cons read rest ih =>
      unfold AnswersYes
      by_cases hignored : read.Ignored
      · rw [List.dropWhile_cons_of_pos (by simpa using hignored)]
        rw [readConfirmation_ignored hignored] at h
        exact ih h
      · rw [List.dropWhile_cons_of_neg (by simpa using hignored)]
        obtain ⟨accepted', lines', hread, hsaid⟩ := readConfirmation_answer hignored rest
        rw [hread] at h
        obtain ⟨rfl, rfl⟩ := Prod.mk.inj (Option.some.inj h)
        rw [hsaid]
        constructor
        · intro hyes
          exact ⟨read, rest, rfl, hyes⟩
        · intro hall
          obtain ⟨read', rest', hcons, hyes⟩ := hall
          obtain ⟨rfl, -⟩ := List.cons.inj hcons
          exact hyes

/-! ### Calls -/

/-- The bytes of the key, none where it is NULL. -/
def Invocation.key (inv : Invocation) : List UInt8 := inv.publicKey.getD []

/-- The call has a key, and SHA-256 works. -/
def Invocation.Digests (inv : Invocation) : Prop := inv.key ≠ [] ∧ inv.shaResult = 0

instance (inv : Invocation) : Decidable inv.Digests := by
  unfold Invocation.Digests; infer_instance

section Calls

variable (sha256 : List UInt8 → Digest)

/-- What the call accepts when nothing has been decided. -/
def HostKeyOptions.Approves (options : HostKeyOptions) (inv : Invocation) : Prop :=
  if options.haveFingerprint then hexText (sha256 inv.key) = options.fingerprint.bytes
  else options.acceptAnyHostKey = true ∨ AnswersYes inv.keys

variable {options : HostKeyOptions} {auth auth' : Auth} {inv : Invocation}
  {outcome : HostKeyOutcome}

/-- Without a key nothing happens. -/
theorem hostKeyCallback_no_key (hoptions : auth.options = some options) (hkey : inv.key = []) :
    hostKeyCallback sha256 auth inv = some (⟨-1, []⟩, auth) := by
  unfold hostKeyCallback
  rw [hoptions]
  unfold Invocation.key at hkey
  cases hpublic : inv.publicKey with
  | none => rfl
  | some key =>
      rw [hpublic] at hkey
      have hempty : key = [] := hkey
      subst hempty
      rfl

/-- Once decided, the decision is repeated. -/
theorem hostKeyCallback_decided (hoptions : auth.options = some options)
    (hchecked : auth.hostKeyChecked = true) (hkey : inv.key ≠ []) :
    hostKeyCallback sha256 auth inv =
      some (⟨if auth.hostKeyAccepted then 0 else -1, []⟩, auth) := by
  unfold hostKeyCallback
  rw [hoptions]
  unfold Invocation.key at hkey
  cases hpublic : inv.publicKey with
  | none => simp [hpublic] at hkey
  | some key =>
      have hlength : key.length ≠ 0 := by simpa [hpublic] using hkey
      simp only [hlength, hchecked, if_true, if_false]

/-- Without a digest nothing is decided. -/
theorem hostKeyCallback_no_digest (hoptions : auth.options = some options)
    (hchecked : auth.hostKeyChecked = false) (hdigest : ¬ inv.Digests) :
    hostKeyCallback sha256 auth inv = some (⟨-1, []⟩, auth) := by
  by_cases hkey : inv.key = []
  · exact hostKeyCallback_no_key sha256 hoptions hkey
  · have hsha : inv.shaResult ≠ 0 := fun hzero => hdigest ⟨hkey, hzero⟩
    unfold hostKeyCallback
    rw [hoptions]
    unfold Invocation.key at hkey
    cases hpublic : inv.publicKey with
    | none => simp [hpublic] at hkey
    | some key =>
        have hlength : key.length ≠ 0 := by simpa [hpublic] using hkey
        simp only [hlength, hchecked, hsha, if_false, ne_eq, not_false_eq_true, if_true,
          Bool.false_eq_true]

/-- Only the digest itself is printed as a fingerprint. -/
theorem readConfirmation_lines {keys : List KeyRead} {accepted : Bool} {lines : List HostKeyLine}
    (h : readConfirmation keys = some (accepted, lines)) (hex : List UInt8) :
    .fingerprint hex ∉ lines := by
  induction keys with
  | nil => cases h
  | cons read rest ih =>
      unfold readConfirmation at h
      repeat' split at h
      all_goals first
        | exact ih h
        | (obtain ⟨-, rfl⟩ := Prod.mk.inj (Option.some.inj h); simp)

/-- The decision does not show the fingerprint again. -/
theorem decideHostKey_lines {accepted : Bool} {lines : List HostKeyLine} {text : List UInt8}
    {keys : List KeyRead} (h : decideHostKey options text keys = some (accepted, lines))
    (hex : List UInt8) : .fingerprint hex ∉ lines := by
  unfold decideHostKey at h
  split at h
  · obtain ⟨-, rfl⟩ := Prod.mk.inj (Option.some.inj h)
    split <;> simp
  split at h
  · obtain ⟨-, rfl⟩ := Prod.mk.inj (Option.some.inj h)
    simp
  · obtain ⟨⟨accepted', answer⟩, hread, hrest⟩ := Option.bind_eq_some_iff.mp h
    obtain ⟨-, rfl⟩ := Prod.mk.inj (Option.some.inj hrest)
    have hanswer := readConfirmation_lines hread hex
    simpa using hanswer

/-- A decision is what the options and the user approve. -/
theorem decideHostKey_spec {accepted : Bool} {lines : List HostKeyLine}
    (h : decideHostKey options (hexText (sha256 inv.key)) inv.keys = some (accepted, lines)) :
    (accepted = true ↔ options.Approves sha256 inv) ∧
      (options.haveFingerprint = false → options.acceptAnyHostKey = false →
        ∃ answer, lines = .question :: answer) := by
  unfold decideHostKey at h
  unfold HostKeyOptions.Approves
  cases hhave : options.haveFingerprint with
  | true =>
      rw [hhave, if_pos rfl] at h
      obtain ⟨rfl, -⟩ := Prod.mk.inj (Option.some.inj h)
      refine ⟨?_, fun hnone => by cases hnone⟩
      rw [decide_eq_true_iff, if_pos rfl]
      exact asciiStrCmp_eq_zero_iff (hexText_nul_free _) options.fingerprint.nul_free
  | false =>
      rw [hhave, if_neg Bool.false_ne_true] at h
      rw [if_neg Bool.false_ne_true]
      cases hany : options.acceptAnyHostKey with
      | true =>
          rw [hany, if_pos rfl] at h
          obtain ⟨rfl, -⟩ := Prod.mk.inj (Option.some.inj h)
          exact ⟨by simp, fun _ hnone => by cases hnone⟩
      | false =>
          rw [hany, if_neg Bool.false_ne_true] at h
          obtain ⟨⟨accepted', answer⟩, hread, hrest⟩ := Option.bind_eq_some_iff.mp h
          obtain ⟨rfl, rfl⟩ := Prod.mk.inj (Option.some.inj hrest)
          refine ⟨?_, fun _ _ => ⟨answer, rfl⟩⟩
          rw [readConfirmation_answers hread]
          simp

/-- The first digest is decided on. -/
theorem hostKeyCallback_decides (hoptions : auth.options = some options)
    (hchecked : auth.hostKeyChecked = false) (hdigest : inv.Digests)
    (h : hostKeyCallback sha256 auth inv = some (outcome, auth')) :
    ∃ accepted lines,
      decideHostKey options (hexText (sha256 inv.key)) inv.keys = some (accepted, lines) ∧
      outcome = ⟨if accepted then 0 else -1, .fingerprint (hexText (sha256 inv.key)) :: lines⟩ ∧
      auth' = { auth with hostKeyChecked := true, hostKeyAccepted := accepted } := by
  obtain ⟨hkey, hsha⟩ := hdigest
  unfold hostKeyCallback at h
  rw [hoptions] at h
  unfold Invocation.key at hkey ⊢
  cases hpublic : inv.publicKey with
  | none => simp [hpublic] at hkey
  | some key =>
      have hlength : key.length ≠ 0 := by simpa [hpublic] using hkey
      simp only [hpublic, hlength, hchecked, hsha, if_false, ne_eq, not_true, Bool.false_eq_true] at h
      obtain ⟨⟨accepted, lines⟩, hdecide, hrest⟩ := Option.bind_eq_some_iff.mp h
      obtain ⟨rfl, rfl⟩ := Prod.mk.inj (Option.some.inj hrest)
      exact ⟨accepted, lines, hdecide, rfl, by rw [hoptions]⟩

end Calls

end WolfSshUefi
