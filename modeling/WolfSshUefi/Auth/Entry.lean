import WolfSshUefi.Auth.Password

/-!
# Entering a password

`ReadPassword` is a line editor on a zeroed buffer: what it stores is what an
editor on lists makes of the keys.  The callback asks once, and gives what was
entered from then on, or fails for good if nothing was (`password_entry`).
-/

namespace WolfSshUefi

open TextBuffer

/-! ### The editor -/

/-- One key of a line: a printable character is appended while there is room, and
backspace takes the last one away. -/
def editLine (line : List UInt8) (key : UInt16) : List UInt8 :=
  if key = 0x08 then line.dropLast
  else if 0x20 ≤ key ∧ key ≤ 0x7e ∧ line.length < 255 then line ++ [key.toUInt8]
  else line

/-- The result of `ReadKeyStroke` ends a prompt: it is an error, or a carriage return. -/
def KeyRead.Ends (read : KeyRead) : Prop :=
  read.status ≠ efiNotReady ∧ (EfiError read.status ∨ read.key.unicodeChar = 0x0d)

instance (read : KeyRead) : Decidable read.Ends := by
  unfold KeyRead.Ends; infer_instance

/-- A result in a line; no key, no change. -/
def editRead (line : List UInt8) (read : KeyRead) : List UInt8 :=
  if read.status = efiNotReady then line else editLine line read.key.unicodeChar

/-- What ends a prompt. -/
def promptEnd (reads : List KeyRead) : Option KeyRead := reads.find? fun read => read.Ends

/-- The line entered before the end. -/
def promptLine (reads : List KeyRead) : List UInt8 :=
  (reads.takeWhile fun read => ¬ read.Ends).foldl editRead []

/-- A line of the editor: it fits in the buffer with its NUL. -/
def Line (line : List UInt8) : Prop := line.length ≤ 255 ∧ 0 ∉ line

/-- A key keeps a line a line. -/
theorem Line.editRead {line : List UInt8} (h : Line line) (read : KeyRead) :
    Line (editRead line read) := by
  unfold WolfSshUefi.editRead editLine
  split
  · exact h
  split
  · refine ⟨?_, fun hmem => h.2 ((List.dropLast_sublist line).subset hmem)⟩
    rw [List.length_dropLast]
    exact Nat.le_trans (Nat.sub_le _ _) h.1
  split
  · next hkey =>
      obtain ⟨hlow, hhigh, hroom⟩ := hkey
      have hlow' : 0x20 ≤ read.key.unicodeChar.toNat := hlow
      have hhigh' : read.key.unicodeChar.toNat ≤ 0x7e := hhigh
      refine ⟨by rw [List.length_append, List.length_singleton]; omega, fun hmem => ?_⟩
      obtain hold | hlast := List.mem_append.mp hmem
      · exact h.2 hold
      · have hzero := congrArg UInt8.toNat (List.mem_singleton.mp hlast)
        rw [UInt16.toNat_toUInt8] at hzero
        change 0 = read.key.unicodeChar.toNat % 256 at hzero
        omega
  · exact h

theorem Line.foldl {line : List UInt8} (h : Line line) (reads : List KeyRead) :
    Line (reads.foldl WolfSshUefi.editRead line) := by
  induction reads generalizing line with
  | nil => exact h
  | cons read rest ih => exact ih (h.editRead read)

/-- What a prompt leaves is a line. -/
theorem line_promptLine (reads : List KeyRead) : Line (promptLine reads) :=
  Line.foldl ⟨Nat.zero_le _, List.not_mem_nil⟩ _

/-! ### `ReadPassword` edits its buffer -/

/-- A result that does not end the prompt is edited in the buffer. -/
theorem readPasswordFrom_edits {line : List UInt8} {options : Options}
    (hpadded : Padded options.password line) (hline : Line line) {read : KeyRead}
    (hread : ¬ read.Ends) (rest : List KeyRead) :
    ∃ password : Vector UInt8 256, Padded password (editRead line read) ∧
      readPasswordFrom (read :: rest) line.length options =
        readPasswordFrom rest (editRead line read).length
          { options with password := password } := by
  have hroom : line.length < 256 := Nat.lt_succ_of_le hline.1
  rw [readPasswordFrom]
  unfold editRead
  by_cases hready : read.status = efiNotReady
  · rw [if_pos hready, if_pos hready]
    exact ⟨options.password, hpadded, rfl⟩
  simp only [KeyRead.Ends, not_and, not_or] at hread
  obtain ⟨herror, hreturn⟩ := hread hready
  rw [if_neg hready, if_neg hready, if_neg herror, if_neg hreturn]
  unfold editLine
  by_cases hback : read.key.unicodeChar = 0x08
  · rw [if_pos hback]
    by_cases hempty : line = []
    · subst hempty
      have hother : ¬ (read.key.unicodeChar ≥ 0x20 ∧ read.key.unicodeChar ≤ 0x7e ∧
          ([] : List UInt8).length + 1 < 256) := by
        rw [hback]
        decide
      have hnothing : ¬ (read.key.unicodeChar = 0x08 ∧ ([] : List UInt8).length ≠ 0) :=
        fun h => h.2 rfl
      rw [if_neg hnothing, if_neg hother]
      exact ⟨options.password, hpadded, rfl⟩
    · have hsome : line.length ≠ 0 := fun h => hempty (List.eq_nil_of_length_eq_zero h)
      rw [if_pos ⟨hback, hsome⟩, List.length_dropLast]
      exact ⟨_, hpadded.pop (Nat.le_of_lt hroom) hempty, rfl⟩
  · have hother : ¬ (read.key.unicodeChar = 0x08 ∧ line.length ≠ 0) := fun h => hback h.1
    have hsame : read.key.unicodeChar ≥ 0x20 ∧ read.key.unicodeChar ≤ 0x7e ∧
        line.length + 1 < 256 ↔
        0x20 ≤ read.key.unicodeChar ∧ read.key.unicodeChar ≤ 0x7e ∧ line.length < 255 :=
      and_congr_right fun _ => and_congr_right fun _ => Nat.succ_lt_succ_iff
    rw [if_neg hback, if_neg hother]
    by_cases hkey : 0x20 ≤ read.key.unicodeChar ∧ read.key.unicodeChar ≤ 0x7e ∧ line.length < 255
    · rw [if_pos hkey, if_pos (hsame.mpr hkey), List.length_append]
      exact ⟨_, hpadded.push hroom _, rfl⟩
    · rw [if_neg hkey, if_neg (mt hsame.mp hkey)]
      exact ⟨options.password, hpadded, rfl⟩

/-- **`ReadPassword` is the editor**: it returns when the prompt has ended, with the
error or with the line in a zeroed buffer. -/
theorem readPasswordFrom_spec (reads : List KeyRead) {line : List UInt8} {options : Options}
    (hpadded : Padded options.password line) (hline : Line line) :
    (promptEnd reads = none → readPasswordFrom reads line.length options = none) ∧
      ∀ last, promptEnd reads = some last → ∃ password : Vector UInt8 256,
        (EfiError last.status → readPasswordFrom reads line.length options =
          some (last.status, { options with password := password })) ∧
        (¬ EfiError last.status → readPasswordFrom reads line.length options =
            some (efiSuccess, { options with password := password, havePassword := true }) ∧
          Padded password ((reads.takeWhile fun read => ¬ read.Ends).foldl editRead line)) := by
  induction reads generalizing line options with
  | nil => exact ⟨fun _ => rfl, fun last hlast => by cases hlast⟩
  | cons read rest ih =>
      by_cases hread : read.Ends
      · have hend : promptEnd (read :: rest) = some read :=
          List.find?_cons_of_pos (decide_eq_true hread)
        have hbefore : (read :: rest).takeWhile (fun read => ¬ read.Ends) = [] :=
          List.takeWhile_cons_of_neg (by simpa using hread)
        rw [hend, hbefore, readPasswordFrom, if_neg hread.1]
        refine ⟨fun hnone => (nomatch hnone), fun last hlast => ?_⟩
        obtain rfl := Option.some.inj hlast
        by_cases herror : EfiError read.status
        · exact ⟨options.password, fun _ => if_pos herror, fun hok => absurd herror hok⟩
        · refine ⟨options.password.setIfInBounds line.length 0, fun h => absurd h herror,
            fun _ => ⟨?_, ?_⟩⟩
          · exact (if_neg herror).trans (if_pos (hread.2.resolve_left herror))
          · exact hpadded.terminate (Nat.lt_succ_of_le hline.1)
      · have hend : promptEnd (read :: rest) = promptEnd rest :=
          List.find?_cons_of_neg (by simpa using hread)
        have hbefore : (read :: rest).takeWhile (fun read => ¬ read.Ends) =
            read :: rest.takeWhile fun read => ¬ read.Ends :=
          List.takeWhile_cons_of_pos (by simpa using hread)
        obtain ⟨password, hedited, hnext⟩ := readPasswordFrom_edits hpadded hline hread rest
        rw [hend, hbefore, hnext]
        exact @ih _ { options with password := password } hedited (hline.editRead read)

/-- What `ReadPassword` prints. -/
def promptLines (options : Options) : List PasswordLine :=
  [.prompt (text options.username), .newline]

/-- `ReadPassword` clears the buffer, prints its prompt and edits. -/
theorem readPassword_spec (keys : List KeyRead) (options : Options) :
    (promptEnd keys = none → readPassword keys options = none) ∧
      ∀ last, promptEnd keys = some last → ∃ password : Vector UInt8 256,
        (EfiError last.status → readPassword keys options =
          some (last.status, { options with password := password }, promptLines options)) ∧
        (¬ EfiError last.status → readPassword keys options = some (efiSuccess,
              { options with password := password, havePassword := true }, promptLines options) ∧
          Padded password (promptLine keys)) := by
  have hzero : Padded { options with password := Vector.replicate 256 0 }.password [] :=
    padded_nil 256
  have hempty : Line [] := ⟨Nat.zero_le _, List.not_mem_nil⟩
  obtain ⟨hopen, hended⟩ := readPasswordFrom_spec keys hzero hempty
  constructor
  · intro hnone
    exact congrArg (Option.bind · _) (hopen hnone)
  · intro last hlast
    obtain ⟨password, herror, hreturn⟩ := hended last hlast
    refine ⟨password, fun h => congrArg (Option.bind · _) (herror h), fun h => ?_⟩
    obtain ⟨hresult, hpadded⟩ := hreturn h
    exact ⟨congrArg (Option.bind · _) hresult, hpadded⟩

/-! ### The callback -/

/-- The callback is called for a password. -/
def UserAuthRequest.ForPassword (request : UserAuthRequest) : Prop :=
  request.hasData ∧ request.isPassword

instance (request : UserAuthRequest) : Decidable request.ForPassword := by
  unfold UserAuthRequest.ForPassword; infer_instance

/-- Calls one after the other, with what each of them returned. -/
def userAuthRun (auth : PasswordAuth) :
    List UserAuthRequest → Option (List (UserAuthRequest × UserAuthOutcome) × PasswordAuth)
  | [] => some ([], auth)
  | request :: rest => do
      let (outcome, auth) ← userAuthCallback auth request
      let (calls, auth) ← userAuthRun auth rest
      some ((request, outcome) :: calls, auth)

def PasswordLine.isPrompt : PasswordLine → Bool
  | .prompt _ => true
  | .newline => false

/-- How often a call asks for the password. -/
def UserAuthOutcome.prompts (outcome : UserAuthOutcome) : Nat :=
  outcome.lines.countP PasswordLine.isPrompt

/-- The password given to all calls that ask for one, or to none. -/
def Gives (password : Option (List UInt8)) (calls : List (UserAuthRequest × UserAuthOutcome)) :
    Prop :=
  ∀ call ∈ calls, call.2.password = if call.1.ForPassword then password else none

/-- What a prompt leads to: the line of the editor for this call and the later ones,
with zeroes behind it in the buffer, or nothing for any of them. -/
def Entered (call : UserAuthRequest × UserAuthOutcome)
    (later : List (UserAuthRequest × UserAuthOutcome)) (auth : PasswordAuth) : Prop :=
  ∃ last, promptEnd call.1.keys = some last ∧
    (EfiError last.status → Gives none (call :: later)) ∧
    (¬ EfiError last.status → Gives (some (promptLine call.1.keys)) (call :: later) ∧
      ∃ options, auth.options = some options ∧
        Padded options.password (promptLine call.1.keys))

/-- Nobody will be asked any more. -/
def PasswordAuth.Settled (auth : PasswordAuth) : Prop :=
  ∀ options, auth.options = some options → options.havePassword ∨ auth.passwordPrompted

/-- The password in the options, if there is one. -/
def PasswordAuth.password (auth : PasswordAuth) : Option (List UInt8) :=
  auth.options.bind givePassword

variable {auth auth' : PasswordAuth} {request : UserAuthRequest} {outcome : UserAuthOutcome}

/-- **What a call does**: it gives what there is, or nothing, or asks. -/
theorem userAuthCallback_cases (h : userAuthCallback auth request = some (outcome, auth')) :
    (auth' = auth ∧ outcome.lines = [] ∧
      (auth.Settled ∨ ¬ request.ForPassword) ∧
      outcome.password = if request.ForPassword then auth.password else none) ∨
    (request.ForPassword ∧ ¬ auth.Settled ∧ ∃ last after,
      promptEnd request.keys = some last ∧ auth' = ⟨some after, true⟩ ∧ outcome.prompts = 1 ∧
      (EfiError last.status → after.havePassword = false ∧ outcome.password = none) ∧
      (¬ EfiError last.status → after.havePassword = true ∧
        Padded after.password (promptLine request.keys) ∧
        outcome.password = some (promptLine request.keys))) := by
  unfold userAuthCallback at h
  cases hoptions : auth.options with
  | none =>
      simp only [hoptions] at h
      obtain ⟨rfl, rfl⟩ := Prod.mk.inj (Option.some.inj h)
      refine .inl ⟨rfl, rfl, .inl fun options hsome => ?_, ?_⟩
      · rw [hoptions] at hsome
        cases hsome
      · rw [PasswordAuth.password, hoptions]
        exact (ite_self _).symm
  | some options =>
      simp only [hoptions] at h
      by_cases hfor : request.ForPassword
      · have hasked : ¬ (¬ request.hasData ∨ ¬ request.isPassword) := by
          simp [hfor.1, hfor.2]
        rw [if_neg hasked] at h
        by_cases hask : ¬ options.havePassword ∧ ¬ auth.passwordPrompted
        · right
          rw [if_pos hask] at h
          obtain ⟨hopen, hended⟩ := readPassword_spec request.keys options
          cases hlast : promptEnd request.keys with
          | none =>
              rw [hopen hlast] at h
              cases h
          | some last =>
              obtain ⟨password, herror, hreturn⟩ := hended last hlast
              have hunsettled : ¬ auth.Settled := fun hsettled =>
                Decidable.or_iff_not_not_and_not.mp (hsettled options hoptions) hask
              refine ⟨hfor, hunsettled, last, ?_⟩
              by_cases hstatus : EfiError last.status
              · rw [herror hstatus] at h
                obtain ⟨rfl, rfl⟩ := Prod.mk.inj (Option.some.inj h)
                have hnone : options.havePassword = false := by simpa using hask.1
                exact ⟨_, rfl, rfl, rfl, fun _ => ⟨hnone, if_pos hstatus⟩,
                  fun hok => absurd hstatus hok⟩
              · obtain ⟨hresult, hpadded⟩ := hreturn hstatus
                rw [hresult] at h
                obtain ⟨rfl, rfl⟩ := Prod.mk.inj (Option.some.inj h)
                refine ⟨_, rfl, rfl, rfl, fun hbad => absurd hbad hstatus,
                  fun _ => ⟨rfl, hpadded, ?_⟩⟩
                have hline := line_promptLine request.keys
                have htext := hpadded.text (Nat.lt_succ_of_le hline.1) hline.2
                exact congrArg some htext
        · left
          rw [if_neg hask] at h
          obtain ⟨rfl, rfl⟩ := Prod.mk.inj (Option.some.inj h)
          refine ⟨rfl, rfl, .inl fun options' hsome => ?_, ?_⟩
          · rw [hoptions] at hsome
            obtain rfl := Option.some.inj hsome
            exact Decidable.or_iff_not_not_and_not.mpr hask
          · rw [if_pos hfor, PasswordAuth.password, hoptions]
            rfl
      · left
        have hrefused : ¬ request.hasData ∨ ¬ request.isPassword :=
          Decidable.not_and_iff_not_or_not.mp hfor
        rw [if_pos hrefused] at h
        obtain ⟨rfl, rfl⟩ := Prod.mk.inj (Option.some.inj h)
        exact ⟨rfl, rfl, .inr hfor, (if_neg hfor).symm⟩

/-! ### Any number of calls -/

variable {requests : List UserAuthRequest} {calls : List (UserAuthRequest × UserAuthOutcome)}

/-- How often the calls ask for the password. -/
def promptsOf : List (UserAuthRequest × UserAuthOutcome) → Nat
  | [] => 0
  | call :: later => call.2.prompts + promptsOf later

/-- The first call, and the others. -/
theorem userAuthRun_cons {rest : List UserAuthRequest}
    (h : userAuthRun auth (request :: rest) = some (calls, auth')) :
    ∃ outcome between later, userAuthCallback auth request = some (outcome, between) ∧
      userAuthRun between rest = some (later, auth') ∧ calls = (request, outcome) :: later := by
  obtain ⟨⟨outcome, between⟩, hfirst, h⟩ := Option.bind_eq_some_iff.mp h
  obtain ⟨⟨later, final⟩, hrest, h⟩ := Option.bind_eq_some_iff.mp h
  obtain ⟨rfl, rfl⟩ := Prod.mk.inj (Option.some.inj h)
  exact ⟨outcome, between, later, hfirst, hrest, rfl⟩

/-- When nobody will be asked, nothing changes. -/
theorem PasswordAuth.Settled.run (hsettled : auth.Settled)
    (h : userAuthRun auth requests = some (calls, auth')) :
    auth' = auth ∧ Gives auth.password calls ∧ promptsOf calls = 0 ∧
      ∀ call ∈ calls, call.2.prompts = 0 := by
  induction requests generalizing auth calls with
  | nil =>
      obtain ⟨rfl, rfl⟩ := Prod.mk.inj (Option.some.inj h)
      exact ⟨rfl, by simp [Gives], rfl, by simp⟩
  | cons request rest ih =>
      obtain ⟨outcome, between, later, hfirst, hrest, rfl⟩ := userAuthRun_cons h
      obtain ⟨rfl, hlines, -, hpassword⟩ | ⟨-, hunsettled, -⟩ := userAuthCallback_cases hfirst
      · obtain ⟨hsame, hgives, hcount, hnone⟩ := ih hsettled hrest
        have hfirst : outcome.prompts = 0 := by
          simp only [UserAuthOutcome.prompts, hlines, List.countP_nil]
        refine ⟨hsame, List.forall_mem_cons.mpr ⟨hpassword, hgives⟩, ?_,
          List.forall_mem_cons.mpr ⟨hfirst, hnone⟩⟩
        simp only [promptsOf, hfirst, Nat.zero_add]
        exact hcount
      · exact absurd hsettled hunsettled

/-- **The password is entered once**: there is at most one prompt, at the first call for a
password unless nobody will be asked; and the password of all calls from then on is the line
that the editor makes of its keys, if a carriage return ended it, or none. -/
theorem password_entry (h : userAuthRun auth requests = some (calls, auth')) :
    promptsOf calls ≤ 1 ∧
    (∀ before call later, calls = before ++ call :: later →
      0 < call.2.prompts → Entered call later auth') ∧
    (¬ auth.Settled → ∀ before call later, calls = before ++ call :: later →
      (∀ earlier ∈ before, ¬ earlier.1.ForPassword) → call.1.ForPassword →
        call.2.prompts = 1) := by
  induction requests generalizing auth calls with
  | nil =>
      obtain ⟨rfl, rfl⟩ := Prod.mk.inj (Option.some.inj h)
      refine ⟨Nat.zero_le _, fun before call later hsplit => ?_,
        fun _ before call later hsplit => ?_⟩
      · simp at hsplit
      · simp at hsplit
  | cons request rest ih =>
      obtain ⟨outcome, between, later, hfirst, hrest, rfl⟩ := userAuthRun_cons h
      obtain ⟨rfl, hlines, hwhy, -⟩ |
        ⟨hfor, -, last, after, hlast, rfl, hask, herror, hreturn⟩ :=
        userAuthCallback_cases hfirst
      · -- no prompt
        have hnone : outcome.prompts = 0 := by
          simp only [UserAuthOutcome.prompts, hlines, List.countP_nil]
        obtain ⟨hcount, hentered, hasks⟩ := ih hrest
        refine ⟨?_, fun before call later' hsplit hprompts => ?_,
          fun hunsettled before call later' hsplit hbefore hcalled => ?_⟩
        · simp only [promptsOf, hnone, Nat.zero_add]
          exact hcount
        · cases before with
          | nil =>
              obtain ⟨rfl, -⟩ := List.cons.inj hsplit
              exact absurd hprompts (by rw [hnone]; exact Nat.lt_irrefl 0)
          | cons first before =>
              exact hentered before call later' (List.cons.inj hsplit).2 hprompts
        · cases before with
          | nil =>
              obtain ⟨rfl, -⟩ := List.cons.inj hsplit
              exact absurd hcalled (hwhy.resolve_left hunsettled)
          | cons first before =>
              exact hasks hunsettled before call later' (List.cons.inj hsplit).2
                (fun earlier hmem => hbefore earlier (List.mem_cons_of_mem _ hmem)) hcalled
      · -- the prompt
        have hsettled : PasswordAuth.Settled ⟨some after, true⟩ := fun _ _ => .inr rfl
        obtain ⟨rfl, hgives, hcount, hnone⟩ := hsettled.run hrest
        refine ⟨?_, fun before call later' hsplit hprompts => ?_,
          fun _ before call later' hsplit hbefore _ => ?_⟩
        · simp only [promptsOf, hcount, hask]
          exact Nat.le_refl 1
        · cases before with
          | nil =>
              obtain ⟨rfl, rfl⟩ := List.cons.inj hsplit
              refine ⟨last, hlast, fun hbad => ?_, fun hok => ?_⟩
              · obtain ⟨hclear, hfailed⟩ := herror hbad
                have hpassword : PasswordAuth.password ⟨some after, true⟩ = none :=
                  if_neg (by simp [hclear])
                rw [hpassword] at hgives
                exact List.forall_mem_cons.mpr ⟨(ite_self _).symm ▸ hfailed, hgives⟩
              · obtain ⟨hset, hpadded, hgiven⟩ := hreturn hok
                have hline := line_promptLine request.keys
                have hpassword : PasswordAuth.password ⟨some after, true⟩ =
                    some (promptLine request.keys) :=
                  (if_pos hset).trans
                    (congrArg some (hpadded.text (Nat.lt_succ_of_le hline.1) hline.2))
                rw [hpassword] at hgives
                exact ⟨List.forall_mem_cons.mpr ⟨(if_pos hfor).symm ▸ hgiven, hgives⟩, after, rfl,
                  hpadded⟩
          | cons first before =>
              obtain ⟨-, rfl⟩ := List.cons.inj hsplit
              have hzero := hnone call (by simp)
              exact absurd hprompts (by rw [hzero]; exact Nat.lt_irrefl 0)
        · cases before with
          | nil =>
              obtain ⟨rfl, -⟩ := List.cons.inj hsplit
              exact hask
          | cons first before =>
              obtain ⟨rfl, -⟩ := List.cons.inj hsplit
              exact absurd hfor (hbefore _ List.mem_cons_self)

/-- The user types `a`, `b`, backspace and a carriage return: one prompt, and the password
`a` for both calls. -/
theorem password_entry_once :
    ∃ calls auth', userAuthRun ⟨some Options.initial, false⟩
        [⟨true, true, [⟨efiSuccess, ⟨0, 0x61⟩⟩, ⟨efiNotReady, ⟨0, 0⟩⟩, ⟨efiSuccess, ⟨0, 0x62⟩⟩,
            ⟨efiSuccess, ⟨0, 0x08⟩⟩, ⟨efiSuccess, ⟨0, 0x0d⟩⟩]⟩,
          ⟨true, true, []⟩] = some (calls, auth') ∧
      promptsOf calls = 1 ∧ Gives (some [0x61]) calls := by
  obtain ⟨⟨calls, auth'⟩, hrun⟩ : ∃ result, userAuthRun ⟨some Options.initial, false⟩
      [⟨true, true, [⟨efiSuccess, ⟨0, 0x61⟩⟩, ⟨efiNotReady, ⟨0, 0⟩⟩, ⟨efiSuccess, ⟨0, 0x62⟩⟩,
          ⟨efiSuccess, ⟨0, 0x08⟩⟩, ⟨efiSuccess, ⟨0, 0x0d⟩⟩]⟩,
        ⟨true, true, []⟩] = some result := Option.isSome_iff_exists.mp (by decide +kernel)
  obtain ⟨hcount, hentered, hasks⟩ := password_entry hrun
  obtain ⟨first, between, later, -, hlater, rfl⟩ := userAuthRun_cons hrun
  have hunsettled : ¬ PasswordAuth.Settled ⟨some Options.initial, false⟩ := fun hsettled =>
    absurd (hsettled Options.initial rfl) (by decide)
  have hone : first.prompts = 1 :=
    hasks hunsettled [] _ later rfl (by simp) ⟨rfl, rfl⟩
  refine ⟨_, auth', hrun, ?_, ?_⟩
  · refine Nat.le_antisymm hcount ?_
    rw [promptsOf, hone]
    exact Nat.le_add_right 1 _
  · obtain ⟨last, hlast, -, hreturn⟩ := hentered [] _ later rfl (by rw [hone]; decide)
    obtain rfl := Option.some.inj hlast
    exact (hreturn (by decide)).1

end WolfSshUefi
