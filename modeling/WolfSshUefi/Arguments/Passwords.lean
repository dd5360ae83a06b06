import WolfSshUefi.Arguments.Grammar

/-!
# The passwords of the command line

`WolfSshParseArguments` stops at the first argument that it cannot use, and what it
has stored until then stays in the options.  The password buffer then holds what the
values of the `-P` options left there that were read, the last of them perhaps only in
part (`parseArguments_password`).
-/

namespace WolfSshUefi

/-- Whether the value of an option is refused. -/
def Refused (flag value : WString) : Prop :=
  EfiError (parseValue flag value ⟨Options.initial, none, false⟩).1

instance (flag value : WString) : Decidable (Refused flag value) := by
  unfold Refused; infer_instance

/-- The values of the `-P` options up to the first argument that is refused, with the
value that is refused itself. -/
def passwordsRead : List WString → Bool → List WString
  | [], _ => []
  | argument :: rest, haveTarget =>
      if argument = Flag.h ∨ argument = Flag.help ∨ argument = Flag.question ∨
          argument = Flag.selfTest ∨ argument = Flag.y then passwordsRead rest haveTarget
      else if argument = Flag.p ∨ argument = Flag.P ∨ argument = Flag.f ∨ argument = Flag.l then
        match rest with
        | [] => []
        | value :: rest =>
            (if argument = Flag.P then [value] else []) ++
              if Refused argument value then [] else passwordsRead rest haveTarget
      else if argument.text.head? = some 0x2d ∨ haveTarget then []
      else passwordsRead rest true

/-- Passwords copied into a buffer, one after the other. -/
def copyPasswords (values : List WString) (buffer : Vector UInt8 256) : Vector UInt8 256 :=
  values.foldl (fun buffer value => (copyUnicodeAsAscii value buffer).2) buffer

/-! ### What is refused does not depend on the state -/

/-- Whether a copy succeeds does not depend on the buffer. -/
theorem copyFrom_status {capacity : Nat} (source : List UInt16) (index : Nat)
    (destination destination' : Vector UInt8 capacity) :
    (copyFrom source index destination).1 = (copyFrom source index destination').1 := by
  induction source generalizing index destination destination' with
  | nil => rfl
  | cons c rest ih =>
      simp only [copyFrom]
      split
      · rfl
      · exact ih _ _ _

/-- Nor does it for a fingerprint. -/
theorem fingerprintFrom_status (source : List UInt16) (index : Nat)
    (fingerprint fingerprint' : Vector UInt8 65) :
    (fingerprintFrom source index fingerprint).1 =
      (fingerprintFrom source index fingerprint').1 := by
  induction source generalizing index fingerprint fingerprint' with
  | nil =>
      simp only [fingerprintFrom]
      split
      all_goals rfl
  | cons c rest ih =>
      simp only [fingerprintFrom]
      split
      · exact ih _ _ _
      split
      · rfl
      · exact ih _ _ _

theorem parsePort_status (text : WString) (port port' : UInt16) :
    (parsePort text port).1 = (parsePort text port').1 := by
  unfold parsePort
  split
  · rfl
  split
  · rfl
  split
  all_goals rfl

/-- So whether a value is refused depends on the value only. -/
theorem parseValue_status (flag value : WString) (s s' : ParseState) :
    (parseValue flag value s).1 = (parseValue flag value s').1 := by
  unfold parseValue
  split
  · exact parsePort_status value _ _
  split
  · exact copyFrom_status value.text 0 _ _
  split
  · exact fingerprintFrom_status value.text 0 _ _
  · exact copyFrom_status value.text 0 _ _

/-- It is refused exactly if it is so in the beginning. -/
theorem refused_iff (flag value : WString) (s : ParseState) :
    EfiError (parseValue flag value s).1 ↔ Refused flag value := by
  unfold Refused
  rw [parseValue_status flag value s]

/-- Only `-P` touches the password. -/
theorem parseValue_password (flag value : WString) (s : ParseState) :
    (parseValue flag value s).2.options.password =
      copyPasswords (if flag = Flag.P then [value] else []) s.options.password := by
  unfold parseValue
  split
  · next hp =>
      subst hp
      rfl
  split
  · next hP =>
      subst hP
      rfl
  · next hP =>
      split
      all_goals rfl

/-- No value changes whether there is a target. -/
theorem parseValue_target (flag value : WString) (s : ParseState) :
    (parseValue flag value s).2.target = s.target := by
  unfold parseValue
  split
  · rfl
  split
  · rfl
  split
  all_goals rfl

/-! ### The loop -/

/-- A flag without a value. -/
theorem parseLoop_plain {argument : WString}
    (hplain : argument = Flag.h ∨ argument = Flag.help ∨ argument = Flag.question ∨
      argument = Flag.selfTest ∨ argument = Flag.y) (rest : List WString) (s : ParseState) :
    ∃ s', parseLoop (argument :: rest) s = parseLoop rest s' ∧ s'.target = s.target ∧
      s'.options.password = s.options.password := by
  by_cases hhelp : argument = Flag.h ∨ argument = Flag.help ∨ argument = Flag.question
  · exact ⟨_, parseLoop_group (g := .help argument hhelp) trivial (by simp [Group.target?]) rest,
      rfl, rfl⟩
  · have hother : argument = Flag.selfTest ∨ argument = Flag.y := by
      rcases hplain with hh | hh | hh | hother
      · exact absurd (.inl hh) hhelp
      · exact absurd (.inr (.inl hh)) hhelp
      · exact absurd (.inr (.inr hh)) hhelp
      · exact hother
    rcases hother with rfl | rfl
    · exact ⟨_, parseLoop_group (g := .selfTest) trivial (by simp [Group.target?]) rest, rfl, rfl⟩
    · exact ⟨_, parseLoop_group (g := .acceptAny) trivial (by simp [Group.target?]) rest, rfl, rfl⟩

/-- **The loop** leaves the passwords it has read, one over the other. -/
theorem parseLoop_password (arguments : List WString) (haveTarget : Bool) (s : ParseState)
    (h : s.target.isSome = haveTarget) :
    (parseLoop arguments s).2.options.password =
      copyPasswords (passwordsRead arguments haveTarget) s.options.password := by
  induction arguments, haveTarget using passwordsRead.induct generalizing s with
  | case1 => rfl
  | case2 argument rest haveTarget hplain ih =>
      obtain ⟨s', hloop, htarget, hpassword⟩ := parseLoop_plain hplain rest s
      rw [passwordsRead.eq_def]
      simp only [if_pos hplain]
      rw [hloop, ih s' (by rw [htarget, h]), hpassword]
  | case3 argument haveTarget hplain hvalue =>
      have hloop : (parseLoop [argument] s).2 = s := by
        rcases hvalue with rfl | rfl | rfl | rfl <;> rfl
      rw [hloop, passwordsRead.eq_def]
      simp only [if_neg hplain, if_pos hvalue]
      rfl
  | case4 argument haveTarget hplain hvalue value rest ih =>
      have hread := parseValue_password argument value s
      rw [parseLoop_value hvalue, passwordsRead.eq_def]
      simp only [if_neg hplain, if_pos hvalue, refused_iff]
      split
      · next hrefused =>
          rw [hread, List.append_nil]
      · next haccepted =>
          have htarget := parseValue_target argument value s
          rw [ih _ (by rw [htarget, h]), hread]
          simp only [copyPasswords, List.foldl_append]
  | case5 argument rest haveTarget hplain hvalue hstop =>
      have hhelp : ¬ (argument = Flag.h ∨ argument = Flag.help ∨ argument = Flag.question) := by
        intro hcase
        obtain hh | hh | hh := hcase
        · exact hplain (.inl hh)
        · exact hplain (.inr (.inl hh))
        · exact hplain (.inr (.inr (.inl hh)))
      have htest : argument ≠ Flag.selfTest := fun hh => hplain (.inr (.inr (.inr (.inl hh))))
      have hany : argument ≠ Flag.y := fun hh => hplain (.inr (.inr (.inr (.inr hh))))
      have hloop : (parseLoop (argument :: rest) s).2 = s := by
        rw [parseLoop.eq_def]
        simp only [if_neg hhelp, if_neg htest, if_neg hany, if_neg hvalue, h, if_pos hstop]
      rw [hloop, passwordsRead.eq_def]
      simp only [if_neg hplain, if_neg hvalue, if_pos hstop]
      rfl
  | case6 argument rest haveTarget hplain hvalue hgo ih =>
      have hgo' := not_or.mp hgo
      have hnone : s.target.isSome = false := by
        rw [h]
        exact Bool.eq_false_iff.mpr hgo'.2
      rw [parseLoop_target hgo'.1, passwordsRead.eq_def]
      simp only [if_neg hplain, if_neg hvalue, if_neg hgo, hnone, Bool.false_eq_true, if_false]
      exact ih _ rfl

/-! ### All arguments -/

/-- The target has no password. -/
theorem parseTarget_password (netLib : NetLib) (target : WString) (options : Options)
    (haveUsername : Bool) :
    (parseTarget netLib target options haveUsername).2.password = options.password := by
  have hhost (host : List UInt8) (options : Options) :
      (parseHost netLib host options).2.password = options.password := by
    unfold parseHost
    split
    all_goals rfl
  unfold parseTarget
  split
  split
  · rfl
  simp only
  split
  · split
    · rfl
    · exact hhost _ _
  split
  · rfl
  · exact hhost _ _

/-- The end of the parser leaves the password. -/
theorem finishArguments_password (netLib : NetLib) (s : ParseState) :
    (finishArguments netLib s).2.password = s.options.password := by
  have htarget (target : WString) := parseTarget_password netLib target s.options s.haveUsername
  unfold finishArguments
  split
  · rfl
  split
  · rfl
  simp only
  split
  · exact htarget _
  split
  · exact htarget _
  · exact htarget _

/-- The password in the options when `WolfSshParseArguments` returns: the values of the
`-P` options that it read, copied over each other. -/
theorem parseArguments_password (netLib : NetLib) (handleProtocol : EfiStatus)
    (argv : List WString) :
    (parseArguments netLib handleProtocol argv).2.password =
      if EfiError handleProtocol then Vector.replicate 256 0
      else copyPasswords (passwordsRead (argv.drop 1) false) (Vector.replicate 256 0) := by
  have hloop := parseLoop_password (argv.drop 1) false ⟨Options.initial, none, false⟩ rfl
  unfold parseArguments
  split
  · rfl
  simp only
  split
  · exact hloop
  · rw [finishArguments_password]
    exact hloop

end WolfSshUefi
