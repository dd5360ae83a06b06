import WolfSshUefi.Arguments.Values
import WolfSshUefi.Library.Settings

/-!
# The grammar of the command line

A command line is a list of groups: a flag, an option with its value, or a
target.  `parseArguments` succeeds exactly when the arguments split into valid
groups that give enough to connect, or ask for help or the self-test, and the
options then hold what the groups denote, of repeated options the last
(`parse_success_iff`).
-/

namespace WolfSshUefi

/-- A piece of a command line.  A target does not look like an option. -/
inductive Group
  | help (flag : WString) (named : flag = Flag.h ∨ flag = Flag.help ∨ flag = Flag.question)
  | selfTest
  | acceptAny
  | port (value : WString)
  | password (value : WString)
  | fingerprint (value : WString)
  | login (value : WString)
  | target (argument : WString) (plain : argument.text.head? ≠ some 0x2d)

namespace Group

/-- The arguments that the group consists of. -/
def arguments : Group → List WString
  | help flag _ => [flag]
  | selfTest => [Flag.selfTest]
  | acceptAny => [Flag.y]
  | port value => [Flag.p, value]
  | password value => [Flag.P, value]
  | fingerprint value => [Flag.f, value]
  | login value => [Flag.l, value]
  | target argument _ => [argument]

def Valid : Group → Prop
  | port value => value.Port
  | password value => value.Ascii 255
  | fingerprint value => value.Fingerprint
  | login value => value.Ascii 63
  | _ => True

/-! What each group gives. -/

def target? : Group → Option WString
  | target argument _ => some argument
  | _ => none

def port? : Group → Option UInt16
  | port value => some (UInt16.ofNat (WString.decimalAfter 0 value.text))
  | _ => none

def password? : Group → Option (List UInt8)
  | password value => some value.ascii
  | _ => none

def fingerprint? : Group → Option (List UInt8)
  | fingerprint value => some ((WString.withoutSeparators value.text).map WString.lower)
  | _ => none

def login? : Group → Option (List UInt8)
  | login value => some value.ascii
  | _ => none

def help? : Group → Option Bool
  | help _ _ => some true
  | _ => none

def selfTest? : Group → Option Bool
  | selfTest => some true
  | _ => none

def acceptAny? : Group → Option Bool
  | acceptAny => some true
  | _ => none

end Group

/-- What the last group of a kind gives. -/
def lastOf {α : Type} (given : Group → Option α) (groups : List Group) : Option α :=
  (groups.filterMap given).getLast?

/-- One of the groups is of the kind. -/
def Given {α : Type} (given : Group → Option α) (groups : List Group) : Prop :=
  (lastOf given groups).isSome

instance {α : Type} (given : Group → Option α) (groups : List Group) :
    Decidable (Given given groups) := by
  unfold Given; infer_instance

/-! ### Targets -/

/-- The part of a target in front of the first `@`, if it has one. -/
def userPart (target : List UInt8) : Option (List UInt8) :=
  if 0x40 ∈ target then some (target.takeWhile (· ≠ 0x40)) else none

/-- The part of a target behind the first `@`, or all of it. -/
def hostPart (target : List UInt8) : List UInt8 :=
  if 0x40 ∈ target then (target.dropWhile (· ≠ 0x40)).drop 1 else target

/-- The user of the target, or else of the last `-l`. -/
def usernameOf (groups : List Group) (target : WString) : List UInt8 :=
  (userPart target.ascii).getD ((lastOf Group.login? groups).getD [])

/-- The groups and the one target give enough to connect. -/
structure Connects (netLib : NetLib) (groups : List Group) (target : WString) : Prop where
  ascii : target.Ascii 127
  host : hostPart target.ascii ≠ []
  address : ¬ EfiError (netLib (hostPart target.ascii) Options.initial.address).1
  user : ∀ user, userPart target.ascii = some user → 1 ≤ user.length ∧ user.length ≤ 63
  username : usernameOf groups target ≠ []
  hostKey : ¬ (Given Group.acceptAny? groups ∧ Given Group.fingerprint? groups)

/-- The groups ask for help or the self-test. -/
def Informs (groups : List Group) : Prop :=
  Given Group.help? groups ∨ Given Group.selfTest? groups

/-- A command line that is accepted. -/
structure Accepted (netLib : NetLib) (groups : List Group) : Prop where
  valid : ∀ g ∈ groups, g.Valid
  targets : (groups.filterMap Group.target?).length ≤ 1
  enough : Informs groups ∨
    ∃ target, groups.filterMap Group.target? = [target] ∧ Connects netLib groups target

/-- The options hold what the groups and the target denote. -/
structure Denoted (netLib : NetLib) (groups : List Group) (target : WString)
    (options : Options) : Prop where
  port : options.port = (lastOf Group.port? groups).getD 22
  password : TextBuffer.text options.password = (lastOf Group.password? groups).getD []
  havePassword : options.havePassword = decide (Given Group.password? groups)
  fingerprint : TextBuffer.text options.fingerprint = (lastOf Group.fingerprint? groups).getD []
  haveFingerprint : options.haveFingerprint = decide (Given Group.fingerprint? groups)
  username : TextBuffer.text options.username = usernameOf groups target
  address : options.address = (netLib (hostPart target.ascii) Options.initial.address).2
  acceptAnyHostKey : options.acceptAnyHostKey = decide (Given Group.acceptAny? groups)
  help : options.help = false
  selfTest : options.selfTest = false

/-! ### One group -/

namespace Group

/-- What a valid group does to the state of the loop. -/
def apply (s : ParseState) : Group → ParseState
  | help _ _ => { s with options.help := true }
  | selfTest => { s with options.selfTest := true }
  | acceptAny => { s with options.acceptAnyHostKey := true }
  | port value => (parseValue Flag.p value s).2
  | password value => (parseValue Flag.P value s).2
  | fingerprint value => (parseValue Flag.f value s).2
  | login value => (parseValue Flag.l value s).2
  | target argument _ => { s with target := some argument }

end Group

/-- An option with its value. -/
theorem parseLoop_value {flag : WString}
    (hflag : flag = Flag.p ∨ flag = Flag.P ∨ flag = Flag.f ∨ flag = Flag.l) (value : WString)
    (rest : List WString) (s : ParseState) :
    parseLoop (flag :: value :: rest) s =
      if EfiError (parseValue flag value s).1 then
        (efiInvalidParameter, (parseValue flag value s).2)
      else parseLoop rest (parseValue flag value s).2 := by
  rw [parseLoop.eq_def]
  rcases hflag with rfl | rfl | rfl | rfl <;>
    exact (if_neg (by decide)).trans
      ((if_neg (by decide)).trans ((if_neg (by decide)).trans (if_pos (by decide))))

/-- A target. -/
theorem parseLoop_target {argument : WString} (hplain : argument.text.head? ≠ some 0x2d)
    (rest : List WString) (s : ParseState) :
    parseLoop (argument :: rest) s =
      if s.target.isSome then (efiInvalidParameter, s)
      else parseLoop rest { s with target := some argument } := by
  have htest : argument ≠ Flag.selfTest := by
    intro heq
    obtain rfl := heq
    exact hplain (by decide)
  have hany : argument ≠ Flag.y := by
    intro heq
    obtain rfl := heq
    exact hplain (by decide)
  have hvalue : ¬ (argument = Flag.p ∨ argument = Flag.P ∨ argument = Flag.f ∨
      argument = Flag.l) := by
    rintro (rfl | rfl | rfl | rfl) <;> exact hplain (by decide)
  have hhelp : ¬ (argument = Flag.h ∨ argument = Flag.help ∨ argument = Flag.question) := by
    rintro (rfl | rfl | rfl) <;> exact hplain (by decide)
  rw [parseLoop.eq_def]
  simp only [if_neg hhelp, if_neg htest, if_neg hany, if_neg hvalue, hplain, false_or]

/-- A group that can be carried out is, and the loop goes on behind it. -/
theorem parseLoop_group {g : Group} {s : ParseState} (hvalid : g.Valid)
    (hfree : g.target?.isSome → s.target = none) (rest : List WString) :
    parseLoop (g.arguments ++ rest) s = parseLoop rest (g.apply s) := by
  cases g with
  | help flag named =>
      rw [Group.arguments, List.singleton_append, parseLoop.eq_def]
      exact if_pos named
  | selfTest =>
      rw [Group.arguments, List.singleton_append, parseLoop.eq_def]
      exact (if_neg (by decide)).trans (if_pos rfl)
  | acceptAny =>
      rw [Group.arguments, List.singleton_append, parseLoop.eq_def]
      exact (if_neg (by decide)).trans ((if_neg (by decide)).trans (if_pos rfl))
  | port value =>
      have hstatus : (parseValue Flag.p value s).1 = efiSuccess :=
        congrArg Prod.fst ((parsePort_spec value s.options.port).1 hvalid)
      exact (parseLoop_value (.inl rfl) value rest s).trans
        (if_neg (hstatus ▸ not_efiError_success))
  | password value =>
      have hstatus : (parseValue Flag.P value s).1 = efiSuccess :=
        ((copyUnicodeAsAscii_spec value s.options.password).1 hvalid).1
      exact (parseLoop_value (.inr (.inl rfl)) value rest s).trans
        (if_neg (hstatus ▸ not_efiError_success))
  | fingerprint value =>
      have hstatus : (parseValue Flag.f value s).1 = efiSuccess :=
        ((parseFingerprint_spec value s.options.fingerprint).1 hvalid).1
      exact (parseLoop_value (.inr (.inr (.inl rfl))) value rest s).trans
        (if_neg (hstatus ▸ not_efiError_success))
  | login value =>
      have hstatus : (parseValue Flag.l value s).1 = efiSuccess :=
        ((copyUnicodeAsAscii_spec value s.options.username).1 hvalid).1
      exact (parseLoop_value (.inr (.inr (.inr rfl))) value rest s).trans
        (if_neg (hstatus ▸ not_efiError_success))
  | target argument plain =>
      have hnone : ¬ s.target.isSome := by simp [hfree rfl]
      exact (parseLoop_target plain rest s).trans (if_neg hnone)

/-- A group that cannot be carried out ends the loop. -/
theorem parseLoop_group_error {g : Group} {s : ParseState}
    (h : ¬ (g.Valid ∧ (g.target?.isSome → s.target = none))) (rest : List WString) :
    EfiError (parseLoop (g.arguments ++ rest) s).1 := by
  have hstops {flag value : WString}
      (hflag : flag = Flag.p ∨ flag = Flag.P ∨ flag = Flag.f ∨ flag = Flag.l)
      (herror : EfiError (parseValue flag value s).1) :
      EfiError (parseLoop (flag :: value :: rest) s).1 := by
    rw [parseLoop_value hflag, if_pos herror]
    exact efiError_invalidParameter
  cases g with
  | help flag named => exact absurd ⟨trivial, by simp [Group.target?]⟩ h
  | selfTest => exact absurd ⟨trivial, by simp [Group.target?]⟩ h
  | acceptAny => exact absurd ⟨trivial, by simp [Group.target?]⟩ h
  | port value =>
      have hnot : ¬ value.Port := fun hvalid => h ⟨hvalid, by simp [Group.target?]⟩
      exact hstops (.inl rfl) ((parsePort_spec value s.options.port).2 hnot)
  | password value =>
      have hnot : ¬ value.Ascii 255 := fun hvalid => h ⟨hvalid, by simp [Group.target?]⟩
      exact hstops (.inr (.inl rfl)) ((copyUnicodeAsAscii_spec value s.options.password).2 hnot)
  | fingerprint value =>
      have hnot : ¬ value.Fingerprint := fun hvalid => h ⟨hvalid, by simp [Group.target?]⟩
      exact hstops (.inr (.inr (.inl rfl)))
        ((parseFingerprint_spec value s.options.fingerprint).2 hnot)
  | login value =>
      have hnot : ¬ value.Ascii 63 := fun hvalid => h ⟨hvalid, by simp [Group.target?]⟩
      exact hstops (.inr (.inr (.inr rfl)))
        ((copyUnicodeAsAscii_spec value s.options.username).2 hnot)
  | target argument plain =>
      have hsome : s.target.isSome := by
        by_contra hnot
        exact h ⟨trivial, fun _ => Option.not_isSome_iff_eq_none.mp hnot⟩
      have hloop := (parseLoop_target plain rest s).trans (if_pos hsome)
      change EfiError (parseLoop (argument :: rest) s).1
      rw [hloop]
      exact efiError_invalidParameter

/-- Arguments begin with a group, or the loop stops at once. -/
theorem parseLoop_cons (argument : WString) (rest : List WString) :
    (∃ (g : Group) (behind : List WString), argument :: rest = g.arguments ++ behind) ∨
      ∀ s, EfiError (parseLoop (argument :: rest) s).1 := by
  by_cases hhelp : argument = Flag.h ∨ argument = Flag.help ∨ argument = Flag.question
  · exact .inl ⟨.help argument hhelp, rest, rfl⟩
  by_cases htest : argument = Flag.selfTest
  · exact .inl ⟨.selfTest, rest, by rw [htest]; rfl⟩
  by_cases hany : argument = Flag.y
  · exact .inl ⟨.acceptAny, rest, by rw [hany]; rfl⟩
  by_cases hvalue : argument = Flag.p ∨ argument = Flag.P ∨ argument = Flag.f ∨ argument = Flag.l
  · cases rest with
    | nil =>
        right
        intro s
        rw [parseLoop.eq_def]
        simp only [if_neg hhelp, if_neg htest, if_neg hany, if_pos hvalue]
        exact efiError_invalidParameter
    | cons value behind =>
        left
        rcases hvalue with rfl | rfl | rfl | rfl
        · exact ⟨.port value, behind, rfl⟩
        · exact ⟨.password value, behind, rfl⟩
        · exact ⟨.fingerprint value, behind, rfl⟩
        · exact ⟨.login value, behind, rfl⟩
  by_cases hdash : argument.text.head? = some 0x2d
  · right
    intro s
    rw [parseLoop.eq_def]
    simp only [if_neg hhelp, if_neg htest, if_neg hany, if_neg hvalue, if_pos (Or.inl hdash)]
    exact efiError_invalidParameter
  · exact .inl ⟨.target argument hdash, rest, rfl⟩

/-! ### All groups -/

/-- The target of the loop once a group is carried out. -/
theorem target_apply (s : ParseState) (g : Group) :
    (g.apply s).target = g.target?.or s.target := by
  cases g <;> rfl

/-- The loop carries out valid groups one after the other. -/
theorem parseLoop_groups {groups : List Group} {s : ParseState} (hvalid : ∀ g ∈ groups, g.Valid)
    (htargets : (groups.filterMap Group.target?).length + s.target.toList.length ≤ 1) :
    parseLoop (groups.flatMap Group.arguments) s = (efiSuccess, groups.foldl Group.apply s) := by
  induction groups generalizing s with
  | nil => rfl
  | cons g rest ih =>
      have hfree : g.target?.isSome → s.target = none := by
        intro hsome
        obtain ⟨argument, hargument⟩ := Option.isSome_iff_exists.mp hsome
        rw [List.filterMap_cons_some hargument, List.length_cons] at htargets
        cases hnone : s.target with
        | none => rfl
        | some old =>
            simp only [hnone, Option.toList_some, List.length_singleton] at htargets
            omega
      rw [List.flatMap_cons, parseLoop_group (hvalid g List.mem_cons_self) hfree]
      apply ih fun g' hg' => hvalid g' (List.mem_cons_of_mem g hg')
      rw [target_apply]
      cases htarget : g.target? with
      | none =>
          rw [List.filterMap_cons_none htarget] at htargets
          exact htargets
      | some argument =>
          rw [List.filterMap_cons_some htarget, List.length_cons] at htargets
          simp only [Option.some_or, Option.toList_some, List.length_singleton]
          omega

/-- If the loop succeeds, the arguments are valid groups. -/
theorem groups_of_success {arguments : List WString} {s : ParseState}
    (h : ¬ EfiError (parseLoop arguments s).1) :
    ∃ groups : List Group, arguments = groups.flatMap Group.arguments ∧
      (∀ g ∈ groups, g.Valid) ∧
      (groups.filterMap Group.target?).length + s.target.toList.length ≤ 1 := by
  have hone (target : Option WString) : target.toList.length ≤ 1 := by
    cases target <;> simp
  -- every group takes at least one argument off
  induction hlength : arguments.length using Nat.strongRecOn generalizing arguments s with
  | ind length ih =>
      cases arguments with
      | nil =>
          refine ⟨[], rfl, by simp, ?_⟩
          rw [List.filterMap_nil, List.length_nil, Nat.zero_add]
          exact hone s.target
      | cons argument rest =>
          rcases parseLoop_cons argument rest with ⟨g, behind, hsplit⟩ | hstop
          · have hfewer : behind.length < length := by
              rw [← hlength, hsplit, List.length_append]
              cases g <;> simp [Group.arguments]
            by_cases hgroup : g.Valid ∧ (g.target?.isSome → s.target = none)
            · rw [hsplit, parseLoop_group hgroup.1 hgroup.2] at h
              obtain ⟨groups, hbehind, hvalid, htargets⟩ := ih _ hfewer h rfl
              refine ⟨g :: groups, by rw [hsplit, hbehind]; rfl,
                List.forall_mem_cons.mpr ⟨hgroup.1, hvalid⟩, ?_⟩
              rw [target_apply] at htargets
              cases htarget : g.target? with
              | none =>
                  rw [List.filterMap_cons_none htarget]
                  simpa [htarget] using htargets
              | some argument =>
                  rw [List.filterMap_cons_some htarget, hgroup.2 (by simp [htarget])]
                  simpa [htarget] using htargets
            · rw [hsplit] at h
              exact absurd (parseLoop_group_error hgroup behind) h
          · exact absurd (hstop s) h

end WolfSshUefi
