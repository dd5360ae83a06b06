import WolfSshUefi.Arguments.Accepting
import WolfSshUefi.Library.Commuting

/-!
# The order of the options

Every group of a command line changes fields of its own, and the target is read
when all groups are.  So groups with different flags can change places: what
`WolfSshParseArguments` returns stays the same, and where it succeeds so do all
the options (`order_irrelevant`).
-/

namespace WolfSshUefi

/-- The flag of a group; a target has none. -/
def Group.flag : Group → Option WString
  | .help flag _ => some flag
  | .selfTest => some Flag.selfTest
  | .acceptAny => some Flag.y
  | .port _ => some Flag.p
  | .password _ => some Flag.P
  | .fingerprint _ => some Flag.f
  | .login _ => some Flag.l
  | .target _ _ => none

/-- The groups in another order, but those with the same flag in the same. -/
def Reordered (groups groups' : List Group) : Prop :=
  ∀ flag, Commuting.share Group.flag flag groups = Commuting.share Group.flag flag groups'

namespace Reordered

variable {groups groups' : List Group}

theorem mem_iff (h : Reordered groups groups') (g : Group) : g ∈ groups ↔ g ∈ groups' := by
  have hshare : g ∈ Commuting.share Group.flag g.flag groups ↔
      g ∈ Commuting.share Group.flag g.flag groups' := by
    rw [h]
  simpa only [Commuting.mem_share, and_true] using hshare

theorem targets (h : Reordered groups groups') :
    groups.filterMap Group.target? = groups'.filterMap Group.target? := by
  have hshare (all : List Group) : (Commuting.share Group.flag none all).filterMap Group.target? =
      all.filterMap Group.target? := by
    induction all with
    | nil => rfl
    | cons g rest ih =>
        by_cases hflag : g.flag = none
        · rw [Commuting.share_cons_of_eq hflag, List.filterMap_cons, List.filterMap_cons, ih]
        · have hother : g.target? = none := by
            cases g <;> first | rfl | exact absurd rfl hflag
          rw [Commuting.share_cons_of_ne hflag, ih, List.filterMap_cons_none hother]
  rw [← hshare groups, ← hshare groups', h none]

end Reordered

/-- **Groups with different flags commute.** -/
theorem Group.apply_comm (s : ParseState) (g g' : Group) (h : g.flag ≠ g'.flag) :
    g'.apply (g.apply s) = g.apply (g'.apply s) := by
  cases g <;> cases g' <;> first | rfl | exact absurd rfl h

/-- The state after the groups does not depend on their order. -/
theorem afterGroups_reordered {groups groups' : List Group} (h : Reordered groups groups') :
    afterGroups groups = afterGroups groups' :=
  Commuting.foldl_eq_of_share Group.apply_comm h _

/-! ### Command lines that fail in the loop -/

/-- The loop fails in one way. -/
theorem parseLoop_status (arguments : List WString) (s : ParseState) :
    (parseLoop arguments s).1 = efiSuccess ∨ (parseLoop arguments s).1 = efiInvalidParameter := by
  fun_induction parseLoop arguments s <;> first | exact .inl rfl | exact .inr rfl | assumption

/-- The loop succeeds for valid groups with at most one target, and for no others. -/
theorem parseLoop_success_iff (groups : List Group) (s : ParseState) :
    (parseLoop (groups.flatMap Group.arguments) s).1 = efiSuccess ↔
      (∀ g ∈ groups, g.Valid) ∧
        (groups.filterMap Group.target?).length + s.target.toList.length ≤ 1 := by
  constructor
  · intro hsuccess
    induction groups generalizing s with
    | nil =>
        refine ⟨by simp, ?_⟩
        cases s.target <;> simp
    | cons g rest ih =>
        rw [List.flatMap_cons] at hsuccess
        have hgroup : g.Valid ∧ (g.target?.isSome → s.target = none) := by
          by_contra hnot
          have herror := parseLoop_group_error hnot (rest.flatMap Group.arguments)
          rw [hsuccess] at herror
          exact not_efiError_success herror
        obtain ⟨hvalid, hfree⟩ := hgroup
        rw [parseLoop_group hvalid hfree] at hsuccess
        obtain ⟨hrest, htargets⟩ := ih (g.apply s) hsuccess
        rw [target_apply] at htargets
        refine ⟨List.forall_mem_cons.mpr ⟨hvalid, hrest⟩, ?_⟩
        cases htarget : g.target? with
        | none =>
            rw [List.filterMap_cons_none htarget]
            rwa [htarget, Option.none_or] at htargets
        | some argument =>
            rw [htarget, Option.some_or, Option.toList_some, List.length_singleton] at htargets
            rw [List.filterMap_cons_some htarget, List.length_cons,
              hfree (by rw [htarget]; rfl), Option.toList_none, List.length_nil]
            exact htargets
  · intro hall
    obtain ⟨hvalid, htargets⟩ := hall
    rw [parseLoop_groups hvalid htargets]

/-- **The order of options with different flags does not matter.** -/
theorem order_irrelevant (netLib : NetLib) (handleProtocol : EfiStatus) {argv argv' : List WString}
    {groups groups' : List Group} (hargv : argv.drop 1 = groups.flatMap Group.arguments)
    (hargv' : argv'.drop 1 = groups'.flatMap Group.arguments) (h : Reordered groups groups') :
    (parseArguments netLib handleProtocol argv).1 =
        (parseArguments netLib handleProtocol argv').1 ∧
      ((parseArguments netLib handleProtocol argv).1 = efiSuccess →
        (parseArguments netLib handleProtocol argv).2 =
          (parseArguments netLib handleProtocol argv').2) := by
  by_cases hshell : EfiError handleProtocol
  · have hfails (arguments : List WString) : parseArguments netLib handleProtocol arguments =
        (handleProtocol, Options.initial) := if_pos hshell
    rw [hfails, hfails]
    exact ⟨rfl, fun _ => rfl⟩
  have hloop := parseLoop_success_iff groups ⟨Options.initial, none, false⟩
  have hloop' := parseLoop_success_iff groups' ⟨Options.initial, none, false⟩
  by_cases hvalid : (∀ g ∈ groups, g.Valid) ∧ (groups.filterMap Group.target?).length ≤ 1
  · obtain ⟨hall, htargets⟩ := hvalid
    have hall' : ∀ g ∈ groups', g.Valid := fun g hg => hall g ((h.mem_iff g).mpr hg)
    have hsame : parseArguments netLib handleProtocol argv =
        parseArguments netLib handleProtocol argv' := by
      rw [parseArguments_groups netLib hshell hargv hall htargets,
        parseArguments_groups netLib hshell hargv' hall' (h.targets ▸ htargets),
        afterGroups_reordered h]
    rw [hsame]
    exact ⟨rfl, fun _ => rfl⟩
  · have hvalid' : ¬ ((∀ g ∈ groups', g.Valid) ∧
        (groups'.filterMap Group.target?).length ≤ 1) := by
      rw [← h.targets]
      simpa only [h.mem_iff] using hvalid
    have hfails {arguments : List WString} {all : List Group}
        (hsplit : arguments.drop 1 = all.flatMap Group.arguments)
        (hinvalid : ¬ ((∀ g ∈ all, g.Valid) ∧ (all.filterMap Group.target?).length ≤ 1)) :
        (parseArguments netLib handleProtocol arguments).1 = efiInvalidParameter := by
      have hstatus : (parseLoop (arguments.drop 1) ⟨Options.initial, none, false⟩).1 =
          efiInvalidParameter := by
        refine (parseLoop_status _ _).resolve_left fun hsuccess => hinvalid ?_
        rw [hsplit] at hsuccess
        exact (parseLoop_success_iff all _).mp hsuccess
      rw [parseArguments_eq netLib hshell, hstatus, if_pos efiError_invalidParameter]
    rw [hfails hargv hvalid, hfails hargv' hvalid']
    exact ⟨rfl, fun hsuccess => absurd hsuccess (by decide)⟩

/-- A target can stand in front of the options as well as behind them. -/
theorem Reordered.target_first {options : List Group} (hoptions : ∀ g ∈ options, g.flag ≠ none)
    {argument : WString} (plain : argument.text.head? ≠ some 0x2d) :
    Reordered (options ++ [.target argument plain]) (.target argument plain :: options) := by
  intro flag
  by_cases hflag : flag = none
  · have hnone : Commuting.share Group.flag none options = [] :=
      List.filter_eq_nil_iff.mpr fun g hg => by simpa using hoptions g hg
    have hfirst : Group.flag (.target argument plain) = none := rfl
    rw [hflag, Commuting.share_append, Commuting.share_cons_of_eq hfirst,
      Commuting.share_cons_of_eq hfirst, hnone]
    rfl
  · have hother : Group.flag (.target argument plain) ≠ flag := Ne.symm hflag
    rw [Commuting.share_append, Commuting.share_cons_of_ne hother,
      Commuting.share_cons_of_ne hother]
    exact List.append_nil _

/-- `wolfssh me@10.0.0.1 -y -p 0022` -/
theorem order_irrelevant_target :
    (parseArguments oneHost efiSuccess leadingZeros).2 =
      (parseArguments oneHost efiSuccess
        [leadingZeros[0], leadingZeros[4], leadingZeros[1], leadingZeros[2], leadingZeros[3]]).2 := by
  have hflags : ∀ g ∈ [Group.acceptAny, .port leadingZeros[3]], g.flag ≠ none := by
    intro g hg
    obtain rfl | hport := List.mem_cons.mp hg
    · exact Option.some_ne_none _
    · obtain rfl := List.mem_singleton.mp hport
      exact Option.some_ne_none _
  have hplain : leadingZeros[4].text.head? ≠ some 0x2d := by decide
  exact (order_irrelevant oneHost efiSuccess rfl rfl (Reordered.target_first hflags hplain)).2
    (by decide +kernel)

end WolfSshUefi
