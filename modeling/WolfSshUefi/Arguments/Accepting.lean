import WolfSshUefi.Arguments.Grammar

/-!
# What is accepted, and what it means

After the loop every option holds what the last group of its kind gave.  The
target then adds the address and, in front of an `@`, the user.
-/

namespace WolfSshUefi

open TextBuffer

/-! ### The options after the loop -/

section Loop

variable {groups : List Group} (hvalid : ∀ g ∈ groups, g.Valid) (s : ParseState)

include hvalid

/-- A field that valid groups of one kind set, and no other. -/
theorem foldl_field {β : Type} (get : ParseState → β) (sets : Group → Option β)
    (hstep : ∀ s g, g.Valid → get (g.apply s) = (sets g).getD (get s)) :
    get (groups.foldl Group.apply s) = (lastOf sets groups).getD (get s) := by
  exact Settings.get_foldl get sets
    (fun s g hg (_ : True) => hstep s g (hvalid g hg)) (fun _ _ _ => trivial) trivial

/-- The port is the last one given. -/
theorem foldl_port : (groups.foldl Group.apply s).options.port =
    (lastOf Group.port? groups).getD s.options.port := by
  apply foldl_field hvalid s (fun s => s.options.port)
  intro s g hg
  cases g with
  | port value => exact congrArg Prod.snd ((parsePort_spec value s.options.port).1 hg)
  | _ => rfl

/-- The password is the last one given. -/
theorem foldl_password : text (groups.foldl Group.apply s).options.password =
    (lastOf Group.password? groups).getD (text s.options.password) := by
  apply foldl_field hvalid s (fun s => text s.options.password)
  intro s g hg
  cases g with
  | password value => exact ((copyUnicodeAsAscii_spec value s.options.password).1 hg).2
  | _ => rfl

theorem foldl_fingerprint : text (groups.foldl Group.apply s).options.fingerprint =
    (lastOf Group.fingerprint? groups).getD (text s.options.fingerprint) := by
  apply foldl_field hvalid s (fun s => text s.options.fingerprint)
  intro s g hg
  cases g with
  | fingerprint value => exact ((parseFingerprint_spec value s.options.fingerprint).1 hg).2
  | _ => rfl

theorem foldl_username : text (groups.foldl Group.apply s).options.username =
    (lastOf Group.login? groups).getD (text s.options.username) := by
  apply foldl_field hvalid s (fun s => text s.options.username)
  intro s g hg
  cases g with
  | login value => exact ((copyUnicodeAsAscii_spec value s.options.username).1 hg).2
  | _ => rfl

/-- A flag that valid groups of one kind set, and no other. -/
theorem foldl_flag {α : Type} (get : ParseState → Bool) (given : Group → Option α)
    (hstep : ∀ s g, g.Valid → get (g.apply s) = (get s || (given g).isSome))
    (hstart : get s = false) :
    get (groups.foldl Group.apply s) = decide (Given given groups) := by
  have hfield := foldl_field hvalid s get (fun g => (given g).map fun _ => true) (by
    intro s g hg
    rw [hstep s g hg]
    cases given g <;> simp)
  have hmap : lastOf (fun g => (given g).map fun _ => true) groups =
      (lastOf given groups).map fun _ => true := by
    unfold lastOf
    rw [← List.map_filterMap, List.getLast?_map]
  rw [hfield, hmap, hstart, Bool.eq_iff_iff, decide_eq_true_iff]
  unfold Given
  cases lastOf given groups <;> simp

/-- A password is there exactly if one was given. -/
theorem foldl_havePassword (hstart : s.options.havePassword = false) :
    (groups.foldl Group.apply s).options.havePassword =
      decide (Given Group.password? groups) := by
  apply foldl_flag hvalid s (fun s => s.options.havePassword) _ _ hstart
  intro s g hg
  cases g with
  | password value =>
      have hstatus := ((copyUnicodeAsAscii_spec value s.options.password).1 hg).1
      exact (if_neg (hstatus ▸ not_efiError_success)).trans (Bool.or_true _).symm
  | _ => exact (Bool.or_false _).symm

/-- A fingerprint likewise. -/
theorem foldl_haveFingerprint (hstart : s.options.haveFingerprint = false) :
    (groups.foldl Group.apply s).options.haveFingerprint =
      decide (Given Group.fingerprint? groups) := by
  apply foldl_flag hvalid s (fun s => s.options.haveFingerprint) _ _ hstart
  intro s g hg
  cases g with
  | fingerprint value =>
      have hstatus := ((parseFingerprint_spec value s.options.fingerprint).1 hg).1
      exact (if_neg (hstatus ▸ not_efiError_success)).trans (Bool.or_true _).symm
  | _ => exact (Bool.or_false _).symm

/-- A login name likewise. -/
theorem foldl_haveUsername (hstart : s.haveUsername = false) :
    (groups.foldl Group.apply s).haveUsername = decide (Given Group.login? groups) := by
  apply foldl_flag hvalid s (fun s => s.haveUsername) _ _ hstart
  intro s g hg
  cases g with
  | login value =>
      have hstatus := ((copyUnicodeAsAscii_spec value s.options.username).1 hg).1
      exact (if_neg (hstatus ▸ not_efiError_success)).trans (Bool.or_true _).symm
  | _ => exact (Bool.or_false _).symm

/-- Any host key is accepted exactly if `-y` was given. -/
theorem foldl_acceptAny (hstart : s.options.acceptAnyHostKey = false) :
    (groups.foldl Group.apply s).options.acceptAnyHostKey =
      decide (Given Group.acceptAny? groups) := by
  apply foldl_flag hvalid s (fun s => s.options.acceptAnyHostKey) _ _ hstart
  intro s g hg
  cases g with
  | acceptAny => exact (Bool.or_true _).symm
  | _ => exact (Bool.or_false _).symm

/-- Help is asked for exactly if a help flag was given. -/
theorem foldl_help (hstart : s.options.help = false) :
    (groups.foldl Group.apply s).options.help = decide (Given Group.help? groups) := by
  apply foldl_flag hvalid s (fun s => s.options.help) _ _ hstart
  intro s g hg
  cases g with
  | help flag named => exact (Bool.or_true _).symm
  | _ => exact (Bool.or_false _).symm

/-- The self-test likewise. -/
theorem foldl_selfTest (hstart : s.options.selfTest = false) :
    (groups.foldl Group.apply s).options.selfTest = decide (Given Group.selfTest? groups) := by
  apply foldl_flag hvalid s (fun s => s.options.selfTest) _ _ hstart
  intro s g hg
  cases g with
  | selfTest => exact (Bool.or_true _).symm
  | _ => exact (Bool.or_false _).symm

/-- The groups do not touch the address. -/
theorem foldl_address : (groups.foldl Group.apply s).options.address = s.options.address := by
  have hnone : lastOf (fun _ => (none : Option Ipv4Address)) groups = none := by
    simp [lastOf]
  have hfield := foldl_field hvalid s (fun s => s.options.address) (fun _ => none) (by
    intro s g hg
    cases g <;> rfl)
  rw [hfield, hnone]
  rfl

end Loop

/-- The target is the last one given. -/
theorem foldl_target (groups : List Group) (s : ParseState) :
    (groups.foldl Group.apply s).target = (lastOf Group.target? groups).or s.target := by
  induction groups generalizing s with
  | nil => rfl
  | cons g rest ih =>
      rw [List.foldl_cons, ih, target_apply]
      unfold lastOf
      cases htarget : g.target? with
      | none => rw [List.filterMap_cons_none htarget, Option.none_or]
      | some argument =>
          rw [List.filterMap_cons_some htarget, List.getLast?_cons]
          cases (rest.filterMap Group.target?).getLast? <;> rfl

/-! ### The target -/

/-- The target is read: its host is an address, and its user fits. -/
structure Reads (netLib : NetLib) (target : WString) (address : Ipv4Address)
    (haveUsername : Bool) : Prop where
  ascii : target.Ascii 127
  host : hostPart target.ascii ≠ []
  address : ¬ EfiError (netLib (hostPart target.ascii) address).1
  user : ∀ user, userPart target.ascii = some user → 1 ≤ user.length ∧ user.length ≤ 63
  name : userPart target.ascii = none → haveUsername = true

/-- `ParseHost` accepts a host that is not empty and that the network library knows. -/
theorem parseHost_spec (netLib : NetLib) (host : List UInt8) (options : Options) :
    (¬ EfiError (parseHost netLib host options).1 ↔
        host ≠ [] ∧ ¬ EfiError (netLib host options.address).1) ∧
      (¬ EfiError (parseHost netLib host options).1 →
        (parseHost netLib host options).2 =
          { options with address := (netLib host options.address).2 }) := by
  unfold parseHost
  split
  · next hempty => simp [hempty, efiError_invalidParameter]
  · next hhost =>
      by_cases herror : EfiError (netLib host options.address).1
      · simp [hhost, herror, efiError_invalidParameter]
      · simp [hhost, herror, not_efiError_success]

/-- `ParseTarget` accepts what reads as a target, and then sets the address and the name. -/
theorem parseTarget_spec (netLib : NetLib) (target : WString) (options : Options)
    (haveUsername : Bool) :
    (¬ EfiError (parseTarget netLib target options haveUsername).1 ↔
        Reads netLib target options.address haveUsername) ∧
      (¬ EfiError (parseTarget netLib target options haveUsername).1 →
        text (parseTarget netLib target options haveUsername).2.username =
            (userPart target.ascii).getD (text options.username) ∧
          (parseTarget netLib target options haveUsername).2 = { options with
            username := (parseTarget netLib target options haveUsername).2.username
            address := (netLib (hostPart target.ascii) options.address).2 }) := by
  obtain ⟨hcopy, hrefused⟩ := copyUnicodeAsAscii_spec target (Vector.replicate 128 (0 : UInt8))
  have hresult : parseTarget netLib target options haveUsername =
      if EfiError (copyUnicodeAsAscii target (Vector.replicate 128 (0 : UInt8))).1 then
        (efiInvalidParameter, options)
      else
        let t := text (copyUnicodeAsAscii target (Vector.replicate 128 (0 : UInt8))).2
        if 0x40 ∈ t then
          if (t.takeWhile (· ≠ 0x40)).length = 0 ∨ (t.takeWhile (· ≠ 0x40)).length ≥ 64 then
            (efiInvalidParameter, options)
          else
            parseHost netLib ((t.dropWhile (· ≠ 0x40)).drop 1) { options with
              username := overwrite options.username (t.takeWhile (· ≠ 0x40) ++ [0]) }
        else if ¬ haveUsername then (efiInvalidParameter, options)
        else parseHost netLib t options := rfl
  by_cases hascii : target.Ascii 127
  · obtain ⟨hstatus, htext⟩ := hcopy hascii
    rw [if_neg (hstatus ▸ not_efiError_success), htext] at hresult
    by_cases hat : 0x40 ∈ target.ascii
    · -- a user in front of the host
      have huserPart : userPart target.ascii = some (target.ascii.takeWhile (· ≠ 0x40)) :=
        if_pos hat
      have hhostPart : hostPart target.ascii = (target.ascii.dropWhile (· ≠ 0x40)).drop 1 :=
        if_pos hat
      simp only [if_pos hat] at hresult
      split at hresult
      · next hlength =>
          rw [hresult]
          refine ⟨iff_of_false (not_not.mpr efiError_invalidParameter) ?_,
            fun hok => absurd efiError_invalidParameter hok⟩
          intro hall
          obtain ⟨-, -, -, huser, -⟩ := hall
          obtain ⟨hpos, hle⟩ := huser _ huserPart
          omega
      · next hlength =>
          obtain ⟨hok, hoptions⟩ := parseHost_spec netLib
            ((target.ascii.dropWhile (· ≠ 0x40)).drop 1) { options with
              username := overwrite options.username (target.ascii.takeWhile (· ≠ 0x40) ++ [0]) }
          rw [← hresult, ← hhostPart] at hok hoptions
          refine ⟨hok.trans ?_, fun hstatus => ?_⟩
          · constructor
            · intro hboth
              obtain ⟨hhost, haddress⟩ := hboth
              refine ⟨hascii, hhost, haddress, ?_, fun hnone => ?_⟩
              · intro user huser
                obtain rfl := Option.some.inj (huserPart.symm.trans huser)
                omega
              · exact absurd (huserPart.symm.trans hnone) (Option.some_ne_none _)
            · intro hall
              obtain ⟨-, hhost, haddress, -, -⟩ := hall
              exact ⟨hhost, haddress⟩
          · have hnul : 0 ∉ target.ascii.takeWhile (· ≠ 0x40) :=
              fun hmem => ascii_nul_free hascii ((List.takeWhile_sublist _).subset hmem)
            rw [hoptions hstatus, huserPart]
            exact ⟨text_overwrite _ (by omega) hnul, rfl⟩
    · -- the target is the host
      have huserPart : userPart target.ascii = none := if_neg hat
      have hhostPart : hostPart target.ascii = target.ascii := if_neg hat
      simp only [if_neg hat] at hresult
      split at hresult
      · next hnone =>
          rw [hresult]
          refine ⟨iff_of_false (not_not.mpr efiError_invalidParameter) fun hreads => ?_,
            fun hok => absurd efiError_invalidParameter hok⟩
          exact hnone (hreads.name huserPart)
      · next hname =>
          obtain ⟨hok, hoptions⟩ := parseHost_spec netLib target.ascii options
          rw [← hresult] at hok hoptions
          rw [huserPart, hhostPart]
          refine ⟨hok.trans ?_, fun hstatus => ?_⟩
          · constructor
            · intro hboth
              obtain ⟨hhost, haddress⟩ := hboth
              refine ⟨hascii, by rwa [hhostPart], by rwa [hhostPart], ?_, fun _ => not_not.mp hname⟩
              intro user huser
              exact absurd (huserPart.symm.trans huser) (Option.some_ne_none _).symm
            · intro hall
              obtain ⟨-, hhost, haddress, -, -⟩ := hall
              rw [hhostPart] at hhost haddress
              exact ⟨hhost, haddress⟩
          · rw [hoptions hstatus]
            exact ⟨rfl, rfl⟩
  · rw [hresult, if_pos (hrefused hascii)]
    exact ⟨iff_of_false (not_not.mpr efiError_invalidParameter) fun hreads => hascii hreads.ascii,
      fun hok => absurd efiError_invalidParameter hok⟩

/-! ### The whole command line -/

/-- What the end of the parser checks of a target. -/
theorem finishArguments_target {netLib : NetLib} {s : ParseState} {target : WString}
    (hinforms : ¬ (s.options.help ∨ s.options.selfTest)) (htarget : s.target = some target) :
    (¬ EfiError (finishArguments netLib s).1 ↔
        Reads netLib target s.options.address s.haveUsername ∧
          (userPart target.ascii).getD (text s.options.username) ≠ [] ∧
          ¬ (s.options.acceptAnyHostKey ∧ s.options.haveFingerprint)) ∧
      (finishArguments netLib s).2 = (parseTarget netLib target s.options s.haveUsername).2 := by
  obtain ⟨hok, hoptions⟩ := parseTarget_spec netLib target s.options s.haveUsername
  have hresult : finishArguments netLib s =
      if EfiError (parseTarget netLib target s.options s.haveUsername).1 ∨
          (parseTarget netLib target s.options s.haveUsername).2.username[0] = 0 then
        (efiInvalidParameter, (parseTarget netLib target s.options s.haveUsername).2)
      else if (parseTarget netLib target s.options s.haveUsername).2.acceptAnyHostKey ∧
          (parseTarget netLib target s.options s.haveUsername).2.haveFingerprint then
        (efiInvalidParameter, (parseTarget netLib target s.options s.haveUsername).2)
      else (efiSuccess, (parseTarget netLib target s.options s.haveUsername).2) := by
    unfold finishArguments
    rw [if_neg hinforms, htarget]
  generalize parseTarget netLib target s.options s.haveUsername = result at *
  rw [hresult, ← hok]
  by_cases hstatus : EfiError result.1
  · rw [if_pos (.inl hstatus)]
    exact ⟨iff_of_false (not_not.mpr efiError_invalidParameter) fun hall => hall.1 hstatus, rfl⟩
  obtain ⟨hname, hrecord⟩ := hoptions hstatus
  have hempty := text_eq_nil_iff result.2.username (by decide)
  have haccept : result.2.acceptAnyHostKey = s.options.acceptAnyHostKey := by rw [hrecord]
  have hpinned : result.2.haveFingerprint = s.options.haveFingerprint := by rw [hrecord]
  rw [← hname, haccept, hpinned]
  by_cases hzero : result.2.username[0] = 0
  · rw [if_pos (.inr hzero)]
    exact ⟨iff_of_false (not_not.mpr efiError_invalidParameter)
      fun hall => hall.2.1 (hempty.mpr hzero), rfl⟩
  rw [if_neg (not_or.mpr ⟨hstatus, hzero⟩)]
  by_cases hboth : s.options.acceptAnyHostKey ∧ s.options.haveFingerprint
  · rw [if_pos hboth]
    exact ⟨iff_of_false (not_not.mpr efiError_invalidParameter) fun hall => hall.2.2 hboth, rfl⟩
  · rw [if_neg hboth]
    exact ⟨iff_of_true not_efiError_success
      ⟨hstatus, fun hnil => hzero (hempty.mp hnil), hboth⟩, rfl⟩

/-- The state after the groups, from the start of the loop. -/
def afterGroups (groups : List Group) : ParseState :=
  groups.foldl Group.apply ⟨Options.initial, none, false⟩

section Groups

variable {groups : List Group} (hvalid : ∀ g ∈ groups, g.Valid)

include hvalid

/-- Help or the self-test is asked for. -/
theorem informs_iff : Informs groups ↔
    (afterGroups groups).options.help ∨ (afterGroups groups).options.selfTest := by
  unfold Informs afterGroups
  rw [foldl_help hvalid _ rfl, foldl_selfTest hvalid _ rfl, decide_eq_true_iff, decide_eq_true_iff]

/-- The name before the `@`, or else the login name. -/
theorem usernameOf_eq (target : WString) : usernameOf groups target =
    (userPart target.ascii).getD (text (afterGroups groups).options.username) := by
  have hstart : text Options.initial.username = [] := text_replicate 64
  unfold usernameOf afterGroups
  rw [foldl_username hvalid]
  exact congrArg _ (congrArg _ hstart.symm)

/-- The conditions for a connection, in terms of the parsed options. -/
theorem connects_iff (netLib : NetLib) (target : WString) : Connects netLib groups target ↔
    Reads netLib target (afterGroups groups).options.address (afterGroups groups).haveUsername ∧
      (userPart target.ascii).getD (text (afterGroups groups).options.username) ≠ [] ∧
      ¬ ((afterGroups groups).options.acceptAnyHostKey ∧
        (afterGroups groups).options.haveFingerprint) := by
  rw [← usernameOf_eq hvalid]
  unfold afterGroups
  rw [foldl_address hvalid, foldl_haveUsername hvalid _ rfl, foldl_acceptAny hvalid _ rfl,
    foldl_haveFingerprint hvalid _ rfl, decide_eq_true_iff, decide_eq_true_iff]
  constructor
  · intro hall
    obtain ⟨hascii, hhost, haddress, huser, hname, hkey⟩ := hall
    refine ⟨⟨hascii, hhost, haddress, huser, fun hnone => ?_⟩, hname, hkey⟩
    rw [decide_eq_true_iff]
    by_contra hlogin
    apply hname
    unfold Given at hlogin
    rw [usernameOf, hnone, Option.not_isSome_iff_eq_none.mp hlogin]
    rfl
  · intro hall
    obtain ⟨⟨hascii, hhost, haddress, huser, -⟩, hname, hkey⟩ := hall
    exact ⟨hascii, hhost, haddress, huser, hname, hkey⟩

end Groups

/-- The parser is its loop and its end. -/
theorem parseArguments_eq (netLib : NetLib) {handleProtocol : EfiStatus}
    (hshell : ¬ EfiError handleProtocol) (argv : List WString) :
    parseArguments netLib handleProtocol argv =
      if EfiError (parseLoop (argv.drop 1) ⟨Options.initial, none, false⟩).1 then
        ((parseLoop (argv.drop 1) ⟨Options.initial, none, false⟩).1,
          (parseLoop (argv.drop 1) ⟨Options.initial, none, false⟩).2.options)
      else finishArguments netLib (parseLoop (argv.drop 1) ⟨Options.initial, none, false⟩).2 :=
  if_neg hshell

/-- On groups of arguments the loop is their effect. -/
theorem parseArguments_groups (netLib : NetLib) {handleProtocol : EfiStatus}
    (hshell : ¬ EfiError handleProtocol) {argv : List WString} {groups : List Group}
    (hsplit : argv.drop 1 = groups.flatMap Group.arguments) (hvalid : ∀ g ∈ groups, g.Valid)
    (htargets : (groups.filterMap Group.target?).length ≤ 1) :
    parseArguments netLib handleProtocol argv = finishArguments netLib (afterGroups groups) := by
  have hloop : parseLoop (argv.drop 1) ⟨Options.initial, none, false⟩ =
      (efiSuccess, afterGroups groups) := by
    rw [hsplit]
    exact parseLoop_groups hvalid htargets
  rw [parseArguments_eq netLib hshell, hloop]
  exact if_neg not_efiError_success

/-- The target after all groups. -/
theorem target_afterGroups (groups : List Group) :
    (afterGroups groups).target = (groups.filterMap Group.target?).getLast? := by
  unfold afterGroups
  rw [foldl_target, Option.or_none]
  rfl

/-- The end succeeds, or it fails. -/
theorem finishArguments_status (netLib : NetLib) (s : ParseState) :
    (finishArguments netLib s).1 = efiSuccess ∨ EfiError (finishArguments netLib s).1 := by
  unfold finishArguments
  split
  · exact .inl rfl
  split
  · exact .inr efiError_invalidParameter
  dsimp only
  split
  · exact .inr efiError_invalidParameter
  split
  · exact .inr efiError_invalidParameter
  · exact .inl rfl

/-- Valid groups with at most one target are accepted when they give enough. -/
theorem finish_afterGroups (netLib : NetLib) {groups : List Group}
    (hvalid : ∀ g ∈ groups, g.Valid) (htargets : (groups.filterMap Group.target?).length ≤ 1) :
    ¬ EfiError (finishArguments netLib (afterGroups groups)).1 ↔ Accepted netLib groups := by
  have hinforms := informs_iff hvalid
  by_cases hinfo : Informs groups
  · have hstatus : (finishArguments netLib (afterGroups groups)).1 = efiSuccess := by
      unfold finishArguments
      rw [if_pos (hinforms.mp hinfo)]
    rw [hstatus]
    exact iff_of_true not_efiError_success ⟨hvalid, htargets, .inl hinfo⟩
  have hnot := mt hinforms.mpr hinfo
  have hlast := target_afterGroups groups
  rcases hall : groups.filterMap Group.target? with - | ⟨target, - | ⟨other, more⟩⟩
  · -- no target
    rw [hall] at hlast
    have hstatus : (finishArguments netLib (afterGroups groups)).1 = efiInvalidParameter := by
      unfold finishArguments
      rw [if_neg hnot, hlast]
      rfl
    rw [hstatus]
    refine iff_of_false (not_not.mpr efiError_invalidParameter) ?_
    intro hall
    obtain ⟨-, -, hinfo' | ⟨target, htarget, -⟩⟩ := hall
    · exact hinfo hinfo'
    · rw [hall] at htarget
      cases htarget
  · -- one target
    have hlast : (afterGroups groups).target = some target := by rw [hlast, hall]; rfl
    rw [(finishArguments_target hnot hlast).1, ← connects_iff hvalid]
    constructor
    · intro hconnects
      exact ⟨hvalid, htargets, .inr ⟨target, hall, hconnects⟩⟩
    · intro hall
      obtain ⟨-, -, hinfo' | ⟨target', htarget, hconnects⟩⟩ := hall
      · exact absurd hinfo' hinfo
      · rw [hall] at htarget
        obtain rfl := (List.cons.inj htarget).1
        exact hconnects
  · rw [hall] at htargets
    simp at htargets

/-- The options after one target, where nothing else was asked for. -/
theorem denoted_afterGroups {netLib : NetLib} {groups : List Group}
    (h : Accepted netLib groups) (hinfo : ¬ Informs groups) {target : WString}
    (htarget : groups.filterMap Group.target? = [target]) :
    Denoted netLib groups target (finishArguments netLib (afterGroups groups)).2 := by
  have hvalid := h.valid
  have hnot := mt (informs_iff hvalid).mpr hinfo
  have hlast : (afterGroups groups).target = some target := by
    rw [target_afterGroups, htarget]
    rfl
  have hstatus := (finish_afterGroups netLib hvalid h.targets).mpr h
  obtain ⟨hok, hoptions⟩ := finishArguments_target hnot hlast
  obtain ⟨htarget', hread⟩ := parseTarget_spec netLib target (afterGroups groups).options
    (afterGroups groups).haveUsername
  obtain ⟨hname, hrecord⟩ := hread (htarget'.mpr (hok.mp hstatus).1)
  have hhelp : (afterGroups groups).options.help = false := by
    by_contra hset
    exact hnot (.inl (by simpa using hset))
  have htest : (afterGroups groups).options.selfTest = false := by
    by_contra hset
    exact hnot (.inr (by simpa using hset))
  rw [hoptions]
  constructor
  · rw [hrecord]
    exact foldl_port hvalid _
  · rw [hrecord]
    refine (foldl_password hvalid _).trans (congrArg _ ?_)
    exact text_replicate 256
  · rw [hrecord]
    exact foldl_havePassword hvalid _ rfl
  · rw [hrecord]
    refine (foldl_fingerprint hvalid _).trans (congrArg _ ?_)
    exact text_replicate 65
  · rw [hrecord]
    exact foldl_haveFingerprint hvalid _ rfl
  · rw [hname, usernameOf_eq hvalid]
  · rw [hrecord]
    exact congrArg (fun address => (netLib (hostPart target.ascii) address).2)
      (foldl_address hvalid _)
  · rw [hrecord]
    exact foldl_acceptAny hvalid _ rfl
  · rw [hrecord]
    exact hhelp
  · rw [hrecord]
    exact htest

/-- **The command line is accepted exactly when** it splits into valid groups that
give enough, and the options then hold what the groups denote. -/
theorem parse_success_iff (netLib : NetLib) {handleProtocol : EfiStatus}
    (hshell : ¬ EfiError handleProtocol) (argv : List WString) :
    ((parseArguments netLib handleProtocol argv).1 = efiSuccess ↔
      ∃ groups : List Group, argv.drop 1 = groups.flatMap Group.arguments ∧
        Accepted netLib groups) ∧
      ∀ (groups : List Group) (target : WString),
        argv.drop 1 = groups.flatMap Group.arguments → Accepted netLib groups →
          ¬ Informs groups → groups.filterMap Group.target? = [target] →
            Denoted netLib groups target (parseArguments netLib handleProtocol argv).2 := by
  constructor
  · constructor
    · intro hsuccess
      have hloop : ¬ EfiError (parseLoop (argv.drop 1) ⟨Options.initial, none, false⟩).1 := by
        intro herror
        rw [parseArguments_eq netLib hshell, if_pos herror] at hsuccess
        exact absurd (hsuccess ▸ herror) not_efiError_success
      obtain ⟨groups, hsplit, hvalid, htargets⟩ := groups_of_success hloop
      have hend := parseArguments_groups netLib hshell hsplit hvalid htargets
      refine ⟨groups, hsplit, (finish_afterGroups netLib hvalid htargets).mp ?_⟩
      rw [← hend, hsuccess]
      exact not_efiError_success
    · intro hall
      obtain ⟨groups, hsplit, haccepted⟩ := hall
      rw [parseArguments_groups netLib hshell hsplit haccepted.valid haccepted.targets]
      have hok := (finish_afterGroups netLib haccepted.valid haccepted.targets).mpr haccepted
      exact (finishArguments_status netLib _).resolve_right hok
  · intro groups target hsplit haccepted hinfo htarget
    rw [parseArguments_groups netLib hshell hsplit haccepted.valid haccepted.targets]
    exact denoted_afterGroups haccepted hinfo htarget

/-- A resolver that knows 10.0.0.1. -/
def oneHost : NetLib := fun host address =>
  if host = [0x31, 0x30, 0x2e, 0x30, 0x2e, 0x30, 0x2e, 0x31] then (efiSuccess, #v[10, 0, 0, 1])
  else (efiInvalidParameter, address)

/-- `wolfssh -y -p 0022 me@10.0.0.1` -/
def leadingZeros : List WString :=
  [⟨[0x77, 0x6f, 0x6c, 0x66, 0x73, 0x73, 0x68], by decide⟩, Flag.y, Flag.p,
    ⟨[0x30, 0x30, 0x32, 0x32], by decide⟩,
    ⟨[0x6d, 0x65, 0x40, 0x31, 0x30, 0x2e, 0x30, 0x2e, 0x30, 0x2e, 0x31], by decide⟩]

/-- A port with leading zeros is accepted. -/
theorem parse_success_leading_zeros :
    ∃ groups : List Group, leadingZeros.drop 1 = groups.flatMap Group.arguments ∧
      Accepted oneHost groups :=
  (parse_success_iff oneHost not_efiError_success leadingZeros).1.mp (by decide +kernel)

end WolfSshUefi
