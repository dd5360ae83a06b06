import WolfSshUefi.Arguments.Passwords
import WolfSshUefi.Main.Program

/-!
# The password is wiped

`UefiMain` wipes the password in its cleanup, and whatever happens between the
initialization of wolfSSH and the cleanup, it comes there.  The ways out before that do
not wipe: what the command line left in the buffer stays (`password_wiped_iff`).
-/

namespace WolfSshUefi

open Tcp4 Async

/-! ### What returns has gone through all its parts -/

section

variable {α β : Type} {s s' : Main × (Nat → Moment)}

theorem run_bind_some {x : MainM α} {f : α → MainM β} {b : β}
    (h : (x >>= f).run s = (some b, s')) :
    ∃ a s₁, x.run s = (some a, s₁) ∧ (f a).run s₁ = (some b, s') := by
  have hunfold : (x >>= f).run s = (match (x.run s).1 with
      | some a => (f a).run
      | none => pure none) (x.run s).2 := rfl
  rw [hunfold] at h
  cases hx : x.run s with
  | mk result s₁ =>
      rw [hx] at h
      cases result with
      | none => cases h
      | some a => exact ⟨a, s₁, rfl, h⟩

theorem run_note_options {e : MainEvent} {u : Unit} (h : (note e).run s = (some u, s')) :
    s'.1.options = s.1.options := by
  have hrun : (note e).run s = (some (), { s.1 with events := s.1.events ++ [e] }, s.2) := rfl
  rw [hrun] at h
  obtain ⟨-, rfl⟩ := Prod.mk.inj h
  rfl

end

section

variable {codes : WolfSshCodes} {sha256 : List UInt8 → Digest} {o : Outside}
  {s s' : Main × (Nat → Moment)}

/-- The cleanup wipes the password, whatever it does before. -/
theorem cleanup_wipes {context ssh : Bool} {u : Unit}
    (h : (cleanup codes sha256 o context ssh).run s = (some u, s')) :
    s'.1.options.password = Vector.replicate 256 0 := by
  obtain ⟨_, s₁, -, h⟩ := run_bind_some h
  obtain ⟨_, s₂, -, h⟩ := run_bind_some h
  obtain ⟨_, s₃, -, h⟩ := run_bind_some h
  obtain ⟨_, s₄, hwipe, h⟩ := run_bind_some h
  have hwiped : (change fun m => { m with options.password := Vector.replicate 256 0 }).run s₃ =
      (some (), { s₃.1 with options.password := Vector.replicate 256 0 }, s₃.2) := rfl
  rw [hwiped] at hwipe
  obtain ⟨-, rfl⟩ := Prod.mk.inj hwipe
  rw [run_note_options h]

end

/-! ### All ways out -/

/-- `UefiMain` comes to the cleanup: the arguments are accepted and do not ask for
help, the random generator works, and so does the initialization of wolfSSH. -/
def ComesToCleanup (codes : WolfSshCodes) (o : Outside) : Prop :=
  ¬ EfiError (parseArguments o.netLib o.handleProtocol o.argv).1 ∧
    (parseArguments o.netLib o.handleProtocol o.argv).2.help = false ∧
    o.random = 0 ∧ o.init = codes.success

/-- The passwords of the command line, copied over each other, leave nothing behind. -/
def TypesNoPassword (o : Outside) : Prop :=
  EfiError o.handleProtocol ∨
    copyPasswords (passwordsRead (o.argv.drop 1) false) (Vector.replicate 256 0) =
      Vector.replicate 256 0

/-- **The password is wiped exactly if** `UefiMain` comes to its cleanup, or the command
line left nothing to wipe. -/
theorem password_wiped_iff (codes : WolfSshCodes) (sha256 : List UInt8 → Digest) (o : Outside)
    (options : Options) (moments : Nat → Moment) {status : EfiStatus}
    {finish : Main × (Nat → Moment)}
    (h : (uefiMain codes sha256 o).run (Main.start options, moments) = (some status, finish)) :
    finish.1.options.password = Vector.replicate 256 0 ↔
      ComesToCleanup codes o ∨ TypesNoPassword o := by
  have hparsed : (parseArguments o.netLib o.handleProtocol o.argv).2.password =
      Vector.replicate 256 0 ↔ TypesNoPassword o := by
    rw [parseArguments_password]
    unfold TypesNoPassword
    split
    · next herror => simp [herror]
    · next hgood => simp [hgood]
  change (withArguments codes sha256 o (parseArguments o.netLib o.handleProtocol o.argv).1
    (parseArguments o.netLib o.handleProtocol o.argv).2).run _ = _ at h
  unfold ComesToCleanup
  generalize parseArguments o.netLib o.handleProtocol o.argv = parsed at h hparsed ⊢
  obtain ⟨_, s₁, hchange, h⟩ := run_bind_some h
  have hset : s₁.1.options = parsed.2 := by
    obtain ⟨-, rfl⟩ := Prod.mk.inj hchange
    rfl
  have hout {c : Prop} (hnot : ¬ c) (hsame : finish.1.options = s₁.1.options) :
      finish.1.options.password = Vector.replicate 256 0 ↔ c ∨ TypesNoPassword o := by
    rw [hsame, hset, hparsed]
    simp only [hnot, false_or]
  split at h
  · next herror =>
      obtain ⟨_, s₂, hline, h⟩ := run_bind_some h
      obtain ⟨_, s₃, husage, h⟩ := run_bind_some h
      obtain ⟨-, rfl⟩ := Prod.mk.inj h
      exact hout (fun hcome => hcome.1 herror)
        ((run_note_options husage).trans (run_note_options hline))
  split at h
  · next hhelp =>
      obtain ⟨_, s₂, husage, h⟩ := run_bind_some h
      obtain ⟨-, rfl⟩ := Prod.mk.inj h
      refine hout (fun hcome => ?_) (run_note_options husage)
      rw [hcome.2.1] at hhelp
      cases hhelp
  split at h
  · next hrandom =>
      obtain ⟨_, s₂, hline, h⟩ := run_bind_some h
      obtain ⟨-, rfl⟩ := Prod.mk.inj h
      exact hout (fun hcome => hrandom hcome.2.2.1) (run_note_options hline)
  split at h
  · next hinit =>
      obtain ⟨_, s₂, hline, h⟩ := run_bind_some h
      obtain ⟨-, rfl⟩ := Prod.mk.inj h
      exact hout (fun hcome => hinit hcome.2.2.2) (run_note_options hline)
  · next hgood hhelp hrandom hinit =>
      obtain ⟨⟨status', context, ssh⟩, s₂, -, h⟩ := run_bind_some h
      obtain ⟨_, s₃, hcleanup, h⟩ := run_bind_some h
      obtain ⟨-, rfl⟩ := Prod.mk.inj h
      have hcome : ¬ EfiError parsed.1 ∧ parsed.2.help = false ∧ o.random = 0 ∧
          o.init = codes.success :=
        ⟨hgood, Bool.eq_false_iff.mpr hhelp, not_not.mp hrandom, not_not.mp hinit⟩
      rw [cleanup_wipes hcleanup]
      simp only [hcome, not_false_eq_true, and_self, true_or]

/-- A world in which nothing answers, for these arguments. -/
def quietOutside (argv : List WString) : Outside where
  handleProtocol := efiSuccess
  argv := argv
  netLib := fun _ address => (efiSuccess, address)
  random := 0
  init := 0
  console := .ample 1 1 7
  located := efiNotFound
  handles := []
  newContext := false
  newSession := false
  setUsername := 0
  setChannelType := 0
  connects := fun _ => ⟨⟨[], 0, 0⟩, []⟩
  created := none
  script := ⟨[], [], [], []⟩
  sessionCalls := []
  sessionQuestions := []
  shutdowns := fun _ => ⟨[], 0, 0⟩
  shutdownQuestions := []

/-- All codes different. -/
def someCodes : WolfSshCodes := ⟨⟨-10, -11, -12, -13, -14, -15, -16, -17⟩, 0⟩

def noDigest : List UInt8 → Digest := fun _ => Vector.replicate 32 0

/-- The argument `x`. -/
def plainX : WString := ⟨[0x78], by decide⟩

/-- With `-P x --self-test` the cleanup is reached. -/
theorem password_wiped_self_test :
    let o := quietOutside [plainX, Flag.P, plainX, Flag.selfTest]
    ∃ finish, (uefiMain someCodes noDigest o).run
        (Main.start Options.initial, fun _ => quiet) = (some efiSuccess, finish) ∧
      (finish.1.options.password = Vector.replicate 256 0 ↔
        ComesToCleanup someCodes o ∨ TypesNoPassword o) := by
  intro o
  have hstatus : ((uefiMain someCodes noDigest o).run
      (Main.start Options.initial, fun _ => quiet)).1 = some efiSuccess := by decide +kernel
  generalize hrun : (uefiMain someCodes noDigest o).run
    (Main.start Options.initial, fun _ => quiet) = result at hstatus
  obtain ⟨status, finish⟩ := result
  obtain rfl : status = some efiSuccess := hstatus
  exact ⟨finish, rfl, password_wiped_iff someCodes noDigest o _ _ hrun⟩

/-- With `-P x -h` the usage is printed, and the password is still there. -/
theorem password_survives_help :
    ¬ ∀ (codes : WolfSshCodes) (sha256 : List UInt8 → Digest) (o : Outside) (options : Options)
      (moments : Nat → Moment) (status : EfiStatus) (finish : Main × (Nat → Moment)),
      (uefiMain codes sha256 o).run (Main.start options, moments) = (some status, finish) →
        finish.1.options.password = Vector.replicate 256 0 := by
  intro h
  have hwiped := h someCodes noDigest
    (quietOutside [plainX, Flag.P, plainX, Flag.h]) Options.initial (fun _ => quiet) efiSuccess
    _ rfl
  have hfirst := congrArg (fun password : Vector UInt8 256 => password[0]) hwiped
  exact absurd hfirst (by decide +kernel)

end WolfSshUefi
