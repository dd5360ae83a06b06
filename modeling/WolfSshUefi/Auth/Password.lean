import WolfSshUefi.Arguments.Options

/-!
# The password callback

wolfSSH calls `WolfSshUserAuthCallback` for every way to authenticate that the server
offers.  Without a password from the command line the user is asked for one, once; it
is kept in the options for the calls to come.

As for the host key, what the user types during a call is the list of the results of
`ReadKeyStroke`, and a call that waits for more does not return.
-/

namespace WolfSshUefi

/-- What the callback prints. -/
inductive PasswordLine
  | prompt (username : List UInt8)  -- "Password for %a: "
  | newline                         -- "\r\n"
  deriving DecidableEq, Repr

/-- The fields of `WOLFSSH_UEFI_AUTH` that passwords are about, with `Options` NULL or
pointing at the options. -/
structure PasswordAuth where
  options : Option Options
  passwordPrompted : Bool

/-- One call of the callback: whether `AuthType` is `WOLFSSH_USERAUTH_PASSWORD` and
`AuthData` is not NULL, and what `ReadKeyStroke` gives. -/
structure UserAuthRequest where
  isPassword : Bool
  hasData : Bool
  keys : List KeyRead

/-- `WOLFSSH_USERAUTH_SUCCESS`, with the password that `AuthData` then holds, or
`WOLFSSH_USERAUTH_FAILURE`. -/
structure UserAuthOutcome where
  password : Option (List UInt8)
  lines : List PasswordLine

/-- The loop of `ReadPassword`. -/
def readPasswordFrom : List KeyRead → Nat → Options → Option (EfiStatus × Options)
  | [], _, _ => none
  | read :: rest, length, options =>
      let key := read.key.unicodeChar
      if read.status = efiNotReady then readPasswordFrom rest length options
      else if EfiError read.status then some (read.status, options)
      else if key = 0x0d then                     -- CHAR_CARRIAGE_RETURN
        some (efiSuccess, { options with
          password := options.password.setIfInBounds length 0, havePassword := true })
      else if key = 0x08 ∧ length ≠ 0 then        -- CHAR_BACKSPACE
        readPasswordFrom rest (length - 1)
          { options with password := options.password.setIfInBounds (length - 1) 0 }
      else if key ≥ 0x20 ∧ key ≤ 0x7e ∧ length + 1 < 256 then
        readPasswordFrom rest (length + 1)
          { options with password := options.password.setIfInBounds length key.toUInt8 }
      else readPasswordFrom rest length options

/-- `ReadPassword`; it ends a line in either case. -/
def readPassword (keys : List KeyRead) (options : Options) :
    Option (EfiStatus × Options × List PasswordLine) := do
  let (status, after) ←
    readPasswordFrom keys 0 { options with password := Vector.replicate 256 0 }
  some (status, after, [.prompt (TextBuffer.text options.username), .newline])

/-- The end of `WolfSshUserAuthCallback`. -/
def givePassword (options : Options) : Option (List UInt8) :=
  if options.havePassword then some (TextBuffer.text options.password) else none

/-- `WolfSshUserAuthCallback`; `none` if it does not return. -/
def userAuthCallback (auth : PasswordAuth) (request : UserAuthRequest) :
    Option (UserAuthOutcome × PasswordAuth) :=
  match auth.options with
  | none => some (⟨none, []⟩, auth)
  | some options =>
      if ¬ request.hasData ∨ ¬ request.isPassword then some (⟨none, []⟩, auth)
      else if ¬ options.havePassword ∧ ¬ auth.passwordPrompted then do
        let (status, options, lines) ← readPassword request.keys options
        some (⟨if EfiError status then none else givePassword options, lines⟩,
          ⟨some options, true⟩)
      else some (⟨givePassword options, []⟩, auth)

end WolfSshUefi
