import WolfSshUefi.Auth.HostKey
import WolfSshUefi.Library.TextBuffer

/-!
# The command line

`WolfSshParseArguments` reads the arguments of the shell into the options.
`NetLibAsciiStrToIp4` is a parameter: what it returns for a text, and the address
it leaves when it was given one.
-/

namespace WolfSshUefi

/-- A NUL-terminated string of `CHAR16`, without the NUL. -/
structure WString where
  text : List UInt16
  nul_free : 0 ∉ text
  deriving DecidableEq

/-- `EFI_IPv4_ADDRESS` -/
abbrev Ipv4Address := Vector UInt8 4

/-- `NetLibAsciiStrToIp4` -/
abbrev NetLib := List UInt8 → Ipv4Address → EfiStatus × Ipv4Address

/-- `WOLFSSH_UEFI_OPTIONS` -/
structure Options where
  address : Ipv4Address
  port : UInt16
  username : Vector UInt8 64
  password : Vector UInt8 256
  fingerprint : Vector UInt8 65
  havePassword : Bool
  haveFingerprint : Bool
  acceptAnyHostKey : Bool
  selfTest : Bool
  help : Bool
  deriving DecidableEq

/-- The zeroed options with the port set. -/
def Options.initial : Options where
  address := Vector.replicate 4 0
  port := 22
  username := Vector.replicate 64 0
  password := Vector.replicate 256 0
  fingerprint := Vector.replicate 65 0
  havePassword := false
  haveFingerprint := false
  acceptAnyHostKey := false
  selfTest := false
  help := false

/-! ### The options of the command line -/

namespace Flag

def h : WString := ⟨[0x2d, 0x68], by decide⟩
def help : WString := ⟨[0x2d, 0x2d, 0x68, 0x65, 0x6c, 0x70], by decide⟩
def question : WString := ⟨[0x2d, 0x3f], by decide⟩
def selfTest : WString :=
  ⟨[0x2d, 0x2d, 0x73, 0x65, 0x6c, 0x66, 0x2d, 0x74, 0x65, 0x73, 0x74], by decide⟩
def y : WString := ⟨[0x2d, 0x79], by decide⟩
def p : WString := ⟨[0x2d, 0x70], by decide⟩
def P : WString := ⟨[0x2d, 0x50], by decide⟩
def f : WString := ⟨[0x2d, 0x66], by decide⟩
def l : WString := ⟨[0x2d, 0x6c], by decide⟩

end Flag

/-! ### Values -/

/-- The loop of `CopyUnicodeAsAscii`. -/
def copyFrom {capacity : Nat} :
    List UInt16 → Nat → Vector UInt8 capacity → EfiStatus × Vector UInt8 capacity
  | [], index, destination => (efiSuccess, destination.setIfInBounds index 0)
  | c :: rest, index, destination =>
      if index + 1 ≥ capacity ∨ c > 0x7f then
        (efiInvalidParameter, destination.setIfInBounds 0 0)
      else copyFrom rest (index + 1) (destination.setIfInBounds index c.toUInt8)

/-- `CopyUnicodeAsAscii` -/
def copyUnicodeAsAscii {capacity : Nat} (source : WString) (destination : Vector UInt8 capacity) :
    EfiStatus × Vector UInt8 capacity :=
  if capacity = 0 then (efiInvalidParameter, destination)
  else copyFrom source.text 0 destination

/-- The loop of `ParsePort`; `Value` is a `UINTN`. -/
def portFrom : List UInt16 → Nat → Option Nat
  | [], value => some value
  | c :: rest, value =>
      if c < 0x30 ∨ c > 0x39 then none
      else
        let value := (value * 10 + (c.toNat - 0x30)) % 0x10000000000000000
        if value > 65535 then none else portFrom rest value

/-- `ParsePort` -/
def parsePort (text : WString) (port : UInt16) : EfiStatus × UInt16 :=
  if text.text = [] then (efiInvalidParameter, port)
  else
    match portFrom text.text 0 with
    | none => (efiInvalidParameter, port)
    | some value =>
        if value = 0 then (efiInvalidParameter, port) else (efiSuccess, UInt16.ofNat value)

/-- `HexValue` -/
def hexValue (character : UInt16) : Int :=
  if character ≥ 0x30 ∧ character ≤ 0x39 then character.toNat - 0x30
  else if character ≥ 0x61 ∧ character ≤ 0x66 then character.toNat - 0x61 + 10
  else if character ≥ 0x41 ∧ character ≤ 0x46 then character.toNat - 0x41 + 10
  else -1

/-- The loop of `ParseFingerprint`, and what follows it. -/
def fingerprintFrom : List UInt16 → Nat → Vector UInt8 65 → EfiStatus × Vector UInt8 65
  | [], outputIndex, fingerprint =>
      if outputIndex ≠ 64 then (efiInvalidParameter, fingerprint)
      else (efiSuccess, fingerprint.setIfInBounds outputIndex 0)
  | c :: rest, outputIndex, fingerprint =>
      if c = 0x3a ∨ c = 0x2d then fingerprintFrom rest outputIndex fingerprint
      else if hexValue c < 0 ∨ outputIndex ≥ 64 then (efiInvalidParameter, fingerprint)
      else
        fingerprintFrom rest (outputIndex + 1)
          (fingerprint.setIfInBounds outputIndex (hexDigits.getD (hexValue c).toNat 0))

/-- `ParseFingerprint` -/
def parseFingerprint (text : WString) (fingerprint : Vector UInt8 65) :
    EfiStatus × Vector UInt8 65 :=
  fingerprintFrom text.text 0 fingerprint

/-! ### The target -/

section Arguments

variable (netLib : NetLib)

/-- The end of `ParseTarget`. -/
def parseHost (host : List UInt8) (options : Options) : EfiStatus × Options :=
  if host = [] then (efiInvalidParameter, options)
  else
    let (status, address) := netLib host options.address
    (if EfiError status then efiInvalidParameter else efiSuccess, { options with address := address })

/-- `ParseTarget`; the local buffer is read up to its NUL only. -/
def parseTarget (text : WString) (options : Options) (haveSeparateUsername : Bool) :
    EfiStatus × Options :=
  let (status, target) := copyUnicodeAsAscii text (Vector.replicate 128 (0 : UInt8))
  if EfiError status then (efiInvalidParameter, options)
  else
    let target := TextBuffer.text target
    if 0x40 ∈ target then                           -- '@'
      let user := target.takeWhile (· ≠ 0x40)
      let host := (target.dropWhile (· ≠ 0x40)).drop 1
      if user.length = 0 ∨ user.length ≥ 64 then (efiInvalidParameter, options)
      else
        parseHost netLib host
          { options with username := TextBuffer.overwrite options.username (user ++ [0]) }
    else if ¬ haveSeparateUsername then (efiInvalidParameter, options)
    else parseHost netLib target options

/-! ### All arguments -/

/-- What the loop over the arguments carries. -/
structure ParseState where
  options : Options
  target : Option WString
  haveUsername : Bool
  deriving DecidableEq

/-- An option that takes a value, with its value. -/
def parseValue (flag value : WString) (s : ParseState) : EfiStatus × ParseState :=
  if flag = Flag.p then
    let (status, port) := parsePort value s.options.port
    (status, { s with options.port := port })
  else if flag = Flag.P then
    let (status, password) := copyUnicodeAsAscii value s.options.password
    (status, { s with options := { s.options with
      password := password
      havePassword := if EfiError status then s.options.havePassword else true } })
  else if flag = Flag.f then
    let (status, fingerprint) := parseFingerprint value s.options.fingerprint
    (status, { s with options := { s.options with
      fingerprint := fingerprint
      haveFingerprint := if EfiError status then s.options.haveFingerprint else true } })
  else
    let (status, username) := copyUnicodeAsAscii value s.options.username
    (status, { s with
      options.username := username
      haveUsername := if EfiError status then s.haveUsername else true })

/-- The loop of `WolfSshParseArguments`. -/
def parseLoop : List WString → ParseState → EfiStatus × ParseState
  | [], s => (efiSuccess, s)
  | argument :: rest, s =>
      if argument = Flag.h ∨ argument = Flag.help ∨ argument = Flag.question then
        parseLoop rest { s with options.help := true }
      else if argument = Flag.selfTest then parseLoop rest { s with options.selfTest := true }
      else if argument = Flag.y then parseLoop rest { s with options.acceptAnyHostKey := true }
      else if argument = Flag.p ∨ argument = Flag.P ∨ argument = Flag.f ∨ argument = Flag.l then
        match rest with
        | [] => (efiInvalidParameter, s)
        | value :: rest =>
            let (status, s) := parseValue argument value s
            if EfiError status then (efiInvalidParameter, s) else parseLoop rest s
      else if argument.text.head? = some 0x2d ∨ s.target.isSome then (efiInvalidParameter, s)
      else parseLoop rest { s with target := some argument }

/-- `WolfSshParseArguments` after its loop. -/
def finishArguments (s : ParseState) : EfiStatus × Options :=
  if s.options.help ∨ s.options.selfTest then (efiSuccess, s.options)
  else
    match s.target with
    | none => (efiInvalidParameter, s.options)
    | some target =>
        let (status, options) := parseTarget netLib target s.options s.haveUsername
        if EfiError status ∨ options.username[0] = 0 then (efiInvalidParameter, options)
        else if options.acceptAnyHostKey ∧ options.haveFingerprint then
          (efiInvalidParameter, options)
        else (efiSuccess, options)

/-- `WolfSshParseArguments`, with what `HandleProtocol` returns and the arguments it
gives access to. -/
def parseArguments (handleProtocol : EfiStatus) (argv : List WString) : EfiStatus × Options :=
  if EfiError handleProtocol then (handleProtocol, Options.initial)
  else
    let (status, s) := parseLoop (argv.drop 1) ⟨Options.initial, none, false⟩
    if EfiError status then (status, s.options) else finishArguments netLib s

end Arguments

end WolfSshUefi
