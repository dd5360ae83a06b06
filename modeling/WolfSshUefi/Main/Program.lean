import WolfSshUefi.Auth.Password
import WolfSshUefi.Main.Shutdown
import WolfSshUefi.Terminal.Lifetime

/-!
# The main program

`UefiMain` parses the arguments, connects, and hands over to wolfSSH and to the
interactive session; whatever comes of them, it then goes through its cleanup.  What it
gets from outside is fixed beforehand: the results of the calls that it makes, and for
each call of wolfSSH the callbacks that are made meanwhile.

The callbacks about keys and passwords do not work on the socket.  They are kept apart
from those on the socket: the order in which the two kinds come does not matter.
-/

namespace WolfSshUefi

open Tcp4 Async

/-- A callback about the host key or the password. -/
inductive Question
  | hostKey (inv : Invocation)
  | userAuth (request : UserAuthRequest)

/-- One call of wolfSSH, with all its callbacks. -/
structure SshCall extends SshAnswer where
  questions : List Question

/-- What `UefiMain` gets from outside. -/
structure Outside where
  handleProtocol : EfiStatus         -- of `WolfSshParseArguments`, and `Argv`
  argv : List WString
  netLib : NetLib
  random : Int                       -- `UefiRandomGenerateBlock`
  init : Int                         -- `wolfSSH_Init`
  console : Terminal.Firmware        -- for `WolfSshTerminalSelfTest`
  located : EfiStatus                -- `LocateHandleBuffer`
  handles : List Handle
  newContext : Bool                  -- whether `wolfSSH_CTX_new` and `wolfSSH_new`
  newSession : Bool                  -- give something
  setUsername : Int                  -- `wolfSSH_SetUsername`
  setChannelType : Int               -- `wolfSSH_SetChannelType`
  connects : Nat → SshCall           -- `wolfSSH_connect`
  created : Option Terminal          -- `WolfSshTerminalCreate`
  script : Script                    -- the interactive session
  sessionCalls : List NetCall
  sessionQuestions : List Question
  shutdowns : Nat → SshAnswer        -- `wolfSSH_shutdown`
  shutdownQuestions : List Question

/-- What `UefiMain` prints, and what it releases. -/
inductive MainEvent
  | invalidArguments                 -- "Invalid arguments.\r\n\r\n"
  | usage
  | noRandom                         -- "EFI_RNG_PROTOCOL is unavailable; …\r\n"
  | initFailed (result : Int)        -- "wolfSSH initialization failed: %d\r\n"
  | connecting (address : Ipv4Address) (port : UInt16)  -- "Connecting to …\r\n"
  | connectFailed (status : EfiStatus)  -- "TCP4 connection failed: %r\r\n"
  | invalidUsername                  -- "Invalid SSH username.\r\n"
  | noChannel (result : Int)         -- "Could not request an SSH terminal channel: %d\r\n"
  | handshakeFailed (error : Int)    -- "SSH handshake failed: %d (%a)\r\n"
  | handshakeTimedOut                -- "SSH handshake timed out.\r\n"
  | connected                        -- "SSH terminal connected. …\r\n"
  | hostKey (lines : List HostKeyLine)
  | password (lines : List PasswordLine)
  | sessionFreed                     -- `wolfSSH_free`
  | contextFreed                     -- `wolfSSH_CTX_free`
  | cleanedUp                        -- `wolfSSH_Cleanup`
  deriving DecidableEq

/-- The variables of `UefiMain`, and what happened. -/
structure Main where
  net : Net
  options : Options
  hostKeyChecked : Bool
  hostKeyAccepted : Bool
  passwordPrompted : Bool
  events : List MainEvent

/-- `UefiMain` is entered; its options are not set yet. -/
def Main.start (options : Options) : Main where
  net := .start
  options := options
  hostKeyChecked := false
  hostKeyAccepted := false
  passwordPrompted := false
  events := []

/-- A part of `UefiMain`; it may not return. -/
abbrev MainM (α : Type) := OptionT (Async Moment Main) α

/-- A call on the socket. -/
def onNet {α : Type} (x : NetM α) : MainM α :=
  OptionT.lift fun s =>
    let (a, n, moments) := x (s.1.net, s.2)
    (a, { s.1 with net := n }, moments)

def change (f : Main → Main) : MainM Unit := OptionT.lift (update f)

def look {α : Type} (f : Main → α) : MainM α := OptionT.lift (read f)

/-- What the rest needs does not come. -/
def stuck {α : Type} : MainM α := OptionT.fail

def note (e : MainEvent) : MainM Unit := change fun m => { m with events := m.events ++ [e] }

/-- The fields of the options that host keys are about. -/
def Options.hostKey (options : Options) : HostKeyOptions where
  fingerprint := ⟨TextBuffer.text options.fingerprint, TextBuffer.nul_free _⟩
  haveFingerprint := options.haveFingerprint
  acceptAnyHostKey := options.acceptAnyHostKey

section Program

variable (codes : WolfSshCodes) (sha256 : List UInt8 → Digest)

/-- A callback, in the context that `UefiMain` gives to wolfSSH. -/
def ask : Question → MainM Unit
  | .hostKey inv => do
      let m ← look id
      match hostKeyCallback sha256
          ⟨some m.options.hostKey, m.hostKeyChecked, m.hostKeyAccepted⟩ inv with
      | none => stuck
      | some (outcome, auth) => do
          change fun m => { m with
            hostKeyChecked := auth.hostKeyChecked, hostKeyAccepted := auth.hostKeyAccepted }
          note (.hostKey outcome.lines)
  | .userAuth request => do
      let m ← look id
      match userAuthCallback ⟨some m.options, m.passwordPrompted⟩ request with
      | none => stuck
      | some (outcome, auth) => do
          change fun m => { m with
            options := auth.options.getD m.options, passwordPrompted := auth.passwordPrompted }
          note (.password outcome.lines)

def askAll : List Question → MainM Unit
  | [] => pure ()
  | q :: rest => do
      ask sha256 q
      askAll rest

/-- The loop of `ConnectWolfSsh`, over the answers of `wolfSSH_connect`. -/
def handshakeFrom : Nat → (Nat → SshCall) → MainM EfiStatus
  | 0, _ => do
      note .handshakeTimedOut
      pure efiTimeout
  | retries + 1, calls => do
      let _ ← onNet (run (calls 0).calls)
      askAll sha256 (calls 0).questions
      if (calls 0).result = codes.success then pure efiSuccess
      else if ¬ Session.IsRetryableError codes.toWolfSshErrors (calls 0).error then do
        note (.handshakeFailed (calls 0).error)
        pure efiProtocolError
      else do
        let _ ← onNet (run [.poll, .pass])        -- WolfSshTcp4Poll, Stall
        handshakeFrom retries fun n => calls (n + 1)

/-- `ConnectWolfSsh` -/
def connectWolfSsh (calls : Nat → SshCall) : MainM EfiStatus :=
  handshakeFrom codes sha256 12000 calls

/-- `RunInteractiveSession`, with what happens on the socket and to the options
meanwhile. -/
def interactiveSession (o : Outside) : MainM EfiStatus := do
  let _ ← onNet (run o.sessionCalls)
  askAll sha256 o.sessionQuestions
  match Session.runInteractiveSession codes.toWolfSshErrors o.created o.script with
  | .error _ => stuck
  | .ok (status, _) => pure status

/-- `Ssh` is not NULL. -/
def withSession (o : Outside) : MainM EfiStatus :=
  if o.setUsername ≠ codes.success then do
    note .invalidUsername
    pure efiInvalidParameter
  else if o.setChannelType ≠ codes.success then do
    note (.noChannel o.setChannelType)
    pure efiProtocolError
  else do
    let status ← connectWolfSsh codes sha256 o.connects
    if EfiError status then pure status
    else do
      note .connected
      interactiveSession codes sha256 o

/-- `WolfSshTerminalSelfTest`, on its console. -/
def terminalSelfTest (o : Outside) : MainM EfiStatus :=
  match Terminal.selfTest o.console with
  | .error _ => stuck
  | .ok (status, _) => pure status

/-- `UefiMain` from `wolfSSH_Init` to `Cleanup`: the status, and whether `Context` and
`Ssh` are not NULL. -/
def connectAndRun (o : Outside) : MainM (EfiStatus × Bool × Bool) := do
  let options ← look Main.options
  if options.selfTest then do
    let status ← terminalSelfTest o
    pure (status, false, false)
  else do
    note (.connecting options.address options.port)
    let status ← onNet (connect options.port o.located o.handles)
    if EfiError status then do
      note (.connectFailed status)
      pure (status, false, false)
    else if ¬ o.newContext then pure (efiOutOfResources, false, false)
    else if ¬ o.newSession then pure (efiOutOfResources, true, false)
    else do
      let status ← withSession codes sha256 o
      pure (status, true, true)

/-- The shutdown of the session, if there is one. -/
def endSession (o : Outside) (ssh : Bool) : MainM Unit :=
  if ssh then do
    onNet (bestEffortShutdown codes o.shutdowns)
    askAll sha256 o.shutdownQuestions
    note .sessionFreed
  else pure ()

def freeContext (context : Bool) : MainM Unit := if context then note .contextFreed else pure ()

def closeSocket : MainM Unit := do
  if ← look fun m => m.net.socket.protocol.isSome then onNet (close true) else pure ()

/-- `Cleanup`, with `WolfSshInitialized` set. -/
def cleanup (o : Outside) (context ssh : Bool) : MainM Unit := do
  endSession codes sha256 o ssh
  freeContext context
  closeSocket
  change fun m => { m with options.password := Vector.replicate 256 0 }
  note .cleanedUp

/-- `UefiMain`, once `WolfSshParseArguments` has returned. -/
def withArguments (o : Outside) (status : EfiStatus) (options : Options) : MainM EfiStatus := do
  change fun m => { m with options := options }
  if EfiError status then do
    note .invalidArguments
    note .usage
    pure efiInvalidParameter
  else if options.help then do
    note .usage
    pure efiSuccess
  else if o.random ≠ 0 then do
    note .noRandom
    pure efiUnsupported
  else if o.init ≠ codes.success then do
    note (.initFailed o.init)
    pure efiDeviceError
  else do
    let (status, context, ssh) ← connectAndRun codes sha256 o
    cleanup codes sha256 o context ssh
    pure status

/-- `UefiMain` -/
def uefiMain (o : Outside) : MainM EfiStatus :=
  let (status, options) := parseArguments o.netLib o.handleProtocol o.argv
  withArguments codes sha256 o status options

end Program

end WolfSshUefi
