import WolfSshUefi.Session.Keys
import WolfSshUefi.Terminal.Sessions

/-!
# The interactive session

`RunInteractiveSession` passes bytes between wolfSSH, the terminal and the
keyboard until one of them ends it.  wolfSSH and the keyboard are scripts: the
answers they give, in order, to each kind of call.  A session whose script runs
out waits for ever.  What happens in a session is recorded in its trace.
-/

namespace WolfSshUefi

/-- The error codes of wolfSSH that the program compares with. -/
structure WolfSshErrors where
  wantRead : Int
  wantWrite : Int
  windowFull : Int
  rekeying : Int
  extData : Int
  eof : Int
  channelClosed : Int
  socketError : Int

/-- An answer of `wolfSSH_stream_read` or `wolfSSH_extended_data_read`: the result,
the bytes read if it is positive, and what `wolfSSH_get_error` says then. -/
structure SshRead where
  result : Int
  data : List UInt8
  error : Int
  length_eq : 0 < result → data.length = result

/-- An answer of `wolfSSH_stream_send`, and what `wolfSSH_get_error` says then. -/
structure SshSend where
  result : Int
  error : Int

/-- The answers still to come. -/
structure Script where
  reads : List SshRead
  extended : List SshRead
  sends : List SshSend
  keys : List KeyRead

/-- What happens in a session. -/
inductive Event
  | received                                 -- data for the terminal
  | drained (status : EfiStatus)             -- `DrainExtendedData` has returned
  | endOfFile                                -- `WS_EOF` or `WS_CHANNEL_CLOSED`
  | socketError                              -- `WS_SOCKET_ERROR_E`
  | rekeyed                                  -- a key exchange
  | receiveFailed                            -- "SSH receive failed"
  -- replies of the terminal were sent, and wolfSSH has taken so much of them
  | replied (bytes taken : List UInt8) (status : EfiStatus)
  | polled (applicationCursor : Bool) (read : KeyRead)
  -- a keystroke was sent, and wolfSSH has taken so much of it
  | typed (bytes taken : List UInt8) (status : EfiStatus)
  deriving DecidableEq

/-- Why there is no result: a faulty access, or an answer that never comes. -/
inductive Stop
  | fault (fault : Fault)
  | waiting
  deriving DecidableEq

abbrev SessionM (α : Type) := Except Stop α

/-- A call into the terminal. -/
def onTerminal {α : Type} (x : Checked α) : SessionM α := x.mapError Stop.fault

/-- The variables of `RunInteractiveSession` and what it has done. -/
structure Session where
  terminal : Terminal
  script : Script
  status : EfiStatus
  activity : Bool
  finished : Bool
  trace : List Event

namespace Session

/-- Record an event. -/
def record (s : Session) (e : Event) : Session := { s with trace := s.trace ++ [e] }

section Program

variable (ws : WolfSshErrors)

/-- `IsRetryableError` -/
def IsRetryableError (error : Int) : Prop :=
  error = ws.wantRead ∨ error = ws.wantWrite ∨ error = ws.windowFull ∨ error = ws.rekeying

instance (error : Int) : Decidable (IsRetryableError ws error) := by
  unfold IsRetryableError; infer_instance

/-- `SSH_SEND_RETRY_LIMIT` -/
def sendRetryLimit : Nat := 2000

/-- The loop of `SendAll`, over the answers of `wolfSSH_stream_send`: the status, and the
bytes that wolfSSH has taken, which are `taken` so far. -/
def sendFrom (bytes : List UInt8) :
    List SshSend → Nat → Nat → List UInt8 → SessionM (EfiStatus × List UInt8 × List SshSend)
  | [], offset, _, taken =>
      if offset < bytes.length then .error .waiting else .ok (efiSuccess, taken, [])
  | send :: rest, offset, retry, taken =>
      if offset < bytes.length then
        if 0 < send.result then
          sendFrom bytes rest (offset + send.result.toNat) 0
            (taken ++ (bytes.drop offset).take send.result.toNat)
        else if ¬ IsRetryableError ws send.error ∨ retry + 1 > sendRetryLimit then
          .ok (efiDeviceError, taken, rest)
        else sendFrom bytes rest offset (retry + 1) taken
      else .ok (efiSuccess, taken, send :: rest)

/-- `SendAll` -/
def sendAll (bytes : List UInt8) (sends : List SshSend) :
    SessionM (EfiStatus × List UInt8 × List SshSend) :=
  sendFrom ws bytes sends 0 0 []

/-- `DrainExtendedData` -/
def drainExtendedData :
    List SshRead → Terminal → SessionM (EfiStatus × Terminal × List SshRead)
  | [], _ => .error .waiting
  | read :: rest, t =>
      if 0 < read.result then do
        let t ← onTerminal (t.feed read.data)
        drainExtendedData rest t
      else if read.result = 0 ∨ IsRetryableError ws read.error then .ok (efiSuccess, t, rest)
      else .ok (efiDeviceError, t, rest)

/-- One round of the read burst, and whether there is another. -/
def readOnce (s : Session) : SessionM (Session × Bool) :=
  match s.script.reads with
  | [] => .error .waiting
  | read :: rest => do
      let s := { s with script.reads := rest }
      if 0 < read.result then do
        let t ← onTerminal (s.terminal.feed read.data)
        .ok ({ s with terminal := t, activity := true }.record .received, true)
      else if read.result = ws.extData ∨ read.error = ws.extData then do
        let (status, t, extended) ← drainExtendedData ws s.script.extended s.terminal
        .ok ({ s with
          terminal := t, script.extended := extended, status := status, activity := true
          finished := if EfiError status then true else s.finished }.record (.drained status), true)
      else if read.result = ws.eof ∨ read.error = ws.eof ∨ read.error = ws.channelClosed then
        .ok ({ s with finished := true }.record .endOfFile, false)
      else if read.error = ws.socketError then
        .ok ({ s with finished := true }.record .socketError, false)
      else if read.error = ws.rekeying then
        .ok ({ s with activity := true }.record .rekeyed, true)
      else if read.error = ws.wantRead ∨ read.error = ws.wantWrite ∨ read.result = 0 then
        .ok (s, false)
      else
        .ok ({ s with status := efiProtocolError, finished := true }.record .receiveFailed, false)

/-- The read burst, with `rounds` rounds left. -/
def burst : Nat → Session → SessionM Session
  | 0, s => .ok s
  | rounds + 1, s => do
      let (s, more) ← readOnce ws s
      if more then burst rounds s else .ok s

/-- `WolfSshTerminalFlush`, if there was activity. -/
def paint (s : Session) : SessionM Session :=
  if s.activity then do
    let t ← onTerminal s.terminal.flush
    .ok { s with terminal := t }
  else .ok s

/-- The reply loop; every round but the last takes a reply off the queue. -/
def replyFrom : Nat → Session → SessionM Session
  | 0, _ => .error .waiting
  | rounds + 1, s => do
      let (reply, t) ← onTerminal (s.terminal.takeResponse 128)
      let s := { s with terminal := t }
      if reply.length ≠ 0 then do
        let (status, taken, sends) ← sendAll ws reply s.script.sends
        let s := { s with script.sends := sends, status := status }.record
          (.replied reply taken status)
        if EfiError status then .ok { s with finished := true } else replyFrom rounds s
      else .ok s

def reply (s : Session) : SessionM Session := replyFrom ws (s.terminal.replyLength + 1) s

/-- The key loop, over what `ReadKeyStroke` gives. -/
def keyFrom : List KeyRead → Session → SessionM Session
  | [], s => if s.finished then .ok s else .error .waiting
  | read :: rest, s =>
      if s.finished then .ok s
      else do
        let key := readKey s.terminal.applicationCursor 16 read
        let s := { s with script.keys := rest, status := key.status }.record
          (.polled s.terminal.applicationCursor read)
        if key.status = efiNotReady then .ok { s with status := efiSuccess }
        else if EfiError key.status then .ok { s with finished := true }
        else if key.localExit then .ok { s with finished := true }
        else if key.length ≠ 0 then do
          let (status, taken, sends) ← sendAll ws key.bytes s.script.sends
          let s := { s with script.sends := sends, status := status }.record
            (.typed key.bytes taken status)
          if EfiError status then .ok { s with finished := true }
          else keyFrom rest { s with activity := true }
        else keyFrom rest s

def typeKeys (s : Session) : SessionM Session := keyFrom ws s.script.keys s

/-- One round of the session. -/
def round (s : Session) : SessionM Session := do
  let s ← burst ws 32 { s with activity := false }
  let s ← paint s
  let s ← reply ws s
  typeKeys ws s

/-- The loop of `RunInteractiveSession`; every round reads at least once. -/
def loop : Nat → Session → SessionM Session
  | 0, _ => .error .waiting
  | rounds + 1, s => if s.finished then .ok s else do loop rounds (← round ws s)

/-- `RunInteractiveSession`, with what `WolfSshTerminalCreate` returns: the status,
and what happened. -/
def runInteractiveSession (created : Option Terminal) (script : Script) :
    SessionM (EfiStatus × List Event) :=
  match created with
  | none => .ok (efiOutOfResources, [])
  | some t => do
      let s ← loop ws (script.reads.length + 2) ⟨t, script, efiSuccess, false, false, []⟩
      let _ ← onTerminal s.terminal.flush
      .ok (s.status, s.trace)

end Program

end Session

end WolfSshUefi
