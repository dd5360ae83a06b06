import WolfSshUefi.Efi
import WolfSshUefi.Library.Async

/-!
# The socket and the driver

`WOLFSSH_UEFI_TCP4`, and the firmware it is used with.  The driver owns a token
from the moment a call accepts it until it completes the token, which it may do
at any moment: inside a call, or between two statements of the program.  What it
does is a stream of moments.  What happens is recorded in a trace.
-/

namespace WolfSshUefi.Tcp4

/-- `WOLFSSH_UEFI_RX_CAPACITY` -/
def rxCapacity : Nat := 16384

abbrev Handle := Nat

/-- What the program creates and has to release. -/
inductive Kind
  | child (controller : Handle)
  | rxEvent
  | txEvent
  | connectEvent
  deriving DecidableEq, Repr

/-- A child handle or an event, told apart from all others by a number. -/
structure Resource where
  kind : Kind
  serial : Nat
  deriving DecidableEq, Repr

/-- `EFI_TCP4_COMPLETION_TOKEN` -/
structure CompletionToken where
  event : Option Resource
  status : EfiStatus

/-- `EFI_TCP4_RECEIVE_DATA` or `EFI_TCP4_TRANSMIT_DATA`, with one fragment: the
lengths, and `Push`. -/
structure TokenData where
  push : Bool
  dataLength : Nat
  fragmentCount : Nat
  fragmentLength : Nat

/-- `WOLFSSH_UEFI_TCP4` -/
structure Socket where
  controller : Option Handle
  child : Option Resource
  binding : Option Handle
  protocol : Option Resource
  rxEvent : Option Resource
  txEvent : Option Resource
  rxDone : Bool
  txDone : Bool
  rxToken : CompletionToken
  txToken : CompletionToken
  rxData : TokenData
  txData : TokenData
  rxBuffer : Nat → UInt8
  rxOffset : Nat
  rxLength : Nat
  rxActive : Bool
  endOfStream : Bool
  lastRxStatus : EfiStatus

def CompletionToken.zero : CompletionToken := ⟨none, 0⟩

def TokenData.zero : TokenData := ⟨false, 0, 0, 0⟩

/-- `ZeroMem (Socket, sizeof (*Socket))` -/
def Socket.zero : Socket where
  controller := none
  child := none
  binding := none
  protocol := none
  rxEvent := none
  txEvent := none
  rxDone := false
  txDone := false
  rxToken := .zero
  txToken := .zero
  rxData := .zero
  txData := .zero
  rxBuffer := fun _ => 0
  rxOffset := 0
  rxLength := 0
  rxActive := false
  endOfStream := false
  lastRxStatus := efiSuccess

/-- `Socket->RxBuffer[RxOffset .. RxLength)` -/
def Socket.unread (s : Socket) : List UInt8 :=
  (List.range (s.rxLength - s.rxOffset)).map fun i => s.rxBuffer (s.rxOffset + i)

/-! ### The driver -/

/-- Received data, as much as fits into the buffer. -/
structure Packet where
  bytes : List UInt8
  length_le : bytes.length ≤ rxCapacity

/-- A status that is an error. -/
structure Failure where
  status : EfiStatus
  error : EfiError status

/-- The driver completes a token that it owns. -/
inductive Completion
  | received (packet : Packet)
  | receiveFailed (failure : Failure)
  | transmitted (index : Nat) (status : EfiStatus)
  | connected (status : EfiStatus)
  | closed

/-- What the firmware does at a moment: the status that a call gives back,
`MediaState`, and the tokens that the driver completes. -/
structure Moment where
  status : EfiStatus
  mediaState : EfiStatus
  completions : List Completion

/-- Where `PostReceive` is called. -/
inductive Place
  | opening        -- `OpenOnController`
  | drained        -- the last unread byte was taken
  | idle           -- nothing is unread
  deriving DecidableEq, Repr

/-- What happens on the network. -/
inductive NetEvent
  | created (resource : Resource)
  | released (resource : Resource)
  | accepted (owned : Nat)                       -- a receive token, beside others
  | refused (place : Place) (status : EfiStatus) -- `Receive` fails
  | arrived (bytes : List UInt8)                 -- a receive token completes with data
  | failed (status : EfiStatus)                  -- or with an error
  | rewrote (owned : Nat) (kept : List UInt8)    -- the program writes to the receive token
  | returned (bytes : List UInt8)                -- the receive callback gives data
  | rewroteTransmit (owned : List Nat)           -- the program writes to the transmit token
  | posted (call : Nat) (owned : List Nat)       -- a transmit token is accepted
  | transmitted (call : Nat) (status : EfiStatus)
  | sent (call : Nat)                            -- the send callback gives `Size`
  | closing (abort : Bool)                       -- a close token is accepted
  deriving DecidableEq

/-- The driver completes a token. -/
def NetEvent.ByDriver : NetEvent → Prop
  | .arrived _ | .failed _ | .transmitted _ _ => True
  | _ => False

/-- The socket, the variables of `OpenOnController` for its connection token, the
tokens that the driver owns, and what happened. -/
structure Net where
  socket : Socket
  connectStatus : EfiStatus
  connectDone : Bool
  receives : Nat
  transmits : List Nat
  connects : Nat
  closes : Nat
  kept : List UInt8      -- data of a completed token, before `FinishReceive` takes it
  calls : Nat            -- transmissions so far
  serial : Nat           -- resources so far
  trace : List NetEvent

/-- Before `WolfSshTcp4Connect`. -/
def Net.start : Net where
  socket := .zero
  connectStatus := efiSuccess
  connectDone := false
  receives := 0
  transmits := []
  connects := 0
  closes := 0
  kept := []
  calls := 0
  serial := 0
  trace := []

namespace Net

def record (n : Net) (e : NetEvent) : Net := { n with trace := n.trace ++ [e] }

/-- The driver completes a token, if it owns one of this kind, and `NetworkNotify`
sets the flag. -/
def complete (n : Net) : Completion → Net
  | .received packet =>
      if n.receives = 0 then n
      else
        { n with
          receives := n.receives - 1
          kept := n.kept ++ packet.bytes
          socket.rxToken.status := efiSuccess
          socket.rxData.dataLength := packet.bytes.length
          socket.rxBuffer := fun i => packet.bytes.getD i (n.socket.rxBuffer i)
          socket.rxDone := true
          trace := n.trace ++ [.arrived packet.bytes] }
  | .receiveFailed failure =>
      if n.receives = 0 then n
      else
        { n with
          receives := n.receives - 1
          socket.rxToken.status := failure.status
          socket.rxDone := true
          trace := n.trace ++ [.failed failure.status] }
  | .transmitted index status =>
      match n.transmits[index]? with
      | none => n
      | some call =>
          { n with
            transmits := n.transmits.eraseIdx index
            socket.txToken.status := status
            socket.txDone := true
            trace := n.trace ++ [.transmitted call status] }
  | .connected status =>
      if n.connects = 0 then n
      else { n with connects := n.connects - 1, connectStatus := status, connectDone := true }
  | .closed =>
      if n.closes = 0 then n
      else { n with closes := n.closes - 1, socket.txDone := true }

def completeAll (n : Net) (completions : List Completion) : Net := completions.foldl complete n

/-! What a completion can change. -/

/-- A completion fills in the tokens of the socket only. -/
theorem complete_socket (n : Net) (c : Completion) :
    ∃ rxDone txDone rxToken txToken rxData rxBuffer, (n.complete c).socket = { n.socket with
      rxDone := rxDone, txDone := txDone, rxToken := rxToken, txToken := txToken
      rxData := rxData, rxBuffer := rxBuffer } := by
  cases c
  all_goals
    simp only [complete]
    split
    all_goals exact ⟨_, _, _, _, _, _, rfl⟩

/-- It creates nothing. -/
theorem complete_serial (n : Net) (c : Completion) : (n.complete c).serial = n.serial := by
  cases c
  all_goals
    simp only [complete]
    split
    all_goals rfl

/-- It is one event of the driver, or none. -/
theorem complete_trace (n : Net) (c : Completion) :
    (n.complete c).trace = n.trace ∨
      ∃ e : NetEvent, e.ByDriver ∧ (n.complete c).trace = n.trace ++ [e] := by
  cases c with
  | received packet =>
      simp only [complete]
      split
      · exact .inl rfl
      · exact .inr ⟨.arrived packet.bytes, trivial, rfl⟩
  | receiveFailed failure =>
      simp only [complete]
      split
      · exact .inl rfl
      · exact .inr ⟨.failed failure.status, trivial, rfl⟩
  | transmitted index status =>
      simp only [complete]
      split
      · exact .inl rfl
      · exact .inr ⟨.transmitted _ status, trivial, rfl⟩
  | connected status =>
      simp only [complete]
      split
      all_goals exact .inl rfl
  | closed =>
      simp only [complete]
      split
      all_goals exact .inl rfl

end Net

/-- A part of the program. -/
abbrev NetM (α : Type) := Async Moment Net α

open Async

/-- A moment between two statements. -/
def interrupt : NetM Unit := do
  let m ← draw
  update fun n => n.completeAll m.completions

/-- A call of the firmware that has these effects when it succeeds and when it fails. -/
def call (success failure : Net → Net) : NetM EfiStatus := do
  let m ← draw
  update fun n =>
    (if EfiError m.status then failure n else success n).completeAll m.completions
  pure m.status

/-- Change the socket. -/
def setSocket (f : Socket → Socket) : NetM Unit := update fun n => { n with socket := f n.socket }

/-- Write to `RxToken`, `RxData` or `RxBuffer`. -/
def rewrite (f : Socket → Socket) : NetM Unit :=
  update fun n => { n.record (.rewrote n.receives (n.socket.unread ++ n.kept)) with
    socket := f n.socket }

/-- Write to `TxToken` or `TxData`. -/
def rewriteTransmit (f : Socket → Socket) : NetM Unit :=
  update fun n => { n.record (.rewroteTransmit n.transmits) with socket := f n.socket }

end WolfSshUefi.Tcp4
