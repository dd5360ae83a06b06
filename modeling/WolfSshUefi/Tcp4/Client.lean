import WolfSshUefi.Tcp4.Socket

/-!
# The TCP client

The functions of `Tcp4.c`.  The driver may complete a token between any two
statements that look at the flags it sets (`interrupt`).  The calls of the
firmware that the functions ignore the result of are moments as well.
-/

namespace WolfSshUefi.Tcp4

open Async

/-! ### Waiting -/

/-- `WOLFSSH_TCP_POLL_DELAY_US` -/
def pollDelay : Nat := 50

/-- `WOLFSSH_TCP_CONNECT_TIMEOUT_US` -/
def connectTimeout : Nat := 30000000

/-- `WOLFSSH_TCP_IO_TIMEOUT_US` -/
def ioTimeout : Nat := 30000000

/-- `WOLFSSH_TCP_CANCEL_TIMEOUT_US` -/
def cancelTimeout : Nat := 1000000

/-- The wait for the answer to `Close`. -/
def closeTimeout : Nat := 2000000

/-- The loop of `WaitForCompletion`, with `Remaining` microseconds left; every round
polls, and all but the last take time off. -/
def waitFrom (done : Net → Bool) : Nat → Nat → NetM EfiStatus
  | 0, _ => pure efiTimeout
  | rounds + 1, remaining => do
      interrupt
      if ← read done then pure efiSuccess
      else do
        interrupt                                 -- Protocol->Poll
        if ← read done then pure efiSuccess
        else if remaining = 0 then pure efiTimeout
        else do
          interrupt                               -- Stall
          waitFrom done rounds (remaining - min remaining pollDelay)

/-- `WaitForCompletion` -/
def waitForCompletion (done : Net → Bool) (timeout : Nat) : NetM EfiStatus :=
  waitFrom done (timeout + 1) timeout

/-- The loop of `CancelToken`. -/
def cancelFrom (done : Net → Bool) : Nat → Nat → NetM Unit
  | 0, _ => pure ()
  | rounds + 1, remaining => do
      interrupt
      if ¬ (← read done) ∧ remaining > 0 then do
        interrupt                                 -- Protocol->Poll
        interrupt                                 -- Stall
        cancelFrom done rounds (remaining - min remaining pollDelay)
      else pure ()

/-- `CancelToken` -/
def cancelToken (done : Net → Bool) : NetM Unit := do
  interrupt                                       -- Protocol->Cancel
  cancelFrom done (cancelTimeout + 1) cancelTimeout

def rxDone (n : Net) : Bool := n.socket.rxDone

def txDone (n : Net) : Bool := n.socket.txDone

/-! ### Receiving -/

/-- `Protocol->Receive` -/
def receive (place : Place) : NetM EfiStatus := do
  let m ← draw
  update fun n =>
    (if EfiError m.status then n.record (.refused place m.status)
      else { n.record (.accepted n.receives) with receives := n.receives + 1 }).completeAll
        m.completions
  pure m.status

/-- `PostReceive` -/
def postReceive (place : Place) : NetM EfiStatus := do
  interrupt
  if ← read fun n => n.socket.rxActive || n.socket.endOfStream then pure efiSuccess
  else do
    rewrite fun s => { s with rxToken := .zero }
    interrupt
    rewrite fun s => { s with rxData := .zero }
    interrupt
    setSocket fun s => { s with rxDone := false }
    interrupt
    setSocket fun s => { s with rxOffset := 0, rxLength := 0 }
    interrupt
    rewrite fun s => { s with rxData := ⟨false, rxCapacity, 1, rxCapacity⟩ }
    interrupt
    rewrite fun s => { s with rxToken := ⟨s.rxEvent, efiNotReady⟩ }
    interrupt
    let status ← receive place
    interrupt
    if EfiError status then pure status
    else do
      setSocket fun s => { s with rxActive := true }
      pure status

/-- `FinishReceive` -/
def finishReceive : NetM Unit := do
  interrupt
  if ← read fun n => !n.socket.rxActive || !n.socket.rxDone then pure ()
  else do
    setSocket fun s => { s with rxActive := false }
    interrupt
    setSocket fun s => { s with lastRxStatus := s.rxToken.status }
    interrupt
    let status ← read fun n => n.socket.lastRxStatus
    if status = efiConnectionFin then setSocket fun s => { s with endOfStream := true }
    else if EfiError status then pure ()
    else do
      setSocket fun s => { s with rxOffset := 0 }
      interrupt
      update fun n => { n with kept := [], socket.rxLength := n.socket.rxData.dataLength }

/-- `WolfSshTcp4Poll` -/
def poll : NetM Unit := do
  interrupt
  if ← read fun n => n.socket.protocol.isNone then pure ()
  else do
    interrupt                                     -- Protocol->Poll
    finishReceive

/-- What the callbacks return: bytes, or one of the codes `WS_CBIO_ERR_…`. -/
inductive RecvResult
  | bytes (data : List UInt8)
  | general
  | wantRead
  | connRst
  | connClose
  deriving DecidableEq, Repr

/-- The bytes that wolfSSH gets with a result. -/
def RecvResult.data : RecvResult → List UInt8
  | .bytes data => data
  | .general | .wantRead | .connRst | .connClose => []

/-- What `WolfSshTcp4RecvCallback` does once it has copied bytes: a buffer that is
used up is posted again. -/
def refill : NetM Unit := do
  if ← read fun n => n.socket.rxOffset == n.socket.rxLength then do
    setSocket fun s => { s with rxOffset := 0, rxLength := 0 }
    let status ← postReceive .drained
    interrupt
    if EfiError status then setSocket fun s => { s with lastRxStatus := status } else pure ()
  else pure ()

/-- The part of `WolfSshTcp4RecvCallback` for unread bytes. -/
def takeUnread (size : Nat) : NetM RecvResult := do
  let copyLength ← read fun n => min size (n.socket.rxLength - n.socket.rxOffset)
  interrupt
  let data ← read fun n =>                        -- CopyMem
    (List.range copyLength).map fun i => n.socket.rxBuffer (n.socket.rxOffset + i)
  interrupt
  setSocket fun s => { s with rxOffset := s.rxOffset + copyLength }
  interrupt
  refill
  interrupt
  update fun n => n.record (.returned data)
  pure (.bytes data)

/-- The part of `WolfSshTcp4RecvCallback` without unread bytes. -/
def reportIdle : NetM RecvResult := do
  interrupt
  if ← read fun n => n.socket.endOfStream then pure .connClose
  else do
    let status ← read fun n => n.socket.lastRxStatus
    if EfiError status ∧ status ≠ efiNotReady then
      pure (if status = efiConnectionReset then .connRst else .general)
    else do
      interrupt
      if ← read fun n => !n.socket.rxActive then do
        let status ← postReceive .idle
        pure (if EfiError status then .general else .wantRead)
      else pure .wantRead

/-- `WolfSshTcp4RecvCallback` with a buffer of `size` bytes. -/
def recvCallback (size : Nat) : NetM RecvResult :=
  if size = 0 then pure .general
  else do
    poll
    interrupt
    if ← read fun n => decide (n.socket.rxLength > n.socket.rxOffset) then takeUnread size
    else reportIdle

/-! ### Sending -/

inductive SendResult
  | sent (size : Nat)
  | general
  | connRst
  | timeout
  deriving DecidableEq, Repr

/-- `Protocol->Transmit`, of the transmission with this number. -/
def transmit (number : Nat) : NetM EfiStatus :=
  call
    (fun n => { n.record (.posted number n.transmits) with
      transmits := n.transmits ++ [number], calls := number + 1 })
    (fun n => { n with calls := number + 1 })

/-- The result of `WolfSshTcp4SendCallback` once its token is done. -/
def sendResult (size number : Nat) : NetM SendResult := do
  let status ← read fun n => n.socket.txToken.status
  if status = efiConnectionReset then pure .connRst
  else if EfiError status then pure .general
  else do
    update fun n => n.record (.sent number)
    pure (.sent size)

/-- The wait of `WolfSshTcp4SendCallback`. -/
def awaitTransmit (size number : Nat) : NetM SendResult := do
  let status ← waitForCompletion txDone ioTimeout
  if status = efiTimeout then do
    cancelToken txDone
    pure .timeout
  else sendResult size number

/-- `WolfSshTcp4SendCallback` with `size` bytes. -/
def sendCallback (size : Nat) : NetM SendResult := do
  if (← read fun n => n.socket.protocol.isNone) || size == 0 then pure .general
  else do
    rewriteTransmit fun s => { s with txToken := .zero }
    interrupt
    rewriteTransmit fun s => { s with txData := .zero }
    interrupt
    setSocket fun s => { s with txDone := false }
    interrupt
    rewriteTransmit fun s => { s with txData := ⟨true, size, 1, size⟩ }
    interrupt
    rewriteTransmit fun s => { s with txToken := ⟨s.txEvent, efiNotReady⟩ }
    interrupt
    let number ← read fun n => n.calls
    let status ← transmit number
    if EfiError status then pure .general else awaitTransmit size number

/-! ### Closing -/

def release (r : Resource) : NetM Unit := do
  update fun n => n.record (.released r)
  interrupt

/-- An event is closed, unless there is none. -/
def closeEvent : Option Resource → NetM Unit
  | some event => release event
  | none => pure ()

/-- The receive token is taken back. -/
def cancelReceive : NetM Unit := do
  if ← read fun n => n.socket.protocol.isSome && n.socket.rxActive && !n.socket.rxDone then do
    cancelToken rxDone
    setSocket fun s => { s with rxActive := false }
  else pure ()

/-- `Protocol->Close`, and the wait for it. -/
def closeConnection (abort : Bool) : NetM Unit := do
  let status ← call (fun n => { n.record (.closing abort) with closes := n.closes + 1 }) id
  if EfiError status then pure ()
  else do
    let _ ← waitForCompletion txDone closeTimeout
    pure ()

/-- The connection is closed and its configuration reset. -/
def shutDown (abort : Bool) : NetM Unit := do
  if ← read fun n => n.socket.protocol.isSome && n.socket.txEvent.isSome then do
    setSocket fun s => { s with txDone := false }
    closeConnection abort
    interrupt                                     -- Protocol->Configure
  else pure ()

/-- `Binding->DestroyChild`.  A child takes its tokens with it. -/
def destroyChild : Option Handle → Option Resource → NetM Unit
  | some _, some child => do
      release child
      update fun n => { n with receives := 0, transmits := [], closes := 0, connects := 0 }
  | _, _ => pure ()

/-- `WolfSshTcp4Close` -/
def close (abort : Bool) : NetM Unit := do
  interrupt
  cancelReceive
  shutDown abort
  let s ← read fun n => n.socket
  destroyChild s.binding s.child
  closeEvent s.rxEvent
  closeEvent s.txEvent
  setSocket fun _ => .zero

/-! ### Connecting -/

/-- A call that creates a resource. -/
def create (kind : Kind) (keep : Resource → Net → Net) : NetM EfiStatus := do
  let r : Resource ← read fun n => ⟨kind, n.serial⟩
  call (fun n => keep r { n.record (.created r) with serial := n.serial + 1 }) id

/-- `Configure`, again while there is no mapping; `Retry` rounds are left. -/
def configureFrom : Nat → EfiStatus → NetM EfiStatus
  | 0, status => pure status
  | retry + 1, _ => do
      let status ← call id id
      if status ≠ efiNoMapping then pure status
      else do
        interrupt                                 -- Stall
        configureFrom retry status

/-- What `OpenOnController` does about a failure. -/
def giveUp (status : EfiStatus) : NetM EfiStatus := do
  close true
  pure status

/-- The wait for the connection, and what comes of it. -/
def awaitConnect (status : EfiStatus) : NetM EfiStatus :=
  if EfiError status then pure status
  else waitForCompletion (fun n => n.connectDone) connectTimeout

def cancelConnect (status : EfiStatus) : NetM Unit :=
  if status = efiTimeout then cancelToken fun n => n.connectDone else pure ()

def connectResult (status : EfiStatus) : NetM EfiStatus :=
  if EfiError status then pure status else read fun n => n.connectStatus

/-- The first receive token is posted. -/
def startReceiving : NetM EfiStatus := do
  let status ← postReceive .opening
  if EfiError status then giveUp status else pure efiSuccess

/-- The end of `OpenOnController`, with the connection event. -/
def connectWith (event : Resource) : NetM EfiStatus := do
  update fun n => { n with connectStatus := efiNotReady }
  let status ← call (fun n => { n with connects := n.connects + 1 }) id  -- Protocol->Connect
  let status ← awaitConnect status
  cancelConnect status
  let status ← connectResult status
  release event                                   -- CloseEvent
  if EfiError status then giveUp status else startReceiving

/-- `OpenOnController` -/
def openOnController (controller : Handle) : NetM EfiStatus := do
  rewrite fun _ => { Socket.zero with controller := some controller, lastRxStatus := efiNotReady }
  let status ← call (fun n => { n with socket.binding := some controller }) id  -- HandleProtocol
  if EfiError status then giveUp status
  else do
  let status ← create (.child controller) fun r n => { n with socket.child := some r }
  if EfiError status then giveUp status
  else do
  let status ← call (fun n => { n with socket.protocol := n.socket.child }) id  -- HandleProtocol
  if EfiError status then giveUp status
  else do
  let status ← create .rxEvent fun r n => { n with socket.rxEvent := some r }
  if EfiError status then giveUp status
  else do
  let status ← create .txEvent fun r n => { n with socket.txEvent := some r }
  if EfiError status then giveUp status
  else do
  let status ← configureFrom 100 status
  if EfiError status then giveUp status
  else do
  update fun n => { n with connectDone := false }
  let event ← read fun n => (⟨.connectEvent, n.serial⟩ : Resource)
  let status ← create .connectEvent fun _ n => n
  if EfiError status then giveUp status else connectWith event

/-- The loop of `WolfSshTcp4Connect`. -/
def connectFrom : List Handle → EfiStatus → NetM EfiStatus
  | [], status => pure status
  | handle :: rest, _ => do
      let m ← draw                                -- NetLibDetectMediaWaitTimeout
      update fun n => n.completeAll m.completions
      if ¬ EfiError m.status ∧ m.mediaState ≠ efiSuccess then connectFrom rest m.mediaState
      else do
        let status ← openOnController handle
        if EfiError status then connectFrom rest status else pure status

/-- `WolfSshTcp4Connect`, with what `LocateHandleBuffer` gives: its status and the
controllers. -/
def connect (remotePort : UInt16) (located : EfiStatus) (handles : List Handle) :
    NetM EfiStatus := do
  if remotePort = 0 then pure efiInvalidParameter
  else if EfiError located then pure located
  else connectFrom handles efiNotFound

/-! ### Runs -/

/-- A call on a connected socket, or a moment without one. -/
inductive NetCall
  | recv (size : Nat)
  | poll
  | send (size : Nat)
  | pass

/-- What a call gives. -/
inductive NetResult
  | received (result : RecvResult)
  | sent (result : SendResult)
  | quiet
  deriving DecidableEq

/-- The bytes that wolfSSH gets with the result of a call. -/
def NetResult.bytes : NetResult → List UInt8
  | .received result => result.data
  | .sent _ | .quiet => []

/-- One call, with its result. -/
def perform : NetCall → NetM NetResult
  | .recv size => do
      let result ← recvCallback size
      pure (.received result)
  | .poll => do
      poll
      pure .quiet
  | .send size => do
      let result ← sendCallback size
      pure (.sent result)
  | .pass => do
      interrupt
      pure .quiet

/-- Calls one after the other, and what they give; the driver acts before each of them. -/
def run : List NetCall → NetM (List NetResult)
  | [] => pure []
  | c :: rest => do
      interrupt
      let result ← perform c
      let results ← run rest
      pure (result :: results)

/-! ### What the driver cannot break -/

/-- Completing a token keeps the assertion. -/
def Stable (P : Net → Prop) : Prop := ∀ n c, P n → P (n.complete c)

namespace Stable

variable {P : Net → Prop}

/-- What the driver keeps in one completion it keeps in all of them. -/
theorem completeAll (h : Stable P) {n : Net} (hn : P n) (completions : List Completion) :
    P (n.completeAll completions) := by
  induction completions generalizing n with
  | nil => exact hn
  | cons c rest ih => exact ih (h n c hn)

theorem interrupt (h : Stable P) : Keeps P interrupt :=
  .bind .draw fun m => .update fun _ hn => h.completeAll hn m.completions

theorem waitFrom (h : Stable P) (done : Net → Bool) (rounds remaining : Nat) :
    Keeps P (waitFrom done rounds remaining) := by
  induction rounds generalizing remaining with
  | zero => exact .pure _
  | succ rounds ih =>
      refine .bind h.interrupt fun _ => .bind (.read _) fun _ => .ite (.pure _) ?_
      refine .bind h.interrupt fun _ => .bind (.read _) fun _ => .ite (.pure _) ?_
      exact .ite (.pure _) (.bind h.interrupt fun _ => ih _)

/-- The whole of it. -/
theorem waitForCompletion (h : Stable P) (done : Net → Bool) (timeout : Nat) :
    Keeps P (waitForCompletion done timeout) :=
  h.waitFrom done _ _

/-- And over a wait for a cancellation. -/
theorem cancelFrom (h : Stable P) (done : Net → Bool) (rounds remaining : Nat) :
    Keeps P (cancelFrom done rounds remaining) := by
  induction rounds generalizing remaining with
  | zero => exact .pure _
  | succ rounds ih =>
      refine .bind h.interrupt fun _ => .bind (.read _) fun _ => .ite ?_ (.pure _)
      exact .bind h.interrupt fun _ => .bind h.interrupt fun _ => ih _

/-- The whole of that. -/
theorem cancelToken (h : Stable P) (done : Net → Bool) : Keeps P (cancelToken done) :=
  .bind h.interrupt fun _ => h.cancelFrom done _ _

end Stable

/-- A call does what it does, and then the driver what it likes. -/
theorem call_cases {P S F : Net → Prop} (hS : Stable S) (hF : Stable F)
    {success failure : Net → Net} (hsuccess : ∀ n, P n → S (success n))
    (hfailure : ∀ n, P n → F (failure n)) :
    Triple P (call success failure) fun status n => if EfiError status then F n else S n := by
  refine .bind .draw fun m => .bind (Q := fun _ n => if EfiError m.status then F n else S n)
    (.update fun n hn => ?_) fun _ => .pure fun _ h => h
  split
  · exact hF.completeAll (hfailure n hn) _
  · exact hS.completeAll (hsuccess n hn) _

/-- A call of the driver, by what it does if it succeeds and if it fails. -/
theorem Stable.call {P P' : Net → Prop} (h : Stable P) {success failure : Net → Net}
    (hsuccess : ∀ n, P' n → P (success n)) (hfailure : ∀ n, P' n → P (failure n)) :
    Triple P' (call success failure) fun _ => P :=
  (call_cases h h hsuccess hfailure).post fun status n hn => by
    split at hn <;> exact hn

/-- The loop of `WaitForCompletion` has rounds to spare: it ends by its time. -/
theorem waitFrom_rounds {done : Net → Bool} {rounds rounds' remaining : Nat}
    (h : remaining < rounds) (h' : remaining < rounds') :
    waitFrom done rounds remaining = waitFrom done rounds' remaining := by
  induction rounds generalizing rounds' remaining with
  | zero => exact absurd h (Nat.not_lt_zero _)
  | succ rounds ih =>
      cases rounds' with
      | zero => exact absurd h' (Nat.not_lt_zero _)
      | succ rounds' =>
          by_cases hzero : remaining = 0
          · simp only [waitFrom, if_pos hzero]
          · have hless : remaining - min remaining pollDelay < rounds ∧
                remaining - min remaining pollDelay < rounds' := by
              unfold pollDelay
              omega
            simp only [waitFrom, ih hless.1 hless.2]

end WolfSshUefi.Tcp4
