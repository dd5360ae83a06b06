import WolfSshUefi.Library.Costs
import WolfSshUefi.Tcp4.Client

/-!
# The client does not hang

Every wait of the client has a timeout.  So whatever the driver does, and however slowly, a
connection attempt on one controller, a call on the socket and its closing each give the
firmware the word a bounded number of times (`client_bounded`).
-/

namespace WolfSshUefi.Tcp4

open Async

/-! ### The waits -/

/-- The polls of a wait, and the delays between them. -/
def waitCost (timeout : Nat) : Nat := 3 * ((timeout + 49) / 50) + 2

/-- A moment is one draw. -/
theorem interrupt_draws : Draws 1 interrupt := .bind .draw fun _ => .update _

theorem call_draws (success failure : Net → Net) : Draws 1 (call success failure) :=
  .spend .draw fun _ => .free (.update _) fun _ => .pure _ 0

/-- Each round takes off a delay, or what is left. -/
theorem waitFrom_draws (done : Net → Bool) (rounds remaining : Nat) :
    Draws (waitCost remaining) (waitFrom done rounds remaining) := by
  induction rounds generalizing remaining with
  | zero => exact .pure _ _
  | succ rounds ih =>
      have hround : Draws (3 * ((remaining + 49) / 50)) (if remaining = 0 then pure efiTimeout
          else do
            interrupt
            waitFrom done rounds (remaining - min remaining pollDelay)) := by
        by_cases hzero : remaining = 0
        · rw [if_pos hzero]
          exact .pure _ _
        · rw [if_neg hzero]
          refine (interrupt_draws.bind fun _ => ih _).mono ?_
          unfold waitCost pollDelay
          omega
      refine .spend interrupt_draws fun _ => .free (.read _) fun _ => .ite (.pure _ _) ?_
      exact .spend interrupt_draws fun _ => .free (.read _) fun _ => .ite (.pure _ _) hround

/-- A wait polls and stalls until its timeout has passed. -/
theorem waitForCompletion_draws (done : Net → Bool) (timeout : Nat) :
    Draws (waitCost timeout) (waitForCompletion done timeout) :=
  waitFrom_draws done _ timeout

/-- A wait for a cancellation draws three times for each delay, and once more. -/
theorem cancelFrom_draws (done : Net → Bool) (rounds remaining : Nat) :
    Draws (3 * ((remaining + 49) / 50) + 1) (cancelFrom done rounds remaining) := by
  induction rounds generalizing remaining with
  | zero => exact .pure _ _
  | succ rounds ih =>
      refine .spend interrupt_draws fun _ => .free (.read _) fun finished => ?_
      by_cases hmore : ¬ finished = true ∧ remaining > 0
      · rw [if_pos hmore]
        refine Draws.mono (.spend interrupt_draws fun _ => .spend interrupt_draws fun _ => ih _) ?_
        unfold pollDelay
        omega
      · rw [if_neg hmore]
        exact .pure _ _

/-- `CancelToken` waits for a fixed time. -/
theorem cancelToken_draws (done : Net → Bool) : Draws 60002 (cancelToken done) :=
  .spend interrupt_draws fun _ => cancelFrom_draws done _ cancelTimeout

/-! ### The calls -/

/-- `PostReceive` draws at most nine times, with its recovery. -/
theorem postReceive_draws (place : Place) : Draws 9 (postReceive place) := by
  have hreceive : Draws 1 (receive place) :=
    .spend .draw fun _ => .free (.update _) fun _ => .pure _ 0
  refine .spend interrupt_draws fun _ => .free (.read _) fun _ => .ite (.pure _ _) ?_
  refine .free (.update _) fun _ => .spend interrupt_draws fun _ => ?_
  refine .free (.update _) fun _ => .spend interrupt_draws fun _ => ?_
  refine .free (.update _) fun _ => .spend interrupt_draws fun _ => ?_
  refine .free (.update _) fun _ => .spend interrupt_draws fun _ => ?_
  refine .free (.update _) fun _ => .spend interrupt_draws fun _ => ?_
  refine .free (.update _) fun _ => .spend interrupt_draws fun _ => ?_
  refine .spend hreceive fun _ => .spend interrupt_draws fun _ => .ite (.pure _ _) ?_
  exact .free (.update _) fun _ => .pure _ 0

/-- The end of a reception recovers at most once. -/
theorem finishReceive_draws : Draws 4 finishReceive := by
  refine .spend interrupt_draws fun _ => .free (.read _) fun _ => .ite (.pure _ _) ?_
  refine .free (.update _) fun _ => .spend interrupt_draws fun _ => ?_
  refine .free (.update _) fun _ => .spend interrupt_draws fun _ => .free (.read _) fun _ => ?_
  refine .ite (.mono (.update _) (Nat.zero_le 1)) (.ite (.pure _ _) ?_)
  exact .free (.update _) fun _ => .spend interrupt_draws fun _ => .update _

/-- A poll may end a reception. -/
theorem poll_draws : Draws 6 poll := by
  refine .spend interrupt_draws fun _ => .free (.read _) fun _ => .ite (.pure _ _) ?_
  exact .spend interrupt_draws fun _ => finishReceive_draws

/-- Handing over what is there may post the token again. -/
theorem takeUnread_draws (size : Nat) : Draws 14 (takeUnread size) := by
  have hrefill : Draws 10 refill := by
    refine .free (.read _) fun _ => .ite ?_ (.pure _ _)
    refine .free (.update _) fun _ => .bind (postReceive_draws _) fun _ => ?_
    exact .spend interrupt_draws fun _ => .ite (.update _) (.pure _ 0)
  refine .free (.read _) fun _ => .spend interrupt_draws fun _ => .free (.read _) fun _ => ?_
  refine .spend interrupt_draws fun _ => .free (.update _) fun _ => ?_
  refine .spend interrupt_draws fun _ => Draws.bind hrefill fun _ => ?_
  exact .spend interrupt_draws fun _ => .free (.update _) fun _ => .pure _ 0

/-- An idle report polls, and asks for the media state. -/
theorem reportIdle_draws : Draws 11 reportIdle := by
  refine .spend interrupt_draws fun _ => .free (.read _) fun _ => .ite (.pure _ _) ?_
  refine .free (.read _) fun _ => .ite (.pure _ _) ?_
  refine .spend interrupt_draws fun _ => .free (.read _) fun _ => .ite ?_ (.pure _ _)
  exact .bind (postReceive_draws _) fun _ => .pure _ 0

/-- **A receive callback does not wait.** -/
theorem recvCallback_draws (size : Nat) : Draws 21 (recvCallback size) := by
  refine .ite (.pure _ _) ?_
  refine Draws.bind poll_draws fun _ => .spend interrupt_draws fun _ => ?_
  refine .free (.read _) fun _ => .ite (takeUnread_draws size) ?_
  exact reportIdle_draws.mono (by decide)

/-- Five writes to the token, the call, the wait and the cancellation. -/
def sendCost : Nat := 60002 + waitCost ioTimeout + 6

/-- **A send callback waits for one token at most**, or for its cancellation. -/
theorem sendCallback_draws (size : Nat) : Draws sendCost (sendCallback size) := by
  have hresult (number : Nat) : Draws 0 (sendResult size number) := by
    refine .free (.read _) fun _ => .ite (.pure _ _) (.ite (.pure _ _) ?_)
    exact .free (.update _) fun _ => .pure _ 0
  have hawait (number : Nat) : Draws (60002 + waitCost ioTimeout) (awaitTransmit size number) := by
    refine .bind (waitForCompletion_draws _ _) fun _ => .ite ?_ ((hresult number).mono ?_)
    · exact (cancelToken_draws _).bind fun _ => .pure _ 0
    · exact Nat.zero_le _
  refine .free (.read _) fun _ => .ite (.pure _ _) ?_
  refine .free (.update _) fun _ => .spend interrupt_draws fun _ => ?_
  refine .free (.update _) fun _ => .spend interrupt_draws fun _ => ?_
  refine .free (.update _) fun _ => .spend interrupt_draws fun _ => ?_
  refine .free (.update _) fun _ => .spend interrupt_draws fun _ => ?_
  refine .free (.update _) fun _ => .spend interrupt_draws fun _ => .free (.read _) fun _ => ?_
  exact .spend (call_draws _ _) fun _ => .ite (.pure _ _) (hawait _)

/-! ### Closing and opening -/

/-- The receive token is taken back, the close is awaited, and three resources are released. -/
def closeCost : Nat := 60003 + waitCost closeTimeout + 5

/-- A release is one call. -/
theorem release_draws (r : Resource) : Draws 1 (release r) :=
  .free (.update _) fun _ => interrupt_draws

/-- An event is closed by one call at most. -/
theorem closeEvent_draws (event : Option Resource) : Draws 1 (closeEvent event) := by
  cases event with
  | none => exact .pure _ _
  | some event => exact release_draws event

/-- Closing waits for the receive token and for the connection. -/
theorem close_draws (abort : Bool) : Draws closeCost (close abort) := by
  have hcancel : Draws 60002 cancelReceive := by
    refine .free (.read _) fun _ => .ite ?_ (.pure _ _)
    exact Draws.mono (.bind (cancelToken_draws _) fun _ => .update _) (Nat.le_refl 60002)
  have hconnection : Draws (waitCost closeTimeout + 1) (closeConnection abort) := by
    refine .spend (call_draws _ _) fun _ => .ite (.pure _ _) ?_
    exact Draws.mono (.bind (waitForCompletion_draws _ _) fun _ => .pure _ 0)
      (Nat.le_of_eq (Nat.zero_add _))
  have hshut : Draws (waitCost closeTimeout + 2) (shutDown abort) := by
    refine .free (.read _) fun _ => .ite (.free (.update _) fun _ => ?_) (.pure _ _)
    exact Draws.mono (.bind hconnection fun _ => interrupt_draws) (by omega)
  have hdestroy (binding : Option Handle) (child : Option Resource) :
      Draws 1 (destroyChild binding child) := by
    cases binding with
    | none => exact .pure _ _
    | some binding =>
        cases child with
        | none => exact .pure _ _
        | some child => exact .spend (release_draws child) fun _ => .update _
  have hrest (s : Socket) : Draws 3 (do
      destroyChild s.binding s.child
      closeEvent s.rxEvent
      closeEvent s.txEvent
      setSocket fun _ => .zero) :=
    .spend (hdestroy _ _) fun _ => .spend (closeEvent_draws _) fun _ =>
      .spend (closeEvent_draws _) fun _ => .update _
  refine Draws.mono (.spend interrupt_draws fun _ => .bind hcancel fun _ => .bind hshut fun _ =>
    .free (.read _) fun s => hrest s) ?_
  unfold closeCost
  omega

/-- Everything that `OpenOnController` may wait for. -/
def openCost : Nat := closeCost + waitCost connectTimeout + 60219

/-- Giving up is closing. -/
theorem giveUp_draws (status : EfiStatus) : Draws closeCost (giveUp status) :=
  Draws.mono (.bind (close_draws true) fun _ => .pure _ 0) (Nat.le_of_eq (Nat.zero_add _))

/-- A creation is one call. -/
theorem create_draws (kind : Kind) (keep : Resource → Net → Net) : Draws 1 (create kind keep) :=
  .free (.read _) fun _ => call_draws _ _

/-- Each try to configure is a call and a stall. -/
theorem configureFrom_draws (retry : Nat) (status : EfiStatus) :
    Draws (2 * retry) (configureFrom retry status) := by
  induction retry generalizing status with
  | zero => exact .pure _ _
  | succ retry ih =>
      refine .spend (call_draws _ _) fun _ => .ite (.pure _ _) ?_
      exact .spend interrupt_draws fun _ => ih _

/-- A connection waits for its token, or for its cancellation. -/
theorem connectWith_draws (event : Resource) :
    Draws (closeCost + waitCost connectTimeout + 60013) (connectWith event) := by
  have hawait (status : EfiStatus) : Draws (waitCost connectTimeout) (awaitConnect status) :=
    .ite (.pure _ _) (waitForCompletion_draws _ _)
  have hcancel (status : EfiStatus) : Draws 60002 (cancelConnect status) :=
    .ite (cancelToken_draws _) (.pure _ _)
  have hresult (status : EfiStatus) : Draws 0 (connectResult status) :=
    .ite (.pure _ _) (.read _)
  have hstart : Draws (closeCost + 9) startReceiving :=
    .bind (postReceive_draws _) fun _ => .ite (giveUp_draws _) (.pure _ _)
  have hgiveUp (status : EfiStatus) : Draws (closeCost + 9) (giveUp status) :=
    (giveUp_draws status).mono (by omega)
  refine Draws.mono (.free (.update _) fun _ => .spend (call_draws _ _) fun _ =>
    .bind (hawait _) fun _ => .bind (hcancel _) fun _ => .free (hresult _) fun _ =>
      .spend (release_draws event) fun _ => .ite (hgiveUp _) hstart) ?_
  omega

/-- **Opening one controller has a fixed cost.** -/
theorem openOnController_draws (controller : Handle) :
    Draws openCost (openOnController controller) := by
  have hgiveUp (c : Nat) (status : EfiStatus) :
      Draws (closeCost + waitCost connectTimeout + c) (giveUp status) :=
    (giveUp_draws status).mono (by omega)
  have hconfigure (status : EfiStatus) : Draws 200 (configureFrom 100 status) :=
    configureFrom_draws 100 status
  unfold openCost
  refine .free (.update _) fun _ => .spend (call_draws _ _) fun _ => .ite (hgiveUp _ _) ?_
  refine .spend (create_draws _ _) fun _ => .ite (hgiveUp _ _) ?_
  refine .spend (call_draws _ _) fun _ => .ite (hgiveUp _ _) ?_
  refine .spend (create_draws _ _) fun _ => .ite (hgiveUp _ _) ?_
  refine .spend (create_draws _ _) fun _ => .ite (hgiveUp _ _) ?_
  refine Draws.bind (b := closeCost + waitCost connectTimeout + 60014) (hconfigure _) fun _ => ?_
  refine .ite (hgiveUp _ _) (.free (.update _) fun _ => .free (.read _) fun event => ?_)
  exact .spend (create_draws _ _) fun _ => .ite (hgiveUp _ _) (connectWith_draws event)

/-- The controllers are tried one after the other. -/
theorem connectFrom_draws (handles : List Handle) (status : EfiStatus) :
    Draws (handles.length * (openCost + 1)) (connectFrom handles status) := by
  induction handles generalizing status with
  | nil => exact .pure _ _
  | cons handle rest ih =>
      have hopen : Draws (rest.length * (openCost + 1) + openCost) (do
          let status ← openOnController handle
          if EfiError status then connectFrom rest status else pure status) :=
        .bind (openOnController_draws handle) fun _ => .ite (ih _) (.pure _ _)
      rw [List.length_cons, Nat.succ_mul, ← Nat.add_assoc]
      refine .spend .draw fun _ => .free (.update _) fun _ => .ite ?_ hopen
      exact (ih _).mono (Nat.le_add_right _ _)

/-- No call costs more than a send. -/
theorem perform_draws (c : NetCall) : Draws sendCost (perform c) := by
  cases c with
  | recv size =>
      have hrecv : Draws 21 (perform (.recv size)) := (recvCallback_draws size).map _
      exact hrecv.mono (by unfold sendCost; omega)
  | poll =>
      have hpoll : Draws 6 (perform .poll) := poll_draws.map _
      exact hpoll.mono (by unfold sendCost; omega)
  | send size => exact (sendCallback_draws size).map _
  | pass =>
      have hpass : Draws 1 (perform .pass) := interrupt_draws.map _
      exact hpass.mono (by unfold sendCost; omega)

/-- The calls of a run, one after the other. -/
theorem run_draws (calls : List NetCall) : Draws (calls.length * (sendCost + 1)) (run calls) := by
  induction calls with
  | nil => exact .pure _ _
  | cons c rest ih =>
      rw [List.length_cons, Nat.succ_mul, ← Nat.add_assoc]
      refine .spend interrupt_draws fun _ => Draws.bind (a := sendCost) (perform_draws c) fun _ => ?_
      exact ih.map _

/-! ### A connection -/

/-- A connection from its beginning to its end: `WolfSshTcp4Connect`, and if it succeeds, calls
on the socket and `WolfSshTcp4Close`. -/
def connection (remotePort : UInt16) (located : EfiStatus) (handles : List Handle)
    (calls : List NetCall) (abort : Bool) : NetM Unit := do
  let status ← connect remotePort located handles
  if EfiError status then pure ()
  else do
    let _ ← run calls
    close abort

/-- **The client does not hang.**  However the driver answers, and whether or not it ever
completes a token, the client comes back: each controller, each call and the closing cost a
bounded number of moments. -/
theorem client_bounded (remotePort : UInt16) (located : EfiStatus) (handles : List Handle)
    (calls : List NetCall) (abort : Bool) :
    Draws (handles.length * (openCost + 1) + calls.length * (sendCost + 1) + closeCost)
      (connection remotePort located handles calls abort) := by
  have hconnect : Draws (handles.length * (openCost + 1)) (connect remotePort located handles) :=
    .ite (.pure _ _) (.ite (.pure _ _) (connectFrom_draws handles _))
  have hrun : Draws (closeCost + calls.length * (sendCost + 1)) (do
      let _ ← run calls
      close abort) :=
    .bind (run_draws calls) fun _ => close_draws abort
  refine (hconnect.bind fun status => .ite (.pure _ _) hrun).mono ?_
  omega

/-- Three moments for every 50 microseconds of the timeouts, and a few more. -/
example : sendCost = 1860010 ∧ closeCost = 180010 ∧ openCost = 2040231 := by decide

end WolfSshUefi.Tcp4
