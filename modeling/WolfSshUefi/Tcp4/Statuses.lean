import WolfSshUefi.Library.Moments
import WolfSshUefi.Tcp4.Balance

/-!
# What `WolfSshTcp4Connect` returns

`NetLibDetectMediaWaitTimeout` gives the media state as a success or as an error.  Then
`WolfSshTcp4Connect` returns one of the two as well: it never returns a warning, which its
caller would take for a connection.
-/

namespace WolfSshUefi.Tcp4

open Async

/-- The media state is a success or an error. -/
def KnownMedia (m : Moment) : Prop := m.mediaState = efiSuccess ∨ EfiError m.mediaState

/-- A moment leaves known media states behind it. -/
theorem interrupt_leaves : Leaves KnownMedia interrupt := .bind .draw fun _ => .update _

theorem call_leaves (success failure : Net → Net) : Leaves KnownMedia (call success failure) :=
  .bind .draw fun _ => .bind (.update _) fun _ => .pure _

theorem waitFrom_leaves (done : Net → Bool) (rounds remaining : Nat) :
    Leaves KnownMedia (waitFrom done rounds remaining) := by
  induction rounds generalizing remaining with
  | zero => exact .pure _
  | succ rounds ih =>
      refine .bind interrupt_leaves fun _ => .bind (.read _) fun _ => .ite (.pure _) ?_
      refine .bind interrupt_leaves fun _ => .bind (.read _) fun _ => .ite (.pure _) ?_
      exact .ite (.pure _) (.bind interrupt_leaves fun _ => ih _)

/-- So does a wait for a cancellation. -/
theorem cancelFrom_leaves (done : Net → Bool) (rounds remaining : Nat) :
    Leaves KnownMedia (cancelFrom done rounds remaining) := by
  induction rounds generalizing remaining with
  | zero => exact .pure _
  | succ rounds ih =>
      refine .bind interrupt_leaves fun _ => .bind (.read _) fun _ => .ite ?_ (.pure _)
      exact .bind interrupt_leaves fun _ => .bind interrupt_leaves fun _ => ih _

theorem cancelToken_leaves (done : Net → Bool) : Leaves KnownMedia (cancelToken done) :=
  .bind interrupt_leaves fun _ => cancelFrom_leaves done _ _

/-- So does posting the receive token. -/
theorem postReceive_leaves (place : Place) : Leaves KnownMedia (postReceive place) := by
  refine .bind interrupt_leaves fun _ => .bind (.read _) fun _ => .ite (.pure _) ?_
  refine .bind (.update _) fun _ => .bind interrupt_leaves fun _ => ?_
  refine .bind (.update _) fun _ => .bind interrupt_leaves fun _ => ?_
  refine .bind (.update _) fun _ => .bind interrupt_leaves fun _ => ?_
  refine .bind (.update _) fun _ => .bind interrupt_leaves fun _ => ?_
  refine .bind (.update _) fun _ => .bind interrupt_leaves fun _ => ?_
  refine .bind (.update _) fun _ => .bind interrupt_leaves fun _ => ?_
  have hreceive : Leaves KnownMedia (receive place) :=
    .bind .draw fun _ => .bind (.update _) fun _ => .pure _
  refine .bind hreceive fun _ => .bind interrupt_leaves fun _ => .ite (.pure _) ?_
  exact .bind (.update _) fun _ => .pure _

theorem release_leaves (r : Resource) : Leaves KnownMedia (release r) :=
  .bind (.update _) fun _ => interrupt_leaves

theorem closeEvent_leaves (event : Option Resource) : Leaves KnownMedia (closeEvent event) := by
  cases event with
  | none => exact .pure _
  | some event => exact release_leaves event

theorem close_leaves (abort : Bool) : Leaves KnownMedia (close abort) := by
  have hcancel : Leaves KnownMedia cancelReceive :=
    .bind (.read _) fun _ => .ite (.bind (cancelToken_leaves _) fun _ => .update _) (.pure _)
  have hconnection : Leaves KnownMedia (closeConnection abort) :=
    .bind (call_leaves _ _) fun _ =>
      .ite (.pure _) (.bind (waitFrom_leaves _ _ _) fun _ => .pure _)
  have hshut : Leaves KnownMedia (shutDown abort) :=
    .bind (.read _) fun _ => .ite (.bind (.update _) fun _ => .bind hconnection fun _ =>
      interrupt_leaves) (.pure _)
  have hdestroy (binding : Option Handle) (child : Option Resource) :
      Leaves KnownMedia (destroyChild binding child) := by
    cases binding with
    | none => exact .pure _
    | some binding =>
        cases child with
        | none => exact .pure _
        | some child => exact .bind (release_leaves child) fun _ => .update _
  refine .bind interrupt_leaves fun _ => .bind hcancel fun _ => .bind hshut fun _ => ?_
  refine .bind (.read _) fun _ => .bind (hdestroy _ _) fun _ => ?_
  exact .bind (closeEvent_leaves _) fun _ => .bind (closeEvent_leaves _) fun _ => .update _

theorem giveUp_leaves (status : EfiStatus) : Leaves KnownMedia (giveUp status) :=
  .bind (close_leaves true) fun _ => .pure _

theorem create_leaves (kind : Kind) (keep : Resource → Net → Net) :
    Leaves KnownMedia (create kind keep) :=
  .bind (.read _) fun _ => call_leaves _ _

/-- So do the tries to configure. -/
theorem configureFrom_leaves (retry : Nat) (status : EfiStatus) :
    Leaves KnownMedia (configureFrom retry status) := by
  induction retry generalizing status with
  | zero => exact .pure _
  | succ retry ih =>
      refine .bind (call_leaves _ _) fun _ => .ite (.pure _) ?_
      exact .bind interrupt_leaves fun _ => ih _

theorem connectWith_leaves (event : Resource) : Leaves KnownMedia (connectWith event) := by
  have hawait (status : EfiStatus) : Leaves KnownMedia (awaitConnect status) :=
    .ite (.pure _) (waitFrom_leaves _ _ _)
  have hcancel (status : EfiStatus) : Leaves KnownMedia (cancelConnect status) :=
    .ite (cancelToken_leaves _) (.pure _)
  have hresult (status : EfiStatus) : Leaves KnownMedia (connectResult status) :=
    .ite (.pure _) (.read _)
  have hstart : Leaves KnownMedia startReceiving :=
    .bind (postReceive_leaves _) fun _ => .ite (giveUp_leaves _) (.pure _)
  refine .bind (.update _) fun _ => .bind (call_leaves _ _) fun _ => ?_
  refine .bind (hawait _) fun _ => .bind (hcancel _) fun _ => .bind (hresult _) fun _ => ?_
  exact .bind (release_leaves event) fun _ => .ite (giveUp_leaves _) hstart

/-- So does opening a controller. -/
theorem openOnController_leaves (controller : Handle) :
    Leaves KnownMedia (openOnController controller) := by
  refine .bind (.update _) fun _ => .bind (call_leaves _ _) fun _ => .ite (giveUp_leaves _) ?_
  refine .bind (create_leaves _ _) fun _ => .ite (giveUp_leaves _) ?_
  refine .bind (call_leaves _ _) fun _ => .ite (giveUp_leaves _) ?_
  refine .bind (create_leaves _ _) fun _ => .ite (giveUp_leaves _) ?_
  refine .bind (create_leaves _ _) fun _ => .ite (giveUp_leaves _) ?_
  refine .bind (configureFrom_leaves _ _) fun _ => .ite (giveUp_leaves _) ?_
  refine .bind (.update _) fun _ => .bind (.read _) fun event => ?_
  exact .bind (create_leaves _ _) fun _ => .ite (giveUp_leaves _) (connectWith_leaves event)

/-- A controller is opened, or there is an error. -/
theorem openOnController_status (controller : Handle) {n : Net} (hn : Unopened n)
    (moments : Nat → Moment) :
    let status := (openOnController controller (n, moments)).1
    status = efiSuccess ∨
      EfiError status ∧ Unopened (openOnController controller (n, moments)).2.1 := by
  rcases openOnController_opened controller n moments hn with hfailed | ⟨hsuccess, -⟩
  · exact .inr hfailed
  · exact .inl hsuccess

/-- Trying the controllers comes to a success or to an error. -/
theorem connectFrom_status (handles : List Handle) {status : EfiStatus} (herror : EfiError status)
    {n : Net} (hn : Unopened n) {moments : Nat → Moment} (hmedia : ∀ i, KnownMedia (moments i)) :
    (connectFrom handles status (n, moments)).1 = efiSuccess ∨
      EfiError (connectFrom handles status (n, moments)).1 := by
  induction handles generalizing status n moments with
  | nil => exact .inr herror
  | cons handle rest ih =>
      let left : Nat → Moment := fun i => moments (i + 1)
      have hleft : ∀ i, KnownMedia (left i) := fun i => hmedia (i + 1)
      have hnext : Unopened (n.completeAll (moments 0).completions) :=
        unopened_stable.completeAll hn _
      have hunfold : connectFrom (handle :: rest) status (n, moments) =
          (if ¬ EfiError (moments 0).status ∧ (moments 0).mediaState ≠ efiSuccess then
            connectFrom rest (moments 0).mediaState
          else do
            let status ← openOnController handle
            if EfiError status then connectFrom rest status else pure status)
            (n.completeAll (moments 0).completions, left) := rfl
      rw [hunfold]
      split
      · next hnone => exact ih ((hmedia 0).resolve_left hnone.2) hnext hleft
      · have hopen := openOnController_status handle hnext left
        have hbind : (openOnController handle >>= fun status =>
            if EfiError status then connectFrom rest status else pure status)
              (n.completeAll (moments 0).completions, left) =
            (if EfiError (openOnController handle (n.completeAll (moments 0).completions, left)).1
              then connectFrom rest
                (openOnController handle (n.completeAll (moments 0).completions, left)).1
              else pure (openOnController handle (n.completeAll (moments 0).completions, left)).1)
            (openOnController handle (n.completeAll (moments 0).completions, left)).2 := rfl
        rw [hbind]
        split
        · next hfailed =>
            rcases hopen with hsuccess | ⟨_, hclosed⟩
            · exact absurd hsuccess (error_ne_success hfailed)
            · exact ih hfailed hclosed (openOnController_leaves handle _ left hleft)
        · next hgood => exact .inl (hopen.resolve_right fun hboth => hgood hboth.1)

/-- `WolfSshTcp4Connect` returns no warning. -/
theorem connect_status (remotePort : UInt16) (located : EfiStatus) (handles : List Handle)
    {moments : Nat → Moment} (hmedia : ∀ i, KnownMedia (moments i)) :
    (connect remotePort located handles (Net.start, moments)).1 = efiSuccess ∨
      EfiError (connect remotePort located handles (Net.start, moments)).1 := by
  unfold connect
  split
  · exact .inr (show EfiError efiInvalidParameter by decide)
  split
  · next herror => exact .inr herror
  · exact connectFrom_status handles (by decide) start_unopened hmedia

end WolfSshUefi.Tcp4
