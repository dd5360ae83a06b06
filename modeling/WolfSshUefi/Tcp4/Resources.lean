import WolfSshUefi.Library.Ledger
import WolfSshUefi.Tcp4.Receiving

/-!
# Child handles and events

The books of the program: the child handles and events that it created, those that
it released, and those that the socket points to.  Receiving, polling and sending
leave the books alone (`run_books`), and `WolfSshTcp4Close` releases what a socket
holds, however much of it there is (`close_closed`).
-/

namespace WolfSshUefi.Tcp4

open Async

/-! ### Books -/

/-- The pointers of a socket. -/
structure Pointers where
  controller : Option Handle
  child : Option Resource
  binding : Option Handle
  protocol : Option Resource
  rxEvent : Option Resource
  txEvent : Option Resource

def Socket.pointers (s : Socket) : Pointers :=
  ⟨s.controller, s.child, s.binding, s.protocol, s.rxEvent, s.txEvent⟩

/-- What the pointers hold. -/
def Pointers.resources (p : Pointers) : List Resource :=
  p.child.toList ++ (p.rxEvent.toList ++ p.txEvent.toList)

def NetEvent.created? : NetEvent → Option Resource
  | .created r => some r
  | _ => none

def NetEvent.released? : NetEvent → Option Resource
  | .released r => some r
  | _ => none

/-- The part of the state that is about resources. -/
structure Books where
  pointers : Pointers
  created : List Resource
  released : List Resource
  serial : Nat

def Net.books (n : Net) : Books where
  pointers := n.socket.pointers
  created := n.trace.filterMap NetEvent.created?
  released := n.trace.filterMap NetEvent.released?
  serial := n.serial

/-- An event that creates or releases nothing. -/
def NetEvent.Silent (e : NetEvent) : Prop := e.created? = none ∧ e.released? = none

/-- Other events are not in the books. -/
theorem books_record (n : Net) {e : NetEvent} (h : e.Silent) : (n.record e).books = n.books := by
  simp [Net.books, Net.record, h.1, h.2]

/-- A creation is entered, and counted. -/
theorem books_created (n : Net) (r : Resource) :
    (n.record (.created r)).books = { n.books with created := n.books.created ++ [r] } := by
  have hreleased : NetEvent.released? (.created r) = none := rfl
  simp [Net.books, Net.record, NetEvent.created?, hreleased]

/-- A release is entered. -/
theorem books_released (n : Net) (r : Resource) :
    (n.record (.released r)).books = { n.books with released := n.books.released ++ [r] } := by
  have hcreated : NetEvent.created? (.released r) = none := rfl
  simp [Net.books, Net.record, NetEvent.released?, hcreated]

/-! ### What leaves the books alone -/

/-- What the driver does is not in the books. -/
theorem NetEvent.ByDriver.silent {e : NetEvent} (h : e.ByDriver) : e.Silent := by
  cases e
  all_goals first | exact ⟨rfl, rfl⟩ | exact h.elim

/-- A completion creates and releases nothing. -/
theorem books_complete (n : Net) (c : Completion) : (n.complete c).books = n.books := by
  obtain ⟨rxDone, txDone, rxToken, txToken, rxData, rxBuffer, hsocket⟩ := n.complete_socket c
  have hpointers : (n.complete c).socket.pointers = n.socket.pointers := by
    rw [hsocket]
    rfl
  have hserial := n.complete_serial c
  rcases n.complete_trace c with htrace | ⟨e, he, htrace⟩
  · simp only [Net.books, hpointers, hserial, htrace]
  · have hrecord := books_record n he.silent
    simp only [Net.books, Net.record] at hrecord ⊢
    rw [hpointers, hserial, htrace]
    exact hrecord

/-- The driver does not touch the books. -/
theorem books_stable (b : Books) : Stable fun n => n.books = b :=
  fun n c hn => (books_complete n c).trans hn

/-- A moment leaves the books. -/
theorem interrupt_books : Preserves Net.books interrupt :=
  .of_keeps fun b => (books_stable b).interrupt

/-- A call that leaves the books alone when it succeeds, and when it fails. -/
theorem call_books {success failure : Net → Net} (hsuccess : ∀ n, (success n).books = n.books)
    (hfailure : ∀ n, (failure n).books = n.books) : Preserves Net.books (call success failure) :=
  .of_keeps fun b => (books_stable b).call (fun n hn => (hsuccess n).trans hn)
    fun n hn => (hfailure n).trans hn

/-- A change of the socket that keeps its pointers leaves the books. -/
theorem setSocket_books {f : Socket → Socket} (h : ∀ s, (f s).pointers = s.pointers) :
    Preserves Net.books (setSocket f) :=
  .update fun n => congrArg (fun p => { n.books with pointers := p }) (h n.socket)

/-- Rewriting the receive token leaves them. -/
theorem rewrite_books {f : Socket → Socket} (h : ∀ s, (f s).pointers = s.pointers) :
    Preserves Net.books (rewrite f) := by
  refine .update fun n => ?_
  have hrecord := books_record n (e := .rewrote n.receives (n.socket.unread ++ n.kept)) ⟨rfl, rfl⟩
  rw [← hrecord]
  exact congrArg (fun p => { (n.record (.rewrote n.receives (n.socket.unread ++ n.kept))).books with
    pointers := p }) (h n.socket)

/-- So does rewriting the transmit token. -/
theorem rewriteTransmit_books {f : Socket → Socket} (h : ∀ s, (f s).pointers = s.pointers) :
    Preserves Net.books (rewriteTransmit f) := by
  refine .update fun n => ?_
  have hrecord := books_record n (e := .rewroteTransmit n.transmits) ⟨rfl, rfl⟩
  rw [← hrecord]
  exact congrArg (fun p => { (n.record (.rewroteTransmit n.transmits)).books with pointers := p })
    (h n.socket)

theorem wait_books (done : Net → Bool) (timeout : Nat) :
    Preserves Net.books (waitForCompletion done timeout) :=
  .of_keeps fun b => (books_stable b).waitForCompletion done timeout

theorem cancelToken_books (done : Net → Bool) : Preserves Net.books (cancelToken done) :=
  .of_keeps fun b => (books_stable b).cancelToken done

/-- So does posting the receive token. -/
theorem receive_books (place : Place) : Preserves Net.books (receive place) := by
  refine .bind .draw fun m => .bind (.of_keeps fun b => .update fun n hn => ?_) fun _ => .pure _
  apply (books_stable b).completeAll
  rw [← hn]
  split
  · exact books_record n ⟨rfl, rfl⟩
  · exact books_record n (e := .accepted n.receives) ⟨rfl, rfl⟩

theorem postReceive_books (place : Place) : Preserves Net.books (postReceive place) := by
  refine .bind interrupt_books fun _ => .bind (.read _) fun _ => .ite (.pure _) ?_
  refine .bind (rewrite_books fun _ => rfl) fun _ => .bind interrupt_books fun _ => ?_
  refine .bind (rewrite_books fun _ => rfl) fun _ => .bind interrupt_books fun _ => ?_
  refine .bind (setSocket_books fun _ => rfl) fun _ => .bind interrupt_books fun _ => ?_
  refine .bind (setSocket_books fun _ => rfl) fun _ => .bind interrupt_books fun _ => ?_
  refine .bind (rewrite_books fun _ => rfl) fun _ => .bind interrupt_books fun _ => ?_
  refine .bind (rewrite_books fun _ => rfl) fun _ => .bind interrupt_books fun _ => ?_
  refine .bind (receive_books place) fun _ => .bind interrupt_books fun _ => .ite (.pure _) ?_
  exact .bind (setSocket_books fun _ => rfl) fun _ => .pure _

/-- So does the end of a reception. -/
theorem finishReceive_books : Preserves Net.books finishReceive := by
  refine .bind interrupt_books fun _ => .bind (.read _) fun _ => .ite (.pure _) ?_
  refine .bind (setSocket_books fun _ => rfl) fun _ => .bind interrupt_books fun _ => ?_
  refine .bind (setSocket_books fun _ => rfl) fun _ => .bind interrupt_books fun _ => ?_
  refine .bind (.read _) fun _ => .ite (setSocket_books fun _ => rfl) (.ite (.pure _) ?_)
  refine .bind (setSocket_books fun _ => rfl) fun _ => .bind interrupt_books fun _ => ?_
  exact .update fun _ => rfl

theorem poll_books : Preserves Net.books poll :=
  .bind interrupt_books fun _ => .bind (.read _) fun _ => .ite (.pure _)
    (.bind interrupt_books fun _ => finishReceive_books)

theorem refill_books : Preserves Net.books refill := by
  refine .bind (.read _) fun _ => .ite ?_ (.pure _)
  refine .bind (setSocket_books fun _ => rfl) fun _ => .bind (postReceive_books _) fun _ => ?_
  exact .bind interrupt_books fun _ => .ite (setSocket_books fun _ => rfl) (.pure _)

/-- So does handing over what is there. -/
theorem takeUnread_books (size : Nat) : Preserves Net.books (takeUnread size) := by
  refine .bind (.read _) fun _ => .bind interrupt_books fun _ => .bind (.read _) fun _ => ?_
  refine .bind interrupt_books fun _ => .bind (setSocket_books fun _ => rfl) fun _ => ?_
  refine .bind interrupt_books fun _ => .bind refill_books fun _ => .bind interrupt_books fun _ => ?_
  exact .bind (.update fun n => books_record n ⟨rfl, rfl⟩) fun _ => .pure _

theorem reportIdle_books : Preserves Net.books reportIdle := by
  refine .bind interrupt_books fun _ => .bind (.read _) fun _ => .ite (.pure _) ?_
  refine .bind (.read _) fun _ => .ite (.pure _) (.bind interrupt_books fun _ => ?_)
  refine .bind (.read _) fun _ => .ite ?_ (.pure _)
  exact .bind (postReceive_books _) fun _ => .pure _

/-- **A receive callback leaves the books.** -/
theorem recvCallback_books (size : Nat) : Preserves Net.books (recvCallback size) := by
  refine .ite (.pure _) (.bind poll_books fun _ => .bind interrupt_books fun _ => ?_)
  exact .bind (.read _) fun _ => .ite (takeUnread_books size) reportIdle_books

/-- **A send callback leaves the books.** -/
theorem sendCallback_books (size : Nat) : Preserves Net.books (sendCallback size) := by
  have hresult (number : Nat) : Preserves Net.books (sendResult size number) := by
    refine .bind (.read _) fun _ => .ite (.pure _) (.ite (.pure _) ?_)
    exact .bind (.update fun n => books_record n ⟨rfl, rfl⟩) fun _ => .pure _
  have hawait (number : Nat) : Preserves Net.books (awaitTransmit size number) := by
    refine .bind (wait_books _ _) fun _ => .ite ?_ (hresult number)
    exact .bind (cancelToken_books _) fun _ => .pure _
  have htransmit (number : Nat) : Preserves Net.books (transmit number) :=
    call_books (fun n => books_record n (e := .posted number n.transmits) ⟨rfl, rfl⟩) fun _ => rfl
  refine .bind (.read _) fun _ => .ite (.pure _) ?_
  refine .bind (rewriteTransmit_books fun _ => rfl) fun _ => .bind interrupt_books fun _ => ?_
  refine .bind (rewriteTransmit_books fun _ => rfl) fun _ => .bind interrupt_books fun _ => ?_
  refine .bind (setSocket_books fun _ => rfl) fun _ => .bind interrupt_books fun _ => ?_
  refine .bind (rewriteTransmit_books fun _ => rfl) fun _ => .bind interrupt_books fun _ => ?_
  refine .bind (rewriteTransmit_books fun _ => rfl) fun _ => .bind interrupt_books fun _ => ?_
  refine .bind (.read _) fun number => .bind (htransmit number) fun _ => ?_
  exact .ite (.pure _) (hawait number)

/-- Receiving, polling and sending leave the books alone. -/
theorem run_books (calls : List NetCall) : Preserves Net.books (run calls) := by
  induction calls with
  | nil => exact .pure _
  | cons c rest ih =>
      refine .bind interrupt_books fun _ => .bind ?_ fun _ => .bind ih fun _ => .pure _
      cases c with
      | recv size => exact .bind (recvCallback_books size) fun _ => .pure _
      | poll => exact .bind poll_books fun _ => .pure _
      | send size => exact .bind (sendCallback_books size) fun _ => .pure _
      | pass => exact .bind interrupt_books fun _ => .pure _

/-! ### Closing -/

/-- The driver owns no token. -/
structure Net.Tokenless (n : Net) : Prop where
  receives : n.receives = 0
  transmits : n.transmits = []
  connects : n.connects = 0
  closes : n.closes = 0

/-- A driver without tokens completes nothing. -/
theorem Net.Tokenless.complete {n : Net} (h : n.Tokenless) (c : Completion) : n.complete c = n := by
  cases c with
  | received packet => exact if_pos h.receives
  | receiveFailed failure => exact if_pos h.receives
  | transmitted index status => simp [Net.complete, h.transmits]
  | connected status => exact if_pos h.connects
  | closed => exact if_pos h.closes

/-- It gets no token by itself. -/
theorem tokenless_stable : Stable Net.Tokenless := fun n c h => by rwa [h.complete c]

/-- However often it is asked. -/
theorem Net.Tokenless.completeAll {n : Net} (h : n.Tokenless) (completions : List Completion) :
    n.completeAll completions = n := by
  induction completions with
  | nil => rfl
  | cons c rest ih =>
      rw [Net.completeAll, List.foldl_cons, h.complete c]
      exact ih

/-- The books are balanced, with these resources held. -/
structure Accounted (held : List Resource) (n : Net) : Prop where
  balanced : Ledger.Balanced n.books.created n.books.released held
  fresh : ∀ r ∈ n.books.created, r.serial < n.books.serial

section Closing

variable {held : List Resource} {n n' : Net}

/-- What is accounted for depends on the books only. -/
theorem Accounted.of_books (h : Accounted held n) (hcreated : n'.books.created = n.books.created)
    (hreleased : n'.books.released = n.books.released)
    (hserial : n'.books.serial = n.books.serial) : Accounted held n' where
  balanced := by
    rw [hcreated, hreleased]
    exact h.balanced
  fresh := by
    rw [hcreated, hserial]
    exact h.fresh

/-- The driver leaves the account. -/
theorem accounted_stable : Stable (Accounted held) := by
  intro n c h
  have hbooks := books_complete n c
  exact h.of_books (congrArg Books.created hbooks) (congrArg Books.released hbooks)
    (congrArg Books.serial hbooks)

/-- A new resource has a number of its own. -/
theorem Accounted.create (h : Accounted held n) (kind : Kind) :
    Accounted (⟨kind, n.serial⟩ :: held)
      { n.record (.created ⟨kind, n.serial⟩) with serial := n.serial + 1 } := by
  have hbooks := books_created n ⟨kind, n.serial⟩
  have hcreated : (n.record (.created ⟨kind, n.serial⟩)).books.created =
      n.books.created ++ [⟨kind, n.serial⟩] := by
    rw [hbooks]
  have hreleased : (n.record (.created ⟨kind, n.serial⟩)).books.released = n.books.released := by
    rw [hbooks]
  have hfresh : (⟨kind, n.serial⟩ : Resource) ∉ n.books.created := by
    intro hmem
    exact absurd (h.fresh _ hmem) (Nat.lt_irrefl _)
  constructor
  · have hbalanced := h.balanced.acquire hfresh
    rw [← hcreated, ← hreleased] at hbalanced
    exact hbalanced
  · intro r hr
    have hmem : r ∈ n.books.created ++ [⟨kind, n.serial⟩] := by
      rw [← hcreated]
      exact hr
    rcases List.mem_append.mp hmem with hold | hnew
    · exact Nat.lt_succ_of_lt (h.fresh r hold)
    · rw [List.mem_singleton.mp hnew]
      exact Nat.lt_succ_self _

/-- What is released is held no longer. -/
theorem Accounted.release {r : Resource} (h : Accounted (r :: held) n) :
    Accounted held (n.record (.released r)) := by
  have hbooks := books_released n r
  constructor
  · rw [hbooks]
    exact h.balanced.release
  · rw [hbooks]
    exact h.fresh

/-- Releasing is entered in the account. -/
theorem release_accounted (r : Resource) :
    Triple (Accounted (r :: held)) (release r) fun _ => Accounted held :=
  .bind (.update (Q := fun _ => Accounted held) fun _ h => h.release) fun _ =>
    accounted_stable.interrupt

/-- Releasing posts no token. -/
theorem release_tokenless (r : Resource) : Keeps Net.Tokenless (release r) := by
  refine .bind (.update fun n h => ?_) fun _ => tokenless_stable.interrupt
  exact ⟨h.receives, h.transmits, h.connects, h.closes⟩

/-- The books after the child is gone. -/
def Settling (held : List Resource) (n : Net) : Prop :=
  Accounted held n ∧ n.Tokenless

/-- An event that there is is closed. -/
theorem closeEvent_settling (event : Option Resource) :
    Triple (Settling (event.toList ++ held)) (closeEvent event)
      fun _ => Settling held := by
  cases event with
  | none => exact .pure fun _ h => h
  | some event => exact .and (release_accounted event) (release_tokenless event)

/-- Pointers as `OpenOnController` sets them, one after the other. -/
structure Pointers.Ordered (p : Pointers) : Prop where
  binding : p.child.isSome → p.binding.isSome
  protocol : p.protocol.isSome → p.child.isSome

/-- A socket with these pointers, and `extra` beside it. -/
structure Holding (p : Pointers) (extra : List Resource) (n : Net) : Prop where
  pointers : n.socket.pointers = p
  accounted : Accounted (extra ++ p.resources) n
  tokens : p.child = none → n.Tokenless

variable {p : Pointers} {extra : List Resource}

/-- The driver leaves what is held. -/
theorem holding_stable : Stable (Holding p extra) := fun n c h =>
  { pointers := (congrArg Books.pointers (books_complete n c)).trans h.pointers
    accounted := accounted_stable n c h.accounted
    tokens := fun hp => tokenless_stable n c (h.tokens hp) }

/-- Where there is a child, only the books matter. -/
theorem Holding.of_books (h : Holding p extra n) (hchild : p.child.isSome)
    (hbooks : n'.books = n.books) : Holding p extra n' where
  pointers := (congrArg Books.pointers hbooks).trans h.pointers
  accounted := h.accounted.of_books (congrArg Books.created hbooks)
    (congrArg Books.released hbooks) (congrArg Books.serial hbooks)
  tokens := fun hnone => by simp [hnone] at hchild

/-- The rest of the socket does not matter. -/
theorem holding_setSocket {f : Socket → Socket} (h : ∀ s, (f s).pointers = s.pointers) :
    Keeps (Holding p extra) (setSocket f) := by
  refine .update fun n hn => ⟨(h n.socket).trans hn.pointers, ?_, fun hp => ?_⟩
  · exact hn.accounted.of_books rfl rfl rfl
  · have htokens := hn.tokens hp
    exact ⟨htokens.receives, htokens.transmits, htokens.connects, htokens.closes⟩

/-- Cancelling the receive token releases nothing. -/
theorem cancelReceive_holding : Keeps (Holding p extra) cancelReceive := by
  refine .bind (.read _) fun _ => .ite ?_ (.pure _)
  refine .bind (holding_stable.cancelToken _) fun _ => ?_
  exact holding_setSocket fun _ => rfl

/-- Neither does closing the connection. -/
theorem closeConnection_holding (abort : Bool) (hchild : p.child.isSome) :
    Keeps (Holding p extra) (closeConnection abort) := by
  have hclose : ∀ n, Holding p extra n →
      Holding p extra { n.record (.closing abort) with closes := n.closes + 1 } := by
    intro n h
    exact h.of_books hchild (books_record n (e := .closing abort) ⟨rfl, rfl⟩)
  refine Keeps.bind (holding_stable.call hclose fun _ h => h) fun _ => .ite (.pure _) ?_
  exact .bind (holding_stable.waitForCompletion _ _) fun _ => .pure _

/-- Nor does the whole shutdown of it. -/
theorem shutDown_holding (abort : Bool) (hp : p.Ordered) :
    Keeps (Holding p extra) (shutDown abort) := by
  refine Triple.bind .read fun guard => .ite (fun hguard => ?_) fun _ => .pure fun _ h => h.1
  refine Triple.pre (P := fun n => p.child.isSome ∧ Holding p extra n) ?_ ?_
  · refine .of_fact fun hchild => ?_
    refine Keeps.bind (holding_setSocket fun _ => rfl) fun _ => ?_
    exact .bind (closeConnection_holding abort hchild) fun _ => holding_stable.interrupt
  · intro n hboth
    obtain ⟨h, hread⟩ := hboth
    rw [hguard, eq_comm, Bool.and_eq_true] at hread
    have hprotocol : p.protocol = n.socket.protocol := by
      rw [← h.pointers]
      rfl
    rw [← hprotocol] at hread
    exact ⟨hp.protocol hread.1, h⟩

/-- Destroying the child takes its tokens, and leaves the events to be closed. -/
theorem destroyChild_settling (hp : p.Ordered) :
    Triple (Holding p []) (destroyChild p.binding p.child)
      fun _ => Settling (p.rxEvent.toList ++ (p.txEvent.toList ++ [])) := by
  obtain ⟨controller, child, binding, protocol, rxEvent, txEvent⟩ := p
  cases child with
  | none =>
      cases binding
      all_goals exact .pure fun n h => ⟨by simpa [Pointers.resources] using h.accounted, h.tokens rfl⟩
  | some child =>
      cases binding with
      | none => exact absurd (hp.binding rfl) (by simp)
      | some binding =>
          have hrelease : Triple (Holding ⟨controller, some child, some binding, protocol, rxEvent,
              txEvent⟩ []) (release child)
              fun _ => Accounted (rxEvent.toList ++ (txEvent.toList ++ [])) :=
            (release_accounted child).pre fun n h => by
              simpa [Pointers.resources] using h.accounted
          refine .bind hrelease fun _ => ?_
          exact .update fun n h => ⟨h.of_books rfl rfl rfl, rfl, rfl, rfl, rfl⟩

/-- After `WolfSshTcp4Close`. -/
structure Closed (n : Net) : Prop where
  socket : n.socket = .zero
  settled : Settling [] n

/-- `WolfSshTcp4Close` copes with every half-built socket. -/
theorem close_closed (abort : Bool) (hp : p.Ordered) :
    Triple (Holding p []) (close abort) fun _ => Closed := by
  refine .bind holding_stable.interrupt fun _ => .bind cancelReceive_holding fun _ => ?_
  refine .bind (shutDown_holding abort hp) fun _ => .bind .read fun s => ?_
  refine Triple.pre (P := fun n => s.pointers = p ∧ Holding p [] n) (.of_fact ?_) ?_
  · intro heq
    obtain rfl := heq
    refine .bind (destroyChild_settling hp) fun _ => .bind (closeEvent_settling _) fun _ => ?_
    refine .bind (closeEvent_settling _) fun _ => .update fun n h => ⟨rfl, ?_⟩
    exact ⟨h.1.of_books rfl rfl rfl, h.2.receives, h.2.transmits, h.2.connects, h.2.closes⟩
  · intro n hboth
    obtain ⟨h, rfl⟩ := hboth
    exact ⟨h.pointers, h⟩

end Closing

end WolfSshUefi.Tcp4
