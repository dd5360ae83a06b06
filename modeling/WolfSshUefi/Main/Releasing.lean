import WolfSshUefi.Main.Wiping
import WolfSshUefi.Tcp4.Statuses

/-!
# What the program leaves behind

`UefiMain` acquires a connection, a context and a session, one after the other, and any
step between can fail.  Whichever way it returns, it has released what it acquired, the
session before the context and the context before wolfSSH is cleaned up, and nothing that
it did not acquire (`main_releases`).  The driver holds no token then: the socket that the
tokens point into is gone with the stack frame.
-/

namespace WolfSshUefi

open Tcp4 Async

/-- The event is a release. -/
def MainEvent.isRelease : MainEvent → Bool
  | .sessionFreed | .contextFreed | .cleanedUp => true
  | _ => false

/-- What was released so far, in order. -/
def Main.released (m : Main) : List MainEvent := m.events.filter MainEvent.isRelease

/-! ### Parts that may not return -/

/-- `Q` holds of the result and the variables if the part returns and `P` held before. -/
def Returns {α : Type} (P : Main → Prop) (x : MainM α) (Q : α → Main → Prop) : Prop :=
  ∀ s a s', P s.1 → x.run s = (some a, s') → Q a s'.1

namespace Returns

variable {α β : Type} {P P' : Main → Prop} {Q : α → Main → Prop} {R : β → Main → Prop}

/-- A value changes nothing. -/
theorem pure {a : α} (h : ∀ m, P m → Q a m) : Returns P (Pure.pure a) Q := by
  intro s a' s' hs hrun
  obtain ⟨ha, rfl⟩ := Prod.mk.inj hrun
  obtain rfl := Option.some.inj ha
  exact h _ hs

theorem bind {x : MainM α} {f : α → MainM β} (hx : Returns P x Q)
    (hf : ∀ a, Returns (Q a) (f a) R) : Returns P (x >>= f) R := by
  intro s b s' hs hrun
  obtain ⟨a, s₁, hfirst, hrest⟩ := run_bind_some hrun
  exact hf a s₁ b s' (hx s a s₁ hs hfirst) hrest

/-- A choice, by the branch that is taken. -/
theorem ite {c : Prop} [Decidable c] {x y : MainM α} (hx : c → Returns P x Q)
    (hy : ¬ c → Returns P y Q) : Returns P (if c then x else y) Q := by
  split
  · next h => exact hx h
  · next h => exact hy h

/-- What does not return promises anything. -/
theorem stuck : Returns P (WolfSshUefi.stuck : MainM α) Q := by
  intro s a s' _ hrun
  cases hrun

/-- A change leads where its function leads. -/
theorem change {f : Main → Main} {Q : Unit → Main → Prop} (h : ∀ m, P m → Q () (f m)) :
    Returns P (WolfSshUefi.change f) Q := by
  intro s _ s' hs hrun
  obtain ⟨-, rfl⟩ := Prod.mk.inj hrun
  exact h _ hs

/-- An event is noted. -/
theorem note {e : MainEvent} {Q : Unit → Main → Prop}
    (h : ∀ m, P m → Q () { m with events := m.events ++ [e] }) :
    Returns P (WolfSshUefi.note e) Q :=
  change h

/-- What is looked up is what the state says. -/
theorem look {f : Main → α} (h : ∀ m, P m → Q (f m) m) : Returns P (WolfSshUefi.look f) Q := by
  intro s a s' hs hrun
  obtain ⟨ha, rfl⟩ := Prod.mk.inj hrun
  obtain rfl := Option.some.inj ha
  exact h _ hs

/-- A call on the socket that takes it from one assertion to another. -/
theorem onNet {x : NetM α} {A : Net → Prop} {B : α → Net → Prop} (hx : Triple A x B)
    (hP : ∀ m, P m → A m.net) (hQ : ∀ m a n, P m → B a n → Q a { m with net := n }) :
    Returns P (WolfSshUefi.onNet x) Q := by
  intro s a s' hs hrun
  obtain ⟨ha, rfl⟩ := Prod.mk.inj hrun
  obtain rfl := Option.some.inj ha
  exact hQ s.1 _ _ hs (hx s.1.net s.2 (hP _ hs))

/-- A stronger precondition. -/
theorem pre {x : MainM α} (h : Returns P x Q) (hpre : ∀ m, P' m → P m) : Returns P' x Q :=
  fun s a s' hs hrun => h s a s' (hpre _ hs) hrun

/-- A weaker postcondition. -/
theorem post {x : MainM α} {Q' : α → Main → Prop} (h : Returns P x Q)
    (hpost : ∀ a m, Q a m → Q' a m) : Returns P x Q' :=
  fun s a s' hs hrun => hpost _ _ (h s a s' hs hrun)

end Returns

/-- Callbacks about keys and passwords leave the assertion alone. -/
structure Indifferent (P : Main → Prop) : Prop where
  answered : ∀ m options checked accepted prompted, P m → P { m with
    options := options, hostKeyChecked := checked, hostKeyAccepted := accepted
    passwordPrompted := prompted }
  hostKey : ∀ lines, Returns P (note (.hostKey lines)) fun _ => P
  password : ∀ lines, Returns P (note (.password lines)) fun _ => P

namespace Indifferent

variable {P : Main → Prop} {sha256 : List UInt8 → Digest}

/-- A callback about keys and passwords leaves what is indifferent to it. -/
theorem ask (h : Indifferent P) (q : Question) : Returns P (ask sha256 q) fun _ => P := by
  cases q with
  | hostKey inv =>
      refine .bind (Q := fun _ => P) (.look fun _ hm => hm) fun m => ?_
      split
      · exact .stuck
      · refine .bind (Q := fun _ => P) (.change fun m hm => ?_) fun _ => h.hostKey _
        exact h.answered m m.options _ _ m.passwordPrompted hm
  | userAuth request =>
      refine .bind (Q := fun _ => P) (.look fun _ hm => hm) fun m => ?_
      split
      · exact .stuck
      · refine .bind (Q := fun _ => P) (.change fun m hm => ?_) fun _ => h.password _
        exact h.answered m _ m.hostKeyChecked m.hostKeyAccepted _ hm

theorem askAll (h : Indifferent P) (questions : List Question) :
    Returns P (askAll sha256 questions) fun _ => P := by
  induction questions with
  | nil => exact .pure fun _ hm => hm
  | cons q rest ih => exact .bind (h.ask q) fun _ => ih

end Indifferent

/-! ### Between the connection and the cleanup -/

/-- The socket holds a child handle and two events of one controller. -/
def Held (n : Net) : Prop :=
  ∃ controller child rx tx, Holding (linked controller child rx tx) [] n

/-- A run of calls leaves the resources held. -/
theorem Held.run (calls : List NetCall) : Keeps Held (Tcp4.run calls) := by
  intro n moments h
  obtain ⟨controller, child, rx, tx, hholding⟩ := h
  exact ⟨controller, child, rx, tx, hholding.of_books rfl (run_books calls n moments)⟩

/-- The shutdown keeps what the calls on the socket keep. -/
theorem Held.shutdown (codes : WolfSshCodes) (answers : Nat → SshAnswer) :
    Keeps Held (bestEffortShutdown codes answers) := by
  intro n moments h
  rw [bestEffortShutdown, shutdownFrom_eq]
  exact Held.run _ n moments h

/-- The program is connected and has released `events`. -/
def Working (events : List MainEvent) (m : Main) : Prop := Held m.net ∧ m.released = events

section Parts

variable {codes : WolfSshCodes} {sha256 : List UInt8 → Digest} {events : List MainEvent}

/-- A line that is printed releases nothing. -/
theorem note_working {e : MainEvent} (he : e.isRelease = false) :
    Returns (Working events) (note e) fun _ => Working events := by
  refine .note fun m hm => ⟨hm.1, ?_⟩
  rw [Main.released, List.filter_append, List.filter_cons_of_neg (by simp [he]), List.filter_nil,
    List.append_nil]
  exact hm.2

/-- The calls of wolfSSH leave the session working. -/
theorem run_working (calls : List NetCall) :
    Returns (Working events) (onNet (Tcp4.run calls)) fun _ => Working events :=
  .onNet (Held.run calls) (fun _ hm => hm.1) fun _ _ _ hm hn => ⟨hn, hm.2⟩

/-- The callbacks about keys and passwords leave it working. -/
theorem working_indifferent : Indifferent (Working events) where
  answered := fun _ _ _ _ _ hm => hm
  hostKey := fun _ => note_working rfl
  password := fun _ => note_working rfl

theorem handshakeFrom_working (retries : Nat) (calls : Nat → SshCall) :
    Returns (Working events) (handshakeFrom codes sha256 retries calls) fun _ =>
      Working events := by
  induction retries generalizing calls with
  | zero => exact .bind (note_working rfl) fun _ => .pure fun _ hm => hm
  | succ retries ih =>
      refine .bind (run_working _) fun _ => .bind (working_indifferent.askAll _) fun _ => ?_
      refine .ite (fun _ => .pure fun _ hm => hm) fun _ => .ite (fun _ => ?_) fun _ => ?_
      · exact .bind (note_working rfl) fun _ => .pure fun _ hm => hm
      · exact .bind (run_working _) fun _ => ih _

/-- So does the interactive session. -/
theorem interactiveSession_working (o : Outside) :
    Returns (Working events) (interactiveSession codes sha256 o) fun _ => Working events := by
  refine .bind (run_working _) fun _ => .bind (working_indifferent.askAll _) fun _ => ?_
  split
  · exact .stuck
  · exact .pure fun _ hm => hm

/-- So does all that is done with a session. -/
theorem withSession_working (o : Outside) :
    Returns (Working events) (withSession codes sha256 o) fun _ => Working events := by
  refine .ite (fun _ => .bind (note_working rfl) fun _ => .pure fun _ hm => hm) fun _ => ?_
  refine .ite (fun _ => .bind (note_working rfl) fun _ => .pure fun _ hm => hm) fun _ => ?_
  refine .bind (handshakeFrom_working 12000 o.connects) fun status => ?_
  refine .ite (fun _ => .pure fun _ hm => hm) fun _ => ?_
  exact .bind (note_working rfl) fun _ => interactiveSession_working o

/-- A release is written down after the others. -/
theorem note_release {e : MainEvent} (he : e.isRelease = true) :
    Returns (Working events) (note e) fun _ => Working (events ++ [e]) := by
  refine .note fun m hm => ⟨hm.1, ?_⟩
  rw [Main.released, List.filter_append, List.filter_cons_of_pos he, List.filter_nil]
  exact congrArg (· ++ [e]) hm.2

/-- The end of the session frees it, and nothing else. -/
theorem endSession_working (o : Outside) :
    Returns (Working events) (endSession codes sha256 o true) fun _ =>
      Working (events ++ [.sessionFreed]) := by
  have hshutdown : Returns (Working events) (onNet (bestEffortShutdown codes o.shutdowns)) fun _ =>
      Working events :=
    .onNet (Held.shutdown codes o.shutdowns) (fun _ hm => hm.1) fun _ _ _ hm hn => ⟨hn, hm.2⟩
  exact .bind hshutdown fun _ => .bind (working_indifferent.askAll _) fun _ => note_release rfl

end Parts

/-! ### The cleanup -/

/-- The connection can be closed, or there is none. -/
def Closable (n : Net) : Prop := Closed n ∨ Held n

/-- Nothing is held any more, and the program has released `events`. -/
def Settled (events : List MainEvent) (m : Main) : Prop := Closed m.net ∧ m.released = events

/-- The socket is closed if it is open. -/
theorem closeSocket_settled {events : List MainEvent} :
    Returns (fun m => Closable m.net ∧ m.released = events) closeSocket fun _ =>
      Settled events := by
  refine .bind (Q := fun open? m => (Closable m.net ∧ m.released = events) ∧
    open? = m.net.socket.protocol.isSome) (.look fun m hm => ⟨hm, rfl⟩) fun open? => ?_
  refine .ite (fun hopen => ?_) fun hshut => .pure fun m hm => ?_
  · refine .onNet (A := Held) (B := fun _ => Closed) ?_ (fun m hm => ?_) fun m _ n hm hn =>
      ⟨hn, hm.1.2⟩
    · intro n moments h
      obtain ⟨controller, child, rx, tx, hholding⟩ := h
      exact close_closed true (linked_ordered controller child rx tx) n moments hholding
    · refine hm.1.1.resolve_left fun hclosed => ?_
      have hzero : m.net.socket.protocol = none := congrArg Socket.protocol hclosed.socket
      rw [hm.2, hzero] at hopen
      cases hopen
  · refine ⟨hm.1.1.resolve_right fun hheld => ?_, hm.1.2⟩
    obtain ⟨controller, child, rx, tx, hholding⟩ := hheld
    have hprotocol : m.net.socket.protocol = some ⟨.child controller, child⟩ :=
      congrArg Pointers.protocol hholding.pointers
    rw [hm.2, hprotocol] at hshut
    exact hshut rfl

/-- What the cleanup releases. -/
def releases (context ssh : Bool) : List MainEvent :=
  (if ssh then [.sessionFreed] else []) ++ (if context then [.contextFreed] else []) ++
    [.cleanedUp]

/-- **The cleanup** frees what there is in its order, and closes the socket. -/
theorem cleanup_settled (codes : WolfSshCodes) (sha256 : List UInt8 → Digest) (o : Outside)
    (context ssh : Bool) :
    Returns (fun m => Closable m.net ∧ (ssh = true → Held m.net) ∧ m.released = [])
      (cleanup codes sha256 o context ssh) fun _ => Settled (releases context ssh) := by
  have hsession : Returns (fun m => Closable m.net ∧ (ssh = true → Held m.net) ∧ m.released = [])
      (endSession codes sha256 o ssh) fun _ m =>
        Closable m.net ∧ m.released = if ssh then [.sessionFreed] else [] := by
    cases ssh with
    | false => exact .pure fun m hm => ⟨hm.1, hm.2.2⟩
    | true =>
        intro s u s' hs hrun
        obtain ⟨hheld, hreleased⟩ := endSession_working o s u s' ⟨hs.2.1 rfl, hs.2.2⟩ hrun
        exact ⟨.inr hheld, hreleased⟩
  have hcontext {events : List MainEvent} :
      Returns (fun m => Closable m.net ∧ m.released = events) (freeContext context) fun _ m =>
        Closable m.net ∧ m.released = events ++ if context then [.contextFreed] else [] := by
    cases context with
    | false => exact .pure fun m hm => ⟨hm.1, by rw [hm.2]; exact (List.append_nil _).symm⟩
    | true =>
        refine .note fun m hm => ⟨hm.1, ?_⟩
        rw [Main.released, List.filter_append]
        exact congrArg (· ++ [_]) hm.2
  refine .bind hsession fun _ => .bind hcontext fun _ => .bind closeSocket_settled fun _ => ?_
  refine .bind (Q := fun _ => Settled _) (.change fun m hm => ⟨hm.1, hm.2⟩) fun _ => ?_
  refine .note fun m hm => ⟨hm.1, ?_⟩
  rw [Main.released, List.filter_append]
  exact congrArg (· ++ [MainEvent.cleanedUp]) hm.2

/-! ### The whole program -/

/-- The connection comes about: it is asked for, and `WolfSshTcp4Connect` succeeds. -/
def ComesToConnection (codes : WolfSshCodes) (o : Outside) (moments : Nat → Moment) : Prop :=
  let options := (parseArguments o.netLib o.handleProtocol o.argv).2
  ComesToCleanup codes o ∧ options.selfTest = false ∧
    ¬ EfiError (connect options.port o.located o.handles (Net.start, moments)).1

/-- The self-test has a terminal of its own. -/
theorem terminalSelfTest_run {o : Outside} {s s' : Main × (Nat → Moment)} {status : EfiStatus}
    (h : (terminalSelfTest o).run s = (some status, s')) : s' = s := by
  unfold terminalSelfTest at h
  split at h
  · cases h
  · exact (Prod.mk.inj h).2.symm

/-- What `UefiMain` does between the initialization of wolfSSH and its cleanup: what it has
made then, and what it holds. -/
theorem connectAndRun_made {codes : WolfSshCodes} {sha256 : List UInt8 → Digest} {o : Outside}
    {s s' : Main × (Nat → Moment)} {status : EfiStatus} {context ssh : Bool}
    (hnet : s.1.net = Net.start) (hmedia : ∀ i, KnownMedia (s.2 i)) (hreleased : s.1.released = [])
    (h : (connectAndRun codes sha256 o).run s = (some (status, context, ssh), s')) :
    let opened := (connect s.1.options.port o.located o.handles (Net.start, s.2)).1
    (Closable s'.1.net ∧ (ssh = true → Held s'.1.net) ∧ s'.1.released = []) ∧
      (context = true ↔
        s.1.options.selfTest = false ∧ ¬ EfiError opened ∧ o.newContext = true) ∧
      (ssh = true ↔ context = true ∧ o.newSession = true) := by
  intro opened
  have hended : Ended o.handles opened
      (connect s.1.options.port o.located o.handles (Net.start, s.2)).2.1 :=
    connect_ended _ _ _ Net.start s.2 start_unopened
  obtain ⟨_, s₁, hlook, h⟩ := run_bind_some h
  obtain ⟨hoptions, rfl⟩ := Prod.mk.inj hlook
  obtain rfl := Option.some.inj hoptions
  split at h
  · next htest =>
      -- the self-test connects to nothing
      obtain ⟨tested, s₂, hselfTest, h⟩ := run_bind_some h
      obtain rfl := terminalSelfTest_run hselfTest
      obtain ⟨hresult, rfl⟩ := Prod.mk.inj h
      obtain ⟨rfl, hnone⟩ := Prod.mk.inj (Option.some.inj hresult)
      obtain ⟨rfl, rfl⟩ := Prod.mk.inj hnone
      change s.1.options.selfTest = true at htest
      refine ⟨⟨?_, by simp, hreleased⟩, by simp [htest], by simp⟩
      rw [hnet]
      exact .inl start_unopened.1
  next htest =>
  change ¬ s.1.options.selfTest = true at htest
  have htest' : s.1.options.selfTest = false := Bool.eq_false_iff.mpr htest
  obtain ⟨_, s₂, hnote, h⟩ := run_bind_some h
  obtain ⟨-, rfl⟩ := Prod.mk.inj hnote
  obtain ⟨connected, s₃, hconnect, h⟩ := run_bind_some h
  have hconnected : connected = opened ∧
      s₃.1.net = (connect s.1.options.port o.located o.handles (Net.start, s.2)).2.1 ∧
      s₃.1.released = [] := by
    obtain ⟨hresult, rfl⟩ := Prod.mk.inj hconnect
    obtain rfl := Option.some.inj hresult
    have hsame : ((s.1.net, s.2) : Net × (Nat → Moment)) = (Net.start, s.2) := by rw [hnet]
    refine ⟨congrArg (fun before => (connect s.1.options.port o.located o.handles before).1) hsame,
      congrArg (fun before => (connect s.1.options.port o.located o.handles before).2.1) hsame, ?_⟩
    show (s.1.events ++ [_]).filter MainEvent.isRelease = []
    rw [List.filter_append]
    exact congrArg (· ++ []) hreleased
  obtain ⟨rfl, hnet₃, hreleased₃⟩ := hconnected
  rw [← hnet₃] at hended
  split at h
  · next herror =>
      obtain ⟨_, s₄, hnote, h⟩ := run_bind_some h
      obtain ⟨-, rfl⟩ := Prod.mk.inj hnote
      obtain ⟨hresult, rfl⟩ := Prod.mk.inj h
      obtain ⟨rfl, hnone⟩ := Prod.mk.inj (Option.some.inj hresult)
      obtain ⟨rfl, rfl⟩ := Prod.mk.inj hnone
      have hclosed : Closed s₃.1.net := by
        rcases hended with ⟨_, hunopened⟩ | ⟨hsuccess, _⟩
        · exact hunopened.1
        · exact absurd hsuccess (error_ne_success herror)
      refine ⟨⟨.inl hclosed, by simp, ?_⟩, by simp [herror], by simp⟩
      show (s₃.1.events ++ [_]).filter MainEvent.isRelease = []
      rw [List.filter_append]
      exact congrArg (· ++ []) hreleased₃
  next hopened =>
  have hheld : Held s₃.1.net := by
    rcases hended with ⟨hfailed, hunopened⟩ | ⟨_, controller, _, child, rx, tx, hholding, _⟩
    · have hsuccess := connect_status s.1.options.port o.located o.handles hmedia
      exact absurd (hsuccess.resolve_right hopened) hfailed
    · exact ⟨controller, child, rx, tx, hholding⟩
  split at h
  · next hcontext =>
      obtain ⟨hresult, rfl⟩ := Prod.mk.inj h
      obtain ⟨rfl, hnone⟩ := Prod.mk.inj (Option.some.inj hresult)
      obtain ⟨rfl, rfl⟩ := Prod.mk.inj hnone
      exact ⟨⟨.inr hheld, by simp, hreleased₃⟩, by simp [hcontext], by simp⟩
  next hcontext =>
  have hcontext' : o.newContext = true := not_not.mp hcontext
  split at h
  · next hsession =>
      obtain ⟨hresult, rfl⟩ := Prod.mk.inj h
      obtain ⟨rfl, hnone⟩ := Prod.mk.inj (Option.some.inj hresult)
      obtain ⟨rfl, rfl⟩ := Prod.mk.inj hnone
      exact ⟨⟨.inr hheld, by simp, hreleased₃⟩, by simp [hcontext', hopened, htest'],
        by simp [hsession]⟩
  next hsession =>
  have hsession' : o.newSession = true := not_not.mp hsession
  obtain ⟨result, s₄, hwith, h⟩ := run_bind_some h
  obtain ⟨hresult, rfl⟩ := Prod.mk.inj h
  obtain ⟨rfl, hmade⟩ := Prod.mk.inj (Option.some.inj hresult)
  obtain ⟨rfl, rfl⟩ := Prod.mk.inj hmade
  obtain ⟨hheld₄, hreleased₄⟩ := withSession_working o s₃ _ s₄ ⟨hheld, hreleased₃⟩ hwith
  exact ⟨⟨.inr hheld₄, fun _ => hheld₄, hreleased₄⟩, by simp [hcontext', hopened, htest'],
    by simp [hsession']⟩

/-- The state in which `UefiMain` leaves before its cleanup. -/
theorem left_early {codes : WolfSshCodes} {o : Outside} {moments : Nat → Moment} {m : Main}
    (hnot : ¬ ComesToCleanup codes o) (hnet : m.net = Net.start) (hreleased : m.released = []) :
    m.released.Sublist [.sessionFreed, .contextFreed, .cleanedUp] ∧
      (.sessionFreed ∈ m.released ↔
        ComesToConnection codes o moments ∧ o.newContext = true ∧ o.newSession = true) ∧
      (.contextFreed ∈ m.released ↔ ComesToConnection codes o moments ∧ o.newContext = true) ∧
      (.cleanedUp ∈ m.released ↔ ComesToCleanup codes o) ∧ Closed m.net ∧
      (¬ ComesToCleanup codes o → m.net = Net.start) := by
  have hnone : ¬ ComesToConnection codes o moments := fun hcomes => hnot hcomes.1
  rw [hreleased, hnet]
  simp only [List.nil_sublist, List.not_mem_nil, hnone, hnot, false_and, true_and,
    not_false_eq_true, implies_true, and_true]
  exact start_unopened.1

/-- **Whatever happens, nothing is left behind.**  When `UefiMain` returns, it has freed the
session if and only if it made one, then the context if and only if it made one, and last
cleaned wolfSSH up if and only if it initialized it, each once and in this order.  Every child
handle and every event that was created for the connection is released, once; the socket is
empty, the driver has no token that it could still complete; and without an initialized
wolfSSH the network was not touched at all. -/
theorem main_releases (codes : WolfSshCodes) (sha256 : List UInt8 → Digest) (o : Outside)
    (options : Options) {moments : Nat → Moment} (hmedia : ∀ i, KnownMedia (moments i))
    {status : EfiStatus} {finish : Main × (Nat → Moment)}
    (h : (uefiMain codes sha256 o).run (Main.start options, moments) = (some status, finish)) :
    let m := finish.1
    m.released.Sublist [.sessionFreed, .contextFreed, .cleanedUp] ∧
      (.sessionFreed ∈ m.released ↔
        ComesToConnection codes o moments ∧ o.newContext = true ∧ o.newSession = true) ∧
      (.contextFreed ∈ m.released ↔ ComesToConnection codes o moments ∧ o.newContext = true) ∧
      (.cleanedUp ∈ m.released ↔ ComesToCleanup codes o) ∧
      Ledger.Balanced m.net.books.created m.net.books.released [] ∧ m.net.socket = .zero ∧
      (∀ completions, m.net.completeAll completions = m.net) ∧
      (¬ ComesToCleanup codes o → m.net = Net.start) := by
  intro m
  suffices hall : m.released.Sublist [.sessionFreed, .contextFreed, .cleanedUp] ∧
      (.sessionFreed ∈ m.released ↔
        ComesToConnection codes o moments ∧ o.newContext = true ∧ o.newSession = true) ∧
      (.contextFreed ∈ m.released ↔ ComesToConnection codes o moments ∧ o.newContext = true) ∧
      (.cleanedUp ∈ m.released ↔ ComesToCleanup codes o) ∧ Closed m.net ∧
      (¬ ComesToCleanup codes o → m.net = Net.start) by
    obtain ⟨hsublist, hsession, hcontext, hcleaned, hclosed, huntouched⟩ := hall
    exact ⟨hsublist, hsession, hcontext, hcleaned, hclosed.settled.1.balanced, hclosed.socket,
      hclosed.settled.2.completeAll, huntouched⟩
  change (withArguments codes sha256 o (parseArguments o.netLib o.handleProtocol o.argv).1
    (parseArguments o.netLib o.handleProtocol o.argv).2).run _ = _ at h
  have hcomes : ComesToCleanup codes o ↔
      ¬ EfiError (parseArguments o.netLib o.handleProtocol o.argv).1 ∧
        (parseArguments o.netLib o.handleProtocol o.argv).2.help = false ∧
        o.random = 0 ∧ o.init = codes.success := Iff.rfl
  have hconnects : ComesToConnection codes o moments ↔ ComesToCleanup codes o ∧
      (parseArguments o.netLib o.handleProtocol o.argv).2.selfTest = false ∧
      ¬ EfiError (connect (parseArguments o.netLib o.handleProtocol o.argv).2.port o.located
        o.handles (Net.start, moments)).1 := Iff.rfl
  generalize parseArguments o.netLib o.handleProtocol o.argv = parsed at h hcomes hconnects
  obtain ⟨_, s₁, hchange, h⟩ := run_bind_some h
  obtain ⟨-, rfl⟩ := Prod.mk.inj hchange
  split at h
  · next herror =>
      obtain ⟨_, s₂, hline, h⟩ := run_bind_some h
      obtain ⟨-, rfl⟩ := Prod.mk.inj hline
      obtain ⟨_, s₃, husage, h⟩ := run_bind_some h
      obtain ⟨-, rfl⟩ := Prod.mk.inj husage
      obtain ⟨-, rfl⟩ := Prod.mk.inj h
      exact left_early (fun hcome => (hcomes.mp hcome).1 herror) rfl rfl
  split at h
  · next hhelp =>
      obtain ⟨_, s₂, husage, h⟩ := run_bind_some h
      obtain ⟨-, rfl⟩ := Prod.mk.inj husage
      obtain ⟨-, rfl⟩ := Prod.mk.inj h
      refine left_early (fun hcome => ?_) rfl rfl
      rw [(hcomes.mp hcome).2.1] at hhelp
      cases hhelp
  split at h
  · next hrandom =>
      obtain ⟨_, s₂, hline, h⟩ := run_bind_some h
      obtain ⟨-, rfl⟩ := Prod.mk.inj hline
      obtain ⟨-, rfl⟩ := Prod.mk.inj h
      exact left_early (fun hcome => hrandom (hcomes.mp hcome).2.2.1) rfl rfl
  split at h
  · next hinit =>
      obtain ⟨_, s₂, hline, h⟩ := run_bind_some h
      obtain ⟨-, rfl⟩ := Prod.mk.inj hline
      obtain ⟨-, rfl⟩ := Prod.mk.inj h
      exact left_early (fun hcome => hinit (hcomes.mp hcome).2.2.2) rfl rfl
  next hgood hhelp hrandom hinit =>
  have hcome : ComesToCleanup codes o := hcomes.mpr
    ⟨hgood, Bool.eq_false_iff.mpr hhelp, not_not.mp hrandom, not_not.mp hinit⟩
  obtain ⟨⟨status', context, ssh⟩, s₂, hrun, h⟩ := run_bind_some h
  obtain ⟨_, s₃, hcleanup, h⟩ := run_bind_some h
  obtain ⟨-, rfl⟩ := Prod.mk.inj h
  obtain ⟨hready, hcontext, hsession⟩ := connectAndRun_made rfl hmedia rfl hrun
  obtain ⟨hclosed, hreleased⟩ := cleanup_settled codes sha256 o context ssh s₂ _ _ hready hcleanup
  have hcontext' : context = true ↔ ComesToConnection codes o moments ∧ o.newContext = true := by
    rw [hcontext, hconnects, and_assoc, and_assoc]
    exact (and_iff_right hcome).symm
  have hsession' : ssh = true ↔
      ComesToConnection codes o moments ∧ o.newContext = true ∧ o.newSession = true := by
    rw [hsession, hcontext', and_assoc]
  refine ⟨?_, ?_, ?_, ?_, hclosed, fun hnot => absurd hcome hnot⟩
  · rw [hreleased]
    cases context <;> cases ssh <;> simp [releases]
  · rw [← hsession', hreleased]
    cases context <;> cases ssh <;> simp [releases]
  · rw [← hcontext', hreleased]
    cases context <;> cases ssh <;> simp [releases]
  · rw [hreleased]
    simp [releases, hcome]

/-- A world in which the connection and the handshake come about, and there is no memory for a
terminal. -/
def connectedOutside : Outside :=
  { quietOutside [plainX, ⟨[0x75, 0x40, 0x68], by decide⟩] with
    located := efiSuccess
    handles := [7]
    newContext := true
    newSession := true }

/-- The session, the context and wolfSSH are given up, and all that the connection has made. -/
theorem main_releases_connected :
    let o := connectedOutside
    ∃ finish, (uefiMain someCodes noDigest o).run
        (Main.start Options.initial, promptNetwork) = (some efiOutOfResources, finish) ∧
      finish.1.released = [.sessionFreed, .contextFreed, .cleanedUp] ∧
      finish.1.net.books.created.length = 4 ∧
      (.sessionFreed ∈ finish.1.released ↔ ComesToConnection someCodes o promptNetwork ∧
        o.newContext = true ∧ o.newSession = true) ∧
      (.contextFreed ∈ finish.1.released ↔
        ComesToConnection someCodes o promptNetwork ∧ o.newContext = true) ∧
      (.cleanedUp ∈ finish.1.released ↔ ComesToCleanup someCodes o) ∧
      Ledger.Balanced finish.1.net.books.created finish.1.net.books.released [] ∧
      finish.1.net.socket = .zero ∧
      (∀ completions, finish.1.net.completeAll completions = finish.1.net) := by
  intro o
  have hresult : let result : Option EfiStatus × Main × (Nat → Moment) :=
        (uefiMain someCodes noDigest o).run (Main.start Options.initial, promptNetwork)
      result.1 = some efiOutOfResources ∧
        result.2.1.released = [.sessionFreed, .contextFreed, .cleanedUp] ∧
        result.2.1.net.books.created.length = 4 := by
    decide +kernel
  generalize hrun : (uefiMain someCodes noDigest o).run
    (Main.start Options.initial, promptNetwork) = result at hresult
  obtain ⟨status, finish⟩ := result
  obtain ⟨hstatus, hreleased, hcreated⟩ := hresult
  obtain rfl : status = some efiOutOfResources := hstatus
  obtain ⟨-, hsession, hcontext, hcleaned, hbalanced, hsocket, hquiet, -⟩ :=
    main_releases someCodes noDigest o _ (fun _ => .inl rfl) hrun
  exact ⟨finish, rfl, hreleased, hcreated, hsession, hcontext, hcleaned, hbalanced, hsocket,
    hquiet⟩

end WolfSshUefi
