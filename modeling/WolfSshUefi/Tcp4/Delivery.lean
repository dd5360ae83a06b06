import WolfSshUefi.Tcp4.Balance

/-!
# What the callback delivers

From a successful `WolfSshTcp4Connect` on, the receive callback hands out the bytes
that arrive, in order and once (`receive_stream`).  The end of the stream is reported
for good, if the driver gives it as the status of a token, or if `Receive` gives a
reset where the last byte was handed out (`end_of_stream`); a FIN that `Receive`
itself gives is not.
-/

namespace WolfSshUefi.Tcp4

open Async Receipt

/-! ### The stream -/

/-- A connection starts in a good state. -/
theorem Started.good {r : Receipt} (h : Started r) : r.Good := by
  obtain ⟨b, hb, hdriven⟩ := h
  have hdrained := (drained_of_fresh hb).drained
  exact (hb.good.accept hb.inactive hdrained hb.unended).of_moves hdriven.moves

/-- A connection that has just been made has handed out nothing. -/
theorem Started.unreturned {r : Receipt} (h : Started r) : r.returned = [] := by
  obtain ⟨b, hb, hdriven⟩ := h
  exact hdriven.sameProgram.returned.trans hb.returned

/-- Calls on a connection are moves, and hand out the bytes of their results. -/
theorem Linked.run {controller : Handle} {n : Net} (h : Linked controller n)
    (calls : List NetCall) (moments : Nat → Moment) :
    Handing n.receipt ((run calls (n, moments)).1.flatMap NetResult.bytes)
      (run calls (n, moments)).2.1 := by
  obtain ⟨child, rx, tx, _, hstarted⟩ := h
  exact run_handing hstarted.good calls [] n moments ⟨.refl, hstarted.unreturned⟩

/-- A successful `WolfSshTcp4Connect` leaves a link to one controller. -/
theorem connect_linked {remotePort : UInt16} {located : EfiStatus} {handles : List Handle}
    {moments : Nat → Moment}
    (h : (connect remotePort located handles (Net.start, moments)).1 = efiSuccess) :
    ∃ controller, Linked controller (connect remotePort located handles (Net.start, moments)).2.1 := by
  have hended := connect_ended remotePort located handles Net.start moments start_unopened
  rcases hended with ⟨hfailed, _⟩ | ⟨_, controller, _, hlinked⟩
  · exact absurd h hfailed
  · exact ⟨controller, hlinked⟩

/-- The bytes of the results that wolfSSH got, what is unread and what has not been taken yet
are what has arrived.  The driver never owns two receive tokens, and the program does not
write to what the driver owns or to bytes that were not handed out. -/
theorem receive_stream (remotePort : UInt16) (located : EfiStatus) (handles : List Handle)
    (moments : Nat → Moment) (calls : List NetCall)
    (h : (connect remotePort located handles (Net.start, moments)).1 = efiSuccess) :
    let opened := (connect remotePort located handles (Net.start, moments)).2
    let results := (run calls opened).1
    let n := (run calls opened).2.1
    results.flatMap NetResult.bytes ++ (n.socket.unread ++ n.kept) =
      n.trace.flatMap NetEvent.arrivedBytes ∧
    n.receives ≤ 1 ∧
    (∀ owned, .accepted owned ∈ n.trace → owned = 0) ∧
    ∀ owned kept, .rewrote owned kept ∈ n.trace → owned = 0 ∧ kept = [] := by
  intro opened results n
  obtain ⟨controller, hlinked⟩ := connect_linked h
  obtain ⟨hmoves, hhanded⟩ := hlinked.run calls opened.2
  have hgood : n.receipt.Good := by
    obtain ⟨_, _, _, _, hstarted⟩ := hlinked
    exact hstarted.good.of_moves hmoves
  have hpeaceful : ∀ e ∈ n.trace, ¬ e.clashes = true := List.filter_eq_nil_iff.mp hgood.peaceful
  refine ⟨?_, ?_, fun owned hmem => ?_, fun owned kept hmem => ?_⟩
  · have hfaithful := hgood.faithful
    rw [hhanded] at hfaithful
    exact hfaithful
  · have hreceives : n.receipt.receives ≤ 1 := by
      cases hgood.phase with
      | idle inactive unowned => omega
      | posted active owned => omega
      | done active unowned => omega
    exact hreceives
  · simpa [NetEvent.clashes] using hpeaceful _ hmem
  · simpa [NetEvent.clashes] using hpeaceful _ hmem

/-- One byte is asked for, and one of the two that have arrived is handed over. -/
theorem receive_stream_prompt :
    let opened := (connect 22 efiSuccess [7] (Net.start, promptNetwork)).2
    let results := (run [.recv 1] opened).1
    let n := (run [.recv 1] opened).2.1
    results.flatMap NetResult.bytes = [104] ∧ n.socket.unread = [105] ∧
    results.flatMap NetResult.bytes ++ (n.socket.unread ++ n.kept) =
      n.trace.flatMap NetEvent.arrivedBytes :=
  ⟨by decide +kernel, by decide +kernel,
    (receive_stream 22 efiSuccess [7] promptNetwork [.recv 1] (by decide +kernel)).1⟩

/-! ### The end of the stream -/

namespace Receipt

/-- The driver has said that the connection is closed, or reset. -/
def Signalled (s : EfiStatus) (r : Receipt) : Prop :=
  s ∈ r.failures ∨ ∃ place, place ≠ .opening ∧ (place, s) ∈ r.refusals

/-- It has said so only where the program takes note. -/
def Noted (r : Receipt) : Prop :=
  (∀ place, place ≠ .opening → (place, efiConnectionFin) ∉ r.refusals) ∧
    (.idle, efiConnectionReset) ∉ r.refusals

/-- The program has taken note. -/
structure Stopped (s : EfiStatus) (r : Receipt) : Prop where
  inactive : r.rxActive = false
  unowned : r.receives = 0
  kept : r.kept = []
  drained : r.rxLength ≤ r.rxOffset
  noted : s = efiConnectionFin ∧ r.endOfStream = true ∨
    s = efiConnectionReset ∧ r.endOfStream = false ∧ r.lastRxStatus = efiConnectionReset

/-- The status of the token says so. -/
structure Stopping (s : EfiStatus) (r : Receipt) : Prop where
  active : r.rxActive = true
  unowned : r.receives = 0
  done : r.rxDone = true
  status : r.status = s
  kept : r.kept = []
  drained : r.rxLength = 0
  unended : r.endOfStream = false

/-- A close or a reset. -/
def Final (s : EfiStatus) : Prop := s = efiConnectionFin ∨ s = efiConnectionReset

section

variable {s : EfiStatus} {r r' : Receipt}

/-- At the end of a reception the stream stops. -/
theorem Stopping.finish (h : Stopping s r) (hs : Final s) : Stopped s r.finish := by
  have hstatus := h.status
  have hdrained : r.rxLength ≤ r.rxOffset := by
    rw [h.drained]
    exact Nat.zero_le _
  rcases hs with rfl | rfl
  · rw [finish_fin hstatus]
    exact ⟨rfl, h.unowned, h.kept, hdrained, .inl ⟨rfl, rfl⟩⟩
  · have hfin : r.status ≠ efiConnectionFin := by
      rw [hstatus]
      decide
    have herror : EfiError r.status := by
      rw [hstatus]
      decide
    rw [finish_error hfin herror]
    exact ⟨rfl, h.unowned, h.kept, hdrained, .inr ⟨rfl, h.unended, hstatus⟩⟩

/-- Once the end was noted nothing moves any more. -/
theorem Stopped.of_move (h : Stopped s r) (hmove : Move r r') : False := by
  have hdrained := h.drained
  have hunowned := h.unowned
  have hopen (hunended : r.endOfStream = false)
      (hhealthy : ¬ (EfiError r.lastRxStatus ∧ r.lastRxStatus ≠ efiNotReady)) : False := by
    rcases h.noted with ⟨_, hended⟩ | ⟨_, _, hreset⟩
    · exact absurd (hunended.symm.trans hended) Bool.false_ne_true
    · rw [hreset] at hhealthy
      exact hhealthy (by decide)
  cases hmove with
  | driver move =>
      cases move with
      | arrive packet owned => omega
      | fail failure owned => omega
  | finish active done => exact absurd (h.inactive.symm.trans active) Bool.false_ne_true
  | take size rest => omega
  | drainRefused status unread error unended => omega
  | drainAccepted unread unended => omega
  | idleRefused status idle drained unended healthy => exact hopen unended healthy
  | idleAccepted idle drained unended healthy => exact hopen unended healthy

/-- So it does at any other move. -/
theorem Stopping.of_move (h : Stopping s r) (hs : Final s) (hmove : Move r r') : Stopped s r' := by
  have hdrained := h.drained
  have hunowned := h.unowned
  cases hmove with
  | driver move =>
      cases move with
      | arrive packet owned => omega
      | fail failure owned => omega
  | finish active done => exact h.finish hs
  | take size rest => omega
  | drainRefused status unread error unended => omega
  | drainAccepted unread unended => omega
  | idleRefused status idle => exact absurd (idle.symm.trans h.active) Bool.false_ne_true
  | idleAccepted idle => exact absurd (idle.symm.trans h.active) Bool.false_ne_true

/-- The end was signalled, and nothing gets lost of it. -/
def Over (s : EfiStatus) (r : Receipt) : Prop := Stopped s r ∨ Stopping s r

/-- What is over stays over. -/
theorem Over.of_moves (h : Over s r) (hs : Final s) (hmoves : Moves r r') : Over s r' := by
  induction hmoves with
  | refl => exact h
  | tail _ hmove ih =>
      rcases ih with hended | hending
      · exact (hended.of_move hmove).elim
      · exact .inl (hending.of_move hs hmove)

/-- The end of a reception adds no failure. -/
theorem finish_failures (r : Receipt) : r.finish.failures = r.failures := by
  unfold Receipt.finish
  split
  · rfl
  · split <;> rfl

/-- It adds no refusal. -/
theorem finish_refusals (r : Receipt) : r.finish.refusals = r.refusals := by
  unfold Receipt.finish
  split
  · rfl
  · split <;> rfl

/-- A signal that was noted wherever it came from is not lost. -/
def Heard (r : Receipt) : Prop := r.Noted → ∀ s, Final s → r.Signalled s → Over s r

/-- A move without a signal. -/
theorem Heard.of_same (h : r.Heard) (hmove : Move r r') (hfailures : r'.failures = r.failures)
    (hrefusals : r'.refusals = r.refusals) : r'.Heard := by
  intro hnoted s hs hsignalled
  rw [Noted, hrefusals] at hnoted
  rw [Signalled, hfailures, hrefusals] at hsignalled
  exact (h hnoted s hs hsignalled).of_moves hs (.single hmove)

/-- A move with one refusal. -/
theorem Heard.of_refused (h : r.Heard) (hmove : Move r r') {place : Place} {status : EfiStatus}
    (hfailures : r'.failures = r.failures)
    (hrefusals : r'.refusals = r.refusals ++ [(place, status)])
    (hnew : r'.Noted → Final status → Over status r') : r'.Heard := by
  intro hnoted s hs hsignalled
  have hbefore : r.Noted := by
    refine ⟨fun place hplace hmem => hnoted.1 place hplace ?_, fun hmem => hnoted.2 ?_⟩
    · rw [hrefusals]
      exact List.mem_append_left _ hmem
    · rw [hrefusals]
      exact List.mem_append_left _ hmem
  rcases hsignalled with hfailed | ⟨at_, hplace, hmem⟩
  · rw [hfailures] at hfailed
    exact (h hbefore s hs (.inl hfailed)).of_moves hs (.single hmove)
  · rw [hrefusals] at hmem
    rcases List.mem_append.mp hmem with hold | hlast
    · exact (h hbefore s hs (.inr ⟨at_, hplace, hold⟩)).of_moves hs (.single hmove)
    · obtain ⟨rfl, rfl⟩ := Prod.mk.inj (List.mem_singleton.mp hlast)
      exact hnew hnoted hs

/-- The driver fails a token. -/
theorem Heard.of_failed (h : r.Heard) (hgood : r.Good) (failure : Failure)
    (howned : 0 < r.receives) : (r.fail failure.status).Heard := by
  intro hnoted s hs hsignalled
  have hold (hbefore : r.Signalled s) : Over s (r.fail failure.status) :=
    (h hnoted s hs hbefore).of_moves hs (.single (.driver (.fail failure howned)))
  rcases hsignalled with hfailed | hrefused
  · rcases List.mem_append.mp hfailed with hbefore | hnew
    · exact hold (.inl hbefore)
    · rw [List.mem_singleton.mp hnew]
      cases hgood.phase with
      | idle inactive unowned => omega
      | done active unowned => omega
      | posted active owned kept pending drained unended =>
          have hunowned : (r.fail failure.status).receives = 0 := by
            simp [Receipt.fail, owned]
          exact .inr ⟨active, hunowned, rfl, rfl, kept, drained, unended⟩
  · exact hold (.inr hrefused)

/-- One case for each move. -/
theorem Heard.of_move (h : r.Heard) (hgood : r.Good) (hmove : Move r r') : r'.Heard := by
  cases hmove with
  | driver move =>
      cases move with
      | arrive packet owned => exact h.of_same (.driver (.arrive packet owned)) rfl rfl
      | fail failure owned => exact h.of_failed hgood failure owned
  | finish active done =>
      exact h.of_same (.finish active done) (finish_failures r) (finish_refusals r)
  | take size rest => exact h.of_same (.take size rest) rfl rfl
  | drainRefused status unread error unended =>
      refine h.of_refused (.drainRefused status unread error unended) rfl rfl fun hnoted hs => ?_
      obtain ⟨inactive, unowned, kept, _⟩ := hgood.phase.of_unread unread
      rcases hs with rfl | rfl
      · exact absurd (List.mem_append_right _ (List.mem_singleton_self _))
          (hnoted.1 .drained (by decide))
      · exact .inl ⟨inactive, unowned, kept, Nat.le_refl 0, .inr ⟨rfl, unended, rfl⟩⟩
  | drainAccepted unread unended => exact h.of_same (.drainAccepted unread unended) rfl rfl
  | idleRefused status idle drained unended healthy =>
      refine h.of_refused (.idleRefused status idle drained unended healthy) rfl rfl ?_
      intro hnoted hs
      have hlast : (Place.idle, status) ∈ r.refusals ++ [(.idle, status)] :=
        List.mem_append_right _ (List.mem_singleton_self _)
      rcases hs with rfl | rfl
      · exact absurd hlast (hnoted.1 .idle (by decide))
      · exact absurd hlast hnoted.2
  | idleAccepted idle drained unended healthy =>
      exact h.of_same (.idleAccepted idle drained unended healthy) rfl rfl

/-- What was heard is heard after any moves. -/
theorem Heard.of_moves (h : r.Heard) (hgood : r.Good) (hmoves : Moves r r') : r'.Heard := by
  induction hmoves with
  | refl => exact h
  | tail hbefore hmove ih => exact ih.of_move (hgood.of_moves hbefore) hmove

end

end Receipt

/-! ### What the callback says -/

/-- What the callback returns for a close or a reset. -/
def finalResult (s : EfiStatus) : RecvResult :=
  if s = efiConnectionFin then .connClose else .connRst

/-- A connection with a protocol. -/
def Polling (b : Receipt) (n : Net) : Prop := Follows b n ∧ n.books.pointers.protocol.isSome

section

variable {b : Receipt} {s : EfiStatus}

/-- The driver may move before a poll. -/
theorem polling_stable : Stable (Polling b) := by
  intro n c h
  refine ⟨follows_stable n c h.1, ?_⟩
  rw [books_complete]
  exact h.2

/-- A poll, as a move of the receipt. -/
theorem poll_follows (hgood : b.Good) :
    Triple (Polling b) poll fun _ n => ∃ d, Polled b d ∧ Follows d n := by
  refine .bind polling_stable.interrupt fun _ => .bind .read fun guard => .ite (fun hnone => ?_) ?_
  · refine .pure fun n ⟨h, hread⟩ => ?_
    have hsome : n.socket.protocol.isSome = true := h.2
    have hnot : n.socket.protocol.isNone = true := hread.symm.trans hnone
    rw [Option.isNone_iff_eq_none.mp hnot] at hsome
    cases hsome
  · intro _
    refine Triple.pre (P := Polling b) ?_ fun n h => h.1
    refine .bind polling_stable.interrupt fun _ => ?_
    exact (finishReceive_follows hgood).pre fun n h => h.1

/-- A stopped stream is reported as what it is. -/
theorem reportIdle_stopped (hs : Final s) (h : Stopped s b) :
    Triple (Follows b) reportIdle fun result _ => result = finalResult s := by
  have hsame (n : Net) (h : Follows b n) : SameProgram b n.receipt := Driven.sameProgram h
  refine .bind follows_stable.interrupt fun _ => ?_
  refine read_follows b.endOfStream (fun n h => (hsame n h).endOfStream) ?_
  rcases h.noted with ⟨rfl, hended⟩ | ⟨rfl, hunended, hreset⟩
  · rw [hended]
    exact .pure fun n h => rfl
  · rw [hunended]
    refine read_follows b.lastRxStatus (fun n h => (hsame n h).lastRxStatus) ?_
    rw [hreset]
    exact .pure fun n h => rfl

/-- Once the stream is over every receive callback says so. -/
theorem recvCallback_over (hgood : b.Good) (hs : Final s) (h : Over s b) {size : Nat}
    (hsize : size ≠ 0) :
    Triple (Polling b) (recvCallback size) fun result _ => result = finalResult s := by
  have hpoll : Triple (Polling b) poll fun _ n => ∃ d, Stopped s d ∧ Follows d n := by
    refine (poll_follows hgood).post fun _ n ⟨d, hpolled, hfollows⟩ => ⟨d, ?_, hfollows⟩
    rcases h with hstopped | hstopping
    · cases hpolled with
      | waiting pending => exact hstopped
      | finished driven active done =>
          rw [driven.eq hstopped.unowned] at active
          exact absurd (hstopped.inactive.symm.trans active) Bool.false_ne_true
    · cases hpolled with
      | waiting pending =>
          exact absurd ((pending hstopping.active).symm.trans hstopping.done) Bool.false_ne_true
      | finished driven active done =>
          rw [driven.eq hstopping.unowned]
          exact hstopping.finish hs
  refine .ite (fun hzero => absurd hzero hsize) fun _ => .bind hpoll fun _ => .exists_pre fun d => ?_
  refine .of_fact fun hstopped => .bind follows_stable.interrupt fun _ => ?_
  refine read_follows false (fun n hn => ?_) (reportIdle_stopped hs hstopped)
  have hsame := Driven.sameProgram hn
  have hlength : n.socket.rxLength = d.rxLength := hsame.rxLength
  have hoffset : n.socket.rxOffset = d.rxOffset := hsame.rxOffset
  rw [hlength, hoffset]
  exact decide_eq_false (Nat.not_lt.mpr hstopped.drained)

end

/-- At the start there is nothing to be heard. -/
theorem Started.heard {r : Receipt} (h : Started r) : r.Heard := by
  obtain ⟨b, hb, hdriven⟩ := h
  have hdrained := (drained_of_fresh hb).drained
  have hfirst : b.prepare.accept.Heard := by
    intro _ s _ hcase
    obtain hfailed | ⟨place, hplace, hmem⟩ := hcase
    · have hfailures : b.prepare.accept.failures = [] := hb.failures
      rw [hfailures] at hfailed
      cases hfailed
    · exact absurd (hb.refusals _ hmem) hplace
  exact hfirst.of_moves (hb.good.accept hb.inactive hdrained hb.unended) hdriven.moves

/-- The driver has said that the connection is closed, or reset: as the status of a
token, or when a token was posted again. -/
def Net.Signalled (s : EfiStatus) (n : Net) : Prop :=
  .failed s ∈ n.trace ∨ ∃ place, place ≠ .opening ∧ .refused place s ∈ n.trace

/-- `Receive` itself never gave a FIN, and a reset only where the last unread byte was
taken. -/
def Net.Noted (n : Net) : Prop :=
  (∀ place, place ≠ .opening → .refused place efiConnectionFin ∉ n.trace) ∧
    .refused .idle efiConnectionReset ∉ n.trace

/-- A failure is in the receipt exactly if it is in the trace. -/
theorem mem_failures {n : Net} {s : EfiStatus} :
    s ∈ n.receipt.failures ↔ .failed s ∈ n.trace := by
  simp only [Net.receipt, List.mem_filterMap]
  constructor
  · intro hall
    obtain ⟨e, hmem, he⟩ := hall
    cases e
    all_goals simp [NetEvent.failure?] at he
    rwa [he] at hmem
  · exact fun hmem => ⟨_, hmem, rfl⟩

theorem mem_refusals {n : Net} {place : Place} {s : EfiStatus} :
    (place, s) ∈ n.receipt.refusals ↔ .refused place s ∈ n.trace := by
  simp only [Net.receipt, List.mem_filterMap]
  constructor
  · intro hall
    obtain ⟨e, hmem, he⟩ := hall
    cases e
    all_goals simp [NetEvent.refusal?] at he
    rwa [he.1, he.2] at hmem
  · exact fun hmem => ⟨_, hmem, rfl⟩

/-- What the trace says is signalled is signalled to the receipt. -/
theorem Net.Signalled.receipt {n : Net} {s : EfiStatus} (h : n.Signalled s) :
    n.receipt.Signalled s := by
  rcases h with hfailed | ⟨place, hplace, hrefused⟩
  · exact .inl (mem_failures.mpr hfailed)
  · exact .inr ⟨place, hplace, mem_refusals.mpr hrefused⟩

/-- And what it says is noted is noted. -/
theorem Net.Noted.receipt {n : Net} (h : n.Noted) : n.receipt.Noted := by
  refine ⟨fun place hplace hmem => h.1 place hplace (mem_refusals.mp hmem), fun hmem => ?_⟩
  exact h.2 (mem_refusals.mp hmem)

/-- A stream that is over has handed over everything. -/
theorem Receipt.Over.empty {s : EfiStatus} {r : Receipt} (h : Over s r) :
    r.unread ++ r.kept = [] := by
  rcases h with hstopped | hstopping
  · rw [unread_eq_nil hstopped.drained, hstopped.kept]
    rfl
  · have hdrained : r.rxLength ≤ r.rxOffset := by
      rw [hstopping.drained]
      exact Nat.zero_le _
    rw [unread_eq_nil hdrained, hstopping.kept]
    rfl

/-- In every run in which every close is noted: when the driver has said that the
connection is closed, or reset, all bytes were returned, and every further callback
says so. -/
theorem end_of_stream (remotePort : UInt16) (located : EfiStatus) (handles : List Handle)
    (moments : Nat → Moment) (calls : List NetCall)
    (h : (connect remotePort located handles (Net.start, moments)).1 = efiSuccess) :
    let n := (run calls (connect remotePort located handles (Net.start, moments)).2).2.1
    n.Noted → ∀ s, Final s → n.Signalled s →
      n.socket.unread ++ n.kept = [] ∧
      ∀ further moments' size, size ≠ 0 →
        (recvCallback size (run further (n, moments')).2).1 = finalResult s := by
  intro n hnoted s hs hsignalled
  obtain ⟨controller, hlinked⟩ := connect_linked h
  obtain ⟨hmoves, -⟩ :=
    hlinked.run calls (connect remotePort located handles (Net.start, moments)).2.2
  obtain ⟨child, rx, tx, hholding, hstarted⟩ := hlinked
  have hgood : n.receipt.Good := hstarted.good.of_moves hmoves
  have hheard : n.receipt.Heard := hstarted.heard.of_moves hstarted.good hmoves
  have hover := hheard hnoted.receipt s hs hsignalled.receipt
  refine ⟨hover.empty, fun further moments' size hsize => ?_⟩
  have hfurther : Moves n.receipt (run further (n, moments')).2.1.receipt :=
    (run_handing hgood further n.receipt.returned n moments' ⟨.refl, rfl⟩).1
  have hpointers : (run further (n, moments')).2.1.books.pointers = linked controller child rx tx := by
    rw [run_books further n moments', run_books calls]
    exact hholding.pointers
  have hpolling : Polling (run further (n, moments')).2.1.receipt (run further (n, moments')).2.1 := by
    refine ⟨.refl, ?_⟩
    rw [hpointers]
    rfl
  exact recvCallback_over (hgood.of_moves hfurther) hs (hover.of_moves hs hfurther) hsize _ _ hpolling

/-- A network on which the connection is made, and then closed by the peer: the token
completes with FIN. -/
def closingNetwork : Nat → Moment := fun i =>
  if i < 20 then ⟨efiSuccess, efiSuccess, [.connected efiSuccess]⟩
  else ⟨efiSuccess, efiSuccess, [.receiveFailed ⟨efiConnectionFin, by decide⟩]⟩

/-- The driver closes the connection after some moments. -/
theorem end_of_stream_closing :
    let n := (run [.recv 4] (connect 22 efiSuccess [7] (Net.start, closingNetwork)).2).2.1
    ∀ further moments' size, size ≠ 0 →
      (recvCallback size (run further (n, moments')).2).1 = .connClose :=
  (end_of_stream 22 efiSuccess [7] closingNetwork [.recv 4] (by decide +kernel)
    ⟨fun place _ => by cases place <;> decide +kernel, by decide +kernel⟩ efiConnectionFin
    (.inl rfl) (.inl (by decide +kernel))).2

/-- The same, but two bytes arrive before, and `Receive` gives the FIN where the token
is posted again. -/
def refusingNetwork : Nat → Moment := fun i =>
  if i < 30 then promptNetwork i else ⟨efiConnectionFin, efiSuccess, []⟩

/-- A FIN that `Receive` gives is no close for the callback. -/
theorem fin_is_general :
    let opened := connect 22 efiSuccess [7] (Net.start, refusingNetwork)
    let drained := (run [.recv 4] opened.2).2
    opened.1 = efiSuccess ∧
    (run [.recv 4] opened.2).1 = [.received (.bytes [104, 105])] ∧
    drained.1.trace.flatMap NetEvent.arrivedBytes = [104, 105] ∧
    .refused .drained efiConnectionFin ∈ drained.1.trace ∧
    (recvCallback 4 drained).1 = .general ∧ finalResult efiConnectionFin = .connClose := by
  decide +kernel

end WolfSshUefi.Tcp4
