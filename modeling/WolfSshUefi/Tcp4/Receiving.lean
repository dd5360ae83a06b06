import WolfSshUefi.Tcp4.Receipt

/-!
# The program receives

Polling, receiving and sending are moves of the receiving side, whatever the driver
does meanwhile (`run_reached`).  Between two statements only the driver moves, and
it can do so only while it owns the token.
-/

namespace WolfSshUefi.Tcp4

open Async Receipt

namespace Receipt

/-- Any number of moves of the driver. -/
abbrev Driven : Receipt → Receipt → Prop := Relation.ReflTransGen DriverMove

section

variable {b r : Receipt}

/-- Without a token the driver cannot move. -/
theorem Driven.eq (h : Driven b r) (hunowned : b.receives = 0) : r = b := by
  induction h with
  | refl => rfl
  | tail _ hmove ih =>
      subst ih
      cases hmove with
      | arrive packet owned => omega
      | fail failure owned => omega

/-- What the driver does are moves. -/
theorem Driven.moves (h : Driven b r) : Moves b r :=
  Relation.ReflTransGen.mono (fun _ _ hmove => .driver hmove) _ _ h

/-- What the driver cannot change. -/
structure SameProgram (b r : Receipt) : Prop where
  rxActive : r.rxActive = b.rxActive
  rxOffset : r.rxOffset = b.rxOffset
  rxLength : r.rxLength = b.rxLength
  endOfStream : r.endOfStream = b.endOfStream
  lastRxStatus : r.lastRxStatus = b.lastRxStatus
  posts : r.posts = b.posts
  returned : r.returned = b.returned

/-- They leave what the program holds. -/
theorem Driven.sameProgram (h : Driven b r) : SameProgram b r := by
  induction h with
  | refl => exact ⟨rfl, rfl, rfl, rfl, rfl, rfl, rfl⟩
  | tail _ hmove ih =>
      obtain ⟨hactive, hoffset, hlength, hended, hlast, hposts, hreturned⟩ := ih
      cases hmove with
      | arrive packet owned => exact ⟨hactive, hoffset, hlength, hended, hlast, hposts, hreturned⟩
      | fail failure owned => exact ⟨hactive, hoffset, hlength, hended, hlast, hposts, hreturned⟩

/-- What the program does to its own part can as well be done before. -/
theorem Driven.map (h : Driven b r) (f : Receipt → Receipt)
    (hf : ∀ r r', DriverMove r r' → DriverMove (f r) (f r')) : Driven (f b) (f r) :=
  Relation.ReflTransGen.lift f hf _ _ h

/-- The program says that it has given the token away. -/
theorem Driven.activate (h : Driven b r) :
    Driven { b with rxActive := true } { r with rxActive := true } := by
  refine h.map (fun r => { r with rxActive := true }) fun r r' hmove => ?_
  cases hmove with
  | arrive packet owned => exact .arrive packet owned
  | fail failure owned => exact .fail failure owned

/-- The program returns bytes. -/
theorem Driven.returns (h : Driven b r) (bytes : List UInt8) :
    Driven { b with returned := b.returned ++ bytes }
      { r with returned := r.returned ++ bytes } := by
  refine h.map (fun r => { r with returned := r.returned ++ bytes }) fun r r' hmove => ?_
  cases hmove with
  | arrive packet owned => exact .arrive packet owned
  | fail failure owned => exact .fail failure owned

end

end Receipt

/-! ### The driver -/

/-- One event more. -/
theorem receipt_record (n : Net) (e : NetEvent) :
    (n.record e).receipt = { n.receipt with
      posts := n.receipt.posts + e.accepted?.toList.length
      returned := n.receipt.returned ++ e.returnedBytes
      arrived := n.receipt.arrived ++ e.arrivedBytes
      failures := n.receipt.failures ++ e.failure?.toList
      refusals := n.receipt.refusals ++ e.refusal?.toList
      clashes := n.receipt.clashes ++ [e].filter NetEvent.clashes } := by
  cases hfailure : e.failure?
  all_goals
    cases hrefusal : e.refusal?
    all_goals
      cases haccepted : e.accepted?
      all_goals simp [Net.receipt, Net.record, Net.posts, hfailure, hrefusal, haccepted]

/-- Bytes have arrived. -/
theorem record_arrived (n : Net) (bytes : List UInt8) :
    (n.record (.arrived bytes)).receipt =
      { n.receipt with arrived := n.receipt.arrived ++ bytes } := by
  rw [receipt_record]
  simp [NetEvent.accepted?, NetEvent.returnedBytes, NetEvent.arrivedBytes, NetEvent.failure?,
    NetEvent.refusal?, NetEvent.clashes]

/-- A reception has failed. -/
theorem record_failed (n : Net) (status : EfiStatus) :
    (n.record (.failed status)).receipt =
      { n.receipt with failures := n.receipt.failures ++ [status] } := by
  rw [receipt_record]
  simp [NetEvent.accepted?, NetEvent.returnedBytes, NetEvent.arrivedBytes, NetEvent.failure?,
    NetEvent.refusal?, NetEvent.clashes]

/-- Bytes were handed over. -/
theorem record_returned (n : Net) (bytes : List UInt8) :
    (n.record (.returned bytes)).receipt =
      { n.receipt with returned := n.receipt.returned ++ bytes } := by
  rw [receipt_record]
  simp [NetEvent.accepted?, NetEvent.returnedBytes, NetEvent.arrivedBytes, NetEvent.failure?,
    NetEvent.refusal?, NetEvent.clashes]

/-- A call was refused. -/
theorem record_refused (n : Net) (place : Place) (status : EfiStatus) :
    (n.record (.refused place status)).receipt = n.receipt.refuse place status := by
  rw [receipt_record]
  simp [NetEvent.accepted?, NetEvent.returnedBytes, NetEvent.arrivedBytes, NetEvent.failure?,
    NetEvent.refusal?, NetEvent.clashes, Receipt.refuse]

/-- An event that receiving has nothing to do with. -/
structure NetEvent.Apart (e : NetEvent) : Prop where
  accepted : e.accepted? = none
  returned : e.returnedBytes = []
  arrived : e.arrivedBytes = []
  failure : e.failure? = none
  refusal : e.refusal? = none
  peaceful : e.clashes = false

/-- The receive token was accepted. -/
theorem record_accepted (n : Net) :
    (n.record (.accepted 0)).receipt = { n.receipt with posts := n.receipt.posts + 1 } := by
  rw [receipt_record]
  simp [NetEvent.accepted?, NetEvent.returnedBytes, NetEvent.arrivedBytes, NetEvent.failure?,
    NetEvent.refusal?, NetEvent.clashes]

/-- Other events are not about receiving. -/
theorem record_apart (n : Net) {e : NetEvent} (h : e.Apart) :
    (n.record e).receipt = n.receipt := by
  rw [receipt_record]
  simp [h.accepted, h.returned, h.arrived, h.failure, h.refusal, h.peaceful]

/-- A completion is a move of the driver, or not about receiving. -/
theorem complete_receipt (n : Net) (c : Completion) :
    (n.complete c).receipt = n.receipt ∨ DriverMove n.receipt (n.complete c).receipt := by
  cases c with
  | received packet =>
      by_cases howned : n.receives = 0
      · exact .inl (congrArg Net.receipt (if_pos howned))
      · have hmove : (n.complete (.received packet)).receipt = n.receipt.arrive packet.bytes := by
          simp only [Net.complete, if_neg howned]
          exact congrArg (fun r : Receipt => { r with
            receives := n.receives - 1
            kept := n.kept ++ packet.bytes
            status := efiSuccess
            dataLength := packet.bytes.length
            rxBuffer := fun i => packet.bytes.getD i (n.socket.rxBuffer i)
            rxDone := true }) (record_arrived n packet.bytes)
        rw [hmove]
        exact .inr (.arrive packet (Nat.pos_of_ne_zero howned))
  | receiveFailed failure =>
      by_cases howned : n.receives = 0
      · exact .inl (congrArg Net.receipt (if_pos howned))
      · have hmove : (n.complete (.receiveFailed failure)).receipt =
            n.receipt.fail failure.status := by
          simp only [Net.complete, if_neg howned]
          exact congrArg (fun r : Receipt => { r with
            receives := n.receives - 1
            status := failure.status
            rxDone := true }) (record_failed n failure.status)
        rw [hmove]
        exact .inr (.fail failure (Nat.pos_of_ne_zero howned))
  | transmitted index status =>
      simp only [Net.complete]
      split
      · exact .inl rfl
      · next number hnumber =>
        exact .inl (record_apart n (e := .transmitted number status) ⟨rfl, rfl, rfl, rfl, rfl, rfl⟩)
  | connected status =>
      simp only [Net.complete]
      split <;> exact .inl rfl
  | closed =>
      simp only [Net.complete]
      split <;> exact .inl rfl

/-- The receiving side is at `b`, but for what the driver did since. -/
def Follows (b : Receipt) (n : Net) : Prop := Driven b n.receipt

section Follows

variable {b : Receipt}

/-- What follows a receipt follows it after the driver has moved. -/
theorem follows_stable : Stable (Follows b) := by
  intro n c h
  rcases complete_receipt n c with hsame | hmove
  · exact Eq.subst (motive := fun r => Driven b r) hsame.symm h
  · exact h.tail hmove

/-- Without a token in its hands the driver does not move. -/
theorem Follows.eq {n : Net} (h : Follows b n) (hunowned : b.receives = 0) : n.receipt = b :=
  Driven.eq h hunowned

/-! ### Posting the token -/

/-- The program changes the socket while it has the token. -/
theorem setSocket_follows {f : Socket → Socket} {g : Receipt → Receipt}
    (hg : ∀ n : Net, Net.receipt { n with socket := f n.socket } = g n.receipt)
    (hunowned : b.receives = 0) :
    Triple (Follows b) (setSocket f) fun _ => Follows (g b) := by
  refine .update fun n h => ?_
  have hgoal : Net.receipt { n with socket := f n.socket } = g b := by
    rw [hg, h.eq hunowned]
  rw [Follows, hgoal]

/-- It writes to the token. -/
theorem rewrite_follows {f : Socket → Socket} {g : Receipt → Receipt}
    (hg : ∀ n : Net, Net.receipt { n with socket := f n.socket } = g n.receipt)
    (hunowned : b.receives = 0) (hkept : b.kept = []) (hdrained : b.rxLength ≤ b.rxOffset) :
    Triple (Follows b) (rewrite f) fun _ => Follows (g b) := by
  refine .update fun n h => ?_
  have heq := h.eq hunowned
  have hreceives : n.receives = 0 := (congrArg Receipt.receives heq).trans hunowned
  have hunread : n.socket.unread ++ n.kept = [] := by
    have hbytes : n.receipt.unread ++ n.receipt.kept = [] := by
      rw [heq, hkept, unread_eq_nil hdrained]
      rfl
    exact hbytes
  have hrecord : (n.record (.rewrote n.receives (n.socket.unread ++ n.kept))).receipt = b := by
    rw [hreceives, hunread, record_apart n ⟨rfl, rfl, rfl, rfl, rfl, rfl⟩, heq]
  have hgoal := hg (n.record (.rewrote n.receives (n.socket.unread ++ n.kept)))
  rw [hrecord] at hgoal
  have hdriven : Driven (g b) (g b) := .refl
  rw [← hgoal] at hdriven ⊢
  exact hdriven

/-- A receive call hands the token over, or is refused. -/
theorem receive_follows (place : Place) (hunowned : b.receives = 0) :
    Triple (Follows b) (receive place) fun status n =>
      if EfiError status then Follows (b.refuse place status) n
      else Follows { b with receives := b.receives + 1, posts := b.posts + 1 } n := by
  refine .bind .draw fun m => .bind (Q := fun _ n =>
    if EfiError m.status then Follows (b.refuse place m.status) n
    else Follows { b with receives := b.receives + 1, posts := b.posts + 1 } n) (.update fun n h => ?_) fun _ =>
    .pure fun _ h => h
  have heq := h.eq hunowned
  split
  · apply follows_stable.completeAll
    have hrecord := record_refused n place m.status
    rw [heq] at hrecord
    rw [Follows, hrecord]
  · apply follows_stable.completeAll
    have hreceives : n.receives = 0 := (congrArg Receipt.receives heq).trans hunowned
    have hrecord := record_accepted n
    rw [heq] at hrecord
    have hgoal : Net.receipt { n.record (.accepted 0) with receives := n.receives + 1 } =
        { b with receives := n.receives + 1, posts := b.posts + 1 } :=
      congrArg (fun r : Receipt => { r with receives := n.receives + 1 }) hrecord
    rw [hreceives] at hgoal ⊢
    rw [Follows, hgoal, hunowned]

/-- The program has the token, and nothing is unread. -/
structure Drained (b : Receipt) : Prop where
  inactive : b.rxActive = false
  unowned : b.receives = 0
  kept : b.kept = []
  drained : b.rxLength ≤ b.rxOffset
  unended : b.endOfStream = false

/-- A packet that is read to its end is drained. -/
theorem drained_of_good (hgood : b.Good) (hinactive : b.rxActive = false)
    (hdrained : b.rxLength ≤ b.rxOffset) (hunended : b.endOfStream = false) : Drained b := by
  cases hgood.phase with
  | idle inactive unowned kept ended => exact ⟨inactive, unowned, kept, hdrained, hunended⟩
  | posted active => exact absurd (hinactive.symm.trans active) Bool.false_ne_true
  | done active => exact absurd (hinactive.symm.trans active) Bool.false_ne_true

/-- A new socket is drained. -/
theorem drained_of_fresh (h : b.Fresh) : Drained b where
  inactive := h.inactive
  unowned := h.unowned
  kept := h.kept
  drained := by
    rw [h.drained]
    exact Nat.zero_le _
  unended := h.unended

/-- `PostReceive` on a drained socket. -/
theorem postReceive_follows (place : Place) (h : Drained b) :
    Triple (Follows b) (postReceive place) fun status n =>
      if EfiError status then Follows (b.prepare.refuse place status) n
      else Follows b.prepare.accept n := by
  refine .bind follows_stable.interrupt fun _ => .bind .read fun guard => .ite ?_ fun _ => ?_
  · intro hguard
    refine .pure fun n hn => ?_
    have hsame := Driven.sameProgram hn.1
    have hread : guard = (n.receipt.rxActive || n.receipt.endOfStream) := hn.2
    rw [hguard, hsame.rxActive, hsame.endOfStream, h.inactive, h.unended] at hread
    cases hread
  refine Triple.pre (P := Follows b) ?_ fun n hn => hn.1
  refine .bind (rewrite_follows (g := fun r => { r with status := efiSuccess }) (fun _ => rfl)
    h.unowned h.kept h.drained) fun _ => .bind follows_stable.interrupt fun _ => ?_
  refine .bind (rewrite_follows (g := fun r => { r with dataLength := 0 }) (fun _ => rfl)
    h.unowned h.kept h.drained) fun _ => .bind follows_stable.interrupt fun _ => ?_
  refine .bind (setSocket_follows (g := fun r => { r with rxDone := false }) (fun _ => rfl)
    h.unowned) fun _ => .bind follows_stable.interrupt fun _ => ?_
  refine .bind (setSocket_follows (g := fun r => { r with rxOffset := 0, rxLength := 0 })
    (fun _ => rfl) h.unowned) fun _ => .bind follows_stable.interrupt fun _ => ?_
  refine .bind (rewrite_follows (g := fun r => { r with dataLength := rxCapacity }) (fun _ => rfl)
    h.unowned h.kept (Nat.le_refl 0)) fun _ => .bind follows_stable.interrupt fun _ => ?_
  refine .bind (rewrite_follows (g := fun r => { r with status := efiNotReady }) (fun _ => rfl)
    h.unowned h.kept (Nat.le_refl 0)) fun _ => .bind follows_stable.interrupt fun _ => ?_
  refine Triple.pre (P := Follows b.prepare) ?_ fun n hn => hn
  refine .bind (receive_follows place h.unowned) fun status => ?_
  by_cases herror : EfiError status
  · simp only [if_pos herror]
    refine .bind follows_stable.interrupt fun _ => .pure fun n hn => ?_
    rw [if_pos herror]
    exact hn
  · simp only [if_neg herror]
    refine .bind follows_stable.interrupt fun _ => ?_
    refine .bind (Q := fun _ => Follows b.prepare.accept) (.update fun n hn => ?_) fun _ =>
      .pure fun n hn => ?_
    · exact Driven.activate hn
    · rw [if_neg herror]
      exact hn

/-! ### Taking what has arrived -/

/-- Between calls. -/
def Reached (a : Receipt) (n : Net) : Prop := Moves a n.receipt

variable {a : Receipt} {α : Type} {Q : α → Net → Prop}

/-- What the driver does is one of the moves. -/
theorem reached_stable : Stable (Reached a) := by
  intro n c h
  rcases complete_receipt n c with hsame | hmove
  · exact Eq.subst (motive := fun r => Moves a r) hsame.symm h
  · exact h.tail (.driver hmove)

/-- Between calls, with these bytes handed out so far. -/
def Handing (a : Receipt) (handed : List UInt8) (n : Net) : Prop :=
  Reached a n ∧ n.receipt.returned = handed

/-- What follows a state that the moves lead to has handed out what that state has. -/
theorem Follows.handing {n : Net} (h : Follows b n) (hmoves : Moves a b) :
    Handing a b.returned n :=
  ⟨hmoves.trans (Driven.moves h), (Driven.sameProgram h).returned⟩

/-- The driver hands out nothing. -/
theorem handing_stable {handed : List UInt8} : Stable (Handing a handed) := by
  intro n c h
  obtain ⟨hreached, hhanded⟩ := h
  have hsame : Driven n.receipt (n.complete c).receipt := follows_stable n c .refl
  exact ⟨reached_stable n c hreached, hsame.sameProgram.returned.trans hhanded⟩

/-- A part of the program starts somewhere. -/
theorem from_handing {handed : List UInt8} {x : NetM α}
    (h : ∀ b, Moves a b → b.returned = handed → Triple (Follows b) x Q) :
    Triple (Handing a handed) x Q :=
  fun n moments hn => h n.receipt hn.1 hn.2 n moments .refl

/-- What is read is known. -/
theorem read_follows {β : Type} {f : Net → β} {k : β → NetM α} (v : β)
    (hf : ∀ n, Follows b n → f n = v) (hk : Triple (Follows b) (k v) Q) :
    Triple (Follows b) (Async.read f >>= k) Q := by
  intro n moments h
  have hread := hf n h
  have hrest := hk n moments h
  rw [← hread] at hrest
  exact hrest

/-- What `finishReceive` makes of the token. -/
inductive Polled (b : Receipt) : Receipt → Prop
  | waiting (pending : b.rxActive = true → b.rxDone = false) : Polled b b
  | finished {r : Receipt} (driven : Driven b r) (active : r.rxActive = true)
      (done : r.rxDone = true) : Polled b r.finish

/-- What a poll leads to is reached by moves. -/
theorem Polled.moves {d : Receipt} (h : Polled b d) : Moves b d := by
  cases h with
  | waiting pending => exact .refl
  | finished driven active done => exact driven.moves.tail (.finish active done)

/-- Taking a completed token hands out nothing. -/
theorem Polled.returned {d : Receipt} (h : Polled b d) : d.returned = b.returned := by
  cases h with
  | waiting pending => rfl
  | finished driven active done =>
      have hfinish (r : Receipt) : r.finish.returned = r.returned := by
        unfold Receipt.finish
        split
        · rfl
        · split <;> rfl
      rw [hfinish, driven.sameProgram.returned]

/-- The end of a reception, as a move of the receipt. -/
theorem finishReceive_follows (hgood : b.Good) :
    Triple (Follows b) finishReceive fun _ n => ∃ d, Polled b d ∧ Follows d n := by
  refine .bind follows_stable.interrupt fun _ => .bind .read fun guard => .ite ?_ fun hguard => ?_
  · intro hguard
    refine .pure fun n ⟨h, hread⟩ => ⟨b, .waiting fun hactive => ?_, h⟩
    cases hdone : b.rxDone with
    | false => rfl
    | true =>
        have hflags : guard = (!n.receipt.rxActive || !n.receipt.rxDone) := hread
        rw [h.eq (hgood.phase.of_done hdone), hguard, hactive, hdone] at hflags
        cases hflags
  refine Triple.pre (P := fun n => ∃ r, (Driven b r ∧ r.rxActive = true ∧ r.rxDone = true) ∧
    Follows r n) (.exists_pre fun r => .of_fact ?_) ?_
  · intro hall
    obtain ⟨hdriven, hactive, hdone⟩ := hall
    have hunowned := (hgood.of_moves hdriven.moves).phase.of_done hdone
    have hfinish : Polled b r.finish := .finished hdriven hactive hdone
    refine .bind (setSocket_follows (g := fun r => { r with rxActive := false }) (fun _ => rfl)
      hunowned) fun _ => .bind follows_stable.interrupt fun _ => ?_
    refine .bind (setSocket_follows (g := fun r => { r with lastRxStatus := r.status })
      (fun _ => rfl) hunowned) fun _ => .bind follows_stable.interrupt fun _ => ?_
    refine read_follows r.status (fun n h => congrArg Receipt.lastRxStatus (h.eq hunowned)) ?_
    refine .ite (fun hfin => ?_) fun hfin => .ite (fun herror => ?_) fun herror => ?_
    · rw [finish_fin hfin] at hfinish
      refine Triple.post (setSocket_follows (g := fun r => { r with endOfStream := true })
        (fun _ => rfl) hunowned) fun _ n h => ⟨_, hfinish, h⟩
    · rw [finish_error hfin herror] at hfinish
      exact .pure fun n h => ⟨_, hfinish, h⟩
    · rw [finish_success herror] at hfinish
      refine .bind (setSocket_follows (g := fun r => { r with rxOffset := 0 }) (fun _ => rfl)
        hunowned) fun _ => .bind follows_stable.interrupt fun _ => .update fun n h => ?_
      refine ⟨_, hfinish, ?_⟩
      have hgoal : Net.receipt { n with
          kept := [], socket.rxLength := n.socket.rxData.dataLength } =
            { r with
              rxActive := false, lastRxStatus := r.status, rxOffset := 0, rxLength := r.dataLength
              kept := [] } :=
        congrArg (fun r : Receipt => { r with kept := [], rxLength := r.dataLength })
          (h.eq hunowned)
      rw [Follows, hgoal]
  · intro n hboth
    obtain ⟨h, hread⟩ := hboth
    have hflags : guard = (!n.receipt.rxActive || !n.receipt.rxDone) := hread
    cases hactive : n.receipt.rxActive with
    | false => simp [hactive] at hflags; exact absurd hflags hguard
    | true =>
        cases hdone : n.receipt.rxDone with
        | false => simp [hdone] at hflags; exact absurd hflags hguard
        | true => exact ⟨n.receipt, ⟨h, hactive, hdone⟩, .refl⟩

/-- `FinishReceive` hands out nothing. -/
theorem finishReceive_handing (hgood : a.Good) (handed : List UInt8) :
    Keeps (Handing a handed) finishReceive := by
  refine from_handing fun b hmoves hreturned => ?_
  refine (finishReceive_follows (hgood.of_moves hmoves)).post fun _ n hpolled => ?_
  obtain ⟨d, hpolled, h⟩ := hpolled
  rw [← hreturned, ← hpolled.returned]
  exact h.handing (hmoves.trans hpolled.moves)

/-- `WolfSshTcp4Poll` hands out nothing. -/
theorem poll_handing (hgood : a.Good) (handed : List UInt8) : Keeps (Handing a handed) poll :=
  .bind handing_stable.interrupt fun _ => .bind (.read _) fun _ => .ite (.pure _)
    (.bind handing_stable.interrupt fun _ => finishReceive_handing hgood handed)

/-! ### Handing out -/

/-- What `refill` makes of a buffer. -/
inductive Refilled (c : Receipt) : Receipt → Prop
  | rest (unread : c.rxOffset ≠ c.rxLength) : Refilled c c
  | refused (used : c.rxOffset = c.rxLength) (status : EfiStatus) (error : EfiError status) :
      Refilled c { c.prepare.refuse .drained status with lastRxStatus := status }
  | accepted (used : c.rxOffset = c.rxLength) : Refilled c c.prepare.accept

/-- Posting the token again hands out nothing. -/
theorem Refilled.returned {c d : Receipt} (h : Refilled c d) : d.returned = c.returned := by
  cases h <;> rfl

/-- A refill, as a move of the receipt. -/
theorem refill_follows (hinactive : b.rxActive = false) (hunowned : b.receives = 0)
    (hkept : b.kept = []) (hunended : b.endOfStream = false) :
    Triple (Follows b) refill fun _ n => ∃ d, Refilled b d ∧ Follows d n := by
  refine read_follows (b.rxOffset == b.rxLength) (fun n h => ?_) (.ite (fun hused => ?_) ?_)
  · have heq := h.eq hunowned
    exact congrArg (fun r : Receipt => r.rxOffset == r.rxLength) heq
  · have hused : b.rxOffset = b.rxLength := by simpa using hused
    refine .bind (setSocket_follows (g := fun r => { r with rxOffset := 0, rxLength := 0 })
      (fun _ => rfl) hunowned) fun _ => ?_
    refine .bind (postReceive_follows .drained ⟨hinactive, hunowned, hkept, Nat.le_refl 0,
      hunended⟩) fun status => ?_
    by_cases herror : EfiError status
    · simp only [if_pos herror]
      refine .bind follows_stable.interrupt fun _ => ?_
      refine Triple.post (setSocket_follows (g := fun r => { r with lastRxStatus := status })
        (fun _ => rfl) hunowned) fun _ n h => ?_
      exact ⟨_, .refused hused status herror, h⟩
    · simp only [if_neg herror]
      refine .bind follows_stable.interrupt fun _ => .pure fun n h => ?_
      exact ⟨_, .accepted hused, h⟩
  · intro hrest
    exact .pure fun n h => ⟨b, .rest (by simpa using hrest), h⟩

/-- **The bytes that are handed out are the next ones**, and they are those of the result. -/
theorem takeUnread_handing (size : Nat) (hgood : b.Good)
    (hunread : b.rxOffset < b.rxLength) :
    Triple (Follows b) (takeUnread size) fun result =>
      Handing b (b.returned ++ result.data) := by
  obtain ⟨hinactive, hunowned, hkept, hunended⟩ := hgood.phase.of_unread hunread
  refine read_follows (min size (b.rxLength - b.rxOffset)) (fun n h => ?_) ?_
  · exact congrArg (fun r : Receipt => min size (r.rxLength - r.rxOffset)) (h.eq hunowned)
  generalize hcopy : min size (b.rxLength - b.rxOffset) = copyLength
  refine .bind follows_stable.interrupt fun _ => ?_
  refine read_follows (b.unread.take copyLength) (fun n h => ?_) ?_
  · have hdata : (List.range copyLength).map (fun i => b.rxBuffer (b.rxOffset + i)) =
        b.unread.take copyLength := by
      rw [unread, ← List.map_take, List.take_range, Nat.min_eq_left (by omega)]
    rw [← hdata]
    exact congrArg (fun r : Receipt => (List.range copyLength).map
      fun i => r.rxBuffer (r.rxOffset + i)) (h.eq hunowned)
  refine .bind follows_stable.interrupt fun _ => ?_
  refine .bind (setSocket_follows (g := fun r => { r with rxOffset := r.rxOffset + copyLength })
    (fun _ => rfl) hunowned) fun _ => .bind follows_stable.interrupt fun _ => ?_
  refine .bind (refill_follows hinactive hunowned hkept hunended) fun _ => .exists_pre fun d => ?_
  refine .of_fact fun hrefilled => .bind follows_stable.interrupt fun _ => ?_
  refine .bind (Q := fun _ => Handing b (b.returned ++ b.unread.take copyLength))
    (.update fun n h => ?_) fun _ => .pure fun _ hn => hn
  have hreturned := Driven.returns h (b.unread.take copyLength)
  rw [Handing, Reached, record_returned]
  refine ⟨Relation.ReflTransGen.trans ?_ (Driven.moves hreturned), ?_⟩
  rotate_left
  · have hbytes := hreturned.sameProgram.returned
    rw [hrefilled.returned] at hbytes
    exact hbytes
  cases hrefilled with
  | rest unread =>
      have hmove : Move b (b.take copyLength) := .take copyLength (by simp at unread; omega)
      exact .single hmove
  | refused used status error =>
      have hall : copyLength = b.rxLength - b.rxOffset := by simp at used; omega
      subst hall
      exact .single (.drainRefused status hunread error hunended)
  | accepted used =>
      have hall : copyLength = b.rxLength - b.rxOffset := by simp at used; omega
      subst hall
      exact .single (.drainAccepted hunread hunended)

/-- Where nothing is unread, nothing is handed out. -/
theorem reportIdle_handing (hgood : b.Good) (hdrained : b.rxLength ≤ b.rxOffset) :
    Triple (Follows b) reportIdle fun result => Handing b (b.returned ++ result.data) := by
  have hsame (n : Net) (h : Follows b n) : SameProgram b n.receipt := Driven.sameProgram h
  have hcode {result : RecvResult} {d : Receipt} (hdata : result.data = []) (hmoves : Moves b d)
      (hkept : d.returned = b.returned) (n : Net) (h : Follows d n) :
      Handing b (b.returned ++ result.data) n := by
    rw [hdata, List.append_nil, ← hkept]
    exact h.handing hmoves
  refine .bind follows_stable.interrupt fun _ => ?_
  refine read_follows b.endOfStream (fun n h => (hsame n h).endOfStream) (.ite ?_ fun hunended => ?_)
  · exact fun _ => .pure (hcode rfl .refl rfl)
  refine read_follows b.lastRxStatus (fun n h => (hsame n h).lastRxStatus) (.ite ?_ ?_)
  · refine fun _ => .pure (hcode ?_ .refl rfl)
    split <;> rfl
  intro hhealthy
  refine .bind follows_stable.interrupt fun _ => ?_
  refine read_follows (!b.rxActive) (fun n h => congrArg not (hsame n h).rxActive) (.ite ?_ ?_)
  · intro hinactive
    have hinactive : b.rxActive = false := by simpa using hinactive
    have hunended : b.endOfStream = false := by simpa using hunended
    have hready := drained_of_good hgood hinactive hdrained hunended
    refine .bind (postReceive_follows .idle hready) fun status => .pure fun n h => ?_
    have hnone : (if EfiError status then RecvResult.general else .wantRead).data = [] := by
      split <;> rfl
    by_cases herror : EfiError status
    · rw [if_pos herror] at h
      exact hcode hnone (.single (.idleRefused status hinactive hdrained hunended hhealthy)) rfl n h
    · rw [if_neg herror] at h
      exact hcode hnone (.single (.idleAccepted hinactive hdrained hunended hhealthy)) rfl n h
  · exact fun _ => .pure (hcode rfl .refl rfl)

/-- **Every call of the receive callback is a sequence of moves**, and hands out the bytes of
its result. -/
theorem recvCallback_handing (hgood : a.Good) (size : Nat) (handed : List UInt8) :
    Triple (Handing a handed) (recvCallback size) fun result =>
      Handing a (handed ++ result.data) := by
  refine .ite (fun _ => .pure fun n hn => ?_) fun _ => ?_
  · rw [RecvResult.data, List.append_nil]
    exact hn
  refine .bind (poll_handing hgood handed) fun _ => ?_
  refine .bind handing_stable.interrupt fun _ => from_handing fun b hmoves hreturned => ?_
  have hb := hgood.of_moves hmoves
  rw [← hreturned]
  refine Triple.post (Q := fun result => Handing b (b.returned ++ result.data)) ?_
    fun result n hn => ⟨hmoves.trans hn.1, hn.2⟩
  refine read_follows (decide (b.rxLength > b.rxOffset)) (fun n h => ?_) (.ite ?_ ?_)
  · have hsame := Driven.sameProgram h
    exact congrArg₂ (fun length offset => decide (length > offset)) hsame.rxLength hsame.rxOffset
  · intro hunread
    exact takeUnread_handing size hb (by simpa using hunread)
  · intro hdrained
    exact reportIdle_handing hb (by simpa using hdrained)

end Follows

/-! ### Everything else -/

section

variable {P : Receipt → Prop}

/-- A change of other fields. -/
theorem update_receipt {f : Net → Net} (hf : ∀ n, (f n).receipt = n.receipt) :
    Keeps (μ := Moment) (fun n => P n.receipt) (update f) := by
  refine .update fun n h => ?_
  rw [hf n]
  exact h

variable (hP : Stable fun n => P n.receipt)

include hP

/-- A call about other things. -/
theorem call_receipt {success failure : Net → Net}
    (hsuccess : ∀ n, (success n).receipt = n.receipt)
    (hfailure : ∀ n, (failure n).receipt = n.receipt) :
    Keeps (fun n => P n.receipt) (call success failure) := by
  refine hP.call (fun n h => ?_) fun n h => ?_
  · rw [hsuccess n]
    exact h
  · rw [hfailure n]
    exact h

/-- Sending does not touch the receiving side. -/
theorem sendCallback_receipt (size : Nat) :
    Keeps (fun n => P n.receipt) (sendCallback size) := by
  have hrewrite {f : Socket → Socket} (hf : ∀ n : Net,
      Net.receipt { n with socket := f n.socket } = n.receipt) :
      Keeps (fun n => P n.receipt) (rewriteTransmit f) := by
    refine update_receipt fun n => ?_
    have hrecord := record_apart n (e := .rewroteTransmit n.transmits) ⟨rfl, rfl, rfl, rfl, rfl, rfl⟩
    exact (hf (n.record (.rewroteTransmit n.transmits))).trans hrecord
  have hresult (number : Nat) : Keeps (fun n => P n.receipt) (sendResult size number) := by
    refine .bind (.read _) fun _ => .ite (.pure _) (.ite (.pure _) ?_)
    refine .bind (update_receipt fun n => ?_) fun _ => .pure _
    exact record_apart n ⟨rfl, rfl, rfl, rfl, rfl, rfl⟩
  have hawait (number : Nat) : Keeps (fun n => P n.receipt) (awaitTransmit size number) := by
    refine .bind (hP.waitForCompletion _ _) fun _ => .ite ?_ (hresult number)
    exact .bind (hP.cancelToken _) fun _ => .pure _
  have htransmit (number : Nat) : Keeps (fun n => P n.receipt) (transmit number) := by
    refine call_receipt hP (fun n => ?_) fun _ => rfl
    exact record_apart n (e := .posted number n.transmits) ⟨rfl, rfl, rfl, rfl, rfl, rfl⟩
  refine .bind (.read _) fun _ => .ite (.pure _) ?_
  refine .bind (hrewrite fun _ => rfl) fun _ => .bind hP.interrupt fun _ => ?_
  refine .bind (hrewrite fun _ => rfl) fun _ => .bind hP.interrupt fun _ => ?_
  refine .bind (update_receipt fun _ => rfl) fun _ => .bind hP.interrupt fun _ => ?_
  refine .bind (hrewrite fun _ => rfl) fun _ => .bind hP.interrupt fun _ => ?_
  refine .bind (hrewrite fun _ => rfl) fun _ => .bind hP.interrupt fun _ => ?_
  refine .bind (.read _) fun number => .bind (htransmit number) fun _ => ?_
  exact .ite (.pure _) (hawait number)

end

section

variable {a : Receipt}

/-- A call hands out the bytes of its result. -/
theorem perform_handing (hgood : a.Good) (c : NetCall) (handed : List UInt8) :
    Triple (Handing a handed) (perform c) fun result => Handing a (handed ++ result.bytes) := by
  have hquiet (n : Net) (hn : Handing a handed n) : Handing a (handed ++ []) n := by
    rw [List.append_nil]
    exact hn
  cases c with
  | recv size => exact .bind (recvCallback_handing hgood size handed) fun _ => .pure fun _ hn => hn
  | poll => exact .bind (poll_handing hgood handed) fun _ => .pure hquiet
  | send size =>
      have hsend := sendCallback_receipt (P := fun r => Moves a r ∧ r.returned = handed)
        handing_stable size
      exact .bind hsend fun _ => .pure hquiet
  | pass => exact .bind handing_stable.interrupt fun _ => .pure hquiet

/-- **Calls, one after the other**, are sequences of moves, and hand out the bytes of their
results. -/
theorem run_handing (hgood : a.Good) (calls : List NetCall) (handed : List UInt8) :
    Triple (Handing a handed) (run calls) fun results =>
      Handing a (handed ++ results.flatMap NetResult.bytes) := by
  induction calls generalizing handed with
  | nil =>
      refine .pure fun n hn => ?_
      rw [List.flatMap_nil, List.append_nil]
      exact hn
  | cons c rest ih =>
      refine .bind handing_stable.interrupt fun _ => ?_
      refine .bind (perform_handing hgood c handed) fun result => ?_
      refine .bind (ih (handed ++ result.bytes)) fun results => .pure fun n hn => ?_
      rw [List.flatMap_cons, ← List.append_assoc]
      exact hn

end

end WolfSshUefi.Tcp4
