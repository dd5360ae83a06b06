import WolfSshUefi.Tcp4.Resources

/-!
# Opening a connection

Every call of `OpenOnController` can fail, and what it created until then is
released by `WolfSshTcp4Close`.  Where no call fails, the socket holds a child
handle and two events, the connection event is closed and one receive token is
posted.
-/

namespace WolfSshUefi.Tcp4

open Async Receipt

/-- A driver without a token leaves a new socket alone. -/
theorem fresh_stable : Stable fun n => n.receipt.Fresh := by
  intro n c h
  have hdriven : Driven n.receipt (n.complete c).receipt := follows_stable n c .refl
  rw [hdriven.eq h.unowned]
  exact h

/-- Before a controller is tried. -/
def Unopened (n : Net) : Prop := Closed n ∧ n.receipt.Fresh

/-- Before the first receive token. -/
def Opening (p : Pointers) (extra : List Resource) (n : Net) : Prop :=
  Holding p extra n ∧ n.receipt.Fresh

/-- The first receive token was posted. -/
def Started (r : Receipt) : Prop := ∃ b : Receipt, b.Fresh ∧ b.prepare.accept.Driven r

/-- `WolfSshTcp4Close` before anything was posted. -/
theorem close_fresh (abort : Bool) : Keeps (fun n => n.receipt.Fresh) (close abort) := by
  have hrelease (r : Resource) : Keeps (fun n => n.receipt.Fresh) (release r) := by
    refine .bind (update_receipt fun n => ?_) fun _ => fresh_stable.interrupt
    exact record_apart n ⟨rfl, rfl, rfl, rfl, rfl, rfl⟩
  have hevent (event : Option Resource) : Keeps (fun n => n.receipt.Fresh) (closeEvent event) := by
    cases event with
    | none => exact .pure _
    | some event => exact hrelease event
  have hcancel : Keeps (fun n => n.receipt.Fresh) cancelReceive := by
    refine Triple.bind .read fun guard => .ite (fun hguard => ?_) fun _ => .pure fun n h => h.1
    intro n moments hboth
    obtain ⟨h, hread⟩ := hboth
    have hinactive : n.socket.rxActive = false := h.inactive
    simp [hguard, hinactive] at hread
  have hclose : Keeps (fun n => n.receipt.Fresh) (closeConnection abort) := by
    refine .bind (call_receipt fresh_stable (fun n => ?_) fun _ => rfl) fun _ => .ite (.pure _) ?_
    · exact record_apart n (e := .closing abort) ⟨rfl, rfl, rfl, rfl, rfl, rfl⟩
    · exact .bind (fresh_stable.waitForCompletion _ _) fun _ => .pure _
  have hshut : Keeps (fun n => n.receipt.Fresh) (shutDown abort) := by
    refine .bind (.read _) fun _ => .ite ?_ (.pure _)
    exact .bind (update_receipt fun _ => rfl) fun _ => .bind hclose fun _ => fresh_stable.interrupt
  have hdestroy (binding : Option Handle) (child : Option Resource) :
      Keeps (fun n => n.receipt.Fresh) (destroyChild binding child) := by
    cases binding with
    | none => exact .pure _
    | some binding =>
        cases child with
        | none => exact .pure _
        | some child => 
            refine .bind (hrelease child) fun _ => .update fun n h => ?_
            exact { h with unowned := rfl }
  refine .bind fresh_stable.interrupt fun _ => .bind hcancel fun _ => .bind hshut fun _ => ?_
  refine .bind (.read _) fun s => .bind (hdestroy _ _) fun _ => .bind (hevent _) fun _ => ?_
  refine .bind (hevent _) fun _ => .update fun n h => ?_
  exact { h with inactive := rfl, drained := rfl, unended := rfl }

/-- The pointers that `OpenOnController` leaves behind. -/
def linked (controller child rx tx : Nat) : Pointers where
  controller := some controller
  child := some ⟨.child controller, child⟩
  binding := some controller
  protocol := some ⟨.child controller, child⟩
  rxEvent := some ⟨.rxEvent, rx⟩
  txEvent := some ⟨.txEvent, tx⟩

/-- The pointers of a connection are in order. -/
theorem linked_ordered (controller child rx tx : Nat) : (linked controller child rx tx).Ordered :=
  ⟨fun _ => rfl, fun _ => rfl⟩

/-- A connection through this controller: it holds a child and two events, and the
driver was given one receive token. -/
def Linked (controller : Handle) (n : Net) : Prop :=
  ∃ child rx tx, Holding (linked controller child rx tx) [] n ∧ Started n.receipt

section Opening

variable {p : Pointers} {extra : List Resource}

/-- The driver does not interfere with the opening. -/
theorem opening_stable : Stable (Opening p extra) :=
  fun n c h => ⟨holding_stable n c h.1, fresh_stable n c h.2⟩

/-! ### Posting the receive token -/

/-- The first receive token is posted, or refused. -/
theorem postReceive_opening (hchild : p.child.isSome) :
    Triple (Opening p []) (postReceive .opening) fun status n =>
      if EfiError status then Opening p [] n else Holding p [] n ∧ Started n.receipt := by
  intro n moments h
  have hholding := h.1.of_books hchild (postReceive_books .opening n moments)
  have hpost := postReceive_follows .opening (drained_of_fresh h.2) n moments .refl
  by_cases herror : EfiError (postReceive .opening (n, moments)).1
  · simp only [if_pos herror] at hpost ⊢
    refine ⟨hholding, ?_⟩
    rw [hpost.eq h.2.unowned]
    exact h.2.refuse _
  · simp only [if_neg herror] at hpost ⊢
    exact ⟨hholding, n.receipt, h.2, hpost⟩

/-! ### Creating -/

/-- A call without resources. -/
theorem call_opening {success : Net → Net} {P : Net → Prop} (hP : Stable P)
    (hsuccess : ∀ n, Opening p extra n → P (success n)) :
    Triple (Opening p extra) (call success id)
      fun status n => if EfiError status then Opening p extra n else P n :=
  call_cases hP opening_stable hsuccess fun _ h => h

/-- A new resource is held beside the socket, until `keep` puts it there. -/
theorem create_opening {kind : Kind} {keep : Resource → Net → Net} {serial : Nat} {P : Net → Prop}
    (hP : Stable P) (hkeep : ∀ n, Opening p [⟨kind, serial⟩] n → P (keep ⟨kind, serial⟩ n)) :
    Triple (fun n => Opening p [] n ∧ n.serial = serial) (create kind keep)
      fun status n => if EfiError status then Opening p [] n else P n := by
  refine Triple.bind .read fun r => ?_
  refine Triple.pre (P := fun n => r = ⟨kind, serial⟩ ∧ Opening p [] n ∧ n.serial = serial) ?_ ?_
  · refine .of_fact fun hr => call_cases hP opening_stable (fun n h => ?_) fun n h => h.1
    subst hr
    obtain ⟨⟨hholding, hfresh⟩, rfl⟩ := h
    apply hkeep
    refine ⟨⟨hholding.pointers, hholding.accounted.create kind, fun hp => ?_⟩, ?_⟩
    · have htokens := hholding.tokens hp
      exact ⟨htokens.receives, htokens.transmits, htokens.connects, htokens.closes⟩
    · have hrecord := record_apart n (e := .created ⟨kind, n.serial⟩) ⟨rfl, rfl, rfl, rfl, rfl, rfl⟩
      rw [← hrecord] at hfresh
      exact hfresh
  · intro n hall
    obtain ⟨⟨hopening, hserial⟩, rfl⟩ := hall
    refine ⟨?_, hopening, hserial⟩
    rw [hserial]

/-- A new resource that goes into the socket. -/
theorem createKept_opening {kind : Kind} {keep : Resource → Net → Net} {q : Nat → Pointers}
    (hkeep : ∀ serial n, Opening p [⟨kind, serial⟩] n →
      Opening (q serial) [] (keep ⟨kind, serial⟩ n)) :
    Triple (Opening p []) (create kind keep) fun status n =>
      if EfiError status then Opening p [] n else ∃ serial, Opening (q serial) [] n := by
  refine Triple.pre (P := fun n => ∃ serial, Opening p [] n ∧ n.serial = serial) ?_ fun n h =>
    ⟨n.serial, h, rfl⟩
  refine .exists_pre fun serial => ?_
  refine create_opening (fun n c h => ?_) fun n h => ⟨serial, hkeep serial n h⟩
  obtain ⟨serial, h⟩ := h
  exact ⟨serial, opening_stable n c h⟩

/-- Pointers of the socket are set, to what is held beside it if need be. -/
theorem Opening.keep {n : Net} {s : Socket} (h : Opening p extra n) (g : Pointers → Pointers)
    (hp : s.pointers = g n.socket.pointers) (hchild : (g p).child = none → p.child = none)
    (hresources : (extra ++ p.resources).Perm (g p).resources)
    (hs : Net.receipt { n with socket := s } = n.receipt) :
    Opening (g p) [] { n with socket := s } := by
  refine ⟨⟨?_, ⟨h.1.accounted.balanced.perm hresources, ?_⟩, fun hnone => ?_⟩, ?_⟩
  · rw [← h.1.pointers]
    exact hp
  · exact h.1.accounted.fresh
  · have htokens := h.1.tokens (hchild hnone)
    exact ⟨htokens.receives, htokens.transmits, htokens.connects, htokens.closes⟩
  · rw [hs]
    exact h.2

/-- The variables of the connection token do not matter. -/
theorem Opening.of_eq {n n' : Net} (h : Opening p extra n) (hchild : p.child.isSome)
    (hbooks : n'.books = n.books) (hreceipt : n'.receipt = n.receipt) : Opening p extra n' := by
  refine ⟨h.1.of_books hchild hbooks, ?_⟩
  rw [hreceipt]
  exact h.2

/-- A change of other fields goes on with the opening. -/
theorem update_opening {f : Net → Net} (hchild : p.child.isSome)
    (hbooks : ∀ n, (f n).books = n.books) (hreceipt : ∀ n, (f n).receipt = n.receipt) :
    Keeps (μ := Moment) (Opening p extra) (update f) :=
  .update fun n h => h.of_eq hchild (hbooks n) (hreceipt n)

/-- The event for the connect token is given back. -/
theorem release_opening (r : Resource) (hchild : p.child.isSome) :
    Triple (Opening p [r]) (release r) fun _ => Opening p [] := by
  refine .bind (Q := fun _ => Opening p []) (.update fun n h => ?_) fun _ =>
    opening_stable.interrupt
  refine ⟨⟨h.1.pointers, h.1.accounted.release, fun hnone => ?_⟩, ?_⟩
  · simp [hnone] at hchild
  · have hrecord := record_apart n (e := .released r) ⟨rfl, rfl, rfl, rfl, rfl, rfl⟩
    rw [hrecord]
    exact h.2

/-! ### Connecting -/

/-- What `OpenOnController` comes to. -/
def Opened (controller : Handle) (status : EfiStatus) (n : Net) : Prop :=
  (EfiError status ∧ Unopened n) ∨ (status = efiSuccess ∧ Linked controller n)

/-- Giving up closes all that was opened. -/
theorem giveUp_opened {status : EfiStatus} {controller : Handle} (herror : EfiError status)
    (hp : p.Ordered) : Triple (Opening p []) (giveUp status) (Opened controller) := by
  have hclose : Triple (Opening p []) (close true) fun _ => Unopened :=
    .and (close_closed true hp) (close_fresh true)
  exact .bind hclose fun _ => .pure fun n h => .inl ⟨herror, h⟩

/-- A call that fails ends everything. -/
theorem orGiveUp {controller : Handle} {P P' : Net → Prop} {x : NetM EfiStatus}
    {rest : EfiStatus → NetM EfiStatus} (hp : p.Ordered)
    (hx : Triple P' x fun status n => if EfiError status then Opening p [] n else P n)
    (hrest : ∀ status, Triple P (rest status) (Opened controller)) :
    Triple P' (x >>= fun status =>
      if EfiError status then giveUp status else rest status) (Opened controller) := by
  refine .bind hx fun status => .ite (fun herror => ?_) fun herror => ?_
  · simp only [if_pos herror]
    exact giveUp_opened herror hp
  · simpa only [if_neg herror] using hrest status

/-- A connection that receives is open. -/
theorem startReceiving_opened {controller child rx tx : Nat} :
    Triple (Opening (linked controller child rx tx) []) startReceiving (Opened controller) := by
  refine .bind (postReceive_opening rfl) fun status => .ite (fun herror => ?_) ?_
  · simp only [if_pos herror]
    exact giveUp_opened herror (linked_ordered _ _ _ _)
  · intro herror
    refine .pure fun n h => ?_
    rw [if_neg herror] at h
    exact .inr ⟨rfl, child, rx, tx, h.1, h.2⟩

/-- A connection is made and receives, or is given up. -/
theorem connectWith_opened {controller child rx tx : Nat} (event : Resource) :
    Triple (Opening (linked controller child rx tx) [event]) (connectWith event)
      (Opened controller) := by
  have hstable : Stable (Opening (linked controller child rx tx) [event]) := opening_stable
  refine .bind (update_opening rfl (fun _ => rfl) fun _ => rfl) fun _ => ?_
  refine .bind (hstable.call (fun n h => h.of_eq rfl rfl rfl) fun n h => h) fun status => ?_
  have hawait : Keeps (Opening (linked controller child rx tx) [event]) (awaitConnect status) :=
    .ite (.pure _) (hstable.waitForCompletion _ _)
  refine .bind hawait fun status => ?_
  have hcancel : Keeps (Opening (linked controller child rx tx) [event]) (cancelConnect status) :=
    .ite (hstable.cancelToken _) (.pure _)
  refine .bind hcancel fun _ => ?_
  have hresult : Keeps (Opening (linked controller child rx tx) [event]) (connectResult status) :=
    .ite (.pure _) (.read _)
  refine .bind hresult fun status => .bind (release_opening event rfl) fun _ => .ite ?_ ?_
  · intro herror
    exact giveUp_opened herror (linked_ordered _ _ _ _)
  · exact fun _ => startReceiving_opened

/-- Configuring opens nothing. -/
theorem configureFrom_opening (retry : Nat) (status : EfiStatus) :
    Keeps (Opening p extra) (configureFrom retry status) := by
  induction retry generalizing status with
  | zero => exact .pure _
  | succ retry ih =>
      refine .bind (opening_stable.call (fun _ h => h) fun _ h => h) fun status => ?_
      refine .ite (.pure _) (.bind opening_stable.interrupt fun _ => ih status)

/-- Before a controller is tried, nothing is held. -/
theorem openOnController_opened (controller : Handle) :
    Triple (Unopened) (openOnController controller) (Opened controller) := by
  have hzero : Triple (Unopened) (rewrite fun _ => { Socket.zero with
      controller := some controller, lastRxStatus := efiNotReady })
      fun _ => Opening ⟨some controller, none, none, none, none, none⟩ [] := by
    refine .update fun n h => ⟨⟨rfl, ?_, fun _ => ?_⟩, ?_⟩
    · have hbooks := books_record n (e := .rewrote n.receives (n.socket.unread ++ n.kept)) ⟨rfl, rfl⟩
      have hcreated := congrArg Books.created hbooks
      have hreleased := congrArg Books.released hbooks
      exact h.1.settled.1.of_books hcreated hreleased rfl
    · have htokens := h.1.settled.2
      exact ⟨htokens.receives, htokens.transmits, htokens.connects, htokens.closes⟩
    · have hfresh := h.2
      have hreceives : n.receives = 0 := hfresh.unowned
      have hbytes : n.socket.unread ++ n.kept = [] := by
        have hunread : n.receipt.unread = [] := unread_eq_nil (drained_of_fresh hfresh).drained
        exact List.append_eq_nil_iff.mpr ⟨hunread, hfresh.kept⟩
      rw [hreceives, hbytes]
      have hrecord := record_apart n (e := .rewrote 0 []) ⟨rfl, rfl, rfl, rfl, rfl, rfl⟩
      rw [← hrecord] at hfresh
      exact { hfresh with inactive := rfl, drained := rfl, unended := rfl }
  refine .bind hzero fun _ => ?_
  -- the service binding
  refine orGiveUp (P := Opening ⟨some controller, none, some controller, none, none, none⟩ [])
    ⟨by simp, by simp⟩ (call_opening opening_stable fun n h => ?_) fun _ => ?_
  · exact h.keep (fun p => { p with binding := some controller }) rfl (fun _ => rfl) (.refl _)
      rfl
  -- the child
  refine orGiveUp ⟨by simp, by simp⟩ (createKept_opening (q := fun child => ⟨some controller,
    some ⟨.child controller, child⟩, some controller, none, none, none⟩) fun child n h => ?_)
    fun _ => .exists_pre fun child => ?_
  · exact h.keep (fun p => { p with child := some ⟨.child controller, child⟩ }) rfl (by simp)
      (.refl _) rfl
  -- the protocol
  refine orGiveUp (P := Opening ⟨some controller, some ⟨.child controller, child⟩, some controller,
    some ⟨.child controller, child⟩, none, none⟩ [])
    ⟨by simp, by simp⟩ (call_opening opening_stable fun n h => ?_) fun _ => ?_
  · exact h.keep (fun p => { p with protocol := p.child }) rfl (by simp) (.refl _) rfl
  -- the events
  refine orGiveUp ⟨by simp, by simp⟩ (createKept_opening (q := fun rx => ⟨some controller,
    some ⟨.child controller, child⟩, some controller, some ⟨.child controller, child⟩,
    some ⟨.rxEvent, rx⟩, none⟩) fun rx n h => ?_) fun _ => .exists_pre fun rx => ?_
  · exact h.keep (fun p => { p with rxEvent := some ⟨.rxEvent, rx⟩ }) rfl (by simp) (.swap _ _ _)
      rfl
  refine orGiveUp ⟨by simp, by simp⟩ (createKept_opening (q := linked controller child rx)
    fun tx n h => ?_) fun _ => .exists_pre fun tx => ?_
  · have hlast (a b c : Resource) : ([c] ++ [a, b]).Perm ([a, b] ++ [c]) := List.perm_append_comm
    exact h.keep (fun p => { p with txEvent := some ⟨.txEvent, tx⟩ }) rfl (by simp) (hlast _ _ _)
      rfl
  -- the configuration
  have hfull := linked_ordered controller child rx tx
  refine orGiveUp (P := Opening (linked controller child rx tx) []) hfull ?_ fun _ => ?_
  · exact (configureFrom_opening 100 _).post fun status n h => by split <;> exact h
  -- the connection
  refine .bind (update_opening rfl (fun _ => rfl) fun _ => rfl) fun _ => ?_
  refine .bind .read fun event => ?_
  refine Triple.pre (P := fun n => event = ⟨.connectEvent, event.serial⟩ ∧
    Opening (linked controller child rx tx) [] n ∧ n.serial = event.serial) (.of_fact ?_) ?_
  · intro hevent
    refine orGiveUp hfull (create_opening (P := Opening (linked controller child rx tx) [event])
      opening_stable fun n h => ?_) fun _ => connectWith_opened event
    rwa [← hevent] at h
  · intro n hboth
    obtain ⟨h, rfl⟩ := hboth
    exact ⟨rfl, h, rfl⟩

end Opening

/-! ### The balance -/

/-- Without an open socket the driver does nothing. -/
theorem unopened_stable : Stable Unopened := by
  intro n c h
  rw [h.1.settled.2.complete c]
  exact h

/-- What `WolfSshTcp4Connect` comes to. -/
def Ended (handles : List Handle) (status : EfiStatus) (n : Net) : Prop :=
  (status ≠ efiSuccess ∧ Unopened n) ∨
    (status = efiSuccess ∧ ∃ controller ∈ handles, Linked controller n)

/-- An error is not a success. -/
theorem error_ne_success {status : EfiStatus} (h : EfiError status) : status ≠ efiSuccess := by
  intro heq
  obtain rfl := heq
  exact absurd h (by decide)

/-- However many controllers there are, at most one of them is left open. -/
theorem connectFrom_ended (handles : List Handle) {status : EfiStatus} (h : status ≠ efiSuccess) :
    Triple (Unopened) (connectFrom handles status) (Ended handles) := by
  induction handles generalizing status with
  | nil => exact .pure fun n hn => .inl ⟨h, hn⟩
  | cons handle rest ih =>
      have hrest {status : EfiStatus} (h : status ≠ efiSuccess) :
          Triple (Unopened) (connectFrom rest status) (Ended (handle :: rest)) := by
        refine (ih h).post fun status n hended => ?_
        rcases hended with hclosed | ⟨hsuccess, controller, hmem, hlinked⟩
        · exact .inl hclosed
        · exact .inr ⟨hsuccess, controller, List.mem_cons_of_mem _ hmem, hlinked⟩
      refine .bind .draw fun m => ?_
      refine .bind (Q := fun _ => Unopened) (.update fun n hn => ?_) fun _ => .ite ?_ fun _ => ?_
      · exact unopened_stable.completeAll hn _
      · exact fun hmedia => hrest hmedia.2
      · refine .bind (openOnController_opened handle) fun status => .ite (fun herror => ?_) ?_
        · refine (hrest (error_ne_success herror)).pre fun n hn => ?_
          rcases hn with ⟨_, hclosed⟩ | ⟨rfl, _⟩
          · exact hclosed
          · exact absurd herror (by decide)
        · intro hgood
          refine .pure fun n hn => ?_
          rcases hn with ⟨herror, _⟩ | ⟨hsuccess, hlinked⟩
          · exact absurd herror hgood
          · exact .inr ⟨hsuccess, handle, List.mem_cons_self, hlinked⟩

/-- In the beginning nothing is open. -/
theorem start_unopened : Unopened Net.start := by
  refine ⟨⟨rfl, ⟨.nil, by simp [Net.books, Net.start]⟩, rfl, rfl, rfl, rfl⟩, ?_⟩
  exact ⟨rfl, rfl, rfl, rfl, rfl, rfl, rfl, rfl, rfl, by simp [Net.receipt, Net.start], rfl⟩

/-- **`WolfSshTcp4Connect` ends** with a connection, or with nothing. -/
theorem connect_ended (remotePort : UInt16) (located : EfiStatus) (handles : List Handle) :
    Triple (Unopened) (connect remotePort located handles) (Ended handles) := by
  refine .ite (fun _ => .pure fun n hn => .inl ⟨by decide, hn⟩) fun _ => .ite ?_ fun _ => ?_
  · exact fun herror => .pure fun n hn => .inl ⟨error_ne_success herror, hn⟩
  · exact connectFrom_ended handles (by decide)

/-- A second `WolfSshTcp4Close` does nothing. -/
theorem close_again {n : Net} (h : Closed n) (abort : Bool) :
    Keeps (fun n' => n' = n) (close abort) := by
  have hstable : Stable fun n' => n' = n := by
    intro n' c heq
    obtain rfl := heq
    exact h.settled.2.complete c
  have hprotocol : n.socket.protocol = none := by
    rw [h.socket]
    rfl
  have hcancel : Keeps (fun n' => n' = n) cancelReceive := by
    refine Triple.bind .read fun guard => .ite (fun hguard => ?_) fun _ => .pure fun n' hn => hn.1
    intro n' moments hboth
    obtain ⟨rfl, hread⟩ := hboth
    simp [hguard, hprotocol] at hread
  have hshut : Keeps (fun n' => n' = n) (shutDown abort) := by
    refine Triple.bind .read fun guard => .ite (fun hguard => ?_) fun _ => .pure fun n' hn => hn.1
    intro n' moments hboth
    obtain ⟨rfl, hread⟩ := hboth
    simp [hguard, hprotocol] at hread
  refine .bind hstable.interrupt fun _ => .bind hcancel fun _ => .bind hshut fun _ => ?_
  refine Triple.bind .read fun s => ?_
  refine Triple.pre (P := fun n' => s = .zero ∧ n' = n) (.of_fact ?_) ?_
  · intro heq
    obtain rfl := heq
    refine .bind (Q := fun _ n' => n' = n) (.pure fun _ hn => hn) fun _ => ?_
    refine .bind (Q := fun _ n' => n' = n) (.pure fun _ hn => hn) fun _ => ?_
    refine .bind (Q := fun _ n' => n' = n) (.pure fun _ hn => hn) fun _ => ?_
    refine .update fun n' hn => ?_
    rw [hn, ← h.socket]
  · intro n' hboth
    obtain ⟨rfl, rfl⟩ := hboth
    exact ⟨h.socket, rfl⟩

/-- A connection, whatever was received and sent on it, is closed for good. -/
theorem Linked.close {controller : Handle} {n : Net} (h : Linked controller n)
    (calls : List NetCall) (abort : Bool) (moments : Nat → Moment) :
    Closed (close abort (run calls (n, moments)).2).2.1 := by
  obtain ⟨child, rx, tx, hholding, _⟩ := h
  have hrun := hholding.of_books rfl (run_books calls n moments)
  exact close_closed abort (linked_ordered controller child rx tx) _ _ hrun

theorem Started.posts {r : Receipt} (h : Started r) : r.posts = 1 := by
  obtain ⟨b, hb, hdriven⟩ := h
  rw [hdriven.sameProgram.posts]
  exact congrArg (· + 1) hb.unposted

/-- The socket waits for it. -/
theorem Started.active {r : Receipt} (h : Started r) : r.rxActive = true := by
  obtain ⟨b, _, hdriven⟩ := h
  exact hdriven.sameProgram.rxActive

/-- Nothing is released twice.  If `WolfSshTcp4Connect` fails, everything it created
is released and the socket is zero; if it succeeds, the socket holds a child handle
and two events of one controller, everything else is released and one receive token
was posted.  `WolfSshTcp4Close` then releases the rest, and a second one does nothing. -/
theorem tcp_balance (remotePort : UInt16) (located : EfiStatus) (handles : List Handle)
    (moments : Nat → Moment) :
    let opened := connect remotePort located handles (Net.start, moments)
    let n := opened.2.1
    (∀ r, n.books.released.count r ≤ 1) ∧
    (EfiError opened.1 →
      Ledger.Balanced n.books.created n.books.released [] ∧ n.socket = .zero) ∧
    (opened.1 = efiSuccess →
      (∃ controller ∈ handles, ∃ child rx tx,
        n.socket.pointers = linked controller child rx tx ∧
        Ledger.Balanced n.books.created n.books.released
          [⟨.child controller, child⟩, ⟨.rxEvent, rx⟩, ⟨.txEvent, tx⟩] ∧
        n.socket.rxActive = true ∧ n.posts = 1) ∧
      ∀ calls abort abort',
        let closed := (close abort (run calls opened.2).2).2
        Ledger.Balanced closed.1.books.created closed.1.books.released [] ∧
        closed.1.socket = .zero ∧
        (close abort' closed).2.1 = closed.1) := by
  intro opened n
  have hended : Ended handles opened.1 n :=
    connect_ended remotePort located handles Net.start moments start_unopened
  refine ⟨fun r => ?_, fun herror => ?_, fun hsuccess => ⟨?_, fun calls abort abort' => ?_⟩⟩
  · rcases hended with ⟨_, hclosed⟩ | ⟨_, _, _, _, _, _, hholding, _⟩
    · exact hclosed.1.settled.1.balanced.released_once r
    · exact hholding.accounted.balanced.released_once r
  · rcases hended with ⟨_, hclosed⟩ | ⟨hsuccess, _⟩
    · exact ⟨hclosed.1.settled.1.balanced, hclosed.1.socket⟩
    · exact absurd hsuccess (error_ne_success herror)
  · rcases hended with ⟨hfailed, _⟩ | ⟨_, controller, hmem, child, rx, tx, hholding, hstarted⟩
    · exact absurd hsuccess hfailed
    · exact ⟨controller, hmem, child, rx, tx, hholding.pointers, hholding.accounted.balanced,
        hstarted.active, hstarted.posts⟩
  · rcases hended with ⟨hfailed, _⟩ | ⟨_, controller, _, hlinked⟩
    · exact absurd hsuccess hfailed
    · have hclosed := hlinked.close calls abort opened.2.2
      exact ⟨hclosed.settled.1.balanced, hclosed.socket, close_again hclosed abort' _ _ rfl⟩

/-- A network on which every call succeeds, and every token completes at once; a
receive token completes with two bytes. -/
def promptNetwork : Nat → Moment := fun _ =>
  ⟨efiSuccess, efiSuccess, [.connected efiSuccess, .received ⟨[104, 105], by decide⟩, .closed]⟩

/-- The connection comes about with a child and two events, and is given back. -/
theorem tcp_balance_prompt :
    let opened := connect 22 efiSuccess [7] (Net.start, promptNetwork)
    let n := opened.2.1
    opened.1 = efiSuccess ∧
    (∃ child rx tx, n.socket.pointers = linked 7 child rx tx ∧
      Ledger.Balanced n.books.created n.books.released
        [⟨.child 7, child⟩, ⟨.rxEvent, rx⟩, ⟨.txEvent, tx⟩] ∧
      n.socket.rxActive = true ∧ n.posts = 1) ∧
    ∀ calls abort abort',
      let closed := (close abort (run calls opened.2).2).2
      Ledger.Balanced closed.1.books.created closed.1.books.released [] ∧
      closed.1.socket = .zero ∧ (close abort' closed).2.1 = closed.1 := by
  intro opened n
  have hconnected : opened.1 = efiSuccess := by decide +kernel
  obtain ⟨-, -, hsuccess⟩ := tcp_balance 22 efiSuccess [7] promptNetwork
  obtain ⟨hheld, hclosed⟩ := hsuccess hconnected
  obtain ⟨controller, hmem, hlinked⟩ := hheld
  obtain rfl := List.mem_singleton.mp hmem
  exact ⟨hconnected, hlinked, hclosed⟩

end WolfSshUefi.Tcp4
