import WolfSshUefi.Session.Interactive

/-!
# The stages of a session

A round of the session reads, paints, replies and types.  Each stage adds its own kind of
events to the trace, and ends the session exactly when one of them ends it; so a session that
goes on has nothing behind it that should have ended it.  The loops have rounds to spare.
-/

namespace WolfSshUefi

/-- A failure to receive. -/
def Event.Failure : Event → Prop
  | .receiveFailed => True
  | .drained status => EfiError status
  | _ => False

/-- The session ends after the event. -/
def Event.Ends : Event → Prop
  | .receiveFailed | .endOfFile | .socketError => True
  | .drained status | .replied _ _ status | .typed _ _ status => EfiError status
  | .polled applicationCursor read =>
      (EfiError (readKey applicationCursor 16 read).status ∧
        (readKey applicationCursor 16 read).status ≠ efiNotReady) ∨
      (readKey applicationCursor 16 read).localExit
  | .received | .rekeyed => False

/-! ### Stages -/

/-- An event of the read burst. -/
def Event.InBurst : Event → Prop
  | .received | .drained _ | .endOfFile | .socketError | .rekeyed | .receiveFailed => True
  | _ => False

def Event.IsReply : Event → Prop
  | .replied _ _ _ => True
  | _ => False

/-- An event of the key loop. -/
def Event.InKeys : Event → Prop
  | .polled _ _ | .typed _ _ _ => True
  | _ => False

/-- A success, or an error. -/
def Decided (status : EfiStatus) : Prop := status = efiSuccess ∨ EfiError status

namespace Session

/-- The events take the session from `s` to `s'`. -/
structure Stage (kind : Event → Prop) (s s' : Session) (events : List Event) : Prop where
  trace : s'.trace = s.trace ++ events
  kind : ∀ e ∈ events, kind e
  finished : s'.finished = true ↔ s.finished = true ∨ ∃ e ∈ events, e.Ends

namespace Stage

variable {kind : Event → Prop} {s s' s'' : Session} {events more : List Event}

/-- Nothing happens. -/
theorem none (htrace : s'.trace = s.trace) (hfinished : s'.finished = s.finished) :
    Stage kind s s' [] where
  trace := by rw [htrace, List.append_nil]
  kind := by simp
  finished := by simp [hfinished]

/-- One stage after the other. -/
theorem trans (h : Stage kind s s' events) (h' : Stage kind s' s'' more) :
    Stage kind s s'' (events ++ more) where
  trace := by rw [h'.trace, h.trace, List.append_assoc]
  kind := by
    intro e he
    rcases List.mem_append.mp he with hfirst | hlater
    · exact h.kind e hfirst
    · exact h'.kind e hlater
  finished := by
    rw [h'.finished, h.finished, or_assoc]
    apply or_congr_right
    simp only [List.mem_append, or_and_right, exists_or]

/-- One event. -/
theorem one {e : Event} (htrace : s'.trace = s.trace ++ [e]) (hkind : kind e)
    (hfinished : s'.finished = true ↔ s.finished = true ∨ e.Ends) : Stage kind s s' [e] where
  trace := htrace
  kind := by simpa using hkind
  finished := by simpa using hfinished

/-- The events are of a wider kind as well. -/
theorem weaken {kind' : Event → Prop} (h : Stage kind s s' events)
    (hkind : ∀ e, kind e → kind' e) : Stage kind' s s' events :=
  { h with kind := fun e he => hkind e (h.kind e he) }

end Stage

/-- What a computation of the session gives passes on to the next. -/
theorem bind_ok {α β : Type} {x : SessionM α} {f : α → SessionM β} {b : β} :
    x >>= f = .ok b ↔ ∃ a, x = .ok a ∧ f a = .ok b := by
  cases x <;> simp [bind, Except.bind]

/-- Two results that are one have one status. -/
theorem fst_of_ok {α β : Type} {a a' : α} {b b' : β}
    (h : (Except.ok (a, b) : SessionM (α × β)) = .ok (a', b')) : a = a' :=
  congrArg Prod.fst (Except.ok.inj h)

variable {ws : WolfSshErrors}

/-- `SendAll` returns a success or an error, never a warning. -/
theorem sendFrom_decided {bytes taken taken' : List UInt8} {sends rest : List SshSend}
    {offset retry : Nat} {status : EfiStatus}
    (h : sendFrom ws bytes sends offset retry taken = .ok (status, taken', rest)) :
    Decided status := by
  induction sends generalizing offset retry taken with
  | nil =>
      unfold sendFrom at h
      split at h
      · cases h
      · exact .inl (fst_of_ok h).symm
  | cons send tail ih =>
      unfold sendFrom at h
      split at h
      · split at h
        · exact ih h
        split at h
        · exact .inr (fst_of_ok h ▸ by decide)
        · exact ih h
      · exact .inl (fst_of_ok h).symm

/-- What one read adds to the trace. -/
theorem readOnce_stage {s s' : Session} {more : Bool} (h : readOnce ws s = .ok (s', more)) :
    ∃ events, Stage Event.InBurst s s' events := by
  unfold readOnce at h
  split at h
  · cases h
  simp only at h
  split at h
  · obtain ⟨t, -, h⟩ := bind_ok.mp h
    obtain rfl := fst_of_ok h
    exact ⟨[.received], .one rfl trivial (by simp [record, Event.Ends])⟩
  split at h
  · obtain ⟨⟨status, t, extended⟩, -, h⟩ := bind_ok.mp h
    obtain rfl := fst_of_ok h
    refine ⟨[.drained status], .one rfl trivial ?_⟩
    by_cases herror : EfiError status <;> simp [record, Event.Ends, herror]
  split at h
  · obtain rfl := fst_of_ok h
    exact ⟨[.endOfFile], .one rfl trivial (by simp [record, Event.Ends])⟩
  split at h
  · obtain rfl := fst_of_ok h
    exact ⟨[.socketError], .one rfl trivial (by simp [record, Event.Ends])⟩
  split at h
  · obtain rfl := fst_of_ok h
    exact ⟨[.rekeyed], .one rfl trivial (by simp [record, Event.Ends])⟩
  split at h
  · obtain rfl := fst_of_ok h
    exact ⟨[], .none rfl rfl⟩
  · obtain rfl := fst_of_ok h
    exact ⟨[.receiveFailed], .one rfl trivial (by simp [record, Event.Ends])⟩

/-- A burst is reads, one after the other. -/
theorem burst_stage {rounds : Nat} {s s' : Session} (h : burst ws rounds s = .ok s') :
    ∃ events, Stage Event.InBurst s s' events := by
  induction rounds generalizing s with
  | zero =>
      obtain rfl := Except.ok.inj h
      exact ⟨[], .none rfl rfl⟩
  | succ rounds ih =>
      obtain ⟨⟨u, more⟩, honce, h⟩ := bind_ok.mp h
      obtain ⟨events, hstage⟩ := readOnce_stage honce
      cases more with
      | true =>
          obtain ⟨later, hlater⟩ := ih h
          exact ⟨events ++ later, hstage.trans hlater⟩
      | false =>
          obtain rfl := Except.ok.inj h
          exact ⟨events, hstage⟩

/-- Painting adds no event. -/
theorem paint_stage {kind : Event → Prop} {s s' : Session} (h : paint s = .ok s') :
    Stage kind s s' [] := by
  unfold paint at h
  split at h
  · obtain ⟨t, -, h⟩ := bind_ok.mp h
    obtain rfl := Except.ok.inj h
    exact .none rfl rfl
  · obtain rfl := Except.ok.inj h
    exact .none rfl rfl

/-- The reply loop adds one event for each reply. -/
theorem replyFrom_stage {rounds : Nat} {s s' : Session} (h : replyFrom ws rounds s = .ok s') :
    ∃ events, Stage Event.IsReply s s' events := by
  induction rounds generalizing s with
  | zero => cases h
  | succ rounds ih =>
      obtain ⟨⟨reply, t⟩, -, h⟩ := bind_ok.mp h
      simp only at h
      split at h
      · obtain ⟨⟨status, taken, sends⟩, -, h⟩ := bind_ok.mp h
        simp only at h
        split at h
        · next herror =>
            obtain rfl := Except.ok.inj h
            exact ⟨[.replied reply taken status], .one rfl trivial (by simp [Event.Ends, herror])⟩
        · next hsuccess =>
            obtain ⟨later, hlater⟩ := ih h
            have hstep : Stage Event.IsReply s (record { s with
                terminal := t, script.sends := sends, status := status }
                (.replied reply taken status)) [.replied reply taken status] :=
              .one rfl trivial (by simp [record, Event.Ends, hsuccess])
            exact ⟨[.replied reply taken status] ++ later, hstep.trans hlater⟩
      · obtain rfl := Except.ok.inj h
        exact ⟨[], .none rfl rfl⟩

/-- Leaving the terminal is a success. -/
theorem readKey_localExit (applicationCursor : Bool) (capacity : Nat) (read : KeyRead)
    (h : (readKey applicationCursor capacity read).localExit = true) :
    (readKey applicationCursor capacity read).status = efiSuccess := by
  have hstore (bytes : List UInt8) : (storeKey capacity bytes).localExit = false := by
    unfold storeKey
    split <;> rfl
  unfold readKey at h ⊢
  split
  · next herror =>
      rw [if_pos herror] at h
      cases h
  split
  · rfl
  next hread hexit =>
  rw [if_neg hread, if_neg hexit] at h
  split at h
  · rw [copyKeySequence, hstore] at h
    cases h
  split at h
  · cases h
  split at h
  · cases h
  · rw [hstore] at h
    cases h

/-- The key loop does nothing once the session has ended. -/
theorem keyFrom_finished {reads : List KeyRead} {s : Session} (h : s.finished = true) :
    keyFrom ws reads s = .ok s := by
  cases reads with
  | nil => exact if_pos h
  | cons read rest => exact if_pos h

/-- The key loop leaves a success behind, unless it ends the session. -/
theorem keyFrom_stage {reads : List KeyRead} {s s' : Session} (h : keyFrom ws reads s = .ok s') :
    ∃ events, Stage Event.InKeys s s' events ∧
      (s'.finished = false → s'.status = efiSuccess) := by
  induction reads generalizing s with
  | nil =>
      unfold keyFrom at h
      split at h
      · next hfinished =>
          obtain rfl := Except.ok.inj h
          exact ⟨[], .none rfl rfl, fun hnot => by simp [hfinished] at hnot⟩
      · cases h
  | cons read tail ih =>
      unfold keyFrom at h
      split at h
      · next hfinished =>
          obtain rfl := Except.ok.inj h
          exact ⟨[], .none rfl rfl, fun hnot => by simp [hfinished] at hnot⟩
      next hrunning =>
      have hleaves := readKey_localExit s.terminal.applicationCursor 16 read
      generalize hkey : readKey s.terminal.applicationCursor 16 read = key at h hleaves
      -- the poll itself, once it is known whether it ends the session
      have hstep {u : Session} (htrace : u.trace = s.trace ++
            [.polled s.terminal.applicationCursor read])
          (hends : u.finished = true ↔
            (EfiError key.status ∧ key.status ≠ efiNotReady) ∨ key.localExit) :
          Stage Event.InKeys s u [.polled s.terminal.applicationCursor read] := by
        refine .one htrace trivial ?_
        rw [hends, Event.Ends, hkey]
        simp [hrunning]
      simp only at h
      split at h
      · next hready =>
          obtain rfl := Except.ok.inj h
          have hexit : key.localExit = false := by
            by_contra hset
            have hsuccess := hleaves (by simpa using hset)
            rw [hready] at hsuccess
            exact absurd hsuccess (by decide)
          refine ⟨_, hstep rfl ?_, fun _ => rfl⟩
          simp [hready, hexit, hrunning, record]
      next hready =>
      split at h
      · next herror =>
          obtain rfl := Except.ok.inj h
          refine ⟨_, hstep rfl ?_, fun hnot => by simp at hnot⟩
          simp [herror, hready]
      next hsuccess =>
      split at h
      · next hexit =>
          obtain rfl := Except.ok.inj h
          refine ⟨_, hstep rfl ?_, fun hnot => by simp at hnot⟩
          simp [hexit]
      next hstay =>
      split at h
      · -- the keystroke is sent
        obtain ⟨⟨status, taken, sends⟩, -, h⟩ := bind_ok.mp h
        have hread := hstep (u := record { s with script.keys := tail, status := key.status }
          (.polled s.terminal.applicationCursor read)) rfl
          (by simp [record, hrunning, hsuccess, hstay])
        simp only at h
        split at h
        · next herror =>
            obtain rfl := Except.ok.inj h
            refine ⟨_, hread.trans (.one (e := .typed key.bytes taken status) rfl trivial ?_),
              fun hnot => by simp at hnot⟩
            simp [Event.Ends, herror]
        · next hsent =>
            obtain ⟨events, hstage, hend⟩ := ih h
            refine ⟨_, (hread.trans (.one (e := .typed key.bytes taken status) rfl trivial
              ?_)).trans hstage, hend⟩
            simp [Event.Ends, record, hsent, hrunning]
      · obtain ⟨events, hstage, hend⟩ := ih h
        refine ⟨_, (hstep rfl ?_).trans hstage, hend⟩
        simp [record, hrunning, hsuccess, hstay]

/-! ### Enough rounds -/

/-- As much of the queue is taken as fits. -/
theorem takeResponse_length {t t' : Terminal} {capacity : Nat} {taken : List UInt8}
    (h : t.takeResponse (capacity + 1) = .ok (taken, t')) :
    taken.length = min (capacity + 1) t.replyLength ∧
      t'.replyLength = t.replyLength - min (capacity + 1) t.replyLength := by
  unfold Terminal.takeResponse at h
  rw [if_neg (Nat.succ_ne_zero capacity)] at h
  simp only at h
  split at h
  · rw [usub_eq (Nat.min_le_right _ _)] at h
    simp only [Loops.ok_bind] at h
    split at h
    · obtain ⟨rfl, rfl⟩ := Prod.mk.inj (Except.ok.inj h)
      exact ⟨by simp, rfl⟩
    split at h
    · obtain ⟨rfl, rfl⟩ := Prod.mk.inj (Except.ok.inj h)
      exact ⟨by simp, rfl⟩
    · cases h
  · cases h

/-- The reply loop has rounds to spare. -/
theorem replyFrom_rounds {m n : Nat} {s : Session} (hm : s.terminal.replyLength < m)
    (hn : s.terminal.replyLength < n) : replyFrom ws m s = replyFrom ws n s := by
  induction m generalizing n s with
  | zero => exact absurd hm (Nat.not_lt_zero _)
  | succ m ih =>
      cases n with
      | zero => exact absurd hn (Nat.not_lt_zero _)
      | succ n =>
          unfold replyFrom
          cases htake : s.terminal.takeResponse 128 with
          | error fault => rfl
          | ok taken =>
              obtain ⟨reply, t⟩ := taken
              obtain ⟨hlength, hleft⟩ := takeResponse_length htake
              change (if reply.length ≠ 0 then _ else _) = (if reply.length ≠ 0 then _ else _)
              by_cases hsome : reply.length ≠ 0
              · rw [if_pos hsome, if_pos hsome]
                cases sendAll ws reply s.script.sends with
                | error stop => rfl
                | ok sent =>
                    obtain ⟨status, taken', sends⟩ := sent
                    change (if EfiError status then _ else _) = (if EfiError status then _ else _)
                    by_cases herror : EfiError status
                    · rw [if_pos herror, if_pos herror]
                    · rw [if_neg herror, if_neg herror]
                      have hfewer : t.replyLength < m ∧ t.replyLength < n := by omega
                      exact ih hfewer.1 hfewer.2
              · rw [if_neg hsome, if_neg hsome]

/-- A read uses one answer up. -/
theorem readOnce_reads {s s' : Session} {more : Bool} (h : readOnce ws s = .ok (s', more)) :
    s'.script.reads.length + 1 = s.script.reads.length := by
  unfold readOnce at h
  split at h
  · cases h
  next read rest hreads =>
  have hok {u : Session} {b : Bool} (hu : u.script.reads = rest)
      (heq : (Except.ok (u, b) : SessionM _) = .ok (s', more)) :
      s'.script.reads.length + 1 = s.script.reads.length := by
    obtain ⟨rfl, -⟩ := Prod.mk.inj (Except.ok.inj heq)
    rw [hu, hreads, List.length_cons]
  simp only at h
  split at h
  · obtain ⟨t, -, h⟩ := bind_ok.mp h
    exact hok rfl h
  split at h
  · obtain ⟨drained, -, h⟩ := bind_ok.mp h
    exact hok rfl h
  split at h
  · exact hok rfl h
  split at h
  · exact hok rfl h
  split at h
  · exact hok rfl h
  split at h
  · exact hok rfl h
  · exact hok rfl h

/-- A burst uses one up at least. -/
theorem burst_reads {rounds : Nat} {s s' : Session} (h : burst ws (rounds + 1) s = .ok s') :
    s'.script.reads.length < s.script.reads.length := by
  induction rounds generalizing s with
  | zero =>
      obtain ⟨⟨u, more⟩, honce, h⟩ := bind_ok.mp h
      have hless := readOnce_reads honce
      have hsame : u = s' := by cases more <;> exact Except.ok.inj h
      rw [← hsame]
      omega
  | succ rounds ih =>
      obtain ⟨⟨u, more⟩, honce, h⟩ := bind_ok.mp h
      have hless := readOnce_reads honce
      cases more with
      | true =>
          have hrest := ih h
          omega
      | false =>
          have hsame : u = s' := Except.ok.inj h
          rw [← hsame]
          omega

/-- Of the answers to come the replies take those to `wolfSSH_stream_send` only. -/
theorem replyFrom_script {rounds : Nat} {s s' : Session} (h : replyFrom ws rounds s = .ok s') :
    s'.script = { s.script with sends := s'.script.sends } := by
  induction rounds generalizing s with
  | zero => cases h
  | succ rounds ih =>
      obtain ⟨⟨reply, t⟩, -, h⟩ := bind_ok.mp h
      simp only at h
      split at h
      · obtain ⟨⟨status, taken, sends⟩, -, h⟩ := bind_ok.mp h
        simp only at h
        split at h
        · obtain rfl := Except.ok.inj h
          rfl
        · have hrest := ih h
          exact hrest
      · obtain rfl := Except.ok.inj h
        rfl

/-- Painting uses none. -/
theorem paint_script {s s' : Session} (h : paint s = .ok s') : s'.script = s.script := by
  unfold paint at h
  split at h
  · obtain ⟨t, -, h⟩ := bind_ok.mp h
    obtain rfl := Except.ok.inj h
    rfl
  · obtain rfl := Except.ok.inj h
    rfl

theorem keyFrom_reads {reads : List KeyRead} {s s' : Session} (h : keyFrom ws reads s = .ok s') :
    s'.script.reads = s.script.reads := by
  induction reads generalizing s with
  | nil =>
      unfold keyFrom at h
      split at h
      · obtain rfl := Except.ok.inj h
        rfl
      · cases h
  | cons read tail ih =>
      unfold keyFrom at h
      split at h
      · obtain rfl := Except.ok.inj h
        rfl
      simp only at h
      split at h
      · obtain rfl := Except.ok.inj h
        rfl
      split at h
      · obtain rfl := Except.ok.inj h
        rfl
      split at h
      · obtain rfl := Except.ok.inj h
        rfl
      split at h
      · obtain ⟨⟨status, taken, sends⟩, -, h⟩ := bind_ok.mp h
        simp only at h
        split at h
        · obtain rfl := Except.ok.inj h
          rfl
        · have hrest := ih h
          exact hrest
      · have hrest := ih h
        exact hrest

/-- So a round uses an answer up. -/
theorem round_reads {s s' : Session} (h : round ws s = .ok s') :
    s'.script.reads.length < s.script.reads.length := by
  obtain ⟨u, hburst, h⟩ := bind_ok.mp h
  obtain ⟨v, hpaint, h⟩ := bind_ok.mp h
  obtain ⟨w, hreply, h⟩ := bind_ok.mp h
  have hless := burst_reads hburst
  rw [keyFrom_reads h, replyFrom_script hreply, paint_script hpaint]
  exact hless

/-- **The loop has rounds to spare**: it ends, or it waits for an answer. -/
theorem loop_rounds {m n : Nat} {s : Session} (hm : s.script.reads.length < m)
    (hn : s.script.reads.length < n) : loop ws m s = loop ws n s := by
  induction m generalizing n s with
  | zero => exact absurd hm (Nat.not_lt_zero _)
  | succ m ih =>
      cases n with
      | zero => exact absurd hn (Nat.not_lt_zero _)
      | succ n =>
          unfold loop
          by_cases hfinished : s.finished = true
          · rw [if_pos hfinished, if_pos hfinished]
          · rw [if_neg hfinished, if_neg hfinished]
            cases hround : round ws s with
            | error stop => rfl
            | ok u =>
                have hless := round_reads hround
                change loop ws m u = loop ws n u
                have hfewer : u.script.reads.length < m ∧ u.script.reads.length < n := by omega
                exact ih hfewer.1 hfewer.2

/-- Codes that are all different. -/
def someErrors : WolfSshErrors where
  wantRead := -10
  wantWrite := -11
  windowFull := -12
  rekeying := -13
  extData := -14
  eof := -15
  channelClosed := -16
  socketError := -17

end Session

end WolfSshUefi
