import WolfSshUefi.Library.Monitors
import WolfSshUefi.Session.Saying

/-!
# The keyboard is watched

A round of the session reads at most 32 answers, sends at most one reply, and then looks at
the keyboard.  So however much the server sends, the session looks at the keyboard again after
at most 34 events; and once it sees Ctrl+] nothing happens any more
(`keyboard_watched`).
-/

namespace WolfSshUefi

/-- The keyboard is looked at. -/
def Event.Polls : Event → Prop
  | .polled _ _ => True
  | _ => False

namespace Session

open Monitor Terminal

/-- How many events there were since the keyboard was looked at, and whether Ctrl+] was
pressed. -/
structure Watch where
  idle : Nat
  left : Bool
  deriving DecidableEq

/-- No event after Ctrl+], and no more than 34 without a look at the keyboard. -/
def Watch.step (w : Watch) (e : Event) : Option Watch :=
  if w.left then none
  else
    match e with
    | .polled applicationCursor read => some ⟨0, (readKey applicationCursor 16 read).localExit⟩
    | _ => if w.idle < 34 then some ⟨w.idle + 1, false⟩ else none

/-- From one session to the next the events are accepted. -/
def Watches (s s' : Session) (w w' : Watch) : Prop :=
  ∃ events, s'.trace = s.trace ++ events ∧ Accepts Watch.step w events w'

theorem Watches.refl (s : Session) (w : Watch) : Watches s s w w :=
  ⟨[], (List.append_nil _).symm, .nil w⟩

theorem Watches.trans {s s' s'' : Session} {w w' w'' : Watch} (h : Watches s s' w w')
    (h' : Watches s' s'' w' w'') : Watches s s'' w w'' := by
  obtain ⟨first, htrace, haccepts⟩ := h
  obtain ⟨rest, htrace', haccepts'⟩ := h'
  exact ⟨first ++ rest, by rw [htrace', htrace, List.append_assoc], haccepts.append haccepts'⟩

/-! ### Away from the keyboard -/

/-- At most `n` events, none of which looks at the keyboard. -/
def Deaf (n : Nat) (s s' : Session) : Prop :=
  ∃ events, s'.trace = s.trace ++ events ∧ events.length ≤ n ∧ ∀ e ∈ events, ¬ e.Polls

section Deaf

variable {m n : Nat} {s s' s'' : Session}

/-- Without an event there is no time to be deaf. -/
theorem Deaf.of_eq (h : s'.trace = s.trace) : Deaf n s s' :=
  ⟨[], by rw [h, List.append_nil], Nat.zero_le n, fun _ he => absurd he List.not_mem_nil⟩

/-- One event that is no look at the keyboard. -/
theorem Deaf.one {e : Event} (htrace : s'.trace = s.trace ++ [e]) (he : ¬ e.Polls) :
    Deaf (n + 1) s s' := by
  refine ⟨[e], htrace, Nat.succ_le_succ (Nat.zero_le n), fun e' he' => ?_⟩
  obtain rfl := List.mem_singleton.mp he'
  exact he

/-- Deaf for one time, and then for another. -/
theorem Deaf.trans (h : Deaf m s s') (h' : Deaf n s' s'') : Deaf (m + n) s s'' := by
  obtain ⟨first, htrace, hlength, hdeaf⟩ := h
  obtain ⟨rest, htrace', hlength', hdeaf'⟩ := h'
  refine ⟨first ++ rest, by rw [htrace', htrace, List.append_assoc], ?_, fun e he => ?_⟩
  · rw [List.length_append]
    omega
  · exact (List.mem_append.mp he).elim (hdeaf e) (hdeaf' e)

/-- The monitor counts what it cannot object to. -/
theorem accepts_deaf {events : List Event} (hdeaf : ∀ e ∈ events, ¬ e.Polls) {idle : Nat}
    (hroom : idle + events.length ≤ 34) :
    Accepts Watch.step ⟨idle, false⟩ events ⟨idle + events.length, false⟩ := by
  induction events generalizing idle with
  | nil => exact .nil _
  | cons e rest ih =>
      rw [List.length_cons] at hroom
      have hstep : Watch.step ⟨idle, false⟩ e = some ⟨idle + 1, false⟩ := by
        have hquiet := hdeaf e List.mem_cons_self
        have hidle : idle < 34 := by omega
        cases e with
        | polled applicationCursor read => exact absurd trivial hquiet
        | _ => simp [Watch.step, hidle]
      have hrest := @ih (fun e he => hdeaf e (List.mem_cons_of_mem _ he)) (idle + 1) (by omega)
      have hall := (Accepts.one hstep).append hrest
      rw [List.length_cons, Nat.add_comm rest.length 1, ← Nat.add_assoc]
      exact hall

/-- Being deaf for a while is allowed while there is room. -/
theorem Deaf.watches (h : Deaf n s s') {idle : Nat} (hroom : idle + n ≤ 34) :
    ∃ idle', idle' ≤ 34 ∧ Watches s s' ⟨idle, false⟩ ⟨idle', false⟩ := by
  obtain ⟨events, htrace, hlength, hdeaf⟩ := h
  exact ⟨_, by omega, events, htrace, accepts_deaf hdeaf (by omega)⟩

end Deaf

variable {ws : WolfSshErrors} {s s' : Session}

/-- A read is one event. -/
theorem readOnce_deaf {more : Bool} (h : readOnce ws s = .ok (s', more)) : Deaf 1 s s' := by
  unfold readOnce at h
  split at h
  · cases h
  simp only at h
  split at h
  · obtain ⟨t, -, h⟩ := bind_ok.mp h
    obtain rfl := fst_of_ok h
    exact .one rfl id
  split at h
  · obtain ⟨⟨status, t, extended⟩, -, h⟩ := bind_ok.mp h
    obtain rfl := fst_of_ok h
    exact .one rfl id
  split at h
  · obtain rfl := fst_of_ok h
    exact .one rfl id
  split at h
  · obtain rfl := fst_of_ok h
    exact .one rfl id
  split at h
  · obtain rfl := fst_of_ok h
    exact .one rfl id
  split at h
  · obtain rfl := fst_of_ok h
    exact .of_eq rfl
  · obtain rfl := fst_of_ok h
    exact .one rfl id

/-- **A burst is deaf for no more than its rounds.** -/
theorem burst_deaf {rounds : Nat} (h : burst ws rounds s = .ok s') : Deaf rounds s s' := by
  induction rounds generalizing s with
  | zero =>
      obtain rfl := Except.ok.inj h
      exact .of_eq rfl
  | succ rounds ih =>
      obtain ⟨⟨u, more⟩, honce, h⟩ := bind_ok.mp h
      have hfirst := readOnce_deaf honce
      rw [Nat.add_comm]
      cases more with
      | true => exact hfirst.trans (ih h)
      | false =>
          obtain rfl := Except.ok.inj h
          exact hfirst.trans (.of_eq rfl)

/-- Painting is no event. -/
theorem paint_deaf (h : paint s = .ok s') : s'.trace = s.trace := by
  unfold paint at h
  split at h
  · obtain ⟨t, -, h⟩ := bind_ok.mp h
    obtain rfl := Except.ok.inj h
    rfl
  · obtain rfl := Except.ok.inj h
    rfl

/-- A queue that is empty gives no reply. -/
theorem replyFrom_empty {rounds : Nat} (h : replyFrom ws rounds s = .ok s')
    (ht : s.terminal.WellFormed) (hempty : s.terminal.replyLength = 0) : s'.trace = s.trace := by
  cases rounds with
  | zero => cases h
  | succ rounds =>
      obtain ⟨⟨reply, t⟩, htake, h⟩ := bind_ok.mp h
      obtain ⟨replies, htaken, -⟩ := ht.takeResponse_eq 128
      have hnone : s.terminal.queued = [] := by
        unfold queued
        rw [hempty]
        rfl
      rw [onTerminal_ok htake, hnone, List.take_nil] at htaken
      obtain ⟨rfl, rfl⟩ := Prod.mk.inj (Except.ok.inj htaken)
      obtain rfl := Except.ok.inj h
      rfl

/-- The whole queue fits the buffer, so it is one reply. -/
theorem replyFrom_deaf {rounds : Nat} (h : replyFrom ws rounds s = .ok s')
    (ht : s.terminal.WellFormed) : Deaf 1 s s' := by
  cases rounds with
  | zero => cases h
  | succ rounds =>
      obtain ⟨⟨reply, t⟩, htake, h⟩ := bind_ok.mp h
      obtain ⟨replies, htaken, -⟩ := ht.takeResponse_eq 128
      rw [onTerminal_ok htake] at htaken
      obtain ⟨-, rfl⟩ := Prod.mk.inj (Except.ok.inj htaken)
      simp only at h
      split at h
      · obtain ⟨⟨status, sends⟩, -, h⟩ := bind_ok.mp h
        simp only at h
        split at h
        · obtain rfl := Except.ok.inj h
          exact .one rfl id
        · have hle := ht.reply_le
          have hempty : s.terminal.replyLength - 128 = 0 := Nat.sub_eq_zero_of_le hle
          have hrest := replyFrom_empty h
            { ht with reply_le := by show s.terminal.replyLength - 128 ≤ _; omega } hempty
          exact .one hrest id
      · obtain rfl := Except.ok.inj h
        exact .of_eq rfl

/-! ### At the keyboard -/

/-- The key loop looks at the keyboard before each keystroke that it sends. -/
theorem keyFrom_watches {reads : List KeyRead} (h : keyFrom ws reads s = .ok s') (idle : Nat) :
    ∃ w, Watches s s' ⟨idle, false⟩ w ∧ (s'.finished = false → w.left = false ∧ w.idle ≤ 1) := by
  induction reads generalizing s idle with
  | nil =>
      unfold keyFrom at h
      split at h
      · next hfinished =>
          obtain rfl := Except.ok.inj h
          exact ⟨_, .refl s _, fun hgoes => by rw [hfinished] at hgoes; cases hgoes⟩
      · cases h
  | cons read tail ih =>
      unfold keyFrom at h
      split at h
      · next hfinished =>
          obtain rfl := Except.ok.inj h
          exact ⟨_, .refl s _, fun hgoes => by rw [hfinished] at hgoes; cases hgoes⟩
      -- the keyboard is looked at
      have hpolled {u : Session}
          (htrace : u.trace = s.trace ++ [.polled s.terminal.applicationCursor read]) :
          Watches s u ⟨idle, false⟩
            ⟨0, (readKey s.terminal.applicationCursor 16 read).localExit⟩ :=
        ⟨_, htrace, .one rfl⟩
      simp only at h
      split at h
      · next hnotReady =>
          obtain rfl := Except.ok.inj h
          refine ⟨_, hpolled rfl, fun _ => ⟨?_, Nat.zero_le 1⟩⟩
          by_contra hexit
          have hsuccess := readKey_localExit _ 16 _ (Bool.not_eq_false _ ▸ hexit)
          rw [hnotReady] at hsuccess
          exact absurd hsuccess (by decide)
      split at h
      · obtain rfl := Except.ok.inj h
        exact ⟨_, hpolled rfl, fun hgoes => by cases hgoes⟩
      split at h
      · obtain rfl := Except.ok.inj h
        exact ⟨_, hpolled rfl, fun hgoes => by cases hgoes⟩
      next hstays =>
      have hstays : (readKey s.terminal.applicationCursor 16 read).localExit = false := by
        simpa using hstays
      rw [hstays] at hpolled
      split at h
      · obtain ⟨⟨status, taken, sends⟩, -, h⟩ := bind_ok.mp h
        -- the keystroke is sent
        have htyped {u : Session} (htrace : u.trace = s.trace ++
            [.polled s.terminal.applicationCursor read] ++
              [.typed (readKey s.terminal.applicationCursor 16 read).bytes taken status]) :
            Watches s u ⟨idle, false⟩ ⟨1, false⟩ := by
          refine ⟨_, (htrace.trans (List.append_assoc ..)), ?_⟩
          obtain ⟨events, hsame, haccepts⟩ := hpolled (u := { s with
            trace := s.trace ++ [.polled s.terminal.applicationCursor read] }) rfl
          obtain rfl := List.append_cancel_left hsame
          exact haccepts.append (.one rfl)
        simp only at h
        split at h
        · obtain rfl := Except.ok.inj h
          exact ⟨_, htyped rfl, fun hgoes => by cases hgoes⟩
        · obtain ⟨w, hrest, hend⟩ := ih h 1
          exact ⟨w, (htyped rfl).trans hrest, hend⟩
      · obtain ⟨w, hrest, hend⟩ := ih h 0
        exact ⟨w, (hpolled rfl).trans hrest, hend⟩

/-! ### The session -/

/-- A round goes from one look at the keyboard to the next. -/
theorem round_watches (h : round ws s = .ok s') (ht : s.terminal.WellFormed) {idle : Nat}
    (hidle : idle ≤ 1) :
    ∃ w, Watches s s' ⟨idle, false⟩ w ∧ (s'.finished = false → w.left = false ∧ w.idle ≤ 1) := by
  obtain ⟨s₁, hburst, h⟩ := bind_ok.mp h
  obtain ⟨s₂, hpaint, h⟩ := bind_ok.mp h
  obtain ⟨s₃, hreply, hkeys⟩ := bind_ok.mp h
  obtain ⟨used, hheard⟩ := burst_converses hburst
  have hpaints : Converses ws s₁ s₂ [] [] := paint_converses hpaint
  have hwell := hpaints.wellFormed (hheard.wellFormed ht)
  have hread : Deaf 32 { s with activity := false } s₁ := burst_deaf hburst
  have hpainted : Deaf 0 s₁ s₂ := .of_eq (paint_deaf hpaint)
  have hdeaf : Deaf 33 s s₃ := (hread.trans hpainted).trans (replyFrom_deaf hreply hwell)
  have hroom : idle + 33 ≤ 34 := by omega
  obtain ⟨idle', -, hwatches⟩ := hdeaf.watches hroom
  obtain ⟨w, hwatches', hend⟩ := keyFrom_watches hkeys idle'
  exact ⟨w, hwatches.trans hwatches', hend⟩

/-- **The loop** looks at the keyboard in each round. -/
theorem loop_watches {rounds : Nat} (h : loop ws rounds s = .ok s') (ht : s.terminal.WellFormed)
    {w : Watch} (hw : s.finished = false → w.left = false ∧ w.idle ≤ 1) :
    ∃ w', Watches s s' w w' := by
  induction rounds generalizing s w with
  | zero => cases h
  | succ rounds ih =>
      unfold loop at h
      split at h
      · obtain rfl := Except.ok.inj h
        exact ⟨w, .refl s w⟩
      next hgoes =>
      obtain ⟨u, hround, h⟩ := bind_ok.mp h
      obtain ⟨idle, left⟩ := w
      obtain ⟨rfl, hidle⟩ := hw (by simpa using hgoes)
      obtain ⟨used, spoken, hconverses, -⟩ := round_converses hround
      obtain ⟨w', hwatches, hnext⟩ := round_watches hround ht hidle
      obtain ⟨w'', hrest⟩ := ih h (hconverses.wellFormed ht) hnext
      exact ⟨w'', hwatches.trans hrest⟩

/-! ### What the monitor has seen -/

section Seen

variable {w w' : Watch} {events : List Event}

/-- The idle time stays below its bound, and counts the events. -/
theorem idle_step {e : Event} (h : Watch.step w e = some w') :
    w'.idle ≤ 34 ∧ (¬ e.Polls → w'.idle = w.idle + 1) := by
  unfold Watch.step at h
  split at h
  · cases h
  cases e with
  | polled applicationCursor read =>
      obtain rfl := Option.some.inj h
      exact ⟨Nat.zero_le 34, fun hnot => absurd trivial hnot⟩
  | _ =>
      simp only at h
      split at h
      · next hroom =>
          obtain rfl := Option.some.inj h
          exact ⟨hroom, fun _ => rfl⟩
      · cases h

/-- The count is within its bound, and counts what comes without a look at the keyboard. -/
theorem idle_accepts (h : Accepts Watch.step w events w') (hw : w.idle ≤ 34) :
    w'.idle ≤ 34 ∧ ((∀ e ∈ events, ¬ e.Polls) → w'.idle = w.idle + events.length) := by
  induction events generalizing w with
  | nil =>
      obtain rfl := Option.some.inj h
      exact ⟨hw, fun _ => rfl⟩
  | cons e rest ih =>
      obtain ⟨u, hstep, hrest⟩ := h.first
      obtain ⟨hle, hcount⟩ := idle_step hstep
      obtain ⟨hle', hcount'⟩ := ih hrest hle
      refine ⟨hle', fun hdeaf => ?_⟩
      rw [hcount' fun e he => hdeaf e (List.mem_cons_of_mem _ he),
        hcount (hdeaf e List.mem_cons_self), List.length_cons]
      omega

end Seen

/-- **The keyboard is watched.**  Whatever the server sends, and however fast, the session looks
at the keyboard again after at most 34 events; and when it sees Ctrl+], that is the end. -/
theorem keyboard_watched {t : Terminal} (h : Created t) {script : Script} {status : EfiStatus}
    {trace : List Event}
    (hreturns : runInteractiveSession ws (some t) script = .ok (status, trace)) :
    (∀ before gap after, trace = before ++ gap ++ after → (∀ e ∈ gap, ¬ e.Polls) →
      gap.length ≤ 34) ∧
    ∀ before applicationCursor read after,
      trace = before ++ .polled applicationCursor read :: after →
      (readKey applicationCursor 16 read).localExit = true → after = [] := by
  obtain ⟨s, used, spoken, hloop, -, rfl, -⟩ := returns_converses hreturns
  obtain ⟨w, events, htrace, haccepts⟩ := loop_watches hloop h.wellFormed
    (w := ⟨0, false⟩) fun _ => ⟨rfl, Nat.zero_le 1⟩
  obtain rfl : s.trace = events := htrace
  refine ⟨fun before gap after hsplit hdeaf => ?_, fun before cursor read after hsplit hexit => ?_⟩
  · rw [hsplit] at haccepts
    obtain ⟨u, hfirst, -⟩ := haccepts.split
    obtain ⟨v, hbefore, hgap⟩ := hfirst.split
    obtain ⟨hle, -⟩ := idle_accepts hbefore (Nat.zero_le 34)
    obtain ⟨hle', hcount⟩ := idle_accepts hgap hle
    have hlength := hcount hdeaf
    omega
  · rw [hsplit] at haccepts
    obtain ⟨u, -, hrest⟩ := haccepts.split
    obtain ⟨v, hstep, hafter⟩ := hrest.first
    have hleft : v.left = true := by
      unfold Watch.step at hstep
      split at hstep
      · cases hstep
      · obtain rfl := Option.some.inj hstep
        exact hexit
    cases after with
    | nil => rfl
    | cons e rest =>
        obtain ⟨v', hrefused, -⟩ := hafter.first
        have hnone : Watch.step v e = none := if_pos hleft
        rw [hnone] at hrefused
        cases hrefused

/-- A request for the status, a keystroke, and the end of the stream. -/
theorem keyboard_watched_asked :
    (∀ before gap after, askingTrace = before ++ gap ++ after → (∀ e ∈ gap, ¬ e.Polls) →
      gap.length ≤ 34) ∧
    ∀ before applicationCursor read after,
      askingTrace = before ++ .polled applicationCursor read :: after →
      (readKey applicationCursor 16 read).localExit = true → after = [] :=
  keyboard_watched (created_ample 2 2 7) asking_returns

end Session

end WolfSshUefi
