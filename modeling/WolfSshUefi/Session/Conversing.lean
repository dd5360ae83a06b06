import WolfSshUefi.Session.Keyboard
import WolfSshUefi.Terminal.Answering

/-!
# A session as a conversation

What a session reads comes in two ways, by the stream and as extended data, and what it
sends comes from two sides, the replies of its terminal and the keyboard.  All that it
does to its terminal are calls that feed the bytes it has read, in order, and take the
replies that it sends; and all that it sends wolfSSH takes whole, but for the last
message of a session that fails (`loop_converses`).
-/

namespace WolfSshUefi

namespace Session

open Terminal

section Heard

variable (ws : WolfSshErrors)

/-- The bytes that `DrainExtendedData` reads, and the answers that it leaves. -/
def drained : List SshRead → List UInt8 × List SshRead
  | [] => ([], [])
  | read :: rest =>
      if 0 < read.result then (read.data ++ (drained rest).1, (drained rest).2) else ([], rest)

/-- The bytes that come with some answers of the stream, and the answers with extended data
that are left. -/
def heard : List SshRead → List SshRead → List UInt8 × List SshRead
  | [], extended => ([], extended)
  | read :: rest, extended =>
      if 0 < read.result then (read.data ++ (heard rest extended).1, (heard rest extended).2)
      else if read.result = ws.extData ∨ read.error = ws.extData then
        let later := heard rest (drained extended).2
        ((drained extended).1 ++ later.1, later.2)
      else heard rest extended

/-- What is heard in two pieces; the second finds the extended data that the first has left. -/
theorem heard_append (first rest extended : List SshRead) :
    heard ws (first ++ rest) extended =
      ((heard ws first extended).1 ++ (heard ws rest (heard ws first extended).2).1,
        (heard ws rest (heard ws first extended).2).2) := by
  induction first generalizing extended with
  | nil => rfl
  | cons read tail ih =>
      simp only [List.cons_append, heard, ih]
      split
      · simp only [List.append_assoc]
      split
      · simp only [List.append_assoc]
      · rfl

end Heard

section Spoken

/-- What wolfSSH takes of some bytes, by its answers to the calls that offer the rest. -/
def takes (offered : List UInt8) : List SshSend → List UInt8
  | [] => []
  | send :: rest =>
      offered.take send.result.toNat ++ takes (offered.drop send.result.toNat) rest

/-- Where a message comes from. -/
inductive Voice
  | terminal  -- a reply
  | keyboard  -- a keystroke
  deriving DecidableEq

/-- A message that the session sends, and the answers that `SendAll` gets. -/
structure Spoken where
  voice : Voice
  bytes : List UInt8
  answers : List SshSend

/-- What wolfSSH takes of a message. -/
def Spoken.accepted (m : Spoken) : List UInt8 := takes m.bytes m.answers

/-- `SendAll` got these answers for these bytes, and took by them. -/
def Spoken.Sent (ws : WolfSshErrors) (m : Spoken) : Prop :=
  ∃ status rest, sendAll ws m.bytes (m.answers ++ rest) = .ok (status, m.accepted, rest)

/-- A message as it stands in a trace: where it comes from, its bytes, and what wolfSSH has
taken of them. -/
structure Message where
  voice : Voice
  bytes : List UInt8
  taken : List UInt8
  deriving DecidableEq

/-- The message of an event. -/
def message? : Event → Option Message
  | .replied bytes taken _ => some ⟨.terminal, bytes, taken⟩
  | .typed bytes taken _ => some ⟨.keyboard, bytes, taken⟩
  | _ => none

/-- The messages in a trace, in order. -/
def messages (trace : List Event) : List Message := trace.filterMap message?

/-- What a trace has of a message that is sent. -/
def Spoken.message (m : Spoken) : Message := ⟨m.voice, m.bytes, m.accepted⟩

/-- The bytes of the messages from one side. -/
def voiced (voice : Voice) (spoken : List Spoken) : List UInt8 :=
  (spoken.filter fun m => m.voice = voice).flatMap Spoken.bytes

/-- wolfSSH takes every message whole. -/
def Whole (spoken : List Spoken) : Prop := ∀ m ∈ spoken, m.accepted = m.bytes

/-- The session has failed in its last message, and wolfSSH took the others whole. -/
def CutShort (s : Session) (spoken : List Spoken) : Prop :=
  EfiError s.status ∧ s.finished = true ∧
    ∃ before last, spoken = before ++ [last] ∧ Whole before

/-- wolfSSH takes a message from its beginning. -/
theorem takes_initial (offered : List UInt8) (answers : List SshSend) :
    takes offered answers <+: offered := by
  induction answers generalizing offered with
  | nil => exact List.nil_prefix
  | cons send rest ih =>
      obtain ⟨behind, hbehind⟩ := ih (offered.drop send.result.toNat)
      refine ⟨behind, ?_⟩
      rw [takes, List.append_assoc, hbehind]
      exact List.take_append_drop _ _

/-- The messages of two traces. -/
@[simp] theorem messages_append (first rest : List Event) :
    messages (first ++ rest) = messages first ++ messages rest := List.filterMap_append ..

/-- What a voice says in two pieces. -/
@[simp] theorem voiced_append (voice : Voice) (first rest : List Spoken) :
    voiced voice (first ++ rest) = voiced voice first ++ voiced voice rest := by
  unfold voiced
  rw [List.filter_append, List.flatMap_append]

/-- Two conversations in which all was taken. -/
theorem Whole.append {first rest : List Spoken} (h : Whole first) (h' : Whole rest) :
    Whole (first ++ rest) := by
  intro m hm
  rcases List.mem_append.mp hm with hfirst | hrest
  · exact h m hfirst
  · exact h' m hrest

/-- What is cut short after a whole conversation. -/
theorem CutShort.after {s : Session} {first rest : List Spoken} (h : Whole first)
    (h' : CutShort s rest) : CutShort s (first ++ rest) := by
  obtain ⟨herror, hfinished, before, last, rfl, hbefore⟩ := h'
  exact ⟨herror, hfinished, first ++ before, last, (List.append_assoc ..).symm, h.append hbefore⟩

end Spoken

/-! ### Calls on the terminal -/

/-- A call on the terminal that succeeds in the session has succeeded. -/
theorem onTerminal_ok {α : Type} {x : Checked α} {a : α} (h : onTerminal x = .ok a) :
    x = .ok a := by
  cases x with
  | ok b =>
      obtain rfl := Except.ok.inj h
      rfl
  | error fault => cases h

/-- The bytes fed by two lists of calls. -/
theorem fed_append (first rest : List Call) : fed (first ++ rest) = fed first ++ fed rest :=
  List.flatMap_append

/-- A call that hands nothing over. -/
theorem exchange_quiet {t t' : Terminal} {c : Call} (h : t.deliver c = .ok ([], t')) :
    t.exchange [c] = .ok ⟨t.asked c, [], t'⟩ := by
  rw [exchange, h, Loops.ok_bind]
  simp only [exchange, Loops.ok_bind, List.append_nil]

/-- A feed, as an exchange. -/
theorem exchange_feed {t t' : Terminal} {data : List UInt8} (h : t.feed data = .ok t') :
    t.exchange [.feed data] = .ok ⟨t.asked (.feed data), [], t'⟩ := by
  apply exchange_quiet
  show (t.perform (.feed data) >>= fun t => .ok ([], t)) = _
  rw [perform, h]
  rfl

/-- A flush, as an exchange. -/
theorem exchange_flush {t t' : Terminal} (h : t.flush = .ok t') :
    t.exchange [.flush] = .ok ⟨[], [], t'⟩ := by
  apply exchange_quiet
  show (t.perform .flush >>= fun t => .ok ([], t)) = _
  rw [perform, h]
  rfl

/-- A response taken, as an exchange. -/
theorem exchange_takeResponse {t t' : Terminal} {capacity : Nat} {taken : List UInt8}
    (h : t.takeResponse capacity = .ok (taken, t')) :
    t.exchange [.takeResponse capacity] = .ok ⟨[], taken, t'⟩ := by
  have hdeliver : t.deliver (.takeResponse capacity) = .ok (taken, t') := h
  rw [exchange, hdeliver, Loops.ok_bind]
  simp only [exchange, asked, Loops.ok_bind, List.append_nil]

/-! ### One stage after the other -/

/-- From `s` to `s'` the session reads the answers `used` and sends the messages `spoken`.
Its calls on the terminal feed the bytes that come with the answers and take the replies
that are sent; the keystrokes that are sent are those of its trace. -/
structure Converses (ws : WolfSshErrors) (s s' : Session) (used : List SshRead)
    (spoken : List Spoken) : Prop where
  reads : s.script.reads = used ++ s'.script.reads
  extended : s'.script.extended = (heard ws used s.script.extended).2
  calls : ∃ calls e, s.terminal.exchange calls = .ok e ∧ e.terminal = s'.terminal ∧
    fed calls = (heard ws used s.script.extended).1 ∧ e.taken = voiced .terminal spoken
  sends : s.script.sends = spoken.flatMap Spoken.answers ++ s'.script.sends
  sent : ∀ m ∈ spoken, m.Sent ws
  typed : typedBytes s'.trace = typedBytes s.trace ++ voiced .keyboard spoken
  order : messages s'.trace = messages s.trace ++ spoken.map Spoken.message

namespace Converses

variable {ws : WolfSshErrors} {s s' s'' : Session} {used more : List SshRead}
variable {spoken later : List Spoken}

/-- A stage in which nothing is sent. -/
def Silent (s s' : Session) : Prop :=
  typedBytes s'.trace = typedBytes s.trace ∧ messages s'.trace = messages s.trace

/-- An event that is no message. -/
theorem silent_record {e : Event} (htyped : e.typedBytes = []) (hmessage : message? e = none)
    (htrace : s'.trace = s.trace ++ [e]) : Silent s s' := by
  have hone : messages [e] = [] := by
    unfold messages
    rw [List.filterMap_cons_none hmessage, List.filterMap_nil]
  have hbytes : typedBytes [e] = [] := (List.append_nil _).trans htyped
  unfold Silent
  rw [htrace, typedBytes_append, messages_append, hbytes, hone, List.append_nil, List.append_nil]
  exact ⟨rfl, rfl⟩

/-- **One conversation after the other.** -/
theorem trans (h : Converses ws s s' used spoken) (h' : Converses ws s' s'' more later) :
    Converses ws s s'' (used ++ more) (spoken ++ later) := by
  obtain ⟨first, e, hfirst, hterminal, hfed, htaken⟩ := h.calls
  obtain ⟨rest, e', hrest, hterminal', hfed', htaken'⟩ := h'.calls
  refine ⟨?_, ?_, ⟨first ++ rest, _, exchange_append hfirst (hterminal ▸ hrest), hterminal', ?_, ?_⟩,
    ?_, ?_, ?_, ?_⟩
  · rw [h.reads, h'.reads, List.append_assoc]
  · rw [h'.extended, heard_append, h.extended]
  · rw [fed_append, hfed, hfed', heard_append, h.extended]
  · rw [voiced_append, htaken, htaken']
  · rw [h.sends, h'.sends, List.flatMap_append, List.append_assoc]
  · intro m hm
    rcases List.mem_append.mp hm with hfirst | hrest
    · exact h.sent m hfirst
    · exact h'.sent m hrest
  · rw [h'.typed, h.typed, voiced_append, List.append_assoc]
  · rw [h'.order, h.order, List.map_append, List.append_assoc]

/-- A stage that only paints, or does nothing to the terminal. -/
theorem quiet {calls : List Call} {e : Exchange} (hexchange : s.terminal.exchange calls = .ok e)
    (hterminal : e.terminal = s'.terminal) (hfed : fed calls = []) (htaken : e.taken = [])
    (hscript : s'.script.reads = s.script.reads ∧ s'.script.extended = s.script.extended ∧
      s'.script.sends = s.script.sends)
    (hsilent : Silent s s') : Converses ws s s' [] [] where
  reads := hscript.1.symm
  extended := hscript.2.1
  calls := ⟨calls, e, hexchange, hterminal, hfed, htaken⟩
  sends := hscript.2.2.symm
  sent := fun _ hm => absurd hm List.not_mem_nil
  typed := hsilent.1.trans (List.append_nil _).symm
  order := hsilent.2.trans (List.append_nil _).symm

/-- Nothing was called. -/
theorem untouched (hterminal : s'.terminal = s.terminal)
    (hscript : s'.script.reads = s.script.reads ∧ s'.script.extended = s.script.extended ∧
      s'.script.sends = s.script.sends)
    (hsilent : Silent s s') : Converses ws s s' [] [] := by
  have hnone : s.terminal.exchange [] = .ok ⟨[], [], s.terminal⟩ := rfl
  exact quiet hnone hterminal.symm rfl rfl hscript hsilent

end Converses

variable {ws : WolfSshErrors}

/-- What a session does to its terminal keeps it well-formed. -/
theorem Converses.wellFormed {s s' : Session} {used : List SshRead} {spoken : List Spoken}
    (h : Converses ws s s' used spoken) (ht : s.terminal.WellFormed) : s'.terminal.WellFormed := by
  obtain ⟨calls, e, hexchange, hterminal, -⟩ := h.calls
  obtain ⟨t, hrun, hwell⟩ := ht.run_ok calls
  rw [run_of_exchange hexchange] at hrun
  obtain rfl := Except.ok.inj hrun
  exact hterminal ▸ hwell

/-- `SendAll` uses up the answers by which wolfSSH takes the bytes: all of them, unless it
fails. -/
theorem sendFrom_takes {bytes taken taken' : List UInt8} {sends rest : List SshSend}
    {offset retry : Nat} {status : EfiStatus}
    (h : sendFrom ws bytes sends offset retry taken = .ok (status, taken', rest)) :
    ∃ used, sends = used ++ rest ∧ taken' = taken ++ takes (bytes.drop offset) used ∧
      (¬ EfiError status → takes (bytes.drop offset) used = bytes.drop offset) := by
  induction sends generalizing offset retry taken with
  | nil =>
      unfold sendFrom at h
      split at h
      · cases h
      next hall =>
      obtain ⟨-, hboth⟩ := Prod.mk.inj (Except.ok.inj h)
      obtain ⟨rfl, rfl⟩ := Prod.mk.inj hboth
      refine ⟨[], rfl, (List.append_nil _).symm, fun _ => ?_⟩
      rw [List.drop_eq_nil_of_le (Nat.not_lt.mp hall)]
      rfl
  | cons send tail ih =>
      unfold sendFrom at h
      split at h
      · split at h
        · obtain ⟨used, rfl, rfl, htakes⟩ := ih h
          refine ⟨send :: used, rfl, ?_, fun hstatus => ?_⟩
          · rw [takes, List.drop_drop, List.append_assoc]
          · rw [takes, List.drop_drop, htakes hstatus, ← List.drop_drop]
            exact List.take_append_drop _ _
        next hnone =>
        -- what is refused takes nothing
        have hrefused (used : List SshSend) : takes (bytes.drop offset) (send :: used) =
            takes (bytes.drop offset) used := by
          rw [takes, Int.toNat_eq_zero.mpr (Int.not_lt.mp hnone), List.take_zero, List.drop_zero,
            List.nil_append]
        split at h
        · obtain ⟨rfl, hboth⟩ := Prod.mk.inj (Except.ok.inj h)
          obtain ⟨rfl, rfl⟩ := Prod.mk.inj hboth
          refine ⟨[send], rfl, ?_, fun hstatus => absurd (by decide) hstatus⟩
          rw [hrefused, takes, List.append_nil]
        · obtain ⟨used, rfl, rfl, htakes⟩ := ih h
          refine ⟨send :: used, rfl, ?_, fun hstatus => ?_⟩
          · rw [hrefused]
          · rw [hrefused, htakes hstatus]
      next hall =>
        obtain ⟨-, hboth⟩ := Prod.mk.inj (Except.ok.inj h)
        obtain ⟨rfl, rfl⟩ := Prod.mk.inj hboth
        refine ⟨[], rfl, (List.append_nil _).symm, fun _ => ?_⟩
        rw [List.drop_eq_nil_of_le (Nat.not_lt.mp hall)]
        rfl

/-- One message, sent. -/
theorem sendAll_takes {bytes taken : List UInt8} {sends rest : List SshSend} {status : EfiStatus}
    (voice : Voice) (h : sendAll ws bytes sends = .ok (status, taken, rest)) :
    ∃ used, sends = used ++ rest ∧ taken = takes bytes used ∧
      (⟨voice, bytes, used⟩ : Spoken).Sent ws ∧ (¬ EfiError status → takes bytes used = bytes) := by
  obtain ⟨used, rfl, rfl, htakes⟩ := sendFrom_takes h
  exact ⟨used, rfl, rfl, ⟨status, rest, h⟩, htakes⟩

/-- `DrainExtendedData` feeds what it reads. -/
theorem drain_feeds {reads rest : List SshRead} {t t' : Terminal} {status : EfiStatus}
    (h : drainExtendedData ws reads t = .ok (status, t', rest)) :
    rest = (drained reads).2 ∧ ∃ calls e, t.exchange calls = .ok e ∧ e.terminal = t' ∧
      fed calls = (drained reads).1 ∧ e.taken = [] := by
  induction reads generalizing t with
  | nil => cases h
  | cons read tail ih =>
      unfold drainExtendedData at h
      unfold drained
      split at h
      · next hdata =>
          obtain ⟨u, hfeed, hlater⟩ := bind_ok.mp h
          obtain ⟨hrest, calls, e, hexchange, hterminal, hfed, htaken⟩ := ih hlater
          rw [if_pos hdata]
          have hboth := exchange_append (exchange_feed (onTerminal_ok hfeed)) hexchange
          refine ⟨hrest, _, _, hboth, hterminal, ?_, htaken⟩
          rw [fed_append, hfed]
          exact congrArg (· ++ _) (List.append_nil _)
      · next hnone =>
          rw [if_neg hnone]
          split at h
          all_goals
            obtain ⟨-, hboth⟩ := Prod.mk.inj (Except.ok.inj h)
            obtain ⟨rfl, rfl⟩ := Prod.mk.inj hboth
            exact ⟨rfl, [], _, rfl, rfl, rfl, rfl⟩

/-- One read is heard, and says nothing. -/
theorem readOnce_converses {s s' : Session} {more : Bool}
    (h : readOnce ws s = .ok (s', more)) : ∃ used, Converses ws s s' used [] := by
  unfold readOnce at h
  split at h
  · cases h
  next read rest hreads =>
  -- what an answer without data leaves: the same terminal and the answers after it
  have hnothing {u : Session} (hnone : ¬ 0 < read.result)
      (hnot : ¬ (read.result = ws.extData ∨ read.error = ws.extData))
      (hscript : u.script.reads = rest ∧ u.script.extended = s.script.extended ∧
        u.script.sends = s.script.sends) (hterminal : u.terminal = s.terminal)
      (hsilent : Converses.Silent s u) : Converses ws s u [read] [] := by
    have hheard : heard ws [read] s.script.extended = ([], s.script.extended) := by
      rw [heard, if_neg hnone, if_neg hnot, heard]
    refine ⟨?_, ?_, ⟨[], _, rfl, hterminal.symm, ?_, rfl⟩, hscript.2.2.symm,
      fun _ hm => absurd hm List.not_mem_nil,
      hsilent.1.trans (List.append_nil _).symm, hsilent.2.trans (List.append_nil _).symm⟩
    · rw [hreads, hscript.1, List.singleton_append]
    · rw [hscript.2.1, hheard]
    · rw [hheard]
      rfl
  refine ⟨[read], ?_⟩
  simp only at h
  split at h
  · next hdata =>
      obtain ⟨t, hfeed, h⟩ := bind_ok.mp h
      obtain rfl := fst_of_ok h
      have hheard : heard ws [read] s.script.extended = (read.data, s.script.extended) := by
        rw [heard, if_pos hdata, heard, List.append_nil]
      refine ⟨hreads, by rw [hheard]; rfl, ⟨_, _, exchange_feed (onTerminal_ok hfeed), rfl, ?_, rfl⟩,
        rfl, fun _ hm => absurd hm List.not_mem_nil, ?_, ?_⟩
      · rw [hheard]
        exact List.append_nil _
      · exact (Converses.silent_record rfl rfl rfl).1.trans (List.append_nil _).symm
      · exact (Converses.silent_record rfl rfl rfl).2.trans (List.append_nil _).symm
  next hnone =>
  split at h
  · next hannounced =>
      obtain ⟨⟨status, t, extended⟩, hdrain, h⟩ := bind_ok.mp h
      obtain rfl := fst_of_ok h
      obtain ⟨hrest, calls, e, hexchange, hterminal, hfed, htaken⟩ := drain_feeds hdrain
      have hheard : heard ws [read] s.script.extended = drained s.script.extended := by
        rw [heard, if_neg hnone, if_pos hannounced, heard]
        simp only [List.append_nil]
      refine ⟨hreads, hrest.trans (congrArg Prod.snd hheard).symm,
        ⟨calls, e, hexchange, hterminal, hfed.trans (congrArg Prod.fst hheard).symm, htaken⟩,
        rfl, fun _ hm => absurd hm List.not_mem_nil, ?_, ?_⟩
      · exact (Converses.silent_record rfl rfl rfl).1.trans (List.append_nil _).symm
      · exact (Converses.silent_record rfl rfl rfl).2.trans (List.append_nil _).symm
  next hnot =>
  split at h
  · obtain rfl := fst_of_ok h
    exact hnothing hnone hnot ⟨rfl, rfl, rfl⟩ rfl (Converses.silent_record rfl rfl rfl)
  split at h
  · obtain rfl := fst_of_ok h
    exact hnothing hnone hnot ⟨rfl, rfl, rfl⟩ rfl (Converses.silent_record rfl rfl rfl)
  split at h
  · obtain rfl := fst_of_ok h
    exact hnothing hnone hnot ⟨rfl, rfl, rfl⟩ rfl (Converses.silent_record rfl rfl rfl)
  split at h
  · obtain rfl := fst_of_ok h
    exact hnothing hnone hnot ⟨rfl, rfl, rfl⟩ rfl ⟨rfl, rfl⟩
  · obtain rfl := fst_of_ok h
    exact hnothing hnone hnot ⟨rfl, rfl, rfl⟩ rfl (Converses.silent_record rfl rfl rfl)

theorem burst_converses {rounds : Nat} {s s' : Session} (h : burst ws rounds s = .ok s') :
    ∃ used, Converses ws s s' used [] := by
  induction rounds generalizing s with
  | zero =>
      obtain rfl := Except.ok.inj h
      exact ⟨[], .untouched rfl ⟨rfl, rfl, rfl⟩ ⟨rfl, rfl⟩⟩
  | succ rounds ih =>
      obtain ⟨⟨u, more⟩, honce, h⟩ := bind_ok.mp h
      obtain ⟨used, hfirst⟩ := readOnce_converses honce
      cases more with
      | true =>
          obtain ⟨later, hlater⟩ := ih h
          exact ⟨used ++ later, hfirst.trans hlater⟩
      | false =>
          obtain rfl := Except.ok.inj h
          exact ⟨used, hfirst⟩

/-- Painting neither hears nor says anything. -/
theorem paint_converses {s s' : Session} (h : paint s = .ok s') : Converses ws s s' [] [] := by
  unfold paint at h
  split at h
  · obtain ⟨t, hflush, h⟩ := bind_ok.mp h
    obtain rfl := Except.ok.inj h
    exact .quiet (exchange_flush (onTerminal_ok hflush)) rfl rfl rfl ⟨rfl, rfl, rfl⟩ ⟨rfl, rfl⟩
  · obtain rfl := Except.ok.inj h
    exact .untouched rfl ⟨rfl, rfl, rfl⟩ ⟨rfl, rfl⟩

/-- What a stage has said: all messages whole, or the last one has failed. -/
def Through (s : Session) (spoken : List Spoken) : Prop := Whole spoken ∨ CutShort s spoken

/-- Nothing said is said through. -/
theorem through_nil (s : Session) : Through s [] := .inl fun _ hm => absurd hm List.not_mem_nil

/-- A conversation goes on after what was taken whole. -/
theorem Through.after {s : Session} {first rest : List Spoken} (h : Whole first)
    (h' : Through s rest) : Through s (first ++ rest) := h'.imp h.append (CutShort.after h)

/-- One message, and the end of the session if it fails. -/
theorem through_one {s : Session} {m : Spoken}
    (hstatus : ¬ EfiError s.status → m.accepted = m.bytes) (hfinished : EfiError s.status →
      s.finished = true) : Through s [m] := by
  by_cases herror : EfiError s.status
  · exact .inr ⟨herror, hfinished herror, [], m, rfl, fun _ hm => absurd hm List.not_mem_nil⟩
  · refine .inl fun m' hm => ?_
    obtain rfl := List.mem_singleton.mp hm
    exact hstatus herror

/-- **The replies** are said one after the other, until one is cut short. -/
theorem replyFrom_converses {rounds : Nat} {s s' : Session} (h : replyFrom ws rounds s = .ok s') :
    ∃ spoken, Converses ws s s' [] spoken ∧ Through s' spoken := by
  induction rounds generalizing s with
  | zero => cases h
  | succ rounds ih =>
      obtain ⟨⟨reply, t⟩, htake, h⟩ := bind_ok.mp h
      have hexchange := exchange_takeResponse (onTerminal_ok htake)
      simp only at h
      split at h
      · obtain ⟨⟨status, taken, sends⟩, hsend, h⟩ := bind_ok.mp h
        obtain ⟨used, hsends, rfl, hsent, htakes⟩ := sendAll_takes .terminal hsend
        -- the session after the reply
        have hone (u : Session) (hscript : u.script = { s.script with sends := sends })
            (hterminal : u.terminal = t)
            (htrace : u.trace = s.trace ++ [.replied reply (takes reply used) status]) :
            Converses ws s u [] [⟨.terminal, reply, used⟩] := by
          refine ⟨?_, ?_, ⟨_, _, hexchange, hterminal.symm, rfl, (List.append_nil _).symm⟩, ?_,
            fun m hm => List.mem_singleton.mp hm ▸ hsent, ?_, ?_⟩
          · rw [hscript]
            rfl
          · rw [hscript]
            rfl
          · rw [hscript, hsends]
            exact congrArg (· ++ sends) (List.append_nil used).symm
          · rw [htrace, typedBytes_append]
            rfl
          · rw [htrace, messages_append]
            rfl
        simp only at h
        split at h
        · next herror =>
            obtain rfl := Except.ok.inj h
            exact ⟨_, hone _ rfl rfl rfl, through_one (fun hnot => absurd herror hnot) fun _ => rfl⟩
        · next hsuccess =>
            obtain ⟨later, hlater, hthrough⟩ := ih h
            refine ⟨_, (hone _ rfl rfl rfl).trans hlater, .after (fun m hm => ?_) hthrough⟩
            obtain rfl := List.mem_singleton.mp hm
            exact htakes hsuccess
      · next hnone =>
          obtain rfl := Except.ok.inj h
          have hempty : reply = [] := List.length_eq_zero_iff.mp (not_not.mp hnone)
          exact ⟨[], .quiet hexchange rfl rfl hempty ⟨rfl, rfl, rfl⟩ ⟨rfl, rfl⟩, through_nil _⟩

/-- **The keys** are said one after the other, until one is cut short. -/
theorem keyFrom_converses {reads : List KeyRead} {s s' : Session}
    (h : keyFrom ws reads s = .ok s') :
    ∃ spoken, Converses ws s s' [] spoken ∧ Through s' spoken ∧
      (s.finished = true → s' = s ∧ spoken = []) := by
  induction reads generalizing s with
  | nil =>
      unfold keyFrom at h
      split at h
      · obtain rfl := Except.ok.inj h
        exact ⟨[], .untouched rfl ⟨rfl, rfl, rfl⟩ ⟨rfl, rfl⟩, through_nil _, fun _ => ⟨rfl, rfl⟩⟩
      · cases h
  | cons read tail ih =>
      unfold keyFrom at h
      split at h
      · obtain rfl := Except.ok.inj h
        exact ⟨[], .untouched rfl ⟨rfl, rfl, rfl⟩ ⟨rfl, rfl⟩, through_nil _, fun _ => ⟨rfl, rfl⟩⟩
      next hgoes =>
      -- the session that has polled the keyboard
      have hpolled {u : Session} (hterminal : u.terminal = s.terminal)
          (hscript : u.script = { s.script with keys := tail })
          (htrace : u.trace = s.trace ++ [.polled s.terminal.applicationCursor read]) :
          Converses ws s u [] [] := by
        refine .untouched hterminal ?_ (Converses.silent_record rfl rfl htrace)
        rw [hscript]
        exact ⟨rfl, rfl, rfl⟩
      suffices hall : ∃ spoken, Converses ws s s' [] spoken ∧ Through s' spoken by
        obtain ⟨spoken, hconverses, hthrough⟩ := hall
        exact ⟨spoken, hconverses, hthrough, fun hfinished => absurd hfinished hgoes⟩
      simp only at h
      split at h
      · obtain rfl := Except.ok.inj h
        exact ⟨[], hpolled rfl rfl rfl, through_nil _⟩
      split at h
      · obtain rfl := Except.ok.inj h
        exact ⟨[], hpolled rfl rfl rfl, through_nil _⟩
      split at h
      · obtain rfl := Except.ok.inj h
        exact ⟨[], hpolled rfl rfl rfl, through_nil _⟩
      split at h
      · obtain ⟨⟨status, taken, sends⟩, hsend, h⟩ := bind_ok.mp h
        obtain ⟨used, hsends, rfl, hsent, htakes⟩ := sendAll_takes .keyboard hsend
        generalize hkey : (readKey s.terminal.applicationCursor 16 read).bytes = key at *
        -- the session that has sent the keystroke
        have hone (u : Session) (hscript : u.script = { s.script with keys := tail, sends := sends })
            (hterminal : u.terminal = s.terminal)
            (htrace : u.trace = s.trace ++ [.polled s.terminal.applicationCursor read] ++
              [.typed key (takes key used) status]) :
            Converses ws s u [] [⟨.keyboard, key, used⟩] := by
          refine ⟨?_, ?_, ⟨[], _, rfl, hterminal.symm, rfl, rfl⟩, ?_,
            fun m hm => List.mem_singleton.mp hm ▸ hsent, ?_, ?_⟩
          · rw [hscript]
            rfl
          · rw [hscript]
            rfl
          · have hkept : s.script.sends = used ++ sends := hsends
            rw [hscript, hkept]
            exact congrArg (· ++ sends) (List.append_nil used).symm
          · rw [htrace, typedBytes_append, typedBytes_append]
            show typedBytes s.trace ++ [] ++ _ = _
            rw [List.append_nil]
            rfl
          · rw [htrace, messages_append, messages_append]
            show messages s.trace ++ [] ++ _ = _
            rw [List.append_nil]
            rfl
        simp only at h
        split at h
        · next herror =>
            obtain rfl := Except.ok.inj h
            exact ⟨_, hone _ rfl rfl rfl, through_one (fun hnot => absurd herror hnot) fun _ => rfl⟩
        · next hsuccess =>
            obtain ⟨later, hlater, hthrough, -⟩ := ih h
            have hboth : Converses ws s s' ([] ++ []) ([⟨.keyboard, key, used⟩] ++ later) := by
              refine .trans ?_ hlater
              exact hone _ rfl rfl rfl
            refine ⟨_, hboth, .after (fun m hm => ?_) hthrough⟩
            obtain rfl := List.mem_singleton.mp hm
            exact htakes hsuccess
      · obtain ⟨later, hlater, hthrough, -⟩ := ih h
        have hboth : Converses ws s s' ([] ++ []) ([] ++ later) := by
          refine .trans ?_ hlater
          exact hpolled rfl rfl rfl
        exact ⟨later, hboth, hthrough⟩

/-- **A round of the conversation.**  A failed message ends it. -/
theorem round_converses {s s' : Session} (h : round ws s = .ok s') :
    ∃ used spoken, Converses ws s s' used spoken ∧ Through s' spoken := by
  obtain ⟨s₁, hburst, h⟩ := bind_ok.mp h
  obtain ⟨s₂, hpaint, h⟩ := bind_ok.mp h
  obtain ⟨s₃, hreply, hkeys⟩ := bind_ok.mp h
  obtain ⟨used, hheard⟩ := burst_converses hburst
  obtain ⟨replies, hreplies, hthrough⟩ := replyFrom_converses hreply
  obtain ⟨typed, htyped, hthrough', hover⟩ := keyFrom_converses hkeys
  have hstart : Converses ws s s₁ used [] :=
    { hheard with }
  have hall := ((hstart.trans (paint_converses hpaint)).trans hreplies).trans htyped
  refine ⟨_, _, hall, ?_⟩
  rcases hthrough with hwhole | hcut
  · exact .after hwhole hthrough'
  · obtain ⟨rfl, rfl⟩ := hover hcut.2.1
    exact .inr ((List.append_nil replies).symm ▸ hcut)

/-- **The session is a conversation.** -/
theorem loop_converses {rounds : Nat} {s s' : Session} (h : loop ws rounds s = .ok s') :
    ∃ used spoken, Converses ws s s' used spoken ∧ Through s' spoken ∧
      (s.finished = true → s' = s ∧ spoken = []) := by
  induction rounds generalizing s with
  | zero => cases h
  | succ rounds ih =>
      unfold loop at h
      split at h
      · obtain rfl := Except.ok.inj h
        exact ⟨[], [], .untouched rfl ⟨rfl, rfl, rfl⟩ ⟨rfl, rfl⟩, through_nil _, fun _ => ⟨rfl, rfl⟩⟩
      next hgoes =>
      obtain ⟨u, hround, h⟩ := bind_ok.mp h
      obtain ⟨used, spoken, hfirst, hthrough⟩ := round_converses hround
      obtain ⟨later, answers, hlater, hthrough', hover⟩ := ih h
      refine ⟨used ++ later, spoken ++ answers, hfirst.trans hlater, ?_,
        fun hfinished => absurd hfinished hgoes⟩
      rcases hthrough with hwhole | hcut
      · exact .after hwhole hthrough'
      · -- a failed message has ended the loop
        obtain ⟨rfl, rfl⟩ := hover hcut.2.1
        exact .inr ((List.append_nil spoken).symm ▸ hcut)

end Session

end WolfSshUefi
