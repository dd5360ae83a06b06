import WolfSshUefi.Library.Potentials
import WolfSshUefi.Session.Conversing
import WolfSshUefi.Session.Sending

/-!
# What the session returns

One variable holds the status, and everything that gives a result writes it: the
session returns the result that came last.  A failure to receive ends the
session, but the burst it happens in may go on, and the terminal's replies are
sent after it; so the failure is returned exactly when the answers of wolfSSH
leave no success behind it (`session_reflects_iff`).
-/

namespace WolfSshUefi

/-- Receiving failed in the session. -/
def HasFailure (trace : List Event) : Prop := ∃ e ∈ trace, e.Failure

/-- The status says why the session ended: an error after a failure to receive, and
a success at the end of the stream. -/
def Reflects (trace : List Event) (status : EfiStatus) : Prop :=
  (HasFailure trace → EfiError status) ∧
    (.endOfFile ∈ trace → ¬ HasFailure trace → status = efiSuccess)

/-- A failure to receive ends the session. -/
theorem Event.Failure.ends {e : Event} (h : e.Failure) : e.Ends := by
  cases e with
  | receiveFailed => trivial
  | drained status => exact h
  | _ => exact h.elim

/-- A reply is no failure to receive and no end of the stream. -/
theorem Event.IsReply.plain {e : Event} (h : e.IsReply) : ¬ e.Failure ∧ e ≠ .endOfFile := by
  cases e with
  | replied bytes taken status => exact ⟨id, by simp⟩
  | _ => exact h.elim

/-- Nor is anything that is recorded while keys are read. -/
theorem Event.InKeys.plain {e : Event} (h : e.InKeys) : ¬ e.Failure ∧ e ≠ .endOfFile := by
  cases e with
  | polled _ _ => exact ⟨id, by simp⟩
  | typed _ _ _ => exact ⟨id, by simp⟩
  | _ => exact h.elim

/-- A failure in either of two traces. -/
theorem hasFailure_append {first rest : List Event} :
    HasFailure (first ++ rest) ↔ HasFailure first ∨ HasFailure rest := by
  simp only [HasFailure, List.mem_append, or_and_right, exists_or]

/-! ### The answers of a burst -/

/-- What an answer of `wolfSSH_stream_read` is taken for. -/
inductive ReadKind
  | data           -- bytes for the terminal
  | extended       -- extended data is there
  | endOfFile      -- `WS_EOF` or `WS_CHANNEL_CLOSED`
  | socketError    -- `WS_SOCKET_ERROR_E`
  | rekeying       -- `WS_REKEYING`
  | nothing        -- nothing is there yet
  | failure        -- none of these
  deriving DecidableEq

/-- The burst goes on after an answer of this kind. -/
def ReadKind.goesOn : ReadKind → Bool
  | .data | .extended | .rekeying => true
  | .endOfFile | .socketError | .nothing | .failure => false

/-- The kind of an answer. -/
def SshRead.kind (ws : WolfSshErrors) (read : SshRead) : ReadKind :=
  if 0 < read.result then .data
  else if read.result = ws.extData ∨ read.error = ws.extData then .extended
  else if read.result = ws.eof ∨ read.error = ws.eof ∨ read.error = ws.channelClosed then .endOfFile
  else if read.error = ws.socketError then .socketError
  else if read.error = ws.rekeying then .rekeying
  else if read.error = ws.wantRead ∨ read.error = ws.wantWrite ∨ read.result = 0 then .nothing
  else .failure

/-- An answer of `wolfSSH_extended_data_read` with which a drain ends. -/
def SshRead.EndsDrain (read : SshRead) : Prop := ¬ 0 < read.result

/-- The drain that ends with this answer has failed. -/
def SshRead.FailsDrain (ws : WolfSshErrors) (read : SshRead) : Prop :=
  ¬ (read.result = 0 ∨ Session.IsRetryableError ws read.error)

instance (read : SshRead) : Decidable read.EndsDrain := by
  unfold SshRead.EndsDrain; infer_instance

instance (ws : WolfSshErrors) (read : SshRead) : Decidable (read.FailsDrain ws) := by
  unfold SshRead.FailsDrain; infer_instance

namespace Session

open Terminal Transducer

section Answers

variable (ws : WolfSshErrors)

/-- The answers that a burst of so many rounds reads: all up to the first one after which it
does not go on. -/
def burstReads (rounds : Nat) (reads : List SshRead) : List SshRead :=
  (reads.take rounds).takeWhile (fun read => (read.kind ws).goesOn) ++
    ((reads.take rounds).dropWhile fun read => (read.kind ws).goesOn).take 1

/-- The answers that end the drains of a burst that reads `used`, one for each answer that
says that extended data is there. -/
def drainEnds (used extended : List SshRead) : List SshRead :=
  (extended.filter fun read => read.EndsDrain).take
    (used.countP fun read => read.kind ws = .extended)

/-- What fails in a burst, in the order in which it writes the status: each drain fails or
not, and a read that fails comes last. -/
def verdicts (used ends : List SshRead) : List Bool :=
  ends.map (fun read => decide (read.FailsDrain ws)) ++
    (used.filter fun read => read.kind ws = .failure).map fun _ => true

/-- What fails in the burst that the next round of the session begins with. -/
def failures (s : Session) : List Bool :=
  verdicts ws (burstReads ws 32 s.script.reads)
    (drainEnds ws (burstReads ws 32 s.script.reads) s.script.extended)

/-- How many bytes of replies wait once the terminal has heard that burst. -/
def repliesAfter (s : Session) : Nat :=
  (Screen.feed s.terminal
    (heard ws (burstReads ws 32 s.script.reads) s.script.extended).1).replyLength

/-- wolfSSH fails a message of this size: a send fails for good, or too many fail in a row,
before it has taken so many bytes. -/
def Refuses (size : Nat) (sends : List SshSend) : Prop :=
  ∃ asked left, sends = asked ++ left ∧ total (fun send => send.result.toNat) asked < size ∧
    GivesUp ws asked

/-- The answers that are left when wolfSSH has taken so many bytes. -/
def leftOver : Nat → List SshSend → List SshSend
  | 0, sends => sends
  | _ + 1, [] => []
  | size + 1, send :: rest => leftOver (size + 1 - send.result.toNat) rest

/-- The sizes of the messages in which so many bytes of replies are sent. -/
def replySizes (queued : Nat) : List Nat :=
  List.replicate (queued / 128) 128 ++ if queued % 128 = 0 then [] else [queued % 128]

/-- wolfSSH fails one of the messages that are sent one after the other. -/
def RefusesSome : List Nat → List SshSend → Prop
  | [], _ => False
  | size :: later, sends => Refuses ws size sends ∨ RefusesSome later (leftOver size sends)

/-- The answers to come hide nothing of the round that begins here.  If its burst fails, then
one of the replies that wait fails as well, or none waits and the burst does not recover; if
the burst comes to the end of the stream, and nothing fails in it, then no reply fails. -/
structure Clear (s : Session) : Prop where
  failure : true ∈ failures ws s →
    RefusesSome ws (replySizes (repliesAfter ws s)) s.script.sends ∨
      repliesAfter ws s = 0 ∧ (failures ws s).getLast? = some true
  endOfFile : (∃ read ∈ burstReads ws 32 s.script.reads, read.kind ws = .endOfFile) →
    true ∉ failures ws s → ¬ RefusesSome ws (replySizes (repliesAfter ws s)) s.script.sends

/-- The states in which the session begins a round. -/
inductive Entered (start : Session) : Session → Prop
  | first : Entered start start
  | next {s s' : Session} (entered : Entered start s) (round : round ws s = .ok s')
      (running : s'.finished = false) : Entered start s'

end Answers

variable {ws : WolfSshErrors}

/-! ### Bursts -/

/-- A burst reads one answer, and the others if it goes on. -/
theorem burstReads_cons (rounds : Nat) (read : SshRead) (rest : List SshRead) :
    burstReads ws (rounds + 1) (read :: rest) =
      read :: if (read.kind ws).goesOn then burstReads ws rounds rest else [] := by
  unfold burstReads
  by_cases hgoes : (read.kind ws).goesOn = true
  · simp [hgoes]
  · simp [hgoes]

/-- From `s` to `u` a burst has read the answers `used`, with drains that end with `ends`: the
terminal has heard all that came with them, and the events and the status tell what failed. -/
structure Foretold (ws : WolfSshErrors) (used ends : List SshRead) (s u : Session)
    (events : List Event) : Prop where
  reads : s.script.reads = used ++ u.script.reads
  terminal : u.terminal = Screen.feed s.terminal (heard ws used s.script.extended).1
  extended : u.script.extended = (heard ws used s.script.extended).2
  sends : u.script.sends = s.script.sends
  trace : u.trace = s.trace ++ events
  count : ends.length = used.countP fun read => read.kind ws = .extended
  drains : (s.script.extended.filter fun read => read.EndsDrain) =
    ends ++ u.script.extended.filter fun read => read.EndsDrain
  failure : HasFailure events ↔ true ∈ verdicts ws used ends
  endOfFile : .endOfFile ∈ events ↔ ∃ read ∈ used, read.kind ws = .endOfFile
  status : decide (EfiError u.status) =
    (verdicts ws used ends).getLast?.getD (decide (EfiError s.status))
  decided : Decided s.status → Decided u.status

namespace Foretold

variable {s u v : Session} {used ends more later : List SshRead} {events behind : List Event}

/-- The ends of the drains are those that the script has. -/
theorem drainEnds_eq (h : Foretold ws used ends s u events) :
    drainEnds ws used s.script.extended = ends := by
  rw [drainEnds, h.drains, ← h.count, List.take_left']
  rfl

/-- One part of a burst after the other, if the first does not fail to read. -/
theorem trans (h : Foretold ws used ends s u events)
    (hgoes : ∀ read ∈ used, read.kind ws ≠ .failure) (h' : Foretold ws more later u v behind) :
    Foretold ws (used ++ more) (ends ++ later) s v (events ++ behind) := by
  have hnone : (used.filter fun read => read.kind ws = .failure) = [] :=
    List.filter_eq_nil_iff.mpr fun read hread => by simp [hgoes read hread]
  have hverdicts : verdicts ws (used ++ more) (ends ++ later) =
      verdicts ws used ends ++ verdicts ws more later := by
    simp only [verdicts, List.map_append, List.filter_append, hnone, List.nil_append, List.map_nil,
      List.append_nil, List.append_assoc]
  constructor
  · rw [h.reads, h'.reads, List.append_assoc]
  · rw [h'.terminal, h.terminal, h.extended, heard_append, Screen.feed_append]
  · rw [h'.extended, h.extended, heard_append]
  · rw [h'.sends, h.sends]
  · rw [h'.trace, h.trace, List.append_assoc]
  · rw [List.length_append, h.count, h'.count, List.countP_append]
  · rw [h.drains, h'.drains, List.append_assoc]
  · rw [hasFailure_append, h.failure, h'.failure, hverdicts, List.mem_append]
  · simp only [List.mem_append, h.endOfFile, h'.endOfFile, or_and_right, exists_or]
  · rw [h'.status, h.status, hverdicts, List.getLast?_append]
    cases (verdicts ws more later).getLast? <;> rfl
  · exact fun hdecided => h'.decided (h.decided hdecided)

/-- After a burst that began with a success the status is an error if the last verdict is. -/
theorem failed_iff (h : Foretold ws used ends s u events) (hs : s.status = efiSuccess) :
    EfiError u.status ↔ (verdicts ws used ends).getLast? = some true := by
  have hlast := h.status
  have hsuccess : ¬ EfiError s.status := by
    rw [hs]
    decide
  rw [decide_eq_false hsuccess] at hlast
  rw [← decide_eq_true_iff (p := EfiError u.status), hlast]
  cases (verdicts ws used ends).getLast? with
  | none => simp
  | some failed => simp

end Foretold

/-- What a drain does, by the answers to it. -/
theorem drain_foretold {reads rest : List SshRead} {t t' : Terminal} {status : EfiStatus}
    (ht : t.WellFormed) (h : drainExtendedData ws reads t = .ok (status, t', rest)) :
    rest = (drained reads).2 ∧ t' = Screen.feed t (drained reads).1 ∧ Decided status ∧
      ∃ last, (reads.filter fun read => read.EndsDrain) =
          last :: rest.filter (fun read => read.EndsDrain) ∧
        (EfiError status ↔ last.FailsDrain ws) := by
  induction reads generalizing t with
  | nil => cases h
  | cons read tail ih =>
      unfold drainExtendedData at h
      unfold drained
      split at h
      · next hdata =>
          obtain ⟨u, hfeed, hlater⟩ := bind_ok.mp h
          obtain rfl : u = Screen.feed t read.data :=
            Except.ok.inj ((onTerminal_ok hfeed).symm.trans (ht.feed_eq read.data))
          obtain ⟨hrest, hterminal, hdecided, last, hlast⟩ := ih (ht.feed read.data) hlater
          rw [if_pos hdata]
          refine ⟨hrest, ?_, hdecided, last, ?_⟩
          · rw [hterminal, Screen.feed_append]
          · rw [List.filter_cons_of_neg (by simp [SshRead.EndsDrain, hdata])]
            exact hlast
      next hnone =>
      rw [if_neg hnone]
      have hlast : ((read :: tail).filter fun read => read.EndsDrain) =
          read :: tail.filter fun read => read.EndsDrain :=
        List.filter_cons_of_pos (by simp [SshRead.EndsDrain, hnone])
      split at h
      · next hfine =>
          obtain ⟨rfl, hboth⟩ := Prod.mk.inj (Except.ok.inj h)
          obtain ⟨rfl, rfl⟩ := Prod.mk.inj hboth
          refine ⟨rfl, rfl, .inl rfl, read, hlast, iff_of_false (by decide) (not_not.mpr hfine)⟩
      · next hfails =>
          obtain ⟨rfl, hboth⟩ := Prod.mk.inj (Except.ok.inj h)
          obtain ⟨rfl, rfl⟩ := Prod.mk.inj hboth
          exact ⟨rfl, rfl, .inr (by decide), read, hlast, iff_of_true (by decide) hfails⟩

section Reads

variable {s u : Session} {read : SshRead} {rest : List SshRead} {events : List Event}

/-- A read that brings neither bytes nor extended data. -/
theorem foretold_plain (hreads : s.script.reads = read :: rest) {kind : ReadKind}
    (hkind : read.kind ws = kind) (hplain : kind ≠ .data ∧ kind ≠ .extended)
    (hscript : u.script = { s.script with reads := rest }) (hterminal : u.terminal = s.terminal)
    (htrace : u.trace = s.trace ++ events) (hfailure : HasFailure events ↔ kind = .failure)
    (hend : .endOfFile ∈ events ↔ kind = .endOfFile)
    (hstatus : u.status = if kind = .failure then efiProtocolError else s.status) :
    Foretold ws [read] [] s u events := by
  have hnone : ¬ 0 < read.result ∧ ¬ (read.result = ws.extData ∨ read.error = ws.extData) := by
    constructor
    · exact fun hpos => hplain.1 (hkind.symm.trans (if_pos hpos))
    · intro hannounced
      by_cases hpos : 0 < read.result
      · exact hplain.1 (hkind.symm.trans (if_pos hpos))
      · exact hplain.2 (hkind.symm.trans ((if_neg hpos).trans (if_pos hannounced)))
  have hheard : heard ws [read] s.script.extended = ([], s.script.extended) := by
    rw [heard, if_neg hnone.1, if_neg hnone.2, heard]
  have hverdicts : verdicts ws [read] [] = if kind = .failure then [true] else [] := by
    unfold verdicts
    by_cases hfails : kind = .failure
    · simp [hkind, hfails]
    · simp [hkind, hfails]
  constructor
  · rw [hreads, hscript, List.singleton_append]
  · rw [hterminal, hheard]
    rfl
  · rw [hscript, hheard]
  · rw [hscript]
  · exact htrace
  · simp [hkind, hplain.2]
  · rw [hscript, List.nil_append]
  · rw [hfailure, hverdicts]
    split <;> simp [*]
  · simp [hend, hkind]
  · rw [hstatus, hverdicts]
    split
    · exact decide_eq_true (show EfiError efiProtocolError by decide)
    · rfl
  · intro hdecided
    rw [hstatus]
    split
    · exact .inr (by decide)
    · exact hdecided

/-- A read that brings bytes. -/
theorem foretold_data (hreads : s.script.reads = read :: rest) (hdata : 0 < read.result)
    (hscript : u.script = { s.script with reads := rest })
    (hterminal : u.terminal = Screen.feed s.terminal read.data)
    (htrace : u.trace = s.trace ++ [.received]) (hstatus : u.status = s.status) :
    Foretold ws [read] [] s u [.received] := by
  have hkind : read.kind ws = .data := if_pos hdata
  have hheard : heard ws [read] s.script.extended = (read.data, s.script.extended) := by
    rw [heard, if_pos hdata, heard, List.append_nil]
  have hverdicts : verdicts ws [read] [] = [] := by simp [verdicts, hkind]
  constructor
  · rw [hreads, hscript, List.singleton_append]
  · rw [hterminal, hheard]
  · rw [hscript, hheard]
  · rw [hscript]
  · exact htrace
  · simp [hkind]
  · rw [hscript, List.nil_append]
  · simp [HasFailure, Event.Failure, hverdicts]
  · simp [hkind]
  · rw [hstatus, hverdicts]
    rfl
  · rw [hstatus]
    exact id

/-- A read that says that extended data is there, and the drain of it. -/
theorem foretold_extended (ht : s.terminal.WellFormed) (hreads : s.script.reads = read :: rest)
    (hkind : read.kind ws = .extended) {status : EfiStatus} {extended : List SshRead}
    (hdrain : drainExtendedData ws s.script.extended s.terminal =
      .ok (status, u.terminal, extended))
    (hscript : u.script = { s.script with reads := rest, extended := extended })
    (htrace : u.trace = s.trace ++ [.drained status]) (hstatus : u.status = status) :
    ∃ last, Foretold ws [read] [last] s u [.drained status] := by
  obtain ⟨rfl, hterminal, hdecided, last, hlast, hfails⟩ := drain_foretold ht hdrain
  have hheard : heard ws [read] s.script.extended = drained s.script.extended := by
    unfold SshRead.kind at hkind
    unfold heard
    split at hkind
    · cases hkind
    next hnone =>
    split at hkind
    · next hannounced =>
        rw [if_neg hnone, if_pos hannounced, heard]
        simp only [List.append_nil]
    · repeat' split at hkind
      all_goals cases hkind
  refine ⟨last, ?_⟩
  constructor
  · rw [hreads, hscript, List.singleton_append]
  · rw [hterminal, hheard]
  · rw [hscript, hheard]
  · rw [hscript]
  · exact htrace
  · simp [hkind]
  · rw [hscript]
    exact hlast
  · simp [HasFailure, Event.Failure, verdicts, hkind, hfails]
  · simp [hkind]
  · simp [verdicts, hkind, hstatus, hfails]
  · rw [hstatus]
    exact fun _ => hdecided

end Reads

/-- **One read** does what its kind says. -/
theorem readOnce_foretold {s u : Session} {more : Bool} (ht : s.terminal.WellFormed)
    (h : readOnce ws s = .ok (u, more)) :
    ∃ read ends events, Foretold ws [read] ends s u events ∧ more = (read.kind ws).goesOn := by
  unfold readOnce at h
  split at h
  · cases h
  next read rest hreads =>
  simp only at h
  split at h
  · next hdata =>
      obtain ⟨t, hfeed, h⟩ := bind_ok.mp h
      obtain ⟨rfl, rfl⟩ := Prod.mk.inj (Except.ok.inj h)
      have hfed : t = Screen.feed s.terminal read.data :=
        Except.ok.inj ((onTerminal_ok hfeed).symm.trans (ht.feed_eq read.data))
      have hkind : read.kind ws = .data := if_pos hdata
      exact ⟨read, [], _, foretold_data hreads hdata rfl hfed rfl rfl, by rw [hkind]; rfl⟩
  next hnone =>
  split at h
  · next hannounced =>
      obtain ⟨⟨status, t, extended⟩, hdrain, h⟩ := bind_ok.mp h
      obtain ⟨rfl, rfl⟩ := Prod.mk.inj (Except.ok.inj h)
      have hkind : read.kind ws = .extended := (if_neg hnone).trans (if_pos hannounced)
      refine (foretold_extended ht hreads hkind hdrain ?_ ?_ ?_).elim fun last hforetold =>
        ⟨read, [last], _, hforetold, by rw [hkind]; rfl⟩
      · rfl
      · rfl
      · rfl
  next hnot =>
  split at h
  · next hend =>
      obtain ⟨rfl, rfl⟩ := Prod.mk.inj (Except.ok.inj h)
      have hkind : read.kind ws = .endOfFile :=
        (if_neg hnone).trans ((if_neg hnot).trans (if_pos hend))
      refine ⟨read, [], [.endOfFile], foretold_plain hreads hkind (by decide) rfl rfl rfl ?_ ?_ rfl,
        by rw [hkind]; rfl⟩
      · simp [HasFailure, Event.Failure]
      · simp
  next hopen =>
  split at h
  · next hsocket =>
      obtain ⟨rfl, rfl⟩ := Prod.mk.inj (Except.ok.inj h)
      have hkind : read.kind ws = .socketError :=
        (if_neg hnone).trans ((if_neg hnot).trans ((if_neg hopen).trans (if_pos hsocket)))
      refine ⟨read, [], [.socketError],
        foretold_plain hreads hkind (by decide) rfl rfl rfl ?_ ?_ rfl, by rw [hkind]; rfl⟩
      · simp [HasFailure, Event.Failure]
      · simp
  next hsocket =>
  split at h
  · next hrekeying =>
      obtain ⟨rfl, rfl⟩ := Prod.mk.inj (Except.ok.inj h)
      have hkind : read.kind ws = .rekeying :=
        (if_neg hnone).trans ((if_neg hnot).trans ((if_neg hopen).trans ((if_neg hsocket).trans
          (if_pos hrekeying))))
      refine ⟨read, [], [.rekeyed], foretold_plain hreads hkind (by decide) rfl rfl rfl ?_ ?_ rfl,
        by rw [hkind]; rfl⟩
      · simp [HasFailure, Event.Failure]
      · simp
  next hrekeying =>
  split at h
  · next hquiet =>
      obtain ⟨rfl, rfl⟩ := Prod.mk.inj (Except.ok.inj h)
      have hkind : read.kind ws = .nothing :=
        (if_neg hnone).trans ((if_neg hnot).trans ((if_neg hopen).trans ((if_neg hsocket).trans
          ((if_neg hrekeying).trans (if_pos hquiet)))))
      refine ⟨read, [], [], foretold_plain hreads hkind (by decide) rfl rfl
        (List.append_nil _).symm ?_ ?_ rfl, by rw [hkind]; rfl⟩
      · simp [HasFailure]
      · simp
  · next hfails =>
      obtain ⟨rfl, rfl⟩ := Prod.mk.inj (Except.ok.inj h)
      have hkind : read.kind ws = .failure :=
        (if_neg hnone).trans ((if_neg hnot).trans ((if_neg hopen).trans ((if_neg hsocket).trans
          ((if_neg hrekeying).trans (if_neg hfails)))))
      refine ⟨read, [], [.receiveFailed],
        foretold_plain hreads hkind (by decide) rfl rfl rfl ?_ ?_ rfl, by rw [hkind]; rfl⟩
      · simp [HasFailure, Event.Failure]
      · simp

/-- **A burst** does what the answers say that it reads. -/
theorem burst_foretold {rounds : Nat} {s u : Session} (ht : s.terminal.WellFormed)
    (h : burst ws rounds s = .ok u) :
    ∃ ends events, Foretold ws (burstReads ws rounds s.script.reads) ends s u events := by
  induction rounds generalizing s with
  | zero =>
      obtain rfl := Except.ok.inj h
      refine ⟨[], [], ?_⟩
      constructor
      · rfl
      · rfl
      · rfl
      · rfl
      · exact (List.append_nil _).symm
      · rfl
      · rfl
      · simp [HasFailure, verdicts, burstReads]
      · simp [burstReads]
      · simp [verdicts, burstReads]
      · exact id
  | succ rounds ih =>
      obtain ⟨⟨v, more⟩, honce, h⟩ := bind_ok.mp h
      obtain ⟨read, ends, events, hread, rfl⟩ := readOnce_foretold ht honce
      have hcons : burstReads ws (rounds + 1) s.script.reads =
          read :: if (read.kind ws).goesOn then burstReads ws rounds v.script.reads else [] := by
        rw [hread.reads]
        exact burstReads_cons rounds read _
      rw [hcons]
      cases hgoes : (read.kind ws).goesOn with
      | false =>
          rw [hgoes] at h
          obtain rfl := Except.ok.inj h
          exact ⟨ends, events, hread⟩
      | true =>
          rw [hgoes] at h
          have hwell : v.terminal.WellFormed := by
            rw [hread.terminal]
            exact ht.feed _
          obtain ⟨later, behind, hrest⟩ := ih hwell h
          refine ⟨ends ++ later, events ++ behind, hread.trans (fun r hr => ?_) hrest⟩
          obtain rfl := List.mem_singleton.mp hr
          intro hfails
          rw [hfails] at hgoes
          cases hgoes

/-! ### Replies -/

/-- `SendAll` gives up after these answers, when so many before them were failures in a row. -/
def GivesUpAfter (ws : WolfSshErrors) (retry : Nat) (asked : List SshSend) : Prop :=
  (∃ before answer, asked = before ++ [answer] ∧ ¬ 0 < answer.result ∧
      ¬ IsRetryableError ws answer.error) ∨
    ∃ before failures, asked = before ++ failures ∧ (∀ answer ∈ failures, Retried ws answer) ∧
      (sendRetryLimit < failures.length ∨
        before = [] ∧ sendRetryLimit < retry + failures.length)

/-- At first nothing has failed in a row. -/
theorem givesUpAfter_zero {asked : List SshSend} :
    GivesUpAfter ws 0 asked ↔ GivesUp ws asked := by
  unfold GivesUpAfter GivesUp
  refine or_congr_right ⟨fun hmany => ?_, fun hmany => ?_⟩
  · obtain ⟨before, failures, hasked, hretried, hlimit⟩ := hmany
    exact ⟨before, failures, hasked, by omega, hretried⟩
  · obtain ⟨before, failures, hasked, hlimit, hretried⟩ := hmany
    exact ⟨before, failures, hasked, hretried, .inl hlimit⟩

/-- Nothing has been asked that `SendAll` could give up after. -/
theorem not_givesUpAfter_nil {retry : Nat} (hretry : retry ≤ sendRetryLimit) :
    ¬ GivesUpAfter ws retry [] := by
  intro hgives
  rcases hgives with ⟨before, answer, hasked, -⟩ | ⟨before, failures, hasked, -, hlimit⟩
  · simp at hasked
  · obtain ⟨-, rfl⟩ := List.append_eq_nil_iff.mp hasked.symm
    simp at hlimit
    omega

/-- Progress starts the count again. -/
theorem givesUpAfter_progress {retry : Nat} {send : SshSend} {asked : List SshSend}
    (hsent : 0 < send.result) :
    GivesUpAfter ws retry (send :: asked) ↔ GivesUpAfter ws 0 asked := by
  constructor
  · intro hgives
    rcases hgives with ⟨before, answer, hasked, hnone, hfatal⟩ |
      ⟨before, failures, hasked, hretried, hlimit⟩
    · cases before with
      | nil =>
          obtain ⟨rfl, -⟩ := List.cons.inj hasked
          exact absurd hsent hnone
      | cons first before =>
          exact .inl ⟨before, answer, (List.cons.inj hasked).2, hnone, hfatal⟩
    · cases before with
      | nil =>
          have hfirst := hretried send (by rw [← List.nil_append failures, ← hasked]; simp)
          exact absurd hsent hfirst.1
      | cons first before =>
          have hmany : sendRetryLimit < failures.length :=
            hlimit.resolve_right fun hnil => by simp at hnil
          exact .inr ⟨before, failures, (List.cons.inj hasked).2, hretried, .inl hmany⟩
  · intro hgives
    rcases hgives with ⟨before, answer, rfl, hnone, hfatal⟩ |
      ⟨before, failures, rfl, hretried, hlimit⟩
    · exact .inl ⟨send :: before, answer, rfl, hnone, hfatal⟩
    · exact .inr ⟨send :: before, failures, rfl, hretried, .inl (by omega)⟩

/-- A failure that is tried again adds to the count. -/
theorem givesUpAfter_retried {retry : Nat} {send : SshSend} {asked : List SshSend}
    (hretried : Retried ws send) :
    GivesUpAfter ws retry (send :: asked) ↔ GivesUpAfter ws (retry + 1) asked := by
  constructor
  · intro hgives
    rcases hgives with ⟨before, answer, hasked, hnone, hfatal⟩ |
      ⟨before, failures, hasked, hall, hlimit⟩
    · cases before with
      | nil =>
          obtain ⟨rfl, -⟩ := List.cons.inj hasked
          exact absurd hretried.2 hfatal
      | cons first before =>
          exact .inl ⟨before, answer, (List.cons.inj hasked).2, hnone, hfatal⟩
    · cases before with
      | nil =>
          rw [List.nil_append] at hasked
          subst hasked
          refine .inr ⟨[], asked, rfl, fun a ha => hall a (List.mem_cons_of_mem _ ha), .inr ⟨rfl, ?_⟩⟩
          rw [List.length_cons] at hlimit
          omega
      | cons first before =>
          have hmany : sendRetryLimit < failures.length :=
            hlimit.resolve_right fun hnil => by simp at hnil
          exact .inr ⟨before, failures, (List.cons.inj hasked).2, hall, .inl hmany⟩
  · intro hgives
    rcases hgives with ⟨before, answer, rfl, hnone, hfatal⟩ |
      ⟨before, failures, rfl, hall, hmany | ⟨rfl, hlimit⟩⟩
    · exact .inl ⟨send :: before, answer, rfl, hnone, hfatal⟩
    · exact .inr ⟨send :: before, failures, rfl, hall, .inl hmany⟩
    · refine .inr ⟨[], send :: failures, rfl, fun a ha => ?_, .inr ⟨rfl, ?_⟩⟩
      · rcases List.mem_cons.mp ha with rfl | hlater
        · exact hretried
        · exact hall a hlater
      · rw [List.length_cons]
        omega

/-- wolfSSH fails a message of this size, when so many of its last answers were failures. -/
def RefusesAfter (ws : WolfSshErrors) (retry size : Nat) (sends : List SshSend) : Prop :=
  ∃ asked left, sends = asked ++ left ∧ total (fun send => send.result.toNat) asked < size ∧
    GivesUpAfter ws retry asked

/-- A message of which nothing is left is not refused. -/
theorem not_refusesAfter_zero {retry : Nat} {sends : List SshSend} :
    ¬ RefusesAfter ws retry 0 sends := by
  intro hrefused
  obtain ⟨asked, left, -, hless, -⟩ := hrefused
  exact Nat.not_lt_zero _ hless

/-- One answer more, which `SendAll` does not give up after. -/
theorem refusesAfter_cons {retry next size : Nat} {send : SshSend} {tail : List SshSend}
    (hretry : retry ≤ sendRetryLimit)
    (hgives : ∀ asked, GivesUpAfter ws retry (send :: asked) ↔ GivesUpAfter ws next asked) :
    RefusesAfter ws next (size - send.result.toNat) tail ↔
      RefusesAfter ws retry size (send :: tail) := by
  constructor
  · intro hrefused
    obtain ⟨asked, left, rfl, hless, hends⟩ := hrefused
    refine ⟨send :: asked, left, rfl, ?_, (hgives asked).mpr hends⟩
    rw [total]
    omega
  · intro hrefused
    obtain ⟨asked, left, hasked, hless, hends⟩ := hrefused
    cases asked with
    | nil => exact absurd hends (not_givesUpAfter_nil hretry)
    | cons first asked =>
        obtain ⟨rfl, rfl⟩ := List.cons.inj hasked
        rw [total] at hless
        exact ⟨asked, left, rfl, by omega, (hgives asked).mp hends⟩

/-- `SendAll` gives up at an answer that is final, or one too many. -/
theorem refusesAfter_last {retry size : Nat} {send : SshSend} {tail : List SshSend}
    (hnone : ¬ 0 < send.result)
    (hgives : ¬ IsRetryableError ws send.error ∨ sendRetryLimit < retry + 1) :
    RefusesAfter ws retry (size + 1) (send :: tail) := by
  refine ⟨[send], tail, rfl, ?_, ?_⟩
  · simp only [total, Int.toNat_eq_zero.mpr (Int.not_lt.mp hnone)]
    omega
  · by_cases hretryable : IsRetryableError ws send.error
    · have hlimit := hgives.resolve_left (not_not.mpr hretryable)
      refine .inr ⟨[], [send], rfl, fun a ha => ?_, .inr ⟨rfl, hlimit⟩⟩
      obtain rfl := List.mem_singleton.mp ha
      exact ⟨hnone, hretryable⟩
    · exact .inl ⟨[], send, rfl, hnone, hretryable⟩

/-- With all bytes taken nothing is asked any more. -/
theorem nothing_left {retry size : Nat} {sends : List SshSend} (h : size = 0) :
    (EfiError efiSuccess ↔ RefusesAfter ws retry size sends) ∧
      (¬ EfiError efiSuccess → sends = leftOver size sends) := by
  subst h
  exact ⟨iff_of_false (by decide) not_refusesAfter_zero, fun _ => by rw [leftOver]⟩

/-- `SendAll` fails exactly if it gives up before wolfSSH has taken the bytes, and else leaves
the answers behind those by which they were taken. -/
theorem sendFrom_refused {bytes taken taken' : List UInt8} {sends rest : List SshSend}
    {offset retry : Nat} {status : EfiStatus} (hretry : retry ≤ sendRetryLimit)
    (h : sendFrom ws bytes sends offset retry taken = .ok (status, taken', rest)) :
    (EfiError status ↔ RefusesAfter ws retry (bytes.length - offset) sends) ∧
      (¬ EfiError status → rest = leftOver (bytes.length - offset) sends) := by
  have hfailure : EfiError efiDeviceError := by decide
  induction sends generalizing offset retry taken with
  | nil =>
      unfold sendFrom at h
      split at h
      · cases h
      next hall =>
      obtain ⟨rfl, hboth⟩ := Prod.mk.inj (Except.ok.inj h)
      obtain ⟨rfl, rfl⟩ := Prod.mk.inj hboth
      exact nothing_left (Nat.sub_eq_zero_of_le (Nat.not_lt.mp hall))
  | cons send tail ih =>
      unfold sendFrom at h
      split at h
      · next hmore =>
        obtain ⟨size, hsize⟩ : ∃ size, bytes.length - offset = size + 1 :=
          ⟨bytes.length - offset - 1, by omega⟩
        rw [hsize]
        split at h
        · next hsent =>
            have hrest : bytes.length - (offset + send.result.toNat) =
                size + 1 - send.result.toNat := by omega
            obtain ⟨hgives, hleft⟩ := ih (Nat.zero_le sendRetryLimit) h
            rw [hrest] at hgives hleft
            exact ⟨hgives.trans (refusesAfter_cons hretry fun _ => givesUpAfter_progress hsent),
              hleft⟩
        next hnone =>
        split at h
        · next hgives =>
            obtain ⟨rfl, -⟩ := Prod.mk.inj (Except.ok.inj h)
            exact ⟨iff_of_true hfailure (refusesAfter_last hnone hgives),
              fun hnot => absurd hfailure hnot⟩
        · next hgoes =>
            obtain ⟨hretryable, hlimit⟩ := not_or.mp hgoes
            have hretried : Retried ws send := ⟨hnone, Decidable.not_not.mp hretryable⟩
            obtain ⟨hgives, hleft⟩ := ih (Nat.not_lt.mp hlimit) h
            have hzero : size + 1 - send.result.toNat = size + 1 := by
              rw [Int.toNat_eq_zero.mpr (Int.not_lt.mp hnone), Nat.sub_zero]
            have hasked : RefusesAfter ws (retry + 1) (size + 1 - send.result.toNat) tail ↔
                RefusesAfter ws retry (size + 1) (send :: tail) :=
              refusesAfter_cons hretry fun _ => givesUpAfter_retried hretried
            rw [hsize] at hgives hleft
            rw [hzero] at hasked
            rw [leftOver, hzero]
            exact ⟨hgives.trans hasked, hleft⟩
      · next hall =>
        obtain ⟨rfl, hboth⟩ := Prod.mk.inj (Except.ok.inj h)
        obtain ⟨rfl, rfl⟩ := Prod.mk.inj hboth
        exact nothing_left (Nat.sub_eq_zero_of_le (Nat.not_lt.mp hall))

/-- One message is refused, or leaves the answers behind it. -/
theorem sendAll_refused {bytes taken : List UInt8} {sends rest : List SshSend} {status : EfiStatus}
    (h : sendAll ws bytes sends = .ok (status, taken, rest)) :
    (EfiError status ↔ Refuses ws bytes.length sends) ∧
      (¬ EfiError status → rest = leftOver bytes.length sends) := by
  have hsend : sendFrom ws bytes sends 0 0 [] = .ok (status, taken, rest) := h
  obtain ⟨hgives, hleft⟩ := sendFrom_refused (Nat.zero_le sendRetryLimit) hsend
  refine ⟨hgives.trans ?_, hleft⟩
  unfold RefusesAfter Refuses
  simp only [Nat.sub_zero, givesUpAfter_zero]

/-- A queue is sent in messages of 128 bytes and a last one with the rest. -/
theorem replySizes_eq {queued : Nat} (h : queued ≠ 0) :
    replySizes queued = min 128 queued :: replySizes (queued - 128) := by
  unfold replySizes
  by_cases hmore : 128 ≤ queued
  · have hdiv : queued / 128 = (queued - 128) / 128 + 1 := by omega
    have hmod : queued % 128 = (queued - 128) % 128 := by omega
    rw [hdiv, hmod, Nat.min_eq_left hmore, List.replicate_succ, List.cons_append]
  · have hdiv : queued / 128 = 0 ∧ (queued - 128) / 128 = 0 := by omega
    have hmod : queued % 128 = queued ∧ (queued - 128) % 128 = 0 := by omega
    rw [hdiv.1, hdiv.2, hmod.1, hmod.2, if_neg h, if_pos rfl, Nat.min_eq_right (by omega)]
    rfl

/-- **The replies** fail exactly if wolfSSH refuses one of them; without replies the status
stays. -/
theorem replyFrom_refused {rounds : Nat} {s s' : Session} (h : replyFrom ws rounds s = .ok s') :
    (EfiError s'.status ↔
        RefusesSome ws (replySizes s.terminal.replyLength) s.script.sends ∨
          s.terminal.replyLength = 0 ∧ EfiError s.status) ∧
      (Decided s.status → Decided s'.status) := by
  induction rounds generalizing s with
  | zero => cases h
  | succ rounds ih =>
      obtain ⟨⟨reply, t⟩, htake, h⟩ := bind_ok.mp h
      obtain ⟨hlength, hleft⟩ := takeResponse_length (onTerminal_ok htake)
      simp only at h
      split at h
      · next hsome =>
          have hqueued : s.terminal.replyLength ≠ 0 := by
            rw [hlength] at hsome
            omega
          obtain ⟨⟨status, taken, sends⟩, hsend, h⟩ := bind_ok.mp h
          obtain ⟨hgives, hrest⟩ := sendAll_refused hsend
          have hdecided : Decided status := sendFrom_decided hsend
          rw [hlength] at hgives hrest
          rw [replySizes_eq hqueued]
          simp only [RefusesSome, hqueued, false_and, or_false]
          simp only at h
          split at h
          · next herror =>
              obtain rfl := Except.ok.inj h
              exact ⟨iff_of_true herror (.inl (hgives.mp herror)), fun _ => hdecided⟩
          · next hsuccess =>
              obtain ⟨hlater, hdecided'⟩ := ih h
              have hless : t.replyLength = s.terminal.replyLength - 128 := by omega
              refine ⟨hlater.trans ?_, fun _ => hdecided' hdecided⟩
              have hnot : ¬ Refuses ws (min 128 s.terminal.replyLength) s.script.sends :=
                fun hrefused => hsuccess (hgives.mpr hrefused)
              have hfine : ¬ EfiError status := hsuccess
              simp only [record, hless, hrest hsuccess, hnot, hfine, false_or, and_false, or_false]
      · next hnone =>
          obtain rfl := Except.ok.inj h
          have hqueued : s.terminal.replyLength = 0 := by
            rw [hlength] at hnone
            omega
          refine ⟨?_, id⟩
          rw [hqueued]
          simp [replySizes, RefusesSome]

/-! ### Rounds -/

/-- Painting leaves the replies and the script alone. -/
theorem paint_replies {s s' : Session} (ht : s.terminal.WellFormed) (h : paint s = .ok s') :
    s'.terminal.replyLength = s.terminal.replyLength ∧ s'.script = s.script ∧
      s'.status = s.status := by
  unfold paint at h
  split at h
  · obtain ⟨t, hflush, h⟩ := bind_ok.mp h
    obtain rfl := Except.ok.inj h
    obtain ⟨buffer, painting, heq, -⟩ := ht.flush_eq
    obtain rfl := Except.ok.inj ((onTerminal_ok hflush).symm.trans heq)
    exact ⟨rfl, rfl, rfl⟩
  · obtain rfl := Except.ok.inj h
    exact ⟨rfl, rfl, rfl⟩

/-- Between two rounds: nothing has ended the session, and the status is a success. -/
structure Running (s : Session) : Prop where
  wellFormed : s.terminal.WellFormed
  finished : s.finished = false
  status : s.status = efiSuccess
  quiet : ∀ e ∈ s.trace, ¬ e.Ends

/-- The events of a round that failures and ends of the stream are among. -/
structure Foreseen (ws : WolfSshErrors) (s s' : Session) (events : List Event) : Prop where
  trace : s'.trace = s.trace ++ events
  failure : HasFailure events ↔ true ∈ failures ws s
  endOfFile : .endOfFile ∈ events ↔
    ∃ read ∈ burstReads ws 32 s.script.reads, read.kind ws = .endOfFile
  status : (HasFailure events ∨ .endOfFile ∈ events) → Decided s'.status ∧
    (EfiError s'.status ↔ RefusesSome ws (replySizes (repliesAfter ws s)) s.script.sends ∨
      repliesAfter ws s = 0 ∧ (failures ws s).getLast? = some true)
  goesOn : s'.finished = false → Running s'

/-- **A round** ends as the answers to come say. -/
theorem round_foreseen {s s' : Session} (hs : Running s) (h : round ws s = .ok s') :
    ∃ events, Foreseen ws s s' events := by
  obtain ⟨used, spoken, hconverses, -⟩ := round_converses h
  have hwell := hconverses.wellFormed hs.wellFormed
  obtain ⟨u, hburst, h⟩ := bind_ok.mp h
  obtain ⟨v, hpaint, h⟩ := bind_ok.mp h
  obtain ⟨w, hreply, hkeys⟩ := bind_ok.mp h
  obtain ⟨bursts, hbursts⟩ := burst_stage hburst
  obtain ⟨replies, hreplies⟩ := replyFrom_stage hreply
  obtain ⟨keys, hkeysStage, hend⟩ := keyFrom_stage hkeys
  have hstart : Running { s with activity := false } :=
    ⟨hs.wellFormed, hs.finished, hs.status, hs.quiet⟩
  obtain ⟨ends, events, hforetold⟩ := burst_foretold hstart.wellFormed hburst
  obtain rfl : bursts = events := List.append_cancel_left (hbursts.trace.symm.trans hforetold.trace)
  have hverdicts : failures ws s = verdicts ws (burstReads ws 32 s.script.reads) ends := by
    unfold failures
    rw [hforetold.drainEnds_eq]
  have hall : Stage (fun _ => True) s s' (bursts ++ (replies ++ keys)) := by
    have hnone : Stage (fun _ => True) s { s with activity := false } [] := .none rfl rfl
    have hread := (hnone.trans (hbursts.weaken fun _ _ => trivial)).trans (paint_stage hpaint)
    have htyped : Stage (fun _ => True) w s' keys := hkeysStage.weaken fun _ _ => trivial
    have hsent := (hreplies.weaken fun _ _ => trivial).trans htyped
    simpa using hread.trans hsent
  -- replies and keys are no failures and no ends of the stream
  have hlater : ∀ e ∈ replies ++ keys, ¬ e.Failure ∧ e ≠ .endOfFile := by
    intro e he
    rcases List.mem_append.mp he with hr | hk
    · exact (hreplies.kind e hr).plain
    · exact (hkeysStage.kind e hk).plain
  have hfailure : HasFailure (bursts ++ (replies ++ keys)) ↔ HasFailure bursts := by
    rw [hasFailure_append, or_iff_left]
    intro hsome
    obtain ⟨e, he, hfails⟩ := hsome
    exact (hlater e he).1 hfails
  have hendOfFile : .endOfFile ∈ bursts ++ (replies ++ keys) ↔ .endOfFile ∈ bursts := by
    rw [List.mem_append, or_iff_left]
    exact fun he => (hlater _ he).2 rfl
  refine ⟨bursts ++ (replies ++ keys), hall.trace, ?_, ?_, fun hover => ?_, fun hgoes => ?_⟩
  · rw [hfailure, hforetold.failure, hverdicts]
  · rw [hendOfFile, hforetold.endOfFile]
  · -- the burst ends the session, so that no key is read
    have hended : u.finished = true := by
      rw [hbursts.finished]
      rw [hfailure, hendOfFile] at hover
      rcases hover with ⟨e, he, hfails⟩ | he
      · exact .inr ⟨e, he, hfails.ends⟩
      · exact .inr ⟨_, he, trivial⟩
    have hpainted : Stage Event.InBurst u v [] := paint_stage hpaint
    have hdone : w.finished = true :=
      hreplies.finished.mpr (.inl (hpainted.finished.mpr (.inl hended)))
    obtain rfl : w = s' := by
      have hsame : keyFrom ws w.script.keys w = .ok w := keyFrom_finished hdone
      exact Except.ok.inj (hsame.symm.trans hkeys)
    have hreach : u.terminal.WellFormed := by
      rw [hforetold.terminal]
      exact hs.wellFormed.feed _
    obtain ⟨hlength, hscript, hstatus⟩ := paint_replies hreach hpaint
    obtain ⟨hrefused, hdecided⟩ := replyFrom_refused hreply
    have hsends : v.script.sends = s.script.sends := by
      rw [hscript]
      exact hforetold.sends
    have hwaiting : v.terminal.replyLength = repliesAfter ws s := by
      rw [hlength, hforetold.terminal]
      rfl
    have hread : EfiError v.status ↔ (failures ws s).getLast? = some true := by
      rw [hstatus, hverdicts]
      exact hforetold.failed_iff hs.status
    rw [hsends, hwaiting, hread] at hrefused
    refine ⟨hdecided ?_, hrefused⟩
    rw [hstatus]
    exact hforetold.decided (.inl hs.status)
  · refine ⟨hwell, hgoes, hend hgoes, fun e he hends => ?_⟩
    rw [hall.trace] at he
    rcases List.mem_append.mp he with hold | hnew
    · exact hs.quiet e hold hends
    · have hfinished := hall.finished.mpr (.inr ⟨e, hnew, hends⟩)
      rw [hgoes] at hfinished
      cases hfinished

/-- A round that the session goes on after has nothing to hide. -/
theorem Foreseen.clear_of_running {s s' : Session} {events : List Event}
    (h : Foreseen ws s s' events) (hgoes : s'.finished = false) : Clear ws s := by
  have hquiet := (h.goesOn hgoes).quiet
  rw [h.trace] at hquiet
  have hnone : true ∉ failures ws s := by
    rw [← h.failure]
    intro hsome
    obtain ⟨e, he, hfails⟩ := hsome
    exact hquiet e (List.mem_append_right _ he) hfails.ends
  refine ⟨fun hfails => absurd hfails hnone, fun hend => ?_⟩
  exact absurd trivial (hquiet _ (List.mem_append_right _ (h.endOfFile.mpr hend)))

/-- After a round the status is right exactly if the answers to come hid nothing of it. -/
theorem Foreseen.reflects_iff {s s' : Session} {events : List Event} (hs : Running s)
    (h : Foreseen ws s s' events) : Reflects s'.trace s'.status ↔ Clear ws s := by
  have hfailure : HasFailure s'.trace ↔ true ∈ failures ws s := by
    rw [h.trace, hasFailure_append, ← h.failure, or_iff_right]
    intro hsome
    obtain ⟨e, he, hfails⟩ := hsome
    exact hs.quiet e he hfails.ends
  have hend : .endOfFile ∈ s'.trace ↔
      ∃ read ∈ burstReads ws 32 s.script.reads, read.kind ws = .endOfFile := by
    rw [h.trace, List.mem_append, ← h.endOfFile, or_iff_right]
    exact fun he => hs.quiet _ he trivial
  constructor
  · intro hreflects
    obtain ⟨herror, hsuccess⟩ := hreflects
    constructor
    · intro hfails
      exact (h.status (.inl (h.failure.mpr hfails))).2.mp (herror (hfailure.mpr hfails))
    · intro hended hnone hrefused
      have hfine := hsuccess (hend.mpr hended) fun hsome => hnone (hfailure.mp hsome)
      have hwrong := (h.status (.inr (h.endOfFile.mpr hended))).2.mpr (.inl hrefused)
      rw [hfine] at hwrong
      exact absurd hwrong (by decide)
  · intro hclear
    constructor
    · intro hsome
      have hfails := hfailure.mp hsome
      exact (h.status (.inl (h.failure.mpr hfails))).2.mpr (hclear.failure hfails)
    · intro hended hnone
      have hfine : true ∉ failures ws s := fun hfails => hnone (hfailure.mpr hfails)
      obtain ⟨hdecided, herror⟩ := h.status (.inr (h.endOfFile.mpr (hend.mp hended)))
      refine hdecided.resolve_right fun hwrong => ?_
      rcases herror.mp hwrong with hrefused | ⟨-, hlast⟩
      · exact hclear.endOfFile (hend.mp hended) hfine hrefused
      · exact hfine (List.mem_of_getLast? hlast)

/-! ### The session -/

/-- The rounds from here are this one and those from the next. -/
theorem Entered.cases_next {s u x : Session} (h : round ws s = .ok u) (hx : Entered ws s x) :
    x = s ∨ u.finished = false ∧ Entered ws u x := by
  induction hx with
  | first => exact .inl rfl
  | next _ hround hrunning ih =>
      rcases ih with rfl | ⟨hfirst, hlater⟩
      · obtain rfl := Except.ok.inj (hround.symm.trans h)
        exact .inr ⟨hrunning, .first⟩
      · exact .inr ⟨hfirst, hlater.next hround hrunning⟩

/-- The rounds after a first one. -/
theorem Entered.after {s u x : Session} (h : round ws s = .ok u) (hrunning : u.finished = false)
    (hx : Entered ws u x) : Entered ws s x := by
  induction hx with
  | first => exact .next .first h hrunning
  | next _ hround hrunning' ih => exact ih.next hround hrunning'

/-- **The loop** ends with the right status exactly if no round of it hides anything. -/
theorem loop_reflects_iff {rounds : Nat} {s s' : Session} (hs : Running s)
    (h : loop ws rounds s = .ok s') :
    Reflects s'.trace s'.status ↔ ∀ x, Entered ws s x → Clear ws x := by
  induction rounds generalizing s with
  | zero => cases h
  | succ rounds ih =>
      have hnot : ¬ s.finished = true := by simp [hs.finished]
      unfold loop at h
      rw [if_neg hnot] at h
      obtain ⟨u, hround, h⟩ := bind_ok.mp h
      obtain ⟨events, hforeseen⟩ := round_foreseen hs hround
      cases hfinished : u.finished with
      | false =>
          rw [ih (hforeseen.goesOn hfinished) h]
          constructor
          · intro hlater x hx
            rcases hx.cases_next hround with rfl | ⟨-, hnext⟩
            · exact hforeseen.clear_of_running hfinished
            · exact hlater x hnext
          · exact fun hall x hx => hall x (hx.after hround hfinished)
      | true =>
          cases rounds with
          | zero => cases h
          | succ rounds =>
              unfold loop at h
              rw [if_pos hfinished] at h
              obtain rfl := Except.ok.inj h
              rw [hforeseen.reflects_iff hs]
              constructor
              · intro hclear x hx
                rcases hx.cases_next hround with rfl | ⟨hgoes, -⟩
                · exact hclear
                · rw [hfinished] at hgoes
                  cases hgoes
              · exact fun hall => hall s .first

/-- **The session's result reflects why it ended exactly when** the answers to come, in each
round that is begun, hide nothing of how it ends. -/
theorem session_reflects_iff (ws : WolfSshErrors) {created : Terminal} (hcreated : Created created)
    {script : Script} {status : EfiStatus} {trace : List Event}
    (h : runInteractiveSession ws (some created) script = .ok (status, trace)) :
    Reflects trace status ↔
      ∀ s, Entered ws ⟨created, script, efiSuccess, false, false, []⟩ s → Clear ws s := by
  obtain ⟨s, hloop, h⟩ := bind_ok.mp h
  obtain ⟨t, -, h⟩ := bind_ok.mp h
  obtain ⟨rfl, rfl⟩ := Prod.mk.inj (Except.ok.inj h)
  exact loop_reflects_iff ⟨hcreated.wellFormed, rfl, rfl, by simp⟩ hloop

/-- The server sends these bytes, and then reading gives this error. -/
def brokenScript (data : List UInt8) (error : Int) (sends : List SshSend) : Script where
  reads := [⟨data.length, data, 0, fun _ => rfl⟩, ⟨-1, [], error, no_bytes⟩]
  extended := []
  sends := sends
  keys := []

/-- A character, and the end of the stream. -/
theorem session_reflects_end_of_file :
    runInteractiveSession someErrors (some (Firmware.ample 2 1 7).fresh)
        (brokenScript [0x41] (-15) []) = .ok (efiSuccess, [.received, .endOfFile]) ∧
      (Reflects [.received, .endOfFile] efiSuccess ↔
        ∀ s, Entered someErrors ⟨(Firmware.ample 2 1 7).fresh, brokenScript [0x41] (-15) [],
          efiSuccess, false, false, []⟩ s → Clear someErrors s) :=
  ⟨rfl, session_reflects_iff someErrors (created_ample 2 1 7) rfl⟩

/-- `CSI 5 n` asks for a reply, receiving fails, and the reply is sent. -/
theorem reply_hides_failure :
    ∃ (created : Terminal) (script : Script) (status : EfiStatus) (trace : List Event),
      Terminal.Created created ∧
        runInteractiveSession someErrors (some created) script = .ok (status, trace) ∧
        ¬ Reflects trace status := by
  refine ⟨(Firmware.ample 2 1 7).fresh,
    brokenScript [0x1b, 0x5b, 0x35, 0x6e] (-1) [⟨4, 0⟩], efiSuccess,
    [.received, .receiveFailed,
      .replied [0x1b, 0x5b, 0x30, 0x6e] [0x1b, 0x5b, 0x30, 0x6e] efiSuccess],
    created_ample 2 1 7, rfl, ?_⟩
  intro hboth
  obtain ⟨herror, -⟩ := hboth
  exact absurd (herror ⟨.receiveFailed, by simp, trivial⟩) (by decide)

end Session

end WolfSshUefi
