import Mathlib.Data.List.Induction
import WolfSshUefi.Library.Rounds
import WolfSshUefi.Session.Results

/-!
# Sending all bytes

`SendAll` offers wolfSSH what it has not taken yet, until it has taken all or has
failed too often in a row.  Every byte it takes is offered just up to then, so
the bytes arrive in order and once (`sendAll_delivers`).
-/

namespace WolfSshUefi

namespace Session

/-- wolfSSH as `SendAll` sees it: the answer to a call of `wolfSSH_stream_send`, by
the number of calls before it and of bytes offered.  It takes no more than that. -/
structure StreamSend where
  answer : Nat → Nat → SshSend
  result_le : ∀ call offered, (answer call offered).result ≤ offered

/-- What `SendAll` does. -/
inductive SendEvent
  | offered (data : List UInt8) (answer : SshSend)  -- `wolfSSH_stream_send`
  | worked                                          -- `wolfSSH_worker`
  | polled                                          -- `WolfSshTcp4Poll`
  | stalled                                         -- `gBS->Stall`

/-- The answers of wolfSSH so far. -/
def answers (trace : List SendEvent) : List SshSend :=
  trace.filterMap fun
    | .offered _ answer => some answer
    | _ => none

/-- The bytes that wolfSSH has taken: of what was offered the first `result`. -/
def taken (trace : List SendEvent) : List UInt8 :=
  trace.flatMap fun
    | .offered data answer => data.take answer.result.toNat
    | _ => []

/-- The variables of `SendAll` and what it has done. -/
structure Sending where
  offset : Nat
  retry : Nat
  trace : List SendEvent

/-- Nothing is sent. -/
def Sending.start : Sending := ⟨0, 0, []⟩

section Program

variable (ws : WolfSshErrors) (peer : StreamSend) (bytes : List UInt8)

/-- A round of `SendAll`; `UINTN` has 64 bits and `word32` has 32. -/
def sendRound (s : Sending) : (EfiStatus × List SendEvent) ⊕ Sending :=
  if s.offset < bytes.length then
    let data := (bytes.drop s.offset).take ((bytes.length - s.offset) % 0x100000000)
    let answer := peer.answer (answers s.trace).length data.length
    let trace := s.trace ++ [.offered data answer]
    if 0 < answer.result then
      .inr ⟨(s.offset + answer.result.toNat) % 0x10000000000000000, 0, trace⟩
    else if ¬ IsRetryableError ws answer.error ∨ s.retry + 1 > sendRetryLimit then
      .inl (efiDeviceError, trace)
    else
      .inr ⟨s.offset, s.retry + 1,
        trace ++ (if answer.error = ws.rekeying then [.worked] else []) ++ [.polled, .stalled]⟩
  else .inl (efiSuccess, s.trace)

/-- `SendAll`, with what it has done; so many rounds are allowed. -/
def sendAllRounds (rounds : Nat) : Option (EfiStatus × List SendEvent) :=
  Rounds.run (sendRound ws peer bytes) rounds .start

/-- An answer after which `SendAll` tries again. -/
def Retried (answer : SshSend) : Prop := ¬ 0 < answer.result ∧ IsRetryableError ws answer.error

/-- The last answer is an error that is not retryable, or more than
`SSH_SEND_RETRY_LIMIT` answers in a row were retryable ones. -/
def GivesUp (all : List SshSend) : Prop :=
  (∃ before answer, all = before ++ [answer] ∧ ¬ 0 < answer.result ∧
      ¬ IsRetryableError ws answer.error) ∨
    ∃ before failures, all = before ++ failures ∧ sendRetryLimit < failures.length ∧
      ∀ answer ∈ failures, Retried ws answer

end Program

/-- Every call was made so: by what was done before it, what it offers and the answer to it. -/
def EachOffer (fits : List SendEvent → List UInt8 → SshSend → Prop) (trace : List SendEvent) :
    Prop :=
  ∀ before data answer behind, trace = before ++ .offered data answer :: behind →
    fits before data answer

/-- Every call offers the bytes behind those that were taken before it. -/
def Onward (bytes : List UInt8) (trace : List SendEvent) : Prop :=
  EachOffer (fun before data _ => taken before ++ data = bytes) trace

/-- Every answer is the one that wolfSSH gives at that call. -/
def Answered (peer : StreamSend) (trace : List SendEvent) : Prop :=
  EachOffer (fun before data answer =>
    answer = peer.answer (answers before).length data.length) trace

/-- `SendAll` has delivered what it says. -/
structure Delivered (ws : WolfSshErrors) (peer : StreamSend) (bytes : List UInt8)
    (status : EfiStatus) (trace : List SendEvent) : Prop where
  answered : Answered peer trace
  inOrder : taken trace <+: bytes
  once : Onward bytes trace
  success : status = efiSuccess ↔ taken trace = bytes
  failure : status = efiSuccess ∨ status = efiDeviceError ∧ GivesUp ws (answers trace)
  calls : (answers trace).length ≤ (bytes.length + 1) * (sendRetryLimit + 1)

/-- The answers of two traces. -/
@[simp] theorem answers_append (first rest : List SendEvent) :
    answers (first ++ rest) = answers first ++ answers rest :=
  List.filterMap_append ..

/-- What was taken in two traces. -/
@[simp] theorem taken_append (first rest : List SendEvent) :
    taken (first ++ rest) = taken first ++ taken rest :=
  List.flatMap_append ..

@[simp] theorem answers_offered (data : List UInt8) (answer : SshSend) :
    answers [.offered data answer] = [answer] := rfl

@[simp] theorem taken_offered (data : List UInt8) (answer : SshSend) :
    taken [.offered data answer] = data.take answer.result.toNat :=
  List.append_nil _

/-! ### What each call offers -/

variable {ws : WolfSshErrors} {peer : StreamSend} {bytes : List UInt8}

/-- One call more, made as it should be. -/
theorem EachOffer.offer {fits : List SendEvent → List UInt8 → SshSend → Prop}
    {trace : List SendEvent} (h : EachOffer fits trace) {data : List UInt8} {answer : SshSend}
    (hfits : fits trace data answer) : EachOffer fits (trace ++ [.offered data answer]) := by
  intro before data' answer' behind hsplit
  obtain rfl | ⟨init, last, rfl⟩ := List.eq_nil_or_concat behind
  · obtain ⟨rfl, hlast⟩ := List.append_inj' hsplit rfl
    obtain ⟨rfl, rfl⟩ := SendEvent.offered.inj (List.cons.inj hlast).1
    exact hfits
  · rw [List.concat_eq_append, ← List.cons_append, ← List.append_assoc] at hsplit
    exact h before data' answer' init (List.append_inj' hsplit rfl).1

/-- Events that offer nothing. -/
theorem EachOffer.quiet {fits : List SendEvent → List UInt8 → SshSend → Prop}
    {trace : List SendEvent} (h : EachOffer fits trace) {more : List SendEvent}
    (hmore : ∀ e ∈ more, ∀ data answer, e ≠ .offered data answer) :
    EachOffer fits (trace ++ more) := by
  induction more using List.reverseRecOn with
  | nil => rwa [List.append_nil]
  | append_singleton more e ih =>
      have hold := ih fun e' he' => hmore e' (List.mem_append_left _ he')
      intro before data answer behind hsplit
      obtain rfl | ⟨init, last, rfl⟩ := List.eq_nil_or_concat behind
      · rw [← List.append_assoc] at hsplit
        have hlast := (List.append_inj' hsplit rfl).2
        exact absurd (List.cons.inj hlast).1 (hmore e (by simp) data answer)
      · rw [List.concat_eq_append, ← List.cons_append, ← List.append_assoc,
          ← List.append_assoc] at hsplit
        exact hold before data answer init (List.append_inj' hsplit rfl).1

/-- Events that offer nothing get no answer. -/
theorem answers_quiet {more : List SendEvent}
    (hmore : ∀ e ∈ more, ∀ data answer, e ≠ .offered data answer) : answers more = [] :=
  List.filterMap_eq_nil_iff.mpr fun e he => by
    cases e with
    | offered data answer => exact absurd rfl (hmore _ he data answer)
    | _ => rfl

/-- Nothing is taken of what is not offered. -/
theorem taken_quiet {more : List SendEvent}
    (hmore : ∀ e ∈ more, ∀ data answer, e ≠ .offered data answer) : taken more = [] :=
  List.flatMap_eq_nil_iff.mpr fun e he => by
    cases e with
    | offered data answer => exact absurd rfl (hmore _ he data answer)
    | _ => rfl

/-- A call that fails takes nothing. -/
theorem taken_failed (data : List UInt8) {answer : SshSend} (h : ¬ 0 < answer.result) :
    taken [.offered data answer] = [] := by
  rw [taken_offered, Int.toNat_eq_zero.mpr (Int.not_lt.mp h), List.take_zero]

/-! ### Rounds -/

/-- What `SendAll` has done so far is right. -/
structure Underway (ws : WolfSshErrors) (peer : StreamSend) (bytes : List UInt8) (s : Sending) :
    Prop where
  answered : Answered peer s.trace
  offset_le : s.offset ≤ bytes.length
  retry_le : s.retry ≤ sendRetryLimit
  taken : taken s.trace = bytes.take s.offset
  once : Onward bytes s.trace
  failing : ∃ before failures, answers s.trace = before ++ failures ∧ failures.length = s.retry ∧
    ∀ answer ∈ failures, Retried ws answer
  calls : (answers s.trace).length ≤ s.offset * (sendRetryLimit + 1) + s.retry

/-- What a round offers: all that has not been taken. -/
def offerOf (bytes : List UInt8) (s : Sending) : List UInt8 := bytes.drop s.offset

/-- The answer to it. -/
def answerTo (peer : StreamSend) (bytes : List UInt8) (s : Sending) : SshSend :=
  peer.answer (answers s.trace).length (offerOf bytes s).length

/-- **What a round does.** -/
theorem sendRound_cases (ws : WolfSshErrors) (peer : StreamSend)
    (hlength : bytes.length < 0x100000000) {s : Sending} (hs : Underway ws peer bytes s) :
    (s.offset = bytes.length ∧ sendRound ws peer bytes s = .inl (efiSuccess, s.trace)) ∨
    (s.offset < bytes.length ∧ ∃ answer, answer = answerTo peer bytes s ∧
      ((0 < answer.result ∧ answer.result.toNat ≤ bytes.length - s.offset ∧
          sendRound ws peer bytes s = .inr ⟨s.offset + answer.result.toNat, 0,
            s.trace ++ [.offered (offerOf bytes s) answer]⟩) ∨
        (¬ 0 < answer.result ∧
          (¬ IsRetryableError ws answer.error ∨ s.retry = sendRetryLimit) ∧
          sendRound ws peer bytes s =
            .inl (efiDeviceError, s.trace ++ [.offered (offerOf bytes s) answer])) ∨
        (Retried ws answer ∧ s.retry < sendRetryLimit ∧ ∃ more,
          (∀ e ∈ more, ∀ data answer, e ≠ .offered data answer) ∧
          sendRound ws peer bytes s = .inr ⟨s.offset, s.retry + 1,
            s.trace ++ [.offered (offerOf bytes s) answer] ++ more⟩))) := by
  have hoffset := hs.offset_le
  have hretry := hs.retry_le
  by_cases hmore : s.offset < bytes.length
  · right
    refine ⟨hmore, _, rfl, ?_⟩
    have hoffer : (bytes.drop s.offset).take ((bytes.length - s.offset) % 0x100000000) =
        offerOf bytes s := by
      have hexact : (bytes.length - s.offset) % 0x100000000 = bytes.length - s.offset :=
        Nat.mod_eq_of_lt (by omega)
      rw [hexact, ← List.length_drop, List.take_length]
      rfl
    have hround : sendRound ws peer bytes s =
        if 0 < (answerTo peer bytes s).result then
          .inr ⟨(s.offset + (answerTo peer bytes s).result.toNat) % 0x10000000000000000, 0,
            s.trace ++ [.offered (offerOf bytes s) (answerTo peer bytes s)]⟩
        else if ¬ IsRetryableError ws (answerTo peer bytes s).error ∨
            s.retry + 1 > sendRetryLimit then
          .inl (efiDeviceError, s.trace ++ [.offered (offerOf bytes s) (answerTo peer bytes s)])
        else
          .inr ⟨s.offset, s.retry + 1,
            s.trace ++ [.offered (offerOf bytes s) (answerTo peer bytes s)] ++
              (if (answerTo peer bytes s).error = ws.rekeying then [.worked] else []) ++
                [.polled, .stalled]⟩ := by
      unfold sendRound
      rw [if_pos hmore]
      dsimp only
      rw [hoffer]
      rfl
    have hle : (answerTo peer bytes s).result ≤ (offerOf bytes s).length := peer.result_le _ _
    have hsize : (offerOf bytes s).length = bytes.length - s.offset := List.length_drop
    rw [hround]
    by_cases hpos : 0 < (answerTo peer bytes s).result
    · left
      have hexact : (s.offset + (answerTo peer bytes s).result.toNat) % 0x10000000000000000 =
          s.offset + (answerTo peer bytes s).result.toNat := Nat.mod_eq_of_lt (by omega)
      rw [if_pos hpos, hexact]
      exact ⟨hpos, by omega, rfl⟩
    right
    rw [if_neg hpos]
    by_cases hgives : ¬ IsRetryableError ws (answerTo peer bytes s).error ∨
        s.retry + 1 > sendRetryLimit
    · left
      rw [if_pos hgives]
      exact ⟨hpos, hgives.imp_right fun hlimit => by omega, rfl⟩
    · right
      rw [if_neg hgives]
      obtain ⟨hretryable, hlimit⟩ := not_or.mp hgives
      refine ⟨⟨hpos, Decidable.not_not.mp hretryable⟩, Nat.not_lt.mp hlimit,
        (if (answerTo peer bytes s).error = ws.rekeying then [.worked] else []) ++
          [.polled, .stalled], ?_, ?_⟩
      · intro e he data answer heq
        subst heq
        split at he <;> simp at he
      · rw [List.append_assoc (s.trace ++ _)]
  · left
    have hall : s.offset = bytes.length := by omega
    exact ⟨hall, if_neg hmore⟩

/-- Taken and offered are all. -/
theorem Underway.offer {s : Sending} (hs : Underway ws peer bytes s) :
    Session.taken s.trace ++ offerOf bytes s = bytes := by
  rw [hs.taken]
  exact List.take_append_drop s.offset bytes

/-- How far `SendAll` is from its end: bytes first, then attempts. -/
def toGo (bytes : List UInt8) (s : Sending) : Nat :=
  (bytes.length - s.offset) * (sendRetryLimit + 1) + (sendRetryLimit - s.retry)

/-- Progress: some bytes more have been taken. -/
theorem Underway.advance {s : Sending} (hs : Underway ws peer bytes s) {answer : SshSend}
    (hanswer : answer = answerTo peer bytes s) (hpos : 0 < answer.result)
    (hle : answer.result.toNat ≤ bytes.length - s.offset) :
    Underway ws peer bytes ⟨s.offset + answer.result.toNat, 0,
      s.trace ++ [.offered (offerOf bytes s) answer]⟩ where
  answered := EachOffer.offer hs.answered hanswer
  offset_le := by
    have hoffset := hs.offset_le
    show s.offset + answer.result.toNat ≤ bytes.length
    omega
  retry_le := Nat.zero_le _
  taken := by
    rw [taken_append, taken_offered, hs.taken, offerOf]
    exact List.take_add.symm
  once := EachOffer.offer hs.once hs.offer
  failing := ⟨_, [], (List.append_nil _).symm, rfl, by simp⟩
  calls := by
    have hcalls := hs.calls
    have hretry := hs.retry_le
    simp only [answers_append, answers_offered, List.length_append, List.length_singleton,
      sendRetryLimit] at hcalls hretry ⊢
    omega

/-- No progress: one attempt more has failed. -/
theorem Underway.retry {s : Sending} (hs : Underway ws peer bytes s) {answer : SshSend}
    (hanswer : answer = answerTo peer bytes s) (hretried : Retried ws answer)
    (hless : s.retry < sendRetryLimit) {more : List SendEvent}
    (hmore : ∀ e ∈ more, ∀ data answer, e ≠ .offered data answer) :
    Underway ws peer bytes ⟨s.offset, s.retry + 1,
      s.trace ++ [.offered (offerOf bytes s) answer] ++ more⟩ := by
  have hanswers : answers more = [] := answers_quiet hmore
  exact {
    answered := (EachOffer.offer hs.answered hanswer).quiet hmore
    offset_le := hs.offset_le
    retry_le := hless
    taken := by
      rw [taken_append, taken_append, taken_failed _ hretried.1, taken_quiet hmore,
        List.append_nil, List.append_nil, hs.taken]
    once := (EachOffer.offer hs.once hs.offer).quiet hmore
    failing := by
      obtain ⟨before, failures, hall, hlength, hfailures⟩ := hs.failing
      refine ⟨before, failures ++ [answer], ?_, ?_, ?_⟩
      · rw [answers_append, answers_append, answers_offered, hanswers, hall, List.append_nil,
          List.append_assoc]
      · rw [List.length_append, List.length_singleton, hlength]
      · intro answer' hanswer'
        obtain hmem | hlast := List.mem_append.mp hanswer'
        · exact hfailures answer' hmem
        · obtain rfl := List.mem_singleton.mp hlast
          exact hretried
    calls := by
      have hcalls := hs.calls
      simp only [answers_append, answers_offered, hanswers, List.length_append,
        List.length_singleton, List.length_nil]
      omega }

/-- The round that gives up. -/
theorem Underway.give_up {s : Sending} (hs : Underway ws peer bytes s) {answer : SshSend}
    (hanswer : answer = answerTo peer bytes s) (hmore : s.offset < bytes.length)
    (hpos : ¬ 0 < answer.result)
    (hgives : ¬ IsRetryableError ws answer.error ∨ s.retry = sendRetryLimit) :
    Delivered ws peer bytes efiDeviceError (s.trace ++ [.offered (offerOf bytes s) answer]) := by
  have htaken : Session.taken (s.trace ++ [.offered (offerOf bytes s) answer]) =
      bytes.take s.offset := by
    rw [taken_append, taken_failed _ hpos, List.append_nil, hs.taken]
  refine ⟨EachOffer.offer hs.answered hanswer, htaken ▸ List.take_prefix _ _,
    EachOffer.offer hs.once hs.offer, ?_, .inr ⟨rfl, ?_⟩, ?_⟩
  · refine iff_of_false (by decide) fun hall => ?_
    have hlength := congrArg List.length (htaken.symm.trans hall)
    rw [List.length_take] at hlength
    omega
  · rw [answers_append, answers_offered]
    by_cases hretryable : IsRetryableError ws answer.error
    · right
      obtain ⟨before, failures, hall, hlength, hfailures⟩ := hs.failing
      have hlimit := hgives.resolve_left (not_not.mpr hretryable)
      refine ⟨before, failures ++ [answer], ?_, ?_, ?_⟩
      · rw [hall, List.append_assoc]
      · rw [List.length_append, List.length_singleton, hlength, hlimit]
        exact Nat.lt_succ_self _
      · intro answer' hanswer'
        obtain hmem | hlast := List.mem_append.mp hanswer'
        · exact hfailures answer' hmem
        · obtain rfl := List.mem_singleton.mp hlast
          exact ⟨hpos, hretryable⟩
    · exact .inl ⟨_, answer, rfl, hpos, hretryable⟩
  · have hcalls := hs.calls
    have hretry := hs.retry_le
    simp only [answers_append, answers_offered, List.length_append, List.length_singleton,
      sendRetryLimit] at hcalls hretry ⊢
    omega

/-- The round that finds all bytes taken. -/
theorem Underway.finish {s : Sending} (hs : Underway ws peer bytes s)
    (hall : s.offset = bytes.length) : Delivered ws peer bytes efiSuccess s.trace := by
  have htaken : Session.taken s.trace = bytes := by
    rw [hs.taken, hall, List.take_length]
  refine ⟨hs.answered, htaken ▸ List.prefix_refl _, hs.once, iff_of_true rfl htaken, .inl rfl, ?_⟩
  · have hcalls := hs.calls
    have hretry := hs.retry_le
    simp only [hall, sendRetryLimit] at hcalls hretry ⊢
    omega

/-! ### The loop -/

/-- Nothing has been done. -/
theorem underway_start (ws : WolfSshErrors) (peer : StreamSend) (bytes : List UInt8) :
    Underway ws peer bytes .start where
  answered := by
    intro before data answer behind hsplit
    simp [Sending.start] at hsplit
  offset_le := Nat.zero_le _
  retry_le := Nat.zero_le _
  taken := rfl
  once := by
    intro before data answer behind hsplit
    simp [Sending.start] at hsplit
  failing := ⟨[], [], rfl, rfl, by simp⟩
  calls := Nat.zero_le _

/-- **`SendAll` ends and delivers**: by the answers of wolfSSH to its calls, the bytes that
wolfSSH has taken are the first ones in order, each was offered just until it was taken, and
the calls are bounded. -/
theorem sendAll_delivers (ws : WolfSshErrors) (peer : StreamSend) {bytes : List UInt8}
    (hlength : bytes.length < 0x100000000) {rounds : Nat}
    (hrounds : (bytes.length + 1) * (sendRetryLimit + 1) ≤ rounds) :
    ∃ status trace, sendAllRounds ws peer bytes rounds = some (status, trace) ∧
      Delivered ws peer bytes status trace := by
  have hend (s : Sending) (r : EfiStatus × List SendEvent) (hs : Underway ws peer bytes s)
      (hround : sendRound ws peer bytes s = .inl r) : Delivered ws peer bytes r.1 r.2 := by
    rcases sendRound_cases ws peer hlength hs with ⟨hall, heq⟩ | ⟨hmore, answer, hanswer,
      ⟨-, -, heq⟩ | ⟨hpos, hgives, heq⟩ | ⟨-, -, more, -, heq⟩⟩
    · obtain rfl := Sum.inl.inj (heq.symm.trans hround)
      exact hs.finish hall
    · cases heq.symm.trans hround
    · obtain rfl := Sum.inl.inj (heq.symm.trans hround)
      exact hs.give_up hanswer hmore hpos hgives
    · cases heq.symm.trans hround
  have hnext (s s' : Sending) (hs : Underway ws peer bytes s)
      (hround : sendRound ws peer bytes s = .inr s') :
      Underway ws peer bytes s' ∧ toGo bytes s' < toGo bytes s := by
    rcases sendRound_cases ws peer hlength hs with
      ⟨hall, heq⟩ | ⟨hmore, answer, hanswer, ⟨hpos, hle, heq⟩ | ⟨-, -, heq⟩ |
        ⟨hretried, hless, more, hquiet, heq⟩⟩
    · cases heq.symm.trans hround
    · obtain rfl := Sum.inr.inj (heq.symm.trans hround)
      refine ⟨hs.advance hanswer hpos hle, ?_⟩
      simp only [toGo, sendRetryLimit]
      omega
    · cases heq.symm.trans hround
    · obtain rfl := Sum.inr.inj (heq.symm.trans hround)
      refine ⟨hs.retry hanswer hretried hless hquiet, ?_⟩
      simp only [toGo]
      omega
  have hstart : toGo bytes .start < rounds := by
    simp only [toGo, Sending.start, sendRetryLimit] at hrounds ⊢
    omega
  obtain ⟨⟨status, trace⟩, hrun, hdelivered⟩ :=
    Rounds.run_ends hend hnext (underway_start ws peer bytes) hstart
  exact ⟨status, trace, hrun, hdelivered⟩

/-- A peer that is busy every other time and takes a byte the times between. -/
def slowPeer (ws : WolfSshErrors) : StreamSend where
  answer call offered :=
    if call % 2 = 0 then ⟨-1, ws.wantWrite⟩ else ⟨if offered = 0 then 0 else 1, 0⟩
  result_le := by
    intro call offered
    split
    · show (-1 : Int) ≤ offered
      omega
    · show (if offered = 0 then (0 : Int) else 1) ≤ offered
      split <;> omega

/-- Two bytes to the peer that is busy every other time. -/
theorem sendAll_delivers_slowly :
    ∃ status trace, sendAllRounds someErrors (slowPeer someErrors) [0x61, 0x62] 6003 =
        some (status, trace) ∧
      Delivered someErrors (slowPeer someErrors) [0x61, 0x62] status trace :=
  sendAll_delivers someErrors (slowPeer someErrors) (by decide) (by decide)

/-! ### In a session -/

/-- The rounds of `SendAll` from the middle, over the answers that the peer gives. -/
theorem sendFrom_of_rounds (hlength : bytes.length < 0x100000000) {rounds : Nat} {s : Sending}
    {status : EfiStatus} {trace : List SendEvent} (hs : Underway ws peer bytes s)
    (h : Rounds.run (sendRound ws peer bytes) rounds s = some (status, trace)) :
    ∃ more, trace = s.trace ++ more ∧ ∀ later,
      sendFrom ws bytes (answers more ++ later) s.offset s.retry (Session.taken s.trace) =
        .ok (status, Session.taken trace, later) := by
  induction rounds generalizing s with
  | zero => cases h
  | succ left ih =>
      rcases sendRound_cases ws peer hlength hs with
        ⟨hall, heq⟩ | ⟨hmore, answer, hanswer, ⟨hpos, hle, heq⟩ | ⟨hpos, hgives, heq⟩ |
          ⟨hretried, hless, quiet, hquiet, heq⟩⟩
      · rw [Rounds.run_inl heq] at h
        obtain ⟨rfl, rfl⟩ := Prod.mk.inj (Option.some.inj h)
        refine ⟨[], (List.append_nil _).symm, fun later => ?_⟩
        have hdone : ¬ s.offset < bytes.length := by omega
        cases later with
        | nil => exact if_neg hdone
        | cons send rest => exact if_neg hdone
      · rw [Rounds.run_inr heq] at h
        obtain ⟨more, rfl, hrest⟩ := ih (hs.advance hanswer hpos hle) h
        refine ⟨.offered (offerOf bytes s) answer :: more, List.append_assoc _ [_] _,
          fun later => ?_⟩
        have hsent := hrest later
        rw [taken_append s.trace, taken_offered] at hsent
        exact (if_pos hmore).trans ((if_pos hpos).trans hsent)
      · rw [Rounds.run_inl heq] at h
        obtain ⟨rfl, rfl⟩ := Prod.mk.inj (Option.some.inj h)
        refine ⟨_, rfl, fun later => ?_⟩
        have hends : ¬ IsRetryableError ws answer.error ∨ s.retry + 1 > sendRetryLimit :=
          hgives.imp_right fun hlimit => by omega
        have hnone : Session.taken (s.trace ++ [.offered (offerOf bytes s) answer]) =
            Session.taken s.trace := by
          rw [taken_append, taken_failed _ hpos, List.append_nil]
        rw [hnone]
        exact (if_pos hmore).trans ((if_neg hpos).trans (if_pos hends))
      · rw [Rounds.run_inr heq] at h
        obtain ⟨more, rfl, hrest⟩ := ih (hs.retry hanswer hretried hless hquiet) h
        have hnone : answers quiet = [] := answers_quiet hquiet
        refine ⟨.offered (offerOf bytes s) answer :: (quiet ++ more), ?_, fun later => ?_⟩
        · show s.trace ++ [.offered (offerOf bytes s) answer] ++ quiet ++ more = _
          rw [List.append_assoc, List.append_assoc, List.singleton_append]
        · have hgoes : ¬ (¬ IsRetryableError ws answer.error ∨ s.retry + 1 > sendRetryLimit) := by
            intro hends
            rcases hends with hnot | hlimit
            · exact hnot hretried.2
            · omega
          have hanswers : answers (.offered (offerOf bytes s) answer :: (quiet ++ more)) ++ later =
              answer :: (answers more ++ later) := by
            rw [← List.singleton_append, answers_append, answers_append, hnone]
            rfl
          have hsent := hrest later
          have hkept : Session.taken (s.trace ++ [.offered (offerOf bytes s) answer] ++ quiet) =
              Session.taken s.trace := by
            rw [taken_append, taken_append, taken_failed _ hretried.1, taken_quiet hquiet,
              List.append_nil, List.append_nil]
          rw [hkept] at hsent
          rw [hanswers]
          exact (if_pos hmore).trans ((if_neg hretried.1).trans ((if_neg hgoes).trans hsent))

/-- **A session sends just so**: it uses up the answers that `SendAll` gets, has its status,
and wolfSSH takes the same bytes. -/
theorem sendAll_session (hlength : bytes.length < 0x100000000) {rounds : Nat} {status : EfiStatus}
    {trace : List SendEvent} (h : sendAllRounds ws peer bytes rounds = some (status, trace))
    (later : List SshSend) :
    sendAll ws bytes (answers trace ++ later) = .ok (status, taken trace, later) := by
  obtain ⟨more, rfl, hsend⟩ := sendFrom_of_rounds hlength (underway_start ws peer bytes) h
  exact hsend later

end Session

end WolfSshUefi
