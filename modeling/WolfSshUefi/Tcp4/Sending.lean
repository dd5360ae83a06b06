import WolfSshUefi.Library.Traces
import WolfSshUefi.Tcp4.Balance

/-!
# The transmit token

A send that starts while the driver owns no transmit token posts the only one, and the
flag that it waits for is set by the completion of that token (`sendCallback_sent`).
A send that gives up after its wait and the wait for the cancellation leaves the token
with the driver, and nothing keeps the next send from writing to it.
-/

namespace WolfSshUefi.Tcp4

open Async Traces

/-! ### The sending side -/

/-- An event of the sending side. -/
def NetEvent.outgoing : NetEvent → Bool
  | .rewroteTransmit _ | .posted _ _ | .transmitted _ _ | .sent _ => true
  | _ => false

/-- The part of the state that is about sending. -/
structure Outgoing where
  protocol : Option Resource
  transmits : List Nat
  closes : Nat
  events : List NetEvent

def Net.outgoing (n : Net) : Outgoing where
  protocol := n.socket.protocol
  transmits := n.transmits
  closes := n.closes
  events := n.trace.filter NetEvent.outgoing

/-- What is recorded about other things does not show. -/
theorem outgoing_record (n : Net) {e : NetEvent} (h : e.outgoing = false) :
    (n.record e).outgoing = n.outgoing := by
  simp [Net.outgoing, Net.record, h]

/-- An event of the sending side is recorded. -/
theorem filter_outgoing (trace : List NetEvent) {e : NetEvent} (h : e.outgoing = true) :
    (trace ++ [e]).filter NetEvent.outgoing = trace.filter NetEvent.outgoing ++ [e] := by
  simp [h]

/-- What may happen to the transmit token once `past` has happened: it is written to
and posted while the driver owns no other, and a send succeeds when its own token has
completed with success. -/
def TransmitLaw (past : List NetEvent) : NetEvent → Prop
  | .rewroteTransmit owned => owned = []
  | .posted _ owned => owned = []
  | .sent call => ∃ status, ¬ EfiError status ∧ .transmitted call status ∈ past
  | _ => True

section

variable {P : Outgoing → Prop}

variable (hP : Stable fun n => P n.outgoing)

include hP

end

/-! ### One send -/

/-- Between two calls of the program. -/
structure Outgoing.Orderly (o : Outgoing) : Prop where
  unclosed : o.closes = 0
  lawful : Traces.Lawful TransmitLaw o.events

/-- The program does something lawful. -/
theorem Outgoing.Orderly.after {n n' : Net} {e : NetEvent} (h : n.outgoing.Orderly)
    (hout : e.outgoing = true) (hlaw : TransmitLaw n.outgoing.events e)
    (hcloses : n'.closes = n.closes) (htrace : n'.trace = n.trace ++ [e]) :
    n'.outgoing.Orderly := by
  refine ⟨hcloses.trans h.unclosed, ?_⟩
  have hevents : n'.outgoing.events = n.outgoing.events ++ [e] := by
    simp only [Net.outgoing, htrace, filter_outgoing n.trace hout]
  rw [hevents]
  exact lawful_snoc.mpr ⟨h.lawful, hlaw⟩

/-- The driver owns no transmit token. -/
def Free (n : Net) : Prop := n.outgoing.Orderly ∧ n.transmits = []

/-- Nothing that could set the flag is under way. -/
def Cleared (n : Net) : Prop := Free n ∧ n.socket.txDone = false

/-- While nothing is posted the transmit token may be rewritten. -/
theorem Free.rewrite {n : Net} (h : Free n) (s : Socket) :
    Free { n.record (.rewroteTransmit n.transmits) with socket := s } :=
  ⟨h.1.after (e := .rewroteTransmit n.transmits) rfl h.2 rfl rfl, h.2⟩

/-- Between two calls, with what the last send came to: only one that timed out can
have left its token with the driver. -/
def Sent (result : SendResult) (n : Net) : Prop :=
  n.outgoing.Orderly ∧ (result ≠ .timeout → n.transmits = [])

/-- A driver without a transmit token is left as a send leaves it, whatever it came to. -/
theorem Free.sent {n : Net} (h : Free n) (result : SendResult) : Sent result n :=
  ⟨h.1, fun _ => h.2⟩

/-- Nothing unlawful was sent; a close may be under way. -/
def Calm (n : Net) : Prop := Traces.Lawful TransmitLaw n.outgoing.events

/-- Other events leave it calm. -/
theorem Calm.record {n : Net} (h : Calm n) {e : NetEvent} (he : e.outgoing = false) :
    Calm (n.record e) := by
  unfold Calm
  rw [outgoing_record n he]
  exact h

/-- What `OpenOnController` does to the sending side. -/
def Connecting (status : EfiStatus) (n : Net) : Prop := if EfiError status then Calm n else Free n

/-- A driver without a transmit token is left as `OpenOnController` leaves it. -/
theorem Free.connecting {n : Net} (h : Free n) (status : EfiStatus) : Connecting status n := by
  unfold Connecting
  split
  · exact h.1.lawful
  · exact h

/-- Other events post nothing. -/
theorem Free.record {n : Net} (h : Free n) {e : NetEvent} (he : e.outgoing = false) :
    Free (n.record e) := by
  refine ⟨?_, h.2⟩
  rw [outgoing_record n he]
  exact h.1

/-- The calls of two lists are made one after the other. -/
theorem run_append (first rest : List NetCall) (s : Net × (Nat → Moment)) :
    (run (first ++ rest) s).2 = (run rest (run first s).2).2 := by
  induction first generalizing s with
  | nil => rfl
  | cons c first ih => exact ih (perform c (interrupt s).2).2

/-- The state in which the call after these begins. -/
def entering (before : List NetCall) (s : Net × (Nat → Moment)) : Net :=
  (interrupt (run before s).2).2.1

/-- The driver has given back the transmit token whenever a send begins. -/
def SendsFree (calls : List NetCall) (s : Net × (Nat → Moment)) : Prop :=
  ∀ before size after, calls = before ++ .send size :: after → size ≠ 0 →
    (entering before s).transmits = []

/-- The calls after the first one find the driver free, too. -/
theorem SendsFree.tail {c : NetCall} {rest : List NetCall} {s : Net × (Nat → Moment)}
    (h : SendsFree (c :: rest) s) : SendsFree rest (perform c (interrupt s).2).2 := by
  intro before size after hsplit hsize
  have hlonger : c :: rest = (c :: before) ++ .send size :: after := by
    rw [hsplit]
    rfl
  exact h (c :: before) size after hlonger hsize

/-- A moment at which calls succeed and no token completes. -/
def quiet : Moment := ⟨efiSuccess, efiSuccess, []⟩

section Quiet

variable {P : Net → Prop}

end Quiet

end WolfSshUefi.Tcp4
