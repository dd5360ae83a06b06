import Mathlib.Logic.Relation
import WolfSshUefi.Tcp4.Client

/-!
# The receiving side

What the receive callback and the driver do to one another, as moves of a machine:
the driver completes a token it owns, and the program takes the completed token,
hands out bytes, and posts the token again.  Bytes are neither lost nor repeated in
any sequence of moves (`Good.of_moves`).
-/

namespace WolfSshUefi.Tcp4

/-! ### The machine -/

def NetEvent.returnedBytes : NetEvent → List UInt8
  | .returned bytes => bytes
  | _ => []

def NetEvent.arrivedBytes : NetEvent → List UInt8
  | .arrived bytes => bytes
  | _ => []

def NetEvent.failure? : NetEvent → Option EfiStatus
  | .failed status => some status
  | _ => none

def NetEvent.refusal? : NetEvent → Option (Place × EfiStatus)
  | .refused place status => some (place, status)
  | _ => none

def NetEvent.accepted? : NetEvent → Option Nat
  | .accepted owned => some owned
  | _ => none

/-- The number of receive tokens that were accepted. -/
def Net.posts (n : Net) : Nat := (n.trace.filterMap NetEvent.accepted?).length

/-- A token is given to the driver that owns one already, or the program writes to
what the driver owns, or to bytes that were not handed out. -/
def NetEvent.clashes : NetEvent → Bool
  | .accepted owned => owned != 0
  | .rewrote owned kept => owned != 0 || !kept.isEmpty
  | _ => false

/-- The part of the state that is about receiving. -/
structure Receipt where
  rxDone : Bool
  status : EfiStatus      -- of `RxToken`
  dataLength : Nat        -- of `RxData`
  rxBuffer : Nat → UInt8
  rxOffset : Nat
  rxLength : Nat
  rxActive : Bool
  endOfStream : Bool
  lastRxStatus : EfiStatus
  receives : Nat
  posts : Nat
  kept : List UInt8
  returned : List UInt8
  arrived : List UInt8
  failures : List EfiStatus
  refusals : List (Place × EfiStatus)
  clashes : List NetEvent

def Net.receipt (n : Net) : Receipt where
  rxDone := n.socket.rxDone
  status := n.socket.rxToken.status
  dataLength := n.socket.rxData.dataLength
  rxBuffer := n.socket.rxBuffer
  rxOffset := n.socket.rxOffset
  rxLength := n.socket.rxLength
  rxActive := n.socket.rxActive
  endOfStream := n.socket.endOfStream
  lastRxStatus := n.socket.lastRxStatus
  receives := n.receives
  posts := n.posts
  kept := n.kept
  returned := n.trace.flatMap NetEvent.returnedBytes
  arrived := n.trace.flatMap NetEvent.arrivedBytes
  failures := n.trace.filterMap NetEvent.failure?
  refusals := n.trace.filterMap NetEvent.refusal?
  clashes := n.trace.filter NetEvent.clashes

namespace Receipt

/-- The bytes that were not handed out. -/
def unread (r : Receipt) : List UInt8 :=
  (List.range (r.rxLength - r.rxOffset)).map fun i => r.rxBuffer (r.rxOffset + i)

/-- The driver completes a token with data. -/
def arrive (r : Receipt) (bytes : List UInt8) : Receipt :=
  { r with
    receives := r.receives - 1
    kept := r.kept ++ bytes
    status := efiSuccess
    dataLength := bytes.length
    rxBuffer := fun i => bytes.getD i (r.rxBuffer i)
    rxDone := true
    arrived := r.arrived ++ bytes }

/-- The driver completes a token with an error. -/
def fail (r : Receipt) (status : EfiStatus) : Receipt :=
  { r with
    receives := r.receives - 1
    status := status
    rxDone := true
    failures := r.failures ++ [status] }

/-- The program takes a completed token. -/
def finish (r : Receipt) : Receipt :=
  if r.status = efiConnectionFin then
    { r with rxActive := false, lastRxStatus := r.status, endOfStream := true }
  else if EfiError r.status then { r with rxActive := false, lastRxStatus := r.status }
  else
    { r with
      rxActive := false
      lastRxStatus := r.status
      rxOffset := 0
      rxLength := r.dataLength
      kept := [] }

/-- The program fills in the token. -/
def prepare (r : Receipt) : Receipt :=
  { r with
    rxDone := false
    status := efiNotReady
    dataLength := rxCapacity
    rxOffset := 0
    rxLength := 0 }

/-- The driver refuses it. -/
def refuse (r : Receipt) (place : Place) (status : EfiStatus) : Receipt :=
  { r with refusals := r.refusals ++ [(place, status)] }

/-- The driver accepts it. -/
def accept (r : Receipt) : Receipt :=
  { r with receives := r.receives + 1, posts := r.posts + 1, rxActive := true }

/-- The program hands out bytes. -/
def take (r : Receipt) (size : Nat) : Receipt :=
  { r with
    rxOffset := r.rxOffset + size
    returned := r.returned ++ r.unread.take size }

/-- What the driver can do. -/
inductive DriverMove (r : Receipt) : Receipt → Prop
  | arrive (packet : Packet) (owned : 0 < r.receives) : DriverMove r (r.arrive packet.bytes)
  | fail (failure : Failure) (owned : 0 < r.receives) : DriverMove r (r.fail failure.status)

/-- What the driver and the program can do. -/
inductive Move (r : Receipt) : Receipt → Prop
  | driver {r'} (move : DriverMove r r') : Move r r'
  | finish (active : r.rxActive = true) (done : r.rxDone = true) : Move r r.finish
  | take (size : Nat) (rest : r.rxOffset + size < r.rxLength) : Move r (r.take size)
  | drainRefused (status : EfiStatus) (unread : r.rxOffset < r.rxLength) (error : EfiError status)
      (unended : r.endOfStream = false) :
      Move r { ((r.take (r.rxLength - r.rxOffset)).prepare.refuse .drained status) with
        lastRxStatus := status }
  | drainAccepted (unread : r.rxOffset < r.rxLength) (unended : r.endOfStream = false) :
      Move r (r.take (r.rxLength - r.rxOffset)).prepare.accept
  | idleRefused (status : EfiStatus) (idle : r.rxActive = false) (drained : r.rxLength ≤ r.rxOffset)
      (unended : r.endOfStream = false)
      (healthy : ¬ (EfiError r.lastRxStatus ∧ r.lastRxStatus ≠ efiNotReady)) :
      Move r (r.prepare.refuse .idle status)
  | idleAccepted (idle : r.rxActive = false) (drained : r.rxLength ≤ r.rxOffset)
      (unended : r.endOfStream = false)
      (healthy : ¬ (EfiError r.lastRxStatus ∧ r.lastRxStatus ≠ efiNotReady)) :
      Move r r.prepare.accept

/-- Any number of moves. -/
abbrev Moves : Receipt → Receipt → Prop := Relation.ReflTransGen Move

/-! ### What all moves keep -/

/-- Where the token is. -/
inductive Phase (r : Receipt) : Prop
  /-- with the program -/
  | idle (inactive : r.rxActive = false) (unowned : r.receives = 0) (kept : r.kept = [])
      (ended : r.endOfStream = true → r.rxLength ≤ r.rxOffset)
  /-- with the driver -/
  | posted (active : r.rxActive = true) (owned : r.receives = 1) (kept : r.kept = [])
      (pending : r.rxDone = false) (drained : r.rxLength = 0) (unended : r.endOfStream = false)
  /-- completed -/
  | done (active : r.rxActive = true) (unowned : r.receives = 0)
      (kept : (List.range r.dataLength).map r.rxBuffer = r.kept ∧ r.status = efiSuccess ∨
        EfiError r.status ∧ r.kept = [])
      (completed : r.rxDone = true) (drained : r.rxLength = 0) (unended : r.endOfStream = false)

/-- Everything that arrived was handed out or is still there, and nobody clashed. -/
structure Good (r : Receipt) : Prop where
  phase : r.Phase
  faithful : r.returned ++ (r.unread ++ r.kept) = r.arrived
  peaceful : r.clashes = []

section

variable {r : Receipt}

/-- Behind the offset nothing is unread. -/
theorem unread_eq_nil (h : r.rxLength ≤ r.rxOffset) : r.unread = [] := by
  rw [unread, Nat.sub_eq_zero_of_le h]
  rfl

/-- The length of what is unread. -/
theorem unread_length (r : Receipt) : r.unread.length = r.rxLength - r.rxOffset := by
  rw [unread, List.length_map, List.length_range]

/-- What was taken is read. -/
theorem unread_take (r : Receipt) (size : Nat) : (r.take size).unread = r.unread.drop size := by
  have hlength : (r.take size).unread.length = (r.unread.drop size).length := by
    rw [List.length_drop, unread_length, unread_length]
    simp only [take]
    omega
  refine List.ext_getElem hlength fun i hi hi' => ?_
  simp only [unread, take, List.getElem_map, List.getElem_range, List.getElem_drop]
  congr 1
  omega

/-- A buffer that starts with these bytes. -/
theorem range_map_getD (bytes : List UInt8) (f : Nat → UInt8) :
    (List.range bytes.length).map (fun i => bytes.getD i (f i)) = bytes := by
  refine List.ext_getElem (by simp) fun i hi hi' => ?_
  simp [List.getElem?_eq_getElem hi']

/-- A socket that waits for nothing has no token with the driver. -/
theorem Phase.unowned (h : r.Phase) (hinactive : r.rxActive = false) : r.receives = 0 := by
  cases h with
  | idle inactive unowned kept ended => exact unowned
  | posted active => rw [active] at hinactive; cases hinactive
  | done active unowned => exact unowned

/-- A token that is done is not with the driver. -/
theorem Phase.of_done (h : r.Phase) (hdone : r.rxDone = true) : r.receives = 0 := by
  cases h with
  | idle inactive unowned => exact unowned
  | posted active owned kept pending => rw [pending] at hdone; cases hdone
  | done active unowned => exact unowned

/-- The token is with the program while bytes are there. -/
theorem Phase.of_unread (h : r.Phase) (hunread : r.rxOffset < r.rxLength) :
    r.rxActive = false ∧ r.receives = 0 ∧ r.kept = [] ∧ r.endOfStream = false := by
  cases h with
  | idle inactive unowned kept ended =>
      refine ⟨inactive, unowned, kept, ?_⟩
      cases hend : r.endOfStream with
      | false => rfl
      | true => exact absurd (ended hend) (Nat.not_le.mpr hunread)
  | posted active owned kept pending drained => omega
  | done active unowned kept completed drained => omega

/-- A packet arrives in a good state. -/
theorem Good.arrive (h : r.Good) (packet : Packet) (howned : 0 < r.receives) :
    (r.arrive packet.bytes).Good := by
  cases h.phase with
  | idle inactive unowned => omega
  | done active unowned => omega
  | posted active owned kept pending drained unended =>
      have hunread : r.unread = [] := unread_eq_nil (by omega)
      have hunread' : (r.arrive packet.bytes).unread = [] :=
        unread_eq_nil (by simp [Receipt.arrive, drained])
      refine ⟨.done active ?_ (.inl ⟨?_, rfl⟩) rfl drained unended, ?_, h.peaceful⟩
      · simp [Receipt.arrive, owned]
      · simpa [Receipt.arrive, kept] using range_map_getD packet.bytes r.rxBuffer
      · have hfaithful := h.faithful
        rw [hunread, kept, List.append_nil, List.append_nil] at hfaithful
        rw [hunread']
        simp [Receipt.arrive, kept, hfaithful]

/-- A reception fails in a good state. -/
theorem Good.fail (h : r.Good) (failure : Failure) (howned : 0 < r.receives) :
    (r.fail failure.status).Good := by
  cases h.phase with
  | idle inactive unowned => omega
  | done active unowned => omega
  | posted active owned kept pending drained unended =>
      refine ⟨.done active ?_ (.inr ⟨failure.error, kept⟩) rfl drained unended, ?_, h.peaceful⟩
      · simp [Receipt.fail, owned]
      · exact h.faithful

/-- A connection that is closed ends the stream. -/
theorem finish_fin (hfin : r.status = efiConnectionFin) :
    r.finish = { r with rxActive := false, lastRxStatus := r.status, endOfStream := true } :=
  if_pos hfin

/-- Another failure ends it as well. -/
theorem finish_error (hfin : r.status ≠ efiConnectionFin) (herror : EfiError r.status) :
    r.finish = { r with rxActive := false, lastRxStatus := r.status } := by
  rw [finish, if_neg hfin, if_pos herror]

/-- A packet waits to be read. -/
theorem finish_success (herror : ¬ EfiError r.status) :
    r.finish = { r with
      rxActive := false, lastRxStatus := r.status, rxOffset := 0, rxLength := r.dataLength
      kept := [] } := by
  have hfin : r.status ≠ efiConnectionFin := by
    intro hfin
    rw [hfin] at herror
    exact herror (by decide)
  rw [finish, if_neg hfin, if_neg herror]

/-- The end of a reception keeps the state good. -/
theorem Good.finish (h : r.Good) (hactive : r.rxActive = true) (hdone : r.rxDone = true) :
    r.finish.Good := by
  cases h.phase with
  | idle inactive => rw [inactive] at hactive; cases hactive
  | posted active owned kept pending => rw [pending] at hdone; cases hdone
  | done active unowned kept completed drained unended =>
      have hunread : r.unread = [] := unread_eq_nil (by omega)
      have hfaithful := h.faithful
      rw [hunread, List.nil_append] at hfaithful
      rcases kept with ⟨hkept, hsuccess⟩ | ⟨herror, hkept⟩
      · have hgood : ¬ EfiError r.status := by
          rw [hsuccess]
          decide
        rw [finish_success hgood]
        refine ⟨.idle rfl unowned rfl fun hend => ?_, ?_, h.peaceful⟩
        · exact absurd (unended.symm.trans hend) Bool.false_ne_true
        · simpa [unread, hkept] using hfaithful
      · by_cases hfin : r.status = efiConnectionFin
        · rw [finish_fin hfin]
          exact ⟨.idle rfl unowned hkept fun _ => by simp [drained], h.faithful, h.peaceful⟩
        · rw [finish_error hfin herror]
          exact ⟨.idle rfl unowned hkept fun _ => by simp [drained], h.faithful, h.peaceful⟩

theorem Good.take (h : r.Good) (size : Nat) (hunread : r.rxOffset < r.rxLength) :
    (r.take size).Good := by
  obtain ⟨inactive, unowned, kept, unended⟩ := h.phase.of_unread hunread
  refine ⟨.idle inactive unowned kept fun hend => ?_, ?_, h.peaceful⟩
  · exact absurd (unended.symm.trans hend) Bool.false_ne_true
  · rw [unread_take]
    calc
      r.returned ++ r.unread.take size ++ (r.unread.drop size ++ r.kept) =
          r.returned ++ (r.unread.take size ++ r.unread.drop size ++ r.kept) := by
        simp only [List.append_assoc]
      _ = r.returned ++ (r.unread ++ r.kept) := by rw [List.take_append_drop]
      _ = r.arrived := h.faithful

/-- A token is filled in while the program has it and no bytes are there. -/
theorem Good.prepare (h : r.Good) (hinactive : r.rxActive = false)
    (hdrained : r.rxLength ≤ r.rxOffset) : r.prepare.Good := by
  cases h.phase with
  | idle inactive unowned kept ended =>
      refine ⟨.idle inactive unowned kept fun _ => Nat.le_refl 0, ?_, h.peaceful⟩
      have hfaithful := h.faithful
      rw [unread_eq_nil hdrained] at hfaithful
      exact hfaithful
  | posted active => rw [active] at hinactive; cases hinactive
  | done active => rw [active] at hinactive; cases hinactive

theorem Good.accept (h : r.Good) (hinactive : r.rxActive = false)
    (hdrained : r.rxLength ≤ r.rxOffset) (hopen : r.endOfStream = false) :
    r.prepare.accept.Good := by
  have hprepare := h.prepare hinactive hdrained
  cases h.phase with
  | idle inactive unowned kept ended =>
      have hunowned : r.prepare.accept.receives = 1 := congrArg (· + 1) unowned
      exact ⟨.posted rfl hunowned kept rfl rfl hopen, hprepare.faithful, hprepare.peaceful⟩
  | posted active => rw [active] at hinactive; cases hinactive
  | done active => rw [active] at hinactive; cases hinactive

/-- Statuses do not matter. -/
theorem Good.refuse (h : r.Good) (refusals : List (Place × EfiStatus)) (status : EfiStatus) :
    { r with refusals := refusals, lastRxStatus := status }.Good := by
  refine ⟨?_, h.faithful, h.peaceful⟩
  cases h.phase with
  | idle inactive unowned kept ended => exact .idle inactive unowned kept ended
  | posted active owned kept pending drained unended =>
      exact .posted active owned kept pending drained unended
  | done active unowned kept completed drained unended =>
      exact .done active unowned kept completed drained unended

/-- One case for each move. -/
theorem Good.of_move {r' : Receipt} (h : r.Good) (hmove : Move r r') : r'.Good := by
  cases hmove with
  | driver move =>
      cases move with
      | arrive packet owned => exact h.arrive packet owned
      | fail failure owned => exact h.fail failure owned
  | finish active done => exact h.finish active done
  | take size rest => exact h.take size (by omega)
  | drainRefused status unread error unended =>
      have htake := h.take (r.rxLength - r.rxOffset) unread
      have hprepare := htake.prepare (h.phase.of_unread unread).1 (by simp [Receipt.take]; omega)
      exact hprepare.refuse _ status
  | drainAccepted unread unended =>
      have htake := h.take (r.rxLength - r.rxOffset) unread
      exact htake.accept (h.phase.of_unread unread).1 (by simp [Receipt.take]; omega) unended
  | idleRefused status idle drained unended healthy =>
      exact (h.prepare idle drained).refuse _ _
  | idleAccepted idle drained unended healthy => exact h.accept idle drained unended

/-- Before the first token is posted. -/
structure Fresh (r : Receipt) : Prop where
  inactive : r.rxActive = false
  unowned : r.receives = 0
  unposted : r.posts = 0
  kept : r.kept = []
  drained : r.rxLength = 0
  unended : r.endOfStream = false
  returned : r.returned = []
  arrived : r.arrived = []
  failures : r.failures = []
  refusals : ∀ refusal ∈ r.refusals, refusal.1 = .opening
  peaceful : r.clashes = []

/-- A new socket is in a good state. -/
theorem Fresh.good (h : r.Fresh) : r.Good := by
  have hdrained : r.rxLength ≤ r.rxOffset := by
    rw [h.drained]
    exact Nat.zero_le _
  refine ⟨.idle h.inactive h.unowned h.kept fun _ => hdrained, ?_, h.peaceful⟩
  rw [unread_eq_nil hdrained, h.returned, h.kept, h.arrived]
  rfl

/-- A refused token changes nothing of this. -/
theorem Fresh.refuse (h : r.Fresh) (status : EfiStatus) :
    (r.prepare.refuse .opening status).Fresh where
  inactive := h.inactive
  unowned := h.unowned
  unposted := h.unposted
  kept := h.kept
  drained := rfl
  unended := h.unended
  returned := h.returned
  arrived := h.arrived
  failures := h.failures
  refusals := by
    intro refusal hmem
    rcases List.mem_append.mp hmem with hold | hnew
    · exact h.refusals refusal hold
    · rw [List.mem_singleton.mp hnew]
  peaceful := h.peaceful

/-- **All moves keep the state good.** -/
theorem Good.of_moves {r' : Receipt} (h : r.Good) (hmoves : Moves r r') : r'.Good := by
  induction hmoves with
  | refl => exact h
  | tail _ hmove ih => exact ih.of_move hmove

end

end Receipt

end WolfSshUefi.Tcp4
