import WolfSshUefi.Main.Releasing

/-!
# What the program says

The verdicts of `UefiMain`: the lines in which it reports a failure, and the one in which it
says that it is connected.  It gives at most one, whatever wolfSSH, the network and the user do,
and what it then returns is what it has said; a failure that it does not report is that of a
test or of a session, which report it themselves, or a lack of memory (`main_speaks`).
-/

namespace WolfSshUefi

open Tcp4 Async

/-- What a line says about the outcome. -/
inductive Verdict
  | connected
  | failed (status : EfiStatus)
  deriving DecidableEq

def MainEvent.verdict? : MainEvent → Option Verdict
  | .invalidArguments => some (.failed efiInvalidParameter)
  | .noRandom => some (.failed efiUnsupported)
  | .initFailed _ => some (.failed efiDeviceError)
  | .connectFailed status => some (.failed status)
  | .invalidUsername => some (.failed efiInvalidParameter)
  | .noChannel _ => some (.failed efiProtocolError)
  | .handshakeFailed _ => some (.failed efiProtocolError)
  | .handshakeTimedOut => some (.failed efiTimeout)
  | .connected => some .connected
  | _ => none

/-- The verdicts so far. -/
def Main.verdicts (m : Main) : List Verdict := m.events.filterMap MainEvent.verdict?

/-- What `UefiMain` has said when it returns a status. -/
inductive Speaks (codes : WolfSshCodes) (o : Outside) (options : Options) :
    EfiStatus → List Verdict → Prop
  | failed {status : EfiStatus} (h : EfiError status) :
      Speaks codes o options status [.failed status]
  | session {status : EfiStatus} {trace : List Event}
      (h : Session.runInteractiveSession codes.toWolfSshErrors o.created o.script =
        .ok (status, trace)) : Speaks codes o options status [.connected]
  | help (h : options.help = true) : Speaks codes o options efiSuccess []
  | selfTest {status : EfiStatus} (h : options.selfTest = true)
      (passes : status = efiSuccess ↔ o.console.Grants) : Speaks codes o options status []
  | memory (h : o.newContext = false ∨ o.newSession = false) :
      Speaks codes o options efiOutOfResources []

/-- The verdicts so far are these. -/
def Said (verdicts : List Verdict) (m : Main) : Prop := m.verdicts = verdicts

section Parts

variable {codes : WolfSshCodes} {sha256 : List UInt8 → Digest} {o : Outside} {options : Options}
  {verdicts : List Verdict} {e : MainEvent}

/-! ### Parts without a verdict -/

/-- A line that is a verdict. -/
theorem note_verdict {v : Verdict} (he : e.verdict? = some v) :
    Returns (Said []) (note e) fun _ => Said [v] := by
  refine .note fun m hm => ?_
  have hbefore : m.events.filterMap MainEvent.verdict? = [] := hm
  rw [Said, Main.verdicts, List.filterMap_append, List.filterMap_cons_some he, List.filterMap_nil,
    hbefore, List.nil_append]

/-- A failure is reported, and its status returned. -/
def Reported (status : EfiStatus) (m : Main) : Prop :=
  EfiError status ∧ Said [.failed status] m

/-- A failure is reported, and returned. -/
theorem report {status : EfiStatus} (he : e.verdict? = some (.failed status))
    (herror : EfiError status) :
    Returns (Said []) (note e >>= fun _ => pure status) Reported :=
  .bind (note_verdict he) fun _ => .pure fun _ hm => ⟨herror, hm⟩

/-- The verdicts speak for the status. -/
def Spoken (codes : WolfSshCodes) (o : Outside) (options : Options) (status : EfiStatus)
    (m : Main) : Prop :=
  Speaks codes o options status m.verdicts

/-- What was said speaks for the status. -/
theorem Said.spoken {status : EfiStatus} {m : Main} (h : Said verdicts m)
    (hspeaks : Speaks codes o options status verdicts) : Spoken codes o options status m := by
  have hverdicts : m.verdicts = verdicts := h
  unfold Spoken
  rwa [hverdicts]

theorem Reported.spoken {status : EfiStatus} {m : Main} (h : Reported status m) :
    Spoken codes o options status m :=
  h.2.spoken (.failed h.1)

end Parts

end WolfSshUefi
