import WolfSshUefi.Session.Interactive
import WolfSshUefi.Tcp4.Sending

/-!
# Sending until the end

wolfSSH sends whenever it likes, last of all in the attempt to shut the session down,
which is made also after a send that failed.  Whether the driver still owns the token of
an earlier send is not looked at: the transmit token is kept apart exactly in the runs in
which the driver has given it back before each send (`transmit_apart_iff`).
-/

namespace WolfSshUefi

open Tcp4 Async Traces

/-- The codes of wolfSSH. -/
structure WolfSshCodes extends WolfSshErrors where
  success : Int

/-- One call of wolfSSH: the calls on the socket that it makes meanwhile, its result,
and what `wolfSSH_get_error` gives then. -/
structure SshAnswer where
  calls : List NetCall
  result : Int
  error : Int

section Program

variable (codes : WolfSshCodes)

/-- The loop of `BestEffortShutdown`, over the answers of `wolfSSH_shutdown`. -/
def shutdownFrom : Nat → (Nat → SshAnswer) → NetM Unit
  | 0, _ => pure ()
  | retries + 1, answers => do
      let _ ← run (answers 0).calls
      if (answers 0).result = codes.success then pure ()
      else if ¬ Session.IsRetryableError codes.toWolfSshErrors (answers 0).error then pure ()
      else do
        let _ ← run [.poll, .pass]                -- WolfSshTcp4Poll, Stall
        shutdownFrom retries fun n => answers (n + 1)

/-- `BestEffortShutdown` -/
def bestEffortShutdown (answers : Nat → SshAnswer) : NetM Unit := shutdownFrom codes 200 answers

/-- The calls on the socket that the loop comes to. -/
def shutdownCallsFrom : Nat → (Nat → SshAnswer) → List NetCall
  | 0, _ => []
  | retries + 1, answers =>
      (answers 0).calls ++
        if (answers 0).result = codes.success then []
        else if ¬ Session.IsRetryableError codes.toWolfSshErrors (answers 0).error then []
        else [.poll, .pass] ++ shutdownCallsFrom retries fun n => answers (n + 1)

end Program

/-! ### A shutdown is a run -/

/-- The loop makes its calls on the socket, and nothing else. -/
theorem shutdownFrom_eq (codes : WolfSshCodes) (retries : Nat) (answers : Nat → SshAnswer)
    (s : Net × (Nat → Moment)) : (shutdownFrom codes retries answers s).2 =
      (run (shutdownCallsFrom codes retries answers) s).2 := by
  induction retries generalizing answers s with
  | zero => rfl
  | succ retries ih =>
      rw [shutdownCallsFrom, run_append]
      generalize hmade : (run (answers 0).calls s).2 = made
      have hloop : (shutdownFrom codes (retries + 1) answers s).2 =
          ((if (answers 0).result = codes.success then pure ()
            else if ¬ Session.IsRetryableError codes.toWolfSshErrors (answers 0).error then pure ()
            else do
              let _ ← run [.poll, .pass]
              shutdownFrom codes retries fun n => answers (n + 1)) made).2 := by
        rw [← hmade]
        rfl
      rw [hloop]
      split
      · rfl
      split
      · rfl
      · rw [run_append]
        exact ih _ _

end WolfSshUefi
