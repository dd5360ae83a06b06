import Mathlib.Data.List.Basic

/-!
# Monitors

A monitor reads the events of a program one by one and refuses those that come at the wrong
time.  That it accepts all events says what the program never does, and what it ends with says
where the program stands.
-/

namespace Monitor

variable {σ ε : Type} {step : σ → ε → Option σ}

/-- The monitor accepts the events, and goes from `s` to `s'`. -/
def Accepts (step : σ → ε → Option σ) (s : σ) (events : List ε) (s' : σ) : Prop :=
  events.foldlM step s = some s'

variable {s s' s'' : σ} {e : ε} {events rest : List ε}

namespace Accepts

theorem nil (s : σ) : Accepts step s [] s := rfl

theorem one (h : step s e = some s') : Accepts step s [e] s' := by
  unfold Accepts
  rw [List.foldlM_cons, h]
  rfl

theorem append (h : Accepts step s events s') (h' : Accepts step s' rest s'') :
    Accepts step s (events ++ rest) s'' := by
  unfold Accepts at *
  rw [List.foldlM_append, h]
  exact h'

/-- Where the monitor stands between two parts of what it accepts. -/
theorem split (h : Accepts step s (events ++ rest) s'') :
    ∃ s', Accepts step s events s' ∧ Accepts step s' rest s'' := by
  unfold Accepts at h
  rw [List.foldlM_append] at h
  exact Option.bind_eq_some_iff.mp h

/-- The first event of what it accepts. -/
theorem first (h : Accepts step s (e :: rest) s'') :
    ∃ s', step s e = some s' ∧ Accepts step s' rest s'' := by
  unfold Accepts at h
  rw [List.foldlM_cons] at h
  exact Option.bind_eq_some_iff.mp h

end Accepts

end Monitor
