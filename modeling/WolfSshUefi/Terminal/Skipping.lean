import Mathlib.Data.List.Induction
import WolfSshUefi.Terminal.Covering
import WolfSshUefi.Terminal.Escapes

/-!
# Operating system commands

`ESC ]` starts a command that the terminal skips, and BEL or `ESC \` ends it.  An
ESC in the command may start `ESC \`, so the parser waits for the byte after it;
when that byte is BEL the parser goes on skipping.  So a command is skipped up to
its end exactly when it does not end with ESC and then BEL (`skipped_iff`).
-/

namespace WolfSshUefi

/-- Neither BEL nor `ESC \` is among the bytes. -/
def Unended (payload : List UInt8) : Prop :=
  0x07 ∉ payload ∧ ¬ [0x1b, 0x5c] <:+: payload

/-- What ends a command. -/
inductive CommandEnd
  | bell       -- BEL
  | escape     -- ESC \
  deriving DecidableEq

def CommandEnd.bytes : CommandEnd → List UInt8
  | .bell => [0x07]
  | .escape => [0x1b, 0x5c]

/-- `ESC ]`, the payload and the end. -/
def systemCommand (payload : List UInt8) (last : CommandEnd) : List UInt8 :=
  [0x1b, 0x5d] ++ payload ++ last.bytes

/-- Fed in any pieces, the bytes change nothing but the parser, which is idle after them. -/
def Terminal.Skips (t : Terminal) (data : List UInt8) : Prop :=
  ∀ chunks : List (List UInt8), chunks.flatten = data →
    ∃ p : Parser, p.Idle ∧ t.run (chunks.map .feed) = .ok (t.withParser p)

/-! ### The parser skips -/

theorem Unended.of_append {payload : List UInt8} {byte : UInt8} (h : Unended (payload ++ [byte])) :
    Unended payload := by
  obtain ⟨hbell, hescape⟩ := h
  refine ⟨fun hmem => hbell (List.mem_append_left _ hmem), fun hinfix => hescape ?_⟩
  exact hinfix.trans (List.prefix_append payload [byte]).isInfix

/-- After an ESC in the payload there is no backslash. -/
theorem Unended.last_ne {payload : List UInt8} {byte : UInt8} (h : Unended (payload ++ [byte]))
    (hlast : payload.getLast? = some 0x1b) : byte ≠ 0x5c := by
  intro heq
  obtain ⟨init, rfl⟩ := List.getLast?_eq_some_iff.mp hlast
  refine h.2 ⟨init, [], ?_⟩
  rw [heq, List.append_assoc, List.append_nil, List.append_assoc]
  rfl

namespace Parser

/-- The parser in a command, of which it has read the payload so far. -/
structure Skipping (p : Parser) (payload : List UInt8) : Prop where
  state : p.state = if payload.getLast? = some 0x1b then .oscEscape else .osc
  remaining : p.utf8Remaining = 0

/-- A byte of the payload is skipped. -/
theorem Skipping.next {p : Parser} {payload : List UInt8} {byte : UInt8} (h : p.Skipping payload)
    (hunended : Unended (payload ++ [byte])) :
    (p.next byte).2 = [] ∧ (p.next byte).1.Skipping (payload ++ [byte]) := by
  have hbell : byte ≠ 0x07 := fun heq => hunended.1 (by simp [heq])
  have hlast : (payload ++ [byte]).getLast? = some byte := by simp
  have hstate := h.state
  by_cases hescape : byte = 0x1b
  · subst hescape
    by_cases hpending : payload.getLast? = some 0x1b
    · rw [if_pos hpending] at hstate
      have hnext : p.next 0x1b = (p, []) := by simp [Parser.next, hstate]
      rw [hnext]
      exact ⟨rfl, by rw [hlast, if_pos rfl, hstate], h.remaining⟩
    · rw [if_neg hpending] at hstate
      have hnext : p.next 0x1b = ({ p with state := .oscEscape }, []) := by
        simp [Parser.next, hstate]
      rw [hnext]
      exact ⟨rfl, by rw [hlast, if_pos rfl], h.remaining⟩
  · have hend : (payload ++ [byte]).getLast? ≠ some 0x1b := by
      rw [hlast]
      exact fun heq => hescape (Option.some.inj heq)
    have hnext : p.next byte = ({ p with state := .osc }, []) := by
      by_cases hpending : payload.getLast? = some 0x1b
      · rw [if_pos hpending] at hstate
        have hslash := hunended.last_ne hpending
        simp [Parser.next, hescape, hstate, hslash]
      · rw [if_neg hpending] at hstate
        simp [Parser.next, hescape, hstate, hbell]
    rw [hnext]
    exact ⟨rfl, by rw [if_neg hend], h.remaining⟩

/-- The payload is skipped. -/
theorem skipping_payload {p : Parser} (h : p.Skipping []) {payload : List UInt8}
    (hunended : Unended payload) :
    p.commands payload = [] ∧ (p.after payload).Skipping payload := by
  induction payload using List.reverseRecOn with
  | nil => exact ⟨rfl, h⟩
  | append_singleton payload byte ih =>
      obtain ⟨hsilent, hskipping⟩ := ih hunended.of_append
      obtain ⟨hbyte, hnext⟩ := hskipping.next hunended
      refine ⟨?_, ?_⟩
      · rw [commands_append, hsilent, commands_cons, hbyte]
        rfl
      · rw [after_append]
        exact hnext

/-- BEL ends the command unless it comes right after an ESC. -/
theorem Skipping.bell {p : Parser} {payload : List UInt8} (h : p.Skipping payload) :
    p.commands [0x07] = [] ∧ (p.after [0x07]).utf8Remaining = 0 ∧
      (p.after [0x07]).state = if payload.getLast? = some 0x1b then .osc else .ground := by
  have hstate := h.state
  have hremaining := h.remaining
  by_cases hpending : payload.getLast? = some 0x1b
  · rw [if_pos hpending] at hstate ⊢
    simp [Parser.next, hstate, hremaining]
  · rw [if_neg hpending] at hstate ⊢
    simp [Parser.next, hstate, hremaining]

/-- `ESC \` ends the command. -/
theorem Skipping.escape {p : Parser} {payload : List UInt8} (h : p.Skipping payload) :
    p.commands [0x1b, 0x5c] = [] ∧ (p.after [0x1b, 0x5c]).Idle := by
  have hstate := h.state
  have hremaining := h.remaining
  by_cases hpending : payload.getLast? = some 0x1b
  · rw [if_pos hpending] at hstate
    simp [Parser.next, hstate, hremaining, Idle]
  · rw [if_neg hpending] at hstate
    simp [Parser.next, hstate, hremaining, Idle]

/-- `ESC ]` -/
theorem skipping_start {p : Parser} (hlisten : p.Listening) :
    p.commands [0x1b, 0x5d] = [] ∧ (p.after [0x1b, 0x5d]).Skipping [] := by
  simp only [commands_cons, after_cons, next_escape hlisten]
  exact ⟨rfl, rfl, rfl⟩

/-- A command does nothing, and the parser is idle after it unless BEL follows an ESC. -/
theorem systemCommand_read {p : Parser} (hlisten : p.Listening) {payload : List UInt8}
    (hunended : Unended payload) (last : CommandEnd) :
    p.commands (systemCommand payload last) = [] ∧
      ((p.after (systemCommand payload last)).Idle ↔
        ¬ (last = .bell ∧ payload.getLast? = some 0x1b)) := by
  obtain ⟨hintroducer, hstart⟩ := skipping_start hlisten
  obtain ⟨hpayload, hskipping⟩ := skipping_payload hstart hunended
  unfold systemCommand
  rw [commands_append, commands_append, after_append, after_append, hintroducer, hpayload]
  cases last with
  | bell =>
      obtain ⟨hbell, hremaining, hstate⟩ := hskipping.bell
      refine ⟨hbell, ?_⟩
      by_cases hpending : payload.getLast? = some 0x1b
      · rw [if_pos hpending] at hstate
        refine iff_of_false ?_ fun hends => hends ⟨rfl, hpending⟩
        intro hidle
        exact absurd (hstate.symm.trans hidle.1) (by decide)
      · rw [if_neg hpending] at hstate
        exact iff_of_true ⟨hstate, hremaining⟩ fun hends => hpending hends.2
  | escape =>
      obtain ⟨hescape, hidle⟩ := hskipping.escape
      exact ⟨hescape, iff_of_true hidle fun h => by cases h.1⟩

end Parser

namespace Terminal

open Screen

variable {t : Terminal}

/-- Bytes that complete nothing change nothing but the parser. -/
theorem skips_iff (ht : t.WellFormed) {data : List UInt8} (hsilent : t.parser.commands data = []) :
    t.Skips data ↔ (t.parser.after data).Idle := by
  have hrun {chunks : List (List UInt8)} (hchunks : chunks.flatten = data) :
      t.run (chunks.map .feed) = .ok (t.withParser (t.parser.after data)) := by
    rw [ht.run_feeds, hchunks, feed_eq_execAll, hsilent]
    rfl
  constructor
  · intro hskips
    have hwhole : [data].flatten = data := by simp
    obtain ⟨p, hidle, hp⟩ := hskips [data] hwhole
    have hsame := Except.ok.inj ((hrun hwhole).symm.trans hp)
    have hparser : t.parser.after data = p := congrArg Terminal.parser hsame
    rw [hparser]
    exact hidle
  · intro hidle chunks hchunks
    exact ⟨_, hidle, hrun hchunks⟩

/-- **Operating system commands.**  A command is skipped up to its end exactly when it
does not end with ESC and BEL. -/
theorem skipped_iff (h : Reachable t) (hground : t.parser.state = .ground)
    {payload : List UInt8} (hunended : Unended payload) (last : CommandEnd) :
    t.Skips (systemCommand payload last) ↔
      ¬ (last = .bell ∧ payload.getLast? = some 0x1b) := by
  obtain ⟨hsilent, hidle⟩ := Parser.systemCommand_read (.of_ground hground) hunended last
  exact (skips_iff h.wellFormed hsilent).trans hidle

/-- `ESC ] 0 ; a BEL` -/
theorem skipped_title :
    (Firmware.ample 2 2 7).fresh.Skips (systemCommand [0x30, 0x3b, 0x61] .bell) :=
  (skipped_iff (created_ample 2 2 7).reachable rfl ⟨by decide, by decide⟩ .bell).mpr (by decide)

/-- `ESC ] ESC BEL` leaves the parser in the command. -/
theorem escape_bell_swallowed :
    Reachable (Firmware.ample 2 2 7).fresh ∧
      (Firmware.ample 2 2 7).fresh.parser.state = .ground ∧ Unended [0x1b] ∧
      ¬ (Firmware.ample 2 2 7).fresh.Skips (systemCommand [0x1b] .bell) := by
  have hunended : Unended [0x1b] := ⟨by decide, by decide⟩
  refine ⟨(created_ample 2 2 7).reachable, rfl, hunended, ?_⟩
  have hlisten : (Firmware.ample 2 2 7).fresh.parser.Listening := by decide
  obtain ⟨hsilent, hidle⟩ := Parser.systemCommand_read hlisten hunended .bell
  rw [skips_iff (created_ample 2 2 7).wellFormed hsilent, hidle]
  decide

end Terminal

end WolfSshUefi
