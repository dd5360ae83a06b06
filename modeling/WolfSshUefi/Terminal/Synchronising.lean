import WolfSshUefi.Terminal.Escapes
import WolfSshUefi.Terminal.Layout
import WolfSshUefi.Terminal.Schedules

/-!
# A word that synchronises

Whatever the parser is in the middle of, `ESC \` brings it back between sequences and
completes no instruction (`Parser.WellFormed.terminated`).  So a server that does not know what the
terminal has read before, or how much of it was lost, gets back into step by sending it:
two terminals that show the same, one of which has half a sequence behind it, go on showing
the same.
-/

namespace WolfSshUefi

/-- `ESC \` -/
def stringTerminator : List UInt8 := [0x1b, 0x5c]

/-- Every state of the parser is left for the ground state. -/
theorem Parser.WellFormed.terminated {p : Parser} (h : p.WellFormed) :
    p.commands stringTerminator = [] ∧ (p.after stringTerminator).Idle := by
  have hutf8 : p.state ≠ .ground → p.utf8Remaining = 0 := h.utf8_zero
  cases hstate : p.state with
  | ground | escape | csi =>
      simp [stringTerminator, Parser.next, Parser.escape, hstate, Idle]
  | osc | oscEscape =>
      have hzero := hutf8 (by simp [hstate])
      simp [stringTerminator, Parser.next, hstate, hzero, Idle]

namespace Screen

/-- `ESC \` moves the parser and nothing else. -/
theorem feed_terminator {t : Terminal} (h : t.WellFormed) :
    feed t stringTerminator = t.withParser (t.parser.after stringTerminator) := by
  rw [feed_eq_execAll, h.parser.terminated.1]
  rfl

/-- Terminals of one scene but for their parsers, which answer alike, keep one scene. -/
theorem scene_feed_alike {t u : Terminal} (hscene : t.scene = u.scene.withParser t.parser)
    (halike : t.parser.Alike u.parser) (data : List UInt8) :
    (feed t data).scene = (feed u data).scene.withParser (feed t data).parser ∧
      (feed t data).parser.Alike (feed u data).parser := by
  have hcommands := halike.commands data
  have hafter : (t.parser.after data).Alike (u.parser.after data) :=
    (Transducer.alike_run (fun _ _ byte h => h.next byte) halike data).2
  have hsame : t.scene = (u.withParser t.parser).scene := hscene
  have hscreen : (execAll t (t.parser.commands data)).scene =
      (execAll u (t.parser.commands data)).scene.withParser t.parser := by
    have hfold := exec_respects_scene.foldl hsame (t.parser.commands data)
    have hmoved := execAll_withParser u t.parser (t.parser.commands data)
    exact hfold.trans (congrArg Terminal.scene hmoved)
  rw [parser_feed, parser_feed]
  refine ⟨?_, hafter⟩
  rw [feed_eq_execAll, feed_eq_execAll, ← hcommands]
  exact congrArg (fun v : Terminal => v.withParser (t.parser.after data)) hscreen

end Screen

namespace Terminal

/-- **`ESC \` synchronises.**  Two terminals in which everything is the same but what their
parsers have read show the same after `ESC \` and any bytes, and their parsers go on alike:
what was half read is forgotten, and nothing of it is carried out. -/
theorem terminator_synchronises {t u : Terminal} (ht : Reachable t) (hu : Reachable u)
    (hscene : t.scene = u.scene.withParser t.parser) (data : List UInt8) :
    ∃ t₀ t' u', t.feed stringTerminator = .ok t₀ ∧ t₀ = t.withParser t₀.parser ∧
      t₀.parser.Idle ∧ t.feed (stringTerminator ++ data) = .ok t' ∧
      u.feed (stringTerminator ++ data) = .ok u' ∧
      t'.scene = u'.scene.withParser t'.parser ∧ t'.parser.Alike u'.parser := by
  obtain ⟨-, hidle⟩ := ht.wellFormed.parser.terminated
  obtain ⟨-, hidle'⟩ := hu.wellFormed.parser.terminated
  have halike := Parser.Alike.of_ground hidle.1 hidle'.1 hidle.2 hidle'.2
  refine ⟨_, _, _, ht.wellFormed.feed_eq _, ?_, ?_, ht.wellFormed.feed_eq _,
    hu.wellFormed.feed_eq _, ?_⟩
  · rw [Screen.feed_terminator ht.wellFormed]
    rfl
  · rw [Screen.parser_feed]
    exact hidle
  rw [Screen.feed_append, Screen.feed_append, Screen.feed_terminator ht.wellFormed,
    Screen.feed_terminator hu.wellFormed]
  refine Screen.scene_feed_alike ?_ halike data
  exact congrArg (fun v : Terminal => v.withParser (t.parser.after stringTerminator)) hscene

/-- `ESC [ 5` was lost on the one side, and a digit follows. -/
theorem terminator_synchronises_half :
    let t := (Firmware.ample 2 1 7).fresh
    let u := Screen.feed t [0x1b, 0x5b, 0x35]
    ∃ t₀ t' u', t.feed stringTerminator = .ok t₀ ∧ t₀ = t.withParser t₀.parser ∧
      t₀.parser.Idle ∧ t.feed (stringTerminator ++ [0x41]) = .ok t' ∧
      u.feed (stringTerminator ++ [0x41]) = .ok u' ∧
      t'.scene = u'.scene.withParser t'.parser ∧ t'.parser.Alike u'.parser :=
  terminator_synchronises (created_ample 2 1 7).reachable
    ((created_ample 2 1 7).reachable.feed [0x1b, 0x5b, 0x35]) rfl [0x41]

end Terminal

end WolfSshUefi
