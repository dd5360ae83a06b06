import WolfSshUefi.Library.Views
import WolfSshUefi.Terminal.Console
import WolfSshUefi.Terminal.Contents

/-!
# The schedule of the flushes

The session paints when it likes and takes the replies when it likes.  The scene is the
terminal without what painting and replying change: the dirty intervals, the buffer for
runs, the queue of replies and the calls on the console.  No instruction looks at more
than the scene to change it (`Screen.scene_exec`), so the scene after some calls is the
one that their bytes draw in one piece (`WellFormed.run_scene`); and after a last flush
the console shows it, however the calls are laid out (`flush_schedule_unobservable`).
-/

namespace WolfSshUefi

namespace Terminal

/-- The terminal without its marks, its replies and what it sent to the console. -/
def scene (t : Terminal) : Terminal :=
  { t with
    dirtyStart := fun _ => 0, dirtyEnd := fun _ => 0, renderBuffer := fun _ => 0
    replies := fun _ => 0, replyLength := 0, conOut := [] }

/-- The scene of a choice. -/
theorem scene_ite (P : Prop) [Decidable P] (t u : Terminal) :
    (if P then t else u).scene = if P then t.scene else u.scene :=
  apply_ite Terminal.scene P t u

@[simp] theorem scene_scene (t : Terminal) : t.scene.scene = t.scene := rfl

@[simp] theorem parser_scene (t : Terminal) : t.scene.parser = t.parser := rfl

/-- Terminals of one scene have one geometry, one cursor and one active buffer. -/
theorem fields_of_scene {t u : Terminal} (h : t.scene = u.scene) :
    t.rows = u.rows ∧ t.columns = u.columns ∧ t.row = u.row ∧ t.column = u.column ∧
      t.active = u.active :=
  ⟨(congrArg Terminal.rows h :), (congrArg Terminal.columns h :), (congrArg Terminal.row h :),
    (congrArg Terminal.column h :), (congrArg Terminal.active h :)⟩

end Terminal

namespace Screen

open Terminal

/-- An index looks at the scene only. -/
theorem scene_index (t : Terminal) : (index t).scene = (index t.scene).scene := by
  simp only [index, scene_ite]
  rfl

theorem scene_wrap (t : Terminal) : (wrap t).scene = (wrap t.scene).scene := by
  simp only [wrap, scene_ite, scene_index { t with column := 0 }]
  rfl

/-- So does writing a character. -/
theorem scene_write (t : Terminal) (character : Nat) :
    (write t character).scene = (write t.scene character).scene := by
  simp only [write, scene_ite]
  rfl

theorem scene_print (t : Terminal) (character : Nat) :
    (print t character).scene = (print t.scene character).scene := by
  have hadvance (u : Terminal) : (advance u).scene = (advance u.scene).scene := rfl
  calc (advance (write (wrap t) character)).scene
      = (advance (write (wrap t).scene character).scene).scene := by
        rw [hadvance, scene_write]
    _ = (advance (write (wrap t.scene) character)).scene := by
        rw [scene_wrap, ← scene_write, ← hadvance]

/-- **The scene after an instruction depends on the scene before it only.** -/
theorem scene_exec (t : Terminal) (c : Command) :
    (exec t c).scene = (exec t.scene c).scene := by
  cases c with
  | print character => exact scene_print t character
  | index => exact scene_index t
  | reverseIndex =>
      simp only [exec, reverseIndex, scene_ite]
      rfl
  | eraseDisplay mode =>
      simp only [exec, eraseDisplay, scene_ite]
      rfl
  | eraseLine mode =>
      simp only [exec, eraseLine, scene_ite]
      rfl
  | rendition change => cases change <;> rfl
  | margins top bottom =>
      simp only [exec, setMargins, scene_ite]
      rfl
  | insertLines count =>
      simp only [exec, scene_ite]
      rfl
  | deleteLines count =>
      simp only [exec, scene_ite]
      rfl
  | alternateScreen on =>
      simp only [exec, alternateScreen, scene_ite]
      rfl
  | _ => rfl

/-- What an instruction does to the scene depends on the scene. -/
theorem exec_respects_scene : Views.Respects Terminal.scene exec := by
  intro t u c h
  rw [scene_exec t, scene_exec u, h]

/-- The scene after some bytes depends on the scene before them only. -/
theorem feed_respects_scene : Views.Respects Terminal.scene feed := by
  intro t u data h
  have hparser : t.parser = u.parser := by rw [← parser_scene t, ← parser_scene u, h]
  have hcommands : (execAll t (u.parser.commands data)).scene =
      (execAll u (u.parser.commands data)).scene := exec_respects_scene.foldl h _
  rw [feed_eq_execAll, feed_eq_execAll, hparser]
  calc ((execAll t (u.parser.commands data)).withParser (u.parser.after data)).scene
      = (execAll t (u.parser.commands data)).scene.withParser (u.parser.after data) := rfl
    _ = (execAll u (u.parser.commands data)).scene.withParser (u.parser.after data) := by
        rw [hcommands]

/-- What the bytes draw, seen on the scene. -/
def draw (scene : Terminal) (data : List UInt8) : Terminal := (feed scene data).scene

/-- Feeding draws on the scene. -/
theorem scene_feed (t : Terminal) (data : List UInt8) : (feed t data).scene = draw t.scene data :=
  feed_respects_scene t t.scene data (scene_scene t).symm

/-- Drawing in two pieces. -/
theorem draw_append (scene : Terminal) (first rest : List UInt8) :
    draw scene (first ++ rest) = draw (draw scene first) rest := by
  have hfeed : feed scene (first ++ rest) = feed (feed scene first) rest := List.foldl_append
  rw [draw, hfeed, scene_feed]
  rfl

end Screen

namespace Terminal

/-- The bytes a call gives to the terminal. -/
def Call.bytes : Call → List UInt8
  | .feed data => data
  | .flush | .takeResponse _ => []

/-- The bytes fed, call by call. -/
theorem fed_eq (calls : List Call) : fed calls = calls.flatMap Call.bytes := by
  unfold fed
  congr 1
  funext c
  cases c <;> rfl

/-- Every call draws its bytes and nothing else. -/
theorem Step.scene {t t' : Terminal} {c : Call} (hstep : t.Step c t') :
    t'.scene = Screen.draw t.scene c.bytes := by
  cases hstep with
  | feed data => exact Screen.scene_feed t data
  | flush hpainting => rfl
  | takeResponse capacity hreplies => rfl

/-- **The calls draw their bytes in one piece**, whatever is painted and taken between. -/
theorem WellFormed.run_scene {t : Terminal} (h : t.WellFormed) (calls : List Call) :
    ∃ t', t.run calls = .ok t' ∧ t'.WellFormed ∧ t'.scene = Screen.draw t.scene (fed calls) := by
  have hfollows : Views.Follows (ν := { s : Terminal // s = s.scene }) WellFormed
      (fun t => ⟨t.scene, rfl⟩) perform Call.bytes
      (fun s data => ⟨Screen.draw s.1 data, rfl⟩) := by
    intro t c ht
    obtain ⟨t', hperform, hstep⟩ := ht.perform_eq c
    exact ⟨t', hperform, ht.step hstep, Subtype.ext hstep.scene⟩
  obtain ⟨t', hrun, ht', hscene⟩ := hfollows.run
    (fun s => Subtype.ext s.2.symm)
    (fun s first rest => Subtype.ext (Screen.draw_append s.1 first rest)) h calls
  rw [fed_eq]
  exact ⟨t', hrun, ht', congrArg Subtype.val hscene⟩

/-- What the last flush leaves on the console: the calls it ends with. -/
theorem flush_shows {t : Terminal} (h : t.WellFormed) {d : Console} {base : List ConsoleCall}
    (htracks : d.Tracks base t) :
    ∃ t' sent, t.flush = .ok t' ∧ t'.scene = t.scene ∧ t'.conOut = base ++ sent ∧
      (∀ i, t.Place i → (d.run sent).shown i = t.shown i) ∧
      (d.run sent).column = t.column ∧ (d.run sent).row = t.row := by
  obtain ⟨buffer, painting, hflush, hpainting⟩ := h.flush_eq
  obtain ⟨sent, hsent, hshown⟩ := htracks.flush buffer hpainting
  obtain ⟨before, hbefore, -⟩ := htracks
  have hcalls : sent = before ++ t.flushCalls painting := by
    have hboth : base ++ sent = base ++ (before ++ t.flushCalls painting) := by
      rw [← hsent, ← List.append_assoc, ← hbefore]
      rfl
    exact List.append_cancel_left hboth
  have hend : (d.run sent).column = t.column ∧ (d.run sent).row = t.row := by
    rw [hcalls, Console.run_append]
    unfold flushCalls
    rw [Console.run_append, Console.run_append]
    exact ⟨rfl, rfl⟩
  exact ⟨_, sent, hflush, rfl, hsent, hshown, hend⟩

/-- One more call at the end of a run. -/
theorem run_concat {t t' t'' : Terminal} {calls : List Call} {c : Call}
    (hrun : t.run calls = .ok t') (hperform : t'.perform c = .ok t'') :
    t.run (calls ++ [c]) = .ok t'' := by
  unfold run at hrun ⊢
  rw [List.foldlM_append, hrun, Loops.ok_bind, List.foldlM_cons, hperform]
  rfl

/-- A console that agrees with a terminal shows, after some calls and a flush, what their
bytes draw in one piece. -/
theorem WellFormed.run_shows {t : Terminal} (h : t.WellFormed) {d : Console} (hd : d.Agrees t)
    (calls : List Call) :
    ∃ t' sent, t.run (calls ++ [.flush]) = .ok t' ∧
      t'.scene = Screen.draw t.scene (fed calls) ∧ t'.conOut = t.conOut ++ sent ∧
      (∀ i, t'.Place i → (d.run sent).shown i = t'.shown i) ∧
      (d.run sent).column = t'.column ∧ (d.run sent).row = t'.row := by
  have hstart : d.Tracks t.conOut t := ⟨[], (List.append_nil _).symm, hd⟩
  obtain ⟨u, hrun, hu, htracks⟩ := h.run_invariant
    (fun ht htracks hstep => Console.Tracks.step ht htracks hstep) hstart calls
  obtain ⟨u', hrun', -, hscene⟩ := h.run_scene calls
  obtain rfl : u = u' := Except.ok.inj (hrun.symm.trans hrun')
  obtain ⟨t', sent, hflush, hflushed, hsent, hshown, hcolumn, hrow⟩ := flush_shows hu htracks
  obtain ⟨hrows, hcolumns, hrow', hcolumn', hactive⟩ := fields_of_scene hflushed
  refine ⟨t', sent, run_concat hrun hflush, hflushed.trans hscene, hsent, ?_, ?_, ?_⟩
  · intro i hi
    have hi' : u.Place i := ⟨hrows ▸ hi.1, hcolumns ▸ hi.2⟩
    rw [hshown i hi', shown, shown, hactive]
  · exact hcolumn.trans hcolumn'.symm
  · exact hrow.trans hrow'.symm

/-- **When the session paints cannot be seen.**  Two sequences of calls that feed the same
bytes, however they are cut into feeds and whatever flushes and replies come between, end
after a flush in the same scene; and a console that does not wrap and agreed with the terminal
before shows the same characters and has its cursor at the same place. -/
theorem flush_schedule_unobservable {t : Terminal} (h : Reachable t) {d : Console}
    (hd : d.Agrees t) {first second : List Call} (hfed : fed first = fed second) :
    ∃ t₁ t₂ sent₁ sent₂, t.run (first ++ [.flush]) = .ok t₁ ∧
      t.run (second ++ [.flush]) = .ok t₂ ∧
      t₁.conOut = t.conOut ++ sent₁ ∧ t₂.conOut = t.conOut ++ sent₂ ∧ t₁.scene = t₂.scene ∧
      (∀ r c, r < t₁.rows → c < t₁.columns →
        (d.run sent₁).characters r c = (d.run sent₂).characters r c) ∧
      (d.run sent₁).column = (d.run sent₂).column ∧ (d.run sent₁).row = (d.run sent₂).row := by
  obtain ⟨t₁, sent₁, hrun₁, hscene₁, hsent₁, hshown₁, hcolumn₁, hrow₁⟩ :=
    h.wellFormed.run_shows hd first
  obtain ⟨t₂, sent₂, hrun₂, hscene₂, hsent₂, hshown₂, hcolumn₂, hrow₂⟩ :=
    h.wellFormed.run_shows hd second
  have hscene : t₁.scene = t₂.scene := by rw [hscene₁, hscene₂, hfed]
  obtain ⟨hrows, hcolumns, hrow, hcolumn, hactive⟩ := fields_of_scene hscene
  refine ⟨t₁, t₂, sent₁, sent₂, hrun₁, hrun₂, hsent₁, hsent₂, hscene, ?_, ?_, ?_⟩
  · intro r c hr hc
    calc (d.run sent₁).characters r c
        = (t₁.active r c).character := hshown₁ (r, c) ⟨hr, hc⟩
      _ = (t₂.active r c).character := by rw [hactive]
      _ = (d.run sent₂).characters r c := (hshown₂ (r, c) ⟨hrows ▸ hr, hcolumns ▸ hc⟩).symm
  · rw [hcolumn₁, hcolumn₂, hcolumn]
  · rw [hrow₁, hrow₂, hrow]

/-- One letter fed at once, and in front of it a flush and a reply taken. -/
theorem flush_schedule_unobservable_two_cells :
    ∃ t₁ t₂ sent₁ sent₂,
      (Firmware.ample 2 1 7).fresh.run ([.feed [0x41, 0x42]] ++ [.flush]) = .ok t₁ ∧
      (Firmware.ample 2 1 7).fresh.run
        ([.feed [0x41], .flush, .takeResponse 3, .feed [0x42]] ++ [.flush]) = .ok t₂ ∧
      t₁.conOut = (Firmware.ample 2 1 7).fresh.conOut ++ sent₁ ∧
      t₂.conOut = (Firmware.ample 2 1 7).fresh.conOut ++ sent₂ ∧ t₁.scene = t₂.scene ∧
      (∀ r c, r < t₁.rows → c < t₁.columns →
        (Console.run ⟨0, 0, fun _ _ => 0x20⟩ sent₁).characters r c =
          (Console.run ⟨0, 0, fun _ _ => 0x20⟩ sent₂).characters r c) ∧
      (Console.run ⟨0, 0, fun _ _ => 0x20⟩ sent₁).column =
        (Console.run ⟨0, 0, fun _ _ => 0x20⟩ sent₂).column ∧
      (Console.run ⟨0, 0, fun _ _ => 0x20⟩ sent₁).row =
        (Console.run ⟨0, 0, fun _ _ => 0x20⟩ sent₂).row :=
  flush_schedule_unobservable (created_ample 2 1 7).reachable
    (d := ⟨0, 0, fun _ _ => 0x20⟩) (fun _ hi _ => (shown_fresh hi).symm) rfl

end Terminal

end WolfSshUefi
