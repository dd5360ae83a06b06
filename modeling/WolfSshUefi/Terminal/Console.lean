import WolfSshUefi.Terminal.Covering

/-!
# Dirty tracking

The console is a grid of characters that has no wrap: `ClearScreen` blanks it
and `OutputString` writes its characters at successive columns.  The console
agrees with the active buffer outside the dirty intervals, whatever the bytes
from the server; and after a flush it agrees everywhere.

Every instruction of the screen either is covered by the marks it leaves, or
clears the console together with the buffer (`Screen.exec_picture`).
-/

namespace WolfSshUefi

/-- A console that writes where its cursor is, and neither wraps nor scrolls. -/
structure Console where
  column : Nat
  row : Nat
  characters : Grid Nat

namespace Console

/-- One character at the cursor. -/
def print (d : Console) (character : Nat) : Console :=
  { d with
    column := d.column + 1
    characters := d.characters.fill d.row 1 d.column (d.column + 1) character }

def perform (d : Console) : ConsoleCall → Console
  | .clearScreen => { column := 0, row := 0, characters := fun _ _ => 0x20 }
  | .setAttribute _ => d
  | .setCursorPosition column row => { d with column := column, row := row }
  | .outputString text => text.foldl print d
  | .enableCursor _ => d

/-- Calls one after the other. -/
def run (d : Console) (calls : List ConsoleCall) : Console :=
  calls.foldl perform d

@[simp] theorem run_nil (d : Console) : d.run [] = d := rfl

@[simp] theorem run_cons (d : Console) (c : ConsoleCall) (rest : List ConsoleCall) :
    d.run (c :: rest) = (d.perform c).run rest := rfl

/-- Calls in two pieces. -/
theorem run_append (d : Console) (first rest : List ConsoleCall) :
    d.run (first ++ rest) = (d.run first).run rest :=
  List.foldl_append

/-- A string goes to successive columns. -/
theorem print_text (d : Console) (text : Nat → Nat) (count : Nat) :
    ((List.range count).map text).foldl print d =
      { d with
        column := d.column + count
        characters := fun i j =>
          if i = d.row ∧ d.column ≤ j ∧ j < d.column + count then text (j - d.column)
          else d.characters i j } := by
  induction count with
  | zero =>
      have hnone (i j : Nat) : ¬ (i = d.row ∧ d.column ≤ j ∧ j < d.column) := by omega
      simp only [List.range_zero, List.map_nil, List.foldl_nil, hnone, if_false, Nat.add_zero]
  | succ n ih =>
      rw [List.range_succ, List.map_append, List.foldl_append, ih]
      simp only [List.map_cons, List.map_nil, List.foldl_cons, List.foldl_nil, print,
        Console.mk.injEq, true_and]
      refine ⟨by omega, ?_⟩
      funext i j
      simp only [Grid.fill]
      grind

/-- Painting a run shows its cells and nothing else. -/
theorem run_runs {line : Nat → Cell} {row last position : Nat} {calls : List ConsoleCall}
    (h : Runs line row last position calls) (d : Console) (i j : Nat) :
    (d.run calls).characters i j =
      if i = row ∧ position ≤ j ∧ j ≤ last then (line j).character else d.characters i j := by
  induction h generalizing d with
  | done hend => rw [if_neg (by omega), run_nil]
  | @run position count calls hpos hlast hattr hrest ih =>
      rw [run_append, ih]
      simp only [runCalls, run_cons, run_nil, perform, textAt, print_text]
      grind

/-- Painting the dirty rows shows the dirty cells and nothing else. -/
theorem run_painted {t : Terminal} {n : Nat} {calls : List ConsoleCall} (h : t.Painted n calls)
    (d : Console) {i j : Nat} (hj : j < t.columns) :
    (d.run calls).characters i j =
      if i < n ∧ t.Dirty i j then (t.active i j).character else d.characters i j := by
  induction h generalizing d with
  | zero => rw [if_neg (by omega), run_nil]
  | @row n calls rowCalls hcalls hrow ih =>
      rw [run_append]
      unfold Terminal.RowPainted at hrow
      by_cases hdirty : t.DirtyRow n
      · rw [if_pos hdirty] at hrow
        rw [run_runs hrow, ih]
        unfold Terminal.Dirty
        grind
      · rw [if_neg hdirty] at hrow
        have hclean : ¬ t.Dirty n j := by
          unfold Terminal.DirtyRow at hdirty
          unfold Terminal.Dirty
          omega
        rw [hrow, run_nil, ih]
        grind

end Console

/-! ### Agreement with the active buffer -/

/-- The characters of the active buffer, by place. -/
def Terminal.shown (t : Terminal) (place : Nat × Nat) : Nat :=
  (t.active place.1 place.2).character

/-- The characters of the console, by place. -/
def Console.shown (d : Console) (place : Nat × Nat) : Nat := d.characters place.1 place.2

/-- The console shows the active buffer outside the dirty intervals. -/
def Console.Agrees (d : Console) (t : Terminal) : Prop :=
  Mirror.Agrees t.Place t.DirtyPlace d.shown t.shown

namespace Screen

open Mirror

/-- A change that calls nothing and marks all it changes. -/
structure Covered (t u : Terminal) : Prop where
  rows : u.rows = t.rows
  columns : u.columns = t.columns
  conOut : u.conOut = t.conOut
  cells : Mirror.Covered t.Place t.DirtyPlace u.DirtyPlace t.shown u.shown

/-- A change that blanks the console and the active buffer. -/
structure Cleared (t u : Terminal) : Prop where
  rows : u.rows = t.rows
  columns : u.columns = t.columns
  conOut : u.conOut = t.conOut ++ [.clearScreen]
  cells : ∀ i, t.Place i → u.shown i = 0x20

/-- A change of other fields only. -/
theorem Covered.of_eq {t u : Terminal} (hrows : u.rows = t.rows) (hcolumns : u.columns = t.columns)
    (hconOut : u.conOut = t.conOut) (hstart : u.dirtyStart = t.dirtyStart)
    (hend : u.dirtyEnd = t.dirtyEnd) (hactive : u.active = t.active) : Covered t u := by
  have hdirty : u.DirtyPlace = t.DirtyPlace := by
    funext i
    simp only [Terminal.DirtyPlace, Terminal.Dirty, hstart, hend]
  have hshown : u.shown = t.shown := by
    funext i
    simp only [Terminal.shown, hactive]
  refine ⟨hrows, hcolumns, hconOut, ?_⟩
  rw [hdirty, hshown]
  exact .refl _ _ _

/-- What is marked cell by cell is marked character by character. -/
theorem Covered.of_marked {t u : Terminal} (h : Marked t u) : Covered t u := by
  refine ⟨h.rows, h.columns, h.conOut, h.cells.keeps, ?_⟩
  intro i hi hclean
  have hcell : u.cellAt i = t.cellAt i := h.cells.marks i hi hclean
  exact congrArg Cell.character hcell

/-- A blanked buffer shows blanks. -/
theorem Cleared.of_blanked {t u : Terminal} (h : Blanked t u) : Cleared t u := by
  refine ⟨h.rows, h.columns, h.conOut, ?_⟩
  intro i hi
  have hcell : u.cellAt i = t.defaultBlank := h.cells i hi
  exact congrArg Cell.character hcell

/-- **Every instruction marks the characters it changes, or clears the console as well.** -/
theorem exec_effect {t : Terminal} (h : t.WellFormed) (c : Command) :
    Covered t (exec t c) ∨ Cleared t (exec t c) := by
  rcases exec_picture h c with ⟨-, hmarked⟩ | ⟨-, hblanked⟩
  · exact .inl (.of_marked hmarked)
  · exact .inr (.of_blanked hblanked)

end Screen

/-! ### Runs -/

namespace Console

variable {d : Console} {base : List ConsoleCall} {t : Terminal}

/-- The console, after the calls made since `base`, agrees with the terminal. -/
def Tracks (d : Console) (base : List ConsoleCall) (t : Terminal) : Prop :=
  ∃ calls, t.conOut = base ++ calls ∧ (d.run calls).Agrees t

/-- A change that marks its characters keeps the console in agreement. -/
theorem Tracks.covered (h : d.Tracks base t) {u : Terminal} (hu : Screen.Covered t u) :
    d.Tracks base u := by
  obtain ⟨calls, hcalls, hagrees⟩ := h
  have hplace : u.Place = t.Place := by
    funext i
    simp only [Terminal.Place, hu.rows, hu.columns]
  refine ⟨calls, hu.conOut.trans hcalls, ?_⟩
  unfold Agrees
  rw [hplace]
  exact Mirror.Agrees.covered hagrees hu.cells

/-- So does a clear, which comes to the console as well. -/
theorem Tracks.cleared (h : d.Tracks base t) {u : Terminal} (hu : Screen.Cleared t u) :
    d.Tracks base u := by
  obtain ⟨calls, hcalls, -⟩ := h
  refine ⟨calls ++ [.clearScreen], ?_, ?_⟩
  · rw [hu.conOut, hcalls, List.append_assoc]
  · intro i hi _
    have hi' : t.Place i := ⟨hu.rows ▸ hi.1, hu.columns ▸ hi.2⟩
    rw [run_append, hu.cells i hi']
    rfl

theorem Tracks.exec (h : d.Tracks base t) (ht : t.WellFormed) (c : Command) :
    d.Tracks base (Screen.exec t c) := by
  rcases Screen.exec_effect ht c with hcovered | hcleared
  · exact h.covered hcovered
  · exact h.cleared hcleared

theorem Tracks.execAll (h : d.Tracks base t) (ht : t.WellFormed) {commands : List Command}
    (hc : ∀ c ∈ commands, c.Valid) : d.Tracks base (Screen.execAll t commands) := by
  induction commands generalizing t with
  | nil => exact h
  | cons c rest ih =>
      exact ih (h.exec ht c) (ht.exec (hc c List.mem_cons_self))
        fun c' hc' => hc c' (List.mem_cons_of_mem c hc')

theorem Tracks.feedByte (h : d.Tracks base t) (ht : t.WellFormed) (byte : UInt8) :
    d.Tracks base (Screen.feedByte t byte) := by
  have hparser : (t.withParser (t.parser.next byte).1).WellFormed :=
    ht.withParser (ht.parser.next byte)
  have hsame : Screen.Covered t (t.withParser (t.parser.next byte).1) :=
    .of_eq rfl rfl rfl rfl rfl rfl
  exact (h.covered hsame).execAll hparser (t.parser.next_valid byte)

/-- **So does a feed.** -/
theorem Tracks.feed (h : d.Tracks base t) (ht : t.WellFormed) (data : List UInt8) :
    d.Tracks base (Screen.feed t data) := by
  induction data generalizing t with
  | nil => exact h
  | cons byte rest ih => exact ih (h.feedByte ht byte) (ht.feedByte byte)

/-- The calls of a flush show the dirty cells and nothing else. -/
theorem run_flushCalls {painting : List ConsoleCall} (hpainting : t.Painted t.rows painting)
    (d : Console) {i : Nat × Nat} (hi : t.Place i) :
    (d.run (t.flushCalls painting)).shown i =
      if t.DirtyPlace i then t.shown i else d.shown i := by
  have hpainted : ((d.perform (.enableCursor false)).run painting).characters i.1 i.2 = _ :=
    run_painted hpainting (d.perform (.enableCursor false)) hi.2
  unfold Terminal.flushCalls
  rw [run_append, run_append]
  simp only [run_cons, run_nil, perform] at hpainted ⊢
  show (Console.run d painting).characters i.1 i.2 = _
  rw [hpainted]
  simp only [hi.1, true_and]
  rfl

/-- A flush shows the whole active buffer. -/
theorem Tracks.flush (h : d.Tracks base t) (buffer : Nat → Nat) {painting : List ConsoleCall}
    (hpainting : t.Painted t.rows painting) :
    ∃ calls, (t.painted t.rows buffer (t.flushCalls painting)).conOut = base ++ calls ∧
      ∀ i, t.Place i → (d.run calls).shown i = t.shown i := by
  obtain ⟨calls, hcalls, hagrees⟩ := h
  refine ⟨calls ++ t.flushCalls painting, ?_, ?_⟩
  · show t.conOut ++ _ = _
    rw [hcalls, List.append_assoc]
  · rw [run_append]
    refine hagrees.repaint ?_ ?_
    · intro i hi hdirty
      rw [run_flushCalls hpainting _ hi, if_pos hdirty]
    · intro i hi hclean
      rw [run_flushCalls hpainting _ hi, if_neg hclean]

/-- **Every call keeps the console in agreement.** -/
theorem Tracks.step (ht : t.WellFormed) (h : d.Tracks base t) {c : Terminal.Call} {t' : Terminal}
    (hstep : t.Step c t') : d.Tracks base t' := by
  cases hstep with
  | feed data => exact h.feed ht data
  | @flush buffer painting hpainting =>
      obtain ⟨calls, hcalls, hshown⟩ := h.flush buffer hpainting
      exact ⟨calls, hcalls, fun i hi _ => hshown i hi⟩
  | takeResponse capacity hreplies =>
      exact h.covered (.of_eq rfl rfl rfl rfl rfl rfl)

end Console

namespace Terminal

/-- A new terminal shows blanks. -/
theorem shown_fresh {fw : Firmware} {i : Nat × Nat} (hi : fw.fresh.Place i) :
    fw.fresh.shown i = 0x20 :=
  congrArg Cell.character (cellAt_fresh hi)

/-- **Dirty tracking is sound.**  If the console agrees with a reachable terminal
outside its dirty intervals, it does so after any calls; and after a flush it
shows the whole active buffer. -/
theorem dirty_tracking_sound {t : Terminal} (h : Reachable t) (d : Console) (hd : d.Agrees t)
    (calls : List Call) :
    (∃ t' sent, t.run calls = .ok t' ∧ t'.conOut = t.conOut ++ sent ∧ (d.run sent).Agrees t') ∧
    (∃ t' sent, t.run (calls ++ [.flush]) = .ok t' ∧ t'.conOut = t.conOut ++ sent ∧
      ∀ r c, r < t'.rows → c < t'.columns →
        (d.run sent).characters r c = (t'.active r c).character) := by
  have hstart : d.Tracks t.conOut t := ⟨[], (List.append_nil _).symm, hd⟩
  obtain ⟨t', hrun, ht', htracks⟩ := h.wellFormed.run_invariant
    (fun ht htracks hstep => Console.Tracks.step ht htracks hstep) hstart calls
  refine ⟨?_, ?_⟩
  · obtain ⟨sent, hsent, hagrees⟩ := htracks
    exact ⟨t', sent, hrun, hsent, hagrees⟩
  · obtain ⟨buffer, painting, hflush, hpainting⟩ := ht'.flush_eq
    obtain ⟨sent, hsent, hshown⟩ := htracks.flush buffer hpainting
    refine ⟨_, sent, ?_, hsent, fun r c hr hc => hshown (r, c) ⟨hr, hc⟩⟩
    unfold run at hrun ⊢
    rw [List.foldlM_append, hrun]
    exact (Loops.ok_bind _ _).trans (by rw [List.foldlM_cons]; exact congrArg (· >>= _) hflush)

/-- A console that was cleared, in front of a new terminal of two cells. -/
theorem dirty_tracking_sound_two_cells :
    (∃ t' sent, (Firmware.ample 2 1 7).fresh.run [.feed [0x41]] = .ok t' ∧
      t'.conOut = (Firmware.ample 2 1 7).fresh.conOut ++ sent ∧
      (Console.run ⟨0, 0, fun _ _ => 0x20⟩ sent).Agrees t') ∧
    (∃ t' sent, (Firmware.ample 2 1 7).fresh.run ([.feed [0x41]] ++ [.flush]) = .ok t' ∧
      t'.conOut = (Firmware.ample 2 1 7).fresh.conOut ++ sent ∧
      ∀ r c, r < t'.rows → c < t'.columns →
        (Console.run ⟨0, 0, fun _ _ => 0x20⟩ sent).characters r c =
          (t'.active r c).character) :=
  dirty_tracking_sound (created_ample 2 1 7).reachable ⟨0, 0, fun _ _ => 0x20⟩
    (fun _ hi _ => (shown_fresh hi).symm) [.feed [0x41]]

end Terminal

end WolfSshUefi
