import WolfSshUefi.Terminal.Covering

/-!
# Colours on the console

The console with the attributes of its cells: `OutputString` writes with the
attribute set last, and `ClearScreen` blanks the display with it.  A clear that
the session asks for blanks the active buffer in the default colours, while the
console still has the attribute of the last flush.  So a flush leaves every
attribute right when the session has not cleared the console since the flush
before it, or that one left the default attribute, or no cell has stayed clean.
-/

namespace WolfSshUefi

structure ColourConsole where
  column : Nat
  row : Nat
  current : Nat
  cells : Grid Cell

namespace ColourConsole

/-- One character at the cursor, in the current attribute. -/
def print (d : ColourConsole) (character : Nat) : ColourConsole :=
  { d with
    column := d.column + 1
    cells := d.cells.fill d.row 1 d.column (d.column + 1) ⟨character, d.current⟩ }

def perform (d : ColourConsole) : ConsoleCall → ColourConsole
  | .clearScreen => { d with column := 0, row := 0, cells := fun _ _ => ⟨0x20, d.current⟩ }
  | .setAttribute attr => { d with current := attr }
  | .setCursorPosition column row => { d with column := column, row := row }
  | .outputString text => text.foldl print d
  | .enableCursor _ => d

/-- Calls one after the other. -/
def run (d : ColourConsole) (calls : List ConsoleCall) : ColourConsole :=
  calls.foldl perform d

@[simp] theorem run_nil (d : ColourConsole) : d.run [] = d := rfl

@[simp] theorem run_cons (d : ColourConsole) (c : ConsoleCall) (rest : List ConsoleCall) :
    d.run (c :: rest) = (d.perform c).run rest := rfl

/-- Calls in two pieces. -/
theorem run_append (d : ColourConsole) (first rest : List ConsoleCall) :
    d.run (first ++ rest) = (d.run first).run rest :=
  List.foldl_append

/-- A string goes to successive columns, all in the current attribute. -/
theorem print_text (d : ColourConsole) (text : Nat → Nat) (count : Nat) :
    ((List.range count).map text).foldl print d =
      { d with
        column := d.column + count
        cells := fun i j =>
          if i = d.row ∧ d.column ≤ j ∧ j < d.column + count then
            ⟨text (j - d.column), d.current⟩
          else d.cells i j } := by
  induction count with
  | zero =>
      have hnone (i j : Nat) : ¬ (i = d.row ∧ d.column ≤ j ∧ j < d.column) := by omega
      simp only [List.range_zero, List.map_nil, List.foldl_nil, hnone, if_false, Nat.add_zero]
  | succ n ih =>
      rw [List.range_succ, List.map_append, List.foldl_append, ih]
      simp only [List.map_cons, List.map_nil, List.foldl_cons, List.foldl_nil, print,
        ColourConsole.mk.injEq, true_and]
      refine ⟨by omega, ?_⟩
      funext i j
      simp only [Grid.fill]
      grind

open Terminal

/-- Painting a run shows its cells, colours included. -/
theorem run_runs {line : Nat → Cell} {row last position : Nat} {calls : List ConsoleCall}
    (h : Runs line row last position calls) (d : ColourConsole) (i j : Nat) :
    (d.run calls).cells i j =
      if i = row ∧ position ≤ j ∧ j ≤ last then line j else d.cells i j := by
  induction h generalizing d with
  | done hend => rw [if_neg (by omega), run_nil]
  | @run position count calls hpos hlast hattr hrest ih =>
      have hcell {j : Nat} (hj : position ≤ j ∧ j < position + count) :
          (⟨(line j).character, (line position).attr⟩ : Cell) = line j := by
        obtain ⟨k, rfl⟩ := Nat.exists_eq_add_of_le hj.1
        rw [← hattr k (by omega)]
      rw [run_append, ih]
      simp only [runCalls, run_cons, run_nil, perform, textAt, print_text]
      grind

/-- Painting the dirty rows shows the dirty cells and nothing else. -/
theorem run_painted {t : Terminal} {n : Nat} {calls : List ConsoleCall} (h : t.Painted n calls)
    (d : ColourConsole) {i j : Nat} (hj : j < t.columns) :
    (d.run calls).cells i j = if i < n ∧ t.Dirty i j then t.active i j else d.cells i j := by
  induction h generalizing d with
  | zero => rw [if_neg (by omega), run_nil]
  | @row n calls rowCalls hcalls hrow ih =>
      rw [run_append]
      unfold Terminal.RowPainted at hrow
      by_cases hdirty : t.DirtyRow n
      · rw [if_pos hdirty] at hrow
        rw [run_runs hrow, ih]
        unfold Terminal.Dirty
        grind
      · rw [if_neg hdirty] at hrow
        have hclean : ¬ t.Dirty n j := by
          unfold Terminal.DirtyRow at hdirty
          unfold Terminal.Dirty
          omega
        rw [hrow, run_nil, ih]
        grind

/-- A flush shows the dirty cells and leaves the attribute for the text to come. -/
theorem run_flushCalls {t : Terminal} {painting : List ConsoleCall}
    (hpainting : t.Painted t.rows painting) (d : ColourConsole) :
    (d.run (t.flushCalls painting)).current = t.terminalAttribute ∧
      ∀ i, t.Place i → (d.run (t.flushCalls painting)).cells i.1 i.2 =
        if t.DirtyPlace i then t.cellAt i else d.cells i.1 i.2 := by
  unfold Terminal.flushCalls
  rw [run_append, run_append]
  refine ⟨rfl, fun i hi => ?_⟩
  have hpainted : ((d.perform (.enableCursor false)).run painting).cells i.1 i.2 = _ :=
    run_painted hpainting (d.perform (.enableCursor false)) hi.2
  simp only [run_cons, run_nil, perform] at hpainted ⊢
  rw [hpainted]
  simp only [hi.1, true_and]
  rfl

/-- Clears blank the display in the current attribute. -/
theorem run_clears (d : ColourConsole) (n : Nat) :
    d.run (List.replicate (n + 1) .clearScreen) =
      ⟨0, 0, d.current, fun _ _ => ⟨0x20, d.current⟩⟩ := by
  induction n generalizing d with
  | zero => rfl
  | succ n ih => exact ih (d.perform .clearScreen)

/-- The console has the attributes of the active buffer. -/
def ShowsColours (d : ColourConsole) (t : Terminal) : Prop :=
  ∀ r c, r < t.rows → c < t.columns → (d.cells r c).attr = (t.active r c).attr

end ColourConsole

namespace Terminal

/-- The attribute that a cleared buffer has. -/
def defaultAttribute (t : Terminal) : Nat :=
  efiTextAttr t.defaultForeground t.defaultBackground

/-- The bytes of a round do not clear the console, or it has the default
attribute, or no cell is clean at the end of the round. -/
def RoundFits (t : Terminal) (data : List UInt8) : Prop :=
  ¬ Screen.FeedClears t data ∨ t.terminalAttribute = t.defaultAttribute ∨
    ∀ r c, r < t.rows → c < t.columns → (Screen.feed t data).Dirty r c

/-- Every round fits the state it begins in. -/
def RoundsFit (t : Terminal) : List (List (List UInt8)) → Prop
  | [] => True
  | chunks :: rest =>
      t.RoundFits chunks.flatten ∧
        ∀ next, t.run (roundCalls chunks) = .ok next → next.RoundsFit rest

/-- After every flush the console has the attributes of the active buffer. -/
def ColoursCoherent (t : Terminal) (d : ColourConsole) (rounds : List (List (List UInt8))) : Prop :=
  ∀ first rest, rounds = first ++ rest →
    ∃ t' sent, t.run (first.flatMap roundCalls) = .ok t' ∧ t'.conOut = t.conOut ++ sent ∧
      (d.run sent).ShowsColours t'

/-- The console as a flush leaves it. -/
structure Coloured (t : Terminal) (d : ColourConsole) : Prop where
  current : d.current = t.terminalAttribute
  attributes : d.ShowsColours t

/-- **One round** leaves the attributes right exactly when it fits. -/
theorem WellFormed.round_coloured {t : Terminal} (h : t.WellFormed) {d : ColourConsole}
    (hd : t.Coloured d) (chunks : List (List UInt8)) :
    ∃ next sent, t.run (roundCalls chunks) = .ok next ∧ next.WellFormed ∧
      next.conOut = t.conOut ++ sent ∧ (d.run sent).current = next.terminalAttribute ∧
      ((d.run sent).ShowsColours next ↔ t.RoundFits chunks.flatten) := by
  obtain ⟨buffer, painting, hpainting, hrun⟩ := h.run_round chunks
  have hfed := h.feed chunks.flatten
  rcases Screen.feed_picture h chunks.flatten with ⟨hnone, hmarked⟩ | ⟨hclears, hwiped⟩
  · -- nothing is cleared: clean cells have kept their attributes on both sides
    obtain ⟨hcurrent, hcells⟩ := ColourConsole.run_flushCalls hpainting d
    refine ⟨_, _, hrun, hfed.painted _ _ _, congrArg (· ++ _) hmarked.conOut, hcurrent, ?_⟩
    refine iff_of_true ?_ (.inl hnone)
    intro r c hr hc
    have hplace : (Screen.feed t chunks.flatten).Place (r, c) := ⟨hr, hc⟩
    have hplace' : t.Place (r, c) := Screen.place_eq hmarked.rows hmarked.columns ▸ hplace
    refine (congrArg Cell.attr (hcells (r, c) hplace)).trans ?_
    split
    · rfl
    · next hclean =>
        exact (hd.attributes r c hplace'.1 hplace'.2).trans
          (congrArg Cell.attr (hmarked.cells.marks (r, c) hplace' hclean)).symm
  · -- a clean cell is blank in the default colours, on the console in the current attribute
    obtain ⟨n, hconOut⟩ := hwiped.conOut
    obtain ⟨hcurrent, hcells⟩ := ColourConsole.run_flushCalls hpainting
      (d.run (List.replicate (n + 1) .clearScreen))
    refine ⟨_, List.replicate (n + 1) .clearScreen ++
      (Screen.feed t chunks.flatten).flushCalls painting, hrun, hfed.painted _ _ _, ?_, ?_, ?_⟩
    · rw [← List.append_assoc]
      exact congrArg (· ++ _) hconOut
    · rw [ColourConsole.run_append]
      exact hcurrent
    rw [ColourConsole.run_append]
    have hclean {r c : Nat} (hr : r < t.rows) (hc : c < t.columns)
        (hclean : ¬ (Screen.feed t chunks.flatten).Dirty r c) :
        ((ColourConsole.run (d.run (List.replicate (n + 1) .clearScreen))
            ((Screen.feed t chunks.flatten).flushCalls painting)).cells r c).attr =
          t.terminalAttribute ∧
        ((Screen.feed t chunks.flatten).active r c).attr = t.defaultAttribute := by
      have hplace : t.Place (r, c) := ⟨hr, hc⟩
      have hblank := hwiped.cells (r, c) hplace hclean
      rw [← Screen.place_eq hwiped.rows hwiped.columns] at hplace
      have hclean' : ¬ (Screen.feed t chunks.flatten).DirtyPlace (r, c) := hclean
      have hshown := hcells (r, c) hplace
      rw [if_neg hclean'] at hshown
      refine ⟨?_, congrArg Cell.attr hblank⟩
      calc _ = ((d.run (List.replicate (n + 1) .clearScreen)).cells r c).attr :=
              congrArg Cell.attr hshown
        _ = d.current := by rw [ColourConsole.run_clears]
        _ = t.terminalAttribute := hd.current
    constructor
    · intro hshows
      right
      by_cases hall : ∀ r c, r < t.rows → c < t.columns →
          (Screen.feed t chunks.flatten).Dirty r c
      · exact .inr hall
      · left
        have hwitness : ∃ r c, r < t.rows ∧ c < t.columns ∧
            ¬ (Screen.feed t chunks.flatten).Dirty r c := by
          by_contra hnone
          apply hall
          intro r c hr hc
          by_contra hdirty
          exact hnone ⟨r, c, hr, hc, hdirty⟩
        obtain ⟨r, c, hr, hc, hdirty⟩ := hwitness
        obtain ⟨hconsole, hbuffer⟩ := hclean hr hc hdirty
        calc t.terminalAttribute
            = _ := hconsole.symm
          _ = ((Screen.feed t chunks.flatten).active r c).attr :=
              hshows r c (hwiped.rows ▸ hr) (hwiped.columns ▸ hc)
          _ = t.defaultAttribute := hbuffer
    · intro hfits r c hr hc
      have hr' : r < t.rows := hwiped.rows ▸ hr
      have hc' : c < t.columns := hwiped.columns ▸ hc
      by_cases hdirty : (Screen.feed t chunks.flatten).Dirty r c
      · have hdirty' : (Screen.feed t chunks.flatten).DirtyPlace (r, c) := hdirty
        have hshown := hcells (r, c) ⟨hr, hc⟩
        rw [if_pos hdirty'] at hshown
        exact congrArg Cell.attr hshown
      · obtain ⟨hconsole, hbuffer⟩ := hclean hr' hc' hdirty
        rcases hfits with hnone | hsame | hall
        · exact absurd hclears hnone
        · exact (hconsole.trans hsame).trans hbuffer.symm
        · exact absurd (hall r c hr' hc') hdirty

/-- A run is coherent when its first round is and the rest is. -/
theorem WellFormed.coherent_cons {t next : Terminal} (hnext : next.WellFormed) {d : ColourConsole}
    (hd : d.ShowsColours t) {chunks : List (List UInt8)} {rest : List (List (List UInt8))}
    {sent : List ConsoleCall} (hrun : t.run (roundCalls chunks) = .ok next)
    (hsent : next.conOut = t.conOut ++ sent) :
    t.ColoursCoherent d (chunks :: rest) ↔ next.ColoursCoherent (d.run sent) rest := by
  have hmore (first : List (List (List UInt8))) :
      t.run ((chunks :: first).flatMap roundCalls) = next.run (first.flatMap roundCalls) := by
    unfold run at hrun ⊢
    rw [List.flatMap_cons, List.foldlM_append, hrun]
    rfl
  constructor
  · intro hall first rest' hsplit
    obtain ⟨t', calls, hcalls, hconOut, hshows⟩ := hall (chunks :: first) rest' (by rw [hsplit]; rfl)
    rw [hmore] at hcalls
    obtain ⟨t'', calls', hcalls', hconOut'⟩ := hnext.run_conOut (first.flatMap roundCalls)
    rw [hcalls] at hcalls'
    obtain rfl := Except.ok.inj hcalls'
    have hboth : t.conOut ++ calls = t.conOut ++ (sent ++ calls') := by
      rw [← hconOut, hconOut', hsent, List.append_assoc]
    rw [List.append_cancel_left hboth, ColourConsole.run_append] at hshows
    exact ⟨t', calls', hcalls, hconOut', hshows⟩
  · intro hall first rest' hsplit
    cases first with
    | nil => exact ⟨t, [], rfl, (List.append_nil _).symm, hd⟩
    | cons chunks' first =>
        obtain ⟨rfl, hrest⟩ := List.cons.inj hsplit
        obtain ⟨t', calls, hcalls, hconOut, hshows⟩ := hall first rest' hrest
        refine ⟨t', sent ++ calls, (hmore first).trans hcalls, ?_, ?_⟩
        · rw [hconOut, hsent, List.append_assoc]
        · rw [ColourConsole.run_append]
          exact hshows

/-- From any state in agreement, the colours agree exactly if the rounds fit. -/
theorem WellFormed.colours_coherent {t : Terminal} (h : t.WellFormed) {d : ColourConsole}
    (hd : t.Coloured d) (rounds : List (List (List UInt8))) :
    t.ColoursCoherent d rounds ↔ t.RoundsFit rounds := by
  induction rounds generalizing t d with
  | nil =>
      refine iff_of_true ?_ trivial
      intro first rest hsplit
      obtain ⟨rfl, rfl⟩ := List.append_eq_nil_iff.mp hsplit.symm
      exact ⟨t, [], rfl, (List.append_nil _).symm, hd.attributes⟩
  | cons chunks rest ih =>
      obtain ⟨next, sent, hrun, hnext, hsent, hcurrent, hshows⟩ := h.round_coloured hd chunks
      rw [hnext.coherent_cons hd.attributes hrun hsent, RoundsFit]
      constructor
      · intro hall
        obtain ⟨t', calls, hcalls, hconOut, hfirst⟩ := hall [] rest rfl
        obtain rfl := Except.ok.inj hcalls
        have hnone : calls = [] :=
          List.append_cancel_left (hconOut.symm.trans (List.append_nil _).symm)
        rw [hnone, ColourConsole.run_nil] at hfirst
        refine ⟨hshows.mp hfirst, ?_⟩
        intro next' hrun'
        rw [hrun] at hrun'
        obtain rfl := Except.ok.inj hrun'
        exact (ih hnext ⟨hcurrent, hfirst⟩).mp hall
      · intro hboth
        obtain ⟨hfits, hrest⟩ := hboth
        exact (ih hnext ⟨hcurrent, hshows.mpr hfits⟩).mpr (hrest next hrun)

/-- **Attributes stay coherent exactly when** every round that clears the console
begins with the default attribute or leaves no cell clean. -/
theorem colours_coherent_iff {t : Terminal} (h : t.Reachable) (d : ColourConsole)
    (hcells : ∀ r c, r < t.rows → c < t.columns → d.cells r c = t.active r c)
    (hcurrent : d.current = t.terminalAttribute) (rounds : List (List (List UInt8))) :
    t.ColoursCoherent d rounds ↔ t.RoundsFit rounds :=
  h.wellFormed.colours_coherent
    ⟨hcurrent, fun r c hr hc => congrArg Cell.attr (hcells r c hr hc)⟩ rounds

/-- A console that was cleared in attribute 7. -/
def clearedConsole (current : Nat) : ColourConsole := ⟨0, 0, current, fun _ _ => ⟨0x20, 7⟩⟩

/-- A new terminal behind it. -/
theorem colours_coherent_plain :
    (Firmware.ample 2 1 7).fresh.ColoursCoherent (clearedConsole 7) [[[0x41]]] := by
  have hcells (r c : Nat) (hr : r < (Firmware.ample 2 1 7).fresh.rows)
      (hc : c < (Firmware.ample 2 1 7).fresh.columns) :
      (clearedConsole 7).cells r c = (Firmware.ample 2 1 7).fresh.active r c := by
    have hplace : (Firmware.ample 2 1 7).fresh.Place (r, c) := ⟨hr, hc⟩
    exact (cellAt_fresh hplace).symm
  apply (colours_coherent_iff (created_ample 2 1 7).reachable _ hcells rfl _).mpr
  refine ⟨.inl ?_, fun _ _ => trivial⟩
  rintro (hclears | hclears) <;> exact hclears

/-- A new terminal after `CSI 31 m`. -/
def colouredTerminal : Terminal :=
  Screen.feed (Firmware.ample 2 1 7).fresh [0x1b, 0x5b, 0x33, 0x31, 0x6d]

/-- The console shows the coloured cells. -/
theorem colouredTerminal_cells (r c : Nat) (hr : r < 1) (hc : c < 2) :
    (clearedConsole colouredTerminal.terminalAttribute).cells r c = colouredTerminal.active r c := by
  have hall : ∀ r : Fin 1, ∀ c : Fin 2, (⟨0x20, 7⟩ : Cell) = colouredTerminal.active r c := by
    decide
  exact hall ⟨r, hr⟩ ⟨c, hc⟩

/-- Then `CSI 2 J` clears the console in the new colour, and the buffer in the old one. -/
theorem clear_after_colour :
    colouredTerminal.Reachable ∧
      (∀ r c, r < colouredTerminal.rows → c < colouredTerminal.columns →
        (clearedConsole colouredTerminal.terminalAttribute).cells r c =
          colouredTerminal.active r c) ∧
      ¬ colouredTerminal.ColoursCoherent (clearedConsole colouredTerminal.terminalAttribute)
        [[[0x1b, 0x5b, 0x32, 0x4a]]] := by
  have hreachable : colouredTerminal.Reachable := (created_ample 2 1 7).reachable.feed _
  refine ⟨hreachable, colouredTerminal_cells, ?_⟩
  have hshows : (clearedConsole colouredTerminal.terminalAttribute).ShowsColours
      colouredTerminal := fun r c hr hc => congrArg Cell.attr (colouredTerminal_cells r c hr hc)
  rw [hreachable.wellFormed.colours_coherent ⟨rfl, hshows⟩]
  intro hboth
  obtain ⟨hnone | hsame | hall, -⟩ := hboth
  · exact hnone (.inr (.inl (.inl rfl)))
  · exact absurd hsame (by decide)
  · exact absurd (hall 0 0 (by decide) (by decide)) (by decide)

end Terminal

end WolfSshUefi
