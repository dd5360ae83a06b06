import WolfSshUefi.Terminal.Console

/-!
# Painting on a console that wraps

The console with the output rules of UEFI: an ordinary character is printed
and moves the cursor right, past the right edge the line wraps, and a line
feed on the bottom row scrolls the whole display.  BS, LF and CR are not
printed but move the cursor, so no place ever shows one of them; that is what
the type of the screen says.

A flush paints exactly the dirty cells unless one of them holds a control
character or the painting reaches the bottom right corner, after which the
display scrolls (`flush_faithful_iff`).
-/

namespace WolfSshUefi

/-- The characters `OutputString` interprets. -/
def Control (character : Nat) : Prop :=
  character = 0x08 ∨ character = 0x0a ∨ character = 0x0d

instance (character : Nat) : Decidable (Control character) := by
  unfold Control; infer_instance

/-- A character a console can show. -/
abbrev Ordinary := { character : Nat // ¬ Control character }

/-- The character of an empty place. -/
def Ordinary.space : Ordinary := ⟨0x20, by decide⟩

structure Display where
  columns : Nat
  rows : Nat
  column : Nat
  row : Nat
  screen : Grid Ordinary

namespace Display

/-- LF: down one row, or the whole display up one row. -/
def lineFeed (d : Display) : Display :=
  if d.row + 1 < d.rows then { d with row := d.row + 1 }
  else { d with screen := d.screen.shiftUp 0 (d.rows - 1) 1 d.columns .space }

/-- An ordinary character; past the right edge CR and LF follow. -/
def printOrdinary (d : Display) (character : Ordinary) : Display :=
  let d : Display :=
    { d with
      column := d.column + 1
      screen := d.screen.fill d.row 1 d.column (d.column + 1) character }
  if d.column < d.columns then d else lineFeed { d with column := 0 }

def print (d : Display) (character : Nat) : Display :=
  if h : ¬ Control character then d.printOrdinary ⟨character, h⟩
  else if character = 0x08 then { d with column := d.column - 1 }
  else if character = 0x0a then d.lineFeed
  else { d with column := 0 }

def perform (d : Display) : ConsoleCall → Display
  | .clearScreen => { d with column := 0, row := 0, screen := fun _ _ => .space }
  | .setAttribute _ => d
  | .setCursorPosition column row => { d with column := column, row := row }
  | .outputString text => text.foldl print d
  | .enableCursor _ => d

/-- Calls one after the other. -/
def run (d : Display) (calls : List ConsoleCall) : Display :=
  calls.foldl perform d

@[simp] theorem run_nil (d : Display) : d.run [] = d := rfl

@[simp] theorem run_cons (d : Display) (c : ConsoleCall) (rest : List ConsoleCall) :
    d.run (c :: rest) = (d.perform c).run rest := rfl

/-- Calls in two pieces. -/
theorem run_append (d : Display) (first rest : List ConsoleCall) :
    d.run (first ++ rest) = (d.run first).run rest :=
  List.foldl_append

/-- What the display shows. -/
def shown (d : Display) : Grid Nat := Grid.map Subtype.val d.screen

/-- The display has the geometry of the terminal. -/
def Fits (d : Display) (t : Terminal) : Prop := d.columns = t.columns ∧ d.rows = t.rows

/-! ### Text without control characters -/

/-- Text that stays left of the right edge. -/
theorem print_inside (d : Display) (text : Nat → Nat) (count : Nat)
    (htext : ∀ n, n < count → ¬ Control (text n)) (hedge : d.column + count < d.columns) :
    ∃ screen, ((List.range count).map text).foldl print d =
        { d with column := d.column + count, screen := screen } ∧
      Grid.map Subtype.val screen = fun i j =>
        if i = d.row ∧ d.column ≤ j ∧ j < d.column + count then text (j - d.column)
        else d.shown i j := by
  induction count with
  | zero =>
      refine ⟨d.screen, rfl, ?_⟩
      funext i j
      rw [if_neg (by omega)]
      rfl
  | succ n ih =>
      obtain ⟨screen, hprinted, hshown⟩ := ih (fun m hm => htext m (by omega)) (by omega)
      have hlast := htext n (by omega)
      refine ⟨screen.fill d.row 1 (d.column + n) (d.column + n + 1) ⟨text n, hlast⟩, ?_, ?_⟩
      · rw [List.range_succ, List.map_append, List.foldl_append, hprinted]
        simp only [List.map_cons, List.map_nil, List.foldl_cons, List.foldl_nil, print,
          dif_pos hlast, printOrdinary]
        exact if_pos hedge
      · rw [Grid.map_fill, hshown]
        funext i j
        simp only [Grid.fill]
        grind

/-- The display scrolled up one row. -/
def scrolled (d : Display) (shown : Grid Nat) : Grid Nat :=
  shown.shiftUp 0 (d.rows - 1) 1 d.columns 0x20

/-- Text that may end at the right edge.  In the bottom row the display scrolls
if it does. -/
theorem print_run (d : Display) (text : Nat → Nat) {count : Nat} (hpos : 0 < count)
    (htext : ∀ n, n < count → ¬ Control (text n)) (hedge : d.column + count ≤ d.columns)
    (hrow : d.row < d.rows) :
    ∃ d', ((List.range count).map text).foldl print d = d' ∧
      d'.columns = d.columns ∧ d'.rows = d.rows ∧
      d'.shown =
        let painted : Grid Nat := fun i j =>
          if i = d.row ∧ d.column ≤ j ∧ j < d.column + count then text (j - d.column)
          else d.shown i j
        if d.row + 1 = d.rows ∧ d.column + count = d.columns then d.scrolled painted
        else painted := by
  obtain ⟨n, rfl⟩ : ∃ n, count = n + 1 := ⟨count - 1, by omega⟩
  obtain ⟨screen, hprinted, hshown⟩ :=
    print_inside d text n (fun m hm => htext m (by omega)) (by omega)
  have hlast := htext n (by omega)
  have hpainted : Grid.map Subtype.val
      (screen.fill d.row 1 (d.column + n) (d.column + n + 1) ⟨text n, hlast⟩) = fun i j =>
        if i = d.row ∧ d.column ≤ j ∧ j < d.column + (n + 1) then text (j - d.column)
        else d.shown i j := by
    rw [Grid.map_fill, hshown]
    funext i j
    simp only [Grid.fill]
    grind
  refine ⟨_, rfl, ?_⟩
  rw [List.range_succ, List.map_append, List.foldl_append, hprinted]
  simp only [List.map_cons, List.map_nil, List.foldl_cons, List.foldl_nil, print, dif_pos hlast,
    printOrdinary]
  by_cases hinside : d.column + n + 1 < d.columns
  · rw [if_pos hinside, if_neg (by omega)]
    exact ⟨rfl, rfl, hpainted⟩
  · rw [if_neg hinside]
    unfold lineFeed
    by_cases hbottom : d.row + 1 < d.rows
    · rw [if_pos hbottom, if_neg (by omega)]
      exact ⟨rfl, rfl, hpainted⟩
    · rw [if_neg hbottom, if_pos (by omega)]
      refine ⟨rfl, rfl, ?_⟩
      exact (Grid.map_shiftUp _ _ _ _ _ _ _).trans (congrArg d.scrolled hpainted)

/-- What is to be seen once the dirty cells of the first `n` rows are painted. -/
def target (d : Display) (t : Terminal) (n : Nat) : Grid Nat := fun i j =>
  if i < n ∧ t.Dirty i j then (t.active i j).character else d.shown i j

/-- Painting the cells of one line run by run. -/
theorem run_runs {line : Nat → Cell} {row last position : Nat} {calls : List ConsoleCall}
    (h : Runs line row last position calls) (d : Display) (hrow : row < d.rows)
    (hlast : last < d.columns)
    (hline : ∀ j, position ≤ j → j ≤ last → ¬ Control (line j).character) :
    (d.run calls).columns = d.columns ∧ (d.run calls).rows = d.rows ∧
      (d.run calls).shown =
        let painted : Grid Nat := fun i j =>
          if i = row ∧ position ≤ j ∧ j ≤ last then (line j).character else d.shown i j
        if row + 1 = d.rows ∧ last + 1 = d.columns ∧ position ≤ last then d.scrolled painted
        else painted := by
  induction h generalizing d with
  | done hend =>
      refine ⟨rfl, rfl, ?_⟩
      simp only
      rw [if_neg (by omega)]
      funext i j
      rw [if_neg (by omega), run_nil]
  | @run position count calls hpos hend hattr hrest ih =>
      obtain ⟨d', hprint, hcolumns, hrows, hshown⟩ := print_run
        { d with column := position, row := row } (fun n => (line (position + n)).character) hpos
        (fun n hn => hline _ (by omega) (by omega)) (show position + count ≤ d.columns by omega)
        hrow
      have hfirst : d.run (runCalls line row position count) = d' := hprint
      obtain ⟨hcolumns', hrows', hshown'⟩ := ih d' (hrows ▸ hrow) (hcolumns ▸ hlast)
        (fun j hj => hline j (by omega))
      rw [run_append, hfirst]
      refine ⟨hcolumns'.trans hcolumns, hrows'.trans hrows, ?_⟩
      have hcolumns_eq : d'.columns = d.columns := hcolumns
      have hrows_eq : d'.rows = d.rows := hrows
      have hfirst_shown : (fun i j => if i = row ∧ position ≤ j ∧ j < position + count then
            (line (position + (j - position))).character else d.shown i j) = fun i j =>
          if i = row ∧ position ≤ j ∧ j < position + count then (line j).character
          else d.shown i j := by
        funext i j
        by_cases hin : i = row ∧ position ≤ j ∧ j < position + count
        · rw [if_pos hin, if_pos hin, show position + (j - position) = j by omega]
        · rw [if_neg hin, if_neg hin]
      simp only [hrows_eq, hcolumns_eq] at hshown'
      replace hshown : d'.shown = if row + 1 = d.rows ∧ position + count = d.columns then
          d.scrolled (fun i j => if i = row ∧ position ≤ j ∧ j < position + count then
            (line j).character else d.shown i j)
        else fun i j => if i = row ∧ position ≤ j ∧ j < position + count then
          (line j).character else d.shown i j := by
        rw [← hfirst_shown]
        exact hshown
      simp only
      by_cases hmore : position + count ≤ last
      · -- the first run stays left of the right edge
        rw [if_neg (by omega)] at hshown
        have hboth : (fun i j => if i = row ∧ position + count ≤ j ∧ j ≤ last then
              (line j).character else d'.shown i j) = fun i j =>
            if i = row ∧ position ≤ j ∧ j ≤ last then (line j).character else d.shown i j := by
          rw [hshown]
          funext i j
          grind
        rw [hshown', hboth]
        simp only [hmore, show position ≤ last by omega, scrolled, hrows_eq, hcolumns_eq]
      · -- the first run is the last one
        have hnone : (fun i j => if i = row ∧ position + count ≤ j ∧ j ≤ last then
              (line j).character else d'.shown i j) = d'.shown := by
          funext i j
          exact if_neg (by omega)
        have hend' : position + count = last + 1 := by omega
        have hstop : (fun i j => if i = row ∧ position ≤ j ∧ j < last + 1 then
              (line j).character else d.shown i j) = fun i j =>
            if i = row ∧ position ≤ j ∧ j ≤ last then (line j).character else d.shown i j := by
          funext i j
          grind
        rw [hshown', if_neg (by omega), hnone, hshown, hend', hstop]
        simp only [show position ≤ last by omega, and_true]

/-- The bottom right place is dirty. -/
def Corner (t : Terminal) : Prop := t.Dirty (t.rows - 1) (t.columns - 1)

instance (t : Terminal) : Decidable (Corner t) := by
  unfold Corner; infer_instance

/-- No dirty place holds a control character. -/
def Printable (t : Terminal) : Prop :=
  ∀ i j, i < t.rows → j < t.columns → t.Dirty i j → ¬ Control (t.active i j).character

/-- Painting the dirty rows shows their cells, and scrolls if the last of them
is the bottom right one. -/
theorem run_painted {t : Terminal} (ht : t.WellFormed) (hprintable : Printable t) {n : Nat}
    {calls : List ConsoleCall} (h : t.Painted n calls) (hn : n ≤ t.rows) (d : Display)
    (hcolumns : d.columns = t.columns) (hrows : d.rows = t.rows) :
    (d.run calls).columns = t.columns ∧ (d.run calls).rows = t.rows ∧
      (d.run calls).shown =
        if n = t.rows ∧ Corner t then d.scrolled (d.target t n) else d.target t n := by
  induction h with
  | zero =>
      have hpos := ht.rows_pos
      refine ⟨hcolumns, hrows, ?_⟩
      rw [if_neg (by omega)]
      funext i j
      exact (if_neg (by omega)).symm
  | @row n calls rowCalls hcalls hrow ih =>
      obtain ⟨hcolumns', hrows', hshown⟩ := ih (by omega)
      have hend := ht.dirty_end n (by omega)
      rw [if_neg (by omega)] at hshown
      rw [run_append]
      unfold Terminal.RowPainted at hrow
      by_cases hdirty : t.DirtyRow n
      · rw [if_pos hdirty] at hrow
        obtain ⟨hcolumns'', hrows'', hpainted⟩ := run_runs hrow (d.run calls) (by omega) (by omega)
          (fun j hstart hlast => hprintable n j (by omega) (by omega) ⟨hstart, hlast⟩)
        refine ⟨hcolumns''.trans hcolumns', hrows''.trans hrows', hpainted.trans ?_⟩
        have htarget : (fun i j => if i = n ∧ t.dirtyStart n ≤ j ∧ j ≤ t.dirtyEnd n then
              (t.active n j).character else (d.run calls).shown i j) = d.target t (n + 1) := by
          rw [hshown]
          funext i j
          unfold target Terminal.Dirty
          grind
        have hcorner : (n + 1 = (d.run calls).rows ∧ t.dirtyEnd n + 1 = (d.run calls).columns ∧
            t.dirtyStart n ≤ t.dirtyEnd n) ↔ (n + 1 = t.rows ∧ Corner t) := by
          unfold Corner Terminal.Dirty
          unfold Terminal.DirtyRow at hdirty
          have hlast (heq : n + 1 = t.rows) : t.rows - 1 = n := by omega
          constructor
          · intro hall
            obtain ⟨heq, hedge, hle⟩ := hall
            rw [hlast (by omega)]
            omega
          · intro hboth
            obtain ⟨heq, hreach⟩ := hboth
            rw [hlast heq] at hreach
            omega
        rw [hrows', hcolumns'] at hcorner
        simp only [htarget, scrolled, hrows', hcolumns', hrows, hcolumns, hcorner]
      · have hclean (j : Nat) : ¬ t.Dirty n j := by
          unfold Terminal.DirtyRow at hdirty
          unfold Terminal.Dirty
          omega
        rw [if_neg hdirty] at hrow
        rw [hrow, run_nil]
        refine ⟨hcolumns', hrows', hshown.trans ?_⟩
        have hcorner : ¬ (n + 1 = t.rows ∧ Corner t) := by
          intro hboth
          obtain ⟨heq, hreach⟩ := hboth
          unfold Corner at hreach
          rw [← heq, Nat.add_sub_cancel] at hreach
          exact hclean _ hreach
        rw [if_neg hcorner]
        funext i j
        unfold target
        grind

/-! ### Exactly when a flush paints faithfully -/

/-- After a flush every dirty place shows its cell, and every other place shows
what it showed before. -/
def Faithful (t : Terminal) (d : Display) : Prop :=
  ∃ t' sent, t.flush = .ok t' ∧ t'.conOut = t.conOut ++ sent ∧
    ∀ i j, i < t.rows → j < t.columns →
      (d.run sent).shown i j = if t.Dirty i j then (t.active i j).character else d.shown i j

/-- The screen that is to be seen after the flush is empty. -/
def Blank (t : Terminal) (d : Display) : Prop :=
  ∀ i j, i < t.rows → j < t.columns →
    (if t.Dirty i j then (t.active i j).character else d.shown i j) = 0x20

/-- The calls of a flush draw the dirty cells, and the corner scrolls. -/
theorem run_flushCalls {t : Terminal} (ht : t.WellFormed) (hprintable : Printable t)
    {painting : List ConsoleCall} (hpainting : t.Painted t.rows painting) (d : Display)
    (hcolumns : d.columns = t.columns) (hrows : d.rows = t.rows) :
    (d.run (t.flushCalls painting)).shown =
      if Corner t then d.scrolled (d.target t t.rows) else d.target t t.rows := by
  obtain ⟨-, -, hshown⟩ := run_painted ht hprintable hpainting (Nat.le_refl _)
    (d.perform (.enableCursor false)) hcolumns hrows
  simp only [true_and] at hshown
  unfold Terminal.flushCalls
  rw [run_append, run_append]
  exact hshown

/-- A grid that does not change when it is scrolled is empty: the bottom row is,
and every row is like the one below it. -/
theorem blank_of_scrolled {rows columns : Nat} {g : Grid Nat}
    (h : ∀ i j, i < rows → j < columns → g.shiftUp 0 (rows - 1) 1 columns 0x20 i j = g i j) :
    ∀ i j, i < rows → j < columns → g i j = 0x20 := by
  have hup : ∀ k j, k < rows → j < columns → g (rows - 1 - k) j = 0x20 := by
    intro k
    induction k with
    | zero =>
        intro j hk hj
        have hbottom := h (rows - 1) j (by omega) hj
        unfold Grid.shiftUp at hbottom
        rw [if_pos (by omega), if_neg (by omega)] at hbottom
        exact hbottom.symm
    | succ n ih =>
        intro j hk hj
        have hrow := h (rows - 1 - (n + 1)) j (by omega) hj
        unfold Grid.shiftUp at hrow
        rw [if_pos (by omega), if_pos (by omega),
          show rows - 1 - (n + 1) + 1 = rows - 1 - n by omega] at hrow
        rw [← hrow]
        exact ih j (by omega) hj
  intro i j hi hj
  have hrow := hup (rows - 1 - i) j (by omega) hj
  rwa [show rows - 1 - (rows - 1 - i) = i by omega] at hrow

/-- An empty grid does not change when it is scrolled. -/
theorem scrolled_of_blank {rows columns : Nat} {g : Grid Nat}
    (h : ∀ i j, i < rows → j < columns → g i j = 0x20) :
    ∀ i j, i < rows → j < columns → g.shiftUp 0 (rows - 1) 1 columns 0x20 i j = g i j := by
  intro i j hi hj
  unfold Grid.shiftUp
  rw [if_pos (by omega), h i j hi hj]
  split
  · exact h (i + 1) j (by omega) hj
  · rfl

/-- A flush is faithful exactly if no corner spoils it. -/
theorem faithful_iff {t : Terminal} (ht : t.WellFormed) (d : Display)
    (hcolumns : d.columns = t.columns) (hrows : d.rows = t.rows) :
    Faithful t d ↔ Printable t ∧ (¬ Corner t ∨ Blank t d) := by
  have htarget {i j : Nat} (hi : i < t.rows) : d.target t t.rows i j =
      if t.Dirty i j then (t.active i j).character else d.shown i j := by
    simp only [target, hi, true_and]
  have hscrolled (g : Grid Nat) : d.scrolled g = g.shiftUp 0 (t.rows - 1) 1 t.columns 0x20 := by
    rw [scrolled, hcolumns, hrows]
  obtain ⟨buffer, painting, hflush, hpainting⟩ := ht.flush_eq
  constructor
  · intro hall
    obtain ⟨t', sent, hok, hsent, hshown⟩ := hall
    rw [hflush] at hok
    obtain rfl := Except.ok.inj hok
    obtain rfl : t.flushCalls painting = sent := List.append_cancel_left hsent
    have hprintable : Printable t := by
      intro i j hi hj hdirty hcontrol
      have hcell := hshown i j hi hj
      rw [if_pos hdirty] at hcell
      have hseen : ((d.run (t.flushCalls painting)).screen i j).val =
          (t.active i j).character := hcell
      exact ((d.run (t.flushCalls painting)).screen i j).property (by rwa [hseen])
    refine ⟨hprintable, ?_⟩
    by_cases hcorner : Corner t
    · right
      rw [run_flushCalls ht hprintable hpainting d hcolumns hrows, if_pos hcorner, hscrolled]
        at hshown
      have hblank := blank_of_scrolled (g := d.target t t.rows) fun i j hi hj => by
        rw [hshown i j hi hj, htarget hi]
      intro i j hi hj
      rw [← htarget hi]
      exact hblank i j hi hj
    · exact .inl hcorner
  · intro hboth
    obtain ⟨hprintable, hcase⟩ := hboth
    refine ⟨_, t.flushCalls painting, hflush, rfl, ?_⟩
    intro i j hi hj
    rw [run_flushCalls ht hprintable hpainting d hcolumns hrows, ← htarget hi]
    by_cases hcorner : Corner t
    · rcases hcase with hclean | hblank
      · exact absurd hcorner hclean
      · rw [if_pos hcorner, hscrolled]
        refine scrolled_of_blank (fun i j hi hj => ?_) i j hi hj
        rw [htarget hi]
        exact hblank i j hi hj
    · rw [if_neg hcorner]

/-- **A flush paints without side effects exactly when** no dirty place holds a
control character and either the bottom right place is clean or the whole
screen is to be empty. -/
theorem flush_faithful_iff {t : Terminal} (h : t.Reachable) (column row : Nat)
    (screen : Grid Ordinary) :
    Faithful t ⟨t.columns, t.rows, column, row, screen⟩ ↔
      Printable t ∧ (¬ Corner t ∨ Blank t ⟨t.columns, t.rows, column, row, screen⟩) :=
  faithful_iff h.wellFormed _ rfl rfl

/-- `CSI 2;2 H A` on a screen of two rows and two columns. -/
def cornerTerminal : Terminal :=
  Screen.feed (Terminal.Firmware.ample 2 2 7).fresh [0x1b, 0x5b, 0x32, 0x3b, 0x32, 0x48, 0x41]

/-- The corner is reached. -/
theorem cornerTerminal_reachable : cornerTerminal.Reachable :=
  (Terminal.created_ample 2 2 7).reachable.feed _

/-- A letter in the last cell of a screen of two rows. -/
theorem flush_faithful_corner :
    Faithful cornerTerminal ⟨2, 2, 0, 0, fun _ _ => .space⟩ ↔
      Printable cornerTerminal ∧
        (¬ Corner cornerTerminal ∨ Blank cornerTerminal ⟨2, 2, 0, 0, fun _ _ => .space⟩) :=
  flush_faithful_iff cornerTerminal_reachable 0 0 fun _ _ => .space

/-- The character in the bottom right corner scrolls out of its place. -/
theorem flush_scrolls_at_corner :
    cornerTerminal.Reachable ∧ ¬ Faithful cornerTerminal ⟨2, 2, 0, 0, fun _ _ => .space⟩ := by
  refine ⟨cornerTerminal_reachable, ?_⟩
  rw [faithful_iff cornerTerminal_reachable.wellFormed _ rfl rfl]
  intro hboth
  obtain ⟨-, hclean | hblank⟩ := hboth
  · exact hclean (by decide)
  · have hcell := hblank 1 1 (by decide) (by decide)
    revert hcell
    decide

end Display

end WolfSshUefi
