import WolfSshUefi.Terminal.Rendition
import WolfSshUefi.Terminal.Trimming

/-!
# A full reset

`ESC c` blanks the screen, homes the cursor, opens the margins and restores the
colours.  It leaves alone the deferred wrap, insert mode, the cursor modes and
the saved cursor, and a skipped string swallows it.  So what follows looks as on
a new terminal exactly when none of these can be seen (`full_reset_iff`).
-/

namespace WolfSshUefi

/-- One screen to the user: the characters in the active buffer, the cursor, its
modes and the margins. -/
structure SameDisplay (t u : Terminal) : Prop where
  geometry : t.rows = u.rows ∧ t.columns = u.columns
  characters : ∀ i j, i < t.rows → j < t.columns →
    (t.active i j).character = (u.active i j).character
  cursor : t.row = u.row ∧ t.column = u.column
  modes : t.cursorVisible = u.cursorVisible ∧ t.applicationCursor = u.applicationCursor
  margins : t.scrollTop = u.scrollTop ∧ t.scrollBottom = u.scrollBottom

namespace SameDisplay

variable {t u v : Terminal}

/-- A display is the same as itself. -/
theorem refl (t : Terminal) : SameDisplay t t :=
  ⟨⟨rfl, rfl⟩, fun _ _ _ _ => rfl, ⟨rfl, rfl⟩, ⟨rfl, rfl⟩, ⟨rfl, rfl⟩⟩

/-- Being the same display is mutual. -/
theorem symm (h : SameDisplay t u) : SameDisplay u t where
  geometry := ⟨h.geometry.1.symm, h.geometry.2.symm⟩
  characters := fun i j hi hj =>
    (h.characters i j (h.geometry.1 ▸ hi) (h.geometry.2 ▸ hj)).symm
  cursor := ⟨h.cursor.1.symm, h.cursor.2.symm⟩
  modes := ⟨h.modes.1.symm, h.modes.2.symm⟩
  margins := ⟨h.margins.1.symm, h.margins.2.symm⟩

theorem trans (h : SameDisplay t u) (h' : SameDisplay u v) : SameDisplay t v where
  geometry := ⟨h.geometry.1.trans h'.geometry.1, h.geometry.2.trans h'.geometry.2⟩
  characters := fun i j hi hj =>
    (h.characters i j hi hj).trans (h'.characters i j (h.geometry.1 ▸ hi) (h.geometry.2 ▸ hj))
  cursor := ⟨h.cursor.1.trans h'.cursor.1, h.cursor.2.trans h'.cursor.2⟩
  modes := ⟨h.modes.1.trans h'.modes.1, h.modes.2.trans h'.modes.2⟩
  margins := ⟨h.margins.1.trans h'.margins.1, h.margins.2.trans h'.margins.2⟩

/-- Terminals with one view have one display. -/
theorem of_view (h : t.view = u.view) : SameDisplay t u := by
  have hactive (s : Terminal) : s.view.active =
      (s.active.clip s.rows s.columns Terminal.plainBlank).map Cell.plain := by
    rw [Terminal.view, Terminal.active_plain, Terminal.active_trim]
  have hfields : SameDisplay t.view u.view := h ▸ SameDisplay.refl t.view
  have hgeometry : t.rows = u.rows ∧ t.columns = u.columns := hfields.geometry
  refine ⟨hgeometry, ?_, hfields.cursor, hfields.modes, hfields.margins⟩
  intro i j hi hj
  have hcell := hfields.characters i j hi hj
  have ht : i < t.rows ∧ j < t.columns := ⟨hi, hj⟩
  have hu : i < u.rows ∧ j < u.columns := ⟨hgeometry.1 ▸ hi, hgeometry.2 ▸ hj⟩
  rw [hactive, hactive] at hcell
  simp only [Grid.map, Grid.clip, if_pos ht, if_pos hu] at hcell
  exact hcell

/-- So have terminals that are plainly the same. -/
theorem of_plain (h : t.plain = u.plain) : SameDisplay t u := by
  apply of_view
  rw [Terminal.view_eq_trim_plain, Terminal.view_eq_trim_plain, h]

/-- A pending wrap does not show. -/
theorem cancelWrap (t : Terminal) : SameDisplay (Screen.cancelWrap t) t :=
  ⟨⟨rfl, rfl⟩, fun _ _ _ _ => rfl, ⟨rfl, rfl⟩, ⟨rfl, rfl⟩, ⟨rfl, rfl⟩⟩

theorem withParser (t : Terminal) (p : Parser) : SameDisplay (t.withParser p) t :=
  ⟨⟨rfl, rfl⟩, fun _ _ _ _ => rfl, ⟨rfl, rfl⟩, ⟨rfl, rfl⟩, ⟨rfl, rfl⟩⟩

end SameDisplay

/-- `ESC c` -/
def resetSequence : List UInt8 := [0x1b, 0x63]

namespace Terminal

/-- Whatever bytes follow, `ESC c` and they leave the screen that they leave on the
terminal `fresh`. -/
def FullReset (t fresh : Terminal) : Prop :=
  ∀ w, ∃ u v, t.feed (resetSequence ++ w) = .ok u ∧ fresh.feed w = .ok v ∧ SameDisplay u v

/-- Nothing that `ESC c` leaves alone can be seen. -/
structure ResetComplete (t : Terminal) : Prop where
  listening : t.parser.Listening
  wrap : t.wrapPending = false ∨ t.rows = 1
  insert : t.insertMode = false ∨ t.columns = 1
  visible : t.cursorVisible = true
  cursorKeys : t.applicationCursor = false
  savedRow : t.savedRow = 0 ∨ t.rows = 1
  savedColumn : t.savedColumn = 0 ∨ t.columns = 1

/-- A terminal of the same geometry and default colours. -/
structure SameConsole (t fresh : Terminal) : Prop where
  rows : fresh.rows = t.rows
  columns : fresh.columns = t.columns
  foreground : fresh.defaultForeground = t.defaultForeground
  background : fresh.defaultBackground = t.defaultBackground

end Terminal

namespace Screen

open Terminal

variable {t : Terminal}

/-- The parser after `ESC c`. -/
def afterReset (p : Parser) : Parser := { p with state := .ground, utf8Remaining := 0 }

/-- `ESC c` is read as a reset, whatever was read before. -/
theorem commands_reset {p : Parser} (h : p.Listening) (w : List UInt8) :
    p.commands (resetSequence ++ w) = .reset :: (afterReset p).commands w ∧
      p.after resetSequence = afterReset p := by
  have hescape := Parser.next_escape h
  have hreset : ({ p with state := .escape, utf8Remaining := 0 } : Parser).next 0x63 =
      (afterReset p, [.reset]) := rfl
  constructor
  · simp only [resetSequence, List.cons_append, List.nil_append, Parser.commands_cons, hescape,
      hreset]
  · simp only [resetSequence, Parser.after_cons, hescape, hreset, Parser.after_nil]

/-- Feeding `ESC c` resets the terminal. -/
theorem feed_reset (h : t.parser.Listening) :
    feed t resetSequence = (reset t).withParser (afterReset t.parser) := by
  have hcommands := (commands_reset h []).1
  rw [List.append_nil] at hcommands
  rw [feed_eq_execAll, hcommands, (commands_reset h []).2]
  rfl

/-- A complete reset brings back the view of a new terminal. -/
theorem view_reset {fw : Firmware} (hprimary : t.alternateActive = false) (ht : t.WellFormed)
    (hsame : t.SameConsole fw.fresh) (h : t.ResetComplete) :
    (cancelWrap (reset t)).view = fw.fresh.view := by
  have hcells : t.cells = .primary := by
    rw [ht.cells_eq, hprimary]
    rfl
  have hrows := ht.rows_pos
  have hcolumns := ht.columns_pos
  obtain ⟨hfreshRows, hfreshColumns, hforeground, hbackground⟩ := hsame
  have hgrid : (t.primary.fill 0 t.rows 0 t.columns t.defaultBlank).clip t.rows t.columns
      plainBlank = fw.fresh.primary.clip t.rows t.columns plainBlank := by
    have hfresh : fw.fresh.primary =
        fw.primaryPool.fill 0 fw.fresh.rows 0 fw.fresh.columns fw.fresh.defaultBlank := rfl
    have hblank : fw.fresh.defaultBlank = t.defaultBlank := by
      simp only [defaultBlank, hforeground, hbackground]
    rw [hfresh, hfreshRows, hfreshColumns, hblank]
    exact Grid.clip_fill_all ..
  have hsavedRow : min t.savedRow (t.rows - 1) = 0 := by
    rcases h.savedRow with hzero | hone <;> omega
  have hsavedColumn : min t.savedColumn (t.columns - 1) = 0 := by
    rcases h.savedColumn with hzero | hone <;> omega
  have hinsert : (t.insertMode && decide (1 < t.columns)) = false := by
    rcases h.insert with hoff | hone
    · simp [hoff]
    · simp [hone]
  have hcleared : (cancelWrap (reset t)).primary =
      t.primary.fill 0 t.rows 0 t.columns t.defaultBlank := by
    simp [cancelWrap, reset, clear, clearScreen, edit, editBuffer, hcells, defaultBlank]
  have hkept : (cancelWrap (reset t)).cells = .primary ∧ fw.fresh.cells = .primary :=
    ⟨hcells, rfl⟩
  simp only [view, trim, plain, Terminal.mk.injEq, true_and, and_true, hkept, hcleared,
    hfreshRows, hfreshColumns]
  refine ⟨rfl, rfl, congrArg (Grid.map Cell.plain) hgrid, rfl, rfl, rfl, ?_, ?_, rfl, rfl, rfl, ?_,
    h.visible, h.cursorKeys, ?_, rfl, hprimary⟩
  · exact hsavedRow.trans (Nat.zero_min _).symm
  · exact hsavedColumn.trans (Nat.zero_min _).symm
  · have hbottom : fw.fresh.scrollBottom = fw.fresh.rows - 1 := rfl
    rw [hbottom, hfreshRows]
    rfl
  · exact hinsert

/-- A pending wrap at home on a single blank line goes unseen. -/
theorem narrow_reset (hrows : t.rows = 1) (hsaved : t.savedColumn = 0 ∨ t.columns = 1) :
    (reset t).Narrow where
  rows := hrows
  column := rfl
  savedColumn := by
    change min t.savedColumn (t.columns - 1) = 0
    rcases hsaved with hzero | hone <;> omega
  blank := by
    intro j hj
    change (if t.insertMode then j + 1 < t.columns else 1 ≤ j ∧ j < t.columns) at hj
    have hin : j < t.columns := by split at hj <;> omega
    have hactive : (reset t).active = t.active.fill 0 t.rows 0 t.columns t.defaultBlank :=
      t.active_edit fun cells => cells.fill 0 t.rows 0 t.columns t.defaultBlank
    rw [hactive]
    unfold Grid.fill
    rw [if_pos (by omega)]
    rfl

/-- A wrap that is not pending, or on a screen too narrow for it, makes no difference. -/
theorem sameScreen_feed_cancelWrap (ht : t.WellFormed)
    (h : t.wrapPending = false ∨ t.Narrow) (w : List UInt8) :
    SameDisplay (feed t w) (feed (cancelWrap t) w) := by
  rcases h with hclear | hnarrow
  · rw [cancelWrap_of_not_pending hclear]
    exact .refl _
  · rcases feed_narrow ht hnarrow w with hplain | hcancel
    · exact .of_plain hplain.symm
    · rw [hcancel]
      exact (SameDisplay.cancelWrap _).symm

/-- A complete reset is a full one. -/
theorem fullReset_of_complete {fw : Firmware} (hprimary : t.alternateActive = false)
    (ht : t.WellFormed) (hsame : t.SameConsole fw.fresh) (h : t.ResetComplete) :
    t.FullReset fw.fresh := by
  intro w
  refine ⟨_, _, ht.feed_eq _, (fresh_wellFormed fw).feed_eq _, ?_⟩
  have hreset := feed_reset h.listening
  have hwell : (feed t resetSequence).WellFormed := ht.feed resetSequence
  rw [feed_append, hreset]
  rw [hreset] at hwell
  have hcase : t.wrapPending = false ∨ ((reset t).withParser (afterReset t.parser)).Narrow := by
    rcases h.wrap with hclear | hrows
    · exact .inl hclear
    · exact .inr { narrow_reset hrows h.savedColumn with }
  apply (sameScreen_feed_cancelWrap hwell hcase w).trans
  apply SameDisplay.of_view
  have hview : (cancelWrap (reset t)).view = fw.fresh.view := view_reset hprimary ht hsame h
  exact view_feed hwell.cancelWrap (fresh_wellFormed fw) hview (.of_ground rfl rfl rfl rfl) w

/-! ### What a full reset needs -/

/-- In a skipped string only `BEL` and a backslash matter. -/
theorem skipped_silent {p : Parser} (h : ¬ p.Listening) {data : List UInt8}
    (hdata : ∀ b ∈ data, b ≠ 0x07 ∧ b ≠ 0x5c) : p.commands data = [] := by
  induction data generalizing p with
  | nil => rfl
  | cons byte rest ih =>
      obtain ⟨hbell, hbackslash⟩ := hdata byte List.mem_cons_self
      have hnext : (p.next byte).2 = [] ∧ ¬ (p.next byte).1.Listening := by
        have hstate : p.state = .osc ∨ p.state = .oscEscape := by
          by_contra hnot
          exact h (not_or.mp hnot)
        unfold Parser.next Parser.Listening
        rcases hstate with hosc | hescape
        · by_cases hesc : byte = 0x1b <;> simp [hosc, hesc, hbell]
        · by_cases hesc : byte = 0x1b <;> simp [hescape, hesc, hbackslash]
      rw [Parser.commands_cons, hnext.1]
      exact ih hnext.2 fun b hb => hdata b (List.mem_cons_of_mem _ hb)

variable {fw : Firmware}

/-- `CSI ? 1 h` tells whether the reset was swallowed. -/
theorem listening_of_fullReset (h : t.FullReset fw.fresh) (ht : t.WellFormed) :
    t.parser.Listening := by
  by_contra hskipped
  have hkept {w : List UInt8} (hw : ∀ b ∈ resetSequence ++ w, b ≠ 0x07 ∧ b ≠ 0x5c) :
      (feed fw.fresh w).applicationCursor = t.applicationCursor := by
    obtain ⟨u, v, hu, hv, hsame⟩ := h w
    rw [ht.feed_eq, Except.ok.injEq] at hu
    rw [(fresh_wellFormed fw).feed_eq, Except.ok.injEq] at hv
    rw [hv, ← hsame.modes.2, ← hu, feed_eq_execAll, skipped_silent hskipped hw]
    rfl
  have hset : fw.fresh.parser.commands (controlSequence [0x3f, 0x31] 0x68) =
      [.cancelWrap, .applicationCursor true] := rfl
  have hoff := hkept (w := []) (by decide +kernel)
  have hon := hkept (w := controlSequence [0x3f, 0x31] 0x68) (by decide +kernel)
  rw [feed_eq_execAll, hset] at hon
  have hboth : true = false := Eq.trans hon hoff.symm
  cases hboth

/-- After a full reset both terminals show the same, whatever comes. -/
theorem same_of_fullReset (h : t.FullReset fw.fresh) (ht : t.WellFormed)
    (hlisten : t.parser.Listening) (w : List UInt8) :
    SameDisplay (execAll (reset t) (fw.fresh.parser.commands w))
      (execAll fw.fresh (fw.fresh.parser.commands w)) := by
  obtain ⟨u, v, hu, hv, hsame⟩ := h w
  rw [ht.feed_eq, Except.ok.injEq, feed_append, feed_reset hlisten, feed_eq_execAll] at hu
  rw [(fresh_wellFormed fw).feed_eq, Except.ok.injEq, feed_eq_execAll] at hv
  have hcommands : ((reset t).withParser (afterReset t.parser)).parser.commands w =
      fw.fresh.parser.commands w :=
    Parser.Alike.commands (.of_ground rfl rfl rfl rfl) w
  rw [hcommands, execAll_withParser] at hu
  rw [← hu, ← hv] at hsame
  exact ⟨hsame.geometry, hsame.characters, hsame.cursor, hsame.modes, hsame.margins⟩

/-- A character moves no more than the column, unless a wrap is pending. -/
theorem print_kept (h : t.wrapPending = false) (character : Nat) :
    (print t character).row = t.row ∧ (print t character).rows = t.rows ∧
      (print t character).columns = t.columns ∧
      (print t character).insertMode = t.insertMode := by
  unfold print
  rw [wrap_of_not_pending h]
  unfold write
  split <;> exact ⟨rfl, rfl, rfl, rfl⟩

/-- Two characters, both at the start of the first line. -/
def overtype : List Command :=
  [.carriageReturn, .print 0x41, .carriageReturn, .print 0x42]

/-- The probe keeps the size of the screen. -/
theorem overtype_kept (t : Terminal) :
    (execAll t overtype).rows = t.rows ∧ (execAll t overtype).columns = t.columns := by
  let home : Terminal := { t with column := 0, wrapPending := false }
  let again : Terminal := { print home 0x41 with column := 0, wrapPending := false }
  obtain ⟨-, hrows, hcolumns, -⟩ := print_kept (t := home) rfl 0x41
  obtain ⟨-, hrows', hcolumns', -⟩ := print_kept (t := again) rfl 0x42
  exact ⟨hrows'.trans hrows, hcolumns'.trans hcolumns⟩

/-- The second column tells whether the first character was moved out of the way. -/
theorem character_overtype (hrow : t.row = 0) (hcolumns : 1 < t.columns) :
    ((execAll t overtype).active 0 1).character =
      if t.insertMode then 0x41 else (t.active 0 1).character := by
  -- a character at the start of the first line
  have hprint {u : Terminal} (hpending : u.wrapPending = false) (hrow : u.row = 0)
      (hcolumn : u.column = 0) {j : Nat} (hj : j < u.columns) (character : Nat) :
      ((print u character).active 0 j).character = if j = 0 then character
        else if u.insertMode ∧ 0 < j then (u.active 0 (j - 1)).character
        else (u.active 0 j).character := by
    have hline := character_print hrow hj character
    rw [cancelWrap_of_not_pending hpending, hcolumn] at hline
    exact hline
  let home : Terminal := { t with column := 0, wrapPending := false }
  obtain ⟨hrowKept, -, hcolumnsKept, hinsertKept⟩ := print_kept (t := home) rfl 0x41
  let again : Terminal := { print home 0x41 with column := 0, wrapPending := false }
  have hagain : again.row = 0 ∧ 1 < again.columns ∧ again.insertMode = t.insertMode :=
    ⟨hrowKept.trans hrow, hcolumnsKept.symm ▸ hcolumns, hinsertKept⟩
  have hfirst : (again.active 0 0).character = 0x41 :=
    hprint (u := home) rfl hrow rfl (Nat.lt_trans Nat.zero_lt_one hcolumns) 0x41
  have hsecond : (again.active 0 1).character =
      if t.insertMode then (t.active 0 0).character else (t.active 0 1).character := by
    have hline := hprint (u := home) rfl hrow rfl hcolumns 0x41
    simp only [Nat.zero_lt_one, and_true, if_neg Nat.one_ne_zero] at hline
    exact hline
  have hline := hprint (u := again) rfl hagain.1 rfl hagain.2.1 0x42
  rw [if_neg Nat.one_ne_zero, hagain.2.2] at hline
  change ((print again 0x42).active 0 1).character = _
  rw [hline, hsecond, hfirst]
  cases t.insertMode <;> rfl

/-- A full reset is complete: the probe would show what is left over. -/
theorem complete_of_fullReset (h : t.FullReset fw.fresh) (ht : t.WellFormed)
    (hconsole : t.SameConsole fw.fresh) : t.ResetComplete := by
  have hlisten := listening_of_fullReset h ht
  have hsame := same_of_fullReset h ht hlisten
  have hrestored : min t.savedRow (t.rows - 1) = min 0 (fw.fresh.rows - 1) ∧
      min t.savedColumn (t.columns - 1) = min 0 (fw.fresh.columns - 1) :=
    (hsame [0x1b, 0x38]).cursor
  have hrows := ht.rows_pos
  have hcolumns := ht.columns_pos
  refine ⟨hlisten, ?_, ?_, (hsame []).modes.1, (hsame []).modes.2, ?_, ?_⟩
  · cases hpending : t.wrapPending with
    | false => exact .inl rfl
    | true =>
        right
        by_contra hne
        have hprinted : (print (reset t) 0x41).row = (print fw.fresh 0x41).row :=
          (hsame [0x41]).cursor.1
        have hfresh : (print fw.fresh 0x41).row = 0 := (print_kept rfl 0x41).1
        have hreset := (row_print_pending ht.reset hpending rfl hne rfl 0x41).2
        omega
  · cases hinsert : t.insertMode with
    | false => exact .inl rfl
    | true =>
        right
        by_contra hne
        have htwo : 1 < t.columns := by omega
        have hfreshTwo : 1 < fw.fresh.columns := hconsole.columns ▸ htwo
        have htyped : SameDisplay (execAll (reset t) overtype) (execAll fw.fresh overtype) :=
          hsame [0x0d, 0x41, 0x0d, 0x42]
        have hgeometry := overtype_kept (reset t)
        have hreset := character_overtype (t := reset t) rfl htwo
        have hfresh := character_overtype (t := fw.fresh) rfl hfreshTwo
        have hblank : (fw.fresh.active 0 1).character = 0x20 := by
          have hin : 0 ≤ 0 ∧ 0 < 0 + fw.fresh.rows ∧ 0 ≤ 1 ∧ 1 < fw.fresh.columns := by
            have hfreshRows := hconsole.rows
            omega
          exact congrArg Cell.character (if_pos hin)
        have hmoved : (reset t).insertMode = true := hinsert
        have hkept : fw.fresh.insertMode = false := rfl
        rw [hmoved, if_pos rfl] at hreset
        rw [hkept, hblank] at hfresh
        have hcell := htyped.characters 0 1 (hgeometry.1.symm ▸ hrows) (hgeometry.2.symm ▸ htwo)
        rw [hreset, hfresh] at hcell
        exact absurd hcell (by decide)
  · omega
  · omega

end Screen

namespace Terminal

/-- **`ESC c` is a full reset exactly when** nothing that it leaves alone can be
seen: no string is being skipped, no wrap is pending (unless there is one row),
insert mode is off (unless there is one column), the cursor is visible and its keys
in normal mode, and the saved cursor is at home. -/
theorem full_reset_iff {t fresh : Terminal} (h : Reachable t)
    (hprimary : t.alternateActive = false) (hfresh : Created fresh)
    (hconsole : t.SameConsole fresh) : t.FullReset fresh ↔ t.ResetComplete := by
  obtain ⟨fw, rfl⟩ := hfresh.eq_fresh
  constructor
  · intro hreset
    exact Screen.complete_of_fullReset hreset h.wellFormed hconsole
  · exact Screen.fullReset_of_complete hprimary h.wellFormed hconsole

/-- A screen of two columns and two rows after these bytes. -/
def smallAfter (data : List UInt8) : Terminal := Screen.feed (Firmware.ample 2 2 7).fresh data

/-- The small terminal is reached by feeding it. -/
theorem smallAfter_reachable (data : List UInt8) : Reachable (smallAfter data) :=
  (created_ample 2 2 7).reachable.feed data

/-- After a letter in red. -/
theorem full_reset_red :
    (smallAfter [0x1b, 0x5b, 0x33, 0x31, 0x6d, 0x61]).FullReset (Firmware.ample 2 2 7).fresh ↔
      (smallAfter [0x1b, 0x5b, 0x33, 0x31, 0x6d, 0x61]).ResetComplete :=
  full_reset_iff (smallAfter_reachable _) (by decide) (created_ample 2 2 7)
    ⟨by decide, by decide, by decide, by decide⟩

/-- `CSI ? 1 h`, and the cursor keys stay in application mode after `ESC c`. -/
theorem reset_keeps_application_cursor :
    ∃ t fresh : Terminal, Reachable t ∧ t.alternateActive = false ∧ Created fresh ∧
      t.SameConsole fresh ∧ ¬ t.FullReset fresh := by
  have hreachable := smallAfter_reachable (controlSequence [0x3f, 0x31] 0x68)
  refine ⟨_, _, hreachable, by decide, created_ample 2 2 7,
    ⟨by decide, by decide, by decide, by decide⟩, ?_⟩
  intro hreset
  obtain ⟨u, v, hu, hv, hsame⟩ := hreset []
  rw [hreachable.wellFormed.feed_eq, Except.ok.injEq] at hu
  rw [(created_ample 2 2 7).wellFormed.feed_eq, Except.ok.injEq] at hv
  subst hu hv
  exact absurd hsame.modes.2 (by decide)

end Terminal

end WolfSshUefi
