import WolfSshUefi.Terminal.Layout

/-!
# What the screen still depends on

Part of the state is without a use, now or later: the cells outside the screen,
the alternate buffer and the place to return to while the primary buffer is
active, saved positions beyond the edge, the replies, and insert mode where
there is one column.  `Terminal.trim` forgets it.  What is left, in black and
white, is the `view`, and the view after an instruction depends on the view
before it only (`Screen.view_exec`).
-/

namespace WolfSshUefi

namespace Terminal

/-- A space in black and white. -/
def plainBlank : Cell := ⟨0x20, 0⟩

/-- The terminal without what it will not use. -/
def trim (t : Terminal) : Terminal :=
  { t with
    primary := t.primary.clip t.rows t.columns plainBlank
    alternate := if t.cells = .alternate then t.alternate.clip t.rows t.columns plainBlank
      else fun _ _ => plainBlank
    primaryRow := if t.cells = .alternate then t.primaryRow else 0
    primaryColumn := if t.cells = .alternate then t.primaryColumn else 0
    savedRow := min t.savedRow (t.rows - 1)
    savedColumn := min t.savedColumn (t.columns - 1)
    insertMode := t.insertMode && decide (1 < t.columns)
    replies := fun _ => 0, replyLength := 0 }

/-- What is left in black and white. -/
def view (t : Terminal) : Terminal := t.trim.plain

/-- The view of a choice. -/
theorem view_ite (P : Prop) [Decidable P] (t u : Terminal) :
    (if P then t else u).view = if P then t.view else u.view :=
  apply_ite Terminal.view P t u

/-- The buffer that is shown, on the screen only. -/
theorem active_trim (t : Terminal) :
    t.trim.active = t.active.clip t.rows t.columns plainBlank := by
  cases h : t.cells <;> simp [active, trim, h]

/-- An edit that looks at the screen only. -/
theorem trim_edit (t : Terminal) {f g : Grid Cell → Grid Cell}
    (h : (f t.active).clip t.rows t.columns plainBlank =
      (g (t.active.clip t.rows t.columns plainBlank)).clip t.rows t.columns plainBlank) :
    (t.edit f).trim = (t.trim.edit g).trim := by
  cases hcells : t.cells with
  | primary =>
      simp only [active, hcells] at h
      simp [trim, edit, editBuffer, hcells, h]
  | alternate =>
      simp only [active, hcells] at h
      simp [trim, edit, editBuffer, hcells, h, Grid.clip_clip]

/-- A trimmed terminal is trimmed already. -/
theorem trim_trim (t : Terminal) : t.trim.trim = t.trim := by
  cases hcells : t.cells with
  | primary => simp [trim, hcells, Grid.clip_clip]
  | alternate => simp [trim, hcells, Grid.clip_clip]

/-- First trimmed, or first made black and white. -/
theorem view_eq_trim_plain (t : Terminal) : t.view = t.plain.trim := by
  have hblank : plainBlank.plain = plainBlank := rfl
  cases hcells : t.cells with
  | primary =>
      simp [view, trim, plain, hcells, Grid.map_clip, hblank]
      rfl
  | alternate => simp [view, trim, plain, hcells, Grid.map_clip, hblank]

/-- Nothing outside the screen is in view. -/
@[simp] theorem view_trim (t : Terminal) : t.trim.view = t.view := by
  rw [view, trim_trim]
  rfl

end Terminal

namespace Screen

open Terminal

/-- Dirty intervals are not in view. -/
@[simp] theorem view_mark (t : Terminal) (first count left right : Nat) :
    (mark t first count left right).view = t.view := rfl

@[simp] theorem view_withParser (t : Terminal) (p : Parser) : (t.withParser p).view = t.view := rfl

/-! Every operation can be done on the trimmed screen. -/

/-- An edit that does the same on the screen comes into view the same. -/
theorem view_edit (t : Terminal) {f g : Grid Cell → Grid Cell}
    (h : (f t.active).clip t.rows t.columns plainBlank =
      (g (t.active.clip t.rows t.columns plainBlank)).clip t.rows t.columns plainBlank) :
    (t.edit f).view = (t.trim.edit g).view :=
  congrArg Terminal.plain (t.trim_edit h)

/-- Erasing looks at the screen only. -/
theorem view_erase (t : Terminal) (first count left right : Nat) (cell : Cell) :
    (erase t first count left right cell).view =
      (erase t.trim first count left right cell).view := by
  simp only [erase, view_mark]
  exact view_edit t (Grid.clip_fill ..)

theorem view_clear (t : Terminal) : (clear t).view = (clear t.trim).view :=
  view_edit t (Grid.clip_fill ..)

/-- So does moving rows up between the margins. -/
theorem view_moveUp {t : Terminal} (ht : t.scrollBottom < t.rows) (top count : Nat) :
    (moveUp t top count).view = (moveUp t.trim top count).view := by
  simp only [moveUp, view_mark]
  exact view_edit t (Grid.clip_shiftUp _ _ _ _ ht ..)

theorem view_moveDown (t : Terminal) (top count : Nat) :
    (moveDown t top count).view = (moveDown t.trim top count).view := by
  simp only [moveDown, view_mark]
  exact view_edit t (Grid.clip_shiftDown ..)

/-- Replies are out of view. -/
@[simp] theorem view_queueReply (t : Terminal) (bytes : List UInt8) :
    (queueReply t bytes).view = t.view := rfl

/-- So does pushing cells to the right. -/
theorem view_shiftRight (t : Terminal) (row left k : Nat) (cell : Cell) :
    (t.edit fun cells => cells.shiftRight row left k t.columns cell).view =
      (t.trim.edit fun cells => cells.shiftRight row left k t.columns cell).view :=
  view_edit t (Grid.clip_shiftRight ..)

/-- So does pulling them to the left. -/
theorem view_shiftLeft (t : Terminal) (row left k : Nat) (cell : Cell) :
    (t.edit fun cells => cells.shiftLeft row left k t.columns cell).view =
      (t.trim.edit fun cells => cells.shiftLeft row left k t.columns cell).view :=
  view_edit t (Grid.clip_shiftLeft ..)

theorem view_index {t : Terminal} (ht : t.scrollBottom < t.rows) :
    (index t).view = (index t.trim).view := by
  have hup : (moveUp (cancelWrap t) t.scrollTop 1).view =
      (moveUp (cancelWrap t.trim) t.scrollTop 1).view :=
    view_moveUp (t := cancelWrap t) ht t.scrollTop 1
  have hdown : { cancelWrap t with row := if t.row + 1 < t.rows then t.row + 1 else t.row }.view =
      { cancelWrap t.trim with
        row := if t.row + 1 < t.rows then t.row + 1 else t.row }.view :=
    (view_trim { cancelWrap t with
      row := if t.row + 1 < t.rows then t.row + 1 else t.row }).symm
  simp only [index, view_ite]
  rw [hup, hdown]
  rfl

theorem view_wrap {t : Terminal} (ht : t.scrollBottom < t.rows) :
    (wrap t).view = (wrap t.trim).view := by
  have hindex : (index { t with column := 0 }).view = (index { t.trim with column := 0 }).view :=
    view_index (t := { t with column := 0 }) ht
  simp only [wrap, view_ite]
  rw [hindex, view_trim]
  rfl

/-- In insert mode a single column takes the character like outside it. -/
theorem view_write (t : Terminal) (character : Nat) :
    (write t character).view = (write t.trim character).view := by
  have herase := view_erase t t.row 1 t.column t.column ⟨character, t.terminalAttribute⟩
  unfold write
  cases hinsert : t.insertMode with
  | false =>
      have htrim : t.trim.insertMode = false := by simp [trim, hinsert]
      rw [htrim]
      exact herase
  | true =>
      by_cases hcolumns : 1 < t.columns
      · have htrim : t.trim.insertMode = true := by simp [trim, hinsert, hcolumns]
        rw [htrim]
        simp only [if_true, view_mark]
        exact view_shiftRight t _ _ _ _
      · have htrim : t.trim.insertMode = false := by simp [trim, hcolumns]
        rw [htrim]
        simp only [if_true, Bool.false_eq_true, if_false, view_mark, erase]
        apply view_edit t
        exact (Grid.clip_shiftRight_column _ _ _ _ (Nat.le_of_not_lt hcolumns) ..).trans
          (Grid.clip_fill ..)

/-- So does the step of the cursor. -/
theorem view_advance (t : Terminal) : (advance t).view = (advance t.trim).view :=
  (view_trim (advance t)).symm

/-- What can be done in black and white and on the trimmed screen depends on the
view only. -/
theorem view_of_plain (op : Terminal → Terminal)
    (hplain : ∀ t, (op t).plain = (op t.plain).plain) {t : Terminal}
    (htrim : (op t).view = (op t.trim).view) : (op t).view = (op t.view).view := by
  rw [htrim, view_eq_trim_plain, hplain, ← view_eq_trim_plain]
  rfl

/-- Erasing looks at the view only. -/
theorem view_erase_congr {t u : Terminal} (h : t.view = u.view) (first count left right : Nat)
    (cell : Cell) :
    (erase t first count left right cell).view = (erase u first count left right cell).view := by
  have hview (v : Terminal) : (erase v first count left right cell).view =
      (erase v.view first count left right cell).view :=
    view_of_plain (fun v => erase v first count left right cell)
      (fun v => plain_erase (plain_plain v).symm rfl first count left right)
      (view_erase v first count left right cell)
  rw [hview t, hview u, h]

theorem view_print {t : Terminal} (ht : t.scrollBottom < t.rows) (character : Nat) :
    (print t character).view = (print t.view character).view := by
  have hadvance (u : Terminal) : (advance u).view = (advance u.view).view :=
    view_of_plain advance plain_advance (view_advance u)
  have hwrite (u : Terminal) : (write u character).view = (write u.view character).view :=
    view_of_plain (fun u => write u character) (fun u => plain_write u character)
      (view_write u character)
  have hwrap : (wrap t).view = (wrap t.view).view := view_of_plain wrap plain_wrap (view_wrap ht)
  calc (advance (write (wrap t) character)).view
      = (advance (write (wrap t).view character).view).view := by rw [hadvance, hwrite]
    _ = (advance (write (wrap t.view) character)).view := by rw [hwrap, ← hwrite, ← hadvance]

/-- So does switching the buffers. -/
theorem view_alternateScreen {t : Terminal} (ht : t.WellFormed) (on : Bool) :
    (alternateScreen t on).view = (alternateScreen t.trim on).view := by
  have hcells := ht.cells_eq
  have hcancel : (cancelWrap t).view = (cancelWrap t.trim).view := (view_trim (cancelWrap t)).symm
  have henter : (enterAlternate (cancelWrap t)).view =
      (enterAlternate (cancelWrap t.trim)).view := by
    have hblank := t.alternate.clip_fill_all t.rows t.columns plainBlank t.trim.alternate
      t.defaultBlank
    apply congrArg Terminal.plain
    cases hcells : t.cells <;>
      simp_all [enterAlternate, cancelWrap, clear, clearScreen, trim, edit, editBuffer,
        Grid.clip_clip, defaultBlank]
  have hleave (hactive : t.alternateActive = true) : (leaveAlternate (cancelWrap t)).view =
      (leaveAlternate (cancelWrap t.trim)).view := by
    rw [hactive, if_pos rfl] at hcells
    simp only [leaveAlternate, view_mark]
    apply congrArg Terminal.plain
    simp [cancelWrap, trim, hcells, Grid.clip_clip]
  have hactive : t.trim.alternateActive = t.alternateActive := rfl
  unfold alternateScreen
  rw [hactive]
  split
  · exact hcancel
  · next hne =>
      cases on with
      | true => exact henter
      | false =>
          apply hleave
          cases halternate : t.alternateActive with
          | true => rfl
          | false => exact absurd halternate.symm hne

/-- Every instruction can be carried out on the trimmed screen. -/
theorem view_exec_trim {t : Terminal} (ht : t.WellFormed) (c : Command) :
    (exec t c).view = (exec t.trim c).view := by
  have hbottom := ht.bottom_lt
  -- the fields that trimming cuts down
  have htrim (c : Command) (hc : c = .saveCursor ∨ c = .restoreCursor ∨ ∃ on, c = .insertMode on) :
      (exec t c).trim = (exec t.trim c).trim := by
    rcases hc with rfl | rfl | ⟨on, rfl⟩
    · cases hcells : t.cells <;> simp [exec, trim, hcells, Grid.clip_clip]
    · cases hcells : t.cells <;> simp [exec, trim, hcells, Grid.clip_clip]
    · cases hcells : t.cells <;> simp [exec, trim, hcells, Grid.clip_clip]
  cases c with
  | print character =>
      have htrim := view_print (t := t.trim) hbottom character
      rw [view_trim] at htrim
      exact (view_print hbottom character).trans htrim.symm
  | index => exact view_index hbottom
  | reverseIndex =>
      have hdown : (moveDown (cancelWrap t) t.scrollTop 1).view =
          (moveDown (cancelWrap t.trim) t.scrollTop 1).view :=
        view_moveDown (cancelWrap t) t.scrollTop 1
      have hstep : { cancelWrap t with row := t.row - 1 }.view =
          { cancelWrap t.trim with row := t.row - 1 }.view :=
        (view_trim { cancelWrap t with row := t.row - 1 }).symm
      simp only [exec, reverseIndex, view_ite]
      rw [hdown, hstep]
      rfl
  | reset =>
      exact view_clear { t with
        foreground := t.defaultForeground, background := t.defaultBackground
        bold := false, reverse := false, row := 0, column := 0
        scrollTop := 0, scrollBottom := t.rows - 1 }
  | eraseDisplay mode =>
      have hclear : (markClean (clear t).clearScreen).view =
          (markClean (clear t.trim).clearScreen).view := view_clear t
      have habove := view_erase_congr (view_erase t 0 t.row 0 (t.columns - 1) t.blank)
        t.row 1 0 t.column t.blank
      have hbelow := view_erase_congr (view_erase t t.row 1 t.column (t.columns - 1) t.blank)
        (t.row + 1) (t.rows - (t.row + 1)) 0 (t.columns - 1) t.blank
      simp only [exec, eraseDisplay, view_ite]
      rw [hclear, habove, hbelow]
      rfl
  | eraseLine mode =>
      have hleft := view_erase t t.row 1 0 t.column t.blank
      have hall := view_erase t t.row 1 0 (t.columns - 1) t.blank
      have hright := view_erase t t.row 1 t.column (t.columns - 1) t.blank
      simp only [exec, eraseLine, view_ite]
      rw [hleft, hall, hright]
      rfl
  | rendition change => cases change <;> exact (view_trim _).symm
  | margins top bottom =>
      have hset : { t with
            scrollTop := top, scrollBottom := bottom.getD t.rows - 1, row := 0, column := 0 }.view =
          { t.trim with
            scrollTop := top, scrollBottom := bottom.getD t.rows - 1
            row := 0, column := 0 }.view :=
        (view_trim { t with
          scrollTop := top, scrollBottom := bottom.getD t.rows - 1, row := 0, column := 0 }).symm
      simp only [exec, setMargins, view_ite]
      rw [hset, view_trim]
      rfl
  | insertLines count =>
      have hdown := view_moveDown t t.row count
      simp only [exec, view_ite]
      rw [hdown, view_trim]
      rfl
  | deleteLines count =>
      have hup := view_moveUp hbottom t.row count
      simp only [exec, view_ite]
      rw [hup, view_trim]
      rfl
  | insertCharacters count => exact view_shiftRight t _ _ _ _
  | deleteCharacters count => exact view_shiftLeft t _ _ _ _
  | eraseCharacters count => exact view_erase t _ _ _ _ _
  | scrollUp count => exact view_moveUp hbottom _ _
  | scrollDown count => exact view_moveDown t _ _
  | alternateScreen on => exact view_alternateScreen ht on
  | insertMode on => exact congrArg Terminal.plain (htrim (.insertMode on) (.inr (.inr ⟨on, rfl⟩)))
  | reply bytes => simp only [exec, view_queueReply, view_trim]
  | reportCursor => simp only [exec, view_queueReply, view_trim]
  | saveCursor => exact congrArg Terminal.plain (htrim .saveCursor (.inl rfl))
  | restoreCursor => exact congrArg Terminal.plain (htrim .restoreCursor (.inr (.inl rfl)))
  | _ => exact (view_trim _).symm

/-- **The view after an instruction depends on the view before it only.** -/
theorem view_exec {t : Terminal} (ht : t.WellFormed) (c : Command) :
    (exec t c).view = (exec t.view c).view :=
  view_of_plain (fun u => exec u c) (fun u => plain_exec u c) (view_exec_trim ht c)

/-- Two screens of one view keep one view under the same instructions. -/
theorem view_execAll {t u : Terminal} (ht : t.WellFormed) (hu : u.WellFormed)
    (h : t.view = u.view) {commands : List Command} (hvalid : ∀ c ∈ commands, c.Valid) :
    (execAll t commands).view = (execAll u commands).view := by
  induction commands generalizing t u with
  | nil => exact h
  | cons c rest ih =>
      have hc := hvalid c List.mem_cons_self
      have hnow : (exec t c).view = (exec u c).view := by
        rw [view_exec ht, view_exec hu, h]
      exact ih (ht.exec hc) (hu.exec hc) hnow fun c' hc' => hvalid c' (List.mem_cons_of_mem c hc')

/-- Screens of one view, and parsers alike: the same bytes leave one view. -/
theorem view_feed {t u : Terminal} (ht : t.WellFormed) (hu : u.WellFormed)
    (h : t.view = u.view) (hparser : t.parser.Alike u.parser) (data : List UInt8) :
    (feed t data).view = (feed u data).view := by
  rw [feed_eq_execAll, feed_eq_execAll, view_withParser, view_withParser, hparser.commands]
  exact view_execAll ht hu h (Parser.commands_valid u.parser data)

end Screen

end WolfSshUefi
