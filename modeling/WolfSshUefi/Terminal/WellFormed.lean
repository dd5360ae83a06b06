import WolfSshUefi.Terminal.Decoder

/-!
# The invariant of the terminal

`WellFormed` bounds every field that is used as an index, a loop bound or a
cell.  It has a part for the parser and a part for the screen; the parser part
is kept by every byte (`Parser.WellFormed.next`), the screen part by every
instruction (`WellFormed.exec`), and the bytes a parser accepts only complete
instructions that print displayable characters (`Parser.next_valid`).
-/

namespace WolfSshUefi

/-- A cell the screen may hold. -/
def Cell.Valid (cell : Cell) : Prop :=
  cell.attr ≤ 0x7f ∧ cell.character ≠ 0 ∧ cell.character ≤ 0xffff

/-- Only characters of one code unit are printed, and never NUL. -/
def Command.Valid : Command → Prop
  | .print character => character ≠ 0 ∧ character ≤ 0xffff
  | _ => True

structure Parser.WellFormed (p : Parser) : Prop where
  count_pos : 1 ≤ p.parameterCount
  count_le : p.parameterCount ≤ terminalMaxParams
  parameter_ge : ∀ i, i < terminalMaxParams → -1 ≤ p.parameters i
  parameter_le : ∀ i, i < terminalMaxParams → p.parameters i ≤ 9999999
  utf8_le : p.utf8Remaining ≤ 3
  utf8_ground : p.utf8Remaining ≠ 0 → p.state = .ground

structure Terminal.WellFormed (t : Terminal) : Prop where
  rows_pos : 0 < t.rows
  rows_le : t.rows ≤ maxUint16
  columns_pos : 0 < t.columns
  columns_le : t.columns ≤ maxUint16
  cells_eq : t.cells = if t.alternateActive then .alternate else .primary
  row_lt : t.row < t.rows
  column_lt : t.column < t.columns
  margins : t.scrollTop ≤ t.scrollBottom
  bottom_lt : t.scrollBottom < t.rows
  foreground_lt : t.defaultForeground < 16
  background_lt : t.defaultBackground < 8
  dirty_start : ∀ r, r < t.rows → t.dirtyStart r ≤ t.columns
  dirty_end : ∀ r, r < t.rows → t.dirtyEnd r < t.columns
  primary_cells : t.primary.All t.rows t.columns Cell.Valid
  alternate_cells : t.alternate.All t.rows t.columns Cell.Valid
  reply_le : t.replyLength ≤ terminalReplySize
  parser : t.parser.WellFormed

/-! ### The parser -/

namespace Parser

variable {p : Parser}

/-- A state may be entered when no UTF-8 sequence is half read. -/
theorem WellFormed.setState (h : p.WellFormed) (hutf8 : p.utf8Remaining = 0)
    (state : ParserState) : { p with state := state }.WellFormed :=
  { h with utf8_ground := fun hne => absurd hutf8 hne }

/-- `ResetParser` leaves a parser in which all bounds hold. -/
theorem WellFormed.reset (h : p.WellFormed) : p.reset.WellFormed where
  count_pos := by simp [Parser.reset]
  count_le := by simp [Parser.reset, terminalMaxParams]
  parameter_ge := fun i hi => by simp [Parser.reset, hi]
  parameter_le := fun i hi => by simp [Parser.reset, hi]
  utf8_le := h.utf8_le
  utf8_ground := fun _ => rfl

/-- At most three bytes of a UTF-8 sequence are missing, and only in the ground state. -/
theorem WellFormed.setUtf8 (h : p.WellFormed) (hground : p.state = .ground)
    {remaining : Nat} (hr : remaining ≤ 3) (codePoint : Nat) :
    { p with utf8Remaining := remaining, utf8CodePoint := codePoint }.WellFormed :=
  { h with utf8_le := hr, utf8_ground := fun _ => hground }

/-- A byte in the ground state may begin a UTF-8 sequence, or an escape. -/
theorem WellFormed.ground (h : p.WellFormed) (hground : p.state = .ground)
    (hutf8 : p.utf8Remaining = 0) (byte : UInt8) : (p.ground byte).1.WellFormed := by
  unfold Parser.ground
  split
  · exact h.setState hutf8 .escape
  repeat' split
  all_goals first
    | exact h
    | exact h.setUtf8 hground (by omega) _

/-- A byte of text continues a UTF-8 sequence, or is read on its own. -/
theorem WellFormed.text (h : p.WellFormed) (hground : p.state = .ground) (byte : UInt8) :
    (p.text byte).1.WellFormed := by
  unfold Parser.text
  split
  · next hzero => exact h.ground hground hzero byte
  · split
    · have hle := h.utf8_le
      exact h.setUtf8 hground (by omega) _
    · exact (h.setUtf8 hground (Nat.zero_le 3) p.utf8CodePoint).ground hground rfl byte

/-- Outside the ground state no UTF-8 sequence is half read. -/
theorem WellFormed.utf8_zero (h : p.WellFormed) (hne : p.state ≠ .ground) :
    p.utf8Remaining = 0 := by
  by_contra hzero
  exact hne (h.utf8_ground hzero)

/-- The byte after ESC may begin a control sequence or a string. -/
theorem WellFormed.escape (h : p.WellFormed) (hutf8 : p.utf8Remaining = 0) (byte : UInt8) :
    (p.escape byte).1.WellFormed := by
  unfold Parser.escape
  split
  · exact h.reset.setState hutf8 .csi
  · split
    · exact h.setState hutf8 .osc
    · exact h.setState hutf8 .ground

/-- A digit saturates the parameter, which stays below its limit. -/
theorem WellFormed.digit (h : p.WellFormed) {byte : UInt8} (hlo : byte ≥ 0x30)
    (hhi : byte ≤ 0x39) : (p.digit byte).WellFormed := by
  have hlo' : 0x30 ≤ byte.toNat := hlo
  have hhi' : byte.toNat ≤ 0x39 := hhi
  refine { h with parameter_ge := ?_, parameter_le := ?_ }
  · intro i hi
    have hi' := h.parameter_ge i hi
    simp only [Parser.digit, Function.update_apply]
    split
    · split <;> omega
    · exact hi'
  · intro i hi
    have hi' := h.parameter_le i hi
    simp only [Parser.digit, Function.update_apply]
    split
    · next heq =>
        subst heq
        split <;> omega
    · exact hi'

/-- A separator does not count past the last parameter. -/
theorem WellFormed.separator (h : p.WellFormed) : p.separator.WellFormed := by
  unfold Parser.separator
  split
  · next hlt =>
      refine { h with
        count_pos := Nat.le_add_left 1 _, count_le := hlt
        parameter_ge := ?_, parameter_le := ?_ }
      · intro i hi
        have hi' := h.parameter_ge i hi
        simp only [Function.update_apply]
        split <;> omega
      · intro i hi
        have hi' := h.parameter_le i hi
        simp only [Function.update_apply]
        split <;> omega
  · exact h

/-- A byte of a control sequence keeps the parameters and their count in bounds. -/
theorem WellFormed.csi (h : p.WellFormed) (hutf8 : p.utf8Remaining = 0) (byte : UInt8) :
    (p.csi byte).1.WellFormed := by
  unfold Parser.csi
  split
  · exact { h with }
  split
  · next hdigit => exact h.digit hdigit.1 hdigit.2
  split
  · exact h.separator
  split
  · exact h.setState hutf8 .ground
  · exact h

/-- Every byte keeps the parser's part of the invariant. -/
theorem WellFormed.next (h : p.WellFormed) (byte : UInt8) : (p.next byte).1.WellFormed := by
  unfold Parser.next
  split
  · split
    · next hosc => exact h.setState (h.utf8_zero (by simp [hosc])) .oscEscape
    · split
      · exact { h with utf8_le := Nat.zero_le 3, utf8_ground := fun hne => absurd rfl hne }
      · exact h
  · split
    · next hstate => exact h.text hstate byte
    · next hstate => exact h.escape (h.utf8_zero (by simp [hstate])) byte
    · next hstate => exact h.csi (h.utf8_zero (by simp [hstate])) byte
    · next hstate => exact h.setState (h.utf8_zero (by simp [hstate])) _
    · next hstate => exact h.setState (h.utf8_zero (by simp [hstate])) _

/-- What is printed for a code point is not NUL and fits a `CHAR16`. -/
theorem glyph_valid (codePoint : Nat) : glyph codePoint ≠ 0 ∧ glyph codePoint ≤ 0xffff := by
  unfold glyph
  split <;> omega

/-- The instructions that set a mode carry no characters. -/
theorem modeCommands_valid (privateCsi on : Bool) (mode : Nat) :
    ∀ c ∈ modeCommands privateCsi on mode, c.Valid := by
  intro c hc
  unfold modeCommands at hc
  repeat' split at hc
  all_goals simp_all [Command.Valid]

/-- Neither do those of a final byte. -/
theorem csiAction_valid (final : CsiFinal) (privateCsi : Bool) (params : List Int) :
    ∀ c ∈ csiAction final privateCsi params, c.Valid := by
  intro c hc
  cases final with
  | setModes | resetModes =>
      obtain ⟨mode, _, hmode⟩ := List.mem_flatMap.mp hc
      exact modeCommands_valid _ _ mode c hmode
  | rendition =>
      obtain ⟨change, _, rfl⟩ := List.mem_map.mp hc
      trivial
  | report =>
      simp only [csiAction] at hc
      repeat' split at hc
      all_goals simp_all [Command.Valid]
  | _ => simp_all [csiAction, Command.Valid]; try (rcases hc with rfl | rfl <;> trivial)

/-- A printable byte is a valid character. -/
theorem printable_valid {byte : UInt8} (h : byte ≥ 0x20 ∧ byte < 0x7f) :
    (Command.print byte.toNat).Valid := by
  have hlo : 0x20 ≤ byte.toNat := h.1
  have hhi : byte.toNat < 0x7f := h.2
  exact ⟨by omega, by omega⟩

/-- The instructions of a byte in the ground state print valid characters only. -/
theorem ground_valid (p : Parser) (byte : UInt8) : ∀ c ∈ (p.ground byte).2, c.Valid := by
  intro c hc
  unfold Parser.ground at hc
  repeat' split at hc
  all_goals first
    | (simp at hc; done)
    | (simp only [List.mem_singleton] at hc; subst hc
       first | trivial | exact printable_valid ‹_›)

/-- The instructions a byte completes only print displayable characters. -/
theorem next_valid (p : Parser) (byte : UInt8) : ∀ c ∈ (p.next byte).2, c.Valid := by
  intro c hc
  unfold Parser.next at hc
  split at hc
  · split at hc
    · simp at hc
    · split at hc <;> simp at hc
  · split at hc
    · unfold Parser.text at hc
      split at hc
      · exact ground_valid _ _ c hc
      split at hc
      · simp only [Parser.continuation] at hc
        split at hc
        · simp only [List.mem_singleton] at hc
          subst hc
          exact glyph_valid _
        · simp at hc
      · rcases List.mem_cons.mp hc with rfl | hrest
        · exact glyph_valid _
        · exact ground_valid _ _ c hrest
    · unfold Parser.escape at hc
      repeat' split at hc
      all_goals simp_all [Command.Valid]
      all_goals rcases hc with rfl | rfl <;> trivial
    · unfold Parser.csi at hc
      repeat' split at hc
      all_goals simp only [csiCommands, List.not_mem_nil, List.mem_cons] at hc
      rcases hc with rfl | hc
      · trivial
      · exact csiAction_valid _ _ _ c hc
    · simp at hc
    · simp at hc

end Parser

/-! ### The screen -/

namespace Terminal

variable {t : Terminal}

/-- A blank in the colours in force is a valid cell. -/
theorem blank_valid (t : Terminal) : t.blank.Valid :=
  ⟨t.terminalAttribute_le, by simp [blank], by simp [blank]⟩

namespace WellFormed

/-- So is one in the default colours. -/
theorem defaultBlank_valid (h : t.WellFormed) : t.defaultBlank.Valid :=
  ⟨efiTextAttr_le h.foreground_lt h.background_lt, by simp [defaultBlank], by simp [defaultBlank]⟩

/-- An edit of the active buffer that keeps its cells valid. -/
theorem edit (h : t.WellFormed) {f : Grid Cell → Grid Cell}
    (hf : ∀ g : Grid Cell, g.All t.rows t.columns Cell.Valid →
      (f g).All t.rows t.columns Cell.Valid) : (t.edit f).WellFormed := by
  refine { h with primary_cells := ?_, alternate_cells := ?_ }
  · simp only [Terminal.edit, editBuffer]
    split
    · exact hf _ h.primary_cells
    · exact h.primary_cells
  · simp only [Terminal.edit, editBuffer]
    split
    · exact hf _ h.alternate_cells
    · exact h.alternate_cells

/-- Marking as far as a column of the screen keeps the dirty intervals in their bounds. -/
theorem mark (h : t.WellFormed) {right : Nat} (hright : right < t.columns)
    (first count left : Nat) : (Screen.mark t first count left right).WellFormed := by
  refine { h with dirty_start := ?_, dirty_end := ?_ }
  · intro r hr
    have hr' := h.dirty_start r hr
    simp only [Screen.mark]
    split <;> omega
  · intro r hr
    have hr' := h.dirty_end r hr
    simp only [Screen.mark]
    split
    · exact Nat.max_lt.mpr ⟨hr', hright⟩
    · exact hr'

/-- Erasing writes a valid cell and marks it. -/
theorem erase (h : t.WellFormed) {right : Nat} (hright : right < t.columns) {cell : Cell}
    (hcell : cell.Valid) (first count left : Nat) :
    (Screen.erase t first count left right cell).WellFormed :=
  (h.edit fun _ hg => hg.fill hcell _ _ _ _).mark hright _ _ _

/-- There is a last column. -/
theorem last_lt (h : t.WellFormed) : t.columns - 1 < t.columns := by
  have hpos := h.columns_pos
  omega

/-- Scrolling up by any count keeps the cells valid. -/
theorem moveUp (h : t.WellFormed) (top count : Nat) : (Screen.moveUp t top count).WellFormed :=
  (h.edit fun _ hg => hg.shiftUp t.blank_valid h.bottom_lt _ _ _).mark h.last_lt _ _ _

/-- Scrolling down likewise. -/
theorem moveDown (h : t.WellFormed) (top count : Nat) :
    (Screen.moveDown t top count).WellFormed :=
  (h.edit fun _ hg => hg.shiftDown t.blank_valid _ _ _ _).mark h.last_lt _ _ _

/-- The cursor may stand anywhere on the screen, with a wrap pending or not. -/
theorem moveCursor (h : t.WellFormed) {row column : Nat} (hrow : row < t.rows)
    (hcolumn : column < t.columns) (wrapPending : Bool) :
    { t with row := row, column := column, wrapPending := wrapPending }.WellFormed :=
  { h with row_lt := hrow, column_lt := hcolumn }

/-- Giving up a pending wrap changes no bound. -/
theorem cancelWrap (h : t.WellFormed) : (Screen.cancelWrap t).WellFormed := { h with }

/-- `IndexDown` scrolls, or moves the cursor down one row that there is. -/
theorem index (h : t.WellFormed) : (Screen.index t).WellFormed := by
  unfold Screen.index
  split
  · exact h.cancelWrap.moveUp _ _
  · have hrow := h.row_lt
    exact { h with row_lt := by show (if _ then _ else _) < t.rows; split <;> omega }

/-- `IndexUp` scrolls, or moves the cursor up one row that there is. -/
theorem reverseIndex (h : t.WellFormed) : (Screen.reverseIndex t).WellFormed := by
  unfold Screen.reverseIndex
  split
  · exact h.cancelWrap.moveDown _ _
  · have hrow := h.row_lt
    exact { h with row_lt := by show t.row - 1 < t.rows; omega }

/-- A pending wrap brings the cursor to the first column of a row. -/
theorem wrap (h : t.WellFormed) : (Screen.wrap t).WellFormed := by
  unfold Screen.wrap
  split
  · exact index { h with column_lt := h.columns_pos }
  · exact h

/-- Writing a valid character at the cursor, in insert mode or not. -/
theorem write (h : t.WellFormed) {character : Nat} (hc : character ≠ 0 ∧ character ≤ 0xffff) :
    (Screen.write t character).WellFormed := by
  have hcell : Cell.Valid ⟨character, t.terminalAttribute⟩ := ⟨t.terminalAttribute_le, hc⟩
  unfold Screen.write
  split
  · exact (h.edit fun _ hg => hg.shiftRight hcell _ _ _ _).mark h.last_lt _ _ _
  · exact h.erase h.column_lt hcell _ _ _

/-- The cursor moves on, or waits in the last column. -/
theorem advance (h : t.WellFormed) : (Screen.advance t).WellFormed := by
  have hcolumn := h.column_lt
  have hstep : (if t.column + 1 = t.columns then t.column else t.column + 1) < t.columns := by
    split <;> omega
  exact { h with column_lt := hstep }

/-- Clearing fills the active buffer with valid blanks. -/
theorem clear (h : t.WellFormed) : (Screen.clear t).WellFormed :=
  h.edit fun _ hg => hg.fill h.defaultBlank_valid _ _ _ _

/-- The console call of a clear touches the trace only. -/
theorem clearScreen (h : t.WellFormed) : t.clearScreen.WellFormed := { h with }

/-- Clean rows have their empty interval in bounds. -/
theorem markClean (h : t.WellFormed) : (Screen.markClean t).WellFormed := by
  refine { h with dirty_start := ?_, dirty_end := ?_ }
  · intro r hr
    exact Nat.le_of_eq (if_pos hr)
  · intro r hr
    have hclean : (Screen.markClean t).dirtyEnd r = 0 := if_pos hr
    rw [hclean]
    exact h.columns_pos

/-- Every mode of `CSI J` erases between places of the screen. -/
theorem eraseDisplay (h : t.WellFormed) (mode : Nat) :
    (Screen.eraseDisplay t mode).WellFormed := by
  unfold Screen.eraseDisplay
  split
  · exact h.clear.clearScreen.markClean
  split
  · exact (h.erase h.last_lt t.blank_valid _ _ _).erase h.column_lt t.blank_valid _ _ _
  · exact (h.erase h.last_lt t.blank_valid _ _ _).erase h.last_lt t.blank_valid _ _ _

/-- Every mode of `CSI K` erases within the cursor line. -/
theorem eraseLine (h : t.WellFormed) (mode : Nat) : (Screen.eraseLine t mode).WellFormed := by
  unfold Screen.eraseLine
  split
  · exact h.erase h.column_lt t.blank_valid _ _ _
  split
  · exact h.erase h.last_lt t.blank_valid _ _ _
  · exact h.erase h.last_lt t.blank_valid _ _ _

/-- Every change of colours stays within the 16 of EFI. -/
theorem setRendition (h : t.WellFormed) (change : Rendition) :
    (Screen.setRendition t change).WellFormed := by
  cases change <;> exact { h with }

/-- Margins are set only where the top one is above the bottom one. -/
theorem setMargins (h : t.WellFormed) (top : Nat) (bottom : Option Nat) :
    (Screen.setMargins t top bottom).WellFormed := by
  unfold Screen.setMargins
  split
  · next hvalid =>
      exact { h with
        row_lt := h.rows_pos, column_lt := h.columns_pos
        margins := by show top ≤ _ - 1; omega
        bottom_lt := by show _ - 1 < t.rows; omega }
  · exact h

/-- The cursor is put somewhere with the margins wide open. -/
theorem fullMargins (h : t.WellFormed) {row column : Nat} (hrow : row < t.rows)
    (hcolumn : column < t.columns) :
    { t with row := row, column := column, scrollTop := 0,
             scrollBottom := t.rows - 1 }.WellFormed := by
  have hpos := h.rows_pos
  exact { h with
    row_lt := hrow, column_lt := hcolumn, margins := Nat.zero_le _
    bottom_lt := by show t.rows - 1 < t.rows; omega }

/-- The alternate buffer is cleared when it is entered. -/
theorem enterAlternate (h : t.WellFormed) : (Screen.enterAlternate t).WellFormed := by
  have henter : { t with
      primaryRow := t.row, primaryColumn := t.column
      cells := .alternate, alternateActive := true, row := 0, column := 0
      scrollTop := 0, scrollBottom := t.rows - 1 }.WellFormed :=
    { h.fullMargins h.rows_pos h.columns_pos with cells_eq := rfl }
  exact henter.clear.clearScreen

/-- Back on the primary buffer, with the cursor where it was. -/
theorem onPrimary (h : t.WellFormed) :
    { t with
      cells := .primary, alternateActive := false
      row := min t.primaryRow (t.rows - 1), column := min t.primaryColumn (t.columns - 1)
      scrollTop := 0, scrollBottom := t.rows - 1 }.WellFormed := by
  have hrows := h.rows_pos
  have hcolumns := h.columns_pos
  have hrow : min t.primaryRow (t.rows - 1) < t.rows := by omega
  have hcolumn : min t.primaryColumn (t.columns - 1) < t.columns := by omega
  exact { h.fullMargins hrow hcolumn with cells_eq := rfl }

/-- The primary buffer comes back as it was, all of it dirty. -/
theorem leaveAlternate (h : t.WellFormed) : (Screen.leaveAlternate t).WellFormed :=
  h.onPrimary.mark h.last_lt _ _ _

/-- Switching to the buffer that is shown already does nothing. -/
theorem alternateScreen (h : t.WellFormed) (on : Bool) :
    (Screen.alternateScreen t on).WellFormed := by
  unfold Screen.alternateScreen
  split
  · exact h.cancelWrap
  split
  · exact h.cancelWrap.enterAlternate
  · exact h.cancelWrap.leaveAlternate

/-- The queue takes what fits. -/
theorem queueReply (h : t.WellFormed) (bytes : List UInt8) :
    (Screen.queueReply t bytes).WellFormed := by
  have hle := h.reply_le
  exact { h with reply_le := by show t.replyLength + min _ _ ≤ _; omega }

/-- `ESC c` before it clears the screen. -/
theorem atReset (h : t.WellFormed) :
    { t with
      foreground := t.defaultForeground, background := t.defaultBackground
      bold := false, reverse := false, row := 0, column := 0
      scrollTop := 0, scrollBottom := t.rows - 1 }.WellFormed :=
  { h.fullMargins h.rows_pos h.columns_pos with }

/-- `ESC c` brings back the state of a new terminal. -/
theorem reset (h : t.WellFormed) : (Screen.reset t).WellFormed :=
  h.atReset.clear.clearScreen

/-- Every instruction keeps the invariant. -/
theorem exec (h : t.WellFormed) {c : Command} (hc : c.Valid) : (Screen.exec t c).WellFormed := by
  have hrows := h.rows_pos
  have hcolumns := h.columns_pos
  have hrow := h.row_lt
  have hcolumn := h.column_lt
  cases c with
  | print character => exact (h.wrap.write hc).advance
  | cancelWrap | saveCursor | applicationCursor | cursorVisible | insertMode => exact { h with }
  | carriageReturn => exact h.moveCursor hrow hcolumns false
  | backspace => exact h.moveCursor hrow (by omega) false
  | tab => exact h.moveCursor hrow (by omega) false
  | index => exact h.index
  | reverseIndex => exact h.reverseIndex
  | restoreCursor => exact h.moveCursor (by omega) (by omega) t.wrapPending
  | reset => exact h.reset
  | up count => exact h.moveCursor (by omega) hcolumn t.wrapPending
  | down count => exact h.moveCursor (by omega) hcolumn t.wrapPending
  | forward count => exact h.moveCursor hrow (by omega) t.wrapPending
  | back count => exact h.moveCursor hrow (by omega) t.wrapPending
  | toRow row => exact h.moveCursor (by omega) hcolumn t.wrapPending
  | toColumn column => exact h.moveCursor hrow (by omega) t.wrapPending
  | eraseDisplay mode => exact h.eraseDisplay mode
  | eraseLine mode => exact h.eraseLine mode
  | rendition change => exact h.setRendition change
  | margins top bottom => exact h.setMargins top bottom
  | insertLines count =>
      simp only [Screen.exec]
      split
      · exact h.moveDown _ _
      · exact h
  | deleteLines count =>
      simp only [Screen.exec]
      split
      · exact h.moveUp _ _
      · exact h
  | insertCharacters count =>
      exact (h.edit fun _ hg => hg.shiftRight t.blank_valid _ _ _ _).mark h.last_lt _ _ _
  | deleteCharacters count =>
      exact (h.edit fun _ hg => hg.shiftLeft t.blank_valid _ _ _).mark h.last_lt _ _ _
  | eraseCharacters count => exact h.erase (by omega) t.blank_valid _ _ _
  | scrollUp count => exact h.moveUp _ _
  | scrollDown count => exact h.moveDown _ _
  | alternateScreen on => exact h.alternateScreen on
  | reply bytes => exact h.queueReply bytes
  | reportCursor => exact h.queueReply _

/-- One valid instruction after the other keeps all bounds. -/
theorem execAll (h : t.WellFormed) {commands : List Command}
    (hc : ∀ c ∈ commands, c.Valid) : (Screen.execAll t commands).WellFormed := by
  induction commands generalizing t with
  | nil => exact h
  | cons c rest ih =>
      exact ih (h.exec (hc c List.mem_cons_self))
        (fun c' hc' => hc c' (List.mem_cons_of_mem c hc'))

/-- A byte is read, and its instructions are carried out. -/
theorem feedByte (h : t.WellFormed) (byte : UInt8) : (Screen.feedByte t byte).WellFormed := by
  have hparser : { t with parser := (t.parser.next byte).1 }.WellFormed :=
    { h with parser := h.parser.next byte }
  exact hparser.execAll (t.parser.next_valid byte)

/-- **Every state that bytes lead to is well-formed.** -/
theorem feed (h : t.WellFormed) (data : List UInt8) : (Screen.feed t data).WellFormed := by
  induction data generalizing t with
  | nil => exact h
  | cons byte rest ih => exact ih (h.feedByte byte)

end WellFormed

end Terminal

end WolfSshUefi
