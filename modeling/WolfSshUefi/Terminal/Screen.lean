import WolfSshUefi.Terminal.Feed

/-!
# The screen as an instruction set

What the bytes from the server ask for, stated without loops: a `Command` is
one instruction to the screen, and `Screen.exec` is its effect.  The shifting
loops of the C code become the shifts of `Grid`, and the marking of dirty
cells becomes the widening of the dirty interval of a span of rows.

The effects are total, and they are meant for states that keep the invariant
of `WellFormed`; there they agree with the functions of `Terminal.c`.
-/

namespace WolfSshUefi

/-- A change of the colours for the characters to come. -/
inductive Rendition
  | reset
  | bold (on : Bool)
  | reverse (on : Bool)
  | foreground (color : Nat)
  | background (color : Nat)
  | defaultForeground
  | defaultBackground
  deriving DecidableEq, Repr

/-- The instructions of the screen. -/
inductive Command
  | print (character : Nat)
  | cancelWrap
  | carriageReturn
  | backspace
  | tab
  | index
  | reverseIndex
  | saveCursor
  | restoreCursor
  | reset
  | up (count : Nat)
  | down (count : Nat)
  | forward (count : Nat)
  | back (count : Nat)
  | toRow (row : Nat)
  | toColumn (column : Nat)
  | eraseDisplay (mode : Nat)
  | eraseLine (mode : Nat)
  | rendition (change : Rendition)
  | margins (top : Nat) (bottom : Option Nat)
  | insertLines (count : Nat)
  | deleteLines (count : Nat)
  | insertCharacters (count : Nat)
  | deleteCharacters (count : Nat)
  | eraseCharacters (count : Nat)
  | scrollUp (count : Nat)
  | scrollDown (count : Nat)
  | applicationCursor (on : Bool)
  | cursorVisible (on : Bool)
  | insertMode (on : Bool)
  | alternateScreen (on : Bool)
  | reply (bytes : List UInt8)
  | reportCursor
  deriving DecidableEq, Repr

namespace Screen

/-- Widen the dirty intervals of `count` rows from `first` on to include the
columns `left .. right`. -/
def mark (t : Terminal) (first count left right : Nat) : Terminal :=
  { t with
    dirtyStart := fun i =>
      if first ≤ i ∧ i < first + count then min (t.dirtyStart i) left else t.dirtyStart i
    dirtyEnd := fun i =>
      if first ≤ i ∧ i < first + count then max (t.dirtyEnd i) right else t.dirtyEnd i }

/-- Put `cell` everywhere in a rectangle of the active buffer. -/
def erase (t : Terminal) (first count left right : Nat) (cell : Cell) : Terminal :=
  mark (t.edit fun cells => cells.fill first count left (right + 1) cell)
    first count left right

/-- Move the rows `top .. scrollBottom` up. -/
def moveUp (t : Terminal) (top count : Nat) : Terminal :=
  let region := t.scrollBottom - top + 1
  mark (t.edit fun cells =>
      cells.shiftUp top t.scrollBottom (min count region) t.columns t.blank)
    top region 0 (t.columns - 1)

/-- Move the rows `top .. scrollBottom` down. -/
def moveDown (t : Terminal) (top count : Nat) : Terminal :=
  let region := t.scrollBottom - top + 1
  mark (t.edit fun cells =>
      cells.shiftDown top t.scrollBottom (min count region) t.columns t.blank)
    top region 0 (t.columns - 1)

/-- Forget a deferred wrap. -/
def cancelWrap (t : Terminal) : Terminal := { t with wrapPending := false }

/-- One line down, scrolling at the bottom margin. -/
def index (t : Terminal) : Terminal :=
  if t.row = t.scrollBottom then moveUp (cancelWrap t) t.scrollTop 1
  else { cancelWrap t with row := if t.row + 1 < t.rows then t.row + 1 else t.row }

/-- One line up, scrolling at the top margin. -/
def reverseIndex (t : Terminal) : Terminal :=
  if t.row = t.scrollTop then moveDown (cancelWrap t) t.scrollTop 1
  else { cancelWrap t with row := t.row - 1 }

/-- Carry out a deferred wrap. -/
def wrap (t : Terminal) : Terminal :=
  if t.wrapPending then index { t with column := 0 } else t

/-- Write a character at the cursor, moving the rest of the line in insert mode. -/
def write (t : Terminal) (character : Nat) : Terminal :=
  let cell : Cell := ⟨character, t.terminalAttribute⟩
  if t.insertMode then
    mark (t.edit fun cells => cells.shiftRight t.row t.column 1 t.columns cell)
      t.row 1 t.column (t.columns - 1)
  else erase t t.row 1 t.column t.column cell

/-- Step the cursor over the character just written. -/
def advance (t : Terminal) : Terminal :=
  { t with
    wrapPending := if t.column + 1 = t.columns then true else t.wrapPending
    column := if t.column + 1 = t.columns then t.column else t.column + 1 }

def print (t : Terminal) (character : Nat) : Terminal :=
  advance (write (wrap t) character)

def insertCharacters (t : Terminal) (count : Nat) : Terminal :=
  mark (t.edit fun cells =>
      cells.shiftRight t.row t.column (min count (t.columns - t.column)) t.columns t.blank)
    t.row 1 t.column (t.columns - 1)

def deleteCharacters (t : Terminal) (count : Nat) : Terminal :=
  mark (t.edit fun cells =>
      cells.shiftLeft t.row t.column (min count (t.columns - t.column)) t.columns t.blank)
    t.row 1 t.column (t.columns - 1)

/-- The cursor row lies between the margins. -/
def InMargins (t : Terminal) : Prop :=
  t.scrollTop ≤ t.row ∧ t.row ≤ t.scrollBottom

instance (t : Terminal) : Decidable (InMargins t) := by
  unfold InMargins; infer_instance

/-- Blank the active buffer in the default colours. -/
def clear (t : Terminal) : Terminal :=
  t.edit fun cells => cells.fill 0 t.rows 0 t.columns t.defaultBlank

/-- No cell is dirty. -/
def markClean (t : Terminal) : Terminal :=
  { t with
    dirtyStart := fun i => if i < t.rows then t.columns else t.dirtyStart i
    dirtyEnd := fun i => if i < t.rows then 0 else t.dirtyEnd i }

def eraseDisplay (t : Terminal) (mode : Nat) : Terminal :=
  if mode = 2 ∨ mode = 3 then markClean (clear t).clearScreen
  else if mode = 1 then
    erase (erase t 0 t.row 0 (t.columns - 1) t.blank) t.row 1 0 t.column t.blank
  else
    erase (erase t t.row 1 t.column (t.columns - 1) t.blank)
      (t.row + 1) (t.rows - (t.row + 1)) 0 (t.columns - 1) t.blank

def eraseLine (t : Terminal) (mode : Nat) : Terminal :=
  if mode = 1 then erase t t.row 1 0 t.column t.blank
  else if mode = 2 then erase t t.row 1 0 (t.columns - 1) t.blank
  else erase t t.row 1 t.column (t.columns - 1) t.blank

def setRendition (t : Terminal) : Rendition → Terminal
  | .reset =>
      { t with
        foreground := t.defaultForeground, background := t.defaultBackground
        bold := false, reverse := false }
  | .bold on => { t with bold := on }
  | .reverse on => { t with reverse := on }
  | .foreground color => { t with foreground := color }
  | .background color => { t with background := color }
  | .defaultForeground => { t with foreground := t.defaultForeground }
  | .defaultBackground => { t with background := t.defaultBackground }

/-- Set the margins to the rows from `top` up to, not including, `bottom`;
without `bottom`, up to the last row. -/
def setMargins (t : Terminal) (top : Nat) (bottom : Option Nat) : Terminal :=
  if top + 1 < bottom.getD t.rows ∧ bottom.getD t.rows ≤ t.rows then
    { t with scrollTop := top, scrollBottom := bottom.getD t.rows - 1, row := 0, column := 0 }
  else t

/-- Switch to the alternate buffer, which starts blank. -/
def enterAlternate (t : Terminal) : Terminal :=
  (clear { t with
    primaryRow := t.row, primaryColumn := t.column
    cells := .alternate, alternateActive := true
    row := 0, column := 0
    scrollTop := 0, scrollBottom := t.rows - 1 }).clearScreen

/-- Switch back to the primary buffer, all of which has to be painted. -/
def leaveAlternate (t : Terminal) : Terminal :=
  mark { t with
    cells := .primary, alternateActive := false
    row := min t.primaryRow (t.rows - 1)
    column := min t.primaryColumn (t.columns - 1)
    scrollTop := 0, scrollBottom := t.rows - 1 } 0 t.rows 0 (t.columns - 1)

def alternateScreen (t : Terminal) (on : Bool) : Terminal :=
  if on = t.alternateActive then cancelWrap t
  else if on then enterAlternate (cancelWrap t)
  else leaveAlternate (cancelWrap t)

/-- Put into the reply queue what still fits. -/
def queueReply (t : Terminal) (bytes : List UInt8) : Terminal :=
  let length := min bytes.length (terminalReplySize - t.replyLength)
  { t with
    replies := fun i =>
      if t.replyLength ≤ i ∧ i < t.replyLength + length then bytes.getD (i - t.replyLength) 0
      else t.replies i
    replyLength := t.replyLength + length }

/-- `ESC c` -/
def reset (t : Terminal) : Terminal :=
  (clear { t with
    foreground := t.defaultForeground, background := t.defaultBackground
    bold := false, reverse := false
    row := 0, column := 0
    scrollTop := 0, scrollBottom := t.rows - 1 }).clearScreen

/-- The effect of an instruction. -/
def exec (t : Terminal) : Command → Terminal
  | .print character => print t character
  | .cancelWrap => cancelWrap t
  | .carriageReturn => { t with column := 0, wrapPending := false }
  | .backspace => { t with column := t.column - 1, wrapPending := false }
  | .tab => { t with column := min (t.columns - 1) ((t.column + 8) / 8 * 8), wrapPending := false }
  | .index => index t
  | .reverseIndex => reverseIndex t
  | .saveCursor => { t with savedRow := t.row, savedColumn := t.column }
  | .restoreCursor =>
      { t with
        row := min t.savedRow (t.rows - 1)
        column := min t.savedColumn (t.columns - 1) }
  | .reset => reset t
  | .up count => { t with row := t.row - count }
  | .down count => { t with row := min (t.rows - 1) (t.row + count) }
  | .forward count => { t with column := min (t.columns - 1) (t.column + count) }
  | .back count => { t with column := t.column - count }
  | .toRow row => { t with row := min (t.rows - 1) row }
  | .toColumn column => { t with column := min (t.columns - 1) column }
  | .eraseDisplay mode => eraseDisplay t mode
  | .eraseLine mode => eraseLine t mode
  | .rendition change => setRendition t change
  | .margins top bottom => setMargins t top bottom
  | .insertLines count => if InMargins t then moveDown t t.row count else t
  | .deleteLines count => if InMargins t then moveUp t t.row count else t
  | .insertCharacters count => insertCharacters t count
  | .deleteCharacters count => deleteCharacters t count
  | .eraseCharacters count =>
      erase t t.row 1 t.column (min (t.columns - 1) (t.column + count - 1)) t.blank
  | .scrollUp count => moveUp t t.scrollTop count
  | .scrollDown count => moveDown t t.scrollTop count
  | .applicationCursor on => { t with applicationCursor := on }
  | .cursorVisible on => { t with cursorVisible := on }
  | .insertMode on => { t with insertMode := on }
  | .alternateScreen on => alternateScreen t on
  | .reply bytes => queueReply t bytes
  | .reportCursor => queueReply t (cursorReport t.row t.column)

/-- Instructions one after the other. -/
def execAll (t : Terminal) (commands : List Command) : Terminal :=
  commands.foldl exec t

@[simp] theorem execAll_nil (t : Terminal) : execAll t [] = t := rfl

@[simp] theorem execAll_cons (t : Terminal) (c : Command) (rest : List Command) :
    execAll t (c :: rest) = execAll (exec t c) rest := rfl

/-- Instructions in two pieces. -/
theorem execAll_append (t : Terminal) (first rest : List Command) :
    execAll t (first ++ rest) = execAll (execAll t first) rest :=
  List.foldl_append

end Screen

end WolfSshUefi
