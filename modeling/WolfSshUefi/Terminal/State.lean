import WolfSshUefi.Library.Grid
import WolfSshUefi.Library.Loops

/-!
# The terminal state

`Terminal` carries the fields of `WOLFSSH_UEFI_TERMINAL`.  The two cell buffers
are grids: the cell at `Row * Columns + Column` of a buffer is the grid's cell
at that row and column, and an access is inside the buffer when the row is
below `Rows` and the column below `Columns` (`cellIndex_lt`).  The other arrays
are functions of their index, with their size checked at every access.

The fields that only the parser uses are grouped as `Parser`.  The calls made
on `gST->ConOut` are recorded in order in `conOut`.
-/

namespace WolfSshUefi

/-- `TERMINAL_MAX_PARAMS` -/
def terminalMaxParams : Nat := 16

/-- `TERMINAL_REPLY_SIZE` -/
def terminalReplySize : Nat := 128

/-- `MAX_UINT16` -/
def maxUint16 : Nat := 65535

/-- `TERMINAL_CELL` -/
structure Cell where
  character : Nat
  attr : Nat
  deriving DecidableEq, Repr

/-- `TERMINAL_PARSER_STATE` -/
inductive ParserState
  | ground | escape | csi | osc | oscEscape
  deriving DecidableEq, Repr

/-- What the pointer `Cells` points at. -/
inductive Buffer
  | primary | alternate
  deriving DecidableEq, Repr

/-- A call of `EFI_SIMPLE_TEXT_OUTPUT_PROTOCOL` on `gST->ConOut`. -/
inductive ConsoleCall
  | clearScreen
  | setAttribute (attr : Nat)
  | setCursorPosition (column row : Nat)
  | outputString (text : List Nat)
  | enableCursor (visible : Bool)
  deriving DecidableEq, Repr

structure Parser where
  state : ParserState
  parameters : Nat → Int
  parameterCount : Nat
  privateCsi : Bool
  utf8Remaining : Nat
  utf8CodePoint : Nat

structure Terminal where
  columns : Nat
  rows : Nat
  primary : Grid Cell
  alternate : Grid Cell
  cells : Buffer
  dirtyStart : Nat → Nat
  dirtyEnd : Nat → Nat
  renderBuffer : Nat → Nat
  row : Nat
  column : Nat
  savedRow : Nat
  savedColumn : Nat
  primaryRow : Nat
  primaryColumn : Nat
  scrollTop : Nat
  scrollBottom : Nat
  defaultForeground : Nat
  defaultBackground : Nat
  foreground : Nat
  background : Nat
  bold : Bool
  reverse : Bool
  cursorVisible : Bool
  applicationCursor : Bool
  insertMode : Bool
  wrapPending : Bool
  alternateActive : Bool
  parser : Parser
  replies : Nat → UInt8
  replyLength : Nat
  conOut : List ConsoleCall

/-- The two-dimensional bounds are the bounds of the flat buffer. -/
theorem cellIndex_lt {rows columns row column : Nat} (hr : row < rows) (hc : column < columns) :
    row * columns + column < rows * columns := by
  calc row * columns + column
      < row * columns + columns := by omega
    _ = (row + 1) * columns := (Nat.succ_mul row columns).symm
    _ ≤ rows * columns := Nat.mul_le_mul_right columns hr

/-- `EFI_TEXT_ATTR` -/
def efiTextAttr (foreground background : Nat) : Nat :=
  foreground ||| (background <<< 4)

/-- An attribute of EFI has seven bits. -/
theorem efiTextAttr_le {foreground background : Nat} (hf : foreground < 16)
    (hb : background < 8) : efiTextAttr foreground background ≤ 0x7f := by
  have hshift : background <<< 4 < 2 ^ 7 := by
    rw [Nat.shiftLeft_eq]
    omega
  have hor : foreground ||| (background <<< 4) < 2 ^ 7 :=
    Nat.or_lt_two_pow (by omega) hshift
  unfold efiTextAttr
  omega

/-- What an access or a subtraction of the C code can do wrong. -/
inductive Fault
  | cell | row | dirty | parameter | reply | render | wrapped | int32
  deriving DecidableEq, Repr

/-- A computation that stops at the first faulty access. -/
abbrev Checked (α : Type) := Except Fault α

/-- An unsigned difference that is going to be used. -/
def usub (a b : Nat) : Checked Nat :=
  (Loops.difference a b).use .wrapped

/-- A difference that does not wrap. -/
@[simp] theorem usub_eq {a b : Nat} (h : b ≤ a) : usub a b = .ok (a - b) :=
  Loops.use_difference h _

namespace Terminal

/-- `Terminal->Cells` -/
def active (t : Terminal) : Grid Cell :=
  match t.cells with
  | .primary => t.primary
  | .alternate => t.alternate

/-- Change one of the two buffers. -/
def editBuffer (t : Terminal) (which : Buffer) (f : Grid Cell → Grid Cell) : Terminal :=
  { t with
    primary := if which = .primary then f t.primary else t.primary
    alternate := if which = .alternate then f t.alternate else t.alternate }

/-- Change the buffer `Cells` points at. -/
def edit (t : Terminal) (f : Grid Cell → Grid Cell) : Terminal :=
  t.editBuffer t.cells f

/-- An edit changes the buffer that is shown. -/
@[simp] theorem active_edit (t : Terminal) (f : Grid Cell → Grid Cell) :
    (t.edit f).active = f t.active := by
  cases h : t.cells <;> simp [active, edit, editBuffer, h]

/-- Two edits of one buffer are one. -/
theorem editBuffer_editBuffer (t : Terminal) (which : Buffer) (f g : Grid Cell → Grid Cell) :
    (t.editBuffer which f).editBuffer which g = t.editBuffer which (fun cells => g (f cells)) := by
  cases which <;> simp [editBuffer]

/-- So are two of the buffer that is shown. -/
theorem edit_edit (t : Terminal) (f g : Grid Cell → Grid Cell) :
    (t.edit f).edit g = t.edit (fun cells => g (f cells)) :=
  t.editBuffer_editBuffer t.cells f g

/-! An edit leaves the geometry, the cursor and the margins alone. -/

/-- An edit leaves the size. -/
@[simp] theorem editBuffer_columns (t : Terminal) (which : Buffer) (f : Grid Cell → Grid Cell) :
    (t.editBuffer which f).columns = t.columns := rfl

@[simp] theorem edit_rows (t : Terminal) (f : Grid Cell → Grid Cell) :
    (t.edit f).rows = t.rows := rfl

@[simp] theorem edit_columns (t : Terminal) (f : Grid Cell → Grid Cell) :
    (t.edit f).columns = t.columns := rfl

@[simp] theorem edit_row (t : Terminal) (f : Grid Cell → Grid Cell) :
    (t.edit f).row = t.row := rfl

@[simp] theorem edit_column (t : Terminal) (f : Grid Cell → Grid Cell) :
    (t.edit f).column = t.column := rfl

@[simp] theorem edit_scrollTop (t : Terminal) (f : Grid Cell → Grid Cell) :
    (t.edit f).scrollTop = t.scrollTop := rfl

@[simp] theorem edit_scrollBottom (t : Terminal) (f : Grid Cell → Grid Cell) :
    (t.edit f).scrollBottom = t.scrollBottom := rfl

/-- Only the active buffer matters to an edit. -/
theorem edit_congr (t : Terminal) {f g : Grid Cell → Grid Cell} (h : f t.active = g t.active) :
    t.edit f = t.edit g := by
  cases hc : t.cells <;> simp_all [edit, editBuffer, active]

/-- The colours a new character takes. -/
def terminalAttribute (t : Terminal) : Nat :=
  let foreground := if t.bold ∧ t.foreground < 8 then t.foreground + 8 else t.foreground
  let background := t.background
  let (foreground, background) :=
    if t.reverse then (background, foreground) else (foreground, background)
  efiTextAttr (foreground &&& 0x0f) (background &&& 0x07)

/-- The attribute of the colours in force has seven bits. -/
theorem terminalAttribute_le (t : Terminal) : t.terminalAttribute ≤ 0x7f := by
  have hf (n : Nat) : n &&& 0x0f < 16 := Nat.and_lt_two_pow n (n := 4) (by omega)
  have hb (n : Nat) : n &&& 0x07 < 8 := Nat.and_lt_two_pow n (n := 3) (by omega)
  exact efiTextAttr_le (hf _) (hb _)

/-- A space in the colours in force. -/
def blank (t : Terminal) : Cell := ⟨0x20, t.terminalAttribute⟩

/-- A space in the colours of the console. -/
def defaultBlank (t : Terminal) : Cell :=
  ⟨0x20, efiTextAttr t.defaultForeground t.defaultBackground⟩

/-! ### Checked accesses -/

/-- Read through `CellAt`. -/
def readCell (t : Terminal) (row column : Nat) : Checked Cell :=
  if row < t.rows ∧ column < t.columns then .ok (t.active row column) else .error .cell

/-- Write through `CellAt`. -/
def writeCell (t : Terminal) (row column : Nat) (cell : Cell) : Checked Terminal :=
  if row < t.rows ∧ column < t.columns then
    .ok (t.edit fun cells => cells.fill row 1 column (column + 1) cell)
  else .error .cell

/-- `CopyMem` of one whole row over another. -/
def copyRow (t : Terminal) (dst src : Nat) : Checked Terminal :=
  if dst < t.rows ∧ src < t.rows then
    .ok (t.edit fun cells => cells.copyRow dst src t.columns)
  else .error .row

/-- Read `DirtyStart[row]` and `DirtyEnd[row]`. -/
def readDirty (t : Terminal) (row : Nat) : Checked (Nat × Nat) :=
  if row < t.rows then .ok (t.dirtyStart row, t.dirtyEnd row) else .error .dirty

/-- Store `DirtyStart[row]` and `DirtyEnd[row]`, which are `UINT16`. -/
def writeDirty (t : Terminal) (row start last : Nat) : Checked Terminal :=
  if row < t.rows then
    .ok { t with
      dirtyStart := Function.update t.dirtyStart row (start % 65536)
      dirtyEnd := Function.update t.dirtyEnd row (last % 65536) }
  else .error .dirty

/-- Read `Parameters[index]`. -/
def readParameter (p : Parser) (index : Nat) : Checked Int :=
  if index < terminalMaxParams then .ok (p.parameters index) else .error .parameter

/-- Store `Parameters[index]`, an `INT32`. -/
def writeParameter (p : Parser) (index : Nat) (value : Int) : Checked Parser :=
  if index < terminalMaxParams then
    if -0x80000000 ≤ value ∧ value < 0x80000000 then
      .ok { p with parameters := Function.update p.parameters index value }
    else .error .int32
  else .error .parameter

end Terminal

end WolfSshUefi
