import WolfSshUefi.Terminal.Csi

/-!
# Bytes in, console calls out

The parser of `WolfSshTerminalFeed`, the painting of `WolfSshTerminalFlush`,
and the functions that create a terminal, destroy it and take its replies.
-/

namespace WolfSshUefi

/-- `ResetParser` -/
def Parser.reset (p : Parser) : Parser :=
  { p with
    state := .ground, parameterCount := 1, privateCsi := false
    parameters := fun i => if i < terminalMaxParams then -1 else p.parameters i }

namespace Terminal

open Loops

/-- `EmitCodePoint` -/
def emitCodePoint (t : Terminal) (codePoint : Nat) : Checked Terminal :=
  if codePoint = 0 ∨ codePoint > 0xffff ∨ (codePoint ≥ 0xd800 ∧ codePoint ≤ 0xdfff) then
    t.putCharacter 0x3f
  else t.putCharacter codePoint

/-- The part of `HandleGroundByte` for `Utf8Remaining == 0`. -/
def groundByte (t : Terminal) (byte : UInt8) : Checked Terminal :=
  if byte = 0x1b then .ok { t with parser := { t.parser with state := .escape } }
  else if byte = 0x0d then .ok { t with column := 0, wrapPending := false }
  else if byte = 0x0a then t.indexDown
  else if byte = 0x08 then do
    let t ← if t.column ≠ 0 then do .ok { t with column := ← usub t.column 1 } else .ok t
    .ok { t with wrapPending := false }
  else if byte = 0x09 then do
    -- (Column + 8) & ~7
    .ok { t with
      column := min (← usub t.columns 1) ((t.column + 8) / 8 * 8)
      wrapPending := false }
  else if byte ≥ 0x20 ∧ byte < 0x7f then t.putCharacter byte.toNat
  else if byte &&& 0xe0 = 0xc0 then
    .ok { t with parser := { t.parser with
      utf8Remaining := 1, utf8CodePoint := (byte &&& 0x1f).toNat } }
  else if byte &&& 0xf0 = 0xe0 then
    .ok { t with parser := { t.parser with
      utf8Remaining := 2, utf8CodePoint := (byte &&& 0x0f).toNat } }
  else if byte &&& 0xf8 = 0xf0 then
    .ok { t with parser := { t.parser with
      utf8Remaining := 3, utf8CodePoint := (byte &&& 0x07).toNat } }
  else .ok t

/-- `HandleGroundByte`.  The byte that breaks off a sequence is handled again
with `Utf8Remaining` zero, so the recursion is one level deep. -/
def handleGroundByte (t : Terminal) (byte : UInt8) : Checked Terminal :=
  if t.parser.utf8Remaining ≠ 0 then
    if byte &&& 0xc0 ≠ 0x80 then do
      let t := { t with parser := { t.parser with utf8Remaining := 0 } }
      let t ← t.emitCodePoint 0xfffd
      t.groundByte byte
    else do
      let codePoint :=
        ((t.parser.utf8CodePoint <<< 6) ||| (byte &&& 0x3f).toNat) % 0x100000000
      let remaining ← usub t.parser.utf8Remaining 1
      let t := { t with parser := { t.parser with
        utf8CodePoint := codePoint, utf8Remaining := remaining } }
      if remaining = 0 then t.emitCodePoint codePoint else .ok t
  else t.groundByte byte

/-- Leave the parser in the given state. -/
def setParserState (t : Terminal) (state : ParserState) : Terminal :=
  { t with parser := { t.parser with state := state } }

/-- `case ParserEscape` of `WolfSshTerminalFeed`. -/
def escapeByte (t : Terminal) (byte : UInt8) : Checked Terminal :=
  if byte = 0x5b then                             -- '['
    .ok { t with parser := { t.parser.reset with state := .csi } }
  else if byte = 0x5d then .ok (t.setParserState .osc)  -- ']'
  else if byte = 0x37 then                        -- '7'
    .ok ({ t with savedRow := t.row, savedColumn := t.column }.setParserState .ground)
  else if byte = 0x38 then do                     -- '8'
    let t := { t with
      row := min t.savedRow (← usub t.rows 1)
      column := min t.savedColumn (← usub t.columns 1) }
    .ok (t.setParserState .ground)
  else if byte = 0x44 then do                     -- 'D'
    let t ← t.indexDown
    .ok (t.setParserState .ground)
  else if byte = 0x4d then do                     -- 'M'
    let t ← t.indexUp
    .ok (t.setParserState .ground)
  else if byte = 0x45 then do                     -- 'E'
    let t ← indexDown { t with column := 0 }
    .ok (t.setParserState .ground)
  else if byte = 0x63 then do                     -- 'c'
    let t := { t with
      foreground := t.defaultForeground, background := t.defaultBackground
      bold := false, reverse := false
      row := 0, column := 0
      scrollTop := 0, scrollBottom := ← usub t.rows 1 }
    let t ← t.clearBuffer t.cells
    .ok (t.clearScreen.setParserState .ground)
  else .ok (t.setParserState .ground)

/-- `case ParserCsi` of `WolfSshTerminalFeed`. -/
def csiByte (t : Terminal) (byte : UInt8) : Checked Terminal := do
  if byte = 0x3f ∧ t.parser.parameterCount = 1 ∧ (← readParameter t.parser 0) < 0 then  -- '?'
    .ok { t with parser := { t.parser with privateCsi := true } }
  else if byte ≥ 0x30 ∧ byte ≤ 0x39 then do
    let index ← usub t.parser.parameterCount 1
    let value ← readParameter t.parser index
    let value := if value < 0 then 0 else value
    let value := if value < 1000000 then value * 10 + (byte.toNat - 0x30 : Int) else value
    .ok { t with parser := ← writeParameter t.parser index value }
  else if byte = 0x3b then                        -- ';'
    if t.parser.parameterCount < terminalMaxParams then do
      let p ← writeParameter t.parser t.parser.parameterCount (-1)
      .ok { t with parser := { p with parameterCount := t.parser.parameterCount + 1 } }
    else .ok t
  else if byte ≥ 0x40 ∧ byte ≤ 0x7e then do
    let t ← t.handleCsi byte
    .ok (t.setParserState .ground)
  else .ok t

/-- One round of the loop in `WolfSshTerminalFeed`. -/
def feedByte (t : Terminal) (byte : UInt8) : Checked Terminal :=
  if byte = 0x1b then
    if t.parser.state = .osc then .ok (t.setParserState .oscEscape)
    else if t.parser.state ≠ .oscEscape then
      .ok { t with parser := { t.parser with state := .escape, utf8Remaining := 0 } }
    else .ok t
  else
    match t.parser.state with
    | .ground => t.handleGroundByte byte
    | .escape => t.escapeByte byte
    | .csi => t.csiByte byte
    | .osc =>
        if byte = 0x07 then .ok (t.setParserState .ground)
        else if byte = 0x1b then .ok (t.setParserState .oscEscape)
        else .ok t
    | .oscEscape => .ok (t.setParserState (if byte = 0x5c then .ground else .osc))

/-- `WolfSshTerminalFeed` -/
def feed (t : Terminal) (data : List UInt8) : Checked Terminal :=
  data.foldlM feedByte t

/-! ### Painting -/

/-- Record a call on `gST->ConOut`. -/
def call (t : Terminal) (c : ConsoleCall) : Terminal :=
  { t with conOut := t.conOut ++ [c] }

/-- `while ((RunEnd < End) && …) RunEnd++`, with `End - RunEnd` cells to go. -/
def runEnd (t : Terminal) (row attr : Nat) : Nat → Nat → Checked Nat
  | 0, last => .ok last
  | left + 1, last => do
      let cell ← t.readCell row (last + 1)
      if cell.attr = attr then runEnd t row attr left (last + 1) else .ok last

/-- `RenderBuffer[index] = …` in a buffer of `Columns + 1` characters. -/
def writeRender (t : Terminal) (index character : Nat) : Checked Terminal :=
  if index < t.columns + 1 then
    .ok { t with renderBuffer := Function.update t.renderBuffer index character }
  else .error .render

/-- The NUL-terminated string in a buffer with `size` characters left. -/
def cString (buffer : Nat → Nat) : Nat → Nat → Checked (List Nat)
  | 0, _ => .error .render
  | size + 1, i =>
      if buffer i = 0 then .ok []
      else do
        let rest ← cString buffer size (i + 1)
        .ok (buffer i :: rest)

/-- One round of `while (Position <= End)`: paint the run that starts at
`position`, and return where it ends. -/
def paintRun (t : Terminal) (row position last : Nat) : Checked (Terminal × Nat) := do
  let attr := (← t.readCell row position).attr
  let runEnd ← t.runEnd row attr (last - position) position
  let t ← upFrom (fun index t => do
      let cell ← t.readCell row index
      t.writeRender (← usub index position) cell.character) (runEnd + 1 - position) position t
  let t ← t.writeRender ((← usub runEnd position) + 1) 0
  let text ← cString t.renderBuffer (t.columns + 1) 0
  let t := ((t.call (.setAttribute attr)).call (.setCursorPosition position row)).call
    (.outputString text)
  .ok (t, runEnd)

/-- `while (Position <= End)`; every round advances the position. -/
def paintRuns (row last : Nat) : Nat → Nat → Terminal → Checked Terminal
  | 0, _, t => .ok t
  | rounds + 1, position, t =>
      if position ≤ last then do
        let (t, runEnd) ← t.paintRun row position last
        paintRuns row last rounds (runEnd + 1) t
      else .ok t

/-- One round of the loop over the rows in `WolfSshTerminalFlush`. -/
def flushRow (t : Terminal) (row : Nat) : Checked Terminal := do
  let (start, last) ← t.readDirty row
  if start ≥ t.columns ∨ last < start then .ok t
  else do
    let t ← paintRuns row last (last + 1 - start) start t
    t.writeDirty row t.columns 0

/-- `WolfSshTerminalFlush` -/
def flush (t : Terminal) : Checked Terminal := do
  let t := t.call (.enableCursor false)
  let t ← upFrom (fun row t => t.flushRow row) t.rows 0 t
  let t := t.call (.setAttribute t.terminalAttribute)
  let t := t.call (.setCursorPosition t.column t.row)
  .ok (t.call (.enableCursor t.cursorVisible))

/-- `WolfSshTerminalTakeResponse` into a buffer of `capacity` bytes. -/
def takeResponse (t : Terminal) (capacity : Nat) : Checked (List UInt8 × Terminal) :=
  if capacity = 0 then .ok ([], t)
  else
    let length := min capacity t.replyLength
    if length ≤ terminalReplySize then do
      let taken := (List.range length).map t.replies
      let left ← usub t.replyLength length
      if left = 0 then .ok (taken, { t with replyLength := left })
      else if length + left ≤ terminalReplySize then
        .ok (taken, { t with
          replyLength := left
          replies := fun i => if i < left then t.replies (i + length) else t.replies i })
      else .error .reply
    else .error .reply

/-! ### Creation -/

/-- The blocks `WolfSshTerminalCreate` asks the pool for. -/
inductive Block
  | terminal | primary | alternate | dirtyStart | dirtyEnd | renderBuffer
  deriving DecidableEq, Repr

inductive PoolCall
  | allocate (block : Block) (granted : Bool)
  | free (pointer : Option Block)
  deriving DecidableEq, Repr

/-- What the firmware answers during `WolfSshTerminalCreate`: whether `gST`,
`ConOut` and `Mode` are there, the result of `QueryMode`, `Mode->Attribute`,
which allocations are granted, and what blocks from `AllocatePool` hold. -/
structure Firmware where
  consolePresent : Bool
  queryFails : Bool
  queryColumns : Nat
  queryRows : Nat
  modeAttribute : Nat
  grants : Block → Bool
  primaryPool : Grid Cell
  alternatePool : Grid Cell
  dirtyStartPool : Nat → Nat
  renderPool : Nat → Nat

/-- The geometry `WolfSshTerminalCreate` settles on: columns and rows. -/
def Firmware.geometry (fw : Firmware) : Nat × Nat :=
  if fw.queryFails ∨ fw.queryColumns = 0 ∨ fw.queryRows = 0 ∨
      fw.queryColumns > maxUint16 ∨ fw.queryRows > maxUint16 then (80, 25)
  else (fw.queryColumns, fw.queryRows)

structure CreateOutcome where
  terminal : Option Terminal
  conOut : List ConsoleCall
  pool : List PoolCall

/-- `WolfSshTerminalDestroy` of an object whose blocks are at `held`. -/
def destroyCalls (consolePresent : Bool) (foreground background : Nat)
    (held : Block → Option Block) : List ConsoleCall × List PoolCall :=
  (if consolePresent then
      [.setAttribute (efiTextAttr foreground background), .enableCursor true]
    else [],
    [.free (held .renderBuffer), .free (held .dirtyEnd), .free (held .dirtyStart),
      .free (held .alternate), .free (held .primary), .free (held .terminal)])

/-- The fields `WolfSshTerminalCreate` sets before it clears the buffers; the
rest of the object is zero. -/
def Firmware.initial (fw : Firmware) (columns rows scrollBottom : Nat) : Terminal :=
  let foreground := fw.modeAttribute &&& 0x0f
  let background := (fw.modeAttribute >>> 4) &&& 0x07
  { columns := columns, rows := rows
    primary := fw.primaryPool, alternate := fw.alternatePool, cells := .primary
    dirtyStart := fw.dirtyStartPool, dirtyEnd := fun _ => 0, renderBuffer := fw.renderPool
    row := 0, column := 0, savedRow := 0, savedColumn := 0
    primaryRow := 0, primaryColumn := 0
    scrollTop := 0, scrollBottom := scrollBottom
    defaultForeground := foreground, defaultBackground := background
    foreground := foreground, background := background
    bold := false, reverse := false, cursorVisible := true, applicationCursor := false
    insertMode := false, wrapPending := false, alternateActive := false
    parser := {
      state := .ground, parameters := fun _ => 0, parameterCount := 0
      privateCsi := false, utf8Remaining := 0, utf8CodePoint := 0 }
    replies := fun _ => 0, replyLength := 0, conOut := [] }

/-- The end of `WolfSshTerminalCreate`, once it has all its blocks. -/
def Firmware.setUp (fw : Firmware) (columns rows : Nat) : Checked Terminal := do
  let t := fw.initial columns rows (← usub rows 1)
  let t ← t.clearBuffer .primary
  let t ← t.clearBuffer .alternate
  let t ← upFrom (fun row t => do
      let (_, last) ← t.readDirty row
      t.writeDirty row t.columns last) rows 0 t
  .ok { t with parser := t.parser.reset }

/-- `WolfSshTerminalCreate` -/
def create (fw : Firmware) : Checked CreateOutcome :=
  let blocks : List Block := [.primary, .alternate, .dirtyStart, .dirtyEnd, .renderBuffer]
  if ¬ fw.consolePresent then .ok ⟨none, [], []⟩
  else if ¬ fw.grants .terminal then .ok ⟨none, [], [.allocate .terminal false]⟩
  else
    let pool := .allocate .terminal true :: blocks.map fun b => .allocate b (fw.grants b)
    if ¬ blocks.all fw.grants then
      let held := fun b => if fw.grants b then some b else none
      -- the colours of the zeroed object are still 0
      let (calls, frees) := destroyCalls fw.consolePresent 0 0 held
      .ok ⟨none, calls, pool ++ frees⟩
    else do
      let t ← fw.setUp fw.geometry.1 fw.geometry.2
      .ok ⟨some t, [], pool⟩

/-! ### Runs -/

/-- A call the session makes on its terminal. -/
inductive Call
  | feed (data : List UInt8)
  | flush
  | takeResponse (capacity : Nat)

def perform (t : Terminal) : Call → Checked Terminal
  | .feed data => t.feed data
  | .flush => t.flush
  | .takeResponse capacity => do
      let (_, t) ← t.takeResponse capacity
      .ok t

/-- A finite sequence of calls, in order. -/
def run (t : Terminal) (calls : List Call) : Checked Terminal :=
  calls.foldlM perform t

/-- `t` is what a successful `WolfSshTerminalCreate` returns. -/
def Created (t : Terminal) : Prop :=
  ∃ fw conOut pool, create fw = .ok ⟨some t, conOut, pool⟩

/-- `t` is the state after some calls on a created terminal. -/
def Reachable (t : Terminal) : Prop :=
  ∃ t₀ calls, Created t₀ ∧ t₀.run calls = .ok t

end Terminal

end WolfSshUefi
