import WolfSshUefi.Terminal.Cells

/-!
# Control sequences

`HandleCsi` and the functions it dispatches to.  The parameters it reads were
collected by the parser; an omitted parameter is stored as `-1`.
-/

namespace WolfSshUefi

/-- The `case` labels of the switch in `HandleCsi`. -/
inductive CsiFinal
  | cursorUp | cursorDown | cursorForward | cursorBack | nextLine | previousLine
  | columnAbsolute | position | lineAbsolute | eraseDisplay | eraseLine | rendition
  | saveCursor | restoreCursor | margins | insertLines | deleteLines
  | insertCharacters | deleteCharacters | eraseCharacters | scrollUp | scrollDown
  | setModes | resetModes | report | deviceAttributes | other
  deriving DecidableEq, Repr

def csiFinal (finalByte : UInt8) : CsiFinal :=
  match finalByte with
  | 0x41 => .cursorUp           -- 'A'
  | 0x42 => .cursorDown         -- 'B'
  | 0x43 => .cursorForward      -- 'C'
  | 0x44 => .cursorBack         -- 'D'
  | 0x45 => .nextLine           -- 'E'
  | 0x46 => .previousLine       -- 'F'
  | 0x47 => .columnAbsolute     -- 'G'
  | 0x48 => .position           -- 'H'
  | 0x66 => .position           -- 'f'
  | 0x64 => .lineAbsolute       -- 'd'
  | 0x4a => .eraseDisplay       -- 'J'
  | 0x4b => .eraseLine          -- 'K'
  | 0x6d => .rendition          -- 'm'
  | 0x73 => .saveCursor         -- 's'
  | 0x75 => .restoreCursor      -- 'u'
  | 0x72 => .margins            -- 'r'
  | 0x4c => .insertLines        -- 'L'
  | 0x4d => .deleteLines        -- 'M'
  | 0x40 => .insertCharacters   -- '@'
  | 0x50 => .deleteCharacters   -- 'P'
  | 0x58 => .eraseCharacters    -- 'X'
  | 0x53 => .scrollUp           -- 'S'
  | 0x54 => .scrollDown         -- 'T'
  | 0x68 => .setModes           -- 'h'
  | 0x6c => .resetModes         -- 'l'
  | 0x6e => .report             -- 'n'
  | 0x63 => .deviceAttributes   -- 'c'
  | _ => .other

/-- `Map256Color` -/
def map256Color (color : Nat) : Nat :=
  if color < 16 then color
  else if color ≥ 232 then (if color ≥ 244 then 15 else 8)
  else
    let color := color - 16
    let red := color / 36
    let green := (color / 6) % 6
    let blue := color % 6
    (if blue ≥ 3 then 1 else 0) ||| (if green ≥ 3 then 2 else 0) |||
      (if red ≥ 3 then 4 else 0) ||| (if max red (max green blue) ≥ 5 then 8 else 0)

/-- `MapRgbColor` -/
def mapRgbColor (red green blue : Nat) : Nat :=
  (if blue ≥ 128 then 1 else 0) ||| (if green ≥ 128 then 2 else 0) |||
    (if red ≥ 128 then 4 else 0) ||| (if max red (max green blue) ≥ 192 then 8 else 0)

/-- `%u` of `AsciiSPrint`. -/
def decimal (n : Nat) : List UInt8 :=
  (Nat.toDigits 10 n).map Char.toUInt8

/-- The reply to `CSI 6 n`, as `AsciiSPrint` leaves it in a buffer of 32 bytes. -/
def cursorReport (row column : Nat) : List UInt8 :=
  ([0x1b, 0x5b] ++ decimal ((row + 1) % 0x100000000) ++ [0x3b] ++
    decimal ((column + 1) % 0x100000000) ++ [0x52]).take 31

/-- The reply to `CSI 5 n`. -/
def statusReply : List UInt8 := [0x1b, 0x5b, 0x30, 0x6e]

/-- The reply to `CSI c`. -/
def attributesReply : List UInt8 := [0x1b, 0x5b, 0x3f, 0x31, 0x3b, 0x30, 0x63]

namespace Terminal

open Loops

/-- `Parameter` -/
def parameter (t : Terminal) (index : Nat) (defaultValue : Int) : Checked Int :=
  if index ≥ t.parser.parameterCount then .ok defaultValue
  else do
    let value ← readParameter t.parser index
    .ok (if value < 0 then defaultValue else value)

/-- `NonZeroParameter` -/
def nonZeroParameter (t : Terminal) (index : Nat) : Checked Nat := do
  let value ← t.parameter index 1
  .ok (if value ≤ 0 then 1 else value.toNat)

/-- `QueueReply` -/
def queueReply (t : Terminal) (reply : List UInt8) : Checked Terminal := do
  let available ← usub terminalReplySize t.replyLength
  let length := min reply.length available
  if length = 0 then .ok t
  else if t.replyLength + length ≤ terminalReplySize then
    .ok { t with
      replies := fun i =>
        if t.replyLength ≤ i ∧ i < t.replyLength + length then reply.getD (i - t.replyLength) 0
        else t.replies i
      replyLength := t.replyLength + length }
  else .error .reply

/-- One round of the loop in `SelectGraphicRendition`: the new state, and the
index of the last parameter the round used. -/
def graphicRenditionItem (t : Terminal) (index : Nat) : Checked (Terminal × Nat) := do
  let value ← t.parameter index 0
  let selector ← t.parameter (index + 1) (-1)
  if value = 0 then
    .ok ({ t with
      foreground := t.defaultForeground, background := t.defaultBackground
      bold := false, reverse := false }, index)
  else if value = 1 then .ok ({ t with bold := true }, index)
  else if value = 22 then .ok ({ t with bold := false }, index)
  else if value = 7 then .ok ({ t with reverse := true }, index)
  else if value = 27 then .ok ({ t with reverse := false }, index)
  else if value ≥ 30 ∧ value ≤ 37 then
    .ok ({ t with foreground := (value - 30).toNat }, index)
  else if value ≥ 90 ∧ value ≤ 97 then
    .ok ({ t with foreground := (value - 90 + 8).toNat }, index)
  else if value = 39 then .ok ({ t with foreground := t.defaultForeground }, index)
  else if value ≥ 40 ∧ value ≤ 47 then
    .ok ({ t with background := (value - 40).toNat }, index)
  else if value ≥ 100 ∧ value ≤ 107 then
    .ok ({ t with background := (value - 100 + 8).toNat }, index)
  else if value = 49 then .ok ({ t with background := t.defaultBackground }, index)
  else if (value = 38 ∨ value = 48) ∧ index + 2 < t.parser.parameterCount ∧ selector = 5 then do
    let color := map256Color (← t.parameter (index + 2) 0).toNat
    if value = 38 then .ok ({ t with foreground := color }, index + 2)
    else .ok ({ t with background := color }, index + 2)
  else if (value = 38 ∨ value = 48) ∧ index + 4 < t.parser.parameterCount ∧ selector = 2 then do
    let red := (← t.parameter (index + 2) 0).toNat
    let green := (← t.parameter (index + 3) 0).toNat
    let blue := (← t.parameter (index + 4) 0).toNat
    let color := mapRgbColor red green blue
    if value = 38 then .ok ({ t with foreground := color }, index + 4)
    else .ok ({ t with background := color }, index + 4)
  else .ok (t, index)

/-- The loop of `SelectGraphicRendition` from `index` on.  Every round advances
the index, so `ParameterCount` rounds are enough. -/
def graphicRenditionFrom : Nat → Nat → Terminal → Checked Terminal
  | 0, _, t => .ok t
  | rounds + 1, index, t =>
      if index < t.parser.parameterCount then do
        let (t, index) ← t.graphicRenditionItem index
        graphicRenditionFrom rounds (index + 1) t
      else .ok t

/-- `SelectGraphicRendition` -/
def selectGraphicRendition (t : Terminal) : Checked Terminal :=
  graphicRenditionFrom t.parser.parameterCount 0 t

/-- `gST->ConOut->ClearScreen` -/
def clearScreen (t : Terminal) : Terminal :=
  { t with conOut := t.conOut ++ [.clearScreen] }

/-- `EraseDisplay` -/
def eraseDisplay (t : Terminal) (mode : Int) : Checked Terminal :=
  let attr := t.terminalAttribute
  if mode = 2 ∨ mode = 3 then do
    let t ← t.clearBuffer t.cells
    upFrom (fun row t => t.writeDirty row t.columns 0) t.rows 0 t.clearScreen
  else if mode = 1 then do
    let t ← upFrom (fun row t => do t.fillCells row 0 (← usub t.columns 1) attr) t.row 0 t
    t.fillCells t.row 0 t.column attr
  else do
    let t ← t.fillCells t.row t.column (← usub t.columns 1) attr
    upFrom (fun row t => do t.fillCells row 0 (← usub t.columns 1) attr)
      (t.rows - (t.row + 1)) (t.row + 1) t

/-- `EraseLine` -/
def eraseLine (t : Terminal) (mode : Int) : Checked Terminal := do
  let attr := t.terminalAttribute
  if mode = 1 then t.fillCells t.row 0 t.column attr
  else if mode = 2 then t.fillCells t.row 0 (← usub t.columns 1) attr
  else t.fillCells t.row t.column (← usub t.columns 1) attr

/-- `SetAlternateScreen` -/
def setAlternateScreen (t : Terminal) (enable : Bool) : Checked Terminal := do
  let t ←
    if enable ∧ ¬ t.alternateActive then do
      let t := { t with
        primaryRow := t.row, primaryColumn := t.column
        cells := .alternate, alternateActive := true
        row := 0, column := 0 }
      let t ← t.clearBuffer .alternate
      let t := { t with scrollTop := 0, scrollBottom := ← usub t.rows 1 }
      .ok t.clearScreen
    else if ¬ enable ∧ t.alternateActive then do
      let t := { t with
        cells := .primary, alternateActive := false
        row := min t.primaryRow (← usub t.rows 1)
        column := min t.primaryColumn (← usub t.columns 1)
        scrollTop := 0, scrollBottom := ← usub t.rows 1 }
      t.markDirtyRows 0 (← usub t.rows 1)
    else .ok t
  .ok { t with wrapPending := false }

/-- One round of the loop in `SetModes`. -/
def setMode (t : Terminal) (enable : Bool) (index : Nat) : Checked Terminal := do
  let value ← t.parameter index 0
  if t.parser.privateCsi then
    if value = 1 then .ok { t with applicationCursor := enable }
    else if value = 25 then .ok { t with cursorVisible := enable }
    else if value = 47 ∨ value = 1047 ∨ value = 1049 then t.setAlternateScreen enable
    else .ok t
  else if value = 4 then .ok { t with insertMode := enable }
  else .ok t

/-- `SetModes` -/
def setModes (t : Terminal) (enable : Bool) : Checked Terminal :=
  upFrom (fun index t => t.setMode enable index) t.parser.parameterCount 0 t

/-- The switch of `HandleCsi`. -/
def dispatchCsi (t : Terminal) (count : Nat) (final : CsiFinal) : Checked Terminal := do
  match final with
  | .cursorUp =>
      if count > t.row then .ok { t with row := 0 }
      else do .ok { t with row := ← usub t.row count }
  | .cursorDown => .ok { t with row := min (← usub t.rows 1) (t.row + count) }
  | .cursorForward => .ok { t with column := min (← usub t.columns 1) (t.column + count) }
  | .cursorBack =>
      if count > t.column then .ok { t with column := 0 }
      else do .ok { t with column := ← usub t.column count }
  | .nextLine => .ok { t with row := min (← usub t.rows 1) (t.row + count), column := 0 }
  | .previousLine =>
      if count > t.row then .ok { t with row := 0, column := 0 }
      else do .ok { t with row := ← usub t.row count, column := 0 }
  | .columnAbsolute => .ok { t with column := min (← usub t.columns 1) (← usub count 1) }
  | .position =>
      let row ← usub (← t.nonZeroParameter 0) 1
      let column ← usub (← t.nonZeroParameter 1) 1
      .ok { t with row := min (← usub t.rows 1) row, column := min (← usub t.columns 1) column }
  | .lineAbsolute => .ok { t with row := min (← usub t.rows 1) (← usub count 1) }
  | .eraseDisplay => t.eraseDisplay (← t.parameter 0 0)
  | .eraseLine => t.eraseLine (← t.parameter 0 0)
  | .rendition => t.selectGraphicRendition
  | .saveCursor => .ok { t with savedRow := t.row, savedColumn := t.column }
  | .restoreCursor =>
      .ok { t with
        row := min t.savedRow (← usub t.rows 1)
        column := min t.savedColumn (← usub t.columns 1) }
  | .margins =>
      let row ← usub (← t.nonZeroParameter 0) 1
      -- wraps for an explicit 0; the value is compared before it is used
      let column := difference (← t.parameter 1 t.rows).toNat 1
      if row < column.value ∧ column.value < t.rows then do
        let bottom ← column.use .wrapped
        .ok { t with scrollTop := row, scrollBottom := bottom, row := 0, column := 0 }
      else .ok t
  | .insertLines => t.insertLines count
  | .deleteLines => t.deleteLines count
  | .insertCharacters => t.insertCharacters count
  | .deleteCharacters => t.deleteCharacters count
  | .eraseCharacters =>
      t.fillCells t.row t.column
        (min (← usub t.columns 1) (← usub (t.column + count) 1)) t.terminalAttribute
  | .scrollUp => t.scrollUp count
  | .scrollDown => t.scrollDown count
  | .setModes => t.setModes true
  | .resetModes => t.setModes false
  | .report =>
      let mode ← t.parameter 0 0
      if mode = 5 then t.queueReply statusReply
      else if mode = 6 then t.queueReply (cursorReport t.row t.column)
      else .ok t
  | .deviceAttributes => t.queueReply attributesReply
  | .other => .ok t

/-- `HandleCsi` -/
def handleCsi (t : Terminal) (finalByte : UInt8) : Checked Terminal := do
  let count ← t.nonZeroParameter 0
  dispatchCsi { t with wrapPending := false } count (csiFinal finalByte)

end Terminal

end WolfSshUefi
