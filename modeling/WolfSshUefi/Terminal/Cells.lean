import WolfSshUefi.Terminal.State

/-!
# Drawing into the cell buffer

The functions of `Terminal.c` that move and write cells, up to the cursor
functions for one character.  Loops keep their direction and their bounds;
`Loops.upFrom` takes the number of iterations, and the bound it comes from is
noted where the C condition is not of the form `x < bound` or `x <= bound`.
-/

namespace WolfSshUefi.Terminal

open Loops

/-- `MarkDirty` -/
def markDirty (t : Terminal) (row start last : Nat) : Checked Terminal :=
  if row ≥ t.rows ∨ start ≥ t.columns then .ok t
  else do
    let last := min last (← usub t.columns 1)
    let (dirtyStart, dirtyEnd) ← t.readDirty row
    t.writeDirty row (min dirtyStart start) (max dirtyEnd last)

/-- `MarkDirtyRows` -/
def markDirtyRows (t : Terminal) (first last : Nat) : Checked Terminal := do
  let last := min last (← usub t.rows 1)
  upFrom (fun row t => do t.markDirty row 0 (← usub t.columns 1)) (last + 1 - first) first t

/-- `FillCells` -/
def fillCells (t : Terminal) (row start last attr : Nat) : Checked Terminal :=
  if row ≥ t.rows ∨ start ≥ t.columns then .ok t
  else do
    let last := min last (← usub t.columns 1)
    let t ← upFrom (fun column t => t.writeCell row column ⟨0x20, attr⟩)
      (last + 1 - start) start t
    t.markDirty row start last

/-- `Buffer[Index] = …` in a buffer of `Rows * Columns` cells. -/
def writeIndex (t : Terminal) (which : Buffer) (index : Nat) (cell : Cell) : Checked Terminal :=
  if index < t.rows * t.columns then
    let column := index % t.columns
    .ok (t.editBuffer which fun cells =>
      cells.fill (index / t.columns) 1 column (column + 1) cell)
  else .error .cell

/-- `ClearBuffer` -/
def clearBuffer (t : Terminal) (which : Buffer) : Checked Terminal :=
  let attr := efiTextAttr t.defaultForeground t.defaultBackground
  upFrom (fun index t => t.writeIndex which index ⟨0x20, attr⟩) (t.rows * t.columns) 0 t

/-- `ScrollUp` -/
def scrollUp (t : Terminal) (count : Nat) : Checked Terminal := do
  let regionRows := (← usub t.scrollBottom t.scrollTop) + 1
  let count := min count regionRows
  if count = 0 then .ok t
  else
    -- Row + Count <= ScrollBottom
    let copies := t.scrollBottom + 1 - (t.scrollTop + count)
    let row := t.scrollTop + copies
    let t ← upFrom (fun row t => t.copyRow row (row + count)) copies t.scrollTop t
    let attr := t.terminalAttribute
    let t ← upFrom (fun row t => do t.fillCells row 0 (← usub t.columns 1) attr)
      (t.scrollBottom + 1 - row) row t
    t.markDirtyRows t.scrollTop t.scrollBottom

/-- `ScrollDown` -/
def scrollDown (t : Terminal) (count : Nat) : Checked Terminal := do
  let regionRows := (← usub t.scrollBottom t.scrollTop) + 1
  let count := min count regionRows
  if count = 0 then .ok t
  else
    let t ← downTo (fun row t => do t.copyRow row (← usub row count))
      (t.scrollTop + count) (t.scrollBottom + 1) t
    let attr := t.terminalAttribute
    let t ← upFrom (fun row t => do t.fillCells row 0 (← usub t.columns 1) attr)
      (t.scrollTop + count - t.scrollTop) t.scrollTop t
    t.markDirtyRows t.scrollTop t.scrollBottom

/-- `IndexDown` -/
def indexDown (t : Terminal) : Checked Terminal :=
  let t := { t with wrapPending := false }
  if t.row = t.scrollBottom then t.scrollUp 1
  else if t.row + 1 < t.rows then .ok { t with row := t.row + 1 }
  else .ok t

/-- `IndexUp` -/
def indexUp (t : Terminal) : Checked Terminal :=
  let t := { t with wrapPending := false }
  if t.row = t.scrollTop then t.scrollDown 1
  else if t.row ≠ 0 then do .ok { t with row := ← usub t.row 1 }
  else .ok t

/-- The deferred wrap, at the start of `PutCharacter`. -/
def wrapLine (t : Terminal) : Checked Terminal :=
  if t.wrapPending then indexDown { t with column := 0 } else .ok t

/-- The part of `PutCharacter` for insert mode. -/
def makeRoom (t : Terminal) : Checked Terminal :=
  if t.insertMode ∧ t.column + 1 < t.columns then do
    let last ← usub t.columns 1
    -- Column > Terminal->Column
    let t ← downTo (fun column t => do
        let cell ← t.readCell t.row (← usub column 1)
        t.writeCell t.row column cell) (t.column + 1) (last + 1) t
    t.markDirty t.row t.column last
  else .ok t

/-- `PutCharacter` -/
def putCharacter (t : Terminal) (character : Nat) : Checked Terminal := do
  let t ← t.wrapLine
  let t ← t.makeRoom
  let t ← t.writeCell t.row t.column ⟨character, t.terminalAttribute⟩
  let t ← t.markDirty t.row t.column t.column
  if t.column + 1 = t.columns then .ok { t with wrapPending := true }
  else .ok { t with column := t.column + 1 }

/-- `InsertLines` -/
def insertLines (t : Terminal) (count : Nat) : Checked Terminal :=
  if t.row < t.scrollTop ∨ t.row > t.scrollBottom then .ok t
  else do
    let available := (← usub t.scrollBottom t.row) + 1
    let count := min count available
    let t ← downTo (fun row t => do t.copyRow row (← usub row count))
      (t.row + count) (t.scrollBottom + 1) t
    let attr := t.terminalAttribute
    let t ← upFrom (fun row t => do t.fillCells row 0 (← usub t.columns 1) attr)
      (t.row + count - t.row) t.row t
    t.markDirtyRows t.row t.scrollBottom

/-- `DeleteLines` -/
def deleteLines (t : Terminal) (count : Nat) : Checked Terminal :=
  if t.row < t.scrollTop ∨ t.row > t.scrollBottom then .ok t
  else do
    let available := (← usub t.scrollBottom t.row) + 1
    let count := min count available
    -- Row + Count <= ScrollBottom
    let copies := t.scrollBottom + 1 - (t.row + count)
    let row := t.row + copies
    let t ← upFrom (fun row t => t.copyRow row (row + count)) copies t.row t
    let attr := t.terminalAttribute
    let t ← upFrom (fun row t => do t.fillCells row 0 (← usub t.columns 1) attr)
      (t.scrollBottom + 1 - row) row t
    t.markDirtyRows t.row t.scrollBottom

/-- `InsertCharacters` -/
def insertCharacters (t : Terminal) (count : Nat) : Checked Terminal := do
  let available ← usub t.columns t.column
  let count := min count available
  let t ← downTo (fun column t => do
      let cell ← t.readCell t.row (← usub column count)
      t.writeCell t.row column cell) (t.column + count) t.columns t
  let t ← t.fillCells t.row t.column (← usub (t.column + count) 1) t.terminalAttribute
  t.markDirty t.row t.column (← usub t.columns 1)

/-- `DeleteCharacters` -/
def deleteCharacters (t : Terminal) (count : Nat) : Checked Terminal := do
  let available ← usub t.columns t.column
  let count := min count available
  -- Column + Count < Columns
  let t ← upFrom (fun column t => do
      let cell ← t.readCell t.row (column + count)
      t.writeCell t.row column cell) (t.columns - (t.column + count)) t.column t
  let t ← t.fillCells t.row (← usub t.columns count) (← usub t.columns 1) t.terminalAttribute
  t.markDirty t.row t.column (← usub t.columns 1)

end WolfSshUefi.Terminal
