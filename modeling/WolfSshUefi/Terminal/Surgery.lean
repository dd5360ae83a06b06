import WolfSshUefi.Library.Lines
import WolfSshUefi.Terminal.Escapes
import WolfSshUefi.Terminal.Rendition
import WolfSshUefi.Terminal.Saturation

/-!
# Rows and characters as lists

The operations that scroll, insert and delete move the rows of a region, or the
cells of the cursor line, in place.  Read as lists these are the lists without
some entries at one end and with as many blanks at the other: `row_operations`
for the rows, `character_operations` for the cells.
-/

namespace WolfSshUefi

/-- A count in digits. -/
structure Count where
  digits : List UInt8
  decimal : ∀ b ∈ digits, DigitByte b
  positive : 1 ≤ number digits

namespace Count

def value (n : Count) : Nat := number n.digits

def one : Count := ⟨[0x31], by simp [DigitByte], by decide⟩

/-- `CSI n` and the final byte. -/
def sequence (n : Count) (final : UInt8) : List UInt8 := controlSequence n.digits final

end Count

inductive RowOperation
  | scrollUp (n : Count)       -- CSI n S
  | scrollDown (n : Count)     -- CSI n T
  | insertLines (n : Count)    -- CSI n L
  | deleteLines (n : Count)    -- CSI n M
  | lineFeed                   -- LF
  | index                      -- ESC D
  | reverseIndex               -- ESC M

namespace RowOperation

def bytes : RowOperation → List UInt8
  | .scrollUp n => n.sequence 0x53
  | .scrollDown n => n.sequence 0x54
  | .insertLines n => n.sequence 0x4c
  | .deleteLines n => n.sequence 0x4d
  | .lineFeed => [0x0a]
  | .index => [0x1b, 0x44]
  | .reverseIndex => [0x1b, 0x4d]

def count : RowOperation → Nat
  | .scrollUp n | .scrollDown n | .insertLines n | .deleteLines n => n.value
  | .lineFeed | .index | .reverseIndex => 1

/-- The first row of the region; the last one is the bottom margin. -/
def top (t : Terminal) : RowOperation → Nat
  | .insertLines _ | .deleteLines _ => t.row
  | _ => t.scrollTop

/-- Rows leave at the top. -/
def Removes : RowOperation → Prop
  | .scrollUp _ | .deleteLines _ | .lineFeed | .index => True
  | .scrollDown _ | .insertLines _ | .reverseIndex => False

instance : DecidablePred Removes
  | .scrollUp _ | .deleteLines _ | .lineFeed | .index => isTrue trivial
  | .scrollDown _ | .insertLines _ | .reverseIndex => isFalse id

/-- The bytes are read as the operation, and the cursor is where it moves rows. -/
def Applies (t : Terminal) : RowOperation → Prop
  | .scrollUp _ | .scrollDown _ | .insertLines _ | .deleteLines _ => t.parser.Listening
  | .lineFeed => t.parser.Idle ∧ t.row = t.scrollBottom
  | .index => t.parser.Listening ∧ t.row = t.scrollBottom
  | .reverseIndex => t.parser.Listening ∧ t.row = t.scrollTop

/-- Lines are inserted and deleted between the margins only. -/
def Acts (t : Terminal) : RowOperation → Prop
  | .insertLines _ | .deleteLines _ => Screen.InMargins t
  | _ => True

/-- The lines of the region. -/
def region (t : Terminal) (op : RowOperation) : List (List Cell) :=
  t.active.lines t.columns (op.top t) (t.scrollBottom + 1 - op.top t)

/-- The lines of the region after the operation. -/
def surgery (t : Terminal) (op : RowOperation) : List (List Cell) :=
  let k := min op.count (op.region t).length
  let blanks := List.replicate k (List.replicate t.columns t.blank)
  if op.Removes then (op.region t).drop k ++ blanks
  else blanks ++ (op.region t).take ((op.region t).length - k)

end RowOperation

inductive CharacterOperation
  | insert (n : Count)         -- CSI n @
  | delete (n : Count)         -- CSI n P
  | erase (n : Count)          -- CSI n X

namespace CharacterOperation

def bytes : CharacterOperation → List UInt8
  | .insert n => n.sequence 0x40
  | .delete n => n.sequence 0x50
  | .erase n => n.sequence 0x58

def count : CharacterOperation → Nat
  | .insert n | .delete n | .erase n => n.value

/-- The cursor line after the operation. -/
def surgery (t : Terminal) (op : CharacterOperation) : List Cell :=
  let before := (t.active.line t.columns t.row).take t.column
  let after := (t.active.line t.columns t.row).drop t.column
  let k := min op.count (t.columns - t.column)
  let blanks := List.replicate k t.blank
  match op with
  | .insert _ => before ++ blanks ++ after.take (after.length - k)
  | .delete _ => before ++ after.drop k ++ blanks
  | .erase _ => before ++ blanks ++ after.drop k

end CharacterOperation

namespace Terminal

/-- The buffer that is not shown. -/
def inactive (t : Terminal) : Grid Cell :=
  match t.cells with
  | .primary => t.alternate
  | .alternate => t.primary

/-- The rows `first ..< first + count` are now `lines`; no other cell has changed, nor
has the cursor. -/
structure Replaced (t u : Terminal) (first count : Nat) (lines : List (List Cell)) : Prop where
  lines : u.active.lines t.columns first count = lines
  outside : ∀ i j, ¬ (first ≤ i ∧ i < first + count) → u.active i j = t.active i j
  cells : u.cells = t.cells
  inactive : u.inactive = t.inactive
  cursor : u.row = t.row ∧ u.column = t.column

/-- The same cells and the same cursor. -/
structure SameCells (t u : Terminal) : Prop where
  active : t.active = u.active
  cells : t.cells = u.cells
  inactive : t.inactive = u.inactive
  cursor : t.row = u.row ∧ t.column = u.column

/-- An edit leaves the other buffer alone. -/
theorem inactive_edit (t : Terminal) (f : Grid Cell → Grid Cell) :
    (t.edit f).inactive = t.inactive := by
  cases h : t.cells <;> simp [inactive, edit, editBuffer, h]

end Terminal

/-! ### The sequences -/

namespace Count

/-- A count has a digit. -/
theorem digits_ne_nil (n : Count) : n.digits ≠ [] := by
  intro hnil
  have hpos := n.positive
  rw [hnil] at hpos
  exact absurd hpos (by decide)

/-- A command with a count reads the count. -/
theorem countAt_digits (n : Count) : countAt [exactParameter n.digits] 0 = n.value := by
  have hpos := n.positive
  show max 1 (exactParameter n.digits).toNat = number n.digits
  rw [exactParameter, if_neg n.digits_ne_nil]
  omega

/-- A final byte whose one command takes the count. -/
theorem feed_command (n : Count) {t : Terminal} (ht : t.WellFormed) (hlisten : t.parser.Listening)
    (final : UInt8) (command : Nat → Command) (hfinal : FinalByte final)
    (haction : ∀ params, csiAction (csiFinal final) false params = [command (countAt params 0)]) :
    ∃ p : Parser, t.feed (n.sequence final) =
      .ok ((Screen.exec (Screen.cancelWrap t) (command n.value)).withParser p) := by
  obtain ⟨p, _, hfeed⟩ := Terminal.feed_number ht hlisten n.decimal hfinal
  rw [haction, countAt_digits] at hfeed
  exact ⟨p, hfeed⟩

end Count

namespace Terminal

open Screen

variable {t : Terminal}

/-- A line feed is an index. -/
theorem feed_lineFeed (ht : t.WellFormed) (hidle : t.parser.Idle) :
    t.feed [0x0a] = .ok ((Screen.index t).withParser t.parser) := by
  have hnext : t.parser.next 0x0a = (t.parser, [.index]) := by
    unfold Parser.next Parser.text
    rw [if_neg (by decide), hidle.1]
    simp only [if_pos hidle.2]
    rfl
  rw [ht.feed_eq, feed_eq_execAll, Parser.commands_cons, Parser.after_cons, hnext]
  rfl

/-- `ESC D` and `ESC M` -/
theorem feed_escape (ht : t.WellFormed) (hlisten : t.parser.Listening) :
    (∃ p, t.feed [0x1b, 0x44] = .ok ((Screen.index t).withParser p)) ∧
      ∃ p, t.feed [0x1b, 0x4d] = .ok ((Screen.reverseIndex t).withParser p) := by
  have hescape := Parser.next_escape hlisten
  constructor
  · refine ⟨{ t.parser with state := .ground, utf8Remaining := 0 }, ?_⟩
    rw [ht.feed_eq, feed_eq_execAll, Parser.commands_cons, Parser.after_cons, hescape]
    rfl
  · refine ⟨{ t.parser with state := .ground, utf8Remaining := 0 }, ?_⟩
    rw [ht.feed_eq, feed_eq_execAll, Parser.commands_cons, Parser.after_cons, hescape]
    rfl

/-- An edit of some rows, after a parser has read the sequence that asks for it. -/
theorem replaced_edit (t : Terminal) (f : Grid Cell → Grid Cell) {first count : Nat}
    (hframe : ∀ i j, ¬ (first ≤ i ∧ i < first + count) → f t.active i j = t.active i j)
    (dirty rows left right : Nat) (p : Parser) :
    Replaced t ((mark ((cancelWrap t).edit f) dirty rows left right).withParser p) first count
      ((f t.active).lines t.columns first count) := by
  have hactive : ((mark ((cancelWrap t).edit f) dirty rows left right).withParser p).active =
      f t.active := (cancelWrap t).active_edit f
  have hinactive : ((mark ((cancelWrap t).edit f) dirty rows left right).withParser p).inactive =
      t.inactive := (cancelWrap t).inactive_edit f
  refine ⟨by rw [hactive], ?_, rfl, hinactive, rfl, rfl⟩
  intro i j houtside
  rw [hactive]
  exact hframe i j houtside

/-! ### Rows -/

/-- What moves rows up removes lines. -/
theorem replaced_of_removes (op : RowOperation) (hremoves : op.Removes)
    (htop : op.top t ≤ t.scrollBottom) (p : Parser) :
    Replaced t ((moveUp (cancelWrap t) (op.top t) op.count).withParser p) (op.top t)
      (t.scrollBottom + 1 - op.top t) (op.surgery t) := by
  have hlength : t.scrollBottom - op.top t + 1 = t.scrollBottom + 1 - op.top t := by omega
  have hlines : op.surgery t = (t.active.shiftUp (op.top t) t.scrollBottom
      (min op.count (t.scrollBottom - op.top t + 1)) t.columns t.blank).lines t.columns (op.top t)
        (t.scrollBottom + 1 - op.top t) := by
    rw [hlength, Grid.lines_shiftUp t.active (by omega) (Nat.min_le_right _ _)]
    simp only [RowOperation.surgery, RowOperation.region, Grid.length_lines, if_pos hremoves]
  rw [hlines]
  refine replaced_edit t (fun cells => cells.shiftUp (op.top t) t.scrollBottom
    (min op.count (t.scrollBottom - op.top t + 1)) t.columns t.blank) ?_ _ _ _ _ p
  intro i j houtside
  exact if_neg (by omega)

/-- What moves rows down adds blank lines. -/
theorem replaced_of_adds (op : RowOperation) (hadds : ¬ op.Removes)
    (htop : op.top t ≤ t.scrollBottom) (p : Parser) :
    Replaced t ((moveDown (cancelWrap t) (op.top t) op.count).withParser p) (op.top t)
      (t.scrollBottom + 1 - op.top t) (op.surgery t) := by
  have hlength : t.scrollBottom - op.top t + 1 = t.scrollBottom + 1 - op.top t := by omega
  have hlines : op.surgery t = (t.active.shiftDown (op.top t) t.scrollBottom
      (min op.count (t.scrollBottom - op.top t + 1)) t.columns t.blank).lines t.columns (op.top t)
        (t.scrollBottom + 1 - op.top t) := by
    rw [hlength, Grid.lines_shiftDown t.active (Nat.min_le_right _ _)]
    simp only [RowOperation.surgery, RowOperation.region, Grid.length_lines, if_neg hadds]
  rw [hlines]
  refine replaced_edit t (fun cells => cells.shiftDown (op.top t) t.scrollBottom
    (min op.count (t.scrollBottom - op.top t + 1)) t.columns t.blank) ?_ _ _ _ _ p
  intro i j houtside
  exact if_neg (by omega)

/-- **Row operations are list surgery.** -/
theorem row_operations (h : Reachable t) (op : RowOperation) (happlies : op.Applies t) :
    ∃ u : Terminal, t.feed op.bytes = .ok u ∧
      (op.Acts t → Replaced t u (op.top t) (t.scrollBottom + 1 - op.top t) (op.surgery t)) ∧
      (¬ op.Acts t → SameCells t u) := by
  have ht := h.wellFormed
  have hmargins : t.scrollTop ≤ t.scrollBottom := ht.margins
  cases op with
  | scrollUp n =>
      obtain ⟨p, hfeed⟩ := n.feed_command ht happlies 0x53 .scrollUp (by decide) fun _ => rfl
      exact ⟨_, hfeed, fun _ => replaced_of_removes (.scrollUp n) trivial hmargins p,
        fun hacts => absurd trivial hacts⟩
  | scrollDown n =>
      obtain ⟨p, hfeed⟩ := n.feed_command ht happlies 0x54 .scrollDown (by decide) fun _ => rfl
      exact ⟨_, hfeed, fun _ => replaced_of_adds (.scrollDown n) id hmargins p,
        fun hacts => absurd trivial hacts⟩
  | insertLines n =>
      obtain ⟨p, hfeed⟩ := n.feed_command ht happlies 0x4c .insertLines (by decide) fun _ => rfl
      refine ⟨_, hfeed, fun hacts => ?_, fun hacts => ?_⟩
      · have hexec : exec (cancelWrap t) (.insertLines n.value) =
            moveDown (cancelWrap t) t.row n.value := if_pos hacts
        rw [hexec]
        exact replaced_of_adds (.insertLines n) id hacts.2 p
      · have hexec : exec (cancelWrap t) (.insertLines n.value) = cancelWrap t := if_neg hacts
        rw [hexec]
        exact ⟨rfl, rfl, rfl, rfl, rfl⟩
  | deleteLines n =>
      obtain ⟨p, hfeed⟩ := n.feed_command ht happlies 0x4d .deleteLines (by decide) fun _ => rfl
      refine ⟨_, hfeed, fun hacts => ?_, fun hacts => ?_⟩
      · have hexec : exec (cancelWrap t) (.deleteLines n.value) =
            moveUp (cancelWrap t) t.row n.value := if_pos hacts
        rw [hexec]
        exact replaced_of_removes (.deleteLines n) trivial hacts.2 p
      · have hexec : exec (cancelWrap t) (.deleteLines n.value) = cancelWrap t := if_neg hacts
        rw [hexec]
        exact ⟨rfl, rfl, rfl, rfl, rfl⟩
  | lineFeed =>
      have hindex : index t = moveUp (cancelWrap t) t.scrollTop 1 := if_pos happlies.2
      have hfeed := feed_lineFeed ht happlies.1
      rw [hindex] at hfeed
      exact ⟨_, hfeed, fun _ => replaced_of_removes .lineFeed trivial hmargins _,
        fun hacts => absurd trivial hacts⟩
  | index =>
      have hindex : index t = moveUp (cancelWrap t) t.scrollTop 1 := if_pos happlies.2
      obtain ⟨p, hfeed⟩ := (feed_escape ht happlies.1).1
      rw [hindex] at hfeed
      exact ⟨_, hfeed, fun _ => replaced_of_removes .index trivial hmargins p,
        fun hacts => absurd trivial hacts⟩
  | reverseIndex =>
      have hindex : reverseIndex t = moveDown (cancelWrap t) t.scrollTop 1 := if_pos happlies.2
      obtain ⟨p, hfeed⟩ := (feed_escape ht happlies.1).2
      rw [hindex] at hfeed
      exact ⟨_, hfeed, fun _ => replaced_of_adds .reverseIndex id hmargins p,
        fun hacts => absurd trivial hacts⟩

/-- The letters A, B and C in three rows, and the cursor in the first of them -/
def threeRows : Terminal :=
  Screen.feed (Firmware.ample 2 3 7).fresh
    [0x41, 0x0d, 0x0a, 0x42, 0x0d, 0x0a, 0x43, 0x1b, 0x5b, 0x48]

/-- `CSI 2 M` leaves the third row. -/
theorem row_operations_three :
    ∃ u : Terminal,
      threeRows.feed (RowOperation.deleteLines ⟨[0x32], by simp [DigitByte], by decide⟩).bytes =
        .ok u ∧
      Replaced threeRows u 0 3
        [[⟨0x43, 7⟩, ⟨0x20, 7⟩], [⟨0x20, 7⟩, ⟨0x20, 7⟩], [⟨0x20, 7⟩, ⟨0x20, 7⟩]] := by
  obtain ⟨u, hfeed, hmoved, _⟩ := row_operations ((created_ample 2 3 7).reachable.feed _)
    (.deleteLines ⟨[0x32], by simp [DigitByte], by decide⟩)
    (show threeRows.parser.Listening by decide)
  have hlines : RowOperation.surgery threeRows
      (.deleteLines ⟨[0x32], by simp [DigitByte], by decide⟩) =
        [[⟨0x43, 7⟩, ⟨0x20, 7⟩], [⟨0x20, 7⟩, ⟨0x20, 7⟩], [⟨0x20, 7⟩, ⟨0x20, 7⟩]] := by
    decide +kernel
  exact ⟨u, hfeed, hlines ▸ hmoved (show InMargins threeRows by decide)⟩

/-! ### Characters -/

/-- An edit of the cursor line. -/
theorem replaced_line (t : Terminal) (f : Grid Cell → Grid Cell)
    (hframe : ∀ i j, i ≠ t.row → f t.active i j = t.active i j) {line : List Cell}
    (hline : (f t.active).line t.columns t.row = line) (dirty rows left right : Nat)
    (p : Parser) :
    Replaced t ((mark ((cancelWrap t).edit f) dirty rows left right).withParser p) t.row 1
      [line] := by
  have hlines : (f t.active).lines t.columns t.row 1 = [line] := by
    rw [Grid.lines_one, hline]
  rw [← hlines]
  exact replaced_edit t f (fun i j hrow => hframe i j (by omega)) dirty rows left right p

/-- **Each operation on characters** is one on the list of the cursor line. -/
theorem character_surgery (ht : t.WellFormed) (hlisten : t.parser.Listening)
    (op : CharacterOperation) :
    ∃ u : Terminal, t.feed op.bytes = .ok u ∧ Replaced t u t.row 1 [op.surgery t] := by
  have hcolumn := ht.column_lt
  cases op with
  | insert n =>
      obtain ⟨p, hfeed⟩ := n.feed_command ht hlisten 0x40 .insertCharacters (by decide)
        fun _ => rfl
      refine ⟨_, hfeed, replaced_line t (fun cells => cells.shiftRight t.row t.column
        (min n.value (t.columns - t.column)) t.columns t.blank) ?_ ?_ _ _ _ _ p⟩
      · intro i j hrow
        exact if_neg fun hin => hrow hin.1
      · rw [Grid.line_shiftRight t.active (by omega) (Nat.min_le_right _ _)]
        simp only [CharacterOperation.surgery, CharacterOperation.count, List.length_drop,
          Grid.length_line]
  | delete n =>
      obtain ⟨p, hfeed⟩ := n.feed_command ht hlisten 0x50 .deleteCharacters (by decide)
        fun _ => rfl
      refine ⟨_, hfeed, replaced_line t (fun cells => cells.shiftLeft t.row t.column
        (min n.value (t.columns - t.column)) t.columns t.blank) ?_ ?_ _ _ _ _ p⟩
      · intro i j hrow
        exact if_neg fun hin => hrow hin.1
      · rw [Grid.line_shiftLeft t.active (by omega) (Nat.min_le_right _ _)]
        rfl
  | erase n =>
      obtain ⟨p, hfeed⟩ := n.feed_command ht hlisten 0x58 .eraseCharacters (by decide)
        fun _ => rfl
      have hpositive : 1 ≤ n.value := n.positive
      have hstop : min (t.columns - 1) (t.column + n.value - 1) + 1 =
          t.column + min n.value (t.columns - t.column) := by omega
      refine ⟨_, hfeed, replaced_line t (fun cells => cells.fill t.row 1 t.column
        (min (t.columns - 1) (t.column + n.value - 1) + 1) t.blank) ?_ ?_ _ _ _ _ p⟩
      · intro i j hrow
        exact if_neg (by omega)
      · rw [hstop, Grid.line_fill t.active (by omega)]
        rfl

/-- A character is written at the cursor when no wrap is pending. -/
theorem print_here (hpending : t.wrapPending = false) (character : Nat) :
    (print t character).active = (write t character).active ∧
      (print t character).cells = t.cells ∧ (print t character).inactive = t.inactive ∧
      (print t character).row = t.row ∧
      (print t character).column =
        if t.column + 1 = t.columns then t.column else t.column + 1 := by
  unfold print
  rw [wrap_of_not_pending hpending]
  refine ⟨rfl, ?_⟩
  unfold write
  split
  · exact ⟨rfl, inactive_edit t fun cells =>
      cells.shiftRight t.row t.column 1 t.columns ⟨character, t.terminalAttribute⟩, rfl, rfl⟩
  · exact ⟨rfl, inactive_edit t fun cells =>
      cells.fill t.row 1 t.column (t.column + 1) ⟨character, t.terminalAttribute⟩, rfl, rfl⟩

/-- Printing in insert mode is inserting a blank and printing over it. -/
theorem sameCells_insert (ht : t.WellFormed) (hpending : t.wrapPending = false)
    (hinsert : t.insertMode = true) (p : Parser) (character : Nat) :
    SameCells (print t character)
      (print { (Screen.insertCharacters t 1).withParser p with insertMode := false }
        character) := by
  have hcolumn := ht.column_lt
  have hone : min 1 (t.columns - t.column) = 1 := by omega
  have hwritten : (write t character).active =
      t.active.shiftRight t.row t.column 1 t.columns ⟨character, t.terminalAttribute⟩ := by
    rw [active_write, if_pos hinsert]
  have hblank : (Screen.insertCharacters t 1).active =
      t.active.shiftRight t.row t.column (min 1 (t.columns - t.column)) t.columns t.blank :=
    t.active_edit fun cells =>
      cells.shiftRight t.row t.column (min 1 (t.columns - t.column)) t.columns t.blank
  have hinactive : (Screen.insertCharacters t 1).inactive = t.inactive :=
    t.inactive_edit fun cells =>
      cells.shiftRight t.row t.column (min 1 (t.columns - t.column)) t.columns t.blank
  obtain ⟨hactive, hcells, hother, hrow, hstep⟩ := print_here hpending character
  generalize hv : ({ (Screen.insertCharacters t 1).withParser p with
    insertMode := false } : Terminal) = v
  have hover : (write v character).active =
      (Screen.insertCharacters t 1).active.fill t.row 1 t.column (t.column + 1)
        ⟨character, t.terminalAttribute⟩ := by
    rw [← hv]
    exact active_write _ character
  rw [hblank, hone, Grid.fill_shiftRight t.active hcolumn, ← hwritten] at hover
  obtain ⟨hactive', hcells', hother', hrow', hstep'⟩ :=
    print_here (t := v) (by rw [← hv]; exact hpending) character
  refine ⟨?_, ?_, ?_, ?_, ?_⟩
  · rw [hactive, hactive', hover]
  · rw [hcells, hcells', ← hv]
    rfl
  · rw [hother, hother', ← hv, ← hinactive]
    rfl
  · rw [hrow, hrow', ← hv]
    rfl
  · rw [hstep, hstep', ← hv]
    rfl

/-- **Character operations are list surgery**, and printing in insert mode is one of
them with a character for the blank. -/
theorem character_operations (h : Reachable t) (hlisten : t.parser.Listening) :
    (∀ op : CharacterOperation, ∃ u : Terminal, t.feed op.bytes = .ok u ∧
      Replaced t u t.row 1 [op.surgery t]) ∧
    (t.wrapPending = false → t.insertMode = true →
      ∀ character, character ≠ 0 ∧ character ≤ 0xffff → ∃ u v w : Terminal,
        t.putCharacter character = .ok u ∧
        t.feed (Count.one.sequence 0x40) = .ok v ∧
        ({ v with insertMode := false } : Terminal).putCharacter character = .ok w ∧
        SameCells u w) := by
  have ht := h.wellFormed
  refine ⟨fun op => character_surgery ht hlisten op, ?_⟩
  intro hpending hinsert character hvalid
  obtain ⟨p, hfeed⟩ := Count.one.feed_command ht hlisten 0x40 .insertCharacters (by decide)
    fun _ => rfl
  have hcancel := cancelWrap_of_not_pending hpending
  rw [hcancel] at hfeed
  have hv : ((Screen.insertCharacters t 1).withParser p).WellFormed := by
    have hall := ht.feed (Count.one.sequence 0x40)
    rw [ht.feed_eq] at hfeed
    rw [Except.ok.inj hfeed] at hall
    exact hall
  have hoff := hv.exec (c := .insertMode false) trivial
  exact ⟨_, _, _, ht.putCharacter_eq hvalid, hfeed, hoff.putCharacter_eq hvalid,
    sameCells_insert ht hpending hinsert p character⟩

/-- The letters A, B and C on a line of four columns, the cursor back on the B, and `CSI 4 h` -/
def threeLetters : Terminal :=
  Screen.feed (Firmware.ample 4 1 7).fresh
    ([0x41, 0x42, 0x43, 0x08, 0x08] ++ controlSequence [0x34] 0x68)

/-- `CSI 1 P` takes the B away, and the letter D comes before it. -/
theorem character_operations_letters :
    (∃ u : Terminal, threeLetters.feed (CharacterOperation.delete Count.one).bytes = .ok u ∧
      Replaced threeLetters u 0 1 [[⟨0x41, 7⟩, ⟨0x43, 7⟩, ⟨0x20, 7⟩, ⟨0x20, 7⟩]]) ∧
    ∃ u v w : Terminal,
      threeLetters.putCharacter 0x44 = .ok u ∧
      threeLetters.feed (Count.one.sequence 0x40) = .ok v ∧
      ({ v with insertMode := false } : Terminal).putCharacter 0x44 = .ok w ∧
      SameCells u w ∧
      u.active.line 4 0 = [⟨0x41, 7⟩, ⟨0x44, 7⟩, ⟨0x42, 7⟩, ⟨0x43, 7⟩] := by
  have hreachable : Reachable threeLetters := (created_ample 4 1 7).reachable.feed _
  obtain ⟨hsurgery, hinsert⟩ := character_operations hreachable (by decide)
  obtain ⟨u, hdeleted, hreplaced⟩ := hsurgery (.delete Count.one)
  have hline : CharacterOperation.surgery threeLetters (.delete Count.one) =
      [⟨0x41, 7⟩, ⟨0x43, 7⟩, ⟨0x20, 7⟩, ⟨0x20, 7⟩] := by
    decide +kernel
  obtain ⟨v, w, x, hput, hmade, hover, hsame⟩ := hinsert (by decide) (by decide) 0x44 (by decide)
  refine ⟨⟨u, hdeleted, hline ▸ hreplaced⟩, v, w, x, hput, hmade, hover, hsame, ?_⟩
  obtain rfl := Except.ok.inj (hput.symm.trans (hreachable.wellFormed.putCharacter_eq (by decide)))
  decide +kernel

end Terminal

end WolfSshUefi
