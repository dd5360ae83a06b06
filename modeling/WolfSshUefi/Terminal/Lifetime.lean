import Mathlib.Data.Nat.Bitwise
import WolfSshUefi.Efi
import WolfSshUefi.Library.Monitors
import WolfSshUefi.Terminal.Creating

/-!
# From creation to the end

What the firmware sees of a terminal: the calls on the console from
`WolfSshTerminalCreate` to `WolfSshTerminalDestroy`, and the blocks of the pool.  Every
string is painted while the cursor is hidden, at a place on the screen and in colours that
were set for it, and fits there.  In the end the console has its attribute and its cursor
back, and the pool its blocks (`lifetime_lawful`).
-/

namespace WolfSshUefi.Terminal

open Ledger Loops Monitor

/-! ### The protocol of the console -/

/-- What has been prepared on a console for the next string: whether the cursor is hidden,
the attribute, whether it was set since the last string, and the place set since then. -/
structure Painter where
  hidden : Bool
  colour : Option Nat
  coloured : Bool
  place : Option (Nat × Nat)
  deriving DecidableEq

/-- Nothing has been called. -/
def Painter.start : Painter := ⟨false, none, false, none⟩

/-- A call that the protocol allows on a console of this size, and what it prepares. -/
def Painter.step (columns rows : Nat) (p : Painter) : ConsoleCall → Option Painter
  | .clearScreen => some { p with coloured := false, place := none }
  | .setAttribute attr =>
      if attr ≤ 0x7f then some { p with colour := some attr, coloured := true } else none
  | .setCursorPosition column row =>
      if column < columns ∧ row < rows then some { p with place := some (column, row) } else none
  | .outputString text =>
      match p.place with
      | none => none
      | some (column, _) =>
          if p.hidden = true ∧ p.coloured = true ∧ text ≠ [] ∧ 0 ∉ text ∧
              column + text.length ≤ columns then
            some { p with coloured := false, place := none }
          else none
  | .enableCursor visible => some { p with hidden := !visible }

/-- The calls follow the protocol, and leave this prepared. -/
def Follows (columns rows : Nat) (p : Painter) (calls : List ConsoleCall) (q : Painter) : Prop :=
  Accepts (Painter.step columns rows) p calls q

section Protocol

variable {columns rows : Nat}

/-- Clearing, however often, follows the protocol. -/
theorem follows_clears (p : Painter) (n : Nat) :
    Follows columns rows p (List.replicate (n + 1) .clearScreen)
      { p with coloured := false, place := none } := by
  induction n generalizing p with
  | zero => rfl
  | succ n ih => exact ih { p with coloured := false, place := none }

/-- Painting runs of cells. -/
theorem follows_runs {line : Nat → Cell} {row last position : Nat} {calls : List ConsoleCall}
    (h : Runs line row last position calls) (hrow : row < rows) (hlast : last < columns)
    (hline : ∀ j, j < columns → (line j).Valid) (p : Painter) (hhidden : p.hidden = true) :
    ∃ q, Follows columns rows p calls q ∧ q.hidden = true := by
  induction h generalizing p with
  | done hend => exact ⟨p, rfl, hhidden⟩
  | @run position count calls hpos hfits hattr hrest ih =>
      have hposition : position < columns := by omega
      have hlength : (textAt line position count).length = count := by simp [textAt]
      have hnonempty : textAt line position count ≠ [] := by
        intro hnil
        rw [hnil] at hlength
        exact absurd hpos (by rw [← hlength]; decide)
      have hnul : 0 ∉ textAt line position count := by
        intro hmem
        obtain ⟨i, hi, hzero⟩ := List.mem_map.mp hmem
        have hcell := hline (position + i) (by have := List.mem_range.mp hi; omega)
        exact hcell.2.1 hzero
      obtain ⟨q, hfollows, hq⟩ := ih
        { p with colour := some (line position).attr, coloured := false, place := none } hhidden
      refine ⟨q, ?_, hq⟩
      refine Accepts.append ?_ hfollows
      unfold Accepts runCalls
      have hallowed : p.hidden = true ∧ True ∧ textAt line position count ≠ [] ∧
          0 ∉ textAt line position count ∧
          position + (textAt line position count).length ≤ columns :=
        ⟨hhidden, trivial, hnonempty, hnul, by rw [hlength]; omega⟩
      simp only [List.foldlM_cons, List.foldlM_nil, Painter.step,
        if_pos (hline position hposition).1, Option.bind_eq_bind, Option.bind_some, if_pos (And.intro hposition hrow), if_pos hallowed]
      rfl

/-- Painting the dirty rows. -/
theorem follows_painted {t : Terminal} (ht : t.WellFormed) {n : Nat} {calls : List ConsoleCall}
    (h : t.Painted n calls) (hn : n ≤ t.rows) (p : Painter) (hhidden : p.hidden = true) :
    ∃ q, Follows t.columns t.rows p calls q ∧ q.hidden = true := by
  induction h with
  | zero => exact ⟨p, rfl, hhidden⟩
  | @row n calls rowCalls hcalls hrow ih =>
      obtain ⟨q, hfollows, hq⟩ := ih (by omega)
      unfold RowPainted at hrow
      split at hrow
      · have hcells : t.active.All t.rows t.columns Cell.Valid := by
          unfold Terminal.active
          cases t.cells with
          | primary => exact ht.primary_cells
          | alternate => exact ht.alternate_cells
        have hline (j : Nat) (hj : j < t.columns) : (t.active n j).Valid :=
          hcells n (by omega) j hj
        obtain ⟨r, hfollows', hr⟩ := follows_runs hrow (show n < t.rows by omega)
          (ht.dirty_end n (by omega)) hline q hq
        exact ⟨r, hfollows.append hfollows', hr⟩
      · subst hrow
        exact ⟨q, by rwa [List.append_nil], hq⟩

/-- A flush, whatever was prepared before it. -/
theorem follows_flush {t : Terminal} (ht : t.WellFormed) {painting : List ConsoleCall}
    (h : t.Painted t.rows painting) (p : Painter) :
    Follows t.columns t.rows p (t.flushCalls painting)
      ⟨!t.cursorVisible, some t.terminalAttribute, true, some (t.column, t.row)⟩ := by
  obtain ⟨q, hfollows, hq⟩ := follows_painted ht h (Nat.le_refl _) { p with hidden := true } rfl
  have hstart : Follows t.columns t.rows p [.enableCursor false] { p with hidden := true } := rfl
  refine (hstart.append hfollows).append ?_
  unfold Accepts
  simp only [List.foldlM_cons, List.foldlM_nil, Painter.step, if_pos t.terminalAttribute_le,
    Option.bind_eq_bind, Option.bind_some, if_pos (And.intro ht.column_lt ht.row_lt)]
  rfl

end Protocol

/-! ### A whole life -/

/-- What the firmware sees of a terminal: the calls of the console and of the pool when it is
created, called and destroyed. -/
def lifetime (fw : Firmware) (calls : List Call) : Checked (List ConsoleCall × List PoolCall) := do
  let outcome ← create fw
  match outcome.terminal with
  | none => .ok (outcome.conOut, outcome.pool)
  | some t => do
      let t ← t.run calls
      let (sent, frees) :=
        destroyCalls fw.consolePresent t.defaultForeground t.defaultBackground some
      .ok (outcome.conOut ++ t.conOut ++ sent, outcome.pool ++ frees)

/-- The terminal has the size and the default colours of its console, and has followed the
protocol so far. -/
structure Behaved (fw : Firmware) (t : Terminal) : Prop where
  columns : t.columns = fw.geometry.1
  rows : t.rows = fw.geometry.2
  defaultBlank : t.defaultBlank = fw.fresh.defaultBlank
  follows : ∃ p, Follows fw.geometry.1 fw.geometry.2 .start t.conOut p

/-- **Every call** follows the protocol and keeps the size and the default colours. -/
theorem Behaved.step {fw : Firmware} {t t' : Terminal} {c : Call} (ht : t.WellFormed)
    (h : Behaved fw t) (hstep : t.Step c t') : Behaved fw t' := by
  obtain ⟨p, hfollows⟩ := h.follows
  cases hstep with
  | feed data =>
      rcases Screen.feed_picture ht data with ⟨-, hmarked⟩ | ⟨-, hwiped⟩
      · exact ⟨hmarked.columns.trans h.columns, hmarked.rows.trans h.rows,
          hmarked.defaultBlank.trans h.defaultBlank, p, hmarked.conOut ▸ hfollows⟩
      · obtain ⟨n, hconOut⟩ := hwiped.conOut
        exact ⟨hwiped.columns.trans h.columns, hwiped.rows.trans h.rows,
          hwiped.defaultBlank.trans h.defaultBlank, _,
          hconOut ▸ hfollows.append (follows_clears p n)⟩
  | flush hpainting =>
      have hflush := follows_flush ht hpainting p
      rw [h.columns, h.rows] at hflush
      exact ⟨h.columns, h.rows, h.defaultBlank, _, hfollows.append hflush⟩
  | takeResponse capacity hreplies => exact ⟨h.columns, h.rows, h.defaultBlank, p, hfollows⟩

/-- A new terminal has called nothing yet. -/
theorem behaved_fresh (fw : Firmware) : Behaved fw fw.fresh :=
  ⟨rfl, rfl, rfl, .start, rfl⟩

/-- The default colours are those of `Mode->Attribute`. -/
theorem defaultBlank_fresh (fw : Firmware) :
    fw.fresh.defaultBlank.attr = fw.modeAttribute % 128 := by
  have hforeground : fw.modeAttribute &&& 0x0f = fw.modeAttribute % 16 :=
    Nat.and_two_pow_sub_one_eq_mod fw.modeAttribute 4
  have hbackground : (fw.modeAttribute >>> 4) &&& 0x07 = fw.modeAttribute / 16 % 8 := by
    rw [Nat.shiftRight_eq_div_pow]
    exact Nat.and_two_pow_sub_one_eq_mod _ 3
  have hlow : fw.modeAttribute % 16 < 16 := Nat.mod_lt _ (by decide)
  show efiTextAttr (fw.modeAttribute &&& 0x0f) ((fw.modeAttribute >>> 4) &&& 0x07) = _
  rw [hforeground, hbackground, efiTextAttr, Nat.or_comm,
    ← Nat.shiftLeft_add_eq_or_of_lt (i := 4) hlow, Nat.shiftLeft_eq]
  omega

/-- The pool calls of a creation that is granted everything. -/
theorem create_pool {fw : Firmware} (h : fw.Grants) :
    create fw = .ok ⟨some fw.fresh, [], allBlocks.map fun block => .allocate block true⟩ := by
  have hall : ([.primary, .alternate, .dirtyStart, .dirtyEnd, .renderBuffer] : List Block).all
      fw.grants = true := by simp [h.2]
  simp only [create, setUp_eq, h.1, h.2, hall, not_true, if_false, ok_bind]
  rfl

/-- The blocks of a terminal that is created and destroyed. -/
theorem balanced_lifetime :
    let pool := allBlocks.map (fun block => PoolCall.allocate block true) ++
      allBlocks.reverse.map fun block => PoolCall.free (some block)
    Balanced (pool.filterMap PoolCall.obtained?) (pool.filterMap PoolCall.freed?) [] :=
  .of_perm (show allBlocks.Nodup by decide)
    (show allBlocks.reverse.Perm allBlocks from List.reverse_perm _)

/-- **The firmware gets back what it lent.**  A terminal that gets its blocks lives through
all calls, whatever is fed to it; the calls of its console follow the protocol and end with
the cursor on and the colours that it had; and its blocks are freed once. -/
theorem lifetime_lawful {fw : Firmware} (h : fw.Grants) (calls : List Call) :
    ∃ sent pool p, lifetime fw calls = .ok (sent, pool) ∧
      Follows fw.geometry.1 fw.geometry.2 .start sent p ∧
      p.hidden = false ∧ p.colour = some (fw.modeAttribute % 128) ∧
      Balanced (pool.filterMap PoolCall.obtained?) (pool.filterMap PoolCall.freed?) [] ∧
      .free none ∉ pool := by
  obtain ⟨t, hrun, ht, hbehaved⟩ := (fresh_wellFormed fw).run_invariant
    Behaved.step (behaved_fresh fw) calls
  obtain ⟨p, hfollows⟩ := hbehaved.follows
  have hcolours : efiTextAttr t.defaultForeground t.defaultBackground = fw.modeAttribute % 128 :=
    (congrArg Cell.attr hbehaved.defaultBlank).trans (defaultBlank_fresh fw)
  have hle : fw.modeAttribute % 128 ≤ 0x7f := by omega
  refine ⟨t.conOut ++ [.setAttribute (fw.modeAttribute % 128), .enableCursor true],
    allBlocks.map (fun block => .allocate block true) ++
      allBlocks.reverse.map (fun block => .free (some block)),
    { p with hidden := false, colour := some (fw.modeAttribute % 128), coloured := true },
    ?_, hfollows.append ?_, rfl, rfl, balanced_lifetime, by decide⟩
  · unfold lifetime
    rw [create_pool h, ok_bind]
    dsimp only
    rw [hrun, ok_bind, destroyCalls, if_pos h.1, hcolours]
    rfl
  · unfold Accepts
    simp only [List.foldlM_cons, List.foldlM_nil, Painter.step, if_pos hle,
      Option.bind_eq_bind, Option.bind_some]
    rfl

/-- A letter on a screen of two cells, in the colours of the firmware. -/
theorem lifetime_lawful_letter :
    ∃ sent pool p, lifetime (Firmware.ample 2 1 7) [.feed [0x41], .flush] = .ok (sent, pool) ∧
      Follows 2 1 .start sent p ∧ p.hidden = false ∧ p.colour = some 7 ∧
      Balanced (pool.filterMap PoolCall.obtained?) (pool.filterMap PoolCall.freed?) [] ∧
      .free none ∉ pool :=
  @lifetime_lawful (Firmware.ample 2 1 7) ⟨rfl, fun _ => rfl⟩ _

/-! ### The self-test -/

/-- `TestSequence`, without its NUL. -/
def testSequence : List UInt8 :=
  ("\x1b[2J\x1b[H" ++
    "\x1b[1;36mwolfssh-uefi VT test\x1b[0m\r\n" ++
    "erase-me\x1b[2K\r" ++
    "\x1b[32mWOLFSSH_UEFI_TERMINAL_SELFTEST_OK\x1b[0m\r\n" ++
    "\x1b[?1049halternate-screen\x1b[?1049l").toList.map fun c => c.toNat.toUInt8

/-- `WolfSshTerminalSelfTest`, which says that it has passed if it is a success. -/
def selfTest (fw : Firmware) : Checked (EfiStatus × List ConsoleCall × List PoolCall) := do
  let outcome ← create fw
  match outcome.terminal with
  | none => .ok (efiOutOfResources, outcome.conOut, outcome.pool)
  | some t => do
      let t ← t.feed testSequence
      let t ← t.flush
      let (sent, frees) :=
        destroyCalls fw.consolePresent t.defaultForeground t.defaultBackground some
      .ok (efiSuccess, outcome.conOut ++ t.conOut ++ sent, outcome.pool ++ frees)

end WolfSshUefi.Terminal
