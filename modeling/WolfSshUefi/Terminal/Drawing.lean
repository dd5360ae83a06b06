import WolfSshUefi.Terminal.WellFormed

/-!
# The loops of the terminal

Each drawing function of `Terminal.c` is shown to agree with its description
on the screen: no access fails, no subtraction wraps, and the shifting loops
leave what a simultaneous shift leaves.
-/

namespace WolfSshUefi

namespace Terminal

/-- An edit that changes nothing. -/
@[simp] theorem edit_id (t : Terminal) : (t.edit fun cells => cells) = t := by
  simp [edit, editBuffer]

/-- An edit that happens to change nothing. -/
theorem edit_eq_self (t : Terminal) {f : Grid Cell → Grid Cell} (h : f t.active = t.active) :
    t.edit f = t := by
  rw [t.edit_congr (g := fun cells => cells) h, edit_id]

end Terminal

namespace Screen

/-! ### Marks and edits -/

/-- Editing and marking do not depend on their order. -/
theorem mark_edit (t : Terminal) (f : Grid Cell → Grid Cell) (first count left right : Nat) :
    mark (t.edit f) first count left right = (mark t first count left right).edit f := rfl

/-- Marking no rows. -/
@[simp] theorem mark_no_rows (t : Terminal) (first left right : Nat) :
    mark t first 0 left right = t := by
  have hnone (i : Nat) : ¬ (first ≤ i ∧ i < first + 0) := by omega
  simp only [mark, hnone, if_false]

/-- Marking row after row. -/
theorem mark_succ (t : Terminal) (first n left right : Nat) :
    mark (mark t first n left right) (first + n) 1 left right =
      mark t first (n + 1) left right := by
  simp only [mark, Terminal.mk.injEq, true_and, and_true]
  constructor <;> (funext i; grind)

/-- Erasing row after row. -/
theorem erase_succ (t : Terminal) (first n left right : Nat) (cell : Cell) :
    erase (erase t first n left right cell) (first + n) 1 left right cell =
      erase t first (n + 1) left right cell := by
  unfold erase
  rw [mark_edit t, Terminal.edit_edit, mark_edit (mark t first n left right), mark_succ,
    mark_edit t]
  simp only [Grid.fill_succ_row]

/-- A mark inside a wider one leaves no trace. -/
theorem mark_absorb (t : Terminal) {first count left right first' count' left' right' : Nat}
    (hfirst : first ≤ first') (hcount : first' + count' ≤ first + count)
    (hleft : left ≤ left') (hright : right' ≤ right) :
    mark (mark t first' count' left' right') first count left right =
      mark t first count left right := by
  simp only [mark, Terminal.mk.injEq, true_and, and_true]
  constructor <;> (funext i; grind)

/-- A mark inside a wider one adds nothing. -/
theorem mark_absorbed (t : Terminal) {first count left right first' count' left' right' : Nat}
    (hfirst : first ≤ first') (hcount : first' + count' ≤ first + count)
    (hleft : left ≤ left') (hright : right' ≤ right) :
    mark (mark t first count left right) first' count' left' right' =
      mark t first count left right := by
  simp only [mark, Terminal.mk.injEq, true_and, and_true]
  constructor <;> (funext i; grind)

end Screen

namespace Terminal

open Loops

namespace WellFormed

variable {t : Terminal}

/-! ### Dirty intervals -/

/-- `MarkDirty` marks up to the last column. -/
theorem markDirty_eq (h : t.WellFormed) {row start : Nat} (hrow : row < t.rows)
    (hstart : start < t.columns) (last : Nat) :
    t.markDirty row start last = .ok (Screen.mark t row 1 start (min last (t.columns - 1))) := by
  have hpos := h.columns_pos
  have hle := h.columns_le
  have hds := h.dirty_start row hrow
  have hde := h.dirty_end row hrow
  have hguard : ¬ (row ≥ t.rows ∨ start ≥ t.columns) := by omega
  unfold maxUint16 at hle
  have hmin : min (t.dirtyStart row) start % 65536 = min (t.dirtyStart row) start :=
    Nat.mod_eq_of_lt (by omega)
  have hmax : max (t.dirtyEnd row) (min last (t.columns - 1)) % 65536 =
      max (t.dirtyEnd row) (min last (t.columns - 1)) :=
    Nat.mod_eq_of_lt (by omega)
  simp only [markDirty, if_neg hguard, usub_eq hpos, readDirty, writeDirty, hrow, if_true,
    ok_bind, hmin, hmax, Screen.mark, Except.ok.injEq, Terminal.mk.injEq, true_and, and_true]
  constructor <;> (funext i; simp only [Function.update_apply]; grind)

/-- `MarkDirtyRows` marks whole rows. -/
theorem markDirtyRows_eq (h : t.WellFormed) (first : Nat) {last : Nat} (hlast : last < t.rows) :
    t.markDirtyRows first last = .ok (Screen.mark t first (last + 1 - first) 0 (t.columns - 1)) := by
  have hrows := h.rows_pos
  have hcolumns := h.columns_pos
  have hmin : min last (t.rows - 1) = last := by omega
  simp only [markDirtyRows, usub_eq hrows, ok_bind, hmin]
  have hloop := upFrom_eq (fun row (t : Terminal) => do
      t.markDirty row 0 (← usub t.columns 1))
    (fun n => Screen.mark t first n 0 (t.columns - 1)) (last + 1 - first) first (fun n hn => by
      have hmark : (Screen.mark t first n 0 (t.columns - 1)).WellFormed := h.mark h.last_lt _ _ _
      have hstep := hmark.markDirty_eq
        (show first + n < t.rows by omega) hcolumns (t.columns - 1)
      have hself : min (t.columns - 1) (t.columns - 1) = t.columns - 1 := Nat.min_self _
      have hsub : usub (Screen.mark t first n 0 (t.columns - 1)).columns 1 = .ok (t.columns - 1) :=
        usub_eq hcolumns
      simp only [hsub, ok_bind]
      rw [hstep]
      show Except.ok (Screen.mark _ _ 1 0 (min (t.columns - 1) (t.columns - 1))) = _
      rw [hself, Screen.mark_succ])
  simpa only [Screen.mark_no_rows] using hloop

/-! ### Filling -/

/-- Writing one cell of the active buffer. -/
theorem writeCell_eq {row column : Nat} (hrow : row < t.rows) (hcolumn : column < t.columns)
    (cell : Cell) :
    t.writeCell row column cell =
      .ok (t.edit fun cells => cells.fill row 1 column (column + 1) cell) := by
  simp [writeCell, hrow, hcolumn]

/-- `FillCells` erases a part of a row. -/
theorem fillCells_eq (h : t.WellFormed) {row start : Nat} (hrow : row < t.rows)
    (hstart : start < t.columns) (last : Nat) {attr : Nat} (hattr : attr ≤ 0x7f) :
    t.fillCells row start last attr =
      .ok (Screen.erase t row 1 start (min last (t.columns - 1)) ⟨0x20, attr⟩) := by
  have hpos := h.columns_pos
  have hguard : ¬ (row ≥ t.rows ∨ start ≥ t.columns) := by omega
  have hcell : Cell.Valid ⟨0x20, attr⟩ := ⟨hattr, by simp, by simp⟩
  have hloop := upFrom_eq
    (fun column (t : Terminal) => t.writeCell row column ⟨0x20, attr⟩)
    (fun n => t.edit fun cells => cells.fill row 1 start (start + n) ⟨0x20, attr⟩)
    (min last (t.columns - 1) + 1 - start) start (fun n hn => by
      rw [writeCell_eq (t := t.edit _) hrow (show start + n < t.columns by omega), edit_edit]
      simp only [Grid.fill_succ_column])
  have hnone : (t.edit fun cells => cells.fill row 1 start (start + 0) ⟨0x20, attr⟩) = t :=
    t.edit_eq_self (Grid.fill_no_columns _ _ _ (Nat.le_refl _) _)
  simp only [hnone, Grid.fill_count] at hloop
  have hfilled := h.edit fun _ hg =>
    hg.fill hcell row 1 start (min last (t.columns - 1) + 1)
  have hmark := hfilled.markDirty_eq hrow hstart (min last (t.columns - 1))
  have hmin : min (min last (t.columns - 1)) (t.columns - 1) = min last (t.columns - 1) := by
    omega
  simp only [fillCells, if_neg hguard, usub_eq hpos, ok_bind, hloop, hmark]
  show Except.ok (Screen.mark _ row 1 start (min (min last (t.columns - 1)) (t.columns - 1))) = _
  rw [hmin]
  rfl

/-- Blanking whole rows one after the other. -/
theorem fillRows_eq (h : t.WellFormed) {first n : Nat} (hn : first + n ≤ t.rows)
    {attr : Nat} (hattr : attr ≤ 0x7f) :
    upFrom (fun row (t : Terminal) => do t.fillCells row 0 (← usub t.columns 1) attr) n first t =
      .ok (Screen.erase t first n 0 (t.columns - 1) ⟨0x20, attr⟩) := by
  have hpos := h.columns_pos
  have hcell : Cell.Valid ⟨0x20, attr⟩ := ⟨hattr, by simp, by simp⟩
  have hloop := upFrom_eq
    (fun row (t : Terminal) => do t.fillCells row 0 (← usub t.columns 1) attr)
    (fun n => Screen.erase t first n 0 (t.columns - 1) ⟨0x20, attr⟩) n first (fun i hi => by
      have hdone : (Screen.erase t first i 0 (t.columns - 1) ⟨0x20, attr⟩).WellFormed :=
        h.erase h.last_lt hcell _ _ _
      have hrow := hdone.fillCells_eq
        (show first + i < t.rows by omega) hpos (t.columns - 1) hattr
      have hmin : min (t.columns - 1) (t.columns - 1) = t.columns - 1 := Nat.min_self _
      have hsub : usub (Screen.erase t first i 0 (t.columns - 1) ⟨0x20, attr⟩).columns 1 =
          .ok (t.columns - 1) := usub_eq hpos
      simp only [hsub, ok_bind, hrow]
      show Except.ok (Screen.erase _ (first + i) 1 0 (min (t.columns - 1) (t.columns - 1)) _) = _
      rw [hmin]
      rw [Screen.erase_succ])
  have hnone : Screen.erase t first 0 0 (t.columns - 1) ⟨0x20, attr⟩ = t := by
    simp [Screen.erase]
  rwa [hnone] at hloop

/-- A cell by its index in the buffer. -/
theorem writeIndex_eq {index : Nat} (hindex : index < t.rows * t.columns) (which : Buffer)
    (cell : Cell) :
    t.writeIndex which index cell = .ok (t.editBuffer which fun cells =>
      cells.fill (index / t.columns) 1 (index % t.columns) (index % t.columns + 1) cell) := by
  simp only [writeIndex, if_pos hindex]

/-- One cell of `ClearBuffer` after the other. -/
theorem clearBuffer_eq (hpos : 0 < t.columns) (which : Buffer) :
    t.clearBuffer which =
      .ok (t.editBuffer which fun cells => cells.fill 0 t.rows 0 t.columns t.defaultBlank) := by
  have hloop := upFrom_eq
    (fun index (u : Terminal) => u.writeIndex which index t.defaultBlank)
    (fun n => t.editBuffer which fun cells => cells.fillIndices t.columns n t.defaultBlank)
    (t.rows * t.columns) 0 (fun n hn => by
      simp only [Nat.zero_add]
      rw [writeIndex_eq (t := t.editBuffer which _) hn, editBuffer_editBuffer]
      simp only [editBuffer_columns,
        Grid.fillIndices_succ _ hpos])
  have hnone : (t.editBuffer which fun cells => cells.fillIndices t.columns 0 t.defaultBlank) = t := by
    cases which <;> simp [editBuffer]
  simp only [hnone, Grid.fillIndices_all] at hloop
  exact hloop

/-! ### Moving rows -/

/-- Copying one row of the screen over another. -/
theorem copyRow_eq {dst src : Nat} (hdst : dst < t.rows) (hsrc : src < t.rows) :
    t.copyRow dst src = .ok (t.edit fun cells => cells.copyRow dst src t.columns) := by
  simp [copyRow, hdst, hsrc]

/-- The copying loop of `ScrollUp` and `DeleteLines`. -/
theorem liftRows_eq (h : t.WellFormed) (top k : Nat) :
    upFrom (fun row (t : Terminal) => t.copyRow row (row + k))
        (t.scrollBottom + 1 - (top + k)) top t =
      .ok (t.edit fun cells =>
        cells.lifted top (t.scrollBottom + 1 - (top + k)) k t.columns) := by
  have hbottom := h.bottom_lt
  have hloop := upFrom_eq
    (fun row (t : Terminal) => t.copyRow row (row + k))
    (fun n => t.edit fun cells => cells.lifted top n k t.columns)
    (t.scrollBottom + 1 - (top + k)) top (fun n hn => by
      rw [copyRow_eq (t := t.edit _) (show top + n < t.rows by omega)
        (show top + n + k < t.rows by omega), edit_edit]
      simp only [edit_columns, Grid.lifted_step])
  have hnone : (t.edit fun cells => cells.lifted top 0 k t.columns) = t := by simp
  simpa only [hnone] using hloop

/-- The copying loop of `ScrollDown` and `InsertLines`. -/
theorem lowerRows_eq (h : t.WellFormed) {top k : Nat} (hk : top + k ≤ t.scrollBottom + 1) :
    downTo (fun row (t : Terminal) => do t.copyRow row (← usub row k))
        (top + k) (t.scrollBottom + 1) t =
      .ok (t.edit fun cells =>
        cells.lowered (top + k) (t.scrollBottom + 1) k t.columns) := by
  have hbottom := h.bottom_lt
  have hloop := downTo_eq
    (fun row (t : Terminal) => do t.copyRow row (← usub row k))
    (fun x => t.edit fun cells => cells.lowered x (t.scrollBottom + 1) k t.columns)
    (top + k) (t.scrollBottom + 1) hk (fun x hx hlt => by
      rw [usub_eq (show k ≤ x by omega), ok_bind,
        copyRow_eq (t := t.edit _) (show x < t.rows by omega) (show x - k < t.rows by omega),
        edit_edit]
      simp only [edit_columns,
        Grid.lowered_step _ hlt (show k ≤ x by omega)])
  have hnone : (t.edit fun cells =>
      cells.lowered (t.scrollBottom + 1) (t.scrollBottom + 1) k t.columns) = t := by simp
  simpa only [hnone] using hloop

/-- The blanks and the marks that follow a copying loop make up `moveUp`. -/
theorem moveUp_of_loops (t : Terminal) {top k : Nat} (hpos : 0 < t.columns)
    (hk : top + k ≤ t.scrollBottom + 1) (htop : top ≤ t.scrollBottom) :
    Screen.mark (Screen.erase (t.edit fun cells =>
        cells.lifted top (t.scrollBottom + 1 - (top + k)) k t.columns)
      (t.scrollBottom + 1 - k) k 0 (t.columns - 1) t.blank)
      top (t.scrollBottom + 1 - top) 0 (t.columns - 1) = Screen.moveUp t top k := by
  have hregion : t.scrollBottom + 1 - top = t.scrollBottom - top + 1 := by omega
  have hmin : min k (t.scrollBottom - top + 1) = k := by omega
  have hlast : t.columns - 1 + 1 = t.columns := by omega
  unfold Screen.erase Screen.moveUp
  rw [Screen.mark_absorb _ (by omega) (by omega) (Nat.le_refl _) (Nat.le_refl _), edit_edit,
    hregion, hlast]
  simp only [hmin, Grid.fill_lifted _ _ hk]

/-- The rows lowered from the bottom, and the gap blanked: the loop of `ScrollDown`. -/
theorem moveDown_of_loops (t : Terminal) {top k : Nat} (hpos : 0 < t.columns)
    (hk : top + k ≤ t.scrollBottom + 1) (htop : top ≤ t.scrollBottom) :
    Screen.mark (Screen.erase (t.edit fun cells =>
        cells.lowered (top + k) (t.scrollBottom + 1) k t.columns)
      top k 0 (t.columns - 1) t.blank)
      top (t.scrollBottom + 1 - top) 0 (t.columns - 1) = Screen.moveDown t top k := by
  have hregion : t.scrollBottom + 1 - top = t.scrollBottom - top + 1 := by omega
  have hmin : min k (t.scrollBottom - top + 1) = k := by omega
  have hlast : t.columns - 1 + 1 = t.columns := by omega
  unfold Screen.erase Screen.moveDown
  rw [Screen.mark_absorb _ (Nat.le_refl _) (by omega) (Nat.le_refl _) (Nat.le_refl _), edit_edit,
    hregion, hlast]
  simp only [hmin, Grid.fill_lowered _ _ hk]

/-- Counts beyond the region scroll the whole region. -/
theorem moveUp_min (t : Terminal) (top count : Nat) :
    Screen.moveUp t top (min count (t.scrollBottom - top + 1)) = Screen.moveUp t top count := by
  simp only [Screen.moveUp, Nat.min_assoc, Nat.min_self]

/-- More rows than there are move down like all of them. -/
theorem moveDown_min (t : Terminal) (top count : Nat) :
    Screen.moveDown t top (min count (t.scrollBottom - top + 1)) =
      Screen.moveDown t top count := by
  simp only [Screen.moveDown, Nat.min_assoc, Nat.min_self]

/-- The blanks below a lifted region. -/
theorem fillLifted_eq (h : t.WellFormed) {top k : Nat} (hk : top + k ≤ t.scrollBottom + 1)
    {u : Terminal} (hu : u = t.edit fun cells =>
      cells.lifted top (t.scrollBottom + 1 - (top + k)) k t.columns) :
    let v := Screen.erase u (t.scrollBottom + 1 - k) k 0 (t.columns - 1) t.blank
    upFrom (fun row (t : Terminal) => do t.fillCells row 0 (← usub t.columns 1) u.terminalAttribute)
        k (t.scrollBottom + 1 - k) u = .ok v ∧
      v.markDirtyRows top v.scrollBottom = .ok (Screen.mark v top
        (t.scrollBottom + 1 - top) 0 (t.columns - 1)) := by
  have hbottom := h.bottom_lt
  have hlift : u.WellFormed := hu ▸ h.edit fun _ hg => hg.lifted (by omega) _
  subst hu
  have hfill := hlift.fillRows_eq
    (show t.scrollBottom + 1 - k + k ≤ t.rows by omega) t.terminalAttribute_le
  have hdone := hlift.erase hlift.last_lt t.blank_valid (t.scrollBottom + 1 - k) k 0
  exact ⟨hfill, hdone.markDirtyRows_eq top hbottom⟩

/-- `ScrollUp` moves the rows between the margins up. -/
theorem scrollUp_eq (h : t.WellFormed) {count : Nat} (hcount : 0 < count) :
    t.scrollUp count = .ok (Screen.moveUp t t.scrollTop count) := by
  have hmargins := h.margins
  have hbottom := h.bottom_lt
  rw [← moveUp_min]
  simp only [scrollUp, usub_eq hmargins, ok_bind]
  generalize hk : min count (t.scrollBottom - t.scrollTop + 1) = k
  have hle : t.scrollTop + k ≤ t.scrollBottom + 1 := by omega
  rw [if_neg (by omega), h.liftRows_eq, ok_bind]
  obtain ⟨hfill, hmark⟩ := h.fillLifted_eq hle rfl
  have hrow : t.scrollTop + (t.scrollBottom + 1 - (t.scrollTop + k)) = t.scrollBottom + 1 - k := by
    omega
  have hrest : t.scrollBottom + 1 - (t.scrollBottom + 1 - k) = k := by omega
  rw [hrow]
  simp only [edit_scrollBottom, hrest]
  rw [hfill, ok_bind]
  exact hmark.trans (congrArg Except.ok (moveUp_of_loops t h.columns_pos hle hmargins))

/-- `DeleteLines` scrolls up from the cursor row. -/
theorem deleteLines_eq (h : t.WellFormed) (count : Nat) :
    t.deleteLines count =
      .ok (if Screen.InMargins t then Screen.moveUp t t.row count else t) := by
  have hbottom := h.bottom_lt
  unfold deleteLines
  by_cases hin : Screen.InMargins t
  · have hguard : ¬ (t.row < t.scrollTop ∨ t.row > t.scrollBottom) := by
      have htop := hin.1
      have hlast := hin.2
      omega
    rw [if_neg hguard, if_pos hin, ← moveUp_min]
    simp only [usub_eq hin.2, ok_bind]
    generalize hk : min count (t.scrollBottom - t.row + 1) = k
    have hlast := hin.2
    have hle : t.row + k ≤ t.scrollBottom + 1 := by omega
    rw [h.liftRows_eq, ok_bind]
    obtain ⟨hfill, hmark⟩ := h.fillLifted_eq hle rfl
    have hrow : t.row + (t.scrollBottom + 1 - (t.row + k)) = t.scrollBottom + 1 - k := by omega
    have hrest : t.scrollBottom + 1 - (t.scrollBottom + 1 - k) = k := by omega
    rw [hrow]
    simp only [edit_scrollBottom, hrest]
    rw [hfill, ok_bind]
    exact hmark.trans (congrArg Except.ok (moveUp_of_loops t h.columns_pos hle hin.2))
  · have hout : t.row < t.scrollTop ∨ t.row > t.scrollBottom := by
      unfold Screen.InMargins at hin
      omega
    rw [if_pos hout, if_neg hin]

/-- The blanks above a lowered region. -/
theorem fillLowered_eq (h : t.WellFormed) {top k : Nat} (hk : top + k ≤ t.scrollBottom + 1)
    {u : Terminal} (hu : u = t.edit fun cells =>
      cells.lowered (top + k) (t.scrollBottom + 1) k t.columns) :
    let v := Screen.erase u top k 0 (t.columns - 1) t.blank
    upFrom (fun row (t : Terminal) => do t.fillCells row 0 (← usub t.columns 1) u.terminalAttribute)
        k top u = .ok v ∧
      v.markDirtyRows top v.scrollBottom = .ok (Screen.mark v top
        (t.scrollBottom + 1 - top) 0 (t.columns - 1)) := by
  have hbottom := h.bottom_lt
  have hlower : u.WellFormed := hu ▸ h.edit fun _ hg => hg.lowered _ _ _ _
  subst hu
  have hfill := hlower.fillRows_eq
    (show top + k ≤ t.rows by omega) t.terminalAttribute_le
  have hdone := hlower.erase hlower.last_lt t.blank_valid top k 0
  exact ⟨hfill, hdone.markDirtyRows_eq top hbottom⟩

/-- `ScrollDown` moves them down. -/
theorem scrollDown_eq (h : t.WellFormed) {count : Nat} (hcount : 0 < count) :
    t.scrollDown count = .ok (Screen.moveDown t t.scrollTop count) := by
  have hmargins := h.margins
  have hbottom := h.bottom_lt
  rw [← moveDown_min]
  simp only [scrollDown, usub_eq hmargins, ok_bind]
  generalize hk : min count (t.scrollBottom - t.scrollTop + 1) = k
  have hle : t.scrollTop + k ≤ t.scrollBottom + 1 := by omega
  rw [if_neg (by omega), h.lowerRows_eq hle, ok_bind]
  obtain ⟨hfill, hmark⟩ := h.fillLowered_eq hle rfl
  have hrest : t.scrollTop + k - t.scrollTop = k := by omega
  simp only [edit_scrollTop, hrest]
  rw [hfill, ok_bind]
  exact hmark.trans (congrArg Except.ok (moveDown_of_loops t h.columns_pos hle hmargins))

/-- `InsertLines` scrolls down from the cursor row. -/
theorem insertLines_eq (h : t.WellFormed) (count : Nat) :
    t.insertLines count =
      .ok (if Screen.InMargins t then Screen.moveDown t t.row count else t) := by
  have hbottom := h.bottom_lt
  unfold insertLines
  by_cases hin : Screen.InMargins t
  · have hguard : ¬ (t.row < t.scrollTop ∨ t.row > t.scrollBottom) := by
      have htop := hin.1
      have hlast := hin.2
      omega
    rw [if_neg hguard, if_pos hin, ← moveDown_min]
    simp only [usub_eq hin.2, ok_bind]
    generalize hk : min count (t.scrollBottom - t.row + 1) = k
    have hlast := hin.2
    have hle : t.row + k ≤ t.scrollBottom + 1 := by omega
    rw [h.lowerRows_eq hle, ok_bind]
    obtain ⟨hfill, hmark⟩ := h.fillLowered_eq hle rfl
    have hrest : t.row + k - t.row = k := by omega
    simp only [edit_row, hrest]
    rw [hfill, ok_bind]
    exact hmark.trans (congrArg Except.ok (moveDown_of_loops t h.columns_pos hle hin.2))
  · have hout : t.row < t.scrollTop ∨ t.row > t.scrollBottom := by
      unfold Screen.InMargins at hin
      omega
    rw [if_pos hout, if_neg hin]

/-- `IndexDown` does not fail. -/
theorem indexDown_eq (h : t.WellFormed) : t.indexDown = .ok (Screen.index t) := by
  simp only [indexDown, Screen.index]
  by_cases hrow : t.row = t.scrollBottom
  · rw [if_pos hrow, if_pos hrow]
    exact h.cancelWrap.scrollUp_eq Nat.one_pos
  · simp only [hrow, if_false]
    split <;> rfl

/-- `IndexUp` does not fail. -/
theorem indexUp_eq (h : t.WellFormed) : t.indexUp = .ok (Screen.reverseIndex t) := by
  simp only [indexUp, Screen.reverseIndex]
  by_cases hrow : t.row = t.scrollTop
  · rw [if_pos hrow, if_pos hrow]
    exact h.cancelWrap.scrollDown_eq Nat.one_pos
  · simp only [hrow, if_false]
    by_cases hzero : t.row = 0
    · simp [hzero, Screen.cancelWrap]
    · simp only [ne_eq, hzero, not_false_eq_true, if_true, usub_eq (Nat.pos_of_ne_zero hzero),
        ok_bind]
      rfl

/-! ### Moving the cells of a line -/

/-- The copying loop of `PutCharacter` in insert mode and of `InsertCharacters`. -/
theorem pushCells_eq (h : t.WellFormed) {k : Nat} (hk : t.column + k ≤ t.columns) :
    downTo (fun column (t : Terminal) => do
        let cell ← t.readCell t.row (← usub column k)
        t.writeCell t.row column cell) (t.column + k) t.columns t =
      .ok (t.edit fun cells => cells.pushed t.row (t.column + k) t.columns k) := by
  have hrow := h.row_lt
  have hloop := downTo_eq
    (fun column (t : Terminal) => do
      let cell ← t.readCell t.row (← usub column k)
      t.writeCell t.row column cell)
    (fun x => t.edit fun cells => cells.pushed t.row x t.columns k)
    (t.column + k) t.columns hk (fun x hx hlt => by
      have hread : (t.edit fun cells => cells.pushed t.row (x + 1) t.columns k).readCell
          t.row (x - k) = .ok (t.active.pushed t.row (x + 1) t.columns k t.row (x - k)) := by
        have hin : t.row < t.rows ∧ x - k < t.columns := ⟨hrow, by omega⟩
        simp only [readCell, active_edit]
        exact if_pos hin
      rw [usub_eq (show k ≤ x by omega), ok_bind]
      show (readCell _ t.row (x - k) >>= _) = _
      rw [hread, ok_bind]
      show writeCell _ t.row x _ = _
      rw [writeCell_eq (t := t.edit _) hrow hlt, edit_edit]
      exact congrArg Except.ok
        (t.edit_congr (Grid.pushed_step t.active hlt (show k ≤ x by omega))))
  have hnone : (t.edit fun cells => cells.pushed t.row t.columns t.columns k) = t := by simp
  simpa only [hnone] using hloop

/-- The copying loop of `DeleteCharacters`. -/
theorem pullCells_eq (h : t.WellFormed) (k : Nat) :
    upFrom (fun column (t : Terminal) => do
        let cell ← t.readCell t.row (column + k)
        t.writeCell t.row column cell) (t.columns - (t.column + k)) t.column t =
      .ok (t.edit fun cells => cells.pulled t.row t.column (t.columns - (t.column + k)) k) := by
  have hrow := h.row_lt
  have hloop := upFrom_eq
    (fun column (t : Terminal) => do
      let cell ← t.readCell t.row (column + k)
      t.writeCell t.row column cell)
    (fun n => t.edit fun cells => cells.pulled t.row t.column n k)
    (t.columns - (t.column + k)) t.column (fun n hn => by
      have hread : (t.edit fun cells => cells.pulled t.row t.column n k).readCell
          t.row (t.column + n + k) =
          .ok (t.active.pulled t.row t.column n k t.row (t.column + n + k)) := by
        have hin : t.row < t.rows ∧ t.column + n + k < t.columns := ⟨hrow, by omega⟩
        simp only [readCell, active_edit]
        exact if_pos hin
      show (readCell _ t.row (t.column + n + k) >>= _) = _
      rw [hread, ok_bind]
      show writeCell _ t.row (t.column + n) _ = _
      rw [writeCell_eq (t := t.edit _) hrow (show t.column + n < t.columns by omega), edit_edit]
      exact congrArg Except.ok (t.edit_congr (Grid.pulled_step t.active _ _ _ _)))
  have hnone : (t.edit fun cells => cells.pulled t.row t.column 0 k) = t := by simp
  simpa only [hnone] using hloop

/-- The pending wrap of `PutCharacter`. -/
theorem wrapLine_eq (h : t.WellFormed) : t.wrapLine = .ok (Screen.wrap t) := by
  unfold wrapLine Screen.wrap
  split
  · exact indexDown_eq { h with column_lt := h.columns_pos }
  · rfl

/-- Making room for one character in insert mode. -/
theorem makeRoom_eq (h : t.WellFormed) (hroom : t.insertMode ∧ t.column + 1 < t.columns) :
    t.makeRoom =
      .ok (Screen.mark (t.edit fun cells => cells.pushed t.row (t.column + 1) t.columns 1)
        t.row 1 t.column (t.columns - 1)) := by
  have hcolumns := h.columns_pos
  have hcolumn : t.column + 1 ≤ t.columns := h.column_lt
  have hlast : t.columns - 1 + 1 = t.columns := by omega
  have hself : min (t.columns - 1) (t.columns - 1) = t.columns - 1 := Nat.min_self _
  unfold makeRoom
  rw [if_pos hroom, usub_eq hcolumns, ok_bind, hlast, h.pushCells_eq hcolumn, ok_bind]
  have hpushed := h.edit fun _ hg => hg.pushed t.row (t.column + 1) t.columns 1
  have hmark := hpushed.markDirty_eq h.row_lt h.column_lt (t.columns - 1)
  simp only [edit_columns, hself] at hmark
  exact hmark

/-- Writing the cell at the cursor. -/
theorem writeCursor_eq (h : t.WellFormed) {cell : Cell} (hcell : cell.Valid)
    (f : Terminal → Checked Terminal) :
    (do
      let u ← t.writeCell t.row t.column cell
      let u ← u.markDirty u.row u.column u.column
      f u) = f (Screen.erase t t.row 1 t.column t.column cell) := by
  have hcolumn := h.column_lt
  have hmin : min t.column (t.columns - 1) = t.column := by omega
  rw [writeCell_eq h.row_lt hcolumn, ok_bind]
  have hwritten := h.edit fun _ hg => hg.fill hcell t.row 1 t.column (t.column + 1)
  have hmark := hwritten.markDirty_eq h.row_lt hcolumn t.column
  simp only [edit_columns, hmin] at hmark
  exact congrArg (· >>= f) hmark

/-- Room made and filled is a shift of the line by one. -/
theorem write_of_room (h : t.WellFormed) (cell : Cell) :
    Screen.erase (Screen.mark (t.edit fun cells =>
        cells.pushed t.row (t.column + 1) t.columns 1) t.row 1 t.column (t.columns - 1))
      t.row 1 t.column t.column cell =
      Screen.mark (t.edit fun cells => cells.shiftRight t.row t.column 1 t.columns cell)
        t.row 1 t.column (t.columns - 1) := by
  have hcolumn : t.column + 1 ≤ t.columns := h.column_lt
  unfold Screen.erase
  rw [← Screen.mark_edit, edit_edit, Screen.mark_absorbed _ (Nat.le_refl _) (Nat.le_refl _)
    (Nat.le_refl _) (by omega)]
  simp only [Grid.fill_pushed _ _ hcolumn]

/-- At the last column there is nothing to make room for. -/
theorem write_at_end (t : Terminal) (hlast : t.column + 1 = t.columns) (cell : Cell) :
    Screen.erase t t.row 1 t.column t.column cell =
      Screen.mark (t.edit fun cells => cells.shiftRight t.row t.column 1 t.columns cell)
        t.row 1 t.column (t.columns - 1) := by
  have hcolumn : t.columns - 1 = t.column := by omega
  have hshift (cells : Grid Cell) : cells.fill t.row 1 t.column t.columns cell =
      cells.shiftRight t.row t.column 1 t.columns cell := by
    rw [← Grid.fill_pushed cells cell (show t.column + 1 ≤ t.columns by omega), hlast,
      Grid.pushed_self]
  unfold Screen.erase
  simp only [hcolumn, hlast, hshift]

/-- **`PutCharacter` prints.** -/
theorem putCharacter_eq (h : t.WellFormed) {character : Nat}
    (hc : character ≠ 0 ∧ character ≤ 0xffff) :
    t.putCharacter character = .ok (Screen.print t character) := by
  unfold putCharacter Screen.print
  rw [h.wrapLine_eq, ok_bind]
  have hwrap := h.wrap
  generalize Screen.wrap t = u at hwrap ⊢
  have hcolumn := hwrap.column_lt
  have hcell : Cell.Valid ⟨character, u.terminalAttribute⟩ := ⟨u.terminalAttribute_le, hc⟩
  have hadvance (v : Terminal) : (if v.column + 1 = v.columns
      then (.ok { v with wrapPending := true } : Checked Terminal)
      else .ok { v with column := v.column + 1 }) = .ok (Screen.advance v) := by
    unfold Screen.advance
    split <;> rfl
  simp only [hadvance]
  unfold Screen.write
  by_cases hroom : u.insertMode ∧ u.column + 1 < u.columns
  · have hpushed := (hwrap.edit fun _ hg => hg.pushed u.row (u.column + 1) u.columns 1).mark
      hwrap.last_lt u.row 1 u.column
    rw [hwrap.makeRoom_eq hroom, ok_bind, if_pos hroom.1, ← hwrap.write_of_room]
    exact hpushed.writeCursor_eq hcell (fun v => .ok (Screen.advance v))
  · have hnone : u.makeRoom = .ok u := if_neg hroom
    rw [hnone, ok_bind, hwrap.writeCursor_eq hcell (fun v => .ok (Screen.advance v))]
    split
    · next hinsert =>
        have hlast : u.column + 1 = u.columns := by
          have hfull : ¬ u.column + 1 < u.columns := fun hlt => hroom ⟨hinsert, hlt⟩
          omega
        rw [write_at_end u hlast]
    · rfl

/-- The end of `InsertCharacters` and `DeleteCharacters`: blanks inside the rest
of the line, all of which is marked. -/
theorem blankInLine_eq (h : t.WellFormed) (left last : Nat) (hleft : t.column ≤ left)
    (hle : left ≤ last) (hlast : last < t.columns) :
    (do
      let u ← t.fillCells t.row left last t.terminalAttribute
      let right ← usub u.columns 1
      u.markDirty u.row u.column right) =
      .ok (Screen.mark (t.edit fun cells => cells.fill t.row 1 left (last + 1) t.blank)
        t.row 1 t.column (t.columns - 1)) := by
  have hcolumns := h.columns_pos
  have hright : t.columns - 1 < t.columns := h.last_lt
  have hmin : min last (t.columns - 1) = last := by omega
  have hself : min (t.columns - 1) (t.columns - 1) = t.columns - 1 := Nat.min_self _
  have hdone := h.erase hlast t.blank_valid t.row 1 left
  have hmark := hdone.markDirty_eq h.row_lt h.column_lt (t.columns - 1)
  rw [h.fillCells_eq h.row_lt (by omega) last t.terminalAttribute_le, ok_bind, hmin]
  show (usub t.columns 1 >>= _) = _
  rw [usub_eq hcolumns, ok_bind]
  refine hmark.trans (congrArg Except.ok ?_)
  show Screen.mark _ t.row 1 t.column (min (t.columns - 1) (t.columns - 1)) = _
  rw [hself]
  exact Screen.mark_absorb _ (Nat.le_refl _) (Nat.le_refl _) hleft (by omega)

/-- `InsertCharacters` pushes the cells behind the cursor. -/
theorem insertCharacters_eq (h : t.WellFormed) {count : Nat} (hcount : 0 < count) :
    t.insertCharacters count = .ok (Screen.insertCharacters t count) := by
  have hcolumn := h.column_lt
  unfold insertCharacters Screen.insertCharacters
  rw [usub_eq (Nat.le_of_lt hcolumn), ok_bind]
  generalize hk : min count (t.columns - t.column) = k
  have hle : t.column + k ≤ t.columns := by omega
  have hpushed := h.edit fun _ hg => hg.pushed t.row (t.column + k) t.columns k
  have hend := hpushed.blankInLine_eq t.column (t.column + k - 1)
    (Nat.le_refl _) (by omega) (show t.column + k - 1 < t.columns by omega)
  have hstop : t.column + k - 1 + 1 = t.column + k := by omega
  simp only [h.pushCells_eq hle, ok_bind]
  show (usub (t.column + k) 1 >>= _) = _
  rw [usub_eq (by omega), ok_bind]
  refine hend.trans (congrArg Except.ok ?_)
  rw [edit_edit, hstop]
  exact congrArg (fun u => Screen.mark u t.row 1 t.column (t.columns - 1))
    (t.edit_congr (Grid.fill_pushed t.active _ hle))

/-- `DeleteCharacters` pulls them. -/
theorem deleteCharacters_eq (h : t.WellFormed) {count : Nat} (hcount : 0 < count) :
    t.deleteCharacters count = .ok (Screen.deleteCharacters t count) := by
  have hcolumns := h.columns_pos
  have hcolumn := h.column_lt
  unfold deleteCharacters Screen.deleteCharacters
  rw [usub_eq (Nat.le_of_lt hcolumn), ok_bind]
  generalize hk : min count (t.columns - t.column) = k
  have hle : t.column + k ≤ t.columns := by omega
  have hpulled := h.edit fun _ hg =>
    hg.pulled (show t.column + (t.columns - (t.column + k)) + k ≤ t.columns by omega) t.row
  have hend := hpulled.blankInLine_eq (t.columns - k) (t.columns - 1)
    (show t.column ≤ _ by omega) (by omega) h.last_lt
  have hstop : t.columns - 1 + 1 = t.columns := by omega
  simp only [h.pullCells_eq k, ok_bind]
  show (usub t.columns k >>= fun left => usub t.columns 1 >>= _) = _
  rw [usub_eq (by omega), ok_bind, usub_eq hcolumns, ok_bind]
  refine hend.trans (congrArg Except.ok ?_)
  rw [edit_edit, hstop]
  exact congrArg (fun u => Screen.mark u t.row 1 t.column (t.columns - 1))
    (t.edit_congr (Grid.fill_pulled t.active _ hle))

end WellFormed

end Terminal

end WolfSshUefi
