import WolfSshUefi.Library.Grid

/-!
# Grids as lists of lines

The lines of a region as a list, and the cells of a line as a list.  Moving the
rows of a region takes lines away at one end of the list and adds blank ones at
the other; moving the cells of a line does the same behind a column.
-/

namespace Grid

variable {α : Type} (g : Grid α)

/-- The first `width` cells of a row. -/
def line (width row : Nat) : List α := (List.range width).map (g row)

/-- The lines `first ..< first + count`. -/
def lines (width first count : Nat) : List (List α) :=
  (List.range count).map fun i => g.line width (first + i)

/-- A line has the width of the screen. -/
@[simp] theorem length_line (width row : Nat) : (g.line width row).length = width := by
  simp [line]

/-- There are as many lines as asked for. -/
@[simp] theorem length_lines (width first count : Nat) :
    (g.lines width first count).length = count := by
  simp [lines]

/-- A cell of a line. -/
theorem getElem?_line (width row j : Nat) :
    (g.line width row)[j]? = if j < width then some (g row j) else none := by
  by_cases hj : j < width <;> simp [line, hj]

/-- A line of the lines. -/
theorem getElem?_lines (width first count i : Nat) :
    (g.lines width first count)[i]? =
      if i < count then some (g.line width (first + i)) else none := by
  by_cases hi : i < count <;> simp [lines, hi]

theorem lines_one (width row : Nat) : g.lines width row 1 = [g.line width row] := rfl

/-- Rows that agree have the same line. -/
theorem line_congr {g h : Grid α} {width row row' : Nat}
    (hcells : ∀ j, j < width → g row j = h row' j) : g.line width row = h.line width row' := by
  unfold line
  apply List.map_congr_left
  intro j hj
  exact hcells j (List.mem_range.mp hj)

/-- A line of one cell repeated. -/
theorem line_eq_replicate {g : Grid α} {width row : Nat} {x : α}
    (hcells : ∀ j, j < width → g row j = x) : g.line width row = List.replicate width x := by
  rw [List.eq_replicate_iff]
  refine ⟨g.length_line width row, ?_⟩
  intro cell hcell
  obtain ⟨j, hj, rfl⟩ := List.mem_map.mp hcell
  exact hcells j (List.mem_range.mp hj)

/-! ### Moving rows -/

/-- Moving rows up drops lines at the front and adds blank ones at the end. -/
theorem lines_shiftUp {top bottom k : Nat} (htop : top ≤ bottom + 1) (hk : k ≤ bottom + 1 - top)
    (width : Nat) (x : α) :
    (g.shiftUp top bottom k width x).lines width top (bottom + 1 - top) =
      (g.lines width top (bottom + 1 - top)).drop k ++
        List.replicate k (List.replicate width x) := by
  apply List.ext_getElem?
  intro i
  rw [getElem?_lines, List.getElem?_append, List.length_drop, length_lines, List.getElem?_drop,
    getElem?_lines, List.getElem?_replicate]
  by_cases hmoved : i < bottom + 1 - top - k
  · rw [if_pos (by omega), if_pos hmoved, if_pos (by omega)]
    refine congrArg some (line_congr fun j hj => ?_)
    simp only [shiftUp]
    rw [if_pos (by omega), if_pos (by omega), Nat.add_assoc, Nat.add_comm i k]
  · rw [if_neg hmoved]
    by_cases hin : i < bottom + 1 - top
    · rw [if_pos hin, if_pos (by omega)]
      refine congrArg some (line_eq_replicate fun j hj => ?_)
      simp only [shiftUp]
      rw [if_pos (by omega), if_neg (by omega)]
    · rw [if_neg hin, if_neg (by omega)]

/-- Moving rows down adds blank lines at the front and drops lines at the end. -/
theorem lines_shiftDown {top bottom k : Nat} (hk : k ≤ bottom + 1 - top) (width : Nat) (x : α) :
    (g.shiftDown top bottom k width x).lines width top (bottom + 1 - top) =
      List.replicate k (List.replicate width x) ++
        (g.lines width top (bottom + 1 - top)).take (bottom + 1 - top - k) := by
  apply List.ext_getElem?
  intro i
  rw [getElem?_lines, List.getElem?_append, List.length_replicate, List.getElem?_replicate,
    List.getElem?_take, getElem?_lines]
  by_cases hblank : i < k
  · rw [if_pos (by omega), if_pos hblank, if_pos hblank]
    refine congrArg some (line_eq_replicate fun j hj => ?_)
    simp only [shiftDown]
    rw [if_pos (by omega), if_neg (by omega)]
  · rw [if_neg hblank]
    by_cases hin : i < bottom + 1 - top
    · rw [if_pos hin, if_pos (by omega), if_pos (by omega)]
      refine congrArg some (line_congr fun j hj => ?_)
      simp only [shiftDown]
      rw [if_pos (by omega), if_pos (by omega)]
      congr 1
      omega
    · rw [if_neg hin, if_neg (by omega)]

/-! ### Moving the cells of a line -/

/-- The cells of a line in front of a column, some blanks, and other cells. -/
theorem getElem?_surgery {left k width : Nat} (hleft : left ≤ width) (row : Nat) (x : α)
    (rest : List α) (j : Nat) :
    ((g.line width row).take left ++ List.replicate k x ++ rest)[j]? =
      if j < left then some (g row j) else if j < left + k then some x
        else rest[j - (left + k)]? := by
  rw [List.getElem?_append, List.getElem?_append, List.length_append, List.length_take,
    List.length_replicate, length_line, Nat.min_eq_left hleft, List.getElem?_take, getElem?_line,
    List.getElem?_replicate]
  by_cases hbefore : j < left
  · rw [if_pos (by omega), if_pos hbefore, if_pos hbefore, if_pos (by omega), if_pos hbefore]
  · rw [if_neg hbefore, if_neg hbefore]
    by_cases hblank : j < left + k
    · rw [if_pos hblank, if_pos (by omega), if_pos hblank]
    · rw [if_neg hblank, if_neg hblank]

/-- Moving cells right adds blanks at the column and drops cells at the end. -/
theorem line_shiftRight {left k width : Nat} (hleft : left ≤ width) (hk : k ≤ width - left)
    (row : Nat) (x : α) :
    (g.shiftRight row left k width x).line width row =
      (g.line width row).take left ++ List.replicate k x ++
        ((g.line width row).drop left).take (width - left - k) := by
  apply List.ext_getElem?
  intro j
  rw [getElem?_surgery g hleft, getElem?_line, List.getElem?_take, List.getElem?_drop,
    getElem?_line]
  simp only [shiftRight, true_and]
  by_cases hin : j < width
  · rw [if_pos hin]
    by_cases hbefore : j < left
    · rw [if_pos hbefore, if_neg (by omega)]
    rw [if_neg hbefore, if_pos (by omega)]
    by_cases hblank : j < left + k
    · rw [if_pos hblank, if_neg (by omega)]
    · rw [if_neg hblank, if_pos (by omega), if_pos (by omega), if_pos (by omega)]
      congr 2
      omega
  · rw [if_neg hin, if_neg (by omega), if_neg (by omega), if_neg (by omega)]

/-- Moving cells left drops cells at the column and adds blanks at the end. -/
theorem line_shiftLeft {left k width : Nat} (hleft : left ≤ width) (hk : k ≤ width - left)
    (row : Nat) (x : α) :
    (g.shiftLeft row left k width x).line width row =
      (g.line width row).take left ++ ((g.line width row).drop left).drop k ++
        List.replicate k x := by
  apply List.ext_getElem?
  intro j
  rw [List.drop_drop, List.getElem?_append, List.getElem?_append, List.length_append,
    List.length_take, List.length_drop, length_line, Nat.min_eq_left hleft, List.getElem?_take,
    List.getElem?_drop, List.getElem?_replicate, getElem?_line, getElem?_line, getElem?_line]
  simp only [shiftLeft, true_and]
  by_cases hin : j < width
  · rw [if_pos hin]
    by_cases hbefore : j < left
    · rw [if_neg (by omega), if_pos (by omega), if_pos hbefore, if_pos hbefore, if_pos hin]
    rw [if_pos (by omega), if_neg hbefore]
    by_cases hmoved : j + k < width
    · rw [if_pos hmoved, if_pos (by omega), if_pos (by omega)]
      congr 2
      omega
    · rw [if_neg hmoved, if_neg (by omega), if_pos (by omega)]
  · rw [if_neg hin, if_neg (by omega), if_neg (by omega)]

/-- Overwriting cells with blanks keeps those behind them. -/
theorem line_fill {left k width : Nat} (hk : left + k ≤ width) (row : Nat) (x : α) :
    (g.fill row 1 left (left + k) x).line width row =
      (g.line width row).take left ++ List.replicate k x ++
        ((g.line width row).drop left).drop k := by
  apply List.ext_getElem?
  intro j
  rw [getElem?_surgery g (by omega), List.drop_drop, getElem?_line, List.getElem?_drop,
    getElem?_line]
  simp only [fill]
  by_cases hin : j < width
  · rw [if_pos hin]
    by_cases hbefore : j < left
    · rw [if_pos hbefore, if_neg (by omega)]
    rw [if_neg hbefore]
    by_cases hblank : j < left + k
    · rw [if_pos hblank, if_pos (by omega)]
    · rw [if_neg hblank, if_neg (by omega), if_pos (by omega)]
      congr 2
      omega
  · rw [if_neg hin, if_neg (by omega), if_neg (by omega), if_neg (by omega)]

/-- Writing over the blank that was inserted. -/
theorem fill_shiftRight {left width : Nat} (hleft : left < width) (row : Nat) (x y : α) :
    (g.shiftRight row left 1 width y).fill row 1 left (left + 1) x =
      g.shiftRight row left 1 width x := by
  funext i j
  simp only [fill, shiftRight]
  by_cases hplace : i = row ∧ j = left
  · rw [if_pos (by omega), if_pos (by omega), if_neg (by omega)]
  · rw [if_neg (by omega)]
    by_cases hin : i = row ∧ left ≤ j ∧ j < width
    · rw [if_pos hin, if_pos hin, if_pos (by omega), if_pos (by omega)]
    · rw [if_neg hin, if_neg hin]

end Grid
