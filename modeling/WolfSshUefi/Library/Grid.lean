import Mathlib.Logic.Function.Basic

/-!
# Grids of cells

A grid is addressed by row and column.  The operations are the ones a
character display performs on its buffer: filling a rectangle, and shifting
the rows of a region or the cells of one line, with blanks entering at the
free end.  Nothing outside the given rows and columns changes.

A shift in place copies one row, or one cell, after the other.  `lifted`,
`lowered`, `pulled` and `pushed` describe the grid after some of the copies of
each kind, and the `_step` lemmas say that one more copy gives the next
stage.  This is where the direction of copying matters: a source must not be
overwritten before it is read.
-/

/-- Cells by row and column. -/
abbrev Grid (α : Type) := Nat → Nat → α

namespace Grid

variable {α β : Type}

/-- Write `x` into the rows `first ..< first + count`, columns `left ..< stop`. -/
def fill (g : Grid α) (first count left stop : Nat) (x : α) : Grid α := fun i j =>
  if first ≤ i ∧ i < first + count ∧ left ≤ j ∧ j < stop then x else g i j

/-- Copy the first `width` cells of row `src` over those of row `dst`. -/
def copyRow (g : Grid α) (dst src width : Nat) : Grid α := fun i j =>
  if i = dst ∧ j < width then g src j else g i j

/-- Move the rows `top .. bottom` up by `k`; the last `k` become blank. -/
def shiftUp (g : Grid α) (top bottom k width : Nat) (blank : α) : Grid α := fun i j =>
  if top ≤ i ∧ i ≤ bottom ∧ j < width then
    if i + k ≤ bottom then g (i + k) j else blank
  else g i j

/-- Move the rows `top .. bottom` down by `k`; the first `k` become blank. -/
def shiftDown (g : Grid α) (top bottom k width : Nat) (blank : α) : Grid α := fun i j =>
  if top ≤ i ∧ i ≤ bottom ∧ j < width then
    if top + k ≤ i then g (i - k) j else blank
  else g i j

/-- Move the cells of `row` from column `left` on left by `k`. -/
def shiftLeft (g : Grid α) (row left k width : Nat) (blank : α) : Grid α := fun i j =>
  if i = row ∧ left ≤ j ∧ j < width then
    if j + k < width then g i (j + k) else blank
  else g i j

/-- Move the cells of `row` from column `left` on right by `k`. -/
def shiftRight (g : Grid α) (row left k width : Nat) (blank : α) : Grid α := fun i j =>
  if i = row ∧ left ≤ j ∧ j < width then
    if left + k ≤ j then g i (j - k) else blank
  else g i j

/-! ### Reading a changed grid through a function of the cell -/

/-- The grid of the images of the cells. -/
def map (f : α → β) (g : Grid α) : Grid β := fun i j => f (g i j)

/-- A mapped grid, cell by cell. -/
@[simp] theorem map_apply (f : α → β) (g : Grid α) (i j : Nat) : map f g i j = f (g i j) := rfl

/-- Filling commutes with a map of the cells. -/
theorem map_fill (f : α → β) (g : Grid α) (first count left stop : Nat) (x : α) :
    map f (fill g first count left stop x) = fill (map f g) first count left stop (f x) := by
  funext i j
  simp only [map, fill]
  split <;> rfl

theorem map_shiftUp (f : α → β) (g : Grid α) (top bottom k width : Nat) (x : α) :
    map f (shiftUp g top bottom k width x) = shiftUp (map f g) top bottom k width (f x) := by
  funext i j
  simp only [map, shiftUp]
  split
  · split <;> rfl
  · rfl

theorem map_shiftDown (f : α → β) (g : Grid α) (top bottom k width : Nat) (x : α) :
    map f (shiftDown g top bottom k width x) = shiftDown (map f g) top bottom k width (f x) := by
  funext i j
  simp only [map, shiftDown]
  split
  · split <;> rfl
  · rfl

/-- So does shifting a row to the left. -/
theorem map_shiftLeft (f : α → β) (g : Grid α) (row left k width : Nat) (x : α) :
    map f (shiftLeft g row left k width x) = shiftLeft (map f g) row left k width (f x) := by
  funext i j
  simp only [map, shiftLeft]
  split
  · split <;> rfl
  · rfl

/-- So does shifting it to the right. -/
theorem map_shiftRight (f : α → β) (g : Grid α) (row left k width : Nat) (x : α) :
    map f (shiftRight g row left k width x) = shiftRight (map f g) row left k width (f x) := by
  funext i j
  simp only [map, shiftRight]
  split
  · split <;> rfl
  · rfl

/-! ### The part of a grid that is on the screen -/

/-- `x` everywhere outside the first `rows` rows and `columns` columns. -/
def clip (g : Grid α) (rows columns : Nat) (x : α) : Grid α := fun i j =>
  if i < rows ∧ j < columns then g i j else x

section Clip

variable (g : Grid α) (rows columns : Nat) (x : α)

/-- A clipped grid is clipped already. -/
theorem clip_clip : clip (clip g rows columns x) rows columns x = clip g rows columns x := by
  funext i j
  simp only [clip]
  split <;> rfl

/-- Clipping commutes with a map of the cells. -/
theorem map_clip (f : α → β) :
    map f (clip g rows columns x) = clip (map f g) rows columns (f x) := by
  funext i j
  simp only [map, clip]
  split <;> rfl

/-- What is outside does not come into a filled grid. -/
theorem clip_fill (first count left stop : Nat) (y : α) :
    clip (fill g first count left stop y) rows columns x =
      clip (fill (clip g rows columns x) first count left stop y) rows columns x := by
  funext i j
  simp only [clip, fill]
  grind

/-- Nor from the right into a shifted row. -/
theorem clip_shiftLeft (row left k : Nat) (y : α) :
    clip (shiftLeft g row left k columns y) rows columns x =
      clip (shiftLeft (clip g rows columns x) row left k columns y) rows columns x := by
  funext i j
  simp only [clip, shiftLeft]
  grind

theorem clip_shiftRight (row left k : Nat) (y : α) :
    clip (shiftRight g row left k columns y) rows columns x =
      clip (shiftRight (clip g rows columns x) row left k columns y) rows columns x := by
  funext i j
  simp only [clip, shiftRight]
  grind

/-- The rows that are moved up have to be on the screen. -/
theorem clip_shiftUp {bottom : Nat} (hbottom : bottom < rows) (top k : Nat) (y : α) :
    clip (shiftUp g top bottom k columns y) rows columns x =
      clip (shiftUp (clip g rows columns x) top bottom k columns y) rows columns x := by
  funext i j
  simp only [clip, shiftUp]
  grind

/-- Nor from above into shifted rows. -/
theorem clip_shiftDown (top bottom k : Nat) (y : α) :
    clip (shiftDown g top bottom k columns y) rows columns x =
      clip (shiftDown (clip g rows columns x) top bottom k columns y) rows columns x := by
  funext i j
  simp only [clip, shiftDown]
  grind

/-- A grid that is filled does not matter. -/
theorem clip_fill_all (h : Grid α) (y : α) :
    clip (fill g 0 rows 0 columns y) rows columns x =
      clip (fill h 0 rows 0 columns y) rows columns x := by
  funext i j
  simp only [clip, fill]
  grind

/-- In a single column there is no room to shift. -/
theorem clip_shiftRight_column (hcolumns : columns ≤ 1) (row left : Nat) (y : α) :
    clip (shiftRight g row left 1 columns y) rows columns x =
      clip (fill g row 1 left (left + 1) y) rows columns x := by
  funext i j
  simp only [clip, shiftRight, fill]
  grind

end Clip

/-! ### Shifting in place -/

/-- Rows `top ..< top + n` have received the row `k` below them. -/
def lifted (g : Grid α) (top n k width : Nat) : Grid α := fun i j =>
  if top ≤ i ∧ i < top + n ∧ j < width then g (i + k) j else g i j

/-- Rows `from ..< stop` have received the row `k` above them. -/
def lowered (g : Grid α) (low high k width : Nat) : Grid α := fun i j =>
  if low ≤ i ∧ i < high ∧ j < width then g (i - k) j else g i j

/-- Cells `left ..< left + n` of `row` have received the cell `k` to their right. -/
def pulled (g : Grid α) (row left n k : Nat) : Grid α := fun i j =>
  if i = row ∧ left ≤ j ∧ j < left + n then g i (j + k) else g i j

/-- Cells `low ..< high` of `row` have received the cell `k` to their left. -/
def pushed (g : Grid α) (row low high k : Nat) : Grid α := fun i j =>
  if i = row ∧ low ≤ j ∧ j < high then g i (j - k) else g i j

@[simp] theorem lifted_zero (g : Grid α) (top k width : Nat) : lifted g top 0 k width = g := by
  funext i j
  simp only [lifted]
  exact if_neg (by omega)

theorem lifted_step (g : Grid α) (top n k width : Nat) :
    copyRow (lifted g top n k width) (top + n) (top + n + k) width =
      lifted g top (n + 1) k width := by
  funext i j
  simp only [copyRow, lifted]
  grind

@[simp] theorem lowered_self (g : Grid α) (low k width : Nat) :
    lowered g low low k width = g := by
  funext i j
  simp only [lowered]
  exact if_neg (by omega)

/-- Copying downwards: the rows from `x + 1` on are done and row `x` is next. -/
theorem lowered_step (g : Grid α) {x high k width : Nat} (hx : x < high) (hk : k ≤ x) :
    copyRow (lowered g (x + 1) high k width) x (x - k) width = lowered g x high k width := by
  funext i j
  simp only [copyRow, lowered]
  grind

@[simp] theorem pulled_zero (g : Grid α) (row left k : Nat) : pulled g row left 0 k = g := by
  funext i j
  simp only [pulled]
  exact if_neg (by omega)

/-- One cell more is pulled to the left. -/
theorem pulled_step (g : Grid α) (row left n k : Nat) :
    fill (pulled g row left n k) row 1 (left + n) (left + n + 1)
        (pulled g row left n k row (left + n + k)) =
      pulled g row left (n + 1) k := by
  funext i j
  simp only [fill, pulled]
  grind

@[simp] theorem pushed_self (g : Grid α) (row low k : Nat) : pushed g row low low k = g := by
  funext i j
  simp only [pushed]
  exact if_neg (by omega)

/-- One cell more is pushed to the right; the loop runs from the right end. -/
theorem pushed_step (g : Grid α) {row x high k : Nat} (hx : x < high) (hk : k ≤ x) :
    fill (pushed g row (x + 1) high k) row 1 x (x + 1)
        (pushed g row (x + 1) high k row (x - k)) =
      pushed g row x high k := by
  funext i j
  simp only [fill, pushed]
  grind

/-! ### A finished loop followed by the blanks -/

/-- Rows lifted, and the rest blanked: a shift up. -/
theorem fill_lifted (g : Grid α) {top bottom k width : Nat} (x : α)
    (hk : top + k ≤ bottom + 1) :
    fill (lifted g top (bottom + 1 - (top + k)) k width) (bottom + 1 - k) k 0 width x =
      shiftUp g top bottom k width x := by
  funext i j
  simp only [fill, lifted, shiftUp]
  grind

/-- Rows lowered, and the rest blanked: a shift down. -/
theorem fill_lowered (g : Grid α) {top bottom k width : Nat} (x : α)
    (hk : top + k ≤ bottom + 1) :
    fill (lowered g (top + k) (bottom + 1) k width) top k 0 width x =
      shiftDown g top bottom k width x := by
  funext i j
  simp only [fill, lowered, shiftDown]
  grind

/-- Cells pulled, and the rest blanked: a shift to the left. -/
theorem fill_pulled (g : Grid α) {row left k width : Nat} (x : α)
    (hk : left + k ≤ width) :
    fill (pulled g row left (width - (left + k)) k) row 1 (width - k) width x =
      shiftLeft g row left k width x := by
  funext i j
  simp only [fill, pulled, shiftLeft]
  grind

/-- Cells pushed, and the rest blanked: a shift to the right. -/
theorem fill_pushed (g : Grid α) {row left k width : Nat} (x : α)
    (hk : left + k ≤ width) :
    fill (pushed g row (left + k) width k) row 1 left (left + k) x =
      shiftRight g row left k width x := by
  funext i j
  simp only [fill, pushed, shiftRight]
  grind

/-- Filling row after row. -/
theorem fill_succ_row (g : Grid α) (first n left stop : Nat) (x : α) :
    fill (fill g first n left stop x) (first + n) 1 left stop x =
      fill g first (n + 1) left stop x := by
  funext i j
  simp only [fill]
  grind

/-- Filling cell after cell. -/
theorem fill_succ_column (g : Grid α) (row left n : Nat) (x : α) :
    fill (fill g row 1 left (left + n) x) row 1 (left + n) (left + n + 1) x =
      fill g row 1 left (left + (n + 1)) x := by
  funext i j
  simp only [fill]
  grind

/-- A stop given by a count. -/
theorem fill_count (g : Grid α) (first count left stop : Nat) (x : α) :
    fill g first count left (left + (stop - left)) x = fill g first count left stop x := by
  funext i j
  simp only [fill]
  grind

/-- Filling no rows. -/
@[simp] theorem fill_no_rows (g : Grid α) (first left stop : Nat) (x : α) :
    fill g first 0 left stop x = g := by
  funext i j
  simp only [fill]
  exact if_neg (by omega)

/-- Filling no columns. -/
theorem fill_no_columns (g : Grid α) (first count : Nat) {left stop : Nat} (h : stop ≤ left)
    (x : α) : fill g first count left stop x = g := by
  funext i j
  simp only [fill]
  exact if_neg (by omega)

/-! ### Properties of every cell -/

/-- Every cell of the first `rows` rows and `columns` columns has the property. -/
def All (rows columns : Nat) (P : α → Prop) (g : Grid α) : Prop :=
  ∀ i, i < rows → ∀ j, j < columns → P (g i j)

section All

variable {rows columns : Nat} {P : α → Prop} {g : Grid α}

/-- What holds of all cells and of the new one holds after a fill. -/
theorem All.fill (h : All rows columns P g) {x : α} (hx : P x) (first count left stop : Nat) :
    All rows columns P (g.fill first count left stop x) := by
  intro i hi j hj
  simp only [Grid.fill]
  split
  · exact hx
  · exact h i hi j hj

/-- The same for rows that move up, as long as they come from the screen. -/
theorem All.shiftUp (h : All rows columns P g) {x : α} (hx : P x) {bottom : Nat}
    (hb : bottom < rows) (top k width : Nat) :
    All rows columns P (g.shiftUp top bottom k width x) := by
  intro i hi j hj
  simp only [Grid.shiftUp]
  split
  · split
    · exact h _ (by omega) j hj
    · exact hx
  · exact h i hi j hj

/-- The same for rows that move down. -/
theorem All.shiftDown (h : All rows columns P g) {x : α} (hx : P x)
    (top bottom k width : Nat) : All rows columns P (g.shiftDown top bottom k width x) := by
  intro i hi j hj
  simp only [Grid.shiftDown]
  split
  · split
    · exact h _ (by omega) j hj
    · exact hx
  · exact h i hi j hj

/-- The same for a row that moves to the left. -/
theorem All.shiftLeft (h : All rows columns P g) {x : α} (hx : P x) (row left k : Nat) :
    All rows columns P (g.shiftLeft row left k columns x) := by
  intro i hi j hj
  simp only [Grid.shiftLeft]
  split
  · split
    · exact h i hi _ (by omega)
    · exact hx
  · exact h i hi j hj

/-- The same for a row that moves to the right. -/
theorem All.shiftRight (h : All rows columns P g) {x : α} (hx : P x) (row left k width : Nat) :
    All rows columns P (g.shiftRight row left k width x) := by
  intro i hi j hj
  simp only [Grid.shiftRight]
  split
  · split
    · exact h i hi _ (by omega)
    · exact hx
  · exact h i hi j hj

/-- Lifted rows come from the screen. -/
theorem All.lifted (h : All rows columns P g) {top n k : Nat} (hn : top + n + k ≤ rows)
    (width : Nat) : All rows columns P (g.lifted top n k width) := by
  intro i hi j hj
  simp only [Grid.lifted]
  split
  · exact h _ (by omega) j hj
  · exact h i hi j hj

/-- Lowered rows come from above. -/
theorem All.lowered (h : All rows columns P g) (low high k width : Nat) :
    All rows columns P (g.lowered low high k width) := by
  intro i hi j hj
  simp only [Grid.lowered]
  split
  · exact h _ (by omega) j hj
  · exact h i hi j hj

/-- Pulled cells come from the screen. -/
theorem All.pulled (h : All rows columns P g) {left n k : Nat} (hn : left + n + k ≤ columns)
    (row : Nat) : All rows columns P (g.pulled row left n k) := by
  intro i hi j hj
  simp only [Grid.pulled]
  split
  · exact h i hi _ (by omega)
  · exact h i hi j hj

/-- Pushed cells come from the left. -/
theorem All.pushed (h : All rows columns P g) (row low high k : Nat) :
    All rows columns P (g.pushed row low high k) := by
  intro i hi j hj
  simp only [Grid.pushed]
  split
  · exact h i hi _ (by omega)
  · exact h i hi j hj

/-- A screen that is filled has nothing else. -/
theorem all_fill_screen {x : α} (hx : P x) (g : Grid α) :
    All rows columns P (g.fill 0 rows 0 columns x) := by
  intro i hi j hj
  have hin : 0 ≤ i ∧ i < 0 + rows ∧ 0 ≤ j ∧ j < columns := by omega
  simpa only [Grid.fill, hin, and_self, if_true] using hx

end All

/-! ### Filling by flat index -/

/-- Write `x` into the cells whose index in row-major order is below `n`. -/
def fillIndices (g : Grid α) (width n : Nat) (x : α) : Grid α := fun i j =>
  if j < width ∧ i * width + j < n then x else g i j

@[simp] theorem fillIndices_zero (g : Grid α) (width : Nat) (x : α) :
    fillIndices g width 0 x = g := by
  funext i j
  simp [fillIndices]

/-- The cell with index `n` is in row `n / width`, column `n % width`. -/
theorem index_eq_iff {width n i j : Nat} (hw : 0 < width) :
    (j < width ∧ i * width + j = n) ↔ (i = n / width ∧ j = n % width) := by
  constructor
  · intro hboth
    obtain ⟨hj, rfl⟩ := hboth
    rw [Nat.mul_comm, Nat.mul_add_div hw, Nat.mul_add_mod, Nat.div_eq_of_lt hj,
      Nat.mod_eq_of_lt hj]
    exact ⟨rfl, rfl⟩
  · intro hboth
    obtain ⟨rfl, rfl⟩ := hboth
    exact ⟨Nat.mod_lt n hw, by rw [Nat.mul_comm]; exact Nat.div_add_mod n width⟩

/-- One index more is filled, row by row. -/
theorem fillIndices_succ (g : Grid α) {width : Nat} (hw : 0 < width) (n : Nat) (x : α) :
    fill (fillIndices g width n x) (n / width) 1 (n % width) (n % width + 1) x =
      fillIndices g width (n + 1) x := by
  funext i j
  have hindex := index_eq_iff (n := n) (i := i) (j := j) hw
  simp only [fill, fillIndices]
  by_cases hcell : i = n / width ∧ j = n % width
  · have hflat := hindex.mpr hcell
    rw [if_pos (by omega), if_pos (by omega)]
  · have hflat : ¬ (j < width ∧ i * width + j = n) := fun h => hcell (hindex.mp h)
    rw [if_neg (show ¬ (n / width ≤ i ∧ i < n / width + 1 ∧ n % width ≤ j ∧ j < n % width + 1) by
      omega)]
    by_cases hbelow : j < width ∧ i * width + j < n
    · rw [if_pos hbelow, if_pos (by omega)]
    · rw [if_neg hbelow, if_neg (by omega)]

/-- All `rows * width` indices make up the first `rows` rows. -/
theorem fillIndices_all (g : Grid α) (rows width : Nat) (x : α) :
    fillIndices g width (rows * width) x = fill g 0 rows 0 width x := by
  funext i j
  simp only [fill, fillIndices]
  by_cases hj : j < width
  · by_cases hi : i < rows
    · have hlt : i * width + j < rows * width := by
        have hmul : (i + 1) * width ≤ rows * width := Nat.mul_le_mul_right width hi
        rw [Nat.succ_mul] at hmul
        omega
      rw [if_pos ⟨hj, hlt⟩, if_pos (by omega)]
    · have hge : rows * width ≤ i * width := Nat.mul_le_mul_right width (by omega)
      rw [if_neg (by omega), if_neg (by omega)]
  · rw [if_neg (by omega), if_neg (by omega)]

end Grid
