import WolfSshUefi.Terminal.Refinement

/-!
# What a flush sends to the console

`WolfSshTerminalFlush` paints the dirty interval of every row as a sequence of
runs, each of cells in the same colours.  `Runs` says which calls may paint the
cells from a column on, and `Painted` which calls may paint the first rows; how
an interval is cut into runs matters to neither.
-/

namespace WolfSshUefi

/-- The characters at `count` cells of a line from `position` on. -/
def textAt (line : Nat → Cell) (position count : Nat) : List Nat :=
  (List.range count).map fun i => (line (position + i)).character

/-- The calls that paint one run. -/
def runCalls (line : Nat → Cell) (row position count : Nat) : List ConsoleCall :=
  [.setAttribute (line position).attr, .setCursorPosition position row,
    .outputString (textAt line position count)]

/-- Calls that paint the cells `position .. last` of a line run by run. -/
inductive Runs (line : Nat → Cell) (row last : Nat) : Nat → List ConsoleCall → Prop
  | done {position : Nat} (hend : position = last + 1) : Runs line row last position []
  | run {position count : Nat} {calls : List ConsoleCall} (hpos : 0 < count)
      (hlast : position + count ≤ last + 1)
      (hattr : ∀ i, i < count → (line (position + i)).attr = (line position).attr)
      (hrest : Runs line row last (position + count) calls) :
      Runs line row last position (runCalls line row position count ++ calls)

namespace Terminal

/-- The row has cells to be painted. -/
def DirtyRow (t : Terminal) (row : Nat) : Prop :=
  t.dirtyStart row < t.columns ∧ t.dirtyStart row ≤ t.dirtyEnd row

instance (t : Terminal) (row : Nat) : Decidable (t.DirtyRow row) := by
  unfold DirtyRow; infer_instance

/-- The cell is inside the dirty interval of its row. -/
def Dirty (t : Terminal) (row column : Nat) : Prop :=
  t.dirtyStart row ≤ column ∧ column ≤ t.dirtyEnd row

instance (t : Terminal) (row column : Nat) : Decidable (t.Dirty row column) := by
  unfold Dirty; infer_instance

/-- Calls that paint one row. -/
def RowPainted (t : Terminal) (row : Nat) (calls : List ConsoleCall) : Prop :=
  if t.DirtyRow row then
    Runs (t.active row) row (t.dirtyEnd row) (t.dirtyStart row) calls
  else calls = []

/-- Calls that paint the first rows, one after the other. -/
inductive Painted (t : Terminal) : Nat → List ConsoleCall → Prop
  | zero : Painted t 0 []
  | row {n : Nat} {calls rowCalls : List ConsoleCall} (hcalls : Painted t n calls)
      (hrow : t.RowPainted n rowCalls) : Painted t (n + 1) (calls ++ rowCalls)

/-- The first `n` rows have nothing left to paint. -/
def painted (t : Terminal) (n : Nat) (buffer : Nat → Nat) (calls : List ConsoleCall) :
    Terminal :=
  { t with
    dirtyStart := fun i => if i < n ∧ t.DirtyRow i then t.columns else t.dirtyStart i
    dirtyEnd := fun i => if i < n ∧ t.DirtyRow i then 0 else t.dirtyEnd i
    renderBuffer := buffer
    conOut := t.conOut ++ calls }

/-- What a flush sends besides the painting. -/
def flushCalls (t : Terminal) (painting : List ConsoleCall) : List ConsoleCall :=
  [.enableCursor false] ++ painting ++
    [.setAttribute t.terminalAttribute, .setCursorPosition t.column t.row,
      .enableCursor t.cursorVisible]

open Loops

/-- `RunEnd` stops before the first cell in other colours. -/
theorem runEnd_eq (t : Terminal) {row : Nat} (hrow : row < t.rows) (attr : Nat) {left start : Nat}
    (hlast : start + left < t.columns) :
    ∃ k, k ≤ left ∧ t.runEnd row attr left start = .ok (start + k) ∧
      ∀ i, i < k → (t.active row (start + 1 + i)).attr = attr := by
  induction left generalizing start with
  | zero => exact ⟨0, Nat.le_refl 0, rfl, fun i hi => absurd hi (Nat.not_lt_zero i)⟩
  | succ n ih =>
      have hread : t.readCell row (start + 1) = .ok (t.active row (start + 1)) :=
        if_pos ⟨hrow, by omega⟩
      unfold runEnd
      rw [hread, ok_bind]
      by_cases hattr : (t.active row (start + 1)).attr = attr
      · obtain ⟨k, hk, hrest, hsame⟩ := ih (show start + 1 + n < t.columns by omega)
        refine ⟨k + 1, by omega, ?_, ?_⟩
        · rw [if_pos hattr, hrest, show start + 1 + k = start + (k + 1) by omega]
        · intro i hi
          cases i with
          | zero => exact hattr
          | succ j =>
              have hj := hsame j (by omega)
              rwa [show start + 1 + 1 + j = start + 1 + (j + 1) by omega] at hj
      · exact ⟨0, Nat.zero_le _, if_neg hattr, fun i hi => absurd hi (Nat.not_lt_zero i)⟩

/-- A string of `n` characters and its terminator. -/
theorem cString_eq {buffer : Nat → Nat} {size n : Nat} (k : Nat)
    (hchars : ∀ i, i < n → buffer (k + i) ≠ 0) (hend : buffer (k + n) = 0) (hsize : n < size) :
    cString buffer size k = .ok ((List.range n).map fun i => buffer (k + i)) := by
  induction n generalizing size k with
  | zero =>
      obtain ⟨s, rfl⟩ : ∃ s, size = s + 1 := ⟨size - 1, by omega⟩
      exact if_pos hend
  | succ m ih =>
      obtain ⟨s, rfl⟩ : ∃ s, size = s + 1 := ⟨size - 1, by omega⟩
      have hfirst : buffer k ≠ 0 := hchars 0 (by omega)
      have hrest := ih (k + 1)
        (fun i hi => by
          have hi' := hchars (i + 1) (by omega)
          rwa [show k + (i + 1) = k + 1 + i by omega] at hi')
        (by rwa [show k + 1 + m = k + (m + 1) by omega]) (show m < s by omega)
      unfold cString
      rw [if_neg hfirst, hrest, ok_bind, List.range_succ_eq_map, List.map_cons, List.map_map]
      have hshift (i : Nat) : k + 1 + i = k + (i + 1) := by omega
      simp only [Function.comp_def, hshift]
      rfl

/-- The state after some calls that painted from the render buffer. -/
def sent (t : Terminal) (buffer : Nat → Nat) (calls : List ConsoleCall) : Terminal :=
  { t with renderBuffer := buffer, conOut := t.conOut ++ calls }

/-- Calls sent one after the other. -/
theorem sent_sent (t : Terminal) (first second : Nat → Nat) (calls rest : List ConsoleCall) :
    (t.sent first calls).sent second rest = t.sent second (calls ++ rest) := by
  simp only [sent, List.append_assoc]

namespace WellFormed

variable {t : Terminal}

/-- Calls on the console keep the bounds. -/
theorem sent (h : t.WellFormed) (buffer : Nat → Nat) (calls : List ConsoleCall) :
    (t.sent buffer calls).WellFormed := { h with }

/-- The loop that copies a run into the render buffer. -/
theorem render_eq {row position count : Nat} (hrow : row < t.rows)
    (hcount : position + count ≤ t.columns) :
    upFrom (fun index (t : Terminal) => do
        let cell ← t.readCell row index
        t.writeRender (← usub index position) cell.character) count position t =
      .ok { t with renderBuffer := fun i =>
        if i < count then (t.active row (position + i)).character else t.renderBuffer i } := by
  have hloop := upFrom_eq (fun index (t : Terminal) => do
      let cell ← t.readCell row index
      t.writeRender (← usub index position) cell.character)
    (fun n => { t with renderBuffer := fun i =>
      if i < n then (t.active row (position + i)).character else t.renderBuffer i })
    count position (fun n hn => by
      have hread : readCell { t with renderBuffer := fun i =>
            if i < n then (t.active row (position + i)).character else t.renderBuffer i }
          row (position + n) = .ok (t.active row (position + n)) :=
        if_pos ⟨hrow, show position + n < t.columns by omega⟩
      have hindex : position + n - position = n := by omega
      have hroom : n < t.columns + 1 := by omega
      rw [hread, ok_bind, usub_eq (by omega), ok_bind, hindex, writeRender, if_pos hroom]
      simp only [Except.ok.injEq, Terminal.mk.injEq, true_and, and_true]
      funext i
      simp only [Function.update_apply]
      grind)
  simp only [Nat.not_lt_zero, if_false] at hloop
  exact hloop

/-- One run is painted with its own colours at its own place. -/
theorem paintRun_eq (h : t.WellFormed) {row position last : Nat} (hrow : row < t.rows)
    (hposition : position ≤ last) (hlast : last < t.columns) :
    ∃ k buffer, position + k ≤ last ∧
      t.paintRun row position last =
        .ok (t.sent buffer (runCalls (t.active row) row position (k + 1)), position + k) ∧
      ∀ i, i < k + 1 →
        (t.active row (position + i)).attr = (t.active row position).attr := by
  have hread : t.readCell row position = .ok (t.active row position) :=
    if_pos ⟨hrow, by omega⟩
  obtain ⟨k, hk, hrun, hsame⟩ := t.runEnd_eq hrow (t.active row position).attr
    (show position + (last - position) < t.columns by omega)
  have hcells : t.active.All t.rows t.columns Cell.Valid := by
    unfold Terminal.active
    split
    · exact h.primary_cells
    · exact h.alternate_cells
  have hcount : position + k + 1 - position = k + 1 := by omega
  have hend : position + k - position + 1 = k + 1 := by omega
  have hroom : k + 1 < t.columns + 1 := by omega
  let buffer : Nat → Nat := Function.update (fun i =>
    if i < k + 1 then (t.active row (position + i)).character else t.renderBuffer i) (k + 1) 0
  have hbuffer {i : Nat} (hi : i < k + 1) :
      buffer i = (t.active row (position + i)).character := by
    simp only [buffer, Function.update_of_ne (Nat.ne_of_lt hi), if_pos hi]
  have hchar {i : Nat} (hi : i < k + 1) : buffer (0 + i) ≠ 0 := by
    rw [Nat.zero_add, hbuffer hi]
    exact (hcells row hrow (position + i) (by omega)).2.1
  have hstop : buffer (0 + (k + 1)) = 0 := by
    rw [Nat.zero_add]
    exact Function.update_self (k + 1) 0 _
  have htext : cString buffer (t.columns + 1) 0 =
      .ok (textAt (t.active row) position (k + 1)) := by
    rw [cString_eq 0 (fun i hi => hchar hi) hstop hroom, textAt]
    congr 1
    apply List.map_congr_left
    intro i hi
    rw [Nat.zero_add, hbuffer (List.mem_range.mp hi)]
  refine ⟨k, buffer, by omega, ?_, ?_⟩
  · simp only [paintRun, hread, ok_bind, hrun, hcount]
    rw [render_eq hrow (by omega), ok_bind, usub_eq (by omega), ok_bind, hend, writeRender,
      if_pos hroom, ok_bind]
    show (cString buffer (t.columns + 1) 0 >>= _) = _
    rw [htext, ok_bind]
    simp only [call, Terminal.sent, runCalls, List.append_assoc, List.cons_append, List.nil_append]
    rfl
  · intro i hi
    cases i with
    | zero => rfl
    | succ j =>
        have hj := hsame j (by omega)
        rwa [show position + 1 + j = position + (j + 1) by omega] at hj

/-- The dirty interval of a row is painted run by run. -/
theorem paintRuns_eq (rounds : Nat) {t : Terminal} (h : t.WellFormed) {row position last : Nat}
    (hrow : row < t.rows) (hposition : position ≤ last + 1) (hlast : last < t.columns)
    (hrounds : last + 1 ≤ position + rounds) :
    ∃ buffer calls, paintRuns row last rounds position t = .ok (t.sent buffer calls) ∧
      Runs (t.active row) row last position calls := by
  have hnone : t = t.sent t.renderBuffer [] := by
    simp only [Terminal.sent, List.append_nil]
  induction rounds generalizing t position with
  | zero => exact ⟨_, _, congrArg Except.ok hnone, .done (by omega)⟩
  | succ n ih =>
      unfold paintRuns
      by_cases hmore : position ≤ last
      · obtain ⟨k, buffer, hk, hrun, hattr⟩ := h.paintRun_eq hrow hmore hlast
        obtain ⟨buffer', calls, hrest, hruns⟩ :=
          ih (h.sent buffer (runCalls (t.active row) row position (k + 1)))
            hrow (show position + k + 1 ≤ last + 1 by omega) hlast (by omega)
            (by simp only [Terminal.sent, List.append_nil])
        refine ⟨buffer', runCalls (t.active row) row position (k + 1) ++ calls, ?_, ?_⟩
        · rw [if_pos hmore, hrun, ok_bind]
          rw [sent_sent] at hrest
          exact hrest
        · exact .run (Nat.succ_pos k) (by omega) hattr hruns
      · rw [if_neg hmore]
        exact ⟨_, _, congrArg Except.ok hnone, .done (by omega)⟩

/-- Rows that are not painted yet keep the start of their interval. -/
theorem painted_start (t : Terminal) (n : Nat) (buffer : Nat → Nat) (calls : List ConsoleCall)
    {row : Nat} (hrow : n ≤ row) : (t.painted n buffer calls).dirtyStart row = t.dirtyStart row :=
  if_neg fun hlt => Nat.not_lt_of_le hrow hlt.1

theorem painted_end (t : Terminal) (n : Nat) (buffer : Nat → Nat) (calls : List ConsoleCall)
    {row : Nat} (hrow : n ≤ row) : (t.painted n buffer calls).dirtyEnd row = t.dirtyEnd row :=
  if_neg fun hlt => Nat.not_lt_of_le hrow hlt.1

/-- Painting keeps the bounds. -/
theorem painted (h : t.WellFormed) (n : Nat) (buffer : Nat → Nat) (calls : List ConsoleCall) :
    (t.painted n buffer calls).WellFormed := by
  refine { h with dirty_start := ?_, dirty_end := ?_ }
  · intro r hr
    have hr' := h.dirty_start r hr
    simp only [Terminal.painted]
    split <;> omega
  · intro r hr
    have hr' := h.dirty_end r hr
    have hpos := h.columns_pos
    simp only [Terminal.painted]
    split <;> omega

/-- The first rows are done; the next one is painted if it has dirty cells. -/
theorem flushRow_eq (h : t.WellFormed) {row : Nat} (hrow : row < t.rows) (buffer : Nat → Nat)
    (calls : List ConsoleCall) :
    ∃ buffer' rowCalls, (t.painted row buffer calls).flushRow row =
      .ok (t.painted (row + 1) buffer' (calls ++ rowCalls)) ∧ t.RowPainted row rowCalls := by
  have hstart := painted_start t row buffer calls (Nat.le_refl row)
  have hlast := painted_end t row buffer calls (Nat.le_refl row)
  have hread : (t.painted row buffer calls).readDirty row =
      .ok (t.dirtyStart row, t.dirtyEnd row) := by
    rw [readDirty, hstart, hlast]
    exact if_pos hrow
  have hle := h.columns_le
  unfold maxUint16 at hle
  have hend := h.dirty_end row hrow
  unfold flushRow RowPainted
  rw [hread, ok_bind]
  by_cases hdirty : t.DirtyRow row
  · have hguard : ¬ (t.dirtyStart row ≥ t.columns ∨ t.dirtyEnd row < t.dirtyStart row) := by
      unfold DirtyRow at hdirty
      omega
    obtain ⟨buffer', rowCalls, hpaint, hruns⟩ := paintRuns_eq
      (t.dirtyEnd row + 1 - t.dirtyStart row) (h.painted row buffer calls) hrow
      (show t.dirtyStart row ≤ t.dirtyEnd row + 1 by unfold DirtyRow at hdirty; omega) hend
      (by omega)
    refine ⟨buffer', rowCalls, ?_, ?_⟩
    · show (if t.dirtyStart row ≥ t.columns ∨ t.dirtyEnd row < t.dirtyStart row then _ else _) = _
      rw [if_neg hguard, hpaint, ok_bind, writeDirty]
      refine (if_pos hrow).trans (congrArg Except.ok ?_)
      simp only [Terminal.sent, Terminal.painted, Terminal.mk.injEq, true_and, and_true,
        List.append_assoc, Nat.mod_eq_of_lt (show t.columns < 65536 by omega), Nat.zero_mod]
      constructor <;> (funext i; simp only [Function.update_apply]; grind)
    · rw [if_pos hdirty]
      exact hruns
  · have hguard : t.dirtyStart row ≥ t.columns ∨ t.dirtyEnd row < t.dirtyStart row := by
      unfold DirtyRow at hdirty
      omega
    refine ⟨buffer, [], ?_, if_neg hdirty ▸ rfl⟩
    show (if t.dirtyStart row ≥ t.columns ∨ t.dirtyEnd row < t.dirtyStart row then _ else _) = _
    rw [if_pos hguard]
    refine congrArg Except.ok ?_
    simp only [Terminal.painted, Terminal.mk.injEq, true_and, and_true, List.append_nil]
    constructor <;> (funext i; grind)

/-- **`WolfSshTerminalFlush` paints the dirty rows and marks them clean.** -/
theorem flush_eq (h : t.WellFormed) :
    ∃ buffer painting, t.flush = .ok (t.painted t.rows buffer (flushCalls t painting)) ∧
      t.Painted t.rows painting := by
  let inv (n : Nat) (s : Terminal) : Prop := ∃ buffer painting,
    s = t.painted n buffer (.enableCursor false :: painting) ∧ t.Painted n painting
  have hstart : inv 0 (t.call (.enableCursor false)) := by
    refine ⟨t.renderBuffer, [], ?_, .zero⟩
    simp only [Terminal.painted, call, Nat.not_lt_zero, false_and, if_false]
  have hround : ∀ row s, 0 ≤ row → row < 0 + t.rows → inv row s →
      ∃ s', s.flushRow row = .ok s' ∧ inv (row + 1) s' := by
    intro row s _ hrow hall
    obtain ⟨buffer, painting, rfl, hpainted⟩ := hall
    obtain ⟨buffer', rowCalls, hflush, hrowPainted⟩ :=
      h.flushRow_eq (show row < t.rows by omega) buffer (.enableCursor false :: painting)
    exact ⟨_, hflush, buffer', painting ++ rowCalls, rfl, .row hpainted hrowPainted⟩
  obtain ⟨s, hloop, buffer, painting, rfl, hpainted⟩ :=
    upFrom_invariant t.rows 0 hround hstart
  rw [Nat.zero_add] at hloop hpainted
  refine ⟨buffer, painting, ?_, hpainted⟩
  have hrows : (t.call (.enableCursor false)).rows = t.rows := rfl
  simp only [flush, hrows, hloop, ok_bind]
  simp only [Terminal.painted, call, flushCalls, List.append_assoc, List.cons_append,
    List.nil_append]
  rfl

end WellFormed

end Terminal

end WolfSshUefi
