import Mathlib.Data.List.Nodup
import WolfSshUefi.Terminal.Covering

/-!
# A flush paints what is dirty, once

The places that a flush paints are the dirty ones, row by row and from left to right.  So it
paints no place twice and nothing that is clean, and a second flush paints nothing
(`flush_paints_once`).
-/

namespace WolfSshUefi.Terminal

/-- The places that the calls paint, in order, on a console with its cursor at `place`: its row
and its column. -/
def paintedPlaces : Nat × Nat → List ConsoleCall → List (Nat × Nat)
  | _, [] => []
  | _, .setCursorPosition column row :: rest => paintedPlaces (row, column) rest
  | place, .outputString text :: rest =>
      (List.range text.length).map (fun i => (place.1, place.2 + i)) ++
        paintedPlaces (place.1, place.2 + text.length) rest
  | place, .clearScreen :: rest => paintedPlaces place rest
  | place, .setAttribute _ :: rest => paintedPlaces place rest
  | place, .enableCursor _ :: rest => paintedPlaces place rest

/-- The dirty places of a row, from left to right. -/
def dirtyInRow (t : Terminal) (row : Nat) : List (Nat × Nat) :=
  if t.DirtyRow row then
    (List.range (t.dirtyEnd row + 1 - t.dirtyStart row)).map fun i => (row, t.dirtyStart row + i)
  else []

/-- The dirty places of the first `n` rows. -/
def dirtyPlaces (t : Terminal) (n : Nat) : List (Nat × Nat) := (List.range n).flatMap t.dirtyInRow

/-- The places of one row more. -/
theorem dirtyPlaces_succ (t : Terminal) (n : Nat) :
    t.dirtyPlaces (n + 1) = t.dirtyPlaces n ++ t.dirtyInRow n := by
  simp only [dirtyPlaces, List.range_succ, List.flatMap_append, List.flatMap_cons, List.flatMap_nil,
    List.append_nil]

section Places

variable {t : Terminal}

/-- The dirty places of a row. -/
theorem mem_dirtyInRow {row : Nat} {place : Nat × Nat} :
    place ∈ t.dirtyInRow row ↔ t.DirtyRow row ∧ place.1 = row ∧ t.Dirty place.1 place.2 := by
  unfold dirtyInRow
  split
  · next hdirty =>
      rw [List.mem_map]
      constructor
      · rintro ⟨i, hi, rfl⟩
        have hlt := List.mem_range.mp hi
        refine ⟨hdirty, rfl, Nat.le_add_right _ _, ?_⟩
        show t.dirtyStart row + i ≤ t.dirtyEnd row
        omega
      · rintro ⟨-, rfl, hstart, hend⟩
        refine ⟨place.2 - t.dirtyStart place.1, List.mem_range.mpr (by omega), ?_⟩
        exact Prod.ext rfl (Nat.add_sub_cancel' hstart)
  · next hclean => exact iff_of_false List.not_mem_nil fun h => hclean h.1

/-- On the screen, the dirty places are those listed. -/
theorem mem_dirtyPlaces (ht : t.WellFormed) {place : Nat × Nat} :
    place ∈ t.dirtyPlaces t.rows ↔ t.Place place ∧ t.DirtyPlace place := by
  unfold dirtyPlaces
  rw [List.mem_flatMap]
  constructor
  · rintro ⟨row, hrow, hmem⟩
    obtain ⟨-, rfl, hdirty⟩ := mem_dirtyInRow.mp hmem
    have hlt := List.mem_range.mp hrow
    have hend := ht.dirty_end place.1 hlt
    exact ⟨⟨hlt, Nat.lt_of_le_of_lt hdirty.2 hend⟩, hdirty⟩
  · rintro ⟨⟨hrow, hcolumn⟩, hdirty⟩
    refine ⟨place.1, List.mem_range.mpr hrow, mem_dirtyInRow.mpr ⟨?_, rfl, hdirty⟩⟩
    exact ⟨Nat.lt_of_le_of_lt hdirty.1 hcolumn, Nat.le_trans hdirty.1 hdirty.2⟩

theorem nodup_dirtyPlaces (t : Terminal) (n : Nat) : (t.dirtyPlaces n).Nodup := by
  unfold dirtyPlaces
  rw [List.nodup_flatMap]
  refine ⟨fun row _ => ?_, ?_⟩
  · unfold dirtyInRow
    split
    · refine List.Nodup.map ?_ List.nodup_range
      intro i j hij
      exact Nat.add_left_cancel (Prod.mk.inj hij).2
    · exact List.nodup_nil
  · refine List.nodup_range.imp ?_
    intro row row' hne place hmem hmem'
    obtain ⟨-, hrow, -⟩ := mem_dirtyInRow.mp hmem
    obtain ⟨-, hrow', -⟩ := mem_dirtyInRow.mp hmem'
    exact hne (hrow.symm.trans hrow')

/-- There are no more than the screen has. -/
theorem length_dirtyPlaces (ht : t.WellFormed) {n : Nat} (hn : n ≤ t.rows) :
    (t.dirtyPlaces n).length ≤ n * t.columns := by
  induction n with
  | zero => exact Nat.zero_le _
  | succ n ih =>
      have hrow : (t.dirtyInRow n).length ≤ t.columns := by
        have hend := ht.dirty_end n hn
        unfold dirtyInRow
        split
        · rw [List.length_map, List.length_range]
          omega
        · exact Nat.zero_le _
      have hfirst := ih (Nat.le_of_succ_le hn)
      rw [dirtyPlaces_succ, List.length_append, Nat.succ_mul]
      omega

/-- What a flush leaves is clean. -/
theorem dirtyPlaces_painted (t : Terminal) (buffer : Nat → Nat) (calls : List ConsoleCall) :
    (t.painted t.rows buffer calls).dirtyPlaces t.rows = [] := by
  unfold dirtyPlaces
  rw [List.flatMap_eq_nil_iff]
  intro row hrow
  refine if_neg fun hdirty => ?_
  have hlt := List.mem_range.mp hrow
  obtain ⟨hstart, hend⟩ := hdirty
  by_cases hrow : t.DirtyRow row
  · have hpainted : (t.painted t.rows buffer calls).dirtyStart row = t.columns :=
      if_pos ⟨hlt, hrow⟩
    rw [hpainted] at hstart
    exact Nat.lt_irrefl _ hstart
  · have hkept : (t.painted t.rows buffer calls).dirtyStart row = t.dirtyStart row :=
      if_neg fun h => hrow h.2
    have hkept' : (t.painted t.rows buffer calls).dirtyEnd row = t.dirtyEnd row :=
      if_neg fun h => hrow h.2
    rw [hkept] at hstart hend
    rw [hkept'] at hend
    exact hrow ⟨hstart, hend⟩

end Places

/-! ### What the calls paint -/

/-- Calls in two pieces; the second begins where the first has left the cursor. -/
theorem paintedPlaces_append (place : Nat × Nat) (calls rest : List ConsoleCall) :
    ∃ place', paintedPlaces place (calls ++ rest) =
      paintedPlaces place calls ++ paintedPlaces place' rest := by
  induction calls generalizing place with
  | nil => exact ⟨place, rfl⟩
  | cons call calls ih =>
      cases call with
      | outputString text =>
          obtain ⟨place', hrest⟩ := ih (place.1, place.2 + text.length)
          refine ⟨place', ?_⟩
          simp only [List.cons_append, paintedPlaces, hrest, List.append_assoc]
      | setCursorPosition column row => exact ih (row, column)
      | clearScreen => exact ih place
      | setAttribute attr => exact ih place
      | enableCursor visible => exact ih place

/-- A row is painted from left to right, run by run. -/
theorem painted_runs {line : Nat → Cell} {row last position : Nat} {calls : List ConsoleCall}
    (h : Runs line row last position calls) (place : Nat × Nat) :
    paintedPlaces place calls =
      (List.range (last + 1 - position)).map fun i => (row, position + i) := by
  induction h generalizing place with
  | done hend =>
      rw [hend, Nat.sub_self]
      rfl
  | @run position count calls hpos hfits hattr hrest ih =>
      have hlength : (textAt line position count).length = count := by simp [textAt]
      have hrun : paintedPlaces place (runCalls line row position count ++ calls) =
          (List.range count).map (fun i => (row, position + i)) ++
            paintedPlaces (row, position + count) calls := by
        have hunfold : paintedPlaces place (runCalls line row position count ++ calls) =
            (List.range (textAt line position count).length).map (fun i => (row, position + i)) ++
              paintedPlaces (row, position + (textAt line position count).length) calls := rfl
        rw [hunfold, hlength]
      have hsplit : last + 1 - position = count + (last + 1 - (position + count)) := by omega
      rw [hrun, ih, hsplit, List.range_add, List.map_append, List.map_map]
      simp only [Function.comp_def, Nat.add_assoc]

/-- **A painting covers the dirty places** of its rows. -/
theorem painted_places {t : Terminal} {n : Nat} {calls : List ConsoleCall} (h : t.Painted n calls)
    (place : Nat × Nat) : paintedPlaces place calls = t.dirtyPlaces n := by
  induction h with
  | zero => rfl
  | @row n calls rowCalls hcalls hrow ih =>
      obtain ⟨place', hsplit⟩ := paintedPlaces_append place calls rowCalls
      have hlast : paintedPlaces place' rowCalls = t.dirtyInRow n := by
        unfold RowPainted at hrow
        unfold dirtyInRow
        split at hrow
        · next hdirty => rw [if_pos hdirty, painted_runs hrow]
        · next hclean =>
            rw [if_neg hclean, hrow]
            rfl
      rw [hsplit, ih, hlast, dirtyPlaces_succ]

theorem painted_flushCalls {t : Terminal} {painting : List ConsoleCall}
    (h : t.Painted t.rows painting) (place : Nat × Nat) :
    paintedPlaces place (t.flushCalls painting) = t.dirtyPlaces t.rows := by
  obtain ⟨place', hsplit⟩ := paintedPlaces_append place painting
    [.setAttribute t.terminalAttribute, .setCursorPosition t.column t.row,
      .enableCursor t.cursorVisible]
  have hunfold : paintedPlaces place (t.flushCalls painting) =
      paintedPlaces place (painting ++ [.setAttribute t.terminalAttribute,
        .setCursorPosition t.column t.row, .enableCursor t.cursorVisible]) := rfl
  rw [hunfold, hsplit, painted_places h]
  exact List.append_nil _

/-- **A flush paints what is dirty, once.**  From every reachable state, and wherever the
console has its cursor, a flush paints each dirty place of the screen once and no other, so
at most the whole screen; and a flush right after it paints nothing. -/
theorem flush_paints_once {t : Terminal} (h : Reachable t) (place : Nat × Nat) :
    ∃ t' t'' sent sent', t.flush = .ok t' ∧ t'.conOut = t.conOut ++ sent ∧
      (paintedPlaces place sent).Nodup ∧
      (∀ p, p ∈ paintedPlaces place sent ↔ t.Place p ∧ t.DirtyPlace p) ∧
      (paintedPlaces place sent).length ≤ t.rows * t.columns ∧
      t'.flush = .ok t'' ∧ t''.conOut = t'.conOut ++ sent' ∧ paintedPlaces place sent' = [] := by
  have ht := h.wellFormed
  obtain ⟨buffer, painting, hflush, hpainting⟩ := ht.flush_eq
  have ht' := ht.painted t.rows buffer (t.flushCalls painting)
  obtain ⟨buffer', painting', hflush', hpainting'⟩ := ht'.flush_eq
  refine ⟨_, _, _, _, hflush, rfl, ?_, ?_, ?_, hflush', rfl, ?_⟩
  · rw [painted_flushCalls hpainting]
    exact nodup_dirtyPlaces t t.rows
  · intro p
    rw [painted_flushCalls hpainting]
    exact mem_dirtyPlaces ht
  · rw [painted_flushCalls hpainting]
    exact length_dirtyPlaces ht (Nat.le_refl _)
  · rw [painted_flushCalls hpainting']
    exact dirtyPlaces_painted t buffer _

/-- A letter on a screen of two cells. -/
theorem flush_paints_once_letter :
    let t := Screen.feed (Firmware.ample 2 1 7).fresh [0x41]
    ∃ t' t'' sent sent', t.flush = .ok t' ∧ t'.conOut = t.conOut ++ sent ∧
      (paintedPlaces (0, 0) sent).Nodup ∧
      (∀ p, p ∈ paintedPlaces (0, 0) sent ↔ t.Place p ∧ t.DirtyPlace p) ∧
      (paintedPlaces (0, 0) sent).length ≤ t.rows * t.columns ∧
      t'.flush = .ok t'' ∧ t''.conOut = t'.conOut ++ sent' ∧ paintedPlaces (0, 0) sent' = [] :=
  flush_paints_once ((created_ample 2 1 7).reachable.feed [0x41]) (0, 0)

end WolfSshUefi.Terminal
