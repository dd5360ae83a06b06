import WolfSshUefi.Library.Mirror
import WolfSshUefi.Terminal.Streams

/-!
# Marks and clears

Between two flushes the console stands still but for `ClearScreen`.  An
instruction either marks every cell of the active buffer that it changes
(`Marked`), or it clears the console and blanks the active buffer (`Blanked`).
Over a stream of instructions this makes two cases: without a clear all that
changed is marked, and after a clear every clean cell is a blank in the default
colours (`execAll_picture`).
-/

namespace WolfSshUefi

namespace Terminal

/-- A place on the screen. -/
def Place (t : Terminal) (place : Nat × Nat) : Prop :=
  place.1 < t.rows ∧ place.2 < t.columns

/-- The dirty places. -/
def DirtyPlace (t : Terminal) (place : Nat × Nat) : Prop := t.Dirty place.1 place.2

instance (t : Terminal) (place : Nat × Nat) : Decidable (t.DirtyPlace place) := by
  unfold DirtyPlace; infer_instance

/-- The cells of the active buffer, by place. -/
def cellAt (t : Terminal) (place : Nat × Nat) : Cell := t.active place.1 place.2

end Terminal

namespace Screen

open Mirror

/-- A change that calls nothing and marks every cell it changes. -/
structure Marked (t u : Terminal) : Prop where
  rows : u.rows = t.rows
  columns : u.columns = t.columns
  defaultBlank : u.defaultBlank = t.defaultBlank
  conOut : u.conOut = t.conOut
  cells : Mirror.Covered t.Place t.DirtyPlace u.DirtyPlace t.cellAt u.cellAt

/-- A change that clears the console and blanks the active buffer. -/
structure Blanked (t u : Terminal) : Prop where
  rows : u.rows = t.rows
  columns : u.columns = t.columns
  defaultBlank : u.defaultBlank = t.defaultBlank
  conOut : u.conOut = t.conOut ++ [.clearScreen]
  cells : ∀ i, t.Place i → u.cellAt i = t.defaultBlank

/-- Changes that clear the console, after which every clean cell is blank. -/
structure Wiped (t u : Terminal) : Prop where
  rows : u.rows = t.rows
  columns : u.columns = t.columns
  defaultBlank : u.defaultBlank = t.defaultBlank
  conOut : ∃ n, u.conOut = t.conOut ++ List.replicate (n + 1) .clearScreen
  cells : ∀ i, t.Place i → ¬ u.DirtyPlace i → u.cellAt i = t.defaultBlank

/-- A change of other fields only. -/
theorem Marked.of_eq {t u : Terminal} (hrows : u.rows = t.rows) (hcolumns : u.columns = t.columns)
    (hblank : u.defaultBlank = t.defaultBlank) (hconOut : u.conOut = t.conOut)
    (hstart : u.dirtyStart = t.dirtyStart) (hend : u.dirtyEnd = t.dirtyEnd)
    (hactive : u.active = t.active) : Marked t u := by
  have hdirty : u.DirtyPlace = t.DirtyPlace := by
    funext i
    simp only [Terminal.DirtyPlace, Terminal.Dirty, hstart, hend]
  have hcells : u.cellAt = t.cellAt := by
    funext i
    simp only [Terminal.cellAt, hactive]
  refine ⟨hrows, hcolumns, hblank, hconOut, ?_⟩
  rw [hdirty, hcells]
  exact .refl _ _ _

/-- Nothing changed, nothing to mark. -/
theorem Marked.refl (t : Terminal) : Marked t t :=
  .of_eq rfl rfl rfl rfl rfl rfl rfl

/-- The places of the screen are the same after a change of neither size. -/
theorem place_eq {t u : Terminal} (hrows : u.rows = t.rows) (hcolumns : u.columns = t.columns) :
    u.Place = t.Place := by
  funext i
  simp only [Terminal.Place, hrows, hcolumns]

/-- Two changes that are marked. -/
theorem Marked.trans {t u v : Terminal} (first : Marked t u) (second : Marked u v) :
    Marked t v := by
  have hcells := second.cells
  rw [place_eq first.rows first.columns] at hcells
  exact ⟨second.rows.trans first.rows, second.columns.trans first.columns,
    second.defaultBlank.trans first.defaultBlank, second.conOut.trans first.conOut,
    first.cells.trans hcells⟩

/-- An edit that changes cells only inside a rectangle, which is marked. -/
theorem Marked.edit_mark (t : Terminal) {f : Grid Cell → Grid Cell}
    {first count left right : Nat}
    (hf : ∀ i j, i < t.rows → j < t.columns →
      ¬ (first ≤ i ∧ i < first + count ∧ left ≤ j ∧ j ≤ right) →
      f t.active i j = t.active i j) :
    Marked t (mark (t.edit f) first count left right) := by
  refine ⟨rfl, rfl, rfl, rfl, ?_, ?_⟩
  · intro place _ hdirty
    obtain ⟨i, j⟩ := place
    simp only [Terminal.DirtyPlace, Terminal.Dirty] at hdirty
    simp only [Terminal.DirtyPlace, Terminal.Dirty, mark, Terminal.edit, Terminal.editBuffer]
    constructor <;> (split <;> omega)
  · intro place hboth hclean
    obtain ⟨i, j⟩ := place
    obtain ⟨hi, hj⟩ := hboth
    have hout : ¬ (first ≤ i ∧ i < first + count ∧ left ≤ j ∧ j ≤ right) := by
      intro hall
      obtain ⟨hfirst, hcount, hleft, hright⟩ := hall
      apply hclean
      simp only [Terminal.DirtyPlace, Terminal.Dirty, mark, Terminal.edit, Terminal.editBuffer]
      rw [if_pos ⟨hfirst, hcount⟩, if_pos ⟨hfirst, hcount⟩]
      exact ⟨Nat.le_trans (Nat.min_le_right _ _) hleft,
        Nat.le_trans hright (Nat.le_max_right _ _)⟩
    have hactive : (mark (t.edit f) first count left right).active = f t.active :=
      t.active_edit f
    simp only [Terminal.cellAt, hactive, hf i j hi hj hout]

/-- Erasing marks what it blanks. -/
theorem Marked.erase (t : Terminal) (first count left right : Nat) (cell : Cell) :
    Marked t (erase t first count left right cell) :=
  .edit_mark t fun i j _ _ hout => if_neg (by omega)

/-- Moving rows up marks all rows that move. -/
theorem Marked.moveUp (t : Terminal) {top : Nat} (htop : top ≤ t.scrollBottom) (count : Nat) :
    Marked t (moveUp t top count) :=
  .edit_mark t fun i j _ _ hout => if_neg (by omega)

theorem Marked.moveDown (t : Terminal) {top : Nat} (htop : top ≤ t.scrollBottom) (count : Nat) :
    Marked t (moveDown t top count) :=
  .edit_mark t fun i j _ _ hout => if_neg (by omega)

/-- A change of fields that neither the cells nor the marks depend on. -/
theorem Marked.cancelWrap (t : Terminal) : Marked t (cancelWrap t) :=
  .of_eq rfl rfl rfl rfl rfl rfl rfl

theorem Marked.index {t : Terminal} (h : t.WellFormed) : Marked t (index t) := by
  unfold Screen.index
  split
  · exact (Marked.cancelWrap t).trans (.moveUp (Screen.cancelWrap t) h.margins 1)
  · exact .of_eq rfl rfl rfl rfl rfl rfl rfl

theorem Marked.reverseIndex {t : Terminal} (h : t.WellFormed) : Marked t (reverseIndex t) := by
  unfold Screen.reverseIndex
  split
  · exact (Marked.cancelWrap t).trans (.moveDown (Screen.cancelWrap t) h.margins 1)
  · exact .of_eq rfl rfl rfl rfl rfl rfl rfl

/-- Printing marks the cell, or in insert mode the rest of the line. -/
theorem Marked.print {t : Terminal} (h : t.WellFormed) (character : Nat) :
    Marked t (print t character) := by
  have hwrap : Marked t (wrap t) := by
    unfold Screen.wrap
    split
    · have hhome : { t with column := 0 }.WellFormed := { h with column_lt := h.columns_pos }
      have hstart : Marked t { t with column := 0 } := .of_eq rfl rfl rfl rfl rfl rfl rfl
      exact hstart.trans (.index hhome)
    · exact .of_eq rfl rfl rfl rfl rfl rfl rfl
  have hwrite (u : Terminal) : Marked u (write u character) := by
    unfold Screen.write
    split
    · exact .edit_mark u fun i j _ _ hout => if_neg (by omega)
    · exact .erase u _ _ _ _ _
  have hadvance (u : Terminal) : Marked u (advance u) := .of_eq rfl rfl rfl rfl rfl rfl rfl
  exact (hwrap.trans (hwrite _)).trans (hadvance _)

/-- All of the active buffer blank. -/
theorem cellAt_clear (t : Terminal) {i : Nat × Nat} (hi : t.Place i) :
    (clear t).cellAt i = t.defaultBlank := by
  have hactive : (clear t).active = t.active.fill 0 t.rows 0 t.columns t.defaultBlank :=
    t.active_edit _
  have hin : 0 ≤ i.1 ∧ i.1 < 0 + t.rows ∧ 0 ≤ i.2 ∧ i.2 < t.columns := by
    have hrow := hi.1
    have hcolumn := hi.2
    omega
  simp only [Terminal.cellAt, hactive, Grid.fill, hin, and_self, if_true]

/-- Entering the alternate screen clears it. -/
theorem Blanked.enterAlternate (t : Terminal) : Blanked t (enterAlternate t) :=
  ⟨rfl, rfl, rfl, rfl, fun _ hi => cellAt_clear { t with
    primaryRow := t.row, primaryColumn := t.column
    cells := .alternate, alternateActive := true
    row := 0, column := 0
    scrollTop := 0, scrollBottom := t.rows - 1 } hi⟩

/-- A reset clears the screen. -/
theorem Blanked.reset (t : Terminal) : Blanked t (reset t) :=
  ⟨rfl, rfl, rfl, rfl, fun _ hi => cellAt_clear { t with
    foreground := t.defaultForeground, background := t.defaultBackground
    bold := false, reverse := false
    row := 0, column := 0
    scrollTop := 0, scrollBottom := t.rows - 1 } hi⟩

/-- Everything marked dirty. -/
theorem Marked.all {t u : Terminal} (hrows : u.rows = t.rows) (hcolumns : u.columns = t.columns)
    (hblank : u.defaultBlank = t.defaultBlank) (hconOut : u.conOut = t.conOut)
    (hdirty : ∀ i, t.Place i → u.DirtyPlace i) : Marked t u :=
  ⟨hrows, hcolumns, hblank, hconOut, fun i hi _ => hdirty i hi, fun i hi hclean =>
    absurd (hdirty i hi) hclean⟩

/-- Leaving it marks all rows. -/
theorem Marked.leaveAlternate (t : Terminal) : Marked t (leaveAlternate t) := by
  refine .all rfl rfl rfl rfl ?_
  intro place hboth
  obtain ⟨i, j⟩ := place
  obtain ⟨hi, hj⟩ := hboth
  have hi' : i < t.rows := hi
  have hj' : j < t.columns := hj
  have hin : 0 ≤ i ∧ i < 0 + t.rows := by omega
  simp only [Terminal.DirtyPlace, Terminal.Dirty, Screen.leaveAlternate, mark, hin, and_self,
    if_true]
  omega

/-- The instruction clears the console. -/
def Clears (t : Terminal) : Command → Prop
  | .reset => True
  | .eraseDisplay mode => mode = 2 ∨ mode = 3
  | .alternateScreen on => on = true ∧ t.alternateActive = false
  | _ => False

instance (t : Terminal) (c : Command) : Decidable (Clears t c) := by
  cases c <;> (unfold Clears; infer_instance)

/-- One of the instructions clears the console. -/
def ClearsAll (t : Terminal) : List Command → Prop
  | [] => False
  | c :: rest => Clears t c ∨ ClearsAll (exec t c) rest

/-- **Every instruction marks what it changes, or clears the console as well.** -/
theorem exec_picture {t : Terminal} (h : t.WellFormed) (c : Command) :
    (¬ Clears t c ∧ Marked t (exec t c)) ∨ (Clears t c ∧ Blanked t (exec t c)) := by
  have hno (hmarked : ¬ Clears t c ∧ Marked t (exec t c)) :
      (¬ Clears t c ∧ Marked t (exec t c)) ∨ (Clears t c ∧ Blanked t (exec t c)) := .inl hmarked
  cases c with
  | print character => exact hno ⟨id, .print h character⟩
  | index => exact hno ⟨id, .index h⟩
  | reverseIndex => exact hno ⟨id, .reverseIndex h⟩
  | reset => exact .inr ⟨trivial, .reset t⟩
  | eraseDisplay mode =>
      change (¬ (mode = 2 ∨ mode = 3) ∧ Marked t (eraseDisplay t mode)) ∨
        ((mode = 2 ∨ mode = 3) ∧ Blanked t (eraseDisplay t mode))
      unfold Screen.eraseDisplay
      split
      · next hall => exact .inr ⟨hall, rfl, rfl, rfl, rfl, fun _ hi => cellAt_clear t hi⟩
      · next hpart =>
          left
          refine ⟨hpart, ?_⟩
          split
          · exact (Marked.erase t _ _ _ _ _).trans (.erase _ _ _ _ _ _)
          · exact (Marked.erase t _ _ _ _ _).trans (.erase _ _ _ _ _ _)
  | eraseLine mode =>
      refine hno ⟨id, ?_⟩
      change Marked t (eraseLine t mode)
      unfold Screen.eraseLine
      split
      · exact .erase t _ _ _ _ _
      · split
        · exact .erase t _ _ _ _ _
        · exact .erase t _ _ _ _ _
  | rendition change =>
      refine hno ⟨id, ?_⟩
      cases change <;> exact .of_eq rfl rfl rfl rfl rfl rfl rfl
  | margins top bottom =>
      refine hno ⟨id, ?_⟩
      change Marked t (setMargins t top bottom)
      unfold Screen.setMargins
      split <;> exact .of_eq rfl rfl rfl rfl rfl rfl rfl
  | insertLines count =>
      refine hno ⟨id, ?_⟩
      change Marked t (if InMargins t then moveDown t t.row count else t)
      split
      · next hin => exact .moveDown t hin.2 count
      · exact .refl t
  | deleteLines count =>
      refine hno ⟨id, ?_⟩
      change Marked t (if InMargins t then moveUp t t.row count else t)
      split
      · next hin => exact .moveUp t hin.2 count
      · exact .refl t
  | insertCharacters count => exact hno ⟨id, .edit_mark t fun i j _ _ hout => if_neg (by omega)⟩
  | deleteCharacters count => exact hno ⟨id, .edit_mark t fun i j _ _ hout => if_neg (by omega)⟩
  | eraseCharacters count => exact hno ⟨id, .erase t _ _ _ _ _⟩
  | scrollUp count => exact hno ⟨id, .moveUp t h.margins count⟩
  | scrollDown count => exact hno ⟨id, .moveDown t h.margins count⟩
  | alternateScreen on =>
      change (¬ (on = true ∧ t.alternateActive = false) ∧ Marked t (alternateScreen t on)) ∨
        ((on = true ∧ t.alternateActive = false) ∧ Blanked t (alternateScreen t on))
      unfold Screen.alternateScreen
      split
      · next hsame =>
          left
          refine ⟨?_, .cancelWrap t⟩
          intro hboth
          obtain ⟨hon, hoff⟩ := hboth
          rw [hon, hoff] at hsame
          cases hsame
      · next hother =>
          split
          · next hon =>
              right
              have henter := Blanked.enterAlternate (Screen.cancelWrap t)
              refine ⟨⟨hon, ?_⟩, henter.rows, henter.columns, henter.defaultBlank,
                henter.conOut, henter.cells⟩
              rw [hon] at hother
              exact Bool.eq_false_iff.mpr fun hactive => hother hactive.symm
          · next hoff =>
              left
              exact ⟨fun hon => hoff hon.1, (Marked.cancelWrap t).trans (.leaveAlternate _)⟩
  | _ => exact hno ⟨id, .of_eq rfl rfl rfl rfl rfl rfl rfl⟩

/-! ### Streams of instructions -/

/-- A screen that has just been cleared. -/
theorem Wiped.of_blanked {t u : Terminal} (h : Blanked t u) : Wiped t u :=
  ⟨h.rows, h.columns, h.defaultBlank, ⟨0, h.conOut⟩, fun i hi _ => h.cells i hi⟩

/-- What is changed after a clear is marked. -/
theorem Wiped.marked {t u v : Terminal} (first : Wiped t u) (second : Marked u v) :
    Wiped t v := by
  obtain ⟨n, hconOut⟩ := first.conOut
  refine ⟨second.rows.trans first.rows, second.columns.trans first.columns,
    second.defaultBlank.trans first.defaultBlank, ⟨n, second.conOut.trans hconOut⟩, ?_⟩
  intro i hi hclean
  have hi' : u.Place i := place_eq first.rows first.columns ▸ hi
  rw [second.cells.marks i hi' hclean]
  exact first.cells i hi fun hdirty => hclean (second.cells.keeps i hi' hdirty)

/-- Only the last clear counts. -/
theorem Marked.wiped {t u v : Terminal} (first : Marked t u) (second : Wiped u v) :
    Wiped t v := by
  obtain ⟨n, hconOut⟩ := second.conOut
  refine ⟨second.rows.trans first.rows, second.columns.trans first.columns,
    second.defaultBlank.trans first.defaultBlank, ⟨n, hconOut.trans (by rw [first.conOut])⟩, ?_⟩
  intro i hi hclean
  rw [second.cells i (place_eq first.rows first.columns ▸ hi) hclean, first.defaultBlank]

/-- A screen that is cleared twice. -/
theorem Wiped.trans {t u v : Terminal} (first : Wiped t u) (second : Wiped u v) : Wiped t v := by
  obtain ⟨m, hfirst⟩ := first.conOut
  obtain ⟨n, hsecond⟩ := second.conOut
  refine ⟨second.rows.trans first.rows, second.columns.trans first.columns,
    second.defaultBlank.trans first.defaultBlank, ⟨m + n + 1, ?_⟩, ?_⟩
  · rw [hsecond, hfirst, List.append_assoc, List.replicate_append_replicate]
    congr 2
    omega
  · intro i hi hclean
    rw [second.cells i (place_eq first.rows first.columns ▸ hi) hclean, first.defaultBlank]

/-- **A stream of instructions marks all it changes, or it clears the console
and every clean cell is blank.** -/
theorem execAll_picture {t : Terminal} (h : t.WellFormed) {commands : List Command}
    (hc : ∀ c ∈ commands, c.Valid) :
    (¬ ClearsAll t commands ∧ Marked t (execAll t commands)) ∨
      (ClearsAll t commands ∧ Wiped t (execAll t commands)) := by
  induction commands generalizing t with
  | nil => exact .inl ⟨id, .refl t⟩
  | cons c rest ih =>
      have hnext := h.exec (hc c List.mem_cons_self)
      have hrest := ih hnext fun c' hc' => hc c' (List.mem_cons_of_mem c hc')
      rcases exec_picture h c with ⟨hnone, hfirst⟩ | ⟨hclears, hfirst⟩
      · rcases hrest with ⟨hnone', hsecond⟩ | ⟨hclears', hsecond⟩
        · exact .inl ⟨fun hor => hor.elim hnone hnone', hfirst.trans hsecond⟩
        · exact .inr ⟨.inr hclears', hfirst.wiped hsecond⟩
      · right
        refine ⟨.inl hclears, ?_⟩
        rcases hrest with ⟨-, hsecond⟩ | ⟨-, hsecond⟩
        · exact (Wiped.of_blanked hfirst).marked hsecond
        · exact (Wiped.of_blanked hfirst).trans hsecond

/-- Feeding a stream clears the console. -/
def FeedClears (t : Terminal) (data : List UInt8) : Prop :=
  ClearsAll t (t.parser.commands data)

/-- **What a feed does to the picture**: it marks all it changes, or clears the console. -/
theorem feed_picture {t : Terminal} (h : t.WellFormed) (data : List UInt8) :
    (¬ FeedClears t data ∧ Marked t (feed t data)) ∨
      (FeedClears t data ∧ Wiped t (feed t data)) := by
  have hparser (u : Terminal) (p : Parser) : Marked u (u.withParser p) :=
    .of_eq rfl rfl rfl rfl rfl rfl rfl
  rw [feed_eq_execAll]
  rcases execAll_picture h (t.parser.commands_valid data) with ⟨hnone, hall⟩ | ⟨hclears, hall⟩
  · exact .inl ⟨hnone, hall.trans (hparser _ _)⟩
  · exact .inr ⟨hclears, hall.marked (hparser _ _)⟩

end Screen

/-! ### Calls -/

namespace Terminal

/-- A new terminal is blank. -/
theorem cellAt_fresh {fw : Firmware} {i : Nat × Nat} (hi : fw.fresh.Place i) :
    fw.fresh.cellAt i = fw.fresh.defaultBlank :=
  Screen.cellAt_clear (fw.initial fw.geometry.1 fw.geometry.2 (fw.geometry.2 - 1)) hi

/-- Bytes are fed in pieces, and then the screen is flushed. -/
def roundCalls (chunks : List (List UInt8)) : List Call := chunks.map .feed ++ [.flush]

/-- Feeding in pieces is feeding at once. -/
theorem WellFormed.run_feeds {t : Terminal} (h : t.WellFormed) (chunks : List (List UInt8)) :
    t.run (chunks.map .feed) = .ok (Screen.feed t chunks.flatten) := by
  induction chunks generalizing t with
  | nil => rfl
  | cons data rest ih =>
      have hrest := ih (h.feed data)
      unfold run at hrest ⊢
      rw [List.map_cons, List.foldlM_cons, perform, h.feed_eq data, Loops.ok_bind, hrest,
        List.flatten_cons, Screen.feed_append]

/-- A round ends with the flush of the state that the bytes lead to. -/
theorem WellFormed.run_round {t : Terminal} (h : t.WellFormed) (chunks : List (List UInt8)) :
    ∃ buffer painting, (Screen.feed t chunks.flatten).Painted (Screen.feed t chunks.flatten).rows
        painting ∧
      t.run (roundCalls chunks) =
        .ok ((Screen.feed t chunks.flatten).painted (Screen.feed t chunks.flatten).rows buffer
          ((Screen.feed t chunks.flatten).flushCalls painting)) := by
  obtain ⟨buffer, painting, hflush, hpainting⟩ := (h.feed chunks.flatten).flush_eq
  refine ⟨buffer, painting, hpainting, ?_⟩
  have hfeeds := h.run_feeds chunks
  unfold run at hfeeds
  unfold run roundCalls
  rw [List.foldlM_append, hfeeds, Loops.ok_bind, List.foldlM_cons, perform, hflush]
  rfl

/-- Calls on the console are only added. -/
theorem WellFormed.run_conOut {t : Terminal} (h : t.WellFormed) (calls : List Call) :
    ∃ t' sent, t.run calls = .ok t' ∧ t'.conOut = t.conOut ++ sent := by
  have hstep {u u' : Terminal} {c : Call} (hu : u.WellFormed)
      (hsent : ∃ sent, u.conOut = t.conOut ++ sent) (hstep : u.Step c u') :
      ∃ sent, u'.conOut = t.conOut ++ sent := by
    obtain ⟨sent, hsent⟩ := hsent
    cases hstep with
    | feed data =>
        rcases Screen.feed_picture hu data with ⟨-, hmarked⟩ | ⟨-, hwiped⟩
        · exact ⟨sent, hmarked.conOut.trans hsent⟩
        · obtain ⟨n, hconOut⟩ := hwiped.conOut
          exact ⟨sent ++ List.replicate (n + 1) .clearScreen, by rw [hconOut, hsent, List.append_assoc]⟩
    | @flush buffer painting hpainting =>
        refine ⟨sent ++ u.flushCalls painting, ?_⟩
        change u.conOut ++ u.flushCalls painting = _
        rw [hsent, List.append_assoc]
    | takeResponse capacity hreplies => exact ⟨sent, hsent⟩
  obtain ⟨t', hrun, -, sent, hsent⟩ :=
    h.run_invariant hstep ⟨[], (List.append_nil t.conOut).symm⟩ calls
  exact ⟨t', sent, hrun, hsent⟩

end Terminal

end WolfSshUefi
