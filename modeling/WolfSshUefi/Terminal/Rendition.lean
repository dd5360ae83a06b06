import WolfSshUefi.Terminal.Console
import WolfSshUefi.Terminal.Layout

/-!
# Changing colours

A `CSI … m` sequence cancels a deferred wrap before it changes the colours.
So it moves the text that follows: with a wrap pending, the next character
goes to the last column instead of the next line.  It is neutral exactly when
no wrap is pending, apart from a screen of one blank line, where the wrap
leads back to the same line.
-/

namespace WolfSshUefi

/-- One layout, as far as it can be seen. -/
structure SameLayout (t u : Terminal) : Prop where
  geometry : t.rows = u.rows ∧ t.columns = u.columns
  characters : ∀ i j, i < t.rows → j < t.columns →
    (t.primary i j).character = (u.primary i j).character ∧
      (t.alternate i j).character = (u.alternate i j).character
  cursor : t.row = u.row ∧ t.column = u.column
  margins : t.scrollTop = u.scrollTop ∧ t.scrollBottom = u.scrollBottom
  modes : t.applicationCursor = u.applicationCursor ∧ t.cursorVisible = u.cursorVisible ∧
    t.insertMode = u.insertMode ∧ t.alternateActive = u.alternateActive
  replies : t.queued = u.queued

namespace SameLayout

variable {t u v : Terminal}

/-- Having one layout is mutual. -/
theorem symm (h : SameLayout t u) : SameLayout u t where
  geometry := ⟨h.geometry.1.symm, h.geometry.2.symm⟩
  characters := fun i j hi hj => by
    obtain ⟨hprimary, halternate⟩ :=
      h.characters i j (h.geometry.1 ▸ hi) (h.geometry.2 ▸ hj)
    exact ⟨hprimary.symm, halternate.symm⟩
  cursor := ⟨h.cursor.1.symm, h.cursor.2.symm⟩
  margins := ⟨h.margins.1.symm, h.margins.2.symm⟩
  modes := ⟨h.modes.1.symm, h.modes.2.1.symm, h.modes.2.2.1.symm, h.modes.2.2.2.symm⟩
  replies := h.replies.symm

theorem trans (h : SameLayout t u) (h' : SameLayout u v) : SameLayout t v where
  geometry := ⟨h.geometry.1.trans h'.geometry.1, h.geometry.2.trans h'.geometry.2⟩
  characters := fun i j hi hj => by
    obtain ⟨hprimary, halternate⟩ := h.characters i j hi hj
    obtain ⟨hprimary', halternate'⟩ :=
      h'.characters i j (h.geometry.1 ▸ hi) (h.geometry.2 ▸ hj)
    exact ⟨hprimary.trans hprimary', halternate.trans halternate'⟩
  cursor := ⟨h.cursor.1.trans h'.cursor.1, h.cursor.2.trans h'.cursor.2⟩
  margins := ⟨h.margins.1.trans h'.margins.1, h.margins.2.trans h'.margins.2⟩
  modes := ⟨h.modes.1.trans h'.modes.1, h.modes.2.1.trans h'.modes.2.1,
    h.modes.2.2.1.trans h'.modes.2.2.1, h.modes.2.2.2.trans h'.modes.2.2.2⟩
  replies := h.replies.trans h'.replies

/-- Equal in black and white. -/
theorem of_plain (h : t.plain = u.plain) : SameLayout t u := by
  have hrefl : SameLayout t.plain t.plain :=
    ⟨⟨rfl, rfl⟩, fun _ _ _ _ => ⟨rfl, rfl⟩, ⟨rfl, rfl⟩, ⟨rfl, rfl⟩, ⟨rfl, rfl, rfl, rfl⟩, rfl⟩
  have hplain : SameLayout t.plain u.plain := h ▸ hrefl
  exact ⟨hplain.geometry, hplain.characters, hplain.cursor, hplain.margins, hplain.modes,
    hplain.replies⟩

/-- A pending wrap is not part of the layout. -/
theorem cancelWrap (t : Terminal) : SameLayout (Screen.cancelWrap t) t :=
  ⟨⟨rfl, rfl⟩, fun _ _ _ _ => ⟨rfl, rfl⟩, ⟨rfl, rfl⟩, ⟨rfl, rfl⟩, ⟨rfl, rfl, rfl, rfl⟩, rfl⟩

/-- The active buffers agree as well. -/
theorem active (h : SameLayout t u) (ht : t.WellFormed) (hu : u.WellFormed) {i j : Nat}
    (hi : i < t.rows) (hj : j < t.columns) :
    (t.active i j).character = (u.active i j).character := by
  obtain ⟨hprimary, halternate⟩ := h.characters i j hi hj
  have hactive := h.modes.2.2.2
  unfold Terminal.active
  rw [ht.cells_eq, hu.cells_eq, ← hactive]
  cases t.alternateActive with
  | true => exact halternate
  | false => exact hprimary

end SameLayout

/-- A screen of one line on which a wrap changes nothing: the next character
goes to the first column either way, and the rest of the line is blank. -/
structure Terminal.Narrow (t : Terminal) : Prop where
  rows : t.rows = 1
  column : t.column = 0
  savedColumn : min t.savedColumn (t.columns - 1) = 0
  blank : ∀ j, (if t.insertMode then j + 1 < t.columns else 1 ≤ j ∧ j < t.columns) →
    (t.active 0 j).character = 0x20

namespace Screen

open Terminal

/-- No wrap is pending, none is given up. -/
theorem cancelWrap_of_not_pending {t : Terminal} (h : t.wrapPending = false) : cancelWrap t = t := by
  unfold cancelWrap
  rw [← h]

/-- A sequence that changes colours cancels the wrap, and does nothing else to
the layout. -/
theorem plain_feed_rendition {t : Terminal} (hground : t.parser.state = .ground)
    {body : List UInt8} (hbody : ∀ b ∈ body, BodyByte b) :
    (feed t (controlSequence body 0x6d)).plain = (cancelWrap t).plain := by
  rw [feed_controlSequence (.of_ground hground) hbody (by decide), plain_withParser]
  have hrenditions (changes : List Rendition) (u : Terminal) :
      (execAll u (changes.map .rendition)).plain = u.plain := by
    induction changes generalizing u with
    | nil => rfl
    | cons change rest ih =>
        rw [List.map_cons, execAll_cons, ih]
        cases change <;> rfl
  exact hrenditions _ _

/-- A rendition sequence leaves the parser as it was, but for what the next sequence drops. -/
theorem alike_rendition {t : Terminal} (ht : t.WellFormed) (hground : t.parser.state = .ground)
    (hutf8 : t.parser.utf8Remaining = 0) {body : List UInt8} (hbody : ∀ b ∈ body, BodyByte b) :
    (feed t (controlSequence body 0x6d)).parser.Alike t.parser := by
  have hcsi := t.parser.collected_state hbody
  have hcollected : (t.parser.collected body).utf8Remaining = 0 :=
    (ht.parser.collected body).utf8_zero (by simp [hcsi])
  rw [parser_feed, Parser.after_controlSequence (.of_ground hground) hbody (by decide)]
  exact .of_ground rfl hground hcollected hutf8

/-! ### A line that wraps onto itself -/

/-- Without a pending wrap there is none. -/
theorem wrap_of_not_pending {t : Terminal} (h : t.wrapPending = false) : wrap t = t := by
  unfold wrap
  rw [h]
  rfl

/-- On a screen of one row a wrap scrolls. -/
theorem wrap_of_one_row {t : Terminal} (ht : t.WellFormed) (hrows : t.rows = 1)
    (hpending : t.wrapPending = true) :
    wrap t = moveUp (cancelWrap { t with column := 0 }) 0 1 := by
  have hrow := ht.row_lt
  have hmargins := ht.margins
  have hbottom := ht.bottom_lt
  have hedge : t.row = t.scrollBottom := by omega
  have htop : t.scrollTop = 0 := by omega
  unfold wrap index
  rw [if_pos hpending, if_pos hedge, ← htop]

/-- The line after a character is written to it. -/
theorem active_write (t : Terminal) (character : Nat) :
    (write t character).active =
      if t.insertMode then
        t.active.shiftRight t.row t.column 1 t.columns ⟨character, t.terminalAttribute⟩
      else t.active.fill t.row 1 t.column (t.column + 1) ⟨character, t.terminalAttribute⟩ := by
  unfold write
  split
  · exact t.active_edit fun cells =>
      cells.shiftRight t.row t.column 1 t.columns ⟨character, t.terminalAttribute⟩
  · exact t.active_edit fun cells =>
      cells.fill t.row 1 t.column (t.column + 1) ⟨character, t.terminalAttribute⟩

/-- The buffer that is shown, after rows have moved up. -/
theorem active_moveUp (t : Terminal) (top count : Nat) :
    (moveUp t top count).active = t.active.shiftUp top t.scrollBottom
      (min count (t.scrollBottom - top + 1)) t.columns t.blank :=
  t.active_edit fun cells => cells.shiftUp top t.scrollBottom
    (min count (t.scrollBottom - top + 1)) t.columns t.blank

/-- A wrap onto the same line blanks it, and nothing else. -/
theorem active_wrap_of_one_row {t : Terminal} (ht : t.WellFormed) (hrows : t.rows = 1)
    (hpending : t.wrapPending = true) (i j : Nat) :
    (wrap t).active i j = if i = 0 ∧ j < t.columns then t.blank else t.active i j := by
  have hmargins := ht.margins
  have hbottom := ht.bottom_lt
  have hzero : t.scrollBottom = 0 := by omega
  rw [wrap_of_one_row ht hrows hpending, active_moveUp]
  have hcells : (cancelWrap { t with column := 0 }).active = t.active := rfl
  have hblank : (cancelWrap { t with column := 0 }).blank = t.blank := rfl
  rw [hcells, hblank]
  simp only [Grid.shiftUp, cancelWrap, hzero]
  grind

/-- Writing a character, in black and white. -/
theorem plain_write_eq (t : Terminal) (character : Nat) :
    (write t character).plain =
      t.plain.edit fun _ => (write t character).active.map Cell.plain := by
  rw [active_write]
  unfold write
  simp only [plain_ite, plain_mark, Screen.erase]
  split
  · exact t.plain_edit _
  · exact t.plain_edit _

/-- A line that is as good as blank takes a character like a blank one. -/
theorem plain_write_narrow {t : Terminal} (hnarrow : t.Narrow) (hrow : t.row = 0)
    {line : Grid Cell}
    (hline : ∀ i j, line i j = if i = 0 ∧ j < t.columns then t.blank else t.active i j)
    (cell : Cell) :
    (if t.insertMode then t.active.shiftRight t.row t.column 1 t.columns cell
      else t.active.fill t.row 1 t.column (t.column + 1) cell).map Cell.plain =
    (if t.insertMode then line.shiftRight t.row t.column 1 t.columns cell
      else line.fill t.row 1 t.column (t.column + 1) cell).map Cell.plain := by
  have hblank (j : Nat) (hj : if t.insertMode then j + 1 < t.columns else 1 ≤ j ∧ j < t.columns) :
      (t.active 0 j).plain = t.blank.plain :=
    congrArg (fun character => (⟨character, 0⟩ : Cell)) (hnarrow.blank j hj)
  rw [hrow, hnarrow.column]
  funext i j
  cases hinsert : t.insertMode with
  | true =>
      simp only [hinsert, if_true] at hblank
      simp only [if_true, Grid.map, Grid.shiftRight, hline]
      by_cases hin : i = 0 ∧ 1 ≤ j ∧ j < t.columns
      · obtain ⟨rfl, hlow, hhigh⟩ := hin
        rw [if_pos (by omega), if_pos (by omega), if_pos (by omega), if_pos (by omega)]
        rw [if_pos (by omega)]
        exact hblank (j - 1) (by omega)
      · grind
  | false =>
      simp only [hinsert, Bool.false_eq_true, if_false] at hblank
      simp only [Bool.false_eq_true, if_false, Grid.map, Grid.fill, hline]
      by_cases hin : i = 0 ∧ 1 ≤ j ∧ j < t.columns
      · obtain ⟨rfl, hlow, hhigh⟩ := hin
        rw [if_neg (by omega), if_neg (by omega), if_pos (by omega)]
        exact hblank j ⟨hlow, hhigh⟩
      · grind

/-- Printing on a narrow screen, with a wrap pending and without. -/
theorem plain_print_narrow {t : Terminal} (ht : t.WellFormed) (hnarrow : t.Narrow)
    (character : Nat) :
    (print (cancelWrap t) character).plain = (print t character).plain := by
  cases hpending : t.wrapPending with
  | false => rw [cancelWrap_of_not_pending hpending]
  | true =>
      have hcolumn := hnarrow.column
      have hrow : t.row = 0 := by
        have hlt := ht.row_lt
        have hrows := hnarrow.rows
        omega
      have hwrap : wrap t = moveUp (cancelWrap t) 0 1 := by
        have hhome : { t with column := 0 } = t := by rw [← hcolumn]
        rw [wrap_of_one_row ht hnarrow.rows hpending, hhome]
      have hactive := active_wrap_of_one_row ht hnarrow.rows hpending
      have hline : (write (cancelWrap t) character).active.map Cell.plain =
          (write (wrap t) character).active.map Cell.plain := by
        rw [active_write, active_write, hwrap]
        exact plain_write_narrow hnarrow hrow (hwrap ▸ hactive) ⟨character, t.terminalAttribute⟩
      have hwritten : (write (cancelWrap t) character).plain = (write (wrap t) character).plain := by
        rw [plain_write_eq, plain_write_eq, hline, hwrap, moveUp, plain_mark, plain_edit, edit_edit]
      unfold print
      rw [wrap_of_not_pending rfl, plain_advance, hwritten, ← plain_advance]

/-- **A simple instruction on a narrow screen**: either the pending wrap is
used up without effect, or it stays pending on a narrow screen. -/
theorem exec_narrow {t : Terminal} (ht : t.WellFormed) (hnarrow : t.Narrow) {c : Command}
    (hc : c.Simple) :
    (exec (cancelWrap t) c).plain = (exec t c).plain ∨
      exec (cancelWrap t) c = cancelWrap (exec t c) ∧ (exec t c).Narrow := by
  have hrows := hnarrow.rows
  have hrow := ht.row_lt
  cases c with
  | print character => exact .inl (plain_print_narrow ht hnarrow character)
  | carriageReturn | backspace | tab | index | reverseIndex => exact .inl rfl
  | saveCursor =>
      refine .inr ⟨rfl, { hnarrow with savedColumn := ?_ }⟩
      have hcolumn := hnarrow.column
      change min t.column (t.columns - 1) = 0
      omega
  | restoreCursor => exact .inr ⟨rfl, { hnarrow with column := hnarrow.savedColumn }⟩
  | reset =>
      refine .inr ⟨rfl, { hnarrow with column := rfl, blank := ?_ }⟩
      intro j hj
      have hin : j < t.columns := by
        change (if t.insertMode then j + 1 < t.columns else 1 ≤ j ∧ j < t.columns) at hj
        split at hj <;> omega
      have hactive : (reset t).active = t.active.fill 0 t.rows 0 t.columns t.defaultBlank :=
        t.active_edit fun cells => cells.fill 0 t.rows 0 t.columns t.defaultBlank
      change ((reset t).active 0 j).character = 0x20
      rw [hactive]
      unfold Grid.fill
      rw [if_pos (by omega)]
      rfl
  | _ => exact absurd hc id

/-- Simple instructions one after the other: the pending wrap is used up without effect at one
of them, or it stays pending on a narrow screen. -/
theorem execAll_narrow {t : Terminal} (ht : t.WellFormed) (hnarrow : t.Narrow)
    {commands : List Command} (hsimple : ∀ c ∈ commands, c.Simple)
    (hvalid : ∀ c ∈ commands, c.Valid) :
    (execAll (cancelWrap t) commands).plain = (execAll t commands).plain ∨
      execAll (cancelWrap t) commands = cancelWrap (execAll t commands) ∧
        (execAll t commands).Narrow := by
  induction commands generalizing t with
  | nil => exact .inr ⟨rfl, hnarrow⟩
  | cons c rest ih =>
      rw [execAll_cons, execAll_cons]
      rcases exec_narrow ht hnarrow (hsimple c List.mem_cons_self) with hplain | ⟨hcancel, hnarrow'⟩
      · exact .inl (plain_execAll hplain rest)
      · rw [hcancel]
        exact ih (ht.exec (hvalid c List.mem_cons_self)) hnarrow'
          (fun c' hc' => hsimple c' (List.mem_cons_of_mem c hc'))
          (fun c' hc' => hvalid c' (List.mem_cons_of_mem c hc'))

/-- **Any bytes on a narrow screen**: a pending wrap never changes the layout. -/
theorem feed_narrow {t : Terminal} (ht : t.WellFormed) (hnarrow : t.Narrow) (data : List UInt8) :
    (feed (cancelWrap t) data).plain = (feed t data).plain ∨
      feed (cancelWrap t) data = cancelWrap (feed t data) := by
  induction data generalizing t with
  | nil => exact .inr rfl
  | cons byte rest ih =>
      have hnow : (feedByte (cancelWrap t) byte).plain = (feedByte t byte).plain ∨
          feedByte (cancelWrap t) byte = cancelWrap (feedByte t byte) ∧ (feedByte t byte).Narrow := by
        have hparser : (cancelWrap t).parser = t.parser := rfl
        rw [feedByte_eq_execAll, feedByte_eq_execAll, hparser, plain_withParser, plain_withParser]
        rcases t.parser.next_simple_or_final byte with hsimple | ⟨hcsi, hfinal⟩
        · rcases execAll_narrow ht hnarrow hsimple (t.parser.next_valid byte) with
            hplain | ⟨hcancel, hnarrow'⟩
          · exact .inl hplain
          · rw [hcancel]
            exact .inr ⟨rfl, { hnarrow' with }⟩
        · rw [Parser.next_final hcsi hfinal]
          exact .inl rfl
      rw [feed_cons, feed_cons]
      rcases hnow with hplain | ⟨hcancel, hnarrow'⟩
      · have hparser : (feedByte (cancelWrap t) byte).parser.Alike (feedByte t byte).parser := by
          rw [feedByte_eq_execAll, feedByte_eq_execAll]
          exact .refl _
        exact .inl (plain_feed hplain hparser rest)
      · rw [hcancel]
        exact ih (ht.feedByte byte) hnarrow'

end Screen

/-! ### Exactly when a change of colours is neutral -/

/-- Changing colours, in whatever way, before any bytes leaves the layout that
the bytes alone give. -/
def Terminal.ColoursNeutral (t : Terminal) : Prop :=
  ∀ body, (∀ b ∈ body, BodyByte b) → ∀ w, ∃ u v,
    t.feed (controlSequence body 0x6d ++ w) = .ok u ∧ t.feed w = .ok v ∧ SameLayout u v

namespace Screen

open Terminal

variable {t : Terminal}

/-- After a change of colours bytes have the effect they have without a wrap pending. -/
theorem plain_feed_after_rendition (ht : t.WellFormed) (hground : t.parser.state = .ground)
    (hutf8 : t.parser.utf8Remaining = 0) {body : List UInt8} (hbody : ∀ b ∈ body, BodyByte b)
    (w : List UInt8) :
    (feed t (controlSequence body 0x6d ++ w)).plain = (feed (cancelWrap t) w).plain := by
  rw [feed_append]
  exact plain_feed (plain_feed_rendition hground hbody) (alike_rendition ht hground hutf8 hbody) w

/-- Where no wrap is pending, or the screen is narrow, renditions change nothing else. -/
theorem coloursNeutral_of_narrow (ht : t.WellFormed) (hground : t.parser.state = .ground)
    (hutf8 : t.parser.utf8Remaining = 0) (hcase : t.wrapPending = false ∨ t.Narrow) :
    t.ColoursNeutral := by
  intro body hbody w
  refine ⟨_, _, ht.feed_eq _, ht.feed_eq _, ?_⟩
  apply (SameLayout.of_plain (plain_feed_after_rendition ht hground hutf8 hbody w)).trans
  rcases hcase with hclear | hnarrow
  · rw [cancelWrap_of_not_pending hclear]
    exact .of_plain rfl
  · rcases feed_narrow ht hnarrow w with hplain | hcancel
    · exact .of_plain hplain
    · rw [hcancel]
      exact .cancelWrap _

/-- What a neutral change says about the instructions of the bytes that follow. -/
theorem same_of_neutral (h : t.ColoursNeutral) (ht : t.WellFormed)
    (hground : t.parser.state = .ground) (hutf8 : t.parser.utf8Remaining = 0) (w : List UInt8) :
    SameLayout (execAll (cancelWrap t) (t.parser.commands w)) (execAll t (t.parser.commands w)) := by
  have hbody : ∀ b ∈ ([] : List UInt8), BodyByte b := fun b hb => by cases hb
  obtain ⟨u, v, hu, hv, hsame⟩ := h [] hbody w
  rw [ht.feed_eq, Except.ok.injEq] at hu hv
  have hu' : u.plain = (execAll (cancelWrap t) (t.parser.commands w)).plain := by
    rw [← hu, plain_feed_after_rendition ht hground hutf8 hbody, feed_eq_execAll, plain_withParser]
    rfl
  have hv' : v.plain = (execAll t (t.parser.commands w)).plain := by
    rw [← hv, feed_eq_execAll, plain_withParser]
  exact ((SameLayout.of_plain hu'.symm).trans hsame).trans (.of_plain hv')

/-- The line after a character, where no wrap is pending. -/
theorem character_print {j : Nat} (hrow : t.row = 0) (hj : j < t.columns) (character : Nat) :
    ((print (cancelWrap t) character).active 0 j).character =
      if j = t.column then character
      else if t.insertMode ∧ t.column < j then (t.active 0 (j - 1)).character
      else (t.active 0 j).character := by
  have hactive : (print (cancelWrap t) character).active =
      (write (cancelWrap t) character).active := rfl
  have hcells : (cancelWrap t).active = t.active := rfl
  rw [hactive, active_write, hcells]
  simp only [cancelWrap, hrow]
  cases t.insertMode with
  | true =>
      simp only [if_true, Grid.shiftRight]
      grind
  | false =>
      simp only [Bool.false_eq_true, if_false, Grid.fill]
      grind

/-- The one line of the screen after a character, where a wrap is pending. -/
theorem character_print_pending (ht : t.WellFormed) (hrows : t.rows = 1)
    (hpending : t.wrapPending = true) {j : Nat} (hj : j < t.columns) (character : Nat) :
    ((print t character).active 0 j).character = if j = 0 then character else 0x20 := by
  have hrow : t.row = 0 := by
    have hlt := ht.row_lt
    omega
  let wrapped := moveUp (cancelWrap { t with column := 0 }) 0 1
  have hwrap : wrap t = wrapped := wrap_of_one_row ht hrows hpending
  have hblank := active_wrap_of_one_row ht hrows hpending
  rw [hwrap] at hblank
  have hprint : print t character = print (cancelWrap wrapped) character := by
    unfold print
    rw [hwrap, wrap_of_not_pending rfl]
    rfl
  have hrow' : wrapped.row = 0 := hrow
  have hcolumn : wrapped.column = 0 := rfl
  have hj' : j < wrapped.columns := hj
  rw [hprint, character_print hrow' hj', hblank, hblank, hcolumn]
  split
  · rfl
  · have hleft : 0 = 0 ∧ j - 1 < t.columns := ⟨rfl, by omega⟩
    have hhere : 0 = 0 ∧ j < t.columns := ⟨rfl, hj⟩
    rw [if_pos hleft, if_pos hhere, ite_self]
    rfl

/-- The same line with and without the wrap: it is narrow. -/
theorem narrow_line_of_same (ht : t.WellFormed) (hrows : t.rows = 1)
    (hpending : t.wrapPending = true)
    (h : SameLayout (print (cancelWrap t) 0x78) (print t 0x78)) :
    t.column = 0 ∧ ∀ j, (if t.insertMode then j + 1 < t.columns else 1 ≤ j ∧ j < t.columns) →
      (t.active 0 j).character = 0x20 := by
  have hrow : t.row = 0 := by
    have hlt := ht.row_lt
    omega
  have hvalid : (Command.print 0x78).Valid := ⟨by decide, by decide⟩
  have hgeometry := Marked.print ht.cancelWrap 0x78
  have hline {j : Nat} (hj : j < t.columns) :
      (if j = t.column then 0x78
        else if t.insertMode ∧ t.column < j then (t.active 0 (j - 1)).character
        else (t.active 0 j).character) = if j = 0 then 0x78 else 0x20 := by
    rw [← character_print hrow hj, ← character_print_pending ht hrows hpending hj]
    have hin : 0 < (print (cancelWrap t) 0x78).rows ∧ j < (print (cancelWrap t) 0x78).columns :=
      ⟨hgeometry.rows ▸ ht.rows_pos, hgeometry.columns ▸ hj⟩
    exact h.active (ht.cancelWrap.exec hvalid) (ht.exec hvalid) hin.1 hin.2
  have hcolumn : t.column = 0 := by
    by_contra hne
    have hcell := hline ht.column_lt
    rw [if_pos rfl, if_neg hne] at hcell
    omega
  refine ⟨hcolumn, fun j hj => ?_⟩
  rw [hcolumn] at hline
  cases hinsert : t.insertMode with
  | true =>
      rw [hinsert, if_pos rfl] at hj
      have hcell := hline hj
      rw [if_neg (by omega), if_pos ⟨hinsert, by omega⟩, if_neg (by omega)] at hcell
      exact hcell
  | false =>
      rw [hinsert] at hj
      obtain ⟨hlow, hhigh⟩ : 1 ≤ j ∧ j < t.columns := hj
      have hcell := hline hhigh
      rw [if_neg (by omega), if_neg (by simp [hinsert]), if_neg (by omega)] at hcell
      exact hcell

/-- The cursor row after a character, with a wrap pending on the first row. -/
theorem row_print_pending (ht : t.WellFormed) (hpending : t.wrapPending = true) (hrow : t.row = 0)
    (hrows : t.rows ≠ 1) (hbottom : t.scrollBottom = t.rows - 1) (character : Nat) :
    (print (cancelWrap t) character).row = 0 ∧ (print t character).row = 1 := by
  have hpos := ht.rows_pos
  have hwrite (u : Terminal) : (advance (write u character)).row = u.row := by
    unfold write
    split <;> rfl
  unfold print
  rw [hwrite, hwrite, wrap_of_not_pending rfl]
  refine ⟨hrow, ?_⟩
  unfold wrap index
  rw [if_pos hpending, if_neg (show ¬ t.row = t.scrollBottom by omega)]
  change (if t.row + 1 < t.rows then t.row + 1 else t.row) = 1
  rw [if_pos (by omega), hrow]

/-- Where a pending wrap makes no difference the screen is narrow. -/
theorem narrow_of_neutral (h : t.ColoursNeutral) (ht : t.WellFormed)
    (hground : t.parser.state = .ground) (hutf8 : t.parser.utf8Remaining = 0)
    (hpending : t.wrapPending = true) : t.Narrow := by
  have hprint : t.parser.commands [0x78] = [.print 0x78] := by
    simp [Parser.next, Parser.text, Parser.ground, hground, hutf8]
  have hrestore : t.parser.commands [0x1b, 0x38, 0x78] = [.restoreCursor, .print 0x78] := by
    simp [Parser.next, Parser.text, Parser.ground, Parser.escape, hground]
  have hreset : t.parser.commands [0x1b, 0x63, 0x78] = [.reset, .print 0x78] := by
    simp [Parser.next, Parser.text, Parser.ground, Parser.escape, hground]
  -- a reset homes the cursor and leaves the wrap pending
  have hrows : t.rows = 1 := by
    by_contra hne
    have hsame := same_of_neutral h ht hground hutf8 [0x1b, 0x63, 0x78]
    rw [hreset] at hsame
    obtain ⟨hclear, hwrapped⟩ := row_print_pending ht.reset hpending rfl hne rfl 0x78
    have hcursor : (print (cancelWrap (reset t)) 0x78).row = (print (reset t) 0x78).row :=
      hsame.cursor.1
    omega
  have hhere := same_of_neutral h ht hground hutf8 [0x78]
  rw [hprint] at hhere
  obtain ⟨hcolumn, hblank⟩ := narrow_line_of_same ht hrows hpending hhere
  have hthere := same_of_neutral h ht hground hutf8 [0x1b, 0x38, 0x78]
  rw [hrestore] at hthere
  have hrestored : (exec t .restoreCursor).WellFormed := ht.exec trivial
  obtain ⟨hsaved, -⟩ := narrow_line_of_same hrestored hrows hpending hthere
  exact ⟨hrows, hcolumn, hsaved, hblank⟩

end Screen

namespace Terminal

/-- **Changing colours is neutral exactly when** no wrap is pending, or the
screen is so narrow that the wrap changes nothing. -/
theorem colours_neutral_iff {t : Terminal} (h : Reachable t) (hground : t.parser.state = .ground)
    (hutf8 : t.parser.utf8Remaining = 0) :
    t.ColoursNeutral ↔ t.wrapPending = false ∨ t.Narrow := by
  constructor
  · intro hneutral
    cases hpending : t.wrapPending with
    | false => exact .inl rfl
    | true => exact .inr (Screen.narrow_of_neutral hneutral h.wellFormed hground hutf8 hpending)
  · exact Screen.coloursNeutral_of_narrow h.wellFormed hground hutf8

/-- A screen of two columns and two rows, with its first line full. -/
def fullLine : Terminal := Screen.feed (Firmware.ample 2 2 7).fresh [0x61, 0x62]

/-- A full line is reached by filling it. -/
theorem fullLine_reachable : Reachable fullLine :=
  (created_ample 2 2 7).reachable.feed _

/-- The full line is not narrow, and its wrap is pending. -/
theorem colours_neutral_full_line :
    fullLine.ColoursNeutral ↔ fullLine.wrapPending = false ∨ fullLine.Narrow :=
  colours_neutral_iff fullLine_reachable (by decide) (by decide)

/-- `CSI m` after a full line moves the next character. -/
theorem colours_move_text : Reachable fullLine ∧ fullLine.parser.state = .ground ∧
    fullLine.parser.utf8Remaining = 0 ∧
    ∃ u v, fullLine.feed (controlSequence [] 0x6d ++ [0x63]) = .ok u ∧
      fullLine.feed [0x63] = .ok v ∧ ¬ SameLayout u v := by
  have hfull := fullLine_reachable.wellFormed
  refine ⟨fullLine_reachable, by decide, by decide, _, _, hfull.feed_eq _, hfull.feed_eq _, ?_⟩
  intro hsame
  exact absurd hsame.cursor.1 (by decide)

end Terminal

end WolfSshUefi
