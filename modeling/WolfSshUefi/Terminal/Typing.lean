import WolfSshUefi.Library.Tape
import WolfSshUefi.Terminal.Escapes
import WolfSshUefi.Terminal.Wrapping

/-!
# Plain text

The screen is the window on an unbounded page: its rows are the first of the
page, and all below them are blank.  A character is written where the page goes
on behind the last one, and when the page outgrows the screen the window moves
down by a row (`page_print`).  So text of any length is written to the page as
a whole, and the window moves down as far as the last character needs
(`plain_text_layout`).
-/

namespace WolfSshUefi

/-- The bytes of a text. -/
def encoded (text : List Char) : List UInt8 := text.flatMap String.utf8EncodeChar

/-- A character of the basic plane that is no control character of ASCII. -/
def Plain (c : Char) : Prop := 0x20 ≤ c.toNat ∧ c.toNat ≠ 0x7f ∧ c.toNat ≤ 0xffff

instance (c : Char) : Decidable (Plain c) := by
  unfold Plain; infer_instance

namespace Terminal

/-- The page, row after row. -/
def page (t : Terminal) : Nat → Cell := fun x =>
  if x < t.rows * t.columns then t.active (x / t.columns) (x % t.columns) else t.blank

/-- Where the next character goes on the page. -/
def nextPlace (t : Terminal) : Nat :=
  t.row * t.columns + t.column + if t.wrapPending then 1 else 0

/-- The cell of a character in the colours in force. -/
def cellOf (t : Terminal) (c : Char) : Cell := ⟨c.toNat, t.terminalAttribute⟩

/-- How many rows the window moves down for `n` characters. -/
def rowsDown (t : Terminal) (n : Nat) : Nat :=
  (t.nextPlace + n - 1) / t.columns - (t.rows - 1)

/-- `u` is the screen with the text typed on `t`. -/
structure TypedOn (t : Terminal) (text : List Char) (u : Terminal) : Prop where
  cells : ∀ i j, i < t.rows → j < t.columns → u.active i j =
    Tape.overwrite t.page t.nextPlace (text.map t.cellOf)
      ((i + t.rowsDown text.length) * t.columns + j)
  row : u.row + t.rowsDown text.length = (t.nextPlace + text.length - 1) / t.columns
  column : if (t.nextPlace + text.length - 1) % t.columns + 1 = t.columns then
      u.column = (t.nextPlace + text.length - 1) % t.columns ∧ u.wrapPending = true
    else u.column = (t.nextPlace + text.length - 1) % t.columns + 1 ∧ u.wrapPending = false

/-- Margins around the whole screen, no insert mode, and a pending wrap in the last
column only. -/
structure Typeable (t : Terminal) : Prop where
  top : t.scrollTop = 0
  bottom : t.scrollBottom + 1 = t.rows
  overtype : t.insertMode = false
  wraps : t.WrapsAtEnd

end Terminal

/-! ### The text is decoded -/

namespace Parser

variable {p : Parser}

/-- A lead byte prints nothing. -/
theorem Idle.next_lead (h : p.Idle) {lead : UInt8} (hlead : Utf8.announced lead ≠ 0) :
    (p.next lead).2 = [] := by
  have hne {b : UInt8} (hb : Utf8.announced b = 0) : lead ≠ b := by
    intro heq
    obtain rfl := heq
    exact hlead hb
  rw [next_ground h.1 (lead_ne_escape hlead), Parser.text, if_pos h.2]
  unfold Parser.ground
  rw [if_neg (hne (by decide)), if_neg (hne (by decide)), if_neg (hne (by decide)),
    if_neg (hne (by decide)), if_neg (hne (by decide)),
    if_neg fun hb => hlead (Utf8.announced_ascii hb)]
  repeat' split
  all_goals rfl

/-- An incomplete sequence prints nothing. -/
theorem Idle.commands_sequence (h : p.Idle) {lead : UInt8} (hlead : Utf8.announced lead ≠ 0)
    {tails : List UInt8} (hlength : tails.length < Utf8.announced lead)
    (htails : ∀ b ∈ tails, Utf8.Tail b) : p.commands (lead :: tails) = [] := by
  induction tails using List.reverseRecOn with
  | nil =>
      rw [commands_cons, h.next_lead hlead]
      rfl
  | append_singleton tails byte ih =>
      rw [List.length_append, List.length_singleton] at hlength
      have hold : ∀ b ∈ tails, Utf8.Tail b := fun b hb => htails b (List.mem_append_left _ hb)
      obtain ⟨hstate, hremaining, -⟩ := after_sequence h.1 hlead (by omega) hold
      have hbyte : ((p.after (lead :: tails)).next byte).2 = [] := by
        rw [next_ground hstate (tail_ne_escape (htails byte (by simp))),
          text_of_tail (by omega) (htails byte (by simp))]
        exact if_neg (by omega)
      rw [← List.cons_append, commands_append, ih (by omega) hold, List.nil_append, commands_cons,
        hbyte]
      rfl

/-- A plain character is printed, and leaves the parser idle. -/
theorem Idle.read_char (h : p.Idle) {c : Char} (hc : Plain c) :
    p.commands (String.utf8EncodeChar c) = [.print c.toNat] ∧
      (p.after (String.utf8EncodeChar c)).Idle := by
  obtain ⟨hlow, hdel, hplane⟩ := hc
  by_cases hascii : c.toNat < 0x80
  · have hval : c.val.toNat = c.toNat := rfl
    have hencode : String.utf8EncodeChar c = [UInt8.ofNat c.toNat] := by
      unfold String.utf8EncodeChar
      simp only [hval]
      exact if_pos (by omega)
    have hbyte : (UInt8.ofNat c.toNat).toNat = c.toNat := 
      UInt8.toNat_ofNat_of_lt' (show c.toNat < 256 by omega)
    have htext : TextByte (UInt8.ofNat c.toNat) := by
      refine ⟨?_, ?_⟩
      · rw [UInt8.le_iff_toNat_le, hbyte]
        exact hlow
      · rw [UInt8.le_iff_toNat_le, hbyte]
        show c.toNat ≤ 0x7e
        omega
    have hnext := h.next_text htext
    rw [hbyte] at hnext
    rw [hencode, commands_cons, after_cons, hnext]
    exact ⟨rfl, h⟩
  · obtain ⟨lead, tails, hencode, hcomplete, hvalue⟩ :=
      Utf8.encode_complete (Nat.le_of_not_lt hascii) hplane
    obtain ⟨init, last, rfl⟩ := (List.eq_nil_or_concat tails).resolve_left hcomplete.nonempty
    rw [List.concat_eq_append] at hencode hcomplete hvalue
    have hlength := hcomplete.length
    rw [List.length_append, List.length_singleton] at hlength
    have hlead : Utf8.announced lead ≠ 0 := by omega
    have hold : ∀ b ∈ init, Utf8.Tail b :=
      fun b hb => hcomplete.follow b (List.mem_append_left _ hb)
    obtain ⟨-, hprint⟩ := completes_last h.1 hcomplete
    obtain ⟨hstate, hremaining, -⟩ :=
      after_sequence h.1 hlead (show (init ++ [last]).length ≤ _ by simp; omega) hcomplete.follow
    have hglyph : glyph c.toNat = c.toNat := by
      have hvalid : c.toNat < 0xd800 ∨ 0xdfff < c.toNat ∧ c.toNat < 0x110000 := c.valid
      exact if_neg (by omega)
    rw [hvalue, hglyph] at hprint
    rw [hencode]
    refine ⟨?_, hstate, ?_⟩
    · rw [← List.cons_append, commands_append, h.commands_sequence hlead (by omega) hold,
        List.nil_append, commands_cons, hprint]
      rfl
    · rw [hremaining, List.length_append, List.length_singleton]
      omega

/-- **Plain text is printed character by character.** -/
theorem Idle.read_encoded (h : p.Idle) {text : List Char} (htext : ∀ c ∈ text, Plain c) :
    p.commands (encoded text) = text.map (fun c => .print c.toNat) ∧
      (p.after (encoded text)).Idle := by
  induction text generalizing p with
  | nil => exact ⟨rfl, h⟩
  | cons c rest ih =>
      obtain ⟨hfirst, hidle⟩ := h.read_char (htext c List.mem_cons_self)
      obtain ⟨hrest, hend⟩ := ih hidle fun c' hc' => htext c' (List.mem_cons_of_mem c hc')
      have hsplit : encoded (c :: rest) = String.utf8EncodeChar c ++ encoded rest := rfl
      rw [hsplit, commands_append, after_append, hfirst, hrest]
      exact ⟨rfl, hend⟩

end Parser

/-! ### One character on the page -/

namespace Screen

open Terminal

/-- A place of the page in rows and columns. -/
theorem place_div {width row column : Nat} (hcolumn : column < width) :
    (row * width + column) / width = row ∧ (row * width + column) % width = column := by
  obtain ⟨hrow, hcolumn'⟩ := (Grid.index_eq_iff (by omega)).mp ⟨hcolumn, rfl⟩
  exact ⟨hrow.symm, hcolumn'.symm⟩

/-- A place on the screen is in one of its rows. -/
theorem place_lt_iff {width rows x : Nat} (hwidth : 0 < width) :
    x < rows * width ↔ x / width < rows := (Nat.div_lt_iff_lt_mul hwidth).symm

variable {t : Terminal}

/-- How many cells the window moves on for the next character. -/
def cellsDown (t : Terminal) : Nat :=
  if t.nextPlace = t.rows * t.columns then t.columns else 0

/-- The next character goes to the cursor. -/
theorem nextPlace_of_not_pending (h : t.wrapPending = false) :
    t.nextPlace = t.row * t.columns + t.column := by
  simp [nextPlace, h]

/-- Or to the next line, if a wrap is pending. -/
theorem nextPlace_of_pending (h : t.wrapPending = true) (hend : t.WrapsAtEnd) :
    t.nextPlace = (t.row + 1) * t.columns := by
  have hlast := hend h
  rw [nextPlace, h, if_pos rfl, Nat.succ_mul]
  omega

/-- Moving all rows up moves the window down. -/
theorem page_moveUp (ht : t.WellFormed) (htop : t.scrollTop = 0)
    (hbottom : t.scrollBottom + 1 = t.rows) :
    (moveUp t t.scrollTop 1).page = Tape.dropped t.page t.columns := by
  have hwidth := ht.columns_pos
  have hone : min 1 (t.scrollBottom - t.scrollTop + 1) = 1 := by omega
  funext x
  have hnext : (x + t.columns) / t.columns = x / t.columns + 1 := Nat.add_div_right x hwidth
  have hsame : (x + t.columns) % t.columns = x % t.columns := Nat.add_mod_right x t.columns
  have hcolumn : x % t.columns < t.columns := Nat.mod_lt x hwidth
  show (if x < t.rows * t.columns then
      (moveUp t t.scrollTop 1).active (x / t.columns) (x % t.columns) else t.blank) =
    if x + t.columns < t.rows * t.columns then
      t.active ((x + t.columns) / t.columns) ((x + t.columns) % t.columns) else t.blank
  have hhere : x < t.rows * t.columns ↔ x / t.columns < t.rows := place_lt_iff hwidth
  have hthere : x + t.columns < t.rows * t.columns ↔ x / t.columns + 1 < t.rows := by
    rw [place_lt_iff hwidth, hnext]
  rw [active_moveUp, hone, hnext, hsame]
  simp only [Grid.shiftUp]
  generalize x / t.columns = row at hhere hthere ⊢
  by_cases hrow : row + 1 < t.rows
  · rw [if_pos (hhere.mpr (by omega)), if_pos (hthere.mpr hrow), if_pos (by omega),
      if_pos (by omega)]
  · rw [if_neg (fun h => hrow (hthere.mp h))]
    split
    · next hin =>
        have hlast := hhere.mp hin
        rw [if_pos (by omega), if_neg (by omega)]
    · rfl

/-- Writing at the cursor. -/
theorem page_write (ht : t.WellFormed) (hinsert : t.insertMode = false) (character : Nat) :
    (write t character).page = Tape.overwrite t.page (t.row * t.columns + t.column)
      [⟨character, t.terminalAttribute⟩] := by
  have hwidth := ht.columns_pos
  funext x
  have hcolumn : x % t.columns < t.columns := Nat.mod_lt x hwidth
  have hplace := Grid.index_eq_iff (n := x) (i := t.row) (j := t.column) hwidth
  have hcursor := cellIndex_lt ht.row_lt ht.column_lt
  have hcolumn_lt := ht.column_lt
  have hwrite : (write t character).rows = t.rows ∧ (write t character).columns = t.columns ∧
      (write t character).blank = t.blank := by
    unfold write
    split <;> exact ⟨rfl, rfl, rfl⟩
  rw [Tape.overwrite_singleton]
  unfold page
  rw [hwrite.1, hwrite.2.1, hwrite.2.2, active_write, hinsert]
  simp only [Bool.false_eq_true, if_false, Grid.fill]
  by_cases hx : x = t.row * t.columns + t.column
  · obtain ⟨hrow, hcol⟩ := hplace.mp ⟨hcolumn_lt, hx.symm⟩
    rw [if_pos hx, if_pos (by omega), if_pos (by omega)]
  · have hother : ¬ (t.row = x / t.columns ∧ t.column = x % t.columns) :=
      fun h => hx (hplace.mpr h).2.symm
    rw [if_neg hx]
    split
    · rw [if_neg (by omega)]
    · rfl

/-- **A wrap moves the window** when it leaves the last row. -/
theorem page_wrap (ht : t.WellFormed) (h : t.Typeable) :
    (wrap t).page = Tape.dropped t.page (cellsDown t) ∧
      (wrap t).row * t.columns + (wrap t).column + cellsDown t = t.nextPlace := by
  have hwidth := ht.columns_pos
  have hbottom := h.bottom
  cases hpending : t.wrapPending with
  | false =>
      have hplace := nextPlace_of_not_pending hpending
      have hcursor := cellIndex_lt ht.row_lt ht.column_lt
      have hstay : cellsDown t = 0 := if_neg (by omega)
      rw [wrap_of_not_pending hpending, hstay, hplace]
      exact ⟨rfl, rfl⟩
  | true =>
      have hplace := nextPlace_of_pending hpending h.wraps
      obtain ⟨hcolumn, hrow⟩ := wrap_cursor hpending
      rw [hcolumn, hrow, hplace]
      by_cases hlast : t.row = t.scrollBottom
      · have hrows : t.row + 1 = t.rows := by omega
        have hdown : cellsDown t = t.columns := if_pos (by rw [hplace, hrows])
        have hhome : { t with column := 0 }.WellFormed := { ht with column_lt := hwidth }
        have hwrap : wrap t = moveUp (cancelWrap { t with column := 0 }) t.scrollTop 1 := by
          unfold wrap index
          rw [if_pos hpending, if_pos hlast]
        have hmoved := page_moveUp hhome.cancelWrap h.top hbottom
        rw [hwrap, hdown, if_pos hlast, Nat.succ_mul]
        exact ⟨hmoved, rfl⟩
      · have hlt : t.row + 1 < t.rows := by
          have := ht.row_lt
          omega
        have hstay : cellsDown t = 0 := by
          apply if_neg
          rw [hplace]
          exact Nat.ne_of_lt (Nat.mul_lt_mul_of_pos_right hlt hwidth)
        have hwrap : wrap t = { cancelWrap { t with column := 0 } with row := t.row + 1 } := by
          unfold wrap index
          rw [if_pos hpending, if_neg hlast]
          exact congrArg (fun row => { cancelWrap { t with column := 0 } with row := row })
            (if_pos hlt)
        rw [hstay, if_neg hlast, if_pos hlt, hwrap]
        exact ⟨rfl, rfl⟩

/-- A wrap leaves the size, the margins and the mode. -/
theorem wrap_frame (t : Terminal) :
    (wrap t).rows = t.rows ∧ (wrap t).columns = t.columns ∧
      (wrap t).scrollTop = t.scrollTop ∧ (wrap t).scrollBottom = t.scrollBottom ∧
      (wrap t).insertMode = t.insertMode := by
  unfold wrap index
  split
  · split <;> exact ⟨rfl, rfl, rfl, rfl, rfl⟩
  · exact ⟨rfl, rfl, rfl, rfl, rfl⟩

theorem print_frame (t : Terminal) (character : Nat) :
    (print t character).rows = t.rows ∧ (print t character).columns = t.columns ∧
      (print t character).scrollTop = t.scrollTop ∧
      (print t character).scrollBottom = t.scrollBottom ∧
      (print t character).insertMode = t.insertMode ∧
      (print t character).terminalAttribute = t.terminalAttribute := by
  have hwrite (u : Terminal) : (write u character).rows = u.rows ∧
      (write u character).columns = u.columns ∧ (write u character).scrollTop = u.scrollTop ∧
      (write u character).scrollBottom = u.scrollBottom ∧
      (write u character).insertMode = u.insertMode ∧
      (write u character).terminalAttribute = u.terminalAttribute := by
    unfold write
    split <;> exact ⟨rfl, rfl, rfl, rfl, rfl, rfl⟩
  obtain ⟨hrows, hcolumns, htop, hbottom, hinsert⟩ := wrap_frame t
  obtain ⟨hrows', hcolumns', htop', hbottom', hinsert', hattr'⟩ := hwrite (wrap t)
  exact ⟨hrows'.trans hrows, hcolumns'.trans hcolumns, htop'.trans htop, hbottom'.trans hbottom,
    hinsert'.trans hinsert, hattr'.trans (terminalAttribute_wrap t)⟩

/-- A screen that can be typed on stays so. -/
theorem typeable_print (h : t.Typeable) (character : Nat) :
    (Screen.print t character).Typeable := by
  obtain ⟨hrows, hcolumns, htop, hbottom, hinsert, -⟩ := print_frame t character
  exact ⟨htop.trans h.top, by rw [hbottom, hrows, h.bottom], hinsert.trans h.overtype,
    wrapsAtEnd_print t character⟩

/-- The cursor steps over the character. -/
theorem advance_place (h : t.wrapPending = false) :
    (advance t).nextPlace = t.row * t.columns + t.column + 1 ∧
      ((advance t).wrapPending = true ∨ 0 < (advance t).column) := by
  unfold advance nextPlace
  by_cases hlast : t.column + 1 = t.columns
  · simp only [if_pos hlast, if_true]
    exact ⟨trivial, .inl trivial⟩
  · simp only [if_neg hlast, h, Bool.false_eq_true, if_false]
    exact ⟨rfl, .inr (Nat.succ_pos _)⟩

/-- **One character more on the page.** -/
theorem page_print (ht : t.WellFormed) (h : t.Typeable) (character : Nat) :
    (print t character).page =
        Tape.dropped (Tape.overwrite t.page t.nextPlace [⟨character, t.terminalAttribute⟩])
          (cellsDown t) ∧
      (print t character).nextPlace + cellsDown t = t.nextPlace + 1 ∧
      ((print t character).wrapPending = true ∨ 0 < (print t character).column) := by
  obtain ⟨hpage, hplace⟩ := page_wrap ht h
  obtain ⟨hrows, hcolumns, -, -, hinsert⟩ := wrap_frame t
  obtain ⟨hcolumn', hcolumns', hpending'⟩ := write_kept (wrap t) character
  have hwritten := page_write ht.wrap (hinsert.trans h.overtype) character
  obtain ⟨hnext, hbehind⟩ := advance_place (hpending'.trans (wrap_not_pending t))
  have hrow' : (write (wrap t) character).row = (wrap t).row := by
    unfold write
    split <;> rfl
  refine ⟨?_, ?_, hbehind⟩
  · have hadvance : (print t character).page = (write (wrap t) character).page := rfl
    rw [hadvance, hwritten, hpage, hcolumns, terminalAttribute_wrap,
      Tape.dropped_overwrite _ (by omega), ← hplace, Nat.add_sub_cancel]
  · rw [print, hnext, hrow', hcolumn', hcolumns', hcolumns]
    omega

/-! ### A text on the page -/

/-- The window after one more character. -/
theorem rowsDown_succ (ht : t.WellFormed) {n place : Nat}
    (hplace : place + t.rowsDown n * t.columns = t.nextPlace + n)
    (hle : place ≤ t.rows * t.columns) :
    t.rowsDown (n + 1) * t.columns = t.rowsDown n * t.columns +
      if place = t.rows * t.columns then t.columns else 0 := by
  have hwidth := ht.columns_pos
  have hrows := ht.rows_pos
  have hsum : (t.nextPlace + (n + 1) - 1) / t.columns = place / t.columns + t.rowsDown n := by
    have hindex : t.nextPlace + (n + 1) - 1 = place + t.rowsDown n * t.columns := by omega
    rw [hindex, Nat.add_mul_div_right _ _ hwidth]
  have hdown : t.rowsDown (n + 1) = place / t.columns + t.rowsDown n - (t.rows - 1) := by
    rw [rowsDown, hsum]
  by_cases hlast : place = t.rows * t.columns
  · have hfull : place / t.columns = t.rows := by rw [hlast, Nat.mul_div_cancel _ hwidth]
    rw [if_pos hlast, ← Nat.succ_mul, hdown, hfull]
    congr 1
    omega
  · have hbelow : place / t.columns < t.rows := by
      rw [← place_lt_iff hwidth]
      omega
    -- a window that has moved shows its last character in the last row
    have hedge : 0 < t.rowsDown n → t.rows - 1 ≤ place / t.columns := by
      intro hmoved
      have hlastRow : (t.nextPlace + n - 1) / t.columns = t.rowsDown n + (t.rows - 1) := by
        have hdef : t.rowsDown n = (t.nextPlace + n - 1) / t.columns - (t.rows - 1) := rfl
        generalize (t.nextPlace + n - 1) / t.columns = row at hdef ⊢
        omega
      have hmul : (t.rowsDown n + (t.rows - 1)) * t.columns ≤ t.nextPlace + n - 1 := by
        rw [← hlastRow]
        exact Nat.div_mul_le_self _ _
      rw [Nat.add_mul] at hmul
      exact (Nat.le_div_iff_mul_le hwidth).mpr (by omega)
    rw [if_neg hlast, Nat.add_zero, hdown]
    congr 1
    omega

/-- `u` is `t` with the text on its page. -/
structure Typed (t : Terminal) (text : List Char) (u : Terminal) : Prop where
  wellFormed : u.WellFormed
  typeable : u.Typeable
  rows : u.rows = t.rows
  columns : u.columns = t.columns
  colours : u.terminalAttribute = t.terminalAttribute
  page : u.page = Tape.dropped (Tape.overwrite t.page t.nextPlace (text.map t.cellOf))
    (t.rowsDown text.length * t.columns)
  place : u.nextPlace + t.rowsDown text.length * t.columns = t.nextPlace + text.length
  behind : text ≠ [] → u.wrapPending = true ∨ 0 < u.column

/-- The next place is on the screen or just behind it. -/
theorem nextPlace_le (ht : t.WellFormed) (h : t.Typeable) :
    t.nextPlace ≤ t.rows * t.columns := by
  cases hpending : t.wrapPending with
  | false =>
      rw [nextPlace_of_not_pending hpending]
      exact Nat.le_of_lt (cellIndex_lt ht.row_lt ht.column_lt)
  | true =>
      rw [nextPlace_of_pending hpending h.wraps]
      exact Nat.mul_le_mul_right _ ht.row_lt

theorem Typed.nil (ht : t.WellFormed) (h : t.Typeable) : Typed t [] t := by
  have hstay : t.rowsDown 0 = 0 := by
    have hwidth := ht.columns_pos
    have hcells : 0 < t.rows * t.columns := Nat.mul_pos ht.rows_pos hwidth
    have hle := nextPlace_le ht h
    have hrow : (t.nextPlace + 0 - 1) / t.columns < t.rows := by
      rw [← place_lt_iff hwidth]
      omega
    exact Nat.sub_eq_zero_of_le (Nat.le_sub_one_of_lt hrow)
  refine ⟨ht, h, rfl, rfl, rfl, ?_, ?_, fun hne => absurd rfl hne⟩
  · rw [List.map_nil, Tape.overwrite_nil, List.length_nil, hstay, Nat.zero_mul, Tape.dropped_zero]
  · rw [List.length_nil, hstay, Nat.zero_mul, Nat.add_zero]

/-- One character more. -/
theorem Typed.concat {text : List Char} {u : Terminal} (ht : t.WellFormed) (h : Typed t text u)
    {c : Char} (hc : Plain c) : Typed t (text ++ [c]) (print u c.toNat) := by
  obtain ⟨hpage, hplace, hbehind⟩ := page_print h.wellFormed h.typeable c.toNat
  obtain ⟨hrows, hcolumns, -, -, -, hattr⟩ := print_frame u c.toNat
  have hdown := rowsDown_succ ht h.place (by
    rw [← h.rows, ← h.columns]
    exact nextPlace_le h.wellFormed h.typeable)
  have hcells : cellsDown u = if u.nextPlace = t.rows * t.columns then t.columns else 0 := by
    rw [cellsDown, h.rows, h.columns]
  have hlength : (text ++ [c]).length = text.length + 1 := by simp
  rw [← hcells] at hdown
  refine {
    wellFormed := h.wellFormed.exec (c := .print c.toNat) ⟨by have := hc.1; omega, hc.2.2⟩
    typeable := typeable_print h.typeable c.toNat
    rows := hrows.trans h.rows
    columns := hcolumns.trans h.columns
    colours := hattr.trans h.colours
    page := ?_
    place := ?_
    behind := fun _ => hbehind }
  · have hbelow : t.rowsDown text.length * t.columns ≤
        t.nextPlace + (text.map t.cellOf).length := by
      rw [List.length_map, ← h.place]
      exact Nat.le_add_left _ _
    have hcell : (⟨c.toNat, u.terminalAttribute⟩ : Cell) = t.cellOf c := by
      rw [h.colours]
      rfl
    have hnext : t.nextPlace + (text.map t.cellOf).length - t.rowsDown text.length * t.columns =
        u.nextPlace := by
      rw [List.length_map, ← h.place, Nat.add_sub_cancel]
    rw [hlength, hdown, List.map_append, List.map_singleton, Tape.overwrite_concat,
      ← Tape.dropped_dropped, Tape.dropped_overwrite _ hbelow, ← h.page, hnext, ← hcell]
    exact hpage
  · rw [hlength, hdown]
    have hold := h.place
    omega

/-- **A text is written to the page as a whole.** -/
theorem typed_execAll (ht : t.WellFormed) (h : t.Typeable) {text : List Char}
    (htext : ∀ c ∈ text, Plain c) :
    Typed t text (execAll t (text.map fun c => .print c.toNat)) := by
  induction text using List.reverseRecOn with
  | nil => exact .nil ht h
  | append_singleton text c ih =>
      have hold := ih fun c' hc' => htext c' (List.mem_append_left _ hc')
      rw [List.map_append, execAll_append]
      exact hold.concat ht (htext c (by simp))

end Screen

/-! ### What the screen shows -/

namespace Terminal

open Screen

/-- The window and the cursor of a typed text. -/
theorem typedOn_of_typed {t u : Terminal} {text : List Char} (h : Typed t text u)
    (hsome : text ≠ []) : t.TypedOn text u := by
  have hwidth := h.columns ▸ h.wellFormed.columns_pos
  have hcolumn := h.columns ▸ h.wellFormed.column_lt
  have hlast : t.nextPlace + text.length - 1 =
      (u.row + t.rowsDown text.length) * t.columns +
        (if u.wrapPending then u.column else u.column - 1) := by
    have hplace := h.place
    have hbehind := h.behind hsome
    rw [nextPlace, h.columns] at hplace
    rw [Nat.add_mul]
    cases hpending : u.wrapPending with
    | true =>
        simp only [hpending, if_true] at hplace ⊢
        omega
    | false =>
        simp only [hpending, Bool.false_eq_true, if_false, false_or] at hplace hbehind ⊢
        omega
  refine ⟨?_, ?_, ?_⟩
  · intro i j hi hj
    have hcell := congrFun h.page (i * t.columns + j)
    obtain ⟨hrow, hcol⟩ : (i * t.columns + j) / t.columns = i ∧
        (i * t.columns + j) % t.columns = j :=
      place_div hj
    have hin : i * t.columns + j < t.rows * t.columns := cellIndex_lt hi hj
    rw [page, h.rows, h.columns, if_pos hin, hrow, hcol] at hcell
    rw [hcell, Tape.dropped, Nat.add_mul, Nat.add_right_comm]
  · rw [hlast]
    refine ((place_div ?_).1).symm
    split <;> omega
  · have hend := h.typeable.wraps
    rw [hlast]
    cases hpending : u.wrapPending with
    | true =>
        have hedge := hend hpending
        rw [h.columns] at hedge
        simp only [if_true]
        rw [(place_div hcolumn).2, if_pos hedge]
        exact ⟨rfl, trivial⟩
    | false =>
        have hpos := (h.behind hsome).resolve_left (by simp [hpending])
        simp only [Bool.false_eq_true, if_false]
        rw [(place_div (by omega)).2, if_neg (by omega)]
        exact ⟨by omega, trivial⟩

/-- **Plain text layout.**  Text fed in pieces of any size is written to the page, the
window moves down as far as its last character needs, and the cursor stands behind
that character, or on it in the last column. -/
theorem plain_text_layout {t : Terminal} (h : Reachable t) (hidle : t.parser.Idle)
    (htype : t.Typeable) {text : List Char} (hsome : text ≠ []) (htext : ∀ c ∈ text, Plain c)
    {chunks : List (List UInt8)} (hchunks : chunks.flatten = encoded text) :
    ∃ u, t.run (chunks.map .feed) = .ok u ∧ t.TypedOn text u := by
  have hwell := h.wellFormed
  have htyped := typedOn_of_typed (typed_execAll hwell htype htext) hsome
  refine ⟨_, hwell.run_feeds chunks, ?_⟩
  rw [hchunks, feed_eq_execAll, (hidle.read_encoded htext).1]
  exact { htyped with }

/-- Three letters and the Euro sign on two lines, in pieces that split the sign. -/
theorem plain_text_euro :
    ∃ u, (Firmware.ample 2 2 7).fresh.run
        ([[0x61, 0x62, 0x63, 0xe2], [0x82, 0xac]].map .feed) = .ok u ∧
      (Firmware.ample 2 2 7).fresh.TypedOn ['a', 'b', 'c', '€'] u :=
  plain_text_layout (created_ample 2 2 7).reachable ⟨rfl, rfl⟩
    ⟨rfl, rfl, rfl, .of_not_pending rfl⟩ (by decide) (by simp [Plain]) (by decide)

end Terminal

end WolfSshUefi
