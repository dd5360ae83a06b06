import WolfSshUefi.Terminal.Streams

/-!
# Layout

The layout of a screen is what is left of it in black and white: the
characters without their attributes, the cursor, the margins, the modes and
the replies.  No instruction looks at more than the layout to change it
(`Screen.plain_exec`), and the parser does not look at the screen at all, so
two screens of one layout keep one layout whatever is fed to both.
-/

namespace WolfSshUefi

/-- The character alone. -/
def Cell.plain (cell : Cell) : Cell := ⟨cell.character, 0⟩

/-- The screen in black and white, all of it painted and nothing half read. -/
def Terminal.plain (t : Terminal) : Terminal :=
  { t with
    primary := t.primary.map Cell.plain
    alternate := t.alternate.map Cell.plain
    dirtyStart := fun _ => 0, dirtyEnd := fun _ => 0, renderBuffer := fun _ => 0
    defaultForeground := 0, defaultBackground := 0
    foreground := 0, background := 0, bold := false, reverse := false
    parser := {
      state := .ground, parameters := fun _ => 0, parameterCount := 0
      privateCsi := false, utf8Remaining := 0, utf8CodePoint := 0 }
    conOut := [] }

namespace Terminal

/-- The plain view of a choice. -/
theorem plain_ite (P : Prop) [Decidable P] (t u : Terminal) :
    (if P then t else u).plain = if P then t.plain else u.plain :=
  apply_ite Terminal.plain P t u

/-- The buffer that is shown, without its attributes. -/
theorem active_plain (t : Terminal) : t.plain.active = t.active.map Cell.plain := by
  cases h : t.cells <;> simp [active, plain, h]

/-- An edit in black and white. -/
theorem plain_edit (t : Terminal) (f : Grid Cell → Grid Cell) :
    (t.edit f).plain = t.plain.edit fun _ => (f t.active).map Cell.plain := by
  cases h : t.cells <;> simp [plain, edit, editBuffer, active, h]

/-- Two edits that agree in black and white. -/
theorem plain_edit_congr {t u : Terminal} (h : t.plain = u.plain) {f g : Grid Cell → Grid Cell}
    (hfg : (f t.active).map Cell.plain = (g u.active).map Cell.plain) :
    (t.edit f).plain = (u.edit g).plain := by
  rw [plain_edit, plain_edit, h, hfg]

end Terminal

namespace Screen

open Terminal

/-- Dirty intervals do not show. -/
@[simp] theorem plain_mark (t : Terminal) (first count left right : Nat) :
    (mark t first count left right).plain = t.plain := rfl

@[simp] theorem plain_withParser (t : Terminal) (p : Parser) : (t.withParser p).plain = t.plain :=
  rfl

/-- There is nothing more to leave out. -/
@[simp] theorem plain_plain (t : Terminal) : t.plain.plain = t.plain := rfl

section Congruence

variable {t u : Terminal} (h : t.plain = u.plain)

include h

/-! Two screens of one layout, written alike up to colours. -/

/-- Erasing shows the same in any colours. -/
theorem plain_erase {x y : Cell} (hxy : x.plain = y.plain) (first count left right : Nat) :
    (erase t first count left right x).plain = (erase u first count left right y).plain := by
  simp only [erase, plain_mark]
  apply plain_edit_congr h
  rw [Grid.map_fill, Grid.map_fill, hxy, ← active_plain, ← active_plain, h]

/-- So does pushing cells to the right. -/
theorem plain_shiftRight {x y : Cell} (hxy : x.plain = y.plain) (row left k width : Nat) :
    (t.edit fun cells => cells.shiftRight row left k width x).plain =
      (u.edit fun cells => cells.shiftRight row left k width y).plain := by
  apply plain_edit_congr h
  rw [Grid.map_shiftRight, Grid.map_shiftRight, hxy, ← active_plain, ← active_plain, h]

/-- So does pulling them to the left. -/
theorem plain_shiftLeft {x y : Cell} (hxy : x.plain = y.plain) (row left k width : Nat) :
    (t.edit fun cells => cells.shiftLeft row left k width x).plain =
      (u.edit fun cells => cells.shiftLeft row left k width y).plain := by
  apply plain_edit_congr h
  rw [Grid.map_shiftLeft, Grid.map_shiftLeft, hxy, ← active_plain, ← active_plain, h]

/-- So does clearing the screen. -/
theorem plain_clear : (clear t).plain = (clear u).plain := by
  have hrows := congrArg Terminal.rows h
  have hcolumns := congrArg Terminal.columns h
  change t.rows = u.rows at hrows
  change t.columns = u.columns at hcolumns
  apply plain_edit_congr h
  rw [Grid.map_fill, Grid.map_fill, ← active_plain, ← active_plain, h, hrows, hcolumns]
  rfl

end Congruence

/-- Moving rows up looks at the plain screen only. -/
theorem plain_moveUp (t : Terminal) (top count : Nat) :
    (moveUp t top count).plain = (moveUp t.plain top count).plain := by
  simp only [moveUp, plain_mark]
  apply plain_edit_congr (plain_plain t).symm
  rw [Grid.map_shiftUp, Grid.map_shiftUp, active_plain]
  rfl

theorem plain_moveDown (t : Terminal) (top count : Nat) :
    (moveDown t top count).plain = (moveDown t.plain top count).plain := by
  simp only [moveDown, plain_mark]
  apply plain_edit_congr (plain_plain t).symm
  rw [Grid.map_shiftDown, Grid.map_shiftDown, active_plain]
  rfl

theorem plain_index (t : Terminal) : (index t).plain = (index t.plain).plain := by
  simp only [index, plain_ite, plain_moveUp (cancelWrap t)]
  rfl

theorem plain_wrap (t : Terminal) : (wrap t).plain = (wrap t.plain).plain := by
  simp only [wrap, plain_ite, plain_index { t with column := 0 }]
  rfl

/-- So does writing a character. -/
theorem plain_write (t : Terminal) (character : Nat) :
    (write t character).plain = (write t.plain character).plain := by
  have hsame : t.plain = t.plain.plain := rfl
  have hcell : Cell.plain ⟨character, t.terminalAttribute⟩ =
      Cell.plain ⟨character, t.plain.terminalAttribute⟩ := rfl
  simp only [write, plain_ite, plain_mark]
  rw [plain_shiftRight hsame hcell, plain_erase hsame hcell]
  rfl

/-- So does the step of the cursor. -/
theorem plain_advance (t : Terminal) : (advance t).plain = (advance t.plain).plain := rfl

theorem plain_print (t : Terminal) (character : Nat) :
    (print t character).plain = (print t.plain character).plain := by
  calc (advance (write (wrap t) character)).plain
      = (advance (write (wrap t).plain character).plain).plain := by
        rw [plain_advance, plain_write]
    _ = (advance (write (wrap t.plain) character)).plain := by
        rw [plain_wrap, ← plain_write, ← plain_advance]

/-- **The layout after an instruction depends on the layout before it only.** -/
theorem plain_exec (t : Terminal) (c : Command) :
    (exec t c).plain = (exec t.plain c).plain := by
  have hsame : t.plain = t.plain.plain := rfl
  have hblank : t.blank.plain = t.plain.blank.plain := rfl
  cases c with
  | print character => exact plain_print t character
  | index => exact plain_index t
  | reverseIndex =>
      simp only [exec, reverseIndex, plain_ite, plain_moveDown (cancelWrap t)]
      rfl
  | reset =>
      refine plain_clear (t := { t with
        foreground := t.defaultForeground, background := t.defaultBackground
        bold := false, reverse := false, row := 0, column := 0
        scrollTop := 0, scrollBottom := t.rows - 1 }) (u := { t.plain with
        row := 0, column := 0, scrollTop := 0, scrollBottom := t.rows - 1 }) ?_
      rfl
  | eraseDisplay mode =>
      have hclear : (markClean (clear t).clearScreen).plain =
          (markClean (clear t.plain).clearScreen).plain := plain_clear hsame
      simp only [exec, eraseDisplay, plain_ite, hclear]
      rw [plain_erase (plain_erase hsame hblank _ _ _ _) hblank,
        plain_erase (plain_erase hsame hblank _ _ _ _) hblank]
      rfl
  | eraseLine mode =>
      simp only [exec, eraseLine, plain_ite]
      rw [plain_erase hsame hblank, plain_erase hsame hblank, plain_erase hsame hblank]
      rfl
  | rendition change => cases change <;> rfl
  | margins top bottom =>
      simp only [exec, setMargins, plain_ite]
      rfl
  | insertLines count =>
      simp only [exec, plain_ite, plain_moveDown t]
      rfl
  | deleteLines count =>
      simp only [exec, plain_ite, plain_moveUp t]
      rfl
  | insertCharacters count => exact plain_shiftRight hsame hblank _ _ _ _
  | deleteCharacters count => exact plain_shiftLeft hsame hblank _ _ _ _
  | eraseCharacters count => exact plain_erase hsame hblank _ _ _ _
  | scrollUp count => exact plain_moveUp t _ _
  | scrollDown count => exact plain_moveDown t _ _
  | alternateScreen on =>
      have henter : (enterAlternate (cancelWrap t)).plain =
          (enterAlternate (cancelWrap t.plain)).plain := by
        refine plain_clear (t := { cancelWrap t with
          primaryRow := t.row, primaryColumn := t.column
          cells := .alternate, alternateActive := true
          row := 0, column := 0
          scrollTop := 0, scrollBottom := t.rows - 1 }) (u := { cancelWrap t.plain with
          primaryRow := t.row, primaryColumn := t.column
          cells := .alternate, alternateActive := true
          row := 0, column := 0
          scrollTop := 0, scrollBottom := t.rows - 1 }) ?_
        rfl
      simp only [exec, alternateScreen, plain_ite, henter]
      rfl
  | _ => rfl

/-- Two screens of one layout keep one layout under the same instructions. -/
theorem plain_execAll {t u : Terminal} (h : t.plain = u.plain) (commands : List Command) :
    (execAll t commands).plain = (execAll u commands).plain := by
  induction commands generalizing t u with
  | nil => exact h
  | cons c rest ih =>
      apply ih
      rw [plain_exec t, plain_exec u, h]

end Screen

/-! ### Scratch -/

/-- Two parsers that differ only in what the next sequence overwrites. -/
structure Parser.Alike (p q : Parser) : Prop where
  state : p.state = q.state
  utf8Remaining : p.utf8Remaining = q.utf8Remaining
  utf8CodePoint : p.utf8Remaining ≠ 0 → p.utf8CodePoint = q.utf8CodePoint
  privateCsi : p.state = .csi → p.privateCsi = q.privateCsi
  parameterCount : p.state = .csi → p.parameterCount = q.parameterCount
  parameters : p.state = .csi → ∀ i, i < p.parameterCount → p.parameters i = q.parameters i

namespace Parser

variable {p q : Parser}

/-- A parser is like itself. -/
theorem Alike.refl (p : Parser) : p.Alike p :=
  ⟨rfl, rfl, fun _ => rfl, fun _ => rfl, fun _ => rfl, fun _ _ _ => rfl⟩

/-- No sequence has begun. -/
theorem Alike.of_ground (hp : p.state = .ground) (hq : q.state = .ground)
    (hp' : p.utf8Remaining = 0) (hq' : q.utf8Remaining = 0) : p.Alike q where
  state := hp.trans hq.symm
  utf8Remaining := hp'.trans hq'.symm
  utf8CodePoint := fun h => absurd hp' h
  privateCsi := fun h => by simp [hp] at h
  parameterCount := fun h => by simp [hp] at h
  parameters := fun h => by simp [hp] at h

/-- The same instructions, and alike parsers after them. -/
def AnswerAlike (x y : Parser × List Command) : Prop := x.2 = y.2 ∧ x.1.Alike y.1

/-- A choice between answers that are alike. -/
theorem AnswerAlike.ite {P : Prop} [Decidable P] {x x' y y' : Parser × List Command}
    (hyes : AnswerAlike x x') (hno : AnswerAlike y y') :
    AnswerAlike (if P then x else y) (if P then x' else y') := by
  split
  · exact hyes
  · exact hno

/-- Parsers outside a control sequence are alike whatever parameters are left over. -/
theorem Alike.setState (h : p.Alike q) {state : ParserState} (hne : state ≠ .csi) :
    { p with state := state }.Alike { q with state := state } where
  state := rfl
  utf8Remaining := h.utf8Remaining
  utf8CodePoint := h.utf8CodePoint
  privateCsi := fun hcsi => absurd hcsi hne
  parameterCount := fun hcsi => absurd hcsi hne
  parameters := fun hcsi => absurd hcsi hne

/-- The same half-read UTF-8 sequence. -/
theorem Alike.utf8 (h : p.Alike q) (remaining codePoint : Nat) :
    { p with utf8Remaining := remaining, utf8CodePoint := codePoint }.Alike
      { q with utf8Remaining := remaining, utf8CodePoint := codePoint } :=
  { h with utf8Remaining := rfl, utf8CodePoint := fun _ => rfl }

/-- A UTF-8 sequence broken off. -/
theorem Alike.broken (h : p.Alike q) :
    { p with utf8Remaining := 0 }.Alike { q with utf8Remaining := 0 } :=
  { h with utf8Remaining := rfl, utf8CodePoint := fun hne => absurd rfl hne }

/-- Parsers that are alike answer a byte in the ground state alike. -/
theorem Alike.ground (h : p.Alike q) (byte : UInt8) :
    AnswerAlike (p.ground byte) (q.ground byte) := by
  unfold Parser.ground
  refine .ite ⟨rfl, h.setState (by decide)⟩ ?_
  repeat' apply AnswerAlike.ite
  all_goals first
    | exact ⟨rfl, h⟩
    | exact ⟨rfl, h.utf8 _ _⟩

theorem Alike.text (h : p.Alike q) (byte : UInt8) :
    AnswerAlike (p.text byte) (q.text byte) := by
  have hremaining := h.utf8Remaining
  unfold Parser.text
  by_cases hzero : p.utf8Remaining = 0
  · rw [if_pos hzero, if_pos (hremaining ▸ hzero)]
    exact h.ground byte
  have hpoint := h.utf8CodePoint hzero
  have hzero' : q.utf8Remaining ≠ 0 := hremaining ▸ hzero
  rw [if_neg hzero, if_neg hzero']
  split
  · unfold continuation
    rw [hpoint, hremaining]
    exact ⟨rfl, h.utf8 _ _⟩
  · obtain ⟨hcommands, halike⟩ := h.broken.ground byte
    exact ⟨congrArg (List.cons _) hcommands, halike⟩

theorem Alike.escape (h : p.Alike q) (byte : UInt8) :
    AnswerAlike (p.escape byte) (q.escape byte) := by
  unfold Parser.escape
  refine .ite ⟨rfl, ?_⟩ (.ite ⟨rfl, h.setState (by decide)⟩ ⟨rfl, h.setState (by decide)⟩)
  refine { h with
    state := rfl, privateCsi := fun _ => rfl, parameterCount := fun _ => rfl
    parameters := fun _ i hi => ?_ }
  have hone : i < 1 := hi
  have hlt : i < terminalMaxParams := Nat.lt_of_lt_of_le hone (by decide)
  simp only [Parser.reset, hlt, if_true]

/-- Inside a control sequence everything collected is the same. -/
theorem Alike.params (h : p.Alike q) (hcsi : p.state = .csi) : p.params = q.params := by
  unfold Parser.params
  rw [← h.parameterCount hcsi]
  apply List.map_congr_left
  intro i hi
  exact h.parameters hcsi i (List.mem_range.mp hi)

theorem Alike.digit (h : p.Alike q) (hcsi : p.state = .csi) (byte : UInt8) :
    (p.digit byte).Alike (q.digit byte) := by
  have hcount := h.parameterCount hcsi
  refine { h with parameters := fun _ i hi => ?_ }
  have hi' : i < p.parameterCount := hi
  have hlast := h.parameters hcsi (p.parameterCount - 1) (by omega)
  simp only [Parser.digit, ← hcount, ← hlast, Function.update_apply]
  split
  · rfl
  · exact h.parameters hcsi i hi'

theorem Alike.separator (h : p.Alike q) (hcsi : p.state = .csi) :
    p.separator.Alike q.separator := by
  have hcount := h.parameterCount hcsi
  unfold Parser.separator
  rw [← hcount]
  split
  · refine { h with parameterCount := fun _ => rfl, parameters := fun _ i hi => ?_ }
    have hi' : i < p.parameterCount + 1 := hi
    simp only [Function.update_apply]
    split
    · rfl
    · exact h.parameters hcsi i (by omega)
  · exact h

/-- And any byte of a control sequence. -/
theorem Alike.csi (h : p.Alike q) (hcsi : p.state = .csi) (byte : UInt8) :
    AnswerAlike (p.csi byte) (q.csi byte) := by
  have hcount := h.parameterCount hcsi
  have hmark : (byte = 0x3f ∧ p.parameterCount = 1 ∧ p.parameters 0 < 0) ↔
      (byte = 0x3f ∧ q.parameterCount = 1 ∧ q.parameters 0 < 0) := by
    rw [← hcount]
    constructor
    · intro hall
      obtain ⟨hbyte, hone, hneg⟩ := hall
      exact ⟨hbyte, hone, h.parameters hcsi 0 (by omega) ▸ hneg⟩
    · intro hall
      obtain ⟨hbyte, hone, hneg⟩ := hall
      exact ⟨hbyte, hone, (h.parameters hcsi 0 (by omega)).symm ▸ hneg⟩
  have hcommands : csiCommands (csiFinal byte) p.privateCsi p.params =
      csiCommands (csiFinal byte) q.privateCsi q.params := by
    rw [h.params hcsi, h.privateCsi hcsi]
  unfold Parser.csi
  simp only [hmark]
  refine .ite ⟨rfl, { h with privateCsi := fun _ => rfl }⟩ ?_
  refine .ite ⟨rfl, h.digit hcsi byte⟩ ?_
  refine .ite ⟨rfl, h.separator hcsi⟩ ?_
  exact .ite ⟨hcommands, h.setState (by decide)⟩ ⟨rfl, h⟩

/-- Parsers that differ in scratch only answer every byte alike. -/
theorem Alike.next (h : p.Alike q) (byte : UInt8) : AnswerAlike (p.next byte) (q.next byte) := by
  have hstate := h.state
  unfold Parser.next
  rw [← hstate]
  refine .ite (.ite ⟨rfl, h.setState (by simp)⟩ ?_) ?_
  · exact .ite ⟨rfl, h.broken.setState (by simp)⟩ ⟨rfl, h⟩
  · split
    · exact h.text byte
    · exact h.escape byte
    · next hcsi => exact h.csi hcsi byte
    · refine ⟨rfl, h.setState ?_⟩
      split <;> decide
    · refine ⟨rfl, h.setState ?_⟩
      split <;> decide

/-- Parsers that are alike read the same instructions. -/
theorem Alike.commands (h : p.Alike q) (data : List UInt8) : p.commands data = q.commands data :=
  (Transducer.alike_run (fun _ _ byte halike => halike.next byte) h data).1

end Parser

/-- Two screens of one layout, with alike parsers, keep one layout under the same bytes. -/
theorem Screen.plain_feed {t u : Terminal} (h : t.plain = u.plain)
    (hparser : t.parser.Alike u.parser) (data : List UInt8) :
    (feed t data).plain = (feed u data).plain := by
  rw [feed_eq_execAll, feed_eq_execAll, plain_withParser, plain_withParser,
    hparser.commands data]
  exact plain_execAll h _

end WolfSshUefi
