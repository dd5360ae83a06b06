import WolfSshUefi.Terminal.Sequences

/-!
# The parser drives the screen

`WolfSshTerminalFeed` is the transducer `Parser.next` in front of the screen:
on a state that keeps the invariant, a byte takes the parser to its next state
and carries out the instructions the byte completes, and no access fails.
-/

namespace WolfSshUefi.Terminal

open Loops

/-- Only the parser is set. -/
theorem setParserState_eq (t : Terminal) (state : ParserState) :
    t.setParserState state = t.withParser { t.parser with state := state } := rfl

/-- Instructions first and a parser state after them, or the other way round. -/
theorem execAll_setParserState (t : Terminal) (commands : List Command) (state : ParserState) :
    (Screen.execAll t commands).setParserState state =
      Screen.execAll (t.withParser { t.parser with state := state }) commands := by
  rw [setParserState_eq, Screen.parser_execAll, Screen.execAll_withParser]

namespace WellFormed

variable {t : Terminal}

/-- A well-formed parser in a well-formed terminal. -/
theorem withParser (h : t.WellFormed) {p : Parser} (hp : p.WellFormed) :
    (t.withParser p).WellFormed := { h with parser := hp }

/-- `EmitCodePoint` prints a glyph. -/
theorem emitCodePoint_eq (h : t.WellFormed) (codePoint : Nat) :
    t.emitCodePoint codePoint = .ok (Screen.print t (glyph codePoint)) := by
  have hvalid := Parser.glyph_valid codePoint
  rw [← h.putCharacter_eq hvalid]
  unfold emitCodePoint glyph
  split <;> rfl

/-- A byte outside any sequence. -/
theorem groundByte_eq (h : t.WellFormed) (byte : UInt8) :
    t.groundByte byte = .ok (Screen.execAll (t.withParser (t.parser.ground byte).1)
      (t.parser.ground byte).2) := by
  have hcolumns := h.columns_pos
  let result (r : Parser × List Command) : Checked Terminal :=
    .ok (Screen.execAll (t.withParser r.1) r.2)
  unfold groundByte Parser.ground
  refine ite_eq_of_iff result Iff.rfl (fun _ => rfl) fun _ => ?_
  refine ite_eq_of_iff result Iff.rfl (fun _ => rfl) fun _ => ?_
  refine ite_eq_of_iff result Iff.rfl (fun _ => h.indexDown_eq) fun _ => ?_
  refine ite_eq_of_iff result Iff.rfl (fun _ => ?backspace) fun _ => ?_
  case backspace =>
    show _ = Except.ok ({ t with column := t.column - 1, wrapPending := false } : Terminal)
    by_cases hzero : t.column = 0
    · have hsame : t.column - 1 = t.column := by omega
      rw [if_neg (not_not_intro hzero), hsame]
      rfl
    · rw [if_pos hzero, usub_eq (Nat.pos_of_ne_zero hzero)]
      rfl
  refine ite_eq_of_iff result Iff.rfl (fun _ => ?tab) fun _ => ?_
  case tab =>
    rw [usub_eq hcolumns, ok_bind]
    rfl
  refine ite_eq_of_iff result Iff.rfl (fun hprint =>
    h.putCharacter_eq (Parser.printable_valid hprint)) fun _ => ?_
  refine ite_eq_of_iff result Iff.rfl (fun _ => rfl) fun _ => ?_
  refine ite_eq_of_iff result Iff.rfl (fun _ => rfl) fun _ => ?_
  exact ite_eq_of_iff result Iff.rfl (fun _ => rfl) (fun _ => rfl)

/-- A byte that breaks off a UTF-8 sequence: a replacement character, then the
byte as an ordinary one. -/
theorem brokenSequence_eq (h : t.WellFormed) {p : Parser} (hp : p.WellFormed) (byte : UInt8) :
    (do
      let u ← (t.withParser p).emitCodePoint 0xfffd
      u.groundByte byte) =
      .ok (Screen.execAll (t.withParser (p.ground byte).1)
        (.print (glyph 0xfffd) :: (p.ground byte).2)) := by
  have hprint (q : Parser) : Screen.print (t.withParser q) (glyph 0xfffd) =
      (Screen.print t (glyph 0xfffd)).withParser q :=
    Screen.exec_withParser t q (.print (glyph 0xfffd))
  have hprinted : (Screen.print (t.withParser p) (glyph 0xfffd)).WellFormed :=
    (h.withParser hp).exec (c := .print _) (Parser.glyph_valid 0xfffd)
  have hbyte := hprinted.groundByte_eq byte
  rw [(h.withParser hp).emitCodePoint_eq, ok_bind, hbyte, Screen.execAll_cons, Screen.exec,
    hprint, hprint]
  rfl

/-- A byte in ground state, possibly inside a UTF-8 sequence. -/
theorem handleGroundByte_eq (h : t.WellFormed) (hground : t.parser.state = .ground)
    (byte : UInt8) :
    t.handleGroundByte byte = .ok (Screen.execAll (t.withParser (t.parser.text byte).1)
      (t.parser.text byte).2) := by
  unfold handleGroundByte Parser.text
  by_cases hnone : t.parser.utf8Remaining = 0
  · rw [if_neg (not_not_intro hnone), if_pos hnone]
    exact h.groundByte_eq byte
  · rw [if_pos hnone, if_neg hnone]
    by_cases hcontinue : byte &&& 0xc0 = 0x80
    · have hpos : 1 ≤ t.parser.utf8Remaining := Nat.pos_of_ne_zero hnone
      have hle := h.parser.utf8_le
      rw [if_neg (not_not_intro hcontinue), if_pos hcontinue, usub_eq hpos, ok_bind]
      simp only [Parser.continuation]
      generalize ((t.parser.utf8CodePoint <<< 6) ||| (byte &&& 0x3f).toNat) % 0x100000000 = codePoint
      have hnext := h.withParser (h.parser.setUtf8 hground
        (show t.parser.utf8Remaining - 1 ≤ 3 by omega) codePoint)
      split
      · exact hnext.emitCodePoint_eq codePoint
      · rfl
    · -- the sequence breaks off: a replacement, then the byte as an ordinary one
      have hbroken := h.parser.setUtf8 hground (Nat.zero_le 3) t.parser.utf8CodePoint
      rw [if_pos hcontinue, if_neg hcontinue]
      exact h.brokenSequence_eq hbroken byte

/-- The byte after `ESC`. -/
theorem escapeByte_eq (h : t.WellFormed) (byte : UInt8) :
    t.escapeByte byte = .ok (Screen.execAll (t.withParser (t.parser.escape byte).1)
      (t.parser.escape byte).2) := by
  have hrows := h.rows_pos
  have hcolumns := h.columns_pos
  have hdone (commands : List Command) {u : Terminal} (hu : u = Screen.execAll t commands) :
      (.ok (u.setParserState .ground) : Checked Terminal) = .ok (Screen.execAll
        (t.withParser { t.parser with state := .ground }) commands) := by
    rw [hu, execAll_setParserState]
  let result (r : Parser × List Command) : Checked Terminal :=
    .ok (Screen.execAll (t.withParser r.1) r.2)
  let completed (commands : List Command) : Checked Terminal :=
    result ({ t.parser with state := .ground }, commands)
  unfold escapeByte Parser.escape
  refine ite_eq_of_iff result Iff.rfl (fun _ => rfl) fun _ => ?_
  refine ite_eq_of_iff result Iff.rfl (fun _ => rfl) fun _ => ?_
  refine ite_eq_of_iff completed Iff.rfl (fun _ => hdone [.saveCursor] rfl) fun _ => ?_
  refine ite_eq_of_iff completed Iff.rfl (fun _ => ?restore) fun _ => ?_
  case restore =>
    rw [usub_eq hrows, ok_bind, usub_eq hcolumns, ok_bind]
    exact hdone [.restoreCursor] rfl
  refine ite_eq_of_iff completed Iff.rfl (fun _ => ?index) fun _ => ?_
  case index =>
    rw [h.indexDown_eq, ok_bind]
    exact hdone [.index] rfl
  refine ite_eq_of_iff completed Iff.rfl (fun _ => ?reverse) fun _ => ?_
  case reverse =>
    rw [h.indexUp_eq, ok_bind]
    exact hdone [.reverseIndex] rfl
  refine ite_eq_of_iff completed Iff.rfl (fun _ => ?nextLine) fun _ => ?_
  case nextLine =>
    have hhome : { t with column := 0 }.WellFormed := { h with column_lt := hcolumns }
    rw [hhome.indexDown_eq, ok_bind]
    exact hdone [.carriageReturn, .index] rfl
  refine ite_eq_of_iff completed Iff.rfl (fun _ => ?reset) fun _ => ?_
  case reset =>
    have hclear := clearBuffer_eq h.atReset.columns_pos t.cells
    rw [usub_eq hrows, ok_bind]
    refine (congrArg (fun cleared : Checked Terminal => do
      let t ← cleared
      .ok (t.clearScreen.setParserState .ground)) hclear).trans ?_
    exact hdone [.reset] rfl
  exact hdone [] rfl

/-- A byte of a control sequence. -/
theorem csiByte_eq (h : t.WellFormed) (byte : UInt8) :
    t.csiByte byte = .ok (Screen.execAll (t.withParser (t.parser.csi byte).1)
      (t.parser.csi byte).2) := by
  have hpos := h.parser.count_pos
  have hle := h.parser.count_le
  have hread {i : Nat} (hi : i < terminalMaxParams) :
      readParameter t.parser i = .ok (t.parser.parameters i) := if_pos hi
  let result (r : Parser × List Command) : Checked Terminal :=
    .ok (Screen.execAll (t.withParser r.1) r.2)
  unfold csiByte Parser.csi
  rw [hread (by decide), ok_bind]
  refine ite_eq_of_iff result Iff.rfl (fun _ => rfl) fun _ => ?_
  refine ite_eq_of_iff result Iff.rfl (fun hdigit => ?digit) fun _ => ?_
  case digit =>
    have hlo : 0x30 ≤ byte.toNat := hdigit.1
    have hhi : byte.toNat ≤ 0x39 := hdigit.2
    have hindex : t.parser.parameterCount - 1 < terminalMaxParams := by omega
    have hdone := h.parser.digit hdigit.1 hdigit.2
    have hge := hdone.parameter_ge _ hindex
    have hmax := hdone.parameter_le _ hindex
    have hclamp (value : Int) : (if value < 0 then 0 else value) = max 0 value := by
      split <;> omega
    simp only [Parser.digit, Function.update_self] at hge hmax
    rw [usub_eq hpos, ok_bind, hread hindex, ok_bind]
    simp only [hclamp, writeParameter, if_pos hindex]
    rw [if_pos (by omega)]
    rfl
  refine ite_eq_of_iff result Iff.rfl (fun _ => ?separator) fun _ => ?_
  case separator =>
    unfold Parser.separator
    by_cases hroom : t.parser.parameterCount < terminalMaxParams
    · rw [if_pos hroom, if_pos hroom, writeParameter, if_pos hroom, if_pos (by omega)]
      rfl
    · rw [if_neg hroom, if_neg hroom]
      rfl
  refine ite_eq_of_iff result Iff.rfl (fun _ => ?dispatch) fun _ => ?ignored
  case dispatch =>
    rw [h.handleCsi_eq, ok_bind, execAll_setParserState]
  case ignored => rfl

/-- **One byte.** -/
theorem feedByte_eq (h : t.WellFormed) (byte : UInt8) :
    t.feedByte byte = .ok (Screen.feedByte t byte) := by
  let result (r : Parser × List Command) : Checked Terminal :=
    .ok (Screen.execAll (t.withParser r.1) r.2)
  show _ = result (t.parser.next byte)
  unfold Terminal.feedByte Parser.next
  refine ite_eq_of_iff result Iff.rfl (fun _ => ?esc) fun hesc => ?_
  case esc =>
    refine ite_eq_of_iff result Iff.rfl (fun _ => rfl) fun _ => ?_
    exact ite_eq_of_iff result Iff.rfl (fun _ => rfl) (fun _ => rfl)
  cases hstate : t.parser.state with
  | ground => exact h.handleGroundByte_eq hstate byte
  | escape => exact h.escapeByte_eq byte
  | csi => exact h.csiByte_eq byte
  | osc =>
      simp only [if_neg hesc]
      split
      · rfl
      · rw [← hstate]
        rfl
  | oscEscape => rfl

/-- **`WolfSshTerminalFeed` is the transducer in front of the screen.** -/
theorem feed_eq (h : t.WellFormed) (data : List UInt8) :
    t.feed data = .ok (Screen.feed t data) :=
  (foldlM_eq_foldl (fun _ byte hs => ⟨hs.feedByte_eq byte, hs.feedByte byte⟩) data h).1

end WellFormed

end WolfSshUefi.Terminal
