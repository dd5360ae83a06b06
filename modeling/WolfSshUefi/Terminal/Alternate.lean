import WolfSshUefi.Terminal.Fields

/-!
# The alternate screen

While the alternate screen is active the primary buffer and the saved cursor
are out of reach: every instruction writes through `Cells`, and only leaving
the alternate screen points `Cells` back.  So what a program does on the
alternate screen is undone as a whole when it leaves.
-/

namespace WolfSshUefi

/-- `ESC [ ? 1049 h` -/
def enterAlternateSequence : List UInt8 :=
  controlSequence [0x3f, 0x31, 0x30, 0x34, 0x39] 0x68

/-- `ESC [ ? 1049 l` -/
def leaveAlternateSequence : List UInt8 :=
  controlSequence [0x3f, 0x31, 0x30, 0x34, 0x39] 0x6c

/-- The byte resets private mode 47, 1047 or 1049. -/
def Parser.ResetsAlternate (p : Parser) (byte : UInt8) : Prop :=
  p.state = .csi ∧ byte = 0x6c ∧ p.privateCsi = true ∧
    ∃ mode ∈ p.params, mode = 47 ∨ mode = 1047 ∨ mode = 1049

/-- Only the reset of the modes 47, 1047 and 1049 leaves the alternate screen. -/
theorem leave_mem_modeCommands {privateCsi on : Bool} {mode : Nat}
    (h : Command.alternateScreen false ∈ modeCommands privateCsi on mode) :
    privateCsi = true ∧ on = false ∧ (mode = 47 ∨ mode = 1047 ∨ mode = 1049) := by
  unfold modeCommands at h
  repeat' split at h
  all_goals simp at h
  next hprivate _ _ hmode => exact ⟨hprivate, h, hmode⟩

/-- Only `CSI ? … l` with one of the three modes leaves the alternate screen. -/
theorem leave_mem_csiAction {final : CsiFinal} {privateCsi : Bool} {params : List Int}
    (h : Command.alternateScreen false ∈ csiAction final privateCsi params) :
    final = .resetModes ∧ privateCsi = true ∧
      ∃ mode ∈ params, mode = 47 ∨ mode = 1047 ∨ mode = 1049 := by
  cases final with
  | setModes =>
      obtain ⟨mode, -, hmode⟩ := List.mem_flatMap.mp h
      exact absurd (leave_mem_modeCommands hmode).2.1 (by decide)
  | resetModes =>
      obtain ⟨mode, hmem, hmode⟩ := List.mem_flatMap.mp h
      obtain ⟨hprivate, -, hthree⟩ := leave_mem_modeCommands hmode
      obtain ⟨param, hparam, rfl⟩ := List.mem_map.mp hmem
      exact ⟨rfl, hprivate, param, hparam, by omega⟩
  | rendition =>
      obtain ⟨change, -, hchange⟩ := List.mem_map.mp h
      cases hchange
  | report =>
      simp only [csiAction] at h
      repeat' split at h
      all_goals simp at h
  | _ => simp [csiAction] at h

/-- The final byte of a reset is `l`. -/
theorem csiFinal_eq_resetModes {byte : UInt8} (h : csiFinal byte = .resetModes) : byte = 0x6c := by
  unfold csiFinal at h
  split at h <;> first | rfl | cases h

/-- A byte that leaves the alternate screen ends such a reset. -/
theorem leave_mem_next {p : Parser} {byte : UInt8}
    (h : Command.alternateScreen false ∈ (p.next byte).2) : p.ResetsAlternate byte := by
  rcases p.next_simple_or_final byte with hsimple | ⟨hcsi, hfinal⟩
  · exact absurd (hsimple _ h) id
  · rw [Parser.next_final hcsi hfinal] at h
    rcases List.mem_cons.mp h with hcancel | haction
    · cases hcancel
    · obtain ⟨hreset, hprivate, hmode⟩ := leave_mem_csiAction haction
      exact ⟨hcsi, csiFinal_eq_resetModes hreset, hprivate, hmode⟩

/-! ### On the alternate screen -/

/-- The alternate screen is active, over a primary screen in state `before`. -/
structure Terminal.Shelters (before t : Terminal) : Prop where
  rows : t.rows = before.rows
  columns : t.columns = before.columns
  cells : t.cells = .alternate
  alternateActive : t.alternateActive = true
  primary : t.primary = before.primary
  primaryRow : t.primaryRow = before.row
  primaryColumn : t.primaryColumn = before.column

namespace Terminal.Shelters

open Screen

variable {before t : Terminal}

/-- An edit goes to the alternate buffer. -/
theorem edit (h : before.Shelters t) (f : Grid Cell → Grid Cell) : before.Shelters (t.edit f) := by
  have hprimary : (t.edit f).primary = before.primary := by
    simp only [Terminal.edit, editBuffer, h.cells]
    exact h.primary
  exact { h with primary := hprimary }

/-- Marking leaves the sheltered screen alone. -/
theorem mark (h : before.Shelters t) (first count left right : Nat) :
    before.Shelters (mark t first count left right) :=
  { h with }

theorem erase (h : before.Shelters t) (first count left right : Nat) (cell : Cell) :
    before.Shelters (erase t first count left right cell) :=
  (h.edit _).mark _ _ _ _

theorem moveUp (h : before.Shelters t) (top count : Nat) : before.Shelters (moveUp t top count) :=
  (h.edit _).mark _ _ _ _

theorem moveDown (h : before.Shelters t) (top count : Nat) :
    before.Shelters (moveDown t top count) :=
  (h.edit _).mark _ _ _ _

theorem cancelWrap (h : before.Shelters t) : before.Shelters (cancelWrap t) := { h with }

theorem index (h : before.Shelters t) : before.Shelters (index t) := by
  unfold Screen.index
  split
  · exact h.cancelWrap.moveUp _ _
  · exact { h with }

theorem print (h : before.Shelters t) (character : Nat) : before.Shelters (print t character) := by
  have hwrap : before.Shelters (wrap t) := by
    unfold Screen.wrap
    split
    · exact index { h with }
    · exact h
  have hwrite : before.Shelters (write (wrap t) character) := by
    unfold Screen.write
    split
    · exact (hwrap.edit _).mark _ _ _ _
    · exact hwrap.erase _ _ _ _ _
  exact { hwrite with }

theorem clear (h : before.Shelters t) : before.Shelters (clear t) := h.edit _

/-- **No instruction but leaving reaches the primary screen.** -/
theorem exec (h : before.Shelters t) {c : Command} (hc : c ≠ .alternateScreen false) :
    before.Shelters (exec t c) := by
  cases c with
  | print character => exact h.print character
  | index => exact h.index
  | reverseIndex =>
      simp only [Screen.exec, reverseIndex]
      split
      · exact h.cancelWrap.moveDown _ _
      · exact { h with }
  | reset =>
      have hhome : before.Shelters { t with
          foreground := t.defaultForeground, background := t.defaultBackground
          bold := false, reverse := false, row := 0, column := 0
          scrollTop := 0, scrollBottom := t.rows - 1 } := { h with }
      exact { hhome.clear with }
  | eraseDisplay mode =>
      simp only [Screen.exec, Screen.eraseDisplay]
      split
      · exact { h.clear with }
      · split
        · exact (h.erase _ _ _ _ _).erase _ _ _ _ _
        · exact (h.erase _ _ _ _ _).erase _ _ _ _ _
  | eraseLine mode =>
      simp only [Screen.exec, Screen.eraseLine]
      repeat' split
      all_goals exact h.erase _ _ _ _ _
  | rendition change => cases change <;> exact { h with }
  | margins top bottom =>
      simp only [Screen.exec, setMargins]
      split <;> exact { h with }
  | insertLines count =>
      simp only [Screen.exec]
      split
      · exact h.moveDown _ _
      · exact h
  | deleteLines count =>
      simp only [Screen.exec]
      split
      · exact h.moveUp _ _
      · exact h
  | insertCharacters count | deleteCharacters count => exact (h.edit _).mark _ _ _ _
  | eraseCharacters count => exact h.erase _ _ _ _ _
  | scrollUp count => exact h.moveUp _ _
  | scrollDown count => exact h.moveDown _ _
  | alternateScreen on =>
      -- entering again leaves the saved cursor alone
      cases on with
      | false => exact absurd rfl hc
      | true =>
          simp only [Screen.exec, alternateScreen, h.alternateActive, if_true]
          exact { h with }
  | _ => exact { h with }

/-- **No instruction but leaving** touches the sheltered screen. -/
theorem execAll (h : before.Shelters t) {commands : List Command}
    (hc : Command.alternateScreen false ∉ commands) : before.Shelters (execAll t commands) := by
  induction commands generalizing t with
  | nil => exact h
  | cons c rest ih =>
      have hfirst : c ≠ .alternateScreen false := by
        intro heq
        obtain rfl := heq
        exact hc List.mem_cons_self
      exact ih (h.exec hfirst) (fun hrest => hc (List.mem_cons_of_mem c hrest))

/-- The parser is not sheltered. -/
theorem withParser (h : before.Shelters t) (p : Parser) : before.Shelters (t.withParser p) :=
  { h with }

/-- A stream that resets none of the three modes stays on the alternate screen. -/
theorem feed (h : before.Shelters t) {data : List UInt8}
    (hdata : ∀ first byte rest, data = first ++ byte :: rest →
      ¬ (t.parser.after first).ResetsAlternate byte) : before.Shelters (Screen.feed t data) := by
  rw [feed_eq_execAll]
  refine (h.execAll ?_).withParser _
  intro hleave
  obtain ⟨first, byte, rest, hsplit, hbyte⟩ := Transducer.mem_outputs hleave
  exact hdata first byte rest hsplit (leave_mem_next hbyte)

end Terminal.Shelters

/-! ### In and out -/

/-- The primary screen is back as it was, and all of it has to be painted. -/
structure Terminal.Restores (before t : Terminal) : Prop where
  cells : t.cells = .primary
  alternateActive : t.alternateActive = false
  primary : t.primary = before.primary
  row : t.row = before.row
  column : t.column = before.column
  dirty : ∀ r, r < t.rows → t.dirtyStart r = 0 ∧ t.dirtyEnd r = t.columns - 1

namespace Screen

open Terminal

variable {t : Terminal}

/-- Both sequences carry the one parameter 1049. -/
theorem collected_alternate (p : Parser) :
    (p.collected [0x3f, 0x31, 0x30, 0x34, 0x39]).privateCsi = true ∧
      (p.collected [0x3f, 0x31, 0x30, 0x34, 0x39]).params = [1049] := by
  have hdigits : ∀ field ∈ [[0x31, 0x30, 0x34, 0x39]], ∀ b ∈ field, DigitByte b := by
    simp [DigitByte]
  have hbody : parameterPart true ([0x3b].intercalate [[0x31, 0x30, 0x34, 0x39]]) =
      [0x3f, 0x31, 0x30, 0x34, 0x39] := by
    simp [parameterPart]
  have hvalue : [[0x31, 0x30, 0x34, 0x39]].map parameterOf = [1049] := by decide
  have hcollected := p.collected_digits true (List.cons_ne_nil _ _) (by simp) hdigits
  rwa [hbody, hvalue] at hcollected

/-- Entering the alternate screen shelters the primary one. -/
theorem feed_enterAlternate (hground : t.parser.state = .ground)
    (hprimary : t.alternateActive = false) : t.Shelters (feed t enterAlternateSequence) := by
  obtain ⟨hprivate, hparams⟩ := collected_alternate t.parser
  have henter : exec (cancelWrap t) (.alternateScreen true) =
      enterAlternate (cancelWrap (cancelWrap t)) := by
    simp only [exec, alternateScreen]
    rw [if_neg (by simp [cancelWrap, hprimary])]
    rfl
  unfold enterAlternateSequence
  rw [feed_controlSequence (.of_ground hground) (by decide +kernel) (by decide), hprivate, hparams]
  apply Shelters.withParser
  change t.Shelters (exec (cancelWrap t) (.alternateScreen true))
  rw [henter]
  exact ⟨rfl, rfl, rfl, rfl, rfl, rfl, rfl⟩

/-- Leaving it brings the sheltered screen back. -/
theorem feed_leaveAlternate {before : Terminal} (hbefore : before.WellFormed)
    (h : before.Shelters t) (ht : t.WellFormed) (hground : t.parser.state = .ground) :
    before.Restores (feed t leaveAlternateSequence) := by
  obtain ⟨hprivate, hparams⟩ := collected_alternate t.parser
  have hleave : exec (cancelWrap t) (.alternateScreen false) =
      leaveAlternate (cancelWrap (cancelWrap t)) := by
    simp only [exec, alternateScreen]
    rw [if_neg (by simp [cancelWrap, h.alternateActive])]
    rfl
  unfold leaveAlternateSequence
  rw [feed_controlSequence (.of_ground hground) (by decide +kernel) (by decide), hprivate, hparams]
  change before.Restores ((exec (cancelWrap t) (.alternateScreen false)).withParser _)
  rw [hleave]
  have hrow : min t.primaryRow (t.rows - 1) = before.row := by
    have hlt := hbefore.row_lt
    rw [h.primaryRow, h.rows]
    omega
  have hcolumn : min t.primaryColumn (t.columns - 1) = before.column := by
    have hlt := hbefore.column_lt
    rw [h.primaryColumn, h.columns]
    omega
  refine ⟨rfl, rfl, h.primary, hrow, hcolumn, ?_⟩
  intro r hr
  have hend := ht.dirty_end r hr
  have hin : 0 ≤ r ∧ r < 0 + t.rows := ⟨Nat.zero_le r, by rw [Nat.zero_add]; exact hr⟩
  have hlast : max (t.dirtyEnd r) (t.columns - 1) = t.columns - 1 :=
    Nat.max_eq_right (by omega)
  exact ⟨(if_pos hin).trans (Nat.min_zero _), (if_pos hin).trans hlast⟩

end Screen

namespace Terminal

/-- **The alternate screen is isolated.**  Entering it, feeding any bytes that
do not reset mode 47, 1047 or 1049, and leaving it brings the primary screen
back. -/
theorem alternate_isolated {t : Terminal} (h : Reachable t) (hground : t.parser.state = .ground)
    (hprimary : t.alternateActive = false) {w : List UInt8} {u : Terminal}
    (hfeed : t.feed (enterAlternateSequence ++ w) = .ok u)
    (hreset : ∀ first byte rest v, w = first ++ byte :: rest →
      t.feed (enterAlternateSequence ++ first) = .ok v → ¬ v.parser.ResetsAlternate byte)
    (hend : u.parser.state = .ground) :
    ∃ v, t.feed (enterAlternateSequence ++ w ++ leaveAlternateSequence) = .ok v ∧
      t.Restores v := by
  have ht := h.wellFormed
  rw [ht.feed_eq, Except.ok.injEq, Screen.feed_append] at hfeed
  have hentered := Screen.feed_enterAlternate hground hprimary
  have hshelters : t.Shelters u := by
    rw [← hfeed]
    refine hentered.feed ?_
    intro first byte rest hsplit
    rw [← Screen.parser_feed, ← Screen.feed_append]
    exact hreset first byte rest _ hsplit (ht.feed_eq _)
  have hu : u.WellFormed := by
    rw [← hfeed]
    exact (ht.feed _).feed _
  refine ⟨_, ht.feed_eq _, ?_⟩
  rw [Screen.feed_append, Screen.feed_append, hfeed]
  exact Screen.feed_leaveAlternate ht hshelters hu hend

/-- A program that writes, sets margins and resets the terminal. -/
theorem alternate_isolated_reset :
    ∃ v, (Firmware.ample 2 3 7).fresh.feed (enterAlternateSequence ++
        [0x41, 0x1b, 0x5b, 0x31, 0x3b, 0x32, 0x72, 0x0a, 0x1b, 0x63] ++
        leaveAlternateSequence) = .ok v ∧
      (Firmware.ample 2 3 7).fresh.Restores v := by
  refine alternate_isolated (created_ample 2 3 7).reachable rfl rfl
    ((created_ample 2 3 7).wellFormed.feed_eq _) ?_ rfl
  intro first byte rest v hsplit _ hall
  obtain ⟨-, rfl, -⟩ := hall
  have hmem : (0x6c : UInt8) ∈ first ++ 0x6c :: rest := by simp
  rw [← hsplit] at hmem
  exact absurd hmem (by decide)

end Terminal

end WolfSshUefi
