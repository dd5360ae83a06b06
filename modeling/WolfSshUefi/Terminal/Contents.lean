import WolfSshUefi.Terminal.Streams

/-!
# The characters in the cells

A cell holds a blank or a character that was printed.  So whatever is true of
the space and of every printed character is true of every character in the two
buffers (`Contains.exec`, `Contains.run`).
-/

namespace WolfSshUefi

/-- What the instruction prints is of the kind. -/
def Command.Prints (P : Nat → Prop) : Command → Prop
  | .print character => P character
  | _ => True

namespace Terminal

/-- The characters of both buffers are of the kind. -/
structure Contains (P : Nat → Prop) (t : Terminal) : Prop where
  primary : t.primary.All t.rows t.columns fun cell => P cell.character
  alternate : t.alternate.All t.rows t.columns fun cell => P cell.character

namespace Contains

variable {P : Nat → Prop} {t : Terminal}

/-- A change of other fields. -/
theorem of_eq (h : t.Contains P) {u : Terminal} (hrows : u.rows = t.rows)
    (hcolumns : u.columns = t.columns) (hprimary : u.primary = t.primary)
    (halternate : u.alternate = t.alternate) : u.Contains P := by
  constructor
  · rw [hrows, hcolumns, hprimary]
    exact h.primary
  · rw [hrows, hcolumns, halternate]
    exact h.alternate

/-- An edit that brings in no other character. -/
theorem edit (h : t.Contains P) {f : Grid Cell → Grid Cell}
    (hf : ∀ g : Grid Cell, (g.All t.rows t.columns fun cell => P cell.character) →
      (f g).All t.rows t.columns fun cell => P cell.character) : (t.edit f).Contains P := by
  constructor
  · change (if t.cells = .primary then f t.primary else t.primary).All _ _ _
    split
    · exact hf _ h.primary
    · exact h.primary
  · change (if t.cells = .alternate then f t.alternate else t.alternate).All _ _ _
    split
    · exact hf _ h.alternate
    · exact h.alternate

/-- The same with marks. -/
theorem edit_mark (h : t.Contains P) {f : Grid Cell → Grid Cell}
    (hf : ∀ g : Grid Cell, (g.All t.rows t.columns fun cell => P cell.character) →
      (f g).All t.rows t.columns fun cell => P cell.character) (first count left right : Nat) :
    (Screen.mark (t.edit f) first count left right).Contains P :=
  (h.edit hf).of_eq rfl rfl rfl rfl

variable (hspace : P 0x20)

include hspace

/-- Blanks are always among the characters. -/
theorem erase (h : t.Contains P) (first count left right : Nat) :
    (Screen.erase t first count left right t.blank).Contains P :=
  h.edit_mark (fun _ hg => hg.fill hspace _ _ _ _) _ _ _ _

/-- Moving rows up brings in blanks only. -/
theorem moveUp (h : t.Contains P) (hw : t.WellFormed) (top count : Nat) :
    (Screen.moveUp t top count).Contains P :=
  h.edit_mark (fun _ hg => hg.shiftUp hspace hw.bottom_lt _ _ _) _ _ _ _

theorem moveDown (h : t.Contains P) (top count : Nat) : (Screen.moveDown t top count).Contains P :=
  h.edit_mark (fun _ hg => hg.shiftDown hspace _ _ _ _) _ _ _ _

theorem index (h : t.Contains P) (hw : t.WellFormed) : (Screen.index t).Contains P := by
  have hcancel : (Screen.cancelWrap t).Contains P := h.of_eq rfl rfl rfl rfl
  unfold Screen.index
  split
  · exact moveUp hspace hcancel hw.cancelWrap _ _
  · exact h.of_eq rfl rfl rfl rfl

theorem reverseIndex (h : t.Contains P) : (Screen.reverseIndex t).Contains P := by
  have hcancel : (Screen.cancelWrap t).Contains P := h.of_eq rfl rfl rfl rfl
  unfold Screen.reverseIndex
  split
  · exact moveDown hspace hcancel _ _
  · exact h.of_eq rfl rfl rfl rfl

/-- Printing brings in its character. -/
theorem print (h : t.Contains P) (hw : t.WellFormed) {character : Nat} (hc : P character) :
    (Screen.print t character).Contains P := by
  have hwrap : (Screen.wrap t).Contains P := by
    unfold Screen.wrap
    split
    · have hhome : { t with column := 0 }.WellFormed := { hw with column_lt := hw.columns_pos }
      exact index hspace (h.of_eq rfl rfl rfl rfl) hhome
    · exact h
  have hwrite : (Screen.write (Screen.wrap t) character).Contains P := by
    unfold Screen.write
    split
    · exact hwrap.edit_mark (fun _ hg => hg.shiftRight hc _ _ _ _) _ _ _ _
    · exact hwrap.edit_mark (fun _ hg => hg.fill hc _ _ _ _) _ _ _ _
  exact hwrite.of_eq rfl rfl rfl rfl

/-- Clearing brings in blanks. -/
theorem clear (h : t.Contains P) : (Screen.clear t).Contains P :=
  h.edit fun _ hg => hg.fill hspace _ _ _ _

/-- So does every mode of `CSI J`. -/
theorem eraseDisplay (h : t.Contains P) (mode : Nat) : (Screen.eraseDisplay t mode).Contains P := by
  unfold Screen.eraseDisplay
  split
  · exact (clear hspace h).of_eq rfl rfl rfl rfl
  split
  · have hfirst := erase hspace h 0 t.row 0 (t.columns - 1)
    exact hfirst.edit_mark (fun _ hg => hg.fill hspace _ _ _ _) _ _ _ _
  · have hfirst := erase hspace h t.row 1 t.column (t.columns - 1)
    exact hfirst.edit_mark (fun _ hg => hg.fill hspace _ _ _ _) _ _ _ _

/-- So does every mode of `CSI K`. -/
theorem eraseLine (h : t.Contains P) (mode : Nat) : (Screen.eraseLine t mode).Contains P := by
  unfold Screen.eraseLine
  split
  · exact erase hspace h _ _ _ _
  split
  · exact erase hspace h _ _ _ _
  · exact erase hspace h _ _ _ _

/-- Switching brings in no other character. -/
theorem alternateScreen (h : t.Contains P) (on : Bool) : (Screen.alternateScreen t on).Contains P := by
  unfold Screen.alternateScreen
  split
  · exact h.of_eq rfl rfl rfl rfl
  split
  · have henter : { Screen.cancelWrap t with
        primaryRow := t.row, primaryColumn := t.column
        cells := .alternate, alternateActive := true, row := 0, column := 0
        scrollTop := 0, scrollBottom := t.rows - 1 }.Contains P := h.of_eq rfl rfl rfl rfl
    exact (clear hspace henter).of_eq rfl rfl rfl rfl
  · exact h.of_eq rfl rfl rfl rfl

/-- **Every instruction keeps the kind** of the characters. -/
theorem exec (h : t.Contains P) (hw : t.WellFormed) {c : Command} (hc : c.Prints P) :
    (Screen.exec t c).Contains P := by
  cases c with
  | print character => exact print hspace h hw hc
  | index => exact index hspace h hw
  | reverseIndex => exact reverseIndex hspace h
  | reset =>
      have hhome : { t with
          foreground := t.defaultForeground, background := t.defaultBackground
          bold := false, reverse := false, row := 0, column := 0
          scrollTop := 0, scrollBottom := t.rows - 1 }.Contains P := h.of_eq rfl rfl rfl rfl
      exact (clear hspace hhome).of_eq rfl rfl rfl rfl
  | eraseDisplay mode => exact eraseDisplay hspace h mode
  | eraseLine mode => exact eraseLine hspace h mode
  | rendition change => cases change <;> exact h.of_eq rfl rfl rfl rfl
  | margins top bottom =>
      change (Screen.setMargins t top bottom).Contains P
      unfold Screen.setMargins
      split
      · exact h.of_eq rfl rfl rfl rfl
      · exact h
  | insertLines count =>
      change (if Screen.InMargins t then Screen.moveDown t t.row count else t).Contains P
      split
      · exact moveDown hspace h _ _
      · exact h
  | deleteLines count =>
      change (if Screen.InMargins t then Screen.moveUp t t.row count else t).Contains P
      split
      · exact moveUp hspace h hw _ _
      · exact h
  | insertCharacters count =>
      exact h.edit_mark (fun _ hg => hg.shiftRight hspace _ _ _ _) _ _ _ _
  | deleteCharacters count =>
      exact h.edit_mark (fun _ hg => hg.shiftLeft hspace _ _ _) _ _ _ _
  | eraseCharacters count => exact erase hspace h _ _ _ _
  | scrollUp count => exact moveUp hspace h hw _ _
  | scrollDown count => exact moveDown hspace h _ _
  | alternateScreen on => exact alternateScreen hspace h on
  | _ => exact h.of_eq rfl rfl rfl rfl

/-- Instructions bring in what they print. -/
theorem execAll (h : t.Contains P) (hw : t.WellFormed) {commands : List Command}
    (hvalid : ∀ c ∈ commands, c.Valid) (hc : ∀ c ∈ commands, c.Prints P) :
    (Screen.execAll t commands).Contains P := by
  induction commands generalizing t with
  | nil => exact h
  | cons c rest ih =>
      exact ih (exec hspace h hw (hc c List.mem_cons_self)) (hw.exec (hvalid c List.mem_cons_self))
        (fun c' hc' => hvalid c' (List.mem_cons_of_mem c hc'))
        (fun c' hc' => hc c' (List.mem_cons_of_mem c hc'))

/-- **A feed brings in what its bytes print.** -/
theorem feed (h : t.Contains P) (hw : t.WellFormed) {data : List UInt8}
    (hc : ∀ c ∈ t.parser.commands data, c.Prints P) : (Screen.feed t data).Contains P := by
  rw [Screen.feed_eq_execAll]
  exact (execAll hspace h hw (t.parser.commands_valid data) hc).of_eq rfl rfl rfl rfl

/-- A new terminal is blank. -/
theorem fresh (fw : Firmware) : fw.fresh.Contains P := by
  have hblank : P fw.fresh.defaultBlank.character := hspace
  exact ⟨Grid.all_fill_screen (P := fun cell : Cell => P cell.character) hblank fw.primaryPool,
    Grid.all_fill_screen (P := fun cell : Cell => P cell.character) hblank fw.alternatePool⟩

end Contains

/-! ### Runs -/

/-- All bytes that the calls feed. -/
def fed (calls : List Call) : List UInt8 :=
  calls.flatMap fun
    | .feed data => data
    | _ => []

/-- **In a run** the parser has read what was fed, and the characters are of the
kind when all that was printed is. -/
theorem WellFormed.run_contains {P : Nat → Prop} (hspace : P 0x20) {t : Terminal} (hw : t.WellFormed)
    (h : t.Contains P) {calls : List Call}
    (hc : ∀ c ∈ t.parser.commands (fed calls), c.Prints P) {t' : Terminal}
    (hrun : t.run calls = .ok t') : t'.Contains P ∧ t'.parser = t.parser.after (fed calls) := by
  induction calls generalizing t with
  | nil =>
      obtain rfl := Except.ok.inj hrun
      exact ⟨h, rfl⟩
  | cons c rest ih =>
      obtain ⟨next, hperform, hstep⟩ := hw.perform_eq c
      unfold run at hrun
      rw [List.foldlM_cons, hperform] at hrun
      have hnext := hw.step hstep
      cases hstep with
      | feed data =>
          have hfed : fed (.feed data :: rest) = data ++ fed rest := rfl
          rw [hfed, Parser.commands_append] at hc
          have hfirst := Contains.feed hspace h hw fun c hmem => hc c (List.mem_append_left _ hmem)
          obtain ⟨hholds, hparser⟩ := ih hnext hfirst
            (fun c hmem => hc c (List.mem_append_right _ (by rwa [Screen.parser_feed] at hmem))) hrun
          rw [hfed, Parser.after_append]
          rw [Screen.parser_feed] at hparser
          exact ⟨hholds, hparser⟩
      | @flush buffer painting hpainting =>
          have hkept : (t.painted t.rows buffer (t.flushCalls painting)).Contains P :=
            h.of_eq rfl rfl rfl rfl
          have hrest := ih hnext hkept hc hrun
          exact hrest
      | @takeResponse capacity replies hreplies =>
          have hkept : { t with
              replies := replies, replyLength := t.replyLength - capacity }.Contains P :=
            h.of_eq rfl rfl rfl rfl
          have hrest := ih hnext hkept hc hrun
          exact hrest

end Terminal

end WolfSshUefi
