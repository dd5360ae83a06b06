import Mathlib.Data.List.Induction
import WolfSshUefi.Library.Traces
import WolfSshUefi.Terminal.Decoding
import WolfSshUefi.Terminal.Rendition

/-!
# Deferred wrap

A character in the last column leaves a wrap pending, and the next character is
carried to the next line.  Whatever else moves the cursor cancels the pending
wrap, but for `ESC 8` and `ESC c`: they move the cursor and leave the wrap
pending, and the character after them goes to the next line.  So the wrap
belongs to the last column along every stream of bytes in which these two do not
come upon a pending wrap (`wraps_at_end_iff`).
-/

namespace WolfSshUefi

namespace Terminal

/-- A deferred wrap belongs to the last column. -/
def WrapsAtEnd (t : Terminal) : Prop := t.wrapPending = true → t.column + 1 = t.columns

/-- The next character lands at the cursor, whatever it is. -/
def PrintsAtCursor (t : Terminal) : Prop :=
  ∀ character, character ≠ 0 ∧ character ≤ 0xffff →
    ∃ u, t.putCharacter character = .ok u ∧
      u.active t.row t.column = ⟨character, t.terminalAttribute⟩

/-- The byte completes `ESC 8` or `ESC c`. -/
def MovesBack (t : Terminal) (byte : UInt8) : Prop :=
  t.parser.state = .escape ∧ (byte = 0x38 ∨ byte = 0x63)

/-- The byte leaves a wrap pending in the last column only, and after `ESC 8` and
`ESC c` the next character lands at the cursor. -/
def WrapLaw (t : Terminal) (byte : UInt8) : Prop :=
  ∃ u, t.feedByte byte = .ok u ∧ u.WrapsAtEnd ∧ (t.MovesBack byte → u.PrintsAtCursor)

/-- In a screen of one column, the next line of this row is the row itself. -/
def WrapsOnto (t : Terminal) (row bottom : Nat) : Prop :=
  t.columns = 1 ∧ (row = bottom ∨ row + 1 = t.rows)

/-- `ESC 8` or `ESC c` comes upon a pending wrap, and that can be seen. -/
def StrandsWrap (t : Terminal) (byte : UInt8) : Prop :=
  t.parser.state = .escape ∧ t.wrapPending = true ∧
    (byte = 0x38 ∧ ¬ t.WrapsOnto (min t.savedRow (t.rows - 1)) t.scrollBottom ∨
      byte = 0x63 ∧ ¬ t.WrapsOnto 0 (t.rows - 1))

instance (t : Terminal) (byte : UInt8) : Decidable (t.StrandsWrap byte) := by
  unfold StrandsWrap WrapsOnto; infer_instance

end Terminal

/-! ### Where a character lands -/

namespace Screen

open Terminal

/-- After an index no wrap is pending. -/
theorem index_not_pending (t : Terminal) : (index t).wrapPending = false := by
  unfold index
  split <;> rfl

theorem reverseIndex_not_pending (t : Terminal) : (reverseIndex t).wrapPending = false := by
  unfold reverseIndex
  split <;> rfl

theorem wrap_not_pending (t : Terminal) : (wrap t).wrapPending = false := by
  cases hpending : t.wrapPending with
  | false => rw [wrap_of_not_pending hpending, hpending]
  | true =>
      rw [wrap, if_pos hpending]
      exact index_not_pending _

/-- A pending wrap takes the character to the start of the next line. -/
theorem wrap_cursor {t : Terminal} (hpending : t.wrapPending = true) :
    (wrap t).column = 0 ∧
      (wrap t).row =
        if t.row = t.scrollBottom then t.row
          else if t.row + 1 < t.rows then t.row + 1 else t.row := by
  unfold wrap index
  rw [if_pos hpending]
  by_cases hbottom : t.row = t.scrollBottom
  · rw [if_pos hbottom, if_pos hbottom]
    exact ⟨rfl, rfl⟩
  · rw [if_neg hbottom, if_neg hbottom]
    exact ⟨rfl, rfl⟩

/-- Writing a character leaves the cursor and the wrap. -/
theorem write_kept (t : Terminal) (character : Nat) :
    (write t character).column = t.column ∧ (write t character).columns = t.columns ∧
      (write t character).wrapPending = t.wrapPending := by
  unfold write
  split <;> exact ⟨rfl, rfl, rfl⟩

/-- The character is in the cell that the wrap takes it to. -/
theorem active_print_cursor {t : Terminal} (ht : t.WellFormed) (character : Nat) :
    (print t character).active (wrap t).row (wrap t).column =
      ⟨character, (wrap t).terminalAttribute⟩ := by
  have hactive : (print t character).active = (write (wrap t) character).active := rfl
  have hcolumn := ht.wrap.column_lt
  rw [hactive, active_write]
  split
  · simp only [Grid.shiftRight]
    rw [if_pos ⟨trivial, Nat.le_refl _, hcolumn⟩, if_neg (by omega)]
  · simp [Grid.fill]

/-- All other cells are the same whatever the character. -/
theorem active_print_elsewhere (t : Terminal) (character character' : Nat) {i j : Nat}
    (hplace : (i, j) ≠ ((wrap t).row, (wrap t).column)) :
    (print t character).active i j = (print t character').active i j := by
  have hactive (character : Nat) :
      (print t character).active = (write (wrap t) character).active := rfl
  have hother : ¬ (i = (wrap t).row ∧ j = (wrap t).column) := fun h => hplace (by rw [h.1, h.2])
  rw [hactive, hactive, active_write, active_write]
  split
  · simp only [Grid.shiftRight]
    by_cases hright : (wrap t).column + 1 ≤ j
    · rw [if_pos hright, if_pos hright]
    · rw [if_neg (by omega), if_neg (by omega)]
  · simp only [Grid.fill]
    rw [if_neg (by omega), if_neg (by omega)]

end Screen

namespace Terminal

open Screen

variable {t : Terminal}

/-- A wrap leaves the colours. -/
theorem terminalAttribute_wrap (t : Terminal) :
    (wrap t).terminalAttribute = t.terminalAttribute := by
  unfold Screen.wrap Screen.index
  split
  · split <;> rfl
  · rfl

/-- The next character lands at the cursor when no wrap is pending, or it wraps the
line onto itself. -/
theorem printsAtCursor_iff (ht : t.WellFormed) :
    t.PrintsAtCursor ↔ (t.row, t.column) = ((wrap t).row, (wrap t).column) := by
  constructor
  · intro hprints
    by_contra hplace
    -- elsewhere the cell cannot be both an A and a B
    obtain ⟨u, hu, hA⟩ := hprints 0x41 (by decide)
    obtain ⟨v, hv, hB⟩ := hprints 0x42 (by decide)
    rw [ht.putCharacter_eq (by decide)] at hu hv
    rw [← Except.ok.inj hu] at hA
    rw [← Except.ok.inj hv, active_print_elsewhere t 0x42 0x41 hplace, hA] at hB
    exact absurd (Cell.mk.inj hB).1 (by decide)
  · intro hplace character hvalid
    refine ⟨_, ht.putCharacter_eq hvalid, ?_⟩
    obtain ⟨hrow, hcolumn⟩ := Prod.mk.inj hplace
    have hcell := active_print_cursor ht character
    rw [← hrow, ← hcolumn, terminalAttribute_wrap] at hcell
    exact hcell

/-- Where no wrap is pending a character is printed at the cursor. -/
theorem printsAtCursor_of_not_pending (ht : t.WellFormed) (h : t.wrapPending = false) :
    t.PrintsAtCursor := by
  rw [printsAtCursor_iff ht, wrap_of_not_pending h]

/-- With a wrap pending, both halves of the law ask for one column. -/
theorem wraps_and_prints_iff (ht : t.WellFormed) (hpending : t.wrapPending = true) :
    t.WrapsAtEnd ∧ t.PrintsAtCursor ↔ t.WrapsOnto t.row t.scrollBottom := by
  have hrow := ht.row_lt
  obtain ⟨hcolumn', hrow'⟩ := wrap_cursor hpending
  rw [printsAtCursor_iff ht, hcolumn', hrow', Prod.mk.injEq]
  constructor
  · intro hlanding
    obtain ⟨hend, hsame, hhome⟩ := hlanding
    have hlast := hend hpending
    refine ⟨by omega, ?_⟩
    by_cases hbottom : t.row = t.scrollBottom
    · exact .inl hbottom
    · rw [if_neg hbottom] at hsame
      split at hsame <;> omega
  · intro honto
    obtain ⟨hone, hwhere⟩ := honto
    have hcolumn := ht.column_lt
    refine ⟨fun _ => by omega, ?_, by omega⟩
    rcases hwhere with hbottom | hlast
    · rw [if_pos hbottom]
    · split
      · rfl
      · rw [if_neg (by omega)]

/-! ### What keeps the law -/

/-- And there is nothing to ask of the end of the line. -/
theorem WrapsAtEnd.of_not_pending (h : t.wrapPending = false) : t.WrapsAtEnd := by
  intro hpending
  rw [h] at hpending
  cases hpending

/-- Printing leaves a wrap pending in the last column only. -/
theorem wrapsAtEnd_print (t : Terminal) (character : Nat) :
    (print t character).WrapsAtEnd := by
  obtain ⟨hcolumn, hcolumns, hpending⟩ := write_kept (wrap t) character
  rw [wrap_not_pending] at hpending
  intro hafter
  unfold Screen.print Screen.advance at hafter ⊢
  simp only [hpending, Bool.if_false_right, Bool.and_true, decide_eq_true_eq] at hafter
  simp only [if_pos hafter]
  exact hafter

/-- No other instruction of a byte outside control sequences leaves one pending that
was not, or moves the cursor below one, but the two that move it back. -/
theorem WrapsAtEnd.exec_simple (h : t.WrapsAtEnd) {c : Command} (hsimple : c.Simple)
    (hrestore : c ≠ .restoreCursor) (hreset : c ≠ .reset) : (exec t c).WrapsAtEnd := by
  cases c with
  | print character => exact wrapsAtEnd_print t character
  | saveCursor => exact h
  | carriageReturn | backspace | tab => exact .of_not_pending rfl
  | index => exact .of_not_pending (index_not_pending t)
  | reverseIndex => exact .of_not_pending (reverseIndex_not_pending t)
  | restoreCursor => exact absurd rfl hrestore
  | reset => exact absurd rfl hreset
  | _ => cases hsimple

/-- Whatever is not printed leaves no wrap pending where there was none. -/
theorem exec_not_pending (h : t.wrapPending = false) {c : Command}
    (hprint : ∀ character, c ≠ .print character) : (exec t c).wrapPending = false := by
  cases c with
  | print character => exact absurd rfl (hprint character)
  | index => exact index_not_pending t
  | reverseIndex => exact reverseIndex_not_pending t
  | carriageReturn | backspace | tab | cancelWrap => rfl
  | rendition change => cases change <;> exact h
  | eraseDisplay mode =>
      simp only [exec, Screen.eraseDisplay]
      repeat' split
      all_goals exact h
  | eraseLine mode =>
      simp only [exec, Screen.eraseLine]
      repeat' split
      all_goals exact h
  | margins top bottom =>
      simp only [exec, Screen.setMargins]
      split <;> exact h
  | insertLines count | deleteLines count =>
      simp only [exec]
      split <;> exact h
  | alternateScreen on =>
      simp only [exec, Screen.alternateScreen]
      repeat' split
      all_goals rfl
  | _ => exact h

/-- Without printing no wrap becomes pending. -/
theorem execAll_not_pending {commands : List Command} (h : t.wrapPending = false)
    (hprint : ∀ character, .print character ∉ commands) :
    (execAll t commands).wrapPending = false := by
  induction commands generalizing t with
  | nil => exact h
  | cons c rest ih =>
      have hfirst : ∀ character, c ≠ .print character := by
        intro character heq
        obtain rfl := heq
        exact hprint character List.mem_cons_self
      exact ih (exec_not_pending h hfirst) fun character hmem =>
        hprint character (List.mem_cons_of_mem c hmem)

/-- Text does not move the cursor back. -/
theorem notMem_ground (p : Parser) (byte : UInt8) {c : Command}
    (hc : c = .restoreCursor ∨ c = .reset) : c ∉ (p.ground byte).2 := by
  unfold Parser.ground
  repeat' split
  all_goals rcases hc with rfl | rfl <;> simp

/-- A byte of text neither restores the cursor nor resets. -/
theorem notMem_text (p : Parser) (byte : UInt8) {c : Command}
    (hc : c = .restoreCursor ∨ c = .reset) : c ∉ (p.text byte).2 := by
  have hprint (character : Nat) : c ≠ .print character := by rcases hc with rfl | rfl <;> simp
  unfold Parser.text
  split
  · exact notMem_ground p byte hc
  split
  · simp only [Parser.continuation]
    split
    · simpa using hprint _
    · simp
  · intro hmem
    rcases List.mem_cons.mp hmem with rfl | hrest
    · exact hprint _ rfl
    · exact notMem_ground _ byte hc hrest

/-- Outside control sequences only `ESC 8` and `ESC c` do. -/
theorem movesBack_of_mem {p : Parser} {byte : UInt8} (hplain : ¬ (p.state = .csi ∧ FinalByte byte))
    {c : Command} (hc : c = .restoreCursor ∨ c = .reset) (h : c ∈ (p.next byte).2) :
    p.state = .escape ∧ (byte = 0x38 ∨ byte = 0x63) := by
  unfold Parser.next at h
  split at h
  · repeat' split at h
    all_goals cases h
  split at h
  · exact absurd h (notMem_text p byte hc)
  · next hescape =>
      refine ⟨hescape, ?_⟩
      unfold Parser.escape at h
      repeat' split at h
      all_goals rcases hc with rfl | rfl <;> simp at h <;> first | exact .inl ‹_› | exact .inr ‹_›
  · next hcsi =>
      have hfinal : ¬ (byte ≥ 0x40 ∧ byte ≤ 0x7e) := fun hbyte => hplain ⟨hcsi, hbyte⟩
      unfold Parser.csi at h
      rw [if_neg hfinal] at h
      repeat' split at h
      all_goals cases h
  · cases h
  · cases h

/-- Simple instructions make a wrap pending at the end of the line only. -/
theorem WrapsAtEnd.execAll_simple (h : t.WrapsAtEnd) {commands : List Command}
    (hsimple : ∀ c ∈ commands, c.Simple) (hrestore : .restoreCursor ∉ commands)
    (hreset : .reset ∉ commands) : (execAll t commands).WrapsAtEnd := by
  induction commands generalizing t with
  | nil => exact h
  | cons c rest ih =>
      have hfirst : (exec t c).WrapsAtEnd := by
        apply h.exec_simple (hsimple c List.mem_cons_self)
        · intro heq
          obtain rfl := heq
          exact hrestore List.mem_cons_self
        · intro heq
          obtain rfl := heq
          exact hreset List.mem_cons_self
      exact ih hfirst (fun c' hmem => hsimple c' (List.mem_cons_of_mem c hmem))
        (fun hmem => hrestore (List.mem_cons_of_mem c hmem))
        (fun hmem => hreset (List.mem_cons_of_mem c hmem))

/-! ### One byte -/

/-- Every other byte leaves a wrap pending in the last column only. -/
theorem wrapsAtEnd_feedByte (h : t.WrapsAtEnd) {byte : UInt8} (hback : ¬ t.MovesBack byte) :
    (Screen.feedByte t byte).WrapsAtEnd := by
  rw [feedByte_eq_execAll]
  show (execAll t (t.parser.next byte).2).WrapsAtEnd
  by_cases hfinal : t.parser.state = .csi ∧ FinalByte byte
  · rw [Parser.next_final hfinal.1 hfinal.2, csiCommands, execAll_cons]
    exact .of_not_pending (execAll_not_pending rfl fun character hmem =>
      Parser.csiCommands_prints _ _ _ character (List.mem_cons_of_mem _ hmem))
  · have hsimple := (t.parser.next_simple_or_final byte).resolve_right hfinal
    exact h.execAll_simple hsimple
      (fun hmem => hback (movesBack_of_mem hfinal (.inl rfl) hmem))
      (fun hmem => hback (movesBack_of_mem hfinal (.inr rfl) hmem))

/-- `ESC 8` restores the cursor. -/
theorem feedByte_restore (hescape : t.parser.state = .escape) :
    Screen.feedByte t 0x38 =
      (exec t .restoreCursor).withParser { t.parser with state := .ground } := by
  have hnext : t.parser.next 0x38 = ({ t.parser with state := .ground }, [.restoreCursor]) := by
    unfold Parser.next
    rw [if_neg (by decide), hescape]
    rfl
  rw [feedByte_eq_execAll, hnext]
  rfl

/-- `ESC c` resets the terminal. -/
theorem feedByte_reset (hescape : t.parser.state = .escape) :
    Screen.feedByte t 0x63 = (exec t .reset).withParser { t.parser with state := .ground } := by
  have hnext : t.parser.next 0x63 = ({ t.parser with state := .ground }, [.reset]) := by
    unfold Parser.next
    rw [if_neg (by decide), hescape]
    rfl
  rw [feedByte_eq_execAll, hnext]
  rfl

/-- **One byte keeps the law exactly when** it strands no wrap. -/
theorem wrapLaw_iff (ht : t.WellFormed) (h : t.WrapsAtEnd) (byte : UInt8) :
    t.WrapLaw byte ↔ ¬ t.StrandsWrap byte := by
  have hstep : t.WrapLaw byte ↔ (Screen.feedByte t byte).WrapsAtEnd ∧
      (t.MovesBack byte → (Screen.feedByte t byte).PrintsAtCursor) := by
    unfold WrapLaw
    rw [ht.feedByte_eq byte]
    constructor
    · intro hholds
      obtain ⟨u, hu, hlaw⟩ := hholds
      rwa [← Except.ok.inj hu] at hlaw
    · exact fun hlaw => ⟨_, rfl, hlaw⟩
  have hafter := ht.feedByte byte
  rw [hstep]
  by_cases hback : t.MovesBack byte
  · have hboth : (Screen.feedByte t byte).WrapsAtEnd ∧
        (t.MovesBack byte → (Screen.feedByte t byte).PrintsAtCursor) ↔
        (Screen.feedByte t byte).WrapsAtEnd ∧ (Screen.feedByte t byte).PrintsAtCursor := by
      rw [forall_prop_of_true hback]
    rw [hboth]
    obtain ⟨hescape, hbyte⟩ := hback
    have hkept : (Screen.feedByte t byte).wrapPending = t.wrapPending := by
      rcases hbyte with rfl | rfl
      · rw [feedByte_restore hescape]
        rfl
      · rw [feedByte_reset hescape]
        rfl
    cases hpending : t.wrapPending with
    | false =>
        rw [hpending] at hkept
        refine iff_of_true ⟨.of_not_pending hkept, printsAtCursor_of_not_pending hafter hkept⟩ ?_
        intro hnext
        obtain ⟨-, hstill, -⟩ := hnext
        rw [hpending] at hstill
        cases hstill
    | true =>
        rw [hpending] at hkept
        rw [wraps_and_prints_iff hafter hkept]
        unfold StrandsWrap
        rcases hbyte with rfl | rfl
        · rw [feedByte_restore hescape]
          show t.WrapsOnto (min t.savedRow (t.rows - 1)) t.scrollBottom ↔ _
          simp [hescape, hpending]
        · rw [feedByte_reset hescape]
          show t.WrapsOnto 0 (t.rows - 1) ↔ _
          simp [hescape, hpending]
  · refine iff_of_true ⟨wrapsAtEnd_feedByte h hback, fun hmoves => absurd hmoves hback⟩ ?_
    intro hstrands
    obtain ⟨hescape, -, ⟨hbyte, -⟩ | ⟨hbyte, -⟩⟩ := hstrands
    · exact hback ⟨hescape, .inl hbyte⟩
    · exact hback ⟨hescape, .inr hbyte⟩

/-! ### Streams -/

/-- After bytes that keep the law, a pending wrap is in the last column. -/
theorem wrapsAtEnd_of_lawful (ht : t.WellFormed) (h : t.WrapsAtEnd) {data : List UInt8}
    (hlaw : Traces.Lawful (fun past byte => ∃ s, t.feed past = .ok s ∧ s.WrapLaw byte) data) :
    (Screen.feed t data).WrapsAtEnd := by
  rcases List.eq_nil_or_concat data with rfl | ⟨past, byte, rfl⟩
  · exact h
  rw [List.concat_eq_append] at hlaw ⊢
  obtain ⟨-, s, hs, u, hu, hend, -⟩ := Traces.lawful_snoc.mp hlaw
  rw [ht.feed_eq past] at hs
  obtain rfl := Except.ok.inj hs
  rw [(ht.feed past).feedByte_eq byte] at hu
  obtain rfl := Except.ok.inj hu
  rw [Screen.feed_append]
  exact hend

/-- **Deferred wrap belongs to the last column exactly along the streams** in which
no `ESC 8` or `ESC c` strands a pending wrap. -/
theorem wraps_at_end_iff (h : Created t) (data : List UInt8) :
    Traces.Lawful (fun past byte => ∃ s, t.feed past = .ok s ∧ s.WrapLaw byte) data ↔
      Traces.Lawful (fun past byte => ∃ s, t.feed past = .ok s ∧ ¬ s.StrandsWrap byte) data := by
  have ht := h.wellFormed
  have hstart : t.WrapsAtEnd := by
    obtain ⟨fw, rfl⟩ := h.eq_fresh
    exact .of_not_pending rfl
  induction data using List.reverseRecOn with
  | nil => exact iff_of_true Traces.lawful_nil Traces.lawful_nil
  | append_singleton past byte ih =>
      refine Traces.lawful_snoc.trans (Iff.trans ?_ Traces.lawful_snoc.symm)
      refine (and_congr_right fun hlaw => ?_).trans (and_congr_left fun _ => ih)
      have hend := wrapsAtEnd_of_lawful ht hstart hlaw
      have hbyte := wrapLaw_iff (ht.feed past) hend byte
      rw [ht.feed_eq past]
      constructor
      · intro hstrands
        obtain ⟨s, hs, hwrap⟩ := hstrands
        obtain rfl := Except.ok.inj hs
        exact ⟨_, rfl, hbyte.mp hwrap⟩
      · intro hstrands
        obtain ⟨s, hs, hkept⟩ := hstrands
        obtain rfl := Except.ok.inj hs
        exact ⟨_, rfl, hbyte.mpr hkept⟩

/-- A line of two characters, and one more on the next line. -/
theorem wraps_at_end_text :
    Traces.Lawful (fun past byte => ∃ s, (Firmware.ample 2 2 7).fresh.feed past = .ok s ∧
      s.WrapLaw byte) [0x61, 0x62, 0x63] := by
  have hwell := (created_ample 2 2 7).wellFormed
  have hkept {past : List UInt8} {byte : UInt8}
      (h : ¬ (Screen.feed (Firmware.ample 2 2 7).fresh past).StrandsWrap byte) :
      ∃ s, (Firmware.ample 2 2 7).fresh.feed past = .ok s ∧ ¬ s.StrandsWrap byte :=
    ⟨_, hwell.feed_eq past, h⟩
  rw [wraps_at_end_iff (created_ample 2 2 7)]
  show Traces.Lawful _ (((([] : List UInt8) ++ [0x61]) ++ [0x62]) ++ [0x63])
  rw [Traces.lawful_snoc, Traces.lawful_snoc, Traces.lawful_snoc]
  exact ⟨⟨⟨Traces.lawful_nil, hkept (by decide)⟩, hkept (by decide)⟩, hkept (by decide)⟩

/-- On a full line, `ESC c` leaves the wrap pending in the first column. -/
theorem reset_strands_wrap :
    ¬ Traces.Lawful (fun past byte => ∃ s, (Firmware.ample 2 2 7).fresh.feed past = .ok s ∧
      s.WrapLaw byte) [0x61, 0x62, 0x1b, 0x63] := by
  intro hlaw
  obtain ⟨s, hs, u, hu, hend, -⟩ := hlaw [0x61, 0x62, 0x1b] 0x63 [] rfl
  have hwell := (created_ample 2 2 7).wellFormed
  rw [hwell.feed_eq] at hs
  obtain rfl := Except.ok.inj hs
  rw [(hwell.feed _).feedByte_eq] at hu
  obtain rfl := Except.ok.inj hu
  exact absurd (hend (by decide)) (by decide)

end Terminal

end WolfSshUefi
