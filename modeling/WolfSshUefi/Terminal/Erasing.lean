import Mathlib.Data.Set.Basic
import WolfSshUefi.Terminal.Escapes
import WolfSshUefi.Terminal.Saturation
import WolfSshUefi.Terminal.WellFormed

/-!
# Erasing by halves

The screen, or the cursor line, is erased from the cursor on, up to the cursor,
or as a whole.  The two halves put the colours in force into the cells they blank
(`feed_onward`, `feed_upTo`), and one after the other they blank everything.  The whole line is
blanked in these colours too (`line_by_halves`), but the whole screen in the
default ones, so it is erased as by its halves exactly when the colours in force
are the default (`erased_by_halves_iff`).
-/

namespace WolfSshUefi

/-- What is erased. -/
inductive Extent
  | display    -- CSI J
  | line       -- CSI K

namespace Extent

def final : Extent → UInt8
  | .display => 0x4a
  | .line => 0x4b

/-- `CSI 0`, `CSI 1` or `CSI 2` and the final byte -/
def sequence (extent : Extent) (mode : UInt8) : List UInt8 := controlSequence [mode] extent.final

/-- From the cursor on in reading order, the cursor included. -/
def onward (t : Terminal) : Extent → Set (Nat × Nat)
  | .display => { place | t.row < place.1 ∨ place.1 = t.row ∧ t.column ≤ place.2 }
  | .line => { place | place.1 = t.row ∧ t.column ≤ place.2 }

/-- Up to the cursor in reading order, the cursor included. -/
def upTo (t : Terminal) : Extent → Set (Nat × Nat)
  | .display => { place | place.1 < t.row ∨ place.1 = t.row ∧ place.2 ≤ t.column }
  | .line => { place | place.1 = t.row ∧ place.2 ≤ t.column }

end Extent

namespace Terminal

/-- Exactly the cells of these places have been blanked, and the cursor is where it was. -/
structure Erased (t u : Terminal) (places : Set (Nat × Nat)) (blank : Cell) : Prop where
  blanked : ∀ i j, i < t.rows → j < t.columns → (i, j) ∈ places → u.active i j = blank
  kept : ∀ i j, i < t.rows → j < t.columns → (i, j) ∉ places → u.active i j = t.active i j
  cursor : u.row = t.row ∧ u.column = t.column

/-- The same cells on the screen and the same cursor. -/
structure LooksAlike (t u v : Terminal) : Prop where
  cells : ∀ i j, i < t.rows → j < t.columns → u.active i j = v.active i j
  cursor : u.row = v.row ∧ u.column = v.column

/-- Each half blanks its cells, and the whole is one half and then the other. -/
structure ErasedByHalves (t : Terminal) (extent : Extent) : Prop where
  onward : ∃ u, t.feed (extent.sequence 0x30) = .ok u ∧ Erased t u (extent.onward t) t.blank
  upTo : ∃ u, t.feed (extent.sequence 0x31) = .ok u ∧ Erased t u (extent.upTo t) t.blank
  whole : ∃ u v, t.feed (extent.sequence 0x32) = .ok u ∧
    t.feed (extent.sequence 0x31 ++ extent.sequence 0x30) = .ok v ∧ LooksAlike t u v

variable {t u v : Terminal}

/-! ### Erasing sets of places -/

/-- What is erased first and what is erased next. -/
theorem Erased.trans {first next : Set (Nat × Nat)} {blank : Cell}
    (h : Erased t u first blank) (hnext : Erased u v next blank) (hrows : u.rows = t.rows)
    (hcolumns : u.columns = t.columns) : Erased t v (first ∪ next) blank := by
  refine ⟨?_, ?_, hnext.cursor.1.trans h.cursor.1, hnext.cursor.2.trans h.cursor.2⟩
  · intro i j hi hj hplace
    by_cases hlater : (i, j) ∈ next
    · exact hnext.blanked i j (hrows ▸ hi) (hcolumns ▸ hj) hlater
    · rw [hnext.kept i j (hrows ▸ hi) (hcolumns ▸ hj) hlater]
      exact h.blanked i j hi hj (hplace.resolve_right hlater)
  · intro i j hi hj hplace
    rw [hnext.kept i j (hrows ▸ hi) (hcolumns ▸ hj) fun hlater => hplace (.inr hlater)]
    exact h.kept i j hi hj fun hearlier => hplace (.inl hearlier)

/-- Only the places on the screen matter. -/
theorem Erased.of_iff {places other : Set (Nat × Nat)} {blank : Cell}
    (h : Erased t u places blank)
    (hsame : ∀ i j, i < t.rows → j < t.columns → ((i, j) ∈ places ↔ (i, j) ∈ other)) :
    Erased t u other blank := by
  refine ⟨?_, ?_, h.cursor⟩
  · intro i j hi hj hplace
    exact h.blanked i j hi hj ((hsame i j hi hj).mpr hplace)
  · intro i j hi hj hplace
    exact h.kept i j hi hj fun hin => hplace ((hsame i j hi hj).mp hin)

/-- Erasing the same places with the same blank. -/
theorem Erased.looksAlike {places : Set (Nat × Nat)} {blank : Cell}
    (hu : Erased t u places blank) (hv : Erased t v places blank) : LooksAlike t u v := by
  refine ⟨?_, hu.cursor.1.trans hv.cursor.1.symm, hu.cursor.2.trans hv.cursor.2.symm⟩
  intro i j hi hj
  by_cases hplace : (i, j) ∈ places
  · rw [hu.blanked i j hi hj hplace, hv.blanked i j hi hj hplace]
  · rw [hu.kept i j hi hj hplace, hv.kept i j hi hj hplace]

/-- The halves make the whole. -/
theorem union_display (t : Terminal) :
    Extent.display.upTo t ∪ Extent.display.onward t = Set.univ := by
  ext ⟨i, j⟩
  simp only [Extent.upTo, Extent.onward, Set.mem_union, Set.mem_ofPred_eq, Set.mem_univ, iff_true]
  omega

/-- The halves of a line are the line. -/
theorem union_line (t : Terminal) :
    Extent.line.upTo t ∪ Extent.line.onward t = { place | place.1 = t.row } := by
  ext ⟨i, j⟩
  simp only [Extent.upTo, Extent.onward, Set.mem_union, Set.mem_ofPred_eq]
  omega

/-! ### The sequences -/

open Screen

/-- The command of the sequence. -/
def erasing (t : Terminal) (mode : Nat) : Extent → Terminal
  | .display => Screen.eraseDisplay t mode
  | .line => Screen.eraseLine t mode

/-- A digit selects what is erased of the extent. -/
theorem feed_erase (ht : t.WellFormed) (hlisten : t.parser.Listening) (extent : Extent)
    (digit : UInt8) (hdigit : DigitByte digit) :
    ∃ p : Parser, p.state = .ground ∧
      t.feed (extent.sequence digit) =
        .ok ((erasing (cancelWrap t) (number [digit]) extent).withParser p) := by
  have hdigits : ∀ b ∈ [digit], DigitByte b := by
    intro b hb
    rw [List.mem_singleton.mp hb]
    exact hdigit
  have hfinal : FinalByte extent.final := by
    cases extent <;> decide
  obtain ⟨p, hground, hfeed⟩ := feed_number ht hlisten hdigits hfinal
  refine ⟨p, hground, hfeed.trans ?_⟩
  cases extent <;> rfl

/-! ### The halves -/

/-- The places of a rectangle. -/
def rectangle (first count left right : Nat) : Set (Nat × Nat) :=
  { place | first ≤ place.1 ∧ place.1 < first + count ∧ left ≤ place.2 ∧ place.2 < right + 1 }

/-- Erasing blanks a rectangle. -/
theorem erased_rectangle (t : Terminal) (first count left right : Nat) (blank : Cell) :
    Erased t (Screen.erase t first count left right blank) (rectangle first count left right)
      blank := by
  have hactive : (Screen.erase t first count left right blank).active =
      t.active.fill first count left (right + 1) blank :=
    t.active_edit fun cells => cells.fill first count left (right + 1) blank
  refine ⟨?_, ?_, rfl, rfl⟩
  · intro i j _ _ hplace
    rw [hactive]
    exact if_pos hplace
  · intro i j _ _ hplace
    rw [hactive]
    exact if_neg hplace

/-- Clearing blanks everything, in the default colours. -/
theorem erased_clear (t : Terminal) : Erased t (clear t) Set.univ t.defaultBlank := by
  have hactive : (clear t).active = t.active.fill 0 t.rows 0 t.columns t.defaultBlank :=
    t.active_edit fun cells => cells.fill 0 t.rows 0 t.columns t.defaultBlank
  refine ⟨?_, ?_, rfl, rfl⟩
  · intro i j hi hj _
    rw [hactive]
    exact if_pos (by omega)
  · intro i j _ _ hplace
    exact absurd (Set.mem_univ _) hplace

/-- The half from the cursor on. -/
theorem erased_onward (ht : t.WellFormed) (extent : Extent) :
    Erased t (erasing t 0 extent) (extent.onward t) t.blank := by
  have hcolumns := ht.columns_pos
  cases extent with
  | display =>
      have hline := erased_rectangle t t.row 1 t.column (t.columns - 1) t.blank
      have hrest := erased_rectangle (Screen.erase t t.row 1 t.column (t.columns - 1) t.blank)
        (t.row + 1) (t.rows - (t.row + 1)) 0 (t.columns - 1) t.blank
      refine (hline.trans hrest rfl rfl).of_iff ?_
      intro i j hi hj
      simp only [Extent.onward, rectangle, Set.mem_union, Set.mem_ofPred_eq]
      omega
  | line =>
      refine (erased_rectangle t t.row 1 t.column (t.columns - 1) t.blank).of_iff ?_
      intro i j hi hj
      simp only [Extent.onward, rectangle, Set.mem_ofPred_eq]
      omega

/-- The half up to the cursor. -/
theorem erased_upTo (ht : t.WellFormed) (extent : Extent) :
    Erased t (erasing t 1 extent) (extent.upTo t) t.blank := by
  have hcolumns := ht.columns_pos
  cases extent with
  | display =>
      have hrest := erased_rectangle t 0 t.row 0 (t.columns - 1) t.blank
      have hline := erased_rectangle (Screen.erase t 0 t.row 0 (t.columns - 1) t.blank)
        t.row 1 0 t.column t.blank
      refine (hrest.trans hline rfl rfl).of_iff ?_
      intro i j hi hj
      simp only [Extent.upTo, rectangle, Set.mem_union, Set.mem_ofPred_eq]
      omega
  | line =>
      refine (erased_rectangle t t.row 1 0 t.column t.blank).of_iff ?_
      intro i j hi hj
      simp only [Extent.upTo, rectangle, Set.mem_ofPred_eq]
      omega

/-- The colours of the blanks that the whole leaves. -/
def wholeBlank (t : Terminal) : Extent → Cell
  | .display => t.defaultBlank
  | .line => t.blank

/-- The whole screen is blanked in the default colours. -/
theorem erased_whole (ht : t.WellFormed) (extent : Extent) :
    Erased t (erasing t 2 extent) (extent.upTo t ∪ extent.onward t) (t.wholeBlank extent) := by
  have hcolumns := ht.columns_pos
  cases extent with
  | display =>
      rw [union_display]
      have hclear := erased_clear t
      exact ⟨hclear.blanked, hclear.kept, hclear.cursor⟩
  | line =>
      rw [union_line]
      refine (erased_rectangle t t.row 1 0 (t.columns - 1) t.blank).of_iff ?_
      intro i j hi hj
      simp only [rectangle, Set.mem_ofPred_eq]
      omega

/-- Erasing moves neither the edges of the screen nor the cursor, and keeps the colours. -/
theorem erasing_frame (t : Terminal) (mode : Nat) (extent : Extent) :
    (erasing t mode extent).rows = t.rows ∧ (erasing t mode extent).columns = t.columns ∧
      (erasing t mode extent).row = t.row ∧ (erasing t mode extent).column = t.column ∧
      (erasing t mode extent).blank = t.blank := by
  cases extent with
  | display =>
      simp only [erasing, Screen.eraseDisplay]
      repeat' split
      all_goals exact ⟨rfl, rfl, rfl, rfl, rfl⟩
  | line =>
      simp only [erasing, Screen.eraseLine]
      repeat' split
      all_goals exact ⟨rfl, rfl, rfl, rfl, rfl⟩

/-- The places depend on the cursor only. -/
theorem onward_congr (hrow : u.row = t.row) (hcolumn : u.column = t.column) (extent : Extent) :
    extent.onward u = extent.onward t := by
  cases extent <;> simp only [Extent.onward, hrow, hcolumn]

/-- A half depends on the cursor only. -/
theorem upTo_congr (hrow : u.row = t.row) (hcolumn : u.column = t.column) (extent : Extent) :
    extent.upTo u = extent.upTo t := by
  cases extent <;> simp only [Extent.upTo, hrow, hcolumn]

/-- The sequence with 0 erases from the cursor on. -/
theorem feed_onward (ht : t.WellFormed) (hlisten : t.parser.Listening) (extent : Extent) :
    ∃ u, t.feed (extent.sequence 0x30) = .ok u ∧ Erased t u (extent.onward t) t.blank := by
  obtain ⟨p, _, hfeed⟩ := feed_erase ht hlisten extent 0x30 (by decide)
  obtain ⟨hblanked, hkept, hcursor⟩ := erased_onward ht.cancelWrap extent
  rw [onward_congr rfl rfl extent] at hblanked hkept
  exact ⟨_, hfeed, hblanked, hkept, hcursor⟩

/-- What the second half starts from is kept by the first one. -/
theorem feed_upTo (ht : t.WellFormed) (hlisten : t.parser.Listening) (extent : Extent) :
    ∃ u, t.feed (extent.sequence 0x31) = .ok u ∧ Erased t u (extent.upTo t) t.blank ∧
      u.parser.Listening ∧ u.rows = t.rows ∧ u.columns = t.columns ∧ u.blank = t.blank := by
  obtain ⟨p, hground, hfeed⟩ := feed_erase ht hlisten extent 0x31 (by decide)
  obtain ⟨hblanked, hkept, hcursor⟩ := erased_upTo ht.cancelWrap extent
  rw [upTo_congr rfl rfl extent] at hblanked hkept
  obtain ⟨hrows, hcolumns, _, _, hblank⟩ := erasing_frame (cancelWrap t) 1 extent
  exact ⟨_, hfeed, ⟨hblanked, hkept, hcursor⟩, .of_ground hground, hrows, hcolumns, hblank⟩

/-- The halves one after the other. -/
theorem feed_halves (ht : t.WellFormed) (hlisten : t.parser.Listening) (extent : Extent) :
    ∃ v, t.feed (extent.sequence 0x31 ++ extent.sequence 0x30) = .ok v ∧
      Erased t v (extent.upTo t ∪ extent.onward t) t.blank := by
  obtain ⟨u, hfirst, herased, hlisten', hrows, hcolumns, hblank⟩ := feed_upTo ht hlisten extent
  rw [ht.feed_eq, Except.ok.injEq] at hfirst
  have hu : u.WellFormed := hfirst ▸ ht.feed (extent.sequence 0x31)
  obtain ⟨v, hnext, herased'⟩ := feed_onward hu hlisten' extent
  rw [hu.feed_eq, Except.ok.injEq] at hnext
  rw [onward_congr herased.cursor.1 herased.cursor.2 extent, hblank] at herased'
  refine ⟨v, ?_, herased.trans herased' hrows hcolumns⟩
  rw [ht.feed_eq, Screen.feed_append, hfirst, hnext]

/-- The sequence with 2 erases both halves. -/
theorem feed_whole (ht : t.WellFormed) (hlisten : t.parser.Listening) (extent : Extent) :
    ∃ u, t.feed (extent.sequence 0x32) = .ok u ∧
      Erased t u (extent.upTo t ∪ extent.onward t) (t.wholeBlank extent) := by
  obtain ⟨p, _, hfeed⟩ := feed_erase ht hlisten extent 0x32 (by decide)
  obtain ⟨hblanked, hkept, hcursor⟩ := erased_whole ht.cancelWrap extent
  rw [onward_congr rfl rfl extent, upTo_congr rfl rfl extent] at hblanked hkept
  have hblank : (cancelWrap t).wholeBlank extent = t.wholeBlank extent := by
    cases extent <;> rfl
  rw [hblank] at hblanked
  exact ⟨_, hfeed, hblanked, hkept, hcursor⟩

/-- An extent is erased as by its halves when its whole leaves the same blanks. -/
theorem erasedByHalves_iff (ht : t.WellFormed) (hlisten : t.parser.Listening) (extent : Extent) :
    t.ErasedByHalves extent ↔ t.wholeBlank extent = t.blank := by
  obtain ⟨u, hwhole, herased⟩ := feed_whole ht hlisten extent
  obtain ⟨v, hhalves, herased'⟩ := feed_halves ht hlisten extent
  constructor
  · intro h
    obtain ⟨u', v', hu, hv, halike⟩ := h.whole
    obtain rfl : u = u' := Except.ok.inj (hwhole.symm.trans hu)
    obtain rfl : v = v' := Except.ok.inj (hhalves.symm.trans hv)
    -- the cell under the cursor has been blanked both times
    have hplace : (t.row, t.column) ∈ extent.upTo t ∪ extent.onward t := by
      cases extent <;> simp [Extent.upTo, Extent.onward]
    have hcell := halike.cells t.row t.column ht.row_lt ht.column_lt
    rw [herased.blanked _ _ ht.row_lt ht.column_lt hplace,
      herased'.blanked _ _ ht.row_lt ht.column_lt hplace] at hcell
    exact hcell
  · intro hblank
    rw [hblank] at herased
    obtain ⟨w, hfirst, hupTo, _⟩ := feed_upTo ht hlisten extent
    exact ⟨feed_onward ht hlisten extent, ⟨w, hfirst, hupTo⟩,
      ⟨u, v, hwhole, hhalves, herased.looksAlike herased'⟩⟩

/-- The line is always erased as by its halves. -/
theorem line_by_halves (h : Reachable t) (hlisten : t.parser.Listening) :
    t.ErasedByHalves .line :=
  (erasedByHalves_iff h.wellFormed hlisten .line).mpr rfl

/-- **Erasing by halves.**  The whole screen and the whole line are erased as by their
halves exactly when the colours in force are the default ones. -/
theorem erased_by_halves_iff (h : Reachable t) (hlisten : t.parser.Listening) :
    (∀ extent : Extent, t.ErasedByHalves extent) ↔
      t.terminalAttribute = efiTextAttr t.defaultForeground t.defaultBackground := by
  have hdisplay := erasedByHalves_iff h.wellFormed hlisten .display
  have hcells : t.wholeBlank .display = t.blank ↔
      t.terminalAttribute = efiTextAttr t.defaultForeground t.defaultBackground := by
    rw [wholeBlank, defaultBlank, blank, Cell.mk.injEq]
    constructor
    · intro hattribute
      exact hattribute.2.symm
    · intro hattribute
      exact ⟨rfl, hattribute.symm⟩
  rw [← hcells, ← hdisplay]
  constructor
  · intro hall
    exact hall .display
  · intro hdisplay extent
    cases extent with
    | display => exact hdisplay
    | line => exact line_by_halves h hlisten

/-- A new terminal has the default colours. -/
theorem erased_by_halves_default : (Firmware.ample 2 2 7).fresh.ErasedByHalves .display :=
  (erased_by_halves_iff (created_ample 2 2 7).reachable (by decide)).mpr (by decide) .display

/-- A screen after `CSI 31 m` -/
def tintedTerminal : Terminal :=
  Screen.feed (Firmware.ample 2 2 7).fresh (controlSequence [0x33, 0x31] 0x6d)

/-- Its halves are blanked in the new colours, and the whole of it in the old. -/
theorem tinted_not_by_halves :
    tintedTerminal.Reachable ∧ tintedTerminal.parser.Listening ∧
      ¬ ∀ extent : Extent, tintedTerminal.ErasedByHalves extent := by
  have hreachable : tintedTerminal.Reachable := (created_ample 2 2 7).reachable.feed _
  have hlisten : tintedTerminal.parser.Listening := by decide
  refine ⟨hreachable, hlisten, ?_⟩
  intro hall
  have hblank := (erasedByHalves_iff hreachable.wellFormed hlisten .display).mp (hall .display)
  exact absurd hblank (by decide)

end Terminal

end WolfSshUefi
