import WolfSshUefi.Library.Shifts
import WolfSshUefi.Terminal.Saturation

/-!
# Counts add up

A cursor movement, a scroll, and the insertion or deletion of lines and characters with a
count are so many of the same with the count 1: twice one after the other they are once
with the sum, at the edges of the screen as well, and the cells they mark are the same.
-/

namespace WolfSshUefi

/-- The final bytes whose count says how often. -/
def CsiFinal.Additive : CsiFinal → Prop
  | .cursorUp | .cursorDown | .cursorForward | .cursorBack | .nextLine | .previousLine => True
  | .insertLines | .deleteLines | .insertCharacters | .deleteCharacters => True
  | .scrollUp | .scrollDown => True
  | _ => False

namespace Screen

open Terminal

/-! ### Two shifts -/

/-- A shift up clips its count itself. -/
theorem moveUp_unclipped (t : Terminal) (top count : Nat) :
    moveUp t top count =
      mark (t.edit fun cells => cells.shiftUp top t.scrollBottom count t.columns t.blank)
        top (t.scrollBottom - top + 1) 0 (t.columns - 1) := by
  simp only [moveUp, Grid.shiftUp_min]

theorem moveDown_unclipped (t : Terminal) (top count : Nat) :
    moveDown t top count =
      mark (t.edit fun cells => cells.shiftDown top t.scrollBottom count t.columns t.blank)
        top (t.scrollBottom - top + 1) 0 (t.columns - 1) := by
  simp only [moveDown, Grid.shiftDown_min]

/-- So does inserting characters. -/
theorem insertCharacters_unclipped (t : Terminal) (count : Nat) :
    insertCharacters t count =
      mark (t.edit fun cells => cells.shiftRight t.row t.column count t.columns t.blank)
        t.row 1 t.column (t.columns - 1) := by
  simp only [insertCharacters, Grid.shiftRight_min]

theorem deleteCharacters_unclipped (t : Terminal) (count : Nat) :
    deleteCharacters t count =
      mark (t.edit fun cells => cells.shiftLeft t.row t.column count t.columns t.blank)
        t.row 1 t.column (t.columns - 1) := by
  simp only [deleteCharacters, Grid.shiftLeft_min]

/-- Two edits under one mark. -/
theorem mark_edit_twice (t : Terminal) {f g h : Grid Cell → Grid Cell}
    (hgf : ∀ cells, g (f cells) = h cells) (first count left right : Nat) :
    mark ((mark (t.edit f) first count left right).edit g) first count left right =
      mark (t.edit h) first count left right := by
  have hfun : (fun cells => g (f cells)) = h := funext hgf
  rw [← mark_edit, mark_absorb _ (Nat.le_refl _) (Nat.le_refl _) (Nat.le_refl _) (Nat.le_refl _),
    edit_edit, hfun]

/-- Moving rows up twice. -/
theorem moveUp_moveUp (t : Terminal) (top m n : Nat) :
    moveUp (moveUp t top m) top n = moveUp t top (m + n) := by
  rw [moveUp_unclipped (moveUp t top m), moveUp_unclipped t, moveUp_unclipped t]
  exact mark_edit_twice t (fun cells => cells.shiftUp_shiftUp _ _ _ _ _ _) _ _ _ _

/-- Moving them down twice. -/
theorem moveDown_moveDown (t : Terminal) (top m n : Nat) :
    moveDown (moveDown t top m) top n = moveDown t top (m + n) := by
  rw [moveDown_unclipped (moveDown t top m), moveDown_unclipped t, moveDown_unclipped t]
  exact mark_edit_twice t (fun cells => cells.shiftDown_shiftDown _ _ _ _ _ _) _ _ _ _

/-- Inserting twice. -/
theorem insertCharacters_insertCharacters (t : Terminal) (m n : Nat) :
    insertCharacters (insertCharacters t m) n = insertCharacters t (m + n) := by
  rw [insertCharacters_unclipped (insertCharacters t m), insertCharacters_unclipped t,
    insertCharacters_unclipped t]
  exact mark_edit_twice t (fun cells => cells.shiftRight_shiftRight _ _ _ _ _ _) _ _ _ _

/-- Deleting twice. -/
theorem deleteCharacters_deleteCharacters (t : Terminal) (m n : Nat) :
    deleteCharacters (deleteCharacters t m) n = deleteCharacters t (m + n) := by
  rw [deleteCharacters_unclipped (deleteCharacters t m), deleteCharacters_unclipped t,
    deleteCharacters_unclipped t]
  exact mark_edit_twice t (fun cells => cells.shiftLeft_shiftLeft _ _ _ _ _ _) _ _ _ _

/-! ### The counted sequences -/

/-- Carried out twice, a counted sequence is carried out with the sum. -/
theorem execAll_additive (t : Terminal) {final : CsiFinal} (hfinal : final.Additive)
    {x y z : List Int} (hcount : countAt z 0 = countAt x 0 + countAt y 0) :
    execAll (cancelWrap (execAll (cancelWrap t) (csiAction final false x)))
        (csiAction final false y) =
      execAll (cancelWrap t) (csiAction final false z) := by
  have hstep (last position m n : Nat) :
      min last (min last (position + m) + n) = min last (position + (m + n)) := by omega
  -- every instruction leaves the deferred wrap cancelled
  cases final
  case cursorUp | previousLine | cursorBack =>
    simp only [csiAction, execAll_cons, execAll_nil, exec, hcount, cancelWrap, Nat.sub_sub]
  case cursorDown | nextLine | cursorForward =>
    simp only [csiAction, execAll_cons, execAll_nil, exec, hcount, cancelWrap, hstep]
  case insertLines =>
    simp only [csiAction, execAll_cons, execAll_nil, exec, hcount]
    by_cases hin : InMargins (cancelWrap t)
    · rw [if_pos hin, if_pos hin, ← moveDown_moveDown]
      exact if_pos hin
    · rw [if_neg hin, if_neg hin]
      exact if_neg hin
  case deleteLines =>
    simp only [csiAction, execAll_cons, execAll_nil, exec, hcount]
    by_cases hin : InMargins (cancelWrap t)
    · rw [if_pos hin, if_pos hin, ← moveUp_moveUp]
      exact if_pos hin
    · rw [if_neg hin, if_neg hin]
      exact if_neg hin
  case insertCharacters =>
    simp only [csiAction, execAll_cons, execAll_nil, exec, hcount]
    exact insertCharacters_insertCharacters (cancelWrap t) _ _
  case deleteCharacters =>
    simp only [csiAction, execAll_cons, execAll_nil, exec, hcount]
    exact deleteCharacters_deleteCharacters (cancelWrap t) _ _
  case scrollUp =>
    simp only [csiAction, execAll_cons, execAll_nil, exec, hcount]
    exact moveUp_moveUp (cancelWrap t) _ _ _
  case scrollDown =>
    simp only [csiAction, execAll_cons, execAll_nil, exec, hcount]
    exact moveDown_moveDown (cancelWrap t) _ _ _
  all_goals exact hfinal.elim

end Screen

namespace Terminal

open Screen

/-- The count that some digits stand for; without digits, or with 0, it is 1. -/
def countOf (digits : List UInt8) : Nat := countAt [exactParameter digits] 0

/-- **Counts add up.**  A cursor movement, a scroll, or an insertion or deletion of lines or
characters, done twice with any counts, leaves the whole terminal but for the parser as it is
after doing it once with the sum of the counts. -/
theorem counts_add {t : Terminal} (h : Reachable t) (hlisten : t.parser.Listening)
    {first second sum : List UInt8} (hfirst : ∀ b ∈ first, DigitByte b)
    (hsecond : ∀ b ∈ second, DigitByte b) (hsum : ∀ b ∈ sum, DigitByte b)
    (hcount : countOf sum = countOf first + countOf second) {final : UInt8}
    (hfinal : FinalByte final) (hadditive : (csiFinal final).Additive) :
    ∃ u v, t.feed (controlSequence first final ++ controlSequence second final) = .ok u ∧
      t.feed (controlSequence sum final) = .ok v ∧ u.parser.state = .ground ∧
      v.parser.state = .ground ∧ u = v.withParser u.parser := by
  have ht := h.wellFormed
  obtain ⟨p, hp, hone⟩ := feed_number ht hlisten hfirst hfinal
  have hfed := ht.feed_eq (controlSequence first final)
  have hmiddle := Except.ok.inj (hfed.symm.trans hone)
  have hu := ht.feed (controlSequence first final)
  rw [hmiddle] at hu
  obtain ⟨q, hq, htwo⟩ := feed_number hu (.of_ground hp) hsecond hfinal
  obtain ⟨r, hr, hall⟩ := feed_number ht hlisten hsum hfinal
  have hboth : t.feed (controlSequence first final ++ controlSequence second final) =
      .ok ((execAll (cancelWrap t) (csiAction (csiFinal final) false
        [exactParameter sum])).withParser q) := by
    have hparser (v : Terminal) : cancelWrap (v.withParser p) = (cancelWrap v).withParser p := rfl
    unfold Terminal.feed at hone htwo ⊢
    rw [List.foldlM_append, hone, Loops.ok_bind, htwo, hparser, execAll_withParser,
      ← execAll_additive t hadditive (z := [exactParameter sum]) hcount]
    rfl
  exact ⟨_, _, hboth, hall, hq, hr, rfl⟩

/-- `CSI A` and `CSI 02 A` are `CSI 3 A`. -/
theorem counts_add_up :
    ∃ u v, (Firmware.ample 2 4 7).fresh.feed
        (controlSequence [] 0x41 ++ controlSequence [0x30, 0x32] 0x41) = .ok u ∧
      (Firmware.ample 2 4 7).fresh.feed (controlSequence [0x33] 0x41) = .ok v ∧
      u.parser.state = .ground ∧ v.parser.state = .ground ∧ u = v.withParser u.parser :=
  counts_add (created_ample 2 4 7).reachable (by decide) (by simp) (by simp [DigitByte])
    (by simp [DigitByte]) (by decide) (by decide) trivial

end Terminal

end WolfSshUefi
