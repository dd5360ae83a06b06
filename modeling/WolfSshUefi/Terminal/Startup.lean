import WolfSshUefi.Terminal.Console

/-!
# The first flush

`WolfSshTerminalCreate` blanks both buffers and marks nothing, and it does not
clear the console.  So the console shows the active buffer after the first
flush when the session has cleared it by then, or else when it was blank at
every place that is still clean.
-/

namespace WolfSshUefi.Terminal

/-- Right after the first flush the console shows the active buffer. -/
def StartsCoherent (t₀ : Terminal) (d : Console) (chunks : List (List UInt8)) : Prop :=
  ∃ t sent, t₀.run (roundCalls chunks) = .ok t ∧ t.conOut = t₀.conOut ++ sent ∧
    ∀ r c, r < t.rows → c < t.columns →
      (d.run sent).characters r c = (t.active r c).character

/-- The console was blank where nothing is written by the first flush. -/
def BlankWhereClean (t₀ : Terminal) (d : Console) (data : List UInt8) : Prop :=
  ∀ r c, r < t₀.rows → c < t₀.columns → ¬ (Screen.feed t₀ data).Dirty r c →
    d.characters r c = 0x20

/-- Clears leave a blank console. -/
theorem run_clears (d : Console) (n : Nat) :
    d.run (List.replicate (n + 1) .clearScreen) = ⟨0, 0, fun _ _ => 0x20⟩ := by
  induction n generalizing d with
  | zero => rfl
  | succ n ih => exact ih (d.perform .clearScreen)

/-- A round that sends `sent` before its flush shows the dirty places; the others
are left to `sent`. -/
theorem WellFormed.round_shown {t₀ : Terminal} (h : t₀.WellFormed) (chunks : List (List UInt8))
    {sent : List ConsoleCall}
    (hsent : (Screen.feed t₀ chunks.flatten).conOut = t₀.conOut ++ sent) (d : Console) :
    t₀.StartsCoherent d chunks ↔
      ∀ i, (Screen.feed t₀ chunks.flatten).Place i →
        ¬ (Screen.feed t₀ chunks.flatten).DirtyPlace i →
          (d.run sent).shown i = (Screen.feed t₀ chunks.flatten).shown i := by
  obtain ⟨buffer, painting, hpainting, hrun⟩ := h.run_round chunks
  have hshown {i : Nat × Nat} (hi : (Screen.feed t₀ chunks.flatten).Place i) :=
    Console.run_flushCalls hpainting (d.run sent) hi
  constructor
  · intro hall i hi hclean
    obtain ⟨t, calls, hcalls, hconOut, hall⟩ := hall
    rw [hrun] at hcalls
    obtain rfl := Except.ok.inj hcalls
    have hboth : t₀.conOut ++ (sent ++ (Screen.feed t₀ chunks.flatten).flushCalls painting) =
        t₀.conOut ++ calls := by
      rw [← hconOut, ← List.append_assoc, ← hsent]
      rfl
    have hsame := List.append_cancel_left hboth
    have hplace := hall i.1 i.2 hi.1 hi.2
    rw [← hsame, Console.run_append] at hplace
    have hkept := hshown hi
    rw [if_neg hclean] at hkept
    exact hkept.symm.trans hplace
  · intro hall
    refine ⟨_, sent ++ (Screen.feed t₀ chunks.flatten).flushCalls painting, hrun, ?_, ?_⟩
    · rw [← List.append_assoc, ← hsent]
      rfl
    · intro r c hr hc
      have hplace : (Screen.feed t₀ chunks.flatten).Place (r, c) := ⟨hr, hc⟩
      rw [Console.run_append]
      refine (hshown hplace).trans ?_
      split
      · rfl
      · next hclean => exact hall (r, c) hplace hclean

/-- **A session starts coherent exactly when** what is fed before the first flush
clears the console, or the console was blank wherever nothing was written. -/
theorem starts_coherent_iff {t₀ : Terminal} (h : Created t₀) (d : Console)
    (chunks : List (List UInt8)) :
    t₀.StartsCoherent d chunks ↔
      Screen.FeedClears t₀ chunks.flatten ∨ t₀.BlankWhereClean d chunks.flatten := by
  have hwell := h.wellFormed
  have hblank {i : Nat × Nat} (hi : t₀.Place i) : t₀.shown i = 0x20 := by
    obtain ⟨fw, rfl⟩ := h.eq_fresh
    exact shown_fresh hi
  rcases Screen.feed_picture hwell chunks.flatten with ⟨hnone, hmarked⟩ | ⟨hclears, hwiped⟩
  · -- nothing is cleared: the clean cells are those of the new terminal
    have hsent : (Screen.feed t₀ chunks.flatten).conOut = t₀.conOut ++ [] := by
      rw [hmarked.conOut, List.append_nil]
    rw [hwell.round_shown chunks hsent d, Screen.place_eq hmarked.rows hmarked.columns]
    have hcell {i : Nat × Nat} (hi : t₀.Place i)
        (hclean : ¬ (Screen.feed t₀ chunks.flatten).DirtyPlace i) :
        (Screen.feed t₀ chunks.flatten).shown i = 0x20 := by
      have hsame : (Screen.feed t₀ chunks.flatten).shown i = t₀.shown i :=
        congrArg Cell.character (hmarked.cells.marks i hi hclean)
      rw [hsame, hblank hi]
    constructor
    · intro hall
      right
      intro r c hr hc hclean
      exact (hall (r, c) ⟨hr, hc⟩ hclean).trans (hcell ⟨hr, hc⟩ hclean)
    · intro hcase i hi hclean
      obtain hclears | hdisplay := hcase
      · exact absurd hclears hnone
      · rw [hcell hi hclean]
        exact hdisplay i.1 i.2 hi.1 hi.2 hclean
  · -- the console was cleared, and the clean cells are blank
    obtain ⟨n, hsent⟩ := hwiped.conOut
    rw [hwell.round_shown chunks hsent d, Screen.place_eq hwiped.rows hwiped.columns, run_clears]
    constructor
    · intro _
      exact .inl hclears
    · intro _ i hi hclean
      exact (congrArg Cell.character (hwiped.cells i hi hclean)).symm

/-- The session begins with `CSI 2 J`. -/
theorem starts_coherent_after_clear :
    (Firmware.ample 2 1 7).fresh.StartsCoherent ⟨0, 0, fun _ _ => 0x78⟩
      [[0x1b, 0x5b, 0x32, 0x4a]] := by
  apply (starts_coherent_iff (created_ample 2 1 7) _ _).mpr
  left
  exact .inr (.inl (.inl rfl))

/-- A prompt of one character leaves the rest of the old line on the display. -/
theorem prompt_beside_old_text :
    ¬ (Firmware.ample 2 1 7).fresh.StartsCoherent ⟨0, 0, fun _ _ => 0x78⟩ [[0x24]] := by
  have hwell := (created_ample 2 1 7).wellFormed
  intro hcoherent
  have hshown := (hwell.round_shown [[0x24]] rfl _).mp hcoherent (0, 1) ⟨by decide, by decide⟩
    (by decide)
  exact absurd hshown (by decide)

end WolfSshUefi.Terminal
