import WolfSshUefi.Library.Grid

/-!
# Shifts one after the other

Shifting twice in one direction is shifting once by the sum, also when the blanks that enter
reach the other end.
-/

namespace Grid

variable {α : Type} (g : Grid α) (x : α)

/-- Two shifts up are one. -/
theorem shiftUp_shiftUp (top bottom m n width : Nat) :
    shiftUp (shiftUp g top bottom m width x) top bottom n width x =
      shiftUp g top bottom (m + n) width x := by
  funext i j
  simp only [shiftUp]
  grind

/-- Two shifts down are one. -/
theorem shiftDown_shiftDown (top bottom m n width : Nat) :
    shiftDown (shiftDown g top bottom m width x) top bottom n width x =
      shiftDown g top bottom (m + n) width x := by
  funext i j
  simp only [shiftDown]
  grind

/-- Two shifts to the left are one. -/
theorem shiftLeft_shiftLeft (row left m n width : Nat) :
    shiftLeft (shiftLeft g row left m width x) row left n width x =
      shiftLeft g row left (m + n) width x := by
  funext i j
  simp only [shiftLeft]
  grind

/-- Two shifts to the right are one. -/
theorem shiftRight_shiftRight (row left m n width : Nat) :
    shiftRight (shiftRight g row left m width x) row left n width x =
      shiftRight g row left (m + n) width x := by
  funext i j
  simp only [shiftRight]
  grind

/-! A shift by more than the whole length empties what it shifts. -/

/-- More than all rows cannot leave at the top. -/
theorem shiftUp_min (top bottom n width : Nat) :
    shiftUp g top bottom (min n (bottom - top + 1)) width x = shiftUp g top bottom n width x := by
  funext i j
  simp only [shiftUp]
  grind

theorem shiftDown_min (top bottom n width : Nat) :
    shiftDown g top bottom (min n (bottom - top + 1)) width x =
      shiftDown g top bottom n width x := by
  funext i j
  simp only [shiftDown]
  grind

/-- More than all cells cannot leave at the left. -/
theorem shiftLeft_min (row left n width : Nat) :
    shiftLeft g row left (min n (width - left)) width x = shiftLeft g row left n width x := by
  funext i j
  simp only [shiftLeft]
  grind

theorem shiftRight_min (row left n width : Nat) :
    shiftRight g row left (min n (width - left)) width x = shiftRight g row left n width x := by
  funext i j
  simp only [shiftRight]
  grind

end Grid
