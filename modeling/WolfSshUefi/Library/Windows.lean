import WolfSshUefi.Library.Grid

/-!
# Windows

A window is a band of rows of a grid, looked at as a grid of its own.  Whatever a display
does inside the band it does to the window, with the rows counted from the top of the band.
-/

namespace Grid

variable {α : Type}

/-- The rows `top ..< top + rows` and the first `columns` columns; `x` outside. -/
def window (g : Grid α) (top rows columns : Nat) (x : α) : Grid α :=
  clip (fun i j => g (top + i) j) rows columns x

section Window

variable (g : Grid α) (top rows columns : Nat) (x y : α)

end Window

end Grid
