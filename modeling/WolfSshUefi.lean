import WolfSshUefi.Arguments.Accepting
import WolfSshUefi.Arguments.Reordering
import WolfSshUefi.Auth.Entry
import WolfSshUefi.Auth.Pinning
import WolfSshUefi.Auth.Rekeying
import WolfSshUefi.Main.Releasing
import WolfSshUefi.Main.Reporting
import WolfSshUefi.Session.Echo
import WolfSshUefi.Session.Keyboard
import WolfSshUefi.Session.Reflecting
import WolfSshUefi.Session.Saying
import WolfSshUefi.Session.Showing
import WolfSshUefi.Tcp4.Delivery
import WolfSshUefi.Terminal.Alternate
import WolfSshUefi.Terminal.Colours
import WolfSshUefi.Terminal.Composing
import WolfSshUefi.Terminal.Creating
import WolfSshUefi.Terminal.Display
import WolfSshUefi.Terminal.Erasing
import WolfSshUefi.Terminal.Omission
import WolfSshUefi.Terminal.Palette
import WolfSshUefi.Terminal.PrivateCsi
import WolfSshUefi.Terminal.Regions
import WolfSshUefi.Terminal.Replies
import WolfSshUefi.Terminal.Reporting
import WolfSshUefi.Terminal.Reset
import WolfSshUefi.Terminal.Saving
import WolfSshUefi.Terminal.Skipping
import WolfSshUefi.Terminal.Startup
import WolfSshUefi.Terminal.Surgery
import WolfSshUefi.Terminal.Synchronising
import WolfSshUefi.Terminal.Typing
import WolfSshUefi.UefiCompat.Calls
import WolfSshUefi.UefiCompat.Strings
import WolfSshUefi.Terminal.Counting
import WolfSshUefi.Session.Decoding
import WolfSshUefi.Terminal.Lifetime
import WolfSshUefi.Tcp4.Waiting
import WolfSshUefi.UefiCompat.Areas
import WolfSshUefi.UefiCompat.Random
import WolfSshUefi.Terminal.Sizing
import WolfSshUefi.Session.Watching
import WolfSshUefi.Session.Ending
import WolfSshUefi.Terminal.Economy
