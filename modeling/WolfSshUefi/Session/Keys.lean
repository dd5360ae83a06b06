import WolfSshUefi.Efi

/-!
# One keystroke

`WolfSshTerminalReadKey` reads a keystroke and encodes it.  The keys without a
character have a sequence each, the arrows, Home and End two of them; a
character is sent as UTF-8.
-/

namespace WolfSshUefi

/-! ### Scan codes -/

namespace Scan

def up : UInt16 := 0x01
def down : UInt16 := 0x02
def right : UInt16 := 0x03
def left : UInt16 := 0x04
def home : UInt16 := 0x05
def endKey : UInt16 := 0x06
def insert : UInt16 := 0x07
def delete : UInt16 := 0x08
def pageUp : UInt16 := 0x09
def pageDown : UInt16 := 0x0a
def f1 : UInt16 := 0x0b
def f2 : UInt16 := 0x0c
def f3 : UInt16 := 0x0d
def f4 : UInt16 := 0x0e
def f5 : UInt16 := 0x0f
def f6 : UInt16 := 0x10
def f7 : UInt16 := 0x11
def f8 : UInt16 := 0x12
def f9 : UInt16 := 0x13
def f10 : UInt16 := 0x14
def esc : UInt16 := 0x17

end Scan

/-- `ESC [` or, in application cursor mode, `ESC O`, and a letter. -/
def cursorSequence (applicationCursor : Bool) (letter : UInt8) : List UInt8 :=
  if applicationCursor then [0x1b, 0x4f, letter] else [0x1b, 0x5b, letter]

/-- The sequence of a key, `Mapped` in `WolfSshTerminalReadKey`. -/
def mapped (applicationCursor : Bool) (scanCode : UInt16) : Option (List UInt8) :=
  if scanCode = Scan.up then some (cursorSequence applicationCursor 0x41)
  else if scanCode = Scan.down then some (cursorSequence applicationCursor 0x42)
  else if scanCode = Scan.right then some (cursorSequence applicationCursor 0x43)
  else if scanCode = Scan.left then some (cursorSequence applicationCursor 0x44)
  else if scanCode = Scan.home then some (cursorSequence applicationCursor 0x48)
  else if scanCode = Scan.endKey then some (cursorSequence applicationCursor 0x46)
  else if scanCode = Scan.insert then some [0x1b, 0x5b, 0x32, 0x7e]
  else if scanCode = Scan.delete then some [0x1b, 0x5b, 0x33, 0x7e]
  else if scanCode = Scan.pageUp then some [0x1b, 0x5b, 0x35, 0x7e]
  else if scanCode = Scan.pageDown then some [0x1b, 0x5b, 0x36, 0x7e]
  else if scanCode = Scan.f1 then some [0x1b, 0x4f, 0x50]
  else if scanCode = Scan.f2 then some [0x1b, 0x4f, 0x51]
  else if scanCode = Scan.f3 then some [0x1b, 0x4f, 0x52]
  else if scanCode = Scan.f4 then some [0x1b, 0x4f, 0x53]
  else if scanCode = Scan.f5 then some [0x1b, 0x5b, 0x31, 0x35, 0x7e]
  else if scanCode = Scan.f6 then some [0x1b, 0x5b, 0x31, 0x37, 0x7e]
  else if scanCode = Scan.f7 then some [0x1b, 0x5b, 0x31, 0x38, 0x7e]
  else if scanCode = Scan.f8 then some [0x1b, 0x5b, 0x31, 0x39, 0x7e]
  else if scanCode = Scan.f9 then some [0x1b, 0x5b, 0x32, 0x30, 0x7e]
  else if scanCode = Scan.f10 then some [0x1b, 0x5b, 0x32, 0x31, 0x7e]
  else none

/-- What `WolfSshTerminalReadKey` returns: the status, the bytes it stores, the
length it reports and whether the user leaves the terminal. -/
structure KeyOutcome where
  status : EfiStatus
  bytes : List UInt8
  length : Nat
  localExit : Bool
  deriving DecidableEq, Repr

/-- Bytes that go into a buffer of `capacity` bytes. -/
def storeKey (capacity : Nat) (bytes : List UInt8) : KeyOutcome :=
  if capacity < bytes.length then ⟨efiBufferTooSmall, [], bytes.length, false⟩
  else ⟨efiSuccess, bytes, bytes.length, false⟩

/-- `CopyKeySequence` -/
def copyKeySequence (capacity : Nat) (sequence : List UInt8) : KeyOutcome :=
  storeKey capacity sequence

/-- The bytes of a character; the conversions to `UINT8` drop the high bits. -/
def characterBytes (unicodeChar : UInt16) : List UInt8 :=
  if unicodeChar = 0x08 then [0x7f]               -- CHAR_BACKSPACE
  else if unicodeChar < 0x80 then [unicodeChar.toUInt8]
  else if unicodeChar < 0x800 then
    [((0xc0 : UInt16) ||| (unicodeChar >>> 6)).toUInt8,
      ((0x80 : UInt16) ||| (unicodeChar &&& 0x3f)).toUInt8]
  else
    [((0xe0 : UInt16) ||| (unicodeChar >>> 12)).toUInt8,
      ((0x80 : UInt16) ||| ((unicodeChar >>> 6) &&& 0x3f)).toUInt8,
      ((0x80 : UInt16) ||| (unicodeChar &&& 0x3f)).toUInt8]

/-- `WolfSshTerminalReadKey` -/
def readKey (applicationCursor : Bool) (capacity : Nat) (read : KeyRead) : KeyOutcome :=
  if EfiError read.status then ⟨read.status, [], 0, false⟩
  else if read.key.unicodeChar = 0x1d then ⟨efiSuccess, [], 0, true⟩
  else
    match mapped applicationCursor read.key.scanCode with
    | some sequence => copyKeySequence capacity sequence
    | none =>
        if read.key.unicodeChar = 0 then ⟨efiNotReady, [], 0, false⟩
        else if capacity < 1 then ⟨efiBufferTooSmall, [], 1, false⟩
        else storeKey capacity (characterBytes read.key.unicodeChar)

end WolfSshUefi
