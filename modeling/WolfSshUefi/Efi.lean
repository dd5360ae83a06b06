import Mathlib.Logic.Function.Basic

/-!
# Firmware interface

The status codes and key events that the program gets from the firmware.  A
status is a 64-bit word, and it is an error when its top bit is set.
-/

namespace WolfSshUefi

/-- `EFI_STATUS` -/
abbrev EfiStatus := UInt64

/-- `EFI_SUCCESS` -/
def efiSuccess : EfiStatus := 0

/-- `EFI_INVALID_PARAMETER` -/
def efiInvalidParameter : EfiStatus := 0x8000000000000002

/-- `EFI_UNSUPPORTED` -/
def efiUnsupported : EfiStatus := 0x8000000000000003

/-- `EFI_BUFFER_TOO_SMALL` -/
def efiBufferTooSmall : EfiStatus := 0x8000000000000005

/-- `EFI_NOT_READY` -/
def efiNotReady : EfiStatus := 0x8000000000000006

/-- `EFI_DEVICE_ERROR` -/
def efiDeviceError : EfiStatus := 0x8000000000000007

/-- `EFI_OUT_OF_RESOURCES` -/
def efiOutOfResources : EfiStatus := 0x8000000000000009

/-- `EFI_NOT_FOUND` -/
def efiNotFound : EfiStatus := 0x800000000000000e

/-- `EFI_NO_MAPPING` -/
def efiNoMapping : EfiStatus := 0x8000000000000011

/-- `EFI_TIMEOUT` -/
def efiTimeout : EfiStatus := 0x8000000000000012

/-- `EFI_PROTOCOL_ERROR` -/
def efiProtocolError : EfiStatus := 0x8000000000000018

/-- `EFI_CONNECTION_FIN` -/
def efiConnectionFin : EfiStatus := 0x8000000000000068

/-- `EFI_CONNECTION_RESET` -/
def efiConnectionReset : EfiStatus := 0x8000000000000069

/-- `EFI_ERROR` -/
def EfiError (status : EfiStatus) : Prop := 0x8000000000000000 ≤ status

instance (status : EfiStatus) : Decidable (EfiError status) := by
  unfold EfiError; infer_instance

/-- `EFI_INPUT_KEY` -/
structure InputKey where
  scanCode : UInt16
  unicodeChar : UInt16
  deriving DecidableEq, Repr

/-- What one call of `ReadKeyStroke` gives: its status, and the key if it is a success. -/
structure KeyRead where
  status : EfiStatus
  key : InputKey
  deriving DecidableEq, Repr

end WolfSshUefi
