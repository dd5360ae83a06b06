import WolfSshUefi.Terminal.Screen

/-!
# The parser as a transducer

The parser never looks at the screen.  `Parser.next` gives, for one byte, the
next parser state and the instructions the byte completes; a byte completes
none while a sequence is being collected, and two when it breaks off a UTF-8
sequence.  `Screen.feedByte` puts the transducer in front of the screen.
-/

namespace WolfSshUefi

/-- The parameters collected so far, an omitted one being negative. -/
def Parser.params (p : Parser) : List Int :=
  (List.range p.parameterCount).map p.parameters

/-- A parameter, with 0 for an omitted or missing one. -/
def valueAt (params : List Int) (i : Nat) : Nat := (params.getD i (-1)).toNat

/-- A parameter that counts something, at least 1. -/
def countAt (params : List Int) (i : Nat) : Nat := max 1 (valueAt params i)

/-- A parameter that is present. -/
def givenAt (params : List Int) (i : Nat) : Option Nat :=
  if 0 ≤ params.getD i (-1) then some (valueAt params i) else none

/-- A rendition code that stands for itself. -/
def simpleRendition (code : Nat) : List Rendition :=
  if code = 0 then [.reset]
  else if code = 1 then [.bold true]
  else if code = 22 then [.bold false]
  else if code = 7 then [.reverse true]
  else if code = 27 then [.reverse false]
  else if 30 ≤ code ∧ code ≤ 37 then [.foreground (code - 30)]
  else if 90 ≤ code ∧ code ≤ 97 then [.foreground (code - 90 + 8)]
  else if code = 39 then [.defaultForeground]
  else if 40 ≤ code ∧ code ≤ 47 then [.background (code - 40)]
  else if 100 ≤ code ∧ code ≤ 107 then [.background (code - 100 + 8)]
  else if code = 49 then [.defaultBackground]
  else []

/-- The colour changes a list of rendition codes stands for. -/
def renditions : List Nat → List Rendition
  | 38 :: 5 :: n :: rest => .foreground (map256Color n) :: renditions rest
  | 48 :: 5 :: n :: rest => .background (map256Color n) :: renditions rest
  | 38 :: 2 :: r :: g :: b :: rest => .foreground (mapRgbColor r g b) :: renditions rest
  | 48 :: 2 :: r :: g :: b :: rest => .background (mapRgbColor r g b) :: renditions rest
  | code :: rest => simpleRendition code ++ renditions rest
  | [] => []

/-- Setting or resetting one mode. -/
def modeCommands (privateCsi on : Bool) (mode : Nat) : List Command :=
  if privateCsi then
    if mode = 1 then [.applicationCursor on]
    else if mode = 25 then [.cursorVisible on]
    else if mode = 47 ∨ mode = 1047 ∨ mode = 1049 then [.alternateScreen on]
    else []
  else if mode = 4 then [.insertMode on]
  else []

/-- What a control sequence does once the deferred wrap is cancelled. -/
def csiAction (final : CsiFinal) (privateCsi : Bool) (params : List Int) : List Command :=
  let count := countAt params 0
  match final with
  | .cursorUp => [.up count]
  | .cursorDown => [.down count]
  | .cursorForward => [.forward count]
  | .cursorBack => [.back count]
  | .nextLine => [.down count, .toColumn 0]
  | .previousLine => [.up count, .toColumn 0]
  | .columnAbsolute => [.toColumn (count - 1)]
  | .position => [.toRow (count - 1), .toColumn (countAt params 1 - 1)]
  | .lineAbsolute => [.toRow (count - 1)]
  | .eraseDisplay => [.eraseDisplay (valueAt params 0)]
  | .eraseLine => [.eraseLine (valueAt params 0)]
  | .rendition => (renditions (params.map Int.toNat)).map .rendition
  | .saveCursor => [.saveCursor]
  | .restoreCursor => [.restoreCursor]
  | .margins => [.margins (count - 1) (givenAt params 1)]
  | .insertLines => [.insertLines count]
  | .deleteLines => [.deleteLines count]
  | .insertCharacters => [.insertCharacters count]
  | .deleteCharacters => [.deleteCharacters count]
  | .eraseCharacters => [.eraseCharacters count]
  | .scrollUp => [.scrollUp count]
  | .scrollDown => [.scrollDown count]
  | .setModes => (params.map Int.toNat).flatMap (modeCommands privateCsi true)
  | .resetModes => (params.map Int.toNat).flatMap (modeCommands privateCsi false)
  | .report =>
      if valueAt params 0 = 5 then [.reply statusReply]
      else if valueAt params 0 = 6 then [.reportCursor]
      else []
  | .deviceAttributes => [.reply attributesReply]
  | .other => []

def csiCommands (final : CsiFinal) (privateCsi : Bool) (params : List Int) : List Command :=
  .cancelWrap :: csiAction final privateCsi params

/-- The character a code point is displayed as. -/
def glyph (codePoint : Nat) : Nat :=
  if codePoint = 0 ∨ codePoint > 0xffff ∨ (codePoint ≥ 0xd800 ∧ codePoint ≤ 0xdfff) then 0x3f
  else codePoint

namespace Parser

/-- A byte outside any sequence. -/
def ground (p : Parser) (byte : UInt8) : Parser × List Command :=
  if byte = 0x1b then ({ p with state := .escape }, [])
  else if byte = 0x0d then (p, [.carriageReturn])
  else if byte = 0x0a then (p, [.index])
  else if byte = 0x08 then (p, [.backspace])
  else if byte = 0x09 then (p, [.tab])
  else if byte ≥ 0x20 ∧ byte < 0x7f then (p, [.print byte.toNat])
  else if byte &&& 0xe0 = 0xc0 then
    ({ p with utf8Remaining := 1, utf8CodePoint := (byte &&& 0x1f).toNat }, [])
  else if byte &&& 0xf0 = 0xe0 then
    ({ p with utf8Remaining := 2, utf8CodePoint := (byte &&& 0x0f).toNat }, [])
  else if byte &&& 0xf8 = 0xf0 then
    ({ p with utf8Remaining := 3, utf8CodePoint := (byte &&& 0x07).toNat }, [])
  else (p, [])

/-- A continuation byte of a UTF-8 sequence. -/
def continuation (p : Parser) (byte : UInt8) : Parser × List Command :=
  let codePoint := ((p.utf8CodePoint <<< 6) ||| (byte &&& 0x3f).toNat) % 0x100000000
  ({ p with utf8CodePoint := codePoint, utf8Remaining := p.utf8Remaining - 1 },
    if p.utf8Remaining - 1 = 0 then [.print (glyph codePoint)] else [])

/-- A byte that arrives in ground state. -/
def text (p : Parser) (byte : UInt8) : Parser × List Command :=
  if p.utf8Remaining = 0 then p.ground byte
  else if byte &&& 0xc0 = 0x80 then p.continuation byte
  else
    let (p, commands) := { p with utf8Remaining := 0 }.ground byte
    (p, .print (glyph 0xfffd) :: commands)

/-- The byte after `ESC`. -/
def escape (p : Parser) (byte : UInt8) : Parser × List Command :=
  if byte = 0x5b then ({ p.reset with state := .csi }, [])
  else if byte = 0x5d then ({ p with state := .osc }, [])
  else
    ({ p with state := .ground },
      if byte = 0x37 then [.saveCursor]
      else if byte = 0x38 then [.restoreCursor]
      else if byte = 0x44 then [.index]
      else if byte = 0x4d then [.reverseIndex]
      else if byte = 0x45 then [.carriageReturn, .index]
      else if byte = 0x63 then [.reset]
      else [])

/-- Append a digit to the parameter being collected. -/
def digit (p : Parser) (byte : UInt8) : Parser :=
  let value := max 0 (p.parameters (p.parameterCount - 1))
  { p with
    parameters := Function.update p.parameters (p.parameterCount - 1)
      (if value < 1000000 then value * 10 + (byte.toNat - 0x30 : Int) else value) }

/-- Start the next parameter, unless the array is full. -/
def separator (p : Parser) : Parser :=
  if p.parameterCount < terminalMaxParams then
    { p with
      parameters := Function.update p.parameters p.parameterCount (-1)
      parameterCount := p.parameterCount + 1 }
  else p

/-- A byte of a control sequence. -/
def csi (p : Parser) (byte : UInt8) : Parser × List Command :=
  if byte = 0x3f ∧ p.parameterCount = 1 ∧ p.parameters 0 < 0 then
    ({ p with privateCsi := true }, [])
  else if byte ≥ 0x30 ∧ byte ≤ 0x39 then (p.digit byte, [])
  else if byte = 0x3b then (p.separator, [])
  else if byte ≥ 0x40 ∧ byte ≤ 0x7e then
    ({ p with state := .ground }, csiCommands (csiFinal byte) p.privateCsi p.params)
  else (p, [])

/-- One byte: the next state, and the instructions completed. -/
def next (p : Parser) (byte : UInt8) : Parser × List Command :=
  if byte = 0x1b then
    if p.state = .osc then ({ p with state := .oscEscape }, [])
    else if p.state ≠ .oscEscape then ({ p with state := .escape, utf8Remaining := 0 }, [])
    else (p, [])
  else
    match p.state with
    | .ground => p.text byte
    | .escape => p.escape byte
    | .csi => p.csi byte
    | .osc => ({ p with state := if byte = 0x07 then .ground else .osc }, [])
    | .oscEscape => ({ p with state := if byte = 0x5c then .ground else .osc }, [])

end Parser

namespace Screen

/-- One byte from the server. -/
def feedByte (t : Terminal) (byte : UInt8) : Terminal :=
  execAll { t with parser := (t.parser.next byte).1 } (t.parser.next byte).2

/-- Bytes from the server. -/
def feed (t : Terminal) (data : List UInt8) : Terminal :=
  data.foldl feedByte t

@[simp] theorem feed_nil (t : Terminal) : feed t [] = t := rfl

@[simp] theorem feed_cons (t : Terminal) (byte : UInt8) (rest : List UInt8) :
    feed t (byte :: rest) = feed (feedByte t byte) rest := rfl

/-- Bytes in two pieces. -/
theorem feed_append (t : Terminal) (first rest : List UInt8) :
    feed t (first ++ rest) = feed (feed t first) rest :=
  List.foldl_append

end Screen

end WolfSshUefi
