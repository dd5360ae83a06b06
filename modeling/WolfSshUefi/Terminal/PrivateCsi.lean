import WolfSshUefi.Library.Settings
import WolfSshUefi.Terminal.Escapes
import WolfSshUefi.Terminal.Layout

/-!
# Private and intermediate control sequences

The parser skips the markers `<`, `=` and `>` and the intermediate bytes of a
control sequence, and `?` matters to the modes only.  So every such sequence
is carried out as the standard one with its final byte, and is ignored exactly
when that one has nothing to do in the state at hand.  `Terminal.Idles` says
for every final byte when this is so.
-/

namespace WolfSshUefi

/-! ### The sequences -/

/-- A control sequence that is not a standard one: with a marker `<`, `=` or
`>`, with an intermediate byte, or with `?` where it has no meaning. -/
structure PrivateSequence where
  body : List UInt8
  final : UInt8
  body_bytes : ∀ b ∈ body, BodyByte b
  final_byte : FinalByte final
  marked : (∃ b ∈ body, b = 0x3c ∨ b = 0x3d ∨ b = 0x3e) ∨ (∃ b ∈ body, b ≤ 0x2f) ∨
    (0x3f ∈ body ∧ final ∉ ([0x68, 0x6c, 0x4a, 0x4b, 0x6e] : List UInt8))

def PrivateSequence.bytes (σ : PrivateSequence) : List UInt8 := controlSequence σ.body σ.final

/-- The parser at the start of a control sequence of its own. -/
def Parser.start : Parser where
  state := .csi
  parameters := fun _ => -1
  parameterCount := 1
  privateCsi := false
  utf8Remaining := 0
  utf8CodePoint := 0

/-- The parameters between `ESC [` and the final byte. -/
def bodyParameters (body : List UInt8) : List Int := (Parser.start.after body).params

/-- Whether a `?` counts as a marker. -/
def bodyPrivate (body : List UInt8) : Bool := (Parser.start.after body).privateCsi

/-- The parameters do not depend on what was collected before. -/
theorem Parser.collected_body (p : Parser) {body : List UInt8} (hbody : ∀ b ∈ body, BodyByte b) :
    (p.collected body).privateCsi = bodyPrivate body ∧
      (p.collected body).params = bodyParameters body := by
  have halike : p.atCsi.Alike Parser.start :=
    { state := rfl, utf8Remaining := rfl, utf8CodePoint := fun hne => absurd rfl hne
      privateCsi := fun _ => rfl, parameterCount := fun _ => rfl
      parameters := fun _ i hi => by
        have hone : i < 1 := hi
        have hlt : i < terminalMaxParams := Nat.lt_of_lt_of_le hone (by decide)
        simp only [Parser.atCsi, Parser.reset, Parser.start, hlt, if_true] }
  have hend := (Transducer.alike_run (fun _ _ byte h => h.next byte) halike body).2
  have hcsi := p.collected_state hbody
  exact ⟨hend.privateCsi hcsi, Parser.Alike.params hend hcsi⟩

/-! ### What is to stay the same -/

/-- The screen and the saved cursor are the same. -/
def Unchanged (t u : Terminal) : Prop :=
  SameScreen t u ∧ u.savedRow = t.savedRow ∧ u.savedColumn = t.savedColumn

/-- Feeding the sequence changes nothing. -/
def PrivateSequence.Ignored (σ : PrivateSequence) (t : Terminal) : Prop :=
  ∃ u, t.feed σ.bytes = .ok u ∧ Unchanged t u

namespace Terminal

/-- The cells of some places hold `cell`. -/
def Holds (t : Terminal) (place : Nat → Nat → Prop) (cell : Cell) : Prop :=
  ∀ i j, i < t.rows → j < t.columns → place i j → t.active i j = cell

/-- An edit leaves the buffer as it is. -/
def Still (t : Terminal) (f : Grid Cell → Grid Cell) : Prop :=
  ∀ i j, i < t.rows → j < t.columns → f t.active i j = t.active i j

/-- The rows from `top` to the bottom margin move up onto their like. -/
def StillUp (t : Terminal) (top count : Nat) : Prop :=
  t.Still fun cells => cells.shiftUp top t.scrollBottom (min count (t.scrollBottom - top + 1))
    t.columns t.blank

/-- The rows from `top` to the bottom margin move down onto their like. -/
def StillDown (t : Terminal) (top count : Nat) : Prop :=
  t.Still fun cells => cells.shiftDown top t.scrollBottom (min count (t.scrollBottom - top + 1))
    t.columns t.blank

/-- The mode is on, or off, already. -/
def ModeIs (t : Terminal) (privateCsi on : Bool) (mode : Nat) : Prop :=
  if privateCsi then
    (mode = 1 → t.applicationCursor = on) ∧ (mode = 25 → t.cursorVisible = on) ∧
      (mode = 47 ∨ mode = 1047 ∨ mode = 1049 → t.alternateActive = on)
  else mode = 4 → t.insertMode = on

/-- The value a field is given last is the value it has. -/
def LastIs {β : Type} (values : List β) (now : β) : Prop :=
  ∀ value, values.getLast? = some value → value = now

/-- What a change of colours sets the foreground to. -/
def setsForeground (t : Terminal) : Rendition → Option Nat
  | .reset | .defaultForeground => some t.defaultForeground
  | .foreground color => some color
  | _ => none

def setsBackground (t : Terminal) : Rendition → Option Nat
  | .reset | .defaultBackground => some t.defaultBackground
  | .background color => some color
  | _ => none

def setsBold : Rendition → Option Bool
  | .reset => some false
  | .bold on => some on
  | _ => none

def setsReverse : Rendition → Option Bool
  | .reset => some false
  | .reverse on => some on
  | _ => none

/-- A control sequence with this final byte has nothing to do. -/
def Idles (t : Terminal) (privateCsi : Bool) (params : List Int) (final : CsiFinal) : Prop :=
  let count := countAt params 0
  let changes := renditions (params.map Int.toNat)
  match final with
  | .cursorUp => t.row = 0
  | .cursorDown => t.row = t.rows - 1
  | .cursorForward => t.column = t.columns - 1
  | .cursorBack => t.column = 0
  | .nextLine => t.row = t.rows - 1 ∧ t.column = 0
  | .previousLine => t.row = 0 ∧ t.column = 0
  | .columnAbsolute => t.column = min (t.columns - 1) (count - 1)
  | .position => t.row = min (t.rows - 1) (count - 1) ∧
      t.column = min (t.columns - 1) (countAt params 1 - 1)
  | .lineAbsolute => t.row = min (t.rows - 1) (count - 1)
  | .eraseDisplay =>
      if valueAt params 0 = 2 ∨ valueAt params 0 = 3 then t.Holds (fun _ _ => True) t.defaultBlank
      else if valueAt params 0 = 1 then
        t.Holds (fun i j => i < t.row ∨ (i = t.row ∧ j ≤ t.column)) t.blank
      else t.Holds (fun i j => t.row < i ∨ (i = t.row ∧ t.column ≤ j)) t.blank
  | .eraseLine =>
      if valueAt params 0 = 1 then t.Holds (fun i j => i = t.row ∧ j ≤ t.column) t.blank
      else if valueAt params 0 = 2 then t.Holds (fun i _ => i = t.row) t.blank
      else t.Holds (fun i j => i = t.row ∧ t.column ≤ j) t.blank
  | .rendition =>
      LastIs (changes.filterMap t.setsForeground) t.foreground ∧
        LastIs (changes.filterMap t.setsBackground) t.background ∧
        LastIs (changes.filterMap setsBold) t.bold ∧
        LastIs (changes.filterMap setsReverse) t.reverse
  | .saveCursor => t.savedRow = t.row ∧ t.savedColumn = t.column
  | .restoreCursor => t.row = min t.savedRow (t.rows - 1) ∧
      t.column = min t.savedColumn (t.columns - 1)
  | .margins =>
      let bottom := (givenAt params 1).getD t.rows
      count < bottom ∧ bottom ≤ t.rows →
        t.scrollTop = count - 1 ∧ t.scrollBottom = bottom - 1 ∧ t.row = 0 ∧ t.column = 0
  | .insertLines => Screen.InMargins t → t.StillDown t.row count
  | .deleteLines => Screen.InMargins t → t.StillUp t.row count
  | .insertCharacters => t.Still fun cells =>
      cells.shiftRight t.row t.column (min count (t.columns - t.column)) t.columns t.blank
  | .deleteCharacters => t.Still fun cells =>
      cells.shiftLeft t.row t.column (min count (t.columns - t.column)) t.columns t.blank
  | .eraseCharacters =>
      t.Holds (fun i j => i = t.row ∧ t.column ≤ j ∧ j < t.column + count) t.blank
  | .scrollUp => t.StillUp t.scrollTop count
  | .scrollDown => t.StillDown t.scrollTop count
  | .setModes => ∀ mode ∈ params.map Int.toNat, t.ModeIs privateCsi true mode
  | .resetModes => ∀ mode ∈ params.map Int.toNat, t.ModeIs privateCsi false mode
  | .report => valueAt params 0 = 5 ∨ valueAt params 0 = 6 → t.replyLength = terminalReplySize
  | .deviceAttributes => t.replyLength = terminalReplySize
  | .other => True

end Terminal

/-! ### Instructions that change nothing -/

namespace Unchanged

open Screen Terminal

variable {t u : Terminal}

/-- A terminal is unchanged. -/
theorem refl (t : Terminal) : Unchanged t t := ⟨.refl t, rfl, rfl⟩

/-- Moving the cursor. -/
theorem cursor_iff (t : Terminal) (row column : Nat) :
    Unchanged t { t with row := row, column := column } ↔ t.row = row ∧ t.column = column := by
  constructor
  · intro hall
    obtain ⟨hsame, -, -⟩ := hall
    exact ⟨hsame.cursor.1.symm, hsame.cursor.2.symm⟩
  · intro hboth
    obtain ⟨rfl, rfl⟩ := hboth
    exact refl t

/-- Another row is a change. -/
theorem row_iff (t : Terminal) (row : Nat) : Unchanged t { t with row := row } ↔ t.row = row := by
  simpa using cursor_iff t row t.column

theorem column_iff (t : Terminal) (column : Nat) :
    Unchanged t { t with column := column } ↔ t.column = column := by
  simpa using cursor_iff t t.row column

/-! The dirty intervals, the calls on the console, the parser and a deferred
wrap are not looked at. -/

/-- Dirty intervals do not count. -/
theorem mark_iff (first count left right : Nat) :
    Unchanged t (mark u first count left right) ↔ Unchanged t u :=
  ⟨fun h => ⟨{ h.1 with }, h.2⟩, fun h => ⟨{ h.1 with }, h.2⟩⟩

/-- Neither does a console call. -/
theorem markClean_iff : Unchanged t (markClean u.clearScreen) ↔ Unchanged t u :=
  ⟨fun h => ⟨{ h.1 with }, h.2⟩, fun h => ⟨{ h.1 with }, h.2⟩⟩

theorem withParser_iff (p : Parser) : Unchanged t (u.withParser p) ↔ Unchanged t u :=
  ⟨fun h => ⟨{ h.1 with }, h.2⟩, fun h => ⟨{ h.1 with }, h.2⟩⟩

theorem cancelWrap_iff : Unchanged (cancelWrap t) u ↔ Unchanged t u :=
  ⟨fun h => ⟨{ h.1 with }, h.2⟩, fun h => ⟨{ h.1 with }, h.2⟩⟩

/-- Changing the active buffer. -/
theorem edit_iff (t : Terminal) (f : Grid Cell → Grid Cell) :
    Unchanged t (t.edit f) ↔ t.Still f := by
  unfold Still
  rw [← t.active_edit f]
  constructor
  · intro hall i j hi hj
    obtain ⟨hsame, -, -⟩ := hall
    obtain ⟨hprimary, halternate⟩ := hsame.cells i j hi hj
    have hcells : (t.edit f).cells = t.cells := rfl
    unfold active
    rw [hcells]
    cases t.cells with
    | primary => exact hprimary
    | alternate => exact halternate
  · intro hstill
    refine ⟨{ SameScreen.refl t with cells := fun i j hi hj => ?_ }, rfl, rfl⟩
    have hcell := hstill i j hi hj
    revert hcell
    unfold active edit editBuffer
    cases t.cells <;> simp

/-- Changing the active buffer and marking what changed. -/
theorem edit_mark_iff (t : Terminal) (f : Grid Cell → Grid Cell) (first count left right : Nat) :
    Unchanged t (mark (t.edit f) first count left right) ↔ t.Still f :=
  (mark_iff first count left right).trans (edit_iff t f)

/-- Filling places with a cell. -/
theorem still_fill_iff {place : Nat → Nat → Prop} {first count left stop : Nat} {cell : Cell}
    (hplace : ∀ i j, i < t.rows → j < t.columns →
      (first ≤ i ∧ i < first + count ∧ left ≤ j ∧ j < stop ↔ place i j)) :
    (t.Still fun cells => cells.fill first count left stop cell) ↔ t.Holds place cell := by
  simp only [Still, Holds, Grid.fill]
  constructor
  · intro hstill i j hi hj hin
    have hcell := hstill i j hi hj
    rw [if_pos ((hplace i j hi hj).mpr hin)] at hcell
    exact hcell.symm
  · intro hholds i j hi hj
    split
    · next hin => exact (hholds i j hi hj ((hplace i j hi hj).mp hin)).symm
    · rfl

/-- Erasing changes nothing where the blanks are there already. -/
theorem erase_iff {place : Nat → Nat → Prop} {first count left right : Nat} {cell : Cell}
    (hplace : ∀ i j, i < t.rows → j < t.columns →
      (first ≤ i ∧ i < first + count ∧ left ≤ j ∧ j < right + 1 ↔ place i j)) :
    Unchanged t (erase t first count left right cell) ↔ t.Holds place cell :=
  (edit_mark_iff t _ _ _ _ _).trans (still_fill_iff hplace)

/-- Erasing two rectangles. -/
theorem erase_erase_iff {place : Nat → Nat → Prop}
    {first count left right first' count' left' right' : Nat} {cell : Cell}
    (hplace : ∀ i j, i < t.rows → j < t.columns →
      ((first ≤ i ∧ i < first + count ∧ left ≤ j ∧ j < right + 1) ∨
        (first' ≤ i ∧ i < first' + count' ∧ left' ≤ j ∧ j < right' + 1) ↔ place i j)) :
    Unchanged t (erase (erase t first count left right cell) first' count' left' right' cell) ↔
      t.Holds place cell := by
  have hboth : erase (erase t first count left right cell) first' count' left' right' cell =
      mark (mark ((t.edit fun cells => cells.fill first count left (right + 1) cell).edit
        fun cells => cells.fill first' count' left' (right' + 1) cell) first count left right)
        first' count' left' right' := rfl
  rw [hboth, mark_iff, mark_iff, edit_edit, edit_iff]
  simp only [Still, Holds, Grid.fill]
  constructor
  · intro hstill i j hi hj hin
    have hcell := hstill i j hi hj
    rcases (hplace i j hi hj).mpr hin with hfirst | hsecond
    · rw [if_pos hfirst, ite_self] at hcell
      exact hcell.symm
    · rw [if_pos hsecond] at hcell
      exact hcell.symm
  · intro hholds i j hi hj
    split
    · next hin => exact (hholds i j hi hj ((hplace i j hi hj).mp (.inr hin))).symm
    · split
      · next hin => exact (hholds i j hi hj ((hplace i j hi hj).mp (.inl hin))).symm
      · rfl

/-- So does each mode of `CSI J`, on its part of the screen. -/
theorem eraseDisplay_iff (ht : t.WellFormed) (mode : Nat) :
    Unchanged t (eraseDisplay t mode) ↔
      if mode = 2 ∨ mode = 3 then t.Holds (fun _ _ => True) t.defaultBlank
      else if mode = 1 then t.Holds (fun i j => i < t.row ∨ (i = t.row ∧ j ≤ t.column)) t.blank
      else t.Holds (fun i j => t.row < i ∨ (i = t.row ∧ t.column ≤ j)) t.blank := by
  have hrow := ht.row_lt
  have hcolumn := ht.column_lt
  unfold Screen.eraseDisplay
  split
  · rw [markClean_iff]
    refine (edit_iff t _).trans (still_fill_iff ?_)
    intro i j hi hj
    simp only [iff_true]
    omega
  split
  · exact erase_erase_iff fun i j hi hj => by omega
  · exact erase_erase_iff fun i j hi hj => by omega

/-- And each mode of `CSI K`, on its part of the line. -/
theorem eraseLine_iff (ht : t.WellFormed) (mode : Nat) :
    Unchanged t (eraseLine t mode) ↔
      if mode = 1 then t.Holds (fun i j => i = t.row ∧ j ≤ t.column) t.blank
      else if mode = 2 then t.Holds (fun i _ => i = t.row) t.blank
      else t.Holds (fun i j => i = t.row ∧ t.column ≤ j) t.blank := by
  have hcolumn := ht.column_lt
  unfold Screen.eraseLine
  split
  · exact erase_iff fun i j hi hj => by omega
  split
  · exact erase_iff fun i j hi hj => by omega
  · exact erase_iff fun i j hi hj => by omega

/-- Queueing a reply. -/
theorem queueReply_iff (ht : t.WellFormed) {bytes : List UInt8} (hne : bytes ≠ []) :
    Unchanged t (Screen.queueReply t bytes) ↔ t.replyLength = terminalReplySize := by
  have hle := ht.reply_le
  have hlength : 0 < bytes.length := List.length_pos_iff.mpr hne
  have hqueued (u : Terminal) : u.queued.length = u.replyLength := by
    simp [Terminal.queued]
  constructor
  · intro hall
    obtain ⟨hsame, -, -⟩ := hall
    have hsize := congrArg List.length hsame.replies
    rw [hqueued, hqueued] at hsize
    change t.replyLength + min bytes.length (terminalReplySize - t.replyLength) = t.replyLength at hsize
    omega
  · intro hfull
    have hnone : min bytes.length (terminalReplySize - t.replyLength) = 0 := by omega
    have hreplies (i : Nat) : ¬ (t.replyLength ≤ i ∧ i < t.replyLength) := by omega
    have hsame : Screen.queueReply t bytes = t := by
      unfold Screen.queueReply
      simp only [hnone, Nat.add_zero, hreplies, if_false]
    rw [hsame]
    exact refl t

/-- Setting the margins. -/
theorem setMargins_iff (t : Terminal) (top : Nat) (bottom : Option Nat) :
    Unchanged t (setMargins t top bottom) ↔
      (top + 1 < bottom.getD t.rows ∧ bottom.getD t.rows ≤ t.rows →
        t.scrollTop = top ∧ t.scrollBottom = bottom.getD t.rows - 1 ∧
          t.row = 0 ∧ t.column = 0) := by
  unfold setMargins
  split
  · next hvalid =>
      constructor
      · intro hall _
        obtain ⟨hsame, -, -⟩ := hall
        exact ⟨hsame.margins.1.symm, hsame.margins.2.symm, hsame.cursor.1.symm,
          hsame.cursor.2.symm⟩
      · intro hset
        obtain ⟨htop, hbottom, hrow, hcolumn⟩ := hset hvalid
        exact ⟨{ SameScreen.refl t with
          cursor := ⟨hrow.symm, hcolumn.symm⟩, margins := ⟨htop.symm, hbottom.symm⟩ }, rfl, rfl⟩
  · next hinvalid => exact ⟨fun _ hvalid => absurd hvalid hinvalid, fun _ => refl t⟩

/-- A change of colours changes the colours only. -/
theorem setRendition_frame (t : Terminal) (changes : List Rendition) :
    ∃ foreground background bold reverse, execAll t (changes.map .rendition) =
      { t with
        foreground := foreground, background := background, bold := bold, reverse := reverse } := by
  induction changes generalizing t with
  | nil => exact ⟨t.foreground, t.background, t.bold, t.reverse, rfl⟩
  | cons change rest ih =>
      obtain ⟨foreground, background, bold, reverse, hrest⟩ := ih (setRendition t change)
      refine ⟨foreground, background, bold, reverse, hrest.trans ?_⟩
      cases change <;> rfl

/-- Changing colours. -/
theorem rendition_iff (t : Terminal) (changes : List Rendition) :
    Unchanged t (execAll t (changes.map .rendition)) ↔
      LastIs (changes.filterMap t.setsForeground) t.foreground ∧
        LastIs (changes.filterMap t.setsBackground) t.background ∧
        LastIs (changes.filterMap setsBold) t.bold ∧
        LastIs (changes.filterMap setsReverse) t.reverse := by
  -- the default colours, which a reset goes back to, stay
  let inv (u : Terminal) : Prop :=
    u.defaultForeground = t.defaultForeground ∧ u.defaultBackground = t.defaultBackground
  have hinv : ∀ u change, inv u → inv (setRendition u change) := by
    intro u change hu
    cases change <;> exact hu
  have hforeground := Settings.unchanged_iff Terminal.foreground t.setsForeground
    (fun u change hu => by cases change <;> simp [setRendition, setsForeground, hu.1])
    hinv ⟨rfl, rfl⟩ changes
  have hbackground := Settings.unchanged_iff Terminal.background t.setsBackground
    (fun u change hu => by cases change <;> simp [setRendition, setsBackground, hu.2])
    hinv ⟨rfl, rfl⟩ changes
  have hbold := Settings.unchanged_iff Terminal.bold setsBold
    (fun u change _ => by cases change <;> simp [setRendition, setsBold])
    hinv ⟨rfl, rfl⟩ changes
  have hreverse := Settings.unchanged_iff Terminal.reverse setsReverse
    (fun u change _ => by cases change <;> simp [setRendition, setsReverse])
    hinv ⟨rfl, rfl⟩ changes
  have hrun : execAll t (changes.map .rendition) = changes.foldl setRendition t := by
    rw [execAll, List.foldl_map]
    rfl
  rw [← hrun] at hforeground hbackground hbold hreverse
  unfold LastIs
  rw [← hforeground, ← hbackground, ← hbold, ← hreverse]
  constructor
  · intro hall
    obtain ⟨hsame, -, -⟩ := hall
    exact hsame.rendition
  · intro hrendition
    obtain ⟨foreground, background, bold, reverse, hframe⟩ := setRendition_frame t changes
    rw [hframe] at hrendition ⊢
    exact ⟨{ SameScreen.refl t with rendition := hrendition }, rfl, rfl⟩

end Unchanged

/-! ### Modes -/

/-- The modes that a control sequence can set and reset. -/
inductive Mode
  | applicationCursor | cursorVisible | insertMode | alternateScreen
  deriving DecidableEq, Repr

namespace Mode

open Screen Terminal

def command (on : Bool) : Mode → Command
  | .applicationCursor => .applicationCursor on
  | .cursorVisible => .cursorVisible on
  | .insertMode => .insertMode on
  | .alternateScreen => .alternateScreen on

def isOn (t : Terminal) : Mode → Bool
  | .applicationCursor => t.applicationCursor
  | .cursorVisible => t.cursorVisible
  | .insertMode => t.insertMode
  | .alternateScreen => t.alternateActive

/-- The mode with this number, if there is one. -/
def ofNumber (privateCsi : Bool) (mode : Nat) : Option Mode :=
  if privateCsi then
    if mode = 1 then some .applicationCursor
    else if mode = 25 then some .cursorVisible
    else if mode = 47 ∨ mode = 1047 ∨ mode = 1049 then some .alternateScreen
    else none
  else if mode = 4 then some .insertMode
  else none

/-- A number of a mode is one instruction, or none. -/
theorem modeCommands_eq (privateCsi on : Bool) (mode : Nat) :
    modeCommands privateCsi on mode = ((ofNumber privateCsi mode).map (command on)).toList := by
  unfold modeCommands ofNumber
  repeat' split
  all_goals rfl

/-- The numbers of a sequence are the modes among them. -/
theorem flatMap_modeCommands (privateCsi on : Bool) (codes : List Nat) :
    codes.flatMap (modeCommands privateCsi on) =
      (codes.filterMap (ofNumber privateCsi)).map (command on) := by
  induction codes with
  | nil => rfl
  | cons mode rest ih =>
      rw [List.flatMap_cons, ih, modeCommands_eq]
      cases hmode : ofNumber privateCsi mode <;> simp [hmode]

/-- The mode of a number is as wanted. -/
theorem modeIs_iff (t : Terminal) (privateCsi on : Bool) (mode : Nat) :
    t.ModeIs privateCsi on mode ↔ ∀ m, ofNumber privateCsi mode = some m → m.isOn t = on := by
  unfold ModeIs ofNumber
  repeat' split
  all_goals simp_all [isOn]

/-- Setting a mode sets this mode only. -/
theorem isOn_exec (t : Terminal) (on : Bool) (m m' : Mode) :
    m'.isOn (exec t (m.command on)) = if m' = m then on else m'.isOn t := by
  cases m with
  | alternateScreen =>
      simp only [command, exec, Screen.alternateScreen]
      split
      · next hsame => cases m' <;> simp [isOn, Screen.cancelWrap, hsame]
      · cases on <;> cases m' <;> rfl
  | _ => cases m' <;> rfl

/-- A mode that is set already stays as it is, and so does the rest. -/
theorem exec_command {t : Terminal} {on : Bool} {m : Mode} (h : m.isOn t = on) :
    exec t (m.command on) = t ∨ exec t (m.command on) = Screen.cancelWrap t := by
  cases m with
  | alternateScreen =>
      right
      simp only [command, exec, Screen.alternateScreen]
      exact if_pos h.symm
  | _ =>
      left
      subst h
      rfl

/-- After a sequence its modes are as it says, and the others as they were. -/
theorem isOn_execAll (t : Terminal) (on : Bool) (modes : List Mode) (m : Mode) :
    m.isOn (execAll t (modes.map (command on))) = if m ∈ modes then on else m.isOn t := by
  induction modes generalizing t with
  | nil => rfl
  | cons first rest ih =>
      rw [List.map_cons, execAll_cons, ih, isOn_exec]
      by_cases hrest : m ∈ rest
      · simp [hrest]
      · simp [hrest]

/-- Modes that are as they should be change nothing. -/
theorem unchanged_execAll {t : Terminal} {on : Bool} {modes : List Mode}
    (h : ∀ m ∈ modes, m.isOn t = on) : Unchanged t (execAll t (modes.map (command on))) := by
  induction modes generalizing t with
  | nil => exact .refl t
  | cons first rest ih =>
      rw [List.map_cons, execAll_cons]
      have hrest : ∀ m ∈ rest, m.isOn t = on := fun m hm => h m (List.mem_cons_of_mem first hm)
      rcases exec_command (h first List.mem_cons_self) with hsame | hcancel
      · rw [hsame]
        exact ih hrest
      · rw [hcancel, ← Unchanged.cancelWrap_iff]
        refine ih fun m hm => ?_
        rw [← hrest m hm]
        cases m <;> rfl

/-- Setting modes. -/
theorem unchanged_iff (t : Terminal) (privateCsi on : Bool) (codes : List Nat) :
    Unchanged t (execAll t (codes.flatMap (modeCommands privateCsi on))) ↔
      ∀ mode ∈ codes, t.ModeIs privateCsi on mode := by
  rw [flatMap_modeCommands]
  have hmodes : (∀ mode ∈ codes, t.ModeIs privateCsi on mode) ↔
      ∀ m ∈ codes.filterMap (ofNumber privateCsi), m.isOn t = on := by
    simp only [modeIs_iff, List.mem_filterMap]
    constructor
    · intro h m hall
      obtain ⟨mode, hmode, hm⟩ := hall
      exact h mode hmode m hm
    · intro h mode hmode m hm
      exact h m ⟨mode, hmode, hm⟩
  rw [hmodes]
  constructor
  · intro hall m hm
    obtain ⟨hsame, -, -⟩ := hall
    have hon := isOn_execAll t on (codes.filterMap (ofNumber privateCsi)) m
    rw [if_pos hm] at hon
    obtain ⟨happlication, hvisible, hinsert, hactive⟩ := hsame.modes
    rw [← hon]
    cases m with
    | applicationCursor => exact happlication.symm
    | cursorVisible => exact hvisible.symm
    | insertMode => exact hinsert.symm
    | alternateScreen => exact hactive.symm
  · exact unchanged_execAll

end Mode

/-! ### Exactly which sequences are ignored -/

namespace Terminal

open Screen

variable {t : Terminal}

/-- A report has bytes. -/
theorem cursorReport_ne_nil (row column : Nat) : cursorReport row column ≠ [] := by
  unfold cursorReport
  simp

/-- The rows between the margins move when the cursor is between them. -/
theorem unchanged_ite {P : Prop} [Decidable P] {u : Terminal} :
    Unchanged t (if P then u else t) ↔ (P → Unchanged t u) := by
  split
  · next hp => exact ⟨fun h _ => h, fun h => h hp⟩
  · next hn => exact ⟨fun _ hp => absurd hp hn, fun _ => .refl t⟩

/-- **What a control sequence does is nothing exactly when it idles.** -/
theorem unchanged_csiAction (ht : t.WellFormed) (final : CsiFinal) (privateCsi : Bool)
    (params : List Int) :
    Unchanged t (execAll t (csiAction final privateCsi params)) ↔
      t.Idles privateCsi params final := by
  have hrow := ht.row_lt
  have hcolumn := ht.column_lt
  have hcount := countAt_pos params 0
  cases final with
  | cursorUp =>
      refine (Unchanged.row_iff t (t.row - countAt params 0)).trans ?_
      change _ ↔ t.row = 0
      omega
  | cursorDown =>
      refine (Unchanged.row_iff t (min (t.rows - 1) (t.row + countAt params 0))).trans ?_
      change _ ↔ t.row = t.rows - 1
      omega
  | cursorForward =>
      refine (Unchanged.column_iff t (min (t.columns - 1) (t.column + countAt params 0))).trans ?_
      change _ ↔ t.column = t.columns - 1
      omega
  | cursorBack =>
      refine (Unchanged.column_iff t (t.column - countAt params 0)).trans ?_
      change _ ↔ t.column = 0
      omega
  | nextLine =>
      refine (Unchanged.cursor_iff t (min (t.rows - 1) (t.row + countAt params 0))
        (min (t.columns - 1) 0)).trans ?_
      change _ ↔ t.row = t.rows - 1 ∧ t.column = 0
      omega
  | previousLine =>
      refine (Unchanged.cursor_iff t (t.row - countAt params 0) (min (t.columns - 1) 0)).trans ?_
      change _ ↔ t.row = 0 ∧ t.column = 0
      omega
  | columnAbsolute => exact Unchanged.column_iff t _
  | position => exact Unchanged.cursor_iff t _ _
  | lineAbsolute => exact Unchanged.row_iff t _
  | eraseDisplay => exact Unchanged.eraseDisplay_iff ht _
  | eraseLine => exact Unchanged.eraseLine_iff ht _
  | rendition => exact Unchanged.rendition_iff t _
  | saveCursor =>
      constructor
      · intro hall
        obtain ⟨-, hsavedRow, hsavedColumn⟩ := hall
        exact ⟨hsavedRow.symm, hsavedColumn.symm⟩
      · intro hboth
        obtain ⟨hsavedRow, hsavedColumn⟩ := hboth
        exact ⟨{ SameScreen.refl t with }, hsavedRow.symm, hsavedColumn.symm⟩
  | restoreCursor => exact Unchanged.cursor_iff t _ _
  | margins =>
      refine (Unchanged.setMargins_iff t (countAt params 0 - 1) (givenAt params 1)).trans ?_
      simp only [Idles, Nat.sub_add_cancel hcount]
  | insertLines => exact unchanged_ite.trans (forall_congr' fun _ => Unchanged.edit_mark_iff t _ _ _ _ _)
  | deleteLines => exact unchanged_ite.trans (forall_congr' fun _ => Unchanged.edit_mark_iff t _ _ _ _ _)
  | insertCharacters => exact Unchanged.edit_mark_iff t _ _ _ _ _
  | deleteCharacters => exact Unchanged.edit_mark_iff t _ _ _ _ _
  | eraseCharacters => exact Unchanged.erase_iff fun i j hi hj => by omega
  | scrollUp => exact Unchanged.edit_mark_iff t _ _ _ _ _
  | scrollDown => exact Unchanged.edit_mark_iff t _ _ _ _ _
  | setModes => exact Mode.unchanged_iff t privateCsi true _
  | resetModes => exact Mode.unchanged_iff t privateCsi false _
  | report =>
      simp only [csiAction, Idles]
      split
      · next hfive =>
          refine (Unchanged.queueReply_iff ht (by decide)).trans ?_
          simp [hfive]
      · split
        · next hfive hsix =>
            refine (Unchanged.queueReply_iff ht (cursorReport_ne_nil t.row t.column)).trans ?_
            simp [hsix]
        · next hfive hsix => simp [hfive, hsix, Unchanged.refl]
  | deviceAttributes => exact Unchanged.queueReply_iff ht (by decide)
  | other => exact ⟨fun _ => trivial, fun _ => .refl t⟩

/-- A private sequence is ignored exactly if its plain final byte has nothing to do. -/
theorem ignored_iff_idles (ht : t.WellFormed) (hground : t.parser.state = .ground)
    (σ : PrivateSequence) :
    σ.Ignored t ↔ t.Idles (bodyPrivate σ.body) (bodyParameters σ.body) (csiFinal σ.final) := by
  obtain ⟨hprivate, hparams⟩ := t.parser.collected_body σ.body_bytes
  have hfeed := feed_controlSequence (.of_ground hground) σ.body_bytes σ.final_byte
  rw [hprivate, hparams] at hfeed
  have hcancelled : (Screen.cancelWrap t).Idles (bodyPrivate σ.body) (bodyParameters σ.body)
      (csiFinal σ.final) ↔
      t.Idles (bodyPrivate σ.body) (bodyParameters σ.body) (csiFinal σ.final) := by
    cases csiFinal σ.final <;> exact Iff.rfl
  rw [← hcancelled, ← unchanged_csiAction ht.cancelWrap, Unchanged.cancelWrap_iff,
    ← Unchanged.withParser_iff, ← hfeed]
  constructor
  · intro hall
    obtain ⟨u, hu, hsame⟩ := hall
    rw [ht.feed_eq, Except.ok.injEq] at hu
    subst hu
    exact hsame
  · intro hsame
    exact ⟨_, ht.feed_eq _, hsame⟩

/-- **A private or intermediate control sequence is ignored exactly when** the
standard one with its final byte and its parameters has nothing to do. -/
theorem private_ignored_iff (h : Reachable t) (hground : t.parser.state = .ground)
    (σ : PrivateSequence) :
    σ.Ignored t ↔ t.Idles (bodyPrivate σ.body) (bodyParameters σ.body) (csiFinal σ.final) :=
  ignored_iff_idles h.wellFormed hground σ

/-- `CSI > 4 ; 1 m`, which sets a keyboard option. -/
def modifyOtherKeys : PrivateSequence where
  body := [0x3e, 0x34, 0x3b, 0x31]
  final := 0x6d
  body_bytes := by decide +kernel
  final_byte := by decide
  marked := .inl ⟨0x3e, by decide⟩

/-- `CSI > 4 ; 2 m` on a new terminal. -/
theorem private_ignored_modifyOtherKeys :
    modifyOtherKeys.Ignored (Firmware.ample 2 2 7).fresh ↔
      (Firmware.ample 2 2 7).fresh.Idles (bodyPrivate modifyOtherKeys.body)
        (bodyParameters modifyOtherKeys.body) (csiFinal modifyOtherKeys.final) :=
  private_ignored_iff (created_ample 2 2 7).reachable rfl modifyOtherKeys

/-- It turns bold on. -/
theorem modifyOtherKeys_sets_bold :
    modifyOtherKeys.bytes = [0x1b, 0x5b, 0x3e, 0x34, 0x3b, 0x31, 0x6d] ∧
      Reachable (Firmware.ample 2 2 7).fresh ∧
      (Firmware.ample 2 2 7).fresh.parser.state = .ground ∧
      ¬ modifyOtherKeys.Ignored (Firmware.ample 2 2 7).fresh := by
  have hnew := (created_ample 2 2 7).reachable
  refine ⟨rfl, hnew, rfl, ?_⟩
  intro hall
  obtain ⟨u, hu, hsame, -⟩ := hall
  rw [hnew.wellFormed.feed_eq, Except.ok.injEq] at hu
  subst hu
  exact absurd hsame.rendition.2.2.1 (by decide)

end Terminal

end WolfSshUefi
