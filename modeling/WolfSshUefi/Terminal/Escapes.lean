import WolfSshUefi.Terminal.Streams

/-!
# Escape sequences the parser does not know

The byte after `ESC` ends every escape sequence that is not a control sequence
or an OSC string.  Of a longer one the parser swallows the first two bytes and
prints the rest: the later intermediates and the final byte of an nF sequence,
the payload of a DCS, SOS, PM or APC string.  Such a sequence is swallowed as a
whole exactly when nothing is left to print.
-/

namespace WolfSshUefi

/-- Everything on the screen, and what programs have set, is the same. -/
structure SameScreen (t u : Terminal) : Prop where
  cells : ∀ i j, i < t.rows → j < t.columns →
    u.primary i j = t.primary i j ∧ u.alternate i j = t.alternate i j
  cursor : u.row = t.row ∧ u.column = t.column
  rendition : u.foreground = t.foreground ∧ u.background = t.background ∧
    u.bold = t.bold ∧ u.reverse = t.reverse
  margins : u.scrollTop = t.scrollTop ∧ u.scrollBottom = t.scrollBottom
  modes : u.applicationCursor = t.applicationCursor ∧ u.cursorVisible = t.cursorVisible ∧
    u.insertMode = t.insertMode ∧ u.alternateActive = t.alternateActive
  replies : u.queued = t.queued

theorem SameScreen.refl (t : Terminal) : SameScreen t t :=
  ⟨fun _ _ _ _ => ⟨rfl, rfl⟩, ⟨rfl, rfl⟩, ⟨rfl, rfl, rfl, rfl⟩, ⟨rfl, rfl⟩, ⟨rfl, rfl, rfl, rfl⟩, rfl⟩

/-! ### The sequences -/

/-- A byte that is printed as it is. -/
def TextByte (byte : UInt8) : Prop := 0x20 ≤ byte ∧ byte ≤ 0x7e

instance (byte : UInt8) : Decidable (TextByte byte) := by
  unfold TextByte; infer_instance

/-- An nF escape sequence, or a DCS, SOS, PM or APC string. -/
inductive UnsupportedSequence
  | nF (first : UInt8) (more : List UInt8) (final : UInt8)
      (hfirst : 0x20 ≤ first ∧ first ≤ 0x2f) (hmore : ∀ b ∈ more, 0x20 ≤ b ∧ b ≤ 0x2f)
      (hfinal : 0x30 ≤ final ∧ final ≤ 0x7e)
  | string (introducer : UInt8) (payload : List UInt8)
      (hintroducer : introducer ∈ ([0x50, 0x58, 0x5e, 0x5f] : List UInt8))
      (hpayload : ∀ b ∈ payload, TextByte b)

namespace UnsupportedSequence

def bytes : UnsupportedSequence → List UInt8
  | nF first more final _ _ _ => 0x1b :: first :: (more ++ [final])
  | string introducer payload _ _ => 0x1b :: introducer :: (payload ++ [0x1b, 0x5c])

/-- The bytes of the sequence that are printed. -/
def leaked : UnsupportedSequence → List UInt8
  | nF _ more final _ _ _ => more ++ [final]
  | string _ payload _ _ => payload

/-- What leaks of a sequence is text. -/
theorem leaked_text (σ : UnsupportedSequence) : ∀ b ∈ σ.leaked, TextByte b := by
  intro b hb
  cases σ with
  | nF first more final hfirst hmore hfinal =>
      rcases List.mem_append.mp hb with hmem | hlast
      · obtain ⟨hlow, hhigh⟩ := hmore b hmem
        exact ⟨hlow, UInt8.le_trans hhigh (by decide)⟩
      · obtain rfl := List.mem_singleton.mp hlast
        exact ⟨UInt8.le_trans (by decide) hfinal.1, hfinal.2⟩
  | string introducer payload hintroducer hpayload => exact hpayload b hb

end UnsupportedSequence

/-- The parser is between sequences. -/
def Parser.Idle (p : Parser) : Prop := p.state = .ground ∧ p.utf8Remaining = 0

/-- The instructions that print some text. -/
def printText (text : List UInt8) : List Command := text.map fun b => .print b.toNat

namespace Parser

variable {p : Parser}

/-- An idle parser prints text. -/
theorem Idle.next_text (h : p.Idle) {byte : UInt8} (hbyte : TextByte byte) :
    p.next byte = (p, [.print byte.toNat]) := by
  have hlow : 0x20 ≤ byte.toNat := hbyte.1
  have hhigh : byte.toNat ≤ 0x7e := hbyte.2
  have hne (b : UInt8) (hb : b.toNat < 0x20) : byte ≠ b := by
    intro heq
    obtain rfl := heq
    omega
  have hprintable : byte ≥ 0x20 ∧ byte < 0x7f := by
    refine ⟨hbyte.1, ?_⟩
    rw [UInt8.lt_iff_toNat_lt]
    exact Nat.lt_succ_of_le hhigh
  unfold Parser.next
  rw [if_neg (hne 0x1b (by decide)), h.1]
  unfold Parser.text Parser.ground
  rw [if_pos h.2, if_neg (hne 0x1b (by decide)), if_neg (hne 0x0d (by decide)),
    if_neg (hne 0x0a (by decide)), if_neg (hne 0x08 (by decide)), if_neg (hne 0x09 (by decide)),
    if_pos hprintable]

/-- Text is printed byte by byte. -/
theorem Idle.read_text (h : p.Idle) {text : List UInt8} (htext : ∀ b ∈ text, TextByte b) :
    p.commands text = printText text ∧ p.after text = p := by
  induction text with
  | nil => exact ⟨rfl, rfl⟩
  | cons byte rest ih =>
      obtain ⟨hcommands, hafter⟩ := ih fun b hb => htext b (List.mem_cons_of_mem byte hb)
      rw [commands_cons, after_cons, h.next_text (htext byte List.mem_cons_self)]
      exact ⟨congrArg (List.cons _) hcommands, hafter⟩

/-- The bytes that mean something after `ESC`. -/
def escapeBytes : List UInt8 := [0x1b, 0x5b, 0x5d, 0x37, 0x38, 0x44, 0x4d, 0x45, 0x63]

/-- Any other byte ends the sequence. -/
theorem Idle.read_escape (h : p.Idle) {byte : UInt8} (hbyte : byte ∉ escapeBytes) :
    p.commands [0x1b, byte] = [] ∧ (p.after [0x1b, byte]).Idle := by
  simp only [escapeBytes, List.mem_cons, List.not_mem_nil, or_false, not_or] at hbyte
  simp [Parser.next, Parser.escape, h.1, hbyte, Idle]

/-- An intermediate byte is unknown after ESC. -/
theorem intermediate_unknown {byte : UInt8} (h : 0x20 ≤ byte ∧ byte ≤ 0x2f) :
    byte ∉ escapeBytes := by
  have hknown : ∀ b ∈ escapeBytes, ¬ (0x20 ≤ b ∧ b ≤ 0x2f) := by decide +kernel
  exact fun hmem => hknown byte hmem h

/-- So are the introducers of strings other than OSC. -/
theorem introducer_unknown :
    ∀ b ∈ ([0x50, 0x58, 0x5e, 0x5f] : List UInt8), b ∉ escapeBytes := by
  decide +kernel

/-- **What an unsupported sequence does**: its leaked bytes are printed. -/
theorem Idle.read_unsupported (h : p.Idle) (σ : UnsupportedSequence) :
    p.commands σ.bytes = printText σ.leaked ∧ (p.after σ.bytes).state = .ground := by
  have htext := σ.leaked_text
  cases σ with
  | nF first more final hfirst hmore hfinal =>
      obtain ⟨hsilent, hidle⟩ := h.read_escape (intermediate_unknown hfirst)
      obtain ⟨hprinted, hsame⟩ := hidle.read_text htext
      have hsplit : (UnsupportedSequence.nF first more final hfirst hmore hfinal).bytes =
          [0x1b, first] ++ (more ++ [final]) := rfl
      rw [hsplit, commands_append, after_append, hsilent]
      exact ⟨hprinted, hsame.symm ▸ hidle.1⟩
  | string introducer payload hintroducer hpayload =>
      obtain ⟨hsilent, hidle⟩ := h.read_escape (introducer_unknown introducer hintroducer)
      obtain ⟨hprinted, hsame⟩ := hidle.read_text htext
      -- the backslash of the terminator is again an unknown byte after ESC
      obtain ⟨hsilent', hidle'⟩ := (hidle.read_escape (show (0x5c : UInt8) ∉ escapeBytes by decide))
      have hsplit : (UnsupportedSequence.string introducer payload hintroducer hpayload).bytes =
          [0x1b, introducer] ++ (payload ++ [0x1b, 0x5c]) := rfl
      rw [hsplit, commands_append, after_append, hsilent, commands_append, after_append]
      simp only [UnsupportedSequence.leaked] at hprinted hsame ⊢
      rw [hprinted, hsame, hsilent']
      exact ⟨List.append_nil _, hidle'.1⟩

end Parser

/-! ### Printed text moves the cursor -/

namespace Screen

open Terminal

/-- How many columns of its line the cursor has passed. -/
def position (t : Terminal) : Nat := if t.wrapPending then t.columns else t.column

/-- Printing moves the cursor on by one, or to the next line. -/
theorem position_print {t : Terminal} (ht : t.WellFormed) (character : Nat) :
    position (print t character) = position t % t.columns + 1 ∧
      (print t character).columns = t.columns := by
  have hcolumn := ht.column_lt
  have hwrap : (wrap t).columns = t.columns ∧ (wrap t).wrapPending = false ∧
      (wrap t).column = position t % t.columns := by
    unfold wrap position
    cases hpending : t.wrapPending with
    | true =>
        rw [if_pos rfl, if_pos rfl, Nat.mod_self]
        unfold index
        split <;> exact ⟨rfl, rfl, rfl⟩
    | false => exact ⟨rfl, hpending, (Nat.mod_eq_of_lt hcolumn).symm⟩
  obtain ⟨hcolumns, hclear, hcolumn'⟩ := hwrap
  have hwrite (u : Terminal) : (write u character).columns = u.columns ∧
      (write u character).wrapPending = u.wrapPending ∧ (write u character).column = u.column := by
    unfold write
    split <;> exact ⟨rfl, rfl, rfl⟩
  obtain ⟨hcolumns', hclear', hcolumn''⟩ := hwrite (wrap t)
  unfold print advance position
  simp only [hcolumns', hclear', hcolumn'', hcolumns, hclear, hcolumn']
  refine ⟨?_, trivial⟩
  unfold position
  split <;> simp_all

/-- Text prints valid characters. -/
theorem printText_valid {text : List UInt8} (htext : ∀ b ∈ text, TextByte b) :
    ∀ c ∈ printText text, c.Valid := by
  intro c hc
  obtain ⟨byte, hbyte, rfl⟩ := List.mem_map.mp hc
  have hlow : 0x20 ≤ byte.toNat := (htext byte hbyte).1
  have hhigh : byte.toNat ≤ 0x7e := (htext byte hbyte).2
  exact ⟨by omega, by omega⟩

/-- A text of `n` characters moves the cursor on by `n`, counted around the line. -/
theorem position_printText {t : Terminal} (ht : t.WellFormed) {text : List UInt8}
    (htext : ∀ b ∈ text, TextByte b) :
    position (execAll t (printText text)) % t.columns = (position t + text.length) % t.columns ∧
      (execAll t (printText text)).columns = t.columns ∧
      (text ≠ [] → 1 ≤ position (execAll t (printText text))) := by
  induction text generalizing t with
  | nil => exact ⟨rfl, rfl, fun hne => absurd rfl hne⟩
  | cons byte rest ih =>
      have hvalid := printText_valid htext (.print byte.toNat) List.mem_cons_self
      obtain ⟨hposition, hcolumns⟩ := position_print ht byte.toNat
      obtain ⟨hrest, hwidth, hpos⟩ := ih (ht.exec hvalid) fun b hb => htext b (List.mem_cons_of_mem byte hb)
      have hfirst : exec t (.print byte.toNat) = print t byte.toNat := rfl
      rw [hfirst, hcolumns, hposition] at hrest
      rw [hfirst, hcolumns] at hwidth
      have hall : execAll t (printText (byte :: rest)) =
          execAll (print t byte.toNat) (printText rest) := rfl
      rw [hall]
      refine ⟨?_, hwidth, ?_⟩
      · rw [hrest, List.length_cons, Nat.add_assoc, Nat.add_comm 1, Nat.mod_add_mod]
      · intro _
        cases rest with
        | nil =>
            change 1 ≤ position (print t byte.toNat)
            omega
        | cons _ _ => exact hpos (List.cons_ne_nil _ _)

end Screen

/-! ### Exactly which sequences are swallowed -/

/-- Feeding the sequence changes nothing. -/
def UnsupportedSequence.Swallowed (σ : UnsupportedSequence) (t : Terminal) : Prop :=
  ∃ u, t.feed σ.bytes = .ok u ∧ u.parser.state = .ground ∧ SameScreen t u ∧
    u.wrapPending = t.wrapPending

/-- Printing the text changes nothing. -/
def Terminal.Absorbs (t : Terminal) (text : List UInt8) : Prop :=
  SameScreen t (Screen.execAll t (printText text)) ∧
    (Screen.execAll t (printText text)).wrapPending = t.wrapPending

namespace Terminal

open Screen

theorem absorbs_nil (t : Terminal) : t.Absorbs [] := ⟨.refl t, rfl⟩

/-- Text that leaves the cursor where it is fills whole lines. -/
theorem Absorbs.position {t : Terminal} {text : List UInt8} (h : t.Absorbs text)
    (ht : t.WellFormed) (htext : ∀ b ∈ text, TextByte b) (hne : text ≠ []) :
    t.columns ∣ text.length ∧ 1 ≤ Screen.position t := by
  obtain ⟨hsame, hpending⟩ := h
  obtain ⟨hmod, hcolumns, hpos⟩ := position_printText ht htext
  have hposition : Screen.position (execAll t (printText text)) = Screen.position t := by
    unfold Screen.position
    rw [hpending, hsame.cursor.2, hcolumns]
  rw [hposition] at hmod hpos
  refine ⟨?_, hpos hne⟩
  have hzero := Nat.sub_mod_eq_zero_of_mod_eq hmod.symm
  rw [Nat.add_sub_cancel_left] at hzero
  exact Nat.dvd_of_mod_eq_zero hzero

/-- A sequence is swallowed exactly if what leaks of it is absorbed. -/
theorem swallowed_iff_absorbs {t : Terminal} (ht : t.WellFormed) (hidle : t.parser.Idle)
    (σ : UnsupportedSequence) : σ.Swallowed t ↔ t.Absorbs σ.leaked := by
  obtain ⟨hcommands, hground⟩ := hidle.read_unsupported σ
  have hfeed : Screen.feed t σ.bytes =
      (execAll t (printText σ.leaked)).withParser (t.parser.after σ.bytes) := by
    rw [feed_eq_execAll, hcommands]
  constructor
  · intro hall
    obtain ⟨u, hu, -, hsame, hpending⟩ := hall
    rw [ht.feed_eq, Except.ok.injEq, hfeed] at hu
    subst hu
    exact ⟨{ hsame with }, hpending⟩
  · intro hboth
    obtain ⟨hsame, hpending⟩ := hboth
    refine ⟨_, ht.feed_eq _, ?_⟩
    rw [hfeed]
    exact ⟨hground, { hsame with }, hpending⟩

/-- **An unsupported sequence is swallowed exactly when** it has no bytes left
over to print.  Where some are left over, a state can hide it only by absorbing
the text: the text fills whole lines, starts after the first column and
overwrites its like. -/
theorem swallowed_iff (σ : UnsupportedSequence) :
    ((∀ t, Reachable t → t.parser.Idle → σ.Swallowed t) ↔ σ.leaked = []) ∧
      ∀ t, Reachable t → t.parser.Idle →
        (σ.Swallowed t ↔ σ.leaked = [] ∨
          t.columns ∣ σ.leaked.length ∧ 1 ≤ Screen.position t ∧ t.Absorbs σ.leaked) := by
  have hstate : ∀ t, Reachable t → t.parser.Idle →
      (σ.Swallowed t ↔ σ.leaked = [] ∨
        t.columns ∣ σ.leaked.length ∧ 1 ≤ Screen.position t ∧ t.Absorbs σ.leaked) := by
    intro t ht hidle
    rw [swallowed_iff_absorbs ht.wellFormed hidle]
    constructor
    · intro habsorbs
      by_cases hnone : σ.leaked = []
      · exact .inl hnone
      · obtain ⟨hlines, hposition⟩ := habsorbs.position ht.wellFormed σ.leaked_text hnone
        exact .inr ⟨hlines, hposition, habsorbs⟩
    · intro hcase
      obtain hnone | ⟨-, -, habsorbs⟩ := hcase
      · rw [hnone]
        exact absorbs_nil t
      · exact habsorbs
  refine ⟨⟨fun hall => ?_, fun hnone t ht hidle => (hstate t ht hidle).mpr (.inl hnone)⟩, hstate⟩
  -- a new terminal has its cursor in the first column
  have hnew := (created_ample 2 2 7).reachable
  rcases (hstate _ hnew ⟨rfl, rfl⟩).mp (hall _ hnew ⟨rfl, rfl⟩) with hnone | ⟨-, hposition, -⟩
  · exact hnone
  · exact absurd hposition (by decide)

/-- `ESC ( B`, which designates a character set. -/
def charset : UnsupportedSequence :=
  .nF 0x28 [] 0x42 (by decide) (by decide +kernel) (by decide)

/-- A new terminal prints the `B`. -/
theorem charset_leaks : charset.bytes = [0x1b, 0x28, 0x42] ∧
    Reachable (Firmware.ample 2 2 7).fresh ∧ (Firmware.ample 2 2 7).fresh.parser.Idle ∧
    ¬ charset.Swallowed (Firmware.ample 2 2 7).fresh := by
  have hnew := (created_ample 2 2 7).reachable
  refine ⟨rfl, hnew, ⟨rfl, rfl⟩, ?_⟩
  rw [swallowed_iff_absorbs hnew.wellFormed ⟨rfl, rfl⟩]
  intro hboth
  obtain ⟨hsame, -⟩ := hboth
  exact absurd hsame.cursor.2 (by decide)

end Terminal

end WolfSshUefi
