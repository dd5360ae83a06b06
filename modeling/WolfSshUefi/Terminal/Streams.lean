import WolfSshUefi.Library.Transducer
import WolfSshUefi.Terminal.Sessions

/-!
# Streams of bytes

The bytes of a stream are read by the parser as a transducer, and the screen
carries out what it answers: feeding a stream is feeding the screen the
instructions of the stream (`Screen.feed_eq_execAll`).  The bytes of a control
sequence before the final one are answered by nothing, and the final byte by
the instructions of the sequence (`Screen.feed_controlSequence`).
-/

namespace WolfSshUefi

/-- The parser once some bytes are read. -/
def Parser.after (p : Parser) (data : List UInt8) : Parser :=
  Transducer.after Parser.next p data

/-- The instructions some bytes complete. -/
def Parser.commands (p : Parser) (data : List UInt8) : List Command :=
  Transducer.outputs Parser.next p data

namespace Parser

/-- The parser has read nothing. -/
@[simp] theorem after_nil (p : Parser) : p.after [] = p := rfl

@[simp] theorem after_cons (p : Parser) (byte : UInt8) (rest : List UInt8) :
    p.after (byte :: rest) = (p.next byte).1.after rest := rfl

@[simp] theorem commands_nil (p : Parser) : p.commands [] = [] := rfl

/-- The instructions of one byte, and of the others. -/
@[simp] theorem commands_cons (p : Parser) (byte : UInt8) (rest : List UInt8) :
    p.commands (byte :: rest) = (p.next byte).2 ++ (p.next byte).1.commands rest := rfl

/-- Reading in two pieces. -/
theorem after_append (p : Parser) (first rest : List UInt8) :
    p.after (first ++ rest) = (p.after first).after rest :=
  Transducer.after_append _ _ _ _

/-- The instructions of two pieces. -/
theorem commands_append (p : Parser) (first rest : List UInt8) :
    p.commands (first ++ rest) = p.commands first ++ (p.after first).commands rest :=
  Transducer.outputs_append _ _ _ _

/-- Reading keeps the parser in its bounds. -/
theorem WellFormed.after {p : Parser} (h : p.WellFormed) (data : List UInt8) :
    (p.after data).WellFormed :=
  Transducer.after_invariant (fun _ byte hp => hp.next byte) h data

/-- All instructions that are read are valid. -/
theorem commands_valid (p : Parser) (data : List UInt8) : ∀ c ∈ p.commands data, c.Valid := by
  intro c hc
  obtain ⟨first, byte, rest, -, hbyte⟩ := Transducer.mem_outputs hc
  exact next_valid _ byte c hbyte

end Parser

/-! ### The screen behind the parser -/

namespace Screen

open Terminal

/-- A byte is read, and what it says is done. -/
theorem feedByte_eq_execAll (t : Terminal) (byte : UInt8) :
    feedByte t byte =
      (execAll t (t.parser.next byte).2).withParser (t.parser.next byte).1 :=
  execAll_withParser t _ _

/-- **Feeding bytes is carrying out the instructions they complete.** -/
theorem feed_eq_execAll (t : Terminal) (data : List UInt8) :
    feed t data = (execAll t (t.parser.commands data)).withParser (t.parser.after data) := by
  induction data generalizing t with
  | nil => rfl
  | cons byte rest ih =>
      have hparser : (feedByte t byte).parser = (t.parser.next byte).1 := by
        rw [feedByte_eq_execAll]
        rfl
      rw [feed_cons, ih, hparser, feedByte_eq_execAll, execAll_withParser, Parser.commands_cons,
        execAll_append]
      rfl

/-- After a feed the parser has read the bytes. -/
@[simp] theorem parser_feed (t : Terminal) (data : List UInt8) :
    (feed t data).parser = t.parser.after data := by
  rw [feed_eq_execAll]
  rfl

end Screen

/-! ### Control sequences -/

/-- The bytes of a control sequence between `ESC [` and the final byte. -/
def BodyByte (byte : UInt8) : Prop := 0x20 ≤ byte ∧ byte ≤ 0x3f

/-- A byte that ends a control sequence. -/
def FinalByte (byte : UInt8) : Prop := 0x40 ≤ byte ∧ byte ≤ 0x7e

instance (byte : UInt8) : Decidable (BodyByte byte) := by
  unfold BodyByte; infer_instance

instance (byte : UInt8) : Decidable (FinalByte byte) := by
  unfold FinalByte; infer_instance

/-- A final byte is above all intermediate ones. -/
theorem FinalByte.ne {final byte : UInt8} (hfinal : FinalByte final) (hbyte : byte.toNat < 0x40) :
    final ≠ byte := by
  have hlow : 0x40 ≤ final.toNat := hfinal.1
  intro heq
  obtain rfl := heq
  omega

/-- It is no digit. -/
theorem FinalByte.not_digit {final : UInt8} (hfinal : FinalByte final) :
    ¬ (final ≥ 0x30 ∧ final ≤ 0x39) := by
  have hlow : 0x40 ≤ final.toNat := hfinal.1
  intro hboth
  obtain ⟨-, hhigh⟩ := hboth
  have hhigh' : final.toNat ≤ 0x39 := hhigh
  omega

/-- `ESC [`, the body and the final byte. -/
def controlSequence (body : List UInt8) (final : UInt8) : List UInt8 :=
  0x1b :: 0x5b :: (body ++ [final])

namespace Parser

/-- The parser at the start of a control sequence. -/
def atCsi (p : Parser) : Parser :=
  { p.reset with state := .csi, utf8Remaining := 0 }

/-- No operating system command is being skipped. -/
def Listening (p : Parser) : Prop := p.state ≠ .osc ∧ p.state ≠ .oscEscape

instance (p : Parser) : Decidable p.Listening := by
  unfold Listening; infer_instance

/-- In the ground state an ESC is heard. -/
theorem Listening.of_ground {p : Parser} (h : p.state = .ground) : p.Listening := by
  simp [Listening, h]

/-- `ESC` breaks off whatever sequence is being read. -/
theorem next_escape {p : Parser} (hlisten : p.Listening) :
    p.next 0x1b = ({ p with state := .escape, utf8Remaining := 0 }, []) := by
  simp [Parser.next, hlisten.1, hlisten.2]

/-- `ESC [` starts a control sequence, whatever sequence it breaks off. -/
theorem next_introducer {p : Parser} (hlisten : p.Listening) :
    (p.next 0x1b).2 = [] ∧ ((p.next 0x1b).1.next 0x5b) = (p.atCsi, []) := by
  rw [next_escape hlisten]
  exact ⟨rfl, rfl⟩

/-- A body byte completes nothing and stays in the sequence. -/
theorem next_body {p : Parser} (hcsi : p.state = .csi) {byte : UInt8} (hbyte : BodyByte byte) :
    (p.next byte).2 = [] ∧ (p.next byte).1.state = .csi := by
  have hescape : byte ≠ 0x1b := by
    intro heq
    obtain rfl := heq
    exact absurd hbyte (by decide)
  have hfinal : ¬ (byte ≥ 0x40 ∧ byte ≤ 0x7e) := by
    intro hboth
    obtain ⟨hlow, -⟩ := hboth
    exact absurd (UInt8.le_trans hlow hbyte.2) (by decide)
  unfold Parser.next
  rw [if_neg hescape, hcsi]
  simp only [Parser.csi]
  split
  · exact ⟨rfl, hcsi⟩
  split
  · exact ⟨rfl, hcsi⟩
  split
  · refine ⟨rfl, ?_⟩
    unfold separator
    split <;> exact hcsi
  · exact ⟨rfl, hcsi⟩

/-- The body of a control sequence does nothing. -/
theorem body_silent {p : Parser} (hcsi : p.state = .csi) {body : List UInt8}
    (hbody : ∀ b ∈ body, BodyByte b) :
    p.commands body = [] ∧ (p.after body).state = .csi := by
  induction body generalizing p with
  | nil => exact ⟨rfl, hcsi⟩
  | cons byte rest ih =>
      obtain ⟨hsilent, hstate⟩ := next_body hcsi (hbody byte List.mem_cons_self)
      obtain ⟨hrest, hend⟩ := ih hstate (fun b hb => hbody b (List.mem_cons_of_mem byte hb))
      refine ⟨?_, hend⟩
      rw [commands_cons, hsilent, hrest, List.nil_append]

/-- The final byte carries the sequence out. -/
theorem next_final {p : Parser} (hcsi : p.state = .csi) {final : UInt8} (hfinal : FinalByte final) :
    p.next final =
      ({ p with state := .ground }, csiCommands (csiFinal final) p.privateCsi p.params) := by
  have hne (byte : UInt8) (hbyte : byte.toNat < 0x40) : final ≠ byte := hfinal.ne hbyte
  have hdigit : ¬ (final ≥ 0x30 ∧ final ≤ 0x39) := hfinal.not_digit
  have hbounds : final ≥ 0x40 ∧ final ≤ 0x7e := hfinal
  unfold Parser.next
  rw [if_neg (hne 0x1b (by decide)), hcsi]
  simp only [Parser.csi]
  rw [if_neg (fun h => hne 0x3f (by decide) h.1), if_neg hdigit, if_neg (hne 0x3b (by decide)),
    if_pos hbounds]

/-- The parser when the final byte of a control sequence arrives. -/
def collected (p : Parser) (body : List UInt8) : Parser := p.atCsi.after body

/-- After the body the parser waits for the final byte. -/
theorem collected_state (p : Parser) {body : List UInt8} (hbody : ∀ b ∈ body, BodyByte b) :
    (p.collected body).state = .csi :=
  (body_silent (p := p.atCsi) rfl hbody).2

/-- The parameters of a body are in their bounds. -/
theorem WellFormed.collected {p : Parser} (h : p.WellFormed) (body : List UInt8) :
    (p.collected body).WellFormed := by
  have hstart : p.atCsi.WellFormed :=
    { h.reset with utf8_le := Nat.zero_le 3, utf8_ground := fun hne => absurd rfl hne }
  exact hstart.after body

/-- A control sequence does what its final byte says, on its parameters. -/
theorem commands_controlSequence {p : Parser} (hlisten : p.Listening) {body : List UInt8}
    (hbody : ∀ b ∈ body, BodyByte b) {final : UInt8} (hfinal : FinalByte final) :
    p.commands (controlSequence body final) =
      csiCommands (csiFinal final) (p.collected body).privateCsi (p.collected body).params := by
  obtain ⟨hescape, hintroducer⟩ := next_introducer hlisten
  have hfinally := next_final (p.collected_state hbody) hfinal
  rw [controlSequence, commands_cons, hescape, commands_cons, hintroducer, commands_append,
    (body_silent (p := p.atCsi) rfl hbody).1]
  simp only [collected, List.nil_append, commands_cons, commands_nil, List.append_nil] at hfinally ⊢
  rw [hfinally]

/-- Behind it the parser is back in the ground state. -/
theorem after_controlSequence {p : Parser} (hlisten : p.Listening) {body : List UInt8}
    (hbody : ∀ b ∈ body, BodyByte b) {final : UInt8} (hfinal : FinalByte final) :
    p.after (controlSequence body final) = { p.collected body with state := .ground } := by
  have hintroducer := (next_introducer hlisten).2
  have hfinally := next_final (p.collected_state hbody) hfinal
  rw [controlSequence, after_cons, after_cons, hintroducer, after_append]
  simp only [collected, after_cons, after_nil] at hfinally ⊢
  rw [hfinally]

end Parser

/-- The instructions that a byte outside a control sequence can complete. -/
def Command.Simple : Command → Prop
  | .print _ | .carriageReturn | .backspace | .tab | .index | .reverseIndex => True
  | .saveCursor | .restoreCursor | .reset => True
  | _ => False

namespace Parser

/-- A byte in the ground state only prints, moves or rings. -/
theorem ground_simple (p : Parser) (byte : UInt8) : ∀ c ∈ (p.ground byte).2, c.Simple := by
  intro c hc
  unfold Parser.ground at hc
  repeat' split at hc
  all_goals first
    | (simp at hc; done)
    | (simp only [List.mem_singleton] at hc; subst hc; trivial)

theorem text_simple (p : Parser) (byte : UInt8) : ∀ c ∈ (p.text byte).2, c.Simple := by
  intro c hc
  unfold Parser.text at hc
  split at hc
  · exact ground_simple _ _ c hc
  split at hc
  · simp only [Parser.continuation] at hc
    split at hc
    · simp only [List.mem_singleton] at hc
      subst hc
      trivial
    · simp at hc
  · rcases List.mem_cons.mp hc with rfl | hrest
    · trivial
    · exact ground_simple _ _ c hrest

theorem escape_simple (p : Parser) (byte : UInt8) : ∀ c ∈ (p.escape byte).2, c.Simple := by
  intro c hc
  unfold Parser.escape at hc
  repeat' split at hc
  all_goals simp at hc
  all_goals first
    | (subst hc; trivial)
    | (rcases hc with rfl | rfl <;> trivial)

/-- A byte completes simple instructions only, or it is the final byte of a
control sequence. -/
theorem next_simple_or_final (p : Parser) (byte : UInt8) :
    (∀ c ∈ (p.next byte).2, c.Simple) ∨ (p.state = .csi ∧ FinalByte byte) := by
  by_cases hend : p.state = .csi ∧ FinalByte byte
  · exact .inr hend
  left
  unfold Parser.next
  split
  · split
    · simp
    · split <;> simp
  split
  · exact p.text_simple byte
  · exact p.escape_simple byte
  · next hcsi =>
      have hfinal : ¬ (byte ≥ 0x40 ∧ byte ≤ 0x7e) := fun hbyte => hend ⟨hcsi, hbyte⟩
      unfold Parser.csi
      repeat' split
      all_goals simp
  · simp
  · simp

end Parser

/-- Feeding a control sequence cancels the deferred wrap and does what the final
byte says. -/
theorem Screen.feed_controlSequence {t : Terminal} (hlisten : t.parser.Listening)
    {body : List UInt8} (hbody : ∀ b ∈ body, BodyByte b) {final : UInt8}
    (hfinal : FinalByte final) :
    feed t (controlSequence body final) =
      (execAll (cancelWrap t) (csiAction (csiFinal final) (t.parser.collected body).privateCsi
        (t.parser.collected body).params)).withParser
          { t.parser.collected body with state := .ground } := by
  rw [feed_eq_execAll, Parser.commands_controlSequence hlisten hbody hfinal,
    Parser.after_controlSequence hlisten hbody hfinal]
  rfl

end WolfSshUefi
