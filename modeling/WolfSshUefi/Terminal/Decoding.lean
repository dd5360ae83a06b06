import Mathlib.Data.List.Induction
import WolfSshUefi.Library.Utf8
import WolfSshUefi.Terminal.Contents

/-!
# Decoding UTF-8

The parser collects the continuation bytes a lead byte announces, and prints
the value of the sequence, or a replacement where the value is no character of
the basic plane.  It never asks whether the value needed so many bytes.  So what
it prints comes from well formed sequences only, exactly when no sequence in its
input is overlong (`strictlyDecoded_iff`).
-/

namespace WolfSshUefi

/-- A character the console shows and does not obey. -/
def Displayable (character : Nat) : Prop := 0x20 ≤ character ∧ character ≠ 0x7f

instance (character : Nat) : Decidable (Displayable character) := by
  unfold Displayable; infer_instance

namespace Parser

/-- The byte completes a sequence of two or more bytes. -/
def Completes (p : Parser) (byte : UInt8) : Prop :=
  p.state = .ground ∧ p.utf8Remaining = 1 ∧ Utf8.Tail byte

/-- What the bytes print for a sequence of several bytes, replacements apart, is
the character whose encoding has just been read. -/
def StrictlyDecoded (p : Parser) (data : List UInt8) : Prop :=
  ∀ first byte rest c, data = first ++ byte :: rest → (p.after first).Completes byte →
    .print c ∈ ((p.after first).next byte).2 → c ≠ 0x3f → c ≠ 0xfffd →
      ∃ (start : List UInt8) (character : Char),
        first ++ [byte] = start ++ String.utf8EncodeChar character ∧ character.toNat = c ∧ c ≤ 0xffff

/-- Somewhere in the text an overlong sequence stands for a character. -/
def HasOverlong (p : Parser) (data : List UInt8) : Prop :=
  ∃ first lead tails rest, data = first ++ lead :: (tails ++ rest) ∧
    (p.after first).state = .ground ∧ Utf8.Overlong lead tails ∧
    glyph (Utf8.value lead tails) ≠ 0x3f ∧ glyph (Utf8.value lead tails) ≠ 0xfffd

/-- The sequence that is being collected is at the end of the bytes read. -/
def Collected (p : Parser) (read : List UInt8) : Prop :=
  (p.after read).utf8Remaining ≠ 0 →
    ∃ first lead tails, read = first ++ lead :: tails ∧ (p.after first).state = .ground ∧
      (∀ b ∈ tails, Utf8.Tail b) ∧
      Utf8.announced lead = tails.length + (p.after read).utf8Remaining ∧
      (p.after read).utf8CodePoint = Utf8.value lead tails

variable {p : Parser}

/-- Outside a sequence only a lead byte starts one. -/
theorem ground_utf8 (hnone : p.utf8Remaining = 0) (byte : UInt8) :
    (p.ground byte).1.utf8Remaining = Utf8.announced byte ∧
      (Utf8.announced byte ≠ 0 → (p.ground byte).1.state = p.state ∧
        (p.ground byte).1.utf8CodePoint = Utf8.payload byte) := by
  have hcontrol {b : UInt8} (hb : Utf8.announced b = 0) (q : Parser)
      (hq : q.utf8Remaining = 0) : q.utf8Remaining = Utf8.announced b ∧
        (Utf8.announced b ≠ 0 → q.state = p.state ∧ q.utf8CodePoint = Utf8.payload b) :=
    ⟨hq.trans hb.symm, fun hne => absurd hb hne⟩
  unfold Parser.ground
  split
  · next h => exact hcontrol (h ▸ by decide) _ hnone
  split
  · next h => exact hcontrol (h ▸ by decide) _ hnone
  split
  · next h => exact hcontrol (h ▸ by decide) _ hnone
  split
  · next h => exact hcontrol (h ▸ by decide) _ hnone
  split
  · next h => exact hcontrol (h ▸ by decide) _ hnone
  split
  · next h =>
      exact hcontrol (Utf8.announced_ascii h) _ hnone
  unfold Utf8.announced Utf8.payload
  split
  · exact ⟨rfl, fun _ => ⟨rfl, rfl⟩⟩
  split
  · exact ⟨rfl, fun _ => ⟨rfl, rfl⟩⟩
  split
  · exact ⟨rfl, fun _ => ⟨rfl, rfl⟩⟩
  · exact ⟨hnone, fun hne => absurd rfl hne⟩

/-- A byte that is no continuation byte starts afresh. -/
theorem text_of_not_tail {byte : UInt8} (htail : ¬ Utf8.Tail byte) :
    (p.text byte).1 = (Parser.ground { p with utf8Remaining := 0 } byte).1 := by
  unfold Parser.text
  by_cases hnone : p.utf8Remaining = 0
  · have hsame : { p with utf8Remaining := 0 } = p := by rw [← hnone]
    rw [if_pos hnone, hsame]
  · have hbits : ¬ byte &&& 0xc0 = 0x80 := htail
    rw [if_neg hnone, if_neg hbits]

/-- A continuation byte goes on with the character. -/
theorem text_of_tail (hsome : p.utf8Remaining ≠ 0) {byte : UInt8} (htail : Utf8.Tail byte) :
    p.text byte = p.continuation byte := by
  unfold Parser.text
  rw [if_neg hsome]
  exact if_pos htail

/-- A byte in ground state, ESC apart. -/
theorem next_ground (hground : p.state = .ground) {byte : UInt8} (hbyte : byte ≠ 0x1b) :
    p.next byte = p.text byte := by
  unfold Parser.next
  rw [if_neg hbyte, hground]

/-- It is not ESC. -/
theorem tail_ne_escape {byte : UInt8} (h : Utf8.Tail byte) : byte ≠ 0x1b := by
  intro heq
  obtain rfl := heq
  exact absurd h (by decide)

theorem lead_ne_escape {byte : UInt8} (h : Utf8.announced byte ≠ 0) : byte ≠ 0x1b := by
  intro heq
  obtain rfl := heq
  exact h (by decide)

/-- A lead byte starts a sequence, whatever it breaks off. -/
theorem next_lead (hground : p.state = .ground) {lead : UInt8} (hlead : Utf8.announced lead ≠ 0) :
    (p.next lead).1.state = .ground ∧ (p.next lead).1.utf8Remaining = Utf8.announced lead ∧
      (p.next lead).1.utf8CodePoint = Utf8.value lead [] := by
  obtain ⟨hremaining, hrest⟩ := ground_utf8 (p := { p with utf8Remaining := 0 }) rfl lead
  obtain ⟨hstate, hcode⟩ := hrest hlead
  rw [next_ground hground (lead_ne_escape hlead),
    text_of_not_tail (Utf8.not_tail_of_announced lead hlead)]
  exact ⟨hstate.trans hground, hremaining, hcode⟩

/-- The bits of a continuation byte are appended. -/
theorem codePoint_append {v : Nat} (hv : v < 32 * 64 * 64) {byte : UInt8} (h : Utf8.Tail byte) :
    ((v <<< 6) ||| (byte &&& 0x3f).toNat) % 0x100000000 = v * 64 + (byte &&& 0x3f).toNat := by
  have hbits := (Utf8.tail_bits byte h).2
  rw [← Nat.shiftLeft_add_eq_or_of_lt hbits, Nat.shiftLeft_eq]
  omega

/-- A continuation byte of the sequence that is collected. -/
theorem next_tail (hground : p.state = .ground) (hsome : p.utf8Remaining ≠ 0) {byte : UInt8}
    (htail : Utf8.Tail byte) (hcode : p.utf8CodePoint < 32 * 64 * 64) :
    (p.next byte).1.state = .ground ∧ (p.next byte).1.utf8Remaining = p.utf8Remaining - 1 ∧
      (p.next byte).1.utf8CodePoint = p.utf8CodePoint * 64 + (byte &&& 0x3f).toNat := by
  rw [next_ground hground (tail_ne_escape htail), text_of_tail hsome htail]
  exact ⟨hground, rfl, codePoint_append hcode htail⟩

/-- Only in ground state is a sequence being collected. -/
theorem next_collecting (h : p.WellFormed) {byte : UInt8}
    (hsome : (p.next byte).1.utf8Remaining ≠ 0) : p.state = .ground ∧ byte ≠ 0x1b := by
  by_cases hescape : byte = 0x1b
  · subst hescape
    unfold Parser.next at hsome
    rw [if_pos rfl] at hsome
    split at hsome
    · next hosc => exact absurd (h.utf8_zero (by simp [hosc])) hsome
    split at hsome
    · exact absurd rfl hsome
    · next hosc =>
        have hstate : p.state = .oscEscape := not_not.mp hosc
        exact absurd (h.utf8_zero (by simp [hstate])) hsome
  · refine ⟨?_, hescape⟩
    by_contra hother
    have hzero := h.utf8_zero hother
    apply hsome
    unfold Parser.next
    rw [if_neg hescape]
    split
    · next hground => exact absurd hground hother
    · unfold Parser.escape
      repeat' split
      all_goals exact hzero
    · unfold Parser.csi
      repeat' split
      · exact hzero
      · exact hzero
      · change (p.separator).utf8Remaining = 0
        unfold Parser.separator
        split <;> exact hzero
      · exact hzero
      · exact hzero
    · exact hzero
    · exact hzero

/-! ### The sequence being collected -/

theorem collected_nil (hnone : p.utf8Remaining = 0) : p.Collected [] :=
  fun hsome => absurd hnone hsome

/-- The bits of a sequence that is not complete leave room for one more byte. -/
theorem value_room {lead : UInt8} (hlead : Utf8.announced lead ≠ 0) {tails : List UInt8}
    (hlength : tails.length ≤ 2) (htails : ∀ b ∈ tails, Utf8.Tail b) :
    Utf8.value lead tails < 32 * 64 * 64 := by
  have hmore : ∀ b ∈ tails ++ [0x80], Utf8.Tail b := by
    intro b hb
    rcases List.mem_append.mp hb with hold | hnew
    · exact htails b hold
    · obtain rfl := List.mem_singleton.mp hnew
      decide
  have hlonger : (tails ++ [0x80]).length ≤ 3 := by
    rw [List.length_append]
    exact Nat.add_le_add_right hlength 1
  have hlt := Utf8.value_lt hlead hlonger hmore
  rw [Utf8.value_concat] at hlt
  omega

/-- One more byte. -/
theorem Collected.next (h : p.WellFormed) {read : List UInt8} (hread : p.Collected read)
    (byte : UInt8) : p.Collected (read ++ [byte]) := by
  intro hsome
  have hafter : p.after (read ++ [byte]) = ((p.after read).next byte).1 := by
    rw [after_append]
    rfl
  rw [hafter] at hsome ⊢
  obtain ⟨hground, hescape⟩ := next_collecting (h.after read) hsome
  by_cases htail : (p.after read).utf8Remaining ≠ 0 ∧ Utf8.Tail byte
  · -- the byte is appended to the sequence
    obtain ⟨hcollecting, htail⟩ := htail
    obtain ⟨first, lead, tails, hsplit, hfirst, htails, hannounced, hcode⟩ := hread hcollecting
    have hle := Utf8.announced_le lead
    have hlead : Utf8.announced lead ≠ 0 := by omega
    have hroom := value_room hlead (by omega) htails
    obtain ⟨-, hremaining, hvalue⟩ :=
      next_tail hground hcollecting htail (hcode ▸ hroom)
    refine ⟨first, lead, tails ++ [byte], by rw [hsplit, List.append_assoc]; rfl, hfirst, ?_, ?_, ?_⟩
    · intro b hb
      rcases List.mem_append.mp hb with hold | hnew
      · exact htails b hold
      · exact List.mem_singleton.mp hnew ▸ htail
    · rw [List.length_append, List.length_singleton, hremaining]
      omega
    · rw [hvalue, hcode, Utf8.value_concat]
  · -- the byte starts a sequence of its own
    have hfresh : ((p.after read).next byte).1 =
        (Parser.ground { p.after read with utf8Remaining := 0 } byte).1 := by
      rw [next_ground hground hescape]
      by_cases hzero : (p.after read).utf8Remaining = 0
      · unfold Parser.text
        rw [if_pos hzero, ← hzero]
      · exact text_of_not_tail fun hbyte => htail ⟨hzero, hbyte⟩
    rw [hfresh] at hsome ⊢
    obtain ⟨hremaining, hrest⟩ :=
      ground_utf8 (p := { p.after read with utf8Remaining := 0 }) rfl byte
    have hlead : Utf8.announced byte ≠ 0 := hremaining ▸ hsome
    refine ⟨read, byte, [], rfl, hground, by simp, ?_, (hrest hlead).2⟩
    rw [hremaining, List.length_nil, Nat.zero_add]

/-- **What is being collected stands at the end of what was read.** -/
theorem collected_after (h : p.WellFormed) (hnone : p.utf8Remaining = 0) (read : List UInt8) :
    p.Collected read := by
  induction read using List.reverseRecOn with
  | nil => exact collected_nil hnone
  | append_singleton read byte ih => exact ih.next h byte

/-- A lead byte and some of its continuation bytes. -/
theorem after_sequence (hground : p.state = .ground) {lead : UInt8}
    (hlead : Utf8.announced lead ≠ 0) {tails : List UInt8}
    (hlength : tails.length ≤ Utf8.announced lead) (htails : ∀ b ∈ tails, Utf8.Tail b) :
    (p.after (lead :: tails)).state = .ground ∧
      (p.after (lead :: tails)).utf8Remaining = Utf8.announced lead - tails.length ∧
      (p.after (lead :: tails)).utf8CodePoint = Utf8.value lead tails := by
  induction tails using List.reverseRecOn with
  | nil => exact next_lead hground hlead
  | append_singleton tails byte ih =>
      rw [List.length_append, List.length_singleton] at hlength ⊢
      have hle := Utf8.announced_le lead
      have hold : ∀ b ∈ tails, Utf8.Tail b := fun b hb => htails b (List.mem_append_left _ hb)
      have hroom := value_room hlead (by omega) hold
      obtain ⟨hstate, hremaining, hcode⟩ := ih (by omega) hold
      have hlast := next_tail hstate (by omega) (htails byte (by simp)) (hcode ▸ hroom)
      have hafter : p.after (lead :: (tails ++ [byte])) =
          ((p.after (lead :: tails)).next byte).1 := by
        rw [← List.cons_append, after_append]
        rfl
      rw [hafter, hlast.1, hlast.2.1, hlast.2.2, hremaining, hcode, Utf8.value_concat]
      exact ⟨rfl, Nat.sub_sub _ _ _, rfl⟩

/-! ### Complete sequences -/

/-- The byte that completes a sequence prints its value. -/
theorem Completes.prints {byte : UInt8} (h : p.Completes byte)
    (hroom : p.utf8CodePoint < 32 * 64 * 64) :
    (p.next byte).2 = [.print (glyph (p.utf8CodePoint * 64 + (byte &&& 0x3f).toNat))] := by
  obtain ⟨hground, hlast, htail⟩ := h
  have hsome : p.utf8Remaining ≠ 0 := by omega
  rw [next_ground hground (tail_ne_escape htail), text_of_tail hsome htail]
  unfold Parser.continuation
  rw [codePoint_append hroom htail]
  exact if_pos (by omega)

/-- Behind a byte that completes a sequence stand its lead byte and the others. -/
theorem Completes.sequence (h : p.WellFormed) (hnone : p.utf8Remaining = 0) {first : List UInt8}
    {byte : UInt8} (hbyte : (p.after first).Completes byte) :
    ∃ before lead tails, first ++ [byte] = before ++ lead :: tails ∧
      (p.after before).state = .ground ∧ Utf8.Complete lead tails ∧
      ((p.after first).next byte).2 = [.print (glyph (Utf8.value lead tails))] := by
  obtain ⟨hground, hlast, htail⟩ := hbyte
  obtain ⟨before, lead, tails, hsplit, hbefore, htails, hannounced, hcode⟩ :=
    collected_after h hnone first (by omega)
  have hle := Utf8.announced_le lead
  have hlead : Utf8.announced lead ≠ 0 := by omega
  have hroom := value_room hlead (by omega) htails
  refine ⟨before, lead, tails ++ [byte], ?_, hbefore, ⟨?_, by simp, ?_⟩, ?_⟩
  · rw [hsplit, List.append_assoc]
    rfl
  · rw [List.length_append, List.length_singleton]
    omega
  · intro b hb
    rcases List.mem_append.mp hb with hold | hnew
    · exact htails b hold
    · exact List.mem_singleton.mp hnew ▸ htail
  · rw [Completes.prints ⟨hground, hlast, htail⟩ (hcode ▸ hroom), hcode, Utf8.value_concat]

/-- The last byte of a sequence completes it and prints its value. -/
theorem completes_last (hground : p.state = .ground) {lead byte : UInt8} {tails : List UInt8}
    (h : Utf8.Complete lead (tails ++ [byte])) :
    (p.after (lead :: tails)).Completes byte ∧
      ((p.after (lead :: tails)).next byte).2 =
        [.print (glyph (Utf8.value lead (tails ++ [byte])))] := by
  have hlength := h.length
  rw [List.length_append, List.length_singleton] at hlength
  have hle := Utf8.announced_le lead
  have hold : ∀ b ∈ tails, Utf8.Tail b := fun b hb => h.follow b (List.mem_append_left _ hb)
  have hlead : Utf8.announced lead ≠ 0 := by omega
  have hroom := value_room hlead (by omega) hold
  obtain ⟨hstate, hremaining, hcode⟩ :=
    after_sequence hground hlead (by omega) hold
  have hlast : (p.after (lead :: tails)).Completes byte :=
    ⟨hstate, by omega, h.follow byte (by simp)⟩
  refine ⟨hlast, ?_⟩
  rw [hlast.prints (hcode ▸ hroom), hcode, Utf8.value_concat]

/-! ### What is printed -/

/-- A value that is not replaced is a character of the basic plane. -/
theorem glyph_kept {v : Nat} (h : glyph v ≠ 0x3f) :
    glyph v = v ∧ ∃ character : Char, character.toNat = v ∧ v ≤ 0xffff := by
  unfold glyph at h ⊢
  split at h
  · exact absurd rfl h
  · next hkept =>
      have hvalid : v.isValidChar := by
        unfold Nat.isValidChar
        omega
      exact ⟨if_neg hkept, Char.ofNatAux v hvalid, rfl, by omega⟩

/-- **Decoding is strict exactly when** no sequence in the text is overlong. -/
theorem strictlyDecoded_iff (h : p.WellFormed) (hnone : p.utf8Remaining = 0) (data : List UInt8) :
    p.StrictlyDecoded data ↔ ¬ p.HasOverlong data := by
  constructor
  · intro hstrict hall
    obtain ⟨first, lead, tails, rest, rfl, hground, hover, hmark, hreplaced⟩ := hall
    obtain ⟨init, byte, rfl⟩ : ∃ init byte, tails = init ++ [byte] :=
      ⟨_, _, (List.dropLast_append_getLast hover.nonempty).symm⟩
    obtain ⟨hlast, hprints⟩ := completes_last hground hover.toComplete
    rw [← after_append] at hlast hprints
    have hsplit : first ++ lead :: (init ++ [byte] ++ rest) =
        first ++ lead :: init ++ byte :: rest := by simp
    obtain ⟨start, character, hsame, hvalue, -⟩ := hstrict _ byte rest _ hsplit hlast
      (by rw [hprints]; exact List.mem_singleton_self _) hmark hreplaced
    rw [(glyph_kept hmark).1] at hvalue
    rw [List.append_assoc, List.cons_append] at hsame
    exact hover.not_encoded hvalue first start hsame
  · intro hover first byte rest c hsplit hlast hprint hmark hreplaced
    obtain ⟨before, lead, tails, hsame, hbefore, hcomplete, hprints⟩ := hlast.sequence h hnone
    rw [hprints] at hprint
    obtain rfl := Command.print.inj (List.mem_singleton.mp hprint)
    obtain ⟨hkept, character, hvalue, hplane⟩ := glyph_kept hmark
    have hlong : Utf8.least tails.length ≤ Utf8.value lead tails := by
      by_contra hshort
      apply hover
      refine ⟨before, lead, tails, rest, ?_, hbefore, ⟨hcomplete, Nat.lt_of_not_le hshort⟩,
        hmark, hreplaced⟩
      rw [hsplit, List.append_cons, hsame, List.append_assoc]
      rfl
    refine ⟨before, character, ?_, hvalue.trans hkept.symm, by rwa [hkept]⟩
    rw [hsame, Utf8.encode_value hcomplete hlong hvalue (hvalue ▸ hplane)]

/-- A byte outside any sequence prints itself. -/
theorem ground_prints {byte : UInt8} {c : Nat} (hc : .print c ∈ (p.ground byte).2) :
    0x20 ≤ c ∧ c < 0x7f := by
  unfold Parser.ground at hc
  repeat' split at hc
  all_goals simp at hc
  next hprintable =>
    subst hc
    exact hprintable

/-- No control sequence prints anything. -/
theorem csiCommands_prints (final : CsiFinal) (privateCsi : Bool) (params : List Int) (c : Nat) :
    .print c ∉ csiCommands final privateCsi params := by
  intro hc
  rcases List.mem_cons.mp hc with hwrap | haction
  · cases hwrap
  revert haction
  cases final with
  | rendition =>
      intro haction
      obtain ⟨change, -, hchange⟩ := List.mem_map.mp haction
      cases hchange
  | setModes | resetModes =>
      intro haction
      obtain ⟨mode, -, hmode⟩ := List.mem_flatMap.mp haction
      unfold modeCommands at hmode
      repeat' split at hmode
      all_goals simp at hmode
  | report =>
      intro haction
      simp only [csiAction] at haction
      split at haction
      · simp at haction
      · split at haction <;> simp at haction
  | _ =>
      intro haction
      simp [csiAction] at haction

/-- A print is a replacement, a printable byte, or the value of a sequence. -/
theorem next_prints {byte : UInt8} {c : Nat} (hc : .print c ∈ (p.next byte).2) :
    c = 0xfffd ∨ (0x20 ≤ c ∧ c < 0x7f) ∨ p.Completes byte := by
  unfold Parser.next at hc
  split at hc
  · repeat' split at hc
    all_goals cases hc
  split at hc
  · next hground =>
      unfold Parser.text at hc
      split at hc
      · exact .inr (.inl (ground_prints hc))
      split at hc
      · next htail =>
          unfold Parser.continuation at hc
          simp only at hc
          split at hc
          · next hsome hlast => exact .inr (.inr ⟨hground, by omega, htail⟩)
          · cases hc
      · rcases List.mem_cons.mp hc with hreplaced | hrest
        · exact .inl (Command.print.inj hreplaced)
        · exact .inr (.inl (ground_prints hrest))
  · unfold Parser.escape at hc
    repeat' split at hc
    all_goals simp at hc
  · unfold Parser.csi at hc
    split at hc
    · cases hc
    split at hc
    · cases hc
    split at hc
    · cases hc
    split at hc
    · exact absurd hc (csiCommands_prints _ _ _ _)
    · cases hc
  · cases hc
  · cases hc

/-- A sequence that is not overlong stands for no control character. -/
theorem displayable_of_least {lead : UInt8} {tails : List UInt8} (h : Utf8.Complete lead tails)
    (hleast : Utf8.least tails.length ≤ Utf8.value lead tails) :
    Displayable (glyph (Utf8.value lead tails)) := by
  have hlarge : 0x80 ≤ Utf8.value lead tails := by
    apply Nat.le_trans _ hleast
    match tails, h.nonempty with
    | [_], _ => exact Nat.le_refl 0x80
    | [_, _], _ => exact Nat.le_of_ble_eq_true rfl
    | _ :: _ :: _ :: _, _ => exact Nat.le_of_ble_eq_true rfl
  by_cases hmark : glyph (Utf8.value lead tails) = 0x3f
  · rw [hmark]
    decide
  · rw [(glyph_kept hmark).1]
    exact ⟨by omega, by omega⟩

/-- Without overlong sequences nothing is printed that the console obeys. -/
theorem prints_displayable (h : p.WellFormed) (hnone : p.utf8Remaining = 0) {data : List UInt8}
    (hover : ¬ p.HasOverlong data) : ∀ c ∈ p.commands data, c.Prints Displayable := by
  intro c hc
  cases c with
  | print c =>
      change Displayable c
      obtain ⟨first, byte, rest, hsplit, hbyte⟩ := Transducer.mem_outputs hc
      rcases next_prints hbyte with rfl | hascii | hlast
      · decide
      · exact ⟨hascii.1, Nat.ne_of_lt hascii.2⟩
      · obtain ⟨before, lead, tails, hsame, hbefore, hcomplete, hprints⟩ := hlast.sequence h hnone
        have hprint := hprints ▸ hbyte
        obtain rfl := Command.print.inj (List.mem_singleton.mp hprint)
        by_cases hleast : Utf8.least tails.length ≤ Utf8.value lead tails
        · exact displayable_of_least hcomplete hleast
        by_cases hmark : glyph (Utf8.value lead tails) = 0x3f
        · rw [hmark]
          decide
        by_cases hreplaced : glyph (Utf8.value lead tails) = 0xfffd
        · rw [hreplaced]
          decide
        · exfalso
          apply hover
          refine ⟨before, lead, tails, rest, ?_, hbefore, ⟨hcomplete, Nat.lt_of_not_le hleast⟩,
            hmark, hreplaced⟩
          rw [hsplit, List.append_cons, hsame, List.append_assoc]
          rfl
  | _ => trivial

/-- An overlong sequence is still there when more is read. -/
theorem HasOverlong.append {data : List UInt8} (h : p.HasOverlong data) (more : List UInt8) :
    p.HasOverlong (data ++ more) := by
  obtain ⟨first, lead, tails, rest, rfl, hground, hover⟩ := h
  exact ⟨first, lead, tails, rest ++ more, by simp, hground, hover⟩

end Parser

namespace Terminal

/-- In every state that the calls pass through, no cell holds a character that
the console obeys. -/
def CellsDisplayable (t₀ : Terminal) (calls : List Call) : Prop :=
  ∀ first rest t, calls = first ++ rest → t₀.run first = .ok t → t.Contains Displayable

/-- **UTF-8 is decoded strictly, and no cell ever holds a control character, exactly
when** no overlong sequence is fed. -/
theorem strictly_decoded_iff {t₀ : Terminal} (h : Created t₀) (calls : List Call) :
    (t₀.parser.StrictlyDecoded (fed calls) ∧ t₀.CellsDisplayable calls) ↔
      ¬ t₀.parser.HasOverlong (fed calls) := by
  have hwell := h.wellFormed
  obtain ⟨fw, rfl⟩ := h.eq_fresh
  constructor
  · intro hboth
    obtain ⟨hstrict, -⟩ := hboth
    exact (Parser.strictlyDecoded_iff hwell.parser rfl _).mp hstrict
  · intro hover
    refine ⟨(Parser.strictlyDecoded_iff hwell.parser rfl _).mpr hover, ?_⟩
    intro first rest t heq hrun
    obtain rfl := heq
    have hfirst : ¬ fw.fresh.parser.HasOverlong (fed first) := by
      intro hfirst
      apply hover
      unfold fed
      rw [List.flatMap_append]
      exact hfirst.append _
    have hblank : Displayable 0x20 := by decide
    exact (hwell.run_contains hblank (Contains.fresh hblank fw)
      (Parser.prints_displayable hwell.parser rfl hfirst) hrun).1

/-- The Euro sign is decoded. -/
theorem strictly_decoded_euro :
    (Firmware.ample 2 1 7).fresh.parser.StrictlyDecoded (fed [.feed [0xe2, 0x82, 0xac]]) ∧
      (Firmware.ample 2 1 7).fresh.CellsDisplayable [.feed [0xe2, 0x82, 0xac]] := by
  apply (strictly_decoded_iff (created_ample 2 1 7) _).mpr
  intro hall
  obtain ⟨first, lead, tails, rest, hsplit, -, hover, -⟩ := hall
  have hlength := hover.length
  have hnonempty := List.length_pos_of_ne_nil hover.nonempty
  have hsplit : first ++ lead :: (tails ++ rest) = [0xe2, 0x82, 0xac] := hsplit.symm
  match first with
  | [] =>
      obtain ⟨rfl, htails⟩ := List.cons.inj hsplit
      have hall : tails = [0x82, 0xac] := by
        have htails' : tails ++ rest = [0x82, 0xac] ++ [] := htails
        exact (List.append_inj htails' hlength).1
      subst hall
      exact absurd hover.small (by decide)
  | [_] =>
      obtain ⟨-, htail⟩ := List.cons.inj hsplit
      obtain ⟨rfl, -⟩ := List.cons.inj htail
      exact absurd (hlength ▸ hnonempty) (by decide)
  | [_, _] =>
      obtain ⟨-, htail⟩ := List.cons.inj (List.cons.inj (List.cons.inj hsplit).2).2
      exact absurd (List.append_eq_nil_iff.mp htail).1 hover.nonempty
  | _ :: _ :: _ :: _ => simp at hsplit

/-- `0xc0 0x8d` puts a carriage return into a cell. -/
theorem overlong_carriage_return :
    ¬ ((Firmware.ample 2 1 7).fresh.parser.StrictlyDecoded (fed [.feed [0xc0, 0x8d]]) ∧
      (Firmware.ample 2 1 7).fresh.CellsDisplayable [.feed [0xc0, 0x8d]]) := by
  intro hboth
  obtain ⟨-, hcells⟩ := hboth
  have hrun := (created_ample 2 1 7).wellFormed.feed_eq [0xc0, 0x8d]
  have hholds := hcells [.feed [0xc0, 0x8d]] [] _ rfl (by
    unfold run
    rw [List.foldlM_cons, perform, hrun]
    rfl)
  have hcell : Displayable 0x0d := hholds.primary 0 Nat.one_pos 0 Nat.two_pos
  exact absurd hcell (by decide)

end Terminal

end WolfSshUefi
