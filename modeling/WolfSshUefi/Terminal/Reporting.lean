import WolfSshUefi.Terminal.Replies
import WolfSshUefi.Terminal.Saturation

/-!
# The place of the cursor, there and back

The report of the cursor counts rows and columns from 1 and prints them in
decimal, and `CSI H` reads two decimal numbers and counts from 1 as well.  So the
report, with `H` for its last letter, takes the cursor of any terminal of the same
size to the place reported.
-/

namespace WolfSshUefi

/-! ### Decimal digits -/

/-- A decimal number has digits only. -/
theorem digitByte_decimal (n : Nat) : ∀ b ∈ decimal n, DigitByte b := by
  intro b hb
  exact digit_of_mem_decimal hb

theorem decimal_ne_nil (n : Nat) : decimal n ≠ [] := by
  unfold decimal
  simp [Nat.toDigits_ne_nil]

/-- Digit characters, read as bytes, denote what they denote as characters. -/
theorem append_digitValue {digits : List Char} (hdigits : ∀ c ∈ digits, c.toNat < 256)
    (start : Nat) : Numeral.append 10 start ((digits.map Char.toUInt8).map digitValue) =
      Nat.ofDigitChars 10 digits start := by
  induction digits generalizing start with
  | nil => rfl
  | cons c rest ih =>
      have hrest : ∀ c ∈ rest, c.toNat < 256 := fun c hc => hdigits c (List.mem_cons_of_mem _ hc)
      have hsmall := hdigits c List.mem_cons_self
      have hvalue : digitValue c.toUInt8 = c.toNat - '0'.toNat := by
        show c.toNat % 256 - 0x30 = c.toNat - 0x30
        rw [Nat.mod_eq_of_lt hsmall]
      rw [List.map_cons, List.map_cons, Numeral.append_cons, Nat.ofDigitChars_cons,
        ih hrest, hvalue, Nat.mul_comm]

/-- The digits of a number denote it. -/
theorem number_decimal (n : Nat) : number (decimal n) = n := by
  have hdigits : ∀ c ∈ Nat.toDigits 10 n, c.toNat < 256 := by
    intro c hc
    have hval := toNat_of_mem_toDigits hc
    omega
  show Numeral.append 10 0 (((Nat.toDigits 10 n).map Char.toUInt8).map digitValue) = n
  rw [append_digitValue hdigits, Nat.ofDigitChars_ten_toDigits]

/-- Numbers up to 65535 have at most five digits. -/
theorem length_decimal_le_five {n : Nat} (h : n ≤ 65535) : (decimal n).length ≤ 5 := by
  unfold decimal
  rw [List.length_map]
  exact (Nat.length_toDigits_le_iff (by decide) (by decide)).mpr (by omega)

/-! ### The report -/

/-- `ESC [ row ; column` -/
def placeBody (row column : Nat) : List UInt8 :=
  [0x1b, 0x5b] ++ decimal (row + 1) ++ [0x3b] ++ decimal (column + 1)

/-- A place is written in 13 bytes at most. -/
theorem length_placeBody {row column : Nat} (hrow : row < 65535) (hcolumn : column < 65535) :
    (placeBody row column).length ≤ 13 := by
  have hdigits := length_decimal_le_five (show row + 1 ≤ 65535 by omega)
  have hdigits' := length_decimal_le_five (show column + 1 ≤ 65535 by omega)
  simp only [placeBody, List.length_append, List.length_cons, List.length_nil]
  omega

/-- The buffer takes the report as it is. -/
theorem cursorReport_placeBody {row column : Nat} (hrow : row < 65535) (hcolumn : column < 65535) :
    cursorReport row column = placeBody row column ++ [0x52] := by
  have hmod : (row + 1) % 0x100000000 = row + 1 := Nat.mod_eq_of_lt (by omega)
  have hmod' : (column + 1) % 0x100000000 = column + 1 := Nat.mod_eq_of_lt (by omega)
  have hlength := length_placeBody hrow hcolumn
  unfold cursorReport
  rw [hmod, hmod', List.take_of_length_le]
  · rfl
  · show (placeBody row column ++ [0x52]).length ≤ 31
    simp only [List.length_append, List.length_cons, List.length_nil]
    omega

namespace Terminal

open Screen

variable {t u : Terminal}

/-- The cursor's place fits the parameters. -/
theorem report_small (ht : t.WellFormed) : t.row < 65535 ∧ t.column < 65535 := by
  have hrows := ht.rows_le
  have hcolumns := ht.columns_le
  have hrow := ht.row_lt
  have hcolumn := ht.column_lt
  unfold maxUint16 at hrows hcolumns
  omega

/-- `CSI 6 n` queues the report. -/
theorem feed_report (ht : t.WellFormed) (hlisten : t.parser.Listening)
    (hroom : (cursorReport t.row t.column).length ≤ terminalReplySize - t.replyLength) :
    ∃ u, t.feed (controlSequence [0x36] 0x6e) = .ok u ∧
      u.queued = t.queued ++ cursorReport t.row t.column := by
  obtain ⟨p, _, hfeed⟩ := feed_number ht hlisten
    (show ∀ b ∈ [0x36], DigitByte b by simp [DigitByte]) (show FinalByte 0x6e by decide)
  refine ⟨_, hfeed, ?_⟩
  show (Screen.queueReply (cancelWrap t) (cursorReport t.row t.column)).queued = _
  rw [queued_queueReply]
  show t.queued ++ (cursorReport t.row t.column).take (terminalReplySize - t.replyLength) = _
  rw [List.take_of_length_le hroom]

/-- `CSI row ; column H` goes there. -/
theorem feed_place (ht : t.WellFormed) (hlisten : t.parser.Listening) {row column : Nat}
    (hrow : row < t.rows) (hcolumn : column < t.columns) :
    ∃ u, t.feed (placeBody row column ++ [0x48]) = .ok u ∧ u.row = row ∧ u.column = column := by
  have hdigits : ∀ field ∈ [decimal (row + 1), decimal (column + 1)], ∀ b ∈ field, DigitByte b := by
    intro field hfield
    simp only [List.mem_cons, List.not_mem_nil, or_false] at hfield
    obtain rfl | rfl := hfield
    · exact digitByte_decimal _
    · exact digitByte_decimal _
  obtain ⟨p, _, hfeed⟩ := feed_numberedSequence ht hlisten false (by simp) (by simp) hdigits
    (show FinalByte 0x48 by decide)
  have hbytes : numberedSequence false [decimal (row + 1), decimal (column + 1)] 0x48 =
      placeBody row column ++ [0x48] := by
    simp [numberedSequence, parameterPart, placeBody, controlSequence, List.intercalate]
  have hexact (n : Nat) : exactParameter (decimal (n + 1)) = (n + 1 : Nat) := by
    rw [exactParameter, if_neg (decimal_ne_nil _), number_decimal]
  rw [hbytes] at hfeed
  refine ⟨_, hfeed, ?_, ?_⟩
  · show min (t.rows - 1) (max 1 (exactParameter (decimal (row + 1))).toNat - 1) = row
    rw [hexact]
    omega
  · show min (t.columns - 1) (max 1 (exactParameter (decimal (column + 1))).toNat - 1) = column
    rw [hexact]
    omega

/-- **The report round trip.**  The reply to `CSI 6 n` fits its buffer, and with `H` for
its last letter it takes the cursor of every terminal of the same size to the place
reported. -/
theorem cursor_report_round_trip (h : Reachable t) (hlisten : t.parser.Listening)
    (hroom : (cursorReport t.row t.column).length ≤ terminalReplySize - t.replyLength)
    (h' : Reachable u) (hrows : u.rows = t.rows) (hcolumns : u.columns = t.columns)
    (hground : u.parser.state = .ground) :
    ∃ asked placed, t.feed (controlSequence [0x36] 0x6e) = .ok asked ∧
      asked.queued = t.queued ++ (placeBody t.row t.column ++ [0x52]) ∧
      (placeBody t.row t.column ++ [0x52]).length + 1 ≤ 32 ∧
      u.feed (placeBody t.row t.column ++ [0x48]) = .ok placed ∧
      placed.row = t.row ∧ placed.column = t.column := by
  have ht := h.wellFormed
  obtain ⟨hrow, hcolumn⟩ := report_small ht
  have hreport := cursorReport_placeBody hrow hcolumn
  obtain ⟨asked, hasked, hqueued⟩ := feed_report ht hlisten hroom
  obtain ⟨placed, hplaced, hplace⟩ := feed_place h'.wellFormed (.of_ground hground)
    (show t.row < u.rows from hrows ▸ ht.row_lt)
    (show t.column < u.columns from hcolumns ▸ ht.column_lt)
  refine ⟨asked, placed, hasked, ?_, ?_, hplaced, hplace⟩
  · rw [hqueued, hreport]
  · have hlength := length_placeBody hrow hcolumn
    simp only [List.length_append, List.length_cons, List.length_nil]
    omega

/-- From the second column of one terminal to another one. -/
theorem cursor_report_round_trip_small :
    ∃ asked placed, (Screen.feed (Firmware.ample 3 2 7).fresh [0x41]).feed
        (controlSequence [0x36] 0x6e) = .ok asked ∧
      asked.queued = [] ++ (placeBody 0 1 ++ [0x52]) ∧
      (placeBody 0 1 ++ [0x52]).length + 1 ≤ 32 ∧
      (Firmware.ample 3 2 7).fresh.feed (placeBody 0 1 ++ [0x48]) = .ok placed ∧
      placed.row = 0 ∧ placed.column = 1 :=
  cursor_report_round_trip ((created_ample 3 2 7).reachable.feed [0x41]) (by decide) (by decide)
    (created_ample 3 2 7).reachable rfl rfl rfl

end Terminal

end WolfSshUefi
