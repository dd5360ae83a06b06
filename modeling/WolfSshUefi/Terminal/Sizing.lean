import WolfSshUefi.Terminal.Lifetime
import WolfSshUefi.Terminal.Reporting
import WolfSshUefi.Terminal.Synchronising

/-!
# The size that the server hears of

The server hears the size of the terminal twice: `wolfSSH_UEFI_GetTerminalInfo` tells it when
the session opens, and a program can ask for it by sending the cursor as far as it goes and
requesting its place.  The answer to the request is always the size of the terminal.  What is
told is that size unless the console claims more than 65535 columns or rows, which
`WolfSshTerminalCreate` does not believe (`size_told_and_probed`).
-/

namespace WolfSshUefi.Terminal

open Screen

/-- `MAX_UINT32` -/
def maxUint32 : Nat := 0xffffffff

/-- What `wolfSSH_UEFI_GetTerminalInfo` gives. -/
structure TerminalInfo where
  width : UInt32
  height : UInt32
  pixelWidth : UInt32
  pixelHeight : UInt32
  terminalType : String
  deriving DecidableEq, Repr

/-- `wolfSSH_UEFI_GetTerminalInfo`, with pointers that are not NULL. -/
def Firmware.getTerminalInfo (fw : Firmware) : TerminalInfo :=
  let info : TerminalInfo := ⟨80, 25, 0, 0, "xterm-256color"⟩
  if ¬ fw.consolePresent then info
  else if ¬ fw.queryFails ∧ fw.queryColumns ≠ 0 ∧ fw.queryRows ≠ 0 ∧
      fw.queryColumns ≤ maxUint32 ∧ fw.queryRows ≤ maxUint32 then
    { info with width := UInt32.ofNat fw.queryColumns, height := UInt32.ofNat fw.queryRows }
  else info

/-- The console claims a size that fits `unsigned int` and is too large for a terminal. -/
def Firmware.Oversized (fw : Firmware) : Prop :=
  ¬ fw.queryFails ∧ fw.queryColumns ≠ 0 ∧ fw.queryRows ≠ 0 ∧
    fw.queryColumns ≤ maxUint32 ∧ fw.queryRows ≤ maxUint32 ∧
      (fw.queryColumns > maxUint16 ∨ fw.queryRows > maxUint16)

instance (fw : Firmware) : Decidable fw.Oversized := by
  unfold Firmware.Oversized; infer_instance

/-- What is told is the size that the terminal has. -/
def Firmware.ToldSize (fw : Firmware) : Prop :=
  fw.getTerminalInfo.width.toNat = fw.geometry.1 ∧ fw.getTerminalInfo.height.toNat = fw.geometry.2

theorem told_size_iff {fw : Firmware} (h : fw.consolePresent = true) :
    fw.ToldSize ↔ ¬ fw.Oversized := by
  have hsmall (n : Nat) (hn : n ≤ maxUint32) : (UInt32.ofNat n).toNat = n := by
    rw [UInt32.toNat_ofNat']
    exact Nat.mod_eq_of_lt (by unfold maxUint32 at hn; omega)
  unfold Firmware.ToldSize Firmware.getTerminalInfo Firmware.geometry Firmware.Oversized
  simp only [h, not_true, if_false]
  by_cases hquery : ¬ fw.queryFails = true ∧ fw.queryColumns ≠ 0 ∧ fw.queryRows ≠ 0 ∧
      fw.queryColumns ≤ maxUint32 ∧ fw.queryRows ≤ maxUint32
  · obtain ⟨hok, hcolumns, hrows, hcolumns_le, hrows_le⟩ := hquery
    rw [if_pos ⟨hok, hcolumns, hrows, hcolumns_le, hrows_le⟩]
    simp only [hsmall _ hcolumns_le, hsmall _ hrows_le, hok, hcolumns, hrows, hcolumns_le,
      hrows_le, not_false_eq_true, ne_eq, true_and, false_or, Bool.false_eq_true]
    unfold maxUint16
    split
    · simp only
      omega
    · simp only [true_and, true_iff]
      omega
  · rw [if_neg hquery]
    have hdefault : fw.queryFails = true ∨ fw.queryColumns = 0 ∨ fw.queryRows = 0 ∨
        fw.queryColumns > maxUint16 ∨ fw.queryRows > maxUint16 := by
      by_contra hnone
      push Not at hnone
      obtain ⟨hok, hcolumns, hrows, hcolumns_le, hrows_le⟩ := hnone
      unfold maxUint16 at hcolumns_le hrows_le
      unfold maxUint32 at hquery
      exact hquery ⟨hok, hcolumns, hrows, by omega, by omega⟩
    rw [if_pos hdefault]
    refine iff_of_true ⟨rfl, rfl⟩ fun hover => hquery ?_
    obtain ⟨hok, hcolumns, hrows, hcolumns_le, hrows_le, -⟩ := hover
    exact ⟨hok, hcolumns, hrows, hcolumns_le, hrows_le⟩

/-! ### Asking for the size -/

/-- `ESC \`, the cursor to a far place, and a request for its place. -/
def sizeProbe (rows columns : List UInt8) : List UInt8 :=
  stringTerminator ++ (numberedSequence false [rows, columns] 0x48 ++ controlSequence [0x36] 0x6e)

/-- `ESC [ rows ; columns R` -/
def sizeReport (rows columns : Nat) : List UInt8 :=
  [0x1b, 0x5b] ++ decimal rows ++ [0x3b] ++ decimal columns ++ [0x52]

theorem sizeReport_eq {rows columns : Nat} (hrows : 0 < rows) (hcolumns : 0 < columns) :
    placeBody (rows - 1) (columns - 1) ++ [0x52] = sizeReport rows columns := by
  rw [placeBody, sizeReport, Nat.sub_add_cancel hrows, Nat.sub_add_cancel hcolumns]

/-- Numbers that are too large take the cursor to the last row and column. -/
theorem feed_far {t : Terminal} (ht : t.WellFormed) (hlisten : t.parser.Listening)
    {rows columns : List UInt8} (hdigits : ∀ field ∈ [rows, columns], ∀ b ∈ field, DigitByte b)
    (hrows : t.rows ≤ number rows) (hcolumns : t.columns ≤ number columns) :
    ∃ u, Screen.feed t (numberedSequence false [rows, columns] 0x48) = u ∧
      u.row = t.rows - 1 ∧ u.column = t.columns - 1 ∧ u.replyLength = t.replyLength ∧
      u.queued = t.queued ∧ u.parser.Listening := by
  obtain ⟨p, hground, hfeed⟩ := feed_numberedSequence ht hlisten false
    (List.cons_ne_nil _ _) (by simp) hdigits (show FinalByte 0x48 by decide)
  rw [ht.feed_eq] at hfeed
  have hexact {field : List UInt8} {n : Nat} (hn : 0 < n) (hle : n ≤ number field) :
      exactParameter field = number field := by
    refine if_neg fun hnil => ?_
    have hzero : number [] = 0 := rfl
    rw [hnil, hzero] at hle
    omega
  refine ⟨_, Except.ok.inj hfeed, ?_, ?_, rfl, rfl, .of_ground hground⟩
  · show min (t.rows - 1) (max 1 (exactParameter rows).toNat - 1) = t.rows - 1
    rw [hexact ht.rows_pos hrows]
    omega
  · show min (t.columns - 1) (max 1 (exactParameter columns).toNat - 1) = t.columns - 1
    rw [hexact ht.columns_pos hcolumns]
    omega

/-- The answer of a terminal whose queue is empty. -/
theorem feed_sizeProbe {t : Terminal} (ht : t.WellFormed) (hempty : t.replyLength = 0)
    {rows columns : List UInt8} (hdigits : ∀ field ∈ [rows, columns], ∀ b ∈ field, DigitByte b)
    (hrows : t.rows ≤ number rows) (hcolumns : t.columns ≤ number columns) :
    (Screen.feed t (sizeProbe rows columns)).queued = sizeReport t.rows t.columns := by
  have hidle := ht.parser.terminated.2
  have hfirst := ht.feed stringTerminator
  rw [feed_terminator ht] at hfirst
  obtain ⟨u, hfar, hrow, hcolumn, hlength, hqueued, hlisten⟩ := feed_far hfirst
    (.of_ground hidle.1) hdigits hrows hcolumns
  have hu : u.WellFormed := hfar ▸ hfirst.feed _
  have hrows_pos := ht.rows_pos
  have hcolumns_pos := ht.columns_pos
  have hsmall := report_small hu
  have hreport : cursorReport u.row u.column = sizeReport t.rows t.columns := by
    rw [cursorReport_placeBody hsmall.1 hsmall.2, hrow, hcolumn]
    exact sizeReport_eq hrows_pos hcolumns_pos
  have hroom : (cursorReport u.row u.column).length ≤ terminalReplySize - u.replyLength := by
    have hbody := length_placeBody hsmall.1 hsmall.2
    have hfree : u.replyLength = 0 := hlength.trans hempty
    rw [cursorReport_placeBody hsmall.1 hsmall.2, hfree, List.length_append]
    unfold terminalReplySize
    simp only [List.length_cons, List.length_nil]
    omega
  obtain ⟨v, hask, hanswer⟩ := feed_report hu hlisten hroom
  rw [hu.feed_eq] at hask
  have hnone : u.queued = [] := by
    rw [hqueued]
    show (List.range t.replyLength).map t.replies = []
    rw [hempty]
    rfl
  rw [sizeProbe, feed_append, feed_append, feed_terminator ht, hfar, Except.ok.inj hask, hanswer,
    hnone, hreport]
  rfl

/-- **The size that is told and the size that is found.**  After any calls, when the replies
have been taken, a program that sends `ESC \`, sends the cursor far enough and asks for its
place gets the size of the terminal, whatever its parser had half read.  The server was told
this size exactly if the console does not claim one that fits `unsigned int` and is too large
for a terminal. -/
theorem size_told_and_probed {fw : Firmware} (h : fw.Grants) (calls : List Call)
    {rows columns : List UInt8} (hdigits : ∀ field ∈ [rows, columns], ∀ b ∈ field, DigitByte b)
    (hrows : maxUint16 ≤ number rows) (hcolumns : maxUint16 ≤ number columns) :
    ∃ t taken u v, fw.fresh.run calls = .ok t ∧ t.takeResponse terminalReplySize = .ok (taken, u) ∧
      u.feed (sizeProbe rows columns) = .ok v ∧
      v.queued = sizeReport fw.geometry.2 fw.geometry.1 ∧
      (fw.ToldSize ↔ ¬ fw.Oversized) := by
  obtain ⟨t, hrun, ht, hbehaved⟩ := (fresh_wellFormed fw).run_invariant Behaved.step
    (behaved_fresh fw) calls
  obtain ⟨replies, htake, -⟩ := ht.takeResponse_eq terminalReplySize
  let u : Terminal :=
    { t with replies := replies, replyLength := t.replyLength - terminalReplySize }
  have hu : u.WellFormed :=
    { ht with reply_le := Nat.le_trans (Nat.sub_le _ _) ht.reply_le }
  have hempty : u.replyLength = 0 := Nat.sub_eq_zero_of_le ht.reply_le
  have hanswer := feed_sizeProbe hu hempty hdigits (Nat.le_trans hu.rows_le hrows)
    (Nat.le_trans hu.columns_le hcolumns)
  refine ⟨t, _, u, _, hrun, htake, hu.feed_eq _, ?_, told_size_iff h.1⟩
  rw [hanswer, ← hbehaved.columns, ← hbehaved.rows]

/-- On a screen of three columns and two rows, in the middle of a sequence. -/
theorem size_told_and_probed_small :
    ∃ t taken u v, (Firmware.ample 3 2 7).fresh.run [.feed [0x41, 0x1b, 0x5b]] = .ok t ∧
      t.takeResponse terminalReplySize = .ok (taken, u) ∧
      u.feed (sizeProbe [0x39, 0x39, 0x39, 0x39, 0x39] [0x39, 0x39, 0x39, 0x39, 0x39]) = .ok v ∧
      v.queued = sizeReport 2 3 ∧
      ((Firmware.ample 3 2 7).ToldSize ↔ ¬ (Firmware.ample 3 2 7).Oversized) :=
  @size_told_and_probed (Firmware.ample 3 2 7) ⟨rfl, fun _ => rfl⟩ _ _ _
    (by simp [DigitByte]) (by decide) (by decide)

end WolfSshUefi.Terminal
