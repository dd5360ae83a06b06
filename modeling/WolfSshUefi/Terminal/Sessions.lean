import WolfSshUefi.Terminal.Painting

/-!
# Runs of a session

What `WolfSshTerminalCreate` returns, what each call on the terminal does to
its state, and the invariant along every run.  `Step` has one case for each
call; whatever holds along all runs is proved by these cases.
-/

namespace WolfSshUefi.Terminal

open Loops

/-! ### Creation -/

/-- A geometry has a row and a column, and fits 16 bits. -/
theorem Firmware.geometry_bounds (fw : Firmware) :
    0 < fw.geometry.1 ∧ fw.geometry.1 ≤ maxUint16 ∧
      0 < fw.geometry.2 ∧ fw.geometry.2 ≤ maxUint16 := by
  unfold Firmware.geometry
  split
  · decide
  · next hvalid =>
      simp only
      omega

/-- The terminal a successful `WolfSshTerminalCreate` returns. -/
def Firmware.fresh (fw : Firmware) : Terminal :=
  let t := fw.initial fw.geometry.1 fw.geometry.2 (fw.geometry.2 - 1)
  { t with
    primary := t.primary.fill 0 t.rows 0 t.columns t.defaultBlank
    alternate := t.alternate.fill 0 t.rows 0 t.columns t.defaultBlank
    dirtyStart := fun i => if i < t.rows then t.columns else t.dirtyStart i
    parser := t.parser.reset }

/-- The loop that marks every row clean in a new terminal. -/
theorem markFresh_eq {t : Terminal} (hle : t.columns ≤ maxUint16)
    (hend : t.dirtyEnd = fun _ => 0) :
    upFrom (fun row (t : Terminal) => do
        let (_, last) ← t.readDirty row
        t.writeDirty row t.columns last) t.rows 0 t =
      .ok { t with dirtyStart := fun i => if i < t.rows then t.columns else t.dirtyStart i } := by
  unfold maxUint16 at hle
  have hmod : t.columns % 65536 = t.columns := Nat.mod_eq_of_lt (by omega)
  have hloop := upFrom_eq (fun row (t : Terminal) => do
      let (_, last) ← t.readDirty row
      t.writeDirty row t.columns last)
    (fun n => { t with dirtyStart := fun i => if i < n then t.columns else t.dirtyStart i })
    t.rows 0 (fun n hn => by
      simp only [Nat.zero_add, readDirty, writeDirty, hn, if_true, ok_bind, hmod, hend,
        Nat.zero_mod, Except.ok.injEq, Terminal.mk.injEq, true_and, and_true]
      constructor <;> (funext i; simp only [Function.update_apply]; grind))
  simp only [Nat.not_lt_zero, if_false] at hloop
  exact hloop

/-- Setting up a new terminal does not fail. -/
theorem setUp_eq (fw : Firmware) : fw.setUp fw.geometry.1 fw.geometry.2 = .ok fw.fresh := by
  obtain ⟨hcolumns, hcolumns_le, hrows, -⟩ := fw.geometry_bounds
  simp only [Firmware.setUp, usub_eq hrows, ok_bind]
  rw [WellFormed.clearBuffer_eq hcolumns, ok_bind, WellFormed.clearBuffer_eq hcolumns, ok_bind]
  let t := fw.initial fw.geometry.1 fw.geometry.2 (fw.geometry.2 - 1)
  let cleared : Terminal := { t with
    primary := t.primary.fill 0 t.rows 0 t.columns t.defaultBlank
    alternate := t.alternate.fill 0 t.rows 0 t.columns t.defaultBlank }
  have hmarked := markFresh_eq (t := cleared) hcolumns_le rfl
  exact congrArg (fun marked : Checked Terminal => do
    let t ← marked
    .ok { t with parser := t.parser.reset }) hmarked

/-- `WolfSshTerminalCreate` never goes wrong, and what it returns is `fresh`. -/
theorem create_eq (fw : Firmware) :
    ∃ outcome, create fw = .ok outcome ∧ ∀ t, outcome.terminal = some t → t = fw.fresh := by
  unfold create
  rw [setUp_eq]
  split
  · exact ⟨_, rfl, fun t ht => by cases ht⟩
  split
  · exact ⟨_, rfl, fun t ht => by cases ht⟩
  simp only
  split
  · exact ⟨_, rfl, fun t ht => by cases ht⟩
  · exact ⟨_, rfl, fun t ht => (Option.some.inj ht).symm⟩

/-- A created terminal is a new one. -/
theorem Created.eq_fresh {t : Terminal} (h : Created t) : ∃ fw : Firmware, t = fw.fresh := by
  obtain ⟨fw, conOut, pool, hcreate⟩ := h
  obtain ⟨outcome, hok, hfresh⟩ := create_eq fw
  rw [hcreate] at hok
  obtain rfl := Except.ok.inj hok
  exact ⟨fw, hfresh t rfl⟩

/-- A console, and every allocation granted. -/
def Firmware.Grants (fw : Firmware) : Prop :=
  fw.consolePresent = true ∧ ∀ b, fw.grants b = true

/-- Where everything is granted a terminal is created. -/
theorem create_granted {fw : Firmware} (h : fw.Grants) :
    ∃ pool, create fw = .ok ⟨some fw.fresh, [], pool⟩ := by
  have hall : ([.primary, .alternate, .dirtyStart, .dirtyEnd, .renderBuffer] : List Block).all
      fw.grants = true := by simp [h.2]
  let blocks : List Block := [.primary, .alternate, .dirtyStart, .dirtyEnd, .renderBuffer]
  refine ⟨.allocate .terminal true :: blocks.map fun b => .allocate b (fw.grants b), ?_⟩
  simp only [create, setUp_eq, h.1, h.2, hall, not_true, if_false, ok_bind]
  rfl

theorem created_fresh {fw : Firmware} (h : fw.Grants) : Created fw.fresh := by
  obtain ⟨pool, hcreate⟩ := create_granted h
  exact ⟨fw, [], pool, hcreate⟩

/-- A new terminal is well-formed. -/
theorem fresh_wellFormed (fw : Firmware) : fw.fresh.WellFormed := by
  obtain ⟨hcolumns, hcolumns_le, hrows, hrows_le⟩ := fw.geometry_bounds
  have hforeground : fw.modeAttribute &&& 0x0f < 16 :=
    Nat.and_lt_two_pow fw.modeAttribute (n := 4) (by omega)
  have hbackground : (fw.modeAttribute >>> 4) &&& 0x07 < 8 :=
    Nat.and_lt_two_pow (fw.modeAttribute >>> 4) (n := 3) (by omega)
  have hblank : Cell.Valid ⟨0x20, efiTextAttr (fw.modeAttribute &&& 0x0f)
      ((fw.modeAttribute >>> 4) &&& 0x07)⟩ :=
    ⟨efiTextAttr_le hforeground hbackground, by simp, by simp⟩
  have hparameters {i : Nat} (hi : i < terminalMaxParams) :
      fw.fresh.parser.parameters i = -1 := if_pos hi
  exact {
    rows_pos := hrows, rows_le := hrows_le, columns_pos := hcolumns, columns_le := hcolumns_le
    cells_eq := rfl, row_lt := hrows, column_lt := hcolumns, margins := Nat.zero_le _
    bottom_lt := by show fw.geometry.2 - 1 < fw.geometry.2; omega
    foreground_lt := hforeground, background_lt := hbackground
    dirty_start := fun r hr => Nat.le_of_eq (if_pos hr)
    dirty_end := fun r hr => hcolumns
    primary_cells := Grid.all_fill_screen hblank _
    alternate_cells := Grid.all_fill_screen hblank _
    reply_le := Nat.zero_le _
    parser := {
      count_pos := Nat.le_refl 1, count_le := show 1 ≤ terminalMaxParams by decide
      parameter_ge := fun i hi => hparameters hi ▸ Int.le_refl _
      parameter_le := fun i hi => hparameters hi ▸ by decide
      utf8_le := Nat.zero_le 3, utf8_ground := fun hne => absurd rfl hne } }

/-! ### Calls -/

/-- The replies that wait to be taken. -/
def queued (t : Terminal) : List UInt8 := (List.range t.replyLength).map t.replies

/-- `WolfSshTerminalTakeResponse` takes from the front of the queue. -/
theorem WellFormed.takeResponse_eq {t : Terminal} (h : t.WellFormed) (capacity : Nat) :
    ∃ replies, t.takeResponse capacity = .ok (t.queued.take capacity,
        { t with replies := replies, replyLength := t.replyLength - capacity }) ∧
      (List.range (t.replyLength - capacity)).map replies = t.queued.drop capacity := by
  have hle := h.reply_le
  unfold takeResponse
  by_cases hzero : capacity = 0
  · refine ⟨t.replies, ?_, ?_⟩
    · rw [if_pos hzero, hzero]
      rfl
    · rw [hzero]
      rfl
  · have hlength : min capacity t.replyLength ≤ t.replyLength := Nat.min_le_right _ _
    have htaken : (List.range (min capacity t.replyLength)).map t.replies =
        t.queued.take capacity := by
      rw [queued, ← List.map_take, List.take_range]
    have hleft : t.replyLength - min capacity t.replyLength = t.replyLength - capacity := by omega
    have hroom : min capacity t.replyLength ≤ terminalReplySize := by omega
    simp only [if_neg hzero, if_pos hroom, usub_eq hlength, ok_bind, htaken, hleft]
    by_cases hempty : t.replyLength - capacity = 0
    · refine ⟨t.replies, ?_, ?_⟩
      · rw [if_pos hempty]
      · have hall : t.queued.length ≤ capacity := by
          simp only [queued, List.length_map, List.length_range]
          omega
        rw [hempty, List.drop_eq_nil_of_le hall]
        rfl
    · refine ⟨fun i => if i < t.replyLength - capacity then
          t.replies (i + min capacity t.replyLength) else t.replies i, ?_, ?_⟩
      · rw [if_neg hempty, if_pos (by omega)]
      · have hmin : min capacity t.replyLength = capacity := by omega
        apply List.ext_getElem
        · simp [queued]
        · intro i hi _
          have hi' : i < t.replyLength - capacity := by simpa using hi
          simp [queued, hi', hmin, Nat.add_comm]

/-- What one call does. -/
inductive Step (t : Terminal) : Call → Terminal → Prop
  | feed (data : List UInt8) : Step t (.feed data) (Screen.feed t data)
  | flush {buffer : Nat → Nat} {painting : List ConsoleCall}
      (hpainting : t.Painted t.rows painting) :
      Step t .flush (t.painted t.rows buffer (flushCalls t painting))
  | takeResponse (capacity : Nat) {replies : Nat → UInt8}
      (hreplies : (List.range (t.replyLength - capacity)).map replies = t.queued.drop capacity) :
      Step t (.takeResponse capacity)
        { t with replies := replies, replyLength := t.replyLength - capacity }

/-- No call goes wrong. -/
theorem WellFormed.perform_eq {t : Terminal} (h : t.WellFormed) (c : Call) :
    ∃ t', t.perform c = .ok t' ∧ t.Step c t' := by
  cases c with
  | feed data => exact ⟨_, h.feed_eq data, .feed data⟩
  | flush =>
      obtain ⟨buffer, painting, hflush, hpainting⟩ := h.flush_eq
      exact ⟨_, hflush, .flush hpainting⟩
  | takeResponse capacity =>
      obtain ⟨replies, htake, hreplies⟩ := h.takeResponse_eq capacity
      refine ⟨_, ?_, .takeResponse capacity hreplies⟩
      rw [perform, htake]
      rfl

/-- Every call keeps the invariant. -/
theorem WellFormed.step {t t' : Terminal} {c : Call} (h : t.WellFormed) (hstep : t.Step c t') :
    t'.WellFormed := by
  cases hstep with
  | feed data => exact h.feed data
  | flush hpainting => exact h.painted _ _ _
  | takeResponse capacity hreplies =>
      have hle := h.reply_le
      exact { h with reply_le := by show t.replyLength - capacity ≤ _; omega }

/-- A property kept by every call is kept by every run, and no run goes wrong. -/
theorem WellFormed.run_invariant {inv : Terminal → Prop}
    (hinv : ∀ {t t' : Terminal} {c : Call}, t.WellFormed → inv t → t.Step c t' → inv t')
    {t : Terminal} (h : t.WellFormed) (hs : inv t) (calls : List Call) :
    ∃ t', t.run calls = .ok t' ∧ t'.WellFormed ∧ inv t' := by
  have hkeep : ∀ (t : Terminal) (c : Call), t.WellFormed ∧ inv t →
      ∃ t', t.perform c = .ok t' ∧ t'.WellFormed ∧ inv t' := by
    intro t c hboth
    obtain ⟨ht, hi⟩ := hboth
    obtain ⟨t', hperform, hstep⟩ := ht.perform_eq c
    exact ⟨t', hperform, ht.step hstep, hinv ht hi hstep⟩
  exact foldlM_invariant hkeep calls ⟨h, hs⟩

/-- No run goes wrong. -/
theorem WellFormed.run_ok {t : Terminal} (h : t.WellFormed) (calls : List Call) :
    ∃ t', t.run calls = .ok t' ∧ t'.WellFormed := by
  have hnothing {t t' : Terminal} {c : Call} (_ : t.WellFormed) (hi : True) (_ : t.Step c t') :
      True := hi
  obtain ⟨t', hrun, ht', -⟩ := h.run_invariant hnothing trivial calls
  exact ⟨t', hrun, ht'⟩

theorem Created.wellFormed {t : Terminal} (h : Created t) : t.WellFormed := by
  obtain ⟨fw, rfl⟩ := h.eq_fresh
  exact fresh_wellFormed fw

/-- It is reached by no calls. -/
theorem Created.reachable {t : Terminal} (h : Created t) : Reachable t :=
  ⟨t, [], h, rfl⟩

/-- **The invariant holds in every reachable state.** -/
theorem Reachable.wellFormed {t : Terminal} (h : Reachable t) : t.WellFormed := by
  obtain ⟨t₀, calls, hcreated, hrun⟩ := h
  obtain ⟨t', hok, ht'⟩ := hcreated.wellFormed.run_ok calls
  rw [hrun] at hok
  obtain rfl := Except.ok.inj hok
  exact ht'

/-- More bytes lead to a reachable state. -/
theorem Reachable.feed {t : Terminal} (h : Reachable t) (data : List UInt8) :
    Reachable (Screen.feed t data) := by
  have hfeed := h.wellFormed.feed_eq data
  obtain ⟨t₀, calls, hcreated, hrun⟩ := h
  refine ⟨t₀, calls ++ [.feed data], hcreated, ?_⟩
  unfold run at hrun ⊢
  rw [List.foldlM_append, hrun, ok_bind, List.foldlM_cons, perform, hfeed]
  rfl

/-! ### Bounds -/

/-- The bounds of the fields that are used as an index, a count or a position. -/
structure InBounds (t : Terminal) : Prop where
  rows : 1 ≤ t.rows ∧ t.rows ≤ 65535
  columns : 1 ≤ t.columns ∧ t.columns ≤ 65535
  row : t.row < t.rows
  column : t.column < t.columns
  margins : t.scrollTop ≤ t.scrollBottom ∧ t.scrollBottom < t.rows
  parameterCount : 1 ≤ t.parser.parameterCount ∧ t.parser.parameterCount ≤ 16
  parameters : ∀ i, i < 16 → -1 ≤ t.parser.parameters i ∧ t.parser.parameters i ≤ 9999999
  utf8Remaining : t.parser.utf8Remaining ≤ 3
  utf8Ground : t.parser.utf8Remaining ≠ 0 → t.parser.state = .ground
  replyLength : t.replyLength ≤ 128
  dirty : ∀ r, r < t.rows → t.dirtyStart r ≤ t.columns ∧ t.dirtyEnd r < t.columns
  attributes : ∀ r, r < t.rows → ∀ c, c < t.columns →
    (t.primary r c).attr ≤ 0x7f ∧ (t.alternate r c).attr ≤ 0x7f

/-- In a well-formed state all indices are in bounds. -/
theorem WellFormed.inBounds {t : Terminal} (h : t.WellFormed) : t.InBounds where
  rows := ⟨h.rows_pos, h.rows_le⟩
  columns := ⟨h.columns_pos, h.columns_le⟩
  row := h.row_lt
  column := h.column_lt
  margins := ⟨h.margins, h.bottom_lt⟩
  parameterCount := ⟨h.parser.count_pos, h.parser.count_le⟩
  parameters := fun i hi => ⟨h.parser.parameter_ge i hi, h.parser.parameter_le i hi⟩
  utf8Remaining := h.parser.utf8_le
  utf8Ground := h.parser.utf8_ground
  replyLength := h.reply_le
  dirty := fun r hr => ⟨h.dirty_start r hr, h.dirty_end r hr⟩
  attributes := fun r hr c hc => ⟨(h.primary_cells r hr c hc).1, (h.alternate_cells r hr c hc).1⟩

/-- **Every session stays in bounds.**  From a created terminal no sequence of
calls goes wrong: every access is inside its buffer, no wrapped difference is
used and no parameter overflows; and the state it ends in is in bounds. -/
theorem session_in_bounds {t₀ : Terminal} (h : Created t₀) (calls : List Call) :
    ∃ t, t₀.run calls = .ok t ∧ t.InBounds := by
  obtain ⟨t, hrun, ht⟩ := h.wellFormed.run_ok calls
  exact ⟨t, hrun, ht.inBounds⟩

/-- A console of the given geometry, with memory to spare. -/
def Firmware.ample (columns rows modeAttribute : Nat) : Firmware where
  consolePresent := true
  queryFails := false
  queryColumns := columns
  queryRows := rows
  modeAttribute := modeAttribute
  grants := fun _ => true
  primaryPool := fun _ _ => ⟨0, 0⟩
  alternatePool := fun _ _ => ⟨0, 0⟩
  dirtyStartPool := fun _ => 0
  renderPool := fun _ => 0

/-- A firmware with a console and memory creates its terminal. -/
theorem created_ample (columns rows modeAttribute : Nat) :
    Created (Firmware.ample columns rows modeAttribute).fresh :=
  created_fresh ⟨rfl, fun _ => rfl⟩

/-- On a screen of one cell, a scroll by more lines than there are. -/
theorem session_in_bounds_one_cell :
    ∃ t, (Firmware.ample 1 1 7).fresh.run
      [.feed [0x1b, 0x5b, 0x39, 0x39, 0x53, 0x41], .flush, .takeResponse 8] = .ok t ∧
      t.InBounds :=
  session_in_bounds (created_ample 1 1 7) _

end WolfSshUefi.Terminal
