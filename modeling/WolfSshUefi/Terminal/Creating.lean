import WolfSshUefi.Library.Ledger
import WolfSshUefi.Terminal.Colours

/-!
# Creation that fails

When the pool refuses a block, `WolfSshTerminalCreate` leaves what it has to
`WolfSshTerminalDestroy`.  Every block it got is freed, once.  But the blocks it did
not get are freed as well, and the console is set to the colours of the object, which
are still zero.  So a failure leaves no trace exactly when there was nothing to
destroy (`leaves_no_trace_iff`).
-/

namespace WolfSshUefi.Terminal

open Ledger

/-- The block that a call obtains. -/
def PoolCall.obtained? : PoolCall → Option Block
  | .allocate block true => some block
  | _ => none

/-- The block that a call frees. -/
def PoolCall.freed? : PoolCall → Option Block
  | .free (some block) => some block
  | _ => none

/-- A failure is not noticed: all blocks obtained have been freed once, `FreePool` was
called with these only, and the console has the attribute it had. -/
structure CreateOutcome.NoTrace (outcome : CreateOutcome) (d : ColourConsole) : Prop where
  freed : Balanced (outcome.pool.filterMap PoolCall.obtained?)
    (outcome.pool.filterMap PoolCall.freed?) []
  noNull : .free none ∉ outcome.pool
  current : (d.run outcome.conOut).current = d.current

/-- On the console `d`, `WolfSshTerminalCreate` succeeds or leaves no trace. -/
def Firmware.LeavesNoTrace (fw : Firmware) (d : ColourConsole) : Prop :=
  ∃ outcome, create fw = .ok outcome ∧ (outcome.terminal = none → outcome.NoTrace d)

/-- The object itself was granted, but not all of its buffers. -/
def Firmware.HalfMade (fw : Firmware) : Prop :=
  fw.consolePresent = true ∧ fw.grants .terminal = true ∧ ∃ block, fw.grants block = false

/-- The blocks in the order of their allocation. -/
def allBlocks : List Block := [.terminal, .primary, .alternate, .dirtyStart, .dirtyEnd, .renderBuffer]

/-- These are all the blocks. -/
theorem mem_allBlocks (block : Block) : block ∈ allBlocks := by
  cases block <;> decide

/-! ### What `WolfSshTerminalCreate` does -/

/-- A block, if it was granted. -/
def Firmware.held (fw : Firmware) (block : Block) : Option Block :=
  if fw.grants block then some block else none

/-- The calls of the pool for an object that is half made. -/
def Firmware.halfMadePool (fw : Firmware) : List PoolCall :=
  allBlocks.map (fun block => .allocate block (fw.grants block)) ++
    allBlocks.reverse.map fun block => .free (fw.held block)

variable {fw : Firmware}

/-- A terminal that lacks a block is destroyed again. -/
theorem create_halfMade (h : fw.HalfMade) : create fw =
    .ok ⟨none, [.setAttribute 0, .enableCursor true], fw.halfMadePool⟩ := by
  obtain ⟨hconsole, hterminal, block, hrefused⟩ := h
  have hsome : ¬ ([.primary, .alternate, .dirtyStart, .dirtyEnd, .renderBuffer] : List Block).all
      fw.grants := by
    intro hall
    have hblocks := List.all_eq_true.mp hall
    have hmem := mem_allBlocks block
    rcases List.mem_cons.mp hmem with rfl | hbuffer
    · rw [hterminal] at hrefused
      cases hrefused
    · rw [hblocks block hbuffer] at hrefused
      cases hrefused
  have hpool : fw.halfMadePool = .allocate .terminal true ::
      ([.primary, .alternate, .dirtyStart, .dirtyEnd, .renderBuffer] : List Block).map
        (fun block => .allocate block (fw.grants block)) ++
          allBlocks.reverse.map fun block => .free (fw.held block) := by
    rw [← hterminal]
    rfl
  unfold create
  rw [if_neg (not_not.mpr hconsole), if_neg (not_not.mpr hterminal)]
  dsimp only
  rw [if_pos hsome, destroyCalls, if_pos hconsole, hpool]
  rfl

/-- Where the object is not half made, a failure has made no call but perhaps one that
was refused. -/
theorem create_not_halfMade (h : ¬ fw.HalfMade) :
    ∃ outcome, create fw = .ok outcome ∧ (outcome.terminal = none →
      outcome.conOut = [] ∧
        (outcome.pool = [] ∨ outcome.pool = [.allocate .terminal false])) := by
  by_cases hconsole : fw.consolePresent = true
  · by_cases hterminal : fw.grants .terminal = true
    · have hgrants : fw.Grants := by
        refine ⟨hconsole, fun block => ?_⟩
        by_contra hrefused
        exact h ⟨hconsole, hterminal, block, by simpa using hrefused⟩
      obtain ⟨pool, hcreate⟩ := create_granted hgrants
      exact ⟨_, hcreate, fun hnone => by cases hnone⟩
    · exact ⟨⟨none, [], [.allocate .terminal false]⟩, by simp [create, hconsole, hterminal],
        fun _ => ⟨rfl, .inr rfl⟩⟩
  · exact ⟨⟨none, [], []⟩, by simp [create, hconsole], fun _ => ⟨rfl, .inl rfl⟩⟩

/-! ### Blocks are freed once -/

/-- The blocks that were refused are freed too, as NULL. -/
theorem frees_null (h : fw.HalfMade) : PoolCall.free none ∈ fw.halfMadePool := by
  obtain ⟨-, -, block, hrefused⟩ := h
  have hheld : fw.held block = none := if_neg (by simp [hrefused])
  refine List.mem_append_right _ (List.mem_map.mpr ⟨block, ?_, by rw [hheld]⟩)
  exact List.mem_reverse.mpr (mem_allBlocks block)

/-- **A failure leaves no trace exactly when** the object is not half made. -/
theorem leaves_no_trace_iff (fw : Firmware) (d : ColourConsole) :
    fw.LeavesNoTrace d ↔ ¬ fw.HalfMade := by
  constructor
  · intro hclean hhalf
    obtain ⟨outcome, hcreate, hnone⟩ := hclean
    obtain rfl := Except.ok.inj ((create_halfMade hhalf).symm.trans hcreate)
    exact (hnone rfl).noNull (frees_null hhalf)
  · intro hwhole
    obtain ⟨outcome, hcreate, hnone⟩ := create_not_halfMade hwhole
    refine ⟨outcome, hcreate, fun hfailed => ?_⟩
    obtain ⟨hconOut, hpool⟩ := hnone hfailed
    rcases hpool with hpool | hpool
    · exact ⟨by rw [hpool]; exact .nil, by simp [hpool], by rw [hconOut]; rfl⟩
    · exact ⟨by rw [hpool]; exact .nil, by simp [hpool], by rw [hconOut]; rfl⟩

/-- The pool refuses the last buffer. -/
def noRenderBuffer : Firmware :=
  { Firmware.ample 80 25 7 with grants := fun block => block ≠ .renderBuffer }

/-- NULL is freed, and the console, which was light gray on black, is black on black. -/
theorem no_render_buffer :
    (∃ outcome, create noRenderBuffer = .ok outcome ∧ outcome.terminal = none ∧
        .free none ∈ outcome.pool ∧
        ((⟨0, 0, 7, fun _ _ => ⟨0x20, 7⟩⟩ : ColourConsole).run outcome.conOut).current = 0) ∧
      ¬ noRenderBuffer.LeavesNoTrace ⟨0, 0, 7, fun _ _ => ⟨0x20, 7⟩⟩ := by
  have hhalf : noRenderBuffer.HalfMade := ⟨rfl, rfl, .renderBuffer, rfl⟩
  refine ⟨⟨_, create_halfMade hhalf, rfl, frees_null hhalf, rfl⟩, ?_⟩
  intro hclean
  obtain ⟨outcome, hcreate, hnone⟩ := hclean
  obtain rfl := Except.ok.inj ((create_halfMade hhalf).symm.trans hcreate)
  exact absurd (hnone rfl).current (by decide)

end WolfSshUefi.Terminal
