import WolfSshUefi.UefiCompat.Blocks

/-!
# The calls of wolfSSL

Each call of the allocator is a step of the heap that its client sees, and keeps the
invariant (`step_answers`).  A run from a machine where nothing is granted is then a run
of the heap, and a block holds its bytes until the client hands it over or writes to it.
-/

namespace WolfSshUefi

namespace UefiCompat

open Memory

variable {w : World} {answer : Option Nat} {size : UInt64} {header p n : Nat}
variable {op : Heap.Operation Nat UInt8}

/-! ## What the client holds afterwards -/

/-- A call that gives and takes nothing leaves what is held. -/
theorem held_none (hreleases : op.releases none = []) : held w.live op none = w.live := by
  unfold held
  simp [hreleases]

/-- A block that is given is held at the size asked for. -/
theorem held_some {asked q : Nat} (hop : op.requested = some asked)
    (hreleases : op.releases (some q) = []) :
    held w.live op (some q) = Function.update w.live q (some asked) := by
  unfold held
  simp [hop, hreleases]

/-- A block that is given back is held no longer. -/
theorem held_released (hop : op.requested = none) (hreleases : op.releases none = [p]) :
    held w.live op none = Function.update w.live p none := by
  funext r
  unfold held
  by_cases hr : r = p
  · simp [hop, hreleases, hr]
  · simp [hop, hreleases, hr]

/-- The old block goes, the new one comes: the order does not matter. -/
theorem held_moved {asked q : Nat} (hop : op.requested = some asked)
    (hreleases : op.releases (some q) = [p]) (hne : p ≠ q) :
    held w.live op (some q) = Function.update (Function.update w.live q (some asked)) p none := by
  rw [Function.update_comm hne.symm]
  unfold held
  simp only [hop, hreleases, List.mem_singleton]
  congr 1
  funext r
  by_cases hr : r = p
  · simp [hr]
  · simp [hr]

/-! ## Failing -/

/-- The machine when the pool has been asked in vain, or not at all. -/
structure Unchanged (s s' : Machine) (size : UInt64) : Prop where
  memory : s'.memory = s.memory
  granted : s'.granted = s.granted
  calls : 0x10000000000000000 ≤ 16 + size.toNat ∧ s'.calls = s.calls ∨
    16 + size.toNat < 0x10000000000000000 ∧
      s'.calls = s.calls ++ [.allocate (sizeofHeader + size) none]

/-- A request that is too large leaves the machine alone. -/
theorem Unchanged.refl (s : Machine) (hlarge : 0x10000000000000000 ≤ 16 + size.toNat) :
    Unchanged s s size := ⟨rfl, rfl, .inl ⟨hlarge, rfl⟩⟩

/-- One that is refused does so as well. -/
theorem Unchanged.refused (s : Machine) (hfits : 16 + size.toNat < 0x10000000000000000) :
    Unchanged s (s.refused size) size := ⟨rfl, rfl, .inr ⟨hfits, rfl⟩⟩

/-- An allocation fails and leaves the machine, or a block appears. -/
theorem uefiCompatAllocate_spec (answer : Option Nat) (size : UInt64) (s : Machine) :
    (∃ s', Unchanged s s' size ∧ uefiCompatAllocate answer size s = (none, s')) ∨
    (16 + size.toNat < 0x10000000000000000 ∧ ∃ header, answer = some header ∧
      uefiCompatAllocate answer size s = (some (bufferOf header), s.headed header size)) := by
  obtain ⟨hlarge, hfailed⟩ | ⟨hfits, hrefused⟩ | hmade := uefiCompatAllocate_cases answer size s
  · exact .inl ⟨s, Unchanged.refl s hlarge, hfailed⟩
  · exact .inl ⟨s.refused size, Unchanged.refused s hfits, hrefused⟩
  · exact .inr hmade

/-- The one length that is asked for does not wrap. -/
theorem asks_for {made : List PoolCall} (hop : op.requested = some size.toNat)
    (hfits : 16 + size.toNat < 0x10000000000000000)
    (hmade : ∀ m answer, PoolCall.allocate m answer ∈ made → m = sizeofHeader + size) :
    ∀ m answer, PoolCall.allocate m answer ∈ made →
      ∃ asked, op.requested = some asked ∧ m.toNat = 16 + asked := by
  intro m answer hm
  refine ⟨size.toNat, hop, ?_⟩
  rw [hmade m answer hm, toNat_sizeofHeader_add hfits]

/-- The pool is not asked. -/
theorem asks_nothing {s : Machine} {result : Option Nat} (hreleases : op.releases result = [])
    (hlarge : ∀ asked, op.requested = some asked → 0x10000000000000000 ≤ 16 + asked) :
    Asks s op result [] where
  frees := by simp [hreleases]
  owned := by simp
  fits := by simp
  refused := fun asked hasked _ => .inl (hlarge asked hasked)

section Failing

variable {s' : Machine} (hs : Unchanged w.machine s' size)

include hs

/-- What leaves the machine alone keeps it sound. -/
theorem Sound.unchanged (h : Sound w) : Sound ⟨s', w.live⟩ where
  headed := by
    intro r m hr
    have hsame : Same w.machine.memory s'.memory ⟨headerOf r, 16⟩ := by
      intro a ha
      rw [hs.memory]
    exact (h.headed r m hr).same hsame (congrFun hs.granted _)
  owned := by
    rw [hs.granted]
    exact h.owned
  apart := by
    rw [hs.granted]
    exact h.apart

/-- Nor does it change the view. -/
theorem view_unchanged : World.view ⟨s', w.live⟩ = w.view := by
  unfold World.view
  rw [hs.memory]

/-- A call that fails answers with `NULL`. -/
theorem answers_failed (hop : op.requested = some size.toNat) (hreleases : op.releases none = [])
    (hstep : w.view.Step op none w.view) : Answers w op none ⟨s', held w.live op none⟩ where
  step := by
    rw [held_none hreleases, view_unchanged hs]
    exact hstep
  calls := by
    obtain ⟨hlarge, hcalls⟩ | ⟨hfits, hcalls⟩ := hs.calls
    · refine ⟨[], by rw [hcalls, List.append_nil], asks_nothing hreleases ?_⟩
      intro asked hasked
      rw [hop] at hasked
      rwa [← Option.some.inj hasked]
    · refine ⟨_, hcalls, ?_⟩
      constructor
      · simp [hreleases, PoolCall.freed]
      · simp [PoolCall.freed]
      · exact asks_for hop hfits fun m answer hm => by simp_all
      · intro _ _ _
        exact .inr ⟨_, List.mem_singleton_self _⟩
  failed := fun _ _ => ⟨hs.memory, hs.granted⟩

end Failing

/-! ## Allocating -/

/-- A new block, whether asked for by an allocation or by a reallocation of `NULL`. -/
theorem allocate_answers (h : Sound w) (hop : op.requested = some size.toNat)
    (hreleases : ∀ r, op.releases r = [])
    (hstep : ∀ r view', w.view.Allocates size.toNat r view' → w.view.Step op r view')
    (hfresh : Fresh w.machine (16 + size.toNat) answer) :
    Sound ⟨(uefiCompatAllocate answer size w.machine).2,
      held w.live op (uefiCompatAllocate answer size w.machine).1⟩ ∧
    Answers w op (uefiCompatAllocate answer size w.machine).1
      ⟨(uefiCompatAllocate answer size w.machine).2,
        held w.live op (uefiCompatAllocate answer size w.machine).1⟩ := by
  obtain ⟨s', hs, hfailed⟩ | ⟨hfits, header, hanswer, hmade⟩ :=
    uefiCompatAllocate_spec answer size w.machine
  · rw [hfailed]
    constructor
    · rw [held_none (hreleases none)]
      exact h.unchanged hs
    · exact answers_failed hs hop (hreleases none) (hstep none w.view rfl)
  · subst hanswer
    rw [hmade, held_some hop (hreleases _)]
    have hgrown := h.grow hfits hfresh
    refine ⟨hgrown, ?_, ?_, fun _ hnone => nomatch hnone⟩
    · apply hstep
      have hdead : w.view (bufferOf header) = none := by
        simp [World.view, h.fresh_not_live hfresh]
      exact ⟨hdead, _, length_load _ _ _, view_grow h hfresh⟩
    · refine ⟨[.allocate (sizeofHeader + size) (some header)], rfl, ?_⟩
      constructor
      · simp [hreleases, PoolCall.freed]
      · simp [PoolCall.freed]
      · exact asks_for hop hfits fun m answer hm => by simp_all
      · intro _ _ hnone
        exact nomatch hnone

/-! ## Giving back -/

/-- Giving a block back answers the call. -/
theorem drop_answers (h : Sound w) (hp : w.live p = some n) (hop : op.requested = none)
    (hreleases : op.releases none = [p]) (hstep : w.view.Step op none (w.view.remove p)) :
    Sound ⟨w.machine.released (headerOf p), held w.live op none⟩ ∧
    Answers w op none ⟨w.machine.released (headerOf p), held w.live op none⟩ := by
  rw [held_released hop hreleases]
  refine ⟨h.drop hp, ?_, ?_, fun hsome => ?_⟩
  · have hview := view_drop h hp
    rw [← hview] at hstep
    exact hstep
  · refine ⟨[.free (headerOf p)], rfl, ?_⟩
    constructor
    · simp [hreleases, PoolCall.freed]
    · simp [PoolCall.freed, (h.headed p n hp).granted]
    · intro m a hm
      simp at hm
    · intro asked hasked
      rw [hop] at hasked
      exact nomatch hasked
  · rw [hop] at hsome
    exact nomatch hsome

/-! ## Moving -/

/-- The bytes of block `p` that fit into a block of `size` bytes. -/
def carried (w : World) (p n : Nat) (size : UInt64) : List UInt8 :=
  load w.machine.memory p (min n size.toNat)

/-- As much is carried over as fits both blocks. -/
theorem length_carried (w : World) (p n : Nat) (size : UInt64) :
    (carried w p n size).length = min n size.toNat := length_load _ _ _

/-- It fits the new block. -/
theorem covers_carried (w : World) (p n q : Nat) (size : UInt64) :
    Region.Covers ⟨q, size.toNat⟩ ⟨q, (carried w p n size).length⟩ := by
  rw [length_carried]
  exact ⟨Nat.le_refl q, Nat.add_le_add_left (Nat.min_le_right _ _) q⟩

/-- The world after they have moved to a new block. -/
def moved (w : World) (p n header : Nat) (size : UInt64) : World :=
  ((w.grow header size).fill (bufferOf header) (carried w p n size)).drop p

/-- A block that is live stays so, with its bytes, when another appears. -/
theorem grow_kept (h : Sound w)
    (hfresh : Fresh w.machine (16 + size.toNat) (some header)) (hp : w.live p = some n) :
    (w.grow header size).live p = some n ∧
      ∀ k, k ≤ n → load (w.grow header size).machine.memory p k = load w.machine.memory p k := by
  refine ⟨(Function.update_of_ne (h.ne_fresh hfresh hp) _ _).trans hp, fun k hk => load_same ?_⟩
  have hpAbove := (h.headed p n hp).above
  have hsame := (h.headed_same hp hfresh).covers (whole_covers_block hpAbove)
  exact hsame.covers ⟨by simp, by simpa using hk⟩

/-- The code does just this. -/
theorem reallocate_moved (h : Sound w) (hp : w.live p = some n) (hsize : size ≠ 0)
    (hfits : 16 + size.toNat < 0x10000000000000000)
    (hfresh : Fresh w.machine (16 + size.toNat) (some header))
    (hmade : uefiCompatAllocate answer size w.machine =
      (some (bufferOf header), w.machine.headed header size)) :
    uefiCompatReallocate answer (some p) size w.machine =
      (some (bufferOf header), (moved w p n header size).machine) := by
  have hsignature := (h.headed p n hp).signature
  have hgrown := h.grow hfits hfresh
  obtain ⟨hlive, hbytes⟩ := grow_kept h hfresh hp
  have hlength : (min ((w.machine.headed header size).size (headerOf p)) size).toNat
      = min n size.toNat := by
    have hsizes : ((w.machine.headed header size).size (headerOf p)).toNat = n :=
      (hgrown.headed p n hlive).size
    rw [toNat_min, hsizes]
  rw [uefiCompatReallocate_moved hsignature hsize hmade, hlength]
  have hcopy : (w.machine.headed header size).copyMem (bufferOf header) p (min n size.toNat)
      = ((w.grow header size).fill (bufferOf header) (carried w p n size)).machine := by
    rw [carried, ← hbytes (min n size.toNat) (Nat.min_le_left _ _)]
    rfl
  have hfilled := hgrown.fill (Function.update_self _ _ _)
    (covers_carried w p n (bufferOf header) size)
  rw [hcopy, uefiCompatFree_signed (hfilled.headed p n hlive).signature]
  rfl

/-- What the client sees of it: the bytes that fit are in the new block. -/
theorem moved_view (h : Sound w) (hp : w.live p = some n)
    (hfits : 16 + size.toNat < 0x10000000000000000)
    (hfresh : Fresh w.machine (16 + size.toNat) (some header)) :
    Sound (moved w p n header size) ∧
    w.view.Moves p size.toNat (some (bufferOf header)) (moved w p n header size).view := by
  have hgrown := h.grow hfits hfresh
  obtain ⟨hlive, hbytes⟩ := grow_kept h hfresh hp
  have hnew : (w.grow header size).live (bufferOf header) = some size.toNat :=
    Function.update_self _ _ _
  have hcovers := covers_carried w p n (bufferOf header) size
  have hfilled := hgrown.fill hnew hcovers
  refine ⟨hfilled.drop hlive, ?_, load w.machine.memory p n, load (store
    (w.grow header size).machine.memory (bufferOf header) (carried w p n size))
      (bufferOf header) size.toNat, ?_, length_load _ _ _, ?_, ?_⟩
  · simp [World.view, h.fresh_not_live hfresh]
  · simp [World.view, hp]
  · have hstored := load_store (w.grow header size).machine.memory (bufferOf header)
      (carried w p n size)
    rw [length_carried] at hstored
    rw [length_load, take_load, take_load, Nat.min_assoc, Nat.min_self, hstored, carried]
    congr 1
    omega
  · calc (moved w p n header size).view
        = ((w.grow header size).fill (bufferOf header) (carried w p n size)).view.remove p :=
          view_drop hfilled hlive
      _ = (w.view.remove p).put (bufferOf header) _ := by
          rw [view_fill hgrown hnew hcovers, view_grow h hfresh,
            Heap.remove_put_put (h.ne_fresh hfresh hp)]

/-- A reallocation that is granted answers the call. -/
theorem reallocate_answers (h : Sound w) (hp : w.live p = some n) (hsize : size ≠ 0)
    (hfresh : Fresh w.machine (16 + size.toNat) answer) :
    Sound (w.step (.reallocate (some p) size answer)) ∧
    Answers w (.reallocate (some p) size.toNat) (w.result (.reallocate (some p) size answer))
      (w.step (.reallocate (some p) size answer)) := by
  have hzero : size.toNat ≠ 0 := fun hz => hsize (UInt64.toNat_inj.1 hz)
  have hop : (Heap.Operation.reallocate (some p) size.toNat : Heap.Operation Nat UInt8).requested
      = some size.toNat := if_neg hzero
  have hsignature := (h.headed p n hp).signature
  obtain ⟨s', hs, hfailed⟩ | ⟨hfits, header, hanswer, hmade⟩ :=
    uefiCompatAllocate_spec answer size w.machine
  · have hperform : perform w.machine (.reallocate (some p) size answer) = (none, s') :=
      uefiCompatReallocate_failed hsignature hsize hfailed
    have hreleases : (Heap.Operation.reallocate (some p) size.toNat :
        Heap.Operation Nat UInt8).releases none = [] := by
      simp [Heap.Operation.releases, hzero]
    rw [World.step, World.result, hperform]
    constructor
    · rw [Event.operation, held_none hreleases]
      exact h.unchanged hs
    · apply answers_failed hs hop hreleases
      rw [Heap.Step, if_neg hzero]
      rfl
  · subst hanswer
    have hperform : perform w.machine (.reallocate (some p) size (some header)) =
        (some (bufferOf header), (moved w p n header size).machine) :=
      reallocate_moved h hp hsize hfits hfresh hmade
    have hreleases : (Heap.Operation.reallocate (some p) size.toNat :
        Heap.Operation Nat UInt8).releases (some (bufferOf header)) = [p] := by
      simp [Heap.Operation.releases]
    have hlive := held_moved (w := w) hop hreleases (h.ne_fresh hfresh hp)
    obtain ⟨hsound, hmoves⟩ := moved_view h hp hfits hfresh
    rw [World.step, World.result, hperform, Event.operation, hlive]
    refine ⟨hsound, ?_, ?_, fun _ hnone => absurd hnone (Option.some_ne_none _)⟩
    · rw [Heap.Step, if_neg hzero]
      exact hmoves
    · refine ⟨[.allocate (sizeofHeader + size) (some header), .free (headerOf p)],
        List.append_assoc _ _ _, ?_⟩
      constructor
      · rw [hreleases]
        rfl
      · simp [PoolCall.freed, (h.headed p n hp).granted]
      · exact asks_for hop hfits fun m answer hm => by simp_all
      · intro _ _ hnone
        exact absurd hnone (Option.some_ne_none _)

/-! ## Between the calls -/

/-- Nothing is asked of the pool. -/
theorem answers_quiet (w' : World) (hop : op.requested = none) (hreleases : op.releases none = [])
    (hcalls : w'.machine.calls = w.machine.calls) (hstep : w.view.Step op none w'.view) :
    Answers w op none w' where
  step := hstep
  calls := by
    refine ⟨[], by rw [hcalls, List.append_nil], asks_nothing hreleases ?_⟩
    intro asked hasked
    rw [hop] at hasked
    exact nomatch hasked
  failed := fun hsome => by simp [hop] at hsome

/-- So does a write within a block. -/
theorem write_answers (h : Sound w) {offset : Nat} {byte : UInt8} (hp : w.live p = some n)
    (hoffset : offset < n) :
    Sound (w.step (.write p offset byte)) ∧
    Answers w (.write p offset byte) none (w.step (.write p offset byte)) := by
  have hin : Region.Covers ⟨p, n⟩ ⟨p + offset, [byte].length⟩ := by
    simp only [Region.Covers, List.length_singleton]
    omega
  have hstep : w.step (.write p offset byte) = w.fill (p + offset) [byte] := by
    rw [World.step, Event.operation, World.fill]
    congr 1
  rw [hstep]
  refine ⟨h.fill hp hin, answers_quiet _ rfl rfl rfl ⟨rfl, load w.machine.memory p n, ?_, ?_⟩⟩
  · simp [World.view, hp]
  · rw [view_fill h hp hin, load_store_cell]

/-- What the rest of the machine may not write to. -/
theorem elsewhere_answers (h : Sound w) {memory : Nat → UInt8}
    (hsame : ∀ a n, w.machine.granted a = some n → Same w.machine.memory memory ⟨a, n⟩) :
    Sound (w.step (.elsewhere memory)) ∧
    Answers w .pause none (w.step (.elsewhere memory)) := by
  have hwhole : ∀ r m, w.live r = some m → Same w.machine.memory memory (whole r m) := by
    intro r m hr
    exact hsame (headerOf r) (16 + m) (h.headed r m hr).granted
  have hstep : w.step (.elsewhere memory) = ⟨{ w.machine with memory := memory }, w.live⟩ := by
    rw [World.step, Event.operation]
    congr 1
  rw [hstep]
  constructor
  · constructor
    · intro r m hr
      exact (h.headed r m hr).same ((hwhole r m hr).covers (whole_covers_header r m)) rfl
    · exact h.owned
    · exact h.apart
  · refine answers_quiet _ rfl rfl rfl ⟨rfl, ?_⟩
    funext r
    have hlive : (World.mk { w.machine with memory := memory } w.live).live r = w.live r := rfl
    apply view_same hlive
    intro m hr
    exact (hwhole r m hr).covers (whole_covers_block (h.headed r m hr).above)

/-! ## Runs -/

/-- Everything that can happen is a step of the heap, and keeps the invariant. -/
theorem step_answers (h : Sound w) (e : Event) (he : Legal w e) :
    Sound (w.step e) ∧ Answers w e.operation (w.result e) (w.step e) := by
  cases e with
  | allocate size answer =>
      exact allocate_answers h rfl (fun _ => rfl) (fun _ _ hs => hs) he
  | reallocate buffer size answer =>
      obtain ⟨hbuffer, hfresh⟩ := he
      cases buffer with
      | none => exact allocate_answers h rfl (fun _ => rfl) (fun _ _ hs => hs) hfresh
      | some p =>
          obtain ⟨n, hp⟩ := Option.ne_none_iff_exists'.1 (hbuffer p rfl)
          by_cases hsize : size = 0
          · subst hsize
            have hperform : perform w.machine (.reallocate (some p) 0 answer) =
                (none, w.machine.released (headerOf p)) := by
              rw [perform, uefiWolfReallocate,
                uefiCompatReallocate_zero (h.headed p n hp).signature]
            rw [World.step, World.result, hperform]
            exact drop_answers h hp rfl rfl ⟨rfl, rfl⟩
          · exact reallocate_answers h hp hsize hfresh
  | free buffer =>
      cases buffer with
      | none =>
          have hstep : w.step (.free none) = w := by
            rw [World.step, Event.operation]
            congr 1
          rw [hstep]
          exact ⟨h, answers_quiet _ rfl rfl rfl ⟨rfl, rfl⟩⟩
      | some p =>
          obtain ⟨n, hp⟩ := Option.ne_none_iff_exists'.1 (he p rfl)
          have hperform : perform w.machine (.free (some p)) =
              (none, w.machine.released (headerOf p)) := by
            rw [perform, uefiWolfFree, uefiCompatFree_signed (h.headed p n hp).signature]
          rw [World.step, World.result, hperform]
          exact drop_answers h hp rfl rfl ⟨rfl, rfl⟩
  | write p offset byte =>
      obtain ⟨n, hp, hoffset⟩ := he
      exact write_answers h hp hoffset
  | elsewhere memory => exact elsewhere_answers h he

/-- A run of the machine is a run of the heap. -/
theorem run_refines (h : Sound w) (events : List Event) (hlegal : LegalRun w events) :
    Sound (w.run events) ∧ Heap.Run w.view (w.trace events) (w.run events).view := by
  induction events generalizing w with
  | nil => exact ⟨h, .nil _⟩
  | cons e rest ih =>
      obtain ⟨he, hrest⟩ := hlegal
      obtain ⟨hsound, hanswers⟩ := step_answers h e he
      obtain ⟨hlast, hrun⟩ := ih hsound hrest
      exact ⟨hlast, .cons hanswers.step hrun⟩

/-- What a run touches is what its events do. -/
theorem trace_touches (events : List Event) {block : Option Nat}
    (h : ∀ e ∈ events, e.operation.touches ≠ block) :
    ∀ op ∈ w.trace events, op.1.touches ≠ block := by
  induction events generalizing w with
  | nil =>
      intro op hop
      exact nomatch hop
  | cons e rest ih =>
      intro op hop
      rw [World.trace, List.mem_cons] at hop
      obtain rfl | hop := hop
      · exact h e List.mem_cons_self
      · exact ih (fun e he => h e (List.mem_cons_of_mem _ he)) op hop

/-- Whatever has happened, each call behaves as that of a heap, and a block keeps its size
and its bytes until it is reallocated, freed or written to. -/
theorem allocator_behaves {memory : Nat → UInt8} {history : List Event}
    (hlegal : LegalRun (World.start memory) history) :
    (∀ e, Legal ((World.start memory).run history) e →
      Answers ((World.start memory).run history) e.operation
        (((World.start memory).run history).result e)
        (((World.start memory).run history).step e)) ∧
    ∀ p bytes later, ((World.start memory).run history).view p = some bytes →
      LegalRun ((World.start memory).run history) later →
      (∀ e ∈ later, e.operation.touches ≠ some p) →
      (((World.start memory).run history).run later).view p = some bytes := by
  have hsound := (run_refines (sound_start memory) history hlegal).1
  constructor
  · intro e he
    exact (step_answers hsound e he).2
  · intro p bytes later hp hlater htouches
    have hrun := (run_refines hsound later hlater).2
    exact hrun.kept hp (trace_touches later htouches)

/-- Two blocks are made and the first is written to: it can move, and the second keeps
its bytes. -/
theorem allocator_behaves_moving :
    Answers ((World.start fun _ => 5).run [.allocate 3 (some 64), .write 80 0 7])
      (.reallocate (some 80) 2) (some 144)
      (((World.start fun _ => 5).run [.allocate 3 (some 64), .write 80 0 7]).step
        (.reallocate (some 80) 2 (some 128))) ∧
    (((World.start fun _ => 5).run [.allocate 3 (some 64), .write 80 0 7]).run
      [.allocate 1 none]).view 80 = some [7, 5, 5] := by
  have hlegal : LegalRun (World.start fun _ => 5) [.allocate 3 (some 64), .write 80 0 7] := by
    refine ⟨?_, ⟨3, by decide +kernel, by decide⟩, trivial⟩
    intro address _ a n ha
    exact nomatch ha
  have hfresh : Fresh ((World.start fun _ => 5).run [.allocate 3 (some 64), .write 80 0 7]).machine
      18 (some 128) := by
    intro address haddress a n ha
    have ha' : Function.update (fun _ => none) 64 (some 19) a = some n := ha
    by_cases h64 : a = 64
    · subst h64
      simp at ha' haddress
      subst ha' haddress
      exact .inr (by decide)
    · simp [h64] at ha'
  have hbehaves := allocator_behaves hlegal
  constructor
  · refine hbehaves.1 (.reallocate (some 80) 2 (some 128)) ⟨?_, hfresh⟩
    intro p hp
    rw [← Option.some.inj hp]
    decide +kernel
  · apply hbehaves.2 80 [7, 5, 5] [.allocate 1 none]
    · decide +kernel
    · refine ⟨?_, trivial⟩
      intro address haddress
      exact nomatch haddress
    · simp [Event.operation, Heap.Operation.touches]

end UefiCompat

end WolfSshUefi
