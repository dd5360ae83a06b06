import WolfSshUefi.Efi
import WolfSshUefi.Library.Monitors

/-!
# Random bytes

`UefiRandomGenerateBlock`, on which every key of wolfSSL depends.  It locates
`EFI_RNG_PROTOCOL` when it is first needed and keeps it in `mRng`.  A failure is not kept: the
next request locates the protocol again, until it is there; from then on it is not located any
more (`random_blocks`).
-/

namespace WolfSshUefi

namespace UefiCompat

open Monitor

/-- A call of `UefiRandomGenerateBlock`, and what the firmware answers if it is asked. -/
structure RandomRequest where
  output : Bool             -- `Output` is not NULL
  size : UInt32
  locate : EfiStatus        -- of `LocateProtocol`
  getRng : EfiStatus        -- of `GetRNG`
  bytes : Nat → UInt8       -- what `GetRNG` writes

/-- The calls that reach the firmware. -/
inductive RngCall
  | locate (status : EfiStatus)
  | getRng (size : UInt32) (status : EfiStatus)

/-- Whether `mRng` is not NULL, and the calls so far. -/
structure Rng where
  located : Bool
  calls : List RngCall

/-- The bytes of a block, and none if the result is -1. -/
abbrev RandomBlock := Option (List UInt8)

/-- `mRng->GetRNG` -/
def Rng.getRng (s : Rng) (r : RandomRequest) : RandomBlock × Rng :=
  (if EfiError r.getRng then none else some ((List.range r.size.toNat).map r.bytes),
    { s with calls := s.calls ++ [.getRng r.size r.getRng] })

/-- `UefiRandomGenerateBlock` -/
def uefiRandomGenerateBlock (r : RandomRequest) (s : Rng) : RandomBlock × Rng :=
  if ¬ r.output ∧ r.size ≠ 0 then (none, s)
  else if s.located then s.getRng r
  else
    let s := { s with calls := s.calls ++ [.locate r.locate] }
    if EfiError r.locate then (none, s)
    else ({ s with located := true } : Rng).getRng r

/-- The blocks of some requests, one after the other. -/
def randomBlocks : List RandomRequest → Rng → List RandomBlock × Rng
  | [], s => ([], s)
  | r :: rest, s =>
      let (block, s) := uefiRandomGenerateBlock r s
      let (blocks, s) := randomBlocks rest s
      (block :: blocks, s)

/-- Before the first request. -/
def Rng.start : Rng := ⟨false, []⟩

/-- There is a buffer for the bytes. -/
def RandomRequest.Valid (r : RandomRequest) : Prop := r.output = true ∨ r.size = 0

instance (r : RandomRequest) : Decidable r.Valid := by unfold RandomRequest.Valid; infer_instance

/-- A call that is allowed, and whether the protocol is located after it: it is located as long
as it is not there, and asked for bytes only once it is. -/
def RngCall.step (located : Bool) : RngCall → Option Bool
  | .locate status => if located then none else some (decide (¬ EfiError status))
  | .getRng _ _ => if located then some true else none

/-- The protocol is there for a request: it was there, or the request has located it. -/
def RandomRequest.Served (r : RandomRequest) (located : Bool) : Prop :=
  located = true ∨ ¬ EfiError r.locate

instance (r : RandomRequest) (located : Bool) : Decidable (r.Served located) := by
  unfold RandomRequest.Served; infer_instance

/-- The bytes of the firmware, if there is a buffer, the protocol is there and gives them. -/
def RandomRequest.block (r : RandomRequest) (located : Bool) : RandomBlock :=
  if r.Valid ∧ r.Served located ∧ ¬ EfiError r.getRng then
    some ((List.range r.size.toNat).map r.bytes)
  else none

/-! ### One request -/

section Request

variable (r : RandomRequest) (s : Rng)

/-- A request is not valid if it wants bytes and has no buffer. -/
theorem RandomRequest.not_valid : ¬ r.Valid ↔ ¬ r.output ∧ r.size ≠ 0 := by
  unfold RandomRequest.Valid
  tauto

/-- What one request does: nothing without a buffer, and else it locates the protocol if it is
not there yet, and asks it if it is there now. -/
theorem block_cases :
    (¬ r.Valid ∧ uefiRandomGenerateBlock r s = (none, s)) ∨
    (r.Valid ∧ s.located = true ∧ uefiRandomGenerateBlock r s = s.getRng r) ∨
    (r.Valid ∧ s.located = false ∧ EfiError r.locate ∧
      uefiRandomGenerateBlock r s = (none, ⟨false, s.calls ++ [.locate r.locate]⟩)) ∨
    (r.Valid ∧ s.located = false ∧ ¬ EfiError r.locate ∧
      uefiRandomGenerateBlock r s =
        Rng.getRng ⟨true, s.calls ++ [.locate r.locate]⟩ r) := by
  obtain ⟨located, calls⟩ := s
  unfold uefiRandomGenerateBlock
  by_cases hvalid : r.Valid
  · have hbuffer : ¬ (¬ r.output ∧ r.size ≠ 0) := fun h => r.not_valid.2 h hvalid
    rw [if_neg hbuffer]
    cases located with
    | true => exact .inr (.inl ⟨hvalid, rfl, rfl⟩)
    | false =>
        by_cases herror : EfiError r.locate
        · exact .inr (.inr (.inl ⟨hvalid, rfl, herror, if_pos herror⟩))
        · exact .inr (.inr (.inr ⟨hvalid, rfl, herror, if_neg herror⟩))
  · exact .inl ⟨hvalid, if_pos (r.not_valid.1 hvalid)⟩

/-- What a request gets depends on whether the protocol was found. -/
theorem block_given : (uefiRandomGenerateBlock r s).1 = r.block s.located := by
  unfold RandomRequest.block RandomRequest.Served
  obtain ⟨h, hblock⟩ | ⟨h, hthere, hblock⟩ | ⟨h, hthere, herror, hblock⟩ |
      ⟨h, hthere, hfound, hblock⟩ := block_cases r s
  all_goals rw [hblock]
  · simp [h]
  · by_cases hgot : EfiError r.getRng <;> simp [Rng.getRng, h, hthere, hgot]
  · simp [hthere, herror]
  · by_cases hgot : EfiError r.getRng <;> simp [Rng.getRng, h, hfound, hgot]

/-- It is found now, or was before. -/
theorem block_located :
    (uefiRandomGenerateBlock r s).2.located = true ↔
      s.located = true ∨ (r.Valid ∧ ¬ EfiError r.locate) := by
  obtain ⟨h, hblock⟩ | ⟨h, hthere, hblock⟩ | ⟨h, hthere, herror, hblock⟩ |
      ⟨h, hthere, hfound, hblock⟩ := block_cases r s
  all_goals rw [hblock]
  · simp [h]
  · simp [Rng.getRng, hthere]
  · simp [hthere, herror]
  · simp [Rng.getRng, h, hfound]

/-- The calls of one request obey the protocol. -/
theorem block_calls :
    ∃ calls, (uefiRandomGenerateBlock r s).2.calls = s.calls ++ calls ∧
      Accepts RngCall.step s.located calls (uefiRandomGenerateBlock r s).2.located := by
  obtain ⟨h, hblock⟩ | ⟨h, hthere, hblock⟩ | ⟨h, hthere, herror, hblock⟩ |
      ⟨h, hthere, hfound, hblock⟩ := block_cases r s
  all_goals rw [hblock]
  · exact ⟨[], (List.append_nil _).symm, .nil _⟩
  · refine ⟨[.getRng r.size r.getRng], rfl, .one ?_⟩
    simp [RngCall.step, Rng.getRng, hthere]
  · refine ⟨[.locate r.locate], rfl, .one ?_⟩
    simp [RngCall.step, hthere, herror]
  · have hlocate : Accepts RngCall.step s.located [.locate r.locate] true :=
      .one (by simp [RngCall.step, hthere, hfound])
    have hget : Accepts RngCall.step true [.getRng r.size r.getRng] true := .one rfl
    exact ⟨_, List.append_assoc s.calls [.locate r.locate] [.getRng r.size r.getRng],
      hlocate.append hget⟩

end Request

/-! ### Many requests -/

/-- One of the requests finds the protocol, if it has to locate it. -/
def Located (requests : List RandomRequest) : Prop :=
  ∃ q ∈ requests, q.Valid ∧ ¬ EfiError q.locate

instance (requests : List RandomRequest) : Decidable (Located requests) := by
  unfold Located; infer_instance

/-- The first request finds it, or a later one. -/
theorem located_cons (q : RandomRequest) (requests : List RandomRequest) :
    Located (q :: requests) ↔ (q.Valid ∧ ¬ EfiError q.locate) ∨ Located requests := by
  simp [Located]

theorem located_snoc (requests : List RandomRequest) (q : RandomRequest) :
    Located (requests ++ [q]) ↔ Located requests ∨ (q.Valid ∧ ¬ EfiError q.locate) := by
  simp [Located, or_and_right, exists_or]

/-- **The calls of all requests obey the protocol.** -/
theorem randomBlocks_calls (requests : List RandomRequest) (s : Rng) :
    ∃ calls, (randomBlocks requests s).2.calls = s.calls ++ calls ∧
      Accepts RngCall.step s.located calls (randomBlocks requests s).2.located := by
  induction requests generalizing s with
  | nil => exact ⟨[], (List.append_nil _).symm, .nil _⟩
  | cons r rest ih =>
      obtain ⟨calls, hcalls, haccepts⟩ := block_calls r s
      obtain ⟨more, hmore, haccepts'⟩ := ih (uefiRandomGenerateBlock r s).2
      refine ⟨calls ++ more, ?_, haccepts.append haccepts'⟩
      rw [← List.append_assoc, ← hcalls]
      exact hmore

/-- A block depends on the requests before only through whether they have located the
protocol. -/
theorem randomBlocks_block (before : List RandomRequest) (r : RandomRequest)
    (after : List RandomRequest) (s : Rng) :
    (randomBlocks (before ++ r :: after) s).1[before.length]? =
      some (r.block (s.located || decide (Located before))) := by
  induction before generalizing s with
  | nil => simp [randomBlocks, block_given, Located]
  | cons q before ih =>
      have hrest := ih (uefiRandomGenerateBlock q s).2
      have hthere : ((uefiRandomGenerateBlock q s).2.located || decide (Located before)) =
          (s.located || decide (Located (q :: before))) := by
        rw [Bool.eq_iff_iff, Bool.or_eq_true, Bool.or_eq_true, block_located, decide_eq_true_iff,
          decide_eq_true_iff, located_cons, or_assoc]
      rw [← hthere, ← hrest]
      rfl

/-- The firmware is asked for the protocol until it is there and never after, and for bytes only
once it is.  A request gets its bytes exactly if it has a buffer for them, it or one before has
located the protocol, and the firmware gives them: no failure is kept. -/
theorem random_blocks (requests : List RandomRequest) :
    Accepts RngCall.step false (randomBlocks requests .start).2.calls
      (randomBlocks requests .start).2.located ∧
    ∀ before r after, requests = before ++ r :: after →
      (randomBlocks requests .start).1[before.length]? = some
        (if r.Valid ∧ Located (before ++ [r]) ∧ ¬ EfiError r.getRng then
          some ((List.range r.size.toNat).map r.bytes)
        else none) := by
  constructor
  · obtain ⟨calls, hcalls, haccepts⟩ := randomBlocks_calls requests .start
    rw [hcalls]
    exact haccepts
  · rintro before r after rfl
    rw [randomBlocks_block]
    have hserved : (r.Valid ∧ r.Served (Rng.start.located || decide (Located before)) ∧
          ¬ EfiError r.getRng) ↔
        (r.Valid ∧ Located (before ++ [r]) ∧ ¬ EfiError r.getRng) := by
      rw [located_snoc, RandomRequest.Served, Rng.start, Bool.false_or, decide_eq_true_iff]
      tauto
    rw [RandomRequest.block]
    simp only [hserved]

/-- Two bytes of a protocol that is found at the second request. -/
theorem random_blocks_second :
    (randomBlocks
      [⟨true, 2, efiNotFound, efiSuccess, fun i => i.toUInt8⟩,
        ⟨true, 2, efiSuccess, efiSuccess, fun i => i.toUInt8⟩] .start).1[1]? =
      some (some [0, 1]) :=
  (random_blocks _).2 [_] _ [] rfl

end UefiCompat

end WolfSshUefi
