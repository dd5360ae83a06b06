import WolfSshUefi.Library.Heap
import WolfSshUefi.UefiCompat.Allocator

/-!
# The heap of wolfSSL

What a client sees of the allocator is a heap: the blocks that it holds, and the bytes in
them.  The headers before the blocks, the pool and the rest of the memory are hidden.
The invariant `Sound` ties them together: before each block there is its header, the
pool has granted just these blocks with their headers, and they do not overlap.

Between the calls the client writes to its blocks, and the rest of the machine writes to
what the pool has not granted.  Each call is the step of a heap (`allocator_behaves`).
-/

namespace WolfSshUefi

namespace UefiCompat

open Memory

/-- The machine, and the sizes of the blocks that the client holds. -/
structure World where
  machine : Machine
  live : Nat → Option Nat

/-- What the client sees. -/
def World.view (w : World) : Heap Nat UInt8 := fun p =>
  (w.live p).map (load w.machine.memory p)

/-- No block is granted. -/
def World.start (memory : Nat → UInt8) : World := ⟨⟨memory, fun _ => none, []⟩, fun _ => none⟩

/-- What can happen.  `answer` is what the pool answers if the call asks it. -/
inductive Event
  | allocate (size : UInt64) (answer : Option Nat)
  | reallocate (buffer : Option Nat) (size : UInt64) (answer : Option Nat)
  | free (buffer : Option Nat)
  | write (buffer offset : Nat) (byte : UInt8)   -- by the client
  | elsewhere (memory : Nat → UInt8)             -- by the rest of the machine

/-- What the client takes it for. -/
def Event.operation : Event → Heap.Operation Nat UInt8
  | .allocate size _ => .allocate size.toNat
  | .reallocate buffer size _ => .reallocate buffer size.toNat
  | .free buffer => .free buffer
  | .write buffer offset byte => .write buffer offset byte
  | .elsewhere _ => .pause

/-- What the machine does, and the pointer that a call returns. -/
def perform (s : Machine) : Event → Option Nat × Machine
  | .allocate size answer => uefiWolfAllocate answer size s
  | .reallocate buffer size answer => uefiWolfReallocate answer buffer size s
  | .free buffer => (none, uefiWolfFree buffer s)
  | .write buffer offset byte => (none, s.setBytes (buffer + offset) [byte])
  | .elsewhere memory => (none, { s with memory := memory })

/-- The blocks that the client holds after an operation. -/
def held (live : Nat → Option Nat) (op : Heap.Operation Nat UInt8) (result : Option Nat) :
    Nat → Option Nat :=
  let kept := fun p => if p ∈ op.releases result then none else live p
  match op.requested, result with
  | some size, some q => Function.update kept q (some size)
  | _, _ => kept

namespace World

/-- The pointer that the client is given. -/
def result (w : World) (e : Event) : Option Nat := (perform w.machine e).1

def step (w : World) (e : Event) : World where
  machine := (perform w.machine e).2
  live := held w.live e.operation (w.result e)

def run : World → List Event → World
  | w, [] => w
  | w, e :: rest => (w.step e).run rest

/-- The operations of a run with their answers. -/
def trace : World → List Event → List (Heap.Operation Nat UInt8 × Option Nat)
  | _, [] => []
  | w, e :: rest => (e.operation, w.result e) :: (w.step e).trace rest

end World

/-- `AllocatePool` answers with `NULL`, or a block apart from all that are granted. -/
def Fresh (s : Machine) (length : Nat) (answer : Option Nat) : Prop :=
  ∀ address, answer = some address → ∀ a n, s.granted a = some n →
    Region.Apart ⟨address, length⟩ ⟨a, n⟩

/-- `NULL`, or a block that the client holds. -/
def NullOrLive (w : World) (buffer : Option Nat) : Prop :=
  ∀ p, buffer = some p → w.live p ≠ none

/-- What the client, the pool and the rest of the machine keep to. -/
def Legal (w : World) : Event → Prop
  | .allocate size answer => Fresh w.machine (16 + size.toNat) answer
  | .reallocate buffer size answer =>
      NullOrLive w buffer ∧ Fresh w.machine (16 + size.toNat) answer
  | .free buffer => NullOrLive w buffer
  | .write buffer offset _ => ∃ n, w.live buffer = some n ∧ offset < n
  | .elsewhere memory => ∀ a n, w.machine.granted a = some n →
      Same w.machine.memory memory ⟨a, n⟩

def LegalRun : World → List Event → Prop
  | _, [] => True
  | w, e :: rest => Legal w e ∧ LegalRun (w.step e) rest

/-- What an operation asks of the pool.  It gives back just the blocks that it releases,
and asks for no length that wraps.  It fails only where the length would wrap, or the pool
refuses. -/
structure Asks (s : Machine) (op : Heap.Operation Nat UInt8) (result : Option Nat)
    (made : List PoolCall) : Prop where
  frees : made.filterMap PoolCall.freed = (op.releases result).map headerOf
  owned : ∀ a ∈ made.filterMap PoolCall.freed, s.granted a ≠ none
  fits : ∀ n answer, PoolCall.allocate n answer ∈ made →
    ∃ size, op.requested = some size ∧ n.toNat = 16 + size
  refused : ∀ size, op.requested = some size → result = none →
    0x10000000000000000 ≤ 16 + size ∨ ∃ n, PoolCall.allocate n none ∈ made

/-- The operation is one of a heap, and when it fails the machine is what it was. -/
structure Answers (w : World) (op : Heap.Operation Nat UInt8) (result : Option Nat)
    (w' : World) : Prop where
  step : w.view.Step op result w'.view
  calls : ∃ made, w'.machine.calls = w.machine.calls ++ made ∧ Asks w.machine op result made
  failed : op.requested.isSome → result = none →
    w'.machine.memory = w.machine.memory ∧ w'.machine.granted = w.machine.granted

/-! ## The invariant -/

/-- Block `p` of `n` bytes has its header, and the pool has granted both as one. -/
structure Headed (s : Machine) (p n : Nat) : Prop where
  above : 16 ≤ p
  granted : s.granted (headerOf p) = some (16 + n)
  signature : s.signature (headerOf p) = wolfAllocSignature
  size : (s.size (headerOf p)).toNat = n

structure Sound (w : World) : Prop where
  headed : ∀ p n, w.live p = some n → Headed w.machine p n
  owned : ∀ a k, w.machine.granted a = some k → ∃ n, w.live (bufferOf a) = some n ∧ k = 16 + n
  apart : ∀ a k b l, w.machine.granted a = some k → w.machine.granted b = some l → a ≠ b →
    Region.Apart ⟨a, k⟩ ⟨b, l⟩

/-- The header of a buffer is where it was made. -/
theorem headerOf_bufferOf (header : Nat) : headerOf (bufferOf header) = header := by
  simp [headerOf, bufferOf]

/-- A header is read from its own sixteen bytes. -/
theorem Headed.same {s s' : Machine} {p n : Nat} (h : Headed s p n)
    (hsame : Same s.memory s'.memory ⟨headerOf p, 16⟩)
    (hgranted : s'.granted (headerOf p) = s.granted (headerOf p)) : Headed s' p n where
  above := h.above
  granted := by rw [hgranted, h.granted]
  signature := by
    have hword := readWord_same (hsame.covers (q := ⟨headerOf p, 8⟩) ⟨by simp, by simp⟩)
    calc s'.signature (headerOf p) = s.signature (headerOf p) := hword
      _ = wolfAllocSignature := h.signature
  size := by
    have hword := readWord_same (hsame.covers (q := ⟨headerOf p + 8, 8⟩) ⟨by simp, by simp⟩)
    calc (s'.size (headerOf p)).toNat = (s.size (headerOf p)).toNat := congrArg _ hword
      _ = n := h.size

/-- At the start nothing is held. -/
theorem sound_start (memory : Nat → UInt8) : Sound (World.start memory) where
  headed := by
    intro p n hp
    exact nomatch hp
  owned := by
    intro a k ha
    exact nomatch ha
  apart := by
    intro a k b l ha
    exact nomatch ha

section Blocks

variable {w : World} {p q n k : Nat}

/-- The block of `p` with its header. -/
def whole (p n : Nat) : Region := ⟨headerOf p, 16 + n⟩

/-- A block covers its header. -/
theorem whole_covers_header (p n : Nat) : (whole p n).Covers ⟨headerOf p, 16⟩ :=
  ⟨by simp [whole], by simp [whole]⟩

theorem whole_covers_block (hp : 16 ≤ p) : (whole p n).Covers ⟨p, n⟩ := by
  unfold whole headerOf Region.Covers
  simp only
  omega

/-- Two blocks do not overlap, nor do their headers. -/
theorem Sound.blocks_apart (h : Sound w) (hp : w.live p = some n) (hq : w.live q = some k)
    (hne : p ≠ q) : (whole p n).Apart (whole q k) := by
  have hpAbove := (h.headed p n hp).above
  have hqAbove := (h.headed q k hq).above
  apply h.apart
  · exact (h.headed p n hp).granted
  · exact (h.headed q k hq).granted
  · unfold headerOf
    omega

/-- What the client sees of a block is what its bytes are. -/
theorem view_same {w w' : World} (hlive : w'.live p = w.live p)
    (hsame : ∀ n, w.live p = some n → Same w.machine.memory w'.machine.memory ⟨p, n⟩) :
    w'.view p = w.view p := by
  unfold World.view
  rw [hlive]
  cases hp : w.live p with
  | none => rfl
  | some n => rw [Option.map_some, Option.map_some, load_same (hsame n hp)]

/-- A header is apart from the bytes of any block. -/
theorem Sound.header_apart (h : Sound w) (hp : w.live p = some n) (hq : w.live q = some k) :
    Region.Apart ⟨headerOf p, 16⟩ ⟨q, k⟩ := by
  have hqAbove := (h.headed q k hq).above
  by_cases hpq : p = q
  · subst hpq
    left
    unfold headerOf
    simp only
    omega
  · have hwholes := h.blocks_apart hp hq hpq
    have hheader := (hwholes.symm.covers (whole_covers_header p n)).symm
    exact hheader.covers (whole_covers_block hqAbove)

/-! ## A block appears, is written and is given back -/

variable {header : Nat} {size : UInt64} {bytes : List UInt8}

/-- A new block of `size` bytes, with its header at `header`. -/
def World.grow (w : World) (header : Nat) (size : UInt64) : World where
  machine := w.machine.headed header size
  live := Function.update w.live (bufferOf header) (some size.toNat)

/-- Bytes are written to a block. -/
def World.fill (w : World) (a : Nat) (bytes : List UInt8) : World where
  machine := w.machine.setBytes a bytes
  live := w.live

/-- Block `p` is given back. -/
def World.drop (w : World) (p : Nat) : World where
  machine := w.machine.released (headerOf p)
  live := Function.update w.live p none

/-- What the pool grants is apart from the blocks that are live. -/
theorem Sound.fresh_apart (h : Sound w) {length : Nat}
    (hfresh : Fresh w.machine length (some header)) (hp : w.live p = some n) :
    (whole p n).Apart ⟨header, length⟩ := by
  have hgranted := (h.headed p n hp).granted
  exact (hfresh header rfl (headerOf p) (16 + n) hgranted).symm

/-- A fresh block has a header of its own. -/
theorem Sound.fresh_ne (h : Sound w) (hfresh : Fresh w.machine (16 + k) (some header))
    (hp : w.live p = some n) : headerOf p ≠ header := by
  have happart := h.fresh_apart hfresh hp
  unfold whole Region.Apart at happart
  simp only at happart
  omega

/-- The block that appears was not live. -/
theorem Sound.fresh_not_live (h : Sound w) (hfresh : Fresh w.machine (16 + k) (some header)) :
    w.live (bufferOf header) = none := by
  cases hlive : w.live (bufferOf header) with
  | none => rfl
  | some n => exact absurd (headerOf_bufferOf header) (h.fresh_ne hfresh hlive)

theorem Sound.ne_fresh (h : Sound w) (hfresh : Fresh w.machine (16 + k) (some header))
    (hp : w.live p = some n) : p ≠ bufferOf header := by
  intro hpq
  rw [hpq, h.fresh_not_live hfresh] at hp
  exact nomatch hp

/-- A header is written before the new block, apart from what is live. -/
theorem Sound.headed_same (h : Sound w) (hp : w.live p = some n)
    (hfresh : Fresh w.machine (16 + size.toNat) (some header)) :
    Same w.machine.memory (w.machine.headed header size).memory (whole p n) := by
  have hnew : Region.Covers ⟨header, 16 + size.toNat⟩ ⟨header, 16⟩ := ⟨by simp, by simp⟩
  have happart := (h.fresh_apart hfresh hp).covers hnew
  exact (w.machine.headed_onlyIn header size).same happart

/-- To give a block back leaves the other blocks as they are. -/
theorem Sound.released_same (h : Sound w) (hp : w.live p = some n) (hq : w.live q = some k)
    (hne : q ≠ p) :
    Same w.machine.memory (w.machine.released (headerOf p)).memory (whole q k) := by
  have happart := (h.blocks_apart hq hp hne).covers (whole_covers_header p n)
  exact (w.machine.released_onlyIn (headerOf p)).same happart

/-- A fresh block keeps the machine sound. -/
theorem Sound.grow (h : Sound w) (hfits : 16 + size.toNat < 0x10000000000000000)
    (hfresh : Fresh w.machine (16 + size.toNat) (some header)) : Sound (w.grow header size) := by
  have hlength := toNat_sizeofHeader_add hfits
  constructor
  · intro r m hr
    unfold World.grow at hr
    by_cases hrq : r = bufferOf header
    · subst hrq
      have hm : size.toNat = m := by simpa using hr
      subst hm
      constructor
      · exact Nat.le_add_left 16 header
      · rw [headerOf_bufferOf]
        calc (w.machine.headed header size).granted header
            = some (sizeofHeader + size).toNat := Function.update_self _ _ _
          _ = some (16 + size.toNat) := by rw [hlength]
      · rw [headerOf_bufferOf]
        exact Machine.signature_headed _ _ _
      · rw [headerOf_bufferOf]
        exact congrArg _ (Machine.size_headed _ _ _)
    · have hlive : w.live r = some m := by simpa [hrq] using hr
      have hsame := h.headed_same hlive hfresh
      apply (h.headed r m hlive).same (hsame.covers (whole_covers_header r m))
      exact Function.update_of_ne (h.fresh_ne hfresh hlive) _ _
  · intro a l ha
    have ha' : Function.update w.machine.granted header (some (sizeofHeader + size).toNat) a
        = some l := ha
    by_cases hah : a = header
    · subst hah
      have hl : (sizeofHeader + size).toNat = l := by simpa using ha'
      exact ⟨size.toNat, Function.update_self _ _ _, by rw [← hl, hlength]⟩
    · rw [Function.update_of_ne hah] at ha'
      obtain ⟨m, hm, hl⟩ := h.owned a l ha'
      have hne : bufferOf a ≠ bufferOf header := fun heq => hah (Nat.add_right_cancel heq)
      exact ⟨m, (Function.update_of_ne hne _ _).trans hm, hl⟩
  · intro a l b m ha hb hne
    have ha' : Function.update w.machine.granted header (some (sizeofHeader + size).toNat) a
        = some l := ha
    have hb' : Function.update w.machine.granted header (some (sizeofHeader + size).toNat) b
        = some m := hb
    rw [hlength] at ha' hb'
    by_cases hah : a = header
    · subst hah
      rw [Function.update_of_ne hne.symm] at hb'
      rw [Function.update_self] at ha'
      rw [← Option.some.inj ha']
      exact hfresh a rfl b m hb'
    · rw [Function.update_of_ne hah] at ha'
      by_cases hbh : b = header
      · subst hbh
        rw [Function.update_self] at hb'
        rw [← Option.some.inj hb']
        exact (hfresh b rfl a l ha').symm
      · rw [Function.update_of_ne hbh] at hb'
        exact h.apart a l b m ha' hb' hne

/-- So does one that is given back. -/
theorem Sound.drop (h : Sound w) (hp : w.live p = some n) : Sound (w.drop p) := by
  have hpAbove := (h.headed p n hp).above
  constructor
  · intro r m hr
    unfold World.drop at hr
    by_cases hrp : r = p
    · subst hrp
      simp at hr
    · have hlive : w.live r = some m := by simpa [hrp] using hr
      have hrAbove := (h.headed r m hlive).above
      have hsame := h.released_same hp hlive hrp
      apply (h.headed r m hlive).same (hsame.covers (whole_covers_header r m))
      have hne : headerOf r ≠ headerOf p := by
        unfold headerOf
        omega
      exact Function.update_of_ne hne _ _
  · intro a l ha
    have ha' : Function.update w.machine.granted (headerOf p) none a = some l := ha
    by_cases hap : a = headerOf p
    · subst hap
      simp at ha'
    · rw [Function.update_of_ne hap] at ha'
      obtain ⟨m, hm, hl⟩ := h.owned a l ha'
      have hne : bufferOf a ≠ p := by
        intro heq
        exact hap (by rw [← heq, headerOf_bufferOf])
      exact ⟨m, (Function.update_of_ne hne _ _).trans hm, hl⟩
  · intro a l b m ha hb hne
    have hkept : ∀ c j, (w.drop p).machine.granted c = some j → w.machine.granted c = some j := by
      intro c j hc
      have hc' : Function.update w.machine.granted (headerOf p) none c = some j := hc
      by_cases hcp : c = headerOf p
      · subst hcp
        simp at hc'
      · rwa [Function.update_of_ne hcp] at hc'
    exact h.apart a l b m (hkept a l ha) (hkept b m hb) hne

/-- The invariant does not read the blocks. -/
theorem Sound.fill (h : Sound w) {a : Nat} (hp : w.live p = some n)
    (hin : Region.Covers ⟨p, n⟩ ⟨a, bytes.length⟩) : Sound (w.fill a bytes) where
  headed := by
    intro r m hr
    have hsame := (store_onlyIn w.machine.memory a bytes).same
      ((h.header_apart hr hp).covers hin)
    exact (h.headed r m hr).same hsame rfl
  owned := h.owned
  apart := h.apart

/-- A fresh block comes into view with what its memory holds. -/
theorem view_grow (h : Sound w) (hfresh : Fresh w.machine (16 + size.toNat) (some header)) :
    (w.grow header size).view = w.view.put (bufferOf header)
      (load (w.machine.headed header size).memory (bufferOf header) size.toNat) := by
  funext r
  by_cases hr : r = bufferOf header
  · subst hr
    simp [World.view, World.grow, Heap.put]
  · rw [Heap.put_other hr]
    apply view_same (Function.update_of_ne hr _ _)
    intro m hm
    have hrAbove := (h.headed r m hm).above
    exact (h.headed_same hm hfresh).covers (whole_covers_block hrAbove)

/-- A block that is given back goes out of view. -/
theorem view_drop (h : Sound w) (hp : w.live p = some n) :
    (w.drop p).view = w.view.remove p := by
  funext r
  by_cases hr : r = p
  · subst hr
    simp [World.view, World.drop, Heap.remove]
  · rw [Heap.remove_other hr]
    apply view_same (Function.update_of_ne hr _ _)
    intro m hm
    have hrAbove := (h.headed r m hm).above
    exact (h.released_same hp hm hr).covers (whole_covers_block hrAbove)

/-- Bytes stored in a block are seen in it. -/
theorem view_fill (h : Sound w) {a : Nat} (hp : w.live p = some n)
    (hin : Region.Covers ⟨p, n⟩ ⟨a, bytes.length⟩) :
    (w.fill a bytes).view = w.view.put p (load (store w.machine.memory a bytes) p n) := by
  have hpAbove := (h.headed p n hp).above
  funext r
  by_cases hr : r = p
  · subst hr
    simp [World.view, World.fill, Machine.setBytes, Heap.put, hp]
  · rw [Heap.put_other hr]
    have hlive : (w.fill a bytes).live r = w.live r := rfl
    apply view_same hlive
    intro m hm
    have hrAbove := (h.headed r m hm).above
    have happart := ((h.blocks_apart hm hp hr).covers (whole_covers_block hpAbove)).covers hin
    exact ((store_onlyIn w.machine.memory a bytes).same happart).covers
      (whole_covers_block hrAbove)

end Blocks

end UefiCompat

end WolfSshUefi
