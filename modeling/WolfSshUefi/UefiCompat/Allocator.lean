import WolfSshUefi.Library.Memory

/-!
# The allocator of wolfSSL

`UefiCompatAllocate`, `UefiCompatFree` and `UefiCompatReallocate`, and the wrappers that
wolfSSL calls.  Each block comes from the pool with a header before it, which holds a
signature and the size that was asked for.

Pointers are addresses in a byte memory, and `NULL` is `none`.  What `AllocatePool`
would answer is a parameter of each call, which asks it once at most.
-/

namespace WolfSshUefi

namespace UefiCompat

open Memory

/-- `MAX_UINTN`, on the 64-bit machines that the package supports. -/
def maxUintn : UInt64 := 0xffffffffffffffff

/-- `SIGNATURE_16` -/
def signature16 (a b : Char) : UInt64 := UInt64.ofNat a.toNat ||| (UInt64.ofNat b.toNat <<< 8)

/-- `SIGNATURE_32` -/
def signature32 (a b c d : Char) : UInt64 := signature16 a b ||| (signature16 c d <<< 16)

/-- `SIGNATURE_64` -/
def signature64 (a b c d e f g h : Char) : UInt64 :=
  signature32 a b c d ||| (signature32 e f g h <<< 32)

/-- `WOLF_ALLOC_SIGNATURE` -/
def wolfAllocSignature : UInt64 := signature64 'W' 'S' 'S' 'H' 'A' 'L' 'L' 'C'

/-- `sizeof (WOLF_ALLOC_HEADER)`: `Signature` and, 8 bytes on, `Size`. -/
def sizeofHeader : UInt64 := 16

/-- `Header + 1` -/
def bufferOf (header : Nat) : Nat := header + 16

/-- `(WOLF_ALLOC_HEADER *)Buffer - 1` -/
def headerOf (buffer : Nat) : Nat := buffer - 16

/-- The calls that reach the pool. -/
inductive PoolCall
  | allocate (size : UInt64) (answer : Option Nat)  -- `AllocatePool`
  | free (address : Nat)                            -- `FreePool`
  deriving DecidableEq, Repr

/-- The address that a call gives back. -/
def PoolCall.freed : PoolCall → Option Nat
  | .allocate _ _ => none
  | .free address => some address

/-- The machine: its memory, the lengths of the blocks that the pool has granted, and
the calls that it has received. -/
structure Machine where
  memory : Nat → UInt8
  granted : Nat → Option Nat
  calls : List PoolCall

namespace Machine

/-- `AllocatePool` -/
def allocatePool (s : Machine) (size : UInt64) (answer : Option Nat) : Machine where
  memory := s.memory
  granted := match answer with
    | none => s.granted
    | some address => Function.update s.granted address (some size.toNat)
  calls := s.calls ++ [.allocate size answer]

/-- `FreePool` -/
def freePool (s : Machine) (address : Nat) : Machine where
  memory := s.memory
  granted := Function.update s.granted address none
  calls := s.calls ++ [.free address]

/-- `Header->Signature` -/
def signature (s : Machine) (header : Nat) : UInt64 := readWord s.memory header

/-- `Header->Size` -/
def size (s : Machine) (header : Nat) : UInt64 := readWord s.memory (header + 8)

/-- An assignment to `Header->Signature`. -/
def setSignature (s : Machine) (header : Nat) (value : UInt64) : Machine :=
  { s with memory := writeWord s.memory header value }

/-- An assignment to `Header->Size`. -/
def setSize (s : Machine) (header : Nat) (value : UInt64) : Machine :=
  { s with memory := writeWord s.memory (header + 8) value }

/-- Bytes are written from `address` on. -/
def setBytes (s : Machine) (address : Nat) (bytes : List UInt8) : Machine :=
  { s with memory := store s.memory address bytes }

/-- `CopyMem` -/
def copyMem (s : Machine) (destination source length : Nat) : Machine :=
  s.setBytes destination (load s.memory source length)

end Machine

def uefiCompatAllocate (answer : Option Nat) (size : UInt64) (s : Machine) :
    Option Nat × Machine :=
  if size > maxUintn - sizeofHeader then
    (none, s)
  else
    let s := s.allocatePool (sizeofHeader + size) answer
    match answer with
    | none => (none, s)
    | some header => (some (bufferOf header),
        (s.setSignature header wolfAllocSignature).setSize header size)

def uefiCompatFree (buffer : Option Nat) (s : Machine) : Machine :=
  match buffer with
  | none => s
  | some buffer =>
      let header := headerOf buffer
      if s.signature header ≠ wolfAllocSignature then s
      else (s.setSignature header 0).freePool header

def uefiCompatReallocate (answer buffer : Option Nat) (newSize : UInt64) (s : Machine) :
    Option Nat × Machine :=
  match buffer with
  | none => uefiCompatAllocate answer newSize s
  | some old =>
      if newSize = 0 then
        (none, uefiCompatFree (some old) s)
      else
        let oldHeader := headerOf old
        if s.signature oldHeader ≠ wolfAllocSignature then
          (none, s)
        else
          match uefiCompatAllocate answer newSize s with
          | (none, s) => (none, s)
          | (some new, s) =>
              let copySize := min (s.size oldHeader) newSize
              (some new, uefiCompatFree (some old) (s.copyMem new old copySize.toNat))

-- `unsigned long` has the 64 bits of a `UINTN`.
def uefiWolfAllocate (answer : Option Nat) (size : UInt64) (s : Machine) : Option Nat × Machine :=
  uefiCompatAllocate answer size s

def uefiWolfFree (buffer : Option Nat) (s : Machine) : Machine := uefiCompatFree buffer s

def uefiWolfReallocate (answer buffer : Option Nat) (size : UInt64) (s : Machine) :
    Option Nat × Machine :=
  uefiCompatReallocate answer buffer size s

/-! ## What each function does -/

namespace Machine

/-- The machine after a request for `size` bytes that the pool refused. -/
def refused (s : Machine) (size : UInt64) : Machine :=
  s.allocatePool (sizeofHeader + size) none

/-- The machine after a block of `size` bytes was made, with its header at `header`. -/
def headed (s : Machine) (header : Nat) (size : UInt64) : Machine :=
  ((s.allocatePool (sizeofHeader + size) (some header)).setSignature header
    wolfAllocSignature).setSize header size

/-- The machine after the block with its header at `header` was given back. -/
def released (s : Machine) (header : Nat) : Machine := (s.setSignature header 0).freePool header

/-- Writing a header changes the header only. -/
theorem headed_onlyIn (s : Machine) (header : Nat) (size : UInt64) :
    OnlyIn s.memory (s.headed header size).memory ⟨header, 16⟩ := by
  have hfirst := writeWord_onlyIn s.memory header wolfAllocSignature
  have hsecond := writeWord_onlyIn (writeWord s.memory header wolfAllocSignature) (header + 8) size
  have hcovers : Region.Covers ⟨header, 16⟩ ⟨header, 8⟩ := ⟨by simp, by simp⟩
  have hcovers' : Region.Covers ⟨header, 16⟩ ⟨header + 8, 8⟩ := ⟨by simp, by simp⟩
  exact (hfirst.covers hcovers).trans (hsecond.covers hcovers')

/-- A header has the signature. -/
theorem signature_headed (s : Machine) (header : Nat) (size : UInt64) :
    (s.headed header size).signature header = wolfAllocSignature := by
  have hsame := (writeWord_onlyIn (writeWord s.memory header wolfAllocSignature) (header + 8)
    size).same (r := ⟨header, 8⟩) (.inl (by simp))
  calc (s.headed header size).signature header
      = readWord (writeWord s.memory header wolfAllocSignature) header := readWord_same hsame
    _ = wolfAllocSignature := readWord_writeWord _ _ _

theorem size_headed (s : Machine) (header : Nat) (size : UInt64) :
    (s.headed header size).size header = size := readWord_writeWord _ _ _

/-- Releasing a block changes its header only. -/
theorem released_onlyIn (s : Machine) (header : Nat) :
    OnlyIn s.memory (s.released header).memory ⟨header, 16⟩ := by
  have hcovers : Region.Covers ⟨header, 16⟩ ⟨header, 8⟩ := ⟨by simp, by simp⟩
  exact (writeWord_onlyIn s.memory header 0).covers hcovers

end Machine

variable {answer : Option Nat} {size : UInt64} {s : Machine}

/-- A size passes the check exactly when the length with the header is a `UINTN`. -/
theorem size_le_iff (size : UInt64) :
    size ≤ maxUintn - sizeofHeader ↔ 16 + size.toNat < 0x10000000000000000 := by
  rw [UInt64.le_iff_toNat_le]
  have hmax : (maxUintn - sizeofHeader).toNat = 0xffffffffffffffef := by decide
  omega

/-- The length that the pool is asked for does not wrap. -/
theorem toNat_sizeofHeader_add (h : 16 + size.toNat < 0x10000000000000000) :
    (sizeofHeader + size).toNat = 16 + size.toNat := by
  have hheader : sizeofHeader.toNat = 16 := by decide
  rw [UInt64.toNat_add, hheader]
  exact Nat.mod_eq_of_lt h

/-- `MIN` -/
theorem toNat_min (a b : UInt64) : (min a b).toNat = min a.toNat b.toNat := by
  have hmin : min a b = if a ≤ b then a else b := rfl
  rw [hmin, Nat.min_def]
  by_cases hab : a ≤ b
  · rw [if_pos hab, if_pos (UInt64.le_iff_toNat_le.1 hab)]
  · rw [if_neg hab, if_neg (fun hle => hab (UInt64.le_iff_toNat_le.2 hle))]

/-- All that an allocation can do. -/
theorem uefiCompatAllocate_cases (answer : Option Nat) (size : UInt64) (s : Machine) :
    (0x10000000000000000 ≤ 16 + size.toNat ∧ uefiCompatAllocate answer size s = (none, s)) ∨
    (16 + size.toNat < 0x10000000000000000 ∧
      uefiCompatAllocate answer size s = (none, s.refused size)) ∨
    (16 + size.toNat < 0x10000000000000000 ∧ ∃ header, answer = some header ∧
      uefiCompatAllocate answer size s = (some (bufferOf header), s.headed header size)) := by
  by_cases hsize : size ≤ maxUintn - sizeofHeader
  · have hnot : ¬ size > maxUintn - sizeofHeader := UInt64.not_lt.2 hsize
    cases answer with
    | none =>
        refine .inr (.inl ⟨(size_le_iff size).1 hsize, ?_⟩)
        rw [uefiCompatAllocate, if_neg hnot, Machine.refused]
    | some header =>
        refine .inr (.inr ⟨(size_le_iff size).1 hsize, header, rfl, ?_⟩)
        rw [uefiCompatAllocate, if_neg hnot, Machine.headed]
  · refine .inl ⟨Nat.le_of_not_lt fun hlt => hsize ((size_le_iff size).2 hlt), ?_⟩
    rw [uefiCompatAllocate, if_pos (UInt64.not_le.1 hsize)]

/-- A signed block is freed. -/
theorem uefiCompatFree_signed {buffer : Nat}
    (h : s.signature (headerOf buffer) = wolfAllocSignature) :
    uefiCompatFree (some buffer) s = s.released (headerOf buffer) := by
  simp [uefiCompatFree, h, Machine.released]

section Reallocate

variable {buffer : Nat} {newSize : UInt64} {s' : Machine}

/-- Reallocating to size zero frees. -/
theorem uefiCompatReallocate_zero
    (h : s.signature (headerOf buffer) = wolfAllocSignature) :
    uefiCompatReallocate answer (some buffer) 0 s = (none, s.released (headerOf buffer)) := by
  rw [uefiCompatReallocate, if_pos rfl, uefiCompatFree_signed h]

/-- A reallocation that fails changes nothing else. -/
theorem uefiCompatReallocate_failed (h : s.signature (headerOf buffer) = wolfAllocSignature)
    (hsize : newSize ≠ 0) (hfailed : uefiCompatAllocate answer newSize s = (none, s')) :
    uefiCompatReallocate answer (some buffer) newSize s = (none, s') := by
  simp [uefiCompatReallocate, hsize, h, hfailed]

/-- One that succeeds copies what fits, and frees the old block. -/
theorem uefiCompatReallocate_moved {new : Nat}
    (h : s.signature (headerOf buffer) = wolfAllocSignature) (hsize : newSize ≠ 0)
    (hmade : uefiCompatAllocate answer newSize s = (some new, s')) :
    uefiCompatReallocate answer (some buffer) newSize s = (some new, uefiCompatFree (some buffer)
      (s'.copyMem new buffer (min (s'.size (headerOf buffer)) newSize).toNat)) := by
  simp [uefiCompatReallocate, hsize, h, hmade]

end Reallocate

end UefiCompat

end WolfSshUefi
