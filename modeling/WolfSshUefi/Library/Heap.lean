import Mathlib.Logic.Function.Basic
import Mathlib.Data.List.Basic

/-!
# A heap of blocks

What a client of malloc, realloc and free may rely on, said without addresses, headers
or a pool: a heap gives every live block its cells, and `Step` says how each call may
change it.  An allocation may always fail; one that succeeds answers with a block that
was not live, and its cells are the allocator's choice.

A run is a list of calls with their answers.  A block that no call of a run names holds
at the end what it held at the start.
-/

/-- What every live block holds. -/
abbrev Heap (κ β : Type) := κ → Option (List β)

namespace Heap

variable {κ β : Type} [DecidableEq κ]

/-- What a client does, and `pause` when somebody else moves. -/
inductive Operation (κ β : Type)
  | allocate (size : Nat)
  | reallocate (block : Option κ) (size : Nat)
  | free (block : Option κ)
  | write (block : κ) (offset : Nat) (cell : β)
  | pause

namespace Operation

/-- The block that the client hands over or writes to. -/
def touches : Operation κ β → Option κ
  | .allocate _ => none
  | .reallocate block _ => block
  | .free block => block
  | .write block _ _ => some block
  | .pause => none

/-- The size of the block that is asked for, if one is. -/
def requested : Operation κ β → Option Nat
  | .allocate size => some size
  | .reallocate none size => some size
  | .reallocate (some _) size => if size = 0 then none else some size
  | _ => none

/-- The blocks that the operation gives back, when it answers `result`. -/
def releases : Operation κ β → Option κ → List κ
  | .reallocate (some p) size, result => if size = 0 ∨ result.isSome then [p] else []
  | .free (some p), _ => [p]
  | _, _ => []

end Operation

/-- The heap with `cells` in block `p`. -/
def put (h : Heap κ β) (p : κ) (cells : List β) : Heap κ β := Function.update h p (some cells)

/-- The heap without block `p`. -/
def remove (h : Heap κ β) (p : κ) : Heap κ β := Function.update h p none

/-- An allocation of `size` cells: it fails and changes nothing, or a block that was not
live appears. -/
def Allocates (h : Heap κ β) (size : Nat) (result : Option κ) (h' : Heap κ β) : Prop :=
  match result with
  | none => h' = h
  | some q => h q = none ∧ ∃ cells : List β, cells.length = size ∧ h' = h.put q cells

/-- A reallocation of live block `p` to `size > 0` cells: it fails and changes nothing, or
the cells that fit move to a block that was not live. -/
def Moves (h : Heap κ β) (p : κ) (size : Nat) (result : Option κ) (h' : Heap κ β) : Prop :=
  match result with
  | none => h' = h
  | some q => h q = none ∧ ∃ old cells : List β, h p = some old ∧ cells.length = size ∧
      cells.take (min old.length size) = old.take (min old.length size) ∧
      h' = (h.remove p).put q cells

/-- How an operation with its answer may change the heap. -/
def Step (h : Heap κ β) : Operation κ β → Option κ → Heap κ β → Prop
  | .allocate size, result, h' => Allocates h size result h'
  | .reallocate none size, result, h' => Allocates h size result h'
  | .reallocate (some p) size, result, h' =>
      if size = 0 then result = none ∧ h' = h.remove p else Moves h p size result h'
  | .free none, result, h' => result = none ∧ h' = h
  | .free (some p), result, h' => result = none ∧ h' = h.remove p
  | .write p offset cell, result, h' =>
      result = none ∧ ∃ old : List β, h p = some old ∧ h' = h.put p (old.set offset cell)
  | .pause, result, h' => result = none ∧ h' = h

/-- The operations, with their answers, lead from one heap to the other. -/
inductive Run : Heap κ β → List (Operation κ β × Option κ) → Heap κ β → Prop
  | nil (h : Heap κ β) : Run h [] h
  | cons {h h' h'' : Heap κ β} {op : Operation κ β} {result : Option κ}
      {rest : List (Operation κ β × Option κ)} (first : Step h op result h')
      (next : Run h' rest h'') : Run h ((op, result) :: rest) h''

variable {h h' : Heap κ β} {op : Operation κ β} {result : Option κ} {p q : κ} {cells : List β}

/-- Other blocks stay as they are. -/
theorem put_other (hne : p ≠ q) : h.put q cells p = h p := Function.update_of_ne hne _ _

/-- Here as well. -/
theorem remove_other (hne : p ≠ q) : h.remove q p = h p := Function.update_of_ne hne _ _

/-- Filling a block again and removing another one commute. -/
theorem remove_put_put {cells' : List β} (hne : p ≠ q) :
    ((h.put q cells).put q cells').remove p = (h.remove p).put q cells' := by
  unfold put remove
  rw [Function.update_idem, Function.update_comm hne]

omit [DecidableEq κ] in
/-- A live block is none of the blocks that were not. -/
theorem ne_of_live (hp : h p = some cells) (hq : h q = none) : p ≠ q := by
  intro hpq
  subst hpq
  rw [hp] at hq
  exact nomatch hq

/-- An allocation keeps all blocks. -/
theorem Allocates.kept {size : Nat} (hs : Allocates h size result h') (hp : h p = some cells) :
    h' p = some cells := by
  cases result with
  | none => rw [hs, hp]
  | some q =>
      obtain ⟨hq, fresh, hlength, hh⟩ := hs
      rw [hh, put_other (ne_of_live hp hq), hp]

/-- A move keeps the other blocks. -/
theorem Moves.kept {size : Nat} (hs : Moves h q size result h') (hp : h p = some cells)
    (hne : p ≠ q) : h' p = some cells := by
  cases result with
  | none => rw [hs, hp]
  | some r =>
      obtain ⟨hr, old, fresh, hold, hlength, htake, hh⟩ := hs
      rw [hh, put_other (ne_of_live hp hr), remove_other hne, hp]

/-- A step keeps every live block that it does not touch. -/
theorem Step.kept (hs : Step h op result h') (hp : h p = some cells)
    (htouches : op.touches ≠ some p) : h' p = some cells := by
  cases op with
  | allocate size => exact Allocates.kept hs hp
  | reallocate block size =>
      cases block with
      | none => exact Allocates.kept hs hp
      | some q =>
          have hne : p ≠ q := fun hpq => htouches (by rw [hpq]; rfl)
          rw [Step] at hs
          split at hs
          · rw [hs.2, remove_other hne, hp]
          · exact Moves.kept hs hp hne
  | free block =>
      cases block with
      | none => rw [hs.2, hp]
      | some q =>
          have hne : p ≠ q := fun hpq => htouches (by rw [hpq]; rfl)
          rw [hs.2, remove_other hne, hp]
  | write q offset cell =>
      have hne : p ≠ q := fun hpq => htouches (by rw [hpq]; rfl)
      obtain ⟨hnone, old, hold, hh⟩ := hs
      rw [hh, put_other hne, hp]
  | pause => rw [hs.2, hp]

/-- A run keeps every live block that none of its operations touches. -/
theorem Run.kept {ops : List (Operation κ β × Option κ)} (hrun : Run h ops h')
    (hp : h p = some cells) (htouches : ∀ op ∈ ops, op.1.touches ≠ some p) :
    h' p = some cells := by
  induction hrun with
  | nil h => exact hp
  | cons first next ih =>
      have hmid := first.kept hp (htouches _ List.mem_cons_self)
      exact ih hmid fun op hop => htouches op (List.mem_cons_of_mem _ hop)

end Heap
