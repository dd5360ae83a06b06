import Mathlib.Logic.Function.Basic
import Mathlib.Data.List.Basic

/-!
# Byte memory

A memory gives every address one cell.  Lists of cells are loaded from a region and
stored over one, and what a store leaves alone is said by regions: a store changes only
its own region, and what is loaded from a region that lies apart stays what it was.

Numbers are kept as little-endian bytes.  The last section reads back a number of
eight bytes.
-/

namespace Memory

variable {β : Type}

/-- The addresses from `start` on, `length` of them. -/
structure Region where
  start : Nat
  length : Nat

namespace Region

def Contains (r : Region) (a : Nat) : Prop := r.start ≤ a ∧ a < r.start + r.length

/-- One region ends before the other begins. -/
def Apart (r q : Region) : Prop := r.start + r.length ≤ q.start ∨ q.start + q.length ≤ r.start

/-- `q` lies inside `r`. -/
def Covers (r q : Region) : Prop := r.start ≤ q.start ∧ q.start + q.length ≤ r.start + r.length

variable {r q p : Region} {a : Nat}

/-- Being apart is mutual. -/
theorem Apart.symm (h : r.Apart q) : q.Apart r := Or.symm h

/-- Regions that are apart share no place. -/
theorem Apart.not_contains (h : r.Apart q) (ha : r.Contains a) : ¬ q.Contains a := by
  unfold Apart at h
  unfold Contains at *
  omega

/-- A part of a region is apart from what the region is apart from. -/
theorem Apart.covers (h : r.Apart q) (hp : q.Covers p) : r.Apart p := by
  unfold Apart Covers at *
  omega

/-- What covers a region contains its places. -/
theorem Covers.contains (h : r.Covers q) (ha : q.Contains a) : r.Contains a := by
  unfold Covers at h
  unfold Contains at *
  omega

end Region

/-- The cells of region `r` are the same in both memories. -/
def Same (m m' : Nat → β) (r : Region) : Prop := ∀ a, r.Contains a → m' a = m a

/-- Only cells of region `r` may differ between the memories. -/
def OnlyIn (m m' : Nat → β) (r : Region) : Prop := ∀ a, ¬ r.Contains a → m' a = m a

variable {m m' m'' : Nat → β} {r q : Region}

/-- Twice the same. -/
theorem Same.trans (first : Same m m' r) (second : Same m' m'' r) : Same m m'' r := by
  intro a ha
  rw [second a ha, first a ha]

/-- The same on a region is the same on its parts. -/
theorem Same.covers (h : Same m m' r) (hq : r.Covers q) : Same m m' q := by
  intro a ha
  exact h a (hq.contains ha)

/-- Two changes within a region. -/
theorem OnlyIn.trans (first : OnlyIn m m' r) (second : OnlyIn m' m'' r) : OnlyIn m m'' r := by
  intro a ha
  rw [second a ha, first a ha]

/-- A change within a part is one within the region. -/
theorem OnlyIn.covers (h : OnlyIn m m' q) (hq : r.Covers q) : OnlyIn m m' r := by
  intro a ha
  exact h a (fun hqa => ha (hq.contains hqa))

/-- The frame rule: what lies apart from the changes is the same. -/
theorem OnlyIn.same (h : OnlyIn m m' q) (hr : r.Apart q) : Same m m' r := by
  intro a ha
  exact h a (hr.not_contains ha)

/-- The `n` cells from `a` on. -/
def load (m : Nat → β) (a n : Nat) : List β := (List.range n).map fun i => m (a + i)

/-- Write the cells of `cells` from `a` on. -/
def store (m : Nat → β) (a : Nat) (cells : List β) : Nat → β := fun x =>
  if a ≤ x then (cells[x - a]?).getD (m x) else m x

/-- A load has the length asked for. -/
@[simp] theorem length_load (m : Nat → β) (a n : Nat) : (load m a n).length = n := by
  simp [load]

/-- Each of its cells is read in its place. -/
@[simp] theorem getElem_load (m : Nat → β) (a n i : Nat) (h : i < (load m a n).length) :
    (load m a n)[i] = m (a + i) := by
  simp [load]

/-- Where nothing has changed, a load gives the same. -/
theorem load_same (h : Same m m' ⟨a, n⟩) : load m' a n = load m a n := by
  unfold load
  apply List.map_congr_left
  intro i hi
  have hlt : i < n := List.mem_range.1 hi
  exact h (a + i) ⟨Nat.le_add_right a i, Nat.add_lt_add_left hlt a⟩

/-- The first cells of a load. -/
theorem take_load (m : Nat → β) (a n k : Nat) : (load m a n).take k = load m a (min k n) := by
  unfold load
  rw [← List.map_take, List.take_range]

/-- The first cell, and the others. -/
theorem load_succ (m : Nat → β) (a n : Nat) :
    load m a (n + 1) = m a :: load m (a + 1) n := by
  unfold load
  rw [List.range_succ_eq_map, List.map_cons, List.map_map]
  refine congrArg (m a :: ·) (List.map_congr_left fun i _ => ?_)
  show m (a + (i + 1)) = m (a + 1 + i)
  rw [Nat.add_assoc, Nat.add_comm 1 i]

/-- A store changes its region only. -/
theorem store_onlyIn (m : Nat → β) (a : Nat) (cells : List β) :
    OnlyIn m (store m a cells) ⟨a, cells.length⟩ := by
  intro x hx
  unfold store
  split
  · rename_i hle
    have hout : cells.length ≤ x - a := by
      unfold Region.Contains at hx
      simp only at hx
      omega
    rw [List.getElem?_eq_none hout, Option.getD_none]
  · rfl

/-- A stored cell is where it was put. -/
theorem store_at (m : Nat → β) (a i : Nat) (cells : List β) (h : i < cells.length) :
    store m a cells (a + i) = cells[i] := by
  simp [store, h]

/-- What was stored is what is loaded. -/
theorem load_store (m : Nat → β) (a : Nat) (cells : List β) :
    load (store m a cells) a cells.length = cells := by
  apply List.ext_getElem
  · simp
  · intro i hi hi'
    rw [getElem_load, store_at m a i cells hi']

/-- Storing nothing. -/
@[simp] theorem store_nil (m : Nat → β) (a : Nat) : store m a [] = m := by
  funext x
  simp [store]

/-- What is stored piece by piece is stored as a whole. -/
theorem store_store (m : Nat → β) (a : Nat) (cells more : List β) :
    store (store m a cells) (a + cells.length) more = store m a (cells ++ more) := by
  funext x
  unfold store
  by_cases hlow : a + cells.length ≤ x
  · have hle : a ≤ x := by omega
    have hout : cells.length ≤ x - a := by omega
    rw [if_pos hlow, if_pos hle, if_pos hle, List.getElem?_append_right hout,
      List.getElem?_eq_none hout, Option.getD_none, Nat.sub_sub]
  · rw [if_neg hlow]
    by_cases hle : a ≤ x
    · have hin : x - a < cells.length := by omega
      rw [if_pos hle, if_pos hle, List.getElem?_append_left hin]
    · rw [if_neg hle, if_neg hle]

/-- Storing one cell inside a region sets that cell of what is loaded from it. -/
theorem load_store_cell (m : Nat → β) (a n i : Nat) (b : β) :
    load (store m (a + i) [b]) a n = (load m a n).set i b := by
  apply List.ext_getElem
  · simp
  · intro j hj hj'
    rw [getElem_load, List.getElem_set]
    by_cases hij : i = j
    · subst hij
      have hat := store_at m (a + i) 0 [b] (by simp)
      simpa using hat
    · rw [if_neg hij, getElem_load]
      apply store_onlyIn
      unfold Region.Contains
      simp only [List.length_singleton]
      omega

/-! ## Little-endian numbers -/

/-- The `k` low bytes of `v`, the lowest first. -/
def toBytes : Nat → Nat → List UInt8
  | 0, _ => []
  | k + 1, v => UInt8.ofNat v :: toBytes k (v / 256)

/-- The number whose bytes these are, the lowest first. -/
def ofBytes : List UInt8 → Nat
  | [] => 0
  | b :: bytes => b.toNat + 256 * ofBytes bytes

/-- A number has as many bytes as asked for. -/
@[simp] theorem length_toBytes (k v : Nat) : (toBytes k v).length = k := by
  induction k generalizing v with
  | zero => rfl
  | succ k ih => simp [toBytes, ih]

/-- The low byte, and the others. -/
theorem ofBytes_toBytes_succ (k v : Nat) :
    ofBytes (toBytes (k + 1) v) = v % 256 + 256 * ofBytes (toBytes k (v / 256)) := by
  simp [toBytes, ofBytes]

/-- Eight bytes hold a `UINT64`. -/
theorem ofBytes_toBytes_eight (v : UInt64) : ofBytes (toBytes 8 v.toNat) = v.toNat := by
  have hlt : v.toNat < 0x10000000000000000 := v.toNat_lt
  simp only [ofBytes_toBytes_succ, show ∀ v, ofBytes (toBytes 0 v) = 0 from fun _ => rfl,
    Nat.div_div_eq_div_mul]
  omega

/-- The number of eight bytes at `a`. -/
def readWord (m : Nat → UInt8) (a : Nat) : UInt64 := UInt64.ofNat (ofBytes (load m a 8))

/-- Write the eight bytes of `v` from `a` on. -/
def writeWord (m : Nat → UInt8) (a : Nat) (v : UInt64) : Nat → UInt8 :=
  store m a (toBytes 8 v.toNat)

variable {m m' : Nat → UInt8}

/-- A word that is written can be read. -/
theorem readWord_writeWord (m : Nat → UInt8) (a : Nat) (v : UInt64) :
    readWord (writeWord m a v) a = v := by
  have hload : load (writeWord m a v) a 8 = toBytes 8 v.toNat := by
    have h := load_store m a (toBytes 8 v.toNat)
    rwa [length_toBytes] at h
  rw [readWord, hload, ofBytes_toBytes_eight, UInt64.ofNat_toNat]

/-- Writing it changes eight bytes. -/
theorem writeWord_onlyIn (m : Nat → UInt8) (a : Nat) (v : UInt64) :
    OnlyIn m (writeWord m a v) ⟨a, 8⟩ := by
  have h := store_onlyIn m a (toBytes 8 v.toNat)
  rwa [length_toBytes] at h

/-- Where nothing has changed, the word is the same. -/
theorem readWord_same {a : Nat} (h : Same m m' ⟨a, 8⟩) : readWord m' a = readWord m a := by
  rw [readWord, load_same h, readWord]

end Memory
