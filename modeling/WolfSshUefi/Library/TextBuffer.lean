import Mathlib.Data.List.Basic

/-!
# Texts in buffers

A buffer of fixed size holds a text when its bytes, none of them zero, stand at
the start of the buffer with a zero byte behind them.  What follows the zero
byte does not count.
-/

namespace TextBuffer

variable {n : Nat}

/-- The text that a buffer holds. -/
def text (buffer : Vector UInt8 n) : List UInt8 := buffer.toList.takeWhile (· ≠ 0)

/-- Write over the start of a buffer. -/
def overwrite (buffer : Vector UInt8 n) (bytes : List UInt8) : Vector UInt8 n :=
  Vector.ofFn fun i => bytes.getD i buffer[i]

/-- The text ends at the first NUL. -/
theorem text_of_toList {buffer : Vector UInt8 n} {bytes rest : List UInt8}
    (h : buffer.toList = bytes ++ 0 :: rest) (hnul : 0 ∉ bytes) : text buffer = bytes := by
  have hall : ∀ b ∈ bytes, (fun b : UInt8 => decide (b ≠ 0)) b = true := by
    intro b hb
    exact decide_eq_true fun hzero => hnul (hzero ▸ hb)
  unfold text
  rw [h, List.takeWhile_append_of_pos hall]
  simp

/-- A text has no NUL. -/
theorem nul_free (buffer : Vector UInt8 n) : 0 ∉ text buffer := by
  intro hmem
  have hne := List.all_takeWhile (l := buffer.toList) (p := fun b : UInt8 => b ≠ 0)
  exact of_decide_eq_true (List.all_eq_true.mp hne 0 hmem) rfl

/-- A buffer that starts with a zero byte holds nothing. -/
theorem text_eq_nil_iff (buffer : Vector UInt8 n) (hn : 0 < n) :
    text buffer = [] ↔ buffer[0] = 0 := by
  obtain ⟨⟨bytes⟩, hsize⟩ := buffer
  cases bytes with
  | nil => simp at hsize; omega
  | cons b rest =>
      by_cases hb : b = 0
      · simp [text, hb]
      · simp [text, hb]

/-- A zeroed buffer holds nothing. -/
theorem text_replicate (n : Nat) : text (Vector.replicate n 0) = [] := by
  cases n with
  | zero => rfl
  | succ n => exact (text_eq_nil_iff _ (Nat.succ_pos n)).mpr (by simp)

/-- Overwriting keeps what is behind. -/
theorem toList_overwrite (buffer : Vector UInt8 n) {bytes : List UInt8} (h : bytes.length ≤ n) :
    (overwrite buffer bytes).toList = bytes ++ buffer.toList.drop bytes.length := by
  apply List.ext_getElem
  · simp
    omega
  · intro i hi hi'
    simp only [overwrite, Vector.toList_ofFn, List.getElem_ofFn, List.getD_eq_getElem?_getD]
    by_cases hlow : i < bytes.length
    · simp [hlow]
    · have hbehind : bytes.length + (i - bytes.length) = i := by omega
      simp [hlow, List.getElem_append_right (Nat.le_of_not_lt hlow), hbehind]

/-- A text that is written with its NUL is read back. -/
theorem text_overwrite (buffer : Vector UInt8 n) {bytes : List UInt8} (h : bytes.length < n)
    (hnul : 0 ∉ bytes) : text (overwrite buffer (bytes ++ [0])) = bytes := by
  have hlength : (bytes ++ [0]).length ≤ n := by
    rw [List.length_append, List.length_singleton]
    exact h
  have hsplit := toList_overwrite buffer hlength
  rw [List.append_assoc] at hsplit
  exact text_of_toList hsplit hnul

/-- One byte more. -/
theorem toList_set {buffer : Vector UInt8 n} {first rest : List UInt8} {old : UInt8}
    (h : buffer.toList = first ++ old :: rest) (b : UInt8) :
    (buffer.setIfInBounds first.length b).toList = first ++ b :: rest := by
  rw [Vector.toList_setIfInBounds, h]
  simp

/-! ### Zeroes behind the text -/

/-- The buffer holds the bytes, and zeroes behind them. -/
def Padded (buffer : Vector UInt8 n) (bytes : List UInt8) : Prop :=
  buffer.toList = bytes ++ List.replicate (n - bytes.length) 0

/-- A zeroed buffer holds nothing. -/
theorem padded_nil (n : Nat) : Padded (Vector.replicate n 0) [] := by
  unfold Padded
  rw [Vector.toList_replicate]
  rfl

namespace Padded

variable {buffer : Vector UInt8 n} {bytes : List UInt8}

theorem push (h : Padded buffer bytes) (hroom : bytes.length < n) (b : UInt8) :
    Padded (buffer.setIfInBounds bytes.length b) (bytes ++ [b]) := by
  have hrest : n - bytes.length = (n - (bytes ++ [b]).length) + 1 := by
    rw [List.length_append, List.length_singleton]
    omega
  have hsplit : buffer.toList =
      bytes ++ 0 :: List.replicate (n - (bytes ++ [b]).length) 0 := by
    rw [h, hrest, List.replicate_succ]
  rw [Padded, toList_set hsplit, List.append_assoc]
  rfl

/-- One byte less, and a zero in its place. -/
theorem pop (h : Padded buffer bytes) (hle : bytes.length ≤ n) (hne : bytes ≠ []) :
    Padded (buffer.setIfInBounds (bytes.length - 1) 0) bytes.dropLast := by
  obtain ⟨init, last, rfl⟩ := (List.eq_nil_or_concat bytes).resolve_left hne
  rw [List.concat_eq_append, List.length_append, List.length_singleton] at hle
  have hrest : n - init.length = (n - (init ++ [last]).length) + 1 := by
    rw [List.length_append, List.length_singleton]
    omega
  have hsplit : buffer.toList =
      init ++ last :: List.replicate (n - (init ++ [last]).length) 0 := by
    rw [Padded, List.concat_eq_append, List.append_assoc] at h
    exact h
  rw [List.concat_eq_append, List.dropLast_concat, List.length_append, List.length_singleton,
    Nat.add_sub_cancel, Padded, toList_set hsplit, hrest, List.replicate_succ]

/-- A zero where one is already. -/
theorem terminate (h : Padded buffer bytes) (hroom : bytes.length < n) :
    Padded (buffer.setIfInBounds bytes.length 0) bytes := by
  have hrest : n - bytes.length = (n - bytes.length - 1) + 1 := by omega
  have hsplit : buffer.toList = bytes ++ 0 :: List.replicate (n - bytes.length - 1) 0 := by
    rw [h, hrest, List.replicate_succ, Nat.add_sub_cancel]
  rw [Padded, toList_set hsplit, ← List.replicate_succ, ← hrest]

/-- The text of a padded buffer. -/
theorem text (h : Padded buffer bytes) (hroom : bytes.length < n) (hnul : 0 ∉ bytes) :
    TextBuffer.text buffer = bytes := by
  have hrest : n - bytes.length = (n - bytes.length - 1) + 1 := by omega
  rw [Padded, hrest, List.replicate_succ] at h
  exact text_of_toList h hnul

end Padded

end TextBuffer
