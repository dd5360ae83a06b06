import Mathlib.Logic.Function.Basic

/-!
# Settings

A run of instructions some of which set a field.  The field ends up with the
value it was given last, so the run leaves it alone exactly when that value,
if there is one, is the value it had.
-/

namespace Settings

variable {σ κ β : Type} {exec : σ → κ → σ} (get : σ → β) (sets : κ → Option β) {inv : σ → Prop}

/-- The last write wins. -/
theorem get_foldl {run : List κ}
    (hstep : ∀ s, ∀ c ∈ run, inv s → get (exec s c) = (sets c).getD (get s))
    (hinv : ∀ s c, inv s → inv (exec s c)) {s : σ} (hs : inv s) :
    get (run.foldl exec s) = ((run.filterMap sets).getLast?).getD (get s) := by
  induction run generalizing s with
  | nil => rfl
  | cons c rest ih =>
      have hrest := ih (fun s c' hc' => hstep s c' (List.mem_cons_of_mem c hc')) (hinv s c hs)
      rw [List.foldl_cons, hrest, hstep s c List.mem_cons_self hs]
      cases hset : sets c with
      | none => simp [hset]
      | some value =>
          rw [List.filterMap_cons_some hset, List.getLast?_cons]
          rfl

/-- A run leaves a field alone exactly when it last gives it the value it has. -/
theorem unchanged_iff (hstep : ∀ s c, inv s → get (exec s c) = (sets c).getD (get s))
    (hinv : ∀ s c, inv s → inv (exec s c)) {s : σ} (hs : inv s) (run : List κ) :
    get (run.foldl exec s) = get s ↔
      ∀ value, (run.filterMap sets).getLast? = some value → value = get s := by
  rw [get_foldl get sets (fun s c _ => hstep s c) hinv hs]
  cases (run.filterMap sets).getLast? with
  | none => simp
  | some value => simp

end Settings
