import Mathlib.Data.List.Basic

/-!
# Instructions that commute

Instructions with different keys commute.  Then a run depends only on what each
key does on its own: two runs that have the same instructions for every key, in
the same order, end in the same state.
-/

namespace Commuting

variable {σ α κ : Type} {f : σ → α → σ} {key : α → κ}

/-- An instruction moves in front of those with other keys. -/
theorem foldl_move (hcomm : ∀ s a b, key a ≠ key b → f (f s a) b = f (f s b) a) {a : α}
    {before : List α} (hbefore : ∀ b ∈ before, key b ≠ key a) (behind : List α) (s : σ) :
    (before ++ a :: behind).foldl f s = (a :: (before ++ behind)).foldl f s := by
  induction before generalizing s with
  | nil => rfl
  | cons b rest ih =>
      have hrest := ih (fun b' hb' => hbefore b' (List.mem_cons_of_mem b hb')) (f s b)
      have hswap := hcomm s b a (hbefore b List.mem_cons_self)
      simp only [List.cons_append, List.foldl_cons] at hrest ⊢
      rw [hrest, hswap]

variable [DecidableEq κ]

/-- The instructions with one key, in order. -/
def share (key : α → κ) (k : κ) (run : List α) : List α := run.filter fun a => key a = k

/-- The share of a key in two pieces. -/
theorem share_append (k : κ) (first rest : List α) :
    share key k (first ++ rest) = share key k first ++ share key k rest :=
  List.filter_append ..

/-- The first one belongs to it. -/
theorem share_cons_of_eq {k : κ} {a : α} (h : key a = k) (rest : List α) :
    share key k (a :: rest) = a :: share key k rest :=
  List.filter_cons_of_pos (decide_eq_true h)

theorem share_cons_of_ne {k : κ} {a : α} (h : key a ≠ k) (rest : List α) :
    share key k (a :: rest) = share key k rest :=
  List.filter_cons_of_neg (by simpa using h)

/-- What belongs to the share of a key. -/
theorem mem_share {k : κ} {a : α} {run : List α} : a ∈ share key k run ↔ a ∈ run ∧ key a = k := by
  simp [share]

/-- The first instruction of a key, wherever it stands. -/
theorem split_share {a : α} {rest run : List α}
    (h : share key (key a) run = a :: rest) :
    ∃ before behind, run = before ++ a :: behind ∧ (∀ b ∈ before, key b ≠ key a) ∧
      share key (key a) behind = rest := by
  induction run with
  | nil => cases h
  | cons b tail ih =>
      by_cases hkey : key b = key a
      · rw [share_cons_of_eq hkey] at h
        obtain ⟨rfl, hrest⟩ := List.cons.inj h
        exact ⟨[], tail, rfl, by simp, hrest⟩
      · rw [share_cons_of_ne hkey] at h
        obtain ⟨before, behind, rfl, hbefore, hrest⟩ := ih h
        refine ⟨b :: before, behind, rfl, ?_, hrest⟩
        intro b' hb'
        obtain rfl | htail := List.mem_cons.mp hb'
        · exact hkey
        · exact hbefore b' htail

/-- **Runs with the same shares** end in the same state. -/
theorem foldl_eq_of_share (hcomm : ∀ s a b, key a ≠ key b → f (f s a) b = f (f s b) a)
    {run run' : List α} (h : ∀ k, share key k run = share key k run') (s : σ) :
    run.foldl f s = run'.foldl f s := by
  induction run generalizing run' s with
  | nil =>
      have hnil : run' = [] := by
        refine List.eq_nil_iff_forall_not_mem.mpr fun a ha => ?_
        have hmem : a ∈ share key (key a) run' := mem_share.mpr ⟨ha, rfl⟩
        rw [← h (key a)] at hmem
        cases hmem
      rw [hnil]
  | cons a rest ih =>
      have hfirst := h (key a)
      rw [share_cons_of_eq rfl] at hfirst
      obtain ⟨before, behind, rfl, hbefore, hrest⟩ := split_share hfirst.symm
      have hshares (k : κ) : share key k rest = share key k (before ++ behind) := by
        have hk := h k
        rw [share_append] at hk ⊢
        by_cases hkey : key a = k
        · subst hkey
          have hnone : share key (key a) before = [] :=
            List.filter_eq_nil_iff.mpr fun b hb => by simpa using hbefore b hb
          rw [hnone, hrest, List.nil_append]
        · rwa [share_cons_of_ne hkey, share_cons_of_ne hkey] at hk
      rw [foldl_move hcomm hbefore]
      exact ih hshares (f s a)

end Commuting
