import Mathlib.Logic.Function.Basic

/-!
# Programs with a world around them

A program over a state `σ` that draws what the world does from a stream of
moments `μ`.  A triple says what such a program makes of a state whatever the
moments are, so it speaks of all the ways in which the world can act.  Where the
world may act on the state between two steps, an assertion about the state
has to be stable.
-/

/-- A program that draws moments `μ` and works on a state `σ`. -/
abbrev Async (μ σ α : Type) := StateM (σ × (Nat → μ)) α

namespace Async

variable {μ σ α β : Type}

/-- The next moment. -/
def draw : Async μ σ μ := fun (s, moments) => (moments 0, s, fun n => moments (n + 1))

/-- Read the state. -/
def read (f : σ → α) : Async μ σ α := fun (s, moments) => (f s, s, moments)

/-- Change the state. -/
def update (f : σ → σ) : Async μ σ Unit := fun (s, moments) => ((), f s, moments)

/-- `Q` holds of the result and of the state after `x`, if `P` holds before. -/
def Triple (P : σ → Prop) (x : Async μ σ α) (Q : α → σ → Prop) : Prop :=
  ∀ s moments, P s → Q (x (s, moments)).1 (x (s, moments)).2.1

namespace Triple

variable {P P' : σ → Prop} {Q Q' : α → σ → Prop} {R : β → σ → Prop}

/-- A value changes nothing. -/
theorem pure {a : α} (h : ∀ s, P s → Q a s) : Triple (μ := μ) P (Pure.pure a) Q :=
  fun s _ hs => h s hs

/-- One computation after the other. -/
theorem bind {x : Async μ σ α} {f : α → Async μ σ β} (hx : Triple P x Q)
    (hf : ∀ a, Triple (Q a) (f a) R) : Triple P (x >>= f) R :=
  fun s moments h => hf _ _ _ (hx s moments h)

/-- A drawn moment changes no state. -/
theorem draw {P : σ → Prop} : Triple (μ := μ) P Async.draw fun _ => P := fun _ _ h => h

/-- What is read is what the state says. -/
theorem read {f : σ → α} : Triple (μ := μ) P (Async.read f) fun a s => P s ∧ a = f s :=
  fun _ _ h => ⟨h, rfl⟩

/-- An update leads where its function leads. -/
theorem update {f : σ → σ} {Q : Unit → σ → Prop} (h : ∀ s, P s → Q () (f s)) :
    Triple (μ := μ) P (Async.update f) Q := fun s _ hs => h s hs

/-- A choice, by the branch that is taken. -/
theorem ite {c : Prop} [Decidable c] {x y : Async μ σ α} (hx : c → Triple P x Q)
    (hy : ¬ c → Triple P y Q) : Triple P (if c then x else y) Q := by
  split
  · next h => exact hx h
  · next h => exact hy h

/-- A stronger precondition. -/
theorem pre {x : Async μ σ α} (h : Triple P x Q) (hpre : ∀ s, P' s → P s) : Triple P' x Q :=
  fun s moments hs => h s moments (hpre s hs)

/-- A weaker postcondition. -/
theorem post {x : Async μ σ α} (h : Triple P x Q) (hpost : ∀ a s, Q a s → Q' a s) :
    Triple P x Q' :=
  fun s moments hs => hpost _ _ (h s moments hs)

/-- What does not change keeps a fact on both sides. -/
theorem and {x : Async μ σ α} (h : Triple P x Q) (h' : Triple P' x Q') :
    Triple (fun s => P s ∧ P' s) x fun a s => Q a s ∧ Q' a s :=
  fun s moments hs => ⟨h s moments hs.1, h' s moments hs.2⟩

/-- A fact that the state has nothing to do with. -/
theorem of_fact {c : Prop} {x : Async μ σ α} (h : c → Triple P x Q) :
    Triple (fun s => c ∧ P s) x Q :=
  fun s moments hs => h hs.1 s moments hs.2

/-- Whatever is true at the start. -/
theorem exists_pre {ι : Type} {P : ι → σ → Prop} {x : Async μ σ α}
    (h : ∀ i, Triple (P i) x Q) : Triple (fun s => ∃ i, P i s) x Q :=
  fun s moments ⟨i, hi⟩ => h i s moments hi

end Triple

/-- A program that keeps an assertion. -/
def Keeps (P : σ → Prop) (x : Async μ σ α) : Prop := Triple P x fun _ => P

namespace Keeps

variable {P : σ → Prop}

/-- A value keeps everything. -/
theorem pure (a : α) : Keeps (μ := μ) P (Pure.pure a) := fun _ _ h => h

/-- What both parts keep is kept. -/
theorem bind {x : Async μ σ α} {f : α → Async μ σ β} (hx : Keeps P x) (hf : ∀ a, Keeps P (f a)) :
    Keeps P (x >>= f) :=
  Triple.bind hx hf

/-- Reading keeps everything. -/
theorem read (f : σ → α) : Keeps (μ := μ) P (Async.read f) := fun _ _ h => h

/-- Drawing keeps everything. -/
theorem draw : Keeps (μ := μ) P Async.draw := Triple.draw

/-- An update keeps what its function keeps. -/
theorem update {f : σ → σ} (h : ∀ s, P s → P (f s)) : Keeps (μ := μ) P (Async.update f) :=
  Triple.update h

/-- A choice keeps what both branches keep. -/
theorem ite {c : Prop} [Decidable c] {x y : Async μ σ α} (hx : Keeps P x) (hy : Keeps P y) :
    Keeps P (if c then x else y) :=
  Triple.ite (fun _ => hx) (fun _ => hy)

end Keeps

/-- A program that leaves a part of the state alone. -/
def Preserves (f : σ → β) (x : Async μ σ α) : Prop :=
  ∀ s moments, f (x (s, moments)).2.1 = f s

namespace Preserves

variable {γ : Type} {f : σ → γ}

/-- A value preserves every view. -/
theorem pure (a : α) : Preserves (μ := μ) f (Pure.pure a) := fun _ _ => rfl

/-- What both parts preserve is preserved. -/
theorem bind {x : Async μ σ α} {g : α → Async μ σ β} (hx : Preserves f x)
    (hg : ∀ a, Preserves f (g a)) : Preserves f (x >>= g) :=
  fun s moments => (hg _ _ _).trans (hx s moments)

/-- Reading preserves every view. -/
theorem read (g : σ → α) : Preserves (μ := μ) f (Async.read g) := fun _ _ => rfl

/-- Drawing preserves every view. -/
theorem draw : Preserves (μ := μ) f Async.draw := fun _ _ => rfl

/-- An update preserves what its function preserves. -/
theorem update {g : σ → σ} (h : ∀ s, f (g s) = f s) : Preserves (μ := μ) f (Async.update g) :=
  fun s _ => h s

/-- A choice preserves what both branches preserve. -/
theorem ite {c : Prop} [Decidable c] {x y : Async μ σ α} (hx : Preserves f x)
    (hy : Preserves f y) : Preserves f (if c then x else y) := by
  split
  · exact hx
  · exact hy

/-- What is kept at each of its values is preserved. -/
theorem of_keeps {x : Async μ σ α} (h : ∀ v, Keeps (fun s => f s = v) x) : Preserves f x :=
  fun s moments => h (f s) s moments rfl

/-- What is said about that part stays true. -/
theorem keeps {x : Async μ σ α} (h : Preserves f x) (Q : γ → Prop) :
    Keeps (fun s => Q (f s)) x := by
  intro s moments hs
  rw [h s moments]
  exact hs

end Preserves

/-- A triple for a world in which every moment is the same. -/
def Steady (m : μ) (P : σ → Prop) (x : Async μ σ α) (Q : α → σ → Prop) : Prop :=
  ∀ s, P s → (x (s, fun _ => m)).2.2 = (fun _ => m) ∧
    Q (x (s, fun _ => m)).1 (x (s, fun _ => m)).2.1

namespace Steady

variable {m : μ} {P P' : σ → Prop} {Q Q' : α → σ → Prop} {R : β → σ → Prop}

/-- A value waits for nothing. -/
theorem pure {a : α} (h : ∀ s, P s → Q a s) : Steady m P (Pure.pure a) Q :=
  fun s hs => ⟨rfl, h s hs⟩

/-- One part after the other in the same moments. -/
theorem bind {x : Async μ σ α} {f : α → Async μ σ β} (hx : Steady m P x Q)
    (hf : ∀ a, Steady m (Q a) (f a) R) : Steady m P (x >>= f) R := by
  intro s hs
  obtain ⟨hstream, hq⟩ := hx s hs
  have hrest := hf _ _ hq
  have hunfold : (x >>= f) (s, fun _ => m) =
      f (x (s, fun _ => m)).1 ((x (s, fun _ => m)).2.1, (x (s, fun _ => m)).2.2) := rfl
  rw [hunfold, hstream]
  exact hrest

/-- The moment that is drawn is always the same. -/
theorem draw : Steady m P Async.draw fun a s => P s ∧ a = m := fun _ hs => ⟨rfl, hs, rfl⟩

/-- What is read is what the state says. -/
theorem read {f : σ → α} : Steady m P (Async.read f) fun a s => P s ∧ a = f s :=
  fun _ hs => ⟨rfl, hs, rfl⟩

/-- An update leads where its function leads. -/
theorem update {f : σ → σ} {Q : Unit → σ → Prop} (h : ∀ s, P s → Q () (f s)) :
    Steady m P (Async.update f) Q := fun s hs => ⟨rfl, h s hs⟩

/-- A choice, by the branch that is taken. -/
theorem ite {c : Prop} [Decidable c] {x y : Async μ σ α} (hx : c → Steady m P x Q)
    (hy : ¬ c → Steady m P y Q) : Steady m P (if c then x else y) Q := by
  split
  · next h => exact hx h
  · next h => exact hy h

/-- A stronger precondition. -/
theorem pre {x : Async μ σ α} (h : Steady m P x Q) (hpre : ∀ s, P' s → P s) : Steady m P' x Q :=
  fun s hs => h s (hpre s hs)

/-- A fact of the precondition that is not about the state. -/
theorem of_fact {c : Prop} {x : Async μ σ α} (h : c → Steady m P x Q) :
    Steady m (fun s => c ∧ P s) x Q :=
  fun s hs => h hs.1 s hs.2

end Steady

end Async
