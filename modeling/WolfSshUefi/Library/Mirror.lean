import Mathlib.Logic.Function.Basic

/-!
# A picture that lags behind a buffer

A buffer is changed in place and a picture of it is brought up to date from
time to time.  Meanwhile the places where the two may differ are recorded as
dirty.  The picture `Agrees` with the buffer when it shows the buffer at every
clean place; a change is `Covered` when every place it changes is dirty
afterwards, and no dirty place is forgotten.  Covered changes keep agreement,
and repainting the dirty places of a picture that agrees gives a picture that
shows the buffer everywhere.
-/

namespace Mirror

variable {ι α : Type}

/-- The picture shows the buffer at every clean place. -/
def Agrees (place dirty : ι → Prop) (picture buffer : ι → α) : Prop :=
  ∀ i, place i → ¬ dirty i → picture i = buffer i

/-- A change of the buffer together with a change of the dirty places. -/
structure Covered (place dirty dirty' : ι → Prop) (buffer buffer' : ι → α) : Prop where
  keeps : ∀ i, place i → dirty i → dirty' i
  marks : ∀ i, place i → ¬ dirty' i → buffer' i = buffer i

variable {place dirty dirty' dirty'' : ι → Prop} {picture picture' buffer buffer' buffer'' : ι → α}

theorem Covered.refl (place dirty : ι → Prop) (buffer : ι → α) :
    Covered place dirty dirty buffer buffer :=
  ⟨fun _ _ hd => hd, fun _ _ _ => rfl⟩

theorem Covered.trans (first : Covered place dirty dirty' buffer buffer')
    (second : Covered place dirty' dirty'' buffer' buffer'') :
    Covered place dirty dirty'' buffer buffer'' := by
  constructor
  · intro i hi hd
    exact second.keeps i hi (first.keeps i hi hd)
  · intro i hi hclean
    have hclean' : ¬ dirty' i := fun hd => hclean (second.keeps i hi hd)
    calc buffer'' i
        = buffer' i := second.marks i hi hclean
      _ = buffer i := first.marks i hi hclean'

/-- A covered change leaves an agreeing picture agreeing. -/
theorem Agrees.covered (h : Agrees place dirty picture buffer)
    (hchange : Covered place dirty dirty' buffer buffer') :
    Agrees place dirty' picture buffer' := by
  intro i hi hclean
  have hclean' : ¬ dirty i := fun hd => hclean (hchange.keeps i hi hd)
  calc picture i
      = buffer i := h i hi hclean'
    _ = buffer' i := (hchange.marks i hi hclean).symm

/-- Repainting the dirty places brings the whole picture up to date. -/
theorem Agrees.repaint (h : Agrees place dirty picture buffer)
    (hdirty : ∀ i, place i → dirty i → picture' i = buffer i)
    (hclean : ∀ i, place i → ¬ dirty i → picture' i = picture i) :
    ∀ i, place i → picture' i = buffer i := by
  intro i hi
  by_cases hd : dirty i
  · exact hdirty i hi hd
  · rw [hclean i hi hd]
    exact h i hi hd

end Mirror
