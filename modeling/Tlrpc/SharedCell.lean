import Mathlib.Tactic.Common

namespace Tlrpc

/-- A cell that users load and store back whole; `held i` is loaded and not yet stored. -/
structure SharedCell (ι V : Type) where
  value : V
  held : ι → Option V

namespace SharedCell

variable {ι V W : Type} [DecidableEq ι]

def load (c : SharedCell ι V) (i : ι) : SharedCell ι V :=
  { c with held := Function.update c.held i (some c.value) }

def drop (c : SharedCell ι V) (i : ι) : SharedCell ι V :=
  { c with held := Function.update c.held i none }

def store (c : SharedCell ι V) (i : ι) (w : V) : SharedCell ι V :=
  ⟨w, Function.update c.held i none⟩

/-- One atomic access. `may i v w` says that user `i` can turn a loaded `v` into `w`. -/
inductive Step (may : ι → V → V → Prop) :
    SharedCell ι V → Option (ι × V) → SharedCell ι V → Prop
  | stay {c} : Step may c none c
  | load {c} (i : ι) : Step may c none (c.load i)
  | drop {c} (i : ι) : Step may c none (c.drop i)
  | store {c i v w} : c.held i = some v → may i v w → Step may c (some (i, v)) (c.store i w)

def Current (view : V → W) (owner : ι) (c : SharedCell ι V) : Prop :=
  ∀ v, c.held owner = some v → view v = view c.value

def StoresCurrent (view : V → W) (owner : ι) (c : SharedCell ι V) : Option (ι × V) → Prop
  | none => True
  | some (i, v) => i ≠ owner → view v = view c.value

instance [DecidableEq W] (view : V → W) (owner : ι) (c : SharedCell ι V) :
    ∀ label, Decidable (StoresCurrent view owner c label)
  | none => isTrue trivial
  | some (i, v) => inferInstanceAs (Decidable (i ≠ owner → view v = view c.value))

/-- If all others stored over what they loaded, the view moves by the owner's stores only. -/
theorem Step.current {may : ι → V → V → Prop} {view : V → W} {owner : ι} {c c' : SharedCell ι V}
    {label : Option (ι × V)} (frame : ∀ i v w, i ≠ owner → may i v w → view w = view v)
    (fresh : StoresCurrent view owner c label) (h : Step may c label c') (cur : Current view owner c) :
    Current view owner c' ∧
      (view c'.value = view c.value ∨ ∃ v, label = some (owner, v) ∧ view v = view c.value) := by
  cases h with
  | stay => exact ⟨cur, Or.inl rfl⟩
  | load i =>
    refine ⟨?_, Or.inl rfl⟩
    intro v hv
    by_cases hi : owner = i
    · subst hi
      have hval : c.value = v := by simpa [SharedCell.load] using hv
      rw [← hval]
      rfl
    · have hold : c.held owner = some v := by simpa [SharedCell.load, hi] using hv
      exact cur v hold
  | drop i =>
    refine ⟨?_, Or.inl rfl⟩
    intro v hv
    by_cases hi : owner = i
    · subst hi
      simp [SharedCell.drop] at hv
    · have hold : c.held owner = some v := by simpa [SharedCell.drop, hi] using hv
      exact cur v hold
  | @store i v w hhl hmay =>
    by_cases hi : i = owner
    · subst hi
      refine ⟨?_, Or.inr ⟨v, rfl, cur v hhl⟩⟩
      intro u hu
      simp [SharedCell.store] at hu
    have hvw : view w = view c.value :=
      (frame _ v w hi hmay).trans (fresh hi)
    refine ⟨?_, Or.inl hvw⟩
    intro u hu
    have hne : owner ≠ i := fun heq => hi heq.symm
    have hold : c.held owner = some u := by simpa [SharedCell.store, hne] using hu
    exact (cur u hold).trans hvw.symm

end SharedCell

end Tlrpc
