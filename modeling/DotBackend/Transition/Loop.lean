import Mathlib.Logic.Basic

/-!
# Loops that end with a result

A loop is a function that leads from a state either to the next one or to a result. Since it is a
function, a state ends with at most one result, and not with another than those it leads to do.
-/

namespace DotBackend.Transition.Loop

variable {σ ρ : Type}

/-- `target` is a later state of the loop. -/
inductive Reaches (step : σ → σ ⊕ ρ) (source : σ) : σ → Prop
  | refl : Reaches step source source
  | tail {middle target : σ} : Reaches step source middle → step middle = .inl target →
      Reaches step source target

/-- The loop ends with a result. -/
def Ends (step : σ → σ ⊕ ρ) (source : σ) (result : ρ) : Prop :=
  ∃ last, Reaches step source last ∧ step last = .inr result

variable {step : σ → σ ⊕ ρ} {source middle target : σ} {result : ρ}

/-- The invariant rule. -/
theorem Reaches.invariant (Invariant : σ → Prop)
    (preserved : ∀ before after, Invariant before → step before = .inl after → Invariant after)
    (reaches : Reaches step source target) (initially : Invariant source) : Invariant target := by
  induction reaches with
  | refl => exact initially
  | tail _ stepped ih => exact preserved _ _ ih stepped

theorem Reaches.trans (first : Reaches step source middle) (second : Reaches step middle target) :
    Reaches step source target := by
  induction second with
  | refl => exact first
  | tail _ stepped ih => exact Reaches.tail ih stepped

/-- What a later state ends with, the loop ends with. -/
theorem Ends.of_reaches (reaches : Reaches step source middle) (ends : Ends step middle result) :
    Ends step source result := by
  rcases ends with ⟨last, later, stops⟩
  exact ⟨last, reaches.trans later, stops⟩

/-- A loop ends if each of its states either stops or decreases a measure. -/
theorem ends_of_decreasing (Invariant : σ → Prop) (measure : σ → Nat)
    (decreases : ∀ before after, Invariant before → step before = .inl after →
      Invariant after ∧ measure after < measure before)
    (initially : Invariant source) : ∃ result, Ends step source result := by
  generalize size : measure source = n
  induction n using Nat.strongRecOn generalizing source with
  | ind n ih =>
      cases stepped : step source with
      | inr result => exact ⟨result, source, Reaches.refl, stepped⟩
      | inl next =>
          rcases decreases source next initially stepped with ⟨still, smaller⟩
          rw [size] at smaller
          rcases ih (measure next) smaller still rfl with ⟨result, ends⟩
          exact ⟨result, ends.of_reaches (Reaches.tail Reaches.refl stepped)⟩

/-- A later state is the state itself, or a later state of the next one. -/
theorem Reaches.cases_head (reaches : Reaches step source target) :
    target = source ∨ ∃ next, step source = .inl next ∧ Reaches step next target := by
  induction reaches with
  | refl => exact Or.inl rfl
  | tail _ stepped ih =>
      rcases ih with rfl | ⟨next, first, later⟩
      · exact Or.inr ⟨_, stepped, Reaches.refl⟩
      · exact Or.inr ⟨next, first, later.tail stepped⟩

theorem Ends.next (ends : Ends step source result) (stepped : step source = .inl middle) :
    Ends step middle result := by
  rcases ends with ⟨last, reaches, stops⟩
  rcases reaches.cases_head with rfl | ⟨next, first, later⟩
  · rw [stepped] at stops
    cases stops
  · rw [stepped] at first
    cases first
    exact ⟨last, later, stops⟩

/-- A loop that ends, ends with the same result from each later state. -/
theorem Ends.from (ends : Ends step source result) (reaches : Reaches step source middle) :
    Ends step middle result := by
  induction reaches with
  | refl => exact ends
  | tail _ stepped ih => exact ih.next stepped

/-- A loop that only leads from states of a kind to states of that kind never ends. -/
theorem not_ends_of_invariant (Invariant : σ → Prop)
    (continues : ∀ before, Invariant before → ∃ after, step before = .inl after ∧ Invariant after)
    (initially : Invariant source) : ¬ Ends step source result := by
  rintro ⟨last, reaches, stops⟩
  have kept : Invariant last := by
    apply reaches.invariant Invariant _ initially
    intro before after held stepped
    rcases continues before held with ⟨next, isNext, nextHeld⟩
    rw [isNext] at stepped
    cases stepped
    exact nextHeld
  rcases continues last kept with ⟨next, isNext, _⟩
  rw [isNext] at stops
  cases stops

end DotBackend.Transition.Loop
