import Mathlib.Data.List.Basic

/-!
# Runs

A system is a partial step function on states and events. A run is a finite sequence of
successful steps, each of which satisfies a condition on the state before it and its
event; with the trivial condition it is any run. What one step preserves, a run
preserves.
-/

namespace DotBackend.Transition

variable {α ε : Type}

/-- `target` is reached from `source` by steps that all satisfy a condition. -/
inductive Run (step : α → ε → Option α) (condition : α → ε → Prop) (source : α) : α → Prop
  | refl : Run step condition source source
  | tail {middle target : α} {event : ε} : Run step condition source middle →
      condition middle event → step middle event = some target → Run step condition source target

namespace Run

variable {step : α → ε → Option α} {condition weaker : α → ε → Prop} {source middle target : α}

/-- The invariant rule. -/
theorem invariant (Invariant : α → Prop)
    (preserved : ∀ before event after, Invariant before → condition before event →
      step before event = some after → Invariant after)
    (run : Run step condition source target) (initially : Invariant source) :
    Invariant target := by
  induction run with
  | refl => exact initially
  | tail _ allowed stepped ih =>
      exact preserved _ _ _ ih allowed stepped

theorem trans (first : Run step condition source middle)
    (second : Run step condition middle target) : Run step condition source target := by
  induction second with
  | refl => exact first
  | tail _ allowed stepped ih =>
      exact Run.tail ih allowed stepped

/-- A run under a condition is a run under a weaker one. -/
theorem mono (weakens : ∀ before event, condition before event → weaker before event)
    (run : Run step condition source target) : Run step weaker source target := by
  induction run with
  | refl => exact Run.refl
  | tail _ allowed stepped ih =>
      exact Run.tail ih (weakens _ _ allowed) stepped

end Run

/-- Take the steps of a list of events, each of which has to pass a check. -/
def execute (step : α → ε → Option α) (check : α → ε → Bool) : α → List ε → Option α
  | state, [] => some state
  | state, event :: events =>
      if check state event then
        (step state event).bind fun next => execute step check next events
      else none

/-- A list of events that can be taken is a run. -/
theorem run_of_execute {step : α → ε → Option α} {check : α → ε → Bool} {source target : α}
    {events : List ε} (executed : execute step check source events = some target) :
    Run step (fun state event => check state event = true) source target := by
  induction events generalizing source with
  | nil =>
      cases executed
      exact Run.refl
  | cons event events ih =>
      rw [execute] at executed
      split at executed
      · rename_i passes
        rw [Option.bind_eq_some_iff] at executed
        obtain ⟨middle, stepped, later⟩ := executed
        have first : Run step (fun state event => check state event = true) source middle :=
          Run.tail Run.refl passes stepped
        exact first.trans (ih later)
      · cases executed

end DotBackend.Transition
