import Mathlib.Data.List.Basic
import Mathlib.Order.Basic

/-!
# Versioned cells

A cell is created at the first version, updated by patches under a compare-and-swap on its
version, and deleted under one. Along its life the versions that updates expected increase,
the version counts the updates, and nothing happens after the deletion.
-/

namespace DotBackend.Transaction

variable {α δ : Type} {patched : α → δ → α}

/-- A cell that is not created yet, live, or no more. -/
inductive Cell (α : Type)
  | unborn
  | live (version : Int) (content : α)
  | dead

inductive CellEvent (α δ : Type)
  | created (content : α)
  | updated (expected : Int) (patch : δ)
  | deleted (expected : Int)

/-- What an event makes of a cell, if its condition on the version holds. -/
def Cell.step (patched : α → δ → α) : Cell α → CellEvent α δ → Option (Cell α)
  | .unborn, .created content => some (.live 1 content)
  | .live version content, .updated expected patch =>
      if expected = version then some (.live (version + 1) (patched content patch)) else none
  | .live version _, .deleted expected => if expected = version then some .dead else none
  | _, _ => none

/-- The events that lead from one state of a cell to another; the place of a cell may also
be used for something else. -/
inductive Life (patched : α → δ → α) (source : Cell α) : List (CellEvent α δ) → Cell α → Prop
  | refl : Life patched source [] source
  | unused {history : List (CellEvent α δ)} :
      Life patched source history .unborn → Life patched source history .dead
  | event {history : List (CellEvent α δ)} {cell next : Cell α} {event : CellEvent α δ} :
      Life patched source history cell → cell.step patched event = some next →
        Life patched source (history ++ [event]) next

/-- The versions that the updates of a history expected. -/
def expectedVersions (history : List (CellEvent α δ)) : List Int :=
  history.filterMap fun event => match event with
    | .updated expected _ => some expected
    | _ => none

/-- The version of a cell at the beginning of a life. -/
def Cell.first : Cell α → Int
  | .live version _ => version
  | .unborn | .dead => 1

namespace Cell

variable {cell next : Cell α} {event : CellEvent α δ}

/-- The three things that can happen to a cell. -/
theorem step_cases (stepped : cell.step patched event = some next) :
    (∃ content, cell = .unborn ∧ event = .created content ∧ next = .live 1 content) ∨
      (∃ version content patch, cell = .live version content ∧ event = .updated version patch ∧
        next = .live (version + 1) (patched content patch)) ∨
      ∃ version content, cell = .live version content ∧ event = .deleted version ∧
        next = .dead := by
  cases cell with
  | unborn =>
      cases event with
      | created content =>
          cases stepped
          exact Or.inl ⟨content, rfl, rfl, rfl⟩
      | updated | deleted => cases stepped
  | live version content =>
      apply Or.inr
      cases event with
      | created => cases stepped
      | updated expected patch =>
          rw [step] at stepped
          split at stepped
          · rename_i asExpected
            cases stepped
            exact Or.inl ⟨version, content, patch, rfl, by rw [asExpected], rfl⟩
          · cases stepped
      | deleted expected =>
          rw [step] at stepped
          split at stepped
          · rename_i asExpected
            cases stepped
            exact Or.inr ⟨version, content, rfl, by rw [asExpected], rfl⟩
          · cases stepped
  | dead => cases event <;> cases stepped

end Cell

namespace Life

variable {source middle target : Cell α} {history later : List (CellEvent α δ)}

theorem trans (first : Life patched source history middle)
    (second : Life patched middle later target) :
    Life patched source (history ++ later) target := by
  induction second with
  | refl =>
      rw [List.append_nil]
      exact first
  | unused _ ih => exact Life.unused ih
  | event _ stepped ih =>
      rw [← List.append_assoc]
      exact Life.event ih stepped

/-- A cell that is not created yet has no history. -/
theorem unborn (life : Life patched source history .unborn) : source = .unborn ∧ history = [] := by
  generalize isTarget : Cell.unborn = target at life
  cases life with
  | refl => exact ⟨rfl, rfl⟩
  | unused _ => cases isTarget
  | event _ stepped =>
      subst isTarget
      rcases Cell.step_cases stepped with ⟨_, _, _, next⟩ | ⟨_, _, _, _, _, next⟩ | ⟨_, _, _, _, next⟩
        <;> cases next

/-- Nothing happens after a deletion. -/
theorem dead (life : Life patched .dead history target) : history = [] ∧ target = .dead := by
  induction life with
  | refl => exact ⟨rfl, rfl⟩
  | unused _ ih => cases ih.2
  | event _ stepped ih =>
      obtain ⟨_, rfl⟩ := ih
      rcases Cell.step_cases stepped with ⟨_, cell, _⟩ | ⟨_, _, _, cell, _⟩ | ⟨_, _, cell, _⟩
        <;> cases cell

@[simp]
theorem expectedVersions_append :
    expectedVersions (history ++ later) = expectedVersions history ++ expectedVersions later :=
  List.filterMap_append

/-- The expected versions increase up to the version, which counts the updates. -/
theorem counts (life : Life patched source history target) :
    (expectedVersions history).Pairwise (· < ·) ∧
      ∀ version content, target = .live version content →
        version = source.first + (expectedVersions history).length ∧
          ∀ expected ∈ expectedVersions history, expected < version := by
  induction life with
  | refl =>
      refine ⟨List.Pairwise.nil, ?_⟩
      rintro version content rfl
      exact ⟨(Int.add_zero version).symm, fun expected expectedMem =>
        absurd expectedMem List.not_mem_nil⟩
  | unused _ ih =>
      refine ⟨ih.1, ?_⟩
      rintro version content ⟨⟩
  | @event history cell next event before stepped ih =>
      obtain ⟨increasing, counted⟩ := ih
      rcases Cell.step_cases stepped with ⟨content, rfl, rfl, rfl⟩ |
        ⟨version, content, patch, rfl, rfl, rfl⟩ | ⟨version, content, rfl, rfl, rfl⟩
      · obtain ⟨rfl, rfl⟩ := before.unborn
        refine ⟨List.Pairwise.nil, ?_⟩
        rintro version other ⟨⟩
        exact ⟨rfl, fun expected expectedMem => absurd expectedMem List.not_mem_nil⟩
      · obtain ⟨version_eq, below⟩ := counted version content rfl
        have more : expectedVersions (history ++ [CellEvent.updated version patch]) =
            expectedVersions history ++ [version] := expectedVersions_append
        rw [more]
        constructor
        · rw [List.pairwise_append]
          refine ⟨increasing, List.pairwise_singleton _ _, ?_⟩
          intro expected expectedMem last lastMem
          rw [List.mem_singleton.mp lastMem]
          exact below expected expectedMem
        · rintro next other ⟨⟩
          constructor
          · rw [List.length_append, List.length_singleton, version_eq]
            push_cast
            omega
          · intro expected expectedMem
            rcases List.mem_append.mp expectedMem with oldMem | newMem
            · have := below expected oldMem
              omega
            · rw [List.mem_singleton.mp newMem]
              omega
      · have same : expectedVersions (history ++ [CellEvent.deleted (δ := δ) (α := α) version]) =
            expectedVersions history := by
          rw [expectedVersions_append]
          exact List.append_nil _
        rw [same]
        refine ⟨increasing, ?_⟩
        rintro next other ⟨⟩

/-- No two updates expected the same version. -/
theorem expectedVersions_nodup (life : Life patched source history target) :
    (expectedVersions history).Nodup :=
  life.counts.1.imp fun less => Int.ne_of_lt less

/-- A cell that is back at a version was not changed. -/
theorem same_version {version : Int} {content other : α}
    (life : Life patched (.live version content) history (.live version other)) :
    history = [] ∧ other = content := by
  generalize isTarget : Cell.live version other = target at life
  cases life with
  | refl =>
      cases isTarget
      exact ⟨rfl, rfl⟩
  | unused _ => cases isTarget
  | event before stepped =>
      subst isTarget
      rcases Cell.step_cases stepped with ⟨_, rfl, _⟩ | ⟨older, older_content, _, rfl, _, next⟩ |
        ⟨_, _, _, _, next⟩
      · cases before.unborn.1
      · have counted := (before.counts.2 older older_content rfl).1
        have next_eq : version = older + 1 := by
          cases next
          rfl
        simp only [Cell.first] at counted
        omega
      · cases next

end Life

end DotBackend.Transaction
