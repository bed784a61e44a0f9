import Mathlib.Logic.Basic

/-!
# Columns of a loaded row

An object that was loaded from a row writes back the columns that were assigned a new
value since; the other columns keep what is stored by then.
-/

namespace DotBackend.Data

variable {α : Type} [DecidableEq α]

/-- An `UPDATE` writes the columns that were assigned a new value since they were
loaded. -/
def mergeColumn (loaded assigned stored : α) : α :=
  if assigned = loaded then stored else assigned

@[simp]
theorem mergeColumn_loaded (loaded assigned : α) : mergeColumn loaded assigned loaded = assigned := by
  by_cases same : assigned = loaded
  · rw [mergeColumn, if_pos same, same]
  · rw [mergeColumn, if_neg same]

@[simp]
theorem mergeColumn_unassigned (loaded stored : α) : mergeColumn loaded loaded stored = stored :=
  if_pos rfl

theorem mergeColumn_assigned {loaded assigned : α} (differs : assigned ≠ loaded) (stored : α) :
    mergeColumn loaded assigned stored = assigned :=
  if_neg differs

theorem mergeColumn_stored_or_assigned (loaded assigned stored : α) :
    mergeColumn loaded assigned stored = stored ∨ mergeColumn loaded assigned stored = assigned := by
  by_cases same : assigned = loaded
  · exact Or.inl (if_pos same)
  · exact Or.inr (if_neg same)

/-- A value that was not assigned was stored. -/
theorem stored_eq_of_mergeColumn_eq {loaded assigned stored value : α}
    (merged : mergeColumn loaded assigned stored = value) (notAssigned : assigned ≠ value) :
    stored = value := by
  rcases mergeColumn_stored_or_assigned loaded assigned stored with isStored | isAssigned
  · exact isStored.symm.trans merged
  · exact absurd (isAssigned.symm.trans merged) notAssigned

end DotBackend.Data
