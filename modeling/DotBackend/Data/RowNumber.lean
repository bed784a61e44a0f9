import Mathlib.Data.List.Sort
import Mathlib.Data.List.Nodup

/-!
# Row numbers

The rows of a table in the order of a key, numbered from one. When no two rows share a
key, the number of a row is one more than the number of rows with a smaller key.
-/

namespace DotBackend.Data.RowNumber

variable {α κ ι : Type*} [LinearOrder κ] {key : α → κ} {rows : List α} {row : α} {number : Nat}

/-- `row_number() OVER (ORDER BY key)`. -/
def rowNumbers (key : α → κ) (rows : List α) : List (α × Nat) :=
  (rows.insertionSort fun a b => key a ≤ key b).zipIdx 1

theorem map_fst_rowNumbers (key : α → κ) (rows : List α) :
    ((rowNumbers key rows).map Prod.fst).Perm rows := by
  rw [rowNumbers, List.zipIdx_map_fst]
  exact List.perm_insertionSort _ rows

theorem map_snd_rowNumbers (key : α → κ) (rows : List α) :
    (rowNumbers key rows).map Prod.snd = List.range' 1 rows.length := by
  rw [rowNumbers, List.zipIdx_map_snd, List.length_insertionSort]

/-- In a strictly increasing list the index is the number of smaller keys. -/
theorem mem_zipIdx_iff {sorted : List α} (increasing : sorted.Pairwise fun a b => key a < key b)
    (start : Nat) : (row, number) ∈ sorted.zipIdx start ↔
      row ∈ sorted ∧ number = sorted.countP (fun other => key other < key row) + start := by
  induction sorted generalizing start with
  | nil => simp
  | cons first rest ih =>
      rcases List.pairwise_cons.mp increasing with ⟨firstLeast, restIncreasing⟩
      rw [List.zipIdx_cons, List.mem_cons, ih restIncreasing, List.countP_cons,
        List.mem_cons]
      constructor
      · rintro (isFirst | ⟨isRest, rfl⟩)
        · cases isFirst
          have noSmaller : rest.countP (fun other => key other < key row) = 0 := by
            rw [List.countP_eq_zero]
            intro other otherMem
            simpa using le_of_lt (firstLeast other otherMem)
          simp [noSmaller]
        · refine ⟨Or.inr isRest, ?_⟩
          rw [if_pos (decide_eq_true (firstLeast row isRest))]
          omega
      · rintro ⟨rfl | isRest, rfl⟩
        · left
          have noSmaller : rest.countP (fun other => key other < key row) = 0 := by
            rw [List.countP_eq_zero]
            intro other otherMem
            simpa using le_of_lt (firstLeast other otherMem)
          simp [noSmaller]
        · right
          refine ⟨isRest, ?_⟩
          rw [if_pos (decide_eq_true (firstLeast row isRest))]
          omega

/-- The number of a row, when the keys are distinct. -/
theorem mem_rowNumbers_iff (distinct : (rows.map key).Nodup) :
    (row, number) ∈ rowNumbers key rows ↔
      row ∈ rows ∧ number = rows.countP (fun other => key other < key row) + 1 := by
  have perm := List.perm_insertionSort (fun a b => key a ≤ key b) rows
  have sorted : (rows.insertionSort fun a b => key a ≤ key b).Pairwise fun a b => key a ≤ key b :=
    List.pairwise_insertionSort _ rows
  have apart : (rows.insertionSort fun a b => key a ≤ key b).Pairwise fun a b => key a ≠ key b :=
    List.pairwise_map.mp ((perm.map key).nodup_iff.mpr distinct)
  have increasing := (sorted.and apart).imp fun both => lt_of_le_of_ne both.1 both.2
  rw [rowNumbers, mem_zipIdx_iff increasing, perm.mem_iff, perm.countP_eq]

/-- Two conditions that differ on one row count differently by at most one. -/
theorem countP_le_succ {id : α → ι} {p q : α → Bool} (target : ι) (distinct : (rows.map id).Nodup)
    (differ : ∀ row ∈ rows, p row = true → q row = false → id row = target) :
    rows.countP p ≤ rows.countP q + 1 := by
  induction rows with
  | nil => exact Nat.zero_le _
  | cons first rest ih =>
      rw [List.map_cons, List.nodup_cons] at distinct
      have later := fun row rowMem => differ row (List.mem_cons_of_mem first rowMem)
      rw [List.countP_cons, List.countP_cons]
      by_cases gains : p first = true ∧ q first = false
      · have isTarget := differ first List.mem_cons_self gains.1 gains.2
        have rest_le : rest.countP p ≤ rest.countP q := by
          apply List.countP_mono_left
          intro row rowMem holds
          by_contra notHolds
          apply distinct.1
          rw [isTarget, ← later row rowMem holds (Bool.not_eq_true _ ▸ notHolds)]
          exact List.mem_map_of_mem rowMem
        rw [if_pos gains.1, gains.2]
        simpa using rest_le
      · have rest_le := ih distinct.2 later
        cases p_eq : p first with
        | false => simpa using le_trans rest_le (by omega)
        | true =>
            cases q_eq : q first with
            | false => exact absurd ⟨p_eq, q_eq⟩ gains
            | true => simpa using rest_le

end DotBackend.Data.RowNumber
