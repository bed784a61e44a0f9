import Mathlib.Data.List.Basic
import Mathlib.Data.List.Nodup
import Mathlib.Data.List.Sort

/-!
# Tables

A table is the list of its rows; the order stands for whatever order the database
returns rows in. An `UPDATE` rewrites the rows that match a condition.
-/

namespace DotBackend.Data.Table

variable {α β κ : Type*}

/-! ## Updates -/

/-- `UPDATE rows SET change WHERE condition`. -/
def update (condition : α → Bool) (change : α → α) (rows : List α) : List α :=
  rows.map fun row => if condition row then change row else row

theorem mem_update {condition : α → Bool} {change : α → α} {rows : List α} {row : α} :
    row ∈ update condition change rows ↔
      ∃ old ∈ rows, (if condition old then change old else old) = row := by
  simp [update]

/-- A row after an update was changed, or was not selected. -/
theorem mem_update_cases {condition : α → Bool} {change : α → α} {rows : List α} {row : α}
    (rowMem : row ∈ update condition change rows) :
    (∃ old ∈ rows, condition old = true ∧ row = change old) ∨
      (row ∈ rows ∧ condition row = false) := by
  obtain ⟨old, oldMem, rfl⟩ := mem_update.mp rowMem
  by_cases selected : condition old = true
  · rw [if_pos selected]
    exact Or.inl ⟨old, oldMem, selected, rfl⟩
  · rw [if_neg selected]
    exact Or.inr ⟨oldMem, Bool.not_eq_true _ |>.mp selected⟩

/-- Conditions that select the same rows. -/
theorem update_congr {first second : α → Bool} {change : α → α} {rows : List α}
    (agree : ∀ row ∈ rows, first row = second row) :
    update first change rows = update second change rows := by
  apply List.map_congr_left
  intro row rowMem
  simp only [agree row rowMem]

/-- A condition that selects no row. -/
theorem update_eq_self {condition : α → Bool} {change : α → α} {rows : List α}
    (selectsNone : ∀ row ∈ rows, condition row = false) : update condition change rows = rows := by
  rw [update_congr selectsNone]
  exact List.map_id' rows

/-- Two updates with a change that can be repeated. -/
theorem update_update {first second : α → Bool} {change : α → α}
    (keeps : ∀ row, second (change row) = second row)
    (again : ∀ row, change (change row) = change row) (rows : List α) :
    update second change (update first change rows) =
      update (fun row => first row || second row) change rows := by
  rw [update, update, update, List.map_map]
  apply List.map_congr_left
  intro row _
  by_cases isFirst : first row = true
  · by_cases isSecond : second row = true
    · simp [isFirst, isSecond, keeps, again]
    · simp [isFirst, isSecond, keeps]
  · simp [isFirst]

/-- An update for each of some keys, with a change that can be repeated, is one update. -/
theorem foldl_update [DecidableEq κ] {change : α → α} (key : α → κ)
    (keeps : ∀ row, key (change row) = key row) (again : ∀ row, change (change row) = change row)
    (keys : List κ) (rows : List α) :
    keys.foldl (fun rows value => update (fun row => key row == value) change rows) rows =
      update (fun row => decide (key row ∈ keys)) change rows := by
  induction keys generalizing rows with
  | nil => exact (update_eq_self fun row _ => decide_eq_false List.not_mem_nil).symm
  | cons value keys ih =>
      rw [List.foldl_cons, ih,
        update_update (fun row => by rw [keeps]) again]
      apply update_congr
      intro row _
      simp [List.mem_cons, beq_eq_decide]

/-- A projection that the change keeps is the same before and after. -/
theorem map_update_of_keeps {condition : α → Bool} {change : α → α} (project : α → β)
    (keeps : ∀ row, project (change row) = project row) (rows : List α) :
    (update condition change rows).map project = rows.map project := by
  rw [update, List.map_map]
  refine List.map_congr_left fun row _ => ?_
  by_cases matched : condition row = true
  · simp [matched, keeps]
  · simp [matched]

/-- An update that neither moves rows in or out of a filter nor changes what is read of the
rows in it. -/
theorem map_filter_update {condition keep : α → Bool} {change : α → α} (project : α → β)
    {rows : List α}
    (kept : ∀ row ∈ rows, condition row = true → keep (change row) = keep row ∧
      (keep row = true → project (change row) = project row)) :
    ((update condition change rows).filter keep).map project = (rows.filter keep).map project := by
  induction rows with
  | nil => rfl
  | cons row rest ih =>
      have rest_eq := ih fun other otherMem =>
        kept other (List.mem_cons_of_mem row otherMem)
      rw [update] at rest_eq
      rw [update, List.map_cons]
      by_cases selected : condition row = true
      · obtain ⟨sameKeep, sameProject⟩ := kept row List.mem_cons_self selected
        rw [if_pos selected, List.filter_cons, List.filter_cons, sameKeep]
        by_cases isKept : keep row = true
        · rw [if_pos isKept, if_pos isKept, List.map_cons, List.map_cons, sameProject isKept, rest_eq]
        · rw [if_neg isKept, if_neg isKept, rest_eq]
      · rw [if_neg selected, List.filter_cons, List.filter_cons]
        by_cases isKept : keep row = true
        · rw [if_pos isKept, if_pos isKept, List.map_cons, List.map_cons, rest_eq]
        · rw [if_neg isKept, if_neg isKept, rest_eq]

/-- An update of rows that a filter drops before and after. -/
theorem filter_update_of_dropped {condition keep : α → Bool} {change : α → α} {rows : List α}
    (dropped : ∀ row ∈ rows, condition row = true → keep row = false ∧ keep (change row) = false) :
    (update condition change rows).filter keep = rows.filter keep := by
  rw [← List.map_id (List.filter _ _), ← List.map_id (List.filter _ rows)]
  apply map_filter_update
  intro row rowMem selected
  obtain ⟨before, after⟩ := dropped row rowMem selected
  refine ⟨after.trans before.symm, ?_⟩
  intro isKept
  rw [before] at isKept
  cases isKept

/-- Looking up by a key that the change keeps finds the row as it is after the update. -/
theorem find?_update [DecidableEq κ] {condition : α → Bool} {change : α → α} (key : α → κ)
    (keeps : ∀ row, key (change row) = key row) (value : κ) (rows : List α) :
    (update condition change rows).find? (fun row => key row = value) =
      (rows.find? fun row => key row = value).map
        fun row => if condition row then change row else row := by
  have sameKey : (fun row => decide (key row = value)) ∘
      (fun row => if condition row then change row else row) =
        fun row => decide (key row = value) := by
    funext row
    by_cases matched : condition row = true
    · simp [matched, keeps]
    · simp [matched]
  rw [update, List.find?_map, sameKey]

/-- An update by key changes the row that the key finds, and no other look-up. -/
theorem find?_update_key [DecidableEq κ] (key : α → κ) (change : α → α)
    (keeps : ∀ row, key (change row) = key row) (target value : κ) (rows : List α) :
    (update (fun row => key row == target) change rows).find? (fun row => key row = value) =
      if value = target then (rows.find? fun row => key row = value).map change
      else rows.find? fun row => key row = value := by
  rw [find?_update key keeps]
  cases found : rows.find? fun row => key row = value with
  | none => simp
  | some row =>
      have hasKey : key row = value := by simpa using List.find?_some found
      by_cases isTarget : value = target
      · simp [hasKey, isTarget]
      · simp [hasKey, isTarget]

/-! ## Repetitions -/

theorem nodup_eraseDups [DecidableEq α] (rows : List α) : rows.eraseDups.Nodup := by
  induction length_eq : rows.length using Nat.strong_induction_on generalizing rows with
  | _ length ih =>
      cases rows with
      | nil => exact List.nodup_nil
      | cons first rest =>
          rw [List.eraseDups_cons, List.nodup_cons]
          constructor
          · intro again
            simpa using List.mem_eraseDups.mp again
          · apply ih _ ?_ _ rfl
            rw [← length_eq]
            exact Nat.lt_succ_of_le (List.length_filter_le _ rest)

/-! ## Keys -/

/-- A unique constraint; rows without a value in the key columns never clash. -/
def UniqueOn (key : α → Option κ) (rows : List α) : Prop :=
  (rows.filterMap key).Nodup

instance [DecidableEq κ] (key : α → Option κ) (rows : List α) : Decidable (UniqueOn key rows) :=
  inferInstanceAs (Decidable (rows.filterMap key).Nodup)

theorem UniqueOn.eq_of_mem {key : α → Option κ} {rows : List α} (unique : UniqueOn key rows)
    {a b : α} {value : κ} (aMem : a ∈ rows) (bMem : b ∈ rows) (aKey : key a = some value)
    (bKey : key b = some value) : a = b := by
  induction rows with
  | nil => exact absurd aMem List.not_mem_nil
  | cons first rest ih =>
      have notLater : ∀ row ∈ rest, key first = some value → key row ≠ some value := by
        intro row rowMem firstKey rowKey
        rw [UniqueOn, List.filterMap_cons_some firstKey, List.nodup_cons] at unique
        exact unique.1 (List.mem_filterMap.mpr ⟨row, rowMem, rowKey⟩)
      have restUnique : UniqueOn key rest :=
        unique.sublist ((List.sublist_cons_self first rest).filterMap key)
      rcases List.mem_cons.mp aMem with rfl | aRest
      · rcases List.mem_cons.mp bMem with rfl | bRest
        · rfl
        · exact absurd bKey (notLater b bRest aKey)
      · rcases List.mem_cons.mp bMem with rfl | bRest
        · exact absurd aKey (notLater a aRest bKey)
        · exact ih restUnique aRest bRest

/-- Looking a stored row up by its key finds that row. -/
theorem UniqueOn.find?_eq_some [DecidableEq κ] {key : α → κ} {rows : List α}
    (unique : UniqueOn (fun row => some (key row)) rows) {row : α} (rowMem : row ∈ rows) :
    rows.find? (fun other => key other = key row) = some row := by
  cases found : rows.find? (fun other => key other = key row) with
  | none => simpa using List.find?_eq_none.mp found row rowMem
  | some other =>
      have sameKey : key other = key row := by simpa using List.find?_some found
      rw [unique.eq_of_mem (List.mem_of_find?_eq_some found) rowMem rfl (by rw [sameKey])]

theorem UniqueOn.update {key : α → κ} {rows : List α}
    (unique : UniqueOn (fun row => some (key row)) rows) (condition : α → Bool)
    {change : α → α} (keeps : ∀ row, key (change row) = key row) :
    UniqueOn (fun row => some (key row)) (update condition change rows) := by
  rw [UniqueOn, ← Function.comp_def some key, List.filterMap_eq_map] at unique ⊢
  rw [map_update_of_keeps key keeps]
  exact unique

/-- A key that the change keeps stays unique. -/
theorem UniqueOn.rewrite {key : α → Option κ} {condition : α → Bool} {change : α → α}
    {rows : List α} (unique : UniqueOn key rows)
    (keeps : ∀ row ∈ rows, condition row = true → key (change row) = key row) :
    UniqueOn key (Table.update condition change rows) := by
  have same : (Table.update condition change rows).filterMap key = rows.filterMap key := by
    rw [Table.update, List.filterMap_map]
    apply List.filterMap_congr
    intro row rowMem
    by_cases selected : condition row = true
    · simp [selected, keeps row rowMem selected]
    · simp [selected]
  rw [UniqueOn, same]
  exact unique

theorem UniqueOn.filter {key : α → Option κ} {rows : List α} (unique : UniqueOn key rows)
    (condition : α → Bool) : UniqueOn key (rows.filter condition) :=
  unique.sublist (List.filter_sublist.filterMap key)

/-- A new row whose key no row has. -/
theorem UniqueOn.append {key : α → κ} {rows : List α} {row : α}
    (unique : UniqueOn (fun row => some (key row)) rows)
    (isNew : ∀ other ∈ rows, key other ≠ key row) :
    UniqueOn (fun row => some (key row)) (rows ++ [row]) := by
  rw [UniqueOn, ← Function.comp_def some key, List.filterMap_eq_map] at unique ⊢
  rw [List.map_append, List.nodup_append]
  refine ⟨unique, List.nodup_singleton (key row), ?_⟩
  intro value valueMem other otherMem
  obtain ⟨old, oldMem, rfl⟩ := List.mem_map.mp valueMem
  rw [List.mem_singleton.mp otherMem]
  exact isNew old oldMem

theorem uniqueOn_iff_pairwise {key : α → Option κ} {rows : List α} :
    UniqueOn key rows ↔
      rows.Pairwise fun a b => ∀ value, key a = some value → key b ≠ some value := by
  rw [UniqueOn, List.Nodup, List.pairwise_filterMap]
  constructor
  · intro distinct
    apply distinct.imp
    intro a b apart value aKey bKey
    exact apart value aKey value bKey rfl
  · intro distinct
    apply distinct.imp
    rintro a b apart value aKey other bKey rfl
    exact apart value aKey bKey

/-- A new row whose key, if it has one, no row has. -/
theorem UniqueOn.append_of_new {key : α → Option κ} {rows : List α} {row : α}
    (unique : UniqueOn key rows)
    (isNew : ∀ value, key row = some value → ∀ other ∈ rows, key other ≠ some value) :
    UniqueOn key (rows ++ [row]) := by
  rw [uniqueOn_iff_pairwise] at unique ⊢
  rw [List.pairwise_append]
  refine ⟨unique, List.pairwise_singleton _ row, ?_⟩
  intro other otherMem last lastMem value otherKey lastKey
  rw [List.mem_singleton.mp lastMem] at lastKey
  exact isNew value lastKey other otherMem otherKey

/-- New rows with keys of their own. -/
theorem UniqueOn.append_all {key : α → κ} {rows more : List α}
    (unique : UniqueOn (fun row => some (key row)) rows) (differ : (more.map key).Nodup)
    (isNew : ∀ row ∈ rows, ∀ other ∈ more, key row ≠ key other) :
    UniqueOn (fun row => some (key row)) (rows ++ more) := by
  rw [UniqueOn, ← Function.comp_def some key, List.filterMap_eq_map] at unique ⊢
  rw [List.map_append, List.nodup_append]
  refine ⟨unique, differ, ?_⟩
  intro value valueMem other otherMem
  rcases List.mem_map.mp valueMem with ⟨row, rowMem, rfl⟩
  rcases List.mem_map.mp otherMem with ⟨later, laterMem, rfl⟩
  exact isNew row rowMem later laterMem

/-- Rows that keep their key or lose it. -/
theorem UniqueOn.update_losing {key : α → Option κ} {condition : α → Bool} {change : α → α}
    {rows : List α} (unique : UniqueOn key rows)
    (loses : ∀ row, key (change row) = key row ∨ key (change row) = none) :
    UniqueOn key (Table.update condition change rows) := by
  rw [uniqueOn_iff_pairwise] at unique ⊢
  have had : ∀ row value, key (if condition row then change row else row) = some value →
      key row = some value := by
    intro row value hasKey
    split at hasKey
    · rcases loses row with same | lost
      · exact same.symm.trans hasKey
      · cases lost.symm.trans hasKey
    · exact hasKey
  rw [Table.update, List.pairwise_map]
  apply unique.imp
  intro a b apart value aKey bKey
  exact apart value (had a value aKey) (had b value bKey)

/-- A row whose key changes to one that no other row has. -/
theorem UniqueOn.update_one {ι : Type*} [DecidableEq ι] {key : α → Option κ} {id : α → ι}
    {change : α → α} {rows : List α} {target : ι} (unique : UniqueOn key rows)
    (ids : UniqueOn (fun row => some (id row)) rows)
    (isNew : ∀ row ∈ rows, id row = target → ∀ other ∈ rows, id other ≠ target →
      ∀ value, key (change row) = some value → key other ≠ some value) :
    UniqueOn key (Table.update (fun row => id row == target) change rows) := by
  rw [uniqueOn_iff_pairwise] at unique ids ⊢
  rw [Table.update, List.pairwise_map]
  apply (unique.and ids).imp_of_mem
  rintro a b aMem bMem ⟨keysApart, idsApart⟩ value aKey bKey
  have differ : id a ≠ id b := fun same => idsApart (id b) (by rw [same]) rfl
  by_cases aTarget : id a = target
  · have bOther : id b ≠ target := fun bTarget => differ (aTarget.trans bTarget.symm)
    simp only [aTarget, beq_self_eq_true, if_true] at aKey
    simp only [bOther, beq_iff_eq, if_false] at bKey
    exact isNew a aMem aTarget b bMem bOther value aKey bKey
  · simp only [aTarget, beq_iff_eq, if_false] at aKey
    by_cases bTarget : id b = target
    · simp only [bTarget, beq_self_eq_true, if_true] at bKey
      exact isNew b bMem bTarget a aMem aTarget value bKey aKey
    · simp only [bTarget, beq_iff_eq, if_false] at bKey
      exact keysApart value aKey bKey

/-! ## Order -/

/-- `ORDER BY`, as a stable sort of the selected rows. -/
def orderBy (before : α → α → Bool) (rows : List α) : List α :=
  rows.insertionSort fun a b => before a b = true

@[simp]
theorem mem_orderBy {before : α → α → Bool} {rows : List α} {row : α} :
    row ∈ orderBy before rows ↔ row ∈ rows :=
  List.mem_insertionSort _

end DotBackend.Data.Table
