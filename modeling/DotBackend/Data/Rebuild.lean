import DotBackend.Data.Result
import Mathlib.Data.List.Forall2

/-!
# Records rebuilt member by member

A record is rebuilt from what checks return for its members. Checks that accept what they
returned accept the rebuilt record, and what is rebuilt under a key depends on what was read
under that key.
-/

namespace DotBackend.Data

variable {κ ν ε : Type}

/-- A check that accepts what it returned, unchanged. -/
def Stable (check : ν → Except ε ν) : Prop :=
  ∀ value found, check value = .ok found → check found = .ok found

/-- Every member is read, checked, and kept as the check returns it. -/
def rebuild : List (κ × (ν → Except ε ν)) → (κ → ν) → Except ε (List (κ × ν))
  | [], _ => .ok []
  | (key, check) :: members, read => do
      let value ← check (read key)
      let others ← rebuild members read
      pure ((key, value) :: others)

section Rebuilt

variable {members : List (κ × (ν → Except ε ν))} {read other : κ → ν}
  {rebuilt rebuiltOther : List (κ × ν)}

theorem keys_rebuild (isRebuilt : rebuild members read = .ok rebuilt) :
    rebuilt.map Prod.fst = members.map Prod.fst := by
  induction members generalizing rebuilt with
  | nil =>
      cases isRebuilt
      rfl
  | cons member members ih =>
      rcases member with ⟨key, check⟩
      simp only [rebuild, bind_eq_ok, pure_eq_ok] at isRebuilt
      rcases isRebuilt with ⟨value, _, others, othersRebuilt, rfl⟩
      rw [List.map_cons, List.map_cons, ih othersRebuilt]

/-- What was rebuilt is rebuilt again as it is. -/
theorem rebuild_rebuilt (stable : ∀ member ∈ members, Stable member.2)
    (isRebuilt : rebuild members read = .ok rebuilt)
    (reads : ∀ entry ∈ rebuilt, other entry.1 = entry.2) :
    rebuild members other = .ok rebuilt := by
  induction members generalizing rebuilt with
  | nil =>
      cases isRebuilt
      rfl
  | cons member members ih =>
      rcases member with ⟨key, check⟩
      simp only [rebuild, bind_eq_ok, pure_eq_ok] at isRebuilt
      rcases isRebuilt with ⟨value, checked, others, othersRebuilt, rfl⟩
      rcases List.forall_mem_cons.mp stable with ⟨firstStable, othersStable⟩
      rcases List.forall_mem_cons.mp reads with ⟨readsFirst, readsOthers⟩
      have again : check (other key) = .ok value := by
        rw [readsFirst]
        exact firstStable (read key) value checked
      rw [rebuild, again, ih othersStable othersRebuilt readsOthers]
      rfl

/-- Two records are rebuilt alike where they were read alike. -/
theorem forall₂_rebuild (isRebuilt : rebuild members read = .ok rebuilt)
    (otherRebuilt : rebuild members other = .ok rebuiltOther) :
    List.Forall₂ (fun first second => first.1 = second.1 ∧
      (read first.1 = other first.1 → first.2 = second.2)) rebuilt rebuiltOther := by
  induction members generalizing rebuilt rebuiltOther with
  | nil =>
      cases isRebuilt
      cases otherRebuilt
      exact List.Forall₂.nil
  | cons member members ih =>
      rcases member with ⟨key, check⟩
      simp only [rebuild, bind_eq_ok, pure_eq_ok] at isRebuilt otherRebuilt
      rcases isRebuilt with ⟨value, checked, others, othersRebuilt, rfl⟩
      rcases otherRebuilt with ⟨otherValue, otherChecked, otherOthers, otherOthersRebuilt, rfl⟩
      apply List.Forall₂.cons _ (ih othersRebuilt otherOthersRebuilt)
      constructor
      · rfl
      · intro alike
        have same : check (read key) = check (other key) := congrArg check alike
        rw [checked, otherChecked] at same
        exact Except.ok.inj same

end Rebuilt

/-- What a loop that may raise makes of its items. -/
theorem mapM_eq_ok {α β : Type} {f : α → Except ε β} {items : List α} {made : List β} :
    items.mapM f = .ok made ↔ List.Forall₂ (fun a b => f a = .ok b) items made := by
  induction items generalizing made with
  | nil =>
      rw [List.mapM_nil, pure_eq_ok, List.forall₂_nil_left_iff, eq_comm]
  | cons a items ih =>
      simp only [List.mapM_cons, bind_eq_ok, pure_eq_ok, List.forall₂_cons_left_iff,
        ih]
      constructor
      · rintro ⟨b, first, others, othersMade, rfl⟩
        exact ⟨b, others, first, othersMade, rfl⟩
      · rintro ⟨b, others, first, othersMade, rfl⟩
        exact ⟨b, first, others, othersMade, rfl⟩

/-- A loop depends on what is done with its items only. -/
theorem mapM_congr {α β : Type} {f g : α → Except ε β} {items : List α}
    (same : ∀ a ∈ items, f a = g a) : items.mapM f = items.mapM g := by
  induction items with
  | nil => rfl
  | cons a items ih =>
      rcases List.forall_mem_cons.mp same with ⟨first, others⟩
      rw [List.mapM_cons, List.mapM_cons, first, ih others]

end DotBackend.Data
