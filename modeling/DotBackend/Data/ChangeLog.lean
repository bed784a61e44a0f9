import Mathlib.Data.List.Induction
import Mathlib.Logic.Function.Basic

/-!
# Change logs

A log of changes to a keyed collection says for each key in turn which value it has from
then on, or that it has none. What the log leaves behind depends on the last change of each
key only, which is what makes replaying it a second time do nothing.
-/

namespace DotBackend.Data

/-- A key has a new value, or none any longer. -/
structure Change (κ ν : Type) where
  key : κ
  outcome : Option ν
  deriving DecidableEq

namespace ChangeLog

variable {κ ν : Type} [DecidableEq κ]

/-- The collection after one change. -/
def apply (live : κ → Option ν) (change : Change κ ν) : κ → Option ν :=
  Function.update live change.key change.outcome

/-- The collection after all changes of a log. -/
def replay (live : κ → Option ν) (log : List (Change κ ν)) : κ → Option ν :=
  log.foldl apply live

/-- The last change of a key. -/
def last (log : List (Change κ ν)) (key : κ) : Option (Change κ ν) :=
  (log.filter fun change => change.key = key).getLast?

@[simp]
theorem replay_nil (live : κ → Option ν) : replay live [] = live := rfl

@[simp]
theorem last_nil (key : κ) : last ([] : List (Change κ ν)) key = none := rfl

theorem replay_concat (live : κ → Option ν) (log : List (Change κ ν)) (change : Change κ ν) :
    replay live (log ++ [change]) = apply (replay live log) change := by
  rw [replay, List.foldl_append]
  rfl

theorem last_concat (log : List (Change κ ν)) (change : Change κ ν) (key : κ) :
    last (log ++ [change]) key = if change.key = key then some change else last log key := by
  by_cases isKey : change.key = key
  · simp [last, isKey]
  · simp [last, isKey]

theorem mem_of_last {log : List (Change κ ν)} {key : κ} {change : Change κ ν}
    (isLast : last log key = some change) : change ∈ log ∧ change.key = key := by
  have filtered := List.mem_filter.mp (List.mem_of_getLast? isLast)
  exact ⟨filtered.1, of_decide_eq_true filtered.2⟩

theorem last_eq_none_iff {log : List (Change κ ν)} {key : κ} :
    last log key = none ↔ ∀ change ∈ log, change.key ≠ key := by
  simp [last, List.getLast?_eq_none_iff, List.filter_eq_nil_iff]

/-- A replay decides a key by the last change of it. -/
theorem replay_eq (live : κ → Option ν) (log : List (Change κ ν)) (key : κ) :
    replay live log key =
      match last log key with
      | none => live key
      | some change => change.outcome := by
  induction log using List.reverseRecOn with
  | nil => rfl
  | append_singleton log change ih =>
      rw [replay_concat, last_concat, apply]
      by_cases isKey : change.key = key
      · rw [if_pos isKey, ← isKey, Function.update_self]
      · rw [if_neg isKey, Function.update_of_ne (Ne.symm isKey), ih]

/-! ## Logs of which only some changes are applied -/

/-- Where the last change is applied, leaving other changes out loses nothing. -/
theorem last_filter {applied : Change κ ν → Bool} {log : List (Change κ ν)} {key : κ}
    {change : Change κ ν} (isLast : last log key = some change) (isApplied : applied change = true) :
    last (log.filter applied) key = some change := by
  induction log using List.reverseRecOn with
  | nil => cases isLast
  | append_singleton log latest ih =>
      rw [last_concat] at isLast
      by_cases isKey : latest.key = key
      · rw [if_pos isKey] at isLast
        cases isLast
        rw [List.filter_append, List.filter_cons_of_pos isApplied, List.filter_nil, last_concat,
          if_pos isKey]
      · rw [if_neg isKey] at isLast
        rw [List.filter_append]
        by_cases latestApplied : applied latest = true
        · rw [List.filter_cons_of_pos latestApplied, List.filter_nil, last_concat, if_neg isKey]
          exact ih isLast
        · rw [List.filter_cons_of_neg latestApplied, List.filter_nil, List.append_nil]
          exact ih isLast

/-- Leaving changes out of a log loses nothing where every last change that is left out
finds its outcome in place, and nowhere else. -/
theorem replay_filter_eq_iff (live : κ → Option ν) (log : List (Change κ ν))
    (applied : Change κ ν → Bool) :
    replay live (log.filter applied) = replay live log ↔
      ∀ key change, last log key = some change → applied change = true ∨
        replay live (log.filter applied) key = change.outcome := by
  constructor
  · intro same key change isLast
    right
    rw [same, replay_eq, isLast]
  · intro lasts
    funext key
    rw [replay_eq live log]
    cases isLast : last log key with
    | none =>
        have unchanged : last (log.filter applied) key = none := by
          rw [last_eq_none_iff] at isLast ⊢
          intro change changeMem
          exact isLast change (List.mem_filter.mp changeMem).1
        rw [replay_eq, unchanged]
    | some change =>
        rcases lasts key change isLast with isApplied | inPlace
        · rw [replay_eq, last_filter isLast isApplied]
        · exact inPlace

end ChangeLog

/-! ## One value that is overwritten -/

/-- A value after some writes, each of which puts a new value or leaves the old one. -/
def overwrite {ν : Type} (writes : List (Option ν)) (value : ν) : ν :=
  writes.foldl (fun value write => write.getD value) value

theorem overwrite_concat {ν : Type} (writes : List (Option ν)) (write : Option ν) (value : ν) :
    overwrite (writes ++ [write]) value = write.getD (overwrite writes value) := by
  rw [overwrite, List.foldl_append]
  rfl

/-- A value that some writes leave as it is stays so after one more write. -/
theorem overwrite_settled {ν : Type} {writes : List (Option ν)} {value : ν}
    (settled : overwrite writes value = value) (write : Option ν) :
    overwrite (writes ++ [write]) (write.getD value) = write.getD value := by
  rw [overwrite_concat]
  cases write with
  | none => exact settled
  | some written => rfl

end DotBackend.Data
