import Mathlib.Data.List.Basic
import Mathlib.Order.Basic

/-!
# Sliding windows

A log of entries with times, and the number of entries of a kind in a window of a fixed
width. A limiter counts what is not older than the width before it admits an entry; then no
window ever has more than the limit, wherever it begins. Times may come in any order: only
the entry that is admitted must not be older than the count.
-/

namespace DotBackend.Data

variable {α : Type*} {time : α → Int} {kind counted : α → Bool} {width : Int} {limit : Nat}
  {log : List α} {entry : α}

/-- The entry lies in the window that begins at a time. -/
def inWindow (time : α → Int) (width start : Int) (entry : α) : Bool :=
  start ≤ time entry && time entry ≤ start + width

/-- The number of entries of a kind in a window. -/
def windowCount (time : α → Int) (kind : α → Bool) (width start : Int) (log : List α) : Nat :=
  log.countP fun entry => kind entry && inWindow time width start entry

@[simp]
theorem windowCount_nil (start : Int) : windowCount time kind width start [] = 0 :=
  rfl

theorem windowCount_append (start : Int) (more : List α) :
    windowCount time kind width start (log ++ more) =
      windowCount time kind width start log + windowCount time kind width start more :=
  List.countP_append

/-- No window has more entries of the kind than the limit. -/
def WindowsWithin (time : α → Int) (kind : α → Bool) (width : Int) (limit : Nat) (log : List α) :
    Prop :=
  ∀ start, windowCount time kind width start log ≤ limit

theorem windowsWithin_nil : WindowsWithin time kind width limit [] :=
  fun _ => Nat.zero_le limit

/-- An entry of another kind. -/
theorem WindowsWithin.append_other (within : WindowsWithin time kind width limit log)
    (other : kind entry = false) : WindowsWithin time kind width limit (log ++ [entry]) := by
  intro start
  have none : windowCount time kind width start [entry] = 0 := by
    simp [windowCount, other]
  rw [windowCount_append, none]
  exact within start

/-- The rule of a limiter: it counted fewer entries than the limit, among them those of the kind,
and admits an entry that is not older than the count. -/
theorem WindowsWithin.allow (within : WindowsWithin time kind width limit log) {now : Int}
    (covers : ∀ other, kind other = true → counted other = true)
    (room : (log.filter fun other => counted other && (now - width ≤ time other : Bool)).length <
      limit) (notOlder : now ≤ time entry) :
    WindowsWithin time kind width limit (log ++ [entry]) := by
  intro start
  rw [windowCount_append]
  by_cases isIn : inWindow time width start entry = true
  · -- Whatever shares a window with the entry was counted.
    have earlier : windowCount time kind width start log ≤
        (log.filter fun other => counted other && (now - width ≤ time other : Bool)).length := by
      rw [← List.countP_eq_length_filter]
      apply List.countP_mono_left
      intro other _ shares
      simp only [inWindow, Bool.and_eq_true, decide_eq_true_eq] at shares isIn ⊢
      exact ⟨covers other shares.1, by omega⟩
    have single : windowCount time kind width start [entry] ≤ 1 := List.countP_le_length
    omega
  · rw [Bool.not_eq_true] at isIn
    have none : windowCount time kind width start [entry] = 0 := by
      simp [windowCount, isIn]
    rw [none]
    exact within start

/-- Entries that look the same make the same counts. -/
theorem WindowsWithin.of_map {β : Type*} {look : α → β} {other : List α}
    (sameTime : ∀ a b, look a = look b → time a = time b)
    (sameKind : ∀ a b, look a = look b → kind a = kind b)
    (within : WindowsWithin time kind width limit log) (same : other.map look = log.map look) :
    WindowsWithin time kind width limit other := by
  intro start
  have counts : windowCount time kind width start other = windowCount time kind width start log := by
    clear within
    induction other generalizing log with
    | nil =>
        rw [List.map_nil] at same
        rw [List.map_eq_nil_iff.mp same.symm]
    | cons head tail ih =>
        cases log with
        | nil => cases same
        | cons first rest =>
            rw [List.map_cons, List.map_cons, List.cons.injEq] at same
            have later := ih same.2
            rw [windowCount, List.countP_cons, windowCount, List.countP_cons, inWindow, inWindow,
              sameKind head first same.1, sameTime head first same.1]
            rw [windowCount, windowCount] at later
            rw [later]
  rw [counts]
  exact within start

end DotBackend.Data
