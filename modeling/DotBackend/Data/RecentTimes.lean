import Mathlib.Algebra.Order.Group.Defs
import Mathlib.Data.List.Basic
import Mathlib.Data.List.TakeWhile

/-!
# Windows that move with the clock

Times are recorded in the order of the clock, and a window of a fixed width ends at the time that
is read from it; it is open at its old end. What has left the window may be forgotten, and what
is kept then is all that is in the window.
-/

namespace DotBackend.Data

variable {τ : Type*} [AddCommGroup τ] [LinearOrder τ]

/-- The times in the window that ends now. -/
def recent (width now : τ) (times : List τ) : List τ :=
  times.filter fun t => now - width < t && t ≤ now

/-- The oldest times are dropped while they are not in the window. -/
def expire (width now : τ) (times : List τ) : List τ :=
  times.dropWhile fun t => t ≤ now - width

/-- All times but some that have left the window are kept. -/
def Remembers (width now : τ) (all kept : List τ) : Prop :=
  ∃ dropped, all = dropped ++ kept ∧ ∀ t ∈ dropped, t ≤ now - width

/-- No window has more times than the limit, wherever it ends. -/
def AtMostRecent (width : τ) (limit : Nat) (times : List τ) : Prop :=
  ∀ now, (recent width now times).length ≤ limit

section Window

variable {width now later time : τ} {all kept times : List τ} {limit : Nat}

theorem recent_append (more : List τ) :
    recent width now (times ++ more) = recent width now times ++ recent width now more :=
  List.filter_append ..

theorem Remembers.nil : Remembers width now [] [] :=
  ⟨[], rfl, List.forall_mem_nil _⟩

theorem Remembers.append (remembers : Remembers width now all kept) :
    Remembers width now (all ++ [time]) (kept ++ [time]) := by
  rcases remembers with ⟨dropped, rfl, old⟩
  exact ⟨dropped, List.append_assoc .., old⟩

theorem Remembers.expire (remembers : Remembers width now all kept) :
    Remembers width now all (expire width now kept) := by
  rcases remembers with ⟨dropped, rfl, old⟩
  refine ⟨dropped ++ kept.takeWhile fun t => t ≤ now - width, ?_, ?_⟩
  · rw [List.append_assoc, Data.expire, List.takeWhile_append_dropWhile]
  · rw [List.forall_mem_append]
    constructor
    · exact old
    · intro t tMem
      have isOld := List.mem_takeWhile_imp tMem
      exact of_decide_eq_true isOld

/-- In order, the times that are not dropped are those of the window. -/
theorem expire_eq_recent_of_sorted (sorted : times.Pairwise (· ≤ ·)) (past : ∀ t ∈ times, t ≤ now) :
    expire width now times = recent width now times := by
  induction times with
  | nil => rfl
  | cons t times ih =>
      rcases List.pairwise_cons.mp sorted with ⟨oldest, others⟩
      rcases List.forall_mem_cons.mp past with ⟨tPast, othersPast⟩
      rw [expire, recent, List.dropWhile_cons, List.filter_cons]
      by_cases isOld : t ≤ now - width
      · have notRecent : (decide (now - width < t) && decide (t ≤ now)) = false := by
          simp [not_lt.mpr isOld]
        rw [if_pos (decide_eq_true isOld), notRecent, if_neg Bool.false_ne_true]
        exact ih others othersPast
      · have isRecent : ∀ u ∈ t :: times, (decide (now - width < u) && decide (u ≤ now)) = true := by
          intro u uMem
          have young : now - width < u := by
            rcases List.mem_cons.mp uMem with rfl | isLater
            · exact not_le.mp isOld
            · exact lt_of_lt_of_le (not_le.mp isOld) (oldest u isLater)
          simp [young, past u uMem]
        have all : times.filter (fun t => decide (now - width < t) && decide (t ≤ now)) = times :=
          List.filter_eq_self.mpr fun u uMem => isRecent u (List.mem_cons_of_mem t uMem)
        rw [if_neg fun isTrue => isOld (of_decide_eq_true isTrue),
          if_pos (isRecent t List.mem_cons_self), all]

/-- What is kept after the oldest were dropped are the times of the window. -/
theorem Remembers.expire_eq_recent (remembers : Remembers width now all kept)
    (sorted : all.Pairwise (· ≤ ·)) (past : ∀ t ∈ all, t ≤ now) :
    Data.expire width now kept = recent width now all := by
  rcases remembers with ⟨dropped, rfl, old⟩
  rw [List.forall_mem_append] at past
  have noneRecent : recent width now dropped = [] := by
    rw [recent, List.filter_eq_nil_iff]
    intro t tMem isRecent
    rw [Bool.and_eq_true, decide_eq_true_eq] at isRecent
    exact absurd isRecent.1 (not_lt.mpr (old t tMem))
  rw [recent_append, noneRecent, List.nil_append,
    expire_eq_recent_of_sorted (List.pairwise_append.mp sorted).2.1 past.2]

variable [IsOrderedAddMonoid τ]

/-- What was kept at a time is enough for any later time. -/
theorem Remembers.mono (remembers : Remembers width now all kept) (isLater : now ≤ later) :
    Remembers width later all kept := by
  rcases remembers with ⟨dropped, split, old⟩
  refine ⟨dropped, split, ?_⟩
  intro t tMem
  exact le_trans (old t tMem) (sub_le_sub_right isLater width)

/-- A window with room takes one more time, the newest. -/
theorem AtMostRecent.append (within : AtMostRecent width limit times) (past : ∀ t ∈ times, t ≤ time)
    (room : (recent width time times).length < limit) : AtMostRecent width limit (times ++ [time]) := by
  intro now
  rw [recent_append, List.length_append]
  by_cases isIn : now - width < time ∧ time ≤ now
  · -- whatever shares a window with the newest time is in the window that ends there
    have earlier : (recent width now times).length ≤ (recent width time times).length := by
      rw [recent, recent, ← List.countP_eq_length_filter, ← List.countP_eq_length_filter]
      apply List.countP_mono_left
      intro t tMem isRecent
      rw [Bool.and_eq_true, decide_eq_true_eq, decide_eq_true_eq] at isRecent ⊢
      exact ⟨lt_of_le_of_lt (sub_le_sub_right isIn.2 width) isRecent.1, past t tMem⟩
    have single : (recent width now [time]).length ≤ 1 := List.length_filter_le _ [time]
    omega
  · have none : recent width now [time] = [] := by
      rw [recent, List.filter_eq_nil_iff]
      intro t tMem isRecent
      rw [List.mem_singleton.mp tMem, Bool.and_eq_true, decide_eq_true_eq, decide_eq_true_eq] at isRecent
      exact isIn isRecent
    rw [none, List.length_nil, Nat.add_zero]
    exact within now

/-- Once the oldest time of a window has left it, there is one time less. -/
theorem recent_freed {first : τ} {rest : List τ} (past : ∀ t ∈ times, t ≤ now)
    (isFirst : recent width now times = first :: rest) (freed : first + width ≤ later) :
    (recent width later times).length ≤ rest.length := by
  have firstRecent : now - width < first := by
    have firstMem : first ∈ recent width now times := isFirst ▸ List.mem_cons_self
    rw [recent, List.mem_filter, Bool.and_eq_true, decide_eq_true_eq] at firstMem
    exact firstMem.2.1
  have fewer : (recent width later times).length ≤
      ((recent width now times).filter fun t => first < t).length := by
    rw [recent, recent, List.filter_filter, ← List.countP_eq_length_filter,
      ← List.countP_eq_length_filter]
    apply List.countP_mono_left
    intro t tMem isRecent
    simp only [Bool.and_eq_true, decide_eq_true_eq] at isRecent ⊢
    have younger : first < t := lt_of_le_of_lt (le_sub_iff_add_le.mpr freed) isRecent.1
    exact ⟨younger, lt_trans firstRecent younger, past t tMem⟩
  rw [isFirst, List.filter_cons, if_neg (by simp)] at fewer
  exact le_trans fewer (List.length_filter_le _ rest)

end Window

end DotBackend.Data
