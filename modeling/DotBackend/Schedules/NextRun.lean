import DotBackend.Schedules.TimeOfDay

/-!
# The next run of a recurring task

The occurrences of a recurring task are the instants of its time of day, whole steps after
the scheduled date. The loop looks for the first one that is later on the wall clock; where
the clocks are moved, that need not be the first one that is later.
-/

namespace DotBackend.Schedules

open Data

variable {zone : Zone} {task : ScheduledTask} {after : Instant}

/-! ## Occurrences -/

/-- The scheduled time of day on the wall clock, a number of steps later. -/
def ScheduledTask.reading (zone : Zone) (task : ScheduledTask) (count : Nat) : Int :=
  zone.wall task.scheduledFor + count * task.period

/-- The instant of a reading; where it does not exist, the gap rule decides. -/
def ScheduledTask.occurrence (zone : Zone) (task : ScheduledTask) (count : Nat) : Instant :=
  zone.instant (task.reading zone count) (zone.fold task.scheduledFor)

/-- Readings that are a day apart are not the other way round in time: no clock is moved on
by more than a day. -/
def Zone.Steady (zone : Zone) : Prop :=
  ∀ fold reading later, reading + day ≤ later → zone.instant reading fold ≤ zone.instant later fold

/-- A run is the first occurrence that is later than `after`. -/
structure IsNextRun (zone : Zone) (task : ScheduledTask) (after run : Instant) : Prop where
  occurs : ∃ count, run = task.occurrence zone count ∧
    (zone.Reads (task.reading zone count) → zone.wall run = task.reading zone count)
  later : after < run
  first : ∀ count, after < task.occurrence zone count → run ≤ task.occurrence zone count

/-- The occurrences are before and after an instant as their readings are before and after
the reading of that instant. An occurrence whose reading is not later may still be later, if
one whose reading is later is not after it, on a date that a zone skips. -/
structure WallOrders (zone : Zone) (task : ScheduledTask) (after : Instant) : Prop where
  later : ∀ count, zone.wall after < task.reading zone count → after < task.occurrence zone count
  notLater : ∀ count, task.reading zone count ≤ zone.wall after →
    task.occurrence zone count ≤ after ∨ ∃ other, zone.wall after < task.reading zone other ∧
      task.occurrence zone other ≤ task.occurrence zone count

/-! ## Order -/

theorem ScheduledTask.reading_le {count other : Nat} (before : count ≤ other) :
    task.reading zone count ≤ task.reading zone other := by
  have product : (count : Int) * task.period ≤ other * task.period :=
    Int.mul_le_mul_of_nonneg_right (Int.ofNat_le.mpr before) task.period_pos.le
  unfold ScheduledTask.reading
  omega

theorem day_le_period (task : ScheduledTask) : day ≤ task.period := by
  unfold ScheduledTask.period
  split <;> decide

/-- Later occurrences are not earlier. -/
theorem ScheduledTask.occurrence_le (steady : zone.Steady) {count other : Nat}
    (before : count ≤ other) : task.occurrence zone count ≤ task.occurrence zone other := by
  rcases Nat.eq_or_lt_of_le before with rfl | isBefore
  · exact le_refl _
  · apply steady
    have next := @reading_le zone task (count + 1) other isBefore
    have period := day_le_period task
    have one_more : ((count + 1 : Nat) : Int) * task.period =
        count * task.period + task.period := by
      push_cast
      ring
    unfold ScheduledTask.reading at next ⊢
    omega

/-- A reading that is later on the wall comes with or after the next one. -/
theorem NextReading.le_of_later {count other : Nat}
    (next : NextReading task.period (zone.wall task.scheduledFor) (zone.wall after)
      (task.reading zone count)) (later : zone.wall after < task.reading zone other) :
    count ≤ other := by
  by_contra notLe
  have earlier := @ScheduledTask.reading_le zone task (other + 1) count (by omega)
  have one_more : ((other + 1 : Nat) : Int) * task.period = other * task.period + task.period := by
    push_cast
    ring
  have positive := task.period_pos
  unfold ScheduledTask.reading at earlier later next
  rcases next.first with isScheduled | isReached
  · have notNegative := Int.mul_nonneg (Int.natCast_nonneg other) positive.le
    omega
  · omega

/-! ## The next run -/

/-- The loop ends at the first occurrence that is later on the wall clock. -/
theorem exists_nextRecurringRun (zone : Zone) (task : ScheduledTask) (after : Instant) :
    ∃ count, NextReading task.period (zone.wall task.scheduledFor) (zone.wall after)
        (task.reading zone count) ∧
      nextRecurringRun zone task after = task.occurrence zone count := by
  obtain ⟨reading, next, run_eq⟩ := @nextRecurringRun_eq zone task after
  obtain ⟨count, rfl⟩ := next.whole
  exact ⟨count, next, run_eq⟩

/-- The loop returns the next run exactly where the wall clock orders the occurrences. -/
theorem nextRecurringRun_isNextRun_iff (exact_ : zone.Exact) (steady : zone.Steady) :
    IsNextRun zone task after (nextRecurringRun zone task after) ↔
      WallOrders zone task after := by
  obtain ⟨count, next, run_eq⟩ := exists_nextRecurringRun zone task after
  rw [run_eq]
  constructor
  · intro isNext
    constructor
    · intro other later
      have notBefore : task.occurrence zone count ≤ task.occurrence zone other :=
        ScheduledTask.occurrence_le steady (next.le_of_later later)
      exact lt_of_lt_of_le isNext.later notBefore
    · intro other _
      by_cases isLater : after < task.occurrence zone other
      · exact Or.inr ⟨count, next.later, isNext.first other isLater⟩
      · exact Or.inl (not_lt.mp isLater)
  · intro orders
    constructor
    · refine ⟨count, rfl, ?_⟩
      intro reads
      exact exact_.wall_instant_of_reads reads _
    · exact orders.later count next.later
    · intro other isLater
      by_cases later : zone.wall after < task.reading zone other
      · exact ScheduledTask.occurrence_le steady (next.le_of_later later)
      · rcases orders.notLater other (not_lt.mp later) with notAfter | ⟨third, thirdLater, before⟩
        · exact absurd isLater (not_lt.mpr notAfter)
        · exact (ScheduledTask.occurrence_le steady (next.le_of_later thirdLater)).trans before

/-! ## Where the clocks are moved -/

theorem newYork_steady : newYork.Steady := by
  intro fold reading later dayApart
  change newYorkInstant reading fold ≤ newYorkInstant later fold
  have dayLonger : hour < day := by decide
  have hourPositive := hour_pos
  unfold newYorkInstant
  split <;> split <;> rename_i first second <;>
    simp only [Bool.or_eq_true, Bool.and_eq_true, decide_eq_true_eq] at first second <;> omega

/-- Ten past three in the night in which two o'clock became three. -/
def tenPastThree : Instant := springForward + 600 * second

/-- The run of half past two, which the gap rule puts at half past three, is left out. -/
theorem skipped_hour_leaves_run_out :
    ¬ ∀ (zone : Zone) (task : ScheduledTask) (after : Instant), zone.Exact → zone.Steady →
      task.recurrence = .daily → IsNextRun zone task after (nextRecurringRun zone task after) := by
  intro claimed
  have isNext := claimed newYork (dailyTask halfPastTwo) tenPastThree newYork_exact
    newYork_steady rfl
  have isLater : tenPastThree < (dailyTask halfPastTwo).occurrence newYork 1 := by
    decide
  have tooLate := isNext.first 1 isLater
  exact absurd tooLate (by decide)

theorem utc_exact : Zone.utc.Exact where
  wall_instant _ _ := rfl

/-- In universal time the next run of a task is the next run. -/
theorem utc_next_run : IsNextRun Zone.utc (dailyTask halfPastTwo) tenPastThree
    (nextRecurringRun Zone.utc (dailyTask halfPastTwo) tenPastThree) := by
  have steady : Zone.utc.Steady := by
    intro fold reading later dayApart
    change reading ≤ later
    have positive : 0 < day := by decide
    omega
  apply (nextRecurringRun_isNextRun_iff utc_exact steady).mpr
  constructor
  · exact fun _ later => later
  · exact fun _ notLater => Or.inl notLater

end DotBackend.Schedules
