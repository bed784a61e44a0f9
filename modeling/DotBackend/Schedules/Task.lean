import DotBackend.Data.Columns
import DotBackend.Data.Number
import DotBackend.Data.Table

/-!
# Scheduled tasks

The row of a scheduled task and what claiming, completing, retrying and cancelling make
of it. A time zone is known by its wall clock; the interpreter compares two readings of
one zone by their wall clocks.
-/

namespace DotBackend.Schedules

open Data

/-! ## Time -/

def second : Int := 1000000

def day : Int := 86400 * second

/-- A zone of the time zone database: the wall clock and the fold of an instant, and the
instant of a wall clock reading. A reading that is at least a day later on the wall is
later. -/
structure Zone where
  wall : Instant → Int
  fold : Instant → Bool
  instant : Int → Bool → Instant
  later : ∀ now reading, wall now + day ≤ reading → now < instant reading (fold now)

/-- Coordinated universal time. -/
def Zone.utc : Zone where
  wall now := now
  fold _ := false
  instant reading _ := reading
  later now reading isLater := lt_of_lt_of_le (Int.lt_add_of_pos_right now (by decide)) isLater

/-! ## Rows -/

inductive ScheduledTaskStatus
  | active | processing | completed | paused | cancelled | failed
  deriving DecidableEq

inductive ScheduledTaskRecurrence
  | once | daily | weekly
  deriving DecidableEq

structure ScheduledTask where
  id : Uuid
  userId : Uuid
  actionType : String
  idempotencyKey : String
  title : String
  timezone : String
  recurrence : ScheduledTaskRecurrence
  scheduledFor : Instant
  nextAttemptAt : Instant
  status : ScheduledTaskStatus
  attempts : Nat
  runCount : Nat
  lockedAt : Option Instant
  lastRunAt : Option Instant
  completedAt : Option Instant
  cancelledAt : Option Instant
  error : Option String
  createdAt : Instant
  deriving DecidableEq

/-- A status from which a task may be claimed. -/
def ScheduledTaskStatus.isLive : ScheduledTaskStatus → Bool
  | .active | .processing | .failed => true
  | _ => false

/-- A status that is meant to be the last one. -/
def ScheduledTaskStatus.isFinal : ScheduledTaskStatus → Bool
  | .completed | .cancelled => true
  | _ => false

/-! ## Claiming -/

/-- The condition of `_claim_task`. -/
def ScheduledTask.eligible (now : Instant) (maxAttempts : Nat) (taskId : Option Uuid)
    (task : ScheduledTask) : Bool :=
  ((task.status = .active && task.nextAttemptAt ≤ now) ||
      (task.status = .failed && task.nextAttemptAt ≤ now) ||
      (task.status = .processing && task.lockedAt.any fun locked => locked ≤ now - 300 * second)) &&
    task.attempts < maxAttempts && taskId.all fun id => task.id = id

theorem ScheduledTask.isLive_of_eligible {now : Instant} {maxAttempts : Nat}
    {taskId : Option Uuid} {task : ScheduledTask}
    (eligible : task.eligible now maxAttempts taskId = true) : task.status.isLive = true := by
  cases status_eq : task.status with
  | active | processing | failed => rfl
  | completed | cancelled | paused => simp [ScheduledTask.eligible, status_eq] at eligible

theorem ScheduledTaskStatus.not_isFinal_of_isLive {status : ScheduledTaskStatus}
    (isLive : status.isLive = true) : status.isFinal = false := by
  cases status with
  | active | processing | failed => rfl
  | completed | cancelled | paused => cases isLive

/-- `ORDER BY next_attempt_at, created_at`. -/
def ScheduledTask.dueBefore (a b : ScheduledTask) : Bool :=
  a.nextAttemptAt < b.nextAttemptAt ||
    (a.nextAttemptAt = b.nextAttemptAt && a.createdAt ≤ b.createdAt)

def ScheduledTask.claimed (now : Instant) (task : ScheduledTask) : ScheduledTask :=
  { task with
    status := .processing, attempts := task.attempts + 1, lockedAt := some now, error := none }

/-! ## Settling -/

/-- The loop of `_next_recurring_run` on wall clock readings. -/
def advanceWall (step after : Int) : Nat → Int → Int
  | 0, candidate => candidate
  | fuel + 1, candidate =>
      if candidate ≤ after then advanceWall step after fuel (candidate + step) else candidate

/-- `_next_recurring_run`; `fuel` is the number of steps that the loop takes. -/
def nextRecurringRun (zone : Zone) (task : ScheduledTask) (after : Instant) : Instant :=
  let step := if task.recurrence = .daily then day else 7 * day
  let candidate := zone.wall task.scheduledFor
  let fuel := ((zone.wall after - candidate) / step + 1).toNat
  zone.instant (advanceWall step (zone.wall after) fuel candidate) (zone.fold task.scheduledFor)

/-- The assignments of `_complete_task`; `none` when the zone is unknown. -/
def ScheduledTask.completed? (zones : String → Option Zone) (now : Instant)
    (task : ScheduledTask) : Option ScheduledTask :=
  let settled := {
    task with
    runCount := task.runCount + 1, attempts := 0, lockedAt := none, lastRunAt := some now
    error := none }
  if task.recurrence = .once then some { settled with status := .completed, completedAt := some now }
  else
    (zones task.timezone).map fun zone =>
      let nextRun := nextRecurringRun zone task now
      { settled with scheduledFor := nextRun, nextAttemptAt := nextRun, status := .active }

/-- The assignments of `_retry_task`. -/
def ScheduledTask.retried (now : Instant) (error : String) (task : ScheduledTask) :
    ScheduledTask :=
  let delaySeconds := min (2 ^ max task.attempts 1) 300
  { task with
    status := .failed, error := some (String.ofList (error.toList.take 2000)), lockedAt := none
    nextAttemptAt := now + delaySeconds * second }

/-- The assignments of `cancel_scheduled_task`. -/
def ScheduledTask.cancelled (now : Instant) (task : ScheduledTask) : ScheduledTask :=
  { task with status := .cancelled, cancelledAt := some now, lockedAt := none }

/-- The stored row after the assignments to a row that was loaded before. -/
def ScheduledTask.merge (loaded assigned stored : ScheduledTask) : ScheduledTask :=
  { stored with
    scheduledFor := mergeColumn loaded.scheduledFor assigned.scheduledFor stored.scheduledFor
    nextAttemptAt := mergeColumn loaded.nextAttemptAt assigned.nextAttemptAt stored.nextAttemptAt
    status := mergeColumn loaded.status assigned.status stored.status
    attempts := mergeColumn loaded.attempts assigned.attempts stored.attempts
    runCount := mergeColumn loaded.runCount assigned.runCount stored.runCount
    lockedAt := mergeColumn loaded.lockedAt assigned.lockedAt stored.lockedAt
    lastRunAt := mergeColumn loaded.lastRunAt assigned.lastRunAt stored.lastRunAt
    completedAt := mergeColumn loaded.completedAt assigned.completedAt stored.completedAt
    cancelledAt := mergeColumn loaded.cancelledAt assigned.cancelledAt stored.cancelledAt
    error := mergeColumn loaded.error assigned.error stored.error }

/-! ## The next run -/

theorem le_advanceWall {step : Int} (positive : 0 ≤ step) (after : Int) (fuel : Nat)
    (candidate : Int) : candidate ≤ advanceWall step after fuel candidate := by
  induction fuel generalizing candidate with
  | zero => exact le_refl candidate
  | succ fuel ih =>
      rw [advanceWall]
      split
      · have later := ih (candidate + step)
        omega
      · exact le_refl candidate

/-- When the wall clock has reached the occurrence, the next run is a later instant. -/
theorem lt_nextRecurringRun {zone : Zone} {task : ScheduledTask} {now : Instant}
    (reached : zone.wall task.scheduledFor ≤ zone.wall now) :
    task.scheduledFor < nextRecurringRun zone task now := by
  unfold nextRecurringRun
  apply zone.later
  have dayPositive : (0 : Int) < day := by decide
  set step : Int := if task.recurrence = .daily then day else 7 * day with step_eq
  have atLeastDay : day ≤ step := by
    rw [step_eq]
    split <;> omega
  have someFuel : ((zone.wall now - zone.wall task.scheduledFor) / step + 1).toNat ≠ 0 := by
    have quotient : 0 ≤ (zone.wall now - zone.wall task.scheduledFor) / step :=
      Int.ediv_nonneg (by omega) (by omega)
    omega
  obtain ⟨fuel, fuel_eq⟩ := Nat.exists_eq_succ_of_ne_zero someFuel
  rw [fuel_eq, advanceWall, if_pos reached]
  have grows := le_advanceWall (show 0 ≤ step by omega) (zone.wall now) fuel
    (zone.wall task.scheduledFor + step)
  omega

/-! ## Completing -/

theorem ScheduledTask.completed?_cases {zones : String → Option Zone} {now : Instant}
    {task completed : ScheduledTask} (completes : task.completed? zones now = some completed) :
    completed.runCount = task.runCount + 1 ∧
      ((task.recurrence = .once ∧ completed.status = .completed) ∨
        ∃ zone, zones task.timezone = some zone ∧ task.recurrence ≠ .once ∧
          completed.status = .active ∧
            completed.scheduledFor = nextRecurringRun zone task now) := by
  unfold ScheduledTask.completed? at completes
  simp only at completes
  split at completes
  · rename_i isOnce
    cases completes
    exact ⟨rfl, Or.inl ⟨isOnce, rfl⟩⟩
  · rename_i notOnce
    obtain ⟨zone, zone_eq, rfl⟩ := Option.map_eq_some_iff.mp completes
    exact ⟨rfl, Or.inr ⟨zone, zone_eq, notOnce, rfl, rfl⟩⟩

/-- A completion of a task in progress that nobody changed counts the occurrence, and
leaves the task completed or at a later one. -/
theorem ScheduledTask.merge_completed {zones : String → Option Zone} {now : Instant}
    {loaded completed stored : ScheduledTask}
    (completes : loaded.completed? zones now = some completed)
    (reached : loaded.recurrence = .once ∨ ∀ zone, zones loaded.timezone = some zone →
      zone.wall loaded.scheduledFor ≤ zone.wall now)
    (working : loaded.status = .processing) (sameCount : loaded.runCount = stored.runCount) :
    (loaded.merge completed stored).runCount = stored.runCount + 1 ∧
      (loaded.merge completed stored).status ≠ .processing ∧
        ((loaded.merge completed stored).status = .completed ∨
          loaded.scheduledFor < (loaded.merge completed stored).scheduledFor) := by
  obtain ⟨counts, outcome⟩ := ScheduledTask.completed?_cases completes
  have assignsCount : (loaded.merge completed stored).runCount = completed.runCount :=
    mergeColumn_assigned (by omega) stored.runCount
  have assignsStatus : completed.status ≠ .processing →
      (loaded.merge completed stored).status = completed.status := by
    intro differs
    exact mergeColumn_assigned (by rwa [working]) stored.status
  refine ⟨by omega, ?_⟩
  rcases outcome with ⟨_, isCompleted⟩ | ⟨zone, zone_eq, notOnce, isActive, movesTo⟩
  · rw [assignsStatus (by simp [isCompleted]), isCompleted]
    exact ⟨ScheduledTaskStatus.noConfusion, Or.inl rfl⟩
  · rw [assignsStatus (by simp [isActive]), isActive]
    refine ⟨ScheduledTaskStatus.noConfusion, Or.inr ?_⟩
    have isReached : zone.wall loaded.scheduledFor ≤ zone.wall now := by
      rcases reached with isOnce | isReached
      · exact absurd isOnce notOnce
      · exact isReached zone zone_eq
    have later := lt_nextRecurringRun isReached
    rw [← movesTo] at later
    have assigns : (loaded.merge completed stored).scheduledFor = completed.scheduledFor :=
      mergeColumn_assigned (ne_of_gt later) stored.scheduledFor
    rwa [assigns]

end DotBackend.Schedules
