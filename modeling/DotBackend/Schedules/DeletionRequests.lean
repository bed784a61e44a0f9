import DotBackend.Schedules.AccountDeletion
import DotBackend.Schedules.LifeCycle

/-!
# Requested account deletions

A request reuses the newest deletion of the user that has not ended. The workers claim a
task only while it has attempts left, which the request does not ask.
-/

namespace DotBackend.Schedules

open Data Transition Transaction

variable {zones : String → Option Zone} {db after : ScheduleDb} {userId fresh : Uuid}
  {now : Instant} {task : ScheduledTask} {maxAttempts : Nat}

/-- `create_scheduled_task` for a caller that commits. -/
def createScheduledTask (zones : String → Option Zone) (task : NewTask) (now : Instant)
    (db : ScheduleDb) : Option (ScheduledTask × ScheduleDb) :=
  match db.tasks.find? fun row => row.idempotencyKey = task.idempotencyKey with
  | some existing => some (existing, db)
  | none =>
      if task.valid zones now then
        some ({ task.row now with id := db.nextId }, insertTask (task.row now) db)
      else none

/-- The statuses in which `schedule_account_deletion` reuses a task. -/
def reusedStatuses : List ScheduledTaskStatus :=
  [.active, .processing, .failed]

/-- `schedule_account_deletion` for a caller that commits, with the identifier that it
draws. -/
def scheduleAccountDeletion (zones : String → Option Zone) (userId fresh : Uuid) (now : Instant)
    (db : ScheduleDb) : Option (ScheduledTask × ScheduleDb) :=
  match newestDeletion reusedStatuses userId db with
  | some existing => some (existing, db)
  | none => createScheduledTask zones (deletionTask userId fresh now) now db

/-- A worker will select the task at some later time. -/
def WillRun (maxAttempts : Nat) (now : Instant) (task : ScheduledTask) : Prop :=
  ∃ later, now ≤ later ∧ task.eligible later maxAttempts none = true

/-- The task can be claimed again: it has attempts left, and a lock when it is in progress. -/
def ScheduledTask.claimable (maxAttempts : Nat) (task : ScheduledTask) : Prop :=
  task.attempts < maxAttempts ∧ (task.status = .processing → task.lockedAt ≠ none)

theorem willRun_iff (live : task.status.isLive = true) :
    WillRun maxAttempts now task ↔ task.claimable maxAttempts := by
  constructor
  · rintro ⟨later, _, eligible⟩
    simp only [ScheduledTask.eligible, Bool.and_eq_true, decide_eq_true_eq] at eligible
    obtain ⟨⟨stale, left⟩, _⟩ := eligible
    refine ⟨left, ?_⟩
    intro working unlocked
    simp [working, unlocked] at stale
  · rintro ⟨left, locked⟩
    cases status_eq : task.status with
    | active | failed =>
        refine ⟨max now task.nextAttemptAt, le_max_left _ _, ?_⟩
        simp [ScheduledTask.eligible, status_eq, left]
    | processing =>
        obtain ⟨lock, isLocked⟩ := Option.ne_none_iff_exists'.mp (locked status_eq)
        refine ⟨max now (lock + 300 * second), le_max_left _ _, ?_⟩
        have isStale : lock ≤ max now (lock + 300 * second) - 300 * second :=
          Int.le_sub_right_of_add_le (le_max_right _ _)
        simp [ScheduledTask.eligible, status_eq, isLocked, left, isStale]
    | completed | cancelled | paused =>
        rw [status_eq] at live
        cases live

/-- The newest deletion that a request finds is in one of the statuses that it asks for. -/
theorem newestDeletion_isLive (found : newestDeletion reusedStatuses userId db = some task) :
    task.status.isLive = true := by
  have selected := Table.mem_orderBy.mp (List.mem_of_head? found)
  simp only [List.mem_filter, decide_eq_true_eq, reusedStatuses, List.mem_cons,
    List.not_mem_nil, or_false] at selected
  obtain ⟨_, _, _, isActive | isProcessing | isFailed⟩ := selected
  · rw [isActive]
    rfl
  · rw [isProcessing]
    rfl
  · rw [isFailed]
    rfl

/-- The task that a request returns will be selected if and only if workers make attempts at
all, and the newest deletion that has not ended, if there is one, can be claimed again. -/
theorem requested_deletion_runs_iff
    (isFresh : ∀ row ∈ db.tasks, row.idempotencyKey ≠ (deletionTask userId fresh now).idempotencyKey)
    (scheduled : scheduleAccountDeletion zones userId fresh now db = some (task, after)) :
    WillRun maxAttempts now task ↔ 0 < maxAttempts ∧
      ∀ existing, newestDeletion reusedStatuses userId db = some existing →
        existing.claimable maxAttempts := by
  unfold scheduleAccountDeletion at scheduled
  split at scheduled
  · rename_i existing found
    cases scheduled
    rw [willRun_iff (newestDeletion_isLive found)]
    constructor
    · intro claimable
      refine ⟨Nat.zero_lt_of_lt claimable.1, ?_⟩
      intro other otherFound
      cases found.symm.trans otherFound
      exact claimable
    · exact fun condition => condition.2 task found
  · rename_i noneFound
    have absent : db.tasks.find? (fun row => row.idempotencyKey =
        (deletionTask userId fresh now).idempotencyKey) = none := by
      rw [List.find?_eq_none]
      intro row rowMem
      simpa using isFresh row rowMem
    simp only [createScheduledTask, absent] at scheduled
    split at scheduled
    · cases scheduled
      rw [willRun_iff rfl]
      constructor
      · intro claimable
        refine ⟨claimable.1, ?_⟩
        intro existing found
        cases noneFound.symm.trans found
      · rintro ⟨positive, _⟩
        exact ⟨positive, fun working => nomatch working⟩
    · cases scheduled

/-- The first request of a user is carried out. -/
theorem first_request_runs :
    ∃ task after, scheduleAccountDeletion utcOnly 7 0 0 ScheduleDb.empty = some (task, after) ∧
      (WillRun 8 0 task ↔ 0 < 8 ∧
        ∀ existing, newestDeletion reusedStatuses 7 ScheduleDb.empty = some existing →
          existing.claimable 8) := by
  have succeeds : (scheduleAccountDeletion utcOnly 7 0 0 ScheduleDb.empty).isSome = true := by
    decide
  obtain ⟨⟨task, after⟩, scheduled⟩ := Option.isSome_iff_exists.mp succeeds
  refine ⟨task, after, scheduled, ?_⟩
  apply requested_deletion_runs_iff _ scheduled
  exact fun row rowMem => absurd rowMem List.not_mem_nil

/-! ## A deletion that fails on every attempt -/

/-- A worker claims what is due, and fails. -/
def failedAttempt (worker : Nat) : List (Event Point Input) :=
  let now : Instant := worker * 1000 * second
  [.start worker (.claimTask 8 none), tick worker now, tick worker now] ++ fail worker now

/-- The account is to be deleted, and eight workers fail to. -/
def failedDeletion : List (Event Point Input) :=
  scheduleAccount ++ [1, 2, 3, 4, 5, 6, 7, 8].flatMap failedAttempt

/-- The next request returns a task that no worker selects any more. -/
theorem failed_deletion_is_reused :
    ∃ later : System ScheduleDb Uuid Point,
      Run (System.step (protocol utcOnly)) (fun _ _ => True) (System.idle ScheduleDb.empty) later ∧
      ∃ task, scheduleAccountDeletion utcOnly 7 1 (9000 * second) later.database =
          some (task, later.database) ∧ ¬WillRun 8 (9000 * second) task := by
  have runs : (execute (System.step (protocol utcOnly)) (fun _ _ => true)
      (System.idle ScheduleDb.empty) failedDeletion).any (fun later =>
        (newestDeletion reusedStatuses 7 later.database).any fun task =>
          task.status = .failed && task.attempts = 8) = true := by
    decide
  simp only [Option.any_eq_true, Bool.and_eq_true, decide_eq_true_eq] at runs
  obtain ⟨later, toLater, task, found, hasFailed, exhausted⟩ := runs
  refine ⟨later, (run_of_execute toLater).mono fun _ _ _ => True.intro, task, ?_, ?_⟩
  · simp only [scheduleAccountDeletion, found]
  · rw [willRun_iff (newestDeletion_isLive found)]
    rintro ⟨left, _⟩
    rw [exhausted] at left
    exact Nat.lt_irrefl 8 left

end DotBackend.Schedules
