import DotBackend.Schedules.Task
import DotBackend.Transaction.ReadCommitted

/-!
# The transactions on scheduled tasks

The program points of creating, claiming, dispatching, settling and cancelling tasks,
and of scheduling, cancelling and executing an account deletion. The outcome of the
dispatched work and every clock reading come from outside. The history columns record
which occurrences were dispatched and counted, which accounts were purged and which
deletions were cancelled; the service does not read them.
-/

namespace DotBackend.Schedules

open Data Transaction

variable {now : Instant} {db : ScheduleDb} {point : Point} {zones : String → Option Zone}

/-- The table of tasks, the supply of identifiers, and the history. -/
structure ScheduleDb where
  tasks : List ScheduledTask
  nextId : Uuid
  /-- The claims that were committed, by task. -/
  claims : List Uuid
  /-- The occurrences whose work was done. -/
  dispatches : List (Uuid × Instant)
  /-- The occurrences that were counted as completed. -/
  completions : List (Uuid × Instant)
  /-- The users whose accounts were purged. -/
  purges : List Uuid
  /-- The users who were told that their deletion is cancelled. -/
  cancelledDeletions : List Uuid
  deriving DecidableEq

def ScheduleDb.empty : ScheduleDb where
  tasks := []
  nextId := 0
  claims := []
  dispatches := []
  completions := []
  purges := []
  cancelledDeletions := []

namespace ScheduleDb

/-- `session.get(ScheduledTask, id)`. -/
def task? (db : ScheduleDb) (id : Uuid) : Option ScheduledTask :=
  db.tasks.find? fun task => task.id = id

/-- An `UPDATE` of one row. -/
def updateTask (db : ScheduleDb) (id : Uuid) (change : ScheduledTask → ScheduledTask) :
    ScheduleDb :=
  { db with tasks := Table.update (fun task => task.id == id) change db.tasks }

/-- The number of claims of a task so far. -/
def claimCount (db : ScheduleDb) (id : Uuid) : Nat :=
  db.claims.count id

end ScheduleDb

/-- What a session reads from outside the database at one point. -/
structure Input where
  now : Instant
  /-- What the dispatched work raised. -/
  failure : Option String
  /-- Whether the caller of a cancellation or a creation commits. -/
  commits : Bool
  /-- A random identifier. -/
  fresh : Uuid

/-- The arguments of `create_scheduled_task`. -/
structure NewTask where
  userId : Uuid
  actionType : String
  idempotencyKey : String
  title : String
  runAt : Instant
  timezone : String
  recurrence : ScheduledTaskRecurrence
  deriving DecidableEq

def agentReachoutAction : String := "agent.reachout"

def financialSyncAction : String := "finance.sync"

def accountDeletionAction : String := "account.delete"

/-- The program points. `claim` numbers the claim that a worker is working under. -/
inductive Point
  | createTask (task : NewTask)
  | insertTask (task : ScheduledTask)
  | claimTask (maxAttempts : Nat) (taskId : Option Uuid)
  | writeClaim (task : ScheduledTask) (now : Instant)
  | dispatch (task : ScheduledTask) (claim : Nat)
  | deleteAccount (task : ScheduledTask) (claim : Nat)
  | completeTask (id : Uuid) (claim : Nat)
  | writeComplete (loaded : ScheduledTask) (claim : Nat) (now : Instant)
  | retryTask (id : Uuid) (claim : Nat) (error : String)
  | writeRetry (loaded : ScheduledTask) (claim : Nat) (error : String) (now : Instant)
  | cancelTask (userId taskId : Uuid)
  | scheduleDeletion (userId : Uuid)
  | cancelDeletion (userId : Uuid)
  /-- `deletion` tells `cancel_account_deletion` from `cancel_scheduled_task`. -/
  | flushCancel (loaded : ScheduledTask) (now : Instant) (deletion : Bool)
  | commitCancel (loaded : ScheduledTask) (now : Instant) (deletion : Bool)
  | finished
  deriving DecidableEq

/-! ## Creating -/

/-- The row that `create_scheduled_task` adds; its identifier is drawn by the insertion. -/
def NewTask.row (task : NewTask) (now : Instant) : ScheduledTask where
  id := 0
  userId := task.userId
  actionType := task.actionType
  idempotencyKey := task.idempotencyKey
  title := String.ofList ((Text.strip task.title.toList).take 160)
  timezone := task.timezone
  recurrence := task.recurrence
  scheduledFor := task.runAt
  nextAttemptAt := task.runAt
  status := .active
  attempts := 0
  runCount := 0
  lockedAt := none
  lastRunAt := none
  completedAt := none
  cancelledAt := none
  error := none
  createdAt := now

/-- The checks of `create_scheduled_task`, once no task has the idempotency key. -/
def NewTask.valid (zones : String → Option Zone) (task : NewTask) (now : Instant) : Bool :=
  (now - 5 * second < task.runAt : Bool) && (zones task.timezone).isSome &&
    Text.strip task.title.toList ≠ []

/-- The task of an account deletion. -/
def deletionTask (userId fresh : Uuid) (now : Instant) : NewTask where
  userId := userId
  actionType := accountDeletionAction
  idempotencyKey := String.ofList
    ("account.delete:".toList ++ uuidText userId ++ ':' :: uuidText fresh)
  title := "Delete Dot account"
  runAt := now + 60 * second
  timezone := "UTC"
  recurrence := .once

/-! ## Reading -/

/-- `_claim_task`: the rows to lock, in order. -/
def claimCandidates (maxAttempts : Nat) (taskId : Option Uuid) (now : Instant)
    (db : ScheduleDb) : List Uuid :=
  (Table.orderBy ScheduledTask.dueBefore
    (db.tasks.filter (ScheduledTask.eligible now maxAttempts taskId))).map (·.id)

/-- The newest task of an account deletion in one of some statuses. -/
def newestDeletion (statuses : List ScheduledTaskStatus) (userId : Uuid) (db : ScheduleDb) :
    Option ScheduledTask :=
  (Table.orderBy (fun a b => b.createdAt ≤ a.createdAt) (db.tasks.filter fun task =>
    task.userId = userId ∧ task.actionType = accountDeletionAction ∧
      task.status ∈ statuses)).head?

/-- `create_scheduled_task`, with the tasks that it reads. -/
def startInsert (zones : String → Option Zone) (task : NewTask) (now : Instant)
    (db : ScheduleDb) : Point :=
  if (db.tasks.any fun row => row.idempotencyKey = task.idempotencyKey) then .finished
  else if task.valid zones now then .insertTask (task.row now)
  else .finished

/-- `schedule_account_deletion`, with the deletion that it reads. -/
def startDeletion (userId fresh : Uuid) (now : Instant) : Option ScheduledTask → Point
  | some _ => .finished
  | none => .createTask (deletionTask userId fresh now)

/-- `_claim_task`, with the row that it locked. -/
def startClaim (now : Instant) (chosen : Option Uuid) (db : ScheduleDb) : Point :=
  match chosen.bind db.task? with
  | none => .finished
  | some task => .writeClaim task now

/-- `cancel_scheduled_task`, with the task that it reads. -/
def startCancel (now : Instant) (deletion : Bool) : Option ScheduledTask → Point
  | none => .finished
  | some task => if task.status.isFinal then .finished else .flushCancel task now deletion

/-- `_complete_task` and `_retry_task` leave a task alone that is gone or cancelled. -/
def startSettle (settle : ScheduledTask → Point) : Option ScheduledTask → Point
  | none => .finished
  | some task => if task.status = .cancelled then .finished else settle task

/-! ## Writing -/

def insertTask (task : ScheduledTask) (db : ScheduleDb) : ScheduleDb :=
  { db with tasks := db.tasks ++ [{ task with id := db.nextId }], nextId := db.nextId + 1 }

def writeClaim (task : ScheduledTask) (now : Instant) (db : ScheduleDb) : ScheduleDb :=
  { db.updateTask task.id (ScheduledTask.claimed now) with claims := task.id :: db.claims }

/-- The work of a task that is no account deletion, done. -/
def writeDispatch (task : ScheduledTask) (db : ScheduleDb) : ScheduleDb :=
  { db with dispatches := (task.id, task.scheduledFor) :: db.dispatches }

/-- The purge of an account takes the tasks of the user with it. -/
def purgeAccount (task : ScheduledTask) (db : ScheduleDb) : ScheduleDb :=
  { writeDispatch task db with
    tasks := db.tasks.filter fun other => other.userId ≠ task.userId
    purges := task.userId :: db.purges }

/-- The completion of a task counts the occurrence that its row stands for. -/
def writeComplete (loaded completed : ScheduledTask) (db : ScheduleDb) : ScheduleDb :=
  { db.updateTask loaded.id (loaded.merge completed) with
    completions := (db.task? loaded.id).toList.map (fun row => (row.id, row.scheduledFor)) ++
      db.completions }

def writeRetry (loaded : ScheduledTask) (error : String) (now : Instant) (db : ScheduleDb) :
    ScheduleDb :=
  db.updateTask loaded.id (loaded.merge (loaded.retried now error))

def writeCancel (loaded : ScheduledTask) (now : Instant) (deletion : Bool) (db : ScheduleDb) :
    ScheduleDb :=
  { db.updateTask loaded.id (loaded.merge (loaded.cancelled now)) with
    cancelledDeletions := if deletion then loaded.userId :: db.cancelledDeletions
      else db.cancelledDeletions }

/-! ## The protocol -/

/-- The error of an action without a handler. -/
def noHandler (actionType : String) : String :=
  "No scheduled action handler for " ++ actionType

/-- What a session requests at a point. -/
def request (zones : String → Option Zone) : Point → Input → Request ScheduleDb Uuid Point
  | .createTask task, input =>
      .read (startInsert zones task input.now)
  | .insertTask task, input =>
      if input.commits then
        .commit (fun _ => [])
          (fun db => db.tasks.all fun row => row.idempotencyKey ≠ task.idempotencyKey)
          (insertTask task) (fun _ => none) none
      else .rollback none
  | .claimTask maxAttempts taskId, input =>
      .skipLocked (claimCandidates maxAttempts taskId input.now) (startClaim input.now)
  | .writeClaim task now, _ =>
      .commit (fun _ => [task.id]) (fun _ => true) (writeClaim task now)
        (fun db => some (.dispatch (task.claimed now) (db.claimCount task.id))) none
  | .dispatch task claim, input =>
      match input.failure with
      | some error => .rollback (some (.retryTask task.id claim error))
      | none =>
          if task.actionType = accountDeletionAction then
            .rollback (some (.deleteAccount task claim))
          else if task.actionType = agentReachoutAction ∨
              task.actionType = financialSyncAction then
            .commit (fun _ => []) (fun _ => true) (writeDispatch task)
              (fun _ => some (.completeTask task.id claim)) none
          else .rollback (some (.retryTask task.id claim (noHandler task.actionType)))
  | .deleteAccount task claim, input =>
      match input.failure with
      | some error => .rollback (some (.retryTask task.id claim error))
      | none =>
          .commit
            (fun db => (db.tasks.filter fun other => other.userId = task.userId).map (·.id))
            (fun _ => true) (purgeAccount task) (fun _ => some (.completeTask task.id claim)) none
  | .completeTask id claim, input =>
      .read fun db => startSettle (fun task => .writeComplete task claim input.now) (db.task? id)
  | .writeComplete loaded claim now, _ =>
      match loaded.completed? zones now with
      | none => .rollback (some (.retryTask loaded.id claim "No time zone found"))
      | some completed =>
          .commit (fun _ => [loaded.id]) (fun db => (db.task? loaded.id).isSome)
            (writeComplete loaded completed) (fun _ => none)
            (some (.retryTask loaded.id claim "StaleDataError"))
  | .retryTask id claim error, input =>
      .read fun db => startSettle (fun task => .writeRetry task claim error input.now) (db.task? id)
  | .writeRetry loaded _ error now, _ =>
      .commit (fun _ => [loaded.id]) (fun db => (db.task? loaded.id).isSome)
        (writeRetry loaded error now) (fun _ => none) none
  | .cancelTask userId taskId, input =>
      .read fun db => startCancel input.now false
        (db.tasks.find? fun task => task.id = taskId ∧ task.userId = userId)
  | .scheduleDeletion userId, input =>
      .read fun db => startDeletion userId input.fresh input.now
        (newestDeletion [.active, .processing, .failed] userId db)
  | .cancelDeletion userId, input =>
      -- the second select returns the instance that the first one loaded
      .read fun db => startCancel input.now true (newestDeletion [.active, .failed] userId db)
  | .flushCancel loaded now deletion, _ =>
      .lock (fun _ => [loaded.id]) fun db =>
        if (db.task? loaded.id).isSome then .commitCancel loaded now deletion else .finished
  | .commitCancel loaded now deletion, input =>
      if input.commits then
        .commit (fun _ => [loaded.id]) (fun _ => true) (writeCancel loaded now deletion)
          (fun _ => none) none
      else .rollback none
  | .finished, _ => .rollback none

/-- The entry points of the service. -/
def Point.isEntry : Point → Bool
  | .createTask _ | .claimTask _ _ | .cancelTask _ _ | .scheduleDeletion _ | .cancelDeletion _ =>
      true
  | _ => false

def protocol (zones : String → Option Zone) : Protocol ScheduleDb Uuid Point Input where
  starts := Point.isEntry
  request := request zones

/-! ## Rows and identifiers -/

/-- The primary key of the table, and the supply of fresh keys. -/
structure ScheduleDb.Keyed (db : ScheduleDb) : Prop where
  unique : Table.UniqueOn (fun task => some task.id) db.tasks
  known : ∀ task ∈ db.tasks, task.id < db.nextId

namespace ScheduleDb

variable {db : ScheduleDb} {id : Uuid} {row : ScheduledTask}

theorem of_task? (found : db.task? id = some row) : row ∈ db.tasks ∧ row.id = id :=
  ⟨List.mem_of_find?_eq_some found, by simpa using List.find?_some found⟩

theorem Keyed.task?_eq (keyed : db.Keyed) (rowMem : row ∈ db.tasks) :
    db.task? row.id = some row :=
  keyed.unique.find?_eq_some rowMem

theorem Keyed.eq_of_mem (keyed : db.Keyed) {other : ScheduledTask} (rowMem : row ∈ db.tasks)
    (otherMem : other ∈ db.tasks) (sameId : row.id = other.id) : row = other :=
  keyed.unique.eq_of_mem rowMem otherMem rfl (by rw [sameId])

/-- A row after an `UPDATE` is an old row of another key, or the changed row. -/
theorem mem_updateTask {change : ScheduledTask → ScheduledTask}
    (rowMem : row ∈ (db.updateTask id change).tasks) :
    (row ∈ db.tasks ∧ row.id ≠ id) ∨ ∃ old ∈ db.tasks, old.id = id ∧ row = change old := by
  obtain ⟨old, oldMem, rfl⟩ := Table.mem_update.mp rowMem
  by_cases sameId : old.id = id
  · apply Or.inr
    exact ⟨old, oldMem, sameId, by simp [sameId]⟩
  · apply Or.inl
    simpa [sameId] using oldMem

theorem Keyed.of_eq (keyed : db.Keyed) {other : ScheduleDb} (sameTasks : other.tasks = db.tasks)
    (sameSupply : other.nextId = db.nextId) : other.Keyed where
  unique := by
    rw [sameTasks]
    exact keyed.unique
  known := by
    rw [sameTasks, sameSupply]
    exact keyed.known

theorem Keyed.updateTask (keyed : db.Keyed) (id : Uuid) (change : ScheduledTask → ScheduledTask)
    (keeps : ∀ task, (change task).id = task.id) : (db.updateTask id change).Keyed where
  unique := keyed.unique.update _ keeps
  known := by
    intro row rowMem
    rcases mem_updateTask rowMem with ⟨oldMem, _⟩ | ⟨old, oldMem, _, rfl⟩
    · exact keyed.known row oldMem
    · rw [keeps]
      exact keyed.known old oldMem

theorem Keyed.insertTask (keyed : db.Keyed) (task : ScheduledTask) :
    (insertTask task db).Keyed where
  unique := keyed.unique.append fun other otherMem sameId =>
    absurd (keyed.known other otherMem) (by simp [sameId])
  known := by
    intro row rowMem
    rcases List.mem_append.mp rowMem with oldMem | newMem
    · exact Nat.lt_succ_of_lt (keyed.known row oldMem)
    · rw [List.mem_singleton.mp newMem]
      exact Nat.lt_succ_self db.nextId

theorem Keyed.purgeAccount (keyed : db.Keyed) (task : ScheduledTask) :
    (purgeAccount task db).Keyed where
  unique := keyed.unique.filter _
  known row rowMem := keyed.known row (List.mem_of_mem_filter rowMem)

/-- A row that may be locked for a claim is a stored row that the claim is for. -/
theorem Keyed.of_claimCandidate (keyed : db.Keyed) {maxAttempts : Nat}
    {taskId : Option Uuid} {task : ScheduledTask}
    (isCandidate : id ∈ claimCandidates maxAttempts taskId now db)
    (found : db.task? id = some task) :
    task ∈ db.tasks ∧ task.id = id ∧ task.eligible now maxAttempts taskId = true := by
  obtain ⟨taskMem, sameId⟩ := of_task? found
  simp only [claimCandidates, List.mem_map, Table.mem_orderBy, List.mem_filter] at isCandidate
  obtain ⟨candidate, ⟨candidateMem, eligible⟩, candidateId⟩ := isCandidate
  cases keyed.eq_of_mem candidateMem taskMem (candidateId.trans sameId.symm)
  exact ⟨taskMem, sameId, eligible⟩

end ScheduleDb

/-! ## The requests -/

/-- Where a session goes on after it read. -/
inductive Arriving (db : ScheduleDb) : Point → Point → Prop
  | finished {point : Point} : Arriving db point .finished
  | insertTask {task : NewTask} {now : Instant} :
      Arriving db (.createTask task) (.insertTask (task.row now))
  | createTask {userId : Uuid} {task : NewTask} :
      Arriving db (.scheduleDeletion userId) (.createTask task)
  | writeComplete {id : Uuid} {claim : Nat} {task : ScheduledTask} {now : Instant} :
      db.task? id = some task → task.status ≠ .cancelled →
      Arriving db (.completeTask id claim) (.writeComplete task claim now)
  | writeRetry {id : Uuid} {claim : Nat} {error : String} {task : ScheduledTask} {now : Instant} :
      db.task? id = some task → task.status ≠ .cancelled →
      Arriving db (.retryTask id claim error) (.writeRetry task claim error now)
  | flushCancel {point : Point} {task : ScheduledTask} {now : Instant} {deletion : Bool} :
      task.status.isFinal = false → Arriving db point (.flushCancel task now deletion)

theorem arriving_startCancel {deletion : Bool}
    (found : Option ScheduledTask) : Arriving db point (startCancel now deletion found) := by
  unfold startCancel
  split
  · exact Arriving.finished
  · split
    · exact Arriving.finished
    · rename_i notFinal
      exact Arriving.flushCancel (Bool.not_eq_true _ |>.mp notFinal)

theorem arriving_startSettle {settle : ScheduledTask → Point}
    {found : Option ScheduledTask}
    (settles : ∀ task, found = some task → task.status ≠ .cancelled →
      Arriving db point (settle task)) : Arriving db point (startSettle settle found) := by
  cases found with
  | none => exact Arriving.finished
  | some task =>
      rw [startSettle]
      split
      · exact Arriving.finished
      · exact settles task rfl ‹_›

theorem arriving_startInsert {task : NewTask}
     : Arriving db (.createTask task) (startInsert zones task now db) := by
  unfold startInsert
  split
  · exact Arriving.finished
  · split
    · exact Arriving.insertTask
    · exact Arriving.finished

theorem arriving_startDeletion {userId fresh : Uuid} (found : Option ScheduledTask) :
    Arriving db (.scheduleDeletion userId) (startDeletion userId fresh now found) := by
  cases found with
  | none => exact Arriving.createTask
  | some task => exact Arriving.finished

/-- Where a session goes on after it looked for a row to claim. -/
inductive Claiming (db : ScheduleDb) : Option Uuid → Point → Prop
  | finished {chosen : Option Uuid} : Claiming db chosen .finished
  | writeClaim {id : Uuid} {task : ScheduledTask} {now : Instant} : db.task? id = some task →
      Claiming db (some id) (.writeClaim task now)

theorem claiming_startClaim (chosen : Option Uuid) :
    Claiming db chosen (startClaim now chosen db) := by
  cases chosen with
  | none => exact Claiming.finished
  | some id =>
      rw [startClaim, Option.bind_some]
      split
      · exact Claiming.finished
      · exact Claiming.writeClaim ‹_›

/-- Where a session goes on after a transaction that it gave up or that was refused. -/
inductive Returning : Point → Point → Prop
  | deleteAccount {task : ScheduledTask} {claim : Nat} :
      task.actionType = accountDeletionAction →
      Returning (.dispatch task claim) (.deleteAccount task claim)
  | retryDispatch {task : ScheduledTask} {claim : Nat} {error : String} :
      Returning (.dispatch task claim) (.retryTask task.id claim error)
  | retryDeletion {task : ScheduledTask} {claim : Nat} {error : String} :
      Returning (.deleteAccount task claim) (.retryTask task.id claim error)
  | retryComplete {loaded : ScheduledTask} {claim : Nat} {now : Instant} {error : String} :
      Returning (.writeComplete loaded claim now) (.retryTask loaded.id claim error)

/-- The commits of the protocol: at a point, the rows written, the constraint, what is
written and where the session goes on. -/
inductive Writing (zones : String → Option Zone) : Point → Input → (ScheduleDb → List Uuid) →
    (ScheduleDb → Bool) → (ScheduleDb → ScheduleDb) → (ScheduleDb → Option Point) → Prop
  | insertTask {task : ScheduledTask} {input : Input} : input.commits = true →
      Writing zones (.insertTask task) input (fun _ => [])
        (fun db => db.tasks.all fun row => row.idempotencyKey ≠ task.idempotencyKey)
        (insertTask task) (fun _ => none)
  | writeClaim {task : ScheduledTask} {now : Instant} {input : Input} :
      Writing zones (.writeClaim task now) input (fun _ => [task.id]) (fun _ => true)
        (writeClaim task now)
        (fun db => some (.dispatch (task.claimed now) (db.claimCount task.id)))
  | dispatch {task : ScheduledTask} {claim : Nat} {input : Input} :
      task.actionType ≠ accountDeletionAction →
      Writing zones (.dispatch task claim) input (fun _ => []) (fun _ => true)
        (writeDispatch task) (fun _ => some (.completeTask task.id claim))
  | deleteAccount {task : ScheduledTask} {claim : Nat} {input : Input} :
      Writing zones (.deleteAccount task claim) input
        (fun db => (db.tasks.filter fun other => other.userId = task.userId).map (·.id))
        (fun _ => true) (purgeAccount task) (fun _ => some (.completeTask task.id claim))
  | writeComplete {loaded completed : ScheduledTask} {claim : Nat} {now : Instant}
      {input : Input} : loaded.completed? zones now = some completed →
      Writing zones (.writeComplete loaded claim now) input (fun _ => [loaded.id])
        (fun db => (db.task? loaded.id).isSome) (writeComplete loaded completed) (fun _ => none)
  | writeRetry {loaded : ScheduledTask} {claim : Nat} {error : String} {now : Instant}
      {input : Input} :
      Writing zones (.writeRetry loaded claim error now) input (fun _ => [loaded.id])
        (fun db => (db.task? loaded.id).isSome) (writeRetry loaded error now) (fun _ => none)
  | commitCancel {loaded : ScheduledTask} {now : Instant} {deletion : Bool} {input : Input} :
      input.commits = true →
      Writing zones (.commitCancel loaded now deletion) input (fun _ => [loaded.id])
        (fun _ => true) (writeCancel loaded now deletion) (fun _ => none)

/-- What a request of the service is. -/
inductive Requests (zones : String → Option Zone) (point : Point) (input : Input) :
    Request ScheduleDb Uuid Point → Prop
  | read {next : ScheduleDb → Point} : (∀ db, Arriving db point (next db)) →
      Requests zones point input (.read next)
  | claim {maxAttempts : Nat} {taskId : Option Uuid} {now : Instant}
      {next : Option Uuid → ScheduleDb → Point} :
      (∀ chosen db, Claiming db chosen (next chosen db)) →
      Requests zones point input (.skipLocked (claimCandidates maxAttempts taskId now) next)
  | flush {loaded : ScheduledTask} {now : Instant} {deletion : Bool} :
      point = .flushCancel loaded now deletion →
      Requests zones point input (.lock (fun _ => [loaded.id]) fun db =>
        if (db.task? loaded.id).isSome then .commitCancel loaded now deletion else .finished)
  | commit {rows : ScheduleDb → List Uuid} {permitted : ScheduleDb → Bool}
      {write : ScheduleDb → ScheduleDb} {next : ScheduleDb → Option Point}
      {refused : Option Point} : Writing zones point input rows permitted write next →
      (∀ target, refused = some target → Returning point target) →
      Requests zones point input (.commit rows permitted write next refused)
  | rollback {next : Option Point} : (∀ target, next = some target → Returning point target) →
      Requests zones point input (.rollback next)

theorem requests (zones : String → Option Zone) (point : Point) (input : Input) :
    Requests zones point input (request zones point input) := by
  cases point with
  | createTask task => exact Requests.read fun _ => arriving_startInsert
  | insertTask task =>
      rw [request]
      split
      · apply Requests.commit (Writing.insertTask ‹_›)
        rintro target ⟨⟩
      · apply Requests.rollback
        rintro target ⟨⟩
  | claimTask maxAttempts taskId => exact Requests.claim fun chosen _ => claiming_startClaim chosen
  | writeClaim task now =>
      apply Requests.commit Writing.writeClaim
      rintro target ⟨⟩
  | dispatch task claim =>
      rw [request]
      split
      · apply Requests.rollback
        rintro target ⟨⟩
        exact Returning.retryDispatch
      · split
        · apply Requests.rollback
          rintro target ⟨⟩
          exact Returning.deleteAccount ‹_›
        · split
          · apply Requests.commit (Writing.dispatch ‹_›)
            rintro target ⟨⟩
          · apply Requests.rollback
            rintro target ⟨⟩
            exact Returning.retryDispatch
  | deleteAccount task claim =>
      rw [request]
      split
      · apply Requests.rollback
        rintro target ⟨⟩
        exact Returning.retryDeletion
      · apply Requests.commit Writing.deleteAccount
        rintro target ⟨⟩
  | completeTask id claim =>
      apply Requests.read
      intro db
      apply arriving_startSettle
      exact fun task => Arriving.writeComplete
  | writeComplete loaded claim now =>
      rw [request]
      split
      · apply Requests.rollback
        rintro target ⟨⟩
        exact Returning.retryComplete
      · apply Requests.commit (Writing.writeComplete ‹_›)
        rintro target ⟨⟩
        exact Returning.retryComplete
  | retryTask id claim error =>
      apply Requests.read
      intro db
      apply arriving_startSettle
      exact fun task => Arriving.writeRetry
  | writeRetry loaded claim error now =>
      apply Requests.commit Writing.writeRetry
      rintro target ⟨⟩
  | cancelTask userId taskId => exact Requests.read fun _ => arriving_startCancel _
  | scheduleDeletion userId => exact Requests.read fun _ => arriving_startDeletion _
  | cancelDeletion userId => exact Requests.read fun _ => arriving_startCancel _
  | flushCancel loaded now deletion => exact Requests.flush rfl
  | commitCancel loaded now deletion =>
      rw [request]
      split
      · apply Requests.commit (Writing.commitCancel ‹_›)
        rintro target ⟨⟩
      · apply Requests.rollback
        rintro target ⟨⟩
  | finished =>
      apply Requests.rollback
      rintro target ⟨⟩

theorem requests_of_eq {input : Input}
    {requested : Request ScheduleDb Uuid Point}
    (requested_eq : (protocol zones).request point input = requested) :
    Requests zones point input requested :=
  requested_eq ▸ requests zones point input

/-- Every commit keeps the primary key. -/
theorem Writing.keyed {input : Input}
    {rows : ScheduleDb → List Uuid} {permitted : ScheduleDb → Bool}
    {write : ScheduleDb → ScheduleDb} {next : ScheduleDb → Option Point}
    (writing : Writing zones point input rows permitted write next) (keyed : db.Keyed) :
    (write db).Keyed := by
  cases writing with
  | insertTask _ => exact keyed.insertTask _
  | @writeClaim task now _ =>
      exact (keyed.updateTask task.id (ScheduledTask.claimed now) fun _ => rfl).of_eq rfl rfl
  | dispatch _ => exact keyed.of_eq rfl rfl
  | deleteAccount => exact keyed.purgeAccount _
  | @writeComplete loaded completed _ _ _ _ =>
      exact (keyed.updateTask loaded.id (loaded.merge completed) fun _ => rfl).of_eq rfl rfl
  | writeRetry => exact keyed.updateTask _ _ fun _ => rfl
  | @commitCancel loaded now _ _ _ =>
      exact (keyed.updateTask loaded.id (loaded.merge (loaded.cancelled now))
        fun _ => rfl).of_eq rfl rfl

/-! ## Runs with a clock -/

/-- The zones of a deployment that knows only one. -/
def utcOnly (name : String) : Option Zone :=
  if name = "UTC" then some Zone.utc else none

/-- A step of a session that asks nothing of the outside but the time. -/
def tick (session : Nat) (now : Instant) : Event Point Input :=
  .advance session ⟨now, none, true, 0⟩

/-- A worker claims what is due. -/
def claimAt (worker : Nat) (now : Instant) : List (Event Point Input) :=
  [.start worker (.claimTask 5 none), tick worker now, tick worker now]

end DotBackend.Schedules
