import DotBackend.Schedules.Task
import DotBackend.Transaction.WorkQueue

/-!
# The durable queues

Scheduled tasks, user events, memory jobs and agent follow-ups as queues: the conditions
of their claims and the assignments of their settlements. Each claim counts an attempt,
and an item in progress that has no attempts left is not claimed again.
-/

namespace DotBackend.Schedules

open Data Transaction

/-! ## Items -/

/-- The status of an item; the statuses in which it has ended differ between the tables. -/
inductive ItemStatus (End : Type)
  | pending
  | processing
  | failed
  | ended (how : End)
  deriving DecidableEq

/-- The columns of an item that its queue reads. `dueAt` is `next_attempt_at`, or the `due_at`
of a follow-up. -/
structure QueueItem (End : Type) where
  id : Uuid
  status : ItemStatus End
  attempts : Nat
  dueAt : Instant
  lockedAt : Option Instant
  error : Option String
  createdAt : Instant
  deriving DecidableEq

namespace QueueItem

variable {End : Type} [DecidableEq End]

/-- The condition of a claim. Only the follow-ups wait until they are due when they are
pending. -/
def eligible (staleAfter : Int) (pendingWaits : Bool) (maxAttempts : Nat) (itemId : Option Uuid)
    (now : Instant) (item : QueueItem End) : Bool :=
  ((item.status = .pending && (!pendingWaits || (item.dueAt ≤ now : Bool))) ||
      (item.status = .failed && item.dueAt ≤ now) ||
      (item.status = .processing &&
        item.lockedAt.any fun locked => locked ≤ now - staleAfter)) &&
    item.attempts < maxAttempts && itemId.all fun id => item.id = id

/-- The assignments of a claim. -/
def claimed (now : Instant) (item : QueueItem End) : QueueItem End :=
  { item with
    status := .processing, attempts := item.attempts + 1, lockedAt := some now, error := none }

/-- The assignments of a settlement that ends an item. -/
def finished (how : End) (error : Option String) (item : QueueItem End) : QueueItem End :=
  { item with status := .ended how, error := error, lockedAt := none }

/-- The assignments of a settlement after a failure. -/
def retried (now : Instant) (error : String) (item : QueueItem End) : QueueItem End :=
  let delaySeconds := min (2 ^ max item.attempts 1) 300
  { item with
    status := .failed, error := some (String.ofList (error.toList.take 2000)), lockedAt := none
    dueAt := now + delaySeconds * second }

/-- The stored row after the assignments to a row that was loaded before. -/
def merge (loaded assigned stored : QueueItem End) : QueueItem End :=
  { stored with
    status := mergeColumn loaded.status assigned.status stored.status
    dueAt := mergeColumn loaded.dueAt assigned.dueAt stored.dueAt
    lockedAt := mergeColumn loaded.lockedAt assigned.lockedAt stored.lockedAt
    error := mergeColumn loaded.error assigned.error stored.error }

/-- What a settlement of an item does, whatever its outcome. -/
structure Settles (settlement : QueueItem End → Settlement (QueueItem End)) : Prop where
  leave : ∀ item, settlement item = .leave → item.status ≠ .processing
  assign : ∀ item assigned, settlement item = .assign assigned →
    assigned.status ≠ .processing ∧ assigned.id = item.id ∧ assigned.lockedAt = none

omit [DecidableEq End] in
theorem settles_finished (how : End) (error : QueueItem End → Option String) :
    Settles fun item => .assign (finished how (error item) item) where
  leave := fun _ left => nomatch left
  assign := by
    intro item assigned isAssigned
    cases isAssigned
    exact ⟨fun working => (nomatch working), rfl, rfl⟩

omit [DecidableEq End] in
theorem settles_retried (now : Instant) (error : String) :
    Settles fun item : QueueItem End => .assign (retried now error item) where
  leave := fun _ left => nomatch left
  assign := by
    intro item assigned isAssigned
    cases isAssigned
    exact ⟨fun working => (nomatch working), rfl, rfl⟩

omit [DecidableEq End] in
/-- A settlement that leaves items alone, none of them in progress. -/
theorem Settles.unless {settlement : QueueItem End → Settlement (QueueItem End)}
    (settles : Settles settlement) (skipped : ItemStatus End → Prop) [DecidablePred skipped]
    (notWorking : ¬skipped .processing) :
    Settles fun item => if skipped item.status then .leave else settlement item where
  leave := by
    intro item left
    split at left
    · rename_i isSkipped
      intro working
      rw [working] at isSkipped
      exact notWorking isSkipped
    · exact settles.leave item left
  assign := by
    intro item assigned isAssigned
    split at isAssigned
    · cases isAssigned
    · exact settles.assign item assigned isAssigned

/-- A table of items as a queue. -/
def queue {Outcome : Type} (staleAfter : Int) (pendingWaits : Bool) (maxAttempts : Nat)
    (settle : Outcome → QueueItem End → Settlement (QueueItem End))
    (settles : ∀ outcome, Settles (settle outcome)) (retry : Outcome)
    (canRetry : ∀ item, item.status = .processing → ∃ assigned,
      settle retry item = .assign assigned) : Queue (QueueItem End) Outcome where
  key := QueueItem.id
  working item := item.status = .processing
  lockedAt := QueueItem.lockedAt
  attempts := QueueItem.attempts
  maxAttempts := maxAttempts
  eligible := eligible staleAfter pendingWaits maxAttempts none
  claimed := claimed
  settle := settle
  merge := merge
  claimed_key := fun _ _ => rfl
  claimed_working := fun _ _ => decide_eq_true rfl
  claimed_locked := fun _ _ => rfl
  claimed_attempts := fun _ _ => rfl
  within_attempts := by
    intro now item isEligible
    simp only [eligible, Bool.and_eq_true, decide_eq_true_eq] at isEligible
    exact isEligible.1.2
  eligible_again := by
    intro item locked working isLocked left
    refine ⟨locked + staleAfter, ?_⟩
    have isWorking : item.status = .processing := of_decide_eq_true working
    simp [eligible, isWorking, isLocked, left]
  can_settle := fun item working => ⟨retry, canRetry item (of_decide_eq_true working)⟩
  leave_settled := fun outcome item left => decide_eq_false ((settles outcome).leave item left)
  assigned_settled := fun outcome item assigned isAssigned =>
    decide_eq_false ((settles outcome).assign item assigned isAssigned).1
  assigned_key := fun outcome item assigned isAssigned =>
    ((settles outcome).assign item assigned isAssigned).2.1
  merge_key := fun _ _ _ => rfl
  merge_working := by
    intro loaded assigned stored notWorking working
    have merged : mergeColumn loaded.status assigned.status stored.status = .processing :=
      of_decide_eq_true working
    have different : assigned.status ≠ .processing := of_decide_eq_false notWorking
    constructor
    · exact decide_eq_true (stored_eq_of_mergeColumn_eq merged different)
    · apply decide_eq_false
      intro wasWorking
      rw [mergeColumn_assigned (by rwa [wasWorking])] at merged
      exact different merged
  merge_attempts := fun _ _ _ _ _ => le_refl _
  merge_locked := by
    intro outcome loaded assigned stored isAssigned unlocked
    have released := ((settles outcome).assign loaded assigned isAssigned).2.2
    change mergeColumn loaded.lockedAt assigned.lockedAt stored.lockedAt = stored.lockedAt
    rw [unlocked, released, mergeColumn_unassigned]

end QueueItem

/-! ## User events and memory jobs -/

/-- How a user event or a memory job ends. -/
inductive JobEnd
  | processed
  | skipped
  deriving DecidableEq

abbrev UserEvent := QueueItem JobEnd

abbrev MemoryJob := QueueItem JobEnd

/-- What a worker tells of an item that it worked on. -/
inductive JobOutcome
  | finish (status : JobEnd) (error : Option String)
  | retry (now : Instant) (error : String)

/-- `_finish_event`. -/
def finishEvent (status : JobEnd) (error : Option String) (event : UserEvent) :
    Settlement UserEvent :=
  .assign (event.finished status error)

/-- `_retry_event`. -/
def retryEvent (now : Instant) (error : String) (event : UserEvent) : Settlement UserEvent :=
  .assign (event.retried now error)

def settleEvent : JobOutcome → UserEvent → Settlement UserEvent
  | .finish status error => finishEvent status error
  | .retry now error => retryEvent now error

/-- The table of user events, with the condition of `_claim_event`. -/
def userEvents (maxAttempts : Nat) : Queue UserEvent JobOutcome :=
  QueueItem.queue (120 * second) false maxAttempts settleEvent
    (fun outcome => match outcome with
      | .finish status error => QueueItem.settles_finished status fun _ => error
      | .retry now error => QueueItem.settles_retried now error)
    (.retry 0 "") fun event _ => ⟨event.retried 0 "", rfl⟩

/-- `_finish_job`. -/
def finishJob (status : JobEnd) (error : Option String) (job : MemoryJob) : Settlement MemoryJob :=
  .assign (job.finished status error)

/-- `_retry_job`. -/
def retryJob (now : Instant) (error : String) (job : MemoryJob) : Settlement MemoryJob :=
  .assign (job.retried now error)

def settleJob : JobOutcome → MemoryJob → Settlement MemoryJob
  | .finish status error => finishJob status error
  | .retry now error => retryJob now error

/-- The table of memory jobs, with the condition of `_claim_job`. -/
def memoryJobs (maxAttempts : Nat) : Queue MemoryJob JobOutcome :=
  QueueItem.queue (300 * second) false maxAttempts settleJob
    (fun outcome => match outcome with
      | .finish status error => QueueItem.settles_finished status fun _ => error
      | .retry now error => QueueItem.settles_retried now error)
    (.retry 0 "") fun job _ => ⟨job.retried 0 "", rfl⟩

/-! ## Follow-ups -/

/-- How a follow-up ends. -/
inductive FollowUpEnd
  | completed
  | cancelled
  deriving DecidableEq

abbrev AgentFollowUp := QueueItem FollowUpEnd

/-- What is told of a follow-up; `cancelPending` is the statement that a message of the user
leads to. -/
inductive FollowUpOutcome
  | complete
  | cancel (reason : String)
  | retry (now : Instant) (error : String)
  | cancelPending

/-- `_complete_follow_up`. -/
def completeFollowUp (followUp : AgentFollowUp) : Settlement AgentFollowUp :=
  if followUp.status = .ended .cancelled then .leave
  else .assign (followUp.finished .completed followUp.error)

/-- `_cancel_follow_up`. -/
def cancelFollowUp (reason : String) (followUp : AgentFollowUp) : Settlement AgentFollowUp :=
  if followUp.status = .ended .completed then .leave
  else .assign (followUp.finished .cancelled (some (String.ofList (reason.toList.take 2000))))

/-- `_retry_follow_up`. -/
def retryFollowUp (now : Instant) (error : String) (followUp : AgentFollowUp) :
    Settlement AgentFollowUp :=
  if followUp.status = .ended .cancelled then .leave
  else .assign (followUp.retried now error)

/-- The statement of `cancel_pending_follow_ups` on a row that it may select. -/
def cancelPendingFollowUp (followUp : AgentFollowUp) : Settlement AgentFollowUp :=
  if followUp.status ≠ .pending ∧ followUp.status ≠ .processing then .leave
  else .assign (followUp.finished .cancelled followUp.error)

def settleFollowUp : FollowUpOutcome → AgentFollowUp → Settlement AgentFollowUp
  | .complete => completeFollowUp
  | .cancel reason => cancelFollowUp reason
  | .retry now error => retryFollowUp now error
  | .cancelPending => cancelPendingFollowUp

theorem settles_settleFollowUp (outcome : FollowUpOutcome) :
    QueueItem.Settles (settleFollowUp outcome) := by
  cases outcome with
  | complete =>
      exact (QueueItem.settles_finished FollowUpEnd.completed QueueItem.error).unless
        (fun status => status = .ended .cancelled) (by decide)
  | cancel reason =>
      exact (QueueItem.settles_finished FollowUpEnd.cancelled fun _ =>
        some (String.ofList (reason.toList.take 2000))).unless
        (fun status => status = .ended .completed) (by decide)
  | retry now error =>
      exact (QueueItem.settles_retried now error).unless
        (fun status => status = .ended FollowUpEnd.cancelled) (by decide)
  | cancelPending =>
      exact (QueueItem.settles_finished FollowUpEnd.cancelled QueueItem.error).unless
        (fun status => status ≠ .pending ∧ status ≠ .processing) (by decide)

/-- The table of follow-ups, with the condition of `_claim_follow_up`. -/
def agentFollowUps (maxAttempts : Nat) : Queue AgentFollowUp FollowUpOutcome :=
  QueueItem.queue (120 * second) true maxAttempts settleFollowUp settles_settleFollowUp
    (.retry 0 "") fun followUp working =>
      ⟨followUp.retried 0 "", by simp [settleFollowUp, retryFollowUp, working]⟩

/-! ## Scheduled tasks -/

/-- What is told of a scheduled task. -/
inductive TaskOutcome
  | complete (now : Instant)
  | retry (now : Instant) (error : String)
  | cancel (now : Instant)

/-- `_complete_task`; an unknown zone raises. -/
def completeTask (zones : String → Option Zone) (now : Instant) (task : ScheduledTask) :
    Settlement ScheduledTask :=
  if task.status = .cancelled then .leave
  else
    match task.completed? zones now with
    | some completed => .assign completed
    | none => .raise

/-- `_retry_task`. -/
def retryTask (now : Instant) (error : String) (task : ScheduledTask) : Settlement ScheduledTask :=
  if task.status = .cancelled then .leave else .assign (task.retried now error)

/-- `cancel_scheduled_task`. -/
def cancelTask (now : Instant) (task : ScheduledTask) : Settlement ScheduledTask :=
  if task.status.isFinal then .leave else .assign (task.cancelled now)

def settleTask (zones : String → Option Zone) : TaskOutcome → ScheduledTask →
    Settlement ScheduledTask
  | .complete now => completeTask zones now
  | .retry now error => retryTask now error
  | .cancel now => cancelTask now

theorem settleTask_leave {zones : String → Option Zone} {outcome : TaskOutcome}
    {task : ScheduledTask} (left : settleTask zones outcome task = .leave) :
    task.status ≠ .processing := by
  intro working
  cases outcome with
  | complete now =>
      simp only [settleTask, completeTask, working, reduceCtorEq, if_false] at left
      split at left <;> cases left
  | retry now error => simp [settleTask, retryTask, working] at left
  | cancel now => simp [settleTask, cancelTask, working, ScheduledTaskStatus.isFinal] at left

/-- What every settlement of a task assigns. -/
structure TaskSettled (task assigned : ScheduledTask) : Prop where
  settled : assigned.status ≠ .processing
  sameId : assigned.id = task.id
  unlocked : assigned.lockedAt = none
  attempts : assigned.attempts = 0 ∨ assigned.attempts = task.attempts

theorem taskSettled_completed {zones : String → Option Zone} {now : Instant}
    {task completed : ScheduledTask} (completes : task.completed? zones now = some completed) :
    TaskSettled task completed := by
  unfold ScheduledTask.completed? at completes
  simp only at completes
  split at completes
  · cases completes
    exact ⟨ScheduledTaskStatus.noConfusion, rfl, rfl, Or.inl rfl⟩
  · obtain ⟨zone, _, rfl⟩ := Option.map_eq_some_iff.mp completes
    exact ⟨ScheduledTaskStatus.noConfusion, rfl, rfl, Or.inl rfl⟩

theorem settleTask_assign {zones : String → Option Zone} {outcome : TaskOutcome}
    {task assigned : ScheduledTask} (isAssigned : settleTask zones outcome task = .assign assigned) :
    TaskSettled task assigned := by
  cases outcome with
  | complete now =>
      simp only [settleTask, completeTask] at isAssigned
      split at isAssigned
      · cases isAssigned
      · split at isAssigned
        · rename_i completes
          cases isAssigned
          exact taskSettled_completed completes
        · cases isAssigned
  | retry now error =>
      simp only [settleTask, retryTask] at isAssigned
      split at isAssigned
      · cases isAssigned
      · cases isAssigned
        exact ⟨ScheduledTaskStatus.noConfusion, rfl, rfl, Or.inr rfl⟩
  | cancel now =>
      simp only [settleTask, cancelTask] at isAssigned
      split at isAssigned
      · cases isAssigned
      · cases isAssigned
        exact ⟨ScheduledTaskStatus.noConfusion, rfl, rfl, Or.inr rfl⟩

/-- The table of scheduled tasks, with the condition of `_claim_task`. -/
def scheduledTasks (zones : String → Option Zone) (maxAttempts : Nat) :
    Queue ScheduledTask TaskOutcome where
  key := ScheduledTask.id
  working task := task.status = .processing
  lockedAt := ScheduledTask.lockedAt
  attempts := ScheduledTask.attempts
  maxAttempts := maxAttempts
  eligible now := ScheduledTask.eligible now maxAttempts none
  claimed := ScheduledTask.claimed
  settle := settleTask zones
  merge := ScheduledTask.merge
  claimed_key := fun _ _ => rfl
  claimed_working := fun _ _ => rfl
  claimed_locked := fun _ _ => rfl
  claimed_attempts := fun _ _ => rfl
  within_attempts := by
    intro now task isEligible
    simp only [ScheduledTask.eligible, Bool.and_eq_true, decide_eq_true_eq] at isEligible
    exact isEligible.1.2
  eligible_again := by
    intro task locked working isLocked left
    refine ⟨locked + 300 * second, ?_⟩
    have isWorking : task.status = .processing := of_decide_eq_true working
    simp [ScheduledTask.eligible, isWorking, isLocked, left]
  can_settle := by
    intro task working
    have isWorking : task.status = .processing := of_decide_eq_true working
    exact ⟨.retry 0 "", task.retried 0 "", by simp [settleTask, retryTask, isWorking]⟩
  leave_settled := fun _ _ left => decide_eq_false (settleTask_leave left)
  assigned_settled := fun _ _ _ isAssigned => decide_eq_false (settleTask_assign isAssigned).settled
  assigned_key := fun _ _ _ isAssigned => (settleTask_assign isAssigned).sameId
  merge_key := fun _ _ _ => rfl
  merge_working := by
    intro loaded assigned stored notWorking working
    have merged : mergeColumn loaded.status assigned.status stored.status = .processing :=
      of_decide_eq_true working
    have different : assigned.status ≠ .processing := of_decide_eq_false notWorking
    constructor
    · exact decide_eq_true (stored_eq_of_mergeColumn_eq merged different)
    · apply decide_eq_false
      intro wasWorking
      rw [mergeColumn_assigned (by rwa [wasWorking])] at merged
      exact different merged
  merge_attempts := by
    intro outcome loaded assigned stored isAssigned
    change mergeColumn loaded.attempts assigned.attempts stored.attempts ≤ stored.attempts
    rcases (settleTask_assign isAssigned).attempts with isZero | isSame
    · rcases mergeColumn_stored_or_assigned loaded.attempts assigned.attempts stored.attempts with
        isStored | isAssigned
      · exact isStored.le
      · rw [isAssigned, isZero]
        exact Nat.zero_le _
    · rw [isSame, mergeColumn_unassigned]
  merge_locked := by
    intro outcome loaded assigned stored isAssigned unlocked
    change mergeColumn loaded.lockedAt assigned.lockedAt stored.lockedAt = stored.lockedAt
    rw [unlocked, (settleTask_assign isAssigned).unlocked, mergeColumn_unassigned]

/-! ## Stranded items -/

/-- Careful workers strand no item of the four queues. -/
theorem careful_workers_strand_nothing (zones : String → Option Zone)
    (taskAttempts eventAttempts jobAttempts followUpAttempts : Nat) :
    Queue.StrandsNothing (scheduledTasks zones taskAttempts)
        (scheduledTasks zones taskAttempts).careful ∧
      Queue.StrandsNothing (userEvents eventAttempts) (userEvents eventAttempts).careful ∧
      Queue.StrandsNothing (memoryJobs jobAttempts) (memoryJobs jobAttempts).careful ∧
      Queue.StrandsNothing (agentFollowUps followUpAttempts)
        (agentFollowUps followUpAttempts).careful :=
  ⟨Queue.strandsNothing_careful _, Queue.strandsNothing_careful _, Queue.strandsNothing_careful _,
    Queue.strandsNothing_careful _⟩

/-- A new item. -/
def newItem (End : Type) : QueueItem End :=
  ⟨1, .pending, 0, 0, none, none, 0⟩

/-- A new task that is due. -/
def newReminder : ScheduledTask where
  id := 1
  userId := 7
  actionType := "agent.reachout"
  idempotencyKey := "stretch"
  title := "stretch"
  timezone := "UTC"
  recurrence := .once
  scheduledFor := 0
  nextAttemptAt := 0
  status := .active
  attempts := 0
  runCount := 0
  lockedAt := none
  lastRunAt := none
  completedAt := none
  cancelledAt := none
  error := none
  createdAt := 0

/-- With the default bounds, each queue strands an item whose workers all crash. -/
theorem crashing_workers_strand :
    (¬Queue.StrandsNothing (scheduledTasks (fun _ => none) 8) fun _ _ => True) ∧
      (¬Queue.StrandsNothing (userEvents 8) fun _ _ => True) ∧
      (¬Queue.StrandsNothing (memoryJobs 8) fun _ _ => True) ∧
      ¬Queue.StrandsNothing (agentFollowUps 5) fun _ _ => True := by
  refine ⟨?_, ?_, ?_, ?_⟩
  · apply Queue.not_strandsNothing newReminder 0 <;> decide
  · apply Queue.not_strandsNothing (newItem JobEnd) 0 <;> decide
  · apply Queue.not_strandsNothing (newItem JobEnd) 0 <;> decide
  · apply Queue.not_strandsNothing (newItem FollowUpEnd) 0 <;> decide

end DotBackend.Schedules
