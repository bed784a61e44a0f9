import DotBackend.Schedules.Protocol
import Mathlib.Data.List.Dedup

/-!
# The life cycle of scheduled tasks

Settling a claim reads the row again by its key and does not ask whether the claim is
still the last one. In a run in which every settlement happens under the last claim, on
a task that is still being processed, every occurrence is counted at most once and the
final statuses are final.
-/

namespace DotBackend.Schedules

open Data Transition Transaction

variable {task loaded : ScheduledTask} {now : Instant} {point : Point} {held : Held Uuid}

/-! ## The condition on settlements -/

/-- What the service does not check when it settles a claim or cancels a task: a
completion is under the last claim of a task in progress, at a time that the wall clock
of a recurring task has reached; a retry is not of a task with a final status; and a
task that is cancelled was not completed since it was read. -/
def fenced (zones : String → Option Zone) (system : System ScheduleDb Uuid Point) :
    Event Point Input → Bool
  | .advance session input =>
      match system.points session with
      | some (.writeComplete loaded claim now) =>
          ((system.database.task? loaded.id).all fun row =>
              row.status = .processing && system.database.claimCount loaded.id = claim) &&
            (loaded.recurrence = .once || (zones loaded.timezone).all fun zone =>
              zone.wall loaded.scheduledFor ≤ zone.wall now)
      | some (.writeRetry loaded _ _ _) =>
          (system.database.task? loaded.id).all fun row => !row.status.isFinal
      | some (.commitCancel loaded _ _) =>
          !input.commits || (system.database.task? loaded.id).all fun row =>
            row.status ≠ .completed
      | _ => true
  | _ => true

/-! ## What a commit leaves alone -/

/-- What every commit under the condition keeps: the supply and the history grow, no row
of a known key comes back, a task in progress under the same claim stands for the same
occurrence, a final status stays, and so does every row that is not written. -/
structure Keeps (rows : List Uuid) (before after : ScheduleDb) : Prop where
  supply : before.nextId ≤ after.nextId
  claims : ∀ id, before.claimCount id ≤ after.claimCount id
  dispatches : ∀ occurrence ∈ before.dispatches, occurrence ∈ after.dispatches
  known : ∀ row ∈ after.tasks, row.id < before.nextId → ∃ old ∈ before.tasks, old.id = row.id
  working : ∀ row ∈ after.tasks, row.id < before.nextId → row.status = .processing →
    after.claimCount row.id = before.claimCount row.id →
      ∃ old ∈ before.tasks, old.id = row.id ∧ old.status = .processing ∧
        old.scheduledFor = row.scheduledFor ∧ old.runCount = row.runCount
  final : ∀ task ∈ before.tasks, task.status.isFinal = true →
    ∀ row ∈ after.tasks, row.id = task.id → row.status = task.status
  unwritten : ∀ row ∈ after.tasks, row.id < before.nextId → row.id ∉ rows → row ∈ before.tasks

/-- The fact about the occurrence of a task and its count that holds while the task is
in progress under a claim. -/
def WhileClaimed (db : ScheduleDb) (id : Uuid) (claim : Nat) (fact : Instant → Nat → Prop) :
    Prop :=
  id < db.nextId ∧ claim ≤ db.claimCount id ∧
    ∀ row ∈ db.tasks, row.id = id → row.status = .processing → db.claimCount id = claim →
      fact row.scheduledFor row.runCount

variable {before after db : ScheduleDb} {rows : List Uuid} {id : Uuid} {claim : Nat}

theorem WhileClaimed.keeps {fact weaker : Instant → Nat → Prop}
    (claimed : WhileClaimed before id claim fact) (keeps : Keeps rows before after)
    (weakens : ∀ occurrence count, fact occurrence count → weaker occurrence count) :
    WhileClaimed after id claim weaker := by
  obtain ⟨known, made, whileWorking⟩ := claimed
  refine ⟨lt_of_lt_of_le known keeps.supply, le_trans made (keeps.claims id), ?_⟩
  rintro row rowMem rfl working sameClaim
  have unclaimed : after.claimCount row.id = before.claimCount row.id :=
    le_antisymm (sameClaim.trans_le made) (keeps.claims row.id)
  obtain ⟨old, oldMem, sameId, oldWorking, sameOccurrence, sameCount⟩ :=
    keeps.working row rowMem known working unclaimed
  rw [← sameOccurrence, ← sameCount]
  exact weakens _ _ (whileWorking old oldMem sameId oldWorking (unclaimed ▸ sameClaim))

/-- A commit that changes no row. -/
theorem Keeps.of_same (sameTasks : after.tasks = before.tasks)
    (sameSupply : after.nextId = before.nextId) (sameClaims : after.claims = before.claims)
    (grown : ∀ occurrence ∈ before.dispatches, occurrence ∈ after.dispatches)
    (keyed : before.Keyed) : Keeps rows before after where
  supply := sameSupply.ge
  claims id := by rw [ScheduleDb.claimCount, ScheduleDb.claimCount, sameClaims]
  dispatches := grown
  known := by
    intro row rowMem _
    rw [sameTasks] at rowMem
    exact ⟨row, rowMem, rfl⟩
  working := by
    intro row rowMem _ working _
    rw [sameTasks] at rowMem
    exact ⟨row, rowMem, rfl, working, rfl, rfl⟩
  final := by
    intro task taskMem _ row rowMem sameId
    rw [sameTasks] at rowMem
    rw [keyed.eq_of_mem rowMem taskMem sameId]
  unwritten := by
    intro row rowMem _ _
    rwa [sameTasks] at rowMem

/-- A commit that updates the row of one key. -/
structure Updated (id : Uuid) (change : ScheduledTask → ScheduledTask)
    (before after : ScheduleDb) : Prop where
  tasks : after.tasks = (before.updateTask id change).tasks
  supply : after.nextId = before.nextId
  claims : ∃ made, after.claims = made ++ before.claims
  dispatches : after.dispatches = before.dispatches
  sameId : ∀ task, (change task).id = task.id

namespace Updated

variable {change : ScheduledTask → ScheduledTask}

theorem of_mem (updated : Updated id change before after) {row : ScheduledTask}
    (rowMem : row ∈ after.tasks) :
    (row ∈ before.tasks ∧ row.id ≠ id) ∨
      ∃ old ∈ before.tasks, old.id = id ∧ row = change old := by
  rw [updated.tasks] at rowMem
  exact ScheduleDb.mem_updateTask rowMem

theorem keyed (updated : Updated id change before after) (keyed : before.Keyed) : after.Keyed :=
  (keyed.updateTask id change updated.sameId).of_eq updated.tasks updated.supply

theorem keeps (updated : Updated id change before after) (keyed : before.Keyed)
    (working : ∀ row ∈ before.tasks, row.id = id → (change row).status = .processing →
      after.claimCount id = before.claimCount id → row.status = .processing ∧
        (change row).scheduledFor = row.scheduledFor ∧ (change row).runCount = row.runCount)
    (final : ∀ row ∈ before.tasks, row.id = id → row.status.isFinal = true →
      (change row).status = row.status) :
    Keeps [id] before after where
  supply := updated.supply.ge
  claims other := by
    obtain ⟨made, claims_eq⟩ := updated.claims
    rw [ScheduleDb.claimCount, ScheduleDb.claimCount, claims_eq, List.count_append]
    exact Nat.le_add_left _ _
  dispatches := by
    rw [updated.dispatches]
    exact fun _ occurrenceMem => occurrenceMem
  known := by
    intro row rowMem _
    rcases updated.of_mem rowMem with ⟨oldMem, _⟩ | ⟨old, oldMem, rfl, rfl⟩
    · exact ⟨row, oldMem, rfl⟩
    · exact ⟨old, oldMem, (updated.sameId old).symm⟩
  working := by
    intro row rowMem _ isWorking unclaimed
    rcases updated.of_mem rowMem with ⟨oldMem, _⟩ | ⟨old, oldMem, rfl, rfl⟩
    · exact ⟨row, oldMem, rfl, isWorking, rfl, rfl⟩
    · rw [updated.sameId] at unclaimed ⊢
      obtain ⟨oldWorking, sameOccurrence, sameCount⟩ :=
        working old oldMem rfl isWorking unclaimed
      exact ⟨old, oldMem, rfl, oldWorking, sameOccurrence.symm, sameCount.symm⟩
  final := by
    intro task taskMem isFinal row rowMem sameKey
    rcases updated.of_mem rowMem with ⟨oldMem, _⟩ | ⟨old, oldMem, rfl, rfl⟩
    · rw [keyed.eq_of_mem oldMem taskMem sameKey]
    · rw [updated.sameId] at sameKey
      have same : old = task := keyed.eq_of_mem oldMem taskMem sameKey
      subst same
      exact final old oldMem rfl isFinal
  unwritten := by
    intro row rowMem _ notWritten
    rcases updated.of_mem rowMem with ⟨oldMem, _⟩ | ⟨old, oldMem, rfl, rfl⟩
    · exact oldMem
    · rw [updated.sameId] at notWritten
      exact absurd (List.mem_singleton_self old.id) notWritten

end Updated

/-! ## The invariant -/

/-- The completions of one task. -/
def ScheduleDb.completionsOf (db : ScheduleDb) (id : Uuid) : List (Uuid × Instant) :=
  db.completions.filter fun completion => completion.1 = id

/-- The occurrences that are counted lie behind the row, were dispatched, and are as many
as the row says. -/
structure LifeCycle (db : ScheduleDb) : Prop where
  keyed : db.Keyed
  completions_known : ∀ completion ∈ db.completions, completion.1 < db.nextId
  once_each : db.completions.Nodup
  passed : ∀ task ∈ db.tasks, ∀ occurrence, (task.id, occurrence) ∈ db.completions →
    task.status = .completed ∨ occurrence < task.scheduledFor
  counted : ∀ task ∈ db.tasks, task.runCount = (db.completionsOf task.id).length
  dispatched : ∀ completion ∈ db.completions, completion ∈ db.dispatches

/-- A commit of a life cycle: what holds after it and what it keeps. -/
structure Effect (rows : List Uuid) (before after : ScheduleDb) : Prop where
  lifeCycle : LifeCycle after
  keeps : Keeps rows before after

/-- An update that neither counts an occurrence nor moves a row to another one. -/
theorem Updated.effect {change : ScheduledTask → ScheduledTask}
    (updated : Updated id change before after) (lifeCycle : LifeCycle before)
    (sameCompletions : after.completions = before.completions)
    (sameOccurrence : ∀ task, (change task).scheduledFor = task.scheduledFor)
    (sameCount : ∀ task, (change task).runCount = task.runCount)
    (working : ∀ row ∈ before.tasks, row.id = id → (change row).status = .processing →
      after.claimCount id = before.claimCount id → row.status = .processing)
    (final : ∀ row ∈ before.tasks, row.id = id → row.status.isFinal = true →
      (change row).status = row.status) : Effect [id] before after where
  lifeCycle := {
    keyed := updated.keyed lifeCycle.keyed
    completions_known := by
      rw [sameCompletions, updated.supply]
      exact lifeCycle.completions_known
    once_each := by
      rw [sameCompletions]
      exact lifeCycle.once_each
    passed := by
      intro row rowMem occurrence wasCompleted
      rw [sameCompletions] at wasCompleted
      rcases updated.of_mem rowMem with ⟨oldMem, _⟩ | ⟨old, oldMem, rfl, rfl⟩
      · exact lifeCycle.passed row oldMem occurrence wasCompleted
      · rw [updated.sameId] at wasCompleted
        rw [sameOccurrence]
        rcases lifeCycle.passed old oldMem occurrence wasCompleted with isCompleted | isPassed
        · apply Or.inl
          rw [final old oldMem rfl (by rw [isCompleted]; rfl), isCompleted]
        · exact Or.inr isPassed
    counted := by
      intro row rowMem
      rw [ScheduleDb.completionsOf, sameCompletions]
      rcases updated.of_mem rowMem with ⟨oldMem, _⟩ | ⟨old, oldMem, rfl, rfl⟩
      · exact lifeCycle.counted row oldMem
      · rw [sameCount, updated.sameId]
        exact lifeCycle.counted old oldMem
    dispatched := by
      rw [sameCompletions, updated.dispatches]
      exact lifeCycle.dispatched }
  keeps := by
    apply updated.keeps lifeCycle.keyed
    · intro row rowMem sameId isWorking unclaimed
      exact ⟨working row rowMem sameId isWorking unclaimed, sameOccurrence row, sameCount row⟩
    · exact final

/-- A commit that removes rows and adds to the dispatches. -/
theorem LifeCycle.of_removed (lifeCycle : LifeCycle before) (keyed : after.Keyed)
    (removed : ∀ row ∈ after.tasks, row ∈ before.tasks)
    (sameSupply : after.nextId = before.nextId)
    (sameCompletions : after.completions = before.completions)
    (grown : ∀ occurrence ∈ before.dispatches, occurrence ∈ after.dispatches) :
    LifeCycle after where
  keyed := keyed
  completions_known := by
    rw [sameCompletions, sameSupply]
    exact lifeCycle.completions_known
  once_each := by
    rw [sameCompletions]
    exact lifeCycle.once_each
  passed := by
    rw [sameCompletions]
    exact fun row rowMem => lifeCycle.passed row (removed row rowMem)
  counted := by
    intro row rowMem
    rw [ScheduleDb.completionsOf, sameCompletions]
    exact lifeCycle.counted row (removed row rowMem)
  dispatched := by
    rw [sameCompletions]
    exact fun completion completionMem => grown _ (lifeCycle.dispatched completion completionMem)

/-! ## The commits one by one -/

section Commits

variable (lifeCycle : LifeCycle db)
include lifeCycle

theorem insertTask_effect (uncounted : task.runCount = 0) :
    Effect [] db (insertTask task db) where
  lifeCycle := {
    keyed := lifeCycle.keyed.insertTask task
    completions_known := fun completion completionMem =>
      Nat.lt_succ_of_lt (lifeCycle.completions_known completion completionMem)
    once_each := lifeCycle.once_each
    passed := by
      intro row rowMem occurrence wasCompleted
      rcases List.mem_append.mp rowMem with oldMem | newMem
      · exact lifeCycle.passed row oldMem occurrence wasCompleted
      · rw [List.mem_singleton.mp newMem] at wasCompleted
        exact absurd (lifeCycle.completions_known _ wasCompleted) (Nat.lt_irrefl db.nextId)
    counted := by
      intro row rowMem
      rcases List.mem_append.mp rowMem with oldMem | newMem
      · exact lifeCycle.counted row oldMem
      · rw [List.mem_singleton.mp newMem]
        have none : db.completionsOf db.nextId = [] := by
          apply List.filter_eq_nil_iff.mpr
          intro completion completionMem
          have known := lifeCycle.completions_known completion completionMem
          simpa using Nat.ne_of_lt known
        change task.runCount = (db.completionsOf db.nextId).length
        rw [none, uncounted]
        rfl
    dispatched := lifeCycle.dispatched }
  keeps := {
    supply := Nat.le_succ db.nextId
    claims := fun _ => le_refl _
    dispatches := fun _ occurrenceMem => occurrenceMem
    known := by
      intro row rowMem known
      rcases List.mem_append.mp rowMem with oldMem | newMem
      · exact ⟨row, oldMem, rfl⟩
      · rw [List.mem_singleton.mp newMem] at known
        exact absurd known (Nat.lt_irrefl db.nextId)
    working := by
      intro row rowMem known working _
      rcases List.mem_append.mp rowMem with oldMem | newMem
      · exact ⟨row, oldMem, rfl, working, rfl, rfl⟩
      · rw [List.mem_singleton.mp newMem] at known
        exact absurd known (Nat.lt_irrefl db.nextId)
    final := by
      intro old oldMem _ row rowMem sameId
      rcases List.mem_append.mp rowMem with rowOld | newMem
      · rw [lifeCycle.keyed.eq_of_mem rowOld oldMem sameId]
      · rw [List.mem_singleton.mp newMem] at sameId
        have known := lifeCycle.keyed.known old oldMem
        rw [← sameId] at known
        exact absurd known (Nat.lt_irrefl db.nextId)
    unwritten := by
      intro row rowMem known _
      rcases List.mem_append.mp rowMem with oldMem | newMem
      · exact oldMem
      · rw [List.mem_singleton.mp newMem] at known
        exact absurd known (Nat.lt_irrefl db.nextId) }

theorem writeClaim_effect (notFinal : task.status.isFinal = false)
    (read : ∀ row ∈ db.tasks, row.id = task.id → row = task) :
    Effect [task.id] db (writeClaim task now db) := by
  have updated : Updated task.id (ScheduledTask.claimed now) db (writeClaim task now db) :=
    ⟨rfl, rfl, ⟨[task.id], rfl⟩, rfl, fun _ => rfl⟩
  apply updated.effect lifeCycle rfl (fun _ => rfl) fun _ => rfl
  · intro row _ _ _ unclaimed
    exact absurd unclaimed (by simp [writeClaim, ScheduleDb.claimCount, ScheduleDb.updateTask])
  · intro row rowMem sameId isFinal
    rw [← read row rowMem sameId, isFinal] at notFinal
    cases notFinal

theorem writeRetry_effect {error : String}
    (notFinal : ∀ row ∈ db.tasks, row.id = loaded.id → row.status.isFinal = false) :
    Effect [loaded.id] db (writeRetry loaded error now db) := by
  have updated : Updated loaded.id (loaded.merge (loaded.retried now error)) db
      (writeRetry loaded error now db) := ⟨rfl, rfl, ⟨[], rfl⟩, rfl, fun _ => rfl⟩
  apply updated.effect lifeCycle rfl
  · intro row
    exact mergeColumn_unassigned loaded.scheduledFor row.scheduledFor
  · intro row
    exact mergeColumn_unassigned loaded.runCount row.runCount
  · intro row _ _ isWorking _
    exact stored_eq_of_mergeColumn_eq isWorking ScheduledTaskStatus.noConfusion
  · intro row rowMem sameId isFinal
    rw [notFinal row rowMem sameId] at isFinal
    cases isFinal

theorem writeCancel_effect {deletion : Bool}
    (notCompleted : ∀ row ∈ db.tasks, row.id = loaded.id → row.status ≠ .completed) :
    Effect [loaded.id] db (writeCancel loaded now deletion db) := by
  have updated : Updated loaded.id (loaded.merge (loaded.cancelled now)) db
      (writeCancel loaded now deletion db) := ⟨rfl, rfl, ⟨[], rfl⟩, rfl, fun _ => rfl⟩
  apply updated.effect lifeCycle rfl
  · intro row
    exact mergeColumn_unassigned loaded.scheduledFor row.scheduledFor
  · intro row
    exact mergeColumn_unassigned loaded.runCount row.runCount
  · intro row _ _ isWorking _
    exact stored_eq_of_mergeColumn_eq isWorking ScheduledTaskStatus.noConfusion
  · intro row rowMem sameId isFinal
    have isCancelled : row.status = .cancelled := by
      have differs := notCompleted row rowMem sameId
      cases status_eq : row.status <;> simp_all [ScheduledTaskStatus.isFinal]
    simp only [ScheduledTask.merge, ScheduledTask.cancelled, mergeColumn, isCancelled, ite_self]

theorem writeDispatch_effect : Effect [] db (writeDispatch task db) where
  lifeCycle := lifeCycle.of_removed (lifeCycle.keyed.of_eq rfl rfl) (fun _ rowMem => rowMem) rfl rfl
    fun _ => List.mem_cons_of_mem _
  keeps := Keeps.of_same rfl rfl rfl (fun _ => List.mem_cons_of_mem _) lifeCycle.keyed

theorem purgeAccount_effect (task : ScheduledTask) (rows : List Uuid) :
    Effect rows db (purgeAccount task db) where
  lifeCycle := lifeCycle.of_removed (lifeCycle.keyed.purgeAccount task)
    (fun _ => List.mem_of_mem_filter) rfl rfl fun _ => List.mem_cons_of_mem _
  keeps := {
    supply := le_refl db.nextId
    claims := fun _ => le_refl _
    dispatches := fun _ => List.mem_cons_of_mem _
    known := fun row rowMem _ => ⟨row, List.mem_of_mem_filter rowMem, rfl⟩
    working := fun row rowMem _ working _ =>
      ⟨row, List.mem_of_mem_filter rowMem, rfl, working, rfl, rfl⟩
    final := by
      intro old oldMem _ row rowMem sameId
      rw [lifeCycle.keyed.eq_of_mem (List.mem_of_mem_filter rowMem) oldMem sameId]
    unwritten := fun _ rowMem _ _ => List.mem_of_mem_filter rowMem }

/-- A completion under the last claim of a task in progress. -/
theorem writeComplete_effect {zones : String → Option Zone} {completed : ScheduledTask}
    (completes : loaded.completed? zones now = some completed)
    (reached : loaded.recurrence = .once ∨ ∀ zone, zones loaded.timezone = some zone →
      zone.wall loaded.scheduledFor ≤ zone.wall now)
    (found : (db.task? loaded.id).isSome)
    (current : ∀ row ∈ db.tasks, row.id = loaded.id → row.status = .processing ∧
      loaded.status = .processing ∧ loaded.scheduledFor = row.scheduledFor ∧
        loaded.runCount = row.runCount ∧ (loaded.id, row.scheduledFor) ∈ db.dispatches) :
    Effect [loaded.id] db (writeComplete loaded completed db) := by
  have updated : Updated loaded.id (loaded.merge completed) db
      (writeComplete loaded completed db) := ⟨rfl, rfl, ⟨[], rfl⟩, rfl, fun _ => rfl⟩
  obtain ⟨stored, stored_eq⟩ := Option.isSome_iff_exists.mp found
  obtain ⟨storedMem, storedId⟩ := ScheduleDb.of_task? stored_eq
  obtain ⟨storedWorking, working, sameOccurrence, sameCount, wasDispatched⟩ :=
    current stored storedMem storedId
  obtain ⟨counts, settled, moves⟩ :=
    ScheduledTask.merge_completed completes reached working sameCount
  have onlyStored : ∀ row ∈ db.tasks, row.id = loaded.id → row = stored := by
    intro row rowMem sameId
    exact lifeCycle.keyed.eq_of_mem rowMem storedMem (sameId.trans storedId.symm)
  have completions_eq : (writeComplete loaded completed db).completions =
      (loaded.id, stored.scheduledFor) :: db.completions := by
    simp [writeComplete, stored_eq, storedId]
  have uncounted : (loaded.id, stored.scheduledFor) ∉ db.completions := by
    rw [← storedId]
    intro wasCompleted
    rcases lifeCycle.passed stored storedMem _ wasCompleted with isCompleted | isPassed
    · rw [storedWorking] at isCompleted
      cases isCompleted
    · exact lt_irrefl _ isPassed
  constructor
  · constructor
    · exact updated.keyed lifeCycle.keyed
    · rw [completions_eq]
      intro completion completionMem
      rcases List.mem_cons.mp completionMem with rfl | oldMem
      · exact storedId ▸ lifeCycle.keyed.known stored storedMem
      · exact lifeCycle.completions_known completion oldMem
    · rw [completions_eq]
      exact List.nodup_cons.mpr ⟨uncounted, lifeCycle.once_each⟩
    · rw [completions_eq]
      intro row rowMem occurrence wasCompleted
      rcases updated.of_mem rowMem with ⟨oldMem, otherId⟩ | ⟨old, oldMem, sameId, rfl⟩
      · rcases List.mem_cons.mp wasCompleted with isNew | wasOld
        · exact absurd (congrArg Prod.fst isNew) otherId
        · exact lifeCycle.passed row oldMem occurrence wasOld
      · cases onlyStored old oldMem sameId
        rcases moves with isCompleted | later
        · exact Or.inl isCompleted
        · apply Or.inr
          rw [sameOccurrence] at later
          rcases List.mem_cons.mp wasCompleted with isNew | wasOld
          · have isStored : occurrence = stored.scheduledFor := congrArg Prod.snd isNew
            rwa [isStored]
          · rcases lifeCycle.passed stored storedMem occurrence wasOld with isCompleted | isPassed
            · rw [storedWorking] at isCompleted
              cases isCompleted
            · exact lt_trans isPassed later
    · intro row rowMem
      rw [ScheduleDb.completionsOf, completions_eq]
      rcases updated.of_mem rowMem with ⟨oldMem, otherId⟩ | ⟨old, oldMem, sameId, rfl⟩
      · rw [List.filter_cons_of_neg (by simpa using Ne.symm otherId)]
        exact lifeCycle.counted row oldMem
      · cases onlyStored old oldMem sameId
        rw [counts, lifeCycle.counted stored storedMem, updated.sameId,
          List.filter_cons_of_pos (by simpa using storedId.symm)]
        rfl
    · rw [completions_eq]
      intro completion completionMem
      rcases List.mem_cons.mp completionMem with rfl | oldMem
      · exact wasDispatched
      · exact lifeCycle.dispatched completion oldMem
  · apply updated.keeps lifeCycle.keyed
    · intro row rowMem sameId isWorking
      cases onlyStored row rowMem sameId
      exact absurd isWorking settled
    · intro row rowMem sameId isFinal
      cases onlyStored row rowMem sameId
      rw [storedWorking] at isFinal
      cases isFinal

end Commits

/-! ## The assertions at the points -/

/-- What a session relies on at a point. -/
def Stage (db : ScheduleDb) (point : Point) (held : Held Uuid) : Prop :=
  match point with
  | .insertTask task => task.runCount = 0
  | .writeClaim task _ =>
      task.status.isFinal = false ∧ task.id < db.nextId ∧ held task.id ∧
        ∀ row ∈ db.tasks, row.id = task.id → row = task
  | .dispatch task claim | .deleteAccount task claim =>
      WhileClaimed db task.id claim fun occurrence _ => occurrence = task.scheduledFor
  | .completeTask id claim =>
      WhileClaimed db id claim fun occurrence _ => (id, occurrence) ∈ db.dispatches
  | .writeComplete loaded claim _ =>
      WhileClaimed db loaded.id claim fun occurrence count =>
        loaded.status = .processing ∧ loaded.scheduledFor = occurrence ∧
          loaded.runCount = count ∧ (loaded.id, occurrence) ∈ db.dispatches
  | _ => True

/-- A commit of another session keeps the assertion at a point. -/
theorem Stage.keeps (stage : Stage before point held)
    (keeps : Keeps rows before after) (apart : ∀ row, held row → row ∉ rows) :
    Stage after point held := by
  cases point with
  | insertTask task => exact stage
  | writeClaim task now =>
      obtain ⟨notFinal, known, isHeld, read⟩ := stage
      refine ⟨notFinal, lt_of_lt_of_le known keeps.supply, isHeld, ?_⟩
      intro row rowMem sameId
      apply read row _ sameId
      apply keeps.unwritten row rowMem
      · rwa [sameId]
      · rw [sameId]
        exact apart task.id isHeld
  | dispatch task claim | deleteAccount task claim =>
      rw [Stage] at stage ⊢
      exact stage.keeps keeps fun _ _ fact => fact
  | completeTask id claim =>
      rw [Stage] at stage ⊢
      exact stage.keeps keeps fun _ _ => keeps.dispatches _
  | writeComplete loaded claim now =>
      rw [Stage] at stage ⊢
      apply stage.keeps keeps
      rintro occurrence count ⟨working, sameOccurrence, sameCount, dispatched⟩
      exact ⟨working, sameOccurrence, sameCount, keeps.dispatches _ dispatched⟩
  | createTask _ | claimTask _ _ | retryTask _ _ _ | writeRetry _ _ _ _ | cancelTask _ _
  | scheduleDeletion _ | cancelDeletion _ | flushCancel _ _ _ | commitCancel _ _ _
  | finished => exact True.intro

/-- The work of a claimed task is done. -/
theorem WhileClaimed.stage_completeTask
    (claimed : WhileClaimed before task.id claim fun occurrence _ => occurrence = task.scheduledFor)
    (keeps : Keeps rows before after) (dispatched : (task.id, task.scheduledFor) ∈ after.dispatches) :
    Stage after (.completeTask task.id claim) held := by
  rw [Stage]
  apply claimed.keeps keeps
  rintro occurrence _ rfl
  exact dispatched

/-- A commit under the condition, at a point whose assertion holds. -/
theorem Writing.effect {zones : String → Option Zone} {system : System ScheduleDb Uuid Point}
    {session : Nat} {input : Input} {rows : ScheduleDb → List Uuid}
    {permitted : ScheduleDb → Bool} {write : ScheduleDb → ScheduleDb}
    {next : ScheduleDb → Option Point} (writing : Writing zones point input rows permitted write next)
    (atPoint : system.points session = some point)
    (isPermitted : permitted system.database = true)
    (allowed : fenced zones system (.advance session input) = true)
    (lifeCycle : LifeCycle system.database) (stage : Stage system.database point held) :
    Effect (rows system.database) system.database (write system.database) ∧
      ∀ target, next (write system.database) = some target →
        Stage (write system.database) target fun _ => False := by
  cases writing with
  | insertTask _ =>
      constructor
      · exact insertTask_effect lifeCycle stage
      · rintro target ⟨⟩
  | @writeClaim task now _ =>
      obtain ⟨notFinal, known, _, read⟩ := stage
      constructor
      · exact writeClaim_effect lifeCycle notFinal read
      · rintro target ⟨⟩
        refine ⟨known, le_refl _, ?_⟩
        intro row rowMem sameId _ _
        rcases ScheduleDb.mem_updateTask rowMem with ⟨_, otherId⟩ | ⟨old, oldMem, oldId, rfl⟩
        · exact absurd sameId otherId
        · rw [read old oldMem oldId]
  | @dispatch task claim _ _ =>
      have effect : Effect [] system.database (writeDispatch task system.database) :=
        writeDispatch_effect lifeCycle
      constructor
      · exact effect
      · rintro target ⟨⟩
        exact WhileClaimed.stage_completeTask stage effect.keeps List.mem_cons_self
  | @deleteAccount task claim _ =>
      have effect := purgeAccount_effect lifeCycle task
      constructor
      · exact effect _
      · rintro target ⟨⟩
        exact WhileClaimed.stage_completeTask stage (effect []).keeps List.mem_cons_self
  | @writeComplete loaded completed claim now _ completes =>
      simp only [fenced, atPoint, Bool.and_eq_true, Bool.or_eq_true, decide_eq_true_eq,
        Option.all_eq_true] at allowed
      obtain ⟨fence, reached⟩ := allowed
      rw [Stage] at stage
      obtain ⟨_, _, whileWorking⟩ := stage
      constructor
      · apply writeComplete_effect lifeCycle completes reached isPermitted
        intro row rowMem sameId
        obtain ⟨working, lastClaim⟩ := fence row (sameId ▸ lifeCycle.keyed.task?_eq rowMem)
        exact ⟨working, whileWorking row rowMem sameId working lastClaim⟩
      · rintro target ⟨⟩
  | writeRetry =>
      simp only [fenced, atPoint] at allowed
      constructor
      · apply writeRetry_effect lifeCycle
        intro row rowMem sameId
        rw [← sameId, lifeCycle.keyed.task?_eq rowMem] at allowed
        simpa using allowed
      · rintro target ⟨⟩
  | commitCancel commits =>
      simp only [fenced, atPoint] at allowed
      constructor
      · apply writeCancel_effect lifeCycle
        intro row rowMem sameId
        rw [← sameId, lifeCycle.keyed.task?_eq rowMem, commits] at allowed
        simpa using allowed
      · rintro target ⟨⟩

/-! ## Reads -/

/-- Reading establishes the assertion at the next point. -/
theorem Arriving.stage {target : Point} (arriving : Arriving db point target)
    (lifeCycle : LifeCycle db)
    (stage : Stage db point held) : Stage db target held := by
  cases arriving with
  | insertTask => exact rfl
  | writeComplete found _ =>
      obtain ⟨taskMem, rfl⟩ := ScheduleDb.of_task? found
      obtain ⟨known, made, whileWorking⟩ := stage
      refine ⟨known, made, ?_⟩
      intro row rowMem sameId working lastClaim
      have same := lifeCycle.keyed.eq_of_mem rowMem taskMem sameId
      have dispatched := whileWorking row rowMem sameId working lastClaim
      subst same
      exact ⟨working, rfl, rfl, dispatched⟩
  | finished | createTask | writeRetry _ _ | flushCancel _ => exact True.intro

/-- Locking the row of a claim. -/
theorem Claiming.stage {maxAttempts : Nat} {taskId chosen : Option Uuid} {target : Point}
    (claiming : Claiming db chosen target)
    (lifeCycle : LifeCycle db)
    (isCandidate : ∀ row, chosen = some row → row ∈ claimCandidates maxAttempts taskId now db) :
    Stage db target fun row => chosen = some row ∨ held row := by
  cases claiming with
  | finished => exact True.intro
  | @writeClaim id task _ found =>
      obtain ⟨taskMem, sameId, eligible⟩ :=
        lifeCycle.keyed.of_claimCandidate (isCandidate id rfl) found
      have isLive := ScheduledTask.isLive_of_eligible eligible
      refine ⟨ScheduledTaskStatus.not_isFinal_of_isLive isLive,
        lifeCycle.keyed.known task taskMem, Or.inl (by rw [sameId]), ?_⟩
      exact fun row rowMem same => lifeCycle.keyed.eq_of_mem rowMem taskMem same

theorem Returning.stage {target : Point} (returning : Returning point target)
    (stage : Stage db point held) :
    Stage db target fun _ => False := by
  cases returning with
  | deleteAccount _ => exact stage
  | retryDispatch | retryDeletion | retryComplete => exact True.intro

/-! ## Runs -/

/-- The proof outline of the service under the condition. -/
def outline (zones : String → Option Zone) :
    Outline (protocol zones) fun system event => fenced zones system event = true where
  Global := LifeCycle
  Local := Stage
  start := by
    intro database point mayStart _
    cases point <;> first | exact True.intro | cases mayStart
  read := by
    intro database point input next held requested lifeCycle stage
    cases requests_of_eq requested with
    | read arrives => exact (arrives database).stage lifeCycle stage
  lock := by
    intro database point input rows next held requested _ _
    cases requests_of_eq requested with
    | flush _ =>
        dsimp only
        split <;> exact True.intro
  skipLocked := by
    intro database point input candidates next held chosen requested lifeCycle _ isCandidate
    cases requests_of_eq requested with
    | claim claims => exact (claims chosen database).stage lifeCycle isCandidate
  rollback := by
    intro database point input next target held requested target_eq _ stage
    cases requests_of_eq requested with
    | rollback returns => exact (returns target target_eq).stage stage
  refused := by
    intro database point input rows permitted write next refused target held requested
      target_eq _ stage
    cases requests_of_eq requested with
    | commit _ returns => exact (returns target target_eq).stage stage
  commit := by
    intro system session point input rows permitted write next refused commits allowed
      lifeCycle stage
    cases requests_of_eq commits.requested with
    | commit writing _ =>
        obtain ⟨effect, own⟩ :=
          writing.effect commits.at_point commits.permitted allowed lifeCycle stage
        exact ⟨effect.lifeCycle, own⟩
  interference := by
    intro system session point input rows permitted write next refused commits allowed
      lifeCycle stage other held otherStage apart
    cases requests_of_eq commits.requested with
    | commit writing _ =>
        obtain ⟨effect, _⟩ :=
          writing.effect commits.at_point commits.permitted allowed lifeCycle stage
        exact otherStage.keeps effect.keeps fun row isHeld => (apart row isHeld).1

variable {zones : String → Option Zone} {system : System ScheduleDb Uuid Point}

theorem lifeCycle_empty : LifeCycle ScheduleDb.empty where
  keyed := ⟨List.nodup_nil, by simp [ScheduleDb.empty]⟩
  completions_known := by simp [ScheduleDb.empty]
  once_each := List.nodup_nil
  passed := by simp [ScheduleDb.empty]
  counted := by simp [ScheduleDb.empty]
  dispatched := by simp [ScheduleDb.empty]

/-- Between two states that a step connects, every commit was one that keeps the final
statuses. -/
theorem keeps_of_step {event : Event Point Input} {next : System ScheduleDb Uuid Point}
    (sound : (outline zones).Sound system) (allowed : fenced zones system event = true)
    (stepped : system.step (protocol zones) event = some next) :
    ∃ rows, Keeps rows system.database next.database := by
  rcases System.step_database stepped with same | ⟨session, point, input, rows, permitted,
    write, goOn, refused, rfl, commits, rfl⟩
  · exact ⟨[], Keeps.of_same (by rw [same]) (by rw [same]) (by rw [same])
      (by rw [same]; exact fun _ occurrenceMem => occurrenceMem) sound.global.keyed⟩
  · cases requests_of_eq commits.requested with
    | commit writing _ =>
        obtain ⟨effect, _⟩ := writing.effect commits.at_point commits.permitted allowed
          sound.global (sound.local_ commits.at_point)
        exact ⟨rows system.database, effect.keeps⟩

/-- A final status stays in every later state. -/
theorem final_of_run {later : System ScheduleDb Uuid Point} (sound : (outline zones).Sound system)
    (run : Run (System.step (protocol zones))
      (fun state event => fenced zones state event = true) system later)
    (taskMem : task ∈ system.database.tasks) (isFinal : task.status.isFinal = true) :
    ∀ row ∈ later.database.tasks, row.id = task.id → row.status = task.status := by
  have stays : (outline zones).Sound later ∧ task.id < later.database.nextId ∧
      ∀ row ∈ later.database.tasks, row.id = task.id → row.status = task.status := by
    apply run.invariant fun state => (outline zones).Sound state ∧
      task.id < state.database.nextId ∧
        ∀ row ∈ state.database.tasks, row.id = task.id → row.status = task.status
    · rintro state event next ⟨stateSound, known, statuses⟩ allowed stepped
      obtain ⟨rows, keeps⟩ := keeps_of_step stateSound allowed stepped
      refine ⟨stateSound.step allowed stepped, lt_of_lt_of_le known keeps.supply, ?_⟩
      intro row rowMem sameId
      obtain ⟨old, oldMem, oldId⟩ := keeps.known row rowMem (sameId ▸ known)
      have oldStatus := statuses old oldMem (oldId.trans sameId)
      rw [keeps.final old oldMem (oldStatus ▸ isFinal) row rowMem oldId.symm, oldStatus]
    · refine ⟨sound, sound.global.keyed.known task taskMem, ?_⟩
      intro row rowMem sameId
      rw [sound.global.keyed.eq_of_mem rowMem taskMem sameId]
  exact stays.2.2

/-- The number of occurrences of a task whose work was done. -/
def ScheduleDb.dispatchedOccurrences (db : ScheduleDb) (id : Uuid) : Nat :=
  (db.dispatches.filter fun occurrence => occurrence.1 = id).dedup.length

theorem LifeCycle.runCount_le (lifeCycle : LifeCycle db) (taskMem : task ∈ db.tasks) :
    task.runCount ≤ db.dispatchedOccurrences task.id := by
  rw [lifeCycle.counted task taskMem]
  have onceEach : (db.completionsOf task.id).Nodup := lifeCycle.once_each.filter _
  apply List.Subperm.length_le
  apply List.subperm_of_subset onceEach
  intro completion completionMem
  rw [ScheduleDb.completionsOf, List.mem_filter] at completionMem
  rw [List.mem_dedup, List.mem_filter]
  exact ⟨lifeCycle.dispatched completion completionMem.1, completionMem.2⟩

/-- In a run of workers and cancellations in which every settlement is under the last
claim, final statuses are final, no occurrence is counted twice, and the run count is the
number of occurrences counted, which were all dispatched. -/
theorem fenced_run_lifeCycle {earlier later : System ScheduleDb Uuid Point}
    (first : Run (System.step (protocol zones))
      (fun state event => fenced zones state event = true) (System.idle ScheduleDb.empty) earlier)
    (second : Run (System.step (protocol zones))
      (fun state event => fenced zones state event = true) earlier later) :
    (∀ task ∈ earlier.database.tasks, task.status.isFinal = true →
      ∀ row ∈ later.database.tasks, row.id = task.id → row.status = task.status) ∧
    later.database.completions.Nodup ∧
    ∀ task ∈ later.database.tasks,
      task.runCount = (later.database.completionsOf task.id).length ∧
        task.runCount ≤ later.database.dispatchedOccurrences task.id := by
  have initially : (outline zones).Sound (System.idle ScheduleDb.empty) :=
    Outline.sound_idle lifeCycle_empty
  have earlierSound : (outline zones).Sound earlier := initially.run first
  have laterSound : (outline zones).Sound later := earlierSound.run second
  refine ⟨?_, laterSound.global.once_each, ?_⟩
  · intro task taskMem isFinal
    exact final_of_run earlierSound second taskMem isFinal
  · intro task taskMem
    exact ⟨laterSound.global.counted task taskMem, laterSound.global.runCount_le taskMem⟩

/-! ## A claim that is overtaken -/

def reminder : NewTask :=
  ⟨7, agentReachoutAction, "reminder", "Call", 60 * second, "UTC", .once⟩

/-- One session creates a task for the first minute. -/
def createReminder : List (Event Point Input) :=
  [.start 0 (.createTask reminder), tick 0 0, tick 0 0]

/-- A worker dispatches and completes. -/
def finish (worker : Nat) (now : Instant) : List (Event Point Input) :=
  [tick worker now, tick worker now, tick worker now]

/-- A worker fails to dispatch and retries. -/
def fail (worker : Nat) (now : Instant) : List (Event Point Input) :=
  [.advance worker ⟨now, some "timeout", true, 0⟩, tick worker now, tick worker now]

/-- The steps of a task whose worker is overtaken after five minutes and completes it. -/
def overtaken : List (Event Point Input) :=
  createReminder ++ claimAt 1 (60 * second) ++ claimAt 2 (400 * second) ++ finish 1 (401 * second)

/-- The second worker fails, and a completed task is up for another try; or it succeeds,
and the only occurrence is counted a second time. -/
theorem overtaken_claim_unsettles :
    ∃ completed retried recounted : System ScheduleDb Uuid Point,
      Run (System.step (protocol utcOnly)) (fun _ _ => True) (System.idle ScheduleDb.empty)
        completed ∧
      Run (System.step (protocol utcOnly)) (fun _ _ => True) completed retried ∧
      Run (System.step (protocol utcOnly)) (fun _ _ => True) completed recounted ∧
      (completed.database.tasks.map fun task => (task.id, task.status)) = [(0, .completed)] ∧
      (retried.database.tasks.map fun task => (task.id, task.status)) = [(0, .failed)] ∧
      recounted.database.completions = [(0, 60 * second), (0, 60 * second)] ∧
      (recounted.database.tasks.map fun task => (task.id, task.runCount)) = [(0, 2)] ∧
      recounted.database.dispatchedOccurrences 0 = 1 := by
  have runs : (execute (System.step (protocol utcOnly)) (fun _ _ => true)
      (System.idle ScheduleDb.empty) overtaken).any (fun completed =>
        ((completed.database.tasks.map fun task => (task.id, task.status)) = [(0, .completed)]) &&
        (execute (System.step (protocol utcOnly)) (fun _ _ => true) completed
          (fail 2 (402 * second))).any (fun retried =>
            (retried.database.tasks.map fun task => (task.id, task.status)) = [(0, .failed)]) &&
        (execute (System.step (protocol utcOnly)) (fun _ _ => true) completed
          (finish 2 (402 * second))).any (fun recounted =>
            recounted.database.completions = [(0, 60 * second), (0, 60 * second)] &&
            ((recounted.database.tasks.map fun task => (task.id, task.runCount)) = [(0, 2)]) &&
            recounted.database.dispatchedOccurrences 0 = 1)) = true := by
    decide
  simp only [Option.any_eq_true, Bool.and_eq_true, decide_eq_true_eq] at runs
  obtain ⟨completed, toCompleted, ⟨isCompleted, retried, toRetried, isRetried⟩, recounted,
    toRecounted, ⟨twice, counts⟩, dispatched⟩ := runs
  exact ⟨completed, retried, recounted, (run_of_execute toCompleted).mono fun _ _ _ => True.intro,
    (run_of_execute toRetried).mono fun _ _ _ => True.intro,
    (run_of_execute toRecounted).mono fun _ _ _ => True.intro,
    isCompleted, isRetried, twice, counts, dispatched⟩

/-- A worker that is not overtaken: its task is completed, counted once, and stays so when
a later cancellation finds it. -/
theorem punctual_claim_settles :
    ∃ earlier later : System ScheduleDb Uuid Point,
      (earlier.database.tasks.map fun task => (task.id, task.status)) = [(0, .completed)] ∧
      (∀ task ∈ earlier.database.tasks, task.status.isFinal = true →
        ∀ row ∈ later.database.tasks, row.id = task.id → row.status = task.status) ∧
      later.database.completions.Nodup ∧
      ∀ task ∈ later.database.tasks,
        task.runCount = (later.database.completionsOf task.id).length ∧
          task.runCount ≤ later.database.dispatchedOccurrences task.id := by
  have runs : (execute (System.step (protocol utcOnly)) (fenced utcOnly)
      (System.idle ScheduleDb.empty)
      (createReminder ++ claimAt 1 (60 * second) ++ finish 1 (61 * second))).any (fun earlier =>
        ((earlier.database.tasks.map fun task => (task.id, task.status)) = [(0, .completed)]) &&
        (execute (System.step (protocol utcOnly)) (fenced utcOnly) earlier
          [.start 2 (.cancelTask 7 0), tick 2 (62 * second)]).isSome) = true := by
    decide
  simp only [Option.any_eq_true, Bool.and_eq_true, decide_eq_true_eq,
    Option.isSome_iff_exists] at runs
  obtain ⟨earlier, toEarlier, isCompleted, later, toLater⟩ := runs
  exact ⟨earlier, later, isCompleted,
    fenced_run_lifeCycle (run_of_execute toEarlier) (run_of_execute toLater)⟩

end DotBackend.Schedules
