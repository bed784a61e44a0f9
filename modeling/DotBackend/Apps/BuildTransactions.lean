import DotBackend.Apps.BuildFencing
import DotBackend.Apps.OwnedApps

/-!
# Whole transactions on builds

Each transaction of the queue run by itself, with the journal. Whatever sequence of them
runs, every job that is in the hands of a worker has a lease, and no job disappears.
-/

namespace DotBackend.Apps

open Data

/-! ## The transactions -/

/-- The loop of `claim_next_build`, with the job that it claims. -/
def claimJobs (workerId : String) (leaseSeconds : Int) (now : Instant) :
    List GeneratedAppBuildJob → BuildDb → Option GeneratedAppBuildJob × BuildDb
  | [], db => (none, db)
  | job :: rest, db =>
      if maxBuildAttempts ≤ job.attempts then
        claimJobs workerId leaseSeconds now rest (writeTerminalized job now db)
      else (some (job.claimedFor workerId leaseSeconds now),
        writeBuildClaim job workerId leaseSeconds now db)

/-- The jobs that `claim_next_build` looks at, in order. -/
def eligibleJobs (db : AppsDb) (now : Instant) : List GeneratedAppBuildJob :=
  Table.orderBy (fun a b => a.createdAt ≤ b.createdAt)
    (db.jobs.filter (GeneratedAppBuildJob.eligible now))

/-- `claim_next_build`. -/
def BuildDb.claimNext (db : BuildDb) (workerId : String) (leaseSeconds : Int) (now : Instant) :
    Except CodeAppError (Option GeneratedAppBuildJob × BuildDb) := do
  let clean ← text (.str workerId) "worker_id" 120
  pure (claimJobs clean leaseSeconds now (eligibleJobs db.tables now) db)

/-- `complete_build`. -/
def BuildDb.complete (platform : Platform) (db : BuildDb) (result : BuildResult) (token : String)
    (now : Instant) : Except CodeAppError BuildDb := do
  let job ← claimedJob db.tables result.jobId result.workerId result.expectedAttempt
  checkBuildResult result
  let tables ← finishBuild platform.toUnicode db.tables job result token now
  pure ⟨tables, (job.id, .succeeded result.workerId job.attempts) :: db.journal⟩

/-- `fail_build`. -/
def BuildDb.fail (platform : Platform) (db : BuildDb) (failure : BuildFailure) (now : Instant) :
    Except CodeAppError BuildDb := do
  let job ← claimedJob db.tables failure.jobId failure.workerId failure.expectedAttempt
  let tables ← settleFailure platform db.tables job failure now
  pure ⟨tables, (job.id, if retries platform failure job then
    .requeued failure.workerId job.attempts else .failed failure.workerId job.attempts) ::
      db.journal⟩

/-- A transaction of another session. -/
inductive BuildCall
  | queue (request : QueueRequest)
  | claim (workerId : String) (leaseSeconds : Int)
  | complete (result : BuildResult) (token : String)
  | fail (failure : BuildFailure)
  | archive (userId appId : Uuid)

/-- What a transaction leaves behind at a time; one that raises leaves nothing. -/
def BuildCall.run (platform : Platform) (now : Instant) (db : BuildDb) : BuildCall → BuildDb
  | queue request =>
      match startQueue db.tables request, newJob db.tables request now with
      | .ok none, .ok job => if jobsPermit job db.tables then writeJob job db else db
      | _, _ => db
  | claim workerId leaseSeconds =>
      ((db.claimNext workerId leaseSeconds now).map Prod.snd).toOption.getD db
  | complete result token => (db.complete platform result token now).toOption.getD db
  | fail failure => (db.fail platform failure now).toOption.getD db
  | archive userId appId =>
      if mayArchive db.tables userId appId then writeArchived appId now db else db

/-- The transactions of other sessions, each at its time. -/
def runCalls (platform : Platform) (calls : List (BuildCall × Instant)) (db : BuildDb) : BuildDb :=
  calls.foldl (fun db call => call.1.run platform call.2 db) db

/-! ## Without the journal -/

section Tables

variable {platform : Platform} {db : BuildDb} {now : Instant}

end Tables

/-! ## What every transaction keeps -/

/-- The queue is sound, and who holds a job has a lease. -/
structure QueueLeased (db : BuildDb) : Prop extends QueueSound db where
  leased : ∀ job ∈ db.tables.jobs, job.status = .claimed → job.leaseExpiresAt.isSome = true

/-- A transaction keeps the queue, every job, and what happened to it. -/
structure Advances (before after : BuildDb) : Prop where
  queue : QueueLeased after
  jobs : ∀ job ∈ before.tables.jobs, ∃ row ∈ after.tables.jobs, row.id = job.id ∧
    before.history job.id <:+ after.history job.id

section Keeps

variable {platform : Platform} {db before middle after : BuildDb} {now : Instant}
  {job : GeneratedAppBuildJob} {rows : List RowId}

theorem Advances.refl (queue : QueueLeased db) : Advances db db :=
  ⟨queue, fun job stored => ⟨job, stored, rfl, List.suffix_refl _⟩⟩

theorem Advances.trans (first : Advances before middle) (second : Advances middle after) :
    Advances before after where
  queue := second.queue
  jobs := by
    intro job stored
    rcases first.jobs job stored with ⟨between, betweenMem, sameId, grows⟩
    rcases second.jobs between betweenMem with ⟨row, rowMem, rowId, goesOn⟩
    rw [sameId] at goesOn
    exact ⟨row, rowMem, rowId.trans sameId, grows.trans goesOn⟩

/-- What happened to a job stays in its history. -/
theorem BuildEffect.jobs (effect : BuildEffect rows before after) :
    ∀ job ∈ before.tables.jobs, ∃ row ∈ after.tables.jobs, row.id = job.id ∧
      before.history job.id <:+ after.history job.id := by
  intro job stored
  rcases effect.moves job stored with ⟨row, rowMem, sameId, ⟨_, same⟩ | ⟨what, _, grows⟩⟩
  · rw [same]
    exact ⟨row, rowMem, sameId, List.suffix_refl _⟩
  · rw [grows]
    exact ⟨row, rowMem, sameId, List.suffix_cons _ _⟩

/-- What changes jobs only in a way that gives a claimed one a lease. -/
theorem BuildEffect.advances (effect : BuildEffect rows before after) (queue : QueueLeased before)
    {condition : GeneratedAppBuildJob → Bool}
    {change : GeneratedAppBuildJob → GeneratedAppBuildJob}
    (jobs_eq : after.tables.jobs = Table.update condition change before.tables.jobs)
    (leases : ∀ job, (change job).status = .claimed → (change job).leaseExpiresAt.isSome = true) :
    Advances before after where
  queue := by
    refine ⟨effect.sound, ?_⟩
    intro row rowMem claimed
    rw [jobs_eq] at rowMem
    rcases Table.mem_update_cases rowMem with ⟨old, _, _, rfl⟩ | ⟨oldMem, _⟩
    · exact leases old claimed
    · exact queue.leased row oldMem claimed
  jobs := effect.jobs

theorem advances_writeJob (queue : QueueLeased db) (isQueued : job.status = .queued)
    (unattempted : job.attempts = 0) (permits : jobsPermit job db.tables = true) :
    Advances db (writeJob job db) := by
  have effect : BuildEffect [] db (writeJob job db) :=
    effect_writeJob queue.toQueueSound isQueued unattempted permits
  refine ⟨⟨effect.sound, ?_⟩, effect.jobs⟩
  intro row rowMem claimed
  rcases List.mem_append.mp rowMem with oldMem | newMem
  · exact queue.leased row oldMem claimed
  · rw [List.mem_singleton.mp newMem] at claimed
    cases isQueued.symm.trans claimed

theorem advances_writeTerminalized (queue : QueueLeased db) (stored : job ∈ db.tables.jobs)
    (isLive : job.isLive = true) (exhausted : 3 ≤ job.attempts) (now : Instant) :
    Advances db (writeTerminalized job now db) := by
  apply (effect_writeTerminalized queue.toQueueSound stored isLive exhausted now).advances queue
  · exact (changes_writeTerminalized job now).jobs
  · rintro _ ⟨⟩

theorem advances_writeBuildClaim (queue : QueueLeased db) (stored : job ∈ db.tables.jobs)
    (isLive : job.isLive = true) (mayClaim : job.attempts < 3) (workerId : String)
    (leaseSeconds : Int) : Advances db (writeBuildClaim job workerId leaseSeconds now db) := by
  apply (effect_writeBuildClaim queue.toQueueSound stored isLive mayClaim workerId leaseSeconds
    now).advances queue rfl
  intro _ _
  rfl

/-- Claiming goes on behind the jobs that are given up. -/
theorem advances_claimJobs (workerId : String) (leaseSeconds : Int) (now : Instant)
    (jobs : List GeneratedAppBuildJob) (queue : QueueLeased db)
    (stored : ∀ job ∈ jobs, job ∈ db.tables.jobs ∧ job.isLive = true)
    (distinct : (jobs.map (·.id)).Nodup) :
    Advances db (claimJobs workerId leaseSeconds now jobs db).2 ∧
      ∀ job, (claimJobs workerId leaseSeconds now jobs db).1 = some job →
        job ∈ (claimJobs workerId leaseSeconds now jobs db).2.tables.jobs := by
  induction jobs generalizing db with
  | nil =>
      refine ⟨Advances.refl queue, ?_⟩
      rintro job ⟨⟩
  | cons job rest ih =>
      rcases stored job List.mem_cons_self with ⟨jobMem, isLive⟩
      rw [List.map_cons, List.nodup_cons] at distinct
      rw [claimJobs]
      split
      · rename_i exhausted
        have gives := advances_writeTerminalized queue jobMem isLive exhausted now
        have effect := effect_writeTerminalized queue.toQueueSound jobMem isLive exhausted now
        have continues := ih gives.queue (by
          intro other otherMem
          rcases stored other (List.mem_cons_of_mem _ otherMem) with ⟨otherStored, otherLive⟩
          refine ⟨effect.unwritten other otherStored ?_, otherLive⟩
          intro same
          rw [List.mem_singleton, RowId.job.injEq] at same
          exact distinct.1 (List.mem_map.mpr ⟨other, otherMem, same⟩)) distinct.2
        exact ⟨gives.trans continues.1, continues.2⟩
      · rename_i fewer
        refine ⟨advances_writeBuildClaim queue jobMem isLive (Nat.lt_of_not_le fewer) _ _, ?_⟩
        rintro claimed ⟨⟩
        exact Table.mem_update.mpr ⟨job, jobMem, by simp⟩

theorem advances_claimNext {workerId : String} {leaseSeconds : Int}
    {claimed : Option GeneratedAppBuildJob} (queue : QueueLeased db)
    (claims : db.claimNext workerId leaseSeconds now = .ok (claimed, after)) :
    Advances db after ∧ ∀ job, claimed = some job → job ∈ after.tables.jobs := by
  simp only [BuildDb.claimNext, bind_eq_ok, pure_eq_ok] at claims
  rcases claims with ⟨clean, _, claims⟩
  have runs := advances_claimJobs clean leaseSeconds now (eligibleJobs db.tables now) queue ?_ ?_
  · rw [claims] at runs
    exact runs
  · intro job jobMem
    rcases List.mem_filter.mp (Table.mem_orderBy.mp jobMem) with ⟨stored, eligible⟩
    refine ⟨stored, ?_⟩
    simp only [GeneratedAppBuildJob.eligible, Bool.or_eq_true, Bool.and_eq_true,
      decide_eq_true_eq] at eligible
    rcases eligible with queued | ⟨isClaimed, _⟩
    · simp [GeneratedAppBuildJob.isLive, queued]
    · simp [GeneratedAppBuildJob.isLive, isClaimed]
  · have distinct := queue.unique.filter (GeneratedAppBuildJob.eligible now)
    rw [Table.UniqueOn, ← Function.comp_def some, List.filterMap_eq_map] at distinct
    exact (((List.perm_insertionSort _ _).map _).nodup_iff).mpr distinct

theorem complete_eq_ok {result : BuildResult} {token : String}
    (completed : db.complete platform result token now = .ok after) :
    ∃ job, claimedJob db.tables result.jobId result.workerId result.expectedAttempt = .ok job ∧
      (finishBuild platform.toUnicode db.tables job result token now).isOk = true ∧
      after = writeCompletion platform.toUnicode job result token now db := by
  simp only [BuildDb.complete, bind_eq_ok, pure_eq_ok] at completed
  rcases completed with ⟨job, claimed, _, _, tables, finished, rfl⟩
  refine ⟨job, claimed, ?_, ?_⟩
  · rw [finished]
    rfl
  · simp only [writeCompletion, finished, Except.toOption, Option.getD_some]

theorem fail_eq_ok {failure : BuildFailure} (failed : db.fail platform failure now = .ok after) :
    ∃ job, claimedJob db.tables failure.jobId failure.workerId failure.expectedAttempt = .ok job ∧
      (settleFailure platform db.tables job failure now).isOk = true ∧
      after = writeFailure platform job failure now db := by
  simp only [BuildDb.fail, bind_eq_ok, pure_eq_ok] at failed
  rcases failed with ⟨job, claimed, tables, settled, rfl⟩
  refine ⟨job, claimed, ?_, ?_⟩
  · rw [settled]
    rfl
  · simp only [writeFailure, settled, Except.toOption, Option.getD_some]

theorem advances_complete {result : BuildResult} {token : String} (queue : QueueLeased db)
    (completed : db.complete platform result token now = .ok after) : Advances db after := by
  rcases complete_eq_ok completed with ⟨job, claimed, finishes, rfl⟩
  rcases claimedAt_of_claimedJob claimed with ⟨stored, claimedAt⟩
  rcases changes_writeCompletion finishes with ⟨revisionId, changes, _⟩
  apply (effect_writeCompletion queue.toQueueSound stored claimedAt finishes job.appId).advances
    queue changes.jobs
  rintro _ ⟨⟩

theorem advances_fail {failure : BuildFailure} (queue : QueueLeased db)
    (failed : db.fail platform failure now = .ok after) : Advances db after := by
  rcases fail_eq_ok failed with ⟨job, claimed, settles, rfl⟩
  rcases claimedAt_of_claimedJob claimed with ⟨stored, claimedAt⟩
  have effect := effect_writeFailure queue.toQueueSound stored claimedAt settles
  rcases changes_writeFailure settles with ⟨_, changes, _⟩ | ⟨changes, _⟩
  · apply effect.advances queue changes.jobs
    rintro _ ⟨⟩
  · apply effect.advances queue changes.jobs
    rintro _ ⟨⟩

theorem advances_run (platform : Platform) (now : Instant) (queue : QueueLeased db)
    (call : BuildCall) :
    Advances db (call.run platform now db) := by
  cases call with
  | queue request =>
      unfold BuildCall.run
      dsimp only
      split
      · rename_i job _ made
        split
        · rename_i permits
          rcases newJob_queued made with ⟨isQueued, unattempted⟩
          exact advances_writeJob queue isQueued unattempted permits
        · exact Advances.refl queue
      · exact Advances.refl queue
  | claim workerId leaseSeconds =>
      change Advances db (((db.claimNext workerId leaseSeconds now).map Prod.snd).toOption.getD db)
      cases claims : db.claimNext workerId leaseSeconds now with
      | error error => exact Advances.refl queue
      | ok claimed => exact (advances_claimNext queue claims).1
  | complete result token =>
      change Advances db ((db.complete platform result token now).toOption.getD db)
      cases completed : db.complete platform result token now with
      | error error => exact Advances.refl queue
      | ok after => exact advances_complete queue completed
  | fail failure =>
      change Advances db ((db.fail platform failure now).toOption.getD db)
      cases failed : db.fail platform failure now with
      | error error => exact Advances.refl queue
      | ok after => exact advances_fail queue failed
  | archive userId appId =>
      unfold BuildCall.run
      dsimp only
      split
      · apply (effect_writeArchived queue.toQueueSound appId now).advances queue rfl
        rintro _ ⟨⟩
      · exact Advances.refl queue

/-- Whatever the other sessions do, the queue stays sound and leased. -/
theorem advances_runCalls (platform : Platform) (queue : QueueLeased db)
    (calls : List (BuildCall × Instant)) :
    Advances db (runCalls platform calls db) := by
  induction calls generalizing db with
  | nil => exact Advances.refl queue
  | cons call rest ih =>
      have first := advances_run platform call.2 queue call.1
      exact first.trans (ih first.queue)

end Keeps

end DotBackend.Apps
