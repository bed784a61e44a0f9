import DotBackend.Apps.BuildOutcome

/-!
# Fencing of builds

The commits of the queue, one by one, and the assertions at the program points that carry
them: a session that is about to write a job holds its row and read it there. With the
interference rule, every run moves every job along its phases only, and a worker settles
a job only at the claim that it made last.
-/

namespace DotBackend.Apps

open Data Transition Transaction

variable {now : Instant} {point : BuildPoint}

variable {platform : Platform} {db before after : BuildDb} {job : GeneratedAppBuildJob}
  {rows : List RowId} {held : Held RowId}

/-! ## The commits -/

/-- A job is inserted under a fresh identifier, for an app without a live one. -/
theorem effect_writeJob (sound : QueueSound db) (isQueued : job.status = .queued)
    (unattempted : job.attempts = 0) (permits : jobsPermit job db.tables = true) :
    BuildEffect rows db (writeJob job db) := by
  obtain ⟨idle, _⟩ := Bool.and_eq_true_iff.mp permits
  have noLive : ∀ row ∈ db.tables.jobs, row.isLive = true → row.appId ≠ job.appId := by
    intro row rowMem isLive
    simpa [isLive] using List.all_eq_true.mp idle row rowMem
  have isNew : ∀ row ∈ db.tables.jobs, row.id ≠ db.tables.nextId :=
    fun row rowMem => Nat.ne_of_lt (sound.known row rowMem)
  have ofMem : ∀ row ∈ (writeJob job db).tables.jobs, row ∈ db.tables.jobs ∨
      row = { job with id := db.tables.nextId } := by
    intro row rowMem
    simpa [writeJob, insertJob] using rowMem
  have noHistory : db.history db.tables.nextId = [] := by
    rw [BuildDb.history, List.map_eq_nil_iff, List.filter_eq_nil_iff]
    intro entry entryMem
    simpa using Nat.ne_of_lt (sound.journal_known entry entryMem)
  have history : ∀ id, id ≠ db.tables.nextId → (writeJob job db).history id = db.history id := by
    intro id otherId
    simp [BuildDb.history, writeJob, Ne.symm otherId]
  have untold : ∀ key : OutcomeKey, key.jobId = db.tables.nextId →
      ¬ Told db.tables.userEvents key := by
    intro key isNext told
    exact absurd isNext (Nat.ne_of_lt (sound.told_known key told))
  constructor
  · constructor
    · exact sound.unique.append isNew
    · intro row rowMem
      rcases ofMem row rowMem with oldMem | rfl
      · exact Nat.lt_succ_of_lt (sound.known row oldMem)
      · exact Nat.lt_succ_self _
    · intro entry entryMem
      rcases List.mem_cons.mp entryMem with rfl | oldMem
      · exact Nat.lt_succ_self _
      · exact Nat.lt_succ_of_lt (sound.journal_known entry oldMem)
    · exact fun key told => Nat.lt_succ_of_lt (sound.told_known key told)
    · intro first firstMem second secondMem firstLive secondLive sameApp
      rcases ofMem first firstMem with firstOld | rfl
      · rcases ofMem second secondMem with secondOld | rfl
        · exact sound.single first firstOld second secondOld firstLive secondLive sameApp
        · exact absurd sameApp (noLive first firstOld firstLive)
      · rcases ofMem second secondMem with secondOld | rfl
        · exact absurd sameApp.symm (noLive second secondOld secondLive)
        · rfl
    · intro row rowMem
      rcases ofMem row rowMem with oldMem | rfl
      · rw [history row.id (isNew row oldMem)]
        exact sound.traced row oldMem
      · have starts : (writeJob job db).history db.tables.nextId = [.queued] := by
          simpa [BuildDb.history, writeJob] using noHistory
        rw [starts]
        simp [phaseOf, GeneratedAppBuildJob.phase, isQueued, unattempted]
    · intro row rowMem claimed
      rcases ofMem row rowMem with oldMem | rfl
      · exact sound.inHand row oldMem claimed
      · cases isQueued.symm.trans claimed
    · exact sound.told_once
    · intro row rowMem
      rcases ofMem row rowMem with oldMem | rfl
      · exact sound.completed row oldMem
      · constructor
        · exact fun told => absurd told (untold _ rfl)
        · exact fun succeeded => by cases isQueued.symm.trans succeeded
    · intro row rowMem told
      rcases ofMem row rowMem with oldMem | rfl
      · exact sound.failed row oldMem told
      · exact absurd told (untold _ rfl)
  · intro row rowMem _
    exact List.mem_append_left _ rowMem
  · intro row rowMem
    exact ⟨row, List.mem_append_left _ rowMem, rfl, Or.inl ⟨rfl, history row.id (isNew row rowMem)⟩⟩

/-- The phase of a job that has not ended. -/
theorem phase_of_isLive (isLive : job.isLive = true) :
    job.phase = .queued job.attempts ∨ ∃ worker, job.phase = .claimed worker job.attempts := by
  rcases live_cases isLive with queued | claimed
  · apply Or.inl
    simp [GeneratedAppBuildJob.phase, queued]
  · apply Or.inr
    exact ⟨job.claimedBy.getD "", by simp [GeneratedAppBuildJob.phase, claimed]⟩

theorem effect_writeBuildClaim (sound : QueueSound db) (stored : job ∈ db.tables.jobs)
    (isLive : job.isLive = true) (mayClaim : job.attempts < 3) (workerId : String)
    (leaseSeconds : Int) (now : Instant) :
    BuildEffect [.job job.id] db (writeBuildClaim job workerId leaseSeconds now db) := by
  have changes : Changes job.id (GeneratedAppBuildJob.claimedFor workerId leaseSeconds now)
      (.claimed workerId (job.attempts + 1)) db (writeBuildClaim job workerId leaseSeconds now db) :=
    ⟨rfl, rfl, le_refl _, fun _ => rfl, fun _ => rfl⟩
  apply changes.effect sound stored rfl isLive
  · change _ = some (Phase.claimed workerId (job.attempts + 1))
    rcases phase_of_isLive isLive with phase_eq | ⟨worker, phase_eq⟩ <;>
      simp [phase_eq, Phase.next, mayClaim]
  · exact fun _ => rfl
  · exact Tells.nothing _ (by simp [GeneratedAppBuildJob.claimedFor])

/-- A job that has not ended is failed. -/
theorem next_terminalized (isLive : job.isLive = true) (exhausted : 3 ≤ job.attempts) :
    job.phase.next .terminalized = some (.failed job.attempts) := by
  rcases phase_of_isLive isLive with phase_eq | ⟨worker, phase_eq⟩ <;>
    simp [phase_eq, Phase.next, exhausted]

theorem next_archived (isLive : job.isLive = true) :
    job.phase.next .archived = some (.failed job.attempts) := by
  rcases phase_of_isLive isLive with phase_eq | ⟨worker, phase_eq⟩ <;>
    simp [phase_eq, Phase.next]

theorem changes_writeTerminalized (job : GeneratedAppBuildJob) (now : Instant) :
    Changes job.id (GeneratedAppBuildJob.abandoned now) .terminalized db
      (writeTerminalized job now db) := by
  constructor
  · unfold writeTerminalized terminalizeExhaustedBuildClaim
    dsimp only
    split
    · rfl
    · rw [enqueueUserEvent_jobs]
  · rfl
  · unfold writeTerminalized terminalizeExhaustedBuildClaim
    dsimp only
    split
    · exact le_refl _
    · rw [enqueueUserEvent_nextId]
      exact le_refl _
  · exact fun _ => rfl
  · exact fun _ => rfl

theorem effect_writeTerminalized (sound : QueueSound db) (stored : job ∈ db.tables.jobs)
    (isLive : job.isLive = true) (exhausted : 3 ≤ job.attempts) (now : Instant) :
    BuildEffect [.job job.id] db (writeTerminalized job now db) := by
  apply (changes_writeTerminalized job now).effect sound stored rfl isLive
  · exact next_terminalized isLive exhausted
  · intro claimed
    cases claimed
  · unfold writeTerminalized terminalizeExhaustedBuildClaim
    dsimp only
    split
    · exact Tells.nothing _ (by simp [GeneratedAppBuildJob.abandoned])
    · exact tells_failed (db.tables.updateJob job.id (GeneratedAppBuildJob.abandoned now))

/-- A job in the hands of a worker, at the attempt it expects. -/
structure ClaimedAt (job : GeneratedAppBuildJob) (jobId : Uuid) (workerId : String)
    (expectedAttempt : Int) : Prop where
  sameId : job.id = jobId
  status : job.status = .claimed
  worker : job.claimedBy = some workerId
  attempt : (job.attempts : Int) = expectedAttempt

namespace ClaimedAt

variable {jobId : Uuid} {workerId : String} {expectedAttempt : Int}

theorem isLive (claimed : ClaimedAt job jobId workerId expectedAttempt) : job.isLive = true := by
  simp [GeneratedAppBuildJob.isLive, claimed.status]

theorem phase (claimed : ClaimedAt job jobId workerId expectedAttempt) :
    job.phase = .claimed workerId job.attempts := by
  simp [GeneratedAppBuildJob.phase, claimed.status, claimed.worker]

end ClaimedAt

/-- A completion changes its job, and tells that it succeeded. -/
theorem changes_writeCompletion {unicode : Unicode} {result : BuildResult} {token : String}
    (permitted : (finishBuild unicode db.tables job result token now).isOk = true) :
    ∃ revisionId, Changes job.id (GeneratedAppBuildJob.succeededWith revisionId now)
        (.succeeded result.workerId job.attempts) db
        (writeCompletion unicode job result token now db) ∧
      Tells job.id .succeeded db.tables.userEvents
        (writeCompletion unicode job result token now db).tables.userEvents := by
  obtain ⟨finished, finished_eq⟩ := exists_eq_ok permitted
  obtain ⟨app, revision, promoted, issued, _, _, _, promotes, issues, rfl⟩ :=
    finishBuild_eq_ok finished_eq
  have stays := (promotes_insertRevision revision).trans (promotes_promoteRevision promotes)
  have tables_eq : (writeCompletion unicode job result token now db).tables = enqueueUserEvent
      ⟨app.userId, app.conversationId, .appBuildCompleted job.id, app.id⟩ issued := by
    simp only [writeCompletion, finished_eq, Except.toOption, Option.getD_some]
  have issued_eq : issued.jobs = (db.tables.updateJob job.id
      (GeneratedAppBuildJob.succeededWith revision.id now)).jobs ∧
      issued.userEvents = db.tables.userEvents ∧ issued.nextId = promoted.nextId := by
    simp only [AppsDb.updateJob, ← stays.jobs, ← stays.userEvents]
    rcases issueHandoff_eq issues with rfl | ⟨_, _, _, rfl⟩
    · exact ⟨rfl, rfl, rfl⟩
    · exact ⟨rfl, rfl, rfl⟩
  refine ⟨revision.id, ?_, ?_⟩
  · constructor
    · rw [tables_eq, enqueueUserEvent_jobs]
      exact issued_eq.1
    · rfl
    · rw [tables_eq, enqueueUserEvent_nextId, issued_eq.2.2]
      exact stays.supply
    · exact fun _ => rfl
    · exact fun _ => rfl
  · rw [tables_eq, ← issued_eq.2.1]
    exact tells_completed issued

theorem effect_writeCompletion {unicode : Unicode} {result : BuildResult} {token : String}
    (sound : QueueSound db) (stored : job ∈ db.tables.jobs)
    (claimed : ClaimedAt job result.jobId result.workerId result.expectedAttempt)
    (permitted : (finishBuild unicode db.tables job result token now).isOk = true) (appId : Uuid) :
    BuildEffect [.job job.id, .app appId] db
      (writeCompletion unicode job result token now db) := by
  obtain ⟨revisionId, changes, tells⟩ := changes_writeCompletion permitted
  apply BuildEffect.mono (fun row rowMem => List.mem_cons.mpr (Or.inl (List.mem_singleton.mp rowMem)))
  apply changes.effect sound stored rfl claimed.isLive
  · change _ = some (Phase.succeeded job.attempts)
    simp [claimed.phase, Phase.next]
  · intro stillClaimed
    cases stillClaimed
  · exact tells

/-- A failure changes its job: it is queued again, or fails for good, which it tells. -/
theorem changes_writeFailure {failure : BuildFailure}
    (permitted : (settleFailure platform db.tables job failure now).isOk = true) :
    (retries platform failure job = true ∧ Changes job.id GeneratedAppBuildJob.requeued
        (.requeued failure.workerId job.attempts) db (writeFailure platform job failure now db) ∧
      (writeFailure platform job failure now db).tables.userEvents = db.tables.userEvents) ∨
    (Changes job.id (GeneratedAppBuildJob.failedAt now) (.failed failure.workerId job.attempts) db
        (writeFailure platform job failure now db) ∧
      Tells job.id .failed db.tables.userEvents
        (writeFailure platform job failure now db).tables.userEvents) := by
  obtain ⟨settled, settled_eq⟩ := exists_eq_ok permitted
  have tables_eq : (writeFailure platform job failure now db).tables = settled := by
    simp only [writeFailure, settled_eq, Except.toOption, Option.getD_some]
  rcases settleFailure_eq_ok settled_eq with ⟨again, rfl⟩ | ⟨never, app, _, rfl⟩
  · refine Or.inl ⟨again, ?_, ?_⟩
    · constructor
      · rw [tables_eq]
      · simp only [writeFailure, again, if_true]
      · rw [tables_eq]
        exact le_refl _
      · exact fun _ => rfl
      · exact fun _ => rfl
    · rw [tables_eq]
      rfl
  · refine Or.inr ⟨?_, ?_⟩
    · constructor
      · rw [tables_eq, enqueueUserEvent_jobs]
      · simp only [writeFailure, never, Bool.false_eq_true, if_false]
      · rw [tables_eq, enqueueUserEvent_nextId]
        exact le_refl _
      · exact fun _ => rfl
      · exact fun _ => rfl
    · rw [tables_eq]
      exact tells_failed (db.tables.updateJob job.id (GeneratedAppBuildJob.failedAt now))

theorem effect_writeFailure {failure : BuildFailure} (sound : QueueSound db)
    (stored : job ∈ db.tables.jobs)
    (claimed : ClaimedAt job failure.jobId failure.workerId failure.expectedAttempt)
    (permitted : (settleFailure platform db.tables job failure now).isOk = true) :
    BuildEffect [.job job.id] db (writeFailure platform job failure now db) := by
  rcases changes_writeFailure permitted with ⟨again, changes, untold⟩ | ⟨changes, tells⟩
  · apply changes.effect sound stored rfl claimed.isLive
    · change _ = some (Phase.queued job.attempts)
      have fewer : job.attempts < 3 := of_decide_eq_true (Bool.and_eq_true_iff.mp again).2
      simp [claimed.phase, Phase.next, fewer]
    · intro stillClaimed
      cases stillClaimed
    · rw [untold]
      exact Tells.nothing _ (by simp [GeneratedAppBuildJob.requeued])
  · apply changes.effect sound stored rfl claimed.isLive
    · change _ = some (Phase.failed job.attempts)
      simp [claimed.phase, Phase.next]
    · intro stillClaimed
      cases stillClaimed
    · exact tells

/-- An app has at most one job to abandon when it is archived. -/
theorem live_of_app (sound : QueueSound db) (appId : Uuid) :
    (db.tables.jobs.filter fun job => job.appId = appId && job.isLive) = [] ∨
      ∃ job ∈ db.tables.jobs, job.isLive = true ∧
        (db.tables.jobs.filter fun job => job.appId = appId && job.isLive) = [job] ∧
        ∀ row ∈ db.tables.jobs, (row.appId == appId && row.isLive) = (row.id == job.id) := by
  have unique := sound.unique.filter fun job => decide (job.appId = appId) && job.isLive
  have ofMem : ∀ row, row ∈ (db.tables.jobs.filter fun job => job.appId = appId && job.isLive) →
      row ∈ db.tables.jobs ∧ row.appId = appId ∧ row.isLive = true := by
    intro row rowMem
    simpa using rowMem
  rcases live_eq : db.tables.jobs.filter fun job => job.appId = appId && job.isLive with
    _ | ⟨job, _ | ⟨second, rest⟩⟩
  · exact Or.inl live_eq
  · apply Or.inr
    rw [live_eq] at ofMem
    obtain ⟨jobMem, sameApp, isLive⟩ := ofMem job (List.mem_singleton_self job)
    refine ⟨job, jobMem, isLive, live_eq, ?_⟩
    intro row rowMem
    rw [Bool.eq_iff_iff, beq_iff_eq]
    constructor
    · intro selected
      have rowIn : row ∈ [job] := by
        rw [← live_eq, List.mem_filter]
        exact ⟨rowMem, by simpa using selected⟩
      rw [List.mem_singleton.mp rowIn]
    · intro sameId
      rw [sound.eq_of_mem rowMem jobMem sameId]
      simp [sameApp, isLive]
  · exfalso
    rw [live_eq] at unique ofMem
    obtain ⟨jobMem, jobApp, jobLive⟩ := ofMem job List.mem_cons_self
    obtain ⟨secondMem, secondApp, secondLive⟩ :=
      ofMem second (List.mem_cons_of_mem _ List.mem_cons_self)
    have sameId := sound.single job jobMem second secondMem jobLive secondLive
      (jobApp.trans secondApp.symm)
    simp [Table.UniqueOn, sameId] at unique

theorem effect_writeArchived (sound : QueueSound db) (appId : Uuid) (now : Instant) :
    BuildEffect (.app appId :: liveRows appId db) db (writeArchived appId now db) := by
  rcases live_of_app sound appId with none_live | ⟨job, stored, isLive, live_eq, selects⟩
  · apply BuildEffect.of_eq sound
    · apply Table.update_eq_self
      intro row rowMem
      simpa using List.filter_eq_nil_iff.mp none_live row rowMem
    · simp only [writeArchived, none_live, List.map_nil, List.nil_append]
    · rfl
    · rfl
  · have changes : Changes job.id (GeneratedAppBuildJob.abandoned now) .archived db
        (writeArchived appId now db) := by
      constructor
      · exact Table.update_congr selects
      · simp only [writeArchived, live_eq, List.map_cons, List.map_nil, List.singleton_append]
      · exact le_refl _
      · exact fun _ => rfl
      · exact fun _ => rfl
    have written : .job job.id ∈ liveRows appId db := by
      simp only [liveRows, live_eq, List.map_cons, List.map_nil, List.mem_singleton]
    apply BuildEffect.mono (fun row rowMem =>
      List.mem_cons_of_mem _ (List.mem_singleton.mp rowMem ▸ written))
    apply changes.effect sound stored rfl isLive
    · exact next_archived isLive
    · intro stillClaimed
      cases stillClaimed
    · exact Tells.nothing _ (by simp [GeneratedAppBuildJob.abandoned])

/-! ## The proof outline -/

/-- The session read the job in the table, and holds its row since. -/
def HeldJob (db : BuildDb) (held : Held RowId) (job : GeneratedAppBuildJob) : Prop :=
  held (.job job.id) ∧ job ∈ db.tables.jobs

/-- What a session knows at its point. -/
def BuildStage (db : BuildDb) : BuildPoint → Held RowId → Prop
  | .insertJob job, _ => job.status = .queued ∧ job.attempts = 0
  | .writeClaim job _ _ _, held => HeldJob db held job ∧ job.isLive = true ∧ job.attempts < 3
  | .terminalize job _ _ _, held => HeldJob db held job ∧ job.isLive = true ∧ 3 ≤ job.attempts
  | .lockApp job result, held | .writeComplete job result, held =>
      HeldJob db held job ∧ ClaimedAt job result.jobId result.workerId result.expectedAttempt
  | .writeFail job failure, held =>
      HeldJob db held job ∧ ClaimedAt job failure.jobId failure.workerId failure.expectedAttempt
  | _, _ => True

theorem newJob_queued {tables : AppsDb} {request : QueueRequest}
    (made : newJob tables request now = .ok job) : job.status = .queued ∧ job.attempts = 0 := by
  simp only [newJob, bind_eq_ok, pure_eq_ok] at made
  obtain ⟨_, _, _, _, rfl⟩ := made
  exact ⟨rfl, rfl⟩

theorem claimedAt_of_claimedJob {tables : AppsDb} {jobId : Uuid} {workerId : String}
    {expectedAttempt : Int} (claimed : claimedJob tables jobId workerId expectedAttempt = .ok job) :
    job ∈ tables.jobs ∧ ClaimedAt job jobId workerId expectedAttempt := by
  obtain ⟨stored, sameId, status, worker, attempt⟩ := claimedJob_eq_ok claimed
  exact ⟨stored, sameId, status, worker, attempt⟩

theorem Locking.stage {target : BuildPoint} (locks : Locking db point rows target)
    (stage : BuildStage db point held) :
    BuildStage db target fun row => row ∈ rows ∨ held row := by
  cases locks with
  | insertJob made => exact newJob_queued made
  | lockApp claimed =>
      obtain ⟨stored, claimedAt⟩ := claimedAt_of_claimedJob claimed
      exact ⟨⟨Or.inl (List.mem_singleton_self _), stored⟩, claimedAt⟩
  | writeComplete => exact ⟨⟨Or.inr stage.1.1, stage.1.2⟩, stage.2⟩
  | writeFail claimed =>
      obtain ⟨stored, claimedAt⟩ := claimedAt_of_claimedJob claimed
      exact ⟨⟨Or.inl (List.mem_singleton_self _), stored⟩, claimedAt⟩
  | finished | checkQuota | lockJobs | writeArchive => exact True.intro

/-- A candidate for a claim is a job that has not ended. -/
theorem of_buildCandidate {id : Uuid} (sound : QueueSound db)
    (candidate : .job id ∈ buildCandidates now db) (found : db.tables.job? id = some job) :
    job ∈ db.tables.jobs ∧ job.id = id ∧ job.isLive = true := by
  have stored : job ∈ db.tables.jobs := List.mem_of_find?_eq_some found
  have sameId : job.id = id := by simpa using List.find?_some found
  obtain ⟨row, rowMem, rowId⟩ := List.mem_map.mp candidate
  obtain ⟨rowStored, eligible⟩ := List.mem_filter.mp (Table.mem_orderBy.mp rowMem)
  cases rowId
  rw [sound.eq_of_mem rowStored stored sameId.symm] at eligible
  refine ⟨stored, sameId, ?_⟩
  simp only [GeneratedAppBuildJob.eligible, Bool.or_eq_true, Bool.and_eq_true,
    decide_eq_true_eq] at eligible
  rcases eligible with queued | ⟨claimed, _⟩
  · simp [GeneratedAppBuildJob.isLive, queued]
  · simp [GeneratedAppBuildJob.isLive, claimed]

theorem Polling.stage {chosen : Option RowId} {target : BuildPoint}
    (polls : Polling db chosen target) (sound : QueueSound db)
    (isCandidate : ∀ row, chosen = some row → row ∈ buildCandidates now db) :
    BuildStage db target fun row => chosen = some row ∨ held row := by
  cases polls with
  | finished => exact True.intro
  | writeClaim found mayClaim =>
      obtain ⟨stored, rfl, isLive⟩ := of_buildCandidate sound (isCandidate _ rfl) found
      exact ⟨⟨Or.inl rfl, stored⟩, isLive, mayClaim⟩
  | terminalize found exhausted =>
      obtain ⟨stored, rfl, isLive⟩ := of_buildCandidate sound (isCandidate _ rfl) found
      exact ⟨⟨Or.inl rfl, stored⟩, isLive, exhausted⟩

/-- Every commit has the effect of a change of the queue. -/
theorem BuildWriting.effect {input : BuildInput}
    {locks : BuildDb → List RowId} {permitted : BuildDb → Bool} {write : BuildDb → BuildDb}
    {next : BuildDb → Option BuildPoint}
    (writing : BuildWriting platform point input locks permitted write next)
    (sound : QueueSound db) (stage : BuildStage db point held) (permits : permitted db = true) :
    BuildEffect (locks db) db (write db) := by
  cases writing with
  | insertJob => exact effect_writeJob sound stage.1 stage.2 permits
  | writeClaim => exact effect_writeBuildClaim sound stage.1.2 stage.2.1 stage.2.2 _ _ _
  | terminalize => exact effect_writeTerminalized sound stage.1.2 stage.2.1 stage.2.2 _
  | writeComplete => exact effect_writeCompletion sound stage.1.2 stage.2 permits _
  | writeFail => exact effect_writeFailure sound stage.1.2 stage.2 permits
  | writeArchive _ => exact effect_writeArchived sound _ _

/-- A commit of another session keeps what a session knows. -/
theorem BuildEffect.stage (effect : BuildEffect rows before after)
    (apart : ∀ row, held row → row ∉ rows) (stage : BuildStage before point held) :
    BuildStage after point held := by
  have keeps : ∀ {job}, HeldJob before held job → HeldJob after held job := by
    rintro job ⟨holds, stored⟩
    exact ⟨holds, effect.unwritten job stored (apart _ holds)⟩
  cases point with
  | insertJob job => exact stage
  | writeClaim job workerId leaseSeconds now | terminalize job workerId leaseSeconds now
  | lockApp job result | writeComplete job result | writeFail job failure =>
      exact ⟨keeps stage.1, stage.2⟩
  | _ => exact True.intro

/-- The proof outline of the queue. -/
def buildOutline (platform : Platform) :
    Outline (buildProtocol platform) fun _ _ => True where
  Global := QueueSound
  Local := BuildStage
  start := by
    intro database point mayStart _
    cases point <;> first | exact True.intro | cases mayStart
  read := by
    intro database point input next held requested _ _
    cases buildRequests_of_eq requested with
    | read => exact True.intro
  lock := by
    intro database point input rows next held requested _ stage
    cases buildRequests_of_eq requested with
    | lock locks => exact (locks database).stage stage
  skipLocked := by
    intro database point input candidates next held chosen requested sound _ isCandidate
    cases buildRequests_of_eq requested with
    | poll polls => exact (polls chosen database).stage sound isCandidate
  rollback := by
    intro database point input next target held requested target_eq _ _
    cases buildRequests_of_eq requested with
    | rollback => cases target_eq
  refused := by
    intro database point input rows permitted write next refused target held requested target_eq
    cases buildRequests_of_eq requested with
    | commit _ => cases target_eq
  commit := by
    intro system session point input rows permitted write next refused commits _ sound stage
    cases buildRequests_of_eq commits.requested with
    | commit writing =>
        constructor
        · exact (writing.effect sound stage commits.permitted).sound
        · intro target goesOn
          cases writing with
          | terminalize =>
              cases goesOn
              exact True.intro
          | _ => cases goesOn
  interference := by
    intro system session point input rows permitted write next refused commits _ sound stage
      other held otherStage apart
    cases buildRequests_of_eq commits.requested with
    | commit writing =>
        exact (writing.effect sound stage commits.permitted).stage
          (fun row holds => (apart row holds).1) otherStage

/-! ## Runs -/

/-- The job, the worker and the attempt that a settlement is called with. -/
def BuildPoint.settles : BuildPoint → Option (Uuid × String × Int)
  | .complete result | .lockApp _ result | .writeComplete _ result =>
      some (result.jobId, result.workerId, result.expectedAttempt)
  | .fail failure | .writeFail _ failure =>
      some (failure.jobId, failure.workerId, failure.expectedAttempt)
  | _ => none

/-- The outcome of builds in a state of the system. -/
structure BuildsSettle (platform : Platform) (system : System BuildDb RowId BuildPoint) :
    Prop where
  /-- An app has at most one job that has not ended. -/
  single : ∀ appId, (system.database.tables.jobs.filter fun job =>
    job.appId = appId && job.isLive).length ≤ 1
  /-- The claims of a job are numbered up to its attempts, of which there are at most three. -/
  attempts : ∀ job ∈ system.database.tables.jobs, job.attempts ≤ 3 ∧
    (system.database.history job.id).filterMap Change.claimAttempt =
      (List.range' 1 job.attempts).reverse
  /-- A step changes nothing about a job, or one thing; the attempts grow at a claim. -/
  grows : ∀ event after, system.step (buildProtocol platform) event = some after →
    ∀ job ∈ system.database.tables.jobs, ∃ row ∈ after.database.tables.jobs, row.id = job.id ∧
      ((row = job ∧ after.database.history job.id = system.database.history job.id) ∨
        ∃ change, after.database.history job.id = change :: system.database.history job.id ∧
          row.attempts = job.attempts + if change.claimAttempt.isSome then 1 else 0)
  /-- A settlement changes the job that it names, when its claim is the last thing that
  happened to it, and no other. -/
  fenced : ∀ session point input after jobId workerId expectedAttempt,
    system.points session = some point →
    point.settles = some (jobId, workerId, expectedAttempt) →
    system.step (buildProtocol platform) (.advance session input) = some after →
    ∀ job ∈ system.database.tables.jobs, job ∉ after.database.tables.jobs →
      ClaimedAt job jobId workerId expectedAttempt ∧
        ∃ earlier, system.database.history job.id = .claimed workerId job.attempts :: earlier
  /-- A job that has ended stays as it is. -/
  final : ∀ later, Run (System.step (buildProtocol platform)) (fun _ _ => True) system later →
    ∀ job ∈ system.database.tables.jobs, job.isLive = false → job ∈ later.database.tables.jobs
  /-- At most one event tells the outcome of a job. -/
  told_once : ∀ job ∈ system.database.tables.jobs,
    (system.database.tables.userEvents.filter fun event =>
      event.idempotencyKey.jobId = job.id).length ≤ 1
  completed : ∀ job ∈ system.database.tables.jobs,
    (Told system.database.tables.userEvents (.appBuildCompleted job.id) ↔ job.status = .succeeded)
  failed : ∀ job ∈ system.database.tables.jobs,
    Told system.database.tables.userEvents (.appBuildFailed job.id) → job.status = .failed

variable {system after later : System BuildDb RowId BuildPoint}

/-- Every step has the effect of a change of the queue, of the rows that it writes. -/
theorem effect_of_step {event : Event BuildPoint BuildInput}
    (sound : (buildOutline platform).Sound system)
    (stepped : system.step (buildProtocol platform) event = some after) :
    ∃ rows, BuildEffect rows system.database after.database := by
  rcases System.step_database stepped with same | ⟨session, point, input, rows, permitted,
    write, next, refused, rfl, commits, rfl⟩
  · exact ⟨[], BuildEffect.of_eq sound.global (by rw [same]) (by rw [same]) (by rw [same])
      (by rw [same])⟩
  · cases buildRequests_of_eq commits.requested with
    | commit writing =>
        exact ⟨rows system.database, writing.effect sound.global
          (sound.local_ commits.at_point) commits.permitted⟩

/-- A job that has ended stays, over a whole run. -/
theorem ended_of_run (sound : (buildOutline platform).Sound system)
    (run : Run (System.step (buildProtocol platform)) (fun _ _ => True) system later)
    (stored : job ∈ system.database.tables.jobs) (hasEnded : job.isLive = false) :
    job ∈ later.database.tables.jobs := by
  have stays : (buildOutline platform).Sound later ∧ job ∈ later.database.tables.jobs := by
    apply run.invariant fun state =>
      (buildOutline platform).Sound state ∧ job ∈ state.database.tables.jobs
    · rintro state event next ⟨stateSound, jobMem⟩ allowed stepped
      obtain ⟨rows, effect⟩ := effect_of_step stateSound stepped
      exact ⟨stateSound.step allowed stepped, effect.ended jobMem hasEnded⟩
    · exact ⟨sound, stored⟩
  exact stays.2

/-- A settlement writes the job of its claim. -/
theorem claimedAt_of_settles {session : Nat} {input : BuildInput}
    {jobId : Uuid} {workerId : String} {expectedAttempt : Int}
    (sound : (buildOutline platform).Sound system) (atPoint : system.points session = some point)
    (settles : point.settles = some (jobId, workerId, expectedAttempt))
    (stepped : system.step (buildProtocol platform) (.advance session input) = some after)
    (stored : job ∈ system.database.tables.jobs) (changed : job ∉ after.database.tables.jobs) :
    ClaimedAt job jobId workerId expectedAttempt := by
  rcases System.step_database stepped with same | ⟨_, written, _, rows, permitted, write, next,
    refused, event_eq, commits, rfl⟩
  · rw [same] at changed
    exact absurd stored changed
  · cases event_eq
    cases atPoint.symm.trans commits.at_point
    have stage := sound.local_ commits.at_point
    cases buildRequests_of_eq commits.requested with
    | commit writing =>
        have effect := writing.effect sound.global stage commits.permitted
        have isWritten : .job job.id ∈ rows system.database := by
          by_contra notWritten
          exact changed (effect.unwritten job stored notWritten)
        cases writing with
        | writeComplete =>
            cases settles
            simp only [List.mem_cons, RowId.job.injEq, reduceCtorEq, List.not_mem_nil,
              or_false] at isWritten
            rw [sound.global.eq_of_mem stored stage.1.2 isWritten]
            exact stage.2
        | writeFail =>
            cases settles
            simp only [List.mem_cons, RowId.job.injEq, List.not_mem_nil, or_false] at isWritten
            rw [sound.global.eq_of_mem stored stage.1.2 isWritten]
            exact stage.2
        | _ => cases settles

theorem QueueSound.told_at_most_once (sound : QueueSound db) (stored : job ∈ db.tables.jobs) :
    (db.tables.userEvents.filter fun event =>
      event.idempotencyKey.jobId = job.id).length ≤ 1 := by
  have once : ((db.tables.userEvents.filter fun event =>
      event.idempotencyKey.jobId = job.id).map (·.idempotencyKey)).Nodup :=
    sound.told_once.sublist (List.filter_sublist.map _)
  have ofMem : ∀ event ∈ db.tables.userEvents.filter fun event =>
      event.idempotencyKey.jobId = job.id,
      (event.idempotencyKey = .appBuildCompleted job.id ∧ job.status = .succeeded) ∨
        (event.idempotencyKey = .appBuildFailed job.id ∧ job.status = .failed) := by
    intro event eventMem
    obtain ⟨isTold, sameId⟩ := List.mem_filter.mp eventMem
    have told : Told db.tables.userEvents event.idempotencyKey := ⟨event, isTold, rfl⟩
    cases key_eq : event.idempotencyKey with
    | appBuildCompleted id =>
        rw [key_eq] at told sameId
        cases of_decide_eq_true sameId
        exact Or.inl ⟨rfl, (sound.completed job stored).mp told⟩
    | appBuildFailed id =>
        rw [key_eq] at told sameId
        cases of_decide_eq_true sameId
        exact Or.inr ⟨rfl, sound.failed job stored told⟩
  rcases events_eq : db.tables.userEvents.filter fun event =>
      event.idempotencyKey.jobId = job.id with _ | ⟨first, _ | ⟨second, rest⟩⟩
  · rw [events_eq]
    exact Nat.zero_le 1
  · rw [events_eq]
    exact Nat.le_refl 1
  · rw [events_eq] at once ofMem
    exfalso
    have different : first.idempotencyKey ≠ second.idempotencyKey := by
      intro same
      simp [same] at once
    rcases ofMem first List.mem_cons_self with ⟨firstKey, firstStatus⟩ | ⟨firstKey, firstStatus⟩ <;>
      rcases ofMem second (List.mem_cons_of_mem _ List.mem_cons_self) with
        ⟨secondKey, secondStatus⟩ | ⟨secondKey, secondStatus⟩
    · exact different (firstKey.trans secondKey.symm)
    · cases firstStatus.symm.trans secondStatus
    · cases firstStatus.symm.trans secondStatus
    · exact different (firstKey.trans secondKey.symm)

/-- In every state of every run of the queue, from tables without jobs, the outcome of the
builds is as it should be. -/
theorem builds_settle {tables : AppsDb} (noJobs : tables.jobs = [])
    (noneTold : tables.userEvents = [])
    (run : Run (System.step (buildProtocol platform)) (fun _ _ => True)
      (System.idle ⟨tables, []⟩) system) : BuildsSettle platform system := by
  have initially : QueueSound ⟨tables, []⟩ := by
    constructor <;> simp [noJobs, noneTold, Told, Table.UniqueOn]
  have sound : (buildOutline platform).Sound system := (Outline.sound_idle initially).run run
  constructor
  · intro appId
    rcases live_of_app sound.global appId with none_live | ⟨job, _, _, live_eq, _⟩
    · simp only [none_live, List.length_nil, Nat.zero_le]
    · simp only [live_eq, List.length_singleton, Nat.le_refl]
  · intro job stored
    have claims := claims_of_phaseOf (sound.global.traced job stored)
    rwa [phase_attempts] at claims
  · intro event after stepped job stored
    obtain ⟨rows, effect⟩ := effect_of_step sound stepped
    obtain ⟨row, rowMem, sameId, unchanged | ⟨what, goes, history_eq⟩⟩ := effect.moves job stored
    · exact ⟨row, rowMem, sameId, Or.inl unchanged⟩
    · refine ⟨row, rowMem, sameId, Or.inr ⟨what, history_eq, ?_⟩⟩
      rw [← phase_attempts row, ← phase_attempts job]
      rcases Phase.attempts_next goes with ⟨worker, rfl, reached, _⟩ | ⟨noClaim, sameAttempts, _⟩
      · rw [reached]
        rfl
      · rw [sameAttempts, noClaim]
        rfl
  · intro session point input after jobId workerId expectedAttempt atPoint settles stepped job
      stored changed
    have claimed := claimedAt_of_settles sound atPoint settles stepped stored changed
    refine ⟨claimed, last_claim ?_⟩
    rw [sound.global.traced job stored, claimed.phase]
  · intro later laterRun job stored hasEnded
    exact ended_of_run sound laterRun stored hasEnded
  · intro job stored
    exact sound.global.told_at_most_once stored
  · exact sound.global.completed
  · exact sound.global.failed

/-! ## A worker that is overtaken -/

/-- A user with an app in their direct conversation. -/
def oneApp : AppsDb where
  __ := AppsDb.empty
  users := [7]
  conversations := [⟨2, 7, .direct, none, .auto, none, true⟩]
  apps := [⟨1, 7, 2, "habits", "Habits", "", .privateLink, .active, .code, 1⟩]
  nextId := 10

/-- A step of a session at a time. -/
def advanceAt (session : Nat) (now : Instant) : Event BuildPoint BuildInput :=
  .advance session ⟨now, "", true⟩

/-- A worker claims a build, loses it to another one when the lease is over, and reports a
failure too late. -/
def overtakenBuild : List (Event BuildPoint BuildInput) :=
  [.start 0 (.queue ⟨7, 1, [("prompt", .str "a habit tracker")], none, none, none, none⟩),
    advanceAt 0 0, advanceAt 0 0, advanceAt 0 0,
    .start 1 (.claim "a" 60), advanceAt 1 0, advanceAt 1 0, advanceAt 1 0,
    .start 2 (.claim "b" 60), advanceAt 2 (61 * Schedules.second),
    advanceAt 2 (61 * Schedules.second), advanceAt 2 (61 * Schedules.second),
    .start 1 (.fail ⟨10, "a", 1, "timeout", false⟩), advanceAt 1 (62 * Schedules.second),
    advanceAt 1 (62 * Schedules.second),
    .start 2 (.fail ⟨10, "b", 2, "broken", false⟩), advanceAt 2 (63 * Schedules.second),
    advanceAt 2 (63 * Schedules.second)]

/-- Only the second worker fails the build. -/
theorem overtaken_build_settles :
    ∃ system : System BuildDb RowId BuildPoint,
      system.database.history 10 = [.failed "b" 2, .claimed "b" 2, .claimed "a" 1, .queued] ∧
        BuildsSettle Platform.ascii system := by
  have runs : (execute (System.step (buildProtocol Platform.ascii)) (fun _ _ => true)
      (System.idle ⟨oneApp, []⟩) overtakenBuild).any (fun system =>
        system.database.history 10 = [.failed "b" 2, .claimed "b" 2, .claimed "a" 1, .queued]) =
      true := by
    decide
  simp only [Option.any_eq_true, decide_eq_true_eq] at runs
  obtain ⟨system, toSystem, history⟩ := runs
  refine ⟨system, history, ?_⟩
  apply builds_settle _ _ ((run_of_execute toSystem).mono fun _ _ _ => True.intro)
  · rfl
  · rfl

end DotBackend.Apps
