import DotBackend.Apps.BuildQueue

/-!
# The outcome of builds

In every interleaving of the transactions on builds, the row of a job stands where its
journal has led it, an app has at most one job that has not ended, and the outbox tells
the outcome of a job once.
-/

namespace DotBackend.Apps

open Data Transition Transaction

/-- The phase of a stored job. -/
def GeneratedAppBuildJob.phase (job : GeneratedAppBuildJob) : Phase :=
  match job.status with
  | .queued => .queued job.attempts
  | .claimed => .claimed (job.claimedBy.getD "") job.attempts
  | .succeeded => .succeeded job.attempts
  | .failed => .failed job.attempts

def OutcomeKey.jobId : OutcomeKey → Uuid
  | .appBuildCompleted id | .appBuildFailed id => id

/-- The outbox has an event of the key. -/
def Told (events : List UserEvent) (key : OutcomeKey) : Prop :=
  ∃ event ∈ events, event.idempotencyKey = key

variable {platform : Platform} {db before after : BuildDb} {id : Uuid}
  {job : GeneratedAppBuildJob} {rows : List RowId}

@[simp]
theorem phase_attempts (job : GeneratedAppBuildJob) : job.phase.attempts = job.attempts := by
  unfold GeneratedAppBuildJob.phase
  split <;> rfl

theorem not_final_of_isLive (isLive : job.isLive = true) :
    job.status ≠ .succeeded ∧ job.status ≠ .failed := by
  constructor
  · intro ended
    simp [GeneratedAppBuildJob.isLive, ended] at isLive
  · intro ended
    simp [GeneratedAppBuildJob.isLive, ended] at isLive

/-- A job that has not ended is queued or in a worker's hands. -/
theorem live_cases (isLive : job.isLive = true) : job.status = .queued ∨ job.status = .claimed := by
  simpa [GeneratedAppBuildJob.isLive] using isLive

/-! ## The outbox -/

theorem told_enqueueUserEvent {tables : AppsDb} {event : UserEvent} {key : OutcomeKey} :
    Told (enqueueUserEvent event tables).userEvents key ↔
      Told tables.userEvents key ∨ key = event.idempotencyKey := by
  unfold enqueueUserEvent
  split
  · rename_i existing
    obtain ⟨row, rowMem, sameKey⟩ := List.any_eq_true.mp existing
    constructor
    · exact Or.inl
    · rintro (told | rfl)
      · exact told
      · exact ⟨row, rowMem, of_decide_eq_true sameKey⟩
  · constructor
    · rintro ⟨row, rowMem, rfl⟩
      rcases List.mem_append.mp rowMem with oldMem | newMem
      · exact Or.inl ⟨row, oldMem, rfl⟩
      · exact Or.inr (by rw [List.mem_singleton.mp newMem])
    · rintro (⟨row, rowMem, rfl⟩ | rfl)
      · exact ⟨row, List.mem_append_left _ rowMem, rfl⟩
      · exact ⟨event, List.mem_append_right _ (List.mem_singleton_self event), rfl⟩

theorem nodup_enqueueUserEvent {tables : AppsDb} {event : UserEvent}
    (once : (tables.userEvents.map (·.idempotencyKey)).Nodup) :
    ((enqueueUserEvent event tables).userEvents.map (·.idempotencyKey)).Nodup := by
  unfold enqueueUserEvent
  split
  · exact once
  · rename_i absent
    rw [List.map_append, List.nodup_append]
    refine ⟨once, List.nodup_singleton _, ?_⟩
    intro key keyMem other otherMem same
    obtain ⟨row, rowMem, rfl⟩ := List.mem_map.mp keyMem
    rw [List.map_singleton, List.mem_singleton] at otherMem
    apply absent
    rw [List.any_eq_true]
    exact ⟨row, rowMem, decide_eq_true (same.trans otherMem)⟩

/-- What a change to a job with a new status tells: nothing about other jobs, a
completion when it succeeded, and a failure only when it failed. -/
structure Tells (id : Uuid) (status : GeneratedAppBuildStatus) (before after : List UserEvent) :
    Prop where
  once : (before.map (·.idempotencyKey)).Nodup → (after.map (·.idempotencyKey)).Nodup
  others : ∀ key : OutcomeKey, key.jobId ≠ id → (Told after key ↔ Told before key)
  completed : ¬ Told before (.appBuildCompleted id) →
    (Told after (.appBuildCompleted id) ↔ status = .succeeded)
  failed : ¬ Told before (.appBuildFailed id) → Told after (.appBuildFailed id) →
    status = .failed

theorem Tells.nothing {status : GeneratedAppBuildStatus} (events : List UserEvent)
    (notSucceeded : status ≠ .succeeded) : Tells id status events events where
  once := fun once => once
  others := fun _ _ => Iff.rfl
  completed untold := by
    constructor
    · exact fun told => absurd told untold
    · exact fun succeeded => absurd succeeded notSucceeded
  failed untold told := absurd told untold

theorem tells_completed (tables : AppsDb) {userId conversationId appId : Uuid} :
    Tells id .succeeded tables.userEvents
      (enqueueUserEvent ⟨userId, conversationId, .appBuildCompleted id, appId⟩ tables).userEvents where
  once := nodup_enqueueUserEvent
  others key other := by
    rw [told_enqueueUserEvent]
    constructor
    · rintro (told | rfl)
      · exact told
      · exact absurd rfl other
    · exact Or.inl
  completed _ := by
    rw [told_enqueueUserEvent]
    simp
  failed untold told := by
    rcases told_enqueueUserEvent.mp told with told | same
    · exact absurd told untold
    · cases same

theorem tells_failed (tables : AppsDb) {userId conversationId appId : Uuid} :
    Tells id .failed tables.userEvents
      (enqueueUserEvent ⟨userId, conversationId, .appBuildFailed id, appId⟩ tables).userEvents where
  once := nodup_enqueueUserEvent
  others key other := by
    rw [told_enqueueUserEvent]
    constructor
    · rintro (told | rfl)
      · exact told
      · exact absurd rfl other
    · exact Or.inl
  completed untold := by
    rw [told_enqueueUserEvent]
    constructor
    · rintro (told | same)
      · exact absurd told untold
      · cases same
    · rintro ⟨⟩
  failed _ _ := rfl

/-! ## The invariant -/

structure QueueSound (db : BuildDb) : Prop where
  unique : Table.UniqueOn (fun job => some job.id) db.tables.jobs
  known : ∀ job ∈ db.tables.jobs, job.id < db.tables.nextId
  journal_known : ∀ entry ∈ db.journal, entry.1 < db.tables.nextId
  told_known : ∀ key, Told db.tables.userEvents key → key.jobId < db.tables.nextId
  single : ∀ first ∈ db.tables.jobs, ∀ second ∈ db.tables.jobs, first.isLive = true →
    second.isLive = true → first.appId = second.appId → first.id = second.id
  traced : ∀ job ∈ db.tables.jobs, phaseOf (db.history job.id) = some job.phase
  inHand : ∀ job ∈ db.tables.jobs, job.status = .claimed → job.claimedBy.isSome = true
  told_once : (db.tables.userEvents.map (·.idempotencyKey)).Nodup
  completed : ∀ job ∈ db.tables.jobs,
    (Told db.tables.userEvents (.appBuildCompleted job.id) ↔ job.status = .succeeded)
  failed : ∀ job ∈ db.tables.jobs, Told db.tables.userEvents (.appBuildFailed job.id) →
    job.status = .failed

theorem QueueSound.eq_of_mem (sound : QueueSound db) {other : GeneratedAppBuildJob}
    (jobMem : job ∈ db.tables.jobs) (otherMem : other ∈ db.tables.jobs)
    (sameId : job.id = other.id) : job = other :=
  sound.unique.eq_of_mem jobMem otherMem rfl (by rw [sameId])

/-- What happens to a job in a commit: nothing, or a change along its phases, which the
journal records. -/
def Moves (before after : BuildDb) (job row : GeneratedAppBuildJob) : Prop :=
  (row = job ∧ after.history job.id = before.history job.id) ∨
    ∃ what, job.phase.next what = some row.phase ∧
      after.history job.id = what :: before.history job.id

/-- A commit of the queue: what holds after it, which rows stay, and how the others move. -/
structure BuildEffect (rows : List RowId) (before after : BuildDb) : Prop where
  sound : QueueSound after
  unwritten : ∀ job ∈ before.tables.jobs, .job job.id ∉ rows → job ∈ after.tables.jobs
  moves : ∀ job ∈ before.tables.jobs,
    ∃ row ∈ after.tables.jobs, row.id = job.id ∧ Moves before after job row

theorem isFinal_phase (job : GeneratedAppBuildJob) : job.phase.isFinal = !job.isLive := by
  unfold GeneratedAppBuildJob.phase GeneratedAppBuildJob.isLive
  split <;> rename_i status_eq <;> simp [status_eq, Phase.isFinal]

/-- A job that has ended stays as it is. -/
theorem BuildEffect.ended (effect : BuildEffect rows before after)
    (stored : job ∈ before.tables.jobs) (hasEnded : job.isLive = false) :
    job ∈ after.tables.jobs := by
  obtain ⟨row, rowMem, _, ⟨rfl, _⟩ | ⟨what, goes, _⟩⟩ := effect.moves job stored
  · exact rowMem
  · rw [Phase.next_of_isFinal (by rw [isFinal_phase, hasEnded]; rfl)] at goes
    cases goes

/-- A commit writes more rows. -/
theorem BuildEffect.mono {more : List RowId} (includes : ∀ row ∈ rows, row ∈ more)
    (effect : BuildEffect rows before after) : BuildEffect more before after where
  sound := effect.sound
  unwritten row rowMem notWritten :=
    effect.unwritten row rowMem fun written => notWritten (includes _ written)
  moves := effect.moves

/-- A commit that touches no job. -/
theorem BuildEffect.of_eq (sound : QueueSound before) (jobs : after.tables.jobs = before.tables.jobs)
    (journal : after.journal = before.journal)
    (events : after.tables.userEvents = before.tables.userEvents)
    (supply : after.tables.nextId = before.tables.nextId) : BuildEffect rows before after := by
  have history : ∀ id, after.history id = before.history id := by
    intro id
    simp only [BuildDb.history, journal]
  constructor
  · constructor <;> simp only [jobs, journal, events, supply, history]
    · exact sound.unique
    · exact sound.known
    · exact sound.journal_known
    · exact sound.told_known
    · exact sound.single
    · exact sound.traced
    · exact sound.inHand
    · exact sound.told_once
    · exact sound.completed
    · exact sound.failed
  · intro row rowMem _
    rwa [jobs]
  · intro row rowMem
    exact ⟨row, jobs ▸ rowMem, rfl, Or.inl ⟨rfl, history row.id⟩⟩

/-- A commit that changes one job. -/
structure Changes (id : Uuid) (change : GeneratedAppBuildJob → GeneratedAppBuildJob)
    (what : Change) (before after : BuildDb) : Prop where
  jobs : after.tables.jobs = (before.tables.updateJob id change).jobs
  journal : after.journal = (id, what) :: before.journal
  supply : before.tables.nextId ≤ after.tables.nextId
  sameId : ∀ job, (change job).id = job.id
  sameApp : ∀ job, (change job).appId = job.appId

namespace Changes

variable {change : GeneratedAppBuildJob → GeneratedAppBuildJob} {what : Change}

theorem of_mem (changes : Changes id change what before after) {row : GeneratedAppBuildJob}
    (rowMem : row ∈ after.tables.jobs) :
    (row ∈ before.tables.jobs ∧ row.id ≠ id) ∨
      ∃ old ∈ before.tables.jobs, old.id = id ∧ row = change old := by
  rw [changes.jobs] at rowMem
  obtain ⟨old, oldMem, rfl⟩ := Table.mem_update.mp rowMem
  by_cases same : old.id = id
  · apply Or.inr
    exact ⟨old, oldMem, same, by simp [same]⟩
  · apply Or.inl
    simpa [same] using oldMem

theorem mem_of_ne (changes : Changes id change what before after) {row : GeneratedAppBuildJob}
    (rowMem : row ∈ before.tables.jobs) (otherId : row.id ≠ id) : row ∈ after.tables.jobs := by
  rw [changes.jobs]
  exact Table.mem_update.mpr ⟨row, rowMem, by simp [otherId]⟩

theorem history_self (changes : Changes id change what before after) :
    after.history id = what :: before.history id := by
  simp [BuildDb.history, changes.journal]

theorem history_of_ne (changes : Changes id change what before after) {other : Uuid}
    (otherId : other ≠ id) : after.history other = before.history other := by
  simp [BuildDb.history, changes.journal, Ne.symm otherId]

/-- A change of a job that has not ended, along its phases, keeps the invariant. -/
theorem effect (changes : Changes id change what before after) (sound : QueueSound before)
    (stored : job ∈ before.tables.jobs) (same : job.id = id) (isLive : job.isLive = true)
    (goes : job.phase.next what = some (change job).phase)
    (inHand : (change job).status = .claimed → (change job).claimedBy.isSome = true)
    (tells : Tells id (change job).status before.tables.userEvents after.tables.userEvents) :
    BuildEffect [.job id] before after := by
  have onlyStored : ∀ row ∈ before.tables.jobs, row.id = id → row = job :=
    fun row rowMem sameId => sound.eq_of_mem rowMem stored (sameId.trans same.symm)
  have liveBefore : ∀ row ∈ after.tables.jobs, row.isLive = true →
      ∃ old ∈ before.tables.jobs, old.id = row.id ∧ old.appId = row.appId ∧ old.isLive = true := by
    intro row rowMem rowLive
    rcases changes.of_mem rowMem with ⟨oldMem, _⟩ | ⟨old, oldMem, sameId, rfl⟩
    · exact ⟨row, oldMem, rfl, rfl, rowLive⟩
    · rw [onlyStored old oldMem sameId, changes.sameId, changes.sameApp]
      exact ⟨job, stored, rfl, rfl, isLive⟩
  obtain ⟨notSucceeded, notFailed⟩ := not_final_of_isLive isLive
  have noCompletion : ¬ Told before.tables.userEvents (.appBuildCompleted id) := by
    rw [← same, sound.completed job stored]
    exact notSucceeded
  have noFailure : ¬ Told before.tables.userEvents (.appBuildFailed id) := by
    rw [← same]
    exact fun told => notFailed (sound.failed job stored told)
  have idKnown : id < after.tables.nextId :=
    lt_of_lt_of_le (same ▸ sound.known job stored) changes.supply
  constructor
  · constructor
    · rw [changes.jobs]
      exact sound.unique.update _ changes.sameId
    · intro row rowMem
      rcases changes.of_mem rowMem with ⟨oldMem, _⟩ | ⟨old, oldMem, sameId, rfl⟩
      · exact lt_of_lt_of_le (sound.known row oldMem) changes.supply
      · rw [changes.sameId, sameId]
        exact idKnown
    · rw [changes.journal]
      intro entry entryMem
      rcases List.mem_cons.mp entryMem with rfl | oldMem
      · exact idKnown
      · exact lt_of_lt_of_le (sound.journal_known entry oldMem) changes.supply
    · intro key told
      by_cases sameId : key.jobId = id
      · rw [sameId]
        exact idKnown
      · exact lt_of_lt_of_le (sound.told_known key ((tells.others key sameId).mp told))
          changes.supply
    · intro first firstMem second secondMem firstLive secondLive sameApp
      obtain ⟨a, aMem, aId, aApp, aLive⟩ := liveBefore first firstMem firstLive
      obtain ⟨b, bMem, bId, bApp, bLive⟩ := liveBefore second secondMem secondLive
      rw [← aId, ← bId]
      exact sound.single a aMem b bMem aLive bLive (aApp.trans (sameApp.trans bApp.symm))
    · intro row rowMem
      rcases changes.of_mem rowMem with ⟨oldMem, otherId⟩ | ⟨old, oldMem, sameId, rfl⟩
      · rw [changes.history_of_ne otherId]
        exact sound.traced row oldMem
      · rw [changes.sameId, sameId, changes.history_self, onlyStored old oldMem sameId]
        apply phaseOf_of_next _ goes
        rw [← same]
        exact sound.traced job stored
    · intro row rowMem claimed
      rcases changes.of_mem rowMem with ⟨oldMem, _⟩ | ⟨old, oldMem, sameId, rfl⟩
      · exact sound.inHand row oldMem claimed
      · rw [onlyStored old oldMem sameId] at claimed ⊢
        exact inHand claimed
    · exact tells.once sound.told_once
    · intro row rowMem
      rcases changes.of_mem rowMem with ⟨oldMem, otherId⟩ | ⟨old, oldMem, sameId, rfl⟩
      · rw [tells.others (.appBuildCompleted row.id) otherId]
        exact sound.completed row oldMem
      · rw [changes.sameId, sameId, onlyStored old oldMem sameId]
        exact tells.completed noCompletion
    · intro row rowMem told
      rcases changes.of_mem rowMem with ⟨oldMem, otherId⟩ | ⟨old, oldMem, sameId, rfl⟩
      · exact sound.failed row oldMem ((tells.others (.appBuildFailed row.id) otherId).mp told)
      · rw [changes.sameId, sameId] at told
        rw [onlyStored old oldMem sameId]
        exact tells.failed noFailure told
  · intro row rowMem notWritten
    apply changes.mem_of_ne rowMem
    rintro rfl
    exact notWritten (List.mem_singleton_self _)
  · intro row rowMem
    by_cases sameId : row.id = id
    · refine ⟨change job, ?_, ?_, Or.inr ⟨what, ?_, ?_⟩⟩
      · rw [changes.jobs]
        exact Table.mem_update.mpr ⟨job, stored, by simp [same]⟩
      · rw [changes.sameId, same, sameId]
      · rw [onlyStored row rowMem sameId]
        exact goes
      · rw [sameId]
        exact changes.history_self
    · exact ⟨row, changes.mem_of_ne rowMem sameId, rfl,
        Or.inl ⟨rfl, changes.history_of_ne sameId⟩⟩

end Changes

end DotBackend.Apps
