import DotBackend.Builder.PipelineSoundness
import DotBackend.Builder.Settlement

/-!
# Every claim is settled safely

Whatever the pipeline, the database and the other workers do, a worker that got a claim
survives it: a completion that was committed is never taken back, and the job of the claim
has ended, is queued, or can be claimed again when its lease is over.
-/

namespace DotBackend.Builder

open Data Data.Outside Apps

/-! ## Runs on the queue -/

section Runs

variable {δ α β : Type} {db : BuildDb}

/-- From a database, a program keeps the queue, is not cancelled, and leaves something
behind. -/
def Runs (db : BuildDb) (program : Outside (BuildDb × δ) BuildError α)
    (facts : Except BuildError α → BuildDb → Prop) : Prop :=
  Triple (fun world => world.1 = db) program fun result world =>
    Advances db world.1 ∧ result ≠ .error .cancelled ∧ facts result world.1

variable {program : Outside (BuildDb × δ) BuildError α}
  {facts weaker : Except BuildError α → BuildDb → Prop}

theorem runs_pure {a : α} (queue : QueueLeased db) (holds : facts (.ok a) db) :
    Runs db (pure a : Outside (BuildDb × δ) BuildError α) facts := by
  apply triple_pure
  rintro world rfl
  exact ⟨Advances.refl queue, nofun, holds⟩

theorem runs_throw {error : BuildError} (queue : QueueLeased db) (isException : error ≠ .cancelled)
    (holds : facts (.error error) db) :
    Runs db (throw error : Outside (BuildDb × δ) BuildError α) facts := by
  apply triple_throw
  rintro world rfl
  refine ⟨Advances.refl queue, ?_, holds⟩
  rintro ⟨⟩
  exact isException rfl

theorem runs_lift {result : Except BuildError α} (queue : QueueLeased db)
    (isException : result ≠ .error .cancelled) (holds : facts result db) :
    Runs db (lift result : Outside (BuildDb × δ) BuildError α) facts := by
  apply triple_lift
  rintro world rfl
  exact ⟨Advances.refl queue, isException, holds⟩

theorem Runs.mono (runs : Runs db program facts)
    (weakens : ∀ result after, facts result after → weaker result after) :
    Runs db program weaker := by
  refine Triple.mono runs (fun _ same => same) ?_
  rintro result world ⟨advances, isException, holds⟩
  exact ⟨advances, isException, weakens result world.1 holds⟩

/-- The rule of sequence. -/
theorem Runs.bind {next : α → Outside (BuildDb × δ) BuildError β}
    {last : Except BuildError β → BuildDb → Prop} (first : Runs db program facts)
    (later : ∀ a after, Advances db after → facts (.ok a) after → Runs after (next a) last)
    (raised : ∀ error after, Advances db after → facts (.error error) after →
      last (.error error) after) : Runs db (program >>= next) last := by
  refine Triple.bind first ?_ ?_
  · rintro a world ⟨advances, _, holds⟩
    rcases later a world.1 advances holds world rfl with ⟨goesOn, isException, ends⟩
    exact ⟨advances.trans goesOn, isException, ends⟩
  · rintro error world ⟨advances, isException, holds⟩
    refine ⟨advances, ?_, raised error world.1 advances holds⟩
    rintro ⟨⟩
    exact isException rfl

/-- The rule of `try`. -/
theorem Runs.attempt (runs : Runs db program facts) :
    Runs db program.attempt fun result after => ∃ tried : Except BuildError α,
      result = .ok tried ∧ tried ≠ .error .cancelled ∧ facts tried after := by
  refine Triple.mono (Triple.attempt runs) (fun _ same => same) ?_
  rintro result world ⟨tried, rfl, advances, isException, holds⟩
  exact ⟨advances, nofun, tried, rfl, isException, holds⟩

theorem runs_raise (fault : Option Fault) (queue : QueueLeased db) :
    Runs db (raise fault : Outside (BuildDb × δ) BuildError Unit) fun _ after => after = db := by
  cases fault with
  | none => exact runs_pure queue rfl
  | some error => exact runs_throw queue error.property rfl

/-- A program that does not know the database. -/
theorem runs_inSecond {program : Outside δ BuildError α} (queue : QueueLeased db)
    (isException : ∀ world, (program.outcome world).1 ≠ .error .cancelled) :
    Runs db (inSecond program) fun _ after => after = db := by
  rintro ⟨_, world⟩ rfl
  exact ⟨Advances.refl queue, isException world, rfl⟩

end Runs

/-! ## The hooks -/

section Hooks

variable {δ α : Type} {db : BuildDb} {platform : Platform} {faults : CallFaults}

/-- A session gives back what its transaction left, unless it cannot be opened or closed. -/
theorem runs_inSession {body : Outside (BuildDb × δ) BuildError α} {facts : α → BuildDb → Prop}
    (queue : QueueLeased db)
    (runs : Runs db body fun result after => ∀ a, result = .ok a → facts a after) :
    Runs db (inSession faults body) fun result after => ∀ a, result = .ok a → facts a after := by
  apply (runs_raise faults.opening queue).bind
  · rintro _ _ _ rfl
    apply runs.attempt.bind
    · rintro _ after advances ⟨ended, ⟨⟩, isException, holds⟩
      apply (runs_raise faults.closing advances.queue).bind
      · rintro _ _ _ rfl
        exact runs_lift advances.queue isException holds
      · rintro error _ _ _ a ⟨⟩
    · rintro error after _ _ a ⟨⟩
  · rintro error after _ _ a ⟨⟩

/-- A transaction commits what it changes, or nothing. -/
theorem runs_transaction {change : BuildDb → Except CodeAppError (α × BuildDb)}
    {facts : α → BuildDb → Prop} (queue : QueueLeased db)
    (commits : ∀ before a after, QueueLeased before → change before = .ok (a, after) →
      Advances before after ∧ facts a after) :
    Runs db (transaction platform faults change : Outside (BuildDb × δ) BuildError α)
      fun result after => ∀ a, result = .ok a → facts a after := by
  rintro ⟨_, world⟩ rfl
  rename_i queue
  have others := advances_runCalls platform queue faults.others
  unfold transaction
  rw [outcome_call]
  dsimp only
  split
  · rename_i error _
    exact ⟨others, fun cancelled => error.property (Except.error.inj cancelled), nofun⟩
  · split
    · exact ⟨others, nofun, nofun⟩
    · rename_i _ error changed _
      exact ⟨others.trans (commits _ _ _ others.queue changed).1,
        fun cancelled => error.property (Except.error.inj cancelled), nofun⟩
    · rename_i a after changed _
      rcases commits _ _ _ others.queue changed with ⟨advances, holds⟩
      refine ⟨others.trans advances, nofun, ?_⟩
      rintro _ ⟨⟩
      exact holds

variable {service : ServiceHooks} {claim : BuildClaim}

/-- The claim of the worker is the claim of a job. -/
theorem runs_claimNextBuild (service : ServiceHooks) (queue : QueueLeased db) :
    Runs db (service.hooks.claimNextBuild : Outside (BuildDb × δ) BuildError _) fun result after =>
      ∀ claim, result = .ok (some claim) → ∃ job ∈ after.tables.jobs, job.id = claim.jobId := by
  have claims : Runs db (inSession service.claiming (transaction service.platform service.claiming
      fun db => db.claimNext service.workerId service.leaseSeconds service.claiming.now) :
        Outside (BuildDb × δ) BuildError _) fun result after =>
      ∀ claimed, result = .ok claimed → ∀ job, claimed = some job → job ∈ after.tables.jobs := by
    apply runs_inSession queue
    apply runs_transaction queue
    intro before claimed after leased claims
    exact advances_claimNext leased claims
  apply claims.bind
  · intro claimed after advances stored
    apply runs_pure advances.queue
    rintro claim same
    rcases Option.map_eq_some_iff.mp (Except.ok.inj same) with ⟨job, claimed_eq, rfl⟩
    exact ⟨job, stored claimed rfl job claimed_eq, rfl⟩
  · rintro error after _ _ claim ⟨⟩

/-- The hook that fails to complete raises an exception of its own. -/
theorem completionError_ne_cancelled (error : BuildError) :
    service.completionError error ≠ .cancelled := by
  unfold ServiceHooks.completionError
  split
  · exact nofun
  · exact nofun

theorem runs_completeBuild (queue : QueueLeased db) (completion : BuildCompletion) :
    Runs db (service.hooks.completeBuild claim completion : Outside (BuildDb × δ) BuildError Unit)
      fun _ _ => True := by
  have completes : Runs db (transaction service.platform service.completing
      (completeJob service claim completion) : Outside (BuildDb × δ) BuildError Unit)
        fun result (_ : BuildDb) => ∀ u, result = .ok u → True := by
    apply runs_transaction queue
    intro before _ after leased completed
    unfold completeJob at completed
    split at completed
    · cases completed
    · simp only [bind_eq_ok, pure_eq_ok, Prod.mk.injEq] at completed
      rcases completed with ⟨_, completes, _, rfl⟩
      exact ⟨advances_complete leased completes, True.intro⟩
  refine Runs.mono (?_ : Runs db _ fun result (_ : BuildDb) => ∀ u, result = .ok u → True)
    fun _ _ _ => True.intro
  apply runs_inSession queue
  apply completes.attempt.bind
  · rintro _ after advances ⟨completed, ⟨⟩, isException, _⟩
    split
    · exact runs_pure advances.queue fun _ _ => True.intro
    · exact absurd rfl isException
    · exact runs_throw advances.queue (completionError_ne_cancelled _) fun _ _ => True.intro
  · intro error after _ _ _ _
    exact True.intro

theorem runs_failBuild (queue : QueueLeased db) (failure : BuildFailure) :
    Runs db (service.hooks.failBuild claim failure : Outside (BuildDb × δ) BuildError Unit)
      fun _ _ => True := by
  have fails : Runs db (transaction service.platform service.failing
      (failJob service claim failure) : Outside (BuildDb × δ) BuildError Unit)
        fun result (_ : BuildDb) => ∀ u, result = .ok u → True := by
    apply runs_transaction queue
    intro before _ after leased failed
    simp only [failJob, bind_eq_ok, pure_eq_ok, Prod.mk.injEq] at failed
    rcases failed with ⟨_, fails, _, rfl⟩
    exact ⟨advances_fail leased fails, True.intro⟩
  exact (runs_inSession queue fails).mono fun _ _ _ => True.intro

/-! ## The worker -/

theorem runs_failBuildSafely (queue : QueueLeased db) (failure : BuildFailure) :
    Runs db (failBuildSafely service.hooks claim failure : Outside (BuildDb × δ) BuildError Unit)
      fun result _ => result = .ok () := by
  unfold failBuildSafely
  apply (runs_failBuild queue failure).attempt.bind
  · rintro _ after advances ⟨failed, ⟨⟩, isException, _⟩
    split
    · exact absurd rfl isException
    · exact runs_pure advances.queue rfl
  · rintro error after _ ⟨_, ⟨⟩, _⟩

/-- A claim is settled without an exception, whatever the pipeline raises. -/
theorem runs_settleClaim {pipeline : BuildClaim → Outside δ BuildError BuildCompletion}
    {durationMs : Int} (queue : QueueLeased db)
    (isException : ∀ world, ((pipeline claim).outcome world).1 ≠ .error .cancelled) :
    Runs db (settleClaim service.hooks (fun claim => inSecond (pipeline claim)) durationMs claim)
      fun result _ => result = .ok () := by
  unfold settleClaim
  apply (runs_inSecond queue isException).attempt.bind
  · rintro _ after advances ⟨built, ⟨⟩, notCancelled, _⟩
    split
    · exact absurd rfl notCancelled
    · exact runs_failBuildSafely advances.queue _
    · apply (runs_completeBuild advances.queue _).attempt.bind
      · rintro _ later settles ⟨completed, ⟨⟩, notCancelled, _⟩
        split
        · exact runs_pure settles.queue rfl
        · exact absurd rfl notCancelled
        · exact runs_failBuildSafely settles.queue _
      · rintro error later _ ⟨_, ⟨⟩, _⟩
  · rintro error after _ ⟨_, ⟨⟩, _⟩

end Hooks

/-! ## Safe settlement -/

/-- A job has ended, is queued, or can be claimed when its lease is over. -/
def Settles (job : GeneratedAppBuildJob) : Prop :=
  job.status = .succeeded ∨ job.status = .failed ∨ job.status = .queued ∨
    (job.status = .claimed ∧ ∃ lease, job.leaseExpiresAt = some lease ∧
      ∀ now, lease < now → job.eligible now = true)

/-- What a worker that got a claim leaves behind. -/
structure SettledSafely (claim : BuildClaim) (result : Except BuildError Bool)
    (claimed after : BuildDb) : Prop where
  returns : result = .ok true
  /-- The journal is only written on. -/
  journal : ∀ job ∈ claimed.tables.jobs, claimed.history job.id <:+ after.history job.id
  /-- A job whose completion was committed has succeeded, and nothing happened to it since. -/
  completed : ∀ job ∈ after.tables.jobs, ∀ worker attempt,
    .succeeded worker attempt ∈ after.history job.id → job.status = .succeeded ∧
      ∃ earlier, after.history job.id = .succeeded worker attempt :: earlier
  settled : ∃ job ∈ after.tables.jobs, job.id = claim.jobId ∧ Settles job

theorem settles_of_queueLeased {db : BuildDb} (queue : QueueLeased db) {job : GeneratedAppBuildJob}
    (stored : job ∈ db.tables.jobs) : Settles job := by
  cases status_eq : job.status with
  | succeeded => exact Or.inl status_eq
  | failed => exact Or.inr (Or.inl status_eq)
  | queued => exact Or.inr (Or.inr (Or.inl status_eq))
  | claimed =>
      rcases Option.isSome_iff_exists.mp (queue.leased job stored status_eq) with ⟨lease, lease_eq⟩
      refine Or.inr (Or.inr (Or.inr ⟨status_eq, lease, lease_eq, ?_⟩))
      intro now overdue
      simp [GeneratedAppBuildJob.eligible, status_eq, lease_eq, overdue]

/-- A job whose journal says that it succeeded stays so. -/
theorem succeeded_of_queueLeased {db : BuildDb} (queue : QueueLeased db) {job : GeneratedAppBuildJob}
    (stored : job ∈ db.tables.jobs) {worker : String} {attempt : Nat}
    (succeeded : .succeeded worker attempt ∈ db.history job.id) :
    job.status = .succeeded ∧
      ∃ earlier, db.history job.id = .succeeded worker attempt :: earlier := by
  rcases succeeded_last (queue.traced job stored) succeeded with ⟨last, attempts, phase_eq⟩
  refine ⟨?_, last⟩
  unfold GeneratedAppBuildJob.phase at phase_eq
  split at phase_eq
  · cases phase_eq
  · cases phase_eq
  · assumption
  · cases phase_eq

/-- The queue of tables without jobs. -/
theorem queueLeased_of_noJobs {tables : AppsDb} (noJobs : tables.jobs = [])
    (noneTold : tables.userEvents = []) : QueueLeased ⟨tables, []⟩ := by
  constructor
  · constructor <;> simp [noJobs, noneTold, Told, Table.UniqueOn]
  · simp [noJobs]

/-- The deadline of a build turns a cancellation into an exception. -/
theorem build_ne_cancelled {δ : Type} (parts : BuildParts δ) (letters : Letters)
    (clock : BuildClock) (claim : BuildClaim) (world : δ) :
    ((build parts letters clock claim).outcome world).1 ≠ .error .cancelled := by
  have builds : Triple (fun _ => True) (build parts letters clock claim)
      fun result _ => result ≠ .error .cancelled := by
    unfold build
    have tries : Triple (fun _ => True) (buildBeforeDeadline parts letters clock claim)
        fun _ _ => True := fun _ _ => True.intro
    refine Triple.bind (Triple.attempt tries) ?_ ?_
    · intro built
      split
      · exact triple_pure fun _ _ => nofun
      · exact triple_throw fun _ _ => nofun
      · exact triple_throw fun _ _ => nofun
      · rename_i error notCancelled _
        apply triple_throw
        rintro _ _ ⟨⟩
        exact notCancelled rfl
    · rintro error _ ⟨_, ⟨⟩, _⟩
  exact builds world True.intro

/-- A worker that got a claim settles it safely: for tables that any transactions of the queue
led to, any pipeline, and any exceptions of the hooks. -/
theorem process_next_build_settles {δ : Type} {tables : AppsDb} (noJobs : tables.jobs = [])
    (noneTold : tables.userEvents = []) (earlier : List (BuildCall × Instant))
    (service : ServiceHooks) (parts : BuildParts δ) (letters : Letters) (clock : BuildClock)
    (durationMs : Int) (world between : BuildDb × δ) (claim : BuildClaim)
    (reached : world.1 = runCalls service.platform earlier ⟨tables, []⟩)
    (claims : service.hooks.claimNextBuild.outcome world = (.ok (some claim), between)) :
    let ended := (processNextBuild service.hooks
      (fun claim => inSecond (build parts letters clock claim)) durationMs).outcome world
    SettledSafely claim ended.1 between.1 ended.2.1 := by
  have queue : QueueLeased world.1 := by
    rw [reached]
    exact (advances_runCalls service.platform (queueLeased_of_noJobs noJobs noneTold) earlier).queue
  have claimed := runs_claimNextBuild (δ := δ) service queue world rfl
  rw [claims] at claimed
  rcases claimed with ⟨claiming, _, stored⟩
  rcases stored claim rfl with ⟨job, jobMem, sameId⟩
  have settles : Runs between.1 (settleClaim service.hooks (fun claim =>
      inSecond (build parts letters clock claim)) durationMs claim >>= fun _ => pure true :
        Outside (BuildDb × δ) BuildError Bool) fun result _ => result = .ok true := by
    apply (runs_settleClaim claiming.queue (build_ne_cancelled parts letters clock claim)).bind
    · intro _ after advances _
      exact runs_pure advances.queue rfl
    · rintro error after _ ⟨⟩
  rcases settles between rfl with ⟨settling, _, returned⟩
  intro ended
  have ended_eq : ended = (settleClaim service.hooks (fun claim =>
      inSecond (build parts letters clock claim)) durationMs claim >>= fun _ => pure true :
        Outside (BuildDb × δ) BuildError Bool).outcome between :=
    outcome_bind_of_ok claims
  rw [← ended_eq] at settling returned
  exact {
    returns := returned
    journal := by
      intro row rowMem
      rcases settling.jobs row rowMem with ⟨_, _, _, grows⟩
      exact grows
    completed := by
      intro row rowMem worker attempt succeeded
      exact succeeded_of_queueLeased settling.queue rowMem succeeded
    settled := by
      rcases settling.jobs job jobMem with ⟨row, rowMem, rowId, _⟩
      exact ⟨row, rowMem, rowId.trans sameId, settles_of_queueLeased settling.queue rowMem⟩ }

/-- Nothing but the answer to a commit is lost. -/
def calm : CallFaults where
  others := []
  now := 0
  token := ""
  opening := none
  before := none
  after := none
  rollback := none
  closing := none

/-- A service whose completions and failures are committed, and their answers lost. -/
def losingAnswers : ServiceHooks where
  platform := Platform.ascii
  isTypeOrValueError className := className = "ValueError"
  publicUrl := ""
  workerId := "a"
  leaseSeconds := 60
  claiming := calm
  completing := { calm with after := some ⟨.other "ConnectionError" "", nofun⟩ }
  failing := { calm with after := some ⟨.other "ConnectionError" "", nofun⟩ }

/-- The build of one app is claimed. -/
theorem process_next_build_settles_lost_answers :
    let earlier : List (BuildCall × Instant) :=
      [(.queue ⟨7, 1, [("prompt", .str "a habit tracker")], none, none, none, none⟩, 0)]
    let world := (runCalls Platform.ascii earlier ⟨oneApp, []⟩, ())
    ∃ claim between, SettledSafely claim
      ((processNextBuild losingAnswers.hooks (fun claim => inSecond
        (build repairedPipeline Letters.ascii ⟨"", "", 0, []⟩ claim)) 0).outcome world).1 between
      ((processNextBuild losingAnswers.hooks (fun claim => inSecond
        (build repairedPipeline Letters.ascii ⟨"", "", 0, []⟩ claim)) 0).outcome world).2.1 := by
  intro earlier world
  have claims :
      ((losingAnswers.hooks.claimNextBuild.outcome world).1.toOption.join).isSome = true := by
    decide
  rcases ended : losingAnswers.hooks.claimNextBuild.outcome world with ⟨result, between⟩
  rw [ended] at claims
  cases result with
  | error error => cases claims
  | ok claimed =>
      cases claimed with
      | none => cases claims
      | some claim =>
          have noJobs : oneApp.jobs = [] := rfl
          exact ⟨claim, between.1, process_next_build_settles noJobs rfl earlier losingAnswers
            repairedPipeline Letters.ascii _ 0 world between claim rfl ended⟩

end DotBackend.Builder
