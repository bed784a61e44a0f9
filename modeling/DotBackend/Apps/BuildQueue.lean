import DotBackend.Apps.BuildJournal
import DotBackend.Apps.Builds
import DotBackend.Transaction.ReadCommitted

/-!
# The transactions on builds

The program points of queuing, claiming, completing and failing a build and of archiving
an app, with the row locks that they take. What a transaction reads under its locks is
evaluated when it commits. The journal records what happened to every job; the service
does not read it.
-/

namespace DotBackend.Apps

open Data Transaction

/-- The tables, and the journal of all jobs, newest first. -/
structure BuildDb where
  tables : AppsDb
  journal : List (Uuid × Change)

/-- What happened to a job, newest first. -/
def BuildDb.history (db : BuildDb) (id : Uuid) : List Change :=
  (db.journal.filter fun entry => entry.1 = id).map Prod.snd

/-- The rows that the transactions lock. -/
inductive RowId
  | app (id : Uuid)
  | user (id : Uuid)
  | job (id : Uuid)
  deriving DecidableEq

/-- What a session reads from outside the database at one point. -/
structure BuildInput where
  now : Instant
  /-- A random token. -/
  token : String
  /-- Whether the caller of an archiving commits. -/
  commits : Bool

inductive BuildPoint
  | queue (request : QueueRequest)
  | checkQuota (request : QueueRequest)
  | insertJob (job : GeneratedAppBuildJob)
  | claim (workerId : String) (leaseSeconds : Int)
  | poll (workerId : String) (leaseSeconds : Int)
  | writeClaim (job : GeneratedAppBuildJob) (workerId : String) (leaseSeconds : Int) (now : Instant)
  | terminalize (job : GeneratedAppBuildJob) (workerId : String) (leaseSeconds : Int)
      (now : Instant)
  | complete (result : BuildResult)
  | lockApp (job : GeneratedAppBuildJob) (result : BuildResult)
  | writeComplete (job : GeneratedAppBuildJob) (result : BuildResult)
  | fail (failure : BuildFailure)
  | writeFail (job : GeneratedAppBuildJob) (failure : BuildFailure)
  | archive (userId appId : Uuid)
  | lockJobs (appId : Uuid)
  | writeArchive (appId : Uuid)
  | finished
  deriving DecidableEq

/-! ## Reading -/

/-- The rows that `_claimed_job` locks. -/
def claimedRows (jobId : Uuid) (workerId : String) (expectedAttempt : Int) (db : BuildDb) :
    List RowId :=
  match claimedJob db.tables jobId workerId expectedAttempt with
  | .ok job => [.job job.id]
  | .error _ => []

/-- The rows that the last update of `archive_generated_app` locks. -/
def liveRows (appId : Uuid) (db : BuildDb) : List RowId :=
  (db.tables.jobs.filter fun job => job.appId = appId && job.isLive).map fun job => .job job.id

/-- The rows that `claim_next_build` may lock, in order. -/
def buildCandidates (now : Instant) (db : BuildDb) : List RowId :=
  (Table.orderBy (fun a b => a.createdAt ≤ b.createdAt)
    (db.tables.jobs.filter (GeneratedAppBuildJob.eligible now))).map fun job => .job job.id

def startQuota (request : QueueRequest) (db : BuildDb) : BuildPoint :=
  match startQueue db.tables request with
  | .ok none => .checkQuota request
  | _ => .finished

def startInsert (request : QueueRequest) (now : Instant) (db : BuildDb) : BuildPoint :=
  match newJob db.tables request now with
  | .ok job => .insertJob job
  | .error _ => .finished

/-- `claim_next_build`, with the row that it locked. -/
def startBuild (workerId : String) (leaseSeconds : Int) (now : Instant) (chosen : Option RowId)
    (db : BuildDb) : BuildPoint :=
  match chosen with
  | some (.job id) =>
      match db.tables.job? id with
      | none => .finished
      | some job =>
          if maxBuildAttempts ≤ job.attempts then .terminalize job workerId leaseSeconds now
          else .writeClaim job workerId leaseSeconds now
  | _ => .finished

/-- `complete_build`, up to the lock of the app. -/
def startCompletion (result : BuildResult) (db : BuildDb) : BuildPoint :=
  match claimedJob db.tables result.jobId result.workerId result.expectedAttempt with
  | .ok job => if (checkBuildResult result).isOk then .lockApp job result else .finished
  | .error _ => .finished

def startFailure (failure : BuildFailure) (db : BuildDb) : BuildPoint :=
  match claimedJob db.tables failure.jobId failure.workerId failure.expectedAttempt with
  | .ok job => .writeFail job failure
  | .error _ => .finished

/-! ## Writing -/

def writeJob (job : GeneratedAppBuildJob) (db : BuildDb) : BuildDb where
  tables := insertJob job db.tables
  journal := (db.tables.nextId, .queued) :: db.journal

def writeBuildClaim (job : GeneratedAppBuildJob) (workerId : String) (leaseSeconds : Int)
    (now : Instant) (db : BuildDb) : BuildDb where
  tables := db.tables.updateJob job.id (GeneratedAppBuildJob.claimedFor workerId leaseSeconds now)
  journal := (job.id, .claimed workerId (job.attempts + 1)) :: db.journal

def writeTerminalized (job : GeneratedAppBuildJob) (now : Instant) (db : BuildDb) : BuildDb where
  tables := terminalizeExhaustedBuildClaim job now db.tables
  journal := (job.id, .terminalized) :: db.journal

def writeCompletion (unicode : Unicode) (job : GeneratedAppBuildJob) (result : BuildResult)
    (token : String) (now : Instant) (db : BuildDb) : BuildDb where
  tables := (finishBuild unicode db.tables job result token now).toOption.getD db.tables
  journal := (job.id, .succeeded result.workerId job.attempts) :: db.journal

def writeFailure (platform : Platform) (job : GeneratedAppBuildJob) (failure : BuildFailure)
    (now : Instant) (db : BuildDb) : BuildDb where
  tables := (settleFailure platform db.tables job failure now).toOption.getD db.tables
  journal := (job.id, if retries platform failure job then .requeued failure.workerId job.attempts
    else .failed failure.workerId job.attempts) :: db.journal

def writeArchived (appId : Uuid) (now : Instant) (db : BuildDb) : BuildDb where
  tables := archiveGeneratedApp appId now db.tables
  journal := (db.tables.jobs.filter fun job => job.appId = appId && job.isLive).map
    (fun job => (job.id, .archived)) ++ db.journal

/-! ## The protocol -/

/-- What a session requests at a point. -/
def buildRequest (platform : Platform) : BuildPoint → BuildInput →
    Request BuildDb RowId BuildPoint
  | .queue request, _ => .lock (fun _ => [.app request.appId]) (startQuota request)
  | .checkQuota request, input =>
      .lock (fun _ => [.user request.userId]) (startInsert request input.now)
  | .insertJob job, _ =>
      .commit (fun _ => []) (fun db => jobsPermit job db.tables) (writeJob job) (fun _ => none) none
  | .claim workerId leaseSeconds, _ =>
      match text (.str workerId) "worker_id" 120 with
      | .ok clean => .read fun _ => .poll clean leaseSeconds
      | .error _ => .rollback none
  | .poll workerId leaseSeconds, input =>
      .skipLocked (buildCandidates input.now) (startBuild workerId leaseSeconds input.now)
  | .writeClaim job workerId leaseSeconds now, _ =>
      .commit (fun _ => [.job job.id]) (fun _ => true)
        (writeBuildClaim job workerId leaseSeconds now) (fun _ => none) none
  | .terminalize job workerId leaseSeconds now, _ =>
      .commit (fun _ => [.job job.id]) (fun _ => true) (writeTerminalized job now)
        (fun _ => some (.poll workerId leaseSeconds)) none
  | .complete result, _ =>
      .lock (claimedRows result.jobId result.workerId result.expectedAttempt)
        (startCompletion result)
  | .lockApp job result, _ => .lock (fun _ => [.app job.appId]) fun _ => .writeComplete job result
  | .writeComplete job result, input =>
      .commit (fun _ => [.job job.id, .app job.appId])
        (fun db =>
          (finishBuild platform.toUnicode db.tables job result input.token input.now).isOk)
        (writeCompletion platform.toUnicode job result input.token input.now) (fun _ => none) none
  | .fail failure, _ =>
      .lock (claimedRows failure.jobId failure.workerId failure.expectedAttempt)
        (startFailure failure)
  | .writeFail job failure, input =>
      .commit (fun _ => [.job job.id])
        (fun db => (settleFailure platform db.tables job failure input.now).isOk)
        (writeFailure platform job failure input.now) (fun _ => none) none
  | .archive userId appId, _ =>
      .lock (fun _ => [.app appId]) fun db =>
        if mayArchive db.tables userId appId then .lockJobs appId else .finished
  | .lockJobs appId, _ => .lock (liveRows appId) fun _ => .writeArchive appId
  | .writeArchive appId, input =>
      if input.commits then
        .commit (fun db => .app appId :: liveRows appId db) (fun _ => true)
          (writeArchived appId input.now) (fun _ => none) none
      else .rollback none
  | .finished, _ => .rollback none

/-- The entry points of the service. -/
def BuildPoint.isEntry : BuildPoint → Bool
  | .queue _ | .claim _ _ | .complete _ | .fail _ | .archive _ _ => true
  | _ => false

def buildProtocol (platform : Platform) : Protocol BuildDb RowId BuildPoint BuildInput where
  starts := BuildPoint.isEntry
  request := buildRequest platform

/-! ## The requests -/

/-- Where a session goes on after it locked rows. -/
inductive Locking (db : BuildDb) : BuildPoint → List RowId → BuildPoint → Prop
  | finished {point : BuildPoint} {rows : List RowId} : Locking db point rows .finished
  | checkQuota {request : QueueRequest} {rows : List RowId} :
      Locking db (.queue request) rows (.checkQuota request)
  | insertJob {request : QueueRequest} {rows : List RowId} {job : GeneratedAppBuildJob}
      {now : Instant} : newJob db.tables request now = .ok job →
      Locking db (.checkQuota request) rows (.insertJob job)
  | lockApp {result : BuildResult} {job : GeneratedAppBuildJob} :
      claimedJob db.tables result.jobId result.workerId result.expectedAttempt = .ok job →
      Locking db (.complete result) [.job job.id] (.lockApp job result)
  | writeComplete {job : GeneratedAppBuildJob} {result : BuildResult} {rows : List RowId} :
      Locking db (.lockApp job result) rows (.writeComplete job result)
  | writeFail {failure : BuildFailure} {job : GeneratedAppBuildJob} :
      claimedJob db.tables failure.jobId failure.workerId failure.expectedAttempt = .ok job →
      Locking db (.fail failure) [.job job.id] (.writeFail job failure)
  | lockJobs {userId appId : Uuid} {rows : List RowId} :
      Locking db (.archive userId appId) rows (.lockJobs appId)
  | writeArchive {appId : Uuid} {rows : List RowId} :
      Locking db (.lockJobs appId) rows (.writeArchive appId)

/-- Where a session goes on after it looked for a build. -/
inductive Polling (db : BuildDb) : Option RowId → BuildPoint → Prop
  | finished {chosen : Option RowId} : Polling db chosen .finished
  | writeClaim {id : Uuid} {job : GeneratedAppBuildJob} {workerId : String} {leaseSeconds : Int}
      {now : Instant} : db.tables.job? id = some job → job.attempts < 3 →
      Polling db (some (.job id)) (.writeClaim job workerId leaseSeconds now)
  | terminalize {id : Uuid} {job : GeneratedAppBuildJob} {workerId : String} {leaseSeconds : Int}
      {now : Instant} : db.tables.job? id = some job → 3 ≤ job.attempts →
      Polling db (some (.job id)) (.terminalize job workerId leaseSeconds now)

/-- The commits of the protocol. -/
inductive BuildWriting (platform : Platform) : BuildPoint → BuildInput →
    (BuildDb → List RowId) → (BuildDb → Bool) → (BuildDb → BuildDb) →
      (BuildDb → Option BuildPoint) → Prop
  | insertJob {job : GeneratedAppBuildJob} {input : BuildInput} :
      BuildWriting platform (.insertJob job) input (fun _ => [])
        (fun db => jobsPermit job db.tables) (writeJob job) (fun _ => none)
  | writeClaim {job : GeneratedAppBuildJob} {workerId : String} {leaseSeconds : Int}
      {now : Instant} {input : BuildInput} :
      BuildWriting platform (.writeClaim job workerId leaseSeconds now) input
        (fun _ => [.job job.id]) (fun _ => true) (writeBuildClaim job workerId leaseSeconds now)
        (fun _ => none)
  | terminalize {job : GeneratedAppBuildJob} {workerId : String} {leaseSeconds : Int}
      {now : Instant} {input : BuildInput} :
      BuildWriting platform (.terminalize job workerId leaseSeconds now) input
        (fun _ => [.job job.id]) (fun _ => true) (writeTerminalized job now)
        (fun _ => some (.poll workerId leaseSeconds))
  | writeComplete {job : GeneratedAppBuildJob} {result : BuildResult} {input : BuildInput} :
      BuildWriting platform (.writeComplete job result) input
        (fun _ => [.job job.id, .app job.appId])
        (fun db =>
          (finishBuild platform.toUnicode db.tables job result input.token input.now).isOk)
        (writeCompletion platform.toUnicode job result input.token input.now) (fun _ => none)
  | writeFail {job : GeneratedAppBuildJob} {failure : BuildFailure} {input : BuildInput} :
      BuildWriting platform (.writeFail job failure) input (fun _ => [.job job.id])
        (fun db => (settleFailure platform db.tables job failure input.now).isOk)
        (writeFailure platform job failure input.now) (fun _ => none)
  | writeArchive {appId : Uuid} {input : BuildInput} : input.commits = true →
      BuildWriting platform (.writeArchive appId) input (fun db => .app appId :: liveRows appId db)
        (fun _ => true) (writeArchived appId input.now) (fun _ => none)

/-- What a request of the service is. -/
inductive BuildRequests (platform : Platform) (point : BuildPoint) (input : BuildInput) :
    Request BuildDb RowId BuildPoint → Prop
  | read {workerId : String} {leaseSeconds : Int} :
      BuildRequests platform point input (.read fun _ => .poll workerId leaseSeconds)
  | lock {rows : BuildDb → List RowId} {next : BuildDb → BuildPoint} :
      (∀ db, Locking db point (rows db) (next db)) →
      BuildRequests platform point input (.lock rows next)
  | poll {next : Option RowId → BuildDb → BuildPoint} :
      (∀ chosen db, Polling db chosen (next chosen db)) →
      BuildRequests platform point input (.skipLocked (buildCandidates input.now) next)
  | commit {rows : BuildDb → List RowId} {permitted : BuildDb → Bool} {write : BuildDb → BuildDb}
      {next : BuildDb → Option BuildPoint} :
      BuildWriting platform point input rows permitted write next →
      BuildRequests platform point input (.commit rows permitted write next none)
  | rollback : BuildRequests platform point input (.rollback none)

theorem locking_startCompletion {db : BuildDb} {result : BuildResult} :
    Locking db (.complete result)
      (claimedRows result.jobId result.workerId result.expectedAttempt db)
      (startCompletion result db) := by
  unfold startCompletion claimedRows
  split
  · rename_i claimed
    split
    · exact Locking.lockApp claimed
    · exact Locking.finished
  · exact Locking.finished

theorem locking_startFailure {db : BuildDb} {failure : BuildFailure} :
    Locking db (.fail failure)
      (claimedRows failure.jobId failure.workerId failure.expectedAttempt db)
      (startFailure failure db) := by
  unfold startFailure claimedRows
  split
  · rename_i claimed
    exact Locking.writeFail claimed
  · exact Locking.finished

theorem polling_startBuild {db : BuildDb} {workerId : String} {leaseSeconds : Int} {now : Instant}
    (chosen : Option RowId) : Polling db chosen (startBuild workerId leaseSeconds now chosen db) := by
  unfold startBuild
  split
  · split
    · exact Polling.finished
    · rename_i found
      split
      · exact Polling.terminalize found ‹_›
      · exact Polling.writeClaim found (Nat.lt_of_not_le ‹_›)
  · exact Polling.finished

theorem buildRequests (platform : Platform) (point : BuildPoint) (input : BuildInput) :
    BuildRequests platform point input (buildRequest platform point input) := by
  cases point with
  | queue request =>
      apply BuildRequests.lock
      intro db
      unfold startQuota
      split
      · exact Locking.checkQuota
      · exact Locking.finished
  | checkQuota request =>
      apply BuildRequests.lock
      intro db
      unfold startInsert
      split
      · exact Locking.insertJob ‹_›
      · exact Locking.finished
  | insertJob job => exact BuildRequests.commit BuildWriting.insertJob
  | claim workerId leaseSeconds =>
      rw [buildRequest]
      split
      · exact BuildRequests.read
      · exact BuildRequests.rollback
  | poll workerId leaseSeconds =>
      apply BuildRequests.poll
      exact fun chosen _ => polling_startBuild chosen
  | writeClaim job workerId leaseSeconds now => exact BuildRequests.commit BuildWriting.writeClaim
  | terminalize job workerId leaseSeconds now => exact BuildRequests.commit BuildWriting.terminalize
  | complete result => exact BuildRequests.lock fun _ => locking_startCompletion
  | lockApp job result => exact BuildRequests.lock fun _ => Locking.writeComplete
  | writeComplete job result => exact BuildRequests.commit BuildWriting.writeComplete
  | fail failure => exact BuildRequests.lock fun _ => locking_startFailure
  | writeFail job failure => exact BuildRequests.commit BuildWriting.writeFail
  | archive userId appId =>
      apply BuildRequests.lock
      intro db
      split
      · exact Locking.lockJobs
      · exact Locking.finished
  | lockJobs appId => exact BuildRequests.lock fun _ => Locking.writeArchive
  | writeArchive appId =>
      rw [buildRequest]
      split
      · exact BuildRequests.commit (BuildWriting.writeArchive ‹_›)
      · exact BuildRequests.rollback
  | finished => exact BuildRequests.rollback

theorem buildRequests_of_eq {platform : Platform} {point : BuildPoint} {input : BuildInput}
    {requested : Request BuildDb RowId BuildPoint}
    (requested_eq : (buildProtocol platform).request point input = requested) :
    BuildRequests platform point input requested :=
  requested_eq ▸ buildRequests platform point input

end DotBackend.Apps
